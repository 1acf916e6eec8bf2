import SuperHerdr.Bridge.Steps

/-!
# The bridge leads a code to who published it

A code is looked up under one lock and its route under another, so what `route_for_code` promises is
about the moment of the look: `routing_is_sound` says that the generation that is returned then had
the route, had last published this very code, and had not let it expire. By the second lock the code
may be withdrawn (`a_withdrawn_code_still_leads`), but the generation still has the route.

What a run has done is kept beside it in a `Ledger`: under which secret each generation registered,
what it published last, and whose each device is. A generation is `Settled` once its claim was made;
from then on nothing registers it again, which is why one that has its route at the second lock had
it at the first.
-/

namespace SuperHerdr

namespace Bridge

open Transducer RelayState

variable {sha256 : String → String}

/-! ### The ledger -/

/-- What the connectors and the devices have done. -/
structure Ledger where
  /-- The secret a generation was registered under. -/
  secrets : ℕ → Option String
  /-- What a generation published last under a route, and when. -/
  published : String × ℕ → Option (String × ℕ)
  /-- The generation a connection is a device of. -/
  owner : ℕ → Option ℕ

namespace Ledger

def new : Ledger := ⟨fun _ => none, fun _ => none, fun _ => none⟩

/-- What a step adds, read off the task that takes it. -/
def write (self : Ledger) (now connection : ℕ) : Task → Task → Ledger
  | .claiming _ secret generation, after =>
      if after = .done then self
      else { self with secrets := Function.update self.secrets generation (some secret) }
  | .publishing route generation offered, _ =>
      { self with
        published := Function.update self.published (route, generation)
          ((RelayState.offeredCode offered).map fun code => (code, now)) }
  | .attaching _ _ generation, _ =>
      { self with owner := Function.update self.owner connection (some generation) }
  | _, _ => self

def note (self : Ledger) (before : System) : Event → System × List Output → Ledger
  | .run i _, after =>
      match before.tasks[i]?, after.1.tasks[i]? with
      | some task, some next => self.write before.now before.relay.nextConnection task next
      | _, _ => self
  | _, _ => self

end Ledger

/-- The bridge, with the ledger beside it. -/
def System.observed (sha256 : String → String) :
    System × Ledger → Event → (System × Ledger) × List Output :=
  observe (System.step sha256) Ledger.note

def System.run (sha256 : String → String) (events : List Event) : System × Ledger :=
  (exec (System.observed sha256) (.new, .new) events).1

@[simp] theorem System.run_fst (sha256 : String → String) (events : List Event) :
    (System.run sha256 events).1 = (exec (System.step sha256) .new events).1 :=
  exec_observe_fst _ _ _ _

/-! ### Generations are claimed once -/

namespace System

variable {self : System} {i : ℕ} {task : Task} {message : Message}

theorem step_run (h : self.tasks[i]? = some task) :
    self.step sha256 (.run i message) =
      ({ self with
          relay := (advance sha256 self.now self.relay task message).1
          tasks := self.tasks.set i (advance sha256 self.now self.relay task message).2.1 },
        (advance sha256 self.now self.relay task message).2.2) := by
  simp [step, h]

theorem step_run_none (h : self.tasks[i]? = none) :
    self.step sha256 (.run i message) = (self, []) := by
  simp [step, h]

/-- A generation whose claim was made. No task will make it again. -/
def Settled (self : System) (generation : ℕ) : Prop :=
  generation < self.relay.nextGeneration ∧ ∀ task ∈ self.tasks, task.claim? ≠ some generation

/-- Every generation is claimed by one task, and only one that was claimed is found anywhere. -/
structure Numbered (system : System) : Prop where
  claims : ∀ (i j : ℕ) (a b : Task) (g : ℕ), system.tasks[i]? = some a →
    system.tasks[j]? = some b → a.claim? = some g → b.claim? = some g → i = j
  claim : ∀ task ∈ system.tasks, ∀ g, task.claim? = some g → g < system.relay.nextGeneration
  host : ∀ task ∈ system.tasks, ∀ r g, task.host? = some (r, g) → system.Settled g
  routes : ∀ (r : String) (live : LiveRoute), system.relay.routes[r]? = some live →
    system.Settled live.generation
  codes : ∀ code, ∀ held ∈ system.relay.codes code, system.Settled held.generation

theorem mem_set_tasks {after other : Task} (h : other ∈ self.tasks.set i after) :
    other ∈ self.tasks ∨ other = after := by
  rcases List.mem_or_eq_of_mem_set h with h | h
  · exact .inl h
  · exact .inr h

theorem settled_append {g : ℕ} (hclaim : task.claim? = none) (h : self.Settled g) :
    { self with tasks := self.tasks ++ [task] }.Settled g := by
  refine ⟨h.1, fun other hother => ?_⟩
  rcases List.mem_append.mp hother with hother | hother
  · exact h.2 other hother
  · simp [List.mem_singleton.mp hother, hclaim]

theorem Settled.step {g : ℕ} (h : self.Settled g) (event : Event) :
    (self.step sha256 event).1.Settled g := by
  cases event with
  | connect route secret => exact settled_append rfl h
  | ask code => exact settled_append rfl h
  | request route => exact settled_append rfl h
  | pass elapsed => exact h
  | run i message =>
    cases htask : self.tasks[i]? with
    | none => rwa [step_run_none htask]
    | some task =>
      rw [step_run htask]
      refine ⟨lt_of_lt_of_le h.1 advance_nextGeneration, fun other hother => ?_⟩
      rcases mem_set_tasks hother with hother | rfl
      · exact h.2 other hother
      · intro hclaim
        have hnew : g = self.relay.nextGeneration := (advance_claim hclaim).2.1
        have hlt := h.1
        omega

/-- A task that makes its claim has settled it. -/
theorem Numbered.settles {route secret : String} {g : ℕ} (h : self.Numbered)
    (htask : self.tasks[i]? = some (.claiming route secret g)) :
    (self.step sha256 (.run i message)).1.Settled g := by
  have hclaim : (Task.claiming route secret g).claim? = some g := rfl
  have hlt : g < self.relay.nextGeneration :=
    h.claim _ (List.mem_of_getElem? htask) g hclaim
  rw [step_run htask]
  refine ⟨lt_of_lt_of_le hlt advance_nextGeneration, fun other hother hother_claim => ?_⟩
  obtain ⟨j, hj⟩ := List.mem_iff_getElem?.mp hother
  rw [List.getElem?_set] at hj
  split at hj
  · split at hj
    · have hnone := (advance_claim (Option.some.inj hj ▸ hother_claim)).1
      cases hnone
    · cases hj
  · next hij => exact hij (h.claims i j _ _ g htask hj hclaim hother_claim)

theorem Numbered.append (h : self.Numbered) (hclaim : task.claim? = none)
    (hhost : task.host? = none) : { self with tasks := self.tasks ++ [task] }.Numbered where
  claims i j a b g ha hb hga hgb := by
    rw [List.getElem?_append] at ha hb
    split at ha
    · split at hb
      · exact h.claims i j a b g ha hb hga hgb
      · have hmem := List.mem_of_getElem? hb
        rw [List.mem_singleton.mp hmem, hclaim] at hgb
        cases hgb
    · have hmem := List.mem_of_getElem? ha
      rw [List.mem_singleton.mp hmem, hclaim] at hga
      cases hga
  claim other hother g hg := by
    rcases List.mem_append.mp hother with hother | hother
    · exact h.claim other hother g hg
    · rw [List.mem_singleton.mp hother, hclaim] at hg
      cases hg
  host other hother r g hg := by
    rcases List.mem_append.mp hother with hother | hother
    · exact settled_append hclaim (h.host other hother r g hg)
    · rw [List.mem_singleton.mp hother, hhost] at hg
      cases hg
  routes r live hlive := settled_append hclaim (h.routes r live hlive)
  codes code held hheld := settled_append hclaim (h.codes code held hheld)

theorem Numbered.step (h : self.Numbered) (event : Event) :
    (self.step sha256 event).1.Numbered := by
  cases event with
  | connect route secret => exact h.append rfl rfl
  | ask code => exact h.append rfl rfl
  | request route => exact h.append rfl rfl
  | pass elapsed => exact ⟨h.claims, h.claim, h.host, h.routes, h.codes⟩
  | run i message =>
    cases htask : self.tasks[i]? with
    | none => rwa [step_run_none htask]
    | some task =>
      have hmem : task ∈ self.tasks := List.mem_of_getElem? htask
      have hkeep : ∀ g, self.Settled g → (self.step sha256 (.run i message)).1.Settled g :=
        fun g hg => hg.step _
      have hsettles : ∀ r secret g, task = .claiming r secret g →
          (self.step sha256 (.run i message)).1.Settled g := by
        rintro r secret g rfl
        exact h.settles htask
      rw [step_run htask] at hkeep hsettles ⊢
      constructor
      · intro j k a b g ha hb hga hgb
        rw [List.getElem?_set] at ha hb
        -- What a step newly claims is the next generation, which nobody else has.
        have hnew : ∀ (j : ℕ) (b : Task), self.tasks[j]? = some b → b.claim? = some g →
            (advance sha256 self.now self.relay task message).2.1.claim? = some g → False := by
          intro j b hb hgb hclaim
          have heq : g = self.relay.nextGeneration := (advance_claim hclaim).2.1
          have hlt := h.claim b (List.mem_of_getElem? hb) g hgb
          omega
        split at ha
        · next hij =>
          split at ha
          · split at hb
            · next hik => omega
            · exact (hnew k b hb hgb (Option.some.inj ha ▸ hga)).elim
          · cases ha
        · split at hb
          · split at hb
            · exact (hnew j a ha hga (Option.some.inj hb ▸ hgb)).elim
            · cases hb
          · exact h.claims j k a b g ha hb hga hgb
      · intro other hother g hg
        rcases mem_set_tasks hother with hother | rfl
        · exact lt_of_lt_of_le (h.claim other hother g hg) advance_nextGeneration
        · exact lt_of_lt_of_eq (Nat.lt_succ_self g) (advance_claim hg).2.2.symm
      · intro other hother r g hg
        rcases mem_set_tasks hother with hother | rfl
        · exact hkeep g (h.host other hother r g hg)
        · rcases advance_becomes.host hg with hhost | ⟨secret, hclaiming⟩
          · exact hkeep g (h.host task hmem r g hhost)
          · exact hsettles r secret g hclaiming
      · intro r live hlive
        rcases advance_routes hlive with hold | ⟨secret, hclaiming, -, -⟩
        · exact hkeep _ (h.routes r live hold)
        · exact hsettles r secret _ hclaiming
      · intro code held hheld
        rcases advance_codes hheld with ⟨hold, -⟩ | ⟨offered, hpublishing, -, -⟩
        · exact hkeep _ (h.codes code held hold)
        · exact hkeep _ (h.host task hmem held.route held.generation (by rw [hpublishing]; rfl))

theorem registered_of_step {g : ℕ} {route : String} (hsettled : self.Settled g) (event : Event)
    (h : (self.step sha256 event).1.relay.registered route g) :
    self.relay.registered route g := by
  cases event with
  | connect route secret => exact h
  | ask code => exact h
  | request route => exact h
  | pass elapsed => exact h
  | run i message =>
    cases htask : self.tasks[i]? with
    | none => rwa [step_run_none htask] at h
    | some task =>
      rw [step_run htask] at h
      obtain ⟨live, hlive, rfl⟩ := registered_iff.mp h
      rcases advance_routes hlive with hold | ⟨secret, rfl, -, -⟩
      · exact registered_iff.mpr ⟨live, hold, rfl⟩
      · exact absurd rfl (hsettled.2 _ (List.mem_of_getElem? htask))

/-- **A generation that has its route has had it since it was settled.** -/
theorem registered_of_exec {g : ℕ} {route : String} (events : List Event)
    (hsettled : self.Settled g)
    (h : (exec (System.step sha256) self events).1.relay.registered route g) :
    self.relay.registered route g := by
  induction events generalizing self with
  | nil => exact h
  | cons event events ih => exact registered_of_step hsettled event (ih (hsettled.step event) h)

theorem numbered_new : System.new.Numbered where
  claims i j a b g ha := by simp [new] at ha
  claim task htask := by simp [new] at htask
  host task htask := by simp [new] at htask
  routes r live hlive := by simp [new, RelayState.new] at hlive
  codes code held hheld := by simp [new, RelayState.new] at hheld

end System

/-! ### What the ledger says -/

namespace Ledger

variable {self : Ledger} {now connection : ℕ} {task next : Task}

theorem write_secrets {g : ℕ} (h : task.claim? ≠ some g) :
    (self.write now connection task next).secrets g = self.secrets g := by
  fun_cases write self now connection task next
  all_goals try rfl
  next route secret generation hnext =>
    have hne : g ≠ generation := fun heq => h (congrArg some heq.symm)
    exact Function.update_of_ne hne _ _

theorem write_published {route : String} {g : ℕ}
    (h : ∀ offered, task ≠ .publishing route g offered) :
    (self.write now connection task next).published (route, g) = self.published (route, g) := by
  fun_cases write self now connection task next
  all_goals try rfl
  next offered =>
    refine Function.update_of_ne (fun heq => ?_) _ _
    obtain ⟨rfl, rfl⟩ := Prod.mk.inj heq
    exact h offered rfl

theorem write_owner {c : ℕ} (h : c ≠ connection ∨ task.joins? = none) :
    (self.write now connection task next).owner c = self.owner c := by
  fun_cases write self now connection task next
  all_goals try rfl
  rcases h with h | h
  · exact Function.update_of_ne h _ _
  · cases h

theorem write_joins {g : ℕ} (h : task.joins? = some g) :
    (self.write now connection task next).owner connection = some g := by
  cases task with
  | attaching purpose route generation =>
    obtain rfl : generation = g := Option.some.inj h
    exact Function.update_self _ _ _
  | _ => cases h

/-- What the tables hold and the tasks have in hand is what the ledger says. -/
structure Agrees (sha256 : String → String) (system : System) (ledger : Ledger) : Prop where
  codes : ∀ code, ∀ held ∈ system.relay.codes code, ∃ since,
    ledger.published (held.route, held.generation) = some (code, since) ∧
      held.expiresAt = since + CODE_LIFETIME
  routes : ∀ (r : String) (live : LiveRoute), system.relay.routes[r]? = some live →
    ∃ secret, ledger.secrets live.generation = some secret ∧ live.secretDigest = sha256 secret
  devices : ∀ g, ∀ c ∈ system.relay.devices g, ledger.owner c = some g
  device : ∀ task ∈ system.tasks, ∀ c g, task.device? = some (c, g) → ledger.owner c = some g
  target : ∀ task ∈ system.tasks, ∀ c g, task.target? = some (c, g) → ledger.owner c = some g
  owner : ∀ c, system.relay.nextConnection ≤ c → ledger.owner c = none

theorem agrees_new : Agrees sha256 .new .new where
  codes code held hheld := by simp [System.new, RelayState.new] at hheld
  routes r live hlive := by simp [System.new, RelayState.new] at hlive
  devices g c hc := by simp [System.new, RelayState.new] at hc
  device task htask := by simp [System.new] at htask
  target task htask := by simp [System.new] at htask
  owner c _ := rfl

variable {system : System}

theorem Agrees.append {arrived : Task} (h : Agrees sha256 system self)
    (hdevice : arrived.device? = none) (htarget : arrived.target? = none) :
    Agrees sha256 { system with tasks := system.tasks ++ [arrived] } self where
  codes := h.codes
  routes := h.routes
  devices := h.devices
  owner := h.owner
  device other hother c g hg := by
    rcases List.mem_append.mp hother with hother | hother
    · exact h.device other hother c g hg
    · rw [List.mem_singleton.mp hother, hdevice] at hg
      cases hg
  target other hother c g hg := by
    rcases List.mem_append.mp hother with hother | hother
    · exact h.target other hother c g hg
    · rw [List.mem_singleton.mp hother, htarget] at hg
      cases hg

theorem Agrees.advance {i : ℕ} {message : Message} (h : Agrees sha256 system self)
    (hnumbered : system.Numbered) (htask : system.tasks[i]? = some task) :
    Agrees sha256 (system.step sha256 (.run i message)).1
      (self.write system.now system.relay.nextConnection task
        (Bridge.advance sha256 system.now system.relay task message).2.1) := by
  have hmem : task ∈ system.tasks := List.mem_of_getElem? htask
  rw [System.step_run htask]
  -- Whoever had a connection before this step has one that is not the next.
  have howner : ∀ c g, self.owner c = some g →
      (self.write system.now system.relay.nextConnection task
        (Bridge.advance sha256 system.now system.relay task message).2.1).owner c = some g := by
    intro c g hc
    have hne : c ≠ system.relay.nextConnection := by
      rintro rfl
      rw [h.owner _ le_rfl] at hc
      cases hc
    rw [write_owner (.inl hne), hc]
  constructor
  · intro code held hheld
    rcases advance_codes hheld with ⟨hold, hnot⟩ | ⟨offered, rfl, hoffered, hexpires⟩
    · rw [write_published hnot]
      exact h.codes code held hold
    · refine ⟨system.now, ?_, hexpires⟩
      simp [write, hoffered]
  · intro r live hlive
    rcases advance_routes hlive with hold | ⟨secret, rfl, hdigest, hdone⟩
    · have hsettled := hnumbered.routes r live hold
      rw [write_secrets (hsettled.2 task hmem)]
      exact h.routes r live hold
    · exact ⟨secret, by simp [write, hdone], hdigest⟩
  · intro g c hc
    rcases advance_devices hc with hold | ⟨hjoins, rfl⟩
    · exact howner c g (h.devices g c hold)
    · exact write_joins hjoins
  · intro other hother c g hg
    rcases System.mem_set_tasks hother with hother | rfl
    · exact howner c g (h.device other hother c g hg)
    · rcases advance_becomes.device hg with hold | ⟨hjoins, rfl⟩
      · exact howner c g (h.device task hmem c g hold)
      · exact write_joins hjoins
  · intro other hother c g hg
    rcases System.mem_set_tasks hother with hother | rfl
    · exact howner c g (h.target other hother c g hg)
    · rcases advance_becomes.target hg with hold | hdevice
      · exact howner c g (h.target task hmem c g hold)
      · exact howner c g (h.devices g c hdevice)
  · intro c hc
    have hnext : (Bridge.advance sha256 system.now system.relay task message).1.nextConnection =
        system.relay.nextConnection + (if task.joins?.isSome then 1 else 0) :=
      advance_nextConnection
    simp only at hc
    have hjoins : c ≠ system.relay.nextConnection ∨ task.joins? = none := by
      cases hjoins : task.joins? with
      | none => exact .inr rfl
      | some g =>
        simp only [hjoins, Option.isSome_some, if_true] at hnext
        exact .inl (by omega)
    rw [write_owner hjoins]
    exact h.owner c (by omega)

end Ledger

/-! ### Looking up, and going there -/

namespace System

theorem run_concat (events : List Event) (event : Event) :
    run sha256 (events ++ [event]) = (observed sha256 (run sha256 events) event).1 :=
  exec_concat_fst _ _ _ _

theorem numbered_run (sha256 : String → String) (events : List Event) :
    (run sha256 events).1.Numbered := by
  rw [run_fst]
  exact exec_invariant (fun _ event h => h.step event) numbered_new events

theorem observed_run {s : System × Ledger} {i : ℕ} {task : Task} {message : Message}
    (h : s.1.tasks[i]? = some task) :
    (observed sha256 s (.run i message)).1 = ((s.1.step sha256 (.run i message)).1,
      s.2.write s.1.now s.1.relay.nextConnection task
        (advance sha256 s.1.now s.1.relay task message).2.1) := by
  have hlt : i < s.1.tasks.length := (List.getElem?_eq_some_iff.mp h).1
  rw [observed, observe, step_run h, Ledger.note, h]
  simp only [List.getElem?_set_self hlt]

theorem observed_run_none {s : System × Ledger} {i : ℕ} {message : Message}
    (h : s.1.tasks[i]? = none) : (observed sha256 s (.run i message)).1 = s := by
  simp [observed, observe, step_run_none h, Ledger.note, h]

theorem agrees_step {s : System × Ledger} (hnumbered : s.1.Numbered)
    (h : s.2.Agrees sha256 s.1) (event : Event) :
    (observed sha256 s event).1.2.Agrees sha256 (observed sha256 s event).1.1 := by
  cases event with
  | connect route secret => exact h.append rfl rfl
  | ask code => exact h.append rfl rfl
  | request route => exact h.append rfl rfl
  | pass elapsed => exact ⟨h.codes, h.routes, h.devices, h.device, h.target, h.owner⟩
  | run i message =>
    cases htask : s.1.tasks[i]? with
    | none => rwa [observed_run_none htask]
    | some task =>
      rw [observed_run htask]
      exact h.advance hnumbered htask

theorem agrees_run (sha256 : String → String) (events : List Event) :
    (run sha256 events).2.Agrees sha256 (run sha256 events).1 := by
  have hboth : ∀ s event, (s.1.Numbered ∧ s.2.Agrees sha256 s.1) →
      ((observed sha256 s event).1.1.Numbered ∧
        (observed sha256 s event).1.2.Agrees sha256 (observed sha256 s event).1.1) :=
    fun s event h => ⟨h.1.step event, agrees_step h.1 h.2 event⟩
  exact (exec_invariant hboth ⟨numbered_new, Ledger.agrees_new⟩ events).2

/-- At some step of a run a task looked up a code, and this is what it found. -/
def Looked (sha256 : String → String) (events : List Event) (i : ℕ) (code : String)
    (held : CodeRoute) (before : List Event) : Prop :=
  (∃ message after, events = before ++ .run i message :: after) ∧
    (run sha256 before).1.tasks[i]? = some (.asking code) ∧
    ((run sha256 before).1.relay.lookup (run sha256 before).1.now code).2 = some held

theorem Looked.concat {events before : List Event} {i : ℕ} {code : String} {held : CodeRoute}
    (h : Looked sha256 events i code held before) (event : Event) :
    Looked sha256 (events ++ [event]) i code held before := by
  obtain ⟨⟨message, after, rfl⟩, htask, hlookup⟩ := h
  exact ⟨⟨message, after ++ [event], by simp⟩, htask, hlookup⟩

/-- What a task has found, it looked up. -/
theorem found_run (events : List Event) (i : ℕ) (held : CodeRoute)
    (h : (run sha256 events).1.tasks[i]? = some (.found held)) :
    ∃ code before, Looked sha256 events i code held before := by
  induction events using List.reverseRecOn generalizing held with
  | nil => simp [run, new] at h
  | append_singleton events event ih =>
    have hkeep : (run sha256 events).1.tasks[i]? = some (.found held) →
        ∃ code before, Looked sha256 (events ++ [event]) i code held before := by
      intro hfound
      obtain ⟨code, before, hlooked⟩ := ih held hfound
      exact ⟨code, before, hlooked.concat event⟩
    have harrives : ∀ task, task ≠ .found held →
        ((run sha256 events).1.tasks ++ [task])[i]? = some (.found held) →
          (run sha256 events).1.tasks[i]? = some (.found held) := by
      intro task hne happend
      rw [List.getElem?_append] at happend
      split at happend
      · exact happend
      · exact absurd (List.mem_singleton.mp (List.mem_of_getElem? happend)).symm hne
    rw [run_concat] at h
    cases event with
    | connect route secret => exact hkeep (harrives _ (by simp) h)
    | ask code => exact hkeep (harrives _ (by simp) h)
    | request route => exact hkeep (harrives _ (by simp) h)
    | pass elapsed => exact hkeep h
    | run j message =>
      have hstep : ((run sha256 events).1.step sha256 (.run j message)).1.tasks[i]? =
          some (.found held) := h
      cases htask : (run sha256 events).1.tasks[j]? with
      | none =>
        rw [step_run_none htask] at hstep
        exact hkeep hstep
      | some task =>
        rw [step_run htask, List.getElem?_set] at hstep
        split at hstep
        · next hij =>
          subst hij
          split at hstep
          · obtain ⟨code, rfl, hlookup⟩ := advance_becomes.found (Option.some.inj hstep)
            exact ⟨code, events, ⟨message, [], rfl⟩, htask, hlookup⟩
          · cases hstep
        · exact hkeep hstep

end System

/-! ### Who may register -/

theorem advance_presents {now : ℕ} {relay : RelayState} {task : Task} {message : Message}
    {route secret : String} :
    (advance sha256 now relay task message).2.1.presents? = some (route, secret) →
      task.presents? = some (route, secret) := by
  fun_cases advance sha256 now relay task message
  all_goals try split_ifs
  all_goals simp_all [Task.presents?]

theorem Ledger.write_presents {ledger : Ledger} {now connection g : ℕ} {task next : Task}
    {secret : String} (h : (ledger.write now connection task next).secrets g = some secret) :
    ledger.secrets g = some secret ∨ ∃ route, task.presents? = some (route, secret) := by
  fun_cases write ledger now connection task next
  all_goals simp_all [write, Function.update_apply, Task.presents?]
  all_goals grind

/-- Every secret a task presents or a generation registered under came with a connection. -/
def System.Presented (events : List Event) (s : System × Ledger) : Prop :=
  (∀ task ∈ s.1.tasks, ∀ route secret,
    task.presents? = some (route, secret) → .connect route secret ∈ events) ∧
  ∀ g secret, s.2.secrets g = some secret → ∃ route, .connect route secret ∈ events

theorem System.presented_run (sha256 : String → String) (events : List Event) :
    Presented events (run sha256 events) := by
  induction events using List.reverseRecOn with
  | nil =>
    constructor
    · intro task htask
      simp [run, new] at htask
    · intro g secret hsecret
      cases hsecret
  | append_singleton events event ih =>
    obtain ⟨htasks, hsecrets⟩ := ih
    have hlonger : ∀ {route secret}, .connect route secret ∈ events →
        .connect route secret ∈ events ++ [event] := fun h => List.mem_append_left _ h
    have hkept : ∀ g secret, (run sha256 events).2.secrets g = some secret →
        ∃ route, .connect route secret ∈ events ++ [event] := by
      intro g secret hsecret
      obtain ⟨route, hmem⟩ := hsecrets g secret hsecret
      exact ⟨route, hlonger hmem⟩
    -- A task that arrives presents what it was connected with.
    have harrives : ∀ arrived : Task, (∀ route secret, arrived.presents? = some (route, secret) →
          .connect route secret ∈ events ++ [event]) →
        ∀ task ∈ (run sha256 events).1.tasks ++ [arrived], ∀ route secret,
          task.presents? = some (route, secret) → .connect route secret ∈ events ++ [event] := by
      intro arrived harrived task htask route secret hpresents
      rcases List.mem_append.mp htask with htask | htask
      · exact hlonger (htasks task htask route secret hpresents)
      · exact harrived route secret (List.mem_singleton.mp htask ▸ hpresents)
    rw [run_concat]
    cases event with
    | connect route secret =>
      refine ⟨harrives _ ?_, hkept⟩
      rintro r s hpresents
      obtain ⟨rfl, rfl⟩ := Prod.mk.inj (Option.some.inj hpresents)
      simp
    | ask code => exact ⟨harrives _ (by simp [Task.presents?]), hkept⟩
    | request route => exact ⟨harrives _ (by simp [Task.presents?]), hkept⟩
    | pass elapsed => exact ⟨fun task h r s hp => hlonger (htasks task h r s hp), hkept⟩
    | run i message =>
      cases htask : (run sha256 events).1.tasks[i]? with
      | none =>
        rw [observed_run_none htask]
        exact ⟨fun task h r s hp => hlonger (htasks task h r s hp), hkept⟩
      | some task =>
        have hmem : task ∈ (run sha256 events).1.tasks := List.mem_of_getElem? htask
        rw [observed_run htask, step_run htask]
        constructor
        · intro other hother route secret hpresents
          rcases mem_set_tasks hother with hother | rfl
          · exact hlonger (htasks other hother route secret hpresents)
          · exact hlonger (htasks task hmem route secret (advance_presents hpresents))
        · intro g secret hsecret
          rcases Ledger.write_presents hsecret with hold | ⟨route, hpresents⟩
          · exact hkept g secret hold
          · exact ⟨route, hlonger (htasks task hmem route secret hpresents)⟩

theorem advance_refused {now g : ℕ} {relay : RelayState} {message : Message}
    {route secret : String} {live : LiveRoute} (hlive : relay.routes[route]? = some live)
    (hdigest : live.secretDigest ≠ sha256 secret) :
    advance sha256 now relay (.claiming route secret g) message = (relay, .done, []) := by
  have hrefused : relay.claim route (sha256 secret) g =
      (relay, .error "bridge route is already registered") := by
    simp [RelayState.claim, hlive, hdigest]
  simp [advance, hrefused]

theorem advance_arriving (sha256 : String → String) (now : ℕ) (relay : RelayState)
    (message : Message) (route secret : String) :
    let after := advance sha256 now relay (.arriving route secret) message
    after.1.routes = relay.routes ∧ after.1.codes = relay.codes ∧
      after.1.devices = relay.devices ∧ after.2.1.host? = none ∧ after.2.2 = [] := by
  simp only [advance]
  split <;> exact ⟨rfl, rfl, rfl, rfl, rfl⟩

theorem Task.actsFor_of_target {task : Task} {c g : ℕ} (h : task.target? = some (c, g)) :
    task.actsFor? = some g := by
  cases task <;> simp_all [target?, actsFor?, host?]

/-! ### The bridge is sound -/

namespace System

/-- A code is on offer: the generation has the route, it published this code last, and the code has
not expired. -/
def Offers (s : System × Ledger) (code route : String) (generation : ℕ) : Prop :=
  s.1.relay.registered route generation ∧
    ∃ since, s.2.published (route, generation) = some (normalizeCode code, since) ∧
      s.1.now < since + CODE_LIFETIME

/-- What a look finds is on offer, if it still has its route later on. -/
theorem Looked.offers {events before : List Event} {i : ℕ} {code : String} {held : CodeRoute}
    (h : Looked sha256 events i code held before)
    (hregistered : (run sha256 events).1.relay.registered held.route held.generation) :
    Offers (run sha256 before) code held.route held.generation := by
  obtain ⟨⟨message, after, rfl⟩, -, hlookup⟩ := h
  obtain ⟨-, hmem, hexpires⟩ := lookup_spec _ hlookup
  have hagrees := agrees_run sha256 before
  obtain ⟨since, hpublished, hsince⟩ := hagrees.codes _ held hmem
  have hsettled := (numbered_run sha256 before).codes _ held hmem
  rw [run_fst, exec_append] at hregistered
  rw [run_fst] at hsettled
  refine ⟨?_, since, hpublished, hsince ▸ hexpires⟩
  rw [run_fst]
  exact registered_of_exec _ hsettled hregistered

/-- **Routing is sound.** A code leads to a generation that has the route, and that offered the code
when it was looked up; a connector with another secret than the one a route is registered under
changes nothing and is turned away; and no step for one generation touches what another has, nor
answers a device of another. -/
theorem routing_is_sound (sha256 : String → String) (events : List Event)
    (hsha256 : Set.InjOn sha256 {secret | ∃ route, .connect route secret ∈ events}) :
    (∀ event route generation,
      .resolved route generation ∈ ((run sha256 events).1.step sha256 event).2 →
      (run sha256 events).1.relay.registered route generation ∧
      ∃ i message code held before, event = .run i message ∧
        Looked sha256 events i code held before ∧
        Offers (run sha256 before) code route generation) ∧
    (∀ i message task route secret live, (run sha256 events).1.tasks[i]? = some task →
      task.presents? = some (route, secret) →
      (run sha256 events).1.relay.routes[route]? = some live →
      ∃ holder, (run sha256 events).2.secrets live.generation = some holder ∧
        (secret ≠ holder →
          let after := (run sha256 events).1.step sha256 (.run i message)
          after.1.relay.routes = (run sha256 events).1.relay.routes ∧
          after.1.relay.codes = (run sha256 events).1.relay.codes ∧
          after.1.relay.devices = (run sha256 events).1.relay.devices ∧
          (∀ next, after.1.tasks[i]? = some next → next.host? = none) ∧ after.2 = [])) ∧
    ∀ i message task generation, (run sha256 events).1.tasks[i]? = some task →
      task.actsFor? = some generation →
      let after := (run sha256 events).1.step sha256 (.run i message)
      (∀ other ≠ generation, (run sha256 events).1.relay.Undisturbed (run sha256 events).1.now
        other after.1.relay) ∧
      ∀ connection g, .delivered connection g ∈ after.2 → g = generation ∧
        ∀ device ∈ (run sha256 events).1.tasks, ∀ other,
          device.device? = some (connection, other) → other = generation := by
  have hagrees := agrees_run sha256 events
  refine ⟨?_, ?_, ?_⟩
  · intro event route generation hresolved
    cases event with
    | connect r s => cases hresolved
    | ask code => cases hresolved
    | request r => cases hresolved
    | pass elapsed => cases hresolved
    | run i message =>
      cases htask : (run sha256 events).1.tasks[i]? with
      | none =>
        rw [step_run_none htask] at hresolved
        cases hresolved
      | some task =>
        rw [step_run htask] at hresolved
        obtain ⟨hregistered, held, rfl, rfl, rfl⟩ := advance_resolved hresolved
        obtain ⟨code, before, hlooked⟩ := found_run events i held htask
        exact ⟨hregistered, i, message, code, held, before, rfl, hlooked,
          hlooked.offers hregistered⟩
  · intro i message task route secret live htask hpresents hlive
    obtain ⟨holder, hholder, hdigest⟩ := hagrees.routes route live hlive
    refine ⟨holder, hholder, fun hne => ?_⟩
    obtain ⟨htasks, hsecrets⟩ := presented_run sha256 events
    have hmem : task ∈ (run sha256 events).1.tasks := List.mem_of_getElem? htask
    have hother : live.secretDigest ≠ sha256 secret := by
      intro heq
      have hsame : sha256 secret = sha256 holder := heq.symm.trans hdigest
      exact hne (hsha256 ⟨route, htasks task hmem route secret hpresents⟩
        (hsecrets live.generation holder hholder) hsame)
    have hlt : i < (run sha256 events).1.tasks.length :=
      (List.getElem?_eq_some_iff.mp htask).1
    rw [step_run htask]
    cases task with
    | arriving r s =>
      obtain ⟨rfl, rfl⟩ := Prod.mk.inj (Option.some.inj hpresents)
      obtain ⟨hroutes, hcodes, hdevices, hhost, houtputs⟩ :=
        advance_arriving sha256 (run sha256 events).1.now (run sha256 events).1.relay message r s
      refine ⟨hroutes, hcodes, hdevices, fun next hnext => ?_, houtputs⟩
      rw [List.getElem?_set_self hlt] at hnext
      exact Option.some.inj hnext ▸ hhost
    | claiming r s g =>
      obtain ⟨rfl, rfl⟩ := Prod.mk.inj (Option.some.inj hpresents)
      rw [advance_refused hlive hother]
      refine ⟨rfl, rfl, rfl, fun next hnext => ?_, rfl⟩
      rw [List.getElem?_set_self hlt] at hnext
      exact Option.some.inj hnext ▸ rfl
    | _ => cases hpresents
  · intro i message task generation htask hacts
    rw [step_run htask]
    refine ⟨fun other hother => advance_undisturbed hother hacts, ?_⟩
    intro connection g hdelivered
    have htarget := advance_delivered hdelivered
    have hg : g = generation :=
      Option.some.inj ((Task.actsFor_of_target htarget).symm.trans hacts)
    subst hg
    refine ⟨rfl, fun device hmem other hdevice => ?_⟩
    have howner := hagrees.target task (List.mem_of_getElem? htask) connection g htarget
    have howner' := hagrees.device device hmem connection other hdevice
    exact Option.some.inj (howner'.symm.trans howner)

/-- The digests of two secrets. -/
def digests (secret : String) : String :=
  if secret = "0000000000000000000000000000000000000000000000000000000000000000" then
    "60e05bd1b195af2f94112fa7197a5c88289058840ce7c6df9693756bc6250f55"
  else if secret = "1111111111111111111111111111111111111111111111111111111111111111" then
    "3138bb9bc78df27c473ecfd1410f7bd45ebac1f59cf3ff9cfe4db77aab7aedd3"
  else secret

/-- A connector publishes a code. Another comes for the same route, and a device asks for the code. -/
def contested : List Event :=
  [.connect "00000000000000000000000000000000"
      "0000000000000000000000000000000000000000000000000000000000000000",
    .run 0 .closed, .run 0 .closed, .run 0 (.code (some "AB12CD34")), .run 0 .closed,
    .connect "00000000000000000000000000000000"
      "1111111111111111111111111111111111111111111111111111111111111111",
    .run 1 .closed, .ask "ab12-cd34", .run 2 .closed]

theorem routing_of_a_contested_code :
    (∃ i message code held before, Event.run 2 .closed = .run i message ∧
      Looked digests contested i code held before ∧
      Offers (run digests before) code "00000000000000000000000000000000" 0) ∧
    ((run digests contested).1.step digests (.run 1 .closed)).1.relay.routes =
      (run digests contested).1.relay.routes := by
  have hsecrets : Set.InjOn digests {secret | ∃ route, .connect route secret ∈ contested} := by
    rintro a ⟨r, ha⟩ b ⟨s, hb⟩ hab
    simp only [contested, List.mem_cons, Event.connect.injEq, reduceCtorEq, false_or, or_false,
      List.not_mem_nil] at ha hb
    rcases ha with ⟨-, rfl⟩ | ⟨-, rfl⟩ <;> rcases hb with ⟨-, rfl⟩ | ⟨-, rfl⟩
    · rfl
    · exact absurd hab (by decide +kernel)
    · exact absurd hab (by decide +kernel)
    · rfl
  obtain ⟨hresolved, hrefused, -⟩ := routing_is_sound digests contested hsecrets
  constructor
  · exact (hresolved (.run 2 .closed) "00000000000000000000000000000000" 0
      (by decide +kernel)).2
  · obtain ⟨holder, hholder, hunchanged⟩ := hrefused 1 .closed _ _ _
      ⟨"60e05bd1b195af2f94112fa7197a5c88289058840ce7c6df9693756bc6250f55", 0⟩
      (by decide +kernel : _ = some (Task.claiming "00000000000000000000000000000000"
        "1111111111111111111111111111111111111111111111111111111111111111" 1)) rfl
      (by decide +kernel)
    refine (hunchanged ?_).1
    have hfirst : (run digests contested).2.secrets 0 =
        some "0000000000000000000000000000000000000000000000000000000000000000" := by
      decide +kernel
    obtain rfl := Option.some.inj (hholder.symm.trans hfirst)
    decide +kernel

/-- A connector withdraws its code between the look and the answer. -/
def withdrawnInTime : List Event :=
  [.connect "00000000000000000000000000000000"
      "0000000000000000000000000000000000000000000000000000000000000000",
    .run 0 .closed, .run 0 .closed, .run 0 (.code (some "AB12CD34")), .run 0 .closed,
    .ask "ab12-cd34", .run 1 .closed, .run 0 (.code none), .run 0 .closed]

/-- The answer is about the moment of the look. -/
theorem a_withdrawn_code_still_leads :
    .resolved "00000000000000000000000000000000" 0 ∈
        ((run digests withdrawnInTime).1.step digests (.run 1 .closed)).2 ∧
      (run digests withdrawnInTime).2.published ("00000000000000000000000000000000", 0) = none := by
  decide +kernel

end System

end Bridge

end SuperHerdr
