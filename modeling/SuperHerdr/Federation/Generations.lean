import SuperHerdr.Federation.Supervisor

/-!
# Connection generations over the daemon's life

A configuration is served by a store: one channel that holds the federation, and a supervisor for
each target that publishes into it. A configuration that changed starts another store; the one
before is told to shut down, which its supervisors notice in their own time, and the task that
hands its updates to the daemon's loop is aborted, which stops it when it next yields. So
supervisors of many stores, and updates of many stores, are about together.

Two fields are not the program's: `Update.origins` says under which connection each target was
last read, and `Supervised.store` which channel a supervisor publishes into.

Each supervisor counts generations from zero. `generations_distinguish` says when that tells the
connections of a target apart: exactly as long as only one supervisor of a target ever connects.
-/

namespace SuperHerdr

open Std Transducer

/-- What the daemon reads of its configuration; `settings` is all the rest of it. -/
structure Config where
  targets : List ConfiguredTarget
  options : SupervisorOptions
  settings : String
deriving DecidableEq

/-- The connection a result was produced under: which supervisor made it, and which of its
connections it was. -/
structure ConnectionId where
  supervisor : ℕ
  number : ℕ
deriving DecidableEq

/-- A snapshot that was published. -/
structure Published where
  key : TargetSession
  generation : ℕ
  connection : ConnectionId
deriving DecidableEq

/-- One copy of the federation, and the connections its targets were last read under. -/
structure Update where
  state : FederationState
  origins : ExtTreeMap TargetSession ConnectionId

namespace Update

/-- Publish a record of one target. -/
def publish (key : TargetSession) (supervisor nowMs : ℕ) (update : Update) (record : Record) :
    Update × List Published :=
  if key ∈ update.state.targets then
    let state := update.state.record key nowMs record
    match record with
    | .success generation connection _ =>
        (⟨state, update.origins.insert key ⟨supervisor, connection⟩⟩,
          [⟨key, generation, ⟨supervisor, connection⟩⟩])
    | _ => ({ update with state }, [])
  else (update, [])

end Update

structure Store where
  published : Update
  stopping : Bool

/-- A store as it is started, with every target still connecting. -/
def Store.start (config : Config) : Store where
  published :=
    { state :=
        { revision := 0
          targets := config.targets.foldl
            (fun targets target => targets.insert (targetKey target) (.new target)) ∅ }
      origins := ∅ }
  stopping := false

/-- A supervisor, and the store it publishes into. -/
structure Supervised where
  store : ℕ
  supervisor : Supervisor

structure Federations where
  active : Config
  /-- Every store there ever was, the running one last. -/
  stores : List Store
  supervisors : List Supervised
  /-- The updates on their way to the daemon's loop. -/
  inputs : List Update
  /-- The federation as the daemon holds it. -/
  current : Update

namespace Federations

/-- Replace the supervisor set. -/
def startFederation (f : Federations) : Federations :=
  { f with
    stores := f.stores.map (fun store => { store with stopping := true }) ++ [.start f.active]
    supervisors := f.supervisors ++
      f.active.targets.map fun target => ⟨f.stores.length, .start f.active.options target⟩ }

/-- Adopt a refreshed configuration, if it could be read and is another one. -/
def reconfigure (f : Federations) (refreshed : Option Config) : Federations :=
  match refreshed with
  | none => f
  | some refreshed =>
      if refreshed = f.active then f else { f with active := refreshed }.startFederation

/-- A daemon that has just started. -/
def new (config : Config) : Federations :=
  startFederation ⟨config, [], [], [], ⟨.default, ∅⟩⟩

inductive Move
  /-- The configuration was read again. -/
  | reconfigure (refreshed : Option Config)
  /-- A supervisor goes on to where it waits next. -/
  | wake (supervisor : ℕ) (wake : Wake) (nowMs : ℕ)
  /-- The task that watches a store hands on what the store holds. -/
  | watch (store : ℕ)
  /-- The loop takes an update. -/
  | take

/-- Wake one supervisor. It sees a shutdown only if its store is told to. -/
def wake (f : Federations) (index : ℕ) (wake : Wake) (nowMs : ℕ) :
    Federations × List Published :=
  match f.supervisors[index]? with
  | none => (f, [])
  | some supervised =>
      match f.stores[supervised.store]? with
      | none => (f, [])
      | some store =>
          if wake matches .shutdown ∧ !store.stopping then (f, [])
          else
            let (supervisor, records) := supervised.supervisor.wake wake
            let (published, outputs) := exec
              (Update.publish supervised.supervisor.key index nowMs) store.published records
            ({ f with
                supervisors := f.supervisors.set index { supervised with supervisor }
                stores := f.stores.set supervised.store { store with published } }, outputs)

def step (f : Federations) (move : Move) : Federations × List Published :=
  match move with
  | .reconfigure refreshed => (f.reconfigure refreshed, [])
  | .wake index wake nowMs => f.wake index wake nowMs
  | .watch index =>
      match f.stores[index]? with
      | some store => ({ f with inputs := f.inputs ++ [store.published] }, [])
      | none => (f, [])
  | .take =>
      match f.inputs with
      | update :: inputs => ({ f with inputs, current := update }, [])
      | [] => (f, [])

/-- Every copy of the federation: the stores', the ones on their way, and the daemon's. -/
def updates (f : Federations) : List Update :=
  f.stores.map Store.published ++ f.inputs ++ [f.current]

/-! ### What is claimed of a run -/

/-- What was published so far. -/
def history (published : List Published) (_ : Federations) (_ : Move)
    (result : Federations × List Published) : List Published :=
  published ++ result.2

/-- No generation of a target is used for two connections, and no copy of the federation accepts
a result of another connection than the one it was read under. -/
structure Distinguishes (s : Federations × List Published) : Prop where
  distinct : ∀ p ∈ s.2, ∀ q ∈ s.2, p.key = q.key → p.generation = q.generation →
    p.connection = q.connection
  accepts : ∀ update ∈ s.1.updates, ∀ key target, update.state.targets[key]? = some target →
    ∀ p ∈ s.2, p.key = key → target.acceptsGeneration p.generation = true →
      update.origins[key]? = some p.connection

/-- A supervisor that connects is the only one of its target that ever did, and has a generation
left. -/
def ConnectsAlone (f : Federations) : Move → Prop
  | .wake index wake _ => ∀ supervised, f.supervisors[index]? = some supervised →
      supervised.supervisor.connects wake = true →
      supervised.supervisor.connectionGeneration < MAX_GENERATION ∧
        ∀ i other, f.supervisors[i]? = some other → i ≠ index →
          other.supervisor.key = supervised.supervisor.key →
          other.supervisor.connectionGeneration = 0
  | _ => True

/-! ### What is published into a store -/

end Federations

namespace Update

/-- Every target that is live was read under the connection that published it. -/
def Sourced (update : Update) (published : List Published) : Prop :=
  ∀ key target, update.state.targets[key]? = some target → target.connection = .live →
    ∃ p ∈ published, p.key = key ∧ p.generation = target.connectionGeneration ∧
      update.origins[key]? = some p.connection

variable {update : Update}

theorem Sourced.mono {published later : List Published}
    (h : update.Sourced published) (hsubset : published ⊆ later) : update.Sourced later := by
  intro key target htarget hlive
  obtain ⟨p, hp, hkey, hgeneration, horigin⟩ := h key target htarget hlive
  exact ⟨p, hsubset hp, hkey, hgeneration, horigin⟩

variable (key : TargetSession)

theorem mem_publish (supervisor nowMs : ℕ) (update : Update)
    (record : Record) (other : TargetSession) :
    other ∈ (update.publish key supervisor nowMs record).1.state.targets ↔
      other ∈ update.state.targets := by
  have hstate : other ∈ (update.state.record key nowMs record).targets ↔
      other ∈ update.state.targets := by
    rw [FederationState.record]
    split
    · exact Iff.rfl
    · next target htarget =>
      simp only [ExtTreeMap.mem_insert, LawfulEqCmp.compare_eq_iff_eq]
      refine ⟨fun h => h.elim (fun heq => ?_) id, .inr⟩
      rw [← heq]
      exact ExtTreeMap.mem_iff_isSome_getElem?.mpr (by rw [htarget]; rfl)
  rw [publish]
  split
  · cases record <;> exact hstate
  · exact Iff.rfl

/-- A record that is no success makes no target live, and leaves its generation. -/
theorem record_of_ne_success (nowMs : ℕ) (target : TargetRuntimeState) {record : Record}
    (h : ∀ generation connection selection, record ≠ .success generation connection selection)
    (hlive : (target.record nowMs record).1.connection = .live) :
    target.connection = .live ∧
      (target.record nowMs record).1.connectionGeneration = target.connectionGeneration := by
  cases record with
  | success generation connection selection => exact absurd rfl (h _ _ _)
  | backoff failedAttempts delay error => cases hlive
  | incompatible error => cases hlive
  | updateMode updateMode eventError =>
    simp only [TargetRuntimeState.record] at hlive ⊢
    split at hlive
    · next hsame =>
      rw [if_pos hsame]
      exact ⟨hlive, rfl⟩
    · next hdiffers =>
      rw [if_neg hdiffers]
      exact ⟨hlive, rfl⟩

theorem sourced_publish (supervisor nowMs : ℕ)
    {published : List Published} (h : update.Sourced published) (record : Record) :
    (update.publish key supervisor nowMs record).1.Sourced
      (published ++ (update.publish key supervisor nowMs record).2) := by
  by_cases hkey : key ∈ update.state.targets
  · obtain ⟨target, htarget⟩ := Option.isSome_iff_exists.mp
      (ExtTreeMap.mem_iff_isSome_getElem?.mp hkey)
    have htargets : (update.state.record key nowMs record).targets =
        update.state.targets.insert key (target.record nowMs record).1 := by
      simp only [FederationState.record, htarget]
    -- what is not the key's is as before
    have hother : ∀ other held, other ≠ key →
        (update.state.record key nowMs record).targets[other]? = some held →
          update.state.targets[other]? = some held := by
      intro other held hne hheld
      rw [htargets, ExtTreeMap.getElem?_insert, if_neg (by simpa using hne.symm)] at hheld
      exact hheld
    have hown : (update.state.record key nowMs record).targets[key]? =
        some (target.record nowMs record).1 := by
      rw [htargets, ExtTreeMap.getElem?_insert_self]
    rw [publish, if_pos hkey]
    by_cases hsuccess : ∃ generation connection selection,
        record = .success generation connection selection
    · obtain ⟨generation, connection, selection, rfl⟩ := hsuccess
      intro other held hheld hlive
      by_cases heq : other = key
      · subst heq
        obtain rfl := Option.some.inj (hown.symm.trans hheld)
        exact ⟨⟨other, generation, ⟨supervisor, connection⟩⟩, by simp, rfl, rfl,
          ExtTreeMap.getElem?_insert_self⟩
      · obtain ⟨p, hp, hpkey, hgeneration, horigin⟩ :=
          h other held (hother other held heq hheld) hlive
        refine ⟨p, List.mem_append_left _ hp, hpkey, hgeneration, ?_⟩
        simp only
        rw [ExtTreeMap.getElem?_insert, if_neg (by simpa using Ne.symm heq)]
        exact horigin
    · have hne : ∀ generation connection selection,
          record ≠ .success generation connection selection :=
        fun generation connection selection heq => hsuccess ⟨generation, connection, selection, heq⟩
      have hsourced : Sourced { update with state := update.state.record key nowMs record }
          published := by
        intro other held hheld hlive
        by_cases heq : other = key
        · subst heq
          obtain rfl := Option.some.inj (hown.symm.trans hheld)
          obtain ⟨hbefore, hgeneration⟩ := record_of_ne_success nowMs target hne hlive
          rw [hgeneration]
          exact h other target htarget hbefore
        · exact h other held (hother other held heq hheld) hlive
      cases record with
      | success generation connection selection => exact absurd rfl (hne _ _ _)
      | backoff | incompatible | updateMode =>
        rw [List.append_nil]
        exact hsourced
  · rw [publish, if_neg hkey, List.append_nil]
    exact h

theorem sourced_exec (supervisor nowMs : ℕ)
    {published : List Published} (h : update.Sourced published) (records : List Record) :
    (exec (publish key supervisor nowMs) update records).1.Sourced
      (published ++ (exec (publish key supervisor nowMs) update records).2) := by
  induction records generalizing update published with
  | nil =>
    rw [exec_nil, List.append_nil]
    exact h
  | cons record records ih =>
    rw [exec_cons, ← List.append_assoc]
    exact ih (sourced_publish key supervisor nowMs h record)

theorem mem_exec (supervisor nowMs : ℕ) (update : Update)
    (records : List Record) (other : TargetSession) :
    other ∈ (exec (publish key supervisor nowMs) update records).1.state.targets ↔
      other ∈ update.state.targets := by
  induction records generalizing update with
  | nil => exact Iff.rfl
  | cons record records ih =>
    rw [exec_cons, ih]
    exact mem_publish key supervisor nowMs update record other

theorem mem_exec_published {key : TargetSession} {supervisor nowMs : ℕ}
    {records : List Record} {p : Published}
    (h : p ∈ (exec (publish key supervisor nowMs) update records).2) :
    ∃ generation connection selection, .success generation connection selection ∈ records ∧
      p = ⟨key, generation, ⟨supervisor, connection⟩⟩ := by
  obtain ⟨before, record, later, rfl, hp⟩ := mem_exec_snd h
  rw [publish] at hp
  split at hp
  · cases record with
    | success generation connection selection =>
      exact ⟨generation, connection, selection, by simp, List.mem_singleton.mp hp⟩
    | _ => cases hp
  · cases hp

theorem exec_success {key : TargetSession} (supervisor nowMs : ℕ)
    (hkey : key ∈ update.state.targets) (generation connection : ℕ)
    (selection : TransportSnapshot) :
    (exec (publish key supervisor nowMs) update [.success generation connection selection]).2 =
      [⟨key, generation, ⟨supervisor, connection⟩⟩] := by
  rw [exec_singleton, publish, if_pos hkey]

end Update

/-! ### The invariant -/

namespace Federations

/-- How the supervisors and what was published go together. -/
structure Consistent (f : Federations) (published : List Published) : Prop where
  wired : ∀ (i : ℕ) s, f.supervisors[i]? = some s → ∃ store, f.stores[s.store]? = some store ∧
    s.supervisor.key ∈ store.published.state.targets
  counts : ∀ (i : ℕ) s, f.supervisors[i]? = some s → s.supervisor.Counts
  /-- Every connection was published. -/
  recorded : ∀ (i : ℕ) s number, f.supervisors[i]? = some s → 0 < number →
    number ≤ s.supervisor.connections →
      ⟨s.supervisor.key, min number MAX_GENERATION, ⟨i, number⟩⟩ ∈ published
  /-- Everything published was a connection. -/
  genuine : ∀ p ∈ published, ∃ s, f.supervisors[p.connection.supervisor]? = some s ∧
    p.key = s.supervisor.key ∧ 0 < p.connection.number ∧
      p.connection.number ≤ s.supervisor.connections ∧
        p.generation = min p.connection.number MAX_GENERATION
  sourced : ∀ update ∈ f.updates, update.Sourced published

theorem sourced_start (config : Config) (published : List Published) :
    (Store.start config).published.Sourced published := by
  intro key target htarget hlive
  have hconnecting : ∀ (targets : List ConfiguredTarget)
      (held : ExtTreeMap TargetSession TargetRuntimeState),
      (∀ (key : TargetSession) (target : TargetRuntimeState), held[key]? = some target →
        target.connection ≠ .live) →
      ∀ (key : TargetSession) (target : TargetRuntimeState), (targets.foldl
        (fun held target => held.insert (targetKey target) (.new target)) held)[key]? = some target →
          target.connection ≠ .live := by
    intro targets
    induction targets with
    | nil => exact fun held h => h
    | cons first targets ih =>
      intro held h
      refine ih _ fun key target htarget => ?_
      rw [ExtTreeMap.getElem?_insert] at htarget
      split at htarget
      · rw [← Option.some.inj htarget]
        exact fun hlive => by cases hlive
      · exact h key target htarget
  exact absurd hlive (hconnecting config.targets ∅ (fun key target h => by simp at h) key target
    htarget)

theorem mem_start (config : Config) {target : ConfiguredTarget} (h : target ∈ config.targets) :
    targetKey target ∈ (Store.start config).published.state.targets := by
  have hfold : ∀ (targets : List ConfiguredTarget)
      (held : ExtTreeMap TargetSession TargetRuntimeState),
      target ∈ targets ∨ targetKey target ∈ held →
        targetKey target ∈ targets.foldl
          (fun held target => held.insert (targetKey target) (.new target)) held := by
    intro targets
    induction targets with
    | nil => exact fun held h => h.resolve_left List.not_mem_nil
    | cons first targets ih =>
      intro held h
      refine ih _ ?_
      rcases h with h | h
      · rcases List.mem_cons.mp h with rfl | h
        · exact .inr ExtTreeMap.mem_insert_self
        · exact .inl h
      · exact .inr (ExtTreeMap.mem_insert.mpr (.inr h))
  exact hfold config.targets ∅ (.inl h)

variable {published : List Published} {f : Federations}

/-- Another set of supervisors is started. -/
theorem Consistent.startFederation
    (h : f.Consistent published) : f.startFederation.Consistent published := by
  have hold : ∀ (i : ℕ) s, f.supervisors[i]? = some s →
      f.startFederation.supervisors[i]? = some s := by
    intro i s hs
    obtain ⟨hi, -⟩ := List.getElem?_eq_some_iff.mp hs
    rw [Federations.startFederation, List.getElem?_append_left hi]
    exact hs
  have hnew : ∀ (i : ℕ) s, f.startFederation.supervisors[i]? = some s →
      f.supervisors[i]? = some s ∨ ∃ target ∈ f.active.targets,
        s = ⟨f.stores.length, .start f.active.options target⟩ := by
    intro i s hs
    by_cases hi : i < f.supervisors.length
    · rw [Federations.startFederation, List.getElem?_append_left hi] at hs
      exact .inl hs
    · rw [Federations.startFederation, List.getElem?_append_right (by omega)] at hs
      obtain ⟨target, htarget, rfl⟩ := List.mem_map.mp (List.mem_of_getElem? hs)
      exact .inr ⟨target, htarget, rfl⟩
  have hstores : ∀ (i : ℕ) store, f.stores[i]? = some store →
      f.startFederation.stores[i]? = some { store with stopping := true } := by
    intro i store hstore
    obtain ⟨hi, -⟩ := List.getElem?_eq_some_iff.mp hstore
    rw [Federations.startFederation, List.getElem?_append_left (by simpa using hi),
      List.getElem?_map, hstore]
    rfl
  refine ⟨fun i s hs => ?_, fun i s hs => ?_, fun i s number hs hpos hle => ?_, fun p hp => ?_,
    fun update hupdate => ?_⟩
  · rcases hnew i s hs with hs | ⟨target, htarget, rfl⟩
    · obtain ⟨store, hstore, hkey⟩ := h.wired i s hs
      exact ⟨_, hstores _ _ hstore, hkey⟩
    · refine ⟨.start f.active, ?_, mem_start f.active htarget⟩
      simp [Federations.startFederation]
  · rcases hnew i s hs with hs | ⟨target, htarget, rfl⟩
    · exact h.counts i s hs
    · exact Supervisor.counts_start f.active.options target
  · rcases hnew i s hs with hs | ⟨target, htarget, rfl⟩
    · exact h.recorded i s number hs hpos hle
    · have hzero : (Supervisor.start f.active.options target).connections = 0 := rfl
      rw [hzero] at hle
      omega
  · obtain ⟨s, hs, hrest⟩ := h.genuine p hp
    exact ⟨s, hold _ _ hs, hrest⟩
  · have hcases : update ∈ f.updates ∨ update = (Store.start f.active).published := by
      have hheld : (f.stores.map fun store => { store with stopping := true }).map
          Store.published = f.stores.map Store.published := by
        rw [List.map_map]
        rfl
      simp only [updates, Federations.startFederation, List.map_append, hheld, List.mem_append,
        List.mem_singleton, List.map_cons, List.map_nil] at hupdate ⊢
      tauto
    rcases hcases with hupdate | rfl
    · exact h.sourced update hupdate
    · exact sourced_start f.active published

theorem Consistent.of_same {f f' : Federations}
    (h : f.Consistent published) (hstores : f'.stores = f.stores)
    (hsupervisors : f'.supervisors = f.supervisors)
    (hupdates : ∀ update ∈ f'.updates, update ∈ f.updates) : f'.Consistent published where
  wired := by
    rw [hstores, hsupervisors]
    exact h.wired
  counts := by
    rw [hsupervisors]
    exact h.counts
  recorded := by
    rw [hsupervisors]
    exact h.recorded
  genuine := by
    rw [hsupervisors]
    exact h.genuine
  sourced update hupdate := h.sourced update (hupdates update hupdate)

/-- The daemon with one supervisor gone on, and what it published. -/
def woken (f : Federations) (index : ℕ) (wake : Wake) (nowMs : ℕ) (s : Supervised)
    (store : Store) : Federations × List Published :=
  let (supervisor, records) := s.supervisor.wake wake
  let (published, outputs) :=
    exec (Update.publish s.supervisor.key index nowMs) store.published records
  ({ f with
      supervisors := f.supervisors.set index { s with supervisor }
      stores := f.stores.set s.store { store with published } }, outputs)

/-- A wake does nothing, and connects nobody, or one supervisor goes on. -/
theorem wake_cases (h : f.Consistent published) (index : ℕ) (wake : Wake) (nowMs : ℕ) :
    (f.wake index wake nowMs = (f, []) ∧
      ∀ s, f.supervisors[index]? = some s → s.supervisor.connects wake = false) ∨
    ∃ s store, f.supervisors[index]? = some s ∧ f.stores[s.store]? = some store ∧
      s.supervisor.key ∈ store.published.state.targets ∧
      f.wake index wake nowMs = f.woken index wake nowMs s store := by
  cases hs : f.supervisors[index]? with
  | none => exact .inl ⟨by simp only [Federations.wake, hs], fun s heq => by cases heq⟩
  | some s =>
    obtain ⟨store, hstore, hkey⟩ := h.wired index s hs
    by_cases hblind : wake matches .shutdown ∧ !store.stopping
    · refine .inl ⟨by simp only [Federations.wake, hs, hstore, if_pos hblind], fun other heq => ?_⟩
      cases wake with
      | shutdown => rfl
      | _ => cases hblind.1
    · exact .inr ⟨s, store, rfl, hstore, hkey, by
        simp only [Federations.wake, hs, hstore, if_neg hblind]
        rfl⟩

/-- One supervisor goes on. -/
theorem Consistent.woken
    (h : f.Consistent published) {index : ℕ} (wake : Wake) (nowMs : ℕ) {s : Supervised}
    {store : Store} (hs : f.supervisors[index]? = some s) (hstore : f.stores[s.store]? = some store)
    (hkey : s.supervisor.key ∈ store.published.state.targets) :
    (f.woken index wake nowMs s store).1.Consistent
      (published ++ (f.woken index wake nowMs s store).2) := by
  have hwakes := s.supervisor.wakes_wake wake
  have hcounts := hwakes.counts (h.counts index s hs)
  have hlength : index < f.supervisors.length := (List.getElem?_eq_some_iff.mp hs).1
  simp only [Federations.woken]
  generalize s.supervisor.wake wake = result at hwakes hcounts
  obtain ⟨supervisor, records⟩ := result
  simp only at hwakes hcounts ⊢
  have hlater : ∀ (i : ℕ) other,
      (f.supervisors.set index { s with supervisor })[i]? = some other →
        i = index ∧ other = { s with supervisor } ∨ i ≠ index ∧ f.supervisors[i]? = some other := by
    intro i other hother
    rw [List.getElem?_set] at hother
    split at hother
    · next heq => exact .inl ⟨heq.symm, (Option.some.inj hother).symm⟩
    · next hne => exact .inr ⟨Ne.symm hne, hother⟩
  have hown : (f.supervisors.set index { s with supervisor })[index]? =
      some { s with supervisor } := by
    rw [List.getElem?_set_self hlength]
  refine ⟨fun i other hother => ?_, fun i other hother => ?_,
    fun i other number hother hpos hle => ?_, fun p hp => ?_, fun update hupdate => ?_⟩
  · -- the targets of the store are the same
    have hheld : ∃ held, f.stores[other.store]? = some held ∧
        other.supervisor.key ∈ held.published.state.targets := by
      rcases hlater i other hother with ⟨rfl, rfl⟩ | ⟨-, hother⟩
      · exact ⟨store, hstore, hwakes.key ▸ hkey⟩
      · exact h.wired i other hother
    obtain ⟨held, hheld, hmem⟩ := hheld
    by_cases hsame : s.store = other.store
    · rw [← hsame, hstore] at hheld
      obtain rfl := Option.some.inj hheld
      refine ⟨{ store with published := (exec (Update.publish s.supervisor.key index nowMs)
        store.published records).1 }, ?_, (Update.mem_exec _ index nowMs _ records _).mpr hmem⟩
      rw [← hsame, List.getElem?_set_self (List.getElem?_eq_some_iff.mp hstore).1]
    · refine ⟨held, ?_, hmem⟩
      rw [List.getElem?_set, if_neg hsame]
      exact hheld
  · rcases hlater i other hother with ⟨rfl, rfl⟩ | ⟨-, hother⟩
    · exact hcounts
    · exact h.counts i other hother
  · rcases hlater i other hother with ⟨rfl, rfl⟩ | ⟨-, hother⟩
    · simp only at hle ⊢
      rw [hwakes.key]
      by_cases hold : number ≤ s.supervisor.connections
      · exact List.mem_append_left _ (h.recorded i s number hs hpos hold)
      · -- a connection that was not there before is the one just made
        have hconnections := hwakes.connections
        simp only at hconnections
        cases hconnects : s.supervisor.connects wake with
        | false =>
          rw [hconnects, Bool.toNat_false] at hconnections
          omega
        | true =>
          obtain ⟨selection, hrecords⟩ := hwakes.connected hconnects
          simp only at hrecords
          rw [hconnects, Bool.toNat_true] at hconnections
          obtain rfl : number = supervisor.connections := by omega
          rw [hrecords, Update.exec_success i nowMs hkey, hcounts.generation]
          simp
    · exact List.mem_append_left _ (h.recorded i other number hother hpos hle)
  · rcases List.mem_append.mp hp with hp | hp
    · obtain ⟨other, hother, hpkey, hpos, hle, hgeneration⟩ := h.genuine p hp
      by_cases heq : p.connection.supervisor = index
      · rw [heq] at hother
        obtain rfl := Option.some.inj (hs.symm.trans hother)
        refine ⟨{ s with supervisor }, by rw [heq]; exact hown, hpkey.trans hwakes.key.symm, hpos,
          ?_, hgeneration⟩
        have hconnections := hwakes.connections
        simp only at hconnections ⊢
        omega
      · refine ⟨other, ?_, hpkey, hpos, hle, hgeneration⟩
        rw [List.getElem?_set, if_neg (Ne.symm heq)]
        exact hother
    · obtain ⟨generation, connection, selection, hrecord, rfl⟩ := Update.mem_exec_published hp
      obtain ⟨hconnected, rfl, rfl⟩ := hwakes.published generation connection selection hrecord
      exact ⟨_, hown, hwakes.key.symm, hcounts.connected hconnected, Nat.le_refl _, hcounts.generation⟩
  · have hcases : update ∈ f.updates ∨
        update = (exec (Update.publish s.supervisor.key index nowMs) store.published records).1 := by
      simp only [updates, List.mem_append, List.mem_map, List.mem_singleton] at hupdate ⊢
      rcases hupdate with (⟨held, hheld, rfl⟩ | hinput) | hcurrent
      · rcases List.mem_or_eq_of_mem_set hheld with hheld | rfl
        · exact .inl (.inl (.inl ⟨held, hheld, rfl⟩))
        · exact .inr rfl
      · exact .inl (.inl (.inr hinput))
      · exact .inl (.inr hcurrent)
    rcases hcases with hupdate | rfl
    · exact (h.sourced update hupdate).mono (List.subset_append_left _ _)
    · refine Update.sourced_exec _ index nowMs (h.sourced store.published ?_) records
      exact List.mem_append_left _ (List.mem_append_left _
        (List.mem_map_of_mem (List.mem_of_getElem? hstore)))

/-- **Every step keeps the supervisors and what was published consistent.** -/
theorem Consistent.step (h : f.Consistent published) (move : Move) :
    (f.step move).1.Consistent (published ++ (f.step move).2) := by
  cases move with
  | reconfigure refreshed =>
    simp only [Federations.step, List.append_nil]
    cases refreshed with
    | none => exact h
    | some refreshed =>
      simp only [Federations.reconfigure]
      split
      · exact h
      · have hactive : ({ f with active := refreshed } : Federations).Consistent published :=
          h.of_same rfl rfl fun update hupdate => hupdate
        exact hactive.startFederation
  | wake index wake nowMs =>
    simp only [Federations.step]
    rcases wake_cases h index wake nowMs with ⟨hidle, -⟩ | ⟨s, store, hs, hstore, hkey, hwoken⟩
    · rw [hidle, List.append_nil]
      exact h
    · rw [hwoken]
      exact h.woken wake nowMs hs hstore hkey
  | watch index =>
    simp only [Federations.step]
    cases hstore : f.stores[index]? with
    | none =>
      rw [List.append_nil]
      exact h
    | some store =>
      rw [List.append_nil]
      refine h.of_same rfl rfl fun update hupdate => ?_
      have hheld : store.published ∈ f.stores.map Store.published :=
        List.mem_map_of_mem (List.mem_of_getElem? hstore)
      simp only [updates, List.mem_append, List.mem_singleton] at hupdate ⊢
      rcases hupdate with (hupdate | hinput | rfl) | hcurrent
      · exact .inl (.inl hupdate)
      · exact .inl (.inr hinput)
      · exact .inl (.inl hheld)
      · exact .inr hcurrent
  | take =>
    simp only [Federations.step]
    cases hinputs : f.inputs with
    | nil =>
      rw [List.append_nil]
      exact h
    | cons first inputs =>
      rw [List.append_nil]
      refine h.of_same rfl rfl fun update hupdate => ?_
      simp only [updates, hinputs, List.mem_append, List.mem_cons] at hupdate ⊢
      tauto

/-! ### Along a run -/

theorem consistent_new (config : Config) : (new config).Consistent [] := by
  refine Consistent.startFederation ⟨fun i s hs => ?_, fun i s hs => ?_, fun i s number hs => ?_,
    fun p hp => ?_, fun update hupdate => ?_⟩
  · simp at hs
  · simp at hs
  · simp at hs
  · cases hp
  · obtain rfl : update = ⟨.default, ∅⟩ := by simpa [updates] using hupdate
    intro key target htarget
    simp [FederationState.default] at htarget

theorem Consistent.distinguishes (h : f.Consistent published)
    (hdistinct : ∀ p ∈ published, ∀ q ∈ published, p.key = q.key → p.generation = q.generation →
      p.connection = q.connection) : Distinguishes (f, published) where
  distinct := hdistinct
  accepts update hupdate key target htarget p hp hpkey haccepts := by
    obtain ⟨hlive, hgeneration⟩ := of_decide_eq_true haccepts
    obtain ⟨q, hq, hqkey, hqgeneration, horigin⟩ := h.sourced update hupdate key target htarget hlive
    rw [horigin, hdistinct q hq p hp (hqkey.trans hpkey.symm) (hqgeneration.trans hgeneration)]

theorem Consistent.generation_pos
    (h : f.Consistent published) {i : ℕ} {s : Supervised} (hs : f.supervisors[i]? = some s)
    (hconnections : 0 < s.supervisor.connections) : 0 < s.supervisor.connectionGeneration := by
  have hgeneration := (h.counts i s hs).generation
  have hmax : 0 < MAX_GENERATION := by decide
  omega

/-- **A supervisor that connects alone publishes under a generation of its own.** -/
theorem distinct_woken (h : f.Consistent published)
    (hdistinct : ∀ p ∈ published, ∀ q ∈ published, p.key = q.key → p.generation = q.generation →
      p.connection = q.connection)
    {index : ℕ} {wake : Wake} {nowMs : ℕ} (halone : f.ConnectsAlone (.wake index wake nowMs))
    {s : Supervised} {store : Store} (hs : f.supervisors[index]? = some s) :
    ∀ p ∈ published ++ (f.woken index wake nowMs s store).2,
      ∀ q ∈ published ++ (f.woken index wake nowMs s store).2,
        p.key = q.key → p.generation = q.generation → p.connection = q.connection := by
  have hwakes := s.supervisor.wakes_wake wake
  have hcounts := hwakes.counts (h.counts index s hs)
  -- what is published now is one thing
  have hnew : ∀ q ∈ (f.woken index wake nowMs s store).2,
      (s.supervisor.wake wake).1.connected = true ∧
        q = ⟨s.supervisor.key, (s.supervisor.wake wake).1.connectionGeneration,
          ⟨index, (s.supervisor.wake wake).1.connections⟩⟩ := by
    intro q hq
    obtain ⟨generation, connection, selection, hrecord, rfl⟩ := Update.mem_exec_published hq
    obtain ⟨hconnected, rfl, rfl⟩ := hwakes.published generation connection selection hrecord
    exact ⟨hconnected, rfl⟩
  have hmixed : ∀ p ∈ published, ∀ q ∈ (f.woken index wake nowMs s store).2, p.key = q.key →
      p.generation = q.generation → p.connection = q.connection := by
    intro p hp q hq hkey hgeneration
    obtain ⟨hconnected, hqeq⟩ := hnew q hq
    have hconnections := hwakes.connections
    cases hconnects : s.supervisor.connects wake with
    | false =>
      -- the connection was there before, and was published then
      rw [hconnects, Bool.toNat_false, Nat.add_zero] at hconnections
      have hpos := hcounts.connected hconnected
      rw [hconnections] at hpos
      have hrecorded := h.recorded index s _ hs hpos (Nat.le_refl _)
      refine hdistinct p hp q ?_ hkey hgeneration
      rw [hqeq, hcounts.generation, hconnections]
      exact hrecorded
    | true =>
      obtain ⟨hleft, hothers⟩ := halone s hs hconnects
      obtain ⟨other, hother, hpkey, hpos, hle, hpgeneration⟩ := h.genuine p hp
      rw [hconnects, Bool.toNat_true] at hconnections
      have hown := (h.counts index s hs).generation
      have hqgeneration := hcounts.generation
      rw [hqeq] at hkey hgeneration
      simp only at hkey hgeneration
      by_cases hsame : p.connection.supervisor = index
      · rw [hsame] at hother
        obtain rfl := Option.some.inj (hs.symm.trans hother)
        omega
      · have hzero := hothers _ other hother hsame (hpkey.symm.trans hkey)
        have hgenerated := h.generation_pos hother (by omega)
        omega
  intro p hp q hq hkey hgeneration
  rcases List.mem_append.mp hp with hp | hp <;> rcases List.mem_append.mp hq with hq | hq
  · exact hdistinct p hp q hq hkey hgeneration
  · exact hmixed p hp q hq hkey hgeneration
  · exact (hmixed q hq p hp hkey.symm hgeneration.symm).symm
  · rw [(hnew p hp).2, (hnew q hq).2]

theorem Distinguishes.step
    (h : f.Consistent published) (hdistinguishes : Distinguishes (f, published)) {move : Move}
    (halone : f.ConnectsAlone move) :
    Distinguishes ((f.step move).1, published ++ (f.step move).2) := by
  refine (h.step move).distinguishes ?_
  have hquiet : (f.step move).2 = [] → ∀ p ∈ published ++ (f.step move).2,
      ∀ q ∈ published ++ (f.step move).2, p.key = q.key → p.generation = q.generation →
        p.connection = q.connection := by
    intro hnone
    rw [hnone, List.append_nil]
    exact hdistinguishes.distinct
  cases move with
  | reconfigure refreshed => exact hquiet rfl
  | wake index wake nowMs =>
    rcases wake_cases h index wake nowMs with ⟨hidle, -⟩ | ⟨s, store, hs, hstore, hkey, hwoken⟩
    · refine hquiet ?_
      rw [Federations.step, hidle]
    · simp only [Federations.step, hwoken]
      exact distinct_woken h hdistinguishes.distinct halone hs
  | watch index =>
    refine hquiet ?_
    simp only [Federations.step]
    split <;> rfl
  | take =>
    refine hquiet ?_
    simp only [Federations.step]
    split <;> rfl

/-- **A connection that is not made alone is confused** with one made before it. -/
theorem connectsAlone_of_distinguishes (h : f.Consistent published) {move : Move}
    (hafter : Distinguishes ((f.step move).1, published ++ (f.step move).2)) :
    f.ConnectsAlone move := by
  cases move with
  | reconfigure | watch | take => trivial
  | wake index wake nowMs =>
    intro s hs hconnects
    rcases wake_cases h index wake nowMs with ⟨-, hidle⟩ | ⟨s', store, hs', hstore, hkey, hwoken⟩
    · rw [hidle s hs] at hconnects
      cases hconnects
    · obtain rfl := Option.some.inj (hs.symm.trans hs')
      have hwakes := s.supervisor.wakes_wake wake
      have hconnections := hwakes.connections
      rw [hconnects, Bool.toNat_true] at hconnections
      have hconsistent := h.woken wake nowMs hs hstore hkey
      simp only [Federations.step, hwoken] at hafter
      have hlength : index < f.supervisors.length := (List.getElem?_eq_some_iff.mp hs).1
      have hown : (f.woken index wake nowMs s store).1.supervisors[index]? =
          some { s with supervisor := (s.supervisor.wake wake).1 } :=
        List.getElem?_set_self hlength
      constructor
      · by_contra hleft
        have hgeneration := (h.counts index s hs).generation
        have hmax : 0 < MAX_GENERATION := by decide
        have hlast := hconsistent.recorded index _ s.supervisor.connections hown (by omega)
          (by simp only; omega)
        have hnext := hconsistent.recorded index _ (s.supervisor.connections + 1) hown (by omega)
          (by simp only; omega)
        have hsame := hafter.distinct _ hlast _ hnext rfl (by simp only; omega)
        simp at hsame
      · intro i other hother hne hsame
        by_contra hcounted
        have hothers : (f.woken index wake nowMs s store).1.supervisors[i]? = some other := by
          rw [Federations.woken, List.getElem?_set, if_neg (Ne.symm hne)]
          exact hother
        have hgeneration := (h.counts i other hother).generation
        have hfirst := hconsistent.recorded index _ 1 hown (by omega) (by simp only; omega)
        have hearlier := hconsistent.recorded i other 1 hothers (by omega) (by omega)
        have heq := hafter.distinct _ hearlier _ hfirst (hsame.trans hwakes.key.symm) rfl
        simp at heq
        exact hne heq

/-- **Generations tell connections apart** in exactly the runs in which every supervisor that
connects to a target is the only one that ever did. -/
theorem generations_distinguish (config : Config) (moves : List Move) :
    AllStates (observe step history) Distinguishes (new config, []) moves ↔
      AllSteps (observe step history) (fun s move => s.1.ConnectsAlone move) (new config, [])
        moves := by
  refine allStates_iff_allSteps (I := fun s => s.1.Consistent s.2)
    (fun s move h => h.step move) (fun s move h hdistinguishes halone => ?_)
    (fun s move h _ hafter => connectsAlone_of_distinguishes h hafter) (consistent_new config) ?_
    moves
  · exact hdistinguishes.step h halone
  · exact (consistent_new config).distinguishes fun p hp => by cases hp

/-! ### A run -/

def lab : ConfiguredTarget := ⟨"lab", some "lab.local", none, none, []⟩

def configured (settings : String) : Config := ⟨[lab], ⟨5000, 1000, 30000⟩, settings⟩

/-- An empty snapshot. -/
def answered : TransportSnapshot :=
  ⟨⟨none, none, none, ∅, ⟨0, 0, 0, 0⟩, none, none, none, ∅, ∅, ∅, ∅, ∅, ∅⟩, [], "herdr"⟩

/-- The target answers, another setting is changed, and the target answers again. -/
def resettled : List Move :=
  [.wake 0 (.taken answered) 1, .watch 0, .take, .reconfigure (some (configured "themed")),
    .wake 1 (.taken answered) 2, .watch 1, .take]

/-- The daemon then accepts what was read under the connection before. -/
theorem generation_reused :
    ¬AllStates (observe step history) Distinguishes (new (configured ""), []) resettled ∧
      let run := exec step (new (configured "")) resettled
      run.2 = [⟨targetKey lab, 1, ⟨0, 1⟩⟩, ⟨targetKey lab, 1, ⟨1, 1⟩⟩] ∧
        (run.1.current.state.targets[targetKey lab]?.map fun target => target.acceptsGeneration 1) =
          some true ∧
        run.1.current.origins[targetKey lab]? = some ⟨1, 1⟩ := by
  refine ⟨fun h => ?_, by decide +kernel⟩
  have hfirst : ⟨targetKey lab, 1, ⟨0, 1⟩⟩ ∈
      (exec (observe step history) (new (configured ""), []) resettled).1.2 := by decide +kernel
  have hsecond : ⟨targetKey lab, 1, ⟨1, 1⟩⟩ ∈
      (exec (observe step history) (new (configured ""), []) resettled).1.2 := by decide +kernel
  have hsame := h.last.distinct _ hfirst _ hsecond rfl rfl
  simp at hsame

end Federations

end SuperHerdr
