import SuperHerdr.Bridge.Relay

/-!
# What a step of the bridge does

Each operation on the tables gets its small lemmas, and `advance` one lemma for each thing a proof
asks of a step: which task may take a generation or a device in hand, and what may turn up in a table.
A proof about whole runs uses these and never opens `advance` again.
-/

namespace SuperHerdr

namespace Bridge

open Std

variable {sha256 : String → String}

/-! ### What a task has in hand -/

namespace Task

/-- The generation a connector is about to register. -/
def claim? : Task → Option ℕ
  | .claiming _ _ generation => some generation
  | _ => none

/-- The route and the secret of a connector that is not registered yet. -/
def presents? : Task → Option (String × String)
  | .arriving route secret => some (route, secret)
  | .claiming route secret _ => some (route, secret)
  | _ => none

/-- The route and the generation of a connector that is registered, or was. -/
def host? : Task → Option (String × ℕ)
  | .replacing route generation _ => some (route, generation)
  | .serving route generation => some (route, generation)
  | .publishing route generation _ => some (route, generation)
  | .relaying route generation _ => some (route, generation)
  | .sending route generation _ => some (route, generation)
  | .blocked route generation _ => some (route, generation)
  | .dropping route generation _ => some (route, generation)
  | .leaving route generation => some (route, generation)
  | .left route generation => some (route, generation)
  | _ => none

/-- The generation a connector's step is for. One that has replaced another first clears up for that
one. -/
def actsFor? : Task → Option ℕ
  | .replacing _ _ replaced => some replaced
  | task => task.host?.map Prod.snd

/-- The generation a device is about to join. -/
def joins? : Task → Option ℕ
  | .attaching _ _ generation => some generation
  | _ => none

/-- The connection of a device, and the generation it is a device of. -/
def device? : Task → Option (ℕ × ℕ)
  | .attached _ _ generation connection => some (connection, generation)
  | .waiting _ _ generation connection => some (connection, generation)
  | .detaching _ _ generation connection _ => some (connection, generation)
  | _ => none

/-- The device a connector found among those of its generation. -/
def target? : Task → Option (ℕ × ℕ)
  | .sending _ generation connection => some (connection, generation)
  | .blocked _ generation connection => some (connection, generation)
  | .dropping _ generation connection => some (connection, generation)
  | _ => none

end Task

/-! ### The operations -/

namespace RelayState

variable (self : RelayState) (route digest : String) (generation now : ℕ)

theorem registered_iff {self : RelayState} {route : String} {generation : ℕ} :
    self.registered route generation = true ↔
      ∃ live, self.routes[route]? = some live ∧ live.generation = generation := by
  unfold registered
  cases self.routes[route]? with
  | none => simp
  | some live => simp

/-- A claim that is refused changes nothing; one that is not gives the route to its generation. -/
theorem claim_cases :
    (∃ message, self.claim route digest generation = (self, .error message)) ∨
    ∃ devices replaced, self.claim route digest generation =
        ({ self with routes := self.routes.insert route ⟨digest, generation⟩, devices }, .ok replaced) ∧
      (∀ g, devices g = [] ∨ devices g = self.devices g) ∧
      (∀ live, self.routes[route]? = some live →
        live.secretDigest = digest ∧ replaced = some live.generation) := by
  unfold claim
  split
  · next existing hexisting =>
    split
    · exact .inl ⟨_, rfl⟩
    · next hdigest =>
      refine .inr ⟨_, _, rfl, ?_, ?_⟩
      · intro g
        by_cases hg : g = generation
        · exact .inl (by simp [hg])
        · by_cases he : g = existing.generation
          · exact .inl (by simp [he, Function.update_apply])
          · exact .inr (by simp [hg, he])
      · rintro live hlive
        obtain rfl : existing = live := Option.some.inj (hexisting.symm.trans hlive)
        exact ⟨not_not.mp hdigest, rfl⟩
  · next hnone =>
    split
    · exact .inl ⟨_, rfl⟩
    · refine .inr ⟨_, _, rfl, ?_, by simp [hnone]⟩
      intro g
      by_cases hg : g = generation
      · exact .inl (by simp [hg])
      · exact .inr (by simp [hg])

variable {self route digest generation} {after : RelayState}

section Claim

variable {result : Except String (Option ℕ)}
  (h : self.claim route digest generation = (after, result))

include h

theorem claim_codes : after.codes = self.codes := by
  rcases claim_cases self route digest generation with ⟨_, heq⟩ | ⟨_, _, heq, -⟩
  all_goals
    obtain ⟨rfl, -⟩ := Prod.mk.inj (heq.symm.trans h)
    rfl

theorem claim_routes {r : String} {live : LiveRoute} (hlive : after.routes[r]? = some live) :
    self.routes[r]? = some live ∨
      r = route ∧ live.secretDigest = digest ∧ live.generation = generation ∧
        ∃ replaced, result = .ok replaced := by
  rcases claim_cases self route digest generation with ⟨_, heq⟩ | ⟨_, replaced, heq, -⟩
  · obtain ⟨rfl, -⟩ := Prod.mk.inj (heq.symm.trans h)
    exact .inl hlive
  · obtain ⟨rfl, rfl⟩ := Prod.mk.inj (heq.symm.trans h)
    rw [ExtTreeMap.getElem?_insert] at hlive
    split at hlive
    · next heq =>
      have hroute : route = r := LawfulEqCmp.eq_of_compare heq
      obtain rfl := Option.some.inj hlive
      exact .inr ⟨hroute.symm, rfl, rfl, replaced, rfl⟩
    · exact .inl hlive

theorem claim_nextGeneration : after.nextGeneration = self.nextGeneration := by
  rcases claim_cases self route digest generation with ⟨_, heq⟩ | ⟨_, _, heq, -⟩
  all_goals
    obtain ⟨rfl, -⟩ := Prod.mk.inj (heq.symm.trans h)
    rfl

theorem claim_nextConnection : after.nextConnection = self.nextConnection := by
  rcases claim_cases self route digest generation with ⟨_, heq⟩ | ⟨_, _, heq, -⟩
  all_goals
    obtain ⟨rfl, -⟩ := Prod.mk.inj (heq.symm.trans h)
    rfl

theorem mem_claim_devices {g c : ℕ} (hc : c ∈ after.devices g) : c ∈ self.devices g := by
  rcases claim_cases self route digest generation with ⟨_, heq⟩ | ⟨devices, _, heq, hdevices, -⟩
  · obtain ⟨rfl, -⟩ := Prod.mk.inj (heq.symm.trans h)
    exact hc
  · obtain ⟨rfl, -⟩ := Prod.mk.inj (heq.symm.trans h)
    rcases hdevices g with hempty | hsame
    · have hc : c ∈ devices g := hc
      rw [hempty] at hc
      cases hc
    · exact hsame ▸ hc

end Claim

theorem release_routes {r : String} {live : LiveRoute}
    (h : (self.release route generation).routes[r]? = some live) : self.routes[r]? = some live := by
  unfold release at h
  split at h
  · rw [ExtTreeMap.getElem?_erase] at h
    split at h
    · cases h
    · exact h
  · exact h

theorem mem_release_devices {g c : ℕ} (h : c ∈ (self.release route generation).devices g) :
    c ∈ self.devices g := by
  unfold release at h
  split at h
  · simp only [Function.update_apply] at h
    split at h
    · cases h
    · exact h
  · exact h

@[simp] theorem release_codes : (self.release route generation).codes = self.codes := by
  unfold release
  split <;> rfl

@[simp] theorem release_nextGeneration :
    (self.release route generation).nextGeneration = self.nextGeneration := by
  unfold release
  split <;> rfl

@[simp] theorem release_nextConnection :
    (self.release route generation).nextConnection = self.nextConnection := by
  unfold release
  split <;> rfl

variable {found : Option CodeRoute} {code : String}

theorem lookup_eq {after : RelayState}
    (h : self.lookup now code = (after, found)) : ∃ codes, after = { self with codes } := by
  unfold lookup at h
  split at h
  · exact ⟨_, (Prod.mk.inj h).1.symm⟩
  · simp only at h
    split at h <;> exact ⟨_, (Prod.mk.inj h).1.symm⟩

variable {held : CodeRoute}

/-- What is published after a publication: what was and has not expired, but for what the generation
published before, and the code that was offered. -/
theorem mem_registerCode {offered : Option String} :
    held ∈ (self.registerCode now route generation offered).codes code ↔
      (held ∈ self.codes code ∧ (held.route ≠ route ∨ held.generation ≠ generation) ∧
          now < held.expiresAt) ∨
        (offeredCode offered = some code ∧ held = ⟨route, generation, now + CODE_LIFETIME⟩) := by
  unfold registerCode
  simp only
  cases hoffered : offeredCode offered with
  | none => simp [removeCodes, retainCodes]
  | some published =>
    by_cases hcode : code = published
    · subst hcode
      simp [removeCodes, retainCodes]
    · have hne : published ≠ code := Ne.symm hcode
      simp [removeCodes, retainCodes, hcode, hne]

/-- A code that is found is the one thing published under it that has not expired. -/
theorem lookup_spec (h : (self.lookup now code).2 = some held) :
    offeredCode (some code) = some (normalizeCode code) ∧
      held ∈ self.codes (normalizeCode code) ∧ now < held.expiresAt := by
  unfold lookup at h
  split at h
  · cases h
  · next published hpublished =>
    have hnormal : published = normalizeCode code := by
      have hsome := (Option.filter_eq_some_iff.mp hpublished).1
      simpa using hsome.symm
    subst hnormal
    simp only at h
    split at h
    · next found hfound =>
      obtain rfl : found = held := Option.some.inj h
      have hmem : found ∈ (self.retainCodes fun held => now < held.expiresAt).codes
          (normalizeCode code) := by
        rw [hfound]
        exact List.mem_singleton_self found
      rw [retainCodes, List.mem_filter] at hmem
      exact ⟨hpublished, hmem.1, of_decide_eq_true hmem.2⟩
    · cases h

theorem mem_of_mem_lookup {offered code : String}
    (h : self.lookup now offered = (after, found)) (hmem : held ∈ after.codes code) :
    held ∈ self.codes code := by
  unfold lookup at h
  split at h
  · obtain ⟨rfl, -⟩ := Prod.mk.inj h
    exact hmem
  · simp only at h
    split at h
    all_goals
      obtain ⟨rfl, -⟩ := Prod.mk.inj h
      exact List.mem_of_mem_filter hmem

variable (offered : Option String)

@[simp] theorem registerCode_routes :
    (self.registerCode now route generation offered).routes = self.routes := by
  unfold registerCode
  simp only
  split <;> rfl

@[simp] theorem registerCode_devices :
    (self.registerCode now route generation offered).devices = self.devices := by
  unfold registerCode
  simp only
  split <;> rfl

@[simp] theorem registerCode_nextGeneration :
    (self.registerCode now route generation offered).nextGeneration = self.nextGeneration := by
  unfold registerCode
  simp only
  split <;> rfl

@[simp] theorem registerCode_nextConnection :
    (self.registerCode now route generation offered).nextConnection = self.nextConnection := by
  unfold registerCode
  simp only
  split <;> rfl

theorem lookup_routes (h : self.lookup now code = (after, found)) : after.routes = self.routes := by
  obtain ⟨codes, rfl⟩ := lookup_eq now h
  rfl

theorem lookup_nextGeneration
    (h : self.lookup now code = (after, found)) : after.nextGeneration = self.nextGeneration := by
  obtain ⟨codes, rfl⟩ := lookup_eq now h
  rfl

theorem lookup_nextConnection
    (h : self.lookup now code = (after, found)) : after.nextConnection = self.nextConnection := by
  obtain ⟨codes, rfl⟩ := lookup_eq now h
  rfl

theorem lookup_devices
    (h : self.lookup now code = (after, found)) : after.devices = self.devices := by
  obtain ⟨codes, rfl⟩ := lookup_eq now h
  rfl

section Attach

variable {connection : Option ℕ} (h : self.attach generation = (after, connection))

include h

theorem attach_cases :
    after.nextConnection = self.nextConnection + 1 ∧
      (after = { self with nextConnection := self.nextConnection + 1 } ∧ connection = none ∨
        after = { self with
          nextConnection := self.nextConnection + 1
          devices := Function.update self.devices generation
            (self.devices generation ++ [self.nextConnection]) } ∧
          connection = some self.nextConnection) := by
  unfold attach at h
  simp only at h
  split at h
  · obtain ⟨rfl, rfl⟩ := Prod.mk.inj h
    exact ⟨rfl, .inl ⟨rfl, rfl⟩⟩
  · obtain ⟨rfl, rfl⟩ := Prod.mk.inj h
    exact ⟨rfl, .inr ⟨rfl, rfl⟩⟩

theorem attach_nextGeneration : after.nextGeneration = self.nextGeneration := by
  obtain ⟨-, ⟨rfl, -⟩ | ⟨rfl, -⟩⟩ := attach_cases h <;> rfl

theorem attach_nextConnection : after.nextConnection = self.nextConnection + 1 :=
  (attach_cases h).1

theorem attach_routes : after.routes = self.routes := by
  obtain ⟨-, ⟨rfl, -⟩ | ⟨rfl, -⟩⟩ := attach_cases h <;> rfl

theorem attach_codes : after.codes = self.codes := by
  obtain ⟨-, ⟨rfl, -⟩ | ⟨rfl, -⟩⟩ := attach_cases h <;> rfl

theorem mem_attach_devices {g c : ℕ} (hc : c ∈ after.devices g) :
    c ∈ self.devices g ∨ g = generation ∧ c = self.nextConnection := by
  obtain ⟨-, ⟨rfl, -⟩ | ⟨rfl, -⟩⟩ := attach_cases h
  · exact .inl hc
  · simp only [Function.update_apply] at hc
    split at hc
    · next hg =>
      rcases List.mem_append.mp hc with hc | hc
      · exact .inl (hg ▸ hc)
      · exact .inr ⟨hg, List.mem_singleton.mp hc⟩
    · exact .inl hc

theorem attach_connection {c : ℕ} (hc : connection = some c) : c = self.nextConnection := by
  obtain ⟨-, ⟨-, hnone⟩ | ⟨-, hsome⟩⟩ := attach_cases h
  · cases hnone.symm.trans hc
  · exact (Option.some.inj (hsome.symm.trans hc)).symm

end Attach

theorem mem_detach_devices {g c connection : ℕ}
    (h : c ∈ (self.detach generation connection).devices g) : c ∈ self.devices g := by
  simp only [detach, Function.update_apply] at h
  split at h
  · next hg => exact hg ▸ List.mem_of_mem_erase h
  · exact h

theorem mem_removeCodes : held ∈ (self.removeCodes route generation).codes code ↔
      held ∈ self.codes code ∧ (held.route ≠ route ∨ held.generation ≠ generation) := by
  simp [removeCodes, retainCodes]

end RelayState

open RelayState

/-! ### What a step does to the tables and to its task -/

/-- What a task's step does to the tables. The message it takes has no part in that. -/
@[simp] def Task.effect (sha256 : String → String) (now : ℕ) (relay : RelayState) : Task → RelayState
  | .arriving route secret =>
      if ensureRoute route && ensureSecret secret then
        { relay with nextGeneration := relay.nextGeneration + 1 }
      else relay
  | .claiming route secret generation => (relay.claim route (sha256 secret) generation).1
  | .replacing route _ replaced => relay.removeCodes route replaced
  | .publishing route generation offered => relay.registerCode now route generation offered
  | .dropping _ generation connection => relay.detach generation connection
  | .leaving route generation => relay.release route generation
  | .left route generation => relay.removeCodes route generation
  | .asking code => (relay.lookup now code).1
  | .attaching _ _ generation => (relay.attach generation).1
  | .detaching _ _ generation connection _ => relay.detach generation connection
  | .answered route generation => relay.removeCodes route generation
  | _ => relay

/-- What a task may turn into. -/
inductive Task.Becomes (now : ℕ) (relay : RelayState) : Task → Task → Prop
  | ends (task : Task) : Becomes now relay task .done
  | claims {route secret : String} (h : (ensureRoute route && ensureSecret secret) = true) :
      Becomes now relay (.arriving route secret) (.claiming route secret relay.nextGeneration)
  | replaces (route secret : String) (generation replaced : ℕ) :
      Becomes now relay (.claiming route secret generation) (.replacing route generation replaced)
  | registers (route secret : String) (generation : ℕ) :
      Becomes now relay (.claiming route secret generation) (.serving route generation)
  | serves {task : Task} {route : String} {generation : ℕ}
      (h : task.host? = some (route, generation)) : Becomes now relay task (.serving route generation)
  | publishes (route : String) (generation : ℕ) (offered : Option String) :
      Becomes now relay (.serving route generation) (.publishing route generation offered)
  | relays (route : String) (generation connection : ℕ) :
      Becomes now relay (.serving route generation) (.relaying route generation connection)
  | sends {route : String} {generation connection : ℕ} (h : connection ∈ relay.devices generation) :
      Becomes now relay (.relaying route generation connection) (.sending route generation connection)
  | blocks (route : String) (generation connection : ℕ) :
      Becomes now relay (.sending route generation connection) (.blocked route generation connection)
  | drops (route : String) (generation connection : ℕ) :
      Becomes now relay (.blocked route generation connection) (.dropping route generation connection)
  | leaves (route : String) (generation : ℕ) :
      Becomes now relay (.serving route generation) (.leaving route generation)
  | withdraws (route : String) (generation : ℕ) :
      Becomes now relay (.leaving route generation) (.left route generation)
  | finds {code : String} {held : CodeRoute} (h : (relay.lookup now code).2 = some held) :
      Becomes now relay (.asking code) (.found held)
  | joins {task : Task} (purpose : Purpose) (route : String) (generation : ℕ) :
      Becomes now relay task (.attaching purpose route generation)
  | attaches {purpose : Purpose} {route : String} {generation connection : ℕ}
      (h : (relay.attach generation).2 = some connection) :
      Becomes now relay (.attaching purpose route generation)
        (.attached purpose route generation connection)
  | waits {task : Task} {generation connection : ℕ} (purpose : Purpose) (route : String)
      (h : task.device? = some (connection, generation)) :
      Becomes now relay task (.waiting purpose route generation connection)
  | detaches {task : Task} {generation connection : ℕ} (purpose : Purpose) (route : String)
      (spent : Bool) (h : task.device? = some (connection, generation)) :
      Becomes now relay task (.detaching purpose route generation connection spent)
  | answers {task : Task} (route : String) (generation : ℕ) :
      Becomes now relay task (.answered route generation)

namespace Task.Becomes

variable {now : ℕ} {relay : RelayState} {task after : Task} (h : task.Becomes now relay after)

include h

theorem claim {g : ℕ} (hclaim : after.claim? = some g) :
    task.claim? = none ∧ g = relay.nextGeneration ∧
      (task.effect sha256 now relay).nextGeneration = g + 1 := by
  cases h with
  | claims hensured =>
    obtain rfl := Option.some.inj hclaim
    exact ⟨rfl, rfl, by simp [hensured]⟩
  | _ => cases hclaim

theorem host {r : String} {g : ℕ} (hhost : after.host? = some (r, g)) :
    task.host? = some (r, g) ∨ ∃ secret, task = .claiming r secret g := by
  cases h with
  | replaces route secret =>
    obtain ⟨rfl, rfl⟩ := Prod.mk.inj (Option.some.inj hhost)
    exact .inr ⟨secret, rfl⟩
  | registers route secret =>
    obtain ⟨rfl, rfl⟩ := Prod.mk.inj (Option.some.inj hhost)
    exact .inr ⟨secret, rfl⟩
  | serves hserves => exact .inl (hserves.trans hhost)
  | publishes => exact .inl hhost
  | relays => exact .inl hhost
  | sends => exact .inl hhost
  | blocks => exact .inl hhost
  | drops => exact .inl hhost
  | leaves => exact .inl hhost
  | withdraws => exact .inl hhost
  | _ => cases hhost

theorem device {c g : ℕ} (hdevice : after.device? = some (c, g)) :
    task.device? = some (c, g) ∨ task.joins? = some g ∧ c = relay.nextConnection := by
  cases h with
  | attaches hattach =>
    obtain ⟨rfl, rfl⟩ := Prod.mk.inj (Option.some.inj hdevice)
    exact .inr ⟨rfl, attach_connection Prod.mk.eta.symm hattach⟩
  | waits purpose route hheld => exact .inl (hheld.trans hdevice)
  | detaches purpose route spent hheld => exact .inl (hheld.trans hdevice)
  | _ => cases hdevice

theorem target {c g : ℕ} (htarget : after.target? = some (c, g)) :
    task.target? = some (c, g) ∨ c ∈ relay.devices g := by
  cases h with
  | sends hmem =>
    obtain ⟨rfl, rfl⟩ := Prod.mk.inj (Option.some.inj htarget)
    exact .inr hmem
  | blocks => exact .inl htarget
  | drops => exact .inl htarget
  | _ => cases htarget

theorem found {held : CodeRoute} (hfound : after = .found held) :
    ∃ code, task = .asking code ∧ (relay.lookup now code).2 = some held := by
  cases h with
  | finds hlookup =>
    obtain rfl := Task.found.inj hfound
    exact ⟨_, rfl, hlookup⟩
  | _ => cases hfound

end Task.Becomes

section Advance

variable {now : ℕ} {relay : RelayState} {task : Task} {message : Message}

theorem advance_fst :
    (advance sha256 now relay task message).1 = task.effect sha256 now relay := by
  fun_cases advance sha256 now relay task message
  all_goals simp_all [Task.effect]

theorem advance_becomes :
    task.Becomes now relay (advance sha256 now relay task message).2.1 := by
  fun_cases advance sha256 now relay task message
  all_goals try split_ifs
  all_goals first
    | exact .ends _
    | exact .serves rfl
    | exact .waits _ _ rfl
    | constructor <;> simp_all [Task.device?]

theorem advance_claim {g : ℕ} :
    (advance sha256 now relay task message).2.1.claim? = some g →
      task.claim? = none ∧ g = relay.nextGeneration ∧
        (advance sha256 now relay task message).1.nextGeneration = g + 1 := by
  rw [advance_fst]
  exact advance_becomes.claim

theorem advance_nextGeneration :
    relay.nextGeneration ≤ (advance sha256 now relay task message).1.nextGeneration := by
  rw [advance_fst]
  cases task with
  | arriving route secret =>
    simp only [Task.effect]
    split
    · exact Nat.le_succ _
    · exact le_rfl
  | claiming route secret generation => exact (claim_nextGeneration rfl).ge
  | publishing route generation offered => exact (registerCode_nextGeneration now offered).ge
  | leaving route generation => exact release_nextGeneration.ge
  | asking code =>
    rw [Task.effect]
    exact (lookup_nextGeneration now Prod.mk.eta.symm).ge
  | attaching purpose route generation => exact (attach_nextGeneration rfl).ge
  | _ => exact le_rfl

theorem advance_nextConnection :
    (advance sha256 now relay task message).1.nextConnection = relay.nextConnection +
      (if task.joins?.isSome then 1 else 0) := by
  rw [advance_fst]
  cases task with
  | arriving route secret =>
    simp only [Task.effect]
    split <;> rfl
  | claiming route secret generation => exact claim_nextConnection rfl
  | publishing route generation offered => exact registerCode_nextConnection now offered
  | leaving route generation => exact release_nextConnection
  | asking code =>
    rw [Task.effect]
    exact lookup_nextConnection now Prod.mk.eta.symm
  | attaching purpose route generation => exact attach_nextConnection rfl
  | _ => rfl

theorem advance_routes {r : String} {live : LiveRoute} :
    (advance sha256 now relay task message).1.routes[r]? = some live →
      relay.routes[r]? = some live ∨
        ∃ secret, task = .claiming r secret live.generation ∧ live.secretDigest = sha256 secret ∧
          (advance sha256 now relay task message).2.1 ≠ .done := by
  fun_cases advance sha256 now relay task message
  all_goals grind [→ claim_routes, → lookup_routes, attach_routes,
    release_routes, registerCode_routes, removeCodes, retainCodes, detach]

theorem advance_codes {code : String} {held : CodeRoute} :
    held ∈ (advance sha256 now relay task message).1.codes code →
      held ∈ relay.codes code ∧
          (∀ offered, task ≠ .publishing held.route held.generation offered) ∨
        ∃ offered, task = .publishing held.route held.generation offered ∧
          offeredCode offered = some code ∧ held.expiresAt = now + CODE_LIFETIME := by
  rw [advance_fst]
  intro hheld
  cases task with
  | arriving route secret =>
    simp only [Task.effect] at hheld
    split at hheld <;> exact .inl ⟨hheld, nofun⟩
  | claiming route secret generation =>
    rw [Task.effect, claim_codes Prod.mk.eta.symm] at hheld
    exact .inl ⟨hheld, nofun⟩
  | publishing route generation offered =>
    rcases (mem_registerCode now).mp hheld with ⟨hmem, hother, -⟩ | ⟨hoffered, rfl⟩
    · refine .inl ⟨hmem, ?_⟩
      rintro _ ⟨⟩
      exact hother.elim (fun h => h rfl) fun h => h rfl
    · exact .inr ⟨offered, rfl, hoffered, rfl⟩
  | replacing route generation replaced => exact .inl ⟨(mem_removeCodes.mp hheld).1, nofun⟩
  | left route generation => exact .inl ⟨(mem_removeCodes.mp hheld).1, nofun⟩
  | answered route generation => exact .inl ⟨(mem_removeCodes.mp hheld).1, nofun⟩
  | leaving route generation => exact .inl ⟨release_codes ▸ hheld, nofun⟩
  | asking offered =>
    rw [Task.effect] at hheld
    exact .inl ⟨mem_of_mem_lookup now Prod.mk.eta.symm hheld, nofun⟩
  | attaching purpose route generation =>
    rw [Task.effect, attach_codes Prod.mk.eta.symm] at hheld
    exact .inl ⟨hheld, nofun⟩
  | _ => exact .inl ⟨hheld, nofun⟩

theorem advance_devices {c g : ℕ} :
    c ∈ (advance sha256 now relay task message).1.devices g →
      c ∈ relay.devices g ∨
        task.joins? = some g ∧ c = relay.nextConnection := by
  rw [advance_fst]
  intro hc
  cases task with
  | arriving route secret =>
    simp only [Task.effect] at hc
    split at hc <;> exact .inl hc
  | claiming route secret generation => exact .inl (mem_claim_devices rfl hc)
  | publishing route generation offered =>
    rw [Task.effect, registerCode_devices] at hc
    exact .inl hc
  | leaving route generation => exact .inl (mem_release_devices hc)
  | asking code =>
    rw [Task.effect, lookup_devices now Prod.mk.eta.symm] at hc
    exact .inl hc
  | attaching purpose route generation =>
    rw [Task.effect] at hc
    rcases mem_attach_devices Prod.mk.eta.symm hc with hc | ⟨rfl, rfl⟩
    · exact .inl hc
    · exact .inr ⟨rfl, rfl⟩
  | dropping route generation connection => exact .inl (mem_detach_devices hc)
  | detaching purpose route generation connection spent => exact .inl (mem_detach_devices hc)
  | _ => exact .inl hc

theorem advance_resolved {r : String} {g : ℕ} :
    .resolved r g ∈ (advance sha256 now relay task message).2.2 →
      relay.registered r g ∧ ∃ held, task = .found held ∧ held.route = r ∧ held.generation = g := by
  fun_cases advance sha256 now relay task message
  all_goals simp_all

theorem advance_delivered {c g : ℕ} :
    .delivered c g ∈ (advance sha256 now relay task message).2.2 →
      task.target? = some (c, g) := by
  fun_cases advance sha256 now relay task message
  all_goals simp_all [Task.target?]

end Advance

/-! ### Whom a connector's step leaves alone -/

/-- What a generation has in the tables is as it was, but for codes that have expired. -/
structure RelayState.Undisturbed (now generation : ℕ) (before after : RelayState) : Prop where
  routes : ∀ (route : String) (live : LiveRoute), live.generation = generation →
    (after.routes[route]? = some live ↔ before.routes[route]? = some live)
  codes : ∀ code, ((after.codes code).filter fun held =>
      held.generation = generation ∧ now < held.expiresAt) =
    (before.codes code).filter fun held => held.generation = generation ∧ now < held.expiresAt
  devices : after.devices generation = before.devices generation

namespace RelayState

variable {self : RelayState} {now generation other : ℕ}

theorem Undisturbed.refl : self.Undisturbed now generation self :=
  ⟨fun _ _ _ => Iff.rfl, fun _ => rfl, rfl⟩

theorem release_undisturbed (route : String) (h : other ≠ generation) :
    self.Undisturbed now other (self.release route generation) := by
  unfold release
  split
  · next hregistered =>
    obtain ⟨held, hheld, hgeneration⟩ := registered_iff.mp hregistered
    refine ⟨fun r live hlive => ?_, fun _ => rfl, Function.update_of_ne h _ _⟩
    rw [ExtTreeMap.getElem?_erase]
    split
    · next heq =>
      -- The route was of the generation that gives it up.
      obtain rfl : route = r := LawfulEqCmp.eq_of_compare heq
      rw [hheld]
      constructor
      · rintro ⟨⟩
      · rintro hsame
        obtain rfl := Option.some.inj hsame
        exact absurd (hlive.symm.trans hgeneration) h
    · exact Iff.rfl
  · exact .refl

theorem retainCodes_undisturbed {keep : CodeRoute → Bool}
    (h : ∀ held, held.generation = generation → now < held.expiresAt → keep held = true) :
    self.Undisturbed now generation (self.retainCodes keep) where
  routes _ _ _ := Iff.rfl
  devices := rfl
  codes code := by
    rw [retainCodes, List.filter_filter]
    refine List.filter_congr fun held _ => ?_
    by_cases hlasts : held.generation = generation ∧ now < held.expiresAt
    · simp [hlasts, h held hlasts.1 hlasts.2]
    · simp [hlasts]

theorem Undisturbed.trans {s t u : RelayState} (hst : s.Undisturbed now generation t)
    (htu : t.Undisturbed now generation u) : s.Undisturbed now generation u where
  routes route live hlive := (htu.routes route live hlive).trans (hst.routes route live hlive)
  codes code := (htu.codes code).trans (hst.codes code)
  devices := htu.devices.trans hst.devices

theorem removeCodes_undisturbed (route : String) (h : other ≠ generation) :
    self.Undisturbed now other (self.removeCodes route generation) :=
  retainCodes_undisturbed fun held hheld _ => by simp [hheld, h]

theorem registerCode_undisturbed (route : String) (offered : Option String)
    (h : other ≠ generation) :
    self.Undisturbed now other (self.registerCode now route generation offered) := by
  have hrest : self.Undisturbed now other
      ((self.retainCodes fun held => now < held.expiresAt).removeCodes route generation) :=
    (retainCodes_undisturbed fun held _ hlasts => decide_eq_true hlasts).trans
      (removeCodes_undisturbed route h)
  unfold registerCode
  simp only
  cases offeredCode offered with
  | none => exact hrest
  | some code =>
    refine ⟨hrest.routes, fun other' => ?_, hrest.devices⟩
    rw [← hrest.codes other']
    by_cases hcode : other' = code
    · subst hcode
      simp [List.filter_append, Ne.symm h]
    · simp [hcode]

theorem detach_undisturbed (connection : ℕ) (h : other ≠ generation) :
    self.Undisturbed now other (self.detach generation connection) where
  routes _ _ _ := Iff.rfl
  codes _ := rfl
  devices := Function.update_of_ne h _ _

end RelayState

/-- **A step for one generation leaves every other alone.** -/
theorem advance_undisturbed {now : ℕ} {relay : RelayState} {task : Task} {message : Message}
    {generation other : ℕ} (h : other ≠ generation) :
    task.actsFor? = some generation →
      relay.Undisturbed now other (advance sha256 now relay task message).1 := by
  rw [advance_fst]
  cases task
  all_goals simp only [Task.actsFor?, Task.host?, Option.map_none, Option.map_some, reduceCtorEq,
    false_imp_iff, Option.some.injEq]
  all_goals rintro rfl
  all_goals first
    | exact .refl
    | exact release_undisturbed _ h
    | exact removeCodes_undisturbed _ h
    | exact registerCode_undisturbed _ _ h
    | exact detach_undisturbed _ h

end Bridge

end SuperHerdr
