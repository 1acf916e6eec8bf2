import SuperHerdr.Pairing.Safety

/-!
# Credentials and their holders

A decision is to leave no device behind that nobody holds the token of, and no attempt without a
device for the sake of a name. `Lawful` says both of one step: where a decision is reported as
refused, no device was recorded for its attempt; and an attempt that is approved in time, with its
browser waiting to the end, is recorded under a name of its own.

Both can fail. The device is recorded before its browser is told, and a browser that leaves in
between leaves it behind. The name is chosen when the code is presented, when it is free
(`uniqueDeviceName_free`), but nothing keeps it free until the approval, and another attempt may
have it by then. A decision that comes a second time reports an attempt as refused that was
approved. `Clear` says when none of this happens, and `decisions_lawful_iff` that decisions are
lawful exactly then. A name that is taken meanwhile costs the approval, and is never given twice
(`recorded_names_apart`).
-/

namespace SuperHerdr

open Std Transducer

/-! ### Names -/

theorem numberedName_injective (base : String) : Function.Injective (numberedName base) := by
  intro i j h
  have hrepr : i.repr = j.repr := by
    simpa [numberedName, toString] using h
  have hdigits := congrArg String.toList hrepr
  rw [Nat.toList_repr, Nat.toList_repr] at hdigits
  rw [← Nat.ofDigitChars_ten_toDigits (n := i), hdigits, Nat.ofDigitChars_ten_toDigits]

/-- **The name that is chosen is free**: the numbered ones that are tried are more than there are
devices. -/
theorem uniqueDeviceName_free (offered : String) (existing : List Device) :
    uniqueDeviceName offered existing ∉ existing.map Device.name := by
  unfold uniqueDeviceName
  simp only
  split
  · next hfree => exact hfree
  · generalize hcandidates : (List.range (existing.length + 1)).map
      (fun k => numberedName (deviceName offered) (k + 2)) = candidates
    cases hfound : candidates.find? fun candidate =>
        candidate ∉ existing.map Device.name with
    | some candidate => simpa using List.find?_some hfound
    | none =>
      -- were all of them taken, there would be more names than devices
      have hsubset : candidates ⊆ existing.map Device.name := by
        intro candidate hmem
        simpa using List.find?_eq_none.mp hfound candidate hmem
      have hnodup : candidates.Nodup := by
        rw [← hcandidates]
        refine List.Nodup.map (fun i j h => ?_) List.nodup_range
        exact Nat.add_right_cancel (numberedName_injective _ h)
      have hlength := (List.subperm_of_subset hnodup hsubset).length_le
      rw [← hcandidates, List.length_map, List.length_range, List.length_map] at hlength
      omega

namespace Pairing

section Tokens

variable (fingerprint : String → String) (tokens codes : ℕ → Except String String)

/-! ### Names that are recorded -/

/-- Two devices of one name are one device, or both of a given list. -/
def Named (devices : List Device) (s : Pairing) : Prop :=
  ∀ device ∈ s.devices, ∀ other ∈ s.devices, device.name = other.name →
    device = other ∨ device ∈ devices ∧ other ∈ devices

theorem Named.of_subset {devices : List Device} {s s' : Pairing} (h : s.Named devices)
    (hsubset : ∀ device ∈ s'.devices, device ∈ s.devices) : s'.Named devices :=
  fun device hdevice other hother => h device (hsubset device hdevice) other (hsubset other hother)

/-- A step records a device under a name that none has, if it records one. -/
theorem Named.step {devices : List Device} {s : Pairing} (h : s.Named devices) (move : Move) :
    (step fingerprint tokens codes s move).1.Named devices := by
  rcases recorded_step fingerprint tokens codes s move with
    ⟨-, hsubset⟩ | ⟨attempt, deciding, -, -, rfl, -, -⟩
  · exact h.of_subset hsubset
  have hdecides := decides_decidePairing fingerprint tokens s deciding attempt true
  change (s.decidePairing fingerprint tokens deciding attempt true).1.Named devices
  generalize (s.decidePairing fingerprint tokens deciding attempt true).1 = s',
    (s.decidePairing fingerprint tokens deciding attempt true).2 = answers at hdecides ⊢
  cases hdecides with
  | refused s' message told hname hquiet htold => exact h.of_subset hquiet.devices
  | recorded name token message told happroves haccessible hname htoken htold =>
    intro device hdevice other hother heq
    -- a new device against one that was there: its name was looked up before it was written
    rcases List.mem_append.mp hdevice with hdevice | hdevice <;>
      rcases List.mem_append.mp hother with hother | hother
    · exact h device hdevice other hother heq
    · obtain rfl := List.mem_singleton.mp hother
      exact absurd (List.mem_map.mpr ⟨device, hdevice, heq⟩) hname
    · obtain rfl := List.mem_singleton.mp hdevice
      exact absurd (List.mem_map.mpr ⟨other, hother, heq.symm⟩) hname
    · exact .inl ((List.mem_singleton.mp hdevice).trans (List.mem_singleton.mp hother).symm)

/-- **A name stands for one device**: whatever is presented, approved and revoked, in any order, no two
devices have one name but those that had it in the file to begin with. -/
theorem recorded_names_apart (configured : Bool) (webUrl : Option String) (devices : List Device)
    (moves : List Move) : (exec (step fingerprint tokens codes)
      (new configured webUrl devices) moves).1.Named devices :=
  exec_invariant (fun _ move h => h.step fingerprint tokens codes move)
    (fun _ hdevice _ hother _ => .inr ⟨hdevice, hother⟩) moves

/-! ### Decisions -/

/-- **A decision keeps its promises**: one that is reported as refused recorded no device, now or
before; and an attempt that is approved in time, with its browser waiting to the end and a
configuration that can be written, is recorded under a name that no other device has. -/
def Lawful (s : Pairing) (move : Move) : Prop :=
  let after := step fingerprint tokens codes s move
  match move with
  | .decidePairing attempt approve deciding =>
      ((∃ message, pairingDecided attempt false message ∈ after.2) →
        attempt ∉ after.1.recorded) ∧
      ∀ name, s.Approves attempt approve name → deciding.stays = true →
        s.Accessible tokens deciding →
        attempt ∈ after.1.recorded ∧ ∃ device, after.1.devices = s.devices ++ [device] ∧
          device.name ∉ s.devices.map Device.name
  | _ => True

/-- **Nothing comes between**: no device was recorded for the attempt before, and where it is
approved in time and can be recorded, its browser stays to the end and its name is free (or
neither). -/
def Clear (s : Pairing) (move : Move) : Prop :=
  match move with
  | .decidePairing attempt approve deciding =>
      attempt ∉ s.recorded ∧
      ∀ name, s.Approves attempt approve name → s.Accessible tokens deciding →
        (deciding.stays = true ↔ name ∉ s.devices.map Device.name)
  | _ => True

theorem Approves.unique {s : Pairing} {attempt name name' : String} {approve : Bool}
    (h : s.Approves attempt approve name) (h' : s.Approves attempt approve name') :
    name = name' := by
  obtain ⟨-, approval, hentry, -, -, rfl⟩ := h
  obtain ⟨-, approval', hentry', -, -, rfl⟩ := h'
  rw [hentry] at hentry'
  cases hentry'
  rfl

theorem Told.not_decided {attempt message : String} {told : List Answer} {approved : Bool}
    (h : Told attempt told) : pairingDecided attempt approved message ∉ told := by
  intro hmem
  obtain ⟨token, htold⟩ := h _ hmem
  cases htold

theorem Told.decided {attempt message message' : String} {told : List Answer}
    {approved approved' : Bool} (h : Told attempt told)
    (hmem : pairingDecided attempt approved message ∈
      told ++ [pairingDecided attempt approved' message']) : approved = approved' := by
  rcases List.mem_append.mp hmem with hmem | hmem
  · exact absurd hmem h.not_decided
  · have hsame := List.mem_singleton.mp hmem
    unfold pairingDecided at hsame
    cases hsame
    rfl

variable {tokens} in
/-- **Exactness of one decision.** -/
theorem lawful_iff_clear {s : Pairing} (hdistinct : s.Distinct tokens) (move : Move) :
    Lawful fingerprint tokens codes s move ↔ Clear tokens s move := by
  cases move with
  | decidePairing attempt approve deciding =>
    simp only [Lawful, Clear, step]
    have hdecides := decides_decidePairing fingerprint tokens s deciding attempt approve
    generalize (s.decidePairing fingerprint tokens deciding attempt approve).1 = s',
      (s.decidePairing fingerprint tokens deciding attempt approve).2 = answers at hdecides
    cases hdecides with
    | refused s' message told hname hquiet htold =>
      -- refused although it could be recorded: then its name is taken
      have hreported : ∃ message', pairingDecided attempt false message' ∈
          told ++ [pairingDecided attempt false message] :=
        ⟨message, List.mem_append_right _ (List.mem_singleton.mpr rfl)⟩
      constructor
      · rintro ⟨hunrecorded, hkept⟩
        refine ⟨hquiet.recorded ▸ hunrecorded hreported, fun name happroves haccessible => ?_⟩
        refine ⟨fun hstays => ?_, fun hfree => absurd (hname name happroves haccessible) hfree⟩
        have hrecorded := (hkept name happroves hstays haccessible).1
        exact absurd hrecorded (hunrecorded hreported)
      · rintro ⟨hunrecorded, hclear⟩
        refine ⟨fun _ => hquiet.recorded ▸ hunrecorded, ?_⟩
        intro name happroves hstays haccessible
        have hfree := (hclear name happroves haccessible).mp hstays
        exact absurd (hname name happroves haccessible) hfree
    | recorded name token message told happroves haccessible hname htoken htold =>
      have hnew : attempt ∈ (s.withDevice fingerprint attempt name token).recorded :=
        List.mem_append_right _ (List.mem_singleton.mpr rfl)
      -- an attempt that is still up for approval has no device yet
      have hunrecorded : attempt ∉ s.recorded :=
        fun hmem => hdistinct.apart attempt happroves.mem (List.mem_append_right _ hmem)
      constructor
      · rintro ⟨hreported, -⟩
        refine ⟨hunrecorded, fun name' happroves' _ => ?_⟩
        rw [← happroves.unique happroves']
        refine ⟨fun _ => hname, fun _ => ?_⟩
        -- a browser that left would be reported as refused
        by_contra hleft
        rw [Bool.eq_false_iff.mpr hleft] at hreported
        exact hreported ⟨message, List.mem_append_right _ (List.mem_singleton.mpr rfl)⟩ hnew
      · rintro ⟨-, hclear⟩
        refine ⟨?_, fun _ _ _ _ => ⟨hnew, _, rfl, hname⟩⟩
        rintro ⟨message', hmem⟩
        have hstays := (hclear name happroves haccessible).mpr hname
        have hleft := htold.decided hmem
        rw [hstays] at hleft
        cases hleft
  | _ => exact Iff.rfl

/-- **Decisions are lawful along a run exactly when nothing comes between**, in any of them. -/
theorem decisions_lawful_iff
    (htokens : ∀ i j token, tokens i = .ok token → tokens j = .ok token → i = j)
    (configured : Bool) (webUrl : Option String) (devices : List Device) (moves : List Move) :
    AllSteps (step fingerprint tokens codes) (Lawful fingerprint tokens codes)
        (new configured webUrl devices) moves ↔
      AllSteps (step fingerprint tokens codes) (Clear tokens)
        (new configured webUrl devices) moves := by
  have hkeep : ∀ (s : Pairing) (move : Move), s.Distinct tokens →
      (step fingerprint tokens codes s move).1.Distinct tokens :=
    fun s move h => h.step fingerprint codes htokens move
  have hstart := Distinct.new tokens configured webUrl devices
  constructor
  · exact allSteps_of_allSteps (I := fun s => s.Distinct tokens) (fun s move h _ => hkeep s move h)
      (fun s move h hlawful => (lawful_iff_clear fingerprint codes h move).mp hlawful) hstart
  · exact allSteps_of_allSteps (I := fun s => s.Distinct tokens) (fun s move h _ => hkeep s move h)
      (fun s move h hclear => (lawful_iff_clear fingerprint codes h move).mpr hclear) hstart

end Tokens

/-! ### One phone, two phones, and one that leaves -/

theorem decisions_lawful_phone :
    AllSteps (step id unaryToken fixedCode) (Clear unaryToken) (new true none [])
        (asking "phone" ++ [.decidePairing "" true untroubled]) ∧
      AllSteps (step id unaryToken fixedCode) (Lawful id unaryToken fixedCode) (new true none [])
        (asking "phone" ++ [.decidePairing "" true untroubled]) := by
  have hclear : AllSteps (step id unaryToken fixedCode) (Clear unaryToken) (new true none [])
      (asking "phone" ++ [.decidePairing "" true untroubled]) := by
    refine ⟨trivial, trivial, trivial, trivial, ⟨by decide, fun name _ _ => ?_⟩, trivial⟩
    exact ⟨fun _ => List.not_mem_nil, fun _ => rfl⟩
  exact ⟨hclear, (decisions_lawful_iff id unaryToken fixedCode unaryToken_injective true none []
    _).mpr hclear⟩

/-- Two phones that offer one name: the second is refused for it. A phone whose browser leaves
while it is approved: its device stays. -/
theorem name_taken_and_holder_gone :
    ¬AllSteps (step id unaryToken fixedCode) (Lawful id unaryToken fixedCode) (new true none [])
        (asking "phone" ++ asking "phone" ++
          [.decidePairing "" true untroubled, .decidePairing "t" true untroubled]) ∧
      ¬AllSteps (step id unaryToken fixedCode) (Lawful id unaryToken fixedCode) (new true none [])
        (asking "phone" ++ [.decidePairing "" true { untroubled with stays := false }]) := by
  constructor
  · intro h
    have hlast : Lawful id unaryToken fixedCode
        (exec (step id unaryToken fixedCode) (new true none [])
          (asking "phone" ++ asking "phone" ++ [.decidePairing "" true untroubled])).1
        (.decidePairing "t" true untroubled) := by
      rw [List.append_cons] at h
      exact h.of_append
    have hkept := (hlast.2 "phone" ⟨rfl, ⟨"phone", 60000⟩, by decide, by decide, by decide, rfl⟩
      rfl ⟨rfl, rfl, rfl, rfl⟩).1
    revert hkept
    decide
  · intro h
    have hlast := h.of_append
    exact hlast.1 ⟨"the browser left before approval completed", List.mem_singleton.mpr rfl⟩
      (by decide)

end Pairing

end SuperHerdr
