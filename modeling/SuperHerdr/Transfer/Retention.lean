import SuperHerdr.Transfer.Transfers

/-!
# How many transfers are kept

An entry is given up in one way, `forgetRetained`, and only when no attempt is running for it.
Sweeping and evicting do nothing else, so what forgetting an idle entry keeps, they keep
(`sweepRetained_rule`, `evictRetained_rule`).

Eviction makes room before each new transfer, and gives up where every entry has an attempt
running. Entries that were let in that way become idle later, when their attempts are
interrupted, and then there are too many of them. As long as no transfer begins while
`MAX_RETAINED_TRANSFERS` are in flight, the map never holds more than that many.
-/

namespace SuperHerdr

open Std Transducer

namespace Transfers

variable {s : Transfers}

/-! ### Giving up entries -/

theorem forgetRetained_getElem? (s : Transfers) (transfer other : String) :
    (s.forgetRetained transfer).retained[other]? =
      if transfer = other then none else s.retained[other]? := by
  unfold Transfers.forgetRetained
  cases hentry : s.retained[transfer]? with
  | none =>
    by_cases hsame : transfer = other
    · rw [if_pos hsame, ← hsame, hentry]
    · rw [if_neg hsame]
  | some retained =>
    have herased : (s.retained.erase transfer)[other]? =
        if transfer = other then none else s.retained[other]? := by
      rw [ExtTreeMap.getElem?_erase]
      simp
    simp only
    split <;> exact herased

/-- **The rule for giving up entries**: what forgetting an idle entry keeps, forgetting a list of
them keeps. -/
theorem foldl_forgetRetained {P : Transfers → Prop}
    (hP : ∀ {s : Transfers} {transfer}, P s → (∀ retained : Retained,
      s.retained[transfer]? = some retained → retained.inFlight = false) →
      P (s.forgetRetained transfer))
    (hs : P s) {transfers : List String} (hidle : ∀ transfer ∈ transfers, ∀ retained : Retained,
      s.retained[transfer]? = some retained → retained.inFlight = false) :
    P (transfers.foldl Transfers.forgetRetained s) := by
  induction transfers generalizing s with
  | nil => exact hs
  | cons transfer rest ih =>
    refine ih (hP hs (hidle transfer (by simp))) ?_
    intro other hother retained hretained
    rw [forgetRetained_getElem?] at hretained
    split at hretained
    · cases hretained
    · exact hidle other (by simp [hother]) retained hretained

variable {transfer : String}

theorem mem_idle {retained : Retained} : (transfer, retained) ∈ s.idle ↔
      s.retained[transfer]? = some retained ∧ retained.inFlight = false := by
  rw [idle, List.mem_filter, ExtTreeMap.mem_toList_iff_getElem?_eq_some]
  simp

theorem inFlight_of_idle {entry : String × Retained} (h : entry ∈ s.idle) {retained : Retained}
    (hretained : s.retained[entry.1]? = some retained) : retained.inFlight = false := by
  obtain ⟨hentry, hidle⟩ := mem_idle.mp h
  rw [hentry] at hretained
  cases hretained
  exact hidle

theorem sweepRetained_rule {P : Transfers → Prop}
    (hP : ∀ {s : Transfers} {transfer}, P s → (∀ retained : Retained,
      s.retained[transfer]? = some retained → retained.inFlight = false) →
      P (s.forgetRetained transfer)) (hs : P s) : P s.sweepRetained := by
  refine foldl_forgetRetained hP hs ?_
  intro transfer hmem retained hretained
  obtain ⟨entry, hentry, rfl⟩ := List.mem_map.mp hmem
  exact inFlight_of_idle (List.mem_of_mem_filter hentry) hretained

/-- What forgetting an idle entry keeps, evicting keeps. -/
theorem evictRetained_rule {P : Transfers → Prop}
    (hP : ∀ {s : Transfers} {transfer}, P s → (∀ retained : Retained,
      s.retained[transfer]? = some retained → retained.inFlight = false) →
      P (s.forgetRetained transfer)) (hs : P s) : P s.evictRetained := by
  have hwithin : ∀ rounds s, P s → P (evictWithin rounds s) := by
    intro rounds
    induction rounds with
    | zero => exact fun s hs => hs
    | succ rounds ih =>
      intro s hs
      rw [evictWithin]
      split
      · split
        · exact hs
        · next transfer holdest =>
          obtain ⟨entry, hentry, rfl⟩ := Option.map_eq_some_iff.mp holdest
          have hmem := List.argmin_mem hentry
          exact ih _ (hP hs fun retained => inFlight_of_idle hmem)
      · exact hs
  exact hwithin _ s hs

/-! ### Counting -/

/-- How many transfers have an attempt running. -/
def carrying (s : Transfers) : ℕ :=
  (s.retained.filter fun _ retained => retained.inFlight).size

/-- How many interrupted transfers are kept for resumption. -/
def waiting (s : Transfers) : ℕ :=
  (s.retained.filter fun _ retained => !retained.inFlight).size

theorem waiting_le (s : Transfers) : s.waiting ≤ s.retained.size :=
  ExtTreeMap.size_filter_le_size

theorem carrying_of_idle_eq_nil (h : s.idle = []) : s.carrying = s.retained.size := by
  have hall : (s.retained.filter fun _ retained => retained.inFlight) = s.retained := by
    refine ExtTreeMap.ext_getElem? fun transfer => ?_
    rw [ExtTreeMap.getElem?_filter']
    cases hentry : s.retained[transfer]? with
    | none => rfl
    | some retained =>
      cases hflight : retained.inFlight with
      | true => simp [hflight]
      | false =>
        have hmem := mem_idle.mpr ⟨hentry, hflight⟩
        rw [h] at hmem
        cases hmem
  rw [carrying, hall]

theorem carrying_forgetRetained (hidle : ∀ retained : Retained,
    s.retained[transfer]? = some retained → retained.inFlight = false) :
    (s.forgetRetained transfer).carrying = s.carrying := by
  have hsame : ((s.forgetRetained transfer).retained.filter fun _ retained =>
      retained.inFlight) = s.retained.filter fun _ retained => retained.inFlight := by
    refine ExtTreeMap.ext_getElem? fun other => ?_
    rw [ExtTreeMap.getElem?_filter', ExtTreeMap.getElem?_filter', forgetRetained_getElem?]
    split
    · next heq =>
      subst heq
      cases hentry : s.retained[transfer]? with
      | none => rfl
      | some retained => simp [Option.filter, hidle retained hentry]
    · rfl
  rw [carrying, hsame, carrying]

theorem size_forgetRetained {retained : Retained} (hentry : s.retained[transfer]? = some retained) :
    (s.forgetRetained transfer).retained.size = s.retained.size - 1 := by
  have herased : (s.retained.erase transfer).size = s.retained.size - 1 := by
    rw [ExtTreeMap.size_erase, if_pos]
    rw [ExtTreeMap.contains_eq_isSome_getElem?, hentry]
    rfl
  unfold Transfers.forgetRetained
  rw [hentry]
  simp only
  split <;> exact herased

theorem size_forgetRetained_le (s : Transfers) (transfer : String) :
    (s.forgetRetained transfer).retained.size ≤ s.retained.size := by
  cases hentry : s.retained[transfer]? with
  | none =>
    unfold Transfers.forgetRetained
    rw [hentry]
  | some retained =>
    rw [size_forgetRetained hentry]
    omega

/-- **Eviction makes room, or finds every transfer in flight.** -/
theorem size_evictRetained (s : Transfers) :
    s.evictRetained.retained.size < MAX_RETAINED_TRANSFERS ∨ s.evictRetained.idle = [] := by
  -- each round forgets an entry, so there are rounds enough for all of them
  have hwithin : ∀ rounds (s : Transfers), s.retained.size ≤ rounds →
      (evictWithin rounds s).retained.size < MAX_RETAINED_TRANSFERS ∨
        (evictWithin rounds s).idle = [] := by
    intro rounds
    induction rounds with
    | zero =>
      intro s hs
      left
      rw [evictWithin, MAX_RETAINED_TRANSFERS]
      omega
    | succ rounds ih =>
      intro s hs
      rw [evictWithin]
      split
      · split
        · next holdest =>
          right
          rwa [oldest, Option.map_eq_none_iff, List.argmin_eq_none] at holdest
        · next transfer holdest =>
          obtain ⟨entry, hentry, rfl⟩ := Option.map_eq_some_iff.mp holdest
          have hretained := (mem_idle.mp (List.argmin_mem hentry)).1
          refine ih _ ?_
          rw [size_forgetRetained hretained]
          omega
      · next hroom => exact .inl (by omega)
  exact hwithin _ s le_rfl

theorem size_sweepRetained (s : Transfers) : s.sweepRetained.retained.size ≤ s.retained.size :=
  sweepRetained_rule (P := fun s' => s'.retained.size ≤ s.retained.size)
    (fun hs _ => (size_forgetRetained_le _ _).trans hs) le_rfl

theorem size_insert_of_some {before : Retained}
    (hentry : s.retained[transfer]? = some before) (retained : Retained) :
    (s.retained.insert transfer retained).size = s.retained.size := by
  rw [ExtTreeMap.size_insert, if_pos]
  rw [ExtTreeMap.contains_eq_isSome_getElem?, hentry]
  rfl

/-! ### Runs -/

section Runs

variable (sha256 : List UInt8 → String) (tokens : ℕ → Option String) (directories : ℕ → String)

/-- A transfer is let in: its queue was handed over, its length is within the limit, its target
is configured and a token could be drawn. -/
def Begins (s : Transfers) : Move → Prop
  | .beginUpload client request pane _ _ length =>
      (client, request) ∈ s.offers ∧ length ≤ s.ceiling ∧
        (s.targets pane.targetSession).isSome ∧ (tokens s.drawn).isSome
  | _ => False

/-- **What beginning a transfer can do**: refuse it, having at most dropped its offer and drawn a
token, or let it in. -/
theorem beginRelay_cases (s : Transfers) (client : ClientId) (request : ℕ) (pane : PaneId)
    (mime : String) (name : Option String) (length : ℕ) :
    (∃ offers drawn message, s.drawn ≤ drawn ∧
      s.beginRelay tokens client request pane mime name length =
        ({ s with offers, drawn }, s.refuse client request message)) ∨
    ∃ offers transfer target,
      s.Begins tokens (.beginUpload client request pane mime name length) ∧
      tokens s.drawn = some transfer ∧
      s.beginRelay tokens client request pane mime name length =
        (({ s with offers, drawn := s.drawn + 1 } : Transfers).letIn client request transfer
          pane target mime name length, s.tell client (.uploadAccepted request transfer 0)) := by
  unfold beginRelay
  split
  · exact .inl ⟨s.offers, s.drawn, _, le_rfl, rfl⟩
  · next hoffer =>
    simp only
    split
    · exact .inl ⟨_, s.drawn, _, le_rfl, rfl⟩
    · next hlength =>
      split
      · exact .inl ⟨_, s.drawn, _, le_rfl, rfl⟩
      · next target htarget =>
        split
        · exact .inl ⟨_, s.drawn + 1, _, Nat.le_succ _, rfl⟩
        · next transfer htoken =>
          refine .inr ⟨_, transfer, target, ⟨not_not.mp hoffer, Nat.not_lt.mp hlength, ?_, ?_⟩,
            htoken, rfl⟩
          · exact htarget ▸ rfl
          · exact htoken ▸ rfl

/-- **What resuming a transfer can do**: refuse it, having at most dropped its offer and swept,
or start an attempt for an idle entry of the same pane and length. -/
theorem resumeRelay_cases (s : Transfers) (client : ClientId) (request : ℕ) (transfer : String)
    (pane : PaneId) (length : ℕ) :
    (∃ message, s.resumeRelay client request transfer pane length =
      (s, s.refuse client request message)) ∨
    ∃ offers, let swept := ({ s with offers } : Transfers).sweepRetained
      (∃ message, s.resumeRelay client request transfer pane length =
        (swept, swept.refuse client request message)) ∨
      ∃ retained target, swept.retained[transfer]? = some retained ∧
        retained.inFlight = false ∧ retained.pane = pane ∧ retained.length = length ∧
        s.resumeRelay client request transfer pane length =
          (swept.takeUp client request transfer pane target length retained, []) := by
  unfold resumeRelay
  split
  · exact .inl ⟨_, rfl⟩
  · refine .inr ⟨s.offers.filter fun offer => offer ≠ (client, request), ?_⟩
    simp only
    split
    · exact .inl ⟨_, rfl⟩
    · next retained hretained =>
      split
      · exact .inl ⟨_, rfl⟩
      · next hidle =>
        split
        · exact .inl ⟨_, rfl⟩
        · next hsame =>
          simp only [ne_eq, not_or, not_not] at hsame
          split
          · exact .inl ⟨_, rfl⟩
          · next target htarget =>
            exact .inr ⟨retained, target, hretained, Bool.eq_false_iff.mpr hidle, hsame.1,
              hsame.2, rfl⟩

/-- Beginning a transfer adds an entry where there is room for one. -/
theorem size_beginRelay {client : ClientId} {request : ℕ} {pane : PaneId} {mime : String}
    {name : Option String} {length : ℕ} (hs : s.retained.size ≤ MAX_RETAINED_TRANSFERS)
    (hroom : s.Begins tokens (.beginUpload client request pane mime name length) →
      s.carrying < MAX_RETAINED_TRANSFERS) :
    (s.beginRelay tokens client request pane mime name length).1.retained.size ≤
      MAX_RETAINED_TRANSFERS := by
  rcases beginRelay_cases tokens s client request pane mime name length with
    ⟨offers, drawn, message, -, heq⟩ | ⟨offers, transfer, target, hbegins, -, heq⟩
  · rw [heq]
    exact hs
  · rw [heq]
    generalize hbefore : ({ s with offers, drawn := s.drawn + 1 } : Transfers) = before
    -- what is given up to make room is idle, so as many as before are in flight
    have hkeep : ∀ {s' : Transfers} {transfer}, s'.carrying = s.carrying →
        (∀ retained : Retained, s'.retained[transfer]? = some retained →
          retained.inFlight = false) → (s'.forgetRetained transfer).carrying = s.carrying :=
      fun hs' hidle => (carrying_forgetRetained hidle).trans hs'
    have hcarrying : before.sweepRetained.evictRetained.carrying = s.carrying := by
      refine evictRetained_rule (P := fun s' => s'.carrying = s.carrying) hkeep ?_
      refine sweepRetained_rule (P := fun s' => s'.carrying = s.carrying) hkeep ?_
      rw [← hbefore]
      rfl
    have hless : before.sweepRetained.evictRetained.retained.size < MAX_RETAINED_TRANSFERS := by
      rcases size_evictRetained before.sweepRetained with hless | hnone
      · exact hless
      · rw [← carrying_of_idle_eq_nil hnone, hcarrying]
        exact hroom hbegins
    exact ExtTreeMap.size_insert_le.trans hless

theorem size_handle_le (s : Transfers) (reply : Reply) :
    (s.handle reply).1.retained.size ≤ s.retained.size := by
  cases reply with
  | resumeOffset client request transfer staged =>
    rw [handle, resumeOffset]
    cases hentry : s.retained[transfer]? with
    | none => exact le_rfl
    | some retained => exact (size_insert_of_some hentry _).le
  | relayFinished client request transfer outcome =>
    rw [handle]
    cases outcome with
    | done path bytes => exact ExtTreeMap.size_erase_le
    | refused message => exact ExtTreeMap.size_erase_le
    | withdrawn => exact ExtTreeMap.size_erase_le
    | interrupted path staged =>
      rw [relayFinished]
      cases hentry : s.retained[transfer]? with
      | none => exact le_rfl
      | some retained => exact (size_insert_of_some hentry _).le

/-- **What asking a host can lead to**: an attempt that goes on where the file ends, or a fresh
one, for which a path that was kept is given up. -/
theorem probe_cases (s : Transfers) (carried : Carried) (answers : Bool) :
    (∃ path, carried.path = some path ∧ 0 < s.stagedBytes carried.target path answers ∧
      s.probe carried answers = (s, ⟨carried.media,
        .resume path (s.stagedBytes carried.target path answers), carried.length⟩)) ∨
    (∃ path, carried.path = some path ∧
      s.probe carried answers = (s.discardUpload carried.target path,
        ⟨carried.media, .fresh carried.name, carried.length⟩)) ∨
    carried.path = none ∧
      s.probe carried answers = (s, ⟨carried.media, .fresh carried.name, carried.length⟩) := by
  unfold probe
  cases hpath : carried.path with
  | none => exact .inr (.inr ⟨rfl, rfl⟩)
  | some path =>
    by_cases hsome : s.stagedBytes carried.target path answers > 0
    · exact .inl ⟨path, rfl, hsome, if_pos hsome⟩
    · exact .inr (.inl ⟨path, rfl, if_neg hsome⟩)

/-- No other step adds an entry. -/
theorem size_step_le {move : Move} (hnot : ∀ client request pane mime name length,
    move ≠ .beginUpload client request pane mime name length) :
    (s.step sha256 tokens directories move).1.retained.size ≤ s.retained.size := by
  cases move with
  | beginUpload client request pane mime name length =>
    exact absurd rfl (hnot client request pane mime name length)
  | resumeUpload client request transfer pane length =>
    rw [step]
    rcases resumeRelay_cases s client request transfer pane length with
      ⟨message, heq⟩ | ⟨offers, ⟨message, heq⟩ | ⟨retained, target, hretained, -, -, -, heq⟩⟩
    · rw [heq]
    · rw [heq]
      exact size_sweepRetained _
    · rw [heq]
      refine Nat.le_trans ?_ (size_sweepRetained { s with offers })
      exact (size_insert_of_some hretained _).le
  | next =>
    rw [step]
    split
    · exact le_rfl
    · exact size_handle_le _ _
  | refreshDue => exact size_sweepRetained s
  | probed i answers =>
    rw [step, Transfers.probed]
    split
    · exact le_rfl
    · next carried _ =>
      split
      · exact le_rfl
      · rcases probe_cases s carried answers with ⟨_, -, -, heq⟩ | ⟨_, -, heq⟩ | ⟨-, heq⟩
        · rw [heq]
        · rw [heq]
          exact le_rfl
        · rw [heq]
  | relayed i host items timely =>
    rw [step, Transfers.relayed]
    split
    · exact le_rfl
    · split <;> exact le_rfl
  | removed i =>
    rw [step]
    split <;> exact le_rfl
  | lost target path =>
    rw [step]
    split <;> exact le_rfl
  | connected client => exact le_rfl
  | disconnected client => exact le_rfl
  | uploadOffered client request => exact le_rfl
  | offerDropped client request => exact le_rfl
  | elapsed seconds => exact le_rfl
  | reconfigured ceiling targets => exact le_rfl

/-- **The retention bound.** In a run in which no transfer is let in while
`MAX_RETAINED_TRANSFERS` others are in flight, no more than that many are ever kept. -/
theorem retention_bound (ceiling : ℕ) (targets : TargetSession → Option Target)
    (moves : List Move)
    (hroom : AllSteps (step sha256 tokens directories)
      (fun s move => s.Begins tokens move → s.carrying < MAX_RETAINED_TRANSFERS)
      (new ceiling targets) moves) :
    AllStates (step sha256 tokens directories) (fun s => s.waiting ≤ MAX_RETAINED_TRANSFERS)
      (new ceiling targets) moves := by
  -- the bound that steps preserve is on all entries: one in flight may come to wait
  have hsize : AllStates (step sha256 tokens directories)
      (fun s => s.retained.size ≤ MAX_RETAINED_TRANSFERS) (new ceiling targets) moves := by
    have hnew : (new ceiling targets).retained.size ≤ MAX_RETAINED_TRANSFERS := Nat.zero_le _
    refine allStates_of_allSteps (I := fun _ => True)
      (P := fun s : Transfers => s.retained.size ≤ MAX_RETAINED_TRANSFERS)
      (fun _ _ _ => trivial) ?_ trivial hnew hroom
    intro s move _ hs hmove
    by_cases hbegin : ∃ client request pane mime name length,
        move = .beginUpload client request pane mime name length
    · obtain ⟨client, request, pane, mime, name, length, rfl⟩ := hbegin
      exact size_beginRelay tokens hs hmove
    · refine (size_step_le sha256 tokens directories ?_).trans hs
      intro client request pane mime name length heq
      exact hbegin ⟨client, request, pane, mime, name, length, heq⟩
  exact hsize.imp fun s hs => s.waiting_le.trans hs

end Runs

/-! ### One transfer, and five at once -/

/-- Tokens drawn in order. -/
def countedTokens (i : ℕ) : Option String := some (toString i)

def countedDirectories (i : ℕ) : String := "/tmp/super-herdr-clipboard." ++ toString i

/-- A disk that takes what it is given. -/
def plainDisk : Host :=
  .here ⟨some "", true, 1, true, [], 1, true⟩

/-- One client offers and begins a transfer of one byte. -/
def begun (request : ℕ) : List Move :=
  [.uploadOffered 0 request, .beginUpload 0 request ⟨"t", "s", "p"⟩ "" none 1]

instance (tokens : ℕ → Option String) (s : Transfers) : (move : Move) →
    Decidable (s.Begins tokens move)
  | .beginUpload .. => inferInstanceAs (Decidable (_ ∧ _))
  | .connected .. | .disconnected .. | .uploadOffered .. | .offerDropped ..
  | .resumeUpload .. | .probed .. | .relayed .. | .next | .refreshDue | .elapsed ..
  | .reconfigured .. | .removed .. | .lost .. => isFalse id

/-- One transfer that is begun and interrupted is kept. -/
theorem retention_bound_one :
    AllSteps (step (fun _ => "") countedTokens countedDirectories)
      (fun s move => s.Begins countedTokens move → s.carrying < MAX_RETAINED_TRANSFERS)
      (new 8 fun _ => some ⟨none⟩) (begun 0 ++ [.relayed 0 plainDisk [] true, .next]) ∧
    AllStates (step (fun _ => "") countedTokens countedDirectories)
      (fun s => s.waiting ≤ MAX_RETAINED_TRANSFERS)
      (new 8 fun _ => some ⟨none⟩) (begun 0 ++ [.relayed 0 plainDisk [] true, .next]) :=
  ⟨by decide, retention_bound _ _ _ _ _ _ (by decide)⟩

/-- Five transfers begun together and then interrupted are all kept. -/
theorem five_interrupted_kept :
    ¬AllStates (step (fun _ => "") countedTokens countedDirectories)
      (fun s => s.waiting ≤ MAX_RETAINED_TRANSFERS) (new 8 fun _ => some ⟨none⟩)
      ((List.range 5).flatMap begun ++ List.replicate 5 (.relayed 0 plainDisk [] true) ++
        List.replicate 5 .next) := by
  intro h
  have hlast := h.last
  revert hlast
  decide +kernel

end Transfers

end SuperHerdr
