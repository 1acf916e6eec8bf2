import SuperHerdr.Attention.Marks

/-!
# What becomes of a mark

A request sets the mark of one agent, and a store that is full forgets the mark that was touched the
longest ago. Between marks touched at one time the agents decide, and the new mark is among them: in a
store full of marks of its own millisecond it is the one forgotten, if its agent comes first.
`mark_is_held_iff` says that nothing else takes a mark away.
-/

namespace SuperHerdr

open Std

namespace AgentMarks

/-! ### The mark that is forgotten -/

/-- One entry was touched before another, or at one time and for an agent that comes first. -/
def Before (left right : AgentId × Marked) : Prop :=
  left.2.touchedMs < right.2.touchedMs ∨
    left.2.touchedMs = right.2.touchedMs ∧ compare left.1 right.1 = .lt

instance (left right : AgentId × Marked) : Decidable (Before left right) :=
  inferInstanceAs (Decidable (_ ∨ _))

/-- The order in which marks are forgotten. -/
def forgetting : AgentId × Marked → AgentId × Marked → Ordering :=
  compareLex (compareOn fun entry => entry.2.touchedMs) (compareOn fun entry => entry.1)

instance : TransCmp forgetting :=
  inferInstanceAs (TransCmp (compareLex (compareOn fun entry : AgentId × Marked => entry.2.touchedMs)
    (compareOn fun entry => entry.1)))

theorem before_iff (left right : AgentId × Marked) :
    Before left right ↔ forgetting left right = .lt := by
  rw [forgetting, compareLex, Ordering.then_eq_lt, compareOn, compareOn, Nat.compare_eq_lt,
    Nat.compare_eq_eq]
  rfl

theorem not_before_iff (left right : AgentId × Marked) :
    ¬Before left right ↔ (forgetting right left).isLE := by
  rw [before_iff]
  refine ⟨fun h => ?_, OrientedCmp.not_lt_of_isLE⟩
  by_contra hle
  exact h (OrientedCmp.lt_of_not_isLE hle)

/-- Nothing that was gone over comes before what is left. -/
theorem foldl_earlier (first : AgentId × Marked) (rest : List (AgentId × Marked)) :
    ∃ best ∈ first :: rest,
      rest.foldl (fun best entry => if Before entry best then entry else best) first = best ∧
        ∀ entry ∈ first :: rest, (forgetting best entry).isLE := by
  induction rest generalizing first with
  | nil =>
    refine ⟨first, List.mem_singleton_self _, rfl, fun entry hentry => ?_⟩
    rw [List.mem_singleton.mp hentry]
    exact ReflCmp.isLE_rfl
  | cons second rest ih =>
    obtain ⟨best, hmem, hfold, hleast⟩ := ih (if Before second first then second else first)
    have hhead := hleast _ List.mem_cons_self
    refine ⟨best, ?_, hfold, fun entry hentry => ?_⟩
    · rcases List.mem_cons.mp hmem with rfl | hmem
      · split <;> simp
      · exact List.mem_cons_of_mem _ (List.mem_cons_of_mem _ hmem)
    · rcases List.mem_cons.mp hentry with rfl | hentry
      · split at hhead
        · next hbefore =>
          exact TransCmp.isLE_trans hhead (Ordering.isLE_of_eq_lt ((before_iff ..).mp hbefore))
        · exact hhead
      · rcases List.mem_cons.mp hentry with rfl | hentry
        · split at hhead
          · exact hhead
          · next hbefore => exact TransCmp.isLE_trans hhead ((not_before_iff ..).mp hbefore)
        · exact hleast entry (List.mem_cons_of_mem _ hentry)

variable {self : AgentMarks}

/-- The mark that is forgotten first is one of those held, and none comes before it. -/
theorem oldest_spec (h : 0 < self.marks.size) :
    ∃ agent marked, self.oldest = some agent ∧ self.marks[agent]? = some marked ∧
      ∀ other held, self.marks[other]? = some held →
        (forgetting (agent, marked) (other, held)).isLE := by
  rw [oldest]
  rcases hlist : self.marks.toList with _ | ⟨first, rest⟩
  · rw [← ExtTreeMap.length_toList, hlist] at h
    simp at h
  · obtain ⟨⟨agent, marked⟩, hmem, hfold, hleast⟩ := foldl_earlier first rest
    refine ⟨agent, marked, ?_, ?_, fun other held hheld => ?_⟩
    · exact congrArg (fun best : AgentId × Marked => some best.1) hfold
    · rw [← hlist] at hmem
      exact ExtTreeMap.mem_toList_iff_getElem?_eq_some.mp hmem
    · rw [← ExtTreeMap.mem_toList_iff_getElem?_eq_some, hlist] at hheld
      exact hleast _ hheld

theorem enforceCap_of_le (h : self.marks.size ≤ MAX_MARKED_AGENTS) : self.enforceCap = self := by
  rw [enforceCap, Nat.sub_eq_zero_of_le h]
  rfl

variable {agent : AgentId}

theorem enforceCap_of_succ (h : self.marks.size = MAX_MARKED_AGENTS + 1)
    (hold : self.oldest = some agent) :
    self.enforceCap = ⟨self.marks.erase agent⟩ := by
  rw [enforceCap, h, Nat.add_sub_cancel_left, List.replicate_one, List.foldl_cons, List.foldl_nil,
    hold]

/-! ### A mark is made -/

/-- No more marks than there may be, and none that says nothing. -/
structure Kept (store : AgentMarks) : Prop where
  bounded : store.marks.size ≤ MAX_MARKED_AGENTS
  meaningful : ∀ (agent : AgentId) (held : Marked), store.marks[agent]? = some held →
    held.state ≠ .default

/-- What a request is to do: its agent has the state asked for, at most one other is forgotten, for
want of room and as the one touched longest ago, and the flag says whether a state changed. -/
structure Held (store : AgentMarks) (agent : AgentId) (request : AgentMarkRequest) (nowMs : ℕ) :
    Prop where
  applied : (store.apply agent request nowMs).1.state agent =
    request.applyTo (store.state agent) nowMs
  others : ∃ forgotten : Option AgentId,
    (∀ other ≠ agent, other ∉ forgotten →
      (store.apply agent request nowMs).1.marks[other]? = store.marks[other]?) ∧
    ∀ other ∈ forgotten, other ≠ agent ∧ store.marks.size = MAX_MARKED_AGENTS ∧
      (store.apply agent request nowMs).1.marks[other]? = none ∧
      ∃ held : Marked, store.marks[other]? = some held ∧
        ∀ (another : AgentId) (kept : Marked), store.marks[another]? = some kept →
          held.touchedMs ≤ kept.touchedMs
  kept : (store.apply agent request nowMs).1.Kept
  flagged : (store.apply agent request nowMs).2 = true ↔
    ∃ other, (store.apply agent request nowMs).1.state other ≠ store.state other

/-- A store that is full of marks made at this time, for agents that come after this one. -/
def Crowded (self : AgentMarks) (agent : AgentId) (nowMs : ℕ) : Prop :=
  self.marks.size = MAX_MARKED_AGENTS ∧
    ∀ (other : AgentId) (held : Marked), self.marks[other]? = some held →
      held.touchedMs = nowMs ∧ compare agent other = .lt

theorem state_of_getElem? {held : Marked}
    (h : self.marks[agent]? = some held) : self.state agent = held.state := by
  rw [state, h]
  rfl

theorem state_of_none (h : self.marks[agent]? = none) : self.state agent = .default := by
  rw [state, h]
  rfl

theorem apply_of_marked {request : AgentMarkRequest} {nowMs : ℕ}
    (hchanged : request.applyTo (self.state agent) nowMs ≠ self.state agent)
    (hmarked : request.applyTo (self.state agent) nowMs ≠ .default) :
    self.apply agent request nowMs =
      (enforceCap ⟨self.marks.insert agent ⟨request.applyTo (self.state agent) nowMs, nowMs⟩⟩,
        true) := by
  rw [apply]
  rw [if_neg hchanged, if_neg hmarked]

theorem not_compare_self_lt (agent : AgentId) : compare agent agent ≠ .lt := by
  have hself : compare agent agent = .eq := ReflCmp.compare_self
  rw [hself]
  decide

theorem touchedMs_le_of_isLE {left right : AgentId × Marked}
    (h : (forgetting left right).isLE) : left.2.touchedMs ≤ right.2.touchedMs := by
  have hbefore := (not_before_iff right left).mpr h
  exact Nat.not_lt.mp fun hlt => hbefore (.inl hlt)

section

variable {self : AgentMarks} {agent : AgentId} {request : AgentMarkRequest} {nowMs : ℕ}

theorem apply_of_unchanged
    (h : request.applyTo (self.state agent) nowMs = self.state agent) :
    self.apply agent request nowMs = (self, false) := by
  rw [apply]
  rw [if_pos h]

theorem apply_of_cleared (hchanged : request.applyTo (self.state agent) nowMs ≠ self.state agent)
    (hclear : request.applyTo (self.state agent) nowMs = .default) :
    self.apply agent request nowMs = (⟨self.marks.erase agent⟩, true) := by
  rw [apply]
  rw [if_neg hchanged, if_pos hclear]

theorem Kept.erase (h : self.Kept) (other : AgentId) : Kept ⟨self.marks.erase other⟩ where
  bounded := Nat.le_trans ExtTreeMap.size_erase_le h.bounded
  meaningful agent held hheld := by
    rw [ExtTreeMap.getElem?_erase] at hheld
    split at hheld
    · cases hheld
    · exact h.meaningful agent held hheld

theorem held_of_unchanged (hkept : self.Kept)
    (h : request.applyTo (self.state agent) nowMs = self.state agent) :
    Held self agent request nowMs := by
  have happly := apply_of_unchanged h
  constructor
  · rw [happly, h]
  · rw [happly]
    exact ⟨none, fun other _ _ => rfl, by simp⟩
  · rw [happly]
    exact hkept
  · simp [happly]

theorem held_of_cleared (hkept : self.Kept)
    (hchanged : request.applyTo (self.state agent) nowMs ≠ self.state agent)
    (hclear : request.applyTo (self.state agent) nowMs = .default) :
    Held self agent request nowMs := by
  have happly := apply_of_cleared hchanged hclear
  have hstate : state ⟨self.marks.erase agent⟩ agent = .default :=
    state_of_none (by simp)
  constructor
  · rw [happly, hclear, hstate]
  · rw [happly]
    refine ⟨none, fun other hother _ => ?_, by simp⟩
    rw [ExtTreeMap.getElem?_erase, if_neg fun heq => hother (LawfulEqCmp.eq_of_compare heq).symm]
  · rw [happly]
    exact hkept.erase agent
  · rw [happly]
    refine iff_of_true rfl ⟨agent, ?_⟩
    rw [hstate, ← hclear]
    exact hchanged

/-- The store with the mark in it. -/
def marking (self : AgentMarks) (agent : AgentId) (request : AgentMarkRequest) (nowMs : ℕ) :
    AgentMarks :=
  ⟨self.marks.insert agent ⟨request.applyTo (self.state agent) nowMs, nowMs⟩⟩

theorem getElem?_marking_of_ne {other : AgentId} (h : other ≠ agent) :
    (self.marking agent request nowMs).marks[other]? = self.marks[other]? := by
  rw [marking, ExtTreeMap.getElem?_insert,
    if_neg fun heq => h (LawfulEqCmp.eq_of_compare heq).symm]

theorem getElem?_marking_self :
    (self.marking agent request nowMs).marks[agent]? =
      some ⟨request.applyTo (self.state agent) nowMs, nowMs⟩ :=
  ExtTreeMap.getElem?_insert_self

theorem meaningful_marking (hkept : self.Kept)
    (hmarked : request.applyTo (self.state agent) nowMs ≠ .default) {other : AgentId} {held : Marked}
    (hheld : (self.marking agent request nowMs).marks[other]? = some held) :
    held.state ≠ .default := by
  by_cases hother : other = agent
  · rw [hother, getElem?_marking_self] at hheld
    obtain rfl := Option.some.inj hheld
    exact hmarked
  · rw [getElem?_marking_of_ne hother] at hheld
    exact hkept.meaningful other held hheld

/-- With one mark too many, one is forgotten. -/
theorem kept_of_forgotten (hkept : self.Kept)
    (hmarked : request.applyTo (self.state agent) nowMs ≠ .default)
    (hsize : (self.marking agent request nowMs).marks.size = MAX_MARKED_AGENTS + 1) {other : AgentId}
    {held : Marked} (hheld : (self.marking agent request nowMs).marks[other]? = some held) :
    Kept ⟨(self.marking agent request nowMs).marks.erase other⟩ := by
  refine ⟨?_, fun another kept hkept' => ?_⟩
  · have hmem : (self.marking agent request nowMs).marks.contains other := by
      rw [ExtTreeMap.contains_iff_mem, ExtTreeMap.mem_iff_isSome_getElem?, hheld]
      rfl
    rw [ExtTreeMap.size_erase, if_pos hmem, hsize]
    exact Nat.le_refl _
  · rw [ExtTreeMap.getElem?_erase] at hkept'
    split at hkept'
    · cases hkept'
    · exact meaningful_marking hkept hmarked hkept'

theorem held_of_room (hkept : self.Kept)
    (hchanged : request.applyTo (self.state agent) nowMs ≠ self.state agent)
    (hmarked : request.applyTo (self.state agent) nowMs ≠ .default)
    (hroom : (self.marking agent request nowMs).marks.size ≤ MAX_MARKED_AGENTS) :
    Held self agent request nowMs := by
  have happly : self.apply agent request nowMs = (self.marking agent request nowMs, true) := by
    rw [apply_of_marked hchanged hmarked]
    exact congrArg (·, true) (enforceCap_of_le hroom)
  have hstate : (self.marking agent request nowMs).state agent =
      request.applyTo (self.state agent) nowMs := state_of_getElem? getElem?_marking_self
  constructor
  · rw [happly, hstate]
  · rw [happly]
    exact ⟨none, fun other hother _ => getElem?_marking_of_ne hother, by simp⟩
  · rw [happly]
    exact ⟨hroom, fun _ _ => meaningful_marking hkept hmarked⟩
  · rw [happly]
    refine iff_of_true rfl ⟨agent, ?_⟩
    rw [hstate]
    exact hchanged

theorem marking_of_full
    (hroom : MAX_MARKED_AGENTS < (self.marking agent request nowMs).marks.size) (hkept : self.Kept) :
    self.marks[agent]? = none ∧ self.marks.size = MAX_MARKED_AGENTS ∧
      (self.marking agent request nowMs).marks.size = MAX_MARKED_AGENTS + 1 := by
  have hbounded := hkept.bounded
  rw [marking, ExtTreeMap.size_insert] at hroom ⊢
  split at hroom
  · omega
  · next hnew =>
    refine ⟨ExtTreeMap.getElem?_eq_none hnew, by omega, ?_⟩
    rw [if_neg hnew]
    omega

theorem not_held_of_forgotten
    (hchanged : request.applyTo (self.state agent) nowMs ≠ self.state agent)
    (hmarked : request.applyTo (self.state agent) nowMs ≠ .default)
    (hfull : (self.marking agent request nowMs).marks.size = MAX_MARKED_AGENTS + 1)
    (hold : (self.marking agent request nowMs).oldest = some agent) :
    ¬Held self agent request nowMs := by
  intro h
  have happlied := h.applied
  rw [apply_of_marked hchanged hmarked] at happlied
  have hforgotten := enforceCap_of_succ hfull hold
  rw [marking] at hforgotten
  rw [hforgotten, state_of_none (by simp)] at happlied
  exact hmarked happlied.symm

theorem held_of_forgotten (hkept : self.Kept)
    (hchanged : request.applyTo (self.state agent) nowMs ≠ self.state agent)
    (hmarked : request.applyTo (self.state agent) nowMs ≠ .default)
    (hroom : MAX_MARKED_AGENTS < (self.marking agent request nowMs).marks.size)
    {other : AgentId} {held : Marked} (hother : other ≠ agent)
    (hold : (self.marking agent request nowMs).oldest = some other)
    (hheld : self.marks[other]? = some held)
    (hleast : ∀ (another : AgentId) (kept : Marked), self.marks[another]? = some kept →
      held.touchedMs ≤ kept.touchedMs) :
    Held self agent request nowMs := by
  obtain ⟨-, hfull, hsize⟩ := marking_of_full hroom hkept
  have happly : self.apply agent request nowMs =
      (⟨(self.marking agent request nowMs).marks.erase other⟩, true) := by
    rw [apply_of_marked hchanged hmarked]
    exact congrArg (·, true) (enforceCap_of_succ hsize hold)
  have hget : ∀ another ≠ other,
      ((self.marking agent request nowMs).marks.erase other)[another]? =
        (self.marking agent request nowMs).marks[another]? := by
    intro another hne
    rw [ExtTreeMap.getElem?_erase, if_neg fun heq => hne (LawfulEqCmp.eq_of_compare heq).symm]
  have hstate : state ⟨(self.marking agent request nowMs).marks.erase other⟩ agent =
      request.applyTo (self.state agent) nowMs :=
    state_of_getElem? ((hget agent hother.symm).trans getElem?_marking_self)
  constructor
  · rw [happly, hstate]
  · rw [happly]
    refine ⟨some other, fun another hanother hne => ?_, fun another hanother => ?_⟩
    · rw [hget another fun heq => hne (Option.mem_some_iff.mpr heq.symm),
        getElem?_marking_of_ne hanother]
    · obtain rfl := Option.mem_some_iff.mp hanother
      exact ⟨hother, hfull, by simp, held, hheld, hleast⟩
  · rw [happly]
    exact kept_of_forgotten hkept hmarked hsize ((getElem?_marking_of_ne hother).trans hheld)
  · rw [happly]
    refine iff_of_true rfl ⟨agent, ?_⟩
    rw [hstate]
    exact hchanged

/-- The new mark is forgotten at once if the store is full of marks of its own time, for agents that come
after its own. -/
theorem crowded_iff (hfull : self.marks.size = MAX_MARKED_AGENTS)
    (hnew : self.marks[agent]? = none)
    (hnow : ∀ (other : AgentId) (held : Marked), self.marks[other]? = some held →
      held.touchedMs ≤ nowMs) :
    (self.marking agent request nowMs).oldest = some agent ↔ self.Crowded agent nowMs := by
  have hsize : 0 < (self.marking agent request nowMs).marks.size := by
    have hle := ExtTreeMap.size_le_size_insert
      (t := self.marks) (k := agent) (v := ⟨request.applyTo (self.state agent) nowMs, nowMs⟩)
    exact Nat.lt_of_lt_of_le (hfull ▸ by decide) hle
  obtain ⟨oldest, first, hold, hfirst, hleast⟩ := oldest_spec hsize
  rw [hold, Option.some.injEq]
  constructor
  · rintro rfl
    refine ⟨hfull, fun other held hheld => ?_⟩
    have hne : other ≠ oldest := by
      rintro rfl
      rw [hnew] at hheld
      cases hheld
    rw [getElem?_marking_self] at hfirst
    obtain rfl := Option.some.inj hfirst
    have hle := hleast other held ((getElem?_marking_of_ne hne).trans hheld)
    have htouched : held.touchedMs = nowMs :=
      Nat.le_antisymm (hnow other held hheld) (touchedMs_le_of_isLE hle)
    refine ⟨htouched, ?_⟩
    have hbefore := (not_before_iff _ _).mpr hle
    refine OrientedCmp.lt_of_not_isLE fun hisLE => hbefore (.inr ⟨htouched, ?_⟩)
    exact (Ordering.isLE_iff_eq_lt_or_eq_eq.mp hisLE).resolve_right fun heq =>
      hne (LawfulEqCmp.eq_of_compare heq)
  · rintro ⟨-, hcrowd⟩
    by_contra hne
    rw [getElem?_marking_of_ne hne] at hfirst
    obtain ⟨htouched, hlt⟩ := hcrowd oldest first hfirst
    have hle := hleast agent _ getElem?_marking_self
    exact (not_before_iff _ _).mpr hle (.inr ⟨htouched.symm, hlt⟩)

/-- **A mark that was applied is held**, unless the store is full of marks of its own time, for agents
that come after its own. -/
theorem mark_is_held_iff (hkept : self.Kept)
    (hnow : ∀ (other : AgentId) (held : Marked), self.marks[other]? = some held →
      held.touchedMs ≤ nowMs) :
    Held self agent request nowMs ↔
      (self.Crowded agent nowMs → request.applyTo (self.state agent) nowMs = .default) := by
  by_cases hchanged : request.applyTo (self.state agent) nowMs = self.state agent
  · refine iff_of_true (held_of_unchanged hkept hchanged) fun ⟨_, hcrowd⟩ => ?_
    rw [hchanged]
    -- the agent would come before itself
    refine state_of_none (Option.eq_none_iff_forall_ne_some.mpr fun held hheld => ?_)
    exact not_compare_self_lt agent (hcrowd agent held hheld).2
  by_cases hmarked : request.applyTo (self.state agent) nowMs = .default
  · exact iff_of_true (held_of_cleared hkept hchanged hmarked) fun _ => hmarked
  by_cases hroom : (self.marking agent request nowMs).marks.size ≤ MAX_MARKED_AGENTS
  · refine iff_of_true (held_of_room hkept hchanged hmarked hroom) fun ⟨hfull, hcrowd⟩ => ?_
    -- in a full store there is room for an agent only that has a mark
    have hmem : agent ∈ self.marks := by
      by_contra hnew
      rw [marking, ExtTreeMap.size_insert, if_neg (by simpa using hnew)] at hroom
      omega
    obtain ⟨held, hheld⟩ := ExtTreeMap.mem_iff_isSome_getElem?.mp hmem |> Option.isSome_iff_exists.mp
    exact absurd (hcrowd agent held hheld).2 (not_compare_self_lt agent)
  · have hroom' := Nat.not_le.mp hroom
    obtain ⟨hnew, hfull, hsize⟩ := marking_of_full hroom' hkept
    have hcrowded : (self.marking agent request nowMs).oldest = some agent ↔
        self.Crowded agent nowMs := crowded_iff hfull hnew hnow
    by_cases hold : (self.marking agent request nowMs).oldest = some agent
    · refine iff_of_false (not_held_of_forgotten hchanged hmarked hsize hold) fun himp => ?_
      exact hmarked (himp (hcrowded.mp hold))
    · have hpos : 0 < (self.marking agent request nowMs).marks.size := by omega
      obtain ⟨oldest, first, holdest, hfirst, hleast⟩ := oldest_spec hpos
      have hne : oldest ≠ agent := fun heq => hold (heq ▸ holdest)
      rw [getElem?_marking_of_ne hne] at hfirst
      refine iff_of_true ?_ fun hcrowd => absurd (hcrowded.mpr hcrowd) hold
      refine held_of_forgotten hkept hchanged hmarked hroom' hne holdest hfirst ?_
      intro another kept hanother
      have hother : another ≠ agent := by
        rintro rfl
        rw [hnew] at hanother
        cases hanother
      exact touchedMs_le_of_isLE (hleast another kept ((getElem?_marking_of_ne hother).trans hanother))

end

/-- A mark made in an empty store. -/
theorem mark_is_held_empty : Held default ⟨"desk", "main", "pane"⟩ (.pin true) 0 := by
  have hkept : Kept default := ⟨by decide, fun agent held hheld => by simp [default] at hheld⟩
  refine (mark_is_held_iff hkept fun other held hheld => by simp [default] at hheld).mpr fun h => ?_
  exact absurd h.1 (by decide)

/-! ### A crowd -/

def crowdAgent (position : ℕ) : AgentId := ⟨"desk", "main", String.ofList (List.replicate position 'p')⟩

/-- Marks of so many agents, all made at one time. -/
def crowd : ℕ → AgentMarks
  | 0 => default
  | count + 1 => ⟨(crowd count).marks.insert (crowdAgent count) ⟨⟨true, false, none, .default⟩, 0⟩⟩

theorem crowdAgent_injective : Function.Injective crowdAgent := by
  intro position other h
  have hresource := congrArg (List.length ∘ String.toList ∘ QualifiedId.resource) h
  simpa [crowdAgent] using hresource

theorem of_getElem?_crowd {count : ℕ} {held : Marked}
    (h : (crowd count).marks[agent]? = some held) :
    held = ⟨⟨true, false, none, .default⟩, 0⟩ ∧ ∃ position < count, agent = crowdAgent position := by
  induction count with
  | zero => simp [crowd, default] at h
  | succ count ih =>
    rw [crowd, ExtTreeMap.getElem?_insert] at h
    split at h
    · next heq =>
      exact ⟨(Option.some.inj h).symm, count, Nat.lt_succ_self _, (LawfulEqCmp.eq_of_compare heq).symm⟩
    · obtain ⟨hheld, position, hlt, hagent⟩ := ih h
      exact ⟨hheld, position, Nat.lt_succ_of_lt hlt, hagent⟩

theorem size_crowd (count : ℕ) : (crowd count).marks.size = count := by
  induction count with
  | zero => rfl
  | succ count ih =>
    have hnew : crowdAgent count ∉ (crowd count).marks := by
      intro hmem
      obtain ⟨held, hheld⟩ := Option.isSome_iff_exists.mp (ExtTreeMap.mem_iff_isSome_getElem?.mp hmem)
      obtain ⟨-, position, hlt, heq⟩ := of_getElem?_crowd hheld
      exact absurd (crowdAgent_injective heq) (by omega)
    rw [crowd, ExtTreeMap.size_insert, if_neg (by simpa using hnew), ih]

theorem kept_crowd : (crowd MAX_MARKED_AGENTS).Kept where
  bounded := Nat.le_of_eq (size_crowd _)
  meaningful agent held hheld := by
    rw [(of_getElem?_crowd hheld).1]
    decide

/-- A new agent, ahead of the crowd. -/
def newcomer : AgentId := ⟨"attic", "main", "pane"⟩

theorem crowded_crowd : (crowd MAX_MARKED_AGENTS).Crowded newcomer 0 := by
  refine ⟨size_crowd _, fun other held hheld => ?_⟩
  obtain ⟨rfl, position, -, rfl⟩ := of_getElem?_crowd hheld
  have htarget : compare "attic" "desk" = .lt := by decide
  exact ⟨rfl, Ordering.then_eq_lt.mpr (.inl htarget)⟩

/-- In a store full of marks of the same millisecond a mark is forgotten as it is made, and reported. -/
theorem newest_mark_is_forgotten :
    (crowd MAX_MARKED_AGENTS).Kept ∧
      (∀ (other : AgentId) (held : Marked),
        (crowd MAX_MARKED_AGENTS).marks[other]? = some held → held.touchedMs ≤ 0) ∧
      ¬Held (crowd MAX_MARKED_AGENTS) newcomer (.pin true) 0 := by
  have hnow : ∀ (other : AgentId) (held : Marked),
      (crowd MAX_MARKED_AGENTS).marks[other]? = some held → held.touchedMs ≤ 0 := by
    intro other held hheld
    exact Nat.le_of_eq (congrArg Marked.touchedMs (of_getElem?_crowd hheld).1)
  have hnew : (crowd MAX_MARKED_AGENTS).marks[newcomer]? = none := by
    refine Option.eq_none_iff_forall_ne_some.mpr fun held hheld => ?_
    obtain ⟨-, position, -, heq⟩ := of_getElem?_crowd hheld
    exact absurd (congrArg QualifiedId.target heq) (by decide : "attic" ≠ "desk")
  have hstate := state_of_none hnew
  have hsize : ((crowd MAX_MARKED_AGENTS).marking newcomer (.pin true) 0).marks.size =
      MAX_MARKED_AGENTS + 1 := by
    have habsent : newcomer ∉ (crowd MAX_MARKED_AGENTS).marks := by
      rw [ExtTreeMap.mem_iff_isSome_getElem?, hnew]
      decide
    rw [marking, ExtTreeMap.size_insert, if_neg (by simpa using habsent), size_crowd]
  refine ⟨kept_crowd, hnow, not_held_of_forgotten ?_ ?_ hsize ?_⟩
  · rw [hstate]
    decide
  · rw [hstate]
    decide
  · exact (crowded_iff (size_crowd _) hnew hnow).mpr crowded_crowd

end AgentMarks

end SuperHerdr
