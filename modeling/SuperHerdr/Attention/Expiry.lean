import SuperHerdr.Attention.Marks

/-!
# Snoozes that have run out

The daemon drops the snoozes that have run out, agent by agent, and forgets the agents that nothing else
is said of; `expireLoop` is that loop, and `expireLoop_fst` says that it does to every mark what
`AgentMarks.expire` does. Whether an agent is quiet is asked of the deadline itself, so that nothing but
the store tells whether a snooze that has run out was dropped: `expiring_is_unobservable`.
-/

namespace SuperHerdr

open Std

namespace Marked

/-- Whether a snooze has run out. -/
def expiredAt (marked : Marked) (nowMs : ℕ) : Bool :=
  marked.state.snoozedUntilMs.any fun deadline => deadline ≤ nowMs

/-- A mark without its snooze, if there is anything left of it. -/
def unsnoozed (marked : Marked) : Option Marked :=
  let state := { marked.state with snoozedUntilMs := none }
  if state = .default then none else some { marked with state }

theorem unsnoozed_unsnoozed {marked left : Marked} (h : marked.unsnoozed = some left) :
    left.unsnoozed = some left := by
  rw [unsnoozed] at h
  split at h
  · cases h
  · next hleft =>
    obtain rfl := Option.some.inj h
    rw [unsnoozed, if_neg hleft]

end Marked

namespace AgentMarks

/-! ### The loop -/

/-- The agents whose snoozes have run out. -/
def expired (self : AgentMarks) (nowMs : ℕ) : List AgentId :=
  (self.marks.toList.filter fun entry => entry.2.expiredAt nowMs).map Prod.fst

/-- Drop the snooze of one agent. -/
def unsnooze (self : AgentMarks) (agent : AgentId) : AgentMarks :=
  match self.marks[agent]? with
  | none => self
  | some marked =>
      match marked.unsnoozed with
      | none => ⟨self.marks.erase agent⟩
      | some marked => ⟨self.marks.insert agent marked⟩

/-- Drop the snoozes that have run out. The flag says whether anything changed. -/
def expireLoop (self : AgentMarks) (nowMs : ℕ) : AgentMarks × Bool :=
  let expired := self.expired nowMs
  if expired.isEmpty then (self, false) else (expired.foldl unsnooze self, true)

theorem mem_expired {self : AgentMarks} {agent : AgentId} {nowMs : ℕ} :
    agent ∈ self.expired nowMs ↔
      ∃ marked, self.marks[agent]? = some marked ∧ marked.expiredAt nowMs := by
  simp only [expired, List.mem_map, List.mem_filter, Prod.exists, exists_and_right, exists_eq_right,
    ExtTreeMap.mem_toList_iff_getElem?_eq_some]

variable (self : AgentMarks)

theorem getElem?_unsnooze (other agent : AgentId) : (self.unsnooze other).marks[agent]? =
      if agent = other then self.marks[agent]?.bind Marked.unsnoozed else self.marks[agent]? := by
  by_cases h : agent = other
  · subst h
    rw [if_pos rfl, unsnooze]
    rcases hget : self.marks[agent]? with _ | marked
    · simp [hget]
    · rcases hleft : marked.unsnoozed with _ | left
      · simp [hleft]
      · simp [hleft]
  · have hne : ¬compare other agent = .eq := fun heq => h (LawfulEqCmp.eq_of_compare heq).symm
    rw [if_neg h, unsnooze]
    split
    · rfl
    · split
      · rw [ExtTreeMap.getElem?_erase, if_neg hne]
      · rw [ExtTreeMap.getElem?_insert, if_neg hne]

theorem getElem?_foldl_unsnooze (agents : List AgentId) (agent : AgentId) :
    (agents.foldl unsnooze self).marks[agent]? =
      if agent ∈ agents then self.marks[agent]?.bind Marked.unsnoozed else self.marks[agent]? := by
  induction agents generalizing self with
  | nil => simp
  | cons other agents ih =>
    rw [List.foldl_cons, ih, getElem?_unsnooze]
    by_cases h : agent = other
    · -- an agent that came twice would have nothing more to lose
      subst h
      rw [if_pos rfl, if_pos List.mem_cons_self]
      split
      · rcases self.marks[agent]? with _ | marked
        · rfl
        · rcases hleft : marked.unsnoozed with _ | left
          · simp [hleft]
          · simp [hleft, Marked.unsnoozed_unsnoozed hleft]
      · rfl
    · simp [h]

theorem getElem?_expire (nowMs : ℕ) (agent : AgentId) : (self.expire nowMs).marks[agent]? =
      self.marks[agent]?.bind fun marked =>
        if marked.expiredAt nowMs then marked.unsnoozed else some marked :=
  ExtTreeMap.getElem?_filterMap'

/-- **The loop** does to every mark what is to be done to it. -/
theorem expireLoop_fst (nowMs : ℕ) : (self.expireLoop nowMs).1 = self.expire nowMs := by
  have hloop : (self.expireLoop nowMs).1 = (self.expired nowMs).foldl unsnooze self := by
    rw [expireLoop]
    split
    · next hnone => rw [List.isEmpty_iff.mp hnone, List.foldl_nil]
    · rfl
  rw [hloop]
  refine congrArg AgentMarks.mk (ExtTreeMap.ext_getElem? fun agent => ?_)
  rw [getElem?_foldl_unsnooze]
  refine Eq.trans ?_ (getElem?_expire self nowMs agent).symm
  rcases hget : self.marks[agent]? with _ | marked
  · simp
  · have hmem : agent ∈ self.expired nowMs ↔ marked.expiredAt nowMs := by
      rw [mem_expired, hget]
      simp
    simp only [hmem, Option.bind_some]

theorem expireLoop_snd (nowMs : ℕ) :
    (self.expireLoop nowMs).2 = true ↔ self.expired nowMs ≠ [] := by
  rw [expireLoop]
  split
  · next hnone => simpa using hnone
  · next hsome => simpa using hsome

/-! ### What can be told of it -/

theorem state_expire (nowMs : ℕ) (agent : AgentId) :
    (self.expire nowMs).state agent = self.state agent ∨
      (∃ deadline ≤ nowMs, (self.state agent).snoozedUntilMs = some deadline) ∧
        (self.expire nowMs).state agent = { self.state agent with snoozedUntilMs := none } := by
  rw [state, state, getElem?_expire]
  rcases self.marks[agent]? with _ | marked
  · exact .inl rfl
  · rw [Option.bind_some]
    split
    · next hexpired =>
      obtain ⟨deadline, hdeadline, hle⟩ := Option.any_eq_true .. |>.mp hexpired
      refine .inr ⟨⟨deadline, by simpa using hle, hdeadline⟩, ?_⟩
      rw [Marked.unsnoozed]
      dsimp only
      split
      · next hdefault => exact hdefault.symm
      · rfl
    · exact .inl rfl

theorem quietAt_expire {nowMs later : ℕ} (h : nowMs ≤ later) (agent : AgentId) :
    ((self.expire nowMs).state agent).quietAt later = (self.state agent).quietAt later := by
  rcases self.state_expire nowMs agent with heq | ⟨⟨deadline, hle, hdeadline⟩, heq⟩
  · rw [heq]
  · rw [heq, AgentMarkState.quietAt, AgentMarkState.quietAt, AgentMarkState.snoozedAt,
      AgentMarkState.snoozedAt, hdeadline, Option.any_some, Option.any_none,
      decide_eq_false (Nat.not_lt.mpr (Nat.le_trans hle h))]

theorem notify_expire (nowMs : ℕ) (agent : AgentId) :
    ((self.expire nowMs).state agent).pinned = (self.state agent).pinned ∧
      ((self.expire nowMs).state agent).muted = (self.state agent).muted ∧
      ((self.expire nowMs).state agent).notify = (self.state agent).notify := by
  rcases self.state_expire nowMs agent with heq | ⟨-, heq⟩
  · rw [heq]
    exact ⟨rfl, rfl, rfl⟩
  · rw [heq]
    exact ⟨rfl, rfl, rfl⟩

theorem mayNotify_expire {nowMs later : ℕ} (h : nowMs ≤ later)
    (agent : AgentId) (needsAttention : Bool) :
    ((self.expire nowMs).state agent).mayNotify needsAttention later =
      (self.state agent).mayNotify needsAttention later := by
  rw [AgentMarkState.mayNotify, AgentMarkState.mayNotify, self.quietAt_expire h,
    (self.notify_expire nowMs agent).2.2]

theorem of_getElem?_expire {self : AgentMarks} {nowMs : ℕ} {agent : AgentId} {held : Marked}
    (h : (self.expire nowMs).marks[agent]? = some held) :
    held.expiredAt nowMs = false ∧
      (held.state = .default → self.marks[agent]? = some held) := by
  rw [getElem?_expire, Option.bind_eq_some_iff] at h
  obtain ⟨marked, hmarked, h⟩ := h
  split at h
  · rw [Marked.unsnoozed] at h
    split at h
    · cases h
    · next hleft =>
      obtain rfl := Option.some.inj h
      exact ⟨rfl, fun hdefault => absurd hdefault hleft⟩
  · next hexpired =>
    obtain rfl := Option.some.inj h
    exact ⟨by simpa using hexpired, fun _ => hmarked⟩

theorem expired_expire (nowMs : ℕ) : (self.expire nowMs).expired nowMs = [] := by
  refine List.eq_nil_iff_forall_not_mem.mpr fun agent hmem => ?_
  obtain ⟨held, hheld, hexpired⟩ := mem_expired.mp hmem
  rw [(of_getElem?_expire hheld).1] at hexpired
  cases hexpired

theorem expire_eq_self_iff (nowMs : ℕ) : self.expire nowMs = self ↔ self.expired nowMs = [] := by
  constructor
  · intro h
    rw [← h]
    exact expired_expire self nowMs
  · intro h
    rw [← expireLoop_fst, expireLoop, h]
    rfl

/-- **Expiring snoozes cannot be told** from what is asked of the marks at this time or later; what it
leaves says something unless it said nothing before, the flag tells whether the store is another, and
there is nothing to do a second time. -/
theorem expiring_is_unobservable (self : AgentMarks) {nowMs later : ℕ} (h : nowMs ≤ later) :
    (∀ agent,
      ((self.expireLoop nowMs).1.state agent).quietAt later = (self.state agent).quietAt later ∧
      (∀ needsAttention, ((self.expireLoop nowMs).1.state agent).mayNotify needsAttention later =
        (self.state agent).mayNotify needsAttention later) ∧
      ((self.expireLoop nowMs).1.state agent).pinned = (self.state agent).pinned ∧
      ((self.expireLoop nowMs).1.state agent).muted = (self.state agent).muted ∧
      ((self.expireLoop nowMs).1.state agent).notify = (self.state agent).notify) ∧
    (∀ (agent : AgentId) (held : Marked), (self.expireLoop nowMs).1.marks[agent]? = some held →
      held.state = .default → self.marks[agent]? = some held) ∧
    ((self.expireLoop nowMs).2 = true ↔ (self.expireLoop nowMs).1 ≠ self) ∧
    (self.expireLoop nowMs).1.expireLoop nowMs = ((self.expireLoop nowMs).1, false) := by
  rw [expireLoop_snd, expireLoop_fst]
  refine ⟨fun agent => ⟨self.quietAt_expire h agent, self.mayNotify_expire h agent,
    self.notify_expire nowMs agent⟩, fun agent held hheld => (of_getElem?_expire hheld).2, ?_, ?_⟩
  · exact not_congr (expire_eq_self_iff self nowMs).symm
  · rw [expireLoop, expired_expire]
    rfl

/-- A snooze that runs out now. -/
theorem expiring_is_unobservable_snoozed :
    ((default.apply ⟨"desk", "main", "pane"⟩ (.snooze (some 0)) 7).1.expireLoop 7).2 = true ↔
      ((default.apply ⟨"desk", "main", "pane"⟩ (.snooze (some 0)) 7).1.expireLoop 7).1 ≠
        (default.apply ⟨"desk", "main", "pane"⟩ (.snooze (some 0)) 7).1 :=
  (expiring_is_unobservable _ (Nat.le_refl 7)).2.2.1

end AgentMarks

/-! ### On disk -/

def AGENT_MARKS_VERSION : ℕ := 2

structure PersistedMark where
  agent : AgentId
  state : AgentMarkState
  touchedMs : ℕ
deriving DecidableEq

structure PersistedMarks where
  version : ℕ
  marks : List PersistedMark
deriving DecidableEq

/-- Read marks back, or say why they cannot be. -/
def PersistedMarks.toMarks (persisted : PersistedMarks) : Except String AgentMarks :=
  if persisted.version ≠ AGENT_MARKS_VERSION then
    .error "persisted agent marks have an unsupported version"
  else if MAX_MARKED_AGENTS < persisted.marks.length then
    .error "persisted agent marks name too many agents"
  else if ¬(persisted.marks.map PersistedMark.agent).Nodup then
    .error "persisted agent marks name one agent twice"
  else
    .ok ⟨persisted.marks.foldl
      (fun marks held => marks.insert held.agent ⟨held.state, held.touchedMs⟩) ∅⟩

namespace AgentMarks

/-- A mark that says nothing is read from disk as it stands, and stays. -/
theorem blank_mark_stays :
    ∃ marks, PersistedMarks.toMarks ⟨2, [⟨⟨"desk", "main", "pane"⟩, .default, 0⟩]⟩ = .ok marks ∧
      (marks.expireLoop 7).1.marks[(⟨"desk", "main", "pane"⟩ : AgentId)]? = some ⟨.default, 0⟩ := by
  refine ⟨⟨(∅ : ExtTreeMap AgentId Marked).insert ⟨"desk", "main", "pane"⟩ ⟨.default, 0⟩⟩, rfl, ?_⟩
  rw [expireLoop_fst, getElem?_expire, ExtTreeMap.getElem?_insert_self]
  rfl

end AgentMarks

end SuperHerdr
