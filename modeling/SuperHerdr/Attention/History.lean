import Mathlib.Data.List.Range
import Mathlib.Order.Basic
import SuperHerdr.Attention.Index

/-!
# What an observation does to the history

The identifiers of a history increase, none has been reached by the counter, and there are at
most `MAX_ATTENTION_EVENTS` events (`Regular`). An observation of the federation grows it
(`Grows`, `grows_observe`), and marking or clearing keeps it regular.

A mirror that holds the same events and applies, one by one, the events that an observation
pushed and kept, ends with the same events again (`foldl_apply`): it sorts and forgets after each
event, the daemon forgets without sorting, and both keep the newest.
-/

namespace SuperHerdr

open Std Transducer

/-! ### The bound -/

theorem boundedHistory_of_length_le {events : List AttentionEvent}
    (h : events.length ≤ MAX_ATTENTION_EVENTS) : boundedHistory events = events := by
  have hzero : events.length - MAX_ATTENTION_EVENTS = 0 := by omega
  rw [boundedHistory, hzero, List.drop_zero]

theorem length_boundedHistory (events : List AttentionEvent) :
    (boundedHistory events).length = min events.length MAX_ATTENTION_EVENTS := by
  rw [boundedHistory, List.length_drop]
  omega

/-- Forgetting before more events come changes nothing about what is kept in the end. -/
theorem boundedHistory_append (events later : List AttentionEvent) :
    boundedHistory (boundedHistory events ++ later) = boundedHistory (events ++ later) := by
  have hlength : (boundedHistory events ++ later).length =
      min events.length MAX_ATTENTION_EVENTS + later.length := by
    rw [List.length_append, length_boundedHistory]
  by_cases hshort : events.length ≤ MAX_ATTENTION_EVENTS
  · rw [boundedHistory_of_length_le hshort]
  · have hdrop : boundedHistory events ++ later =
        (events ++ later).drop (events.length - MAX_ATTENTION_EVENTS) := by
      rw [boundedHistory, List.drop_append_of_le_length (by omega)]
    have htotal : events.length - MAX_ATTENTION_EVENTS +
        (min events.length MAX_ATTENTION_EVENTS + later.length - MAX_ATTENTION_EVENTS) =
          events.length + later.length - MAX_ATTENTION_EVENTS := by omega
    rw [boundedHistory, hlength, hdrop, List.drop_drop, htotal, boundedHistory,
      List.length_append]

/-- Nor does forgetting the oldest of what comes later. -/
theorem boundedHistory_append_right (events later : List AttentionEvent) :
    boundedHistory (events ++ boundedHistory later) = boundedHistory (events ++ later) := by
  by_cases hshort : later.length ≤ MAX_ATTENTION_EVENTS
  · rw [boundedHistory_of_length_le hshort]
  · have hlater : (boundedHistory later).length = MAX_ATTENTION_EVENTS := by
      rw [length_boundedHistory]
      omega
    have hold : events.drop (events.length + later.length - MAX_ATTENTION_EVENTS) = [] :=
      List.drop_of_length_le (by omega)
    have hkept : events.length + later.length - MAX_ATTENTION_EVENTS - events.length =
        later.length - MAX_ATTENTION_EVENTS := by omega
    have hleft : boundedHistory (events ++ boundedHistory later) = boundedHistory later := by
      rw [boundedHistory, List.length_append, hlater, Nat.add_sub_cancel, List.drop_left]
    have hright : boundedHistory (events ++ later) = boundedHistory later := by
      rw [boundedHistory, List.length_append, List.drop_append, hold, List.nil_append, hkept,
        boundedHistory]
    rw [hleft, hright]

theorem boundedHistory_sublist (events : List AttentionEvent) :
    List.Sublist (boundedHistory events) events :=
  List.drop_sublist _ _

/-! ### Regular histories -/

/-- The identifiers of a history, oldest first. -/
def AttentionEvent.Earlier (left right : AttentionEvent) : Prop := left.id < right.id

namespace AttentionIndex

structure Regular (index : AttentionIndex) : Prop where
  increasing : index.events.Pairwise AttentionEvent.Earlier
  numbered : ∀ event ∈ index.events, event.id < index.nextEventId
  bounded : index.events.length ≤ MAX_ATTENTION_EVENTS

theorem regular_default : default.Regular := by
  refine ⟨List.Pairwise.nil, fun event he => ?_, Nat.zero_le _⟩
  cases he

variable {self other : AttentionIndex}

theorem Regular.of_sublist (h : self.Regular) (hevents : List.Sublist other.events self.events)
    (hnext : self.nextEventId ≤ other.nextEventId) : other.Regular where
  increasing := h.increasing.sublist hevents
  numbered event he := (h.numbered event (hevents.subset he)).trans_le hnext
  bounded := hevents.length_le.trans h.bounded

/-- A history some of whose events were read is as regular. -/
theorem Regular.of_ids (h : self.Regular)
    (hids : other.events.map AttentionEvent.id = self.events.map AttentionEvent.id)
    (hnext : other.nextEventId = self.nextEventId) : other.Regular := by
  have hlength : other.events.length = self.events.length := by
    simpa using congrArg List.length hids
  refine ⟨?_, fun event he => ?_, hlength ▸ h.bounded⟩
  · have hincreasing : (self.events.map AttentionEvent.id).Pairwise (· < ·) :=
      List.pairwise_map.mpr h.increasing
    rw [← hids, List.pairwise_map] at hincreasing
    exact hincreasing
  · have hid : event.id ∈ self.events.map AttentionEvent.id :=
      hids ▸ List.mem_map_of_mem he
    obtain ⟨held, hheld, hsame⟩ := List.mem_map.mp hid
    rw [hnext, ← hsame]
    exact h.numbered held hheld

theorem Regular.markSeenForPane {self : AttentionIndex} (h : self.Regular) (pane : PaneId) :
    (self.markSeenForPane pane).1.Regular := by
  refine h.of_ids ?_ rfl
  rw [AttentionIndex.markSeenForPane, List.map_map]
  refine List.map_congr_left fun event _ => ?_
  simp only [Function.comp_apply]
  split <;> rfl

theorem Regular.markAllSeen {self : AttentionIndex} (h : self.Regular) :
    self.markAllSeen.1.Regular := by
  refine h.of_ids ?_ rfl
  rw [AttentionIndex.markAllSeen, List.map_map]
  rfl

theorem Regular.clearSeen {self : AttentionIndex} (h : self.Regular) :
    self.clearSeen.1.Regular :=
  h.of_sublist List.filter_sublist le_rfl

/-! ### Growing -/

/-- A history grew by a list of events, numbered on from the last one. -/
structure Grows (index grown : AttentionIndex) (pushed : List AttentionEvent) : Prop where
  ids : pushed.map AttentionEvent.id = List.range' index.nextEventId pushed.length
  next : grown.nextEventId = index.nextEventId + pushed.length
  events : grown.events = boundedHistory (index.events ++ pushed)
  unread : ∀ event ∈ pushed, event.unread = true

theorem Grows.refl (hbounded : self.events.length ≤ MAX_ATTENTION_EVENTS)
    (hnext : other.nextEventId = self.nextEventId) (hevents : other.events = self.events) :
    self.Grows other [] where
  ids := rfl
  next := hnext
  events := by rw [List.append_nil, boundedHistory_of_length_le hbounded, hevents]
  unread event he := by cases he

theorem Grows.trans {self other another : AttentionIndex} {pushed later : List AttentionEvent}
    (h : self.Grows other pushed) (h' : other.Grows another later) :
    self.Grows another (pushed ++ later) where
  ids := by
    rw [List.map_append, h.ids, h'.ids, h.next, List.length_append, ← List.range'_append_1]
  next := by rw [h'.next, h.next, List.length_append, Nat.add_assoc]
  events := by rw [h'.events, h.events, boundedHistory_append, List.append_assoc]
  unread event he := by
    rcases List.mem_append.mp he with he | he
    · exact h.unread event he
    · exact h'.unread event he

variable {pushed : List AttentionEvent}

theorem Grows.bounded
    (h : self.Grows other pushed) : other.events.length ≤ MAX_ATTENTION_EVENTS := by
  rw [h.events, length_boundedHistory]
  exact min_le_right _ _

variable (clock : ℕ → ℕ)

theorem grows_pushEvent (self : AttentionIndex) (observation : AgentObservation)
    (kind : AttentionEventKind) :
    self.Grows (self.pushEvent clock observation kind).1
      (self.pushEvent clock observation kind).2 where
  ids := by simp [pushEvent]
  next := by simp [pushEvent]
  events := by simp only [pushEvent]
  unread event he := by
    rw [List.mem_singleton.mp he]

theorem Grows.of_history {self self' other other' : AttentionIndex} (h : self.Grows other pushed)
    (hself : self'.nextEventId = self.nextEventId ∧ self'.events = self.events)
    (hother : other'.nextEventId = other.nextEventId ∧ other'.events = other.events) :
    self'.Grows other' pushed where
  ids := by rw [h.ids, hself.1]
  next := by rw [hother.1, h.next, hself.1]
  events := by rw [hother.2, h.events, hself.2]
  unread := h.unread

theorem grows_notice (s : AttentionIndex × Bool)
    (observation : AgentObservation) (hbounded : s.1.events.length ≤ MAX_ATTENTION_EVENTS) :
    s.1.Grows (notice clock s observation).1.1 (notice clock s observation).2 := by
  obtain ⟨self, changed⟩ := s
  simp only [notice]
  cases self.observations[observation.pane]? with
  | none => exact Grows.refl hbounded rfl rfl
  | some previous =>
    cases hkind : transitionKind previous observation with
    | none =>
      simp only [hkind]
      split
      · exact Grows.refl hbounded rfl rfl
      · exact Grows.refl hbounded rfl rfl
    | some kind =>
      have hpush := grows_pushEvent clock self observation kind
      simp only [hkind]
      generalize self.pushEvent clock observation kind = result at hpush ⊢
      split
      · exact hpush.of_history ⟨rfl, rfl⟩ ⟨rfl, rfl⟩
      · exact hpush

theorem grows_lose (s : AttentionIndex × Bool) (pane : PaneId)
    (hbounded : s.1.events.length ≤ MAX_ATTENTION_EVENTS) :
    s.1.Grows (lose clock s pane).1.1 (lose clock s pane).2 := by
  obtain ⟨self, changed⟩ := s
  simp only [lose]
  cases self.observations[pane]? with
  | none => exact Grows.refl hbounded rfl rfl
  | some observation =>
    exact (grows_pushEvent clock _ observation .disappeared).of_history ⟨rfl, rfl⟩ ⟨rfl, rfl⟩

theorem grows_exec {α : Type*} {body : AttentionIndex × Bool → α →
      (AttentionIndex × Bool) × List AttentionEvent}
    (hbody : ∀ (s : AttentionIndex × Bool) (a : α), s.1.events.length ≤ MAX_ATTENTION_EVENTS →
      s.1.Grows (body s a).1.1 (body s a).2)
    (s : AttentionIndex × Bool) (hbounded : s.1.events.length ≤ MAX_ATTENTION_EVENTS)
    (is : List α) : s.1.Grows (exec body s is).1.1 (exec body s is).2 := by
  induction is generalizing s with
  | nil => exact Grows.refl hbounded rfl rfl
  | cons i is ih =>
    have hfirst := hbody s i hbounded
    exact hfirst.trans (ih (body s i).1 hfirst.bounded)

/-- **An observation of the federation grows the history** by what it pushes. -/
theorem grows_observe (self : AttentionIndex) (state : FederationState)
    (hbounded : self.events.length ≤ MAX_ATTENTION_EVENTS) :
    self.Grows (self.observe clock state).1.1 (self.observe clock state).2 := by
  have hnoticed := grows_exec (fun s observation => grows_notice clock s observation)
    (self, false) hbounded state.current.values
  have hlost := grows_exec (fun s pane => grows_lose clock s pane)
    (exec (notice clock) (self, false) state.current.values).1 hnoticed.bounded
    ((exec (notice clock) (self, false) state.current.values).1.1.disappeared state)
  exact (hnoticed.trans hlost).of_history ⟨rfl, rfl⟩ ⟨rfl, rfl⟩

theorem Grows.pairwise (h : self.Grows other pushed) (hself : self.Regular) :
    (self.events ++ pushed).Pairwise AttentionEvent.Earlier := by
  have hpushed : pushed.Pairwise AttentionEvent.Earlier := by
    have hids : (pushed.map AttentionEvent.id).Pairwise (· < ·) := by
      rw [h.ids]
      exact List.pairwise_lt_range'
    rw [List.pairwise_map] at hids
    exact hids
  refine List.pairwise_append.mpr ⟨hself.increasing, hpushed, fun left hl right hr => ?_⟩
  have hright : right.id ∈ List.range' self.nextEventId pushed.length :=
    h.ids ▸ List.mem_map_of_mem hr
  exact (hself.numbered left hl).trans_le (List.mem_range'_1.mp hright).1

theorem Grows.le_id (h : self.Grows other pushed) {event : AttentionEvent} (he : event ∈ pushed) :
    self.nextEventId ≤ event.id ∧ event.id < other.nextEventId := by
  have hid : event.id ∈ List.range' self.nextEventId pushed.length :=
    h.ids ▸ List.mem_map_of_mem he
  rw [h.next]
  exact List.mem_range'_1.mp hid

theorem Grows.regular (h : self.Grows other pushed) (hself : self.Regular) : other.Regular where
  increasing := by
    rw [h.events]
    exact (h.pairwise hself).sublist (boundedHistory_sublist _)
  numbered event he := by
    rw [h.events] at he
    rcases List.mem_append.mp ((boundedHistory_sublist _).subset he) with he | he
    · have hold := hself.numbered event he
      have hnext := h.next
      omega
    · exact (h.le_id he).2
  bounded := h.bounded

/-- The pushed events that the bound kept are the events of the new history whose identifiers
are new. -/
theorem Grows.filter_new (h : self.Grows other pushed) (hself : self.Regular) :
    (other.events.filter fun event => self.nextEventId ≤ event.id) = boundedHistory pushed := by
  have hold : ∀ event ∈ self.events, ¬self.nextEventId ≤ event.id := fun event he =>
    Nat.not_le_of_lt (hself.numbered event he)
  have hnew : ∀ event ∈ pushed, self.nextEventId ≤ event.id := fun event he => (h.le_id he).1
  have hkept : (self.events ++ pushed).length - MAX_ATTENTION_EVENTS - self.events.length =
      pushed.length - MAX_ATTENTION_EVENTS := by
    have hbounded := hself.bounded
    rw [List.length_append]
    omega
  rw [h.events, boundedHistory, List.drop_append, List.filter_append, List.filter_eq_nil_iff.mpr,
    List.filter_eq_self.mpr, List.nil_append, hkept, boundedHistory]
  · intro event he
    exact decide_eq_true (hnew event (List.mem_of_mem_drop he))
  · intro event he
    simpa using hold event (List.mem_of_mem_drop he)

/-! ### A mirror follows -/

/-- A newer event is appended to a mirror, and the oldest forgotten. -/
theorem apply_newer (self : AttentionIndex) {event : AttentionEvent}
    (h : (self.events ++ [event]).Pairwise AttentionEvent.Earlier) :
    (self.apply event).1.events = boundedHistory (self.events ++ [event]) := by
  have hnew : ∀ held ∈ self.events, held.id < event.id := fun held hheld =>
    (List.pairwise_append.mp h).2.2 held hheld event (List.mem_singleton_self event)
  have hfind : (self.events.findIdx? fun held => held.id = event.id) = none := by
    refine List.findIdx?_eq_none_iff.mpr fun held hheld => ?_
    have hlt := hnew held hheld
    simp only [decide_eq_false_iff_not]
    omega
  have hsorted : ((self.events ++ [event]).mergeSort fun left right => left.id ≤ right.id) =
      self.events ++ [event] := by
    refine List.mergeSort_of_pairwise (h.imp fun {left right} hlt => ?_)
    exact decide_eq_true (Nat.le_of_lt hlt)
  rw [apply, hfind, hsorted]

/-- **A mirror that applies newer events keeps the newest**: it ends with what the history would
be if they were all appended at once. -/
theorem foldl_apply (self : AttentionIndex) {events : List AttentionEvent}
    (hbounded : self.events.length ≤ MAX_ATTENTION_EVENTS)
    (h : (self.events ++ events).Pairwise AttentionEvent.Earlier) :
    (events.foldl (fun mirror event => (mirror.apply event).1) self).events =
      boundedHistory (self.events ++ events) := by
  induction events generalizing self with
  | nil => rw [List.append_nil, boundedHistory_of_length_le hbounded, List.foldl_nil]
  | cons event events ih =>
    have hhere : (self.events ++ [event]).Pairwise AttentionEvent.Earlier :=
      h.sublist (by simp)
    have happlied := apply_newer self hhere
    have hrest : ((self.apply event).1.events ++ events).Pairwise AttentionEvent.Earlier := by
      have hlater : List.Sublist ((self.apply event).1.events ++ events)
          (self.events ++ event :: events) := by
        rw [happlied]
        simpa using (boundedHistory_sublist (self.events ++ [event])).append_right events
      exact h.sublist hlater
    have hlength : (self.apply event).1.events.length ≤ MAX_ATTENTION_EVENTS := by
      rw [happlied, length_boundedHistory]
      exact min_le_right _ _
    rw [List.foldl_cons, ih _ hlength hrest, happlied, boundedHistory_append, List.append_assoc,
      List.singleton_append]

end AttentionIndex

end SuperHerdr
