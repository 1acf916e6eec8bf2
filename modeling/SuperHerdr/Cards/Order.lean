import SuperHerdr.Cards.Routes

/-!
# The order of the inbox

A section shows its pinned cards first, then each card by when it entered the section.
`inbox_order_is_stable` says that two agents that stay where they are keep their places to each other,
whatever else changes, and that who enters a section goes behind those who are there. The cards of
agents that went away come last, pinned or not.
-/

namespace SuperHerdr

open Std Transducer

/-! ### Pairs in a list -/

theorem pair_sublist_iff {α : Type} {R : α → α → Prop} {l : List α}
    (hasymm : ∀ x y, R x y → ¬R y x) (h : l.Pairwise R) {x y : α} (hx : x ∈ l) (hy : y ∈ l) :
    [x, y].Sublist l ↔ R x y := by
  refine ⟨fun hsub => List.pairwise_iff_forall_sublist.mp h hsub, fun hxy => ?_⟩
  induction l with
  | nil => cases hx
  | cons z l ih =>
    rw [List.pairwise_cons] at h
    rcases List.mem_cons.mp hx with rfl | hleft
    · rcases List.mem_cons.mp hy with rfl | hright
      · exact absurd hxy (hasymm _ _ hxy)
      · exact (List.singleton_sublist.mpr hright).cons_cons x
    · rcases List.mem_cons.mp hy with rfl | hright
      · exact absurd hxy (hasymm _ _ (h.1 x hleft))
      · exact (ih h.2 hleft hright).cons z

namespace AgentCardIndex

variable (index : AgentCardIndex) {cardSection : AgentCardSection}

/-! ### Sections are sorted -/

instance : TransCmp order :=
  inferInstanceAs (TransCmp (compareLex (fun left right : Tracked =>
      compareOn (fun tracked : Tracked => tracked.card.marks.pinned) right left)
    (compareLex (compareOn Tracked.rank) (compareOn fun tracked => tracked.card.agent))))

theorem trans_order (left middle right : Tracked) (h : (order left middle).isLE = true)
    (hnext : (order middle right).isLE = true) : (order left right).isLE = true :=
  TransCmp.isLE_trans h hnext

theorem total_order (left right : Tracked) :
    ((order left right).isLE || (order right left).isLE) = true := by
  have hswap : order right left = (order left right).swap := OrientedCmp.eq_swap
  rw [hswap]
  cases order left right with
  | _ => rfl

/-- The tracked cards of a section, in order. -/
def ordered (cardSection : AgentCardSection) : List Tracked :=
  ((index.tracked.toList.map Prod.snd).filter fun tracked =>
    tracked.cardSection = cardSection).mergeSort fun left right => (order left right).isLE

theorem inSection_eq : index.inSection cardSection = (index.ordered cardSection).map Tracked.card :=
  rfl

theorem mem_ordered {tracked : Tracked} : tracked ∈ index.ordered cardSection ↔
    ∃ id : AgentId, index.tracked[id]? = some tracked ∧ tracked.cardSection = cardSection := by
  rw [ordered, List.mem_mergeSort, List.mem_filter, List.mem_map]
  constructor
  · rintro ⟨⟨⟨id, held⟩, hentry, rfl⟩, hsection⟩
    exact ⟨id, ExtTreeMap.mem_toList_iff_getElem?_eq_some.mp hentry, by simpa using hsection⟩
  · rintro ⟨id, htracked, hsection⟩
    exact ⟨⟨(id, tracked), ExtTreeMap.mem_toList_iff_getElem?_eq_some.mpr htracked, rfl⟩,
      by simpa using hsection⟩

/-- One card is before another. -/
def Ahead (left right : Tracked) : Prop := order left right = .lt

theorem ahead_asymm (left right : Tracked) (h : Ahead left right) : ¬Ahead right left := by
  intro hback
  have hswap : order right left = (order left right).swap := OrientedCmp.eq_swap
  rw [Ahead, hswap, show order left right = .lt from h] at hback
  cases hback

theorem agent_of_order_eq {left right : Tracked} (h : order left right = .eq) :
    left.card.agent = right.card.agent := by
  rw [order, Ordering.then_eq_eq, Ordering.then_eq_eq] at h
  exact LawfulEqOrd.eq_of_compare h.2.2

/-- The cards of a section are strictly ordered, since no two are of one identity. -/
theorem pairwise_ordered (h : Lawful index) : (index.ordered cardSection).Pairwise Ahead := by
  have hsorted : (index.ordered cardSection).Pairwise fun left right =>
      (order left right).isLE = true :=
    List.pairwise_mergeSort trans_order total_order _
  have hdistinct : (index.ordered cardSection).Pairwise fun left right =>
      left.card.agent ≠ right.card.agent := by
    have hvalues : (index.tracked.toList.map Prod.snd).Pairwise fun left right =>
        left.card.agent ≠ right.card.agent := List.pairwise_map.mpr h.pairwise
    have hfiltered := hvalues.filter fun tracked => decide (tracked.cardSection = cardSection)
    exact ((List.mergeSort_perm _ _).pairwise_iff fun {_ _} hne => hne.symm).mpr hfiltered
  refine (hsorted.and hdistinct).imp fun {left right} hboth => ?_
  obtain ⟨hle, hne⟩ := hboth
  cases hlt : order left right with
  | lt => exact hlt
  | eq => exact absurd (agent_of_order_eq hlt) hne
  | gt =>
    rw [hlt] at hle
    cases hle

/-! ### Places -/

/-- An agent's card comes before another's. -/
def Precedes (cards : List AgentCard) (first second : AgentId) : Prop :=
  [first, second].Sublist (cards.map AgentCard.agent)

/-- In a section, one agent comes before another exactly if it is ahead. -/
theorem precedes_inSection (h : Lawful index) {first second : AgentId} {left right : Tracked}
    (hfirst : index.tracked[first]? = some left) (hsecond : index.tracked[second]? = some right)
    (hleft : left.cardSection = cardSection) (hright : right.cardSection = cardSection) :
    Precedes (index.inSection cardSection) first second ↔ Ahead left right := by
  have hagents : ((index.inSection cardSection).map AgentCard.agent).Pairwise fun first second =>
      ∃ left right, index.tracked[first]? = some left ∧ index.tracked[second]? = some right ∧
        Ahead left right := by
    rw [inSection_eq, List.map_map, List.pairwise_map]
    refine (pairwise_ordered index h).imp_of_mem ?_
    intro left right hleft hright hahead
    obtain ⟨first, hfirst, -⟩ := (index.mem_ordered).mp hleft
    obtain ⟨second, hsecond, -⟩ := (index.mem_ordered).mp hright
    rw [Function.comp_apply, Function.comp_apply, h.agent first left hfirst,
      h.agent second right hsecond]
    exact ⟨left, right, hfirst, hsecond, hahead⟩
  have hmem : ∀ {id : AgentId} {tracked : Tracked}, index.tracked[id]? = some tracked →
      tracked.cardSection = cardSection →
      id ∈ (index.inSection cardSection).map AgentCard.agent := by
    intro id tracked htracked hsection
    exact List.mem_map.mpr ⟨tracked.card,
      index.mem_inSection.mpr ⟨id, tracked, htracked, hsection, rfl⟩, h.agent id tracked htracked⟩
  rw [Precedes, pair_sublist_iff ?_ hagents (hmem hfirst hleft) (hmem hsecond hright)]
  · constructor
    · rintro ⟨held, other, hheld, hother, hahead⟩
      rw [hfirst] at hheld
      rw [hsecond] at hother
      cases hheld
      cases hother
      exact hahead
    · exact fun hahead => ⟨left, right, hfirst, hsecond, hahead⟩
  · rintro first second ⟨left, right, hleft, hright, hahead⟩ ⟨back, other, hback, hother, hbehind⟩
    rw [hright] at hback
    rw [hleft] at hother
    cases hback
    cases hother
    exact ahead_asymm _ _ hahead hbehind

/-! ### What an overview does to places -/

theorem rank_read {overview : Overview} {id : AgentId} {before after : Tracked}
    (hbefore : index.tracked[id]? = some before)
    (hafter : (index.read overview).tracked[id]? = some after)
    (hsection : after.cardSection = before.cardSection) : after.rank = before.rank := by
  rcases index.tracked_read overview hafter with
    ⟨card, -, hranks⟩ | ⟨-, -, held, hheld, rfl⟩
  · exact hranks.kept before hbefore (by rw [← hsection, hranks.cardSection])
  · rw [hbefore] at hheld
    cases hheld
    rfl

theorem rank_read_of_entered {overview : Overview} {id : AgentId} {after : Tracked}
    (hafter : (index.read overview).tracked[id]? = some after)
    (hentered : ∀ before, index.tracked[id]? = some before →
      before.cardSection ≠ after.cardSection) : index.nextRank ≤ after.rank := by
  rcases index.tracked_read overview hafter with
    ⟨card, -, hranks⟩ | ⟨-, -, held, hheld, rfl⟩
  · refine (hranks.entered fun before hbefore => ?_).1
    rw [← hranks.cardSection]
    exact hentered before hbefore
  · exact absurd rfl (hentered held hheld)

theorem order_congr {left right left' right' : Tracked}
    (hleft : left'.card.marks.pinned = left.card.marks.pinned ∧ left'.rank = left.rank ∧
      left'.card.agent = left.card.agent)
    (hright : right'.card.marks.pinned = right.card.marks.pinned ∧ right'.rank = right.rank ∧
      right'.card.agent = right.card.agent) : order left' right' = order left right := by
  rw [order, order, hleft.1, hleft.2.1, hleft.2.2, hright.1, hright.2.1, hright.2.2]

/-! ### What a projection promises -/

/-- The cards of agents that are there, in a section. -/
def present (projection : AgentCardProjection) (cardSection : AgentCardSection) : List AgentCard :=
  (projection.inSection cardSection).filter fun card => card.activity ≠ .gone

/-- What a projection makes of the one before it. -/
structure Stable (last next : AgentCardProjection) (cardSection : AgentCardSection) : Prop where
  /-- Two agents that stay in the section, pinned or not as before, keep their places. -/
  kept : ∀ left ∈ present last cardSection, ∀ right ∈ present last cardSection,
    ∀ left' ∈ present next cardSection, ∀ right' ∈ present next cardSection,
    left'.agent = left.agent → right'.agent = right.agent →
    left'.marks.pinned = left.marks.pinned → right'.marks.pinned = right.marks.pinned →
    (Precedes (present next cardSection) left.agent right.agent ↔
      Precedes (present last cardSection) left.agent right.agent)
  /-- An agent that enters the section is behind those that were there, if it is pinned as they
  are. -/
  entered : ∀ card ∈ present next cardSection,
    (∀ held ∈ present last cardSection, held.agent ≠ card.agent) →
    ∀ other ∈ present next cardSection, (∃ held ∈ present last cardSection,
      held.agent = other.agent) → other.marks.pinned = card.marks.pinned →
    Precedes (present next cardSection) other.agent card.agent
  pinned : (present next cardSection).Pairwise fun left right =>
    right.marks.pinned = true → left.marks.pinned = true
  /-- Behind them all are the cards of agents that went away, in the last section. -/
  gone : ∃ gone : List AgentCard, (∀ card ∈ gone, card.activity = .gone) ∧
    next.inSection cardSection = present next cardSection ++ gone ∧
    (cardSection ≠ .recent → gone = [])

/-- The projection before, if there was one. -/
def remember (last : AgentCardProjection) (_ : AgentCardIndex) (_ : Overview)
    (result : AgentCardIndex × List AgentCardProjection) : AgentCardProjection :=
  result.2.getLast?.getD last

def blank : AgentCardProjection := ⟨0, 0, [], [], []⟩

theorem inSection_project (overview : Overview) (cardSection : AgentCardSection) :
    (index.project overview).2.inSection cardSection =
      (index.read overview).inSection cardSection ++
        if cardSection = .recent then (index.read overview).history else [] := by
  cases cardSection with
  | needsYou => exact (List.append_nil _).symm
  | working => exact (List.append_nil _).symm
  | recent => rfl

/-- The agents that are there are those that are tracked. -/
theorem present_project {overview : Overview} (h : Lawful (index.read overview))
    (cardSection : AgentCardSection) :
    present (index.project overview).2 cardSection = (index.read overview).inSection cardSection := by
  rw [present, inSection_project, List.filter_append]
  have htracked : ((index.read overview).inSection cardSection).filter
      (fun card => card.activity ≠ .gone) = (index.read overview).inSection cardSection := by
    rw [List.filter_eq_self]
    intro card hcard
    obtain ⟨id, tracked, htracked, -, rfl⟩ := (index.read overview).mem_inSection.mp hcard
    simpa using h.present id tracked htracked
  have hgone : (if cardSection = .recent then (index.read overview).history else []).filter
      (fun card => card.activity ≠ .gone) = [] := by
    rw [List.filter_eq_nil_iff]
    intro card hcard
    split at hcard
    · simpa using (h.gone card hcard).1
    · cases hcard
  rw [htracked, hgone, List.append_nil]

theorem tracked_of_mem {card : AgentCard} (h : Lawful index)
    (hcard : card ∈ index.inSection cardSection) : ∃ tracked,
      index.tracked[card.agent]? = some tracked ∧ tracked.cardSection = cardSection ∧
      tracked.card = card := by
  obtain ⟨id, tracked, htracked, hsection, rfl⟩ := index.mem_inSection.mp hcard
  rw [h.agent id tracked htracked]
  exact ⟨tracked, htracked, hsection, rfl⟩

theorem stable_project (h : Lawful index) (overview : Overview) {last : AgentCardProjection}
    (hlast : ∀ cardSection, present last cardSection = index.inSection cardSection)
    (cardSection : AgentCardSection) : Stable last (index.project overview).2 cardSection := by
  have hread := h.read overview
  have hpresent := present_project index hread cardSection
  refine ⟨?_, ?_, ?_, ?_⟩
  · rw [hpresent, hlast]
    intro left hleft right hright left' hleft' right' hright' hsameLeft hsameRight hpinLeft hpinRight
    obtain ⟨first, hfirst, hfirstSection, hfirstCard⟩ := tracked_of_mem index h hleft
    obtain ⟨second, hsecond, hsecondSection, hsecondCard⟩ := tracked_of_mem index h hright
    obtain ⟨first', hfirst', hfirstSection', hfirstCard'⟩ := tracked_of_mem _ hread hleft'
    obtain ⟨second', hsecond', hsecondSection', hsecondCard'⟩ := tracked_of_mem _ hread hright'
    rw [hsameLeft] at hfirst'
    rw [hsameRight] at hsecond'
    rw [precedes_inSection _ hread hfirst' hsecond' hfirstSection' hsecondSection',
      precedes_inSection _ h hfirst hsecond hfirstSection hsecondSection, Ahead, Ahead]
    have hrankFirst := rank_read index hfirst hfirst' (hfirstSection'.trans hfirstSection.symm)
    have hrankSecond := rank_read index hsecond hsecond' (hsecondSection'.trans hsecondSection.symm)
    have hcongr : order first' second' = order first second := by
      refine order_congr ⟨?_, hrankFirst, ?_⟩ ⟨?_, hrankSecond, ?_⟩
      · rw [hfirstCard', hfirstCard, hpinLeft]
      · rw [hfirstCard', hfirstCard, hsameLeft]
      · rw [hsecondCard', hsecondCard, hpinRight]
      · rw [hsecondCard', hsecondCard, hsameRight]
    rw [hcongr]
  · rw [hpresent, hlast]
    rintro card hcard hnew other hother ⟨held, hheld, hsame⟩ hpinned
    obtain ⟨entering, hentering, hsection, henteringCard⟩ := tracked_of_mem _ hread hcard
    obtain ⟨waiting, hwaiting, hwaitingSection, hwaitingCard⟩ := tracked_of_mem _ hread hother
    obtain ⟨before, hbefore, hbeforeSection, -⟩ := tracked_of_mem index h hheld
    rw [hsame] at hbefore
    rw [precedes_inSection _ hread hwaiting hentering hwaitingSection hsection, Ahead, order]
    have hold : waiting.rank < index.nextRank := by
      rw [rank_read index hbefore hwaiting (hwaitingSection.trans hbeforeSection.symm)]
      exact h.rank other.agent before hbefore
    have hfresh : index.nextRank ≤ entering.rank := by
      refine rank_read_of_entered index hentering fun tracked htracked hstays => ?_
      have hshown : tracked.card ∈ index.inSection cardSection :=
        index.mem_inSection.mpr ⟨card.agent, tracked, htracked, hstays.trans hsection, rfl⟩
      exact hnew tracked.card hshown (h.agent card.agent tracked htracked)
    have hequal : compare entering.card.marks.pinned waiting.card.marks.pinned = .eq := by
      rw [henteringCard, hwaitingCard, hpinned]
      exact ReflCmp.compare_self
    have hless : compare waiting.rank entering.rank = .lt :=
      Nat.compare_eq_lt.mpr (hold.trans_le hfresh)
    rw [hequal, hless]
    rfl
  · rw [hpresent, inSection_eq, List.pairwise_map]
    refine (pairwise_ordered _ hread).imp fun {left right} hahead hpinned => ?_
    rw [Ahead, order, hpinned] at hahead
    cases hleft : left.card.marks.pinned with
    | true => rfl
    | false =>
      rw [hleft] at hahead
      cases hahead
  · refine ⟨if cardSection = .recent then (index.read overview).history else [], ?_, ?_, ?_⟩
    · intro card hcard
      split at hcard
      · exact (hread.gone card hcard).1
      · cases hcard
    · rw [hpresent, inSection_project]
    · exact fun hother => if_neg hother

/-- **The order of the inbox is stable**: over every sequence of overviews, from each projection to the
next. -/
theorem inbox_order_is_stable (overviews : List Overview) :
    AllSteps (observe step remember) (fun s overview => ∀ cardSection,
      Stable s.2 (s.1.project overview).2 cardSection) (default, blank) overviews := by
  refine allSteps_of_invariant (I := fun s : AgentCardIndex × AgentCardProjection =>
    Lawful s.1 ∧ ∀ cardSection, present s.2 cardSection = s.1.inSection cardSection) ?_ ?_ ?_ overviews
  · rintro ⟨index, last⟩ overview ⟨h, -⟩
    refine ⟨lawful_step index overview h, fun cardSection => ?_⟩
    exact present_project index (h.read overview) cardSection
  · rintro ⟨index, last⟩ overview ⟨h, hlast⟩ cardSection
    exact stable_project index h overview hlast cardSection
  · refine ⟨lawful_default, fun cardSection => ?_⟩
    have hempty : default.inSection cardSection = [] := by
      rw [List.eq_nil_iff_forall_not_mem]
      intro card hcard
      obtain ⟨id, tracked, htracked, -⟩ := default.mem_inSection.mp hcard
      simp [default] at htracked
    rw [hempty]
    cases cardSection with
    | _ => rfl

/-- A pinned agent goes away: its card is shown behind that of an agent nobody pinned. -/
theorem a_pinned_card_that_is_gone_is_last :
    let pinned : AgentState := ⟨⟨"box", "main", "1"⟩, none, none, none, none, none, none⟩
    let other : AgentState := ⟨⟨"box", "main", "2"⟩, none, none, none, none, none, none⟩
    let marks : AgentMarks := (AgentMarks.default.apply (agentKey pinned) (.pin true) 0).1
    let seeing (agents : List AgentState) : Overview :=
      { hosting agents with view := ⟨marks, .default, 0⟩ }
    let after := (exec step default [seeing [pinned, other], seeing [other]]).2.getLast?.getD blank
    after.recent.map (fun card => (card.agent, card.marks.pinned)) =
      [(agentKey other, false), (agentKey pinned, true)] := by
  decide +kernel

end AgentCardIndex

end SuperHerdr
