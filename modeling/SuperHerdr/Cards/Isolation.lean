import SuperHerdr.Attention.Derivation
import SuperHerdr.Cards.Identity
import SuperHerdr.Cards.Order

/-!
# One target's cards among all others

The ranks of all cards come from one counter, so that the rank of a card depends on how many others
entered a section before it. What does not depend on them is where it stands among the cards of its own
target: a card that stays keeps a rank below all that are given out, and those that enter together get
theirs in the order of their identities (`compare_rank_congr`). So the cards of a target are the same
cards in the same order whatever the other targets do (`inbox_is_isolated`).

Projecting what was projected already tracks nothing new, and only what is shown moves the revision:
a revision stands for one inbox (`revision_names_inbox`).
-/

namespace SuperHerdr

open Std Transducer AttentionIndex

/-! ### Federations that were read -/

/-- A federation whose snapshots were read from what its hosts sent files everything under its own
name. -/
theorem keyed_of_fromValue {state : FederationState}
    (h : ∀ key target, state.targets[key]? = some target → target.key = key ∧
      ∀ snapshot, target.snapshot = some snapshot →
        ∃ value, snapshot = NormalizedSnapshot.fromValue key value) : state.Keyed := by
  rintro ⟨key, target⟩ hentry
  obtain ⟨hkey, hread⟩ := h key target (ExtTreeMap.mem_toList_iff_getElem?_eq_some.mp hentry)
  refine ⟨hkey, fun snapshot hsnapshot held hheld => ?_⟩
  obtain ⟨value, rfl⟩ := hread snapshot (Option.mem_def.mp hsnapshot)
  obtain ⟨hpane, hsession, -⟩ :=
    NormalizedSnapshot.exists_item (ExtTreeMap.mem_toList_iff_getElem?_eq_some.mp hheld)
  exact ⟨hpane, hsession⟩

theorem FederationState.Keyed.qualified {state : FederationState} (h : state.Keyed) :
    state.Qualified := by
  intro key target snapshot pane agent htarget hsnapshot hagent
  obtain ⟨hpane, hsession⟩ := h.agent htarget hsnapshot hagent
  rw [hpane, hsession]

/-! ### What is seen of one target -/

namespace Overview

/-- Two overviews know the same of one target, and of what is not the federation's. -/
structure Alike (key : TargetSession) (overview other : Overview) : Prop where
  qualified : overview.state.Qualified
  qualified' : other.state.Qualified
  target : overview.state.targets[key]? = other.state.targets[key]?
  attention : overview.attention = other.attention
  view : overview.view = other.view

variable {key : TargetSession} {overview other : Overview} {id : AgentId}

theorem Alike.symm (h : Alike key overview other) : Alike key other overview :=
  ⟨h.qualified', h.qualified, h.target.symm, h.attention.symm, h.view.symm⟩

theorem listedAs_of_absent (h : overview.state.Qualified)
    (htarget : overview.state.targets[id.targetSession]? = none) : overview.listedAs id = [] := by
  refine List.filter_eq_nil_iff.mpr fun card hcard => ?_
  obtain ⟨key, target, hheld, hlisted⟩ := overview.mem_listed.mp hcard
  obtain ⟨snapshot, pane, agent, hsnapshot, hagent, rfl⟩ := overview.mem_cardsOf.mp hlisted
  have hkey := h key target snapshot pane agent hheld hsnapshot hagent
  rw [decide_eq_true_eq]
  rintro rfl
  have hsession : (agentKey agent).targetSession = key := (targetSession_agentKey agent).trans hkey
  exact absurd (hsession ▸ htarget) (by rw [hheld]; exact Option.some_ne_none target)

theorem Alike.listedAs (h : Alike key overview other) (hid : id.targetSession = key) :
    overview.listedAs id = other.listedAs id := by
  subst hid
  cases htarget : other.state.targets[id.targetSession]? with
  | none =>
    rw [listedAs_of_absent h.qualified (h.target.trans htarget),
      listedAs_of_absent h.qualified' htarget]
  | some target =>
    rw [listedAs_of_qualified overview h.qualified (h.target.trans htarget),
      listedAs_of_qualified other h.qualified' htarget, h.attention, h.view]

theorem Alike.seen (h : Alike key overview other) (hid : id.targetSession = key) :
    overview.seen[id]? = other.seen[id]? := by
  rw [overview.getElem?_seen, other.getElem?_seen, h.listedAs hid]

theorem Alike.silent (h : Alike key overview other) (hid : id.targetSession = key) :
    overview.silent id = other.silent id := by
  rw [Overview.silent, hid, h.target, Overview.silent, hid]

end Overview

namespace AgentCardIndex

variable (index : AgentCardIndex) {overview other : Overview} {id id' : AgentId}

/-! ### Ranks that are given out together -/

/-- The card of an agent is in this section already. -/
def Stays (id : AgentId) (cardSection : AgentCardSection) : Prop :=
  ∃ before, index.tracked[id]? = some before ∧ before.cardSection = cardSection

theorem rank_lt_of_stays (h : Lawful index) {after : Tracked}
    (hafter : (index.read overview).tracked[id]? = some after)
    (hstays : index.Stays id after.cardSection) :
    after.rank < index.nextRank := by
  obtain ⟨before, hbefore, hsection⟩ := hstays
  rw [index.rank_read hbefore hafter hsection.symm]
  exact h.rank id before hbefore

theorem le_rank_of_not_stays {after : Tracked}
    (hafter : (index.read overview).tracked[id]? = some after)
    (henters : ¬index.Stays id after.cardSection) : index.nextRank ≤ after.rank :=
  index.rank_read_of_entered hafter fun before hbefore hsection =>
    henters ⟨before, hbefore, hsection⟩

/-- Of cards that are tracked one after the other, those that enter a section get later ranks. -/
theorem pairwise_foldl_track (entries : List (AgentId × AgentCard))
    (hnodup : (entries.map Prod.fst).Nodup) :
    entries.Pairwise fun left right => ∀ l r : Tracked,
      (entries.foldl track index).tracked[left.1]? = some l →
      (entries.foldl track index).tracked[right.1]? = some r →
      ¬index.Stays left.1 left.2.cardSection → ¬index.Stays right.1 right.2.cardSection →
      l.rank < r.rank := by
  induction entries generalizing index with
  | nil => exact List.Pairwise.nil
  | cons entry entries ih =>
    obtain ⟨id, card⟩ := entry
    rw [List.map_cons, List.nodup_cons] at hnodup
    have hlater : ∀ later ∈ entries, later.1 ≠ id := fun later hmem hsame =>
      hnodup.1 (List.mem_map.mpr ⟨later, hmem, hsame⟩)
    have hstays : ∀ later ∈ entries, ∀ cardSection,
        (index.track (id, card)).Stays later.1 cardSection ↔ index.Stays later.1 cardSection := by
      intro later hmem cardSection
      rw [Stays, getElem?_track index (id, card) (hlater later hmem).symm, Stays]
    rw [List.foldl_cons]
    refine List.pairwise_cons.mpr ⟨?_, ?_⟩
    · intro later hmem l r hl hr henters henters'
      obtain ⟨held, hheld, hranks⟩ := @ranks_track index id card
      rw [getElem?_foldl_track _ entries hlater, hheld] at hl
      obtain rfl := Option.some.inj hl
      obtain ⟨last, hlast, hnext⟩ := ranks_foldl_track (index.track (id, card)) entries hnodup.2 hmem
      rw [hr] at hlast
      obtain rfl := Option.some.inj hlast
      have hfirst := (hranks.entered fun before hbefore hsection =>
        henters ⟨before, hbefore, hsection⟩).2
      have hsecond := (hnext.entered fun before hbefore hsection =>
        henters' ((hstays later hmem _).mp ⟨before, hbefore, hsection⟩)).1
      exact hfirst.trans_le hsecond
    · refine (ih (index.track (id, card)) hnodup.2).imp_of_mem ?_
      intro left right hleft hright hlt l r hl hr henters henters'
      exact hlt l r hl hr (fun hstay => henters ((hstays left hleft _).mp hstay))
        fun hstay => henters' ((hstays right hright _).mp hstay)

theorem compare_asymm (left right : AgentId × AgentCard) (h : compare left.1 right.1 = .lt) :
    ¬compare right.1 left.1 = .lt := by
  have hswap : compare right.1 left.1 = (compare left.1 right.1).swap := OrientedCmp.eq_swap
  rw [hswap, h]
  decide

/-- **Cards that enter together are ranked by their identities.** -/
theorem rank_lt_of_compare {left right : Tracked} (h : compare id id' = .lt)
    (hleft : (index.read overview).tracked[id]? = some left)
    (hright : (index.read overview).tracked[id']? = some right)
    (henters : ¬index.Stays id left.cardSection) (henters' : ¬index.Stays id' right.cardSection) :
    left.rank < right.rank := by
  have hseen : ∀ {id : AgentId} {after : Tracked}, (index.read overview).tracked[id]? = some after →
      ¬index.Stays id after.cardSection → ∃ card, (id, card) ∈ overview.seen.toList ∧
        card.cardSection = after.cardSection := by
    intro id after hafter henters
    rcases index.tracked_read overview hafter with
      ⟨card, hcard, hranks⟩ | ⟨-, -, before, hbefore, rfl⟩
    · exact ⟨card, ExtTreeMap.mem_toList_iff_getElem?_eq_some.mpr hcard, hranks.cardSection.symm⟩
    · exact absurd ⟨before, hbefore, rfl⟩ henters
  obtain ⟨card, hcard, hsection⟩ := hseen hleft henters
  obtain ⟨card', hcard', hsection'⟩ := hseen hright henters'
  -- settling leaves the cards that are seen where they are
  have hsettled : ∀ {id : AgentId} {card : AgentCard}, (id, card) ∈ overview.seen.toList →
      ∀ cardSection, (index.settle overview).Stays id cardSection ↔ index.Stays id cardSection := by
    intro id card hmem cardSection
    have hcontains : overview.seen.contains id = true := by
      rw [ExtTreeMap.contains_eq_isSome_getElem?, ExtTreeMap.mem_toList_iff_getElem?_eq_some.mp hmem]
      rfl
    rw [Stays, getElem?_settle, if_pos hcontains, Stays]
  have hbefore : [(id, card), (id', card')].Sublist overview.seen.toList :=
    (pair_sublist_iff compare_asymm ExtTreeMap.ordered_keys_toList hcard hcard').mpr h
  have hpair := List.pairwise_iff_forall_sublist.mp
    (pairwise_foldl_track (index.settle overview) overview.seen.toList (nodup_toList overview.seen))
    hbefore
  refine hpair left right hleft hright ?_ ?_
  · rw [hsettled hcard, hsection]
    exact henters
  · rw [hsettled hcard', hsection']
    exact henters'

/-! ### The cards of one target -/

variable {key : TargetSession}

/-- What becomes of a card of one target does not depend on the others, but for its rank. -/
theorem tracked_read_congr (h : Overview.Alike key overview other) (hid : id.targetSession = key) :
    (index.read overview).tracked[id]?.map (fun tracked => (tracked.card, tracked.cardSection)) =
      (index.read other).tracked[id]?.map fun tracked => (tracked.card, tracked.cardSection) := by
  have hsame := h.seen hid
  cases hseen : other.seen[id]? with
  | some card =>
    obtain ⟨after, hafter, hranks⟩ := index.getElem?_read_of_seen overview (hsame.trans hseen)
    obtain ⟨after', hafter', hranks'⟩ := index.getElem?_read_of_seen other hseen
    rw [hafter, hafter', Option.map_some, Option.map_some, hranks.card, hranks'.card,
      hranks.cardSection, hranks'.cardSection]
  | none =>
    have hunseen : ∀ {overview : Overview}, overview.seen[id]? = none →
        overview.seen.contains id = false := by
      intro overview hnone
      rw [ExtTreeMap.contains_eq_isSome_getElem?, hnone]
      rfl
    rw [getElem?_read_of_unseen index overview (hunseen (hsame.trans hseen)),
      getElem?_read_of_unseen index other (hunseen hseen), h.silent hid]

/-- **The ranks of two cards of one target compare as they do without the others.** -/
theorem compare_rank_congr (hlawful : Lawful index) {left right left' right' : Tracked}
    (hleft : (index.read overview).tracked[id]? = some left)
    (hright : (index.read overview).tracked[id']? = some right)
    (hleft' : (index.read other).tracked[id]? = some left')
    (hright' : (index.read other).tracked[id']? = some right')
    (hsection : left'.cardSection = left.cardSection)
    (hsection' : right'.cardSection = right.cardSection) :
    compare left.rank right.rank = compare left'.rank right'.rank := by
  have hkeeps : ∀ {id : AgentId} {after after' : Tracked},
      (index.read overview).tracked[id]? = some after → (index.read other).tracked[id]? = some after' →
      after'.cardSection = after.cardSection → index.Stays id after.cardSection →
      after.rank = after'.rank := by
    rintro id after after' hafter hafter' hsame ⟨before, hbefore, hstays⟩
    rw [index.rank_read hbefore hafter hstays.symm,
      index.rank_read hbefore hafter' (hsame.trans hstays.symm)]
  by_cases hstays : index.Stays id left.cardSection
  · by_cases hstays' : index.Stays id' right.cardSection
    · rw [hkeeps hleft hleft' hsection hstays, hkeeps hright hright' hsection' hstays']
    · -- one that stays is before one that enters
      have hfirst := index.rank_lt_of_stays hlawful hleft hstays
      have hfirst' := index.rank_lt_of_stays hlawful hleft' (hsection ▸ hstays)
      have hlast := index.le_rank_of_not_stays hright hstays'
      have hlast' := index.le_rank_of_not_stays hright' (hsection' ▸ hstays')
      rw [Nat.compare_eq_lt.mpr (hfirst.trans_le hlast),
        Nat.compare_eq_lt.mpr (hfirst'.trans_le hlast')]
  · by_cases hstays' : index.Stays id' right.cardSection
    · have hfirst := index.rank_lt_of_stays hlawful hright hstays'
      have hfirst' := index.rank_lt_of_stays hlawful hright' (hsection' ▸ hstays')
      have hlast := index.le_rank_of_not_stays hleft hstays
      have hlast' := index.le_rank_of_not_stays hleft' (hsection ▸ hstays)
      rw [Nat.compare_eq_gt.mpr (hfirst.trans_le hlast),
        Nat.compare_eq_gt.mpr (hfirst'.trans_le hlast')]
    · -- two that enter are in the order of their identities
      have henters : ¬index.Stays id left'.cardSection := hsection ▸ hstays
      have henters' : ¬index.Stays id' right'.cardSection := hsection' ▸ hstays'
      cases hcompare : compare id id' with
      | lt =>
        rw [Nat.compare_eq_lt.mpr (index.rank_lt_of_compare hcompare hleft hright hstays hstays'),
          Nat.compare_eq_lt.mpr
            (index.rank_lt_of_compare hcompare hleft' hright' henters henters')]
      | eq =>
        obtain rfl := LawfulEqCmp.eq_of_compare hcompare
        obtain rfl := Option.some.inj (hleft.symm.trans hright)
        obtain rfl := Option.some.inj (hleft'.symm.trans hright')
        exact (Nat.compare_eq_eq.mpr rfl).trans (Nat.compare_eq_eq.mpr rfl).symm
      | gt =>
        have hswap : compare id' id = (compare id id').swap := OrientedCmp.eq_swap
        have hback : compare id' id = .lt := by
          rw [hswap, hcompare]
          rfl
        rw [Nat.compare_eq_gt.mpr (index.rank_lt_of_compare hback hright hleft hstays' hstays),
          Nat.compare_eq_gt.mpr
            (index.rank_lt_of_compare hback hright' hleft' henters' henters)]

/-- The cards of one target. -/
def ofTarget (key : TargetSession) (cards : List AgentCard) : List AgentCard :=
  cards.filter fun card => card.agent.targetSession = key

theorem mem_ofTarget {cards : List AgentCard} {card : AgentCard} :
    card ∈ ofTarget key cards ↔ card ∈ cards ∧ card.agent.targetSession = key := by
  rw [ofTarget, List.mem_filter, decide_eq_true_eq]

/-- One card is ahead of another where they are tracked. -/
def Leads (index : AgentCardIndex) (card later : AgentCard) : Prop :=
  ∃ left right, index.tracked[card.agent]? = some left ∧ index.tracked[later.agent]? = some right ∧
    Ahead left right

theorem leads_asymm {card later : AgentCard} (h : index.Leads card later) :
    ¬index.Leads later card := by
  obtain ⟨left, right, hleft, hright, hahead⟩ := h
  rintro ⟨right', left', hright', hleft', hback⟩
  obtain rfl := Option.some.inj (hleft.symm.trans hleft')
  obtain rfl := Option.some.inj (hright.symm.trans hright')
  exact ahead_asymm left right hahead hback

theorem pairwise_leads (h : Lawful index) (cardSection : AgentCardSection) :
    (index.inSection cardSection).Pairwise index.Leads := by
  rw [inSection_eq, List.pairwise_map]
  refine (pairwise_ordered index h).imp_of_mem fun {left right} hleft hright hahead => ?_
  obtain ⟨id, hid, -⟩ := index.mem_ordered.mp hleft
  obtain ⟨id', hid', -⟩ := index.mem_ordered.mp hright
  refine ⟨left, right, ?_, ?_, hahead⟩
  · rw [h.agent id left hid]
    exact hid
  · rw [h.agent id' right hid']
    exact hid'

/-- A card of one target that is shown with the one federation is shown with the other. -/
theorem mem_inSection_congr (h : Overview.Alike key overview other) (hlawful : Lawful index)
    {cardSection : AgentCardSection} {card : AgentCard} (hkey : card.agent.targetSession = key)
    (hcard : card ∈ (index.read overview).inSection cardSection) :
    ∃ left left', (index.read overview).tracked[card.agent]? = some left ∧
      (index.read other).tracked[card.agent]? = some left' ∧ left.card = card ∧ left'.card = card ∧
      left.cardSection = cardSection ∧ left'.cardSection = cardSection := by
  obtain ⟨left, hleft, hsection, hheld⟩ := tracked_of_mem _ (hlawful.read overview) hcard
  have hsame := index.tracked_read_congr h hkey
  rw [hleft, Option.map_some, eq_comm, Option.map_eq_some_iff] at hsame
  obtain ⟨left', hleft', heq⟩ := hsame
  rw [Prod.mk.injEq] at heq
  exact ⟨left, left', hleft, hleft', hheld, heq.1.trans hheld, hsection, heq.2.trans hsection⟩

/-- **The cards of one target are the same whatever the others do**, and in the same order. -/
theorem inSection_congr (h : Overview.Alike key overview other) (hlawful : Lawful index)
    (cardSection : AgentCardSection) :
    ofTarget key ((index.read overview).inSection cardSection) =
      ofTarget key ((index.read other).inSection cardSection) := by
  have hmem : ∀ card, card ∈ ofTarget key ((index.read overview).inSection cardSection) ↔
      card ∈ ofTarget key ((index.read other).inSection cardSection) := by
    intro card
    rw [mem_ofTarget, mem_ofTarget]
    refine and_congr_left fun hkey => ⟨fun hcard => ?_, fun hcard => ?_⟩
    · obtain ⟨-, left', -, hleft', -, hheld, -, hsection⟩ :=
        index.mem_inSection_congr h hlawful hkey hcard
      exact (mem_inSection _).mpr ⟨card.agent, left', hleft', hsection, hheld⟩
    · obtain ⟨-, left', -, hleft', -, hheld, -, hsection⟩ :=
        index.mem_inSection_congr h.symm hlawful hkey hcard
      exact (mem_inSection _).mpr ⟨card.agent, left', hleft', hsection, hheld⟩
  have hleads : (ofTarget key ((index.read overview).inSection cardSection)).Pairwise
      (index.read overview).Leads :=
    (pairwise_leads _ (hlawful.read overview) cardSection).filter _
  have hleads' : (ofTarget key ((index.read other).inSection cardSection)).Pairwise
      (index.read overview).Leads := by
    refine ((pairwise_leads _ (hlawful.read other) cardSection).filter _).imp_of_mem ?_
    rintro card later hcard hlater ⟨left', right', hleft', hright', hahead⟩
    obtain ⟨hcard, hkey⟩ := mem_ofTarget.mp ((hmem card).mpr hcard)
    obtain ⟨hlater, hkey'⟩ := mem_ofTarget.mp ((hmem later).mpr hlater)
    obtain ⟨left, same, hleft, hsame, hcardLeft, hcardLeft', hsection, hsectionLeft⟩ :=
      index.mem_inSection_congr h hlawful hkey hcard
    obtain ⟨right, same', hright, hsame', hcardRight, hcardRight', hsection', hsectionRight⟩ :=
      index.mem_inSection_congr h hlawful hkey' hlater
    obtain rfl := Option.some.inj (hleft'.symm.trans hsame)
    obtain rfl := Option.some.inj (hright'.symm.trans hsame')
    refine ⟨left, right, hleft, hright, ?_⟩
    have hrank := index.compare_rank_congr hlawful hleft hright hleft' hright'
      (hsectionLeft.trans hsection.symm) (hsectionRight.trans hsection'.symm)
    rw [Ahead, order, hcardLeft, hcardRight, hrank]
    rw [Ahead, order, hcardLeft', hcardRight'] at hahead
    exact hahead
  have hnodup : ∀ {cards : List AgentCard}, cards.Pairwise (index.read overview).Leads →
      cards.Nodup := by
    refine fun {cards} hcards => hcards.imp fun {card later} hlead hsame => ?_
    subst hsame
    exact (index.read overview).leads_asymm hlead hlead
  refine List.Perm.eq_of_pairwise ?_ hleads hleads'
    ((List.perm_ext_iff_of_nodup (hnodup hleads) (hnodup hleads')).mpr hmem)
  intro card later _ _ hlead hback
  exact absurd hback ((index.read overview).leads_asymm hlead)

/-! ### The same overview again -/

theorem seen_or_silent {after : Tracked} (h : (index.read overview).tracked[id]? = some after) :
    overview.seen.contains id = true ∨ overview.silent id = true := by
  rcases index.tracked_read overview h with ⟨card, hcard, -⟩ | ⟨-, hsilent, -⟩
  · refine .inl ?_
    rw [ExtTreeMap.contains_eq_isSome_getElem?, hcard]
    rfl
  · exact .inr hsilent

theorem not_answers_of_silent (h : overview.silent id = true) : overview.answers id = false := by
  rw [← Bool.not_eq_true]
  intro hanswers
  obtain ⟨target, htarget, hlive⟩ := overview.answers_iff.mp hanswers
  obtain ⟨same, hsame, hdead⟩ := overview.silent_iff.mp h
  rw [htarget] at hsame
  obtain rfl := Option.some.inj hsame
  exact hdead hlive

theorem vanished_of_read {index again : AgentCardIndex}
    (h : again.tracked = (index.read overview).tracked) : again.vanished overview = [] := by
  refine List.map_eq_nil_iff.mpr (List.filter_eq_nil_iff.mpr fun entry hentry => ?_)
  rw [h] at hentry
  have hheld := ExtTreeMap.mem_toList_iff_getElem?_eq_some.mp hentry
  rcases index.seen_or_silent hheld with hseen | hsilent
  · simp [hseen]
  · simp [not_answers_of_silent hsilent]

/-- **An overview that was just read** leaves what is tracked as it is. -/
theorem tracked_read_read {index again : AgentCardIndex}
    (h : again.tracked = (index.read overview).tracked) :
    (again.read overview).tracked = again.tracked := by
  refine ExtTreeMap.ext_getElem? fun id => ?_
  cases hseen : overview.seen[id]? with
  | some card =>
    obtain ⟨first, hfirst, hranks⟩ := index.getElem?_read_of_seen overview hseen
    obtain ⟨second, hsecond, hagain⟩ := again.getElem?_read_of_seen overview hseen
    rw [← h] at hfirst
    have hrank : second.rank = first.rank := hagain.kept first hfirst hranks.cardSection
    rw [hsecond, hfirst]
    refine congrArg some ?_
    calc second = ⟨second.rank, second.cardSection, second.card⟩ := rfl
      _ = ⟨first.rank, first.cardSection, first.card⟩ := by
          rw [hrank, hagain.cardSection, hranks.cardSection, hagain.card, hranks.card]
  | none =>
    have hunseen : overview.seen.contains id = false := by
      rw [ExtTreeMap.contains_eq_isSome_getElem?, hseen]
      rfl
    rw [again.getElem?_read_of_unseen overview hunseen, h,
      index.getElem?_read_of_unseen overview hunseen]
    split
    · rw [Option.map_map]
      rfl
    · rfl

theorem history_read_read {index again : AgentCardIndex}
    (h : again.tracked = (index.read overview).tracked)
    (hshort : again.history.length ≤ MAX_HISTORY_CARDS) :
    (again.read overview).history = again.history := by
  rw [history_read _ _ hshort, vanished_of_read h, List.map_nil, List.reverse_nil, List.nil_append,
    List.take_of_length_le hshort]

/-- What a projection shows, without its number. -/
def shown (projection : AgentCardProjection) : PublishedCards :=
  ⟨projection.needsYou, projection.working, projection.recent⟩

theorem published_project (overview : Overview) :
    (index.project overview).1.published = some (shown (index.project overview).2) ∧
      (index.project overview).1.revision = (index.project overview).2.revision :=
  ⟨rfl, rfl⟩

/-- Reading an overview shows nothing yet. -/
theorem published_read (overview : Overview) :
    (index.read overview).published = index.published ∧
      (index.read overview).revision = index.revision := by
  have hsettled : (index.settle overview).published = index.published ∧
      (index.settle overview).revision = index.revision :=
    List.foldlRecOn (motive := fun self : AgentCardIndex =>
      self.published = index.published ∧ self.revision = index.revision)
      (index.vanished overview) retire ⟨rfl, rfl⟩ fun _ hself _ _ => hself
  refine List.foldlRecOn (motive := fun self : AgentCardIndex =>
    self.published = index.published ∧ self.revision = index.revision)
    overview.seen.toList track hsettled fun self hself entry _ => ?_
  rw [track]
  split
  · exact hself
  · exact hself

/-- **The number moves with what is shown.** -/
theorem revision_project (overview : Overview) : (index.project overview).2.revision =
    if index.published = some (shown (index.project overview).2) then index.revision
    else index.revision + 1 := by
  obtain ⟨hpublished, hrevision⟩ := index.published_read overview
  rw [← hpublished, ← hrevision]
  rfl

theorem shown_project (overview : Overview) : shown (index.project overview).2 =
    ⟨(index.read overview).inSection .needsYou, (index.read overview).inSection .working,
      (index.read overview).inSection .recent ++ (index.read overview).history⟩ := rfl

theorem eq_of_shown {projection again : AgentCardProjection}
    (hversion : projection.version = again.version) (hrevision : projection.revision = again.revision)
    (hshown : shown projection = shown again) : projection = again := by
  cases projection
  cases again
  simp only [shown, PublishedCards.mk.injEq] at hversion hrevision hshown
  obtain ⟨rfl, rfl, rfl⟩ := hshown
  rw [hversion, hrevision]

/-- **The same overview again** is shown as it was, and under the same number. -/
theorem project_again (h : Lawful index) (overview : Overview) :
    ((index.project overview).1.project overview).2 = (index.project overview).2 := by
  have hread := h.read overview
  have htracked : ((index.project overview).1.read overview).tracked =
      (index.read overview).tracked := tracked_read_read rfl
  have hhistory : ((index.project overview).1.read overview).history =
      (index.read overview).history := history_read_read rfl hread.short
  have hsection : ∀ cardSection, ((index.project overview).1.read overview).inSection cardSection =
      (index.read overview).inSection cardSection := by
    intro cardSection
    rw [inSection, htracked, inSection]
  have hshown : shown ((index.project overview).1.project overview).2 =
      shown (index.project overview).2 := by
    rw [shown_project, shown_project, hsection, hsection, hsection, hhistory]
  obtain ⟨hpublished, hrevision⟩ := index.published_project overview
  have hsame := (index.project overview).1.revision_project overview
  rw [hshown, if_pos hpublished, hrevision] at hsame
  exact eq_of_shown rfl hsame hshown

/-! ### What a number stands for -/

/-- A later projection has a later number, or is the same projection. -/
def Renews (projection later : AgentCardProjection) : Prop :=
  projection.revision ≤ later.revision ∧ (projection.revision = later.revision → projection = later)

theorem Renews.trans {projection later last : AgentCardProjection} (h : Renews projection later)
    (hlast : Renews later last) : Renews projection last := by
  refine ⟨Nat.le_trans h.1 hlast.1, fun heq => ?_⟩
  have hsame : projection.revision = later.revision := Nat.le_antisymm h.1 (heq ▸ hlast.1)
  rw [h.2 hsame, hlast.2 (hsame ▸ heq)]

theorem version_project (overview : Overview) :
    (index.project overview).2.version = AGENT_CARD_PROJECTION_VERSION := rfl

theorem renews_project (before overview : Overview) : Renews (index.project before).2
    ((index.project before).1.project overview).2 := by
  obtain ⟨hpublished, hrevision⟩ := index.published_project before
  have hnext := (index.project before).1.revision_project overview
  rw [hpublished, hrevision] at hnext
  split_ifs at hnext with hshown
  · have hversion := (index.version_project before).trans
      ((index.project before).1.version_project overview).symm
    exact ⟨Nat.le_of_eq hnext.symm, fun _ => eq_of_shown hversion hnext.symm (Option.some.inj hshown)⟩
  · exact ⟨Nat.le.intro hnext.symm, fun heq => absurd (heq.trans hnext) (Nat.ne_of_lt (Nat.lt_succ_self _))⟩

theorem renews_exec (before : Overview) (overviews : List Overview) :
    ((index.project before).2 :: (exec step (index.project before).1 overviews).2).Pairwise Renews := by
  induction overviews generalizing index before with
  | nil => exact List.pairwise_singleton Renews _
  | cons overview overviews ih =>
    -- the head is related to the next projection, and through it to all later ones
    have hlater := ih (index.project before).1 overview
    have hnext := index.renews_project before overview
    refine List.pairwise_cons.mpr ⟨fun later hmem => ?_, hlater⟩
    rcases List.mem_cons.mp hmem with rfl | hmem
    · exact hnext
    · exact hnext.trans (List.rel_of_pairwise_cons hlater hmem)

/-- **A number stands for one inbox.** Over every run the numbers of the projections never fall, and two
projections of one run under the same number are the same. -/
theorem revision_names_inbox (overviews : List Overview) :
    (exec step default overviews).2.Pairwise fun earlier later =>
      earlier.revision ≤ later.revision ∧ (earlier.revision = later.revision → earlier = later) := by
  cases overviews with
  | nil => exact List.Pairwise.nil
  | cons overview overviews => exact renews_exec default overview overviews

/-! ### What a projection promises of one target -/

theorem lawful_exec (overviews : List Overview) : Lawful (exec step default overviews).1 :=
  exec_invariant (I := Lawful) lawful_step lawful_default overviews

/-- **The inbox of one target is isolated.** After any run, two overviews that know the same of a target,
and of the history, the marks, the names and the time, are projected to the same cards of it that are
there, in the same order in each section. The same overview again gives the same projection, and the
number of a projection is the one before it, or the next one if it shows anything else. -/
theorem inbox_is_isolated (overviews : List Overview) {key : TargetSession}
    {overview other : Overview} (h : Overview.Alike key overview other) :
    let index := (exec step default overviews).1
    (∀ cardSection, ofTarget key (present (index.project overview).2 cardSection) =
      ofTarget key (present (index.project other).2 cardSection)) ∧
    (∀ next : Overview,
      ((index.project next).1.project next).2 = (index.project next).2 ∧
      ((index.project overview).1.project next).2.revision =
        if shown ((index.project overview).1.project next).2 = shown (index.project overview).2 then
          (index.project overview).2.revision
        else (index.project overview).2.revision + 1) ∧
    (default.project overview).2.revision = 1 := by
  intro index
  have hlawful : Lawful index := lawful_exec overviews
  refine ⟨fun cardSection => ?_, fun next => ⟨index.project_again hlawful next, ?_⟩, ?_⟩
  · rw [present_project index (hlawful.read overview), present_project index (hlawful.read other)]
    exact index.inSection_congr h hlawful cardSection
  · obtain ⟨hpublished, hrevision⟩ := index.published_project overview
    rw [revision_project, hpublished, hrevision]
    refine if_congr ⟨fun heq => ?_, fun heq => ?_⟩ rfl rfl
    · exact (Option.some.inj heq).symm
    · rw [heq]
  · rw [revision_project]
    exact if_neg (Option.some_ne_none _).symm

/-- An agent is shown alone, and beside a card of another target that is ranked before it. -/
theorem inbox_is_isolated_beside :
    let alone : Overview :=
      ⟨Attentive.hosting [Attentive.agentAs "blocked" none], .default, ⟨.default, .default, 0⟩⟩
    let beside : Overview := { alone with
      state := besideAttic (Attentive.hosting [Attentive.agentAs "blocked" none]) "blocked" }
    ofTarget Broker.pane₁.targetSession (present (default.project alone).2 .needsYou) =
        ofTarget Broker.pane₁.targetSession (present (default.project beside).2 .needsYou) ∧
      (default.project alone).1.tracked.values.map (fun held => (held.card.pane, held.rank)) =
        [(some Broker.pane₁, 0)] ∧
      (default.project beside).1.tracked.values.map (fun held => (held.card.pane, held.rank)) =
        [(some atticPane, 0), (some Broker.pane₁, 1)] := by
  intro alone beside
  have hkeyed : alone.state.Keyed := by decide +kernel
  have hkeyed' : beside.state.Keyed := by decide +kernel
  have halike : Overview.Alike Broker.pane₁.targetSession alone beside :=
    ⟨hkeyed.qualified, hkeyed'.qualified, by decide +kernel, rfl, rfl⟩
  exact ⟨(inbox_is_isolated [] halike).1 .needsYou, by decide +kernel, by decide +kernel⟩

end AgentCardIndex

end SuperHerdr
