import SuperHerdr.Cards.Routes

/-!
# How long a card is tracked

A card is tracked until its live target no longer lists its agent, and then leaves one card in the
history; or until its target leaves the federation, and then leaves none. `cards_live_as_said` says so
of every run, and that no projection lists an agent twice where one of the cards is of an agent that
is gone, if and only if no agent is listed again while a card of it is in the history.
-/

namespace SuperHerdr

open Std Transducer

namespace AgentCardIndex

variable (index : AgentCardIndex) (overview : Overview) {id : AgentId}

/-! ### What is promised -/

/-- What an overview does to the tracked cards and to the history. -/
structure Lives (added : List AgentCard) : Prop where
  /-- The history is what was added, and what was there, up to its bound. -/
  history : (index.project overview).1.history = (added ++ index.history).take MAX_HISTORY_CARDS
  short : (index.project overview).1.history.length ≤ MAX_HISTORY_CARDS
  /-- A card that is tracked no longer: its live target does not list its agent, and one card is added
  for it; or its target is not in the federation, and none is. -/
  left : ∀ id ∈ index.tracked, id ∉ (index.project overview).1.tracked →
    (∃ target, overview.state.targets[id.targetSession]? = some target ∧
        target.connection = .live ∧
        (∀ snapshot, target.snapshot = some snapshot → snapshot.answering id = []) ∧
        (added.filter fun card => card.agent = id).length = 1) ∨
      id.targetSession ∉ overview.state.targets ∧ ∀ card ∈ added, card.agent ≠ id
  /-- Nothing else is added. -/
  added : ∀ card ∈ added, card.activity = .gone ∧ card.pane = none ∧ card.actionable = false ∧
    card.agent ∈ index.tracked ∧ card.agent ∉ (index.project overview).1.tracked
  /-- No card of a target that cannot be asked is lost. -/
  silent : ∀ id ∈ index.tracked, overview.silent id = true →
    id ∈ (index.project overview).1.tracked

/-- No agent is listed as gone and as present, or as gone twice. -/
structure Distinct (projection : AgentCardProjection) : Prop where
  gone : ((projection.cards.filter fun card => card.activity = .gone).map AgentCard.agent).Nodup
  present : ∀ card ∈ projection.cards, card.activity ≠ .gone →
    ∀ other ∈ projection.cards, other.activity = .gone → other.agent ≠ card.agent

/-- No agent is listed of which a card stays in the history. -/
def Unlisted : Prop :=
  ∀ card ∈ index.history.take (MAX_HISTORY_CARDS - (index.vanished overview).length),
    ∀ held ∈ overview.listed, held.agent ≠ card.agent

/-! ### What leaves -/

theorem mem_vanished (h : Lawful index) {card : AgentCard} : card ∈ index.vanished overview ↔
    ∃ tracked, index.tracked[card.agent]? = some tracked ∧ tracked.card = card ∧
      overview.seen.contains card.agent = false ∧ overview.answers card.agent = true := by
  rw [vanished, List.mem_map]
  constructor
  · rintro ⟨⟨id, tracked⟩, hmem, rfl⟩
    obtain ⟨hentry, hgone⟩ := List.mem_filter.mp hmem
    have htracked := ExtTreeMap.mem_toList_iff_getElem?_eq_some.mp hentry
    dsimp only at hgone ⊢
    rw [h.agent id tracked htracked]
    exact ⟨tracked, htracked, rfl, by simpa using hgone⟩
  · rintro ⟨tracked, htracked, hcard, hunseen, hanswers⟩
    refine ⟨(card.agent, tracked), List.mem_filter.mpr
      ⟨ExtTreeMap.mem_toList_iff_getElem?_eq_some.mpr htracked, ?_⟩, hcard⟩
    simp [hunseen, hanswers]

theorem nodup_vanished (h : Lawful index) :
    ((index.vanished overview).map AgentCard.agent).Nodup := by
  rw [vanished, List.map_map, List.nodup_iff_pairwise_ne, List.pairwise_map]
  exact h.pairwise.filter _

theorem map_agent_gone (cards : List AgentCard) :
    (cards.map AgentCardIndex.gone).map AgentCard.agent = cards.map AgentCard.agent := by
  rw [List.map_map]
  rfl

/-- What is tracked no longer was asked for, or its target is unknown. -/
theorem left_of_not_mem (hbefore : id ∈ index.tracked) (hafter : id ∉ (index.read overview).tracked) :
    overview.seen.contains id = false ∧ overview.silent id = false := by
  obtain ⟨tracked, htracked⟩ := Option.isSome_iff_exists.mp
    (ExtTreeMap.mem_iff_isSome_getElem?.mp hbefore)
  have hnone := ExtTreeMap.getElem?_eq_none hafter
  cases hseen : overview.seen[id]? with
  | some card =>
    obtain ⟨after, hsome, -⟩ := index.getElem?_read_of_seen overview hseen
    rw [hnone] at hsome
    cases hsome
  | none =>
    have hunseen : overview.seen.contains id = false := by
      rw [ExtTreeMap.contains_eq_isSome_getElem?, hseen]
      rfl
    refine ⟨hunseen, ?_⟩
    rw [index.getElem?_read_of_unseen overview hunseen, htracked] at hnone
    cases hsilent : overview.silent id with
    | false => rfl
    | true => simp [hsilent] at hnone

theorem not_mem_of_vanished (hunseen : overview.seen.contains id = false)
    (hanswers : overview.answers id = true) : id ∉ (index.read overview).tracked := by
  obtain ⟨target, htarget, hlive⟩ := overview.answers_iff.mp hanswers
  have hsilent : overview.silent id = false := by
    rw [Bool.eq_false_iff]
    intro hsilent
    obtain ⟨other, hother, hdead⟩ := overview.silent_iff.mp hsilent
    rw [htarget] at hother
    cases hother
    exact hdead hlive
  rw [ExtTreeMap.mem_iff_isSome_getElem?, index.getElem?_read_of_unseen overview hunseen, hsilent]
  simp

/-- **What an overview does to the tracked cards** and to the history. -/
theorem lives_project (h : Lawful index) :
    Lives index overview ((index.vanished overview).map AgentCardIndex.gone).reverse := by
  have hshort : (index.read overview).history.length ≤ MAX_HISTORY_CARDS := (h.read overview).short
  refine ⟨index.history_read overview h.short, hshort, ?_, ?_, ?_⟩
  · intro id hbefore hafter
    obtain ⟨tracked, htracked⟩ := Option.isSome_iff_exists.mp
      (ExtTreeMap.mem_iff_isSome_getElem?.mp hbefore)
    obtain ⟨hunseen, hloud⟩ := left_of_not_mem index overview hbefore hafter
    have hagent := h.agent id tracked htracked
    by_cases hanswers : overview.answers id = true
    · left
      obtain ⟨target, htarget, hlive⟩ := overview.answers_iff.mp hanswers
      refine ⟨target, htarget, hlive, fun snapshot hsnapshot => ?_, ?_⟩
      · rw [List.eq_nil_iff_forall_not_mem]
        intro agent hagent
        rw [overview.seen_of_answering htarget hsnapshot hagent] at hunseen
        cases hunseen
      · have hmem : tracked.card.agent ∈ (index.vanished overview).map AgentCard.agent := by
          refine List.mem_map_of_mem ((mem_vanished index overview h).mpr ⟨tracked, ?_⟩)
          rw [hagent]
          exact ⟨htracked, rfl, hunseen, hanswers⟩
        have hcount := List.count_eq_one_of_mem (nodup_vanished index overview h) hmem
        rw [← map_agent_gone, hagent, List.count_eq_countP, List.countP_map,
          List.countP_eq_length_filter] at hcount
        rw [List.filter_reverse, List.length_reverse, ← hcount]
        congr 1
    · right
      have hnone : overview.state.targets[id.targetSession]? = none := by
        cases htarget : overview.state.targets[id.targetSession]? with
        | none => rfl
        | some target =>
          exfalso
          by_cases hlive : target.connection = .live
          · exact hanswers (overview.answers_iff.mpr ⟨target, htarget, hlive⟩)
          · rw [overview.silent_iff.mpr ⟨target, htarget, hlive⟩] at hloud
            cases hloud
      refine ⟨fun hmem => ?_, fun card hcard => ?_⟩
      · rw [ExtTreeMap.mem_iff_isSome_getElem?, hnone] at hmem
        cases hmem
      · rw [List.mem_reverse, List.mem_map] at hcard
        obtain ⟨held, hheld, rfl⟩ := hcard
        obtain ⟨-, -, -, -, hasked⟩ := (mem_vanished index overview h).mp hheld
        intro hsame
        have hsame : held.agent = id := hsame
        exact hanswers (hsame ▸ hasked)
  · intro card hcard
    rw [List.mem_reverse, List.mem_map] at hcard
    obtain ⟨held, hheld, rfl⟩ := hcard
    obtain ⟨tracked, htracked, -, hunseen, hanswers⟩ := (mem_vanished index overview h).mp hheld
    refine ⟨rfl, rfl, rfl, ?_, not_mem_of_vanished index overview hunseen hanswers⟩
    exact ExtTreeMap.mem_iff_isSome_getElem?.mpr (by
      rw [show (AgentCardIndex.gone held).agent = held.agent from rfl, htracked]
      rfl)
  · intro id hbefore hsilent
    by_contra hafter
    rw [(left_of_not_mem index overview hbefore hafter).2] at hsilent
    cases hsilent

/-! ### What is listed twice -/

/-- The history is of as many agents, none of which is tracked. -/
structure Apart : Prop where
  nodup : (index.history.map AgentCard.agent).Nodup
  tracked : ∀ card ∈ index.history, card.agent ∉ index.tracked

/-- The cards of a projection that are gone are the history. -/
theorem gone_project (h : Lawful index) :
    (index.project overview).2.cards.filter (fun card => card.activity = .gone) =
      (index.read overview).history := by
  have hread := h.read overview
  have hnone : ∀ cardSection, ((index.read overview).inSection cardSection).filter
      (fun card => card.activity = .gone) = [] := by
    intro cardSection
    rw [List.filter_eq_nil_iff]
    intro card hcard
    obtain ⟨id, tracked, htracked, -, rfl⟩ := (index.read overview).mem_inSection.mp hcard
    simpa using hread.present id tracked htracked
  have hall : (index.read overview).history.filter (fun card => card.activity = .gone) =
      (index.read overview).history := by
    rw [List.filter_eq_self]
    intro card hcard
    simpa using (hread.gone card hcard).1
  have hcards : (index.project overview).2.cards = (index.read overview).inSection .needsYou ++
      (index.read overview).inSection .working ++
      ((index.read overview).inSection .recent ++ (index.read overview).history) := rfl
  rw [hcards]
  simp only [List.filter_append, hnone, hall, List.nil_append]

/-- A projection lists no agent twice exactly if the history is apart. -/
theorem distinct_project (h : Lawful index) :
    Distinct (index.project overview).2 ↔ Apart (index.read overview) := by
  have hread := h.read overview
  constructor
  · intro hdistinct
    have hgone := hdistinct.gone
    rw [gone_project index overview h] at hgone
    refine ⟨hgone, fun card hcard hmem => ?_⟩
    obtain ⟨tracked, htracked⟩ := Option.isSome_iff_exists.mp
      (ExtTreeMap.mem_iff_isSome_getElem?.mp hmem)
    have hshown : ∀ {card : AgentCard}, _ → card ∈ (index.project overview).2.cards :=
      (index.mem_cards_project overview).mpr
    exact hdistinct.present tracked.card (hshown (.inl ⟨_, tracked, htracked, rfl⟩))
      (hread.present _ tracked htracked) card (hshown (.inr hcard)) (hread.gone card hcard).1
      (hread.agent _ tracked htracked).symm
  · intro hapart
    refine ⟨?_, ?_⟩
    · rw [gone_project index overview h]
      exact hapart.nodup
    · intro card hcard hpresent other hother hgone hsame
      have hother : other ∈ (index.read overview).history := by
        rw [← gone_project index overview h]
        exact List.mem_filter.mpr ⟨hother, by simpa using hgone⟩
      rcases (index.mem_cards_project overview).mp hcard with ⟨id, tracked, htracked, rfl⟩ | hold
      · refine hapart.tracked other hother ?_
        rw [hsame, hread.agent id tracked htracked]
        exact ExtTreeMap.mem_iff_isSome_getElem?.mpr (by rw [htracked]; rfl)
      · exact hpresent (hread.gone card hold).1

/-- The history stays apart exactly if no agent is listed of which a card stays in it. -/
theorem apart_read (h : Lawful index) (hapart : Apart index) :
    Apart (index.read overview) ↔ Unlisted index overview := by
  have hhistory : (index.read overview).history =
      ((index.vanished overview).map AgentCardIndex.gone).reverse.take MAX_HISTORY_CARDS ++
        index.history.take (MAX_HISTORY_CARDS - (index.vanished overview).length) := by
    rw [index.history_read overview h.short, List.take_append, List.length_reverse, List.length_map]
  constructor
  · intro hafter card hcard held hheld hsame
    have hseen := overview.seen_of_listed hheld
    rw [ExtTreeMap.contains_eq_isSome_getElem?] at hseen
    obtain ⟨seen, hsome⟩ := Option.isSome_iff_exists.mp hseen
    obtain ⟨after, htracked, -⟩ := index.getElem?_read_of_seen overview hsome
    refine hafter.tracked card ?_ ?_
    · rw [hhistory]
      exact List.mem_append_right _ hcard
    · rw [← hsame]
      exact ExtTreeMap.mem_iff_isSome_getElem?.mpr (by rw [htracked]; rfl)
  · intro hunlisted
    have hnew : ∀ card ∈ ((index.vanished overview).map AgentCardIndex.gone).reverse.take
        MAX_HISTORY_CARDS, card.agent ∈ index.tracked ∧
          card.agent ∉ (index.read overview).tracked := by
      intro card hcard
      obtain ⟨-, -, -, hbefore, hafter⟩ :=
        (lives_project index overview h).added card (List.mem_of_mem_take hcard)
      exact ⟨hbefore, hafter⟩
    refine ⟨?_, ?_⟩
    · rw [hhistory, List.map_append, List.nodup_append]
      refine ⟨?_, ?_, ?_⟩
      · have hvanished := nodup_vanished index overview h
        rw [← map_agent_gone] at hvanished
        have hreversed := List.nodup_reverse.mpr hvanished
        rw [← List.map_reverse] at hreversed
        exact hreversed.sublist ((List.take_sublist _ _).map _)
      · exact hapart.nodup.sublist ((List.take_sublist _ _).map _)
      · intro first hfirst second hsecond hsame
        obtain ⟨card, hcard, rfl⟩ := List.mem_map.mp hfirst
        obtain ⟨old, hold, rfl⟩ := List.mem_map.mp hsecond
        refine hapart.tracked old (List.mem_of_mem_take hold) ?_
        rw [← hsame]
        exact (hnew card hcard).1
    · intro card hcard hmem
      rw [hhistory, List.mem_append] at hcard
      rcases hcard with hcard | hcard
      · exact (hnew card hcard).2 hmem
      · obtain ⟨after, hafter⟩ := Option.isSome_iff_exists.mp
          (ExtTreeMap.mem_iff_isSome_getElem?.mp hmem)
        rcases index.tracked_read overview hafter with
          ⟨seen, hseen, -⟩ | ⟨-, -, before, hbefore, -⟩
        · obtain ⟨held, hheld, -⟩ := overview.listed_of_seen hseen
          obtain ⟨hlisted, hagent⟩ := List.mem_filter.mp hheld
          exact hunlisted card hcard held hlisted (by simpa using hagent)
        · refine hapart.tracked card (List.mem_of_mem_take hcard) ?_
          exact ExtTreeMap.mem_iff_isSome_getElem?.mpr (by rw [hbefore]; rfl)

/-- **Cards live as said**: over every sequence of overviews, a card is tracked until its live target
no longer lists its agent, which adds one card to the history, or until its target is gone, which adds
none; and no projection lists an agent as gone that it lists elsewhere, if and only if no agent is
listed of which a card stays in the history. -/
theorem cards_live_as_said (overviews : List Overview) :
    AllSteps step (fun index overview => (∃ added, Lives index overview added) ∧
        Distinct (index.project overview).2) default overviews ↔
      AllSteps step Unlisted default overviews := by
  refine allSteps_congr_of_allSteps (I := fun index => Lawful index ∧ Apart index) ?_ ?_ ?_ overviews
  · rintro index overview ⟨h, -⟩ ⟨-, hdistinct⟩
    refine ⟨lawful_step index overview h, ?_⟩
    have hapart := (distinct_project index overview h).mp hdistinct
    exact ⟨hapart.nodup, hapart.tracked⟩
  · rintro index overview ⟨h, hapart⟩
    rw [distinct_project index overview h, apart_read index overview h hapart]
    exact and_iff_right ⟨_, lives_project index overview h⟩
  · refine ⟨lawful_default, ?_⟩
    constructor <;> simp [default]

/-- An agent is listed, goes away, comes back and goes away again: it is listed as gone and as present,
and then as gone twice. -/
theorem an_agent_that_comes_back_is_listed_twice :
    let agent : AgentState := ⟨⟨"box", "main", "1"⟩, none, none, none, none, none, none⟩
    let shown := (exec step default
      [hosting [agent], hosting [], hosting [agent], hosting []]).2.map fun projection =>
        projection.cards.map fun card => (card.agent, card.activity)
    shown = [[(agentKey agent, .unknown)], [(agentKey agent, .gone)],
      [(agentKey agent, .unknown), (agentKey agent, .gone)],
      [(agentKey agent, .gone), (agentKey agent, .gone)]] := by
  decide +kernel

end AgentCardIndex

end SuperHerdr
