import SuperHerdr.Cards.Index

/-!
# Where a card leads

A card says whether its agent can be opened, and `resolve` decides it anew from the federation.
`cards_route_exactly` says that the two agree on every card of every projection, as long as no agent
that went away, and whose last card is still shown, has come back.
-/

namespace SuperHerdr

open Std Transducer

/-! ### Qualified federations -/

/-- The agents of a snapshot are qualified by the key of their target. -/
def FederationState.Qualified (state : FederationState) : Prop :=
  ∀ (key : TargetSession) (target : TargetRuntimeState) (snapshot : NormalizedSnapshot)
    (pane : PaneId) (agent : AgentState), state.targets[key]? = some target →
    target.snapshot = some snapshot → snapshot.agents[pane]? = some agent →
    agent.pane.targetSession = key

/-- Two agents of a federation answer to an identity. -/
def FederationState.Ambiguous (state : FederationState) (id : AgentId) : Prop :=
  ∃ (target : TargetRuntimeState) (snapshot : NormalizedSnapshot) (pane other : PaneId)
    (agent more : AgentState), state.targets[id.targetSession]? = some target ∧
    target.snapshot = some snapshot ∧ pane ≠ other ∧ snapshot.agents[pane]? = some agent ∧
    snapshot.agents[other]? = some more ∧ agentKey agent = id ∧ agentKey more = id

/-- A live target lists one agent that answers to an identity, in a pane that it has. -/
def FederationState.Lists (state : FederationState) (id : AgentId) : Prop :=
  ∃ (target : TargetRuntimeState) (snapshot : NormalizedSnapshot) (found : AgentState),
    state.targets[id.targetSession]? = some target ∧ target.connection = .live ∧
    target.snapshot = some snapshot ∧ snapshot.answering id = [found] ∧
    snapshot.panes.contains found.pane = true

/-- Of a list with distinct keys, where only one key gives anything. -/
theorem flatMap_of_key {κ β γ : Type} {entries : List (κ × β)} {key : κ} {f : κ × β → List γ}
    (hnodup : (entries.map Prod.fst).Nodup)
    (hother : ∀ entry ∈ entries, entry.1 ≠ key → f entry = []) :
    (∀ value, (key, value) ∈ entries → entries.flatMap f = f (key, value)) ∧
      ((∀ value, (key, value) ∉ entries) → entries.flatMap f = []) := by
  induction entries with
  | nil => simp
  | cons entry entries ih =>
    rw [List.map_cons, List.nodup_cons] at hnodup
    have ih := ih hnodup.2 fun other hmem => hother other (List.mem_cons_of_mem entry hmem)
    obtain ⟨held, value⟩ := entry
    rw [List.flatMap_cons]
    by_cases hsame : held = key
    · subst hsame
      have hrest : entries.flatMap f = [] :=
        ih.2 fun value hmem => hnodup.1 (List.mem_map.mpr ⟨(held, value), hmem, rfl⟩)
      rw [hrest, List.append_nil]
      refine ⟨fun found hmem => ?_, fun hnone => absurd List.mem_cons_self (hnone value)⟩
      rcases List.mem_cons.mp hmem with heq | hmem
      · rw [heq]
      · exact absurd (List.mem_map.mpr ⟨(held, found), hmem, rfl⟩) hnodup.1
    · rw [hother (held, value) List.mem_cons_self hsame, List.nil_append]
      refine ⟨fun found hmem => ?_, fun hnone => ?_⟩
      · rcases List.mem_cons.mp hmem with heq | hmem
        · exact absurd (congrArg Prod.fst heq).symm hsame
        · exact ih.1 found hmem
      · exact ih.2 fun found hmem => hnone found (List.mem_cons_of_mem (held, value) hmem)

namespace Overview

variable (overview : Overview) {id : AgentId}

/-- In a qualified federation the cards of an identity are those of the agents that answer to it on
its own target. -/
theorem listedAs_of_qualified (h : overview.state.Qualified) {target : TargetRuntimeState}
    (htarget : overview.state.targets[id.targetSession]? = some target) :
    overview.listedAs id = (target.snapshot.map fun snapshot => (snapshot.answering id).map
      (buildCard overview.attention overview.view snapshot (target.connection = .live))).getD [] := by
  have hnodup : (overview.state.targets.toList.map Prod.fst).Nodup := by
    rw [ExtTreeMap.map_fst_toList_eq_keys]
    exact ExtTreeMap.nodup_keys
  have hother : ∀ entry ∈ overview.state.targets.toList, entry.1 ≠ id.targetSession →
      (overview.cardsOf entry.2).filter (fun card => card.agent = id) = [] := by
    rintro ⟨key, other⟩ hentry hne
    rw [List.filter_eq_nil_iff]
    intro card hcard
    obtain ⟨snapshot, pane, agent, hsnapshot, hagent, rfl⟩ := overview.mem_cardsOf.mp hcard
    have hsession := h key other snapshot pane agent
      (ExtTreeMap.mem_toList_iff_getElem?_eq_some.mp hentry) hsnapshot hagent
    simp only [decide_eq_true_eq]
    rintro rfl
    exact hne (hsession.symm.trans (targetSession_agentKey agent).symm)
  rw [listedAs, listed, List.filter_flatMap]
  refine ((flatMap_of_key hnodup hother).1 target
    (ExtTreeMap.mem_toList_iff_getElem?_eq_some.mpr htarget)).trans ?_
  rw [cardsOf]
  cases target.snapshot with
  | none => rfl
  | some snapshot => simp [NormalizedSnapshot.answering, List.filter_map, Function.comp_def, buildCard]

/-- An agent that answers to an identity is seen. -/
theorem seen_of_answering {target : TargetRuntimeState} {snapshot : NormalizedSnapshot}
    {agent : AgentState} (htarget : overview.state.targets[id.targetSession]? = some target)
    (hsnapshot : target.snapshot = some snapshot) (hagent : agent ∈ snapshot.answering id) :
    overview.seen.contains id = true := by
  rw [NormalizedSnapshot.answering, List.mem_filter, List.mem_map] at hagent
  obtain ⟨⟨⟨pane, held⟩, hheld, rfl⟩, hkey⟩ := hagent
  have hkey : agentKey held = id := by simpa using hkey
  have hlisted : buildCard overview.attention overview.view snapshot (target.connection = .live) held ∈
      overview.listed := overview.mem_listed.mpr ⟨id.targetSession, target, htarget,
        overview.mem_cardsOf.mpr ⟨snapshot, pane, held, hsnapshot,
          ExtTreeMap.mem_toList_iff_getElem?_eq_some.mp hheld, rfl⟩⟩
  have hseen := overview.seen_of_listed hlisted
  rwa [show (buildCard overview.attention overview.view snapshot (target.connection = .live)
    held).agent = id from hkey] at hseen

end Overview

namespace AgentCardIndex

variable {id : AgentId} {state : FederationState} {route : CardRoute}

/-! ### What resolves -/

/-- An identity resolves to the pane of the one agent that answers to it, on a live target. -/
theorem resolve_eq_ok : resolve id state = .ok route ↔
    ∃ (target : TargetRuntimeState) (snapshot : NormalizedSnapshot) (found : AgentState),
      state.targets[id.targetSession]? = some target ∧ target.connection = .live ∧
      target.snapshot = some snapshot ∧ snapshot.answering id = [found] ∧
      snapshot.panes.contains found.pane = true ∧
      route = ⟨found.pane, target.connectionGeneration⟩ := by
  rw [resolve]
  constructor
  · intro h
    split at h
    · cases h
    · next target htarget =>
      split_ifs at h with hlive
      split at h
      · cases h
      · next snapshot hsnapshot =>
        split at h
        · cases h
        · next found hfound =>
          split_ifs at h with hpane
          cases h
          exact ⟨target, snapshot, found, htarget, not_not.mp hlive, hsnapshot, hfound, hpane, rfl⟩
        · cases h
  · rintro ⟨target, snapshot, found, htarget, hlive, hsnapshot, hfound, hpane, rfl⟩
    rw [htarget]
    dsimp only
    rw [if_neg (by simp [hlive]), hsnapshot]
    dsimp only
    rw [hfound]
    dsimp only
    rw [if_pos hpane]

theorem lists_iff_resolve : state.Lists id ↔ ∃ route, resolve id state = .ok route := by
  constructor
  · rintro ⟨target, snapshot, found, htarget, hlive, hsnapshot, hfound, hpane⟩
    exact ⟨_, resolve_eq_ok.mpr
      ⟨target, snapshot, found, htarget, hlive, hsnapshot, hfound, hpane, rfl⟩⟩
  · rintro ⟨route, hresolve⟩
    obtain ⟨target, snapshot, found, htarget, hlive, hsnapshot, hfound, hpane, -⟩ :=
      resolve_eq_ok.mp hresolve
    exact ⟨target, snapshot, found, htarget, hlive, hsnapshot, hfound, hpane⟩

theorem not_resolve_of_not_live {target : TargetRuntimeState}
    (htarget : state.targets[id.targetSession]? = some target) (h : target.connection ≠ .live) :
    resolve id state ≠ .ok route := by
  intro hresolve
  obtain ⟨other, -, -, hother, hlive, -⟩ := resolve_eq_ok.mp hresolve
  rw [htarget] at hother
  cases hother
  exact h hlive

/-- Two agents that answer are not one. -/
theorem not_resolve_of_ambiguous (h : state.Ambiguous id) : resolve id state ≠ .ok route := by
  intro hresolve
  obtain ⟨target, snapshot, found, htarget, -, hsnapshot, hfound, -⟩ := resolve_eq_ok.mp hresolve
  obtain ⟨other, held, pane, more, agent, second, hother, hheld, hne, hagent, hsecond, hkey, hmore⟩ :=
    h
  rw [htarget] at hother
  cases hother
  rw [hsnapshot] at hheld
  cases hheld
  rw [NormalizedSnapshot.answering, List.filter_map, List.map_eq_singleton_iff] at hfound
  obtain ⟨entry, hentry, -⟩ := hfound
  have hsingle : ∀ (pane : PaneId) (agent : AgentState), snapshot.agents[pane]? = some agent →
      agentKey agent = id → (pane, agent) = entry := by
    intro pane agent hagent hkey
    have hmem : (pane, agent) ∈ snapshot.agents.toList.filter
        ((fun held => decide (agentKey held = id)) ∘ Prod.snd) :=
      List.mem_filter.mpr ⟨ExtTreeMap.mem_toList_iff_getElem?_eq_some.mpr hagent, by simpa using hkey⟩
    rw [hentry] at hmem
    exact List.mem_singleton.mp hmem
  have hsame := (hsingle pane agent hagent hkey).trans (hsingle more second hsecond hmore).symm
  exact hne (congrArg Prod.fst hsame)

variable {overview : Overview}

theorem not_resolve_of_unseen (h : overview.seen.contains id = false) :
    resolve id overview.state ≠ .ok route := by
  intro hresolve
  obtain ⟨target, snapshot, found, htarget, -, hsnapshot, hfound, -⟩ := resolve_eq_ok.mp hresolve
  have hanswers : found ∈ snapshot.answering id := by simp [hfound]
  have hseen := overview.seen_of_answering htarget hsnapshot hanswers
  rw [h] at hseen
  cases hseen

/-! ### What a card promises -/

/-- A card can be opened exactly if its identity resolves, and then to its pane, under the generation
its target has. A card of an agent that is gone, or shares its identity, or whose target is not live,
cannot. -/
structure Routed (overview : Overview) (card : AgentCard) : Prop where
  offered : card.actionable = true ↔ ∃ route, resolve card.agent overview.state = .ok route
  route : ∀ route, resolve card.agent overview.state = .ok route → card.pane = some route.pane ∧
    ∃ target, overview.state.targets[card.agent.targetSession]? = some target ∧
      route.generation = target.connectionGeneration
  gone : card.activity = .gone → card.actionable = false
  silent : overview.answers card.agent = false → card.actionable = false
  ambiguous : overview.state.Ambiguous card.agent →
    card.actionable = false ∧ ∀ route, resolve card.agent overview.state ≠ .ok route

variable {card : AgentCard}

theorem Routed.of_refused (h : card.actionable = false)
    (hrefused : ∀ route, resolve card.agent overview.state ≠ .ok route) : Routed overview card where
  offered := by
    rw [h]
    exact iff_of_false (by simp) fun ⟨route, hroute⟩ => hrefused route hroute
  route route hroute := absurd hroute (hrefused route)
  gone _ := h
  silent _ := h
  ambiguous _ := ⟨h, hrefused⟩

/-- What a card of a qualified federation is built from. -/
theorem built_of_seen (h : overview.state.Qualified) (hseen : overview.seen[id]? = some card) :
    ∃ (target : TargetRuntimeState) (snapshot : NormalizedSnapshot) (agent : AgentState),
      overview.state.targets[id.targetSession]? = some target ∧ target.snapshot = some snapshot ∧
      agent ∈ snapshot.answering id ∧
      card = if 2 ≤ (snapshot.answering id).length then
        { buildCard overview.attention overview.view snapshot (target.connection = .live) agent with
          actionable := false }
      else buildCard overview.attention overview.view snapshot (target.connection = .live) agent := by
  obtain ⟨held, hheld, hcard⟩ := overview.listed_of_seen hseen
  have hagent : held.agent = id := by simpa using (List.mem_filter.mp hheld).2
  obtain ⟨key, target, htarget, hlisted⟩ := overview.mem_listed.mp (List.mem_filter.mp hheld).1
  obtain ⟨snapshot, pane, agent, hsnapshot, hpane, hbuilt⟩ := overview.mem_cardsOf.mp hlisted
  have hkey : id.targetSession = key := by
    have hsession := h key target snapshot pane agent htarget hsnapshot hpane
    rw [← hagent, ← hbuilt, ← hsession, ← targetSession_agentKey]
    rfl
  subst hkey
  have hlist := overview.listedAs_of_qualified h htarget
  rw [hsnapshot, Option.map_some, Option.getD_some] at hlist
  rw [hlist, List.length_map] at hcard
  rw [hlist, List.mem_map] at hheld
  obtain ⟨found, hfound, rfl⟩ := hheld
  exact ⟨target, snapshot, found, htarget, hsnapshot, hfound, hcard⟩

theorem routed_of_seen (h : overview.state.Qualified)
    (hseen : overview.seen[id]? = some card) : Routed overview card := by
  have hid : card.agent = id := overview.agent_of_seen hseen
  have hpresent := activity_of_seen overview hseen
  obtain ⟨target, snapshot, agent, htarget, hsnapshot, hanswers, hcard⟩ := built_of_seen h hseen
  by_cases hlive : target.connection = .live
  · by_cases hmany : 2 ≤ (snapshot.answering id).length
    · rw [if_pos hmany] at hcard
      refine .of_refused (by rw [hcard]) fun route hroute => ?_
      rw [hid] at hroute
      obtain ⟨other, held, found, hother, -, hheld, hfound, -⟩ := resolve_eq_ok.mp hroute
      rw [htarget] at hother
      cases hother
      rw [hsnapshot] at hheld
      cases hheld
      rw [hfound] at hmany
      simp at hmany
    · rw [if_neg hmany] at hcard
      have hone : snapshot.answering id = [agent] := by
        have hpos := List.length_pos_of_mem hanswers
        obtain ⟨found, hfound⟩ := List.length_eq_one_iff.mp
          (show (snapshot.answering id).length = 1 by omega)
        rw [hfound] at hanswers
        rw [hfound, List.mem_singleton.mp hanswers]
      have hactionable : card.actionable = snapshot.panes.contains agent.pane := by
        rw [hcard, buildCard]
        simp [hlive]
      have hpane : card.pane = some agent.pane := by
        rw [hcard]
        rfl
      have hresolve : ∀ route, resolve card.agent overview.state = .ok route ↔
          snapshot.panes.contains agent.pane = true ∧
            route = ⟨agent.pane, target.connectionGeneration⟩ := by
        intro route
        rw [hid, resolve_eq_ok]
        constructor
        · rintro ⟨other, held, found, hother, -, hheld, hfound, hcontains, rfl⟩
          rw [htarget] at hother
          cases hother
          rw [hsnapshot] at hheld
          cases hheld
          rw [hone] at hfound
          cases hfound
          exact ⟨hcontains, rfl⟩
        · rintro ⟨hcontains, rfl⟩
          exact ⟨target, snapshot, agent, htarget, hlive, hsnapshot, hone, hcontains, rfl⟩
      refine ⟨?_, ?_, ?_, ?_, ?_⟩
      · rw [hactionable]
        constructor
        · exact fun hcontains => ⟨_, (hresolve _).mpr ⟨hcontains, rfl⟩⟩
        · exact fun ⟨route, hroute⟩ => ((hresolve route).mp hroute).1
      · intro route hroute
        obtain ⟨-, rfl⟩ := (hresolve route).mp hroute
        rw [hid]
        exact ⟨hpane, target, htarget, rfl⟩
      · exact fun hgone => absurd hgone hpresent
      · intro hsilent
        rw [hid, Overview.answers, htarget] at hsilent
        simp [hlive] at hsilent
      · intro hambiguous
        rw [hid] at hambiguous
        have hrefused : ∀ route, resolve card.agent overview.state ≠ .ok route := by
          rw [hid]
          exact fun route => not_resolve_of_ambiguous hambiguous
        refine ⟨?_, hrefused⟩
        rw [hactionable, Bool.eq_false_iff]
        exact fun hcontains => hrefused _ ((hresolve _).mpr ⟨hcontains, rfl⟩)
  · refine .of_refused ?_ fun route => ?_
    · rw [hcard]
      split
      · rfl
      · simp [buildCard, hlive]
    · rw [hid]
      exact not_resolve_of_not_live htarget hlive

/-! ### What a projection promises -/

/-- No agent is listed again whose last card, from before it went away, is still shown. -/
def Unreturned (index : AgentCardIndex) (overview : Overview) : Prop :=
  ∀ card ∈ index.history.take (MAX_HISTORY_CARDS - (index.vanished overview).length),
    ¬overview.state.Lists card.agent

theorem not_resolve_of_vanished {index : AgentCardIndex} (h : Lawful index)
    (hcard : card ∈ index.vanished overview) :
    resolve card.agent overview.state ≠ .ok route := by
  rw [vanished, List.mem_map] at hcard
  obtain ⟨⟨id, tracked⟩, hmem, rfl⟩ := hcard
  obtain ⟨hentry, hunseen⟩ := List.mem_filter.mp hmem
  have hagent := h.agent id tracked (ExtTreeMap.mem_toList_iff_getElem?_eq_some.mp hentry)
  have hunseen : overview.seen.contains id = false := by simpa using (Bool.and_eq_true_iff.mp hunseen).1
  rw [hagent]
  exact not_resolve_of_unseen hunseen

theorem mem_history_read {index : AgentCardIndex} (h : Lawful index) :
    card ∈ (index.read overview).history →
      (∃ held ∈ index.vanished overview, card = AgentCardIndex.gone held) ∨
        card ∈ index.history.take (MAX_HISTORY_CARDS - (index.vanished overview).length) := by
  rw [index.history_read overview h.short, List.take_append, List.mem_append, List.length_reverse,
    List.length_map]
  rintro (hnew | hold)
  · have hnew := List.mem_of_mem_take hnew
    rw [List.mem_reverse, List.mem_map] at hnew
    obtain ⟨held, hheld, rfl⟩ := hnew
    exact .inl ⟨held, hheld, rfl⟩
  · exact .inr hold

theorem routed_iff_unreturned (index : AgentCardIndex) (overview : Overview) (h : Lawful index) :
    (overview.state.Qualified → ∀ card ∈ (index.project overview).2.cards, Routed overview card) ↔
      (overview.state.Qualified → Unreturned index overview) := by
  refine forall_congr' fun hqualified => ?_
  constructor
  · intro hrouted card hcard hlisted
    have hshown : card ∈ (index.project overview).2.cards := by
      rw [index.mem_cards_project overview, index.history_read overview h.short, List.take_append,
        List.length_reverse, List.length_map]
      exact .inr (List.mem_append_right _ hcard)
    have hactionable := (hrouted card hshown).offered.mpr (lists_iff_resolve.mp hlisted)
    rw [(h.gone card (List.mem_of_mem_take hcard)).2.2] at hactionable
    cases hactionable
  · intro hunreturned card hcard
    rcases (index.mem_cards_project overview).mp hcard with ⟨id, tracked, htracked, rfl⟩ | hgone
    · rcases index.tracked_read overview htracked with
        ⟨card, hseen, hranks⟩ | ⟨-, hsilent, before, hbefore, rfl⟩
      · rw [hranks.card]
        exact routed_of_seen hqualified hseen
      · refine .of_refused rfl fun route => ?_
        obtain ⟨target, htarget, hconnection⟩ := overview.silent_iff.mp hsilent
        have hagent : before.withdrawn.card.agent = id := h.agent id before hbefore
        rw [hagent]
        exact not_resolve_of_not_live htarget hconnection
    · have hrefused : card.actionable = false := ((h.read overview).gone card hgone).2.2
      refine .of_refused hrefused fun route => ?_
      rcases mem_history_read h hgone with ⟨held, hheld, rfl⟩ | hold
      · have hvanished : resolve held.agent overview.state ≠ .ok route :=
          not_resolve_of_vanished h hheld
        exact hvanished
      · exact fun hroute => hunreturned card hold (lists_iff_resolve.mpr ⟨route, hroute⟩)

/-- **Cards lead where they say**: over any sequence of overviews, every card of every projection of a
qualified federation is actionable exactly if its identity resolves, and then to its own pane, if and
only if no agent comes back while its last card from before is still shown. -/
theorem cards_route_exactly (overviews : List Overview) :
    AllSteps step (fun index overview => overview.state.Qualified →
        ∀ card ∈ (index.project overview).2.cards, Routed overview card) default overviews ↔
      AllSteps step (fun index overview => overview.state.Qualified → Unreturned index overview)
        default overviews :=
  allSteps_congr lawful_step routed_iff_unreturned lawful_default overviews

/-- A live target that lists one agent, or none. -/
def hosting (agents : List AgentState) : Overview where
  state := ⟨0, (∅ : ExtTreeMap TargetSession TargetRuntimeState).insert ⟨"box", "main"⟩
    { key := ⟨"box", "main"⟩
      endpoint := ""
      connection := .live
      updateMode := .events
      eventError := none
      connectionGeneration := 1
      selectedHerdrBin := none
      roots := []
      snapshot := some
        { serverVersion := none
          protocol := none
          revision := none
          capabilities := ∅
          counts := ⟨0, 0, 1, agents.length⟩
          focusedWorkspace := none
          focusedTab := none
          focusedPane := none
          workspaces := ∅
          tabs := ∅
          panes := (∅ : ExtTreeMap PaneId PaneState).insert ⟨"box", "main", "1"⟩
            ⟨⟨"box", "main", "1"⟩, none, none, none, none, false, none, none, none⟩
          layouts := ∅
          agents := ExtTreeMap.ofList (agents.map fun agent => (agent.pane, agent))
          terminals := ∅ }
      lastError := none
      lastSuccess := none
      retryAt := none }⟩
  attention := .default
  view := ⟨.default, .default, 0⟩

/-- An agent is listed, goes away and comes back: its last card from before cannot be opened, and its
identity resolves. -/
theorem a_card_of_an_agent_that_came_back_is_refused :
    let agent : AgentState := ⟨⟨"box", "main", "1"⟩, none, none, none, none, none, none⟩
    let overview := hosting [agent]
    let before := exec step default [overview, hosting []]
    overview.state.Qualified ∧ ∃ card ∈ (before.1.project overview).2.cards,
      card.agent = agentKey agent ∧ card.actionable = false ∧
        resolve card.agent overview.state = .ok ⟨agent.pane, 1⟩ := by
  refine ⟨?_, by decide +kernel⟩
  intro key target snapshot pane held htarget hsnapshot hheld
  simp only [hosting, ExtTreeMap.getElem?_insert] at htarget
  split at htarget
  · next hkey =>
    cases htarget
    cases hsnapshot
    simp only [List.map_cons, List.map_nil, ExtTreeMap.ofList_singleton,
      ExtTreeMap.getElem?_insert] at hheld
    split at hheld
    · cases hheld
      have hkey : (⟨"box", "main"⟩ : TargetSession) = key := by simpa using hkey
      exact hkey
    · simp at hheld
  · simp at htarget

end AgentCardIndex

end SuperHerdr
