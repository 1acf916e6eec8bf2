import Mathlib
import SuperHerdr.Attention.Marks

/-!
# The agent cards

The daemon shows each agent of the federation as a card: which section of the inbox it belongs to,
and whether it can be opened. `AgentCardIndex.project` rebuilds the inbox from a federation. It
remembers the cards it tracks, each with the rank it got as it entered its section, and the cards of
agents that went away. `AgentCardIndex.resolve` derives the route to an agent from a federation alone.

Ranks and revisions are natural numbers: the source's counters saturate at the last 64-bit number, so
the two agree as long as fewer than `2 ^ 64` are given.
-/

namespace SuperHerdr

open Std

def AGENT_CARD_PROJECTION_VERSION : ℕ := 2
def MAX_HISTORY_CARDS : ℕ := 64
def MAX_LABEL_CHARACTERS : ℕ := 128
def MAX_STATUS_CHARACTERS : ℕ := 64

/-! ### What this installation says of an agent -/

/-- A local name, and what the resource was called when it was given. -/
structure LocalAlias where
  label : String
  observed : String
deriving DecidableEq

inductive AliasState
  | current
  | suspended
deriving DecidableEq

/-- What a card reads of the local names and favourites. -/
structure AliasView where
  names : List (ResourceRef × LocalAlias)
  favourites : List ResourceRef
deriving DecidableEq

namespace AliasView

def default : AliasView := ⟨[], []⟩

/-- The name to show, and whether it can be trusted. -/
def resolve (self : AliasView) (resource : ResourceRef) (observed : String) :
    Option (String × AliasState) :=
  (self.names.lookup resource).map fun held =>
    (held.label, if held.observed = observed then .current else .suspended)

def isFavourite (self : AliasView) (resource : ResourceRef) : Bool :=
  self.favourites.contains resource

end AliasView

structure LocalView where
  marks : AgentMarks
  aliases : AliasView
  nowMs : ℕ

/-! ### Cards -/

def AgentPhase.activity : AgentPhase → AgentActivity
  | .attention => .needsInput
  | .working => .working
  | .idle => .idle
  | .unknown => .unknown

def AttentionIndex.hasUnreadForPane (self : AttentionIndex) (pane : PaneId) : Bool :=
  self.events.any fun event => event.unread && event.pane = pane

/-- The section of a card, unless its agent is quiet. -/
def AgentActivity.cardSection : AgentActivity → AgentCardSection
  | .needsInput => .needsYou
  | .working => .working
  | .idle | .unknown | .gone => .recent

/-- The card of an agent that a snapshot lists. -/
def buildCard (attention : AttentionIndex) (view : LocalView) (snapshot : NormalizedSnapshot)
    (live : Bool) (agent : AgentState) : AgentCard :=
  let pane := snapshot.panes[agent.pane]?
  let status := boundedMetadata
    ((agent.status <|> pane.bind PaneState.agentStatus).getD "unknown") MAX_STATUS_CHARACTERS
  let activity := (agentPhase status (agent.interactiveReady.getD false)).activity
  let key := agentKey agent
  let marked := view.marks.state key
  let workspace := pane.bind PaneState.workspace
  let tab := pane.bind PaneState.tab
  let title := boundedMetadata (((agent.name <|> pane.bind PaneState.agent) <|>
    pane.bind PaneState.label).getD agent.pane.resource) MAX_LABEL_CHARACTERS
  let named := view.aliases.resolve (.agent key) title
  { agent := key
    pane := some agent.pane
    title
    workspace := boundedMetadata (((workspace.bind (snapshot.workspaces[·]?)).bind
      WorkspaceState.label <|> workspace.map QualifiedId.resource).getD "unassigned")
      MAX_LABEL_CHARACTERS
    tab := boundedMetadata (((tab.bind (snapshot.tabs[·]?)).bind TabState.label <|>
      tab.map QualifiedId.resource).getD "unassigned") MAX_LABEL_CHARACTERS
    paneLabel := boundedMetadata ((pane.bind PaneState.label).getD agent.pane.resource)
      MAX_LABEL_CHARACTERS
    provider := agent.agent.map (boundedMetadata · MAX_LABEL_CHARACTERS)
    activity
    status
    -- An agent that is muted or snoozed keeps its activity and leaves the queue.
    cardSection := if marked.quietAt view.nowMs then .recent else activity.cardSection
    unread := attention.hasUnreadForPane agent.pane
    stale := !live
    actionable := live && pane.isSome
    lastChangeMs := (attention.events.reverse.find? (·.pane = agent.pane)).map (·.occurredAtMs)
    marks := marked
    «alias» := named.bind fun named => if named.2 = .current then some named.1 else none
    aliasSuspended := named.any (·.2 = .suspended)
    favourite := view.aliases.isFavourite (.agent key) }

/-! ### The index -/

structure Tracked where
  /-- When the card entered the section it is in. -/
  rank : ℕ
  cardSection : AgentCardSection
  card : AgentCard
deriving DecidableEq

/-- A card nobody can be asked about. -/
def Tracked.withdrawn (self : Tracked) : Tracked :=
  { self with card := { self.card with stale := true, actionable := false } }

structure PublishedCards where
  needsYou : List AgentCard
  working : List AgentCard
  recent : List AgentCard
deriving DecidableEq

/-- What is projected: the federation, its attention history, and what this installation says. -/
structure Overview where
  state : FederationState
  attention : AttentionIndex
  view : LocalView

structure AgentCardIndex where
  tracked : ExtTreeMap AgentId Tracked
  /-- Newest first. -/
  history : List AgentCard
  nextRank : ℕ
  revision : ℕ
  published : Option PublishedCards
deriving DecidableEq

namespace Overview

/-- The cards of the agents that the last snapshot of a target lists. -/
def cardsOf (overview : Overview) (target : TargetRuntimeState) : List AgentCard :=
  match target.snapshot with
  | some snapshot => snapshot.agents.toList.map fun entry =>
      buildCard overview.attention overview.view snapshot (target.connection = .live) entry.2
  | none => []

/-- The cards of the agents that the snapshots list, target by target. -/
def listed (overview : Overview) : List AgentCard :=
  overview.state.targets.toList.flatMap fun entry => overview.cardsOf entry.2

/-- One card is seen, perhaps of an identity that was seen before. -/
def see (s : ExtTreeMap AgentId AgentCard × ExtTreeSet AgentId) (card : AgentCard) :
    ExtTreeMap AgentId AgentCard × ExtTreeSet AgentId :=
  (s.1.insert card.agent card, if s.1.contains card.agent then s.2.insert card.agent else s.2)

/-- The cards by identity. One that two agents answer to cannot be opened. -/
def seen (overview : Overview) : ExtTreeMap AgentId AgentCard :=
  let (seen, ambiguous) := overview.listed.foldl see (∅, ∅)
  seen.map fun id card => if ambiguous.contains id then { card with actionable := false } else card

/-- Whether the target of an agent can be asked. -/
def answers (overview : Overview) (id : AgentId) : Bool :=
  overview.state.targets[id.targetSession]?.any fun target => target.connection = .live

/-- Whether the target of an agent is in the federation, and cannot be asked. -/
def silent (overview : Overview) (id : AgentId) : Bool :=
  overview.state.targets[id.targetSession]?.any fun target => target.connection ≠ .live

end Overview

namespace AgentCardIndex

def default : AgentCardIndex := ⟨∅, [], 0, 0, none⟩

/-- The cards of agents that their live target no longer lists. -/
def vanished (self : AgentCardIndex) (overview : Overview) : List AgentCard :=
  (self.tracked.toList.filter fun entry =>
    !overview.seen.contains entry.1 && overview.answers entry.1).map (·.2.card)

/-- The tracked cards that stay: of agents that are seen, and of agents nobody can be asked for. -/
def retain (self : AgentCardIndex) (overview : Overview) : AgentCardIndex :=
  { self with tracked := self.tracked.filter fun id _ =>
      overview.seen.contains id || overview.silent id }

/-- Cards that are not seen stop claiming to be current, and offering themselves. -/
def stale (self : AgentCardIndex) (overview : Overview) : AgentCardIndex :=
  { self with tracked := self.tracked.map fun id tracked =>
      if overview.seen.contains id then tracked else tracked.withdrawn }

/-- The card of an agent that went away. -/
def gone (card : AgentCard) : AgentCard :=
  { card with
    pane := none, activity := .gone, cardSection := .recent, actionable := false, stale := false }

def retire (self : AgentCardIndex) (card : AgentCard) : AgentCardIndex :=
  { self with history := (gone card :: self.history).take MAX_HISTORY_CARDS }

/-- A card that is seen keeps its rank in its section, or gets a new one. -/
def track (self : AgentCardIndex) (entry : AgentId × AgentCard) : AgentCardIndex :=
  let (id, card) := entry
  match self.tracked[id]?.filter fun tracked => tracked.cardSection = card.cardSection with
  | some tracked => { self with tracked := self.tracked.insert id { tracked with card } }
  | none =>
      { self with
        nextRank := self.nextRank + 1
        tracked := self.tracked.insert id ⟨self.nextRank, card.cardSection, card⟩ }

/-- Pinned first, then by rank, then by identity. -/
def order (left right : Tracked) : Ordering :=
  (compare right.card.marks.pinned left.card.marks.pinned).then
    ((compare left.rank right.rank).then (compare left.card.agent right.card.agent))

/-- The cards of one section, in order. -/
def inSection (self : AgentCardIndex) (cardSection : AgentCardSection) : List AgentCard :=
  (((self.tracked.toList.map Prod.snd).filter fun tracked =>
    tracked.cardSection = cardSection).mergeSort
      fun left right => (order left right).isLE).map Tracked.card

/-- Show the inbox as it is. -/
def publish (self : AgentCardIndex) : AgentCardIndex × AgentCardProjection :=
  let published : PublishedCards :=
    { needsYou := self.inSection .needsYou
      working := self.inSection .working
      recent := self.inSection .recent ++ self.history }
  let revision := if self.published = some published then self.revision else self.revision + 1
  ({ self with revision, published := some published },
    { version := AGENT_CARD_PROJECTION_VERSION
      revision
      needsYou := published.needsYou
      working := published.working
      recent := published.recent })

/-- The index without what a federation ends, before what it shows is tracked. -/
def settle (self : AgentCardIndex) (overview : Overview) : AgentCardIndex :=
  (self.vanished overview).foldl retire ((self.retain overview).stale overview)

/-- The index once a federation was read, before it is shown. -/
def read (self : AgentCardIndex) (overview : Overview) : AgentCardIndex :=
  overview.seen.toList.foldl track (self.settle overview)

/-- Rebuild the inbox from a federation. -/
def project (self : AgentCardIndex) (overview : Overview) : AgentCardIndex × AgentCardProjection :=
  (self.read overview).publish

end AgentCardIndex

namespace AgentCardProjection

/-- The cards of a projection, in order. -/
def cards (self : AgentCardProjection) : List AgentCard :=
  self.needsYou ++ self.working ++ self.recent

def inSection (self : AgentCardProjection) : AgentCardSection → List AgentCard
  | .needsYou => self.needsYou
  | .working => self.working
  | .recent => self.recent

end AgentCardProjection

/-! ### Routes -/

structure CardRoute where
  pane : PaneId
  generation : ℕ
deriving DecidableEq

/-- Why a card could not be turned into a route. -/
inductive CardRouteError
  | unknownTarget
  | targetUnavailable
  | agentGone
  | paneMissing
  | ambiguous
deriving DecidableEq

/-- The agents of a snapshot that answer to an identity. -/
def NormalizedSnapshot.answering (snapshot : NormalizedSnapshot) (agent : AgentId) :
    List AgentState :=
  (snapshot.agents.toList.map Prod.snd).filter fun held => agentKey held = agent

/-- Derive the live pane of an agent from a federation. -/
def AgentCardIndex.resolve (agent : AgentId) (state : FederationState) :
    Except CardRouteError CardRoute :=
  match state.targets[agent.targetSession]? with
  | none => .error .unknownTarget
  | some target =>
      if target.connection ≠ .live then .error .targetUnavailable
      else
        match target.snapshot with
        | none => .error .targetUnavailable
        | some snapshot =>
            match snapshot.answering agent with
            | [] => .error .agentGone
            | [found] =>
                if snapshot.panes.contains found.pane then
                  .ok ⟨found.pane, target.connectionGeneration⟩
                else .error .paneMissing
            | _ => .error .ambiguous

/-! ### What is seen -/

namespace Overview

variable (overview : Overview) {id : AgentId}

/-- The listed cards of one identity. -/
def listedAs (id : AgentId) : List AgentCard := overview.listed.filter fun card => card.agent = id

theorem answers_iff : overview.answers id = true ↔ ∃ target,
    overview.state.targets[id.targetSession]? = some target ∧ target.connection = .live := by
  rw [answers]
  cases overview.state.targets[id.targetSession]? with
  | none => simp
  | some target => simp

theorem silent_iff : overview.silent id = true ↔ ∃ target,
    overview.state.targets[id.targetSession]? = some target ∧ target.connection ≠ .live := by
  rw [silent]
  cases overview.state.targets[id.targetSession]? with
  | none => simp
  | some target => simp

theorem foldl_see (cards : List AgentCard) (id : AgentId) :
    (cards.foldl see (∅, ∅)).1[id]? = (cards.filter fun card => card.agent = id).getLast? ∧
      ((cards.foldl see (∅, ∅)).2.contains id = true ↔
        2 ≤ (cards.filter fun card => card.agent = id).length) := by
  induction cards using List.reverseRecOn with
  | nil => simp
  | append_singleton cards card ih =>
    obtain ⟨hseen, hambiguous⟩ := ih
    rw [List.foldl_append, List.foldl_cons, List.foldl_nil, see, List.filter_append]
    by_cases hsame : card.agent = id
    · have hlast : [card].filter (fun card => card.agent = id) = [card] := by simp [hsame]
      have hheld : (cards.foldl see (∅, ∅)).1.contains id = true ↔
          0 < (cards.filter fun card => card.agent = id).length := by
        rw [ExtTreeMap.contains_eq_isSome_getElem?, hseen, List.getLast?_isSome, List.length_pos_iff]
      subst hsame
      rw [hlast]
      refine ⟨by simp, ?_⟩
      dsimp only
      rw [List.length_append, List.length_singleton]
      split
      · next hcontains =>
        have hpos := hheld.mp hcontains
        simp only [ExtTreeSet.contains_insert_self, true_iff]
        omega
      · next hfresh =>
        have hzero : ¬0 < (cards.filter fun other => other.agent = card.agent).length :=
          fun hpos => hfresh (hheld.mpr hpos)
        rw [hambiguous]
        omega
    · have hnone : [card].filter (fun card => card.agent = id) = [] := by simp [hsame]
      rw [hnone, List.append_nil]
      have hcompare : compare card.agent id ≠ .eq := by simpa using hsame
      refine ⟨?_, ?_⟩
      · rw [ExtTreeMap.getElem?_insert, if_neg hcompare, hseen]
      · dsimp only
        split
        · rw [← hambiguous, ExtTreeSet.contains_insert]
          simp [hsame]
        · exact hambiguous

theorem getElem?_seen : overview.seen[id]? = (overview.listedAs id).getLast?.map fun card =>
    if 2 ≤ (overview.listedAs id).length then { card with actionable := false } else card := by
  obtain ⟨hseen, hambiguous⟩ := foldl_see overview.listed id
  rw [seen, ExtTreeMap.getElem?_map, hseen, listedAs]
  simp only [hambiguous]

variable {card : AgentCard}

theorem seen_of_listed (h : card ∈ overview.listed) : overview.seen.contains card.agent = true := by
  rw [ExtTreeMap.contains_eq_isSome_getElem?, getElem?_seen, Option.isSome_map, List.getLast?_isSome]
  exact List.ne_nil_of_mem (List.mem_filter.mpr ⟨h, by simp⟩)

theorem listed_of_seen (h : overview.seen[id]? = some card) : ∃ held ∈ overview.listedAs id,
      card = if 2 ≤ (overview.listedAs id).length then { held with actionable := false } else held := by
  rw [getElem?_seen, Option.map_eq_some_iff] at h
  obtain ⟨held, hlast, rfl⟩ := h
  exact ⟨held, List.mem_of_getLast? hlast, rfl⟩

theorem agent_of_seen (h : overview.seen[id]? = some card) : card.agent = id := by
  obtain ⟨held, hheld, rfl⟩ := overview.listed_of_seen h
  have hagent : held.agent = id := by simpa using (List.mem_filter.mp hheld).2
  split
  · exact hagent
  · exact hagent

theorem mem_cardsOf {target : TargetRuntimeState} :
    card ∈ overview.cardsOf target ↔ ∃ (snapshot : NormalizedSnapshot) (pane : PaneId)
      (agent : AgentState), target.snapshot = some snapshot ∧ snapshot.agents[pane]? = some agent ∧
      buildCard overview.attention overview.view snapshot (target.connection = .live) agent = card := by
  rw [cardsOf]
  cases target.snapshot with
  | none => simp
  | some snapshot =>
    rw [List.mem_map]
    constructor
    · rintro ⟨⟨pane, agent⟩, hagent, hbuilt⟩
      exact ⟨snapshot, pane, agent, rfl, ExtTreeMap.mem_toList_iff_getElem?_eq_some.mp hagent, hbuilt⟩
    · rintro ⟨held, pane, agent, hheld, hagent, hbuilt⟩
      cases hheld
      exact ⟨(pane, agent), ExtTreeMap.mem_toList_iff_getElem?_eq_some.mpr hagent, hbuilt⟩

theorem mem_listed : card ∈ overview.listed ↔ ∃ (key : TargetSession) (target : TargetRuntimeState),
      overview.state.targets[key]? = some target ∧ card ∈ overview.cardsOf target := by
  rw [listed, List.mem_flatMap]
  constructor
  · rintro ⟨⟨key, target⟩, htarget, hcard⟩
    exact ⟨key, target, ExtTreeMap.mem_toList_iff_getElem?_eq_some.mp htarget, hcard⟩
  · rintro ⟨key, target, htarget, hcard⟩
    exact ⟨(key, target), ExtTreeMap.mem_toList_iff_getElem?_eq_some.mpr htarget, hcard⟩

end Overview

/-! ### What is tracked -/

namespace AgentCardIndex

variable (self : AgentCardIndex) (overview : Overview) {id : AgentId}

variable (entry : AgentId × AgentCard)

theorem getElem?_track (hother : entry.1 ≠ id) :
    (self.track entry).tracked[id]? = self.tracked[id]? := by
  have hcompare : compare entry.1 id ≠ .eq := by simpa using hother
  obtain ⟨key, card⟩ := entry
  rw [track]
  split
  · simp [ExtTreeMap.getElem?_insert, hcompare]
  · simp [ExtTreeMap.getElem?_insert, hcompare]

theorem nextRank_track : self.nextRank ≤ (self.track entry).nextRank := by
  obtain ⟨key, card⟩ := entry
  rw [track]
  split
  · exact le_rfl
  · exact Nat.le_succ self.nextRank

theorem history_track : (self.track entry).history = self.history := by
  obtain ⟨key, card⟩ := entry
  rw [track]
  split
  · rfl
  · rfl

/-- What becomes of a card that is seen: it keeps its rank in the section it is in, and gets the next
one in any other. -/
structure Ranks (before : Option Tracked) (seen : AgentCard) (first next : ℕ) (after : Tracked) :
    Prop where
  card : after.card = seen
  cardSection : after.cardSection = seen.cardSection
  kept : ∀ held, before = some held → held.cardSection = seen.cardSection → after.rank = held.rank
  entered : (∀ held, before = some held → held.cardSection ≠ seen.cardSection) →
    first ≤ after.rank ∧ after.rank < next

theorem ranks_track (card : AgentCard) : ∃ after, (self.track (id, card)).tracked[id]? = some after ∧
    Ranks self.tracked[id]? card self.nextRank (self.track (id, card)).nextRank after := by
  rw [track]
  split
  · next held hheld =>
    obtain ⟨hbefore, hsame⟩ := Option.filter_eq_some_iff.mp hheld
    have hsame : held.cardSection = card.cardSection := by simpa using hsame
    refine ⟨{ held with card }, by simp, rfl, hsame, ?_, fun hnone => ?_⟩
    · intro other hother _
      rw [hbefore] at hother
      cases hother
      rfl
    · exact absurd hsame (hnone held hbefore)
  · next hnone =>
    refine ⟨⟨self.nextRank, card.cardSection, card⟩, by simp, rfl, rfl, ?_, fun _ => ?_⟩
    · intro held hheld hsame
      rw [hheld] at hnone
      simp [hsame] at hnone
    · exact ⟨le_rfl, Nat.lt_succ_self self.nextRank⟩

variable (entries : List (AgentId × AgentCard))

theorem getElem?_foldl_track (hother : ∀ entry ∈ entries, entry.1 ≠ id) :
    (entries.foldl track self).tracked[id]? = self.tracked[id]? := by
  induction entries generalizing self with
  | nil => rfl
  | cons entry entries ih =>
    rw [List.foldl_cons, ih _ fun other hmem => hother other (List.mem_cons_of_mem entry hmem)]
    exact getElem?_track self entry (hother entry List.mem_cons_self)

theorem nextRank_foldl_track : self.nextRank ≤ (entries.foldl track self).nextRank := by
  induction entries generalizing self with
  | nil => exact le_rfl
  | cons entry entries ih => exact (nextRank_track self entry).trans (ih (self.track entry))

variable {card : AgentCard}

/-- Every card that is seen is tracked, once each. -/
theorem ranks_foldl_track (hnodup : (entries.map Prod.fst).Nodup) (hmem : (id, card) ∈ entries) :
    ∃ after, (entries.foldl track self).tracked[id]? = some after ∧
      Ranks self.tracked[id]? card self.nextRank (entries.foldl track self).nextRank after := by
  induction entries generalizing self with
  | nil => cases hmem
  | cons entry entries ih =>
    rw [List.map_cons, List.nodup_cons] at hnodup
    rw [List.foldl_cons]
    rcases List.mem_cons.mp hmem with rfl | hmem
    · have hother : ∀ entry ∈ entries, entry.1 ≠ id := by
        intro entry hentry hsame
        exact hnodup.1 (List.mem_map.mpr ⟨entry, hentry, hsame⟩)
      obtain ⟨after, hafter, hranks⟩ := @ranks_track self id card
      refine ⟨after, ?_, hranks.card, hranks.cardSection, hranks.kept, fun hnone => ?_⟩
      · rw [getElem?_foldl_track _ entries hother, hafter]
      · obtain ⟨hfirst, hnext⟩ := hranks.entered hnone
        exact ⟨hfirst, hnext.trans_le (nextRank_foldl_track _ entries)⟩
    · have hother : entry.1 ≠ id := by
        intro hsame
        exact hnodup.1 (List.mem_map.mpr ⟨(id, card), hmem, hsame.symm⟩)
      obtain ⟨after, hafter, hranks⟩ := ih (self.track entry) hnodup.2 hmem
      rw [getElem?_track self entry hother] at hranks
      refine ⟨after, hafter, hranks.card, hranks.cardSection, hranks.kept, fun hnone => ?_⟩
      obtain ⟨hfirst, hnext⟩ := hranks.entered hnone
      exact ⟨(nextRank_track self entry).trans hfirst, hnext⟩

/-! ### What an overview does -/

theorem foldl_retire (cards : List AgentCard) :
    (cards.foldl retire self).tracked = self.tracked ∧
      (cards.foldl retire self).nextRank = self.nextRank ∧
      (cards.foldl retire self).published = self.published := by
  induction cards generalizing self with
  | nil => exact ⟨rfl, rfl, rfl⟩
  | cons card cards ih => exact ih (self.retire card)

theorem history_foldl_retire (h : self.history.length ≤ MAX_HISTORY_CARDS) (cards : List AgentCard) :
    (cards.foldl retire self).history =
      ((cards.map gone).reverse ++ self.history).take MAX_HISTORY_CARDS := by
  induction cards generalizing self with
  | nil => simp [List.take_of_length_le h]
  | cons card cards ih =>
    have hshort : (self.retire card).history.length ≤ MAX_HISTORY_CARDS := List.length_take_le _ _
    rw [List.foldl_cons, ih (self.retire card) hshort, retire, List.map_cons, List.reverse_cons,
      List.append_assoc, List.singleton_append, List.take_append, List.take_append, List.take_take,
      min_eq_left (Nat.sub_le _ _)]

theorem nodup_toList {β : Type} (map : ExtTreeMap AgentId β) : (map.toList.map Prod.fst).Nodup := by
  rw [ExtTreeMap.map_fst_toList_eq_keys]
  exact ExtTreeMap.nodup_keys

theorem getElem?_settle : (self.settle overview).tracked[id]? =
    if overview.seen.contains id then self.tracked[id]?
    else if overview.silent id then self.tracked[id]?.map Tracked.withdrawn else none := by
  rw [settle, (foldl_retire _ _).1, stale, retain, ExtTreeMap.getElem?_map,
    ExtTreeMap.getElem?_filter']
  cases self.tracked[id]? with
  | none => simp
  | some tracked =>
    cases overview.seen.contains id with
    | true => simp
    | false =>
      cases overview.silent id with
      | true => simp
      | false => simp

theorem getElem?_read_of_seen (h : overview.seen[id]? = some card) :
    ∃ after, (self.read overview).tracked[id]? = some after ∧
      Ranks self.tracked[id]? card self.nextRank (self.read overview).nextRank after := by
  have hseen : overview.seen.contains id = true := by
    rw [ExtTreeMap.contains_eq_isSome_getElem?, h]
    rfl
  obtain ⟨after, hafter, hranks⟩ := ranks_foldl_track (self.settle overview) overview.seen.toList
    (nodup_toList overview.seen) (ExtTreeMap.mem_toList_iff_getElem?_eq_some.mpr h)
  have hrank : (self.settle overview).nextRank = self.nextRank := (foldl_retire _ _).2.1
  rw [getElem?_settle, if_pos hseen, hrank] at hranks
  exact ⟨after, hafter, hranks⟩

theorem getElem?_read_of_unseen (h : overview.seen.contains id = false) :
    (self.read overview).tracked[id]? =
      if overview.silent id then self.tracked[id]?.map Tracked.withdrawn else none := by
  have hother : ∀ entry ∈ overview.seen.toList, entry.1 ≠ id := by
    rintro ⟨key, card⟩ hentry rfl
    have hsome := ExtTreeMap.mem_toList_iff_getElem?_eq_some.mp hentry
    rw [ExtTreeMap.contains_eq_isSome_getElem?, hsome] at h
    cases h
  rw [read, getElem?_foldl_track (self.settle overview) overview.seen.toList hother, getElem?_settle,
    if_neg (by simp [h])]

theorem nextRank_read : self.nextRank ≤ (self.read overview).nextRank := by
  have hrank : (self.settle overview).nextRank = self.nextRank := (foldl_retire _ _).2.1
  rw [read, ← hrank]
  exact nextRank_foldl_track (self.settle overview) overview.seen.toList

theorem history_foldl_track : (entries.foldl track self).history = self.history := by
  induction entries generalizing self with
  | nil => rfl
  | cons entry entries ih => rw [List.foldl_cons, ih, history_track]

theorem history_read (h : self.history.length ≤ MAX_HISTORY_CARDS) :
    (self.read overview).history = (((self.vanished overview).map gone).reverse ++ self.history).take
      MAX_HISTORY_CARDS := by
  rw [read, history_foldl_track, settle]
  exact history_foldl_retire ((self.retain overview).stale overview) h (self.vanished overview)

/-! ### What is shown -/

theorem mem_inSection {cardSection : AgentCardSection} :
    card ∈ self.inSection cardSection ↔ ∃ (id : AgentId) (tracked : Tracked),
      self.tracked[id]? = some tracked ∧ tracked.cardSection = cardSection ∧ tracked.card = card := by
  rw [inSection, List.mem_map]
  constructor
  · rintro ⟨tracked, hmem, hcard⟩
    rw [List.mem_mergeSort, List.mem_filter, List.mem_map] at hmem
    obtain ⟨⟨⟨id, held⟩, hentry, rfl⟩, hsection⟩ := hmem
    exact ⟨id, held, ExtTreeMap.mem_toList_iff_getElem?_eq_some.mp hentry, by simpa using hsection,
      hcard⟩
  · rintro ⟨id, tracked, htracked, hsection, hcard⟩
    refine ⟨tracked, ?_, hcard⟩
    rw [List.mem_mergeSort, List.mem_filter, List.mem_map]
    exact ⟨⟨(id, tracked), ExtTreeMap.mem_toList_iff_getElem?_eq_some.mpr htracked, rfl⟩,
      by simpa using hsection⟩

/-- A projection shows what is tracked and what went away. -/
theorem mem_cards_project : card ∈ (self.project overview).2.cards ↔
    (∃ (id : AgentId) (tracked : Tracked),
      (self.read overview).tracked[id]? = some tracked ∧ tracked.card = card) ∨
    card ∈ (self.read overview).history := by
  have hcards : (self.project overview).2.cards = (self.read overview).inSection .needsYou ++
      (self.read overview).inSection .working ++
      ((self.read overview).inSection .recent ++ (self.read overview).history) := rfl
  rw [hcards]
  simp only [List.mem_append, mem_inSection]
  constructor
  · rintro ((⟨id, tracked, htracked, -, hcard⟩ | ⟨id, tracked, htracked, -, hcard⟩) |
      ⟨id, tracked, htracked, -, hcard⟩ | hgone)
    · exact .inl ⟨id, tracked, htracked, hcard⟩
    · exact .inl ⟨id, tracked, htracked, hcard⟩
    · exact .inl ⟨id, tracked, htracked, hcard⟩
    · exact .inr hgone
  · rintro (⟨id, tracked, htracked, hcard⟩ | hgone)
    · cases hsection : tracked.cardSection with
      | needsYou => exact .inl (.inl ⟨id, tracked, htracked, hsection, hcard⟩)
      | working => exact .inl (.inr ⟨id, tracked, htracked, hsection, hcard⟩)
      | recent => exact .inr (.inl ⟨id, tracked, htracked, hsection, hcard⟩)
    · exact .inr (.inr hgone)

/-! ### Runs -/

/-- An overview, and what is shown of it. -/
def step (self : AgentCardIndex) (overview : Overview) : AgentCardIndex × List AgentCardProjection :=
  ((self.project overview).1, [(self.project overview).2])

/-- Cards are tracked by their identity, each with a rank given out before, and none of them is gone.
What went away cannot be opened, and is not much. -/
structure Lawful (index : AgentCardIndex) : Prop where
  agent : ∀ (id : AgentId) (tracked : Tracked), index.tracked[id]? = some tracked →
    tracked.card.agent = id
  present : ∀ (id : AgentId) (tracked : Tracked), index.tracked[id]? = some tracked →
    tracked.card.activity ≠ .gone
  rank : ∀ (id : AgentId) (tracked : Tracked), index.tracked[id]? = some tracked →
    tracked.rank < index.nextRank
  gone : ∀ card ∈ index.history, card.activity = .gone ∧ card.pane = none ∧ card.actionable = false
  short : index.history.length ≤ MAX_HISTORY_CARDS

theorem Lawful.pairwise {index : AgentCardIndex} (h : Lawful index) :
    index.tracked.toList.Pairwise fun left right => left.2.card.agent ≠ right.2.card.agent := by
  refine (List.pairwise_map.mp (nodup_toList index.tracked)).imp_of_mem ?_
  intro left right hleft hright hne
  rw [h.agent left.1 left.2 (ExtTreeMap.mem_toList_iff_getElem?_eq_some.mp hleft),
    h.agent right.1 right.2 (ExtTreeMap.mem_toList_iff_getElem?_eq_some.mp hright)]
  exact hne

theorem activity_buildCard (attention : AttentionIndex) (view : LocalView)
    (snapshot : NormalizedSnapshot) (live : Bool) (agent : AgentState) :
    (buildCard attention view snapshot live agent).activity ≠ .gone := by
  have hphase : ∀ phase : AgentPhase, phase.activity ≠ .gone := by
    intro phase
    cases phase with
    | _ => simp [AgentPhase.activity]
  exact hphase _

theorem activity_of_seen (h : overview.seen[id]? = some card) : card.activity ≠ .gone := by
  obtain ⟨held, hheld, rfl⟩ := overview.listed_of_seen h
  obtain ⟨key, target, -, hcard⟩ := overview.mem_listed.mp (List.mem_filter.mp hheld).1
  obtain ⟨snapshot, pane, agent, -, -, hbuilt⟩ := overview.mem_cardsOf.mp hcard
  have hpresent := activity_buildCard overview.attention overview.view snapshot
    (target.connection = .live) agent
  rw [hbuilt] at hpresent
  split
  · exact hpresent
  · exact hpresent

/-- What is tracked afterwards was seen in the overview, or is withdrawn from what was tracked before. -/
theorem tracked_read {after : Tracked} (h : (self.read overview).tracked[id]? = some after) :
    (∃ card, overview.seen[id]? = some card ∧
      Ranks self.tracked[id]? card self.nextRank (self.read overview).nextRank after) ∨
    (overview.seen.contains id = false ∧ overview.silent id = true ∧
      ∃ before, self.tracked[id]? = some before ∧ after = before.withdrawn) := by
  cases hseen : overview.seen[id]? with
  | some card =>
    obtain ⟨tracked, htracked, hranks⟩ := self.getElem?_read_of_seen overview hseen
    rw [h] at htracked
    cases htracked
    exact .inl ⟨card, rfl, hranks⟩
  | none =>
    have hunseen : overview.seen.contains id = false := by
      rw [ExtTreeMap.contains_eq_isSome_getElem?, hseen]
      rfl
    rw [self.getElem?_read_of_unseen overview hunseen] at h
    split at h
    · next hsilent =>
      obtain ⟨before, hbefore, rfl⟩ := Option.map_eq_some_iff.mp h
      exact .inr ⟨hunseen, hsilent, before, hbefore, rfl⟩
    · cases h

theorem Lawful.read {index : AgentCardIndex} (h : Lawful index) (overview : Overview) :
    Lawful (index.read overview) := by
  refine ⟨?_, ?_, ?_, ?_, ?_⟩
  · intro id after hafter
    rcases tracked_read index overview hafter with
      ⟨card, hseen, hranks⟩ | ⟨-, -, before, hbefore, rfl⟩
    · rw [hranks.card]
      exact overview.agent_of_seen hseen
    · exact h.agent id before hbefore
  · intro id after hafter
    rcases tracked_read index overview hafter with
      ⟨card, hseen, hranks⟩ | ⟨-, -, before, hbefore, rfl⟩
    · rw [hranks.card]
      exact activity_of_seen overview hseen
    · exact h.present id before hbefore
  · intro id after hafter
    have hmore := index.nextRank_read overview
    rcases tracked_read index overview hafter with
      ⟨card, hseen, hranks⟩ | ⟨-, -, before, hbefore, rfl⟩
    · by_cases hkept : ∃ held, index.tracked[id]? = some held ∧ held.cardSection = card.cardSection
      · obtain ⟨held, hheld, hsame⟩ := hkept
        rw [hranks.kept held hheld hsame]
        exact (h.rank id held hheld).trans_le hmore
      · exact (hranks.entered fun held hheld hsame => hkept ⟨held, hheld, hsame⟩).2
    · exact (h.rank id before hbefore).trans_le hmore
  · intro card hcard
    rw [index.history_read overview h.short] at hcard
    rcases List.mem_append.mp (List.mem_of_mem_take hcard) with hnew | hold
    · rw [List.mem_reverse, List.mem_map] at hnew
      obtain ⟨held, -, rfl⟩ := hnew
      exact ⟨rfl, rfl, rfl⟩
    · exact h.gone card hold
  · rw [index.history_read overview h.short]
    exact List.length_take_le _ _

theorem lawful_step (index : AgentCardIndex) (overview : Overview) (h : Lawful index) :
    Lawful (step index overview).1 := by
  have hread := h.read overview
  exact ⟨hread.agent, hread.present, hread.rank, hread.gone, hread.short⟩

theorem lawful_default : Lawful default := by
  constructor <;> simp [default]

end AgentCardIndex

end SuperHerdr
