import SuperHerdr.Library.Transducer
import SuperHerdr.Protocol.State

/-!
# The attention index

The daemon derives attention events from what the agents of live targets report: it remembers
one observation for each pane and numbers an event for each transition it sees. The index keeps
the last `MAX_ATTENTION_EVENTS` events, oldest first. A client derives nothing; it keeps a mirror,
which is seeded with a whole history and fed single events (`mirror`, `apply`).

`observe` is written as two loops that emit what they push, so that what one observation of the
federation does to the history is one statement, `Grows`: it numbers a list of events on from the
last one, appends them, and forgets the oldest.

Event identifiers are natural numbers: the source's counter saturates at the last 64-bit number, so
the two agree as long as the identifiers stay below `2 ^ 64 - 1`.
The time of an event is read off a `clock` by its identifier.
-/

namespace SuperHerdr

open Std Transducer

def ATTENTION_STATE_VERSION : ℕ := 1
def MAX_ATTENTION_EVENTS : ℕ := 256
def MAX_AGENT_OBSERVATIONS : ℕ := 4096

/-! ### Observations -/

/-- What was last seen of the agent in one pane. -/
structure AgentObservation where
  pane : PaneId
  agent : String
  workspace : String
  status : String
  interactiveReady : Bool
deriving DecidableEq

inductive AgentPhase
  | attention
  | working
  | idle
  | unknown
deriving DecidableEq

def agentPhase (status : String) (interactiveReady : Bool) : AgentPhase :=
  let status := status.toLower
  if interactiveReady ∨
      status ∈ ["blocked", "waiting", "waiting_for_input", "needs_input", "ready"] then .attention
  else if status ∈ ["working", "running", "busy", "active"] then .working
  else if status ∈ ["idle", "completed", "done"] then .idle
  else .unknown

/-- The event a change of observation is, if it is one. -/
def transitionKind (previous current : AgentObservation) : Option AttentionEventKind :=
  let previousPhase := agentPhase previous.status previous.interactiveReady
  let currentPhase := agentPhase current.status current.interactiveReady
  if previousPhase = currentPhase then
    if current.interactiveReady ∧ !previous.interactiveReady then some .needsAttention else none
  else
    match currentPhase with
    | .attention => some .needsAttention
    | .working => some .working
    | .idle =>
        if previousPhase = .attention ∨ previousPhase = .working then some .completed
        else some .statusChanged
    | .unknown => some .statusChanged

/-- A printable piece of a text from a host. -/
def boundedMetadata (value : String) (maximumCharacters : ℕ) : String :=
  String.ofList ((value.toList.map fun character =>
    if isControl character then ' ' else character).take maximumCharacters)

/-- What a snapshot says of one of its agents. -/
def NormalizedSnapshot.observation (snapshot : NormalizedSnapshot) (agent : AgentState) :
    AgentObservation :=
  let pane := snapshot.panes[agent.pane]?
  let workspace := pane.bind PaneState.workspace
  { pane := agent.pane
    agent := boundedMetadata (((agent.name <|> agent.agent) <|> pane.bind PaneState.agent).getD
      agent.pane.resource) 128
    workspace := boundedMetadata
      (((workspace.bind (snapshot.workspaces[·]?)).bind WorkspaceState.label <|>
        workspace.map QualifiedId.resource).getD "unassigned") 128
    status := boundedMetadata ((agent.status <|> pane.bind PaneState.agentStatus).getD "unknown") 64
    interactiveReady := agent.interactiveReady.getD false }

/-- The snapshot of a target that is live. -/
def TargetRuntimeState.liveSnapshot (target : TargetRuntimeState) : Option NormalizedSnapshot :=
  if target.connection = .live then target.snapshot else none

namespace FederationState

/-- What the live targets report of their agents, target by target. -/
def reported (state : FederationState) : List AgentObservation :=
  state.targets.toList.flatMap fun (_, target) =>
    match target.liveSnapshot with
    | some snapshot => snapshot.agents.toList.map fun (_, agent) => snapshot.observation agent
    | none => []

/-- The observations a federation makes now, by pane. -/
def current (state : FederationState) : ExtTreeMap PaneId AgentObservation :=
  state.reported.foldl (fun current observation => current.insert observation.pane observation) ∅

/-- The sessions that speak for their panes now. -/
def liveSessions (state : FederationState) : List TargetSession :=
  state.targets.toList.filterMap fun (_, target) => target.liveSnapshot.map fun _ => target.key

end FederationState

/-! ### The index -/

structure AttentionIndex where
  nextEventId : ℕ
  observations : ExtTreeMap PaneId AgentObservation
  /-- Oldest first. -/
  events : List AttentionEvent
deriving DecidableEq

/-- The last of a history that is too long. -/
def boundedHistory (events : List AttentionEvent) : List AttentionEvent :=
  events.drop (events.length - MAX_ATTENTION_EVENTS)

namespace AttentionIndex

def default : AttentionIndex := ⟨0, ∅, []⟩

/-- Number an event and append it; the oldest is forgotten. -/
def pushEvent (clock : ℕ → ℕ) (self : AttentionIndex) (observation : AgentObservation)
    (kind : AttentionEventKind) : AttentionIndex × List AttentionEvent :=
  let event : AttentionEvent :=
    { id := self.nextEventId, pane := observation.pane, agent := observation.agent
      workspace := observation.workspace, status := observation.status, kind
      occurredAtMs := clock self.nextEventId, unread := true }
  ({ self with
      nextEventId := self.nextEventId + 1
      events := boundedHistory (self.events ++ [event]) }, [event])

/-- One observation is compared with the one before. The flag says whether anything changed. -/
def notice (clock : ℕ → ℕ) (s : AttentionIndex × Bool) (observation : AgentObservation) :
    (AttentionIndex × Bool) × List AttentionEvent :=
  let (self, changed) := s
  match self.observations[observation.pane]? with
  | some previous =>
      let ((self, pushed), changed) := match transitionKind previous observation with
        | some kind => (self.pushEvent clock observation kind, true)
        | none => ((self, []), changed)
      if previous ≠ observation then
        (({ self with observations := self.observations.insert observation.pane observation },
          true), pushed)
      else ((self, changed), pushed)
  | none =>
      (({ self with observations := self.observations.insert observation.pane observation },
        true), [])

/-- The agent of one pane is gone. -/
def lose (clock : ℕ → ℕ) (s : AttentionIndex × Bool) (pane : PaneId) :
    (AttentionIndex × Bool) × List AttentionEvent :=
  let (self, changed) := s
  match self.observations[pane]? with
  | some observation =>
      let (self, pushed) :=
        { self with observations := self.observations.erase pane }.pushEvent clock observation
          .disappeared
      ((self, true), pushed)
  | none => ((self, changed), [])

/-- Panes with an observation that a live target no longer reports an agent for. -/
def disappeared (self : AttentionIndex) (state : FederationState) : List PaneId :=
  self.observations.keys.filter fun pane =>
    pane.targetSession ∈ state.liveSessions ∧ pane ∉ state.current

/-- Panes with an observation whose target left the federation. -/
def removed (self : AttentionIndex) (state : FederationState) : List PaneId :=
  self.observations.keys.filter fun pane => pane.targetSession ∉ state.targets

/-- Observe the federation: the index, whether anything changed, and the events pushed. -/
def observe (clock : ℕ → ℕ) (self : AttentionIndex) (state : FederationState) :
    (AttentionIndex × Bool) × List AttentionEvent :=
  let (noticed, transitions) := exec (notice clock) (self, false) state.current.values
  let (lost, departures) := exec (lose clock) noticed (noticed.1.disappeared state)
  let removed := lost.1.removed state
  (({ lost.1 with
        observations := removed.foldl (fun observations pane => observations.erase pane)
          lost.1.observations },
    lost.2 || !removed.isEmpty), transitions ++ departures)

/-! ### A mirror -/

/-- Adopt a history observed elsewhere. -/
def mirror (events : List AttentionEvent) : AttentionIndex :=
  ⟨(events.map fun event => event.id + 1).max?.getD 0, ∅, events⟩

/-- Apply one event observed elsewhere, replacing an earlier copy. The flag says whether it was
new. -/
def apply (self : AttentionIndex) (event : AttentionEvent) : AttentionIndex × Bool :=
  match self.events.findIdx? fun held => held.id = event.id with
  | some position => ({ self with events := self.events.set position event }, false)
  | none =>
      ({ self with
          nextEventId := max self.nextEventId (event.id + 1)
          events := boundedHistory
            ((self.events ++ [event]).mergeSort fun left right => left.id ≤ right.id) }, true)

/-! ### What a person does to it -/

def markSeenForPane (self : AttentionIndex) (pane : PaneId) : AttentionIndex × Bool :=
  ({ self with events := self.events.map fun event =>
      if event.unread ∧ event.pane = pane then { event with unread := false } else event },
    self.events.any fun event => event.unread ∧ event.pane = pane)

def markAllSeen (self : AttentionIndex) : AttentionIndex × Bool :=
  ({ self with events := self.events.map fun event => { event with unread := false } },
    self.events.any fun event => event.unread)

def clearSeen (self : AttentionIndex) : AttentionIndex × Bool :=
  let events := self.events.filter fun event => event.unread
  ({ self with events }, decide (self.events.length ≠ events.length))

end AttentionIndex

/-! ### On disk -/

structure PersistedAttention where
  version : ℕ
  nextEventId : ℕ
  observations : List AgentObservation
  events : List AttentionEvent
deriving DecidableEq

/-- What is written of an index. -/
def PersistedAttention.of (index : AttentionIndex) : PersistedAttention :=
  ⟨ATTENTION_STATE_VERSION, index.nextEventId, index.observations.values, index.events⟩

/-- Read an index back, or say why it cannot be one. -/
def PersistedAttention.toIndex (persisted : PersistedAttention) : Except String AttentionIndex :=
  if persisted.version ≠ ATTENTION_STATE_VERSION then
    .error "persisted attention state has an unsupported version"
  else if MAX_AGENT_OBSERVATIONS < persisted.observations.length then
    .error "persisted attention state has too many agent observations"
  else if MAX_ATTENTION_EVENTS < persisted.events.length then
    .error "persisted attention state has too many events"
  else if ¬(persisted.observations.map AgentObservation.pane).Nodup then
    .error "persisted attention state has duplicate agent observations"
  else
    .ok
      { nextEventId := match (persisted.events.map AttentionEvent.id).max? with
          | some id => max persisted.nextEventId (id + 1)
          | none => persisted.nextEventId
        observations := persisted.observations.foldl
          (fun observations observation => observations.insert observation.pane observation) ∅
        events := persisted.events }

end SuperHerdr
