import SuperHerdr.Protocol.Model

/-!
# The federation as the daemon publishes it

`FederationState` maps each target session to what is known of it: its connection, and the
last snapshot of its workspaces, tabs, panes and agents. The snapshot survives a lost
connection, so only a `live` target's snapshot says what the host holds *now*.

`TargetRuntimeState.differsForClients` decides what is worth republishing. It compares every
field but the two clocks, `lastSuccess` and `retryAt`, which move on every read.
-/

namespace SuperHerdr

open Std

structure ResourceCounts where
  workspaces : ℕ
  tabs : ℕ
  panes : ℕ
  agents : ℕ
deriving DecidableEq

structure WorkspaceState where
  id : WorkspaceId
  activeTab : Option TabId
  label : Option String
  number : Option ℕ
  focused : Bool
  agentStatus : Option String
deriving DecidableEq

structure TabState where
  id : TabId
  workspace : Option WorkspaceId
  label : Option String
  number : Option ℕ
  focused : Bool
  agentStatus : Option String
deriving DecidableEq

structure PaneState where
  id : PaneId
  workspace : Option WorkspaceId
  tab : Option TabId
  terminal : Option TerminalId
  label : Option String
  focused : Bool
  agent : Option String
  agentStatus : Option String
  revision : Option ℕ
deriving DecidableEq

structure LayoutRect where
  x : UInt16
  y : UInt16
  width : UInt16
  height : UInt16
deriving DecidableEq

structure LayoutPane where
  pane : PaneId
  focused : Bool
  rect : LayoutRect
deriving DecidableEq

structure LayoutState where
  workspace : WorkspaceId
  tab : TabId
  zoomed : Bool
  area : LayoutRect
  focusedPane : PaneId
  panes : List LayoutPane
deriving DecidableEq

/-- The agent session a pane is running, as Herdr reports it. -/
structure AgentSessionRef where
  source : String
  agent : String
  kind : String
  value : String
deriving DecidableEq

structure AgentState where
  pane : PaneId
  name : Option String
  agent : Option String
  status : Option String
  interactiveReady : Option Bool
  revision : Option ℕ
  session : Option AgentSessionRef
deriving DecidableEq

/-- One target's snapshot, with every identifier qualified. -/
structure NormalizedSnapshot where
  serverVersion : Option String
  protocol : Option ℕ
  revision : Option ℕ
  capabilities : ExtTreeSet String
  counts : ResourceCounts
  focusedWorkspace : Option WorkspaceId
  focusedTab : Option TabId
  focusedPane : Option PaneId
  workspaces : ExtTreeMap WorkspaceId WorkspaceState
  tabs : ExtTreeMap TabId TabState
  panes : ExtTreeMap PaneId PaneState
  layouts : ExtTreeMap TabId LayoutState
  agents : ExtTreeMap PaneId AgentState
  terminals : ExtTreeSet TerminalId
deriving DecidableEq

inductive TargetConnectionState
  | connecting
  | live
  | backoff (attempt : ℕ)
  | incompatible
deriving DecidableEq

inductive TargetUpdateMode
  | polling
  | events
deriving DecidableEq

/-- What the daemon knows of one target. -/
structure TargetRuntimeState where
  key : TargetSession
  endpoint : String
  connection : TargetConnectionState
  updateMode : TargetUpdateMode
  eventError : Option String
  connectionGeneration : ℕ
  selectedHerdrBin : Option String
  roots : List String
  snapshot : Option NormalizedSnapshot
  lastError : Option String
  lastSuccess : Option ℕ
  retryAt : Option ℕ
deriving DecidableEq

/-- Whether this differs in a way a client could act on. The two clocks are left out. -/
def TargetRuntimeState.differsForClients (self other : TargetRuntimeState) : Bool :=
  self.key != other.key
    || self.endpoint != other.endpoint
    || self.connection != other.connection
    || self.updateMode != other.updateMode
    || self.eventError != other.eventError
    || self.connectionGeneration != other.connectionGeneration
    || self.selectedHerdrBin != other.selectedHerdrBin
    || self.roots != other.roots
    || self.snapshot != other.snapshot
    || self.lastError != other.lastError

/-- The whole federation, by target session. -/
structure FederationState where
  revision : ℕ
  targets : ExtTreeMap TargetSession TargetRuntimeState
deriving DecidableEq

/-- The federation before anything is known of it. -/
def FederationState.default : FederationState := ⟨0, ∅⟩

end SuperHerdr
