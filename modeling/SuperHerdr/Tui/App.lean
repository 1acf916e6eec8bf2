import SuperHerdr.Attention.Index
import SuperHerdr.Client.Window
import SuperHerdr.Federation.Supervisor
import SuperHerdr.Tui.Actions

/-!
# The terminal frontend's state

`App` is what the frontend remembers between two events. Everything it sends goes to `outbox`,
which is emptied before each event; what is sent to a pane carries its `Origin` there, which the
daemon is not told. Request identifiers come from one counter, shared by all requests.

What an event meets outside the program is its `World`: the federation as last published, the
clock, the clipboard, the disk, what the emulators answer, and what lies under the pointer. The
functions that lay out the screen and list the actions it offers are part of it, so nothing here
depends on them. The line of text at the bottom of the screen is left out: nothing reads it.
-/

namespace SuperHerdr

namespace Tui

open Std

/-! ### What is sent -/

/-- Why something is sent to a pane. -/
inductive Origin
  /-- A key that was not the frontend's. -/
  | typed
  | mouse
  | pasted
  /-- Files that a paste named. -/
  | dropped
  /-- The prefix key, pressed after itself. -/
  | literal
  | clipboard
  /-- A file that a prompt named. -/
  | prompted
  /-- Paths of files that were uploaded to this pane. -/
  | verified (destination : PaneId)
  /-- A selection that is dragged to an edge. -/
  | autoscroll
  /-- Anything else. -/
  | plain
deriving DecidableEq

/-- Whether what is sent is part of the event that is handled. -/
def Origin.carries : Origin → Bool
  | .typed | .mouse | .pasted | .dropped => true
  | _ => false

/-- Files copied together, arriving apart. Where they were offered is only recorded. -/
structure UploadBatch where
  expected : ℕ
  paths : ExtTreeMap ℕ String
  failures : List String
  destination : PaneId
deriving DecidableEq

inductive Effect
  | send (origin : Origin) (message : ClientMessage)
  /-- A file is streamed under an offer already made. -/
  | stream (request : ℕ) (path : String) (length : ℕ)
  /-- The files of a batch were offered, each under its request and its name. -/
  | started (batch : ℕ) (requests : List (ℕ × String))
  /-- A batch is settled, and what it amounts to is reported. -/
  | settled (batch : ℕ) (state : UploadBatch)
  /-- A target is taken out of the configuration. -/
  | removeTarget (name : String)
deriving DecidableEq

def Effect.carries : Effect → Bool
  | .send origin _ => origin.carries
  | _ => false

/-! ### What is remembered -/

/-- A pane this frontend is watching. -/
structure ActiveRoute where
  pane : PaneId
  requested : TerminalAccess
  /-- What the daemon granted. -/
  access : TerminalAccess
  generation : ℕ
  rows : UInt16
  columns : UInt16
  parser : Parser
  lastSequence : Option ℕ
deriving DecidableEq

structure CellPosition where
  row : ℤ
  column : UInt16
deriving DecidableEq

structure TerminalSelection where
  pane : PaneId
  anchor : CellPosition
  head : CellPosition
  viewportOffset : ℤ
  dragging : Bool
  forwardedClick : Option MouseInput
deriving DecidableEq

structure SelectionAutoscroll where
  pane : PaneId
  direction : TerminalScrollDirection
  column : UInt16
  pendingLines : ℕ
deriving DecidableEq

/-- A focus to adopt once the session that was acted on reports one the operation could have
produced. -/
structure FollowedFocus where
  session : TargetSession
  before : List PaneId
  deadline : ℕ
deriving DecidableEq

structure PendingOperation where
  followServerFocus : Bool
  followSession : TargetSession
deriving DecidableEq

structure UploadBatchEntry where
  batch : ℕ
  position : ℕ
deriving DecidableEq

/-- An upload the daemon moves. Where it was offered is only recorded. -/
structure PendingUpload where
  described : String
  batch : Option UploadBatchEntry
  destination : PaneId
deriving DecidableEq

structure PluginCatalog where
  generation : ℕ
  actions : List PluginAction
  loadedAt : ℕ
deriving DecidableEq

structure PendingPluginCatalog where
  target : TargetSession
  generation : ℕ
deriving DecidableEq

/-- The file being written onto this machine. -/
structure FileSave where
  request : ℕ
  name : String
  length : ℕ
  digest : String
  received : List UInt8
  outstanding : ℕ
deriving DecidableEq

structure Size where
  width : UInt16
  height : UInt16
deriving DecidableEq

/-- The two counters wrap around in the source behind `2 ^ 64` requests, and so many uploads; what is
proved of them is proved short of that. -/
structure App where
  selectedPane : Option PaneId
  followedFocus : Option FollowedFocus
  restorePending : Option PaneId
  mode : InputMode
  routes : ExtTreeMap PaneId ActiveRoute
  routeRetryAfter : ExtTreeMap PaneId ℕ
  nextRequest : ℕ
  pendingOperations : ExtTreeMap ℕ PendingOperation
  pluginCatalogs : ExtTreeMap TargetSession PluginCatalog
  pendingPluginCatalogs : ExtTreeMap ℕ PendingPluginCatalog
  fileSave : Option FileSave
  fileSaveRequest : Option ℕ
  pendingUploads : ExtTreeMap ℕ PendingUpload
  uploadBatches : ExtTreeMap ℕ UploadBatch
  nextUploadBatch : ℕ
  lastFrameArea : Option Size
  selection : Option TerminalSelection
  selectionAutoscroll : Option SelectionAutoscroll
  swallowLeftGesture : Bool
  sidebarPress : Option PaneId
  configuredTargets : List String
  /-- The sockets of the targets as they resolved. -/
  resolvedTargets : ExtTreeMap TargetSession (Option String)
  maxTransferBytes : ℕ
  attention : AttentionIndex
  targetManager : Option TargetManager
  agentNavigator : Option AgentNavigator
  pairing : Option PairingOffer
  pairingApproval : Option PairingApproval
  attentionCenter : Option AttentionCenter
  commandPalette : Option CommandPalette
  contextMenu : Option ContextMenu
  textPrompt : Option TextPrompt
  closeConfirmation : Option CloseConfirmation
  herdrActionInflight : Bool
  /-- Whether the person asked to quit. -/
  quitting : Bool
  outbox : List Effect
deriving DecidableEq

/-! ### What is outside -/

/-- A part of the screen. -/
inductive Region
  | sidebar
  | tabs
  | elsewhere
deriving DecidableEq

/-- How a person moves the selection. -/
inductive Navigation
  | neighbour (direction : UInt8)
  | workspace (index : ℕ)
  | tabIndex (index : ℕ)
  | cycleTab (forward : Bool)
  | tab (tab : TabId)
deriving DecidableEq

/-- What the disk says of a path. -/
structure LocalFile where
  name : Option String
  isFile : Bool
  length : ℕ
deriving DecidableEq

structure World where
  state : FederationState
  /-- The clock, in seconds. -/
  now : ℕ
  frameArea : Size
  emulator : Emulator
  /-- How far a viewport moved between two screens. -/
  viewportShift : Parser → Parser → TerminalScrollDirection → Option ℕ
  clipboardText : Option String
  clipboardMedia : Option (String × List UInt8)
  clipboardFiles : List String
  /-- The files a paste names, if it names nothing else. -/
  droppedFiles : String → List String
  droppedPath : String → String
  localFile : String → Option LocalFile
  digest : List UInt8 → String
  contextActions : App → ContextTarget → Option (List ResourceAction)
  paletteActions : App → String → List ResourceAction
  agentJumpEntries : AgentFilter → List PaneId
  navigate : App → Navigation → Option PaneId
  region : App → MouseInput → Region
  sidebarHit : App → MouseInput → Option (Option PaneId × Option ContextTarget)
  tabAtColumn : App → MouseInput → Option TabId
  mousePanePosition : App → MouseInput → Option (PaneId × CellPosition × MouseInput)
  clampedPanePosition : App → MouseInput → PaneId → Option CellPosition
  autoscrollDirection : App → MouseInput → PaneId → Option TerminalScrollDirection
  contextMenuActionAt : App → MouseInput → Option ℕ
  targetManagerControl : App → MouseInput → Option TargetManagerControl
  /-- The visible panes with the size of what is inside their borders. -/
  visiblePanes : App → List (PaneId × Size)
  /-- The targets after a form was saved, if it can be. -/
  formSaved : Option (List String)
  /-- The targets after one was removed, if it can be. -/
  targetRemoved : String → Option (List String)
  /-- Whether a download can be opened under a name, and its pieces written. -/
  saveOpens : String → Bool
  saveWrites : Bool

namespace App

/-- A frontend that starts, with the pane it last had selected. -/
def start (restorePending : Option PaneId) (configuredTargets : List String)
    (resolvedTargets : ExtTreeMap TargetSession (Option String)) (maxTransferBytes : ℕ) : App where
  selectedPane := none
  followedFocus := none
  restorePending := restorePending
  mode := .terminal
  routes := ∅
  routeRetryAfter := ∅
  nextRequest := 0
  pendingOperations := ∅
  pluginCatalogs := ∅
  pendingPluginCatalogs := ∅
  fileSave := none
  fileSaveRequest := none
  pendingUploads := ∅
  uploadBatches := ∅
  nextUploadBatch := 0
  lastFrameArea := none
  selection := none
  selectionAutoscroll := none
  swallowLeftGesture := false
  sidebarPress := none
  configuredTargets := configuredTargets
  resolvedTargets := resolvedTargets
  maxTransferBytes := maxTransferBytes
  attention := .default
  targetManager := none
  agentNavigator := none
  pairing := none
  pairingApproval := none
  attentionCenter := none
  commandPalette := none
  contextMenu := none
  textPrompt := none
  closeConfirmation := none
  herdrActionInflight := false
  quitting := false
  outbox := []

/-! ### What is done everywhere -/

def perform (self : App) (effect : Effect) : App :=
  { self with outbox := self.outbox ++ [effect] }

def send (self : App) (message : ClientMessage) : App := self.perform (.send .plain message)

def clearSelection (self : App) : App :=
  { self with selection := none, selectionAutoscroll := none }

/-- Mark a pane's events read here and ask the daemon to do the same. -/
def markAttentionSeen (self : App) (pane : PaneId) : App :=
  let (attention, changed) := self.attention.markSeenForPane pane
  let self := { self with attention }
  if changed then self.send (.markAttentionSeen pane) else self

def selectPane (self : App) (pane : PaneId) : App :=
  { self with
    followedFocus := none
    restorePending := none
    selection := none
    selectionAutoscroll := none
    sidebarPress := none
    selectedPane := some pane
    routeRetryAfter := self.routeRetryAfter.erase pane }.markAttentionSeen pane

/-- Select what a navigation leads to, if anything. -/
def go (world : World) (self : App) (navigation : Navigation) : App :=
  match world.navigate self navigation with
  | some pane => self.selectPane pane
  | none => self

def dropRoute (self : App) (pane : PaneId) : App := { self with routes := self.routes.erase pane }

/-- Submit one resolved operation to the daemon. -/
def runOperation (self : App) (operation : Operation) (followServerFocus : Bool) : App :=
  if self.herdrActionInflight then self
  else
    { self with
      nextRequest := self.nextRequest + 1
      herdrActionInflight := true
      pendingOperations := self.pendingOperations.insert self.nextRequest
        ⟨followServerFocus, operation.destinationSession⟩ }.send
      (.runOperation self.nextRequest operation)

/-- Run an operation against the selected pane. -/
def runSelectedPaneOperation (self : App) (build : PaneId → Operation)
    (followServerFocus : Bool) : App :=
  match self.selectedPane with
  | none => self
  | some pane => self.runOperation (build pane) followServerFocus

end App

/-! ### Reading the federation -/

def selectedSnapshotAndPane (state : FederationState) (selected : Option PaneId) :
    Option (NormalizedSnapshot × PaneState) := do
  let selected ← selected
  let target ← state.targets[selected.targetSession]?
  let snapshot ← target.snapshot
  let pane ← snapshot.panes[selected]?
  return (snapshot, pane)

/-- The panes of the live targets, target by target. -/
def selectablePanes (state : FederationState) : List PaneId :=
  state.targets.toList.flatMap fun entry =>
    match entry.2.liveSnapshot with
    | some snapshot => snapshot.panes.toList.map (·.1)
    | none => []

def paneIsLive (state : FederationState) (pane : PaneId) : Bool :=
  match state.targets[pane.targetSession]?.bind TargetRuntimeState.liveSnapshot with
  | some snapshot => snapshot.panes.contains pane
  | none => false

/-- Whether a target can take an atomic paste. -/
def atomicPasteAvailable (resolved : ExtTreeMap TargetSession (Option String))
    (key : TargetSession) : Bool :=
  match resolved[key]? with
  | some socket => socket.isSome
  | none => false

/-- Whether a host can list its plugins' actions: it says so, or its protocol does. -/
def supportsPluginActions (snapshot : Option NormalizedSnapshot) : Bool :=
  match snapshot with
  | none => false
  | some snapshot =>
      snapshot.capabilities.contains "plugins" || snapshot.protocol.any fun protocol => 20 ≤ protocol

def PLUGIN_CATALOG_REFRESH_INTERVAL : ℕ := 60

namespace App

/-! ### Plugin catalogues -/

def ensurePluginCatalog (world : World) (self : App) (target : TargetSession) : App :=
  match world.state.targets[target]? with
  | none => self
  | some runtime =>
      if runtime.connection ≠ .live ∨ !supportsPluginActions runtime.snapshot then self
      else
        let fresh := match self.pluginCatalogs[target]? with
          | some catalog => catalog.generation = runtime.connectionGeneration &&
              world.now - catalog.loadedAt < PLUGIN_CATALOG_REFRESH_INTERVAL
          | none => false
        let asked := self.pendingPluginCatalogs.toList.any fun entry =>
          entry.2.target = target ∧ entry.2.generation = runtime.connectionGeneration
        if fresh || asked then self
        else
          { self with
            nextRequest := self.nextRequest + 1
            pendingPluginCatalogs := self.pendingPluginCatalogs.insert self.nextRequest
              ⟨target, runtime.connectionGeneration⟩ }.send
            (.listPluginActions self.nextRequest target)

def ensurePluginCatalogs (world : World) (self : App) : App :=
  let self := { self with pluginCatalogs := self.pluginCatalogs.filter fun target _ =>
    world.state.targets.contains target }
  (world.state.targets.toList.map (·.1)).foldl (ensurePluginCatalog world) self

end App

end Tui

end SuperHerdr
