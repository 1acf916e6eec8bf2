import Mathlib.Data.Nat.Notation
import Std.Data.ExtTreeMap
import Std.Data.ExtTreeSet

/-!
# Identities and the records clients and daemon exchange

Every resource crosses the wire as a `QualifiedId`: the target, the Herdr session and the
server-local identifier. Maps keyed by one are ordered lexicographically, field by field, as
the source's derived order is; the order instances below make `Std.ExtTreeMap` the model of
its `BTreeMap` and `Std.ExtTreeSet` of its `BTreeSet`.

The remaining records are payloads. The broker carries them between a client and the I/O
layer and decides nothing from them, so they are here with all their fields and without
operations. Counters, timestamps and request identifiers are natural numbers; terminal sizes
are `UInt16` and terminal bytes `UInt8`, as in the source.
-/

namespace SuperHerdr

open Std

/-! ### Text -/

/-- The control characters, Unicode's category `Cc`. -/
def isControl (c : Char) : Bool :=
  c.val < 0x20 || (0x7f ≤ c.val && c.val ≤ 0x9f)

/-! ### Qualified identities -/

/-- One Herdr session on one target. -/
structure TargetSession where
  target : String
  session : String
deriving DecidableEq, Repr

/-- What a qualified identifier names. -/
inductive ResourceKind
  | workspace
  | tab
  | pane
  | agent
  | terminal
deriving DecidableEq, Repr

/-- A server-local identifier together with the target and session that own it. The kind is
a phantom index: identifiers of different kinds never mix. -/
structure QualifiedId (kind : ResourceKind) where
  target : String
  session : String
  resource : String
deriving DecidableEq, Repr

instance {kind : ResourceKind} : LawfulBEq (QualifiedId kind) := inferInstance

abbrev WorkspaceId := QualifiedId .workspace
abbrev TabId := QualifiedId .tab
abbrev PaneId := QualifiedId .pane
abbrev AgentId := QualifiedId .agent
abbrev TerminalId := QualifiedId .terminal

/-- The session a resource belongs to. -/
def QualifiedId.targetSession {kind : ResourceKind} (id : QualifiedId kind) : TargetSession :=
  ⟨id.target, id.session⟩

instance {kind : ResourceKind} : ToString (QualifiedId kind) :=
  ⟨fun id => id.target ++ "/" ++ id.session ++ "/" ++ id.resource⟩

/-! ### The derived orders -/

instance : Ord TargetSession :=
  ⟨compareLex (compareOn TargetSession.target) (compareOn TargetSession.session)⟩

instance : TransOrd TargetSession :=
  inferInstanceAs
    (TransCmp (compareLex (compareOn TargetSession.target) (compareOn TargetSession.session)))

instance : LawfulEqOrd TargetSession where
  eq_of_compare {a b} h := by
    obtain ⟨ht, hs⟩ := compareLex_eq_eq.mp h
    cases a
    cases b
    rw [TargetSession.mk.injEq]
    exact ⟨LawfulEqOrd.eq_of_compare ht, LawfulEqOrd.eq_of_compare hs⟩

instance {kind : ResourceKind} : Ord (QualifiedId kind) :=
  ⟨compareLex (compareOn QualifiedId.target)
    (compareLex (compareOn QualifiedId.session) (compareOn QualifiedId.resource))⟩

instance {kind : ResourceKind} : TransOrd (QualifiedId kind) :=
  inferInstanceAs (TransCmp (compareLex (compareOn (@QualifiedId.target kind))
    (compareLex (compareOn QualifiedId.session) (compareOn QualifiedId.resource))))

instance {kind : ResourceKind} : LawfulEqOrd (QualifiedId kind) where
  eq_of_compare {a b} h := by
    obtain ⟨ht, hrest⟩ := compareLex_eq_eq.mp h
    obtain ⟨hs, hr⟩ := compareLex_eq_eq.mp hrest
    cases a
    cases b
    rw [QualifiedId.mk.injEq]
    exact ⟨LawfulEqOrd.eq_of_compare ht, LawfulEqOrd.eq_of_compare hs,
      LawfulEqOrd.eq_of_compare hr⟩

/-! ### Terminals -/

/-- What a client may do with a pane: watch it, or type into it. -/
inductive TerminalAccess
  | observe
  | control
deriving DecidableEq, Repr

inductive TerminalScrollDirection
  | up
  | down
deriving DecidableEq, Repr

/-- What a pane subscriber is sent for each frame: encoded output, or a rendered screen. -/
inductive PaneRepresentation
  | frames
  | screen
deriving DecidableEq, Repr

instance : Inhabited PaneRepresentation := ⟨.frames⟩

/-! ### Operations and plugins -/

inductive SplitDirection
  | right
  | down
deriving DecidableEq, Repr

structure PluginActionId where
  target : TargetSession
  pluginId : String
  actionId : String
deriving DecidableEq, Repr

inductive PluginActionContext
  | global
  | workspace
  | tab
  | pane
  | selection
  | unsupported
deriving DecidableEq, Repr

structure PluginAction where
  id : PluginActionId
  title : String
  description : Option String
  contexts : List PluginActionContext
deriving DecidableEq, Repr

structure PluginRunId where
  target : TargetSession
  pluginId : String
  logId : String
deriving DecidableEq, Repr

inductive PluginRunStatus
  | running
  | succeeded
  | failed
deriving DecidableEq, Repr

structure PluginRun where
  id : PluginRunId
  actionId : Option String
  status : PluginRunStatus
deriving DecidableEq, Repr

inductive PluginInvocationTarget
  | session (target : TargetSession)
  | workspace (workspace : WorkspaceId)
  | tab (tab : TabId)
  | pane (pane : PaneId)
deriving DecidableEq, Repr

/-- A resolved operation on a Herdr server: everything left once the client has finished
asking. -/
inductive Operation
  | createWorkspace (target : TargetSession) (label : String)
  | renameWorkspace (workspace : WorkspaceId) (label : String)
  | closeWorkspace (workspace : WorkspaceId)
  | moveWorkspace (workspace destination : WorkspaceId)
  | recreateWorkspace (workspace : WorkspaceId) (destination : TargetSession)
      (label : Option String)
  | createTab (workspace : WorkspaceId)
  | renameTab (tab : TabId) (label : String)
  | closeTab (tab : TabId)
  | splitPane (pane : PaneId) (direction : SplitDirection)
  | togglePaneZoom (pane : PaneId)
  | closePane (pane : PaneId)
  | invokePluginAction (action : PluginActionId) (context : PluginInvocationTarget)
      (title : String)
deriving DecidableEq, Repr

/-! ### Local names, marks and cards -/

/-- A resource a person may name, favourite or slot locally. -/
inductive ResourceRef
  | target (id : TargetSession)
  | workspace (id : WorkspaceId)
  | tab (id : TabId)
  | pane (id : PaneId)
  | agent (id : AgentId)
deriving DecidableEq, Repr

/-- One change to this installation's own names, favourites and slots. -/
inductive LocalChange
  | name (resource : ResourceRef) (label : Option String) (observed : String)
  | confirmName (resource : ResourceRef) (observed : String)
  | favourite (resource : ResourceRef)
  | slot (slot : UInt8) (resource : Option ResourceRef)
deriving DecidableEq, Repr

inductive NotifyMode
  | default
  | needsYouOnly
deriving DecidableEq, Repr

structure AgentMarkState where
  pinned : Bool
  muted : Bool
  snoozedUntilMs : Option ℕ
  notify : NotifyMode
deriving DecidableEq, Repr

inductive AgentMarkRequest
  | pin (pinned : Bool)
  | mute (muted : Bool)
  | snooze (minutes : Option ℕ)
  | notify (mode : NotifyMode)
deriving DecidableEq, Repr

inductive AgentCardSection
  | needsYou
  | working
  | recent
deriving DecidableEq, Repr

inductive AgentActivity
  | needsInput
  | working
  | idle
  | unknown
  | gone
deriving DecidableEq, Repr

/-- One agent, as the inbox shows it. -/
structure AgentCard where
  agent : AgentId
  pane : Option PaneId
  title : String
  workspace : String
  tab : String
  paneLabel : String
  provider : Option String
  activity : AgentActivity
  status : String
  cardSection : AgentCardSection
  unread : Bool
  stale : Bool
  actionable : Bool
  lastChangeMs : Option ℕ
  marks : AgentMarkState
  «alias» : Option String
  aliasSuspended : Bool
  favourite : Bool
deriving DecidableEq, Repr

/-- The whole inbox, in the order it should be rendered. -/
structure AgentCardProjection where
  version : ℕ
  revision : ℕ
  needsYou : List AgentCard
  working : List AgentCard
  recent : List AgentCard
deriving DecidableEq, Repr

/-! ### Attention, replies and remote files -/

inductive AttentionEventKind
  | needsAttention
  | working
  | completed
  | statusChanged
  | disappeared
deriving DecidableEq, Repr

structure AttentionEvent where
  id : ℕ
  pane : PaneId
  agent : String
  workspace : String
  status : String
  kind : AttentionEventKind
  occurredAtMs : ℕ
  unread : Bool
deriving DecidableEq, Repr

/-- A one-tap reply the daemon is configured to offer. -/
structure QuickReply where
  label : String
  send : String
  submit : Bool
  confirm : Bool
deriving DecidableEq, Repr

inductive RemoteEntryKind
  | directory
  | file
  | other
deriving DecidableEq, Repr

structure RemoteEntry where
  kind : RemoteEntryKind
  name : String
deriving DecidableEq, Repr

structure RemoteListing where
  root : String
  path : String
  entries : List RemoteEntry
  truncated : Bool
deriving DecidableEq, Repr

end SuperHerdr
