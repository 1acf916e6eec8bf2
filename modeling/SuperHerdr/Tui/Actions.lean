import SuperHerdr.Tui.Input

/-!
# Actions and overlays

What a person can choose, and the nine overlays the choices are made in. At most one of an
overlay's kind is open, so each is an optional record of the application; seven of them are opened
by the person, and two, the pairing code and the approval of a device, by the daemon.

A target's form is one text prompt after another and touches nothing until it is saved; its fields
are not here.
-/

namespace SuperHerdr

def Operation.targetSession : Operation → TargetSession
  | .createWorkspace target _ => target
  | .renameWorkspace workspace _ | .closeWorkspace workspace | .moveWorkspace workspace _
  | .recreateWorkspace workspace _ _ | .createTab workspace => workspace.targetSession
  | .renameTab tab _ | .closeTab tab => tab.targetSession
  | .splitPane pane _ | .togglePaneZoom pane | .closePane pane => pane.targetSession
  | .invokePluginAction action _ _ => action.target

/-- The session an operation writes to. -/
def Operation.destinationSession : Operation → TargetSession
  | .recreateWorkspace _ destination _ => destination
  | other => other.targetSession

def PluginInvocationTarget.targetSession : PluginInvocationTarget → TargetSession
  | .session id => id
  | .workspace id => id.targetSession
  | .tab id => id.targetSession
  | .pane id => id.targetSession

namespace Tui

/-! ### Actions -/

inductive ResourceAction
  | jumpToPane (pane : PaneId) (label : String)
  | openTargetManager
  | openAgentNavigator
  | openAttentionCenter
  | createWorkspace (target : TargetSession)
  | renameWorkspace (workspace : WorkspaceId) (currentLabel : String)
  | closeWorkspace (workspace : WorkspaceId) (label : String)
  | moveWorkspace (workspace destination : WorkspaceId) (label destinationLabel : String)
  | recreateWorkspace (workspace : WorkspaceId) (destination : TargetSession) (label : String)
  | createTab (workspace : WorkspaceId)
  | renameTab (tab : TabId) (currentLabel : String)
  | closeTab (tab : TabId) (label : String)
  | splitPane (pane : PaneId) (direction : SplitDirection)
  | togglePaneZoom (pane : PaneId)
  | closePane (pane : PaneId) (label : String)
  | invokePluginAction (action : PluginAction) (context : PluginInvocationTarget)
  | saveFileFromPane (pane : PaneId) (label : String)
  | transferFileBetween (source destination : PaneId) (label destinationLabel : String)
  | cancelFileTransfer
  | markAgent (agent : AgentId) (mark : AgentMarkRequest) (label : String)
deriving DecidableEq

namespace ResourceAction

def mutatesHerdr : ResourceAction → Bool
  | .jumpToPane .. | .openTargetManager | .openAgentNavigator | .openAttentionCenter
  | .markAgent .. | .saveFileFromPane .. | .cancelFileTransfer => false
  | _ => true

def isDestructive : ResourceAction → Bool
  | .closeWorkspace .. | .closeTab .. | .closePane .. => true
  | _ => false

def isPluginAction : ResourceAction → Bool
  | .invokePluginAction .. => true
  | _ => false

end ResourceAction

/-- Whether a plugin's action can be invoked on a resource. -/
def offeredFor (action : PluginAction) (target : PluginInvocationTarget) : Bool :=
  let supported : List PluginActionContext := match target with
    | .session _ => [.global]
    | .workspace _ => [.global, .workspace]
    | .tab _ => [.global, .workspace, .tab]
    | .pane _ => [.global, .workspace, .tab, .pane]
  action.id.target = target.targetSession && supported.any (· ∈ action.contexts)

def pluginResourceActions (catalog : List PluginAction) (target : PluginInvocationTarget) :
    List ResourceAction :=
  (catalog.filter (offeredFor · target)).map fun action => .invokePluginAction action target

/-- Put a target's plugin actions before the first destructive one. -/
def insertPluginActions (actions : List ResourceAction) (catalog : List PluginAction)
    (target : PluginInvocationTarget) : List ResourceAction :=
  actions.takeWhile (!·.isDestructive) ++ pluginResourceActions catalog target ++
    actions.dropWhile (!·.isDestructive)

/-! ### Overlays -/

/-- What a context menu was opened on. -/
inductive ContextTarget
  | session (target : TargetSession)
  | workspace (workspace : WorkspaceId)
  | tab (tab : TabId)
  | pane (pane : PaneId)
deriving DecidableEq

def ContextTarget.invocation : ContextTarget → PluginInvocationTarget
  | .session id => .session id
  | .workspace id => .workspace id
  | .tab id => .tab id
  | .pane id => .pane id

def ContextTarget.targetSession (self : ContextTarget) : TargetSession :=
  self.invocation.targetSession

structure ContextMenu where
  actions : List ResourceAction
  target : ContextTarget
  selected : ℕ
  pressed : Option ℕ
deriving DecidableEq

structure CommandPalette where
  query : String
  selected : ℕ
deriving DecidableEq

inductive TextPromptAction
  | saveFile (pane : PaneId)
  | transferFile (source destination : PaneId)
  | sendFile (pane : PaneId)
  | createWorkspace (target : TargetSession)
  | renameWorkspace (workspace : WorkspaceId)
  | renameTab (tab : TabId)
deriving DecidableEq

structure TextPrompt where
  value : String
  action : TextPromptAction
  error : Option String
  /-- Bytes of a character that has not finished arriving. -/
  partialBytes : List UInt8
deriving DecidableEq

def TextPrompt.new (action : TextPromptAction) : TextPrompt := ⟨"", action, none, []⟩

structure CloseConfirmation where
  action : ResourceAction
deriving DecidableEq

inductive TargetManagerMode
  | list
  | form
  | confirmRemove (name : String)
deriving DecidableEq

inductive TargetManagerControl
  | target (index : ℕ)
  | add
  | edit
  | remove
  | close
  /-- A field or a button of the form that is not its last. -/
  | field (index : ℕ)
  | save
  | cancel
  | confirmRemove
  | cancelRemove
deriving DecidableEq

structure TargetManager where
  targets : List String
  selected : ℕ
  mode : TargetManagerMode
  mousePress : Option TargetManagerControl
deriving DecidableEq

def TargetManager.new (targets : List String) : TargetManager := ⟨targets, 0, .list, none⟩

inductive AgentFilter
  | all
  | attention
  | active
deriving DecidableEq

def AgentFilter.next : AgentFilter → AgentFilter
  | .all => .attention
  | .attention => .active
  | .active => .all

structure AgentNavigator where
  filter : AgentFilter
  selected : ℕ
deriving DecidableEq

def AgentNavigator.default : AgentNavigator := ⟨.attention, 0⟩

structure AttentionCenter where
  selected : ℕ
deriving DecidableEq

/-- A pairing code the daemon has just issued, and where to take it. -/
structure PairingOffer where
  code : String
  url : Option String
  expiresInSeconds : ℕ
deriving DecidableEq

structure PairingApproval where
  attempt : String
  name : String
  confirmation : String
  expiresInSeconds : ℕ
deriving DecidableEq

inductive Overlay
  | contextMenu
  | closeConfirmation
  | textPrompt
  | commandPalette
  | targetManager
  | pairingApproval
  | pairing
  | agentNavigator
  | attentionCenter
deriving DecidableEq

end Tui

end SuperHerdr
