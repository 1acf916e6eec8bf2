import SuperHerdr.Protocol.State
import SuperHerdr.Screen.Snapshot

/-!
# The wire contract

`ClientMessage` is what a client sends and `ServerMessage` what the daemon sends, one
constructor for each message of the protocol, with all its fields. Requests that report an
outcome carry a request identifier the daemon echoes; `ClientMessage.request` reads it off.

Some messages act on a pane as a person at its keyboard would: they need the pane's control
lease, and one of them needs two. `ClientMessage.leased` lists the panes whose lease a message
answers to.
-/

namespace SuperHerdr

/-- Incremented only for a change a peer at the previous version cannot honor. -/
def PROTOCOL_VERSION : ℕ := 3

/-- Sent by a client. -/
inductive ClientMessage
  | hello (protocol : ℕ) (client : String)
  | subscribeState
  | subscribePane (pane : PaneId) (access : TerminalAccess) (cols rows : UInt16)
      (representation : PaneRepresentation)
  | ackPaneScreen (pane : PaneId) (sequence : ℕ)
  | unsubscribePane (pane : PaneId)
  | takePaneControl (pane : PaneId) (onlyIfFree : Bool)
  | paneInput (pane : PaneId) (bytes : List UInt8)
  | paneResize (pane : PaneId) (cols rows : UInt16)
  | paneScroll (pane : PaneId) (direction : TerminalScrollDirection)
      (lines column row : UInt16) (modifiers : UInt8)
  | runOperation (request : ℕ) (operation : Operation)
  | listPluginActions (request : ℕ) (target : TargetSession)
  | getPluginRun (request : ℕ) (run : PluginRunId)
  | pastePaneText (request : ℕ) (pane : PaneId) (text : String)
  | beginUpload (request : ℕ) (pane : PaneId) (mime : String) (name : Option String)
      (length : ℕ)
  | resumeUpload (request : ℕ) (transfer : String) (pane : PaneId) (length : ℕ)
  | uploadChunk (request : ℕ) (bytes : List UInt8)
  | finishUpload (request : ℕ) (digest : String)
  | cancelUpload (request : ℕ)
  | beginDownload (request : ℕ) (pane : PaneId) (path : String)
  | pullDownload (request : ℕ) (chunks : ℕ)
  | cancelDownload (request : ℕ)
  | transferBetween (request : ℕ) (source : PaneId) (path : String) (destination : PaneId)
      (name : Option String)
  | markAttentionSeen (pane : PaneId)
  | markAllAttentionSeen
  | requestPairingCode (request : ℕ)
  | decidePairing (attempt : String) (approve : Bool)
  | clearSeenAttention
  | subscribeAgentCards
  | markAgent (request : ℕ) (agent : AgentId) (mark : AgentMarkRequest)
  | subscribeNotifications
  | unsubscribeNotifications
  | listRemoteDirectory (request : ℕ) (target : TargetSession) (root path : String)
  | nameResource (request : ℕ) (resource : ResourceRef) (label : Option String)
      (observed : String)
  | confirmResourceName (request : ℕ) (resource : ResourceRef) (observed : String)
  | favouriteResource (request : ℕ) (resource : ResourceRef)
  | setJumpSlot (request : ℕ) (slot : UInt8) (resource : Option ResourceRef)
  | searchRemoteFiles (request : ℕ) (target : TargetSession) (root query : String)
      (glob : Bool)
deriving DecidableEq

/-- The request identifier a message carries, if it reports an outcome. -/
def ClientMessage.request : ClientMessage → Option ℕ
  | .runOperation request _ | .listPluginActions request _ | .getPluginRun request _
  | .pastePaneText request _ _ | .beginUpload request _ _ _ _ | .resumeUpload request _ _ _
  | .uploadChunk request _ | .finishUpload request _ | .cancelUpload request
  | .beginDownload request _ _ | .pullDownload request _ | .cancelDownload request
  | .transferBetween request _ _ _ _ | .requestPairingCode request | .markAgent request _ _
  | .listRemoteDirectory request _ _ _ | .nameResource request _ _ _
  | .confirmResourceName request _ _ | .favouriteResource request _ | .setJumpSlot request _ _
  | .searchRemoteFiles request _ _ _ _ => some request
  | _ => none

/-- The panes whose control lease a message answers to. -/
def ClientMessage.leased : ClientMessage → List PaneId
  | .paneInput pane _ | .paneResize pane _ _ | .paneScroll pane _ _ _ _ _
  | .pastePaneText _ pane _ | .beginUpload _ pane _ _ _ | .resumeUpload _ _ pane _
  | .beginDownload _ pane _ => [pane]
  | .transferBetween _ source _ destination _ => [source, destination]
  | _ => []

/-- Sent by the daemon. -/
inductive ServerMessage
  | hello (protocol : ℕ) (serverVersion : String) (features : List String)
      (quickReplies : List QuickReply)
  | federationState (state : FederationState)
  | targetState (target : TargetSession) (state : Option TargetRuntimeState)
  | paneFrame (pane : PaneId) (sequence : ℕ) (width height : UInt16) (full : Bool)
      (bytes : List UInt8)
  | paneScreen (pane : PaneId) (screen : Snapshot)
  | paneScreenDiff (pane : PaneId) (diff : Diff)
  | paneClosed (pane : PaneId)
  | paneLease (pane : PaneId) (access : TerminalAccess)
  | operationResult (request : ℕ) (applied : Bool) (message : String)
      (pluginRun : Option PluginRun)
  | pluginActions (request : ℕ) (target : TargetSession) (generation : ℕ)
      (actions : List PluginAction)
  | pluginRun (request : ℕ) (run : PluginRun)
  | agentCards (projection : AgentCardProjection)
  | remoteFiles (request : ℕ) (target : TargetSession) (listing : RemoteListing)
  | notification (agent : AgentId) (title body : String)
  | pairingCode (request : ℕ) (code : String) (expiresInSeconds : ℕ) (url : Option String)
  | pairingApprovalRequired (attempt name confirmation : String) (expiresInSeconds : ℕ)
  | pairingDecision (attempt : String) (approved : Bool) (message : String)
  | uploadAccepted (request : ℕ) (transfer : String) (staged : ℕ)
  | uploadInterrupted (request : ℕ) (transfer : String) (staged : ℕ)
  | downloadOffer (request : ℕ) (name : String) (length : ℕ) (digest : String)
  | downloadChunk (request : ℕ) (bytes : List UInt8)
  | downloadFinished (request : ℕ)
  | uploadComplete (request : ℕ) (path : String) (bytes : ℕ)
  | attention (event : AttentionEvent)
  | attentionHistory (events : List AttentionEvent)
  | error (request : Option ℕ) (message : String)
deriving DecidableEq

/-- The pane whose stream or lease a message reports on. -/
def ServerMessage.pane : ServerMessage → Option PaneId
  | .paneFrame pane _ _ _ _ _ | .paneScreen pane _ | .paneScreenDiff pane _
  | .paneClosed pane | .paneLease pane _ => some pane
  | _ => none

end SuperHerdr
