import SuperHerdr.Library.Transducer
import SuperHerdr.Protocol.Message

/-!
# The daemon's connection state machine

The broker is pure: messages and observations go in, `Effect` values come out, and the I/O
layer performs the effects. It holds one **route** per pane rather than one per client, and
exactly one client may hold a pane's **control lease**. Each function below is the source
function of the same name with the mutable receiver passed explicitly; a function that pushes
onto the caller's effect list returns what it pushes. The maps are the source's ordered maps,
and its loops over them are `Transducer.exec` over their keys in order.

`Broker.step` puts the public operations side by side as one transducer over `Event`, so that
a run of the broker is a list of events.

Sequence numbers and client identifiers are natural numbers: the source's 64-bit counters
would have to be stepped `2 ^ 64` times within one emulator, or one process, to differ.
-/

namespace SuperHerdr

open Std Transducer

/-- Identifies one connected client for the lifetime of its connection; never reused. -/
abbrev ClientId := ℕ

/-! ### Effects -/

/-- Work the I/O layer must perform. Route effects are addressed to a pane rather than a
client, because a route is shared. -/
inductive Effect
  | send (client : ClientId) (message : ServerMessage)
  | disconnect (client : ClientId) (reason : String)
  | openRoute (pane : PaneId) (access : TerminalAccess) (cols rows : UInt16)
  | closeRoute (pane : PaneId)
  | routeUnclaimed (pane : PaneId)
  | routeInput (pane : PaneId) (bytes : List UInt8)
  | routeResize (pane : PaneId) (cols rows : UInt16)
  | routeScroll (pane : PaneId) (direction : TerminalScrollDirection)
      (lines column row : UInt16) (modifiers : UInt8)
  | runOperation (client : ClientId) (request : ℕ) (operation : Operation)
  | listPluginActions (client : ClientId) (request : ℕ) (target : TargetSession)
  | getPluginRun (client : ClientId) (request : ℕ) (run : PluginRunId)
  | pastePaneText (client : ClientId) (request : ℕ) (pane : PaneId) (text : String)
  | beginUpload (client : ClientId) (request : ℕ) (pane : PaneId) (mime : String)
      (name : Option String) (length : ℕ)
  | resumeUpload (client : ClientId) (request : ℕ) (transfer : String) (pane : PaneId)
      (length : ℕ)
  | uploadChunk (client : ClientId) (request : ℕ) (bytes : List UInt8)
  | finishUpload (client : ClientId) (request : ℕ) (digest : String)
  | cancelUpload (client : ClientId) (request : ℕ)
  | beginDownload (client : ClientId) (request : ℕ) (pane : PaneId) (path : String)
  | pullDownload (client : ClientId) (request : ℕ) (chunks : ℕ)
  | cancelDownload (client : ClientId) (request : ℕ)
  | transferBetween (client : ClientId) (request : ℕ) (source : PaneId) (path : String)
      (destination : PaneId) (name : Option String)
  | markAgent (client : ClientId) (request : ℕ) (agent : AgentId) (mark : AgentMarkRequest)
  | localNaming (client : ClientId) (request : ℕ) (change : LocalChange)
  | listRemoteDirectory (client : ClientId) (request : ℕ) (target : TargetSession)
      (root path : String)
  | searchRemoteFiles (client : ClientId) (request : ℕ) (target : TargetSession)
      (root query : String) (glob : Bool)
  | markAttentionSeen (pane : PaneId)
  | markAllAttentionSeen
  | clearSeenAttention
  | issuePairingCode (client : ClientId) (request : ℕ)
  | decidePairing (attempt : String) (approve : Bool)
  | sendAttentionHistory (client : ClientId)
deriving DecidableEq

/-! ### The state -/

/-- One client's subscription to one pane. -/
structure PaneSubscription where
  requested : TerminalAccess
  cols : UInt16
  rows : UInt16
  representation : PaneRepresentation
  /-- The rendered update last sent to this client, if any. -/
  sent : Option ℕ
  /-- The updates sent and not yet acknowledged, oldest first. -/
  outstanding : List ℕ
deriving DecidableEq

/-- One pane's route, shared by everybody who watches it. -/
structure Route where
  access : TerminalAccess
  cols : UInt16
  rows : UInt16
  control : Option ClientId
  subscribers : ExtTreeSet ClientId
  /-- True once the last subscriber left and nobody has come back. -/
  unclaimed : Bool
deriving DecidableEq

structure Client where
  greeted : Bool
  stateSubscribed : Bool
  agentCardsSubscribed : Bool
  notificationsSubscribed : Bool
  panes : ExtTreeMap PaneId PaneSubscription
deriving DecidableEq

def Client.new : Client := ⟨false, false, false, false, ∅⟩

/-- How many rendered updates one screen subscriber may have outstanding. -/
def MAX_OUTSTANDING_SCREEN_UPDATES : ℕ := 4

/-- One pane's rendered screen, kept only while somebody is watching it that way. -/
structure ScreenState (E : Emulator) where
  parser : E.Parser
  /-- The last screen anyone was told about, which the next diff is computed against. -/
  last : Snapshot

/-- What one frame did to a rendered screen. -/
structure Rendered where
  screen : Snapshot
  diff : Option Diff
  changed : Bool

structure Broker (E : Emulator) where
  serverVersion : String
  features : List String
  quickReplies : List QuickReply
  clients : ExtTreeMap ClientId Client
  routes : ExtTreeMap PaneId Route
  screens : ExtTreeMap PaneId (ScreenState E)
  state : FederationState
  agentCards : Option AgentCardProjection
  nextClient : ℕ

variable {E : Emulator}

/-! ### Rendering -/

namespace ScreenState

def new (E : Emulator) (width height : UInt16) : ScreenState E :=
  let parser := E.new height width 0
  ⟨parser, Snapshot.of (E.screen parser) 0⟩

/-- The emulator after one frame: rebuilt by a full repaint or a resize, fed either way. -/
def feed (self : ScreenState E) (width height : UInt16) (full : Bool) (bytes : List UInt8) :
    E.Parser :=
  let (rows, cols) := (E.screen self.parser).size
  E.process
    (if full ∨ rows ≠ height ∨ cols ≠ width then E.new height width 0 else self.parser) bytes

/-- Feed one frame in and say what changed. A frame that leaves the visible screen as it was
does not advance the sequence. -/
def advance (self : ScreenState E) (width height : UInt16) (full : Bool) (bytes : List UInt8) :
    ScreenState E × Rendered :=
  let parser := self.feed width height full bytes
  let candidate := Snapshot.of (E.screen parser) (self.last.sequence + 1)
  if candidate.width = self.last.width ∧ candidate.height = self.last.height ∧
      candidate.rows = self.last.rows ∧ candidate.cursor = self.last.cursor then
    (⟨parser, self.last⟩, ⟨self.last, none, false⟩)
  else
    (⟨parser, candidate⟩, ⟨candidate, Diff.between self.last candidate, true⟩)

end ScreenState

namespace PaneSubscription

/-- What one subscriber needs in order to hold `rendered`: the diff if it holds exactly the
update the diff follows, the whole screen otherwise. -/
def updateFor (subscription : PaneSubscription) (pane : PaneId) (rendered : Rendered) :
    ServerMessage :=
  match rendered.diff, subscription.sent with
  | some diff, some sent =>
      if sent = diff.follows then .paneScreenDiff pane diff else .paneScreen pane rendered.screen
  | _, _ => .paneScreen pane rendered.screen

/-- Record that an update was sent. -/
def push (subscription : PaneSubscription) (sequence : ℕ) : PaneSubscription :=
  { subscription with
    sent := some sequence
    outstanding := subscription.outstanding ++ [sequence] }

/-- Offer one rendered frame to one subscriber: the subscription afterwards and the message,
or nothing when it is up to date or holds as much as it may. -/
def offer (subscription : PaneSubscription) (pane : PaneId) (rendered : Rendered) :
    Option (PaneSubscription × ServerMessage) :=
  if !rendered.changed ∧ subscription.sent = some rendered.screen.sequence then none
  else if MAX_OUTSTANDING_SCREEN_UPDATES ≤ subscription.outstanding.length then none
  else some (subscription.push rendered.screen.sequence, subscription.updateFor pane rendered)

/-- Settle the acknowledged update and every earlier one. -/
def settle (subscription : PaneSubscription) (sequence : ℕ) : PaneSubscription :=
  { subscription with
    outstanding := subscription.outstanding.dropWhile fun held => held ≤ sequence }

end PaneSubscription

/-! ### Routes -/

namespace Route

/-- Resize the route for its control holder, if that is of a different size. -/
def resizeForControl (route : Route) (pane : PaneId) (cols rows : UInt16) :
    Route × List Effect :=
  if route.cols = cols ∧ route.rows = rows then (route, [])
  else ({ route with cols, rows }, [.routeResize pane cols rows])

/-- A client joins the route of its pane, or opens it: the route, the access the client is
granted, and the effects. -/
def join (route : Option Route) (pane : PaneId) (client : ClientId) (access : TerminalAccess)
    (cols rows : UInt16) : Route × TerminalAccess × List Effect :=
  match route with
  | some route =>
      let route := { route with
        unclaimed := false
        subscribers := route.subscribers.insert client }
      if access = .control ∧ route.control = none then
        let (route, effects) :=
          { route with control := some client }.resizeForControl pane cols rows
        (route, .control, effects)
      else if route.control = some client then (route, .control, [])
      else (route, .observe, [])
  | none =>
      ({ access, cols, rows
         control := if access = .control then some client else none
         subscribers := ExtTreeSet.empty.insert client
         unclaimed := false }, access, [.openRoute pane access cols rows])

/-- Hand the lease to `client`, whose subscription asks for this size: resize for it, reopen a
route that was opened only to observe, and tell both clients. -/
def handOver (route : Route) (pane : PaneId) (client : ClientId) (cols rows : UInt16) :
    Route × List Effect :=
  let previous := route.control
  let (route, resized) := { route with control := some client }.resizeForControl pane cols rows
  let (route, reopened) :=
    if route.access ≠ .control then
      ({ route with access := .control },
        [.closeRoute pane, .openRoute pane .control route.cols route.rows])
    else (route, [])
  let told := match previous with
    | some previous => [.send previous (.paneLease pane .observe)]
    | none => []
  (route, resized ++ reopened ++ told ++ [.send client (.paneLease pane .control)])

/-- The control holder left others behind: the route drops back to observation and everybody
still watching is told. -/
def dropControl (route : Route) (pane : PaneId) : Route × List Effect :=
  let reopened := if route.access = .control then
      [.closeRoute pane, .openRoute pane .observe route.cols route.rows]
    else []
  ({ route with control := none, access := .observe },
    reopened ++ route.subscribers.toList.map fun subscriber =>
      .send subscriber (.paneLease pane .observe))

end Route

namespace Broker

/-! ### Connections -/

def new (E : Emulator) (serverVersion : String) (features : List String)
    (quickReplies : List QuickReply) : Broker E :=
  ⟨serverVersion, features, quickReplies, ∅, ∅, ∅, .default, none, 0⟩

/-- Register a connection that has not yet said anything. -/
def connect (b : Broker E) : Broker E × ClientId :=
  ({ b with
      clients := b.clients.insert b.nextClient Client.new
      nextClient := b.nextClient + 1 }, b.nextClient)

/-- One client's subscription to one pane, in a table of clients. -/
def subscriptionIn (clients : ExtTreeMap ClientId Client) (client : ClientId) (pane : PaneId) :
    Option PaneSubscription :=
  clients[client]?.bind fun session => session.panes[pane]?

/-- One client's subscription to one pane. -/
def subscription (b : Broker E) (client : ClientId) (pane : PaneId) : Option PaneSubscription :=
  subscriptionIn b.clients client pane

/-- Update one client's subscription to one pane in place. -/
def modifySubscription (clients : ExtTreeMap ClientId Client) (client : ClientId)
    (pane : PaneId) (f : PaneSubscription → PaneSubscription) : ExtTreeMap ClientId Client :=
  clients.modify client fun session => { session with panes := session.panes.modify pane f }

def representationOf (b : Broker E) (client : ClientId) (pane : PaneId) : PaneRepresentation :=
  ((b.subscription client pane).map PaneSubscription.representation).getD default

/-- Whether anybody watches this pane as a screen. -/
def watched (b : Broker E) (pane : PaneId) : Bool :=
  b.routes[pane]?.any fun route =>
    route.subscribers.toList.any fun client => b.representationOf client pane = .screen

/-- Drop the emulator for a pane nobody is watching as a screen any more. -/
def releaseScreenIfUnwatched (b : Broker E) (pane : PaneId) : Broker E :=
  if b.watched pane then b else { b with screens := b.screens.erase pane }

/-- A client that was subscribed to this pane leaves its route. -/
def releasePane (b : Broker E) (client : ClientId) (pane : PaneId) : Broker E × List Effect :=
  match b.routes[pane]? with
  | none => (b, [])
  | some route =>
      let route := { route with subscribers := route.subscribers.erase client }
      if route.subscribers.isEmpty then
        -- kept rather than closed, and its rendered screen with it
        ({ b with
            routes := b.routes.insert pane { route with unclaimed := true, control := none } },
          [.routeUnclaimed pane])
      else
        let b :=
          { b with routes := b.routes.insert pane route }.releaseScreenIfUnwatched pane
        if route.control = some client then
          let (route, effects) := route.dropControl pane
          ({ b with routes := b.routes.insert pane route }, effects)
        else (b, [])

/-- Release everything one connection held. -/
def disconnect (b : Broker E) (client : ClientId) : Broker E × List Effect :=
  match b.clients[client]? with
  | none => (b, [])
  | some departing =>
      exec (fun b pane => b.releasePane client pane)
        { b with clients := b.clients.erase client } departing.panes.keys

/-! ### Subscriptions and the lease -/

def subscribePane (b : Broker E) (client : ClientId) (pane : PaneId) (access : TerminalAccess)
    (cols rows : UInt16) (representation : PaneRepresentation) : Broker E × List Effect :=
  match b.clients[client]? with
  | none => (b, [])
  | some session =>
      let clients := b.clients.insert client { session with
        panes := session.panes.insert pane ⟨access, cols, rows, representation, none, []⟩ }
      let (route, granted, opening) := Route.join b.routes[pane]? pane client access cols rows
      -- a screen subscriber that arrives mid-stream is sent the screen as it stands
      let (clients, shown) : ExtTreeMap ClientId Client × List Effect :=
        match representation, b.screens[pane]? with
        | .screen, some state =>
            (modifySubscription clients client pane (·.push state.last.sequence),
              [.send client (.paneScreen pane state.last)])
        | _, _ => (clients, [])
      ({ b with clients, routes := b.routes.insert pane route },
        opening ++ shown ++ [Effect.send client (.paneLease pane granted)])

def takeControl (b : Broker E) (client : ClientId) (pane : PaneId) (onlyIfFree : Bool) :
    Broker E × List Effect :=
  match b.clients[client]? with
  | none => (b, [])
  | some session =>
      match session.panes[pane]? with
      | none =>
          (b, [.send client (.error none
            ("cannot take control of " ++ toString pane ++ " without subscribing to it"))])
      | some subscription =>
          match b.routes[pane]? with
          | none => (b, [])
          | some route =>
              if route.control = some client then (b, [])
              else if onlyIfFree ∧ route.control.isSome then
                (b, [.send client (.paneLease pane .observe)])
              else
                let (route, effects) :=
                  route.handOver pane client subscription.cols subscription.rows
                ({ b with routes := b.routes.insert pane route }, effects)

/-- Whether a client holds a pane's control lease. -/
def holdsControl (b : Broker E) (client : ClientId) (pane : PaneId) : Bool :=
  b.routes[pane]?.bind Route.control = some client

/-- Perform an operation that needs a pane's lease, or refuse it and say so. The refusal is
the one message all lease checks share, and carries no request. -/
def withLease (b : Broker E) (client : ClientId) (pane : PaneId)
    (operation : Broker E × List Effect) : Broker E × List Effect :=
  if b.holdsControl client pane then operation
  else
    (b, [.send client (.error none
      ("this connection does not hold the control lease for " ++ toString pane))])

/-- The control holder resizes its pane. -/
def paneResize (b : Broker E) (client : ClientId) (pane : PaneId) (cols rows : UInt16) :
    Broker E × List Effect :=
  ({ b with
      clients := modifySubscription b.clients client pane ({ · with cols, rows })
      routes := b.routes.modify pane ({ · with cols, rows }) }, [.routeResize pane cols rows])

/-- A client painted an update, so it may be sent another. An acknowledgement of anything this
subscription is not waiting on changes nothing. -/
def ackPaneScreen (b : Broker E) (client : ClientId) (pane : PaneId) (sequence : ℕ) :
    Broker E × List Effect :=
  match b.subscription client pane with
  | none => (b, [])
  | some subscription =>
      if sequence ∉ subscription.outstanding then (b, [])
      else
        let settled := subscription.settle sequence
        let b' := { b with
          clients := modifySubscription b.clients client pane (·.settle sequence) }
        match b.screens[pane]? with
        | none => (b', [])
        | some state =>
            if settled.sent = some state.last.sequence ∨
                MAX_OUTSTANDING_SCREEN_UPDATES ≤ settled.outstanding.length then (b', [])
            else
              ({ b' with
                  clients :=
                    modifySubscription b'.clients client pane (·.push state.last.sequence) },
                [.send client (settled.updateFor pane ⟨state.last, none, true⟩)])

/-! ### Frames -/

/-- Offer a rendered frame to one screen subscriber. -/
def offerTo (pane : PaneId) (rendered : Rendered) (clients : ExtTreeMap ClientId Client)
    (client : ClientId) : ExtTreeMap ClientId Client × List Effect :=
  match subscriptionIn clients client pane with
  | none => (clients, [])
  | some subscription =>
      match subscription.offer pane rendered with
      | none => (clients, [])
      | some (subscription, message) =>
          (modifySubscription clients client pane fun _ => subscription, [.send client message])

/-- Parse this frame into a screen and tell each screen subscriber what it needs. -/
def renderFor (b : Broker E) (pane : PaneId) (width height : UInt16) (full : Bool)
    (bytes : List UInt8) (subscribers : List ClientId) : Broker E × List Effect :=
  let (state, rendered) :=
    (b.screens[pane]?.getD (ScreenState.new E width height)).advance width height full bytes
  let (clients, effects) := exec (offerTo pane rendered) b.clients subscribers
  ({ b with clients, screens := b.screens.insert pane state }, effects)

/-- One frame, two audiences: each subscriber gets the representation it asked for. -/
def paneFrame (b : Broker E) (pane : PaneId) (sequence : ℕ) (width height : UInt16)
    (full : Bool) (bytes : List UInt8) : Broker E × List Effect :=
  match b.routes[pane]? with
  | none => (b, [])
  | some route =>
      let (screenSubscribers, frameSubscribers) := route.subscribers.toList.partition
        fun client => b.representationOf client pane = .screen
      let effects := frameSubscribers.map fun client =>
        .send client (.paneFrame pane sequence width height full bytes)
      if screenSubscribers.isEmpty then
        -- nobody is watching this pane as a screen, so nothing parses it
        ({ b with screens := b.screens.erase pane }, effects)
      else
        let (b, rendered) := b.renderFor pane width height full bytes screenSubscribers
        (b, effects ++ rendered)

/-! ### The ends of a route -/

/-- Close a pane's route if it is still unwanted. -/
def closeIfUnclaimed (b : Broker E) (pane : PaneId) : Broker E × List Effect :=
  if b.routes[pane]?.any Route.unclaimed then
    ({ b with routes := b.routes.erase pane, screens := b.screens.erase pane },
      [.closeRoute pane])
  else (b, [])

/-- Forget one subscriber of a closed route, and tell it. -/
def dropSubscriber (pane : PaneId) (clients : ExtTreeMap ClientId Client) (client : ClientId) :
    ExtTreeMap ClientId Client × List Effect :=
  (clients.modify client fun session => { session with panes := session.panes.erase pane },
    [.send client (.paneClosed pane)])

/-- The route's own stream ended. -/
def paneRouteClosed (b : Broker E) (pane : PaneId) : Broker E × List Effect :=
  match b.routes[pane]? with
  | none => (b, [])
  | some route =>
      let (clients, effects) := exec (dropSubscriber pane) b.clients route.subscribers.toList
      ({ b with
          clients, routes := b.routes.erase pane, screens := b.screens.erase pane }, effects)

/-- Herdr refused a control stream, so the route runs as an observer. -/
def routeDowngraded (b : Broker E) (pane : PaneId) : Broker E × List Effect :=
  match b.routes[pane]? with
  | none => (b, [])
  | some route =>
      if route.access = .observe ∧ route.control = none then (b, [])
      else
        ({ b with
            routes := b.routes.insert pane { route with access := .observe, control := none } },
          route.subscribers.toList.map fun client => .send client (.paneLease pane .observe))

/-! ### The federation -/

def broadcastState (b : Broker E) (message : ServerMessage) : List Effect :=
  b.clients.toList.filterMap fun (client, session) =>
    if session.stateSubscribed then some (.send client message) else none

/-- Whether a pane is gone: its target left the federation, or is live and its snapshot no
longer lists the pane. A disconnected target proves nothing about its panes. -/
def paneIsGone (b : Broker E) (pane : PaneId) : Bool :=
  match b.state.targets[pane.targetSession]? with
  | none => true
  | some target =>
      if target.connection ≠ .live then false
      else target.snapshot.any fun snapshot => !snapshot.panes.contains pane

/-- Close routes for panes an authoritative snapshot no longer contains. -/
def closeVanishedRoutes (b : Broker E) : Broker E × List Effect :=
  exec (fun b pane => b.paneRouteClosed pane) b (b.routes.keys.filter b.paneIsGone)

/-- What a new federation state changes for clients, target by target. -/
def targetChanges (previous state : FederationState) : List ServerMessage :=
  (state.targets.toList.filterMap fun (key, target) =>
      let changed := match previous.targets[key]? with
        | some old => old.differsForClients target
        | none => true
      if changed then some (.targetState key (some target)) else none) ++
    (previous.targets.keys.filter fun key => !state.targets.contains key).map
      fun key => .targetState key none

/-- Replace the federation state and tell subscribed clients what changed. -/
def federationUpdated (b : Broker E) (state : FederationState) : Broker E × List Effect :=
  let changes := targetChanges b.state state
  let b := { b with state }
  let (closed, effects) := b.closeVanishedRoutes
  (closed, changes.flatMap b.broadcastState ++ effects)

/-! ### Publishing -/

/-- Publish a freshly built inbox, if it differs from what subscribers were last sent. -/
def agentCardsUpdated (b : Broker E) (projection : AgentCardProjection) :
    Broker E × List Effect :=
  if b.agentCards = some projection then (b, [])
  else
    ({ b with agentCards := some projection },
      b.clients.toList.filterMap fun (client, session) =>
        if session.agentCardsSubscribed then some (.send client (.agentCards projection))
        else none)

/-- Send one coalesced alert to every device that asked for them. -/
def notifyDevices (b : Broker E) (notification : ServerMessage) : List Effect :=
  b.clients.toList.filterMap fun (client, session) =>
    if session.notificationsSubscribed then some (.send client notification) else none

def operationCompleted (b : Broker E) (client : ClientId) (request : ℕ) (applied : Bool)
    (message : String) (pluginRun : Option PluginRun) : List Effect :=
  if b.clients.contains client then
    [.send client (.operationResult request applied message pluginRun)]
  else []

/-! ### Messages -/

/-- Tell a client why it is refused, and close its connection. -/
def refuse (client : ClientId) (reason : String) : List Effect :=
  [.send client (.error none reason), .disconnect client reason]

/-- A message from a client that has not been greeted: nothing is answered before the version
handshake. -/
def handshake (b : Broker E) (client : ClientId) (message : ClientMessage) :
    Broker E × List Effect :=
  match message with
  | .hello protocol _ =>
      if protocol = PROTOCOL_VERSION then
        ({ b with clients := b.clients.modify client ({ · with greeted := true }) },
          [.send client
            (.hello PROTOCOL_VERSION b.serverVersion b.features b.quickReplies)])
      else
        (b, refuse client ("protocol " ++ toString protocol ++
          " is not supported; this daemon speaks " ++ toString PROTOCOL_VERSION))
  | _ => (b, refuse client "the first message must be client.hello")

/-- A message from a greeted client. -/
def serve (b : Broker E) (client : ClientId) (message : ClientMessage) :
    Broker E × List Effect :=
  match message with
  | .hello _ _ => (b, refuse client "client.hello was already accepted on this connection")
  | .subscribeState =>
      ({ b with clients := b.clients.modify client ({ · with stateSubscribed := true }) },
        [.send client (.federationState b.state), .sendAttentionHistory client])
  | .markAgent request agent mark => (b, [.markAgent client request agent mark])
  | .subscribeNotifications =>
      ({ b with
          clients := b.clients.modify client ({ · with notificationsSubscribed := true }) }, [])
  | .nameResource request resource label observed =>
      (b, [.localNaming client request (.name resource label observed)])
  | .confirmResourceName request resource observed =>
      (b, [.localNaming client request (.confirmName resource observed)])
  | .favouriteResource request resource =>
      (b, [.localNaming client request (.favourite resource)])
  | .setJumpSlot request slot resource =>
      (b, [.localNaming client request (.slot slot resource)])
  | .listRemoteDirectory request target root path =>
      (b, [.listRemoteDirectory client request target root path])
  | .searchRemoteFiles request target root query glob =>
      (b, [.searchRemoteFiles client request target root query glob])
  | .unsubscribeNotifications =>
      ({ b with
          clients := b.clients.modify client ({ · with notificationsSubscribed := false }) }, [])
  | .subscribeAgentCards =>
      ({ b with clients := b.clients.modify client ({ · with agentCardsSubscribed := true }) },
        match b.agentCards with
        | some projection => [.send client (.agentCards projection)]
        | none => [])
  | .subscribePane pane access cols rows representation =>
      b.subscribePane client pane access cols rows representation
  | .ackPaneScreen pane sequence => b.ackPaneScreen client pane sequence
  | .unsubscribePane pane =>
      match b.subscription client pane with
      | none => (b, [])
      | some _ =>
          { b with clients := b.clients.modify client fun session =>
              { session with panes := session.panes.erase pane } }.releasePane client pane
  | .takePaneControl pane onlyIfFree => b.takeControl client pane onlyIfFree
  | .paneInput pane bytes => b.withLease client pane (b, [.routeInput pane bytes])
  | .paneResize pane cols rows =>
      b.withLease client pane (b.paneResize client pane cols rows)
  | .paneScroll pane direction lines column row modifiers =>
      b.withLease client pane (b, [.routeScroll pane direction lines column row modifiers])
  | .runOperation request operation => (b, [.runOperation client request operation])
  | .listPluginActions request target => (b, [.listPluginActions client request target])
  | .getPluginRun request run => (b, [.getPluginRun client request run])
  | .pastePaneText request pane text =>
      b.withLease client pane (b, [.pastePaneText client request pane text])
  | .beginUpload request pane mime name length =>
      b.withLease client pane (b, [.beginUpload client request pane mime name length])
  | .resumeUpload request transfer pane length =>
      b.withLease client pane (b, [.resumeUpload client request transfer pane length])
  | .uploadChunk request bytes => (b, [.uploadChunk client request bytes])
  | .finishUpload request digest => (b, [.finishUpload client request digest])
  | .cancelUpload request => (b, [.cancelUpload client request])
  | .beginDownload request pane path =>
      b.withLease client pane (b, [.beginDownload client request pane path])
  | .pullDownload request chunks => (b, [.pullDownload client request chunks])
  | .cancelDownload request => (b, [.cancelDownload client request])
  | .transferBetween request source path destination name =>
      b.withLease client source <| b.withLease client destination
        (b, [.transferBetween client request source path destination name])
  | .markAttentionSeen pane => (b, [.markAttentionSeen pane])
  | .markAllAttentionSeen => (b, [.markAllAttentionSeen])
  | .clearSeenAttention => (b, [.clearSeenAttention])
  | .requestPairingCode request => (b, [.issuePairingCode client request])
  | .decidePairing attempt approve => (b, [.decidePairing attempt approve])

/-- Handle one message of one client; a message of an unknown client is ignored. -/
def handle (b : Broker E) (client : ClientId) (message : ClientMessage) :
    Broker E × List Effect :=
  match b.clients[client]? with
  | none => (b, [])
  | some session =>
      if session.greeted then b.serve client message else b.handshake client message

end Broker

/-! ### Runs -/

/-- One call of a public operation of the broker. -/
inductive Event
  | connect
  | disconnect (client : ClientId)
  | handle (client : ClientId) (message : ClientMessage)
  | federationUpdated (state : FederationState)
  | paneFrame (pane : PaneId) (sequence : ℕ) (width height : UInt16) (full : Bool)
      (bytes : List UInt8)
  | closeIfUnclaimed (pane : PaneId)
  | paneRouteClosed (pane : PaneId)
  | routeDowngraded (pane : PaneId)
  | agentCardsUpdated (projection : AgentCardProjection)
  | notifyDevices (agent : AgentId) (title body : String)
  | attentionObserved (event : AttentionEvent)
  | attentionChanged (events : List AttentionEvent)
  | pairingApprovalRequired (attempt name confirmation : String) (expiresInSeconds : ℕ)
  | pairingDecided (attempt : String) (approved : Bool) (message : String)
  | operationCompleted (client : ClientId) (request : ℕ) (applied : Bool) (message : String)
      (pluginRun : Option PluginRun)

namespace Broker

/-- The broker as one transducer over its public operations. -/
def step (b : Broker E) : Event → Broker E × List Effect
  | .connect => (b.connect.1, [])
  | .disconnect client => b.disconnect client
  | .handle client message => b.handle client message
  | .federationUpdated state => b.federationUpdated state
  | .paneFrame pane sequence width height full bytes =>
      b.paneFrame pane sequence width height full bytes
  | .closeIfUnclaimed pane => b.closeIfUnclaimed pane
  | .paneRouteClosed pane => b.paneRouteClosed pane
  | .routeDowngraded pane => b.routeDowngraded pane
  | .agentCardsUpdated projection => b.agentCardsUpdated projection
  | .notifyDevices agent title body => (b, b.notifyDevices (.notification agent title body))
  | .attentionObserved event => (b, b.broadcastState (.attention event))
  | .attentionChanged events => (b, b.broadcastState (.attentionHistory events))
  | .pairingApprovalRequired attempt name confirmation expiresInSeconds =>
      (b, b.broadcastState
        (.pairingApprovalRequired attempt name confirmation expiresInSeconds))
  | .pairingDecided attempt approved message =>
      (b, b.broadcastState (.pairingDecision attempt approved message))
  | .operationCompleted client request applied message pluginRun =>
      (b, b.operationCompleted client request applied message pluginRun)

end Broker

end SuperHerdr
