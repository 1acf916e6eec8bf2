import SuperHerdr.Attention.History
import SuperHerdr.Attention.Marks
import SuperHerdr.Broker.Mirror
import SuperHerdr.Daemon.Loop

/-!
# The loop, watching the agents

`Attentive` is the daemon of `SuperHerdr.Daemon.Loop` together with what it derives from the
federation: the attention index, the cursor that says which of its events were handed on, the
marks, and the queue of alerts for devices. An update of the federation is observed as it is
taken from the queue, and what is fresh is offered to the devices and then broadcast, as effects
after those of the update. Marking attention seen and clearing it are effects; each broadcasts
the whole history again when it changed something.

A step reads two things that are not the daemon's, its `Reading`: the clock, and the inbox it
would build of its cards. What a step does is a list of `Act`: a message put into an outbox, an
event broadcast, an event queued for the devices.
-/

namespace SuperHerdr

open Std Transducer

variable {E : Emulator}

structure Attentive (E : Emulator) where
  daemon : Daemon E
  state : FederationState
  attention : AttentionIndex
  attentionCursor : Option ℕ
  agentMarks : AgentMarks
  deviceNotifications : NotificationQueue

/-- What one step reads off the world. -/
structure Reading where
  nowMs : ℕ
  cards : AgentCardProjection

/-- What one step does. -/
inductive Act
  | sent (client : ClientId) (message : ServerMessage)
  | broadcast (event : AttentionEvent)
  | alerted (event : AttentionEvent)
deriving DecidableEq

/-- A message put into an outbox. -/
def Act.ofSent (sent : ClientId × ServerMessage) : Act := .sent sent.1 sent.2

namespace Attentive

/-- A daemon that loaded this index and these marks. -/
def new (E : Emulator) (serverVersion : String) (features : List String)
    (quickReplies : List QuickReply) (attention : AttentionIndex) (marks : AgentMarks)
    (notifications : NotificationsConfig) : Attentive E where
  daemon := Daemon.new E serverVersion features quickReplies
  state := .default
  attention := attention
  attentionCursor := attention.events.getLast?.map AttentionEvent.id
  agentMarks := marks
  deviceNotifications := .new notifications none

/-! ### Observing -/

/-- Offer one fresh event to the devices, if its agent's marks let it through. -/
def offer (state : FederationState) (marks : AgentMarks) (nowMs : ℕ)
    (notifications : NotificationQueue) (event : AttentionEvent) : NotificationQueue × List Act :=
  let agent := agentKeyForPane state event.pane
  if (marks.state agent).mayNotify (event.kind = .needsAttention) nowMs then
    let (notifications, queued) := notifications.enqueue event
    (notifications, if queued then [.alerted event] else [])
  else (notifications, [])

/-- The events of an index that are newer than a cursor. -/
def fresh (attention : AttentionIndex) (cursor : Option ℕ) : List AttentionEvent :=
  attention.events.filter fun event => cursor.all fun last => last < event.id

/-- Derive attention events from the federation and broadcast the new ones. -/
def observeAttention (clock : ℕ → ℕ) (nowMs : ℕ) (a : Attentive E) : Attentive E × List Act :=
  let ((attention, changed), _) := a.attention.observe clock a.state
  let a := { a with attention }
  if !changed then (a, [])
  else
    let fresh := fresh attention a.attentionCursor
    let cursor := fresh.getLast?.map AttentionEvent.id <|> a.attentionCursor
    let (notifications, alerts) :=
      exec (offer a.state a.agentMarks nowMs) a.deviceNotifications fresh
    let effects := fresh.flatMap fun event => a.daemon.broker.broadcastState (.attention event)
    ({ a with
        attentionCursor := cursor
        deviceNotifications := notifications
        daemon := { a.daemon with pending := a.daemon.pending ++ effects } },
      alerts ++ fresh.map Act.broadcast)

/-- Rebuild the inbox and publish it if it moved. Snoozes that ran out are dropped first. -/
def projectAgentCards (reading : Reading) (a : Attentive E) : Attentive E :=
  let (broker, effects) := a.daemon.broker.agentCardsUpdated reading.cards
  { a with
    agentMarks := a.agentMarks.expire reading.nowMs
    daemon := { a.daemon with broker, pending := a.daemon.pending ++ effects } }

/-- Republish an index that changed, so that every client sees the same read state. -/
def attentionChanged (reading : Reading) (a : Attentive E) : Attentive E :=
  let effects := a.daemon.broker.broadcastState (.attentionHistory a.attention.events)
  { a with
    daemon := { a.daemon with pending := a.daemon.pending ++ effects } }.projectAgentCards reading

/-! ### Effects and inputs -/

/-- Put a message into a client's outbox, if it still has one. -/
def deliver (a : Attentive E) (client : ClientId) (message : ServerMessage) : List Act :=
  if client ∈ a.daemon.outboxes then [.sent client message] else []

/-- Take over an index a person asked to change, and republish it if that changed something. -/
def adopt (reading : Reading) (a : Attentive E) (result : AttentionIndex × Bool) : Attentive E :=
  let a := { a with attention := result.1 }
  if result.2 then a.attentionChanged reading else a

/-- Perform one effect. -/
def perform (spawn : ℕ → Spawning) (reading : Reading) (a : Attentive E) (effect : Effect) :
    Attentive E × List Act :=
  match effect with
  | .markAgent client request agent mark =>
      let (agentMarks, changed) := a.agentMarks.apply agent mark reading.nowMs
      let a := { a with agentMarks }
      let a := if changed then a.projectAgentCards reading else a
      (a, a.deliver client (.operationResult request true "" none))
  | .markAttentionSeen pane => (a.adopt reading (a.attention.markSeenForPane pane), [])
  | .markAllAttentionSeen => (a.adopt reading a.attention.markAllSeen, [])
  | .clearSeenAttention => (a.adopt reading a.attention.clearSeen, [])
  | .sendAttentionHistory client =>
      (a, a.deliver client (.attentionHistory a.attention.events))
  | effect =>
      let (daemon, sent) := a.daemon.perform spawn effect
      ({ a with daemon }, sent.map Act.ofSent)

/-- Handle one input; its effects are pending. -/
def handle (clock : ℕ → ℕ) (reading : Reading) (a : Attentive E) (input : Input) :
    Attentive E × List Act :=
  let daemon := a.daemon.handle input
  match input with
  | .federation state =>
      let (a, acts) := { a with state, daemon }.observeAttention clock reading.nowMs
      (a.projectAgentCards reading, acts)
  | _ => ({ a with daemon }, [])

/-! ### Runs -/

/-- One step: a move of the loop or of a task around it, with what it reads. -/
def step (clock : ℕ → ℕ) (spawn : ℕ → Spawning) (a : Attentive E) (move : Daemon.Move × Reading) :
    Attentive E × List Act :=
  match move.1 with
  | .next =>
      match a.daemon.pending with
      | effect :: pending =>
          let daemon := { a.daemon with pending }.reportDowngraded
          { a with daemon }.perform spawn move.2 effect
      | [] =>
          match a.daemon.inputs with
          | queued :: inputs =>
              { a with daemon := { a.daemon with inputs } }.handle clock move.2 queued.input
          | [] => (a, [])
  | other =>
      let (daemon, sent) := a.daemon.step spawn other
      ({ a with daemon }, sent.map Act.ofSent)

/-- The daemon after a run. -/
def after (clock : ℕ → ℕ) (spawn : ℕ → Spawning) (a : Attentive E)
    (moves : List (Daemon.Move × Reading)) : Attentive E :=
  (exec (step clock spawn) a moves).1

end Attentive

end SuperHerdr
