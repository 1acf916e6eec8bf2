import SuperHerdr.Broker.Projection

/-!
# The daemon's loop

The daemon owns one queue of inputs. It takes them one at a time, hands each to the broker, and
performs the effects it gets back before it takes the next. Opening a route starts a reader, a
task of its own that parses the host's output and enqueues what it finds; shutting a route down
aborts the reader, which takes back nothing it already enqueued.

`Daemon.step` interleaves the three: inputs arrive, readers enqueue, and the loop goes on by
one effect or one input. What a host does when a terminal is spawned on it is a parameter,
`Spawning`, of each opening.

Inputs and effects that neither open, close nor feed a route are left out, but for those that
go to the broker. Two fields are not the daemon's: `origin` says for which opening of a route an
input was enqueued, and `latest` which opening of a pane's route was the last. The loop reads
neither.
-/

namespace SuperHerdr

open Std Transducer

variable {E : Emulator}

/-! ### Opening a route -/

/-- What the host answers to one attempt to open a route. -/
structure Spawning where
  /-- Whether the pane's target is configured, with a known Herdr executable. -/
  target : Bool
  /-- Whether a terminal can be spawned with an access. -/
  granted : TerminalAccess → Bool

/-- How an attempt to open a route ends. -/
inductive Opening
  | opened
  | downgraded
  | failed
deriving DecidableEq

/-- A refused control stream falls back to observation; anything else that is refused fails. -/
def Spawning.attempt (spawning : Spawning) (access : TerminalAccess) : Opening :=
  if !spawning.target then .failed
  else if spawning.granted access then .opened
  else if access = .control ∧ spawning.granted .observe then .downgraded
  else .failed

/-! ### The state -/

/-- What the loop reacts to. -/
inductive Input
  /-- A connection, whose task may be gone before it learns its identifier. -/
  | connected (gone : Bool)
  | received (client : ClientId) (message : ClientMessage)
  | disconnected (client : ClientId)
  | federation (state : FederationState)
  | frame (pane : PaneId) (sequence : ℕ) (width height : UInt16) (full : Bool)
      (bytes : List UInt8)
  | routeClosed (pane : PaneId)
  | operationDone (client : ClientId) (request : ℕ) (applied : Bool) (message : String)
      (pluginRun : Option PluginRun)
  /-- A refreshed configuration, and which panes' routes it invalidates. -/
  | reconfigured (invalidated : PaneId → Bool)

/-- The pane an input of a route speaks for. -/
def Input.route : Input → Option PaneId
  | .frame pane _ _ _ _ _ | .routeClosed pane => some pane
  | _ => none

/-- An input in the queue, and the opening of a route on whose behalf it was enqueued. -/
structure Queued where
  input : Input
  origin : Option ℕ

/-- The pane and the opening a queued input speaks for. -/
def Queued.speaks (queued : Queued) : Option (PaneId × ℕ) :=
  queued.input.route.bind fun pane => queued.origin.map fun opening => (pane, opening)

structure Daemon (E : Emulator) where
  broker : Broker E
  outboxes : ExtTreeSet ClientId
  /-- The open routes, each by the number of its opening. -/
  routes : ExtTreeMap PaneId ℕ
  /-- Panes whose route opened with less access than asked for, not yet reported. -/
  downgraded : List PaneId
  /-- The effects still to be performed before the next input is taken. -/
  pending : List Effect
  inputs : List Queued
  /-- The readers that have not reported the end of their stream, aborted or not. -/
  readers : ExtTreeMap ℕ PaneId
  /-- How many times a route was opened. -/
  openings : ℕ
  latest : ExtTreeMap PaneId ℕ

namespace Daemon

def new (E : Emulator) (serverVersion : String) (features : List String)
    (quickReplies : List QuickReply) : Daemon E :=
  ⟨Broker.new E serverVersion features quickReplies, ∅, ∅, [], [], [], ∅, 0, ∅⟩

/-! ### Effects -/

/-- Open one route. One that cannot be opened is reported as closed. -/
def openRoute (spawn : ℕ → Spawning) (d : Daemon E) (pane : PaneId) (access : TerminalAccess) :
    Daemon E :=
  let opening := d.openings
  let d := { d with
    routes := d.routes.erase pane
    openings := opening + 1
    latest := d.latest.insert pane opening }
  let started := { d with
    routes := d.routes.insert pane opening
    readers := d.readers.insert opening pane }
  match (spawn opening).attempt access with
  | .failed => { d with inputs := d.inputs ++ [⟨.routeClosed pane, some opening⟩] }
  | .downgraded => { started with downgraded := d.downgraded ++ [pane] }
  | .opened => started

/-- Report the routes that opened with less access than asked for. -/
def reportDowngraded (d : Daemon E) : Daemon E :=
  let (broker, effects) := exec (fun b pane => b.routeDowngraded pane) d.broker d.downgraded
  { d with broker, downgraded := [], pending := d.pending ++ effects }

/-- Perform one effect: what is left to do, and what was put into an outbox. -/
def perform (spawn : ℕ → Spawning) (d : Daemon E) (effect : Effect) :
    Daemon E × List (ClientId × ServerMessage) :=
  match effect with
  | .send client message => (d, if client ∈ d.outboxes then [(client, message)] else [])
  | .disconnect client _ =>
      let (broker, effects) := d.broker.disconnect client
      ({ d with
          broker, outboxes := d.outboxes.erase client, pending := d.pending ++ effects }, [])
  | .openRoute pane access _ _ => (d.openRoute spawn pane access, [])
  | .routeUnclaimed pane =>
      let (broker, effects) := d.broker.closeIfUnclaimed pane
      ({ d with broker, pending := d.pending ++ effects }, [])
  | .closeRoute pane => ({ d with routes := d.routes.erase pane }, [])
  | _ => (d, [])

/-! ### Inputs -/

/-- Hand one input to the broker; its effects are pending. -/
def handle (d : Daemon E) (input : Input) : Daemon E :=
  match input with
  | .connected gone =>
      let (broker, client) := d.broker.connect
      if gone then
        let (broker, pending) := broker.disconnect client
        { d with broker, pending }
      else { d with broker, outboxes := d.outboxes.insert client, pending := [] }
  | .received client message =>
      let (broker, pending) := d.broker.handle client message
      { d with broker, pending }
  | .disconnected client =>
      let (broker, pending) := d.broker.disconnect client
      { d with broker, outboxes := d.outboxes.erase client, pending }
  | .federation state =>
      let (broker, pending) := d.broker.federationUpdated state
      { d with broker, pending }
  | .frame pane sequence width height full bytes =>
      let (broker, pending) := d.broker.paneFrame pane sequence width height full bytes
      { d with broker, pending }
  | .routeClosed pane =>
      let (broker, pending) := d.broker.paneRouteClosed pane
      { d with broker, pending, routes := d.routes.erase pane }
  | .operationDone client request applied message pluginRun =>
      { d with
        pending := d.broker.operationCompleted client request applied message pluginRun }
  | .reconfigured invalidated =>
      let panes := d.routes.keys.filter invalidated
      let (broker, pending) := exec (fun b pane => b.paneRouteClosed pane) d.broker panes
      { d with broker, pending, routes := d.routes.filter fun pane _ => !invalidated pane }

/-! ### Runs -/

/-- One step of the daemon and the tasks around it. -/
inductive Move
  /-- An input that no route enqueues arrives. -/
  | arrive (input : Input)
  /-- The reader of one opening parses a frame. -/
  | read (opening : ℕ) (sequence : ℕ) (width height : UInt16) (full : Bool) (bytes : List UInt8)
  /-- The stream of one opening ends, and its reader reports that. -/
  | ended (opening : ℕ)
  /-- The loop performs the next effect or, if there is none, takes the next input. -/
  | next

/-- Put an input of a route into the queue. -/
def enqueue (d : Daemon E) (input : Input) (opening : ℕ) : Daemon E :=
  { d with inputs := d.inputs ++ [⟨input, some opening⟩] }

def step (spawn : ℕ → Spawning) (d : Daemon E) (move : Move) :
    Daemon E × List (ClientId × ServerMessage) :=
  match move with
  | .arrive input =>
      if input.route = none then ({ d with inputs := d.inputs ++ [⟨input, none⟩] }, [])
      else (d, [])
  | .read opening sequence width height full bytes =>
      match d.readers[opening]? with
      | some pane => (d.enqueue (.frame pane sequence width height full bytes) opening, [])
      | none => (d, [])
  | .ended opening =>
      match d.readers[opening]? with
      | some pane =>
          ({ d with readers := d.readers.erase opening }.enqueue (.routeClosed pane) opening, [])
      | none => (d, [])
  | .next =>
      match d.pending with
      | effect :: pending => { d with pending }.reportDowngraded.perform spawn effect
      | [] =>
          match d.inputs with
          | queued :: inputs => ({ d with inputs }.handle queued.input, [])
          | [] => (d, [])

end Daemon

end SuperHerdr
