import SuperHerdr.Pairing.Pairing

/-!
# The bridge

A daemon that nobody can reach connects out to the bridge and registers a route there, under a secret.
Each registration gets a generation of its own, and the codes and devices of a route are held by
generation. A device that pairs gives a code and is led to the route that published it.

Each connection is a task, and a task holds one lock at a time: a `Task` says where one stands between
two locks, and `advance` is what it does under the next. Tasks take their steps in any order. What a
task meets outside the bridge is the `Message` of its step: a packet of the daemon's, whether a packet
fits a queue, an answer. A poisoned lock is left out, and so are the packets that the daemon is sent.
-/

namespace SuperHerdr

namespace Bridge

open Std Transducer

def ROUTE_CHARACTERS : ℕ := 32
def SECRET_CHARACTERS : ℕ := 64
def MAX_ROUTES : ℕ := 4096
def MAX_DEVICES_PER_ROUTE : ℕ := 16

def isHexdigit (c : Char) : Bool :=
  c.isDigit || ('a' ≤ c && c ≤ 'f') || ('A' ≤ c && c ≤ 'F')

def ensureRoute (route : String) : Bool :=
  route.toList.length = ROUTE_CHARACTERS && route.toList.all isHexdigit

def ensureSecret (secret : String) : Bool :=
  secret.toList.length = SECRET_CHARACTERS && secret.toList.all isHexdigit

/-! ### The tables -/

/-- A route that is registered. Its daemon and the table of its devices are named by its
generation. -/
structure LiveRoute where
  secretDigest : String
  generation : ℕ
deriving DecidableEq

structure CodeRoute where
  route : String
  generation : ℕ
  expiresAt : ℕ
deriving DecidableEq

structure RelayState where
  routes : ExtTreeMap String LiveRoute
  /-- The routes that published a code. -/
  codes : String → List CodeRoute
  /-- The connections of the devices of a generation. -/
  devices : ℕ → List ℕ
  nextGeneration : ℕ
  nextConnection : ℕ

namespace RelayState

def new : RelayState := ⟨∅, fun _ => [], fun _ => [], 0, 0⟩

/-- Whether a generation is the one registered for a route. -/
def registered (self : RelayState) (route : String) (generation : ℕ) : Bool :=
  self.routes[route]?.any fun live => live.generation = generation

/-- Register a route under a generation, in place of one with the same secret. -/
def claim (self : RelayState) (route digest : String) (generation : ℕ) :
    RelayState × Except String (Option ℕ) :=
  let placed (devices : ℕ → List ℕ) : RelayState :=
    { self with
      routes := self.routes.insert route ⟨digest, generation⟩
      devices := Function.update devices generation [] }
  match self.routes[route]? with
  | some existing =>
      if existing.secretDigest ≠ digest then (self, .error "bridge route is already registered")
      else
        (placed (Function.update self.devices existing.generation []), .ok (some existing.generation))
  | none =>
      if MAX_ROUTES ≤ self.routes.size then (self, .error "bridge route capacity is exhausted")
      else (placed self.devices, .ok none)

/-- Take a route away from the generation that holds it. -/
def release (self : RelayState) (route : String) (generation : ℕ) : RelayState :=
  if self.registered route generation then
    { self with
      routes := self.routes.erase route
      devices := Function.update self.devices generation [] }
  else self

def retainCodes (self : RelayState) (keep : CodeRoute → Bool) : RelayState :=
  { self with codes := fun code => (self.codes code).filter keep }

def removeCodes (self : RelayState) (route : String) (generation : ℕ) : RelayState :=
  self.retainCodes fun held => held.route ≠ route || held.generation ≠ generation

/-- The code a publication offers, if it is one. A payload that is no text is none. -/
def offeredCode (offered : Option String) : Option String :=
  (offered.map normalizeCode).filter fun code => code.toList.length = PAIRING_CODE_CHARACTERS

/-- Publish a code, in place of any the generation has published. Publishing nothing withdraws. -/
def registerCode (self : RelayState) (now : ℕ) (route : String) (generation : ℕ)
    (offered : Option String) : RelayState :=
  let self := (self.retainCodes fun held => now < held.expiresAt).removeCodes route generation
  match offeredCode offered with
  | none => self
  | some code =>
      { self with
        codes := Function.update self.codes code
          (self.codes code ++ [⟨route, generation, now + CODE_LIFETIME⟩]) }

/-- The one publication of a code. A collision is never guessed. -/
def lookup (self : RelayState) (now : ℕ) (offered : String) : RelayState × Option CodeRoute :=
  match offeredCode (some offered) with
  | none => (self, none)
  | some code =>
      let self := self.retainCodes fun held => now < held.expiresAt
      match self.codes code with
      | [held] => (self, some held)
      | _ => (self, none)

/-- Add a device to those of a generation. -/
def attach (self : RelayState) (generation : ℕ) : RelayState × Option ℕ :=
  let connection := self.nextConnection
  let self := { self with nextConnection := self.nextConnection + 1 }
  if MAX_DEVICES_PER_ROUTE ≤ (self.devices generation).length then (self, none)
  else
    ({ self with
        devices := Function.update self.devices generation
          (self.devices generation ++ [connection]) }, some connection)

def detach (self : RelayState) (generation connection : ℕ) : RelayState :=
  { self with
    devices := Function.update self.devices generation
      ((self.devices generation).erase connection) }

end RelayState

/-! ### Tasks -/

/-- What a device came for. -/
inductive Purpose
  | pairing
  | terminal
deriving DecidableEq

inductive Task
  /-- A daemon connects. -/
  | arriving (route secret : String)
  | claiming (route secret : String) (generation : ℕ)
  /-- The codes of the generation that was replaced are still there. -/
  | replacing (route : String) (generation replaced : ℕ)
  | serving (route : String) (generation : ℕ)
  /-- The generation was found registered, and its code is not published yet. -/
  | publishing (route : String) (generation : ℕ) (offered : Option String)
  /-- A packet for a device came from the generation that was found registered. -/
  | relaying (route : String) (generation connection : ℕ)
  | sending (route : String) (generation connection : ℕ)
  | blocked (route : String) (generation connection : ℕ)
  | dropping (route : String) (generation connection : ℕ)
  | leaving (route : String) (generation : ℕ)
  | left (route : String) (generation : ℕ)
  /-- A device asks for the route of a code, or for a route it knows. -/
  | asking (code : String)
  | found (held : CodeRoute)
  | requesting (route : String)
  | attaching (purpose : Purpose) (route : String) (generation : ℕ)
  | attached (purpose : Purpose) (route : String) (generation connection : ℕ)
  | waiting (purpose : Purpose) (route : String) (generation connection : ℕ)
  | detaching (purpose : Purpose) (route : String) (generation connection : ℕ) (spent : Bool)
  | answered (route : String) (generation : ℕ)
  | done
deriving DecidableEq

/-- What a task meets outside. -/
inductive Message
  | code (offered : Option String)
  | host (connection : ℕ)
  | closed
  | fits (yes : Bool)
  /-- The device was answered, and whether the answer spends the code. -/
  | answer (spent : Bool)
deriving DecidableEq

inductive Output
  /-- A code led to a route. -/
  | resolved (route : String) (generation : ℕ)
  /-- A packet of a generation's reached a device. -/
  | delivered (connection generation : ℕ)
deriving DecidableEq

/-- What a task does under the lock it takes next. -/
def advance (sha256 : String → String) (now : ℕ) (relay : RelayState) :
    Task → Message → RelayState × Task × List Output
  | .arriving route secret, _ =>
      if ensureRoute route && ensureSecret secret then
        ({ relay with nextGeneration := relay.nextGeneration + 1 },
          .claiming route secret relay.nextGeneration, [])
      else (relay, .done, [])
  | .claiming route secret generation, _ =>
      match relay.claim route (sha256 secret) generation with
      | (relay, .error _) => (relay, .done, [])
      | (relay, .ok none) => (relay, .serving route generation, [])
      | (relay, .ok (some replaced)) => (relay, .replacing route generation replaced, [])
  | .replacing route generation replaced, _ =>
      (relay.removeCodes route replaced, .serving route generation, [])
  | .serving route generation, .code offered =>
      (relay, if relay.registered route generation then .publishing route generation offered
        else .serving route generation, [])
  | .serving route generation, .host connection =>
      (relay, if relay.registered route generation then .relaying route generation connection
        else .serving route generation, [])
  | .serving route generation, .closed => (relay, .leaving route generation, [])
  | .serving route generation, _ => (relay, .serving route generation, [])
  | .publishing route generation offered, _ =>
      (relay.registerCode now route generation offered, .serving route generation, [])
  | .relaying route generation connection, _ =>
      (relay, if connection ∈ relay.devices generation then .sending route generation connection
        else .serving route generation, [])
  | .sending route generation connection, .fits true =>
      (relay, .serving route generation, [.delivered connection generation])
  | .sending route generation connection, _ => (relay, .blocked route generation connection, [])
  | .blocked route generation connection, _ =>
      (relay, if relay.registered route generation then .dropping route generation connection
        else .serving route generation, [])
  | .dropping route generation connection, _ =>
      (relay.detach generation connection, .serving route generation, [])
  | .leaving route generation, _ => (relay.release route generation, .left route generation, [])
  | .left route generation, _ => (relay.removeCodes route generation, .done, [])
  | .asking code, _ =>
      match relay.lookup now code with
      | (relay, some held) => (relay, .found held, [])
      | (relay, none) => (relay, .done, [])
  | .found held, _ =>
      if relay.registered held.route held.generation then
        (relay, .attaching .pairing held.route held.generation,
          [.resolved held.route held.generation])
      else (relay, .done, [])
  | .requesting route, _ =>
      match relay.routes[route]? with
      | some live => (relay, .attaching .terminal route live.generation, [])
      | none => (relay, .done, [])
  | .attaching purpose route generation, _ =>
      match relay.attach generation with
      | (relay, some connection) => (relay, .attached purpose route generation connection, [])
      | (relay, none) => (relay, .done, [])
  | .attached purpose route generation connection, .fits true =>
      (relay, .waiting purpose route generation connection, [])
  | .attached purpose route generation connection, _ =>
      (relay, .detaching purpose route generation connection false, [])
  | .waiting purpose route generation connection, .answer spent =>
      (relay, .detaching purpose route generation connection spent, [])
  | .waiting purpose route generation connection, _ =>
      (relay, .waiting purpose route generation connection, [])
  | .detaching purpose route generation connection spent, _ =>
      (relay.detach generation connection,
        if purpose = .pairing ∧ spent then .answered route generation else .done, [])
  | .answered route generation, _ => (relay.removeCodes route generation, .done, [])
  | .done, _ => (relay, .done, [])

/-! ### The bridge -/

structure System where
  relay : RelayState
  tasks : List Task
  now : ℕ

inductive Event
  | connect (route secret : String)
  | ask (code : String)
  | request (route : String)
  | pass (elapsed : ℕ)
  /-- A task takes its next step. -/
  | run (task : ℕ) (message : Message)
deriving DecidableEq

namespace System

def new : System := ⟨.new, [], 0⟩

def step (sha256 : String → String) (self : System) : Event → System × List Output
  | .connect route secret => ({ self with tasks := self.tasks ++ [.arriving route secret] }, [])
  | .ask code => ({ self with tasks := self.tasks ++ [.asking code] }, [])
  | .request route => ({ self with tasks := self.tasks ++ [.requesting route] }, [])
  | .pass elapsed => ({ self with now := self.now + elapsed }, [])
  | .run i message =>
      match self.tasks[i]? with
      | some task =>
          let (relay, after, outputs) := advance sha256 self.now self.relay task message
          ({ self with relay, tasks := self.tasks.set i after }, outputs)
      | none => (self, [])

end System

end Bridge

end SuperHerdr
