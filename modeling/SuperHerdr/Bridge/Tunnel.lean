import SuperHerdr.Bridge.Line
import SuperHerdr.Bridge.Requests

/-!
# The tunnel

A connector holds one WebSocket to the bridge, and all connections of its route's devices go through it.
At either end a task for each connection has a queue of packets, two tasks read and write the WebSocket,
and whatever does not fit a queue is not waited for. `Packet` is what is written to the WebSocket;
`Session` is one WebSocket with both its ends, and `Tunnel` has the sessions of all generations and the
bridge's tables.

Every lock and every operation of a channel is a step of its own, and steps are taken in any order. What
comes from outside is the move's: what is read from a socket, whether a write to one fails, and when a
WebSocket is lost. A daemon that goes away is a WebSocket that is lost and a listener that ends its
connections.
-/

namespace SuperHerdr

namespace Bridge

open Http

def PACKET_QUEUE_DEPTH : ℕ := 32
def PACKET_HEAD_BYTES : ℕ := 9
def MAX_PAIR_RESPONSE_BYTES : ℕ := 16 * 1024

def OPEN : UInt8 := 1
def DEVICE_DATA : UInt8 := 2
def DEVICE_CLOSED : UInt8 := 3
def HOST_DATA : UInt8 := 4
def HOST_CLOSED : UInt8 := 5
def PAIRING_CODE : UInt8 := 6

/-! ### Packets -/

structure Packet where
  kind : UInt8
  connection : UInt64
  payload : List UInt8
deriving DecidableEq

def toBeBytes (number : UInt64) : List UInt8 :=
  (List.range 8).map fun i => UInt8.ofNat (number.toNat / 256 ^ (7 - i))

def fromBeBytes (bytes : List UInt8) : UInt64 :=
  UInt64.ofNat (bytes.foldl (fun number byte => number * 256 + byte.toNat) 0)

namespace Packet

def encode (self : Packet) : List UInt8 := self.kind :: toBeBytes self.connection ++ self.payload

def decode (bytes : List UInt8) : Option Packet :=
  if bytes.length < PACKET_HEAD_BYTES ∨ PACKET_HEAD_BYTES + MAX_TUNNEL_CHUNK_BYTES < bytes.length then
    none
  else
    bytes.head?.map fun kind =>
      ⟨kind, fromBeBytes ((bytes.drop 1).take 8), bytes.drop PACKET_HEAD_BYTES⟩

end Packet

theorem length_toBeBytes (number : UInt64) : (toBeBytes number).length = 8 := by simp [toBeBytes]

/-- The digits of a number to the base 256, of which the first may be left out. -/
theorem foldl_digits (digits number : ℕ) :
    ((List.range digits).map fun i => UInt8.ofNat (number / 256 ^ (digits - 1 - i))).foldl
      (fun number byte => number * 256 + byte.toNat) 0 = number % 256 ^ digits := by
  induction digits generalizing number with
  | zero => simp [Nat.mod_one]
  | succ digits ih =>
    have hfront : ((List.range digits).map fun i => UInt8.ofNat (number / 256 ^ (digits - i))) =
        (List.range digits).map fun i => UInt8.ofNat (number / 256 / 256 ^ (digits - 1 - i)) := by
      refine List.map_congr_left fun i hi => ?_
      have hpow : digits - i = digits - 1 - i + 1 := by
        have hlt := List.mem_range.mp hi
        omega
      rw [hpow, pow_succ', Nat.div_div_eq_div_mul]
    rw [List.range_succ, List.map_append, List.foldl_append, Nat.add_sub_cancel, hfront, ih]
    simp only [List.map_cons, List.map_nil, Nat.sub_self, pow_zero, Nat.div_one, List.foldl_cons,
      List.foldl_nil, UInt8.toNat_ofNat']
    rw [pow_succ' 256 digits, Nat.mod_mul]
    omega

theorem fromBeBytes_toBeBytes (number : UInt64) : fromBeBytes (toBeBytes number) = number := by
  have hlt : number.toNat < 256 ^ 8 := number.toNat_lt
  rw [fromBeBytes, toBeBytes, foldl_digits 8, Nat.mod_eq_of_lt hlt, UInt64.ofNat_toNat]

theorem Packet.length_encode (packet : Packet) :
    packet.encode.length = PACKET_HEAD_BYTES + packet.payload.length := by
  simp [encode, length_toBeBytes, PACKET_HEAD_BYTES]
  omega

/-- **A packet is read as it was written**, if it is no longer than the reader allows. -/
theorem Packet.decode_encode {packet : Packet} (h : packet.payload.length ≤ MAX_TUNNEL_CHUNK_BYTES) :
    decode packet.encode = some packet := by
  have hlength := packet.length_encode
  have hconnection : (packet.encode.drop 1).take 8 = toBeBytes packet.connection := by
    rw [encode, List.cons_append, List.drop_one, List.tail_cons,
      ← length_toBeBytes packet.connection, List.take_left]
  have hpayload : packet.encode.drop PACKET_HEAD_BYTES = packet.payload := by
    have hhead : PACKET_HEAD_BYTES = (packet.kind :: toBeBytes packet.connection).length := by
      rw [List.length_cons, length_toBeBytes, PACKET_HEAD_BYTES]
    rw [encode, hhead, List.drop_left]
  rw [decode, if_neg (by omega), hconnection, hpayload, fromBeBytes_toBeBytes]
  rfl

/-! ### One WebSocket -/

/-- One connection: the task at either end, with its queue. -/
structure Connection where
  purpose : Purpose
  /-- What is sent to open it, if the request can be rewritten. -/
  opening : Option (List UInt8)
  device : Device
  fromHost : List Part
  deviceRead : List UInt8
  /-- What was written to the device, or collected as the answer to a pairing request. -/
  deviceWritten : List UInt8
  proxy : Proxy
  fromDevice : List Part
  localRead : List UInt8
  localWritten : List UInt8

def Connection.unborn : Connection := ⟨.terminal, none, .unborn, [], [], [], .absent, [], [], []⟩

/-- Where the task of a device still has its queue. -/
def Device.Receives (device : Device) : Prop := device ≠ .unborn ∧ device ≠ .gone

instance (device : Device) : Decidable device.Receives := inferInstanceAs (Decidable (_ ∧ _))

def Proxy.Receives (proxy : Proxy) : Prop := proxy ≠ .absent ∧ proxy ≠ .leaving ∧ proxy ≠ .gone

instance (proxy : Proxy) : Decidable proxy.Receives := inferInstanceAs (Decidable (_ ∧ _ ∧ _))

/-- The bridge's task that reads the WebSocket. -/
inductive BridgeReader
  | reading
  | found (connection : UInt64) (part : Part)
  | sending (connection : UInt64) (part : Part)
  | blocked (connection : UInt64)
  | dropping (connection : UInt64)
  | reporting (connection : UInt64)
  | leaving
  | left
deriving DecidableEq

/-- The daemon's. -/
inductive DaemonReader
  | reading
  | sending (connection : UInt64) (part : Part)
  | blocked (connection : UInt64)
  | reporting (connection : UInt64)
  | leaving
  | left
deriving DecidableEq

/-- A code as it is published. -/
structure PublishedCode where
  bytes : List UInt8
  short : bytes.length ≤ PAIRING_CODE_CHARACTERS + 1

structure Session where
  route : String
  /-- The queue of the bridge's writer, and whether that is still there. -/
  toHost : List Packet
  bridgeWriter : Bool
  down : List Packet
  up : List Packet
  severed : Bool
  bridgeReader : BridgeReader
  outgoing : List Packet
  daemonWriter : Bool
  /-- The connections in the daemon's table. -/
  locals : List UInt64
  daemonReader : DaemonReader
  connections : UInt64 → Connection

/-- What a send that does not wait makes of a queue. -/
def trySend {α : Type*} (receives : Prop) [Decidable receives] (queue : List α) (item : α) :
    Option (List α) :=
  if receives ∧ queue.length < PACKET_QUEUE_DEPTH then some (queue ++ [item]) else none

inductive Act
  /-- A device's task goes on with what is there. A write may fail behind so many bytes. -/
  | device (connection : UInt64) (failure : Option ℕ)
  | deviceReads (connection : UInt64) (bytes : List UInt8)
  /-- The device has sent all, or the answer to a pairing request took too long. -/
  | deviceEnds (connection : UInt64)
  | proxy (connection : UInt64) (failure : Option ℕ)
  | localReads (connection : UInt64) (bytes : List UInt8)
  | localEnds (connection : UInt64)
  | bridgeWriter (works : Bool)
  | bridgeReader
  | daemonWriter (works : Bool)
  | daemonReader
  | publishes (code : PublishedCode)
  /-- The WebSocket is lost, and so much of what is on it still arrives. -/
  | severs (down up : ℕ)

namespace Session

def new (route : String) : Session :=
  ⟨route, [], true, [], [], false, .reading, [], true, [], .reading, fun _ => .unborn⟩

variable (self : Session)

def setConnection (c : UInt64) (connection : Connection) : Session :=
  { self with connections := Function.update self.connections c connection }

/-- Send to the daemon, if the queue of the bridge's writer takes it. -/
def sendHost (packet : Packet) : Option Session :=
  (trySend (self.bridgeWriter = true) self.toHost packet).map fun toHost => { self with toHost }

/-- Send to the bridge, if the queue of the daemon's writer takes it. -/
def sendBridge (packet : Packet) : Option Session :=
  (trySend (self.daemonWriter = true) self.outgoing packet).map fun outgoing => { self with outgoing }

/-- A sender for this device's queue is held outside the table. -/
def bridgeHolds (c : UInt64) : Bool :=
  match self.bridgeReader with
  | .sending d _ => d = c
  | _ => false

def daemonHolds (c : UInt64) : Bool :=
  match self.daemonReader with
  | .sending d _ => d = c
  | _ => false

/-- The task of a device: `handle_public_connection`, and `pair_device`, which collects what it
receives. -/
def handlePublicConnection (table : List ℕ) (c : UInt64) (failure : Option ℕ) :
    Option (Session × List ℕ) :=
  let held := self.connections c
  match held.device with
  | .attached =>
      match held.opening with
      | none => some (self.setConnection c { held with device := .leaving }, table)
      | some opening =>
          if held.purpose = .pairing ∧ MAX_TUNNEL_CHUNK_BYTES < opening.length then
            some (self.setConnection c { held with device := .leaving }, table)
          else
            match self.sendHost ⟨OPEN, c, opening⟩ with
            | some sent => some (sent.setConnection c { held with device := .relaying }, table)
            | none => some (self.setConnection c { held with device := .leaving }, table)
  | .relaying =>
      match held.fromHost with
      | .data payload :: fromHost =>
          let deviceWritten := held.deviceWritten ++ payload
          if held.purpose = .pairing then
            if MAX_PAIR_RESPONSE_BYTES < deviceWritten.length then
              some (self.setConnection c { held with fromHost, device := .closing }, table)
            else some (self.setConnection c { held with fromHost, deviceWritten }, table)
          else
            match failure with
            | none => some (self.setConnection c { held with fromHost, deviceWritten }, table)
            | some written =>
                some (self.setConnection c { held with
                  fromHost, device := .closing
                  deviceWritten := held.deviceWritten ++ payload.take written }, table)
      | .closed :: fromHost =>
          some (self.setConnection c { held with fromHost, device := .closing }, table)
      | [] =>
          if c.toNat ∈ table ∨ self.bridgeHolds c then none
          else some (self.setConnection c { held with device := .closing }, table)
  | .closing =>
      let sent := (self.sendHost ⟨DEVICE_CLOSED, c, []⟩).getD self
      some (sent.setConnection c { held with device := .leaving }, table)
  | .leaving =>
      some (self.setConnection c { held with device := .gone, fromHost := [] }, table.filter (· ≠ c.toNat))
  | .unborn | .gone => none

/-- What a device sends is sent on. -/
def deviceReads (c : UInt64) (bytes : List UInt8) : Option Session :=
  let held := self.connections c
  if held.device = .relaying ∧ held.purpose = .terminal ∧ bytes ≠ [] ∧
      bytes.length ≤ MAX_TUNNEL_CHUNK_BYTES then
    let deviceRead := held.deviceRead ++ bytes
    match self.sendHost ⟨DEVICE_DATA, c, bytes⟩ with
    | some sent => some (sent.setConnection c { held with deviceRead })
    | none => some (self.setConnection c { held with deviceRead, device := .closing })
  else none

def deviceEnds (c : UInt64) : Option Session :=
  let held := self.connections c
  if held.device = .relaying then
    let sent :=
      if held.purpose = .terminal then (self.sendHost ⟨DEVICE_CLOSED, c, []⟩).getD self else self
    some (sent.setConnection c { held with device := .closing })
  else none

/-- The task at the local listener. -/
def proxyToLocal (c : UInt64) (failure : Option ℕ) : Option Session :=
  let held := self.connections c
  match held.proxy with
  | .connecting first =>
      match failure with
      | none => some (self.setConnection c { held with proxy := .forwarding first })
      | some _ => some (self.setConnection c { held with proxy := .reporting })
  | .forwarding first =>
      match failure with
      | none =>
          some (self.setConnection c { held with
            proxy := .relaying, localWritten := held.localWritten ++ first })
      | some written =>
          some (self.setConnection c { held with
            proxy := .reporting, localWritten := held.localWritten ++ first.take written })
  | .relaying =>
      match held.fromDevice with
      | .data payload :: fromDevice =>
          match failure with
          | none =>
              some (self.setConnection c { held with
                fromDevice, localWritten := held.localWritten ++ payload })
          | some written =>
              some (self.setConnection c { held with
                fromDevice, proxy := .reporting
                localWritten := held.localWritten ++ payload.take written })
      | .closed :: fromDevice =>
          some (self.setConnection c { held with fromDevice, proxy := .reporting })
      | [] =>
          if c ∈ self.locals ∨ self.daemonHolds c then none
          else some (self.setConnection c { held with proxy := .reporting })
  | .reporting =>
      let sent := (self.sendBridge ⟨HOST_CLOSED, c, []⟩).getD self
      some (sent.setConnection c { held with proxy := .leaving, fromDevice := [] })
  | .leaving =>
      some ({ self with locals := self.locals.filter (· ≠ c) }.setConnection c { held with proxy := .gone })
  | .absent | .gone => none

/-- What the local listener sends is sent on. -/
def localReads (c : UInt64) (bytes : List UInt8) : Option Session :=
  let held := self.connections c
  if held.proxy = .relaying ∧ bytes ≠ [] ∧ bytes.length ≤ MAX_TUNNEL_CHUNK_BYTES then
    let localRead := held.localRead ++ bytes
    match self.sendBridge ⟨HOST_DATA, c, bytes⟩ with
    | some sent => some (sent.setConnection c { held with localRead })
    | none => some (self.setConnection c { held with localRead, proxy := .reporting })
  else none

def localEnds (c : UInt64) : Option Session :=
  let held := self.connections c
  if held.proxy = .relaying then some (self.setConnection c { held with proxy := .reporting })
  else none

/-- The bridge's writer. Once the WebSocket is lost, what is written may seem to be sent, or the writer
finds out, or its task is ended. -/
def bridgeWrites (works : Bool) : Option Session :=
  if !self.bridgeWriter then none
  else if works then
    match self.toHost with
    | [] => none
    | packet :: toHost =>
        some { self with toHost, down := if self.severed then self.down else self.down ++ [packet] }
  else if self.severed then some { self with bridgeWriter := false, toHost := [] }
  else none

def daemonWrites (works : Bool) : Option Session :=
  if !self.daemonWriter then none
  else if works then
    match self.outgoing with
    | [] => none
    | packet :: outgoing =>
        some { self with outgoing, up := if self.severed then self.up else self.up ++ [packet] }
  else if self.severed then some { self with daemonWriter := false, outgoing := [] }
  else none

/-- The loop of `serve_host_socket`. What it does with codes is left out. -/
def serveHostSocket (table : List ℕ) (registered : Bool) : Option (Session × List ℕ) :=
  match self.bridgeReader with
  | .reading =>
      match self.up with
      | [] => if self.severed then some ({ self with bridgeReader := .leaving }, table) else none
      | message :: up =>
          let found (c : UInt64) (part : Part) : BridgeReader :=
            if registered then .found c part else .reading
          match Packet.decode message.encode with
          | none => some ({ self with up }, table)
          | some packet =>
              if packet.kind = HOST_DATA then
                some ({ self with up, bridgeReader := found packet.connection (.data packet.payload) },
                  table)
              else if packet.kind = HOST_CLOSED then
                some ({ self with up, bridgeReader := found packet.connection .closed }, table)
              else some ({ self with up }, table)
  | .found c part =>
      some ({ self with
        bridgeReader := if c.toNat ∈ table then .sending c part else .reading }, table)
  | .sending c part =>
      let held := self.connections c
      match trySend held.device.Receives held.fromHost part with
      | some fromHost =>
          some ({ self with bridgeReader := .reading }.setConnection c { held with fromHost }, table)
      | none => some ({ self with bridgeReader := .blocked c }, table)
  | .blocked c =>
      some ({ self with bridgeReader := if registered then .dropping c else .reading }, table)
  | .dropping c => some ({ self with bridgeReader := .reporting c }, table.filter (· ≠ c.toNat))
  | .reporting c =>
      let sent := (self.sendHost ⟨DEVICE_CLOSED, c, []⟩).getD self
      some ({ sent with bridgeReader := .reading }, table)
  | .leaving | .left => none

/-- A sender is dropped, with a last packet if that fits. -/
def Connection.closeLocal (held : Connection) : Connection :=
  { held with
    fromDevice := (trySend held.proxy.Receives held.fromDevice .closed).getD held.fromDevice }

/-- The loop of `connect_once`, and what it does behind that. -/
def connectOnce : Option Session :=
  match self.daemonReader with
  | .reading =>
      match self.down with
      | [] => if self.severed then some { self with daemonReader := .leaving } else none
      | message :: down =>
          let held (c : UInt64) (part : Part) : DaemonReader :=
            if c ∈ self.locals then .sending c part else .reading
          match Packet.decode message.encode with
          | none => some { self with down }
          | some packet =>
              let c := packet.connection
              if packet.kind = OPEN then
                some ({ self with down, locals := c :: self.locals }.setConnection c
                  { self.connections c with proxy := .connecting packet.payload, fromDevice := [] })
              else if packet.kind = DEVICE_DATA then
                some { self with down, daemonReader := held c (.data packet.payload) }
              else if packet.kind = DEVICE_CLOSED then
                some { self with down, daemonReader := held c .closed }
              else some { self with down }
  | .sending c part =>
      let held := self.connections c
      match trySend held.proxy.Receives held.fromDevice part with
      | some fromDevice =>
          some ({ self with daemonReader := .reading }.setConnection c { held with fromDevice })
      | none => some { self with daemonReader := .blocked c }
  | .blocked c =>
      some { self with daemonReader := .reporting c, locals := self.locals.filter (· ≠ c) }
  | .reporting c =>
      let sent := (self.sendBridge ⟨HOST_CLOSED, c, []⟩).getD self
      some { sent with daemonReader := .reading }
  | .leaving =>
      some { self with
        daemonReader := .left
        locals := []
        connections := fun c =>
          if c ∈ self.locals then Connection.closeLocal (self.connections c) else self.connections c }
  | .left => none

/-- A code is sent to the bridge. -/
def publishes (code : PublishedCode) : Option Session :=
  if self.daemonWriter then
    some { self with
      up := if self.severed then self.up else self.up ++ [⟨PAIRING_CODE, 0, code.bytes⟩] }
  else none

def severs (down up : ℕ) : Session :=
  { self with severed := true, down := self.down.take down, up := self.up.take up }

/-- What happens to a session, and to its table at the bridge. -/
def step (table : List ℕ) (registered : Bool) : Act → Option (Session × List ℕ)
  | .device c failure => self.handlePublicConnection table c failure
  | .deviceReads c bytes => (self.deviceReads c bytes).map (·, table)
  | .deviceEnds c => (self.deviceEnds c).map (·, table)
  | .proxy c failure => (self.proxyToLocal c failure).map (·, table)
  | .localReads c bytes => (self.localReads c bytes).map (·, table)
  | .localEnds c => (self.localEnds c).map (·, table)
  | .bridgeWriter works => (self.bridgeWrites works).map (·, table)
  | .bridgeReader => self.serveHostSocket table registered
  | .daemonWriter works => (self.daemonWrites works).map (·, table)
  | .daemonReader => self.connectOnce.map (·, table)
  | .publishes code => (self.publishes code).map (·, table)
  | .severs down up => some (self.severs down up, table)

end Session

/-! ### The bridge -/

/-- A device that was led to a generation and is not in its table yet. -/
structure Pending where
  purpose : Purpose
  route : String
  generation : ℕ
  opening : Option (List UInt8)

structure Tunnel where
  relay : RelayState
  sessions : ℕ → Session
  pending : List Pending

/-- A sender is dropped, with a last packet if that fits. -/
def Connection.closeDevice (held : Connection) : Connection :=
  { held with fromHost := (trySend held.device.Receives held.fromHost .closed).getD held.fromHost }

/-- The table of a generation is emptied. -/
def Session.closeDevices (self : Session) (table : List ℕ) : Session :=
  { self with
    connections := fun c =>
      if c.toNat ∈ table then (self.connections c).closeDevice else self.connections c }

inductive Move
  /-- A connector registers its route. -/
  | register (route digest : String)
  /-- A device asks for a route. -/
  | request (route : String) (head : List UInt8) (localTarget : String)
  /-- A device pairs with the route that its code led to. -/
  | pair (route : String) (head body : List UInt8)
  | attach (pending : ℕ)
  | run (generation : ℕ) (act : Act)
  /-- A connector is gone. -/
  | unregister (generation : ℕ)

namespace Tunnel

variable (self : Tunnel)

def new : Tunnel := ⟨.new, fun _ => .new "", []⟩

/-- The generation registered for a route is looked up for a device. -/
def lookUp (purpose : Purpose) (route : String) (opening : Option (List UInt8)) : Option Tunnel :=
  self.relay.routes[route]?.map fun live =>
    { self with pending := self.pending ++ [⟨purpose, route, live.generation, opening⟩] }

def register (route digest : String) : Tunnel :=
  let generation := self.relay.nextGeneration
  match { self.relay with nextGeneration := generation + 1 }.claim route digest generation with
  | (relay, .error _) => { self with relay }
  | (relay, .ok replaced) =>
      let sessions :=
        match replaced with
        | some old =>
            Function.update self.sessions old
              ((self.sessions old).closeDevices (self.relay.devices old))
        | none => self.sessions
      { self with relay, sessions := Function.update sessions generation (.new route) }

def unregister (generation : ℕ) : Option Tunnel :=
  let session := self.sessions generation
  if session.bridgeReader = .leaving then
    let closed :=
      if self.relay.registered session.route generation then
        session.closeDevices (self.relay.devices generation)
      else session
    some { self with
      relay := self.relay.release session.route generation
      sessions := Function.update self.sessions generation { closed with bridgeReader := .left } }
  else none

/-- A device enters the table of the generation it was led to. Numbers are taken not to run out. -/
def attach (i : ℕ) : Option Tunnel :=
  match self.pending[i]? with
  | none => none
  | some ⟨purpose, _, generation, opening⟩ =>
      if 2 ^ 64 ≤ self.relay.nextConnection then none
      else
        let pending := self.pending.eraseIdx i
        match self.relay.attach generation with
        | (relay, none) => some { self with relay, pending }
        | (relay, some connection) =>
            let session := self.sessions generation
            let c := UInt64.ofNat connection
            some { self with
              relay, pending
              sessions := Function.update self.sessions generation (session.setConnection c
                { session.connections c with purpose, opening, device := .attached }) }

def run (generation : ℕ) (act : Act) : Option Tunnel :=
  let session := self.sessions generation
  if generation < self.relay.nextGeneration then
    (session.step (self.relay.devices generation) (self.relay.registered session.route generation)
      act).map fun (session, table) =>
        { self with
          relay := { self.relay with devices := Function.update self.relay.devices generation table }
          sessions := Function.update self.sessions generation session }
  else none

def step : Move → Option Tunnel
  | .register route digest => some (self.register route digest)
  | .request route head localTarget =>
      (rewriteRequestTarget head localTarget).bind fun rewritten =>
        self.lookUp .terminal route (some rewritten)
  | .pair route head body =>
      if body.length ≤ MAX_PAIR_BODY_BYTES then
        self.lookUp .pairing route ((rewriteRequestTarget head "/pair").map (· ++ body))
      else none
  | .attach i => self.attach i
  | .run generation act => self.run generation act
  | .unregister generation => self.unregister generation

/-- One step of the tunnel. -/
def Step (s s' : Tunnel) : Prop := ∃ move, s.step move = some s'

/-- What can be reached, by steps in any order. -/
def Reachable (s : Tunnel) : Prop := Relation.ReflTransGen Step new s

end Tunnel

end Bridge

end SuperHerdr
