import Mathlib
import SuperHerdr.Library.Conduit

/-!
# One connection through the tunnel

What there is of one device's connection, from the device's socket at the bridge to the local one at the
daemon: the task at either end, the queues and the two directions of the WebSocket between them, and
what the two tasks that read the WebSocket have in hand. `Step` is all that can happen to it, where the
rest of the tunnel shows only in that a queue may be full.

A step may lose what it should have passed on. `Inv` says that nothing gets past what was lost, so that
either socket is written what was read from the other, as far as it got. `Attended` says that what a
device waits for is there or its end is on the way, and holds along steps that are `orderly`.
-/

namespace SuperHerdr

namespace Bridge

open Conduit

/-! ### States -/

/-- What is passed on for a connection. -/
inductive Part
  | data (payload : List UInt8)
  | closed
deriving DecidableEq

def Part.bytes : Part → List UInt8
  | .data payload => payload
  | .closed => []

/-- What is passed on to the daemon: the head of the request opens the connection there. -/
inductive Down
  | head (opening : List UInt8)
  | part (part : Part)
deriving DecidableEq

def Down.bytes : Down → List UInt8
  | .head opening => opening
  | .part p => p.bytes

/-- The task of a device, from when it has a number. -/
inductive Device
  | unborn
  /-- It is in the table, and nothing is sent yet. -/
  | attached
  | relaying
  /-- The loop is over, and the daemon is to be told. -/
  | closing
  /-- It is to leave the table. -/
  | leaving
  | gone
deriving DecidableEq

/-- The task that relays to the local listener. -/
inductive Proxy
  | absent
  | connecting (first : List UInt8)
  | forwarding (first : List UInt8)
  | relaying
  /-- The bridge is to be told. -/
  | reporting
  | leaving
  | gone
deriving DecidableEq

def Proxy.first : Proxy → List UInt8
  | .connecting first | .forwarding first => first
  | _ => []

def Device.Ended (device : Device) : Prop := device = .closing ∨ device = .leaving ∨ device = .gone

def Proxy.Ended (proxy : Proxy) : Prop := proxy = .reporting ∨ proxy = .leaving ∨ proxy = .gone

/-- What the bridge's reader has in hand for a connection. -/
inductive BridgeHand
  | idle
  /-- The connector was found registered. -/
  | found (part : Part)
  /-- The device was found in the table. -/
  | sending (part : Part)
  /-- The device's queue was full. -/
  | blocked
  | dropping
  | reporting
deriving DecidableEq

def BridgeHand.bytes : BridgeHand → List UInt8
  | .found part | .sending part => part.bytes
  | _ => []

/-- The bridge's reader has the end of the connection in hand, or is about to make one. -/
def BridgeHand.Ends (hand : BridgeHand) : Prop :=
  hand = .found .closed ∨ hand = .sending .closed ∨ hand = .blocked ∨ hand = .dropping

/-- What the daemon's reader has in hand for a connection. -/
inductive DaemonHand
  | idle
  | sending (part : Part)
  | blocked
  | reporting
deriving DecidableEq

def DaemonHand.bytes : DaemonHand → List UInt8
  | .sending part => part.bytes
  | _ => []

structure Line where
  /-- What the first packet carries: the request with its head rewritten. -/
  opening : List UInt8
  device : Device
  fromHost : List Part
  deviceRead : List UInt8
  deviceWritten : List UInt8
  toHost : List Down
  down : List Down
  daemonHand : DaemonHand
  inLocals : Bool
  fromDevice : List Part
  proxy : Proxy
  localRead : List UInt8
  localWritten : List UInt8
  outgoing : List Part
  up : List Part
  bridgeHand : BridgeHand
  inTable : Bool
  /-- Whether the connector is the one registered for its route. -/
  registered : Bool
  /-- Whether the bridge's writer is still there. -/
  bridgeWriter : Bool
  /-- Whether the WebSocket is lost. -/
  severed : Bool

namespace Line

/-- The device has ended, or is to be told that its connection has. -/
def Ending (l : Line) : Prop :=
  l.device ≠ .relaying ∨ .closed ∈ l.outgoing ∨ .closed ∈ l.up ∨ l.bridgeHand.Ends ∨ .closed ∈ l.fromHost

/-- The notice that a connection is closed, if it fits its queue. -/
def notice (fits : Bool) : List Part := if fits then [.closed] else []

/-- The device's task takes a step. -/
inductive DeviceStep : Line → Line → Prop
  | opens (l : Line) (hdevice : l.device = .attached) (hwriter : l.bridgeWriter = true) :
      DeviceStep l { l with device := .relaying, toHost := l.toHost ++ [.head l.opening] }
  | refuses (l : Line) (hdevice : l.device = .attached) :
      DeviceStep l { l with device := .leaving }
  | reads (l : Line) (bytes : List UInt8) (hdevice : l.device = .relaying) :
      DeviceStep l
        { l with deviceRead := l.deviceRead ++ bytes, toHost := l.toHost ++ [.part (.data bytes)] }
  | readsLast (l : Line) (bytes : List UInt8) (hdevice : l.device = .relaying) :
      DeviceStep l { l with deviceRead := l.deviceRead ++ bytes, device := .closing }
  | ends (l : Line) (fits : Bool) (hdevice : l.device = .relaying) :
      DeviceStep l
        { l with device := .closing, toHost := l.toHost ++ (notice fits).map .part }
  | receives (l : Line) (payload : List UInt8) (fromHost : List Part)
      (hdevice : l.device = .relaying) (hqueue : l.fromHost = .data payload :: fromHost) :
      DeviceStep l { l with fromHost, deviceWritten := l.deviceWritten ++ payload }
  | receivesLast (l : Line) (payload written : List UInt8) (fromHost : List Part)
      (hdevice : l.device = .relaying) (hqueue : l.fromHost = .data payload :: fromHost)
      (hwritten : written <+: payload) :
      DeviceStep l
        { l with fromHost, deviceWritten := l.deviceWritten ++ written, device := .closing }
  | isClosed (l : Line) (fromHost : List Part) (hdevice : l.device = .relaying)
      (hqueue : l.fromHost = .closed :: fromHost) :
      DeviceStep l { l with fromHost, device := .closing }
  | isLeft (l : Line) (hdevice : l.device = .relaying) (hqueue : l.fromHost = [])
      (htable : l.inTable = false) : DeviceStep l { l with device := .closing }
  | closes (l : Line) (fits : Bool) (hdevice : l.device = .closing) :
      DeviceStep l
        { l with device := .leaving, toHost := l.toHost ++ (notice fits).map .part }
  | leaves (l : Line) (hdevice : l.device = .leaving) :
      DeviceStep l { l with device := .gone, inTable := false, fromHost := [] }

/-- The task at the local listener takes a step. -/
inductive ProxyStep (orderly : Prop) : Line → Line → Prop
  | connects (l : Line) (first : List UInt8) (hproxy : l.proxy = .connecting first) :
      ProxyStep orderly l { l with proxy := .forwarding first }
  | unreachable (l : Line) (first : List UInt8) (hproxy : l.proxy = .connecting first) :
      ProxyStep orderly l { l with proxy := .reporting }
  | forwards (l : Line) (first : List UInt8) (hproxy : l.proxy = .forwarding first) :
      ProxyStep orderly l { l with proxy := .relaying, localWritten := l.localWritten ++ first }
  | forwardsLast (l : Line) (first written : List UInt8) (hproxy : l.proxy = .forwarding first)
      (hwritten : written <+: first) :
      ProxyStep orderly l { l with proxy := .reporting, localWritten := l.localWritten ++ written }
  | proxyReceives (l : Line) (payload : List UInt8) (fromDevice : List Part)
      (hproxy : l.proxy = .relaying) (hqueue : l.fromDevice = .data payload :: fromDevice) :
      ProxyStep orderly l { l with fromDevice, localWritten := l.localWritten ++ payload }
  | proxyReceivesLast (l : Line) (payload written : List UInt8) (fromDevice : List Part)
      (hproxy : l.proxy = .relaying) (hqueue : l.fromDevice = .data payload :: fromDevice)
      (hwritten : written <+: payload) :
      ProxyStep orderly l
        { l with fromDevice, localWritten := l.localWritten ++ written, proxy := .reporting }
  | proxyIsClosed (l : Line) (fromDevice : List Part) (hproxy : l.proxy = .relaying)
      (hqueue : l.fromDevice = .closed :: fromDevice) :
      ProxyStep orderly l { l with fromDevice, proxy := .reporting }
  | proxyIsLeft (l : Line) (hproxy : l.proxy = .relaying) (hqueue : l.fromDevice = []) :
      ProxyStep orderly l { l with proxy := .reporting }
  | localReads (l : Line) (bytes : List UInt8) (hproxy : l.proxy = .relaying) :
      ProxyStep orderly l
        { l with localRead := l.localRead ++ bytes, outgoing := l.outgoing ++ [.data bytes] }
  | localReadsLast (l : Line) (bytes : List UInt8) (hproxy : l.proxy = .relaying) :
      ProxyStep orderly l { l with localRead := l.localRead ++ bytes, proxy := .reporting }
  | localEnds (l : Line) (hproxy : l.proxy = .relaying) :
      ProxyStep orderly l { l with proxy := .reporting }
  | reports (l : Line) (fits : Bool) (hproxy : l.proxy = .reporting)
      (horderly : orderly → fits = true ∨ l.severed = true ∨ l.Ending) :
      ProxyStep orderly l
        { l with proxy := .leaving, fromDevice := [], outgoing := l.outgoing ++ notice fits }
  | proxyLeaves (l : Line) (hproxy : l.proxy = .leaving) :
      ProxyStep orderly l { l with proxy := .gone, inLocals := false }

/-- The WebSocket carries something or is lost. -/
inductive SocketStep : Line → Line → Prop
  | carriesDown (l : Line) (down : Down) (toHost : List Down) (hqueue : l.toHost = down :: toHost)
      (hsocket : l.severed = false) :
      SocketStep l { l with toHost, down := l.down ++ [down] }
  | carriesUp (l : Line) (part : Part) (outgoing : List Part) (hqueue : l.outgoing = part :: outgoing)
      (hsocket : l.severed = false) :
      SocketStep l { l with outgoing, up := l.up ++ [part] }
  | loses (l : Line) (toHost down : List Down) (outgoing up : List Part) (bridgeWriter : Bool)
      (htoHost : toHost <:+ l.toHost) (hdown : down <+: l.down) (houtgoing : outgoing <:+ l.outgoing)
      (hup : up <+: l.up) (hwriter : bridgeWriter = true → l.bridgeWriter = true) :
      SocketStep l { l with severed := true, toHost, down, outgoing, up, bridgeWriter }

/-- The daemon's reader takes a step. -/
inductive DaemonStep : Line → Line → Prop
  | arrives (l : Line) (first : List UInt8) (down : List Down) (hhand : l.daemonHand = .idle)
      (hdown : l.down = .head first :: down) :
      DaemonStep l
        { l with down, proxy := .connecting first, inLocals := true, fromDevice := [] }
  | takes (l : Line) (part : Part) (down : List Down) (hhand : l.daemonHand = .idle)
      (hdown : l.down = .part part :: down) (hlocals : l.inLocals = true) :
      DaemonStep l { l with down, daemonHand := .sending part }
  | misses (l : Line) (part : Part) (down : List Down) (hhand : l.daemonHand = .idle)
      (hdown : l.down = .part part :: down) (hlocals : l.inLocals = false) :
      DaemonStep l { l with down }
  | daemonSends (l : Line) (part : Part) (hhand : l.daemonHand = .sending part) :
      DaemonStep l { l with daemonHand := .idle, fromDevice := l.fromDevice ++ [part] }
  | daemonBlocks (l : Line) (part : Part) (hhand : l.daemonHand = .sending part) :
      DaemonStep l { l with daemonHand := .blocked }
  | daemonDrops (l : Line) (hhand : l.daemonHand = .blocked) :
      DaemonStep l { l with daemonHand := .reporting, inLocals := false }
  | daemonReports (l : Line) (fits : Bool) (hhand : l.daemonHand = .reporting) :
      DaemonStep l { l with daemonHand := .idle, outgoing := l.outgoing ++ notice fits }
  | daemonLeaves (l : Line) (fits : Bool) (hlocals : l.inLocals = true) :
      DaemonStep l { l with inLocals := false, fromDevice := l.fromDevice ++ notice fits }

/-- The bridge's reader takes a step. -/
inductive BridgeStep : Line → Line → Prop
  | finds (l : Line) (part : Part) (up : List Part) (hhand : l.bridgeHand = .idle)
      (hup : l.up = part :: up) (hregistered : l.registered = true) :
      BridgeStep l { l with up, bridgeHand := .found part }
  | ignores (l : Line) (part : Part) (up : List Part) (hhand : l.bridgeHand = .idle)
      (hup : l.up = part :: up) (hregistered : l.registered = false) :
      BridgeStep l { l with up }
  | holds (l : Line) (part : Part) (hhand : l.bridgeHand = .found part) (htable : l.inTable = true) :
      BridgeStep l { l with bridgeHand := .sending part }
  | unknown (l : Line) (part : Part) (hhand : l.bridgeHand = .found part)
      (htable : l.inTable = false) : BridgeStep l { l with bridgeHand := .idle }
  | delivers (l : Line) (part : Part) (hhand : l.bridgeHand = .sending part) :
      BridgeStep l { l with bridgeHand := .idle, fromHost := l.fromHost ++ [part] }
  | blocks (l : Line) (part : Part) (hhand : l.bridgeHand = .sending part) :
      BridgeStep l { l with bridgeHand := .blocked }
  | checks (l : Line) (hhand : l.bridgeHand = .blocked) (hregistered : l.registered = true) :
      BridgeStep l { l with bridgeHand := .dropping }
  | forgets (l : Line) (hhand : l.bridgeHand = .blocked) (hregistered : l.registered = false) :
      BridgeStep l { l with bridgeHand := .idle }
  | drops (l : Line) (hhand : l.bridgeHand = .dropping) :
      BridgeStep l { l with bridgeHand := .reporting, inTable := false }
  | bridgeReports (l : Line) (fits : Bool) (hhand : l.bridgeHand = .reporting) :
      BridgeStep l
        { l with bridgeHand := .idle, toHost := l.toHost ++ (notice fits).map .part }

/-- The bridge's tables change: the route gets a connector or loses it, or the device enters. -/
inductive RouteStep (orderly : Prop) : Line → Line → Prop
  | registers (l : Line) (hdevice : l.device = .unborn) :
      RouteStep orderly l { l with registered := true }
  | unregisters (l : Line) (fits : Bool) (htable : fits = true → l.inTable = true) :
      RouteStep orderly l
        { l with registered := false, inTable := false, fromHost := l.fromHost ++ notice fits }
  | attaches (l : Line) (opening : List UInt8) (hdevice : l.device = .unborn)
      (horderly : orderly → l.registered = true ∨ l.bridgeWriter = false) :
      RouteStep orderly l { l with device := .attached, opening, inTable := true }

inductive TaskStep (orderly : Prop) (l l' : Line) : Prop
  | device (h : DeviceStep l l')
  | proxy (h : ProxyStep orderly l l')
  | socket (h : SocketStep l l')
  | daemon (h : DaemonStep l l')
  | bridge (h : BridgeStep l l')

inductive Step (orderly : Prop) (l l' : Line) : Prop
  | task (h : TaskStep orderly l l')
  | route (h : RouteStep orderly l l')

/-- What follows from a step of whichever task, and of the route, follows from a step. -/
theorem Step.elim {orderly C : Prop} {l l' : Line} (hstep : Step orderly l l')
    (hdevice : DeviceStep l l' → C) (hproxy : ProxyStep orderly l l' → C)
    (hsocket : SocketStep l l' → C) (hdaemon : DaemonStep l l' → C) (hbridge : BridgeStep l l' → C)
    (hroute : RouteStep orderly l l' → C) : C := by
  cases hstep with
  | task hstep =>
    cases hstep with
    | device h => exact hdevice h
    | proxy h => exact hproxy h
    | socket h => exact hsocket h
    | daemon h => exact hdaemon h
    | bridge h => exact hbridge h
  | route h => exact hroute h

/-! ### What gets through -/

/-- What is on its way to the daemon and may still arrive. -/
def pipe (l : Line) : List Down := if l.severed then l.down else l.down ++ l.toHost

def Parts (downs : List Down) : Prop := ∀ opening, .head opening ∉ downs

/-- What was read for the daemon so far. -/
def sent (l : Line) : List UInt8 :=
  match l.device with
  | .unborn | .attached => []
  | _ => l.opening ++ l.deviceRead

/-- The bridge's reader may still send something to the device. -/
def MayDeliver (l : Line) : Prop :=
  l.device = .unborn ∨ (∃ part, l.bridgeHand = .sending part) ∨
    l.inTable = true ∧ ((∃ part, l.bridgeHand = .found part) ∨
      l.registered = true ∧ l.bridgeHand ≠ .blocked ∧ l.bridgeHand ≠ .dropping)

/-- The daemon's reader may still send something to the task at the listener. -/
def MayReach (l : Line) : Prop :=
  l.proxy = .absent ∨ (∃ part, l.daemonHand = .sending part) ∨
    l.inLocals = true ∧ l.daemonHand ≠ .blocked

def upward (l : Line) : List (Prop × List UInt8) :=
  [(l.device.Ended, l.fromHost.flatMap Part.bytes), (¬l.MayDeliver, l.bridgeHand.bytes),
    (False, l.up.flatMap Part.bytes), (l.severed = true, l.outgoing.flatMap Part.bytes),
    (l.proxy.Ended, [])]

def downward (l : Line) : List (Prop × List UInt8) :=
  [(l.proxy.Ended, l.proxy.first ++ l.fromDevice.flatMap Part.bytes),
    (¬l.MayReach, l.daemonHand.bytes), (False, l.down.flatMap Down.bytes),
    (l.severed = true, l.toHost.flatMap Down.bytes), (l.device.Ended, [])]

/-- What a connection is made up of, in its order. -/
structure Framed (l : Line) : Prop where
  fresh : l.device = .unborn ∨ l.device = .attached →
    l.proxy = .absent ∧ l.toHost = [] ∧ l.down = [] ∧ l.deviceRead = []
  unborn : l.device = .unborn → l.inTable = false ∧ l.fromHost = []
  absent : l.proxy = .absent → l.inLocals = false ∧ l.daemonHand = .idle ∧ l.fromDevice = [] ∧
    l.outgoing = [] ∧ l.up = [] ∧ l.bridgeHand = .idle
  /-- The head is ahead of all else, and there once. -/
  awaited : l.proxy = .absent → l.pipe = [] ∨ ∃ opening rest, l.pipe = .head opening :: rest ∧ Parts rest
  opened : l.proxy ≠ .absent → Parts l.pipe
  carried : l.proxy = .absent → l.device = .relaying ∨ l.device = .closing → l.severed = false →
    l.pipe ≠ []

section Step

variable {orderly : Prop} {l l' : Line}

theorem parts_map (parts : List Part) : Parts (parts.map .part) := by simp [Parts]

theorem Parts.append {downs more : List Down} (hdowns : Parts downs) (hmore : Parts more) :
    Parts (downs ++ more) := by
  intro opening hmem
  rcases List.mem_append.mp hmem with hmem | hmem
  · exact hdowns opening hmem
  · exact hmore opening hmem

theorem Parts.sublist {downs more : List Down} (hdowns : Parts downs) (h : more.Sublist downs) :
    Parts more :=
  fun opening hmem => hdowns opening (h.subset hmem)

theorem TaskStep.unborn (h : TaskStep orderly l l') (hdevice : l.device = .unborn) :
    l'.device = .unborn := by
  cases h with
  | device hstep => cases hstep <;> simp_all
  | proxy hstep => cases hstep <;> exact hdevice
  | socket hstep => cases hstep <;> exact hdevice
  | daemon hstep => cases hstep <;> exact hdevice
  | bridge hstep => cases hstep <;> exact hdevice

/-! Of what is on its way to the daemon, a step -/

theorem DeviceStep.pipe_cases (h : DeviceStep l l') :
    l'.pipe = l.pipe ∨
      l.device = .attached ∧ l'.device = .relaying ∧ l'.pipe = l.pipe ++ [.head l.opening] ∨
      l.severed = false ∧ (l.device = .relaying ∨ l.device = .closing) ∧
        ∃ parts : List Part, l'.pipe = l.pipe ++ parts.map .part := by
  cases hsevered : l.severed
  all_goals cases h
  all_goals simp_all [pipe]
  next bytes _ => exact ⟨[.data bytes], rfl⟩

theorem ProxyStep.pipe_eq (h : ProxyStep orderly l l') : l'.pipe = l.pipe := by
  cases h <;> rfl

theorem SocketStep.pipe_cases (h : SocketStep l l') :
    l'.pipe = l.pipe ∧ l'.severed = l.severed ∨ l'.pipe <+: l.pipe ∧ l'.severed = true := by
  cases h with
  | carriesDown down toHost hqueue hsocket => exact .inl ⟨by simp [pipe, hsocket, hqueue], rfl⟩
  | carriesUp => exact .inl ⟨rfl, rfl⟩
  | loses toHost down outgoing up bridgeWriter htoHost hdown =>
    refine .inr ⟨?_, rfl⟩
    cases hsevered : l.severed
    · simpa [pipe, hsevered] using hdown.trans (List.prefix_append _ _)
    · simpa [pipe, hsevered] using hdown

theorem DaemonStep.pipe_cases (h : DaemonStep l l') :
    l'.pipe = l.pipe ∧ l'.proxy = l.proxy ∨
      (∃ opening, l.pipe = .head opening :: l'.pipe ∧ l'.proxy = .connecting opening) ∨
      ∃ part, l.pipe = .part part :: l'.pipe ∧ l'.proxy = l.proxy := by
  cases hsevered : l.severed
  all_goals cases h
  all_goals simp_all [pipe]

theorem BridgeStep.pipe_cases (h : BridgeStep l l') :
    l'.pipe = l.pipe ∨
      l.bridgeHand = .reporting ∧ ∃ parts : List Part, l'.pipe = l.pipe ++ parts.map .part := by
  cases hsevered : l.severed
  all_goals cases h
  all_goals simp_all [pipe]

theorem RouteStep.pipe_eq (h : RouteStep orderly l l') : l'.pipe = l.pipe := by
  cases h <;> rfl

/-! ### The order of a connection -/

namespace Framed

theorem awaited_append {downs downs' : List Down} {parts : List Part}
    (h : downs = [] ∨ ∃ opening rest, downs = .head opening :: rest ∧ Parts rest) (hsome : downs ≠ [])
    (hdowns : downs' = downs ++ parts.map .part) :
    downs' = [] ∨ ∃ opening rest, downs' = .head opening :: rest ∧ Parts rest := by
  rcases h with hnone | ⟨opening, rest, rfl, hrest⟩
  · exact absurd hnone hsome
  · exact .inr ⟨opening, rest ++ parts.map .part, by simpa using hdowns, hrest.append (parts_map parts)⟩

theorem absent_of_head (h : Framed l) {first : List UInt8} {down : List Down}
    (hdown : l.down = .head first :: down) : l.proxy = .absent := by
  by_contra hpresent
  refine h.opened hpresent first ?_
  cases hsevered : l.severed <;> simp [pipe, hsevered, hdown]

theorem present_of_part (h : Framed l) {part : Part} {down : List Down}
    (hdown : l.down = .part part :: down) : l.proxy ≠ .absent := by
  intro habsent
  rcases h.awaited habsent with hnone | ⟨opening, rest, hhead, -⟩
  · cases hsevered : l.severed <;> simp [pipe, hsevered, hdown] at hnone
  · cases hsevered : l.severed <;> simp [pipe, hsevered, hdown] at hhead

theorem device (h : Framed l) (hstep : DeviceStep l l') : Framed l' := by
  have hproxy : l'.proxy = l.proxy := by cases hstep <;> rfl
  have hsevered : l'.severed = l.severed := by cases hstep <;> rfl
  have hstays : l'.proxy = l.proxy ∧ l'.inLocals = l.inLocals ∧ l'.daemonHand = l.daemonHand ∧
      l'.fromDevice = l.fromDevice ∧ l'.outgoing = l.outgoing ∧ l'.up = l.up ∧
      l'.bridgeHand = l.bridgeHand := by
    cases hstep <;> exact ⟨rfl, rfl, rfl, rfl, rfl, rfl, rfl⟩
  have hopens : l.device = .attached → l.proxy = .absent ∧ l.pipe = [] := by
    intro hdevice
    obtain ⟨hproxy, htoHost, hdown, -⟩ := h.fresh (.inr hdevice)
    exact ⟨hproxy, by simp [pipe, htoHost, hdown]⟩
  constructor
  case fresh =>
    have hfresh := h.fresh
    cases hstep <;> simp_all
  case unborn =>
    have hunborn := h.unborn
    cases hstep <;> simp_all
  case absent => simpa [hstays] using h.absent
  case awaited =>
    rw [hproxy]
    intro habsent
    rcases hstep.pipe_cases with hpipe | ⟨hdevice, -, hpipe⟩ | ⟨hsocket, hdevice, parts, hpipe⟩
    · rw [hpipe]
      exact h.awaited habsent
    · rw [hpipe, (hopens hdevice).2]
      exact .inr ⟨l.opening, [], rfl, by simp [Parts]⟩
    · exact awaited_append (h.awaited habsent) (h.carried habsent hdevice hsocket) hpipe
  case opened =>
    rw [hproxy]
    intro hpresent
    rcases hstep.pipe_cases with hpipe | ⟨hdevice, -, hpipe⟩ | ⟨-, -, parts, hpipe⟩
    · rw [hpipe]
      exact h.opened hpresent
    · exact absurd (hopens hdevice).1 hpresent
    · rw [hpipe]
      exact (h.opened hpresent).append (parts_map parts)
  case carried =>
    rw [hproxy, hsevered]
    intro habsent hdevice hsocket
    rcases hstep.pipe_cases with hpipe | ⟨-, -, hpipe⟩ | ⟨-, hbefore, parts, hpipe⟩
    · rw [hpipe]
      refine h.carried habsent ?_ hsocket
      cases hstep <;> simp_all [pipe]
    · simp [hpipe]
    · rw [hpipe]
      exact List.append_ne_nil_of_left_ne_nil (h.carried habsent hbefore hsocket) _

theorem proxy (h : Framed l) (hstep : ProxyStep orderly l l') : Framed l' := by
  have hpresent : l.proxy ≠ .absent ∧ l'.proxy ≠ .absent := by cases hstep <;> simp_all
  have hstays : l'.device = l.device ∧ l'.toHost = l.toHost ∧ l'.down = l.down ∧
      l'.deviceRead = l.deviceRead ∧ l'.inTable = l.inTable ∧ l'.fromHost = l.fromHost := by
    cases hstep <;> exact ⟨rfl, rfl, rfl, rfl, rfl, rfl⟩
  constructor
  case fresh =>
    rw [hstays.1]
    exact fun hdevice => absurd (h.fresh hdevice).1 hpresent.1
  case unborn => simpa [hstays] using h.unborn
  case absent => exact fun habsent => absurd habsent hpresent.2
  case awaited => exact fun habsent => absurd habsent hpresent.2
  case opened =>
    rw [hstep.pipe_eq]
    exact fun _ => h.opened hpresent.1
  case carried => exact fun habsent => absurd habsent hpresent.2

theorem socket (h : Framed l) (hstep : SocketStep l l') : Framed l' := by
  have hstays : l'.device = l.device ∧ l'.proxy = l.proxy ∧ l'.deviceRead = l.deviceRead ∧
      l'.inTable = l.inTable ∧ l'.fromHost = l.fromHost ∧ l'.inLocals = l.inLocals ∧
      l'.daemonHand = l.daemonHand ∧ l'.fromDevice = l.fromDevice ∧ l'.bridgeHand = l.bridgeHand := by
    cases hstep <;> exact ⟨rfl, rfl, rfl, rfl, rfl, rfl, rfl, rfl, rfl⟩
  obtain ⟨hdevice, hproxy, hread, htable, hqueue, hlocals, hhand, hdevices, hbridge⟩ := hstays
  constructor
  case fresh =>
    have hfresh := h.fresh
    cases hstep with
    | loses toHost down outgoing up bridgeWriter htoHost hdown =>
      intro hbefore
      obtain ⟨hproxy, hnone, hnothing, hread⟩ := hfresh hbefore
      exact ⟨hproxy, by simpa [hnone] using htoHost, by simpa [hnothing] using hdown, hread⟩
    | _ => simp_all
  case unborn => simpa [hdevice, htable, hqueue] using h.unborn
  case absent =>
    have habsent := h.absent
    cases hstep with
    | loses toHost down outgoing up bridgeWriter _ _ houtgoing hup =>
      intro hproxy
      obtain ⟨hlocals, hhand, hqueue, hnone, hnothing, hidle⟩ := habsent hproxy
      exact ⟨hlocals, hhand, hqueue, by simpa [hnone] using houtgoing, by simpa [hnothing] using hup,
        hidle⟩
    | _ => simp_all
  case awaited =>
    rw [hproxy]
    intro habsent
    rcases hstep.pipe_cases with ⟨hpipe, -⟩ | ⟨⟨rest, hpipe⟩, -⟩
    · rw [hpipe]
      exact h.awaited habsent
    · rcases h.awaited habsent with hnone | ⟨opening, behind, hhead, hbehind⟩
      · rw [hnone, List.append_eq_nil_iff] at hpipe
        exact .inl hpipe.1
      · cases hpipe' : l'.pipe with
        | nil => exact .inl rfl
        | cons down downs =>
          rw [hpipe', hhead, List.cons_append] at hpipe
          obtain ⟨rfl, hdowns⟩ := List.cons.inj hpipe
          exact .inr ⟨opening, downs, rfl, hbehind.sublist (hdowns ▸ List.sublist_append_left _ _)⟩
  case opened =>
    rw [hproxy]
    intro hpresent
    rcases hstep.pipe_cases with ⟨hpipe, -⟩ | ⟨hpipe, -⟩
    · rw [hpipe]
      exact h.opened hpresent
    · exact (h.opened hpresent).sublist hpipe.sublist
  case carried =>
    rw [hproxy, hdevice]
    intro habsent hdevice hsocket
    rcases hstep.pipe_cases with ⟨hpipe, hsevered⟩ | ⟨-, hsevered⟩
    · rw [hpipe]
      exact h.carried habsent hdevice (hsevered ▸ hsocket)
    · rw [hsevered] at hsocket
      exact absurd hsocket.symm Bool.false_ne_true

theorem daemon (h : Framed l) (hstep : DaemonStep l l') : Framed l' := by
  have hstays : l'.device = l.device ∧ l'.toHost = l.toHost ∧ l'.deviceRead = l.deviceRead ∧
      l'.inTable = l.inTable ∧ l'.fromHost = l.fromHost ∧ l'.severed = l.severed := by
    cases hstep <;> exact ⟨rfl, rfl, rfl, rfl, rfl, rfl⟩
  obtain ⟨hdevice, htoHost, hread, htable, hqueue, hsevered⟩ := hstays
  have hfirst : ∀ part, l.pipe = .part part :: l'.pipe → l.proxy ≠ .absent := by
    intro part hpipe habsent
    rcases h.awaited habsent with hnone | ⟨opening, rest, hhead, -⟩
    · simp [hnone] at hpipe
    · simp [hhead] at hpipe
  constructor
  case fresh =>
    have hfresh := h.fresh
    have hlocals := h.absent
    cases hstep <;> simp_all
  case unborn => simpa [hdevice, htable, hqueue] using h.unborn
  case absent =>
    have habsent := h.absent
    cases hstep <;> simp_all
  case awaited =>
    intro habsent
    rcases hstep.pipe_cases with ⟨hpipe, hproxy⟩ | ⟨opening, -, hproxy⟩ | ⟨part, hpipe, hproxy⟩
    · rw [hpipe]
      exact h.awaited (hproxy ▸ habsent)
    · rw [hproxy] at habsent
      cases habsent
    · exact absurd (hproxy ▸ habsent) (hfirst part hpipe)
  case opened =>
    intro hpresent
    rcases hstep.pipe_cases with ⟨hpipe, hproxy⟩ | ⟨opening, hpipe, hproxy⟩ | ⟨part, hpipe, hproxy⟩
    · rw [hpipe]
      exact h.opened (hproxy ▸ hpresent)
    · by_cases habsent : l.proxy = .absent
      · rcases h.awaited habsent with hnone | ⟨opening', rest, hhead, hrest⟩
        · simp [hnone] at hpipe
        · rw [hhead] at hpipe
          rw [← (List.cons.inj hpipe).2]
          exact hrest
      · exact absurd (hpipe ▸ List.mem_cons_self) (h.opened habsent opening)
    · have hparts := h.opened (hproxy ▸ hpresent)
      rw [hpipe] at hparts
      exact hparts.sublist (List.sublist_cons_self _ _)
  case carried =>
    rw [hdevice, hsevered]
    intro habsent hdevice hsocket
    rcases hstep.pipe_cases with ⟨hpipe, hproxy⟩ | ⟨opening, -, hproxy⟩ | ⟨part, hpipe, hproxy⟩
    · rw [hpipe]
      exact h.carried (hproxy ▸ habsent) hdevice hsocket
    · rw [hproxy] at habsent
      cases habsent
    · exact absurd (hproxy ▸ habsent) (hfirst part hpipe)

theorem bridge (h : Framed l) (hstep : BridgeStep l l') : Framed l' := by
  have hstays : l'.device = l.device ∧ l'.proxy = l.proxy ∧ l'.down = l.down ∧
      l'.deviceRead = l.deviceRead ∧ l'.severed = l.severed := by
    cases hstep <;> exact ⟨rfl, rfl, rfl, rfl, rfl⟩
  obtain ⟨hdevice, hproxy, hdown, hread, hsevered⟩ := hstays
  have hidle : l.bridgeHand = .reporting → l.proxy ≠ .absent := by
    intro hhand habsent
    obtain ⟨-, -, -, -, -, hidle⟩ := h.absent habsent
    rw [hhand] at hidle
    cases hidle
  constructor
  case fresh =>
    have hfresh := h.fresh
    have habsent := h.absent
    cases hstep <;> simp_all
  case unborn =>
    have hfresh := h.fresh
    have hunborn := h.unborn
    have habsent := h.absent
    cases hstep <;> simp_all
  case absent =>
    have habsent := h.absent
    cases hstep <;> simp_all
  case awaited =>
    rw [hproxy]
    intro habsent
    rcases hstep.pipe_cases with hpipe | ⟨hhand, -⟩
    · rw [hpipe]
      exact h.awaited habsent
    · exact absurd habsent (hidle hhand)
  case opened =>
    rw [hproxy]
    intro hpresent
    rcases hstep.pipe_cases with hpipe | ⟨-, parts, hpipe⟩
    · rw [hpipe]
      exact h.opened hpresent
    · rw [hpipe]
      exact (h.opened hpresent).append (parts_map parts)
  case carried =>
    rw [hproxy, hdevice, hsevered]
    intro habsent hdevice hsocket
    rcases hstep.pipe_cases with hpipe | ⟨hhand, -⟩
    · rw [hpipe]
      exact h.carried habsent hdevice hsocket
    · exact absurd habsent (hidle hhand)

theorem route (h : Framed l) (hstep : RouteStep orderly l l') : Framed l' := by
  have hpipe := hstep.pipe_eq
  obtain ⟨hfresh, hunborn, habsent, hawaited, hopened, hcarried⟩ := h
  cases hstep with
  | registers => exact ⟨hfresh, hunborn, habsent, hawaited, hopened, hcarried⟩
  | attaches opening hdevice =>
    exact ⟨fun _ => hfresh (.inl hdevice), fun h => absurd h (by simp), habsent, hawaited, hopened,
      fun _ h => absurd h (by simp)⟩
  | unregisters fits htable =>
    refine ⟨hfresh, fun hdevice => ⟨rfl, ?_⟩, habsent, hawaited, hopened, hcarried⟩
    obtain ⟨hout, hqueue⟩ := hunborn hdevice
    cases fits with
    | false => simp [hqueue, notice]
    | true => simp [hout] at htable

theorem step (h : Framed l) (hstep : Step orderly l l') : Framed l' :=
  hstep.elim h.device h.proxy h.socket h.daemon h.bridge h.route

end Framed

/-! ### What a device is written -/

/-- A device is written what was read at the listener, as far as it got. -/
def Delivered (l : Line) : Prop := Delivers l.deviceWritten l.upward l.localRead

namespace Delivered

/-- Nothing moves, and stages may be cut. -/
theorem weaken (h : Delivered l) (hwritten : l'.deviceWritten = l.deviceWritten)
    (hread : l'.localRead = l.localRead) (hqueue : l'.fromHost.flatMap Part.bytes =
      l.fromHost.flatMap Part.bytes) (hhand : l'.bridgeHand.bytes = l.bridgeHand.bytes)
    (hup : l'.up = l.up)
    (houtgoing : l'.outgoing.flatMap Part.bytes = l.outgoing.flatMap Part.bytes)
    (hdevice : l.device.Ended → l'.device.Ended) (hmay : l'.MayDeliver → l.MayDeliver)
    (hsevered : l.severed = true → l'.severed = true) (hproxy : l.proxy.Ended → l'.proxy.Ended) :
    Delivered l' := by
  rw [Delivered, hwritten, hread]
  refine Delivers.weaken ?_ h
  simp only [upward, hqueue, hhand, hup, houtgoing]
  exact .cons ⟨hdevice, rfl⟩ (.cons ⟨fun hnot hmay' => hnot (hmay hmay'), rfl⟩
    (.cons ⟨id, rfl⟩ (.cons ⟨hsevered, rfl⟩ (.cons ⟨hproxy, rfl⟩ .nil))))

theorem device (hframed : Framed l) (h : Delivered l) (hstep : DeviceStep l l') :
    Delivered l' := by
  have hunborn := hframed.unborn
  cases hstep
  case receives payload fromHost hdevice hqueue =>
    have hcut : ¬l.device.Ended := by simp [Device.Ended, hdevice]
    rw [Delivered, upward, hqueue, List.flatMap_cons] at h
    exact h.deliver hcut
  case receivesLast payload written fromHost hdevice hqueue hwritten =>
    have hcut : ¬l.device.Ended := by simp [Device.Ended, hdevice]
    rw [Delivered, upward, hqueue, List.flatMap_cons] at h
    have hout := ((List.prefix_append_right_inj _).mpr hwritten).trans (h.deliver hcut).isPrefix
    exact Delivers.lose (.inl rfl) hout
  case leaves hdevice => exact Delivers.lose (.inr (.inr rfl)) h.isPrefix
  case isClosed fromHost hdevice hqueue =>
    exact h.weaken rfl rfl (by simp [hqueue, Part.bytes]) rfl rfl rfl (fun _ => .inl rfl)
      (by simp [MayDeliver, hdevice]) id id
  all_goals refine h.weaken rfl rfl rfl rfl rfl rfl ?_ ?_ id id
  all_goals simp_all [Device.Ended, MayDeliver]

theorem proxy (h : Delivered l) (hstep : ProxyStep orderly l l') : Delivered l' := by
  cases hstep
  case localReads bytes hproxy =>
    have hcut : ¬l.proxy.Ended := by simp [Proxy.Ended, hproxy]
    rw [Delivered, upward] at h ⊢
    rw [List.flatMap_append]
    refine h.under id (List.prefix_append _ _) fun _ h => h.under id (List.prefix_append _ _) fun _ h =>
      h.under id (List.prefix_append _ _) fun _ h => ?_
    simpa [Part.bytes] using Delivers.push hcut h
  case localReadsLast bytes hproxy =>
    rw [Delivered, upward] at h ⊢
    have hsource := List.prefix_append l.localRead bytes
    exact h.under id hsource fun _ h => h.under id hsource fun _ h => h.under id hsource fun _ h =>
      h.under id hsource fun _ h => h.stop (.inl rfl) hsource
  case reports fits hproxy _ =>
    refine h.weaken rfl rfl rfl rfl rfl ?_ id id id fun _ => .inr (.inl rfl)
    cases fits <;> simp [notice, Part.bytes]
  all_goals refine h.weaken rfl rfl rfl rfl rfl rfl id id id ?_
  all_goals simp_all [Proxy.Ended]

theorem socket (h : Delivered l) (hstep : SocketStep l l') : Delivered l' := by
  cases hstep with
  | carriesDown => exact h
  | carriesUp part outgoing hqueue hsocket =>
    have hcut : ¬l.severed = true := by simp [hsocket]
    rw [Delivered, upward, hqueue, List.flatMap_cons] at h
    refine h.under id List.prefix_rfl fun _ h => h.under id List.prefix_rfl fun _ h => ?_
    rw [List.flatMap_append]
    simpa using Delivers.pass hcut h
  | loses toHost down outgoing up bridgeWriter _ _ _ hup =>
    have hbytes : up.flatMap Part.bytes <+: l.up.flatMap Part.bytes := by
      obtain ⟨rest, hrest⟩ := hup
      rw [← hrest, List.flatMap_append]
      exact List.prefix_append _ _
    exact h.under id List.prefix_rfl fun _ h => h.under id List.prefix_rfl fun _ h =>
      h.truncate hbytes rfl

theorem daemon (hframed : Framed l) (h : Delivered l) (hstep : DaemonStep l l') : Delivered l' := by
  cases hstep
  case arrives first down hhand hdown =>
    have habsent := hframed.absent_of_head hdown
    exact h.weaken rfl rfl rfl rfl rfl rfl id id id (by simp [habsent, Proxy.Ended])
  case daemonReports fits hhand =>
    refine h.weaken rfl rfl rfl rfl rfl ?_ id id id id
    cases fits <;> simp [notice, Part.bytes]
  all_goals exact h

theorem bridge (hframed : Framed l) (h : Delivered l) (hstep : BridgeStep l l') : Delivered l' := by
  have hborn : l.bridgeHand ≠ .idle ∨ l.up ≠ [] → l.device ≠ .unborn := by
    intro hbusy hdevice
    obtain ⟨-, -, -, -, hup, hidle⟩ := hframed.absent (hframed.fresh (.inl hdevice)).1
    rcases hbusy with hhand | hqueue
    · exact hhand hidle
    · exact hqueue hup
  rw [Delivered, upward] at h
  cases hstep with
  | finds part up hhand hup hregistered =>
    rw [hhand, hup, List.flatMap_cons] at h
    have hborn' := hborn (.inr (by simp [hup]))
    refine h.under id List.prefix_rfl fun _ h => ?_
    have hpassed := Delivers.pass not_false h
    refine hpassed.under ?_ List.prefix_rfl fun _ h => h
    simp [MayDeliver, hhand, hregistered, hborn']
  | ignores part up hhand hup hregistered =>
    have hborn' := hborn (.inr (by simp [hup]))
    refine h.under id List.prefix_rfl fun _ h => Delivers.lose ?_ h.isPrefix
    simp [MayDeliver, hhand, hregistered, hborn']
  | holds part hhand htable =>
    rw [hhand] at h
    refine h.under id List.prefix_rfl fun _ h => h.under ?_ List.prefix_rfl fun _ h => h
    simp [MayDeliver, hhand, htable]
  | unknown part hhand htable =>
    have hborn' := hborn (.inl (by simp [hhand]))
    refine h.under id List.prefix_rfl fun _ h => Delivers.lose ?_ h.isPrefix
    simp [MayDeliver, htable, hborn']
  | delivers part hhand =>
    have hcut : ¬¬l.MayDeliver := by simp [MayDeliver, hhand]
    have hbytes : l.bridgeHand.bytes = part.bytes ++ [] := by simp [hhand, BridgeHand.bytes]
    rw [hbytes] at h
    have hpassed := Delivers.pass hcut h
    rw [Delivered, upward, List.flatMap_append, List.flatMap_singleton]
    exact hpassed.under id List.prefix_rfl fun _ h => h.under (fun hnot => absurd hnot hcut)
      List.prefix_rfl fun _ h => h
  | blocks part hhand =>
    have hborn' := hborn (.inl (by simp [hhand]))
    refine h.under id List.prefix_rfl fun _ h => Delivers.lose ?_ h.isPrefix
    simp [MayDeliver, hborn']
  | checks hhand hregistered =>
    have hborn' := hborn (.inl (by simp [hhand]))
    refine h.under id List.prefix_rfl fun _ h => Delivers.lose ?_ h.isPrefix
    simp [MayDeliver, hborn']
  | forgets hhand hregistered =>
    have hborn' := hborn (.inl (by simp [hhand]))
    refine h.under id List.prefix_rfl fun _ h => Delivers.lose ?_ h.isPrefix
    simp [MayDeliver, hborn', hregistered]
  | drops hhand =>
    have hborn' := hborn (.inl (by simp [hhand]))
    refine h.under id List.prefix_rfl fun _ h => Delivers.lose ?_ h.isPrefix
    simp [MayDeliver, hborn']
  | bridgeReports fits hhand =>
    rw [hhand] at h
    refine h.under id List.prefix_rfl fun _ h => h.under ?_ List.prefix_rfl fun _ h => h
    simp [MayDeliver, hhand]

theorem route (h : Delivered l) (hstep : RouteStep orderly l l') : Delivered l' := by
  cases hstep with
  | registers hdevice => exact h.weaken rfl rfl rfl rfl rfl rfl id (by simp [MayDeliver, hdevice]) id id
  | attaches opening hdevice =>
    exact h.weaken rfl rfl rfl rfl rfl rfl (by simp [Device.Ended, hdevice])
      (by simp [MayDeliver, hdevice]) id id
  | unregisters fits htable =>
    refine h.weaken rfl rfl ?_ rfl rfl rfl id ?_ id id
    · cases fits <;> simp [notice, Part.bytes]
    · simp only [MayDeliver]
      tauto

theorem step (hframed : Framed l) (h : Delivered l) (hstep : Step orderly l l') : Delivered l' :=
  hstep.elim (device hframed h) h.proxy h.socket (daemon hframed h) (bridge hframed h) h.route

end Delivered

/-! ### What the local listener is written -/

/-- The listener is written the request and what the device sent behind it, as far as that got. -/
def Forwarded (l : Line) : Prop := Delivers l.localWritten l.downward l.sent

namespace Forwarded

/-- Nothing moves, and stages may be cut. -/
theorem weaken (h : Forwarded l) (hwritten : l'.localWritten = l.localWritten)
    (hsent : l.sent <+: l'.sent) (hfirst : l'.proxy.first = l.proxy.first)
    (hqueue : l'.fromDevice.flatMap Part.bytes = l.fromDevice.flatMap Part.bytes)
    (hhand : l'.daemonHand.bytes = l.daemonHand.bytes) (hdown : l'.down = l.down)
    (htoHost : l'.toHost.flatMap Down.bytes = l.toHost.flatMap Down.bytes)
    (hproxy : l.proxy.Ended → l'.proxy.Ended) (hmay : l'.MayReach → l.MayReach)
    (hsevered : l.severed = true → l'.severed = true) (hdevice : l.device.Ended → l'.device.Ended)
    (hsame : l'.sent = l.sent ∨ l'.device.Ended) : Forwarded l' := by
  rw [Forwarded, hwritten]
  simp only [downward, hfirst, hqueue, hhand, hdown, htoHost]
  refine h.under hproxy hsent fun _ h => h.under (fun hnot hmay' => hnot (hmay hmay')) hsent
    fun _ h => h.under id hsent fun _ h => h.under hsevered hsent fun _ h => ?_
  rcases hsame with hsame | hended
  · rw [hsame]
    exact h.under hdevice List.prefix_rfl fun _ h => h
  · exact h.stop hended hsent

theorem device (hframed : Framed l) (h : Forwarded l) (hstep : DeviceStep l l') :
    Forwarded l' := by
  have hpush : ∀ more, l'.sent = l.sent ++ more → ¬l.device.Ended → l'.localWritten = l.localWritten →
      l'.proxy = l.proxy → l'.fromDevice = l.fromDevice → l'.daemonHand = l.daemonHand →
      l'.inLocals = l.inLocals → l'.down = l.down → l'.severed = l.severed →
      l'.toHost.flatMap Down.bytes = l.toHost.flatMap Down.bytes ++ more → Forwarded l' := by
    intro more hsent hcut hwritten hproxy hqueue hhand hlocals hdown hsevered htoHost
    have hsource := List.prefix_append l.sent more
    rw [Forwarded, hwritten, hsent, downward, MayReach, hproxy, hqueue, hhand, hlocals, hdown,
      hsevered, htoHost]
    exact h.under id hsource fun _ h => h.under id hsource fun _ h => h.under id hsource fun _ h =>
      Delivers.push hcut h
  cases hstep
  case opens hdevice hwriter =>
    obtain ⟨-, -, -, hread⟩ := hframed.fresh (.inr hdevice)
    exact hpush l.opening (by simp [sent, hdevice, hread]) (by simp [Device.Ended, hdevice]) rfl rfl
      rfl rfl rfl rfl rfl (by simp [Down.bytes])
  case reads bytes hdevice =>
    exact hpush bytes (by simp [sent, hdevice]) (by simp [Device.Ended, hdevice]) rfl rfl
      rfl rfl rfl rfl rfl (by simp [Down.bytes, Part.bytes])
  case readsLast bytes hdevice =>
    exact h.weaken rfl (by simp [sent, hdevice]) rfl rfl rfl rfl rfl id id id (fun _ => .inl rfl)
      (.inr (.inl rfl))
  case refuses hdevice =>
    exact h.weaken rfl (by simp [sent, hdevice]) rfl rfl rfl rfl rfl id id id
      (fun _ => .inr (.inl rfl)) (.inr (.inr (.inl rfl)))
  case ends fits hdevice =>
    refine h.weaken rfl (by simp [sent, hdevice]) rfl rfl rfl rfl ?_ id id id (fun _ => .inl rfl)
      (.inr (.inl rfl))
    cases fits <;> simp [notice, Down.bytes, Part.bytes]
  case closes fits hdevice =>
    refine h.weaken rfl (by simp [sent, hdevice]) rfl rfl rfl rfl ?_ id id id
      (fun _ => .inr (.inl rfl)) (.inr (.inr (.inl rfl)))
    cases fits <;> simp [notice, Down.bytes, Part.bytes]
  all_goals refine h.weaken rfl ?_ rfl rfl rfl rfl rfl id id id ?_ (.inl ?_)
  all_goals simp_all [sent, Device.Ended]

theorem proxy (h : Forwarded l) (hstep : ProxyStep orderly l l') : Forwarded l' := by
  have hended : l'.proxy.Ended → l'.localWritten <+: l'.sent → Forwarded l' := Delivers.lose
  cases hstep
  case connects first hproxy =>
    exact h.weaken rfl List.prefix_rfl (by simp [hproxy, Proxy.first]) rfl rfl rfl rfl
      (by simp [Proxy.Ended, hproxy]) (by simp [MayReach, hproxy]) id id (.inl rfl)
  case forwards first hproxy =>
    have hcut : ¬l.proxy.Ended := by simp [Proxy.Ended, hproxy]
    have hfirst : l.proxy.first = first := by rw [hproxy, Proxy.first]
    rw [Forwarded, downward, hfirst] at h
    refine (h.deliver hcut).under (fun hend => absurd hend hcut) List.prefix_rfl fun _ h =>
      h.under ?_ List.prefix_rfl fun _ h => h
    simp [MayReach, hproxy]
  case forwardsLast first written hproxy hwritten =>
    have hcut : ¬l.proxy.Ended := by simp [Proxy.Ended, hproxy]
    have hfirst : l.proxy.first = first := by rw [hproxy, Proxy.first]
    rw [Forwarded, downward, hfirst] at h
    exact hended (.inl rfl)
      (((List.prefix_append_right_inj _).mpr hwritten).trans (h.deliver hcut).isPrefix)
  case proxyReceives payload fromDevice hproxy hqueue =>
    have hcut : ¬l.proxy.Ended := by simp [Proxy.Ended, hproxy]
    have hfirst : l.proxy.first = [] := by rw [hproxy]; rfl
    rw [Forwarded, downward, hfirst, hqueue, List.flatMap_cons, List.nil_append] at h
    rw [Forwarded, downward, hfirst]
    exact h.deliver hcut
  case proxyReceivesLast payload written fromDevice hproxy hqueue hwritten =>
    have hcut : ¬l.proxy.Ended := by simp [Proxy.Ended, hproxy]
    have hfirst : l.proxy.first = [] := by rw [hproxy]; rfl
    rw [Forwarded, downward, hfirst, hqueue, List.flatMap_cons, List.nil_append] at h
    exact hended (.inl rfl)
      (((List.prefix_append_right_inj _).mpr hwritten).trans (h.deliver hcut).isPrefix)
  case localReads => exact h
  case reports => exact hended (.inr (.inl rfl)) h.isPrefix
  case proxyLeaves => exact hended (.inr (.inr rfl)) h.isPrefix
  all_goals exact hended (.inl rfl) h.isPrefix

theorem socket (h : Forwarded l) (hstep : SocketStep l l') : Forwarded l' := by
  cases hstep with
  | carriesDown down toHost hqueue hsocket =>
    have hcut : ¬l.severed = true := by simp [hsocket]
    rw [Forwarded, downward, hqueue, List.flatMap_cons] at h
    refine h.under id List.prefix_rfl fun _ h => h.under id List.prefix_rfl fun _ h => ?_
    rw [List.flatMap_append]
    simpa using Delivers.pass hcut h
  | carriesUp => exact h
  | loses toHost down outgoing up bridgeWriter _ hdown =>
    have hbytes : down.flatMap Down.bytes <+: l.down.flatMap Down.bytes := by
      obtain ⟨rest, hrest⟩ := hdown
      rw [← hrest, List.flatMap_append]
      exact List.prefix_append _ _
    exact h.under id List.prefix_rfl fun _ h => h.under id List.prefix_rfl fun _ h =>
      h.truncate hbytes rfl

theorem daemon (hframed : Framed l) (h : Forwarded l) (hstep : DaemonStep l l') : Forwarded l' := by
  have hbusy : l.daemonHand ≠ .idle → l.proxy ≠ .absent := by
    intro hhand habsent
    obtain ⟨-, hidle, -⟩ := hframed.absent habsent
    exact hhand hidle
  rw [Forwarded, downward] at h
  cases hstep with
  | arrives first down hhand hdown =>
    have habsent := hframed.absent_of_head hdown
    obtain ⟨-, -, hqueue, -⟩ := hframed.absent habsent
    have hreach : ¬¬l.MayReach := not_not.mpr (.inl habsent)
    have hnone : l.daemonHand.bytes = [] := by rw [hhand]; rfl
    have hstage : l.proxy.first ++ l.fromDevice.flatMap Part.bytes = [] := by
      rw [habsent, hqueue]
      rfl
    rw [hdown, List.flatMap_cons, hnone, hstage] at h
    have hhanded := h.under id List.prefix_rfl fun _ h => Delivers.pass not_false h
    rw [List.nil_append, Down.bytes, ← List.append_nil first] at hhanded
    have hpassed := Delivers.pass hreach hhanded
    rw [List.nil_append, ← List.append_nil first] at hpassed
    have hcut : ¬l.proxy.Ended := by simp [habsent, Proxy.Ended]
    rw [Forwarded, downward, hnone]
    exact hpassed.under (fun hend => absurd hend hcut) List.prefix_rfl fun _ h => h.under
      (fun hnot => absurd hnot hreach) List.prefix_rfl fun _ h => h
  | takes part down hhand hdown hlocals =>
    have hnone : l.daemonHand.bytes = [] := by rw [hhand]; rfl
    rw [hdown, List.flatMap_cons, hnone] at h
    refine h.under id List.prefix_rfl fun _ h => ?_
    exact (Delivers.pass not_false h).under
      (fun hnot => absurd (.inr (.inr ⟨hlocals, by simp [hhand]⟩)) hnot) List.prefix_rfl fun _ h => h
  | misses part down hhand hdown hlocals =>
    have hpresent := hframed.present_of_part hdown
    refine h.under id List.prefix_rfl fun _ h => Delivers.lose ?_ h.isPrefix
    simp [MayReach, hhand, hlocals, hpresent]
  | daemonSends part hhand =>
    have hreach : ¬¬l.MayReach := not_not.mpr (.inr (.inl ⟨part, hhand⟩))
    have hbytes : l.daemonHand.bytes = part.bytes ++ [] := by simp [hhand, DaemonHand.bytes]
    rw [hbytes] at h
    have hpassed := Delivers.pass hreach h
    rw [Forwarded, downward, List.flatMap_append, List.flatMap_singleton, ← List.append_assoc]
    exact hpassed.under id List.prefix_rfl fun _ h => h.under (fun hnot => absurd hnot hreach)
      List.prefix_rfl fun _ h => h
  | daemonBlocks part hhand =>
    have hpresent := hbusy (by simp [hhand])
    refine h.under id List.prefix_rfl fun _ h => Delivers.lose ?_ h.isPrefix
    simp [MayReach, hpresent]
  | daemonDrops hhand =>
    have hpresent := hbusy (by simp [hhand])
    refine h.under id List.prefix_rfl fun _ h => Delivers.lose ?_ h.isPrefix
    simp [MayReach, hpresent]
  | daemonReports fits hhand =>
    rw [hhand] at h
    refine h.under id List.prefix_rfl fun _ h => h.under ?_ List.prefix_rfl fun _ h => h
    simp [MayReach, hhand]
  | daemonLeaves fits hlocals =>
    have hbytes : (l.fromDevice ++ notice fits).flatMap Part.bytes = l.fromDevice.flatMap Part.bytes := by
      cases fits <;> simp [notice, Part.bytes]
    rw [Forwarded, downward, hbytes]
    refine h.under id List.prefix_rfl fun _ h => h.under ?_ List.prefix_rfl fun _ h => h
    simp only [MayReach]
    tauto

theorem bridge (h : Forwarded l) (hstep : BridgeStep l l') : Forwarded l' := by
  cases hstep
  case bridgeReports fits hhand =>
    refine h.weaken rfl List.prefix_rfl rfl rfl rfl rfl ?_ id id id id (.inl rfl)
    cases fits <;> simp [notice, Down.bytes, Part.bytes]
  all_goals exact h

theorem route (h : Forwarded l) (hstep : RouteStep orderly l l') : Forwarded l' := by
  cases hstep with
  | attaches opening hdevice =>
    have hnone : l.sent = [] := by simp [sent, hdevice]
    exact h.weaken rfl (by simp [hnone]) rfl rfl rfl rfl rfl id id id
      (by simp [Device.Ended, hdevice]) (.inl (by simp [sent, hdevice]))
  | _ => exact h

theorem step (hframed : Framed l) (h : Forwarded l) (hstep : Step orderly l l') : Forwarded l' :=
  hstep.elim (device hframed h) h.proxy h.socket (daemon hframed h) h.bridge h.route

end Forwarded

/-! ### Both sockets -/

/-- Nothing gets past what was lost. -/
structure Inv (l : Line) : Prop extends Framed l where
  delivered : Delivered l
  forwarded : Forwarded l

theorem Inv.step (h : Inv l) (hstep : Step orderly l l') : Inv l' where
  toFramed := h.toFramed.step hstep
  delivered := Delivered.step h.toFramed h.delivered hstep
  forwarded := Forwarded.step h.toFramed h.forwarded hstep

theorem Inv.deviceWritten_prefix_localRead (h : Inv l) : l.deviceWritten <+: l.localRead :=
  h.delivered.isPrefix

theorem Inv.localWritten_prefix_sent (h : Inv l) :
    l.localWritten <+: l.opening ++ l.deviceRead := by
  refine h.forwarded.isPrefix.trans ?_
  rw [sent]
  split
  · exact List.nil_prefix
  · exact List.nil_prefix
  · exact List.prefix_rfl

/-! ### The end of a connection -/

/-- The head is still on its way. -/
def Opens (l : Line) : Prop := ∃ opening, .head opening ∈ l.pipe

/-- Somebody is there for the device, or will be, or its end is on the way. -/
def Answered (l : Line) : Prop :=
  l.severed = true ∨ l.Opens ∨ (∃ first, l.proxy = .connecting first ∨ l.proxy = .forwarding first) ∨
    l.proxy = .relaying ∨ l.proxy = .reporting ∨ l.Ending

/-- A device in the table is one of the registered connector's or is turned away, and does not wait in
vain. -/
structure Attended (l : Line) : Prop where
  registered : l.inTable = true →
    l.registered = true ∨ l.bridgeWriter = false ∧ l.device ≠ .relaying
  answered : l.inTable = true → Answered l

namespace Attended

theorem device (h : Attended l) (hstep : DeviceStep l l') : Attended l' := by
  have hopens : l.Opens → l'.Opens := by
    rintro ⟨opening, hmem⟩
    refine ⟨opening, ?_⟩
    rcases hstep.pipe_cases with hpipe | ⟨-, -, hpipe⟩ | ⟨-, -, parts, hpipe⟩
    all_goals simp [hpipe, hmem]
  have hregistered := h.registered
  constructor
  case registered => cases hstep <;> simp_all
  case answered =>
    intro htable
    have hanswered := h.answered
    cases hstep
    case opens =>
      cases hsevered : l.severed
      · exact .inr (.inl ⟨l.opening, by simp [pipe]⟩)
      · exact .inl rfl
    all_goals grind -ring -linarith [Answered, Ending]

theorem proxy (h : Attended l) (hstep : ProxyStep True l l') : Attended l' := by
  have hopens : l.Opens → l'.Opens := by simp [Opens, hstep.pipe_eq]
  have hanswered := h.answered
  have hregistered := h.registered
  cases hstep
  all_goals refine ⟨hregistered, fun htable => ?_⟩
  all_goals grind -ring -linarith [Answered, Ending, notice]

theorem socket (h : Attended l) (hstep : SocketStep l l') : Attended l' := by
  have hopens : l.Opens → l'.severed = true ∨ l'.Opens := by
    rintro ⟨opening, hmem⟩
    rcases hstep.pipe_cases with ⟨hpipe, -⟩ | ⟨-, hsevered⟩
    · exact .inr ⟨opening, by rwa [hpipe]⟩
    · exact .inl hsevered
  have hanswered := h.answered
  cases hstep with
  | loses toHost down outgoing up bridgeWriter _ _ _ _ hwriter =>
    refine ⟨fun htable => (h.registered htable).imp_right fun hturned => ⟨?_, hturned.2⟩,
      fun _ => .inl rfl⟩
    rw [← Bool.not_eq_true]
    exact fun hstays => Bool.false_ne_true (hturned.1.symm.trans (hwriter hstays))
  | _ =>
    refine ⟨h.registered, fun htable => ?_⟩
    grind -ring -linarith [Answered, Ending]

theorem daemon (h : Attended l) (hstep : DaemonStep l l') : Attended l' := by
  have hopens : l.Opens → l'.Opens ∨ ∃ first, l'.proxy = .connecting first := by
    rintro ⟨opening, hmem⟩
    rcases hstep.pipe_cases with ⟨hpipe, -⟩ | ⟨first, -, hproxy⟩ | ⟨part, hpipe, -⟩
    · exact .inl ⟨opening, by rw [hpipe]; exact hmem⟩
    · exact .inr ⟨first, hproxy⟩
    · rw [hpipe] at hmem
      exact .inl ⟨opening, by simpa using hmem⟩
  have hanswered := h.answered
  cases hstep
  all_goals refine ⟨h.registered, fun htable => ?_⟩
  all_goals grind -ring -linarith [Answered, Ending]

theorem bridge (h : Attended l) (hstep : BridgeStep l l') : Attended l' := by
  have hopens : l.Opens → l'.Opens := by
    rintro ⟨opening, hmem⟩
    refine ⟨opening, ?_⟩
    rcases hstep.pipe_cases with hpipe | ⟨-, parts, hpipe⟩
    all_goals simp [hpipe, hmem]
  have hanswered := h.answered
  have hregistered := h.registered
  cases hstep
  all_goals constructor
  all_goals grind -ring -linarith [Answered, Ending, BridgeHand.Ends]

theorem route (h : Attended l) (hstep : RouteStep True l l') : Attended l' := by
  obtain ⟨hregistered, hanswered⟩ := h
  cases hstep with
  | registers => exact ⟨fun _ => .inl rfl, hanswered⟩
  | attaches opening hdevice horderly =>
    exact ⟨fun _ => (horderly trivial).imp_right fun hwriter => ⟨hwriter, by simp⟩,
      fun _ => .inr (.inr (.inr (.inr (.inr (.inl (by simp))))))⟩
  | unregisters => exact ⟨fun h => absurd h.symm (by simp), fun h => absurd h.symm (by simp)⟩

theorem step (h : Attended l) (hstep : Step True l l') : Attended l' :=
  hstep.elim h.device h.proxy h.socket h.daemon h.bridge h.route

end Attended

end Step

end Line

end Bridge

end SuperHerdr
