import SuperHerdr.Bridge.Tunnel

/-!
# The lines of a tunnel

A session's packets are those of many connections. `Session.line` is what there is of one of them, and
`Session.step_takes` says that a step of the session is a step of this line or does not concern it.
-/

namespace SuperHerdr

namespace Bridge

open Http

/-! ### What concerns one connection -/

/-- What a packet brings the daemon for a connection. -/
def Packet.down (c : UInt64) (packet : Packet) : Option Down :=
  if packet.connection = c then
    if packet.kind = OPEN then some (.head packet.payload)
    else if packet.kind = DEVICE_DATA then some (.part (.data packet.payload))
    else if packet.kind = DEVICE_CLOSED then some (.part .closed)
    else none
  else none

/-- What a packet brings the bridge for a connection. -/
def Packet.up (c : UInt64) (packet : Packet) : Option Part :=
  if packet.connection = c then
    if packet.kind = HOST_DATA then some (.data packet.payload)
    else if packet.kind = HOST_CLOSED then some .closed
    else none
  else none

def BridgeReader.hand (reader : BridgeReader) (c : UInt64) : BridgeHand :=
  match reader with
  | .found d part => if d = c then .found part else .idle
  | .sending d part => if d = c then .sending part else .idle
  | .blocked d => if d = c then .blocked else .idle
  | .dropping d => if d = c then .dropping else .idle
  | .reporting d => if d = c then .reporting else .idle
  | .reading | .leaving | .left => .idle

def DaemonReader.hand (reader : DaemonReader) (c : UInt64) : DaemonHand :=
  match reader with
  | .sending d part => if d = c then .sending part else .idle
  | .blocked d => if d = c then .blocked else .idle
  | .reporting d => if d = c then .reporting else .idle
  | .reading | .leaving | .left => .idle

theorem length_rewriteRequestTarget {head rewritten : List UInt8} {localTarget : String}
    (h : rewriteRequestTarget head localTarget = some rewritten) :
    rewritten.length ≤ MAX_TUNNEL_CHUNK_BYTES := by
  simp only [rewriteRequestTarget, Option.bind_eq_bind, Option.bind_eq_some_iff] at h
  obtain ⟨text, -, ⟨first, rest⟩, -, h⟩ := h
  split at h
  · split at h
    · simp at h
    · dsimp only at h
      split at h
      · next hlength =>
        rw [← Option.some.inj h]
        exact hlength.trans (by decide)
      · simp at h
  · simp at h

/-- What opens a connection: a request with its head rewritten, with the body that is paired with. -/
def Purpose.Opens (purpose : Purpose) (opening : List UInt8) : Prop :=
  ∃ head localTarget rewritten, rewriteRequestTarget head localTarget = some rewritten ∧
    match purpose with
    | .terminal => opening = rewritten
    | .pairing => ∃ body, body.length ≤ MAX_PAIR_BODY_BYTES ∧ opening = rewritten ++ body

theorem Purpose.Opens.length_le {purpose : Purpose} {opening : List UInt8} (h : purpose.Opens opening)
    (hterminal : purpose = .terminal) : opening.length ≤ MAX_TUNNEL_CHUNK_BYTES := by
  subst hterminal
  obtain ⟨head, localTarget, rewritten, hrewritten, rfl⟩ := h
  exact length_rewriteRequestTarget hrewritten

namespace Session

/-- One connection of a session. -/
def line (self : Session) (table : List ℕ) (registered : Bool) (c : UInt64) : Line where
  opening := (self.connections c).opening.getD []
  device := (self.connections c).device
  fromHost := (self.connections c).fromHost
  deviceRead := (self.connections c).deviceRead
  deviceWritten := (self.connections c).deviceWritten
  toHost := self.toHost.filterMap (Packet.down c)
  down := self.down.filterMap (Packet.down c)
  daemonHand := self.daemonReader.hand c
  inLocals := self.locals.contains c
  fromDevice := (self.connections c).fromDevice
  proxy := (self.connections c).proxy
  localRead := (self.connections c).localRead
  localWritten := (self.connections c).localWritten
  outgoing := self.outgoing.filterMap (Packet.up c)
  up := self.up.filterMap (Packet.up c)
  bridgeHand := self.bridgeReader.hand c
  inTable := table.contains c.toNat
  registered := registered
  bridgeWriter := self.bridgeWriter
  severed := self.severed

/-- No packet is longer than its reader allows. -/
structure Sized (session : Session) : Prop where
  toHost : ∀ packet ∈ session.toHost, packet.payload.length ≤ MAX_TUNNEL_CHUNK_BYTES
  down : ∀ packet ∈ session.down, packet.payload.length ≤ MAX_TUNNEL_CHUNK_BYTES
  outgoing : ∀ packet ∈ session.outgoing, packet.payload.length ≤ MAX_TUNNEL_CHUNK_BYTES
  up : ∀ packet ∈ session.up, packet.payload.length ≤ MAX_TUNNEL_CHUNK_BYTES
  opening : ∀ c, ∀ opening ∈ (session.connections c).opening,
    (session.connections c).purpose.Opens opening

/-- A task that writes the WebSocket is there until that is lost, and one that reads it, too. -/
structure Connected (session : Session) : Prop where
  bridgeWriter : session.bridgeWriter = false → session.severed = true
  daemonWriter : session.daemonWriter = false → session.severed = true
  bridgeReader : session.bridgeReader = .leaving ∨ session.bridgeReader = .left → session.severed = true
  daemonReader : session.daemonReader = .leaving ∨ session.daemonReader = .left → session.severed = true

section Lines

variable {orderly : Prop} {self sent session : Session} {table table' : List ℕ} {registered : Bool}
  {c d : UInt64}

theorem trySend_eq_some {α : Type*} {receives : Prop} [Decidable receives] {queue sent : List α}
    {item : α} (h : trySend receives queue item = some sent) :
    receives ∧ sent = queue ++ [item] := by
  rw [trySend] at h
  split at h
  · next hfits => exact ⟨hfits.1, (Option.some.inj h).symm⟩
  · simp at h

variable {packet : Packet}

theorem sendHost_eq_some (h : self.sendHost packet = some sent) :
    self.bridgeWriter = true ∧ sent = { self with toHost := self.toHost ++ [packet] } := by
  obtain ⟨toHost, hsend, rfl⟩ := Option.map_eq_some_iff.mp h
  obtain ⟨hwriter, rfl⟩ := trySend_eq_some hsend
  exact ⟨hwriter, rfl⟩

theorem sendBridge_eq_some (h : self.sendBridge packet = some sent) :
    sent = { self with outgoing := self.outgoing ++ [packet] } := by
  obtain ⟨outgoing, hsend, rfl⟩ := Option.map_eq_some_iff.mp h
  rw [(trySend_eq_some hsend).2]

theorem sendHost_getD (packet : Packet) : ∃ fits : Bool, (self.sendHost packet).getD self =
    { self with toHost := self.toHost ++ if fits then [packet] else [] } := by
  cases hsend : self.sendHost packet with
  | none => exact ⟨false, by simp⟩
  | some sent => exact ⟨true, by simp [(sendHost_eq_some hsend).2]⟩

theorem sendBridge_getD (packet : Packet) : ∃ fits : Bool,
    (fits = true ∨ self.daemonWriter = false ∨ PACKET_QUEUE_DEPTH ≤ self.outgoing.length) ∧
      (self.sendBridge packet).getD self =
        { self with outgoing := self.outgoing ++ if fits then [packet] else [] } := by
  cases hsend : self.sendBridge packet with
  | some sent => exact ⟨true, .inl rfl, by simp [sendBridge_eq_some hsend]⟩
  | none =>
    refine ⟨false, .inr ?_, by simp⟩
    rw [sendBridge, Option.map_eq_none_iff, trySend] at hsend
    split at hsend
    · simp at hsend
    · next hfull =>
      rw [not_and_or, not_lt] at hfull
      exact hfull.imp_left Bool.eq_false_of_not_eq_true

variable (payload : List UInt8)

@[simp] theorem down_open : Packet.down c ⟨OPEN, c, payload⟩ = some (.head payload) := by
  simp [Packet.down]

@[simp] theorem down_deviceData :
    Packet.down c ⟨DEVICE_DATA, c, payload⟩ = some (.part (.data payload)) := by
  simp [Packet.down, OPEN, DEVICE_DATA]

@[simp] theorem down_deviceClosed :
    Packet.down c ⟨DEVICE_CLOSED, c, payload⟩ = some (.part .closed) := by
  simp [Packet.down, OPEN, DEVICE_DATA, DEVICE_CLOSED]

@[simp] theorem up_hostData : Packet.up c ⟨HOST_DATA, c, payload⟩ = some (.data payload) := by
  simp [Packet.up]

@[simp] theorem up_hostClosed : Packet.up c ⟨HOST_CLOSED, c, payload⟩ = some .closed := by
  simp [Packet.up, HOST_DATA, HOST_CLOSED]

theorem down_of_ne (hne : packet.connection ≠ c) : packet.down c = none :=
  if_neg hne

theorem up_of_ne (hne : packet.connection ≠ c) : packet.up c = none :=
  if_neg hne

/-! ### The tasks of one connection -/

/-- A step that one line takes and no other. -/
structure StepAt (R : Line → Line → Prop) (registered : Bool) (d : UInt64) (session : Session)
    (table : List ℕ) (session' : Session) (table' : List ℕ) : Prop where
  own : R (session.line table registered d) (session'.line table' registered d)
  others : ∀ c ≠ d, session'.line table' registered c = session.line table registered c

/-- What stays as it should be. -/
structure Keeps (session session' : Session) : Prop where
  sized : session.Sized → session'.Sized
  connected : session.Connected → session'.Connected
  route : session'.route = session.route
  left : session'.bridgeReader = .left → session.bridgeReader = .left

structure TaskAt (R : Line → Line → Prop) (registered : Bool) (d : UInt64) (session : Session)
    (table : List ℕ) (session' : Session) (table' : List ℕ) : Prop
    extends StepAt R registered d session table session' table', Keeps session session'

/-- A connection is changed, and packets are queued for it. -/
def put (self : Session) (d : UInt64) (held : Connection) (toHost outgoing : List Packet) : Session :=
  { self with toHost := self.toHost ++ toHost, outgoing := self.outgoing ++ outgoing }.setConnection d held

theorem put_nil (held : Connection) : self.put d held [] [] = self.setConnection d held := by
  simp [put]

theorem setConnection_sendHost (h : self.sendHost packet = some sent)
    (held : Connection) : sent.setConnection d held = self.put d held [packet] [] := by
  simp [put, (sendHost_eq_some h).2]

theorem setConnection_sendBridge (h : self.sendBridge packet = some sent)
    (held : Connection) : sent.setConnection d held = self.put d held [] [packet] := by
  simp [put, sendBridge_eq_some h]

variable {held : Connection} {R : Line → Line → Prop}

/-- What there is of a connection that is held so, with all that is queued elsewhere left. -/
def holding (l : Line) (held : Connection) : Line :=
  { l with
    opening := held.opening.getD []
    device := held.device
    fromHost := held.fromHost
    deviceRead := held.deviceRead
    deviceWritten := held.deviceWritten
    fromDevice := held.fromDevice
    proxy := held.proxy
    localRead := held.localRead
    localWritten := held.localWritten }

theorem TaskAt.put {toHost outgoing : List Packet}
    (htoHost : ∀ packet ∈ toHost, packet.connection = d)
    (houtgoing : ∀ packet ∈ outgoing, packet.connection = d)
    (hsized : self.Sized → ∀ packet ∈ toHost ++ outgoing,
      packet.payload.length ≤ MAX_TUNNEL_CHUNK_BYTES)
    (htable : ∀ c : UInt64, c ≠ d → (c.toNat ∈ table' ↔ c.toNat ∈ table))
    (h : R (self.line table registered d)
      { holding (self.line table registered d) held with
        toHost := (self.line table registered d).toHost ++ toHost.filterMap (Packet.down d)
        outgoing := (self.line table registered d).outgoing ++ outgoing.filterMap (Packet.up d)
        inTable := table'.contains d.toNat })
    (hpurpose : held.purpose = (self.connections d).purpose := by rfl)
    (hopening : held.opening = (self.connections d).opening := by rfl) :
    TaskAt R registered d self table (self.put d held toHost outgoing) table' where
  own := by
    simp only [line, holding, Session.put, setConnection, Function.update_self,
      List.filterMap_append] at h ⊢
    exact h
  others c hne := by
    have hdown : toHost.filterMap (Packet.down c) = [] :=
      List.filterMap_eq_nil_iff.mpr fun packet hpacket =>
        down_of_ne (by rw [htoHost packet hpacket]; exact hne.symm)
    have hup : outgoing.filterMap (Packet.up c) = [] :=
      List.filterMap_eq_nil_iff.mpr fun packet hpacket =>
        up_of_ne (by rw [houtgoing packet hpacket]; exact hne.symm)
    simp only [line, Session.put, setConnection, Function.update_of_ne hne, List.filterMap_append, hdown,
      hup, List.append_nil, List.contains_eq_mem, htable c hne]
  sized hself := by
    refine ⟨?_, hself.down, ?_, hself.up, ?_⟩
    · intro packet hpacket
      rcases List.mem_append.mp hpacket with hpacket | hpacket
      · exact hself.toHost packet hpacket
      · exact hsized hself packet (List.mem_append_left _ hpacket)
    · intro packet hpacket
      rcases List.mem_append.mp hpacket with hpacket | hpacket
      · exact hself.outgoing packet hpacket
      · exact hsized hself packet (List.mem_append_right _ hpacket)
    · intro c
      rw [Session.put, setConnection]
      by_cases hc : c = d
      · subst hc
        simpa only [Function.update_self, hpurpose, hopening] using hself.opening c
      · simpa only [Function.update_of_ne hc] using hself.opening c
  connected h := ⟨h.bridgeWriter, h.daemonWriter, h.bridgeReader, h.daemonReader⟩
  route := rfl
  left := id

theorem TaskAt.set
    (h : R (self.line table registered d) (holding (self.line table registered d) held))
    (hpurpose : held.purpose = (self.connections d).purpose := by rfl)
    (hopening : held.opening = (self.connections d).opening := by rfl) :
    TaskAt R registered d self table (self.setConnection d held) table := by
  rw [← put_nil]
  refine .put (by simp) (by simp) (by simp) (by simp) ?_ hpurpose hopening
  simp only [List.filterMap_nil, List.append_nil]
  exact h

/-- The daemon is told that the connection is closed, if that fits. -/
theorem TaskAt.tellsHost (h : ∀ fits, R (self.line table registered d)
      { holding (self.line table registered d) held with
        toHost := (self.line table registered d).toHost ++ (Line.notice fits).map .part })
    (hpurpose : held.purpose = (self.connections d).purpose := by rfl)
    (hopening : held.opening = (self.connections d).opening := by rfl) :
    TaskAt R registered d self table
      (((self.sendHost ⟨DEVICE_CLOSED, d, []⟩).getD self).setConnection d held) table := by
  obtain ⟨fits, hsent⟩ := self.sendHost_getD ⟨DEVICE_CLOSED, d, []⟩
  have hput : ((self.sendHost ⟨DEVICE_CLOSED, d, []⟩).getD self).setConnection d held =
      self.put d held (if fits then [⟨DEVICE_CLOSED, d, []⟩] else []) [] := by
    simp [Session.put, hsent]
  have hdown : (if fits then [⟨DEVICE_CLOSED, d, []⟩] else []).filterMap (Packet.down d) =
      (Line.notice fits).map .part := by
    cases fits <;> simp [Line.notice]
  rw [hput]
  refine .put (by simp) (by simp) (by simp) (by simp) ?_ hpurpose hopening
  simp only [hdown, List.filterMap_nil, List.append_nil]
  exact h fits

/-- The bridge is told, if that fits. -/
theorem TaskAt.tellsBridge (h : ∀ fits : Bool,
      (fits = true ∨ self.daemonWriter = false ∨ PACKET_QUEUE_DEPTH ≤ self.outgoing.length) →
      R (self.line table registered d)
        { holding (self.line table registered d) held with
          outgoing := (self.line table registered d).outgoing ++ Line.notice fits })
    (hpurpose : held.purpose = (self.connections d).purpose := by rfl)
    (hopening : held.opening = (self.connections d).opening := by rfl) :
    TaskAt R registered d self table
      (((self.sendBridge ⟨HOST_CLOSED, d, []⟩).getD self).setConnection d held) table := by
  obtain ⟨fits, hfits, hsent⟩ := self.sendBridge_getD ⟨HOST_CLOSED, d, []⟩
  have hput : ((self.sendBridge ⟨HOST_CLOSED, d, []⟩).getD self).setConnection d held =
      self.put d held [] (if fits then [⟨HOST_CLOSED, d, []⟩] else []) := by
    simp [Session.put, hsent]
  have hup : (if fits then [⟨HOST_CLOSED, d, []⟩] else []).filterMap (Packet.up d) =
      Line.notice fits := by
    cases fits <;> simp [Line.notice]
  rw [hput]
  refine .put (by simp) (by simp) (by simp) (by simp) ?_ hpurpose hopening
  simp only [hup, List.filterMap_nil, List.append_nil]
  exact h fits hfits

theorem handlePublicConnection_step {failure : Option ℕ}
    (hstep : self.handlePublicConnection table d failure = some (session, table')) :
    TaskAt Line.DeviceStep registered d self table session table' := by
  rw [handlePublicConnection] at hstep
  split at hstep
  · next hdevice =>
    split at hstep
    · obtain ⟨rfl, rfl⟩ := Prod.mk.inj (Option.some.inj hstep)
      exact .set (.refuses _ hdevice)
    next opening hopening =>
    split at hstep
    · obtain ⟨rfl, rfl⟩ := Prod.mk.inj (Option.some.inj hstep)
      exact .set (.refuses _ hdevice)
    next hlong =>
    split at hstep
    · next sent hsend =>
      obtain ⟨rfl, rfl⟩ := Prod.mk.inj (Option.some.inj hstep)
      rw [setConnection_sendHost hsend]
      refine .put (by simp) (by simp) (fun hsized => ?_) (by simp) ?_
      · cases hpurpose : (self.connections d).purpose with
        | terminal => simpa using (hsized.opening d opening hopening).length_le hpurpose
        | pairing => simpa [hpurpose] using hlong
      have hopen : opening = (self.line table registered d).opening := by simp [line, hopening]
      simp only [List.filterMap_cons, down_open, List.filterMap_nil, List.append_nil]
      rw [hopen]
      exact .opens _ hdevice (sendHost_eq_some hsend).1
    · obtain ⟨rfl, rfl⟩ := Prod.mk.inj (Option.some.inj hstep)
      exact .set (.refuses _ hdevice)
  · next hdevice =>
    split at hstep
    · next payload fromHost hqueue =>
      dsimp only at hstep
      split at hstep
      · split at hstep
        all_goals
          obtain ⟨rfl, rfl⟩ := Prod.mk.inj (Option.some.inj hstep)
        · have hwritten := List.nil_prefix (l := payload)
          have hline := Line.DeviceStep.receivesLast (self.line table registered d)
            payload [] fromHost hdevice hqueue hwritten
          rw [List.append_nil] at hline
          exact .set hline
        · exact .set (.receives _ payload fromHost hdevice hqueue)
      split at hstep
      all_goals
        obtain ⟨rfl, rfl⟩ := Prod.mk.inj (Option.some.inj hstep)
      · exact .set (.receives _ payload fromHost hdevice hqueue)
      · exact .set (.receivesLast _ payload _ fromHost hdevice hqueue (List.take_prefix _ _))
    · next fromHost hqueue =>
      obtain ⟨rfl, rfl⟩ := Prod.mk.inj (Option.some.inj hstep)
      exact .set (.isClosed _ fromHost hdevice hqueue)
    · next hqueue =>
      split at hstep
      · simp at hstep
      next hleft =>
      obtain ⟨rfl, rfl⟩ := Prod.mk.inj (Option.some.inj hstep)
      rw [not_or] at hleft
      exact .set (.isLeft _ hdevice hqueue (by simp [line, hleft.1]))
  · next hdevice =>
    obtain ⟨rfl, rfl⟩ := Prod.mk.inj (Option.some.inj hstep)
    exact .tellsHost fun fits => .closes _ fits hdevice
  · next hdevice =>
    obtain ⟨rfl, rfl⟩ := Prod.mk.inj (Option.some.inj hstep)
    rw [← put_nil]
    refine .put (by simp) (by simp) (by simp) (fun c hne => by simp [UInt64.toNat_inj, hne]) ?_
    have hgone : (table.filter (· ≠ d.toNat)).contains d.toNat = false := by simp
    simp only [List.filterMap_nil, List.append_nil, hgone]
    exact .leaves _ hdevice
  all_goals simp at hstep

theorem deviceReads_step {bytes : List UInt8} (hstep : self.deviceReads d bytes = some session) :
    TaskAt Line.DeviceStep registered d self table session table := by
  rw [deviceReads] at hstep
  dsimp only at hstep
  split at hstep
  · next hdevice =>
    split at hstep
    all_goals obtain rfl := Option.some.inj hstep
    · next sent hsend =>
      rw [setConnection_sendHost hsend]
      refine .put (by simp) (by simp) (fun _ => by simpa using hdevice.2.2.2) (by simp) ?_
      simp only [List.filterMap_cons, down_deviceData, List.filterMap_nil, List.append_nil]
      exact .reads _ bytes hdevice.1
    · exact .set (.readsLast _ bytes hdevice.1)
  · simp at hstep

theorem deviceEnds_step (hstep : self.deviceEnds d = some session) :
    TaskAt Line.DeviceStep registered d self table session table := by
  rw [deviceEnds] at hstep
  dsimp only at hstep
  split at hstep
  · next hdevice =>
    obtain rfl := Option.some.inj hstep
    split
    · exact .tellsHost fun fits => .ends _ fits hdevice
    · have hline := Line.DeviceStep.ends (self.line table registered d) false hdevice
      simp only [Line.notice, Bool.false_eq_true, if_false, List.map_nil, List.append_nil] at hline
      exact .set hline
  · simp at hstep

theorem proxyToLocal_step {failure : Option ℕ} (hconnected : self.Connected)
    (horderly : orderly → (self.connections d).proxy = .reporting → self.daemonWriter = true →
      (self.line table registered d).Ending ∨ self.outgoing.length < PACKET_QUEUE_DEPTH)
    (hstep : self.proxyToLocal d failure = some session) :
    TaskAt (Line.ProxyStep orderly) registered d self table session table := by
  rw [proxyToLocal] at hstep
  split at hstep
  · next first hproxy =>
    split at hstep
    all_goals obtain rfl := Option.some.inj hstep
    · exact .set (.connects _ first hproxy)
    · exact .set (.unreachable _ first hproxy)
  · next first hproxy =>
    split at hstep
    all_goals obtain rfl := Option.some.inj hstep
    · exact .set (.forwards _ first hproxy)
    · exact .set (.forwardsLast _ first _ hproxy (List.take_prefix _ _))
  · next hproxy =>
    split at hstep
    · next payload fromDevice hqueue =>
      split at hstep
      all_goals obtain rfl := Option.some.inj hstep
      · exact .set (.proxyReceives _ payload fromDevice hproxy hqueue)
      · exact .set (.proxyReceivesLast _ payload _ fromDevice hproxy hqueue (List.take_prefix _ _))
    · next fromDevice hqueue =>
      obtain rfl := Option.some.inj hstep
      exact .set (.proxyIsClosed _ fromDevice hproxy hqueue)
    · next hqueue =>
      split at hstep
      · simp at hstep
      obtain rfl := Option.some.inj hstep
      exact .set (.proxyIsLeft _ hproxy hqueue)
  · next hproxy =>
    obtain rfl := Option.some.inj hstep
    refine .tellsBridge fun fits hfits => .reports _ fits hproxy fun h => ?_
    refine hfits.imp_right fun hunsent => ?_
    cases hwriter : self.daemonWriter with
    | false => exact .inl (hconnected.daemonWriter hwriter)
    | true =>
      rw [hwriter] at hunsent
      have hfull := hunsent.resolve_left nofun
      exact .inr ((horderly h hproxy hwriter).resolve_right hfull.not_gt)
  · next hproxy =>
    obtain rfl := Option.some.inj hstep
    refine ⟨⟨?_, ?_⟩, ⟨?_, ?_, rfl, id⟩⟩
    · have hline : ({ self with locals := self.locals.filter (· ≠ d) }.setConnection d
          { self.connections d with proxy := .gone }).line table registered d =
          { self.line table registered d with proxy := .gone, inLocals := false } := by
        simp [line, setConnection]
      rw [hline]
      exact .proxyLeaves _ hproxy
    · intro c hne
      simp [line, setConnection, hne]
    · intro h
      refine ⟨h.toHost, h.down, h.outgoing, h.up, fun c => ?_⟩
      by_cases hc : c = d
      · subst hc
        simpa [setConnection] using h.opening c
      · simpa [setConnection, hc] using h.opening c
    · exact fun h => ⟨h.bridgeWriter, h.daemonWriter, h.bridgeReader, h.daemonReader⟩
  all_goals simp at hstep

theorem localReads_step {bytes : List UInt8} (hstep : self.localReads d bytes = some session) :
    TaskAt (Line.ProxyStep orderly) registered d self table session table := by
  rw [localReads] at hstep
  dsimp only at hstep
  split at hstep
  · next hproxy =>
    split at hstep
    all_goals obtain rfl := Option.some.inj hstep
    · next sent hsend =>
      rw [setConnection_sendBridge hsend]
      refine .put (by simp) (by simp) (fun _ => by simpa using hproxy.2.2) (by simp) ?_
      simp only [List.filterMap_cons, up_hostData, List.filterMap_nil, List.append_nil]
      exact .localReads _ bytes hproxy.1
    · exact .set (.localReadsLast _ bytes hproxy.1)
  · simp at hstep

theorem localEnds_step (hstep : self.localEnds d = some session) :
    TaskAt (Line.ProxyStep orderly) registered d self table session table := by
  rw [localEnds] at hstep
  split at hstep
  · next hproxy =>
    obtain rfl := Option.some.inj hstep
    exact .set (.localEnds _ hproxy)
  · simp at hstep

/-! ### What stays as it should be -/

theorem Sized.of_queues (h : self.Sized)
    (htoHost : ∀ packet ∈ session.toHost, packet ∈ self.toHost ∨ packet.payload = [])
    (hdown : ∀ packet ∈ session.down, packet ∈ self.down ∨ packet ∈ self.toHost)
    (houtgoing : ∀ packet ∈ session.outgoing, packet ∈ self.outgoing ∨ packet.payload = [])
    (hup : ∀ packet ∈ session.up, packet ∈ self.up ∨ packet ∈ self.outgoing ∨
      ∃ code : PublishedCode, packet.payload = code.bytes)
    (hconnections : ∀ c, (session.connections c).purpose = (self.connections c).purpose ∧
      (session.connections c).opening = (self.connections c).opening) : session.Sized where
  toHost packet hpacket := by
    rcases htoHost packet hpacket with hpacket | hnone
    · exact h.toHost packet hpacket
    · simp [hnone]
  down packet hpacket := by
    rcases hdown packet hpacket with hpacket | hpacket
    · exact h.down packet hpacket
    · exact h.toHost packet hpacket
  outgoing packet hpacket := by
    rcases houtgoing packet hpacket with hpacket | hnone
    · exact h.outgoing packet hpacket
    · simp [hnone]
  up packet hpacket := by
    rcases hup packet hpacket with hpacket | hpacket | ⟨code, hcode⟩
    · exact h.up packet hpacket
    · exact h.outgoing packet hpacket
    · rw [hcode]
      exact code.short.trans (by decide)
  opening c := by
    rw [(hconnections c).1, (hconnections c).2]
    exact h.opening c

theorem setConnection_keeps (hpurpose : held.purpose = (self.connections d).purpose)
    (hopening : held.opening = (self.connections d).opening) (c : UInt64) :
    ((self.setConnection d held).connections c).purpose = (self.connections c).purpose ∧
      ((self.setConnection d held).connections c).opening = (self.connections c).opening := by
  by_cases hc : c = d
  · subst hc
    simp [setConnection, hpurpose, hopening]
  · simp [setConnection, hc]

theorem Keeps.bridgeReader {reader : BridgeReader} (hreader : reader ≠ .leaving ∧ reader ≠ .left) :
    self.Keeps { self with bridgeReader := reader } :=
  ⟨fun h => ⟨h.toHost, h.down, h.outgoing, h.up, h.opening⟩,
    fun h => ⟨h.bridgeWriter, h.daemonWriter, by simp [hreader], h.daemonReader⟩, rfl,
    fun hleft => absurd hleft hreader.2⟩

theorem Keeps.daemonReader {reader : DaemonReader} (hreader : reader ≠ .leaving ∧ reader ≠ .left) :
    self.Keeps { self with daemonReader := reader } :=
  ⟨fun h => ⟨h.toHost, h.down, h.outgoing, h.up, h.opening⟩,
    fun h => ⟨h.bridgeWriter, h.daemonWriter, h.bridgeReader, by simp [hreader]⟩, rfl, id⟩

theorem Keeps.refl : self.Keeps self := ⟨id, id, rfl, id⟩

theorem Keeps.trans {self session next : Session} (h : self.Keeps session)
    (hnext : session.Keeps next) :
    self.Keeps next :=
  ⟨hnext.sized ∘ h.sized, hnext.connected ∘ h.connected, hnext.route.trans h.route, h.left ∘ hnext.left⟩

theorem Keeps.setConnection (hpurpose : held.purpose = (self.connections d).purpose)
    (hopening : held.opening = (self.connections d).opening) :
    self.Keeps (self.setConnection d held) :=
  ⟨fun h => h.of_queues (fun _ => .inl) (fun _ => .inl) (fun _ => .inl) (fun _ => .inl)
    (setConnection_keeps hpurpose hopening),
    fun h => ⟨h.bridgeWriter, h.daemonWriter, h.bridgeReader, h.daemonReader⟩, rfl, id⟩

theorem Keeps.sendHost (packet : Packet) (hnone : packet.payload = []) :
    self.Keeps ((self.sendHost packet).getD self) := by
  obtain ⟨fits, hsent⟩ := self.sendHost_getD packet
  rw [hsent]
  refine ⟨fun h => h.of_queues ?_ (fun _ => .inl) (fun _ => .inl) (fun _ => .inl) fun _ => ⟨rfl, rfl⟩,
    fun h => ⟨h.bridgeWriter, h.daemonWriter, h.bridgeReader, h.daemonReader⟩, rfl, id⟩
  intro other hother
  cases fits <;> grind

theorem Keeps.sendBridge (packet : Packet) (hnone : packet.payload = []) :
    self.Keeps ((self.sendBridge packet).getD self) := by
  obtain ⟨fits, -, hsent⟩ := self.sendBridge_getD packet
  rw [hsent]
  refine ⟨fun h => h.of_queues (fun _ => .inl) (fun _ => .inl) ?_ (fun _ => .inl) fun _ => ⟨rfl, rfl⟩,
    fun h => ⟨h.bridgeWriter, h.daemonWriter, h.bridgeReader, h.daemonReader⟩, rfl, id⟩
  intro other hother
  cases fits <;> grind

/-- A step of each line or of none. -/
structure Takes (R : Line → Line → Prop) (registered : Bool) (session : Session) (table : List ℕ)
    (session' : Session) (table' : List ℕ) : Prop extends Keeps session session' where
  line : ∀ c, Relation.ReflGen R (session.line table registered c) (session'.line table' registered c)

theorem StepAt.takes (h : StepAt R registered d self table session table')
    (hkeeps : self.Keeps session) :
    Takes R registered self table session table' where
  toKeeps := hkeeps
  line c := by
    by_cases hc : c = d
    · subst hc
      exact .single h.own
    · rw [h.others c hc]

theorem TaskAt.takes (h : TaskAt R registered d self table session table') :
    Takes R registered self table session table' :=
  h.toStepAt.takes h.toKeeps

theorem Takes.mono {R' : Line → Line → Prop} (h : Takes R registered self table session table')
    (hR : ∀ l l', R l l' → R' l l') : Takes R' registered self table session table' :=
  ⟨h.toKeeps, fun c => (h.line c).mono hR⟩

/-! ### The tasks of the WebSocket -/

theorem loses_step {toHost outgoing : List Packet} {bridgeWriter daemonWriter : Bool}
    (hsevered : self.severed = true) (htoHost : toHost <:+ self.toHost)
    (houtgoing : outgoing <:+ self.outgoing) (hwriter : bridgeWriter = true → self.bridgeWriter = true)
    (c : UInt64) :
    Line.SocketStep (self.line table registered c)
      ({ self with toHost, outgoing, bridgeWriter, daemonWriter }.line table registered c) := by
  have hline : Line.SocketStep (self.line table registered c) _ :=
    .loses _ _ _ _ _ bridgeWriter (htoHost.filterMap _) List.prefix_rfl (houtgoing.filterMap _)
      List.prefix_rfl hwriter
  rw [show true = (self.line table registered c).severed from hsevered.symm] at hline
  exact hline

variable {works : Bool}

/-- What the bridge's writer does: a packet goes out, unless the link is severed, or the writer is gone
with the link. -/
theorem bridgeWrites_cases (hstep : self.bridgeWrites works = some session) :
    (∃ packet toHost, self.toHost = packet :: toHost ∧ session =
      { self with toHost, down := if self.severed then self.down else self.down ++ [packet] }) ∨
      (self.severed = true ∧ session = { self with bridgeWriter := false, toHost := [] }) := by
  rw [bridgeWrites] at hstep
  split at hstep
  · simp at hstep
  split at hstep
  · split at hstep
    · simp at hstep
    · next packet toHost hqueue =>
      exact .inl ⟨packet, toHost, hqueue, (Option.some.inj hstep).symm⟩
  · split at hstep
    · next hsevered => exact .inr ⟨hsevered, (Option.some.inj hstep).symm⟩
    · simp at hstep

theorem daemonWrites_cases (hstep : self.daemonWrites works = some session) :
    (∃ packet outgoing, self.outgoing = packet :: outgoing ∧ session =
      { self with outgoing, up := if self.severed then self.up else self.up ++ [packet] }) ∨
      (self.severed = true ∧ session = { self with daemonWriter := false, outgoing := [] }) := by
  rw [daemonWrites] at hstep
  split at hstep
  · simp at hstep
  split at hstep
  · split at hstep
    · simp at hstep
    · next packet outgoing hqueue =>
      exact .inl ⟨packet, outgoing, hqueue, (Option.some.inj hstep).symm⟩
  · split at hstep
    · next hsevered => exact .inr ⟨hsevered, (Option.some.inj hstep).symm⟩
    · simp at hstep

theorem bridgeWrites_takes (hstep : self.bridgeWrites works = some session) :
    Takes Line.SocketStep registered self table session table where
  toKeeps := by
    rcases bridgeWrites_cases hstep with ⟨packet, toHost, hqueue, rfl⟩ | ⟨hsevered, rfl⟩
    · refine ⟨fun h => h.of_queues ?_ ?_ (fun _ => .inl) (fun _ => .inl) fun _ => ⟨rfl, rfl⟩,
        fun h => ⟨h.bridgeWriter, h.daemonWriter, h.bridgeReader, h.daemonReader⟩, rfl, id⟩
      · exact fun other hother => .inl (hqueue ▸ List.mem_cons_of_mem _ hother)
      · intro other hother
        dsimp only at hother
        split at hother
        · exact .inl hother
        · rcases List.mem_append.mp hother with hother | hother
          · exact .inl hother
          · exact .inr (hqueue ▸ List.mem_singleton.mp hother ▸ List.mem_cons_self)
    · exact ⟨fun h => h.of_queues (by simp) (fun _ => .inl) (fun _ => .inl) (fun _ => .inl)
        fun _ => ⟨rfl, rfl⟩,
        fun h => ⟨fun _ => hsevered, h.daemonWriter, h.bridgeReader, h.daemonReader⟩, rfl, id⟩
  line c := by
    rcases bridgeWrites_cases hstep with ⟨packet, toHost, hqueue, hsession⟩ | ⟨hsevered, rfl⟩
    · have hrest : toHost <:+ self.toHost := hqueue ▸ List.suffix_cons _ _
      by_cases hsevered : self.severed = true
      · rw [if_pos hsevered] at hsession
        rw [hsession]
        exact .single (loses_step hsevered hrest List.suffix_rfl id c)
      · rw [if_neg hsevered] at hsession
        cases hpacket : packet.down c with
        | none =>
          have hline : session.line table registered c = self.line table registered c := by
            simp [line, hsession, hqueue, hpacket]
          rw [hline]
        | some part =>
          have hline : session.line table registered c =
              { self.line table registered c with
                toHost := toHost.filterMap (Packet.down c)
                down := (self.line table registered c).down ++ [part] } := by
            simp [line, hsession, hpacket]
          rw [hline]
          refine .single (.carriesDown _ part _ ?_ (Bool.eq_false_of_not_eq_true hsevered))
          simp [line, hqueue, hpacket]
    · exact .single (loses_step hsevered List.nil_suffix List.suffix_rfl
        (fun h => absurd h.symm (by simp)) c)

theorem daemonWrites_takes (hstep : self.daemonWrites works = some session) :
    Takes Line.SocketStep registered self table session table where
  toKeeps := by
    rcases daemonWrites_cases hstep with ⟨packet, outgoing, hqueue, rfl⟩ | ⟨hsevered, rfl⟩
    · refine ⟨fun h => h.of_queues (fun _ => .inl) (fun _ => .inl) ?_ ?_ fun _ => ⟨rfl, rfl⟩,
        fun h => ⟨h.bridgeWriter, h.daemonWriter, h.bridgeReader, h.daemonReader⟩, rfl, id⟩
      · exact fun other hother => .inl (hqueue ▸ List.mem_cons_of_mem _ hother)
      · intro other hother
        dsimp only at hother
        split at hother
        · exact .inl hother
        · rcases List.mem_append.mp hother with hother | hother
          · exact .inl hother
          · exact .inr (.inl (hqueue ▸ List.mem_singleton.mp hother ▸ List.mem_cons_self))
    · exact ⟨fun h => h.of_queues (fun _ => .inl) (fun _ => .inl) (by simp) (fun _ => .inl)
        fun _ => ⟨rfl, rfl⟩,
        fun h => ⟨h.bridgeWriter, fun _ => hsevered, h.bridgeReader, h.daemonReader⟩, rfl, id⟩
  line c := by
    rcases daemonWrites_cases hstep with ⟨packet, outgoing, hqueue, hsession⟩ | ⟨hsevered, rfl⟩
    · have hrest : outgoing <:+ self.outgoing := hqueue ▸ List.suffix_cons _ _
      by_cases hsevered : self.severed = true
      · rw [if_pos hsevered] at hsession
        rw [hsession]
        exact .single (loses_step hsevered List.suffix_rfl hrest id c)
      · rw [if_neg hsevered] at hsession
        cases hpacket : packet.up c with
        | none =>
          have hline : session.line table registered c = self.line table registered c := by
            simp [line, hsession, hqueue, hpacket]
          rw [hline]
        | some part =>
          have hline : session.line table registered c =
              { self.line table registered c with
                outgoing := outgoing.filterMap (Packet.up c)
                up := (self.line table registered c).up ++ [part] } := by
            simp [line, hsession, hpacket]
          rw [hline]
          refine .single (.carriesUp _ part _ ?_ (Bool.eq_false_of_not_eq_true hsevered))
          simp [line, hqueue, hpacket]
    · exact .single (loses_step hsevered List.suffix_rfl List.nil_suffix id c)

theorem severs_takes (down up : ℕ) :
    Takes Line.SocketStep registered self table (self.severs down up) table where
  sized h := h.of_queues (fun _ => .inl) (fun _ hpacket => .inl (List.mem_of_mem_take hpacket))
    (fun _ => .inl) (fun _ hpacket => .inl (List.mem_of_mem_take hpacket)) fun _ => ⟨rfl, rfl⟩
  connected _ := ⟨fun _ => rfl, fun _ => rfl, fun _ => rfl, fun _ => rfl⟩
  route := rfl
  left := id
  line _ := .single (.loses _ _ _ _ _ _ List.suffix_rfl ((List.take_prefix _ _).filterMap _)
    List.suffix_rfl ((List.take_prefix _ _).filterMap _) id)

/-- A code is no connection's. -/
theorem publishes_takes {code : PublishedCode} (hstep : self.publishes code = some session) :
    Takes R registered self table session table := by
  have hcode (c : UInt64) : Packet.up c ⟨PAIRING_CODE, 0, code.bytes⟩ = none := by
    simp [Packet.up, PAIRING_CODE, HOST_DATA, HOST_CLOSED]
  rw [publishes] at hstep
  split at hstep
  · obtain rfl := Option.some.inj hstep
    refine ⟨⟨fun h => h.of_queues (fun _ => .inl) (fun _ => .inl) (fun _ => .inl) ?_ fun _ => ⟨rfl, rfl⟩,
      fun h => ⟨h.bridgeWriter, h.daemonWriter, h.bridgeReader, h.daemonReader⟩, rfl, id⟩, fun c => ?_⟩
    · intro packet hpacket
      dsimp only at hpacket
      split at hpacket
      · exact .inl hpacket
      · rcases List.mem_append.mp hpacket with hpacket | hpacket
        · exact .inl hpacket
        · exact .inr (.inr ⟨code, by rw [List.mem_singleton.mp hpacket]⟩)
    · cases hsevered : self.severed <;> simp [line, hsevered, hcode, Relation.ReflGen.refl]
  · simp at hstep

/-- The packet that the bridge's reader takes. -/
theorem takesUp_step {up : List Packet} {part : Part}
    (hreader : self.bridgeReader = .reading) (hup : self.up = packet :: up)
    (hpart : packet.up packet.connection = some part) :
    StepAt Line.BridgeStep registered packet.connection self table
      { self with up, bridgeReader := if registered then .found packet.connection part else .reading }
      table := by
  constructor
  · have hhand : (self.line table registered packet.connection).bridgeHand = .idle := by
      simp [line, hreader, BridgeReader.hand]
    have hline : (self.line table registered packet.connection).up =
        part :: up.filterMap (Packet.up packet.connection) := by
      simp [line, hup, hpart]
    cases registered with
    | true =>
      have hfinds := Line.BridgeStep.finds _ part _ hhand hline rfl
      simpa [line, BridgeReader.hand] using hfinds
    | false =>
      have hignores := Line.BridgeStep.ignores _ part _ hhand hline rfl
      simpa [line, hreader, BridgeReader.hand] using hignores
  · intro c hne
    cases registered <;> simp [line, hreader, hup, BridgeReader.hand, up_of_ne hne.symm, hne.symm]

theorem serveHostSocket_takes (hsized : self.Sized)
    (hstep : self.serveHostSocket table registered = some (session, table')) :
    Takes Line.BridgeStep registered self table session table' := by
  rw [serveHostSocket] at hstep
  split at hstep
  · next hreader =>
    split at hstep
    · split at hstep
      · next hsevered =>
        obtain ⟨rfl, rfl⟩ := Prod.mk.inj (Option.some.inj hstep)
        refine ⟨⟨fun h => ⟨h.toHost, h.down, h.outgoing, h.up, h.opening⟩,
          fun h => ⟨h.bridgeWriter, h.daemonWriter, fun _ => hsevered, h.daemonReader⟩, rfl, by simp⟩,
          fun c => ?_⟩
        have hline : { self with bridgeReader := .leaving }.line table registered c =
            self.line table registered c := by
          simp [line, hreader, BridgeReader.hand]
        rw [hline]
      · simp at hstep
    next packet up hup =>
    have htail : self.Keeps { self with up } :=
      ⟨fun h => h.of_queues (fun _ => .inl) (fun _ => .inl) (fun _ => .inl)
        (fun _ hother => .inl (hup ▸ List.mem_cons_of_mem _ hother)) fun _ => ⟨rfl, rfl⟩,
        fun h => ⟨h.bridgeWriter, h.daemonWriter, h.bridgeReader, h.daemonReader⟩, rfl, id⟩
    have hpacket := hsized.up packet (hup ▸ List.mem_cons_self)
    rw [Packet.decode_encode hpacket] at hstep
    dsimp only at hstep
    split at hstep
    · next hkind =>
      obtain ⟨rfl, rfl⟩ := Prod.mk.inj (Option.some.inj hstep)
      exact (takesUp_step hreader hup (by simp [Packet.up, hkind])).takes
        (htail.trans (.bridgeReader (by split <;> simp)))
    split at hstep
    · next hkind =>
      obtain ⟨rfl, rfl⟩ := Prod.mk.inj (Option.some.inj hstep)
      exact (takesUp_step hreader hup (by simp [Packet.up, hkind, HOST_DATA, HOST_CLOSED])).takes
        (htail.trans (.bridgeReader (by split <;> simp)))
    · next hdata hclosed =>
      obtain ⟨rfl, rfl⟩ := Prod.mk.inj (Option.some.inj hstep)
      refine ⟨htail, fun c => ?_⟩
      have hnone : packet.up c = none := by simp [Packet.up, hdata, hclosed]
      have hline : { self with up }.line table registered c = self.line table registered c := by
        simp [line, hup, hnone]
      rw [hline]
  · next d part hreader =>
    obtain ⟨rfl, rfl⟩ := Prod.mk.inj (Option.some.inj hstep)
    refine StepAt.takes (d := d) ?_ (.bridgeReader (by split <;> simp))
    constructor
    · have hhand : (self.line table registered d).bridgeHand = .found part := by
        simp [line, hreader, BridgeReader.hand]
      by_cases htable : d.toNat ∈ table
      · have hline := Line.BridgeStep.holds _ part hhand (by simpa [line] using htable)
        simpa [line, htable, BridgeReader.hand] using hline
      · have hline := Line.BridgeStep.unknown _ part hhand (by simpa [line] using htable)
        simpa [line, htable, BridgeReader.hand] using hline
    · intro c hne
      by_cases htable : d.toNat ∈ table <;> simp [line, hreader, htable, BridgeReader.hand, hne.symm]
  · next d part hreader =>
    have hhand : (self.line table registered d).bridgeHand = .sending part := by
      simp [line, hreader, BridgeReader.hand]
    dsimp only at hstep
    split at hstep
    all_goals
      obtain ⟨rfl, rfl⟩ := Prod.mk.inj (Option.some.inj hstep)
    · next fromHost hsend =>
      obtain ⟨-, rfl⟩ := trySend_eq_some hsend
      refine StepAt.takes (d := d) ?_ ((Keeps.bridgeReader (by simp)).trans (.setConnection rfl rfl))
      constructor
      · simp only [line, setConnection, Function.update_self, BridgeReader.hand]
        exact .delivers _ part hhand
      · intro c hne
        simp only [line, setConnection, Function.update_of_ne hne, hreader, BridgeReader.hand,
          if_neg hne.symm]
    · refine StepAt.takes (d := d) ?_ (.bridgeReader (by simp))
      constructor
      · have hline := Line.BridgeStep.blocks _ part hhand
        simpa [line, BridgeReader.hand] using hline
      · intro c hne
        simp [line, hreader, BridgeReader.hand, hne.symm]
  · next d hreader =>
    obtain ⟨rfl, rfl⟩ := Prod.mk.inj (Option.some.inj hstep)
    refine StepAt.takes (d := d) ?_ (.bridgeReader (by split <;> simp))
    have hhand : (self.line table registered d).bridgeHand = .blocked := by
      simp [line, hreader, BridgeReader.hand]
    constructor
    · cases registered with
      | true =>
        have hline := Line.BridgeStep.checks _ hhand rfl
        simpa [line, BridgeReader.hand] using hline
      | false =>
        have hline := Line.BridgeStep.forgets _ hhand rfl
        simpa [line, BridgeReader.hand] using hline
    · intro c hne
      cases registered <;> simp [line, hreader, BridgeReader.hand, hne.symm]
  · next d hreader =>
    obtain ⟨rfl, rfl⟩ := Prod.mk.inj (Option.some.inj hstep)
    refine StepAt.takes (d := d) ?_ (.bridgeReader (by simp))
    have hhand : (self.line table registered d).bridgeHand = .dropping := by
      simp [line, hreader, BridgeReader.hand]
    constructor
    · have hline := Line.BridgeStep.drops _ hhand
      simpa [line, BridgeReader.hand] using hline
    · intro c hne
      simp [line, hreader, BridgeReader.hand, hne, hne.symm, UInt64.toNat_inj]
  · next d hreader =>
    obtain ⟨rfl, rfl⟩ := Prod.mk.inj (Option.some.inj hstep)
    refine StepAt.takes (d := d) ?_ ((Keeps.sendHost _ rfl).trans (.bridgeReader (by simp)))
    have hhand : (self.line table registered d).bridgeHand = .reporting := by
      simp [line, hreader, BridgeReader.hand]
    obtain ⟨fits, hsent⟩ := self.sendHost_getD ⟨DEVICE_CLOSED, d, []⟩
    rw [hsent]
    constructor
    · have hline := Line.BridgeStep.bridgeReports _ fits hhand
      cases fits <;> simpa [line, BridgeReader.hand, Line.notice] using hline
    · intro c hne
      have hnone : Packet.down c ⟨DEVICE_CLOSED, d, []⟩ = none := down_of_ne hne.symm
      cases fits <;> simp [line, hreader, BridgeReader.hand, hne.symm, hnone]
  all_goals simp at hstep

/-- The packet that the daemon's reader takes. -/
theorem takesDown_step {down : List Packet} {part : Part}
    (hreader : self.daemonReader = .reading) (hdown : self.down = packet :: down)
    (hpart : packet.down packet.connection = some (.part part)) :
    StepAt Line.DaemonStep registered packet.connection self table
      { self with
        down
        daemonReader :=
          if packet.connection ∈ self.locals then .sending packet.connection part else .reading }
      table := by
  constructor
  · have hhand : (self.line table registered packet.connection).daemonHand = .idle := by
      simp [line, hreader, DaemonReader.hand]
    have hline : (self.line table registered packet.connection).down =
        .part part :: down.filterMap (Packet.down packet.connection) := by
      simp [line, hdown, hpart]
    by_cases hlocals : packet.connection ∈ self.locals
    · have htakes := Line.DaemonStep.takes _ part _ hhand hline (by simpa [line] using hlocals)
      simpa [line, hlocals, DaemonReader.hand] using htakes
    · have hmisses := Line.DaemonStep.misses _ part _ hhand hline (by simpa [line] using hlocals)
      simpa [line, hlocals, hreader, DaemonReader.hand] using hmisses
  · intro c hne
    by_cases hlocals : packet.connection ∈ self.locals
    all_goals simp [line, hlocals, hreader, hdown, DaemonReader.hand, down_of_ne hne.symm, hne.symm]

theorem closeLocal_eq (held : Connection) : ∃ fits,
    Connection.closeLocal held = { held with fromDevice := held.fromDevice ++ Line.notice fits } := by
  rw [Connection.closeLocal]
  cases hsend : trySend held.proxy.Receives held.fromDevice .closed with
  | none => exact ⟨false, by simp [Line.notice]⟩
  | some fromDevice => exact ⟨true, by simp [Line.notice, (trySend_eq_some hsend).2]⟩

theorem connectOnce_takes (hsized : self.Sized) (hstep : self.connectOnce = some session) :
    Takes Line.DaemonStep registered self table session table := by
  rw [connectOnce] at hstep
  split at hstep
  · next hreader =>
    split at hstep
    · split at hstep
      · next hsevered =>
        obtain rfl := Option.some.inj hstep
        refine ⟨⟨fun h => ⟨h.toHost, h.down, h.outgoing, h.up, h.opening⟩,
          fun h => ⟨h.bridgeWriter, h.daemonWriter, h.bridgeReader, fun _ => hsevered⟩, rfl, id⟩,
          fun c => ?_⟩
        have hline : { self with daemonReader := .leaving }.line table registered c =
            self.line table registered c := by
          simp [line, hreader, DaemonReader.hand]
        rw [hline]
      · simp at hstep
    next packet down hdown =>
    have htail : ∀ locals, self.Keeps { self with down, locals } := fun _ =>
      ⟨fun h => h.of_queues (fun _ => .inl) (fun _ hother => .inl (hdown ▸ List.mem_cons_of_mem _ hother))
        (fun _ => .inl) (fun _ => .inl) fun _ => ⟨rfl, rfl⟩,
        fun h => ⟨h.bridgeWriter, h.daemonWriter, h.bridgeReader, h.daemonReader⟩, rfl, id⟩
    have hpacket := hsized.down packet (hdown ▸ List.mem_cons_self)
    rw [Packet.decode_encode hpacket] at hstep
    dsimp only at hstep
    split at hstep
    · next hkind =>
      obtain rfl := Option.some.inj hstep
      refine StepAt.takes (d := packet.connection) ?_ ((htail _).trans (.setConnection rfl rfl))
      have hhead : packet.down packet.connection = some (.head packet.payload) := by
        simp [Packet.down, hkind]
      constructor
      · have hhand : (self.line table registered packet.connection).daemonHand = .idle := by
          simp [line, hreader, DaemonReader.hand]
        have hline := Line.DaemonStep.arrives _ packet.payload
          (down.filterMap (Packet.down packet.connection)) hhand (by simp [line, hdown, hhead])
        simpa [line, setConnection] using hline
      · intro c hne
        simp [line, setConnection, hdown, down_of_ne hne.symm, hne]
    split at hstep
    · next hkind =>
      obtain rfl := Option.some.inj hstep
      exact (takesDown_step hreader hdown (by simp [Packet.down, hkind, OPEN, DEVICE_DATA])).takes
        ((htail _).trans (.daemonReader (by split <;> simp)))
    split at hstep
    · next hkind =>
      obtain rfl := Option.some.inj hstep
      refine (takesDown_step hreader hdown ?_).takes
        ((htail _).trans (.daemonReader (by split <;> simp)))
      simp [Packet.down, hkind, OPEN, DEVICE_DATA, DEVICE_CLOSED]
    · next hopen hdata hclosed =>
      obtain rfl := Option.some.inj hstep
      refine ⟨htail _, fun c => ?_⟩
      have hnone : packet.down c = none := by simp [Packet.down, hopen, hdata, hclosed]
      have hline : { self with down }.line table registered c = self.line table registered c := by
        simp [line, hdown, hnone]
      rw [hline]
  · next d part hreader =>
    have hhand : (self.line table registered d).daemonHand = .sending part := by
      simp [line, hreader, DaemonReader.hand]
    dsimp only at hstep
    split at hstep
    all_goals obtain rfl := Option.some.inj hstep
    · next fromDevice hsend =>
      obtain ⟨-, rfl⟩ := trySend_eq_some hsend
      refine StepAt.takes (d := d) ?_ ((Keeps.daemonReader (by simp)).trans (.setConnection rfl rfl))
      constructor
      · simp only [line, setConnection, Function.update_self, DaemonReader.hand]
        exact .daemonSends _ part hhand
      · intro c hne
        simp only [line, setConnection, Function.update_of_ne hne, hreader, DaemonReader.hand,
          if_neg hne.symm]
    · refine StepAt.takes (d := d) ?_ (.daemonReader (by simp))
      constructor
      · have hline := Line.DaemonStep.daemonBlocks _ part hhand
        simpa [line, DaemonReader.hand] using hline
      · intro c hne
        simp [line, hreader, DaemonReader.hand, hne.symm]
  · next d hreader =>
    obtain rfl := Option.some.inj hstep
    refine StepAt.takes (d := d) ?_ ⟨fun h => ⟨h.toHost, h.down, h.outgoing, h.up, h.opening⟩,
      fun h => ⟨h.bridgeWriter, h.daemonWriter, h.bridgeReader, by simp⟩, rfl, id⟩
    have hhand : (self.line table registered d).daemonHand = .blocked := by
      simp [line, hreader, DaemonReader.hand]
    constructor
    · have hline := Line.DaemonStep.daemonDrops _ hhand
      simpa [line, DaemonReader.hand] using hline
    · intro c hne
      simp [line, hreader, DaemonReader.hand, hne, hne.symm]
  · next d hreader =>
    obtain rfl := Option.some.inj hstep
    refine StepAt.takes (d := d) ?_ ((Keeps.sendBridge _ rfl).trans (.daemonReader (by simp)))
    have hhand : (self.line table registered d).daemonHand = .reporting := by
      simp [line, hreader, DaemonReader.hand]
    obtain ⟨fits, -, hsent⟩ := self.sendBridge_getD ⟨HOST_CLOSED, d, []⟩
    rw [hsent]
    constructor
    · have hline := Line.DaemonStep.daemonReports _ fits hhand
      cases fits <;> simpa [line, DaemonReader.hand, Line.notice] using hline
    · intro c hne
      have hnone : Packet.up c ⟨HOST_CLOSED, d, []⟩ = none := up_of_ne hne.symm
      cases fits <;> simp [line, hreader, DaemonReader.hand, hne.symm, hnone]
  · next hreader =>
    obtain rfl := Option.some.inj hstep
    refine ⟨⟨fun h => h.of_queues (fun _ => .inl) (fun _ => .inl) (fun _ => .inl) (fun _ => .inl) ?_,
      fun h => ⟨h.bridgeWriter, h.daemonWriter, h.bridgeReader, fun _ => h.daemonReader (.inl hreader)⟩,
      rfl, id⟩, fun c => ?_⟩
    · intro c
      dsimp only
      split
      · exact ⟨rfl, rfl⟩
      · exact ⟨rfl, rfl⟩
    by_cases hlocals : c ∈ self.locals
    · obtain ⟨fits, hclosed⟩ := closeLocal_eq (self.connections c)
      have hline : ({ self with
          daemonReader := .left
          locals := []
          connections := fun c =>
            if c ∈ self.locals then Connection.closeLocal (self.connections c)
            else self.connections c } : Session).line table registered c =
          { self.line table registered c with
            inLocals := false
            fromDevice := (self.line table registered c).fromDevice ++ Line.notice fits } := by
        simp [line, hreader, DaemonReader.hand, hlocals, hclosed]
      rw [hline]
      exact .single (.daemonLeaves _ fits (by simpa [line] using hlocals))
    · have hline : ({ self with
          daemonReader := .left
          locals := []
          connections := fun c =>
            if c ∈ self.locals then Connection.closeLocal (self.connections c)
            else self.connections c } : Session).line table registered c =
          self.line table registered c := by
        simp [line, hreader, DaemonReader.hand, hlocals]
      rw [hline]
  · simp at hstep

/-! ### Any task -/

/-- A task that ends its connection finds room for the notice, as long as its queue is read, unless the
device is to be told already. -/
def Reports (self : Session) (table : List ℕ) (registered : Bool) : Act → Prop
  | .proxy c _ => (self.connections c).proxy = .reporting → self.daemonWriter = true →
      (self.line table registered c).Ending ∨ self.outgoing.length < PACKET_QUEUE_DEPTH
  | _ => True

/-- **A step of a session is a step of a line**, of each or of none. -/
theorem step_takes {act : Act} (hsized : self.Sized) (hconnected : self.Connected)
    (horderly : orderly → self.Reports table registered act)
    (hstep : self.step table registered act = some (session, table')) :
    Takes (Line.TaskStep orderly) registered self table session table' := by
  cases act with
  | device d failure => exact (handlePublicConnection_step hstep).takes.mono fun _ _ => .device
  | deviceReads d bytes =>
    obtain ⟨hreads, rfl⟩ := by simpa [step] using hstep
    exact (deviceReads_step hreads).takes.mono fun _ _ => .device
  | deviceEnds d =>
    obtain ⟨hends, rfl⟩ := by simpa [step] using hstep
    exact (deviceEnds_step hends).takes.mono fun _ _ => .device
  | proxy d failure =>
    obtain ⟨hproxy, rfl⟩ := by simpa [step] using hstep
    exact (proxyToLocal_step hconnected horderly hproxy).takes.mono fun _ _ => .proxy
  | localReads d bytes =>
    obtain ⟨hreads, rfl⟩ := by simpa [step] using hstep
    exact (localReads_step hreads).takes.mono fun _ _ => .proxy
  | localEnds d =>
    obtain ⟨hends, rfl⟩ := by simpa [step] using hstep
    exact (localEnds_step hends).takes.mono fun _ _ => .proxy
  | bridgeWriter works =>
    obtain ⟨hwrites, rfl⟩ := by simpa [step] using hstep
    exact (bridgeWrites_takes hwrites).mono fun _ _ => .socket
  | bridgeReader => exact (serveHostSocket_takes hsized hstep).mono fun _ _ => .bridge
  | daemonWriter works =>
    obtain ⟨hwrites, rfl⟩ := by simpa [step] using hstep
    exact (daemonWrites_takes hwrites).mono fun _ _ => .socket
  | daemonReader =>
    obtain ⟨hreads, rfl⟩ := by simpa [step] using hstep
    exact (connectOnce_takes hsized hreads).mono fun _ _ => .daemon
  | publishes code =>
    obtain ⟨hcode, rfl⟩ := by simpa [step] using hstep
    exact publishes_takes hcode
  | severs down up =>
    obtain ⟨rfl, rfl⟩ := Prod.mk.inj (Option.some.inj hstep)
    exact (severs_takes down up).mono fun _ _ => .socket

end Lines

end Session

end Bridge

end SuperHerdr
