import SuperHerdr.Bridge.Integrity

/-!
# How a connection ends in the tunnel

A device that waits is to be told when nobody is there for it any more. `Tunnel.Quiet` is where the
tunnel comes to rest: no queue holds anything, and no task goes on but on new input. In such a state a
device that is still open has its connection at the local listener and its connector is the registered
one (`Tunnel.tornDown_of_fair`), provided that all steps were `Fair`: that no device entered the table
of a connector that had just been replaced, and that no notice found its queue full.
-/

namespace SuperHerdr

namespace Bridge

/-! ### Where a task waits -/

namespace Session

variable {self : Session} {table : List ℕ} {registered : Bool} {c : UInt64}

theorem serveHostSocket_eq_none (h : self.serveHostSocket table registered = none) :
    self.bridgeReader = .reading ∧ self.up = [] ∧ self.severed = false ∨
      self.bridgeReader = .leaving ∨ self.bridgeReader = .left := by
  rw [serveHostSocket] at h
  split at h
  · next hreader =>
    refine .inl ⟨hreader, ?_⟩
    split at h
    · next hup =>
      split at h
      · cases h
      · next hsevered => exact ⟨hup, Bool.eq_false_of_not_eq_true hsevered⟩
    · dsimp only at h
      split at h
      · cases h
      · split_ifs at h
  · cases h
  · dsimp only at h
    split at h
    all_goals cases h
  · cases h
  · cases h
  · cases h
  · next hreader => exact .inr (.inl hreader)
  · next hreader => exact .inr (.inr hreader)

theorem handlePublicConnection_eq_none (h : self.handlePublicConnection table c none = none)
    (hthere : (self.connections c).device.Receives) :
    (self.connections c).device = .relaying ∧ (self.connections c).fromHost = [] ∧
      (c.toNat ∈ table ∨ self.bridgeHolds c = true) := by
  rw [handlePublicConnection] at h
  split at h
  · split at h
    · cases h
    · split at h
      · cases h
      · split at h
        all_goals cases h
  · next hdevice =>
    refine ⟨hdevice, ?_⟩
    split at h
    · dsimp only at h
      split_ifs at h
    · cases h
    · next hqueue =>
      split at h
      · next hheld => exact ⟨hqueue, hheld⟩
      · cases h
  · cases h
  · cases h
  · next hdevice => exact absurd hdevice hthere.1
  · next hdevice => exact absurd hdevice hthere.2

theorem proxyToLocal_eq_none (h : self.proxyToLocal c none = none) :
    (self.connections c).proxy = .relaying ∨ (self.connections c).proxy = .absent ∨
      (self.connections c).proxy = .gone := by
  rw [proxyToLocal] at h
  split at h
  · cases h
  · cases h
  · next hproxy => exact .inl hproxy
  · cases h
  · cases h
  · next hproxy => exact .inr (.inl hproxy)
  · next hproxy => exact .inr (.inr hproxy)

end Session

/-! ### At rest -/

/-- A task goes on with what is there already. -/
def Act.internal : Act → Bool
  | .device .. | .proxy .. | .bridgeWriter _ | .bridgeReader | .daemonWriter _ | .daemonReader => true
  | .deviceReads .. | .deviceEnds _ | .localReads .. | .localEnds _ | .publishes _ | .severs .. => false

def Move.internal : Move → Bool
  | .attach _ | .unregister _ => true
  | .run _ act => act.internal
  | .register .. | .request .. | .pair .. => false

namespace Session

variable {self : Session} {table : List ℕ}

/-- No task of a session has anything to do. -/
structure Rests (session : Session) (table : List ℕ) : Prop where
  bridgeReader : session.bridgeReader = .reading
  daemonReader : session.daemonReader = .reading
  severed : session.severed = false
  toHost : session.toHost = []
  down : session.down = []
  outgoing : session.outgoing = []
  up : session.up = []
  device : ∀ c, ((session.connections c).device = .unborn ∨
    (session.connections c).device = .relaying ∧ c.toNat ∈ table) ∧ (session.connections c).fromHost = []
  proxy : ∀ c, ((session.connections c).proxy = .absent ∨ (session.connections c).proxy = .gone ∨
    (session.connections c).proxy = .relaying ∧ c ∈ session.locals) ∧ (session.connections c).fromDevice = []

theorem Rests.step_eq_none (h : self.Rests table) (registered : Bool) {act : Act}
    (hact : act.internal = true) : self.step table registered act = none := by
  cases act with
  | device c failure =>
    obtain ⟨hdevice, hqueue⟩ := h.device c
    rcases hdevice with hdevice | ⟨hdevice, htable⟩
    · simp [step, handlePublicConnection, hdevice]
    · simp [step, handlePublicConnection, hdevice, hqueue, htable]
  | proxy c failure =>
    obtain ⟨hproxy, hqueue⟩ := h.proxy c
    rcases hproxy with hproxy | hproxy | ⟨hproxy, hlocals⟩
    · simp [step, proxyToLocal, hproxy]
    · simp [step, proxyToLocal, hproxy]
    · simp [step, proxyToLocal, hproxy, hqueue, hlocals]
  | bridgeWriter works => simp [step, bridgeWrites, h.toHost, h.severed]
  | bridgeReader => simp [step, serveHostSocket, h.bridgeReader, h.up, h.severed]
  | daemonWriter works => simp [step, daemonWrites, h.outgoing, h.severed]
  | daemonReader => simp [step, connectOnce, h.daemonReader, h.down, h.severed]
  | _ => cases hact

theorem rests_new (route : String) (table : List ℕ) : (new route).Rests table :=
  ⟨rfl, rfl, rfl, rfl, rfl, rfl, rfl, fun _ => ⟨.inl rfl, rfl⟩, fun _ => ⟨.inl rfl, rfl⟩⟩

end Session

namespace Tunnel

variable {s : Tunnel}

/-- No queue holds anything, and no task goes on but on new input. -/
structure Quiet (s : Tunnel) : Prop where
  queues : ∀ g, (s.sessions g).toHost = [] ∧ (s.sessions g).down = [] ∧ (s.sessions g).outgoing = [] ∧
    (s.sessions g).up = [] ∧ ∀ c, ((s.sessions g).connections c).fromHost = [] ∧
      ((s.sessions g).connections c).fromDevice = []
  still : ∀ move : Move, move.internal = true → s.step move = none

/-- A device that is open has its connection at the local listener, and the connector registered for its
route. -/
def TornDown (s : Tunnel) : Prop :=
  ∀ g c, ((s.sessions g).connections c).device.Receives →
    ((s.sessions g).connections c).proxy = .relaying ∧
      s.relay.registered (s.sessions g).route g = true

theorem new_attended (route : String) (registered : Bool) (c : UInt64) :
    Line.Attended ((Session.new route).line [] registered c) :=
  ⟨fun htable => absurd htable Bool.false_ne_true, fun htable => absurd htable Bool.false_ne_true⟩

theorem attended_of_reflGen {l l' : Line} (h : Relation.ReflGen (Line.Step True) l l')
    (hattended : l.Attended) : l'.Attended := by
  cases h with
  | refl => exact hattended
  | single hstep => exact hattended.step hstep

theorem FairStep.attended (h : Relation.ReflTransGen FairStep new s) (g : ℕ) (c : UInt64) :
    (s.line g c).Attended := by
  induction h with
  | refl => exact new_attended "" _ c
  | tail hrun hstep ih =>
    obtain ⟨move, hfair, hmove⟩ := hstep
    have hsound := (FairStep.reachable hrun).inv.1
    exact attended_of_reflGen (step_line hsound (fun _ => hfair) hmove g c) ih

section Quiet

variable {g : ℕ} {c : UInt64}

theorem Quiet.run_eq_none (h : s.Quiet) (hg : g < s.relay.nextGeneration) (act : Act)
    (hact : act.internal = true) :
    (s.sessions g).step (s.relay.devices g) (s.relay.registered (s.sessions g).route g) act = none := by
  have hrun : s.run g act = none := h.still (.run g act) hact
  rw [run, if_pos hg] at hrun
  exact Option.map_eq_none_iff.mp hrun

theorem Quiet.bridgeReader (h : s.Quiet) (hg : g < s.relay.nextGeneration) :
    (s.sessions g).bridgeReader = .reading ∧ (s.sessions g).severed = false ∨
      (s.sessions g).bridgeReader = .left := by
  have hreads := h.run_eq_none hg .bridgeReader rfl
  rcases Session.serveHostSocket_eq_none hreads with ⟨hreader, -, hsevered⟩ | hleaving | hleft
  · exact .inl ⟨hreader, hsevered⟩
  · have hgone : s.unregister g = none := h.still (.unregister g) rfl
    rw [unregister, if_pos hleaving] at hgone
    cases hgone
  · exact .inr hleft

/-- **At rest a device that is open is answered**, by the connector that is registered, if all steps went
as they should. -/
theorem tornDown_of_fair (hrun : Relation.ReflTransGen FairStep new s) (h : s.Quiet) : s.TornDown := by
  intro g c hthere
  obtain ⟨hsound, -⟩ := (FairStep.reachable hrun).inv
  have hattended := FairStep.attended hrun g c
  have hg : g < s.relay.nextGeneration := by
    by_contra hge
    have hnew := (hsound.untouched g (not_lt.mp hge)).1
    rw [hnew] at hthere
    exact hthere.1 rfl
  obtain ⟨htoHost, hdown, houtgoing, hup, hqueues⟩ := h.queues g
  obtain ⟨hdevice, -, hheld⟩ := Session.handlePublicConnection_eq_none
    (h.run_eq_none hg (.device c none) rfl) hthere
  have hproxy := Session.proxyToLocal_eq_none (c := c)
    (Option.map_eq_none_iff.mp (h.run_eq_none hg (.proxy c none) rfl))
  have hreader := h.bridgeReader hg
  have htable : c.toNat ∈ s.relay.devices g := by
    refine hheld.resolve_right fun hholds => ?_
    rcases hreader with ⟨hreader, -⟩ | hreader
    all_goals simp [Session.bridgeHolds, hreader] at hholds
  have hentered : (s.line g c).inTable = true := by simpa [line, Session.line] using htable
  have hregistered : s.relay.registered (s.sessions g).route g = true :=
    (hattended.registered hentered).resolve_right fun hturned => hturned.2 hdevice
  -- a reader that has left holds no route any more
  have hserves : (s.sessions g).bridgeReader = .reading ∧ (s.sessions g).severed = false :=
    hreader.resolve_right fun hleft =>
      Bool.false_ne_true ((hsound.left g hleft).symm.trans hregistered)
  refine ⟨?_, hregistered⟩
  rcases hattended.answered hentered with hsevered | ⟨opening, hopening⟩ | ⟨first, hearly⟩ | hrelays |
    hreports | hending
  · exact absurd (hserves.2.symm.trans hsevered) Bool.false_ne_true
  · have hpipe : (s.line g c).pipe = [] := by
      simp [Line.pipe, line, Session.line, htoHost, hdown]
    rw [hpipe] at hopening
    cases hopening
  · rcases hproxy with hproxy | hproxy | hproxy
    · exact hproxy
    all_goals
      rcases hearly with hearly | hearly
      all_goals exact absurd (hproxy.symm.trans hearly) (by simp)
  · exact hrelays
  · rcases hproxy with hproxy | hproxy | hproxy
    · exact hproxy
    all_goals exact absurd (hproxy.symm.trans hreports) (by simp)
  · exfalso
    have hidle : (s.line g c).bridgeHand = .idle := by
      simp [line, Session.line, hserves.1, BridgeReader.hand]
    rcases hending with hnot | hclosed | hclosed | hhand | hclosed
    · exact hnot hdevice
    · simp [line, Session.line, houtgoing] at hclosed
    · simp [line, Session.line, hup] at hclosed
    · simp [BridgeHand.Ends, hidle] at hhand
    · simp [line, Session.line, (hqueues c).1] at hclosed

end Quiet

/-! ### Runs that come to rest -/

theorem quiet_of_rests (hpending : s.pending = []) (h : ∀ g, (s.sessions g).Rests (s.relay.devices g)) :
    s.Quiet where
  queues g := ⟨(h g).toHost, (h g).down, (h g).outgoing, (h g).up, fun c =>
    ⟨((h g).device c).2, ((h g).proxy c).2⟩⟩
  still move hmove := by
    cases move with
    | attach i => simp [step, attach, hpending]
    | unregister g => simp [step, unregister, (h g).bridgeReader]
    | run g act => simp [step, run, (h g).step_eq_none _ hmove]
    | _ => cases hmove

/-- Then nobody has anything to do. -/
theorem Awaits.quiet {route : String} {opening : List UInt8} (h : s.Awaits route opening) :
    (s.entered route opening).Quiet := by
  refine quiet_of_rests rfl fun g => ?_
  by_cases hg : g = 0
  · subst hg
    simp only [entered, Function.update_self]
    refine ⟨rfl, rfl, rfl, rfl, rfl, rfl, rfl, fun c => ?_, fun c => ?_⟩
    · by_cases hc : c = 0
      · subst hc
        rw [stage_connections]
        exact ⟨.inr ⟨rfl, List.mem_singleton_self _⟩, rfl⟩
      · simp only [stage, Session.setConnection, Function.update_of_ne hc]
        exact ⟨.inl rfl, rfl⟩
    · by_cases hc : c = 0
      · subst hc
        rw [stage_connections]
        exact ⟨.inr (.inr ⟨rfl, List.mem_singleton_self _⟩), rfl⟩
      · simp only [stage, Session.setConnection, Function.update_of_ne hc]
        exact ⟨.inl rfl, rfl⟩
  · obtain ⟨other, hother⟩ := h.others g hg
    simp only [entered, Function.update_of_ne hg, hother]
    exact Session.rests_new other _

/-- Its connector registers once more before the device enters. -/
theorem led_register_awaits (route digest : String) (opening : List UInt8) :
    ((led route digest opening).register route digest).Awaits route opening ∧
      ((led route digest opening).register route digest).relay.registered route 0 = false := by
  have hsession : (led route digest opening).sessions 0 = .new route := by
    simp only [led, Function.update_self]
  have hclosed : (Session.new route).closeDevices [] = .new route := by simp [Session.closeDevices]
  have hregister : (led route digest opening).register route digest =
      { led route digest opening with
        relay := { (led route digest opening).relay with
          nextGeneration := 2
          routes := (led route digest opening).relay.routes.insert route ⟨digest, 1⟩
          devices := Function.update (Function.update (fun _ => []) 0 []) 1 [] }
        sessions := Function.update
          (Function.update (led route digest opening).sessions 0 (.new route)) 1 (.new route) } := by
    rw [register, RelayState.claim]
    simp [led, RelayState.new, hclosed]
  rw [hregister]
  refine ⟨⟨rfl, ?_, ?_, Nat.two_pos, rfl, fun g hg => ?_⟩, ?_⟩
  · simp
  · simp
  · by_cases hone : g = 1
    · exact ⟨route, by simp [hone]⟩
    · exact ⟨"", by simp [hg, hone, led, new]⟩
  · simp [RelayState.registered]

theorem entered_receives (s : Tunnel) (route : String) (opening : List UInt8) :
    (((s.entered route opening).sessions 0).connections 0).device.Receives := by
  simp only [entered, Function.update_self, stage_connections]
  exact ⟨Device.noConfusion, Device.noConfusion⟩

/-- The device enters and is answered. -/
theorem tornDown_of_fair_entered : ∃ s : Tunnel, s.TornDown ∧
    ∃ g c, ((s.sessions g).connections c).device.Receives := by
  obtain ⟨opening, hopening⟩ := asked_opens
  have hquiet := (led_awaits "0123456789abcdef0123456789abcdef" "secret" opening).quiet
  exact ⟨_, tornDown_of_fair (entered_fair hopening) hquiet, 0, 0, entered_receives _ _ _⟩

/-- The device enters just after its connector was replaced, and waits for one that is gone. -/
theorem replaced_is_not_tornDown : ∃ s : Tunnel, s.Reachable ∧ s.Quiet ∧ ¬s.TornDown := by
  obtain ⟨opening, hopening⟩ := asked_opens
  let route := "0123456789abcdef0123456789abcdef"
  obtain ⟨hawaits, hgone⟩ := led_register_awaits route "secret" opening
  obtain ⟨s₁, hattach, hrun⟩ := hawaits.enters (length_rewriteRequestTarget hopening)
  have hled : (led route "secret" opening).Reachable := FairStep.reachable (led_reachable hopening)
  have hreplaced := hled.tail ⟨.register route "secret", rfl⟩
  refine ⟨_, (hreplaced.tail ⟨.attach 0, hattach⟩).trans
    (Relation.ReflTransGen.mono (fun _ _ ⟨move, _, hstep⟩ => ⟨move, hstep⟩) _ _ hrun), hawaits.quiet,
    fun h => ?_⟩
  have hheld := (h 0 0 (entered_receives _ _ _)).2
  have hroute : ((((led route "secret" opening).register route "secret").entered route
      opening).sessions 0).route = route := by
    simp only [entered, Function.update_self]
    rfl
  rw [hroute] at hheld
  exact Bool.false_ne_true (hgone.symm.trans hheld)

end Tunnel

end Bridge

end SuperHerdr
