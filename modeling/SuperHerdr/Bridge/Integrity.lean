import SuperHerdr.Bridge.Lines
import SuperHerdr.Bridge.Steps

/-!
# What gets through the tunnel

The connections of all generations share the bridge's tables, and a step of the tunnel moves any number
of lines: a connector that is replaced takes all its devices with it. `Tunnel.Sound` is what the tables
keep to meanwhile, and `Tunnel.step_line` that each line takes a step of its own or none. So what holds
of any line along its steps holds of all lines in whatever state the tunnel comes to.
-/

namespace SuperHerdr

namespace Bridge

open Http

namespace Tunnel

/-- One connection, under the generation it belongs to. -/
def line (self : Tunnel) (g : ℕ) (c : UInt64) : Line :=
  (self.sessions g).line (self.relay.devices g) (self.relay.registered (self.sessions g).route g) c

/-- What the tables keep to. -/
structure Sound (s : Tunnel) : Prop where
  sized : ∀ g, (s.sessions g).Sized
  connected : ∀ g, (s.sessions g).Connected
  routes : ∀ route live, s.relay.routes[route]? = some live →
    live.generation < s.relay.nextGeneration ∧ (s.sessions live.generation).route = route
  untouched : ∀ g, s.relay.nextGeneration ≤ g → s.sessions g = .new "" ∧ s.relay.devices g = []
  fresh : ∀ g c, s.relay.nextConnection ≤ c.toNat → ((s.sessions g).connections c).device = .unborn
  pending : ∀ p ∈ s.pending, p.generation < s.relay.nextGeneration ∧
    (s.sessions p.generation).route = p.route ∧ ∀ opening ∈ p.opening, p.purpose.Opens opening
  left : ∀ g, (s.sessions g).bridgeReader = .left → s.relay.registered (s.sessions g).route g = false

/-- A step goes as it should: a device enters the table of a connector that is still registered, or
cannot get through to it, and whoever ends a connection finds room for the notice. -/
def Fair (s : Tunnel) : Move → Prop
  | .attach i => ∀ p ∈ s.pending[i]?, MAX_DEVICES_PER_ROUTE ≤ (s.relay.devices p.generation).length ∨
      s.relay.registered p.route p.generation = true ∨ (s.sessions p.generation).bridgeWriter = false
  | .run g act =>
      (s.sessions g).Reports (s.relay.devices g) (s.relay.registered (s.sessions g).route g) act
  | _ => True

section Steps

variable {orderly : Prop} {s s' : Tunnel} {g generation : ℕ} {c : UInt64} {route digest : String}

theorem registered_insert {relay relay' : RelayState} {live : LiveRoute}
    (hroutes : relay'.routes = relay.routes.insert route live) (r : String) (g : ℕ) :
    relay'.registered r g = if route = r then decide (live.generation = g) else relay.registered r g := by
  simp only [RelayState.registered, hroutes, Std.ExtTreeMap.getElem?_insert, compare_eq_iff_eq]
  split <;> rfl

theorem registered_erase {relay relay' : RelayState}
    (hroutes : relay'.routes = relay.routes.erase route)
    (r : String) (g : ℕ) :
    relay'.registered r g = if route = r then false else relay.registered r g := by
  simp only [RelayState.registered, hroutes, Std.ExtTreeMap.getElem?_erase, compare_eq_iff_eq]
  split <;> rfl

theorem line_congr (hsession : s'.sessions g = s.sessions g)
    (hdevices : s'.relay.devices g = s.relay.devices g)
    (hregistered : s'.relay.registered (s.sessions g).route g =
      s.relay.registered (s.sessions g).route g) : s'.line g c = s.line g c := by
  rw [line, hsession, hdevices, hregistered, line]

theorem reflGen_of_eq {α : Type*} {R : α → α → Prop} {a b : α} (h : b = a) : Relation.ReflGen R a b :=
  h ▸ .refl

theorem new_sized (route : String) : (Session.new route).Sized := by
  constructor <;> simp [Session.new, Connection.unborn]

theorem new_connected (route : String) : (Session.new route).Connected := by
  constructor <;> simp [Session.new]

theorem closeDevice_eq (held : Connection) : ∃ fits,
    held.closeDevice = { held with fromHost := held.fromHost ++ Line.notice fits } := by
  rw [Connection.closeDevice]
  cases hsend : trySend held.device.Receives held.fromHost .closed with
  | none => exact ⟨false, by simp [Line.notice]⟩
  | some fromHost => exact ⟨true, by simp [Line.notice, (Session.trySend_eq_some hsend).2]⟩

variable (self : Session)

theorem closeDevices_step (table : List ℕ) (registered : Bool) (c : UInt64) :
    Line.RouteStep orderly (self.line table registered c)
      ((self.closeDevices table).line [] false c) := by
  by_cases htable : c.toNat ∈ table
  · obtain ⟨fits, hclosed⟩ := closeDevice_eq (self.connections c)
    have hline : Line.RouteStep orderly _ _ := .unregisters (self.line table registered c) fits
      fun _ => by simpa [Session.line] using htable
    simpa [Session.line, Session.closeDevices, htable, hclosed] using hline
  · have hline : Line.RouteStep orderly _ _ := .unregisters (self.line table registered c) false
      fun h => absurd h Bool.false_ne_true
    simpa [Session.line, Session.closeDevices, htable, Line.notice] using hline

theorem closeDevices_keeps (table : List ℕ) : self.Keeps (self.closeDevices table) := by
  refine ⟨fun h => h.of_queues (fun _ => .inl) (fun _ => .inl) (fun _ => .inl) (fun _ => .inl) ?_,
    fun h => ⟨h.bridgeWriter, h.daemonWriter, h.bridgeReader, h.daemonReader⟩, rfl, id⟩
  intro c
  rw [Session.closeDevices]
  dsimp only
  split
  · exact ⟨rfl, rfl⟩
  · exact ⟨rfl, rfl⟩

theorem closeDevices_device (table : List ℕ) (c : UInt64) :
    ((self.closeDevices table).connections c).device = (self.connections c).device := by
  rw [Session.closeDevices]
  dsimp only
  split
  · rfl
  · rfl

/-! ### A connector registers -/

theorem register_cases (s : Tunnel) (route digest : String) :
    s.register route digest =
        { s with relay := { s.relay with nextGeneration := s.relay.nextGeneration + 1 } } ∨
      (s.relay.routes[route]? = none ∧ s.register route digest =
        { s with
          relay := { s.relay with
            nextGeneration := s.relay.nextGeneration + 1
            routes := s.relay.routes.insert route ⟨digest, s.relay.nextGeneration⟩
            devices := Function.update s.relay.devices s.relay.nextGeneration [] }
          sessions := Function.update s.sessions s.relay.nextGeneration (.new route) }) ∨
      ∃ live, s.relay.routes[route]? = some live ∧ s.register route digest =
        { s with
          relay := { s.relay with
            nextGeneration := s.relay.nextGeneration + 1
            routes := s.relay.routes.insert route ⟨digest, s.relay.nextGeneration⟩
            devices := Function.update (Function.update s.relay.devices live.generation [])
              s.relay.nextGeneration [] }
          sessions := Function.update (Function.update s.sessions live.generation
            ((s.sessions live.generation).closeDevices (s.relay.devices live.generation)))
            s.relay.nextGeneration (.new route) } := by
  rw [register, RelayState.claim]
  cases hroute : s.relay.routes[route]? with
  | none =>
    dsimp only
    by_cases hroom : MAX_ROUTES ≤ s.relay.routes.size
    · simp [hroom]
    · simp [hroom]
  | some live =>
    dsimp only
    by_cases hsame : live.secretDigest = digest
    · refine .inr (.inr ⟨live, rfl, ?_⟩)
      simp [hsame]
    · simp [hsame]

theorem registered_of_ne {live : LiveRoute} (hroute : s.relay.routes[route]? = some live)
    (hne : live.generation ≠ g) : s.relay.registered route g = false := by
  simp [RelayState.registered, hroute, hne]

theorem registered_of_none (hroute : s.relay.routes[route]? = none) :
    s.relay.registered route g = false := by
  simp [RelayState.registered, hroute]

theorem Sound.registers_line (h : s.Sound) (hsession : s'.sessions s.relay.nextGeneration = .new route)
    (hdevices : s'.relay.devices s.relay.nextGeneration = [])
    (hregistered : s'.relay.registered route s.relay.nextGeneration = true) :
    Line.RouteStep orderly (s.line s.relay.nextGeneration c) (s'.line s.relay.nextGeneration c) := by
  obtain ⟨hbefore, hnone⟩ := h.untouched _ le_rfl
  rw [line, line, hsession, hdevices, hbefore, hnone]
  have hroute : (Session.new route).route = route := rfl
  rw [hroute, hregistered]
  exact .registers _ rfl

theorem register_line (h : s.Sound) (route digest : String) (g : ℕ) (c : UInt64) :
    Relation.ReflGen (Line.RouteStep orderly) (s.line g c) ((s.register route digest).line g c) := by
  rcases register_cases s route digest with heq | ⟨hroute, heq⟩ | ⟨live, hroute, heq⟩
  · rw [heq]
    exact reflGen_of_eq (line_congr rfl rfl rfl)
  · rw [heq]
    by_cases hg : g = s.relay.nextGeneration
    · subst hg
      refine .single (h.registers_line (Function.update_self _ _ _) (Function.update_self _ _ _) ?_)
      rw [registered_insert rfl, if_pos rfl, decide_eq_true rfl]
    · refine reflGen_of_eq (line_congr (Function.update_of_ne hg _ _) (Function.update_of_ne hg _ _) ?_)
      rw [registered_insert rfl]
      split
      · next hsame =>
        rw [← hsame, registered_of_none hroute, decide_eq_false (Ne.symm hg)]
      · rfl
  · rw [heq]
    by_cases hg : g = s.relay.nextGeneration
    · subst hg
      refine .single (h.registers_line (Function.update_self _ _ _) (Function.update_self _ _ _) ?_)
      rw [registered_insert rfl, if_pos rfl, decide_eq_true rfl]
    by_cases hold : g = live.generation
    · subst hold
      have hown : ((s.sessions live.generation).closeDevices
          (s.relay.devices live.generation)).route = route := (h.routes route live hroute).2
      rw [line, line]
      simp only [Function.update_of_ne hg, Function.update_self]
      have hgone : ∀ relay : RelayState,
          relay.routes = s.relay.routes.insert route ⟨digest, s.relay.nextGeneration⟩ →
          relay.registered route live.generation = false := by
        intro relay hroutes
        rw [registered_insert hroutes, if_pos rfl, decide_eq_false (Ne.symm hg)]
      rw [hown, hgone _ ?_]
      · exact .single (closeDevices_step _ _ _ _)
      · rfl
    · refine reflGen_of_eq (line_congr ?_ ?_ ?_)
      · exact (Function.update_of_ne hg _ _).trans (Function.update_of_ne hold _ _)
      · exact (Function.update_of_ne hg _ _).trans (Function.update_of_ne hold _ _)
      rw [registered_insert rfl]
      split
      · next hsame =>
        rw [← hsame, registered_of_ne hroute (Ne.symm hold), decide_eq_false (Ne.symm hg)]
      · rfl

/-- A generation is new, and what others there are stay as they should be. -/
theorem Sound.registers (h : s.Sound) {live : LiveRoute}
    (hgeneration : live.generation = s.relay.nextGeneration)
    (hnext : s'.relay.nextGeneration = s.relay.nextGeneration + 1)
    (hconnection : s'.relay.nextConnection = s.relay.nextConnection)
    (hpending : s'.pending = s.pending) (hroutes : s'.relay.routes = s.relay.routes.insert route live)
    (hnew : s'.sessions s.relay.nextGeneration = .new route)
    (hkeeps : ∀ g ≠ s.relay.nextGeneration, (s.sessions g).Keeps (s'.sessions g))
    (hdevice : ∀ g ≠ s.relay.nextGeneration, ∀ c,
      ((s'.sessions g).connections c).device = ((s.sessions g).connections c).device)
    (huntouched : ∀ g, s.relay.nextGeneration < g →
      s'.sessions g = s.sessions g ∧ s'.relay.devices g = s.relay.devices g) : s'.Sound where
  sized g := by
    by_cases hg : g = s.relay.nextGeneration
    · rw [hg, hnew]
      exact new_sized route
    · exact (hkeeps g hg).sized (h.sized g)
  connected g := by
    by_cases hg : g = s.relay.nextGeneration
    · rw [hg, hnew]
      exact new_connected route
    · exact (hkeeps g hg).connected (h.connected g)
  routes r held hheld := by
    rw [hroutes, Std.ExtTreeMap.getElem?_insert] at hheld
    rw [hnext]
    split at hheld
    · next hsame =>
      obtain rfl := Option.some.inj hheld
      rw [compare_eq_iff_eq] at hsame
      rw [hgeneration, hnew]
      exact ⟨Nat.lt_succ_self _, hsame⟩
    · obtain ⟨hlt, hroute⟩ := h.routes r held hheld
      exact ⟨Nat.lt_succ_of_lt hlt, (hkeeps _ hlt.ne).route.trans hroute⟩
  untouched g hg := by
    rw [hnext] at hg
    obtain ⟨hsession, hdevices⟩ := huntouched g hg
    rw [hsession, hdevices]
    exact h.untouched g (Nat.le_of_succ_le hg)
  fresh g c hc := by
    by_cases hg : g = s.relay.nextGeneration
    · rw [hg, hnew]
      rfl
    · exact (hdevice g hg c).trans (h.fresh g c (hconnection ▸ hc))
  pending p hp := by
    obtain ⟨hlt, hroute, hopening⟩ := h.pending p (hpending ▸ hp)
    rw [hnext]
    exact ⟨Nat.lt_succ_of_lt hlt, (hkeeps _ hlt.ne).route.trans hroute, hopening⟩
  left g hleft := by
    by_cases hg : g = s.relay.nextGeneration
    · rw [hg, hnew] at hleft
      cases hleft
    · rw [registered_insert hroutes, (hkeeps g hg).route, h.left g ((hkeeps g hg).left hleft), hgeneration,
        decide_eq_false (Ne.symm hg), ite_self]

theorem register_sound (h : s.Sound) (route digest : String) : (s.register route digest).Sound := by
  rcases register_cases s route digest with heq | ⟨hroute, heq⟩ | ⟨live, hroute, heq⟩
  · rw [heq]
    refine ⟨h.sized, h.connected, fun route live hlive => ?_, fun g hg => ?_, h.fresh, fun p hp => ?_,
      h.left⟩
    · obtain ⟨hlt, hroute⟩ := h.routes route live hlive
      exact ⟨Nat.lt_succ_of_lt hlt, hroute⟩
    · exact h.untouched g (Nat.le_of_succ_le hg)
    · obtain ⟨hlt, hrest⟩ := h.pending p hp
      exact ⟨Nat.lt_succ_of_lt hlt, hrest⟩
  · rw [heq]
    refine h.registers rfl rfl rfl rfl rfl (Function.update_self _ _ _) ?_ ?_ ?_
    · intro g hg
      simp only [Function.update_of_ne hg]
      exact Session.Keeps.refl
    · intro g hg c
      simp only [Function.update_of_ne hg]
    · intro g hg
      exact ⟨Function.update_of_ne hg.ne' _ _, Function.update_of_ne hg.ne' _ _⟩
  · have hlt := (h.routes route live hroute).1
    rw [heq]
    refine h.registers rfl rfl rfl rfl rfl (Function.update_self _ _ _) ?_ ?_ ?_
    · intro g hg
      simp only [Function.update_of_ne hg]
      by_cases hold : g = live.generation
      · subst hold
        rw [Function.update_self]
        exact closeDevices_keeps _ _
      · rw [Function.update_of_ne hold]
        exact Session.Keeps.refl
    · intro g hg c
      simp only [Function.update_of_ne hg]
      by_cases hold : g = live.generation
      · subst hold
        rw [Function.update_self]
        exact closeDevices_device _ _ _
      · rw [Function.update_of_ne hold]
    · intro g hg
      have hold : g ≠ live.generation := by omega
      exact ⟨(Function.update_of_ne hg.ne' _ _).trans (Function.update_of_ne hold _ _),
        (Function.update_of_ne hg.ne' _ _).trans (Function.update_of_ne hold _ _)⟩

/-- A session changes, and the tables lose routes at most. -/
theorem Sound.update (h : s.Sound) {session : Session} (hlt : generation < s.relay.nextGeneration)
    (hsessions : s'.sessions = Function.update s.sessions generation session)
    (hsized : session.Sized) (hconnected : session.Connected)
    (hroute : session.route = (s.sessions generation).route)
    (hunborn : ∀ c : UInt64, s'.relay.nextConnection ≤ c.toNat →
      ((s.sessions generation).connections c).device = .unborn → (session.connections c).device = .unborn)
    (hleft : session.bridgeReader = .left → s'.relay.registered session.route generation = false)
    (hroutes : ∀ (route : String) (live : LiveRoute),
      s'.relay.routes[route]? = some live → s.relay.routes[route]? = some live)
    (hdevices : ∀ g ≠ generation, s'.relay.devices g = s.relay.devices g)
    (hgeneration : s'.relay.nextGeneration = s.relay.nextGeneration)
    (hconnection : s.relay.nextConnection ≤ s'.relay.nextConnection)
    (hpending : ∀ p ∈ s'.pending, p ∈ s.pending) : s'.Sound := by
  have hsame : s'.sessions generation = session := by rw [hsessions, Function.update_self]
  have hother : ∀ g ≠ generation, s'.sessions g = s.sessions g := fun g hg => by
    rw [hsessions, Function.update_of_ne hg]
  have hkept : ∀ g, (s'.sessions g).route = (s.sessions g).route := by
    intro g
    by_cases hg : g = generation
    · rw [hg, hsame, hroute]
    · rw [hother g hg]
  constructor
  case sized =>
    intro g
    by_cases hg : g = generation
    · rwa [hg, hsame]
    · rw [hother g hg]
      exact h.sized g
  case connected =>
    intro g
    by_cases hg : g = generation
    · rwa [hg, hsame]
    · rw [hother g hg]
      exact h.connected g
  case routes =>
    intro route live hlive
    rw [hkept, hgeneration]
    exact h.routes route live (hroutes route live hlive)
  case untouched =>
    intro g hg
    rw [hgeneration] at hg
    have hne : g ≠ generation := (hlt.trans_le hg).ne'
    rw [hother g hne, hdevices g hne]
    exact h.untouched g hg
  case fresh =>
    intro g c hc
    have hbefore := h.fresh g c (hconnection.trans hc)
    by_cases hg : g = generation
    · subst hg
      rw [hsame]
      exact hunborn c hc hbefore
    · rwa [hother g hg]
  case pending =>
    intro p hp
    rw [hkept, hgeneration]
    exact h.pending p (hpending p hp)
  case left =>
    intro g hg
    by_cases hne : g = generation
    · subst hne
      rw [hsame] at hg ⊢
      exact hleft hg
    · rw [hother g hne] at hg ⊢
      have hnot := h.left g hg
      rw [← Bool.not_eq_true, RelayState.registered_iff] at hnot ⊢
      exact fun ⟨live, hlive, hheld⟩ => hnot ⟨live, hroutes _ _ hlive, hheld⟩

/-! ### A task takes a step -/

theorem run_eq_some {act : Act} (hstep : s.run generation act = some s') :
    generation < s.relay.nextGeneration ∧ ∃ session table,
      (s.sessions generation).step (s.relay.devices generation)
          (s.relay.registered (s.sessions generation).route generation) act = some (session, table) ∧
        s' = { s with
          relay := { s.relay with devices := Function.update s.relay.devices generation table }
          sessions := Function.update s.sessions generation session } := by
  rw [run] at hstep
  dsimp only at hstep
  split at hstep
  · next hlt =>
    obtain ⟨⟨session, table⟩, hact, rfl⟩ := Option.map_eq_some_iff.mp hstep
    exact ⟨hlt, session, table, hact, rfl⟩
  · simp at hstep

theorem run_line {act : Act} (h : s.Sound) (horderly : orderly → s.Fair (.run generation act))
    (hstep : s.run generation act = some s') (g : ℕ) (c : UInt64) :
    Relation.ReflGen (Line.TaskStep orderly) (s.line g c) (s'.line g c) := by
  obtain ⟨-, session, table, hact, rfl⟩ := run_eq_some hstep
  by_cases hg : g = generation
  · subst hg
    have htakes := Session.step_takes (h.sized g) (h.connected g) horderly hact
    rw [line, line]
    simp only [Function.update_self, htakes.route]
    exact htakes.line c
  · exact reflGen_of_eq (line_congr (Function.update_of_ne hg _ _) (Function.update_of_ne hg _ _) rfl)

theorem unborn_of_reflGen {l l' : Line} (h : Relation.ReflGen (Line.TaskStep orderly) l l')
    (hunborn : l.device = .unborn) : l'.device = .unborn := by
  cases h with
  | refl => exact hunborn
  | single htask => exact htask.unborn hunborn

theorem run_sound {act : Act} (h : s.Sound) (hstep : s.run generation act = some s') : s'.Sound := by
  have hlines := run_line h (fun horderly => absurd horderly not_false) hstep generation
  obtain ⟨hlt, session, table, hact, rfl⟩ := run_eq_some hstep
  have htakes : Session.Takes (Line.TaskStep False) _ _ _ session table :=
    Session.step_takes (h.sized generation) (h.connected generation) (fun h => absurd h not_false) hact
  have hkept := htakes.toKeeps
  refine h.update hlt rfl (hkept.sized (h.sized generation)) (hkept.connected (h.connected generation))
    hkept.route (fun c _ hunborn => ?_) (fun hleft => ?_) (fun _ _ => id)
    (fun g hg => Function.update_of_ne hg _ _) rfl le_rfl fun _ => id
  · have hline := unborn_of_reflGen (hlines c) hunborn
    rw [line] at hline
    simp only [Function.update_self] at hline
    exact hline
  · rw [hkept.route]
    exact h.left generation (hkept.left hleft)

/-! ### A connector is gone -/

theorem unregister_eq_some (hstep : s.unregister generation = some s') :
    (s.sessions generation).bridgeReader = .leaving ∧
      (s.relay.registered (s.sessions generation).route generation = true ∧ s' =
          { s with
            relay := { s.relay with
              routes := s.relay.routes.erase (s.sessions generation).route
              devices := Function.update s.relay.devices generation [] }
            sessions := Function.update s.sessions generation
              { (s.sessions generation).closeDevices (s.relay.devices generation) with
                bridgeReader := .left } } ∨
        s.relay.registered (s.sessions generation).route generation = false ∧ s' =
          { s with
            sessions := Function.update s.sessions generation
              { s.sessions generation with bridgeReader := .left } }) := by
  rw [unregister] at hstep
  dsimp only at hstep
  split at hstep
  · next hleaving =>
    refine ⟨hleaving, ?_⟩
    obtain rfl := Option.some.inj hstep
    cases hregistered : s.relay.registered (s.sessions generation).route generation with
    | true => exact .inl ⟨rfl, by simp [RelayState.release, hregistered]⟩
    | false => exact .inr ⟨rfl, by simp [RelayState.release, hregistered]⟩
  · simp at hstep

theorem line_left (hleaving : self.bridgeReader = .leaving) (table : List ℕ)
    (registered : Bool) (c : UInt64) :
    { self with bridgeReader := .left }.line table registered c = self.line table registered c := by
  simp [Session.line, hleaving, BridgeReader.hand]

theorem unregister_line (hstep : s.unregister generation = some s') (g : ℕ) (c : UInt64) :
    Relation.ReflGen (Line.RouteStep orderly) (s.line g c) (s'.line g c) := by
  obtain ⟨hleaving, ⟨hregistered, rfl⟩ | ⟨hregistered, rfl⟩⟩ := unregister_eq_some hstep
  · by_cases hg : g = generation
    · subst hg
      have hroute : ((s.sessions g).closeDevices (s.relay.devices g)).route = (s.sessions g).route := rfl
      have hleaves : ((s.sessions g).closeDevices (s.relay.devices g)).bridgeReader = .leaving := hleaving
      have hgone : ∀ relay : RelayState,
          relay.routes = s.relay.routes.erase (s.sessions g).route →
          relay.registered (s.sessions g).route g = false := by
        intro relay hroutes
        rw [registered_erase hroutes, if_pos rfl]
      rw [line, line]
      simp only [Function.update_self]
      rw [line_left _ hleaves, hroute, hregistered, hgone _ ?_]
      · exact .single (closeDevices_step _ _ _ _)
      · rfl
    · refine reflGen_of_eq (line_congr (Function.update_of_ne hg _ _) (Function.update_of_ne hg _ _) ?_)
      rw [registered_erase rfl]
      split
      · next hsame =>
        obtain ⟨live, hlive, hgeneration⟩ := RelayState.registered_iff.mp hregistered
        rw [← hsame, registered_of_ne hlive (hgeneration ▸ Ne.symm hg)]
      · rfl
  · by_cases hg : g = generation
    · subst hg
      rw [line, line]
      simp only [Function.update_self]
      exact reflGen_of_eq (line_left _ hleaving _ _ _)
    · exact reflGen_of_eq (line_congr (Function.update_of_ne hg _ _) rfl rfl)

theorem unregister_sound (h : s.Sound) (hstep : s.unregister generation = some s') : s'.Sound := by
  obtain ⟨hleaving, hcases⟩ := unregister_eq_some hstep
  have hlt : generation < s.relay.nextGeneration := by
    by_contra hge
    rw [(h.untouched generation (not_lt.mp hge)).1] at hleaving
    cases hleaving
  have hsevered := (h.connected generation).bridgeReader (.inl hleaving)
  rcases hcases with ⟨hregistered, rfl⟩ | ⟨hregistered, rfl⟩
  · have hkept := closeDevices_keeps (s.sessions generation) (s.relay.devices generation)
    have hsized := hkept.sized (h.sized generation)
    have hconnected := hkept.connected (h.connected generation)
    refine h.update hlt rfl ⟨hsized.toHost, hsized.down, hsized.outgoing, hsized.up, hsized.opening⟩
      ⟨hconnected.bridgeWriter, hconnected.daemonWriter, fun _ => hsevered, hconnected.daemonReader⟩ rfl
      (fun c _ hunborn => (closeDevices_device _ _ _).trans hunborn) (fun _ => ?_) ?_
      (fun g hg => Function.update_of_ne hg _ _) rfl le_rfl fun _ => id
    · rw [registered_erase rfl]
      exact if_pos rfl
    · intro route live hlive
      dsimp only at hlive
      rw [Std.ExtTreeMap.getElem?_erase] at hlive
      split at hlive
      · cases hlive
      · exact hlive
  · have hsized := h.sized generation
    have hconnected := h.connected generation
    exact h.update hlt rfl ⟨hsized.toHost, hsized.down, hsized.outgoing, hsized.up, hsized.opening⟩
      ⟨hconnected.bridgeWriter, hconnected.daemonWriter, fun _ => hsevered, hconnected.daemonReader⟩ rfl
      (fun _ _ => id) (fun _ => hregistered) (fun _ _ => id) (fun _ _ => rfl) rfl le_rfl fun _ => id

/-! ### A device is led to a connector -/

theorem attach_cases {i : ℕ} (hstep : s.attach i = some s') : ∃ p, s.pending[i]? = some p ∧
    s.relay.nextConnection < 2 ^ 64 ∧
    (s' = { s with
        relay := { s.relay with nextConnection := s.relay.nextConnection + 1 }
        pending := s.pending.eraseIdx i } ∨
      (s.relay.devices p.generation).length < MAX_DEVICES_PER_ROUTE ∧ s' = { s with
        relay := { s.relay with
          nextConnection := s.relay.nextConnection + 1
          devices := Function.update s.relay.devices p.generation
            (s.relay.devices p.generation ++ [s.relay.nextConnection]) }
        pending := s.pending.eraseIdx i
        sessions := Function.update s.sessions p.generation
          ((s.sessions p.generation).setConnection (UInt64.ofNat s.relay.nextConnection)
            { (s.sessions p.generation).connections (UInt64.ofNat s.relay.nextConnection) with
              purpose := p.purpose, opening := p.opening, device := .attached }) }) := by
  rw [attach] at hstep
  split at hstep
  · simp at hstep
  next purpose route generation opening hpending =>
  refine ⟨_, hpending, ?_⟩
  split at hstep
  · simp at hstep
  next hroom =>
  refine ⟨not_le.mp hroom, ?_⟩
  rw [RelayState.attach] at hstep
  dsimp only at hstep
  by_cases hfull : MAX_DEVICES_PER_ROUTE ≤ (s.relay.devices generation).length
  · simp only [if_pos hfull] at hstep
    exact .inl (Option.some.inj hstep).symm
  · simp only [if_neg hfull] at hstep
    exact .inr ⟨not_le.mp hfull, (Option.some.inj hstep).symm⟩

theorem toNat_connection {connection : ℕ} (h : connection < 2 ^ 64) :
    (UInt64.ofNat connection).toNat = connection := by
  rw [UInt64.toNat_ofNat']
  exact Nat.mod_eq_of_lt h

theorem attach_line {i : ℕ} (h : s.Sound) (horderly : orderly → s.Fair (.attach i))
    (hstep : s.attach i = some s') (g : ℕ) (c : UInt64) :
    Relation.ReflGen (Line.RouteStep orderly) (s.line g c) (s'.line g c) := by
  obtain ⟨p, hpending, hroom, rfl | ⟨hplace, rfl⟩⟩ := attach_cases hstep
  · exact reflGen_of_eq (line_congr rfl rfl rfl)
  · by_cases hg : g = p.generation
    · subst hg
      rw [line, line]
      simp only [Function.update_self]
      by_cases hc : c = UInt64.ofNat s.relay.nextConnection
      · have hnumber : c.toNat = s.relay.nextConnection := hc ▸ toNat_connection hroom
        have hunborn := h.fresh p.generation c hnumber.ge
        have hregistered : orderly → (s.line p.generation c).registered = true ∨
            (s.line p.generation c).bridgeWriter = false := by
          intro hfair
          have hp := (horderly hfair p hpending).resolve_left (not_le.mpr hplace)
          rw [← (h.pending p (List.mem_of_getElem? hpending)).2.1] at hp
          exact hp
        have hentered : (s.relay.devices p.generation ++ [s.relay.nextConnection]).contains c.toNat =
            true := by
          simp [hnumber]
        have hline := Line.RouteStep.attaches _ (p.opening.getD []) hunborn hregistered
        rw [← hc]
        simp only [Session.line, Session.setConnection, Function.update_self, hentered]
        exact .single hline
      · have hnumber : c.toNat ≠ s.relay.nextConnection := by
          intro hsame
          rw [← toNat_connection hroom] at hsame
          exact hc (UInt64.toNat_inj.mp hsame)
        have hcontains : (s.relay.devices p.generation ++ [s.relay.nextConnection]).contains c.toNat =
            (s.relay.devices p.generation).contains c.toNat := by
          simp [hnumber]
        refine reflGen_of_eq ?_
        simp only [Session.line, Session.setConnection, Function.update_of_ne hc, hcontains]
        rfl
    · exact reflGen_of_eq (line_congr (Function.update_of_ne hg _ _) (Function.update_of_ne hg _ _) rfl)

theorem attach_sound {i : ℕ} (h : s.Sound) (hstep : s.attach i = some s') : s'.Sound := by
  obtain ⟨p, hpending, hroom, rfl | ⟨hplace, rfl⟩⟩ := attach_cases hstep
  · refine ⟨h.sized, h.connected, h.routes, h.untouched, fun g c hc => ?_, fun q hq => ?_, h.left⟩
    · exact h.fresh g c (Nat.le_of_succ_le hc)
    · exact h.pending q (List.mem_of_mem_eraseIdx hq)
  · obtain ⟨hlt, -, hopening⟩ := h.pending p (List.mem_of_getElem? hpending)
    have hsized := h.sized p.generation
    have hconnected := h.connected p.generation
    refine h.update hlt rfl ⟨hsized.toHost, hsized.down, hsized.outgoing, hsized.up, fun c => ?_⟩
      ⟨hconnected.bridgeWriter, hconnected.daemonWriter, hconnected.bridgeReader,
        hconnected.daemonReader⟩ rfl (fun c hc hunborn => ?_) (h.left p.generation) (fun _ _ => id)
      (fun g hg => Function.update_of_ne hg _ _) rfl (Nat.le_succ _)
      fun q hq => List.mem_of_mem_eraseIdx hq
    · by_cases hc : c = UInt64.ofNat s.relay.nextConnection
      · subst hc
        simpa only [Session.setConnection, Function.update_self] using hopening
      · simpa only [Session.setConnection, Function.update_of_ne hc] using hsized.opening c
    · have hother : c ≠ UInt64.ofNat s.relay.nextConnection := by
        rintro rfl
        rw [toNat_connection hroom] at hc
        exact absurd hc (Nat.not_succ_le_self _)
      simpa only [Session.setConnection, Function.update_of_ne hother] using hunborn

theorem lookUp_eq_some {purpose : Purpose} {opening : Option (List UInt8)}
    (hstep : s.lookUp purpose route opening = some s') : ∃ live, s.relay.routes[route]? = some live ∧
      s' = { s with pending := s.pending ++ [⟨purpose, route, live.generation, opening⟩] } := by
  obtain ⟨live, hlive, rfl⟩ := Option.map_eq_some_iff.mp hstep
  exact ⟨live, hlive, rfl⟩

theorem lookUp_sound {purpose : Purpose} {opening : Option (List UInt8)} (h : s.Sound)
    (hopening : ∀ request ∈ opening, purpose.Opens request)
    (hstep : s.lookUp purpose route opening = some s') : s'.Sound := by
  obtain ⟨live, hlive, rfl⟩ := lookUp_eq_some hstep
  refine ⟨h.sized, h.connected, h.routes, h.untouched, h.fresh, fun p hp => ?_, h.left⟩
  rcases List.mem_append.mp hp with hp | hp
  · exact h.pending p hp
  · obtain rfl := List.mem_singleton.mp hp
    obtain ⟨hlt, hroute⟩ := h.routes route live hlive
    exact ⟨hlt, hroute, hopening⟩

/-! ### Any step -/

theorem Sound.new : Tunnel.new.Sound := by
  have hroute : ∀ route : String, Tunnel.new.relay.routes[route]? = none := fun _ => rfl
  refine ⟨fun _ => new_sized "", fun _ => new_connected "", fun route live hlive => ?_,
    fun _ _ => ⟨rfl, rfl⟩, fun _ _ _ => rfl, fun p hp => ?_, fun g hleft => ?_⟩
  · rw [hroute] at hlive
    cases hlive
  · cases hp
  · cases hleft

theorem Sound.step {move : Move} (h : s.Sound) (hstep : s.step move = some s') : s'.Sound := by
  cases move with
  | register route digest =>
    obtain rfl := Option.some.inj hstep
    exact register_sound h route digest
  | request route head localTarget =>
    obtain ⟨rewritten, hrewritten, hlookUp⟩ := Option.bind_eq_some_iff.mp hstep
    refine lookUp_sound h (fun opening hopening => ?_) hlookUp
    obtain rfl := Option.mem_some.mp hopening
    exact ⟨head, localTarget, _, hrewritten, rfl⟩
  | pair route head body =>
    rw [Tunnel.step] at hstep
    split at hstep
    · next hbody =>
      refine lookUp_sound h (fun opening hopening => ?_) hstep
      obtain ⟨rewritten, hrewritten, rfl⟩ := Option.map_eq_some_iff.mp hopening
      exact ⟨head, "/pair", rewritten, hrewritten, body, hbody, rfl⟩
    · simp at hstep
  | attach i => exact attach_sound h hstep
  | run generation act => exact run_sound h hstep
  | unregister generation => exact unregister_sound h hstep

/-- **A step of the tunnel is a step of a line**, of each or of none. -/
theorem step_line {move : Move} (h : s.Sound) (horderly : orderly → s.Fair move)
    (hstep : s.step move = some s') (g : ℕ) (c : UInt64) :
    Relation.ReflGen (Line.Step orderly) (s.line g c) (s'.line g c) := by
  cases move with
  | register route digest =>
    obtain rfl := Option.some.inj hstep
    exact (register_line h route digest g c).mono fun _ _ => .route
  | request route head localTarget =>
    obtain ⟨rewritten, -, hlookUp⟩ := Option.bind_eq_some_iff.mp hstep
    obtain ⟨live, -, rfl⟩ := lookUp_eq_some hlookUp
    exact reflGen_of_eq (line_congr rfl rfl rfl)
  | pair route head body =>
    rw [Tunnel.step] at hstep
    split at hstep
    · obtain ⟨live, -, rfl⟩ := lookUp_eq_some hstep
      exact reflGen_of_eq (line_congr rfl rfl rfl)
    · simp at hstep
  | attach i => exact (attach_line h horderly hstep g c).mono fun _ _ => .route
  | run generation act => exact (run_line h horderly hstep g c).mono fun _ _ => .task
  | unregister generation => exact (unregister_line hstep g c).mono fun _ _ => .route


/-! ### Any run -/

theorem new_inv (route : String) (registered : Bool) (c : UInt64) :
    Line.Inv ((Session.new route).line [] registered c) := by
  refine ⟨⟨fun _ => ⟨rfl, rfl, rfl, rfl⟩, fun _ => ⟨rfl, rfl⟩, fun _ => ⟨rfl, rfl, rfl, rfl, rfl, rfl⟩,
    fun _ => .inl rfl, fun hpresent => absurd rfl hpresent, fun _ hdevice => ?_⟩, ?_, ?_⟩
  · rcases hdevice with hdevice | hdevice
    all_goals cases hdevice
  · exact .inr (.inr (.inr (.inr (.inr rfl))))
  · exact .inr (.inr (.inr (.inr (.inr rfl))))

theorem inv_of_reflGen {l l' : Line} (h : Relation.ReflGen (Line.Step orderly) l l') (hinv : l.Inv) :
    l'.Inv := by
  cases h with
  | refl => exact hinv
  | single hstep => exact hinv.step hstep

theorem Reachable.inv (h : s.Reachable) : s.Sound ∧ ∀ g c, (s.line g c).Inv := by
  induction h with
  | refl => exact ⟨.new, fun g c => new_inv "" _ c⟩
  | tail _ hstep ih =>
    obtain ⟨move, hmove⟩ := hstep
    obtain ⟨hsound, hlines⟩ := ih
    refine ⟨hsound.step hmove, fun g c => ?_⟩
    exact inv_of_reflGen (step_line hsound (fun h : False => h.elim) hmove g c) (hlines g c)

/-- One step that goes as it should. -/
def FairStep (s s' : Tunnel) : Prop := ∃ move, s.Fair move ∧ s.step move = some s'

theorem FairStep.reachable (h : Relation.ReflTransGen FairStep new s) : s.Reachable :=
  Relation.ReflTransGen.mono (fun _ _ ⟨move, _, hstep⟩ => ⟨move, hstep⟩) _ _ h

/-! ### A run -/

/-- A device was led to a connector that has no other. -/
structure Awaits (s : Tunnel) (route : String) (opening : List UInt8) : Prop where
  pending : s.pending = [⟨.terminal, route, 0, some opening⟩]
  session : s.sessions 0 = .new route
  devices : s.relay.devices 0 = []
  nextGeneration : 0 < s.relay.nextGeneration
  nextConnection : s.relay.nextConnection = 0
  others : ∀ g ≠ 0, ∃ other, s.sessions g = .new other

theorem setConnection_setConnection (c : UInt64) (held held' : Connection) :
    (self.setConnection c held).setConnection c held' = self.setConnection c held' := by
  simp [Session.setConnection]

theorem fairStep_session {g : ℕ} {session session' : Session} {act : Act}
    (hg : g < s.relay.nextGeneration) (hproxy : ∀ c failure, act = .proxy c failure →
      (session.connections c).proxy ≠ .reporting)
    (hact : session.step (s.relay.devices g) (s.relay.registered session.route g) act =
      some (session', s.relay.devices g)) :
    FairStep { s with sessions := Function.update s.sessions g session }
      { s with sessions := Function.update s.sessions g session' } := by
  refine ⟨.run g act, ?_, ?_⟩
  · simp only [Fair, Function.update_self]
    cases act with
    | proxy c failure => exact fun hreports => absurd hreports (hproxy c failure rfl)
    | _ => trivial
  · simp only [step, run, Function.update_self]
    rw [if_pos hg, hact]
    simp

/-- Its session on the way, with its first packet and its connection. -/
def stage (route : String) (toHost down : List Packet) (locals : List UInt64) (held : Connection) :
    Session :=
  { Session.new route with toHost, down, locals }.setConnection 0 held

/-- Its connection in the end. -/
def relayed (opening : List UInt8) : Connection :=
  { Connection.unborn with
    opening := some opening, device := .relaying, proxy := .relaying, localWritten := opening }

/-- The state in which the device has entered and its request has arrived. -/
def entered (s : Tunnel) (route : String) (opening : List UInt8) : Tunnel :=
  { s with
    relay := { s.relay with nextConnection := 1, devices := Function.update s.relay.devices 0 [0] }
    pending := []
    sessions := Function.update s.sessions 0 (stage route [] [] [0] (relayed opening)) }

theorem stage_connections (route : String) (toHost down : List Packet) (locals : List UInt64)
    (held : Connection) : (stage route toHost down locals held).connections 0 = held := by
  simp only [stage, Session.setConnection, Function.update_self]

theorem stage_setConnection (route : String) (toHost down : List Packet) (locals : List UInt64)
    (held held' : Connection) : (stage route toHost down locals held).setConnection 0 held' =
      stage route toHost down locals held' :=
  setConnection_setConnection _ _ _ _

section Stages

variable {route : String} {opening : List UInt8} {registered : Bool}

theorem stage_opens : (stage route [] [] []
      { Connection.unborn with opening := some opening, device := .attached }).step [0] registered
      (.device 0 none) =
    some (stage route [⟨OPEN, 0, opening⟩] [] []
      { Connection.unborn with opening := some opening, device := .relaying }, [0]) := by
  have hterminal : ¬(Connection.unborn.purpose = .pairing ∧
      Http.MAX_TUNNEL_CHUNK_BYTES < opening.length) := by
    simp [Connection.unborn]
  have hsend : ∀ held : Connection, (stage route [] [] [] held).sendHost ⟨OPEN, 0, opening⟩ =
      some (stage route [⟨OPEN, 0, opening⟩] [] [] held) := fun _ => rfl
  simp only [Session.step, Session.handlePublicConnection, stage_connections]
  rw [if_neg hterminal, hsend]
  simp only [stage_setConnection]

theorem stage_carries (held : Connection) :
    (stage route [⟨OPEN, 0, opening⟩] [] [] held).step [0] registered (.bridgeWriter true) =
      some (stage route [] [⟨OPEN, 0, opening⟩] [] held, [0]) := rfl

theorem stage_arrives (held : Connection) (hlength : opening.length ≤ Http.MAX_TUNNEL_CHUNK_BYTES) :
    (stage route [] [⟨OPEN, 0, opening⟩] [] held).step [0] registered .daemonReader =
      some (stage route [] [] [0] { held with proxy := .connecting opening, fromDevice := [] }, [0]) := by
  have hdecode : Packet.decode (Packet.encode ⟨OPEN, 0, opening⟩) = some ⟨OPEN, 0, opening⟩ :=
    Packet.decode_encode hlength
  have hreader : (stage route [] [⟨OPEN, 0, opening⟩] [] held).daemonReader = .reading := rfl
  have hdown : (stage route [] [⟨OPEN, 0, opening⟩] [] held).down = [⟨OPEN, 0, opening⟩] := rfl
  simp only [Session.step, Session.connectOnce, hreader, hdown, hdecode, if_true, Option.map_some,
    stage_connections]
  exact congrArg (fun session => some (session, [0])) (setConnection_setConnection
    { Session.new route with locals := [0] } 0 held _)

theorem stage_connects (held : Connection) (hproxy : held.proxy = .connecting opening) :
    (stage route [] [] [0] held).step [0] registered (.proxy 0 none) =
      some (stage route [] [] [0] { held with proxy := .forwarding opening }, [0]) := by
  simp only [Session.step, Session.proxyToLocal, stage_connections, hproxy, stage_setConnection]
  rfl

theorem stage_forwards (held : Connection) (hproxy : held.proxy = .forwarding opening) :
    (stage route [] [] [0] held).step [0] registered (.proxy 0 none) =
      some (stage route [] [] [0]
        { held with proxy := .relaying, localWritten := held.localWritten ++ opening }, [0]) := by
  simp only [Session.step, Session.proxyToLocal, stage_connections, hproxy, stage_setConnection]
  rfl

end Stages

/-- The device enters and its request arrives. -/
theorem Awaits.enters {route : String} {opening : List UInt8} (h : s.Awaits route opening)
    (hlength : opening.length ≤ Http.MAX_TUNNEL_CHUNK_BYTES) :
    ∃ s₁, s.step (.attach 0) = some s₁ ∧
      Relation.ReflTransGen FairStep s₁ (s.entered route opening) := by
  let s₁ : Tunnel := { s with
    relay := { s.relay with nextConnection := 1, devices := Function.update s.relay.devices 0 [0] }
    pending := []
    sessions := Function.update s.sessions 0 (stage route [] [] []
      { Connection.unborn with opening := some opening, device := .attached }) }
  refine ⟨s₁, ?_, ?_⟩
  · rw [step, attach, h.pending]
    simp only [List.getElem?_cons_zero, RelayState.attach, h.devices, h.nextConnection, h.session]
    rfl
  · have hg : 0 < s₁.relay.nextGeneration := h.nextGeneration
    have hdevices : s₁.relay.devices 0 = [0] := by simp only [s₁, Function.update_self]
    have hstages : ∀ session, { s₁ with sessions := Function.update s₁.sessions 0 session } =
        { s₁ with sessions := Function.update s.sessions 0 session } := by
      intro session
      simp only [s₁, Function.update_idem]
    have hsteps : ∀ session session' act,
        session.step [0] (s₁.relay.registered session.route 0) act = some (session', [0]) →
        (∀ c failure, act = .proxy c failure → (session.connections c).proxy ≠ .reporting) →
        FairStep { s₁ with sessions := Function.update s.sessions 0 session }
          { s₁ with sessions := Function.update s.sessions 0 session' } := by
      intro session session' act hact hproxy
      rw [← hstages session, ← hstages session']
      exact fairStep_session hg hproxy (by rw [hdevices]; exact hact)
    refine .tail (.tail (.tail (.tail (.single (hsteps _ _ _ stage_opens (by simp)))
      (hsteps _ _ _ (stage_carries _) (by simp))) (hsteps _ _ _ (stage_arrives _ hlength) (by simp)))
      (hsteps _ _ _ (stage_connects _ rfl) ?_)) (hsteps _ _ _ (stage_forwards _ rfl) ?_)
    all_goals
      rintro c failure hact
      obtain ⟨rfl, -⟩ := Act.proxy.inj hact
      rw [stage_connections]
      exact Proxy.noConfusion

/-- The state in which a connector has registered and a device was led to it. -/
def led (route digest : String) (opening : List UInt8) : Tunnel :=
  { new with
    relay := { RelayState.new with
      nextGeneration := 1
      routes := (∅ : Std.ExtTreeMap String LiveRoute).insert route ⟨digest, 0⟩ }
    sessions := Function.update new.sessions 0 (.new route)
    pending := [⟨.terminal, route, 0, some opening⟩] }

theorem led_reachable {route digest localTarget : String} {head opening : List UInt8}
    (hopening : Http.rewriteRequestTarget head localTarget = some opening) :
    Relation.ReflTransGen FairStep new (led route digest opening) := by
  have hregister : new.register route digest = { led route digest opening with pending := [] } := by
    simp [register, RelayState.claim, new, RelayState.new, led, MAX_ROUTES]
  have hroute : { led route digest opening with pending := [] }.relay.routes[route]? =
      some ⟨digest, 0⟩ := by
    simp [led]
  refine .tail (.single ⟨.register route digest, trivial, congrArg some hregister⟩)
    ⟨.request route head localTarget, trivial, ?_⟩
  rw [step, hopening, Option.bind_some, lookUp, hroute]
  rfl

theorem led_awaits (route digest : String) (opening : List UInt8) :
    (led route digest opening).Awaits route opening := by
  refine ⟨rfl, ?_, rfl, Nat.one_pos, rfl, fun g hg => ⟨"", ?_⟩⟩
  · simp only [led, Function.update_self]
  · exact Function.update_of_ne hg _ _

theorem entered_fair {route digest localTarget : String} {head opening : List UInt8}
    (hopening : Http.rewriteRequestTarget head localTarget = some opening) :
    Relation.ReflTransGen FairStep new ((led route digest opening).entered route opening) := by
  obtain ⟨s₁, hattach, hrun⟩ :=
    (led_awaits route digest opening).enters (length_rewriteRequestTarget hopening)
  have hfair : (led route digest opening).Fair (.attach 0) := by
    intro p hp
    obtain rfl := Option.some.inj hp
    exact .inr (.inl (by simp [led, RelayState.registered]))
  exact ((led_reachable hopening).tail ⟨.attach 0, hfair, hattach⟩).trans hrun

/-- A device asks for the first page. -/
def asked : List UInt8 := utf8 "GET /r/0123456789abcdef0123456789abcdef/ HTTP/1.1\r\n\r\n"

theorem asked_opens : ∃ opening, Http.rewriteRequestTarget asked "/" = some opening :=
  Option.isSome_iff_exists.mp (by decide +kernel)

/-- **A socket is written what was read at the other end**, in order and as far as it got, whatever the
queues could not take and whoever went away; and no packet on the way is one that its reader would
ignore. -/
theorem written_prefix_read (h : s.Reachable) (g : ℕ) (c : UInt64) :
    ((s.sessions g).connections c).deviceWritten <+: ((s.sessions g).connections c).localRead ∧
      ((s.sessions g).connections c).localWritten <+:
        ((s.sessions g).connections c).opening.getD [] ++ ((s.sessions g).connections c).deviceRead ∧
      (∀ opening ∈ ((s.sessions g).connections c).opening,
        ((s.sessions g).connections c).purpose.Opens opening) ∧
      ∀ packet ∈ (s.sessions g).toHost ++ (s.sessions g).down ++ (s.sessions g).outgoing ++
          (s.sessions g).up,
        packet.encode.length ≤ PACKET_HEAD_BYTES + MAX_TUNNEL_CHUNK_BYTES ∧
          Packet.decode packet.encode = some packet := by
  obtain ⟨hsound, hlines⟩ := h.inv
  have hsized := hsound.sized g
  refine ⟨(hlines g c).deviceWritten_prefix_localRead, (hlines g c).localWritten_prefix_sent,
    hsized.opening c, fun packet hpacket => ?_⟩
  have hlength : packet.payload.length ≤ MAX_TUNNEL_CHUNK_BYTES := by
    simp only [List.mem_append] at hpacket
    rcases hpacket with ((hpacket | hpacket) | hpacket) | hpacket
    · exact hsized.toHost packet hpacket
    · exact hsized.down packet hpacket
    · exact hsized.outgoing packet hpacket
    · exact hsized.up packet hpacket
  refine ⟨?_, Packet.decode_encode hlength⟩
  rw [Packet.length_encode]
  exact Nat.add_le_add_left hlength _

theorem written_prefix_read_entered : ∃ opening, Http.rewriteRequestTarget asked "/" = some opening ∧
    ∃ s : Tunnel, s.Reachable ∧ ((s.sessions 0).connections 0).localWritten = opening ∧
      opening <+: ((s.sessions 0).connections 0).opening.getD [] ++
        ((s.sessions 0).connections 0).deviceRead := by
  obtain ⟨opening, hopening⟩ := asked_opens
  let s := (led "0123456789abcdef0123456789abcdef" "secret" opening).entered
    "0123456789abcdef0123456789abcdef" opening
  have hreachable : s.Reachable := FairStep.reachable (entered_fair hopening)
  have hwritten : ((s.sessions 0).connections 0).localWritten = opening := by
    simp only [s, entered, Function.update_self, stage_connections]
    rfl
  have hprefix := (written_prefix_read hreachable 0 0).2.1
  rw [hwritten] at hprefix
  exact ⟨opening, hopening, s, hreachable, hwritten, hprefix⟩

end Steps

end Tunnel

end Bridge

end SuperHerdr
