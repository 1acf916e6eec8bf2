import SuperHerdr.Daemon.Loop

/-!
# Route incarnations

A pane's route may be opened again and again: when a control lease promotes an observing stream,
when its holder leaves, when the last subscriber leaves and another comes. What a reader
enqueues names its pane and not the opening it reads for, so an input left in the queue by one
opening is handled as if it came from the next.

`incarnations_apart` says when that does not happen: in every run in which a route is opened
only when no input of its pane's routes is queued, and a replaced reader enqueues nothing while
its pane has a route, every input is handled while the opening it came from is still the pane's
last, or while the pane has no route that it could reach.
-/

namespace SuperHerdr

open Std Transducer

variable {E : Emulator}

/-- Effects that open the route of one pane. -/
def Effect.opens (pane : PaneId) : Effect → Bool
  | .openRoute p _ _ _ => p = pane
  | _ => false

/-! ### The broker opens the routes it makes -/

/-- An action that gives a pane a route opens it. -/
theorem PaneView.opens_of_act {v : PaneView E} (hr : v.route = none) (pane : PaneId)
    (a : PaneAction) (h : (v.act pane a).1.route ≠ none) :
    ∃ effect ∈ (v.act pane a).2, effect.opens pane = true := by
  cases a with
  | subscribe client access cols rows representation =>
    refine ⟨.openRoute pane access cols rows, ?_, by simp [Effect.opens]⟩
    simp [act, subscribe, hr, Route.join]
  | leave client =>
    rcases v.leave_cases pane client with ⟨-, hact⟩ | ⟨-, ⟨-, hact⟩ | ⟨route, hr', -⟩⟩
    · exact absurd (by rw [act, hact, hr]) h
    · exact absurd (by rw [act, hact]; exact hr) h
    · exact absurd (hr.symm.trans hr') (by simp)
  | take client onlyIfFree =>
    rcases v.take_cases pane client onlyIfFree with hact | ⟨s, route, -, hr', -⟩
    · exact absurd (by rw [act, hact, hr]) h
    · exact absurd (hr.symm.trans hr') (by simp)
  | resize client cols rows =>
    rcases v.resize_cases pane client cols rows with hact | ⟨route, hr', -⟩
    · exact absurd (by rw [act, hact, hr]) h
    · exact absurd (hr.symm.trans hr') (by simp)
  | ack client sequence => exact absurd (by rw [act, ack_route, hr]) h
  | frame sequence width height full bytes => exact absurd (by rw [act, frame_route, hr]) h
  | expire =>
    rcases v.expire_cases pane with hact | ⟨-, hact⟩
    · exact absurd (by rw [act, hact, hr]) h
    · exact absurd (by rw [act, hact]) h
  | close => exact absurd (close_route v pane) h
  | downgrade =>
    rcases v.downgrade_cases pane with hact | ⟨route, hr', -⟩
    · exact absurd (by rw [act, hact, hr]) h
    · exact absurd (hr.symm.trans hr') (by simp)

namespace Broker

/-- A call after which a pane has a route it had not opens it. -/
theorem opens_of_step {b : Broker E} (hb : b.WellFormed) {event : Event} {pane : PaneId}
    (hnone : pane ∉ b.routes) (hsome : pane ∈ (b.step event).1.routes) :
    ∃ effect ∈ (b.step event).2, effect.opens pane = true := by
  have hroute : (b.view pane).route = none := by
    rw [view_route, ExtTreeMap.getElem?_eq_none hnone]
  have hroute' : ((b.step event).1.view pane).route ≠ none := by
    rw [view_route]
    simpa using hsome
  cases haction : b.action pane event with
  | none =>
    rw [((projects pane).idle b event hb haction).1] at hroute'
    exact absurd hroute hroute'
  | some a =>
    obtain ⟨hview, hout⟩ := (projects pane).move b event a hb haction
    rw [hview] at hroute'
    obtain ⟨effect, he, hopens⟩ := PaneView.opens_of_act hroute pane a hroute'
    rw [← hout] at he
    exact ⟨effect, List.mem_of_mem_filter he, hopens⟩

theorem opens_of_exec {b : Broker E} (hb : b.WellFormed) {events : List Event} {pane : PaneId}
    (hnone : pane ∉ b.routes) (hsome : pane ∈ (exec step b events).1.routes) :
    ∃ effect ∈ (exec step b events).2, effect.opens pane = true := by
  induction events generalizing b with
  | nil => exact absurd hsome hnone
  | cons event events ih =>
    rw [exec_cons] at hsome ⊢
    by_cases hnow : pane ∈ (b.step event).1.routes
    · obtain ⟨effect, he, hopens⟩ := opens_of_step hb hnone hnow
      exact ⟨effect, List.mem_append_left _ he, hopens⟩
    · obtain ⟨effect, he, hopens⟩ := ih (wellFormed_step hb event) hnow hsome
      exact ⟨effect, List.mem_append_right _ he, hopens⟩

theorem wellFormed_exec {b : Broker E} (hb : b.WellFormed) (events : List Event) :
    (exec step b events).1.WellFormed := by
  have hstep : ∀ (b : Broker E) event, b.WellFormed → (b.step event).1.WellFormed :=
    fun _ event hb => wellFormed_step hb event
  exact exec_invariant hstep hb events

end Broker

theorem Queued.route_of_speaks {queued : Queued} {pane : PaneId} {opening : ℕ}
    (h : queued.speaks = some (pane, opening)) : queued.input.route = some pane := by
  obtain ⟨route, hroute, hmap⟩ := Option.bind_eq_some_iff.mp h
  obtain ⟨origin, -, heq⟩ := Option.map_eq_some_iff.mp hmap
  rw [hroute, (Prod.mk.inj heq).1]

namespace Daemon

/-! ### The daemon drives the broker by calls -/

/-- Handling an input is some calls of the broker, whose effects are pending. -/
theorem handle_calls (d : Daemon E) (input : Input) :
    ∃ events, exec Broker.step d.broker events =
      ((d.handle input).broker, (d.handle input).pending) := by
  cases input with
  | connected gone =>
    cases gone with
    | true => exact ⟨[.connect, .disconnect d.broker.connect.2], by simp [handle, Broker.step]⟩
    | false => exact ⟨[.connect], by simp [handle, Broker.step]⟩
  | received client message => exact ⟨[.handle client message], exec_singleton _ _ _⟩
  | disconnected client => exact ⟨[.disconnect client], exec_singleton _ _ _⟩
  | federation state => exact ⟨[.federationUpdated state], exec_singleton _ _ _⟩
  | frame pane sequence width height full bytes =>
    exact ⟨[.paneFrame pane sequence width height full bytes], exec_singleton _ _ _⟩
  | routeClosed pane => exact ⟨[.paneRouteClosed pane], exec_singleton _ _ _⟩
  | operationDone client request applied message pluginRun =>
    exact ⟨[.operationCompleted client request applied message pluginRun], exec_singleton _ _ _⟩
  | reconfigured invalidated =>
    exact ⟨(d.routes.keys.filter invalidated).map .paneRouteClosed, exec_map _ _ _ _⟩

theorem reportDowngraded_calls (d : Daemon E) :
    ∃ events, d.reportDowngraded.broker = (exec Broker.step d.broker events).1 ∧
      d.reportDowngraded.pending = d.pending ++ (exec Broker.step d.broker events).2 := by
  refine ⟨d.downgraded.map .routeDowngraded, ?_⟩
  rw [exec_map]
  exact ⟨rfl, rfl⟩

/-- Performing an effect is some calls of the broker, whose effects come last. -/
theorem perform_calls (spawn : ℕ → Spawning) (d : Daemon E) (effect : Effect) :
    ∃ events, (d.perform spawn effect).1.broker = (exec Broker.step d.broker events).1 ∧
      (d.perform spawn effect).1.pending = d.pending ++ (exec Broker.step d.broker events).2 := by
  cases effect with
  | disconnect client reason =>
    refine ⟨[.disconnect client], ?_⟩
    rw [exec_singleton]
    exact ⟨rfl, rfl⟩
  | routeUnclaimed pane =>
    refine ⟨[.closeIfUnclaimed pane], ?_⟩
    rw [exec_singleton]
    exact ⟨rfl, rfl⟩
  | openRoute pane access cols rows =>
    refine ⟨[], ?_⟩
    simp only [perform, openRoute, exec_nil, List.append_nil]
    cases (spawn d.openings).attempt access <;> exact ⟨rfl, rfl⟩
  | _ => exact ⟨[], rfl, (List.append_nil _).symm⟩

/-! ### Which opening an input reaches -/

/-- The pane has no route: none is open, and the broker keeps none. -/
def vacant (d : Daemon E) (pane : PaneId) : Bool :=
  pane ∉ d.routes ∧ pane ∉ d.broker.routes

/-- An input of an opening reaches no later one: that was the pane's last opening, or the pane
has no route. -/
def reachesOwn (d : Daemon E) (pane : PaneId) (opening : ℕ) : Bool :=
  d.latest[pane]? = some opening || d.vacant pane

/-- The pane and the opening whose input is handled at a step. -/
def handled (d : Daemon E) : Move → Option (PaneId × ℕ)
  | .next => if d.pending = [] then d.inputs.head?.bind Queued.speaks else none
  | _ => none

/-- No input of an opening is handled while the pane has a later route. -/
def Apart (d : Daemon E) (move : Move) : Prop :=
  ∀ pane opening, d.handled move = some (pane, opening) → d.reachesOwn pane opening = true

/-- A step that leaves no input behind for another opening: a route is opened only when no input
of its pane's routes is queued, and a reader enqueues only for the pane's last opening, or while
the pane has no route. -/
def leavesNothing (d : Daemon E) : Move → Bool
  | .next =>
      match d.pending with
      | .openRoute pane _ _ _ :: _ => d.inputs.all fun queued => queued.input.route ≠ some pane
      | _ => true
  | .read opening _ _ _ _ _ | .ended opening =>
      d.readers[opening]?.all fun pane => d.reachesOwn pane opening
  | .arrive _ => true

/-- An input of an opening is accounted for: the opening is the pane's last, or no route is open
and if the broker keeps one then it is still to be opened. -/
def Accounted (d : Daemon E) (pane : PaneId) (opening : ℕ) : Prop :=
  d.latest[pane]? = some opening ∨ pane ∉ d.routes ∧
    (pane ∈ d.broker.routes → ∃ effect ∈ d.pending, effect.opens pane = true)

/-- Every queued input of a route is accounted for. -/
structure Tidy (d : Daemon E) : Prop where
  wellFormed : d.broker.WellFormed
  accounted : ∀ queued ∈ d.inputs, ∀ pane opening, queued.speaks = some (pane, opening) →
    d.Accounted pane opening

/-- Calls of the broker keep an input accounted for, as long as no effect that opens its pane's
route is dropped. -/
theorem Accounted.of_calls {d d' : Daemon E} {pane : PaneId} {opening : ℕ}
    (h : d.Accounted pane opening) (hb : d.broker.WellFormed)
    (hlatest : d'.latest[pane]? = d.latest[pane]?) (hroutes : pane ∈ d'.routes → pane ∈ d.routes)
    {events : List Event} (hbroker : d'.broker = (exec Broker.step d.broker events).1)
    (hpending : ∀ effect ∈ d.pending ++ (exec Broker.step d.broker events).2,
      effect.opens pane = true → effect ∈ d'.pending) : d'.Accounted pane opening := by
  rcases h with hown | ⟨hclosed, hopening⟩
  · exact .inl (hlatest.trans hown)
  · refine .inr ⟨fun hmem => hclosed (hroutes hmem), fun hmem => ?_⟩
    rw [hbroker] at hmem
    by_cases hbefore : pane ∈ d.broker.routes
    · obtain ⟨effect, he, hopens⟩ := hopening hbefore
      exact ⟨effect, hpending effect (List.mem_append_left _ he) hopens, hopens⟩
    · obtain ⟨effect, he, hopens⟩ := Broker.opens_of_exec hb hbefore hmem
      exact ⟨effect, hpending effect (List.mem_append_right _ he) hopens, hopens⟩

variable {d : Daemon E}

theorem Accounted.reachesOwn {pane : PaneId} {opening : ℕ}
    (h : d.Accounted pane opening) (hpending : d.pending = []) :
    d.reachesOwn pane opening = true := by
  rcases h with hown | ⟨hclosed, hopening⟩
  · simp [Daemon.reachesOwn, hown]
  · have hbroker : pane ∉ d.broker.routes := by
      intro hmem
      obtain ⟨effect, he, -⟩ := hopening hmem
      rw [hpending] at he
      cases he
    simp [Daemon.reachesOwn, vacant, hclosed, hbroker]

theorem accounted_of_reachesOwn {pane : PaneId} {opening : ℕ}
    (h : d.reachesOwn pane opening = true) : d.Accounted pane opening := by
  simp only [Daemon.reachesOwn, vacant, Bool.or_eq_true, decide_eq_true_eq] at h
  rcases h with hown | ⟨hclosed, hbroker⟩
  · exact .inl hown
  · exact .inr ⟨hclosed, fun hmem => absurd hmem hbroker⟩

/-! ### Every step keeps the queue accounted for -/

theorem Tidy.of_calls {d d' : Daemon E} (h : d.Tidy)
    (hsame : d'.inputs = d.inputs ∧ d'.latest = d.latest ∧ ∀ pane ∈ d'.routes, pane ∈ d.routes)
    {events : List Event} (hbroker : d'.broker = (exec Broker.step d.broker events).1)
    (hpending : d'.pending = d.pending ++ (exec Broker.step d.broker events).2) : d'.Tidy := by
  obtain ⟨hinputs, hlatest, hroutes⟩ := hsame
  refine ⟨hbroker ▸ Broker.wellFormed_exec h.wellFormed events, ?_⟩
  rw [hinputs]
  intro queued hqueued pane opening hspeaks
  refine (h.accounted queued hqueued pane opening hspeaks).of_calls h.wellFormed (by rw [hlatest])
    (hroutes pane) hbroker fun effect he _ => ?_
  rwa [hpending]

theorem Tidy.handle (h : d.Tidy) (hpending : d.pending = []) (input : Input) :
    (d.handle input).Tidy := by
  obtain ⟨events, hcalls⟩ := d.handle_calls input
  have hbroker : (d.handle input).broker = (exec Broker.step d.broker events).1 := by rw [hcalls]
  have hnext : (d.handle input).pending = (exec Broker.step d.broker events).2 := by rw [hcalls]
  have hsame : (d.handle input).inputs = d.inputs ∧ (d.handle input).latest = d.latest ∧
      ∀ pane ∈ (d.handle input).routes, pane ∈ d.routes := by
    cases input with
    | connected gone => cases gone <;> exact ⟨rfl, rfl, fun _ h => h⟩
    | routeClosed pane =>
      refine ⟨rfl, rfl, fun pane' hmem => ?_⟩
      exact ExtTreeMap.mem_of_mem_erase hmem
    | reconfigured invalidated =>
      refine ⟨rfl, rfl, fun pane hmem => ?_⟩
      exact ExtTreeMap.mem_of_mem_filter hmem
    | _ => exact ⟨rfl, rfl, fun _ h => h⟩
  refine h.of_calls hsame hbroker ?_
  rw [hnext, hpending, List.nil_append]

theorem Tidy.reportDowngraded (h : d.Tidy) : d.reportDowngraded.Tidy := by
  obtain ⟨events, hbroker, hpending⟩ := d.reportDowngraded_calls
  exact h.of_calls ⟨rfl, rfl, fun _ hmem => hmem⟩ hbroker hpending

/-- Opening a route that no queued input speaks for. -/
theorem Tidy.openRoute (h : d.Tidy) (spawn : ℕ → Spawning) (pane : PaneId)
    (access : TerminalAccess) (hquiet : ∀ queued ∈ d.inputs, queued.input.route ≠ some pane) :
    (d.openRoute spawn pane access).Tidy := by
  -- what is queued speaks for other panes, of which nothing changes
  have hother : ∀ d' : Daemon E, d'.broker = d.broker → d'.pending = d.pending →
      d'.latest = d.latest.insert pane d.openings →
      (∀ pane' ∈ d'.routes, pane ≠ pane' → pane' ∈ d.routes) →
      ∀ queued ∈ d.inputs, ∀ pane' opening, queued.speaks = some (pane', opening) →
        d'.Accounted pane' opening := by
    intro d' hbroker hpending hlatest hroutes queued hqueued pane' opening hspeaks
    have hne : pane ≠ pane' := by
      rintro rfl
      exact hquiet queued hqueued (Queued.route_of_speaks hspeaks)
    have hcalls : d'.broker = (exec Broker.step d.broker []).1 := hbroker
    refine (h.accounted queued hqueued pane' opening hspeaks).of_calls h.wellFormed ?_
      (fun hmem => hroutes pane' hmem hne) hcalls ?_
    · rw [hlatest, ExtTreeMap.getElem?_insert, if_neg (by simpa using hne)]
    · intro effect he _
      rw [exec_nil, List.append_nil] at he
      rwa [hpending]
  unfold Daemon.openRoute
  simp only
  split
  · refine ⟨h.wellFormed, fun queued hqueued pane' opening hspeaks => ?_⟩
    rcases List.mem_append.mp hqueued with hqueued | hqueued
    · refine hother _ ?_ ?_ ?_ ?_ queued hqueued pane' opening hspeaks
      · rfl
      · rfl
      · rfl
      · exact fun _ hmem _ => ExtTreeMap.mem_of_mem_erase hmem
    · -- the opening that failed is the pane's last
      rw [List.mem_singleton.mp hqueued] at hspeaks
      obtain ⟨rfl, rfl⟩ := Prod.mk.inj (Option.some.inj hspeaks)
      exact .inl (by simp)
  all_goals
    refine ⟨h.wellFormed, hother _ rfl rfl rfl fun pane' hmem hne => ?_⟩
    rcases ExtTreeMap.mem_insert.mp hmem with heq | hmem
    · exact absurd (by simpa using heq) hne
    · exact ExtTreeMap.mem_of_mem_erase hmem

theorem Tidy.perform (h : d.Tidy) (spawn : ℕ → Spawning) {effect : Effect}
    (hne : ∀ pane access cols rows, effect ≠ .openRoute pane access cols rows) :
    (d.perform spawn effect).1.Tidy := by
  obtain ⟨events, hbroker, hpending⟩ := d.perform_calls spawn effect
  have hsame : (d.perform spawn effect).1.inputs = d.inputs ∧
      (d.perform spawn effect).1.latest = d.latest ∧
      ∀ pane ∈ (d.perform spawn effect).1.routes, pane ∈ d.routes := by
    cases effect with
    | openRoute pane access cols rows => exact absurd rfl (hne pane access cols rows)
    | closeRoute pane => exact ⟨rfl, rfl, fun _ hmem => ExtTreeMap.mem_of_mem_erase hmem⟩
    | _ => exact ⟨rfl, rfl, fun _ h => h⟩
  exact h.of_calls hsame hbroker hpending

theorem Tidy.drop (h : d.Tidy) {effect : Effect} {pending : List Effect}
    (hpending : d.pending = effect :: pending)
    (hquiet : ∀ queued ∈ d.inputs, ∀ pane opening, queued.speaks = some (pane, opening) →
      effect.opens pane = false) : ({ d with pending } : Daemon E).Tidy := by
  refine ⟨h.wellFormed, fun queued hqueued pane opening hspeaks => ?_⟩
  rcases h.accounted queued hqueued pane opening hspeaks with hown | ⟨hclosed, hopening⟩
  · exact .inl hown
  · refine .inr ⟨hclosed, fun hmem => ?_⟩
    obtain ⟨effect', he, hopens⟩ := hopening hmem
    rw [hpending] at he
    rcases List.mem_cons.mp he with rfl | he
    · rw [hquiet queued hqueued pane opening hspeaks] at hopens
      cases hopens
    · exact ⟨effect', he, hopens⟩

/-- The loop performs its next effect, which opens no route that a queued input speaks for. -/
theorem Tidy.performNext (h : d.Tidy) (spawn : ℕ → Spawning) {effect : Effect}
    {pending : List Effect} (hpending : d.pending = effect :: pending)
    (hquiet : ∀ pane, effect.opens pane = true → ∀ queued ∈ d.inputs,
      queued.input.route ≠ some pane) :
    (({ d with pending } : Daemon E).reportDowngraded.perform spawn effect).1.Tidy := by
  have hdropped : ({ d with pending } : Daemon E).Tidy := by
    refine h.drop hpending fun queued hqueued pane opening hspeaks => ?_
    by_contra hopens
    exact hquiet pane (by simpa using hopens) queued hqueued (Queued.route_of_speaks hspeaks)
  cases effect with
  | openRoute pane access cols rows =>
    exact hdropped.reportDowngraded.openRoute spawn pane access
      (hquiet pane (decide_eq_true rfl))
  | _ => exact hdropped.reportDowngraded.perform spawn fun _ _ _ _ heq => by cases heq

theorem Tidy.takeNext (h : d.Tidy) (hpending : d.pending = []) {queued : Queued}
    {inputs : List Queued} (hinputs : d.inputs = queued :: inputs) :
    (({ d with inputs } : Daemon E).handle queued.input).Tidy := by
  have htaken : ({ d with inputs } : Daemon E).Tidy := by
    refine ⟨h.wellFormed, fun queued' hqueued => h.accounted queued' ?_⟩
    rw [hinputs]
    exact List.mem_cons_of_mem _ hqueued
  exact htaken.handle hpending queued.input

theorem Tidy.enqueue (h : d.Tidy) {input : Input} {pane : PaneId} {opening : ℕ}
    (hroute : input.route = some pane) (hown : d.reachesOwn pane opening = true) :
    (d.enqueue input opening).Tidy := by
  refine ⟨h.wellFormed, fun queued hqueued pane' opening' hspeaks => ?_⟩
  rcases List.mem_append.mp hqueued with hqueued | hqueued
  · exact h.accounted queued hqueued pane' opening' hspeaks
  · rw [List.mem_singleton.mp hqueued, Queued.speaks, hroute] at hspeaks
    obtain ⟨rfl, rfl⟩ := Prod.mk.inj (Option.some.inj hspeaks)
    exact accounted_of_reachesOwn hown

/-- **A step that leaves nothing behind keeps the queue accounted for.** -/
theorem Tidy.step (h : d.Tidy) (spawn : ℕ → Spawning) {move : Move}
    (hmove : d.leavesNothing move = true) : (d.step spawn move).1.Tidy := by
  cases move with
  | arrive input =>
    simp only [Daemon.step]
    split
    · next hroute =>
      refine ⟨h.wellFormed, fun queued hqueued pane opening hspeaks => ?_⟩
      rcases List.mem_append.mp hqueued with hqueued | hqueued
      · exact h.accounted queued hqueued pane opening hspeaks
      · rw [List.mem_singleton.mp hqueued, Queued.speaks, hroute] at hspeaks
        cases hspeaks
    · exact h
  | read opening sequence width height full bytes =>
    simp only [Daemon.step, leavesNothing] at hmove ⊢
    split
    · next pane hreader =>
      rw [hreader] at hmove
      exact h.enqueue rfl hmove
    · exact h
  | ended opening =>
    simp only [Daemon.step, leavesNothing] at hmove ⊢
    split
    · next pane hreader =>
      rw [hreader] at hmove
      have hread : ({ d with readers := d.readers.erase opening } : Daemon E).Tidy :=
        ⟨h.wellFormed, h.accounted⟩
      exact hread.enqueue rfl hmove
    · exact h
  | next =>
    simp only [Daemon.step, leavesNothing] at hmove ⊢
    cases hpending : d.pending with
    | nil =>
      simp only
      cases hinputs : d.inputs with
      | nil => exact h
      | cons queued inputs => exact h.takeNext hpending hinputs
    | cons effect pending =>
      refine h.performNext spawn hpending fun pane hopens => ?_
      rw [hpending] at hmove
      cases effect with
      | openRoute pane' access cols rows =>
        obtain rfl : pane' = pane := of_decide_eq_true hopens
        simpa using hmove
      | _ => cases hopens

theorem Tidy.apart (h : d.Tidy) (move : Move) : d.Apart move := by
  intro pane opening hhandled
  cases move with
  | next =>
    simp only [handled] at hhandled
    split_ifs at hhandled with hpending
    obtain ⟨queued, hqueued, hspeaks⟩ := Option.bind_eq_some_iff.mp hhandled
    exact (h.accounted queued (List.mem_of_mem_head? hqueued) pane opening hspeaks).reachesOwn
      hpending
  | _ => cases hhandled

/-- **Incarnations of a route do not interfere** in any run that leaves no input of one opening
behind for another. -/
theorem incarnations_apart (spawn : ℕ → Spawning) (serverVersion : String)
    (features : List String) (quickReplies : List QuickReply) (moves : List Move)
    (h : AllSteps (step spawn) (fun d move => d.leavesNothing move = true)
      (Daemon.new E serverVersion features quickReplies) moves) :
    AllSteps (step spawn) Apart (Daemon.new E serverVersion features quickReplies) moves := by
  refine allSteps_of_allSteps (fun d move htidy hmove => Tidy.step htidy spawn hmove)
    (fun d move htidy _ => Tidy.apart htidy move) ⟨?_, ?_⟩ h
  · exact Broker.wellFormed_new serverVersion features quickReplies
  · intro queued hqueued
    cases hqueued

/-- A host on which every terminal can be spawned. -/
def obliging (_ : ℕ) : Spawning := ⟨true, fun _ => true⟩

/-- An input arrives, and the loop takes it and performs `effects` effects. -/
def served (input : Input) (effects : ℕ) : List Move :=
  .arrive input :: List.replicate (effects + 1) .next

/-- A client connects, is greeted and observes a pane. -/
def observing : List Move :=
  served (.connected false) 0 ++ served (.received 0 (.hello PROTOCOL_VERSION "tui")) 1 ++
    served (.received 0 (.subscribePane Broker.pane₁ .observe 80 24 .frames)) 2

/-- The client takes control of the pane once the frames of its first stream were handled. -/
def promotedInTurn : List Move :=
  observing ++ [.read 0 1 80 24 true [0x61], .next, .next] ++
    served (.received 0 (.takePaneControl Broker.pane₁ false)) 3 ++
    [.read 1 1 80 24 true [0x62], .next, .next]

theorem incarnations_apart_in_turn :
    AllSteps (step obliging) (fun d move => d.leavesNothing move = true)
        (Daemon.new teletype "0.9.0" [] []) promotedInTurn ∧
      AllSteps (step obliging) Apart (Daemon.new teletype "0.9.0" [] []) promotedInTurn :=
  have h : AllSteps (step obliging) (fun d move => d.leavesNothing move = true)
      (Daemon.new teletype "0.9.0" [] []) promotedInTurn := by decide
  ⟨h, incarnations_apart obliging "0.9.0" [] [] promotedInTurn h⟩

/-- The first stream ends after the client asked for control, and before that was served. -/
def promotedBehind : List Move :=
  observing ++ [.arrive (.received 0 (.takePaneControl Broker.pane₁ false)), .ended 0] ++
    List.replicate 4 .next

/-- **The end of one stream closes the next**: the report that the first stream ended is handled
when the second is open, and takes the second one with it. -/
theorem stale_end_closes_route :
    ¬ AllSteps (step obliging) Apart (Daemon.new teletype "0.9.0" [] [])
        (promotedBehind ++ [.next]) ∧
      (exec (step obliging) (Daemon.new teletype "0.9.0" [] []) promotedBehind).1.routes[
        Broker.pane₁]? = some 1 ∧
      (exec (step obliging) (Daemon.new teletype "0.9.0" [] [])
        (promotedBehind ++ [.next])).1.vacant Broker.pane₁ = true := by
  refine ⟨fun h => ?_, by decide, by decide⟩
  have hown := AllSteps.of_append h Broker.pane₁ 0 (by decide)
  revert hown
  decide

end Daemon

end SuperHerdr
