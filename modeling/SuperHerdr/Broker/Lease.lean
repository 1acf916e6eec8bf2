import SuperHerdr.Broker.Authority

/-!
# The control lease

Two things are kept about a pane's lease: who holds it, and the access the route's stream was
opened with. They are written by different operations. `armed_iff_no_promotion` says exactly
which runs keep them in step: those in which no client asks for control of a pane whose route
runs as an observer and whose lease is free.

What a client believes about a lease is what it was last told. `lease_belief` says that every
subscriber was told the truth, whoever came, left, took the lease or lost it.
-/

namespace SuperHerdr

open Std Transducer

variable {E : Emulator}

/-! ### The lease and the access of the stream -/

namespace PaneView

/-- A pane is **armed** when a held lease comes with a stream that takes input. -/
def Armed (v : PaneView E) : Prop :=
  ∀ route client, v.route = some route → route.control = some client → route.access = .control

/-- An action that promotes an observing route in place: control is asked for while the lease
is free and the stream is an observer's. -/
def Promotes (v : PaneView E) (a : PaneAction) : Prop :=
  (∃ client cols rows representation, a = .subscribe client .control cols rows representation) ∧
    ∃ route, v.route = some route ∧ route.access = .observe ∧ route.control = none

theorem armed_of_route {v : PaneView E} {route : Route} (hr : v.route = some route)
    (h : ∀ client, route.control = some client → route.access = .control) : v.Armed := by
  intro route' client hr' hctl
  rw [hr] at hr'
  obtain rfl := Option.some.inj hr'
  exact h client hctl

theorem armed_of_no_route {v : PaneView E} (hr : v.route = none) : v.Armed := by
  intro route client hr'
  rw [hr] at hr'
  cases hr'

theorem armed_of_same {v v' : PaneView E} (hr : v'.route = v.route) (h : v.Armed) : v'.Armed := by
  intro route client hr' hctl
  exact h route client (hr ▸ hr') hctl

/-- Subscribing keeps a pane armed exactly when it does not promote the route in place. -/
theorem armed_subscribe_iff {v : PaneView E} (h : v.Armed) (pane : PaneId) (client : ClientId)
    (access : TerminalAccess) (cols rows : UInt16) (representation : PaneRepresentation) :
    (v.subscribe pane client access cols rows representation).1.Armed ↔
      ¬ v.Promotes (.subscribe client access cols rows representation) := by
  have hcontrol := Route.join_control v.route pane client access cols rows
  have haccess := Route.join_access v.route pane client access cols rows
  constructor
  · rintro harmed ⟨⟨client', cols', rows', representation', heq⟩, route, hr, hobserve, hfree⟩
    obtain ⟨rfl, rfl, rfl, rfl, rfl⟩ : client = client' ∧ access = .control ∧ cols = cols' ∧
      rows = rows' ∧ representation = representation' := by simpa using heq
    rw [hr] at hcontrol haccess
    simp only [Option.bind_some, hfree, and_self, if_true] at hcontrol
    have hcontrolled := harmed _ client rfl (hr ▸ hcontrol)
    rw [hr, haccess] at hcontrolled
    simp [hobserve] at hcontrolled
  · intro hpromotes
    refine armed_of_route rfl fun client' hctl => ?_
    rw [haccess]
    rw [hcontrol] at hctl
    cases hr : v.route with
    | none =>
      -- the route is opened with the access that was asked for
      simp only [hr, Option.bind_none, and_true] at hctl
      split_ifs at hctl with hasked
      exact hasked
    | some route =>
      simp only [hr, Option.bind_some] at hctl
      split_ifs at hctl with hfree
      · -- the lease was free and asked for, so the stream was not an observer's
        obtain ⟨rfl, hfree⟩ := hfree
        cases hopened : route.access with
        | control => simp [hopened]
        | observe =>
          exact absurd ⟨⟨client, cols, rows, representation, rfl⟩, route, hr, hopened, hfree⟩
            hpromotes
      · exact h route client' hr hctl

/-- **Every action but a promotion in place keeps a pane armed, and that one never does.** -/
theorem armed_act_iff {v : PaneView E} (h : v.Armed) (pane : PaneId) (a : PaneAction) :
    (v.act pane a).1.Armed ↔ ¬ v.Promotes a := by
  -- no other action promotes, so only the first half is left to show for them
  have hother : (∀ client access cols rows representation,
      a ≠ .subscribe client access cols rows representation) → (v.act pane a).1.Armed →
      ((v.act pane a).1.Armed ↔ ¬ v.Promotes a) := by
    intro hne harmed
    refine ⟨fun _ => ?_, fun _ => harmed⟩
    rintro ⟨⟨client, cols, rows, representation, rfl⟩, -⟩
    exact hne client .control cols rows representation rfl
  cases a with
  | subscribe client access cols rows representation =>
    exact armed_subscribe_iff h pane client access cols rows representation
  | leave client =>
    refine hother (by simp) ?_
    rcases v.leave_cases pane client with ⟨-, hact⟩ | ⟨-, ⟨hr, hact⟩ | ⟨route, hr,
      ⟨-, hact⟩ | ⟨-, screen, -, ⟨-, hact⟩ | ⟨-, hact⟩⟩⟩⟩
    · rw [act, hact]
      exact h
    · rw [act, hact]
      exact armed_of_no_route hr
    · rw [act, hact]
      exact armed_of_route rfl fun _ hctl => by cases hctl
    · rw [act, hact]
      exact armed_of_route rfl fun _ hctl => by cases hctl
    · rw [act, hact]
      exact armed_of_route rfl fun client' hctl => h route client' hr hctl
  | take client onlyIfFree =>
    refine hother (by simp) ?_
    rcases v.take_cases pane client onlyIfFree with hact | ⟨s, route, -, -, -, hact | hact⟩
    · rw [act, hact]
      exact h
    · rw [act, hact]
      exact h
    · rw [act, hact]
      exact armed_of_route rfl fun _ _ => by rw [Route.handOver_fst]
  | resize client cols rows =>
    refine hother (by simp) ?_
    rcases resize_cases v pane client cols rows with hact | ⟨route, hr, -, hact⟩
    · rw [act, hact]
      exact h
    · rw [act, hact]
      exact armed_of_route rfl fun client' hctl => h route client' hr hctl
  | ack client sequence =>
    refine hother (by simp) ?_
    exact armed_of_same (ack_route v pane client sequence) h
  | frame sequence width height full bytes =>
    refine hother (by simp) ?_
    exact armed_of_same (frame_route v pane sequence width height full bytes) h
  | expire =>
    refine hother (by simp) ?_
    rcases expire_cases v pane with hact | ⟨-, hact⟩
    · rw [act, hact]
      exact h
    · rw [act, hact]
      exact armed_of_no_route rfl
  | close =>
    refine hother (by simp) ?_
    exact armed_of_no_route (close_route v pane)
  | downgrade =>
    refine hother (by simp) ?_
    rcases v.downgrade_cases pane with hact | ⟨route, -, hact⟩
    · rw [act, hact]
      exact h
    · rw [act, hact]
      exact armed_of_route rfl fun _ hctl => by cases hctl

end PaneView

namespace Broker

/-- Whoever holds a lease sits on a route whose stream takes input. -/
def Armed (b : Broker E) : Prop :=
  ∀ (pane : PaneId) (route : Route) (client : ClientId), b.routes[pane]? = some route →
    route.control = some client → route.access = .control

/-- A greeted client asks for control of a pane whose route runs as an observer and whose lease
is free. -/
def PromotesInPlace (b : Broker E) (event : Event) : Prop :=
  ∃ (client : ClientId) (pane : PaneId) (cols rows : UInt16)
    (representation : PaneRepresentation) (route : Route),
    event = .handle client (.subscribePane pane .control cols rows representation) ∧
      b.greeted client = true ∧ b.routes[pane]? = some route ∧ route.access = .observe ∧
      route.control = none

theorem armed_iff_view {b : Broker E} : b.Armed ↔ ∀ pane, (b.view pane).Armed := by
  constructor
  · intro h pane route client hr
    rw [view_route] at hr
    exact h pane route client hr
  · intro h pane route client hr
    exact h pane route client (by rw [view_route, hr])

theorem promotesInPlace_iff_view {b : Broker E} {event : Event} :
    b.PromotesInPlace event ↔
      ∃ pane a, b.action pane event = some a ∧ (b.view pane).Promotes a := by
  constructor
  · rintro ⟨client, pane, cols, rows, representation, route, rfl, hg, hr, hobserve, hfree⟩
    refine ⟨pane, _, action_eq_subscribe.mpr ⟨hg, rfl⟩, ⟨client, cols, rows, representation, rfl⟩,
      route, ?_, hobserve, hfree⟩
    rw [view_route, hr]
  · rintro ⟨pane, a, haction, ⟨client, cols, rows, representation, rfl⟩, route, hr, hobserve,
      hfree⟩
    obtain ⟨hg, rfl⟩ := action_eq_subscribe.mp haction
    rw [view_route] at hr
    exact ⟨client, pane, cols, rows, representation, route, rfl, hg, hr, hobserve, hfree⟩

/-- A step keeps every pane armed exactly when it promotes none in place. -/
theorem armed_step_iff {b : Broker E} (hb : b.WellFormed) (h : b.Armed) (event : Event) :
    (b.step event).1.Armed ↔ ¬ b.PromotesInPlace event := by
  rw [armed_iff_view] at h ⊢
  rw [promotesInPlace_iff_view]
  constructor
  · rintro harmed ⟨pane, a, haction, hpromotes⟩
    have hpane := harmed pane
    rw [((projects pane).move b event a hb haction).1] at hpane
    exact (PaneView.armed_act_iff (h pane) pane a).mp hpane hpromotes
  · intro hnone pane
    cases haction : b.action pane event with
    | none =>
      rw [((projects pane).idle b event hb haction).1]
      exact h pane
    | some a =>
      rw [((projects pane).move b event a hb haction).1]
      exact (PaneView.armed_act_iff (h pane) pane a).mpr fun hp => hnone ⟨pane, a, haction, hp⟩

/-- **When a held lease comes with a stream that takes input**: in every state of a run,
exactly when no step of the run promotes an observing route in place. -/
theorem armed_iff_no_promotion (serverVersion : String) (features : List String)
    (quickReplies : List QuickReply) (events : List Event) :
    AllStates step Armed (Broker.new E serverVersion features quickReplies) events ↔
      AllSteps step (fun b event => ¬ b.PromotesInPlace event)
        (Broker.new E serverVersion features quickReplies) events := by
  have hinit : (Broker.new E serverVersion features quickReplies).Armed := by
    intro pane route client hr
    simp [Broker.new] at hr
  have hkept : ∀ (b : Broker E) event, b.WellFormed → (b.step event).1.WellFormed :=
    fun _ event hb => wellFormed_step hb event
  exact allStates_iff_allSteps hkept
    (fun b event hb harmed => (armed_step_iff hb harmed event).mpr)
    (fun b event hb harmed => (armed_step_iff hb harmed event).mp)
    (wellFormed_new serverVersion features quickReplies) hinit events

/-- One client observes a pane, and then another asks for control of it. -/
def observedThenControlled : List Event :=
  greeting 0 ++ greeting 1 ++
    [.handle 0 (.subscribePane pane₁ .observe 80 24 .frames),
      .handle 1 (.subscribePane pane₁ .control 80 24 .frames)]

/-- The second client holds the lease of a stream that was opened only to observe; its input
is passed on to that stream. -/
theorem controls_observing_route :
    ¬ (ran observedThenControlled).Armed ∧
      (ran observedThenControlled).routes[pane₁]?.map Route.access = some .observe ∧
      (ran observedThenControlled).routes[pane₁]?.bind Route.control = some 1 ∧
      ((ran observedThenControlled).handle 1 (.paneInput pane₁ [0x61])).2 =
        [.routeInput pane₁ [0x61]] := by
  have hroute : (ran observedThenControlled).routes[pane₁]?.map Route.access = some .observe := by
    decide
  have hlease : (ran observedThenControlled).routes[pane₁]?.bind Route.control = some 1 := by
    decide
  refine ⟨fun harmed => ?_, hroute, hlease, by decide⟩
  obtain ⟨route, hr, hobserve⟩ := Option.map_eq_some_iff.mp hroute
  rw [hr] at hlease
  have hcontrol := harmed pane₁ route 1 hr hlease
  rw [hobserve] at hcontrol
  cases hcontrol

end Broker

/-! ### What a client is told -/

/-- The access an effect tells one client it has to one pane. -/
def Effect.lease (client : ClientId) (pane : PaneId) : Effect → Option TerminalAccess
  | .send receiver (.paneLease p access) =>
      if receiver = client ∧ p = pane then some access else none
  | _ => none

/-- The access a list of effects last tells one client it has to one pane. -/
def lastLease (client : ClientId) (pane : PaneId) (effects : List Effect) :
    Option TerminalAccess :=
  (effects.filterMap (Effect.lease client pane)).getLast?

section LastLease

variable {client : ClientId} {pane : PaneId}

@[simp] theorem lastLease_nil : lastLease client pane [] = none := rfl

@[simp] theorem lastLease_cons (effect : Effect) (rest : List Effect) :
    lastLease client pane (effect :: rest) =
      (lastLease client pane rest).or (effect.lease client pane) := by
  rw [lastLease, List.filterMap_cons]
  cases effect.lease client pane with
  | none => simp [lastLease]
  | some access => simp [lastLease, List.getLast?_cons, Option.or_some]

theorem lastLease_append (es fs : List Effect) :
    lastLease client pane (es ++ fs) =
      (lastLease client pane fs).or (lastLease client pane es) := by
  simp [lastLease]

theorem lastLease_quiet {effects : List Effect}
    (h : ∀ effect ∈ effects, effect.lease client pane = none) :
    lastLease client pane effects = none := by
  rw [lastLease, List.filterMap_eq_nil_iff.mpr h]
  rfl

theorem lastLease_map (receivers : List ClientId) (access : TerminalAccess) :
    lastLease client pane (receivers.map fun receiver => .send receiver (.paneLease pane access)) =
      if client ∈ receivers then some access else none := by
  induction receivers with
  | nil => rfl
  | cons receiver rest ih =>
    rw [List.map_cons, lastLease_cons, ih]
    by_cases hrest : client ∈ rest
    · simp [hrest]
    · by_cases hhead : receiver = client
      · subst hhead
        simp [hrest, Effect.lease]
      · simp [hrest, hhead, Ne.symm hhead, Effect.lease]

/-- Only what is about the pane counts. -/
theorem lastLease_filter (effects : List Effect) :
    lastLease client pane (effects.filter (Effect.about pane)) = lastLease client pane effects := by
  induction effects with
  | nil => rfl
  | cons effect rest ih =>
    by_cases habout : effect.about pane = true
    · rw [List.filter_cons_of_pos habout, lastLease_cons, lastLease_cons, ih]
    · have hquiet : effect.lease client pane = none := by
        cases effect with
        | send receiver message =>
          cases message with
          | paneLease p access =>
            have hne : p ≠ pane := by simpa [Effect.about, ServerMessage.pane] using habout
            simp [Effect.lease, hne]
          | _ => rfl
        | _ => rfl
      rw [List.filter_cons_of_neg habout, lastLease_cons, ih, hquiet, Option.or_none]

theorem lastLease_resizeForControl (route : Route) (cols rows : UInt16) :
    lastLease client pane (route.resizeForControl pane cols rows).2 = none := by
  unfold Route.resizeForControl
  split_ifs <;> rfl

theorem lastLease_join (route : Option Route) (client' : ClientId) (access : TerminalAccess)
    (cols rows : UInt16) :
    lastLease client pane (Route.join route pane client' access cols rows).2.2 = none := by
  cases route with
  | none => rfl
  | some route =>
    simp only [Route.join]
    split_ifs
    · exact lastLease_resizeForControl _ cols rows
    · rfl
    · rfl

theorem lastLease_handOver (route : Route) (client' : ClientId) (cols rows : UInt16) :
    lastLease client pane (route.handOver pane client' cols rows).2 =
      if client' = client then some .control
      else if route.control = some client then some .observe else none := by
  by_cases haccess : route.access = .control <;> cases hprev : route.control <;>
    by_cases hnew : client' = client <;>
    simp [Route.handOver, Route.resizeForControl_fst, haccess, hprev, hnew, lastLease_append,
      lastLease_resizeForControl, Effect.lease]

theorem lastLease_dropControl (route : Route) :
    lastLease client pane (route.dropControl pane).2 =
      if client ∈ route.subscribers then some .observe else none := by
  have hreopened : lastLease client pane (if route.access = .control then
      [.closeRoute pane, .openRoute pane .observe route.cols route.rows] else []) = none := by
    split_ifs <;> rfl
  simp only [Route.dropControl]
  rw [lastLease_append, lastLease_map, hreopened]
  simp

end LastLease

/-- Whether an action is one client's subscription. -/
def PaneAction.subscribes (client : ClientId) : PaneAction → Bool
  | .subscribe client' _ _ _ _ => client' = client
  | _ => false

namespace PaneView

/-- The access a client has to a pane. -/
def granted (v : PaneView E) (client : ClientId) : TerminalAccess :=
  if v.route.bind Route.control = some client then .control else .observe

/-- A subscriber believes what is so. -/
def Told (v : PaneView E) (client : ClientId) (belief : Option TerminalAccess) : Prop :=
  v.sub client ≠ none → belief = some (v.granted client)

/-- What a client believes after an action. -/
def beliefAfter (v : PaneView E) (pane : PaneId) (client : ClientId) (a : PaneAction)
    (belief : Option TerminalAccess) : Option TerminalAccess :=
  (lastLease client pane (v.act pane a).2).or (if a.subscribes client then none else belief)

section Told

variable {v : PaneView E} {pane : PaneId} {client : ClientId} {a : PaneAction}
  {belief : Option TerminalAccess}

theorem told_of_lease
    (h : lastLease client pane (v.act pane a).2 = some ((v.act pane a).1.granted client)) :
    (v.act pane a).1.Told client (v.beliefAfter pane client a belief) := by
  intro _
  rw [beliefAfter, h, Option.some_or]

theorem told_of_quiet (h : v.Told client belief) (hnew : a.subscribes client = false)
    (hquiet : lastLease client pane (v.act pane a).2 = none)
    (hsub : (v.act pane a).1.sub client ≠ none → v.sub client ≠ none)
    (hsame : (v.act pane a).1.sub client ≠ none →
      (v.act pane a).1.granted client = v.granted client) :
    (v.act pane a).1.Told client (v.beliefAfter pane client a belief) := by
  intro hs
  rw [beliefAfter, hquiet, hnew, hsame hs]
  simpa using h (hsub hs)

theorem told_of_gone (h : (v.act pane a).1.sub client = none) :
    (v.act pane a).1.Told client (v.beliefAfter pane client a belief) :=
  fun hs => absurd h hs

theorem told_subscribe (h : v.Told client belief) (client' : ClientId) (access : TerminalAccess)
    (cols rows : UInt16) (representation : PaneRepresentation) :
    let a := PaneAction.subscribe client' access cols rows representation
    (v.act pane a).1.Told client (v.beliefAfter pane client a belief) := by
  intro a
  have hlease : lastLease client pane (v.act pane a).2 = if client' = client then
      some (Route.join v.route pane client' access cols rows).2.1 else none := by
    have hshown : lastLease client pane ((v.shownTo representation).map fun screen =>
        Effect.send client' (.paneScreen pane screen)).toList = none := by
      cases v.shownTo representation <;> rfl
    have heffects : (v.act pane a).2 = (Route.join v.route pane client' access cols rows).2.2 ++
        ((v.shownTo representation).map fun screen =>
          Effect.send client' (.paneScreen pane screen)).toList ++
        [.send client' (.paneLease pane (Route.join v.route pane client' access cols rows).2.1)] :=
      rfl
    rw [heffects, lastLease_append, lastLease_append, lastLease_join, hshown]
    by_cases hc : client' = client <;> simp [Effect.lease, hc]
  have hgranted : (v.act pane a).1.granted client =
      if (Route.join v.route pane client' access cols rows).1.control = some client then .control
      else .observe := rfl
  by_cases hc : client' = client
  · subst hc
    refine told_of_lease ?_
    rw [hlease, if_pos rfl, hgranted, Route.join_granted]
  · have hkept : (v.act pane a).1.sub client = v.sub client := by
      simp [a, act, subscribe, Ne.symm hc]
    refine told_of_quiet h (by simp [a, PaneAction.subscribes, hc]) (by rw [hlease, if_neg hc])
      (fun hs => hkept ▸ hs) fun _ => ?_
    rw [hgranted, Route.join_control, granted]
    split_ifs with hfree <;> simp_all

theorem told_leave (hv : v.Coherent) (h : v.Told client belief) (client' : ClientId) :
    (v.act pane (.leave client')).1.Told client
      (v.beliefAfter pane client (.leave client') belief) := by
  by_cases hc : client = client'
  · subst hc
    exact told_of_gone (by simp [act])
  have hsub : (v.act pane (.leave client')).1.sub client = v.sub client := by simp [act, hc]
  rcases v.leave_cases pane client' with ⟨-, hact⟩ | ⟨hleft, ⟨hr, -⟩ | ⟨route, hr, hleave⟩⟩
  · refine told_of_quiet h rfl ?_ (fun hs => hsub ▸ hs) fun _ => by rw [act, hact]
    rw [act, hact]
    rfl
  · exact absurd hr (hv.route_ne_none hleft)
  -- whoever still watches is among those left behind
  have hbehind : v.sub client ≠ none → client ∈ (route.without client').subscribers := by
    intro hs
    rw [← hv.mem_without hr, PaneView.without]
    simpa [hc] using hs
  rcases hleave with ⟨hnobody, -⟩ | ⟨-, screen, -, ⟨hctl, hact⟩ | ⟨hctl, hact⟩⟩
  · refine told_of_gone ?_
    rw [hsub]
    by_contra hs
    have hmem := hbehind hs
    rw [hnobody] at hmem
    simp at hmem
  · -- everybody left behind is told that nobody holds the lease
    by_cases hs : v.sub client = none
    · exact told_of_gone (by rw [hsub, hs])
    · refine told_of_lease ?_
      rw [act, hact, lastLease_dropControl, if_pos (hbehind hs)]
      simp [granted, Route.dropControl]
  · refine told_of_quiet h rfl ?_ (fun hs => hsub ▸ hs) fun _ => ?_
    · rw [act, hact]
      rfl
    · simp [act, hact, granted, hr, Route.without]

theorem told_take (h : v.Told client belief) (client' : ClientId) (onlyIfFree : Bool) :
    (v.act pane (.take client' onlyIfFree)).1.Told client
      (v.beliefAfter pane client (.take client' onlyIfFree) belief) := by
  have hsub : (v.act pane (.take client' onlyIfFree)).1.sub = v.sub :=
    take_sub v pane client' onlyIfFree
  rcases v.take_cases pane client' onlyIfFree with hact | ⟨s, route, -, hr, hmine, hact | hact⟩
  · refine told_of_quiet h rfl ?_ (fun hs => hsub ▸ hs) fun _ => by rw [act, hact]
    rw [act, hact]
    rfl
  · -- the asker is told that it was refused
    by_cases hc : client' = client
    · subst hc
      refine told_of_lease ?_
      simp [act, hact, Effect.lease, granted, hr, hmine]
    · refine told_of_quiet h rfl ?_ (fun hs => hsub ▸ hs) fun _ => by rw [act, hact]
      simp [act, hact, Effect.lease, hc]
  · have hlease : lastLease client pane (v.act pane (.take client' onlyIfFree)).2 =
        if client' = client then some .control
        else if route.control = some client then some .observe else none := by
      rw [act, hact, lastLease_handOver]
    have hgranted : (v.act pane (.take client' onlyIfFree)).1.granted client =
        if client' = client then .control else .observe := by
      simp [act, hact, granted, Route.handOver_fst]
    by_cases hc : client' = client
    · refine told_of_lease ?_
      rw [hlease, hgranted, if_pos hc, if_pos hc]
    · by_cases hprev : route.control = some client
      · refine told_of_lease ?_
        rw [hlease, hgranted, if_neg hc, if_neg hc, if_pos hprev]
      · refine told_of_quiet h rfl ?_ (fun hs => hsub ▸ hs) fun _ => ?_
        · rw [hlease, if_neg hc, if_neg hprev]
        · rw [hgranted, if_neg hc, granted, hr, Option.bind_some, if_neg hprev]

theorem told_of_same (h : v.Told client belief) (hnew : a.subscribes client = false)
    (hquiet : ∀ effect ∈ (v.act pane a).2, effect.lease client pane = none)
    (hsub : (v.act pane a).1.sub client ≠ none ↔ v.sub client ≠ none)
    (hroute : (v.act pane a).1.route.bind Route.control = v.route.bind Route.control) :
    (v.act pane a).1.Told client (v.beliefAfter pane client a belief) :=
  told_of_quiet h hnew (lastLease_quiet hquiet) hsub.mp fun _ => by rw [granted, hroute, granted]

theorem lease_updateFor (subscription : PaneSubscription) (rendered : Rendered)
    (receiver : ClientId) :
    (Effect.send receiver (subscription.updateFor pane rendered)).lease client pane = none := by
  unfold PaneSubscription.updateFor
  split
  · split_ifs <;> rfl
  · rfl

theorem told_resize (h : v.Told client belief) (client' : ClientId) (cols rows : UInt16) :
    (v.act pane (.resize client' cols rows)).1.Told client
      (v.beliefAfter pane client (.resize client' cols rows) belief) := by
  rcases resize_cases v pane client' cols rows with hact | ⟨route, hr, -, hact⟩
  · exact told_of_same h rfl (by simp [act, hact]) (by rw [act, hact]) (by rw [act, hact])
  · refine told_of_same h rfl (by simp [act, hact, Effect.lease]) ?_ (by simp [act, hact, hr])
    rw [act, hact]
    by_cases hc : client = client'
    · subst hc
      simp
    · simp [hc]

theorem told_ack (h : v.Told client belief) (client' : ClientId) (sequence : ℕ) :
    (v.act pane (.ack client' sequence)).1.Told client
      (v.beliefAfter pane client (.ack client' sequence) belief) := by
  refine told_of_same h rfl (fun effect he => ?_) (ack_sub_ne_none v pane client' client sequence)
    (by rw [act, ack_route])
  obtain ⟨subscription, rendered, rfl⟩ := mem_ack_effects he
  exact lease_updateFor subscription rendered client'

theorem told_frame (h : v.Told client belief) (sequence : ℕ) (width height : UInt16)
    (full : Bool) (bytes : List UInt8) :
    (v.act pane (.frame sequence width height full bytes)).1.Told client
      (v.beliefAfter pane client (.frame sequence width height full bytes) belief) := by
  refine told_of_same h rfl (fun effect he => ?_)
    (frame_sub_ne_none v pane sequence width height full bytes client) (by rw [act, frame_route])
  obtain ⟨receiver, rfl | ⟨subscription, rendered, rfl⟩⟩ := mem_frame_effects he
  · rfl
  · exact lease_updateFor subscription rendered receiver

theorem told_of_no_route (hv : (v.act pane a).1.Coherent) (hr : (v.act pane a).1.route = none) :
    (v.act pane a).1.Told client (v.beliefAfter pane client a belief) :=
  fun hs => absurd hr (hv.route_ne_none hs)

theorem told_expire (hv : v.Coherent) (h : v.Told client belief) :
    (v.act pane .expire).1.Told client (v.beliefAfter pane client .expire belief) := by
  rcases v.expire_cases pane with hact | ⟨-, hact⟩
  · exact told_of_same h rfl (by simp [act, hact]) (by rw [act, hact]) (by rw [act, hact])
  · exact told_of_no_route (hv.expire pane) (by rw [act, hact])

theorem told_downgrade (hv : v.Coherent) (h : v.Told client belief) :
    (v.act pane .downgrade).1.Told client (v.beliefAfter pane client .downgrade belief) := by
  rcases v.downgrade_cases pane with hact | ⟨route, hr, hact⟩
  · exact told_of_same h rfl (by simp [act, hact]) (by rw [act, hact]) (by rw [act, hact])
  · by_cases hs : v.sub client = none
    · exact told_of_gone (by rw [act, hact]; exact hs)
    · -- everybody who watches is told
      have hmem : client ∈ route.subscribers.toList :=
        ExtTreeSet.mem_toList.mpr ((hv.mem_iff hr client).mp hs)
      refine told_of_lease ?_
      rw [act, hact, lastLease_map, if_pos hmem]
      simp [granted]

/-- **Every action tells each subscriber what it needs to know.** -/
theorem told_act (hv : v.Coherent) (h : v.Told client belief) (a : PaneAction) :
    (v.act pane a).1.Told client (v.beliefAfter pane client a belief) := by
  cases a with
  | subscribe client' access cols rows representation =>
    exact told_subscribe h client' access cols rows representation
  | leave client' => exact told_leave hv h client'
  | take client' onlyIfFree => exact told_take h client' onlyIfFree
  | resize client' cols rows => exact told_resize h client' cols rows
  | ack client' sequence => exact told_ack h client' sequence
  | frame sequence width height full bytes => exact told_frame h sequence width height full bytes
  | expire => exact told_expire hv h
  | close => exact told_of_no_route (hv.close pane) (close_route v pane)
  | downgrade => exact told_downgrade hv h

end Told

end PaneView

/-! ### Beliefs along a run -/

/-- Whether an event is one client's `SubscribePane` for one pane. -/
def Event.subscribes (client : ClientId) (pane : PaneId) : Event → Bool
  | .handle client' (.subscribePane pane' _ _ _ _) => client' = client ∧ pane' = pane
  | _ => false

theorem Event.subscribes_iff {client : ClientId} {pane : PaneId} {event : Event} :
    event.subscribes client pane = true ↔ ∃ access cols rows representation,
      event = .handle client (.subscribePane pane access cols rows representation) := by
  constructor
  · intro h
    cases event with
    | handle client' message =>
      cases message with
      | subscribePane pane' access cols rows representation =>
        obtain ⟨rfl, rfl⟩ : client' = client ∧ pane' = pane := by simpa [subscribes] using h
        exact ⟨access, cols, rows, representation, rfl⟩
      | _ => cases h
    | _ => cases h
  · rintro ⟨access, cols, rows, representation, rfl⟩
    simp [subscribes]

namespace Broker

theorem greeted_of_subscription {b : Broker E} (hb : b.WellFormed) {client : ClientId}
    {pane : PaneId} (h : b.subscription client pane ≠ none) : b.greeted client = true := by
  cases hc : b.clients[client]? with
  | none => simp [subscription, subscriptionIn, hc] at h
  | some session =>
    by_contra hg
    have hungreeted : session.greeted = false := by simpa [greeted, hc] using hg
    have hnone := hb.greeted client session hc hungreeted pane
    simp [subscription, subscriptionIn, hc, hnone] at h

theorem subscribes_of_action {b : Broker E} {pane : PaneId} {event : Event} {a : PaneAction}
    (h : b.action pane event = some a) (client : ClientId) :
    event.subscribes client pane = a.subscribes client := by
  rw [Bool.eq_iff_iff, Event.subscribes_iff]
  constructor
  · rintro ⟨access, cols, rows, representation, rfl⟩
    simp only [action, messageAction] at h
    split_ifs at h
    obtain rfl := Option.some.inj h
    simp [PaneAction.subscribes]
  · intro ha
    cases a with
    | subscribe client' access cols rows representation =>
      obtain rfl : client' = client := by simpa [PaneAction.subscribes] using ha
      exact ⟨access, cols, rows, representation, (action_eq_subscribe.mp h).2⟩
    | _ => cases ha

/-- What a client believes about a pane's lease: what it was last told since it last
subscribed. -/
def believe (client : ClientId) (pane : PaneId) (belief : Option TerminalAccess) (_ : Broker E)
    (event : Event) (result : Broker E × List Effect) : Option TerminalAccess :=
  (lastLease client pane result.2).or (if event.subscribes client pane then none else belief)

/-- What a client believes about a pane's lease after a run. -/
def belief (E : Emulator) (serverVersion : String) (features : List String)
    (quickReplies : List QuickReply) (client : ClientId) (pane : PaneId) (events : List Event) :
    Option TerminalAccess :=
  (exec (observe step (believe client pane))
    (Broker.new E serverVersion features quickReplies, none) events).1.2

/-- A subscriber believes what is so, after every run. -/
theorem told_after (serverVersion : String) (features : List String)
    (quickReplies : List QuickReply) (events : List Event) (client : ClientId) (pane : PaneId) :
    ((after E serverVersion features quickReplies events).view pane).Told client
      (belief E serverVersion features quickReplies client pane events) := by
  have hinit : (Broker.new E serverVersion features quickReplies).view pane = .empty :=
    view_new serverVersion features quickReplies pane
  have hrun := (projects (E := E) pane).observe_invariant (u := believe client pane)
    (J := fun v belief => v.Coherent ∧ v.Told client belief) ?_ ?_
    (wellFormed_new serverVersion features quickReplies)
    (s := Broker.new E serverVersion features quickReplies) (g := none) ?_ events
  · rw [exec_observe_fst] at hrun
    exact hrun.2
  · -- nothing happens to the pane: only a client that was not greeted asked for it
    intro b event belief hb hidle hbelief
    refine ⟨hbelief.1, fun hs => ?_⟩
    have hquiet : lastLease client pane (b.step event).2 = none := by
      rw [← lastLease_filter, ((projects pane).idle b event hb hidle).2]
      rfl
    have hnot : event.subscribes client pane = false := by
      by_contra hsubscribes
      obtain ⟨access, cols, rows, representation, rfl⟩ :=
        Event.subscribes_iff.mp (by simpa using hsubscribes)
      have hg : b.greeted client = true := greeted_of_subscription hb hs
      simp [action, messageAction, hg] at hidle
    rw [believe, hquiet, hnot, hbelief.2 hs]
    rfl
  · intro b event a belief hb haction hbelief
    refine ⟨hbelief.1.act pane a, ?_⟩
    have hout := ((projects pane).move b event a hb haction).2
    rw [believe, ← lastLease_filter, hout, subscribes_of_action haction client]
    exact PaneView.told_act hbelief.1 hbelief.2 a
  · rw [hinit]
    exact ⟨PaneView.coherent_empty, fun hs => absurd rfl hs⟩

theorem view_granted (b : Broker E) (client : ClientId) (pane : PaneId) :
    (b.view pane).granted client =
      if b.holdsControl client pane then .control else .observe := by
  simp [PaneView.granted, holdsControl]

/-- A subscriber that was last told that it controls the pane. -/
def Believes (b : Broker E) (client : ClientId) (pane : PaneId)
    (belief : Option TerminalAccess) : Prop :=
  b.subscription client pane ≠ none ∧ belief = some .control

/-- **Lease beliefs agree with the lease**, over every run: a subscriber was told of its access
since it last subscribed, and last told the truth. So at most one client believes that it
controls a pane, its input is accepted, and nobody else's is. -/
theorem lease_belief (serverVersion : String) (features : List String)
    (quickReplies : List QuickReply) (events : List Event) (pane : PaneId) :
    let b := after E serverVersion features quickReplies events
    let believed := fun client =>
      belief E serverVersion features quickReplies client pane events
    (∀ client, b.subscription client pane ≠ none →
      believed client = some (if b.holdsControl client pane then .control else .observe)) ∧
    (∀ client client', b.Believes client pane (believed client) →
      b.Believes client' pane (believed client') → client = client') ∧
    (∀ client bytes, b.Believes client pane (believed client) →
      b.handle client (.paneInput pane bytes) = (b, [.routeInput pane bytes])) ∧
    (∀ client message bytes, Effect.routeInput pane bytes ∈ (b.handle client message).2 →
      b.Believes client pane (believed client)) := by
  intro b believed
  have htold : ∀ client, b.subscription client pane ≠ none →
      believed client = some (if b.holdsControl client pane then .control else .observe) := by
    intro client hs
    have h := told_after (E := E) serverVersion features quickReplies events client pane hs
    rwa [view_granted] at h
  have hb : b.Coherent := coherent_of_view fun pane =>
    view_after_coherent serverVersion features quickReplies events pane
  -- believing and holding are one thing
  have hholds : ∀ client, b.Believes client pane (believed client) →
      b.holdsControl client pane = true := by
    rintro client ⟨hs, hcontrol⟩
    rw [htold client hs] at hcontrol
    by_contra hnot
    simp [hnot] at hcontrol
  refine ⟨htold, fun client client' h h' => ?_, fun client bytes h => ?_,
    fun client message bytes he => ?_⟩
  · have hheld : b.routes[pane]?.bind Route.control = some client := by
      simpa [holdsControl] using hholds client h
    have hheld' : b.routes[pane]?.bind Route.control = some client' := by
      simpa [holdsControl] using hholds client' h'
    rw [hheld] at hheld'
    exact Option.some.inj hheld'
  · have hg := greeted_of_subscription
      (wellFormed_after serverVersion features quickReplies events) h.1
    rw [handle_of_greeted hg, serve, withLease_of_held (hholds client h)]
  · have hcommands : Commands b client pane :=
      commands_of_exercises hb he (by simp [Effect.exercises])
    obtain ⟨route, hr, hmem⟩ := hcommands.subscribed
    have hs : b.subscription client pane ≠ none := by
      have hview := view_after_coherent (E := E) serverVersion features quickReplies events pane
      exact (hview.mem_iff (by rw [view_route]; exact hr) client).mpr hmem
    refine ⟨hs, ?_⟩
    rw [htold client hs, if_pos]
    simpa [holdsControl] using hcommands.control

end Broker

end SuperHerdr
