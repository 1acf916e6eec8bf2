import SuperHerdr.Broker.Representation

/-!
# The size of a pane

A pane's size is kept three times: each subscription carries the size its client asked for,
the route carries the size of the stream, and the I/O layer was last told a size by the
effects. The route and the I/O layer always agree (`PaneView.Announced.act`). The holder's
subscription agrees with them as long as the holder does not subscribe again with another
size: that writes the subscription and nothing else.

`sized_iff_no_resubscription` says so exactly, of every state of a run.
-/

namespace SuperHerdr

open Std Transducer

variable {E : Emulator}

/-- What the I/O layer was last told of the size of one pane. -/
def sizeStep (pane : PaneId) (told : Option (UInt16 × UInt16)) :
    Effect → Option (UInt16 × UInt16)
  | .openRoute p _ cols rows | .routeResize p cols rows =>
      if p = pane then some (cols, rows) else told
  | _ => told

theorem sizeStep_of_not_about {pane : PaneId} (told : Option (UInt16 × UInt16)) (effect : Effect)
    (h : effect.about pane = false) : sizeStep pane told effect = told := by
  cases effect <;> simp_all [Effect.about, sizeStep]

/-! ### What the functions on routes tell -/

section SizeStep

variable {pane : PaneId}

theorem foldl_sizeStep_map_send (receivers : List ClientId) (message : ClientId → ServerMessage)
    (told : Option (UInt16 × UInt16)) :
    (receivers.map fun receiver => Effect.send receiver (message receiver)).foldl
      (sizeStep pane) told = told := by
  refine foldl_of_ignored (fun effect he told => ?_) told
  obtain ⟨receiver, -, rfl⟩ := List.mem_map.mp he
  rfl

theorem foldl_sizeStep_resizeForControl (route : Route) (cols rows : UInt16) :
    (route.resizeForControl pane cols rows).2.foldl (sizeStep pane)
      (some (route.cols, route.rows)) = some (cols, rows) := by
  unfold Route.resizeForControl
  split_ifs with hsize
  · obtain ⟨rfl, rfl⟩ := hsize
    rfl
  · simp [sizeStep]

/-- Whoever joins a route, what was told is the size of the route. -/
theorem foldl_sizeStep_join (route : Option Route) (client : ClientId) (access : TerminalAccess)
    (cols rows : UInt16) {told : Option (UInt16 × UInt16)}
    (h : ∀ r, route = some r → told = some (r.cols, r.rows)) :
    (Route.join route pane client access cols rows).2.2.foldl (sizeStep pane) told =
      some ((Route.join route pane client access cols rows).1.cols,
        (Route.join route pane client access cols rows).1.rows) := by
  cases route with
  | none => simp [Route.join, sizeStep]
  | some r =>
    rw [h r rfl]
    simp only [Route.join]
    split_ifs
    · rw [Route.resizeForControl_fst]
      exact foldl_sizeStep_resizeForControl
        { r with unclaimed := false, subscribers := _, control := some client } cols rows
    · rfl
    · rfl

theorem foldl_sizeStep_handOver (route : Route) (client : ClientId) (cols rows : UInt16) :
    (route.handOver pane client cols rows).2.foldl (sizeStep pane)
      (some (route.cols, route.rows)) = some (cols, rows) := by
  have hresized : (({ route with control := some client } : Route).resizeForControl pane cols
      rows).2.foldl (sizeStep pane) (some (route.cols, route.rows)) = some (cols, rows) :=
    foldl_sizeStep_resizeForControl { route with control := some client } cols rows
  simp only [Route.handOver, List.foldl_append, Route.resizeForControl_fst]
  rw [hresized]
  split_ifs <;> cases route.control <;> simp [sizeStep]

theorem foldl_sizeStep_dropControl (route : Route) :
    (route.dropControl pane).2.foldl (sizeStep pane) (some (route.cols, route.rows)) =
      some (route.cols, route.rows) := by
  simp only [Route.dropControl, List.foldl_append]
  rw [foldl_sizeStep_map_send]
  split_ifs
  · simp [sizeStep]
  · rfl

end SizeStep

namespace PaneView

/-! ### The route and the I/O layer -/

/-- The I/O layer was last told the size of the route. -/
def Announced (v : PaneView E) (told : Option (UInt16 × UInt16)) : Prop :=
  ∀ route, v.route = some route → told = some (route.cols, route.rows)

variable {told : Option (UInt16 × UInt16)} {v : PaneView E}

theorem announced_of_route {route : Route}
    (hr : v.route = some route) (h : told = some (route.cols, route.rows)) : v.Announced told := by
  intro route' hr'
  rw [hr] at hr'
  rw [h, ← Option.some.inj hr']

theorem announced_of_no_route (hr : v.route = none) : v.Announced told := by
  intro route hr'
  rw [hr] at hr'
  cases hr'

theorem Announced.of_quiet {v v' : PaneView E}
    (h : v.Announced told) (hroute : v'.route = v.route) {pane : PaneId} {effects : List Effect}
    (hquiet : ∀ effect ∈ effects, ∀ told, sizeStep pane told effect = told) :
    v'.Announced (effects.foldl (sizeStep pane) told) := by
  rw [foldl_of_ignored hquiet]
  intro route hr
  exact h route (hroute ▸ hr)

/-- **Whatever happens to a pane, the I/O layer was last told the size of its route.** -/
theorem Announced.act (h : v.Announced told) (pane : PaneId) (a : PaneAction) :
    (v.act pane a).1.Announced ((v.act pane a).2.foldl (sizeStep pane) told) := by
  cases a with
  | subscribe client access cols rows representation =>
    refine announced_of_route rfl ?_
    simp only [PaneView.act, PaneView.subscribe, List.foldl_append]
    rw [foldl_sizeStep_join v.route client access cols rows h]
    cases v.shownTo representation <;> rfl
  | leave client =>
    rcases v.leave_cases pane client with ⟨-, hact⟩ | ⟨-, ⟨hr, hact⟩ | ⟨route, hr,
      ⟨-, hact⟩ | ⟨-, screen, -, ⟨-, hact⟩ | ⟨-, hact⟩⟩⟩⟩
    · rw [PaneView.act, hact]
      exact h
    · rw [PaneView.act, hact]
      exact announced_of_no_route hr
    · rw [PaneView.act, hact]
      exact announced_of_route rfl (h route hr)
    · rw [PaneView.act, hact, h route hr]
      exact announced_of_route rfl (foldl_sizeStep_dropControl (route.without client))
    · rw [PaneView.act, hact]
      exact announced_of_route rfl (h route hr)
  | take client onlyIfFree =>
    rcases v.take_cases pane client onlyIfFree with hact | ⟨s, route, -, hr, -, hact | hact⟩
    · rw [PaneView.act, hact]
      exact h
    · rw [PaneView.act, hact]
      exact h
    · rw [PaneView.act, hact, h route hr, foldl_sizeStep_handOver]
      exact announced_of_route rfl (by rw [Route.handOver_fst])
  | resize client cols rows =>
    rcases v.resize_cases pane client cols rows with hact | ⟨route, -, -, hact⟩
    · rw [PaneView.act, hact]
      exact h
    · rw [PaneView.act, hact]
      exact announced_of_route rfl (by simp [sizeStep])
  | ack client sequence =>
    refine h.of_quiet (ack_route v pane client sequence) fun effect he told => ?_
    obtain ⟨subscription, rendered, rfl⟩ := mem_ack_effects he
    rfl
  | frame sequence width height full bytes =>
    refine h.of_quiet (frame_route v pane sequence width height full bytes) fun effect he told => ?_
    obtain ⟨receiver, rfl | ⟨subscription, rendered, rfl⟩⟩ := mem_frame_effects he <;> rfl
  | expire =>
    rcases v.expire_cases pane with hact | ⟨-, hact⟩
    · rw [PaneView.act, hact]
      exact h
    · rw [PaneView.act, hact]
      exact announced_of_no_route rfl
  | close => exact announced_of_no_route (close_route v pane)
  | downgrade =>
    rcases v.downgrade_cases pane with hact | ⟨route, hr, hact⟩
    · rw [PaneView.act, hact]
      exact h
    · rw [PaneView.act, hact, foldl_sizeStep_map_send]
      exact announced_of_route rfl (h route hr)

/-! ### The route and the holder -/

/-- The size a client asked for, if it watches the pane. -/
def asked (v : PaneView E) (client : ClientId) : Option (UInt16 × UInt16) :=
  (v.sub client).map fun s => (s.cols, s.rows)

@[simp] theorem ack_asked (v : PaneView E) (pane : PaneId) (client client' : ClientId)
    (sequence : ℕ) : (v.ack pane client sequence).1.asked client' = v.asked client' := by
  rcases v.ack_eq pane client sequence with h | ⟨s, sent, outstanding, hs, h⟩
  · rw [h]
  · rw [h]
    by_cases hc : client' = client
    · subst hc
      simp [asked, hs]
    · simp [asked, hc]

@[simp] theorem frame_asked (v : PaneView E) (pane : PaneId) (client : ClientId) (sequence : ℕ)
    (width height : UInt16) (full : Bool) (bytes : List UInt8) :
    (v.frame pane sequence width height full bytes).1.asked client = v.asked client := by
  rcases v.frame_cases pane sequence width height full bytes with
    ⟨-, hact⟩ | ⟨route, -, ⟨-, hact⟩ | ⟨-, hact⟩⟩
  · rw [hact]
  · rw [hact]
    rfl
  · rw [hact]
    simp only [asked, render]
    split
    · rw [Option.map_map]
      refine Option.map_congr fun s _ => ?_
      obtain ⟨sent, outstanding, hoffered⟩ := s.offered_eq pane _
      rw [Function.comp_apply, hoffered]
    · rfl

/-- The pane has the size its control holder asked for. -/
def Sized (v : PaneView E) : Prop :=
  ∀ route client, v.route = some route → route.control = some client →
    v.asked client = some (route.cols, route.rows)

/-- An action by which the control holder asks for another size without resizing the pane. -/
def Outgrows (v : PaneView E) (a : PaneAction) : Prop :=
  ∃ client access cols rows representation route,
    a = .subscribe client access cols rows representation ∧ v.route = some route ∧
      route.control = some client ∧ (cols, rows) ≠ (route.cols, route.rows)

theorem sized_of_route {route : Route} (hr : v.route = some route)
    (h : ∀ client, route.control = some client → v.asked client = some (route.cols, route.rows)) :
    v.Sized := by
  intro route' client hr' hctl
  rw [hr] at hr'
  obtain rfl := Option.some.inj hr'
  exact h client hctl

theorem sized_of_no_route (hr : v.route = none) : v.Sized := by
  intro route client hr'
  rw [hr] at hr'
  cases hr'

theorem Sized.of_same {v v' : PaneView E} (h : v.Sized) (hr : v'.route = v.route)
    (hasked : ∀ client, v'.asked client = v.asked client) : v'.Sized := by
  intro route client hr' hctl
  rw [hasked]
  exact h route client (hr ▸ hr') hctl

theorem subscribe_asked (v : PaneView E) (pane : PaneId) (client client' : ClientId)
    (access : TerminalAccess) (cols rows : UInt16) (representation : PaneRepresentation) :
    (v.subscribe pane client access cols rows representation).1.asked client' =
      if client' = client then some (cols, rows) else v.asked client' := by
  by_cases hc : client' = client
  · subst hc
    simp only [asked, PaneView.subscribe, Function.update_self, Option.map_some, if_true]
    cases v.shownTo representation <;> rfl
  · simp [asked, PaneView.subscribe, hc]

/-- Subscribing keeps the pane at its holder's size exactly when it is not the holder asking for
another one. -/
theorem sized_subscribe_iff (h : v.Sized) (pane : PaneId) (client : ClientId)
    (access : TerminalAccess) (cols rows : UInt16) (representation : PaneRepresentation) :
    (v.subscribe pane client access cols rows representation).1.Sized ↔
      ¬ v.Outgrows (.subscribe client access cols rows representation) := by
  have hasked := fun client' =>
    v.subscribe_asked pane client client' access cols rows representation
  have hcontrol := Route.join_control v.route pane client access cols rows
  have hsize := Route.join_size v.route pane client access cols rows
  constructor
  · rintro hsized ⟨client', access', cols', rows', representation', route, heq, hr, hctl, hne⟩
    obtain ⟨rfl, rfl, rfl, rfl, rfl⟩ : client = client' ∧ access = access' ∧ cols = cols' ∧
      rows = rows' ∧ representation = representation' := by simpa using heq
    -- the holder keeps control, and the route the size it had
    simp only [hr, Option.bind_some, hctl, reduceCtorEq, and_false, if_false, Option.map_some,
      Option.getD_some] at hcontrol hsize
    have hholder := hsized _ client rfl (hr ▸ hcontrol)
    rw [hasked, if_pos rfl, hr, hsize] at hholder
    exact hne (Option.some.inj hholder)
  · intro hnot
    refine sized_of_route rfl fun client' hctl => ?_
    rw [hasked, hsize]
    rw [hcontrol] at hctl
    cases hr : v.route with
    | none =>
      -- a new route has the size its first client asked for
      simp only [hr, Option.bind_none, and_true] at hctl
      split_ifs at hctl with hcontrols
      simp [Option.some.inj hctl, hcontrols]
    | some route =>
      simp only [hr, Option.bind_some] at hctl
      simp only [Option.bind_some, Option.map_some, Option.getD_some]
      split_ifs at hctl with hfree
      · simp [Option.some.inj hctl, hfree]
      · rw [if_neg hfree]
        split_ifs with hc
        · -- the holder itself: it asked for the size it has
          subst hc
          by_contra hne
          exact hnot ⟨client', access, cols, rows, representation, route, rfl, hr, hctl,
            fun heq => hne (by rw [heq])⟩
        · exact h route client' hr hctl

/-- **Every action but the holder asking for another size keeps the pane at its holder's size,
and that one never does.** -/
theorem sized_act_iff (h : v.Sized) (pane : PaneId) (a : PaneAction) :
    (v.act pane a).1.Sized ↔ ¬ v.Outgrows a := by
  have hother : (∀ client access cols rows representation,
      a ≠ .subscribe client access cols rows representation) → (v.act pane a).1.Sized →
      ((v.act pane a).1.Sized ↔ ¬ v.Outgrows a) := by
    intro hne hsized
    refine ⟨fun _ => ?_, fun _ => hsized⟩
    rintro ⟨client, access, cols, rows, representation, -, rfl, -⟩
    exact hne client access cols rows representation rfl
  cases a with
  | subscribe client access cols rows representation =>
    exact sized_subscribe_iff h pane client access cols rows representation
  | leave client =>
    refine hother (by simp) ?_
    rcases v.leave_cases pane client with ⟨-, hact⟩ | ⟨-, ⟨hr, hact⟩ | ⟨route, hr,
      ⟨-, hact⟩ | ⟨-, screen, -, ⟨-, hact⟩ | ⟨hctl, hact⟩⟩⟩⟩
    · rw [act, hact]
      exact h
    · rw [act, hact]
      exact sized_of_no_route hr
    · rw [act, hact]
      exact sized_of_route rfl fun _ hctl => by cases hctl
    · rw [act, hact]
      exact sized_of_route rfl fun _ hctl => by cases hctl
    · -- another client has control, and what it asked for is untouched
      rw [act, hact]
      refine sized_of_route rfl fun client' hctl' => ?_
      have hc : client' ≠ client := by
        rintro rfl
        exact hctl hctl'
      have hasked : (v.without client).asked client' = v.asked client' := by
        simp [asked, without, hc]
      exact hasked.trans (h route client' hr hctl')
  | take client onlyIfFree =>
    refine hother (by simp) ?_
    rcases v.take_cases pane client onlyIfFree with hact | ⟨s, route, hs, -, -, hact | hact⟩
    · rw [act, hact]
      exact h
    · rw [act, hact]
      exact h
    · -- the route is handed over at the new holder's size
      rw [act, hact]
      refine sized_of_route rfl fun client' hctl => ?_
      rw [Route.handOver_fst] at hctl ⊢
      obtain rfl := Option.some.inj hctl
      simp [asked, hs]
  | resize client cols rows =>
    refine hother (by simp) ?_
    rcases v.resize_cases pane client cols rows with hact | ⟨route, hr, hctl, hact⟩
    · rw [act, hact]
      exact h
    · rw [act, hact]
      refine sized_of_route rfl fun client' hctl' => ?_
      obtain rfl : client = client' := Option.some.inj (hctl.symm.trans hctl')
      have hasked := h route client hr hctl
      obtain ⟨s, hs, -⟩ := Option.map_eq_some_iff.mp hasked
      simp [asked, hs]
  | ack client sequence =>
    exact hother (by simp) (h.of_same (ack_route v pane client sequence)
      fun client' => ack_asked v pane client client' sequence)
  | frame sequence width height full bytes =>
    exact hother (by simp) (h.of_same (frame_route v pane sequence width height full bytes)
      fun client => frame_asked v pane client sequence width height full bytes)
  | expire =>
    refine hother (by simp) ?_
    rcases v.expire_cases pane with hact | ⟨-, hact⟩
    · rw [act, hact]
      exact h
    · rw [act, hact]
      exact sized_of_no_route rfl
  | close => exact hother (by simp) (sized_of_no_route (close_route v pane))
  | downgrade =>
    refine hother (by simp) ?_
    rcases v.downgrade_cases pane with hact | ⟨route, -, hact⟩
    · rw [act, hact]
      exact h
    · rw [act, hact]
      exact sized_of_route rfl fun _ hctl => by cases hctl

end PaneView

namespace Broker

/-! ### Along a run -/

/-- What the I/O layer was last told of the size of each pane, after one call of the broker. -/
def announce (told : PaneId → Option (UInt16 × UInt16)) (_ : Broker E) (_ : Event)
    (result : Broker E × List Effect) : PaneId → Option (UInt16 × UInt16) :=
  fun pane => result.2.foldl (sizeStep pane) (told pane)

/-- Every pane whose lease is held has the size its holder asked for, and that is what the I/O
layer was last told. -/
def Sized (s : Broker E × (PaneId → Option (UInt16 × UInt16))) : Prop :=
  ∀ (pane : PaneId) (route : Route) (client : ClientId), s.1.routes[pane]? = some route →
    route.control = some client →
      (∃ subscription, s.1.subscription client pane = some subscription ∧
        subscription.cols = route.cols ∧ subscription.rows = route.rows) ∧
      s.2 pane = some (route.cols, route.rows)

/-- A greeted client that holds the lease of a pane subscribes to it again, with another size
than the pane's. -/
def Outgrows (b : Broker E) (event : Event) : Prop :=
  ∃ (client : ClientId) (pane : PaneId) (access : TerminalAccess) (cols rows : UInt16)
    (representation : PaneRepresentation) (route : Route),
    event = .handle client (.subscribePane pane access cols rows representation) ∧
      b.greeted client = true ∧ b.routes[pane]? = some route ∧ route.control = some client ∧
      (cols, rows) ≠ (route.cols, route.rows)

/-- Every pane's size is what the I/O layer was last told. -/
def Announced (s : Broker E × (PaneId → Option (UInt16 × UInt16))) : Prop :=
  s.1.WellFormed ∧ ∀ pane, (s.1.view pane).Announced (s.2 pane)

variable {s : Broker E × (PaneId → Option (UInt16 × UInt16))}

theorem Announced.step (h : Announced s)
    (event : Event) : Announced (observe Broker.step announce s event).1 := by
  refine ⟨wellFormed_step h.1 event, fun pane => ?_⟩
  rw [observe_fst, observe_snd, announce, ← foldl_filter_of_ignored sizeStep_of_not_about]
  cases haction : s.1.action pane event with
  | none =>
    obtain ⟨hview, hout⟩ := (projects pane).idle s.1 event h.1 haction
    rw [hview, hout]
    exact h.2 pane
  | some a =>
    obtain ⟨hview, hout⟩ := (projects pane).move s.1 event a h.1 haction
    rw [hview, hout]
    exact (h.2 pane).act pane a

theorem sized_iff_view (h : Announced s) : Sized s ↔ ∀ pane, (s.1.view pane).Sized := by
  constructor
  · intro hsized pane route client hr hctl
    rw [view_route] at hr
    obtain ⟨⟨subscription, hs, hcols, hrows⟩, -⟩ := hsized pane route client hr hctl
    rw [PaneView.asked, view_sub, hs, Option.map_some, hcols, hrows]
  · intro hsized pane route client hr hctl
    rw [← view_route] at hr
    refine ⟨?_, h.2 pane route hr⟩
    obtain ⟨subscription, hs, hasked⟩ :=
      Option.map_eq_some_iff.mp (hsized pane route client hr hctl)
    obtain ⟨hcols, hrows⟩ := Prod.mk.inj hasked
    exact ⟨subscription, hs, hcols, hrows⟩

theorem outgrows_iff_view {b : Broker E} {event : Event} :
    b.Outgrows event ↔ ∃ pane a, b.action pane event = some a ∧ (b.view pane).Outgrows a := by
  constructor
  · rintro ⟨client, pane, access, cols, rows, representation, route, rfl, hg, hr, hctl, hne⟩
    refine ⟨pane, _, action_eq_subscribe.mpr ⟨hg, rfl⟩, client, access, cols, rows,
      representation, route, rfl, ?_, hctl, hne⟩
    rw [view_route, hr]
  · rintro ⟨pane, a, haction, client, access, cols, rows, representation, route, rfl, hr, hctl,
      hne⟩
    obtain ⟨hg, rfl⟩ := action_eq_subscribe.mp haction
    rw [view_route] at hr
    exact ⟨client, pane, access, cols, rows, representation, route, rfl, hg, hr, hctl, hne⟩

/-- A step keeps every pane at its holder's size exactly when no holder asks for another one by
subscribing again. -/
theorem sized_step_iff (h : Announced s) (hsized : Sized s) (event : Event) :
    Sized (observe step announce s event).1 ↔ ¬ s.1.Outgrows event := by
  rw [sized_iff_view h] at hsized
  rw [sized_iff_view (h.step event), outgrows_iff_view, observe_fst]
  constructor
  · rintro hnext ⟨pane, a, haction, houtgrows⟩
    have hpane := hnext pane
    rw [((projects pane).move s.1 event a h.1 haction).1] at hpane
    exact (PaneView.sized_act_iff (hsized pane) pane a).mp hpane houtgrows
  · intro hnone pane
    cases haction : s.1.action pane event with
    | none =>
      rw [((projects pane).idle s.1 event h.1 haction).1]
      exact hsized pane
    | some a =>
      rw [((projects pane).move s.1 event a h.1 haction).1]
      exact (PaneView.sized_act_iff (hsized pane) pane a).mpr
        fun houtgrows => hnone ⟨pane, a, haction, houtgrows⟩

/-- **When a pane's size follows its lease**: in every state of a run, exactly when no step of
the run is a lease holder subscribing again with another size. -/
theorem sized_iff_no_resubscription (serverVersion : String) (features : List String)
    (quickReplies : List QuickReply) (events : List Event) :
    AllStates (observe step announce) Sized
        (Broker.new E serverVersion features quickReplies, fun _ => none) events ↔
      AllSteps step (fun b event => ¬ b.Outgrows event)
        (Broker.new E serverVersion features quickReplies) events := by
  have hannounced :
      Announced (Broker.new E serverVersion features quickReplies, fun _ => none) := by
    refine ⟨wellFormed_new serverVersion features quickReplies, fun pane => ?_⟩
    rw [view_new]
    exact PaneView.announced_of_no_route rfl
  have hinit : Sized (Broker.new E serverVersion features quickReplies, fun _ => none) := by
    intro pane route client hr
    simp [Broker.new] at hr
  rw [← allSteps_observe step announce
    (Broker.new E serverVersion features quickReplies, fun _ => none) events]
  exact allStates_iff_allSteps (I := Announced) (fun s event h => h.step event)
    (fun s event h hsized => (sized_step_iff h hsized event).mpr)
    (fun s event h hsized => (sized_step_iff h hsized event).mp) hannounced hinit events

/-- A client controls a pane, and subscribes to it again from a larger window. -/
def resubscribed : List Event :=
  greeting 0 ++
    [.handle 0 (.subscribePane pane₁ .control 80 24 .frames),
      .handle 0 (.subscribePane pane₁ .control 120 40 .frames)]

/-- The holder asked for the larger size; the route and its stream keep the smaller one. -/
theorem resubscription_keeps_size :
    ¬ AllStates (observe step announce) Sized (Broker.new teletype "0.9.0" [] [], fun _ => none)
        resubscribed ∧
      (ran resubscribed).routes[pane₁]?.bind Route.control = some 0 ∧
      (ran resubscribed).routes[pane₁]?.map (fun route => (route.cols, route.rows)) =
        some (80, 24) ∧
      ((ran resubscribed).subscription 0 pane₁).map (fun s => (s.cols, s.rows)) =
        some (120, 40) := by
  have hlease : (ran resubscribed).routes[pane₁]?.bind Route.control = some 0 := by decide
  have hroute : (ran resubscribed).routes[pane₁]?.map (fun route => (route.cols, route.rows)) =
      some (80, 24) := by decide
  have hasked : ((ran resubscribed).subscription 0 pane₁).map (fun s => (s.cols, s.rows)) =
      some (120, 40) := by decide
  refine ⟨fun hall => ?_, hlease, hroute, hasked⟩
  have hsized := hall.last
  obtain ⟨route, hr, hsize⟩ := Option.map_eq_some_iff.mp hroute
  rw [hr] at hlease
  obtain ⟨⟨subscription, hs, hcols, hrows⟩, -⟩ := hsized pane₁ route 0
    (by rw [exec_observe_fst]; exact hr) hlease
  rw [exec_observe_fst] at hs
  rw [show (ran resubscribed).subscription 0 pane₁ = some subscription from hs, Option.map_some,
    hcols, hrows, hsize] at hasked
  revert hasked
  decide

end Broker

end SuperHerdr
