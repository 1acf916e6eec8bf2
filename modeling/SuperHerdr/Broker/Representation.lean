import SuperHerdr.Broker.Projection

/-!
# The representation invariant

Who watches a pane is stored twice: in each client's subscriptions and in the route's set of
subscribers. `PaneView.Coherent` says, of one pane, that the two agree, that the lease is held
by a subscriber, that a route is unclaimed exactly when nobody watches it, and that a rendered
screen has a route. Every action keeps it, and so it holds of every pane of the broker after
every run.

The first section collects what the functions on routes do to the fields of a route; later
modules read them off instead of unfolding the functions.
-/

namespace SuperHerdr

open Std Transducer

variable {E : Emulator}

/-! ### What the functions on routes keep -/

namespace Route

theorem resizeForControl_fst (route : Route) (pane : PaneId) (cols rows : UInt16) :
    (route.resizeForControl pane cols rows).1 = { route with cols, rows } := by
  unfold resizeForControl
  split_ifs with hsize
  · obtain ⟨rfl, rfl⟩ := hsize
    rfl
  · rfl

theorem handOver_fst (route : Route) (pane : PaneId) (client : ClientId) (cols rows : UInt16) :
    (route.handOver pane client cols rows).1 =
      { route with access := .control, cols, rows, control := some client } := by
  simp only [handOver, resizeForControl_fst]
  split_ifs with haccess
  · rfl
  · have hcontrol : route.access = .control := by simpa using haccess
    rw [← hcontrol]

section Join

variable (route : Option Route) (pane : PaneId) (client : ClientId) (access : TerminalAccess)
  (cols rows : UInt16)

theorem mem_join {client' : ClientId} :
    client' ∈ (join route pane client access cols rows).1.subscribers ↔
      client = client' ∨ ∃ r, route = some r ∧ client' ∈ r.subscribers := by
  cases route with
  | none => simp [join]
  | some r =>
    simp only [join]
    split_ifs <;> simp [resizeForControl_fst]

theorem join_control :
    (join route pane client access cols rows).1.control =
      if access = .control ∧ route.bind Route.control = none then some client
      else route.bind Route.control := by
  cases route with
  | none => simp [join]
  | some r =>
    simp only [join, Option.bind_some]
    split_ifs <;> simp [resizeForControl_fst]

theorem join_access :
    (join route pane client access cols rows).1.access = (route.map Route.access).getD access := by
  cases route with
  | none => rfl
  | some r =>
    simp only [join]
    split_ifs <;> simp [resizeForControl_fst]

theorem join_size :
    ((join route pane client access cols rows).1.cols,
        (join route pane client access cols rows).1.rows) =
      if access = .control ∧ route.bind Route.control = none then (cols, rows)
      else (route.map fun r => (r.cols, r.rows)).getD (cols, rows) := by
  cases route with
  | none => simp [join]
  | some r =>
    simp only [join, Option.bind_some]
    split_ifs <;> simp [resizeForControl_fst]

theorem join_unclaimed : (join route pane client access cols rows).1.unclaimed = false := by
  cases route with
  | none => rfl
  | some r =>
    simp only [join]
    split_ifs <;> simp [resizeForControl_fst]

theorem join_granted :
    (join route pane client access cols rows).2.1 =
      if (join route pane client access cols rows).1.control = some client then .control
      else .observe := by
  cases route with
  | none => cases access <;> simp [join]
  | some r =>
    simp only [join]
    split_ifs <;> simp_all [resizeForControl_fst]

end Join

/-- A route on its own: the lease is held by a subscriber, and the route is unclaimed exactly
when there is none. -/
structure Coherent (route : Route) : Prop where
  control : ∀ client, route.control = some client → client ∈ route.subscribers
  unclaimed : route.unclaimed = true ↔ route.subscribers = ∅

theorem coherent_of_free {route : Route} (hfree : route.control = none)
    (hunclaimed : route.unclaimed = true ↔ route.subscribers = ∅) : route.Coherent where
  control client hc := by simp [hfree] at hc
  unclaimed := hunclaimed

end Route

/-! ### One pane -/

namespace PaneView

/-- **The representation invariant of one pane**: clients and route agree on who watches, the
route is coherent, and a screen has a route. -/
structure Coherent (v : PaneView E) : Prop where
  subscribed : ∀ client, v.sub client ≠ none ↔
    ∃ route, v.route = some route ∧ client ∈ route.subscribers
  route : ∀ route, v.route = some route → route.Coherent
  screen : v.screen ≠ none → v.route ≠ none

variable {v : PaneView E}

theorem coherent_of_no_route (hr : v.route = none) (hs : v.screen = none)
    (hsub : ∀ client, v.sub client = none) : v.Coherent where
  subscribed client := by simp [hr, hsub]
  route route h := by simp [hr] at h
  screen h := by simp [hs] at h

theorem coherent_empty : (empty : PaneView E).Coherent :=
  coherent_of_no_route rfl rfl fun _ => rfl

theorem coherent_of_route {route : Route} (hr : v.route = some route)
    (hsub : ∀ client, v.sub client ≠ none ↔ client ∈ route.subscribers)
    (hroute : route.Coherent) : v.Coherent where
  subscribed client := by
    rw [hsub, hr]
    simp
  route route' h := by
    rw [hr] at h
    rwa [← Option.some.inj h]
  screen _ := by simp [hr]

theorem Coherent.mem_iff (h : v.Coherent) {route : Route}
    (hr : v.route = some route) (client : ClientId) :
    v.sub client ≠ none ↔ client ∈ route.subscribers := by
  rw [h.subscribed, hr]
  simp

/-! ### Every action keeps the pane coherent -/

theorem Coherent.subscribe (h : v.Coherent) (pane : PaneId) (client : ClientId)
    (access : TerminalAccess) (cols rows : UInt16) (representation : PaneRepresentation) :
    (v.subscribe pane client access cols rows representation).1.Coherent := by
  refine coherent_of_route rfl (fun client' => ?_) ⟨fun client' hctl => ?_, ?_⟩
  · rw [Route.mem_join, ← h.subscribed client']
    by_cases hc : client' = client
    · subst hc
      simp [PaneView.subscribe]
    · simp [PaneView.subscribe, hc, Ne.symm hc]
  · rw [Route.mem_join]
    rw [Route.join_control] at hctl
    split_ifs at hctl with hfree
    · exact .inl (Option.some.inj hctl)
    · obtain ⟨route, hr, hctl⟩ := Option.bind_eq_some_iff.mp hctl
      exact .inr ⟨route, hr, (h.route route hr).control client' hctl⟩
  · rw [Route.join_unclaimed]
    refine ⟨fun hf => Bool.noConfusion hf, fun hempty => ?_⟩
    -- the newcomer is there
    have hmem : client ∈ (Route.join v.route pane client access cols rows).1.subscribers := by
      rw [Route.mem_join]
      exact .inl rfl
    rw [hempty] at hmem
    simp at hmem

theorem Coherent.route_ne_none (h : v.Coherent) {client : ClientId}
    (hs : v.sub client ≠ none) : v.route ≠ none := by
  obtain ⟨route, hr, -⟩ := (h.subscribed client).mp hs
  simp [hr]

theorem Coherent.mem_without (h : v.Coherent) {route : Route}
    (hr : v.route = some route) (client client' : ClientId) :
    (v.without client).sub client' ≠ none ↔ client' ∈ (route.without client).subscribers := by
  rw [Route.without, ExtTreeSet.mem_erase, ← h.mem_iff hr client', PaneView.without]
  by_cases hc : client' = client
  · subst hc
    simp
  · simp [hc, Ne.symm hc]

theorem Coherent.leave (h : v.Coherent) (pane : PaneId) (client : ClientId) :
    (v.leave pane client).1.Coherent := by
  rcases v.leave_cases pane client with ⟨-, hact⟩ | ⟨hs, ⟨hr, -⟩ | ⟨route, hr, hleft⟩⟩
  · rw [hact]
    exact h
  · exact absurd hr (h.route_ne_none hs)
  · have hsub := h.mem_without hr client
    have hold := h.route route hr
    -- the client was there, so the route was claimed
    have hclaimed : route.unclaimed = false := by
      have hmem : client ∈ route.subscribers := (h.mem_iff hr client).mp hs
      by_contra hun
      have hempty := hold.unclaimed.mp (by simpa using hun)
      rw [hempty] at hmem
      simp at hmem
    rcases hleft with ⟨hnobody, hact⟩ | ⟨hothers, screen, -, ⟨-, hact⟩ | ⟨hctl, hact⟩⟩
    · rw [hact]
      exact coherent_of_route rfl hsub (Route.coherent_of_free rfl (by simp [hnobody]))
    · rw [hact]
      refine coherent_of_route rfl hsub (Route.coherent_of_free rfl (iff_of_false ?_ hothers))
      simp [Route.dropControl, Route.without, hclaimed]
    · rw [hact]
      refine coherent_of_route rfl hsub ⟨fun client' hc => ?_, iff_of_false ?_ hothers⟩
      · have hne : client ≠ client' := fun heq => hctl (heq ▸ hc)
        rw [Route.without, ExtTreeSet.mem_erase]
        exact ⟨by simpa using hne, hold.control client' hc⟩
      · simp [Route.without, hclaimed]

theorem Coherent.take (h : v.Coherent) (pane : PaneId) (client : ClientId)
    (onlyIfFree : Bool) : (v.take pane client onlyIfFree).1.Coherent := by
  rcases v.take_cases pane client onlyIfFree with hact | ⟨s, route, hs, hr, -, hact | hact⟩
  · rw [hact]
    exact h
  · rw [hact]
    exact h
  · have hsub := h.mem_iff hr
    have hmem : client ∈ route.subscribers := (hsub client).mp (by simp [hs])
    rw [hact, Route.handOver_fst]
    refine coherent_of_route rfl hsub ⟨fun client' hc => ?_, ?_⟩
    · exact Option.some.inj hc ▸ hmem
    · exact (h.route route hr).unclaimed

theorem Coherent.of_same {v v' : PaneView E} (h : v.Coherent) (hr : v'.route = v.route)
    (hsub : ∀ client, v'.sub client ≠ none ↔ v.sub client ≠ none)
    (hscreen : v'.screen ≠ none → v.route ≠ none) : v'.Coherent where
  subscribed client := by rw [hsub, hr, h.subscribed]
  route route hr' := h.route route (hr ▸ hr')
  screen hs := hr ▸ hscreen hs

theorem Coherent.resize (h : v.Coherent) (pane : PaneId) (client : ClientId)
    (cols rows : UInt16) : (v.resize pane client cols rows).1.Coherent := by
  rcases v.resize_cases pane client cols rows with hact | ⟨route, hr, -, hact⟩
  · rw [hact]
    exact h
  · have hroute := h.route route hr
    rw [hact]
    refine coherent_of_route rfl (fun client' => ?_) ⟨hroute.control, hroute.unclaimed⟩
    rw [← h.mem_iff hr client']
    by_cases hc : client' = client
    · subst hc
      simp
    · simp [hc]

theorem Coherent.ack (h : v.Coherent) (pane : PaneId) (client : ClientId)
    (sequence : ℕ) : (v.ack pane client sequence).1.Coherent :=
  h.of_same (ack_route v pane client sequence)
    (fun client' => ack_sub_ne_none v pane client client' sequence)
    fun hs => h.screen (ack_screen v pane client sequence ▸ hs)

theorem Coherent.frame (h : v.Coherent) (pane : PaneId) (sequence : ℕ)
    (width height : UInt16) (full : Bool) (bytes : List UInt8) :
    (v.frame pane sequence width height full bytes).1.Coherent := by
  refine h.of_same (frame_route v pane sequence width height full bytes)
    (frame_sub_ne_none v pane sequence width height full bytes) fun hs => ?_
  -- a frame without a route draws nothing
  cases hr : v.route with
  | none =>
    have hsame : v.frame pane sequence width height full bytes = (v, []) := by
      simp [PaneView.frame, hr]
    rw [hsame] at hs
    exact absurd hr (h.screen hs)
  | some route => simp

theorem Coherent.expire (h : v.Coherent) (pane : PaneId) : (v.expire pane).1.Coherent := by
  rcases v.expire_cases pane with hact | ⟨hun, hact⟩
  · rw [hact]
    exact h
  · obtain ⟨route, hr, hun⟩ := (Option.any_eq_true _ _).mp hun
    have hnobody := (h.route route hr).unclaimed.mp hun
    rw [hact]
    refine coherent_of_no_route rfl rfl fun client => ?_
    have hnot := (h.mem_iff hr client).not
    simpa [hnobody] using hnot

theorem Coherent.close (h : v.Coherent) (pane : PaneId) : (v.close pane).1.Coherent := by
  rcases v.close_cases pane with ⟨-, hact⟩ | ⟨route, hr, hact⟩
  · rw [hact]
    exact h
  · rw [hact]
    refine coherent_of_no_route rfl rfl fun client => ?_
    by_cases hmem : client ∈ route.subscribers
    · simp [hmem]
    · have hnone : v.sub client = none := by
        by_contra hs
        exact hmem ((h.mem_iff hr client).mp hs)
      simp [hnone]

theorem Coherent.downgrade (h : v.Coherent) (pane : PaneId) : (v.downgrade pane).1.Coherent := by
  rcases v.downgrade_cases pane with hact | ⟨route, hr, hact⟩
  · rw [hact]
    exact h
  · have hsub := h.mem_iff hr
    rw [hact]
    exact coherent_of_route rfl hsub (Route.coherent_of_free rfl (h.route route hr).unclaimed)

/-- **Every action keeps the pane coherent.** -/
theorem Coherent.act (h : v.Coherent) (pane : PaneId) (a : PaneAction) :
    (v.act pane a).1.Coherent := by
  cases a with
  | subscribe client access cols rows representation =>
    exact h.subscribe pane client access cols rows representation
  | leave client => exact h.leave pane client
  | take client onlyIfFree => exact h.take pane client onlyIfFree
  | resize client cols rows => exact h.resize pane client cols rows
  | ack client sequence => exact h.ack pane client sequence
  | frame sequence width height full bytes => exact h.frame pane sequence width height full bytes
  | expire => exact h.expire pane
  | close => exact h.close pane
  | downgrade => exact h.downgrade pane

end PaneView

/-! ### The whole broker -/

namespace Broker

/-- **The representation invariant**, as the maps of the broker hold it. -/
structure Coherent (b : Broker E) : Prop where
  /-- Clients and routes agree on who watches what. -/
  subscribed : ∀ (client : ClientId) (pane : PaneId),
    (∃ session, b.clients[client]? = some session ∧ pane ∈ session.panes) ↔
      ∃ route, b.routes[pane]? = some route ∧ client ∈ route.subscribers
  /-- Whoever watches is connected. -/
  subscriber_connected : ∀ (pane : PaneId) (route : Route) (client : ClientId),
    b.routes[pane]? = some route → client ∈ route.subscribers → client ∈ b.clients
  /-- Whoever holds a lease is connected. -/
  control_connected : ∀ (pane : PaneId) (route : Route) (client : ClientId),
    b.routes[pane]? = some route → route.control = some client → client ∈ b.clients
  /-- Whoever holds a lease watches the pane. -/
  control_subscribed : ∀ (pane : PaneId) (route : Route) (client : ClientId),
    b.routes[pane]? = some route → route.control = some client → client ∈ route.subscribers
  /-- A route is unclaimed exactly when nobody watches it. -/
  unclaimed : ∀ (pane : PaneId) (route : Route), b.routes[pane]? = some route →
    (route.unclaimed = true ↔ route.subscribers = ∅)
  /-- A rendered screen has a route. -/
  screens : ∀ pane : PaneId, pane ∈ b.screens → pane ∈ b.routes

theorem mem_clients_of_subscription {b : Broker E} {client : ClientId} {pane : PaneId}
    (h : b.subscription client pane ≠ none) : client ∈ b.clients := by
  cases hc : b.clients[client]? with
  | none => simp [subscription, subscriptionIn, hc] at h
  | some session => exact ExtTreeMap.mem_iff_isSome_getElem?.mpr (by simp [hc])

/-- Coherent panes make a coherent broker. -/
theorem coherent_of_view {b : Broker E} (h : ∀ pane, (b.view pane).Coherent) : b.Coherent := by
  have hconnected : ∀ (pane : PaneId) (route : Route) (client : ClientId),
      b.routes[pane]? = some route → client ∈ route.subscribers → client ∈ b.clients := by
    intro pane route client hr hmem
    have hr' : (b.view pane).route = some route := by rw [view_route, hr]
    exact mem_clients_of_subscription (((h pane).mem_iff hr' client).mpr hmem)
  have hroute : ∀ (pane : PaneId) (route : Route), b.routes[pane]? = some route →
      route.Coherent := by
    intro pane route hr
    exact (h pane).route route (by rw [view_route, hr])
  refine ⟨fun client pane => ?_, hconnected, fun pane route client hr hctl => ?_,
    fun pane route client hr hctl => (hroute pane route hr).control client hctl,
    fun pane route hr => (hroute pane route hr).unclaimed, fun pane hmem => ?_⟩
  · have hsub := (h pane).subscribed client
    rw [view_route, view_sub] at hsub
    rw [← hsub]
    cases hc : b.clients[client]? with
    | none => simp [subscription, subscriptionIn, hc]
    | some session => simp [subscription, subscriptionIn, hc]
  · exact hconnected pane route client hr ((hroute pane route hr).control client hctl)
  · have hscreen := (h pane).screen
    rw [view_screen, view_route] at hscreen
    simpa using hscreen (by simpa using hmem)

theorem view_after_coherent (serverVersion : String) (features : List String)
    (quickReplies : List QuickReply) (events : List Event) (pane : PaneId) :
    ((after E serverVersion features quickReplies events).view pane).Coherent :=
  view_after_invariant PaneView.coherent_empty (fun _ a h => h.act pane a) serverVersion features
    quickReplies events

theorem closeIfUnclaimed_of_subscriber {b : Broker E} (h : b.Coherent) {pane : PaneId}
    {route : Route} (hr : b.routes[pane]? = some route) {client : ClientId}
    (hmem : client ∈ route.subscribers) (expired : PaneId) :
    (b.closeIfUnclaimed expired).1.routes[pane]? = some route := by
  unfold closeIfUnclaimed
  split_ifs with hun
  · have hne : expired ≠ pane := by
      rintro rfl
      have hunclaimed : route.unclaimed = true := by simpa [hr] using hun
      have hnobody := (h.unclaimed expired route hr).mp hunclaimed
      rw [hnobody] at hmem
      simp at hmem
    simp [ExtTreeMap.getElem?_erase, hne, hr]
  · exact hr

theorem federationUpdated_of_not_live (b : Broker E) {state : FederationState} {pane : PaneId}
    {target : TargetRuntimeState} (htarget : state.targets[pane.targetSession]? = some target)
    (hlive : target.connection ≠ .live) :
    (b.federationUpdated state).1.view pane = b.view pane := by
  have hkept : ({ b with state } : Broker E).paneIsGone pane = false := by
    simp [paneIsGone, htarget, hlive]
  have hseen := (seen_federationUpdated b state pane).1
  rwa [action, if_neg (by simp [hkept])] at hseen

/-- **The representation invariant holds after every run**, and so expiry never removes a route
that is watched, and a federation update whose target is known but not live never retires a
route. -/
theorem representation_invariant (serverVersion : String) (features : List String)
    (quickReplies : List QuickReply) (events : List Event) :
    (after E serverVersion features quickReplies events).Coherent ∧
      (∀ (pane expired : PaneId) (route : Route) (client : ClientId),
        (after E serverVersion features quickReplies events).routes[pane]? = some route →
        client ∈ route.subscribers →
        ((after E serverVersion features quickReplies events).closeIfUnclaimed
          expired).1.routes[pane]? = some route) ∧
      ∀ (state : FederationState) (pane : PaneId) (route : Route) (target : TargetRuntimeState),
        (after E serverVersion features quickReplies events).routes[pane]? = some route →
        state.targets[pane.targetSession]? = some target → target.connection ≠ .live →
        ((after E serverVersion features quickReplies events).federationUpdated
          state).1.routes[pane]? = some route := by
  have hcoherent := coherent_of_view fun pane =>
    view_after_coherent (E := E) serverVersion features quickReplies events pane
  refine ⟨hcoherent, fun pane expired route client hr hmem => ?_,
    fun state pane route target hr htarget hlive => ?_⟩
  · exact closeIfUnclaimed_of_subscriber hcoherent hr hmem expired
  · have hsame := federationUpdated_of_not_live
      (after E serverVersion features quickReplies events) htarget hlive
    have hroute := congrArg PaneView.route hsame
    rwa [view_route, view_route, hr] at hroute

end Broker

end SuperHerdr
