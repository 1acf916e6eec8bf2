import Mathlib.Tactic.SplitIfs
import SuperHerdr.Broker.Pane
import SuperHerdr.Broker.Sessions

/-!
# The broker is a pane machine, pane by pane

`Broker.view` reads one pane off the broker's maps, and `Broker.action` names what an event
does to that pane: at most one thing. `Broker.projects` is the refinement: seen through the
view of any pane, a step of the broker is that one action of `PaneView.act`, and the effects
it emits about the pane are exactly the action's. So is every run (`exec_view`).

The refinement rests on `Broker.WellFormed`: a new connection starts without subscriptions.
-/

namespace SuperHerdr

open Std Transducer

variable {E : Emulator}

namespace Broker

/-! ### Reading subscriptions off a changed table -/

section Table

variable (clients : ExtTreeMap ClientId Client) (client client' : ClientId) (pane pane' : PaneId)

theorem subscriptionIn_modify (f : Client → Client) :
    subscriptionIn (clients.modify client f) client' pane' =
      if client = client' then clients[client]?.bind fun session => (f session).panes[pane']?
      else subscriptionIn clients client' pane' := by
  by_cases h : client = client'
  · subst h
    rw [if_pos rfl, subscriptionIn, ExtTreeMap.getElem?_modify_self, Option.bind_map]
    rfl
  · simp [subscriptionIn, ExtTreeMap.getElem?_modify, h]

theorem subscriptionIn_insert (session : Client) :
    subscriptionIn (clients.insert client session) client' pane' =
      if client = client' then session.panes[pane']?
      else subscriptionIn clients client' pane' := by
  by_cases h : client = client' <;> simp [subscriptionIn, ExtTreeMap.getElem?_insert, h]

theorem subscriptionIn_erase :
    subscriptionIn (clients.erase client) client' pane' =
      if client = client' then none else subscriptionIn clients client' pane' := by
  by_cases h : client = client' <;> simp [subscriptionIn, ExtTreeMap.getElem?_erase, h]

theorem subscriptionIn_modify_of_panes {f : Client → Client}
    (hf : ∀ session, (f session).panes = session.panes) :
    subscriptionIn (clients.modify client f) client' pane' =
      subscriptionIn clients client' pane' := by
  rw [subscriptionIn_modify]
  split_ifs with h
  · subst h
    simp [subscriptionIn, hf]
  · rfl

theorem subscriptionIn_modifySubscription (f : PaneSubscription → PaneSubscription) :
    subscriptionIn (modifySubscription clients client pane f) client' pane' =
      if client = client' ∧ pane = pane' then (subscriptionIn clients client pane).map f
      else subscriptionIn clients client' pane' := by
  rw [modifySubscription, subscriptionIn_modify]
  by_cases h : client = client'
  · subst h
    by_cases hp : pane = pane'
    · subst hp
      cases hc : clients[client]? <;> simp [subscriptionIn, hc]
    · simp [subscriptionIn, ExtTreeMap.getElem?_modify, hp]
  · simp [h]

theorem subscriptionIn_erasePane :
    subscriptionIn (clients.modify client fun session =>
        { session with panes := session.panes.erase pane }) client' pane' =
      if client = client' ∧ pane = pane' then none
      else subscriptionIn clients client' pane' := by
  rw [subscriptionIn_modify]
  by_cases h : client = client'
  · subst h
    by_cases hp : pane = pane'
    · subst hp
      simp
    · simp [subscriptionIn, ExtTreeMap.getElem?_erase, hp]
  · simp [h]

end Table

/-! ### Views -/

/-- One pane of the broker. -/
def view (b : Broker E) (pane : PaneId) : PaneView E :=
  ⟨b.routes[pane]?, b.screens[pane]?, fun client => b.subscription client pane⟩

@[simp] theorem view_route (b : Broker E) (pane : PaneId) :
    (b.view pane).route = b.routes[pane]? := by rw [view]

@[simp] theorem view_screen (b : Broker E) (pane : PaneId) :
    (b.view pane).screen = b.screens[pane]? := by rw [view]

@[simp] theorem view_sub (b : Broker E) (pane : PaneId) (client : ClientId) :
    (b.view pane).sub client = b.subscription client pane := by rw [view]

@[simp] theorem view_representationOf (b : Broker E) (pane : PaneId) (client : ClientId) :
    (b.view pane).representationOf client = b.representationOf client pane := by
  rw [PaneView.representationOf, view_sub, representationOf]

theorem view_screenSubscribers (b : Broker E) (pane : PaneId) (route : Route) :
    (b.view pane).screenSubscribers route =
      route.subscribers.toList.filter fun client => b.representationOf client pane = .screen :=
  rfl

/-- What an operation did, **seen** from one pane: the view it left and the effects about the
pane. -/
def Seen (pane : PaneId) (result : Broker E × List Effect) (after : PaneView E × List Effect) :
    Prop :=
  result.1.view pane = after.1 ∧ result.2.filter (Effect.about pane) = after.2

/-- An operation **acts on** one pane: seen from there it did `after`, and seen from any other
pane it did nothing. -/
structure ActsOn (b : Broker E) (pane : PaneId) (result : Broker E × List Effect)
    (after : PaneView E × List Effect) : Prop where
  here : Seen pane result after
  elsewhere : ∀ other, other ≠ pane → Seen other result (b.view other, [])

/-- Effects all about one pane. -/
def OnlyAbout (pane : PaneId) (effects : List Effect) : Prop :=
  ∀ effect ∈ effects, ∀ other, effect.about other = decide (pane = other)

variable {pane : PaneId} {effects : List Effect}

theorem OnlyAbout.filter_self
    (h : OnlyAbout pane effects) : effects.filter (Effect.about pane) = effects :=
  List.filter_eq_self.mpr fun effect he => by simp [h effect he]

theorem OnlyAbout.filter_other {pane other : PaneId}
    (h : OnlyAbout pane effects) (hne : other ≠ pane) :
    effects.filter (Effect.about other) = [] :=
  List.filter_eq_nil_iff.mpr fun effect he => by simp [h effect he, Ne.symm hne]

theorem OnlyAbout.append {es fs : List Effect} (he : OnlyAbout pane es)
    (hf : OnlyAbout pane fs) : OnlyAbout pane (es ++ fs) := fun effect h => by
  rcases List.mem_append.mp h with h | h
  · exact he effect h
  · exact hf effect h

variable {b : Broker E} {result : Broker E × List Effect}

theorem ActsOn.of_onlyAbout
    {after : PaneView E × List Effect} (hview : result.1.view pane = after.1)
    (hout : result.2 = after.2) (habout : OnlyAbout pane result.2)
    (hother : ∀ other, other ≠ pane → result.1.view other = b.view other) :
    ActsOn b pane result after :=
  ⟨⟨hview, by rw [habout.filter_self, hout]⟩,
    fun other hne => ⟨hother other hne, habout.filter_other hne⟩⟩

theorem ActsOn.refl (b : Broker E) (pane : PaneId) : ActsOn b pane (b, []) (b.view pane, []) :=
  ⟨⟨rfl, rfl⟩, fun _ _ => ⟨rfl, rfl⟩⟩

theorem ActsOn.of_view {b b₁ : Broker E}
    {after : PaneView E × List Effect} (h : ActsOn b₁ pane result after)
    (hother : ∀ other, other ≠ pane → b₁.view other = b.view other) :
    ActsOn b pane result after :=
  ⟨h.here, fun other hne => hother other hne ▸ h.elsewhere other hne⟩

/-! ### The functions on routes speak of their pane only -/

theorem onlyAbout_singleton {effect : Effect}
    (h : ∀ other, effect.about other = decide (pane = other)) : OnlyAbout pane [effect] := by
  intro e he
  rw [List.mem_singleton.mp he]
  exact h

variable {message : ServerMessage}

theorem onlyAbout_send (h : message.pane = some pane)
    (client : ClientId) : OnlyAbout pane [Effect.send client message] :=
  onlyAbout_singleton fun other => by simp [Effect.about, h]

theorem onlyAbout_map_send (h : message.pane = some pane) (clients : List ClientId) :
    OnlyAbout pane (clients.map fun client => Effect.send client message) := by
  intro effect he other
  obtain ⟨client, -, rfl⟩ := List.mem_map.mp he
  simp [Effect.about, h]

theorem onlyAbout_nil (pane : PaneId) : OnlyAbout pane [] := by
  intro effect he
  cases he

theorem onlyAbout_of_administer (h : Administer pane effects) : OnlyAbout pane effects := by
  intro effect he other
  have hadministers := h effect he
  cases effect with
  | send client message =>
    cases message with
    | paneLease p access =>
      obtain rfl : p = pane := by simpa [Effect.administers] using hadministers
      simp [Effect.about, ServerMessage.pane]
    | _ => cases hadministers
  | openRoute p | closeRoute p | routeUnclaimed p | routeResize p =>
    obtain rfl : p = pane := by simpa [Effect.administers] using hadministers
    rfl
  | _ => cases hadministers

/-! ### Writing one subscription -/

/-- A table that differs from another in one client's subscription to one pane, now `s`. -/
def UpdatesAt (clients clients' : ExtTreeMap ClientId Client) (client : ClientId)
    (pane : PaneId) (s : Option PaneSubscription) : Prop :=
  ∀ client' pane', subscriptionIn clients' client' pane' =
    if client = client' ∧ pane = pane' then s else subscriptionIn clients client' pane'

variable {client : ClientId} {s : Option PaneSubscription}

theorem UpdatesAt.modify {clients clients' : ExtTreeMap ClientId Client}
    (h : UpdatesAt clients clients' client pane s)
    (f : PaneSubscription → PaneSubscription) :
    UpdatesAt clients (modifySubscription clients' client pane f) client pane (s.map f) := by
  intro client' pane'
  rw [subscriptionIn_modifySubscription, h, h]
  by_cases hcp : client = client' ∧ pane = pane' <;> simp [hcp]

theorem updatesAt_modify (clients : ExtTreeMap ClientId Client) (client : ClientId)
    (pane : PaneId) (f : PaneSubscription → PaneSubscription) :
    UpdatesAt clients (modifySubscription clients client pane f) client pane
      ((subscriptionIn clients client pane).map f) :=
  fun client' pane' => subscriptionIn_modifySubscription clients client client' pane pane' f

theorem UpdatesAt.view_self {b b' : Broker E} (h : UpdatesAt b.clients b'.clients client pane s) :
    b'.view pane =
      ⟨b'.routes[pane]?, b'.screens[pane]?, Function.update (b.view pane).sub client s⟩ := by
  ext1
  · rfl
  · rfl
  · funext client'
    simp [subscription, h client' pane, Function.update_apply, eq_comm]

theorem UpdatesAt.view_other {b b' : Broker E} {pane other : PaneId}
    (h : UpdatesAt b.clients b'.clients client pane s)
    (hne : other ≠ pane) (hroutes : b'.routes[other]? = b.routes[other]?)
    (hscreens : b'.screens[other]? = b.screens[other]?) : b'.view other = b.view other := by
  ext1
  · exact hroutes
  · exact hscreens
  · funext client'
    simp [subscription, h client' other, Ne.symm hne]

variable {clients : ExtTreeMap ClientId Client}

theorem ActsOn.of_updatesAt
    (h : UpdatesAt b.clients clients client pane s) (habout : OnlyAbout pane effects) :
    ActsOn b pane ({ b with clients }, effects)
      ({ b.view pane with sub := Function.update (b.view pane).sub client s }, effects) := by
  have h' : UpdatesAt b.clients ({ b with clients } : Broker E).clients client pane s := h
  exact ActsOn.of_onlyAbout h'.view_self rfl habout fun _ hne => h'.view_other hne rfl rfl

/-! ### Subscribing -/

variable {session : Client}

theorem updatesAt_subscribe (hc : clients[client]? = some session) (pane : PaneId)
    (s : PaneSubscription) :
    UpdatesAt clients (clients.insert client { session with panes := session.panes.insert pane s })
      client pane (some s) := by
  intro client' pane'
  rw [subscriptionIn_insert]
  by_cases h : client = client'
  · subst h
    by_cases hp : pane = pane' <;> simp [ExtTreeMap.getElem?_insert, hp, subscriptionIn, hc]
  · simp [h]

theorem actsOn_subscribePane
    (hc : b.clients[client]? = some session) (pane : PaneId) (access : TerminalAccess)
    (cols rows : UInt16) (representation : PaneRepresentation) :
    ActsOn b pane (b.subscribePane client pane access cols rows representation)
      ((b.view pane).subscribe pane client access cols rows representation) := by
  have hfresh := updatesAt_subscribe hc pane ⟨access, cols, rows, representation, none, []⟩
  have hjoin : OnlyAbout pane (Route.join b.routes[pane]? pane client access cols rows).2.2 :=
    onlyAbout_of_administer (administer_join _ client access cols rows)
  have hlease : ∀ granted, OnlyAbout pane [Effect.send client (.paneLease pane granted)] :=
    fun granted => onlyAbout_send rfl client
  have hinsert : ∀ (route : Route) other, other ≠ pane →
      (b.routes.insert pane route)[other]? = b.routes[other]? := by
    intro route other hne
    simp [ExtTreeMap.getElem?_insert, Ne.symm hne]
  simp only [subscribePane, hc]
  cases representation with
  | frames =>
    refine ActsOn.of_onlyAbout ?_ ?_ ?_ ?_
    · rw [UpdatesAt.view_self hfresh]
      simp [PaneView.subscribe, PaneView.shownTo]
    · simp [PaneView.subscribe, PaneView.shownTo]
    · exact (hjoin.append (onlyAbout_nil pane)).append (hlease _)
    · exact fun other hne => hfresh.view_other hne (hinsert _ other hne) rfl
  | screen =>
    cases hs : b.screens[pane]? with
    | none =>
      refine ActsOn.of_onlyAbout ?_ ?_ ?_ ?_
      · rw [UpdatesAt.view_self hfresh]
        simp [PaneView.subscribe, PaneView.shownTo, hs]
      · simp [PaneView.subscribe, PaneView.shownTo, hs]
      · exact (hjoin.append (onlyAbout_nil pane)).append (hlease _)
      · exact fun other hne => hfresh.view_other hne (hinsert _ other hne) rfl
    | some state =>
      -- the subscription is written, and marked again with the screen it is shown
      have hpushed := hfresh.modify (·.push state.last.sequence)
      refine ActsOn.of_onlyAbout ?_ ?_ ?_ ?_
      · rw [UpdatesAt.view_self hpushed]
        simp [PaneView.subscribe, PaneView.shownTo, hs]
      · simp [PaneView.subscribe, PaneView.shownTo, hs]
      · exact (hjoin.append (onlyAbout_send rfl client)).append (hlease _)
      · exact fun other hne => hpushed.view_other hne (hinsert _ other hne) rfl

/-! ### Writing the route and the screen of one pane -/

theorem view_insertRoute_self (b : Broker E) (pane : PaneId) (route : Route) :
    ({ b with routes := b.routes.insert pane route } : Broker E).view pane =
      { b.view pane with route := some route } := by
  simp [view, subscription]

theorem view_insertRoute_other (b : Broker E) {pane other : PaneId} (route : Route)
    (hne : other ≠ pane) :
    ({ b with routes := b.routes.insert pane route } : Broker E).view other = b.view other := by
  simp [view, subscription, ExtTreeMap.getElem?_insert, Ne.symm hne]

theorem view_eraseScreen_self (b : Broker E) (pane : PaneId) :
    ({ b with screens := b.screens.erase pane } : Broker E).view pane =
      { b.view pane with screen := none } := by
  simp [view, subscription]

theorem view_eraseScreen_other (b : Broker E) {pane other : PaneId} (hne : other ≠ pane) :
    ({ b with screens := b.screens.erase pane } : Broker E).view other = b.view other := by
  simp [view, subscription, ExtTreeMap.getElem?_erase, Ne.symm hne]

theorem actsOn_insertRoute (b : Broker E) (route : Route) (habout : OnlyAbout pane effects) :
    ActsOn b pane ({ b with routes := b.routes.insert pane route }, effects)
      ({ b.view pane with route := some route }, effects) :=
  ActsOn.of_onlyAbout (view_insertRoute_self b pane route) rfl habout
    fun _ hne => view_insertRoute_other b route hne

/-! ### Leaving -/

theorem watched_eq {route : Route} (hr : b.routes[pane]? = some route) :
    b.watched pane = decide ((b.view pane).screenSubscribers route ≠ []) := by
  rw [view_screenSubscribers, Bool.eq_iff_iff]
  simp [watched, hr]

/-- The screen of a pane survives a change of its route while somebody watches it. -/
theorem view_releaseScreenIfUnwatched_self (b : Broker E) (pane : PaneId) (route : Route) :
    ({ b with routes := b.routes.insert pane route }.releaseScreenIfUnwatched pane).view pane =
      { b.view pane with
        route := some route
        screen := if (b.view pane).screenSubscribers route = [] then none
          else (b.view pane).screen } := by
  have hinsert : (b.routes.insert pane route)[pane]? = some route := by simp
  have hsame := view_insertRoute_self b pane route
  -- who watches depends on the subscriptions and the given route only
  have hwatched : ({ b with routes := b.routes.insert pane route } : Broker E).watched pane =
      decide ((b.view pane).screenSubscribers route ≠ []) := watched_eq hinsert
  rw [releaseScreenIfUnwatched, hwatched]
  by_cases hempty : (b.view pane).screenSubscribers route = []
  · rw [if_neg (by simpa using hempty), if_pos hempty, view_eraseScreen_self, hsame]
  · rw [if_pos (by simpa using hempty), if_neg hempty, hsame]

theorem view_releaseScreenIfUnwatched_other (b : Broker E) {pane other : PaneId}
    (hne : other ≠ pane) : (b.releaseScreenIfUnwatched pane).view other = b.view other := by
  rw [releaseScreenIfUnwatched]
  split_ifs
  · rfl
  · exact view_eraseScreen_other b hne

theorem actsOn_releasePane (b : Broker E) (client : ClientId) (pane : PaneId) :
    ActsOn b pane (b.releasePane client pane) ((b.view pane).release pane client) := by
  cases hr : b.routes[pane]? with
  | none =>
    simp only [releasePane, PaneView.release, view_route, hr]
    exact ActsOn.refl b pane
  | some route =>
    simp only [releasePane, PaneView.release, view_route, hr]
    by_cases hempty : (route.subscribers.erase client).isEmpty
    · rw [if_pos hempty, if_pos hempty]
      exact actsOn_insertRoute b _ (onlyAbout_singleton fun other => rfl)
    · rw [if_neg hempty, if_neg hempty]
      -- the screen is reconsidered with the client gone, then the lease is dropped
      set rest : Route := { route with subscribers := route.subscribers.erase client }
      set b₁ := { b with routes := b.routes.insert pane rest }.releaseScreenIfUnwatched pane
      have hself : b₁.view pane = _ := view_releaseScreenIfUnwatched_self b pane rest
      have hother : ∀ other, other ≠ pane → b₁.view other = b.view other := fun other hne => by
        rw [view_releaseScreenIfUnwatched_other _ hne, view_insertRoute_other b rest hne]
      by_cases hctl : route.control = some client
      · rw [if_pos hctl, if_pos hctl]
        refine ActsOn.of_onlyAbout ?_ rfl
          (onlyAbout_of_administer (administer_dropControl rest)) fun other hne => ?_
        · rw [view_insertRoute_self, hself]
        · rw [view_insertRoute_other _ _ hne, hother other hne]
      · rw [if_neg hctl, if_neg hctl]
        exact ActsOn.of_onlyAbout hself rfl (onlyAbout_nil pane) hother

theorem updatesAt_erasePane (clients : ExtTreeMap ClientId Client) (client : ClientId)
    (pane : PaneId) :
    UpdatesAt clients (clients.modify client fun session =>
      { session with panes := session.panes.erase pane }) client pane none :=
  fun client' pane' => subscriptionIn_erasePane clients client client' pane pane'

theorem actsOn_unsubscribePane
    {subscription : PaneSubscription} (hs : b.subscription client pane = some subscription) :
    ActsOn b pane ({ b with clients := b.clients.modify client fun session =>
        { session with panes := session.panes.erase pane } }.releasePane client pane)
      ((b.view pane).leave pane client) := by
  set b₁ : Broker E := { b with clients := b.clients.modify client fun session =>
    { session with panes := session.panes.erase pane } }
  have hforget : UpdatesAt b.clients b₁.clients client pane none :=
    updatesAt_erasePane b.clients client pane
  have hself : b₁.view pane =
      { b.view pane with sub := Function.update (b.view pane).sub client none } :=
    hforget.view_self
  rw [PaneView.leave, if_neg (by simp [hs]), ← hself]
  exact (actsOn_releasePane b₁ client pane).of_view fun other hne =>
    hforget.view_other hne rfl rfl

theorem seen_exec {step : Broker E → PaneId → Broker E × List Effect}
    {act : PaneId → PaneView E → PaneView E × List Effect}
    (hstep : ∀ b key, ActsOn b key (step b key) (act key (b.view key))) (b : Broker E)
    (pane : PaneId) {keys : List PaneId} (hnd : keys.Nodup) :
    Seen pane (exec step b keys)
      (if pane ∈ keys then act pane (b.view pane) else (b.view pane, [])) := by
  have hloop := @exec_project _ _ _ _ (Effect.about pane) step (·.view pane) _ pane (act pane)
    (fun b key hne => (hstep b key).elsewhere pane (Ne.symm hne))
    (fun b => (hstep b pane).here) b keys hnd
  rw [Seen, hloop.1, hloop.2]
  split_ifs <;> exact ⟨rfl, rfl⟩

/-- A connection that ends leaves every pane it watched, each once. -/
theorem seen_disconnect (b : Broker E) (client : ClientId) (pane : PaneId) :
    Seen pane (b.disconnect client) ((b.view pane).leave pane client) := by
  cases hc : b.clients[client]? with
  | none =>
    have hs : b.subscription client pane = none := by simp [subscription, subscriptionIn, hc]
    simp [disconnect, hc, PaneView.leave, hs, Seen]
  | some departing =>
    have hs : b.subscription client pane = departing.panes[pane]? := by
      simp [subscription, subscriptionIn, hc]
    have hgone : ({ b with clients := b.clients.erase client } : Broker E).view pane =
        { b.view pane with sub := Function.update (b.view pane).sub client none } := by
      ext1
      · rfl
      · rfl
      · funext client'
        simp [subscription, subscriptionIn_erase, Function.update_apply, eq_comm]
    have hloop := @seen_exec E (fun b key => b.releasePane client key)
      (fun key v => v.release key client) (fun b key => actsOn_releasePane b client key)
      { b with clients := b.clients.erase client } pane _ departing.panes.nodup_keys
    rw [hgone] at hloop
    rw [disconnect, hc, PaneView.leave, view_sub, hs]
    by_cases hmem : pane ∈ departing.panes
    · rw [if_pos (ExtTreeMap.mem_keys.mpr hmem)] at hloop
      rw [if_neg (by simpa using hmem)]
      exact hloop
    · -- the subscription that was forgotten was none
      have hnone : departing.panes[pane]? = none := by simpa using hmem
      have hsame : Function.update (b.view pane).sub client none = (b.view pane).sub := by
        rw [Function.update_eq_self_iff, view_sub, hs, hnone]
      rw [if_neg (mt ExtTreeMap.mem_keys.mp hmem), hsame] at hloop
      rw [if_pos hnone]
      exact hloop

/-! ### The lease -/

theorem actsOn_takeControl
    (hc : b.clients[client]? = some session) (pane : PaneId) (onlyIfFree : Bool) :
    ActsOn b pane (b.takeControl client pane onlyIfFree)
      ((b.view pane).take pane client onlyIfFree) := by
  have hs : (b.view pane).sub client = session.panes[pane]? := by
    simp [subscription, subscriptionIn, hc]
  simp only [takeControl, hc, PaneView.take, hs, view_route]
  cases session.panes[pane]? with
  | none =>
    -- the refusal is not about the pane's stream
    exact ⟨⟨rfl, rfl⟩, fun other _ => ⟨rfl, rfl⟩⟩
  | some subscription =>
    cases hr : b.routes[pane]? with
    | none => exact ActsOn.refl b pane
    | some route =>
      simp only
      split_ifs with hmine hfree
      · exact ActsOn.refl b pane
      · exact ActsOn.of_onlyAbout rfl rfl (onlyAbout_send rfl client) fun _ _ => rfl
      · exact actsOn_insertRoute b _
          (onlyAbout_of_administer (administer_handOver route client _ _))

/-- The control holder's resize. -/
theorem actsOn_paneResize (hctl : b.holdsControl client pane) (cols rows : UInt16) :
    ActsOn b pane (b.paneResize client pane cols rows)
      ((b.view pane).resize pane client cols rows) := by
  obtain ⟨route, hr, hholds⟩ : ∃ route, b.routes[pane]? = some route ∧
      route.control = some client := by
    simpa [holdsControl, Option.bind_eq_some_iff] using hctl
  have hwrite : UpdatesAt b.clients (b.paneResize client pane cols rows).1.clients client pane
      ((b.subscription client pane).map ({ · with cols, rows })) :=
    updatesAt_modify b.clients client pane _
  refine ActsOn.of_onlyAbout ?_ ?_ (onlyAbout_singleton fun other => rfl) fun other hne => ?_
  · rw [hwrite.view_self]
    simp [paneResize, PaneView.resize, hr, hholds]
  · simp [paneResize, PaneView.resize, hr, hholds]
  · refine hwrite.view_other hne ?_ rfl
    simp [paneResize, ExtTreeMap.getElem?_modify, Ne.symm hne]

/-! ### Acknowledgements -/

theorem updateFor_pane (subscription : PaneSubscription) (pane : PaneId) (rendered : Rendered) :
    (subscription.updateFor pane rendered).pane = some pane := by
  unfold PaneSubscription.updateFor
  split
  · split_ifs <;> rfl
  · rfl

theorem actsOn_ackPaneScreen (b : Broker E) (client : ClientId) (pane : PaneId)
    (sequence : ℕ) :
    ActsOn b pane (b.ackPaneScreen client pane sequence)
      ((b.view pane).ack pane client sequence) := by
  simp only [ackPaneScreen, PaneView.ack, view_sub, view_screen]
  cases hs : b.subscription client pane with
  | none => exact ActsOn.refl b pane
  | some subscription =>
    have hsettle := updatesAt_modify b.clients client pane (·.settle sequence)
    have hs' : subscriptionIn b.clients client pane = some subscription := hs
    rw [hs'] at hsettle
    simp only
    by_cases hunknown : sequence ∉ subscription.outstanding
    · rw [if_pos hunknown, if_pos hunknown]
      exact ActsOn.refl b pane
    · rw [if_neg hunknown, if_neg hunknown]
      have hquiet := ActsOn.of_updatesAt hsettle (onlyAbout_nil pane)
      cases hscr : b.screens[pane]? with
      | none => simpa [hscr] using hquiet
      | some state =>
        simp only
        split_ifs with hfull
        · simpa [hscr] using hquiet
        · have hcatch := ActsOn.of_updatesAt (hsettle.modify (·.push state.last.sequence))
            (onlyAbout_send (updateFor_pane (subscription.settle sequence) pane
              ⟨state.last, none, true⟩) client)
          simpa [hscr] using hcatch

/-! ### Frames -/

/-- Offering a frame to one client writes its subscription. -/
theorem updatesAt_offerTo (pane : PaneId) (rendered : Rendered)
    (clients : ExtTreeMap ClientId Client) (client : ClientId) :
    UpdatesAt clients (offerTo pane rendered clients client).1 client pane
      ((subscriptionIn clients client pane).map (·.offered pane rendered)) := by
  intro client' pane'
  cases hs : subscriptionIn clients client pane with
  | none =>
    simp only [offerTo, hs, Option.map_none]
    split_ifs with h
    · rw [← h.1, ← h.2, hs]
    · rfl
  | some subscription =>
    cases ho : subscription.offer pane rendered with
    | none =>
      simp only [offerTo, hs, ho, Option.map_some, PaneSubscription.offered, Option.map_none,
        Option.getD_none]
      split_ifs with h
      · rw [← h.1, ← h.2, hs]
      · rfl
    | some sent =>
      simp only [offerTo, hs, ho, PaneSubscription.offered, Option.map_some, Option.getD_some]
      rw [subscriptionIn_modifySubscription, hs, Option.map_some]

theorem offerTo_effects (pane : PaneId) (rendered : Rendered)
    (clients : ExtTreeMap ClientId Client) (client : ClientId) :
    (offerTo pane rendered clients client).2 =
      ((subscriptionIn clients client pane).map fun subscription =>
        subscription.offerEffects pane rendered client).getD [] := by
  cases hs : subscriptionIn clients client pane with
  | none => simp [offerTo, hs]
  | some subscription =>
    cases ho : subscription.offer pane rendered <;>
      simp [offerTo, hs, ho, PaneSubscription.offerEffects]

variable {subscribers : List ClientId}

/-- Offering a frame to distinct clients: each is offered it once, in the subscription it
had. -/
theorem exec_offerTo (pane : PaneId) (rendered : Rendered)
    (clients : ExtTreeMap ClientId Client)
    (hnd : subscribers.Nodup) :
    (∀ client, subscriptionIn (exec (offerTo pane rendered) clients subscribers).1 client =
      if client ∈ subscribers then
        fun pane' => if pane = pane' then
            (subscriptionIn clients client pane).map (·.offered pane rendered)
          else subscriptionIn clients client pane'
      else subscriptionIn clients client) ∧
    (exec (offerTo pane rendered) clients subscribers).2 =
      subscribers.flatMap fun client =>
        ((subscriptionIn clients client pane).map fun subscription =>
          subscription.offerEffects pane rendered client).getD [] := by
  refine @exec_pointwise _ _ _ _ (offerTo pane rendered) _ subscriptionIn
    (fun panes pane' => if pane = pane' then (panes pane).map (·.offered pane rendered)
      else panes pane')
    (fun client panes => ((panes pane).map fun subscription =>
      subscription.offerEffects pane rendered client).getD []) ?_
    (offerTo_effects pane rendered) clients subscribers hnd
  intro clients client client'
  funext pane'
  rw [updatesAt_offerTo pane rendered clients client client' pane']
  by_cases hc : client = client'
  · subst hc
    simp
  · simp [hc]

theorem onlyAbout_offers (pane : PaneId) (rendered : Rendered)
    (sub : ClientId → Option PaneSubscription) (subscribers : List ClientId) :
    OnlyAbout pane (subscribers.flatMap fun client =>
      ((sub client).map fun subscription =>
        subscription.offerEffects pane rendered client).getD []) := by
  intro effect he other
  obtain ⟨client, -, hmem⟩ := List.mem_flatMap.mp he
  cases hs : sub client with
  | none => simp [hs] at hmem
  | some subscription =>
    simp only [hs, Option.map_some, Option.getD_some, PaneSubscription.offerEffects,
      PaneSubscription.offer] at hmem
    split_ifs at hmem
    · cases hmem
    · cases hmem
    · rw [List.mem_singleton.mp hmem]
      simp [Effect.about, updateFor_pane]

theorem nodup_subscribers (route : Route) : route.subscribers.toList.Nodup :=
  route.subscribers.distinct_toList.imp ReflCmp.ne_of_cmp_ne_eq

theorem actsOn_renderFor (b : Broker E) (pane : PaneId) (width height : UInt16) (full : Bool)
    (bytes : List UInt8) (hnd : subscribers.Nodup) :
    ActsOn b pane (b.renderFor pane width height full bytes subscribers)
      ((b.view pane).render pane width height full bytes subscribers) := by
  simp only [renderFor, PaneView.render, view_screen, view_sub]
  set advanced := (b.screens[pane]?.getD (ScreenState.new E width height)).advance
    width height full bytes
  obtain ⟨hsubs, hout⟩ := exec_offerTo pane advanced.2 b.clients hnd
  refine ActsOn.of_onlyAbout ?_ hout ?_ fun other hne => ?_
  · ext1
    · rfl
    · simp
    · funext client
      rw [view_sub, subscription, hsubs]
      by_cases hmem : client ∈ subscribers <;> simp [hmem, subscription]
  · rw [hout]
    exact onlyAbout_offers pane advanced.2 (subscriptionIn b.clients · pane) subscribers
  · ext1
    · rfl
    · simp [ExtTreeMap.getElem?_insert, Ne.symm hne]
    · funext client
      rw [view_sub, subscription, hsubs]
      by_cases hmem : client ∈ subscribers <;> simp [hmem, subscription, Ne.symm hne]

theorem actsOn_paneFrame (b : Broker E) (pane : PaneId) (sequence : ℕ) (width height : UInt16)
    (full : Bool) (bytes : List UInt8) :
    ActsOn b pane (b.paneFrame pane sequence width height full bytes)
      ((b.view pane).frame pane sequence width height full bytes) := by
  cases hr : b.routes[pane]? with
  | none =>
    simp only [paneFrame, PaneView.frame, view_route, hr]
    exact ActsOn.refl b pane
  | some route =>
    have hframes : OnlyAbout pane (((b.view pane).frameSubscribers route).map fun client =>
        Effect.send client (.paneFrame pane sequence width height full bytes)) :=
      onlyAbout_map_send rfl _
    have hnd : ((b.view pane).screenSubscribers route).Nodup := (nodup_subscribers route).filter _
    have hpart : (route.subscribers.toList.partition fun client =>
          b.representationOf client pane = .screen) =
        ((b.view pane).screenSubscribers route, (b.view pane).frameSubscribers route) := by
      rw [List.partition_eq_filter_filter]
      exact Prod.ext rfl (List.filter_congr fun client _ => by simp)
    simp only [paneFrame, PaneView.frame, view_route, hr, hpart, List.isEmpty_iff]
    split_ifs with hnone
    · refine ActsOn.of_onlyAbout ?_ rfl hframes fun _ hne => view_eraseScreen_other b hne
      rw [view_eraseScreen_self]
      simp [hr]
    · have hrender := actsOn_renderFor b pane width height full bytes hnd
      refine ⟨⟨hrender.here.1, ?_⟩, fun other hne => ⟨(hrender.elsewhere other hne).1, ?_⟩⟩
      · rw [List.filter_append, hframes.filter_self, hrender.here.2]
      · rw [List.filter_append, hframes.filter_other hne, (hrender.elsewhere other hne).2,
          List.nil_append]

/-! ### The ends of a route -/

theorem actsOn_closeIfUnclaimed (b : Broker E) (pane : PaneId) :
    ActsOn b pane (b.closeIfUnclaimed pane) ((b.view pane).expire pane) := by
  simp only [closeIfUnclaimed, PaneView.expire, view_route]
  by_cases hunclaimed : b.routes[pane]?.any Route.unclaimed
  · rw [if_pos hunclaimed, if_pos hunclaimed]
    refine ActsOn.of_onlyAbout ?_ rfl (onlyAbout_singleton fun other => rfl) fun other hne => ?_
    · simp [view, subscription]
    · simp [view, subscription, ExtTreeMap.getElem?_erase, Ne.symm hne]
  · rw [if_neg hunclaimed, if_neg hunclaimed]
    exact ActsOn.refl b pane

/-- Dropping distinct subscribers is pointwise. -/
theorem exec_dropSubscriber (pane : PaneId) (clients : ExtTreeMap ClientId Client)
    (hnd : subscribers.Nodup) :
    (∀ client, subscriptionIn (exec (dropSubscriber pane) clients subscribers).1 client =
      if client ∈ subscribers then
        fun pane' => if pane = pane' then none else subscriptionIn clients client pane'
      else subscriptionIn clients client) ∧
    (exec (dropSubscriber pane) clients subscribers).2 =
      subscribers.flatMap fun client => [Effect.send client (.paneClosed pane)] := by
  refine @exec_pointwise _ _ _ _ (dropSubscriber pane) _ subscriptionIn
    (fun panes pane' => if pane = pane' then none else panes pane')
    (fun client _ => [Effect.send client (.paneClosed pane)]) ?_ (fun _ _ => rfl) clients
    subscribers hnd
  intro clients client client'
  funext pane'
  rw [dropSubscriber, subscriptionIn_erasePane]
  by_cases hc : client = client'
  · subst hc
    simp
  · simp [hc]

theorem actsOn_paneRouteClosed (b : Broker E) (pane : PaneId) :
    ActsOn b pane (b.paneRouteClosed pane) ((b.view pane).close pane) := by
  simp only [paneRouteClosed, PaneView.close, view_route]
  cases b.routes[pane]? with
  | none => exact ActsOn.refl b pane
  | some route =>
    obtain ⟨hsubs, hout⟩ := exec_dropSubscriber pane b.clients (nodup_subscribers route)
    have hmap : (exec (dropSubscriber pane) b.clients route.subscribers.toList).2 =
        route.subscribers.toList.map fun client => Effect.send client (.paneClosed pane) := by
      rw [hout, List.map_eq_flatMap]
    refine ActsOn.of_onlyAbout ?_ hmap ?_ fun other hne => ?_
    · ext1
      · simp
      · simp
      · funext client
        rw [view_sub, subscription, hsubs]
        by_cases hmem : client ∈ route.subscribers <;> simp [hmem, subscription]
    · rw [hmap]
      exact onlyAbout_map_send rfl _
    · ext1
      · simp [ExtTreeMap.getElem?_erase, Ne.symm hne]
      · simp [ExtTreeMap.getElem?_erase, Ne.symm hne]
      · funext client
        rw [view_sub, subscription, hsubs]
        by_cases hmem : client ∈ route.subscribers <;> simp [hmem, subscription, Ne.symm hne]

theorem actsOn_routeDowngraded (b : Broker E) (pane : PaneId) :
    ActsOn b pane (b.routeDowngraded pane) ((b.view pane).downgrade pane) := by
  simp only [routeDowngraded, PaneView.downgrade, view_route]
  cases hr : b.routes[pane]? with
  | none => exact ActsOn.refl b pane
  | some route =>
    simp only
    split_ifs with hobserved
    · exact ActsOn.refl b pane
    · exact actsOn_insertRoute b _ (onlyAbout_map_send rfl _)

/-! ### What an event does to one pane -/

/-- What a greeted client's message does to one pane. -/
def messageAction (pane : PaneId) (client : ClientId) : ClientMessage → Option PaneAction
  | .subscribePane p access cols rows representation =>
      if p = pane then some (.subscribe client access cols rows representation) else none
  | .unsubscribePane p => if p = pane then some (.leave client) else none
  | .takePaneControl p onlyIfFree => if p = pane then some (.take client onlyIfFree) else none
  | .paneResize p cols rows => if p = pane then some (.resize client cols rows) else none
  | .ackPaneScreen p sequence => if p = pane then some (.ack client sequence) else none
  | _ => none

/-- Whether a client is connected and was greeted. -/
def greeted (b : Broker E) (client : ClientId) : Bool := b.clients[client]?.any Client.greeted

/-- What an event does to one pane: at most one thing. -/
def action (pane : PaneId) (b : Broker E) : Event → Option PaneAction
  | .disconnect client => some (.leave client)
  | .handle client message =>
      if b.greeted client then messageAction pane client message else none
  | .federationUpdated state =>
      if ({ b with state } : Broker E).paneIsGone pane then some .close else none
  | .paneFrame p sequence width height full bytes =>
      if p = pane then some (.frame sequence width height full bytes) else none
  | .closeIfUnclaimed p => if p = pane then some .expire else none
  | .paneRouteClosed p => if p = pane then some .close else none
  | .routeDowngraded p => if p = pane then some .downgrade else none
  | _ => none

/-- A pane is subscribed to by a greeted client's message, and by nothing else. -/
theorem action_eq_subscribe {event : Event}
    {access : TerminalAccess} {cols rows : UInt16} {representation : PaneRepresentation} :
    b.action pane event = some (.subscribe client access cols rows representation) ↔
      b.greeted client = true ∧
        event = .handle client (.subscribePane pane access cols rows representation) := by
  constructor
  · intro h
    cases event with
    | handle client' message =>
      simp only [action] at h
      split_ifs at h with hg
      cases message with
      | subscribePane p access' cols' rows' representation' =>
        simp only [messageAction] at h
        split_ifs at h with hp
        subst hp
        obtain ⟨rfl, rfl, rfl, rfl, rfl⟩ : client' = client ∧ access' = access ∧ cols' = cols ∧
          rows' = rows ∧ representation' = representation := by simpa using h
        exact ⟨hg, rfl⟩
      | _ =>
        simp only [messageAction] at h
        first | (split_ifs at h; cases h) | cases h
    | _ =>
      simp only [action] at h
      first | (split_ifs at h; cases h) | cases h
  · rintro ⟨hg, rfl⟩
    simp [action, messageAction, hg]

/-- An action of a pane, or nothing. -/
def actOption (pane : PaneId) (v : PaneView E) (a : Option PaneAction) :
    PaneView E × List Effect :=
  a.elim (v, []) (v.act pane)

theorem ActsOn.seen {p : PaneId}
    {a : PaneAction} (h : ActsOn b p result ((b.view p).act p a)) (pane : PaneId) :
    Seen pane result (actOption pane (b.view pane) (if p = pane then some a else none)) := by
  by_cases hp : p = pane
  · subst hp
    rw [if_pos rfl]
    exact h.here
  · rw [if_neg hp]
    exact h.elsewhere pane (Ne.symm hp)

theorem seen_idle (hview : result.1.view pane = b.view pane)
    (hquiet : ∀ effect ∈ result.2, effect.about pane = false) :
    Seen pane result (b.view pane, []) :=
  ⟨hview, List.filter_eq_nil_iff.mpr fun effect he => by simp [hquiet effect he]⟩

theorem seen_withLease {operation : Broker E × List Effect}
    (h : Seen pane operation (b.view pane, [])) (client : ClientId) (p : PaneId) :
    Seen pane (b.withLease client p operation) (b.view pane, []) := by
  unfold withLease
  split_ifs
  · exact h
  · exact ⟨rfl, rfl⟩

theorem view_flag (b : Broker E) (client : ClientId) {f : Client → Client}
    (hf : ∀ session, (f session).panes = session.panes) (pane : PaneId) :
    ({ b with clients := b.clients.modify client f } : Broker E).view pane = b.view pane := by
  ext1
  · rfl
  · rfl
  · funext client'
    exact subscriptionIn_modify_of_panes b.clients client client' pane hf

theorem actsOn_resizeWithLease (b : Broker E) (client : ClientId) (pane : PaneId)
    (cols rows : UInt16) :
    ActsOn b pane (b.withLease client pane (b.paneResize client pane cols rows))
      ((b.view pane).resize pane client cols rows) := by
  unfold withLease
  split_ifs with hctl
  · exact actsOn_paneResize hctl cols rows
  · have hquiet : (b.view pane).resize pane client cols rows = (b.view pane, []) := by
      simp only [PaneView.resize, view_route]
      cases hr : b.routes[pane]? with
      | none => rfl
      | some route => simp [holdsControl, hr] at hctl ⊢; simp [hctl]
    rw [hquiet]
    exact ⟨⟨rfl, rfl⟩, fun other _ => ⟨rfl, rfl⟩⟩

theorem seen_serve
    (hc : b.clients[client]? = some session) (message : ClientMessage) (pane : PaneId) :
    Seen pane (b.serve client message)
      (actOption pane (b.view pane) (messageAction pane client message)) := by
  cases message with
  | subscribePane p access cols rows representation =>
    exact (actsOn_subscribePane hc p access cols rows representation).seen pane
  | ackPaneScreen p sequence => exact (actsOn_ackPaneScreen b client p sequence).seen pane
  | takePaneControl p onlyIfFree => exact (actsOn_takeControl hc p onlyIfFree).seen pane
  | paneResize p cols rows => exact (actsOn_resizeWithLease b client p cols rows).seen pane
  | unsubscribePane p =>
    refine ActsOn.seen ?_ pane
    simp only [serve, PaneView.act]
    cases hs : b.subscription client p with
    | none =>
      rw [PaneView.leave, if_pos (by simp [hs])]
      exact ActsOn.refl b p
    | some subscription => exact actsOn_unsubscribePane hs
  | paneInput p | paneScroll p | pastePaneText _ p | beginUpload _ p | resumeUpload _ _ p
  | beginDownload _ p =>
    refine seen_withLease ?_ client p
    exact ⟨rfl, rfl⟩
  | transferBetween _ source _ destination =>
    refine seen_withLease (seen_withLease ?_ client destination) client source
    exact ⟨rfl, rfl⟩
  | subscribeState | subscribeNotifications | unsubscribeNotifications =>
    refine ⟨view_flag b client ?_ pane, rfl⟩
    exact fun _ => rfl
  | subscribeAgentCards =>
    refine ⟨view_flag b client ?_ pane, ?_⟩
    · exact fun _ => rfl
    · simp only [serve]
      split <;> rfl
  | _ => exact ⟨rfl, rfl⟩

theorem seen_handle (b : Broker E) (client : ClientId) (message : ClientMessage)
    (pane : PaneId) :
    Seen pane (b.handle client message)
      (actOption pane (b.view pane) (b.action pane (.handle client message))) := by
  cases hc : b.clients[client]? with
  | none =>
    simp only [handle, action, greeted, hc, Option.any_none]
    exact ⟨rfl, rfl⟩
  | some session =>
    simp only [handle, action, greeted, hc, Option.any_some]
    by_cases hg : session.greeted
    · rw [if_pos hg, if_pos hg]
      exact seen_serve hc message pane
    · rw [if_neg hg, if_neg hg]
      unfold handshake
      split
      · split_ifs
        · refine ⟨view_flag b client ?_ pane, rfl⟩
          exact fun _ => rfl
        · exact ⟨rfl, rfl⟩
      · exact ⟨rfl, rfl⟩

theorem broadcast_quiet {flag : Client → Bool} (h : message.pane = none) :
    ∀ effect ∈ clients.toList.filterMap (fun entry =>
      if flag entry.2 then some (Effect.send entry.1 message) else none),
      effect.about pane = false := by
  intro effect he
  obtain ⟨entry, -, hsend⟩ := List.mem_filterMap.mp he
  split_ifs at hsend
  obtain rfl := Option.some.inj hsend
  simp [Effect.about, h]

theorem targetChanges_pane {previous state : FederationState}
    (h : message ∈ targetChanges previous state) : message.pane = none := by
  rcases List.mem_append.mp h with h | h
  · obtain ⟨⟨key, target⟩, -, hmsg⟩ := List.mem_filterMap.mp h
    simp only at hmsg
    split_ifs at hmsg
    obtain rfl := Option.some.inj hmsg
    rfl
  · obtain ⟨key, -, rfl⟩ := List.mem_map.mp h
    rfl

theorem seen_federationUpdated (b : Broker E) (state : FederationState) (pane : PaneId) :
    Seen pane (b.federationUpdated state)
      (actOption pane (b.view pane) (b.action pane (.federationUpdated state))) := by
  have hloop : Seen pane (closeVanishedRoutes { b with state }) _ :=
    @seen_exec E paneRouteClosed (fun key v => v.close key) actsOn_paneRouteClosed
      { b with state } pane _ (b.routes.nodup_keys.filter _)
  have hview : ({ b with state } : Broker E).view pane = b.view pane := rfl
  have hclose : (if pane ∈ b.routes.keys.filter ({ b with state } : Broker E).paneIsGone
        then (b.view pane).close pane else (b.view pane, [])) =
      actOption pane (b.view pane) (b.action pane (.federationUpdated state)) := by
    by_cases hgone : ({ b with state } : Broker E).paneIsGone pane
    · by_cases hmem : pane ∈ b.routes
      · simp [action, hgone, hmem, actOption, PaneView.act]
      · -- a pane without a route has nothing to close
        simp [action, hgone, hmem, actOption, PaneView.act, PaneView.close]
    · simp [action, hgone, actOption]
  rw [← hclose, ← hview]
  refine ⟨hloop.1, ?_⟩
  rw [federationUpdated, List.filter_append, hloop.2]
  have hquiet : ((targetChanges b.state state).flatMap
      ({ b with state } : Broker E).broadcastState).filter (Effect.about pane) = [] := by
    refine List.filter_eq_nil_iff.mpr fun effect he => ?_
    obtain ⟨message, hmsg, he⟩ := List.mem_flatMap.mp he
    simp [broadcast_quiet (targetChanges_pane hmsg) effect he]
  rw [hquiet, List.nil_append]

theorem view_connect (hb : b.WellFormed) (pane : PaneId) : b.connect.1.view pane = b.view pane := by
  ext1
  · rfl
  · rfl
  · funext client
    simp only [view_sub, connect, subscription, subscriptionIn_insert]
    split_ifs with hc
    · -- the identifier was never issued before
      have hfresh : b.clients[client]? = none := by
        cases hs : b.clients[client]? with
        | none => rfl
        | some session => exact absurd (hb.fresh client session hs) (by rw [hc]; exact lt_irrefl _)
      simp [Client.new, subscriptionIn, hfresh]
    · rfl

/-- **A step, seen from one pane, is one action of the pane, or nothing.** -/
theorem seen_step (hb : b.WellFormed) (event : Event) (pane : PaneId) :
    Seen pane (b.step event) (actOption pane (b.view pane) (b.action pane event)) := by
  cases event with
  | connect => exact ⟨view_connect hb pane, rfl⟩
  | disconnect client => exact seen_disconnect b client pane
  | handle client message => exact seen_handle b client message pane
  | federationUpdated state => exact seen_federationUpdated b state pane
  | paneFrame p sequence width height full bytes =>
    exact (actsOn_paneFrame b p sequence width height full bytes).seen pane
  | closeIfUnclaimed p => exact (actsOn_closeIfUnclaimed b p).seen pane
  | paneRouteClosed p => exact (actsOn_paneRouteClosed b p).seen pane
  | routeDowngraded p => exact (actsOn_routeDowngraded b p).seen pane
  | agentCardsUpdated projection =>
    simp only [step, agentCardsUpdated]
    split_ifs
    · exact ⟨rfl, rfl⟩
    · exact seen_idle rfl (broadcast_quiet rfl)
  | notifyDevices | attentionObserved | attentionChanged | pairingApprovalRequired
  | pairingDecided => exact seen_idle rfl (broadcast_quiet rfl)
  | operationCompleted client request applied message pluginRun =>
    simp only [step, operationCompleted]
    split_ifs <;> exact ⟨rfl, rfl⟩

/-- **The broker is a pane machine, pane by pane.** -/
theorem projects (pane : PaneId) :
    Projects (@step E) (PaneView.act pane) (·.view pane) (action pane) (Effect.about pane)
      WellFormed where
  inv b event hb := wellFormed_step hb event
  idle b event hb hidle := by
    have h := seen_step hb event pane
    rwa [hidle] at h
  move b event a hb hact := by
    have h := seen_step hb event pane
    rwa [hact] at h

/-! ### Runs from the initial state -/

/-- The broker after a run from its initial state. -/
def after (E : Emulator) (serverVersion : String) (features : List String)
    (quickReplies : List QuickReply) (events : List Event) : Broker E :=
  (exec step (Broker.new E serverVersion features quickReplies) events).1

theorem after_concat (serverVersion : String) (features : List String)
    (quickReplies : List QuickReply) (events : List Event) (event : Event) :
    after E serverVersion features quickReplies (events ++ [event]) =
      ((after E serverVersion features quickReplies events).step event).1 :=
  exec_concat_fst step _ events event

theorem view_new (serverVersion : String) (features : List String)
    (quickReplies : List QuickReply) (pane : PaneId) :
    (Broker.new E serverVersion features quickReplies).view pane = .empty := by
  simp [view, Broker.new, subscription, subscriptionIn, PaneView.empty]

theorem wellFormed_after (serverVersion : String) (features : List String)
    (quickReplies : List QuickReply) (events : List Event) :
    (after E serverVersion features quickReplies events).WellFormed := by
  have hstep : ∀ (b : Broker E) event, b.WellFormed → (b.step event).1.WellFormed :=
    fun _ event hb => wellFormed_step hb event
  exact exec_invariant hstep (wellFormed_new serverVersion features quickReplies) events

/-- **An invariant of the pane machine holds of every pane, after every run.** -/
theorem view_after_invariant {J : PaneView E → Prop} (hempty : J .empty)
    (hact : ∀ v a, J v → J (v.act pane a).1) (serverVersion : String) (features : List String)
    (quickReplies : List QuickReply) (events : List Event) :
    J ((after E serverVersion features quickReplies events).view pane) := by
  refine (projects pane).invariant hact (wellFormed_new serverVersion features quickReplies) ?_
    events
  rw [view_new]
  exact hempty

/-- **Every run of the broker is, pane by pane, a run of the pane alone**: its part of the state and
the effects about it, in order, are those of the pane's own machine under what the run did to it. -/
theorem exec_view (serverVersion : String) (features : List String) (quickReplies : List QuickReply)
    (events : List Event) (pane : PaneId) :
    let start := Broker.new E serverVersion features quickReplies
    let alone := exec (PaneView.act pane) .empty (heard step (action pane) start events)
    (exec step start events).1.view pane = alone.1 ∧
      (exec step start events).2.filter (Effect.about pane) = alone.2 := by
  intro start alone
  have hrun := (projects (E := E) pane).exec_heard
    (wellFormed_new serverVersion features quickReplies) events
  rwa [view_new] at hrun

/-! ### Concrete runs -/

/-- A pane for concrete runs. -/
def pane₁ : PaneId := ⟨"local", "default", "p1"⟩

/-- The broker of a concrete run, over the simplest emulator. -/
def ran (events : List Event) : Broker teletype := after teletype "0.9.0" [] [] events

/-- A client connects, under the next identifier, and is greeted. -/
def greeting (client : ClientId) : List Event :=
  [.connect, .handle client (.hello PROTOCOL_VERSION "tui")]

end Broker

end SuperHerdr
