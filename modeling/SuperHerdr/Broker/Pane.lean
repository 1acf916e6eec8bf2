import Mathlib.Logic.Function.Basic
import SuperHerdr.Broker.Basic

/-!
# One pane of the broker

The abstract model the broker is measured against: everything the broker knows of **one**
pane, and what can happen to it. A `PaneView` is the pane's route, its rendered screen, and
each client's subscription to it, as a function of the client; a `PaneAction` is one of the
nine things that can happen to a pane, and `PaneView.act` says what each does to the view and
which effects about the pane it causes.

That the broker *is* this machine, pane by pane, is the content of
`SuperHerdr/Broker/Projection.lean`; the invariants of the broker are proved here, on a state
with no maps in it, and carried over.
-/

namespace SuperHerdr

open Std

/-- The effects that report on one pane's stream or move it: its route opened, closed,
unclaimed or resized, and what its subscribers are told. -/
def Effect.about (pane : PaneId) : Effect → Bool
  | .send _ message => message.pane = some pane
  | .openRoute p _ _ _ | .closeRoute p | .routeUnclaimed p | .routeResize p _ _ => p = pane
  | _ => false

theorem filter_about {pane : PaneId} {kind : Effect → Bool}
    (h : ∀ effect, kind effect = true → effect.about pane = true) (effects : List Effect) :
    (effects.filter (Effect.about pane)).filter kind = effects.filter kind := by
  rw [List.filter_filter]
  refine List.filter_congr fun effect _ => ?_
  by_cases hkind : kind effect = true
  · simp [hkind, h effect hkind]
  · simp [hkind]

/-! ### What the functions on routes emit -/

/-- The effects that open, close and resize a pane's stream or speak of its lease. -/
def Effect.administers (pane : PaneId) : Effect → Bool
  | .send _ (.paneLease p _) | .openRoute p _ _ _ | .closeRoute p | .routeUnclaimed p
  | .routeResize p _ _ => p = pane
  | _ => false

/-- Effects that only administer one pane. -/
def Administer (pane : PaneId) (effects : List Effect) : Prop :=
  ∀ effect ∈ effects, effect.administers pane = true

section Administer

variable {pane : PaneId}

theorem administer_nil : Administer pane [] := by
  intro effect he
  cases he

theorem administer_singleton {effect : Effect} (h : effect.administers pane = true) :
    Administer pane [effect] := by
  intro e he
  rwa [List.mem_singleton.mp he]

theorem Administer.append {es fs : List Effect} (he : Administer pane es)
    (hf : Administer pane fs) : Administer pane (es ++ fs) := by
  intro effect h
  rcases List.mem_append.mp h with h | h
  · exact he effect h
  · exact hf effect h

theorem administer_reopen (access : TerminalAccess) (cols rows : UInt16) :
    Administer pane [.closeRoute pane, .openRoute pane access cols rows] := by
  intro effect he
  rcases List.mem_pair.mp he with rfl | rfl <;> simp [Effect.administers]

theorem administer_leases (clients : List ClientId) (access : TerminalAccess) :
    Administer pane (clients.map fun client => Effect.send client (.paneLease pane access)) := by
  intro effect he
  obtain ⟨client, -, rfl⟩ := List.mem_map.mp he
  simp [Effect.administers]

theorem administer_resizeForControl (route : Route) (cols rows : UInt16) :
    Administer pane (route.resizeForControl pane cols rows).2 := by
  unfold Route.resizeForControl
  split
  · exact administer_nil
  · exact administer_singleton (by simp [Effect.administers])

theorem administer_join (route : Option Route) (client : ClientId) (access : TerminalAccess)
    (cols rows : UInt16) :
    Administer pane (Route.join route pane client access cols rows).2.2 := by
  cases route with
  | none => exact administer_singleton (by simp [Effect.administers])
  | some route =>
    simp only [Route.join]
    split
    · exact administer_resizeForControl _ cols rows
    · split <;> exact administer_nil

theorem administer_handOver (route : Route) (client : ClientId) (cols rows : UInt16) :
    Administer pane (route.handOver pane client cols rows).2 := by
  simp only [Route.handOver]
  refine (((administer_resizeForControl _ cols rows).append ?_).append ?_).append ?_
  · split
    · exact administer_reopen _ _ _
    · exact administer_nil
  · cases route.control with
    | none => exact administer_nil
    | some previous => exact administer_singleton (by simp [Effect.administers])
  · exact administer_singleton (by simp [Effect.administers])

theorem administer_dropControl (route : Route) : Administer pane (route.dropControl pane).2 := by
  simp only [Route.dropControl]
  refine Administer.append ?_ (administer_leases _ _)
  split
  · exact administer_reopen _ _ _
  · exact administer_nil

end Administer

/-! ### The pane machine -/

/-- Everything the broker knows of one pane. -/
@[ext]
structure PaneView (E : Emulator) where
  route : Option Route
  screen : Option (ScreenState E)
  sub : ClientId → Option PaneSubscription

/-- What can happen to one pane. -/
inductive PaneAction
  | subscribe (client : ClientId) (access : TerminalAccess) (cols rows : UInt16)
      (representation : PaneRepresentation)
  | leave (client : ClientId)
  | take (client : ClientId) (onlyIfFree : Bool)
  | resize (client : ClientId) (cols rows : UInt16)
  | ack (client : ClientId) (sequence : ℕ)
  | frame (sequence : ℕ) (width height : UInt16) (full : Bool) (bytes : List UInt8)
  | expire
  | close
  | downgrade

/-- The route without one of its subscribers. -/
def Route.without (route : Route) (client : ClientId) : Route :=
  { route with subscribers := route.subscribers.erase client }

namespace PaneSubscription

/-- The subscription after it was offered a frame. -/
def offered (subscription : PaneSubscription) (pane : PaneId) (rendered : Rendered) :
    PaneSubscription :=
  ((subscription.offer pane rendered).map Prod.fst).getD subscription

/-- What is sent to a client that is offered a frame. -/
def offerEffects (subscription : PaneSubscription) (pane : PaneId) (rendered : Rendered)
    (client : ClientId) : List Effect :=
  ((subscription.offer pane rendered).map fun sent => Effect.send client sent.2).toList

theorem offered_eq (s : PaneSubscription) (pane : PaneId) (rendered : Rendered) :
    ∃ sent outstanding, s.offered pane rendered = { s with sent, outstanding } := by
  unfold offered offer
  split
  · exact ⟨s.sent, s.outstanding, rfl⟩
  · split
    · exact ⟨s.sent, s.outstanding, rfl⟩
    · exact ⟨_, _, rfl⟩

theorem offered_representation (s : PaneSubscription) (pane : PaneId) (rendered : Rendered) :
    (s.offered pane rendered).representation = s.representation := by
  obtain ⟨sent, outstanding, h⟩ := s.offered_eq pane rendered
  rw [h]

theorem mem_offerEffects {subscription : PaneSubscription} {pane : PaneId} {rendered : Rendered}
    {client : ClientId} {effect : Effect}
    (h : effect ∈ subscription.offerEffects pane rendered client) :
    effect = .send client (subscription.updateFor pane rendered) := by
  unfold offerEffects offer at h
  split at h
  · cases h
  · split at h
    · cases h
    · exact List.mem_singleton.mp h

end PaneSubscription

namespace PaneView

variable {E : Emulator}

/-- A pane nobody ever asked for. -/
def empty : PaneView E := ⟨none, none, fun _ => none⟩

def representationOf (v : PaneView E) (client : ClientId) : PaneRepresentation :=
  ((v.sub client).map PaneSubscription.representation).getD default

/-- The subscribers that want a rendered screen, in order. -/
def screenSubscribers (v : PaneView E) (route : Route) : List ClientId :=
  route.subscribers.toList.filter fun client => v.representationOf client = .screen

/-- The subscribers that want encoded output, in order. -/
def frameSubscribers (v : PaneView E) (route : Route) : List ClientId :=
  route.subscribers.toList.filter fun client => ¬ v.representationOf client = .screen

/-- The screen a newcomer is shown at once. -/
def shownTo (v : PaneView E) (representation : PaneRepresentation) : Option Snapshot :=
  if representation = .screen then v.screen.map ScreenState.last else none

def subscribe (v : PaneView E) (pane : PaneId) (client : ClientId) (access : TerminalAccess)
    (cols rows : UInt16) (representation : PaneRepresentation) : PaneView E × List Effect :=
  let fresh : PaneSubscription := ⟨access, cols, rows, representation, none, []⟩
  let shown := v.shownTo representation
  let joined := Route.join v.route pane client access cols rows
  ({ v with
      route := some joined.1
      sub := Function.update v.sub client
        (some ((shown.map fun screen => fresh.push screen.sequence).getD fresh)) },
    joined.2.2 ++ (shown.map fun screen => Effect.send client (.paneScreen pane screen)).toList ++
      [.send client (.paneLease pane joined.2.1)])

/-- What is left of the route, and of the screen, once a subscriber is gone. -/
def release (v : PaneView E) (pane : PaneId) (client : ClientId) : PaneView E × List Effect :=
  match v.route with
  | none => (v, [])
  | some route =>
      let route := { route with subscribers := route.subscribers.erase client }
      if route.subscribers.isEmpty then
        ({ v with route := some { route with unclaimed := true, control := none } },
          [.routeUnclaimed pane])
      else
        let screen := if v.screenSubscribers route = [] then none else v.screen
        if route.control = some client then
          let dropped := route.dropControl pane
          ({ v with route := some dropped.1, screen }, dropped.2)
        else ({ v with route := some route, screen }, [])

def leave (v : PaneView E) (pane : PaneId) (client : ClientId) : PaneView E × List Effect :=
  if v.sub client = none then (v, [])
  else { v with sub := Function.update v.sub client none }.release pane client

def take (v : PaneView E) (pane : PaneId) (client : ClientId) (onlyIfFree : Bool) :
    PaneView E × List Effect :=
  match v.sub client, v.route with
  | some subscription, some route =>
      if route.control = some client then (v, [])
      else if onlyIfFree ∧ route.control.isSome then
        (v, [.send client (.paneLease pane .observe)])
      else
        let handed := route.handOver pane client subscription.cols subscription.rows
        ({ v with route := some handed.1 }, handed.2)
  | _, _ => (v, [])

def resize (v : PaneView E) (pane : PaneId) (client : ClientId) (cols rows : UInt16) :
    PaneView E × List Effect :=
  match v.route with
  | some route =>
      if route.control = some client then
        ({ v with
            route := some { route with cols, rows }
            sub := Function.update v.sub client ((v.sub client).map ({ · with cols, rows })) },
          [.routeResize pane cols rows])
      else (v, [])
  | none => (v, [])

def ack (v : PaneView E) (pane : PaneId) (client : ClientId) (sequence : ℕ) :
    PaneView E × List Effect :=
  match v.sub client with
  | none => (v, [])
  | some subscription =>
      if sequence ∉ subscription.outstanding then (v, [])
      else
        let settled := subscription.settle sequence
        match v.screen with
        | none => ({ v with sub := Function.update v.sub client (some settled) }, [])
        | some state =>
            if settled.sent = some state.last.sequence ∨
                MAX_OUTSTANDING_SCREEN_UPDATES ≤ settled.outstanding.length then
              ({ v with sub := Function.update v.sub client (some settled) }, [])
            else
              ({ v with
                  sub := Function.update v.sub client
                    (some (settled.push state.last.sequence)) },
                [.send client (settled.updateFor pane ⟨state.last, none, true⟩)])

/-- Parse a frame into the pane's screen and offer it to the screen subscribers. -/
def render (v : PaneView E) (pane : PaneId) (width height : UInt16) (full : Bool)
    (bytes : List UInt8) (subscribers : List ClientId) : PaneView E × List Effect :=
  let advanced :=
    (v.screen.getD (ScreenState.new E width height)).advance width height full bytes
  ({ v with
      screen := some advanced.1
      sub := fun client =>
        if client ∈ subscribers then (v.sub client).map (·.offered pane advanced.2)
        else v.sub client },
    subscribers.flatMap fun client =>
      ((v.sub client).map fun subscription =>
        subscription.offerEffects pane advanced.2 client).getD [])

def frame (v : PaneView E) (pane : PaneId) (sequence : ℕ) (width height : UInt16)
    (full : Bool) (bytes : List UInt8) : PaneView E × List Effect :=
  match v.route with
  | none => (v, [])
  | some route =>
      let effects := (v.frameSubscribers route).map fun client =>
        Effect.send client (.paneFrame pane sequence width height full bytes)
      if v.screenSubscribers route = [] then ({ v with screen := none }, effects)
      else
        let rendered := v.render pane width height full bytes (v.screenSubscribers route)
        (rendered.1, effects ++ rendered.2)

def expire (v : PaneView E) (pane : PaneId) : PaneView E × List Effect :=
  if v.route.any Route.unclaimed then
    ({ v with route := none, screen := none }, [.closeRoute pane])
  else (v, [])

def close (v : PaneView E) (pane : PaneId) : PaneView E × List Effect :=
  match v.route with
  | none => (v, [])
  | some route =>
      ({ route := none
         screen := none
         sub := fun client => if client ∈ route.subscribers then none else v.sub client },
        route.subscribers.toList.map fun client => Effect.send client (.paneClosed pane))

def downgrade (v : PaneView E) (pane : PaneId) : PaneView E × List Effect :=
  match v.route with
  | none => (v, [])
  | some route =>
      if route.access = .observe ∧ route.control = none then (v, [])
      else
        ({ v with route := some { route with access := .observe, control := none } },
          route.subscribers.toList.map fun client => .send client (.paneLease pane .observe))

/-- What an action does to its pane, and the effects about the pane it causes. -/
def act (pane : PaneId) (v : PaneView E) : PaneAction → PaneView E × List Effect
  | .subscribe client access cols rows representation =>
      v.subscribe pane client access cols rows representation
  | .leave client => v.leave pane client
  | .take client onlyIfFree => v.take pane client onlyIfFree
  | .resize client cols rows => v.resize pane client cols rows
  | .ack client sequence => v.ack pane client sequence
  | .frame sequence width height full bytes => v.frame pane sequence width height full bytes
  | .expire => v.expire pane
  | .close => v.close pane
  | .downgrade => v.downgrade pane

/-! ### What an action can do -/

variable (v : PaneView E)

theorem resize_cases (pane : PaneId) (client : ClientId) (cols rows : UInt16) :
    v.resize pane client cols rows = (v, []) ∨
      ∃ route, v.route = some route ∧ route.control = some client ∧
        v.resize pane client cols rows =
          ({ v with
              route := some { route with cols, rows }
              sub := Function.update v.sub client
                ((v.sub client).map ({ · with cols, rows })) },
            [.routeResize pane cols rows]) := by
  unfold resize
  split
  · next route hr =>
    split
    · next hctl => exact .inr ⟨route, hr, hctl, rfl⟩
    · exact .inl rfl
  · exact .inl rfl

theorem expire_cases (pane : PaneId) :
    v.expire pane = (v, []) ∨ v.route.any Route.unclaimed = true ∧
      v.expire pane = ({ v with route := none, screen := none }, [.closeRoute pane]) := by
  unfold expire
  split
  · next hun => exact .inr ⟨hun, rfl⟩
  · exact .inl rfl

theorem close_cases (pane : PaneId) :
    (v.route = none ∧ v.close pane = (v, [])) ∨ ∃ route, v.route = some route ∧ v.close pane =
      ({ route := none
         screen := none
         sub := fun client => if client ∈ route.subscribers then none else v.sub client },
        route.subscribers.toList.map fun client => Effect.send client (.paneClosed pane)) := by
  cases hr : v.route with
  | none => exact .inl ⟨rfl, by rw [close, hr]⟩
  | some route => exact .inr ⟨route, rfl, by rw [close, hr]⟩

theorem downgrade_cases (pane : PaneId) :
    v.downgrade pane = (v, []) ∨ ∃ route, v.route = some route ∧ v.downgrade pane =
      ({ v with route := some { route with access := .observe, control := none } },
        route.subscribers.toList.map fun client => .send client (.paneLease pane .observe)) := by
  cases hr : v.route with
  | none => exact .inl (by simp [downgrade, hr])
  | some route =>
    by_cases hdone : route.access = .observe ∧ route.control = none
    · exact .inl (by simp [downgrade, hr, hdone])
    · refine .inr ⟨route, rfl, ?_⟩
      simp only [downgrade, hr]
      rw [if_neg hdone]

/-- Taking the lease is nothing for its holder and for who does not watch the pane, is refused
if it was to be taken only when free, or hands the lease over. -/
theorem take_cases (pane : PaneId) (client : ClientId) (onlyIfFree : Bool) :
    v.take pane client onlyIfFree = (v, []) ∨
      ∃ s route, v.sub client = some s ∧ v.route = some route ∧ route.control ≠ some client ∧
        (v.take pane client onlyIfFree = (v, [.send client (.paneLease pane .observe)]) ∨
          v.take pane client onlyIfFree =
            ({ v with route := some (route.handOver pane client s.cols s.rows).1 },
              (route.handOver pane client s.cols s.rows).2)) := by
  cases hs : v.sub client with
  | none => exact .inl (by simp [take, hs])
  | some s =>
    cases hr : v.route with
    | none => exact .inl (by simp [take, hr])
    | some route =>
      by_cases hmine : route.control = some client
      · exact .inl (by simp [take, hs, hr, hmine])
      · refine .inr ⟨s, route, rfl, rfl, hmine, ?_⟩
        simp only [take, hs, hr, if_neg hmine]
        split
        · exact .inl rfl
        · exact .inr rfl

/-- The pane without the subscription of one client. -/
def without (v : PaneView E) (client : ClientId) : PaneView E :=
  { v with sub := Function.update v.sub client none }

/-- Leaving is nothing for who does not watch the pane. The last one leaves the route unclaimed;
anybody else leaves it to the others, with the screen only if one of them renders, and without
control if the lease goes too. -/
theorem leave_cases (pane : PaneId) (client : ClientId) :
    (v.sub client = none ∧ v.leave pane client = (v, [])) ∨ v.sub client ≠ none ∧
      ((v.route = none ∧ v.leave pane client = (v.without client, [])) ∨
        ∃ route, v.route = some route ∧
          (((route.without client).subscribers = ∅ ∧ v.leave pane client =
              ({ v.without client with
                  route := some { route.without client with unclaimed := true, control := none } },
                [.routeUnclaimed pane])) ∨
            (route.without client).subscribers ≠ ∅ ∧ ∃ screen,
              screen = (if (v.without client).screenSubscribers (route.without client) = []
                then none else v.screen) ∧
              ((route.control = some client ∧ v.leave pane client =
                  ({ v.without client with
                      route := some ((route.without client).dropControl pane).1
                      screen },
                    ((route.without client).dropControl pane).2)) ∨
                (route.control ≠ some client ∧ v.leave pane client =
                  ({ v.without client with route := some (route.without client), screen },
                    []))))) := by
  by_cases hs : v.sub client = none
  · exact .inl ⟨hs, by rw [leave, if_pos hs]⟩
  refine .inr ⟨hs, ?_⟩
  cases hr : v.route with
  | none => exact .inl ⟨rfl, by simp [leave, hs, release, hr, without]⟩
  | some route =>
    refine .inr ⟨route, rfl, ?_⟩
    by_cases hempty : (route.subscribers.erase client).isEmpty = true
    · refine .inl ⟨ExtTreeSet.isEmpty_iff.mp hempty, ?_⟩
      simp only [leave, if_neg hs, release, hr, if_pos hempty]
      rfl
    · have hothers : (route.without client).subscribers ≠ ∅ :=
        fun hnobody => hempty (ExtTreeSet.isEmpty_iff.mpr hnobody)
      refine .inr ⟨hothers, _, rfl, ?_⟩
      by_cases hctl : route.control = some client
      · refine .inl ⟨hctl, ?_⟩
        simp only [leave, if_neg hs, release, hr, if_neg hempty, if_pos hctl]
        rfl
      · refine .inr ⟨hctl, ?_⟩
        simp only [leave, if_neg hs, release, hr, if_neg hempty, if_neg hctl]
        rfl

/-- What an acknowledgement can do: nothing, or settle the queue of its sender and, unless that
is up to date or still full, send it the current screen. -/
theorem ack_cases (pane : PaneId) (client : ClientId) (sequence : ℕ) :
    (v.ack pane client sequence = (v, []) ∧
        ∀ s, v.sub client = some s → sequence ∉ s.outstanding) ∨
      ∃ s, v.sub client = some s ∧ sequence ∈ s.outstanding ∧
        ((v.screen = none ∧ v.ack pane client sequence =
            ({ v with sub := Function.update v.sub client (some (s.settle sequence)) }, [])) ∨
          ∃ state, v.screen = some state ∧
            if (s.settle sequence).sent = some state.last.sequence ∨
                MAX_OUTSTANDING_SCREEN_UPDATES ≤ (s.settle sequence).outstanding.length then
              v.ack pane client sequence =
                ({ v with sub := Function.update v.sub client (some (s.settle sequence)) }, [])
            else v.ack pane client sequence =
              ({ v with
                  sub := Function.update v.sub client
                    (some ((s.settle sequence).push state.last.sequence)) },
                [.send client ((s.settle sequence).updateFor pane ⟨state.last, none, true⟩)])) := by
  cases hs : v.sub client with
  | none => exact .inl ⟨by simp [ack, hs], fun s hs' => by cases hs'⟩
  | some s =>
    by_cases hmem : sequence ∈ s.outstanding
    · refine .inr ⟨s, rfl, hmem, ?_⟩
      cases hscreen : v.screen with
      | none => exact .inl ⟨rfl, by simp [ack, hs, hmem, hscreen]⟩
      | some state =>
        refine .inr ⟨state, rfl, ?_⟩
        split_ifs with hdone <;> simp [ack, hs, hmem, hscreen, hdone]
    · refine .inl ⟨by simp [ack, hs, hmem], fun s' hs' => ?_⟩
      obtain rfl := Option.some.inj hs'
      exact hmem

theorem mem_ack_effects {v : PaneView E} {pane : PaneId} {client : ClientId} {sequence : ℕ}
    {effect : Effect} (he : effect ∈ (v.ack pane client sequence).2) :
    ∃ subscription rendered,
      effect = .send client (PaneSubscription.updateFor subscription pane rendered) := by
  rcases v.ack_cases pane client sequence with
    ⟨hact, -⟩ | ⟨s, -, -, ⟨-, hact⟩ | ⟨state, -, hact⟩⟩
  · rw [hact] at he
    cases he
  · rw [hact] at he
    cases he
  · split at hact
    · rw [hact] at he
      cases he
    · rw [hact] at he
      exact ⟨_, _, List.mem_singleton.mp he⟩

/-- What a frame can do: nothing without a route, drop the screen if nobody renders, or render
it for those who do. -/
theorem frame_cases (pane : PaneId) (sequence : ℕ) (width height : UInt16)
    (full : Bool) (bytes : List UInt8) :
    (v.route = none ∧ v.frame pane sequence width height full bytes = (v, [])) ∨
      ∃ route, v.route = some route ∧
        ((v.screenSubscribers route = [] ∧
            v.frame pane sequence width height full bytes =
              ({ v with screen := none },
                (v.frameSubscribers route).map fun client =>
                  Effect.send client (.paneFrame pane sequence width height full bytes))) ∨
          (v.screenSubscribers route ≠ [] ∧
            v.frame pane sequence width height full bytes =
              ((v.render pane width height full bytes (v.screenSubscribers route)).1,
                ((v.frameSubscribers route).map fun client =>
                  Effect.send client (.paneFrame pane sequence width height full bytes)) ++
                (v.render pane width height full bytes (v.screenSubscribers route)).2))) := by
  cases hr : v.route with
  | none => exact .inl ⟨rfl, by simp [frame, hr]⟩
  | some route =>
    refine .inr ⟨route, rfl, ?_⟩
    simp only [frame, hr]
    by_cases hnone : v.screenSubscribers route = []
    · exact .inl ⟨hnone, by rw [if_pos hnone]⟩
    · exact .inr ⟨hnone, by rw [if_neg hnone]⟩

theorem mem_render_effects {v : PaneView E} {pane : PaneId} {width height : UInt16} {full : Bool}
    {bytes : List UInt8} {subscribers : List ClientId} {effect : Effect}
    (he : effect ∈ (v.render pane width height full bytes subscribers).2) :
    ∃ client subscription rendered,
      effect = .send client (PaneSubscription.updateFor subscription pane rendered) := by
  obtain ⟨client, -, hoffer⟩ := List.mem_flatMap.mp he
  cases hs : v.sub client with
  | none => simp [hs] at hoffer
  | some subscription =>
    simp only [hs, Option.map_some, Option.getD_some] at hoffer
    exact ⟨client, subscription, _, PaneSubscription.mem_offerEffects hoffer⟩

/-- A frame is sent on as it is, or as an update of the screen. -/
theorem mem_frame_effects {v : PaneView E} {pane : PaneId} {sequence : ℕ}
    {width height : UInt16} {full : Bool} {bytes : List UInt8} {effect : Effect}
    (he : effect ∈ (v.frame pane sequence width height full bytes).2) :
    ∃ client, effect = .send client (.paneFrame pane sequence width height full bytes) ∨
      ∃ subscription rendered,
        effect = .send client (PaneSubscription.updateFor subscription pane rendered) := by
  have hencoded : ∀ clients : List ClientId, effect ∈ (clients.map fun client =>
      Effect.send client (.paneFrame pane sequence width height full bytes)) →
      ∃ client, effect = .send client (.paneFrame pane sequence width height full bytes) := by
    intro clients hmem
    obtain ⟨client, -, rfl⟩ := List.mem_map.mp hmem
    exact ⟨client, rfl⟩
  rcases v.frame_cases pane sequence width height full bytes with
    ⟨-, hact⟩ | ⟨route, -, ⟨-, hact⟩ | ⟨-, hact⟩⟩
  · rw [hact] at he
    cases he
  · rw [hact] at he
    obtain ⟨client, h⟩ := hencoded _ he
    exact ⟨client, .inl h⟩
  · rw [hact] at he
    rcases List.mem_append.mp he with he | he
    · obtain ⟨client, h⟩ := hencoded _ he
      exact ⟨client, .inl h⟩
    · obtain ⟨client, update⟩ := mem_render_effects he
      exact ⟨client, .inr update⟩

/-! ### What an action leaves alone -/

theorem ack_eq (pane : PaneId) (client : ClientId) (sequence : ℕ) :
    (v.ack pane client sequence).1 = v ∨ ∃ s sent outstanding, v.sub client = some s ∧
      (v.ack pane client sequence).1 =
        { v with sub := Function.update v.sub client (some { s with sent, outstanding }) } := by
  rcases v.ack_cases pane client sequence with
    ⟨hact, -⟩ | ⟨s, hs, -, ⟨-, hact⟩ | ⟨state, -, hact⟩⟩
  · exact .inl (by rw [hact])
  · exact .inr ⟨s, _, _, hs, by rw [hact]; rfl⟩
  · split at hact
    · exact .inr ⟨s, _, _, hs, by rw [hact]; rfl⟩
    · exact .inr ⟨s, _, _, hs, by rw [hact]; rfl⟩

@[simp] theorem ack_route (pane : PaneId) (client : ClientId) (sequence : ℕ) :
    (v.ack pane client sequence).1.route = v.route := by
  rcases v.ack_eq pane client sequence with h | ⟨s, sent, outstanding, -, h⟩ <;> rw [h]

@[simp] theorem ack_screen (pane : PaneId) (client : ClientId) (sequence : ℕ) :
    (v.ack pane client sequence).1.screen = v.screen := by
  rcases v.ack_eq pane client sequence with h | ⟨s, sent, outstanding, -, h⟩ <;> rw [h]

@[simp] theorem leave_sub (pane : PaneId) (client : ClientId) :
    (v.leave pane client).1.sub = Function.update v.sub client none := by
  rcases v.leave_cases pane client with ⟨hs, hact⟩ | ⟨-, ⟨-, hact⟩ | ⟨route, -,
    ⟨-, hact⟩ | ⟨-, screen, -, ⟨-, hact⟩ | ⟨-, hact⟩⟩⟩⟩
  · rw [hact, ← hs, Function.update_eq_self]
  all_goals rw [hact]; rfl

@[simp] theorem frame_route (pane : PaneId) (sequence : ℕ)
    (width height : UInt16) (full : Bool) (bytes : List UInt8) :
    (v.frame pane sequence width height full bytes).1.route = v.route := by
  rcases v.frame_cases pane sequence width height full bytes with
    ⟨-, hact⟩ | ⟨route, -, ⟨-, hact⟩ | ⟨-, hact⟩⟩
  · rw [hact]
  · rw [hact]
  · rw [hact, render]

@[simp] theorem take_sub (pane : PaneId) (client : ClientId)
    (onlyIfFree : Bool) : (v.take pane client onlyIfFree).1.sub = v.sub := by
  rcases v.take_cases pane client onlyIfFree with hact | ⟨s, route, -, -, -, hact | hact⟩ <;>
    rw [hact]

@[simp] theorem take_screen (pane : PaneId) (client : ClientId)
    (onlyIfFree : Bool) : (v.take pane client onlyIfFree).1.screen = v.screen := by
  rcases v.take_cases pane client onlyIfFree with hact | ⟨s, route, -, -, -, hact | hact⟩ <;>
    rw [hact]

@[simp] theorem downgrade_sub (pane : PaneId) : (v.downgrade pane).1.sub = v.sub := by
  rcases v.downgrade_cases pane with hact | ⟨route, -, hact⟩ <;> rw [hact]

@[simp] theorem downgrade_screen (pane : PaneId) : (v.downgrade pane).1.screen = v.screen := by
  rcases v.downgrade_cases pane with hact | ⟨route, -, hact⟩ <;> rw [hact]

@[simp] theorem close_route (pane : PaneId) : (v.close pane).1.route = none := by
  rcases v.close_cases pane with ⟨hr, hact⟩ | ⟨route, -, hact⟩
  · rw [hact, hr]
  · rw [hact]

/-- The representation in which a client is sent what the pane shows, if it watches it. -/
def shownAs (v : PaneView E) (client : ClientId) : Option PaneRepresentation :=
  (v.sub client).map PaneSubscription.representation

theorem shownAs_eq_none {v : PaneView E} {client : ClientId} :
    v.shownAs client = none ↔ v.sub client = none := Option.map_eq_none_iff

@[simp] theorem ack_shownAs (pane : PaneId) (client client' : ClientId)
    (sequence : ℕ) : (v.ack pane client sequence).1.shownAs client' = v.shownAs client' := by
  rcases v.ack_eq pane client sequence with h | ⟨s, sent, outstanding, hs, h⟩
  · rw [h]
  · rw [h]
    by_cases hc : client' = client
    · subst hc
      simp [shownAs, hs]
    · simp [shownAs, hc]

@[simp] theorem frame_shownAs (pane : PaneId) (client : ClientId)
    (sequence : ℕ) (width height : UInt16) (full : Bool) (bytes : List UInt8) :
    (v.frame pane sequence width height full bytes).1.shownAs client = v.shownAs client := by
  rcases v.frame_cases pane sequence width height full bytes with
    ⟨-, hact⟩ | ⟨route, -, ⟨-, hact⟩ | ⟨-, hact⟩⟩
  · rw [hact]
  · rw [hact]
    rfl
  · rw [hact]
    simp only [shownAs, render]
    split
    · rw [Option.map_map]
      refine Option.map_congr fun s _ => ?_
      exact PaneSubscription.offered_representation s pane _
    · rfl

theorem ack_sub_ne_none (pane : PaneId) (client client' : ClientId) (sequence : ℕ) :
    (v.ack pane client sequence).1.sub client' ≠ none ↔ v.sub client' ≠ none := by
  rw [← shownAs_eq_none.ne, ack_shownAs, shownAs_eq_none.ne]

theorem frame_sub_ne_none (pane : PaneId) (sequence : ℕ)
    (width height : UInt16) (full : Bool) (bytes : List UInt8) (client : ClientId) :
    (v.frame pane sequence width height full bytes).1.sub client ≠ none ↔
      v.sub client ≠ none := by
  rw [← shownAs_eq_none.ne, frame_shownAs, shownAs_eq_none.ne]

end PaneView

/-! ### Which actions carry content -/

/-- Effects that carry what a pane shows, encoded or rendered. The others open, close and resize
routes and speak of leases. -/
def Effect.isContent : Effect → Bool
  | .send _ (.paneFrame _ _ _ _ _ _) | .send _ (.paneScreen _ _) | .send _ (.paneScreenDiff _ _) =>
      true
  | _ => false

/-- Effects none of which carries content. -/
def Silent (effects : List Effect) : Prop := ∀ effect ∈ effects, effect.isContent = false

theorem silent_nil : Silent [] := by
  intro effect he
  cases he

theorem silent_singleton {effect : Effect} (h : effect.isContent = false) : Silent [effect] := by
  intro e he
  rwa [List.mem_singleton.mp he]

theorem Administer.silent {pane : PaneId} {effects : List Effect} (h : Administer pane effects) :
    Silent effects := by
  intro effect he
  have hadministers := h effect he
  cases effect with
  | send client message =>
    cases message with
    | paneFrame | paneScreen | paneScreenDiff => cases hadministers
    | _ => rfl
  | _ => rfl

/-- The actions that may send somebody what the pane shows: a subscription, an acknowledgement
and a frame. -/
def PaneAction.carries : PaneAction → Bool
  | .subscribe _ _ _ _ _ | .ack _ _ | .frame _ _ _ _ _ => true
  | _ => false

/-- **The other actions carry no content.** -/
theorem PaneView.silent_act {E : Emulator} (v : PaneView E) (pane : PaneId) {a : PaneAction}
    (h : a.carries = false) : Silent (v.act pane a).2 := by
  cases a with
  | subscribe client access cols rows representation => cases h
  | ack client sequence => cases h
  | frame sequence width height full bytes => cases h
  | leave client =>
    rcases v.leave_cases pane client with ⟨-, hact⟩ | ⟨-, ⟨-, hact⟩ | ⟨route, -,
      ⟨-, hact⟩ | ⟨-, screen, -, ⟨-, hact⟩ | ⟨-, hact⟩⟩⟩⟩
    · rw [act, hact]
      exact silent_nil
    · rw [act, hact]
      exact silent_nil
    · rw [act, hact]
      exact silent_singleton rfl
    · rw [act, hact]
      exact (administer_dropControl _).silent
    · rw [act, hact]
      exact silent_nil
  | take client onlyIfFree =>
    rcases v.take_cases pane client onlyIfFree with hact | ⟨s, route, -, -, -, hact | hact⟩
    · rw [act, hact]
      exact silent_nil
    · rw [act, hact]
      exact silent_singleton rfl
    · rw [act, hact]
      exact (administer_handOver route client _ _).silent
  | resize client cols rows =>
    rcases v.resize_cases pane client cols rows with hact | ⟨route, -, -, hact⟩
    · rw [act, hact]
      exact silent_nil
    · rw [act, hact]
      exact silent_singleton rfl
  | expire =>
    rcases v.expire_cases pane with hact | ⟨-, hact⟩
    · rw [act, hact]
      exact silent_nil
    · rw [act, hact]
      exact silent_singleton rfl
  | close =>
    rcases v.close_cases pane with ⟨-, hact⟩ | ⟨route, -, hact⟩
    · rw [act, hact]
      exact silent_nil
    · rw [act, hact]
      intro effect he
      obtain ⟨client, -, rfl⟩ := List.mem_map.mp he
      rfl
  | downgrade =>
    rcases v.downgrade_cases pane with hact | ⟨route, -, hact⟩
    · rw [act, hact]
      exact silent_nil
    · rw [act, hact]
      exact (administer_leases _ _).silent

end SuperHerdr
