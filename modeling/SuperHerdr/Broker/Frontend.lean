import SuperHerdr.Broker.Fidelity

/-!
# What a frame subscriber holds

The terminal frontend carries an emulator of its own for every pane it shows. It subscribes for
encoded frames, starts blank at the size it asked for, and plays what it is sent: a full frame
or one of another size rebuilds the emulator, any other is fed to it.

It is a player of the stream of the pane's route, and comes late whenever the route was open
already. `frame_agreement` says that it is in step with the reference after every frame it is
sent, in every run in which the first frame it is sent after its subscription restarts the
stream. Nothing makes sure of that: a second frontend on an open route is sent the incremental
frames that follow and no repaint (`second_frontend_on_blank`).
-/

namespace SuperHerdr

open Std Transducer Replay

variable {E : Emulator}

/-! ### The frontend's side of a pane -/

/-- One pane as the terminal frontend holds it: the size it is drawn at, its emulator, and the
last frame it was sent. -/
structure ActiveRoute (E : Emulator) where
  rows : UInt16
  columns : UInt16
  parser : E.Parser
  lastSequence : Option ℕ

namespace ActiveRoute

/-- A pane the frontend has just subscribed to. -/
def opened (E : Emulator) (cols rows : UInt16) : ActiveRoute E :=
  ⟨rows, cols, E.new rows cols 2000, none⟩

/-- The frontend is sent a frame. -/
def paneFrame (route : ActiveRoute E) (sequence : ℕ) (width height : UInt16) (full : Bool)
    (bytes : List UInt8) : ActiveRoute E :=
  let route :=
    if full ∨ route.rows ≠ height ∨ route.columns ≠ width then
      { route with parser := E.new height width 2000, rows := height, columns := width }
    else route
  { route with parser := E.process route.parser bytes, lastSequence := some sequence }

/-- The frontend's emulator as a player of the stream. -/
def held (route : ActiveRoute E) : (UInt16 × UInt16) × E.Parser :=
  ((route.rows, route.columns), route.parser)

theorem held_opened (cols rows : UInt16) :
    (opened E cols rows).held.2 = (E.interpreter 2000).fresh (opened E cols rows).held.1 := rfl

/-- A frame is played. -/
theorem held_paneFrame (route : ActiveRoute E) (sequence : ℕ) (width height : UInt16)
    (full : Bool) (bytes : List UInt8) :
    (route.paneFrame sequence width height full bytes).held =
      (E.interpreter 2000).play route.held ⟨(height, width), full, bytes⟩ := by
  have hsame : (full = true ∨ route.rows ≠ height ∨ route.columns ≠ width) ↔
      full = true ∨ (route.rows, route.columns) ≠ (height, width) := by
    rw [ne_eq (route.rows, route.columns), Prod.mk.injEq, not_and_or]
  by_cases hrestart : full = true ∨ route.rows ≠ height ∨ route.columns ≠ width
  · rw [(E.interpreter 2000).play_of_restart (hsame.mp hrestart), paneFrame, if_pos hrestart]
    rfl
  · have hsize : (route.rows, route.columns) = (height, width) := by
      by_contra hne
      exact hrestart (hsame.mpr (.inr hne))
    rw [(E.interpreter 2000).play_of_continue (hsame.not.mp hrestart), paneFrame,
      if_neg hrestart, ← hsize]
    rfl

/-- Consume one effect: a frame sent to this client for this pane, or nothing of interest. -/
def receive (client : ClientId) (pane : PaneId) (own : Option (ActiveRoute E)) :
    Effect → Option (ActiveRoute E)
  | .send receiver (.paneFrame p sequence width height full bytes) =>
      if receiver = client ∧ p = pane then own.map (·.paneFrame sequence width height full bytes)
      else own
  | _ => own

end ActiveRoute

/-- Whether an effect is a frame of one pane for one client. -/
def Effect.isFrame (client : ClientId) (pane : PaneId) : Effect → Bool
  | .send receiver (.paneFrame p _ _ _ _ _) => receiver = client ∧ p = pane
  | _ => false

/-- The size at which an event subscribes one client to one pane. -/
def Event.opening (client : ClientId) (pane : PaneId) : Event → Option (UInt16 × UInt16)
  | .handle client' (.subscribePane pane' _ cols rows _) =>
      if client' = client ∧ pane' = pane then some (cols, rows) else none
  | _ => none

theorem Event.opening_of_not_subscribes {client : ClientId} {pane : PaneId} {event : Event}
    (h : event.subscribes client pane = false) : event.opening client pane = none := by
  cases event with
  | handle client' message =>
    cases message with
    | subscribePane pane' access cols rows representation =>
      simp only [subscribes, decide_eq_false_iff_not] at h
      simp [opening, h]
    | _ => rfl
  | _ => rfl

/-- The size at which an action subscribes one client. -/
def PaneAction.opening (client : ClientId) : PaneAction → Option (UInt16 × UInt16)
  | .subscribe client' _ cols rows _ => if client' = client then some (cols, rows) else none
  | _ => none

/-- A subscription starts a blank emulator of the size that is asked for. -/
def openedBy (own : Option (ActiveRoute E)) (opening : Option (UInt16 × UInt16)) :
    Option (ActiveRoute E) :=
  (opening.map fun size => ActiveRoute.opened E size.1 size.2).or own

section Frames

variable {client : ClientId} {pane : PaneId}

theorem receive_of_not_frame (own : Option (ActiveRoute E)) (effect : Effect)
    (h : effect.isFrame client pane = false) :
    ActiveRoute.receive client pane own effect = own := by
  cases effect with
  | send receiver message =>
    cases message with
    | paneFrame p =>
      simp only [Effect.isFrame, decide_eq_false_iff_not] at h
      simp [ActiveRoute.receive, h]
    | _ => rfl
  | _ => rfl

theorem about_of_isFrame (effect : Effect) (h : effect.isFrame client pane = true) :
    effect.about pane = true := by
  cases effect with
  | send receiver message =>
    cases message with
    | paneFrame p =>
      have hp : receiver = client ∧ p = pane := by simpa [Effect.isFrame] using h
      simp [Effect.about, ServerMessage.pane, hp.2]
    | _ => cases h
  | _ => cases h

theorem filter_isFrame_quiet {effects : List Effect}
    (h : ∀ effect ∈ effects, effect.isFrame client pane = false) :
    effects.filter (Effect.isFrame client pane) = [] :=
  List.filter_eq_nil_iff.mpr fun effect he => by simp [h effect he]

theorem Silent.filter_isFrame {effects : List Effect} (h : Silent effects) :
    effects.filter (Effect.isFrame client pane) = [] := by
  refine filter_isFrame_quiet fun effect he => ?_
  have hsilent := h effect he
  cases effect with
  | send receiver message =>
    cases message with
    | paneFrame => cases hsilent
    | _ => rfl
  | _ => rfl

theorem isFrame_updateFor (subscription : PaneSubscription) (rendered : Rendered)
    (receiver : ClientId) :
    (Effect.send receiver (subscription.updateFor pane rendered)).isFrame client pane = false := by
  unfold PaneSubscription.updateFor
  split
  · split_ifs <;> rfl
  · rfl

theorem filter_isFrame_map {receivers : List ClientId} (hnd : receivers.Nodup) (sequence : ℕ)
    (width height : UInt16) (full : Bool) (bytes : List UInt8) :
    (receivers.map fun receiver =>
      Effect.send receiver (.paneFrame pane sequence width height full bytes)).filter
        (Effect.isFrame client pane) =
      if client ∈ receivers then [.send client (.paneFrame pane sequence width height full bytes)]
      else [] := by
  induction receivers with
  | nil => rfl
  | cons receiver rest ih =>
    obtain ⟨hmem, hrest⟩ := List.nodup_cons.mp hnd
    rw [List.map_cons, List.filter_cons, ih hrest]
    by_cases hc : receiver = client
    · subst hc
      simp [Effect.isFrame, hmem]
    · simp [Effect.isFrame, hc, Ne.symm hc]

end Frames

/-! ### One action -/

namespace PaneView

/-- A client keeps the representation it asked for, for as long as it watches the pane. -/
theorem act_shownAs (v : PaneView E) (pane : PaneId) {client : ClientId} {a : PaneAction}
    (h : a.subscribes client = false) :
    (v.act pane a).1.shownAs client = v.shownAs client ∨
      (v.act pane a).1.shownAs client = none := by
  have hsame : (v.act pane a).1.sub client = v.sub client →
      (v.act pane a).1.shownAs client = v.shownAs client ∨
        (v.act pane a).1.shownAs client = none := by
    intro hsub
    exact .inl (congrArg (Option.map PaneSubscription.representation) hsub)
  cases a with
  | subscribe client' access cols rows representation =>
    have hc : client' ≠ client := by simpa [PaneAction.subscribes] using h
    exact hsame (by simp [act, subscribe, Ne.symm hc])
  | leave client' =>
    by_cases hc : client = client'
    · subst hc
      exact .inr (by simp [shownAs, act])
    · exact hsame (by simp [act, hc])
  | take client' onlyIfFree => exact hsame (by rw [act, take_sub])
  | resize client' cols rows =>
    rcases resize_cases v pane client' cols rows with hact | ⟨route, -, -, hact⟩
    · exact hsame (by rw [act, hact])
    · by_cases hc : client = client'
      · subst hc
        refine .inl ?_
        simp only [shownAs, act, hact, Function.update_self, Option.map_map]
        rfl
      · exact hsame (by simp [act, hact, hc])
  | ack client' sequence => exact .inl (ack_shownAs v pane client' client sequence)
  | frame sequence width height full bytes =>
    exact .inl (frame_shownAs v pane client sequence width height full bytes)
  | expire =>
    rcases expire_cases v pane with hact | ⟨-, hact⟩
    · exact hsame (by rw [act, hact])
    · exact hsame (by rw [act, hact])
  | close =>
    rcases v.close_cases pane with ⟨-, hact⟩ | ⟨route, -, hact⟩
    · exact hsame (by rw [act, hact])
    · by_cases hmem : client ∈ route.subscribers
      · exact .inr (by simp [shownAs, act, hact, hmem])
      · exact hsame (by simp [act, hact, hmem])
  | downgrade => exact hsame (by rw [act, downgrade_sub])

/-- The frames an action sends to one client. -/
def framesTo (v : PaneView E) (pane : PaneId) (client : ClientId) (a : PaneAction) :
    List Effect :=
  (v.act pane a).2.filter (Effect.isFrame client pane)

/-- An action that delivers no frame sends none. -/
theorem framesTo_of_no_frame (v : PaneView E) (pane : PaneId) (client : ClientId)
    {a : PaneAction} (h : a.frame? = none) : v.framesTo pane client a = [] := by
  cases a with
  | subscribe client' access cols rows representation =>
    have hshown : ((v.shownTo representation).map fun screen =>
        Effect.send client' (.paneScreen pane screen)).toList.filter
          (Effect.isFrame client pane) = [] := by
      cases v.shownTo representation <;> rfl
    simp [framesTo, act, subscribe, (administer_join _ _ _ _ _).silent.filter_isFrame, hshown,
      Effect.isFrame]
  | ack client' sequence =>
    refine filter_isFrame_quiet fun effect he => ?_
    obtain ⟨subscription, rendered, rfl⟩ := mem_ack_effects he
    exact isFrame_updateFor subscription rendered client'
  | frame sequence width height full bytes => cases h
  | _ => exact (v.silent_act pane rfl).filter_isFrame

/-- A frame is sent once to every frame subscriber, and to nobody else. -/
theorem framesTo_frame {v : PaneView E} (hv : v.Coherent) (pane : PaneId) (client : ClientId)
    (sequence : ℕ) (width height : UInt16) (full : Bool) (bytes : List UInt8) :
    v.framesTo pane client (.frame sequence width height full bytes) =
      if v.shownAs client = some .frames then
        [.send client (.paneFrame pane sequence width height full bytes)]
      else [] := by
  have hencoded : ∀ route, v.route = some route →
      ((v.frameSubscribers route).map fun receiver =>
        Effect.send receiver (.paneFrame pane sequence width height full bytes)).filter
          (Effect.isFrame client pane) =
      if v.shownAs client = some .frames then
        [.send client (.paneFrame pane sequence width height full bytes)]
      else [] := by
    intro route hr
    have hnd : (v.frameSubscribers route).Nodup := (Broker.nodup_subscribers route).filter _
    have hmem : client ∈ v.frameSubscribers route ↔ v.shownAs client = some .frames := by
      have hwatches := hv.mem_iff hr client
      cases hs : v.sub client with
      | none => simp [frameSubscribers, shownAs, hs, ← hwatches]
      | some s =>
        cases hrep : s.representation <;>
          simp [frameSubscribers, shownAs, representationOf, hs, hrep, ← hwatches]
    rw [filter_isFrame_map hnd]
    exact if_congr hmem rfl rfl
  rw [framesTo, act]
  rcases frame_cases v pane sequence width height full bytes with
    ⟨hr, hact⟩ | ⟨route, hr, ⟨-, hact⟩ | ⟨-, hact⟩⟩
  · -- nobody watches a pane without a route
    have hnobody : v.sub client = none := by
      by_contra hs
      obtain ⟨route, hr', -⟩ := (hv.subscribed client).mp hs
      rw [hr] at hr'
      cases hr'
    simp [hact, shownAs, hnobody]
  · rw [hact]
    exact hencoded route hr
  · have hrendered : (v.render pane width height full bytes (v.screenSubscribers route)).2.filter
        (Effect.isFrame client pane) = [] := by
      refine filter_isFrame_quiet fun effect he => ?_
      obtain ⟨receiver, subscription, rendered, rfl⟩ := mem_render_effects he
      exact isFrame_updateFor subscription rendered receiver
    rw [hact, List.filter_append, hrendered, List.append_nil]
    exact hencoded route hr

/-- A frame subscriber has an emulator, and it is blank and unused, or in step with the stream
of the route. -/
def InStep (v : PaneView E) (client : ClientId) (kept : List Frame)
    (own : Option (ActiveRoute E)) : Prop :=
  v.shownAs client = some .frames → ∃ route, own = some route ∧
    ((route.lastSequence = none ∧ route.held.2 = (E.interpreter 2000).fresh route.held.1) ∨
      (E.interpreter 2000).Holds kept route.held)

/-- If an action sends a frame subscriber its first frame, that restarts the stream. -/
def JoinsAtRestart (v : PaneView E) (client : ClientId) (kept : List Frame)
    (own : Option (ActiveRoute E)) (a : PaneAction) : Prop :=
  ∀ frame ∈ a.frame?, ∀ route ∈ own, v.shownAs client = some .frames →
    route.lastSequence = none → Restarts kept frame

/-- What the frontend holds after an action. -/
def ownAfter (v : PaneView E) (pane : PaneId) (client : ClientId) (a : PaneAction)
    (own : Option (ActiveRoute E)) : Option (ActiveRoute E) :=
  (v.framesTo pane client a).foldl (ActiveRoute.receive client pane)
    (openedBy own (a.opening client))

/-- What an action may do to a frontend: it is sent at most one frame, and after it is in step
with the stream of the route. -/
structure Relays (v : PaneView E) (pane : PaneId) (client : ClientId) (kept : List Frame)
    (own : Option (ActiveRoute E)) (a : PaneAction) : Prop where
  inStep : (v.act pane a).1.InStep client (deliver kept (v.act pane a).1.route a.frame?)
    (v.ownAfter pane client a own)
  one : (v.framesTo pane client a).length ≤ 1
  holds : v.framesTo pane client a ≠ [] → ∃ route, v.ownAfter pane client a own = some route ∧
    (E.interpreter 2000).render (deliver kept (v.act pane a).1.route a.frame?) =
      some route.parser

section Relays

variable {v : PaneView E} {pane : PaneId} {client : ClientId} {kept : List Frame}
  {own : Option (ActiveRoute E)}

theorem Coherent.route_of_shownAs (hv : v.Coherent) {representation : PaneRepresentation}
    (h : v.shownAs client = some representation) : ∃ route, v.route = some route := by
  have hs : v.sub client ≠ none := by
    intro hnone
    simp [shownAs, hnone] at h
  obtain ⟨route, hr, -⟩ := (hv.subscribed client).mp hs
  exact ⟨route, hr⟩

/-- **A frame keeps every frontend in step** that had one before, or for which it restarts the
stream. -/
theorem relays_frame (hv : v.Coherent) (h : v.InStep client kept own) (sequence : ℕ)
    (width height : UInt16) (full : Bool) (bytes : List UInt8)
    (hjoin : v.JoinsAtRestart client kept own (.frame sequence width height full bytes)) :
    v.Relays pane client kept own (.frame sequence width height full bytes) := by
  have hframes := framesTo_frame hv pane client sequence width height full bytes
  by_cases hshown : v.shownAs client = some .frames
  · rw [if_pos hshown] at hframes
    obtain ⟨route, hr⟩ := hv.route_of_shownAs hshown
    obtain ⟨active, rfl, hactive⟩ := h hshown
    have hkept : deliver kept (v.act pane (.frame sequence width height full bytes)).1.route
        (PaneAction.frame sequence width height full bytes).frame? =
        keep kept ⟨(height, width), full, bytes⟩ := by
      rw [act, frame_route, hr]
      rfl
    have hown : v.ownAfter pane client (.frame sequence width height full bytes) (some active) =
        some (active.paneFrame sequence width height full bytes) := by
      simp [ownAfter, hframes, PaneAction.opening, openedBy, ActiveRoute.receive]
    have hholds : (E.interpreter 2000).Holds (keep kept ⟨(height, width), full, bytes⟩)
        (active.paneFrame sequence width height full bytes).held := by
      rw [ActiveRoute.held_paneFrame]
      rcases hactive with ⟨hunused, hblank⟩ | hactive
      · -- the frontend comes late, and falls in step because the stream restarts
        exact Interpreter.holds_of_blank (hjoin _ rfl active rfl hshown hunused) hblank
      · exact hactive.play _
    refine ⟨fun _ => ⟨_, hown, .inr ?_⟩, by simp [hframes], fun _ => ⟨_, hown, ?_⟩⟩
    · rw [hkept]
      exact hholds
    · rw [hkept]
      exact hholds.state
  · rw [if_neg hshown] at hframes
    refine ⟨fun hshown' => ?_, by simp [hframes], fun hne => absurd hframes hne⟩
    rw [act, frame_shownAs] at hshown'
    exact absurd hshown' hshown

/-- An action that delivers no frame. -/
theorem relays_of_no_frame (hv : v.Coherent) (h : v.InStep client kept own) {a : PaneAction}
    (hframe : a.frame? = none) : v.Relays pane client kept own a := by
  have hframes := framesTo_of_no_frame v pane client hframe
  refine ⟨fun hshown => ?_, by simp [hframes], fun hne => absurd hframes hne⟩
  obtain ⟨route, hr⟩ := (hv.act pane a).route_of_shownAs hshown
  rw [ownAfter, hframes, List.foldl_nil, hr, hframe]
  cases hopening : a.opening client with
  | some size =>
    -- a subscription starts with a blank emulator
    exact ⟨_, rfl, .inl ⟨rfl, ActiveRoute.held_opened size.1 size.2⟩⟩
  | none =>
    have hnew : a.subscribes client = false := by
      cases a with
      | subscribe client' access cols rows representation =>
        by_contra hsame
        have hc : client' = client := by simpa [PaneAction.subscribes] using hsame
        simp [PaneAction.opening, hc] at hopening
      | _ => rfl
    rcases act_shownAs v pane hnew with hkept | hgone
    · exact h (hkept ▸ hshown)
    · rw [hgone] at hshown
      cases hshown

/-- **Every action keeps every frontend in step**, if the first frame it is sent restarts the
stream. -/
theorem InStep.act (hv : v.Coherent) (h : v.InStep client kept own) {a : PaneAction}
    (hjoin : v.JoinsAtRestart client kept own a) : v.Relays pane client kept own a := by
  cases a with
  | frame sequence width height full bytes =>
    exact relays_frame hv h sequence width height full bytes hjoin
  | _ => exact relays_of_no_frame hv h rfl

end Relays

end PaneView

/-! ### Frontends along a run -/

namespace Broker

/-- The frames of one pane that a step sends to one client. -/
def framesTo (b : Broker E) (client : ClientId) (pane : PaneId) (event : Event) : List Effect :=
  (b.step event).2.filter (Effect.isFrame client pane)

/-- What a frontend holds of a pane: it starts blank when it subscribes, and consumes what it is
sent. -/
def attach (client : ClientId) (pane : PaneId) (own : Option (ActiveRoute E)) (_ : Broker E)
    (event : Event) (result : Broker E × List Effect) : Option (ActiveRoute E) :=
  result.2.foldl (ActiveRoute.receive client pane) (openedBy own (event.opening client pane))

/-- What a frontend holds of a pane, and the stream of the pane's route. -/
def accompany (client : ClientId) (pane : PaneId) (g : Option (ActiveRoute E) × List Frame)
    (b : Broker E) (event : Event) (result : Broker E × List Effect) :
    Option (ActiveRoute E) × List Frame :=
  (attach client pane g.1 b event result, delivered pane g.2 b event result)

/-- If an event sends a frame subscriber the first frame since it subscribed, that restarts the
stream: it is full, or of another size than the frame before it, or the first on its route. -/
def JoinsAtRestart (b : Broker E) (client : ClientId) (pane : PaneId) (kept : List Frame)
    (own : Option (ActiveRoute E)) (event : Event) : Prop :=
  ∀ frame ∈ event.frame? pane, ∀ route ∈ own,
    (b.subscription client pane).map PaneSubscription.representation = some .frames →
    route.lastSequence = none → Restarts kept frame

instance (b : Broker E) (client : ClientId) (pane : PaneId) (kept : List Frame)
    (own : Option (ActiveRoute E)) (event : Event) :
    Decidable (b.JoinsAtRestart client pane kept own event) :=
  inferInstanceAs (Decidable (∀ frame ∈ event.frame? pane, _))

theorem view_shownAs (b : Broker E) (client : ClientId) (pane : PaneId) :
    (b.view pane).shownAs client =
      (b.subscription client pane).map PaneSubscription.representation := by
  rw [PaneView.shownAs, view_sub]

theorem opening_of_action {b : Broker E} {pane : PaneId} {event : Event} {a : PaneAction}
    (h : b.action pane event = some a) (client : ClientId) :
    event.opening client pane = a.opening client := by
  cases a with
  | subscribe client' access cols rows representation =>
    obtain ⟨-, rfl⟩ := action_eq_subscribe.mp h
    simp [Event.opening, PaneAction.opening]
  | _ =>
    cases hnew : event.subscribes client pane with
    | true =>
      rw [subscribes_of_action h client] at hnew
      cases hnew
    | false => exact Event.opening_of_not_subscribes hnew

/-- What is known of a frontend and of the pane it shows. -/
structure Feeds (b : Broker E) (client : ClientId) (pane : PaneId) (kept : List Frame)
    (own : Option (ActiveRoute E)) : Prop where
  wellFormed : b.WellFormed
  coherent : (b.view pane).Coherent
  inStep : (b.view pane).InStep client kept own

/-- **A step, to a frontend**: it is sent at most one frame, and is then in step with the stream
of the route. -/
theorem Feeds.step {b : Broker E} {client : ClientId} {pane : PaneId} {kept : List Frame}
    {own : Option (ActiveRoute E)} (h : b.Feeds client pane kept own) {event : Event}
    (hjoin : b.JoinsAtRestart client pane kept own event) :
    (b.step event).1.Feeds client pane (delivered pane kept b event (b.step event))
        (attach client pane own b event (b.step event)) ∧
      (b.framesTo client pane event).length ≤ 1 ∧
      (b.framesTo client pane event ≠ [] → ∃ route,
        attach client pane own b event (b.step event) = some route ∧
          (E.interpreter 2000).render (delivered pane kept b event (b.step event)) =
            some route.parser) := by
  have hb := wellFormed_step h.wellFormed event
  rw [delivered, attach, ← foldl_filter_of_ignored receive_of_not_frame, ← view_route]
  cases haction : b.action pane event with
  | none =>
    obtain ⟨hview, hout⟩ := (projects pane).idle b event h.wellFormed haction
    have hquiet : b.framesTo client pane event = [] := by
      rw [framesTo, ← filter_about about_of_isFrame, hout, List.filter_nil]
    refine ⟨⟨hb, hview ▸ h.coherent, ?_⟩, by simp [hquiet], fun hne => absurd hquiet hne⟩
    rw [framesTo] at hquiet
    rw [hquiet, List.foldl_nil, frame?_of_idle haction, hview]
    intro hshown
    obtain ⟨route, hr⟩ := h.coherent.route_of_shownAs hshown
    -- whoever watches the pane was greeted, and does not ask for it in vain
    have hnew : event.subscribes client pane = false := by
      by_contra hnew
      obtain ⟨access, cols, rows, representation, rfl⟩ :=
        Event.subscribes_iff.mp (by simpa using hnew)
      have hwatching : b.subscription client pane ≠ none := by
        intro hnone
        rw [view_shownAs, hnone] at hshown
        cases hshown
      have hg := greeted_of_subscription h.wellFormed hwatching
      simp [action, messageAction, hg] at haction
    rw [Event.opening_of_not_subscribes hnew, hr]
    exact h.inStep hshown
  | some a =>
    obtain ⟨hview, hout⟩ := (projects pane).move b event a h.wellFormed haction
    have hframes : b.framesTo client pane event = (b.view pane).framesTo pane client a := by
      rw [framesTo, ← filter_about about_of_isFrame, hout, PaneView.framesTo]
    have hrelays : (b.view pane).Relays pane client kept own a := by
      refine PaneView.InStep.act h.coherent h.inStep fun frame hframe route hroute hshown => ?_
      rw [← frame?_of_action haction] at hframe
      rw [view_shownAs] at hshown
      exact hjoin frame hframe route hroute hshown
    rw [framesTo] at hframes
    rw [framesTo, hframes, frame?_of_action haction, opening_of_action haction client]
    refine ⟨⟨hb, hview ▸ h.coherent.act pane a, ?_⟩, hrelays.one, fun hne => ?_⟩
    · rw [hview]
      exact hrelays.inStep
    · rw [hview]
      exact hrelays.holds hne

/-- **Frontends agree with the stream**: in every run in which the first frame a client is sent
after each of its subscriptions restarts the stream of the pane's route, a frontend that starts
blank when it subscribes and plays the frames it is sent is sent at most one at a step, and then
holds the same emulator state as one that was fed every frame delivered on the route since the
last one that was full or changed the size. -/
theorem frame_agreement (serverVersion : String) (features : List String)
    (quickReplies : List QuickReply) (events : List Event) (client : ClientId) (pane : PaneId)
    (h : AllSteps (observe step (accompany client pane))
      (fun s event => s.1.JoinsAtRestart client pane s.2.2 s.2.1 event)
      (Broker.new E serverVersion features quickReplies, none, []) events) :
    AllSteps (observe step (accompany client pane))
      (fun s event => (s.1.framesTo client pane event).length ≤ 1 ∧
        (s.1.framesTo client pane event ≠ [] → ∃ route,
          attach client pane s.2.1 s.1 event (s.1.step event) = some route ∧
            (E.interpreter 2000).render (delivered pane s.2.2 s.1 event (s.1.step event)) =
              some route.parser))
      (Broker.new E serverVersion features quickReplies, none, []) events := by
  refine allSteps_of_allSteps (I := fun s => s.1.Feeds client pane s.2.2 s.2.1) ?_ ?_
    ⟨wellFormed_new serverVersion features quickReplies, ?_, fun hshown => ?_⟩ h
  · rintro ⟨b, own, kept⟩ event hfeeds hjoin
    exact (hfeeds.step hjoin).1
  · rintro ⟨b, own, kept⟩ event hfeeds hjoin
    exact (hfeeds.step hjoin).2
  · rw [view_new]
    exact PaneView.coherent_empty
  · rw [view_new] at hshown
    cases hshown

/-- A second frontend that joins before a full frame holds that frame. -/
theorem frame_agreement_full_frame :
    AllSteps (observe step (accompany 1 pane₁))
        (fun s event => s.1.JoinsAtRestart 1 pane₁ s.2.2 s.2.1 event)
        (Broker.new teletype "0.9.0" [] [], none, []) (joinedBefore .frames true) ∧
      AllSteps (observe step (accompany 1 pane₁))
        (fun s event => (s.1.framesTo 1 pane₁ event).length ≤ 1 ∧
          (s.1.framesTo 1 pane₁ event ≠ [] → ∃ route,
            attach 1 pane₁ s.2.1 s.1 event (s.1.step event) = some route ∧
              (teletype.interpreter 2000).render
                (delivered pane₁ s.2.2 s.1 event (s.1.step event)) = some route.parser))
        (Broker.new teletype "0.9.0" [] [], none, []) (joinedBefore .frames true) :=
  have hjoin : AllSteps (observe step (accompany 1 pane₁))
      (fun s event => s.1.JoinsAtRestart 1 pane₁ s.2.2 s.2.1 event)
      (Broker.new teletype "0.9.0" [] [], none, []) (joinedBefore .frames true) := by
    decide
  ⟨hjoin, frame_agreement "0.9.0" [] [] (joinedBefore .frames true) 1 pane₁ hjoin⟩

/-- **Incremental output on a blank screen**: although the first frame of its route was full, a
second frontend that joins before an incremental frame holds that frame alone. -/
theorem second_frontend_on_blank :
    AllSteps (observe step (accompany 1 pane₁)) (fun s event => s.1.OpensFull pane₁ s.2.2 event)
        (Broker.new teletype "0.9.0" [] [], none, []) (joinedBefore .frames false) ∧
      ¬ AllSteps (observe step (accompany 1 pane₁))
        (fun s event => (s.1.framesTo 1 pane₁ event).length ≤ 1 ∧
          (s.1.framesTo 1 pane₁ event ≠ [] → ∃ route,
            attach 1 pane₁ s.2.1 s.1 event (s.1.step event) = some route ∧
              (teletype.interpreter 2000).render
                (delivered pane₁ s.2.2 s.1 event (s.1.step event)) = some route.parser))
        (Broker.new teletype "0.9.0" [] [], none, []) (joinedBefore .frames false) := by
  refine ⟨by decide, fun h => ?_⟩
  obtain ⟨route, hown, hrender⟩ := (AllSteps.of_append h).2 (by decide)
  -- the frontend printed the second frame, and the route has carried both
  have hprinted : (some route).map ActiveRoute.parser = some (printed 1 4 [0x62]) :=
    (congrArg (Option.map ActiveRoute.parser) hown.symm).trans (by decide)
  have hcarried : some route.parser = some (printed 1 4 [0x61, 0x62]) :=
    hrender.symm.trans (by decide)
  rw [Option.map_some, hcarried] at hprinted
  revert hprinted
  decide

end Broker

end SuperHerdr
