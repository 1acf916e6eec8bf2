import SuperHerdr.Broker.Viewer
import SuperHerdr.Library.Replay

/-!
# What a rendered screen is a rendering of

The frames delivered on a pane's route are a stream that restarts at a full repaint and at a
change of size. The reference for everything shown of the pane is an emulator that was fed
every frame since the last restart, whoever was there to see it (`Broker.deliver`,
`Emulator.interpreter`).

The broker's own emulator is a player of that stream which comes late: it is created with the
first frame that finds a screen subscriber, and dropped when nobody renders, while the stream
goes on. It is in step with the reference as long as every frame that creates it is one that
restarts the stream (`rendered_fidelity`); a screen subscriber that joins between two
incremental frames is shown the second one on a blank screen (`incremental_frame_on_blank`).
-/

namespace SuperHerdr

open Std Transducer Replay

variable {E : Emulator}

/-! ### The stream of a route -/

/-- An emulator as the interpreter of a stream of frames, whose formats are rows and columns. -/
def Emulator.interpreter (E : Emulator) (scrollback : ℕ) :
    Interpreter (UInt16 × UInt16) (List UInt8) E.Parser where
  fresh size := E.new size.1 size.2 scrollback
  feed := E.process

/-- One frame as a chunk of its route's stream. -/
abbrev Frame := Chunk (UInt16 × UInt16) (List UInt8)

/-- The frame an event delivers for one pane. -/
def Event.frame? (pane : PaneId) : Event → Option Frame
  | .paneFrame p _ width height full bytes =>
      if p = pane then some ⟨(height, width), full, bytes⟩ else none
  | _ => none

/-- The frame an action delivers. -/
def PaneAction.frame? : PaneAction → Option Frame
  | .frame _ width height full bytes => some ⟨(height, width), full, bytes⟩
  | _ => none

/-- The frames delivered on a route since the stream last restarted, after `frame?` arrived for
a pane whose route is then `route`. Without a route there is no stream. -/
def deliver (kept : List Frame) (route : Option Route) (frame? : Option Frame) : List Frame :=
  match route, frame? with
  | none, _ => []
  | some _, none => kept
  | some _, some frame => keep kept frame

namespace Broker

/-- The frames delivered on a pane's route since the stream last restarted. -/
def delivered (pane : PaneId) (kept : List Frame) (_ : Broker E) (event : Event)
    (result : Broker E × List Effect) : List Frame :=
  deliver kept result.1.routes[pane]? (event.frame? pane)

theorem frame?_eq_some {pane : PaneId} {event : Event} {frame : Frame}
    (h : event.frame? pane = some frame) : ∃ sequence, event =
      .paneFrame pane sequence frame.format.2 frame.format.1 frame.full frame.payload := by
  cases event with
  | paneFrame p sequence width height full bytes =>
    simp only [Event.frame?] at h
    split_ifs at h with hp
    subst hp
    obtain rfl := Option.some.inj h
    exact ⟨sequence, rfl⟩
  | _ => cases h

theorem frame?_of_idle {b : Broker E} {pane : PaneId} {event : Event}
    (h : b.action pane event = none) : event.frame? pane = none := by
  cases hframe : event.frame? pane with
  | none => rfl
  | some frame =>
    obtain ⟨sequence, rfl⟩ := frame?_eq_some hframe
    simp [action] at h

/-- An event and the action it is deliver the same frame. -/
theorem frame?_of_action {b : Broker E} {pane : PaneId} {event : Event} {a : PaneAction}
    (h : b.action pane event = some a) : event.frame? pane = a.frame? := by
  cases hframe : event.frame? pane with
  | some frame =>
    obtain ⟨sequence, rfl⟩ := frame?_eq_some hframe
    simp only [action, if_true, Option.some.injEq] at h
    subst h
    rfl
  | none =>
    cases a with
    | frame sequence width height full bytes =>
      cases event with
      | paneFrame p sequence' width' height' full' bytes' =>
        simp only [action] at h
        split_ifs at h with hp
        simp [Event.frame?, hp] at hframe
      | handle client message =>
        simp only [action] at h
        split_ifs at h
        cases message <;> simp only [messageAction] at h <;>
          first | (split_ifs at h; cases h) | cases h
      | _ =>
        simp only [action] at h
        first | (split_ifs at h; cases h) | cases h
    | _ => rfl

end Broker

/-! ### The broker's emulator -/

namespace ScreenState

/-- A rendered screen as a player of its route's stream. -/
def held (state : ScreenState E) : (UInt16 × UInt16) × E.Parser :=
  ((E.screen state.parser).size, state.parser)

theorem held_new (width height : UInt16) :
    (ScreenState.new E width height).held.2 =
      (E.interpreter 0).fresh (ScreenState.new E width height).held.1 := by
  simp [held, ScreenState.new, Emulator.interpreter, E.size_new]

/-- A frame is played, whatever it does to the screen. -/
theorem held_advance (state : ScreenState E) (width height : UInt16) (full : Bool)
    (bytes : List UInt8) :
    (state.advance width height full bytes).1.held =
      (E.interpreter 0).play state.held ⟨(height, width), full, bytes⟩ := by
  have hparser : (state.advance width height full bytes).1.parser =
      state.feed width height full bytes := by
    rcases advance_cases state width height full bytes with h | ⟨next, -, -, h⟩ <;> rw [h]
  have hsame : (full = true ∨ (E.screen state.parser).size.1 ≠ height ∨
      (E.screen state.parser).size.2 ≠ width) ↔
      full = true ∨ (E.screen state.parser).size ≠ (height, width) := by
    rw [ne_eq (E.screen state.parser).size, Prod.ext_iff, not_and_or]
  have hplayed : state.feed width height full bytes =
      ((E.interpreter 0).play state.held ⟨(height, width), full, bytes⟩).2 := by
    simp only [feed, hsame]
    rfl
  have hsize : (E.screen (state.feed width height full bytes)).size = (height, width) := by
    simp only [feed, E.size_process]
    split_ifs with hrestart
    · exact E.size_new height width 0
    · rw [hsame] at hrestart
      by_contra hne
      exact hrestart (.inr hne)
  rw [held, hparser, hsize, hplayed]
  rfl

theorem advance_renders (state : ScreenState E) (width height : UInt16) (full : Bool)
    (bytes : List UInt8) :
    (state.advance width height full bytes).1.last =
      Snapshot.of (E.screen (state.advance width height full bytes).1.parser)
        (state.advance width height full bytes).1.last.sequence := by
  simp only [advance]
  split_ifs with hsame
  · -- the visible screen is as it was, so the old snapshot still renders it
    obtain ⟨hwidth, hheight, hrows, hcursor⟩ := hsame
    exact Snapshot.eq_of_fields hwidth hheight hrows hcursor
  · rfl

end ScreenState

namespace PaneView

/-- The broker's emulator is in step with the stream of its route, and the screen the broker
holds is a rendering of it. -/
def Faithful (v : PaneView E) (kept : List Frame) : Prop :=
  ∀ state, v.screen = some state → (E.interpreter 0).Holds kept state.held ∧
    state.last = Snapshot.of (E.screen state.parser) state.last.sequence

/-- If an action creates the emulator, it does so at a restart of the stream. -/
def StartsAtRestart (v : PaneView E) (kept : List Frame) (a : PaneAction) : Prop :=
  ∀ route frame, a.frame? = some frame → v.route = some route → v.screenSubscribers route ≠ [] →
    v.screen = none → Restarts kept frame

/-- What becomes of the screen when no frame arrives: it stays, or it is dropped. -/
theorem act_screen {v : PaneView E} (hv : v.Coherent) (pane : PaneId) {a : PaneAction}
    (h : a.frame? = none) :
    (v.act pane a).1.screen = v.screen ∨ (v.act pane a).1.screen = none := by
  cases a with
  | subscribe client access cols rows representation => exact .inl rfl
  | leave client =>
    rcases leave_screen hv pane client with hscreen | ⟨hscreen, -⟩
    · exact .inl hscreen
    · exact .inr hscreen
  | take client onlyIfFree => exact .inl (take_screen v pane client onlyIfFree)
  | resize client cols rows =>
    rcases resize_cases v pane client cols rows with hact | ⟨route, -, -, hact⟩
    · exact .inl (by rw [act, hact])
    · exact .inl (by rw [act, hact])
  | ack client sequence => exact .inl (ack_screen v pane client sequence)
  | frame sequence width height full bytes => cases h
  | expire =>
    rcases expire_cases v pane with hact | ⟨-, hact⟩
    · exact .inl (by rw [act, hact])
    · exact .inr (by rw [act, hact])
  | close =>
    refine .inr ?_
    have hnone := close_route v pane
    by_contra hscreen
    exact (hv.close pane).screen hscreen hnone
  | downgrade => exact .inl (downgrade_screen v pane)

theorem Faithful.of_screen {v v' : PaneView E} {kept : List Frame} (h : v.Faithful kept)
    (hscreen : v'.screen = v.screen ∨ v'.screen = none) : v'.Faithful kept := by
  intro state hstate
  rcases hscreen with hscreen | hscreen
  · exact h state (hscreen ▸ hstate)
  · rw [hscreen] at hstate
    cases hstate

theorem Coherent.faithful_of_no_route {v : PaneView E} (hv : v.Coherent) (hr : v.route = none)
    (kept : List Frame) : v.Faithful kept := by
  intro state hstate
  exact absurd hr (hv.screen (by simp [hstate]))

/-- **A frame keeps the emulator in step**, if it does not create it, or restarts the stream. -/
theorem Faithful.frame {v : PaneView E} {kept : List Frame} (h : v.Faithful kept)
    (hv : v.Coherent) (pane : PaneId) (sequence : ℕ) (width height : UInt16) (full : Bool)
    (bytes : List UInt8)
    (hstart : v.StartsAtRestart kept (.frame sequence width height full bytes)) :
    (v.frame pane sequence width height full bytes).1.Faithful
      (keep kept ⟨(height, width), full, bytes⟩) := by
  rcases frame_cases v pane sequence width height full bytes with
    ⟨hr, hact⟩ | ⟨route, hr, ⟨-, hact⟩ | ⟨hwatched, hact⟩⟩
  · rw [hact]
    exact hv.faithful_of_no_route hr _
  · rw [hact]
    intro state hstate
    cases hstate
  · rw [hact]
    intro state hstate
    obtain rfl := Option.some.inj hstate
    refine ⟨?_, ScreenState.advance_renders _ width height full bytes⟩
    rw [ScreenState.held_advance]
    cases hscreen : v.screen with
    | none =>
      -- the emulator comes late, and falls in step because the stream restarts
      have hrestarts : Restarts kept ⟨(height, width), full, bytes⟩ :=
        hstart route _ rfl hr hwatched hscreen
      exact Interpreter.holds_of_blank hrestarts (ScreenState.held_new width height)
    | some state => exact (h state hscreen).1.play _

theorem Faithful.act {v : PaneView E} {kept : List Frame} (h : v.Faithful kept)
    (hv : v.Coherent) (pane : PaneId) {a : PaneAction} (hstart : v.StartsAtRestart kept a) :
    (v.act pane a).1.Faithful (deliver kept (v.act pane a).1.route a.frame?) := by
  cases hr : (v.act pane a).1.route with
  | none => exact (hv.act pane a).faithful_of_no_route hr _
  | some route =>
    cases hframe : a.frame? with
    | none => exact h.of_screen (act_screen hv pane hframe)
    | some frame =>
      cases a with
      | frame sequence width height full bytes =>
        obtain rfl := Option.some.inj hframe
        exact h.frame hv pane sequence width height full bytes hstart
      | _ => cases hframe

end PaneView

/-! ### Rendered screens along a run -/

/-- A viewer holds a rendering of the emulator that was fed the frames delivered on the route
since the stream last restarted. -/
def Viewer.Depicts (E : Emulator) (viewer : Viewer) (kept : List Frame) : Prop :=
  ∃ parser screen, (E.interpreter 0).render kept = some parser ∧ viewer = .holding screen ∧
    screen = Snapshot.of (E.screen parser) screen.sequence

namespace Broker

/-- If an event creates a pane's emulator, it does so at a restart of the stream: a frame that
finds a screen subscriber and no rendered screen is full, or of another size than the frame
before it, or the first on its route. -/
def StartsAtRestart (b : Broker E) (pane : PaneId) (kept : List Frame) (event : Event) : Prop :=
  ∀ frame ∈ event.frame? pane, b.watched pane = true → b.screens[pane]? = none →
    Restarts kept frame

instance (b : Broker E) (pane : PaneId) (kept : List Frame) (event : Event) :
    Decidable (b.StartsAtRestart pane kept event) :=
  inferInstanceAs (Decidable (∀ frame ∈ event.frame? pane, _))

/-- The first frame on a route is full. -/
def OpensFull (b : Broker E) (pane : PaneId) (kept : List Frame) (event : Event) : Prop :=
  ∀ frame ∈ event.frame? pane, b.routes[pane]? ≠ none → kept = [] → frame.full = true

instance (b : Broker E) (pane : PaneId) (kept : List Frame) (event : Event) :
    Decidable (b.OpensFull pane kept event) :=
  inferInstanceAs (Decidable (∀ frame ∈ event.frame? pane, _))

/-- What every client holds of a pane, and the stream of its route. -/
def track (pane : PaneId) (g : (ClientId → Viewer) × List Frame) (b : Broker E) (event : Event)
    (result : Broker E × List Effect) : (ClientId → Viewer) × List Frame :=
  (fun client => watch client pane (g.1 client) b event result,
    delivered pane g.2 b event result)

/-- A step keeps the emulator of a pane in step with the stream of its route. -/
theorem faithful_step {b : Broker E} (hb : b.WellFormed) {pane : PaneId}
    (hv : (b.view pane).Coherent) {kept : List Frame} (h : (b.view pane).Faithful kept)
    {event : Event} (hstart : b.StartsAtRestart pane kept event) :
    ((b.step event).1.view pane).Faithful (delivered pane kept b event (b.step event)) := by
  rw [delivered, ← view_route]
  cases haction : b.action pane event with
  | none =>
    rw [frame?_of_idle haction, ((projects pane).idle b event hb haction).1]
    cases hr : (b.view pane).route with
    | none => exact hv.faithful_of_no_route hr _
    | some route => exact h
  | some a =>
    rw [frame?_of_action haction, ((projects pane).move b event a hb haction).1]
    refine h.act hv pane fun route frame hframe hr hwatched hscreen => ?_
    rw [← frame?_of_action haction] at hframe
    refine hstart frame hframe ?_ (by rwa [view_screen] at hscreen)
    rw [view_route] at hr
    rw [watched_eq hr]
    simpa using hwatched

/-- **Rendered screens are faithful**: in every run in which a pane's emulator is only created
at a restart of the stream of its route, every update of its screen that any client is sent
leaves that client with a rendering of every frame delivered on the route since the last one
that was full or changed the size, whoever came and went in between. -/
theorem rendered_fidelity (serverVersion : String) (features : List String)
    (quickReplies : List QuickReply) (events : List Event) (pane : PaneId)
    (h : AllSteps (observe step (track pane))
      (fun s event => s.1.StartsAtRestart pane s.2.2 event)
      (Broker.new E serverVersion features quickReplies, fun _ => .nothing, []) events) :
    AllSteps (observe step (track pane))
      (fun s event => ∀ client, s.1.updatesTo client pane event ≠ [] →
        (watch client pane (s.2.1 client) s.1 event (s.1.step event)).Depicts E
          (delivered pane s.2.2 s.1 event (s.1.step event)))
      (Broker.new E serverVersion features quickReplies, fun _ => .nothing, []) events := by
  refine allSteps_of_allSteps
    (I := fun s => (∀ client, s.1.Serves client pane (s.2.1 client)) ∧
      (s.1.view pane).Faithful s.2.2) ?_ ?_ ⟨fun client =>
      serves_new serverVersion features quickReplies client pane, fun state hstate => ?_⟩ h
  · rintro ⟨b, viewers, kept⟩ event ⟨hserves, hfaithful⟩ hstart
    refine ⟨fun client => ((hserves client).step event).1, ?_⟩
    exact faithful_step (hserves 0).wellFormed (hserves 0).coherent hfaithful hstart
  · rintro ⟨b, viewers, kept⟩ event ⟨hserves, hfaithful⟩ hstart client hsent
    -- the viewer holds the screen the broker holds, which renders the emulator
    obtain ⟨state, hstate, hholds⟩ := ((hserves client).step event).2.2 hsent
    have hnext := faithful_step (hserves 0).wellFormed (hserves 0).coherent hfaithful hstart
    obtain ⟨hheld, hrenders⟩ := hnext state (by rw [view_screen, hstate])
    exact ⟨state.parser, state.last, hheld.state, hholds, hrenders⟩
  · rw [view_new] at hstate
    cases hstate

/-- A pane carries a full frame for a frame subscriber; then another client joins it, and one
more frame arrives. -/
def joinedBefore (representation : PaneRepresentation) (full : Bool) : List Event :=
  greeting 0 ++ greeting 1 ++
    [.handle 0 (.subscribePane pane₁ .observe 4 1 .frames),
      .paneFrame pane₁ 1 4 1 true [0x61],
      .handle 1 (.subscribePane pane₁ .observe 4 1 representation)] ++
    [.paneFrame pane₁ 2 4 1 full [0x62]]

/-- A viewer that joins before a full frame is shown that frame. -/
theorem rendered_fidelity_full_frame :
    AllSteps (observe step (track pane₁))
        (fun s event => s.1.StartsAtRestart pane₁ s.2.2 event)
        (Broker.new teletype "0.9.0" [] [], fun _ => .nothing, []) (joinedBefore .screen true) ∧
      AllSteps (observe step (track pane₁))
        (fun s event => ∀ client, s.1.updatesTo client pane₁ event ≠ [] →
          (watch client pane₁ (s.2.1 client) s.1 event (s.1.step event)).Depicts teletype
            (delivered pane₁ s.2.2 s.1 event (s.1.step event)))
        (Broker.new teletype "0.9.0" [] [], fun _ => .nothing, []) (joinedBefore .screen true) :=
  have hstart : AllSteps (observe step (track pane₁))
      (fun s event => s.1.StartsAtRestart pane₁ s.2.2 event)
      (Broker.new teletype "0.9.0" [] [], fun _ => .nothing, []) (joinedBefore .screen true) := by
    decide
  ⟨hstart, rendered_fidelity "0.9.0" [] [] (joinedBefore .screen true) pane₁ hstart⟩

/-- **An incremental frame on a blank screen**: although the first frame of its route was full, a
viewer that joins before an incremental frame is shown that frame alone. -/
theorem incremental_frame_on_blank :
    AllSteps (observe step (track pane₁)) (fun s event => s.1.OpensFull pane₁ s.2.2 event)
        (Broker.new teletype "0.9.0" [] [], fun _ => .nothing, []) (joinedBefore .screen false) ∧
      ¬ AllSteps (observe step (track pane₁))
        (fun s event => ∀ client, s.1.updatesTo client pane₁ event ≠ [] →
          (watch client pane₁ (s.2.1 client) s.1 event (s.1.step event)).Depicts teletype
            (delivered pane₁ s.2.2 s.1 event (s.1.step event)))
        (Broker.new teletype "0.9.0" [] [], fun _ => .nothing, [])
        (joinedBefore .screen false) := by
  refine ⟨by decide, fun h => ?_⟩
  obtain ⟨parser, screen, hrender, hholds, hscreen⟩ := AllSteps.of_append h 1 (by decide)
  -- the viewer is shown the second frame, and the route has carried both
  have hshown : Viewer.holding screen = .holding ⟨1, 4, 1, [[⟨"b", {}⟩]], some ⟨0, 1⟩⟩ :=
    hholds.symm.trans (by decide)
  have hcarried : some parser = some (printed 1 4 [0x61, 0x62]) :=
    hrender.symm.trans (by decide)
  obtain rfl := Viewer.holding.inj hshown
  obtain rfl := Option.some.inj hcarried
  revert hscreen
  decide

end Broker

end SuperHerdr
