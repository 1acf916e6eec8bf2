import SuperHerdr.Broker.Representation

/-!
# Routes and streams

The I/O layer owns the streams: it opens one for each `OpenRoute`, ends one for each
`CloseRoute`, and reports one that ended by itself. `Streams` is its side of the agreement,
obtained from the effects the broker emits and the reports it makes, in order.

`streams_agree_iff` says exactly when the two sides agree on which panes have a stream: in
every state of a run, exactly when no federation update of the run finds a routed pane gone.
Such an update takes the route away without closing its stream.
-/

namespace SuperHerdr

open Std Transducer

variable {E : Emulator}

/-! ### The I/O layer's side -/

/-- The streams the I/O layer holds open, and the panes whose stream it was asked to open while
it was open. -/
structure Streams where
  opened : ExtTreeSet PaneId
  clashes : ExtTreeSet PaneId

namespace Streams

/-- No stream yet. -/
def none : Streams := ⟨∅, ∅⟩

/-- Perform one effect. -/
def perform (io : Streams) : Effect → Streams
  | .openRoute pane _ _ _ =>
      { opened := io.opened.insert pane
        clashes := if pane ∈ io.opened then io.clashes.insert pane else io.clashes }
  | .closeRoute pane => { io with opened := io.opened.erase pane }
  | _ => io

/-- A stream that ended by itself is reported, and is not open any more. -/
def report (io : Streams) : Event → Streams
  | .paneRouteClosed pane => { io with opened := io.opened.erase pane }
  | _ => io

/-- The streams after one call of the broker: what it reports, then what it was told to do. -/
def follow (io : Streams) (_ : Broker E) (event : Event) (result : Broker E × List Effect) :
    Streams :=
  result.2.foldl perform (io.report event)

/-- One pane's stream: whether it is open, and whether it was opened while it was. -/
def ofPane (io : Streams) (pane : PaneId) : Bool × Bool :=
  (io.opened.contains pane, io.clashes.contains pane)

end Streams

/-- What an effect does to the stream of one pane. -/
def streamStep (pane : PaneId) (stream : Bool × Bool) : Effect → Bool × Bool
  | .openRoute p _ _ _ => if p = pane then (true, stream.2 || stream.1) else stream
  | .closeRoute p => if p = pane then (false, stream.2) else stream
  | _ => stream

namespace Streams

theorem ofPane_perform (io : Streams) (effect : Effect) (pane : PaneId) :
    (io.perform effect).ofPane pane = streamStep pane (io.ofPane pane) effect := by
  cases effect with
  | openRoute p access cols rows =>
    by_cases hp : p = pane
    · subst hp
      by_cases hopen : p ∈ io.opened <;> simp [perform, ofPane, streamStep, hopen]
    · by_cases hopen : p ∈ io.opened <;>
        simp [perform, ofPane, streamStep, hopen, hp, ExtTreeSet.contains_insert]
  | closeRoute p =>
    by_cases hp : p = pane <;> simp [perform, ofPane, streamStep, hp, ExtTreeSet.contains_erase]
  | _ => rfl

theorem ofPane_foldl (io : Streams) (effects : List Effect) (pane : PaneId) :
    (effects.foldl perform io).ofPane pane = effects.foldl (streamStep pane) (io.ofPane pane) := by
  induction effects generalizing io with
  | nil => rfl
  | cons effect rest ih => rw [List.foldl_cons, List.foldl_cons, ih, ofPane_perform]

end Streams

theorem streamStep_of_not_about {pane : PaneId} (stream : Bool × Bool) (effect : Effect)
    (h : effect.about pane = false) : streamStep pane stream effect = stream := by
  cases effect <;> simp_all [Effect.about, streamStep]

/-! ### What an action does to the stream of its pane -/

section StreamStep

variable {pane : PaneId}

theorem foldl_streamStep_map_send (receivers : List ClientId)
    (message : ClientId → ServerMessage) (stream : Bool × Bool) :
    (receivers.map fun receiver => Effect.send receiver (message receiver)).foldl
      (streamStep pane) stream = stream := by
  refine foldl_of_ignored (fun effect he stream => ?_) stream
  obtain ⟨receiver, -, rfl⟩ := List.mem_map.mp he
  rfl

theorem foldl_streamStep_resizeForControl (route : Route) (cols rows : UInt16)
    (stream : Bool × Bool) :
    (route.resizeForControl pane cols rows).2.foldl (streamStep pane) stream = stream := by
  unfold Route.resizeForControl
  split_ifs <;> rfl

theorem foldl_streamStep_join (route : Option Route) (client : ClientId)
    (access : TerminalAccess) (cols rows : UInt16) :
    (Route.join route pane client access cols rows).2.2.foldl (streamStep pane)
      (route.isSome, false) = (true, false) := by
  cases route with
  | none => simp [Route.join, streamStep]
  | some route =>
    simp only [Route.join]
    split_ifs
    · exact foldl_streamStep_resizeForControl _ cols rows _
    · rfl
    · rfl

theorem foldl_streamStep_reopen (access : TerminalAccess) (cols rows : UInt16) :
    [Effect.closeRoute pane, .openRoute pane access cols rows].foldl (streamStep pane)
      (true, false) = (true, false) := by
  simp [streamStep]

theorem foldl_streamStep_dropControl (route : Route) :
    (route.dropControl pane).2.foldl (streamStep pane) (true, false) = (true, false) := by
  simp only [Route.dropControl, List.foldl_append]
  rw [foldl_streamStep_map_send]
  split_ifs
  · exact foldl_streamStep_reopen _ _ _
  · rfl

theorem foldl_streamStep_handOver (route : Route) (client : ClientId) (cols rows : UInt16) :
    (route.handOver pane client cols rows).2.foldl (streamStep pane) (true, false) =
      (true, false) := by
  simp only [Route.handOver, List.foldl_append]
  rw [foldl_streamStep_resizeForControl]
  split_ifs
  · rw [foldl_streamStep_reopen]
    cases route.control <;> rfl
  · rw [List.foldl_nil]
    cases route.control <;> rfl

end StreamStep

namespace PaneView

/-- **Every action but a close keeps the stream of its pane open exactly while there is a
route**, and never opens it twice. -/
theorem stream_act (v : PaneView E) (pane : PaneId) {a : PaneAction} (hne : a ≠ .close) :
    (v.act pane a).2.foldl (streamStep pane) (v.route.isSome, false) =
      ((v.act pane a).1.route.isSome, false) := by
  cases a with
  | subscribe client access cols rows representation =>
    simp only [act, subscribe, List.foldl_append]
    rw [foldl_streamStep_join]
    cases v.shownTo representation <;> rfl
  | leave client =>
    rcases v.leave_cases pane client with ⟨-, hact⟩ | ⟨-, ⟨-, hact⟩ | ⟨route, hr,
      ⟨-, hact⟩ | ⟨-, screen, -, ⟨-, hact⟩ | ⟨-, hact⟩⟩⟩⟩
    · rw [act, hact]
      rfl
    · rw [act, hact]
      rfl
    · rw [act, hact, hr]
      rfl
    · rw [act, hact, hr]
      exact foldl_streamStep_dropControl _
    · rw [act, hact, hr]
      rfl
  | take client onlyIfFree =>
    rcases v.take_cases pane client onlyIfFree with hact | ⟨s, route, -, hr, -, hact | hact⟩
    · rw [act, hact]
      rfl
    · rw [act, hact]
      rfl
    · rw [act, hact, hr]
      exact foldl_streamStep_handOver route client _ _
  | resize client cols rows =>
    rcases resize_cases v pane client cols rows with hact | ⟨route, hr, -, hact⟩
    · rw [act, hact]
      rfl
    · rw [act, hact, hr]
      rfl
  | ack client sequence =>
    rw [act, ack_route]
    refine foldl_of_ignored (fun effect he stream => ?_) _
    obtain ⟨subscription, rendered, rfl⟩ := mem_ack_effects he
    rfl
  | frame sequence width height full bytes =>
    rw [act, frame_route]
    refine foldl_of_ignored (fun effect he stream => ?_) _
    obtain ⟨receiver, rfl | ⟨subscription, rendered, rfl⟩⟩ := mem_frame_effects he <;> rfl
  | expire =>
    rcases v.expire_cases pane with hact | ⟨-, hact⟩
    · rw [act, hact]
      rfl
    · rw [act, hact]
      simp [streamStep]
  | close => exact absurd rfl hne
  | downgrade =>
    rcases v.downgrade_cases pane with hact | ⟨route, hr, hact⟩
    · rw [act, hact]
      rfl
    · rw [act, hact, foldl_streamStep_map_send, hr]
      rfl

theorem stream_close (v : PaneView E) (pane : PaneId) (stream : Bool × Bool) :
    (v.close pane).2.foldl (streamStep pane) stream = stream ∧ (v.close pane).1.route = none := by
  refine ⟨?_, close_route v pane⟩
  rcases v.close_cases pane with ⟨-, hact⟩ | ⟨route, -, hact⟩
  · rw [hact]
    rfl
  · rw [hact]
    exact foldl_streamStep_map_send _ _ _

end PaneView

namespace Broker

/-! ### The two sides along a run -/

/-- The broker and the I/O layer agree: the streams held open are those of the routed panes,
and none was ever opened twice. -/
def StreamsAgree (s : Broker E × Streams) : Prop :=
  (∀ pane, pane ∈ s.2.opened ↔ pane ∈ s.1.routes) ∧ ∀ pane, pane ∉ s.2.clashes

/-- A federation update that finds a routed pane gone. -/
def RetiresRoute (b : Broker E) (event : Event) : Prop :=
  ∃ state pane, event = .federationUpdated state ∧ pane ∈ b.routes ∧
    ({ b with state } : Broker E).paneIsGone pane = true

theorem streamsAgree_iff_view {s : Broker E × Streams} :
    StreamsAgree s ↔ ∀ pane, s.2.ofPane pane = ((s.1.view pane).route.isSome, false) := by
  have hroute : ∀ pane, (s.1.view pane).route.isSome = true ↔ pane ∈ s.1.routes := by
    intro pane
    rw [view_route, ← ExtTreeMap.mem_iff_isSome_getElem?]
  constructor
  · rintro ⟨hopened, hclashes⟩ pane
    refine Prod.ext ?_ ?_
    · rw [Bool.eq_iff_iff, hroute, ← hopened]
      simp [Streams.ofPane]
    · exact Bool.eq_false_iff.mpr fun h => hclashes pane (ExtTreeSet.mem_iff_contains.mpr h)
  · intro h
    constructor
    · intro pane
      have hopened : s.2.opened.contains pane = (s.1.view pane).route.isSome :=
        congrArg Prod.fst (h pane)
      rw [← hroute, ← hopened, ExtTreeSet.mem_iff_contains]
    · intro pane hmem
      have hclash : s.2.clashes.contains pane = false := congrArg Prod.snd (h pane)
      rw [ExtTreeSet.mem_iff_contains, hclash] at hmem
      cases hmem

/-- A pane is closed by the report that its stream ended, or by a federation update that finds
it gone. -/
theorem action_eq_close {pane : PaneId} {b : Broker E} {event : Event} :
    b.action pane event = some .close ↔ event = .paneRouteClosed pane ∨
      ∃ state, event = .federationUpdated state ∧
        ({ b with state } : Broker E).paneIsGone pane = true := by
  constructor
  · intro h
    cases event with
    | paneRouteClosed p =>
      simp only [action] at h
      split_ifs at h with hp
      exact .inl (by rw [hp])
    | federationUpdated state =>
      simp only [action] at h
      split_ifs at h with hgone
      exact .inr ⟨state, rfl, hgone⟩
    | handle client message =>
      simp only [action] at h
      split_ifs at h
      cases message <;> simp only [messageAction] at h <;>
        first | (split_ifs at h; cases h) | cases h
    | _ =>
      simp only [action] at h
      first | (split_ifs at h; cases h) | cases h
  · rintro (rfl | ⟨state, rfl, hgone⟩)
    · simp [action]
    · simp [action, hgone]

theorem ofPane_report_self (io : Streams) (pane : PaneId) :
    (io.report (.paneRouteClosed pane)).ofPane pane = (false, (io.ofPane pane).2) := by
  simp [Streams.report, Streams.ofPane]

theorem ofPane_report_other (io : Streams) {event : Event} {pane : PaneId}
    (hne : event ≠ .paneRouteClosed pane) : (io.report event).ofPane pane = io.ofPane pane := by
  cases event with
  | paneRouteClosed p =>
    have hp : p ≠ pane := fun h => hne (by rw [h])
    simp [Streams.report, Streams.ofPane, hp, ExtTreeSet.contains_erase]
  | _ => rfl

/-- One pane's stream after one call: it agrees with the route, unless the call retired the
route. -/
theorem ofPane_follow_iff {b : Broker E} (hb : b.WellFormed) {io : Streams} {pane : PaneId}
    (h : io.ofPane pane = ((b.view pane).route.isSome, false)) (event : Event) :
    (io.follow b event (b.step event)).ofPane pane =
        (((b.step event).1.view pane).route.isSome, false) ↔
      ¬ ((b.view pane).route.isSome = true ∧ ∃ state, event = .federationUpdated state ∧
        ({ b with state } : Broker E).paneIsGone pane = true) := by
  rw [Streams.follow, Streams.ofPane_foldl, ← foldl_filter_of_ignored streamStep_of_not_about]
  cases haction : b.action pane event with
  | none =>
    obtain ⟨hview, hout⟩ := (projects pane).idle b event hb haction
    have hreport : event ≠ .paneRouteClosed pane := by
      rintro rfl
      simp [action] at haction
    have hretires : ¬ ∃ state, event = .federationUpdated state ∧
        ({ b with state } : Broker E).paneIsGone pane = true := by
      intro hgone
      rw [action_eq_close.mpr (.inr hgone)] at haction
      cases haction
    rw [hview, hout, ofPane_report_other io hreport, h]
    exact ⟨fun _ hboth => hretires hboth.2, fun _ => rfl⟩
  | some a =>
    obtain ⟨hview, hout⟩ := (projects pane).move b event a hb haction
    rw [hview, hout]
    by_cases hclose : a = .close
    · subst hclose
      obtain ⟨hstream, hroute⟩ := PaneView.stream_close (b.view pane) pane
        ((io.report event).ofPane pane)
      rw [PaneView.act, hstream, hroute]
      rcases action_eq_close.mp haction with rfl | ⟨state, rfl, hgone⟩
      · -- the stream had ended by itself
        rw [ofPane_report_self, h]
        simp
      · -- the stream is as it was, and the route is gone
        rw [ofPane_report_other io (by simp), h]
        cases hr : (b.view pane).route <;> simp [hgone]
    · have hreport : event ≠ .paneRouteClosed pane := by
        rintro rfl
        rw [action_eq_close.mpr (.inl rfl)] at haction
        exact hclose (Option.some.inj haction).symm
      have hretires : ¬ ∃ state, event = .federationUpdated state ∧
          ({ b with state } : Broker E).paneIsGone pane = true := by
        intro hgone
        rw [action_eq_close.mpr (.inr hgone)] at haction
        exact hclose (Option.some.inj haction).symm
      rw [ofPane_report_other io hreport, h, PaneView.stream_act (b.view pane) pane hclose]
      exact ⟨fun _ hboth => hretires hboth.2, fun _ => rfl⟩

/-- One call keeps the two sides in agreement exactly when it retires no route. -/
theorem streamsAgree_step_iff {s : Broker E × Streams} (hb : s.1.WellFormed)
    (h : StreamsAgree s) (event : Event) :
    StreamsAgree (observe step Streams.follow s event).1 ↔ ¬ s.1.RetiresRoute event := by
  rw [streamsAgree_iff_view] at h ⊢
  rw [observe_fst, observe_snd]
  have hroute : ∀ pane, (s.1.view pane).route.isSome = true ↔ pane ∈ s.1.routes := by
    intro pane
    rw [view_route, ← ExtTreeMap.mem_iff_isSome_getElem?]
  constructor
  · rintro hagree ⟨state, pane, rfl, hmem, hgone⟩
    exact (ofPane_follow_iff hb (h pane) _).mp (hagree pane)
      ⟨(hroute pane).mpr hmem, state, rfl, hgone⟩
  · intro hretires pane
    refine (ofPane_follow_iff hb (h pane) event).mpr ?_
    rintro ⟨hmem, state, rfl, hgone⟩
    exact hretires ⟨state, pane, rfl, (hroute pane).mp hmem, hgone⟩

/-- **When the broker and the I/O layer agree on the open streams**: in every state of a run,
exactly when no federation update of the run finds a routed pane gone. -/
theorem streams_agree_iff (serverVersion : String) (features : List String)
    (quickReplies : List QuickReply) (events : List Event) :
    AllStates (observe step Streams.follow) StreamsAgree
        (Broker.new E serverVersion features quickReplies, .none) events ↔
      AllSteps step (fun b event => ¬ b.RetiresRoute event)
        (Broker.new E serverVersion features quickReplies) events := by
  have hinit : StreamsAgree (Broker.new E serverVersion features quickReplies, .none) :=
    ⟨fun pane => by simp [Streams.none, Broker.new], fun pane => by simp [Streams.none]⟩
  have hkept : ∀ (s : Broker E × Streams) event, s.1.WellFormed →
      (observe step Streams.follow s event).1.1.WellFormed :=
    fun s event hb => wellFormed_step hb event
  rw [← allSteps_observe step Streams.follow
    (Broker.new E serverVersion features quickReplies, Streams.none) events]
  exact allStates_iff_allSteps hkept
    (fun s event hb hagree => (streamsAgree_step_iff hb hagree event).mpr)
    (fun s event hb hagree => (streamsAgree_step_iff hb hagree event).mp)
    (wellFormed_new serverVersion features quickReplies) hinit events

/-- The target of the pane leaves the federation while the pane is watched. -/
def retiredByUpdate : List Event :=
  greeting 0 ++
    [.handle 0 (.subscribePane pane₁ .control 80 24 .frames), .federationUpdated .default]

/-- The route is gone, its stream is still open, and the next subscriber opens it again. -/
theorem retired_stream_stays_open :
    ¬ AllStates (observe step Streams.follow) StreamsAgree
        (Broker.new teletype "0.9.0" [] [], .none) retiredByUpdate ∧
      pane₁ ∉ (ran retiredByUpdate).routes ∧
      pane₁ ∈ (exec (observe step Streams.follow) (Broker.new teletype "0.9.0" [] [], .none)
        retiredByUpdate).1.2.opened ∧
      pane₁ ∈ (exec (observe step Streams.follow) (Broker.new teletype "0.9.0" [] [], .none)
        (retiredByUpdate ++
          [.handle 0 (.subscribePane pane₁ .control 80 24 .frames)])).1.2.clashes := by
  have hforgotten : pane₁ ∉ (ran retiredByUpdate).routes := by decide
  have hopen : pane₁ ∈ (exec (observe step Streams.follow)
      (Broker.new teletype "0.9.0" [] [], .none) retiredByUpdate).1.2.opened := by decide
  refine ⟨fun hall => ?_, hforgotten, hopen, by decide⟩
  have hagree := hall.last
  exact hforgotten (by simpa [ran, after] using (hagree.1 pane₁).mp hopen)

end Broker

end SuperHerdr
