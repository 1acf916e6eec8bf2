import SuperHerdr.Tui.Answers

/-!
# What the frontend is subscribed to

The daemon holds a subscription for each pane the frontend asked for, until it is told otherwise or
the pane's stream ends. The routes are what the frontend knows of them. `subscriptions_agree` says
that the two are the same, as long as no route is found stale by what is typed, pointed at, pasted
or sent, and not all panes are gone when one is looked for: there routes are dropped, and the daemon
is not told.
-/

namespace SuperHerdr

namespace Tui

open Std Transducer

namespace App

variable {scope : Scope} (world : World) (self : App)

/-! ### What the daemon holds -/

/-- The panes the daemon holds a subscription for, after what it is told. -/
def hearSubscription (held : PaneId → Bool) : News → PaneId → Bool
  | .subscribed pane => Function.update held pane true
  | .unsubscribed pane => Function.update held pane false
  | _ => held

/-- The panes that are left once a stream has ended. -/
def closes (held : PaneId → Bool) : Move → PaneId → Bool
  | .daemon (.paneClosed pane) => Function.update held pane false
  | _ => held

/-- The same after a turn of the loop. -/
def follow (held : PaneId → Bool) (self : App) (event : World × Move) (result : App × List Effect) :
    PaneId → Bool :=
  if self.quitting then held
  else (result.2.filterMap Effect.news).foldl hearSubscription (closes held event.2)

/-- The daemon holds a subscription for each route, and for nothing else. -/
def Subscribed (s : App × (PaneId → Bool)) : Prop := ∀ pane, s.2 pane = s.1.routes.contains pane

/-! ### When it is told -/

/-- An event for which no route is dropped. -/
def InputTells : DecodedInput → Prop
  | .bytes bytes =>
      (∀ key, self.navigationKey bytes = some key → ¬keyDrops world self key) ∧
        (self.navigationKey bytes = none → passesThrough self bytes → ¬forwardDrops world self) ∧
        (self.navigationKey bytes = none → ¬passesThrough self bytes →
          EachKey world (fun self key => ¬keyDrops world self key) bytes self)
  | .mouse mouse =>
      ∀ target, aimed world self mouse = some target → ¬mouseDrops world self target.pane
  | .paste bytes =>
      (∀ text, pasted world self bytes = some (.text text) → pasteable text →
        ¬controlDrops world self) ∧
      ∀ files, pasted world self bytes = some (.files files) → ¬controlDrops world self
  | .pasteTooLarge => True

/-- The same for a turn of the loop, unless the person has quit. -/
def Tells (self : App) (event : World × Move) : Prop :=
  ∀ input, event.2 = .input input → self.quitting = false →
    InputTells event.1 { self with outbox := [] } input

/-- A scope of what the frontend does without dropping a route or hearing the daemon. -/
def telling : Scope := ⟨fun _ => True, False, True, True, False⟩

theorem handles_telling : telling.Handles := ⟨fun _ _ _ => trivial, trivial⟩

theorem keyAllowed_of_not_drops {key : UInt8} (h : ¬keyDrops world self key) :
    KeyAllowed telling world self key where
  taken _ := handles_telling
  typed _ _ := trivial
  drops hdrops := h hdrops
  displaces _ := trivial
  doubles _ := trivial

theorem inputAllowed_of_tells {input : DecodedInput} (h : InputTells world self input) :
    InputAllowed world self telling input := by
  cases input with
  | bytes bytes =>
    obtain ⟨hnavigation, hpasses, hkeys⟩ := h
    refine ⟨fun key hkey => keyAllowed_of_not_drops world self (hnavigation key hkey),
      fun hnone hpass => ⟨fun _ => trivial, hpasses hnone hpass⟩, fun hnone hpass => ?_⟩
    exact (hkeys hnone hpass).mono world fun self key => keyAllowed_of_not_drops world self
  | mouse mouse => exact ⟨handles_telling, fun target haim => ⟨fun _ => trivial, h target haim⟩⟩
  | paste bytes =>
    exact ⟨fun text htext => ⟨fun _ _ => trivial, h.1 text htext⟩,
      fun files hfiles => ⟨fun _ _ => trivial, h.2 files hfiles⟩⟩
  | pasteTooLarge => trivial

/-! ### What each change does -/

theorem foldl_unsubscribed (held : PaneId → Bool) (panes : List PaneId) (pane : PaneId) :
    (panes.map News.unsubscribed).foldl hearSubscription held pane =
      if pane ∈ panes then false else held pane := by
  induction panes generalizing held with
  | nil => simp
  | cons released panes ih =>
    rw [List.map_cons, List.foldl_cons, ih]
    by_cases hsame : pane = released
    · simp [hsame, hearSubscription]
    · simp [hsame, hearSubscription]

/-- What the daemon is told of the routes is what becomes of them. -/
theorem subscribed_acts {held : PaneId → Bool} {before after : Memory} {news : List News}
    (h : ∀ pane, held pane = before.routes.contains pane) (hacts : Acts telling before news after)
    (pane : PaneId) : news.foldl hearSubscription held pane = after.routes.contains pane := by
  induction hacts generalizing held pane with
  | @subscribe before opened route hfresh haccess =>
    rw [List.foldl_cons, List.foldl_nil, hearSubscription]
    by_cases hsame : pane = opened
    · simp [hsame]
    · rw [Function.update_of_ne hsame, h]
      simp [ExtTreeMap.contains_insert, Ne.symm hsame]
  | @release before routes panes hroutes hpanes =>
    rw [foldl_unsubscribed]
    have hkept : pane ∈ routes → pane ∈ before.routes := by
      intro hmem
      obtain ⟨route, hroute⟩ := Option.isSome_iff_exists.mp
        (ExtTreeMap.mem_iff_isSome_getElem?.mp hmem)
      exact ExtTreeMap.mem_iff_isSome_getElem?.mpr (by rw [hroutes pane route hroute]; rfl)
    split
    · next hreleased =>
      have hgone := ((hpanes pane).mp hreleased).2
      rw [ExtTreeMap.mem_iff_contains, Bool.not_eq_true] at hgone
      exact hgone.symm
    · next hheld =>
      rw [h, Bool.eq_iff_iff, ← ExtTreeMap.mem_iff_contains, ← ExtTreeMap.mem_iff_contains]
      constructor
      · intro hmem
        by_contra hgone
        exact hheld ((hpanes pane).mpr ⟨hmem, hgone⟩)
      · exact hkept
  | forget hscope => exact hscope.elim
  | answer hscope => exact hscope.elim
  | refuse hscope => exact hscope.elim
  | @batch before offer uploads hfirst htaken =>
    have hbegun : (offer.requests.map fun request => News.begun request.1 offer.pane).foldl
        hearSubscription held = held := by
      refine foldl_of_ignored (fun told hmem held => ?_) held
      obtain ⟨request, -, rfl⟩ := List.mem_map.mp hmem
      rfl
    rw [List.foldl_append, hbegun]
    exact h pane
  | trans _ _ ih ihmore =>
    rw [List.foldl_append]
    exact ihmore (fun pane => ih h pane) pane
  | _ => exact h pane

theorem closes_daemon {held : PaneId → Bool} (h : ∀ pane, held pane = self.routes.contains pane)
    (message : ServerMessage) (pane : PaneId) :
    closes held (.daemon message) pane = (heardRoutes self.routes message).contains pane := by
  cases message with
  | paneClosed closed =>
    rw [closes, heardRoutes]
    by_cases hsame : pane = closed
    · simp [hsame]
    · rw [Function.update_of_ne hsame, h]
      simp [ExtTreeMap.contains_erase, Ne.symm hsame]
  | paneFrame => simpa [closes, heardRoutes, ExtTreeMap.contains_modify] using h pane
  | paneLease => simpa [closes, heardRoutes, ExtTreeMap.contains_modify] using h pane
  | _ => exact h pane

theorem hearSubscription_settled {news : List News}
    (h : ∀ told ∈ news, (∃ batch state, told = .settled batch state) ∨
      ∃ request, told = .cancelled request) (held : PaneId → Bool) :
    news.foldl hearSubscription held = held := by
  refine foldl_of_ignored (fun told hmem held => ?_) held
  rcases h told hmem with ⟨batch, state, rfl⟩ | ⟨request, rfl⟩
  · rfl
  · rfl

theorem subscribed_step (s : App × (PaneId → Bool)) (event : World × Move) (htidy : Tidy s.1.memory)
    (h : Subscribed s) (htells : s.1.Tells event) : Subscribed (observe step follow s event).1 := by
  obtain ⟨self, held⟩ := s
  intro pane
  rw [observe_fst, observe_snd]
  dsimp only at htidy h htells ⊢
  cases hquitting : self.quitting with
  | true =>
    rw [step_of_quitting hquitting, follow, if_pos hquitting]
    exact h pane
  | false =>
    rw [step_of_running hquitting, follow, if_neg (by simp [hquitting])]
    dsimp only
    by_cases hdaemon : ∃ message, event.2 = .daemon message
    · obtain ⟨message, hmove⟩ := hdaemon
      rw [hmove, handle, routes_handleDaemonEvent, hearSubscription_settled
        (mem_news_handleDaemonEvent event.1 { self with outbox := [] } htidy rfl message)]
      exact closes_daemon self h message pane
    · have hopen : closes held event.2 = held := by
        rw [closes.eq_def]
        split
        · next hmove => exact absurd ⟨_, hmove⟩ hdaemon
        · rfl
      rw [hopen]
      rcases handle_cases event.1 { self with outbox := [] } htidy event.2 with
        ⟨request, ending, -, hpending, heq⟩ | ⟨hnone, -⟩
      · obtain ⟨uploads, batches, -, hmemory⟩ :=
          memory_ending event.1 { self with outbox := [] } request ending
        have hroutes : (endUpload event.1 { self with outbox := [] } request ending).routes =
            self.routes := congrArg Memory.routes hmemory
        rw [heq, hearSubscription_settled fun told hmem =>
          .inl (news_endUpload event.1 _ rfl hpending ending told hmem), hroutes]
        exact h pane
      · have hsends : Sends telling { self with outbox := [] }
            (handle event.1 { self with outbox := [] } event.2) :=
          sends_handle_own event.1 _ handles_telling trivial event.2
            (fun input hinput => inputAllowed_of_tells event.1 _ (htells input hinput hquitting))
            (fun message hmove => hdaemon ⟨message, hmove⟩) hnone
        obtain ⟨effects, hsent, -, hacts⟩ := hsends
        rw [hsent, List.nil_append]
        have hheld : ∀ pane, held pane =
            ({ self with outbox := [] } : App).memory.routes.contains pane := h
        exact subscribed_acts hheld hacts pane

/-- **Frontend and daemon agree on subscriptions**, after every step of a run in which no step drops a
route that is stale, or all of them where no pane is left. -/
theorem subscriptions_agree (restorePending : Option PaneId) (configuredTargets : List String)
    (resolvedTargets : ExtTreeMap TargetSession (Option String)) (maxTransferBytes : ℕ)
    (events : List (World × Move))
    (h : AllSteps step Tells (start restorePending configuredTargets resolvedTargets
      maxTransferBytes) events) :
    AllStates (observe step follow) Subscribed
      (start restorePending configuredTargets resolvedTargets maxTransferBytes, fun _ => false)
      events := by
  have hnone : Subscribed (start restorePending configuredTargets resolvedTargets maxTransferBytes,
      fun _ => false) := by
    intro pane
    simp [start]
  rw [← allSteps_observe step follow (start restorePending configuredTargets resolvedTargets
    maxTransferBytes, fun _ => false)] at h
  exact allStates_of_allSteps (I := fun s : App × (PaneId → Bool) => Tidy s.1.memory)
    (fun s event htidy => tidy_step s.1 event htidy)
    (fun s event htidy hagrees htells => subscribed_step s event htidy hagrees htells)
    (tidy_start restorePending configuredTargets resolvedTargets maxTransferBytes) hnone h

/-- A pane is drawn, granted and typed into. -/
theorem subscriptions_agree_typing :
    let pane : PaneId := ⟨"box", "main", "1"⟩
    let world := hosting [liveTarget ⟨"box", "main"⟩ 1 none [pane]]
    AllStates (observe step follow) Subscribed (start (some pane) [] ∅ 100, fun _ => false)
      [(world, .draw), (world, .daemon (.paneLease pane .control)),
        (world, .input (.bytes [0x61]))] := by
  intro pane world
  refine subscriptions_agree _ _ _ _ _ ⟨by rintro _ ⟨⟩, by rintro _ ⟨⟩, ?_, trivial⟩
  rintro _ ⟨⟩ -
  have hstale : ∀ self : App, self.inputOverlay = none → self.mode = .terminal →
      (self.selectedPane.bind (self.routes[·]?)).map (fun route => (route.pane, route.generation)) =
        some (pane, 1) → ¬keyDrops world self 0x61 := by
    intro self hoverlay hmode hroute
    rw [keyDrops, hoverlay, hmode]
    rintro ⟨-, selected, route, hselected, hfound, hstale⟩
    rw [hselected, Option.bind_some, hfound] at hroute
    injection hroute with hroute
    injection hroute with hpane hgeneration
    have hfresh := hstale (liveTarget ⟨"box", "main"⟩ 1 none [pane]) (by rw [hpane]; decide +kernel)
    simp [hgeneration, TargetRuntimeState.acceptsGeneration, liveTarget] at hfresh
  refine ⟨fun key hkey => ?_, fun _ hpass => absurd hpass.1 (by simp), fun _ _ => ⟨?_, .inr trivial⟩⟩
  · have hnone : navigationKey (exec step (start (some pane) [] ∅ 100)
        [(world, .draw), (world, .daemon (.paneLease pane .control))]).1 [0x61] = none := by
      decide +kernel
    exact absurd (hkey.symm.trans hnone) (by simp)
  · exact hstale _ (by decide +kernel) (by decide +kernel) (by decide +kernel)

/-- A session reconnects, and a key is pressed before the screen is drawn again: the route is dropped,
and the daemon still holds its subscription. -/
theorem a_stale_route_is_held :
    let pane : PaneId := ⟨"box", "main", "1"⟩
    let world := hosting [liveTarget ⟨"box", "main"⟩ 1 none [pane]]
    let later := hosting [liveTarget ⟨"box", "main"⟩ 2 none [pane]]
    let after := exec (observe step follow) (start (some pane) [] ∅ 100, fun _ => false)
      [(world, .draw), (world, .daemon (.paneLease pane .control)),
        (later, .input (.bytes [0x61]))]
    after.1.2 pane = true ∧ after.1.1.routes.contains pane = false := by
  decide +kernel

end App

end Tui

end SuperHerdr
