import SuperHerdr.Tui.Answers

/-!
# What is selected

A selection is moved by a person, or by an operation that was to be followed, and by nothing else:
`selection_stays` says so of every run, and that each byte that is typed goes to the pane selected as
it is typed, under the last lease the daemon gave of that pane's route.
-/

namespace SuperHerdr

namespace Tui

open Std Transducer

/-- Whether something is sent for a byte that is typed. -/
def Effect.typed : Effect → Bool
  | .send .typed _ => true
  | .send .literal _ => true
  | _ => false

namespace App

variable {scope : Scope} (world : World) (self : App)

/-! ### Leases -/

/-- The access that was last granted to a route, after what is told: a route that is asked for has
been granted none. -/
def hearLease (leases : PaneId → Option TerminalAccess) : News → PaneId → Option TerminalAccess
  | .subscribed pane => Function.update leases pane none
  | _ => leases

/-- The same once a message arrived. -/
def grant (leases : PaneId → Option TerminalAccess) : Move → PaneId → Option TerminalAccess
  | .daemon (.paneLease pane access) => Function.update leases pane (some access)
  | _ => leases

/-- The same after a turn of the loop. -/
def record (leases : PaneId → Option TerminalAccess) (self : App) (event : World × Move)
    (result : App × List Effect) : PaneId → Option TerminalAccess :=
  if self.quitting then leases
  else (result.2.filterMap Effect.news).foldl hearLease (grant leases event.2)

/-! ### What is promised -/

/-- Whether a move may move the selection: a key that the frontend takes, the mouse, a notification
that is clicked, or the applied result of an operation that is followed. -/
def Steers : Move → Prop
  | .input (.bytes bytes) =>
      (self.navigationKey bytes).isSome ∨
        ¬passesThrough self bytes ∧ ¬EachKey world (fun self key => ¬keyTaken self key) bytes self
  | .input (.mouse _) | .activated _ => True
  | .daemon (.operationResult request applied _ _) =>
      applied = true ∧ ∃ session, self.pendingOperations[request]? = some ⟨true, session⟩
  | _ => False

/-- A pane that is selected stays selected, unless the selection is moved. -/
def Remains (self : App) (event : World × Move) : Prop :=
  ∀ pane, self.selectedPane = some pane →
    (step self event).1.selectedPane = some pane ∨
      Steers event.1 { self with outbox := [] } event.2

/-- What was sent for bytes that were typed went to the selected pane, whose route has control by the
last lease. -/
def Reaches (leases : PaneId → Option TerminalAccess) (before after : App) : Prop :=
  ∃ effects, after.outbox = before.outbox ++ effects ∧
    ∀ effect ∈ effects, effect.typed = true →
      ∃ pane route origin bytes, effect = .send origin (.paneInput pane bytes) ∧
        before.selectedPane = some pane ∧ before.routes[pane]? = some route ∧
        route.access = .control ∧ leases pane = some .control

/-- The same of every byte of an event, as it is typed, and nothing is typed otherwise. -/
def Addressed (s : App × (PaneId → Option TerminalAccess)) (event : World × Move) : Prop :=
  s.1.quitting = false →
    match event.2 with
    | .input (.bytes bytes) =>
        let self := { s.1 with outbox := [] }
        (∀ key, self.navigationKey bytes = some key →
            Reaches s.2 self (handleInput event.1 self key)) ∧
          (self.navigationKey bytes = none → passesThrough self bytes →
            Reaches s.2 self (forwardPaneBytes event.1 self bytes)) ∧
          (self.navigationKey bytes = none → ¬passesThrough self bytes →
            EachKey event.1 (fun self key => Reaches s.2 self (handleInput event.1 self key)) bytes
              self)
    | _ => ∀ effect ∈ (step s.1 event).2, effect.typed = false

/-! ### Scopes -/

/-- A scope of what is sent for nothing that is typed. -/
def untyped : Scope :=
  ⟨fun origin => origin ≠ .typed ∧ origin ≠ .literal ∧ ∀ pane, origin ≠ .verified pane, True, True,
    True, True⟩

/-- A scope of what moves no selection. -/
def standing : Scope := { unprompted with navigates := False }

theorem handles_untyped : untyped.Handles := by
  refine ⟨fun origin hown hliteral => ⟨?_, hliteral, hown.2⟩, trivial⟩
  rintro rfl
  cases hown.1

theorem typed_of_untyped {effect : Effect} (h : effect.Within untyped) : effect.typed = false := by
  cases effect with
  | send origin message =>
    obtain ⟨htyped, hliteral, -⟩ := h.2 origin message rfl
    cases origin with
    | typed => exact absurd rfl htyped
    | literal => exact absurd rfl hliteral
    | _ => rfl
  | _ => rfl

/-! ### What each change does to routes and selection -/

/-- A route that has control had it before, and was not asked for since. -/
theorem control_acts {before after : Memory} {news : List News}
    (hacts : Acts unprompted before news after) {pane : PaneId} {route : ActiveRoute}
    (hroute : after.routes[pane]? = some route) (hcontrol : route.access = .control) :
    before.routes[pane]? = some route ∧ News.subscribed pane ∉ news := by
  induction hacts generalizing pane route with
  | @subscribe before opened fresh hfresh haccess =>
    by_cases hsame : opened = pane
    · subst hsame
      rw [ExtTreeMap.getElem?_insert_self] at hroute
      cases hroute
      rw [haccess] at hcontrol
      cases hcontrol
    · have hkept : before.routes[pane]? = some route := by
        rw [ExtTreeMap.getElem?_insert] at hroute
        simpa [hsame] using hroute
      exact ⟨hkept, by simpa using Ne.symm hsame⟩
  | forget hscope routes hroutes => exact ⟨hroutes pane route hroute, by simp⟩
  | release routes panes hroutes hpanes => exact ⟨hroutes pane route hroute, by simp⟩
  | answer hscope => exact hscope.elim
  | refuse hscope => exact hscope.elim
  | trans _ _ ih ihmore =>
    obtain ⟨hbetween, hmore⟩ := ihmore hroute hcontrol
    obtain ⟨hbefore, hnews⟩ := ih hbetween hcontrol
    exact ⟨hbefore, by simp [hnews, hmore]⟩
  | _ => exact ⟨hroute, by simp⟩

theorem selected_acts {before after : Memory} {news : List News}
    (hacts : Acts standing before news after) : after.selectedPane = before.selectedPane := by
  induction hacts with
  | adopt hscope => exact hscope.elim
  | answer hscope => exact hscope.elim
  | trans _ _ ih ihmore => exact ihmore.trans ih
  | _ => rfl

theorem restored_acts {before after : Memory} {news : List News}
    (hacts : Acts unprompted before news after)
    (h : before.selectedPane.isSome → before.restorePending = none) :
    after.selectedPane.isSome → after.restorePending = none := by
  induction hacts with
  | adopt hscope selected restore followed hrestore => exact hrestore
  | answer hscope => exact hscope.elim
  | trans _ _ ih ihmore => exact ihmore (ih h)
  | _ => exact h

/-! ### Leases that are held -/

/-- A route that has control was granted it last. -/
def Granted (leases : PaneId → Option TerminalAccess) (routes : ExtTreeMap PaneId ActiveRoute) :
    Prop :=
  ∀ (pane : PaneId) (route : ActiveRoute), routes[pane]? = some route → route.access = .control →
    leases pane = some .control

variable {leases : PaneId → Option TerminalAccess}

theorem Granted.acts {before after : Memory} {news : List News} (h : Granted leases before.routes)
    (hacts : Acts unprompted before news after) : Granted leases after.routes := by
  intro pane route hroute hcontrol
  exact h pane route (control_acts hacts hroute hcontrol).1 hcontrol

theorem hearLease_of_not_subscribed {news : List News} {pane : PaneId}
    (h : News.subscribed pane ∉ news) (leases : PaneId → Option TerminalAccess) :
    news.foldl hearLease leases pane = leases pane := by
  induction news generalizing leases with
  | nil => rfl
  | cons told news ih =>
    rw [List.foldl_cons, ih fun hmem => h (List.mem_cons_of_mem told hmem)]
    cases told with
    | subscribed opened =>
      have hne : pane ≠ opened := by
        rintro rfl
        exact h List.mem_cons_self
      exact Function.update_of_ne hne none leases
    | _ => rfl

theorem Granted.news {before after : Memory} {news : List News} (h : Granted leases before.routes)
    (hacts : Acts unprompted before news after) :
    Granted (news.foldl hearLease leases) after.routes := by
  intro pane route hroute hcontrol
  obtain ⟨hbefore, hnews⟩ := control_acts hacts hroute hcontrol
  rw [hearLease_of_not_subscribed hnews]
  exact h pane route hbefore hcontrol

/-- A lease that arrives is what the route says from then on. -/
theorem Granted.heard {routes : ExtTreeMap PaneId ActiveRoute} (h : Granted leases routes)
    (message : ServerMessage) :
    Granted (grant leases (.daemon message)) (heardRoutes routes message) := by
  intro pane route hroute hcontrol
  cases message with
  | paneLease leased access =>
    rw [heardRoutes, ExtTreeMap.getElem?_modify] at hroute
    rw [grant]
    split at hroute
    · next hsame =>
      have hsame : leased = pane := by simpa using hsame
      subst hsame
      obtain ⟨old, hold, rfl⟩ := Option.map_eq_some_iff.mp hroute
      rw [Function.update_self]
      exact congrArg some hcontrol
    · next hother =>
      have hother : pane ≠ leased := by
        rintro rfl
        simp at hother
      rw [Function.update_of_ne hother]
      exact h pane route hroute hcontrol
  | paneFrame framed sequence width height full bytes =>
    rw [heardRoutes, ExtTreeMap.getElem?_modify] at hroute
    split at hroute
    · next hsame =>
      have hsame : framed = pane := by simpa using hsame
      subst hsame
      obtain ⟨old, hold, rfl⟩ := Option.map_eq_some_iff.mp hroute
      exact h framed old hold hcontrol
    · exact h pane route hroute hcontrol
  | paneClosed closed =>
    rw [heardRoutes, ExtTreeMap.getElem?_erase] at hroute
    split at hroute
    · cases hroute
    · exact h pane route hroute hcontrol
  | _ => exact h pane route hroute hcontrol

/-! ### Bytes that are typed -/

theorem reaches_of_sends {after : App} (h : self.Sends untyped after) :
    Reaches leases self after := by
  obtain ⟨effects, hsent, hwithin, -⟩ := h
  refine ⟨effects, hsent, fun effect hmem htyped => ?_⟩
  rw [typed_of_untyped (hwithin effect hmem)] at htyped
  cases htyped

theorem reaches_forwardPaneBytes (h : Granted leases self.routes) (bytes : List UInt8) :
    Reaches leases self (forwardPaneBytes world self bytes) := by
  by_cases htypeable : Typeable world self
  · obtain ⟨pane, hpane, hsent⟩ := forwardPaneBytes_of_typeable world self htypeable bytes
    obtain ⟨selected, route, target, hselected, hroute, -, -, hcontrol⟩ := htypeable
    have hsame : pane = selected := Option.some.inj (hpane.symm.trans hselected)
    subst hsame
    refine ⟨[.send .typed (.paneInput pane bytes)], by rw [hsent]; rfl, fun effect hmem _ => ?_⟩
    exact ⟨pane, route, .typed, bytes, List.mem_singleton.mp hmem, hselected, hroute, hcontrol,
      h pane route hroute hcontrol⟩
  · exact reaches_of_sends self (quiet_forwardPaneBytes world self
      (fun hsome => absurd hsome htypeable) (fun _ => trivial) bytes).sends

theorem reaches_sendLiteralPrefix (h : Granted leases self.routes) (hdoubles : Doubles self) :
    Reaches leases self self.sendLiteralPrefix := by
  obtain ⟨pane, route, hselected, hroute, hcontrol⟩ := hdoubles
  have hsent : self.sendLiteralPrefix =
      self.perform (.send .literal (.paneInput pane [PREFIX_KEY])) := by
    simp [sendLiteralPrefix, hselected, hroute, hcontrol]
  refine ⟨[.send .literal (.paneInput pane [PREFIX_KEY])], by rw [hsent]; rfl, fun effect hmem _ => ?_⟩
  exact ⟨pane, route, .literal, [PREFIX_KEY], List.mem_singleton.mp hmem, hselected, hroute,
    hcontrol, h pane route hroute hcontrol⟩

theorem reaches_handleInput (h : Granted leases self.routes) (key : UInt8) :
    Reaches leases self (handleInput world self key) := by
  by_cases hdoubles : keyDoubles self key
  · obtain ⟨hnone, hmode, rfl, hdoubled⟩ := hdoubles
    have hinput : handleInput world self PREFIX_KEY =
        { self.sendLiteralPrefix with mode := .terminal } := by
      rw [handleInput_of_no_overlay world self PREFIX_KEY hnone, handleKey, hmode]
      simp [handlePrefix, PREFIX_KEY]
    rw [hinput]
    exact reaches_sendLiteralPrefix self h hdoubled
  · by_cases htyped : ¬keyTaken self key ∧ Typeable world self
    · rw [handleInput_of_not_taken world self htyped.1]
      exact reaches_forwardPaneBytes world self h [key]
    · refine reaches_of_sends self (sends_handleInput world self key (fun _ => handles_untyped)
        (fun hkey hsome => absurd ⟨hkey, hsome⟩ htyped) (fun _ => trivial) (fun _ => trivial)
        fun hsome => absurd hsome hdoubles)

theorem granted_handleInput (key : UInt8) (h : Granted leases self.routes) :
    Granted leases (handleInput world self key).routes := by
  obtain ⟨effects, -, -, hacts⟩ :=
    (keyAllowed_of_le world self unprompted_le_self key).sends world self
  have hbefore : Granted leases self.memory.routes := h
  exact hbefore.acts hacts

/-! ### Moves that are not a person's -/

theorem memory_failUpload_move (request : ℕ) (message : String) :
    (handle world self (.uploadFailed request message)).selectedPane = self.selectedPane := by
  obtain ⟨uploads, batches, -, hmemory⟩ := memory_ending world self request (.failed message)
  exact congrArg Memory.selectedPane hmemory

theorem selectedPane_ensureRoutes : (ensureRoutes world self).selectedPane = self.selectedPane := by
  obtain ⟨effects, -, -, hacts⟩ : self.Sends standing (ensureRoutes world self) :=
    (quiet_ensureRoutes world self (by simp [standing, unprompted, unverified])).sends
  exact selected_acts hacts

theorem selectedPane_draw :
    (draw world self).selectedPane = (reconcileSelection world self).selectedPane :=
  selectedPane_ensureRoutes world (reconcileSelection world self)

theorem selectedPane_draw_of_some (h : self.selectedPane.isSome → self.restorePending = none)
    {pane : PaneId} (hselected : self.selectedPane = some pane) :
    (draw world self).selectedPane = some pane := by
  have hrestore : self.restorePending = none := h (by simp [hselected])
  have hreconciled : reconcileSelection world self = self := by
    rw [reconcileSelection, hrestore]
    simp [hselected]
  rw [selectedPane_draw, hreconciled, hselected]

/-- A message leaves the selection, or it is the result of an operation that is followed. -/
theorem selectedPane_handleDaemonEvent (message : ServerMessage) :
    (handleDaemonEvent world self message).selectedPane = self.selectedPane ∨
      (handleDaemonEvent world self message).selectedPane = none ∧
        Steers world self (.daemon message) := by
  have hheard : (handleDaemonEvent world self message).selectedPane =
      (heardOperations world self.memory message).selectedPane :=
    congrArg Memory.selectedPane (heard_handleDaemonEvent world self message).eq
  rw [hheard]
  cases message with
  | operationResult request applied =>
    rw [heardOperations]
    have hmemory : self.memory.operations[request]? = self.pendingOperations[request]? := rfl
    rw [hmemory]
    dsimp only
    rcases hpending : self.pendingOperations[request]? with _ | ⟨_ | _, session⟩
    · exact .inl rfl
    · exact .inl rfl
    · cases applied with
      | false => exact .inl rfl
      | true => exact .inr ⟨rfl, rfl, session, hpending⟩
  | error request =>
    cases request with
    | none => exact .inl rfl
    | some request =>
      rw [heardOperations]
      split_ifs
      · exact .inl rfl
      · exact .inl rfl
  | _ => exact .inl rfl

/-- **A pane that is selected stays selected**, unless a person or a followed operation moves the
selection. -/
theorem selectedPane_handle (h : self.selectedPane.isSome → self.restorePending = none) (move : Move)
    {pane : PaneId} (hselected : self.selectedPane = some pane) :
    (handle world self move).selectedPane = some pane ∨ Steers world self move := by
  have horigins : ∀ {origin : Origin}, (∀ pane, origin ≠ .verified pane) →
      standing.origins origin := id
  have hkept : ∀ after, self.Sends standing after → after.selectedPane = some pane := by
    rintro after ⟨effects, -, -, hacts⟩
    have hsame : after.selectedPane = self.selectedPane := selected_acts hacts
    exact hsame.trans hselected
  cases move with
  | input input =>
    cases input with
    | bytes bytes =>
      by_cases hsteers : Steers world self (.input (.bytes bytes))
      · exact .inr hsteers
      · refine .inl (hkept _ (sends_handleDecodedInput world self (.bytes bytes) ?_))
        rw [Steers, not_or, not_and, not_not] at hsteers
        obtain ⟨hnavigation, hkeys⟩ := hsteers
        refine ⟨fun key hkey => absurd (by rw [hkey]; rfl) hnavigation,
          fun _ _ => ⟨fun _ => horigins (by simp), fun _ => trivial⟩, fun _ hpass => ?_⟩
        refine (hkeys hpass).mono world fun self key hkey => ?_
        exact ⟨fun htaken => absurd htaken hkey, fun _ _ => horigins (by simp), fun _ => trivial,
          fun _ => trivial, fun _ => horigins (by simp)⟩
    | mouse => exact .inr trivial
    | paste bytes =>
      refine .inl (hkept _ (sends_handleDecodedInput world self (.paste bytes) ?_))
      exact ⟨fun _ _ => ⟨fun _ _ => horigins (by simp), fun _ _ => trivial⟩,
        fun _ _ => ⟨fun _ _ => horigins (by simp), fun _ => trivial⟩⟩
    | pasteTooLarge => exact .inl hselected
  | daemon message =>
    rw [handle]
    rcases selectedPane_handleDaemonEvent world self message with hsame | ⟨-, hsteers⟩
    · exact .inl (hsame.trans hselected)
    · exact .inr hsteers
  | uploadFailed request message =>
    exact .inl ((memory_failUpload_move world self request message).trans hselected)
  | activated => exact .inr trivial
  | published =>
    exact .inl (hkept _ (quiet_ensurePluginCatalogs world self (horigins (by simp))).sends)
  | draw => exact .inl (selectedPane_draw_of_some world self h hselected)
  | autoscroll =>
    exact .inl (hkept _ (quiet_tickSelectionAutoscroll self (horigins (by simp))).sends)
  | tick => exact .inl hselected
  | configuration => exact .inl hselected

theorem restorePending_handleDaemonEvent (message : ServerMessage) :
    (handleDaemonEvent world self message).restorePending = self.restorePending := by
  have hkept : (heardOperations world self.memory message).restorePending = self.restorePending := by
    rw [heardOperations.eq_def]
    repeat' split
    all_goals rfl
  exact (congrArg Memory.restorePending (heard_handleDaemonEvent world self message).eq).trans hkept

/-- Once a pane is selected, no other is to be restored, and a route that has control was granted it
last, whatever happens. -/
structure Settles (memory : Memory) (leases : PaneId → Option TerminalAccess) : Prop where
  tidy : Tidy memory
  restored : memory.selectedPane.isSome → memory.restorePending = none
  granted : Granted leases memory.routes

theorem hearLease_of_settled {news : List News}
    (h : ∀ told ∈ news, (∃ batch state, told = .settled batch state) ∨
      ∃ request, told = .cancelled request) (leases : PaneId → Option TerminalAccess) :
    news.foldl hearLease leases = leases := by
  refine foldl_of_ignored (fun told hmem leases => ?_) leases
  rcases h told hmem with ⟨batch, state, rfl⟩ | ⟨request, rfl⟩
  · rfl
  · rfl

theorem settles_handle (houtbox : self.outbox = []) (h : Settles self.memory leases) (move : Move) :
    Settles (handle world self move).memory
      (((handle world self move).outbox.filterMap Effect.news).foldl hearLease
        (grant leases move)) := by
  refine ⟨h.tidy.handle world self move, ?_, ?_⟩
  · by_cases hdaemon : ∃ message, move = .daemon message
    · obtain ⟨message, rfl⟩ := hdaemon
      intro hsome
      refine (restorePending_handleDaemonEvent world self message).trans (h.restored ?_)
      rcases selectedPane_handleDaemonEvent world self message with hsame | ⟨hnone, -⟩
      · have hafter : (handleDaemonEvent world self message).selectedPane.isSome := hsome
        rwa [hsame] at hafter
      · have hafter : (handleDaemonEvent world self message).selectedPane.isSome := hsome
        rw [hnone] at hafter
        cases hafter
    · rcases handle_own world self h.tidy move fun message hmove => hdaemon ⟨message, hmove⟩ with
        ⟨request, ending, hpending, heq⟩ | ⟨effects, -, -, hacts⟩
      · obtain ⟨uploads, batches, -, hmemory⟩ := memory_ending world self request ending
        rw [heq, hmemory]
        exact h.restored
      · exact restored_acts hacts h.restored
  · by_cases hdaemon : ∃ message, move = .daemon message
    · obtain ⟨message, rfl⟩ := hdaemon
      have hroutes : (handle world self (.daemon message)).memory.routes =
          heardRoutes self.routes message := routes_handleDaemonEvent world self message
      rw [handle, hearLease_of_settled (mem_news_handleDaemonEvent world self h.tidy houtbox message)]
      rw [handle] at hroutes
      rw [hroutes]
      exact h.granted.heard message
    · have hgrant : grant leases move = leases := by
        cases move with
        | daemon message => exact absurd ⟨message, rfl⟩ hdaemon
        | _ => rfl
      rw [hgrant]
      rcases handle_own world self h.tidy move fun message hmove => hdaemon ⟨message, hmove⟩ with
        ⟨request, ending, hpending, heq⟩ | ⟨effects, hsent, -, hacts⟩
      · obtain ⟨uploads, batches, -, hmemory⟩ := memory_ending world self request ending
        rw [heq, hearLease_of_settled fun told hmem =>
          .inl (news_endUpload world self houtbox hpending ending told hmem), hmemory]
        exact h.granted
      · rw [hsent, houtbox, List.nil_append]
        exact h.granted.news hacts

/-! ### A turn of the loop -/

theorem settles_step (s : App × (PaneId → Option TerminalAccess)) (event : World × Move)
    (h : Settles s.1.memory s.2) :
    Settles (observe step record s event).1.1.memory (observe step record s event).1.2 := by
  obtain ⟨self, leases⟩ := s
  rw [observe_fst, observe_snd]
  cases hquitting : self.quitting with
  | true =>
    rw [step_of_quitting hquitting, record, if_pos hquitting]
    exact h
  | false =>
    rw [step_of_running hquitting, record, if_neg (by simp [hquitting])]
    exact settles_handle event.1 { self with outbox := [] } rfl h event.2

theorem remains_step (self : App) (event : World × Move)
    (h : self.selectedPane.isSome → self.restorePending = none) : Remains self event := by
  intro pane hselected
  by_cases hquitting : self.quitting = true
  · rw [step_of_quitting hquitting]
    exact .inl hselected
  · rw [step_of_running (by simpa using hquitting)]
    exact selectedPane_handle event.1 { self with outbox := [] } h event.2 hselected

/-- What no key is behind sends nothing that is typed. -/
theorem untyped_handle (htidy : Tidy self.memory) (houtbox : self.outbox = []) {move : Move}
    (hkeys : ∀ bytes, move ≠ .input (.bytes bytes)) :
    ∀ effect ∈ (handle world self move).outbox, effect.typed = false := by
  rcases handle_cases world self htidy move with
    ⟨request, ending, -, hpending, heq⟩ | ⟨hnone, -⟩
  · obtain ⟨report, hreport, hsent⟩ := outbox_endUpload world self hpending ending
    intro effect hmem
    rw [heq, hsent, houtbox, List.nil_append] at hmem
    rcases List.mem_append.mp hmem with hmem | hmem
    · obtain ⟨batch, state, rfl⟩ := hreport effect hmem
      rfl
    · split at hmem
      · cases hmem
      · rw [verifiedEffects, Option.mem_toList, Option.map_eq_some_iff] at hmem
        obtain ⟨paste, -, rfl⟩ := hmem
        rfl
  · have horigin : ∀ {origin : Origin}, origin ≠ .typed → origin ≠ .literal →
        (∀ pane, origin ≠ .verified pane) → untyped.origins origin := fun h1 h2 h3 => ⟨h1, h2, h3⟩
    obtain ⟨effects, hsent, hwithin, -⟩ : self.Sends untyped (handle world self move) := by
      refine sends_handle world self handles_untyped trivial
        (horigin (by simp) (by simp) (by simp)) move (fun input hinput => ?_) hnone
      cases input with
      | bytes bytes => exact absurd hinput (hkeys bytes)
      | mouse mouse =>
        exact ⟨handles_untyped, fun target haim =>
          ⟨fun _ => horigin (by simp) (by simp) (by simp), fun _ => trivial⟩⟩
      | paste bytes =>
        exact ⟨fun _ _ => ⟨fun _ _ => horigin (by simp) (by simp) (by simp), fun _ _ => trivial⟩,
          fun _ _ => ⟨fun _ _ => horigin (by simp) (by simp) (by simp), fun _ => trivial⟩⟩
      | pasteTooLarge => trivial
    intro effect hmem
    rw [hsent, houtbox, List.nil_append] at hmem
    exact typed_of_untyped (hwithin effect hmem)

theorem addressed_step (s : App × (PaneId → Option TerminalAccess)) (event : World × Move)
    (h : Settles s.1.memory s.2) : Addressed s event := by
  obtain ⟨self, leases⟩ := s
  obtain ⟨world, move⟩ := event
  intro hquitting
  have hother : (∀ bytes, move ≠ .input (.bytes bytes)) →
      ∀ effect ∈ (step self (world, move)).2, effect.typed = false := by
    intro hkeys
    rw [step_of_running hquitting]
    exact untyped_handle world { self with outbox := [] } h.tidy rfl hkeys
  cases move with
  | input input =>
    cases input with
    | bytes bytes =>
      have hgranted : Granted leases ({ self with outbox := [] } : App).routes := h.granted
      refine ⟨fun key _ => reaches_handleInput world _ hgranted key,
        fun _ _ => reaches_forwardPaneBytes world _ hgranted bytes, fun _ _ => ?_⟩
      exact EachKey.of_invariant world (I := fun self => Granted leases self.routes)
        (fun self key hself => granted_handleInput world self key hself)
        (fun self key hself => reaches_handleInput world self hself key) bytes hgranted
    | mouse => exact hother (by simp)
    | paste => exact hother (by simp)
    | pasteTooLarge => exact hother (by simp)
  | _ => exact hother (by simp)

/-- **The selection is not moved behind a person's back**: along every run, a pane that is selected
stays selected until a person or an operation that is followed moves the selection, and each byte that
is typed goes to the pane selected as it is typed, under the last lease of its route. -/
theorem selection_stays (restorePending : Option PaneId) (configuredTargets : List String)
    (resolvedTargets : ExtTreeMap TargetSession (Option String)) (maxTransferBytes : ℕ)
    (events : List (World × Move)) :
    AllSteps (observe step record) (fun s event => Remains s.1 event ∧ Addressed s event)
      (start restorePending configuredTargets resolvedTargets maxTransferBytes, fun _ => none)
      events := by
  refine allSteps_of_invariant (I := fun s : App × (PaneId → Option TerminalAccess) =>
    Settles s.1.memory s.2) settles_step (fun s event h => ?_) ?_ events
  · exact ⟨remains_step s.1 event h.restored, addressed_step s event h⟩
  · refine ⟨tidy_start restorePending configuredTargets resolvedTargets maxTransferBytes, ?_, ?_⟩
    · intro hsome
      cases hsome
    · intro pane route hroute
      simp [start, memory] at hroute

end App

end Tui

end SuperHerdr
