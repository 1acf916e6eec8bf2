import SuperHerdr.Tui.Follows

/-!
# The pane that is restored

A frontend starts with the pane it last had selected, and waits for it as long as the pane's target is
known and not live. `persisted_pane_restored` says that this pane is the first to be selected, as long
as no redraw before that finds its target unknown, or live without the pane.
-/

namespace SuperHerdr

namespace Tui

open Std Transducer

namespace App

variable (world : World) (self : App)

/-! ### What is promised -/

/-- Whether a move is a person's: what they type or point at, or a notification they click. -/
def Move.ofPerson : Move → Bool
  | .input _ | .activated _ => true
  | _ => false

/-- What was selected first, and whether a person moved the selection. -/
structure Startup where
  first : Option PaneId
  navigated : Bool
deriving DecidableEq

/-- The same after a turn of the loop. A person who selects a pane gives up the one that is to be
restored. -/
def noteStartup (startup : Startup) (self : App) (event : World × Move)
    (result : App × List Effect) : Startup where
  first := startup.first <|> result.1.selectedPane
  navigated := startup.navigated || (event.2.ofPerson &&
    (result.1.selectedPane ≠ self.selectedPane || result.1.restorePending ≠ self.restorePending))

/-- The target of a pane is live and has the pane. -/
def Ready (state : FederationState) (persisted : PaneId) : Prop :=
  Live state persisted ∧ persisted ∈ selectablePanes state

/-- Until a person moves the selection no other pane is selected first, and a redraw that finds the
pane ready has selected it. -/
def Restores (persisted : PaneId) (s : App × Startup) (event : World × Move) : Prop :=
  (observe step noteStartup s event).1.2.navigated = false →
    (∀ pane, (observe step noteStartup s event).1.2.first = some pane → pane = persisted) ∧
      (s.1.quitting = false → event.2 = .draw → Ready event.1.state persisted →
        (observe step noteStartup s event).1.2.first = some persisted)

/-- A redraw at which nothing was selected yet waits for the pane, or has it. -/
def Awaits (persisted : PaneId) (s : App × Startup) (event : World × Move) : Prop :=
  s.1.quitting = false → s.2 = ⟨none, false⟩ → event.2 = .draw →
    Reserves event.1.state persisted

/-! ### What stays to be restored -/

theorem restoring_acts {before after : Memory} {news : List News}
    (hacts : Acts standing before news after) : after.restorePending = before.restorePending := by
  induction hacts with
  | adopt hscope => exact hscope.elim
  | answer hscope => exact hscope.elim
  | trans _ _ ih ihmore => exact ihmore.trans ih
  | _ => rfl

theorem restorePending_draw :
    (draw world self).restorePending = (reconcileSelection world self).restorePending := by
  obtain ⟨effects, -, -, hacts⟩ : (reconcileSelection world self).Sends standing
      (ensureRoutes world (reconcileSelection world self)) :=
    (quiet_ensureRoutes world _ (by simp [standing, unprompted, unverified])).sends
  exact restoring_acts hacts

/-- A redraw waits for a pane that goes first, or selects it. -/
theorem draw_of_reserves {persisted : PaneId} (hselected : self.selectedPane = none)
    (hpersisted : self.restorePending = some persisted) (h : Reserves world.state persisted) :
    (draw world self).selectedPane = some persisted ∨
      ¬Live world.state persisted ∧ (draw world self).selectedPane = none ∧
        (draw world self).restorePending = some persisted := by
  by_cases hlive : Live world.state persisted
  · left
    rw [selectedPane_draw]
    exact (selectedPane_of_reserves world self hselected hpersisted h).mpr ⟨rfl, hlive⟩
  · right
    obtain ⟨target, htarget⟩ := Option.isSome_iff_exists.mp
      (ExtTreeMap.mem_iff_isSome_getElem?.mp h.1)
    have hwaits : target.connection ≠ .live := fun hconnection => hlive ⟨target, htarget, hconnection⟩
    have hsame : reconcileSelection world self = self := by
      rw [reconcileSelection, hpersisted]
      dsimp only
      rw [htarget]
      dsimp only
      rw [if_pos hwaits]
    rw [selectedPane_draw, restorePending_draw, hsame]
    exact ⟨hlive, hselected, hpersisted⟩

/-- What is neither a person's move nor a redraw selects nothing. -/
theorem restorePending_handle (hselected : self.selectedPane = none)
    {move : Move} (hperson : move.ofPerson = false) (hdraw : move ≠ .draw) :
    (handle world self move).selectedPane = none ∧
      (handle world self move).restorePending = self.restorePending := by
  have horigin : ∀ {origin : Origin}, (∀ pane, origin ≠ .verified pane) →
      standing.origins origin := id
  have hkept : ∀ after, self.Sends standing after →
      after.selectedPane = none ∧ after.restorePending = self.restorePending := by
    rintro after ⟨effects, -, -, hacts⟩
    have hsame : after.selectedPane = self.selectedPane := selected_acts hacts
    exact ⟨hsame.trans hselected, restoring_acts hacts⟩
  cases move with
  | input => cases hperson
  | activated => cases hperson
  | draw => exact absurd rfl hdraw
  | daemon message =>
    refine ⟨?_, restorePending_handleDaemonEvent world self message⟩
    rcases selectedPane_handleDaemonEvent world self message with hsame | ⟨hnone, -⟩
    · exact hsame.trans hselected
    · exact hnone
  | uploadFailed request message =>
    obtain ⟨uploads, batches, -, hmemory⟩ := memory_ending world self request (.failed message)
    have hsame : (endUpload world self request (.failed message)).selectedPane = self.selectedPane :=
      congrArg Memory.selectedPane hmemory
    exact ⟨hsame.trans hselected, congrArg Memory.restorePending hmemory⟩
  | published => exact hkept _ (quiet_ensurePluginCatalogs world self (horigin (by simp))).sends
  | autoscroll => exact hkept _ (quiet_tickSelectionAutoscroll self (horigin (by simp))).sends
  | tick => exact ⟨hselected, rfl⟩
  | configuration => exact ⟨hselected, rfl⟩

/-! ### A run -/

/-- Until a person moves the selection, the pane was selected first, or is still to be restored with
nothing selected. -/
def Restoring (persisted : PaneId) (s : App × Startup) : Prop :=
  s.2.navigated = false → s.2.first = some persisted ∨
    s.2.first = none ∧ s.1.selectedPane = none ∧ s.1.restorePending = some persisted

/-- A turn at which nothing was selected yet selects the pane, or keeps it to be restored, unless it is
a person's. -/
theorem restoring_handle {persisted : PaneId} (hselected : self.selectedPane = none)
    (hpersisted : self.restorePending = some persisted) (move : Move)
    (hawaits : move = .draw → Reserves world.state persisted)
    (hperson : move.ofPerson = true → (handle world self move).selectedPane = self.selectedPane ∧
      (handle world self move).restorePending = self.restorePending) :
    (handle world self move).selectedPane = some persisted ∨
      ¬(move = .draw ∧ Live world.state persisted) ∧
        (handle world self move).selectedPane = none ∧
        (handle world self move).restorePending = some persisted := by
  by_cases hdraw : move = .draw
  · subst hdraw
    rcases draw_of_reserves world self hselected hpersisted (hawaits rfl) with
      hrestored | ⟨hlive, hnone, hkept⟩
    · exact .inl hrestored
    · exact .inr ⟨fun h => hlive h.2, hnone, hkept⟩
  · right
    refine ⟨fun h => hdraw h.1, ?_⟩
    cases hmoved : move.ofPerson with
    | true =>
      obtain ⟨hsame, hkept⟩ := hperson hmoved
      exact ⟨hsame.trans hselected, hkept.trans hpersisted⟩
    | false =>
      obtain ⟨hnone, hkept⟩ := restorePending_handle world self hselected hmoved hdraw
      exact ⟨hnone, hkept.trans hpersisted⟩

/-- What a turn notes, until a person moves the selection. -/
theorem startup_step {persisted : PaneId} (s : App × Startup) (event : World × Move)
    (h : Restoring persisted s) (hawaits : Awaits persisted s event)
    (hunmoved : (observe step noteStartup s event).1.2.navigated = false) :
    (observe step noteStartup s event).1.2.first = some persisted ∨
      (s.1.quitting = false → ¬(event.2 = .draw ∧ Live event.1.state persisted)) ∧
        (observe step noteStartup s event).1.2.first = none ∧
        (observe step noteStartup s event).1.1.selectedPane = none ∧
        (observe step noteStartup s event).1.1.restorePending = some persisted := by
  obtain ⟨self, first, navigated⟩ := s
  obtain ⟨world, move⟩ := event
  rw [observe_snd] at hunmoved ⊢
  rw [observe_fst]
  rw [noteStartup, Bool.or_eq_false_iff] at hunmoved
  obtain ⟨hnavigated, hperson⟩ := hunmoved
  have hnavigated : navigated = false := hnavigated
  subst hnavigated
  rcases h rfl with hfirst | ⟨hfirst, hselected, hpersisted⟩
  · have hfirst : first = some persisted := hfirst
    left
    rw [noteStartup, hfirst]
    rfl
  · have hfirst : first = none := hfirst
    subst hfirst
    have hnote : (noteStartup ⟨none, false⟩ self (world, move) (step self (world, move))).first =
        (step self (world, move)).1.selectedPane := by
      rw [noteStartup]
      rfl
    rw [hnote]
    cases hquitting : self.quitting with
    | true =>
      rw [step_of_quitting hquitting]
      exact .inr ⟨fun hrunning => absurd hrunning (by simp), hselected, hselected, hpersisted⟩
    | false =>
      rw [step_of_running hquitting] at hperson ⊢
      have hkept : move.ofPerson = true →
          (handle world { self with outbox := [] } move).selectedPane = self.selectedPane ∧
          (handle world { self with outbox := [] } move).restorePending = self.restorePending := by
        intro hmoved
        simpa [hmoved] using hperson
      rcases restoring_handle world { self with outbox := [] } hselected hpersisted move
        (hawaits hquitting rfl) hkept with hrestored | ⟨hwaits, hnone, hrestore⟩
      · exact .inl hrestored
      · exact .inr ⟨fun _ => hwaits, hnone, hnone, hrestore⟩

theorem restoring_step (persisted : PaneId) (s : App × Startup) (event : World × Move)
    (h : Restoring persisted s) (hawaits : Awaits persisted s event) :
    Restoring persisted (observe step noteStartup s event).1 := by
  intro hunmoved
  rcases startup_step s event h hawaits hunmoved with hfirst | ⟨-, hfirst, hselected, hpersisted⟩
  · exact .inl hfirst
  · exact .inr ⟨hfirst, hselected, hpersisted⟩

theorem restores_step (persisted : PaneId) (s : App × Startup) (event : World × Move)
    (h : Restoring persisted s) (hawaits : Awaits persisted s event) :
    Restores persisted s event := by
  intro hunmoved
  rcases startup_step s event h hawaits hunmoved with hfirst | ⟨hwaits, hfirst, -⟩
  · rw [hfirst]
    refine ⟨fun pane hpane => ?_, fun _ _ _ => rfl⟩
    cases hpane
    rfl
  · rw [hfirst]
    refine ⟨fun pane hpane => ?_, fun hquitting hdraw hready => ?_⟩
    · cases hpane
    · exact absurd ⟨hdraw, hready.1⟩ (hwaits hquitting)

/-- **The pane that was selected last is restored**: along every run whose redraws wait for it, no
other pane is selected first, and it is selected once a redraw finds it, unless a person moves the
selection before. -/
theorem persisted_pane_restored (persisted : PaneId) (configuredTargets : List String)
    (resolvedTargets : ExtTreeMap TargetSession (Option String)) (maxTransferBytes : ℕ)
    (events : List (World × Move))
    (h : AllSteps (observe step noteStartup) (Awaits persisted)
      (start (some persisted) configuredTargets resolvedTargets maxTransferBytes, ⟨none, false⟩)
      events) :
    AllSteps (observe step noteStartup) (Restores persisted)
      (start (some persisted) configuredTargets resolvedTargets maxTransferBytes, ⟨none, false⟩)
      events :=
  allSteps_of_allSteps (restoring_step persisted) (restores_step persisted)
    (fun _ => .inr ⟨rfl, rfl, rfl⟩) h

/-- A redraw finds the target connecting, and the next one finds it live. -/
theorem persisted_pane_restored_once_live :
    let pane : PaneId := ⟨"box", "main", "1"⟩
    let live := liveTarget ⟨"box", "main"⟩ 1 none [pane]
    let connecting := { live with connection := .connecting }
    AllSteps (observe step noteStartup) (Restores pane) (start (some pane) [] ∅ 100, ⟨none, false⟩)
      [(hosting [connecting], .draw), (hosting [live], .draw)] := by
  intro pane live connecting
  refine persisted_pane_restored pane [] ∅ 100 _ ⟨fun _ _ _ => ?_, fun _ _ _ => ?_, trivial⟩
  · have htarget : (hosting [connecting]).state.targets[pane.targetSession]? = some connecting := by
      decide +kernel
    exact (reserves_iff htarget).mpr fun hlive => nomatch hlive
  · exact ⟨by decide +kernel, fun _ => by decide +kernel⟩

/-- The first redraw comes before the first state of the federation: once the target of the pane is
live, another target's pane is selected. -/
theorem a_pane_is_given_up_before_its_target_is_known :
    let pane : PaneId := ⟨"box", "main", "1"⟩
    let other : PaneId := ⟨"hut", "main", "1"⟩
    let world := hosting [liveTarget ⟨"box", "main"⟩ 1 none [pane],
      liveTarget ⟨"hut", "main"⟩ 1 none [other]]
    let after := exec (observe step noteStartup) (start (some pane) [] ∅ 100, ⟨none, false⟩)
      [(blank, .draw), (world, .published), (world, .draw)]
    after.1.2 = ⟨some other, false⟩ ∧ after.1.1.selectedPane = some other ∧
      paneIsLive world.state pane = true := by
  decide +kernel

end App

end Tui

end SuperHerdr
