import SuperHerdr.Tui.Moves

/-!
# The overlay that is drawn and the overlay that is given the key

Two orders of nine overlays: one draws, the other hands out keys. A person opens at most one
overlay at a time, so the two can only differ where the daemon opens one of its own over it, or
where the mouse opens a menu under the approval of a device. `overlays_agree` is exact about that.
-/

namespace SuperHerdr

namespace Tui

open Std Transducer

namespace App

variable (world : World) (self : App)

/-! ### Agreement -/

/-- Whether the daemon has opened one of its two overlays. -/
def asked : Bool := self.pairingApproval.isSome || self.pairing.isSome

/-- Whether an overlay is open that is given keys before the daemon's are. -/
def covered : Bool :=
  self.contextMenu.isSome || self.closeConfirmation.isSome || self.textPrompt.isSome ||
    self.commandPalette.isSome || self.targetManager.isSome

/-- The overlay on screen is the overlay that gets the key, and a `y` where the approval of a device
is what is drawn approves that device and does nothing else. -/
structure Agrees (shown : App) : Prop where
  overlay : shown.drawnOverlay = shown.inputOverlay
  approves : ∀ world approval, shown.drawnOverlay = some .pairingApproval →
    shown.pairingApproval = some approval → handleInput world shown 0x79 =
      { shown with pairingApproval := none }.send (.decidePairing approval.attempt true)

/-- The two orders differ on nothing but the daemon's overlays. -/
theorem overlay_orders (menu confirmation prompt palette manager approval pairing navigator
    center : Bool)
    (hopened : menu.toNat + confirmation.toNat + prompt.toNat + palette.toNat + manager.toNat +
      navigator.toNat + center.toNat ≤ 1) :
    ((if approval then some Overlay.pairingApproval
      else if pairing then some .pairing
      else if manager then some .targetManager
      else if navigator then some .agentNavigator
      else if center then some .attentionCenter
      else if menu then some .contextMenu
      else if palette then some .commandPalette
      else if prompt then some .textPrompt
      else if confirmation then some .closeConfirmation
      else none) =
      (if menu then some Overlay.contextMenu
      else if confirmation then some .closeConfirmation
      else if prompt then some .textPrompt
      else if palette then some .commandPalette
      else if manager then some .targetManager
      else if approval then some .pairingApproval
      else if pairing then some .pairing
      else if navigator then some .agentNavigator
      else if center then some .attentionCenter
      else none)) ↔
      ((approval || pairing) && (menu || confirmation || prompt || palette || manager)) = false := by
  revert menu confirmation prompt palette manager approval pairing navigator center
  decide +kernel

theorem drawn_eq_input_iff (hopened : self.opened ≤ 1) :
    self.drawnOverlay = self.inputOverlay ↔ (self.asked && self.covered) = false :=
  overlay_orders _ _ _ _ _ _ _ _ _ hopened

theorem agrees_iff (hopened : self.opened ≤ 1) :
    self.Agrees ↔ (self.asked && self.covered) = false := by
  rw [← drawn_eq_input_iff self hopened]
  refine ⟨Agrees.overlay, fun hsame => ⟨hsame, ?_⟩⟩
  intro world approval hdrawn happroval
  have hinput : self.inputOverlay = some .pairingApproval := hsame ▸ hdrawn
  refine handleInput_elim (P := fun after => after = { self with pairingApproval := none }.send
    (.decidePairing approval.attempt true)) world self 0x79 ?_ ?_ ?_ ?_ ?_ ?_ ?_ ?_ ?_ ?_
  case refine_6 =>
    intro found _ hfound
    cases hfound.symm.trans happroval
    rfl
  all_goals
    first
    | (intro _ hother; exact absurd (hinput.symm.trans hother) (by simp))
    | (intro hother; exact absurd (hinput.symm.trans hother) (by simp))

/-! ### Keys -/

theorem asked_of_opens {scope : Scope} {before after : App} (h : before.Opens scope after) :
    after.asked = before.asked := by
  rw [asked, asked, h.approval, h.pairing]

/-- What a key leads to, told by the overlays alone: a handler of a person's overlay leaves at most
one of these open and the daemon's as they were, and the handlers of the daemon's only close it. -/
inductive Turned (before after : App) : Prop
  | personal (closed : App) (hopens : closed.Opens everything after)
      (hasked : closed.asked = before.asked) (hclosed : before.opened ≤ 1 → closed.opened = 0)
      (happroval : before.inputOverlay ≠ some .pairingApproval)
      (hpairing : before.inputOverlay ≠ some .pairing)
  | daemon (hoverlay : before.inputOverlay = some .pairingApproval ∨
        before.inputOverlay = some .pairing)
      (hcovered : after.covered = before.covered) (hopened : after.opened = before.opened)

theorem turned_handleInput (key : UInt8) : self.Turned (handleInput world self key) := by
  have hpersonal : ∀ {closed after : App} {overlay : Overlay}, closed.Opens everything after →
      closed.asked = self.asked → (self.opened ≤ 1 → closed.opened = 0) →
      self.inputOverlay = some overlay → overlay ≠ .pairingApproval → overlay ≠ .pairing →
      self.Turned after := by
    intro closed after overlay hopens hasked hclosed hoverlay happroval hpairing
    exact .personal closed hopens hasked hclosed (by simp [hoverlay, happroval])
      (by simp [hoverlay, hpairing])
  refine handleInput_elim (P := self.Turned) world self key ?_ ?_ ?_ ?_ ?_ ?_ ?_ ?_ ?_ ?_
  · intro menu hoverlay hmenu
    refine hpersonal (opens_handleContextMenuInput world self handles_everything menu key) rfl ?_
      hoverlay (by simp) (by simp)
    simp only [opened, hmenu, Option.isSome_some, Option.isSome_none, Bool.toNat_true,
      Bool.toNat_false]
    omega
  · intro confirmation hoverlay hconfirmation
    refine hpersonal (opens_handleCloseConfirmationInput self handles_everything confirmation key)
      rfl ?_ hoverlay (by simp) (by simp)
    simp only [opened, hconfirmation, Option.isSome_some, Option.isSome_none, Bool.toNat_true,
      Bool.toNat_false]
    omega
  · intro prompt hoverlay hprompt
    refine hpersonal (opens_handleTextPromptInput world self handles_everything prompt key
      (fun _ _ => trivial) (fun _ _ => trivial)) rfl ?_ hoverlay (by simp) (by simp)
    simp only [opened, hprompt, Option.isSome_some, Option.isSome_none, Bool.toNat_true,
      Bool.toNat_false]
    omega
  · intro palette hoverlay hpalette
    refine hpersonal (opens_handleCommandPaletteInput world self handles_everything palette key)
      rfl ?_ hoverlay (by simp) (by simp)
    simp only [opened, hpalette, Option.isSome_some, Option.isSome_none, Bool.toNat_true,
      Bool.toNat_false]
    omega
  · intro manager hoverlay hmanager
    refine hpersonal (opens_handleTargetManagerInput world self manager key) rfl ?_ hoverlay
      (by simp) (by simp)
    simp only [opened, hmanager, Option.isSome_some, Option.isSome_none, Bool.toNat_true,
      Bool.toNat_false]
    omega
  · intro approval hoverlay _
    refine .daemon (.inl hoverlay) ?_ ?_
    · rw [handlePairingApprovalInput]
      split <;> rfl
    · rw [handlePairingApprovalInput]
      split <;> rfl
  · intro hoverlay
    exact .daemon (.inr hoverlay) rfl rfl
  · intro navigator hoverlay hnavigator
    refine hpersonal (opens_handleAgentNavigatorInput world self handles_everything navigator key)
      rfl ?_ hoverlay (by simp) (by simp)
    simp only [opened, hnavigator, Option.isSome_some, Option.isSome_none, Bool.toNat_true,
      Bool.toNat_false]
    omega
  · intro center hoverlay hcenter
    refine hpersonal (opens_handleAttentionCenterInput world self handles_everything center key)
      rfl ?_ hoverlay (by simp) (by simp)
    simp only [opened, hcenter, Option.isSome_some, Option.isSome_none, Bool.toNat_true,
      Bool.toNat_false]
    omega
  · intro hnone
    have hopens := opens_handleKey world self key (fun _ => handles_everything)
      (fun _ _ _ => trivial) (fun _ _ => trivial) (fun _ => trivial) hnone
    refine .personal self hopens rfl (fun _ => ?_) (by simp [hnone]) (by simp [hnone])
    have hmodal := hasModalOverlay_eq self
    rw [hnone] at hmodal
    simp only [hasModalOverlay, Option.isSome_none, Bool.or_eq_false_iff] at hmodal
    simp [opened, hmodal]

/-- Nothing of the daemon's is hidden by an overlay of a person's. -/
def Bare (shown : App) : Prop := (shown.asked && shown.covered) = false

/-- The daemon's overlays are given keys where one is open and nothing is given them before. -/
theorem daemon_iff : self.inputOverlay = some .pairingApproval ∨ self.inputOverlay = some .pairing ↔
    self.asked = true ∧ self.covered = false := by
  rw [inputOverlay, asked, covered]
  split_ifs
  all_goals simp [*]

theorem covered_of_daemon (h : self.inputOverlay = some .pairingApproval ∨
    self.inputOverlay = some .pairing) : self.covered = false :=
  (self.daemon_iff.mp h).2

theorem covered_of_asked (hasked : self.asked = true)
    (happroval : self.inputOverlay ≠ some .pairingApproval)
    (hpairing : self.inputOverlay ≠ some .pairing) : self.covered = true := by
  by_contra hcovered
  rcases self.daemon_iff.mpr ⟨hasked, Bool.eq_false_of_not_eq_true hcovered⟩ with happroval' | hpairing'
  · exact happroval happroval'
  · exact hpairing hpairing'

theorem opened_handleInput (key : UInt8) (hopened : self.opened ≤ 1) :
    (handleInput world self key).opened ≤ 1 := by
  rcases turned_handleInput world self key with ⟨closed, hopens, -, hclosed, -, -⟩ | ⟨-, -, hsame⟩
  · have hmore := hopens.opened
    have hzero := hclosed hopened
    omega
  · omega

theorem bare_handleInput (key : UInt8) (hbare : self.Bare) : (handleInput world self key).Bare := by
  rcases turned_handleInput world self key with
    ⟨closed, hopens, hasked, -, happroval, hpairing⟩ | ⟨hdaemon, hcovered, -⟩
  · have hnone : self.asked = false := by
      by_contra hsome
      have hcovered := covered_of_asked self (by simpa using hsome) happroval hpairing
      simp [Bare, hcovered, hsome] at hbare
    rw [Bare, asked_of_opens hopens, hasked, hnone, Bool.false_and]
  · rw [Bare, hcovered, covered_of_daemon self hdaemon, Bool.and_false]

/-- What a person's overlays and the daemon's are, no event may upset. -/
def Steady (before after : App) : Prop :=
  (before.opened ≤ 1 → after.opened ≤ 1) ∧ (before.Bare → after.Bare)

theorem Steady.refl (self : App) : self.Steady self := ⟨id, id⟩

theorem Steady.trans {self between after : App} (h : self.Steady between)
    (hnext : between.Steady after) : self.Steady after :=
  ⟨hnext.1 ∘ h.1, hnext.2 ∘ h.2⟩

theorem steady_of_dialogs {after : App} (h : after.dialogs = self.dialogs) : self.Steady after := by
  have hfields := h
  simp only [dialogs, Dialogs.mk.injEq] at hfields
  refine ⟨fun hopened => opened_congr h ▸ hopened, fun hbare => ?_⟩
  simpa only [Bare, asked, covered, hfields] using hbare

theorem steady_of_quiet {after : App} (h : self.Quiet everything after) : self.Steady after :=
  steady_of_dialogs self h.dialogs

theorem steady_handleInput (key : UInt8) : self.Steady (handleInput world self key) :=
  ⟨opened_handleInput world self key, bare_handleInput world self key⟩

theorem steady_handleBytes (keys : List UInt8) : self.Steady (handleBytes world keys self) :=
  handleBytes_rule world Steady.refl (fun _ _ _ => Steady.trans)
    (fun self key _ => steady_handleInput world self key)
    (EachKey.of_forall world (fun _ _ => trivial) keys self)

/-! ### The mouse -/

/-- Whether the mouse opens a menu where no overlay takes it. -/
def MouseOpens (mouse : MouseInput) : Prop :=
  (self.contextMenu.isSome || self.targetManager.isSome || self.mouseBlocked) = false ∧
    ∃ asked target, surfaceMenu world self mouse = some (asked, target) ∧
      MenuOpens world asked target

/-- What the mouse does to the overlays: where it opens no menu under an overlay of the daemon's,
nothing is upset, and otherwise the menu hides it. -/
theorem mouse_frame (mouse : MouseInput) :
    (self.opened ≤ 1 → (handleMouse world self mouse).opened ≤ 1) ∧ (self.Bare →
      ((handleMouse world self mouse).Bare ↔
        ¬(self.asked = true ∧ MouseOpens world self mouse))) := by
  cases hfree : self.contextMenu.isSome || self.targetManager.isSome || self.mouseBlocked with
  | false =>
    have hpresses : Presses everything world (surfaceMenu world self mouse) self
        (surfaceMouse world self mouse) :=
      presses_surfaceMouse world self handles_everything mouse (aimAllowed_everything world self _)
    rw [handleMouse_surface world self mouse hfree]
    have hblocked : self.mouseBlocked = false := by
      simp only [Bool.or_eq_false_iff] at hfree
      exact hfree.2
    have hnone : self.opened = 0 := by
      simp only [mouseBlocked, Bool.or_eq_false_iff] at hfree
      simp [opened, hfree]
    refine ⟨fun _ => by have hmore := hpresses.opens.opened; omega, fun hbare => ?_⟩
    have hasked := asked_of_opens hpresses.opens
    by_cases hopens : MouseOpens world self mouse
    · obtain ⟨-, asked, target, hmenu, htarget⟩ := hopens
      have hsome := hpresses.menu asked target hmenu htarget
      have hcovered : (surfaceMouse world self mouse).covered = true := by simp [covered, hsome]
      rw [Bare, hasked, hcovered, Bool.and_true]
      simp [MouseOpens, hfree, hmenu, htarget]
    · have hclosed : (surfaceMouse world self mouse).dialogs = self.dialogs := by
        refine hpresses.quiet fun asked target hmenu htarget => hopens ?_
        exact ⟨hfree, asked, target, hmenu, htarget⟩
      simp only [hopens, and_false, not_false_iff, iff_true]
      exact (steady_of_dialogs self hclosed).2 hbare
  | true =>
    have hcannot : ¬MouseOpens world self mouse := by simp [MouseOpens, hfree]
    have hcovered : ∀ closed : App, closed.Opens everything (handleMouse world self mouse) →
        closed.asked = self.asked → self.covered = true → self.Bare →
        (handleMouse world self mouse).Bare := by
      intro closed hopens hasked hcovered hbare
      rw [Bare, hcovered, Bool.and_true] at hbare
      rw [Bare, asked_of_opens hopens, hasked, hbare, Bool.false_and]
    simp only [hcannot, and_false, not_false_iff, iff_true]
    rw [handleMouse] at hcovered ⊢
    split
    · next menu hmenu =>
      have hopens := opens_handleContextMenuMouse world self handles_everything menu mouse
      simp only [hmenu] at hcovered
      refine ⟨fun hopened => ?_, hcovered _ hopens rfl (by simp [covered, hmenu])⟩
      have hmore := hopens.opened
      simp only [opened, hmenu, Option.isSome_some, Option.isSome_none, Bool.toNat_true,
        Bool.toNat_false] at hopened hmore ⊢
      omega
    · next hmenu =>
      split
      · next manager hmanager =>
        split
        · exact ⟨id, id⟩
        · next hframe =>
          have hopens : Opens everything { self with targetManager := none }
              (handleTargetManagerMouse world self manager mouse) :=
            opens_handleTargetManagerMouse world self manager mouse
          simp only [hmenu, hmanager, hframe, if_false] at hcovered
          refine ⟨fun hopened => ?_, hcovered _ hopens rfl (by simp [covered, hmanager])⟩
          have hmore := hopens.opened
          simp only [opened, hmanager, Option.isSome_some, Option.isSome_none, Bool.toNat_true,
            Bool.toNat_false] at hopened hmore ⊢
          omega
      · next hmanager =>
        have hblocked : self.mouseBlocked = true := by simpa [hmenu, hmanager] using hfree
        rw [if_pos hblocked]
        exact ⟨id, id⟩

/-! ### The other moves -/

theorem dialogs_requestFailed (request : ℕ) (message : String) :
    (requestFailed world self request message).dialogs = self.dialogs := by
  have hfailed := dialogs_failUpload world self request message
  rw [requestFailed]
  split
  · dsimp only
    split <;> rfl
  · split
    · next after heq =>
      rw [heq] at hfailed
      exact hfailed
    · next after heq =>
      rw [heq] at hfailed
      split
      · exact hfailed
      · exact hfailed

theorem steady_pluginActions (request : ℕ) (target : TargetSession) (generation : ℕ)
    (actions : List PluginAction) :
    self.Steady (pluginActions world self request target generation actions) := by
  rw [pluginActions]
  split
  · exact .refl self
  · dsimp only
    split_ifs
    · exact steady_of_dialogs self rfl
    · exact steady_of_dialogs self rfl
    · simp only [Steady, opened, Bare, asked, covered, Option.isSome_map]
      exact ⟨id, id⟩

/-- Whether a message opens one of the daemon's overlays. -/
def asks : ServerMessage → Bool
  | .pairingCode .. | .pairingApprovalRequired .. => true
  | _ => false

theorem bare_of_asks {message : ServerMessage} (hasks : asks message = true) :
    (handleDaemonEvent world self message).opened = self.opened ∧
      ((handleDaemonEvent world self message).Bare ↔ self.covered = false) := by
  rw [asks.eq_def] at hasks
  split at hasks
  · refine ⟨rfl, ?_⟩
    simp only [handleDaemonEvent, Bare, asked, covered, Option.isSome_some, Bool.or_true,
      Bool.true_and]
  · refine ⟨rfl, ?_⟩
    simp only [handleDaemonEvent, Bare, asked, covered, Option.isSome_some, Bool.true_or,
      Bool.true_and]
  · cases hasks

theorem steady_handleDaemonEvent {message : ServerMessage} (hasks : asks message = false) :
    self.Steady (handleDaemonEvent world self message) := by
  rw [handleDaemonEvent.eq_def]
  split
  case h_1 =>
    exact steady_of_quiet self (quiet_paneFrame world self trivial _ _ _ _ _ _)
  case h_4 =>
    exact steady_of_quiet self (quiet_operationResult world self trivial _ _)
  case h_5 => exact steady_pluginActions world self _ _ _ _
  case h_6 =>
    exact steady_of_quiet self (quiet_downloadOffer world self trivial trivial _ _ _ _)
  case h_7 =>
    exact steady_of_quiet self (quiet_downloadChunk world self trivial trivial _ _)
  case h_8 =>
    exact steady_of_quiet self (quiet_downloadFinished self trivial _)
  case h_9 => exact steady_of_dialogs self (dialogs_uploadComplete world self _ _)
  case h_10 => exact absurd hasks (by simp [asks])
  case h_11 => exact absurd hasks (by simp [asks])
  case h_12 =>
    split
    · refine ⟨id, fun hbare => ?_⟩
      simp only [Bare, asked, covered, Option.isSome_none, Bool.false_or] at hbare ⊢
      simp only [Bool.and_eq_false_iff, Bool.or_eq_false_iff] at hbare ⊢
      exact hbare.imp_left And.right
    · exact .refl self
  case h_13 => exact steady_of_dialogs self (dialogs_requestFailed world self _ _)
  case h_14 =>
    split
    · exact steady_of_dialogs self rfl
    · exact .refl self
  all_goals exact steady_of_dialogs self rfl

theorem steady_configurationRefreshed (configuredTargets : List String)
    (resolvedTargets : ExtTreeMap TargetSession (Option String)) (maxTransferBytes : ℕ) :
    self.Steady
      (self.configurationRefreshed configuredTargets resolvedTargets maxTransferBytes) := by
  simp only [Steady, configurationRefreshed, opened, Bare, asked, covered, Option.isSome_map]
  exact ⟨id, id⟩

/-! ### Every run -/

/-- Whether a move opens nothing of the daemon's under an overlay of a person's: the daemon asks for
nothing while one is open that takes keys before its own, and the mouse opens no menu once it has. -/
def Orderly (world : World) (self : App) : Move → Prop
  | .daemon message => asks message = true → self.covered = false
  | .input (.mouse mouse) => self.asked = true → ¬MouseOpens world self mouse
  | _ => True

/-- What a move does to the overlays. -/
theorem handle_frame (move : Move) :
    (self.opened ≤ 1 → (handle world self move).opened ≤ 1) ∧
      (self.Bare → ((handle world self move).Bare ↔ Orderly world self move)) := by
  have hsteady : ∀ after : App, self.Steady after →
      (self.opened ≤ 1 → after.opened ≤ 1) ∧ (self.Bare → (after.Bare ↔ True)) :=
    fun after h => ⟨h.1, fun hbare => iff_true_intro (h.2 hbare)⟩
  cases move with
  | input input =>
    cases input with
    | bytes bytes =>
      refine hsteady _ ?_
      rw [handle, handleDecodedInput]
      split
      · exact steady_handleInput world self _
      · split
        · exact steady_of_quiet self (quiet_forwardPaneBytes world self
            (fun _ => trivial) (fun _ => trivial) bytes)
        · exact steady_handleBytes world self bytes
    | mouse mouse =>
      have hframe := mouse_frame world self mouse
      exact ⟨hframe.1, fun hbare => (hframe.2 hbare).trans not_and⟩
    | paste bytes =>
      refine hsteady _ (steady_of_quiet self (quiet_handlePaste world self
        bytes ⟨?_, ?_⟩))
      · exact fun _ _ => ⟨fun _ _ => trivial, fun _ _ => trivial⟩
      · exact fun _ _ => ⟨fun _ _ => trivial, fun _ => trivial⟩
    | pasteTooLarge => exact hsteady _ (.refl self)
  | daemon message =>
    cases hasks : asks message with
    | true =>
      obtain ⟨hopened, hbare⟩ := bare_of_asks world self hasks
      exact ⟨fun h => hopened ▸ h, fun _ => hbare.trans (by simp [Orderly, hasks])⟩
    | false =>
      obtain ⟨hopened, hbare⟩ := hsteady _ (steady_handleDaemonEvent world self hasks)
      exact ⟨hopened, fun h => (hbare h).trans (by simp [Orderly, hasks])⟩
  | uploadFailed request message =>
    exact hsteady _ (steady_of_dialogs self (dialogs_failUpload world self request message))
  | activated pane =>
    exact hsteady _
      (steady_of_quiet self (quiet_jumpFromNotification world self handles_everything pane))
  | published =>
    exact hsteady _ (steady_of_quiet self (quiet_ensurePluginCatalogs world self trivial))
  | draw => exact hsteady _ (steady_of_quiet self (quiet_draw world self handles_everything))
  | autoscroll =>
    exact hsteady _ (steady_of_quiet self (quiet_tickSelectionAutoscroll self trivial))
  | tick => exact hsteady _ (steady_of_dialogs self rfl)
  | configuration configured resolved bytes =>
    exact hsteady _ (steady_configurationRefreshed self configured resolved bytes)

/-- The same for a turn of the loop, unless the person has quit. -/
def OrderlyStep (self : App) (event : World × Move) : Prop :=
  self.quitting = false → Orderly event.1 { self with outbox := [] } event.2

theorem step_frame (event : World × Move) :
    (self.opened ≤ 1 → (step self event).1.opened ≤ 1) ∧
      (self.Bare → ((step self event).1.Bare ↔ self.OrderlyStep event)) := by
  cases hquitting : self.quitting with
  | true =>
    rw [step_of_quitting hquitting]
    exact ⟨id, fun hbare => by simp [hbare, OrderlyStep, hquitting]⟩
  | false =>
    obtain ⟨hone, hiff⟩ := handle_frame event.1 { self with outbox := [] } event.2
    rw [step_of_running hquitting]
    exact ⟨hone, fun hbare => (hiff hbare).trans (by simp [OrderlyStep, hquitting])⟩

/-- **The overlay on screen is the overlay that gets the key**, in every state of a run, exactly
when in that run the daemon asks for nothing while an overlay is open that takes keys before its
own, and no menu is opened with the mouse once it has asked. -/
theorem overlays_agree (restorePending : Option PaneId) (configuredTargets : List String)
    (resolvedTargets : ExtTreeMap TargetSession (Option String)) (maxTransferBytes : ℕ)
    (events : List (World × Move)) :
    AllStates step Agrees (start restorePending configuredTargets resolvedTargets maxTransferBytes)
        events ↔
      AllSteps step OrderlyStep (start restorePending configuredTargets resolvedTargets
        maxTransferBytes) events := by
  have hone : ∀ (self : App) (event : World × Move), self.opened ≤ 1 →
      (step self event).1.opened ≤ 1 := fun self event => (step_frame self event).1
  have hstart : (start restorePending configuredTargets resolvedTargets maxTransferBytes).opened ≤ 1 :=
    Nat.zero_le 1
  refine allStates_iff_allSteps (I := fun self : App => self.opened ≤ 1) hone ?_ ?_ hstart ?_ events
  · intro self event hopened hagrees horderly
    have hbare : self.Bare := (agrees_iff self hopened).mp hagrees
    exact (agrees_iff _ (hone self event hopened)).mpr
      (((step_frame self event).2 hbare).mpr horderly)
  · intro self event hopened hagrees hafter
    have hbare : self.Bare := (agrees_iff self hopened).mp hagrees
    have hbare' : (step self event).1.Bare :=
      (agrees_iff _ (hone self event hopened)).mp hafter
    exact ((step_frame self event).2 hbare).mp hbare'
  · exact (agrees_iff _ hstart).mpr rfl

/-- The person is asked whether to remove one of two targets when a device asks to be approved: the
approval is what is drawn, and the `y` meant for it removes the target. -/
theorem an_approval_hides_a_removal :
    let before := (exec step (start none ["box", "hut"] ∅ 0)
      [(blank, .input (.bytes [PREFIX_KEY])), (blank, .input (.bytes [0x68])),
        (blank, .input (.bytes [0x64])),
        (blank, .daemon (.pairingApprovalRequired "attempt" "phone" "1234" 60))]).1
    let world := { blank with
      targetRemoved := fun name => if name = "box" then some ["hut"] else none }
    before.drawnOverlay = some .pairingApproval ∧ before.inputOverlay = some .targetManager ∧
      (step before (world, .input (.bytes [0x79]))).2 = [.removeTarget "box"] := by
  decide +kernel

end App

end Tui

end SuperHerdr
