import SuperHerdr.Tui.Events

/-!
# What the other moves do

What the daemon says, a redraw and the ticks open no overlay of a person's; a menu that is open is
refreshed where its plugins are, and the two overlays of the daemon are its own. An upload that
ends is looked at elsewhere: here it is only told apart.
-/

namespace SuperHerdr

namespace Tui

open Std

namespace App

variable {scope : Scope} (world : World) (self : App)

/-! ### A turn of the loop -/

theorem step_of_quitting {self : App} {event : World × Move} (h : self.quitting = true) :
    step self event = (self, []) := by
  rw [step, if_pos h]

theorem step_of_running {self : App} {event : World × Move} (h : self.quitting = false) :
    step self event =
      ({ handle event.1 { self with outbox := [] } event.2 with outbox := [] },
        (handle event.1 { self with outbox := [] } event.2).outbox) := by
  rw [step, if_neg (by simp [h])]

/-! ### What is always allowed -/

/-- A scope that allows everything. -/
def everything : Scope := ⟨fun _ => True, True, True, True, True⟩

/-- A scope that allows everything but to paste a path of an upload. -/
def unverified : Scope := ⟨fun origin => ∀ pane, origin ≠ .verified pane, True, True, True, True⟩

/-- The same for what the frontend does of its own, and not as the daemon said something. -/
def unprompted : Scope := { unverified with answers := False }

theorem unprompted_le_unverified : unprompted.Le unverified :=
  ⟨fun _ => id, id, id, id, False.elim⟩

theorem unprompted_le_everything : unprompted.Le everything :=
  ⟨fun _ _ => trivial, id, id, id, False.elim⟩

theorem unprompted_le_self : unprompted.Le unprompted := ⟨fun _ => id, id, id, id, id⟩

theorem handles_of_le (h : unprompted.Le scope) : scope.Handles :=
  ⟨fun origin hown _ => h.origins origin hown.2, h.navigates trivial⟩

theorem handles_everything : everything.Handles := handles_of_le unprompted_le_everything

theorem aimAllowed_of_le (h : unprompted.Le scope) (aim : Option Aim) :
    AimAllowed world self scope aim :=
  fun _ _ => ⟨fun _ => h.origins _ fun _ => by simp, fun _ => h.drops trivial⟩

theorem aimAllowed_everything (aim : Option Aim) : AimAllowed world self everything aim :=
  aimAllowed_of_le world self unprompted_le_everything aim

theorem keyAllowed_of_le (h : unprompted.Le scope) (key : UInt8) :
    KeyAllowed scope world self key where
  taken _ := handles_of_le h
  typed _ _ := h.origins _ fun _ => by simp
  drops _ := h.drops trivial
  displaces _ := h.displaces trivial
  doubles _ := h.origins _ fun _ => by simp

theorem keyAllowed_everything (key : UInt8) : KeyAllowed everything world self key :=
  keyAllowed_of_le world self unprompted_le_everything key

/-- No event pastes a path of an upload. -/
theorem inputAllowed_of_le (h : unprompted.Le scope) (input : DecodedInput) :
    InputAllowed world self scope input := by
  cases input with
  | bytes bytes =>
    refine ⟨fun key _ => keyAllowed_of_le world self h key, fun _ _ => ?_, fun _ _ => ?_⟩
    · exact ⟨fun _ => h.origins _ fun _ => by simp, fun _ => h.drops trivial⟩
    · exact .of_forall world (fun self key => keyAllowed_of_le world self h key) bytes self
  | mouse mouse => exact ⟨handles_of_le h, aimAllowed_of_le world self h _⟩
  | paste bytes =>
    have hpasted : scope.origins .pasted := h.origins _ fun _ => by simp
    have hdropped : scope.origins .dropped := h.origins _ fun _ => by simp
    exact ⟨fun _ _ => ⟨fun _ _ => hpasted, fun _ _ => h.drops trivial⟩,
      fun _ _ => ⟨fun _ _ => hdropped, fun _ => h.drops trivial⟩⟩
  | pasteTooLarge => trivial

theorem inputAllowed_everything (input : DecodedInput) : InputAllowed world self everything input :=
  inputAllowed_of_le world self unprompted_le_everything input

/-! ### Redraws -/

theorem quiet_selectStartup (hnavigates : scope.navigates) (hrestore : self.restorePending = none) :
    self.Quiet scope (selectStartup world self) := by
  rw [selectStartup]
  split
  · exact .refl self
  · next pane _ =>
    have hacts : Acts scope self.memory [] { self.memory with
        selectedPane := some pane, restorePending := self.restorePending } :=
      .adopt hnavigates (some pane) self.restorePending self.followedFocus (fun _ => hrestore)
        (.inr rfl)
    exact .of_acts rfl rfl hacts

theorem quiet_followOrStart (h : scope.Handles) (hrestore : self.restorePending = none) :
    self.Quiet scope (followOrStart world self) := by
  rw [followOrStart]
  split
  · exact quiet_selectStartup world self h.navigates hrestore
  · have hended : self.Quiet scope { self with followedFocus := none } := by
      have hacts : Acts scope self.memory [] { self.memory with
          selectedPane := self.selectedPane, restorePending := self.restorePending,
          followedFocus := none } :=
        .adopt h.navigates self.selectedPane self.restorePending none (fun _ => hrestore)
          (.inl rfl)
      exact .of_acts rfl rfl hacts
    dsimp only
    split
    · exact hended.trans (quiet_selectPane _ h _)
    · split
      · exact .refl self
      · exact hended.trans (quiet_selectStartup world _ h.navigates hrestore)

theorem quiet_reconcileSelection (h : scope.Handles) :
    self.Quiet scope (reconcileSelection world self) := by
  have hsettled : ∀ self : App, self.restorePending = none → self.Quiet scope
      (if self.selectedPane.isSome then self else followOrStart world self) := by
    intro self hrestore
    split
    · exact .refl self
    · exact quiet_followOrStart world self h hrestore
  have hgiven : ∀ selected, self.Quiet scope
      { self with restorePending := none, selectedPane := selected } :=
    fun selected => .of_acts rfl rfl
      (.adopt h.navigates selected none self.followedFocus (fun _ => rfl) (.inr rfl))
  rw [reconcileSelection]
  dsimp only
  split
  · next hrestore => exact hsettled self hrestore
  · split
    · exact (hgiven self.selectedPane).trans (hsettled _ rfl)
    · split
      · exact .refl self
      · split
        · exact hgiven _
        · exact (hgiven self.selectedPane).trans (hsettled _ rfl)

/-- Routes are released, each pane's is told. -/
theorem quiet_release (hplain : scope.origins .plain)
    (routes : ExtTreeMap PaneId ActiveRoute) (panes : List PaneId)
    (hroutes : ∀ (pane : PaneId) (route : ActiveRoute), routes[pane]? = some route →
      self.routes[pane]? = some route)
    (hpanes : ∀ pane, pane ∈ panes ↔ pane ∈ self.routes ∧ pane ∉ routes) :
    self.Quiet scope
      (panes.foldl (fun self pane => self.send (.unsubscribePane pane)) { self with routes }) := by
  rw [foldl_send]
  refine ⟨⟨panes.map fun pane => .send .plain (.unsubscribePane pane), rfl, ?_, ?_⟩, rfl⟩
  · intro effect hmem
    obtain ⟨pane, -, rfl⟩ := List.mem_map.mp hmem
    exact Effect.within_send hplain rfl
  · have hnews : (panes.map fun pane => Effect.send .plain (.unsubscribePane pane)).filterMap
        Effect.news = panes.map News.unsubscribed := by
      simp [List.filterMap_map, Effect.news, Function.comp_def]
    rw [hnews]
    exact .release routes panes hroutes hpanes

theorem quiet_openRoute (hplain : scope.origins .plain) (selected pane : PaneId) (inner : Size) :
    self.Quiet scope (openRoute world selected self pane inner) := by
  rw [openRoute]
  split
  · exact .refl self
  · next hneeded =>
    have hfresh : pane ∉ self.routes := by
      intro hmem
      exact hneeded (.inl (by simpa using hmem))
    split
    · exact .refl self
    · refine .of_effect rfl rfl (Effect.within_send hplain rfl) rfl ?_
      exact .subscribe pane _ hfresh rfl

/-- The routes of a map that are held are those that are not released. -/
theorem mem_released (routes : ExtTreeMap PaneId ActiveRoute) (keeps : PaneId → ActiveRoute → Bool)
    (pane : PaneId) :
    pane ∈ (routes.toList.filter fun entry => !keeps entry.1 entry.2).map (·.1) ↔
      pane ∈ routes ∧ pane ∉ routes.filter keeps := by
  rw [ExtTreeMap.mem_iff_isSome_getElem?, ExtTreeMap.mem_iff_isSome_getElem?,
    ExtTreeMap.getElem?_filter']
  constructor
  · intro hmem
    obtain ⟨⟨held, route⟩, hentry, rfl⟩ := List.mem_map.mp hmem
    obtain ⟨hlist, hkeeps⟩ := List.mem_filter.mp hentry
    have hroute := ExtTreeMap.mem_toList_iff_getElem?_eq_some.mp hlist
    simp_all
  · rintro ⟨hheld, hdropped⟩
    obtain ⟨route, hroute⟩ := Option.isSome_iff_exists.mp hheld
    refine List.mem_map.mpr ⟨(pane, route), List.mem_filter.mpr ⟨?_, ?_⟩, rfl⟩
    · exact ExtTreeMap.mem_toList_iff_getElem?_eq_some.mpr hroute
    · simpa [hroute] using hdropped

theorem quiet_ensureRoutes (hplain : scope.origins .plain) :
    self.Quiet scope (ensureRoutes world self) := by
  rw [ensureRoutes]
  split
  · refine quiet_release self hplain ∅ _ (by simp) fun pane => ?_
    rw [ExtTreeMap.map_fst_toList_eq_keys, ExtTreeMap.mem_keys]
    simp
  · next selected _ =>
    dsimp only
    let desired : ExtTreeMap PaneId Size := ExtTreeMap.ofList
      ((world.visiblePanes { self with lastFrameArea := some world.frameArea }).filter
        fun entry => 0 < entry.2.width ∧ 0 < entry.2.height)
    have hframed : self.Quiet scope { self with lastFrameArea := some world.frameArea } :=
      .of_eq rfl rfl rfl
    have hreleased := quiet_release { self with lastFrameArea := some world.frameArea } hplain
      (self.routes.filter (keepsRoute world selected desired))
      ((self.routes.toList.filter fun entry =>
        !keepsRoute world selected desired entry.1 entry.2).map (·.1))
      (fun pane route hroute => by
        rw [ExtTreeMap.getElem?_filter'] at hroute
        exact (Option.filter_eq_some_iff.mp hroute).1)
      (mem_released self.routes _)
    exact (hframed.trans hreleased).trans (quiet_foldl (fun self (entry : PaneId × Size) =>
      quiet_openRoute world self hplain selected entry.1 entry.2) _ _)

theorem quiet_draw (h : scope.Handles) : self.Quiet scope (draw world self) := by
  refine Quiet.trans ((quiet_reconcileSelection world self h).trans
    (quiet_ensureRoutes world _ h.plain)) ?_
  exact .of_eq rfl rfl rfl

/-! ### Ticks and clicks -/

theorem quiet_tickSelectionAutoscroll (hautoscroll : scope.origins .autoscroll) :
    self.Quiet scope self.tickSelectionAutoscroll := by
  have hstopped : self.Quiet scope { self with selectionAutoscroll := none } := .of_eq rfl rfl rfl
  rw [tickSelectionAutoscroll]
  split
  · exact .refl self
  · dsimp only
    split
    · split_ifs
      · exact hstopped
      · exact hstopped
      · refine Quiet.trans ?_ (quiet_perform _ (Effect.within_send hautoscroll trivial) rfl)
        exact .of_eq rfl rfl rfl
    · exact hstopped

theorem quiet_jumpFromNotification (h : scope.Handles) (pane : PaneId) :
    self.Quiet scope (jumpFromNotification world self pane) := by
  rw [jumpFromNotification]
  split
  · exact quiet_selectPane self h pane
  · exact quiet_markAttentionSeen self h.plain pane

/-! ### The daemon -/

theorem quiet_updateSelectionAfterFrame (pane : PaneId) (before after : Parser) :
    self.Quiet scope (updateSelectionAfterFrame world self pane before after) := by
  rw [updateSelectionAfterFrame]
  repeat' split
  all_goals exact .of_eq rfl rfl rfl

/-- What the daemon said is written down, and nothing else. -/
theorem Quiet.of_answer {after : App} (hanswers : scope.answers)
    (houtbox : after.outbox = self.outbox) (hdialogs : after.dialogs = self.dialogs)
    (hcatalogs : ∀ request ∈ after.pendingPluginCatalogs, request ∈ self.pendingPluginCatalogs)
    (hkept : after.restorePending = self.restorePending ∧ after.nextRequest = self.nextRequest ∧
      after.pendingUploads = self.pendingUploads ∧ after.uploadBatches = self.uploadBatches ∧
      after.nextUploadBatch = self.nextUploadBatch) : self.Quiet scope after := by
  obtain ⟨hrestore, hrequest, huploads, hbatches, hnext⟩ := hkept
  have hacts : Acts scope self.memory [] _ := .answer hanswers after.selectedPane
    after.followedFocus after.routes after.pendingOperations after.herdrActionInflight
    after.pendingPluginCatalogs after.fileSaveRequest after.fileSave hcatalogs
  refine .of_acts houtbox hdialogs ?_
  simpa only [memory, hrestore, hrequest, huploads, hbatches, hnext] using hacts

theorem quiet_paneFrame (hanswers : scope.answers) (pane : PaneId) (sequence : ℕ)
    (width height : UInt16) (full : Bool) (bytes : List UInt8) :
    self.Quiet scope (paneFrame world self pane sequence width height full bytes) := by
  rw [paneFrame]
  split
  · exact .refl self
  · dsimp only
    refine Quiet.trans ?_ (quiet_updateSelectionAfterFrame world _ pane _ _)
    exact .of_answer self hanswers rfl rfl (fun _ => id) ⟨rfl, rfl, rfl, rfl, rfl⟩

theorem quiet_operationResult (hanswers : scope.answers) (request : ℕ) (applied : Bool) :
    self.Quiet scope (operationResult world self request applied) := by
  rw [operationResult]
  dsimp only
  repeat' split
  all_goals exact .of_answer self hanswers rfl rfl (fun _ => id) ⟨rfl, rfl, rfl, rfl, rfl⟩

theorem quiet_refused (hanswers : scope.answers) (hplain : scope.origins .plain) (request : ℕ)
    (fileSave : Option FileSave) :
    self.Quiet scope ({ self with fileSaveRequest := none, fileSave }.send
      (.cancelDownload request)) := by
  have hwithin : (Effect.send .plain (.cancelDownload request)).Within scope :=
    Effect.within_send hplain rfl
  exact .of_effect rfl rfl hwithin rfl (.refuse hanswers request fileSave)

theorem quiet_downloadOffer (hanswers : scope.answers) (hplain : scope.origins .plain)
    (request : ℕ) (name : String) (length : ℕ) (digest : String) :
    self.Quiet scope (downloadOffer world self request name length digest) := by
  rw [downloadOffer]
  split
  · exact .refl self
  · split
    · refine Quiet.trans ?_ (quiet_send _ hplain rfl rfl)
      exact .of_answer self hanswers rfl rfl (fun _ => id) ⟨rfl, rfl, rfl, rfl, rfl⟩
    · exact quiet_refused self hanswers hplain request self.fileSave

theorem quiet_downloadChunk (hanswers : scope.answers) (hplain : scope.origins .plain)
    (request : ℕ) (bytes : List UInt8) :
    self.Quiet scope (downloadChunk world self request bytes) := by
  rw [downloadChunk]
  split
  · exact .refl self
  · dsimp only
    split_ifs
    · exact .refl self
    · exact quiet_refused self hanswers hplain request none
    · exact .of_answer self hanswers rfl rfl (fun _ => id) ⟨rfl, rfl, rfl, rfl, rfl⟩
    · refine Quiet.trans ?_ (quiet_send _ hplain rfl rfl)
      exact .of_answer self hanswers rfl rfl (fun _ => id) ⟨rfl, rfl, rfl, rfl, rfl⟩

theorem quiet_downloadFinished (hanswers : scope.answers) (request : ℕ) :
    self.Quiet scope (self.downloadFinished request) := by
  rw [downloadFinished]
  split
  · exact .refl self
  · dsimp only
    split
    · exact .of_answer self hanswers rfl rfl (fun _ => id) ⟨rfl, rfl, rfl, rfl, rfl⟩
    · exact .of_answer self hanswers rfl rfl (fun _ => id) ⟨rfl, rfl, rfl, rfl, rfl⟩

theorem mem_catalogs_erase {catalogs : ExtTreeMap ℕ PendingPluginCatalog} {answered request : ℕ}
    (h : request ∈ catalogs.erase answered) : request ∈ catalogs :=
  (ExtTreeMap.mem_erase.mp h).2

/-- A refusal of what is not an upload. -/
theorem quiet_requestFailed (hanswers : scope.answers) (request : ℕ) (message : String)
    (hupload : self.pendingUploads[request]? = none ∨
      self.pendingPluginCatalogs[request]? ≠ none) :
    self.Quiet scope (requestFailed world self request message) := by
  rw [requestFailed]
  split
  · dsimp only
    split
    · exact .of_answer self hanswers rfl rfl (fun _ => mem_catalogs_erase) ⟨rfl, rfl, rfl, rfl, rfl⟩
    · exact .of_answer self hanswers rfl rfl (fun _ => mem_catalogs_erase) ⟨rfl, rfl, rfl, rfl, rfl⟩
  · next hcatalog =>
    have hnone : self.pendingUploads[request]? = none := hupload.resolve_right (by simp [hcatalog])
    have hfailed : failUpload world self request message = (self, false) := by
      rw [failUpload, hnone]
    rw [hfailed]
    dsimp only
    split
    · exact .of_answer self hanswers rfl rfl (fun _ => id) ⟨rfl, rfl, rfl, rfl, rfl⟩
    · exact .refl self

/-- What a message from the daemon sends and remembers, unless it ends an upload. -/
theorem sends_handleDaemonEvent (hanswers : scope.answers) (hplain : scope.origins .plain)
    (message : ServerMessage)
    (hcomplete : ∀ request path length, message = .uploadComplete request path length →
      self.pendingUploads[request]? = none)
    (hfailed : ∀ request text, message = .error (some request) text →
      self.pendingUploads[request]? = none ∨ self.pendingPluginCatalogs[request]? ≠ none) :
    self.Sends scope (handleDaemonEvent world self message) := by
  have hwritten : ∀ after : App, after.outbox = self.outbox →
      (∀ request ∈ after.pendingPluginCatalogs, request ∈ self.pendingPluginCatalogs) →
      after.restorePending = self.restorePending ∧ after.nextRequest = self.nextRequest ∧
        after.pendingUploads = self.pendingUploads ∧ after.uploadBatches = self.uploadBatches ∧
        after.nextUploadBatch = self.nextUploadBatch → self.Sends scope after := by
    intro after houtbox hcatalogs hkept
    have hquiet : { self with outbox := self.outbox }.Quiet scope
        { after with
          contextMenu := self.contextMenu
          closeConfirmation := self.closeConfirmation
          textPrompt := self.textPrompt
          commandPalette := self.commandPalette
          targetManager := self.targetManager
          pairingApproval := self.pairingApproval
          pairing := self.pairing
          agentNavigator := self.agentNavigator
          attentionCenter := self.attentionCenter } :=
      .of_answer _ hanswers houtbox rfl hcatalogs hkept
    exact hquiet.sends
  have hnoted : ∀ attention, self.Sends scope { self with attention := attention } :=
    fun _ => .of_acts rfl (.refl _)
  rw [handleDaemonEvent.eq_def]
  split
  case h_1 => exact (quiet_paneFrame world self hanswers _ _ _ _ _ _).sends
  case h_4 => exact (quiet_operationResult world self hanswers _ _).sends
  case h_5 =>
    rw [pluginActions]
    split
    · exact .refl self
    · dsimp only
      split_ifs
      all_goals
        exact hwritten _ rfl (fun _ => mem_catalogs_erase) ⟨rfl, rfl, rfl, rfl, rfl⟩
  case h_6 => exact (quiet_downloadOffer world self hanswers hplain _ _ _ _).sends
  case h_7 => exact (quiet_downloadChunk world self hanswers hplain _ _).sends
  case h_8 => exact (quiet_downloadFinished self hanswers _).sends
  case h_9 request path length =>
    rw [uploadComplete, hcomplete request path length rfl]
    exact .refl self
  case h_12 =>
    split
    · exact .of_acts rfl (.refl _)
    · exact .refl self
  case h_13 request text =>
    exact (quiet_requestFailed world self hanswers request text (hfailed request text rfl)).sends
  case h_14 =>
    split
    · exact hnoted _
    · exact .refl self
  all_goals exact hwritten _ rfl (fun _ => id) ⟨rfl, rfl, rfl, rfl, rfl⟩

/-! ### Uploads that end -/

/-- How an upload ends. -/
inductive Ending
  | complete (path : String)
  | failed (message : String)
deriving DecidableEq

/-- The upload a move ends, if it is one. -/
def Move.ending : Move → Option (ℕ × Ending)
  | .daemon (.uploadComplete request path _) => some (request, .complete path)
  | .daemon (.error (some request) message) => some (request, .failed message)
  | .uploadFailed request message => some (request, .failed message)
  | _ => none

def endUpload (request : ℕ) : Ending → App
  | .complete path => uploadComplete world self request path
  | .failed message => (failUpload world self request message).1

theorem dialogs_pasteVerifiedPaths (destination : PaneId) (paths : List String) :
    (pasteVerifiedPaths world self destination paths).dialogs = self.dialogs := by
  rw [pasteVerifiedPaths]
  repeat' split
  all_goals first
    | rfl
    | (dsimp only; split <;> rfl)

theorem dialogs_settleUploadBatch (batch : ℕ) :
    (settleUploadBatch world self batch).dialogs = self.dialogs := by
  rw [settleUploadBatch]
  split
  · rfl
  · split
    · rfl
    · dsimp only
      split
      · rfl
      · rw [dialogs_pasteVerifiedPaths]
        rfl

theorem dialogs_modifyBatch (batch : ℕ) (change : UploadBatch → UploadBatch) :
    (self.modifyBatch batch change).dialogs = self.dialogs := by
  rw [modifyBatch]
  split <;> rfl

theorem dialogs_failUpload (request : ℕ) (message : String) :
    (failUpload world self request message).1.dialogs = self.dialogs := by
  rw [failUpload]
  split
  · rfl
  · dsimp only
    split
    · rfl
    · rw [dialogs_settleUploadBatch, dialogs_modifyBatch]
      rfl

theorem dialogs_uploadComplete (request : ℕ) (path : String) :
    (uploadComplete world self request path).dialogs = self.dialogs := by
  rw [uploadComplete]
  split
  · rfl
  · dsimp only
    split
    · rw [dialogs_settleUploadBatch, dialogs_modifyBatch]
      rfl
    · rw [dialogs_pasteVerifiedPaths]
      rfl

/-- An upload that is pending, and was no catalogue's request, ends the same way from wherever the
news came. -/
theorem handle_of_ending {move : Move} {request : ℕ} {ending : Ending}
    (hending : move.ending = some (request, ending)) (hpending : request ∈ self.pendingUploads)
    (hcatalog : request ∉ self.pendingPluginCatalogs) :
    handle world self move = endUpload world self request ending := by
  have hnone : self.pendingPluginCatalogs[request]? = none :=
    ExtTreeMap.getElem?_eq_none hcatalog
  have hfailed : ∀ message, requestFailed world self request message =
      (failUpload world self request message).1 := by
    intro message
    obtain ⟨pending, hsome⟩ := Option.isSome_iff_exists.mp
      (ExtTreeMap.mem_iff_isSome_getElem?.mp hpending)
    have htrue : (failUpload world self request message).2 = true := by
      rw [failUpload, hsome]
      dsimp only
      split <;> rfl
    rw [requestFailed, hnone]
    revert htrue
    rcases failUpload world self request message with ⟨after, _ | _⟩
    · exact fun hfalse => absurd hfalse (by simp)
    · exact fun _ => rfl
  rw [Move.ending.eq_def] at hending
  split at hending
  · cases hending
    rfl
  · cases hending
    exact hfailed _
  · cases hending
    rfl
  · cases hending

/-- What a move sends and remembers that neither is the daemon's nor ends an upload. -/
theorem sends_handle_own (h : scope.Handles) (hautoscroll : scope.origins .autoscroll) (move : Move)
    (hinput : ∀ input, move = .input input → InputAllowed world self scope input)
    (hdaemon : ∀ message, move ≠ .daemon message)
    (hending : ∀ request ending, move.ending = some (request, ending) →
      self.pendingUploads[request]? = none) :
    self.Sends scope (handle world self move) := by
  cases move with
  | input input => exact sends_handleDecodedInput world self input (hinput input rfl)
  | daemon message => exact absurd rfl (hdaemon message)
  | uploadFailed request message =>
    rw [handle, failUpload, hending request _ rfl]
    exact .refl self
  | activated pane => exact (quiet_jumpFromNotification world self h pane).sends
  | published => exact (quiet_ensurePluginCatalogs world self h.plain).sends
  | draw => exact (quiet_draw world self h).sends
  | autoscroll => exact (quiet_tickSelectionAutoscroll self hautoscroll).sends
  | tick => exact .of_acts rfl (.refl _)
  | configuration => exact .of_acts rfl (.refl _)

/-- What a move sends and remembers, unless it ends an upload. -/
theorem sends_handle (h : scope.Handles) (hanswers : scope.answers)
    (hautoscroll : scope.origins .autoscroll) (move : Move)
    (hinput : ∀ input, move = .input input → InputAllowed world self scope input)
    (hending : ∀ request ending, move.ending = some (request, ending) →
      self.pendingUploads[request]? = none) :
    self.Sends scope (handle world self move) := by
  by_cases hdaemon : ∃ message, move = .daemon message
  · obtain ⟨message, rfl⟩ := hdaemon
    refine sends_handleDaemonEvent world self hanswers h.plain message ?_ ?_
    · rintro request path length rfl
      exact hending request _ rfl
    · rintro request text rfl
      exact .inl (hending request _ rfl)
  · exact sends_handle_own world self h hautoscroll move hinput
      (fun message hmove => hdaemon ⟨message, hmove⟩) hending

/-! ### Worlds to run in -/

/-- A world with no target, no file, nothing to paste and nothing under the pointer. -/
def blank : World where
  state := .default
  now := 0
  frameArea := ⟨80, 24⟩
  emulator := ⟨fun _ => false, fun _ => .none, fun _ => .default⟩
  viewportShift := fun _ _ _ => none
  clipboardText := none
  clipboardMedia := none
  clipboardFiles := []
  droppedFiles := fun _ => []
  droppedPath := id
  localFile := fun _ => none
  digest := fun _ => ""
  contextActions := fun _ _ => none
  paletteActions := fun _ _ => []
  agentJumpEntries := fun _ => []
  navigate := fun _ _ => none
  region := fun _ _ => .elsewhere
  sidebarHit := fun _ _ => none
  tabAtColumn := fun _ _ => none
  mousePanePosition := fun _ _ => none
  clampedPanePosition := fun _ _ _ => none
  autoscrollDirection := fun _ _ _ => none
  contextMenuActionAt := fun _ _ => none
  targetManagerControl := fun _ _ => none
  visiblePanes := fun _ => []
  formSaved := none
  targetRemoved := fun _ => none
  saveOpens := fun _ => false
  saveWrites := false

/-- A session that is live, with some panes of which one may be focused. -/
def liveTarget (key : TargetSession) (generation : ℕ) (focused : Option PaneId)
    (panes : List PaneId) : TargetRuntimeState where
  key := key
  endpoint := ""
  connection := .live
  updateMode := .events
  eventError := none
  connectionGeneration := generation
  selectedHerdrBin := none
  roots := []
  snapshot := some
    { serverVersion := none
      protocol := none
      revision := none
      capabilities := ∅
      counts := ⟨0, 0, panes.length, 0⟩
      focusedWorkspace := none
      focusedTab := none
      focusedPane := focused
      workspaces := ∅
      tabs := ∅
      panes := ExtTreeMap.ofList (panes.map fun pane =>
        (pane, PaneState.mk pane none none none none false none none none))
      layouts := ∅
      agents := ∅
      terminals := ∅ }
  lastError := none
  lastSuccess := none
  retryAt := none

/-- A world with some targets, where the selected pane fills the screen. -/
def hosting (targets : List TargetRuntimeState) : World :=
  { blank with
    state := ⟨0, ExtTreeMap.ofList (targets.map fun target => (target.key, target))⟩
    visiblePanes := fun self => self.selectedPane.toList.map fun pane => (pane, ⟨80, 24⟩) }

end App

end Tui

end SuperHerdr
