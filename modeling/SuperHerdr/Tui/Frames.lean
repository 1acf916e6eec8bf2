import SuperHerdr.Tui.Frontend

/-!
# What a step can do

Whatever the frontend does, it opens and closes overlays, it sends, and it changes what it
remembers. `Acts` lists the changes of what it remembers, each with what is sent of it; `Sends`
says that a state led to another by such changes, within a `Scope`; `Quiet` adds that no overlay
was touched, and `Opens` that at most one more of the seven overlays that a person opens is open,
and the daemon's two are as they were.
-/

namespace SuperHerdr

namespace Tui

open Std

/-! ### What an origin promises -/

/-- Whether a message gives something to a pane. -/
def reachesPane : ClientMessage → Bool
  | .paneInput .. | .paneScroll .. | .pastePaneText .. | .beginUpload .. => true
  | _ => false

/-- What is sent is what its origin says: nothing plain reaches a pane, and the prefix key goes
alone. -/
def Effect.Honest : Effect → Prop
  | .send .plain message => reachesPane message = false
  | .send .literal message => ∃ pane, message = .paneInput pane [PREFIX_KEY]
  | .send (.verified _) message => ∃ pane payload, message = .paneInput pane payload
  | _ => True

/-- What a step may do: the origins of what it sends, whether it may drop a route without telling
the daemon, move the selection, ask for a file while another is asked for, and act on what the
daemon said. -/
structure Scope where
  origins : Origin → Prop
  drops : Prop
  navigates : Prop
  displaces : Prop
  answers : Prop

/-- A scope that allows less. -/
structure Scope.Le (scope more : Scope) : Prop where
  origins : ∀ origin, scope.origins origin → more.origins origin
  drops : scope.drops → more.drops
  navigates : scope.navigates → more.navigates
  displaces : scope.displaces → more.displaces
  answers : scope.answers → more.answers

/-- An honest effect, sent for one of some reasons if it is sent. -/
def Effect.Within (scope : Scope) (effect : Effect) : Prop :=
  effect.Honest ∧ ∀ origin message, effect = .send origin message → scope.origins origin

theorem Effect.within_send {scope : Scope} {origin : Origin} {message : ClientMessage}
    (horigin : scope.origins origin) (hhonest : (Effect.send origin message).Honest) :
    (Effect.send origin message).Within scope := by
  refine ⟨hhonest, ?_⟩
  rintro _ _ heq
  injection heq with heq
  exact heq ▸ horigin

theorem Effect.within_of_not_send {scope : Scope} {effect : Effect}
    (hsend : ∀ origin message, effect ≠ .send origin message) (hhonest : effect.Honest) :
    effect.Within scope :=
  ⟨hhonest, fun origin message heq => absurd heq (hsend origin message)⟩

/-! ### What is remembered and told -/

/-- What an effect says of operations, subscriptions, uploads and files that are saved. -/
inductive News
  | ran (request : ℕ)
  | subscribed (pane : PaneId)
  | unsubscribed (pane : PaneId)
  /-- An upload was offered to a pane. -/
  | begun (request : ℕ) (pane : PaneId)
  | started (batch : ℕ) (requests : List (ℕ × String))
  | settled (batch : ℕ) (state : UploadBatch)
  /-- A file was asked for. -/
  | asked (request : ℕ)
  | cancelled (request : ℕ)
deriving DecidableEq

def Effect.news : Effect → Option News
  | .send _ (.runOperation request _) => some (.ran request)
  | .send _ (.subscribePane pane _ _ _ _) => some (.subscribed pane)
  | .send _ (.unsubscribePane pane) => some (.unsubscribed pane)
  | .send _ (.beginUpload request pane _ _ _) => some (.begun request pane)
  | .send _ (.beginDownload request _ _) => some (.asked request)
  | .send _ (.cancelDownload request) => some (.cancelled request)
  | .started batch requests => some (.started batch requests)
  | .settled batch state => some (.settled batch state)
  | _ => none

/-- What the frontend remembers, its overlays and what it draws apart. -/
structure Memory where
  selectedPane : Option PaneId
  followedFocus : Option FollowedFocus
  restorePending : Option PaneId
  routes : ExtTreeMap PaneId ActiveRoute
  nextRequest : ℕ
  operations : ExtTreeMap ℕ PendingOperation
  inflight : Bool
  catalogs : ExtTreeMap ℕ PendingPluginCatalog
  saveRequest : Option ℕ
  save : Option FileSave
  uploads : ExtTreeMap ℕ PendingUpload
  batches : ExtTreeMap ℕ UploadBatch
  nextBatch : ℕ

def App.memory (self : App) : Memory where
  selectedPane := self.selectedPane
  followedFocus := self.followedFocus
  restorePending := self.restorePending
  routes := self.routes
  nextRequest := self.nextRequest
  operations := self.pendingOperations
  inflight := self.herdrActionInflight
  catalogs := self.pendingPluginCatalogs
  saveRequest := self.fileSaveRequest
  save := self.fileSave
  uploads := self.pendingUploads
  batches := self.uploadBatches
  nextBatch := self.nextUploadBatch

/-- The files of a batch that is offered to a pane. -/
structure BatchOffer where
  pane : PaneId
  first : ℕ
  names : List String

/-- The requests of a batch, numbered from its first. -/
def BatchOffer.requests (offer : BatchOffer) : List (ℕ × String) :=
  offer.names.mapIdx fun position name => (offer.first + position, name)

/-- The uploads after a batch was offered. -/
structure BatchOffer.Taken (offer : BatchOffer) (batch : ℕ)
    (before after : ExtTreeMap ℕ PendingUpload) : Prop where
  names : offer.names ≠ []
  uploads : ∀ request : ℕ, after[request]? =
    if offer.first ≤ request ∧ request < offer.first + offer.names.length then
      offer.names[request - offer.first]?.map fun name =>
        ⟨name, some ⟨batch, request - offer.first⟩, offer.pane⟩
    else before[request]?

/-- What becomes of what is remembered, and what is told of it, where no upload ends. -/
inductive Acts (scope : Scope) : Memory → List News → Memory → Prop
  /-- Requests are taken, perhaps for catalogues. -/
  | nothing {before : Memory} (nextRequest : ℕ) (catalogs : ExtTreeMap ℕ PendingPluginCatalog)
      (hrequest : before.nextRequest ≤ nextRequest)
      (hcatalogs : ∀ request, request ∈ catalogs → request ∈ before.catalogs ∨
        before.nextRequest ≤ request ∧ request < nextRequest) :
      Acts scope before [] { before with nextRequest, catalogs }
  /-- The selection is moved. -/
  | adopt {before : Memory} (hscope : scope.navigates) (selectedPane restorePending : Option PaneId)
      (followedFocus : Option FollowedFocus)
      (hrestore : selectedPane.isSome → restorePending = none)
      (hfollowed : followedFocus = none ∨ followedFocus = before.followedFocus) :
      Acts scope before [] { before with selectedPane, restorePending, followedFocus }
  /-- Routes are dropped, and the daemon is not told. -/
  | forget {before : Memory} (hscope : scope.drops) (routes : ExtTreeMap PaneId ActiveRoute)
      (hroutes : ∀ (pane : PaneId) (route : ActiveRoute), routes[pane]? = some route →
        before.routes[pane]? = some route) :
      Acts scope before [] { before with routes }
  | subscribe {before : Memory} (pane : PaneId) (route : ActiveRoute)
      (hfresh : pane ∉ before.routes) (haccess : route.access = .observe) :
      Acts scope before [.subscribed pane]
        { before with routes := before.routes.insert pane route }
  | release {before : Memory} (routes : ExtTreeMap PaneId ActiveRoute) (panes : List PaneId)
      (hroutes : ∀ (pane : PaneId) (route : ActiveRoute), routes[pane]? = some route →
        before.routes[pane]? = some route)
      (hpanes : ∀ pane, pane ∈ panes ↔ pane ∈ before.routes ∧ pane ∉ routes) :
      Acts scope before (panes.map .unsubscribed) { before with routes }
  | run {before : Memory} (pending : PendingOperation) (hidle : before.inflight = false) :
      Acts scope before [.ran before.nextRequest]
        { before with
          nextRequest := before.nextRequest + 1
          inflight := true
          operations := before.operations.insert before.nextRequest pending }
  /-- An atomic paste waits for its result among the operations. -/
  | paste {before : Memory} (session : TargetSession) :
      Acts scope before []
        { before with
          nextRequest := before.nextRequest + 1
          operations := before.operations.insert before.nextRequest ⟨false, session⟩ }
  | save {before : Memory} (hidle : before.save = none)
      (hscope : before.saveRequest ≠ none → scope.displaces) :
      Acts scope before [.asked before.nextRequest]
        { before with
          nextRequest := before.nextRequest + 1, saveRequest := some before.nextRequest }
  | cancel {before : Memory} (request : ℕ) (hrequest : before.saveRequest = some request) :
      Acts scope before [.cancelled request] { before with saveRequest := none, save := none }
  | single {before : Memory} (pane : PaneId) (described : String) :
      Acts scope before [.begun before.nextRequest pane]
        { before with
          nextRequest := before.nextRequest + 1
          uploads := before.uploads.insert before.nextRequest ⟨described, none, pane⟩ }
  | batch {before : Memory} (offer : BatchOffer) (uploads : ExtTreeMap ℕ PendingUpload)
      (hfirst : offer.first = before.nextRequest)
      (htaken : offer.Taken before.nextBatch before.uploads uploads) :
      Acts scope before ((offer.requests.map fun request => .begun request.1 offer.pane) ++
          [.started before.nextBatch offer.requests])
        { before with
          nextRequest := before.nextRequest + offer.names.length
          uploads
          batches := before.batches.insert before.nextBatch
            ⟨offer.names.length, ∅, [], offer.pane⟩
          nextBatch := before.nextBatch + 1 }
  /-- What the daemon said is written down. -/
  | answer {before : Memory} (hscope : scope.answers) (selectedPane : Option PaneId)
      (followedFocus : Option FollowedFocus) (routes : ExtTreeMap PaneId ActiveRoute)
      (operations : ExtTreeMap ℕ PendingOperation) (inflight : Bool)
      (catalogs : ExtTreeMap ℕ PendingPluginCatalog) (saveRequest : Option ℕ)
      (save : Option FileSave) (hcatalogs : ∀ request ∈ catalogs, request ∈ before.catalogs) :
      Acts scope before []
        { before with
          selectedPane, followedFocus, routes, operations, inflight, catalogs, saveRequest, save }
  /-- A file that is offered or sent is refused. -/
  | refuse {before : Memory} (hscope : scope.answers) (request : ℕ) (save : Option FileSave) :
      Acts scope before [.cancelled request] { before with saveRequest := none, save }
  | trans {before between after : Memory} {news more : List News}
      (h : Acts scope before news between) (hmore : Acts scope between more after) :
      Acts scope before (news ++ more) after

theorem Acts.refl {scope : Scope} (memory : Memory) : Acts scope memory [] memory :=
  .nothing memory.nextRequest memory.catalogs le_rfl fun _ => Or.inl

/-! ### The overlays -/

structure Dialogs where
  contextMenu : Option ContextMenu
  closeConfirmation : Option CloseConfirmation
  textPrompt : Option TextPrompt
  commandPalette : Option CommandPalette
  targetManager : Option TargetManager
  pairingApproval : Option PairingApproval
  pairing : Option PairingOffer
  agentNavigator : Option AgentNavigator
  attentionCenter : Option AttentionCenter

namespace App

def dialogs (self : App) : Dialogs :=
  ⟨self.contextMenu, self.closeConfirmation, self.textPrompt, self.commandPalette,
    self.targetManager, self.pairingApproval, self.pairing, self.agentNavigator,
    self.attentionCenter⟩

/-- How many of the overlays that a person opens are open. -/
def opened (self : App) : ℕ :=
  self.contextMenu.isSome.toNat + self.closeConfirmation.isSome.toNat +
    self.textPrompt.isSome.toNat + self.commandPalette.isSome.toNat +
    self.targetManager.isSome.toNat + self.agentNavigator.isSome.toNat +
    self.attentionCenter.isSome.toNat

/-! ### Frames -/

/-- From one state to another the frontend sent something and remembered it, within a scope. -/
def Sends (scope : Scope) (self after : App) : Prop :=
  ∃ effects, after.outbox = self.outbox ++ effects ∧ (∀ effect ∈ effects, effect.Within scope) ∧
    Acts scope self.memory (effects.filterMap Effect.news) after.memory

/-- No overlay was touched. -/
structure Quiet (scope : Scope) (before after : App) : Prop where
  sends : before.Sends scope after
  dialogs : after.dialogs = before.dialogs

/-- At most one more overlay of a person's is open, and the daemon's are as they were. -/
structure Opens (scope : Scope) (before after : App) : Prop where
  sends : before.Sends scope after
  approval : after.pairingApproval = before.pairingApproval
  pairing : after.pairing = before.pairing
  opened : after.opened ≤ before.opened + 1

variable {scope more : Scope} {self between after : App}

theorem Sends.refl (self : App) : self.Sends scope self :=
  ⟨[], by simp, by simp, .refl _⟩

theorem Sends.trans (h : self.Sends scope between) (hnext : between.Sends scope after) :
    self.Sends scope after := by
  obtain ⟨effects, hsent, hwithin, hacts⟩ := h
  obtain ⟨effects', hsent', hwithin', hacts'⟩ := hnext
  refine ⟨effects ++ effects', by rw [hsent', hsent, List.append_assoc], ?_, ?_⟩
  · intro effect hmem
    exact (List.mem_append.mp hmem).elim (hwithin effect) (hwithin' effect)
  · rw [List.filterMap_append]
    exact hacts.trans hacts'

theorem Sends.of_acts (houtbox : after.outbox = self.outbox)
    (hacts : Acts scope self.memory [] after.memory) : self.Sends scope after :=
  ⟨[], by simp [houtbox], by simp, hacts⟩

theorem Quiet.refl (self : App) : self.Quiet scope self := ⟨.refl self, rfl⟩

theorem Quiet.trans (h : self.Quiet scope between) (hnext : between.Quiet scope after) :
    self.Quiet scope after :=
  ⟨h.sends.trans hnext.sends, hnext.dialogs.trans h.dialogs⟩

theorem Quiet.of_acts (houtbox : after.outbox = self.outbox)
    (hdialogs : after.dialogs = self.dialogs)
    (hacts : Acts scope self.memory [] after.memory) : self.Quiet scope after :=
  ⟨.of_acts houtbox hacts, hdialogs⟩

theorem Quiet.of_eq (houtbox : after.outbox = self.outbox) (hmemory : after.memory = self.memory)
    (hdialogs : after.dialogs = self.dialogs) : self.Quiet scope after :=
  .of_acts houtbox hdialogs (hmemory ▸ .refl _)

theorem Quiet.of_effect {effect : Effect} {news : List News}
    (houtbox : after.outbox = self.outbox ++ [effect]) (hdialogs : after.dialogs = self.dialogs)
    (hwithin : effect.Within scope) (hnews : effect.news.toList = news)
    (hacts : Acts scope self.memory news after.memory) : self.Quiet scope after := by
  have hlist : [effect].filterMap Effect.news = news := by
    rw [← hnews]
    cases heq : effect.news <;> simp [heq]
  exact ⟨⟨[effect], houtbox, by simpa using hwithin, hlist ▸ hacts⟩, hdialogs⟩

theorem quiet_perform (self : App) {effect : Effect} (hwithin : effect.Within scope)
    (hnews : effect.news = none) : self.Quiet scope (self.perform effect) :=
  .of_effect rfl rfl hwithin (by simp [hnews]) (.refl self.memory)

theorem quiet_foldl {α : Type} {f : App → α → App} (hf : ∀ self a, Quiet scope self (f self a))
    (self : App) (entries : List α) : self.Quiet scope (entries.foldl f self) := by
  induction entries generalizing self with
  | nil => exact .refl self
  | cons entry entries ih => exact (hf self entry).trans (ih _)

theorem opened_congr (h : after.dialogs = self.dialogs) : after.opened = self.opened := by
  have hfields := h
  simp only [App.dialogs, Dialogs.mk.injEq] at hfields
  simp only [App.opened, hfields]

theorem Quiet.approval (h : self.Quiet scope after) :
    after.pairingApproval = self.pairingApproval :=
  congrArg Dialogs.pairingApproval h.dialogs

theorem Quiet.pairing (h : self.Quiet scope after) : after.pairing = self.pairing :=
  congrArg Dialogs.pairing h.dialogs

theorem Quiet.opens (h : self.Quiet scope after) : self.Opens scope after where
  sends := h.sends
  approval := h.approval
  pairing := h.pairing
  opened := by rw [opened_congr h.dialogs]; omega

theorem Quiet.then_opens (h : self.Quiet scope between) (hnext : between.Opens scope after) :
    self.Opens scope after where
  sends := h.sends.trans hnext.sends
  approval := hnext.approval.trans h.approval
  pairing := hnext.pairing.trans h.pairing
  opened := by
    have hopened := hnext.opened
    rwa [opened_congr h.dialogs] at hopened

end App

end Tui

end SuperHerdr
