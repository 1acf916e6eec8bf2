import SuperHerdr.Tui.Handlers

/-!
# What an event does

A key goes to the overlay that is given it, or to the frontend itself, or to a pane. The mouse and
a paste have their own lists of what keeps them from a pane. `keyTaken`, `aimed` and `pasted` say
where each of the three goes, read in the state before.
-/

namespace SuperHerdr

namespace Tui

open Std

namespace App

variable {scope : Scope} (world : World) (self : App)

/-! ### Keys -/

/-- Whether a key stays with the frontend. -/
def keyTaken (key : UInt8) : Prop :=
  self.hasModalOverlay ∨ self.mode ≠ .terminal ∨ key = PREFIX_KEY ∨ key = HERDR_PREFIX_KEY

/-- Whether a key finds a route stale, and drops it without telling the daemon. -/
def keyDrops (key : UInt8) : Prop :=
  match self.inputOverlay, self.mode with
  | some .textPrompt, _ => (key = 0x0d ∨ key = 0x0a) ∧
      ∃ prompt, self.textPrompt = some prompt ∧ promptDrops world self prompt
  | some _, _ => False
  | none, .terminal => ¬(key = PREFIX_KEY ∨ key = HERDR_PREFIX_KEY) ∧ forwardDrops world self
  | none, .prefixed => (key = 0x6a ∨ key = 0x6b) ∧ cycleDrops world self ∨
      key = 0x76 ∧ clipboardDrops world self ∨ key = 0x69 ∧ controlDrops world self
  | none, .herdrPrefixed => False

/-- Whether the selected pane has control, so that the prefix key can be doubled. -/
def Doubles : Prop :=
  ∃ selected route, self.selectedPane = some selected ∧ self.routes[selected]? = some route ∧
    route.access = .control

/-- Whether a key doubles the prefix key. -/
def keyDoubles (key : UInt8) : Prop :=
  self.inputOverlay = none ∧ self.mode = .prefixed ∧ key = PREFIX_KEY ∧ Doubles self

/-- Whether a key asks for a file while another is asked for. -/
def keyDisplaces (key : UInt8) : Prop :=
  self.inputOverlay = some .textPrompt ∧ (key = 0x0d ∨ key = 0x0a) ∧
    ∃ prompt, self.textPrompt = some prompt ∧ promptDisplaces self prompt

theorem hasModalOverlay_eq : self.hasModalOverlay = self.inputOverlay.isSome := by
  simp only [hasModalOverlay, inputOverlay]
  split_ifs <;> simp_all

theorem quiet_handleHerdrPrefix (h : scope.Handles) (key : UInt8) :
    self.Quiet scope (handleHerdrPrefix world self key) := by
  simp only [handleHerdrPrefix]
  split_ifs
  · exact quiet_go world self h _
  · exact quiet_go world self h _
  · exact quiet_go world self h _
  · exact quiet_go world self h _
  · split
    · exact .refl self
    · exact quiet_runOperation self h _ _
  · exact quiet_runSelectedPaneOperation self h _ _
  · exact quiet_runSelectedPaneOperation self h _ _
  · exact quiet_runSelectedPaneOperation self h _ _
  · exact .refl self

theorem quiet_sendLiteralPrefix (hliteral : Doubles self → scope.origins .literal) :
    self.Quiet scope self.sendLiteralPrefix := by
  rw [sendLiteralPrefix]
  split
  · exact .refl self
  · next pane hselected =>
    split
    · exact .refl self
    · next route hroute =>
      split
      · next hcontrol =>
        have hsent : scope.origins .literal := hliteral ⟨pane, route, hselected, hroute, hcontrol⟩
        exact quiet_perform self (Effect.within_send hsent ⟨pane, rfl⟩) rfl
      · exact .refl self

theorem Opens.ite {condition : Prop} [Decidable condition] {yes no : App}
    (hyes : condition → self.Opens scope yes) (hno : ¬condition → self.Opens scope no) :
    self.Opens scope (if condition then yes else no) := by
  split
  · next h => exact hyes h
  · next h => exact hno h

theorem opens_handlePrefix (h : scope.Handles) (key : UInt8)
    (hcycle : key = 0x6a ∨ key = 0x6b → cycleDrops world self → scope.drops)
    (hclipboard : key = 0x76 → clipboardDrops world self → scope.drops)
    (hmedia : key = 0x69 → controlDrops world self → scope.drops)
    (hliteral : key = PREFIX_KEY → Doubles self → scope.origins .literal) :
    self.Opens scope (handlePrefix world self key) := by
  have hpalette : ∀ palette, self.Opens scope
      { ensurePluginCatalogs world self with commandPalette := palette } := fun _ =>
    (quiet_ensurePluginCatalogs world self h.plain).then_opens (opens_commandPalette _ _ _)
  have hcode : self.Quiet scope ({ self with nextRequest := self.nextRequest + 1 }.send
      (.requestPairingCode self.nextRequest)) := by
    refine Quiet.trans ?_ (quiet_send _ h.plain rfl rfl)
    exact .of_acts rfl rfl (.nothing (self.nextRequest + 1) _ (Nat.le_succ _) fun _ => Or.inl)
  rw [handlePrefix]
  refine .ite self (fun hkey => (quiet_cyclePane world self h (hcycle (.inl hkey)) _).opens)
    fun _ => ?_
  refine .ite self (fun hkey => (quiet_cyclePane world self h (hcycle (.inr hkey)) _).opens)
    fun _ => ?_
  refine .ite self (fun _ => (quiet_go world self h _).opens) fun _ => ?_
  refine .ite self (fun _ => (quiet_go world self h _).opens) fun _ => ?_
  refine .ite self (fun hkey => (quiet_pasteSystemClipboard world self h (hclipboard hkey)).opens)
    fun _ => ?_
  refine .ite self (fun hkey => (quiet_pasteClipboardMedia world self h (hmedia hkey)).opens)
    fun _ => ?_
  refine .ite self (fun _ => opens_openSendFilePrompt self) fun _ => ?_
  refine .ite self (fun _ => opens_targetManager self self.targetManager _) fun _ => ?_
  refine .ite self (fun _ => opens_agentNavigator self self.agentNavigator _) fun _ => ?_
  refine .ite self (fun _ => opens_attentionCenter self self.attentionCenter _) fun _ => ?_
  refine .ite self (fun _ => hcode.opens) fun _ => ?_
  refine .ite self (fun _ => opens_requestWorkspaceClose world self) fun _ => ?_
  refine .ite self (fun _ => hpalette _) fun _ => ?_
  refine .ite self (fun _ => (quiet_go world self h _).opens) fun _ => ?_
  exact .ite self (fun hkey => (quiet_sendLiteralPrefix self (hliteral hkey)).opens)
    fun _ => (Quiet.refl self).opens

theorem Opens.with_mode {after : App} (h : self.Opens scope after) (mode : InputMode) :
    self.Opens scope { after with mode } :=
  ⟨h.sends.trans (.of_acts rfl (.refl _)), h.approval, h.pairing, h.opened⟩

theorem opens_handleKey (key : UInt8) (htaken : self.mode ≠ .terminal → scope.Handles)
    (htyped : self.mode = .terminal → ¬(key = PREFIX_KEY ∨ key = HERDR_PREFIX_KEY) →
      Typeable world self → scope.origins .typed)
    (hdrops : self.inputOverlay = none → keyDrops world self key → scope.drops)
    (hdoubles : keyDoubles self key → scope.origins .literal)
    (hnone : self.inputOverlay = none) : self.Opens scope (handleKey world self key) := by
  have hdrops := hdrops hnone
  simp only [keyDrops, hnone] at hdrops
  rw [handleKey]
  split
  · next hmode =>
    simp only [hmode] at hdrops
    split_ifs with howned hherdr
    · exact Opens.with_mode self (quiet_clearSelection self).opens _
    · exact Opens.with_mode self (quiet_clearSelection self).opens _
    · have hkey : ¬(key = PREFIX_KEY ∨ key = HERDR_PREFIX_KEY) := by simp [howned, hherdr]
      exact (quiet_forwardPaneBytes world self (htyped hmode hkey)
        (fun hstale => hdrops ⟨hkey, hstale⟩) [key]).opens
  · next hmode =>
    have hhandles : scope.Handles := htaken (by simp [hmode])
    simp only [hmode] at hdrops
    split
    · exact ⟨.of_acts rfl (.refl _), rfl, rfl, Nat.le_succ _⟩
    · exact Opens.with_mode self (opens_handlePrefix world self hhandles key
        (fun hkey hstale => hdrops (.inl ⟨hkey, hstale⟩))
        (fun hkey hstale => hdrops (.inr (.inl ⟨hkey, hstale⟩)))
        (fun hkey hstale => hdrops (.inr (.inr ⟨hkey, hstale⟩)))
        fun hkey hcontrol => hdoubles ⟨hnone, hmode, hkey, hcontrol⟩) _
  · next hmode =>
    exact Opens.with_mode self
      (quiet_handleHerdrPrefix world self (htaken (by simp [hmode])) key).opens _

/-! ### Whose key it is -/

/-- The overlays a key can go to, each with what it finds there. -/
theorem handleInput_elim {P : App → Prop} (key : UInt8)
    (menu : ∀ menu, self.inputOverlay = some .contextMenu → self.contextMenu = some menu →
      P (handleContextMenuInput world self menu key))
    (confirmation : ∀ confirmation, self.inputOverlay = some .closeConfirmation →
      self.closeConfirmation = some confirmation →
      P (self.handleCloseConfirmationInput confirmation key))
    (prompt : ∀ prompt, self.inputOverlay = some .textPrompt → self.textPrompt = some prompt →
      P (handleTextPromptInput world self prompt key))
    (palette : ∀ palette, self.inputOverlay = some .commandPalette →
      self.commandPalette = some palette → P (handleCommandPaletteInput world self palette key))
    (manager : ∀ manager, self.inputOverlay = some .targetManager →
      self.targetManager = some manager → P (handleTargetManagerInput world self manager key))
    (approval : ∀ approval, self.inputOverlay = some .pairingApproval →
      self.pairingApproval = some approval → P (self.handlePairingApprovalInput approval key))
    (pairing : self.inputOverlay = some .pairing → P { self with pairing := none })
    (navigator : ∀ navigator, self.inputOverlay = some .agentNavigator →
      self.agentNavigator = some navigator → P (handleAgentNavigatorInput world self navigator key))
    (center : ∀ center, self.inputOverlay = some .attentionCenter →
      self.attentionCenter = some center → P (handleAttentionCenterInput world self center key))
    (typed : self.inputOverlay = none → P (handleKey world self key)) :
    P (handleInput world self key) := by
  rw [handleInput]
  split
  · next value h1 => exact menu value (by simp [inputOverlay, h1]) h1
  next h1 =>
  split
  · next value h2 => exact confirmation value (by simp [inputOverlay, h1, h2]) h2
  next h2 =>
  split
  · next value h3 => exact prompt value (by simp [inputOverlay, h1, h2, h3]) h3
  next h3 =>
  split
  · next value h4 => exact palette value (by simp [inputOverlay, h1, h2, h3, h4]) h4
  next h4 =>
  split
  · next value h5 => exact manager value (by simp [inputOverlay, h1, h2, h3, h4, h5]) h5
  next h5 =>
  split
  · next value h6 => exact approval value (by simp [inputOverlay, h1, h2, h3, h4, h5, h6]) h6
  next h6 =>
  split
  · next h7 => exact pairing (by simp [inputOverlay, h1, h2, h3, h4, h5, h6, h7])
  next h7 =>
  split
  · next value h8 => exact navigator value (by simp [inputOverlay, h1, h2, h3, h4, h5, h6, h7, h8]) h8
  next h8 =>
  split
  · next value h9 =>
    exact center value (by simp [inputOverlay, h1, h2, h3, h4, h5, h6, h7, h8, h9]) h9
  · next h9 => exact typed (by simp [inputOverlay, h1, h2, h3, h4, h5, h6, h7, h8, h9])

theorem sends_handleInput (key : UInt8) (htaken : keyTaken self key → scope.Handles)
    (htyped : ¬keyTaken self key → Typeable world self → scope.origins .typed)
    (hdrops : keyDrops world self key → scope.drops)
    (hdisplaces : keyDisplaces self key → scope.displaces)
    (hdoubles : keyDoubles self key → scope.origins .literal) :
    self.Sends scope (handleInput world self key) := by
  have hmodal : ∀ overlay, self.inputOverlay = some overlay → scope.Handles := by
    intro overlay hoverlay
    exact htaken (.inl (by rw [hasModalOverlay_eq, hoverlay]; rfl))
  have hclosed : ∀ after : App, after.outbox = self.outbox → after.memory = self.memory →
      self.Sends scope after := by
    intro after houtbox hmemory
    exact .of_acts houtbox (hmemory ▸ .refl _)
  refine handleInput_elim world self key ?_ ?_ ?_ ?_ ?_ ?_ ?_ ?_ ?_ ?_
  · intro menu hoverlay _
    exact (hclosed _ rfl rfl).trans
      (opens_handleContextMenuInput world self (hmodal _ hoverlay) menu key).sends
  · intro confirmation hoverlay _
    exact (hclosed _ rfl rfl).trans
      (opens_handleCloseConfirmationInput self (hmodal _ hoverlay) confirmation key).sends
  · intro prompt hoverlay hprompt
    refine (hclosed _ rfl rfl).trans
      (opens_handleTextPromptInput world self (hmodal _ hoverlay) prompt key ?_ ?_).sends
    · exact fun henter hsave => hdisplaces ⟨hoverlay, henter, prompt, hprompt, hsave⟩
    · intro henter hstale
      refine hdrops ?_
      rw [keyDrops, hoverlay]
      exact ⟨henter, prompt, hprompt, hstale⟩
  · intro palette hoverlay _
    exact (hclosed _ rfl rfl).trans
      (opens_handleCommandPaletteInput world self (hmodal _ hoverlay) palette key).sends
  · intro manager _ _
    exact (hclosed _ rfl rfl).trans (opens_handleTargetManagerInput world self manager key).sends
  · intro approval hoverlay _
    exact sends_handlePairingApprovalInput self (hmodal _ hoverlay).plain approval key
  · intro _
    exact hclosed _ rfl rfl
  · intro navigator hoverlay _
    exact (hclosed _ rfl rfl).trans
      (opens_handleAgentNavigatorInput world self (hmodal _ hoverlay) navigator key).sends
  · intro center hoverlay _
    exact (hclosed _ rfl rfl).trans
      (opens_handleAttentionCenterInput world self (hmodal _ hoverlay) center key).sends
  · intro hnone
    refine (opens_handleKey world self key (fun hmode => htaken (.inr (.inl hmode))) ?_
      (fun _ => hdrops) hdoubles hnone).sends
    intro hmode hkey htypeable
    refine htyped ?_ htypeable
    rw [keyTaken, hasModalOverlay_eq, hnone]
    simp [hmode, hkey]

theorem handleInput_of_no_overlay (key : UInt8) (h : self.inputOverlay = none) :
    handleInput world self key = handleKey world self key := by
  refine handleInput_elim (P := fun after => after = handleKey world self key) world self key
    ?_ ?_ ?_ ?_ ?_ ?_ ?_ ?_ ?_ ?_
  all_goals first
    | (intro _ hsome; simp [hsome] at h)
    | skip
  · intro hsome
    simp [hsome] at h
  · exact fun _ => rfl

theorem handleInput_of_not_taken {key : UInt8} (h : ¬keyTaken self key) :
    handleInput world self key = forwardPaneBytes world self [key] := by
  simp only [keyTaken, not_or, not_not, Bool.not_eq_true] at h
  obtain ⟨hoverlay, hmode, howned, hherdr⟩ := h
  rw [hasModalOverlay_eq, Option.isSome_eq_false_iff, Option.isNone_iff_eq_none] at hoverlay
  rw [handleInput_of_no_overlay world self key hoverlay, handleKey, hmode]
  simp [howned, hherdr]

/-! ### The keys of one event -/

/-- What a scope has to allow for a key. -/
structure KeyAllowed (scope : Scope) (world : World) (before : App) (key : UInt8) : Prop where
  taken : keyTaken before key → scope.Handles
  typed : ¬keyTaken before key → Typeable world before → scope.origins .typed
  drops : keyDrops world before key → scope.drops
  displaces : keyDisplaces before key → scope.displaces
  doubles : keyDoubles before key → scope.origins .literal

theorem KeyAllowed.sends {key : UInt8} (h : KeyAllowed scope world self key) :
    self.Sends scope (handleInput world self key) :=
  sends_handleInput world self key h.taken h.typed h.drops h.displaces h.doubles

/-- A condition on every key of an event, read in the state that key finds. -/
def EachKey (condition : App → UInt8 → Prop) : List UInt8 → App → Prop
  | [], _ => True
  | key :: keys, self => condition self key ∧
      ((handleInput world self key).quitting = true ∨
        EachKey condition keys (handleInput world self key))

theorem EachKey.mono {condition more : App → UInt8 → Prop}
    (hmore : ∀ self key, condition self key → more self key) {keys : List UInt8} {self : App}
    (h : EachKey world condition keys self) : EachKey world more keys self := by
  induction keys generalizing self with
  | nil => trivial
  | cons key keys ih => exact ⟨hmore _ _ h.1, h.2.imp_right ih⟩

variable {condition : App → UInt8 → Prop}

theorem EachKey.of_forall (h : ∀ self key, condition self key) (keys : List UInt8) (self : App) :
    EachKey world condition keys self := by
  induction keys generalizing self with
  | nil => trivial
  | cons key keys ih => exact ⟨h _ _, .inr (ih _)⟩

theorem EachKey.of_invariant {I : App → Prop}
    (hkey : ∀ self key, I self → I (handleInput world self key))
    (h : ∀ self key, I self → condition self key) (keys : List UInt8) {self : App}
    (hself : I self) : EachKey world condition keys self := by
  induction keys generalizing self with
  | nil => trivial
  | cons key keys ih => exact ⟨h self key hself, .inr (ih (hkey self key hself))⟩

theorem handleBytes_rule {P : App → App → Prop} (hrefl : ∀ self, P self self)
    (htrans : ∀ self between after, P self between → P between after → P self after)
    (hkey : ∀ self key, condition self key → P self (handleInput world self key))
    {keys : List UInt8} {self : App} (h : EachKey world condition keys self) :
    P self (handleBytes world keys self) := by
  induction keys generalizing self with
  | nil => exact hrefl self
  | cons key keys ih =>
    rw [handleBytes]
    split
    · exact hkey self key h.1
    · next hquitting =>
      exact htrans _ _ _ (hkey self key h.1) (ih (h.2.resolve_left hquitting))

theorem sends_handleBytes {keys : List UInt8}
    (h : EachKey world (KeyAllowed scope world) keys self) :
    self.Sends scope (handleBytes world keys self) :=
  handleBytes_rule world Sends.refl (fun _ _ _ => Sends.trans)
    (fun self _ hkey => hkey.sends world self) h

/-! ### The mouse -/

/-- What the mouse has for a pane. -/
inductive Aim
  | wheel (pane : PaneId) (mouse : MouseInput)
  | clicks (pane : PaneId) (events : List MouseInput)
deriving DecidableEq

def Aim.pane : Aim → PaneId
  | .wheel pane _ | .clicks pane _ => pane

/-- A click that a selection held back, once it turns out not to be one. -/
def selectionAim (selection : TerminalSelection) (mouse : MouseInput) : Option Aim :=
  match world.clampedPanePosition self mouse selection.pane with
  | none => none
  | some viewport =>
      let position : CellPosition := ⟨viewport.row - selection.viewportOffset, viewport.column⟩
      if mouse.isLeftMotion || selection.dragging || position ≠ selection.anchor then none
      else
        selection.forwardedClick.map fun press =>
          .clicks selection.pane [press, { mouse with
            column := position.column + 1
            row := UInt16.ofNat (min (viewport.row.toNat + 1) 65535) }]

def terminalAim (mouse : MouseInput) : Option Aim :=
  match world.mousePanePosition self mouse with
  | none => none
  | some (pane, _, localMouse) =>
      if mouse.isRightPress ∨ self.selectedPane ≠ some pane then none
      else if mouse.isVerticalWheel then some (.wheel pane localMouse)
      else if mouse.isLeftPress then none
      else some (.clicks pane [localMouse])

def pointed (mouse : MouseInput) : Option Aim :=
  match world.region self mouse with
  | .elsewhere => terminalAim world self mouse
  | _ => none

def surfaceAim (mouse : MouseInput) : Option Aim :=
  if self.lastFrameArea = none ∨ self.swallowLeftGesture then none
  else if mouse.isLeftMotion || mouse.isLeftRelease then
    match self.selection with
    | some selection => selectionAim world self selection mouse
    | none => pointed world self mouse
  else pointed world self mouse

/-- What the mouse has for a pane, where no overlay takes it. -/
def aimed (mouse : MouseInput) : Option Aim :=
  if self.contextMenu.isSome || self.targetManager.isSome || self.mouseBlocked then none
  else surfaceAim world self mouse

/-- Whether a context menu can be opened on a resource. -/
def MenuOpens (target : ContextTarget) : Prop :=
  (world.contextActions
    (ensurePluginCatalog world self.clearSelection target.targetSession) target).isSome

def sidebarMenu (mouse : MouseInput) : Option (App × ContextTarget) :=
  if mouse.scrollDirection.isSome || !mouse.isRightPress then none
  else
    match world.sidebarHit self mouse with
    | some (some pane, some target) => some (self.selectPane pane, target)
    | some (none, some target) => some (self, target)
    | _ => none

def tabMenu (mouse : MouseInput) : Option (App × ContextTarget) :=
  if mouse.isRightPress then
    (world.tabAtColumn self mouse).map fun tab =>
      (if (selectedSnapshotAndPane world.state self.selectedPane).isSome then
        self.go world (.tab tab) else self, .tab tab)
  else none

def terminalMenu (mouse : MouseInput) : Option (App × ContextTarget) :=
  if mouse.isRightPress then
    (world.mousePanePosition self mouse).map fun found =>
      (if self.selectedPane = some found.1 then self else self.selectPane found.1, .pane found.1)
  else none

def regionMenu (mouse : MouseInput) : Option (App × ContextTarget) :=
  match world.region self mouse with
  | .sidebar => sidebarMenu world self mouse
  | .tabs => tabMenu world self mouse
  | .elsewhere => terminalMenu world self mouse

/-- The resource a menu is asked for, and the state it is asked for in. -/
def surfaceMenu (mouse : MouseInput) : Option (App × ContextTarget) :=
  if self.lastFrameArea = none ∨ self.swallowLeftGesture then none
  else if (mouse.isLeftMotion || mouse.isLeftRelease) && self.selection.isSome then none
  else regionMenu world self mouse

/-- A mouse event opens the menu that is asked for, if it can be opened, and nothing else. -/
structure Presses (scope : Scope) (world : World) (menu : Option (App × ContextTarget))
    (before after : App) : Prop where
  opens : before.Opens scope after
  quiet : (∀ asked target, menu = some (asked, target) → ¬MenuOpens world asked target) →
    after.dialogs = before.dialogs
  menu : ∀ asked target, menu = some (asked, target) → MenuOpens world asked target →
    after.contextMenu.isSome

theorem Quiet.presses {after : App} (h : self.Quiet scope after) :
    Presses scope world none self after :=
  ⟨h.opens, fun _ => h.dialogs, by simp⟩

theorem presses_openContextMenu {before : App} (hplain : scope.origins .plain)
    (h : before.Quiet scope self) (target : ContextTarget) :
    Presses scope world (some (self, target)) before (openContextMenu world self target) := by
  have hasked := (quiet_clearSelection self).trans
    (quiet_ensurePluginCatalog world self.clearSelection hplain target.targetSession)
  refine ⟨h.then_opens (opens_openContextMenu world self hplain target), ?_, ?_⟩
  · intro hclosed
    have hnone := hclosed self target rfl
    simp only [MenuOpens, Bool.not_eq_true, Option.isSome_eq_false_iff, Option.isNone_iff_eq_none]
      at hnone
    simp only [openContextMenu, hnone]
    exact (h.trans hasked).dialogs
  · rintro _ _ ⟨⟩ hopens
    obtain ⟨actions, hactions⟩ := Option.isSome_iff_exists.mp hopens
    simp only [openContextMenu, hactions, Option.isSome_some]

theorem presses_sidebarMouse (h : scope.Handles) (mouse : MouseInput) :
    Presses scope world (sidebarMenu world self mouse) self (sidebarMouse world self mouse) := by
  rw [sidebarMouse, sidebarMenu]
  by_cases hscroll : mouse.scrollDirection.isSome
  · simp only [hscroll, Bool.true_or, if_true]
    exact (Quiet.refl self).presses world self
  · by_cases hright : mouse.isRightPress
    · simp only [hscroll, hright, Bool.not_true, Bool.or_self, if_true, Bool.false_eq_true, if_false]
      rcases world.sidebarHit self mouse with _ | ⟨_ | pane, _ | target⟩
      · exact (Quiet.refl self).presses world self
      · exact (Quiet.refl self).presses world self
      · exact presses_openContextMenu world self h.plain (.refl self) target
      · exact (Quiet.refl self).presses world self
      · exact presses_openContextMenu world _ h.plain (quiet_selectPane self h pane) target
    · simp only [hscroll, hright, Bool.not_false, Bool.or_true, if_true, Bool.false_eq_true,
        if_false]
      split
      · exact Quiet.presses world self (.of_eq rfl rfl rfl)
      · exact (Quiet.refl self).presses world self

theorem presses_tabMouse (h : scope.Handles) (mouse : MouseInput) :
    Presses scope world (tabMenu world self mouse) self (tabMouse world self mouse) := by
  have hgone : ∀ tab, self.Quiet scope
      (if (selectedSnapshotAndPane world.state self.selectedPane).isSome then
        self.go world (.tab tab) else self) := by
    intro tab
    split
    · exact quiet_go world self h _
    · exact .refl self
  rw [tabMouse, tabMenu]
  split
  · cases world.tabAtColumn self mouse with
    | none => exact (Quiet.refl self).presses world self
    | some tab => exact presses_openContextMenu world _ h.plain (hgone tab) (.tab tab)
  · split
    · cases world.tabAtColumn self mouse with
      | none => exact Quiet.presses world self (.of_eq rfl rfl rfl)
      | some tab => exact Quiet.presses world self ((hgone tab).trans (.of_eq rfl rfl rfl))
    · split
      · exact Quiet.presses world self (quiet_go world self h _)
      · exact Quiet.presses world self (quiet_go world self h _)
      · exact (Quiet.refl self).presses world self

/-- Whether what the mouse has for a pane is sent to it. -/
def Delivered : Aim → Prop
  | .wheel pane mouse =>
      mouse.scrollDirection.isSome ∧ ∃ route, Pointable world self pane route
  | .clicks pane events =>
      ∃ route, Pointable world self pane route ∧ mouseBytes world route.parser events ≠ []

/-- What a scope has to allow for what the mouse has for a pane. -/
def AimAllowed (scope : Scope) (aim : Option Aim) : Prop :=
  ∀ target, aim = some target → (Delivered world self target → scope.origins .mouse) ∧
    (mouseDrops world self target.pane → scope.drops)

theorem presses_terminalMouse (h : scope.Handles) (mouse : MouseInput)
    (haim : AimAllowed world self scope (terminalAim world self mouse)) :
    Presses scope world (terminalMenu world self mouse) self (terminalMouse world self mouse) := by
  rw [terminalMouse, terminalMenu]
  rw [terminalAim] at haim
  cases hfound : world.mousePanePosition self mouse with
  | none =>
    simp only [Option.map_none, ite_self]
    exact (Quiet.refl self).presses world self
  | some found =>
    obtain ⟨pane, position, localMouse⟩ := found
    simp only [hfound] at haim
    by_cases hright : mouse.isRightPress
    · simp only [hright, if_true, Option.map_some]
      refine presses_openContextMenu world _ h.plain ?_ (.pane pane)
      split
      · exact .refl self
      · exact quiet_selectPane self h pane
    · simp only [hright, Bool.false_eq_true, if_false, false_or] at haim ⊢
      split
      · split
        · exact Quiet.presses world self ((quiet_selectPane self h pane).trans (.of_eq rfl rfl rfl))
        · exact (Quiet.refl self).presses world self
      · next hselected =>
        simp only [hselected, if_false] at haim
        split
        · next hwheel =>
          obtain ⟨hmouse, hdrops⟩ := haim (.wheel pane localMouse) (by simp [hwheel])
          exact Quiet.presses world self ((quiet_clearSelection self).trans
            (quiet_sendTerminalScroll world self.clearSelection pane localMouse
              (fun hdirection hroute => hmouse ⟨hdirection, hroute⟩) hdrops))
        · next hwheel =>
          split
          · exact Quiet.presses world self (.of_eq rfl rfl rfl)
          · next hpress =>
            obtain ⟨hmouse, hdrops⟩ := haim (.clicks pane [localMouse]) (by simp [hwheel, hpress])
            exact Quiet.presses world self (quiet_sendMouseInputs world self pane [localMouse]
              (fun route hroute hbytes => hmouse ⟨route, hroute, hbytes⟩) hdrops)

theorem quiet_selectionMouse (selection : TerminalSelection) (mouse : MouseInput)
    (haim : AimAllowed world self scope (selectionAim world self selection mouse)) :
    self.Quiet scope (selectionMouse world self selection mouse) := by
  rw [selectionMouse]
  rw [selectionAim] at haim
  split
  · exact .refl self
  · next viewport hviewport =>
    simp only [hviewport] at haim
    dsimp only
    split
    · exact .of_eq rfl rfl rfl
    · next hmotion =>
      simp only [finishSelection]
      split
      · exact .of_eq rfl rfl rfl
      · next hdragging =>
        split
        · next press hpress =>
          have hstill : ¬(mouse.isLeftMotion || selection.dragging ||
              (⟨viewport.row - selection.viewportOffset, viewport.column⟩ : CellPosition) ≠
                selection.anchor) := by
            simpa [hmotion] using hdragging
          rw [if_neg hstill, hpress, Option.map_some] at haim
          obtain ⟨hmouse, hdrops⟩ := haim _ rfl
          refine Quiet.trans ?_ (quiet_sendMouseInputs world
            { self with selectionAutoscroll := none, selection := none } selection.pane _
            (fun route hroute hbytes => hmouse ⟨route, hroute, hbytes⟩) hdrops)
          exact .of_eq rfl rfl rfl
        · exact .of_eq rfl rfl rfl

theorem quiet_finishUiLeftGesture (h : scope.Handles) :
    self.Quiet scope self.finishUiLeftGesture := by
  rw [finishUiLeftGesture]
  split
  · refine Quiet.trans ?_ (quiet_selectPane _ h _)
    exact .of_eq rfl rfl rfl
  · exact .of_eq rfl rfl rfl

theorem presses_regionMouse (h : scope.Handles) (mouse : MouseInput)
    (haim : AimAllowed world self scope (pointed world self mouse)) :
    Presses scope world (regionMenu world self mouse) self
      (match world.region self mouse with
        | .sidebar => sidebarMouse world self mouse
        | .tabs => tabMouse world self mouse
        | .elsewhere => terminalMouse world self mouse) := by
  rw [regionMenu]
  rw [pointed] at haim
  split
  · exact presses_sidebarMouse world self h mouse
  · exact presses_tabMouse world self h mouse
  · next hregion =>
    rw [hregion] at haim
    exact presses_terminalMouse world self h mouse haim

theorem presses_surfaceMouse (h : scope.Handles) (mouse : MouseInput)
    (haim : AimAllowed world self scope (surfaceAim world self mouse)) :
    Presses scope world (surfaceMenu world self mouse) self (surfaceMouse world self mouse) := by
  rw [surfaceMouse, surfaceMenu]
  rw [surfaceAim] at haim
  by_cases hframe : self.lastFrameArea = none
  · simp only [hframe, true_or, if_true]
    exact (Quiet.refl self).presses world self
  · by_cases hswallow : self.swallowLeftGesture
    · simp only [hframe, hswallow, or_true, if_true, if_false]
      split
      · exact Quiet.presses world self (quiet_finishUiLeftGesture self h)
      · exact (Quiet.refl self).presses world self
    · simp only [hframe, hswallow, Bool.false_eq_true, or_self, if_false] at haim ⊢
      by_cases hleft : (mouse.isLeftMotion || mouse.isLeftRelease) = true
      · simp only [hleft, if_true, Bool.true_and] at haim ⊢
        cases hselection : self.selection with
        | some selection =>
          simp only [hselection] at haim
          simp only [Option.isSome_some, if_true]
          exact (quiet_selectionMouse world self selection mouse haim).presses world self
        | none =>
          simp only [hselection] at haim
          simp only [Option.isSome_none, Bool.false_eq_true, if_false]
          exact presses_regionMouse world self h mouse haim
      · simp only [hleft, Bool.false_eq_true, if_false, Bool.false_and] at haim ⊢
        exact presses_regionMouse world self h mouse haim

theorem handleMouse_surface (mouse : MouseInput)
    (hfree : (self.contextMenu.isSome || self.targetManager.isSome || self.mouseBlocked) = false) :
    handleMouse world self mouse = surfaceMouse world self mouse := by
  simp only [Bool.or_eq_false_iff, Option.isSome_eq_false_iff, Option.isNone_iff_eq_none] at hfree
  obtain ⟨⟨hmenu, hmanager⟩, hblocked⟩ := hfree
  simp only [handleMouse, hmenu, hmanager, hblocked, Bool.false_eq_true, if_false]

theorem sends_handleMouse (h : scope.Handles) (mouse : MouseInput)
    (haim : AimAllowed world self scope (aimed world self mouse)) :
    self.Sends scope (handleMouse world self mouse) := by
  cases hfree : self.contextMenu.isSome || self.targetManager.isSome || self.mouseBlocked with
  | false =>
    rw [handleMouse_surface world self mouse hfree]
    rw [aimed, hfree] at haim
    exact (presses_surfaceMouse world self h mouse (by simpa using haim)).opens.sends
  | true =>
    rw [handleMouse]
    split
    · next menu hmenu =>
      refine Sends.trans ?_
        (opens_handleContextMenuMouse world self h menu mouse).sends
      exact .of_acts rfl (.refl _)
    · next hmenu =>
      split
      · next manager hmanager =>
        split
        · exact .refl self
        · refine Sends.trans ?_
            (opens_handleTargetManagerMouse world self manager mouse).sends
          exact .of_acts rfl (.refl _)
      · next hmanager =>
        have hblocked : self.mouseBlocked = true := by simpa [hmenu, hmanager] using hfree
        rw [if_pos hblocked]
        exact .refl self

/-! ### Pastes -/

/-- What a paste has for the selected pane: a text, or files. -/
inductive Pasted
  | text (text : String)
  | files (files : List String)
deriving DecidableEq

def pasted (bytes : List UInt8) : Option Pasted :=
  if self.pasteBlocked then none
  else
    (utf8? bytes).map fun text =>
      if world.droppedFiles text = [] then .text text else .files (world.droppedFiles text)

/-- Whether the selected pane can be sent files. -/
def Controlled : Prop :=
  ∃ selected route target, self.selectedPane = some selected ∧
    self.routes[selected]? = some route ∧ route.access = .control ∧
    world.state.targets[selected.targetSession]? = some target ∧
    target.acceptsGeneration route.generation = true

theorem uploadDestination_ok {after : App} {pane : PaneId}
    (h : uploadDestination world self = (after, .ok pane)) :
    after = self ∧ self.selectedPane = some pane ∧ Controlled world self := by
  rw [uploadDestination] at h
  split at h
  · cases h
  · next selected hselected =>
    split at h
    · cases h
    · next target htarget =>
      split at h
      · cases h
      · next route hroute =>
        split_ifs at h with hcontrol haccepts
        · cases h
        · cases h
        · cases h
          exact ⟨rfl, hselected, pane, route, target, hselected, hroute, by simpa using hcontrol,
            htarget, by simpa using haccepts⟩

/-- What a scope has to allow for what a paste has for a pane. -/
structure PasteAllowed (scope : Scope) (world : World) (before : App) (bytes : List UInt8) : Prop
    where
  text : ∀ text, pasted world before bytes = some (.text text) →
    (pasteable text → TextTaken world before text → scope.origins .pasted) ∧
      (pasteable text → controlDrops world before → scope.drops)
  files : ∀ files, pasted world before bytes = some (.files files) →
    (Controlled world before → Readable world before files → scope.origins .dropped) ∧
      (controlDrops world before → scope.drops)

theorem quiet_handlePaste (bytes : List UInt8) (h : PasteAllowed scope world self bytes) :
    self.Quiet scope (handlePaste world self bytes) := by
  rw [handlePaste]
  split
  · exact .refl self
  · next hblocked =>
    split
    · exact .refl self
    · next text htext =>
      dsimp only
      split
      · next hfiles =>
        obtain ⟨horigin, hdrops⟩ := h.text text (by simp [pasted, hblocked, htext, hfiles])
        exact quiet_pasteTextIntoSelected world self text horigin (fun _ => trivial) hdrops
      · next hfiles =>
        obtain ⟨horigin, hdrops⟩ := h.files (world.droppedFiles text)
          (by simp [pasted, hblocked, htext, hfiles])
        have hlooked := quiet_uploadDestination world self hdrops
        split
        · next after pane heq =>
          obtain ⟨rfl, -, hcontrolled⟩ := uploadDestination_ok world self heq
          exact quiet_sendLocalFiles world after pane (horigin hcontrolled) (fun _ => trivial)
            hfiles
        · next after _ heq =>
          rw [heq] at hlooked
          exact hlooked

/-! ### Any event of a person's -/

/-- Whether the bytes of an event go to the selected pane in one message. -/
def passesThrough (bytes : List UInt8) : Prop :=
  1 < bytes.length ∧ self.mode = .terminal ∧ !self.hasModalOverlay

/-- What a scope has to allow for an event. -/
def InputAllowed (scope : Scope) : DecodedInput → Prop
  | .bytes bytes =>
      (∀ key, self.navigationKey bytes = some key → KeyAllowed scope world self key) ∧
        (self.navigationKey bytes = none → passesThrough self bytes →
          (Typeable world self → scope.origins .typed) ∧
            (forwardDrops world self → scope.drops)) ∧
        (self.navigationKey bytes = none → ¬passesThrough self bytes →
          EachKey world (KeyAllowed scope world) bytes self)
  | .mouse mouse => scope.Handles ∧ AimAllowed world self scope (aimed world self mouse)
  | .paste bytes => PasteAllowed scope world self bytes
  | .pasteTooLarge => True

theorem sends_handleDecodedInput (input : DecodedInput)
    (h : InputAllowed world self scope input) :
    self.Sends scope (handleDecodedInput world self input) := by
  cases input with
  | bytes bytes =>
    obtain ⟨hnavigation, hpasses, hkeys⟩ := h
    rw [handleDecodedInput]
    split
    · next key hkey => exact (hnavigation key hkey).sends world self
    · next hnone =>
      split
      · next hpass =>
        obtain ⟨htyped, hdrops⟩ := hpasses hnone hpass
        exact (quiet_forwardPaneBytes world self htyped hdrops bytes).sends
      · next hpass => exact sends_handleBytes world self (hkeys hnone hpass)
  | mouse mouse => exact sends_handleMouse world self h.1 mouse h.2
  | paste bytes => exact (quiet_handlePaste world self bytes h).sends
  | pasteTooLarge => exact .refl self

end App

end Tui

end SuperHerdr
