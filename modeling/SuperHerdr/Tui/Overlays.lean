import SuperHerdr.Tui.Panes

/-!
# What the overlays do with a key and with the mouse

Each handler takes its overlay off the frontend, and puts it back unless the key closed it. An
action that is chosen may open another overlay; by then the one it was chosen in is gone.
-/

namespace SuperHerdr

namespace Tui

open Texts (isWhiteSpace)

namespace App

variable (world : World)

/-! ### Navigation -/

def wrappedIndex (current length : ℕ) (forward : Bool) : ℕ :=
  if forward then (current + 1) % length else if current = 0 then length - 1 else current - 1

def cyclePane (self : App) (forward : Bool) : App :=
  let panes := selectablePanes world.state
  if panes = [] then
    { self.clearSelection with selectedPane := none, routes := ∅, routeRetryAfter := ∅ }
  else
    let current := self.selectedPane.bind fun selected => panes.idxOf? selected
    let next := match current with
      | none => if forward then 0 else panes.length - 1
      | some current => wrappedIndex current panes.length forward
    match panes[next]? with
    | none => self
    | some pane => if self.selectedPane = some pane then self else self.selectPane pane

/-- The next entry of a list that ends. -/
def nextOf (selected length : ℕ) : ℕ :=
  if length = 0 then selected else min (selected + 1) (length - 1)

/-- The entry before, in a list that ends. -/
def previousOf (selected length : ℕ) : ℕ := if length = 0 then selected else selected - 1

/-- The next entry of a list that begins again. -/
def nextAround (selected length : ℕ) : ℕ :=
  if length = 0 then selected else (selected + 1) % length

/-- The entry before, in a list that begins again. -/
def previousAround (selected length : ℕ) : ℕ :=
  if length = 0 then selected else if selected = 0 then length - 1 else selected - 1

/-! ### Actions -/

/-- Abandon a save this client is receiving. -/
def cancelFileSave (self : App) : App :=
  match self.fileSaveRequest with
  | none => self
  | some request =>
      { self with fileSaveRequest := none, fileSave := none }.send (.cancelDownload request)

def isLive (key : TargetSession) : Bool :=
  match world.state.targets[key]? with
  | some runtime => runtime.connection = .live
  | none => false

/-- Move one workspace into another on the same session. -/
def spawnWorkspaceMove (self : App) (workspace destination : WorkspaceId) : App :=
  if workspace.targetSession ≠ destination.targetSession ∨ workspace = destination ∨
      !isLive world workspace.targetSession then self
  else self.runOperation (.moveWorkspace workspace destination) true

/-- Recreate a workspace on another session. -/
def spawnWorkspaceRecreate (self : App) (workspace : WorkspaceId) (destination : TargetSession)
    (label : String) : App :=
  if workspace.targetSession = destination ∨ !isLive world workspace.targetSession ∨
      !isLive world destination then self
  else self.runOperation (.recreateWorkspace workspace destination
    (if label = "" then none else some label)) false

def openContextMenu (self : App) (target : ContextTarget) : App :=
  let self := ensurePluginCatalog world self.clearSelection target.targetSession
  match world.contextActions self target with
  | some actions => { self with contextMenu := some ⟨actions, target, 0, none⟩ }
  | none => self

def openSendFilePrompt (self : App) : App :=
  match self.selectedPane with
  | none => self
  | some pane => { self with textPrompt := some (.new (.sendFile pane)) }

def safeText (value : String) : String :=
  value.map fun character => if isControl character then ' ' else character

def displayLabel (id : String) (label : Option String) : String :=
  ((label.filter (· ≠ "")).map safeText).getD (safeText id)

def requestWorkspaceClose (self : App) : App :=
  if self.herdrActionInflight then self
  else
    match selectedSnapshotAndPane world.state self.selectedPane with
    | none => self
    | some (snapshot, pane) =>
        match pane.workspace.bind (snapshot.workspaces[·]?) with
        | none => self
        | some workspace =>
            let label := displayLabel workspace.id.resource workspace.label
            { self with closeConfirmation := some ⟨.closeWorkspace workspace.id label⟩ }

def executeResourceAction (self : App) (action : ResourceAction) : App :=
  if action.mutatesHerdr && self.herdrActionInflight then self
  else
    match action with
    | .jumpToPane pane _ => self.selectPane pane
    | .openTargetManager => { self with targetManager := some (.new self.configuredTargets) }
    | .openAgentNavigator => { self with agentNavigator := some .default }
    | .openAttentionCenter => { self with attentionCenter := some ⟨0⟩ }
    | .createWorkspace target =>
        { self with textPrompt := some (.new (.createWorkspace target)) }
    | .renameWorkspace workspace _ =>
        { self with textPrompt := some (.new (.renameWorkspace workspace)) }
    | .renameTab tab _ => { self with textPrompt := some (.new (.renameTab tab)) }
    | .closeWorkspace .. | .closeTab .. | .closePane .. =>
        { self with closeConfirmation := some ⟨action⟩ }
    | .createTab workspace => self.runOperation (.createTab workspace) true
    | .moveWorkspace workspace destination _ _ =>
        spawnWorkspaceMove world self workspace destination
    | .recreateWorkspace workspace destination label =>
        spawnWorkspaceRecreate world self workspace destination label
    | .splitPane pane direction => self.runOperation (.splitPane pane direction) true
    | .saveFileFromPane pane _ => { self with textPrompt := some (.new (.saveFile pane)) }
    | .transferFileBetween source destination _ _ =>
        { self with textPrompt := some (.new (.transferFile source destination)) }
    | .cancelFileTransfer => self.cancelFileSave
    | .markAgent agent mark _ =>
        { self with nextRequest := self.nextRequest + 1 }.send
          (.markAgent self.nextRequest agent mark)
    | .togglePaneZoom pane => self.runOperation (.togglePaneZoom pane) false
    | .invokePluginAction action context =>
        self.runOperation (.invokePluginAction action.id context action.title) false

/-! ### The palette and the context menu -/

def handleCommandPaletteInput (self : App) (palette : CommandPalette) (key : UInt8) : App :=
  let self := { self with commandPalette := none }
  let actions := world.paletteActions self palette.query
  -- Every other key leaves the palette open, with a selection that exists.
  let reopen (palette : CommandPalette) : App :=
    let count := (world.paletteActions self palette.query).length
    { self with commandPalette := some { palette with selected := min palette.selected (count - 1) } }
  if key = 0x1b then self
  else if key = 0x0d ∨ key = 0x0a then
    match actions[palette.selected]? with
    | some action => executeResourceAction world self action
    | none => reopen palette
  else if key = 0x09 ∨ key = 0x0e then
    reopen { palette with selected := nextAround palette.selected actions.length }
  else if key = 0x10 then
    reopen { palette with selected := previousAround palette.selected actions.length }
  else if key = 0x08 ∨ key = 0x7f then
    reopen ⟨String.ofList palette.query.toList.dropLast, 0⟩
  else if key = 0x15 then reopen ⟨"", 0⟩
  else if 0x20 ≤ key ∧ key ≤ 0x7e then reopen ⟨palette.query.push (Char.ofNat key.toNat), 0⟩
  else reopen palette

def handleContextMenuInput (self : App) (menu : ContextMenu) (key : UInt8) : App :=
  let self := { self with contextMenu := none }
  if key = 0x71 ∨ key = 0x1b then self
  else if key = 0x6a ∨ key = 0x09 ∨ key = 0x0e then
    let selected := nextAround menu.selected menu.actions.length
    { self with contextMenu := some { menu with selected } }
  else if key = 0x6b ∨ key = 0x10 then
    let selected := previousAround menu.selected menu.actions.length
    { self with contextMenu := some { menu with selected } }
  else if key = 0x0d ∨ key = 0x0a then
    match menu.actions[menu.selected]? with
    | some action => executeResourceAction world self action
    | none => self
  else { self with contextMenu := some menu }

def handleContextMenuMouse (self : App) (menu : ContextMenu) (mouse : MouseInput) : App :=
  if self.lastFrameArea = none then { self with contextMenu := none }
  else
    let actionAtPointer := world.contextMenuActionAt self mouse
    match mouse.scrollDirection with
    | some direction =>
        let selected := match direction with
          | .up => previousOf menu.selected menu.actions.length
          | .down => nextOf menu.selected menu.actions.length
        { self with contextMenu := some { menu with selected } }
    | none =>
        if mouse.isLeftPress then
          match actionAtPointer with
          | some index =>
              { self with contextMenu := some { menu with selected := index, pressed := some index } }
          | none => { self with contextMenu := none }
        else if mouse.isLeftRelease then
          let action := if menu.pressed = actionAtPointer then
            actionAtPointer.bind (menu.actions[·]?) else none
          match action with
          | some action => executeResourceAction world { self with contextMenu := none } action
          | none => { self with contextMenu := some { menu with pressed := none } }
        else if mouse.isRightPress then { self with contextMenu := none }
        else self

/-! ### The text prompt -/

def trim (value : String) : String :=
  trimEnd (String.ofList (value.toList.dropWhile isWhiteSpace))

/-- Run what a prompt for a label asked for. -/
def runPrompt (self : App) (action : TextPromptAction) (label : String) : App :=
  match action with
  | .sendFile _ | .saveFile _ | .transferFile _ _ => self
  | .createWorkspace target => self.runOperation (.createWorkspace target label) true
  | .renameWorkspace workspace => self.runOperation (.renameWorkspace workspace label) false
  | .renameTab tab => self.runOperation (.renameTab tab label) false

/-- Enter, in a prompt that was taken off the frontend. -/
def submitTextPrompt (self : App) (prompt : TextPrompt) : App :=
  let value := trim prompt.value
  let refuse (self : App) (error : String) : App :=
    { self with textPrompt := some { prompt with error := some error } }
  match prompt.action with
  | .sendFile _ =>
      -- The pane is read again here rather than trusted from when the prompt opened.
      let (self, destination) := uploadDestination world self
      if value = "" then refuse self "A path is required"
      else
        match destination with
        | .error error => refuse self error
        | .ok pane => sendLocalFiles world self .prompted pane [world.droppedPath value]
  | .saveFile pane =>
      if value = "" then refuse self "A path is required"
      else if self.fileSave.isSome then refuse self "a file is already being saved"
      else
        { self with
          nextRequest := self.nextRequest + 1
          fileSaveRequest := some self.nextRequest }.send
          (.beginDownload self.nextRequest pane value)
  | .transferFile source destination =>
      if value = "" then refuse self "A path is required"
      else
        { self with nextRequest := self.nextRequest + 1 }.send
          (.transferBetween self.nextRequest source value destination none)
  | action =>
      if value = "" then refuse self "A non-empty label is required"
      else self.runPrompt action value

def utf8? (bytes : List UInt8) : Option String := String.fromUTF8? ⟨bytes.toArray⟩

/-- Whether some bytes begin a character that is not finished. -/
def unfinished (bytes : List UInt8) : Bool :=
  match bytes with
  | [lead] => 0xc2 ≤ lead && lead ≤ 0xf4
  | [lead, second] => 0xe0 ≤ lead && lead ≤ 0xf4 && continues lead second
  | [lead, second, third] =>
      0xf0 ≤ lead && lead ≤ 0xf4 && continues lead second && 0x80 ≤ third && third ≤ 0xbf
  | _ => false
where
  /-- The second byte of a character, which its first restricts. -/
  continues (lead second : UInt8) : Bool :=
    (if lead = 0xe0 then 0xa0 else if lead = 0xf0 then 0x90 else 0x80) ≤ second &&
      second ≤ (if lead = 0xed then 0x9f else if lead = 0xf4 then 0x8f else 0xbf)

/-- A byte of a character that arrives in more than one piece. -/
def pushPartial (prompt : TextPrompt) (key : UInt8) : TextPrompt :=
  let held := prompt.partialBytes ++ [key]
  match utf8? held with
  | some text => { prompt with value := prompt.value ++ text, partialBytes := [], error := none }
  | none =>
      { prompt with
        partialBytes := if unfinished held ∧ held.length < 4 then held else []
        error := none }

def handleTextPromptInput (self : App) (prompt : TextPrompt) (key : UInt8) : App :=
  let self := { self with textPrompt := none }
  if key = 0x1b then self
  else if key = 0x0d ∨ key = 0x0a then submitTextPrompt world self prompt
  else
    let prompt :=
      if key = 0x08 ∨ key = 0x7f then
        { prompt with value := String.ofList prompt.value.toList.dropLast, error := none }
      else if key = 0x15 then { prompt with value := "", error := none }
      else if 0x20 ≤ key ∧ key ≤ 0x7e then
        { prompt with
          value := prompt.value.push (Char.ofNat key.toNat), partialBytes := [], error := none }
      else if 0x80 ≤ key then pushPartial prompt key
      else prompt
    { self with textPrompt := some prompt }

/-! ### Confirmations -/

/-- The operation a destructive action is once it is confirmed. -/
def confirmedOperation : ResourceAction → Option Operation
  | .closeWorkspace workspace _ => some (.closeWorkspace workspace)
  | .closeTab tab _ => some (.closeTab tab)
  | .closePane pane _ => some (.closePane pane)
  | _ => none

def handleCloseConfirmationInput (self : App) (confirmation : CloseConfirmation) (key : UInt8) :
    App :=
  let self := { self with closeConfirmation := none }
  if key = 0x79 then
    match confirmedOperation confirmation.action with
    | some operation => self.runOperation operation true
    | none => self
  else if key = 0x6e ∨ key = 0x71 ∨ key = 0x1b then self
  else { self with closeConfirmation := some confirmation }

def handlePairingApprovalInput (self : App) (approval : PairingApproval) (key : UInt8) : App :=
  let approve := if key = 0x79 ∨ key = 0x59 then some true
    else if key = 0x6e ∨ key = 0x4e ∨ key = 0x1b then some false
    else none
  match approve with
  | some approve =>
      { self with pairingApproval := none }.send (.decidePairing approval.attempt approve)
  | none => self

/-! ### The target manager -/

def removeTarget (self : App) (manager : TargetManager) : App × TargetManager :=
  match manager.mode with
  | .confirmRemove name =>
      match world.targetRemoved name with
      | some targets =>
          ({ self with configuredTargets := targets }.perform (.removeTarget name),
            ⟨targets, min manager.selected (targets.length - 1), .list, manager.mousePress⟩)
      | none => (self, { manager with mode := .list })
  | _ => (self, manager)

def saveTargetForm (self : App) (manager : TargetManager) : App × TargetManager :=
  match manager.mode, world.formSaved with
  | .form, some targets =>
      ({ self with configuredTargets := targets }, { manager with targets, mode := .list })
  | _, _ => (self, manager)

/-- Use one of the manager's controls, and say whether it closes the manager. -/
def activateTargetManagerControl (self : App) (manager : TargetManager)
    (control : TargetManagerControl) : App × TargetManager × Bool :=
  match control with
  | .target index =>
      (self, if index < manager.targets.length then { manager with selected := index }
        else manager, false)
  | .add => (self, { manager with mode := .form }, false)
  | .edit =>
      (self, if manager.selected < manager.targets.length then { manager with mode := .form }
        else manager, false)
  | .remove =>
      let manager := match manager.targets[manager.selected]? with
        | some name => { manager with mode := .confirmRemove name }
        | none => manager
      (self, manager, false)
  | .close => (self, manager, true)
  | .field _ => (self, manager, false)
  | .save =>
      let (self, manager) := saveTargetForm world self manager
      (self, manager, false)
  | .cancel | .cancelRemove => (self, { manager with mode := .list }, false)
  | .confirmRemove =>
      let (self, manager) := removeTarget world self manager
      (self, manager, false)

/-- What a key does to a manager, and whether it closes it. -/
def targetManagerKey (self : App) (manager : TargetManager) (key : UInt8) :
    App × TargetManager × Bool :=
  match manager.mode with
  | .list =>
      if key = 0x71 ∨ key = 0x1b then (self, manager, true)
      else if key = 0x6a ∨ key = 0x0e then
        (self, { manager with selected := nextOf manager.selected manager.targets.length }, false)
      else if key = 0x6b ∨ key = 0x10 then
        (self, { manager with selected := manager.selected - 1 }, false)
      else if key = 0x61 then activateTargetManagerControl world self manager .add
      else if key = 0x65 ∨ key = 0x0d ∨ key = 0x0a then
        activateTargetManagerControl world self manager .edit
      else if key = 0x64 then activateTargetManagerControl world self manager .remove
      else (self, manager, false)
  | .form =>
      if key = 0x1b then (self, { manager with mode := .list }, false)
      else if key = 0x0d ∨ key = 0x0a then
        let (self, manager) := saveTargetForm world self manager
        (self, manager, false)
      else (self, manager, false)
  | .confirmRemove _ =>
      if key = 0x79 then
        let (self, manager) := removeTarget world self manager
        (self, manager, false)
      else if key = 0x6e ∨ key = 0x71 ∨ key = 0x1b then
        (self, { manager with mode := .list }, false)
      else (self, manager, false)

/-- Put a manager back unless it was closed. -/
def closeOrKeep (outcome : App × TargetManager × Bool) : App :=
  if outcome.2.2 then outcome.1 else { outcome.1 with targetManager := some outcome.2.1 }

def handleTargetManagerInput (self : App) (manager : TargetManager) (key : UInt8) : App :=
  closeOrKeep (targetManagerKey world { self with targetManager := none } manager key)

def handleTargetManagerMouse (self : App) (manager : TargetManager) (mouse : MouseInput) : App :=
  match mouse.scrollDirection with
  | some direction =>
      match manager.mode with
      | .list =>
          let selected := match direction with
            | .up => previousOf manager.selected manager.targets.length
            | .down => nextOf manager.selected manager.targets.length
          { self with targetManager := some { manager with selected } }
      | _ => self
  | none =>
      let control := world.targetManagerControl self mouse
      if mouse.isLeftPress then
        { self with targetManager := some { manager with mousePress := control } }
      else if !mouse.isLeftRelease then self
      else
        let released := { manager with mousePress := none }
        match manager.mousePress, control with
        | some pressed, some control =>
            if pressed = control then
              closeOrKeep (activateTargetManagerControl world { self with targetManager := none }
                released control)
            else { self with targetManager := some released }
        | _, _ => { self with targetManager := some released }

/-! ### Agents and events -/

def handleAgentNavigatorInput (self : App) (navigator : AgentNavigator) (key : UInt8) : App :=
  let self := { self with agentNavigator := none }
  let entries := world.agentJumpEntries navigator.filter
  -- The selection is bounded by the entries of the filter the key found.
  let reopen (navigator : AgentNavigator) : App :=
    let selected := min navigator.selected (entries.length - 1)
    { self with agentNavigator := some { navigator with selected } }
  if key = 0x71 ∨ key = 0x1b then self
  else if key = 0x6a then
    reopen { navigator with selected := nextOf navigator.selected entries.length }
  else if key = 0x6b then reopen { navigator with selected := navigator.selected - 1 }
  else if key = 0x66 then reopen ⟨navigator.filter.next, 0⟩
  else if key = 0x0d ∨ key = 0x0a then
    match entries[navigator.selected]? with
    | some pane => self.selectPane pane
    | none => self
  else reopen navigator

def handleAttentionCenterInput (self : App) (center : AttentionCenter) (key : UInt8) : App :=
  let self := { self with attentionCenter := none }
  let reopen (self : App) (center : AttentionCenter) : App :=
    let selected := min center.selected (self.attention.events.length - 1)
    { self with attentionCenter := some ⟨selected⟩ }
  if key = 0x71 ∨ key = 0x1b then self
  else if key = 0x6a then
    reopen self ⟨nextOf center.selected self.attention.events.length⟩
  else if key = 0x6b then reopen self ⟨center.selected - 1⟩
  else if key = 0x72 then
    let (attention, changed) := self.attention.markAllSeen
    let self := { self with attention }
    reopen (if changed then self.send .markAllAttentionSeen else self) center
  else if key = 0x63 then
    let (attention, changed) := self.attention.clearSeen
    let self := { self with attention }
    reopen (if changed then self.send .clearSeenAttention else self) center
  else if key = 0x0d ∨ key = 0x0a then
    match self.attention.events.reverse[center.selected]? with
    | some event =>
        if paneIsLive world.state event.pane then self.selectPane event.pane
        else self.markAttentionSeen event.pane
    | none => reopen self center
  else reopen self center

end App

end Tui

end SuperHerdr
