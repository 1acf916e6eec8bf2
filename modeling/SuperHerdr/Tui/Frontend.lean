import SuperHerdr.Download.Download
import SuperHerdr.Tui.Overlays

/-!
# The terminal frontend

The frontend's loop takes one event after another: what the person did, what the daemon said, a
streamed upload that stopped, a notification that was clicked, a redraw, or a tick. `drawnOverlay`
is the overlay that is drawn on top and `inputOverlay` the one whose handler is given the next key.
-/

namespace SuperHerdr

namespace Tui

open Std Transducer

namespace App

variable (world : World)

/-! ### Which overlay -/

/-- The overlay that is drawn on top. -/
def drawnOverlay (self : App) : Option Overlay :=
  if self.pairingApproval.isSome then some .pairingApproval
  else if self.pairing.isSome then some .pairing
  else if self.targetManager.isSome then some .targetManager
  else if self.agentNavigator.isSome then some .agentNavigator
  else if self.attentionCenter.isSome then some .attentionCenter
  else if self.contextMenu.isSome then some .contextMenu
  else if self.commandPalette.isSome then some .commandPalette
  else if self.textPrompt.isSome then some .textPrompt
  else if self.closeConfirmation.isSome then some .closeConfirmation
  else none

/-- The overlay whose handler is given the next key. -/
def inputOverlay (self : App) : Option Overlay :=
  if self.contextMenu.isSome then some .contextMenu
  else if self.closeConfirmation.isSome then some .closeConfirmation
  else if self.textPrompt.isSome then some .textPrompt
  else if self.commandPalette.isSome then some .commandPalette
  else if self.targetManager.isSome then some .targetManager
  else if self.pairingApproval.isSome then some .pairingApproval
  else if self.pairing.isSome then some .pairing
  else if self.agentNavigator.isSome then some .agentNavigator
  else if self.attentionCenter.isSome then some .attentionCenter
  else none

/-- Whether a modal overlay owns the keyboard right now. -/
def hasModalOverlay (self : App) : Bool :=
  self.contextMenu.isSome || self.closeConfirmation.isSome || self.textPrompt.isSome ||
    self.commandPalette.isSome || self.targetManager.isSome || self.pairingApproval.isSome ||
    self.pairing.isSome || self.agentNavigator.isSome || self.attentionCenter.isSome

/-! ### Keys -/

/-- A key after Herdr's prefix key. -/
def handleHerdrPrefix (self : App) (key : UInt8) : App :=
  if key = 0x68 ∨ key = 0x6a ∨ key = 0x6b ∨ key = 0x6c then self.go world (.neighbour key)
  else if key = 0x70 then self.go world (.cycleTab false)
  else if key = 0x6e then self.go world (.cycleTab true)
  else if 0x31 ≤ key ∧ key ≤ 0x39 then self.go world (.tabIndex (key.toNat - 0x31))
  else if key = 0x63 then
    match (selectedSnapshotAndPane world.state self.selectedPane).bind (·.2.workspace) with
    | none => self
    | some workspace => self.runOperation (.createTab workspace) true
  else if key = 0x76 then self.runSelectedPaneOperation (.splitPane · .right) true
  else if key = 0x2d then self.runSelectedPaneOperation (.splitPane · .down) true
  else if key = 0x7a then self.runSelectedPaneOperation .togglePaneZoom false
  else self

/-- The prefix key after itself: the pane gets one. -/
def sendLiteralPrefix (self : App) : App :=
  match self.selectedPane with
  | none => self
  | some pane =>
      match self.routes[pane]? with
      | none => self
      | some route =>
          if route.access = .control then
            self.perform (.send .literal (.paneInput pane [PREFIX_KEY]))
          else self

/-- A key after the prefix key. -/
def handlePrefix (self : App) (key : UInt8) : App :=
  if key = 0x6a then cyclePane world self true
  else if key = 0x6b then cyclePane world self false
  else if key = 0x6e then self.go world (.cycleTab true)
  else if key = 0x70 then self.go world (.cycleTab false)
  else if key = 0x76 then pasteSystemClipboard world self
  else if key = 0x69 then pasteClipboardMedia world self
  else if key = 0x66 then self.openSendFilePrompt
  else if key = 0x68 then { self with targetManager := some (.new self.configuredTargets) }
  else if key = 0x61 then { self with agentNavigator := some .default }
  else if key = 0x65 then { self with attentionCenter := some ⟨0⟩ }
  else if key = 0x50 then
    { self with nextRequest := self.nextRequest + 1 }.send (.requestPairingCode self.nextRequest)
  else if key = 0x64 then requestWorkspaceClose world self
  else if key = 0x20 then
    { ensurePluginCatalogs world self with commandPalette := some ⟨"", 0⟩ }
  else if 0x31 ≤ key ∧ key ≤ 0x39 then self.go world (.workspace (key.toNat - 0x31))
  else if key = PREFIX_KEY then self.sendLiteralPrefix
  else self

/-- A key that no overlay took. -/
def handleKey (self : App) (key : UInt8) : App :=
  match self.mode with
  | .terminal =>
      if key = PREFIX_KEY then { self.clearSelection with mode := .prefixed }
      else if key = HERDR_PREFIX_KEY then { self.clearSelection with mode := .herdrPrefixed }
      else forwardPaneBytes world self [key]
  | .prefixed =>
      if key = 0x71 then { self with quitting := true }
      else { handlePrefix world self key with mode := .terminal }
  | .herdrPrefixed => { handleHerdrPrefix world self key with mode := .terminal }

def handleInput (self : App) (key : UInt8) : App :=
  match self.contextMenu with
  | some menu => handleContextMenuInput world self menu key
  | none =>
  match self.closeConfirmation with
  | some confirmation => self.handleCloseConfirmationInput confirmation key
  | none =>
  match self.textPrompt with
  | some prompt => handleTextPromptInput world self prompt key
  | none =>
  match self.commandPalette with
  | some palette => handleCommandPaletteInput world self palette key
  | none =>
  match self.targetManager with
  | some manager => handleTargetManagerInput world self manager key
  | none =>
  match self.pairingApproval with
  | some approval => self.handlePairingApprovalInput approval key
  | none =>
  match self.pairing with
  | some _ => { self with pairing := none }
  | none =>
  match self.agentNavigator with
  | some navigator => handleAgentNavigatorInput world self navigator key
  | none =>
  match self.attentionCenter with
  | some center => handleAttentionCenterInput world self center key
  | none => handleKey world self key

/-- The bytes of one event, until the person quits. -/
def handleBytes : List UInt8 → App → App
  | [], self => self
  | key :: keys, self =>
      let self := handleInput world self key
      if self.quitting then self else handleBytes keys self

/-! ### The mouse -/

/-- Extend a selection to where the mouse was dragged. -/
def dragSelection (self : App) (selection : TerminalSelection) (position : CellPosition)
    (edge : Option TerminalScrollDirection) : App :=
  let dragging := selection.dragging || position ≠ selection.anchor || edge.isSome
  let pendingLines := match self.selectionAutoscroll with
    | some current =>
        if current.pane = selection.pane ∧ some current.direction = edge then current.pendingLines
        else 0
    | none => 0
  { self with
    selection := some { selection with head := position, dragging }
    selectionAutoscroll := if dragging then
        edge.map fun direction => ⟨selection.pane, direction, position.column, pendingLines⟩
      else none }

/-- Let go of a selection: a click that was held back is sent to the pane. -/
def finishSelection (self : App) (selection : TerminalSelection)
    (position viewport : CellPosition) (release : MouseInput) : App :=
  let self := { self with selectionAutoscroll := none, selection := none }
  let dragging := selection.dragging || position ≠ selection.anchor
  if dragging then
    let retained := { selection with head := position, dragging := true, forwardedClick := none }
    { self with selection := some retained }
  else
    match selection.forwardedClick with
    | some press =>
        let row := UInt16.ofNat (min (viewport.row.toNat + 1) 65535)
        sendMouseInputs world self selection.pane
          [press, { release with column := position.column + 1, row }]
    | none => self

def selectionMouse (self : App) (selection : TerminalSelection) (mouse : MouseInput) : App :=
  match world.clampedPanePosition self mouse selection.pane with
  | none => self
  | some viewport =>
      let position : CellPosition := ⟨viewport.row - selection.viewportOffset, viewport.column⟩
      if mouse.isLeftMotion then
        self.dragSelection selection position
          (world.autoscrollDirection self mouse selection.pane)
      else finishSelection world self selection position viewport mouse

def sidebarMouse (self : App) (mouse : MouseInput) : App :=
  -- Scrolling the sidebar moves nothing but the sidebar.
  if mouse.scrollDirection.isSome then self
  else if mouse.isRightPress then
    match world.sidebarHit self mouse with
    | some (pane, some target) =>
        let self := match pane with
          | some pane => self.selectPane pane
          | none => self
        openContextMenu world self target
    | _ => self
  else if mouse.isLeftPress then
    { self with
      sidebarPress := (world.sidebarHit self mouse).bind (·.1)
      swallowLeftGesture := true }
  else self

def tabMouse (self : App) (mouse : MouseInput) : App :=
  if mouse.isRightPress then
    match world.tabAtColumn self mouse with
    | none => self
    | some tab =>
        let self := if (selectedSnapshotAndPane world.state self.selectedPane).isSome then
          self.go world (.tab tab) else self
        openContextMenu world self (.tab tab)
  else if mouse.isLeftPress then
    let self := match world.tabAtColumn self mouse with
      | some tab => if (selectedSnapshotAndPane world.state self.selectedPane).isSome then
          self.go world (.tab tab) else self
      | none => self
    { self with swallowLeftGesture := true }
  else
    match mouse.scrollDirection with
    | some .up => self.go world (.cycleTab false)
    | some .down => self.go world (.cycleTab true)
    | none => self

def terminalMouse (self : App) (mouse : MouseInput) : App :=
  match world.mousePanePosition self mouse with
  | none => self
  | some (pane, position, localMouse) =>
      if mouse.isRightPress then
        openContextMenu world
          (if self.selectedPane = some pane then self else self.selectPane pane) (.pane pane)
      else if self.selectedPane ≠ some pane then
        if mouse.isLeftPress then { self.selectPane pane with swallowLeftGesture := true } else self
      else if mouse.isVerticalWheel then sendTerminalScroll world self.clearSelection pane localMouse
      else if mouse.isLeftPress then
        let forwardedClick := if paneReportsMouse world self pane && !mouse.shift then
          some localMouse else none
        { self with
          selectionAutoscroll := none
          selection := some ⟨pane, position, position, 0, false, forwardedClick⟩ }
      else sendMouseInputs world self pane [localMouse]

def finishUiLeftGesture (self : App) : App :=
  match self.sidebarPress with
  | some pane => { self with swallowLeftGesture := false, sidebarPress := none }.selectPane pane
  | none => { self with swallowLeftGesture := false }

/-- The mouse, where no overlay takes it. -/
def surfaceMouse (self : App) (mouse : MouseInput) : App :=
  if self.lastFrameArea = none then self
  else if self.swallowLeftGesture then
    if mouse.isLeftRelease then self.finishUiLeftGesture else self
  else if mouse.isLeftMotion || mouse.isLeftRelease then
    match self.selection with
    | some selection => selectionMouse world self selection mouse
    | none =>
        match world.region self mouse with
        | .sidebar => sidebarMouse world self mouse
        | .tabs => tabMouse world self mouse
        | .elsewhere => terminalMouse world self mouse
  else
    match world.region self mouse with
    | .sidebar => sidebarMouse world self mouse
    | .tabs => tabMouse world self mouse
    | .elsewhere => terminalMouse world self mouse

/-- The overlays, and modes, that keep the mouse from what is under them. -/
def mouseBlocked (self : App) : Bool :=
  self.mode ≠ .terminal || self.agentNavigator.isSome || self.pairing.isSome ||
    self.attentionCenter.isSome || self.commandPalette.isSome || self.textPrompt.isSome ||
    self.closeConfirmation.isSome

def handleMouse (self : App) (mouse : MouseInput) : App :=
  match self.contextMenu with
  | some menu => handleContextMenuMouse world self menu mouse
  | none =>
      match self.targetManager with
      | some manager =>
          if self.lastFrameArea = none then self
          else handleTargetManagerMouse world self manager mouse
      | none => if self.mouseBlocked then self else surfaceMouse world self mouse

/-! ### Pastes -/

/-- The overlays, and modes, that keep a paste from the pane. -/
def pasteBlocked (self : App) : Bool :=
  self.mode ≠ .terminal || self.targetManager.isSome || self.agentNavigator.isSome ||
    self.pairing.isSome || self.attentionCenter.isSome || self.commandPalette.isSome ||
    self.contextMenu.isSome || self.textPrompt.isSome || self.closeConfirmation.isSome

def handlePaste (self : App) (bytes : List UInt8) : App :=
  if self.pasteBlocked then self
  else
    match utf8? bytes with
    | none => self
    | some text =>
        -- A drop reaches this the same way a paste does.
        let files := world.droppedFiles text
        if files = [] then pasteTextIntoSelected world self .pasted text
        else
          match uploadDestination world self with
          | (self, .ok pane) => sendLocalFiles world self .dropped pane files
          | (self, .error _) => self

/-- The control key an arrow key stands for in a list of choices. -/
def navigationKey (self : App) (bytes : List UInt8) : Option UInt8 :=
  if self.commandPalette.isSome || self.contextMenu.isSome || self.targetManager.isSome then
    if bytes = [0x1b, 0x5b, 0x41] then some 0x10
    else if bytes = [0x1b, 0x5b, 0x42] then some 0x0e
    else none
  else none

def handleDecodedInput (self : App) (input : DecodedInput) : App :=
  match input with
  | .bytes bytes =>
      match self.navigationKey bytes with
      | some key => handleInput world self key
      | none =>
          if 1 < bytes.length ∧ self.mode = .terminal ∧ !self.hasModalOverlay then
            forwardPaneBytes world self bytes
          else handleBytes world bytes self
  | .mouse mouse => handleMouse world self mouse
  | .paste bytes => handlePaste world self bytes
  | .pasteTooLarge => self

/-! ### The daemon -/

/-- Two polling intervals, in seconds. -/
def FOLLOW_FOCUS_TIMEOUT : ℕ := 10

/-- How long a pane whose route closed is left alone, in seconds. -/
def ROUTE_RETRY_DELAY : ℕ := 2

/-- What a frame does to a selection that is dragged over its pane. -/
def updateSelectionAfterFrame (self : App) (pane : PaneId) (before after : Parser) : App :=
  match self.selection with
  | none => { self with selectionAutoscroll := none }
  | some selection =>
      if selection.pane ≠ pane then { self with selectionAutoscroll := none }
      else
        match self.selectionAutoscroll with
        | none => self
        | some autoscroll =>
            if autoscroll.pane ≠ pane ∨ autoscroll.pendingLines = 0 then self
            else
              match world.viewportShift before after autoscroll.direction with
              | none => self
              | some lines =>
                  let viewportOffset := match autoscroll.direction with
                    | .up => selection.viewportOffset + lines
                    | .down => selection.viewportOffset - lines
                  let row : ℤ := match autoscroll.direction with
                    | .up => 0
                    | .down => (after.rows.toNat - 1 : ℕ)
                  { self with
                    selection := some { selection with
                      viewportOffset, head := ⟨row - viewportOffset, autoscroll.column⟩ }
                    selectionAutoscroll := some { autoscroll with
                      pendingLines := autoscroll.pendingLines - lines } }

def paneFrame (self : App) (pane : PaneId) (sequence : ℕ) (width height : UInt16) (full : Bool)
    (bytes : List UInt8) : App :=
  match self.routes[pane]? with
  | none => self
  | some route =>
      let parser : Parser := if full ∨ route.rows ≠ height ∨ route.columns ≠ width then
        ⟨height, width, []⟩ else route.parser
      let after := { parser with processed := parser.processed ++ bytes }
      let routes := self.routes.insert pane { route with
        rows := height, columns := width, parser := after, lastSequence := some sequence }
      updateSelectionAfterFrame world { self with routes } pane route.parser after

def operationResult (self : App) (request : ℕ) (applied : Bool) : App :=
  let pending := self.pendingOperations[request]?
  let self := { self with
    herdrActionInflight := false, pendingOperations := self.pendingOperations.erase request }
  match pending with
  | some ⟨true, session⟩ =>
      if applied then
        let before := match world.state.targets[session]?.bind TargetRuntimeState.snapshot with
          | some snapshot => snapshot.panes.toList.map (·.1)
          | none => []
        { self with
          selectedPane := none
          followedFocus := some ⟨session, before, world.now + FOLLOW_FOCUS_TIMEOUT⟩ }
      else self
  | _ => self

/-- Whether a newer catalogue of a target is held or asked for. -/
def newerCatalog (self : App) (target : TargetSession) (generation : ℕ) : Bool :=
  (self.pluginCatalogs[target]?.any fun current => generation < current.generation) ||
    self.pendingPluginCatalogs.toList.any fun entry =>
      entry.2.target = target ∧ generation < entry.2.generation

/-- A context menu that is open on a target gets its plugin actions. -/
def refreshMenu (menu : ContextMenu) (catalog : List PluginAction) : ContextMenu :=
  let actions := insertPluginActions (menu.actions.filter (!·.isPluginAction)) catalog
    menu.target.invocation
  { menu with actions, selected := min menu.selected (actions.length - 1) }

def pluginActions (self : App) (request : ℕ) (target : TargetSession) (generation : ℕ)
    (actions : List PluginAction) : App :=
  match self.pendingPluginCatalogs[request]? with
  | none => self
  | some pending =>
      let self := { self with pendingPluginCatalogs := self.pendingPluginCatalogs.erase request }
      if pending.target ≠ target ∨ pending.generation ≠ generation then self
      else if self.newerCatalog target generation then self
      else
        let actions := actions.filter fun action => action.id.target = target
        { self with
          contextMenu := self.contextMenu.map fun menu =>
            if menu.target.targetSession = target then refreshMenu menu actions else menu
          pluginCatalogs := self.pluginCatalogs.insert target ⟨generation, actions, world.now⟩ }

def downloadOffer (self : App) (request : ℕ) (name : String) (length : ℕ) (digest : String) :
    App :=
  if self.fileSaveRequest ≠ some request then self
  else if world.saveOpens name then
    { self with fileSave := some ⟨request, name, length, digest, [], SAVE_WINDOW_CHUNKS⟩ }.send
      (.pullDownload request SAVE_WINDOW_CHUNKS)
  else { self with fileSaveRequest := none }.send (.cancelDownload request)

def downloadChunk (self : App) (request : ℕ) (bytes : List UInt8) : App :=
  match self.fileSave with
  | none => self
  | some save =>
      if save.request ≠ request then self
      else if save.length - save.received.length < bytes.length ∨ !world.saveWrites then
        { self with fileSave := none, fileSaveRequest := none }.send (.cancelDownload request)
      else
        let received := save.received ++ bytes
        let outstanding := save.outstanding - 1
        if save.length ≤ received.length ∨ 0 < outstanding then
          { self with fileSave := some { save with received, outstanding } }
        else
          { self with
            fileSave := some { save with received, outstanding := SAVE_WINDOW_CHUNKS } }.send
            (.pullDownload request SAVE_WINDOW_CHUNKS)

def downloadFinished (self : App) (request : ℕ) : App :=
  match self.fileSave with
  | none => self
  | some save =>
      let self := { self with fileSave := none }
      if save.request ≠ request then self else { self with fileSaveRequest := none }

/-- A refusal ends whatever asked for it. -/
def requestFailed (self : App) (request : ℕ) (message : String) : App :=
  match self.pendingPluginCatalogs[request]? with
  | some pending =>
      let self := { self with pendingPluginCatalogs := self.pendingPluginCatalogs.erase request }
      if self.newerCatalog pending.target pending.generation then self
      else
        { self with pluginCatalogs :=
            self.pluginCatalogs.insert pending.target ⟨pending.generation, [], world.now⟩ }
  | none =>
      match failUpload world self request message with
      | (self, true) => self
      | (self, false) =>
          if self.pendingOperations.contains request then
            { self with
              pendingOperations := self.pendingOperations.erase request
              herdrActionInflight := false }
          else self

/-- Apply one message from the daemon that is not federation state. -/
def handleDaemonEvent (self : App) (message : ServerMessage) : App :=
  match message with
  | .paneFrame pane sequence width height full bytes =>
      paneFrame world self pane sequence width height full bytes
  | .paneLease pane access =>
      { self with routes := self.routes.modify pane fun route => { route with access } }
  | .paneClosed pane =>
      { self with
        routes := self.routes.erase pane
        routeRetryAfter := self.routeRetryAfter.insert pane (world.now + ROUTE_RETRY_DELAY) }
  | .operationResult request applied _ _ => operationResult world self request applied
  | .pluginActions request target generation actions =>
      pluginActions world self request target generation actions
  | .downloadOffer request name length digest => downloadOffer world self request name length digest
  | .downloadChunk request bytes => downloadChunk world self request bytes
  | .downloadFinished request => self.downloadFinished request
  | .uploadComplete request path _ => uploadComplete world self request path
  | .pairingCode _ code expiresInSeconds url =>
      { self with pairing := some ⟨code, url, expiresInSeconds⟩ }
  | .pairingApprovalRequired attempt name confirmation expiresInSeconds =>
      { self with
        pairing := none
        pairingApproval := some ⟨attempt, name, confirmation, expiresInSeconds⟩ }
  | .pairingDecision attempt _ _ =>
      if self.pairingApproval.any fun approval => approval.attempt = attempt then
        { self with pairingApproval := none }
      else self
  | .error (some request) message => requestFailed world self request message
  | .attention event =>
      if event.unread then { self with attention := (self.attention.apply event).1 } else self
  | .attentionHistory events => { self with attention := .mirror events }
  | _ => self

/-! ### Redraws and ticks -/

/-- The pane a frontend that has none selected starts with. -/
def startupPane (state : FederationState) : Option PaneId :=
  let snapshots := state.targets.toList.filterMap fun entry => entry.2.liveSnapshot
  let rank (snapshot : NormalizedSnapshot) : ℕ ×ₗ ℕ ×ₗ ℕ :=
    toLex (snapshot.counts.agents, toLex (snapshot.counts.workspaces, snapshot.counts.panes))
  -- The last of the busiest.
  let busiest := snapshots.foldl (fun best snapshot => match best with
    | none => some snapshot
    | some held => if rank held ≤ rank snapshot then some snapshot else some held)
    (none : Option NormalizedSnapshot)
  busiest.bind fun snapshot =>
    snapshot.focusedPane <|> (snapshot.panes.toList.map (·.1)).head?

/-- Adopt the startup pane where nothing is selected. -/
def selectStartup (self : App) : App :=
  match startupPane world.state with
  | none => self
  | some pane => { self.clearSelection with selectedPane := some pane, routeRetryAfter := ∅ }

/-- Nothing is selected: follow an operation, or start. -/
def followOrStart (self : App) : App :=
  match self.followedFocus with
  | none => selectStartup world self
  | some followed =>
      let focused := (world.state.targets[followed.session]?.bind
        TargetRuntimeState.liveSnapshot).bind (·.focusedPane)
      let expired := followed.deadline ≤ world.now
      match focused.filter (· ∉ followed.before) <|> (if expired then focused else none) with
      | some pane => { self with followedFocus := none }.selectPane pane
      | none =>
          if !expired then self else selectStartup world { self with followedFocus := none }

def reconcileSelection (self : App) : App :=
  let settled (self : App) : App :=
    if self.selectedPane.isSome then self else followOrStart world self
  match self.restorePending with
  | none => settled self
  | some persisted =>
      match world.state.targets[persisted.targetSession]? with
      | none => settled { self with restorePending := none }
      | some target =>
          if target.connection ≠ .live then self
          else if persisted ∈ selectablePanes world.state then
            { self with restorePending := none, selectedPane := some persisted }
          else settled { self with restorePending := none }

/-- Only the selected pane asks for control. -/
def desiredAccess (pane selected : PaneId) : TerminalAccess :=
  if pane = selected then .control else .observe

/-- Whether a route is as the layout wants it. -/
def keepsRoute (selected : PaneId) (desired : ExtTreeMap PaneId Size) (pane : PaneId)
    (route : ActiveRoute) : Bool :=
  match desired[pane]?, world.state.targets[pane.targetSession]? with
  | some inner, some runtime =>
      route.requested = desiredAccess pane selected ∧
        route.generation = runtime.connectionGeneration ∧
        route.rows = inner.height ∧ route.columns = inner.width
  | _, _ => false

/-- Subscribe to a pane that is wanted and not held. -/
def openRoute (selected : PaneId) (self : App) (pane : PaneId) (inner : Size) : App :=
  if self.routes.contains pane ∨
      (self.routeRetryAfter[pane]?.any fun retry => world.now < retry) then self
  else
    match world.state.targets[pane.targetSession]? with
    | none => self
    | some runtime =>
        let route : ActiveRoute :=
          { pane
            requested := desiredAccess pane selected
            access := .observe
            generation := runtime.connectionGeneration
            rows := inner.height
            columns := inner.width
            parser := ⟨inner.height, inner.width, []⟩
            lastSequence := none }
        { self with routes := self.routes.insert pane route }.send
          (.subscribePane pane route.requested inner.width inner.height .frames)

/-- Reconcile the daemon subscriptions with what the layout wants on screen. -/
def ensureRoutes (self : App) : App :=
  match self.selectedPane with
  | none =>
      (self.routes.toList.map (·.1)).foldl (fun self pane => self.send (.unsubscribePane pane))
        { self with routes := ∅ }
  | some selected =>
      let self := { self with lastFrameArea := some world.frameArea }
      let desired : ExtTreeMap PaneId Size := ExtTreeMap.ofList
        ((world.visiblePanes self).filter fun entry => 0 < entry.2.width ∧ 0 < entry.2.height)
      let released := (self.routes.toList.filter fun entry =>
        !keepsRoute world selected desired entry.1 entry.2).map (·.1)
      let self := { self with routes := self.routes.filter (keepsRoute world selected desired) }
      let self := released.foldl (fun self pane => self.send (.unsubscribePane pane)) self
      desired.toList.foldl (fun self entry => openRoute world selected self entry.1 entry.2) self

/-- What is done before the screen is drawn. -/
def draw (self : App) : App :=
  { ensureRoutes world (reconcileSelection world self) with lastFrameArea := some world.frameArea }

/-- A selection that is dragged over an edge scrolls its pane. -/
def tickSelectionAutoscroll (self : App) : App :=
  match self.selectionAutoscroll with
  | none => self
  | some autoscroll =>
      let stop : App := { self with selectionAutoscroll := none }
      match self.selection, self.routes[autoscroll.pane]? with
      | some selection, some route =>
          if selection.pane ≠ autoscroll.pane ∨ !selection.dragging then stop
          else if route.access ≠ .control then stop
          else
            let row := match autoscroll.direction with
              | .up => 0
              | .down => zeroBased route.rows
            let moved := { autoscroll with pendingLines := autoscroll.pendingLines + 1 }
            { self with selectionAutoscroll := some moved }.perform
              (.send .autoscroll
                (.paneScroll autoscroll.pane autoscroll.direction 1 autoscroll.column row 0))
      | _, _ => stop

/-- Route a clicked notification to its pane. -/
def jumpFromNotification (self : App) (pane : PaneId) : App :=
  if paneIsLive world.state pane then self.selectPane pane else self.markAttentionSeen pane

def tick (self : App) : App :=
  { self with
    lastFrameArea := some world.frameArea
    routeRetryAfter := self.routeRetryAfter.filter fun _ retry => world.now < retry }

/-- The configuration was read again. -/
def configurationRefreshed (self : App) (configuredTargets : List String)
    (resolvedTargets : ExtTreeMap TargetSession (Option String)) (maxTransferBytes : ℕ) : App :=
  { self with
    configuredTargets
    resolvedTargets
    maxTransferBytes
    targetManager := self.targetManager.map fun manager =>
      if manager.mode = .list then
        { manager with
          targets := configuredTargets
          selected := min manager.selected (configuredTargets.length - 1) }
      else manager }

/-! ### The loop -/

inductive Move
  | input (input : DecodedInput)
  | daemon (message : ServerMessage)
  /-- A streamed upload stopped before the daemon could rule on it. -/
  | uploadFailed (request : ℕ) (message : String)
  | activated (pane : PaneId)
  /-- The federation was published again. -/
  | published
  | draw
  | autoscroll
  | tick
  | configuration (configuredTargets : List String)
      (resolvedTargets : ExtTreeMap TargetSession (Option String)) (maxTransferBytes : ℕ)

def handle (self : App) (move : Move) : App :=
  match move with
  | .input input => handleDecodedInput world self input
  | .daemon message => handleDaemonEvent world self message
  | .uploadFailed request message => (failUpload world self request message).1
  | .activated pane => jumpFromNotification world self pane
  | .published => ensurePluginCatalogs world self
  | .draw => draw world self
  | .autoscroll => self.tickSelectionAutoscroll
  | .tick => tick world self
  | .configuration configuredTargets resolvedTargets maxTransferBytes =>
      self.configurationRefreshed configuredTargets resolvedTargets maxTransferBytes

/-- One turn of the loop, until the person quits: what is sent comes out. -/
def step (self : App) (event : World × Move) : App × List Effect :=
  if self.quitting then (self, [])
  else
    let after := handle event.1 { self with outbox := [] } event.2
    ({ after with outbox := [] }, after.outbox)

end App

end Tui

end SuperHerdr
