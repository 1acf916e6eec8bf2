import SuperHerdr.Tui.App

/-!
# What reaches a pane

Typed bytes, mouse events, pasted text, files and the paths of files: everything the frontend
sends to a pane is sent here, and only through a route that the daemon granted control of.
-/

namespace SuperHerdr

namespace Tui

namespace App

variable (world : World)

/-! ### Keys and the mouse -/

/-- Send bytes straight to the selected pane's control route, in one message. -/
def forwardPaneBytes (self : App) (bytes : List UInt8) : App :=
  let self := self.clearSelection
  match self.selectedPane with
  | none => self
  | some selected =>
      match self.routes[selected]? with
      | none => self
      | some route =>
          match world.state.targets[route.pane.targetSession]? with
          | none => self.dropRoute selected
          | some target =>
              if !target.acceptsGeneration route.generation then self.dropRoute selected
              else if route.access = .control then
                self.perform (.send .typed (.paneInput selected bytes))
              else self

def sendTerminalScroll (self : App) (pane : PaneId) (mouse : MouseInput) : App :=
  match mouse.scrollDirection, self.routes[pane]?, world.state.targets[pane.targetSession]? with
  | some direction, some route, some target =>
      if !target.acceptsGeneration route.generation then self.dropRoute pane
      else if route.access = .control then
        self.perform (.send .mouse (.paneScroll pane direction MOUSE_SCROLL_LINES
          (zeroBased mouse.column) (zeroBased mouse.row) mouse.keyModifiers))
      else self
  | _, _, _ => self

/-- What a pane's program is told of some mouse events. -/
def mouseBytes (parser : Parser) (events : List MouseInput) : List UInt8 :=
  ((events.filter (mouseEventAllowed (world.emulator.mouseProtocolMode parser))).filterMap
    fun event => encodeMouseEvent event (world.emulator.mouseProtocolEncoding parser)).flatten

def sendMouseInputs (self : App) (pane : PaneId) (events : List MouseInput) : App :=
  match self.routes[pane]?, world.state.targets[pane.targetSession]? with
  | some route, some target =>
      if !target.acceptsGeneration route.generation then self.dropRoute pane
      else
        let bytes := mouseBytes world route.parser events
        if bytes = [] then self
        else if route.access = .control then
          self.perform (.send .mouse (.paneInput pane bytes))
        else self
  | _, _ => self

def paneReportsMouse (self : App) (pane : PaneId) : Bool :=
  match self.routes[pane]? with
  | some route => mousePassthroughEnabled (world.emulator.mouseProtocolMode route.parser)
      (route.access = .control)
  | none => false

/-! ### Pasted text -/

def pasteTextIntoSelected (self : App) (origin : Origin) (text : String) : App :=
  let bytes := text.toUTF8.toList
  if bytes = [] ∨ MAX_CLIPBOARD_BYTES < bytes.length ∨ hasTerminator bytes then self
  else
    match self.selectedPane with
    | none => self
    | some selected =>
        match self.routes[selected]? with
        | none => self
        | some route =>
            if route.access ≠ .control then self
            else
              match world.state.targets[selected.targetSession]? with
              | none => self
              | some runtime =>
                  if !runtime.acceptsGeneration route.generation then self.dropRoute selected
                  else if atomicPasteAvailable self.resolvedTargets selected.targetSession then
                    { self with
                      nextRequest := self.nextRequest + 1
                      pendingOperations := self.pendingOperations.insert self.nextRequest
                        ⟨false, selected.targetSession⟩ }.perform
                      (.send origin (.pastePaneText self.nextRequest selected text))
                  else
                    let bracketed := world.emulator.bracketedPaste route.parser
                    if !bracketed && bytes.any fun byte => byte = 0x0d ∨ byte = 0x0a then self
                    else
                      match terminalPastePayload bytes bracketed with
                      | none => self
                      | some payload => self.perform (.send origin (.paneInput selected payload))

def pasteSystemClipboard (self : App) : App :=
  match world.clipboardText with
  | none => self
  | some text => pasteTextIntoSelected world self .clipboard text

/-! ### Files -/

/-- The pane a file can actually be sent to, or why it cannot. The frontend may find a route
stale. -/
def uploadDestination (self : App) : App × Except String PaneId :=
  match self.selectedPane with
  | none => (self, .error "no terminal pane is selected")
  | some selected =>
      match world.state.targets[selected.targetSession]? with
      | none => (self, .error "selected target is unavailable")
      | some runtime =>
          match self.routes[selected]? with
          | none => (self, .error "selected pane has no control route")
          | some route =>
              if route.access ≠ .control then
                (self, .error "read-only: another Herdr client owns control; cannot send")
              else if !runtime.acceptsGeneration route.generation then
                (self.dropRoute selected, .error "control route became stale")
              else (self, .ok selected)

/-- Establish that a file can be sent, without reading it. -/
def inspectLocalFile (self : App) (path : String) : Option (String × ℕ) := do
  let file ← world.localFile path
  let name ← file.name
  if file.isFile ∧ file.length ≤ self.maxTransferBytes then some (name, file.length) else none

/-- Offer the files of a batch one after another. -/
def offerFiles (origin : Origin) (selected : PaneId) (batch : ℕ) :
    ℕ → List (String × String × ℕ) → App → App
  | _, [], self => self
  | position, (path, name, length) :: files, self =>
      let offered := { self with
        nextRequest := self.nextRequest + 1
        pendingUploads := self.pendingUploads.insert self.nextRequest
          ⟨name, some ⟨batch, position⟩, selected⟩ }
      offerFiles origin selected batch (position + 1) files
        ((offered.perform (.send origin (.beginUpload self.nextRequest selected
          "application/octet-stream" (some name) length))).perform
            (.stream self.nextRequest path length))

/-- Send files this process can read to a pane, whatever named them. -/
def sendLocalFiles (self : App) (origin : Origin) (selected : PaneId) (files : List String) :
    App :=
  match files.mapM fun path => (inspectLocalFile world self path).map (path, ·) with
  | none => self
  | some offered =>
      let batch := self.nextUploadBatch
      let requests := offered.mapIdx fun position file => (self.nextRequest + position, file.2.1)
      let self := offerFiles origin selected batch 0 offered
        { self with nextUploadBatch := self.nextUploadBatch + 1 }
      { self with uploadBatches :=
          self.uploadBatches.insert batch ⟨offered.length, ∅, [], selected⟩ }.perform
        (.started batch requests)

/-- Offer a clipboard payload, chunked to stay inside the message bound. -/
def uploadMedia (self : App) (pane : PaneId) (mime : String) (bytes : List UInt8) : App :=
  let request := self.nextRequest
  let self := { self with nextRequest := self.nextRequest + 1 }
  let self := self.perform (.send .clipboard (.beginUpload request pane mime none bytes.length))
  let self := (bytes.toChunks UPLOAD_CHUNK_BYTES).foldl
    (fun self chunk => self.send (.uploadChunk request chunk)) self
  let self := self.send (.finishUpload request (world.digest bytes))
  { self with pendingUploads := self.pendingUploads.insert request ⟨mime, none, pane⟩ }

def pasteClipboardMedia (self : App) : App :=
  match uploadDestination world self with
  | (self, .error _) => self
  | (self, .ok selected) =>
      match world.clipboardMedia with
      | some (mime, payload) => uploadMedia world self selected mime payload
      | none =>
          if world.clipboardFiles = [] then self
          else sendLocalFiles world self .clipboard selected world.clipboardFiles

/-! ### Uploads that end -/

/-- Paste paths the daemon verified into the selected pane, each as one shell word. -/
def pasteVerifiedPaths (self : App) (destination : PaneId) (paths : List String) : App :=
  match self.selectedPane with
  | none => self
  | some selected =>
      match self.routes[selected]? with
      | none => self
      | some route =>
          if route.access ≠ .control then self
          else
            let text := " ".intercalate (paths.map shellQuotedPath)
            match terminalPastePayload text.toUTF8.toList
                (world.emulator.bracketedPaste route.parser) with
            | none => self
            | some payload =>
                self.perform (.send (.verified destination) (.paneInput selected payload))

/-- What a finished batch amounts to: its paths, in the order they were copied. -/
def settledBatch (state : UploadBatch) : List String := state.paths.toList.map (·.2)

def settleUploadBatch (self : App) (batch : ℕ) : App :=
  match self.uploadBatches[batch]? with
  | none => self
  | some state =>
      if state.paths.size + state.failures.length < state.expected then self
      else
        let self := { self with uploadBatches := self.uploadBatches.erase batch }
        let self := self.perform (.settled batch state)
        let paths := settledBatch state
        if paths = [] then self else pasteVerifiedPaths world self state.destination paths

/-- Change a batch that is still waited for. -/
def modifyBatch (self : App) (batch : ℕ) (change : UploadBatch → UploadBatch) : App :=
  match self.uploadBatches[batch]? with
  | none => self
  | some state => { self with uploadBatches := self.uploadBatches.insert batch (change state) }

/-- Settle one upload that failed, and say whether the request was one. -/
def failUpload (self : App) (request : ℕ) (message : String) : App × Bool :=
  match self.pendingUploads[request]? with
  | none => (self, false)
  | some pending =>
      let self := { self with pendingUploads := self.pendingUploads.erase request }
      match pending.batch with
      | none => (self, true)
      | some entry =>
          let self := self.modifyBatch entry.batch fun state =>
            { state with failures := state.failures ++ [s!"{pending.described}: {message}"] }
          (settleUploadBatch world self entry.batch, true)

def uploadComplete (self : App) (request : ℕ) (path : String) : App :=
  match self.pendingUploads[request]? with
  | none => self
  | some pending =>
      let self := { self with pendingUploads := self.pendingUploads.erase request }
      match pending.batch with
      | some entry =>
          let self := self.modifyBatch entry.batch fun state =>
            { state with paths := state.paths.insert entry.position path }
          settleUploadBatch world self entry.batch
      | none => pasteVerifiedPaths world self pending.destination [path]

end App

end Tui

end SuperHerdr
