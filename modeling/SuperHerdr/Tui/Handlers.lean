import SuperHerdr.Tui.Frames

/-!
# What each handler does

One lemma for each function of the frontend: what it may send and remember, and whether it may
open an overlay. A handler that was given an overlay has taken it off the frontend, so its lemma
is about the state without it. What only some keys do, a scope has to allow only for these.
-/

namespace SuperHerdr

namespace Tui

open Std

/-- What the frontend sends of its own: no part of an event, and no path of an upload. -/
def Origin.Own (origin : Origin) : Prop :=
  origin.carries = false ∧ ∀ pane, origin ≠ .verified pane

/-- A scope that allows what the frontend does of its own, but to double the prefix key. -/
structure Scope.Handles (scope : Scope) : Prop where
  own : ∀ origin, origin.Own → origin ≠ .literal → scope.origins origin
  navigates : scope.navigates

theorem Scope.Handles.plain {scope : Scope} (h : scope.Handles) : scope.origins .plain :=
  h.own .plain ⟨rfl, by simp⟩ (by simp)

namespace App

variable {scope : Scope} (world : World) (self : App)

/-! ### What is done everywhere -/

theorem quiet_clearSelection : self.Quiet scope self.clearSelection := .of_eq rfl rfl rfl

theorem quiet_send {message : ClientMessage} (hplain : scope.origins .plain)
    (hreaches : reachesPane message = false) (hnews : (Effect.send .plain message).news = none) :
    self.Quiet scope (self.send message) :=
  quiet_perform self (Effect.within_send hplain hreaches) hnews

theorem quiet_dropRoute (hdrops : scope.drops) (pane : PaneId) :
    self.Quiet scope (self.dropRoute pane) := by
  refine .of_acts rfl rfl (.forget hdrops (self.routes.erase pane) ?_)
  intro other route hroute
  rw [ExtTreeMap.getElem?_erase] at hroute
  split at hroute
  · cases hroute
  · exact hroute

theorem quiet_markAttentionSeen (hplain : scope.origins .plain) (pane : PaneId) :
    self.Quiet scope (self.markAttentionSeen pane) := by
  have hmarked : self.Quiet scope
      { self with attention := (self.attention.markSeenForPane pane).1 } := .of_eq rfl rfl rfl
  simp only [markAttentionSeen]
  split
  · exact hmarked.trans (quiet_send _ hplain rfl rfl)
  · exact hmarked

theorem quiet_selectPane (h : scope.Handles) (pane : PaneId) :
    self.Quiet scope (self.selectPane pane) := by
  refine Quiet.trans ?_ (quiet_markAttentionSeen _ h.plain pane)
  exact .of_acts rfl rfl (.adopt h.navigates (some pane) none none (fun _ => rfl) (.inl rfl))

theorem quiet_go (h : scope.Handles) (navigation : Navigation) :
    self.Quiet scope (self.go world navigation) := by
  rw [go]
  split
  · exact quiet_selectPane self h _
  · exact .refl self

theorem quiet_runOperation (h : scope.Handles) (operation : Operation)
    (followServerFocus : Bool) :
    self.Quiet scope (self.runOperation operation followServerFocus) := by
  rw [runOperation]
  split
  · exact .refl self
  · next hidle =>
    have hidle : self.memory.inflight = false := by simpa [memory] using hidle
    refine .of_effect rfl rfl (Effect.within_send h.plain rfl) rfl ?_
    exact .run ⟨followServerFocus, operation.destinationSession⟩ hidle

theorem quiet_runSelectedPaneOperation (h : scope.Handles) (build : PaneId → Operation)
    (followServerFocus : Bool) :
    self.Quiet scope (self.runSelectedPaneOperation build followServerFocus) := by
  rw [runSelectedPaneOperation]
  split
  · exact .refl self
  · exact quiet_runOperation self h _ _

theorem quiet_ensurePluginCatalog (hplain : scope.origins .plain) (target : TargetSession) :
    self.Quiet scope (ensurePluginCatalog world self target) := by
  rw [ensurePluginCatalog]
  split
  · exact .refl self
  · next runtime _ =>
    dsimp only
    split_ifs
    · exact .refl self
    · exact .refl self
    · refine .of_effect rfl rfl (Effect.within_send hplain rfl) rfl ?_
      refine .nothing (self.nextRequest + 1) _ (Nat.le_succ _) fun request hmem => ?_
      rcases ExtTreeMap.mem_insert.mp hmem with hfresh | hmem
      · right
        have heq : self.nextRequest = request := by simpa using hfresh
        simp only [memory]
        omega
      · exact .inl hmem

theorem quiet_ensurePluginCatalogs (hplain : scope.origins .plain) :
    self.Quiet scope (ensurePluginCatalogs world self) := by
  refine Quiet.trans ?_
    (quiet_foldl (fun self target => quiet_ensurePluginCatalog world self hplain target) _ _)
  exact .of_eq rfl rfl rfl

/-- The keys that go from pane to pane, where there is no pane left. -/
def cycleDrops : Prop := selectablePanes world.state = [] ∧ self.routes ≠ ∅

theorem quiet_cyclePane (h : scope.Handles) (hdrops : cycleDrops world self → scope.drops)
    (forward : Bool) : self.Quiet scope (cyclePane world self forward) := by
  simp only [cyclePane]
  split
  · next hpanes =>
    have hlost : self.Quiet scope { self.clearSelection with selectedPane := none } :=
      (quiet_clearSelection self).trans (.of_acts rfl rfl
        (.adopt h.navigates none self.restorePending self.followedFocus (by simp) (.inr rfl)))
    by_cases hroutes : self.routes = ∅
    · refine hlost.trans (.of_eq rfl ?_ rfl)
      simp only [memory, hroutes, clearSelection]
    · refine hlost.trans (.of_acts rfl rfl (.forget (hdrops ⟨hpanes, hroutes⟩) ∅ ?_))
      simp
  · split
    · exact .refl self
    · split
      · exact .refl self
      · exact quiet_selectPane self h _

theorem quiet_cancelFileSave (hplain : scope.origins .plain) :
    self.Quiet scope self.cancelFileSave := by
  rw [cancelFileSave]
  split
  · exact .refl self
  · next request hrequest =>
    have hwithin : (Effect.send .plain (.cancelDownload request)).Within scope :=
      Effect.within_send hplain rfl
    exact .of_effect rfl rfl hwithin rfl (.cancel request hrequest)

/-! ### What reaches a pane -/

/-- Whether a route a key would go through has lost its target, or a newer connection has. -/
def forwardDrops : Prop :=
  ∃ selected route, self.selectedPane = some selected ∧ self.routes[selected]? = some route ∧
    ∀ target, world.state.targets[route.pane.targetSession]? = some target →
      target.acceptsGeneration route.generation = false

/-- Whether the mouse would find the route of a pane stale. -/
def mouseDrops (pane : PaneId) : Prop :=
  ∃ route target, self.routes[pane]? = some route ∧
    world.state.targets[pane.targetSession]? = some target ∧
    target.acceptsGeneration route.generation = false

/-- Whether a paste or a file would find the control route of the selected pane stale. -/
def controlDrops : Prop :=
  ∃ selected route target, self.selectedPane = some selected ∧
    self.routes[selected]? = some route ∧ route.access = .control ∧
    world.state.targets[selected.targetSession]? = some target ∧
    target.acceptsGeneration route.generation = false

/-- Whether the selected pane can be typed into. -/
def Typeable : Prop :=
  ∃ selected route target, self.selectedPane = some selected ∧
    self.routes[selected]? = some route ∧
    world.state.targets[route.pane.targetSession]? = some target ∧
    target.acceptsGeneration route.generation = true ∧ route.access = .control

/-- Whether the mouse can be sent to a pane through a route. -/
def Pointable (pane : PaneId) (route : ActiveRoute) : Prop :=
  self.routes[pane]? = some route ∧ route.access = .control ∧
    ∃ target, world.state.targets[pane.targetSession]? = some target ∧
      target.acceptsGeneration route.generation = true

theorem quiet_forwardPaneBytes (htyped : Typeable world self → scope.origins .typed)
    (hdrops : forwardDrops world self → scope.drops) (bytes : List UInt8) :
    self.Quiet scope (forwardPaneBytes world self bytes) := by
  have hcleared : self.Quiet scope self.clearSelection := quiet_clearSelection self
  refine hcleared.trans ?_
  simp only [forwardPaneBytes]
  split
  · exact .refl _
  · next selected hselected =>
    split
    · exact .refl _
    · next route hroute =>
      split
      · next htarget =>
        refine quiet_dropRoute _ (hdrops ?_) _
        exact ⟨selected, route, hselected, hroute, by simp [htarget]⟩
      · next target htarget =>
        split
        · next haccepts =>
          refine quiet_dropRoute _ (hdrops ⟨selected, route, hselected, hroute, ?_⟩) _
          rintro other hother
          cases htarget.symm.trans hother
          simpa using haccepts
        · next haccepts =>
          split
          · next hcontrol =>
            have hsent : scope.origins .typed := htyped
              ⟨selected, route, target, hselected, hroute, htarget, by simpa using haccepts, hcontrol⟩
            exact quiet_perform _ (Effect.within_send hsent trivial) rfl
          · exact .refl _

theorem forwardPaneBytes_of_typeable (h : Typeable world self) (bytes : List UInt8) :
    ∃ pane, self.selectedPane = some pane ∧ forwardPaneBytes world self bytes =
      self.clearSelection.perform (.send .typed (.paneInput pane bytes)) := by
  obtain ⟨selected, route, target, hselected, hroute, htarget, haccepts, hcontrol⟩ := h
  refine ⟨selected, hselected, ?_⟩
  simp [forwardPaneBytes, clearSelection, hselected, hroute, htarget, haccepts, hcontrol]

theorem quiet_sendTerminalScroll (pane : PaneId) (mouse : MouseInput)
    (hmouse : mouse.scrollDirection.isSome → (∃ route, Pointable world self pane route) →
      scope.origins .mouse)
    (hdrops : mouseDrops world self pane → scope.drops) :
    self.Quiet scope (sendTerminalScroll world self pane mouse) := by
  rw [sendTerminalScroll]
  split
  · next direction route target hdirection hroute htarget =>
    split
    · next haccepts =>
      refine quiet_dropRoute _ (hdrops ?_) _
      exact ⟨route, target, hroute, htarget, by simpa using haccepts⟩
    · next haccepts =>
      split
      · next hcontrol =>
        have hsent : scope.origins .mouse := hmouse (by simp [hdirection])
          ⟨route, hroute, hcontrol, target, htarget, by simpa using haccepts⟩
        exact quiet_perform _ (Effect.within_send hsent trivial) rfl
      · exact .refl _
  · exact .refl _

theorem quiet_sendMouseInputs (pane : PaneId) (events : List MouseInput)
    (hmouse : ∀ route, Pointable world self pane route →
      mouseBytes world route.parser events ≠ [] → scope.origins .mouse)
    (hdrops : mouseDrops world self pane → scope.drops) :
    self.Quiet scope (sendMouseInputs world self pane events) := by
  rw [sendMouseInputs]
  split
  · next route target hroute htarget =>
    split
    · next haccepts =>
      refine quiet_dropRoute _ (hdrops ?_) _
      exact ⟨route, target, hroute, htarget, by simpa using haccepts⟩
    · next haccepts =>
      dsimp only
      split_ifs with hbytes hcontrol
      · exact .refl _
      · have hsent : scope.origins .mouse :=
          hmouse route ⟨hroute, hcontrol, target, htarget, by simpa using haccepts⟩ hbytes
        exact quiet_perform _ (Effect.within_send hsent trivial) rfl
      · exact .refl _
  · exact .refl _

/-- Whether a text is one that is pasted at all. -/
def pasteable (text : String) : Prop :=
  ¬(text.toUTF8.toList = [] ∨ MAX_CLIPBOARD_BYTES < text.toUTF8.toList.length ∨
    hasTerminator text.toUTF8.toList)

/-- Whether the selected pane takes a text: its target can paste it at once, or its program can be
typed it. -/
def TextTaken (text : String) : Prop :=
  ∃ selected route target, self.selectedPane = some selected ∧
    self.routes[selected]? = some route ∧ route.access = .control ∧
    world.state.targets[selected.targetSession]? = some target ∧
    target.acceptsGeneration route.generation = true ∧
    (atomicPasteAvailable self.resolvedTargets selected.targetSession = true ∨
      world.emulator.bracketedPaste route.parser = true ∨
      (text.toUTF8.toList.any fun byte => byte = 0x0d ∨ byte = 0x0a) = false)

theorem quiet_pasteTextIntoSelected {origin : Origin} (text : String)
    (horigin : pasteable text → TextTaken world self text → scope.origins origin)
    (hhonest : ∀ message, (Effect.send origin message).Honest)
    (hdrops : pasteable text → controlDrops world self → scope.drops) :
    self.Quiet scope (pasteTextIntoSelected world self origin text) := by
  rw [pasteTextIntoSelected]
  dsimp only
  split
  · exact .refl self
  · next hpasteable =>
    split
    · exact .refl self
    · next selected hselected =>
      split
      · exact .refl self
      · next route hroute =>
        split
        · exact .refl self
        · next hcontrol =>
          have hcontrol : route.access = .control := by simpa using hcontrol
          split
          · exact .refl self
          · next target htarget =>
            split
            · next haccepts =>
              refine quiet_dropRoute _ (hdrops hpasteable ?_) _
              exact ⟨selected, route, target, hselected, hroute, hcontrol, htarget,
                by simpa using haccepts⟩
            · next haccepts =>
              have haccepts : target.acceptsGeneration route.generation = true := by
                simpa using haccepts
              have hsent := fun h => horigin hpasteable
                ⟨selected, route, target, hselected, hroute, hcontrol, htarget, haccepts, h⟩
              split
              · next hatomic =>
                refine .of_effect rfl rfl (Effect.within_send (hsent (.inl hatomic)) (hhonest _)) rfl ?_
                exact .paste selected.targetSession
              · split
                · exact .refl self
                · next hlines =>
                  have htyped : world.emulator.bracketedPaste route.parser = true ∨
                      (text.toUTF8.toList.any fun byte => byte = 0x0d ∨ byte = 0x0a) = false := by
                    cases hbracketed : world.emulator.bracketedPaste route.parser
                    · exact .inr (by simpa [hbracketed] using hlines)
                    · exact .inl rfl
                  split
                  · exact .refl self
                  · exact quiet_perform _
                      (Effect.within_send (hsent (.inr htyped)) (hhonest _)) rfl

theorem own_clipboard (h : scope.Handles) : scope.origins .clipboard :=
  h.own .clipboard ⟨rfl, by simp⟩ (by simp)

/-- Whether pasting the clipboard would find the control route stale. -/
def clipboardDrops : Prop :=
  (∃ text, world.clipboardText = some text ∧ pasteable text) ∧ controlDrops world self

theorem quiet_pasteSystemClipboard (h : scope.Handles)
    (hdrops : clipboardDrops world self → scope.drops) :
    self.Quiet scope (pasteSystemClipboard world self) := by
  rw [pasteSystemClipboard]
  split
  · exact .refl self
  · next text htext =>
    exact quiet_pasteTextIntoSelected world self text (fun _ _ => own_clipboard h) (fun _ => trivial)
      fun hpasteable hstale => hdrops ⟨⟨text, htext, hpasteable⟩, hstale⟩

/-! ### Files -/

theorem quiet_uploadDestination (hdrops : controlDrops world self → scope.drops) :
    self.Quiet scope (uploadDestination world self).1 := by
  rw [uploadDestination]
  split
  · exact .refl self
  · next selected hselected =>
    split
    · exact .refl self
    · next target htarget =>
      split
      · exact .refl self
      · next route hroute =>
        split_ifs with hcontrol haccepts
        · exact .refl self
        · refine quiet_dropRoute _ (hdrops ?_) _
          exact ⟨selected, route, target, hselected, hroute, by simpa using hcontrol, htarget,
            by simpa using haccepts⟩
        · exact .refl self

/-- What offering some files sends. -/
def offers (origin : Origin) (pane : PaneId) : ℕ → List (String × String × ℕ) → List Effect
  | _, [] => []
  | request, (path, name, length) :: files =>
      .send origin (.beginUpload request pane "application/octet-stream" (some name) length) ::
        .stream request path length :: offers origin pane (request + 1) files

/-- What offering some files leaves pending. -/
def offered (pane : PaneId) (batch : ℕ) : ℕ → ℕ → List (String × String × ℕ) →
    ExtTreeMap ℕ PendingUpload → ExtTreeMap ℕ PendingUpload
  | _, _, [], uploads => uploads
  | request, position, (_, name, _) :: files, uploads =>
      offered pane batch (request + 1) (position + 1) files
        (uploads.insert request ⟨name, some ⟨batch, position⟩, pane⟩)

theorem offerFiles_eq (origin : Origin) (pane : PaneId) (batch position : ℕ)
    (files : List (String × String × ℕ)) :
    offerFiles origin pane batch position files self =
      { self with
        nextRequest := self.nextRequest + files.length
        pendingUploads := offered pane batch self.nextRequest position files self.pendingUploads
        outbox := self.outbox ++ offers origin pane self.nextRequest files } := by
  induction files generalizing self position with
  | nil => simp [offerFiles, offered, offers]
  | cons file files ih =>
    obtain ⟨path, name, length⟩ := file
    rw [offerFiles, ih]
    simp only [perform, offered, offers, List.length_cons, List.append_assoc, List.cons_append,
      List.nil_append, Nat.add_comm 1, Nat.add_assoc]

/-- A request is pending under its own file, or was pending before. -/
theorem offered_getElem? (pane : PaneId) (batch first position : ℕ)
    (files : List (String × String × ℕ)) (uploads : ExtTreeMap ℕ PendingUpload) (request : ℕ) :
    (offered pane batch first position files uploads)[request]? =
      if first ≤ request ∧ request < first + files.length then
        files[request - first]?.map fun file =>
          ⟨file.2.1, some ⟨batch, position + (request - first)⟩, pane⟩
      else uploads[request]? := by
  induction files generalizing first position uploads with
  | nil =>
    have hnone : ¬(first ≤ request ∧ request < first + 0) := by omega
    rw [List.length_nil, if_neg hnone, offered]
  | cons file files ih =>
    obtain ⟨path, name, length⟩ := file
    rw [offered, ih, List.length_cons]
    by_cases hlater : first + 1 ≤ request ∧ request < first + 1 + files.length
    · have hsub : request - first = request - (first + 1) + 1 := by omega
      have hposition : position + 1 + (request - (first + 1)) = position + (request - first) := by
        omega
      have hin : first ≤ request ∧ request < first + (files.length + 1) := by omega
      rw [if_pos hlater, if_pos hin, hposition, hsub, List.getElem?_cons_succ]
    · rw [if_neg hlater, ExtTreeMap.getElem?_insert]
      by_cases heq : first = request
      · subst heq
        simp
      · have hout : ¬(first ≤ request ∧ request < first + (files.length + 1)) := by omega
        rw [if_neg hout, if_neg (by simpa using heq)]

theorem offers_within {origin : Origin} (horigin : scope.origins origin)
    (hhonest : ∀ message, (Effect.send origin message).Honest) (pane : PaneId) (request : ℕ)
    (files : List (String × String × ℕ)) :
    ∀ effect ∈ offers origin pane request files, effect.Within scope := by
  induction files generalizing request with
  | nil => simp [offers]
  | cons file files ih =>
    obtain ⟨path, name, length⟩ := file
    intro effect hmem
    simp only [offers, List.mem_cons] at hmem
    rcases hmem with rfl | rfl | hmem
    · exact Effect.within_send horigin (hhonest _)
    · exact Effect.within_of_not_send (by simp) trivial
    · exact ih _ effect hmem

theorem offers_news (origin : Origin) (pane : PaneId) (first : ℕ)
    (files : List (String × String × ℕ)) :
    (offers origin pane first files).filterMap Effect.news =
      (files.mapIdx fun position file => (first + position, file.2.1)).map
        fun request => News.begun request.1 pane := by
  induction files generalizing first with
  | nil => rfl
  | cons file files ih =>
    obtain ⟨path, name, length⟩ := file
    have hshift : (fun position (file : String × String × ℕ) => (first + 1 + position, file.2.1)) =
        fun position file => (first + (position + 1), file.2.1) := by
      funext position file
      rw [Nat.add_assoc, Nat.add_comm 1]
    simp only [offers, List.filterMap_cons, Effect.news, ih, hshift, List.mapIdx_cons,
      List.map_cons, Nat.add_zero]

theorem mapM_ne_nil {α β : Type} {f : α → Option β} {entries : List α} {results : List β}
    (h : entries.mapM f = some results) (hentries : entries ≠ []) : results ≠ [] := by
  cases entries with
  | nil => exact absurd rfl hentries
  | cons entry entries =>
    rw [List.mapM_cons] at h
    simp only [Option.pure_def, Option.bind_eq_bind, Option.bind_eq_some_iff] at h
    obtain ⟨result, -, rest, -, hresults⟩ := h
    injection hresults with hresults
    simp [← hresults]

/-- Whether every one of some files can be sent. -/
def Readable (files : List String) : Prop :=
  (files.mapM fun path => (inspectLocalFile world self path).map (path, ·)).isSome

theorem quiet_sendLocalFiles {origin : Origin} (pane : PaneId) {files : List String}
    (horigin : Readable world self files → scope.origins origin)
    (hhonest : ∀ message, (Effect.send origin message).Honest) (hfiles : files ≠ []) :
    self.Quiet scope (sendLocalFiles world self origin pane files) := by
  rw [sendLocalFiles]
  split
  · exact .refl self
  · next entries hentries =>
    have horigin : scope.origins origin := horigin (by simp [Readable, hentries])
    have hrequests : (entries.mapIdx fun position file => (self.nextRequest + position, file.2.1)) =
        BatchOffer.requests ⟨pane, self.nextRequest, entries.map fun file => file.2.1⟩ := by
      refine List.ext_getElem? fun position => ?_
      simp [BatchOffer.requests, Option.map_map, Function.comp_def]
    dsimp only
    rw [offerFiles_eq, hrequests]
    refine ⟨⟨offers origin pane self.nextRequest entries ++ [.started self.nextUploadBatch
      (BatchOffer.requests ⟨pane, self.nextRequest, entries.map fun file => file.2.1⟩)],
      by simp [perform], ?_, ?_⟩, rfl⟩
    · intro effect hmem
      rcases List.mem_append.mp hmem with hmem | hmem
      · exact offers_within horigin hhonest pane _ _ effect hmem
      · rw [List.mem_singleton.mp hmem]
        exact Effect.within_of_not_send (by simp) trivial
    · have htaken : BatchOffer.Taken ⟨pane, self.nextRequest, entries.map fun file => file.2.1⟩
          self.nextUploadBatch self.pendingUploads
          (offered pane self.nextUploadBatch self.nextRequest 0 entries self.pendingUploads) := by
        constructor
        · simpa using mapM_ne_nil hentries hfiles
        · intro request
          rw [offered_getElem?]
          simp [Function.comp_def]
      have hacts : Acts scope self.memory _ _ := .batch _ _ rfl htaken
      simpa [List.filterMap_append, offers_news, hrequests, Effect.news, perform, memory]
        using hacts

theorem foldl_send {α : Type} (message : α → ClientMessage) (entries : List α) :
    entries.foldl (fun self entry => self.send (message entry)) self =
      { self with outbox :=
          self.outbox ++ entries.map fun entry => Effect.send .plain (message entry) } := by
  induction entries generalizing self with
  | nil => simp
  | cons entry entries ih =>
    rw [List.foldl_cons, ih]
    simp [send, perform]

theorem quiet_uploadMedia (h : scope.Handles) (pane : PaneId) (mime : String)
    (bytes : List UInt8) : self.Quiet scope (uploadMedia world self pane mime bytes) := by
  simp only [uploadMedia]
  rw [foldl_send]
  let chunks := (bytes.toChunks UPLOAD_CHUNK_BYTES).map fun chunk =>
    Effect.send .plain (.uploadChunk self.nextRequest chunk)
  refine ⟨⟨.send .clipboard (.beginUpload self.nextRequest pane mime none bytes.length) :: chunks ++
    [.send .plain (.finishUpload self.nextRequest (world.digest bytes))],
    by simp [perform, send, chunks], ?_, ?_⟩, rfl⟩
  · intro effect hmem
    simp only [List.cons_append, List.mem_cons, List.mem_append, List.not_mem_nil, or_false] at hmem
    rcases hmem with rfl | hmem | rfl
    · exact Effect.within_send (own_clipboard h) trivial
    · obtain ⟨chunk, -, rfl⟩ := List.mem_map.mp hmem
      exact Effect.within_send h.plain rfl
    · exact Effect.within_send h.plain rfl
  · have hchunks : chunks.filterMap Effect.news = [] := by
      simp [chunks, List.filterMap_map, Effect.news, Function.comp_def]
    have hacts : Acts scope self.memory _ _ := .single pane mime
    simpa [List.filterMap_append, List.filterMap_cons, hchunks, Effect.news, perform, send, memory]
      using hacts

theorem quiet_pasteClipboardMedia (h : scope.Handles)
    (hdrops : controlDrops world self → scope.drops) :
    self.Quiet scope (pasteClipboardMedia world self) := by
  have hlooked := quiet_uploadDestination world self hdrops
  rw [pasteClipboardMedia]
  split
  · next after _ heq =>
    rw [heq] at hlooked
    exact hlooked
  · next after selected heq =>
    rw [heq] at hlooked
    split
    · exact hlooked.trans (quiet_uploadMedia world after h _ _ _)
    · split
      · exact hlooked
      · next hfiles =>
        exact hlooked.trans
          (quiet_sendLocalFiles world after selected (fun _ => own_clipboard h) (fun _ => trivial)
            hfiles)

/-! ### Actions -/

theorem opens_contextMenu (before after : Option ContextMenu) :
    { self with contextMenu := before }.Opens scope { self with contextMenu := after } := by
  refine ⟨.of_acts rfl (.refl _), rfl, rfl, ?_⟩
  have hone := after.isSome.toNat_le
  simp only [opened]
  omega

theorem opens_textPrompt (before after : Option TextPrompt) :
    { self with textPrompt := before }.Opens scope { self with textPrompt := after } := by
  refine ⟨.of_acts rfl (.refl _), rfl, rfl, ?_⟩
  have hone := after.isSome.toNat_le
  simp only [opened]
  omega

theorem opens_targetManager (before after : Option TargetManager) :
    { self with targetManager := before }.Opens scope { self with targetManager := after } := by
  refine ⟨.of_acts rfl (.refl _), rfl, rfl, ?_⟩
  have hone := after.isSome.toNat_le
  simp only [opened]
  omega

theorem opens_commandPalette (before after : Option CommandPalette) :
    { self with commandPalette := before }.Opens scope { self with commandPalette := after } := by
  refine ⟨.of_acts rfl (.refl _), rfl, rfl, ?_⟩
  have hone := after.isSome.toNat_le
  simp only [opened]
  omega

theorem opens_agentNavigator (before after : Option AgentNavigator) :
    { self with agentNavigator := before }.Opens scope { self with agentNavigator := after } := by
  refine ⟨.of_acts rfl (.refl _), rfl, rfl, ?_⟩
  have hone := after.isSome.toNat_le
  simp only [opened]
  omega

theorem opens_attentionCenter (before after : Option AttentionCenter) :
    { self with attentionCenter := before }.Opens scope { self with attentionCenter := after } := by
  refine ⟨.of_acts rfl (.refl _), rfl, rfl, ?_⟩
  have hone := after.isSome.toNat_le
  simp only [opened]
  omega

theorem quiet_spawnWorkspaceMove (h : scope.Handles) (workspace destination : WorkspaceId) :
    self.Quiet scope (spawnWorkspaceMove world self workspace destination) := by
  rw [spawnWorkspaceMove]
  split
  · exact .refl self
  · exact quiet_runOperation self h _ _

theorem quiet_spawnWorkspaceRecreate (h : scope.Handles) (workspace : WorkspaceId)
    (destination : TargetSession) (label : String) :
    self.Quiet scope (spawnWorkspaceRecreate world self workspace destination label) := by
  rw [spawnWorkspaceRecreate]
  split
  · exact .refl self
  · exact quiet_runOperation self h _ _

theorem opens_openContextMenu (hplain : scope.origins .plain) (target : ContextTarget) :
    self.Opens scope (openContextMenu world self target) := by
  have hasked := (quiet_clearSelection self).trans
    (quiet_ensurePluginCatalog world self.clearSelection hplain target.targetSession)
  simp only [openContextMenu]
  split
  · exact hasked.then_opens (opens_contextMenu _ _ _)
  · exact hasked.opens

theorem opens_openSendFilePrompt : self.Opens scope self.openSendFilePrompt := by
  rw [openSendFilePrompt]
  split
  · exact (Quiet.refl self).opens
  · exact opens_textPrompt self self.textPrompt _

theorem opens_requestWorkspaceClose : self.Opens scope (requestWorkspaceClose world self) := by
  rw [requestWorkspaceClose]
  split
  · exact (Quiet.refl self).opens
  · split
    · exact (Quiet.refl self).opens
    · split
      · exact (Quiet.refl self).opens
      · refine ⟨.of_acts rfl (.refl _), rfl, rfl, ?_⟩
        simp only [opened, Option.isSome_some, Bool.toNat_true]
        omega

theorem opens_executeResourceAction (h : scope.Handles) (action : ResourceAction) :
    self.Opens scope (executeResourceAction world self action) := by
  rw [executeResourceAction.eq_def]
  split
  · exact (Quiet.refl self).opens
  · cases action
    case jumpToPane => exact (quiet_selectPane self h _).opens
    case createTab => exact (quiet_runOperation self h _ _).opens
    case moveWorkspace => exact (quiet_spawnWorkspaceMove world self h _ _).opens
    case recreateWorkspace => exact (quiet_spawnWorkspaceRecreate world self h _ _ _).opens
    case splitPane => exact (quiet_runOperation self h _ _).opens
    case togglePaneZoom => exact (quiet_runOperation self h _ _).opens
    case invokePluginAction => exact (quiet_runOperation self h _ _).opens
    case cancelFileTransfer => exact (quiet_cancelFileSave self h.plain).opens
    case markAgent =>
      refine (Quiet.trans ?_ (quiet_send _ h.plain rfl rfl)).opens
      exact .of_acts rfl rfl (.nothing (self.nextRequest + 1) _ (Nat.le_succ _) fun _ => Or.inl)
    all_goals
      refine ⟨.of_acts rfl (.refl _), rfl, rfl, ?_⟩
      simp only [opened, Option.isSome_some, Bool.toNat_true]
      omega

/-! ### The overlays -/

theorem opens_handleCommandPaletteInput (h : scope.Handles) (palette : CommandPalette)
    (key : UInt8) : { self with commandPalette := none }.Opens scope
      (handleCommandPaletteInput world self palette key) := by
  simp only [handleCommandPaletteInput]
  split_ifs
  · exact (Quiet.refl _).opens
  · split
    · exact opens_executeResourceAction world _ h _
    · exact opens_commandPalette self none _
  all_goals exact opens_commandPalette self none _

theorem opens_handleContextMenuInput (h : scope.Handles) (menu : ContextMenu) (key : UInt8) :
    { self with contextMenu := none }.Opens scope
      (handleContextMenuInput world self menu key) := by
  simp only [handleContextMenuInput]
  split_ifs
  · exact (Quiet.refl _).opens
  · exact opens_contextMenu self none _
  · exact opens_contextMenu self none _
  · split
    · exact opens_executeResourceAction world _ h _
    · exact (Quiet.refl _).opens
  · exact opens_contextMenu self none _

theorem opens_handleContextMenuMouse (h : scope.Handles) (menu : ContextMenu) (mouse : MouseInput) :
    { self with contextMenu := none }.Opens scope
      (handleContextMenuMouse world self menu mouse) := by
  have hclosed : { self with contextMenu := none }.Opens scope
      { self with contextMenu := none } := (Quiet.refl _).opens
  have hkept : ∀ after, { self with contextMenu := none }.Opens scope
      { self with contextMenu := after } := opens_contextMenu self none
  rw [handleContextMenuMouse]
  split
  · exact hclosed
  · dsimp only
    split
    · exact hkept _
    · split
      · split
        · exact hkept _
        · exact hclosed
      · split
        · split
          · exact opens_executeResourceAction world _ h _
          · exact hkept _
        · split
          · exact hclosed
          · exact hkept _

theorem quiet_runPrompt (h : scope.Handles) (action : TextPromptAction) (label : String) :
    self.Quiet scope (self.runPrompt action label) := by
  cases action
  case createWorkspace => exact quiet_runOperation self h _ _
  case renameWorkspace => exact quiet_runOperation self h _ _
  case renameTab => exact quiet_runOperation self h _ _
  all_goals exact .refl self

/-- Whether entering a prompt asks for a file while another is asked for, and not offered yet. -/
def promptDisplaces (prompt : TextPrompt) : Prop :=
  (∃ pane, prompt.action = .saveFile pane) ∧ trim prompt.value ≠ "" ∧ self.fileSave = none ∧
    self.fileSaveRequest ≠ none

/-- Whether entering a prompt would find the control route stale. -/
def promptDrops (prompt : TextPrompt) : Prop :=
  (∃ pane, prompt.action = .sendFile pane) ∧ controlDrops world self

theorem opens_submitTextPrompt (h : scope.Handles) (prompt : TextPrompt)
    (hdisplaces : promptDisplaces self prompt → scope.displaces)
    (hdrops : promptDrops world self prompt → scope.drops) :
    self.Opens scope (submitTextPrompt world self prompt) := by
  have hrefused : ∀ self : App, ∀ error, self.Opens scope
      { self with textPrompt := some { prompt with error := some error } } := by
    intro self error
    exact opens_textPrompt self self.textPrompt _
  have hrun : ∀ action : TextPromptAction,
      self.Quiet scope (self.runPrompt action (trim prompt.value)) :=
    fun action => quiet_runPrompt self h action _
  simp only [submitTextPrompt]
  split
  · next pane haction =>
    have hlooked : self.Quiet scope (uploadDestination world self).1 :=
      quiet_uploadDestination world self fun hstale => hdrops ⟨⟨pane, haction⟩, hstale⟩
    split
    · exact hlooked.then_opens (hrefused _ _)
    · split
      · exact hlooked.then_opens (hrefused _ _)
      · refine (hlooked.trans (quiet_sendLocalFiles world _ _
          (fun _ => h.own .prompted ⟨rfl, by simp⟩ (by simp)) (fun _ => trivial) (by simp))).opens
  · next pane haction =>
    split
    · exact hrefused self _
    · next hvalue =>
      split
      · exact hrefused self _
      · next hidle =>
        have hidle : self.fileSave = none := by simpa using hidle
        have hwithin : (Effect.send .plain
            (.beginDownload self.nextRequest pane (trim prompt.value))).Within scope :=
          Effect.within_send h.plain rfl
        refine Quiet.opens (.of_effect rfl rfl hwithin rfl ?_)
        exact .save hidle fun hasked => hdisplaces ⟨⟨pane, haction⟩, hvalue, hidle, hasked⟩
  · split
    · exact hrefused self _
    · refine (Quiet.trans ?_ (quiet_send _ h.plain rfl rfl)).opens
      exact .of_acts rfl rfl (.nothing (self.nextRequest + 1) _ (Nat.le_succ _) fun _ => Or.inl)
  · split
    · exact hrefused self _
    · exact (hrun _).opens

theorem opens_handleTextPromptInput (h : scope.Handles) (prompt : TextPrompt) (key : UInt8)
    (hdisplaces : key = 0x0d ∨ key = 0x0a → promptDisplaces self prompt → scope.displaces)
    (hdrops : key = 0x0d ∨ key = 0x0a → promptDrops world self prompt → scope.drops) :
    { self with textPrompt := none }.Opens scope
      (handleTextPromptInput world self prompt key) := by
  simp only [handleTextPromptInput]
  split
  · exact (Quiet.refl _).opens
  · split
    · next henter =>
      exact opens_submitTextPrompt world _ h prompt (hdisplaces henter) (hdrops henter)
    · exact opens_textPrompt self none _

theorem opens_handleCloseConfirmationInput (h : scope.Handles) (confirmation : CloseConfirmation)
    (key : UInt8) : { self with closeConfirmation := none }.Opens scope
      (self.handleCloseConfirmationInput confirmation key) := by
  simp only [handleCloseConfirmationInput]
  split
  · split
    · exact (quiet_runOperation _ h _ _).opens
    · exact (Quiet.refl _).opens
  · split
    · exact (Quiet.refl _).opens
    · refine ⟨.of_acts rfl (.refl _), rfl, rfl, ?_⟩
      simp only [opened, Option.isSome_some, Option.isSome_none, Bool.toNat_true, Bool.toNat_false]
      omega

theorem sends_handlePairingApprovalInput (hplain : scope.origins .plain)
    (approval : PairingApproval) (key : UInt8) :
    self.Sends scope (self.handlePairingApprovalInput approval key) := by
  rw [handlePairingApprovalInput]
  split
  · refine Sends.trans ?_ (quiet_send _ hplain rfl rfl).sends
    exact .of_acts rfl (.refl _)
  · exact .refl self

/-! ### The target manager -/

variable (manager : TargetManager)

theorem quiet_removeTarget : self.Quiet scope (removeTarget world self manager).1 := by
  rw [removeTarget]
  split
  · split
    · refine Quiet.trans ?_
        (quiet_perform _ (Effect.within_of_not_send (by simp) trivial) rfl)
      exact .of_eq rfl rfl rfl
    · exact .refl self
  · exact .refl self

theorem quiet_saveTargetForm : self.Quiet scope (saveTargetForm world self manager).1 := by
  rw [saveTargetForm]
  split
  · exact .of_eq rfl rfl rfl
  · exact .refl self

theorem quiet_activateTargetManagerControl (control : TargetManagerControl) :
    self.Quiet scope (activateTargetManagerControl world self manager control).1 := by
  cases control
  case save => exact quiet_saveTargetForm world self manager
  case confirmRemove => exact quiet_removeTarget world self manager
  all_goals exact .refl self

theorem quiet_targetManagerKey (key : UInt8) :
    self.Quiet scope (targetManagerKey world self manager key).1 := by
  rw [targetManagerKey]
  split
  · split_ifs
    all_goals exact .refl self
  · split_ifs
    · exact .refl self
    · exact quiet_saveTargetForm world self manager
    · exact .refl self
  · split_ifs
    · exact quiet_removeTarget world self manager
    · exact .refl self
    · exact .refl self

theorem opens_closeOrKeep {outcome : App × TargetManager × Bool}
    (h : self.Quiet scope outcome.1) :
    self.Opens scope (closeOrKeep outcome) := by
  rw [closeOrKeep]
  split
  · exact h.opens
  · exact h.then_opens (opens_targetManager _ outcome.1.targetManager _)

theorem opens_handleTargetManagerInput (key : UInt8) :
    { self with targetManager := none }.Opens scope
      (handleTargetManagerInput world self manager key) := by
  have hquiet : Quiet scope { self with targetManager := none }
      (targetManagerKey world { self with targetManager := none } manager key).1 :=
    quiet_targetManagerKey world _ manager key
  exact opens_closeOrKeep _ hquiet

theorem opens_handleTargetManagerMouse (mouse : MouseInput) :
    { self with targetManager := none }.Opens scope
      (handleTargetManagerMouse world self manager mouse) := by
  have hkept : ∀ after, { self with targetManager := none }.Opens scope
      { self with targetManager := after } := opens_targetManager self none
  simp only [handleTargetManagerMouse]
  split
  · split
    · exact hkept _
    · exact hkept _
  · split_ifs
    · exact hkept _
    · exact hkept _
    · split
      · next pressed control _ _ =>
        split
        · have hquiet : Quiet scope { self with targetManager := none }
              (activateTargetManagerControl world { self with targetManager := none }
                { manager with mousePress := none } control).1 :=
            quiet_activateTargetManagerControl world _ _ _
          exact opens_closeOrKeep _ hquiet
        · exact hkept _
      · exact hkept _

/-! ### Agents and events -/

theorem opens_handleAgentNavigatorInput (h : scope.Handles) (navigator : AgentNavigator)
    (key : UInt8) : { self with agentNavigator := none }.Opens scope
      (handleAgentNavigatorInput world self navigator key) := by
  simp only [handleAgentNavigatorInput]
  split_ifs
  · exact (Quiet.refl _).opens
  · exact opens_agentNavigator self none _
  · exact opens_agentNavigator self none _
  · exact opens_agentNavigator self none _
  · split
    · exact (quiet_selectPane _ h _).opens
    · exact (Quiet.refl _).opens
  · exact opens_agentNavigator self none _

theorem opens_handleAttentionCenterInput (h : scope.Handles) (center : AttentionCenter)
    (key : UInt8) : { self with attentionCenter := none }.Opens scope
      (handleAttentionCenterInput world self center key) := by
  have hreopen : ∀ (after : App) center, { self with attentionCenter := none }.Quiet scope after →
      { self with attentionCenter := none }.Opens scope { after with attentionCenter := center } :=
    fun after _ hquiet => hquiet.then_opens (opens_attentionCenter after after.attentionCenter _)
  have hread : ∀ attention, { self with attentionCenter := none }.Quiet scope
      { self with attentionCenter := none, attention := attention } :=
    fun attention => .of_eq rfl rfl rfl
  simp only [handleAttentionCenterInput]
  split_ifs
  · exact (Quiet.refl _).opens
  · exact hreopen { self with attentionCenter := none } _ (.refl _)
  · exact hreopen { self with attentionCenter := none } _ (.refl _)
  · exact hreopen _ _ ((hread _).trans (quiet_send _ h.plain rfl rfl))
  · exact hreopen _ _ (hread _)
  · exact hreopen _ _ ((hread _).trans (quiet_send _ h.plain rfl rfl))
  · exact hreopen _ _ (hread _)
  · split
    · split
      · exact (quiet_selectPane _ h _).opens
      · exact (quiet_markAttentionSeen _ h.plain _).opens
    · exact hreopen { self with attentionCenter := none } _ (.refl _)
  · exact hreopen { self with attentionCenter := none } _ (.refl _)

end App

end Tui

end SuperHerdr
