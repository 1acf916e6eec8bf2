import SuperHerdr.Tui.Moves

/-!
# Uploads that end

An upload ends once. One that was offered alone is pasted or forgotten; one of a batch leaves its
path or its failure in the batch, and the last of them settles it. What is pasted then goes where
the selection is by then.
-/

namespace SuperHerdr

namespace Tui

open Std Transducer

/-- What an ending leaves in its batch. -/
def UploadBatch.note (state : UploadBatch) (position : ℕ) (described : String) :
    App.Ending → UploadBatch
  | .complete path => { state with paths := state.paths.insert position path }
  | .failed message => { state with failures := state.failures ++ [s!"{described}: {message}"] }

/-- Whether a batch waits for nothing any more. -/
def UploadBatch.full (state : UploadBatch) : Prop :=
  state.expected ≤ state.paths.size + state.failures.length

instance (state : UploadBatch) : Decidable state.full :=
  inferInstanceAs (Decidable (_ ≤ _))

@[simp] theorem UploadBatch.note_expected (state : UploadBatch) (position : ℕ)
    (described : String) (ending : App.Ending) :
    (state.note position described ending).expected = state.expected := by
  cases ending <;> rfl

@[simp] theorem UploadBatch.note_destination (state : UploadBatch) (position : ℕ)
    (described : String) (ending : App.Ending) :
    (state.note position described ending).destination = state.destination := by
  cases ending <;> rfl

namespace App

variable {scope : Scope} (world : World) (self : App)

/-! ### What is pasted -/

/-- The line some paths are pasted as. -/
def verifiedLine (paths : List String) : String := " ".intercalate (paths.map shellQuotedPath)

/-- Where verified paths go, and as what, if they can be pasted anywhere. -/
def verifiedPaste (paths : List String) : Option (PaneId × List UInt8) :=
  match self.selectedPane with
  | none => none
  | some selected =>
      match self.routes[selected]? with
      | none => none
      | some route =>
          if route.access ≠ .control then none
          else
            (terminalPastePayload (verifiedLine paths).toUTF8.toList
              (world.emulator.bracketedPaste route.parser)).map (selected, ·)

theorem pasteVerifiedPaths_eq (destination : PaneId) (paths : List String) :
    pasteVerifiedPaths world self destination paths =
      match verifiedPaste world self paths with
      | none => self
      | some (pane, payload) =>
          self.perform (.send (.verified destination) (.paneInput pane payload)) := by
  rw [pasteVerifiedPaths, verifiedPaste]
  cases self.selectedPane with
  | none => rfl
  | some selected =>
    dsimp only
    cases self.routes[selected]? with
    | none => rfl
    | some route =>
      dsimp only
      split
      · rfl
      · rw [← verifiedLine]
        cases terminalPastePayload (verifiedLine paths).toUTF8.toList
          (world.emulator.bracketedPaste route.parser) <;> rfl

/-- What pasting verified paths sends. -/
def verifiedEffects (destination : PaneId) (paths : List String) : List Effect :=
  ((verifiedPaste world self paths).map fun paste =>
    Effect.send (.verified destination) (.paneInput paste.1 paste.2)).toList

theorem pasteVerifiedPaths_eq_effects (destination : PaneId) (paths : List String) :
    pasteVerifiedPaths world self destination paths =
      { self with outbox := self.outbox ++ verifiedEffects world self destination paths } := by
  rw [pasteVerifiedPaths_eq, verifiedEffects]
  cases verifiedPaste world self paths with
  | none => simp
  | some paste => rfl

/-! ### What an ending does -/

variable {request : ℕ} {pending : PendingUpload}

theorem endUpload_single
    (hpending : self.pendingUploads[request]? = some pending) (hbatch : pending.batch = none)
    (ending : Ending) :
    endUpload world self request ending =
      { self with
        pendingUploads := self.pendingUploads.erase request
        outbox := self.outbox ++ match ending with
          | .complete path => verifiedEffects world self pending.destination [path]
          | .failed _ => [] } := by
  cases ending with
  | complete path =>
    rw [endUpload, uploadComplete, hpending]
    dsimp only
    rw [hbatch]
    dsimp only
    rw [pasteVerifiedPaths_eq_effects]
    rfl
  | failed message =>
    rw [endUpload, failUpload, hpending]
    dsimp only
    rw [hbatch]
    simp

variable {state : UploadBatch}

/-- A batch whose last upload has ended settles, and its paths are pasted. -/
theorem settleUploadBatch_eq (batch : ℕ) (hstate : self.uploadBatches[batch]? = some state) :
    settleUploadBatch world self batch =
      if state.full then
        { self with
          uploadBatches := self.uploadBatches.erase batch
          outbox := self.outbox ++ .settled batch state ::
            if settledBatch state = [] then []
            else verifiedEffects world self state.destination (settledBatch state) }
      else self := by
  have hfull : state.paths.size + state.failures.length < state.expected ↔ ¬state.full := by
    rw [UploadBatch.full]
    omega
  rw [settleUploadBatch, hstate]
  dsimp only
  by_cases hsettles : state.full
  · rw [if_neg (by simp [hfull, hsettles]), if_pos hsettles]
    split
    · simp [perform]
    · rw [pasteVerifiedPaths_eq_effects]
      simp [perform, verifiedEffects, verifiedPaste]
  · rw [if_pos (hfull.mpr hsettles), if_neg hsettles]

theorem modifyBatch_eq (batch : ℕ) (change : UploadBatch → UploadBatch)
    (hstate : self.uploadBatches[batch]? = some state) :
    self.modifyBatch batch change =
      { self with uploadBatches := self.uploadBatches.insert batch (change state) } := by
  rw [modifyBatch, hstate]

/-- An upload of a batch that is waited for. -/
theorem endUpload_batch {request batch position : ℕ}
    (hpending : self.pendingUploads[request]? = some pending)
    (hbatch : pending.batch = some ⟨batch, position⟩)
    (hstate : self.uploadBatches[batch]? = some state) (ending : Ending) :
    endUpload world self request ending =
      settleUploadBatch world
        { self with
          pendingUploads := self.pendingUploads.erase request
          uploadBatches := self.uploadBatches.insert batch
            (state.note position pending.described ending) } batch := by
  cases ending with
  | complete path =>
    rw [endUpload, uploadComplete, hpending]
    dsimp only
    rw [hbatch]
    dsimp only
    rw [modifyBatch_eq { self with pendingUploads := self.pendingUploads.erase request } batch _
      hstate]
    rfl
  | failed message =>
    rw [endUpload, failUpload, hpending]
    dsimp only
    rw [hbatch]
    dsimp only
    rw [modifyBatch_eq { self with pendingUploads := self.pendingUploads.erase request } batch _
      hstate]
    rfl

/-- An upload of a batch that is waited for, and what is left of both. -/
theorem endUpload_batch_eq {request batch position : ℕ}
    (hpending : self.pendingUploads[request]? = some pending)
    (hbatch : pending.batch = some ⟨batch, position⟩)
    (hstate : self.uploadBatches[batch]? = some state) (ending : Ending) :
    endUpload world self request ending =
      let noted := state.note position pending.described ending
      if noted.full then
        { self with
          pendingUploads := self.pendingUploads.erase request
          uploadBatches := (self.uploadBatches.insert batch noted).erase batch
          outbox := self.outbox ++ .settled batch noted ::
            if settledBatch noted = [] then []
            else verifiedEffects world self noted.destination (settledBatch noted) }
      else
        { self with
          pendingUploads := self.pendingUploads.erase request
          uploadBatches := self.uploadBatches.insert batch noted } := by
  have hnoted : (self.uploadBatches.insert batch
      (state.note position pending.described ending))[batch]? =
        some (state.note position pending.described ending) := by
    simp
  rw [endUpload_batch world self hpending hbatch hstate ending]
  exact settleUploadBatch_eq world
    { self with
      pendingUploads := self.pendingUploads.erase request
      uploadBatches := self.uploadBatches.insert batch
        (state.note position pending.described ending) } batch hnoted

theorem endUpload_stray {request batch position : ℕ}
    (hpending : self.pendingUploads[request]? = some pending)
    (hbatch : pending.batch = some ⟨batch, position⟩)
    (hstate : self.uploadBatches[batch]? = none) (ending : Ending) :
    endUpload world self request ending =
      { self with pendingUploads := self.pendingUploads.erase request } := by
  cases ending with
  | complete path =>
    rw [endUpload, uploadComplete, hpending]
    simp [hbatch, modifyBatch, settleUploadBatch, hstate]
  | failed message =>
    rw [endUpload, failUpload, hpending]
    simp [hbatch, modifyBatch, settleUploadBatch, hstate]

/-- The paths that an ending makes ready, and the pane they were offered to. -/
def ready (self : App) (request : ℕ) (ending : Ending) : Option (PaneId × List String) :=
  match self.pendingUploads[request]? with
  | none => none
  | some pending =>
      match pending.batch with
      | none =>
          match ending with
          | .complete path => some (pending.destination, [path])
          | .failed _ => none
      | some entry =>
          match self.uploadBatches[entry.batch]? with
          | none => none
          | some state =>
              let noted := state.note entry.position pending.described ending
              if noted.full ∧ settledBatch noted ≠ [] then
                some (noted.destination, settledBatch noted)
              else none

/-- What an ending sends: perhaps that a batch is settled, and the paths it makes ready. -/
theorem outbox_endUpload (hpending : request ∈ self.pendingUploads)
    (ending : Ending) : ∃ report : List Effect,
      (∀ effect ∈ report, ∃ batch state, effect = .settled batch state) ∧
      (endUpload world self request ending).outbox = self.outbox ++ report ++
        match self.ready request ending with
        | none => []
        | some (destination, paths) => verifiedEffects world self destination paths := by
  obtain ⟨pending, hsome⟩ := Option.isSome_iff_exists.mp
    (ExtTreeMap.mem_iff_isSome_getElem?.mp hpending)
  cases hbatch : pending.batch with
  | none =>
    rw [endUpload_single world self hsome hbatch]
    refine ⟨[], by simp, ?_⟩
    cases ending <;> simp [ready, hsome, hbatch]
  | some entry =>
    cases hstate : self.uploadBatches[entry.batch]? with
    | none =>
      rw [endUpload_stray world self hsome hbatch hstate]
      exact ⟨[], by simp, by simp [ready, hsome, hbatch, hstate]⟩
    | some state =>
      rw [endUpload_batch_eq world self hsome hbatch hstate]
      dsimp only
      split
      · next hfull =>
        refine ⟨[.settled entry.batch (state.note entry.position pending.described ending)],
          by simp, ?_⟩
        by_cases hempty : settledBatch (state.note entry.position pending.described ending) = []
        · simp [ready, hsome, hbatch, hstate, hempty]
        · simp [ready, hsome, hbatch, hstate, hempty, hfull]
      · next hopen => exact ⟨[], by simp, by simp [ready, hsome, hbatch, hstate, hopen]⟩

theorem news_verifiedEffects (destination : PaneId) (paths : List String) :
    (verifiedEffects world self destination paths).filterMap Effect.news = [] := by
  rw [verifiedEffects]
  cases verifiedPaste world self paths <;> simp [Effect.news]

/-- What an ending says of batches, where nothing was sent before. -/
theorem news_endUpload (houtbox : self.outbox = []) (hpending : request ∈ self.pendingUploads)
    (ending : Ending) :
    ∀ told ∈ (endUpload world self request ending).outbox.filterMap Effect.news,
      ∃ batch state, told = .settled batch state := by
  obtain ⟨report, hreport, hsent⟩ := outbox_endUpload world self hpending ending
  intro told hmem
  rw [hsent, houtbox, List.nil_append, List.filterMap_append] at hmem
  rcases List.mem_append.mp hmem with hmem | hmem
  · obtain ⟨effect, heffect, hnews⟩ := List.mem_filterMap.mp hmem
    obtain ⟨batch, state, rfl⟩ := hreport effect heffect
    exact ⟨batch, state, by simpa [Effect.news] using hnews.symm⟩
  · split at hmem
    · simp at hmem
    · rw [news_verifiedEffects] at hmem
      simp at hmem

/-! ### Whose request it is -/

/-- Requests were taken, and one that is a catalogue's is no upload's. -/
structure Tidy (memory : Memory) : Prop where
  uploads : ∀ request ∈ memory.uploads, request < memory.nextRequest
  catalogs : ∀ request ∈ memory.catalogs, request < memory.nextRequest
  apart : ∀ request ∈ memory.catalogs, request ∉ memory.uploads

theorem mem_taken {offer : BatchOffer} {batch : ℕ} {before after : ExtTreeMap ℕ PendingUpload}
    (h : offer.Taken batch before after) (hmem : request ∈ after) :
    (offer.first ≤ request ∧ request < offer.first + offer.names.length) ∨ request ∈ before := by
  rw [ExtTreeMap.mem_iff_isSome_getElem?, h.uploads] at hmem
  split at hmem
  · next hin => exact .inl hin
  · exact .inr (ExtTreeMap.mem_iff_isSome_getElem?.mpr hmem)

theorem Tidy.acts {before after : Memory} {news : List News} (h : Tidy before)
    (hacts : Acts scope before news after) : Tidy after := by
  induction hacts with
  | @nothing before next catalogs hrequest hcatalogs =>
    refine ⟨fun request hmem => (h.uploads request hmem).trans_le hrequest, ?_, ?_⟩
    · intro request hmem
      rcases hcatalogs request hmem with hold | ⟨-, hnew⟩
      · exact (h.catalogs request hold).trans_le hrequest
      · exact hnew
    · intro request hmem hupload
      rcases hcatalogs request hmem with hold | ⟨hnew, -⟩
      · exact h.apart request hold hupload
      · exact absurd (h.uploads request hupload) (by omega)
  | run pending hidle =>
    exact ⟨fun request hmem => (h.uploads request hmem).trans (Nat.lt_succ_self _),
      fun request hmem => (h.catalogs request hmem).trans (Nat.lt_succ_self _), h.apart⟩
  | paste session =>
    exact ⟨fun request hmem => (h.uploads request hmem).trans (Nat.lt_succ_self _),
      fun request hmem => (h.catalogs request hmem).trans (Nat.lt_succ_self _), h.apart⟩
  | save hscope hidle =>
    exact ⟨fun request hmem => (h.uploads request hmem).trans (Nat.lt_succ_self _),
      fun request hmem => (h.catalogs request hmem).trans (Nat.lt_succ_self _), h.apart⟩
  | @single before pane described =>
    have hmem : ∀ {request}, request ∈ before.uploads.insert before.nextRequest
        ⟨described, none, pane⟩ → before.nextRequest = request ∨ request ∈ before.uploads := by
      intro request hmem
      simpa using ExtTreeMap.mem_insert.mp hmem
    refine ⟨fun request hupload => ?_, fun request hcatalog => ?_, fun request hcatalog hupload => ?_⟩
    · rcases hmem hupload with rfl | hold
      · exact Nat.lt_succ_self _
      · exact (h.uploads request hold).trans (Nat.lt_succ_self _)
    · exact (h.catalogs request hcatalog).trans (Nat.lt_succ_self _)
    · rcases hmem hupload with rfl | hold
      · exact absurd (h.catalogs _ hcatalog) (lt_irrefl _)
      · exact h.apart request hcatalog hold
  | @batch before offer uploads hfirst htaken =>
    have hpositive : 0 < offer.names.length := List.length_pos_iff.mpr htaken.names
    refine ⟨fun request hupload => ?_, fun request hcatalog => ?_, fun request hcatalog hupload => ?_⟩
    · rcases mem_taken htaken hupload with ⟨-, hnew⟩ | hold
      · exact hfirst ▸ hnew
      · exact (h.uploads request hold).trans_le (Nat.le_add_right _ _)
    · exact (h.catalogs request hcatalog).trans_le (Nat.le_add_right _ _)
    · rcases mem_taken htaken hupload with ⟨hnew, -⟩ | hold
      · exact absurd (h.catalogs request hcatalog) (by omega)
      · exact h.apart request hcatalog hold
  | answer hscope selected followed routes operations inflight catalogs request save hcatalogs =>
    exact ⟨h.uploads, fun request hmem => h.catalogs request (hcatalogs request hmem),
      fun request hmem => h.apart request (hcatalogs request hmem)⟩
  | trans _ _ ih ihmore => exact ihmore (ih h)
  | _ => exact ⟨h.uploads, h.catalogs, h.apart⟩

/-- What an ending leaves of the memory: it forgets an upload, and no batch is new. -/
theorem memory_endUpload (hpending : request ∈ self.pendingUploads)
    (ending : Ending) : ∃ batches, (∀ batch ∈ batches, batch ∈ self.uploadBatches) ∧
      (endUpload world self request ending).memory =
        { self.memory with uploads := self.pendingUploads.erase request, batches } := by
  obtain ⟨pending, hsome⟩ := Option.isSome_iff_exists.mp
    (ExtTreeMap.mem_iff_isSome_getElem?.mp hpending)
  cases hbatch : pending.batch with
  | none =>
    rw [endUpload_single world self hsome hbatch]
    exact ⟨self.uploadBatches, fun _ => id, rfl⟩
  | some entry =>
    cases hstate : self.uploadBatches[entry.batch]? with
    | none =>
      rw [endUpload_stray world self hsome hbatch hstate]
      exact ⟨self.uploadBatches, fun _ => id, rfl⟩
    | some state =>
      have hinserted : ∀ noted, ∀ batch ∈ self.uploadBatches.insert entry.batch noted,
          batch ∈ self.uploadBatches := by
        intro noted batch hmem
        rcases ExtTreeMap.mem_insert.mp hmem with hsame | hold
        · have hsame : entry.batch = batch := by simpa using hsame
          exact ExtTreeMap.mem_iff_isSome_getElem?.mpr (by rw [← hsame, hstate]; rfl)
        · exact hold
      rw [endUpload_batch_eq world self hsome hbatch hstate]
      dsimp only
      split
      · exact ⟨_, fun batch hmem => hinserted _ batch (ExtTreeMap.mem_erase.mp hmem).2, rfl⟩
      · exact ⟨_, hinserted _, rfl⟩

theorem Tidy.endUpload (h : Tidy self.memory)
    (hpending : request ∈ self.pendingUploads) (ending : Ending) :
    Tidy (endUpload world self request ending).memory := by
  obtain ⟨batches, -, hmemory⟩ := memory_endUpload world self hpending ending
  rw [hmemory]
  exact ⟨fun request hmem => h.uploads request (ExtTreeMap.mem_erase.mp hmem).2, h.catalogs,
    fun request hcatalog hmem => h.apart request hcatalog (ExtTreeMap.mem_erase.mp hmem).2⟩

/-- **A move ends an upload that is pending, or it is a sequence of acts**, none of which pastes a
path of an upload. -/
theorem handle_cases (h : Tidy self.memory) (move : Move) :
    (∃ request ending, move.ending = some (request, ending) ∧ request ∈ self.pendingUploads ∧
      handle world self move = endUpload world self request ending) ∨
    ((∀ request ending, move.ending = some (request, ending) →
        self.pendingUploads[request]? = none) ∧
      self.Sends unverified (handle world self move)) := by
  by_cases hends : ∃ request ending, move.ending = some (request, ending) ∧
      request ∈ self.pendingUploads
  · obtain ⟨request, ending, hending, hpending⟩ := hends
    refine .inl ⟨request, ending, hending, hpending, ?_⟩
    exact handle_of_ending world self hending hpending fun hcatalog =>
      h.apart request hcatalog hpending
  · have hnone : ∀ request ending, move.ending = some (request, ending) →
        self.pendingUploads[request]? = none := by
      intro request ending hending
      exact ExtTreeMap.getElem?_eq_none fun hmem => hends ⟨request, ending, hending, hmem⟩
    exact .inr ⟨hnone, sends_handle world self (handles_of_le unprompted_le_unverified) trivial
      (by simp [unverified]) move
      (fun input _ => inputAllowed_of_le world self unprompted_le_unverified input) hnone⟩

theorem Tidy.handle (h : Tidy self.memory) (move : Move) :
    Tidy (handle world self move).memory := by
  rcases handle_cases world self h move with
    ⟨request, ending, -, hpending, heq⟩ | ⟨-, effects, -, -, hacts⟩
  · rw [heq]
    exact Tidy.endUpload world self h hpending ending
  · exact h.acts hacts

theorem tidy_step (self : App) (event : World × Move) (h : Tidy self.memory) :
    Tidy (step self event).1.memory := by
  cases hquitting : self.quitting with
  | true => rwa [step_of_quitting hquitting]
  | false =>
    rw [step_of_running hquitting]
    exact Tidy.handle event.1 { self with outbox := [] } h event.2

theorem tidy_start (restorePending : Option PaneId) (configuredTargets : List String)
    (resolvedTargets : ExtTreeMap TargetSession (Option String)) (maxTransferBytes : ℕ) :
    Tidy (start restorePending configuredTargets resolvedTargets maxTransferBytes).memory := by
  constructor <;> simp [start, memory]

end App

end Tui

end SuperHerdr
