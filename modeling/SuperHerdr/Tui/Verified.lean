import SuperHerdr.Tui.Endings

/-!
# Where verified paths are pasted

An upload is addressed to a pane when it is offered, and its path is pasted when it ends, into the
pane that is selected by then. `verified_stays` is exact about when the two are the same; it also
says that what is pasted are paths of uploads that were offered to the pane it is meant for.
-/

namespace SuperHerdr

namespace Tui

open Std Transducer

namespace App

variable {scope : Scope} (world : World) (self : App)

/-! ### What is pasted, and where -/

/-- Verified paths are sent to the pane they were uploaded to. -/
def Belongs (self : App) (event : World × Move) : Prop :=
  ∀ destination pane payload,
    Effect.send (.verified destination) (.paneInput pane payload) ∈ (step self event).2 →
      pane = destination

/-- The selected pane can be given a line. -/
def Receives (line : String) (pane : PaneId) : Prop :=
  self.selectedPane = some pane ∧
    (∃ route, self.routes[pane]? = some route ∧ route.access = .control) ∧
    hasTerminator line.toUTF8.toList = false

/-- If an ending makes paths ready, the pane that can be given them is the one they belong to. -/
def Stays (self : App) (event : World × Move) : Prop :=
  self.quitting = false → ∀ request ending destination paths,
    event.2.ending = some (request, ending) → self.ready request ending = some (destination, paths) →
      ∀ pane, Receives self (verifiedLine paths) pane → pane = destination

theorem verifiedPaste_isSome (paths : List String) (pane : PaneId) :
    (∃ payload, verifiedPaste world self paths = some (pane, payload)) ↔
      Receives self (verifiedLine paths) pane := by
  rw [verifiedPaste, Receives]
  cases hselected : self.selectedPane with
  | none => simp
  | some selected =>
    dsimp only
    cases hroute : self.routes[selected]? with
    | none =>
      constructor
      · simp
      · rintro ⟨hpane, ⟨route, hfound, -⟩, -⟩
        injection hpane with hpane
        simp [← hpane, hroute] at hfound
    | some route =>
      have hpaste : (∃ payload, terminalPastePayload (verifiedLine paths).toUTF8.toList
          (world.emulator.bracketedPaste route.parser) = some payload) ↔
            hasTerminator (verifiedLine paths).toUTF8.toList = false := by
        rw [terminalPastePayload]
        cases hasTerminator (verifiedLine paths).toUTF8.toList <;>
          cases world.emulator.bracketedPaste route.parser <;> simp
      rw [← hpaste]
      dsimp only
      by_cases hcontrol : route.access = .control
      · simp only [hcontrol, ne_eq, not_true_eq_false, if_false, Option.map_eq_some_iff,
          Prod.mk.injEq, Option.some.injEq]
        constructor
        · rintro ⟨payload, _, hpayload, rfl, rfl⟩
          exact ⟨rfl, ⟨route, hroute, hcontrol⟩, _, hpayload⟩
        · rintro ⟨rfl, -, payload, hpayload⟩
          exact ⟨payload, payload, hpayload, rfl, rfl⟩
      · constructor
        · simp [hcontrol]
        · rintro ⟨hpane, ⟨found, hfound, hgranted⟩, -⟩
          injection hpane with hpane
          rw [← hpane, hroute] at hfound
          injection hfound with hfound
          exact absurd (hfound ▸ hgranted) hcontrol

theorem mem_verifiedEffects {destination : PaneId} {paths : List String} {effect : Effect} :
    effect ∈ verifiedEffects world self destination paths ↔
      ∃ pane payload, verifiedPaste world self paths = some (pane, payload) ∧
        effect = .send (.verified destination) (.paneInput pane payload) := by
  rw [verifiedEffects]
  cases verifiedPaste world self paths with
  | none => simp
  | some paste =>
    obtain ⟨pane, payload⟩ := paste
    simp only [Option.map_some, Option.toList_some, List.mem_singleton, Option.some.injEq,
      Prod.mk.injEq]
    constructor
    · rintro rfl
      exact ⟨pane, payload, ⟨rfl, rfl⟩, rfl⟩
    · rintro ⟨_, _, ⟨rfl, rfl⟩, rfl⟩
      rfl

/-- A turn of the loop sends verified paths only if it ends an upload that makes them ready. -/
theorem mem_step_verified (h : Tidy self.memory) (event : World × Move) {destination : PaneId}
    {message : ClientMessage} :
    Effect.send (.verified destination) message ∈ (step self event).2 ↔
      self.quitting = false ∧ ∃ request ending paths, event.2.ending = some (request, ending) ∧
        self.ready request ending = some (destination, paths) ∧
        ∃ pane payload, verifiedPaste event.1 self paths = some (pane, payload) ∧
          message = .paneInput pane payload := by
  cases hquitting : self.quitting with
  | true => simp [step_of_quitting hquitting]
  | false =>
    rw [step_of_running hquitting]
    simp only [true_and]
    rcases handle_cases event.1 { self with outbox := [] } h event.2 with
      ⟨request, ending, hending, hpending, heq⟩ | ⟨hnone, effects, hsent, hwithin, -⟩
    · obtain ⟨report, hreport, houtbox⟩ := outbox_endUpload event.1 { self with outbox := [] }
        hpending ending
      rw [heq, houtbox]
      have hready : ({ self with outbox := [] } : App).ready request ending =
          self.ready request ending := rfl
      have hpaste : ∀ paths, verifiedPaste event.1 { self with outbox := [] } paths =
          verifiedPaste event.1 self paths := fun _ => rfl
      have hquiet : Effect.send (.verified destination) message ∉ report := by
        intro hmem
        obtain ⟨batch, state, hsettled⟩ := hreport _ hmem
        cases hsettled
      rw [List.nil_append, List.mem_append, or_iff_right hquiet, hready]
      constructor
      · intro hmem
        split at hmem
        · cases hmem
        · next meant paths hpaths =>
          obtain ⟨pane, payload, hpasted, hsend⟩ := (mem_verifiedEffects _ _).mp hmem
          injection hsend with horigin hmessage
          injection horigin with horigin
          exact ⟨request, ending, paths, hending, horigin ▸ hpaths, pane, payload,
            hpaste paths ▸ hpasted, hmessage⟩
      · rintro ⟨_, _, paths, hsame, hpaths, pane, payload, hpasted, rfl⟩
        rw [hending] at hsame
        cases hsame
        rw [hpaths]
        exact (mem_verifiedEffects _ _).mpr ⟨pane, payload, hpasted, rfl⟩
    · constructor
      · intro hmem
        rw [hsent] at hmem
        exact absurd rfl ((hwithin _ hmem).2 _ _ rfl destination)
      · rintro ⟨request, ending, paths, hending, hready, -⟩
        have hnothing : self.ready request ending = none := by
          have habsent : self.pendingUploads[request]? = none := hnone request ending hending
          rw [ready, habsent]
        simp [hnothing] at hready

theorem belongs_iff_stays (h : Tidy self.memory) (event : World × Move) :
    self.Belongs event ↔ self.Stays event := by
  constructor
  · intro hbelongs hquitting request ending destination paths hending hready pane hreceives
    obtain ⟨payload, hpaste⟩ := (verifiedPaste_isSome event.1 self paths pane).mpr hreceives
    exact hbelongs destination pane payload ((mem_step_verified self h event).mpr
      ⟨hquitting, request, ending, paths, hending, hready, pane, payload, hpaste, rfl⟩)
  · intro hstays destination pane payload hmem
    obtain ⟨hquitting, request, ending, paths, hending, hready, found, sent, hpaste, hmessage⟩ :=
      (mem_step_verified self h event).mp hmem
    injection hmessage with hpane
    exact hstays hquitting request ending destination paths hending hready pane
      ((verifiedPaste_isSome event.1 self paths pane).mp ⟨sent, hpane ▸ hpaste⟩)

/-! ### Whose paths they are -/

/-- A path the daemon verified, of an upload that was offered to a pane. -/
def Arrived (told : List News) (events : List (World × Move)) (pane : PaneId) (path : String) :
    Prop :=
  ∃ request length world, .begun request pane ∈ told ∧
    (world, Move.daemon (.uploadComplete request path length)) ∈ events

theorem Arrived.mono {told more : List News} {events later : List (World × Move)} {pane : PaneId}
    {path : String} (h : Arrived told events pane path) (htold : told ⊆ more)
    (hevents : events ⊆ later) : Arrived more later pane path := by
  obtain ⟨request, length, world, hbegun, hevent⟩ := h
  exact ⟨request, length, world, htold hbegun, hevents hevent⟩

/-- What is remembered of an upload is where it was offered, of a batch whose paths it has. -/
structure Placed (told : List News) (events : List (World × Move)) (memory : Memory) : Prop where
  uploads : ∀ (request : ℕ) (pending : PendingUpload), memory.uploads[request]? = some pending →
    .begun request pending.destination ∈ told ∧
      ∀ entry, pending.batch = some entry → entry.batch < memory.nextBatch ∧
        ∀ state : UploadBatch, memory.batches[entry.batch]? = some state →
          state.destination = pending.destination
  batches : ∀ (batch : ℕ) (state : UploadBatch), memory.batches[batch]? = some state →
    batch < memory.nextBatch ∧
      ∀ path ∈ settledBatch state, Arrived told events state.destination path

theorem Placed.mono {told more : List News} {events later : List (World × Move)} {memory : Memory}
    (h : Placed told events memory) (htold : told ⊆ more) (hevents : events ⊆ later) :
    Placed more later memory where
  uploads request pending hpending :=
    ⟨htold (h.uploads request pending hpending).1, (h.uploads request pending hpending).2⟩
  batches batch state hstate :=
    ⟨(h.batches batch state hstate).1,
      fun path hpath => ((h.batches batch state hstate).2 path hpath).mono htold hevents⟩

theorem mem_settledBatch {state : UploadBatch} {path : String} :
    path ∈ settledBatch state ↔ ∃ position : ℕ, state.paths[position]? = some path := by
  rw [settledBatch, List.mem_map]
  constructor
  · rintro ⟨⟨position, _⟩, hmem, rfl⟩
    exact ⟨position, ExtTreeMap.mem_toList_iff_getElem?_eq_some.mp hmem⟩
  · rintro ⟨position, hpath⟩
    exact ⟨(position, path), ExtTreeMap.mem_toList_iff_getElem?_eq_some.mpr hpath, rfl⟩

variable {events : List (World × Move)}

theorem Placed.acts {told news : List News} {before after : Memory}
    (h : Placed told events before) (hacts : Acts scope before news after) :
    Placed (told ++ news) events after := by
  induction hacts generalizing told with
  | @single before pane described =>
    have hkept := h.mono (List.subset_append_left told [.begun before.nextRequest pane])
      (List.Subset.refl events)
    refine ⟨fun request pending hpending => ?_, hkept.batches⟩
    rw [ExtTreeMap.getElem?_insert] at hpending
    split at hpending
    · next hnew =>
      have hrequest : before.nextRequest = request := by simpa using hnew
      cases hpending
      exact ⟨by simp [hrequest], fun entry hentry => by cases hentry⟩
    · exact hkept.uploads request pending hpending
  | @batch before offer uploads hfirst htaken =>
    have hkept := h.mono (List.subset_append_left told ((offer.requests.map fun request =>
      News.begun request.1 offer.pane) ++ [.started before.nextBatch offer.requests]))
      (List.Subset.refl events)
    constructor
    · intro request pending hpending
      rw [htaken.uploads] at hpending
      split at hpending
      · next hin =>
        obtain ⟨name, hname, rfl⟩ := Option.map_eq_some_iff.mp hpending
        constructor
        · have hrequest : (request, name) ∈ offer.requests := by
            rw [BatchOffer.requests, List.mem_mapIdx]
            obtain ⟨hlt, hget⟩ := List.getElem?_eq_some_iff.mp hname
            exact ⟨request - offer.first, hlt, by rw [hget]; simp; omega⟩
          have hbegun : News.begun request offer.pane ∈ offer.requests.map fun request =>
              News.begun request.1 offer.pane := List.mem_map.mpr ⟨_, hrequest, rfl⟩
          exact List.mem_append_right _ (List.mem_append_left _ hbegun)
        · intro entry hentry
          cases hentry
          refine ⟨Nat.lt_succ_self _, fun state hstate => ?_⟩
          simp at hstate
          exact hstate ▸ rfl
      · obtain ⟨hbegun, hentries⟩ := hkept.uploads request pending hpending
        refine ⟨hbegun, fun entry hentry => ?_⟩
        obtain ⟨hlt, hplaces⟩ := hentries entry hentry
        refine ⟨Nat.lt_succ_of_lt hlt, fun state hstate => hplaces state ?_⟩
        rwa [ExtTreeMap.getElem?_insert, if_neg (by simp; omega)] at hstate
    · intro batch state hstate
      rw [ExtTreeMap.getElem?_insert] at hstate
      split at hstate
      · next hnew =>
        have hbatch : before.nextBatch = batch := by simpa using hnew
        cases hstate
        refine ⟨hbatch ▸ Nat.lt_succ_self _, fun path hpath => ?_⟩
        obtain ⟨position, hposition⟩ := mem_settledBatch.mp hpath
        simp at hposition
      · exact ⟨Nat.lt_succ_of_lt (hkept.batches batch state hstate).1,
          (hkept.batches batch state hstate).2⟩
  | trans _ _ ih ihmore =>
    rw [← List.append_assoc]
    exact ihmore (ih h)
  | _ =>
    have hkept : ∀ more, Placed (told ++ more) events _ := fun more =>
      h.mono (List.subset_append_left told more) (List.Subset.refl events)
    exact ⟨(hkept _).uploads, (hkept _).batches⟩

variable {told : List News}

/-- What an ending adds to a batch has arrived. -/
theorem arrived_note {state : UploadBatch}
    {pane : PaneId} {position : ℕ} {described : String} {ending : Ending}
    (hold : ∀ path ∈ settledBatch state, Arrived told events pane path)
    (hnew : ∀ path, ending = .complete path → Arrived told events pane path) :
    ∀ path ∈ settledBatch (state.note position described ending), Arrived told events pane path := by
  intro path hpath
  obtain ⟨held, hheld⟩ := mem_settledBatch.mp hpath
  cases ending with
  | complete arrived =>
    simp only [UploadBatch.note, ExtTreeMap.getElem?_insert] at hheld
    split at hheld
    · injection hheld with hheld
      exact hheld ▸ hnew arrived rfl
    · exact hold path (mem_settledBatch.mpr ⟨held, hheld⟩)
  | failed message => exact hold path (mem_settledBatch.mpr ⟨held, hheld⟩)

/-- The paths that an ending makes ready have arrived. -/
theorem Placed.ready {request : ℕ} {ending : Ending} (h : Placed told events self.memory)
    (hnew : ∀ path, ending = .complete path → ∃ length world,
      (world, Move.daemon (.uploadComplete request path length)) ∈ events)
    {destination : PaneId} {paths : List String}
    (hready : self.ready request ending = some (destination, paths)) :
    ∀ path ∈ paths, Arrived told events destination path := by
  have harrived : ∀ pending, self.pendingUploads[request]? = some pending → ∀ path,
      ending = .complete path → Arrived told events pending.destination path := by
    intro pending hpending path hcomplete
    obtain ⟨length, world, hevent⟩ := hnew path hcomplete
    exact ⟨request, length, world, (h.uploads request pending hpending).1, hevent⟩
  rw [App.ready] at hready
  split at hready
  · cases hready
  · next pending hpending =>
    split at hready
    · split at hready
      · next path =>
        cases hready
        intro found hfound
        rw [List.mem_singleton.mp hfound]
        exact harrived pending hpending path rfl
      · cases hready
    · next entry hentry =>
      split at hready
      · cases hready
      · next state hstate =>
        dsimp only at hready
        split at hready
        · cases hready
          have hplace := ((h.uploads request pending hpending).2 entry hentry).2 state hstate
          rw [UploadBatch.note_destination]
          exact arrived_note (h.batches entry.batch state hstate).2
            fun path hcomplete => hplace ▸ harrived pending hpending path hcomplete
        · cases hready

/-- Uploads that are forgotten, and batches that are or that get a path which arrived. -/
theorem Placed.change {memory : Memory}
    (h : Placed told events memory) (uploads : ExtTreeMap ℕ PendingUpload)
    (batches : ExtTreeMap ℕ UploadBatch)
    (huploads : ∀ (request : ℕ) (pending : PendingUpload), uploads[request]? = some pending →
      memory.uploads[request]? = some pending)
    (hbatches : ∀ (batch : ℕ) (state : UploadBatch), batches[batch]? = some state →
      ∃ old : UploadBatch, memory.batches[batch]? = some old ∧
        state.destination = old.destination ∧
        ∀ path ∈ settledBatch state, Arrived told events state.destination path) :
    Placed told events { memory with uploads, batches } := by
  constructor
  · intro request pending hpending
    obtain ⟨hbegun, hentries⟩ := h.uploads request pending (huploads request pending hpending)
    refine ⟨hbegun, fun entry hentry => ⟨(hentries entry hentry).1, fun state hstate => ?_⟩⟩
    obtain ⟨old, hold, hsame, -⟩ := hbatches entry.batch state hstate
    exact hsame.trans ((hentries entry hentry).2 old hold)
  · intro batch state hstate
    obtain ⟨old, hold, -, harrived⟩ := hbatches batch state hstate
    exact ⟨(h.batches batch old hold).1, harrived⟩

theorem Placed.endUpload {request : ℕ}
    {ending : Ending} (h : Placed told events self.memory) (hpending : request ∈ self.pendingUploads)
    (hnew : ∀ path, ending = .complete path → ∃ length world,
      (world, Move.daemon (.uploadComplete request path length)) ∈ events) :
    Placed told events (endUpload world self request ending).memory := by
  obtain ⟨pending, hsome⟩ := Option.isSome_iff_exists.mp
    (ExtTreeMap.mem_iff_isSome_getElem?.mp hpending)
  have huploads : ∀ (held : ℕ) (found : PendingUpload),
      (self.pendingUploads.erase request)[held]? = some found →
        self.pendingUploads[held]? = some found := by
    intro held found hfound
    rw [ExtTreeMap.getElem?_erase] at hfound
    split at hfound
    · cases hfound
    · exact hfound
  have hkept : ∀ (batch : ℕ) (state : UploadBatch), self.uploadBatches[batch]? = some state →
      ∃ old : UploadBatch, self.uploadBatches[batch]? = some old ∧
        state.destination = old.destination ∧
        ∀ path ∈ settledBatch state, Arrived told events state.destination path :=
    fun batch state hstate => ⟨state, hstate, rfl, (h.batches batch state hstate).2⟩
  cases hbatch : pending.batch with
  | none =>
    rw [endUpload_single world self hsome hbatch]
    exact h.change _ _ huploads hkept
  | some entry =>
    cases hstate : self.uploadBatches[entry.batch]? with
    | none =>
      rw [endUpload_stray world self hsome hbatch hstate]
      exact h.change _ _ huploads hkept
    | some state =>
      obtain ⟨hbegun, hentries⟩ := h.uploads request pending hsome
      have hplace := (hentries entry hbatch).2 state hstate
      have hnoted : ∀ path ∈ settledBatch (state.note entry.position pending.described ending),
          Arrived told events state.destination path := by
        refine arrived_note (h.batches entry.batch state hstate).2 fun path hcomplete => ?_
        obtain ⟨length, world, hevent⟩ := hnew path hcomplete
        exact ⟨request, length, world, hplace ▸ hbegun, hevent⟩
      have hinserted : ∀ (batch : ℕ) (found : UploadBatch),
          (self.uploadBatches.insert entry.batch
            (state.note entry.position pending.described ending))[batch]? = some found →
          ∃ old : UploadBatch, self.uploadBatches[batch]? = some old ∧
            found.destination = old.destination ∧
            ∀ path ∈ settledBatch found, Arrived told events found.destination path := by
        intro batch found hfound
        rw [ExtTreeMap.getElem?_insert] at hfound
        split at hfound
        · next hsame =>
          have hsame : entry.batch = batch := by simpa using hsame
          cases hfound
          exact ⟨state, hsame ▸ hstate, by simp, by simpa using hnoted⟩
        · exact hkept batch found hfound
      rw [endUpload_batch_eq world self hsome hbatch hstate]
      dsimp only
      split
      · refine h.change _ _ huploads fun batch found hfound => hinserted batch found ?_
        rw [ExtTreeMap.getElem?_erase] at hfound
        split at hfound
        · cases hfound
        · exact hfound
      · exact h.change _ _ huploads hinserted

theorem complete_of_ending {move : Move} {request : ℕ} {path : String}
    (h : move.ending = some (request, .complete path)) :
    ∃ length, move = .daemon (.uploadComplete request path length) := by
  rw [Move.ending.eq_def] at h
  split at h
  · cases h
    exact ⟨_, rfl⟩
  all_goals cases h

/-! ### Every run -/

theorem Placed.after_step (htidy : Tidy self.memory)
    (h : Placed told events self.memory) (event : World × Move) :
    Placed (told ++ (step self event).2.filterMap Effect.news) (events ++ [event])
      (step self event).1.memory := by
  have hkept := h.mono (List.Subset.refl told) (List.subset_append_left events [event])
  cases hquitting : self.quitting with
  | true =>
    rw [step_of_quitting hquitting]
    simpa using hkept
  | false =>
    rw [step_of_running hquitting]
    rcases handle_cases event.1 { self with outbox := [] } htidy event.2 with
      ⟨request, ending, hending, hpending, heq⟩ | ⟨-, effects, hsent, -, hacts⟩
    · have hnew : ∀ path, ending = .complete path → ∃ length world,
          (world, Move.daemon (.uploadComplete request path length)) ∈ events ++ [event] := by
        intro path hcomplete
        obtain ⟨length, hmove⟩ := complete_of_ending (hcomplete ▸ hending)
        exact ⟨length, event.1, by simp [← hmove]⟩
      have hended := Placed.endUpload event.1 { self with outbox := [] } hkept hpending hnew
      rw [heq]
      exact hended.mono (List.subset_append_left told _) (List.Subset.refl _)
    · rw [hsent]
      exact hkept.acts hacts

theorem payload_of_verifiedPaste {paths : List String} {pane : PaneId} {payload : List UInt8}
    (h : verifiedPaste world self paths = some (pane, payload)) :
    ∃ bracketed, terminalPastePayload (verifiedLine paths).toUTF8.toList bracketed =
      some payload := by
  rw [verifiedPaste] at h
  split at h
  · cases h
  · split at h
    · cases h
    · next route _ =>
      split at h
      · cases h
      · obtain ⟨found, hfound, hpaste⟩ := Option.map_eq_some_iff.mp h
        cases hpaste
        exact ⟨world.emulator.bracketedPaste route.parser, hfound⟩

/-- What a run pastes has arrived for the pane it is meant for. -/
def Faithful (told : List News) (events : List (World × Move)) (sent : List Effect) : Prop :=
  ∀ destination message, Effect.send (.verified destination) message ∈ sent →
    ∃ pane paths payload bracketed, message = .paneInput pane payload ∧
      terminalPastePayload (verifiedLine paths).toUTF8.toList bracketed = some payload ∧
      ∀ path ∈ paths, Arrived told events destination path

theorem Placed.faithful (htidy : Tidy self.memory)
    (h : Placed told events self.memory) (event : World × Move) :
    Faithful told (events ++ [event]) (step self event).2 := by
  intro destination message hmem
  obtain ⟨-, request, ending, paths, hending, hready, pane, payload, hpaste, hmessage⟩ :=
    (mem_step_verified self htidy event).mp hmem
  obtain ⟨bracketed, hpayload⟩ := payload_of_verifiedPaste event.1 self hpaste
  refine ⟨pane, paths, payload, bracketed, hmessage, hpayload, ?_⟩
  refine Placed.ready self (h.mono (List.Subset.refl told) (List.subset_append_left events [event]))
    (fun path hcomplete => ?_) hready
  obtain ⟨length, hmove⟩ := complete_of_ending (hcomplete ▸ hending)
  exact ⟨length, event.1, by simp [← hmove]⟩

theorem tidy_exec (self : App) (h : Tidy self.memory) (events : List (World × Move)) :
    Tidy (exec step self events).1.memory :=
  exec_invariant (I := fun self : App => Tidy self.memory) tidy_step h events

theorem placed_run (self : App) (htidy : Tidy self.memory) (hplaced : Placed [] [] self.memory)
    (events : List (World × Move)) :
    Placed ((exec step self events).2.filterMap Effect.news) events
        (exec step self events).1.memory ∧
      Faithful ((exec step self events).2.filterMap Effect.news) events
        (exec step self events).2 := by
  induction events using List.reverseRecOn with
  | nil => exact ⟨hplaced, fun destination message hmem => by simp at hmem⟩
  | append_singleton events event ih =>
    obtain ⟨hrun, hfaithful⟩ := ih
    have hreached := tidy_exec self htidy events
    rw [exec_append, exec_singleton, List.filterMap_append]
    refine ⟨Placed.after_step _ hreached hrun event, fun destination message hmem => ?_⟩
    have harrived : ∃ pane paths payload bracketed, message = .paneInput pane payload ∧
        terminalPastePayload (verifiedLine paths).toUTF8.toList bracketed = some payload ∧
        ∀ path ∈ paths, Arrived ((exec step self events).2.filterMap Effect.news)
          (events ++ [event]) destination path := by
      rcases List.mem_append.mp hmem with hmem | hmem
      · obtain ⟨pane, paths, payload, bracketed, hmessage, hpayload, hpaths⟩ :=
          hfaithful destination message hmem
        exact ⟨pane, paths, payload, bracketed, hmessage, hpayload, fun path hpath =>
          (hpaths path hpath).mono (List.Subset.refl _) (List.subset_append_left _ _)⟩
      · exact Placed.faithful _ hreached hrun event destination message hmem
    obtain ⟨pane, paths, payload, bracketed, hmessage, hpayload, hpaths⟩ := harrived
    exact ⟨pane, paths, payload, bracketed, hmessage, hpayload, fun path hpath =>
      (hpaths path hpath).mono (List.subset_append_left _ _) (List.Subset.refl _)⟩

/-- **Verified paths stay where their files are**, in every step of a run, exactly when no upload
ends, with paths to paste, while another pane is selected that can be given them. Whatever is pasted
are paths that the daemon verified, of uploads that were offered to the pane they are meant for. -/
theorem verified_stays (restorePending : Option PaneId) (configuredTargets : List String)
    (resolvedTargets : ExtTreeMap TargetSession (Option String)) (maxTransferBytes : ℕ)
    (events : List (World × Move)) :
    let before := start restorePending configuredTargets resolvedTargets maxTransferBytes
    Faithful ((exec step before events).2.filterMap Effect.news) events (exec step before events).2 ∧
      (AllSteps step Belongs before events ↔ AllSteps step Stays before events) := by
  intro before
  have htidy : Tidy before.memory :=
    tidy_start restorePending configuredTargets resolvedTargets maxTransferBytes
  have hplaced : Placed [] [] before.memory := by
    constructor
    · intro request pending hpending
      simp [before, start, memory] at hpending
    · intro batch state hstate
      simp [before, start, memory] at hstate
  exact ⟨(placed_run before htidy hplaced events).2,
    allSteps_congr (I := fun self : App => Tidy self.memory) tidy_step
      (fun self event h => belongs_iff_stays self h event) htidy events⟩

/-- A picture is offered to a pane of one host, and a pane of another host is selected before the
daemon has verified it: the path is typed there. -/
theorem a_path_reaches_another_host :
    let pane : PaneId := ⟨"box", "main", "1"⟩
    let other : PaneId := ⟨"far", "main", "1"⟩
    let world := { hosting [liveTarget ⟨"box", "main"⟩ 1 none [pane],
      liveTarget ⟨"far", "main"⟩ 1 none [other]] with clipboardMedia := some ("image/png", [7]) }
    (exec step (start (some pane) [] ∅ 100)
      [(world, .draw), (world, .daemon (.paneLease pane .control)),
        (world, .input (.bytes [PREFIX_KEY])), (world, .input (.bytes [0x69])),
        (world, .activated other), (world, .draw), (world, .daemon (.paneLease other .control)),
        (world, .daemon (.uploadComplete 0 "/tmp/a" 1))]).2.getLast? =
      some (.send (.verified pane) (.paneInput other "'/tmp/a'".toUTF8.toList)) := by
  decide +kernel

end App

end Tui

end SuperHerdr
