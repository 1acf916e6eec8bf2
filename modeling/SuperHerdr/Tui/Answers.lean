import SuperHerdr.Tui.Endings

/-!
# What the daemon's messages change

Each message of the daemon's is written down somewhere: a frame, a lease or the end of a stream in
the routes, an answer among the operations, a download in the file that is saved. Here is said where,
and that none of them makes the frontend subscribe to a pane, or run an operation.
-/

namespace SuperHerdr

namespace Tui

open Std

namespace App

variable (world : World) (self : App)

/-! ### Uploads -/

variable (request : ℕ)

/-- An ending changes uploads and batches, and nothing else that is remembered. -/
theorem memory_ending (ending : Ending) :
    ∃ (uploads : ExtTreeMap ℕ PendingUpload) (batches : ExtTreeMap ℕ UploadBatch),
      (∀ other ∈ uploads, other ∈ self.pendingUploads) ∧
      (endUpload world self request ending).memory = { self.memory with uploads, batches } := by
  by_cases hpending : request ∈ self.pendingUploads
  · obtain ⟨batches, -, hmemory⟩ := memory_endUpload world self hpending ending
    exact ⟨self.pendingUploads.erase request, batches,
      fun other hother => (ExtTreeMap.mem_erase.mp hother).2, hmemory⟩
  · have hnone : self.pendingUploads[request]? = none := ExtTreeMap.getElem?_eq_none hpending
    refine ⟨self.pendingUploads, self.uploadBatches, fun _ => id, ?_⟩
    cases ending with
    | complete path => rw [endUpload, uploadComplete, hnone]; rfl
    | failed message => rw [endUpload, failUpload, hnone]; rfl

/-! ### Routes -/

/-- A route after a frame. -/
def ActiveRoute.framed (route : ActiveRoute) (sequence : ℕ) (width height : UInt16) (full : Bool)
    (bytes : List UInt8) : ActiveRoute :=
  let parser : Parser := if full ∨ route.rows ≠ height ∨ route.columns ≠ width then
    ⟨height, width, []⟩ else route.parser
  { route with
    rows := height
    columns := width
    parser := { parser with processed := parser.processed ++ bytes }
    lastSequence := some sequence }

/-- The routes after a message. -/
def heardRoutes (routes : ExtTreeMap PaneId ActiveRoute) :
    ServerMessage → ExtTreeMap PaneId ActiveRoute
  | .paneFrame pane sequence width height full bytes =>
      routes.modify pane (ActiveRoute.framed · sequence width height full bytes)
  | .paneLease pane access => routes.modify pane fun route => { route with access }
  | .paneClosed pane => routes.erase pane
  | _ => routes

/-! ### Operations and downloads -/

/-- The selection and the operations after a message. -/
def heardOperations (memory : Memory) : ServerMessage → Memory
  | .operationResult request applied _ _ =>
      let ended : Memory := { memory with
        inflight := false, operations := memory.operations.erase request }
      match memory.operations[request]? with
      | some ⟨true, session⟩ =>
          if applied then
            let before := match world.state.targets[session]?.bind TargetRuntimeState.snapshot with
              | some snapshot => snapshot.panes.toList.map (·.1)
              | none => []
            { ended with
              selectedPane := none
              followedFocus := some ⟨session, before, world.now + FOLLOW_FOCUS_TIMEOUT⟩ }
          else ended
      | _ => ended
  | .error (some request) _ =>
      if request ∈ memory.catalogs ∨ request ∈ memory.uploads ∨ request ∉ memory.operations then
        memory
      else { memory with inflight := false, operations := memory.operations.erase request }
  | _ => memory

/-- The request a message of a download names. -/
def download : ServerMessage → Option ℕ
  | .downloadOffer request .. => some request
  | .downloadChunk request _ => some request
  | .downloadFinished request => some request
  | _ => none

/-- What a message leaves of what is remembered: routes, operations and downloads are changed by
their own messages only, and nothing is asked for. -/
structure Heard (before : Memory) (message : ServerMessage) (after : Memory) : Prop where
  eq : after = { heardOperations world before message with
    routes := heardRoutes before.routes message
    catalogs := after.catalogs
    saveRequest := after.saveRequest
    save := after.save
    uploads := after.uploads
    batches := after.batches }
  saves : download message = none →
    after.saveRequest = before.saveRequest ∧ after.save = before.save
  catalogs : ∀ request ∈ after.catalogs, request ∈ before.catalogs
  uploads : ∀ request ∈ after.uploads, request ∈ before.uploads

theorem memory_updateSelectionAfterFrame (pane : PaneId) (before after : Parser) :
    (updateSelectionAfterFrame world self pane before after).memory = self.memory := by
  rw [updateSelectionAfterFrame]
  repeat' split
  all_goals rfl

/-- A frame of a pane that is held is written into its route. -/
theorem memory_paneFrame (pane : PaneId) (sequence : ℕ) (width height : UInt16) (full : Bool)
    (bytes : List UInt8) : (paneFrame world self pane sequence width height full bytes).memory =
      { self.memory with routes :=
          self.routes.modify pane (ActiveRoute.framed · sequence width height full bytes) } := by
  rw [paneFrame]
  split
  · next hnone =>
    have hroutes : self.routes.modify pane (ActiveRoute.framed · sequence width height full bytes) =
        self.routes := by
      refine ExtTreeMap.ext_getElem? fun other => ?_
      rw [ExtTreeMap.getElem?_modify]
      split
      · next hsame =>
        have hsame : pane = other := by simpa using hsame
        rw [← hsame, hnone]
        rfl
      · rfl
    rw [hroutes]
    rfl
  · next route hroute =>
    have hroutes : self.routes.modify pane (ActiveRoute.framed · sequence width height full bytes) =
        self.routes.insert pane (ActiveRoute.framed route sequence width height full bytes) := by
      refine ExtTreeMap.ext_getElem? fun other => ?_
      rw [ExtTreeMap.getElem?_insert, ExtTreeMap.getElem?_modify]
      split
      · rw [hroute]
        rfl
      · rfl
    dsimp only
    rw [memory_updateSelectionAfterFrame, hroutes]
    rfl

theorem heard_operationResult (applied : Bool) (text : String) (pluginRun : Option PluginRun) :
    Heard world self.memory (.operationResult request applied text pluginRun)
      (operationResult world self request applied).memory := by
  have hmemory : self.memory.operations[request]? = self.pendingOperations[request]? := rfl
  rw [operationResult]
  dsimp only
  cases hpending : self.pendingOperations[request]? with
  | none =>
    refine ⟨?_, fun _ => ⟨rfl, rfl⟩, fun _ => id, fun _ => id⟩
    rw [heardOperations, hmemory, hpending]
    rfl
  | some pending =>
    obtain ⟨follow, session⟩ := pending
    cases follow with
    | false =>
      refine ⟨?_, fun _ => ⟨rfl, rfl⟩, fun _ => id, fun _ => id⟩
      rw [heardOperations, hmemory, hpending]
      rfl
    | true =>
      cases applied with
      | false =>
        refine ⟨?_, fun _ => ⟨rfl, rfl⟩, fun _ => id, fun _ => id⟩
        rw [heardOperations, hmemory, hpending]
        rfl
      | true =>
        refine ⟨?_, fun _ => ⟨rfl, rfl⟩, fun _ => id, fun _ => id⟩
        rw [heardOperations, hmemory, hpending]
        rfl

/-- A message that is written down outside what is remembered here, or among catalogues and uploads. -/
theorem heard_of_memory {message : ServerMessage} {after : App}
    (hoperations : heardOperations world self.memory message = self.memory)
    (hroutes : heardRoutes self.routes message = self.routes)
    (hmemory : after.memory = { self.memory with
      catalogs := after.pendingPluginCatalogs
      uploads := after.pendingUploads
      batches := after.uploadBatches })
    (hcatalogs : ∀ request ∈ after.pendingPluginCatalogs, request ∈ self.pendingPluginCatalogs)
    (huploads : ∀ request ∈ after.pendingUploads, request ∈ self.pendingUploads) :
    Heard world self.memory message after.memory := by
  have hheard : heardRoutes self.memory.routes message = self.memory.routes := hroutes
  refine ⟨?_, fun _ => ?_, hcatalogs, huploads⟩
  · rw [hoperations, hheard, hmemory]
  · rw [hmemory]
    exact ⟨rfl, rfl⟩

theorem heard_pluginActions (target : TargetSession) (generation : ℕ)
    (actions : List PluginAction) :
    Heard world self.memory (.pluginActions request target generation actions)
      (pluginActions world self request target generation actions).memory := by
  rw [pluginActions]
  split
  · exact heard_of_memory world self rfl rfl rfl (fun _ => id) fun _ => id
  · dsimp only
    split_ifs
    all_goals
      exact heard_of_memory world self rfl rfl rfl (fun _ => mem_catalogs_erase) fun _ => id

theorem heard_downloadOffer (name : String) (length : ℕ) (digest : String) :
    Heard world self.memory (.downloadOffer request name length digest)
      (downloadOffer world self request name length digest).memory := by
  rw [downloadOffer]
  split_ifs
  all_goals exact ⟨rfl, (fun hnone => by cases hnone), fun _ => id, fun _ => id⟩

theorem heard_downloadChunk (bytes : List UInt8) :
    Heard world self.memory (.downloadChunk request bytes)
      (downloadChunk world self request bytes).memory := by
  rw [downloadChunk]
  split
  · exact ⟨rfl, (fun hnone => by cases hnone), fun _ => id, fun _ => id⟩
  · dsimp only
    split_ifs
    all_goals exact ⟨rfl, (fun hnone => by cases hnone), fun _ => id, fun _ => id⟩

theorem heard_downloadFinished :
    Heard world self.memory (.downloadFinished request) (self.downloadFinished request).memory := by
  rw [downloadFinished]
  split
  · exact ⟨rfl, (fun hnone => by cases hnone), fun _ => id, fun _ => id⟩
  · dsimp only
    split_ifs
    all_goals exact ⟨rfl, (fun hnone => by cases hnone), fun _ => id, fun _ => id⟩

/-- An upload that ends is heard of as such. -/
theorem heard_ending {message : ServerMessage}
    (hoperations : heardOperations world self.memory message = self.memory)
    (hroutes : heardRoutes self.routes message = self.routes) (request : ℕ) (ending : Ending) :
    Heard world self.memory message (endUpload world self request ending).memory := by
  obtain ⟨uploads, batches, huploads, hmemory⟩ := memory_ending world self request ending
  have hpending : (endUpload world self request ending).pendingUploads = uploads :=
    congrArg Memory.uploads hmemory
  have hbatches : (endUpload world self request ending).uploadBatches = batches :=
    congrArg Memory.batches hmemory
  have hcatalogs : (endUpload world self request ending).pendingPluginCatalogs =
      self.pendingPluginCatalogs := congrArg Memory.catalogs hmemory
  refine heard_of_memory world self hoperations hroutes ?_ ?_ ?_
  · rw [hpending, hbatches, hcatalogs]
    exact hmemory
  · rw [hcatalogs]
    exact fun _ => id
  · rw [hpending]
    exact huploads

/-- A refusal ends what its request was of. -/
theorem heard_requestFailed (text : String) : Heard world self.memory (.error (some request) text)
      (requestFailed world self request text).memory := by
  by_cases hcatalog : request ∈ self.pendingPluginCatalogs
  · obtain ⟨pending, hpending⟩ := Option.isSome_iff_exists.mp
      (ExtTreeMap.mem_iff_isSome_getElem?.mp hcatalog)
    rw [requestFailed, hpending]
    dsimp only
    split_ifs
    all_goals
      exact heard_of_memory world self (if_pos (.inl hcatalog)) rfl rfl
        (fun _ => mem_catalogs_erase) fun _ => id
  · rw [requestFailed, ExtTreeMap.getElem?_eq_none hcatalog]
    dsimp only
    by_cases hupload : request ∈ self.pendingUploads
    · have hended : (failUpload world self request text).2 = true := by
        obtain ⟨pending, hpending⟩ := Option.isSome_iff_exists.mp
          (ExtTreeMap.mem_iff_isSome_getElem?.mp hupload)
        rw [failUpload, hpending]
        dsimp only
        split <;> rfl
      have hkept : heardOperations world self.memory (.error (some request) text) = self.memory :=
        if_pos (.inr (.inl hupload))
      have hheard : Heard world self.memory (.error (some request) text)
          (failUpload world self request text).1.memory :=
        heard_ending world self hkept rfl request (.failed text)
      revert hended hheard
      rcases failUpload world self request text with ⟨after, _ | _⟩
      · exact fun hfalse => absurd hfalse (by simp)
      · exact fun _ hheard => hheard
    · have hnone : failUpload world self request text = (self, false) := by
        rw [failUpload, ExtTreeMap.getElem?_eq_none hupload]
      rw [hnone]
      dsimp only
      by_cases hoperation : request ∈ self.pendingOperations
      · have hends : ¬(request ∈ self.memory.catalogs ∨ request ∈ self.memory.uploads ∨
            request ∉ self.memory.operations) := by
          rintro (hmem | hmem | hmem)
          · exact hcatalog hmem
          · exact hupload hmem
          · exact hmem hoperation
        rw [if_pos (ExtTreeMap.mem_iff_contains.mp hoperation)]
        refine ⟨?_, fun _ => ⟨rfl, rfl⟩, fun _ => id, fun _ => id⟩
        rw [heardOperations, if_neg hends]
        rfl
      · rw [if_neg fun hcontains => hoperation (ExtTreeMap.mem_iff_contains.mpr hcontains)]
        exact heard_of_memory world self (if_pos (.inr (.inr hoperation))) rfl rfl (fun _ => id)
          fun _ => id

/-- **What is remembered changes as the daemon's messages say.** -/
theorem heard_handleDaemonEvent (message : ServerMessage) :
    Heard world self.memory message (handleDaemonEvent world self message).memory := by
  cases message with
  | paneFrame pane sequence width height full bytes =>
    have hmemory := memory_paneFrame world self pane sequence width height full bytes
    rw [handleDaemonEvent, hmemory]
    exact ⟨rfl, fun _ => ⟨rfl, rfl⟩, fun _ => id, fun _ => id⟩
  | operationResult => exact heard_operationResult world self _ _ _ _
  | pluginActions => exact heard_pluginActions world self _ _ _ _
  | downloadOffer => exact heard_downloadOffer world self _ _ _ _
  | downloadChunk => exact heard_downloadChunk world self _ _
  | downloadFinished => exact heard_downloadFinished world self _
  | uploadComplete request path => exact heard_ending world self rfl rfl request (.complete path)
  | pairingDecision =>
    rw [handleDaemonEvent]
    split
    all_goals exact heard_of_memory world self rfl rfl rfl (fun _ => id) fun _ => id
  | error request =>
    cases request with
    | none => exact heard_of_memory world self rfl rfl rfl (fun _ => id) fun _ => id
    | some request => exact heard_requestFailed world self request _
  | attention =>
    rw [handleDaemonEvent]
    split
    all_goals exact heard_of_memory world self rfl rfl rfl (fun _ => id) fun _ => id
  | _ => exact ⟨rfl, fun _ => ⟨rfl, rfl⟩, fun _ => id, fun _ => id⟩

/-- **The routes change as the messages of their panes say**, and with no other. -/
theorem routes_handleDaemonEvent (message : ServerMessage) :
    (handleDaemonEvent world self message).routes = heardRoutes self.routes message := by
  exact congrArg Memory.routes (heard_handleDaemonEvent world self message).eq

/-! ### What is sent -/

/-- What is told of a download as a message of it is refused. -/
def refusals : ServerMessage → List News
  | .downloadOffer request name _ _ =>
      if self.fileSaveRequest = some request ∧ !world.saveOpens name then [.cancelled request] else []
  | .downloadChunk request bytes =>
      if self.fileSave.any fun save => save.request = request ∧
          (save.length - save.received.length < bytes.length ∨ !world.saveWrites) then
        [.cancelled request]
      else []
  | _ => []

/-- What was sent tells something, and nothing else, of operations, subscriptions, uploads and files
that are saved. -/
def Says (self after : App) (told : List News) : Prop :=
  ∃ effects, after.outbox = self.outbox ++ effects ∧ effects.filterMap Effect.news = told

theorem Says.of_eq {self after : App} (h : after.outbox = self.outbox) : Says self after [] :=
  ⟨[], by simp [h], rfl⟩

theorem Says.send {self after : App} {effect : Effect} {told : List News}
    (h : after.outbox = self.outbox ++ [effect]) (hnews : effect.news.toList = told) :
    Says self after told := by
  refine ⟨[effect], h, ?_⟩
  rw [← hnews]
  cases heq : effect.news <;> simp [heq]

theorem outbox_updateSelectionAfterFrame (pane : PaneId) (before after : Parser) :
    (updateSelectionAfterFrame world self pane before after).outbox = self.outbox := by
  rw [updateSelectionAfterFrame]
  repeat' split
  all_goals rfl

theorem says_downloadOffer (name : String) (length : ℕ) (digest : String) :
    Says self (downloadOffer world self request name length digest)
      (refusals world self (.downloadOffer request name length digest)) := by
  rw [downloadOffer, refusals]
  by_cases hrequest : self.fileSaveRequest = some request
  · rw [if_neg (by simp [hrequest])]
    cases hopens : world.saveOpens name with
    | true => exact .send rfl (by simp [Effect.news])
    | false => exact .send rfl (by simp [Effect.news, hrequest])
  · rw [if_pos hrequest, if_neg (by simp [hrequest])]
    exact .of_eq rfl

theorem says_downloadChunk (bytes : List UInt8) : Says self (downloadChunk world self request bytes)
      (refusals world self (.downloadChunk request bytes)) := by
  rw [downloadChunk]
  cases hsave : self.fileSave with
  | none =>
    rw [refusals, hsave]
    exact .of_eq rfl
  | some save =>
    dsimp only
    by_cases hrequest : save.request = request
    · rw [if_neg (by simp [hrequest])]
      by_cases hrefused : save.length - save.received.length < bytes.length ∨ !world.saveWrites
      · rw [if_pos hrefused, refusals, hsave, if_pos (by simpa [hrequest] using hrefused)]
        exact .send rfl rfl
      · have hnothing : refusals world self (.downloadChunk request bytes) = [] := by
          rw [refusals, hsave, if_neg (by simpa [hrequest] using hrefused)]
        rw [if_neg hrefused, hnothing]
        split_ifs
        · exact .of_eq rfl
        · exact .send rfl rfl
    · rw [if_pos hrequest, refusals, hsave, if_neg (by simp [hrequest])]
      exact .of_eq rfl

theorem says_requestFailed (message : String) (hnone : self.pendingUploads[request]? = none) :
    Says self (requestFailed world self request message) [] := by
  have hfailed : failUpload world self request message = (self, false) := by
    rw [failUpload, hnone]
  rw [requestFailed]
  split
  · dsimp only
    split_ifs
    · exact .of_eq rfl
    · exact .of_eq rfl
  · rw [hfailed]
    dsimp only
    split_ifs
    · exact .of_eq rfl
    · exact .of_eq rfl

/-- A message of the daemon's makes the frontend tell no more than what it refuses, unless it ends an
upload. -/
theorem says_handleDaemonEvent (message : ServerMessage)
    (hending : ∀ request ending, (Move.daemon message).ending = some (request, ending) →
      self.pendingUploads[request]? = none) :
    Says self (handleDaemonEvent world self message) (refusals world self message) := by
  cases message with
  | paneFrame =>
    rw [handleDaemonEvent, paneFrame]
    split
    · exact .of_eq rfl
    · exact .of_eq (outbox_updateSelectionAfterFrame world _ _ _ _)
  | operationResult =>
    rw [handleDaemonEvent, operationResult]
    dsimp only
    repeat' split
    all_goals exact .of_eq rfl
  | pluginActions =>
    rw [handleDaemonEvent, pluginActions]
    split
    · exact .of_eq rfl
    · dsimp only
      split_ifs
      all_goals exact .of_eq rfl
  | downloadOffer => exact says_downloadOffer world self _ _ _ _
  | downloadChunk => exact says_downloadChunk world self _ _
  | downloadFinished =>
    rw [handleDaemonEvent, downloadFinished]
    split
    · exact .of_eq rfl
    · dsimp only
      split_ifs
      all_goals exact .of_eq rfl
  | uploadComplete request path =>
    rw [handleDaemonEvent, uploadComplete, hending request (.complete path) rfl]
    exact .of_eq rfl
  | pairingDecision =>
    rw [handleDaemonEvent]
    split
    all_goals exact .of_eq rfl
  | error request text =>
    cases request with
    | none => exact .of_eq rfl
    | some request =>
      exact says_requestFailed world self request text (hending request (.failed text) rfl)
  | attention =>
    rw [handleDaemonEvent]
    split
    all_goals exact .of_eq rfl
  | _ => exact .of_eq rfl

/-- What is told as the daemon says something: that a batch is settled, perhaps, and what is refused. -/
theorem news_handleDaemonEvent (h : Tidy self.memory) (houtbox : self.outbox = [])
    (message : ServerMessage) :
    ∃ report : List News, (∀ told ∈ report, ∃ batch state, told = .settled batch state) ∧
      (handleDaemonEvent world self message).outbox.filterMap Effect.news =
        report ++ refusals world self message := by
  rcases handle_cases world self h (.daemon message) with
    ⟨request, ending, hending, hpending, heq⟩ | ⟨hnone, -⟩
  · have hrefused : refusals world self message = [] := by
      rw [Move.ending.eq_def] at hending
      split at hending
      · next hmove => cases hmove; rfl
      · next hmove => cases hmove; rfl
      · next hmove => cases hmove
      · cases hending
    rw [handle] at heq
    rw [heq, hrefused]
    exact ⟨_, news_endUpload world self houtbox hpending ending, by simp⟩
  · obtain ⟨effects, hsent, hsays⟩ := says_handleDaemonEvent world self message hnone
    refine ⟨[], by simp, ?_⟩
    rw [hsent, houtbox, List.nil_append, hsays, List.nil_append]

/-- Nothing of it is news of operations, subscriptions or uploads. -/
theorem mem_news_handleDaemonEvent (h : Tidy self.memory) (houtbox : self.outbox = [])
    (message : ServerMessage) :
    ∀ told ∈ (handleDaemonEvent world self message).outbox.filterMap Effect.news,
      (∃ batch state, told = .settled batch state) ∨ ∃ request, told = .cancelled request := by
  obtain ⟨report, hreport, hnews⟩ := news_handleDaemonEvent world self h houtbox message
  intro told hmem
  rw [hnews] at hmem
  rcases List.mem_append.mp hmem with hmem | hmem
  · exact .inl (hreport told hmem)
  · right
    rw [refusals.eq_def] at hmem
    split at hmem
    · split at hmem
      · exact ⟨_, List.mem_singleton.mp hmem⟩
      · cases hmem
    · split at hmem
      · exact ⟨_, List.mem_singleton.mp hmem⟩
      · cases hmem
    · cases hmem

/-! ### Moves that are not the daemon's -/

/-- **What the frontend does of its own**: an upload it could not read ends, or there is a sequence of
acts, none of which pastes a path of an upload or follows what the daemon said. -/
theorem handle_own (h : Tidy self.memory) (move : Move) (hown : ∀ message, move ≠ .daemon message) :
    (∃ request ending, request ∈ self.pendingUploads ∧
      handle world self move = endUpload world self request ending) ∨
    self.Sends unprompted (handle world self move) := by
  rcases handle_cases world self h move with ⟨request, ending, -, hpending, heq⟩ | ⟨hnone, -⟩
  · exact .inl ⟨request, ending, hpending, heq⟩
  · exact .inr (sends_handle_own world self (handles_of_le unprompted_le_self)
      (by simp [unprompted, unverified]) move
      (fun input _ => inputAllowed_of_le world self unprompted_le_self input) hown hnone)

end App

end Tui

end SuperHerdr
