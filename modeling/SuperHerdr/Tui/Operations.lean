import SuperHerdr.Tui.Subscriptions

/-!
# One operation at a time

An operation is submitted only while no other is under way, and the flag that says so is cleared by
answers. The answers of other requests share their messages, so the flag goes by the operation that
was submitted exactly as long as, while that one is unanswered, no other answer clears it:
`one_operation_at_a_time`.
-/

namespace SuperHerdr

namespace Tui

open Std Transducer

namespace App

variable {scope : Scope} (world : World) (self : App)

/-! ### What was submitted -/

/-- The operations that wait for an answer, after what is told. -/
def hearOperation (unanswered : List ℕ) : News → List ℕ
  | .ran request => unanswered ++ [request]
  | _ => unanswered

/-- The operations that still wait once a message arrived. -/
def answer (unanswered : List ℕ) : Move → List ℕ
  | .daemon (.operationResult request _ _ _) => unanswered.filter (· ≠ request)
  | .daemon (.error (some request) _) => unanswered.filter (· ≠ request)
  | _ => unanswered

/-- The same after a turn of the loop. -/
def await (unanswered : List ℕ) (self : App) (event : World × Move) (result : App × List Effect) :
    List ℕ :=
  if self.quitting then unanswered
  else (result.2.filterMap Effect.news).foldl hearOperation (answer unanswered event.2)

/-- At most one operation waits for an answer, and the flag is set exactly while one does. -/
def Guarded (s : App × List ℕ) : Prop :=
  s.2.length ≤ 1 ∧ (s.1.herdrActionInflight = true ↔ s.2 ≠ [])

/-- The request by which a message clears the flag. -/
def clears : Move → Option ℕ
  | .daemon (.operationResult request _ _ _) => some request
  | .daemon (.error (some request) _) =>
      if request ∈ self.pendingOperations then some request else none
  | _ => none

/-- While an operation waits, no answer of another request clears the flag. -/
def AnswersOwn (s : App × List ℕ) (event : World × Move) : Prop :=
  s.1.quitting = false → s.2 ≠ [] → ∀ request, clears s.1 event.2 = some request → request ∈ s.2

/-! ### Whose request it is -/

/-- Requests of operations are no other's, and those that wait are among them. -/
structure Awaited (memory : Memory) (unanswered : List ℕ) : Prop where
  taken : ∀ request ∈ memory.operations, request < memory.nextRequest
  catalogs : ∀ request ∈ memory.operations, request ∉ memory.catalogs
  uploads : ∀ request ∈ memory.operations, request ∉ memory.uploads
  waiting : ∀ request ∈ unanswered, request ∈ memory.operations

variable {unanswered : List ℕ}

theorem Awaited.insert {before : Memory} (h : Awaited before unanswered)
    (htidy : Tidy before) (pending : PendingOperation) (inflight : Bool) (more : List ℕ)
    (hmore : ∀ request ∈ more, request = before.nextRequest) :
    Awaited { before with
      nextRequest := before.nextRequest + 1
      inflight
      operations := before.operations.insert before.nextRequest pending } (unanswered ++ more) := by
  have hmem : ∀ {request}, request ∈ before.operations.insert before.nextRequest pending →
      before.nextRequest = request ∨ request ∈ before.operations := by
    intro request hmem
    simpa using ExtTreeMap.mem_insert.mp hmem
  constructor
  · intro request hoperation
    rcases hmem hoperation with rfl | hold
    · exact Nat.lt_succ_self _
    · exact (h.taken request hold).trans (Nat.lt_succ_self _)
  · intro request hoperation hcatalog
    rcases hmem hoperation with rfl | hold
    · exact lt_irrefl _ (htidy.catalogs _ hcatalog)
    · exact h.catalogs request hold hcatalog
  · intro request hoperation hupload
    rcases hmem hoperation with rfl | hold
    · exact lt_irrefl _ (htidy.uploads _ hupload)
    · exact h.uploads request hold hupload
  · intro request hwaits
    rcases List.mem_append.mp hwaits with hold | hnew
    · exact ExtTreeMap.mem_insert.mpr (.inr (h.waiting request hold))
    · exact ExtTreeMap.mem_insert.mpr (.inl (by simp [hmore request hnew]))

variable {news : List News}

theorem foldl_hearOperation_of_ignored (unanswered : List ℕ)
    (h : ∀ told ∈ news, ∀ request, told ≠ .ran request) :
    news.foldl hearOperation unanswered = unanswered := by
  refine foldl_of_ignored (fun told hmem unanswered => ?_) unanswered
  rw [hearOperation.eq_def]
  split
  · next request => exact absurd rfl (h _ hmem request)
  · rfl

theorem ran_not_mem_batch (offer : BatchOffer) (batch : ℕ) :
    ∀ told ∈ (offer.requests.map fun request => News.begun request.1 offer.pane) ++
      [.started batch offer.requests], ∀ request, told ≠ .ran request := by
  intro told hmem request
  rcases List.mem_append.mp hmem with hmem | hmem
  · obtain ⟨entry, -, rfl⟩ := List.mem_map.mp hmem
    simp
  · rw [List.mem_singleton.mp hmem]
    simp

theorem ran_not_mem_released (panes : List PaneId) :
    ∀ told ∈ panes.map News.unsubscribed, ∀ request, told ≠ .ran request := by
  intro told hmem request
  obtain ⟨pane, -, rfl⟩ := List.mem_map.mp hmem
  simp

/-- What the frontend does of its own keeps requests apart. -/
theorem awaited_acts {before after : Memory}
    (hacts : Acts unprompted before news after) (htidy : Tidy before)
    (h : Awaited before unanswered) : Awaited after (news.foldl hearOperation unanswered) := by
  induction hacts generalizing unanswered with
  | @nothing before next catalogs hrequest hcatalogs =>
    refine ⟨fun request hmem => (h.taken request hmem).trans_le hrequest, ?_, h.uploads, h.waiting⟩
    intro request hmem hcatalog
    rcases hcatalogs request hcatalog with hold | ⟨hnew, -⟩
    · exact h.catalogs request hmem hold
    · exact absurd (h.taken request hmem) (by omega)
  | @run before pending hidle => exact h.insert htidy pending true [before.nextRequest] (by simp)
  | @paste before session =>
    have hinserted := h.insert htidy ⟨false, session⟩ before.inflight [] (by simp)
    rwa [List.append_nil] at hinserted
  | save hidle hscope =>
    exact ⟨fun request hmem => (h.taken request hmem).trans (Nat.lt_succ_self _), h.catalogs,
      h.uploads, h.waiting⟩
  | @single before pane described =>
    refine ⟨fun request hmem => (h.taken request hmem).trans (Nat.lt_succ_self _), h.catalogs,
      fun request hmem hupload => ?_, h.waiting⟩
    rcases ExtTreeMap.mem_insert.mp hupload with hsame | hold
    · have hsame : before.nextRequest = request := by simpa using hsame
      exact absurd (h.taken request hmem) (by omega)
    · exact h.uploads request hmem hold
  | @batch before offer uploads hfirst htaken =>
    rw [foldl_hearOperation_of_ignored _ (ran_not_mem_batch offer before.nextBatch)]
    refine ⟨fun request hmem => (h.taken request hmem).trans_le (Nat.le_add_right _ _), h.catalogs,
      fun request hmem hupload => ?_, h.waiting⟩
    rcases mem_taken htaken hupload with ⟨hnew, -⟩ | hold
    · exact absurd (h.taken request hmem) (by omega)
    · exact h.uploads request hmem hold
  | release routes panes hroutes hpanes =>
    rw [foldl_hearOperation_of_ignored _ (ran_not_mem_released panes)]
    exact ⟨h.taken, h.catalogs, h.uploads, h.waiting⟩
  | answer hscope => exact hscope.elim
  | refuse hscope => exact hscope.elim
  | trans hfirst _ ih ihmore =>
    rw [List.foldl_append]
    exact ihmore (htidy.acts hfirst) (ih htidy h)
  | _ => exact ⟨h.taken, h.catalogs, h.uploads, h.waiting⟩

/-! ### The guard -/

/-- `Guarded`, of what is remembered. -/
def Guards (memory : Memory) (unanswered : List ℕ) : Prop :=
  unanswered.length ≤ 1 ∧ (memory.inflight = true ↔ unanswered ≠ [])

theorem guards_acts {before after : Memory}
    (hacts : Acts unprompted before news after) (h : Guards before unanswered) :
    Guards after (news.foldl hearOperation unanswered) := by
  induction hacts generalizing unanswered with
  | run pending hidle =>
    have hnone : unanswered = [] := by
      by_contra hsome
      rw [h.2.mpr hsome] at hidle
      cases hidle
    rw [hnone]
    exact ⟨le_rfl, by simp [hearOperation]⟩
  | @batch before offer uploads hfirst htaken =>
    rw [foldl_hearOperation_of_ignored _ (ran_not_mem_batch offer before.nextBatch)]
    exact h
  | release routes panes hroutes hpanes =>
    rw [foldl_hearOperation_of_ignored _ (ran_not_mem_released panes)]
    exact h
  | answer hscope => exact hscope.elim
  | refuse hscope => exact hscope.elim
  | trans _ _ ih ihmore =>
    rw [List.foldl_append]
    exact ihmore (ih h)
  | _ => exact h

/-- What a message leaves of the operations: one is answered, or none. -/
structure Answers (message : ServerMessage) (request : Option ℕ) (before after : Memory)
    (unanswered : List ℕ) : Prop where
  answer : answer unanswered (.daemon message) = unanswered.filter (some · ≠ request)
  inflight : after.inflight = if request.isSome then false else before.inflight
  operations : ∀ other, other ∈ after.operations ↔ some other ≠ request ∧ other ∈ before.operations
  nextRequest : after.nextRequest = before.nextRequest

theorem filter_none (unanswered : List ℕ) : unanswered.filter (some · ≠ none) = unanswered := by
  simp

theorem mem_erase_iff {operations : ExtTreeMap ℕ PendingOperation} {request other : ℕ} :
    other ∈ operations.erase request ↔ some other ≠ some request ∧ other ∈ operations := by
  have hsame : compare request other = .eq ↔ some other = some request := by
    rw [Std.compare_eq_iff_eq, Option.some.injEq]
    exact eq_comm
  rw [ExtTreeMap.mem_erase, ne_eq, ne_eq, hsame]

/-- A message answers the request by which it clears the flag. -/
theorem answers_heardOperations (h : Awaited self.memory unanswered) (message : ServerMessage) :
    Answers message (clears self (.daemon message)) self.memory
      (heardOperations world self.memory message) unanswered := by
  cases message with
  | operationResult request applied text pluginRun =>
    have hended : (heardOperations world self.memory
        (.operationResult request applied text pluginRun)).inflight = false ∧
        (heardOperations world self.memory
          (.operationResult request applied text pluginRun)).operations =
            self.pendingOperations.erase request ∧
        (heardOperations world self.memory
          (.operationResult request applied text pluginRun)).nextRequest = self.nextRequest := by
      rw [heardOperations]
      dsimp only
      repeat' split
      all_goals exact ⟨rfl, rfl, rfl⟩
    refine ⟨by simp [answer, clears], hended.1, fun other => ?_, hended.2.2⟩
    rw [hended.2.1]
    exact mem_erase_iff
  | error request text =>
    cases request with
    | none => exact ⟨(filter_none unanswered).symm, rfl, by simp [heardOperations, clears], rfl⟩
    | some request =>
      by_cases hoperation : request ∈ self.pendingOperations
      · have hends : ¬(request ∈ self.memory.catalogs ∨ request ∈ self.memory.uploads ∨
            request ∉ self.memory.operations) := by
          rintro (hmem | hmem | hmem)
          · exact h.catalogs request hoperation hmem
          · exact h.uploads request hoperation hmem
          · exact hmem hoperation
        rw [clears, if_pos hoperation, heardOperations, if_neg hends]
        exact ⟨by simp [answer], rfl, fun other => mem_erase_iff, rfl⟩
      · have hkept : heardOperations world self.memory (.error (some request) text) = self.memory :=
          if_pos (.inr (.inr hoperation))
        rw [clears, if_neg hoperation, hkept]
        refine ⟨?_, rfl, by simp, rfl⟩
        rw [filter_none]
        refine List.filter_eq_self.mpr fun other hother => ?_
        have hne : other ≠ request := by
          rintro rfl
          exact hoperation (h.waiting other hother)
        simpa using hne
  | _ => exact ⟨(filter_none unanswered).symm, rfl, by simp [heardOperations, clears], rfl⟩

/-- What the daemon says keeps requests apart. -/
theorem Awaited.handleDaemonEvent (h : Awaited self.memory unanswered) (message : ServerMessage) :
    Awaited (handleDaemonEvent world self message).memory
      (answer unanswered (.daemon message)) := by
  have hheard := heard_handleDaemonEvent world self message
  have hanswers := answers_heardOperations world self h message
  have hoperations : ∀ request,
      request ∈ (App.handleDaemonEvent world self message).memory.operations →
        some request ≠ clears self (.daemon message) ∧ request ∈ self.memory.operations := by
    intro request hmem
    rw [hheard.eq] at hmem
    exact (hanswers.operations request).mp hmem
  constructor
  · intro request hmem
    rw [hheard.eq]
    exact (h.taken request (hoperations request hmem).2).trans_eq hanswers.nextRequest.symm
  · intro request hmem hcatalog
    exact h.catalogs request (hoperations request hmem).2 (hheard.catalogs request hcatalog)
  · intro request hmem hupload
    exact h.uploads request (hoperations request hmem).2 (hheard.uploads request hupload)
  · intro request hwaits
    rw [hanswers.answer, List.mem_filter] at hwaits
    rw [hheard.eq]
    exact (hanswers.operations request).mpr ⟨by simpa using hwaits.2, h.waiting request hwaits.1⟩

/-- Where the guard went by what waits, it still does exactly if the message answers its own. -/
theorem guards_handleDaemonEvent (h : Awaited self.memory unanswered)
    (hguards : Guards self.memory unanswered) (message : ServerMessage) :
    Guards (handleDaemonEvent world self message).memory (answer unanswered (.daemon message)) ↔
      (unanswered ≠ [] → ∀ request, clears self (.daemon message) = some request →
        request ∈ unanswered) := by
  have hheard := heard_handleDaemonEvent world self message
  have hanswers := answers_heardOperations world self h message
  have hinflight : (handleDaemonEvent world self message).memory.inflight =
      if (clears self (.daemon message)).isSome then false else self.memory.inflight := by
    rw [hheard.eq]
    exact hanswers.inflight
  rw [Guards, hinflight, hanswers.answer]
  cases hclears : clears self (.daemon message) with
  | none =>
    rw [filter_none]
    exact iff_of_true hguards (by simp)
  | some request =>
    -- At most one operation waits, and the flag is cleared.
    obtain ⟨hlength, -⟩ := hguards
    match unanswered, hlength with
    | [], _ => simp
    | [waiting], _ =>
      by_cases hsame : waiting = request
      · simp [hsame]
      · simp [hsame, Ne.symm hsame]

/-! ### A turn of the loop -/

theorem hearOperation_settled (h : ∀ told ∈ news, (∃ batch state, told = .settled batch state) ∨
      ∃ request, told = .cancelled request) (unanswered : List ℕ) :
    news.foldl hearOperation unanswered = unanswered := by
  refine foldl_hearOperation_of_ignored unanswered fun told hmem request => ?_
  rcases h told hmem with ⟨batch, state, rfl⟩ | ⟨request, rfl⟩
  · simp
  · simp

/-- The operations that wait after a move. -/
def waiting (unanswered : List ℕ) (move : Move) : List ℕ :=
  ((handle world self move).outbox.filterMap Effect.news).foldl hearOperation
    (answer unanswered move)

theorem waiting_daemon (htidy : Tidy self.memory) (houtbox : self.outbox = []) (unanswered : List ℕ)
    (message : ServerMessage) :
    waiting world self unanswered (.daemon message) = answer unanswered (.daemon message) := by
  rw [waiting, handle, hearOperation_settled (mem_news_handleDaemonEvent world self htidy houtbox message)]

/-- What the frontend does of its own keeps requests apart, and the guard with what waits. -/
theorem awaited_own (htidy : Tidy self.memory) (houtbox : self.outbox = [])
    (h : Awaited self.memory unanswered) {move : Move} (hown : ∀ message, move ≠ .daemon message) :
    Awaited (handle world self move).memory (waiting world self unanswered move) ∧
      (Guards self.memory unanswered →
        Guards (handle world self move).memory (waiting world self unanswered move)) := by
  have hanswer : answer unanswered move = unanswered := by
    cases move with
    | daemon message => exact absurd rfl (hown message)
    | _ => rfl
  rw [waiting, hanswer]
  rcases handle_own world self htidy move hown with
    ⟨request, ending, hpending, heq⟩ | ⟨effects, hsent, -, hacts⟩
  · obtain ⟨uploads, batches, huploads, hmemory⟩ := memory_ending world self request ending
    rw [heq, hearOperation_settled fun told hmem =>
      .inl (news_endUpload world self houtbox hpending ending told hmem), hmemory]
    exact ⟨⟨h.taken, h.catalogs, fun request hmem hupload =>
      h.uploads request hmem (huploads request hupload), h.waiting⟩, id⟩
  · rw [hsent, houtbox, List.nil_append]
    exact ⟨awaited_acts hacts htidy h, guards_acts hacts⟩

theorem awaited_handle (htidy : Tidy self.memory) (houtbox : self.outbox = [])
    (h : Awaited self.memory unanswered) (move : Move) :
    Awaited (handle world self move).memory (waiting world self unanswered move) := by
  by_cases hdaemon : ∃ message, move = .daemon message
  · obtain ⟨message, rfl⟩ := hdaemon
    rw [waiting_daemon world self htidy houtbox]
    exact h.handleDaemonEvent world self message
  · exact (awaited_own world self htidy houtbox h fun message hmove => hdaemon ⟨message, hmove⟩).1

theorem guards_handle (htidy : Tidy self.memory) (houtbox : self.outbox = [])
    (h : Awaited self.memory unanswered) (hguards : Guards self.memory unanswered) (move : Move) :
    Guards (handle world self move).memory (waiting world self unanswered move) ↔
      (unanswered ≠ [] → ∀ request, clears self move = some request → request ∈ unanswered) := by
  by_cases hdaemon : ∃ message, move = .daemon message
  · obtain ⟨message, rfl⟩ := hdaemon
    rw [waiting_daemon world self htidy houtbox]
    exact guards_handleDaemonEvent world self h hguards message
  · have hkept := (awaited_own world self htidy houtbox h
      fun message hmove => hdaemon ⟨message, hmove⟩).2 hguards
    refine iff_of_true hkept fun _ request hclears => ?_
    rw [clears.eq_def] at hclears
    split at hclears
    · exact absurd ⟨_, rfl⟩ hdaemon
    · exact absurd ⟨_, rfl⟩ hdaemon
    · cases hclears

/-- Requests are kept apart, along a run. -/
def Sorted (s : App × List ℕ) : Prop := Tidy s.1.memory ∧ Awaited s.1.memory s.2

theorem sorted_step (s : App × List ℕ) (event : World × Move) (h : Sorted s) :
    Sorted (observe step await s event).1 := by
  obtain ⟨self, unanswered⟩ := s
  refine ⟨tidy_step self event h.1, ?_⟩
  rw [observe_fst, observe_snd]
  cases hquitting : self.quitting with
  | true =>
    rw [step_of_quitting hquitting, await, if_pos hquitting]
    exact h.2
  | false =>
    rw [step_of_running hquitting, await, if_neg (by simp [hquitting])]
    exact awaited_handle event.1 { self with outbox := [] } h.1 rfl h.2 event.2

theorem guarded_step (s : App × List ℕ) (event : World × Move) (h : Sorted s) (hguarded : Guarded s) :
    Guarded (observe step await s event).1 ↔ AnswersOwn s event := by
  obtain ⟨self, unanswered⟩ := s
  rw [Guarded, observe_fst, observe_snd]
  cases hquitting : self.quitting with
  | true =>
    rw [step_of_quitting hquitting, await, if_pos hquitting]
    refine iff_of_true hguarded fun hrunning => ?_
    rw [hquitting] at hrunning
    cases hrunning
  | false =>
    rw [step_of_running hquitting, await, if_neg (by simp [hquitting])]
    have hkept := guards_handle event.1 { self with outbox := [] } h.1 rfl h.2 hguarded event.2
    exact hkept.trans ⟨fun hown _ => hown, fun hown => hown hquitting⟩

/-- **One operation at a time**: along a run, the flag is set exactly while the one operation that was
submitted waits for its answer, if and only if no other answer clears it meanwhile. -/
theorem one_operation_at_a_time (restorePending : Option PaneId) (configuredTargets : List String)
    (resolvedTargets : ExtTreeMap TargetSession (Option String)) (maxTransferBytes : ℕ)
    (events : List (World × Move)) :
    AllStates (observe step await) Guarded
        (start restorePending configuredTargets resolvedTargets maxTransferBytes, []) events ↔
      AllSteps (observe step await) AnswersOwn
        (start restorePending configuredTargets resolvedTargets maxTransferBytes, []) events := by
  have hsorted : Sorted
      (start restorePending configuredTargets resolvedTargets maxTransferBytes, []) := by
    refine ⟨tidy_start restorePending configuredTargets resolvedTargets maxTransferBytes, ?_⟩
    constructor <;> simp [start, memory]
  refine allStates_iff_allSteps sorted_step (fun s event h hguarded => ?_)
    (fun s event h hguarded => ?_) hsorted ?_ events
  · exact (guarded_step s event h hguarded).mpr
  · exact (guarded_step s event h hguarded).mp
  · exact ⟨by simp, by simp [start]⟩

/-- A text is pasted atomically, and the pane is zoomed while its result is awaited: with that result
the flag is cleared, and a second operation is submitted before the first is answered. -/
theorem the_result_of_a_paste_clears_the_flag :
    let pane : PaneId := ⟨"box", "main", "1"⟩
    let world := hosting [liveTarget ⟨"box", "main"⟩ 1 none [pane]]
    let sockets :=
      (∅ : ExtTreeMap TargetSession (Option String)).insert ⟨"box", "main"⟩ (some "socket")
    let after := exec (observe step await)
      (start (some pane) [] sockets 100, [])
      [(world, .draw), (world, .daemon (.paneLease pane .control)),
        (world, .input (.paste [0x61])), (world, .input (.bytes [0x02])),
        (world, .input (.bytes [0x7a])), (world, .daemon (.operationResult 0 true "" none))]
    let twice := exec (observe step await) after.1
      [(world, .input (.bytes [0x02])), (world, .input (.bytes [0x7a]))]
    after.1.1.herdrActionInflight = false ∧ after.1.2 = [1] ∧ twice.1.2 = [1, 2] := by
  decide +kernel

end App

end Tui

end SuperHerdr
