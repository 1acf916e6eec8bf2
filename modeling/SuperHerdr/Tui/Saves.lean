import SuperHerdr.Tui.Answers

/-!
# Files that are saved

A file is asked for under a request, and once it is offered it is written under that request, until
it has come whole, is given up or refused. `saves_are_tracked` says that request and file stay
together, and that one file is not asked for while another is, as long as no file is asked for while
the offer of another is awaited, and the daemon ends a download by finishing what it offered.
-/

namespace SuperHerdr

namespace Tui

open Std Transducer

/-- The save as `Download` keeps its books. -/
def FileSave.counted (self : FileSave) : SuperHerdr.FileSave :=
  ⟨self.length, self.digest, self.received.length, self.received, self.outstanding⟩

namespace App

variable {scope : Scope} (world : World) (self : App)

/-- A chunk of the file that is being written is taken as `Download` has it. -/
theorem fileSave_downloadChunk {save : FileSave} (hsave : self.fileSave = some save)
    (bytes : List UInt8) :
    (downloadChunk world self save.request bytes).fileSave.map FileSave.counted =
      (save.counted.chunk world.saveWrites bytes).toOption.map Prod.fst := by
  rw [downloadChunk, hsave, SuperHerdr.FileSave.chunk]
  simp only [FileSave.counted, ne_eq, not_true_eq_false, if_false, gt_iff_lt, ge_iff_le,
    List.length_append]
  by_cases hover : save.length - save.received.length < bytes.length
  · simp only [hover, true_or, if_true]
    rfl
  · cases hwrites : world.saveWrites with
    | false =>
      simp only [hover, Bool.not_false, or_true, if_true, if_false]
      rfl
    | true =>
      simp only [hover, Bool.not_true, Bool.false_eq_true, or_false, if_false]
      by_cases hwaits : save.length ≤ save.received.length + bytes.length ∨ 0 < save.outstanding - 1
      · rw [if_pos hwaits, if_pos hwaits, ← List.length_append]
        rfl
      · rw [if_neg hwaits, if_neg hwaits, ← List.length_append]
        rfl

/-! ### What was asked for -/

/-- The files that were asked for and have not ended, after what is told. -/
def hearSave (asked : List ℕ) : News → List ℕ
  | .asked request => asked ++ [request]
  | .cancelled request => asked.filter (· ≠ request)
  | _ => asked

/-- The request of a download that a move ends. -/
def endsSave : Move → Option ℕ
  | .daemon (.downloadFinished request) => some request
  | .daemon (.error request _) => request
  | _ => none

/-- The files that have not ended after a turn of the loop. -/
def remain (asked : List ℕ) (self : App) (event : World × Move) (result : App × List Effect) :
    List ℕ :=
  if self.quitting then asked
  else (result.2.filterMap Effect.news).foldl hearSave
    (asked.filter (some · ≠ endsSave event.2))

/-- The request that a message names. -/
def named : Move → Option ℕ
  | .daemon (.error request _) => request
  | .daemon message => download message
  | _ => none

/-- What is asked for is the one file that was asked for and has not ended, what is written is that
file, and to give it up leaves neither. -/
structure Tracked (s : App × List ℕ) : Prop where
  asked : s.2 = s.1.fileSaveRequest.toList
  save : ∀ save, s.1.fileSave = some save → s.1.fileSaveRequest = some save.request
  cancelled : s.1.cancelFileSave.fileSaveRequest = none ∧ s.1.cancelFileSave.fileSave = none

/-- A message that names another request changes nothing of a save, and one that ends it leaves
nothing. -/
def Heeded (self : App) (event : World × Move) : Prop :=
  self.quitting = false → ∀ request, named event.2 = some request →
    if self.fileSaveRequest = some request then
      endsSave event.2 = some request →
        (step self event).1.fileSaveRequest = none ∧ (step self event).1.fileSave = none
    else (step self event).1.fileSaveRequest = self.fileSaveRequest ∧
      (step self event).1.fileSave = self.fileSave

/-! ### When it is -/

/-- No key of an event asks for a file while another is asked for and not offered yet. -/
def InputAsks : DecodedInput → Prop
  | .bytes bytes => self.navigationKey bytes = none → ¬passesThrough self bytes →
      EachKey world (fun self key => ¬keyDisplaces self key) bytes self
  | _ => True

/-- The daemon finishes what it offered, offers a file again only if it can be opened again, and does
not refuse what is asked for. -/
def InOrder (self : App) (event : World × Move) : Prop :=
  self.quitting = false → match event.2 with
    | .input input => InputAsks event.1 { self with outbox := [] } input
    | .daemon (.downloadOffer request name _ _) =>
        self.fileSaveRequest = some request → self.fileSave ≠ none →
          event.1.saveOpens name = true
    | .daemon (.downloadFinished request) =>
        self.fileSave ≠ none ↔ self.fileSaveRequest = some request
    | .daemon (.error (some request) _) => self.fileSaveRequest ≠ some request
    | _ => True

/-- A scope of what the frontend does of its own without asking for a second file. -/
def oneByOne : Scope := { unprompted with displaces := False }

theorem origins_oneByOne {origin : Origin} (h : ∀ pane, origin ≠ .verified pane) :
    oneByOne.origins origin := h

theorem handles_oneByOne : oneByOne.Handles := ⟨fun _ hown _ => hown.2, trivial⟩

theorem keyAllowed_of_not_displaces {key : UInt8} (h : ¬keyDisplaces self key) :
    KeyAllowed oneByOne world self key where
  taken _ := handles_oneByOne
  typed _ _ := origins_oneByOne (by simp)
  drops _ := trivial
  displaces hdisplaces := h hdisplaces
  doubles _ := origins_oneByOne (by simp)

theorem not_keyDisplaces_of_none {self : App} (h : self.fileSaveRequest = none) (key : UInt8) :
    ¬keyDisplaces self key := by
  rintro ⟨-, -, prompt, -, -, -, -, hasked⟩
  exact hasked h

theorem not_keyDisplaces_navigationKey {bytes : List UInt8} {key : UInt8}
    (h : self.navigationKey bytes = some key) : ¬keyDisplaces self key := by
  rintro ⟨-, henter, -⟩
  rw [navigationKey] at h
  split_ifs at h
  all_goals
    cases h
    revert henter
    decide

theorem inputAllowed_of_asks {input : DecodedInput} (h : InputAsks world self input) :
    InputAllowed world self oneByOne input := by
  cases input with
  | bytes bytes =>
    refine ⟨fun key hkey => ?_, fun _ _ => ⟨fun _ => ?_, fun _ => trivial⟩, fun hnone hpass => ?_⟩
    · exact keyAllowed_of_not_displaces world self (not_keyDisplaces_navigationKey self hkey)
    · exact origins_oneByOne (by simp)
    · exact (h hnone hpass).mono world fun self key => keyAllowed_of_not_displaces world self
  | mouse mouse =>
    exact ⟨handles_oneByOne, fun target haim =>
      ⟨fun _ => origins_oneByOne (by simp), fun _ => trivial⟩⟩
  | paste bytes =>
    exact ⟨fun text htext => ⟨fun _ _ => origins_oneByOne (by simp), fun _ _ => trivial⟩,
      fun files hfiles => ⟨fun _ _ => origins_oneByOne (by simp), fun _ => trivial⟩⟩
  | pasteTooLarge => trivial

/-! ### What each change does -/

/-- `Tracked`, of what is remembered. -/
def Tracks (memory : Memory) (asked : List ℕ) : Prop :=
  asked = memory.saveRequest.toList ∧
    ∀ save, memory.save = some save → memory.saveRequest = some save.request

variable {asked : List ℕ}

theorem tracks_acts {before after : Memory} {news : List News}
    (hacts : Acts oneByOne before news after) (h : Tracks before asked) :
    Tracks after (news.foldl hearSave asked) := by
  induction hacts generalizing asked with
  | @save before hidle hscope =>
    have hnone : before.saveRequest = none := by
      by_contra hasked
      exact hscope hasked
    obtain ⟨hasked, -⟩ := h
    rw [hnone] at hasked
    subst hasked
    refine ⟨rfl, fun save hsave => ?_⟩
    have hsave : before.save = some save := hsave
    rw [hidle] at hsave
    cases hsave
  | cancel request hrequest =>
    obtain ⟨hasked, -⟩ := h
    rw [hrequest] at hasked
    subst hasked
    refine ⟨by simp [hearSave], fun save hsave => ?_⟩
    cases hsave
  | @batch before offer uploads hfirst htaken =>
    have hbegun : (offer.requests.map fun request => News.begun request.1 offer.pane).foldl
        hearSave asked = asked := by
      refine foldl_of_ignored (fun told hmem asked => ?_) asked
      obtain ⟨request, -, rfl⟩ := List.mem_map.mp hmem
      rfl
    rw [List.foldl_append, hbegun]
    exact h
  | release routes panes hroutes hpanes =>
    have hreleased : (panes.map News.unsubscribed).foldl hearSave asked = asked := by
      refine foldl_of_ignored (fun told hmem asked => ?_) asked
      obtain ⟨pane, -, rfl⟩ := List.mem_map.mp hmem
      rfl
    rw [hreleased]
    exact h
  | answer hscope => exact hscope.elim
  | refuse hscope => exact hscope.elim
  | trans _ _ ih ihmore =>
    rw [List.foldl_append]
    exact ihmore (ih h)
  | _ => exact h

theorem hearSave_settled {news : List News}
    (h : ∀ told ∈ news, ∃ batch state, told = .settled batch state) (asked : List ℕ) :
    news.foldl hearSave asked = asked := by
  refine foldl_of_ignored (fun told hmem asked => ?_) asked
  obtain ⟨batch, state, rfl⟩ := h told hmem
  rfl

/-! ### The daemon's messages -/

/-- What a message leaves of a file that is saved. -/
structure Passed (before : App) (message : ServerMessage) (asked : List ℕ) : Prop where
  tracks : Tracks (handleDaemonEvent world before message).memory
    ((refusals world before message).foldl hearSave
      (asked.filter (some · ≠ endsSave (.daemon message))))
  other : ∀ request, named (.daemon message) = some request →
    before.fileSaveRequest ≠ some request →
      (handleDaemonEvent world before message).fileSaveRequest = before.fileSaveRequest ∧
        (handleDaemonEvent world before message).fileSave = before.fileSave
  ended : ∀ request, endsSave (.daemon message) = some request →
    before.fileSaveRequest = some request →
      (handleDaemonEvent world before message).fileSaveRequest = none ∧
        (handleDaemonEvent world before message).fileSave = none

/-- A message that touches neither request nor file. -/
theorem passed_of_kept {message : ServerMessage}
    (h : Tracks self.memory asked) (hrefusals : refusals world self message = [])
    (hkept : (handleDaemonEvent world self message).fileSaveRequest = self.fileSaveRequest ∧
      (handleDaemonEvent world self message).fileSave = self.fileSave)
    (hended : ∀ request, endsSave (.daemon message) = some request →
      self.fileSaveRequest ≠ some request) :
    Passed world self message asked where
  tracks := by
    have hfilter : asked.filter (some · ≠ endsSave (.daemon message)) = asked := by
      refine List.filter_eq_self.mpr fun request hmem => ?_
      rw [h.1, Option.mem_toList] at hmem
      have hne : some request ≠ endsSave (.daemon message) := by
        intro hends
        exact hended request hends.symm hmem
      simpa using hne
    rw [hrefusals, List.foldl_nil, hfilter]
    refine ⟨?_, fun save hsave => ?_⟩
    · rw [h.1]
      exact congrArg Option.toList hkept.1.symm
    · exact hkept.1.trans (h.2 save (hkept.2.symm.trans hsave))
  other _ _ _ := hkept
  ended request hends hcurrent := absurd hcurrent (hended request hends)

theorem passed_of_other {message : ServerMessage} (h : Tracks self.memory asked)
    (hdownload : download message = none)
    (hended : ∀ request, endsSave (.daemon message) = some request →
      self.fileSaveRequest ≠ some request) :
    Passed world self message asked := by
  have hkept := (heard_handleDaemonEvent world self message).saves hdownload
  refine passed_of_kept world self h ?_ hkept hended
  cases message with
  | downloadOffer => cases hdownload
  | downloadChunk => cases hdownload
  | _ => rfl

theorem passed_downloadOffer (h : Tracks self.memory asked) (request : ℕ)
    (name : String) (length : ℕ) (digest : String)
    (hopens : self.fileSaveRequest = some request → self.fileSave ≠ none →
      world.saveOpens name = true) :
    Passed world self (.downloadOffer request name length digest) asked := by
  by_cases hcurrent : self.fileSaveRequest = some request
  · have hother : ∀ other, named (.daemon (.downloadOffer request name length digest)) = some other →
        self.fileSaveRequest ≠ some other → False := by
      rintro other hnamed hne
      cases hnamed
      exact hne hcurrent
    refine ⟨?_, fun other hnamed hne => (hother other hnamed hne).elim, fun _ hends => nomatch hends⟩
    have hasked : asked = [request] := by
      rw [h.1]
      exact congrArg Option.toList hcurrent
    rw [handleDaemonEvent, downloadOffer, if_neg (not_not.mpr hcurrent), refusals, hasked]
    cases hname : world.saveOpens name with
    | true =>
      refine ⟨?_, fun save hsave => ?_⟩
      · simp [endsSave, send, perform, memory, hcurrent]
      · cases hsave
        exact hcurrent
    | false =>
      -- Nothing is written yet, or it could be opened again.
      have hnone : self.fileSave = none := by
        by_contra hsome
        rw [hopens hcurrent hsome] at hname
        cases hname
      refine ⟨?_, fun save hsave => ?_⟩
      · simp [endsSave, send, perform, memory, hcurrent, hearSave]
      · have hsave : self.fileSave = some save := hsave
        rw [hnone] at hsave
        cases hsave
  · refine passed_of_kept world self h ?_ ?_ fun _ hends => nomatch hends
    · rw [refusals, if_neg fun hrefused => hcurrent hrefused.1]
    · rw [handleDaemonEvent, downloadOffer, if_pos hcurrent]
      exact ⟨rfl, rfl⟩

theorem passed_downloadChunk (h : Tracks self.memory asked) (request : ℕ)
    (bytes : List UInt8) : Passed world self (.downloadChunk request bytes) asked := by
  by_cases hmine : ∃ save, self.fileSave = some save ∧ save.request = request
  · obtain ⟨save, hsave, hrequest⟩ := hmine
    have hcurrent : self.fileSaveRequest = some request := by
      rw [← hrequest]
      exact h.2 save hsave
    have hasked : asked = [request] := by
      rw [h.1]
      exact congrArg Option.toList hcurrent
    refine ⟨?_, ?_, fun _ hends => nomatch hends⟩
    · rw [handleDaemonEvent, downloadChunk, hsave, hasked]
      dsimp only
      rw [if_neg (not_not.mpr hrequest)]
      by_cases hrefused : save.length - save.received.length < bytes.length ∨ !world.saveWrites
      · have htold : refusals world self (.downloadChunk request bytes) = [.cancelled request] := by
          rw [refusals, hsave, if_pos (by simpa [hrequest] using hrefused)]
        rw [if_pos hrefused, htold]
        refine ⟨by simp [endsSave, send, perform, memory, hearSave], fun save hsave => ?_⟩
        cases hsave
      · have hnothing : refusals world self (.downloadChunk request bytes) = [] := by
          rw [refusals, hsave, if_neg (by simpa [hrequest] using hrefused)]
        rw [if_neg hrefused, hnothing]
        split_ifs
        · refine ⟨by simp [endsSave, memory, hcurrent], fun written hwritten => ?_⟩
          cases hwritten
          exact h.2 save hsave
        · refine ⟨by simp [endsSave, send, perform, memory, hcurrent], fun written hwritten => ?_⟩
          cases hwritten
          exact h.2 save hsave
    · rintro other hnamed hne
      cases hnamed
      exact absurd hcurrent hne
  · refine passed_of_kept world self h ?_ ?_ fun _ hends => nomatch hends
    · rw [refusals]
      cases hsave : self.fileSave with
      | none => rfl
      | some save =>
        have hne : save.request ≠ request := fun hrequest => hmine ⟨save, hsave, hrequest⟩
        simp [hne]
    · rw [handleDaemonEvent, downloadChunk]
      cases hsave : self.fileSave with
      | none => exact ⟨rfl, hsave⟩
      | some save =>
        dsimp only
        rw [if_pos fun hrequest => hmine ⟨save, hsave, hrequest⟩]
        exact ⟨rfl, hsave⟩

theorem passed_downloadFinished (h : Tracks self.memory asked) (request : ℕ)
    (hoffered : self.fileSave ≠ none ↔ self.fileSaveRequest = some request) :
    Passed world self (.downloadFinished request) asked := by
  cases hsave : self.fileSave with
  | none =>
    have hother : self.fileSaveRequest ≠ some request := by
      intro hcurrent
      exact hoffered.mpr hcurrent hsave
    refine passed_of_kept world self h rfl ?_ ?_
    · rw [handleDaemonEvent, downloadFinished, hsave]
      exact ⟨rfl, hsave⟩
    · rintro other hends
      cases hends
      exact hother
  | some save =>
    have hcurrent : self.fileSaveRequest = some request := hoffered.mp (by simp [hsave])
    have hrequest : save.request = request := by
      have hsaved := h.2 save hsave
      exact Option.some.inj (hsaved.symm.trans hcurrent)
    have hasked : asked = [request] := by
      rw [h.1]
      exact congrArg Option.toList hcurrent
    have hcleared : (handleDaemonEvent world self (.downloadFinished request)).fileSaveRequest = none ∧
        (handleDaemonEvent world self (.downloadFinished request)).fileSave = none := by
      rw [handleDaemonEvent, downloadFinished, hsave]
      dsimp only
      rw [if_neg (not_not.mpr hrequest)]
      exact ⟨rfl, rfl⟩
    refine ⟨⟨?_, fun written hwritten => ?_⟩, ?_, fun _ _ _ => hcleared⟩
    · rw [hasked]
      exact (congrArg Option.toList hcleared.1).symm ▸ by simp [endsSave, refusals]
    · exact absurd (hcleared.2.symm.trans hwritten) (by simp)
    · rintro other hnamed hne
      cases hnamed
      exact absurd hcurrent hne

theorem passed_handleDaemonEvent (h : Tracks self.memory asked) (message : ServerMessage)
    (hinOrder : InOrder self (world, .daemon message)) (hquitting : self.quitting = false) :
    Passed world self message asked := by
  have hmessage := hinOrder hquitting
  cases message with
  | downloadOffer request name length digest =>
    exact passed_downloadOffer world self h request name length digest hmessage
  | downloadChunk request bytes => exact passed_downloadChunk world self h request bytes
  | downloadFinished request => exact passed_downloadFinished world self h request hmessage
  | error request text =>
    cases request with
    | none => exact passed_of_other world self h rfl fun _ hends => nomatch hends
    | some request =>
      refine passed_of_other world self h rfl ?_
      rintro other hends
      cases hends
      exact hmessage
  | _ => exact passed_of_other world self h rfl fun _ hends => nomatch hends

/-! ### A turn of the loop -/

theorem tracked_of_tracks {self : App} (h : Tracks self.memory asked) : Tracked (self, asked) := by
  refine ⟨h.1, h.2, ?_⟩
  rw [cancelFileSave]
  cases hrequest : self.fileSaveRequest with
  | none =>
    refine ⟨hrequest, ?_⟩
    cases hsave : self.fileSave with
    | none => rfl
    | some save =>
      have hsaved : self.fileSaveRequest = some save.request := h.2 save hsave
      rw [hrequest] at hsaved
      cases hsaved
  | some request => exact ⟨rfl, rfl⟩

/-- What the frontend does of its own keeps request and file together. -/
theorem tracks_own (htidy : Tidy self.memory) (houtbox : self.outbox = [])
    (h : Tracks self.memory asked) {move : Move} (hown : ∀ message, move ≠ .daemon message)
    (hasks : ∀ input, move = .input input → InputAsks world self input) :
    Tracks (handle world self move).memory
      (((handle world self move).outbox.filterMap Effect.news).foldl hearSave asked) := by
  rcases handle_cases world self htidy move with
    ⟨request, ending, -, hpending, heq⟩ | ⟨hnone, -⟩
  · obtain ⟨uploads, batches, -, hmemory⟩ := memory_ending world self request ending
    rw [heq, hearSave_settled (news_endUpload world self houtbox hpending ending), hmemory]
    exact h
  · obtain ⟨effects, hsent, -, hacts⟩ : self.Sends oneByOne (handle world self move) :=
      sends_handle_own world self handles_oneByOne (origins_oneByOne (by simp)) move
        (fun input hinput => inputAllowed_of_asks world self (hasks input hinput)) hown hnone
    rw [hsent, houtbox, List.nil_append]
    exact tracks_acts hacts h

theorem ends_of_own {move : Move} (hown : ∀ message, move ≠ .daemon message) :
    endsSave move = none ∧ named move = none := by
  cases move with
  | daemon message => exact absurd rfl (hown message)
  | _ => exact ⟨rfl, rfl⟩

/-- A turn in order keeps request and file together, and heeds what it is told. -/
theorem tracked_step (s : App × List ℕ) (event : World × Move) (htidy : Tidy s.1.memory)
    (h : Tracks s.1.memory s.2) (hinOrder : InOrder s.1 event) :
    Tracks (observe step remain s event).1.1.memory (observe step remain s event).1.2 ∧
      Heeded s.1 event := by
  obtain ⟨self, asked⟩ := s
  obtain ⟨world, move⟩ := event
  rw [observe_fst, observe_snd]
  dsimp only at htidy h hinOrder ⊢
  cases hquitting : self.quitting with
  | true =>
    rw [step_of_quitting hquitting, remain, if_pos hquitting]
    refine ⟨h, fun hrunning => ?_⟩
    rw [hquitting] at hrunning
    cases hrunning
  | false =>
    rw [Heeded, step_of_running hquitting, remain, if_neg (by simp [hquitting])]
    dsimp only
    by_cases hdaemon : ∃ message, move = .daemon message
    · obtain ⟨message, rfl⟩ := hdaemon
      have hpassed := passed_handleDaemonEvent world { self with outbox := [] } h message hinOrder
        hquitting
      obtain ⟨report, hreport, hnews⟩ :=
        news_handleDaemonEvent world { self with outbox := [] } htidy rfl message
      rw [handle, hnews, List.foldl_append, hearSave_settled hreport]
      refine ⟨hpassed.tracks, fun _ request hnamed => ?_⟩
      split
      · next hcurrent => exact fun hends => hpassed.ended request hends hcurrent
      · next hother => exact hpassed.other request hnamed hother
    · have hown : ∀ message, move ≠ .daemon message := fun message hmove => hdaemon ⟨message, hmove⟩
      have hfilter : asked.filter (some · ≠ endsSave move) = asked := by
        simp [(ends_of_own hown).1]
      rw [hfilter]
      refine ⟨?_, fun _ request hnamed => ?_⟩
      · refine tracks_own world { self with outbox := [] } htidy rfl h hown fun input hinput => ?_
        subst hinput
        exact hinOrder hquitting
      · rw [(ends_of_own hown).2] at hnamed
        cases hnamed

/-- **Files that are saved are tracked**: along every run in order, what is asked for is the one file
that was asked for and has not ended, what is written is that file, and no message of another request
touches either. -/
theorem saves_are_tracked (restorePending : Option PaneId) (configuredTargets : List String)
    (resolvedTargets : ExtTreeMap TargetSession (Option String)) (maxTransferBytes : ℕ)
    (events : List (World × Move))
    (h : AllSteps step InOrder (start restorePending configuredTargets resolvedTargets
      maxTransferBytes) events) :
    AllStates (observe step remain) Tracked
        (start restorePending configuredTargets resolvedTargets maxTransferBytes, []) events ∧
      AllSteps step Heeded
        (start restorePending configuredTargets resolvedTargets maxTransferBytes) events := by
  have hnone : Tracks (start restorePending configuredTargets resolvedTargets
      maxTransferBytes).memory [] := by
    refine ⟨rfl, fun save hsave => ?_⟩
    cases hsave
  have htidy := tidy_start restorePending configuredTargets resolvedTargets maxTransferBytes
  rw [← allSteps_observe step remain (start restorePending configuredTargets resolvedTargets
    maxTransferBytes, [])] at h
  constructor
  · refine (allStates_of_allSteps (I := fun s : App × List ℕ => Tidy s.1.memory)
      (P := fun s : App × List ℕ => Tracks s.1.memory s.2) (fun s event => tidy_step s.1 event)
      (fun s event htidy htracks hinOrder => (tracked_step s event htidy htracks hinOrder).1)
      htidy hnone h).imp fun s htracks => tracked_of_tracks htracks
  · rw [← allSteps_observe step remain (start restorePending configuredTargets resolvedTargets
      maxTransferBytes, [])]
    exact allSteps_of_allSteps
      (I := fun s : App × List ℕ => Tidy s.1.memory ∧ Tracks s.1.memory s.2)
      (fun s event htidied hinOrder => ⟨tidy_step s.1 event htidied.1,
        (tracked_step s event htidied.1 htidied.2 hinOrder).1⟩)
      (fun s event htidied hinOrder => (tracked_step s event htidied.1 htidied.2 hinOrder).2)
      ⟨htidy, hnone⟩ h

/-- A world whose palette offers to save a file of a pane. -/
def saving (pane : PaneId) : World :=
  { hosting [liveTarget ⟨"box", "main"⟩ 1 none [pane]] with
    paletteActions := fun _ _ => [.saveFileFromPane pane "editor"]
    saveOpens := fun _ => true
    saveWrites := true }

/-- Open the palette, choose to save a file, and name it. -/
def askForFile (pane : PaneId) : List (World × Move) :=
  [(saving pane, .input (.bytes [PREFIX_KEY])),
    (saving pane, .input (.bytes [0x20, 0x0d, 0x66, 0x0d]))]

/-- A file is asked for, offered, sent and finished. -/
theorem saves_are_tracked_whole :
    let pane : PaneId := ⟨"box", "main", "1"⟩
    let world := saving pane
    let events := (world, .draw) :: askForFile pane ++
      [(world, .daemon (.downloadOffer 0 "f" 1 "")), (world, .daemon (.downloadChunk 0 [0x61])),
        (world, .daemon (.downloadFinished 0))]
    AllStates (observe step remain) Tracked (start none [] ∅ 100, []) events ∧
      AllSteps step Heeded (start none [] ∅ 100) events := by
  intro pane world events
  refine saves_are_tracked none [] ∅ 100 events ⟨fun _ => trivial, fun _ _ _ => ?_, fun _ _ _ => ?_,
    fun _ _ hsave => absurd ?_ hsave, fun _ => trivial, fun _ => ?_, trivial⟩
  · exact ⟨not_keyDisplaces_of_none (by decide +kernel) _, .inr trivial⟩
  · refine ⟨not_keyDisplaces_of_none (by decide +kernel) _, .inr ?_⟩
    refine ⟨not_keyDisplaces_of_none (by decide +kernel) _, .inr ?_⟩
    refine ⟨not_keyDisplaces_of_none (by decide +kernel) _, .inr ?_⟩
    exact ⟨not_keyDisplaces_of_none (by decide +kernel) _, .inr trivial⟩
  · decide +kernel
  · decide +kernel

/-- The daemon refuses what is asked for, and it goes on being asked for; a second file is asked for
while the first still is, and displaces it. -/
theorem a_refused_file_is_asked_for :
    let pane : PaneId := ⟨"box", "main", "1"⟩
    let asking := (saving pane, .draw) :: askForFile pane
    let refused := exec (observe step remain) (start none [] ∅ 100, [])
      (asking ++ [(saving pane, .daemon (.error (some 0) "no such file"))])
    let displaced := exec (observe step remain) (start none [] ∅ 100, []) (asking ++ askForFile pane)
    refused.1.1.fileSaveRequest = some 0 ∧ refused.1.2 = [] ∧
      displaced.1.1.fileSaveRequest = some 1 ∧ displaced.1.2 = [0, 1] := by
  decide +kernel

end App

end Tui

end SuperHerdr
