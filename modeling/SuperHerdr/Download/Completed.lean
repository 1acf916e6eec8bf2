import SuperHerdr.Download.Flow

/-!
# What a completed download is told

A download that announced its end is not told of an error beside, but for one case. The terminal asks
for a window as soon as the file is offered, and a file without bytes may be over, and forgotten by the
daemon's loop, before that request is taken: it is then refused with "no file is being read". Asking for
more in the middle of a file has no such case, for `FileSave.chunk` asks only while bytes are missing.

What carries this is that a request on its way holds the task up (`Owed`): there is no credit beside it,
so that a task with bytes left to send can neither send them nor fail. A request that finds the entry gone
is then one for an empty file, or for a download that failed; `completed_download_undisturbed_iff` puts
it together over whole runs.
-/

namespace SuperHerdr

open Transducer

theorem Download.Tells.mono {d d' : Download} {message : ServerMessage} (h : d.Tells message)
    (hsource : d'.source = d.source) (hsent : d'.sent = d.sent)
    (hended : d.ended = true → d'.ended = true) : d'.Tells message := by
  unfold Tells at h ⊢
  rw [hsource, hsent]
  split at h
  · exact h
  · exact ⟨hended h.1, h.2⟩
  · trivial

namespace Fetch

variable {s : Fetch}

/-! ### What a step does to the task -/

@[simp] theorem download_proceed (s : Fetch) (save : FileSave) (progress : SaveProgress) :
    (s.proceed save progress).download = s.download := by
  cases progress <;> rfl

variable (sha256 : List UInt8 → String)

@[simp] theorem download_receive (s : Fetch) (machine : Machine) :
    (s.receive sha256 machine).download = s.download := by
  unfold receive
  split
  · rfl
  · simp only
    split
    · split
      · exact download_proceed ..
      · rfl
    · split
      · exact download_proceed ..
      · rfl
    · rfl
    · rfl

/-- Only a turn of the task moves it; every other step leaves what it read and sent alone. -/
theorem download_step (s : Fetch) (move : Move) : (∃ answer, move = .turn answer) ∨
      (step sha256 s move).1.download.source = s.download.source ∧
        (step sha256 s move).1.download.sent = s.download.sent ∧
        (s.download.ended = true → (step sha256 s move).1.download.ended = true) := by
  cases move with
  | turn answer => exact .inl ⟨answer, rfl⟩
  | taken =>
    right
    simp only [step, take]
    split
    · exact ⟨rfl, rfl, id⟩
    · split
      · simp only [pullDownload, Download.grant]
        split
        · simp only
          split <;> exact ⟨rfl, rfl, id⟩
        · exact ⟨rfl, rfl, id⟩
      · simp only [stopDownload]
        split
        · exact ⟨rfl, rfl, fun _ => rfl⟩
        · exact ⟨rfl, rfl, id⟩
      · exact ⟨rfl, rfl, id⟩
  | downloadEnded =>
    right
    simp only [step, downloadEnded]
    split <;> exact ⟨rfl, rfl, id⟩
  | received machine =>
    right
    simp [step]
  | cancelled =>
    right
    simp only [step]
    split <;> exact ⟨rfl, rfl, id⟩

theorem tells_step (move : Move) {message : ServerMessage}
    (h : s.download.Tells message) : (step sha256 s move).1.download.Tells message := by
  rcases download_step sha256 s move with ⟨answer, rfl⟩ | ⟨hsource, hsent, hended⟩
  · exact h.turns (s.download.turns_turn answer)
  · exact h.mono hsource hsent hended

/-! ### A request on its way holds the task up -/

/-- The grants that were asked for and not taken yet. -/
def asked (s : Fetch) : List ℕ :=
  s.requests.filterMap ClientMessage.pulls

/-- At most one request for more is on its way, and while it is the task has no credit, and bytes
left to send if the file has any. -/
structure Owed (s : Fetch) : Prop where
  one : s.asked.length ≤ 1
  held : s.asked ≠ [] → s.download.credit = 0 ∧ s.download.granted = [] ∧
    ∃ source, s.download.source = some source ∧
      (source.length = 0 ∨ s.download.sent < source.length)

/-- While the terminal has its window open, that is what the window says. -/
theorem Open.owed {source : Source} {save : FileSave} (h : s.Open source save)
    (hordered : s.Ordered) (hsource : s.download.source = some source) : s.Owed := by
  have hgrants : s.grants = s.download.granted ++ s.asked := rfl
  rcases h.grants with hnone | ⟨hone, hmissing⟩
  · rw [hgrants] at hnone
    have hasked : s.asked = [] := (List.append_eq_nil_iff.mp hnone).2
    exact ⟨by rw [hasked]; exact Nat.zero_le _, fun hsome => absurd hasked hsome⟩
  · have hlength := congrArg List.length (hgrants.symm.trans hone)
    rw [List.length_append, List.length_singleton] at hlength
    refine ⟨by omega, fun hsome => ?_⟩
    have hpos := List.length_pos_of_ne_nil hsome
    have hminted := h.minted
    have hwindow := h.window
    rw [hone, List.sum_singleton] at hminted
    have hcredit : s.download.credit = 0 := by omega
    have hempty : chunkCount s.inbox = 0 := by omega
    have hreceived := h.received_of_empty hordered.within hsource hempty
    refine ⟨hcredit, List.eq_nil_of_length_eq_zero (by omega), source, hsource, ?_⟩
    rw [← hreceived]
    exact hmissing

theorem Owed.of_fewer {s' : Fetch} (h : s.Owed) (hasked : s'.asked <:+ s.asked)
    (hsource : s'.download.source = s.download.source) (hsent : s'.download.sent = s.download.sent)
    (hcredit : s'.download.credit = s.download.credit)
    (hgranted : s'.asked ≠ [] → s'.download.granted = s.download.granted) : s'.Owed := by
  refine ⟨hasked.length_le.trans h.one, fun hsome => ?_⟩
  have hsome' : s.asked ≠ [] := by
    intro hnone
    rw [hnone] at hasked
    exact hsome (List.eq_nil_of_suffix_nil hasked)
  rw [hsource, hsent, hcredit, hgranted hsome]
  exact h.held hsome'

theorem Owed.turn (h : s.Owed) (answer : HostAnswer) : (s.turn answer).1.Owed := by
  have hturn := s.download.turns_turn answer
  unfold Fetch.turn Fetch.send
  simp only
  generalize (s.download.turn answer).1 = d, (s.download.turn answer).2 = messages at hturn
  refine ⟨h.one, fun hsome => ?_⟩
  obtain ⟨hcredit, hgranted, source, hsource, hleft⟩ := h.held hsome
  cases hturn with
  | waits => exact ⟨hcredit, hgranted, source, hsource, hleft⟩
  | opens other hended hnone =>
    rw [hsource] at hnone
    cases hnone
  | fails message hended hread =>
    have hpaid := hread source hsource
    omega
  | takes other granted rest hended hother hsent hspent hcons =>
    rw [hgranted] at hcons
    cases hcons
  | sends other bytes hended hother hpaid hbytes hfront hlength => omega
  | finishes other hended hother hsent => exact ⟨hcredit, hgranted, source, hsource, hleft⟩

theorem Owed.take (h : s.Owed) : s.take.1.Owed := by
  unfold Fetch.take
  split
  · exact h
  · next request rest hrequests =>
    have hasked : s.asked = (request.pulls).toList ++ rest.filterMap ClientMessage.pulls := by
      rw [asked, hrequests, List.filterMap_cons]
      cases request.pulls <;> rfl
    have hsuffix : rest.filterMap ClientMessage.pulls <:+ s.asked := ⟨_, hasked.symm⟩
    simp only
    split
    · next id chunks =>
      -- the one request for more is taken, and nothing is asked for behind it
      have hnone : rest.filterMap ClientMessage.pulls = [] := by
        have hone := h.one
        rw [hasked] at hone
        simp only [ClientMessage.pulls, Option.toList_some, List.length_append,
          List.length_singleton] at hone
        exact List.eq_nil_of_length_eq_zero (by omega)
      have hquiet : (({ s with requests := rest } : Fetch).pullDownload chunks).1.asked = [] := by
        unfold Fetch.pullDownload
        split <;> exact hnone
      exact ⟨by rw [hquiet]; exact Nat.zero_le _, fun hsome => absurd hquiet hsome⟩
    · unfold Fetch.stopDownload
      split
      · exact h.of_fewer hsuffix rfl rfl rfl fun _ => rfl
      · exact h.of_fewer hsuffix rfl rfl rfl fun _ => rfl
    · exact h.of_fewer hsuffix rfl rfl rfl fun _ => rfl

theorem Owed.downloadEnded (h : s.Owed) : s.downloadEnded.Owed := by
  unfold Fetch.downloadEnded
  split
  · exact h.of_fewer (List.suffix_refl _) rfl rfl rfl fun _ => rfl
  · exact h

theorem Owed.giveUp (h : s.Owed) : s.giveUp.Owed := by
  have hasked : s.giveUp.asked = s.asked := by
    simp [asked, Fetch.giveUp, ClientMessage.pulls]
  exact h.of_fewer (hasked ▸ List.suffix_refl _) rfl rfl rfl fun _ => rfl

theorem Inv.owed (h : s.Inv) {save : FileSave} (hsaving : s.saver = .saving save) : s.Owed := by
  have hsaver := h.saver
  rw [hsaving] at hsaver
  obtain ⟨source, hsource, hopen⟩ := hsaver
  exact hopen.owed h.ordered hsource

@[simp] theorem saver_proceed (s : Fetch) (save : FileSave) (progress : SaveProgress) :
    (s.proceed save progress).saver = .saving save := by
  cases progress <;> rfl

theorem receive_cases (s : Fetch) (machine : Machine) :
    (∃ save, (s.receive sha256 machine).saver = .saving save) ∨
      (s.receive sha256 machine).asked = s.asked := by
  unfold receive
  split
  · exact .inr rfl
  · simp only
    split
    · split
      · exact .inl ⟨_, saver_proceed ..⟩
      · exact .inr (by simp [asked, Fetch.giveUp, ClientMessage.pulls])
    · split
      · exact .inl ⟨_, saver_proceed ..⟩
      · exact .inr (by simp [asked, Fetch.giveUp, ClientMessage.pulls])
    · exact .inr rfl
    · exact .inr rfl

theorem Owed.receive (h : s.Owed) (hinv : s.Inv)
    (machine : Machine) : (s.receive sha256 machine).Owed := by
  rcases receive_cases sha256 s machine with ⟨save, hsaving⟩ | hasked
  · exact (hinv.receive sha256 machine).owed hsaving
  · have hsame := download_receive sha256 s machine
    refine h.of_fewer (hasked ▸ List.suffix_refl _) ?_ ?_ ?_ fun _ => ?_ <;> rw [hsame]

theorem Owed.step (h : s.Owed) (hinv : s.Inv) (move : Move) :
    (Fetch.step sha256 s move).1.Owed := by
  cases move with
  | turn answer => exact h.turn answer
  | taken => exact h.take
  | downloadEnded => exact h.downloadEnded
  | received machine => exact h.receive sha256 hinv machine
  | cancelled =>
    simp only [Fetch.step]
    split
    · exact h.giveUp
    · exact h.giveUp
    · exact h
    · exact h

theorem Owed.new (request : ℕ) : (Fetch.new request).Owed :=
  ⟨Nat.zero_le _, fun hsome => absurd rfl hsome⟩

/-! ### Errors -/

/-- The loop takes a request for more of a file without bytes that it has forgotten already. -/
def Late (s : Fetch) (move : Move) : Prop :=
  (∃ id chunks rest, move = .taken ∧ s.requests = .pullDownload id chunks :: rest) ∧
    s.registered = false ∧ ∃ source, s.download.source = some source ∧ source.length = 0

/-- The end of the file was announced. -/
def Finished (messages : List ServerMessage) : Prop :=
  ∃ id, ServerMessage.downloadFinished id ∈ messages

/-- The request was answered with an error. -/
def Erred (request : ℕ) (messages : List ServerMessage) : Prop :=
  ∃ text, ServerMessage.error (some request) text ∈ messages

theorem Finished.append {messages more : List ServerMessage} :
    Finished (messages ++ more) ↔ Finished messages ∨ Finished more := by
  simp only [Finished, List.mem_append, exists_or]

theorem Erred.append {request : ℕ} {messages more : List ServerMessage} :
    Erred request (messages ++ more) ↔ Erred request messages ∨ Erred request more := by
  simp only [Erred, List.mem_append, exists_or]

theorem take_says (s : Fetch) :
    s.take.2 = [] ∨ s.registered = false ∧
      (∃ id chunks rest, s.requests = .pullDownload id chunks :: rest) ∧
      s.take.2 = [.error (some s.download.request) "no file is being read"] := by
  unfold take
  split
  · exact .inl rfl
  · next request rest hrequests =>
    simp only
    split
    · next id chunks =>
      unfold pullDownload
      split
      · exact .inl rfl
      · next hgone =>
        exact .inr ⟨Bool.eq_false_iff.mpr hgone, ⟨id, chunks, rest, hrequests⟩, rfl⟩
    · exact .inl rfl
    · exact .inl rfl

section Runs

variable (sha256 : List UInt8 → String)

theorem ended_of_finished {move : Move} (h : Finished (step sha256 s move).2) :
    s.download.ended = false ∧ ∃ answer, move = .turn answer := by
  obtain ⟨id, hmem⟩ := h
  cases move with
  | turn answer =>
    refine ⟨?_, answer, rfl⟩
    by_contra hended
    simp only [Bool.not_eq_false] at hended
    simp [step, turn, send, Download.turn, hended] at hmem
  | taken =>
    rcases take_says s with hnone | ⟨-, -, herror⟩
    · rw [step, hnone] at hmem
      cases hmem
    · rw [step, herror] at hmem
      simp at hmem
  | downloadEnded => cases hmem
  | received machine => cases hmem
  | cancelled =>
    simp only [step] at hmem
    split at hmem <;> cases hmem

/-- **What draws an error**: a task that fails, and is over with it; or a request for more that finds
the entry gone. -/
theorem erred_step {request : ℕ} {move : Move} (h : Erred request (step sha256 s move).2) :
    (s.download.ended = false ∧ (step sha256 s move).1.download.ended = true ∧
        ¬Finished (step sha256 s move).2) ∨
      move = .taken ∧ s.registered = false ∧
        ∃ id chunks rest, s.requests = .pullDownload id chunks :: rest := by
  obtain ⟨text, hmem⟩ := h
  cases move with
  | turn answer =>
    left
    have hturn := s.download.turns_turn answer
    simp only [step, turn, send] at hmem ⊢
    generalize (s.download.turn answer).1 = d, (s.download.turn answer).2 = messages at hturn hmem
    cases hturn with
    | fails message hended hread => exact ⟨hended, rfl, by simp [Finished]⟩
    | _ => simp at hmem
  | taken =>
    rcases take_says s with hnone | ⟨hgone, hrequests, -⟩
    · rw [step, hnone] at hmem
      cases hmem
    · exact .inr ⟨rfl, hgone, hrequests⟩
  | downloadEnded => cases hmem
  | received machine => cases hmem
  | cancelled =>
    simp only [step] at hmem
    split at hmem <;> cases hmem

theorem ended_step (move : Move) (h : s.download.ended = true) :
    (step sha256 s move).1.download.ended = true := by
  rcases download_step sha256 s move with ⟨answer, rfl⟩ | ⟨-, -, hended⟩
  · simp [step, turn, send, Download.turn, h]
  · exact hended h

theorem not_finished_exec (h : s.download.ended = true) (moves : List Move) :
    ¬Finished (exec (step sha256) s moves).2 := by
  induction moves generalizing s with
  | nil => simp [Finished]
  | cons move moves ih =>
    rw [exec_cons, Finished.append, not_or]
    refine ⟨fun hfinished => ?_, ih (ended_step sha256 move h)⟩
    rw [(ended_of_finished sha256 hfinished).1] at h
    cases h

/-- **After the announcement** only a late request draws an error. -/
theorem not_erred_of_tells (hinv : s.Inv) (howed : s.Owed) {id request : ℕ}
    (htells : s.download.Tells (.downloadFinished id)) {moves : List Move}
    (htimely : AllSteps (step sha256) (fun s move => ¬s.Late move) s moves) :
    ¬Erred request (exec (step sha256) s moves).2 := by
  induction moves generalizing s with
  | nil => simp [Erred]
  | cons move moves ih =>
    rw [exec_cons, Erred.append, not_or]
    refine ⟨fun herred => ?_, ih (hinv.step sha256 move) (howed.step sha256 hinv move)
      (tells_step sha256 move htells) htimely.2⟩
    obtain ⟨hended, source, hsource, hsent⟩ := htells
    rcases erred_step sha256 herred with ⟨hnot, -⟩ | ⟨htaken, hgone, id, chunks, rest, hrequests⟩
    · rw [hended] at hnot
      cases hnot
    · have hasked : s.asked ≠ [] := by
        rw [asked, hrequests]
        exact List.cons_ne_nil _ _
      obtain ⟨-, -, other, hother, hleft⟩ := howed.held hasked
      rw [hsource] at hother
      cases hother
      exact htimely.1 ⟨⟨id, chunks, rest, htaken, hrequests⟩, hgone, source, hsource, by omega⟩

/-- In a run without late requests, the end and an error are not both announced. -/
theorem not_erred_of_timely (hinv : s.Inv) (howed : s.Owed) {request : ℕ} {moves : List Move}
    (htimely : AllSteps (step sha256) (fun s move => ¬s.Late move) s moves)
    (hfinished : Finished (exec (step sha256) s moves).2) :
    ¬Erred request (exec (step sha256) s moves).2 := by
  induction moves generalizing s with
  | nil => simp [Erred]
  | cons move moves ih =>
    rw [exec_cons, Finished.append] at hfinished
    rw [exec_cons, Erred.append, not_or]
    have hinv' := hinv.step sha256 move
    have howed' := howed.step sha256 hinv move
    rcases hfinished with hnow | hlater
    · obtain ⟨-, answer, rfl⟩ := ended_of_finished sha256 hnow
      obtain ⟨id, hmem⟩ := id hnow
      have htells := hinv.ordered.within.tells (s.download.turns_turn answer) _ hmem
      refine ⟨fun herred => ?_, not_erred_of_tells sha256 hinv' howed' htells htimely.2⟩
      rcases erred_step sha256 herred with ⟨-, -, hnot⟩ | ⟨htaken, -⟩
      · exact hnot hnow
      · cases htaken
    · -- the task is not over yet, so that this step did not end it with an error
      refine ⟨fun herred => ?_, ih hinv' howed' htimely.2 hlater⟩
      rcases erred_step sha256 herred with ⟨-, hended, -⟩ | ⟨htaken, hgone, -⟩
      · exact not_finished_exec sha256 hended moves hlater
      · exact not_finished_exec sha256
          (ended_step sha256 move (hinv.ordered.unregistered hgone)) moves hlater

@[simp] theorem request_step (move : Move) :
    (step sha256 s move).1.download.request = s.download.request := by
  cases move with
  | turn answer =>
    have hturn := s.download.turns_turn answer
    simp only [step, turn, send]
    generalize (s.download.turn answer).1 = d, (s.download.turn answer).2 = messages at hturn
    cases hturn <;> rfl
  | taken =>
    simp only [step, take]
    split
    · rfl
    · split
      · simp only [pullDownload, Download.grant]
        split
        · simp only
          split <;> rfl
        · rfl
      · simp only [stopDownload]
        split <;> rfl
      · rfl
  | downloadEnded =>
    simp only [step, downloadEnded]
    split <;> rfl
  | received machine => simp [step]
  | cancelled =>
    simp only [step]
    split <;> rfl

theorem timely_of_not_erred {moves : List Move}
    (h : ¬Erred s.download.request (exec (step sha256) s moves).2) :
    AllSteps (step sha256) (fun s move => ¬s.Late move) s moves := by
  induction moves generalizing s with
  | nil => trivial
  | cons move moves ih =>
    rw [exec_cons, Erred.append, not_or] at h
    refine ⟨?_, ih (by rw [request_step]; exact h.2)⟩
    rintro ⟨⟨id, chunks, rest, rfl, hrequests⟩, hgone, -⟩
    refine h.1 ⟨"no file is being read", ?_⟩
    simp [step, take, hrequests, pullDownload, hgone, send]

/-- **A completed download and an error for it.** In every run of the task, the daemon's loop and the
terminal that announces the end of the file, the request is answered with no error exactly if the
terminal never asks for more of a file without bytes that the loop has forgotten by then. -/
theorem completed_download_undisturbed_iff (request : ℕ) (moves : List Move)
    (hfinished : Finished (exec (step sha256) (new request) moves).2) :
    ¬Erred request (exec (step sha256) (new request) moves).2 ↔
      AllSteps (step sha256) (fun s move => ¬s.Late move) (new request) moves :=
  ⟨timely_of_not_erred sha256, fun htimely =>
    not_erred_of_timely sha256 (Inv.new request) (Owed.new request) htimely hfinished⟩

end Runs

/-- A file of three bytes, that is read in two pieces. -/
def threeRead : List Move :=
  twoOfThree ++ [.turn (.read 1), .turn (.read 0), .downloadEnded]

theorem not_late_of_registered {move : Move} (h : s.registered = true) : ¬s.Late move := by
  rintro ⟨-, hgone, -⟩
  rw [h] at hgone
  cases hgone

/-- A file with bytes is announced, and nothing asked of it is late. -/
theorem completed_download_undisturbed_threeRead :
    ¬Erred 1 (exec (step fun _ => "") (new 1) threeRead).2 :=
  (completed_download_undisturbed_iff (fun _ => "") 1 threeRead ⟨1, by decide⟩).mpr
    ⟨not_late_of_registered rfl, not_late_of_registered rfl, not_late_of_registered rfl,
      not_late_of_registered rfl, not_late_of_registered rfl, not_late_of_registered rfl,
      not_late_of_registered rfl, not_late_of_registered rfl, trivial⟩

/-- A file without bytes is received and saved, and its request is answered with an error. -/
theorem an_empty_file_draws_an_error :
    let run := exec (step fun _ => "") (new 1)
      [.turn (.opened ⟨"empty", 0, "", []⟩), .turn (.read 0), .downloadEnded,
        .received ⟨true, true, .ok ()⟩, .received ⟨true, true, .ok ()⟩, .taken]
    run.1.saver = .saved (.ok ()) ∧ .downloadFinished 1 ∈ run.2 ∧
      .error (some 1) "no file is being read" ∈ run.2 := by
  exact ⟨rfl, by decide, by decide⟩

end Fetch

end SuperHerdr
