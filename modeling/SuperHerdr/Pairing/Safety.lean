import SuperHerdr.Pairing.Steps

/-!
# What a paired device goes back to

A device is recorded by an approval, of an attempt that some call's match gave rise to, and a
call matches no code but the one issued last, once, in time, and before too many wrong entries.
The histories that this is about are read off the run itself: `Outstanding` says when the code
that is waiting was issued, and counts what happened since with `tally`.

No attempt has two devices, because none is asked for twice: each goes from a call to the loop's
queue, to the approvals, and to a device, and is at one of these at a time (`Distinct`).
-/

namespace SuperHerdr

open Std Transducer

namespace Pairing

section Tokens

variable (fingerprint : String → String) (tokens codes : ℕ → Except String String)

/-! ### The life of a code -/

def isAwaiting : Answer → Bool
  | .awaiting _ => true
  | _ => false

/-- The step gives rise to a request for approval. -/
def asks (s : Pairing) (move : Move) : Bool :=
  (step fingerprint tokens codes s move).2.any isAwaiting

theorem any_isAwaiting_of_silent {answers : List Answer} (h : Silent answers) :
    answers.any isAwaiting = false := by
  refine List.any_eq_false.mpr fun answer hmem => ?_
  cases answer with
  | awaiting attempt => exact absurd hmem (h attempt)
  | _ => exact Bool.false_ne_true

variable {s : Pairing} {move : Move}

/-- **What is left of a code after a step**: a new one, or the one there was, with a wrong entry
more or not. -/
theorem pending_step {pending' : PendingPairing}
    (h : (step fingerprint tokens codes s move).1.pending = some pending') :
    (∃ client request code, move = .requestPairingCode client request ∧
      codes s.codesDrawn = .ok code ∧ pending' = PendingPairing.new code s.now) ∨
    ∃ pending, s.pending = some pending ∧ issues codes s move = false ∧
      asks fingerprint tokens codes s move = false ∧
      pending' = { pending with attempts := pending.attempts + (errs s move).toNat } ∧
      (errs s move = true → pending.attempts + 1 < MAX_ATTEMPTS) := by
  have hadvances := s.advances_step fingerprint tokens codes move
  unfold asks
  generalize (step fingerprint tokens codes s move).1 = s',
    (step fingerprint tokens codes s move).2 = answers at h hadvances ⊢
  -- a step that leaves the code alone counts no wrong entry
  have hkept : s'.pending = s.pending → issues codes s move = false → Silent answers →
      errs s move = false → ∃ pending, s.pending = some pending ∧ issues codes s move = false ∧
        answers.any isAwaiting = false ∧
        pending' = { pending with attempts := pending.attempts + (errs s move).toNat } ∧
        (errs s move = true → pending.attempts + 1 < MAX_ATTEMPTS) := by
    intro hsame hissues hsilent herrs
    refine ⟨pending', hsame.symm.trans h, hissues, any_isAwaiting_of_silent hsilent, ?_,
      fun htrue => ?_⟩
    · rw [herrs]
      rfl
    · rw [herrs] at htrue
      cases htrue
  cases hadvances with
  | quiet move s' answers hquiet hsilent hissues herrs =>
    exact .inr (hkept hquiet.pending hissues hsilent herrs)
  | issued client request code answers hcode hsilent =>
    exact .inl ⟨client, request, code, rfl, hcode, (Option.some.inj h).symm⟩
  | called code name confirmation reads attempt held answers htoken hsilent =>
    exact .inr (hkept rfl rfl hsilent rfl)
  | turnedDown i request s' answers hi hquiet hsilent =>
    exact .inr (hkept hquiet.pending rfl hsilent rfl)
  | asked i request answers hi hsilent => exact .inr (hkept rfl rfl hsilent rfl)
  | recorded attempt deciding name token answers happroves hsilent =>
    exact .inr (hkept rfl rfl hsilent rfl)
  | presented i call s' answers hi hpresents =>
    cases hpresents with
    | none message hpending =>
      rw [hpending] at h
      cases h
    | expired pending message hpending hexpired => cases h
    | spent pending message hpending hlive hwrong => cases h
    | matched pending hpending haccepts => cases h
    | wrong pending message hpending hlive hwrong hleft =>
      cases h
      have hpending' : s.pending = some pending := hpending
      have herrs : errs s (.present i) = true := by
        simp [errs, hi, hpending', hlive, hwrong]
      refine .inr ⟨pending, hpending, rfl, rfl, ?_, fun _ => hleft⟩
      rw [herrs]
      rfl

theorem pending_none_step (hnone : s.pending = none) (hissues : issues codes s move = false) :
    (step fingerprint tokens codes s move).1.pending = none := by
  refine Option.eq_none_iff_forall_ne_some.mpr fun pending' hpending' => ?_
  rcases pending_step fingerprint tokens codes hpending' with
    ⟨client, request, code, rfl, hcode, -⟩ | ⟨pending, hpending, -⟩
  · rw [issues, hcode] at hissues
    cases hissues
  · rw [hnone] at hpending
    cases hpending

theorem pending_none_of_expired {i : ℕ} {call : Call} {pending : PendingPairing}
    (hi : s.calls[i]? = some call) (hpending : s.pending = some pending)
    (hexpired : pending.expiresAt ≤ call.now) : (s.present i).1.pending = none := by
  have hlate : pending.expired call.now = true := decide_eq_true hexpired
  simp only [present, hi, presentCall, hpending, hlate, if_true]

/-- **The code that is waiting**: it was issued last, with its lifetime ahead of it; since then
no request for approval was made, and there were as many wrong entries as were counted, fewer
than it survives. -/
def Outstanding (start : Pairing) (moves : List Move) (pending : PendingPairing) : Prop :=
  ∃ before client request since,
    moves = before ++ .requestPairingCode client request :: since ∧
    let s := (exec (step fingerprint tokens codes) start before).1
    let issued := (step fingerprint tokens codes s (.requestPairingCode client request)).1
    codes s.codesDrawn = .ok pending.code ∧ pending.expiresAt = s.now + CODE_LIFETIME ∧
    tally (step fingerprint tokens codes) (issues codes) issued since = 0 ∧
    tally (step fingerprint tokens codes) (asks fingerprint tokens codes) issued since = 0 ∧
    tally (step fingerprint tokens codes) errs issued since = pending.attempts ∧
    pending.attempts < MAX_ATTEMPTS

variable {start : Pairing}

/-- One more step that leaves the code. -/
theorem Outstanding.concat {moves : List Move} {pending : PendingPairing}
    (h : Outstanding fingerprint tokens codes start moves pending)
    (hissues : issues codes (exec (step fingerprint tokens codes) start moves).1 move = false)
    (hasks : asks fingerprint tokens codes (exec (step fingerprint tokens codes) start moves).1
      move = false)
    (herrs : errs (exec (step fingerprint tokens codes) start moves).1 move = true →
      pending.attempts + 1 < MAX_ATTEMPTS) :
    Outstanding fingerprint tokens codes start (moves ++ [move]) { pending with
      attempts := pending.attempts +
        (errs (exec (step fingerprint tokens codes) start moves).1 move).toNat } := by
  obtain ⟨before, client, request, since, rfl, hcode, hexpires, hnone, hunasked, hwrong, hleft⟩ := h
  refine ⟨before, client, request, since ++ [move], by simp, hcode, hexpires, ?_⟩
  -- what happened since the code was issued is now one step longer
  rw [exec_append, exec_cons] at hissues hasks herrs ⊢
  rw [tally_concat, tally_concat, tally_concat, hnone, hunasked, hwrong, hissues, hasks]
  refine ⟨rfl, rfl, rfl, ?_⟩
  cases hcount : errs (exec (step fingerprint tokens codes) (step fingerprint tokens codes
      (exec (step fingerprint tokens codes) start before).1
      (.requestPairingCode client request)).1 since).1 move with
  | true => exact herrs hcount
  | false => exact hleft

theorem outstanding (hstart : start.pending = none) (moves : List Move) :
    ∀ pending, (exec (step fingerprint tokens codes) start moves).1.pending = some pending →
      Outstanding fingerprint tokens codes start moves pending := by
  refine history_rule (P := fun moves (s : Pairing) => ∀ pending, s.pending = some pending →
      Outstanding fingerprint tokens codes start moves pending) ?_ ?_ moves
  · intro pending hpending
    rw [hstart] at hpending
    cases hpending
  · intro moves move ih pending' hpending'
    rcases pending_step fingerprint tokens codes hpending' with
      ⟨client, request, code, rfl, hcode, rfl⟩ |
      ⟨pending, hpending, hissues, hasks, rfl, herrs⟩
    · exact ⟨moves, client, request, [], rfl, hcode, rfl, rfl, rfl, rfl, Nat.succ_pos _⟩
    · exact (ih pending hpending).concat fingerprint tokens codes hissues hasks herrs

/-! ### Where attempts come from -/

/-- A call takes the lock and presents the code that is waiting. -/
def Presented (start : Pairing) (moves : List Move) (i : ℕ) (attempt : String) : Prop :=
  let s := (exec (step fingerprint tokens codes) start moves).1
  ∃ call pending, s.calls[i]? = some call ∧ call.attempt = attempt ∧ s.pending = some pending ∧
    Outstanding fingerprint tokens codes start moves pending ∧ call.now < pending.expiresAt ∧
    normalizeCode call.code = normalizeCode pending.code

variable {attempt : String}

/-- **A browser starts to wait when it presented the code**, and the code is spent with it. -/
theorem presented_of_awaiting (hstart : start.pending = none) {moves : List Move}
    (h : .awaiting attempt ∈ (step fingerprint tokens codes
      (exec (step fingerprint tokens codes) start moves).1 move).2) :
    ∃ i, move = .present i ∧ Presented fingerprint tokens codes start moves i attempt ∧
      (step fingerprint tokens codes
        (exec (step fingerprint tokens codes) start moves).1 move).1.pending = none := by
  have hout := outstanding fingerprint tokens codes hstart moves
  unfold Presented
  generalize (exec (step fingerprint tokens codes) start moves).1 = s at *
  have hadvances := s.advances_step fingerprint tokens codes move
  generalize (step fingerprint tokens codes s move).1 = s',
    (step fingerprint tokens codes s move).2 = answers at h hadvances ⊢
  cases hadvances with
  | quiet move s' answers hquiet hsilent hissues herrs => exact absurd h (hsilent attempt)
  | issued client request code answers hcode hsilent => exact absurd h (hsilent attempt)
  | called code name confirmation reads drawn held answers htoken hsilent =>
    exact absurd h (hsilent attempt)
  | turnedDown i request s' answers hi hquiet hsilent => exact absurd h (hsilent attempt)
  | asked i request answers hi hsilent => exact absurd h (hsilent attempt)
  | recorded attempt' deciding name token answers happroves hsilent =>
    exact absurd h (hsilent attempt)
  | presented i call s' answers hi hpresents =>
    cases hpresents with
    | matched pending hpending haccepts =>
      cases List.mem_singleton.mp h
      obtain ⟨hlive, hcode⟩ := (pending.accepts_iff call.code call.now).mp haccepts
      exact ⟨i, rfl, ⟨call, pending, hi, rfl, hpending, hout pending hpending, hlive, hcode⟩, rfl⟩
    | none message hpending => cases List.mem_singleton.mp h
    | expired pending message hpending hexpired => cases List.mem_singleton.mp h
    | spent pending message hpending hlive hwrong => cases List.mem_singleton.mp h
    | wrong pending message hpending hlive hwrong hleft => cases List.mem_singleton.mp h

/-- An attempt waits in the loop's queue or for approval. -/
def Asked (s : Pairing) (attempt : String) : Prop :=
  attempt ∈ s.inputs.map PairingRequested.attempt ∨ attempt ∈ s.approvals

theorem Quiet.mem_approvals {s s' : Pairing} (h : Quiet s s')
    (hmem : attempt ∈ s'.approvals) : attempt ∈ s.approvals := by
  rw [ExtTreeMap.mem_iff_isSome_getElem?, Option.isSome_iff_exists] at hmem ⊢
  obtain ⟨approval, hentry⟩ := hmem
  exact ⟨approval, h.approvals attempt approval hentry⟩

theorem Quiet.asked {s s' : Pairing} (h : Quiet s s')
    (hasked : s'.Asked attempt) : s.Asked attempt := by
  rcases hasked with hmem | hmem
  · rw [h.inputs] at hmem
    exact .inl hmem
  · exact .inr (h.mem_approvals hmem)

theorem asked_of_eraseIdx {i : ℕ}
    (h : ({ s with inputs := s.inputs.eraseIdx i } : Pairing).Asked attempt) : s.Asked attempt := by
  rcases h with hmem | hmem
  · exact .inl ((List.map_subset _ (List.eraseIdx_subset ..)) hmem)
  · exact .inr hmem

/-- An attempt that is asked for was asked for before, or a browser starts to wait for it. -/
theorem asked_step (h : (step fingerprint tokens codes s move).1.Asked attempt) :
    s.Asked attempt ∨ .awaiting attempt ∈ (step fingerprint tokens codes s move).2 := by
  have hadvances := s.advances_step fingerprint tokens codes move
  generalize (step fingerprint tokens codes s move).1 = s',
    (step fingerprint tokens codes s move).2 = answers at h hadvances ⊢
  cases hadvances with
  | quiet move s' answers hquiet hsilent hissues herrs => exact .inl (hquiet.asked h)
  | issued client request code answers hcode hsilent => exact .inl h
  | called code name confirmation reads drawn held answers htoken hsilent => exact .inl h
  | turnedDown i request s' answers hi hquiet hsilent =>
    exact .inl (asked_of_eraseIdx (hquiet.asked h))
  | asked i request answers hi hsilent =>
    left
    rcases h with hmem | hmem
    · exact asked_of_eraseIdx (.inl hmem)
    · rcases ExtTreeMap.mem_insert.mp hmem with hsame | hmem
      · rw [← LawfulEqCmp.eq_of_compare hsame]
        exact .inl (List.mem_map_of_mem (List.mem_of_getElem? hi))
      · exact .inr hmem
  | recorded attempt' deciding name token answers happroves hsilent =>
    exact .inl ((quiet_erase s attempt').asked h)
  | presented i call s' answers hi hpresents =>
    cases hpresents with
    | matched pending hpending haccepts =>
      rcases h with hmem | hmem
      · rw [List.map_append, List.mem_append] at hmem
        rcases hmem with hmem | hmem
        · exact .inl (.inl hmem)
        · rw [List.mem_singleton.mp hmem]
          exact .inr (List.mem_singleton.mpr rfl)
      · exact .inl (.inr hmem)
    | none message hpending => exact .inl h
    | expired pending message hpending hexpired => exact .inl h
    | spent pending message hpending hlive hwrong => exact .inl h
    | wrong pending message hpending hlive hwrong hleft => exact .inl h

/-- **Every attempt that is asked for was presented with a code.** -/
theorem presented_of_asked (hstart : start.pending = none)
    (hnone : ∀ attempt, ¬start.Asked attempt) {moves : List Move}
    (h : (exec (step fingerprint tokens codes) start moves).1.Asked attempt) :
    ∃ before i since, moves = before ++ .present i :: since ∧
      Presented fingerprint tokens codes start before i attempt := by
  -- by induction along the run: whatever is asked for, a browser started to wait for
  have hawaited : ∀ attempt, (exec (step fingerprint tokens codes) start moves).1.Asked attempt →
      .awaiting attempt ∈ (exec (step fingerprint tokens codes) start moves).2 := by
    refine history_rule (P := fun moves (s : Pairing) => ∀ attempt, s.Asked attempt →
      .awaiting attempt ∈ (exec (step fingerprint tokens codes) start moves).2) ?_ ?_ moves
    · exact fun attempt hasked => absurd hasked (hnone attempt)
    · intro moves move ih attempt hasked
      rw [exec_append, exec_singleton]
      rcases asked_step fingerprint tokens codes hasked with hasked | hawaiting
      · exact List.mem_append_left _ (ih attempt hasked)
      · exact List.mem_append_right _ hawaiting
  obtain ⟨before, move, since, rfl, hawaiting⟩ := mem_exec_snd (hawaited attempt h)
  obtain ⟨i, rfl, hpresented, -⟩ :=
    presented_of_awaiting fingerprint tokens codes hstart hawaiting
  exact ⟨before, i, since, rfl, hpresented⟩

/-! ### No attempt has two devices -/

/-- The attempts of calls, of requests, and of recorded devices. -/
def attempts (s : Pairing) : List String :=
  s.calls.map Call.attempt ++ s.inputs.map PairingRequested.attempt ++ s.recorded

/-- **An attempt is in one place at a time**: in a call, in the queue, among the approvals, or
recorded. -/
structure Distinct (s : Pairing) : Prop where
  nodup : s.attempts.Nodup
  apart : ∀ attempt ∈ s.approvals, attempt ∉ s.attempts
  drawn : ∀ attempt, attempt ∈ s.attempts ∨ attempt ∈ s.approvals →
    ∃ i < s.drawn, tokens i = .ok attempt

variable {tokens} in
theorem Distinct.of_subperm {s s' : Pairing} (h : s.Distinct tokens)
    (hattempts : s'.attempts.Subperm s.attempts)
    (happrovals : ∀ attempt ∈ s'.approvals, attempt ∈ s.approvals)
    (hdrawn : s.drawn ≤ s'.drawn) : s'.Distinct tokens := by
  refine ⟨?_, fun attempt hmem hattempt => ?_, fun attempt hmem => ?_⟩
  · obtain ⟨kept, hperm, hsublist⟩ := hattempts
    exact hperm.nodup_iff.mp (h.nodup.sublist hsublist)
  · exact h.apart attempt (happrovals attempt hmem) (hattempts.subset hattempt)
  · obtain ⟨i, hi, htoken⟩ := h.drawn attempt
      (hmem.imp (fun hattempt => hattempts.subset hattempt) (happrovals attempt))
    exact ⟨i, hi.trans_le hdrawn, htoken⟩

variable {tokens} in
theorem Distinct.quiet {s s' : Pairing} (h : s.Distinct tokens) (hquiet : Quiet s s') :
    s'.Distinct tokens := by
  have hsame : s'.attempts = s.attempts := by
    rw [attempts, attempts, hquiet.calls, hquiet.inputs, hquiet.recorded]
  exact h.of_subperm (hsame ▸ List.Subperm.refl _) (fun _ => hquiet.mem_approvals) hquiet.drawn

variable {tokens} in
/-- A call begins under a token that was not drawn before. -/
theorem Distinct.call (h : s.Distinct tokens)
    (htokens : ∀ i j token, tokens i = .ok token → tokens j = .ok token → i = j)
    (htoken : tokens s.drawn = .ok attempt) (held : List Device) (call : Call)
    (hcall : call.attempt = attempt) :
    Distinct tokens { s with held, drawn := s.drawn + 1, calls := s.calls ++ [call] } := by
  have hfresh : ¬(attempt ∈ s.attempts ∨ attempt ∈ s.approvals) := by
    intro hmem
    obtain ⟨i, hi, hother⟩ := h.drawn attempt hmem
    have := htokens i s.drawn attempt hother htoken
    omega
  have hperm : (attempts { s with held, drawn := s.drawn + 1, calls := s.calls ++ [call] }).Perm
      (attempt :: s.attempts) := by
    simp only [attempts, List.map_append, List.map_cons, List.map_nil, hcall, List.append_assoc]
    exact List.perm_middle
  refine ⟨?_, fun other hmem hattempt => ?_, fun other hmem => ?_⟩
  · rw [hperm.nodup_iff, List.nodup_cons]
    exact ⟨fun hmem => hfresh (.inl hmem), h.nodup⟩
  · rcases List.mem_cons.mp (hperm.mem_iff.mp hattempt) with rfl | hattempt
    · exact hfresh (.inr hmem)
    · exact h.apart other hmem hattempt
  · rw [hperm.mem_iff, List.mem_cons, or_assoc] at hmem
    rcases hmem with rfl | hmem
    · exact ⟨s.drawn, Nat.lt_succ_self _, htoken⟩
    · obtain ⟨i, hi, hother⟩ := h.drawn other hmem
      exact ⟨i, hi.trans (Nat.lt_succ_self _), hother⟩

variable {tokens} in
/-- A call takes the lock: its attempt goes, or moves on to the queue. -/
theorem Distinct.presented {s s' : Pairing} (h : s.Distinct tokens) {i : ℕ} {call : Call}
    {answers : List Answer} (hi : s.calls[i]? = some call)
    (hpresents : { s with calls := s.calls.eraseIdx i }.Presents call s' answers) :
    s'.Distinct tokens := by
  have hcalls : (call.attempt :: (s.calls.eraseIdx i).map Call.attempt).Perm
      (s.calls.map Call.attempt) := by
    obtain ⟨hlt, hget⟩ := List.getElem?_eq_some_iff.mp hi
    have := (List.getElem_cons_eraseIdx_perm hlt).map Call.attempt
    rwa [hget] at this
  have hgone : ∀ pending : Option PendingPairing,
      Distinct tokens { s with calls := s.calls.eraseIdx i, pending } := by
    intro pending
    refine h.of_subperm (List.Sublist.subperm ?_) (fun _ => id) le_rfl
    exact (((List.eraseIdx_sublist ..).map _).append_right _).append_right _
  cases hpresents with
  | matched pending hpending haccepts =>
    refine h.of_subperm (List.Perm.subperm ?_) (fun _ => id) le_rfl
    simp only [attempts, List.map_append, List.map_cons, List.map_nil]
    refine List.Perm.append_right _ ?_
    rw [← List.append_assoc]
    exact (List.perm_append_singleton ..).trans (hcalls.append_right _)
  | none message hpending => exact hgone _
  | expired pending message hpending hexpired => exact hgone _
  | spent pending message hpending hlive hwrong => exact hgone _
  | wrong pending message hpending hlive hwrong hleft => exact hgone _

variable {tokens} in
theorem Distinct.eraseIdx (h : s.Distinct tokens) (i : ℕ) :
    Distinct tokens { s with inputs := s.inputs.eraseIdx i } := by
  refine h.of_subperm (List.Sublist.subperm ?_) (fun _ => id) le_rfl
  exact (((List.eraseIdx_sublist ..).map _).append_left _).append_right _

variable {tokens} in
/-- The attempt of a request moves on to the approvals. -/
theorem Distinct.asked (h : s.Distinct tokens) {i : ℕ} {request : PairingRequested}
    (hi : s.inputs[i]? = some request) (approval : PendingPairingApproval) :
    Distinct tokens
      { s with
        inputs := s.inputs.eraseIdx i
        approvals := s.approvals.insert request.attempt approval } := by
  have hgone := h.eraseIdx i
  have hperm : (request.attempt ::
      attempts { s with inputs := s.inputs.eraseIdx i }).Perm s.attempts := by
    obtain ⟨hlt, hget⟩ := List.getElem?_eq_some_iff.mp hi
    have herased := (List.getElem_cons_eraseIdx_perm hlt).map PairingRequested.attempt
    rw [hget] at herased
    have hmoved : (request.attempt :: (s.calls.map Call.attempt ++
        (s.inputs.eraseIdx i).map PairingRequested.attempt)).Perm
          (s.calls.map Call.attempt ++ s.inputs.map PairingRequested.attempt) :=
      List.perm_middle.symm.trans (herased.append_left _)
    exact hmoved.append_right s.recorded
  -- it was in the queue, so once taken it is nowhere
  have hnot : request.attempt ∉ attempts { s with inputs := s.inputs.eraseIdx i } :=
    (List.nodup_cons.mp (hperm.nodup_iff.mpr h.nodup)).1
  refine ⟨hgone.nodup, fun other hmem => ?_, fun other hmem => ?_⟩
  · rcases ExtTreeMap.mem_insert.mp hmem with hsame | hmem
    · rw [← LawfulEqCmp.eq_of_compare hsame]
      exact hnot
    · exact hgone.apart other hmem
  · rcases hmem with hmem | hmem
    · exact hgone.drawn other (.inl hmem)
    · rcases ExtTreeMap.mem_insert.mp hmem with hsame | hmem
      · rw [← LawfulEqCmp.eq_of_compare hsame]
        exact h.drawn _ (.inl (hperm.mem_iff.mp List.mem_cons_self))
      · exact h.drawn other (.inr hmem)

variable {tokens} in
/-- A device is recorded for an attempt, which leaves the approvals. -/
theorem Distinct.withDevice (h : s.Distinct tokens)
    (happroval : attempt ∈ s.approvals) (name token : String) :
    (s.withDevice fingerprint attempt name token).Distinct tokens := by
  have hattempts : (s.withDevice fingerprint attempt name token).attempts =
      s.attempts ++ [attempt] := by
    simp [attempts, Pairing.withDevice]
  have hgone : ∀ {other}, other ∈ (s.withDevice fingerprint attempt name token).approvals →
      other ≠ attempt ∧ other ∈ s.approvals := by
    intro other hmem
    obtain ⟨hne, hmem⟩ := ExtTreeMap.mem_erase.mp hmem
    exact ⟨fun heq => hne (heq ▸ ReflCmp.compare_self), hmem⟩
  have hold : ∀ other, other ∈ s.attempts ∨ other ∈ s.approvals →
      ∃ i < s.drawn + 1, tokens i = .ok other := by
    intro other hmem
    obtain ⟨i, hi, htoken⟩ := h.drawn other hmem
    exact ⟨i, hi.trans (Nat.lt_succ_self _), htoken⟩
  refine ⟨?_, fun other hmem hattempt => ?_, fun other hmem => ?_⟩
  · rw [hattempts, List.nodup_append]
    refine ⟨h.nodup, List.nodup_singleton _, ?_⟩
    rintro other hmem same hsame rfl
    rw [List.mem_singleton] at hsame
    exact h.apart attempt happroval (hsame ▸ hmem)
  · obtain ⟨hne, hmem⟩ := hgone hmem
    rw [hattempts, List.mem_append, List.mem_singleton] at hattempt
    rcases hattempt with hattempt | heq
    · exact h.apart other hmem hattempt
    · exact hne heq
  · rw [hattempts, List.mem_append, List.mem_singleton] at hmem
    rcases hmem with (hmem | rfl) | hmem
    · exact hold other (.inl hmem)
    · exact hold other (.inr happroval)
    · exact hold other (.inr (hgone hmem).2)

theorem Approves.mem {attempt name : String} {approve : Bool}
    (h : s.Approves attempt approve name) : attempt ∈ s.approvals := by
  obtain ⟨-, approval, hentry, -⟩ := h
  rw [ExtTreeMap.mem_iff_isSome_getElem?, hentry]
  rfl

variable {tokens} in
theorem Distinct.step (h : s.Distinct tokens)
    (htokens : ∀ i j token, tokens i = .ok token → tokens j = .ok token → i = j) (move : Move) :
    (Pairing.step fingerprint tokens codes s move).1.Distinct tokens := by
  have hadvances := s.advances_step fingerprint tokens codes move
  generalize (Pairing.step fingerprint tokens codes s move).1 = s',
    (Pairing.step fingerprint tokens codes s move).2 = answers at hadvances ⊢
  cases hadvances with
  | quiet move s' answers hquiet hsilent hissues herrs => exact h.quiet hquiet
  | issued client request code answers hcode hsilent => exact ⟨h.nodup, h.apart, h.drawn⟩
  | called code name confirmation reads attempt held answers htoken hsilent =>
    exact h.call htokens htoken held _ rfl
  | presented i call s' answers hi hpresents => exact h.presented hi hpresents
  | turnedDown i request s' answers hi hquiet hsilent => exact (h.eraseIdx i).quiet hquiet
  | asked i request answers hi hsilent => exact h.asked hi _
  | recorded attempt deciding name token answers happroves hsilent =>
    exact h.withDevice fingerprint happroves.mem name token

/-- **A device is recorded only by an approval.** -/
theorem recorded_step (s : Pairing) (move : Move) :
    ((step fingerprint tokens codes s move).1.recorded = s.recorded ∧
      ∀ device ∈ (step fingerprint tokens codes s move).1.devices, device ∈ s.devices) ∨
    ∃ attempt deciding name token, move = .decidePairing attempt true deciding ∧
      s.Approves attempt true name ∧
      (step fingerprint tokens codes s move).1 = s.withDevice fingerprint attempt name token := by
  have hadvances := s.advances_step fingerprint tokens codes move
  generalize (step fingerprint tokens codes s move).1 = s',
    (step fingerprint tokens codes s move).2 = answers at hadvances ⊢
  cases hadvances with
  | quiet move s' answers hquiet hsilent hissues herrs =>
    exact .inl ⟨hquiet.recorded, hquiet.devices⟩
  | issued client request code answers hcode hsilent => exact .inl ⟨rfl, fun _ => id⟩
  | called code name confirmation reads attempt held answers htoken hsilent =>
    exact .inl ⟨rfl, fun _ => id⟩
  | presented i call s' answers hi hpresents =>
    left
    cases hpresents <;> exact ⟨rfl, fun _ => id⟩
  | turnedDown i request s' answers hi hquiet hsilent =>
    exact .inl ⟨hquiet.recorded, hquiet.devices⟩
  | asked i request answers hi hsilent => exact .inl ⟨rfl, fun _ => id⟩
  | recorded attempt deciding name token answers happroves hsilent =>
    exact .inr ⟨attempt, deciding, name, token, rfl, happroves, rfl⟩

theorem Distinct.new (configured : Bool) (webUrl : Option String) (devices : List Device) :
    (new configured webUrl devices).Distinct tokens := by
  refine ⟨List.nodup_nil, fun attempt hmem => ?_, fun attempt hmem => ?_⟩
  · cases hmem
  · rcases hmem with hmem | hmem
    · cases hmem
    · cases hmem

/-- **Pairing is safe.** After every run, a step that adds to the devices is the approval of an
attempt that exists, has not expired and whose browser is waiting; the attempt was presented with
the code that was waiting, and no device was recorded for it before. And a browser starts to wait
only when it presents the code that is waiting, which is spent with it. A code that a call finds
expired is gone, and none that is gone comes back. -/
theorem pairing_safe
    (htokens : ∀ i j token, tokens i = .ok token → tokens j = .ok token → i = j)
    (configured : Bool) (webUrl : Option String) (devices : List Device) (moves : List Move)
    (move : Move) :
    let start := new configured webUrl devices
    let s := (exec (step fingerprint tokens codes) start moves).1
    let after := step fingerprint tokens codes s move
    (∀ device ∈ after.1.devices, device ∉ s.devices → ∃ attempt deciding,
      move = .decidePairing attempt true deciding ∧ s.Approves attempt true device.name ∧
      (∃ before i since, moves = before ++ .present i :: since ∧
        Presented fingerprint tokens codes start before i attempt) ∧
      attempt ∉ s.recorded ∧ after.1.recorded = s.recorded ++ [attempt] ∧
      after.1.devices = s.devices ++ [device]) ∧
    s.recorded <+: after.1.recorded ∧
    (∀ attempt, .awaiting attempt ∈ after.2 → ∃ i, move = .present i ∧
      Presented fingerprint tokens codes start moves i attempt ∧ after.1.pending = none) ∧
    (∀ i call pending, move = .present i → s.calls[i]? = some call → s.pending = some pending →
      pending.expiresAt ≤ call.now → after.1.pending = none) ∧
    (s.pending = none → issues codes s move = false → after.1.pending = none) := by
  intro start s after
  have hdistinct : s.Distinct tokens :=
    exec_invariant (fun _ move h => h.step fingerprint codes htokens move)
      (Distinct.new tokens configured webUrl devices) moves
  have hunasked : ∀ attempt, ¬start.Asked attempt := by
    rintro attempt (hmem | hmem)
    · cases hmem
    · cases hmem
  refine ⟨fun device hmem hnew => ?_, ?_, fun attempt hawaiting => ?_, ?_,
    pending_none_step fingerprint tokens codes⟩
  · rcases recorded_step fingerprint tokens codes s move with
      ⟨-, hdevices⟩ | ⟨attempt, deciding, name, token, rfl, happroves, hafter⟩
    · exact absurd (hdevices device hmem) hnew
    · have hdevice : device = ⟨name, fingerprint token, s.now⟩ := by
        have hwritten : device ∈ s.devices ++ [⟨name, fingerprint token, s.now⟩] := by
          change device ∈ (s.withDevice fingerprint attempt name token).devices
          rw [← hafter]
          exact hmem
        rcases List.mem_append.mp hwritten with hold | hwritten
        · exact absurd hold hnew
        · exact List.mem_singleton.mp hwritten
      subst hdevice
      refine ⟨attempt, deciding, rfl, happroves, ?_, ?_, congrArg Pairing.recorded hafter,
        congrArg Pairing.devices hafter⟩
      · exact presented_of_asked fingerprint tokens codes rfl hunasked (.inr happroves.mem)
      · exact fun hrecorded => hdistinct.apart attempt happroves.mem
          (List.mem_append_right _ hrecorded)
  · rcases recorded_step fingerprint tokens codes s move with
      ⟨hsame, -⟩ | ⟨attempt, deciding, name, token, rfl, -, hafter⟩
    · exact hsame ▸ List.prefix_rfl
    · exact ⟨[attempt], (congrArg Pairing.recorded hafter).symm⟩
  · exact presented_of_awaiting fingerprint tokens codes rfl hawaiting
  · rintro i call pending rfl hi hpending hexpired
    exact pending_none_of_expired hi hpending hexpired

end Tokens

/-! ### A phone is paired -/

/-- Tokens told apart by their length. -/
def unaryToken (i : ℕ) : Except String String := .ok (String.ofList (List.replicate i 't'))

theorem unaryToken_injective (i j : ℕ) (token : String) (hi : unaryToken i = .ok token)
    (hj : unaryToken j = .ok token) : i = j := by
  have hsame := congrArg String.length (Except.ok.inj (hi.trans hj.symm))
  simpa using hsame

def fixedCode (_ : ℕ) : Except String String := .ok "ABCD-EFGH"

/-- A browser presents the code it was shown, and its request is taken. -/
def asking (name : String) : List Move :=
  [.requestPairingCode 0 0, .pair "abcd efgh" name "123456" true, .present 0, .next 0]

/-- Everything works out. -/
def untroubled : Deciding := ⟨true, .ok (), .ok ()⟩

theorem pairing_safe_phone :
    let step := step id unaryToken fixedCode
    let s := (exec step (new true none []) (asking "phone")).1
    let after := step s (.decidePairing "" true untroubled)
    after.1.devices = [⟨"phone", "t", 0⟩] ∧ s.Approves "" true "phone" ∧
      ∃ before i since, asking "phone" = before ++ .present i :: since ∧
        Presented id unaryToken fixedCode (new true none []) before i "" := by
  have h := (pairing_safe id unaryToken fixedCode unaryToken_injective true none []
    (asking "phone") (.decidePairing "" true untroubled)).1 ⟨"phone", "t", 0⟩ (by decide)
    (by decide)
  obtain ⟨attempt, deciding, hmove, happroves, hpresented, -⟩ := h
  cases hmove
  exact ⟨by decide, happroves, hpresented⟩

end Pairing

end SuperHerdr
