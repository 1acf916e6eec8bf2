import SuperHerdr.Pairing.Pairing

/-!
# What a step of pairing can do

What a call finds under the lock (`Presents`), what a decision does (`Decides`), and from these what
any step does (`Advances`): all but a few are `Quiet`, at most approvals and devices go with them.
What holds along every run is derived from this alone.
-/

namespace SuperHerdr

open Std Transducer

/-! ### Codes -/

theorem foldl_or_eq_zero (pairs : List (UInt8 × UInt8)) (difference : UInt8) :
    pairs.foldl (fun difference pair => difference ||| (pair.1 ^^^ pair.2)) difference = 0 ↔
      difference = 0 ∧ ∀ pair ∈ pairs, pair.1 = pair.2 := by
  induction pairs generalizing difference with
  | nil => simp
  | cons pair pairs ih => simp [ih, and_assoc]

/-- The comparison that does not stop early is equality. -/
theorem constantTimeEq_iff (left right : List UInt8) :
    constantTimeEq left right = true ↔ left = right := by
  unfold constantTimeEq
  by_cases hlength : left.length = right.length
  · simp only [hlength, ne_eq, not_true_eq_false, if_false, decide_eq_true_eq, foldl_or_eq_zero,
      true_and]
    induction left generalizing right with
    | nil =>
      cases right with
      | nil => simp
      | cons byte right => cases hlength
    | cons byte left ih =>
      cases right with
      | nil => cases hlength
      | cons byte' right =>
        have hrest := ih right (Nat.succ.inj hlength)
        simp only [List.zip_cons_cons, List.forall_mem_cons, List.cons.injEq, hrest]
  · simp only [ne_eq, hlength, not_false_eq_true, if_true, Bool.false_eq_true, false_iff]
    exact fun heq => hlength (congrArg List.length heq)

theorem codesMatch_iff (left right : String) : codesMatch left right = true ↔ left = right := by
  unfold codesMatch
  rw [constantTimeEq_iff, ← String.toByteArray_inj]
  constructor
  · intro h
    exact ByteArray.ext (Array.toList_inj.mp h)
  · intro h
    rw [h]

theorem PendingPairing.accepts_iff (pending : PendingPairing) (entered : String) (now : ℕ) :
    pending.accepts entered now = true ↔
      now < pending.expiresAt ∧ normalizeCode entered = normalizeCode pending.code := by
  simp [accepts, expired, codesMatch_iff]

namespace Pairing

/-! ### What a call finds under the lock -/

/-- **What a call can find**: no code, one that has expired, one it does not match, with or
without entries left, or the one it matches. -/
inductive Presents (s : Pairing) (call : Call) : Pairing → List Answer → Prop
  | none (message : String) (hpending : s.pending = Option.none) :
      s.Presents call s [.refused message]
  | expired (pending : PendingPairing) (message : String) (hpending : s.pending = some pending)
      (hexpired : pending.expired call.now = true) :
      s.Presents call { s with pending := Option.none } [.refused message]
  | spent (pending : PendingPairing) (message : String) (hpending : s.pending = some pending)
      (hlive : pending.expired call.now = false)
      (hwrong : pending.accepts call.code call.now = false) :
      s.Presents call { s with pending := Option.none } [.refused message]
  | wrong (pending : PendingPairing) (message : String) (hpending : s.pending = some pending)
      (hlive : pending.expired call.now = false)
      (hwrong : pending.accepts call.code call.now = false)
      (hleft : pending.attempts + 1 < MAX_ATTEMPTS) :
      s.Presents call
        { s with pending := some { pending with attempts := pending.attempts + 1 } }
        [.refused message]
  | matched (pending : PendingPairing) (hpending : s.pending = some pending)
      (haccepts : pending.accepts call.code call.now = true) :
      s.Presents call
        { s with
          pending := Option.none
          inputs := s.inputs ++ [⟨call.attempt, call.name, call.confirmation,
            call.now + PAIRING_APPROVAL_LIFETIME⟩]
          waiting := s.waiting.insert call.attempt }
        [.awaiting call.attempt]

variable (s : Pairing)

theorem presents_presentCall (call : Call) :
    s.Presents call (s.presentCall call).1 (s.presentCall call).2 := by
  unfold presentCall
  split
  · next hpending => exact .none _ hpending
  · next pending hpending =>
    split
    · next hexpired => exact .expired pending _ hpending hexpired
    · next hlive =>
      have hlive : pending.expired call.now = false := Bool.eq_false_iff.mpr hlive
      split
      · next hwrong =>
        have hwrong : pending.accepts call.code call.now = false := by simpa using hwrong
        simp only [PendingPairing.recordFailure, ge_iff_le, decide_eq_true_eq]
        by_cases hspent : MAX_ATTEMPTS ≤ min (pending.attempts + 1) (2 ^ 32 - 1)
        · rw [if_pos hspent]
          exact .spent pending _ hpending hlive hwrong
        · have hleft : pending.attempts + 1 < MAX_ATTEMPTS := by
            simp only [MAX_ATTEMPTS] at hspent ⊢
            omega
          have hcount : min (pending.attempts + 1) (2 ^ 32 - 1) = pending.attempts + 1 := by
            simp only [MAX_ATTEMPTS] at hleft
            omega
          rw [if_neg hspent, hcount]
          exact .wrong pending _ hpending hlive hwrong hleft
      · next haccepts =>
        exact .matched pending hpending (by simpa using haccepts)

/-! ### Steps that pass codes and attempts by -/

/-- Nothing is issued, presented or recorded; approvals and devices may go. -/
structure Quiet (s s' : Pairing) : Prop where
  pending : s'.pending = s.pending
  calls : s'.calls = s.calls
  inputs : s'.inputs = s.inputs
  recorded : s'.recorded = s.recorded
  devices : ∀ device ∈ s'.devices, device ∈ s.devices
  approvals : ∀ (attempt : String) (approval : PendingPairingApproval),
    s'.approvals[attempt]? = some approval → s.approvals[attempt]? = some approval
  drawn : s.drawn ≤ s'.drawn

theorem Quiet.refl : Quiet s s :=
  ⟨rfl, rfl, rfl, rfl, fun _ => id, fun _ _ => id, le_rfl⟩

theorem Quiet.trans {s s' s'' : Pairing} (h : Quiet s s') (h' : Quiet s' s'') : Quiet s s'' :=
  ⟨h'.pending.trans h.pending, h'.calls.trans h.calls, h'.inputs.trans h.inputs,
    h'.recorded.trans h.recorded, fun device hmem => h.devices device (h'.devices device hmem),
    fun attempt approval hentry => h.approvals attempt approval (h'.approvals _ _ hentry),
    h.drawn.trans h'.drawn⟩

/-- No browser starts to wait. -/
def Silent (answers : List Answer) : Prop := ∀ attempt, .awaiting attempt ∉ answers

theorem quiet_erase (attempt : String) :
    Quiet s { s with approvals := s.approvals.erase attempt } := by
  refine ⟨rfl, rfl, rfl, rfl, fun _ => id, fun other approval hentry => ?_, le_rfl⟩
  simp only [ExtTreeMap.getElem?_erase] at hentry
  split at hentry
  · cases hentry
  · exact hentry

theorem quiet_answer (attempt : String) (token : Except String String) :
    Quiet s (s.answer attempt token).1 ∧ Silent (s.answer attempt token).2 := by
  unfold answer
  split
  · exact ⟨⟨rfl, rfl, rfl, rfl, fun _ => id, fun _ _ => id, le_rfl⟩, by simp [Silent]⟩
  · exact ⟨Quiet.refl s, by simp [Silent]⟩

theorem silent_decided {answers : List Answer} (h : Silent answers) (attempt : String)
    (approved : Bool) (message : String) :
    Silent (answers ++ [pairingDecided attempt approved message]) := by
  intro other hmem
  rcases List.mem_append.mp hmem with hmem | hmem
  · exact h other hmem
  · cases List.mem_singleton.mp hmem

theorem quiet_expire (attempt : String) :
    Quiet s (s.expire attempt).1 ∧ Silent (s.expire attempt).2 := by
  obtain ⟨hquiet, hsilent⟩ := quiet_answer { s with approvals := s.approvals.erase attempt } attempt
    (.error "device approval expired")
  exact ⟨(quiet_erase s attempt).trans hquiet, silent_decided hsilent attempt false _⟩

theorem quiet_sweep : Quiet s s.sweepPairingApprovals.1 ∧ Silent s.sweepPairingApprovals.2 := by
  unfold sweepPairingApprovals
  simp only
  generalize List.map Prod.fst _ = expired
  have hfold : ∀ (swept : Pairing × List Answer), Quiet s swept.1 ∧ Silent swept.2 →
      Quiet s (expired.foldl (fun (swept : Pairing × List Answer) attempt =>
          ((swept.1.expire attempt).1, swept.2 ++ (swept.1.expire attempt).2)) swept).1 ∧
        Silent (expired.foldl (fun (swept : Pairing × List Answer) attempt =>
          ((swept.1.expire attempt).1, swept.2 ++ (swept.1.expire attempt).2)) swept).2 := by
    induction expired with
    | nil => exact fun swept h => h
    | cons attempt expired ih =>
      intro swept h
      obtain ⟨hquiet, hsilent⟩ := quiet_expire swept.1 attempt
      refine ih _ ⟨h.1.trans hquiet, fun other hmem => ?_⟩
      rcases List.mem_append.mp hmem with hmem | hmem
      · exact h.2 other hmem
      · exact hsilent other hmem
  exact hfold (s, []) ⟨Quiet.refl s, by simp [Silent]⟩

/-! ### Decisions -/

section Tokens

variable (fingerprint : String → String) (tokens codes : ℕ → Except String String)

/-- The configuration file is there and can be read and written, and a token can be drawn. -/
def Accessible (s : Pairing) (deciding : Deciding) : Prop :=
  s.configured = true ∧ (tokens s.drawn).isOk = true ∧ deciding.reads = .ok () ∧
    deciding.writes = .ok ()

variable (s : Pairing)

/-- **What recording a device can do**: fail, or add it under the name of the attempt. -/
theorem record_cases (deciding : Deciding) (attempt name : String) :
    (∃ drawn message, s.drawn ≤ drawn ∧
      (s.Accessible tokens deciding → name ∈ s.devices.map Device.name) ∧
      s.record fingerprint tokens deciding attempt name = ({ s with drawn }, .error message)) ∨
    ∃ token, s.Accessible tokens deciding ∧ name ∉ s.devices.map Device.name ∧
      tokens s.drawn = .ok token ∧
      s.record fingerprint tokens deciding attempt name =
        ({ s with
            drawn := s.drawn + 1
            devices := s.devices ++ [⟨name, fingerprint token, s.now⟩]
            recorded := s.recorded ++ [attempt] }, .ok token) := by
  unfold record
  split
  · next hconfigured =>
    refine .inl ⟨s.drawn, _, le_rfl, fun haccess => ?_, rfl⟩
    simp [haccess.1] at hconfigured
  · next hconfigured =>
    have hconfigured : s.configured = true := by simpa using hconfigured
    simp only
    cases htoken : tokens s.drawn with
    | error message =>
      refine .inl ⟨s.drawn + 1, message, Nat.le_succ _, fun haccess => ?_, rfl⟩
      have := haccess.2.1
      rw [htoken] at this
      cases this
    | ok token =>
      simp only [addDeviceFile]
      cases hreads : deciding.reads with
      | error message =>
        refine .inl ⟨s.drawn + 1, message, Nat.le_succ _, fun haccess => ?_, rfl⟩
        have := haccess.2.2.1
        rw [hreads] at this
        cases this
      | ok =>
        by_cases hname : name ∈ s.devices.map Device.name
        · simp only [hname, if_true]
          exact .inl ⟨s.drawn + 1, _, Nat.le_succ _, fun _ => trivial, rfl⟩
        · simp only [hname, if_false]
          cases hwrites : deciding.writes with
          | error message =>
            refine .inl ⟨s.drawn + 1, message, Nat.le_succ _, fun haccess => ?_, rfl⟩
            have := haccess.2.2.2
            rw [hwrites] at this
            cases this
          | ok =>
            have haccess : s.Accessible tokens deciding := by
              refine ⟨hconfigured, ?_, hreads, hwrites⟩
              rw [htoken]
              rfl
            exact .inr ⟨token, haccess, not_false, rfl, rfl⟩

/-- An attempt that exists, has not expired and whose browser is still waiting is approved. -/
def Approves (s : Pairing) (attempt : String) (approve : Bool) (name : String) : Prop :=
  approve = true ∧ ∃ approval : PendingPairingApproval, s.approvals[attempt]? = some approval ∧
    s.now < approval.expiresAt ∧ attempt ∈ s.waiting ∧ approval.name = name

/-- What a browser is told about one attempt. -/
def Told (attempt : String) (answers : List Answer) : Prop :=
  ∀ answer ∈ answers, ∃ token, answer = .decided attempt token

theorem told_answer (attempt : String) (token : Except String String) :
    Told attempt (s.answer attempt token).2 := by
  unfold answer
  split
  · exact fun answer hmem => ⟨token, List.mem_singleton.mp hmem⟩
  · exact fun answer hmem => by cases hmem

/-- The state in which a device was recorded for an attempt. -/
def withDevice (s : Pairing) (attempt name token : String) : Pairing :=
  { s with
    approvals := s.approvals.erase attempt
    waiting := s.waiting.erase attempt
    drawn := s.drawn + 1
    devices := s.devices ++ [⟨name, fingerprint token, s.now⟩]
    recorded := s.recorded ++ [attempt] }

/-- **What a decision can do.** It is reported as refused, and records nothing; or a device is
recorded under the name of the attempt, and whether its browser stayed is reported. -/
inductive Decides (s : Pairing) (deciding : Deciding) (attempt : String) (approve : Bool) :
    Pairing → List Answer → Prop
  | refused (s' : Pairing) (message : String) (told : List Answer)
      (hname : ∀ name, s.Approves attempt approve name → s.Accessible tokens deciding →
        name ∈ s.devices.map Device.name)
      (hquiet : Quiet s s') (htold : Told attempt told) :
      s.Decides deciding attempt approve s' (told ++ [pairingDecided attempt false message])
  | recorded (name token message : String) (told : List Answer)
      (happroves : s.Approves attempt approve name) (haccessible : s.Accessible tokens deciding)
      (hname : name ∉ s.devices.map Device.name) (htoken : tokens s.drawn = .ok token)
      (htold : Told attempt told) :
      s.Decides deciding attempt approve (s.withDevice fingerprint attempt name token)
        (told ++ [pairingDecided attempt deciding.stays message])

theorem answer_leave {attempt : String} (hwaiting : attempt ∈ s.waiting)
    (stays : Bool) (token : Except String String) :
    ((if stays then s else s.leave attempt).answer attempt token).1 = s.leave attempt := by
  unfold answer
  cases stays with
  | true =>
    simp only [if_true, hwaiting]
    rfl
  | false =>
    have hgone : attempt ∉ (s.leave attempt).waiting := by
      simp [leave]
    simp only [Bool.false_eq_true, if_false, hgone]

theorem decides_approve {s : Pairing} {deciding : Deciding} {attempt name : String}
    (happroves : s.Approves attempt true name) :
    s.Decides fingerprint tokens deciding attempt true
      (({ s with approvals := s.approvals.erase attempt } : Pairing).approve fingerprint tokens
        deciding attempt name).1
      (({ s with approvals := s.approvals.erase attempt } : Pairing).approve fingerprint tokens
        deciding attempt name).2 := by
  obtain ⟨-, approval, hentry, hlive, hwaiting, rfl⟩ := happroves
  unfold approve
  rcases record_cases fingerprint tokens { s with approvals := s.approvals.erase attempt } deciding
      attempt approval.name with
    ⟨drawn, message, hdrawn, htaken, hrecord⟩ | ⟨token, haccessible, hfree, htoken, hrecord⟩
  · rw [hrecord]
    simp only
    rw [answer_leave _ (by exact hwaiting)]
    refine .refused _ message _ ?_ ?_ (told_answer _ attempt _)
    · rintro name ⟨-, other, hother, -, -, rfl⟩ haccessible
      rw [hentry] at hother
      cases hother
      exact htaken haccessible
    · exact (quiet_erase s attempt).trans
        ⟨rfl, rfl, rfl, rfl, fun _ => id, fun _ _ => id, hdrawn⟩
  · rw [hrecord]
    simp only
    rw [answer_leave _ (by exact hwaiting)]
    have hdecided : ∀ message, ∃ message', (if deciding.stays then
        pairingDecided attempt true message
        else pairingDecided attempt false "the browser left before approval completed") =
          pairingDecided attempt deciding.stays message' := by
      intro message
      cases deciding.stays with
      | true => exact ⟨_, rfl⟩
      | false => exact ⟨_, rfl⟩
    obtain ⟨message', hmessage⟩ := hdecided s!"{approval.name} paired"
    rw [hmessage]
    exact .recorded approval.name token message' _
      ⟨rfl, approval, hentry, hlive, hwaiting, rfl⟩ haccessible hfree htoken
      (told_answer _ attempt _)

theorem decides_decidePairing (deciding : Deciding) (attempt : String) (approve : Bool) :
    s.Decides fingerprint tokens deciding attempt approve
      (s.decidePairing fingerprint tokens deciding attempt approve).1
      (s.decidePairing fingerprint tokens deciding attempt approve).2 := by
  unfold decidePairing
  cases hentry : s.approvals[attempt]? with
  | none =>
    refine .refused s _ [] (fun name happroves => ?_) (Quiet.refl s) (by simp [Told])
    obtain ⟨-, approval, happroval, -⟩ := happroves
    rw [hentry] at happroval
    cases happroval
  | some approval =>
    have herased := quiet_erase s attempt
    have hrefused : ∀ (token : Except String String) (message : String),
        (∀ name, ¬s.Approves attempt approve name) →
        s.Decides fingerprint tokens deciding attempt approve
          (({ s with approvals := s.approvals.erase attempt } : Pairing).answer attempt token).1
          ((({ s with approvals := s.approvals.erase attempt } : Pairing).answer attempt token).2 ++
            [pairingDecided attempt false message]) := by
      intro token message hnot
      exact .refused _ message _ (fun name happroves => absurd happroves (hnot name))
        (herased.trans (quiet_answer _ attempt token).1) (told_answer _ attempt token)
    simp only
    split
    · next hexpired =>
      refine hrefused _ _ fun name ⟨_, other, hother, hlive, hwaiting, _⟩ => ?_
      rw [hentry] at hother
      cases hother
      rcases hexpired with hexpired | hgone
      · omega
      · exact hgone hwaiting
    · next hlive =>
      simp only [not_or, not_not, Nat.not_le] at hlive
      split
      · next hrejected =>
        refine hrefused _ _ fun name happroves => ?_
        rw [happroves.1] at hrejected
        cases hrejected
      · next happrove =>
        have happrove : approve = true := by simpa using happrove
        subst happrove
        exact decides_approve fingerprint tokens
          ⟨rfl, approval, hentry, hlive.1, hlive.2, rfl⟩

/-! ### One step -/

theorem Told.silent {attempt : String} {answers : List Answer} (h : Told attempt answers) :
    Silent answers := by
  intro other hmem
  obtain ⟨token, htold⟩ := h _ hmem
  cases htold

variable {fingerprint tokens} in
theorem Decides.silent {s s' : Pairing} {deciding : Deciding} {attempt : String} {approve : Bool}
    {answers : List Answer}
    (h : s.Decides fingerprint tokens deciding attempt approve s' answers) : Silent answers := by
  cases h with
  | refused s' message told hname hquiet htold =>
    exact silent_decided htold.silent attempt false message
  | recorded name token message told happroves haccessible hname htoken htold =>
    exact silent_decided htold.silent attempt deciding.stays message

/-- The step issues a code. -/
def issues (s : Pairing) (move : Move) : Bool :=
  match move with
  | .requestPairingCode _ _ => (codes s.codesDrawn).isOk
  | _ => false

/-- The step is a wrong entry. -/
def errs (s : Pairing) (move : Move) : Bool :=
  match move with
  | .present i =>
      match s.calls[i]?, s.pending with
      | some call, some pending =>
          !pending.expired call.now && !pending.accepts call.code call.now
      | _, _ => false
  | _ => false

/-- **What a step can do**: pass codes and attempts by, issue a code, begin a call, take the lock
for one, turn a request down or put it up for approval, or record a device. -/
inductive Advances (s : Pairing) : Move → Pairing → List Answer → Prop
  | quiet (move : Move) (s' : Pairing) (answers : List Answer) (hquiet : Quiet s s')
      (hsilent : Silent answers) (hissues : issues codes s move = false)
      (herrs : errs s move = false) : s.Advances move s' answers
  | issued (client : ClientId) (request : ℕ) (code : String) (answers : List Answer)
      (hcode : codes s.codesDrawn = .ok code) (hsilent : Silent answers) :
      s.Advances (.requestPairingCode client request)
        { s with
          codesDrawn := s.codesDrawn + 1
          pending := some (PendingPairing.new code s.now) } answers
  | called (code name confirmation : String) (reads : Bool) (attempt : String)
      (held : List Device) (answers : List Answer) (htoken : tokens s.drawn = .ok attempt)
      (hsilent : Silent answers) :
      s.Advances (.pair code name confirmation reads)
        { s with
          held
          drawn := s.drawn + 1
          calls := s.calls ++
            [⟨code, uniqueDeviceName name held, confirmation, attempt, s.now⟩] } answers
  | presented (i : ℕ) (call : Call) (s' : Pairing) (answers : List Answer)
      (hi : s.calls[i]? = some call)
      (hpresents : { s with calls := s.calls.eraseIdx i }.Presents call s' answers) :
      s.Advances (.present i) s' answers
  | turnedDown (i : ℕ) (request : PairingRequested) (s' : Pairing) (answers : List Answer)
      (hi : s.inputs[i]? = some request)
      (hquiet : Quiet { s with inputs := s.inputs.eraseIdx i } s') (hsilent : Silent answers) :
      s.Advances (.next i) s' answers
  | asked (i : ℕ) (request : PairingRequested) (answers : List Answer)
      (hi : s.inputs[i]? = some request) (hsilent : Silent answers) :
      s.Advances (.next i)
        { s with
          inputs := s.inputs.eraseIdx i
          approvals := s.approvals.insert request.attempt ⟨request.name, request.expiresAt⟩ }
        answers
  | recorded (attempt : String) (deciding : Deciding) (name token : String)
      (answers : List Answer) (happroves : s.Approves attempt true name)
      (hsilent : Silent answers) :
      s.Advances (.decidePairing attempt true deciding)
        (s.withDevice fingerprint attempt name token) answers

theorem silent_tell (client : ClientId) (message : ServerMessage) :
    Silent (s.tell client message) := by
  intro attempt hmem
  unfold tell at hmem
  split at hmem
  · cases List.mem_singleton.mp hmem
  · cases hmem

theorem advances_issue (client : ClientId) (request : ℕ) :
    s.Advances fingerprint tokens codes (.requestPairingCode client request)
      (s.issuePairingCode codes client request).1 (s.issuePairingCode codes client request).2 := by
  unfold issuePairingCode
  cases hcode : codes s.codesDrawn with
  | error message =>
    refine .quiet _ _ _ ⟨rfl, rfl, rfl, rfl, fun _ => id, fun _ _ => id, le_rfl⟩
      (silent_tell _ client _) ?_ rfl
    rw [issues, hcode]
    rfl
  | ok code => exact .issued client request code _ hcode (silent_tell _ client _)

theorem current_eq (reads : Bool) : ∃ held, s.current reads = { s with held } := by
  unfold current
  split
  · exact ⟨_, rfl⟩
  · exact ⟨s.held, rfl⟩

/-- A call begins, or is refused ahead of the lock. -/
theorem advances_pair (code name confirmation : String) (reads : Bool) :
    s.Advances fingerprint tokens codes (.pair code name confirmation reads)
      (s.pair tokens code name confirmation reads).1
      (s.pair tokens code name confirmation reads).2 := by
  unfold pair
  split
  · exact .quiet _ _ _ (Quiet.refl s) (by simp [Silent]) rfl rfl
  · split
    · exact .quiet _ _ _ (Quiet.refl s) (by simp [Silent]) rfl rfl
    · obtain ⟨held, hheld⟩ := s.current_eq reads
      simp only [hheld]
      cases htoken : tokens s.drawn with
      | error message =>
        exact .quiet _ _ _ ⟨rfl, rfl, rfl, rfl, fun _ => id, fun _ _ => id, Nat.le_succ _⟩
          (by simp [Silent]) rfl rfl
      | ok attempt =>
        exact .called code name confirmation reads attempt held _ htoken (by simp [Silent])

theorem advances_present (i : ℕ) :
    s.Advances fingerprint tokens codes (.present i) (s.present i).1 (s.present i).2 := by
  unfold present
  cases hi : s.calls[i]? with
  | none =>
    refine .quiet _ _ _ (Quiet.refl s) (by simp [Silent]) rfl ?_
    rw [errs, hi]
  | some call => exact .presented i call _ _ hi (presents_presentCall _ call)

theorem advances_next (i : ℕ) :
    s.Advances fingerprint tokens codes (.next i) (s.next i).1 (s.next i).2 := by
  unfold next
  cases hi : s.inputs[i]? with
  | none => exact .quiet _ _ _ (Quiet.refl s) (by simp [Silent]) rfl rfl
  | some request =>
    simp only [pairingRequested]
    split
    · obtain ⟨hquiet, hsilent⟩ := quiet_answer { s with inputs := s.inputs.eraseIdx i }
        request.attempt (.error "too many device approvals are already waiting")
      exact .turnedDown i request _ _ hi hquiet hsilent
    · exact .asked i request _ hi (by simp [Silent])

theorem advances_decidePairing (deciding : Deciding) (attempt : String) (approve : Bool) :
    s.Advances fingerprint tokens codes (.decidePairing attempt approve deciding)
      (s.decidePairing fingerprint tokens deciding attempt approve).1
      (s.decidePairing fingerprint tokens deciding attempt approve).2 := by
  have hdecides := decides_decidePairing fingerprint tokens s deciding attempt approve
  have hsilent := hdecides.silent
  generalize (s.decidePairing fingerprint tokens deciding attempt approve).1 = s',
    (s.decidePairing fingerprint tokens deciding attempt approve).2 = answers at hdecides hsilent ⊢
  cases hdecides with
  | refused s' message told hname hquiet htold => exact .quiet _ _ _ hquiet hsilent rfl rfl
  | recorded name token message told happroves haccessible hname htoken htold =>
    have happrove : approve = true := happroves.1
    subst happrove
    exact .recorded attempt deciding name token _ happroves hsilent

theorem advances_step (move : Move) :
    s.Advances fingerprint tokens codes move (step fingerprint tokens codes s move).1
      (step fingerprint tokens codes s move).2 := by
  cases move with
  | connected _ | disconnected _ | left _ | elapsed _ =>
    exact .quiet _ _ _ ⟨rfl, rfl, rfl, rfl, fun _ => id, fun _ _ => id, le_rfl⟩
      (by simp [Silent, step]) rfl rfl
  | refreshDue =>
    obtain ⟨hquiet, hsilent⟩ := quiet_sweep s
    exact .quiet _ _ _ hquiet hsilent rfl rfl
  | revoked name =>
    refine .quiet _ _ _ ⟨rfl, rfl, rfl, rfl, fun device hmem => ?_, fun _ _ => id, le_rfl⟩
      (by simp [Silent, step]) rfl rfl
    exact (List.mem_filter.mp hmem).1
  | requestPairingCode client request =>
    exact s.advances_issue fingerprint tokens codes client request
  | pair code name confirmation reads =>
    exact s.advances_pair fingerprint tokens codes code name confirmation reads
  | present i => exact s.advances_present fingerprint tokens codes i
  | next i => exact s.advances_next fingerprint tokens codes i
  | decidePairing attempt approve deciding =>
    exact s.advances_decidePairing fingerprint tokens codes deciding attempt approve

end Tokens

end Pairing

end SuperHerdr
