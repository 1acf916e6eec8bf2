import SuperHerdr.Transfer.Relay

/-!
# What an attempt's outcome promises

An attempt that is done left the whole file on the host, under the digest its sender attested
to. One that is refused or withdrawn is meant to leave nothing the daemon can name: each path it
knows of, the one being resumed and the one in a receipt, is to be discarded. `Report.Lawful`
says both.

The first half always holds. The second fails with the attempt: an error on the way, an SSH
session that cannot be reached or ends badly, is passed on without a word about the path.
`Host.Settles` says when the host does not get that far, and `relay_lawful_iff` that the law
holds exactly then.

What carries the proofs is one lemma for each stage: a read takes bytes off the front of the
sender's stream or finds its end (`RelayReader.read_cases`), the copy loop offers the host a
beginning of the stream (`copies_copy`), and an attempt either never gets to send or goes all
the way to the receipt (`remoteAttempt_cases`, `localAttempt_cases`).
-/

namespace SuperHerdr

/-! ### What a sender delivers and attests to -/

namespace RelayItem

/-- The bytes a sender delivers: those of the chunks ahead of whatever ends its stream. -/
def delivered : List RelayItem → List UInt8
  | .chunk bytes :: rest => bytes ++ delivered rest
  | _ => []

/-- The digest an item attests to. -/
def digest : RelayItem → Option String
  | .finish digest => some digest
  | _ => none

/-- The digest a sender attests to, the first one it gives. -/
def attestation (items : List RelayItem) : Option String :=
  items.findSome? RelayItem.digest

@[simp] theorem attestation_chunk (bytes : List UInt8) (items : List RelayItem) :
    attestation (.chunk bytes :: items) = attestation items := rfl

@[simp] theorem attestation_cancel (items : List RelayItem) :
    attestation (.cancel :: items) = attestation items := rfl

@[simp] theorem attestation_finish (digest : String) (items : List RelayItem) :
    attestation (.finish digest :: items) = some digest := rfl

end RelayItem

namespace RelayReader

open RelayItem

/-- What is still to be read. -/
def stream (reader : RelayReader) : List UInt8 :=
  reader.pending ++ delivered reader.chunks

/-- What the sender attested to or is still going to. -/
def attestation (reader : RelayReader) : Option String :=
  reader.attested <|> RelayItem.attestation reader.chunks

/-- Refilling an empty reader finds the end of the stream, or bytes and loses none. Either way
the sender's attestation is kept. -/
theorem refill_cases {reader : RelayReader} (hpending : reader.pending = [])
    (hattested : reader.attested = none) (items : List RelayItem) :
    (reader.refill items).pending = [] ∧ delivered items = [] ∧
        (reader.refill items).attestation = RelayItem.attestation items ∨
      (reader.refill items).pending ≠ [] ∧ (reader.refill items).stream = delivered items ∧
        (reader.refill items).attested = none ∧
        (reader.refill items).attestation = RelayItem.attestation items := by
  induction items with
  | nil => exact .inl ⟨hpending, rfl, by simp [refill, attestation, hattested]⟩
  | cons item items ih =>
    cases item with
    | finish digest => exact .inl ⟨hpending, rfl, rfl⟩
    | cancel => exact .inl ⟨hpending, rfl, by simp [refill, attestation, hattested]⟩
    | chunk bytes =>
      cases bytes with
      | nil => exact ih
      | cons byte bytes =>
        exact .inr ⟨by simp [refill], rfl, hattested, by simp [refill, attestation, hattested]⟩

/-- **One read**: the end of the stream, or some bytes off its front. -/
theorem read_cases {reader : RelayReader} (hattested : reader.attested = none) {wanted : ℕ}
    (hwanted : 0 < wanted) :
    (reader.read wanted).1 = [] ∧ reader.stream = [] ∧
        (reader.read wanted).2.attestation = reader.attestation ∨
      (reader.read wanted).1 ≠ [] ∧ (reader.read wanted).1.length ≤ wanted ∧
        reader.stream = (reader.read wanted).1 ++ (reader.read wanted).2.stream ∧
        (reader.read wanted).2.attested = none ∧
        (reader.read wanted).2.attestation = reader.attestation := by
  -- with bytes at hand, whether they were there or had to be fetched, the first are handed over
  have htake : ∀ held : RelayReader, held.pending ≠ [] → held.attested = none →
      held.stream = reader.stream → held.attestation = reader.attestation →
      held.pending.take wanted ≠ [] ∧ (held.pending.take wanted).length ≤ wanted ∧
        reader.stream = held.pending.take wanted ++
          { held with pending := held.pending.drop wanted }.stream ∧
        held.attested = none ∧ held.attestation = reader.attestation := by
    intro held hne hnone hstream hattests
    refine ⟨?_, List.length_take_le .., ?_, hnone, hattests⟩
    · rw [Ne, List.take_eq_nil_iff, not_or]
      exact ⟨hwanted.ne', hne⟩
    · rw [← hstream, stream, stream, ← List.append_assoc, List.take_append_drop]
  by_cases hpending : reader.pending = []
  · have hread : reader.read wanted = ((reader.refill reader.chunks).pending.take wanted,
        { reader.refill reader.chunks with
          pending := (reader.refill reader.chunks).pending.drop wanted }) := by
      rw [read, if_pos hpending]
    have hstream : reader.stream = delivered reader.chunks := by rw [stream, hpending]; rfl
    have hattests : RelayItem.attestation reader.chunks = reader.attestation := by
      rw [attestation, hattested]
      rfl
    rw [hread]
    rcases refill_cases hpending hattested reader.chunks with
      ⟨hended, hnothing, hkept⟩ | ⟨hsome, hall, hnone, hkept⟩
    · exact .inl ⟨by rw [hended, List.take_nil], hstream.trans hnothing, hkept.trans hattests⟩
    · exact .inr (htake _ hsome hnone (hall.trans hstream.symm) (hkept.trans hattests))
  · have hread : reader.read wanted = (reader.pending.take wanted,
        { reader with pending := reader.pending.drop wanted }) := by
      rw [read, if_neg hpending]
    rw [hread]
    exact .inr (htake reader hpending hattested rfl rfl)

theorem attestation_of_trailer {reader : RelayReader} {timely : Bool} {digest : String}
    (h : (reader.trailer timely).1 = .digest digest) : reader.attestation = some digest := by
  unfold trailer at h
  split at h
  · next attested hattested =>
    cases h
    rw [attestation, hattested]
    rfl
  · next hattested =>
    rw [attestation, hattested]
    split at h
    · cases h
    · split at h
      · cases h
      · split at h
        · next hchunks =>
          cases h
          rw [hchunks]
          rfl
        · cases h
        · cases h
        · cases h

end RelayReader

/-! ### The copy loop -/

/-- What the loop leaves, having written some bytes of a stream already. -/
structure Copies (accepts expected : ℕ) (written : List UInt8) (source : RelayReader)
    (copied : Copied) : Prop where
  /-- What was offered to the host is the stream's beginning. -/
  offered : copied.offered <+: written ++ source.stream
  /-- A write failed exactly if the host takes less than there was to write. -/
  refused_iff : copied.refused ≠ [] ↔
    accepts < min expected (written.length + source.stream.length)
  attests : copied.source.attestation = source.attestation

theorem copies_done {accepts expected : ℕ} {written : List UInt8} {source : RelayReader}
    (haccepts : written.length ≤ accepts) (hdone : expected ≤ written.length) :
    Copies accepts expected written source ⟨written, [], source⟩ := by
  refine ⟨by simp [Copied.offered], ?_, rfl⟩
  simp only [ne_eq, not_true_eq_false, false_iff, not_lt]
  omega

theorem copies_copy {accepts expected rounds : ℕ} {written : List UInt8} {source : RelayReader}
    (hattested : source.attested = none) (haccepts : written.length ≤ accepts)
    (hrounds : expected - written.length ≤ rounds) :
    Copies accepts expected written source (copy accepts expected rounds written source) := by
  -- by induction on the rounds; each one moves some bytes from the stream to what is written
  induction rounds generalizing written source with
  | zero => exact copies_done haccepts (by omega)
  | succ rounds ih =>
    rw [copy]
    split
    · next hmore =>
      have hwanted : 0 < min (expected - written.length) STREAM_CHUNK_BYTES := by
        simp only [STREAM_CHUNK_BYTES]
        omega
      have hcases := RelayReader.read_cases hattested hwanted
      cases hread : source.read (min (expected - written.length) STREAM_CHUNK_BYTES) with
      | mk bytes after =>
        rw [hread] at hcases
        simp only [hread]
        rcases hcases with
          ⟨hended, hempty, hattests⟩ | ⟨hsome, hlength, hstream, hnone, hattests⟩
        · -- the stream is over
          rw [if_pos hended]
          refine ⟨by simp [Copied.offered], ?_, hattests⟩
          simp only [ne_eq, not_true_eq_false, false_iff, not_lt, hempty, List.length_nil]
          omega
        · have hpos : 0 < bytes.length := List.length_pos_of_ne_nil hsome
          have hsplit : written ++ source.stream = (written ++ bytes) ++ after.stream := by
            rw [hstream, List.append_assoc]
          have hcount : source.stream.length = bytes.length + after.stream.length := by
            rw [hstream, List.length_append]
          simp only at hlength
          rw [if_neg hsome]
          split
          · next htaken =>
            -- the host takes what was read, and the loop goes on with the rest
            have hwritten : (written ++ bytes).length = written.length + bytes.length :=
              List.length_append
            obtain ⟨hoffered, hrefused, hkept⟩ :=
              @ih (written ++ bytes) after hnone (by omega) (by omega)
            refine ⟨hsplit ▸ hoffered, hrefused.trans ?_, hkept.trans hattests⟩
            omega
          · next hfull =>
            -- the write fails, with at least these bytes still to be written
            refine ⟨?_, iff_of_true hsome ?_, hattests⟩
            · rw [hsplit]
              exact List.prefix_append ..
            · omega
    · next hdone => exact copies_done haccepts (by omega)

/-! ### One attempt -/

/-- The staged paths the daemon knows of: the one being resumed, and the one in the receipt. -/
def TransferPlan.known (plan : TransferPlan) (received : Option Receipt) : List String :=
  plan.resumed.toList ++ (received.map Receipt.path).toList

/-- What an attempt that hands a receipt on may be relied on for. -/
structure Attempt.Receipted {α : Type} (sha256 : List UInt8 → String) (plan : TransferPlan)
    (tried : Attempt α) (receipt : Receipt) : Prop where
  received : tried.received = some receipt
  bytes : receipt.bytes = tried.file.length
  digest : receipt.digest = sha256 tried.file
  resumed : ∀ path, plan.resumed = some path → receipt.path = path
  discarded : tried.discarded = []

theorem Attempt.Receipted.known {α : Type} {sha256 : List UInt8 → String} {plan : TransferPlan}
    {tried : Attempt α} {receipt : Receipt} (h : tried.Receipted sha256 plan receipt)
    {path : String} (hpath : path ∈ plan.known tried.received) : path = receipt.path := by
  rw [TransferPlan.known, h.received] at hpath
  rcases List.mem_append.mp hpath with hpath | hpath
  · exact (h.resumed path (by simpa using hpath)).symm
  · simpa using hpath

/-- An attempt that fails and leaves a staged path the daemon knows of where it is. -/
def Attempt.Leaves {α : Type} (plan : TransferPlan) (tried : Attempt α) : Prop :=
  (∃ message, tried.result = .error message) ∧
    ∃ path ∈ plan.known tried.received, path ∉ tried.discarded

/-- Whether moving the bytes fails: the session takes less than there is to write, or its input
cannot be shut down. -/
def SshSession.breaks (session : SshSession) (plan : TransferPlan) (items : List RelayItem) :
    Prop :=
  session.accepts < min plan.remaining (RelayItem.delivered items).length ∨
    session.shuts = false

/-- What copying a sender's queue to a host comes to. -/
def TransferPlan.copied (plan : TransferPlan) (accepts : ℕ) (items : List RelayItem) : Copied :=
  copy accepts plan.remaining plan.remaining [] (RelayReader.new items)

/-- What the staged file holds once a sender's queue was copied to it. -/
def TransferPlan.stored (plan : TransferPlan) (held : List UInt8) (accepts keeps : ℕ)
    (items : List RelayItem) : List UInt8 :=
  plan.before held ++ (plan.copied accepts items).offered.take keeps

variable (plan : TransferPlan)

theorem TransferPlan.copies (accepts : ℕ) (items : List RelayItem) :
    Copies accepts plan.remaining [] (RelayReader.new items) (plan.copied accepts items) :=
  copies_copy rfl (Nat.zero_le _) (Nat.sub_le _ _)

theorem error_iff_not_ok {ε α : Type} {x : Except ε α} :
    (∃ e, x = .error e) ↔ ¬∃ a, x = .ok a := by
  cases x <;> simp

section Remote

variable {sha256 : List UInt8 → String} {staged : Option StagedName} {plan : TransferPlan}
  {items : List RelayItem} {session : SshSession}

theorem SshSession.failure_isSome_iff :
    (session.failure (plan.copied session.accepts items)).isSome ↔ session.breaks plan items := by
  have h := (plan.copies session.accepts items).refused_iff
  have hstream : (RelayReader.new items).stream = RelayItem.delivered items := rfl
  rw [hstream, List.length_nil, Nat.zero_add] at h
  unfold SshSession.failure SshSession.breaks
  split
  · next hrefused => simp [h.mp hrefused]
  · next hrefused =>
    rw [or_iff_right fun hless => hrefused (h.mpr hless)]
    cases session.shuts <;> simp

theorem SshSession.conclude_eq_ok_iff {failure : Option String} {answer : Except String Receipt}
    {receipt : Receipt} :
    session.conclude failure answer = .ok receipt ↔
      answer = .ok receipt ∧ (failure.isSome ∨ session.exits = some true) := by
  unfold SshSession.conclude
  split
  · simp
  · simp
  · split <;> simp_all

theorem SshSession.path_of_resumed {path resumed : String}
    (hpath : session.path staged plan = .ok path) (hresumed : plan.resumed = some resumed) :
    path = resumed := by
  unfold SshSession.path at hpath
  unfold TransferPlan.resumed at hresumed
  cases hstaging : plan.staging <;> simp_all

variable {path : String}

/-- **What an attempt over SSH can be**: one that never gets to send, or one that goes all the
way to the receipt and the exit status. -/
theorem remoteAttempt_cases (sha256 : List UInt8 → String) (items : List RelayItem)
    (hpath : session.path staged plan = .ok path) :
    (¬(session.starts = true ∧ session.headed = true) ∧ ∃ message,
      remoteAttempt sha256 session staged plan (RelayReader.new items) =
        ⟨.error message, none, plan.before session.held, [], RelayReader.new items⟩) ∨
    (session.starts = true ∧ session.headed = true) ∧
      let file := plan.stored session.held session.accepts session.keeps items
      let copied := plan.copied session.accepts items
      remoteAttempt sha256 session staged plan (RelayReader.new items) =
        ⟨session.conclude (session.failure copied) (session.receipt sha256 path file),
          (session.receipt sha256 path file).toOption, file, [], copied.source⟩ := by
  unfold remoteAttempt
  rw [hpath]
  cases hstarts : session.starts with
  | false => exact .inl ⟨by simp, _, rfl⟩
  | true =>
    cases hheaded : session.headed with
    | false => exact .inl ⟨by simp, _, rfl⟩
    | true => exact .inr ⟨⟨rfl, rfl⟩, rfl⟩

/-- Whether a session gets as far as printing a receipt the daemon can read. -/
def SshSession.Reports (session : SshSession) : Prop :=
  session.starts = true ∧ session.headed = true ∧ session.unread = none

/-- Whether the daemon goes by the receipt. -/
def SshSession.Answers (session : SshSession) (plan : TransferPlan) (items : List RelayItem) :
    Prop :=
  session.Reports ∧ (session.breaks plan items ∨ session.exits = some true)

theorem SshSession.receipt_eq_ok_iff {file : List UInt8} {receipt : Receipt} :
    session.receipt sha256 path file = .ok receipt ↔
      session.unread = none ∧ receipt = ⟨path, file.length, sha256 file⟩ := by
  unfold SshSession.receipt
  split
  · simp_all
  · simp_all [eq_comm]

theorem remoteAttempt_receipted (hpath : session.path staged plan = .ok path) {receipt : Receipt}
    (h : (remoteAttempt sha256 session staged plan (RelayReader.new items)).result =
      .ok receipt) :
    (remoteAttempt sha256 session staged plan (RelayReader.new items)).Receipted sha256 plan
      receipt := by
  rcases remoteAttempt_cases sha256 items hpath with
    ⟨-, message, heq⟩ | ⟨-, heq⟩
  · rw [heq] at h
    cases h
  · rw [heq] at h ⊢
    obtain ⟨hanswer, -⟩ := SshSession.conclude_eq_ok_iff.mp h
    obtain ⟨-, rfl⟩ := SshSession.receipt_eq_ok_iff.mp hanswer
    refine ⟨?_, rfl, rfl, fun _ hresumed => SshSession.path_of_resumed hpath hresumed, rfl⟩
    simp only [hanswer, Except.toOption]

theorem remoteAttempt_attests (hpath : session.path staged plan = .ok path) :
    (remoteAttempt sha256 session staged plan (RelayReader.new items)).source.attestation =
      RelayItem.attestation items := by
  rcases remoteAttempt_cases sha256 items hpath with ⟨-, message, heq⟩ | ⟨-, heq⟩
  · rw [heq]
    rfl
  · rw [heq]
    exact (plan.copies session.accepts items).attests

/-- Over SSH, a failed attempt never discards anything. It leaves a path behind if it had one to
resume, or read a receipt and did not go by it. -/
theorem remoteAttempt_leaves_iff (hpath : session.path staged plan = .ok path) :
    (remoteAttempt sha256 session staged plan (RelayReader.new items)).Leaves plan ↔
      ¬session.Answers plan items ∧ (plan.resumed.isSome ∨ session.Reports) := by
  unfold Attempt.Leaves TransferPlan.known SshSession.Answers SshSession.Reports
  rcases remoteAttempt_cases sha256 items hpath with ⟨hno, message, heq⟩ | ⟨⟨hstarts, hheaded⟩, heq⟩
  · rw [heq]
    cases plan.resumed <;> simp <;> tauto
  · rw [heq, ← SshSession.failure_isSome_iff, hstarts, hheaded, error_iff_not_ok]
    simp only [SshSession.conclude_eq_ok_iff, SshSession.receipt_eq_ok_iff]
    refine and_congr (not_congr ?_) ?_
    · simp
    · unfold SshSession.receipt
      cases plan.resumed <;> cases session.unread <;> simp [Except.toOption]

end Remote

section Here

variable {sha256 : List UInt8 → String} {staged : Option StagedName} {plan : TransferPlan}
  {items : List RelayItem} {disk : LocalDisk}

theorem LocalDisk.path_of_resumed {path resumed : String}
    (hpath : disk.path staged plan = .ok path) (hresumed : plan.resumed = some resumed) :
    path = resumed := by
  unfold LocalDisk.path at hpath
  unfold TransferPlan.resumed at hresumed
  cases hstaging : plan.staging <;> simp_all

/-- **What an attempt on this machine can be**: one that never gets to write, one whose file
cannot be read back, one that stored nothing and is cleaned up, or one with a receipt. -/
theorem localAttempt_cases (sha256 : List UInt8 → String) (items : List RelayItem)
    {path : String} (hpath : disk.path staged plan = .ok path) :
    let file := plan.stored disk.held disk.accepts disk.keeps items
    let copied := plan.copied disk.accepts items
    let receipt : Receipt := ⟨path, file.length, sha256 file⟩
    (disk.opens = false ∧ ∃ message,
      localAttempt sha256 disk staged plan (RelayReader.new items) =
        ⟨.error message, none, plan.before disk.held, [], RelayReader.new items⟩) ∨
    (disk.opens = true ∧ disk.readable = false ∧ ∃ message,
      localAttempt sha256 disk staged plan (RelayReader.new items) =
        ⟨.error message, none, file, [], copied.source⟩) ∨
    (disk.opens = true ∧ disk.readable = true ∧ ∃ message,
      localAttempt sha256 disk staged plan (RelayReader.new items) =
        ⟨.error message, none, file, [path], copied.source⟩) ∨
    (disk.opens = true ∧ disk.readable = true ∧
      localAttempt sha256 disk staged plan (RelayReader.new items) =
        ⟨.ok receipt, some receipt, file, [], copied.source⟩) := by
  intro file copied receipt
  unfold localAttempt
  rw [hpath]
  cases hopens : disk.opens with
  | false => exact .inl ⟨rfl, _, rfl⟩
  | true =>
    cases hreadable : disk.readable with
    | false => exact .inr (.inl ⟨rfl, rfl, _, rfl⟩)
    | true =>
      right
      right
      simp only [Bool.not_true, Bool.false_eq_true, if_false]
      cases hfailure : disk.failure copied with
      | none =>
        unfold copied TransferPlan.copied at hfailure
        rw [hfailure]
        exact .inr ⟨trivial, trivial, rfl⟩
      | some message =>
        unfold copied TransferPlan.copied at hfailure
        rw [hfailure]
        by_cases hstored : file.length = 0
        · exact .inl ⟨trivial, trivial, message, if_pos hstored⟩
        · exact .inr ⟨trivial, trivial, if_neg hstored⟩

theorem localAttempt_receipted {path : String} (hpath : disk.path staged plan = .ok path)
    {receipt : Receipt}
    (h : (localAttempt sha256 disk staged plan (RelayReader.new items)).result = .ok receipt) :
    (localAttempt sha256 disk staged plan (RelayReader.new items)).Receipted sha256 plan
      receipt := by
  rcases localAttempt_cases sha256 items hpath with
    ⟨-, message, heq⟩ | ⟨-, -, message, heq⟩ | ⟨-, -, message, heq⟩ | ⟨-, -, heq⟩
  · rw [heq] at h
    cases h
  · rw [heq] at h
    cases h
  · rw [heq] at h
    cases h
  · rw [heq] at h ⊢
    cases h
    exact ⟨rfl, rfl, rfl, fun _ hresumed => LocalDisk.path_of_resumed hpath hresumed, rfl⟩

theorem localAttempt_attests {path : String} (hpath : disk.path staged plan = .ok path) :
    (localAttempt sha256 disk staged plan (RelayReader.new items)).source.attestation =
      RelayItem.attestation items := by
  have hcopied := (plan.copies disk.accepts items).attests
  rcases localAttempt_cases sha256 items hpath with
    ⟨-, message, heq⟩ | ⟨-, -, message, heq⟩ | ⟨-, -, message, heq⟩ | ⟨-, -, heq⟩
  · rw [heq]
    rfl
  all_goals
    rw [heq]
    exact hcopied

/-- On this machine a failed attempt has no receipt. It leaves a path it was to resume behind
unless the file could be opened and read back. -/
theorem localAttempt_leaves_iff {path : String} (hpath : disk.path staged plan = .ok path) :
    (localAttempt sha256 disk staged plan (RelayReader.new items)).Leaves plan ↔
      plan.resumed.isSome ∧ ¬(disk.opens = true ∧ disk.readable = true) := by
  unfold Attempt.Leaves TransferPlan.known
  have hresumed : ∀ resumed, plan.resumed = some resumed → path = resumed :=
    fun _ => LocalDisk.path_of_resumed hpath
  rcases localAttempt_cases sha256 items hpath with
    ⟨hopens, message, heq⟩ | ⟨hopens, hreadable, message, heq⟩ |
    ⟨hopens, hreadable, message, heq⟩ | ⟨hopens, hreadable, heq⟩
  · rw [heq, hopens]
    cases plan.resumed <;> simp
  · rw [heq, hopens, hreadable]
    cases plan.resumed <;> simp
  · -- what is cleaned up is the very path that was to be resumed
    rw [heq, hopens, hreadable]
    cases hplan : plan.resumed with
    | none => simp
    | some resumed => simp [hresumed resumed hplan]
  · rw [heq, hopens, hreadable]
    simp

end Here

/-! ### The upload -/

section Upload

variable {sha256 : List UInt8 → String} {plan : TransferPlan} {items : List RelayItem}

/-- Whether the host ends the attempt with a receipt the daemon goes by, or without the daemon
knowing of a path. -/
def Host.Settles (host : Host) (plan : TransferPlan) (items : List RelayItem) : Prop :=
  match host, plan.staging with
  | .ssh session, .fresh name =>
      (∃ staged, StagedName.resolve name plan.media = .ok staged) → session.Reports →
        session.breaks plan items ∨ session.exits = some true
  | .ssh session, .resume path _ =>
      (removableUploadDirectory path).isSome ∧ session.Answers plan items
  | .here _, .fresh _ => True
  | .here disk, .resume path _ =>
      (removableUploadDirectory path).isSome ∧ disk.opens = true ∧ disk.readable = true

variable {staged : Option StagedName}

theorem TransferPlan.resolve_of_stage {name : Option String}
    (hstaging : plan.staging = .fresh name) (hstage : plan.stage = .ok staged) :
    ∃ resolved, staged = some resolved ∧ StagedName.resolve name plan.media = .ok resolved := by
  rw [TransferPlan.stage, hstaging] at hstage
  simp only at hstage
  cases hresolve : StagedName.resolve name plan.media with
  | error message =>
    rw [hresolve] at hstage
    cases hstage
  | ok resolved =>
    rw [hresolve] at hstage
    cases hstage
    exact ⟨resolved, rfl, rfl⟩

theorem TransferPlan.stage_ok_iff {path : String} {n : ℕ}
    (hstaging : plan.staging = .resume path n) :
    (∃ staged, plan.stage = .ok staged) ↔ (removableUploadDirectory path).isSome := by
  rw [TransferPlan.stage, hstaging]
  simp only
  split <;> simp_all

theorem SshSession.exists_path (session : SshSession)
    (hstage : plan.stage = .ok staged) : ∃ path, session.path staged plan = .ok path := by
  unfold SshSession.path
  cases hstaging : plan.staging with
  | resume path n => exact ⟨path, rfl⟩
  | fresh name =>
    obtain ⟨resolved, rfl, -⟩ := TransferPlan.resolve_of_stage hstaging hstage
    exact ⟨_, rfl⟩

theorem LocalDisk.path_cases (disk : LocalDisk) (source : RelayReader) :
    (∃ path, disk.path staged plan = .ok path) ∨ plan.resumed = none ∧ ∃ message,
      localAttempt sha256 disk staged plan source =
        ⟨.error message, none, plan.before disk.held, [], source⟩ := by
  unfold localAttempt
  cases hpath : disk.path staged plan with
  | ok path => exact .inl ⟨path, rfl⟩
  | error message =>
    refine .inr ⟨?_, message, rfl⟩
    unfold LocalDisk.path at hpath
    unfold TransferPlan.resumed
    cases hstaging : plan.staging <;> simp_all

variable {receipt : Receipt} {host : Host}

theorem attempt_receipted (hstage : plan.stage = .ok staged)
    (h : (attempt sha256 host staged plan (RelayReader.new items)).result = .ok receipt) :
    (attempt sha256 host staged plan (RelayReader.new items)).Receipted sha256 plan receipt := by
  cases host with
  | ssh session =>
    obtain ⟨path, hpath⟩ := session.exists_path hstage
    exact remoteAttempt_receipted hpath h
  | here disk =>
    rcases disk.path_cases (RelayReader.new items) with ⟨path, hpath⟩ | ⟨-, message, heq⟩
    · exact localAttempt_receipted hpath h
    · rw [attempt, heq] at h
      cases h

theorem attempt_attests (hstage : plan.stage = .ok staged) :
    (attempt sha256 host staged plan (RelayReader.new items)).source.attestation =
      RelayItem.attestation items := by
  cases host with
  | ssh session =>
    obtain ⟨path, hpath⟩ := session.exists_path hstage
    exact remoteAttempt_attests hpath
  | here disk =>
    rcases disk.path_cases (RelayReader.new items) with ⟨path, hpath⟩ | ⟨-, message, heq⟩
    · exact localAttempt_attests hpath
    · rw [attempt, heq]
      rfl

/-- The name or path was fit, and the attempt left a path: exactly if the host does not settle
it. -/
theorem attempt_leaves_iff (hstage : plan.stage = .ok staged) :
    (attempt sha256 host staged plan (RelayReader.new items)).Leaves plan ↔
      ¬host.Settles plan items := by
  unfold Host.Settles
  cases host with
  | ssh session =>
    obtain ⟨path, hpath⟩ := session.exists_path hstage
    rw [attempt, remoteAttempt_leaves_iff hpath]
    unfold TransferPlan.resumed SshSession.Answers
    cases hstaging : plan.staging with
    | fresh name =>
      obtain ⟨resolved, -, hresolve⟩ := TransferPlan.resolve_of_stage hstaging hstage
      have hname : ∃ staged, StagedName.resolve name plan.media = .ok staged :=
        ⟨resolved, hresolve⟩
      simp only [hname, Option.isSome_none, Bool.false_eq_true, false_or, forall_const]
      tauto
    | resume path n =>
      have hpath := (TransferPlan.stage_ok_iff hstaging).mp ⟨staged, hstage⟩
      simp only [hpath, Option.isSome_some, true_or, and_true, true_and]
  | here disk =>
    have hiff : (attempt sha256 (.here disk) staged plan (RelayReader.new items)).Leaves plan ↔
        plan.resumed.isSome ∧ ¬(disk.opens = true ∧ disk.readable = true) := by
      rcases disk.path_cases (RelayReader.new items) with ⟨path, hpath⟩ | ⟨hfresh, message, heq⟩
      · exact localAttempt_leaves_iff hpath
      · rw [attempt, heq, Attempt.Leaves, TransferPlan.known, hfresh]
        simp
    rw [hiff]
    unfold TransferPlan.resumed
    cases hstaging : plan.staging with
    | fresh name => simp
    | resume path n =>
      have hpath := (TransferPlan.stage_ok_iff hstaging).mp ⟨staged, hstage⟩
      simp only [hpath, Option.isSome_some, true_and]

/-- A plan that is not judged fit leaves the path it was to resume. -/
theorem Host.settles_of_stage_error {message : String} (hstage : plan.stage = .error message) :
    host.Settles plan items ↔ plan.resumed = none := by
  have hunfit : ¬∃ staged, plan.stage = .ok staged := by simp [hstage]
  unfold Host.Settles TransferPlan.resumed
  cases hstaging : plan.staging with
  | fresh name =>
    cases host with
    | here disk => simp
    | ssh session =>
      have hname : ¬∃ staged, StagedName.resolve name plan.media = .ok staged := by
        rintro ⟨staged, hresolve⟩
        refine hunfit ⟨some staged, ?_⟩
        rw [TransferPlan.stage, hstaging]
        simp only [hresolve]
        rfl
      simp [hname]
  | resume path n =>
    have hpath := mt (TransferPlan.stage_ok_iff hstaging).mpr hunfit
    cases host <;> simp [hpath]

theorem finishAttempt_error {message : String}
    (h : (finishAttempt plan receipt).1 = .error message) :
    (finishAttempt plan receipt).2 = [receipt.path] := by
  unfold finishAttempt at h ⊢
  split at h
  · cases h
  · next hless =>
    split at h
    · next hmore => rw [if_neg hless, if_pos hmore]
    · cases h

theorem mem_finishAttempt {path : String}
    (h : path ∈ (finishAttempt plan receipt).2) : path = receipt.path := by
  unfold finishAttempt at h
  split at h
  · cases h
  · split at h
    · exact List.mem_singleton.mp h
    · cases h

theorem finishAttempt_ok {transferred : Transferred}
    (h : (finishAttempt plan receipt).1 = .ok transferred) :
    (finishAttempt plan receipt).2 = [] ∧
      (transferred = .complete receipt ∧ receipt.bytes = plan.length ∨
        transferred = .interrupted receipt.path receipt.bytes) := by
  unfold finishAttempt at h ⊢
  split at h
  · next hless =>
    cases h
    rw [if_pos hless]
    exact ⟨rfl, .inr rfl⟩
  · next hless =>
    split at h
    · cases h
    · next hmore =>
      cases h
      rw [if_neg hless, if_neg hmore]
      exact ⟨rfl, .inl ⟨rfl, by omega⟩⟩

/-- What became of the staged file when the upload came to an end. -/
theorem uploadStream_ok {transferred : Transferred}
    (h : (uploadStream sha256 host plan (RelayReader.new items)).result = .ok transferred) :
    ∃ receipt, (uploadStream sha256 host plan (RelayReader.new items)).Receipted sha256 plan
        receipt ∧
      (transferred = .complete receipt ∧ receipt.bytes = plan.length ∨
        transferred = .interrupted receipt.path receipt.bytes) := by
  unfold uploadStream at h ⊢
  cases hstage : plan.stage with
  | error message =>
    rw [hstage] at h
    cases h
  | ok staged =>
    simp only [hstage] at h ⊢
    cases hresult : (attempt sha256 host staged plan (RelayReader.new items)).result with
    | error message =>
      rw [hresult] at h
      cases h
    | ok receipt =>
      simp only [hresult] at h ⊢
      obtain ⟨hreceived, hbytes, hdigest, hresumed, hkept⟩ := attempt_receipted hstage hresult
      obtain ⟨hfinished, htransferred⟩ := finishAttempt_ok h
      exact ⟨receipt, ⟨hreceived, hbytes, hdigest, hresumed, by rw [hkept, hfinished]; rfl⟩,
        htransferred⟩

theorem uploadStream_attests (host : Host) :
    (uploadStream sha256 host plan (RelayReader.new items)).source.attestation =
      RelayItem.attestation items := by
  unfold uploadStream
  cases hstage : plan.stage with
  | error message => rfl
  | ok staged =>
    have hattests := @attempt_attests sha256 plan items staged host hstage
    simp only
    split <;> exact hattests

theorem uploadStream_leaves_iff (host : Host) :
    (uploadStream sha256 host plan (RelayReader.new items)).Leaves plan ↔
      ¬host.Settles plan items := by
  unfold uploadStream
  cases hstage : plan.stage with
  | error message =>
    rw [Host.settles_of_stage_error hstage, Attempt.Leaves, TransferPlan.known]
    cases plan.resumed <;> simp
  | ok staged =>
    rw [← @attempt_leaves_iff sha256 plan items staged host hstage]
    simp only
    cases hresult : (attempt sha256 host staged plan (RelayReader.new items)).result with
    | error message => simp [Attempt.Leaves, hresult]
    | ok receipt =>
      refine iff_of_false ?_ (by simp [Attempt.Leaves, hresult])
      rintro ⟨⟨message, herror⟩, path, hpath, hkept⟩
      rw [(attempt_receipted hstage hresult).known hpath] at hkept
      exact hkept (by simp [finishAttempt_error herror])

end Upload

/-! ### The relay -/

/-- Whether an outcome tells that nothing is left on the host. -/
def Relayed.dropped : Relayed → Bool
  | .refused _ | .withdrawn => true
  | .done _ _ | .interrupted _ _ => false

/-- **The outcome law.** An attempt is done only with the whole file on the host, under the
digest its sender attested to; one that is refused or withdrawn has discarded every staged path
the daemon knows of. -/
structure Report.Lawful (sha256 : List UInt8 → String) (plan : TransferPlan)
    (items : List RelayItem) (report : Report) : Prop where
  verified : ∀ path bytes, report.outcome = .done path bytes →
    report.received = some ⟨path, plan.length, sha256 report.file⟩ ∧
      report.file.length = plan.length ∧
      RelayItem.attestation items = some (sha256 report.file)
  unstaged : report.outcome.dropped = true →
    ∀ path ∈ plan.known report.received, path ∈ report.discarded

/-- What the daemon makes of a whole file. -/
theorem settle_cases (timely : Bool) (uploaded : Receipt) (source : RelayReader) :
    (settle plan timely uploaded source = (.done uploaded.path uploaded.bytes, []) ∧
        source.attestation = some uploaded.digest) ∨
      (settle plan timely uploaded source).2 = [uploaded.path] ∧
        (settle plan timely uploaded source).1.dropped = true ∨
      settle plan timely uploaded source = (.interrupted uploaded.path uploaded.bytes, []) := by
  have hattests := @RelayReader.attestation_of_trailer source timely
  unfold settle
  cases htrailer : source.trailer timely with
  | mk trailer after =>
    rw [htrailer] at hattests
    cases trailer with
    | digest digest =>
      by_cases hmatch : digest = uploaded.digest
      · exact .inl ⟨if_pos hmatch, hmatch ▸ hattests rfl⟩
      · simp only [if_neg hmatch]
        exact .inr (.inl ⟨trivial, rfl⟩)
    | overrun => exact .inr (.inl ⟨rfl, rfl⟩)
    | missing =>
      cases hcancelled : after.cancelled <;> simp [hcancelled, Relayed.dropped]

/-- What the daemon makes of an attempt that ended with a receipt. -/
theorem judge_cases (timely : Bool) {transferred : Transferred}
    {receipt : Receipt} (source : RelayReader)
    (h : transferred = .complete receipt ∧ receipt.bytes = plan.length ∨
      transferred = .interrupted receipt.path receipt.bytes) :
    (judge plan timely (.ok transferred) source = (.done receipt.path plan.length, []) ∧
        receipt.bytes = plan.length ∧ source.attestation = some receipt.digest) ∨
      (judge plan timely (.ok transferred) source).2 = [receipt.path] ∧
        (judge plan timely (.ok transferred) source).1.dropped = true ∨
      judge plan timely (.ok transferred) source =
        (.interrupted receipt.path receipt.bytes, []) := by
  unfold judge
  obtain ⟨rfl, hlength⟩ | rfl := h
  · rcases settle_cases plan timely receipt source with ⟨hdone, hattests⟩ | hdropped | hkept
    · exact .inl ⟨hlength ▸ hdone, hlength, hattests⟩
    · exact .inr (.inl hdropped)
    · exact .inr (.inr hkept)
  · simp only
    split
    · exact .inr (.inl ⟨rfl, rfl⟩)
    · split
      · exact .inr (.inl ⟨rfl, rfl⟩)
      · exact .inr (.inr rfl)

theorem judge_error (timely : Bool) (message : String) (source : RelayReader) :
    (judge plan timely (.error message) source).1.dropped = true ∧
      (judge plan timely (.error message) source).2 = [] := by
  unfold judge
  simp only
  split <;> exact ⟨rfl, rfl⟩

/-- **The outcome law holds exactly when the host settles the attempt**, whatever the plan, the
sender and the host do. Where the attempt fails instead, with a path the daemon knows of, the
path is left. -/
theorem relay_lawful_iff (sha256 : List UInt8 → String) (host : Host) (plan : TransferPlan)
    (items : List RelayItem) (timely : Bool) :
    (relay sha256 host plan items timely).Lawful sha256 plan items ↔
      host.Settles plan items := by
  have hleaves := @uploadStream_leaves_iff sha256 plan items host
  have hattests := @uploadStream_attests sha256 plan items host
  have hok := @uploadStream_ok sha256 plan items host
  unfold relay
  generalize uploadStream sha256 host plan (RelayReader.new items) = uploaded at *
  simp only
  cases hresult : uploaded.result with
  | error message =>
    obtain ⟨hdropped, hnothing⟩ := judge_error plan timely message uploaded.source
    have hiff : host.Settles plan items ↔
        ∀ path ∈ plan.known uploaded.received, path ∈ uploaded.discarded := by
      rw [← not_iff_not, ← hleaves, Attempt.Leaves, hresult]
      simp
    rw [hiff, hnothing, List.append_nil]
    refine ⟨fun h => h.unstaged hdropped, fun h => ⟨?_, fun _ => h⟩⟩
    intro path bytes hdone
    simp only at hdone
    rw [hdone] at hdropped
    cases hdropped
  | ok transferred =>
    have hsettles : host.Settles plan items := by
      by_contra hnot
      obtain ⟨⟨message, herror⟩, -⟩ := hleaves.mpr hnot
      rw [hresult] at herror
      cases herror
    obtain ⟨receipt, hreceipted, htransferred⟩ := hok hresult
    refine iff_of_true ⟨?_, ?_⟩ hsettles
    · intro path bytes hdone
      simp only at hdone
      rcases judge_cases plan timely uploaded.source htransferred with
        ⟨hjudge, hlength, hdigest⟩ | ⟨-, hdropped⟩ | hjudge
      · obtain ⟨rfl, rfl⟩ : receipt.path = path ∧ plan.length = bytes := by
          simpa [hjudge] using hdone
        simp only
        rw [← hreceipted.digest, ← hlength, ← hreceipted.bytes]
        exact ⟨hreceipted.received, rfl, hattests ▸ hdigest⟩
      · rw [hdone] at hdropped
        cases hdropped
      · simp [hjudge] at hdone
    · intro hdropped path hpath
      rw [hreceipted.known hpath]
      rcases judge_cases plan timely uploaded.source htransferred with
        ⟨hjudge, -⟩ | ⟨hdiscarded, -⟩ | hjudge
      · simp [hjudge, Relayed.dropped] at hdropped
      · simp [hdiscarded]
      · simp [hjudge, Relayed.dropped] at hdropped

/-- A host whose connection is lost before it takes a byte, with a file that is being resumed. -/
def lostSession : SshSession where
  starts := true
  headed := true
  accepts := 0
  shuts := false
  directory := ""
  held := [1]
  keeps := 0
  unread := some "remote clipboard media upload returned an invalid receipt"
  exits := some false

/-- A resumed transfer whose host is lost is refused, and the path that was being resumed is not
discarded. -/
theorem resumed_path_left :
    ¬(relay (fun _ => "") (.ssh lostSession)
      ⟨OPAQUE, .resume "/tmp/super-herdr-clipboard.Ab12Cd34/notes" 1, 2⟩
      [.chunk [2], .finish ""] true).Lawful (fun _ => "")
      ⟨OPAQUE, .resume "/tmp/super-herdr-clipboard.Ab12Cd34/notes" 1, 2⟩
      [.chunk [2], .finish ""] := by
  intro h
  have hleft := h.unstaged (by decide) "/tmp/super-herdr-clipboard.Ab12Cd34/notes" (by decide)
  revert hleft
  decide

end SuperHerdr
