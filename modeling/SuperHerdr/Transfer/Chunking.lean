import SuperHerdr.Transfer.Outcome

/-!
# How an upload is cut into chunks

A sender may cut its bytes into chunks as it likes, and an attempt may ask for them in pieces of any
size: what the host is handed is the same, and so is what the relay comes to, but for one case.
`RelayReader::trailer` takes the next item of the queue as it is, where reading skips the chunks that
are empty; so an empty chunk behind the last declared byte is taken for bytes that were not declared
(`relays_agree_iff`).

All that a reader's progress leaves of a queue is its bytes, its ending, and whether its last chunk is
empty (`read_reading`). Copying then has three ends (`copyBy_cases`): a write failed, the stream was
short, or the whole of what was declared is written and the rest of the queue waits for the trailer.
-/

namespace SuperHerdr

/-! ### Queues -/

/-- How a sender's items end. -/
inductive Ending
  | finish (digest : String)
  | cancel
  | vanished

namespace Ending

def items : Ending → List RelayItem
  | .finish digest => [.finish digest]
  | .cancel => [.cancel]
  | .vanished => []

def attested : Ending → Option String
  | .finish digest => some digest
  | _ => none

def cancels : Ending → Bool
  | .cancel => true
  | _ => false

end Ending

/-- A sender's items: its bytes, cut into chunks, and an ending. -/
def queue (chunks : List (List UInt8)) (ending : Ending) : List RelayItem :=
  chunks.map .chunk ++ ending.items

/-! ### Attempts that ask for pieces of any size -/

/-- `copy`, with a buffer that may have another size for each read. -/
def copyBy (accepts expected : ℕ) : ℕ → (ℕ → ℕ) → List UInt8 → RelayReader → Copied
  | 0, _, written, source => ⟨written, [], source⟩
  | rounds + 1, sizes, written, source =>
      if written.length < expected then
        let wanted := min (expected - written.length) (sizes 0)
        let (bytes, source) := source.read wanted
        if bytes = [] then ⟨written, [], source⟩
        else if written.length + bytes.length ≤ accepts then
          copyBy accepts expected rounds (fun i => sizes (i + 1)) (written ++ bytes) source
        else ⟨written, bytes, source⟩
      else ⟨written, [], source⟩

theorem copy_eq_copyBy (accepts expected rounds : ℕ) (written : List UInt8) (source : RelayReader) :
    copy accepts expected rounds written source =
      copyBy accepts expected rounds (fun _ => STREAM_CHUNK_BYTES) written source := by
  induction rounds generalizing written source with
  | zero => rfl
  | succ rounds ih =>
    rw [copy, copyBy]
    simp only [ih]

def Host.accepts : Host → ℕ
  | .ssh session => session.accepts
  | .here disk => disk.accepts

def Host.keeps : Host → ℕ
  | .ssh session => session.keeps
  | .here disk => disk.keeps

/-- One attempt on a host, once its copying is known. -/
def attemptWith (sha256 : List UInt8 → String) (host : Host) (staged : Option StagedName)
    (plan : TransferPlan) (source : RelayReader) (copied : Copied) : Attempt Receipt :=
  let failed (message : String) : Attempt Receipt :=
    ⟨.error message, none, plan.before host.held, [], source⟩
  let file := plan.before host.held ++ copied.offered.take host.keeps
  match host with
  | .ssh session =>
      if !session.starts then failed "failed to start the SSH media upload"
      else
        match session.path staged plan with
        | .error message => failed message
        | .ok path =>
            if !session.headed then failed "failed to send the transfer heading"
            else
              let receipt := session.receipt sha256 path file
              ⟨session.conclude (session.failure copied) receipt, receipt.toOption, file, [],
                copied.source⟩
  | .here disk =>
      match disk.path staged plan with
      | .error message => failed message
      | .ok path =>
          if !disk.opens then failed "failed to open the local media file"
          else
            let receipt : Receipt := ⟨path, file.length, sha256 file⟩
            if !disk.readable then
              ⟨.error "failed to verify the local media file", none, file, [], copied.source⟩
            else
              match disk.failure copied with
              | none => ⟨.ok receipt, some receipt, file, [], copied.source⟩
              | some message =>
                  if file.length = 0 then ⟨.error message, none, file, [path], copied.source⟩
                  else ⟨.ok receipt, some receipt, file, [], copied.source⟩

theorem attempt_eq_attemptWith (sha256 : List UInt8 → String) (host : Host)
    (staged : Option StagedName) (plan : TransferPlan) (source : RelayReader) :
    attempt sha256 host staged plan source =
      attemptWith sha256 host staged plan source
        (copy host.accepts plan.remaining plan.remaining [] source) := by
  cases host <;> rfl


/-- `upload_stream`, where the attempt asks for pieces of these sizes. -/
def uploadBy (sha256 : List UInt8 → String) (host : Host) (plan : TransferPlan)
    (source : RelayReader) (sizes : ℕ → ℕ) : Attempt Transferred :=
  match plan.stage with
  | .error message => ⟨.error message, none, plan.before host.held, [], source⟩
  | .ok staged =>
      let tried := attemptWith sha256 host staged plan source
        (copyBy host.accepts plan.remaining plan.remaining sizes [] source)
      match tried.result with
      | .error message =>
          ⟨.error message, tried.received, tried.file, tried.discarded, tried.source⟩
      | .ok receipt =>
          let (result, discarded) := finishAttempt plan receipt
          ⟨result, tried.received, tried.file, tried.discarded ++ discarded, tried.source⟩

/-- `relay`, where the attempt asks for pieces of these sizes, and no item is late. -/
def relayBy (sha256 : List UInt8 → String) (host : Host) (plan : TransferPlan)
    (items : List RelayItem) (sizes : ℕ → ℕ) : Report :=
  let uploaded := uploadBy sha256 host plan (RelayReader.new items) sizes
  let judged := judge plan true uploaded.result uploaded.source
  ⟨judged.1, uploaded.received, uploaded.file, uploaded.discarded ++ judged.2⟩

theorem relay_eq_relayBy (sha256 : List UInt8 → String) (host : Host) (plan : TransferPlan)
    (items : List RelayItem) :
    relay sha256 host plan items true =
      relayBy sha256 host plan items (fun _ => STREAM_CHUNK_BYTES) := by
  have hupload : uploadStream sha256 host plan (RelayReader.new items) =
      uploadBy sha256 host plan (RelayReader.new items) (fun _ => STREAM_CHUNK_BYTES) := by
    rw [uploadStream, uploadBy]
    cases plan.stage with
    | error message => rfl
    | ok staged =>
      dsimp only
      rewrite [attempt_eq_attemptWith, copy_eq_copyBy]
      rfl
  rw [relay, relayBy, hupload]

/-- Whether an attempt on a host gets as far as the payload. -/
def Host.sends (staged : Option StagedName) (plan : TransferPlan) : Host → Bool
  | .ssh session => session.starts && (session.path staged plan).isOk && session.headed
  | .here disk => (disk.path staged plan).isOk && disk.opens

/-- The bytes the host is handed, as far as it takes them. -/
def handed (host : Host) (plan : TransferPlan) (items : List RelayItem) (sizes : ℕ → ℕ) :
    List UInt8 :=
  match plan.stage with
  | .error _ => []
  | .ok staged =>
      if host.sends staged plan then
        (copyBy host.accepts plan.remaining plan.remaining sizes []
          (RelayReader.new items)).offered.take host.accepts
      else []

/-! ### Reading a queue -/

/-- A reader within a sender's chunks. -/
def reading (chunks : List (List UInt8)) (ending : Ending) (pending : List UInt8) : RelayReader :=
  ⟨queue chunks ending, pending, none, false⟩

/-- A reader that has come to the end of a sender's items. -/
def ended (ending : Ending) : RelayReader :=
  ⟨[], [], ending.attested, ending.cancels⟩

/-- The last chunk is an empty one. -/
def Trails (chunks : List (List UInt8)) : Prop :=
  chunks.getLast? = some []

instance (chunks : List (List UInt8)) : Decidable (Trails chunks) :=
  inferInstanceAs (Decidable (chunks.getLast? = some []))

theorem refill_queue (reader : RelayReader) (chunks : List (List UInt8)) (ending : Ending)
    (hattested : reader.attested = none) (hcancelled : reader.cancelled = false)
    (hpending : reader.pending = []) :
    chunks.flatten = [] ∧ reader.refill (queue chunks ending) = ended ending ∨
      ∃ pending rest, pending ≠ [] ∧
        reader.refill (queue chunks ending) = reading rest ending pending ∧
        chunks.flatten = pending ++ rest.flatten ∧ (Trails rest ↔ Trails chunks) := by
  induction chunks with
  | nil =>
    left
    obtain ⟨items, pending, attested, cancelled⟩ := reader
    simp only at hattested hcancelled hpending
    subst hattested hcancelled hpending
    cases ending <;> exact ⟨rfl, rfl⟩
  | cons chunk rest ih =>
    cases chunk with
    | nil =>
      have hskip : reader.refill (queue ([] :: rest) ending) = reader.refill (queue rest ending) :=
        rfl
      rw [hskip]
      rcases ih with ⟨hnone, heq⟩ | ⟨pending, left, hsome, heq, hflat, htrails⟩
      · exact .inl ⟨hnone, heq⟩
      · refine .inr ⟨pending, left, hsome, heq, hflat, htrails.trans ?_⟩
        -- there is a chunk with bytes behind this one, so this one is not the last
        have hrest : rest ≠ [] := by
          rintro rfl
          simp [hsome] at hflat
        rw [Trails, Trails, List.getLast?_cons_of_ne_nil hrest]
    | cons byte bytes =>
      refine .inr ⟨byte :: bytes, rest, by simp, ?_, rfl, ?_⟩
      · obtain ⟨items, pending, attested, cancelled⟩ := reader
        simp only at hattested hcancelled
        subst hattested hcancelled
        rfl
      · cases rest with
        | nil => simp [Trails]
        | cons chunk rest => rw [Trails, Trails, List.getLast?_cons_cons]

/-- **One read**: the end of the sender's items, or some bytes off the front of what is left. -/
theorem read_reading (chunks : List (List UInt8)) (ending : Ending) (pending : List UInt8)
    {wanted : ℕ} (hwanted : 0 < wanted) :
    pending ++ chunks.flatten = [] ∧ (reading chunks ending pending).read wanted = ([], ended ending) ∨
      ∃ bytes rest left, bytes ≠ [] ∧ bytes.length ≤ wanted ∧
        (reading chunks ending pending).read wanted = (bytes, reading rest ending left) ∧
        pending ++ chunks.flatten = bytes ++ (left ++ rest.flatten) ∧
        (Trails rest ↔ Trails chunks) := by
  have htake : ∀ (rest : List (List UInt8)) (held : List UInt8), held ≠ [] →
      held.take wanted ≠ [] ∧ (held.take wanted).length ≤ wanted ∧
        held ++ rest.flatten = held.take wanted ++ (held.drop wanted ++ rest.flatten) := by
    intro rest held hheld
    refine ⟨?_, List.length_take_le .., ?_⟩
    · rw [Ne, List.take_eq_nil_iff, not_or]
      exact ⟨hwanted.ne', hheld⟩
    · rw [← List.append_assoc, List.take_append_drop]
  by_cases hpending : pending = []
  · subst hpending
    have hread : (reading chunks ending []).read wanted =
        ((((reading chunks ending []).refill (queue chunks ending)).pending.take wanted),
          { (reading chunks ending []).refill (queue chunks ending) with
            pending :=
              ((reading chunks ending []).refill (queue chunks ending)).pending.drop wanted }) :=
      rfl
    rw [hread, List.nil_append]
    rcases refill_queue (reading chunks ending []) chunks ending rfl rfl rfl with
      ⟨hnone, heq⟩ | ⟨held, rest, hheld, heq, hflat, htrails⟩
    · exact .inl ⟨hnone, by rw [heq, ended, List.take_nil, List.drop_nil]⟩
    · obtain ⟨hsome, hlength, hsplit⟩ := htake rest held hheld
      exact .inr ⟨_, rest, _, hsome, hlength, by rw [heq]; rfl, hflat.trans hsplit, htrails⟩
  · obtain ⟨hsome, hlength, hsplit⟩ := htake chunks pending hpending
    refine .inr ⟨_, chunks, _, hsome, hlength, ?_, hsplit, Iff.rfl⟩
    rw [RelayReader.read, reading, if_neg hpending]
    rfl

/-! ### Copying a queue -/

/-- What copying some bytes that end in some way comes to. -/
inductive Copying (accepts expected : ℕ) (bytes : List UInt8) (ending : Ending) (trails : Prop)
    (copied : Copied) : Prop
  /-- The host took less than there was to write. -/
  | broke (hless : accepts < min expected bytes.length) (hrefused : copied.refused ≠ [])
      (hoffered : copied.offered <+: bytes) (hmore : accepts < copied.offered.length)
      (hattested : copied.source.attested = none) (hcancelled : copied.source.cancelled = false)
  /-- The stream ended ahead of the declared length. -/
  | short (haccepts : bytes.length ≤ accepts) (hless : bytes.length < expected)
      (heq : copied = ⟨bytes, [], ended ending⟩)
  /-- All that was declared is written. -/
  | full (rest : List (List UInt8)) (left : List UInt8) (haccepts : expected ≤ accepts)
      (henough : expected ≤ bytes.length)
      (heq : copied = ⟨bytes.take expected, [], reading rest ending left⟩)
      (hleft : left ++ rest.flatten = bytes.drop expected) (htrails : Trails rest ↔ trails)

theorem copying_done {accepts expected : ℕ} (ending : Ending) {written : List UInt8}
    (chunks : List (List UInt8)) (pending : List UInt8) (haccepts : written.length ≤ accepts)
    (hlength : written.length = expected) :
    Copying accepts expected (written ++ (pending ++ chunks.flatten)) ending (Trails chunks)
      ⟨written, [], reading chunks ending pending⟩ := by
  refine .full chunks pending (by omega) ?_ ?_ ?_ Iff.rfl
  · rw [List.length_append]
    omega
  · rw [List.take_left' hlength]
  · rw [List.drop_left' hlength]

theorem copyBy_cases {accepts expected rounds : ℕ} {sizes : ℕ → ℕ} (hsizes : ∀ i, 0 < sizes i)
    (ending : Ending) {written : List UInt8} (chunks : List (List UInt8)) (pending : List UInt8)
    (haccepts : written.length ≤ accepts) (hwritten : written.length ≤ expected)
    (hrounds : expected - written.length ≤ rounds) :
    Copying accepts expected (written ++ (pending ++ chunks.flatten)) ending (Trails chunks)
      (copyBy accepts expected rounds sizes written (reading chunks ending pending)) := by
  -- by induction on the rounds; each one moves some bytes from the stream to what is written
  induction rounds generalizing written chunks pending sizes with
  | zero => exact copying_done ending chunks pending haccepts (by omega)
  | succ rounds ih =>
    rw [copyBy]
    split
    · next hmore =>
      have hwanted : 0 < min (expected - written.length) (sizes 0) := by
        have := hsizes 0
        omega
      rcases read_reading chunks ending pending hwanted with
        ⟨hnone, hread⟩ | ⟨bytes, rest, left, hsome, hlength, hread, hsplit, htrails⟩
      · -- the stream is over
        simp only [hread, if_true, hnone, List.append_nil]
        exact .short haccepts hmore rfl
      · have hadded : (written ++ bytes).length = written.length + bytes.length :=
          List.length_append
        have hpos : 0 < bytes.length := List.length_pos_of_ne_nil hsome
        have hall : written ++ (pending ++ chunks.flatten) =
            (written ++ bytes) ++ (left ++ rest.flatten) := by
          rw [hsplit, List.append_assoc]
        simp only [hread, if_neg hsome]
        rw [hall, ← propext htrails]
        split
        · -- the host takes what was read, and the loop goes on with the rest
          exact ih (fun i => hsizes (i + 1)) rest left (by omega) (by omega) (by omega)
        · next hfull =>
          -- the write fails, with at least these bytes still to be written
          refine .broke ?_ hsome (List.prefix_append ..) ?_ rfl rfl
          · rw [List.length_append]
            omega
          · rw [Copied.offered, List.length_append]
            exact Nat.lt_of_not_le hfull
    · next hstop => exact copying_done ending chunks pending haccepts (by omega)

theorem copying_queue (accepts expected : ℕ) (chunks : List (List UInt8)) (ending : Ending)
    {sizes : ℕ → ℕ} (hsizes : ∀ i, 0 < sizes i) :
    Copying accepts expected chunks.flatten ending (Trails chunks)
      (copyBy accepts expected expected sizes [] (RelayReader.new (queue chunks ending))) :=
  @copyBy_cases accepts expected expected sizes hsizes ending [] chunks [] (Nat.zero_le _)
    (Nat.zero_le _) (Nat.sub_le _ _)

namespace Copying

variable {accepts expected : ℕ} {bytes : List UInt8} {ending : Ending} {trails : Prop}
  {copied : Copied}

theorem take_offered (h : Copying accepts expected bytes ending trails copied) {count : ℕ}
    (hcount : count ≤ accepts) : copied.offered.take count = (bytes.take expected).take count := by
  rcases h with ⟨hless, hrefused, ⟨rest, rfl⟩, hmore, -, -⟩ | ⟨haccepts, hless, rfl⟩ |
    ⟨rest, left, haccepts, henough, rfl, -, -⟩
  · rw [List.take_take, List.take_append_of_le_length (by omega)]
    congr 1
    omega
  · rw [List.take_of_length_le hless.le, Copied.offered, List.append_nil]
  · rw [Copied.offered, List.append_nil]

theorem refused_eq_nil_iff (h : Copying accepts expected bytes ending trails copied) :
    copied.refused = [] ↔ min expected bytes.length ≤ accepts := by
  rcases h with ⟨hless, hrefused, -, -, -, -⟩ | ⟨haccepts, hless, rfl⟩ |
    ⟨rest, left, haccepts, henough, rfl, -, -⟩
  · exact iff_of_false hrefused (by omega)
  · exact iff_of_true rfl (by omega)
  · exact iff_of_true rfl (by omega)

end Copying

/-! ### What an attempt goes by -/

section

variable {sha256 : List UInt8 → String} {host : Host} {staged : Option StagedName}
  {plan : TransferPlan}

/-- Two copies the host cannot tell apart: both failed or neither, and it keeps the same of them. -/
structure Alike (host : Host) (left right : Copied) : Prop where
  refused : left.refused = [] ↔ right.refused = []
  kept : left.offered.take host.keeps = right.offered.take host.keeps

/-- An attempt is the same for copies the host cannot tell apart, but for where it leaves the
reader. -/
theorem attemptWith_alike {left right : Copied} (h : Alike host left right)
    (source source' : RelayReader) :
    attemptWith sha256 host staged plan source left =
      { attemptWith sha256 host staged plan source' right with
        source := (attemptWith sha256 host staged plan source left).source } := by
  obtain ⟨hrefused, hkept⟩ := h
  cases host with
  | ssh session =>
    have hfailure : session.failure left = session.failure right := by
      simp only [SshSession.failure, ne_eq, hrefused]
    have hfile : left.offered.take session.keeps = right.offered.take session.keeps := hkept
    simp only [attemptWith, Host.held, Host.keeps, hfailure, hfile]
    split
    · rfl
    · split
      · rfl
      · split <;> rfl
  | here disk =>
    have hfailure : disk.failure left = disk.failure right := by
      simp only [LocalDisk.failure, ne_eq, hrefused]
    have hfile : left.offered.take disk.keeps = right.offered.take disk.keeps := hkept
    simp only [attemptWith, Host.held, Host.keeps, hfailure, hfile]
    split
    · rfl
    · split
      · rfl
      · split
        · rfl
        · split
          · rfl
          · next hfailed =>
            split
            · next hempty => simp only [hempty, if_true]
            · next hsome => simp only [hsome, if_false]

/-- An attempt leaves its reader where the copying left it, if it gets as far as that. -/
theorem attemptWith_source (source : RelayReader) (copied : Copied) :
    (attemptWith sha256 host staged plan source copied).source =
        (if host.sends staged plan then copied.source else source) ∧
      (host.sends staged plan = false →
        ∃ message, (attemptWith sha256 host staged plan source copied).result = .error message) := by
  cases host with
  | ssh session =>
    cases hpath : session.path staged plan <;> cases hstarts : session.starts <;>
      cases hheaded : session.headed <;>
      simp [attemptWith, Host.sends, Except.isOk, Except.toBool, hpath, hstarts, hheaded]
  | here disk =>
    cases hpath : disk.path staged plan <;> cases hopens : disk.opens <;>
      simp [attemptWith, Host.sends, Except.isOk, Except.toBool, hpath, hopens]
    split
    · rfl
    · split
      · rfl
      · split <;> rfl

variable {copied : Copied}

/-- A receipt that is gone by gives the length of the file. -/
theorem attemptWith_bytes {source : RelayReader} {receipt : Receipt}
    (h : (attemptWith sha256 host staged plan source copied).result = .ok receipt) :
    receipt.bytes = (plan.before host.held ++ copied.offered.take host.keeps).length := by
  cases host with
  | ssh session =>
    simp only [attemptWith] at h
    split at h
    · cases h
    · split at h
      · cases h
      · split at h
        · cases h
        · obtain ⟨hanswer, -⟩ := SshSession.conclude_eq_ok_iff.mp h
          obtain ⟨-, rfl⟩ := SshSession.receipt_eq_ok_iff.mp hanswer
          rfl
  | here disk =>
    simp only [attemptWith] at h
    split at h
    · cases h
    · split at h
      · cases h
      · split at h
        · cases h
        · split at h
          · cases h
            rfl
          · split at h <;> cases h
            rfl

/-- Whether the host goes by what it stored: it takes the payload, and the daemon reads a receipt
from it. -/
def Host.Answers (plan : TransferPlan) : Host → Prop
  | .ssh session =>
      session.starts = true ∧ session.headed = true ∧ session.unread = none ∧
        (session.shuts = false ∨ session.exits = some true)
  | .here disk =>
      (plan.resumed = none → disk.directory.isSome) ∧ disk.opens = true ∧ disk.readable = true ∧
        (disk.flushes = true ∨ plan.length ≠ 0)

theorem TransferPlan.isSome_of_stage (hstage : plan.stage = .ok staged) :
    staged.isSome ↔ plan.resumed = none := by
  unfold TransferPlan.stage at hstage
  unfold TransferPlan.resumed
  cases hstaging : plan.staging with
  | fresh name =>
    rw [hstaging] at hstage
    cases hresolve : StagedName.resolve name plan.media with
    | error message => simp [hresolve, Except.map] at hstage
    | ok name =>
      simp only [hresolve, Except.map, Except.ok.injEq] at hstage
      simp [← hstage]
  | resume path length =>
    rw [hstaging] at hstage
    simp only at hstage
    split at hstage
    · cases hstage
      simp
    · cases hstage

theorem SshSession.path_of_stage (session : SshSession) (hstage : plan.stage = .ok staged) :
    ∃ path, session.path staged plan = .ok path := by
  have hsome := TransferPlan.isSome_of_stage hstage
  unfold TransferPlan.resumed at hsome
  unfold SshSession.path
  cases hstaging : plan.staging <;> cases staged <;> simp_all

theorem LocalDisk.path_of_stage (disk : LocalDisk) (hstage : plan.stage = .ok staged) :
    (∃ path, disk.path staged plan = .ok path) ↔
      (plan.resumed = none → disk.directory.isSome) := by
  have hsome := TransferPlan.isSome_of_stage hstage
  unfold TransferPlan.resumed at hsome ⊢
  unfold LocalDisk.path
  cases hstaging : plan.staging <;> cases staged <;> cases disk.directory <;> simp_all

/-- A whole copy is answered by a receipt of the declared length exactly if the host answers and has
stored that much. -/
theorem attemptWith_complete_iff (hstage : plan.stage = .ok staged) (source : RelayReader)
    (hcopied : copied.refused = []) :
    (∃ receipt, (attemptWith sha256 host staged plan source copied).result = .ok receipt ∧
        receipt.bytes = plan.length) ↔
      host.Answers plan ∧
        (plan.before host.held ++ copied.offered.take host.keeps).length = plan.length := by
  cases host with
  | ssh session =>
    obtain ⟨path, hpath⟩ := session.path_of_stage hstage
    have hfailure : (session.failure copied).isSome ↔ session.shuts = false := by
      simp only [SshSession.failure, hcopied]
      cases session.shuts <;> simp
    simp only [attemptWith, hpath, Host.Answers, Host.held, Host.keeps]
    cases session.starts <;> cases session.headed <;>
      simp [SshSession.conclude_eq_ok_iff, SshSession.receipt_eq_ok_iff, hfailure]
  | here disk =>
    have hfailure : disk.failure copied = none ↔ disk.flushes = true := by
      simp only [LocalDisk.failure, hcopied]
      cases disk.flushes <;> simp
    simp only [attemptWith, Host.Answers, Host.held, Host.keeps, ← disk.path_of_stage hstage,
      ← hfailure]
    cases disk.path staged plan with
    | error message => simp
    | ok path =>
      simp only [Except.ok.injEq, exists_eq', true_and]
      cases disk.opens with
      | false => simp
      | true =>
        cases disk.readable with
        | false => simp
        | true =>
          cases disk.failure copied with
          | none => simp
          | some message =>
            -- what was not flushed counts if anything of it is stored
            by_cases hempty : (plan.before disk.held ++ copied.offered.take disk.keeps).length = 0
            · simp only [hempty, Bool.not_true, Bool.false_eq_true, if_true, if_false, reduceCtorEq,
                false_and, exists_false, false_or, true_and, false_iff, not_and]
              exact fun hlength h => hlength h.symm
            · simp only [hempty, Bool.not_true, Bool.false_eq_true, if_false, Except.ok.injEq,
                exists_eq_left', reduceCtorEq, false_or, true_and]
              exact ⟨fun h => ⟨h ▸ hempty, h⟩, And.right⟩

/-! ### What a relay comes to -/

/-- What is made of a whole file that nothing was sent behind. -/
def Ending.vouches (uploaded : Receipt) : Ending → Relayed × List String
  | .finish digest =>
      if digest = uploaded.digest then (.done uploaded.path uploaded.bytes, [])
      else (.refused "transfer does not match the digest its sender attested to",
        [uploaded.path])
  | .cancel => (.withdrawn, [uploaded.path])
  | .vanished => (.interrupted uploaded.path uploaded.bytes, [])

theorem Ending.vouches_ne (ending : Ending) (uploaded : Receipt) (length : ℕ) :
    (ending.vouches uploaded).1 ≠
      .refused s!"transfer sent more than the {length} bytes it declared" := by
  cases ending with
  | finish digest =>
    simp only [vouches]
    split
    · simp
    · intro h
      have htext := congrArg String.toList (Relayed.refused.inj h)
      simp [toString] at htext
  | cancel => simp [vouches]
  | vanished => simp [vouches]

/-- What is made of a whole file, by whether anything of the chunks was left. -/
def Ending.settles (plan : TransferPlan) (uploaded : Receipt) (ending : Ending) (more : Bool) :
    Relayed × List String :=
  if more then
    (.refused s!"transfer sent more than the {plan.length} bytes it declared", [uploaded.path])
  else ending.vouches uploaded

variable {ending : Ending}

theorem Ending.settles_inj {uploaded : Receipt} {more more' : Bool} :
    (ending.settles plan uploaded more).1 = (ending.settles plan uploaded more').1 ↔
      more = more' := by
  cases more <;> cases more' <;> simp only [settles, Bool.false_eq_true, if_true, if_false,
    reduceCtorEq, iff_false]
  · exact ending.vouches_ne uploaded plan.length
  · exact (ending.vouches_ne uploaded plan.length).symm

/-- The trailer takes what is left of the chunks for bytes, even if they are empty ones. -/
theorem settle_reading (uploaded : Receipt) (chunks : List (List UInt8)) (ending : Ending)
    (pending : List UInt8) :
    settle plan true uploaded (reading chunks ending pending) =
      ending.settles plan uploaded (pending ++ chunks.flatten ≠ [] ∨ Trails chunks) := by
  cases pending with
  | cons byte bytes => simp [settle, RelayReader.trailer, reading, Ending.settles]
  | nil =>
    cases chunks with
    | nil => cases ending <;> simp [settle, RelayReader.trailer, reading, queue, Trails,
        Ending.items, Ending.settles, Ending.vouches]
    | cons chunk rest =>
      have hmore : ([] : List UInt8) ++ (chunk :: rest).flatten ≠ [] ∨ Trails (chunk :: rest) := by
        by_cases hflat : (chunk :: rest).flatten = []
        · have hlast := List.getLast?_eq_some_getLast (List.cons_ne_nil chunk rest)
          have hempty := List.flatten_eq_nil_iff.mp hflat _
            (List.getLast_mem (List.cons_ne_nil chunk rest))
          exact .inr (hlast.trans (congrArg some hempty))
        · exact .inl (by simpa using hflat)
      rw [decide_eq_true hmore]
      simp [settle, RelayReader.trailer, reading, queue, Ending.settles]

/-- A reader that met neither an attestation nor a withdrawal. -/
def RelayReader.Quiet (reader : RelayReader) : Prop :=
  reader.attested = none ∧ reader.cancelled = false

theorem judge_quiet {timely : Bool} {left right : RelayReader} (hleft : left.Quiet)
    (hright : right.Quiet) {result : Except String Transferred}
    (hresult : ∀ receipt, result ≠ .ok (.complete receipt)) :
    judge plan timely result left = judge plan timely result right := by
  obtain ⟨hattested, hcancelled⟩ := hleft
  obtain ⟨hattested', hcancelled'⟩ := hright
  rcases result with message | ⟨receipt⟩ | ⟨path, staged⟩
  · simp only [judge, hcancelled, hcancelled']
  · exact absurd rfl (hresult receipt)
  · simp only [judge, hcancelled, hcancelled', hattested, hattested']

/-- What a relay comes to, once its attempt is known. -/
def reportOf (plan : TransferPlan) (tried : Attempt Receipt) : Report :=
  match tried.result with
  | .error message =>
      let judged := judge plan true (.error message) tried.source
      ⟨judged.1, tried.received, tried.file, tried.discarded ++ judged.2⟩
  | .ok receipt =>
      let (result, discarded) := finishAttempt plan receipt
      let judged := judge plan true result tried.source
      ⟨judged.1, tried.received, tried.file, tried.discarded ++ discarded ++ judged.2⟩

theorem relayBy_of_stage (hstage : plan.stage = .ok staged) (items : List RelayItem)
    (sizes : ℕ → ℕ) :
    relayBy sha256 host plan items sizes =
      reportOf plan (attemptWith sha256 host staged plan (RelayReader.new items)
        (copyBy host.accepts plan.remaining plan.remaining sizes [] (RelayReader.new items))) := by
  rw [relayBy, uploadBy, hstage, reportOf]
  simp only
  cases (attemptWith sha256 host staged plan (RelayReader.new items)
    (copyBy host.accepts plan.remaining plan.remaining sizes [] (RelayReader.new items))).result <;>
    rfl

/-- Attempts that differ in their readers only come to the same, where no whole file was stored and
the readers met nothing. -/
theorem reportOf_quiet {tried : Attempt Receipt} {source : RelayReader}
    (hleft : tried.source.Quiet) (hright : source.Quiet)
    (hshort : ¬∃ receipt, tried.result = .ok receipt ∧ receipt.bytes = plan.length) :
    reportOf plan { tried with source := source } = reportOf plan tried := by
  unfold reportOf
  cases hresult : tried.result with
  | error message =>
    simp only
    rw [judge_quiet hright hleft (by simp)]
  | ok receipt =>
    have hbytes : receipt.bytes ≠ plan.length := fun h => hshort ⟨receipt, hresult, h⟩
    have hincomplete : ∀ whole, (finishAttempt plan receipt).1 ≠ .ok (.complete whole) := by
      intro whole
      unfold finishAttempt
      split
      · simp
      · split
        · simp
        · omega
    simp only
    rw [judge_quiet hright hleft hincomplete]

theorem reportOf_complete {tried : Attempt Receipt} {receipt : Receipt}
    (hresult : tried.result = .ok receipt) (hbytes : receipt.bytes = plan.length) :
    reportOf plan tried =
      ⟨(settle plan true receipt tried.source).1, tried.received, tried.file,
        tried.discarded ++ (settle plan true receipt tried.source).2⟩ := by
  have hfinish : finishAttempt plan receipt = (.ok (.complete receipt), []) := by
    simp [finishAttempt, hbytes]
  simp only [reportOf, hresult, hfinish, List.append_nil]
  rfl

/-- A host that keeps no more than it takes, of a file that is no longer than it said. -/
structure Host.Honest (host : Host) (plan : TransferPlan) : Prop where
  keeps_le : host.keeps ≤ host.accepts
  before_le : (plan.before host.held).length ≤ plan.staged

/-- The host takes and stores the whole of what is declared, and answers for it. -/
structure Host.Completes (host : Host) (plan : TransferPlan) : Prop where
  stages : ∃ staged, plan.stage = .ok staged
  takes : plan.remaining ≤ host.accepts
  stores : (plan.before host.held).length + min host.keeps plan.remaining = plan.length
  answers : host.Answers plan

variable {bytes : List UInt8}

/-- An attempt stores the whole file exactly if the host completes it and enough was sent. -/
theorem attempt_complete_iff (honest : host.Honest plan) (hstage : plan.stage = .ok staged)
    {trails : Prop}
    (h : Copying host.accepts plan.remaining bytes ending trails copied) (source : RelayReader) :
    (∃ receipt, (attemptWith sha256 host staged plan source copied).result = .ok receipt ∧
        receipt.bytes = plan.length) ↔
      host.Completes plan ∧ plan.remaining ≤ bytes.length := by
  obtain ⟨hkeeps, hbefore⟩ := honest
  have hstored : (plan.before host.held ++ copied.offered.take host.keeps).length =
      (plan.before host.held).length + min host.keeps (min plan.remaining bytes.length) := by
    rw [h.take_offered hkeeps]
    simp only [List.length_append, List.length_take]
  have hremaining : plan.remaining = plan.length - plan.staged := by
    unfold TransferPlan.remaining TransferPlan.staged
    cases plan.staging <;> rfl
  constructor
  · rintro ⟨receipt, hresult, hbytes⟩
    have hlength := attemptWith_bytes hresult
    -- no file is as long as was declared without the whole of what remained
    have henough : plan.remaining ≤ bytes.length := by omega
    have hcopied := h.refused_eq_nil_iff.mpr (by omega)
    obtain ⟨hanswers, -⟩ :=
      (attemptWith_complete_iff hstage source hcopied).mp ⟨receipt, hresult, hbytes⟩
    exact ⟨⟨⟨staged, hstage⟩, by omega, by omega, hanswers⟩, henough⟩
  · rintro ⟨⟨-, htakes, hstores, hanswers⟩, henough⟩
    have hcopied := h.refused_eq_nil_iff.mpr (by omega)
    exact (attemptWith_complete_iff hstage source hcopied).mpr ⟨hanswers, by omega⟩

theorem sources_of_copying {accepts expected : ℕ} {trails trails' : Prop} {left right : Copied}
    (hleft : Copying accepts expected bytes ending trails left)
    (hright : Copying accepts expected bytes ending trails' right) :
    left.source = right.source ∨ left.source.Quiet ∧ right.source.Quiet := by
  rcases hleft with ⟨hless, -, -, -, hnone, hkept⟩ | ⟨haccepts, hless, rfl⟩ |
      ⟨rest, pending, haccepts, henough, rfl, -, -⟩ <;>
    rcases hright with ⟨hless', -, -, -, hnone', hkept'⟩ | ⟨haccepts', hless', rfl⟩ |
      ⟨rest', pending', haccepts', henough', rfl, -, -⟩
  · exact .inr ⟨⟨hnone, hkept⟩, hnone', hkept'⟩
  · omega
  · omega
  · omega
  · exact .inl rfl
  · omega
  · omega
  · omega
  · exact .inr ⟨⟨rfl, rfl⟩, rfl, rfl⟩

/-- Where the whole file was stored, the relay is settled by whether anything was left to read. -/
theorem reportOf_copying (honest : host.Honest plan) (hstage : plan.stage = .ok staged)
    {trails : Prop} [Decidable trails]
    (h : Copying host.accepts plan.remaining bytes ending trails copied) {source : RelayReader}
    {receipt : Receipt}
    (hresult : (attemptWith sha256 host staged plan source copied).result = .ok receipt)
    (hbytes : receipt.bytes = plan.length) :
    reportOf plan (attemptWith sha256 host staged plan source copied) =
      let tried := attemptWith sha256 host staged plan source copied
      let settled := ending.settles plan receipt (bytes.drop plan.remaining ≠ [] ∨ trails)
      ⟨settled.1, tried.received, tried.file, tried.discarded ++ settled.2⟩ := by
  obtain ⟨hcompletes, henough⟩ :=
    (attempt_complete_iff honest hstage h source).mp ⟨receipt, hresult, hbytes⟩
  have htakes := hcompletes.takes
  obtain ⟨hsource, hfailed⟩ := @attemptWith_source sha256 host staged plan source copied
  have hsends : host.sends staged plan = true := by
    by_contra hno
    obtain ⟨message, herror⟩ := hfailed (Bool.eq_false_iff.mpr hno)
    rw [hresult] at herror
    cases herror
  rw [hsends, if_pos rfl] at hsource
  rw [reportOf_complete hresult hbytes, hsource]
  rcases h with ⟨hless, -, -, -, -, -⟩ | ⟨-, hless, rfl⟩ | ⟨rest, left, -, -, rfl, hleft, htrails⟩
  · omega
  · omega
  · simp only [settle_reading, hleft, htrails]

/-- Attempts at the same bytes, that end in the same way. -/
structure Twins (sha256 : List UInt8 → String) (host : Host) (staged : Option StagedName)
    (plan : TransferPlan) (one other : Attempt Receipt) : Prop where
  same : one = { other with source := one.source }
  sources : one.source = other.source ∨ one.source.Quiet ∧ other.source.Quiet

theorem twins_of_copying (honest : host.Honest plan) {trails trails' : Prop} {left right : Copied}
    (hleft : Copying host.accepts plan.remaining bytes ending trails left)
    (hright : Copying host.accepts plan.remaining bytes ending trails' right)
    (items items' : List RelayItem) :
    Twins sha256 host staged plan
      (attemptWith sha256 host staged plan (RelayReader.new items) left)
      (attemptWith sha256 host staged plan (RelayReader.new items') right) := by
  have halike : Alike host left right := by
    refine ⟨by rw [hleft.refused_eq_nil_iff, hright.refused_eq_nil_iff], ?_⟩
    rw [hleft.take_offered honest.keeps_le, hright.take_offered honest.keeps_le]
  refine ⟨attemptWith_alike halike _ _, ?_⟩
  rw [(attemptWith_source _ _).1, (attemptWith_source _ _).1]
  split
  · exact sources_of_copying hleft hright
  · exact .inr ⟨⟨rfl, rfl⟩, rfl, rfl⟩

theorem not_or_iff_not_or_iff {p q r : Prop} : ((¬p ∨ q) ↔ (¬p ∨ r)) ↔ ¬(p ∧ (q ↔ ¬r)) := by
  by_cases hp : p
  · by_cases hq : q <;> by_cases hr : r <;> simp [hp, hq, hr]
  · simp [hp]

/-- How far an upload depends on its chunks: an honest host is handed the same bytes however they are
cut and however they are asked for, and the relay comes to the same, unless the host stores the whole
of the declared length, nothing was sent beyond it, and an empty chunk comes last in one of the two
queues but not in the other. -/
theorem relays_agree_iff (sha256 : List UInt8 → String) (honest : host.Honest plan)
    {left right : List (List UInt8)} (hsame : left.flatten = right.flatten) (ending : Ending)
    {sizes sizes' : ℕ → ℕ} (hsizes : ∀ i, 0 < sizes i) (hsizes' : ∀ i, 0 < sizes' i) :
    let one := relayBy sha256 host plan (queue left ending) sizes
    let other := relayBy sha256 host plan (queue right ending) sizes'
    handed host plan (queue left ending) sizes = handed host plan (queue right ending) sizes' ∧
      (one.outcome = other.outcome ↔
        ¬(host.Completes plan ∧ left.flatten.length = plan.remaining ∧
          (Trails left ↔ ¬Trails right))) ∧
      (one.outcome = other.outcome → one = other) := by
  intro one other
  cases hstage : plan.stage with
  | error message =>
    have hrelay : one = other := by
      simp only [one, other, relayBy, uploadBy, hstage, judge, RelayReader.new]
    refine ⟨by simp only [handed, hstage], iff_of_true (congrArg _ hrelay) ?_, fun _ => hrelay⟩
    rintro ⟨⟨⟨staged, hstaged⟩, -⟩, -⟩
    rw [hstage] at hstaged
    cases hstaged
  | ok staged =>
    have hleft := copying_queue host.accepts plan.remaining left ending hsizes
    have hright := copying_queue host.accepts plan.remaining right ending hsizes'
    rw [← hsame] at hright
    have hone : one = _ := relayBy_of_stage hstage (queue left ending) sizes
    have hother : other = _ := relayBy_of_stage hstage (queue right ending) sizes'
    simp only [handed, hstage]
    generalize copyBy host.accepts plan.remaining plan.remaining sizes []
      (RelayReader.new (queue left ending)) = copied at hleft hone ⊢
    generalize copyBy host.accepts plan.remaining plan.remaining sizes' []
      (RelayReader.new (queue right ending)) = copied' at hright hother ⊢
    refine ⟨by rw [hleft.take_offered le_rfl, hright.take_offered le_rfl], ?_⟩
    have htwins := @twins_of_copying sha256 host staged plan _ _ honest _ _ _ _ hleft hright
      (queue left ending) (queue right ending)
    have hwhole := @attempt_complete_iff sha256 host staged plan _ _ _ honest hstage _ hright
      (RelayReader.new (queue right ending))
    by_cases hcomplete : host.Completes plan ∧ plan.remaining ≤ left.flatten.length
    · obtain ⟨receipt, hresult, hbytes⟩ := hwhole.mpr hcomplete
      have hresult' := (congrArg Attempt.result htwins.same).trans hresult
      rw [reportOf_copying honest hstage hleft hresult' hbytes] at hone
      rw [reportOf_copying honest hstage hright hresult hbytes] at hother
      have hreceived := congrArg Attempt.received htwins.same
      have hfile := congrArg Attempt.file htwins.same
      have hdiscarded := congrArg Attempt.discarded htwins.same
      simp only at hreceived hfile hdiscarded
      simp only [hreceived, hfile, hdiscarded] at hone
      simp only at hother
      have hagree : one.outcome = other.outcome ↔
          decide (left.flatten.drop plan.remaining ≠ [] ∨ Trails left) =
            decide (left.flatten.drop plan.remaining ≠ [] ∨ Trails right) := by
        rw [hone, hother]
        exact Ending.settles_inj
      refine ⟨hagree.trans ?_, fun h => ?_⟩
      · have hdrop : left.flatten.drop plan.remaining ≠ [] ↔
            plan.remaining < left.flatten.length := by
          rw [Ne, List.drop_eq_nil_iff, not_le]
        have hexact : plan.remaining < left.flatten.length ↔
            left.flatten.length ≠ plan.remaining := by
          have := hcomplete.2
          omega
        rw [decide_eq_decide, hdrop, hexact, Ne, not_or_iff_not_or_iff,
          and_iff_right hcomplete.1]
      · rw [hone, hother, hagree.mp h]
    · have hsame : one = other := by
        rw [hone, hother, htwins.same]
        rcases htwins.sources with hsource | ⟨hquiet, hquiet'⟩
        · rw [hsource]
        · exact reportOf_quiet hquiet' hquiet (mt hwhole.mp hcomplete)
      refine ⟨iff_of_true (congrArg _ hsame) ?_, fun _ => hsame⟩
      rintro ⟨hcompletes, hexact, -⟩
      exact hcomplete ⟨hcompletes, hexact.ge⟩

end

/-- A host that takes one byte, stores it and answers for it. -/
def wholeSession : SshSession where
  starts := true
  headed := true
  accepts := 1
  shuts := true
  directory := "/tmp/super-herdr-clipboard.Ab12Cd34"
  held := []
  keeps := 1
  unread := none
  exits := some true

theorem honest_wholeSession :
    Host.Honest (.ssh wholeSession) ⟨OPAQUE, .fresh none, 1⟩ :=
  ⟨by decide, by decide⟩

/-- The one byte of a transfer, with an empty chunk behind it and without. -/
theorem relays_agree_whole :
    let plan : TransferPlan := ⟨OPAQUE, .fresh none, 1⟩
    let host : Host := .ssh wholeSession
    let one := relayBy (fun _ => "") host plan (queue [[1], []] .vanished) fun _ => 1
    let other := relayBy (fun _ => "") host plan (queue [[1]] .vanished) fun i => i + 1
    handed host plan (queue [[1], []] .vanished) (fun _ => 1) =
        handed host plan (queue [[1]] .vanished) (fun i => i + 1) ∧
      (one.outcome = other.outcome ↔
        ¬(host.Completes plan ∧ [[(1 : UInt8)], []].flatten.length = plan.remaining ∧
          (Trails [[(1 : UInt8)], []] ↔ ¬Trails [[(1 : UInt8)]]))) ∧
      (one.outcome = other.outcome → one = other) :=
  relays_agree_iff (fun _ => "") honest_wholeSession
    (by decide : [[(1 : UInt8)], []].flatten = [[1]].flatten) .vanished (fun _ => Nat.one_pos)
    (fun i => Nat.succ_pos i)

/-- An empty chunk behind the last declared byte is refused as bytes that were not declared. -/
theorem an_empty_chunk_is_refused :
    let plan : TransferPlan := ⟨OPAQUE, .fresh none, 1⟩
    let came (chunks : List (List UInt8)) :=
      (relay (fun _ => "") (.ssh wholeSession) plan (queue chunks (.finish "")) true).outcome
    [[(1 : UInt8)], []].flatten = [[1]].flatten ∧
      came [[1]] = .done "/tmp/super-herdr-clipboard.Ab12Cd34/payload" 1 ∧
      came [[1], []] = .refused "transfer sent more than the 1 bytes it declared" := by
  decide

end SuperHerdr
