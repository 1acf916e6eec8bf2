import Mathlib
import SuperHerdr.Protocol.Message

/-!
# Reading a file off a host

`Download` is the task that sends one file to a client, as the state its loop keeps between two
awaits: `Download.turn` is one turn of that loop. It opens the file, offers it, and then sends as
many chunks as the client has granted. A grant is taken only when the one before is spent, and
clamped.

What the host does is a parameter, `HostAnswer`: it may fail at any point, and each read hands
over as many bytes as it likes. A `Source` is what the host says about the file together with the
bytes that reading it yields, which need not be as many as it said.

`FileSave` is the receiving end's bookkeeping in the terminal. It asks for a window of chunks
when it takes the offer, and again whenever it has counted the window down.
-/

namespace SuperHerdr

/-- How much of a downloaded file travels in one message. -/
def DOWNLOAD_CHUNK_BYTES : ℕ := 256 * 1024

/-- The most a download will hold for a client, whatever the client asks for. -/
def MAX_OUTSTANDING_CHUNKS : ℕ := 8

/-- How many chunks the daemon may send before being asked again. -/
def SAVE_WINDOW_CHUNKS : ℕ := 8

/-- Addition of two `u32`s that stops at the largest one. -/
def saturatingAdd32 (x y : ℕ) : ℕ := min (x + y) (2 ^ 32 - 1)

/-! ### The task -/

/-- A file a host has opened. -/
structure Source where
  name : String
  length : ℕ
  digest : String
  /-- What reading it yields, to its end. -/
  content : List UInt8
deriving DecidableEq

/-- What the host does when it is next asked. -/
inductive HostAnswer
  | opened (source : Source)
  /-- A read hands over this many bytes, if so many were wanted and are left. -/
  | read (count : ℕ)
  | failed (message : String)

/-- A download in progress. -/
structure Download where
  request : ℕ
  /-- None until the host has opened the file. -/
  source : Option Source
  sent : ℕ
  credit : ℕ
  /-- The grants that were passed on and not yet taken. -/
  granted : List ℕ
  /-- The task is over; the daemon is told so. -/
  ended : Bool
deriving DecidableEq

namespace Download

/-- A download whose task was just started. -/
def new (request : ℕ) : Download := ⟨request, none, 0, 0, [], false⟩

/-- The task is over, with an error for its client. -/
def fail (d : Download) (message : String) : Download × List ServerMessage :=
  ({ d with ended := true }, [.error (some d.request) message])

/-- One read from the host, sent on as one chunk. -/
def readChunk (d : Download) (source : Source) (count : ℕ) : Download × List ServerMessage :=
  let wanted := min (source.length - d.sent) DOWNLOAD_CHUNK_BYTES
  let bytes := (source.content.drop d.sent).take (min count wanted)
  if bytes = [] then
    d.fail s!"the host sent {d.sent} of the {source.length} bytes it declared"
  else
    ({ d with sent := d.sent + bytes.length, credit := d.credit - 1 },
      [.downloadChunk d.request bytes])

/-- One turn of the loop that sends the file. A turn that waits does nothing. -/
def turn (d : Download) (answer : HostAnswer) : Download × List ServerMessage :=
  if d.ended then (d, [])
  else
    match d.source, answer with
    | none, .opened source =>
        ({ d with source := some source },
          [.downloadOffer d.request source.name source.length source.digest])
    | none, .failed message => d.fail message
    | none, .read _ => (d, [])
    | some source, answer =>
        if d.sent < source.length then
          if d.credit = 0 then
            match d.granted with
            | [] => (d, [])
            | granted :: rest =>
                ({ d with
                    credit := min (saturatingAdd32 d.credit granted) MAX_OUTSTANDING_CHUNKS
                    granted := rest }, [])
          else
            match answer with
            | .read count => d.readChunk source count
            | .failed _ => d.fail "failed to read the file from the host"
            | .opened _ => (d, [])
        else ({ d with ended := true }, [.downloadFinished d.request])

/-- A grant is passed on to the task. One that is over has nobody to take it. -/
def grant (d : Download) (chunks : ℕ) : Download :=
  if d.ended then d else { d with granted := d.granted ++ [chunks] }

/-- The task is aborted. -/
def stop (d : Download) : Download := { d with ended := true }

/-- **What a turn can do.** -/
inductive Turns (d : Download) : Download → List ServerMessage → Prop
  | waits : d.Turns d []
  | opens (source : Source) (hended : d.ended = false) (hsource : d.source = none) :
      d.Turns { d with source := some source }
        [.downloadOffer d.request source.name source.length source.digest]
  /-- The host could not open the file, or a read that was paid for failed. -/
  | fails (message : String) (hended : d.ended = false)
      (hread : ∀ source, d.source = some source → 0 < d.credit) :
      d.Turns { d with ended := true } [.error (some d.request) message]
  | takes (source : Source) (granted : ℕ) (rest : List ℕ) (hended : d.ended = false)
      (hsource : d.source = some source) (hsent : d.sent < source.length)
      (hcredit : d.credit = 0) (hgranted : d.granted = granted :: rest) :
      d.Turns { d with credit := min granted MAX_OUTSTANDING_CHUNKS, granted := rest } []
  | sends (source : Source) (bytes : List UInt8) (hended : d.ended = false)
      (hsource : d.source = some source) (hcredit : 0 < d.credit) (hbytes : bytes ≠ [])
      (hfront : bytes <+: source.content.drop d.sent)
      (hlength : d.sent + bytes.length ≤ source.length) :
      d.Turns { d with sent := d.sent + bytes.length, credit := d.credit - 1 }
        [.downloadChunk d.request bytes]
  | finishes (source : Source) (hended : d.ended = false) (hsource : d.source = some source)
      (hsent : source.length ≤ d.sent) :
      d.Turns { d with ended := true } [.downloadFinished d.request]

theorem saturatingAdd32_clamped (granted : ℕ) :
    min (saturatingAdd32 0 granted) MAX_OUTSTANDING_CHUNKS = min granted MAX_OUTSTANDING_CHUNKS := by
  simp only [saturatingAdd32, MAX_OUTSTANDING_CHUNKS]
  omega

theorem turns_readChunk {d : Download} {source : Source} (hended : d.ended = false)
    (hsource : d.source = some source) (hcredit : 0 < d.credit) (hsent : d.sent < source.length)
    (count : ℕ) : d.Turns (d.readChunk source count).1 (d.readChunk source count).2 := by
  unfold readChunk
  simp only
  split
  · exact .fails _ hended fun _ _ => hcredit
  · next hbytes =>
    refine .sends source _ hended hsource hcredit hbytes (List.take_prefix ..) ?_
    rw [List.length_take]
    omega

theorem turns_turn (d : Download) (answer : HostAnswer) :
    d.Turns (d.turn answer).1 (d.turn answer).2 := by
  unfold turn
  split
  · exact .waits
  · next hended =>
    have hended : d.ended = false := Bool.eq_false_iff.mpr hended
    split
    · next source hsource => exact .opens source hended hsource
    · next message hsource =>
      exact .fails message hended fun source h => by rw [hsource] at h; cases h
    · exact .waits
    · next source hsource =>
      split
      · next hsent =>
        split
        · next hcredit =>
          split
          · exact .waits
          · next granted rest hgranted =>
            rw [hcredit, saturatingAdd32_clamped]
            exact .takes source granted rest hended hsource hsent hcredit hgranted
        · next hcredit =>
          have hcredit : 0 < d.credit := Nat.pos_of_ne_zero hcredit
          split
          · next count => exact turns_readChunk hended hsource hcredit hsent count
          · exact .fails _ hended fun _ _ => hcredit
          · exact .waits
      · next hsent => exact .finishes source hended hsource (Nat.not_lt.mp hsent)

/-- No more was sent than the host said there is, and than reading yielded. -/
structure Within (d : Download) : Prop where
  unopened : d.source = none → d.sent = 0
  length : ∀ source, d.source = some source → d.sent ≤ source.length
  content : ∀ source, d.source = some source → d.sent ≤ source.content.length

theorem Within.new (request : ℕ) : (new request).Within :=
  ⟨fun _ => rfl, fun _ _ => Nat.zero_le _, fun _ _ => Nat.zero_le _⟩

variable {messages : List ServerMessage}

theorem Within.turns {d d' : Download} (h : d.Within)
    (hturn : d.Turns d' messages) : d'.Within := by
  cases hturn with
  | waits => exact h
  | opens source hended hsource =>
    have hsent := h.unopened hsource
    refine ⟨fun hnone => ?_, fun _ _ => ?_, fun _ _ => ?_⟩
    · cases hnone
    · exact hsent ▸ Nat.zero_le _
    · exact hsent ▸ Nat.zero_le _
  | fails message hended hread => exact ⟨h.unopened, h.length, h.content⟩
  | takes source granted rest hended hsource hsent hcredit hgranted =>
    exact ⟨h.unopened, h.length, h.content⟩
  | sends source bytes hended hsource hcredit hbytes hfront hlength =>
    have hleft := hfront.length_le
    have hcontent := h.content source hsource
    rw [List.length_drop] at hleft
    refine ⟨fun hnone => ?_, fun other hother => ?_, fun other hother => ?_⟩
    · rw [hsource] at hnone
      cases hnone
    · rw [hsource] at hother
      cases hother
      exact hlength
    · rw [hsource] at hother
      cases hother
      simp only
      omega
  | finishes source hended hsource hsent => exact ⟨h.unopened, h.length, h.content⟩

/-- What a message of the task says about it. -/
def Tells (d : Download) : ServerMessage → Prop
  | .downloadOffer _ _ length _ => ∃ source, d.source = some source ∧ source.length = length
  | .downloadFinished _ =>
      d.ended = true ∧ ∃ source, d.source = some source ∧ d.sent = source.length
  | _ => True

/-- What was said stays true. -/
theorem Tells.turns {d d' : Download} {message : ServerMessage}
    (h : d.Tells message) (hturn : d.Turns d' messages) : d'.Tells message := by
  unfold Tells at h ⊢
  cases hturn with
  | waits => exact h
  | opens source hended hsource =>
    split
    · next length _ =>
      obtain ⟨other, hother, -⟩ := h
      rw [hsource] at hother
      cases hother
    · obtain ⟨htrue, -⟩ := h
      rw [hended] at htrue
      cases htrue
    · trivial
  | fails message hended hread =>
    split
    · exact h
    · exact ⟨rfl, h.2⟩
    · trivial
  | takes source granted rest hended hsource hsent hcredit hgranted =>
    split
    · exact h
    · exact h
    · trivial
  | sends source bytes hended hsource hcredit hbytes hfront hlength =>
    split
    · exact h
    · obtain ⟨htrue, -⟩ := h
      rw [hended] at htrue
      cases htrue
    · trivial
  | finishes source hended hsource hsent =>
    split
    · exact h
    · exact ⟨rfl, h.2⟩
    · trivial

theorem Within.tells {d d' : Download} (h : d.Within)
    (hturn : d.Turns d' messages) : ∀ message ∈ messages, d'.Tells message := by
  cases hturn with
  | waits => simp
  | opens source hended hsource => simp [Tells]
  | fails message hended hread => simp [Tells]
  | takes source granted rest hended hsource hsent hcredit hgranted => simp
  | sends source bytes hended hsource hcredit hbytes hfront hlength => simp [Tells]
  | finishes source hended hsource hsent =>
    have hlength := h.length source hsource
    simp [Tells, hsource, le_antisymm hlength hsent]

end Download

/-! ### The receiving end -/

/-- A file on its way to this machine. -/
structure FileSave where
  length : ℕ
  digest : String
  received : ℕ
  /-- What the temporary file holds, and its digest is taken over. -/
  written : List UInt8
  outstanding : ℕ
deriving DecidableEq

/-- What the caller should do next. -/
inductive SaveProgress
  | pull (chunks : ℕ)
  | waiting
deriving DecidableEq

namespace FileSave

def new (length : ℕ) (digest : String) : FileSave := ⟨length, digest, 0, [], 0⟩

/-- Open the window. -/
def start (save : FileSave) : FileSave × SaveProgress :=
  ({ save with outstanding := SAVE_WINDOW_CHUNKS }, .pull SAVE_WINDOW_CHUNKS)

/-- Take one chunk. `writes` says whether the temporary file takes it. -/
def chunk (save : FileSave) (writes : Bool) (bytes : List UInt8) :
    Except String (FileSave × SaveProgress) :=
  let remaining := save.length - save.received
  if bytes.length > remaining then .error "that host sent more than it offered"
  else if !writes then .error "failed to write the downloaded file"
  else
    let save := { save with
      written := save.written ++ bytes
      received := save.received + bytes.length
      outstanding := save.outstanding - 1 }
    if save.received ≥ save.length ∨ save.outstanding > 0 then .ok (save, .waiting)
    else .ok ({ save with outstanding := SAVE_WINDOW_CHUNKS }, .pull SAVE_WINDOW_CHUNKS)

/-- Check what arrived and put it where it belongs. `stored` is what flushing the file and
renaming it into place come to. -/
def finish (sha256 : List UInt8 → String) (save : FileSave) (stored : Except String Unit) :
    Except String Unit :=
  if save.received ≠ save.length then
    .error s!"that transfer stopped after {save.received} of {save.length} bytes"
  else if save.digest ≠ "" ∧ sha256 save.written ≠ save.digest then
    .error "that file did not match the digest its host reported"
  else stored

/-- A chunk that is within what was offered counts the window down, and opens it again when
bytes are missing and nothing is outstanding. -/
theorem chunk_eq {save : FileSave} {bytes : List UInt8}
    (hbytes : save.received + bytes.length ≤ save.length) :
    save.chunk true bytes =
      .ok (let counted : FileSave := { save with
            written := save.written ++ bytes
            received := save.received + bytes.length
            outstanding := save.outstanding - 1 }
          if save.received + bytes.length < save.length ∧ save.outstanding ≤ 1 then
            ({ counted with outstanding := SAVE_WINDOW_CHUNKS }, .pull SAVE_WINDOW_CHUNKS)
          else (counted, .waiting)) := by
  unfold chunk
  have hfits : ¬bytes.length > save.length - save.received := by omega
  simp only [hfits, if_false, Bool.not_true, Bool.false_eq_true]
  by_cases hpull : save.received + bytes.length < save.length ∧ save.outstanding ≤ 1
  · have hopen : ¬(save.received + bytes.length ≥ save.length ∨ save.outstanding - 1 > 0) := by
      omega
    rw [if_neg hopen, if_pos hpull]
  · have hwait : save.received + bytes.length ≥ save.length ∨ save.outstanding - 1 > 0 := by
      omega
    rw [if_pos hwait, if_neg hpull]

theorem chunk_unwritten (save : FileSave) (bytes : List UInt8) :
    ∃ message, save.chunk false bytes = .error message := by
  unfold chunk
  simp only
  split
  · exact ⟨_, rfl⟩
  · exact ⟨_, rfl⟩

end FileSave

end SuperHerdr
