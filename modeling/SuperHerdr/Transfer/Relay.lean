import SuperHerdr.Transfer.Staging

/-!
# Relaying one attempt at a transfer

A sender's bytes cross the daemon as a queue of `RelayItem`s, read as a stream by `RelayReader`
and copied to the host up to the length the plan declares. The host stores what it is given and
answers with a receipt, computed over the file it stored; the sender attests to a digest after
its last byte. `relay` compares the two and says what the attempt came to.

What the host does is a parameter, `Host`: an SSH session or a disk of this machine, either of
which may fail at any point, take any number of bytes, and answer or not. So is `sha256`, the
digest of a file. Receipts are what the staging scripts print, the length and the digest of the
file they wrote.

A `Report` says, beside the outcome, what a reader of the code would look for: the receipt the
daemon read, the file the host was left with, and the paths passed to `discard_upload`.
-/

namespace SuperHerdr

/-- Chunk size for a streamed upload. -/
def STREAM_CHUNK_BYTES : ℕ := 64 * 1024

/-! ### The sender's side -/

/-- One step of a transfer. A queue that ends is a sender that vanished. -/
inductive RelayItem
  | chunk (bytes : List UInt8)
  /-- The digest the sender attests to, over the bytes it sent. -/
  | finish (digest : String)
  | cancel
deriving DecidableEq

/-- What a sender attested to, once its declared bytes had been relayed. -/
inductive Trailer
  | digest (digest : String)
  | overrun
  | missing

/-- The client's side of a transfer, read as a stream. -/
structure RelayReader where
  chunks : List RelayItem
  /-- What is left of the chunk being handed over. -/
  pending : List UInt8
  attested : Option String
  cancelled : Bool

namespace RelayReader

def new (chunks : List RelayItem) : RelayReader := ⟨chunks, [], none, false⟩

/-- Take items until one has bytes to hand over or ends the stream. An empty chunk is not the
end of anything. -/
def refill (reader : RelayReader) : List RelayItem → RelayReader
  | [] => { reader with chunks := [] }
  | .finish digest :: rest => { reader with chunks := rest, attested := some digest }
  | .cancel :: rest => { reader with chunks := rest, cancelled := true }
  | .chunk [] :: rest => reader.refill rest
  | .chunk (byte :: bytes) :: rest => { reader with chunks := rest, pending := byte :: bytes }

/-- Read at most `wanted` bytes. Reading none is the end of the stream. -/
def read (reader : RelayReader) (wanted : ℕ) : List UInt8 × RelayReader :=
  let reader := if reader.pending = [] then reader.refill reader.chunks else reader
  (reader.pending.take wanted, { reader with pending := reader.pending.drop wanted })

/-- What the sender attested to. `timely` says whether the next item, or the end of the queue,
arrives before `TRAILER_TIMEOUT`. -/
def trailer (reader : RelayReader) (timely : Bool) : Trailer × RelayReader :=
  match reader.attested with
  | some digest => (.digest digest, { reader with attested := none })
  | none =>
      if reader.pending ≠ [] then (.overrun, reader)
      else if !timely then (.missing, reader)
      else
        match reader.chunks with
        | .finish digest :: rest => (.digest digest, { reader with chunks := rest })
        | .chunk _ :: rest => (.overrun, { reader with chunks := rest })
        | .cancel :: rest => (.missing, { reader with chunks := rest, cancelled := true })
        | [] => (.missing, reader)

end RelayReader

/-! ### The host's side -/

/-- What a host says it stored. -/
structure Receipt where
  path : String
  bytes : ℕ
  digest : String
deriving DecidableEq

/-- What the SSH session of one attempt does. -/
structure SshSession where
  /-- Whether the process starts, with its input and output exposed. -/
  starts : Bool
  /-- Whether it takes the heading, the line ahead of the payload. -/
  headed : Bool
  /-- How many bytes it takes before writing to it fails. -/
  accepts : ℕ
  /-- Whether its input can be shut down. -/
  shuts : Bool
  /-- The directory the staging script makes. -/
  directory : String
  /-- What a resumed file holds when the attempt starts. -/
  held : List UInt8
  /-- How many of the bytes offered to it reach the file. -/
  keeps : ℕ
  /-- Why no receipt can be read from its output, if none can. -/
  unread : Option String
  /-- Whether it exits successfully, if it can be waited for. -/
  exits : Option Bool

/-- What this machine's disk does during one attempt. -/
structure LocalDisk where
  /-- The staging directory, if one can be made. -/
  directory : Option String
  opens : Bool
  /-- How many bytes it takes before a write fails. -/
  accepts : ℕ
  flushes : Bool
  held : List UInt8
  keeps : ℕ
  /-- Whether the file can be read back for its receipt. -/
  readable : Bool

/-- A target is a host over SSH or this machine. -/
inductive Host
  | ssh (session : SshSession)
  | here (disk : LocalDisk)

/-! ### One attempt -/

/-- What an attempt leaves: its result, and what became of the sender's stream and the file. -/
structure Attempt (α : Type) where
  result : Except String α
  /-- The receipt the daemon read, whatever it made of it. -/
  received : Option Receipt
  /-- The staged file at the end of the attempt. -/
  file : List UInt8
  /-- The paths passed to `discard_upload`. -/
  discarded : List String
  source : RelayReader

/-- What copying the stream to a host came to. -/
structure Copied where
  written : List UInt8
  /-- The bytes of the write that failed, if one did. -/
  refused : List UInt8
  source : RelayReader

/-- Everything that was offered to the host. -/
def Copied.offered (copied : Copied) : List UInt8 := copied.written ++ copied.refused

/-- Copy until `expected` bytes are written, the stream ends, or a write fails. Each round
writes at least one byte, so `expected` rounds are enough. -/
def copy (accepts expected : ℕ) : ℕ → List UInt8 → RelayReader → Copied
  | 0, written, source => ⟨written, [], source⟩
  | rounds + 1, written, source =>
      if written.length < expected then
        let wanted := min (expected - written.length) STREAM_CHUNK_BYTES
        let (bytes, source) := source.read wanted
        if bytes = [] then ⟨written, [], source⟩
        else if written.length + bytes.length ≤ accepts then
          copy accepts expected rounds (written ++ bytes) source
        else ⟨written, bytes, source⟩
      else ⟨written, [], source⟩

/-- The bytes of the plan's file before the attempt: a fresh one has none. -/
def TransferPlan.before (plan : TransferPlan) (held : List UInt8) : List UInt8 :=
  match plan.staging with
  | .fresh _ => []
  | .resume _ _ => held

/-- Where an SSH session stages the file: the directory it makes, or the path it is given. -/
def SshSession.path (session : SshSession) (staged : Option StagedName) (plan : TransferPlan) :
    Except String String :=
  match plan.staging with
  | .fresh _ =>
      match staged with
      | none => .error "a fresh transfer needs a name"
      | some staged => .ok (session.directory ++ "/" ++ staged.name)
  | .resume path _ => .ok path

/-- What went wrong moving the bytes, recorded rather than returned. -/
def SshSession.failure (session : SshSession) (copied : Copied) : Option String :=
  if copied.refused ≠ [] then some "failed to send upload bytes"
  else if !session.shuts then some "failed to finish the media upload"
  else none

def SshSession.receipt (sha256 : List UInt8 → String) (session : SshSession) (path : String)
    (file : List UInt8) : Except String Receipt :=
  match session.unread with
  | some message => .error message
  | none => .ok ⟨path, file.length, sha256 file⟩

/-- A failure with a receipt is reported through the receipt. Without a failure, the session has
to end well. -/
def SshSession.conclude (session : SshSession) (failure : Option String)
    (receipt : Except String Receipt) : Except String Receipt :=
  match failure, receipt with
  | some _, .ok receipt => .ok receipt
  | some message, .error _ => .error message
  | none, receipt =>
      match session.exits with
      | none => .error "failed to wait for the SSH media upload"
      | some false => .error "SSH media upload failed (diagnostics redacted)"
      | some true => receipt

/-- One attempt at moving bytes to a host over SSH. -/
def remoteAttempt (sha256 : List UInt8 → String) (session : SshSession)
    (staged : Option StagedName) (plan : TransferPlan) (source : RelayReader) :
    Attempt Receipt :=
  let failed (message : String) : Attempt Receipt :=
    ⟨.error message, none, plan.before session.held, [], source⟩
  if !session.starts then failed "failed to start the SSH media upload"
  else
    match session.path staged plan with
    | .error message => failed message
    | .ok path =>
        if !session.headed then failed "failed to send the transfer heading"
        else
          let copied := copy session.accepts plan.remaining plan.remaining [] source
          let file := plan.before session.held ++ copied.offered.take session.keeps
          let receipt := session.receipt sha256 path file
          ⟨session.conclude (session.failure copied) receipt, receipt.toOption, file, [],
            copied.source⟩

/-- Where this machine stages the file. -/
def LocalDisk.path (disk : LocalDisk) (staged : Option StagedName) (plan : TransferPlan) :
    Except String String :=
  match plan.staging with
  | .fresh _ =>
      match staged, disk.directory with
      | none, _ => .error "a fresh transfer needs a name"
      | some _, none => .error "failed to create a local staging directory"
      | some staged, some directory => .ok (directory ++ "/" ++ staged.name)
  | .resume path _ => .ok path

def LocalDisk.failure (disk : LocalDisk) (copied : Copied) : Option String :=
  if copied.refused ≠ [] then some "failed to write the local media"
  else if !disk.flushes then some "failed to flush the local media file"
  else none

/-- The same attempt, when the target is this machine. A failure that stored nothing is the one
that is cleaned up here. -/
def localAttempt (sha256 : List UInt8 → String) (disk : LocalDisk) (staged : Option StagedName)
    (plan : TransferPlan) (source : RelayReader) : Attempt Receipt :=
  let failed (message : String) : Attempt Receipt :=
    ⟨.error message, none, plan.before disk.held, [], source⟩
  match disk.path staged plan with
  | .error message => failed message
  | .ok path =>
      if !disk.opens then failed "failed to open the local media file"
      else
        let copied := copy disk.accepts plan.remaining plan.remaining [] source
        let file := plan.before disk.held ++ copied.offered.take disk.keeps
        let receipt : Receipt := ⟨path, file.length, sha256 file⟩
        if !disk.readable then
          ⟨.error "failed to verify the local media file", none, file, [], copied.source⟩
        else
          match disk.failure copied with
          | none => ⟨.ok receipt, some receipt, file, [], copied.source⟩
          | some message =>
              if file.length = 0 then ⟨.error message, none, file, [path], copied.source⟩
              else ⟨.ok receipt, some receipt, file, [], copied.source⟩

/-- What became of one attempt. -/
inductive Transferred
  | complete (uploaded : Receipt)
  /-- What did arrive is still on the host. -/
  | interrupted (path : String) (staged : ℕ)

/-- Judge what the host now holds against what the whole transfer declared. -/
def finishAttempt (plan : TransferPlan) (receipt : Receipt) :
    Except String Transferred × List String :=
  if receipt.bytes < plan.length then (.ok (.interrupted receipt.path receipt.bytes), [])
  else if receipt.bytes > plan.length then
    (.error s!"host stored {receipt.bytes} bytes of a transfer that declared {plan.length}",
      [receipt.path])
  else (.ok (.complete receipt), [])

/-- The attempt the target calls for. -/
def attempt (sha256 : List UInt8 → String) (host : Host) (staged : Option StagedName)
    (plan : TransferPlan) (source : RelayReader) : Attempt Receipt :=
  match host with
  | .ssh session => remoteAttempt sha256 session staged plan source
  | .here disk => localAttempt sha256 disk staged plan source

/-- What a plan's file holds before the attempt, on its host. -/
def Host.held : Host → List UInt8
  | .ssh session => session.held
  | .here disk => disk.held

/-- The name of a fresh transfer, or that the path of a resumed one is one this bridge staged.
Judged before a connection is opened. -/
def TransferPlan.stage (plan : TransferPlan) : Except String (Option StagedName) :=
  match plan.staging with
  | .fresh name => (StagedName.resolve name plan.media).map some
  | .resume path _ =>
      if (removableUploadDirectory path).isSome then .ok none
      else .error "a transfer cannot be resumed into a path this bridge did not stage"

/-- Upload a payload that is being read rather than held. -/
def uploadStream (sha256 : List UInt8 → String) (host : Host) (plan : TransferPlan)
    (source : RelayReader) : Attempt Transferred :=
  match plan.stage with
  | .error message => ⟨.error message, none, plan.before host.held, [], source⟩
  | .ok staged =>
      let tried := attempt sha256 host staged plan source
      match tried.result with
      | .error message =>
          ⟨.error message, tried.received, tried.file, tried.discarded, tried.source⟩
      | .ok receipt =>
          let (result, discarded) := finishAttempt plan receipt
          ⟨result, tried.received, tried.file, tried.discarded ++ discarded, tried.source⟩

/-! ### The relay -/

/-- What one attempt at a transfer came to. -/
inductive Relayed
  /-- Verified end to end. -/
  | done (path : String) (bytes : ℕ)
  /-- Refused, with nothing left on the host. -/
  | refused (message : String)
  /-- Stopped early, with what did arrive still on the host. -/
  | interrupted (path : String) (staged : ℕ)
  /-- Withdrawn. Nothing kept. -/
  | withdrawn
deriving DecidableEq

/-- An attempt's outcome, and what it left on the host. -/
structure Report where
  outcome : Relayed
  received : Option Receipt
  file : List UInt8
  discarded : List String

/-- Check the promise a sender made about a file that is all on the host. -/
def settle (plan : TransferPlan) (timely : Bool) (uploaded : Receipt) (source : RelayReader) :
    Relayed × List String :=
  let (trailer, source) := source.trailer timely
  match trailer with
  | .digest digest =>
      if digest = uploaded.digest then (.done uploaded.path uploaded.bytes, [])
      else (.refused "transfer does not match the digest its sender attested to",
        [uploaded.path])
  | .overrun =>
      (.refused s!"transfer sent more than the {plan.length} bytes it declared",
        [uploaded.path])
  | .missing =>
      if source.cancelled then (.withdrawn, [uploaded.path])
      else (.interrupted uploaded.path uploaded.bytes, [])

/-- What to make of an attempt's result, and which path to discard for it. Where the stream
stopped short, only its reader can tell a withdrawal and a broken promise from a dropped
connection. -/
def judge (plan : TransferPlan) (timely : Bool) (result : Except String Transferred)
    (source : RelayReader) : Relayed × List String :=
  match result with
  | .ok (.complete uploaded) => settle plan timely uploaded source
  | .ok (.interrupted path staged) =>
      if source.cancelled then (.withdrawn, [path])
      else if source.attested.isSome then
        (.refused s!"transfer ended with {staged} of the {plan.length} bytes it declared",
          [path])
      else (.interrupted path staged, [])
  | .error message => if source.cancelled then (.withdrawn, []) else (.refused message, [])

/-- Move one attempt at a transfer to its target, and check the promise its sender made about
the result. -/
def relay (sha256 : List UInt8 → String) (host : Host) (plan : TransferPlan)
    (items : List RelayItem) (timely : Bool) : Report :=
  let uploaded := uploadStream sha256 host plan (RelayReader.new items)
  let judged := judge plan timely uploaded.result uploaded.source
  ⟨judged.1, uploaded.received, uploaded.file, uploaded.discarded ++ judged.2⟩

end SuperHerdr
