import SuperHerdr.Library.Transducer
import SuperHerdr.Protocol.Wire

/-!
# The client's upload window

A client's commands go into an unbounded channel that one task, the writer, empties into the
socket. `UploadWindow` counts the bytes of the chunks between the two, and `room_to_send` makes a
sender that streams a file wait while too much is queued: it registers with `drained`, reads
`closed`, reads `queued`, and only then waits to be notified. Every one of these accesses, and
every one of the writer's, is a step of its own here, so a run is any interleaving of them.

A message between `send` and the socket is in one of four places, `ClientUploads.outstanding`. That
a message belongs to a streaming sender, and the lists `accepted`, `settled` and `stranded`, are
only recorded.
-/

namespace SuperHerdr

open Transducer

/-- How much of a payload travels in one message. -/
def UPLOAD_CHUNK_BYTES : ℕ := 512 * 1024

/-- How much of a transfer may be waiting for the socket at once. -/
def UPLOAD_WINDOW_BYTES : ℕ := 4 * 1024 * 1024

/-- What is queued for the socket but not yet written to it. -/
structure UploadWindow where
  queued : ℕ
  closed : Bool
deriving DecidableEq

namespace UploadWindow

/-- What a message occupies while it waits. -/
def messageBytes : ClientMessage → ℕ
  | .uploadChunk _ bytes => bytes.length
  | _ => 0

def enqueued (self : UploadWindow) (bytes : ℕ) : UploadWindow :=
  { self with queued := self.queued + bytes }

/-- Taken by the socket, or given up on. -/
def written (self : UploadWindow) (bytes : ℕ) : UploadWindow :=
  { self with queued := self.queued - bytes }

def close (self : UploadWindow) : UploadWindow := { self with closed := true }

end UploadWindow

/-- A message on its way to the socket, and the streaming sender it belongs to. -/
structure Outgoing where
  owner : Option ℕ
  message : ClientMessage
deriving DecidableEq

def Outgoing.bytes (self : Outgoing) : ℕ := UploadWindow.messageBytes self.message

/-- How far one pass through the loop of `room_to_send` has come. -/
inductive RoomStage
  | registered
  /-- The window was not closed. -/
  | asked
  /-- There was no room. -/
  | parked
deriving DecidableEq

/-- Where `send_file` is. -/
inductive SenderPhase
  | reading
  | asking (bytes : List UInt8)
  | waiting (bytes : List UInt8) (stage : RoomStage) (notified : Bool)
  | cleared (bytes : List UInt8)
  | finished (sent : Bool)
deriving DecidableEq

/-- `notify_waiters`, for one sender. -/
def SenderPhase.notify : SenderPhase → SenderPhase
  | .waiting bytes stage _ => .waiting bytes stage true
  | phase => phase

/-- A file that is sent from disk under an offer already made. -/
structure Sender where
  request : ℕ
  length : ℕ
  sent : ℕ
  hashed : List UInt8
  phase : SenderPhase
deriving DecidableEq

/-- Where the writer is. -/
inductive WriterPhase
  | receiving
  | writing (outgoing : Outgoing)
  /-- The room is given back, and nobody has been notified of it. -/
  | written (alive : Bool)
  /-- The loop is left. -/
  | closing
  /-- The window is closed, and nobody has been notified of it. -/
  | closed
  | ended
  | aborted
deriving DecidableEq

namespace WriterPhase

def running : WriterPhase → Bool
  | .ended | .aborted => false
  | _ => true

/-- Whether the task waits for something, which is where it can be aborted. -/
def suspended : WriterPhase → Bool
  | .receiving | .writing _ => true
  | _ => false

/-- The message the task has taken from the channel. -/
def taken : WriterPhase → List Outgoing
  | .writing outgoing => [outgoing]
  | _ => []

end WriterPhase

structure ClientUploads where
  window : UploadWindow
  /-- Messages that are counted and not yet in the channel. -/
  sending : List Outgoing
  channel : List Outgoing
  writer : WriterPhase
  senders : List Sender
  /-- Whether the `Client` is gone, and its tasks are told to abort. -/
  dropped : Bool
  /-- Every message given to `send`. -/
  accepted : List Outgoing
  /-- What was written, or given up. -/
  settled : List Outgoing
  /-- What was lost with the channel. -/
  stranded : List Outgoing
deriving DecidableEq

namespace ClientUploads

def default : ClientUploads := ⟨⟨0, false⟩, [], [], .receiving, [], false, [], [], []⟩

inductive Move
  /-- A command from anywhere but a streaming sender. -/
  | send (message : ClientMessage)
  /-- A counted message reaches the channel. -/
  | pushed (index : ℕ)
  | start (request length : ℕ) (opened : Bool)
  | read (sender : ℕ) (result : Option (List UInt8))
  | register (sender : ℕ)
  | askClosed (sender : ℕ)
  | askQueued (sender : ℕ)
  | wake (sender : ℕ)
  | chunk (sender : ℕ)
  | received
  | wrote (taken : Bool)
  | notified
  | closed
  /-- The last handle is gone, and with it the channel. -/
  | hungUp
  | drop
  /-- The runtime carries the abort out. -/
  | cancelled

/-- A message is counted. -/
def send (self : ClientUploads) (owner : Option ℕ) (message : ClientMessage) : ClientUploads :=
  { self with
    window := self.window.enqueued (UploadWindow.messageBytes message)
    sending := self.sending ++ [⟨owner, message⟩]
    accepted := self.accepted ++ [⟨owner, message⟩] }

def setPhase (self : ClientUploads) (index : ℕ) (phase : SenderPhase) : ClientUploads :=
  { self with senders := self.senders.modify index fun sender => { sender with phase } }

/-- A sender gives up, and cancels its transfer. -/
def fail (self : ClientUploads) (index : ℕ) (sender : Sender) : ClientUploads :=
  (self.setPhase index (.finished false)).send (some index) (.cancelUpload sender.request)

/-- The writer gives the room of a message back. -/
def settle (self : ClientUploads) (outgoing : Outgoing) (alive : Bool) : ClientUploads :=
  { self with
    window := self.window.written outgoing.bytes
    settled := self.settled ++ [outgoing]
    writer := if 0 < outgoing.bytes then .written alive
      else if alive then .receiving else .closing }

def notifyWaiters (self : ClientUploads) : ClientUploads :=
  { self with senders := self.senders.map fun sender =>
      { sender with phase := sender.phase.notify } }

/-- The channel goes, with everything that is in it. -/
def strand (self : ClientUploads) (writer : WriterPhase) : ClientUploads :=
  { self with
    writer
    channel := []
    stranded := self.stranded ++ self.writer.taken ++ self.channel }

def readChunk (digest : List UInt8 → String) (self : ClientUploads) (index : ℕ) (sender : Sender)
    (result : Option (List UInt8)) : ClientUploads :=
  match result.map (List.take UPLOAD_CHUNK_BYTES) with
  | none => self.fail index sender
  | some [] =>
      if sender.sent ≠ sender.length then self.fail index sender
      else (self.setPhase index (.finished true)).send (some index)
        (.finishUpload sender.request (digest sender.hashed))
  | some (byte :: bytes) => self.setPhase index (.asking (byte :: bytes))

/-- A chunk that has room is counted into the file, and sent. -/
def sendChunk (self : ClientUploads) (index : ℕ) (sender : Sender) (bytes : List UInt8) :
    ClientUploads :=
  let sender := { sender with
    hashed := sender.hashed ++ bytes, sent := sender.sent + bytes.length, phase := .reading }
  let self := { self with senders := self.senders.set index sender }
  if sender.length < sender.sent then self.fail index sender
  else self.send (some index) (.uploadChunk sender.request bytes)

def step (serde : Serde ClientMessage) (digest : List UInt8 → String) (self : ClientUploads)
    (move : Move) : ClientUploads × List Outgoing :=
  match move with
  | .send message => (self.send none message, [])
  | .pushed index =>
      match self.sending[index]? with
      | none => (self, [])
      | some outgoing =>
          let self := { self with sending := self.sending.eraseIdx index }
          (if self.writer.running then { self with channel := self.channel ++ [outgoing] }
            else { self with stranded := self.stranded ++ [outgoing] }, [])
  | .start request length opened =>
      let sender : Sender := ⟨request, length, 0, [], .reading⟩
      let started := { self with senders := self.senders ++ [sender] }
      (if opened then started else started.fail self.senders.length sender, [])
  | .read index result =>
      match self.senders[index]? with
      | some ⟨request, length, sent, hashed, .reading⟩ =>
          (self.readChunk digest index ⟨request, length, sent, hashed, .reading⟩ result, [])
      | _ => (self, [])
  | .register index =>
      match self.senders[index]? with
      | some ⟨_, _, _, _, .asking bytes⟩ =>
          (self.setPhase index (.waiting bytes .registered false), [])
      | _ => (self, [])
  | .askClosed index =>
      match self.senders[index]? with
      | some ⟨request, length, sent, hashed, .waiting bytes .registered notified⟩ =>
          (if self.window.closed then
              self.fail index ⟨request, length, sent, hashed, .waiting bytes .registered notified⟩
            else self.setPhase index (.waiting bytes .asked notified), [])
      | _ => (self, [])
  | .askQueued index =>
      match self.senders[index]? with
      | some ⟨_, _, _, _, .waiting bytes .asked notified⟩ =>
          (self.setPhase index (if self.window.queued < UPLOAD_WINDOW_BYTES then .cleared bytes
            else .waiting bytes .parked notified), [])
      | _ => (self, [])
  | .wake index =>
      match self.senders[index]? with
      | some ⟨_, _, _, _, .waiting bytes .parked true⟩ => (self.setPhase index (.asking bytes), [])
      | _ => (self, [])
  | .chunk index =>
      match self.senders[index]? with
      | some ⟨request, length, sent, hashed, .cleared bytes⟩ =>
          (self.sendChunk index ⟨request, length, sent, hashed, .cleared bytes⟩ bytes, [])
      | _ => (self, [])
  | .received =>
      match self.writer, self.channel with
      | .receiving, outgoing :: rest =>
          let self := { self with channel := rest }
          match serde.encode outgoing.message with
          | .error _ => (self.settle outgoing true, [])
          | .ok _ => ({ self with writer := .writing outgoing }, [])
      | _, _ => (self, [])
  | .wrote taken =>
      match self.writer with
      | .writing outgoing => (self.settle outgoing taken, if taken then [outgoing] else [])
      | _ => (self, [])
  | .notified =>
      match self.writer with
      | .written alive =>
          ({ self.notifyWaiters with writer := if alive then .receiving else .closing }, [])
      | .closed => (self.notifyWaiters.strand .ended, [])
      | _ => (self, [])
  | .closed =>
      match self.writer with
      | .closing => ({ self with window := self.window.close, writer := .closed }, [])
      | _ => (self, [])
  | .hungUp =>
      -- nobody is left who could send, the `Client` itself included
      if self.dropped ∧ self.writer = .receiving ∧ self.channel = [] ∧ self.sending = [] ∧
          ∀ sender ∈ self.senders, ∃ sent, sender.phase = .finished sent
      then ({ self with writer := .closing }, [])
      else (self, [])
  | .drop => ({ self with dropped := true }, [])
  | .cancelled =>
      (if self.dropped ∧ self.writer.suspended then self.strand .aborted else self, [])

/-! ### What is claimed of every state -/

def bytesOf (messages : List Outgoing) : ℕ := (messages.map Outgoing.bytes).sum

/-- What is neither written nor given up. -/
def outstanding (s : ClientUploads) : List Outgoing :=
  s.sending ++ s.writer.taken ++ s.channel ++ s.stranded

/-- What a streaming sender has queued on its own account. -/
def own (s : ClientUploads) (index : ℕ) : ℕ :=
  bytesOf (s.outstanding.filter fun outgoing => outgoing.owner = some index)

/-- Whether a step is the writer's or moves a counted message on. -/
def Move.draining : Move → Bool
  | .pushed _ | .received | .wrote _ | .notified | .closed => true
  | _ => false

/-- A sender that waits can be notified by steps of the writer and of messages under way. -/
def Wakeable (serde : Serde ClientMessage) (digest : List UInt8 → String) (s : ClientUploads)
    (index : ℕ) (sender : Sender) (bytes : List UInt8) : Prop :=
  ∃ moves, (∀ move ∈ moves, move.draining) ∧
    (exec (step serde digest) s moves).1.senders[index]? =
      some { sender with phase := .waiting bytes .parked true }

/-- The window counts what is outstanding; a sender has little more than a window of it; a writer
that has stopped has closed the window; and every sender that waits can still be notified. -/
structure Accounted (serde : Serde ClientMessage) (digest : List UInt8 → String)
    (s : ClientUploads) : Prop where
  ledger : s.accepted.Perm (s.settled ++ s.outstanding)
  queued : s.window.queued = bytesOf s.outstanding
  own : ∀ index, s.own index ≤ UPLOAD_WINDOW_BYTES + UPLOAD_CHUNK_BYTES
  closed : s.writer.running = false → s.window.closed = true
  woken : ∀ (index : ℕ) sender bytes, s.senders[index]? = some sender →
    sender.phase = .waiting bytes .parked false → Wakeable serde digest s index sender bytes

/-- The writer is never aborted while it waits for a message or for the socket. -/
def Orderly (s : ClientUploads) : Move → Prop
  | .cancelled => ¬ (s.dropped = true ∧ s.writer.suspended = true)
  | _ => True

/-! ### What every step keeps -/

@[simp] theorem bytesOf_nil : bytesOf [] = 0 := rfl

@[simp] theorem bytesOf_cons (outgoing : Outgoing) (messages : List Outgoing) :
    bytesOf (outgoing :: messages) = outgoing.bytes + bytesOf messages := by
  simp [bytesOf]

@[simp] theorem bytesOf_append (messages others : List Outgoing) :
    bytesOf (messages ++ others) = bytesOf messages + bytesOf others := by
  simp [bytesOf]

theorem bytesOf_perm {messages others : List Outgoing} (h : messages.Perm others) :
    bytesOf messages = bytesOf others := (h.map Outgoing.bytes).sum_eq

theorem own_le (s : ClientUploads) (index : ℕ) : s.own index ≤ bytesOf s.outstanding := by
  have hsublist := (s.outstanding.filter_sublist
    (p := fun outgoing => outgoing.owner = some index)).map Outgoing.bytes
  exact hsublist.sum_le_sum fun _ _ => Nat.zero_le _

/-- A sender is where the window lets it be. -/
def Ready (s : ClientUploads) (index : ℕ) : SenderPhase → Prop
  | .asking bytes => bytes.length ≤ UPLOAD_CHUNK_BYTES
  | .waiting bytes stage notified => bytes.length ≤ UPLOAD_CHUNK_BYTES ∧ (notified = false →
      (stage ≠ .registered → s.writer ≠ .ended) ∧
      (stage = .parked → UPLOAD_WINDOW_BYTES ≤ s.window.queued ∨
        ∃ alive, s.writer = .written alive))
  | .cleared bytes => bytes.length ≤ UPLOAD_CHUNK_BYTES ∧ s.own index < UPLOAD_WINDOW_BYTES
  | _ => True

/-- What holds of every state, whether the `Client` is dropped or not. -/
structure Inv (s : ClientUploads) : Prop where
  ledger : s.accepted.Perm (s.settled ++ s.outstanding)
  queued : s.window.queued = bytesOf s.outstanding
  own : ∀ index, s.own index ≤ UPLOAD_WINDOW_BYTES + UPLOAD_CHUNK_BYTES
  ready : ∀ (index : ℕ) sender, s.senders[index]? = some sender → s.Ready index sender.phase
  closed : s.window.closed = true ↔ s.writer = .closed ∨ s.writer = .ended
  stranded : s.writer.running = true → s.stranded = []

variable {index : ℕ}

/-- Less on a sender's account, and no room that nobody is told of, leaves a sender where it may
be. -/
theorem Ready.mono {s s' : ClientUploads} {phase : SenderPhase}
    (hown : ∀ bytes, phase = .cleared bytes → s'.own index ≤ s.own index)
    (hended : s'.writer = .ended → s.writer = .ended)
    (hroom : UPLOAD_WINDOW_BYTES ≤ s.window.queued ∨ (∃ alive, s.writer = .written alive) →
      UPLOAD_WINDOW_BYTES ≤ s'.window.queued ∨ ∃ alive, s'.writer = .written alive)
    (h : s.Ready index phase) : s'.Ready index phase := by
  cases phase with
  | waiting bytes stage notified =>
    obtain ⟨hlength, hwaits⟩ := h
    refine ⟨hlength, fun hnotified => ?_⟩
    obtain ⟨hrunning, hparked⟩ := hwaits hnotified
    constructor
    · exact fun hstage hnow => hrunning hstage (hended hnow)
    · exact fun hstage => hroom (hparked hstage)
  | cleared bytes => exact ⟨h.1, Nat.lt_of_le_of_lt (hown bytes rfl) h.2⟩
  | asking bytes => exact h
  | reading => trivial
  | finished sent => trivial

theorem Ready.notify {s s' : ClientUploads} {phase : SenderPhase}
    (hown : s'.own index ≤ s.own index) (h : s.Ready index phase) :
    s'.Ready index phase.notify := by
  cases phase with
  | waiting bytes stage notified => exact ⟨h.1, nofun⟩
  | cleared bytes => exact ⟨h.1, Nat.lt_of_le_of_lt hown h.2⟩
  | asking bytes => exact h
  | reading => trivial
  | finished sent => trivial

variable {s : ClientUploads}

theorem Inv.withSenders (h : s.Inv) {senders : List Sender}
    (hready : ∀ (index : ℕ) sender, senders[index]? = some sender →
      s.Ready index sender.phase) : ({ s with senders } : ClientUploads).Inv :=
  ⟨h.ledger, h.queued, h.own, hready, h.closed, h.stranded⟩

variable {sender : Sender}

theorem Inv.setSender (h : s.Inv) (hready : s.Ready index sender.phase) :
    ({ s with senders := s.senders.set index sender } : ClientUploads).Inv := by
  refine h.withSenders fun other entry hentry => ?_
  rw [List.getElem?_set] at hentry
  split at hentry
  · next heq =>
    subst heq
    split at hentry
    · obtain rfl := Option.some.inj hentry
      exact hready
    · cases hentry
  · exact h.ready other entry hentry

theorem Inv.setPhase (h : s.Inv) {phase : SenderPhase}
    (hready : s.Ready index phase) : (s.setPhase index phase).Inv := by
  refine h.withSenders fun other entry hentry => ?_
  rw [List.getElem?_modify] at hentry
  obtain ⟨sender, hsender, rfl⟩ := Option.map_eq_some_iff.mp hentry
  by_cases heq : index = other
  · subst heq
    simpa using hready
  · simpa [heq] using h.ready other sender hsender

theorem outstanding_send (s : ClientUploads) (owner : Option ℕ) (message : ClientMessage) :
    (s.send owner message).outstanding.Perm (⟨owner, message⟩ :: s.outstanding) := by
  simp only [outstanding, send, List.append_assoc, List.singleton_append]
  exact List.perm_middle

theorem own_of_perm {s s' : ClientUploads} (added : List Outgoing)
    (h : s'.outstanding.Perm (added ++ s.outstanding)) (index : ℕ) :
    s'.own index =
      bytesOf (added.filter fun outgoing => outgoing.owner = some index) + s.own index := by
  rw [own, bytesOf_perm (h.filter _), List.filter_append, bytesOf_append, own]

/-- **One more message**, which is small or the chunk of a sender that had room. -/
theorem Inv.send (h : s.Inv) {owner : Option ℕ} {message : ClientMessage}
    (hroom : ∀ index, owner = some index → UploadWindow.messageBytes message = 0 ∨
      (UploadWindow.messageBytes message ≤ UPLOAD_CHUNK_BYTES ∧
        s.own index < UPLOAD_WINDOW_BYTES ∧
        ∀ sender bytes, s.senders[index]? = some sender → sender.phase ≠ .cleared bytes)) :
    (s.send owner message).Inv := by
  have hperm := s.outstanding_send owner message
  have hown := own_of_perm [⟨owner, message⟩] hperm
  refine ⟨?_, ?_, fun index => ?_, fun index sender hsender => ?_, h.closed, h.stranded⟩
  · have hledger : (s.accepted ++ [(⟨owner, message⟩ : Outgoing)]).Perm
        (⟨owner, message⟩ :: (s.settled ++ s.outstanding)) :=
      (List.perm_append_singleton _ s.accepted).trans
        (h.ledger.cons _)
    exact hledger.trans (List.perm_middle.symm.trans (hperm.symm.append_left _))
  · rw [bytesOf_perm hperm, bytesOf_cons, ← h.queued]
    exact Nat.add_comm _ _
  · rw [hown]
    by_cases howner : owner = some index
    · rcases hroom index howner with hzero | ⟨hchunk, hwindow, -⟩
      · simpa [howner, Outgoing.bytes, hzero] using h.own index
      · simp only [howner, decide_true, List.filter_cons_of_pos, List.filter_nil, bytesOf_cons,
          Outgoing.bytes, bytesOf_nil]
        omega
    · simpa [howner] using h.own index
  · have hready := h.ready index sender hsender
    refine Ready.mono (s := s) (fun bytes hphase => ?_) (fun hended => hended) ?_ hready
    · rw [hown]
      by_cases howner : owner = some index
      · rcases hroom index howner with hzero | ⟨-, -, hcleared⟩
        · simp [howner, Outgoing.bytes, hzero]
        · exact absurd hphase (hcleared sender bytes hsender)
      · simp [howner]
    · rintro (hfull | hwritten)
      · exact .inl (Nat.le_trans hfull (Nat.le_add_right _ _))
      · exact .inr hwritten

theorem Inv.fail (h : s.Inv) (index : ℕ) (sender : Sender) : (s.fail index sender).Inv := by
  have hset : (s.setPhase index (.finished false)).Inv := h.setPhase trivial
  exact hset.send fun _ _ => .inl rfl

theorem running_of_suspended {writer : WriterPhase} (h : writer.suspended = true) :
    writer.running = true ∧ writer ≠ .ended ∧ writer ≠ .closed ∧
      ¬ ∃ alive, writer = .written alive := by
  cases writer <;> simp_all [WriterPhase.suspended, WriterPhase.running]

theorem settle_writer (s : ClientUploads) (outgoing : Outgoing) (alive : Bool) :
    (s.settle outgoing alive).writer = .written alive ∨ outgoing.bytes = 0 ∧
      ((s.settle outgoing alive).writer = .receiving ∨
        (s.settle outgoing alive).writer = .closing) := by
  simp only [settle]
  split
  · exact .inl rfl
  · refine .inr ⟨by omega, ?_⟩
    cases alive
    · exact .inr rfl
    · exact .inl rfl

/-- **Room given back**: everybody who waited for it is about to be notified. -/
theorem Inv.settle (h : s.Inv) {outgoing : Outgoing} {channel : List Outgoing}
    {alive : Bool} (hsuspended : s.writer.suspended = true)
    (htaken : s.writer.taken ++ s.channel = outgoing :: channel) :
    (({ s with channel } : ClientUploads).settle outgoing alive).Inv := by
  obtain ⟨hrunning, hended, hclosed, hwritten⟩ := running_of_suspended hsuspended
  have hwriter := settle_writer { s with channel } outgoing alive
  generalize hs' : ({ s with channel } : ClientUploads).settle outgoing alive = s' at hwriter
  have hnothing : s'.writer.taken = [] := by
    rcases hwriter with hw | ⟨-, hw | hw⟩ <;> rw [hw] <;> rfl
  have hnext : s'.writer ≠ .closed ∧ s'.writer ≠ .ended := by
    rcases hwriter with hw | ⟨-, hw | hw⟩ <;> rw [hw] <;> exact ⟨nofun, nofun⟩
  have hqueued : s'.window.queued = s.window.queued - outgoing.bytes := by rw [← hs']; rfl
  have hperm : s.outstanding.Perm ([outgoing] ++ s'.outstanding) := by
    have hplaces : s.outstanding = s.sending ++ outgoing :: (channel ++ s.stranded) := by
      simp only [outstanding, List.append_assoc]
      rw [← List.append_assoc s.writer.taken, htaken, List.cons_append]
    have hplaces' : s'.outstanding = s.sending ++ (channel ++ s.stranded) := by
      rw [outstanding, hnothing, ← hs']
      simp [ClientUploads.settle]
    rw [hplaces, hplaces']
    exact List.perm_middle
  have hown (index : ℕ) : s'.own index ≤ s.own index := by
    rw [own_of_perm [outgoing] hperm index]
    exact Nat.le_add_left _ _
  refine ⟨?_, ?_, fun index => ?_, fun index sender hsender => ?_, ?_, fun _ => ?_⟩
  · have hledger := h.ledger.trans (hperm.append_left s.settled)
    rw [← List.append_assoc] at hledger
    rw [← hs'] at hledger ⊢
    exact hledger
  · have htotal := bytesOf_perm hperm
    rw [bytesOf_append, bytesOf_cons, bytesOf_nil, ← h.queued] at htotal
    omega
  · exact Nat.le_trans (hown index) (h.own index)
  · have hready := h.ready index sender (by rw [← hs'] at hsender; exact hsender)
    refine Ready.mono (s := s) (fun _ _ => hown index) (fun h => absurd h hnext.2) ?_ hready
    rintro (hfull | hnow)
    · rcases hwriter with hw | ⟨hzero, -⟩
      · exact .inr ⟨alive, hw⟩
      · exact .inl (by omega)
    · exact absurd hnow hwritten
  · have hopen : s'.window.closed = s.window.closed := by rw [← hs']; rfl
    rw [hopen, h.closed]
    simp [hended, hclosed, hnext]
  · rw [← hs']
    exact h.stranded hrunning

theorem Inv.moved {s s' : ClientUploads} (h : s.Inv)
    (haccepted : s'.accepted = s.accepted) (hsettled : s'.settled = s.settled)
    (hplaces : s'.outstanding.Perm s.outstanding) (hwindow : s'.window.queued = s.window.queued)
    (hready : ∀ (index : ℕ) sender, s'.senders[index]? = some sender →
      s'.Ready index sender.phase)
    (hclosed : s'.window.closed = true ↔ s'.writer = .closed ∨ s'.writer = .ended)
    (hstranded : s'.writer.running = true → s'.stranded = []) : s'.Inv := by
  refine ⟨?_, ?_, fun index => ?_, hready, hclosed, hstranded⟩
  · rw [haccepted, hsettled]
    exact h.ledger.trans (hplaces.symm.append_left _)
  · rw [hwindow, h.queued, bytesOf_perm hplaces]
  · rw [own_of_perm [] hplaces]
    simpa using h.own index

theorem Inv.start (h : s.Inv) (hphase : sender.phase = .reading) :
    ({ s with senders := s.senders ++ [sender] } : ClientUploads).Inv := by
  refine h.withSenders fun index entry hentry => ?_
  rcases Nat.lt_or_ge index s.senders.length with hlt | hge
  · rw [List.getElem?_append_left hlt] at hentry
    exact h.ready index entry hentry
  · rw [List.getElem?_append_right hge] at hentry
    obtain rfl := List.mem_singleton.mp (List.mem_of_getElem? hentry)
    rw [hphase]
    trivial

theorem Inv.readChunk (h : s.Inv) (digest : List UInt8 → String) (index : ℕ)
    (sender : Sender) (result : Option (List UInt8)) :
    (s.readChunk digest index sender result).Inv := by
  rw [ClientUploads.readChunk]
  split
  · exact h.fail index sender
  · split
    · exact h.fail index sender
    · have hset : (s.setPhase index (.finished true)).Inv := h.setPhase trivial
      exact hset.send fun _ _ => .inl rfl
  · next byte bytes hread =>
    obtain ⟨whole, -, htake⟩ := Option.map_eq_some_iff.mp hread
    refine h.setPhase ?_
    change (byte :: bytes).length ≤ UPLOAD_CHUNK_BYTES
    rw [← htake, List.length_take]
    exact Nat.min_le_left _ _

variable {bytes : List UInt8}

theorem Inv.sendChunk (h : s.Inv) (hsender : s.senders[index]? = some sender)
    (hphase : sender.phase = .cleared bytes) : (s.sendChunk index sender bytes).Inv := by
  have hready := h.ready index sender hsender
  rw [hphase] at hready
  obtain ⟨hlength, hroom⟩ := hready
  rw [ClientUploads.sendChunk]
  simp only
  have hset : ({ s with senders := s.senders.set index { sender with
      hashed := sender.hashed ++ bytes
      sent := sender.sent + bytes.length
      phase := .reading } } : ClientUploads).Inv := h.setSender trivial
  split
  · exact hset.fail index _
  · refine hset.send fun other hother => .inr ⟨hlength, ?_, fun entry chunk hentry hcleared => ?_⟩
    · obtain rfl := Option.some.inj hother
      exact hroom
    · obtain rfl := Option.some.inj hother
      rw [List.getElem?_set_self (List.getElem?_eq_some_iff.mp hsender).1] at hentry
      obtain rfl := Option.some.inj hentry
      cases hcleared

theorem ready_notify {s s' : ClientUploads} (h : s.Inv)
    (hsenders : s'.senders = s.notifyWaiters.senders) (hplaces : s'.outstanding.Perm s.outstanding)
    (index : ℕ) (sender : Sender) (hsender : s'.senders[index]? = some sender) :
    s'.Ready index sender.phase := by
  rw [hsenders, notifyWaiters, List.getElem?_map] at hsender
  obtain ⟨entry, hentry, rfl⟩ := Option.map_eq_some_iff.mp hsender
  refine (h.ready index entry hentry).notify ?_
  rw [own_of_perm [] hplaces]
  exact Nat.le_of_eq (Nat.zero_add _)

theorem ready_same {s s' : ClientUploads} (h : s.Inv) (hsenders : s'.senders = s.senders)
    (hplaces : s'.outstanding.Perm s.outstanding) (hqueued : s'.window.queued = s.window.queued)
    (hended : s'.writer = .ended → s.writer = .ended)
    (hwritten : ∀ alive, s.writer = .written alive → s'.writer = .written alive)
    (index : ℕ) (sender : Sender) (hsender : s'.senders[index]? = some sender) :
    s'.Ready index sender.phase := by
  rw [hsenders] at hsender
  refine Ready.mono (s := s) (fun _ _ => ?_) hended ?_ (h.ready index sender hsender)
  · rw [own_of_perm [] hplaces]
    exact Nat.le_of_eq (Nat.zero_add _)
  · rintro (hfull | ⟨alive, hnow⟩)
    · exact .inl (hqueued ▸ hfull)
    · exact .inr ⟨alive, hwritten alive hnow⟩

/-- A writer that was receiving goes on to something else and leaves the window open. -/
theorem Inv.leave {s s' : ClientUploads} (h : s.Inv) (hwriter : s.writer = .receiving)
    (haccepted : s'.accepted = s.accepted) (hsettled : s'.settled = s.settled)
    (hsenders : s'.senders = s.senders) (hplaces : s'.outstanding.Perm s.outstanding)
    (hwindow : s'.window = s.window) (hstranded : s'.stranded = s.stranded)
    (hopen : ¬(s'.writer = .closed ∨ s'.writer = .ended)) : s'.Inv := by
  have hclosed := h.closed
  rw [hwriter, ← hwindow] at hclosed
  refine h.moved haccepted hsettled hplaces (by rw [hwindow]) ?_
    (hclosed.trans (iff_of_false (by simp) hopen)) fun _ => ?_
  · exact ready_same h hsenders hplaces (by rw [hwindow]) (fun hended => absurd (.inr hended) hopen)
      fun alive hwritten => by
        rw [hwriter] at hwritten
        cases hwritten
  · rw [hstranded]
    exact h.stranded (by rw [hwriter]; rfl)

theorem outstanding_strand (s : ClientUploads) {writer : WriterPhase} (h : writer.taken = []) :
    (s.strand writer).outstanding.Perm s.outstanding := by
  simp only [outstanding, strand, h, List.append_nil, List.append_assoc]
  refine List.Perm.append_left _ ?_
  rw [← List.append_assoc s.writer.taken]
  exact List.perm_append_comm.trans (by rw [List.append_assoc])

/-- **Every step keeps the invariant.** -/
theorem Inv.step (h : s.Inv) (serde : Serde ClientMessage)
    (digest : List UInt8 → String) (move : Move) : (s.step serde digest move).1.Inv := by
  cases move with
  | send message => exact h.send nofun
  | pushed index =>
    simp only [ClientUploads.step]
    split
    · exact h
    · next outgoing houtgoing =>
      obtain ⟨hlt, rfl⟩ := List.getElem?_eq_some_iff.mp houtgoing
      have herase := List.getElem_cons_eraseIdx_perm hlt
      split
      · next hrunning =>
        have hplaces : (s.sending.eraseIdx index ++ s.writer.taken ++
            (s.channel ++ [s.sending[index]]) ++ s.stranded).Perm s.outstanding := by
          refine List.Perm.append_right _ ?_
          rw [← List.append_assoc]
          refine (List.perm_append_singleton _ _).trans ?_
          rw [← List.cons_append, ← List.cons_append]
          exact (herase.append_right _).append_right _
        refine h.moved rfl rfl hplaces rfl ?_ h.closed h.stranded
        exact ready_same h rfl hplaces rfl (fun hended => hended) fun _ hwritten => hwritten
      · next hstopped =>
        have hplaces : (s.sending.eraseIdx index ++ s.writer.taken ++ s.channel ++
            (s.stranded ++ [s.sending[index]])).Perm s.outstanding := by
          rw [← List.append_assoc]
          refine (List.perm_append_singleton _ _).trans ?_
          rw [← List.cons_append, ← List.cons_append, ← List.cons_append]
          exact ((herase.append_right _).append_right _).append_right _
        refine h.moved rfl rfl hplaces rfl ?_ h.closed fun hrunning => absurd hrunning hstopped
        exact ready_same h rfl hplaces rfl (fun hended => hended) fun _ hwritten => hwritten
  | start request length opened =>
    simp only [ClientUploads.step]
    split
    · exact h.start rfl
    · exact (h.start rfl).fail _ _
  | read index result =>
    simp only [ClientUploads.step]
    split
    · exact h.readChunk digest index _ result
    · exact h
  | register index =>
    simp only [ClientUploads.step]
    split
    · next hsender => exact h.setPhase ⟨(h.ready index _ hsender), fun _ => ⟨nofun, nofun⟩⟩
    · exact h
  | askClosed index =>
    simp only [ClientUploads.step]
    split
    · next hsender =>
      split
      · exact h.fail index _
      · next hopen =>
        refine h.setPhase ⟨(h.ready index _ hsender).1, fun _ => ⟨fun _ hended => ?_, nofun⟩⟩
        exact hopen (h.closed.mpr (.inr hended))
    · exact h
  | askQueued index =>
    simp only [ClientUploads.step]
    split
    · next hsender =>
      obtain ⟨hlength, hwaits⟩ := h.ready index _ hsender
      refine h.setPhase ?_
      split
      · next hroom =>
        refine ⟨hlength, Nat.lt_of_le_of_lt (own_le s index) ?_⟩
        rw [← h.queued]
        exact hroom
      · next hfull =>
        refine ⟨hlength, fun hnotified => ⟨fun _ => (hwaits hnotified).1 nofun, fun _ => ?_⟩⟩
        exact .inl (Nat.le_of_not_lt hfull)
    · exact h
  | wake index =>
    simp only [ClientUploads.step]
    split
    · next hsender => exact h.setPhase (h.ready index _ hsender).1
    · exact h
  | chunk index =>
    simp only [ClientUploads.step]
    split
    · next hsender => exact h.sendChunk hsender rfl
    · exact h
  | received =>
    simp only [ClientUploads.step]
    split
    · next outgoing rest hwriter hchannel =>
      have htaken : s.writer.taken ++ s.channel = outgoing :: rest := by rw [hwriter, hchannel]; rfl
      split
      · exact h.settle (by rw [hwriter]; rfl) htaken
      · have hplaces : (s.sending ++ [outgoing] ++ rest ++ s.stranded).Perm s.outstanding := by
          rw [outstanding, List.append_assoc s.sending s.writer.taken, htaken, List.append_assoc
            s.sending]
          exact List.Perm.refl _
        exact h.leave hwriter rfl rfl rfl hplaces rfl rfl (by simp)
    · exact h
  | wrote taken =>
    simp only [ClientUploads.step]
    split
    · next outgoing hwriter =>
      exact Inv.settle h (by rw [hwriter]; rfl) (by rw [hwriter]; rfl)
    · exact h
  | notified =>
    simp only [ClientUploads.step]
    split
    · next alive hwriter =>
      have hplaces : ({ s.notifyWaiters with
          writer := if alive then .receiving else .closing } : ClientUploads).outstanding.Perm
          s.outstanding := by
        rw [outstanding, outstanding, hwriter]
        cases alive <;> exact List.Perm.refl _
      have hclosed := h.closed
      rw [hwriter] at hclosed
      refine h.moved rfl rfl hplaces rfl ?_ (hclosed.trans ?_) fun _ =>
        h.stranded (by rw [hwriter]; rfl)
      · exact ready_notify h rfl hplaces
      · cases alive <;> simp
    · next hwriter =>
      have hplaces : (s.notifyWaiters.strand .ended).outstanding.Perm s.outstanding :=
        outstanding_strand s.notifyWaiters rfl
      refine h.moved rfl rfl hplaces rfl (ready_notify h rfl hplaces) ?_ nofun
      exact ⟨fun _ => .inr rfl, fun _ => h.closed.mpr (.inl hwriter)⟩
    · exact h
  | closed =>
    simp only [ClientUploads.step]
    split
    · next hwriter =>
      have hplaces : ({ s with window := s.window.close, writer := .closed } :
          ClientUploads).outstanding.Perm s.outstanding := by
        rw [outstanding, outstanding, hwriter]
        exact List.Perm.refl _
      refine h.moved rfl rfl hplaces rfl ?_ ⟨fun _ => .inl rfl, fun _ => rfl⟩ fun _ =>
        h.stranded (by rw [hwriter]; rfl)
      exact ready_same h rfl hplaces rfl nofun fun alive hwritten => by
        rw [hwriter] at hwritten
        cases hwritten
    · exact h
  | hungUp =>
    simp only [ClientUploads.step]
    split
    · next hgone =>
      obtain ⟨-, hwriter, -⟩ := hgone
      have hplaces : ({ s with writer := .closing } : ClientUploads).outstanding.Perm
          s.outstanding := by
        rw [outstanding, outstanding, hwriter]
        exact List.Perm.refl _
      exact h.leave hwriter rfl rfl rfl hplaces rfl rfl (by simp)
    · exact h
  | drop => exact ⟨h.ledger, h.queued, h.own, h.ready, h.closed, h.stranded⟩
  | cancelled =>
    simp only [ClientUploads.step]
    split
    · next habort =>
      obtain ⟨-, hended, hclosed, hwritten⟩ := running_of_suspended habort.2
      have hplaces : (s.strand .aborted).outstanding.Perm s.outstanding :=
        outstanding_strand s rfl
      refine h.moved rfl rfl hplaces rfl ?_ (h.closed.trans ?_) nofun
      · exact ready_same h rfl hplaces rfl nofun fun alive hnow => absurd ⟨alive, hnow⟩ hwritten
      · exact iff_of_false (not_or.mpr ⟨hclosed, hended⟩) (not_or.mpr ⟨nofun, nofun⟩)
    · exact h

theorem inv_default : default.Inv := by
  refine ⟨List.Perm.refl _, rfl, fun index => Nat.zero_le _, fun index sender hsender => ?_, ?_,
    fun _ => rfl⟩
  · simp [default] at hsender
  · simp [default]

variable (serde : Serde ClientMessage)

theorem inv_exec (digest : List UInt8 → String) (moves : List Move) :
    (exec (step serde digest) default moves).1.Inv :=
  exec_invariant (fun _ move h => h.step serde digest move) inv_default moves

/-! ### Who waits can be notified -/

section Waking

variable {serde : Serde ClientMessage} {digest : List UInt8 → String} {s : ClientUploads}
  {index : ℕ} {sender : Sender} {bytes : List UInt8}

theorem Wakeable.cons (move : Move) (hmove : move.draining)
    (h : Wakeable serde digest (s.step serde digest move).1 index sender bytes) :
    Wakeable serde digest s index sender bytes := by
  obtain ⟨moves, hmoves, hwoken⟩ := h
  refine ⟨move :: moves, List.forall_mem_cons.mpr ⟨hmove, hmoves⟩, ?_⟩
  rw [exec_cons]
  exact hwoken

theorem wakeable_of_notifying (hsender : s.senders[index]? = some sender)
    (hphase : sender.phase = .waiting bytes .parked false)
    (hwriter : (∃ alive, s.writer = .written alive) ∨ s.writer = .closed) :
    Wakeable serde digest s index sender bytes := by
  have hnotified : s.notifyWaiters.senders[index]? =
      some { sender with phase := .waiting bytes .parked true } := by
    rw [notifyWaiters, List.getElem?_map, hsender, Option.map_some, hphase]
    rfl
  refine ⟨[.notified], by decide, ?_⟩
  rw [exec_singleton]
  rcases hwriter with ⟨alive, hwriter⟩ | hwriter
  · simpa only [step, hwriter] using hnotified
  · simpa only [step, hwriter, strand] using hnotified

theorem wakeable_of_closing (hsender : s.senders[index]? = some sender)
    (hphase : sender.phase = .waiting bytes .parked false) (hwriter : s.writer = .closing) :
    Wakeable serde digest s index sender bytes := by
  refine Wakeable.cons .closed rfl ?_
  simp only [step, hwriter]
  exact wakeable_of_notifying hsender hphase (.inr rfl)

theorem wakeable_of_settle {outgoing : Outgoing} (hsender : s.senders[index]? = some sender)
    (hphase : sender.phase = .waiting bytes .parked false)
    (hfree : outgoing.bytes = 0 → (s.settle outgoing true).writer = .receiving →
      Wakeable serde digest (s.settle outgoing true) index sender bytes) :
    Wakeable serde digest (s.settle outgoing true) index sender bytes := by
  rcases settle_writer s outgoing true with hwriter | ⟨hzero, hwriter | hwriter⟩
  · exact wakeable_of_notifying hsender hphase (.inl ⟨true, hwriter⟩)
  · exact hfree hzero hwriter
  · exact wakeable_of_closing hsender hphase hwriter

/-- A message with bytes is in the channel and the writer is free: it comes to that message, and
gives its room back. -/
theorem wakeable_of_channel (hsender : s.senders[index]? = some sender)
    (hphase : sender.phase = .waiting bytes .parked false) (hwriter : s.writer = .receiving)
    (hchannel : 0 < bytesOf s.channel) : Wakeable serde digest s index sender bytes := by
  generalize hlist : s.channel = channel at hchannel
  induction channel generalizing s with
  | nil => simp at hchannel
  | cons outgoing rest ih =>
    have hsettled (t : ClientUploads) (hsame : t.senders = s.senders) (hrest : t.channel = rest) :
        Wakeable serde digest (t.settle outgoing true) index sender bytes := by
      rw [← hsame] at hsender
      refine wakeable_of_settle hsender hphase fun hzero hfree => ih hsender hfree hrest ?_
      rw [bytesOf_cons, hzero] at hchannel
      omega
    refine Wakeable.cons .received rfl ?_
    simp only [step, hwriter, hlist]
    split
    · exact hsettled _ rfl rfl
    · refine Wakeable.cons (.wrote true) rfl ?_
      simp only [step]
      exact hsettled _ rfl rfl

/-- A message with bytes is on its way and the writer runs. -/
theorem wakeable_of_outstanding (hsender : s.senders[index]? = some sender)
    (hphase : sender.phase = .waiting bytes .parked false) (hwriter : s.writer.suspended = true)
    (hbytes : 0 < bytesOf s.sending + bytesOf s.writer.taken + bytesOf s.channel) :
    Wakeable serde digest s index sender bytes := by
  generalize hlist : s.sending = sending at hbytes
  induction sending generalizing s with
  | nil =>
    rw [bytesOf_nil] at hbytes
    cases hnow : s.writer with
    | receiving =>
      rw [hnow] at hbytes
      exact wakeable_of_channel hsender hphase hnow (by simpa [WriterPhase.taken] using hbytes)
    | writing outgoing =>
      refine Wakeable.cons (.wrote true) rfl ?_
      simp only [step, hnow]
      refine wakeable_of_settle hsender hphase fun hzero hfree => ?_
      refine wakeable_of_channel hsender hphase hfree ?_
      rw [hnow] at hbytes
      simpa [WriterPhase.taken, hzero, settle] using hbytes
    | _ => simp [hnow, WriterPhase.suspended] at hwriter
  | cons outgoing rest ih =>
    obtain ⟨hrunning, -⟩ := running_of_suspended hwriter
    refine Wakeable.cons (.pushed 0) rfl ?_
    simp only [step, hlist, List.getElem?_cons_zero, hrunning, if_pos]
    refine ih hsender hwriter rfl ?_
    simp only [bytesOf_cons, bytesOf_append, bytesOf_nil] at hbytes ⊢
    omega

end Waking

theorem Inv.wakeable (h : s.Inv) (hwriter : s.writer ≠ .aborted)
    {serde : Serde ClientMessage} {digest : List UInt8 → String}
    (hsender : s.senders[index]? = some sender)
    (hphase : sender.phase = .waiting bytes .parked false) :
    Wakeable serde digest s index sender bytes := by
  have hready := h.ready index sender hsender
  rw [hphase] at hready
  obtain ⟨hended, hroom⟩ := hready.2 rfl
  have hfull (hsuspended : s.writer.suspended = true) :
      Wakeable serde digest s index sender bytes := by
    obtain ⟨hrunning, -, -, hwritten⟩ := running_of_suspended hsuspended
    have hqueued := (hroom rfl).resolve_right hwritten
    rw [h.queued, outstanding, h.stranded hrunning] at hqueued
    simp only [bytesOf_append, bytesOf_nil, UPLOAD_WINDOW_BYTES] at hqueued
    exact wakeable_of_outstanding hsender hphase hsuspended (by omega)
  cases hnow : s.writer with
  | receiving => exact hfull (by rw [hnow]; rfl)
  | writing outgoing => exact hfull (by rw [hnow]; rfl)
  | written alive => exact wakeable_of_notifying hsender hphase (.inl ⟨alive, hnow⟩)
  | closing => exact wakeable_of_closing hsender hphase hnow
  | closed => exact wakeable_of_notifying hsender hphase (.inr hnow)
  | ended => exact absurd hnow (hended nofun)
  | aborted => exact absurd hnow hwriter

theorem Inv.accounted (h : s.Inv) (hwriter : s.writer ≠ .aborted)
    (serde : Serde ClientMessage) (digest : List UInt8 → String) : Accounted serde digest s := by
  refine ⟨h.ledger, h.queued, h.own, fun hstopped => ?_, fun index sender bytes hsender hphase =>
    h.wakeable hwriter hsender hphase⟩
  refine h.closed.mpr (.inr ?_)
  cases hnow : s.writer with
  | ended => rfl
  | aborted => exact absurd hnow hwriter
  | _ =>
    rw [hnow] at hstopped
    cases hstopped

theorem Accounted.writer_ne (h : s.Inv) {serde : Serde ClientMessage}
    {digest : List UInt8 → String} (haccounted : Accounted serde digest s) :
    s.writer ≠ .aborted := by
  intro hnow
  have hclosed := h.closed.mp (haccounted.closed (by rw [hnow]; rfl))
  rw [hnow] at hclosed
  rcases hclosed with hclosed | hclosed <;> cases hclosed

theorem readChunk_writer (s : ClientUploads) (digest : List UInt8 → String) (index : ℕ)
    (sender : Sender) (result : Option (List UInt8)) :
    (s.readChunk digest index sender result).writer = s.writer := by
  rw [readChunk]
  split
  · rfl
  · split <;> rfl
  · rfl

theorem sendChunk_writer (s : ClientUploads) (index : ℕ) (sender : Sender) (bytes : List UInt8) :
    (s.sendChunk index sender bytes).writer = s.writer := by
  simp only [sendChunk]
  split <;> rfl

theorem settle_ne_aborted (s : ClientUploads) (outgoing : Outgoing) (alive : Bool) :
    (s.settle outgoing alive).writer ≠ .aborted := by
  rcases s.settle_writer outgoing alive with hwriter | ⟨-, hwriter | hwriter⟩ <;> rw [hwriter] <;>
    nofun

/-- Only carrying the abort out stops the writer where it waits. -/
theorem step_aborted (digest : List UInt8 → String) {move : Move} (horderly : s.Orderly move)
    (h : s.writer ≠ .aborted) :
    (s.step serde digest move).1.writer ≠ .aborted := by
  cases move with
  | send message => exact h
  | drop => exact h
  | start request length opened =>
    simp only [step]
    split <;> exact h
  | read index result =>
    simp only [step]
    split
    · rw [readChunk_writer]
      exact h
    · exact h
  | chunk index =>
    simp only [step]
    split
    · rw [sendChunk_writer]
      exact h
    · exact h
  | received =>
    simp only [step]
    split
    · split
      · exact settle_ne_aborted _ _ _
      · exact nofun
    · exact h
  | wrote taken =>
    simp only [step]
    split
    · exact settle_ne_aborted _ _ _
    · exact h
  | notified =>
    simp only [step]
    split
    · next alive _ => cases alive <;> exact nofun
    · exact nofun
    · exact h
  | cancelled =>
    simp only [step, if_neg horderly]
    exact h
  | askClosed index =>
    simp only [step]
    split
    · split <;> exact h
    · exact h
  | pushed index =>
    simp only [step]
    split
    · exact h
    · split <;> exact h
  | _ =>
    simp only [step]
    split
    · first | exact h | exact nofun
    · exact h

/-- **The upload window** accounts for what is queued, and wakes whoever waits for it, in exactly
the runs in which the writer is not aborted. -/
theorem upload_window_accounted (serde : Serde ClientMessage) (digest : List UInt8 → String)
    (moves : List Move) :
    AllStates (step serde digest) (Accounted serde digest) default moves ↔
      AllSteps (step serde digest) Orderly default moves := by
  refine allStates_iff_allSteps (I := Inv) (P := Accounted serde digest) (G := Orderly)
    (fun s move h => h.step serde digest move) (fun s move h haccounted horderly => ?_)
    (fun s move h haccounted hnext => ?_) inv_default (inv_default.accounted nofun serde digest)
    moves
  · have hwriter := step_aborted serde digest horderly (haccounted.writer_ne h)
    exact (h.step serde digest move).accounted hwriter serde digest
  · cases move with
    | cancelled =>
      intro habort
      refine hnext.writer_ne (h.step serde digest .cancelled) ?_
      simp only [step, habort, and_self, if_true, strand]
    | _ => trivial

/-! ### A client that is dropped -/

theorem ne_of_phase {senders : List Sender} {index other : ℕ} {sender entry : Sender}
    (hsender : senders[index]? = some sender) (hentry : senders[other]? = some entry)
    (hphase : entry.phase ≠ sender.phase) : other ≠ index := by
  rintro rfl
  rw [hsender] at hentry
  exact hphase (by rw [Option.some.inj hentry])

theorem getElem?_setPhase (s : ClientUploads) {index other : ℕ} (h : other ≠ index)
    (phase : SenderPhase) : (s.setPhase other phase).senders[index]? = s.senders[index]? := by
  simp [setPhase, h]

theorem getElem?_readChunk (s : ClientUploads) (digest : List UInt8 → String) {index other : ℕ}
    (h : other ≠ index) (sender : Sender) (result : Option (List UInt8)) :
    (s.readChunk digest other sender result).senders[index]? = s.senders[index]? := by
  rw [readChunk]
  split
  · exact s.getElem?_setPhase h _
  · split <;> exact s.getElem?_setPhase h _
  · exact s.getElem?_setPhase h _

theorem getElem?_sendChunk (s : ClientUploads) {index other : ℕ} (h : other ≠ index)
    (sender : Sender) (bytes : List UInt8) :
    (s.sendChunk other sender bytes).senders[index]? = s.senders[index]? := by
  simp only [sendChunk]
  split
  · refine (getElem?_setPhase _ h _).trans ?_
    exact List.getElem?_set_ne h
  · exact List.getElem?_set_ne h

/-- Once the writer is aborted, no step reaches a sender that waits. -/
theorem step_waits (digest : List UInt8 → String)
    (hphase : sender.phase = .waiting bytes .parked false) (move : Move)
    (hwriter : s.writer = .aborted) (hsender : s.senders[index]? = some sender) :
    (s.step serde digest move).1.writer = .aborted ∧
      (s.step serde digest move).1.senders[index]? = some sender := by
  have hother {other : ℕ} {entry : Sender} (hentry : s.senders[other]? = some entry)
      (hne : entry.phase ≠ .waiting bytes .parked false) : other ≠ index :=
    ne_of_phase hsender hentry (hphase ▸ hne)
  cases move with
  | send message => exact ⟨hwriter, hsender⟩
  | drop => exact ⟨hwriter, hsender⟩
  | pushed other =>
    simp only [step]
    split
    · exact ⟨hwriter, hsender⟩
    · split <;> exact ⟨hwriter, hsender⟩
  | start request length opened =>
    have hkept (entry : Sender) : (s.senders ++ [entry])[index]? = some sender := by
      rw [List.getElem?_append_left (List.getElem?_eq_some_iff.mp hsender).1, hsender]
    have hne : s.senders.length ≠ index :=
      (Nat.ne_of_lt (List.getElem?_eq_some_iff.mp hsender).1).symm
    simp only [step]
    split
    · exact ⟨hwriter, hkept _⟩
    · exact ⟨hwriter, (getElem?_setPhase _ hne _).trans (hkept _)⟩
  | read other result =>
    simp only [step]
    split
    · next hentry =>
      rw [readChunk_writer, getElem?_readChunk s digest (hother hentry nofun)]
      exact ⟨hwriter, hsender⟩
    · exact ⟨hwriter, hsender⟩
  | askClosed other =>
    simp only [step]
    split
    · next hentry =>
      have hne := hother hentry nofun
      split
      · exact ⟨hwriter, (s.getElem?_setPhase hne _).trans hsender⟩
      · exact ⟨hwriter, (s.getElem?_setPhase hne _).trans hsender⟩
    · exact ⟨hwriter, hsender⟩
  | register other | askQueued other | wake other =>
    simp only [step]
    split
    · next hentry => exact ⟨hwriter, (s.getElem?_setPhase (hother hentry nofun) _).trans hsender⟩
    · exact ⟨hwriter, hsender⟩
  | chunk other =>
    simp only [step]
    split
    · next hentry =>
      rw [sendChunk_writer, getElem?_sendChunk s (hother hentry nofun)]
      exact ⟨hwriter, hsender⟩
    · exact ⟨hwriter, hsender⟩
  | received | wrote taken | notified | closed =>
    simp only [step, hwriter]
    exact ⟨trivial, hsender⟩
  | hungUp =>
    rw [step, if_neg (by simp [hwriter])]
    exact ⟨hwriter, hsender⟩
  | cancelled =>
    rw [step, if_neg (by simp [hwriter, WriterPhase.suspended])]
    exact ⟨hwriter, hsender⟩

/-- **Nothing wakes a sender once the writer is aborted**: it waits for ever. -/
theorem waits_for_ever (digest : List UInt8 → String)
    (hwriter : s.writer = .aborted) (hsender : s.senders[index]? = some sender)
    (hphase : sender.phase = .waiting bytes .parked false) (moves : List Move) :
    (exec (step serde digest) s moves).1.senders[index]? = some sender := by
  refine (exec_invariant
    (I := fun s : ClientUploads => s.writer = .aborted ∧ s.senders[index]? = some sender)
    (fun s move h => ?_) ⟨hwriter, hsender⟩ moves).2
  exact step_waits serde digest hphase move h.1 h.2

/-- A clipboard waits for the socket, a file is streamed behind it, and the `Client` is dropped. -/
def leaving (clipboard : List UInt8) : List Move :=
  [.send (.uploadChunk 1 clipboard), .start 2 1 true, .read 0 (some [7]), .register 0, .askClosed 0,
    .askQueued 0, .drop, .cancelled]

theorem leaving_end {clipboard : List UInt8} (h : clipboard.length = UPLOAD_WINDOW_BYTES) :
    (exec (step subscribing fun _ => "") default (leaving clipboard)).1.writer = .aborted ∧
      (exec (step subscribing fun _ => "") default (leaving clipboard)).1.senders =
        [⟨2, 1, 0, [], .waiting [7] .parked false⟩] := by
  simp [leaving, step, default, ClientUploads.send, readChunk, setPhase, strand,
    UPLOAD_CHUNK_BYTES, UploadWindow.messageBytes, UploadWindow.enqueued, h, WriterPhase.suspended]

theorem waits_of_leaving {clipboard : List UInt8} (h : clipboard.length = UPLOAD_WINDOW_BYTES) :
    ¬ AllStates (step subscribing fun _ => "") (Accounted subscribing fun _ => "") default
        (leaving clipboard) ∧
      ∀ moves, (exec (step subscribing fun _ => "") default
        (leaving clipboard ++ moves)).1.senders[0]? =
          some ⟨2, 1, 0, [], .waiting [7] .parked false⟩ := by
  obtain ⟨hwriter, hsenders⟩ := leaving_end h
  constructor
  · intro hall
    exact hall.last.writer_ne (inv_exec subscribing _ (leaving clipboard)) hwriter
  · intro moves
    rw [exec_append]
    refine waits_for_ever subscribing _ hwriter ?_ rfl moves
    rw [hsenders]
    rfl

/-- With a window's worth of a clipboard before it, the stream waits in the end, and nothing that
can still happen wakes it. -/
theorem leaving_waits_for_ever :
    ¬ AllStates (step subscribing fun _ => "") (Accounted subscribing fun _ => "") default
        (leaving (List.replicate UPLOAD_WINDOW_BYTES 0)) ∧
      ∀ moves, (exec (step subscribing fun _ => "") default
        (leaving (List.replicate UPLOAD_WINDOW_BYTES 0) ++ moves)).1.senders[0]? =
          some ⟨2, 1, 0, [], .waiting [7] .parked false⟩ :=
  waits_of_leaving List.length_replicate

end ClientUploads

end SuperHerdr
