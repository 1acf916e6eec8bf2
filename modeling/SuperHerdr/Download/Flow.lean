import SuperHerdr.Download.Download
import SuperHerdr.Library.Transducer

/-!
# Flow control between a download and the terminal

`Fetch` puts the task of one download together with the terminal that asked for it: the messages
on their way to the terminal, the requests on their way to the daemon, and the daemon's entry for
the download, which goes when the loop hears that the task is over. Either side, and either
direction, goes on at its own pace.

The terminal's window is what it still expects: a chunk on its way, a grant on its way, or credit
the task has not spent. No grant is lost to the clamp, because at most one is out at a time and it
is never larger than the clamp. One grant can be lost all the same: a download of an empty file
is over as soon as it was offered, and the grant that answers the offer finds nothing to grant
to.
-/

namespace SuperHerdr

open Transducer

/-! ### What is on its way -/

/-- The bytes of a chunk. -/
def ServerMessage.payload : ServerMessage → List UInt8
  | .downloadChunk _ bytes => bytes
  | _ => []

def ServerMessage.isChunk : ServerMessage → Bool
  | .downloadChunk _ _ => true
  | _ => false

/-- The chunks a request grants. -/
def ClientMessage.pulls : ClientMessage → Option ℕ
  | .pullDownload _ chunks => some chunks
  | _ => none

/-- How many of some messages are chunks. -/
def chunkCount (messages : List ServerMessage) : ℕ := messages.countP ServerMessage.isChunk

/-- The bytes that some messages carry together. -/
def payloads (messages : List ServerMessage) : List UInt8 :=
  messages.flatMap ServerMessage.payload

@[simp] theorem chunkCount_nil : chunkCount [] = 0 := rfl

@[simp] theorem chunkCount_append (messages more : List ServerMessage) :
    chunkCount (messages ++ more) = chunkCount messages + chunkCount more :=
  List.countP_append ..

theorem chunkCount_cons (message : ServerMessage) (messages : List ServerMessage) :
    chunkCount (message :: messages) =
      chunkCount messages + if message.isChunk then 1 else 0 :=
  List.countP_cons

@[simp] theorem payloads_nil : payloads [] = [] := rfl

@[simp] theorem payloads_append (messages more : List ServerMessage) :
    payloads (messages ++ more) = payloads messages ++ payloads more :=
  List.flatMap_append ..

@[simp] theorem payloads_cons (message : ServerMessage) (messages : List ServerMessage) :
    payloads (message :: messages) = message.payload ++ payloads messages :=
  List.flatMap_cons

theorem ServerMessage.isChunk_eq_false {message : ServerMessage}
    (h : ∀ request bytes, message ≠ .downloadChunk request bytes) : message.isChunk = false := by
  unfold ServerMessage.isChunk
  split
  · next request bytes => exact absurd rfl (h request bytes)
  · rfl

theorem ServerMessage.payload_of_isChunk {message : ServerMessage} (h : message.isChunk = false) :
    message.payload = [] := by
  unfold ServerMessage.payload
  split
  · cases h
  · rfl

theorem payloads_of_chunkCount {messages : List ServerMessage} (h : chunkCount messages = 0) :
    payloads messages = [] := by
  refine List.flatMap_eq_nil_iff.mpr fun message hmem => message.payload_of_isChunk ?_
  exact Bool.eq_false_iff.mpr (List.countP_eq_zero.mp h message hmem)

/-! ### The composition -/

/-- The terminal's side of a download. -/
inductive Saver
  /-- The file was asked for and not yet offered. -/
  | waiting
  | saving (save : FileSave)
  | saved (outcome : Except String Unit)
  /-- The save was cancelled, or failed on this side. -/
  | gaveUp

structure Fetch where
  download : Download
  /-- Whether the daemon has an entry for the download. -/
  registered : Bool
  /-- Sent to the terminal and not yet taken by it. -/
  inbox : List ServerMessage
  /-- Sent by the terminal and not yet taken by the daemon's loop. -/
  requests : List ClientMessage
  saver : Saver

namespace Fetch

/-- A download that was just begun. -/
def new (request : ℕ) : Fetch := ⟨Download.new request, true, [], [], .waiting⟩

/-- The daemon sends messages to the terminal. -/
def send (s : Fetch) (messages : List ServerMessage) : Fetch × List ServerMessage :=
  ({ s with inbox := s.inbox ++ messages }, messages)

/-- The task takes a turn. -/
def turn (s : Fetch) (answer : HostAnswer) : Fetch × List ServerMessage :=
  let (download, messages) := s.download.turn answer
  { s with download }.send messages

/-- Let a download send more. -/
def pullDownload (s : Fetch) (chunks : ℕ) : Fetch × List ServerMessage :=
  if s.registered then ({ s with download := s.download.grant chunks }, [])
  else s.send [.error (some s.download.request) "no file is being read"]

def stopDownload (s : Fetch) : Fetch :=
  if s.registered then { s with registered := false, download := s.download.stop } else s

/-- The daemon's loop takes the terminal's next request. -/
def take (s : Fetch) : Fetch × List ServerMessage :=
  match s.requests with
  | [] => (s, [])
  | request :: requests =>
      let s := { s with requests }
      match request with
      | .pullDownload _ chunks => s.pullDownload chunks
      | .cancelDownload _ => (s.stopDownload, [])
      | _ => (s, [])

/-- The daemon's loop hears that the task is over. -/
def downloadEnded (s : Fetch) : Fetch :=
  if s.download.ended then { s with registered := false } else s

def pull (s : Fetch) (chunks : ℕ) : Fetch :=
  { s with requests := s.requests ++ [.pullDownload s.download.request chunks] }

/-- The terminal gives up, and has the daemon stop reading as well. -/
def giveUp (s : Fetch) : Fetch :=
  { s with
    saver := .gaveUp
    requests := s.requests ++ [.cancelDownload s.download.request] }

/-- The caller does what a save asks it to. -/
def proceed (s : Fetch) (save : FileSave) (progress : SaveProgress) : Fetch :=
  let s := { s with saver := .saving save }
  match progress with
  | .pull chunks => s.pull chunks
  | .waiting => s

/-- What the terminal's machine does: whether the save can begin, whether a chunk is written, and
what putting the file into its place comes to. -/
structure Machine where
  begins : Bool
  writes : Bool
  stored : Except String Unit

/-- The terminal takes the next message. -/
def receive (sha256 : List UInt8 → String) (s : Fetch) (machine : Machine) : Fetch :=
  match s.inbox with
  | [] => s
  | message :: inbox =>
      let s := { s with inbox }
      match s.saver, message with
      | .waiting, .downloadOffer _ _ length digest =>
          if machine.begins then
            let (save, progress) := (FileSave.new length digest).start
            s.proceed save progress
          else s.giveUp
      | .saving save, .downloadChunk _ bytes =>
          match save.chunk machine.writes bytes with
          | .ok (save, progress) => s.proceed save progress
          | .error _ => s.giveUp
      | .saving save, .downloadFinished _ =>
          { s with saver := .saved (save.finish sha256 machine.stored) }
      | _, _ => s

/-- One step of the task, the daemon's loop or the terminal. -/
inductive Move
  | turn (answer : HostAnswer)
  | taken
  | downloadEnded
  | received (machine : Machine)
  /-- The user cancels the transfer. -/
  | cancelled

def step (sha256 : List UInt8 → String) (s : Fetch) (move : Move) : Fetch × List ServerMessage :=
  match move with
  | .turn answer => s.turn answer
  | .taken => s.take
  | .downloadEnded => (s.downloadEnded, [])
  | .received machine => (s.receive sha256 machine, [])
  | .cancelled =>
      match s.saver with
      | .waiting | .saving _ => (s.giveUp, [])
      | .saved _ | .gaveUp => (s, [])

/-- The grants on their way: asked for and not passed on, or passed on and not taken. -/
def grants (s : Fetch) : List ℕ :=
  s.download.granted ++ s.requests.filterMap ClientMessage.pulls

/-! ### The window -/

/-- While the terminal waits for the offer, nothing was granted and nothing sent. -/
structure Idle (s : Fetch) : Prop where
  requests : s.requests = []
  granted : s.download.granted = []
  credit : s.download.credit = 0
  sent : s.download.sent = 0
  empty : chunkCount s.inbox = 0
  /-- A file that was opened is on offer. -/
  offered : ∀ source, s.download.source = some source → ∃ request name digest,
    .downloadOffer request name source.length digest ∈ s.inbox
  /-- A task that is over had nothing to send. -/
  ended : s.download.ended = true → ∀ source, s.download.source = some source → source.length = 0

/-- **The window and what is on its way.** -/
structure Open (s : Fetch) (source : Source) (save : FileSave) : Prop where
  length : save.length = source.length
  received : save.received = save.written.length
  stream : save.written ++ payloads s.inbox = source.content.take s.download.sent
  requests : ∀ request ∈ s.requests, ∃ id chunks, request = .pullDownload id chunks
  /-- At most one grant is on its way, and while it is bytes are missing. -/
  grants : s.grants = [] ∨ s.grants = [SAVE_WINDOW_CHUNKS] ∧
    (source.length = 0 ∨ save.received < source.length)
  window : save.outstanding ≤ SAVE_WINDOW_CHUNKS
  reopened : save.received < source.length → 0 < save.outstanding
  /-- No credit is minted, and none is lost. -/
  minted : chunkCount s.inbox + s.grants.sum + s.download.credit ≤ save.outstanding
  conserved : (source.length = 0 → s.download.ended = false) →
    chunkCount s.inbox + s.grants.sum + s.download.credit = save.outstanding
  /-- A task that is over sent everything, or failed on a read that was paid for. -/
  ended : s.download.ended = true → s.download.sent = source.length ∨ 0 < s.download.credit

/-- What the messages on their way say is true of the task. -/
structure Ordered (s : Fetch) : Prop where
  within : s.download.Within
  tells : ∀ message ∈ s.inbox, s.download.Tells message
  unregistered : s.registered = false → s.download.ended = true
  /-- No chunk comes after the announcement of the end. -/
  last : s.inbox.Pairwise fun message later =>
    ∀ request, message = .downloadFinished request → later.isChunk = false

/-- What holds of a download and its terminal along every run. -/
structure Inv (s : Fetch) : Prop where
  ordered : s.Ordered
  saver : match s.saver with
    | .waiting => s.Idle
    | .saving save => ∃ source, s.download.source = some source ∧ s.Open source save
    | .saved _ | .gaveUp => True

variable {s : Fetch} {source : Source} {save : FileSave}

/-! ### The task takes a turn -/

variable {messages : List ServerMessage}

theorem Ordered.turns (h : s.Ordered) {d : Download} (hturn : s.download.Turns d messages) :
    Ordered { s with download := d, inbox := s.inbox ++ messages } := by
  refine ⟨h.within.turns hturn, fun message hmem => ?_, fun hgone => ?_, ?_⟩
  · rcases List.mem_append.mp hmem with hmem | hmem
    · exact (h.tells message hmem).turns hturn
    · exact h.within.tells hturn message hmem
  · have hended := h.unregistered hgone
    cases hturn <;> first | exact hended | rfl
  · refine List.pairwise_append.mpr ⟨h.last, ?_, ?_⟩
    · cases hturn <;> first | exact List.Pairwise.nil | exact List.pairwise_singleton _ _
    · rintro message hmem later hlater request rfl
      have hended : s.download.ended = true := (h.tells _ hmem).1
      cases hturn with
      | waits => cases hlater
      | takes source granted rest hnot => cases hlater
      | sends source bytes hnot =>
        rw [hnot] at hended
        cases hended
      | opens source hnot =>
        rw [List.mem_singleton.mp hlater]
        rfl
      | fails message hnot =>
        rw [List.mem_singleton.mp hlater]
        rfl
      | finishes source hnot =>
        rw [List.mem_singleton.mp hlater]
        rfl

theorem Idle.turns (h : s.Idle) {d : Download} (hturn : s.download.Turns d messages) :
    Idle { s with download := d, inbox := s.inbox ++ messages } := by
  have hcount : chunkCount messages = 0 → chunkCount (s.inbox ++ messages) = 0 := by
    intro hnone
    rw [chunkCount_append, h.empty, hnone]
  cases hturn with
  | waits => simpa using h
  | opens source hended hsource =>
    refine ⟨h.requests, h.granted, h.credit, h.sent, hcount rfl, ?_, ?_⟩
    · intro other hother
      cases hother
      exact ⟨_, _, _, List.mem_append_right _ (List.mem_singleton.mpr rfl)⟩
    · intro htrue
      rw [hended] at htrue
      cases htrue
  | fails message hended hread =>
    refine ⟨h.requests, h.granted, h.credit, h.sent, hcount rfl, ?_, ?_⟩
    · intro source hsource
      have := hread source hsource
      rw [h.credit] at this
      cases this
    · intro _ source hsource
      have := hread source hsource
      rw [h.credit] at this
      cases this
  | takes source granted rest hended hsource hsent hcredit hgranted =>
    rw [h.granted] at hgranted
    cases hgranted
  | sends source bytes hended hsource hcredit hbytes hfront hlength =>
    rw [h.credit] at hcredit
    cases hcredit
  | finishes source hended hsource hsent =>
    refine ⟨h.requests, h.granted, h.credit, h.sent, hcount rfl, ?_, ?_⟩
    · intro other hother
      obtain ⟨request, name, digest, hmem⟩ := h.offered other hother
      exact ⟨request, name, digest, List.mem_append_left _ hmem⟩
    · intro _ other hother
      rw [hsource] at hother
      cases hother
      rw [h.sent] at hsent
      exact Nat.le_zero.mp hsent

variable {message : ServerMessage}

theorem Open.ends (h : s.Open source save) (hmessage : message.isChunk = false)
    (hwhy : s.download.sent = source.length ∨ 0 < s.download.credit) :
    Open { s with
      download := { s.download with ended := true }
      inbox := s.inbox ++ [message] } source save := by
  have hcount : chunkCount (s.inbox ++ [message]) = chunkCount s.inbox := by
    simp [chunkCount_cons, hmessage]
  refine ⟨h.length, h.received, ?_, h.requests, h.grants, h.window, h.reopened, ?_, ?_, ?_⟩
  · simpa [message.payload_of_isChunk hmessage] using h.stream
  · simp only [hcount]
    exact h.minted
  · intro hlength
    simp only [hcount]
    exact h.conserved fun hzero => by cases hlength hzero
  · exact fun _ => hwhy

/-- The one grant is taken whole: the clamp is no smaller than the window. -/
theorem Open.takes (h : s.Open source save) (hended : s.download.ended = false)
    (hcredit : s.download.credit = 0) {granted : ℕ} {rest : List ℕ}
    (hgranted : s.download.granted = granted :: rest) :
    Open { s with
      download := { s.download with
        credit := min granted MAX_OUTSTANDING_CHUNKS
        granted := rest } } source save := by
  have hgrants : s.grants = granted :: (rest ++ s.requests.filterMap ClientMessage.pulls) := by
    rw [Fetch.grants, hgranted]
    rfl
  rcases h.grants with hnone | ⟨hone, -⟩
  · rw [hnone] at hgrants
    cases hgrants
  · rw [hone] at hgrants
    obtain ⟨rfl, hrest⟩ := List.cons.inj hgrants
    have hwhole : min SAVE_WINDOW_CHUNKS MAX_OUTSTANDING_CHUNKS = SAVE_WINDOW_CHUNKS := rfl
    have hconserved := h.conserved fun _ => hended
    rw [hone, hcredit] at hconserved
    simp only [List.sum_singleton] at hconserved
    rw [hwhole]
    refine ⟨h.length, h.received, h.stream, h.requests, .inl hrest.symm, h.window, h.reopened,
      ?_, fun _ => ?_, fun htrue => ?_⟩
    · simp only [Fetch.grants, ← hrest, List.sum_nil]
      omega
    · simp only [Fetch.grants, ← hrest, List.sum_nil]
      omega
    · rw [hended] at htrue
      cases htrue

/-- A chunk is sent for credit. -/
theorem Open.sends (h : s.Open source save) (hended : s.download.ended = false)
    (hcredit : 0 < s.download.credit) {bytes : List UInt8}
    (hfront : bytes <+: source.content.drop s.download.sent) :
    Open { s with
      download := { s.download with
        sent := s.download.sent + bytes.length
        credit := s.download.credit - 1 }
      inbox := s.inbox ++ [.downloadChunk s.download.request bytes] } source save := by
  have hcount : chunkCount (s.inbox ++ [.downloadChunk s.download.request bytes]) =
      chunkCount s.inbox + 1 := by
    rw [chunkCount_append]
    rfl
  have hstream : source.content.take (s.download.sent + bytes.length) =
      source.content.take s.download.sent ++ bytes := by
    rw [List.take_add, ← List.prefix_iff_eq_take.mp hfront]
  have hconserved := h.conserved fun _ => hended
  refine ⟨h.length, h.received, ?_, h.requests, h.grants, h.window, h.reopened, ?_, fun _ => ?_,
    fun htrue => ?_⟩
  · rw [hstream, ← h.stream]
    simp [ServerMessage.payload]
  · simp only [hcount, Fetch.grants] at hconserved ⊢
    omega
  · simp only [hcount, Fetch.grants] at hconserved ⊢
    omega
  · rw [hended] at htrue
    cases htrue

theorem Open.turns (h : s.Open source save) (hwithin : s.download.Within)
    (hsource : s.download.source = some source) {d : Download}
    (hturn : s.download.Turns d messages) :
    Open { s with download := d, inbox := s.inbox ++ messages } source save := by
  cases hturn with
  | waits => simpa using h
  | opens other hended hnone =>
    rw [hsource] at hnone
    cases hnone
  | fails message hended hread => exact h.ends rfl (.inr (hread source hsource))
  | finishes other hended hother hsent =>
    rw [hsource] at hother
    cases hother
    exact h.ends rfl (.inl (le_antisymm (hwithin.length source hsource) hsent))
  | takes other granted rest hended hother hsent hcredit hgranted =>
    rw [List.append_nil]
    exact h.takes hended hcredit hgranted
  | sends other bytes hended hother hcredit hbytes hfront hlength =>
    rw [hsource] at hother
    cases hother
    exact h.sends hended hcredit hfront

theorem Inv.turn (h : s.Inv) (answer : HostAnswer) : (s.turn answer).1.Inv := by
  have hturn := s.download.turns_turn answer
  refine ⟨h.ordered.turns hturn, ?_⟩
  have hsaver := h.saver
  unfold Fetch.turn Fetch.send
  simp only
  split
  · next hwaiting =>
    rw [hwaiting] at hsaver
    exact hsaver.turns hturn
  · next save hsaving =>
    rw [hsaving] at hsaver
    obtain ⟨source, hsource, hopen⟩ := hsaver
    have hstill : (s.download.turn answer).1.source = some source := by
      generalize (s.download.turn answer).1 = d, (s.download.turn answer).2 = messages at hturn
      cases hturn with
      | opens other hended hnone =>
        rw [hsource] at hnone
        cases hnone
      | _ => exact hsource
    exact ⟨source, hstill, hopen.turns h.ordered.within hsource hturn⟩
  · trivial
  · trivial

/-! ### The daemon takes requests -/

theorem Open.received_of_empty (h : s.Open source save) (hwithin : s.download.Within)
    (hsource : s.download.source = some source) (hempty : chunkCount s.inbox = 0) :
    save.received = s.download.sent := by
  have hstream := congrArg List.length h.stream
  have hcontent := hwithin.content source hsource
  rw [payloads_of_chunkCount hempty, List.append_nil, ← h.received, List.length_take] at hstream
  omega

/-- **A grant finds the task over only where the file is empty.** The task did not fail, for its
credit is spent; and if it had sent everything, everything was received, for nothing else is on
its way. -/
theorem Open.length_of_lost (h : s.Open source save) (hwithin : s.download.Within)
    (hsource : s.download.source = some source) (hgrants : s.grants ≠ [])
    (hended : s.download.ended = true) : source.length = 0 := by
  rcases h.grants with hnone | ⟨hone, hzero | hmissing⟩
  · exact absurd hnone hgrants
  · exact hzero
  · have hconserved := h.conserved fun hzero => by omega
    rw [hone, List.sum_singleton] at hconserved
    have hwindow := h.window
    have hempty : chunkCount s.inbox = 0 := by omega
    rcases h.ended hended with hsent | hcredit
    · have hreceived := h.received_of_empty hwithin hsource hempty
      omega
    · omega

/-- Requests are taken, and at most a grant for an empty file is lost. -/
theorem Open.taken {s' : Fetch} (h : s.Open source save)
    (hdownload : s'.download.sent = s.download.sent ∧ s'.download.credit = s.download.credit ∧
      s'.download.ended = s.download.ended)
    (hinbox : chunkCount s'.inbox = chunkCount s.inbox ∧ payloads s'.inbox = payloads s.inbox)
    (hrequests : ∀ request ∈ s'.requests, request ∈ s.requests)
    (hgrants : s'.grants = s.grants ∨
      source.length = 0 ∧ s.download.ended = true ∧ s'.grants = []) :
    s'.Open source save := by
  obtain ⟨hsent, hcredit, hended⟩ := hdownload
  refine ⟨h.length, h.received, ?_, fun request hmem => h.requests request (hrequests request hmem),
    ?_, h.window, h.reopened, ?_, ?_, ?_⟩
  · rw [hinbox.2, hsent]
    exact h.stream
  · rcases hgrants with hsame | ⟨-, -, hnone⟩
    · rw [hsame]
      exact h.grants
    · exact .inl hnone
  · have hminted := h.minted
    rcases hgrants with hsame | ⟨-, -, hnone⟩
    · rw [hinbox.1, hcredit, hsame]
      exact hminted
    · rw [hinbox.1, hcredit, hnone, List.sum_nil]
      omega
  · intro hlost
    rw [hended] at hlost
    rcases hgrants with hsame | ⟨hzero, htrue, -⟩
    · rw [hinbox.1, hcredit, hsame]
      exact h.conserved hlost
    · rw [hlost hzero] at htrue
      cases htrue
  · rw [hended, hsent, hcredit]
    exact h.ended

theorem Ordered.of_download {s' : Fetch} (h : s.Ordered)
    (hsource : s'.download.source = s.download.source)
    (hsent : s'.download.sent = s.download.sent)
    (hended : s.download.ended = true → s'.download.ended = true)
    (hregistered : s'.registered = false → s'.download.ended = true)
    (hinbox : s'.inbox = s.inbox) : s'.Ordered := by
  refine ⟨⟨?_, ?_, ?_⟩, fun message hmem => ?_, hregistered, ?_⟩
  · rw [hsource, hsent]
    exact h.within.unopened
  · rw [hsource, hsent]
    exact h.within.length
  · rw [hsource, hsent]
    exact h.within.content
  · rw [hinbox] at hmem
    have htells := h.tells message hmem
    unfold Download.Tells at htells ⊢
    rw [hsource, hsent]
    split at htells
    · exact htells
    · exact ⟨hended htells.1, htells.2⟩
    · trivial
  · rw [hinbox]
    exact h.last

theorem Ordered.refuse (h : s.Ordered) (request : Option ℕ) (message : String) :
    Ordered { s with inbox := s.inbox ++ [.error request message] } := by
  refine ⟨h.within, fun told hmem => ?_, h.unregistered, ?_⟩
  · rcases List.mem_append.mp hmem with hmem | hmem
    · exact h.tells told hmem
    · rw [List.mem_singleton.mp hmem]
      trivial
  · refine List.pairwise_append.mpr ⟨h.last, List.pairwise_singleton _ _, ?_⟩
    intro earlier _ later hlater _ _
    rw [List.mem_singleton.mp hlater]
    rfl

theorem Ordered.pullDownload (h : s.Ordered) (chunks : ℕ) : (s.pullDownload chunks).1.Ordered := by
  unfold Fetch.pullDownload
  split
  · unfold Download.grant
    split
    · exact h
    · exact h.of_download rfl rfl id h.unregistered rfl
  · exact h.refuse ..

theorem Ordered.stopDownload (h : s.Ordered) : s.stopDownload.Ordered := by
  unfold Fetch.stopDownload
  split
  · exact h.of_download rfl rfl (fun _ => rfl) (fun _ => rfl) rfl
  · exact h

/-- A grant is passed on, or finds the task over. -/
theorem Open.pullDownload (h : s.Open source save) (hordered : s.Ordered)
    (hsource : s.download.source = some source) {id chunks : ℕ} {rest : List ClientMessage}
    (hrequests : s.requests = .pullDownload id chunks :: rest) :
    (({ s with requests := rest } : Fetch).pullDownload chunks).1.download.source = some source ∧
      (({ s with requests := rest } : Fetch).pullDownload chunks).1.Open source save := by
  have hrest : ∀ request ∈ rest, request ∈ s.requests :=
    fun request hmem => hrequests ▸ List.mem_cons_of_mem _ hmem
  have hgrants : s.grants = s.download.granted ++ chunks :: rest.filterMap ClientMessage.pulls := by
    rw [Fetch.grants, hrequests]
    rfl
  have hsome : s.grants ≠ [] := by
    rw [hgrants]
    exact List.append_ne_nil_of_right_ne_nil _ (List.cons_ne_nil _ _)
  have hlost : s.download.ended = true → source.length = 0 ∧ s.download.ended = true ∧
      s.download.granted ++ rest.filterMap ClientMessage.pulls = [] := by
    intro hended
    refine ⟨h.length_of_lost hordered.within hsource hsome hended, hended, ?_⟩
    rcases h.grants with hnone | ⟨hone, -⟩
    · exact absurd hnone hsome
    · have hlength := congrArg List.length (hgrants.symm.trans hone)
      simp only [List.length_append, List.length_cons, List.length_nil] at hlength
      refine List.eq_nil_of_length_eq_zero ?_
      rw [List.length_append]
      omega
  unfold Fetch.pullDownload Download.grant
  simp only
  split
  · split
    · next hended =>
      refine ⟨hsource, h.taken ⟨rfl, rfl, rfl⟩ ⟨rfl, rfl⟩ hrest (.inr (hlost hended))⟩
    · refine ⟨hsource, h.taken ⟨rfl, rfl, rfl⟩ ⟨rfl, rfl⟩ hrest (.inl ?_)⟩
      rw [hgrants, Fetch.grants, List.append_assoc]
      rfl
  · next hgone =>
    have hended := hordered.unregistered (Bool.eq_false_iff.mpr hgone)
    refine ⟨hsource, h.taken ⟨rfl, rfl, rfl⟩ ?_ hrest (.inr (hlost hended))⟩
    simp [Fetch.send, chunkCount_cons, ServerMessage.isChunk, ServerMessage.payload]

@[simp] theorem saver_pullDownload (s : Fetch) (chunks : ℕ) :
    (s.pullDownload chunks).1.saver = s.saver := by
  unfold Fetch.pullDownload
  split <;> rfl

@[simp] theorem saver_stopDownload (s : Fetch) : s.stopDownload.saver = s.saver := by
  unfold Fetch.stopDownload
  split <;> rfl

@[simp] theorem saver_take (s : Fetch) : s.take.1.saver = s.saver := by
  unfold Fetch.take
  split
  · rfl
  · simp only
    split <;> simp

theorem Ordered.take (h : s.Ordered) : s.take.1.Ordered := by
  unfold Fetch.take
  split
  · exact h
  · next request rest hrequests =>
    have hrest : ({ s with requests := rest } : Fetch).Ordered :=
      h.of_download rfl rfl id h.unregistered rfl
    simp only
    split
    · exact hrest.pullDownload _
    · exact hrest.stopDownload
    · exact hrest

theorem Inv.take (h : s.Inv) : s.take.1.Inv := by
  refine ⟨h.ordered.take, ?_⟩
  have hsaver := h.saver
  rw [saver_take]
  split at hsaver
  · next hwaiting =>
    have hnone : s.take.1 = s := by
      unfold Fetch.take
      rw [hsaver.requests]
    rw [hnone]
    exact hsaver
  · next save hsaving =>
    obtain ⟨source, hsource, hopen⟩ := hsaver
    refine ⟨source, ?_⟩
    unfold Fetch.take
    cases hrequests : s.requests with
    | nil => exact ⟨hsource, hopen⟩
    | cons request rest =>
      obtain ⟨id, chunks, rfl⟩ := hopen.requests request (hrequests ▸ List.mem_cons_self)
      exact hopen.pullDownload h.ordered hsource hrequests
  · trivial
  · trivial

theorem Inv.downloadEnded (h : s.Inv) : s.downloadEnded.Inv := by
  unfold Fetch.downloadEnded
  split
  · next hended =>
    refine ⟨h.ordered.of_download rfl rfl id (fun _ => hended) rfl, ?_⟩
    have hsaver := h.saver
    split at hsaver
    · next hwaiting =>
      simp only [hwaiting]
      exact ⟨hsaver.requests, hsaver.granted, hsaver.credit, hsaver.sent, hsaver.empty,
        hsaver.offered, hsaver.ended⟩
    · next save hsaving =>
      obtain ⟨source, hsource, hopen⟩ := hsaver
      simp only [hsaving]
      exact ⟨source, hsource, hopen.taken ⟨rfl, rfl, rfl⟩ ⟨rfl, rfl⟩ (fun _ => id) (.inl rfl)⟩
    · next outcome hsaved => simp only [hsaved]
    · next hgaveUp => simp only [hgaveUp]
  · exact h

/-! ### The terminal takes messages -/

variable {inbox : List ServerMessage}

theorem Ordered.tail (h : s.Ordered)
    (hinbox : s.inbox = message :: inbox) : ({ s with inbox } : Fetch).Ordered := by
  refine ⟨h.within, fun told hmem => ?_, h.unregistered, ?_⟩
  · exact h.tells told (hinbox ▸ List.mem_cons_of_mem _ hmem)
  · have hlast := h.last
    rw [hinbox] at hlast
    exact hlast.of_cons

theorem Ordered.of_client (h : s.Ordered) (saver : Saver) (requests : List ClientMessage) :
    ({ s with saver, requests } : Fetch).Ordered :=
  ⟨h.within, h.tells, h.unregistered, h.last⟩

theorem Ordered.giveUp (h : s.Ordered) : s.giveUp.Inv :=
  ⟨h.of_client .., trivial⟩

theorem Ordered.proceed (h : s.Ordered) (save : FileSave) (progress : SaveProgress) :
    (s.proceed save progress).Ordered := by
  unfold Fetch.proceed Fetch.pull
  split
  · exact h.of_client ..
  · exact h.of_client _ s.requests

theorem grants_pull (hnone : s.grants = []) (request chunks : ℕ) :
    s.download.granted ++ (s.requests ++
      [ClientMessage.pullDownload request chunks]).filterMap ClientMessage.pulls = [chunks] := by
  rw [List.filterMap_append, ← List.append_assoc]
  change s.grants ++ _ = _
  rw [hnone]
  rfl

/-- The terminal opens its window. -/
theorem Idle.start (h : s.Idle) {request length : ℕ} {name digest : String}
    (hinbox : s.inbox = .downloadOffer request name length digest :: inbox)
    (hsource : s.download.source = some source) (hlength : source.length = length) :
    Open { s with
      inbox
      saver := .saving (FileSave.new length digest).start.1
      requests := s.requests ++ [.pullDownload s.download.request SAVE_WINDOW_CHUNKS] } source
      (FileSave.new length digest).start.1 := by
  have hempty : chunkCount inbox = 0 := by
    have := h.empty
    rw [hinbox, chunkCount_cons] at this
    omega
  have hnone : s.grants = [] := by
    rw [Fetch.grants, h.granted, h.requests]
    rfl
  have hgrants := grants_pull hnone s.download.request SAVE_WINDOW_CHUNKS
  have hsum : chunkCount inbox + [SAVE_WINDOW_CHUNKS].sum + s.download.credit =
      SAVE_WINDOW_CHUNKS := by
    rw [hempty, h.credit]
    rfl
  refine ⟨hlength.symm, rfl, ?_, ?_, .inr ⟨hgrants, ?_⟩, le_rfl, fun _ => Nat.succ_pos _, ?_, ?_,
    ?_⟩
  · rw [h.sent, payloads_of_chunkCount hempty]
    rfl
  · intro other hmem
    rw [h.requests] at hmem
    exact ⟨_, _, List.mem_singleton.mp hmem⟩
  · exact Nat.eq_zero_or_pos source.length
  · rw [Fetch.grants, hgrants]
    exact hsum.le
  · intro _
    rw [Fetch.grants, hgrants]
    exact hsum
  · intro hended
    exact .inl (h.sent.trans (h.ended hended source hsource).symm)

theorem Open.skip (h : s.Open source save) (hinbox : s.inbox = message :: inbox)
    (hmessage : message.isChunk = false) : Open { s with inbox } source save := by
  refine h.taken ⟨rfl, rfl, rfl⟩ ?_ (fun _ => id) (.inl rfl)
  rw [hinbox, chunkCount_cons, payloads_cons, hmessage, message.payload_of_isChunk hmessage]
  exact ⟨rfl, rfl⟩

theorem Idle.skip (h : s.Idle) (hinbox : s.inbox = message :: inbox)
    (hmessage : ∀ request name length digest, message ≠ .downloadOffer request name length digest) :
    Idle { s with inbox } := by
  refine ⟨h.requests, h.granted, h.credit, h.sent, ?_, ?_, h.ended⟩
  · have hempty := h.empty
    rw [hinbox, chunkCount_cons] at hempty
    exact Nat.eq_zero_of_add_eq_zero_right hempty
  · intro source hsource
    obtain ⟨request, name, digest, hmem⟩ := h.offered source hsource
    rw [hinbox] at hmem
    rcases List.mem_cons.mp hmem with heq | hmem
    · exact absurd heq.symm (hmessage _ _ _ _)
    · exact ⟨request, name, digest, hmem⟩

/-- **The terminal counts its window down**, and opens it again when it has nothing left to wait
for. -/
theorem Open.chunk (h : s.Open source save) (hordered : s.Ordered)
    (hsource : s.download.source = some source) {request : ℕ} {bytes : List UInt8}
    (hinbox : s.inbox = .downloadChunk request bytes :: inbox) :
    ∃ save' progress, save.chunk true bytes = .ok (save', progress) ∧
      (({ s with inbox } : Fetch).proceed save' progress).Open source save' := by
  have hcount : chunkCount s.inbox = chunkCount inbox + 1 := by
    rw [hinbox, chunkCount_cons]
    rfl
  have hstream := h.stream
  rw [hinbox, payloads_cons, ← List.append_assoc] at hstream
  have hfits : save.received + bytes.length ≤ save.length := by
    have hlength := congrArg List.length hstream
    have hsent := hordered.within.length source hsource
    simp only [List.length_append, List.length_take, ServerMessage.payload, ← h.received]
      at hlength
    rw [h.length]
    omega
  have hreceived : save.received + bytes.length = (save.written ++ bytes).length := by
    rw [List.length_append, ← h.received]
  have hminted := h.minted
  have hwindow := h.window
  -- nothing is granted while a chunk is on its way, for the window is spent on it
  have hnone : s.grants = [] := by
    rcases h.grants with hnone | ⟨hone, -⟩
    · exact hnone
    · rw [hone, List.sum_singleton] at hminted
      omega
  rw [FileSave.chunk_eq hfits]
  rw [hnone, hcount] at hminted
  have hconserved := h.conserved
  rw [hnone, hcount] at hconserved
  by_cases hpull : save.received + bytes.length < save.length ∧ save.outstanding ≤ 1
  · refine ⟨_, _, congrArg Except.ok (if_pos hpull), ?_⟩
    have hmissing := hpull.1
    rw [h.length] at hmissing
    have hone := hconserved fun hzero => by omega
    have hgrants := grants_pull hnone s.download.request SAVE_WINDOW_CHUNKS
    have hsum : chunkCount inbox + [SAVE_WINDOW_CHUNKS].sum + s.download.credit =
        SAVE_WINDOW_CHUNKS := by
      simp only [List.sum_nil, List.sum_singleton] at hone ⊢
      omega
    refine ⟨h.length, hreceived, hstream, fun other hmem => ?_, .inr ⟨hgrants, .inr hmissing⟩,
      le_rfl, fun _ => Nat.succ_pos _, ?_, fun _ => ?_, h.ended⟩
    · rcases List.mem_append.mp hmem with hmem | hmem
      · exact h.requests other hmem
      · exact ⟨_, _, List.mem_singleton.mp hmem⟩
    · exact (congrArg (chunkCount inbox + List.sum · + s.download.credit) hgrants).trans hsum |>.le
    · exact (congrArg (chunkCount inbox + List.sum · + s.download.credit) hgrants).trans hsum
  · refine ⟨_, _, congrArg Except.ok (if_neg hpull), ?_⟩
    refine ⟨h.length, hreceived, hstream, h.requests, .inl hnone, ?_, fun hmissing => ?_, ?_,
      fun hlost => ?_, h.ended⟩
    · exact (Nat.sub_le _ _).trans hwindow
    · rw [← h.length] at hmissing
      have hopen : ¬save.outstanding ≤ 1 := fun hle => hpull ⟨hmissing, hle⟩
      simp only
      omega
    · change chunkCount inbox + s.grants.sum + s.download.credit ≤ save.outstanding - 1
      rw [hnone]
      omega
    · change chunkCount inbox + s.grants.sum + s.download.credit = save.outstanding - 1
      have := hconserved hlost
      rw [hnone]
      omega

/-- **Nothing stalls.** An open window with nothing on its way and no credit has received
everything that was sent, and would have been opened again were anything missing. -/
theorem Open.progress (h : s.Open source save) (hwithin : s.download.Within)
    (hsource : s.download.source = some source) (hsent : s.download.sent < source.length) :
    0 < chunkCount s.inbox ∨ 0 < s.grants.sum ∨ 0 < s.download.credit := by
  by_contra hstalled
  simp only [not_or, Nat.not_lt, Nat.le_zero] at hstalled
  obtain ⟨hchunks, hgrants, hcredit⟩ := hstalled
  have hconserved := h.conserved fun hzero => by omega
  have hreceived := h.received_of_empty hwithin hsource hchunks
  have hopen := h.reopened (hreceived ▸ hsent)
  omega

/-- Once the end is announced, everything was received. -/
theorem Open.complete (h : s.Open source save) (hordered : s.Ordered)
    (hsource : s.download.source = some source) {id : ℕ}
    (hinbox : s.inbox = .downloadFinished id :: inbox) :
    save.received = source.length ∧ save.written = source.content.take source.length := by
  obtain ⟨-, other, hother, hsent⟩ := hordered.tells _ (hinbox ▸ List.mem_cons_self)
  rw [hsource] at hother
  cases hother
  have hlast := hordered.last
  rw [hinbox, List.pairwise_cons] at hlast
  have hempty : chunkCount s.inbox = 0 := by
    rw [hinbox, chunkCount_cons]
    simpa [chunkCount, ServerMessage.isChunk] using
      fun message hmem => hlast.1 message hmem id rfl
  have hstream := h.stream
  rw [payloads_of_chunkCount hempty, List.append_nil, hsent] at hstream
  refine ⟨?_, hstream⟩
  have hcontent := hordered.within.content source hsource
  rw [h.received, hstream, List.length_take]
  omega

section Runs

variable (sha256 : List UInt8 → String)

/-- The end is announced when everything was sent. -/
theorem Ordered.sent_of_finished (h : s.Ordered) (hsource : s.download.source = some source)
    {move : Move} {id : ℕ} (hfinished : .downloadFinished id ∈ (Fetch.step sha256 s move).2) :
    s.download.sent = source.length := by
  cases move with
  | turn answer =>
    have hturn := s.download.turns_turn answer
    simp only [Fetch.step, Fetch.turn, Fetch.send] at hfinished
    generalize (s.download.turn answer).1 = d, (s.download.turn answer).2 = messages
      at hturn hfinished
    cases hturn with
    | finishes other hended hother hsent =>
      rw [hsource] at hother
      cases hother
      exact le_antisymm (h.within.length source hsource) hsent
    | _ => simp at hfinished
  | taken =>
    simp only [Fetch.step, Fetch.take] at hfinished
    split at hfinished
    · cases hfinished
    · split at hfinished
      · unfold Fetch.pullDownload at hfinished
        split at hfinished
        · cases hfinished
        · cases List.mem_singleton.mp hfinished
      · cases hfinished
      · cases hfinished
  | received machine => cases hfinished
  | downloadEnded => cases hfinished
  | cancelled =>
    simp only [Fetch.step] at hfinished
    split at hfinished <;> cases hfinished

/-- The terminal takes a message. -/
theorem Inv.receive (h : s.Inv) (machine : Machine) : (s.receive sha256 machine).Inv := by
  unfold Fetch.receive
  cases hinbox : s.inbox with
  | nil => exact h
  | cons message inbox =>
    have htail := h.ordered.tail hinbox
    have hsaver := h.saver
    simp only
    split
    · next request name length digest hwaiting =>
      rw [hwaiting] at hsaver
      split
      · obtain ⟨source, hsource, hlength⟩ :=
          h.ordered.tells _ (hinbox ▸ List.mem_cons_self)
        exact ⟨htail.proceed .., source, hsource, hsaver.start hinbox hsource hlength⟩
      · exact htail.giveUp
    · next save request bytes hsaving =>
      rw [hsaving] at hsaver
      obtain ⟨source, hsource, hopen⟩ := hsaver
      cases hwrites : machine.writes with
      | true =>
        obtain ⟨save', progress, hchunk, hopen'⟩ := hopen.chunk h.ordered hsource hinbox
        rw [hchunk]
        refine ⟨htail.proceed .., ?_⟩
        cases progress with
        | pull chunks => exact ⟨source, hsource, hopen'⟩
        | waiting => exact ⟨source, hsource, hopen'⟩
      | false =>
        obtain ⟨message, herror⟩ := save.chunk_unwritten bytes
        rw [herror]
        exact htail.giveUp
    · next save request hsaving =>
      exact ⟨htail.of_client _ s.requests, trivial⟩
    · next hnot hnot' _ =>
      refine ⟨htail, ?_⟩
      split at hsaver
      · next hwaiting =>
        have hidle := hsaver.skip hinbox fun request name length digest heq =>
          hnot request name length digest hwaiting heq
        simp only [hwaiting] at hidle ⊢
        exact hidle
      · next save hsaving =>
        obtain ⟨source, hsource, hopen⟩ := hsaver
        have hskipped := hopen.skip hinbox
          (ServerMessage.isChunk_eq_false fun request bytes => hnot' save request bytes hsaving)
        simp only [hsaving] at hskipped ⊢
        exact ⟨source, hsource, hskipped⟩
      · next outcome hsaved => simp only [hsaved]
      · next hgaveUp => simp only [hgaveUp]

theorem Inv.step (h : s.Inv) (move : Move) : (Fetch.step sha256 s move).1.Inv := by
  cases move with
  | turn answer => exact h.turn answer
  | taken => exact h.take
  | downloadEnded => exact h.downloadEnded
  | received machine => exact h.receive sha256 machine
  | cancelled =>
    unfold Fetch.step
    cases hsaver : s.saver with
    | waiting => exact h.ordered.giveUp
    | saving save => exact h.ordered.giveUp
    | saved outcome => exact h
    | gaveUp => exact h

theorem Inv.new (request : ℕ) : (Fetch.new request).Inv := by
  refine ⟨⟨Download.Within.new request, by simp [Fetch.new], by simp [Fetch.new],
    List.Pairwise.nil⟩, ?_⟩
  refine ⟨rfl, rfl, rfl, rfl, rfl, fun _ hsource => ?_, fun hended => ?_⟩
  · cases hsource
  · cases hended

/-! ### What was sent -/

/-- The bytes the task has read. -/
def read (s : Fetch) : List UInt8 :=
  match s.download.source with
  | none => []
  | some source => source.content.take s.download.sent

/-- What a turn sends is what it reads. -/
theorem read_turn (h : s.Ordered) (answer : HostAnswer) :
    (s.turn answer).1.read = s.read ++ payloads (s.turn answer).2 := by
  have hturn := s.download.turns_turn answer
  unfold Fetch.turn Fetch.send
  simp only
  generalize (s.download.turn answer).1 = d, (s.download.turn answer).2 = messages at hturn
  cases hturn with
  | waits => exact (List.append_nil _).symm
  | opens source hended hsource =>
    rw [read, read, hsource]
    simp [h.within.unopened hsource, ServerMessage.payload]
  | sends source bytes hended hsource hcredit hbytes hfront hlength =>
    rw [read, read, hsource]
    simp only [payloads_cons, payloads_nil, ServerMessage.payload, List.append_nil]
    rw [List.take_add, ← List.prefix_iff_eq_take.mp hfront]
  | fails message hended hread => exact (List.append_nil _).symm
  | takes source granted rest hended hsource hsent hcredit hgranted =>
    exact (List.append_nil _).symm
  | finishes source hended hsource hsent => exact (List.append_nil _).symm

theorem read_take (s : Fetch) : s.take.1.read = s.read ∧ payloads s.take.2 = [] := by
  unfold Fetch.take
  split
  · exact ⟨rfl, rfl⟩
  · simp only
    split
    · unfold Fetch.pullDownload Download.grant
      split
      · simp only
        split <;> exact ⟨rfl, rfl⟩
      · exact ⟨rfl, rfl⟩
    · unfold Fetch.stopDownload
      split <;> exact ⟨rfl, rfl⟩
    · exact ⟨rfl, rfl⟩

theorem read_proceed (s : Fetch) (save : FileSave) (progress : SaveProgress) :
    (s.proceed save progress).read = s.read := by
  cases progress <;> rfl

theorem read_receive (s : Fetch) (machine : Machine) :
    (s.receive sha256 machine).read = s.read := by
  unfold Fetch.receive
  split
  · rfl
  · simp only
    split
    · split
      · exact read_proceed ..
      · rfl
    · split
      · exact read_proceed ..
      · rfl
    · rfl
    · rfl

/-- **What a step sends is what it reads.** -/
theorem read_step (h : s.Ordered) (move : Move) :
    (Fetch.step sha256 s move).1.read = s.read ++ payloads (Fetch.step sha256 s move).2 := by
  cases move with
  | turn answer => exact read_turn h answer
  | taken =>
    obtain ⟨hread, hpayloads⟩ := read_take s
    rw [Fetch.step, hread, hpayloads, List.append_nil]
  | received machine =>
    rw [Fetch.step, read_receive, payloads_nil, List.append_nil]
  | downloadEnded =>
    rw [Fetch.step, payloads_nil, List.append_nil, Fetch.downloadEnded]
    split <;> rfl
  | cancelled =>
    simp only [Fetch.step]
    split <;> exact (List.append_nil _).symm

theorem inv_exec (request : ℕ) (moves : List Move) :
    (exec (Fetch.step sha256) (new request) moves).1.Inv :=
  exec_invariant (fun _ move hs => hs.step sha256 move) (Inv.new request) moves

theorem read_exec (h : s.Inv) (moves : List Move) :
    (exec (Fetch.step sha256) s moves).1.read =
      s.read ++ payloads (exec (Fetch.step sha256) s moves).2 := by
  induction moves generalizing s with
  | nil => exact (List.append_nil _).symm
  | cons move moves ih =>
    rw [exec_cons]
    simp only
    rw [ih (h.step sha256 move), read_step sha256 h.ordered, payloads_append, List.append_assoc]

/-- **Flow control between a download and the terminal.** While the terminal has its window open,
what it still expects is on its way, as a chunk or a grant, or is credit the task has not spent,
unless the file is empty and its download over; and while bytes are left to send, one of the
three is there. When the end is announced, the chunks sent make up the first `length` bytes of the
file; and when the announcement is taken, the terminal has written them. -/
theorem download_flow (request : ℕ) (moves : List Move) :
    let s := (exec (Fetch.step sha256) (new request) moves).1
    ∀ source, s.download.source = some source →
      (∀ save, s.saver = .saving save →
        ((source.length = 0 → s.download.ended = false) →
          chunkCount s.inbox + s.grants.sum + s.download.credit = save.outstanding) ∧
        (s.download.sent < source.length →
          0 < chunkCount s.inbox ∨ 0 < s.grants.sum ∨ 0 < s.download.credit) ∧
        ∀ id inbox, s.inbox = .downloadFinished id :: inbox →
          save.received = source.length ∧ save.written = source.content.take source.length) ∧
      (s.saver = .waiting → ∃ id name digest,
        .downloadOffer id name source.length digest ∈ s.inbox) ∧
      ∀ move id, .downloadFinished id ∈ (Fetch.step sha256 s move).2 →
        payloads (exec (Fetch.step sha256) (new request) moves).2 =
          source.content.take source.length := by
  intro s source hsource
  have h : s.Inv := inv_exec sha256 request moves
  have hsaver := h.saver
  refine ⟨fun save hsaving => ?_, fun hwaiting => ?_, fun move id hfinished => ?_⟩
  · rw [hsaving] at hsaver
    obtain ⟨other, hother, hopen⟩ := hsaver
    rw [hsource] at hother
    cases hother
    refine ⟨hopen.conserved, hopen.progress h.ordered.within hsource, ?_⟩
    intro id inbox hinbox
    exact hopen.complete h.ordered hsource hinbox
  · rw [hwaiting] at hsaver
    exact hsaver.offered source hsource
  · have hread := read_exec sha256 (Inv.new request) moves
    have hsent : s.download.sent = source.length :=
      h.ordered.sent_of_finished sha256 hsource hfinished
    have hall : s.read = source.content.take source.length := by
      rw [read, hsource, hsent]
    rw [← hall]
    exact hread.symm

end Runs

/-- A file of three bytes, of which the first read yields two. -/
def threeBytes : Source := ⟨"three", 3, "", [7, 8, 9]⟩

def twoOfThree : List Move :=
  [.turn (.opened threeBytes), .received ⟨true, true, .ok ()⟩, .taken, .turn (.read 0),
    .turn (.read 2)]

theorem download_flow_twoOfThree :
    let s := (exec (Fetch.step fun _ => "") (new 1) twoOfThree).1
    s.download.source = some threeBytes ∧ s.saver = .saving ⟨3, "", 0, [], 8⟩ ∧
      s.download.sent = 2 ∧ chunkCount s.inbox + s.grants.sum + s.download.credit = 8 :=
  ⟨rfl, rfl, rfl,
    ((download_flow _ 1 twoOfThree threeBytes rfl).1 ⟨3, "", 0, [], 8⟩ rfl).1 fun _ => rfl⟩

/-- An empty file is over as soon as it was offered: the grant that answers the offer is refused,
and the window stays open with nothing on its way. -/
theorem empty_file_loses_grant :
    let s := (exec (Fetch.step fun _ => "") (new 1)
      [.turn (.opened ⟨"empty", 0, "", []⟩), .turn (.read 0), .downloadEnded,
        .received ⟨true, true, .ok ()⟩, .taken]).1
    ∃ save, s.saver = .saving save ∧
      chunkCount s.inbox + s.grants.sum + s.download.credit ≠ save.outstanding :=
  ⟨⟨0, "", 0, [], 8⟩, rfl, by decide⟩

end Fetch

end SuperHerdr
