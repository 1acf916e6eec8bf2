import Mathlib
import SuperHerdr.Broker.Basic

/-!
# Pairing a device

A terminal asks for a code, a browser presents it, a terminal approves, and a device is recorded.
The code is held under a lock that the web layer shares with the daemon's loop; the approvals are
the loop's own. `Pairing.step` interleaves the browsers, the terminals and the loop.

`pair` is two steps here, as other threads see it: a call first checks what it was given, chooses
a name, draws the attempt's token and reads the clock (`pair`), and then takes the lock
(`present`). What it sends the loop may arrive in any order. A decision is one step of the loop,
but the browser may leave in the course of it, after the loop has looked whether it is there:
`Deciding.stays` says whether it waits until it is answered.

What comes from outside is given as a parameter: `tokens` and `codes`, what `pairing::token` and
`pairing::pairing_code` draw, and `fingerprint`. Times are in milliseconds. `recorded` is not the
daemon's: it says which attempts a device was recorded for. Nothing reads it.
-/

namespace SuperHerdr

open Std

/-- How long a pairing code stays usable. -/
def CODE_LIFETIME : ℕ := 300 * 1000

def PAIRING_CODE_CHARACTERS : ℕ := 8

/-- How many wrong entries a code survives. -/
def MAX_ATTEMPTS : ℕ := 5

/-- How long an approval may be waited for. -/
def PAIRING_APPROVAL_LIFETIME : ℕ := 60 * 1000

def MAX_PENDING_PAIRING_APPROVALS : ℕ := 16

/-! ### Codes -/

/-- Accept a code however it was typed: case and separators are presentation. -/
def normalizeCode (entered : String) : String :=
  String.ofList (((entered.toList.filter Char.isAlphanum).map Char.toUpper).take
    PAIRING_CODE_CHARACTERS)

/-- Compare without revealing where two values first differ. -/
def constantTimeEq (left right : List UInt8) : Bool :=
  if left.length ≠ right.length then false
  else (left.zip right).foldl (fun difference pair => difference ||| (pair.1 ^^^ pair.2)) 0 = 0

def codesMatch (left right : String) : Bool :=
  constantTimeEq left.toByteArray.data.toList right.toByteArray.data.toList

/-- One outstanding pairing code. -/
structure PendingPairing where
  code : String
  expiresAt : ℕ
  /-- How many wrong entries it has seen. -/
  attempts : ℕ
deriving DecidableEq

namespace PendingPairing

def new (code : String) (now : ℕ) : PendingPairing := ⟨code, now + CODE_LIFETIME, 0⟩

def expired (pending : PendingPairing) (now : ℕ) : Bool := now ≥ pending.expiresAt

/-- Whether an entered code matches this one and is still live. -/
def accepts (pending : PendingPairing) (entered : String) (now : ℕ) : Bool :=
  !pending.expired now && codesMatch (normalizeCode entered) (normalizeCode pending.code)

/-- Record a wrong entry, and report whether the code is now spent. -/
def recordFailure (pending : PendingPairing) : PendingPairing × Bool :=
  let attempts := min (pending.attempts + 1) (2 ^ 32 - 1)
  ({ pending with attempts }, attempts ≥ MAX_ATTEMPTS)

def attemptsRemaining (pending : PendingPairing) : ℕ := MAX_ATTEMPTS - pending.attempts

end PendingPairing

/-! ### Names -/

/-- A paired device, as the configuration records it. -/
structure Device where
  name : String
  tokenSha256 : String
  pairedAtMs : ℕ
deriving DecidableEq

/-- What is left of an offered name: at most so many plain characters, without the spaces around
them. -/
def deviceName (offered : String) : String :=
  let cleaned := (offered.toList.filter fun character =>
    character.isAlphanum || character == ' ' || character == '-' || character == '_' ||
      character == '.').take 48
  let isSpace := fun character => character == ' '
  let trimmed := ((cleaned.dropWhile isSpace).reverse.dropWhile isSpace).reverse
  if trimmed = [] then "paired device" else String.ofList trimmed

/-- A name with a number after it. -/
def numberedName (base : String) (suffix : ℕ) : String := s!"{base} {suffix}"

/-- A name for a device that is not already taken. Of the numbered ones, so many more than there
are devices need to be tried. -/
def uniqueDeviceName (offered : String) (existing : List Device) : String :=
  let base := deviceName offered
  if base ∉ existing.map Device.name then base
  else
    (((List.range (existing.length + 1)).map fun k => numberedName base (k + 2)).find?
      fun candidate => candidate ∉ existing.map Device.name).getD base

/-! ### The state -/

/-- A call of `pair` that is about to take the lock. -/
structure Call where
  code : String
  /-- The name chosen for the device. -/
  name : String
  confirmation : String
  attempt : String
  /-- The time the call read. -/
  now : ℕ
deriving DecidableEq

/-- What a call that matched the code asks of the loop. -/
structure PairingRequested where
  attempt : String
  name : String
  confirmation : String
  expiresAt : ℕ
deriving DecidableEq

structure PendingPairingApproval where
  name : String
  expiresAt : ℕ
deriving DecidableEq

/-- What browsers and terminals are told. -/
inductive Answer
  | tell (client : ClientId) (message : ServerMessage)
  | broadcast (message : ServerMessage)
  /-- A call of `pair` fails. -/
  | refused (message : String)
  /-- A call of `pair` succeeds, and its browser waits for the decision. -/
  | awaiting (attempt : String)
  /-- A browser that waits is told the decision, with its token if it was approved. -/
  | decided (attempt : String) (token : Except String String)

structure Pairing where
  now : ℕ
  /-- Whether the daemon has a configuration file. -/
  configured : Bool
  webUrl : Option String
  /-- The devices the configuration file records, and those that were read from it last. -/
  devices : List Device
  held : List Device
  pending : Option PendingPairing
  calls : List Call
  inputs : List PairingRequested
  approvals : ExtTreeMap String PendingPairingApproval
  /-- The attempts whose browsers wait for a decision. -/
  waiting : ExtTreeSet String
  outboxes : ExtTreeSet ClientId
  /-- How many tokens and codes were drawn. -/
  drawn : ℕ
  codesDrawn : ℕ
  recorded : List String

/-- What happens in the course of a decision. -/
structure Deciding where
  /-- Whether the browser waits until it is answered. -/
  stays : Bool
  /-- Whether the configuration file can be read, and written. -/
  reads : Except String Unit
  writes : Except String Unit

namespace Pairing

/-- A daemon that has issued no code. -/
def new (configured : Bool) (webUrl : Option String) (devices : List Device) : Pairing :=
  ⟨0, configured, webUrl, devices, devices, none, [], [], ∅, ∅, ∅, 0, 0, []⟩

section Tokens

variable (fingerprint : String → String) (tokens codes : ℕ → Except String String)

/-! ### The loop issues a code -/

def tell (s : Pairing) (client : ClientId) (message : ServerMessage) : List Answer :=
  if client ∈ s.outboxes then [.tell client message] else []

/-- Mint a pairing code and hold it for a bounded time. Asking again replaces the previous
one. -/
def issuePairingCode (s : Pairing) (client : ClientId) (request : ℕ) : Pairing × List Answer :=
  let drawnCode := codes s.codesDrawn
  let s := { s with codesDrawn := s.codesDrawn + 1 }
  match drawnCode with
  | .error message => (s, s.tell client (.error (some request) message))
  | .ok code =>
      let pending := PendingPairing.new code s.now
      ({ s with pending := some pending },
        s.tell client
          (.pairingCode request code ((pending.expiresAt - s.now) / 1000) s.webUrl))

/-! ### A browser presents a code -/

/-- The devices as the configuration has them, or as they were read last. -/
def current (s : Pairing) (reads : Bool) : Pairing :=
  if s.configured ∧ reads then { s with held := s.devices } else s

/-- The first half of a call: everything ahead of the lock. -/
def pair (s : Pairing) (code name confirmation : String) (reads : Bool) : Pairing × List Answer :=
  if !s.configured then
    (s, [.refused "this daemon has no configuration file to record a device in"])
  else if confirmation.utf8ByteSize ≠ 6 ∨ !confirmation.toList.all Char.isDigit then
    (s, [.refused "the browser did not provide a valid confirmation number"])
  else
    let s := s.current reads
    let name := uniqueDeviceName name s.held
    let attempt := tokens s.drawn
    let s := { s with drawn := s.drawn + 1 }
    match attempt with
    | .error message => (s, [.refused message])
    | .ok attempt =>
        ({ s with calls := s.calls ++ [⟨code, name, confirmation, attempt, s.now⟩] }, [])

/-- What a call finds under the lock. -/
def presentCall (s : Pairing) (call : Call) : Pairing × List Answer :=
  match s.pending with
  | none =>
      (s, [.refused "no pairing code is waiting; ask for one from the terminal client"])
  | some pending =>
      if pending.expired call.now then
        ({ s with pending := none }, [.refused "that pairing code has expired; ask for another"])
      else if !pending.accepts call.code call.now then
        let (pending, spent) := pending.recordFailure
        if spent then
          ({ s with pending := none }, [.refused "too many wrong codes; ask for another"])
        else
          let remaining := pending.attemptsRemaining
          ({ s with pending := some pending },
            [.refused (s!"that is not the code waiting; {remaining} attempt(s) left before it " ++
              "is discarded")])
      else
        -- Matched, so it is spent.
        ({ s with
            pending := none
            inputs := s.inputs ++ [⟨call.attempt, call.name, call.confirmation,
              call.now + PAIRING_APPROVAL_LIFETIME⟩]
            waiting := s.waiting.insert call.attempt },
          [.awaiting call.attempt])

/-- The second half of a call: it takes the lock. -/
def present (s : Pairing) (i : ℕ) : Pairing × List Answer :=
  match s.calls[i]? with
  | none => (s, [])
  | some call => { s with calls := s.calls.eraseIdx i }.presentCall call

/-! ### The loop asks for approval, and has it -/

/-- The browser of an attempt is told the decision, if it still waits. -/
def answer (s : Pairing) (attempt : String) (token : Except String String) :
    Pairing × List Answer :=
  if attempt ∈ s.waiting then
    ({ s with waiting := s.waiting.erase attempt }, [.decided attempt token])
  else (s, [])

def pairingRequested (s : Pairing) (request : PairingRequested) : Pairing × List Answer :=
  if s.approvals.size ≥ MAX_PENDING_PAIRING_APPROVALS then
    s.answer request.attempt (.error "too many device approvals are already waiting")
  else
    ({ s with
        approvals := s.approvals.insert request.attempt ⟨request.name, request.expiresAt⟩ },
      [.broadcast (.pairingApprovalRequired request.attempt request.name request.confirmation
        ((request.expiresAt - s.now) / 1000))])

/-- The loop takes one of the requests. -/
def next (s : Pairing) (i : ℕ) : Pairing × List Answer :=
  match s.inputs[i]? with
  | none => (s, [])
  | some request => { s with inputs := s.inputs.eraseIdx i }.pairingRequested request

/-- Record a paired device. -/
def addDeviceFile (s : Pairing) (deciding : Deciding) (device : Device) : Except String Pairing :=
  match deciding.reads with
  | .error message => .error message
  | .ok () =>
      if device.name ∈ s.devices.map Device.name then
        .error s!"a device named \"{device.name}\" is already paired"
      else
        match deciding.writes with
        | .error message => .error message
        | .ok () => .ok { s with devices := s.devices ++ [device] }

/-- Record the device of an attempt, under a token drawn for it. -/
def record (s : Pairing) (deciding : Deciding) (attempt name : String) :
    Pairing × Except String String :=
  if !s.configured then
    (s, .error "this daemon has no configuration file to record a device in")
  else
    let token := tokens s.drawn
    let s := { s with drawn := s.drawn + 1 }
    match token with
    | .error message => (s, .error message)
    | .ok token =>
        match s.addDeviceFile deciding ⟨name, fingerprint token, s.now⟩ with
        | .error message => (s, .error message)
        | .ok s => ({ s with recorded := s.recorded ++ [attempt] }, .ok token)

/-- A browser that does not stay leaves. -/
def leave (s : Pairing) (attempt : String) : Pairing :=
  { s with waiting := s.waiting.erase attempt }

/-- Tell every terminal what became of an attempt. -/
def pairingDecided (attempt : String) (approved : Bool) (message : String) : Answer :=
  .broadcast (.pairingDecision attempt approved message)

/-- A device is recorded for an attempt that was approved, and its browser told. -/
def approve (s : Pairing) (deciding : Deciding) (attempt name : String) :
    Pairing × List Answer :=
  let (s, result) := s.record fingerprint tokens deciding attempt name
  let s := if deciding.stays then s else s.leave attempt
  match result with
  | .ok token =>
      let (s, answers) := s.answer attempt (.ok token)
      (s, answers ++ [if deciding.stays then pairingDecided attempt true s!"{name} paired"
        else pairingDecided attempt false "the browser left before approval completed"])
  | .error message =>
      let (s, answers) := s.answer attempt (.error message)
      (s, answers ++ [pairingDecided attempt false message])

/-- A terminal decides on an attempt. -/
def decidePairing (s : Pairing) (deciding : Deciding) (attempt : String) (approve : Bool) :
    Pairing × List Answer :=
  match s.approvals[attempt]? with
  | none => (s, [pairingDecided attempt false "that device approval is no longer waiting"])
  | some pending =>
      let s := { s with approvals := s.approvals.erase attempt }
      if pending.expiresAt ≤ s.now ∨ attempt ∉ s.waiting then
        let (s, answers) := s.answer attempt (.error "device approval expired")
        (s, answers ++ [pairingDecided attempt false "device approval expired"])
      else if !approve then
        let (s, answers) := s.answer attempt (.error "device approval was rejected")
        (s, answers ++ [pairingDecided attempt false s!"{pending.name} was not paired"])
      else s.approve fingerprint tokens deciding attempt pending.name

/-- Give up one attempt. -/
def expire (s : Pairing) (attempt : String) : Pairing × List Answer :=
  let s := { s with approvals := s.approvals.erase attempt }
  let (s, answers) := s.answer attempt (.error "device approval expired")
  (s, answers ++ [pairingDecided attempt false "device approval expired"])

/-- Give up the attempts that have expired or whose browsers left. -/
def sweepPairingApprovals (s : Pairing) : Pairing × List Answer :=
  let expired := s.approvals.toList.filter fun entry =>
    entry.2.expiresAt ≤ s.now ∨ entry.1 ∉ s.waiting
  (expired.map Prod.fst).foldl
    (fun (swept : Pairing × List Answer) attempt =>
      let (s, answers) := swept.1.expire attempt
      (s, swept.2 ++ answers)) (s, [])

/-! ### Runs -/

/-- One step of the browsers, the terminals or the loop. -/
inductive Move
  | connected (client : ClientId)
  | disconnected (client : ClientId)
  | requestPairingCode (client : ClientId) (request : ℕ)
  | pair (code name confirmation : String) (reads : Bool)
  | present (i : ℕ)
  | next (i : ℕ)
  | decidePairing (attempt : String) (approve : Bool) (deciding : Deciding)
  | refreshDue
  /-- A browser leaves. -/
  | left (attempt : String)
  | elapsed (milliseconds : ℕ)
  /-- A device is revoked. The program cuts its entry out of the text of the file, and refuses where
  the number of the others would change; here the entry itself is dropped. -/
  | revoked (name : String)

def step (s : Pairing) (move : Move) : Pairing × List Answer :=
  match move with
  | .connected client => ({ s with outboxes := s.outboxes.insert client }, [])
  | .disconnected client => ({ s with outboxes := s.outboxes.erase client }, [])
  | .requestPairingCode client request => s.issuePairingCode codes client request
  | .pair code name confirmation reads => s.pair tokens code name confirmation reads
  | .present i => s.present i
  | .next i => s.next i
  | .decidePairing attempt approve deciding =>
      s.decidePairing fingerprint tokens deciding attempt approve
  | .refreshDue => s.sweepPairingApprovals
  | .left attempt => (s.leave attempt, [])
  | .elapsed milliseconds => ({ s with now := s.now + milliseconds }, [])
  | .revoked name => ({ s with devices := s.devices.filter fun device => device.name ≠ name }, [])

end Tokens

end Pairing

end SuperHerdr
