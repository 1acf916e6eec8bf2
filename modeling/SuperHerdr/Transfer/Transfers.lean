import SuperHerdr.Broker.Basic
import SuperHerdr.Transfer.Relay

/-!
# Transfers that may be resumed

The daemon keeps a transfer that stopped, under a token its sender may come back with. Each
attempt runs as a task of its own: a fresh one starts at once, a resuming one first asks the host
how much it still holds. What a task has to say reaches the loop through the daemon's queue.

`Transfers.step` interleaves the loop, its tasks and the hosts: clients begin and resume, tasks
ask and relay, the loop takes what they report, time passes, entries are swept and evicted, and
the paths given up are removed, some time or never. What comes from outside is given as a
parameter: `tokens`, what `pairing::token` draws, `directories`, the directories hosts make for a
fresh transfer, `sha256`, and with each relay the `Host` it meets. A host may lose a file, but not
one that is being appended to.

Two fields are not the daemon's: `issued` says what each token was issued for, and `log` at which
offset each attempt of a transfer started and what it added to the file. Nothing reads them.
-/

namespace SuperHerdr

open Std

/-- How long an interrupted transfer is kept, in seconds. -/
def RETAIN_TIMEOUT : ℕ := 10 * 60

/-- How many interrupted transfers may be kept at once. -/
def MAX_RETAINED_TRANSFERS : ℕ := 4

/-- Where a target is: behind an SSH destination, or this machine. -/
structure Target where
  ssh : Option String
deriving DecidableEq

/-- A transfer that has not finished, kept in case its sender returns. -/
structure Retained where
  pane : PaneId
  mime : String
  name : Option String
  /-- The whole content's length. -/
  length : ℕ
  /-- None until bytes have actually reached the host. -/
  path : Option String
  staged : ℕ
  /-- Set while an attempt is running. -/
  inFlight : Bool
  expiresAt : ℕ

/-- An attempt under way. -/
structure Carried where
  client : ClientId
  request : ℕ
  transfer : String
  pane : PaneId
  target : Target
  media : ClipboardMedia
  name : Option String
  length : ℕ
  /-- The path kept for a transfer that is resumed. -/
  path : Option String
  /-- None until the host was asked how much it still holds. -/
  plan : Option TransferPlan

/-- What a task tells the loop. -/
inductive Reply
  | resumeOffset (client : ClientId) (request : ℕ) (transfer : String) (staged : ℕ)
  | relayFinished (client : ClientId) (request : ℕ) (transfer : String) (outcome : Relayed)

structure Transfers where
  now : ℕ
  /-- The configured limit on a transfer's length. -/
  ceiling : ℕ
  targets : TargetSession → Option Target
  outboxes : ExtTreeSet ClientId
  /-- The queues handed over and not yet claimed by a transfer. -/
  offers : List (ClientId × ℕ)
  retained : ExtTreeMap String Retained
  attempts : List Carried
  inputs : List Reply
  /-- The staged files the hosts hold. One that no receipt names is left out: no attempt can
  come back to it. -/
  files : Target → String → Option (List UInt8)
  /-- The paths passed to `discard_upload` and not yet removed. -/
  discards : List (Target × String)
  /-- How many tokens were drawn, and how many directories made. -/
  drawn : ℕ
  stagings : ℕ
  issued : ExtTreeMap String (PaneId × ℕ)
  log : String → List (ℕ × List UInt8)

namespace Transfers

/-- A daemon that has served no transfer. -/
def new (ceiling : ℕ) (targets : TargetSession → Option Target) : Transfers :=
  ⟨0, ceiling, targets, ∅, [], ∅, [], [], fun _ _ => none, [], 0, 0, ∅, fun _ => []⟩

def tell (s : Transfers) (client : ClientId) (message : ServerMessage) :
    List (ClientId × ServerMessage) :=
  if client ∈ s.outboxes then [(client, message)] else []

def refuse (s : Transfers) (client : ClientId) (request : ℕ) (message : String) :
    List (ClientId × ServerMessage) :=
  s.tell client (.error (some request) message)

def discardUpload (s : Transfers) (target : Target) (path : String) : Transfers :=
  { s with discards := s.discards ++ [(target, path)] }

def dropOffer (s : Transfers) (client : ClientId) (request : ℕ) : Transfers :=
  { s with offers := s.offers.filter fun offer => offer ≠ (client, request) }

/-! ### Retention -/

/-- Drop a retained transfer and take its bytes off the host with it. -/
def forgetRetained (s : Transfers) (transfer : String) : Transfers :=
  match s.retained[transfer]? with
  | none => s
  | some retained =>
      let s := { s with retained := s.retained.erase transfer }
      match retained.path, s.targets retained.pane.targetSession with
      | some path, some target => s.discardUpload target path
      | _, _ => s

/-- The entries no attempt is running for, in the order of their tokens. -/
def idle (s : Transfers) : List (String × Retained) :=
  s.retained.toList.filter fun entry => !entry.2.inFlight

/-- Give up what nobody came back for. -/
def sweepRetained (s : Transfers) : Transfers :=
  let expired := s.idle.filter fun entry => entry.2.expiresAt ≤ s.now
  (expired.map Prod.fst).foldl forgetRetained s

/-- The entry whose sender has been away longest. -/
def oldest (s : Transfers) : Option String :=
  (s.idle.argmin fun entry => entry.2.expiresAt).map Prod.fst

/-- At most `rounds` rounds of eviction; each one removes an entry. -/
def evictWithin : ℕ → Transfers → Transfers
  | 0, s => s
  | rounds + 1, s =>
      if MAX_RETAINED_TRANSFERS ≤ s.retained.size then
        match s.oldest with
        | none => s
        | some transfer => evictWithin rounds (s.forgetRetained transfer)
      else s

/-- Keep the number of unfinished transfers bounded as well as timed. -/
def evictRetained (s : Transfers) : Transfers :=
  evictWithin s.retained.size s

/-! ### Beginning and resuming -/

/-- The target a transfer's pane belongs to, refusing the request if there is not one. -/
def unconfigured (pane : PaneId) : String :=
  s!"{pane.target}/{pane.session} is not a configured target"

/-- Let a transfer in, under its token: room is made for its entry, and its attempt starts. -/
def letIn (s : Transfers) (client : ClientId) (request : ℕ) (transfer : String) (pane : PaneId)
    (target : Target) (mime : String) (name : Option String) (length : ℕ) : Transfers :=
  let s := s.sweepRetained.evictRetained
  let media := mediaForMime mime
  { s with
    retained := s.retained.insert transfer
      ⟨pane, mime, name, length, none, 0, true, s.now + RETAIN_TIMEOUT⟩
    attempts := s.attempts ++ [⟨client, request, transfer, pane, target, media, name, length,
      none, some ⟨media, .fresh name, length⟩⟩]
    issued := s.issued.insert transfer (pane, length)
    log := Function.update s.log transfer [] }

/-- Start moving a transfer to the target host as its bytes arrive. -/
def beginRelay (tokens : ℕ → Option String) (s : Transfers) (client : ClientId) (request : ℕ)
    (pane : PaneId) (mime : String) (name : Option String) (length : ℕ) :
    Transfers × List (ClientId × ServerMessage) :=
  if (client, request) ∉ s.offers then (s, s.refuse client request "no transfer is in progress")
  else
    let s := s.dropOffer client request
    if length > s.ceiling then
      (s, s.refuse client request
        s!"refusing a {length} byte upload; the limit is {s.ceiling}")
    else
      match s.targets pane.targetSession with
      | none => (s, s.refuse client request (unconfigured pane))
      | some target =>
          let token := tokens s.drawn
          let s := { s with drawn := s.drawn + 1 }
          match token with
          | none =>
              (s, s.refuse client request "the daemon could not generate a transfer token")
          | some transfer =>
              (s.letIn client request transfer pane target mime name length,
                s.tell client (.uploadAccepted request transfer 0))

/-- Start an attempt to resume a transfer that is kept. -/
def takeUp (s : Transfers) (client : ClientId) (request : ℕ) (transfer : String)
    (pane : PaneId) (target : Target) (length : ℕ) (retained : Retained) : Transfers :=
  { s with
    retained := s.retained.insert transfer { retained with inFlight := true }
    attempts := s.attempts ++ [⟨client, request, transfer, pane, target,
      mediaForMime retained.mime, retained.name, length, retained.path, none⟩] }

/-- Continue a transfer that stopped. -/
def resumeRelay (s : Transfers) (client : ClientId) (request : ℕ) (transfer : String)
    (pane : PaneId) (length : ℕ) : Transfers × List (ClientId × ServerMessage) :=
  if (client, request) ∉ s.offers then (s, s.refuse client request "no transfer is in progress")
  else
    let s := (s.dropOffer client request).sweepRetained
    match s.retained[transfer]? with
    | none => (s, s.refuse client request "there is no transfer to resume under that token")
    | some retained =>
        if retained.inFlight then
          (s, s.refuse client request "that transfer is still being carried")
        else if retained.pane ≠ pane ∨ retained.length ≠ length then
          (s, s.refuse client request "that token belongs to a different transfer")
        else
          match s.targets pane.targetSession with
          -- The flag is set before the target is looked up, and taken back here.
          | none => (s, s.refuse client request (unconfigured pane))
          | some target => (s.takeUp client request transfer pane target length retained, [])

/-! ### The tasks -/

/-- How much of an interrupted transfer the host still holds, if it can be asked. -/
def stagedBytes (s : Transfers) (target : Target) (path : String) (answers : Bool) : ℕ :=
  if answers ∧ (removableUploadDirectory path).isSome then
    ((s.files target path).map List.length).getD 0
  else 0

/-- The attempt that follows from what the host still holds. Where nothing survived it is a
fresh one, and the old path is not part of it. -/
def probe (s : Transfers) (carried : Carried) (answers : Bool) : Transfers × TransferPlan :=
  match carried.path with
  | some path =>
      let staged := s.stagedBytes carried.target path answers
      if staged > 0 then (s, ⟨carried.media, .resume path staged, carried.length⟩)
      else (s.discardUpload carried.target path,
        ⟨carried.media, .fresh carried.name, carried.length⟩)
  | none => (s, ⟨carried.media, .fresh carried.name, carried.length⟩)

/-- A resuming task asks its host, and tells the loop where it is going to start. -/
def probed (s : Transfers) (i : ℕ) (answers : Bool) : Transfers :=
  match s.attempts[i]? with
  | none => s
  | some carried =>
      if carried.plan.isSome then s
      else
        let (s, plan) := s.probe carried answers
        { s with
          attempts := s.attempts.set i { carried with plan := some plan }
          inputs := s.inputs ++
            [.resumeOffset carried.client carried.request carried.transfer plan.staged] }

/-- What a host does, with the directory it makes and the file it holds. -/
def hostAt (host : Host) (directory : String) (held : List UInt8) : Host :=
  match host with
  | .ssh session => .ssh { session with directory, held }
  | .here disk => .here { disk with directory := disk.directory.map fun _ => directory, held }

/-- What the host holds of the file a plan resumes. -/
def held (s : Transfers) (target : Target) (plan : TransferPlan) : List UInt8 :=
  (plan.resumed.bind (s.files target)).getD []

/-- What a relay leaves: its outcome in the daemon's queue, and its file on the host. -/
def finish (s : Transfers) (i : ℕ) (carried : Carried) (plan : TransferPlan) (report : Report) :
    Transfers :=
  let added := report.file.drop (plan.before (s.held carried.target plan)).length
  let written := plan.resumed <|> report.received.map Receipt.path
  { s with
    attempts := s.attempts.eraseIdx i
    inputs := s.inputs ++
      [.relayFinished carried.client carried.request carried.transfer report.outcome]
    files := fun target path =>
      if target = carried.target ∧ written = some path then some report.file
      else s.files target path
    discards := s.discards ++ report.discarded.map fun path => (carried.target, path)
    stagings := s.stagings + 1
    log := Function.update s.log carried.transfer
      (s.log carried.transfer ++ [(plan.staged, added)]) }

/-- A task's relay comes to its end. -/
def relayed (sha256 : List UInt8 → String) (directories : ℕ → String) (s : Transfers) (i : ℕ)
    (host : Host) (items : List RelayItem) (timely : Bool) : Transfers :=
  match s.attempts[i]? with
  | none => s
  | some carried =>
      match carried.plan with
      | none => s
      | some plan =>
          let host := hostAt host (directories s.stagings) (s.held carried.target plan)
          s.finish i carried plan (relay sha256 host plan items timely)

/-! ### The loop -/

/-- What a finished attempt leaves behind. -/
def relayFinished (s : Transfers) (client : ClientId) (request : ℕ) (transfer : String)
    (outcome : Relayed) : Transfers × List (ClientId × ServerMessage) :=
  match outcome with
  | .done path bytes =>
      ({ s with retained := s.retained.erase transfer },
        s.tell client (.uploadComplete request path bytes))
  | .refused message =>
      ({ s with retained := s.retained.erase transfer }, s.refuse client request message)
  | .withdrawn => ({ s with retained := s.retained.erase transfer }, [])
  | .interrupted path staged =>
      match s.retained[transfer]? with
      | none => (s, [])
      | some retained =>
          ({ s with
              retained := s.retained.insert transfer { retained with
                inFlight := false
                path := some path
                staged := staged
                expiresAt := s.now + RETAIN_TIMEOUT } },
            s.tell client (.uploadInterrupted request transfer staged))

/-- Where a resuming attempt starts is told to its sender. -/
def resumeOffset (s : Transfers) (client : ClientId) (request : ℕ) (transfer : String)
    (staged : ℕ) : Transfers × List (ClientId × ServerMessage) :=
  let message := s.tell client (.uploadAccepted request transfer staged)
  match s.retained[transfer]? with
  | none => (s, message)
  | some retained =>
      ({ s with retained := s.retained.insert transfer { retained with staged := staged } },
        message)

/-- The loop takes what a task reported. -/
def handle (s : Transfers) (reply : Reply) : Transfers × List (ClientId × ServerMessage) :=
  match reply with
  | .resumeOffset client request transfer staged => s.resumeOffset client request transfer staged
  | .relayFinished client request transfer outcome =>
      s.relayFinished client request transfer outcome

/-! ### Runs -/

/-- One step of the daemon, its tasks and the hosts. -/
inductive Move
  | connected (client : ClientId)
  | disconnected (client : ClientId)
  | uploadOffered (client : ClientId) (request : ℕ)
  /-- An offer that never became a transfer is dropped. -/
  | offerDropped (client : ClientId) (request : ℕ)
  | beginUpload (client : ClientId) (request : ℕ) (pane : PaneId) (mime : String)
      (name : Option String) (length : ℕ)
  | resumeUpload (client : ClientId) (request : ℕ) (transfer : String) (pane : PaneId)
      (length : ℕ)
  | probed (i : ℕ) (answers : Bool)
  | relayed (i : ℕ) (host : Host) (items : List RelayItem) (timely : Bool)
  | next
  | refreshDue
  | elapsed (seconds : ℕ)
  | reconfigured (ceiling : ℕ) (targets : TargetSession → Option Target)
  /-- One of the paths given up is removed. -/
  | removed (i : ℕ)
  /-- A host loses a file. -/
  | lost (target : Target) (path : String)

/-- Take a file off a host. -/
def remove (s : Transfers) (target : Target) (path : String) : Transfers :=
  { s with files := fun t p => if t = target ∧ p = path then none else s.files t p }

/-- Whether an attempt is appending to a file. -/
def appending (s : Transfers) (target : Target) (path : String) : Bool :=
  s.attempts.any fun carried =>
    carried.target = target ∧ carried.plan.bind TransferPlan.resumed = some path

def step (sha256 : List UInt8 → String) (tokens : ℕ → Option String) (directories : ℕ → String)
    (s : Transfers) (move : Move) : Transfers × List (ClientId × ServerMessage) :=
  match move with
  | .connected client => ({ s with outboxes := s.outboxes.insert client }, [])
  | .disconnected client =>
      ({ s with
          outboxes := s.outboxes.erase client
          offers := s.offers.filter fun offer => offer.1 ≠ client }, [])
  | .uploadOffered client request => ({ s with offers := (client, request) :: s.offers }, [])
  | .offerDropped client request => (s.dropOffer client request, [])
  | .beginUpload client request pane mime name length =>
      s.beginRelay tokens client request pane mime name length
  | .resumeUpload client request transfer pane length =>
      s.resumeRelay client request transfer pane length
  | .probed i answers => (s.probed i answers, [])
  | .relayed i host items timely => (s.relayed sha256 directories i host items timely, [])
  | .next =>
      match s.inputs with
      | [] => (s, [])
      | reply :: inputs => { s with inputs }.handle reply
  | .refreshDue => (s.sweepRetained, [])
  | .elapsed seconds => ({ s with now := s.now + seconds }, [])
  | .reconfigured ceiling targets => ({ s with ceiling, targets }, [])
  | .removed i =>
      match s.discards[i]? with
      | none => (s, [])
      | some (target, path) =>
          ({ s with discards := s.discards.eraseIdx i }.remove target path, [])
  | .lost target path => (if s.appending target path then s else s.remove target path, [])

end Transfers

end SuperHerdr
