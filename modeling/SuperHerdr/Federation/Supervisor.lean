import Mathlib
import SuperHerdr.Library.Transducer
import SuperHerdr.Protocol.State

/-!
# One supervised target

A supervisor is a task that reads one target's snapshot again and again, and publishes what it
finds. It is modelled as a machine that waits (`Awaiting`) and is woken (`Wake`): a wake runs it
to the next place where it waits, and what it publishes on the way is a list of `Record`, each
of which changes the target's entry of the federation state.

A connection generation is a number the supervisor counts itself: it starts at zero and is counted
on by the first success and by every success after a failure. `connections` counts the same
without a bound; the supervisor does not read it.

A host's answer is taken as the text a supervisor reads off it: the normalised snapshot and the
identifiers of its panes.
-/

namespace SuperHerdr

open Std

/-- The last generation there is: the counter saturates. -/
def MAX_GENERATION : ℕ := 2 ^ 64 - 1

/-- What the daemon needs to know of a configured target. -/
structure ConfiguredTarget where
  name : String
  ssh : Option String
  session : Option String
  socket : Option String
  roots : List String
deriving DecidableEq

namespace ConfiguredTarget

def endpoint (self : ConfiguredTarget) : String := self.ssh.getD "local"

def sessionName (self : ConfiguredTarget) : String := self.session.getD "default"

end ConfiguredTarget

def targetKey (target : ConfiguredTarget) : TargetSession := ⟨target.name, target.sessionName⟩

structure SupervisorOptions where
  refreshInterval : ℕ
  initialBackoff : ℕ
  maximumBackoff : ℕ
deriving DecidableEq

/-- How long to wait after so many failures in a row. -/
def retryDelay (options : SupervisorOptions) (failedAttempts : ℕ) : ℕ :=
  let exponent := min (failedAttempts - 1) 31
  min (options.initialBackoff * 2 ^ exponent) options.maximumBackoff

/-! ### What a host answers -/

/-- What is read off one snapshot of a host. -/
structure TransportSnapshot where
  snapshot : NormalizedSnapshot
  paneIds : List String
  herdrBin : String

inductive SnapshotErrorKind
  | incompatible
  | timeout
  | unavailable
deriving DecidableEq

structure SnapshotError where
  kind : SnapshotErrorKind
  message : String
deriving DecidableEq

/-! ### What is published -/

inductive Record
  | success (generation connection : ℕ) (selection : TransportSnapshot)
  | backoff (failedAttempts delay : ℕ) (error : SnapshotError)
  | incompatible (error : SnapshotError)
  | updateMode (updateMode : TargetUpdateMode) (eventError : Option String)

namespace TargetRuntimeState

def new (target : ConfiguredTarget) : TargetRuntimeState where
  key := targetKey target
  endpoint := target.endpoint
  connection := .connecting
  updateMode := .polling
  eventError := none
  connectionGeneration := 0
  selectedHerdrBin := none
  roots := target.roots
  snapshot := none
  lastError := none
  lastSuccess := none
  retryAt := none

/-- Whether a result of this generation is current. -/
def acceptsGeneration (self : TargetRuntimeState) (generation : ℕ) : Bool :=
  self.connection = .live ∧ self.connectionGeneration = generation

/-- What a record makes of a target, and whether it is a new revision. -/
def record (nowMs : ℕ) (self : TargetRuntimeState) : Record → TargetRuntimeState × Bool
  | .success generation _ selection =>
      ({ self with
          connection := .live
          connectionGeneration := generation
          selectedHerdrBin := some selection.herdrBin
          snapshot := some selection.snapshot
          lastError := none
          lastSuccess := some nowMs
          retryAt := none }, true)
  | .backoff failedAttempts delay error =>
      ({ self with
          connection := .backoff failedAttempts
          lastError := some error.message
          retryAt := some (nowMs + delay) }, true)
  | .incompatible error =>
      ({ self with
          connection := .incompatible
          lastError := some error.message
          retryAt := none }, true)
  | .updateMode updateMode eventError =>
      if self.updateMode = updateMode ∧ self.eventError = eventError then (self, false)
      else ({ self with updateMode, eventError }, true)

end TargetRuntimeState

/-- Publish a record of one target. -/
def FederationState.record (key : TargetSession) (nowMs : ℕ) (state : FederationState)
    (record : Record) : FederationState :=
  match state.targets[key]? with
  | none => state
  | some target =>
      let (target, revised) := target.record nowMs record
      { revision := if revised then state.revision + 1 else state.revision
        targets := state.targets.insert key target }

/-! ### The supervisor -/

/-- Where a supervisor waits. -/
inductive Awaiting
  /-- For a change stream, before it takes a snapshot. -/
  | subscribing
  | snapshot
  /-- For a change stream, until the next refresh. -/
  | resubscribing
  /-- For a change, until the next refresh. -/
  | changes
  /-- For the next refresh or the end of a backoff. -/
  | delay
  /-- For the shutdown: the target will not be compatible any sooner. -/
  | shutdown
  | stopped
deriving DecidableEq

/-- What wakes a supervisor. -/
inductive Wake
  /-- The store was told to shut down, or is gone. -/
  | shutdown
  | nudged
  | elapsed
  | opened
  | refused (message : String)
  | taken (selection : TransportSnapshot)
  | failed (error : SnapshotError)
  | changed
  | ended (message : String)

structure Supervisor where
  key : TargetSession
  socket : Bool
  options : SupervisorOptions
  connectionGeneration : ℕ
  connected : Bool
  failedAttempts : ℕ
  changeStream : Bool
  subscribedPaneIds : List String
  /-- The panes of the last good snapshot, kept across failures. -/
  knownPaneIds : List String
  awaiting : Awaiting
  connections : ℕ
deriving DecidableEq

namespace Supervisor

/-- Go round the loop. The stream is opened before the snapshot, unless the target is failing. -/
def restart (self : Supervisor) : Supervisor :=
  { self with awaiting :=
      if self.socket ∧ !self.changeStream ∧ self.failedAttempts = 0 then .subscribing
      else .snapshot }

def start (options : SupervisorOptions) (target : ConfiguredTarget) : Supervisor :=
  restart
    { key := targetKey target, socket := target.socket.isSome, options
      connectionGeneration := 0, connected := false, failedAttempts := 0
      changeStream := false, subscribedPaneIds := [], knownPaneIds := []
      awaiting := .snapshot, connections := 0 }

/-- A snapshot was taken. Without a connection, this is a new one. -/
def take (self : Supervisor) (selection : TransportSnapshot) : Supervisor × List Record :=
  let self := { self with knownPaneIds := selection.paneIds }
  let self :=
    if self.connected then self
    else { self with
      connectionGeneration := min (self.connectionGeneration + 1) MAX_GENERATION
      connections := self.connections + 1 }
  let self := { self with connected := true, failedAttempts := 0 }
  let records := [.success self.connectionGeneration self.connections selection]
  if !self.socket then ({ self with awaiting := .delay }, records)
  else if !self.changeStream ∨ self.subscribedPaneIds ≠ selection.paneIds then
    ({ self with changeStream := false, awaiting := .resubscribing }, records)
  else ({ self with awaiting := .changes }, records)

/-- A snapshot could not be taken. -/
def fail (self : Supervisor) (error : SnapshotError) : Supervisor × List Record :=
  if error.kind = .incompatible then ({ self with awaiting := .shutdown }, [.incompatible error])
  else
    let failedAttempts := self.failedAttempts + 1
    ({ self with
        changeStream := false, subscribedPaneIds := [], connected := false, failedAttempts
        awaiting := .delay },
      [.updateMode .polling none,
        .backoff failedAttempts (retryDelay self.options failedAttempts) error])

/-- Run from one place where the supervisor waits to the next. -/
def wake (self : Supervisor) (wake : Wake) : Supervisor × List Record :=
  match self.awaiting, wake with
  | .stopped, _ => (self, [])
  | _, .shutdown => ({ self with awaiting := .stopped }, [])
  | .subscribing, .nudged | .resubscribing, .nudged | .resubscribing, .elapsed
  | .changes, .nudged | .changes, .elapsed | .changes, .changed
  | .delay, .nudged | .delay, .elapsed => (self.restart, [])
  | .subscribing, .opened =>
      ({ self with
          changeStream := true, subscribedPaneIds := self.knownPaneIds, awaiting := .snapshot },
        [.updateMode .events none])
  | .subscribing, .refused message =>
      ({ self with awaiting := .snapshot }, [.updateMode .polling (some message)])
  | .snapshot, .taken selection => self.take selection
  | .snapshot, .failed error => self.fail error
  | .resubscribing, .opened =>
      ({ self with
          changeStream := true, subscribedPaneIds := self.knownPaneIds, awaiting := .changes },
        [.updateMode .events none])
  | .resubscribing, .refused message =>
      ({ self with awaiting := .delay }, [.updateMode .polling (some message)])
  | .changes, .ended message =>
      ({ self with changeStream := false, subscribedPaneIds := [], awaiting := .delay },
        [.updateMode .polling (some message)])
  | _, _ => (self, [])

/-! ### What a wake does to the generation -/

/-- A snapshot that makes a new connection. -/
def connects (self : Supervisor) : Wake → Bool
  | .taken _ => self.awaiting = .snapshot ∧ !self.connected
  | _ => false

/-- The generation counts the connections, up to the last one there is. -/
structure Counts (s : Supervisor) : Prop where
  generation : s.connectionGeneration = min s.connections MAX_GENERATION
  connected : s.connected = true → 0 < s.connections

theorem counts_start (options : SupervisorOptions) (target : ConfiguredTarget) :
    (start options target).Counts := by
  refine ⟨(Nat.zero_min _).symm, fun h => ?_⟩
  cases h

/-- What a wake does: the generation is counted on by a new connection, which is published, and
whatever is published is published under the generation as it is now. -/
structure Wakes (s : Supervisor) (wake : Wake) (result : Supervisor × List Record) : Prop where
  key : result.1.key = s.key
  counts : s.Counts → result.1.Counts
  connections : result.1.connections = s.connections + (s.connects wake).toNat
  published : ∀ generation connection selection,
    .success generation connection selection ∈ result.2 → result.1.connected = true ∧
      generation = result.1.connectionGeneration ∧ connection = result.1.connections
  connected : s.connects wake = true → ∃ selection,
    result.2 = [.success result.1.connectionGeneration result.1.connections selection]

/-- A wake that takes no snapshot leaves the counters alone. -/
theorem wakes_of_same {s : Supervisor} {wake : Wake} {result : Supervisor × List Record}
    (hkey : result.1.key = s.key)
    (hgeneration : result.1.connectionGeneration = s.connectionGeneration)
    (hconnections : result.1.connections = s.connections)
    (hconnected : result.1.connected = true → s.connected = true)
    (hwake : s.connects wake = false)
    (hrecords : ∀ generation connection selection,
      Record.success generation connection selection ∉ result.2) : s.Wakes wake result where
  key := hkey
  counts h := ⟨by rw [hgeneration, hconnections, h.generation], fun hlive => by
    rw [hconnections]
    exact h.connected (hconnected hlive)⟩
  connections := by rw [hconnections, hwake]; rfl
  published generation connection selection h := absurd h (hrecords _ _ _)
  connected h := by rw [hwake] at h; cases h

theorem wakes_take (s : Supervisor) (selection : TransportSnapshot)
    (hawaiting : s.awaiting = .snapshot) : s.Wakes (.taken selection) (s.take selection) := by
  -- where it waits next does not matter
  have hresult : ∃ awaiting changeStream,
      s.take selection =
        ({ s with
            knownPaneIds := selection.paneIds
            connectionGeneration :=
              if s.connected then s.connectionGeneration
              else min (s.connectionGeneration + 1) MAX_GENERATION
            connections := if s.connected then s.connections else s.connections + 1
            connected := true, failedAttempts := 0, awaiting, changeStream },
          [.success
            (if s.connected then s.connectionGeneration
              else min (s.connectionGeneration + 1) MAX_GENERATION)
            (if s.connected then s.connections else s.connections + 1) selection]) := by
    rw [take]
    cases s.connected with
    | true =>
      simp only [if_true]
      split_ifs
      all_goals exact ⟨_, _, rfl⟩
    | false =>
      simp only [Bool.false_eq_true, if_false]
      split_ifs
      all_goals exact ⟨_, _, rfl⟩
  obtain ⟨awaiting, changeStream, hresult⟩ := hresult
  have hconnects : s.connects (.taken selection) = !s.connected := by simp [connects, hawaiting]
  rw [hresult]
  refine ⟨rfl, fun h => ⟨?_, fun _ => ?_⟩, ?_, fun generation connection other hmem => ?_,
    fun _ => ⟨selection, rfl⟩⟩
  · have hgeneration := h.generation
    simp only
    split <;> omega
  · have hconnected := h.connected
    simp only
    split
    · next hlive => exact hconnected hlive
    · exact Nat.succ_pos _
  · rw [hconnects]
    cases s.connected <;> rfl
  · obtain ⟨rfl, rfl, -⟩ := Record.success.inj (List.mem_singleton.mp hmem)
    exact ⟨rfl, rfl, rfl⟩

theorem wakes_fail (s : Supervisor) (error : SnapshotError) :
    s.Wakes (.failed error) (s.fail error) := by
  rw [fail]
  split
  · refine wakes_of_same rfl rfl rfl id rfl fun generation connection selection h => ?_
    cases List.mem_singleton.mp h
  · refine wakes_of_same rfl rfl rfl (fun h => ?_) rfl fun generation connection selection h => ?_
    · cases h
    · rcases List.mem_pair.mp h with h | h <;> cases h

/-- **What a wake does**, wherever the supervisor waits. -/
theorem wakes_wake (s : Supervisor) (wake : Wake) : s.Wakes wake (s.wake wake) := by
  have hsilent : ∀ (updateMode : TargetUpdateMode) (eventError : Option String)
      (generation connection : ℕ) (selection : TransportSnapshot),
      Record.success generation connection selection ∉
        [Record.updateMode updateMode eventError] := by
    intro updateMode eventError generation connection selection h
    cases List.mem_singleton.mp h
  have hnone : ∀ (generation connection : ℕ) (selection : TransportSnapshot),
      Record.success generation connection selection ∉ [] := fun _ _ _ => List.not_mem_nil
  cases hawaiting : s.awaiting <;> cases wake
  case snapshot.taken selection =>
    simp only [Supervisor.wake, hawaiting]
    exact wakes_take s selection hawaiting
  case snapshot.failed error =>
    simp only [Supervisor.wake, hawaiting]
    exact wakes_fail s error
  all_goals
    simp only [Supervisor.wake, hawaiting]
    refine wakes_of_same rfl rfl rfl id (by simp [connects, hawaiting]) ?_
    first
    | exact hnone
    | exact hsilent _ _

/-! ### Snapshots that are recorded -/

/-- A snapshot that is taken is all that is recorded. -/
theorem records_take (self : Supervisor) (selection : TransportSnapshot) :
    ∃ generation connection, (self.take selection).2 = [.success generation connection selection] := by
  simp only [take]
  split_ifs
  all_goals exact ⟨_, _, rfl⟩

theorem eq_taken_of_success {self : Supervisor} {wake : Wake} {generation connection : ℕ}
    {selection : TransportSnapshot}
    (h : .success generation connection selection ∈ (self.wake wake).2) :
    wake = .taken selection := by
  cases hawaiting : self.awaiting <;> cases wake
  case snapshot.taken taken =>
    simp only [Supervisor.wake, hawaiting] at h
    obtain ⟨_, _, hrecords⟩ := self.records_take taken
    rw [hrecords] at h
    rw [(Record.success.inj (List.mem_singleton.mp h)).2.2]
  case snapshot.failed error =>
    simp only [Supervisor.wake, hawaiting, fail] at h
    split at h
    · cases List.mem_singleton.mp h
    · rcases List.mem_pair.mp h with h | h <;> cases h
  all_goals simp [Supervisor.wake, hawaiting] at h

end Supervisor

end SuperHerdr
