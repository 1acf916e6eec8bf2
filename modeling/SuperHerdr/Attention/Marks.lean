import SuperHerdr.Attention.Index

/-!
# Which agent may reach a device

A person marks an agent: pinned, muted, snoozed until a deadline, or heard of only when it needs
somebody. Marks are kept by `AgentId`, which is the agent's session where Herdr reports one and
its pane otherwise. `agentKeyForPane` recomputes that identity from a pane and the federation as
it is *now*: for a pane without an agent it falls back to the identity an agent without a session
would have there.

An attention event that its agent's marks let through is queued for the devices, if the daemon's
own filters want events of its kind.
-/

namespace SuperHerdr

open Std Transducer

/-! ### Marks -/

def MAX_MARKED_AGENTS : ℕ := 512
def MAX_SNOOZE_MINUTES : ℕ := 24 * 60

namespace AgentMarkState

def default : AgentMarkState := ⟨false, false, none, .default⟩

def snoozedAt (self : AgentMarkState) (nowMs : ℕ) : Bool :=
  self.snoozedUntilMs.any fun deadline => nowMs < deadline

/-- Whether this agent should stop competing for the top of the inbox. -/
def quietAt (self : AgentMarkState) (nowMs : ℕ) : Bool := self.muted || self.snoozedAt nowMs

/-- Whether an attention event about this agent may reach a paired device. -/
def mayNotify (self : AgentMarkState) (needsAttention : Bool) (nowMs : ℕ) : Bool :=
  if self.quietAt nowMs then false
  else
    match self.notify with
    | .default => true
    | .needsYouOnly => needsAttention

end AgentMarkState

/-- What a request makes of the marks it is applied to. -/
def AgentMarkRequest.applyTo (request : AgentMarkRequest) (state : AgentMarkState)
    (nowMs : ℕ) : AgentMarkState :=
  match request with
  | .pin pinned => { state with pinned }
  | .mute muted => { state with muted }
  | .notify mode => { state with notify := mode }
  | .snooze minutes => { state with
      snoozedUntilMs := minutes.map fun minutes =>
        nowMs + min minutes MAX_SNOOZE_MINUTES * 60000 }

structure Marked where
  state : AgentMarkState
  /-- When this mark was last set, which decides what is forgotten first. -/
  touchedMs : ℕ
deriving DecidableEq

structure AgentMarks where
  marks : ExtTreeMap AgentId Marked
deriving DecidableEq

namespace AgentMarks

def default : AgentMarks := ⟨∅⟩

def state (self : AgentMarks) (agent : AgentId) : AgentMarkState :=
  (self.marks[agent]?.map Marked.state).getD .default

/-- The mark that was touched the longest ago, the least agent first. -/
def oldest (self : AgentMarks) : Option AgentId :=
  let earlier (best entry : AgentId × Marked) : AgentId × Marked :=
    if entry.2.touchedMs < best.2.touchedMs ∨
      entry.2.touchedMs = best.2.touchedMs ∧ compare entry.1 best.1 = .lt then entry else best
  match self.marks.toList with
  | [] => none
  | first :: rest => some (rest.foldl earlier first).1

/-- Forget the oldest marks until few enough are left. -/
def enforceCap (self : AgentMarks) : AgentMarks :=
  (List.replicate (self.marks.size - MAX_MARKED_AGENTS) ()).foldl (fun self _ =>
    match self.oldest with
    | some agent => ⟨self.marks.erase agent⟩
    | none => self) self

/-- Apply one request. The flag says whether anything changed. -/
def apply (self : AgentMarks) (agent : AgentId) (request : AgentMarkRequest) (nowMs : ℕ) :
    AgentMarks × Bool :=
  let state := request.applyTo (self.state agent) nowMs
  if state = self.state agent then (self, false)
  else if state = .default then (⟨self.marks.erase agent⟩, true)
  else (enforceCap ⟨self.marks.insert agent ⟨state, nowMs⟩⟩, true)

/-- Drop the snoozes that have run out. -/
def expire (self : AgentMarks) (nowMs : ℕ) : AgentMarks :=
  ⟨self.marks.filterMap fun _ marked =>
    if marked.state.snoozedUntilMs.any fun deadline => deadline ≤ nowMs then
      let state := { marked.state with snoozedUntilMs := none }
      if state = .default then none else some { marked with state }
    else some marked⟩

end AgentMarks

/-! ### The identity of an agent -/

def AGENT_KEY_SEPARATOR : String := "\u001f"

/-- The identity of an agent without a reported session. -/
def paneAgentKey (pane : PaneId) : AgentId :=
  ⟨pane.target, pane.session, "pane" ++ AGENT_KEY_SEPARATOR ++ pane.resource⟩

/-- The identity of one agent, which its cards are published with. -/
def agentKey (agent : AgentState) : AgentId :=
  match agent.session with
  | some session =>
      ⟨agent.pane.target, agent.pane.session, "session" ++ AGENT_KEY_SEPARATOR ++ session.kind ++
        AGENT_KEY_SEPARATOR ++ session.value ++ AGENT_KEY_SEPARATOR ++ session.source ++
        AGENT_KEY_SEPARATOR ++ session.agent⟩
  | none => paneAgentKey agent.pane

theorem targetSession_agentKey (agent : AgentState) :
    (agentKey agent).targetSession = agent.pane.targetSession := by
  rw [agentKey]
  split
  · rfl
  · rfl

/-- The agent a pane holds, by the last snapshot of its target. -/
def FederationState.agentIn (state : FederationState) (pane : PaneId) : Option AgentState :=
  state.targets[pane.targetSession]?.bind fun target =>
    target.snapshot.bind fun snapshot => snapshot.agents[pane]?

/-- The identity of whichever agent is in this pane right now, or the identity an agent without a
session there would have. -/
def agentKeyForPane (state : FederationState) (pane : PaneId) : AgentId :=
  ((state.agentIn pane).map agentKey).getD (paneAgentKey pane)

/-! ### The devices' queue -/

def MAX_PENDING_METADATA : ℕ := 16

/-- Which events a person wants to be told of. -/
structure NotificationsConfig where
  enabled : Bool
  needsAttention : Bool
  working : Bool
  completed : Bool
  statusChanged : Bool
  disappeared : Bool
deriving DecidableEq

def shouldNotify (config : NotificationsConfig) : AttentionEventKind → Bool
  | .needsAttention => config.needsAttention
  | .working => config.working
  | .completed => config.completed
  | .statusChanged => config.statusChanged
  | .disappeared => config.disappeared

structure NotificationQueue where
  config : NotificationsConfig
  lastSeenId : Option ℕ
  /-- The newest events not yet delivered. -/
  pending : List AttentionEvent
  pendingCount : ℕ
deriving DecidableEq

namespace NotificationQueue

def new (config : NotificationsConfig) (lastSeenId : Option ℕ) : NotificationQueue :=
  ⟨config, lastSeenId, [], 0⟩

/-- Queue an event for the next delivery. The flag says whether it was queued. -/
def enqueue (self : NotificationQueue) (event : AttentionEvent) : NotificationQueue × Bool :=
  if self.lastSeenId.any fun id => event.id ≤ id then (self, false)
  else
    let self := { self with lastSeenId := some event.id }
    if !self.config.enabled || !shouldNotify self.config event.kind then (self, false)
    else
      let pending := self.pending ++ [event]
      ({ self with
          pendingCount := self.pendingCount + 1
          pending := pending.drop (pending.length - MAX_PENDING_METADATA) }, true)

end NotificationQueue

end SuperHerdr
