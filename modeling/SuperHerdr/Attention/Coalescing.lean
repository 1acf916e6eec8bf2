import Mathlib
import SuperHerdr.Attention.Marks

/-!
# One notification for several events

The queue of the desktop's and the devices' notifications with its clock. Events are counted as they
come and told of together: not before `COALESCE_WINDOW` has passed since the first of them, and not
before the interval a person asked for has passed since the last notification. Only the newest of the
events are held, but all of them are counted.

Beside a queue runs a `Ledger` of what its calls were asked and what they answered. The queue is at
any time what the ledger says (`Agrees`), and from that follow the laws of coalescing
(`notifications_coalesce`). Times are nanoseconds of a clock that does not run out.
-/

namespace SuperHerdr

open Transducer

def AttentionEventKind.label : AttentionEventKind → String
  | .needsAttention => "needs input"
  | .working => "working"
  | .completed => "completed"
  | .statusChanged => "status changed"
  | .disappeared => "disappeared"

namespace Notifications

def SECOND : ℕ := 1000000000

def COALESCE_WINDOW : ℕ := 500000000

/-- The greatest `usize`, at which a counter stays. -/
@[irreducible] def USIZE_MAX : ℕ := 2 ^ 64 - 1

/-- What a person set, with what the queue times by. -/
structure NotificationsConfig extends SuperHerdr.NotificationsConfig where
  devices : Bool
  minimumIntervalSeconds : ℕ
  commandTimeoutSeconds : ℕ
deriving DecidableEq

/-! ### Deliveries -/

structure NotificationDelivery where
  title : String
  body : String
  pane : Option PaneId
  timeout : ℕ
deriving DecidableEq

def notificationTitle (count : ℕ) (latest : AttentionEvent) : String :=
  if 1 < count then toString count ++ " Super-Herdr agent updates"
  else
    match latest.kind with
    | .needsAttention => "Agent needs attention"
    | .working => "Agent started working"
    | .completed => "Agent completed"
    | .statusChanged => "Agent status changed"
    | .disappeared => "Agent disappeared"

def boundedMetadata (value : String) (maximumCharacters : ℕ) : String :=
  String.ofList ((value.toList.map fun character =>
    if isControl character then ' ' else character).take maximumCharacters)

def notificationBody (count : ℕ) (latest : AttentionEvent) : String :=
  (if 1 < count then "Latest of " ++ toString count ++ ": " else "") ++
    boundedMetadata latest.agent 128 ++ " · " ++ boundedMetadata latest.workspace 128 ++ "\n" ++
    boundedMetadata latest.pane.target 128 ++ "/" ++ boundedMetadata latest.pane.session 128 ++
    " · " ++ latest.kind.label

/-- The notification of so many events, the newest of which is this one. -/
def NotificationDelivery.of (config : NotificationsConfig) (count : ℕ) (latest : AttentionEvent) :
    NotificationDelivery where
  title := notificationTitle count latest
  body := notificationBody count latest
  pane := some latest.pane
  timeout := config.commandTimeoutSeconds * SECOND

/-! ### The queue -/

structure NotificationQueue where
  config : NotificationsConfig
  lastSeenId : Option ℕ
  /-- The newest events not yet delivered. -/
  pending : List AttentionEvent
  pendingCount : ℕ
  queuedAt : Option ℕ
  lastAttempt : Option ℕ
deriving DecidableEq

namespace NotificationQueue

def new (config : NotificationsConfig) (lastSeenId : Option ℕ) : NotificationQueue :=
  ⟨config, lastSeenId, [], 0, none, none⟩

def clearPending (self : NotificationQueue) : NotificationQueue :=
  { self with pending := [], pendingCount := 0, queuedAt := none }

/-- The flag says whether anything changed. -/
def reconfigure (self : NotificationQueue) (config : NotificationsConfig) :
    NotificationQueue × Bool :=
  if self.config = config then (self, false) else ({ self with config }.clearPending, true)

/-- Queue an event for the next delivery. The flag says whether it was queued. -/
def enqueue (self : NotificationQueue) (event : AttentionEvent) (now : ℕ) :
    NotificationQueue × Bool :=
  if self.lastSeenId.any fun id => event.id ≤ id then (self, false)
  else
    let self := { self with lastSeenId := some event.id }
    if !self.config.enabled || !shouldNotify self.config.toNotificationsConfig event.kind then
      (self, false)
    else
      let pending := self.pending ++ [event]
      ({ self with
          pendingCount := min (self.pendingCount + 1) USIZE_MAX
          pending := pending.drop (pending.length - MAX_PENDING_METADATA)
          queuedAt := some (self.queuedAt.getD now) }, true)

def takeReady (self : NotificationQueue) (now : ℕ) :
    NotificationQueue × Option NotificationDelivery :=
  if !self.config.enabled || self.pendingCount = 0 then (self, none)
  else
    match self.queuedAt with
    | none => (self, none)
    | some queuedAt =>
        let coalescedAt := queuedAt + COALESCE_WINDOW
        let rateLimitedAt := (self.lastAttempt.map fun attempt =>
          attempt + self.config.minimumIntervalSeconds * SECOND).getD queuedAt
        if now < max coalescedAt rateLimitedAt then (self, none)
        else
          match self.pending.getLast? with
          | none => (self, none)
          | some latest =>
              ({ self.clearPending with lastAttempt := some now },
                some (.of self.config self.pendingCount latest))

/-- The queue as the daemon's loop holds it, which has no clock. -/
def untimed (self : NotificationQueue) : SuperHerdr.NotificationQueue :=
  ⟨self.config.toNotificationsConfig, self.lastSeenId, self.pending, self.pendingCount⟩

/-- The loop queues what the queue queues, and as many as long as there is a greater count. -/
theorem untimed_enqueue (self : NotificationQueue) (event : AttentionEvent) (now : ℕ)
    (h : self.pendingCount < USIZE_MAX) :
    self.untimed.enqueue event = ((self.enqueue event now).1.untimed, (self.enqueue event now).2) := by
  have hcount : min (self.pendingCount + 1) USIZE_MAX = self.pendingCount + 1 := min_eq_left h
  simp only [SuperHerdr.NotificationQueue.enqueue, enqueue, hcount, untimed]
  by_cases hold : self.lastSeenId.any fun id => event.id ≤ id
  · simp only [hold, if_true]
  · by_cases hunwanted : (!self.config.enabled ||
        !shouldNotify self.config.toNotificationsConfig event.kind) = true
    · simp only [hold, hunwanted, Bool.false_eq_true, if_false, if_true]
    · simp only [hold, hunwanted, Bool.false_eq_true, if_false]

end NotificationQueue

inductive Call
  | enqueue (event : AttentionEvent) (now : ℕ)
  | takeReady (now : ℕ)
  | reconfigure (config : NotificationsConfig)

inductive Answer
  | enqueued (accepted : Bool)
  | taken (delivery : Option NotificationDelivery)
  | reconfigured (changed : Bool)

def step (queue : NotificationQueue) : Call → NotificationQueue × List Answer
  | .enqueue event now => ((queue.enqueue event now).1, [.enqueued (queue.enqueue event now).2])
  | .takeReady now => ((queue.takeReady now).1, [.taken (queue.takeReady now).2])
  | .reconfigure config =>
      ((queue.reconfigure config).1, [.reconfigured (queue.reconfigure config).2])

/-! ### What the calls say -/

/-- What is known of the calls and their answers. -/
structure Ledger where
  /-- The identifiers of the events there were, queued or not. -/
  seen : List ℕ
  /-- The events queued since the last delivery or reconfiguration, and when each was. -/
  outstanding : List (AttentionEvent × ℕ)
  lastDelivery : Option ℕ
  /-- The events of all deliveries. -/
  covered : List AttentionEvent

namespace Ledger

def start (lastSeenId : Option ℕ) : Ledger := ⟨lastSeenId.toList, [], none, []⟩

/-- Write down a call and what it answered. -/
def note (self : Ledger) (_ : NotificationQueue) (call : Call)
    (result : NotificationQueue × List Answer) : Ledger :=
  match call, result.2 with
  | .enqueue event now, [.enqueued true] =>
      { self with
          seen := event.id :: self.seen
          outstanding := self.outstanding ++ [(event, now)] }
  | .enqueue event _, _ => { self with seen := event.id :: self.seen }
  | .takeReady now, [.taken (some _)] =>
      { self with
          outstanding := []
          lastDelivery := some now
          covered := self.covered ++ self.outstanding.map Prod.fst }
  | .reconfigure _, [.reconfigured true] => { self with outstanding := [] }
  | _, _ => self

end Ledger

/-- A queue beside its ledger. -/
abbrev kept : NotificationQueue × Ledger → Call → (NotificationQueue × Ledger) × List Answer :=
  observe step Ledger.note

/-- What a call may answer, if the notification of `n` events reports `report n`. -/
def Lawful (report : ℕ → ℕ) (s : NotificationQueue × Ledger) : Call → Prop
  | .enqueue event now => (s.1.enqueue event now).2 = true → ∀ id ∈ s.2.seen, id < event.id
  | .takeReady now => ∀ delivery, (s.1.takeReady now).2 = some delivery →
      ∃ first latest, s.2.outstanding.head? = some first ∧ s.2.outstanding.getLast? = some latest ∧
        first.2 + COALESCE_WINDOW ≤ now ∧
        (∀ last ∈ s.2.lastDelivery, last + s.1.config.minimumIntervalSeconds * SECOND ≤ now) ∧
        delivery = .of s.1.config (report s.2.outstanding.length) latest.1
  | .reconfigure _ => True

/-- No event is told of twice, and few events are held. -/
structure Bounded (s : NotificationQueue × Ledger) : Prop where
  once : (s.2.covered ++ s.2.outstanding.map Prod.fst).Pairwise fun event later => event.id < later.id
  held : s.1.pending.length ≤ MAX_PENDING_METADATA

/-! ### The queue is what the ledger says -/

structure Agrees (s : NotificationQueue × Ledger) : Prop where
  pending : s.1.pending =
    (s.2.outstanding.map Prod.fst).drop (s.2.outstanding.length - MAX_PENDING_METADATA)
  pendingCount : s.1.pendingCount = min s.2.outstanding.length USIZE_MAX
  queuedAt : s.1.queuedAt = s.2.outstanding.head?.map Prod.snd
  lastAttempt : s.1.lastAttempt = s.2.lastDelivery
  seen : ∀ id ∈ s.2.seen, ∃ last ∈ s.1.lastSeenId, id ≤ last
  told : ∀ event ∈ s.2.covered ++ s.2.outstanding.map Prod.fst, event.id ∈ s.2.seen
  once : (s.2.covered ++ s.2.outstanding.map Prod.fst).Pairwise fun event later => event.id < later.id

theorem agrees_start (config : NotificationsConfig) (lastSeenId : Option ℕ) :
    Agrees (NotificationQueue.new config lastSeenId, Ledger.start lastSeenId) where
  pending := rfl
  pendingCount := (Nat.zero_min _).symm
  queuedAt := rfl
  lastAttempt := rfl
  seen id hid := ⟨id, Option.mem_toList.mp hid, le_rfl⟩
  told _ h := absurd h List.not_mem_nil
  once := List.Pairwise.nil

variable {s : NotificationQueue × Ledger}

theorem Agrees.bounded (h : Agrees s) : Bounded s where
  once := h.once
  held := by
    rw [h.pending, List.length_drop, List.length_map]
    omega

/-- **What `enqueue` does**: an event that is not newer than all there were changes nothing, and any
other is remembered; one that is wanted is queued. -/
theorem enqueue_cases (queue : NotificationQueue) (event : AttentionEvent) (now : ℕ) :
    (∃ id ∈ queue.lastSeenId, event.id ≤ id) ∧ queue.enqueue event now = (queue, false) ∨
      (∀ id ∈ queue.lastSeenId, id < event.id) ∧
        ((queue.config.enabled && shouldNotify queue.config.toNotificationsConfig event.kind) = false ∧
            queue.enqueue event now = ({ queue with lastSeenId := some event.id }, false) ∨
          (queue.config.enabled && shouldNotify queue.config.toNotificationsConfig event.kind) = true ∧
            queue.enqueue event now =
              ({ queue with
                  lastSeenId := some event.id
                  pendingCount := min (queue.pendingCount + 1) USIZE_MAX
                  pending := (queue.pending ++ [event]).drop
                    (queue.pending.length + 1 - MAX_PENDING_METADATA)
                  queuedAt := some (queue.queuedAt.getD now) }, true)) := by
  by_cases hold : (queue.lastSeenId.any fun id => event.id ≤ id) = true
  · obtain ⟨id, hid, hle⟩ := (Option.any_eq_true _ _).mp hold
    exact .inl ⟨⟨id, hid, of_decide_eq_true hle⟩, by rw [NotificationQueue.enqueue, if_pos hold]⟩
  · refine .inr ⟨fun id hid => ?_, ?_⟩
    · by_contra hle
      exact hold ((Option.any_eq_true _ _).mpr ⟨id, hid, decide_eq_true (not_lt.mp hle)⟩)
    · rw [NotificationQueue.enqueue, if_neg hold]
      simp only [List.length_append, List.length_singleton, ← Bool.not_and]
      split
      · next hunwanted => exact .inl ⟨Bool.eq_false_of_not_eq_true' hunwanted, rfl⟩
      · next hwanted => exact .inr ⟨by simpa using hwanted, rfl⟩

/-- What is held is delivered when it may be. -/
theorem takeReady_of_ready {queue : NotificationQueue} {now queuedAt : ℕ} {latest : AttentionEvent}
    (henabled : queue.config.enabled = true) (hcount : queue.pendingCount ≠ 0)
    (hqueued : queue.queuedAt = some queuedAt) (hlatest : queue.pending.getLast? = some latest)
    (hcoalesced : queuedAt + COALESCE_WINDOW ≤ now)
    (hlimited : (queue.lastAttempt.map fun attempt =>
      attempt + queue.config.minimumIntervalSeconds * SECOND).getD queuedAt ≤ now) :
    queue.takeReady now =
      ({ queue.clearPending with lastAttempt := some now },
        some (.of queue.config queue.pendingCount latest)) := by
  have hidle : ¬(!queue.config.enabled || decide (queue.pendingCount = 0)) = true := by
    simp [henabled, hcount]
  rw [NotificationQueue.takeReady, if_neg hidle, hqueued]
  simp only
  rw [if_neg (not_lt.mpr (max_le hcoalesced hlimited)), hlatest]

/-- **What `takeReady` does**: nothing, or all that is held is delivered. -/
theorem takeReady_cases (queue : NotificationQueue) (now : ℕ) :
    queue.takeReady now = (queue, none) ∨
      ∃ queuedAt latest, queue.queuedAt = some queuedAt ∧ queue.pending.getLast? = some latest ∧
        queuedAt + COALESCE_WINDOW ≤ now ∧
        (∀ attempt ∈ queue.lastAttempt,
          attempt + queue.config.minimumIntervalSeconds * SECOND ≤ now) ∧
        queue.takeReady now =
          ({ queue.clearPending with lastAttempt := some now },
            some (.of queue.config queue.pendingCount latest)) := by
  rw [NotificationQueue.takeReady]
  split_ifs with hidle
  · exact .inl rfl
  · cases hqueued : queue.queuedAt with
    | none => exact .inl rfl
    | some queuedAt =>
      simp only
      split_ifs with hearly
      · exact .inl rfl
      · cases hlast : queue.pending.getLast? with
        | none => exact .inl rfl
        | some latest =>
          rw [not_lt, max_le_iff] at hearly
          refine .inr ⟨queuedAt, latest, rfl, rfl, hearly.1, fun attempt hattempt => ?_, rfl⟩
          have hlimited := hearly.2
          rw [Option.mem_def.mp hattempt, Option.map_some, Option.getD_some] at hlimited
          exact hlimited

theorem drop_append_drop {α : Type} (events : List α) (event : α) (bound : ℕ) :
    (events.drop (events.length - bound) ++ [event]).drop
        ((events.drop (events.length - bound)).length + 1 - bound) =
      (events ++ [event]).drop (events.length + 1 - bound) := by
  rw [← List.drop_append_of_le_length (Nat.sub_le _ _), List.drop_drop, List.length_drop]
  congr 1
  omega

theorem min_succ_min (count bound : ℕ) : min (min count bound + 1) bound = min (count + 1) bound := by
  omega

theorem Agrees.newer (h : Agrees s) {event : AttentionEvent}
    (hnew : ∀ id ∈ s.1.lastSeenId, id < event.id) : ∀ id ∈ s.2.seen, id < event.id := by
  intro id hid
  obtain ⟨last, hlast, hle⟩ := h.seen id hid
  exact hle.trans_lt (hnew last hlast)

theorem Agrees.seen_cons (h : Agrees s) {event : AttentionEvent}
    (hnew : ∀ id ∈ s.1.lastSeenId, id < event.id) :
    ∀ id ∈ event.id :: s.2.seen, ∃ last ∈ some event.id, id ≤ last := by
  intro id hid
  rcases List.mem_cons.mp hid with rfl | hid
  · exact ⟨_, rfl, le_rfl⟩
  · exact ⟨_, rfl, (h.newer hnew id hid).le⟩

theorem Agrees.enqueue (h : Agrees s) (event : AttentionEvent)
    (now : ℕ) : Agrees (kept s (.enqueue event now)).1 := by
  obtain ⟨queue, ledger⟩ := s
  have htold : ∀ other ∈ ledger.covered ++ ledger.outstanding.map Prod.fst,
      other.id ∈ event.id :: ledger.seen := fun other hother =>
    List.mem_cons_of_mem _ (h.told other hother)
  rcases enqueue_cases queue event now with
    ⟨⟨last, hlast, hle⟩, hcall⟩ | ⟨hnew, ⟨-, hcall⟩ | ⟨-, hcall⟩⟩
  · -- it is not newer than what was seen, and is seen now
    simp only [kept, observe, step, hcall, Ledger.note]
    refine ⟨h.pending, h.pendingCount, h.queuedAt, h.lastAttempt, fun id hid => ?_, htold, h.once⟩
    rcases List.mem_cons.mp hid with rfl | hid
    · exact ⟨last, hlast, hle⟩
    · exact h.seen id hid
  · -- it is newer, and nobody wants to be told of it
    simp only [kept, observe, step, hcall, Ledger.note]
    exact ⟨h.pending, h.pendingCount, h.queuedAt, h.lastAttempt, h.seen_cons hnew, htold, h.once⟩
  · simp only [kept, observe, step, hcall, Ledger.note]
    refine ⟨?_, ?_, ?_, h.lastAttempt, h.seen_cons hnew, ?_, ?_⟩
    · -- of the events outstanding the newest are held, also with one more
      have hpending := h.pending
      simp only at hpending ⊢
      have hlength : (ledger.outstanding.map Prod.fst).length = ledger.outstanding.length :=
        List.length_map ..
      rw [hpending, ← hlength, drop_append_drop]
      simp
    · have hcount := h.pendingCount
      simp only at hcount ⊢
      rw [hcount, List.length_append, List.length_singleton]
      exact min_succ_min _ _
    · have hqueued := h.queuedAt
      simp only at hqueued ⊢
      rw [hqueued]
      cases ledger.outstanding <;> rfl
    · simp only [List.map_append, List.map_cons, List.map_nil, ← List.append_assoc]
      intro other hother
      rcases List.mem_append.mp hother with hother | hother
      · exact htold other hother
      · rw [List.mem_singleton.mp hother]
        exact List.mem_cons_self
    · simp only [List.map_append, List.map_cons, List.map_nil, ← List.append_assoc]
      rw [List.pairwise_append]
      refine ⟨h.once, List.pairwise_singleton _ _, fun other hother later hlater => ?_⟩
      rw [List.mem_singleton.mp hlater]
      exact h.newer hnew _ (h.told other hother)

theorem Agrees.takeReady (h : Agrees s) (now : ℕ) : Agrees (kept s (.takeReady now)).1 := by
  obtain ⟨queue, ledger⟩ := s
  rcases takeReady_cases queue now with hcall | ⟨queuedAt, latest, -, -, -, -, hcall⟩
  · simp only [kept, observe, step, hcall, Ledger.note]
    exact h
  · simp only [kept, observe, step, hcall, Ledger.note]
    refine ⟨rfl, (Nat.zero_min _).symm, rfl, rfl, h.seen, ?_, ?_⟩
    · simpa using h.told
    · simpa using h.once

theorem Agrees.reconfigure (h : Agrees s)
    (config : NotificationsConfig) : Agrees (kept s (.reconfigure config)).1 := by
  obtain ⟨queue, ledger⟩ := s
  by_cases hsame : queue.config = config
  · have hcall : queue.reconfigure config = (queue, false) := if_pos hsame
    simp only [kept, observe, step, hcall, Ledger.note]
    exact h
  · have hcall : queue.reconfigure config = ({ queue with config }.clearPending, true) :=
      if_neg hsame
    simp only [kept, observe, step, hcall, Ledger.note]
    refine ⟨rfl, (Nat.zero_min _).symm, rfl, h.lastAttempt, h.seen, fun event hevent => ?_, ?_⟩
    · rw [List.map_nil, List.append_nil] at hevent
      exact h.told event (List.mem_append_left _ hevent)
    · rw [List.map_nil, List.append_nil]
      exact (List.pairwise_append.mp h.once).1

/-- **A queue stays what its ledger says**, whatever it is asked. -/
theorem Agrees.step (h : Agrees s) (call : Call) : Agrees (kept s call).1 := by
  cases call with
  | enqueue event now => exact h.enqueue event now
  | takeReady now => exact h.takeReady now
  | reconfigure config => exact h.reconfigure config

theorem Agrees.getLast? (h : Agrees s) {latest : AttentionEvent}
    (hlatest : s.1.pending.getLast? = some latest) :
    ∃ entry, s.2.outstanding.getLast? = some entry ∧ entry.1 = latest := by
  rw [h.pending, List.getLast?_drop] at hlatest
  split_ifs at hlatest
  rw [List.getLast?_map, Option.map_eq_some_iff] at hlatest
  exact hlatest

/-- **What a call answers**, where the queue is what its ledger says. -/
theorem Agrees.lawful (h : Agrees s) (call : Call) : Lawful (min · USIZE_MAX) s call := by
  cases call with
  | enqueue event now =>
    intro haccepted
    rcases enqueue_cases s.1 event now with ⟨-, hcall⟩ | ⟨hnew, -⟩
    · rw [hcall] at haccepted
      cases haccepted
    · exact h.newer hnew
  | takeReady now =>
    intro delivery hdelivery
    rcases takeReady_cases s.1 now with
      hcall | ⟨queuedAt, latest, hqueued, hlatest, hcoalesced, hlimited, hcall⟩
    · rw [hcall] at hdelivery
      cases hdelivery
    · obtain ⟨entry, hentry, rfl⟩ := h.getLast? hlatest
      rw [h.queuedAt, Option.map_eq_some_iff] at hqueued
      obtain ⟨first, hfirst, rfl⟩ := hqueued
      rw [h.lastAttempt] at hlimited
      rw [hcall, h.pendingCount] at hdelivery
      exact ⟨first, entry, hfirst, hentry, hcoalesced, hlimited, (Option.some.inj hdelivery).symm⟩
  | reconfigure config => trivial

/-- **Notifications coalesce**, in any run of a queue: an event is queued only if it is newer than
all there were, no event is told of twice, and few are held. A delivery comes no sooner than it may,
reports how many events were queued since the last delivery or reconfiguration, up to the greatest
number there is, and names the newest of them. -/
theorem notifications_coalesce (config : NotificationsConfig) (lastSeenId : Option ℕ)
    (calls : List Call) :
    AllSteps kept (Lawful (min · USIZE_MAX))
        (NotificationQueue.new config lastSeenId, Ledger.start lastSeenId) calls ∧
      AllStates kept Bounded
        (NotificationQueue.new config lastSeenId, Ledger.start lastSeenId) calls := by
  have hstart := agrees_start config lastSeenId
  refine ⟨allSteps_of_invariant (fun s call h => h.step call) (fun s call h => h.lawful call) hstart
    calls, ?_⟩
  exact allStates_of_allSteps (I := Agrees) (G := fun _ _ => True) (fun s call h => h.step call)
    (fun s call h _ _ => (h.step call).bounded) hstart hstart.bounded
    (allSteps_of_invariant (fun s call h => h.step call) (fun _ _ _ => trivial) hstart calls)

/-! ### More events than can be counted -/

/-- Everything is wanted. -/
def eager : NotificationsConfig where
  enabled := true
  needsAttention := true
  working := true
  completed := true
  statusChanged := true
  disappeared := true
  devices := false
  minimumIntervalSeconds := 1
  commandTimeoutSeconds := 5

def numbered (id : ℕ) : AttentionEvent :=
  ⟨id, ⟨"local", "default", "w1:p1"⟩, "claude", "build", "blocked", .needsAttention, 0, true⟩

/-- So many events at once. -/
def flood (count : ℕ) : List Call := (List.range count).map fun id => .enqueue (numbered id) 0

/-- All of a flood is queued. -/
theorem exec_flood (count : ℕ) :
    let s := (exec kept (NotificationQueue.new eager none, Ledger.start none) (flood count)).1
    s.1.config = eager ∧ (∀ id ∈ s.1.lastSeenId, id < count) ∧ s.2.lastDelivery = none ∧
      s.2.outstanding = (List.range count).map fun id => (numbered id, 0) := by
  induction count with
  | zero => exact ⟨rfl, fun id hid => absurd hid (Option.not_mem_none id), rfl, rfl⟩
  | succ count ih =>
    obtain ⟨hconfig, hseen, hdelivery, houtstanding⟩ := ih
    have hflood : flood (count + 1) = flood count ++ [.enqueue (numbered count) 0] := by
      rw [flood, flood, List.range_succ, List.map_append, List.map_singleton]
    rw [hflood, exec_concat_fst]
    generalize (exec kept (NotificationQueue.new eager none, Ledger.start none) (flood count)).1 = s at *
    have hwanted : (s.1.config.enabled &&
        shouldNotify s.1.config.toNotificationsConfig (numbered count).kind) = true := by
      rw [hconfig]
      rfl
    rcases enqueue_cases s.1 (numbered count) 0 with
      ⟨⟨id, hid, hle⟩, -⟩ | ⟨-, ⟨hunwanted, -⟩ | ⟨-, hcall⟩⟩
    · exact absurd (hseen id hid) (not_lt.mpr hle)
    · rw [hwanted] at hunwanted
      cases hunwanted
    · simp only [kept, observe, step, hcall, Ledger.note]
      refine ⟨hconfig, fun id hid => ?_, hdelivery, ?_⟩
      · obtain rfl := Option.some.inj (Option.mem_def.mp hid)
        exact Nat.lt_succ_self count
      · rw [houtstanding, List.range_succ, List.map_append, List.map_singleton]

theorem notificationTitle_inj {count other : ℕ} {latest later : AttentionEvent} (hcount : 1 < count)
    (hother : 1 < other) (h : notificationTitle count latest = notificationTitle other later) :
    count = other := by
  rw [notificationTitle, notificationTitle, if_pos hcount, if_pos hother, String.append_left_inj] at h
  exact Nat.repr_injective h

/-- What is told of a flood. -/
theorem takeReady_flood (count : ℕ) :
    ((exec kept (NotificationQueue.new eager none, Ledger.start none) (flood (count + 1))).1.1.takeReady
        COALESCE_WINDOW).2 =
      some (.of eager (min (count + 1) USIZE_MAX) (numbered count)) := by
  have hagrees : Agrees
      (exec kept (NotificationQueue.new eager none, Ledger.start none) (flood (count + 1))).1 :=
    exec_invariant (fun s call h => h.step call) (agrees_start eager none) _
  obtain ⟨hconfig, -, hdelivery, houtstanding⟩ := exec_flood (count + 1)
  generalize (exec kept (NotificationQueue.new eager none, Ledger.start none)
    (flood (count + 1))).1 = s at *
  have hlength : s.2.outstanding.length = count + 1 := by
    rw [houtstanding, List.length_map, List.length_range]
  have hcount : s.1.pendingCount = min (count + 1) USIZE_MAX := by rw [hagrees.pendingCount, hlength]
  have hqueued : s.1.queuedAt = some 0 := by
    rw [hagrees.queuedAt, houtstanding, List.range_succ_eq_map]
    rfl
  have hheld : ¬count + 1 ≤ count + 1 - MAX_PENDING_METADATA := by
    rw [MAX_PENDING_METADATA]
    omega
  have hlatest : s.1.pending.getLast? = some (numbered count) := by
    rw [hagrees.pending, List.getLast?_drop, List.length_map, hlength, if_neg hheld,
      List.getLast?_map, houtstanding, List.range_succ, List.map_append]
    simp
  have hpositive : s.1.pendingCount ≠ 0 := by
    rw [hcount, USIZE_MAX]
    omega
  have htaken := @takeReady_of_ready _ COALESCE_WINDOW _ _ (by rw [hconfig]; rfl) hpositive hqueued
    hlatest (by rw [Nat.zero_add]) (by rw [hagrees.lastAttempt, hdelivery]; exact Nat.zero_le _)
  rw [htaken, hcount, hconfig]

/-- One event more than can be counted is not counted. -/
theorem a_flood_is_undercounted :
    ¬AllSteps kept (Lawful id) (NotificationQueue.new eager none, Ledger.start none)
      (flood (USIZE_MAX + 1) ++ [.takeReady COALESCE_WINDOW]) := by
  intro hlawful
  obtain ⟨-, latest, -, -, -, -, hdelivery⟩ :=
    AllSteps.of_append hlawful _ (takeReady_flood USIZE_MAX)
  obtain ⟨hconfig, -, -, houtstanding⟩ := exec_flood (USIZE_MAX + 1)
  rw [hconfig, houtstanding, List.length_map, List.length_range, id_eq,
    min_eq_right (Nat.le_succ _)] at hdelivery
  have hmax : 1 < USIZE_MAX := by
    rw [USIZE_MAX]
    decide
  have htitle : notificationTitle USIZE_MAX (numbered USIZE_MAX) =
      notificationTitle (USIZE_MAX + 1) latest.1 := congrArg NotificationDelivery.title hdelivery
  exact absurd (notificationTitle_inj hmax (Nat.lt_succ_of_lt hmax) htitle) (Nat.lt_succ_self _).ne

end Notifications

end SuperHerdr
