import SuperHerdr.Federation.Supervisor

/-!
# What a change stream is waited on with

A server is a log of changes. A snapshot shows the log as far as it goes when the server answers, and a
stream delivers the changes that are made once the server has opened it. Between the supervisor and its
server there are requests and answers under way, and a supervisor that goes on without an answer drops
it.

A supervisor that waits on a stream counts on what it published last: that it shows every change made
before the stream was opened, since the stream will not. A stream that is opened before the snapshot
keeps this by itself. One that is opened after it, for panes that the snapshot was the first to name, is
waited on without another snapshot, and a change that falls between the two is lost until the next
refresh. `nothing_is_missed_iff` says that this is the only way.
-/

namespace SuperHerdr

open Transducer

variable {δ : Type}

/-! ### Which wakes are heard -/

namespace Supervisor

/-- Whether a supervisor goes on at a wake, where it waits now. -/
def hears (self : Supervisor) (wake : Wake) : Bool :=
  match self.awaiting, wake with
  | .stopped, _ => false
  | _, .shutdown
  | .subscribing, .nudged | .subscribing, .opened | .subscribing, .refused _
  | .snapshot, .taken _ | .snapshot, .failed _
  | .resubscribing, .nudged | .resubscribing, .elapsed | .resubscribing, .opened
  | .resubscribing, .refused _
  | .changes, .nudged | .changes, .elapsed | .changes, .changed | .changes, .ended _
  | .delay, .nudged | .delay, .elapsed => true
  | _, _ => false

variable {self : Supervisor} {wake : Wake}

theorem awaiting_restart (self : Supervisor) :
    self.restart.awaiting = .subscribing ∨ self.restart.awaiting = .snapshot := by
  simp only [restart]
  split
  · exact .inl rfl
  · exact .inr rfl

theorem restart_awaiting_ne_changes (self : Supervisor) : self.restart.awaiting ≠ .changes := by
  intro h
  rcases awaiting_restart self with hrestart | hrestart
  · cases hrestart.symm.trans h
  · cases hrestart.symm.trans h

variable {selection : TransportSnapshot}

theorem changeStream_take
    (h : (self.take selection).1.changeStream = true) : self.changeStream = true := by
  simp only [take] at h
  split_ifs at h
  all_goals exact h

theorem changeStream_of_take (h : (self.take selection).1.awaiting = .changes) :
    (self.take selection).1.changeStream = true := by
  simp only [take] at h ⊢
  split_ifs at h ⊢
  all_goals simp_all

theorem changeStream_wake (h : (self.wake wake).1.changeStream = true) :
    self.changeStream = true ∨ wake = .opened := by
  cases hawaiting : self.awaiting <;> cases wake
  all_goals
    simp only [Supervisor.wake, hawaiting] at h
  case snapshot.taken selection => exact .inl (changeStream_take h)
  case snapshot.failed error =>
    simp only [fail] at h
    split at h
    · exact .inl h
    · cases h
  all_goals first
    | exact .inr rfl
    | exact .inl h
    | cases h

/-- How a supervisor comes to wait on a stream. -/
theorem awaiting_changes (hears : self.hears wake = true)
    (h : (self.wake wake).1.awaiting = .changes) :
    (self.wake wake).1.changeStream = true ∧
      ((self.awaiting = .snapshot ∧ ∃ selection, wake = .taken selection) ∨
        (self.awaiting = .resubscribing ∧ wake = .opened)) := by
  cases hawaiting : self.awaiting <;> cases wake
  all_goals simp only [Supervisor.hears, hawaiting, Bool.false_eq_true] at hears
  all_goals simp only [Supervisor.wake, hawaiting] at h ⊢
  case snapshot.taken selection =>
    exact ⟨changeStream_of_take h, .inl ⟨trivial, selection, rfl⟩⟩
  case snapshot.failed error =>
    simp only [fail] at h
    split at h <;> cases h
  case resubscribing.opened => simp
  all_goals first
    | cases h
    | exact absurd h (restart_awaiting_ne_changes self)

end Supervisor

/-- Records among which no snapshot is leave the snapshot of a target as it was. -/
theorem TargetRuntimeState.snapshot_foldl_record (nowMs : ℕ) (records : List Record)
    (target : TargetRuntimeState)
    (h : ∀ generation connection selection,
      Record.success generation connection selection ∉ records) :
    (records.foldl (fun target record => (target.record nowMs record).1) target).snapshot =
      target.snapshot := by
  induction records generalizing target with
  | nil => rfl
  | cons record records ih =>
    rw [List.foldl_cons, ih _ fun _ _ _ hmem => h _ _ _ (List.mem_cons_of_mem _ hmem)]
    cases record with
    | success => exact absurd List.mem_cons_self (h _ _ _)
    | backoff => rfl
    | incompatible => rfl
    | updateMode updateMode eventError =>
      simp only [TargetRuntimeState.record]
      split <;> rfl

/-! ### A target and its server -/

/-- A change stream: the changes that were made when the server opened it, and those since then that
are not delivered yet. -/
structure ChangeStream (δ : Type) where
  baseline : List δ
  undelivered : List δ

namespace ChangeStream

def push (self : ChangeStream δ) (change : δ) : ChangeStream δ :=
  { self with undelivered := self.undelivered ++ [change] }

def deliver (self : ChangeStream δ) : ChangeStream δ :=
  { self with undelivered := self.undelivered.tail }

end ChangeStream

/-- What comes to a supervisor, from its server or otherwise. -/
inductive Prompt
  | taken
  | opened
  | changed
  | failed (error : SnapshotError)
  | refused (message : String)
  | ended (message : String)
  | nudged
  | elapsed
  | shutdown

inductive Moment (δ : Type)
  /-- The server changes. -/
  | change (change : δ)
  /-- The server answers the request for a snapshot. -/
  | answer
  /-- The server opens the stream it is asked for. -/
  | openStream
  | prompt (nowMs : ℕ) (prompt : Prompt)

/-- A supervised target, with its server and what is under way between the two. -/
structure Watched (δ : Type) where
  supervisor : Supervisor
  target : TargetRuntimeState
  log : List δ
  /-- The answer to the request for a snapshot. -/
  answer : Option (List δ)
  /-- The stream that is open, and of which the supervisor has not heard. -/
  opening : Option (ChangeStream δ)
  stream : Option (ChangeStream δ)
  /-- What the last snapshot that was published shows. -/
  shown : Option (List δ)

namespace Watched

variable (read : List δ → TransportSnapshot)

def start (options : SupervisorOptions) (target : ConfiguredTarget) (log : List δ) : Watched δ :=
  ⟨.start options target, .new target, log, none, none, none, none⟩

/-- How a supervisor is woken. An answer has to be there, and so has a change to deliver. -/
def wake? (self : Watched δ) : Prompt → Option Wake
  | .taken => self.answer.map fun seen => .taken (read seen)
  | .opened => self.opening.map fun _ => .opened
  | .changed => (self.stream.bind fun stream => stream.undelivered.head?).map fun _ => .changed
  | .failed error => some (.failed error)
  | .refused message => some (.refused message)
  | .ended message => some (.ended message)
  | .nudged => some .nudged
  | .elapsed => some .elapsed
  | .shutdown => some .shutdown

/-- The stream a supervisor holds once it was woken, if it holds one. -/
def streamAfter (self : Watched δ) : Wake → Option (ChangeStream δ)
  | .opened => self.opening
  | .changed => self.stream.map ChangeStream.deliver
  | _ => self.stream

def shownAfter (self : Watched δ) : Wake → Option (List δ)
  | .taken _ => self.answer
  | _ => self.shown

/-- The supervisor goes on, and drops what it asked for and has not waited for. -/
def goOn (self : Watched δ) (nowMs : ℕ) (wake : Wake) : Watched δ :=
  let (supervisor, records) := self.supervisor.wake wake
  { self with
    supervisor
    target := records.foldl (fun target record => (target.record nowMs record).1) self.target
    answer := none
    opening := none
    stream := if supervisor.changeStream then self.streamAfter wake else none
    shown := self.shownAfter wake }

def step (self : Watched δ) : Moment δ → Watched δ × List Unit
  | .change change =>
      ({ self with
          log := self.log ++ [change]
          opening := self.opening.map fun stream => stream.push change
          stream := self.stream.map fun stream => stream.push change }, [])
  | .answer =>
      (if self.supervisor.awaiting = .snapshot ∧ self.answer.isNone then
        { self with answer := some self.log } else self, [])
  | .openStream =>
      (if (self.supervisor.awaiting = .subscribing ∨ self.supervisor.awaiting = .resubscribing) ∧
          self.opening.isNone then
        { self with opening := some ⟨self.log, []⟩ } else self, [])
  | .prompt nowMs prompt =>
      (match (self.wake? read prompt).filter self.supervisor.hears with
        | some wake => self.goOn nowMs wake
        | none => self, [])

/-! ### What is published -/

/-- A supervisor that waits on a stream that has nothing to deliver has published a snapshot that shows
every change made before the stream was opened. -/
def MissesNothing (self : Watched δ) : Prop :=
  self.supervisor.awaiting = .changes → ∃ stream, self.stream = some stream ∧
    (stream.undelivered = [] → ∃ seen, self.shown = some seen ∧
      self.target.snapshot = some (read seen).snapshot ∧ stream.baseline <+: seen)

/-- A supervisor that waits on a stream that has nothing to deliver has published all there is. -/
def UpToDate (self : Watched δ) : Prop :=
  self.supervisor.awaiting = .changes → ∃ stream, self.stream = some stream ∧
    (stream.undelivered = [] → self.shown = some self.log ∧
      self.target.snapshot = some (read self.log).snapshot)

/-- A stream that was opened after a snapshot is heard of only if nothing changed between the two, or if
it has something to deliver. -/
def Caught (self : Watched δ) : Moment δ → Prop
  | .prompt _ .opened => self.supervisor.awaiting = .resubscribing → ∀ stream,
      self.opening = some stream → stream.undelivered = [] → self.shown = some stream.baseline
  | _ => True

/-- What is under way, and what was published, is of this server. -/
structure Sound (s : Watched δ) : Prop where
  held : s.stream.isSome = s.supervisor.changeStream
  waits : s.supervisor.awaiting = .changes → s.supervisor.changeStream = true
  shown : ∀ seen, s.shown = some seen →
    s.target.snapshot = some (read seen).snapshot ∧ seen <+: s.log
  /-- An answer shows all but what the stream has still to deliver. -/
  answer : ∀ seen, s.answer = some seen → seen <+: s.log ∧
    ∀ stream, s.stream = some stream →
      s.log.length ≤ seen.length + stream.undelivered.length
  opening : ∀ stream, s.opening = some stream →
    stream.baseline ++ stream.undelivered = s.log
  stream : ∀ stream, s.stream = some stream → stream.baseline <+: s.log

variable {read} {self : Watched δ}

theorem sound_start (options : SupervisorOptions) (target : ConfiguredTarget) (log : List δ) :
    (start options target log).Sound read where
  held := rfl
  waits h := absurd h (Supervisor.restart_awaiting_ne_changes _)
  shown _ h := by cases h
  answer _ h := by cases h
  opening _ h := by cases h
  stream _ h := by cases h

theorem prefix_push {seen log : List δ} (h : seen <+: log) (change : δ) : seen <+: log ++ [change] :=
  h.trans (List.prefix_append log [change])

theorem Sound.change (h : self.Sound read) (change : δ) :
    (self.step read (.change change)).1.Sound read where
  held := by simpa [step] using h.held
  waits := h.waits
  shown seen hseen := ⟨(h.shown seen hseen).1, prefix_push (h.shown seen hseen).2 change⟩
  answer seen hseen := by
    obtain ⟨hshows, hlength⟩ := h.answer seen hseen
    refine ⟨prefix_push hshows change, fun stream hstream => ?_⟩
    obtain ⟨held, hheld, rfl⟩ := Option.map_eq_some_iff.mp hstream
    have hbefore := hlength held hheld
    simp only [step, ChangeStream.push, List.length_append, List.length_singleton]
    omega
  opening stream hstream := by
    obtain ⟨held, hheld, rfl⟩ := Option.map_eq_some_iff.mp hstream
    simp only [step, ChangeStream.push]
    rw [← List.append_assoc, h.opening held hheld]
  stream stream hstream := by
    obtain ⟨held, hheld, rfl⟩ := Option.map_eq_some_iff.mp hstream
    exact prefix_push (h.stream held hheld) change

theorem Sound.answered (h : self.Sound read) :
    ({ self with answer := some self.log } : Watched δ).Sound read where
  held := h.held
  waits := h.waits
  shown := h.shown
  answer seen hseen := by
    obtain rfl := Option.some.inj hseen
    exact ⟨List.prefix_rfl, fun _ _ => Nat.le_add_right _ _⟩
  opening := h.opening
  stream := h.stream

theorem Sound.opened (h : self.Sound read) :
    ({ self with opening := some ⟨self.log, []⟩ } : Watched δ).Sound read where
  held := h.held
  waits := h.waits
  shown := h.shown
  answer := h.answer
  opening stream hstream := by
    obtain rfl := Option.some.inj hstream
    exact List.append_nil _
  stream := h.stream

/-! ### A wake -/

section Wake

variable {prompt : Prompt} {wake : Wake} (hwake : self.wake? read prompt = some wake)

include hwake

theorem of_wake_taken {selection : TransportSnapshot} (h : wake = .taken selection) :
    ∃ seen, self.answer = some seen ∧ selection = read seen := by
  subst h
  cases prompt with
  | taken =>
    obtain ⟨seen, hseen, hselection⟩ := Option.map_eq_some_iff.mp hwake
    exact ⟨seen, hseen, (Wake.taken.inj hselection).symm⟩
  | opened => obtain ⟨_, -, h⟩ := Option.map_eq_some_iff.mp hwake; cases h
  | changed => obtain ⟨_, -, h⟩ := Option.map_eq_some_iff.mp hwake; cases h
  | _ => cases hwake

theorem of_wake_opened (h : wake = .opened) : prompt = .opened ∧ self.opening.isSome = true := by
  subst h
  cases prompt with
  | opened =>
    obtain ⟨stream, hstream, -⟩ := Option.map_eq_some_iff.mp hwake
    exact ⟨rfl, Option.isSome_iff_exists.mpr ⟨stream, hstream⟩⟩
  | taken => obtain ⟨_, -, h⟩ := Option.map_eq_some_iff.mp hwake; cases h
  | changed => obtain ⟨_, -, h⟩ := Option.map_eq_some_iff.mp hwake; cases h
  | _ => cases hwake

theorem isSome_streamAfter (h : self.stream.isSome = true ∨ wake = .opened) :
    (self.streamAfter wake).isSome = true := by
  cases wake with
  | opened => exact (of_wake_opened hwake rfl).2
  | changed =>
    rcases h with h | h
    · simpa [streamAfter] using h
    · cases h
  | _ =>
    rcases h with h | h
    · exact h
    · cases h

end Wake

theorem baseline_streamAfter (h : self.Sound read) {wake : Wake} {stream : ChangeStream δ}
    (hstream : self.streamAfter wake = some stream) : stream.baseline <+: self.log := by
  cases wake with
  | opened => exact ⟨_, h.opening stream hstream⟩
  | changed =>
    obtain ⟨held, hheld, rfl⟩ := Option.map_eq_some_iff.mp hstream
    exact h.stream held hheld
  | _ => exact h.stream stream hstream

/-- What is published shows what is said of it. -/
theorem shown_goOn (h : self.Sound read) (nowMs : ℕ) {prompt : Prompt} {wake : Wake}
    (hwake : self.wake? read prompt = some wake) (hhears : self.supervisor.hears wake = true)
    {seen : List δ} (hseen : (self.goOn nowMs wake).shown = some seen) :
    (self.goOn nowMs wake).target.snapshot = some (read seen).snapshot ∧ seen <+: self.log := by
  by_cases htaken : ∃ selection, wake = .taken selection
  · obtain ⟨selection, rfl⟩ := htaken
    obtain ⟨answer, hanswer, rfl⟩ := of_wake_taken hwake rfl
    obtain rfl : answer = seen := Option.some.inj (hanswer.symm.trans hseen)
    refine ⟨?_, (h.answer answer hanswer).1⟩
    have hawaiting : self.supervisor.awaiting = .snapshot := by
      cases hawaiting : self.supervisor.awaiting
      all_goals simp_all [Supervisor.hears]
    obtain ⟨generation, connection, hrecords⟩ := self.supervisor.records_take (read answer)
    simp only [goOn, Supervisor.wake, hawaiting, hrecords]
    rfl
  · have hshown : (self.goOn nowMs wake).shown = self.shown := by
      cases wake with
      | taken selection => exact absurd ⟨selection, rfl⟩ htaken
      | _ => rfl
    obtain ⟨hsnapshot, hshows⟩ := h.shown seen (hshown ▸ hseen)
    refine ⟨?_, hshows⟩
    rw [← hsnapshot]
    exact TargetRuntimeState.snapshot_foldl_record nowMs _ _ fun _ _ selection hmem =>
      htaken ⟨selection, Supervisor.eq_taken_of_success hmem⟩

theorem Sound.goOn (h : self.Sound read) (nowMs : ℕ) {prompt : Prompt} {wake : Wake}
    (hwake : self.wake? read prompt = some wake) (hhears : self.supervisor.hears wake = true) :
    (self.goOn nowMs wake).Sound read where
  held := by
    simp only [Watched.goOn]
    split
    · next hholds =>
      rw [hholds]
      refine isSome_streamAfter hwake ((Supervisor.changeStream_wake hholds).imp_left fun hheld => ?_)
      rw [h.held, hheld]
    · next hnone => exact (Bool.eq_false_iff.mpr hnone).symm
  waits hwaits := (Supervisor.awaiting_changes hhears hwaits).1
  shown _ hseen := shown_goOn h nowMs hwake hhears hseen
  answer _ hseen := by cases hseen
  opening _ hstream := by cases hstream
  stream stream hstream := by
    simp only [Watched.goOn] at hstream
    split at hstream
    · exact baseline_streamAfter h hstream
    · cases hstream

theorem sound_step (self : Watched δ) (moment : Moment δ) (h : self.Sound read) :
    (self.step read moment).1.Sound read := by
  cases moment with
  | change change => exact h.change change
  | answer =>
    simp only [step]
    split
    · exact h.answered
    · exact h
  | openStream =>
    simp only [step]
    split
    · exact h.opened
    · exact h
  | prompt nowMs prompt =>
    simp only [step]
    split
    · next wake hwake =>
      obtain ⟨hwake, hhears⟩ := Option.filter_eq_some_iff.mp hwake
      exact h.goOn nowMs hwake hhears
    · exact h

/-! ### Waiting on a stream -/

theorem upToDate_change (h : self.Sound read) (change : δ) :
    (self.step read (.change change)).1.UpToDate read := by
  intro hwaits
  obtain ⟨stream, hstream⟩ := Option.isSome_iff_exists.mp (h.held.trans (h.waits hwaits))
  refine ⟨stream.push change, by simp [step, hstream], fun hnone => ?_⟩
  simp [ChangeStream.push] at hnone

/-- **The step lemma**: a supervisor that comes to wait on a stream has published all there is, unless
the stream was opened behind the back of its snapshot. -/
theorem upToDate_goOn (h : self.Sound read) (nowMs : ℕ) {prompt : Prompt} {wake : Wake}
    (hwake : self.wake? read prompt = some wake) (hhears : self.supervisor.hears wake = true)
    (hcaught : self.Caught (.prompt nowMs prompt)) : (self.goOn nowMs wake).UpToDate read := by
  intro hwaits
  obtain ⟨hholds, hcause⟩ := Supervisor.awaiting_changes hhears hwaits
  have hstream : (self.goOn nowMs wake).stream = self.streamAfter wake := if_pos hholds
  obtain ⟨stream, hstream'⟩ := Option.isSome_iff_exists.mp (isSome_streamAfter hwake
    ((Supervisor.changeStream_wake hholds).imp_left fun hheld => h.held.trans hheld))
  refine ⟨stream, hstream.trans hstream', fun hnone => ?_⟩
  have hshown : (self.goOn nowMs wake).shown = some self.log := by
    rcases hcause with ⟨-, selection, rfl⟩ | ⟨hawaiting, rfl⟩
    · -- the answer shows all but what the stream has to deliver, and that is nothing
      obtain ⟨seen, hseen, -⟩ := of_wake_taken hwake rfl
      obtain ⟨hshows, hlength⟩ := h.answer seen hseen
      have hlong := hlength stream hstream'
      rw [hnone, List.length_nil, Nat.add_zero] at hlong
      exact hseen.trans (congrArg some (hshows.eq_of_length_le hlong))
    · obtain ⟨rfl, -⟩ := of_wake_opened hwake rfl
      have hbaseline := h.opening stream hstream'
      rw [hnone, List.append_nil] at hbaseline
      exact hbaseline ▸ hcaught hawaiting stream hstream' hnone
  exact ⟨hshown, (shown_goOn h nowMs hwake hhears hshown).1⟩

variable {moment : Moment δ}

theorem step_cases (h : self.Sound read) (hcaught : self.Caught moment) :
    (self.step read moment).1.UpToDate read ∨
      ∃ answer opening, (self.step read moment).1 = { self with answer, opening } := by
  cases moment with
  | change change => exact .inl (upToDate_change h change)
  | answer =>
    simp only [step]
    split
    · exact .inr ⟨_, _, rfl⟩
    · exact .inr ⟨_, _, rfl⟩
  | openStream =>
    simp only [step]
    split
    · exact .inr ⟨_, _, rfl⟩
    · exact .inr ⟨_, _, rfl⟩
  | prompt nowMs prompt =>
    simp only [step]
    split
    · next wake hwake =>
      obtain ⟨hwake, hhears⟩ := Option.filter_eq_some_iff.mp hwake
      exact .inl (upToDate_goOn h nowMs hwake hhears hcaught)
    · exact .inr ⟨_, _, rfl⟩

theorem UpToDate.missesNothing (h : self.Sound read) (hdate : self.UpToDate read) :
    self.MissesNothing read := by
  intro hwaits
  obtain ⟨stream, hstream, hall⟩ := hdate hwaits
  refine ⟨stream, hstream, fun hnone => ?_⟩
  obtain ⟨hshown, hsnapshot⟩ := hall hnone
  exact ⟨self.log, hshown, hsnapshot, h.stream stream hstream⟩

theorem upToDate_step (h : self.Sound read) (hdate : self.UpToDate read)
    (hcaught : self.Caught moment) : (self.step read moment).1.UpToDate read := by
  rcases step_cases h hcaught with hnew | ⟨answer, opening, hsame⟩
  · exact hnew
  · rw [hsame]
    exact hdate

theorem missesNothing_step (h : self.Sound read) (hmisses : self.MissesNothing read)
    (hcaught : self.Caught moment) :
    (self.step read moment).1.MissesNothing read := by
  rcases step_cases h hcaught with hnew | ⟨answer, opening, hsame⟩
  · exact hnew.missesNothing (sound_step self moment h)
  · rw [hsame]
    exact hmisses

/-- A stream that is heard of and has nothing to deliver is waited on with what was published before. -/
theorem caught_of_missesNothing (h : self.Sound read)
    (hmisses : (self.step read moment).1.MissesNothing read) : self.Caught moment := by
  cases moment with
  | change change => trivial
  | answer => trivial
  | openStream => trivial
  | prompt nowMs prompt =>
    cases prompt with
    | opened =>
      intro hawaiting stream hstream hnone
      have hhears : self.supervisor.hears .opened = true := by simp [Supervisor.hears, hawaiting]
      have hstep : (self.step read (.prompt nowMs .opened)).1 = self.goOn nowMs .opened := by
        simp [step, wake?, hstream, Option.filter, hhears]
      rw [hstep] at hmisses
      have hwaits : (self.goOn nowMs .opened).supervisor.awaiting = .changes := by
        simp [goOn, Supervisor.wake, hawaiting]
      have hheld : (self.goOn nowMs .opened).stream = some stream := by
        simp [goOn, Supervisor.wake, hawaiting, streamAfter, hstream]
      obtain ⟨held, hheld', hall⟩ := hmisses hwaits
      obtain rfl : stream = held := Option.some.inj (hheld.symm.trans hheld')
      obtain ⟨seen, hseen, -, hbaseline⟩ := hall hnone
      have hlog := h.opening stream hstream
      rw [hnone, List.append_nil] at hlog
      have hshows : seen <+: stream.baseline := hlog ▸ (h.shown seen hseen).2
      have hsame : seen = stream.baseline := hshows.eq_of_length_le hbaseline.length_le
      exact hsame ▸ hseen
    | _ => trivial

/-- **No change is missed**, along any run, if and only if no stream that was opened after a snapshot is
heard of with nothing to deliver although something changed between the two. Then a supervisor that
waits on a stream with nothing to deliver has published all that ever changed. -/
theorem nothing_is_missed_iff (read : List δ → TransportSnapshot) (options : SupervisorOptions)
    (target : ConfiguredTarget) (log : List δ) (moments : List (Moment δ)) :
    (AllStates (step read) (MissesNothing read) (start options target log) moments ↔
      AllSteps (step read) Caught (start options target log) moments) ∧
    (AllSteps (step read) Caught (start options target log) moments →
      AllStates (step read) (UpToDate read) (start options target log) moments) := by
  have hstart : ∀ {P : Prop}, (start options target log).supervisor.awaiting = .changes → P :=
    fun hwaits => absurd hwaits (Supervisor.restart_awaiting_ne_changes _)
  constructor
  · exact allStates_iff_allSteps (I := Sound read) sound_step
      (fun _ _ h hmisses hcaught => missesNothing_step h hmisses hcaught)
      (fun _ _ h _ hnext => caught_of_missesNothing h hnext)
      (sound_start options target log) hstart moments
  · exact allStates_of_allSteps (I := Sound read) sound_step
      (fun _ _ h hdate hcaught => upToDate_step h hdate hcaught)
      (sound_start options target log) hstart

/-- A server with one pane, which counts its changes. -/
def counting (log : List ℕ) : TransportSnapshot where
  snapshot := ⟨none, none, some log.length, ∅, ⟨0, 0, 0, 0⟩, none, none, none, ∅, ∅, ∅, ∅, ∅, ∅⟩
  paneIds := ["1-1"]
  herdrBin := "herdr"

/-- A target with a socket, as it is first connected: the first snapshot names a pane, and the server
changes before the stream for it is open. -/
def connecting : List (Moment ℕ) :=
  [.openStream, .prompt 0 .opened, .answer, .prompt 1 .taken, .change 7, .openStream, .prompt 2 .opened]

/-- The change is not published, and the stream that is waited on has nothing to deliver. -/
theorem a_change_between_is_missed :
    let first := start ⟨30000, 500, 30000⟩ ⟨"lab", none, none, some "/run/herdr.sock", []⟩ []
    let last := (exec (step counting) first connecting).1
    last.supervisor.awaiting = .changes ∧ last.log = [7] ∧
      last.stream.map ChangeStream.baseline = some [7] ∧
      last.stream.map ChangeStream.undelivered = some [] ∧ last.shown = some [] ∧
      last.target.snapshot.bind NormalizedSnapshot.revision = some 0 ∧
      ¬AllStates (step counting) (MissesNothing counting) first connecting := by
  intro first last
  have hwaits : last.supervisor.awaiting = .changes := by decide +kernel
  have hbaseline : last.stream.map ChangeStream.baseline = some [7] := by decide +kernel
  have hnone : last.stream.map ChangeStream.undelivered = some [] := by decide +kernel
  have hshown : last.shown = some [] := by decide +kernel
  refine ⟨hwaits, by decide +kernel, hbaseline, hnone, hshown, by decide +kernel, fun h => ?_⟩
  obtain ⟨stream, hstream, hall⟩ := h.last hwaits
  rw [hstream, Option.map_some, Option.some.injEq] at hbaseline hnone
  obtain ⟨seen, hseen, -, hshows⟩ := hall hnone
  obtain rfl : [] = seen := Option.some.inj (hshown.symm.trans hseen)
  rw [hbaseline, List.prefix_nil] at hshows
  cases hshows

end Watched

end SuperHerdr
