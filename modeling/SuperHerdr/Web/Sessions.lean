import SuperHerdr.Library.Transducer
import SuperHerdr.Protocol.Wire

/-!
# The browsers' sessions

A browser reads one event stream and posts its commands as separate requests; `Sessions.opened`
joins them by an identifier the browser makes up. A stream greets the daemon, puts the channel for
its commands into the table, starts a task that writes what is posted there to its attachment, and
writes the head of its answer before it hands on events. When it ends it takes the entry of its
session out again and aborts the task; a head that cannot be written returns before that.

Streams are numbered as they enter the table. A task whose channel nobody can send to any more
ends by itself (`drained`). What is handed on to the browser is in `SuperHerdr.Protocol.Wire`; here
`ended` is the end of that loop, whatever ended it.
-/

namespace SuperHerdr

open Std Transducer

/-- How many commands a stream's channel holds. -/
def COMMAND_QUEUE_DEPTH : ℕ := 4

/-- How far a stream that is in the table has come. -/
inductive StreamPhase
  /-- It writes the head of its answer. -/
  | heading
  | streaming
  | ended
deriving DecidableEq

/-- One event stream, with the task that writes what is posted to it. -/
structure EventStream where
  session : String
  phase : StreamPhase
  /-- Whether the task runs; without it the channel is closed. -/
  writing : Bool
  posted : List (List UInt8)
  /-- What reached the attachment. -/
  written : List (List UInt8)
deriving DecidableEq

namespace EventStream

def live (self : EventStream) : Bool := self.phase ≠ .ended

/-- The task is gone, and with it what nobody wrote. -/
def closed (self : EventStream) : EventStream := { self with writing := false, posted := [] }

def push (line : List UInt8) (self : EventStream) : EventStream :=
  { self with posted := self.posted ++ [line] }

end EventStream

/-- A command whose channel has no room yet. -/
structure Waiting where
  stream : ℕ
  line : List UInt8
deriving DecidableEq

/-- The status and the text of an answer. -/
abbrev HttpAnswer := String × String

structure Sessions where
  /-- The sessions of the streams that have an attachment and greet the daemon. -/
  greeting : List String
  /-- The streams that entered the table, in that order. -/
  streams : List EventStream
  /-- The channel that each session's commands go to. -/
  opened : ExtTreeMap String ℕ
  waiting : List Waiting
deriving DecidableEq

def isAsciiWhitespace (byte : UInt8) : Bool := byte ∈ [9, 10, 12, 13, 32]

/-- Bytes without the blanks around them. -/
def trimAscii (bytes : List UInt8) : List UInt8 :=
  ((bytes.dropWhile isAsciiWhitespace).reverse.dropWhile isAsciiWhitespace).reverse

/-- The line a posted body is forwarded as, if it is a message. -/
def forwarded (serde : Serde ClientMessage) (body : List UInt8) : Option (List UInt8) :=
  (serde.decode (trimAscii body)).toOption.bind fun message => (serde.encode message).toOption

namespace Sessions

def default : Sessions := ⟨[], [], ∅, []⟩

inductive Move
  /-- An event stream is asked for, and attached if the daemon is there. -/
  | events (session : Option String) (attached : Bool)
  /-- A stream has greeted the daemon, or could not. -/
  | greeted (index : ℕ) (written : Bool)
  /-- A stream has written the head of its answer, or could not. -/
  | headed (stream : ℕ) (written : Bool)
  /-- A stream's loop is over. -/
  | ended (stream : ℕ)
  | command (session : Option String) (body : List UInt8)
  /-- A command that waits looks at its channel again. -/
  | retried (index : ℕ)
  | timedOut (index : ℕ)
  /-- A stream's task writes what was posted first, or cannot. -/
  | wrote (stream : ℕ) (written : Bool)
  /-- A stream's task finds that nobody can post to it any more. -/
  | drained (stream : ℕ)

/-- A stream starts the task that writes what is posted, and enters the table. -/
def enter (self : Sessions) (session : String) : Sessions :=
  { self with
    streams := self.streams ++ [⟨session, .heading, true, [], []⟩]
    opened := self.opened.insert session self.streams.length }

/-- Whether somebody still holds a stream's channel. -/
def held (self : Sessions) (stream : ℕ) : Bool :=
  (self.opened.toList.any fun entry => entry.2 = stream) ||
    self.waiting.any fun waiting => waiting.stream = stream

/-- Hand a line to a stream's channel: the answer, unless there is no room. -/
def send (self : Sessions) (stream : ℕ) (line : List UInt8) : Sessions × Option HttpAnswer :=
  match self.streams[stream]? with
  | none => (self, some ("409 Conflict", "event stream closed"))
  | some entry =>
      if !entry.writing then (self, some ("409 Conflict", "event stream closed"))
      else if entry.posted.length < COMMAND_QUEUE_DEPTH then
        ({ self with streams := self.streams.modify stream (EventStream.push line) },
          some ("204 No Content", ""))
      else (self, none)

def command (serde : Serde ClientMessage) (self : Sessions) (session : Option String)
    (body : List UInt8) : Sessions × List HttpAnswer :=
  match session with
  | none => (self, [("400 Bad Request", "a session is required")])
  | some session =>
      match self.opened[session]? with
      | none => (self, [("409 Conflict", "no open event stream")])
      | some stream =>
          match forwarded serde body with
          | none => (self, [("400 Bad Request", "unreadable command")])
          | some line =>
              let (self, answer) := self.send stream line
              match answer with
              | some answer => (self, [answer])
              | none => ({ self with waiting := self.waiting ++ [⟨stream, line⟩] }, [])

def step (serde : Serde ClientMessage) (self : Sessions) (move : Move) :
    Sessions × List HttpAnswer :=
  match move with
  | .events none _ => (self, [("400 Bad Request", "a session is required")])
  | .events (some session) attached =>
      if attached then ({ self with greeting := self.greeting ++ [session] }, [])
      else (self, [("503 Service Unavailable", "daemon unavailable")])
  | .greeted index written =>
      match self.greeting[index]? with
      | none => (self, [])
      | some session =>
          let self := { self with greeting := self.greeting.eraseIdx index }
          (if written then self.enter session else self, [])
  | .headed stream written =>
      match self.streams[stream]? with
      | some ⟨_, .heading, _, _, _⟩ =>
          ({ self with streams := self.streams.modify stream fun entry =>
              { entry with phase := if written then .streaming else .ended } }, [])
      | _ => (self, [])
  | .ended stream =>
      match self.streams[stream]? with
      | some ⟨session, .streaming, _, _, _⟩ =>
          ({ self with
              streams := self.streams.modify stream fun entry =>
                { entry.closed with phase := .ended }
              opened := self.opened.erase session }, [])
      | _ => (self, [])
  | .command session body => self.command serde session body
  | .retried index =>
      match self.waiting[index]? with
      | none => (self, [])
      | some ⟨stream, line⟩ =>
          let (self, answer) := self.send stream line
          match answer with
          | some answer => ({ self with waiting := self.waiting.eraseIdx index }, [answer])
          | none => (self, [])
  | .timedOut index =>
      if index < self.waiting.length then
        ({ self with waiting := self.waiting.eraseIdx index },
          [("503 Service Unavailable", "client busy")])
      else (self, [])
  | .wrote stream written =>
      match self.streams[stream]? with
      | some ⟨_, _, true, line :: posted, lines⟩ =>
          ({ self with streams := self.streams.modify stream fun entry =>
              if written then { entry with posted, written := lines ++ [line] } else entry.closed },
            [])
      | _ => (self, [])
  | .drained stream =>
      match self.streams[stream]? with
      | some ⟨_, _, true, [], _⟩ =>
          if self.held stream then (self, [])
          else ({ self with streams := self.streams.modify stream EventStream.closed }, [])
      | _ => (self, [])

/-! ### What is claimed of every state -/

/-- The newest of the live streams of a session. -/
structure Newest (s : Sessions) (session : String) (stream : ℕ) : Prop where
  live : ∃ entry, s.streams[stream]? = some entry ∧ entry.session = session ∧ entry.live = true
  newest : ∀ (later : ℕ) entry, s.streams[later]? = some entry → stream < later →
    entry.session = session → entry.live = false

/-- The table holds the sessions with a live stream, each with its newest; a command goes to that
stream; and nothing keeps the task of a stream that has ended. -/
structure Exact (serde : Serde ClientMessage) (s : Sessions) : Prop where
  table : ∀ (session : String) (stream : ℕ),
    s.opened[session]? = some stream ↔ s.Newest session stream
  running : ∀ (stream : ℕ) entry, s.Newest entry.session stream →
    s.streams[stream]? = some entry → entry.writing = true
  reaches : ∀ (stream : ℕ) entry, s.Newest entry.session stream →
    s.streams[stream]? = some entry → ∀ body line, forwarded serde body = some line →
      s.step serde (.command (some entry.session) body) =
        if entry.posted.length < COMMAND_QUEUE_DEPTH then
          ({ s with streams := s.streams.modify stream (EventStream.push line) },
            [("204 No Content", "")])
        else ({ s with waiting := s.waiting ++ [⟨stream, line⟩] }, [])
  tidy : ∀ (stream : ℕ) entry, s.streams[stream]? = some entry → entry.live = false →
    ∀ session : String, s.opened[session]? ≠ some stream

/-- A stream ends by itself only as the last live one of its session; a head, and a posted line,
cannot be written only where the table sends nothing any more. -/
def Orderly (s : Sessions) : Move → Prop
  | .headed stream written => ∀ entry, s.streams[stream]? = some entry → entry.phase = .heading →
      written = true ∨ s.opened[entry.session]? ≠ some stream
  | .ended stream => ∀ entry, s.streams[stream]? = some entry → entry.phase = .streaming →
      ∀ (other : ℕ) entry', s.streams[other]? = some entry' → other ≠ stream →
        entry'.session = entry.session → entry'.live = false
  | .wrote stream written => ∀ entry, s.streams[stream]? = some entry → entry.writing = true →
      entry.posted ≠ [] → written = true ∨ s.opened[entry.session]? ≠ some stream
  | _ => True

/-! ### The newest stream -/

variable {s : Sessions} {session : String}

theorem Newest.unique {stream other : ℕ}
    (h : s.Newest session stream) (h' : s.Newest session other) : stream = other := by
  obtain ⟨entry, hentry, hsession, hlive⟩ := h.live
  obtain ⟨entry', hentry', hsession', hlive'⟩ := h'.live
  rcases Nat.lt_trichotomy stream other with hlt | heq | hlt
  · rw [h.newest other entry' hentry' hlt hsession'] at hlive'
    cases hlive'
  · exact heq
  · rw [h'.newest stream entry hentry hlt hsession] at hlive
    cases hlive

variable {entry : EventStream} {stream : ℕ}

/-- A session with a live stream has a newest one. -/
theorem exists_newest
    (hentry : s.streams[stream]? = some entry) (hsession : entry.session = session)
    (hlive : entry.live = true) : ∃ newest, s.Newest session newest := by
  have hfind : ∃ back newest, back + newest + 1 = s.streams.length ∧ ∃ entry,
      s.streams[newest]? = some entry ∧ entry.session = session ∧ entry.live = true := by
    obtain ⟨hlength, -⟩ := List.getElem?_eq_some_iff.mp hentry
    exact ⟨s.streams.length - stream - 1, stream, by omega, entry, hentry, hsession, hlive⟩
  -- the live stream of the session that is closest to the end
  classical
  let back := Nat.find hfind
  obtain ⟨newest, hnewest, hlast⟩ := Nat.find_spec hfind
  refine ⟨newest, hlast, fun later entry' hentry' hlt hsession' => ?_⟩
  by_contra hlater
  obtain ⟨hlength, -⟩ := List.getElem?_eq_some_iff.mp hentry'
  refine Nat.find_min hfind (m := s.streams.length - later - 1) (by omega)
    ⟨later, by omega, entry', hentry', hsession', by simpa using hlater⟩

/-- What does not look at who lives, where, leaves the newest stream of every session. -/
theorem newest_congr {s s' : Sessions}
    (h : ∀ i : ℕ, (s'.streams[i]?.map fun entry => (entry.session, entry.live)) =
      s.streams[i]?.map fun entry => (entry.session, entry.live)) :
    s'.Newest session stream ↔ s.Newest session stream := by
  have hback : ∀ {s s' : Sessions},
      (∀ i : ℕ, (s'.streams[i]?.map fun entry => (entry.session, entry.live)) =
        s.streams[i]?.map fun entry => (entry.session, entry.live)) →
      s.Newest session stream → s'.Newest session stream := by
    intro s s' h hnewest
    have hsame : ∀ (i : ℕ) entry, s.streams[i]? = some entry → ∃ entry',
        s'.streams[i]? = some entry' ∧ entry'.session = entry.session ∧
          entry'.live = entry.live := by
      intro i entry hentry
      have hi := h i
      rw [hentry] at hi
      obtain ⟨entry', hentry', heq⟩ := Option.map_eq_some_iff.mp hi
      exact ⟨entry', hentry', Prod.mk.inj heq⟩
    refine ⟨?_, fun later entry' hentry' hlt hsession => ?_⟩
    · obtain ⟨entry, hentry, hsession, hlive⟩ := hnewest.live
      obtain ⟨entry', hentry', hsession', hlive'⟩ := hsame stream entry hentry
      exact ⟨entry', hentry', hsession'.trans hsession, hlive'.trans hlive⟩
    · have hi := h later
      rw [hentry'] at hi
      obtain ⟨entry, hentry, heq⟩ := Option.map_eq_some_iff.mp hi.symm
      obtain ⟨hsession', hlive'⟩ := Prod.mk.inj heq
      rw [← hlive']
      exact hnewest.newest later entry hentry hlt (hsession'.trans hsession)
  exact ⟨hback fun i => (h i).symm, hback h⟩

/-! ### Steps that keep the table exact -/

/-- The table and the tasks of its streams are all there is to it. -/
theorem exact_of_table (serde : Serde ClientMessage) (htable : ∀ (session : String) (stream : ℕ),
      s.opened[session]? = some stream ↔ s.Newest session stream)
    (hrunning : ∀ (stream : ℕ) entry, s.Newest entry.session stream →
      s.streams[stream]? = some entry → entry.writing = true) : s.Exact serde where
  table := htable
  running := hrunning
  reaches stream entry hnewest hentry body line hline := by
    have hopened := (htable entry.session stream).mpr hnewest
    have hwriting := hrunning stream entry hnewest hentry
    by_cases hroom : entry.posted.length < COMMAND_QUEUE_DEPTH
    · simp [step, command, hopened, hline, send, hentry, hwriting, hroom]
    · simp [step, command, hopened, hline, send, hentry, hwriting, hroom]
  tidy stream entry hentry hdead session hheld := by
    obtain ⟨entry', hentry', -, hlive⟩ := ((htable session stream).mp hheld).live
    obtain rfl := Option.some.inj (hentry.symm.trans hentry')
    rw [hdead] at hlive
    cases hlive

theorem getElem?_modify_self {streams : List EventStream}
    (h : streams[stream]? = some entry) (f : EventStream → EventStream) :
    (streams.modify stream f)[stream]? = some (f entry) := by
  rw [List.getElem?_modify, h]
  simp

theorem getElem?_modify_other (streams : List EventStream) {stream other : ℕ} (h : stream ≠ other)
    (f : EventStream → EventStream) : (streams.modify stream f)[other]? = streams[other]? := by
  rw [List.getElem?_modify]
  simp [h]

variable {serde : Serde ClientMessage} {f : EventStream → EventStream}

/-- A stream goes on living or being dead, and keeps its task unless the table sends it nothing. -/
theorem Exact.of_modify {s s' : Sessions} (h : s.Exact serde)
    (hentry : s.streams[stream]? = some entry) (hstreams : s'.streams = s.streams.modify stream f)
    (hopened : s'.opened = s.opened) (hsession : (f entry).session = entry.session)
    (hlive : (f entry).live = entry.live)
    (hwriting : (f entry).writing = entry.writing ∨ s.opened[entry.session]? ≠ some stream) :
    s'.Exact serde := by
  have hview : ∀ i : ℕ, (s'.streams[i]?.map fun entry => (entry.session, entry.live)) =
      s.streams[i]?.map fun entry => (entry.session, entry.live) := by
    intro i
    rw [hstreams]
    by_cases hi : stream = i
    · subst hi
      rw [getElem?_modify_self hentry, hentry, Option.map_some, Option.map_some, hsession, hlive]
    · rw [getElem?_modify_other _ hi]
  refine exact_of_table serde (fun session other => ?_) fun other entry' hnewest hentry' => ?_
  · rw [hopened, newest_congr hview]
    exact h.table session other
  · rw [newest_congr hview] at hnewest
    rw [hstreams] at hentry'
    by_cases hi : stream = other
    · subst hi
      rw [getElem?_modify_self hentry] at hentry'
      obtain rfl := Option.some.inj hentry'
      rw [hsession] at hnewest
      rcases hwriting with hsame | hsuperseded
      · rw [hsame]
        exact h.running stream entry hnewest hentry
      · exact absurd ((h.table entry.session stream).mpr hnewest) hsuperseded
    · rw [getElem?_modify_other _ hi] at hentry'
      exact h.running other entry' hnewest hentry'

theorem Exact.of_same {s s' : Sessions} (h : s.Exact serde)
    (hstreams : s'.streams = s.streams) (hopened : s'.opened = s.opened) : s'.Exact serde := by
  have hview : ∀ i : ℕ, (s'.streams[i]?.map fun entry => (entry.session, entry.live)) =
      s.streams[i]?.map fun entry => (entry.session, entry.live) := by
    intro i
    rw [hstreams]
  refine exact_of_table serde (fun session stream => ?_) fun stream entry hnewest hentry => ?_
  · rw [hopened, newest_congr hview]
    exact h.table session stream
  · rw [newest_congr hview] at hnewest
    rw [hstreams] at hentry
    exact h.running stream entry hnewest hentry

theorem Exact.send (h : s.Exact serde) (stream : ℕ)
    (line : List UInt8) : (s.send stream line).1.Exact serde := by
  rw [Sessions.send]
  split
  · exact h
  · next entry hentry =>
    split
    · exact h
    · split
      · exact h.of_modify hentry rfl rfl rfl rfl (.inl rfl)
      · exact h

/-- **A stream enters the table** as the newest of its session. -/
theorem Exact.enter (h : s.Exact serde) (session : String) : (s.enter session).Exact serde := by
  have hlast : (s.enter session).streams[s.streams.length]? =
      some ⟨session, .heading, true, [], []⟩ := by simp [Sessions.enter]
  have hlength : (s.enter session).streams.length = s.streams.length + 1 := by
    simp [Sessions.enter]
  have hkept : ∀ (i : ℕ) entry, s.streams[i]? = some entry →
      (s.enter session).streams[i]? = some entry := by
    intro i entry hentry
    rw [Sessions.enter, List.getElem?_append_left (List.getElem?_eq_some_iff.mp hentry).1]
    exact hentry
  have hold : ∀ (i : ℕ) entry, (s.enter session).streams[i]? = some entry →
      s.streams[i]? = some entry ∨ i = s.streams.length ∧ entry.session = session ∧
        entry.writing = true := by
    intro i entry hentry
    by_cases hi : i < s.streams.length
    · rw [Sessions.enter, List.getElem?_append_left hi] at hentry
      exact .inl hentry
    · have hi' := (List.getElem?_eq_some_iff.mp hentry).1
      obtain rfl : i = s.streams.length := by omega
      rw [← Option.some.inj (hlast.symm.trans hentry)]
      exact .inr ⟨rfl, rfl, rfl⟩
  have hnew : (s.enter session).Newest session s.streams.length := by
    refine ⟨⟨_, hlast, rfl, rfl⟩, fun later entry hentry hlt _ => ?_⟩
    have hlater := (List.getElem?_eq_some_iff.mp hentry).1
    omega
  have hothers : ∀ (other : String) (stream : ℕ), other ≠ session →
      ((s.enter session).Newest other stream ↔ s.Newest other stream) := by
    intro other stream hne
    refine ⟨fun hnewest => ⟨?_, fun later entry hentry => ?_⟩,
      fun hnewest => ⟨?_, fun later entry hentry hlt hsession => ?_⟩⟩
    · obtain ⟨entry, hentry, hsession, hlive⟩ := hnewest.live
      rcases hold stream entry hentry with hentry | ⟨-, hsame, -⟩
      · exact ⟨entry, hentry, hsession, hlive⟩
      · exact absurd (hsession.symm.trans hsame) hne
    · exact hnewest.newest later entry (hkept later entry hentry)
    · obtain ⟨entry, hentry, hrest⟩ := hnewest.live
      exact ⟨entry, hkept stream entry hentry, hrest⟩
    · rcases hold later entry hentry with hentry | ⟨-, hsame, -⟩
      · exact hnewest.newest later entry hentry hlt hsession
      · exact absurd (hsession.symm.trans hsame) hne
  refine exact_of_table serde (fun other stream => ?_) fun stream entry hnewest hentry => ?_
  · by_cases hsame : session = other
    · subst hsame
      rw [Sessions.enter, ExtTreeMap.getElem?_insert_self]
      refine ⟨fun heq => ?_, fun hnewest => by rw [hnew.unique hnewest]⟩
      rw [← Option.some.inj heq]
      exact hnew
    · rw [hothers other stream (Ne.symm hsame), Sessions.enter, ExtTreeMap.getElem?_insert,
        if_neg (by simpa using hsame)]
      exact h.table other stream
  · rcases hold stream entry hentry with hentry' | ⟨-, -, hwriting⟩
    · by_cases hsame : entry.session = session
      · rw [hsame] at hnewest
        have heq := hnew.unique hnewest
        have hbefore := (List.getElem?_eq_some_iff.mp hentry').1
        omega
      · exact h.running stream entry ((hothers _ stream hsame).mp hnewest) hentry'
    · exact hwriting

/-- Another stream that was the newest of its session still is when one dies. -/
theorem newest_of_dead {s s' : Sessions} (hentry : s.streams[stream]? = some entry)
    (hstreams : s'.streams = s.streams.modify stream f) (hdead : (f entry).live = false) {other : ℕ}
    (hne : other ≠ stream) (hnewest : s.Newest session other) :
    s'.Newest session other := by
  refine ⟨?_, fun later entry' hentry' hlt hsame => ?_⟩
  · obtain ⟨entry', hentry', hrest⟩ := hnewest.live
    exact ⟨entry', by rw [hstreams, getElem?_modify_other _ hne.symm]; exact hentry', hrest⟩
  · rw [hstreams] at hentry'
    by_cases hi : stream = later
    · subst hi
      rw [getElem?_modify_self hentry] at hentry'
      rw [← Option.some.inj hentry', hdead]
    · rw [getElem?_modify_other _ hi] at hentry'
      exact hnewest.newest later entry' hentry' hlt hsame

/-- **A stream dies**: the table stays exact if it forgets that stream and no session that still has
a live one. -/
theorem Exact.of_dead {s s' : Sessions} (h : s.Exact serde)
    (hentry : s.streams[stream]? = some entry) (hstreams : s'.streams = s.streams.modify stream f)
    (hdead : (f entry).live = false)
    (hopened : ∀ (session : String) (other : ℕ), s'.opened[session]? = some other →
      s.opened[session]? = some other ∧ other ≠ stream)
    (hkept : ∀ (session : String) (other n : ℕ), s'.Newest session n →
      s.opened[session]? = some other → s'.opened[session]? = some other) : s'.Exact serde := by
  have hnewest : ∀ (session : String) (other : ℕ), s'.opened[session]? = some other →
      s'.Newest session other := by
    intro session other hheld
    obtain ⟨hbefore, hne⟩ := hopened session other hheld
    exact newest_of_dead hentry hstreams hdead hne ((h.table session other).mp hbefore)
  -- whoever lives now lived before
  have hlived : ∀ (session : String) (n : ℕ), s'.Newest session n → ∃ entry',
      s.streams[n]? = some entry' ∧ entry'.session = session ∧ entry'.live = true := by
    intro session n hn
    obtain ⟨entry', hentry', hsession, hlive⟩ := hn.live
    rw [hstreams] at hentry'
    by_cases hi : stream = n
    · subst hi
      rw [getElem?_modify_self hentry] at hentry'
      rw [← Option.some.inj hentry', hdead] at hlive
      cases hlive
    · rw [getElem?_modify_other _ hi] at hentry'
      exact ⟨entry', hentry', hsession, hlive⟩
  have htable : ∀ (session : String) (n : ℕ), s'.Newest session n →
      s'.opened[session]? = some n := by
    intro session n hn
    obtain ⟨entry', hentry', hsession, hlive⟩ := hlived session n hn
    obtain ⟨newest, hbefore⟩ := exists_newest hentry' hsession hlive
    have hheld := hkept session newest n hn ((h.table session newest).mpr hbefore)
    rw [hheld, (hnewest session newest hheld).unique hn]
  refine exact_of_table serde (fun session other => ⟨hnewest session other, htable session other⟩)
    fun other entry' hother hentry' => ?_
  obtain ⟨hbefore, hne⟩ := hopened _ other (htable _ other hother)
  rw [hstreams, getElem?_modify_other _ hne.symm] at hentry'
  exact h.running other entry' ((h.table _ other).mp hbefore) hentry'

/-- **The step lemma**: an orderly step keeps the table exact. -/
theorem Exact.step (h : s.Exact serde) {move : Move}
    (horderly : s.Orderly move) : (s.step serde move).1.Exact serde := by
  cases move with
  | events session attached =>
    cases session with
    | none => exact h
    | some session =>
      simp only [Sessions.step]
      split
      · exact h.of_same rfl rfl
      · exact h
  | greeted index written =>
    simp only [Sessions.step]
    split
    · exact h
    · next session _ =>
      have hgreeted : ({ s with greeting := s.greeting.eraseIdx index } : Sessions).Exact serde :=
        h.of_same rfl rfl
      cases written with
      | true => exact hgreeted.enter session
      | false => exact hgreeted
  | headed stream written =>
    simp only [Sessions.step]
    split
    · next session writing posted lines hentry =>
      cases written with
      | true => exact h.of_modify hentry rfl rfl rfl rfl (.inl rfl)
      | false =>
        have hsuperseded := (horderly _ hentry rfl).resolve_left Bool.false_ne_true
        refine h.of_dead hentry rfl rfl (fun session' other hheld => ⟨hheld, ?_⟩)
          fun session' other n _ hheld => hheld
        rintro rfl
        obtain ⟨entry, hlive, rfl, -⟩ := ((h.table session' other).mp hheld).live
        obtain rfl := Option.some.inj (hentry.symm.trans hlive)
        exact hsuperseded hheld
    · exact h
  | ended stream =>
    simp only [Sessions.step]
    split
    · next session writing posted lines hentry =>
      have hlast := horderly _ hentry rfl
      have herased : ∀ (session' : String) (other : ℕ),
          (s.opened.erase session)[session']? = some other →
            session ≠ session' ∧ s.opened[session']? = some other := by
        intro session' other hheld
        rw [ExtTreeMap.getElem?_erase] at hheld
        split at hheld
        · cases hheld
        · next hne => exact ⟨by simpa using hne, hheld⟩
      refine h.of_dead hentry rfl rfl (fun session' other hheld => ?_)
        fun session' other n hn hheld => ?_
      · obtain ⟨hne, hbefore⟩ := herased session' other hheld
        refine ⟨hbefore, ?_⟩
        rintro rfl
        obtain ⟨entry, hlive, hsession, -⟩ := ((h.table session' other).mp hbefore).live
        obtain rfl := Option.some.inj (hentry.symm.trans hlive)
        exact hne hsession
      · have hne : session ≠ session' := by
          rintro rfl
          obtain ⟨entry, hentry', hsession, hlive⟩ := hn.live
          by_cases hi : stream = n
          · subst hi
            rw [getElem?_modify_self hentry] at hentry'
            rw [← Option.some.inj hentry'] at hlive
            cases hlive
          · rw [getElem?_modify_other _ hi] at hentry'
            rw [hlast n entry hentry' (Ne.symm hi) hsession] at hlive
            cases hlive
        rw [ExtTreeMap.getElem?_erase, if_neg (by simpa using hne)]
        exact hheld
    · exact h
  | command session body =>
    cases session with
    | none => exact h
    | some session =>
      simp only [Sessions.step, Sessions.command]
      split
      · exact h
      · next stream _ =>
        split
        · exact h
        · next line _ =>
          have hsent := h.send stream line
          generalize s.send stream line = result at hsent ⊢
          obtain ⟨after, answer⟩ := result
          cases answer with
          | none => exact hsent.of_same rfl rfl
          | some answer => exact hsent
  | retried index =>
    simp only [Sessions.step]
    split
    · exact h
    · next stream line _ =>
      have hsent := h.send stream line
      generalize s.send stream line = result at hsent ⊢
      obtain ⟨after, answer⟩ := result
      cases answer with
      | none => exact hsent
      | some answer => exact hsent.of_same rfl rfl
  | timedOut index =>
    simp only [Sessions.step]
    split
    · exact h.of_same rfl rfl
    · exact h
  | wrote stream written =>
    simp only [Sessions.step]
    split
    · next session phase line posted lines hentry =>
      have hposted := horderly _ hentry rfl (List.cons_ne_nil line posted)
      cases written with
      | true => exact h.of_modify hentry rfl rfl rfl rfl (.inl rfl)
      | false =>
        exact h.of_modify hentry rfl rfl rfl rfl (.inr (hposted.resolve_left Bool.false_ne_true))
    · exact h
  | drained stream =>
    simp only [Sessions.step]
    split
    · next session phase lines hentry =>
      split
      · exact h
      · next hfree =>
        refine h.of_modify hentry rfl rfl rfl rfl (.inr fun hheld => hfree ?_)
        rw [held, Bool.or_eq_true]
        refine .inl (List.any_eq_true.mpr ⟨(session, stream), ?_, decide_eq_true rfl⟩)
        exact ExtTreeMap.mem_toList_iff_getElem?_eq_some.mpr hheld
    · exact h

/-- **A disorderly step leaves the table wrong.** -/
theorem orderly_of_exact
    {move : Move} (hafter : (s.step serde move).1.Exact serde) : s.Orderly move := by
  cases move with
  | headed stream written =>
    intro entry hentry hphase
    by_contra hbad
    obtain ⟨hwritten, hheld⟩ := not_or.mp hbad
    obtain ⟨session, phase, writing, posted, lines⟩ := entry
    simp only at hphase
    subst hphase
    obtain rfl : written = false := by simpa using hwritten
    rw [not_not] at hheld
    simp only [Sessions.step, hentry] at hafter
    obtain ⟨entry, hentry', -, hlive⟩ := ((hafter.table session stream).mp hheld).live
    rw [getElem?_modify_self hentry] at hentry'
    rw [← Option.some.inj hentry'] at hlive
    cases hlive
  | ended stream =>
    intro entry hentry hphase other entry' hentry' hne hsession
    obtain ⟨session, phase, writing, posted, lines⟩ := entry
    simp only at hphase hsession
    subst hphase
    simp only [Sessions.step, hentry] at hafter
    by_contra hlive
    have hkept : (s.streams.modify stream fun entry =>
        { entry.closed with phase := .ended })[other]? = some entry' := by
      rw [getElem?_modify_other _ hne.symm]
      exact hentry'
    obtain ⟨newest, hnewest⟩ := exists_newest (s := { s with
        streams := s.streams.modify stream fun entry => { entry.closed with phase := .ended }
        opened := s.opened.erase session }) hkept hsession (by simpa using hlive)
    have hheld := (hafter.table session newest).mpr hnewest
    simp at hheld
  | wrote stream written =>
    intro entry hentry hwriting hposted
    by_contra hbad
    obtain ⟨hwritten, hheld⟩ := not_or.mp hbad
    obtain ⟨session, phase, writing, posted, lines⟩ := entry
    simp only at hwriting hposted
    subst hwriting
    obtain ⟨line, posted, rfl⟩ := List.exists_cons_of_ne_nil hposted
    obtain rfl : written = false := by simpa using hwritten
    rw [not_not] at hheld
    simp only [Sessions.step, hentry] at hafter
    have hnewest := (hafter.table session stream).mp hheld
    have hrunning := hafter.running stream
      (EventStream.closed ⟨session, phase, true, line :: posted, lines⟩) hnewest
      (getElem?_modify_self hentry _)
    cases hrunning
  | _ => trivial

theorem exact_default (serde : Serde ClientMessage) : default.Exact serde := by
  refine exact_of_table serde (fun session stream => ?_) fun stream entry hnewest hentry => ?_
  · refine ⟨fun hheld => ?_, fun hnewest => ?_⟩
    · simp [default] at hheld
    · obtain ⟨entry, hentry, -⟩ := hnewest.live
      simp [default] at hentry
  · simp [default] at hentry

/-- **The table of sessions is exact** in exactly the runs whose steps are all orderly. -/
theorem sessions_exact (serde : Serde ClientMessage) (moves : List Move) :
    AllStates (step serde) (Exact serde) default moves ↔
      AllSteps (step serde) Orderly default moves := by
  refine allStates_iff_allSteps (I := fun _ : Sessions => True) (P := Exact serde) (G := Orderly)
    (fun _ _ _ => trivial) (fun s move _ h horderly => ?_) (fun s move _ _ hafter => ?_) trivial
    (exact_default serde) moves
  · exact h.step horderly
  · exact orderly_of_exact hafter

/-- A browser opens its session's stream again before the old one has ended. -/
def reconnecting : List Move :=
  [.events (some "tab") true, .greeted 0 true, .headed 0 true, .events (some "tab") true,
    .greeted 0 true, .headed 1 true, .ended 0]

/-- When the old stream ends, the session has a stream and no entry, and its commands are
refused. -/
theorem reconnecting_is_refused :
    ¬ AllStates (step subscribing) (Exact subscribing) default reconnecting ∧
      ((exec (step subscribing) default reconnecting).1.step subscribing (.command (some "tab")
        "\x7b\"type\":\"state.subscribe\"\x7d".toUTF8.toList)).2 =
          [("409 Conflict", "no open event stream")] := by
  have hstreams : (exec (step subscribing) default reconnecting).1.streams =
      [⟨"tab", .ended, false, [], []⟩, ⟨"tab", .streaming, true, [], []⟩] := by decide +kernel
  have hopened : (exec (step subscribing) default reconnecting).1.opened["tab"]? = none := by
    decide +kernel
  constructor
  · intro hall
    have hnewest : (exec (step subscribing) default reconnecting).1.Newest "tab" 1 := by
      constructor
      · exact ⟨⟨"tab", .streaming, true, [], []⟩, by rw [hstreams]; rfl, rfl, rfl⟩
      · intro later entry hentry hlater _
        rw [hstreams, List.getElem?_eq_none hlater] at hentry
        cases hentry
    have hheld := (hall.last.table "tab" 1).mpr hnewest
    rw [hopened] at hheld
    cases hheld
  · simp only [Sessions.step, command, hopened]

end Sessions

end SuperHerdr
