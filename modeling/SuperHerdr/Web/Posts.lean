import SuperHerdr.Web.Sessions

/-!
# The commands of a page

`send` posts every command of the page as a request of its own and waits for none of them; the
listener serves each request by a task of its own, which reads the body, looks the page's session up
and puts the line on the channel it found. The tasks meet nowhere but at that channel, so a request
may overtake another one, and `resync` may end in its own `pane.unsubscribe`.

Here a command is such a request, and not a single step of `Sessions.step`. The requests of other
sessions are left out: they go to other channels.
-/

namespace SuperHerdr

open Std Transducer

/-- How far the task of a request has come. -/
inductive PostStage
  | issued
  /-- It has read the body. -/
  | read
  /-- It has looked the session up, and a line is to be put on that stream's channel. -/
  | found (stream : ℕ)
  | over
deriving DecidableEq

/-- Whether a task at this stage puts nothing on a stream's channel any more. -/
def PostStage.past (stream : ℕ) : PostStage → Bool
  | .over => true
  | .found other => other ≠ stream
  | _ => false

/-- One `POST /command`. -/
structure Post where
  body : List UInt8
  stage : PostStage
deriving DecidableEq

/-- The line a request is forwarded as, if its body is a message. -/
def Post.line (serde : Serde ClientMessage) (self : Post) : Option (List UInt8) :=
  forwarded serde self.body

structure Posting where
  sessions : Sessions
  /-- The page's requests, in the order of its `send` calls. -/
  posts : List Post
deriving DecidableEq

namespace Posting

def default : Posting := ⟨Sessions.default, []⟩

inductive Move
  /-- The page calls `send`. -/
  | send (body : List UInt8)
  /-- A task has read its body, or could not. -/
  | read (index : ℕ) (complete : Bool)
  | lookedUp (index : ℕ)
  /-- A task tries to put its line on the channel it found. -/
  | forwarded (index : ℕ)
  | timedOut (index : ℕ)
  /-- Anything else that happens to the streams. -/
  | stream (move : Sessions.Move)

def setStage (self : Posting) (index : ℕ) (stage : PostStage) : Posting :=
  { self with posts := self.posts.modify index fun post => { post with stage } }

/-- What happens to the streams without a request; a stream's task ends by itself only once no
request holds its channel either. -/
def moves (self : Posting) : Sessions.Move → Bool
  | .command _ _ | .retried _ | .timedOut _ => false
  | .drained stream => self.posts.all fun post => post.stage ≠ .found stream
  | _ => true

def step (serde : Serde ClientMessage) (session : String) (self : Posting) :
    Move → Posting × List HttpAnswer
  | .send body => ({ self with posts := self.posts ++ [⟨body, .issued⟩] }, [])
  | .read index complete =>
      match self.posts[index]? with
      | some ⟨_, .issued⟩ => (self.setStage index (if complete then .read else .over), [])
      | _ => (self, [])
  | .lookedUp index =>
      match self.posts[index]? with
      | some ⟨body, .read⟩ =>
          match self.sessions.opened[session]? with
          | none => (self.setStage index .over, [("409 Conflict", "no open event stream")])
          | some stream =>
              match SuperHerdr.forwarded serde body with
              | none => (self.setStage index .over, [("400 Bad Request", "unreadable command")])
              | some _ => (self.setStage index (.found stream), [])
      | _ => (self, [])
  | .forwarded index =>
      match self.posts[index]? with
      | some ⟨body, .found stream⟩ =>
          match SuperHerdr.forwarded serde body with
          | none => (self, [])
          | some line =>
              let (sessions, answer) := self.sessions.send stream line
              match answer with
              | none => (self, [])
              | some answer => (setStage { self with sessions } index .over, [answer])
      | _ => (self, [])
  | .timedOut index =>
      match self.posts[index]? with
      | some ⟨_, .found _⟩ =>
          (self.setStage index .over, [("503 Service Unavailable", "client busy")])
      | _ => (self, [])
  | .stream move =>
      if self.moves move then
        let (sessions, answers) := self.sessions.step serde move
        ({ self with sessions }, answers)
      else (self, [])

/-- What reached an attachment is what the page sent, in that order, less what was refused or
lost. -/
def InOrder (serde : Serde ClientMessage) (s : Posting) : Prop :=
  ∀ entry ∈ s.sessions.streams, entry.written.Sublist (s.posts.filterMap (Post.line serde))

/-- Whether a stream's channel has no room. -/
def full (self : Posting) (stream : ℕ) : Bool :=
  self.sessions.streams[stream]?.any fun entry => COMMAND_QUEUE_DEPTH ≤ entry.posted.length

/-- No request puts its line on a channel while one that was sent before may still come to it. -/
def InTurn (s : Posting) : Move → Bool
  | .forwarded index =>
      match s.posts[index]? with
      | some ⟨_, .found stream⟩ =>
          s.full stream || (s.posts.take index).all fun earlier => earlier.stage.past stream
      | _ => true
  | _ => true

/-! ### What happens to the streams -/

/-- What was put on a stream's channel and is not lost. -/
def arrived (entry : EventStream) : List (List UInt8) := entry.written ++ entry.posted

/-- Every stream has what it had before, or less, and a new one has nothing. -/
def Loses (before after : List EventStream) : Prop :=
  ∀ (i : ℕ) entry', after[i]? = some entry' → arrived entry' = [] ∨
    ∃ entry, before[i]? = some entry ∧ (arrived entry').Sublist (arrived entry)

theorem Loses.refl (streams : List EventStream) : Loses streams streams :=
  fun _ entry hentry => .inr ⟨entry, hentry, List.Sublist.refl _⟩

theorem loses_modify {streams : List EventStream} {stream : ℕ} {entry : EventStream}
    (hentry : streams[stream]? = some entry) {f : EventStream → EventStream}
    (harrived : (arrived (f entry)).Sublist (arrived entry)) :
    Loses streams (streams.modify stream f) := by
  intro i entry' hentry'
  by_cases hi : stream = i
  · subst hi
    rw [Sessions.getElem?_modify_self hentry] at hentry'
    rw [← Option.some.inj hentry']
    exact .inr ⟨entry, hentry, harrived⟩
  · rw [Sessions.getElem?_modify_other _ hi] at hentry'
    exact Loses.refl streams i entry' hentry'

variable {serde : Serde ClientMessage} {session : String} {s : Posting}

/-- **Without a request** nothing comes to a channel. -/
theorem loses_step (move : Sessions.Move) (hmoves : s.moves move = true) :
    Loses s.sessions.streams (s.sessions.step serde move).1.streams := by
  cases move with
  | events session attached =>
    cases session <;> simp only [Sessions.step]
    · exact .refl _
    · split <;> exact .refl _
  | greeted index written =>
    simp only [Sessions.step]
    split
    · exact .refl _
    · cases written
      · exact .refl _
      · intro i entry' hentry'
        rw [if_pos rfl, Sessions.enter, List.getElem?_append] at hentry'
        split at hentry'
        · exact Loses.refl _ i entry' hentry'
        · obtain rfl := List.mem_singleton.mp (List.mem_of_getElem? hentry')
          exact .inl rfl
  | headed stream written =>
    simp only [Sessions.step]
    split
    · next hentry => exact loses_modify hentry (List.Sublist.refl _)
    · exact .refl _
  | ended stream =>
    simp only [Sessions.step]
    split
    · next hentry => exact loses_modify hentry (by simp [arrived, EventStream.closed])
    · exact .refl _
  | wrote stream written =>
    simp only [Sessions.step]
    split
    · next hentry =>
      refine loses_modify hentry ?_
      cases written <;> simp [arrived, EventStream.closed]
    · exact .refl _
  | drained stream =>
    simp only [Sessions.step]
    split
    · next hentry =>
      split
      · exact .refl _
      · exact loses_modify hentry (by simp [arrived, EventStream.closed])
    · exact .refl _
  | _ => cases hmoves

/-! ### Requests that do not overtake -/

/-- What came to a stream was sent by the first requests, and none of these comes to it any more. -/
def Ordered (serde : Serde ClientMessage) (s : Posting) : Prop :=
  ∀ (i : ℕ) entry, s.sessions.streams[i]? = some entry → ∃ first : ℕ,
    (arrived entry).Sublist ((s.posts.take first).filterMap (Post.line serde)) ∧
      ∀ (j : ℕ) post, j < first → s.posts[j]? = some post → post.stage.past i = true

theorem Ordered.loses (h : s.Ordered serde) {sessions : Sessions}
    (hloses : Loses s.sessions.streams sessions.streams) : Ordered serde { s with sessions } := by
  intro i entry' hentry'
  rcases hloses i entry' hentry' with hnothing | ⟨entry, hentry, hsublist⟩
  · exact ⟨0, by simp [hnothing], fun j post hj => absurd hj (Nat.not_lt_zero j)⟩
  · obtain ⟨first, hfirst, hpast⟩ := h i entry hentry
    exact ⟨first, hsublist.trans hfirst, hpast⟩

variable {index : ℕ} {stage : PostStage}

/-- How far the tasks have come says nothing about what was sent. -/
theorem lines_setStage (s : Posting) (index first : ℕ) (stage : PostStage) :
    ((s.setStage index stage).posts.take first).filterMap (Post.line serde) =
      (s.posts.take first).filterMap (Post.line serde) := by
  obtain ⟨sessions, posts⟩ := s
  simp only [Posting.setStage]
  induction posts generalizing index first with
  | nil => simp
  | cons post posts ih =>
    cases first with
    | zero => rfl
    | succ first =>
      cases index with
      | zero => simp [List.filterMap_cons, Post.line]
      | succ index => simp [List.filterMap_cons, ih]

theorem stage_setStage {post post' : Post} (hpost : s.posts[index]? = some post) {j : ℕ}
    (hpost' : (s.setStage index stage).posts[j]? = some post') :
    j ≠ index ∧ s.posts[j]? = some post' ∨ j = index ∧ post'.stage = stage := by
  rw [Posting.setStage, List.getElem?_modify] at hpost'
  by_cases hj : index = j
  · subst hj
    rw [hpost] at hpost'
    simp only [↓reduceIte, Option.map_eq_map, Option.map_some, Option.some.injEq] at hpost'
    exact .inr ⟨rfl, by rw [← hpost']⟩
  · simp only [hj, ↓reduceIte, Option.map_eq_map, Option.map_id_fun', id_eq] at hpost'
    exact .inl ⟨Ne.symm hj, hpost'⟩

/-- A task goes on to a stage in which it comes to no stream that it could not come to before. -/
theorem Ordered.setStage (h : s.Ordered serde) {post : Post} (hpost : s.posts[index]? = some post)
    (hpast : ∀ i, post.stage.past i = true → stage.past i = true) :
    (s.setStage index stage).Ordered serde := by
  intro i entry hentry
  obtain ⟨first, hfirst, hbefore⟩ := h i entry hentry
  refine ⟨first, by rwa [lines_setStage], fun j post' hj hpost' => ?_⟩
  rcases stage_setStage hpost hpost' with ⟨-, hsame⟩ | ⟨rfl, hstage⟩
  · exact hbefore j post' hj hsame
  · rw [hstage]
    exact hpast i (hbefore j post hj hpost)

/-- **A line comes to its channel** in turn: the first requests now go up to its own. -/
theorem Ordered.push (h : s.Ordered serde) {stream : ℕ} {entry : EventStream}
    {body line : List UInt8} (hentry : s.sessions.streams[stream]? = some entry)
    (hpost : s.posts[index]? = some ⟨body, .found stream⟩) (hline : forwarded serde body = some line)
    (hturn : ∀ earlier ∈ s.posts.take index, earlier.stage.past stream = true) :
    Ordered serde (Posting.setStage { s with sessions := { s.sessions with
      streams := s.sessions.streams.modify stream (EventStream.push line) } } index .over) := by
  intro i entry' hentry'
  by_cases hi : stream = i
  · subst hi
    rw [Posting.setStage, Sessions.getElem?_modify_self hentry] at hentry'
    rw [← Option.some.inj hentry']
    obtain ⟨first, hfirst, hpast⟩ := h stream entry hentry
    have hle : first ≤ index := by
      by_contra hlt
      have hover := hpast index _ (Nat.lt_of_not_le hlt) hpost
      simp [PostStage.past] at hover
    refine ⟨index + 1, ?_, fun j post' hj hpost' => ?_⟩
    · have harrived : arrived (EventStream.push line entry) = arrived entry ++ [line] :=
        (List.append_assoc _ _ _).symm
      have hlast : [line] = [Post.mk body (.found stream)].filterMap (Post.line serde) := by
        simp [Post.line, hline]
      rw [lines_setStage, List.take_add_one, hpost, Option.toList_some, List.filterMap_append,
        ← hlast, harrived]
      have hfirsts := (List.take_prefix_take_left (l := s.posts) hle).sublist
      exact (hfirst.trans (hfirsts.filterMap _)).append (List.Sublist.refl _)
    · rcases stage_setStage hpost hpost' with ⟨hne, hsame⟩ | ⟨rfl, hstage⟩
      · have hbefore : j < index := by omega
        rw [← List.getElem?_take_of_lt hbefore] at hsame
        exact hturn post' (List.mem_of_getElem? hsame)
      · rw [hstage, PostStage.past]
  · rw [Posting.setStage, Sessions.getElem?_modify_other _ hi] at hentry'
    exact h.setStage hpost (fun _ _ => rfl) i entry' hentry'

/-- **The step lemma**: what happens in turn keeps the requests in order. -/
theorem Ordered.step (h : s.Ordered serde) {move : Move} (hturn : s.InTurn move = true) :
    (s.step serde session move).1.Ordered serde := by
  cases move with
  | send body =>
    intro i entry hentry
    obtain ⟨first, hfirst, hpast⟩ := h i entry hentry
    have hle : min first s.posts.length ≤ s.posts.length := Nat.min_le_right _ _
    refine ⟨min first s.posts.length, ?_, fun j post hj hpost => ?_⟩
    · rw [Posting.step, List.take_append_of_le_length hle, ← List.take_eq_take_min]
      exact hfirst
    · rw [Posting.step, List.getElem?_append_left (hj.trans_le hle)] at hpost
      exact hpast j post (by omega) hpost
  | read index complete =>
    simp only [Posting.step]
    split
    · next hpost => exact h.setStage hpost nofun
    · exact h
  | lookedUp index =>
    simp only [Posting.step]
    split
    · next hpost =>
      split
      · exact h.setStage hpost nofun
      · split <;> exact h.setStage hpost nofun
    · exact h
  | forwarded index =>
    simp only [Posting.step]
    split
    · next body stream hpost =>
      split
      · exact h
      · next line hline =>
        have hover : (s.setStage index .over).Ordered serde := h.setStage hpost fun _ _ => rfl
        cases hentry : s.sessions.streams[stream]? with
        | none => simpa only [Sessions.send, hentry] using hover
        | some entry =>
          simp only [InTurn, hpost, full, hentry, Option.any_some, Bool.or_eq_true,
            decide_eq_true_eq, List.all_eq_true] at hturn
          simp only [Sessions.send, hentry]
          split_ifs with hwriting hroom
          · exact hover
          · exact h.push hentry hpost hline (hturn.resolve_left (Nat.not_le.mpr hroom))
          · exact h
    · exact h
  | timedOut index =>
    simp only [Posting.step]
    split
    · next hpost => exact h.setStage hpost fun _ _ => rfl
    · exact h
  | stream move =>
    simp only [Posting.step]
    split
    · next hmoves => exact h.loses (loses_step move hmoves)
    · exact h

theorem Ordered.inOrder (h : s.Ordered serde) : s.InOrder serde := by
  intro entry hmem
  obtain ⟨i, hentry⟩ := List.getElem?_of_mem hmem
  obtain ⟨first, hfirst, -⟩ := h i entry hentry
  exact ((List.sublist_append_left _ _).trans hfirst).trans ((List.take_sublist _ _).filterMap _)

/-- **Commands keep their order** in every run whose requests go in turn. -/
theorem commands_keep_order (serde : Serde ClientMessage) (session : String) (moves : List Move)
    (hturns : AllSteps (step serde session) (fun s move => s.InTurn move = true) default moves) :
    AllStates (step serde session) (InOrder serde) default moves := by
  have hordered : AllStates (step serde session) (Ordered serde) default moves := by
    refine allStates_of_allSteps (I := fun _ => True) (fun _ _ _ => trivial)
      (fun s move _ h hturn => h.step hturn) trivial ?_ hturns
    intro i entry hentry
    cases hentry
  exact hordered.imp fun s h => h.inOrder

/-! ### A resync -/

def leave : String :=
  "\x7b\"type\":\"pane.unsubscribe\",\"pane\":\x7b\"target\":\"box\",\"session\":\"main\",\"resource\":\"p\"\x7d\x7d"

def watch : String :=
  "\x7b\"type\":\"pane.subscribe\",\"pane\":\x7b\"target\":\"box\",\"session\":\"main\",\"resource\":\"p\"\x7d,\"access\":\"observe\",\"cols\":40,\"rows\":20,\"representation\":\"screen\"\x7d"

/-- The library, as far as a resync goes. -/
def resyncing : Serde ClientMessage :=
  let leaving := Serde.only (.unsubscribePane ⟨"box", "main", "p"⟩) leave
  let watching := Serde.only (.subscribePane ⟨"box", "main", "p"⟩ .observe 40 20 .screen) watch
  ⟨fun message => leaving.toVec message <|> watching.toVec message,
    fun line => leaving.fromSlice line <|> watching.fromSlice line⟩

/-- The page leaves a pane and watches it again, and its second request finds the channel first. -/
def resync : List Move :=
  [.stream (.events (some "tab") true), .stream (.greeted 0 true), .stream (.headed 0 true),
    .send leave.toUTF8.toList, .send watch.toUTF8.toList, .read 1 true, .lookedUp 1, .read 0 true,
    .lookedUp 0]

def writes : List Move := [.stream (.wrote 0 true), .stream (.wrote 0 true)]

theorem commands_keep_order_resync : AllStates (step resyncing "tab") (InOrder resyncing) default
    (resync ++ [.forwarded 0, .forwarded 1] ++ writes) :=
  commands_keep_order _ _ _ (by decide +kernel)

/-- The second request also puts its line on the channel first: the pane is left last. -/
theorem a_resync_unsubscribes : ¬ AllStates (step resyncing "tab") (InOrder resyncing) default
    (resync ++ [.forwarded 1, .forwarded 0] ++ writes) := by
  intro h
  have hlast := h.last
  have hstreams : (exec (step resyncing "tab") default
      (resync ++ [.forwarded 1, .forwarded 0] ++ writes)).1.sessions.streams =
        [⟨"tab", .streaming, true, [], [watch.toUTF8.toList ++ [newline],
          leave.toUTF8.toList ++ [newline]]⟩] := by decide +kernel
  have hsent := hlast _ (by rw [hstreams]; exact List.mem_singleton_self _)
  revert hsent
  decide +kernel

end Posting

end SuperHerdr
