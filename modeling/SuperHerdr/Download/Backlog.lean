import SuperHerdr.Download.Flow

/-!
# What downloads leave in a client's outbox

A connection's outbox has no bound of its own: what the daemon sends stays there until the
connection has written it out, and a client that does not read keeps it there. What is meant to
bound it is credit. The clamp bounds one grant; but the next is taken as soon as credit is spent,
whether or not the chunks it paid for were written, so a client that pulls and does not drain has
the daemon hold as much as it asks for.

The chunks in the outbox and the credit of the downloads under way stay within the bound as long
as every grant, when it is taken, still fits beside them.
-/

namespace SuperHerdr

open Transducer

/-- The grant the next turn of a download takes. -/
def Download.takes (d : Download) : Option ℕ :=
  match d.source with
  | none => none
  | some source =>
      if d.ended = false ∧ d.sent < source.length ∧ d.credit = 0 then d.granted.head? else none

/-- The chunks a download may still send without being asked again. -/
def Download.unspent (d : Download) : ℕ := if d.ended then 0 else d.credit

/-- One client's connection, with its downloads. -/
structure Connection where
  downloads : List Download
  /-- Sent to the client and not yet written out. -/
  outbox : List ServerMessage
deriving DecidableEq

namespace Connection

def new : Connection := ⟨[], []⟩

def reading (s : Connection) (request : ℕ) : Bool :=
  s.downloads.any fun d => d.request = request

def refuse (s : Connection) (request : ℕ) (message : String) : Connection :=
  { s with outbox := s.outbox ++ [.error (some request) message] }

/-- One step of the client, the daemon's loop, a task, or the connection. -/
inductive Move
  | beginDownload (request : ℕ)
  | pullDownload (request chunks : ℕ)
  | cancelDownload (request : ℕ)
  | turn (i : ℕ) (answer : HostAnswer)
  | downloadEnded (request : ℕ)
  /-- The connection writes a message out. -/
  | written

def turn (s : Connection) (i : ℕ) (answer : HostAnswer) : Connection :=
  match s.downloads[i]? with
  | none => s
  | some d =>
      let (d, messages) := d.turn answer
      ⟨s.downloads.set i d, s.outbox ++ messages⟩

def step (s : Connection) (move : Move) : Connection × List ServerMessage :=
  match move with
  | .beginDownload request =>
      if s.reading request then (s.refuse request "that request is already reading a file", [])
      else ({ s with downloads := s.downloads ++ [Download.new request] }, [])
  | .pullDownload request chunks =>
      if s.reading request then
        ({ s with
            downloads := s.downloads.map fun d =>
              if d.request = request then d.grant chunks else d }, [])
      else (s.refuse request "no file is being read", [])
  | .cancelDownload request =>
      ({ s with downloads := s.downloads.filter fun d => d.request ≠ request }, [])
  | .turn i answer => (s.turn i answer, [])
  | .downloadEnded request =>
      ({ s with downloads := s.downloads.filter fun d => ¬(d.request = request ∧ d.ended) }, [])
  | .written => ({ s with outbox := s.outbox.tail }, s.outbox.take 1)

/-- The credit that the client's downloads have not spent. -/
def unspent (s : Connection) : ℕ := (s.downloads.map Download.unspent).sum

/-- The grant a move takes. -/
def taken (s : Connection) : Move → Option ℕ
  | .turn i _ => s.downloads[i]?.bind Download.takes
  | _ => none

/-- A grant that is taken fits beside the chunks that are not written and the credit that is not
spent. -/
def Fits (s : Connection) (move : Move) : Prop :=
  ∀ granted ∈ s.taken move,
    chunkCount s.outbox + s.unspent + min granted MAX_OUTSTANDING_CHUNKS ≤ MAX_OUTSTANDING_CHUNKS

instance (s : Connection) (move : Move) : Decidable (s.Fits move) :=
  inferInstanceAs (Decidable (∀ granted ∈ s.taken move, _))

/-! ### One step -/

theorem unspent_grant (d : Download) (chunks : ℕ) : (d.grant chunks).unspent = d.unspent := by
  unfold Download.grant Download.unspent
  split <;> rfl

/-- What a turn sends was paid for, and only a grant that is taken adds to what is unspent. -/
theorem unspent_turns {d d' : Download} {messages : List ServerMessage}
    (hturn : d.Turns d' messages) :
    (d'.unspent + chunkCount messages ≤ d.unspent) ∨
      ∃ granted, d.takes = some granted ∧ messages = [] ∧
        d'.unspent = d.unspent + min granted MAX_OUTSTANDING_CHUNKS := by
  unfold Download.unspent
  cases hturn with
  | waits => exact .inl le_rfl
  | opens source hended hsource => exact .inl le_rfl
  | fails message hended hread => exact .inl (Nat.zero_le _)
  | takes source granted rest hended hsource hsent hcredit hgranted =>
    refine .inr ⟨granted, ?_, rfl, ?_⟩
    · simp only [Download.takes, hsource, hended, hsent, hcredit, hgranted]
      rfl
    · simp [hended, hcredit]
  | sends source bytes hended hsource hcredit hbytes hfront hlength =>
    left
    simp only [hended]
    change d.credit - 1 + 1 ≤ d.credit
    omega
  | finishes source hended hsource hsent => exact .inl (Nat.zero_le _)

theorem sum_map_set {α : Type} (f : α → ℕ) {l : List α} {i : ℕ} {x : α} (hi : l[i]? = some x)
    (y : α) : ((l.set i y).map f).sum + f x = (l.map f).sum + f y := by
  induction l generalizing i with
  | nil => cases hi
  | cons z l ih =>
    cases i with
    | zero =>
      cases hi
      simp only [List.set_cons_zero, List.map_cons, List.sum_cons]
      omega
    | succ i =>
      have := ih hi
      simp only [List.set_cons_succ, List.map_cons, List.sum_cons]
      omega

variable {s : Connection}

theorem held_turn {i : ℕ} {answer : HostAnswer} (hfits : s.Fits (.turn i answer))
    (hheld : chunkCount s.outbox + s.unspent ≤ MAX_OUTSTANDING_CHUNKS) :
    chunkCount (s.turn i answer).outbox + (s.turn i answer).unspent ≤
      MAX_OUTSTANDING_CHUNKS := by
  unfold turn
  cases hi : s.downloads[i]? with
  | none => exact hheld
  | some d =>
    have hset := sum_map_set Download.unspent hi (d.turn answer).1
    simp only [chunkCount_append]
    unfold unspent at hheld ⊢
    simp only
    rcases unspent_turns (d.turns_turn answer) with hspent | ⟨granted, htakes, hnone, htaken⟩
    · omega
    · have := hfits granted (by simp [taken, hi, htakes])
      unfold unspent at this
      rw [hnone, chunkCount_nil]
      omega

theorem unspent_sublist {downloads : List Download} (h : downloads.Sublist s.downloads) :
    (downloads.map Download.unspent).sum ≤ s.unspent :=
  (h.map Download.unspent).sum_le_sum (fun _ _ => Nat.zero_le _)

/-- **What is held stays within the bound**, as long as the grants that are taken fit. -/
theorem held_step {move : Move} (hfits : s.Fits move)
    (hheld : chunkCount s.outbox + s.unspent ≤ MAX_OUTSTANDING_CHUNKS) :
    chunkCount (s.step move).1.outbox + (s.step move).1.unspent ≤ MAX_OUTSTANDING_CHUNKS := by
  have hrefused : ∀ request message, chunkCount (s.refuse request message).outbox +
      (s.refuse request message).unspent ≤ MAX_OUTSTANDING_CHUNKS := by
    intro request message
    rw [refuse, chunkCount_append]
    exact hheld
  have hfewer : ∀ keep : Download → Bool, chunkCount s.outbox +
      ((s.downloads.filter keep).map Download.unspent).sum ≤ MAX_OUTSTANDING_CHUNKS :=
    fun keep => (Nat.add_le_add_left (unspent_sublist List.filter_sublist) _).trans hheld
  cases move with
  | beginDownload request =>
    simp only [step]
    split
    · exact hrefused ..
    · simpa [unspent, Download.new, Download.unspent] using hheld
  | pullDownload request chunks =>
    simp only [step]
    split
    · have hsame : (s.downloads.map fun d => if d.request = request then d.grant chunks else d).map
          Download.unspent = s.downloads.map Download.unspent := by
        rw [List.map_map]
        refine List.map_congr_left fun d _ => ?_
        simp only [Function.comp_apply]
        split
        · exact unspent_grant d chunks
        · rfl
      simpa [unspent, hsame] using hheld
    · exact hrefused ..
  | cancelDownload request => exact hfewer _
  | turn i answer => exact held_turn hfits hheld
  | downloadEnded request => exact hfewer _
  | written =>
    have htail : chunkCount s.outbox.tail ≤ chunkCount s.outbox :=
      (List.tail_sublist _).countP_le
    exact (Nat.add_le_add_right htail _).trans hheld

/-- **The memory bound.** In a run in which every grant fits when it is taken, the chunks the
connection has not written out never exceed `MAX_OUTSTANDING_CHUNKS`. -/
theorem outstanding_bound (moves : List Move) (hfits : AllSteps step Fits new moves) :
    AllStates step (fun s => chunkCount s.outbox ≤ MAX_OUTSTANDING_CHUNKS) new moves := by
  have hheld : AllStates step
      (fun s => chunkCount s.outbox + s.unspent ≤ MAX_OUTSTANDING_CHUNKS) new moves :=
    allStates_of_allSteps (I := fun _ => True)
      (P := fun s : Connection => chunkCount s.outbox + s.unspent ≤ MAX_OUTSTANDING_CHUNKS)
      (fun _ _ _ => trivial) (fun _ _ _ hs hmove => held_step hmove hs) trivial
      (Nat.zero_le _) hfits
  exact hheld.imp fun s hs => (Nat.le_add_right _ _).trans hs

/-! ### A client that drains, and one that does not -/

/-- A file that is read a byte at a time, after two windows were granted at once. -/
def pulledTwice (length : ℕ) : List Move :=
  [.beginDownload 1, .turn 0 (.opened ⟨"file", length, "", List.replicate length 0⟩),
    .pullDownload 1 8, .pullDownload 1 8] ++ List.replicate (length + 2) (.turn 0 (.read 1))

theorem outstanding_bound_eight :
    AllSteps step Fits new (pulledTwice 8) ∧
      AllStates step (fun s => chunkCount s.outbox ≤ MAX_OUTSTANDING_CHUNKS) new
        (pulledTwice 8) :=
  ⟨by decide, outstanding_bound _ (by decide)⟩

/-- A client that pulls twice and reads nothing has nine chunks waiting for it. -/
theorem nine_chunks_unwritten :
    ¬AllStates step (fun s => chunkCount s.outbox ≤ MAX_OUTSTANDING_CHUNKS) new
      (pulledTwice 9) := by
  intro h
  have hlast := h.last
  revert hlast
  decide

end Connection

end SuperHerdr
