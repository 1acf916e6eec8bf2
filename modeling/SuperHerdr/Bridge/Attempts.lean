import SuperHerdr.Bridge.Relay

/-!
# Guesses at a code

Whoever wants to pair names a code, and codes are short. The bridge admits a few attempts of each source
in a window of time: the first attempt opens one, and the first call after the window has passed, of
whatever source, forgets it. Only so many sources are held at once; a call that finds no room is
refused.

All sources share one table, and each call goes over all of it. `step_window` says what a call does to
the window of one source, and `admitted_in_window` follows it over a run.
-/

namespace SuperHerdr

namespace Bridge

open Std Transducer

def MAX_PAIR_SOURCES : ℕ := 4096
def MAX_PAIR_ATTEMPTS_PER_SOURCE : ℕ := 10
def PAIR_ATTEMPT_WINDOW : ℕ := 10 * 60 * 1000

structure AttemptWindow where
  openedAt : ℕ
  attempts : ℕ
deriving DecidableEq

abbrev AttemptTable := ExtTreeMap String AttemptWindow

/-- A call of the limiter. -/
structure Attempt where
  source : String
  now : ℕ
deriving DecidableEq

namespace AttemptTable

/-- The windows that have not passed. -/
def retained (self : AttemptTable) (now : ℕ) : AttemptTable :=
  self.filter fun _ window => now - window.openedAt < PAIR_ATTEMPT_WINDOW

/-- Count an attempt. The flag says whether it is admitted. -/
def admitPairAttempt (self : AttemptTable) (source : String) (now : ℕ) : AttemptTable × Bool :=
  let sources := self.retained now
  if source ∉ sources ∧ MAX_PAIR_SOURCES ≤ sources.size then (sources, false)
  else
    let window := sources.getD source ⟨now, 0⟩
    let sources := sources.insert source window
    if MAX_PAIR_ATTEMPTS_PER_SOURCE ≤ window.attempts then (sources, false)
    else (sources.insert source { window with attempts := window.attempts + 1 }, true)

/-- One call, which puts out what it admits. -/
def answer (self : AttemptTable) (attempt : Attempt) : AttemptTable × List Attempt :=
  let (sources, admitted) := self.admitPairAttempt attempt.source attempt.now
  (sources, if admitted then [attempt] else [])

/-- Whether a call opens a window. -/
def Opens (self : AttemptTable) (attempt : Attempt) : Prop :=
  attempt.source ∉ self.retained attempt.now ∧ (self.answer attempt).2 = [attempt]

/-- How many attempts a source has left. -/
def remaining (self : AttemptTable) (source : String) (now : ℕ) : ℕ :=
  MAX_PAIR_ATTEMPTS_PER_SOURCE - (((self.retained now)[source]?.map AttemptWindow.attempts).getD 0)

/-! ### What one call does -/

theorem getElem?_retained (self : AttemptTable) (now : ℕ) (source : String) :
    (self.retained now)[source]? =
      self[source]?.filter fun window => now - window.openedAt < PAIR_ATTEMPT_WINDOW :=
  ExtTreeMap.getElem?_filter'

theorem retained_retained (self : AttemptTable) {now later : ℕ} (h : now ≤ later) :
    (self.retained now).retained later = self.retained later := by
  refine ExtTreeMap.ext_getElem? fun source => ?_
  simp only [getElem?_retained, Option.filter_filter]
  refine congrArg (self[source]?.filter ·) ?_
  funext window
  grind

/-- A call is refused and leaves what has not passed, or it is admitted and counted in the window of its
source. -/
theorem answer_cases (self : AttemptTable) (attempt : Attempt) :
    self.answer attempt = (self.retained attempt.now, []) ∨
      ∃ window, (self.retained attempt.now).getD attempt.source ⟨attempt.now, 0⟩ = window ∧
        window.attempts < MAX_PAIR_ATTEMPTS_PER_SOURCE ∧
        (attempt.source ∉ self.retained attempt.now →
          (self.retained attempt.now).size < MAX_PAIR_SOURCES) ∧
        self.answer attempt = ((self.retained attempt.now).insert attempt.source
          { window with attempts := window.attempts + 1 }, [attempt]) := by
  generalize hsources : self.retained attempt.now = sources
  generalize hwindow : sources.getD attempt.source ⟨attempt.now, 0⟩ = window
  simp only [answer, admitPairAttempt, hsources, hwindow]
  split
  · simp
  · next hroom =>
    split
    · next hspent =>
      -- a window that is spent was held, so that putting it back changes nothing
      left
      have hheld : sources[attempt.source]? = some window := by
        rw [ExtTreeMap.getD_eq_getD_getElem?] at hwindow
        rcases hget : sources[attempt.source]? with _ | held
        · rw [hget, Option.getD_none] at hwindow
          subst hwindow
          simp [MAX_PAIR_ATTEMPTS_PER_SOURCE] at hspent
        · rw [hget, Option.getD_some] at hwindow
          rw [hwindow]
      refine Prod.ext (ExtTreeMap.ext_getElem? fun source => ?_) rfl
      rw [ExtTreeMap.getElem?_insert]
      split
      · next heq => rw [← LawfulEqCmp.eq_of_compare heq, hheld]
      · rfl
    · next hspent =>
      refine .inr ⟨window, rfl, Nat.not_le.mp hspent, fun hnew => ?_, ?_⟩
      · exact Nat.not_le.mp fun hfull => hroom ⟨hnew, hfull⟩
      · refine Prod.ext (ExtTreeMap.ext_getElem? fun source => ?_) rfl
        simp only [ExtTreeMap.getElem?_insert]
        split <;> rfl

theorem answer_of_refused {self : AttemptTable} {attempt : Attempt}
    (h : (self.answer attempt).2 = []) : (self.answer attempt).1 = self.retained attempt.now := by
  rcases self.answer_cases attempt with hcall | ⟨_, _, _, _, hcall⟩
  · rw [hcall]
  · simp [hcall] at h

theorem size_answer {self : AttemptTable} (h : self.size ≤ MAX_PAIR_SOURCES) (attempt : Attempt) :
    (self.answer attempt).1.size ≤ MAX_PAIR_SOURCES := by
  have hretained : (self.retained attempt.now).size ≤ self.size := ExtTreeMap.size_filter_le_size
  rcases self.answer_cases attempt with hcall | ⟨_, _, _, hroom, hcall⟩
  · rw [hcall]
    exact hretained.trans h
  · rw [hcall, ExtTreeMap.size_insert]
    split
    · exact hretained.trans h
    · next hnew => exact hroom hnew

/-- A window that has not passed is counted up to the cap by the calls of its own source, and left alone
by all others. -/
theorem answer_window {self : AttemptTable} {source : String} {window : AttemptWindow}
    (h : self[source]? = some window) {attempt : Attempt}
    (hnow : attempt.now - window.openedAt < PAIR_ATTEMPT_WINDOW) :
    (self.answer attempt).1[source]? = some
        { window with
          attempts := window.attempts +
            ((self.answer attempt).2.filter fun admitted => admitted.source = source).length } ∧
      ((self.answer attempt).2.filter fun admitted => admitted.source = source).length ≤
        MAX_PAIR_ATTEMPTS_PER_SOURCE - window.attempts := by
  have hheld : (self.retained attempt.now)[source]? = some window := by
    simp [getElem?_retained, h, hnow]
  rcases self.answer_cases attempt with hcall | ⟨counted, hcounted, hcap, _, hcall⟩
  · simp [hcall, hheld]
  · rw [hcall]
    by_cases hsource : attempt.source = source
    · subst hsource
      obtain rfl : window = counted := by
        simpa [ExtTreeMap.getD_eq_getD_getElem?, hheld] using hcounted
      simp only [ExtTreeMap.getElem?_insert_self, decide_true, List.filter_cons_of_pos,
        List.filter_nil, List.length_cons, List.length_nil, true_and]
      omega
    · have hne : compare attempt.source source ≠ .eq := fun heq =>
        hsource (LawfulEqCmp.eq_of_compare heq)
      simp [ExtTreeMap.getElem?_insert, hne, hsource, hheld]

end AttemptTable

/-! ### Runs -/

namespace AttemptTable

/-- The table after a list of calls. -/
def after (calls : List Attempt) : AttemptTable := (exec answer ∅ calls).1

/-- Those of the admitted attempts that fall into the window an attempt has opened. -/
def within (opening : Attempt) (admitted : List Attempt) : List Attempt :=
  admitted.filter fun attempt =>
    attempt.source = opening.source ∧ attempt.now < opening.now + PAIR_ATTEMPT_WINDOW

theorem within_eq_nil {opening : Attempt} {calls : List Attempt}
    (h : ∀ attempt ∈ calls, opening.now + PAIR_ATTEMPT_WINDOW ≤ attempt.now) (self : AttemptTable) :
    within opening (exec answer self calls).2 = [] := by
  refine List.filter_eq_nil_iff.mpr fun attempt hmem => ?_
  obtain ⟨before, call, rest, rfl, hcall⟩ := mem_exec_snd hmem
  have hnow := h call (by simp)
  rcases answer_cases (exec answer self before).1 call with heq | ⟨_, _, _, _, heq⟩
  · simp [heq] at hcall
  · obtain rfl : attempt = call := by simpa [heq] using hcall
    simp only [decide_eq_true_eq, not_and]
    exact fun _ => Nat.not_lt.mpr hnow

/-- What is admitted in a window that is open already. -/
theorem length_within {opening : Attempt} {calls : List Attempt}
    (hcalls : calls.Pairwise fun left right => left.now ≤ right.now)
    (hfrom : ∀ attempt ∈ calls, opening.now ≤ attempt.now) {self : AttemptTable} {attempts : ℕ}
    (h : self[opening.source]? = some ⟨opening.now, attempts⟩) :
    (within opening (exec answer self calls).2).length ≤ MAX_PAIR_ATTEMPTS_PER_SOURCE - attempts := by
  induction calls generalizing self attempts with
  | nil => simp [within]
  | cons call calls ih =>
    obtain ⟨hlater, hcalls⟩ := List.pairwise_cons.mp hcalls
    have hopening := hfrom call (by simp)
    by_cases hnow : call.now < opening.now + PAIR_ATTEMPT_WINDOW
    · have hwithin : call.now - opening.now < PAIR_ATTEMPT_WINDOW := by omega
      obtain ⟨hheld, hcount⟩ := answer_window h hwithin
      have hrest := ih hcalls (fun attempt hmem => hfrom attempt (by simp [hmem])) hheld
      have hhead : (within opening (self.answer call).2).length ≤
          ((self.answer call).2.filter fun admitted => admitted.source = opening.source).length :=
        (List.monotone_filter_right _ fun attempt hin => by simp at hin ⊢; exact hin.1).length_le
      simp only [exec_cons, within, List.filter_append, List.length_append] at hrest hhead hcount ⊢
      omega
    · -- the window has passed, and so it has for all later calls
      rw [within_eq_nil (fun attempt hmem => ?_)]
      · simp
      · rcases List.mem_cons.mp hmem with rfl | hmem
        · exact Nat.not_lt.mp hnow
        · exact (Nat.not_lt.mp hnow).trans (hlater attempt hmem)

/-- What is admitted in a window from the call on that opens it. -/
theorem admitted_in_window {self : AttemptTable} {opening : Attempt} (h : self.Opens opening)
    {later : List Attempt}
    (hcalls : (opening :: later).Pairwise fun left right => left.now ≤ right.now) :
    (within opening (exec answer self (opening :: later)).2).length ≤ MAX_PAIR_ATTEMPTS_PER_SOURCE := by
  obtain ⟨hnew, hadmitted⟩ := h
  obtain ⟨hlater, hcalls⟩ := List.pairwise_cons.mp hcalls
  have hopened : (self.answer opening).1[opening.source]? = some ⟨opening.now, 1⟩ := by
    rcases self.answer_cases opening with hcall | ⟨window, hwindow, _, _, hcall⟩
    · simp [hcall] at hadmitted
    · rw [ExtTreeMap.getD_eq_fallback hnew] at hwindow
      simp [hcall, ← hwindow]
  have hrest := length_within hcalls hlater hopened
  have hhead : (within opening [opening]).length ≤ 1 := List.length_filter_le _ _
  simp only [exec_cons, hadmitted, within, List.filter_append, List.length_append] at hrest hhead ⊢
  have hcap : 1 ≤ MAX_PAIR_ATTEMPTS_PER_SOURCE := by decide
  omega

theorem size_after (calls : List Attempt) : (after calls).size ≤ MAX_PAIR_SOURCES :=
  exec_invariant (I := fun sources : AttemptTable => sources.size ≤ MAX_PAIR_SOURCES)
    (fun _ attempt h => size_answer h attempt) (by simp) calls

theorem unnoticed_of_refused {self : AttemptTable} {attempt : Attempt}
    (h : (self.answer attempt).2 = []) {now : ℕ} (hnow : attempt.now ≤ now) (source : String) :
    (self.answer attempt).1.remaining source now = self.remaining source now ∧
      (self.answer attempt).1.admitPairAttempt source now = self.admitPairAttempt source now := by
  rw [answer_of_refused h]
  simp only [remaining, admitPairAttempt, retained_retained self hnow, and_self]

/-- In a run of calls at times that do not go back, no window admits more attempts than it may, the
table holds no more sources than it may, and what is refused to one source is not felt by another. -/
theorem pair_attempts_limited {calls : List Attempt}
    (hcalls : calls.Pairwise fun left right => left.now ≤ right.now) :
    (∀ earlier opening later, calls = earlier ++ opening :: later → (after earlier).Opens opening →
      (within opening (exec answer (after earlier) (opening :: later)).2).length ≤
        MAX_PAIR_ATTEMPTS_PER_SOURCE) ∧
    (after calls).size ≤ MAX_PAIR_SOURCES ∧
    (∀ earlier attempt later, calls = earlier ++ attempt :: later →
      ((after earlier).answer attempt).2 = [] → ∀ source ≠ attempt.source, ∀ now, attempt.now ≤ now →
        ((after earlier).answer attempt).1.remaining source now =
            (after earlier).remaining source now ∧
          ((after earlier).answer attempt).1.admitPairAttempt source now =
            (after earlier).admitPairAttempt source now) := by
  refine ⟨fun earlier opening later h hopens => ?_, size_after calls, ?_⟩
  · rw [h] at hcalls
    exact admitted_in_window hopens (List.pairwise_append.mp hcalls).2.1
  · intro earlier attempt later _ hrefused source _ now hnow
    exact unnoticed_of_refused hrefused hnow source

/-- As many attempts of one source as it has. -/
def spent : List Attempt := List.replicate MAX_PAIR_ATTEMPTS_PER_SOURCE ⟨"203.0.113.7", 0⟩

/-- One more is refused, and another source does not feel it. -/
theorem pair_attempts_limited_spent :
    let last : Attempt := ⟨"203.0.113.7", 1⟩
    (within ⟨"203.0.113.7", 0⟩ (exec answer ∅ (spent ++ [last])).2).length ≤
        MAX_PAIR_ATTEMPTS_PER_SOURCE ∧
      (after (spent ++ [last])).size ≤ MAX_PAIR_SOURCES ∧
      ((after spent).answer last).1.remaining "203.0.113.8" 2 =
          (after spent).remaining "203.0.113.8" 2 ∧
        ((after spent).answer last).1.admitPairAttempt "203.0.113.8" 2 =
          (after spent).admitPairAttempt "203.0.113.8" 2 := by
  have hcalls : (spent ++ [(⟨"203.0.113.7", 1⟩ : Attempt)]).Pairwise
      fun left right : Attempt => left.now ≤ right.now := by decide
  obtain ⟨hwithin, hsize, hunnoticed⟩ := pair_attempts_limited hcalls
  have hopens : (after []).Opens ⟨"203.0.113.7", 0⟩ := ⟨by decide +kernel, by decide +kernel⟩
  have hrefused : ((after spent).answer ⟨"203.0.113.7", 1⟩).2 = [] := by decide +kernel
  exact ⟨hwithin [] _ _ rfl hopens, hsize,
    hunnoticed spent _ [] rfl hrefused "203.0.113.8" (by decide) 2 (by decide)⟩

end AttemptTable

end Bridge

end SuperHerdr
