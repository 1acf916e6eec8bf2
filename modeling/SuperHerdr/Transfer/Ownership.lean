import SuperHerdr.Transfer.Footprint
import SuperHerdr.Transfer.Retention

/-!
# Which transfer holds which file

A transfer that may still append to a file holds its path: its idle entry does, or its running
attempt, or the report of an interrupted one that waits in the loop's queue. `Sound` says what is
true of these along every run: a transfer with an attempt has its entry and no second attempt
(`Tracked`), a held path is one transfer's, on one host and not given up, and the file there is
what the transfer's attempts assembled (`Owned`), an attempt that resumes starts at its end
(`Planned`), and what the loop is going to announce is where the attempt starts (`Announced`).

Here are the steps that let go of entries, start attempts and ask hosts; those that end attempts
are in `SuperHerdr.Transfer.Resumption`.
-/

namespace SuperHerdr

open Std Transducer

theorem TransferPlan.resumed_eq_some {plan : TransferPlan} {path : String}
    (h : plan.resumed = some path) : ∃ staged, plan.staging = .resume path staged := by
  unfold TransferPlan.resumed at h
  split at h
  · cases h
  · next resumed staged hstaging =>
    cases h
    exact ⟨staged, hstaging⟩

/-- The transfer whose attempt a reply reports the end of. -/
def Reply.finished : Reply → Option String
  | .relayFinished _ _ transfer _ => some transfer
  | .resumeOffset _ _ _ _ => none

/-- The transfer an interrupted attempt was of, and the path it keeps. -/
def Reply.keeps : Reply → Option (String × String)
  | .relayFinished _ _ transfer (.interrupted path _) => some (transfer, path)
  | _ => none

theorem Reply.finished_of_keeps {reply : Reply} {transfer path : String}
    (h : reply.keeps = some (transfer, path)) : reply.finished = some transfer := by
  unfold Reply.keeps at h
  split at h
  · cases h
    rfl
  · cases h

/-- The path an attempt may come to append to: what was kept, until the host has been asked. -/
def Carried.holds (carried : Carried) : Option String :=
  match carried.plan with
  | none => carried.path
  | some plan => plan.resumed

/-- The file that attempts leave together, each of them put at the offset it started at. -/
def assemble (log : List (ℕ × List UInt8)) : List UInt8 :=
  log.foldl (fun file entry => file.take entry.1 ++ entry.2) []

theorem assemble_concat (log : List (ℕ × List UInt8)) (offset : ℕ) (bytes : List UInt8) :
    assemble (log ++ [(offset, bytes)]) = (assemble log).take offset ++ bytes := by
  simp [assemble]

namespace Transfers

/-! ### Tokens and their attempts -/

theorem entry_insert (entries : ExtTreeMap String Retained) (transfer other : String)
    (retained : Retained) : (entries.insert transfer retained)[other]? =
      if transfer = other then some retained else entries[other]? := by
  simp [ExtTreeMap.getElem?_insert]

theorem entry_erase (entries : ExtTreeMap String Retained) (transfer other : String) :
    (entries.erase transfer)[other]? = if transfer = other then none else entries[other]? := by
  simp [ExtTreeMap.getElem?_erase]

/-- The transfers with an attempt that is running, or whose end was not taken note of. -/
def busy (s : Transfers) : List String :=
  s.attempts.map Carried.transfer ++ s.inputs.filterMap Reply.finished

/-- **Every attempt has its entry, and no transfer has two.** -/
structure Tracked (tokens : ℕ → Option String) (s : Transfers) : Prop where
  nodup : s.busy.Nodup
  kept : ∀ transfer ∈ s.busy, ∃ retained : Retained, s.retained[transfer]? = some retained ∧
    retained.inFlight = true
  entries : ∀ (transfer : String) (retained : Retained), s.retained[transfer]? = some retained →
    s.issued[transfer]? = some (retained.pane, retained.length)
  attempts : ∀ carried ∈ s.attempts,
    s.issued[carried.transfer]? = some (carried.pane, carried.length)
  drawn : ∀ transfer ∈ s.issued, ∃ i < s.drawn, tokens i = some transfer

variable {tokens : ℕ → Option String} {s : Transfers}

variable {transfer : String}

theorem Tracked.not_busy (h : s.Tracked tokens) {retained : Retained}
    (hentry : s.retained[transfer]? = some retained) (hidle : retained.inFlight = false) :
    transfer ∉ s.busy := by
  intro hbusy
  obtain ⟨other, hother, hflight⟩ := h.kept transfer hbusy
  rw [hentry] at hother
  cases hother
  rw [hidle] at hflight
  cases hflight

theorem Tracked.not_issued (h : s.Tracked tokens)
    (htokens : ∀ i j transfer, tokens i = some transfer → tokens j = some transfer → i = j)
    (hdrawn : tokens s.drawn = some transfer) : transfer ∉ s.issued := by
  intro hmem
  obtain ⟨i, hi, htoken⟩ := h.drawn transfer hmem
  have := htokens i s.drawn transfer htoken hdrawn
  omega

theorem Tracked.fresh (h : s.Tracked tokens) (hissued : transfer ∉ s.issued) :
    s.retained[transfer]? = none ∧ transfer ∉ s.busy := by
  have hentry : s.retained[transfer]? = none := by
    by_contra hsome
    obtain ⟨retained, hretained⟩ := Option.ne_none_iff_exists'.mp hsome
    refine hissued ?_
    rw [ExtTreeMap.mem_iff_isSome_getElem?, h.entries transfer retained hretained]
    rfl
  refine ⟨hentry, fun hbusy => ?_⟩
  obtain ⟨retained, hretained, -⟩ := h.kept transfer hbusy
  rw [hentry] at hretained
  cases hretained

/-- Entries come and go, as long as those of running attempts stay. -/
theorem Tracked.of_entries {s' : Transfers} (h : s.Tracked tokens)
    (hattempts : s'.attempts = s.attempts) (hinputs : s'.inputs = s.inputs)
    (hissued : s'.issued = s.issued) (hdrawn : s.drawn ≤ s'.drawn)
    (hkept : ∀ transfer ∈ s.busy, s'.retained[transfer]? = s.retained[transfer]?)
    (hentries : ∀ (transfer : String) (retained : Retained),
      s'.retained[transfer]? = some retained →
      ∃ before : Retained, s.retained[transfer]? = some before ∧ retained.pane = before.pane ∧
        retained.length = before.length) : s'.Tracked tokens := by
  have hbusy : s'.busy = s.busy := by rw [busy, busy, hattempts, hinputs]
  refine ⟨?_, ?_, ?_, ?_, ?_⟩
  · rw [hbusy]
    exact h.nodup
  · intro transfer hmem
    rw [hbusy] at hmem
    obtain ⟨retained, hretained, hflight⟩ := h.kept transfer hmem
    exact ⟨retained, (hkept transfer hmem).trans hretained, hflight⟩
  · intro transfer retained hretained
    obtain ⟨before, hbefore, hpane, hlength⟩ := hentries transfer retained hretained
    rw [hissued, hpane, hlength]
    exact h.entries transfer before hbefore
  · rw [hattempts, hissued]
    exact h.attempts
  · intro transfer hmem
    rw [hissued] at hmem
    obtain ⟨i, hi, htoken⟩ := h.drawn transfer hmem
    exact ⟨i, hi.trans_le hdrawn, htoken⟩

/-! ### Who holds which path -/

/-- A transfer may still come to append to the file at a path. -/
def Holds (s : Transfers) (transfer path : String) : Prop :=
  (∃ retained : Retained, s.retained[transfer]? = some retained ∧ retained.inFlight = false ∧
    retained.path = some path) ∨
  (∃ carried ∈ s.attempts, carried.transfer = transfer ∧ carried.holds = some path) ∨
  ∃ reply ∈ s.inputs, reply.keeps = some (transfer, path)

variable {carried : Carried}

theorem mem_busy_of_attempt (h : carried ∈ s.attempts) : carried.transfer ∈ s.busy :=
  List.mem_append_left _ (List.mem_map_of_mem h)

theorem mem_busy_of_reply {reply : Reply} (h : reply ∈ s.inputs)
    (hfinished : reply.finished = some transfer) : transfer ∈ s.busy :=
  List.mem_append_right _ (List.mem_filterMap.mpr ⟨reply, h, hfinished⟩)

theorem Holds.of_not_busy {transfer path : String} (h : s.Holds transfer path)
    (hbusy : transfer ∉ s.busy) :
    ∃ retained : Retained, s.retained[transfer]? = some retained ∧
      retained.inFlight = false ∧ retained.path = some path := by
  rcases h with hidle | ⟨carried, hcarried, rfl, -⟩ | ⟨reply, hreply, hkeeps⟩
  · exact hidle
  · exact absurd (mem_busy_of_attempt hcarried) hbusy
  · exact absurd (mem_busy_of_reply hreply (Reply.finished_of_keeps hkeeps)) hbusy

theorem Tracked.holds_attempt (h : s.Tracked tokens)
    (hcarried : carried ∈ s.attempts) {path : String}
    (hholds : s.Holds carried.transfer path) : carried.holds = some path := by
  obtain ⟨hattempts, -, hapart⟩ := List.nodup_append.mp h.nodup
  rcases hholds with ⟨retained, hentry, hidle, -⟩ | ⟨other, hother, hsame, hpath⟩ |
    ⟨reply, hreply, hkeeps⟩
  · exact absurd (mem_busy_of_attempt hcarried) (h.not_busy hentry hidle)
  · rwa [← List.inj_on_of_nodup_map hattempts hother hcarried hsame]
  · have hmem := List.mem_filterMap.mpr ⟨reply, hreply, Reply.finished_of_keeps hkeeps⟩
    exact absurd rfl (hapart _ (List.mem_map_of_mem hcarried) _ hmem)

/-- A path some host made a directory for. -/
def Made (directories : ℕ → String) (s : Transfers) (path : String) : Prop :=
  ∃ i < s.stagings, ∃ name : StagedName, path = directories i ++ "/" ++ name.name

/-- **What is held is what was assembled.** A file at a held path is the one the transfer's
attempts left together, on one host; no two transfers hold one path, and none that was given
up. -/
structure Owned (directories : ℕ → String) (s : Transfers) : Prop where
  content : ∀ {transfer path}, s.Holds transfer path → ∀ {target : Target} {file : List UInt8},
    s.files target path = some file → file = assemble (s.log transfer)
  alone : ∀ {transfer other path}, s.Holds transfer path → s.Holds other path → transfer = other
  undiscarded : ∀ {transfer path}, s.Holds transfer path → ∀ target, (target, path) ∉ s.discards
  made : ∀ {path}, (∃ transfer, s.Holds transfer path) ∨ (∃ target, (target, path) ∈ s.discards) ∨
    (∃ target, s.files target path ≠ none) → s.Made directories path
  oneHost : ∀ {path : String} {target other : Target}, s.files target path ≠ none →
    s.files other path ≠ none → target = other

/-- **A resuming attempt starts at the end of the file.** -/
def Planned (s : Transfers) : Prop :=
  ∀ carried ∈ s.attempts, ∀ plan, carried.plan = some plan →
    plan.length = carried.length ∧
    ∀ path staged, plan.staging = .resume path staged →
      s.files carried.target path = some (assemble (s.log carried.transfer)) ∧
        staged = (assemble (s.log carried.transfer)).length

variable {directories : ℕ → String}

/-- Paths are let go of, files removed, and paths given up that nobody holds any more. -/
theorem Owned.of_holds {s' : Transfers} (h : s.Owned directories)
    (hholds : ∀ {transfer path}, s'.Holds transfer path →
      s.Holds transfer path ∧ s'.log transfer = s.log transfer)
    (hfiles : ∀ {target path file}, s'.files target path = some file →
      s.files target path = some file)
    (hstagings : s.stagings ≤ s'.stagings)
    (hdiscards : ∀ {target path}, (target, path) ∈ s'.discards → (target, path) ∈ s.discards ∨
      s.Made directories path ∧ ∀ transfer, ¬s'.Holds transfer path) :
    s'.Owned directories := by
  have hnone : ∀ {target : Target} {path : String}, s'.files target path ≠ none →
      s.files target path ≠ none := by
    intro target path hsome
    obtain ⟨file, hfile⟩ := Option.ne_none_iff_exists'.mp hsome
    rw [hfiles hfile]
    exact Option.some_ne_none file
  refine ⟨?_, ?_, ?_, ?_, ?_⟩
  · intro transfer path hheld target file hfile
    obtain ⟨hbefore, hlog⟩ := hholds hheld
    rw [hlog]
    exact h.content hbefore (hfiles hfile)
  · intro transfer other path hheld hother
    exact h.alone (hholds hheld).1 (hholds hother).1
  · intro transfer path hheld target hmem
    rcases hdiscards hmem with hmem | ⟨-, hgone⟩
    · exact h.undiscarded (hholds hheld).1 target hmem
    · exact hgone transfer hheld
  · intro path hpath
    have hmade : s.Made directories path := by
      rcases hpath with ⟨transfer, hheld⟩ | ⟨target, hmem⟩ | ⟨target, hsome⟩
      · exact h.made (.inl ⟨transfer, (hholds hheld).1⟩)
      · rcases hdiscards hmem with hmem | ⟨hmade, -⟩
        · exact h.made (.inr (.inl ⟨target, hmem⟩))
        · exact hmade
      · exact h.made (.inr (.inr ⟨target, hnone hsome⟩))
    obtain ⟨i, hi, hname⟩ := hmade
    exact ⟨i, hi.trans_le hstagings, hname⟩
  · intro path target other hsome hother
    exact h.oneHost (hnone hsome) (hnone hother)

/-! ### What senders are told -/

/-- The attempt of a transfer that is running, or whose end was not taken note of, started at an
offset. -/
def Starts (s : Transfers) (transfer : String) (offset : ℕ) : Prop :=
  (∃ carried ∈ s.attempts, carried.transfer = transfer ∧
    ∃ plan, carried.plan = some plan ∧ plan.staged = offset) ∨
  (∃ reply ∈ s.inputs, reply.finished = some transfer) ∧
    (s.log transfer).getLast?.map Prod.fst = some offset

/-- **What is going to be announced is where the attempt starts**, and it is announced before
the attempt's end is taken note of. -/
structure Announced (s : Transfers) : Prop where
  starts : ∀ {client request transfer offset},
    .resumeOffset client request transfer offset ∈ s.inputs → s.Starts transfer offset
  ordered : s.inputs.Pairwise fun earlier later => ∀ transfer,
    earlier.finished = some transfer → ∀ client request offset,
      later ≠ .resumeOffset client request transfer offset

theorem Starts.mem_busy {offset : ℕ} (h : s.Starts transfer offset) : transfer ∈ s.busy := by
  rcases h with ⟨carried, hcarried, rfl, -⟩ | ⟨⟨reply, hreply, hfinished⟩, -⟩
  · exact mem_busy_of_attempt hcarried
  · exact mem_busy_of_reply hreply hfinished

/-! ### One step -/

/-- What holds of transfers along every run. -/
structure Sound (tokens : ℕ → Option String) (directories : ℕ → String) (s : Transfers) :
    Prop where
  tracked : s.Tracked tokens
  owned : s.Owned directories
  planned : s.Planned
  announced : s.Announced

/-- A step that touches none of what the invariant is about. -/
theorem Sound.of_same {s' : Transfers} (h : s.Sound tokens directories)
    (hretained : s'.retained = s.retained) (hattempts : s'.attempts = s.attempts)
    (hinputs : s'.inputs = s.inputs) (hfiles : s'.files = s.files)
    (hdiscards : s'.discards = s.discards) (hdrawn : s.drawn ≤ s'.drawn)
    (hstagings : s'.stagings = s.stagings) (hissued : s'.issued = s.issued)
    (hlog : s'.log = s.log) : s'.Sound tokens directories := by
  have hholds : ∀ {transfer path}, s'.Holds transfer path → s.Holds transfer path := by
    unfold Holds
    rw [hretained, hattempts, hinputs]
    exact id
  refine ⟨?_, ?_, ?_, ?_⟩
  · refine h.tracked.of_entries hattempts hinputs hissued hdrawn (fun _ _ => by rw [hretained]) ?_
    rw [hretained]
    exact fun transfer retained hentry => ⟨retained, hentry, rfl, rfl⟩
  · refine h.owned.of_holds (fun hheld => ⟨hholds hheld, by rw [hlog]⟩) ?_ hstagings.ge ?_
    · rw [hfiles]
      exact id
    · rw [hdiscards]
      exact .inl
  · unfold Planned
    rw [hattempts, hfiles, hlog]
    exact h.planned
  · refine ⟨?_, hinputs ▸ h.announced.ordered⟩
    unfold Starts
    rw [hinputs, hattempts, hlog]
    exact h.announced.starts

theorem Sound.discardUpload (h : s.Sound tokens directories) (target : Target) {path : String}
    (hmade : s.Made directories path) (hgone : ∀ transfer, ¬s.Holds transfer path) :
    (s.discardUpload target path).Sound tokens directories := by
  refine ⟨⟨h.tracked.nodup, h.tracked.kept, h.tracked.entries, h.tracked.attempts,
    h.tracked.drawn⟩, ?_, h.planned, ⟨h.announced.starts, h.announced.ordered⟩⟩
  refine h.owned.of_holds (fun hheld => ⟨hheld, rfl⟩) id le_rfl ?_
  intro other path' hmem
  rcases List.mem_append.mp hmem with hmem | hmem
  · exact .inl hmem
  · cases List.mem_singleton.mp hmem
    exact .inr ⟨hmade, hgone⟩

/-- Entries of transfers without a running attempt come and go, and no path is taken up. -/
theorem Sound.of_entries {retained' : ExtTreeMap String Retained}
    (h : s.Sound tokens directories)
    (hkept : ∀ transfer ∈ s.busy, retained'[transfer]? = s.retained[transfer]?)
    (hentries : ∀ (transfer : String) (retained : Retained),
      retained'[transfer]? = some retained → ∃ before : Retained,
        s.retained[transfer]? = some before ∧ retained.pane = before.pane ∧
        retained.length = before.length)
    (hholds : ∀ (transfer : String) (retained : Retained),
      retained'[transfer]? = some retained → retained.inFlight = false →
      ∀ path, retained.path = some path → s.Holds transfer path) :
    ({ s with retained := retained' } : Transfers).Sound tokens directories := by
  refine ⟨h.tracked.of_entries rfl rfl rfl le_rfl hkept hentries, ?_, h.planned,
    ⟨h.announced.starts, h.announced.ordered⟩⟩
  refine h.owned.of_holds (fun hheld => ⟨?_, rfl⟩) id le_rfl .inl
  rcases hheld with ⟨retained, hentry, hidle, hpath⟩ | hattempt | hreply
  · exact hholds _ retained hentry hidle _ hpath
  · exact .inr (.inl hattempt)
  · exact .inr (.inr hreply)

/-- Forgetting a transfer that no attempt is running for. -/
theorem Sound.forgetRetained (h : s.Sound tokens directories)
    (hidle : ∀ retained : Retained, s.retained[transfer]? = some retained →
      retained.inFlight = false) : (s.forgetRetained transfer).Sound tokens directories := by
  unfold Transfers.forgetRetained
  cases hentry : s.retained[transfer]? with
  | none => exact h
  | some retained =>
    have hbusy := h.tracked.not_busy hentry (hidle retained hentry)
    have herased : ({ s with retained := s.retained.erase transfer } : Transfers).Sound tokens
        directories := by
      refine h.of_entries ?_ ?_ ?_
      · intro other hother
        rw [entry_erase, if_neg fun heq : transfer = other => hbusy (heq ▸ hother)]
      · intro other kept hkept
        rw [entry_erase] at hkept
        split at hkept
        · cases hkept
        · exact ⟨kept, hkept, rfl, rfl⟩
      · intro other kept hkept hnot path hpath
        rw [entry_erase] at hkept
        split at hkept
        · cases hkept
        · exact .inl ⟨kept, hkept, hnot, hpath⟩
    simp only
    split
    · next path target hpath htarget =>
      have hheld : s.Holds transfer path := .inl ⟨retained, hentry, hidle retained hentry, hpath⟩
      refine herased.discardUpload target (h.owned.made (.inl ⟨transfer, hheld⟩)) ?_
      intro other hother
      by_cases hsame : transfer = other
      · subst hsame
        obtain ⟨kept, hkept, -⟩ := hother.of_not_busy hbusy
        rw [entry_erase, if_pos rfl] at hkept
        cases hkept
      · refine hsame (h.owned.alone hheld ?_)
        rcases hother with ⟨kept, hkept, hrest⟩ | hrest
        · rw [entry_erase, if_neg hsame] at hkept
          exact .inl ⟨kept, hkept, hrest⟩
        · exact .inr hrest
    · exact herased

theorem Sound.sweepRetained (h : s.Sound tokens directories) :
    s.sweepRetained.Sound tokens directories :=
  sweepRetained_rule (fun hs hidle => hs.forgetRetained hidle) h

theorem Sound.evictRetained (h : s.Sound tokens directories) :
    s.evictRetained.Sound tokens directories :=
  evictRetained_rule (fun hs hidle => hs.forgetRetained hidle) h

/-- Giving up entries neither draws nor issues a token. -/
theorem issued_made_room (s : Transfers) :
    s.sweepRetained.evictRetained.issued = s.issued ∧
      s.sweepRetained.evictRetained.drawn = s.drawn := by
  have hkeep : ∀ {s' : Transfers} {transfer}, s'.issued = s.issued ∧ s'.drawn = s.drawn →
      (∀ retained : Retained, s'.retained[transfer]? = some retained →
        retained.inFlight = false) →
      (s'.forgetRetained transfer).issued = s.issued ∧
        (s'.forgetRetained transfer).drawn = s.drawn := by
    intro s' transfer hs' _
    rw [← hs'.1, ← hs'.2, Transfers.forgetRetained]
    cases s'.retained[transfer]? with
    | none => exact ⟨rfl, rfl⟩
    | some retained =>
      simp only
      split <;> exact ⟨rfl, rfl⟩
  refine evictRetained_rule
    (P := fun s' => s'.issued = s.issued ∧ s'.drawn = s.drawn) hkeep ?_
  exact sweepRetained_rule
    (P := fun s' => s'.issued = s.issued ∧ s'.drawn = s.drawn) hkeep ⟨rfl, rfl⟩

theorem Tracked.nodup_concat (h : s.Tracked tokens) (hbusy : carried.transfer ∉ s.busy) :
    ((s.attempts ++ [carried]).map Carried.transfer ++
      s.inputs.filterMap Reply.finished).Nodup := by
  have hperm : ((s.attempts ++ [carried]).map Carried.transfer ++
      s.inputs.filterMap Reply.finished).Perm (carried.transfer :: s.busy) := by
    rw [List.map_append, List.append_assoc]
    exact List.perm_middle
  exact hperm.nodup_iff.mpr (List.nodup_cons.mpr ⟨hbusy, h.nodup⟩)

theorem ne_of_busy {transfer other : String} (hbusy : transfer ∉ s.busy) (hother : other ∈ s.busy) :
    transfer ≠ other :=
  fun heq => hbusy (heq ▸ hother)

section Start

variable {carried : Carried} {retained : Retained} {issued : ExtTreeMap String (PaneId × ℕ)}
  {log : String → List (ℕ × List UInt8)}

/-- An attempt starts under a token that was issued for it. -/
theorem Tracked.start (h : s.Tracked tokens) (hbusy : carried.transfer ∉ s.busy)
    (hflight : retained.inFlight = true)
    (hsame : retained.pane = carried.pane ∧ retained.length = carried.length)
    (hissued : issued[carried.transfer]? = some (carried.pane, carried.length))
    (hothers : ∀ other : String, carried.transfer ≠ other → issued[other]? = s.issued[other]?)
    (hdrawn : ∀ other ∈ issued, ∃ i < s.drawn, tokens i = some other) :
    ({ s with
        retained := s.retained.insert carried.transfer retained
        attempts := s.attempts ++ [carried]
        issued, log } : Transfers).Tracked tokens := by
  refine ⟨h.nodup_concat hbusy, ?_, ?_, ?_, hdrawn⟩
  · intro other hmem
    by_cases heq : carried.transfer = other
    · exact ⟨retained, by rw [entry_insert, if_pos heq], hflight⟩
    · have hmem' : other ∈ s.busy := by
        simp only [busy, List.map_append, List.mem_append, List.map_cons, List.map_nil,
          List.mem_singleton] at hmem ⊢
        tauto
      rw [entry_insert, if_neg heq]
      exact h.kept other hmem'
  · intro other kept hkept
    rw [entry_insert] at hkept
    by_cases heq : carried.transfer = other
    · rw [if_pos heq] at hkept
      cases hkept
      rw [← heq, hissued, hsame.1, hsame.2]
    · rw [if_neg heq] at hkept
      rw [hothers other heq]
      exact h.entries other kept hkept
  · intro other hmem
    rcases List.mem_append.mp hmem with hmem | hmem
    · rw [hothers _ (ne_of_busy hbusy (mem_busy_of_attempt hmem))]
      exact h.attempts other hmem
    · rw [List.mem_singleton.mp hmem]
      exact hissued

/-- Who holds a path when an attempt has started: another transfer that held it before, or the
attempt itself. -/
theorem holds_start (hbusy : carried.transfer ∉ s.busy) (hflight : retained.inFlight = true)
    {other path : String}
    (h : ({ s with
      retained := s.retained.insert carried.transfer retained
      attempts := s.attempts ++ [carried]
      issued, log } : Transfers).Holds other path) :
    s.Holds other path ∧ carried.transfer ≠ other ∨
      other = carried.transfer ∧ carried.holds = some path := by
  rcases h with ⟨kept, hkept, hidle, hheld⟩ | ⟨running, hrunning, rfl, hheld⟩ |
    ⟨reply, hreply, hkeeps⟩
  · rw [entry_insert] at hkept
    by_cases heq : carried.transfer = other
    · -- the entry of the attempt itself is in flight
      rw [if_pos heq] at hkept
      cases hkept
      rw [hflight] at hidle
      cases hidle
    · rw [if_neg heq] at hkept
      exact .inl ⟨.inl ⟨kept, hkept, hidle, hheld⟩, heq⟩
  · rcases List.mem_append.mp hrunning with hrunning | hrunning
    · exact .inl ⟨.inr (.inl ⟨running, hrunning, rfl, hheld⟩),
        ne_of_busy hbusy (mem_busy_of_attempt hrunning)⟩
    · rw [List.mem_singleton.mp hrunning] at hheld ⊢
      exact .inr ⟨rfl, hheld⟩
  · exact .inl ⟨.inr (.inr ⟨reply, hreply, hkeeps⟩),
      ne_of_busy hbusy (mem_busy_of_reply hreply (Reply.finished_of_keeps hkeeps))⟩

end Start

/-- **An attempt starts** for a transfer that has none running, with an entry that says so. It
takes up a path only if the transfer held it. -/
theorem Sound.start (h : s.Sound tokens directories) (carried : Carried) {retained : Retained}
    {issued : ExtTreeMap String (PaneId × ℕ)} {log : String → List (ℕ × List UInt8)}
    (hbusy : carried.transfer ∉ s.busy) (hflight : retained.inFlight = true)
    (hsame : retained.pane = carried.pane ∧ retained.length = carried.length)
    (hissued : issued[carried.transfer]? = some (carried.pane, carried.length))
    (hothers : ∀ other : String, carried.transfer ≠ other →
      issued[other]? = s.issued[other]? ∧ log other = s.log other)
    (hdrawn : ∀ other ∈ issued, ∃ i < s.drawn, tokens i = some other)
    (hpath : ∀ path, carried.holds = some path →
      s.Holds carried.transfer path ∧ log carried.transfer = s.log carried.transfer)
    (hplan : ∀ plan, carried.plan = some plan →
      plan.length = carried.length ∧ ∃ name, plan.staging = .fresh name) :
    ({ s with
        retained := s.retained.insert carried.transfer retained
        attempts := s.attempts ++ [carried]
        issued, log } : Transfers).Sound tokens directories := by
  have hlog : ∀ {other : String}, other ∈ s.busy → log other = s.log other :=
    fun hmem => (hothers _ (ne_of_busy hbusy hmem)).2
  refine ⟨h.tracked.start hbusy hflight hsame hissued (fun other hne => (hothers other hne).1)
    hdrawn, ?_, ?_, ?_, h.announced.ordered⟩
  · -- owned
    refine h.owned.of_holds ?_ id le_rfl .inl
    intro other path hheld
    rcases holds_start hbusy hflight hheld with ⟨hbefore, hne⟩ | ⟨rfl, htaken⟩
    · exact ⟨hbefore, (hothers other hne).2⟩
    · exact hpath path htaken
  · -- planned
    intro running hrunning plan hplanned
    rcases List.mem_append.mp hrunning with hrunning | hrunning
    · simp only [hlog (mem_busy_of_attempt hrunning)]
      exact h.planned running hrunning plan hplanned
    · rw [List.mem_singleton.mp hrunning] at hplanned ⊢
      obtain ⟨hlength, name, hfresh⟩ := hplan plan hplanned
      refine ⟨hlength, fun path staged hresume => ?_⟩
      rw [hfresh] at hresume
      cases hresume
  · -- announced
    intro client request other offset hmem
    have hstarts := h.announced.starts hmem
    have hsame := hlog hstarts.mem_busy
    unfold Starts at hstarts ⊢
    simp only [hsame]
    rcases hstarts with ⟨running, hrunning, hrest⟩ | hfinished
    · exact .inl ⟨running, List.mem_append_left _ hrunning, hrest⟩
    · exact .inr hfinished

/-- A transfer is let in under a token that was drawn and never issued. -/
theorem Sound.letIn (h : s.Sound tokens directories)
    (hdrawn : ∃ i < s.drawn, tokens i = some transfer) (hissued : transfer ∉ s.issued)
    (client : ClientId) (request : ℕ) (pane : PaneId) (target : Target) (mime : String)
    (name : Option String) (length : ℕ) :
    (s.letIn client request transfer pane target mime name length).Sound tokens
      directories := by
  unfold Transfers.letIn
  obtain ⟨hissuedRoom, hdrawnRoom⟩ := issued_made_room s
  rw [← hissuedRoom] at hissued
  rw [← hdrawnRoom] at hdrawn
  have hroom := h.sweepRetained.evictRetained
  generalize s.sweepRetained.evictRetained = room at *
  obtain ⟨-, hbusy⟩ := hroom.tracked.fresh hissued
  refine hroom.start ⟨client, request, transfer, pane, target, mediaForMime mime, name, length,
    none, some ⟨mediaForMime mime, .fresh name, length⟩⟩ ?_ ?_ ?_ ?_ ?_ ?_ ?_ ?_
  · exact hbusy
  · rfl
  · exact ⟨rfl, rfl⟩
  · simp
  · intro other hne
    exact ⟨by simp [ExtTreeMap.getElem?_insert, hne], Function.update_of_ne hne.symm _ _⟩
  · intro other hmem
    rcases ExtTreeMap.mem_insert.mp hmem with hsame | hmem
    · rw [LawfulEqCmp.eq_of_compare hsame] at hdrawn
      exact hdrawn
    · exact hroom.tracked.drawn other hmem
  · intro path hpath
    cases hpath
  · intro plan hplan
    cases hplan
    exact ⟨rfl, name, rfl⟩

/-- An attempt to resume a transfer that is kept. -/
theorem Sound.takeUp (h : s.Sound tokens directories) {retained : Retained}
    (hentry : s.retained[transfer]? = some retained) (hidle : retained.inFlight = false)
    (client : ClientId) (request : ℕ) (target : Target) :
    (s.takeUp client request transfer retained.pane target retained.length retained).Sound tokens
      directories := by
  unfold Transfers.takeUp
  refine h.start ⟨client, request, transfer, retained.pane, target, mediaForMime retained.mime,
    retained.name, retained.length, retained.path, none⟩ ?_ ?_ ?_ ?_ ?_ ?_ ?_ ?_
  · exact h.tracked.not_busy hentry hidle
  · rfl
  · exact ⟨rfl, rfl⟩
  · exact h.tracked.entries transfer retained hentry
  · exact fun other _ => ⟨rfl, rfl⟩
  · exact h.tracked.drawn
  · intro path hpath
    exact ⟨.inl ⟨retained, hentry, hidle, hpath⟩, rfl⟩
  · intro plan hplan
    cases hplan

theorem Tracked.not_finished (h : s.Tracked tokens)
    (hcarried : carried ∈ s.attempts) {reply : Reply} (hreply : reply ∈ s.inputs) :
    reply.finished ≠ some carried.transfer := by
  intro hfinished
  obtain ⟨-, -, hapart⟩ := List.nodup_append.mp h.nodup
  have hmem := List.mem_filterMap.mpr ⟨reply, hreply, hfinished⟩
  exact hapart _ (List.mem_map_of_mem hcarried) _ hmem rfl

/-- A resuming attempt that learns where it starts takes up no path. -/
theorem holds_of_plan {i : ℕ} (hi : s.attempts[i]? = some carried)
    (hnone : carried.plan = none) {plan : TransferPlan} {request offset : ℕ} {client : ClientId}
    (hresume : ∀ path, plan.resumed = some path → carried.path = some path)
    {other path : String}
    (h : ({ s with
      attempts := s.attempts.set i { carried with plan := some plan }
      inputs := s.inputs ++ [.resumeOffset client request transfer offset] } : Transfers).Holds
        other path) : s.Holds other path := by
  rcases h with hidle | ⟨running, hrunning, rfl, hheld⟩ | ⟨reply, hreply, hkeeps⟩
  · exact .inl hidle
  · rcases List.mem_or_eq_of_mem_set hrunning with hrunning | rfl
    · exact .inr (.inl ⟨running, hrunning, rfl, hheld⟩)
    · have hkept : carried.holds = some path := by
        rw [Carried.holds, hnone]
        exact hresume path hheld
      exact .inr (.inl ⟨carried, List.mem_of_getElem? hi, rfl, hkept⟩)
  · rcases List.mem_append.mp hreply with hreply | hreply
    · exact .inr (.inr ⟨reply, hreply, hkeeps⟩)
    · rw [List.mem_singleton.mp hreply] at hkeeps
      cases hkeeps

/-- An attempt that learns where it starts is the one it was. -/
theorem Tracked.plan (h : s.Tracked tokens) {i : ℕ}
    (hi : s.attempts[i]? = some carried) (plan : TransferPlan) (client : ClientId)
    (request offset : ℕ) (transfer : String) :
    ({ s with
        attempts := s.attempts.set i { carried with plan := some plan }
        inputs := s.inputs ++ [.resumeOffset client request transfer offset] } :
      Transfers).Tracked tokens := by
  obtain ⟨hlt, hget⟩ := List.getElem?_eq_some_iff.mp hi
  have hbusy : ({ s with
      attempts := s.attempts.set i { carried with plan := some plan }
      inputs := s.inputs ++ [.resumeOffset client request transfer offset] } :
      Transfers).busy = s.busy := by
    have hset : (s.attempts.map Carried.transfer).set i carried.transfer =
        s.attempts.map Carried.transfer := by
      rw [← hget, ← List.map_set, List.set_getElem_self]
    rw [busy, busy, List.map_set, hset, List.filterMap_append]
    exact congrArg _ (List.append_nil _)
  refine ⟨?_, ?_, h.entries, fun running hrunning => ?_, h.drawn⟩
  · rw [hbusy]
    exact h.nodup
  · rw [hbusy]
    exact h.kept
  · rcases List.mem_or_eq_of_mem_set hrunning with hrunning | rfl
    · exact h.attempts running hrunning
    · exact h.attempts carried (List.mem_of_getElem? hi)

/-- **A resuming attempt learns where it starts**: at the end of the file it kept, or afresh. -/
theorem Sound.plan (h : s.Sound tokens directories) {i : ℕ}
    (hi : s.attempts[i]? = some carried) (hnone : carried.plan = none) (plan : TransferPlan)
    (hlength : plan.length = carried.length)
    (hresume : ∀ path staged, plan.staging = .resume path staged →
      carried.path = some path ∧
      s.files carried.target path = some (assemble (s.log carried.transfer)) ∧
      staged = (assemble (s.log carried.transfer)).length) :
    ({ s with
        attempts := s.attempts.set i { carried with plan := some plan }
        inputs := s.inputs ++ [.resumeOffset carried.client carried.request carried.transfer
          plan.staged] } : Transfers).Sound tokens directories := by
  have hcarried : carried ∈ s.attempts := List.mem_of_getElem? hi
  obtain ⟨hlt, -⟩ := List.getElem?_eq_some_iff.mp hi
  refine ⟨h.tracked.plan hi plan _ _ _ _, ?_, ?_, ?_, ?_⟩
  · -- owned
    refine h.owned.of_holds ?_ id le_rfl .inl
    intro other path hheld
    refine ⟨holds_of_plan hi hnone (fun path hpath => ?_) hheld, rfl⟩
    obtain ⟨staged, hstaging⟩ := TransferPlan.resumed_eq_some hpath
    exact (hresume path staged hstaging).1
  · -- planned
    intro running hrunning plan' hplan'
    rcases List.mem_or_eq_of_mem_set hrunning with hrunning | rfl
    · exact h.planned running hrunning plan' hplan'
    · cases hplan'
      exact ⟨hlength, fun path staged hstaging => (hresume path staged hstaging).2⟩
  · -- announced
    intro client request other offset hmem
    rcases List.mem_append.mp hmem with hmem | hmem
    · rcases h.announced.starts hmem with ⟨running, hrunning, htransfer, plan', hplan', hoffset⟩ |
        ⟨⟨reply, hreply, hfinished⟩, hlast⟩
      · -- the attempt was planned already, so it is another one
        obtain ⟨j, hj⟩ := List.mem_iff_getElem?.mp hrunning
        have hne : i ≠ j := by
          rintro rfl
          rw [hi] at hj
          cases hj
          rw [hnone] at hplan'
          cases hplan'
        refine .inl ⟨running, ?_, htransfer, plan', hplan', hoffset⟩
        exact List.mem_iff_getElem?.mpr ⟨j, by rw [List.getElem?_set_ne hne, hj]⟩
      · exact .inr ⟨⟨reply, List.mem_append_left _ hreply, hfinished⟩, hlast⟩
    · cases List.mem_singleton.mp hmem
      exact .inl ⟨{ carried with plan := some plan }, List.mem_set hlt _, rfl, plan, rfl, rfl⟩
  · refine List.pairwise_append.mpr ⟨h.announced.ordered, List.pairwise_singleton _ _, ?_⟩
    intro earlier hearlier later hlater other hfinished client request offset heq
    rw [List.mem_singleton.mp hlater] at heq
    cases heq
    exact h.tracked.not_finished hcarried hearlier hfinished

theorem stagedBytes_pos {target : Target} {path : String} {answers : Bool}
    (h : 0 < s.stagedBytes target path answers) :
    ∃ file, s.files target path = some file ∧
      s.stagedBytes target path answers = file.length := by
  unfold stagedBytes at h ⊢
  split at h
  · next hanswers =>
    rw [if_pos hanswers]
    cases hfile : s.files target path with
    | none => simp [hfile] at h
    | some file => exact ⟨file, rfl, rfl⟩
  · cases h

/-- A resuming task asks its host. -/
theorem Sound.probed (h : s.Sound tokens directories) (i : ℕ) (answers : Bool) :
    (s.probed i answers).Sound tokens directories := by
  unfold Transfers.probed
  cases hi : s.attempts[i]? with
  | none => exact h
  | some carried =>
    have hcarried := List.mem_of_getElem? hi
    cases hplan : carried.plan with
    | some plan => simpa [hplan] using h
    | none =>
      have hholds : ∀ path, carried.path = some path → s.Holds carried.transfer path :=
        fun path hpath => .inr (.inl ⟨carried, hcarried, rfl, by rw [Carried.holds, hplan, hpath]⟩)
      have hfresh := h.plan hi hplan ⟨carried.media, .fresh carried.name, carried.length⟩ rfl
        (fun path staged hstaging => by cases hstaging)
      simp only [hplan, Option.isSome_none, Bool.false_eq_true, if_false]
      rcases probe_cases s carried answers with ⟨path, hpath, hpos, heq⟩ | ⟨path, hpath, heq⟩ |
        ⟨-, heq⟩
      · rw [heq]
        obtain ⟨file, hfile, hstaged⟩ := stagedBytes_pos hpos
        have hcontent := h.owned.content (hholds path hpath) hfile
        refine h.plan hi hplan _ rfl ?_
        intro path' staged hstaging
        cases hstaging
        exact ⟨hpath, hcontent ▸ hfile, hcontent ▸ hstaged⟩
      · rw [heq]
        have hheld := hholds path hpath
        refine hfresh.discardUpload carried.target (h.owned.made (.inl ⟨_, hheld⟩)) ?_
        intro other hother
        have hsame := h.owned.alone hheld
          (holds_of_plan hi hplan (fun path hpath => by cases hpath) hother)
        subst hsame
        obtain ⟨hlt, -⟩ := List.getElem?_eq_some_iff.mp hi
        cases hfresh.tracked.holds_attempt (List.mem_set hlt _) hother
      · rw [heq]
        exact hfresh

end Transfers

end SuperHerdr
