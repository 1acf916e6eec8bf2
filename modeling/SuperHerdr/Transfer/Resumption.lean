import SuperHerdr.Transfer.Ownership

/-!
# Resumed transfers

The steps that end an attempt, and with them every run. A relay writes to no file but its own, so
when it comes to its end every other held file is as it was, and its own is what its attempts
assembled. The loop then takes note: an interrupted transfer's entry takes over the path, any
other outcome lets it go. Paths that were given up are removed and hosts lose files, but none that
an attempt is appending to.
-/

namespace SuperHerdr

open Std Transducer

namespace Transfers

variable {tokens : ℕ → Option String} {s : Transfers} {directories : ℕ → String}

/-! ### A relay comes to its end -/

theorem hostAt_offers (host : Host) (directory : String) (held : List UInt8) :
    (hostAt host directory held).Offers directory held := by
  cases host with
  | ssh session => exact ⟨rfl, rfl⟩
  | here disk =>
    refine ⟨fun made hmade => ?_, rfl⟩
    simp only [Option.map_eq_some_iff] at hmade
    obtain ⟨-, -, rfl⟩ := hmade
    rfl

theorem not_made (hdirectories : Function.Injective directories) {path : String}
    {name : StagedName} (hpath : path = directories s.stagings ++ "/" ++ name.name) :
    ¬s.Made directories path := by
  rintro ⟨i, hi, name', hpath'⟩
  have hsame := hdirectories (directory_of_path (hpath.symm.trans hpath'))
  omega

section Relayed

variable {i : ℕ} {carried : Carried} {plan : TransferPlan}

theorem Sound.before_eq (h : s.Sound tokens directories) (hi : s.attempts[i]? = some carried)
    (hplan : carried.plan = some plan) :
    plan.before (s.held carried.target plan) =
        (assemble (s.log carried.transfer)).take plan.staged ∧
      plan.staged ≤ (assemble (s.log carried.transfer)).length := by
  have hplanned := (h.planned carried (List.mem_of_getElem? hi) plan hplan).2
  unfold TransferPlan.before TransferPlan.staged Transfers.held TransferPlan.resumed
  cases hstaging : plan.staging with
  | fresh name => exact ⟨rfl, Nat.zero_le _⟩
  | resume path staged =>
    obtain ⟨hfile, hstaged⟩ := hplanned path staged hstaging
    simp [hfile, hstaged]

/-- **The attempt's own file is nobody else's**: no other transfer holds it, no other host has
it, and it was not given up. -/
theorem Sound.own (h : s.Sound tokens directories) (hdirectories : Function.Injective directories)
    (hi : s.attempts[i]? = some carried) (hplan : carried.plan = some plan) {path : String}
    (hown : plan.Own (directories s.stagings) path) :
    (∀ other, s.Holds other path → other = carried.transfer) ∧
      (∀ target, s.files target path ≠ none → target = carried.target) ∧
      (∀ target, (target, path) ∉ s.discards) ∧
      ∃ i < s.stagings + 1, ∃ name : StagedName, path = directories i ++ "/" ++ name.name := by
  have hcarried := List.mem_of_getElem? hi
  rcases hown with hresumed | ⟨-, name, hpath⟩
  · have hheld : s.Holds carried.transfer path :=
      .inr (.inl ⟨carried, hcarried, rfl, by rw [Carried.holds, hplan]; exact hresumed⟩)
    obtain ⟨staged, hstaging⟩ := TransferPlan.resumed_eq_some hresumed
    obtain ⟨hfile, -⟩ := (h.planned carried hcarried plan hplan).2 path staged hstaging
    refine ⟨fun other hother => h.owned.alone hother hheld, fun target hsome => ?_,
      h.owned.undiscarded hheld, ?_⟩
    · exact h.owned.oneHost hsome (by rw [hfile]; exact Option.some_ne_none _)
    · obtain ⟨j, hj, hname⟩ := h.owned.made (.inl ⟨_, hheld⟩)
      exact ⟨j, hj.trans (Nat.lt_succ_self _), hname⟩
  · have hnot := not_made hdirectories hpath
    exact ⟨fun other hother => absurd (h.owned.made (.inl ⟨other, hother⟩)) hnot,
      fun target hsome => absurd (h.owned.made (.inr (.inr ⟨target, hsome⟩))) hnot,
      fun target hmem => hnot (h.owned.made (.inr (.inl ⟨target, hmem⟩))),
      s.stagings, Nat.lt_succ_self _, name, hpath⟩

variable {report : Report} {items : List RelayItem}

theorem log_finish : (s.finish i carried plan report).log carried.transfer =
    s.log carried.transfer ++ [(plan.staged,
      report.file.drop (plan.before (s.held carried.target plan)).length)] :=
  Function.update_self ..

/-- An attempt that ended keeps its transfer busy until the loop takes note. -/
theorem busy_finish_perm (hi : s.attempts[i]? = some carried) :
    (s.finish i carried plan report).busy.Perm s.busy := by
  obtain ⟨hlt, hget⟩ := List.getElem?_eq_some_iff.mp hi
  have herased : (carried.transfer :: (s.attempts.eraseIdx i).map Carried.transfer).Perm
      (s.attempts.map Carried.transfer) := by
    have := (List.getElem_cons_eraseIdx_perm hlt).map Carried.transfer
    rwa [hget] at this
  have hbusy : (s.finish i carried plan report).busy = (s.attempts.eraseIdx i).map
      Carried.transfer ++ (s.inputs.filterMap Reply.finished ++ [carried.transfer]) := by
    simp [busy, finish, List.filterMap_append, Reply.finished]
  rw [hbusy, busy, ← List.append_assoc]
  exact (List.perm_append_singleton ..).trans (herased.append_right _)

theorem Tracked.finish (h : s.Tracked tokens) (hi : s.attempts[i]? = some carried) :
    (s.finish i carried plan report).Tracked tokens := by
  have hperm : (s.finish i carried plan report).busy.Perm s.busy := busy_finish_perm hi
  refine ⟨hperm.nodup_iff.mpr h.nodup, fun transfer hmem => h.kept transfer (hperm.mem_iff.mp hmem),
    h.entries, fun running hrunning => ?_, h.drawn⟩
  exact h.attempts running (List.mem_of_mem_eraseIdx hrunning)

/-- Who holds a path when an attempt has ended: who held it before, or the transfer whose attempt
was interrupted and kept it. -/
theorem Sound.holds_finish (h : s.Sound tokens directories) (hi : s.attempts[i]? = some carried)
    {other path : String} (hholds : (s.finish i carried plan report).Holds other path) :
    s.Holds other path ∧ other ≠ carried.transfer ∨
      other = carried.transfer ∧ report.outcome.path = some path := by
  have htracked : (s.finish i carried plan report).Tracked tokens := h.tracked.finish hi
  have hcarried := List.mem_of_getElem? hi
  rcases hholds with ⟨retained, hentry, hidle, hpath⟩ | ⟨running, hrunning, rfl, hpath⟩ |
    ⟨reply, hreply, hkeeps⟩
  · refine .inl ⟨.inl ⟨retained, hentry, hidle, hpath⟩, ?_⟩
    rintro rfl
    exact h.tracked.not_busy hentry hidle (mem_busy_of_attempt hcarried)
  · refine .inl ⟨.inr (.inl ⟨running, List.mem_of_mem_eraseIdx hrunning, rfl, hpath⟩), ?_⟩
    intro heq
    refine htracked.not_finished hrunning (List.mem_append_right _ (List.mem_singleton.mpr rfl)) ?_
    rw [heq]
    rfl
  · rcases List.mem_append.mp hreply with hreply | hreply
    · refine .inl ⟨.inr (.inr ⟨reply, hreply, hkeeps⟩), ?_⟩
      rintro rfl
      exact h.tracked.not_finished hcarried hreply (Reply.finished_of_keeps hkeeps)
    · rw [List.mem_singleton.mp hreply] at hkeeps
      cases houtcome : report.outcome with
      | interrupted kept staged =>
        rw [houtcome] at hkeeps
        cases hkeeps
        exact .inr ⟨rfl, rfl⟩
      | done path bytes =>
        rw [houtcome] at hkeeps
        cases hkeeps
      | refused message =>
        rw [houtcome] at hkeeps
        cases hkeeps
      | withdrawn =>
        rw [houtcome] at hkeeps
        cases hkeeps

/-- **The file is what the attempts assembled**, this one's part at the offset it started at. -/
theorem Sound.file_finish (h : s.Sound tokens directories) (hi : s.attempts[i]? = some carried)
    (hplan : carried.plan = some plan) {directory : String}
    (htidy : report.Tidy plan directory (s.held carried.target plan) items) :
    report.file = assemble ((s.finish i carried plan report).log carried.transfer) := by
  obtain ⟨added, hfile, -⟩ := htidy.file
  rw [log_finish, assemble_concat, ← (h.before_eq hi hplan).1, hfile, List.drop_left]

theorem files_finish_of_ne {target : Target} {path : String}
    (hne : target = carried.target → (plan.resumed <|> report.received.map Receipt.path) ≠
      some path) :
    (s.finish i carried plan report).files target path = s.files target path :=
  if_neg fun h => hne h.1 h.2

theorem Sound.owned_finish (h : s.Sound tokens directories)
    (hdirectories : Function.Injective directories) (hi : s.attempts[i]? = some carried)
    (hplan : carried.plan = some plan)
    (htidy : report.Tidy plan (directories s.stagings) (s.held carried.target plan) items) :
    (s.finish i carried plan report).Owned directories := by
  -- the paths of this attempt's own, and what nobody else has to do with them
  have hown := @Sound.own tokens s directories i carried plan h hdirectories hi hplan
  have hwritten : ∀ {path}, (plan.resumed <|> report.received.map Receipt.path) = some path →
      plan.Own (directories s.stagings) path := fun hpath => htidy.own_written hpath
  have hkept : ∀ {path}, report.outcome.path = some path →
      plan.Own (directories s.stagings) path := fun hpath => hwritten (htidy.written_of_kept hpath)
  have hlog : ∀ {other}, other ≠ carried.transfer →
      (s.finish i carried plan report).log other = s.log other :=
    fun hne => Function.update_of_ne hne _ _
  have hfiles : ∀ {other path}, s.Holds other path → other ≠ carried.transfer → ∀ target,
      (s.finish i carried plan report).files target path = s.files target path :=
    fun hholds hne target =>
      files_finish_of_ne fun _ hpath => hne ((hown (hwritten hpath)).1 _ hholds)
  have hdiscarded : ∀ {target path}, (target, path) ∈ (s.finish i carried plan report).discards →
      (target, path) ∈ s.discards ∨ path ∈ report.discarded := by
    intro target path hmem
    rcases List.mem_append.mp hmem with hmem | hmem
    · exact .inl hmem
    · obtain ⟨discarded, hmem, heq⟩ := List.mem_map.mp hmem
      cases heq
      exact .inr hmem
  have hmade : ∀ {path}, s.Made directories path →
      (s.finish i carried plan report).Made directories path :=
    fun ⟨j, hj, hname⟩ => ⟨j, hj.trans (Nat.lt_succ_self _), hname⟩
  refine ⟨?_, ?_, ?_, ?_, ?_⟩
  · -- content: another's file was not written, its own is what was assembled
    intro other path hholds target file hfile
    rcases h.holds_finish hi hholds with ⟨hbefore, hne⟩ | ⟨rfl, hpath⟩
    · rw [hfiles hbefore hne] at hfile
      rw [hlog hne]
      exact h.owned.content hbefore hfile
    · rw [← h.file_finish hi hplan htidy]
      by_cases htarget : target = carried.target
      · have hnew : (s.finish i carried plan report).files target path = some report.file :=
          if_pos ⟨htarget, htidy.written_of_kept hpath⟩
        rw [hnew] at hfile
        cases hfile
        rfl
      · rw [files_finish_of_ne fun heq => absurd heq htarget] at hfile
        refine absurd ((hown (hkept hpath)).2.1 target ?_) htarget
        rw [hfile]
        exact Option.some_ne_none _
  · -- alone
    intro transfer other path hholds hother
    rcases h.holds_finish hi hholds with ⟨hbefore, hne⟩ | ⟨rfl, hpath⟩
    · rcases h.holds_finish hi hother with ⟨hbefore', -⟩ | ⟨rfl, hpath'⟩
      · exact h.owned.alone hbefore hbefore'
      · exact (hown (hkept hpath')).1 _ hbefore
    · rcases h.holds_finish hi hother with ⟨hbefore', -⟩ | ⟨rfl, -⟩
      · exact ((hown (hkept hpath)).1 _ hbefore').symm
      · rfl
  · -- undiscarded: an attempt that keeps its path discards nothing
    intro other path hholds target hmem
    rcases h.holds_finish hi hholds with ⟨hbefore, hne⟩ | ⟨rfl, hpath⟩
    · rcases hdiscarded hmem with hmem | hmem
      · exact h.owned.undiscarded hbefore target hmem
      · exact hne ((hown (htidy.discarded path hmem)).1 _ hbefore)
    · rcases hdiscarded hmem with hmem | hmem
      · exact (hown (hkept hpath)).2.2.1 target hmem
      · rw [(htidy.kept path hpath).2] at hmem
        cases hmem
  · -- made
    rintro path (⟨other, hholds⟩ | ⟨target, hmem⟩ | ⟨target, hsome⟩)
    · rcases h.holds_finish hi hholds with ⟨hbefore, -⟩ | ⟨rfl, hpath⟩
      · exact hmade (h.owned.made (.inl ⟨other, hbefore⟩))
      · exact (hown (hkept hpath)).2.2.2
    · rcases hdiscarded hmem with hmem | hmem
      · exact hmade (h.owned.made (.inr (.inl ⟨target, hmem⟩)))
      · exact (hown (htidy.discarded path hmem)).2.2.2
    · by_cases hpath : (plan.resumed <|> report.received.map Receipt.path) = some path
      · exact (hown (hwritten hpath)).2.2.2
      · rw [files_finish_of_ne fun _ => hpath] at hsome
        exact hmade (h.owned.made (.inr (.inr ⟨target, hsome⟩)))
  · -- oneHost
    intro path target other hsome hother
    by_cases hpath : (plan.resumed <|> report.received.map Receipt.path) = some path
    · have honly : ∀ target, (s.finish i carried plan report).files target path ≠ none →
          target = carried.target := by
        intro target hsome
        by_contra hne
        rw [files_finish_of_ne fun heq => absurd heq hne] at hsome
        exact hne ((hown (hwritten hpath)).2.1 target hsome)
      rw [honly target hsome, honly other hother]
    · rw [files_finish_of_ne fun _ => hpath] at hsome hother
      exact h.owned.oneHost hsome hother

theorem Sound.planned_finish (h : s.Sound tokens directories)
    (hdirectories : Function.Injective directories) (hi : s.attempts[i]? = some carried)
    (hplan : carried.plan = some plan)
    (htidy : report.Tidy plan (directories s.stagings) (s.held carried.target plan) items) :
    (s.finish i carried plan report).Planned := by
  intro running hrunning plan' hplan'
  have hbefore := List.mem_of_mem_eraseIdx hrunning
  obtain ⟨hlength, hresume⟩ := h.planned running hbefore plan' hplan'
  refine ⟨hlength, fun path staged hstaging => ?_⟩
  have hne : running.transfer ≠ carried.transfer := by
    intro heq
    have htracked : (s.finish i carried plan report).Tracked tokens := h.tracked.finish hi
    refine htracked.not_finished hrunning (List.mem_append_right _ (List.mem_singleton.mpr rfl)) ?_
    rw [heq]
    rfl
  have hholds : s.Holds running.transfer path := by
    refine .inr (.inl ⟨running, hbefore, rfl, ?_⟩)
    simp [Carried.holds, hplan', TransferPlan.resumed, hstaging]
  have hlog : (s.finish i carried plan report).log running.transfer = s.log running.transfer :=
    Function.update_of_ne hne _ _
  rw [hlog, files_finish_of_ne fun _ hpath =>
    hne ((h.own hdirectories hi hplan (htidy.own_written hpath)).1 _ hholds)]
  exact hresume path staged hstaging

theorem Sound.announced_finish (h : s.Sound tokens directories)
    (hi : s.attempts[i]? = some carried) (hplan : carried.plan = some plan) :
    (s.finish i carried plan report).Announced := by
  have hcarried := List.mem_of_getElem? hi
  refine ⟨?_, List.pairwise_append.mpr ⟨h.announced.ordered, List.pairwise_singleton _ _, ?_⟩⟩
  · intro client request other offset hmem
    have hmem' : .resumeOffset client request other offset ∈ s.inputs := by
      rcases List.mem_append.mp hmem with hmem | hmem
      · exact hmem
      · cases List.mem_singleton.mp hmem
    rcases h.announced.starts hmem' with ⟨running, hrunning, rfl, plan', hplan', hoffset⟩ |
      ⟨⟨reply, hreply, hfinished⟩, hlast⟩
    · by_cases hsame : running.transfer = carried.transfer
      · -- it is this attempt that is going to be announced
        obtain ⟨hnodup, -, -⟩ := List.nodup_append.mp h.tracked.nodup
        cases List.inj_on_of_nodup_map hnodup hrunning hcarried hsame
        rw [hplan] at hplan'
        cases hplan'
        refine .inr ⟨⟨_, List.mem_append_right _ (List.mem_singleton.mpr rfl), rfl⟩, ?_⟩
        rw [log_finish, List.getLast?_concat, ← hoffset]
        rfl
      · obtain ⟨j, hj⟩ := List.mem_iff_getElem?.mp hrunning
        have hne : j ≠ i := by
          rintro rfl
          rw [hi] at hj
          cases hj
          exact hsame rfl
        exact .inl ⟨running, List.mem_eraseIdx_iff_getElem?.mpr ⟨j, hne, hj⟩, rfl, plan', hplan',
          hoffset⟩
    · have hne : other ≠ carried.transfer := by
        rintro rfl
        exact h.tracked.not_finished hcarried hreply hfinished
      refine .inr ⟨⟨reply, List.mem_append_left _ hreply, hfinished⟩, ?_⟩
      have hlog : (s.finish i carried plan report).log other = s.log other :=
        Function.update_of_ne hne _ _
      rw [hlog]
      exact hlast
  · intro earlier _ later hlater transfer _ client request offset heq
    rw [List.mem_singleton.mp hlater] at heq
    cases heq

/-- **A relay comes to its end.** -/
theorem Sound.relayed (h : s.Sound tokens directories)
    (hdirectories : Function.Injective directories) (sha256 : List UInt8 → String) (i : ℕ)
    (host : Host) (items : List RelayItem) (timely : Bool) :
    (s.relayed sha256 directories i host items timely).Sound tokens directories := by
  unfold Transfers.relayed
  cases hi : s.attempts[i]? with
  | none => exact h
  | some carried =>
    cases hplan : carried.plan with
    | none => simpa [hplan] using h
    | some plan =>
      simp only [hplan]
      have htidy := @relay_tidy sha256 plan items _ _ _
        (hostAt_offers host (directories s.stagings) (s.held carried.target plan)) timely
      exact ⟨h.tracked.finish hi, h.owned_finish hdirectories hi hplan htidy,
        h.planned_finish hdirectories hi hplan htidy, h.announced_finish hi hplan⟩

end Relayed

/-! ### The loop takes note -/

variable {rest : List Reply} {reply : Reply}

/-- The next reply is taken off the queue, and the entries change with it. -/
theorem Sound.take (h : s.Sound tokens directories)
    (hinputs : s.inputs = reply :: rest) {retained' : ExtTreeMap String Retained}
    (hkept : ∀ transfer ∈ ({ s with inputs := rest } : Transfers).busy,
      ∃ retained : Retained, retained'[transfer]? = some retained ∧ retained.inFlight = true)
    (hentries : ∀ (transfer : String) (retained : Retained),
      retained'[transfer]? = some retained → ∃ before : Retained,
        s.retained[transfer]? = some before ∧ retained.pane = before.pane ∧
        retained.length = before.length)
    (hholds : ∀ (transfer : String) (retained : Retained),
      retained'[transfer]? = some retained → retained.inFlight = false →
      ∀ path, retained.path = some path → s.Holds transfer path) :
    ({ s with inputs := rest, retained := retained' } : Transfers).Sound tokens directories := by
  have hmem : ∀ {later}, later ∈ rest → later ∈ s.inputs :=
    fun hlater => hinputs ▸ List.mem_cons_of_mem _ hlater
  have hordered := h.announced.ordered
  rw [hinputs, List.pairwise_cons] at hordered
  refine ⟨⟨?_, hkept, ?_, h.tracked.attempts, h.tracked.drawn⟩, ?_, h.planned, ?_, hordered.2⟩
  · refine h.tracked.nodup.sublist ?_
    rw [busy, busy, hinputs]
    exact List.Sublist.append_left ((List.sublist_cons_self ..).filterMap _) _
  · intro transfer retained hretained
    obtain ⟨before, hbefore, hpane, hlength⟩ := hentries transfer retained hretained
    rw [hpane, hlength]
    exact h.tracked.entries transfer before hbefore
  · refine h.owned.of_holds (fun hheld => ⟨?_, rfl⟩) id le_rfl .inl
    rcases hheld with ⟨retained, hentry, hidle, hpath⟩ | hattempt | ⟨later, hlater, hkeeps⟩
    · exact hholds _ retained hentry hidle _ hpath
    · exact .inr (.inl hattempt)
    · exact .inr (.inr ⟨later, hmem hlater, hkeeps⟩)
  · intro client request transfer offset hlater
    rcases h.announced.starts (hmem hlater) with hrunning | ⟨⟨earlier, hearlier, hfinished⟩, hlast⟩
    · exact .inl hrunning
    · rw [hinputs] at hearlier
      rcases List.mem_cons.mp hearlier with rfl | hearlier
      · exact absurd rfl (hordered.1 _ hlater transfer hfinished client request offset)
      · exact .inr ⟨⟨earlier, hearlier, hfinished⟩, hlast⟩

variable {transfer : String}

theorem busy_of_rest (hinputs : s.inputs = reply :: rest)
    (h : transfer ∈ ({ s with inputs := rest } : Transfers).busy) :
    transfer ∈ s.busy := by
  rcases List.mem_append.mp h with h | h
  · exact List.mem_append_left _ h
  · obtain ⟨later, hlater, hfinished⟩ := List.mem_filterMap.mp h
    exact mem_busy_of_reply (hinputs ▸ List.mem_cons_of_mem _ hlater) hfinished

theorem Tracked.not_busy_rest (h : s.Tracked tokens) (hinputs : s.inputs = reply :: rest)
    (hfinished : reply.finished = some transfer) :
    transfer ∉ ({ s with inputs := rest } : Transfers).busy := by
  have hperm : s.busy.Perm (transfer :: ({ s with inputs := rest } : Transfers).busy) := by
    rw [busy, hinputs, List.filterMap_cons_some hfinished]
    exact List.perm_middle
  exact (List.nodup_cons.mp (hperm.nodup_iff.mp h.nodup)).1

/-- The end of an attempt is taken note of: its entry goes, or becomes idle with the path that
was kept. -/
theorem Sound.finished (h : s.Sound tokens directories) (hinputs : s.inputs = reply :: rest)
    (hfinished : reply.finished = some transfer) {retained' : ExtTreeMap String Retained}
    (hothers : ∀ other : String, transfer ≠ other → retained'[other]? = s.retained[other]?)
    (hentry : ∀ retained : Retained, retained'[transfer]? = some retained →
      (∃ before : Retained, s.retained[transfer]? = some before ∧
        retained.pane = before.pane ∧ retained.length = before.length) ∧
      ∀ path, retained.path = some path → reply.keeps = some (transfer, path)) :
    ({ s with inputs := rest, retained := retained' } : Transfers).Sound tokens directories := by
  have hgone := h.tracked.not_busy_rest hinputs hfinished
  refine h.take hinputs ?_ ?_ ?_
  · intro other hmem
    rw [hothers other fun heq => hgone (heq ▸ hmem)]
    exact h.tracked.kept other (busy_of_rest hinputs hmem)
  · intro other retained hretained
    by_cases heq : transfer = other
    · subst heq
      exact (hentry retained hretained).1
    · rw [hothers other heq] at hretained
      exact ⟨retained, hretained, rfl, rfl⟩
  · intro other retained hretained hidle path hpath
    by_cases heq : transfer = other
    · subst heq
      have hhead : reply ∈ s.inputs := hinputs ▸ List.mem_cons_self
      exact .inr (.inr ⟨reply, hhead, (hentry retained hretained).2 path hpath⟩)
    · rw [hothers other heq] at hretained
      exact .inl ⟨retained, hretained, hidle, hpath⟩

/-- An entry learns how much of its transfer is staged. -/
theorem Sound.resumeOffset (h : s.Sound tokens directories) {client : ClientId} {request : ℕ}
    {staged : ℕ}
    (hinputs : s.inputs = .resumeOffset client request transfer staged :: rest) :
    (({ s with inputs := rest } : Transfers).resumeOffset client request transfer
      staged).1.Sound tokens directories := by
  rw [Transfers.resumeOffset]
  have hbusy : ∀ other ∈ ({ s with inputs := rest } : Transfers).busy,
      ∃ retained : Retained, s.retained[other]? = some retained ∧ retained.inFlight = true :=
    fun other hmem => h.tracked.kept other (busy_of_rest hinputs hmem)
  cases hentry : s.retained[transfer]? with
  | none =>
    exact h.take hinputs hbusy (fun _ retained hretained => ⟨retained, hretained, rfl, rfl⟩)
      (fun _ retained hretained hidle _ hpath => .inl ⟨retained, hretained, hidle, hpath⟩)
  | some retained =>
    refine h.take hinputs ?_ ?_ ?_
    · intro other hmem
      rw [entry_insert]
      obtain ⟨kept, hkept, hflight⟩ := hbusy other hmem
      by_cases heq : transfer = other
      · subst heq
        rw [hentry] at hkept
        cases hkept
        exact ⟨_, if_pos rfl, hflight⟩
      · exact ⟨kept, (if_neg heq).trans hkept, hflight⟩
    · intro other kept hkept
      rw [entry_insert] at hkept
      split at hkept
      · next heq =>
        cases hkept
        exact ⟨retained, heq ▸ hentry, rfl, rfl⟩
      · exact ⟨kept, hkept, rfl, rfl⟩
    · intro other kept hkept hidle path hpath
      rw [entry_insert] at hkept
      split at hkept
      · next heq =>
        cases hkept
        exact .inl ⟨retained, heq ▸ hentry, hidle, hpath⟩
      · exact .inl ⟨kept, hkept, hidle, hpath⟩

/-- The loop takes note of the end of an attempt. -/
theorem Sound.relayFinished (h : s.Sound tokens directories) {client : ClientId} {request : ℕ}
    {outcome : Relayed}
    (hinputs : s.inputs = .relayFinished client request transfer outcome :: rest) :
    (({ s with inputs := rest } : Transfers).relayFinished client request transfer
      outcome).1.Sound tokens directories := by
  have hdropped : ({ s with inputs := rest, retained := s.retained.erase transfer } :
      Transfers).Sound tokens directories := by
    refine h.finished hinputs rfl (fun other hne => by rw [entry_erase, if_neg hne]) ?_
    intro retained hretained
    rw [entry_erase, if_pos rfl] at hretained
    cases hretained
  cases outcome with
  | done path bytes => exact hdropped
  | refused message => exact hdropped
  | withdrawn => exact hdropped
  | interrupted path staged =>
    rw [Transfers.relayFinished]
    cases hentry : s.retained[transfer]? with
    | none =>
      obtain ⟨retained, hretained, -⟩ := h.tracked.kept transfer
        (mem_busy_of_reply (hinputs ▸ List.mem_cons_self) rfl)
      rw [hentry] at hretained
      cases hretained
    | some retained =>
      refine h.finished hinputs rfl (fun other hne => by rw [entry_insert, if_neg hne]) ?_
      intro kept hkept
      rw [entry_insert, if_pos rfl] at hkept
      cases hkept
      refine ⟨⟨retained, hentry, rfl, rfl⟩, fun path' hpath => ?_⟩
      cases hpath
      rfl

theorem Sound.handle (h : s.Sound tokens directories) (hinputs : s.inputs = reply :: rest) :
    (({ s with inputs := rest } : Transfers).handle reply).1.Sound tokens directories := by
  cases reply with
  | resumeOffset client request transfer staged => exact h.resumeOffset hinputs
  | relayFinished client request transfer outcome => exact h.relayFinished hinputs

/-! ### Hosts -/

theorem files_remove {target other : Target} {path path' : String} {file : List UInt8}
    (h : (s.remove target path).files other path' = some file) :
    s.files other path' = some file := by
  unfold Transfers.remove at h
  simp only at h
  split at h
  · cases h
  · exact h

/-- A file goes that no attempt is appending to. -/
theorem Sound.remove (h : s.Sound tokens directories) {target : Target} {path : String}
    (hfree : ∀ carried ∈ s.attempts, ∀ plan, carried.plan = some plan →
      carried.target = target → plan.resumed ≠ some path) :
    (s.remove target path).Sound tokens directories := by
  refine ⟨⟨h.tracked.nodup, h.tracked.kept, h.tracked.entries, h.tracked.attempts,
    h.tracked.drawn⟩, ?_, ?_, ⟨h.announced.starts, h.announced.ordered⟩⟩
  · exact h.owned.of_holds (fun hheld => ⟨hheld, rfl⟩) files_remove le_rfl .inl
  · intro carried hcarried plan hplan
    obtain ⟨hlength, hresume⟩ := h.planned carried hcarried plan hplan
    refine ⟨hlength, fun path' staged hstaging => ?_⟩
    have hother : ¬(carried.target = target ∧ path' = path) := by
      rintro ⟨htarget, rfl⟩
      refine hfree carried hcarried plan hplan htarget ?_
      rw [TransferPlan.resumed, hstaging]
    have hsame : (s.remove target path).files carried.target path' =
        s.files carried.target path' := if_neg hother
    rw [hsame]
    exact hresume path' staged hstaging

/-- One of the paths given up is removed: no attempt is appending there. -/
theorem Sound.removed (h : s.Sound tokens directories) {i : ℕ} {target : Target} {path : String}
    (hi : s.discards[i]? = some (target, path)) :
    (({ s with discards := s.discards.eraseIdx i } : Transfers).remove target path).Sound tokens
      directories := by
  have hdropped : ({ s with discards := s.discards.eraseIdx i } : Transfers).Sound tokens
      directories := by
    refine ⟨⟨h.tracked.nodup, h.tracked.kept, h.tracked.entries, h.tracked.attempts,
      h.tracked.drawn⟩, ?_, h.planned, ⟨h.announced.starts, h.announced.ordered⟩⟩
    exact h.owned.of_holds (fun hheld => ⟨hheld, rfl⟩) id le_rfl
      fun hmem => .inl (List.mem_of_mem_eraseIdx hmem)
  refine hdropped.remove fun carried hcarried plan hplan _ hresumed => ?_
  have hheld : s.Holds carried.transfer path :=
    .inr (.inl ⟨carried, hcarried, rfl, by rw [Carried.holds, hplan]; exact hresumed⟩)
  exact h.owned.undiscarded hheld target (List.mem_of_getElem? hi)

theorem Sound.lost (h : s.Sound tokens directories) {target : Target} {path : String}
    (hfree : s.appending target path = false) :
    (s.remove target path).Sound tokens directories := by
  refine h.remove fun carried hcarried plan hplan htarget hresumed => ?_
  have happending : s.appending target path = true := by
    refine List.any_eq_true.mpr ⟨carried, hcarried, decide_eq_true ⟨htarget, ?_⟩⟩
    rw [hplan]
    exact hresumed
  rw [hfree] at happending
  cases happending

/-! ### Runs -/

section Runs

variable (sha256 : List UInt8 → String)

/-- **Every step keeps the transfers sound.** -/
theorem Sound.step (h : s.Sound tokens directories)
    (htokens : ∀ i j transfer, tokens i = some transfer → tokens j = some transfer → i = j)
    (hdirectories : Function.Injective directories) (move : Move) :
    (Transfers.step sha256 tokens directories s move).1.Sound tokens directories := by
  cases move with
  | beginUpload client request pane mime name length =>
    rw [Transfers.step]
    rcases beginRelay_cases tokens s client request pane mime name length with
      ⟨offers, drawn, message, hdrawn, heq⟩ | ⟨offers, transfer, target, -, htoken, heq⟩
    · rw [heq]
      exact h.of_same rfl rfl rfl rfl rfl hdrawn rfl rfl rfl
    · rw [heq]
      have hdrawn : ({ s with offers, drawn := s.drawn + 1 } : Transfers).Sound tokens
          directories := h.of_same rfl rfl rfl rfl rfl (Nat.le_succ _) rfl rfl rfl
      exact hdrawn.letIn ⟨s.drawn, Nat.lt_succ_self _, htoken⟩
        (h.tracked.not_issued htokens htoken) ..
  | resumeUpload client request transfer pane length =>
    rw [Transfers.step]
    have hswept : ∀ offers, ({ s with offers } : Transfers).sweepRetained.Sound tokens
        directories := by
      intro offers
      have hoffers : ({ s with offers } : Transfers).Sound tokens directories :=
        h.of_same rfl rfl rfl rfl rfl le_rfl rfl rfl rfl
      exact hoffers.sweepRetained
    rcases resumeRelay_cases s client request transfer pane length with
      ⟨message, heq⟩ | ⟨offers, ⟨message, heq⟩ | ⟨retained, target, hentry, hidle, rfl, rfl, heq⟩⟩
    · rw [heq]
      exact h
    · rw [heq]
      exact hswept offers
    · rw [heq]
      exact (hswept offers).takeUp hentry hidle ..
  | probed i answers => exact h.probed i answers
  | relayed i host items timely => exact h.relayed hdirectories sha256 i host items timely
  | next =>
    rw [Transfers.step]
    cases hinputs : s.inputs with
    | nil => exact h
    | cons reply rest => exact h.handle hinputs
  | refreshDue => exact h.sweepRetained
  | removed i =>
    rw [Transfers.step]
    cases hi : s.discards[i]? with
    | none => exact h
    | some discarded => exact h.removed hi
  | lost target path =>
    rw [Transfers.step]
    cases hfree : s.appending target path with
    | true => exact h
    | false => exact h.lost hfree
  | connected client => exact h.of_same rfl rfl rfl rfl rfl le_rfl rfl rfl rfl
  | disconnected client => exact h.of_same rfl rfl rfl rfl rfl le_rfl rfl rfl rfl
  | uploadOffered client request => exact h.of_same rfl rfl rfl rfl rfl le_rfl rfl rfl rfl
  | offerDropped client request => exact h.of_same rfl rfl rfl rfl rfl le_rfl rfl rfl rfl
  | elapsed seconds => exact h.of_same rfl rfl rfl rfl rfl le_rfl rfl rfl rfl
  | reconfigured ceiling targets => exact h.of_same rfl rfl rfl rfl rfl le_rfl rfl rfl rfl

theorem Sound.new (ceiling : ℕ) (targets : TargetSession → Option Target) :
    (new ceiling targets).Sound tokens directories := by
  have hholds : ∀ {transfer path}, ¬(Transfers.new ceiling targets).Holds transfer path := by
    rintro transfer path (⟨retained, hentry, -⟩ | ⟨carried, hcarried, -⟩ | ⟨reply, hreply, -⟩)
    · cases hentry
    · cases hcarried
    · cases hreply
  have howned : (Transfers.new ceiling targets).Owned directories := by
    refine ⟨fun hheld => absurd hheld hholds, fun hheld => absurd hheld hholds,
      fun hheld => absurd hheld hholds, ?_, fun hsome => absurd rfl hsome⟩
    rintro path (⟨transfer, hheld⟩ | ⟨target, hmem⟩ | ⟨target, hsome⟩)
    · exact absurd hheld hholds
    · cases hmem
    · exact absurd rfl hsome
  exact ⟨⟨List.nodup_nil, by simp [busy, Transfers.new], by simp [Transfers.new],
    by simp [Transfers.new], by simp [Transfers.new]⟩, howned, by simp [Planned, Transfers.new],
    ⟨by simp [Transfers.new], List.Pairwise.nil⟩⟩

/-- **What a relay leaves behind.** It adds a prefix of what its sender delivered to the file the
attempts before it assembled, from the offset it starts at; and where the file is kept, it is the
one that all attempts assembled. -/
def Carries (sha256 : List UInt8 → String) (directories : ℕ → String) (s : Transfers) (i : ℕ)
    (carried : Carried) (plan : TransferPlan) (host : Host) (items : List RelayItem)
    (timely : Bool) : Prop :=
  let after := s.relayed sha256 directories i host items timely
  plan.staged ≤ (assemble (s.log carried.transfer)).length ∧
  (∃ added, added <+: RelayItem.delivered items ∧
    after.log carried.transfer = s.log carried.transfer ++ [(plan.staged, added)]) ∧
  ∃ outcome, after.inputs = s.inputs ++
      [.relayFinished carried.client carried.request carried.transfer outcome] ∧
    ∀ path, outcome.path = some path →
      after.files carried.target path = some (assemble (after.log carried.transfer))

theorem Sound.carries (h : s.Sound tokens directories) {i : ℕ} {carried : Carried}
    (hi : s.attempts[i]? = some carried) {plan : TransferPlan} (hplan : carried.plan = some plan)
    (host : Host) (items : List RelayItem) (timely : Bool) :
    s.Carries sha256 directories i carried plan host items timely := by
  have hafter : s.relayed sha256 directories i host items timely =
      s.finish i carried plan (relay sha256
        (hostAt host (directories s.stagings) (s.held carried.target plan)) plan items timely) := by
    rw [Transfers.relayed, hi]
    simp only [hplan]
  have htidy := @relay_tidy sha256 plan items _ _ _
    (hostAt_offers host (directories s.stagings) (s.held carried.target plan)) timely
  unfold Carries
  rw [hafter]
  generalize relay sha256 _ plan items timely = report at *
  refine ⟨(h.before_eq hi hplan).2, ?_, report.outcome, rfl, fun path hpath => ?_⟩
  · obtain ⟨added, hfile, hprefix⟩ := htidy.file
    refine ⟨added, hprefix, ?_⟩
    rw [log_finish, hfile, List.drop_left]
  · rw [← h.file_finish hi hplan htidy]
    exact if_pos ⟨rfl, htidy.written_of_kept hpath⟩

theorem mem_tell {client client' : ClientId} {message message' : ServerMessage}
    (h : (client', message') ∈ s.tell client message) : message' = message := by
  unfold tell at h
  split at h
  · cases List.mem_singleton.mp h
    rfl
  · cases h

theorem Sound.starts_of_next (h : s.Sound tokens directories) {client : ClientId} {request : ℕ}
    {transfer : String} {offset : ℕ} {rest : List Reply}
    (hinputs : s.inputs = .resumeOffset client request transfer offset :: rest) :
    ({ s with inputs := rest } : Transfers).Starts transfer offset := by
  rcases h.announced.starts (hinputs ▸ List.mem_cons_self) with
    hrunning | ⟨⟨later, hlater, hfinished⟩, hlast⟩
  · exact .inl hrunning
  · rw [hinputs] at hlater
    rcases List.mem_cons.mp hlater with rfl | hlater
    · cases hfinished
    · exact .inr ⟨⟨later, hlater, hfinished⟩, hlast⟩

/-- The offset a sender is told is the one its attempt starts at. -/
theorem Sound.starts_of_accepted (h : s.Sound tokens directories) {move : Move} {client : ClientId}
    {request : ℕ} {transfer : String} {staged : ℕ}
    (haccepted : (client, .uploadAccepted request transfer staged) ∈
      (Transfers.step sha256 tokens directories s move).2) :
    (Transfers.step sha256 tokens directories s move).1.Starts transfer staged := by
  cases move with
  | beginUpload begun request' pane mime name length =>
    rw [Transfers.step] at haccepted ⊢
    rcases beginRelay_cases tokens s begun request' pane mime name length with
      ⟨offers, drawn, message, -, heq⟩ | ⟨offers, drawn, target, -, -, heq⟩
    · rw [heq] at haccepted
      cases mem_tell haccepted
    · rw [heq] at haccepted ⊢
      cases mem_tell haccepted
      exact .inl ⟨_, List.mem_append_right _ (List.mem_singleton.mpr rfl), rfl, _, rfl, rfl⟩
  | resumeUpload resumed request' transfer' pane length =>
    rw [Transfers.step] at haccepted
    rcases resumeRelay_cases s resumed request' transfer' pane length with
      ⟨message, heq⟩ | ⟨offers, ⟨message, heq⟩ | ⟨retained, target, -, -, -, -, heq⟩⟩
    · rw [heq] at haccepted
      cases mem_tell haccepted
    · rw [heq] at haccepted
      cases mem_tell haccepted
    · rw [heq] at haccepted
      cases haccepted
  | next =>
    rw [Transfers.step] at haccepted ⊢
    cases hinputs : s.inputs with
    | nil =>
      rw [hinputs] at haccepted
      cases haccepted
    | cons reply rest =>
      rw [hinputs] at haccepted
      simp only [Transfers.handle] at haccepted ⊢
      cases reply with
      | relayFinished client' request' transfer' outcome =>
        simp only [Transfers.relayFinished] at haccepted
        split at haccepted
        · cases mem_tell haccepted
        · cases mem_tell haccepted
        · cases haccepted
        · split at haccepted
          · cases haccepted
          · cases mem_tell haccepted
      | resumeOffset client' request' transfer' offset =>
        have hmessage : transfer = transfer' ∧ staged = offset := by
          simp only [Transfers.resumeOffset] at haccepted
          split at haccepted <;> (cases mem_tell haccepted; exact ⟨rfl, rfl⟩)
        obtain ⟨rfl, rfl⟩ := hmessage
        have hafter := h.starts_of_next hinputs
        simp only [Transfers.resumeOffset]
        split <;> exact hafter
  | removed i =>
    rw [Transfers.step] at haccepted
    split at haccepted <;> cases haccepted
  | connected _ | disconnected _ | uploadOffered _ _ | offerDropped _ _ | probed _ _
  | relayed _ _ _ _ | refreshDue | elapsed _ | reconfigured _ _ | lost _ _ => cases haccepted

theorem Sound.kept_of_interrupted (h : s.Sound tokens directories) {client : ClientId}
    {request : ℕ} {transfer path : String} {staged : ℕ} {rest : List Reply}
    (hinputs : s.inputs =
      .relayFinished client request transfer (.interrupted path staged) :: rest) :
    ∃ retained : Retained,
      (Transfers.step sha256 tokens directories s .next).1.retained[transfer]? = some retained ∧
        retained.path = some path ∧ retained.inFlight = false := by
  obtain ⟨retained, hentry, -⟩ := h.tracked.kept transfer
    (mem_busy_of_reply (hinputs ▸ List.mem_cons_self) rfl)
  rw [Transfers.step, hinputs]
  simp only [Transfers.handle, Transfers.relayFinished, hentry]
  exact ⟨_, ExtTreeMap.getElem?_insert_self, rfl, rfl⟩

/-- **Resumed transfers are safe.** -/
structure Safe (sha256 : List UInt8 → String) (tokens : ℕ → Option String)
    (directories : ℕ → String) (s : Transfers) : Prop where
  /-- No transfer has two attempts running. -/
  alone : (s.attempts.map Carried.transfer).Nodup
  /-- A transfer's entry is there while its attempt runs, and when its end is taken note of. -/
  running : ∀ carried ∈ s.attempts, carried.transfer ∈ s.retained
  finished : ∀ client request transfer outcome,
    .relayFinished client request transfer outcome ∈ s.inputs → transfer ∈ s.retained
  /-- So no interrupted transfer is dropped with its bytes left on the host. -/
  interrupted : ∀ client request transfer path staged rest,
    s.inputs = .relayFinished client request transfer (.interrupted path staged) :: rest →
    ∃ retained : Retained,
      (step sha256 tokens directories s .next).1.retained[transfer]? = some retained ∧
        retained.path = some path ∧ retained.inFlight = false
  /-- An attempt is for the pane and the length the token was issued for. -/
  issued : ∀ carried ∈ s.attempts,
    s.issued[carried.transfer]? = some (carried.pane, carried.length) ∧
      ∀ plan, carried.plan = some plan → plan.length = carried.length
  /-- A file that is kept is what the attempts assembled. -/
  carries : ∀ i carried plan, s.attempts[i]? = some carried → carried.plan = some plan →
    ∀ host items timely, s.Carries sha256 directories i carried plan host items timely
  /-- What a sender is told is where its attempt starts. -/
  told : ∀ move client request transfer staged,
    (client, .uploadAccepted request transfer staged) ∈
      (step sha256 tokens directories s move).2 →
    (step sha256 tokens directories s move).1.Starts transfer staged

theorem Sound.safe (h : s.Sound tokens directories) : s.Safe sha256 tokens directories := by
  have hretained : ∀ transfer ∈ s.busy, transfer ∈ s.retained := by
    intro transfer hmem
    obtain ⟨retained, hentry, -⟩ := h.tracked.kept transfer hmem
    rw [ExtTreeMap.mem_iff_isSome_getElem?, hentry]
    rfl
  refine ⟨?_, ?_, ?_, ?_, ?_, ?_, ?_⟩
  · exact (List.nodup_append.mp h.tracked.nodup).1
  · exact fun carried hcarried => hretained _ (mem_busy_of_attempt hcarried)
  · exact fun client request transfer outcome hmem => hretained _ (mem_busy_of_reply hmem rfl)
  · exact fun _ _ _ _ _ _ hinputs => h.kept_of_interrupted sha256 hinputs
  · intro carried hcarried
    exact ⟨h.tracked.attempts carried hcarried,
      fun plan hplan => (h.planned carried hcarried plan hplan).1⟩
  · exact fun _ _ _ hi hplan host items timely => h.carries sha256 hi hplan host items timely
  · exact fun _ _ _ _ _ haccepted => h.starts_of_accepted sha256 haccepted

/-- Along every run, transfers are safe: whatever is begun, resumed, reported, swept, evicted,
removed or lost, in any order. No token is drawn twice and no directory made twice. -/
theorem resumed_transfers_safe
    (htokens : ∀ i j transfer, tokens i = some transfer → tokens j = some transfer → i = j)
    (hdirectories : Function.Injective directories) (ceiling : ℕ)
    (targets : TargetSession → Option Target) (moves : List Move) :
    (exec (step sha256 tokens directories) (new ceiling targets) moves).1.Safe sha256 tokens
      directories := by
  have h := exec_invariant
    (fun s move (hs : s.Sound tokens directories) => hs.step sha256 htokens hdirectories move)
    (Sound.new ceiling targets) moves
  exact h.safe sha256

end Runs

/-! ### A transfer in two attempts -/

/-- Names told apart by their length. -/
def numbered (stem : String) (i : ℕ) : String := stem ++ String.ofList (List.replicate i 'i')

theorem numbered_injective (stem : String) : Function.Injective (numbered stem) := by
  intro i j h
  simpa [numbered] using congrArg String.length h

/-- A disk that takes a few bytes. -/
def roomyDisk : Host :=
  .here ⟨some "", true, 8, true, [], 8, true⟩

/-- A transfer of two bytes whose sender vanishes after the first, comes back and has the second
one relayed. -/
def inTwo : List Move :=
  [.connected 0, .uploadOffered 0 0, .beginUpload 0 0 ⟨"t", "s", "p"⟩ "" none 2,
    .relayed 0 roomyDisk [.chunk [7]] true, .next, .uploadOffered 0 1,
    .resumeUpload 0 1 (numbered "" 0) ⟨"t", "s", "p"⟩ 2, .probed 0 true, .next]

theorem resumed_transfers_safe_inTwo :
    let step := step (fun _ => "") (some ∘ numbered "")
      (numbered "/tmp/super-herdr-clipboard.")
    let s := (exec step (new 8 fun _ => some ⟨none⟩) inTwo).1
    s.Safe (fun _ => "") (some ∘ numbered "") (numbered "/tmp/super-herdr-clipboard.") ∧
      (s.attempts.map fun carried => carried.plan.map TransferPlan.staged) = [some 1] ∧
      assemble ((step s (.relayed 0 roomyDisk [.chunk [8], .finish ""] true)).1.log
        (numbered "" 0)) = [7, 8] := by
  refine ⟨resumed_transfers_safe _ ?_ (numbered_injective _) _ _ _, ?_, ?_⟩
  · intro i j transfer hi hj
    exact numbered_injective "" (Option.some_injective _ (hi.trans hj.symm))
  · decide +kernel
  · decide +kernel

end Transfers

end SuperHerdr
