import SuperHerdr.Tui.Selections

/-!
# Operations that are followed

When an operation that is followed is done, nothing is selected until its session is focused on a pane
that the session did not have when the result arrived. `followed_focus_lands` says when that is the
pane to land on: what an operation did may be seen before its result is, and not every operation that
is followed makes a pane.
-/

namespace SuperHerdr

namespace Tui

open Std Transducer

namespace App

variable (world : World) (self : App)

/-! ### What is owed -/

/-- What is to be followed once a move is handled: the session of an operation, with the panes it has. -/
def follows : Move → Option FollowedFocus
  | .daemon (.operationResult request true _ _) =>
      match self.pendingOperations[request]? with
      | some ⟨true, session⟩ =>
          let before := match world.state.targets[session]?.bind TargetRuntimeState.snapshot with
            | some snapshot => snapshot.panes.toList.map (·.1)
            | none => []
          some ⟨session, before, world.now + FOLLOW_FOCUS_TIMEOUT⟩
      | _ => none
  | _ => none

/-- What is still to be followed after a turn of the loop: nothing, once a pane is selected. -/
def owe (due : Option FollowedFocus) (self : App) (event : World × Move)
    (result : App × List Effect) : Option FollowedFocus :=
  if self.quitting then due
  else
    match follows event.1 self event.2 with
    | some followed => some followed
    | none => if result.1.selectedPane.isSome then none else due

/-- The pane that a session which is live is focused on. -/
def focusOf (state : FederationState) (session : TargetSession) : Option PaneId :=
  (state.targets[session]?.bind TargetRuntimeState.liveSnapshot).bind (·.focusedPane)

/-- A redraw at which something is to be followed, of which the effect is seen and whose session is
live, with the pane the session is focused on. -/
def Due (shows : FollowedFocus → World → Prop) (s : App × Option FollowedFocus)
    (event : World × Move) (due : FollowedFocus) (focused : PaneId) : Prop :=
  s.1.quitting = false ∧ event.2 = .draw ∧ s.2 = some due ∧ shows due event.1 ∧
    focusOf event.1.state due.session = some focused

/-- Such a redraw selects that pane. -/
def Lands (shows : FollowedFocus → World → Prop) (s : App × Option FollowedFocus)
    (event : World × Move) : Prop :=
  ∀ due focused, Due shows s event due focused →
    (step s.1 event).1.selectedPane = some focused

/-! ### When it does -/

/-- Whether the target of a pane is live. -/
def Live (state : FederationState) (pane : PaneId) : Prop :=
  ∃ target, state.targets[pane.targetSession]? = some target ∧ target.connection = .live

/-- Whether a pane that is to be restored goes first: its target is known, and it is not live yet or
has the pane. -/
def Reserves (state : FederationState) (persisted : PaneId) : Prop :=
  persisted.targetSession ∈ state.targets ∧
    (Live state persisted → persisted ∈ selectablePanes state)

/-- Where a pane that is to be restored goes first, it is that pane. Otherwise the pane is one that
the session did not have when the result arrived, or it was waited for long enough; once it was given
up, it is the pane a frontend starts with. -/
structure Fresh (before : App) (world : World) (due : FollowedFocus) (focused : PaneId) : Prop where
  restored : ∀ persisted, before.restorePending = some persisted →
    Reserves world.state persisted → persisted = focused ∧ Live world.state persisted
  followed : (∀ persisted, before.restorePending = some persisted →
      ¬Reserves world.state persisted) → before.followedFocus.isSome →
    focused ∉ due.before ∨ due.deadline ≤ world.now
  started : (∀ persisted, before.restorePending = some persisted →
      ¬Reserves world.state persisted) → before.followedFocus = none →
    startupPane world.state = some focused

/-- The same of every redraw at which something is to be followed. -/
def Follows (shows : FollowedFocus → World → Prop) (s : App × Option FollowedFocus)
    (event : World × Move) : Prop :=
  ∀ due focused, Due shows s event due focused → Fresh s.1 event.1 due focused

/-! ### What is followed -/

theorem followed_acts {before after : Memory} {news : List News}
    (hacts : Acts unprompted before news after) :
    after.followedFocus = none ∨ after.followedFocus = before.followedFocus := by
  induction hacts with
  | adopt hscope selected restore followed hrestore hfollowed => exact hfollowed
  | answer hscope => exact hscope.elim
  | trans _ _ ih ihmore =>
    rcases ihmore with hnone | hsame
    · exact .inl hnone
    · rw [hsame]
      exact ih
  | _ => exact .inr rfl

/-- What is owed is what is followed, until it is given up. -/
structure Owed (s : App × Option FollowedFocus) : Prop where
  tidy : Tidy s.1.memory
  selected : ∀ due, s.2 = some due → s.1.selectedPane = none
  followed : ∀ due, s.2 = some due → s.1.followedFocus = some due ∨ s.1.followedFocus = none

variable {due : FollowedFocus}

theorem selected_of_follows {message : ServerMessage}
    (h : follows world self (.daemon message) = some due) :
    (handleDaemonEvent world self message).selectedPane = none ∧
      (handleDaemonEvent world self message).followedFocus = some due := by
  have hheard := (heard_handleDaemonEvent world self message).eq
  have hselected : (handleDaemonEvent world self message).selectedPane =
      (heardOperations world self.memory message).selectedPane := congrArg Memory.selectedPane hheard
  have hfollowed : (handleDaemonEvent world self message).followedFocus =
      (heardOperations world self.memory message).followedFocus :=
    congrArg Memory.followedFocus hheard
  rw [hselected, hfollowed]
  cases message with
  | operationResult request applied =>
    have hmemory : self.memory.operations[request]? = self.pendingOperations[request]? := rfl
    rw [heardOperations, hmemory]
    cases applied with
    | false => cases h
    | true =>
      rw [follows] at h
      revert h
      rcases self.pendingOperations[request]? with _ | ⟨_ | _, session⟩
      · intro h
        cases h
      · intro h
        cases h
      · intro h
        cases h
        exact ⟨rfl, rfl⟩
  | _ => cases h

theorem followed_of_not_follows {message : ServerMessage}
    (h : follows world self (.daemon message) = none) :
    (handleDaemonEvent world self message).followedFocus = self.followedFocus := by
  have hfollowed : (handleDaemonEvent world self message).followedFocus =
      (heardOperations world self.memory message).followedFocus :=
    congrArg Memory.followedFocus (heard_handleDaemonEvent world self message).eq
  rw [hfollowed]
  cases message with
  | operationResult request applied =>
    have hmemory : self.memory.operations[request]? = self.pendingOperations[request]? := rfl
    rw [heardOperations, hmemory]
    cases applied with
    | false =>
      rcases self.pendingOperations[request]? with _ | ⟨_ | _, session⟩
      · rfl
      · rfl
      · rfl
    | true =>
      rw [follows] at h
      revert h
      rcases self.pendingOperations[request]? with _ | ⟨_ | _, session⟩
      · exact fun _ => rfl
      · exact fun _ => rfl
      · intro h
        cases h
  | error request =>
    cases request with
    | none => rfl
    | some request =>
      rw [heardOperations]
      split_ifs
      · rfl
      · rfl
  | _ => rfl

theorem follows_eq_none {move : Move} (h : ∀ message, move ≠ .daemon message) :
    follows world self move = none := by
  cases move with
  | daemon message => exact absurd rfl (h message)
  | _ => rfl

/-- Any other move leaves what is followed, or gives it up. -/
theorem followed_handle (htidy : Tidy self.memory) {move : Move}
    (h : follows world self move = none) :
    (handle world self move).followedFocus = none ∨
      (handle world self move).followedFocus = self.followedFocus := by
  by_cases hdaemon : ∃ message, move = .daemon message
  · obtain ⟨message, rfl⟩ := hdaemon
    exact .inr (followed_of_not_follows world self h)
  · rcases handle_own world self htidy move fun message hmove => hdaemon ⟨message, hmove⟩ with
      ⟨request, ending, hpending, heq⟩ | ⟨effects, -, -, hacts⟩
    · obtain ⟨uploads, batches, -, hmemory⟩ := memory_ending world self request ending
      have hsame : (endUpload world self request ending).followedFocus = self.followedFocus :=
        congrArg Memory.followedFocus hmemory
      rw [heq, hsame]
      exact .inr rfl
    · exact followed_acts hacts

theorem owed_of_follows (htidy : Tidy self.memory) {move : Move}
    (h : follows world self move = some due) : Owed (handle world self move, some due) := by
  by_cases hdaemon : ∃ message, move = .daemon message
  · obtain ⟨message, rfl⟩ := hdaemon
    obtain ⟨hselected, hfollowed⟩ := selected_of_follows world self h
    refine ⟨htidy.handle world self _, fun _ _ => hselected, fun other hother => .inl ?_⟩
    have hsame : some due = some other := hother
    rw [← hsame]
    exact hfollowed
  · have hnone : follows world self move = none :=
      follows_eq_none world self fun message hmove => hdaemon ⟨message, hmove⟩
    rw [hnone] at h
    cases h

theorem owed_of_not_follows {owed : Option FollowedFocus} (h : Owed (self, owed)) {move : Move}
    (hnone : follows world self move = none) :
    Owed (handle world self move,
      if (handle world self move).selectedPane.isSome then none else owed) := by
  refine ⟨h.tidy.handle world self move, ?_, ?_⟩
  · intro due hdue
    split at hdue
    · cases hdue
    · next hselected => simpa using hselected
  · intro due hdue
    split at hdue
    · cases hdue
    · rcases followed_handle world self h.tidy hnone with hgiven | hsame
      · exact .inr hgiven
      · have hbefore : self.followedFocus = some due ∨ self.followedFocus = none :=
          h.followed due hdue
        rwa [← hsame] at hbefore

theorem owed_step (s : App × Option FollowedFocus) (event : World × Move) (h : Owed s) :
    Owed (observe step owe s event).1 := by
  obtain ⟨self, owed⟩ := s
  obtain ⟨world, move⟩ := event
  have hstate : (observe step owe (self, owed) (world, move)).1 =
      ((step self (world, move)).1, owe owed self (world, move) (step self (world, move))) := by
    rw [Prod.ext_iff, observe_fst, observe_snd]
    exact ⟨rfl, rfl⟩
  rw [hstate]
  cases hquitting : self.quitting with
  | true =>
    rw [step_of_quitting hquitting, owe, if_pos hquitting]
    exact h
  | false =>
    have hbefore : Owed ({ self with outbox := [] }, owed) := ⟨h.tidy, h.selected, h.followed⟩
    rw [step_of_running hquitting, owe, if_neg (by simp [hquitting])]
    cases hfollows : follows world self move with
    | some due =>
      have howed := owed_of_follows world { self with outbox := [] } h.tidy hfollows
      exact ⟨howed.tidy, howed.selected, howed.followed⟩
    | none =>
      have howed := owed_of_not_follows world { self with outbox := [] } hbefore hfollows
      exact ⟨howed.tidy, howed.selected, howed.followed⟩

/-! ### What a redraw selects -/

theorem selectedPane_selectStartup (hselected : self.selectedPane = none) :
    (selectStartup world self).selectedPane = startupPane world.state := by
  rw [selectStartup]
  split
  · next hnone => rw [hselected, hnone]
  · next pane hpane => exact hpane.symm

theorem selectedPane_selectPane (pane : PaneId) : (self.selectPane pane).selectedPane = some pane := by
  rw [selectPane, markAttentionSeen]
  dsimp only
  split
  · rfl
  · rfl

/-- While something is followed, the pane its session is focused on is selected once it is fresh. -/
theorem selectedPane_followOrStart {focused : PaneId}
    (hselected : self.selectedPane = none) (hfollowed : self.followedFocus = some due)
    (hfocus : focusOf world.state due.session = some focused) :
    (followOrStart world self).selectedPane = some focused ↔
      focused ∉ due.before ∨ due.deadline ≤ world.now := by
  have hfocused : (world.state.targets[due.session]?.bind
      TargetRuntimeState.liveSnapshot).bind (·.focusedPane) = some focused := hfocus
  rw [followOrStart, hfollowed]
  dsimp only
  rw [hfocused]
  by_cases hfresh : focused ∉ due.before
  · have hfound : (some focused).filter (· ∉ due.before) = some focused := by simp [hfresh]
    rw [hfound]
    exact iff_of_true (selectedPane_selectPane _ focused) (.inl hfresh)
  · have hnone : (some focused).filter (· ∉ due.before) = none := by simpa using hfresh
    rw [hnone]
    by_cases hexpired : due.deadline ≤ world.now
    · rw [if_pos hexpired]
      exact iff_of_true (selectedPane_selectPane _ focused) (.inr hexpired)
    · have hwaits : (!decide (due.deadline ≤ world.now)) = true := by simpa using hexpired
      have hwaiting : ((none : Option PaneId) <|> none) = none := rfl
      rw [if_neg hexpired, hwaiting]
      dsimp only
      rw [if_pos hwaits, hselected]
      constructor
      · intro hfalse
        cases hfalse
      · rintro (hmem | hle)
        · exact absurd hmem hfresh
        · exact absurd hle hexpired

theorem reserves_iff {state : FederationState} {persisted : PaneId} {target : TargetRuntimeState}
    (htarget : state.targets[persisted.targetSession]? = some target) :
    Reserves state persisted ↔ target.connection = .live → persisted ∈ selectablePanes state := by
  have hmem : persisted.targetSession ∈ state.targets :=
    ExtTreeMap.mem_iff_isSome_getElem?.mpr (by rw [htarget]; rfl)
  have hlive : Live state persisted ↔ target.connection = .live := by
    constructor
    · rintro ⟨held, hheld, hconnection⟩
      rw [htarget] at hheld
      cases hheld
      exact hconnection
    · exact fun hconnection => ⟨target, htarget, hconnection⟩
  rw [Reserves, hlive]
  exact and_iff_right hmem

/-- A pane that is to be restored is selected once its target is live and has it. -/
theorem selectedPane_of_reserves {persisted pane : PaneId} (hselected : self.selectedPane = none)
    (hpersisted : self.restorePending = some persisted) (h : Reserves world.state persisted) :
    (reconcileSelection world self).selectedPane = some pane ↔
      persisted = pane ∧ Live world.state persisted := by
  obtain ⟨target, htarget⟩ := Option.isSome_iff_exists.mp
    (ExtTreeMap.mem_iff_isSome_getElem?.mp h.1)
  have hpane := (reserves_iff htarget).mp h
  rw [reconcileSelection, hpersisted]
  dsimp only
  rw [htarget]
  dsimp only
  by_cases hlive : target.connection = .live
  · rw [if_neg (by simp [hlive]), if_pos (hpane hlive), Option.some_inj]
    exact (and_iff_left ⟨target, htarget, hlive⟩).symm
  · rw [if_pos hlive, hselected]
    constructor
    · intro hfalse
      cases hfalse
    · rintro ⟨-, held, hheld, hconnection⟩
      rw [htarget] at hheld
      cases hheld
      exact absurd hconnection hlive

/-- Where no pane that is to be restored goes first, an operation is followed, or the frontend
starts. -/
theorem reconcileSelection_of_not_reserves (hselected : self.selectedPane = none)
    (h : ∀ persisted, self.restorePending = some persisted → ¬Reserves world.state persisted) :
    reconcileSelection world self = followOrStart world { self with restorePending := none } := by
  have hnone : ¬self.selectedPane.isSome := by simp [hselected]
  rw [reconcileSelection]
  dsimp only
  split
  · next hrestore =>
    have hsame : { self with restorePending := none } = self := by rw [← hrestore]
    rw [if_neg hnone, hsame]
  · next persisted hpersisted =>
    split
    · exact if_neg hnone
    · next target htarget =>
      have hreserves : ¬(target.connection = .live → persisted ∈ selectablePanes world.state) :=
        fun hpane => h persisted hpersisted ((reserves_iff htarget).mpr hpane)
      obtain ⟨hlive, hgone⟩ := Classical.not_imp.mp hreserves
      rw [if_neg (by simp [hlive]), if_neg hgone]
      exact if_neg hnone

/-! ### A turn of the loop -/

/-- A redraw selects the pane exactly if it is fresh. -/
theorem selectedPane_reconcileSelection {owed : Option FollowedFocus} (h : Owed (self, owed))
    {focused : PaneId} (howed : owed = some due)
    (hfocus : focusOf world.state due.session = some focused) :
    (reconcileSelection world self).selectedPane = some focused ↔ Fresh self world due focused := by
  have hselected : self.selectedPane = none := h.selected due howed
  by_cases hreserved : ∃ persisted, self.restorePending = some persisted ∧
      Reserves world.state persisted
  · obtain ⟨persisted, hpersisted, hreserves⟩ := hreserved
    rw [selectedPane_of_reserves world self hselected hpersisted hreserves]
    constructor
    · intro hrestored
      refine ⟨?_, ?_, ?_⟩
      · intro other hother hothers
        rw [hpersisted] at hother
        cases hother
        exact hrestored
      · exact fun hnone => absurd hreserves (hnone persisted hpersisted)
      · exact fun hnone => absurd hreserves (hnone persisted hpersisted)
    · intro hfresh
      exact hfresh.restored persisted hpersisted hreserves
  · have hnone : ∀ persisted, self.restorePending = some persisted →
        ¬Reserves world.state persisted := by
      intro persisted hpersisted hreserves
      exact hreserved ⟨persisted, hpersisted, hreserves⟩
    rw [reconcileSelection_of_not_reserves world self hselected hnone]
    have hrestored : ∀ persisted, self.restorePending = some persisted →
        Reserves world.state persisted → persisted = focused ∧ Live world.state persisted :=
      fun persisted hpersisted hreserves => absurd hreserves (hnone persisted hpersisted)
    rcases h.followed due howed with hfollowed | hgiven
    · have hlands := selectedPane_followOrStart world { self with restorePending := none } hselected
        hfollowed hfocus
      rw [hlands]
      constructor
      · intro hwaited
        refine ⟨hrestored, fun _ _ => hwaited, fun _ hgiven => ?_⟩
        rw [show self.followedFocus = some due from hfollowed] at hgiven
        cases hgiven
      · exact fun hfresh => hfresh.followed hnone (by
          rw [show self.followedFocus = some due from hfollowed]
          rfl)
    · have hstarts : followOrStart world { self with restorePending := none } =
          selectStartup world { self with restorePending := none } := by
        rw [followOrStart, show self.followedFocus = none from hgiven]
      rw [hstarts, selectedPane_selectStartup world { self with restorePending := none } hselected]
      constructor
      · intro hstarted
        refine ⟨hrestored, fun _ hsome => ?_, fun _ _ => hstarted⟩
        rw [show self.followedFocus = none from hgiven] at hsome
        cases hsome
      · exact fun hfresh => hfresh.started hnone hgiven

theorem lands_iff_follows (shows : FollowedFocus → World → Prop) (s : App × Option FollowedFocus)
    (event : World × Move) (h : Owed s) : Lands shows s event ↔ Follows shows s event := by
  obtain ⟨self, owed⟩ := s
  obtain ⟨world, move⟩ := event
  refine forall_congr' fun due => forall_congr' fun focused => forall_congr' fun hdue => ?_
  obtain ⟨hquitting, hdraw, howed, -, hfocus⟩ := hdue
  have hmove : move = .draw := hdraw
  subst hmove
  rw [step_of_running hquitting]
  have hselects := selectedPane_draw world { self with outbox := [] }
  have hbefore : Owed ({ self with outbox := [] }, owed) := ⟨h.tidy, h.selected, h.followed⟩
  have hlands := selectedPane_reconcileSelection world { self with outbox := [] } hbefore howed hfocus
  rw [← hselects] at hlands
  exact hlands.trans ⟨fun hfresh => ⟨hfresh.restored, hfresh.followed, hfresh.started⟩,
    fun hfresh => ⟨hfresh.restored, hfresh.followed, hfresh.started⟩⟩

/-- **A followed operation lands on its focus**, at each redraw at which its effect is seen, exactly if
the pane is fresh there: the results and the federation may arrive in any order. -/
theorem followed_focus_lands (shows : FollowedFocus → World → Prop) (restorePending : Option PaneId)
    (configuredTargets : List String) (resolvedTargets : ExtTreeMap TargetSession (Option String))
    (maxTransferBytes : ℕ) (events : List (World × Move)) :
    AllSteps (observe step owe) (Lands shows)
        (start restorePending configuredTargets resolvedTargets maxTransferBytes, none) events ↔
      AllSteps (observe step owe) (Follows shows)
        (start restorePending configuredTargets resolvedTargets maxTransferBytes, none) events := by
  refine allSteps_congr owed_step (lands_iff_follows shows) ?_ events
  refine ⟨tidy_start restorePending configuredTargets resolvedTargets maxTransferBytes, ?_, ?_⟩
  · intro due hdue
    cases hdue
  · intro due hdue
    cases hdue

/-- A pane is split, and the federation shows the new pane before the result arrives: nothing is
selected at the next redraw. -/
theorem a_pane_seen_before_its_result_is_not_selected :
    let pane : PaneId := ⟨"box", "main", "1"⟩
    let created : PaneId := ⟨"box", "main", "2"⟩
    let session : TargetSession := ⟨"box", "main"⟩
    let before := hosting [liveTarget session 1 (some pane) [pane]]
    let after := hosting [liveTarget session 1 (some created) [pane, created]]
    let split := exec (observe step owe) (start none [] ∅ 100, none)
      [(before, .draw), (before, .input (.bytes [0x02])), (before, .input (.bytes [0x76])),
        (after, .published), (after, .draw), (after, .daemon (.operationResult 0 true "" none))]
    let owed : FollowedFocus := ⟨session, [pane, created], FOLLOW_FOCUS_TIMEOUT⟩
    split.1.1.quitting = false ∧ split.1.2 = some owed ∧
      focusOf after.state session = some created ∧
      (step split.1.1 (after, .draw)).1.selectedPane = none := by
  decide +kernel

end App

end Tui

end SuperHerdr
