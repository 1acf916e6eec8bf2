import SuperHerdr.Attention.Quiet

/-!
# What one observation derives

`observe` goes over the panes that are reported now, then over those that are no longer, then over those
whose target is gone. Each pane is gone over by itself, so that each of the three loops can be read off
the observations from before it: `exec_notice` and `exec_lose` do that, and `observe_told` and
`getElem?_observe` say what comes of them, event by event and pane by pane.

From that it follows that observing a federation again changes nothing, which events there may be, and
that a target's events do not depend on any other target.
-/

namespace SuperHerdr

open Std Transducer

/-! ### Maps that are filled and emptied -/

section Maps

variable {α β : Type} [Ord α] [TransOrd α] [LawfulEqOrd α]

theorem insert_of_getElem? {map : ExtTreeMap α β} {a : α} {b : β} (h : map[a]? = some b) :
    map.insert a b = map := by
  refine ExtTreeMap.ext_getElem? fun other => ?_
  rw [ExtTreeMap.getElem?_insert]
  split
  · next heq => rw [← LawfulEqCmp.eq_of_compare heq, h]
  · rfl

theorem getElem?_foldl_erase [DecidableEq α] (keys : List α) (map : ExtTreeMap α β) (a : α) :
    (keys.foldl (fun map key => map.erase key) map)[a]? = if a ∈ keys then none else map[a]? := by
  induction keys generalizing map with
  | nil => simp
  | cons key keys ih =>
    rw [List.foldl_cons, ih]
    simp only [ExtTreeMap.getElem?_erase, LawfulEqCmp.compare_eq_iff_eq]
    by_cases hkey : key = a
    · simp [hkey]
    · simp [hkey, Ne.symm hkey]

theorem keys_filter_of_getElem? {map other : ExtTreeMap α β} {part : α → Bool}
    (h : ∀ a, part a = true → map[a]? = other[a]?) :
    map.keys.filter part = other.keys.filter part := by
  have hpart : (map.filter fun a _ => part a) = other.filter fun a _ => part a := by
    refine ExtTreeMap.ext_getElem? fun a => ?_
    rw [ExtTreeMap.getElem?_filter', ExtTreeMap.getElem?_filter']
    by_cases ha : part a = true
    · rw [h a ha]
    · simp [ha]
  rw [← ExtTreeMap.keys_filter_key, ← ExtTreeMap.keys_filter_key, hpart]

end Maps

/-! ### One pane at a time -/

/-- What an event tells of which pane. -/
def AttentionEvent.told (event : AttentionEvent) : PaneId × AttentionEventKind :=
  (event.pane, event.kind)

abbrev Observations := ExtTreeMap PaneId AgentObservation

namespace Observations

/-- What an observation tells, of what was observed before. -/
def transition (self : Observations) (observation : AgentObservation) :
    Option (PaneId × AttentionEventKind) :=
  (self[observation.pane]?.bind fun previous => transitionKind previous observation).map fun kind =>
    (observation.pane, kind)

/-- The observations with others in the place of those of their panes. -/
def renewed (self : Observations) (observations : List AgentObservation) : Observations :=
  observations.foldl (fun held observation => held.insert observation.pane observation) self

variable {observations : List AgentObservation}

theorem getElem?_renewed_of_not_mem {self : Observations}
    {pane : PaneId} (h : pane ∉ observations.map AgentObservation.pane) :
    (self.renewed observations)[pane]? = self[pane]? := by
  induction observations generalizing self with
  | nil => rfl
  | cons observation observations ih =>
    rw [List.map_cons, List.mem_cons, not_or] at h
    refine (ih h.2).trans ?_
    rw [ExtTreeMap.getElem?_insert, if_neg fun heq => h.1 (LawfulEqCmp.eq_of_compare heq).symm]

/-- What is held of a pane is what one observation says of it that no other contradicts. -/
theorem getElem?_renewed_of_only {self : Observations}
    {observation : AgentObservation} (h : observation ∈ observations)
    (honly : ∀ other ∈ observations, other.pane = observation.pane → other = observation) :
    (self.renewed observations)[observation.pane]? = some observation := by
  induction observations generalizing self with
  | nil => cases h
  | cons first observations ih =>
    by_cases hlater : observation ∈ observations
    · exact ih hlater fun other hother => honly other (List.mem_cons_of_mem first hother)
    · obtain rfl : observation = first := (List.mem_cons.mp h).resolve_right hlater
      have hnew : observation.pane ∉ observations.map AgentObservation.pane := by
        intro hpane
        obtain ⟨other, hother, hsame⟩ := List.mem_map.mp hpane
        exact hlater (honly other (List.mem_cons_of_mem observation hother) hsame ▸ hother)
      exact (getElem?_renewed_of_not_mem hnew).trans ExtTreeMap.getElem?_insert_self

theorem getElem?_renewed_of_mem {self : Observations}
    (hnodup : (observations.map AgentObservation.pane).Nodup) {observation : AgentObservation}
    (h : observation ∈ observations) :
    (self.renewed observations)[observation.pane]? = some observation :=
  getElem?_renewed_of_only h fun _ hother hpane => List.inj_on_of_nodup_map hnodup hother h hpane

end Observations

theorem transitionKind_self (observation : AgentObservation) :
    transitionKind observation observation = none := by
  simp [transitionKind]

namespace AttentionIndex

variable (clock : ℕ → ℕ)

/-- One pane that is reported: what is held of it, whether that is new, and what is told. -/
theorem notice_spec (s : AttentionIndex × Bool) (observation : AgentObservation) :
    (notice clock s observation).1.1.observations =
        s.1.observations.insert observation.pane observation ∧
      (notice clock s observation).1.2 =
        (s.2 || decide (s.1.observations[observation.pane]? ≠ some observation)) ∧
      (notice clock s observation).2.map AttentionEvent.told =
        (Observations.transition s.1.observations observation).toList := by
  obtain ⟨self, changed⟩ := s
  simp only [notice, Observations.transition]
  cases hprevious : self.observations[observation.pane]? with
  | none => simp
  | some previous =>
    by_cases hsame : previous = observation
    · subst hsame
      simp [transitionKind_self, insert_of_getElem? hprevious]
    · cases hkind : transitionKind previous observation with
      | none => simp [hkind, hsame]
      | some kind => simp [hkind, hsame, pushEvent, AttentionEvent.told]

/-- **The panes that are reported**, if each is reported once: each is compared with what was held of it
before the first of them. -/
theorem exec_notice (s : AttentionIndex × Bool) {observations : List AgentObservation}
    (hnodup : (observations.map AgentObservation.pane).Nodup) :
    (exec (notice clock) s observations).1.1.observations =
        Observations.renewed s.1.observations observations ∧
      ((exec (notice clock) s observations).1.2 = true ↔ s.2 = true ∨
        ∃ observation ∈ observations, s.1.observations[observation.pane]? ≠ some observation) ∧
      (exec (notice clock) s observations).2.map AttentionEvent.told =
        observations.filterMap (Observations.transition s.1.observations) := by
  induction observations generalizing s with
  | nil => simp [Observations.renewed]
  | cons observation observations ih =>
    obtain ⟨hnew, hnodup⟩ := List.nodup_cons.mp hnodup
    obtain ⟨hheld, hchanged, htold⟩ := notice_spec clock s observation
    obtain ⟨ihheld, ihchanged, ihtold⟩ := ih (notice clock s observation).1 hnodup
    -- what is held of the panes to come is what it was
    have hlater : ∀ later ∈ observations,
        (notice clock s observation).1.1.observations[later.pane]? = s.1.observations[later.pane]? := by
      intro later hmem
      have hne : observation.pane ≠ later.pane := fun heq =>
        hnew (heq ▸ List.mem_map_of_mem hmem)
      rw [hheld, ExtTreeMap.getElem?_insert, if_neg fun heq => hne (LawfulEqCmp.eq_of_compare heq)]
    refine ⟨?_, ?_, ?_⟩
    · rw [exec_cons, ihheld, hheld]
      rfl
    · rw [exec_cons, ihchanged, hchanged]
      simp only [Bool.or_eq_true, decide_eq_true_eq, List.mem_cons, exists_eq_or_imp, or_assoc]
      refine or_congr_right (or_congr_right ?_)
      refine exists_congr fun later => and_congr_right fun hmem => ?_
      rw [hlater later hmem]
    · rw [exec_cons, List.map_append, htold, ihtold, List.filterMap_cons]
      have hrest : observations.filterMap
          (Observations.transition (notice clock s observation).1.1.observations) =
            observations.filterMap (Observations.transition s.1.observations) := by
        refine List.filterMap_congr fun later hmem => ?_
        rw [Observations.transition, hlater later hmem, Observations.transition]
      rw [hrest]
      cases Observations.transition s.1.observations observation with
      | none => rfl
      | some told => rfl

theorem lose_spec {s : AttentionIndex × Bool} (hfiled : Filed s.1.observations)
    {pane : PaneId} (h : pane ∈ s.1.observations) :
    (lose clock s pane).1.1.observations = s.1.observations.erase pane ∧
      (lose clock s pane).1.2 = true ∧
      (lose clock s pane).2.map AttentionEvent.told = [(pane, .disappeared)] := by
  obtain ⟨self, changed⟩ := s
  obtain ⟨observation, hobservation⟩ :=
    Option.isSome_iff_exists.mp (ExtTreeMap.mem_iff_isSome_getElem?.mp h)
  have hpane := hfiled pane observation hobservation
  simp only [lose] at hobservation ⊢
  rw [hobservation]
  simp [pushEvent, AttentionEvent.told, hpane]

/-- **The panes that are no longer reported.** -/
theorem exec_lose {s : AttentionIndex × Bool} (hfiled : Filed s.1.observations)
    {panes : List PaneId} (hnodup : panes.Nodup) (h : ∀ pane ∈ panes, pane ∈ s.1.observations) :
    (exec (lose clock) s panes).1.1.observations =
        panes.foldl (fun held pane => held.erase pane) s.1.observations ∧
      ((exec (lose clock) s panes).1.2 = true ↔ s.2 = true ∨ panes ≠ []) ∧
      (exec (lose clock) s panes).2.map AttentionEvent.told =
        panes.map fun pane => (pane, .disappeared) := by
  induction panes generalizing s with
  | nil => simp
  | cons pane panes ih =>
    obtain ⟨hnew, hnodup⟩ := List.nodup_cons.mp hnodup
    obtain ⟨hheld, hchanged, htold⟩ := lose_spec clock hfiled (h pane List.mem_cons_self)
    have hlater : ∀ later ∈ panes, later ∈ (lose clock s pane).1.1.observations := by
      intro later hmem
      rw [hheld, ExtTreeMap.mem_erase]
      refine ⟨fun heq => hnew ?_, h later (List.mem_cons_of_mem _ hmem)⟩
      rw [LawfulEqCmp.eq_of_compare heq]
      exact hmem
    obtain ⟨ihheld, ihchanged, ihtold⟩ := ih (filed_lose clock hfiled pane) hnodup hlater
    refine ⟨?_, ?_, ?_⟩
    · rw [exec_cons, ihheld, hheld, List.foldl_cons]
    · rw [exec_cons, ihchanged, hchanged]
      simp
    · rw [exec_cons, List.map_append, htold, ihtold]
      rfl

end AttentionIndex

/-! ### What is reported now -/

variable {observations : Observations}

theorem panes_values (h : Filed observations) :
    observations.values.map AgentObservation.pane = observations.keys := by
  rw [KeyedMap.values_eq_map_toList, ← ExtTreeMap.map_fst_toList_eq_keys, List.map_map]
  refine List.map_congr_left fun entry hentry => ?_
  exact h entry.1 entry.2 (ExtTreeMap.mem_toList_iff_getElem?_eq_some.mp hentry)

theorem nodup_panes_values (h : Filed observations) :
    (observations.values.map AgentObservation.pane).Nodup := by
  rw [panes_values h]
  exact ExtTreeMap.nodup_keys

theorem mem_values (h : Filed observations) {observation : AgentObservation} :
    observation ∈ observations.values ↔ observations[observation.pane]? = some observation := by
  rw [KeyedMap.values_eq_map_toList]
  constructor
  · intro hmem
    obtain ⟨⟨pane, held⟩, hheld, rfl⟩ := List.mem_map.mp hmem
    replace hheld := ExtTreeMap.mem_toList_iff_getElem?_eq_some.mp hheld
    rw [h pane held hheld]
    exact hheld
  · intro hheld
    exact List.mem_map.mpr ⟨(observation.pane, observation),
      ExtTreeMap.mem_toList_iff_getElem?_eq_some.mpr hheld, rfl⟩

namespace FederationState

/-- What the live target of a pane says of it. -/
def liveObservation (state : FederationState) (pane : PaneId) : Option AgentObservation :=
  state.targets[pane.targetSession]?.bind fun target =>
    target.liveSnapshot.bind fun snapshot => snapshot.agents[pane]?.map snapshot.observation

variable {state : FederationState}

/-- **What is reported of a pane** is what its own target says of it. -/
theorem getElem?_current (h : state.Keyed) (pane : PaneId) :
    state.current[pane]? = state.liveObservation pane := by
  cases hlive : state.liveAgent pane with
  | none =>
    have habsent : state.current[pane]? = none := by
      refine ExtTreeMap.getElem?_eq_none fun hpane => ?_
      obtain ⟨agent, hagent⟩ := (mem_current h).mp hpane
      rw [hlive] at hagent
      cases hagent
    rw [habsent, liveObservation]
    symm
    simp only [liveAgent, Option.bind_eq_none_iff, Option.map_eq_none_iff] at hlive ⊢
    exact hlive
  | some agent =>
    obtain ⟨target, htarget, hrest⟩ := Option.bind_eq_some_iff.mp hlive
    obtain ⟨snapshot, hsnapshot, hagent⟩ := Option.bind_eq_some_iff.mp hrest
    have hheld := (TargetRuntimeState.liveSnapshot_eq_some.mp hsnapshot).2
    have hpane : (snapshot.observation agent).pane = pane := (h.agent htarget hheld hagent).1
    have hreported : snapshot.observation agent ∈ state.reported := by
      refine List.mem_flatMap.mpr ⟨(pane.targetSession, target),
        ExtTreeMap.mem_toList_iff_getElem?_eq_some.mpr htarget, ?_⟩
      simp only [hsnapshot]
      exact List.mem_map.mpr
        ⟨(pane, agent), ExtTreeMap.mem_toList_iff_getElem?_eq_some.mpr hagent, rfl⟩
    have honly : ∀ other ∈ state.reported, other.pane = (snapshot.observation agent).pane →
        other = snapshot.observation agent := by
      -- a pane names its target, and the target has one agent for it
      intro other hother hsame
      obtain ⟨⟨key, other⟩, hentry, hreports⟩ := List.mem_flatMap.mp hother
      replace hentry := ExtTreeMap.mem_toList_iff_getElem?_eq_some.mp hentry
      simp only at hreports
      split at hreports
      · next another hanother =>
        obtain ⟨⟨place, one⟩, hone, rfl⟩ := List.mem_map.mp hreports
        replace hone := ExtTreeMap.mem_toList_iff_getElem?_eq_some.mp hone
        obtain ⟨hplace, hkey⟩ := h.agent hentry
          (TargetRuntimeState.liveSnapshot_eq_some.mp hanother).2 hone
        obtain rfl : place = pane := hplace.symm.trans (hsame.trans hpane)
        subst hkey
        rw [htarget] at hentry
        rw [← Option.some.inj hentry, hsnapshot] at hanother
        rw [← Option.some.inj hanother, hagent] at hone
        rw [← Option.some.inj hanother, Option.some.inj hone]
      · cases hreports
    have hcurrent : state.current[(snapshot.observation agent).pane]? =
        some (snapshot.observation agent) :=
      Observations.getElem?_renewed_of_only hreported honly
    rw [hpane] at hcurrent
    rw [hcurrent, liveObservation, htarget, Option.bind_some, hsnapshot, Option.bind_some, hagent]
    rfl

/-- The sessions that speak for their panes are those whose target is live and has a snapshot. -/
theorem mem_liveSessions (h : state.Keyed) {key : TargetSession} :
    key ∈ state.liveSessions ↔ ∃ target snapshot, state.targets[key]? = some target ∧
      target.liveSnapshot = some snapshot := by
  constructor
  · intro hmem
    obtain ⟨⟨held, target⟩, htarget, hlive⟩ := List.mem_filterMap.mp hmem
    obtain ⟨snapshot, hsnapshot, hkey⟩ := Option.map_eq_some_iff.mp hlive
    replace htarget := ExtTreeMap.mem_toList_iff_getElem?_eq_some.mp htarget
    obtain rfl : held = key := (h.key htarget).symm.trans hkey
    exact ⟨target, snapshot, htarget, hsnapshot⟩
  · rintro ⟨target, snapshot, htarget, hsnapshot⟩
    refine List.mem_filterMap.mpr
      ⟨(key, target), ExtTreeMap.mem_toList_iff_getElem?_eq_some.mpr htarget, ?_⟩
    simp only [hsnapshot, Option.map_some, h.key htarget]

theorem mem_liveSessions_of_mem_current (h : state.Keyed)
    {pane : PaneId} (hpane : pane ∈ state.current) : pane.targetSession ∈ state.liveSessions := by
  obtain ⟨agent, hlive⟩ := (mem_current h).mp hpane
  obtain ⟨target, htarget, hrest⟩ := Option.bind_eq_some_iff.mp hlive
  obtain ⟨snapshot, hsnapshot, -⟩ := Option.bind_eq_some_iff.mp hrest
  exact (mem_liveSessions h).mpr ⟨target, snapshot, htarget, hsnapshot⟩

theorem mem_targets_of_mem_liveSessions (h : state.Keyed)
    {key : TargetSession} (hkey : key ∈ state.liveSessions) : key ∈ state.targets := by
  obtain ⟨target, -, htarget, -⟩ := (mem_liveSessions h).mp hkey
  exact ExtTreeMap.mem_iff_isSome_getElem?.mpr (by rw [htarget]; rfl)

end FederationState

namespace AttentionIndex

/-! ### One observation of the federation -/

/-- What is held once the panes that are reported were gone over. -/
theorem getElem?_noticed (self : AttentionIndex) (state : FederationState) (pane : PaneId) :
    (Observations.renewed self.observations state.current.values)[pane]? =
      (state.current[pane]? <|> self.observations[pane]?) := by
  have hfiled := filed_current state
  cases hcurrent : state.current[pane]? with
  | none =>
    refine Observations.getElem?_renewed_of_not_mem fun hpane => ?_
    rw [panes_values hfiled, ExtTreeMap.mem_keys, ExtTreeMap.mem_iff_isSome_getElem?,
      hcurrent] at hpane
    cases hpane
  | some observation =>
    have hpane : observation.pane = pane := hfiled pane observation hcurrent
    have hmem : observation ∈ state.current.values := (mem_values hfiled).mpr (by rw [hpane, hcurrent])
    rw [← hpane]
    exact Observations.getElem?_renewed_of_mem (nodup_panes_values hfiled) hmem

variable (clock : ℕ → ℕ)

theorem disappeared_noticed (self : AttentionIndex) (state : FederationState) :
    (exec (notice clock) (self, false) state.current.values).1.1.disappeared state =
      self.disappeared state := by
  obtain ⟨hheld, -, -⟩ := exec_notice clock (self, false)
    (nodup_panes_values (filed_current state))
  refine keys_filter_of_getElem? fun pane hpane => ?_
  obtain ⟨-, habsent⟩ := of_decide_eq_true hpane
  rw [hheld, getElem?_noticed, ExtTreeMap.getElem?_eq_none habsent]
  rfl

variable {self : AttentionIndex}

theorem mem_disappeared {state : FederationState} {pane : PaneId} :
    pane ∈ self.disappeared state ↔ pane ∈ self.observations ∧
      pane.targetSession ∈ state.liveSessions ∧ pane ∉ state.current := by
  rw [disappeared, List.mem_filter, ExtTreeMap.mem_keys, decide_eq_true_eq]

/-- The panes that are reported and then those that are gone: what is held after both loops, whether
that is new, and what the second loop tells. -/
theorem exec_lose_noticed (h : Filed self.observations) (state : FederationState) :
    let lost := exec (lose clock) (exec (notice clock) (self, false) state.current.values).1
      (self.disappeared state)
    (∀ pane : PaneId, lost.1.1.observations[pane]? =
      if pane ∈ self.disappeared state then none
      else (state.current[pane]? <|> self.observations[pane]?)) ∧
    (lost.1.2 = true ↔ (∃ observation ∈ state.current.values,
        self.observations[observation.pane]? ≠ some observation) ∨ self.disappeared state ≠ []) ∧
    lost.2.map AttentionEvent.told = (self.disappeared state).map fun pane => (pane, .disappeared) := by
  intro lost
  obtain ⟨hheld, hchanged, -⟩ := exec_notice clock (self, false)
    (nodup_panes_values (filed_current state))
  have hnoticed : Filed (exec (notice clock) (self, false) state.current.values).1.1.observations :=
    exec_invariant (I := fun s : AttentionIndex × Bool => Filed s.1.observations)
      (fun s observation hs => filed_notice clock hs observation) h _
  have hnodup : ((exec (notice clock) (self, false) state.current.values).1.1.disappeared
      state).Nodup := ExtTreeMap.nodup_keys.filter _
  obtain ⟨hleft, hlost, htold⟩ := exec_lose clock (s := (exec (notice clock) (self, false)
    state.current.values).1) hnoticed hnodup fun pane hpane => (mem_disappeared.mp hpane).1
  rw [disappeared_noticed] at hleft hlost htold
  refine ⟨fun pane => ?_, ?_, htold⟩
  · rw [hleft, getElem?_foldl_erase, hheld, getElem?_noticed]
  · rw [hlost, hchanged]
    simp only [Bool.false_eq_true, false_or]

/-- **What one observation tells**: what is new of the panes that are reported, and then which panes
are gone. -/
theorem observe_told (h : Filed self.observations) (state : FederationState) :
    (self.observe clock state).2.map AttentionEvent.told =
      state.current.values.filterMap (Observations.transition self.observations) ++
        (self.disappeared state).map fun pane => (pane, .disappeared) := by
  obtain ⟨-, -, htold⟩ := exec_notice clock (self, false)
    (nodup_panes_values (filed_current state))
  obtain ⟨-, -, hlost⟩ := exec_lose_noticed clock h state
  simp only [observe]
  rw [List.map_append, htold, disappeared_noticed, hlost]

/-- **What one observation leaves** of a pane: what its target reports if it is live, what was held if
it is not, and nothing if it left the federation. The flag says whether that is new. -/
theorem observe_held (h : Filed self.observations)
    {state : FederationState} (hkeyed : state.Keyed) :
    (∀ pane : PaneId, (self.observe clock state).1.1.observations[pane]? =
      if pane.targetSession ∈ state.liveSessions then state.current[pane]?
      else if pane.targetSession ∈ state.targets then self.observations[pane]? else none) ∧
    ((self.observe clock state).1.2 = true ↔
      (∃ observation ∈ state.current.values,
        self.observations[observation.pane]? ≠ some observation) ∨
      self.disappeared state ≠ [] ∨
      ∃ pane ∈ self.observations, pane.targetSession ∉ state.targets) := by
  obtain ⟨hpanes, hchanged, -⟩ := exec_lose_noticed clock h state
  simp only [observe]
  rw [disappeared_noticed]
  generalize exec (lose clock) (exec (notice clock) (self, false) state.current.values).1
    (self.disappeared state) = lost at hpanes hchanged ⊢
  -- a pane whose target left the federation is neither reported nor gone
  have hstays : ∀ pane : PaneId, pane.targetSession ∉ state.targets →
      lost.1.1.observations[pane]? = self.observations[pane]? := by
    intro pane hpane
    have hsilent : pane.targetSession ∉ state.liveSessions := fun hlive =>
      hpane (FederationState.mem_targets_of_mem_liveSessions hkeyed hlive)
    rw [hpanes, if_neg fun hgone => hsilent (mem_disappeared.mp hgone).2.1,
      ExtTreeMap.getElem?_eq_none fun hnow =>
        hsilent (FederationState.mem_liveSessions_of_mem_current hkeyed hnow)]
    rfl
  have hremoved : ∀ pane : PaneId, pane ∈ lost.1.1.removed state ↔
      pane ∈ self.observations ∧ pane.targetSession ∉ state.targets := by
    intro pane
    rw [removed, List.mem_filter, ExtTreeMap.mem_keys, decide_eq_true_eq]
    refine and_congr_left fun hpane => ?_
    rw [ExtTreeMap.mem_iff_isSome_getElem?, hstays pane hpane, ExtTreeMap.mem_iff_isSome_getElem?]
  constructor
  · intro pane
    rw [getElem?_foldl_erase]
    simp only [hremoved]
    by_cases hlive : pane.targetSession ∈ state.liveSessions
    · have hknown := FederationState.mem_targets_of_mem_liveSessions hkeyed hlive
      rw [if_neg fun hgone => hgone.2 hknown, if_pos hlive, hpanes]
      cases hcurrent : state.current[pane]? with
      | none =>
        by_cases hheld : pane ∈ self.observations
        · have habsent : pane ∉ state.current := by
            rw [ExtTreeMap.mem_iff_isSome_getElem?, hcurrent]
            exact Bool.false_ne_true
          rw [if_pos (mem_disappeared.mpr ⟨hheld, hlive, habsent⟩)]
        · rw [ExtTreeMap.getElem?_eq_none hheld]
          exact ite_self none
      | some observation =>
        have hnow : pane ∈ state.current := by
          rw [ExtTreeMap.mem_iff_isSome_getElem?, hcurrent]
          rfl
        rw [if_neg fun hgone => (mem_disappeared.mp hgone).2.2 hnow]
        rfl
    · rw [if_neg hlive]
      by_cases hknown : pane.targetSession ∈ state.targets
      · rw [if_neg fun hgone => hgone.2 hknown, if_pos hknown, hpanes,
          if_neg fun hgone => hlive (mem_disappeared.mp hgone).2.1,
          ExtTreeMap.getElem?_eq_none fun hnow =>
            hlive (FederationState.mem_liveSessions_of_mem_current hkeyed hnow)]
        rfl
      · rw [if_neg hknown, hstays pane hknown]
        by_cases hheld : pane ∈ self.observations
        · exact if_pos ⟨hheld, hknown⟩
        · rw [ExtTreeMap.getElem?_eq_none hheld]
          exact ite_self none
  · have hany : (lost.1.1.removed state) ≠ [] ↔
        ∃ pane ∈ self.observations, pane.targetSession ∉ state.targets := by
      constructor
      · intro hne
        obtain ⟨pane, hpane⟩ := List.exists_mem_of_ne_nil _ hne
        exact ⟨pane, (hremoved pane).mp hpane⟩
      · rintro ⟨pane, hpane⟩
        exact List.ne_nil_of_mem ((hremoved pane).mpr hpane)
    rw [Bool.or_eq_true, hchanged, Bool.not_eq_true', List.isEmpty_eq_false_iff, hany, or_assoc]

/-! ### The same federation again -/

/-- **Observing a federation again changes nothing**, neither what is held nor the history. -/
theorem observe_again (clock clock' : ℕ → ℕ) (h : Filed self.observations)
    (hbounded : self.events.length ≤ MAX_ATTENTION_EVENTS) {state : FederationState}
    (hkeyed : state.Keyed) :
    (self.observe clock state).1.1.observe clock' state =
      (((self.observe clock state).1.1, false), []) := by
  obtain ⟨hheld, -⟩ := observe_held clock h hkeyed
  have hfiled := filed_observe clock h state
  have hgrown := (grows_observe clock self state hbounded).bounded
  generalize (self.observe clock state).1.1 = observed at hheld hfiled hgrown ⊢
  have hreported : ∀ observation ∈ state.current.values,
      observed.observations[observation.pane]? = some observation := by
    intro observation hobservation
    have hcurrent := (mem_values (filed_current state)).mp hobservation
    have hlive := FederationState.mem_liveSessions_of_mem_current hkeyed
      (ExtTreeMap.mem_iff_isSome_getElem?.mpr (by rw [hcurrent]; rfl))
    rw [hheld, if_pos hlive, hcurrent]
  have hpresent : observed.disappeared state = [] := by
    refine List.eq_nil_iff_forall_not_mem.mpr fun pane hpane => ?_
    obtain ⟨hmem, hlive, habsent⟩ := mem_disappeared.mp hpane
    rw [ExtTreeMap.mem_iff_isSome_getElem?, hheld, if_pos hlive,
      ExtTreeMap.getElem?_eq_none habsent] at hmem
    cases hmem
  have hknown : ∀ pane ∈ observed.observations, pane.targetSession ∈ state.targets := by
    intro pane hmem
    by_contra hunknown
    rw [ExtTreeMap.mem_iff_isSome_getElem?, hheld, if_neg fun hlive =>
      hunknown (FederationState.mem_targets_of_mem_liveSessions hkeyed hlive),
      if_neg hunknown] at hmem
    cases hmem
  obtain ⟨hagain, hchanged⟩ := observe_held clock' hfiled hkeyed
  have htold := observe_told clock' hfiled state
  have hgrows := grows_observe clock' observed state hgrown
  have hsilent : (observed.observe clock' state).2 = [] := by
    refine List.map_eq_nil_iff.mp (htold.trans ?_)
    rw [hpresent, List.map_nil, List.append_nil, List.filterMap_eq_nil_iff]
    intro observation hobservation
    rw [Observations.transition, hreported observation hobservation, Option.bind_some,
      transitionKind_self]
    rfl
  have hflag : (observed.observe clock' state).1.2 = false := by
    rw [← Bool.not_eq_true, hchanged, not_or, not_or]
    refine ⟨?_, fun hgone => hgone hpresent, ?_⟩
    · rintro ⟨observation, hobservation, hnew⟩
      exact hnew (hreported observation hobservation)
    · rintro ⟨pane, hmem, hunknown⟩
      exact hunknown (hknown pane hmem)
  have hsame : (observed.observe clock' state).1.1.observations = observed.observations := by
    refine ExtTreeMap.ext_getElem? fun pane => ?_
    rw [hagain, hheld]
    split
    · rfl
    · split
      · rfl
      · rfl
  have hindex : (observed.observe clock' state).1.1 = observed := by
    have hnext := hgrows.next
    have hevents := hgrows.events
    rw [hsilent, List.append_nil, boundedHistory_of_length_le hgrown] at hevents
    rw [hsilent, List.length_nil, Nat.add_zero] at hnext
    generalize (observed.observe clock' state).1.1 = again at hnext hsame hevents ⊢
    calc again = ⟨again.nextEventId, again.observations, again.events⟩ := rfl
      _ = observed := by rw [hnext, hsame, hevents]
  exact Prod.ext (Prod.ext hindex hflag) hsilent

/-! ### Which events there are -/

/-- What a pane that is reported tells, of what was observed before. -/
def tells (self : Observations) (state : FederationState) (pane : PaneId) :
    Option (PaneId × AttentionEventKind) :=
  state.current[pane]?.bind self.transition

theorem fst_of_tells {self : Observations} {state : FederationState} {pane : PaneId}
    {told : PaneId × AttentionEventKind} (h : tells self state pane = some told) :
    told.1 = pane := by
  obtain ⟨observation, hobservation, htransition⟩ := Option.bind_eq_some_iff.mp h
  obtain ⟨kind, -, rfl⟩ := Option.map_eq_some_iff.mp htransition
  exact filed_current state pane observation hobservation

theorem filterMap_transition (self : Observations) (state : FederationState) :
    state.current.values.filterMap self.transition = state.current.keys.filterMap (tells self state) := by
  rw [KeyedMap.values_eq_map_toList, ← ExtTreeMap.map_fst_toList_eq_keys, List.filterMap_map,
    List.filterMap_map]
  refine List.filterMap_congr fun entry hentry => ?_
  rw [Function.comp_apply, Function.comp_apply, tells,
    ExtTreeMap.mem_toList_iff_getElem?_eq_some.mp hentry, Option.bind_some]

theorem map_pane_eq_map_told (events : List AttentionEvent) :
    events.map AttentionEvent.pane = (events.map AttentionEvent.told).map Prod.fst := by
  rw [List.map_map]
  rfl

/-- **An observation tells at most one thing of a pane.** -/
theorem nodup_panes_observe (h : Filed self.observations) (state : FederationState) :
    ((self.observe clock state).2.map AttentionEvent.pane).Nodup := by
  have hpanes : ∀ pane ∈ (state.current.keys.filterMap (tells self.observations state)).map Prod.fst,
      pane ∈ state.current := by
    intro pane hpane
    obtain ⟨told, htold, rfl⟩ := List.mem_map.mp hpane
    obtain ⟨pane, hpane, htells⟩ := List.mem_filterMap.mp htold
    rw [fst_of_tells htells]
    exact ExtTreeMap.mem_keys.mp hpane
  have hgone : ((self.disappeared state).map fun pane => (pane, AttentionEventKind.disappeared)).map
      Prod.fst = self.disappeared state := by
    rw [List.map_map]
    exact List.map_id _
  rw [map_pane_eq_map_told, observe_told clock h state, filterMap_transition, List.map_append, hgone]
  refine List.nodup_append'.mpr ⟨?_, ?_, fun pane hnow hlost => ?_⟩
  · rw [List.map_filterMap]
    refine ExtTreeMap.nodup_keys.filterMap fun pane other told hpane hother => ?_
    obtain ⟨first, hfirst, rfl⟩ := Option.map_eq_some_iff.mp (Option.mem_def.mp hpane)
    obtain ⟨second, hsecond, hsame⟩ := Option.map_eq_some_iff.mp (Option.mem_def.mp hother)
    rw [fst_of_tells hfirst, fst_of_tells hsecond] at hsame
    exact hsame.symm
  · exact ExtTreeMap.nodup_keys.filter _
  · exact (mem_disappeared.mp hlost).2.2 (hpanes pane hnow)

/-- **Which events there are**: each is about a pane that was observed before and whose target is
live, and it is a disappearance if and only if the snapshot lacks the pane. -/
theorem mem_observe (h : Filed self.observations)
    {state : FederationState} (hkeyed : state.Keyed) {event : AttentionEvent}
    (he : event ∈ (self.observe clock state).2) :
    event.pane ∈ self.observations ∧ ∃ target snapshot,
      state.targets[event.pane.targetSession]? = some target ∧ target.connection = .live ∧
        target.snapshot = some snapshot ∧
        (event.kind = .disappeared ↔ event.pane ∉ snapshot.agents) := by
  have hobserved : event.pane ∈ self.observations := by
    have htold : event.told ∈ (self.observe clock state).2.map AttentionEvent.told :=
      List.mem_map_of_mem he
    rw [observe_told clock h state] at htold
    rcases List.mem_append.mp htold with hnow | hgone
    · obtain ⟨observation, -, htransition⟩ := List.mem_filterMap.mp hnow
      obtain ⟨kind, hkind, hevent⟩ := Option.map_eq_some_iff.mp htransition
      obtain ⟨previous, hprevious, -⟩ := Option.bind_eq_some_iff.mp hkind
      have hpane : observation.pane = event.pane := congrArg Prod.fst hevent
      rw [← hpane]
      exact ExtTreeMap.mem_iff_isSome_getElem?.mpr (by rw [hprevious]; rfl)
    · obtain ⟨pane, hpane, hevent⟩ := List.mem_map.mp hgone
      obtain rfl : pane = event.pane := congrArg Prod.fst hevent
      exact (mem_disappeared.mp hpane).1
  refine ⟨hobserved, ?_⟩
  have hcurrent : ∀ {target snapshot}, state.targets[event.pane.targetSession]? = some target →
      target.liveSnapshot = some snapshot →
        (event.pane ∈ state.current ↔ event.pane ∈ snapshot.agents) := by
    intro target snapshot htarget hsnapshot
    rw [FederationState.mem_current hkeyed, FederationState.liveAgent, htarget, Option.bind_some,
      hsnapshot, Option.bind_some, ExtTreeMap.mem_iff_isSome_getElem?, Option.isSome_iff_exists]
  have hlive : event.pane.targetSession ∈ state.liveSessions ∧
      (event.kind = .disappeared ↔ event.pane ∉ state.current) := by
    rcases mem_observe_snd clock h state he with ⟨hkind, hnow⟩ | ⟨hkind, hgone⟩
    · exact ⟨FederationState.mem_liveSessions_of_mem_current hkeyed hnow,
        fun hgone => absurd hgone hkind, fun habsent => absurd hnow habsent⟩
    · obtain ⟨-, hsession, habsent⟩ := mem_disappeared.mp hgone
      exact ⟨hsession, fun _ => habsent, fun _ => hkind⟩
  obtain ⟨target, snapshot, htarget, hsnapshot⟩ :=
    (FederationState.mem_liveSessions hkeyed).mp hlive.1
  obtain ⟨hconnection, hheld⟩ := TargetRuntimeState.liveSnapshot_eq_some.mp hsnapshot
  refine ⟨target, snapshot, htarget, hconnection, hheld, ?_⟩
  rw [hlive.2, hcurrent htarget hsnapshot]

/-! ### One target among others -/

/-- What is told of the panes of one target. -/
def toldOf (key : TargetSession) (events : List AttentionEvent) :
    List (PaneId × AttentionEventKind) :=
  (events.map AttentionEvent.told).filter fun told => told.1.targetSession = key

theorem toldOf_append (key : TargetSession) (events later : List AttentionEvent) :
    toldOf key (events ++ later) = toldOf key events ++ toldOf key later := by
  rw [toldOf, List.map_append, List.filter_append, toldOf, toldOf]

/-- Two indices hold the same of the panes of one target. -/
def HeldAlike (key : TargetSession) (self other : AttentionIndex) : Prop :=
  ∀ pane : PaneId, pane.targetSession = key → self.observations[pane]? = other.observations[pane]?

/-- Two federations know the same of one target. -/
structure Agree (key : TargetSession) (state other : FederationState) : Prop where
  keyed : state.Keyed
  keyed' : other.Keyed
  target : state.targets[key]? = other.targets[key]?

variable {key : TargetSession} {state state' : FederationState}

theorem Agree.mem_targets (h : Agree key state state') :
    key ∈ state.targets ↔ key ∈ state'.targets := by
  rw [ExtTreeMap.mem_iff_isSome_getElem?, h.target, ExtTreeMap.mem_iff_isSome_getElem?]

theorem Agree.mem_liveSessions (h : Agree key state state') :
    key ∈ state.liveSessions ↔ key ∈ state'.liveSessions := by
  rw [FederationState.mem_liveSessions h.keyed, FederationState.mem_liveSessions h.keyed',
    h.target]

theorem Agree.getElem?_current (h : Agree key state state') {pane : PaneId}
    (hpane : pane.targetSession = key) : state.current[pane]? = state'.current[pane]? := by
  rw [FederationState.getElem?_current h.keyed, FederationState.getElem?_current h.keyed',
    FederationState.liveObservation, FederationState.liveObservation, hpane, h.target]

theorem Agree.mem_current (h : Agree key state state') {pane : PaneId}
    (hpane : pane.targetSession = key) : pane ∈ state.current ↔ pane ∈ state'.current := by
  rw [ExtTreeMap.mem_iff_isSome_getElem?, h.getElem?_current hpane,
    ExtTreeMap.mem_iff_isSome_getElem?]

/-- What one target's panes tell is read off the panes of that target alone. -/
theorem toldOf_observe (h : Filed self.observations)
    (state : FederationState) (key : TargetSession) :
    toldOf key (self.observe clock state).2 =
      (state.current.keys.filter fun pane => pane.targetSession = key).filterMap
          (tells self.observations state) ++
        ((self.disappeared state).filter fun pane => pane.targetSession = key).map
          fun pane => (pane, .disappeared) := by
  rw [toldOf, observe_told clock h state, filterMap_transition, List.filter_append,
    List.filter_map, List.filter_filterMap, List.filterMap_filter]
  refine congrArg₂ (· ++ ·) (List.filterMap_congr fun pane _ => ?_) rfl
  cases htells : tells self.observations state pane with
  | none => simp
  | some told => simp [Option.filter, fst_of_tells htells]

/-- **The step lemma**: what an observation tells of one target, and what it leaves of its panes, does not
depend on the other targets. -/
theorem toldOf_observe_congr (clock clock' : ℕ → ℕ) {self other : AttentionIndex}
    (h : Filed self.observations) (h' : Filed other.observations) (hheld : HeldAlike key self other)
    (hstates : Agree key state state') :
    HeldAlike key (self.observe clock state).1.1 (other.observe clock' state').1.1 ∧
      toldOf key (self.observe clock state).2 = toldOf key (other.observe clock' state').2 := by
  constructor
  · intro pane hpane
    rw [(observe_held clock h hstates.keyed).1, (observe_held clock' h' hstates.keyed').1, hpane,
      hstates.getElem?_current hpane, hheld pane hpane]
    simp only [hstates.mem_liveSessions, hstates.mem_targets]
  · have hkeys : (state.current.keys.filter fun pane => pane.targetSession = key) =
        state'.current.keys.filter fun pane => pane.targetSession = key :=
      keys_filter_of_getElem? fun pane hpane => hstates.getElem?_current (of_decide_eq_true hpane)
    have hgone : ((self.disappeared state).filter fun pane => pane.targetSession = key) =
        (other.disappeared state').filter fun pane => pane.targetSession = key := by
      rw [disappeared, disappeared, List.filter_filter, List.filter_filter]
      have hpart : ∀ pane : PaneId, pane.targetSession = key →
          ((pane.targetSession ∈ state.liveSessions ∧ pane ∉ state.current) ↔
            (pane.targetSession ∈ state'.liveSessions ∧ pane ∉ state'.current)) := by
        intro pane hpane
        rw [hpane, hstates.mem_liveSessions, hstates.mem_current hpane]
      calc _ = self.observations.keys.filter fun pane => decide (pane.targetSession = key) &&
            decide (pane.targetSession ∈ state'.liveSessions ∧ pane ∉ state'.current) := by
            refine List.filter_congr fun pane _ => ?_
            by_cases hpane : pane.targetSession = key
            · simp only [hpart pane hpane]
            · simp only [hpane, decide_false, Bool.false_and]
        _ = _ := keys_filter_of_getElem? fun pane hpane =>
            hheld pane (of_decide_eq_true (Bool.and_eq_true_iff.mp hpane).1)
    rw [toldOf_observe clock h, toldOf_observe clock' h', hkeys, hgone]
    refine congrArg₂ (· ++ ·) (List.filterMap_congr fun pane hmem => ?_) rfl
    have hpane : pane.targetSession = key := of_decide_eq_true (List.mem_filter.mp hmem).2
    have htransition : ∀ observation : AgentObservation, observation.pane = pane →
        Observations.transition self.observations observation =
          Observations.transition other.observations observation := by
      rintro observation rfl
      rw [Observations.transition, hheld _ hpane, Observations.transition]
    rw [tells, tells, hstates.getElem?_current hpane]
    cases hcurrent : state'.current[pane]? with
    | none => rfl
    | some observation => exact htransition observation (filed_current state' pane observation hcurrent)

/-- An observation as a step of a run. -/
def observing (clock : ℕ → ℕ) (self : AttentionIndex) (state : FederationState) :
    AttentionIndex × List AttentionEvent :=
  ((self.observe clock state).1.1, (self.observe clock state).2)

/-- **The run lemma**: so it is over any run. -/
theorem toldOf_exec_congr (clock clock' : ℕ → ℕ) {self other : AttentionIndex}
    (h : Filed self.observations) (h' : Filed other.observations) (hheld : HeldAlike key self other)
    {states states' : List FederationState} (hstates : List.Forall₂ (Agree key) states states') :
    toldOf key (exec (observing clock) self states).2 =
      toldOf key (exec (observing clock') other states').2 := by
  induction hstates generalizing self other with
  | nil => rw [exec_nil, exec_nil]
  | cons hagree _ ih =>
    obtain ⟨hnext, htold⟩ := toldOf_observe_congr clock clock' h h' hheld hagree
    rw [exec_cons, exec_cons, toldOf_append, toldOf_append]
    exact congrArg₂ (· ++ ·) htold
      (ih (filed_observe clock h _) (filed_observe clock' h' _) hnext)

theorem grows_observing
    (hbounded : self.events.length ≤ MAX_ATTENTION_EVENTS) (states : List FederationState) :
    self.Grows (exec (observing clock) self states).1 (exec (observing clock) self states).2 := by
  induction states generalizing self with
  | nil => exact Grows.refl hbounded rfl rfl
  | cons state states ih =>
    have hgrows := grows_observe clock self state hbounded
    exact hgrows.trans (ih hgrows.bounded)

/-- A history from which the bound dropped none of one target's events tells of that target all there
was to tell. -/
theorem toldOf_boundedHistory {events : List AttentionEvent}
    (hincreasing : events.Pairwise AttentionEvent.Earlier)
    (hkept : ∀ event ∈ events, event.pane.targetSession = key → event ∈ boundedHistory events) :
    toldOf key (boundedHistory events) = toldOf key events := by
  -- an event that was dropped is older than all that were kept
  have hdropped : toldOf key (events.take (events.length - MAX_ATTENTION_EVENTS)) = [] := by
    refine List.filter_eq_nil_iff.mpr fun told htold => ?_
    obtain ⟨event, hevent, rfl⟩ := List.mem_map.mp htold
    intro hkey
    have hheld := hkept event (List.mem_of_mem_take hevent) (of_decide_eq_true hkey)
    rw [boundedHistory] at hheld
    have hsplit := List.pairwise_append.mp
      ((List.take_append_drop (events.length - MAX_ATTENTION_EVENTS) events).symm ▸ hincreasing)
    have hearlier : event.id < event.id := hsplit.2.2 event hevent event hheld
    exact Nat.lt_irrefl event.id hearlier
  calc toldOf key (boundedHistory events)
    _ = toldOf key (events.take (events.length - MAX_ATTENTION_EVENTS)) ++
          toldOf key (boundedHistory events) := by rw [hdropped, List.nil_append]
    _ = toldOf key events := by
        rw [← toldOf_append, boundedHistory, List.take_append_drop]

/-! ### The indices there are -/

/-- The indices a daemon comes by: the one it starts with, those that observing a federation and what a
person does make of them, and those that are read back of what was written. -/
inductive Reached : AttentionIndex → Prop
  | default : Reached default
  | observe {self : AttentionIndex} (clock : ℕ → ℕ) (state : FederationState) :
      Reached self → Reached (self.observe clock state).1.1
  | markSeenForPane {self : AttentionIndex} (pane : PaneId) :
      Reached self → Reached (self.markSeenForPane pane).1
  | markAllSeen {self : AttentionIndex} : Reached self → Reached self.markAllSeen.1
  | clearSeen {self : AttentionIndex} : Reached self → Reached self.clearSeen.1
  | restart {self restored : AttentionIndex} : Reached self →
      (PersistedAttention.of self).toIndex = .ok restored → Reached restored

theorem Reached.regular (h : Reached self) : self.Regular := by
  induction h with
  | default => exact regular_default
  | observe clock state _ ih => exact (grows_observe clock _ state ih.bounded).regular ih
  | markSeenForPane pane _ ih => exact ih.markSeenForPane pane
  | markAllSeen _ ih => exact ih.markAllSeen
  | clearSeen _ ih => exact ih.clearSeen
  | restart _ hload ih => exact Attentive.regular_of_loaded ih hload

theorem Reached.filed (h : Reached self) : Filed self.observations := by
  induction h with
  | default => exact filed_empty
  | observe clock state _ ih => exact filed_observe clock ih state
  | markSeenForPane pane _ ih => exact ih
  | markAllSeen _ ih => exact ih
  | clearSeen _ ih => exact ih
  | restart _ hload _ => exact Attentive.filed_of_toIndex hload

/-- **What an observation derives.** The same federation again changes nothing. There is an event only
for a pane that was observed before and whose target is live, at most one for each pane, and it is a
disappearance if and only if the snapshot lacks the pane. The history stays numbered upwards and
bounded. And what is told of one target, over any run, does not depend on the others: neither what
is pushed nor, as long as the bound drops none of it, what the history holds. -/
theorem observe_derives {self : AttentionIndex} (h : Reached self) (clock : ℕ → ℕ)
    {state : FederationState} (hkeyed : state.Keyed) :
    (∀ clock' : ℕ → ℕ, (self.observe clock state).1.1.observe clock' state =
      (((self.observe clock state).1.1, false), [])) ∧
    ((self.observe clock state).2.map AttentionEvent.pane).Nodup ∧
    (∀ event ∈ (self.observe clock state).2,
      event.pane ∈ self.observations ∧ ∃ target snapshot,
        state.targets[event.pane.targetSession]? = some target ∧ target.connection = .live ∧
          target.snapshot = some snapshot ∧
          (event.kind = .disappeared ↔ event.pane ∉ snapshot.agents)) ∧
    (self.events ++ (self.observe clock state).2).Pairwise AttentionEvent.Earlier ∧
    (self.observe clock state).1.1.events =
      boundedHistory (self.events ++ (self.observe clock state).2) ∧
    (self.observe clock state).1.1.Regular ∧
    ∀ {other : AttentionIndex}, Reached other → ∀ {key : TargetSession}, HeldAlike key self other →
      ∀ (clock' : ℕ → ℕ) (states states' : List FederationState),
        List.Forall₂ (Agree key) states states' →
        toldOf key (exec (observing clock) self states).2 =
          toldOf key (exec (observing clock') other states').2 ∧
        (toldOf key self.events = toldOf key other.events →
          (∀ event ∈ self.events ++ (exec (observing clock) self states).2,
            event.pane.targetSession = key →
              event ∈ (exec (observing clock) self states).1.events) →
          (∀ event ∈ other.events ++ (exec (observing clock') other states').2,
            event.pane.targetSession = key →
              event ∈ (exec (observing clock') other states').1.events) →
          toldOf key (exec (observing clock) self states).1.events =
            toldOf key (exec (observing clock') other states').1.events) := by
  have hgrows := grows_observe clock self state h.regular.bounded
  refine ⟨fun clock' => observe_again clock clock' h.filed h.regular.bounded hkeyed,
    nodup_panes_observe clock h.filed state, fun event he => mem_observe clock h.filed hkeyed he,
    hgrows.pairwise h.regular, hgrows.events, hgrows.regular h.regular, ?_⟩
  intro other h' key hheld clock' states states' hstates
  have htold := toldOf_exec_congr clock clock' h.filed h'.filed hheld hstates
  refine ⟨htold, fun hhistory hkept hkept' => ?_⟩
  have hrun := grows_observing clock h.regular.bounded states
  have hrun' := grows_observing clock' h'.regular.bounded states'
  rw [hrun.events] at hkept ⊢
  rw [hrun'.events] at hkept' ⊢
  rw [toldOf_boundedHistory (hrun.pairwise h.regular) hkept,
    toldOf_boundedHistory (hrun'.pairwise h'.regular) hkept', toldOf_append, toldOf_append,
    hhistory, htold]

/-- A pane of another target. -/
def atticPane : PaneId := ⟨"attic", "main", "1-1"⟩

/-- A federation with one target more, on which an agent has this status. -/
def besideAttic (state : FederationState) (status : String) : FederationState :=
  let agent : AgentState := ⟨atticPane, some "codex", none, some status, none, none, none⟩
  let snapshot : NormalizedSnapshot :=
    ⟨none, none, none, ∅, ⟨0, 0, 0, 0⟩, none, none, none, ∅, ∅, ∅, ∅,
      ExtTreeMap.empty.insert atticPane agent, ∅⟩
  ⟨state.revision, state.targets.insert atticPane.targetSession
    ⟨atticPane.targetSession, "attic", .live, .polling, none, 1, none, [], some snapshot, none,
      none, none⟩⟩

/-- An agent goes to work and is gone, alone and beside another target whose agent is blocked and is
gone with it. -/
theorem observe_derives_beside :
    let alone := [Attentive.hosting [Attentive.agentAs "idle" none],
      Attentive.hosting [Attentive.agentAs "working" none], Attentive.hosting []]
    let beside := [besideAttic (Attentive.hosting [Attentive.agentAs "idle" none]) "working",
      besideAttic (Attentive.hosting [Attentive.agentAs "working" none]) "blocked",
      Attentive.hosting []]
    toldOf Broker.pane₁.targetSession (exec (observing id) default alone).2 =
        toldOf Broker.pane₁.targetSession (exec (observing id) default beside).2 ∧
      (exec (observing id) default alone).2.map AttentionEvent.told =
        [(Broker.pane₁, .working), (Broker.pane₁, .disappeared)] ∧
      (exec (observing id) default beside).2.map AttentionEvent.told =
        [(atticPane, .needsAttention), (Broker.pane₁, .working), (Broker.pane₁, .disappeared)] := by
  intro alone beside
  refine ⟨?_, by decide +kernel, by decide +kernel⟩
  have hkeyed : (Attentive.hosting []).Keyed := by decide +kernel
  obtain ⟨-, -, -, -, -, -, htold⟩ := observe_derives Reached.default id hkeyed
  refine (htold Reached.default (fun _ _ => rfl) id alone beside ?_).1
  refine .cons ⟨?_, ?_, ?_⟩ (.cons ⟨?_, ?_, ?_⟩ (.cons ⟨?_, ?_, ?_⟩ .nil))
  all_goals decide +kernel

end AttentionIndex

end SuperHerdr
