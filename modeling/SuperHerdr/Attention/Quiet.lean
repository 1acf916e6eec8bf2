import SuperHerdr.Attention.Delivery
import SuperHerdr.Library.KeyedMaps

/-!
# A quiet agent and the devices

Marks are stored under the identity an agent's cards are published with. When an event is offered
to the devices, the identity is recomputed from its pane and the federation as it is now: right
as long as the agent is there, and for an agent without a session also when it is gone. The
event that reports that an agent with a session left its pane is looked up under another
identity, the pane's.

`identify` remembers, beside the run, which agent was last seen in each pane. `quiet_agents` says
that no device is alerted against the marks of the agent an event is about, in every run in which
an agent that leaves is as quiet under its pane's identity; `muted_agent_alerts` is a run in which
it is not.
-/

namespace SuperHerdr

open Std Transducer

variable {E : Emulator}

/-! ### The federation files things under their own names -/

/-- Every target is filed under its key, and every agent under its pane and its target. -/
def FederationState.Keyed (state : FederationState) : Prop :=
  ∀ entry ∈ state.targets.toList, entry.2.key = entry.1 ∧
    ∀ snapshot ∈ entry.2.snapshot, ∀ held ∈ snapshot.agents.toList,
      held.2.pane = held.1 ∧ held.1.targetSession = entry.1

instance (state : FederationState) : Decidable state.Keyed :=
  inferInstanceAs (Decidable (∀ entry ∈ state.targets.toList, _))

/-- The agent a live target reports in a pane. -/
def FederationState.liveAgent (state : FederationState) (pane : PaneId) : Option AgentState :=
  state.targets[pane.targetSession]?.bind fun target =>
    target.liveSnapshot.bind fun snapshot => snapshot.agents[pane]?

theorem TargetRuntimeState.liveSnapshot_eq_some {target : TargetRuntimeState}
    {snapshot : NormalizedSnapshot} :
    target.liveSnapshot = some snapshot ↔
      target.connection = .live ∧ target.snapshot = some snapshot := by
  rw [liveSnapshot]
  split
  · next hlive => simp [hlive]
  · next hlive => simp [hlive]

namespace FederationState

variable {state : FederationState}

theorem Keyed.key (h : state.Keyed) {key : TargetSession}
    {target : TargetRuntimeState} (htarget : state.targets[key]? = some target) :
    target.key = key :=
  (h (key, target) (ExtTreeMap.mem_toList_iff_getElem?_eq_some.mpr htarget)).1

theorem Keyed.agent (h : state.Keyed) {key : TargetSession}
    {target : TargetRuntimeState} (htarget : state.targets[key]? = some target)
    {snapshot : NormalizedSnapshot} (hsnapshot : target.snapshot = some snapshot) {pane : PaneId}
    {agent : AgentState} (hagent : snapshot.agents[pane]? = some agent) :
    agent.pane = pane ∧ pane.targetSession = key :=
  (h (key, target) (ExtTreeMap.mem_toList_iff_getElem?_eq_some.mpr htarget)).2 snapshot
    (Option.mem_def.mpr hsnapshot) (pane, agent)
    (ExtTreeMap.mem_toList_iff_getElem?_eq_some.mpr hagent)

theorem agentKeyForPane_of_live {pane : PaneId} {agent : AgentState}
    (h : state.liveAgent pane = some agent) : agentKeyForPane state pane = agentKey agent := by
  obtain ⟨target, htarget, hrest⟩ := Option.bind_eq_some_iff.mp h
  obtain ⟨snapshot, hsnapshot, hagent⟩ := Option.bind_eq_some_iff.mp hrest
  have hheld := (TargetRuntimeState.liveSnapshot_eq_some.mp hsnapshot).2
  simp [agentKeyForPane, agentIn, htarget, hheld, hagent]

/-- The observations made now are those of the panes with a live agent. -/
theorem mem_current (h : state.Keyed) {pane : PaneId} :
    pane ∈ state.current ↔ ∃ agent, state.liveAgent pane = some agent := by
  have hfold : ∀ (observations : List AgentObservation)
      (held : ExtTreeMap PaneId AgentObservation),
      pane ∈ observations.foldl (fun held observation => held.insert observation.pane observation)
        held ↔ pane ∈ held ∨ ∃ observation ∈ observations, observation.pane = pane := by
    intro observations
    induction observations with
    | nil => simp
    | cons observation observations ih =>
      intro held
      rw [List.foldl_cons, ih, ExtTreeMap.mem_insert]
      simp only [List.mem_cons, exists_eq_or_imp, LawfulEqCmp.compare_eq_iff_eq]
      tauto
  have hreported : (∃ observation ∈ state.reported, observation.pane = pane) ↔
      ∃ agent, state.liveAgent pane = some agent := by
    constructor
    · rintro ⟨observation, hobservation, rfl⟩
      obtain ⟨⟨key, target⟩, htarget, hreports⟩ := List.mem_flatMap.mp hobservation
      replace htarget := ExtTreeMap.mem_toList_iff_getElem?_eq_some.mp htarget
      simp only at hreports
      split at hreports
      · next snapshot hsnapshot =>
        obtain ⟨⟨pane, agent⟩, hagent, rfl⟩ := List.mem_map.mp hreports
        replace hagent := ExtTreeMap.mem_toList_iff_getElem?_eq_some.mp hagent
        obtain ⟨hpane, rfl⟩ := h.agent htarget
          (TargetRuntimeState.liveSnapshot_eq_some.mp hsnapshot).2 hagent
        refine ⟨agent, ?_⟩
        simp [NormalizedSnapshot.observation, liveAgent, hpane, htarget, hsnapshot, hagent]
      · cases hreports
    · rintro ⟨agent, hlive⟩
      obtain ⟨target, htarget, hrest⟩ := Option.bind_eq_some_iff.mp hlive
      obtain ⟨snapshot, hsnapshot, hagent⟩ := Option.bind_eq_some_iff.mp hrest
      refine ⟨snapshot.observation agent, List.mem_flatMap.mpr ⟨(pane.targetSession, target),
        ExtTreeMap.mem_toList_iff_getElem?_eq_some.mpr htarget, ?_⟩, ?_⟩
      · simp only [hsnapshot]
        exact List.mem_map.mpr
          ⟨(pane, agent), ExtTreeMap.mem_toList_iff_getElem?_eq_some.mpr hagent, rfl⟩
      · exact (h.agent htarget (TargetRuntimeState.liveSnapshot_eq_some.mp hsnapshot).2 hagent).1
  rw [current, hfold, hreported]
  simp

/-- A pane of a live session that has no live agent is known by its own identity. -/
theorem agentKeyForPane_of_gone (h : state.Keyed) {pane : PaneId}
    (hsession : pane.targetSession ∈ state.liveSessions) (hgone : state.liveAgent pane = none) :
    agentKeyForPane state pane = paneAgentKey pane := by
  obtain ⟨⟨key, target⟩, htarget, hlive⟩ := List.mem_filterMap.mp hsession
  obtain ⟨snapshot, hsnapshot, hkey⟩ := Option.map_eq_some_iff.mp hlive
  replace htarget := ExtTreeMap.mem_toList_iff_getElem?_eq_some.mp htarget
  have hkeyed := h.key htarget
  obtain rfl : key = pane.targetSession := hkeyed.symm.trans hkey
  have hheld := (TargetRuntimeState.liveSnapshot_eq_some.mp hsnapshot).2
  have hnone : snapshot.agents[pane]? = none := by
    simpa [liveAgent, htarget, hsnapshot] using hgone
  simp [agentKeyForPane, agentIn, htarget, hheld, hnone]

end FederationState

/-! ### Panes under their own names -/

/-- Every observation is held under its pane. -/
def Filed (observations : ExtTreeMap PaneId AgentObservation) : Prop :=
  ∀ (pane : PaneId) (observation : AgentObservation), observations[pane]? = some observation →
    observation.pane = pane

theorem filed_empty : Filed ∅ := fun pane observation h => by simp at h

variable {observations : ExtTreeMap PaneId AgentObservation}

theorem Filed.insert (h : Filed observations) (observation : AgentObservation) :
    Filed (observations.insert observation.pane observation) := by
  intro pane held hheld
  rw [ExtTreeMap.getElem?_insert] at hheld
  split at hheld
  · next hpane =>
    rw [← Option.some.inj hheld]
    exact LawfulEqCmp.compare_eq_iff_eq.mp hpane
  · exact h pane held hheld

theorem Filed.erase (h : Filed observations) (pane : PaneId) : Filed (observations.erase pane) := by
  intro other held hheld
  rw [ExtTreeMap.getElem?_erase] at hheld
  split at hheld
  · cases hheld
  · exact h other held hheld

theorem filed_foldl_insert (reported : List AgentObservation) (h : Filed observations) :
    Filed (reported.foldl (fun held observation => held.insert observation.pane observation)
      observations) :=
  List.foldlRecOn reported _ h fun _ hheld observation _ => hheld.insert observation

theorem filed_current (state : FederationState) : Filed state.current :=
  filed_foldl_insert state.reported filed_empty

/-! ### What an observation pushes -/

namespace AttentionIndex

variable {s : AttentionIndex × Bool}

variable (clock : ℕ → ℕ)

theorem filed_notice (h : Filed s.1.observations)
    (observation : AgentObservation) : Filed (notice clock s observation).1.1.observations := by
  obtain ⟨self, changed⟩ := s
  simp only [notice]
  cases self.observations[observation.pane]? with
  | none => exact h.insert observation
  | some previous =>
    cases hkind : transitionKind previous observation with
    | none =>
      simp only [hkind]
      split
      · exact h.insert observation
      · exact h
    | some kind =>
      simp only [hkind]
      split
      · exact h.insert observation
      · exact h

/-- One observation is remembered for its own pane, and for no other. -/
theorem mem_notice (s : AttentionIndex × Bool) (observation : AgentObservation)
    {pane : PaneId} (hpane : pane ∈ (notice clock s observation).1.1.observations) :
    pane ∈ s.1.observations ∨ pane = observation.pane := by
  obtain ⟨self, changed⟩ := s
  have hinsert : pane ∈ self.observations.insert observation.pane observation →
      pane ∈ self.observations ∨ pane = observation.pane := by
    intro hmem
    rw [ExtTreeMap.mem_insert, LawfulEqCmp.compare_eq_iff_eq] at hmem
    exact hmem.symm.imp_right Eq.symm
  simp only [notice] at hpane
  cases hprevious : self.observations[observation.pane]? with
  | none =>
    rw [hprevious] at hpane
    exact hinsert hpane
  | some previous =>
    simp only [hprevious] at hpane
    cases hkind : transitionKind previous observation with
    | none =>
      simp only [hkind] at hpane
      split at hpane
      · exact hinsert hpane
      · exact .inl hpane
    | some kind =>
      simp only [hkind] at hpane
      split at hpane
      · exact hinsert hpane
      · exact .inl hpane

theorem transitionKind_ne_disappeared (previous current : AgentObservation) :
    transitionKind previous current ≠ some .disappeared := by
  simp only [transitionKind]
  split
  · split <;> simp
  · cases agentPhase current.status current.interactiveReady with
    | attention | working | unknown => simp
    | idle =>
      simp only
      split <;> simp

theorem mem_notice_snd (s : AttentionIndex × Bool)
    (observation : AgentObservation) {event : AttentionEvent}
    (he : event ∈ (notice clock s observation).2) :
    event.pane = observation.pane ∧ event.kind ≠ .disappeared := by
  obtain ⟨self, changed⟩ := s
  simp only [notice] at he
  cases hprevious : self.observations[observation.pane]? with
  | none =>
    rw [hprevious] at he
    cases he
  | some previous =>
    simp only [hprevious] at he
    cases hkind : transitionKind previous observation with
    | none =>
      simp only [hkind] at he
      split at he <;> cases he
    | some kind =>
      have hevent : event ∈ (self.pushEvent clock observation kind).2 := by
        simp only [hkind] at he
        split at he <;> exact he
      rw [pushEvent, List.mem_singleton] at hevent
      rw [hevent]
      refine ⟨rfl, ?_⟩
      rintro rfl
      exact transitionKind_ne_disappeared previous observation hkind

theorem filed_lose (h : Filed s.1.observations)
    (pane : PaneId) : Filed (lose clock s pane).1.1.observations := by
  obtain ⟨self, changed⟩ := s
  simp only [lose]
  cases self.observations[pane]? with
  | none => exact h
  | some observation => exact h.erase pane

theorem mem_lose_snd (h : Filed s.1.observations)
    {pane : PaneId} {event : AttentionEvent} (he : event ∈ (lose clock s pane).2) :
    event.pane = pane ∧ event.kind = .disappeared := by
  obtain ⟨self, changed⟩ := s
  simp only [lose] at he
  cases hobserved : self.observations[pane]? with
  | none =>
    rw [hobserved] at he
    cases he
  | some observation =>
    simp only [hobserved, pushEvent, List.mem_singleton] at he
    rw [he]
    exact ⟨h pane observation hobserved, rfl⟩

theorem filed_observe {self : AttentionIndex} (h : Filed self.observations)
    (state : FederationState) : Filed (self.observe clock state).1.1.observations := by
  have hnoticed : Filed (exec (notice clock) (self, false) state.current.values).1.1.observations :=
    exec_invariant (I := fun s : AttentionIndex × Bool => Filed s.1.observations)
      (fun s observation hs => filed_notice clock hs observation) h _
  have hlost := exec_invariant (I := fun s : AttentionIndex × Bool => Filed s.1.observations)
    (fun s pane hs => filed_lose clock hs pane) hnoticed
    ((exec (notice clock) (self, false) state.current.values).1.1.disappeared state)
  exact List.foldlRecOn _ _ hlost fun _ hheld pane _ => hheld.erase pane

/-- **What an observation pushes** is about a pane whose agent is reported now, or is the
disappearance of an agent observed before, from a live session that no longer reports it. -/
theorem mem_observe_snd {self : AttentionIndex} (h : Filed self.observations)
    (state : FederationState) {event : AttentionEvent}
    (he : event ∈ (self.observe clock state).2) :
    event.kind ≠ .disappeared ∧ event.pane ∈ state.current ∨
      event.kind = .disappeared ∧ event.pane ∈ self.disappeared state := by
  have hvalues : ∀ observation ∈ state.current.values, observation.pane ∈ state.current := by
    intro observation hobservation
    rw [KeyedMap.values_eq_map_toList] at hobservation
    obtain ⟨⟨pane, held⟩, hheld, rfl⟩ := List.mem_map.mp hobservation
    replace hheld := ExtTreeMap.mem_toList_iff_getElem?_eq_some.mp hheld
    rw [filed_current state pane held hheld]
    exact ExtTreeMap.mem_iff_isSome_getElem?.mpr (by rw [hheld]; rfl)
  rcases List.mem_append.mp he with he | he
  · obtain ⟨before, observation, later, hsplit, hevent⟩ := mem_exec_snd he
    obtain ⟨hpane, hkind⟩ := mem_notice_snd clock _ observation hevent
    refine .inl ⟨hkind, ?_⟩
    rw [hpane]
    exact hvalues observation (by rw [hsplit]; simp)
  · obtain ⟨before, pane, later, hsplit, hevent⟩ := mem_exec_snd he
    have hnoticed :
        Filed (exec (notice clock) (self, false) state.current.values).1.1.observations :=
      exec_invariant (I := fun s : AttentionIndex × Bool => Filed s.1.observations)
        (fun s observation hs => filed_notice clock hs observation) h _
    have hfiled := exec_invariant (I := fun s : AttentionIndex × Bool => Filed s.1.observations)
      (fun s pane hs => filed_lose clock hs pane) hnoticed before
    obtain ⟨rfl, hkind⟩ := mem_lose_snd clock hfiled hevent
    have hmem : event.pane ∈ (exec (notice clock) (self, false)
        state.current.values).1.1.disappeared state := by
      rw [hsplit]
      simp
    obtain ⟨hkey, hgone⟩ := List.mem_filter.mp hmem
    refine .inr ⟨hkind, List.mem_filter.mpr ⟨?_, hgone⟩⟩
    -- noticing adds panes that are reported now, and this one is not
    have hremembered : ∀ (observations : List AgentObservation) (s : AttentionIndex × Bool),
        (∀ observation ∈ observations, observation.pane ∈ state.current) →
        event.pane ∈ (exec (notice clock) s observations).1.1.observations →
        event.pane ∈ s.1.observations := by
      intro observations
      induction observations with
      | nil => exact fun s _ hs => hs
      | cons observation observations ih =>
        intro s hreported hs
        have hrest := ih _ (fun other ho => hreported other (List.mem_cons_of_mem _ ho)) hs
        refine (mem_notice clock s observation hrest).resolve_right fun heq => ?_
        have hnow := hreported observation List.mem_cons_self
        rw [← heq] at hnow
        simp [hnow] at hgone
    exact ExtTreeMap.mem_keys.mpr
      (hremembered _ (self, false) hvalues (ExtTreeMap.mem_keys.mp hkey))

end AttentionIndex

/-! ### Who is alerted -/

/-- The events among what a run did that were queued for the devices, in order. -/
def alerted (acts : List Act) : List AttentionEvent :=
  acts.filterMap fun
    | .alerted event => some event
    | _ => none

theorem alerted_append (acts later : List Act) :
    alerted (acts ++ later) = alerted acts ++ alerted later :=
  List.filterMap_append

theorem mem_alerted {acts : List Act} {event : AttentionEvent} :
    event ∈ alerted acts ↔ .alerted event ∈ acts := by
  rw [alerted, List.mem_filterMap]
  constructor
  · rintro ⟨act, hact, heq⟩
    cases act with
    | alerted held =>
      rw [← Option.some.inj heq]
      exact hact
    | sent | broadcast => cases heq
  · exact fun hact => ⟨.alerted event, hact, rfl⟩

theorem alerted_map_ofSent (sent : List (ClientId × ServerMessage)) :
    alerted (sent.map Act.ofSent) = [] := by
  rw [alerted, List.filterMap_map]
  exact List.filterMap_eq_nil_iff.mpr fun _ _ => rfl

theorem alerted_map_broadcast (events : List AttentionEvent) :
    alerted (events.map Act.broadcast) = [] := by
  rw [alerted, List.filterMap_map]
  exact List.filterMap_eq_nil_iff.mpr fun _ _ => rfl

theorem NotificationQueue.enqueue_queued {queue : NotificationQueue} {event : AttentionEvent}
    (h : (queue.enqueue event).2 = true) :
    queue.config.enabled = true ∧ shouldNotify queue.config event.kind = true := by
  rw [enqueue] at h
  split at h
  · cases h
  · simp only at h
    split at h
    · cases h
    · next hwanted => simpa using hwanted

theorem NotificationQueue.config_enqueue (queue : NotificationQueue) (event : AttentionEvent) :
    (queue.enqueue event).1.config = queue.config := by
  rw [enqueue]
  split
  · rfl
  · simp only
    split <;> rfl

namespace Attentive

theorem config_offer (state : FederationState) (marks : AgentMarks) (nowMs : ℕ)
    (queue : NotificationQueue) (event : AttentionEvent) :
    (offer state marks nowMs queue event).1.config = queue.config := by
  simp only [offer]
  split
  · exact queue.config_enqueue event
  · rfl

/-- An event that is offered and queued is one of those offered; its agent, as the federation has
it now, may notify, and the devices want events of its kind. -/
theorem mem_alerted_offers {state : FederationState} {marks : AgentMarks} {nowMs : ℕ}
    {queue : NotificationQueue} {events : List AttentionEvent} {event : AttentionEvent}
    (h : event ∈ alerted (exec (offer state marks nowMs) queue events).2) :
    event ∈ events ∧
      (marks.state (agentKeyForPane state event.pane)).mayNotify (event.kind = .needsAttention)
        nowMs = true ∧
      queue.config.enabled = true ∧ shouldNotify queue.config event.kind = true := by
  obtain ⟨before, offered, later, hsplit, hact⟩ := mem_exec_snd (mem_alerted.mp h)
  have hconfig : (exec (offer state marks nowMs) queue before).1.config = queue.config :=
    exec_invariant (I := fun held : NotificationQueue => held.config = queue.config)
      (fun held event hheld => (config_offer state marks nowMs held event).trans hheld) rfl before
  generalize exec (offer state marks nowMs) queue before = earlier at hact hconfig
  simp only [offer] at hact
  split_ifs at hact with hmay hqueued
  · obtain rfl := Act.alerted.inj (List.mem_singleton.mp hact)
    obtain ⟨henabled, hwanted⟩ := NotificationQueue.enqueue_queued hqueued
    rw [hconfig] at henabled hwanted
    exact ⟨by rw [hsplit]; simp, hmay, henabled, hwanted⟩
  · cases hact
  · cases hact

/-! ### What a step takes -/

/-- The update of the federation that a step takes from the queue, if it takes one. -/
def taking (a : Attentive E) (move : Daemon.Move × Reading) : Option FederationState :=
  match move.1, a.daemon.pending, a.daemon.inputs with
  | .next, [], ⟨.federation state, _⟩ :: _ => some state
  | _, _, _ => none

variable {move : Daemon.Move × Reading} {a : Attentive E}

variable (clock : ℕ → ℕ)

/-- A step that takes an update observes it, and does nothing else that alerts. -/
theorem step_of_taking (spawn : ℕ → Spawning) (ha : a.Attuned) {state : FederationState}
    (h : a.taking move = some state) :
    (∃ queued ∈ a.daemon.inputs, queued.input = .federation state) ∧
      ∃ daemon, ({ a with state, daemon } : Attentive E).Attuned ∧
        step clock spawn a move =
          ((observeAttention clock move.2.nowMs { a with state, daemon }).1.projectAgentCards
            move.2, (observeAttention clock move.2.nowMs { a with state, daemon }).2) := by
  obtain ⟨move, reading⟩ := move
  simp only [taking] at h
  split at h
  · next taken origin inputs hpending hinputs =>
    obtain rfl : taken = state := Option.some.inj h
    refine ⟨⟨_, by rw [hinputs]; exact List.mem_cons_self, rfl⟩, ?_⟩
    refine ⟨_, ⟨ha.regular, ha.behind, ha.reached, ?_⟩, by
      simp only [step, hpending, hinputs, handle]; rfl⟩
    obtain ⟨haudience, -⟩ := a.daemon.broker.unattended_federationUpdated taken
    exact fun client hc => ha.connected client (haudience.mem hc)
  · cases h

theorem observations_adopt (reading : Reading) (a : Attentive E) (result : AttentionIndex × Bool) :
    (a.adopt reading result).attention = result.1 := by
  simp only [adopt]
  split <;> rfl

/-- An effect neither observes nor alerts. -/
theorem perform_overlooks (spawn : ℕ → Spawning) (reading : Reading) (a : Attentive E)
    (effect : Effect) :
    (a.perform spawn reading effect).1.attention.observations = a.attention.observations ∧
      alerted (a.perform spawn reading effect).2 = [] := by
  have hdeliver : ∀ (a : Attentive E) client message, alerted (a.deliver client message) = [] := by
    intro a client message
    rw [deliver]
    split <;> rfl
  cases effect with
  | markAgent client request agent mark =>
    refine ⟨?_, hdeliver _ client _⟩
    simp only [perform]
    split <;> rfl
  | markAttentionSeen | markAllAttentionSeen | clearSeenAttention =>
    simp only [perform, observations_adopt]
    exact ⟨rfl, rfl⟩
  | sendAttentionHistory client => exact ⟨rfl, hdeliver a client _⟩
  | _ => exact ⟨rfl, alerted_map_ofSent _⟩

/-- A step that takes no update neither observes nor alerts. -/
theorem step_of_not_taking (spawn : ℕ → Spawning) (h : a.taking move = none) :
    (step clock spawn a move).1.attention.observations = a.attention.observations ∧
      alerted (step clock spawn a move).2 = [] := by
  obtain ⟨move, reading⟩ := move
  cases move with
  | next =>
    cases hpending : a.daemon.pending with
    | cons effect pending =>
      simp only [step, hpending]
      exact perform_overlooks spawn reading _ effect
    | nil =>
      cases hinputs : a.daemon.inputs with
      | nil =>
        simp only [step, hpending, hinputs]
        exact ⟨trivial, rfl⟩
      | cons queued inputs =>
        obtain ⟨input, origin⟩ := queued
        simp only [step, hpending, hinputs]
        cases input with
        | federation state => simp [taking, hpending, hinputs] at h
        | _ => exact ⟨rfl, rfl⟩
  | arrive | read | ended =>
    simp only [step]
    exact ⟨trivial, alerted_map_ofSent _⟩

/-! ### What arrives -/

/-- The update of the federation that a move brings, if it brings one. -/
def brings (move : Daemon.Move × Reading) : Option FederationState :=
  match move.1 with
  | .arrive (.federation state) => some state
  | _ => none

/-- Every update in the queue files things under their own names. -/
def Files (a : Attentive E) : Prop :=
  ∀ queued ∈ a.daemon.inputs, ∀ state, queued.input = .federation state → state.Keyed

theorem Files.of_inputs {a a' : Attentive E} (h : a.Files)
    (hinputs : ∀ queued ∈ a'.daemon.inputs, queued ∈ a.daemon.inputs ∨
      queued.input.route ≠ none) : a'.Files := by
  intro queued hqueued state hstate
  refine (hinputs queued hqueued).elim (fun hheld => h queued hheld state hstate) fun hroute => ?_
  rw [hstate] at hroute
  exact absurd rfl hroute

theorem files_perform (spawn : ℕ → Spawning) (reading : Reading) (h : a.Files)
    (effect : Effect) : (a.perform spawn reading effect).1.Files := by
  refine h.of_inputs fun queued hqueued => ?_
  cases effect with
  | openRoute pane access cols rows =>
    simp only [perform, Daemon.perform, Daemon.openRoute] at hqueued
    split at hqueued
    · rcases List.mem_append.mp hqueued with hheld | hclosed
      · exact .inl hheld
      · rw [List.mem_singleton.mp hclosed]
        exact .inr (by simp [Input.route])
    · exact .inl hqueued
    · exact .inl hqueued
  | markAgent client request agent mark =>
    simp only [perform] at hqueued
    split at hqueued <;> exact .inl hqueued
  | markAttentionSeen | markAllAttentionSeen | clearSeenAttention =>
    simp only [perform, adopt] at hqueued
    split at hqueued <;> exact .inl hqueued
  | _ => exact .inl hqueued

theorem Files.step (spawn : ℕ → Spawning) (h : a.Files) (hkeyed : ∀ state ∈ brings move, state.Keyed) :
    (step clock spawn a move).1.Files := by
  obtain ⟨move, reading⟩ := move
  cases move with
  | next =>
    cases hpending : a.daemon.pending with
    | cons effect pending =>
      simp only [Attentive.step, hpending]
      have hreported : ({ a with daemon := { a.daemon with pending }.reportDowngraded } :
          Attentive E).Files := h
      exact files_perform spawn reading hreported effect
    | nil =>
      cases hinputs : a.daemon.inputs with
      | nil =>
        simp only [Attentive.step, hpending, hinputs]
        exact h
      | cons queued inputs =>
        refine h.of_inputs fun other hother => .inl ?_
        rw [hinputs]
        refine List.mem_cons_of_mem _ ?_
        simp only [Attentive.step, hpending, hinputs, handle] at hother
        cases hinput : queued.input with
        | federation state =>
          simp only [hinput, projectAgentCards, observeAttention] at hother
          split at hother <;> exact hother
        | connected gone =>
          simp only [hinput, Daemon.handle] at hother
          split at hother <;> exact hother
        | _ =>
          simp only [hinput] at hother
          exact hother
  | arrive input =>
    intro queued hqueued state hstate
    simp only [Attentive.step, Daemon.step] at hqueued
    split at hqueued
    · rcases List.mem_append.mp hqueued with hheld | harrived
      · exact h queued hheld state hstate
      · rw [List.mem_singleton.mp harrived] at hstate
        simp only at hstate
        subst hstate
        exact hkeyed state rfl
    · exact h queued hqueued state hstate
  | read opening sequence width height full bytes =>
    refine h.of_inputs fun queued hqueued => ?_
    simp only [Attentive.step, Daemon.step, Daemon.enqueue] at hqueued
    split at hqueued
    · rcases List.mem_append.mp hqueued with hheld | hread
      · exact .inl hheld
      · rw [List.mem_singleton.mp hread]
        exact .inr (by simp [Input.route])
    · exact .inl hqueued
  | ended opening =>
    refine h.of_inputs fun queued hqueued => ?_
    simp only [Attentive.step, Daemon.step, Daemon.enqueue] at hqueued
    split at hqueued
    · rcases List.mem_append.mp hqueued with hheld | hended
      · exact .inl hheld
      · rw [List.mem_singleton.mp hended]
        exact .inr (by simp [Input.route])
    · exact .inl hqueued

/-! ### Quiet agents -/

/-- Which agent was last reported live in each pane. -/
def identify (identity : PaneId → AgentId) (a : Attentive E) (move : Daemon.Move × Reading)
    (_ : Attentive E × List Act) : PaneId → AgentId :=
  match a.taking move with
  | some state => fun pane => ((state.liveAgent pane).map agentKey).getD (identity pane)
  | none => identity

/-- Every alert is about an agent that may notify, by its own marks. -/
def Considerate (clock : ℕ → ℕ) (spawn : ℕ → Spawning) (s : Attentive E × (PaneId → AgentId))
    (move : Daemon.Move × Reading) : Prop :=
  let done := observe (step clock spawn) identify s move
  ∀ event ∈ alerted done.2,
    (s.1.agentMarks.state (done.1.2 event.pane)).mayNotify (event.kind = .needsAttention)
      move.2.nowMs = true

instance (clock : ℕ → ℕ) (spawn : ℕ → Spawning) (s : Attentive E × (PaneId → AgentId))
    (move : Daemon.Move × Reading) : Decidable (Considerate clock spawn s move) :=
  inferInstanceAs (Decidable (∀ event ∈ alerted _, _))

/-- An agent whose disappearance may not be notified leaves only where an agent without a session
may not notify either, or no device wants to hear of it. -/
def LeavesQuietly (s : Attentive E × (PaneId → AgentId)) (move : Daemon.Move × Reading) : Prop :=
  ∀ state ∈ s.1.taking move, ∀ pane ∈ s.1.attention.disappeared state,
    (s.1.agentMarks.state (s.2 pane)).mayNotify false move.2.nowMs = true ∨
      (s.1.agentMarks.state (paneAgentKey pane)).mayNotify false move.2.nowMs = false ∨
      ¬(s.1.deviceNotifications.config.enabled = true ∧
        s.1.deviceNotifications.config.disappeared = true)

instance (s : Attentive E × (PaneId → AgentId)) (move : Daemon.Move × Reading) :
    Decidable (LeavesQuietly s move) :=
  inferInstanceAs (Decidable (∀ state ∈ s.1.taking move, ∀ pane ∈ s.1.attention.disappeared state,
    _ ∨ _ ∨ _))

/-- What the steps of a run rely on. -/
structure Ready (a : Attentive E) : Prop where
  attuned : a.Attuned
  filed : Filed a.attention.observations
  files : a.Files

theorem Ready.step (spawn : ℕ → Spawning) (h : a.Ready) (hkeyed : ∀ state ∈ brings move, state.Keyed) :
    (step clock spawn a move).1.Ready where
  attuned := (delivers_step clock spawn h.attuned move).attuned
  filed := by
    cases htaking : a.taking move with
    | none =>
      rw [(step_of_not_taking clock spawn htaking).1]
      exact h.filed
    | some state =>
      obtain ⟨-, daemon, -, hstep⟩ := step_of_taking clock spawn h.attuned htaking
      have hobserved := AttentionIndex.filed_observe clock h.filed state
      rw [hstep]
      simp only [projectAgentCards, observeAttention_attention]
      exact hobserved
  files := h.files.step clock spawn hkeyed

/-- What is alerted while an update is taken was pushed by its observation. -/
theorem mem_alerted_observeAttention (nowMs : ℕ) (ha : a.Attuned) {event : AttentionEvent}
    (h : event ∈ alerted (a.observeAttention clock nowMs).2) :
    event ∈ (a.attention.observe clock a.state).2 ∧
      (a.agentMarks.state (agentKeyForPane a.state event.pane)).mayNotify
        (event.kind = .needsAttention) nowMs = true ∧
      a.deviceNotifications.config.enabled = true ∧
      shouldNotify a.deviceNotifications.config event.kind = true := by
  have hgrows := AttentionIndex.grows_observe clock a.attention a.state ha.regular.bounded
  have hfresh := ha.fresh hgrows
  simp only [observeAttention] at h
  split at h
  · cases h
  · rw [alerted_append, alerted_map_broadcast, List.append_nil] at h
    obtain ⟨hoffered, hmay, hwanted⟩ := mem_alerted_offers h
    rw [hfresh] at hoffered
    exact ⟨(boundedHistory_sublist _).subset hoffered, hmay, hwanted⟩

/-- **The step lemma**: a step at which nobody leaves against their marks alerts nobody against
their marks. -/
theorem considerate_step (spawn : ℕ → Spawning)
    {s : Attentive E × (PaneId → AgentId)} (h : s.1.Ready)
    (hleaves : LeavesQuietly s move) : Considerate clock spawn s move := by
  obtain ⟨a, identity⟩ := s
  intro event he
  replace he : event ∈ alerted (step clock spawn a move).2 := he
  cases htaking : a.taking move with
  | none =>
    rw [(step_of_not_taking clock spawn htaking).2] at he
    cases he
  | some state =>
    obtain ⟨⟨queued, hqueued, hinput⟩, daemon, hattuned, hstep⟩ :=
      step_of_taking clock spawn h.attuned htaking
    have hkeyed : state.Keyed := h.files queued hqueued state hinput
    have hidentity : (observe (step clock spawn) identify (a, identity) move).1.2 event.pane =
        ((state.liveAgent event.pane).map agentKey).getD (identity event.pane) := by
      simp only [observe_snd, identify, htaking]
    rw [hstep] at he
    obtain ⟨hpushed, hmay, henabled, hwanted⟩ :=
      mem_alerted_observeAttention clock move.2.nowMs hattuned he
    rw [hidentity]
    rcases AttentionIndex.mem_observe_snd clock h.filed state hpushed with
      ⟨-, hcurrent⟩ | ⟨hkind, hgone⟩
    · -- the agent is there, and has the identity its pane is known by
      obtain ⟨agent, hlive⟩ := (FederationState.mem_current hkeyed).mp hcurrent
      rw [hlive]
      rw [FederationState.agentKeyForPane_of_live hlive] at hmay
      exact hmay
    · -- the agent has left, and its pane is known by its own identity
      obtain ⟨-, hnow⟩ := List.mem_filter.mp hgone
      obtain ⟨hsession, habsent⟩ := of_decide_eq_true hnow
      have hnone : state.liveAgent event.pane = none := by
        refine Option.eq_none_iff_forall_not_mem.mpr fun agent hagent => habsent ?_
        exact (FederationState.mem_current hkeyed).mpr ⟨agent, hagent⟩
      rw [FederationState.agentKeyForPane_of_gone hkeyed hsession hnone, hkind] at hmay
      rw [hkind] at hwanted
      rw [hnone, hkind]
      rcases hleaves state htaking event.pane hgone with hloud | hquiet | hunwanted
      · exact hloud
      · exact absurd (hquiet.symm.trans hmay) Bool.false_ne_true
      · exact absurd ⟨henabled, hwanted⟩ hunwanted

/-! ### Along a run -/

theorem filed_of_toIndex {persisted : PersistedAttention} {restored : AttentionIndex}
    (hload : persisted.toIndex = .ok restored) : Filed restored.observations := by
  rw [PersistedAttention.toIndex] at hload
  split_ifs at hload
  rw [← Except.ok.inj hload]
  exact filed_foldl_insert _ filed_empty

theorem Startable.filed {attention : AttentionIndex} (h : Startable E attention) :
    Filed attention.observations := by
  cases h with
  | fresh => exact filed_empty
  | restored clock spawn serverVersion features quickReplies marks notifications moves _ loaded =>
    exact filed_of_toIndex loaded

theorem ready_new (serverVersion : String) (features : List String)
    (quickReplies : List QuickReply) {attention : AttentionIndex} (h : Startable E attention)
    (marks : AgentMarks) (notifications : NotificationsConfig) :
    (new E serverVersion features quickReplies attention marks notifications).Ready where
  attuned := attuned_new serverVersion features quickReplies h.regular marks notifications
  filed := h.filed
  files queued hqueued := by cases hqueued

/-- **A quiet agent alerts nobody**, in every run in which no agent leaves a pane against its
marks while an agent without a session would be heard of there. -/
theorem quiet_agents (clock : ℕ → ℕ) (spawn : ℕ → Spawning) (serverVersion : String)
    (features : List String) (quickReplies : List QuickReply) (marks : AgentMarks)
    (notifications : NotificationsConfig) {attention : AttentionIndex}
    (hstart : Startable E attention) (identity : PaneId → AgentId)
    (moves : List (Daemon.Move × Reading))
    (hkeyed : ∀ move ∈ moves, ∀ state ∈ brings move, state.Keyed)
    (hleaves : AllSteps (observe (step clock spawn) identify) LeavesQuietly
      (new E serverVersion features quickReplies attention marks notifications, identity) moves) :
    AllSteps (observe (step clock spawn) identify) (Considerate clock spawn)
      (new E serverVersion features quickReplies attention marks notifications, identity) moves := by
  refine allSteps_of_allSteps (I := fun s => s.1.Ready)
    (fun s move hready hmove => hready.step clock spawn hmove.1)
    (fun s move hready hmove => considerate_step clock spawn hready hmove.2)
    (ready_new serverVersion features quickReplies hstart marks notifications)
    (allSteps_and_of_forall hkeyed hleaves)

/-! ### A run -/

/-- A conversation that Herdr reports. -/
def conversation : AgentSessionRef := ⟨"herdr:claude", "claude", "id", "4f1c"⟩

/-- An agent is seen at rest and at work, is muted, and is gone. -/
def mutedAndGone (session : Option AgentSessionRef) : List (Daemon.Move × Reading) :=
  served (.connected false) 0 ++ served (.received 0 (.hello PROTOCOL_VERSION "tui")) 1 ++
    served (.federation (hosting [agentAs "idle" session])) 0 ++
    served (.federation (hosting [agentAs "working" session])) 0 ++
    served (.received 0 (.markAgent 1 (agentKey (agentAs "working" session)) (.mute true))) 2 ++
    served (.federation (hosting [])) 0

/-- A daemon that knows no agent yet, and the panes' own identities. -/
def unacquainted : Attentive teletype × (PaneId → AgentId) :=
  (new teletype "0.9.0" [] [] .default .default alerts, paneAgentKey)

/-- The devices hear an agent without a session go to work, and not that it is gone. -/
theorem quiet_agents_paned :
    AllSteps (observe (step id Daemon.obliging) identify) (Considerate id Daemon.obliging)
        unacquainted (mutedAndGone none) ∧
      (alerted (exec (step id Daemon.obliging) unacquainted.1 (mutedAndGone none)).2).map
        AttentionEvent.kind = [.working] :=
  ⟨quiet_agents id Daemon.obliging "0.9.0" [] [] .default alerts (Startable.fresh (E := teletype))
    paneAgentKey (mutedAndGone none) (by decide +kernel) (by decide +kernel), by decide +kernel⟩

/-- The devices hear that an agent with a session is gone, although it was muted. -/
theorem muted_agent_alerts :
    (∀ move ∈ mutedAndGone (some conversation), ∀ state ∈ brings move, state.Keyed) ∧
      ¬AllSteps (observe (step id Daemon.obliging) identify) (Considerate id Daemon.obliging)
          unacquainted (mutedAndGone (some conversation)) ∧
      (alerted (exec (step id Daemon.obliging) unacquainted.1
        (mutedAndGone (some conversation))).2).map AttentionEvent.kind =
          [.working, .disappeared] := by
  decide +kernel

end Attentive

end SuperHerdr
