import Mathlib.Data.List.Nodup
import SuperHerdr.Attention.Loop

/-!
# Who listens, and what is still owed to them

A client keeps a mirror of the attention index: a history replaces it, a single event is applied
to it (`receive`). It listens once it subscribed to what the daemon observes.

`Follows` relates a listener's mirror to the index while the daemon is busy: the mirror, fed the
effects that are still pending, holds the events of the index. Most pieces of a step leave
attention alone and at most owe a new listener the history (`Advances`); they keep what is owed
right.
-/

namespace SuperHerdr

open Std Transducer

variable {E : Emulator}

/-! ### Who listens -/

/-- The calls that neither connect or disconnect somebody, serve a message nor publish what the
daemon observes. -/
def Event.administrative : Event → Bool
  | .paneFrame _ _ _ _ _ _ | .closeIfUnclaimed _ | .paneRouteClosed _ | .routeDowngraded _
  | .agentCardsUpdated _ | .operationCompleted _ _ _ _ _ => true
  | _ => false

namespace Broker

/-- A client that subscribed to what the daemon observes. -/
def Listens (b : Broker E) (client : ClientId) : Prop :=
  b.clients[client]?.map Client.stateSubscribed = some true

instance (b : Broker E) (client : ClientId) : Decidable (b.Listens client) :=
  inferInstanceAs (Decidable (_ = _))

variable {b : Broker E}

theorem Listens.mem {client : ClientId} (h : b.Listens client) : client ∈ b.clients := by
  obtain ⟨session, hs, -⟩ := Option.map_eq_some_iff.mp h
  exact ExtTreeMap.mem_iff_isSome_getElem?.mpr (by rw [hs]; rfl)

/-- **A broadcast reaches a listener once**, and nobody else who does not listen. -/
theorem foldl_broadcastState {γ : Type*} (b : Broker E) (client : ClientId)
    (message : ServerMessage) {f : γ → Effect → γ}
    (hother : ∀ g receiver, receiver ≠ client → f g (.send receiver message) = g) (g : γ) :
    (b.broadcastState message).foldl f g =
      if b.Listens client then f g (.send client message) else g := by
  split
  · next hlistens =>
    obtain ⟨session, hs, hflag⟩ := Option.map_eq_some_iff.mp hlistens
    have hmem : (client, session) ∈ b.clients.toList :=
      ExtTreeMap.mem_toList_iff_getElem?_eq_some.mpr hs
    obtain ⟨before, later, hsplit⟩ := List.append_of_mem hmem
    have hdistinct := b.clients.distinct_keys_toList
    rw [hsplit, List.pairwise_append, List.pairwise_cons] at hdistinct
    obtain ⟨-, ⟨hlater, -⟩, hbefore⟩ := hdistinct
    -- the other entries of the table have other keys
    have hquiet : ∀ entries : List (ClientId × Client), (∀ entry ∈ entries, entry.1 ≠ client) →
        ∀ g, (entries.filterMap fun entry =>
          if entry.2.stateSubscribed then some (Effect.send entry.1 message) else none).foldl f g =
            g := by
      intro entries hne g
      refine foldl_of_ignored (fun effect he g => ?_) g
      obtain ⟨entry, hentry, hsend⟩ := List.mem_filterMap.mp he
      split_ifs at hsend
      rw [← Option.some.inj hsend]
      exact hother g entry.1 (hne entry hentry)
    have hsent : b.broadcastState message = b.clients.toList.filterMap fun entry =>
        if entry.2.stateSubscribed then some (Effect.send entry.1 message) else none := rfl
    rw [hsent, hsplit, List.filterMap_append, List.foldl_append, hquiet before,
      List.filterMap_cons]
    simp only [hflag, if_true, List.foldl_cons]
    rw [hquiet later]
    · intro entry hentry heq
      exact hlater entry hentry (by rw [heq]; exact compare_self)
    · intro entry hentry heq
      exact hbefore entry hentry (client, session) List.mem_cons_self
        (by rw [heq]; exact compare_self)
  · next hdeaf =>
    refine foldl_of_ignored (fun effect he g => ?_) g
    obtain ⟨receiver, rfl, hlistens⟩ := mem_broadcastState.mp he
    refine hother g receiver ?_
    rintro rfl
    exact hdeaf hlistens

/-- An operation that says nothing of attention but that a new listener is owed the history. -/
structure Owes (b : Broker E) (result : Broker E × List Effect) : Prop where
  listeners : ∀ client, result.1.Listens client →
    b.Listens client ∨ .sendAttentionHistory client ∈ result.2
  effects : ∀ effect ∈ result.2, effect.attends = true →
    ∃ client, effect = .sendAttentionHistory client

/-- Such an operation, which connects nobody. -/
structure Informs (b : Broker E) (result : Broker E × List Effect) : Prop extends
    Owes b result where
  sessions : ∀ client ∈ result.1.clients, client ∈ b.clients

theorem SameAudience.listens {b b' : Broker E} (h : SameAudience b.clients b'.clients)
    {client : ClientId} (hlistens : b'.Listens client) : b.Listens client := by
  rw [Listens, ← h client]
  exact hlistens

theorem SameAudience.mem {clients clients' : ExtTreeMap ClientId Client}
    (h : SameAudience clients clients') {client : ClientId} (hc : client ∈ clients') :
    client ∈ clients := by
  rw [ExtTreeMap.mem_iff_isSome_getElem?, ← Option.isSome_map (f := Client.stateSubscribed),
    ← h client, Option.isSome_map]
  exact ExtTreeMap.mem_iff_isSome_getElem?.mp hc

theorem informs_of_sameAudience {result : Broker E × List Effect}
    (haudience : SameAudience b.clients result.1.clients)
    (heffects : ∀ effect ∈ result.2, effect.attends = false) : Informs b result where
  sessions client hc := haudience.mem hc
  listeners client hlistens := .inl (haudience.listens hlistens)
  effects effect he hattends := by
    rw [heffects effect he] at hattends
    cases hattends

theorem Unnoticed.informs {result : Broker E × List Effect}
    (h : Unnoticed b result) : Informs b result :=
  informs_of_sameAudience h.audience fun effect he =>
    Effect.not_attends_of_routine (h.effects effect he)

theorem Informs.refl (b : Broker E) : Informs b (b, []) :=
  (Unnoticed.refl b).informs

theorem informs_step (b : Broker E) (event : Event) (h : event.administrative = true) :
    Informs b (b.step event) := by
  rcases unnoticed_step b event with hnoticed | rfl | ⟨_, rfl⟩ | ⟨_, rfl, -⟩ | ⟨_, rfl⟩ |
    ⟨_, rfl⟩ | ⟨_, rfl⟩
  · exact hnoticed.informs
  all_goals cases h

theorem Owes.trans {result result' : Broker E × List Effect}
    (h : Owes b result) (h' : Owes result.1 result') :
    Owes b (result'.1, result.2 ++ result'.2) where
  listeners client hlistens := by
    rcases h'.listeners client hlistens with hearlier | howed
    · rcases h.listeners client hearlier with hearlier | howed
      · exact .inl hearlier
      · exact .inr (List.mem_append_left _ howed)
    · exact .inr (List.mem_append_right _ howed)
  effects effect he hattends := by
    rcases List.mem_append.mp he with he | he
    · exact h.effects effect he hattends
    · exact h'.effects effect he hattends

theorem Informs.trans {result result' : Broker E × List Effect}
    (h : Informs b result) (h' : Informs result.1 result') :
    Informs b (result'.1, result.2 ++ result'.2) where
  toOwes := h.toOwes.trans h'.toOwes
  sessions client hc := h.sessions client (h'.sessions client hc)

theorem informs_exec {α : Type*} {body : Broker E → α → Broker E × List Effect}
    (hbody : ∀ b a, Informs b (body b a)) (b : Broker E) (is : List α) :
    Informs b (exec body b is) := by
  induction is generalizing b with
  | nil => exact Informs.refl b
  | cons i is ih => exact (hbody b i).trans (ih (body b i).1)

theorem unattended_federationUpdated (b : Broker E) (state : FederationState) :
    SameAudience b.clients (b.federationUpdated state).1.clients ∧
      ∀ effect ∈ (b.federationUpdated state).2, effect.attends = false := by
  have hclosing : Unnoticed ({ b with state } : Broker E) (closeVanishedRoutes { b with state }) :=
    unnoticed_exec unnoticed_paneRouteClosed _ _
  refine ⟨hclosing.audience, fun effect he => ?_⟩
  rcases List.mem_append.mp he with he | he
  · obtain ⟨message, hmessage, he⟩ := List.mem_flatMap.mp he
    obtain ⟨key, rfl, -⟩ := mem_targetChanges.mp hmessage
    obtain ⟨receiver, rfl, -⟩ := mem_broadcastState.mp he
    rfl
  · exact Effect.not_attends_of_routine (hclosing.effects effect he)

/-- What a disconnection leaves: everybody else. -/
theorem informs_disconnect (b : Broker E) (client : ClientId) :
    Informs b (b.disconnect client) ∧ client ∉ (b.disconnect client).1.clients := by
  have hnoticed := unnoticed_disconnect b client
  have herased : ∀ other, other ∈ (b.disconnect client).1.clients → other ∈ b.clients.erase client :=
    fun other ho => hnoticed.audience.mem ho
  refine ⟨⟨⟨fun other hlistens => .inl ?_, fun effect he hattends => ?_⟩, fun other ho => ?_⟩, ?_⟩
  · have hkept : (({ b with clients := b.clients.erase client } : Broker E)).Listens other :=
      hnoticed.audience.listens hlistens
    rw [Listens, ExtTreeMap.getElem?_erase] at hkept
    split at hkept
    · cases hkept
    · exact hkept
  · rw [Effect.not_attends_of_routine (hnoticed.effects effect he)] at hattends
    cases hattends
  · exact (ExtTreeMap.mem_erase.mp (herased other ho)).2
  · intro hc
    simpa using herased client hc

/-- Whatever a client sends, its subscription to what the daemon observes is answered with a
history that is owed. -/
theorem informs_handle (b : Broker E) (client : ClientId) (message : ClientMessage) :
    Informs b (b.handle client message) := by
  rcases unnoticed_step b (.handle client message) with h | h | ⟨_, h⟩ | ⟨client', h, hg⟩ | ⟨_, h⟩ |
    ⟨_, h⟩ | ⟨_, h⟩
  · exact h.informs
  · cases h
  · cases h
  · obtain ⟨rfl, rfl⟩ := Event.handle.inj h
    have hstep := step_subscribeState hg
    rw [step] at hstep
    rw [hstep]
    refine ⟨⟨fun other hlistens => ?_, fun effect he hattends => ?_⟩, fun other ho => ?_⟩
    · by_cases hc : client = other
      · subst hc
        exact .inr (by simp)
      · rw [Listens, ExtTreeMap.getElem?_modify, if_neg (by simpa using hc)] at hlistens
        exact .inl hlistens
    · rcases List.mem_pair.mp he with rfl | rfl
      · cases hattends
      · exact ⟨client, rfl⟩
    · simpa [ExtTreeMap.mem_modify] using ho
  · cases h
  · cases h
  · cases h

end Broker

/-! ### A client's mirror -/

/-- What a client does to its mirror with a message. -/
def receive (mirror : AttentionIndex) : ServerMessage → AttentionIndex
  | .attentionHistory events => .mirror events
  | .attention event => (mirror.apply event).1
  | _ => mirror

/-- What a client does to its mirror with what it finds in its outbox. -/
def Act.hear (client : ClientId) (mirror : AttentionIndex) : Act → AttentionIndex
  | .sent receiver message => if receiver = client then receive mirror message else mirror
  | _ => mirror

/-- What an effect will do to a client's mirror, as long as the index holds `events`. -/
def owedStep (events : List AttentionEvent) (client : ClientId) (mirror : AttentionIndex) :
    Effect → AttentionIndex
  | .send receiver message => if receiver = client then receive mirror message else mirror
  | .sendAttentionHistory receiver => if receiver = client then .mirror events else mirror
  | _ => mirror

theorem owedStep_of_not_attends (events : List AttentionEvent) (client : ClientId)
    {effect : Effect} (h : effect.attends = false) (mirror : AttentionIndex) :
    owedStep events client mirror effect = mirror := by
  cases effect with
  | send receiver message =>
    cases message with
    | attention | attentionHistory => cases h
    | _ => simp [owedStep, receive]
  | sendAttentionHistory receiver => cases h
  | _ => rfl

/-- Owing nothing but histories keeps a mirror that is right, and puts one right that is owed a
history. -/
theorem foldl_owedStep {events : List AttentionEvent} {client : ClientId} {effects : List Effect}
    (heffects : ∀ effect ∈ effects, effect.attends = true →
      ∃ receiver, effect = .sendAttentionHistory receiver) {mirror : AttentionIndex}
    (h : mirror.events = events ∨ .sendAttentionHistory client ∈ effects) :
    (effects.foldl (owedStep events client) mirror).events = events := by
  induction effects generalizing mirror with
  | nil => exact h.resolve_right List.not_mem_nil
  | cons effect effects ih =>
    have hrest : ∀ effect ∈ effects, effect.attends = true →
        ∃ receiver, effect = .sendAttentionHistory receiver :=
      fun effect' he => heffects effect' (List.mem_cons_of_mem effect he)
    rw [List.foldl_cons]
    by_cases hhere : effect = .sendAttentionHistory client
    · exact ih hrest (.inl (by simp [hhere, owedStep, AttentionIndex.mirror]))
    · have hsame : owedStep events client mirror effect = mirror := by
        cases hattends : effect.attends with
        | false => exact owedStep_of_not_attends events client hattends mirror
        | true =>
          obtain ⟨receiver, rfl⟩ := heffects effect List.mem_cons_self hattends
          have hne : receiver ≠ client := fun heq => hhere (by rw [heq])
          simp [owedStep, hne]
      rw [hsame]
      refine ih hrest (h.imp_right fun howed => ?_)
      exact (List.mem_cons.mp howed).resolve_left fun heq => hhere heq.symm

namespace Attentive

/-- A client's mirror once the pending effects are performed. -/
def owed (a : Attentive E) (client : ClientId) (mirror : AttentionIndex) : AttentionIndex :=
  a.daemon.pending.foldl (owedStep a.attention.events client) mirror

/-- **A listener's mirror follows the index.** -/
def Follows (client : ClientId) (mirror : AttentionIndex) (a : Attentive E) : Prop :=
  a.daemon.broker.Listens client → (a.owed client mirror).events = a.attention.events

/-- Everybody the broker knows has an outbox. -/
def Connected (d : Daemon E) : Prop := ∀ client ∈ d.broker.clients, client ∈ d.outboxes

/-- The index is regular and the cursor at its newest event. -/
structure Attuned (a : Attentive E) : Prop where
  regular : a.attention.Regular
  behind : ∀ event ∈ a.attention.events, ∃ last, a.attentionCursor = some last ∧ event.id ≤ last
  reached : ∀ last, a.attentionCursor = some last → last < a.attention.nextEventId
  connected : Connected a.daemon

/-- A piece of a step that leaves attention alone, and at most owes somebody the history. -/
structure Advances (a a' : Attentive E) : Prop where
  attention : a'.attention = a.attention
  cursor : a'.attentionCursor = a.attentionCursor
  effects : ∃ effects, a'.daemon.pending = a.daemon.pending ++ effects ∧
    a.daemon.broker.Owes (a'.daemon.broker, effects)
  connected : Connected a.daemon → Connected a'.daemon

theorem Advances.follows {a a' : Attentive E} (h : Advances a a') {client : ClientId}
    {mirror : AttentionIndex} (hfollows : a.Follows client mirror) :
    a'.Follows client mirror := by
  obtain ⟨effects, hpending, howes⟩ := h.effects
  intro hlistens
  rw [owed, hpending, List.foldl_append, h.attention]
  refine foldl_owedStep howes.effects ?_
  exact (howes.listeners client hlistens).imp_left hfollows

theorem Advances.attuned {a a' : Attentive E} (h : Advances a a') (ha : a.Attuned) :
    a'.Attuned where
  regular := h.attention ▸ ha.regular
  behind := by
    rw [h.attention, h.cursor]
    exact ha.behind
  reached := by
    rw [h.attention, h.cursor]
    exact ha.reached
  connected := h.connected ha.connected

theorem Advances.trans {a a' a'' : Attentive E} (h : Advances a a') (h' : Advances a' a'') :
    Advances a a'' where
  attention := h'.attention.trans h.attention
  cursor := h'.cursor.trans h.cursor
  effects := by
    obtain ⟨effects, hpending, howes⟩ := h.effects
    obtain ⟨later, hlater, howes'⟩ := h'.effects
    exact ⟨effects ++ later, by rw [hlater, hpending, List.append_assoc], howes.trans howes'⟩
  connected hc := h'.connected (h.connected hc)

/-! ### The pieces of a step -/

theorem advances_of_informs {a : Attentive E} {daemon : Daemon E} (effects : List Effect)
    (hpending : daemon.pending = a.daemon.pending ++ effects)
    (hinforms : a.daemon.broker.Informs (daemon.broker, effects))
    (houtboxes : ∀ client ∈ daemon.broker.clients, client ∈ a.daemon.outboxes →
      client ∈ daemon.outboxes) : Advances a { a with daemon } where
  attention := rfl
  cursor := rfl
  effects := ⟨effects, hpending, hinforms.toOwes⟩
  connected hconnected client hc :=
    houtboxes client hc (hconnected client (hinforms.sessions client hc))

theorem Advances.refl (a : Attentive E) : Advances a a where
  attention := rfl
  cursor := rfl
  effects := ⟨[], (List.append_nil _).symm, (Broker.Informs.refl a.daemon.broker).toOwes⟩
  connected hconnected := hconnected

theorem advances_reportDowngraded (a : Attentive E) :
    Advances a { a with daemon := a.daemon.reportDowngraded } :=
  advances_of_informs _ rfl
    (Broker.informs_exec (fun b pane => b.informs_step (.routeDowngraded pane) rfl)
      a.daemon.broker a.daemon.downgraded)
    fun _ _ houtbox => houtbox

theorem advances_projectAgentCards (reading : Reading) (a : Attentive E) :
    Advances a (a.projectAgentCards reading) := by
  have hinforms := a.daemon.broker.informs_step (.agentCardsUpdated reading.cards) rfl
  exact ⟨rfl, rfl, ⟨_, rfl, hinforms.toOwes⟩, fun hconnected client hc =>
    hconnected client (hinforms.sessions client hc)⟩

/-- An effect that is not a message is performed on the daemon, and sends nothing. -/
theorem advances_perform (spawn : ℕ → Spawning) (a : Attentive E) {effect : Effect}
    (h : ∀ client message, effect ≠ .send client message) :
    Advances a { a with daemon := (a.daemon.perform spawn effect).1 } ∧
      (a.daemon.perform spawn effect).2 = [] := by
  cases effect with
  | send client message => exact absurd rfl (h client message)
  | disconnect client reason =>
    obtain ⟨hinforms, hgone⟩ := a.daemon.broker.informs_disconnect client
    refine ⟨advances_of_informs _ rfl hinforms fun other ho houtbox => ?_, rfl⟩
    have hne : client ≠ other := by
      rintro rfl
      exact hgone ho
    simpa [Daemon.perform, hne] using houtbox
  | routeUnclaimed pane =>
    exact ⟨advances_of_informs _ rfl
      (a.daemon.broker.informs_step (.closeIfUnclaimed pane) rfl)
      fun _ _ houtbox => houtbox, rfl⟩
  | openRoute pane access cols rows =>
    refine ⟨?_, rfl⟩
    simp only [Daemon.perform, Daemon.openRoute]
    cases (spawn a.daemon.openings).attempt access with
    | opened | downgraded | failed =>
      exact advances_of_informs _ (List.append_nil _).symm (Broker.Informs.refl _)
        fun _ _ houtbox => houtbox
  | closeRoute pane =>
    exact ⟨advances_of_informs _ (List.append_nil _).symm (Broker.Informs.refl _)
      fun _ _ houtbox => houtbox, rfl⟩
  | _ => exact ⟨Advances.refl a, rfl⟩

/-- An input is handled with nothing pending. -/
theorem advances_handle {a : Attentive E} (hpending : a.daemon.pending = []) (input : Input) :
    Advances a { a with daemon := a.daemon.handle input } := by
  have hfrom : ∀ effects, effects = a.daemon.pending ++ effects := by
    intro effects
    rw [hpending, List.nil_append]
  cases input with
  | connected gone =>
    have hlistens : ∀ client, a.daemon.broker.connect.1.Listens client →
        a.daemon.broker.Listens client := by
      intro client hlistens
      rw [Broker.Listens, Broker.connect, ExtTreeMap.getElem?_insert] at hlistens
      split at hlistens
      · cases hlistens
      · exact hlistens
    have hconnect : a.daemon.broker.Owes (a.daemon.broker.connect.1, []) :=
      ⟨fun client h => .inl (hlistens client h), fun effect he => by cases he⟩
    have hmem : ∀ client ∈ a.daemon.broker.connect.1.clients,
        client = a.daemon.broker.connect.2 ∨ client ∈ a.daemon.broker.clients := by
      intro client hc
      rw [Broker.connect, ExtTreeMap.mem_insert] at hc
      exact hc.imp (fun heq => (by simpa using heq : a.daemon.broker.nextClient = client).symm) id
    cases gone with
    | true =>
      obtain ⟨hinforms, hgone⟩ :=
        a.daemon.broker.connect.1.informs_disconnect a.daemon.broker.connect.2
      refine ⟨rfl, rfl, ⟨_, hfrom _, hconnect.trans hinforms.toOwes⟩, fun hconnected client hc => ?_⟩
      rcases hmem client (hinforms.sessions client hc) with rfl | hknown
      · exact absurd hc hgone
      · exact hconnected client hknown
    | false =>
      refine ⟨rfl, rfl, ⟨[], hfrom _, hconnect⟩, fun hconnected client hc => ?_⟩
      rcases hmem client hc with rfl | hknown
      · exact ExtTreeSet.mem_insert_self
      · exact ExtTreeSet.mem_insert.mpr (.inr (hconnected client hknown))
  | received client message =>
    exact advances_of_informs _ (hfrom _) (a.daemon.broker.informs_handle client message)
      fun _ _ houtbox => houtbox
  | disconnected client =>
    obtain ⟨hinforms, hgone⟩ := a.daemon.broker.informs_disconnect client
    refine advances_of_informs _ (hfrom _) hinforms fun other ho houtbox => ?_
    have hne : client ≠ other := by
      rintro rfl
      exact hgone ho
    simpa [Daemon.handle, hne] using houtbox
  | federation state =>
    obtain ⟨haudience, heffects⟩ := a.daemon.broker.unattended_federationUpdated state
    exact advances_of_informs _ (hfrom _) (Broker.informs_of_sameAudience haudience heffects)
      fun _ _ houtbox => houtbox
  | frame pane sequence width height full bytes =>
    exact advances_of_informs _ (hfrom _)
      (a.daemon.broker.informs_step (.paneFrame pane sequence width height full bytes) rfl)
      fun _ _ houtbox => houtbox
  | routeClosed pane =>
    exact advances_of_informs _ (hfrom _)
      (a.daemon.broker.informs_step (.paneRouteClosed pane) rfl)
      fun _ _ houtbox => houtbox
  | operationDone client request applied message pluginRun =>
    exact advances_of_informs _ (hfrom _)
      (a.daemon.broker.informs_step
        (.operationCompleted client request applied message pluginRun) rfl)
      fun _ _ houtbox => houtbox
  | reconfigured invalidated =>
    exact advances_of_informs _ (hfrom _)
      (Broker.informs_exec (fun b pane => b.informs_step (.paneRouteClosed pane) rfl)
        a.daemon.broker _)
      fun _ _ houtbox => houtbox

/-- A move of a task around the loop enqueues an input, and that is all. -/
theorem advances_task (spawn : ℕ → Spawning) (a : Attentive E) {move : Daemon.Move}
    (h : move ≠ .next) :
    Advances a { a with daemon := (a.daemon.step spawn move).1 } ∧
      (a.daemon.step spawn move).2 = [] := by
  have hsame : ∀ daemon : Daemon E, daemon.broker = a.daemon.broker →
      daemon.pending = a.daemon.pending → daemon.outboxes = a.daemon.outboxes →
      Advances a { a with daemon } := by
    intro daemon hbroker hpending houtboxes
    refine advances_of_informs [] (by rw [hpending, List.append_nil]) ?_ ?_
    · rw [hbroker]
      exact Broker.Informs.refl _
    · rw [houtboxes]
      exact fun _ _ houtbox => houtbox
  cases move with
  | next => exact absurd rfl h
  | arrive input =>
    simp only [Daemon.step]
    split
    · exact ⟨hsame _ rfl rfl rfl, rfl⟩
    · exact ⟨hsame _ rfl rfl rfl, rfl⟩
  | read opening sequence width height full bytes =>
    simp only [Daemon.step]
    split
    · exact ⟨hsame _ rfl rfl rfl, rfl⟩
    · exact ⟨hsame _ rfl rfl rfl, rfl⟩
  | ended opening =>
    simp only [Daemon.step]
    split
    · exact ⟨hsame _ rfl rfl rfl, rfl⟩
    · exact ⟨hsame _ rfl rfl rfl, rfl⟩

end Attentive

end SuperHerdr
