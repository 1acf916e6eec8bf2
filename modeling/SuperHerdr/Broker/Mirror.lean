import SuperHerdr.Broker.Authority

/-!
# The federation as a client sees it

A client that subscribed to the federation is sent it once, as a whole, and from then on what
changed, target by target. What changed is computed against the broker's own previous state
and leaves out the two clocks of a target, so a client may hold an older target than the
broker does. It never holds one that differs in anything else: `published` is what a target
looks like without its clocks, and a mirror has the published targets of the broker
(`federation_mirror`), over every run.

Most operations are `Unnoticed` by those who watch: they change neither the federation nor who
subscribed to it, and send nothing about what the daemon observes. `Unseen` asks for that of the
federation only.
-/

namespace SuperHerdr

open Std Transducer

variable {E : Emulator}

/-! ### What a client could act on -/

namespace TargetRuntimeState

/-- A target without its clocks. -/
def published (target : TargetRuntimeState) : TargetRuntimeState :=
  { target with lastSuccess := none, retryAt := none }

/-- **The comparison is an equality of what is published**, so a chain of changes that it does
not see is one it does not see. -/
theorem differsForClients_eq_false {target other : TargetRuntimeState} :
    target.differsForClients other = false ↔ target.published = other.published := by
  simp only [differsForClients, Bool.or_eq_false_iff, bne_eq_false_iff_eq, published, mk.injEq,
    and_true, and_assoc]

end TargetRuntimeState

/-! ### Effects about the federation -/

/-- Effects that tell somebody about the federation. -/
def Effect.federates : Effect → Bool
  | .send _ (.federationState _) | .send _ (.targetState _ _) => true
  | _ => false

/-- Effects that tell somebody about attention. -/
def Effect.attends : Effect → Bool
  | .send _ (.attention _) | .send _ (.attentionHistory _) | .sendAttentionHistory _ => true
  | _ => false

/-- Effects that tell nobody about what the daemon observes. -/
def Effect.routine (effect : Effect) : Bool := !effect.federates && !effect.attends

theorem Effect.not_federates_of_routine {effect : Effect} (h : effect.routine = true) :
    effect.federates = false := by
  rw [routine, Bool.and_eq_true, Bool.not_eq_true'] at h
  exact h.1

theorem Effect.not_attends_of_routine {effect : Effect} (h : effect.routine = true) :
    effect.attends = false := by
  rw [routine, Bool.and_eq_true, Bool.not_eq_true', Bool.not_eq_true'] at h
  exact h.2

theorem Administer.routine {pane : PaneId} {effects : List Effect}
    (h : Administer pane effects) {effect : Effect} (he : effect ∈ effects) :
    effect.routine = true := by
  have hadministers := h effect he
  cases effect with
  | send client message =>
    cases message with
    | federationState | targetState | attention | attentionHistory => cases hadministers
    | _ => rfl
  | sendAttentionHistory client => cases hadministers
  | _ => rfl

theorem PaneSubscription.updateFor_routine (subscription : PaneSubscription) (pane : PaneId)
    (rendered : Rendered) (client : ClientId) :
    (Effect.send client (subscription.updateFor pane rendered)).routine = true := by
  unfold updateFor
  split
  · split <;> rfl
  · rfl

namespace Broker

/-! ### Operations that the subscribers of the federation do not see -/

/-- Nobody starts or stops watching the federation. -/
def SameAudience (clients clients' : ExtTreeMap ClientId Client) : Prop :=
  ∀ client : ClientId, clients'[client]?.map Client.stateSubscribed =
    clients[client]?.map Client.stateSubscribed

theorem SameAudience.refl (clients : ExtTreeMap ClientId Client) :
    SameAudience clients clients := fun _ => rfl

theorem SameAudience.trans {clients clients' clients'' : ExtTreeMap ClientId Client}
    (h : SameAudience clients clients') (h' : SameAudience clients' clients'') :
    SameAudience clients clients'' := fun client => (h' client).trans (h client)

theorem sameAudience_modify (clients : ExtTreeMap ClientId Client) (client : ClientId)
    {f : Client → Client} (hf : ∀ session, (f session).stateSubscribed = session.stateSubscribed) :
    SameAudience clients (clients.modify client f) := by
  intro client'
  rw [ExtTreeMap.getElem?_modify]
  split
  · next hc =>
    obtain rfl : client = client' := by simpa using hc
    cases clients[client]? with
    | none => rfl
    | some session => simp [hf]
  · rfl

theorem sameAudience_exec {α β : Type*}
    {body : ExtTreeMap ClientId Client → α → ExtTreeMap ClientId Client × List β}
    (hbody : ∀ clients a, SameAudience clients (body clients a).1)
    (clients : ExtTreeMap ClientId Client) (is : List α) :
    SameAudience clients (exec body clients is).1 :=
  exec_invariant (fun clients' a h => h.trans (hbody clients' a)) (SameAudience.refl clients) is

/-- An operation that leaves the federation and its audience alone, and tells nobody. -/
structure Unseen (b : Broker E) (result : Broker E × List Effect) : Prop where
  state : result.1.state = b.state
  audience : SameAudience b.clients result.1.clients
  effects : ∀ effect ∈ result.2, effect.federates = false

/-- An operation that leaves the federation and its audience alone, and does what is routine. -/
structure Unnoticed (b : Broker E) (result : Broker E × List Effect) : Prop where
  state : result.1.state = b.state
  audience : SameAudience b.clients result.1.clients
  effects : ∀ effect ∈ result.2, effect.routine = true

variable {b : Broker E}

theorem Unnoticed.unseen {result : Broker E × List Effect}
    (h : Unnoticed b result) : Unseen b result :=
  ⟨h.state, h.audience, fun effect he => Effect.not_federates_of_routine (h.effects effect he)⟩

theorem unnoticed_of_same {result : Broker E × List Effect}
    (hstate : result.1.state = b.state) (hclients : result.1.clients = b.clients)
    (heffects : ∀ effect ∈ result.2, effect.routine = true) : Unnoticed b result :=
  ⟨hstate, fun client => by rw [hclients], heffects⟩

theorem unnoticed_emit (b : Broker E) {effect : Effect} (h : effect.routine = true) :
    Unnoticed b (b, [effect]) :=
  unnoticed_of_same rfl rfl fun effect' he => by rwa [List.mem_singleton.mp he]

theorem Unnoticed.refl (b : Broker E) : Unnoticed b (b, []) :=
  unnoticed_of_same rfl rfl fun effect he => by cases he

theorem unnoticed_exec {α : Type*} {body : Broker E → α → Broker E × List Effect}
    (hbody : ∀ b a, Unnoticed b (body b a)) (b : Broker E) (is : List α) :
    Unnoticed b (exec body b is) := by
  induction is generalizing b with
  | nil => exact Unnoticed.refl b
  | cons i is ih =>
    have hfirst := hbody b i
    have hrest := ih (body b i).1
    refine ⟨hrest.state.trans hfirst.state, hfirst.audience.trans hrest.audience, ?_⟩
    intro effect he
    rcases List.mem_append.mp he with he | he
    · exact hfirst.effects effect he
    · exact hrest.effects effect he

theorem unnoticed_releasePane (b : Broker E) (client : ClientId) (pane : PaneId) :
    Unnoticed b (b.releasePane client pane) := by
  have hkept : ∀ b' : Broker E, (b'.releaseScreenIfUnwatched pane).state = b'.state ∧
      (b'.releaseScreenIfUnwatched pane).clients = b'.clients := by
    intro b'
    unfold releaseScreenIfUnwatched
    split <;> exact ⟨rfl, rfl⟩
  unfold releasePane
  cases b.routes[pane]? with
  | none => exact Unnoticed.refl b
  | some route =>
    simp only
    split
    · exact unnoticed_of_same rfl rfl (by simp [Effect.routine, Effect.federates, Effect.attends])
    · split
      · exact unnoticed_of_same (hkept _).1 (hkept _).2
          fun effect he => (administer_dropControl _).routine he
      · exact unnoticed_of_same (hkept _).1 (hkept _).2 fun effect he => by cases he

theorem unnoticed_subscribePane (b : Broker E) (client : ClientId) (pane : PaneId)
    (access : TerminalAccess) (cols rows : UInt16) (representation : PaneRepresentation) :
    Unnoticed b (b.subscribePane client pane access cols rows representation) := by
  unfold subscribePane
  cases hc : b.clients[client]? with
  | none => exact Unnoticed.refl b
  | some session =>
    have hinsert : ∀ panes, SameAudience b.clients
        (b.clients.insert client { session with panes }) := by
      intro panes client'
      rw [ExtTreeMap.getElem?_insert]
      split
      · next hcc =>
        obtain rfl : client = client' := by simpa using hcc
        rw [hc]
        rfl
      · rfl
    have hjoin : ∀ effect ∈ (Route.join b.routes[pane]? pane client access cols rows).2.2,
        effect.routine = true :=
      fun effect he => (administer_join _ client access cols rows).routine he
    simp only
    split
    · refine ⟨rfl, (hinsert _).trans (sameAudience_modify _ client fun _ => rfl), ?_⟩
      intro effect he
      simp only [List.mem_append, List.mem_singleton] at he
      rcases he with (he | rfl) | rfl
      · exact hjoin effect he
      · rfl
      · rfl
    · refine ⟨rfl, hinsert _, ?_⟩
      intro effect he
      simp only [List.append_nil, List.mem_append, List.mem_singleton] at he
      rcases he with he | rfl
      · exact hjoin effect he
      · rfl

theorem unnoticed_takeControl (b : Broker E) (client : ClientId) (pane : PaneId)
    (onlyIfFree : Bool) : Unnoticed b (b.takeControl client pane onlyIfFree) := by
  unfold takeControl
  split
  · exact Unnoticed.refl b
  split
  · exact unnoticed_emit b rfl
  split
  · exact Unnoticed.refl b
  split
  · exact Unnoticed.refl b
  split
  · exact unnoticed_emit b rfl
  · exact unnoticed_of_same rfl rfl
      fun effect he => (administer_handOver _ client _ _).routine he

theorem unnoticed_ackPaneScreen (b : Broker E) (client : ClientId) (pane : PaneId) (sequence : ℕ) :
    Unnoticed b (b.ackPaneScreen client pane sequence) := by
  have hmodify : ∀ clients f,
      SameAudience clients (modifySubscription clients client pane f) :=
    fun clients f => sameAudience_modify clients client fun _ => rfl
  unfold ackPaneScreen
  split
  · exact Unnoticed.refl b
  split
  · exact Unnoticed.refl b
  simp only
  split
  · exact ⟨rfl, hmodify _ _, by simp⟩
  split
  · exact ⟨rfl, hmodify _ _, by simp⟩
  · refine ⟨rfl, (hmodify _ _).trans (hmodify _ _), fun effect he => ?_⟩
    rw [List.mem_singleton.mp he]
    exact PaneSubscription.updateFor_routine _ _ _ _

theorem unnoticed_offers (pane : PaneId) (rendered : Rendered)
    (clients : ExtTreeMap ClientId Client) (subscribers : List ClientId) :
    SameAudience clients (exec (offerTo pane rendered) clients subscribers).1 ∧
      ∀ effect ∈ (exec (offerTo pane rendered) clients subscribers).2,
        effect.routine = true := by
  have hbody : ∀ clients client, SameAudience clients (offerTo pane rendered clients client).1 ∧
      ∀ effect ∈ (offerTo pane rendered clients client).2, effect.routine = true := by
    intro clients client
    unfold offerTo PaneSubscription.offer
    split
    · exact ⟨SameAudience.refl clients, by simp⟩
    split
    · exact ⟨SameAudience.refl clients, by simp⟩
    · next hoffer =>
      refine ⟨sameAudience_modify clients client fun _ => rfl, fun effect he => ?_⟩
      rw [List.mem_singleton.mp he]
      split_ifs at hoffer
      obtain ⟨-, rfl⟩ := Prod.mk.inj (Option.some.inj hoffer)
      exact PaneSubscription.updateFor_routine _ _ _ _
  refine ⟨sameAudience_exec (fun clients client => (hbody clients client).1) clients _, ?_⟩
  induction subscribers generalizing clients with
  | nil =>
    intro effect he
    cases he
  | cons client rest ih =>
    intro effect he
    rcases List.mem_append.mp he with he | he
    · exact (hbody clients client).2 effect he
    · exact ih _ effect he

theorem unnoticed_paneFrame (b : Broker E) (pane : PaneId) (sequence : ℕ) (width height : UInt16)
    (full : Bool) (bytes : List UInt8) :
    Unnoticed b (b.paneFrame pane sequence width height full bytes) := by
  have hframes : ∀ clients : List ClientId, ∀ effect ∈ (clients.map fun client =>
      Effect.send client (.paneFrame pane sequence width height full bytes)),
      effect.routine = true := by
    intro clients effect he
    obtain ⟨client, -, rfl⟩ := List.mem_map.mp he
    rfl
  unfold paneFrame
  split
  · exact Unnoticed.refl b
  simp only
  split
  · exact unnoticed_of_same rfl rfl (hframes _)
  · obtain ⟨haudience, hoffers⟩ := unnoticed_offers pane _ b.clients _
    refine ⟨rfl, haudience, fun effect he => ?_⟩
    rcases List.mem_append.mp he with he | he
    · exact hframes _ effect he
    · exact hoffers effect he

theorem unnoticed_paneRouteClosed (b : Broker E) (pane : PaneId) :
    Unnoticed b (b.paneRouteClosed pane) := by
  unfold paneRouteClosed
  split
  · exact Unnoticed.refl b
  · next route hr =>
    refine ⟨rfl, sameAudience_exec (fun clients client => ?_) b.clients _, ?_⟩
    · exact sameAudience_modify clients client fun _ => rfl
    · intro effect he
      rw [(exec_dropSubscriber pane b.clients (nodup_subscribers route)).2] at he
      obtain ⟨client, -, he⟩ := List.mem_flatMap.mp he
      rw [List.mem_singleton.mp he]
      rfl

theorem unnoticed_withLease {operation : Broker E × List Effect}
    (h : Unnoticed b operation) (client : ClientId) (pane : PaneId) :
    Unnoticed b (b.withLease client pane operation) := by
  unfold withLease
  split
  · exact h
  · exact unnoticed_emit b rfl

theorem unnoticed_refuse (b : Broker E) (client : ClientId) (reason : String) :
    Unnoticed b (b, refuse client reason) := by
  refine unnoticed_of_same rfl rfl fun effect he => ?_
  rcases List.mem_pair.mp he with rfl | rfl <;> rfl

/-- Every message but the subscription to the federation. -/
theorem unnoticed_serve (b : Broker E) (client : ClientId) {message : ClientMessage}
    (hne : message ≠ .subscribeState) : Unnoticed b (b.serve client message) := by
  cases message with
  | subscribeState => exact absurd rfl hne
  | subscribePane pane access cols rows representation =>
    exact unnoticed_subscribePane b client pane access cols rows representation
  | ackPaneScreen pane sequence => exact unnoticed_ackPaneScreen b client pane sequence
  | takePaneControl pane onlyIfFree => exact unnoticed_takeControl b client pane onlyIfFree
  | unsubscribePane pane =>
    simp only [serve]
    split
    · exact Unnoticed.refl b
    · have hrelease := unnoticed_releasePane { b with clients := b.clients.modify client fun session =>
          { session with panes := session.panes.erase pane } } client pane
      have hforget := sameAudience_modify b.clients client
        (f := fun session => { session with panes := session.panes.erase pane }) fun _ => rfl
      exact ⟨hrelease.state, hforget.trans hrelease.audience, hrelease.effects⟩
  | paneResize pane cols rows =>
    have hresize : Unnoticed b (b.paneResize client pane cols rows) :=
      ⟨rfl, sameAudience_modify b.clients client fun _ => rfl, (unnoticed_emit b rfl).effects⟩
    exact unnoticed_withLease hresize client pane
  | paneInput pane | paneScroll pane | pastePaneText _ pane | beginUpload _ pane
  | resumeUpload _ _ pane | beginDownload _ pane =>
    exact unnoticed_withLease (unnoticed_emit b rfl) client pane
  | transferBetween _ source _ destination =>
    exact unnoticed_withLease (unnoticed_withLease (unnoticed_emit b rfl) client destination) client source
  | subscribeNotifications | unsubscribeNotifications =>
    exact ⟨rfl, sameAudience_modify b.clients client fun _ => rfl, (Unnoticed.refl b).effects⟩
  | subscribeAgentCards =>
    refine ⟨rfl, sameAudience_modify b.clients client fun _ => rfl, fun effect he => ?_⟩
    simp only [serve] at he
    split at he
    · rw [List.mem_singleton.mp he]
      rfl
    · cases he
  | hello protocol name => exact unnoticed_refuse b client _
  | _ => exact unnoticed_emit b rfl

theorem unnoticed_handshake (b : Broker E) (client : ClientId) (message : ClientMessage) :
    Unnoticed b (b.handshake client message) := by
  unfold handshake
  split
  · split
    · exact ⟨rfl, sameAudience_modify b.clients client fun _ => rfl, (unnoticed_emit b rfl).effects⟩
    · exact unnoticed_refuse b client _
  · exact unnoticed_refuse b client _

theorem unseen_notify (b : Broker E) (flag : Client → Bool) {message : ServerMessage}
    (h : ∀ client, (Effect.send client message).federates = false) :
    Unseen b (b, b.clients.toList.filterMap fun entry =>
      if flag entry.2 then some (.send entry.1 message) else none) := by
  refine ⟨rfl, SameAudience.refl b.clients, fun effect he => ?_⟩
  obtain ⟨entry, -, hsend⟩ := List.mem_filterMap.mp he
  split_ifs at hsend
  rw [← Option.some.inj hsend]
  exact h entry.1

/-- What a call of the broker can be to those who watch what the daemon observes: unnoticed, or
one of the six that are not. -/
theorem unnoticed_step (b : Broker E) (event : Event) :
    Unnoticed b (b.step event) ∨ event = .connect ∨ (∃ client, event = .disconnect client) ∨
      (∃ client, event = .handle client .subscribeState ∧ b.greeted client = true) ∨
      (∃ state, event = .federationUpdated state) ∨
      (∃ observed, event = .attentionObserved observed) ∨
      ∃ events, event = .attentionChanged events := by
  have hbroadcast : ∀ (flag : Client → Bool) (message : ServerMessage),
      (∀ client, (Effect.send client message).routine = true) →
      Unnoticed b (b, b.clients.toList.filterMap fun entry =>
        if flag entry.2 then some (.send entry.1 message) else none) := by
    intro flag message h
    refine unnoticed_of_same rfl rfl fun effect he => ?_
    obtain ⟨entry, -, hsend⟩ := List.mem_filterMap.mp he
    split_ifs at hsend
    rw [← Option.some.inj hsend]
    exact h entry.1
  cases event with
  | connect => exact .inr (.inl rfl)
  | disconnect client => exact .inr (.inr (.inl ⟨client, rfl⟩))
  | federationUpdated state => exact .inr (.inr (.inr (.inr (.inl ⟨state, rfl⟩))))
  | attentionObserved observed =>
    exact .inr (.inr (.inr (.inr (.inr (.inl ⟨observed, rfl⟩)))))
  | attentionChanged events => exact .inr (.inr (.inr (.inr (.inr (.inr ⟨events, rfl⟩)))))
  | handle client message =>
    by_cases hg : b.greeted client = true
    · by_cases hne : message = .subscribeState
      · subst hne
        exact .inr (.inr (.inr (.inl ⟨client, rfl, hg⟩)))
      · refine .inl ?_
        rw [step, handle_of_greeted hg]
        exact unnoticed_serve b client hne
    · refine .inl ?_
      rw [step, handle]
      cases hc : b.clients[client]? with
      | none => exact Unnoticed.refl b
      | some session =>
        have hungreeted : session.greeted = false := by simpa [greeted, hc] using hg
        simp only [hungreeted, Bool.false_eq_true, if_false]
        exact unnoticed_handshake b client message
  | paneFrame pane sequence width height full bytes =>
    exact .inl (unnoticed_paneFrame b pane sequence width height full bytes)
  | paneRouteClosed pane => exact .inl (unnoticed_paneRouteClosed b pane)
  | closeIfUnclaimed pane =>
    refine .inl ?_
    simp only [step, closeIfUnclaimed]
    split
    · exact unnoticed_of_same rfl rfl (unnoticed_emit b rfl).effects
    · exact Unnoticed.refl b
  | routeDowngraded pane =>
    refine .inl ?_
    simp only [step, routeDowngraded]
    split
    · exact Unnoticed.refl b
    split
    · exact Unnoticed.refl b
    · exact unnoticed_of_same rfl rfl fun effect he => (administer_leases _ _).routine he
  | agentCardsUpdated projection =>
    refine .inl ?_
    simp only [step, agentCardsUpdated]
    split
    · exact Unnoticed.refl b
    · exact unnoticed_of_same rfl rfl
        (hbroadcast Client.agentCardsSubscribed _ fun _ => rfl).effects
  | notifyDevices agent title body =>
    exact .inl (hbroadcast Client.notificationsSubscribed _ fun _ => rfl)
  | pairingApprovalRequired | pairingDecided =>
    exact .inl (hbroadcast Client.stateSubscribed _ fun _ => rfl)
  | operationCompleted client request applied message pluginRun =>
    refine .inl ?_
    simp only [step, operationCompleted]
    split
    · exact unnoticed_emit b rfl
    · exact Unnoticed.refl b

/-- What a call of the broker can be to the subscribers of the federation: unseen, or one of the
four that are not. -/
theorem unseen_step (b : Broker E) (event : Event) :
    Unseen b (b.step event) ∨ event = .connect ∨ (∃ client, event = .disconnect client) ∨
      (∃ client, event = .handle client .subscribeState ∧ b.greeted client = true) ∨
      ∃ state, event = .federationUpdated state := by
  rcases unnoticed_step b event with h | h | h | h | h | ⟨observed, rfl⟩ | ⟨events, rfl⟩
  · exact .inl h.unseen
  · exact .inr (.inl h)
  · exact .inr (.inr (.inl h))
  · exact .inr (.inr (.inr (.inl h)))
  · exact .inr (.inr (.inr (.inr h)))
  · exact .inl (unseen_notify b Client.stateSubscribed fun _ => rfl)
  · exact .inl (unseen_notify b Client.stateSubscribed fun _ => rfl)

/-! ### The mirror -/

/-- What a message does to a client's mirror of the federation: the whole of it when it
subscribes, and one target at a time from then on. -/
def mirrorStep (client : ClientId)
    (mirror : Option (ExtTreeMap TargetSession TargetRuntimeState)) :
    Effect → Option (ExtTreeMap TargetSession TargetRuntimeState)
  | .send receiver (.federationState state) =>
      if receiver = client then some state.targets else mirror
  | .send receiver (.targetState key (some target)) =>
      if receiver = client then mirror.map (·.insert key target) else mirror
  | .send receiver (.targetState key none) =>
      if receiver = client then mirror.map (·.erase key) else mirror
  | _ => mirror

/-- A client's mirror after one call of the broker. -/
def mirror (client : ClientId) (held : Option (ExtTreeMap TargetSession TargetRuntimeState))
    (_ : Broker E) (_ : Event) (result : Broker E × List Effect) :
    Option (ExtTreeMap TargetSession TargetRuntimeState) :=
  result.2.foldl (mirrorStep client) held

theorem mirrorStep_of_not_federates (client : ClientId) {effect : Effect}
    (h : effect.federates = false)
    (held : Option (ExtTreeMap TargetSession TargetRuntimeState)) :
    mirrorStep client held effect = held := by
  cases effect with
  | send receiver message =>
    cases message with
    | federationState | targetState => cases h
    | _ => rfl
  | _ => rfl

/-- What an effect does to one entry of a client's mirror. -/
def entryStep (client : ClientId) (key : TargetSession) (entry : Option TargetRuntimeState) :
    Effect → Option TargetRuntimeState
  | .send receiver (.targetState key' target) =>
      if receiver = client ∧ key' = key then target else entry
  | _ => entry

variable {client : ClientId}

/-- As long as the whole federation is not sent again, a mirror changes entry by entry. -/
theorem foldl_mirrorStep {effects : List Effect}
    (h : ∀ effect ∈ effects, ∀ state, effect ≠ .send client (.federationState state))
    (held : ExtTreeMap TargetSession TargetRuntimeState) :
    ∃ held', effects.foldl (mirrorStep client) (some held) = some held' ∧
      ∀ key, held'[key]? = effects.foldl (entryStep client key) held[key]? := by
  induction effects generalizing held with
  | nil => exact ⟨held, rfl, fun _ => rfl⟩
  | cons effect rest ih =>
    have hone : ∃ held₁, mirrorStep client (some held) effect = some held₁ ∧
        ∀ key, held₁[key]? = entryStep client key held[key]? effect := by
      cases effect with
      | send receiver message =>
        cases message with
        | federationState state =>
          have hne : receiver ≠ client := by
            rintro rfl
            exact h _ (by simp) state rfl
          exact ⟨held, by simp [mirrorStep, hne], fun key => by simp [entryStep]⟩
        | targetState key' target =>
          by_cases hc : receiver = client
          · cases target with
            | none =>
              refine ⟨held.erase key', by simp [mirrorStep, hc], fun key => ?_⟩
              simp [entryStep, hc, ExtTreeMap.getElem?_erase]
            | some target =>
              refine ⟨held.insert key' target, by simp [mirrorStep, hc], fun key => ?_⟩
              simp [entryStep, hc, ExtTreeMap.getElem?_insert]
          · refine ⟨held, ?_, fun key => by simp [entryStep, hc]⟩
            cases target <;> simp [mirrorStep, hc]
        | _ => exact ⟨held, rfl, fun key => rfl⟩
      | _ => exact ⟨held, rfl, fun key => rfl⟩
    obtain ⟨held₁, hstep, hentry⟩ := hone
    obtain ⟨held', hrest, hentries⟩ := ih (fun effect' he => h effect' (by simp [he])) held₁
    refine ⟨held', by rw [List.foldl_cons, hstep, hrest], fun key => ?_⟩
    rw [hentries, hentry, List.foldl_cons]

/-! ### One update of the federation -/

/-- What a new state changes: the targets that are published differently, as they are now. -/
theorem mem_targetChanges {previous state : FederationState} {message : ServerMessage} :
    message ∈ targetChanges previous state ↔ ∃ key : TargetSession,
      message = .targetState key state.targets[key]? ∧
        previous.targets[key]?.map TargetRuntimeState.published ≠
          state.targets[key]?.map TargetRuntimeState.published := by
  simp only [targetChanges, List.mem_append, List.mem_filterMap, List.mem_map, List.mem_filter,
    Prod.exists, ExtTreeMap.mem_toList_iff_getElem?_eq_some, ExtTreeMap.mem_keys]
  constructor
  · rintro (⟨key, target, htarget, hchanged⟩ | ⟨key, ⟨hold, hgone⟩, rfl⟩)
    · split_ifs at hchanged with hdiffers
      refine ⟨key, by rw [htarget, Option.some.inj hchanged], fun heq => ?_⟩
      rw [htarget] at heq
      obtain ⟨old, hprevious, hpublished⟩ := Option.map_eq_some_iff.mp heq
      rw [hprevious] at hdiffers
      simp [TargetRuntimeState.differsForClients_eq_false.mpr hpublished] at hdiffers
    · have hnone : state.targets[key]? = none :=
        ExtTreeMap.getElem?_eq_none_of_contains_eq_false (by simpa using hgone)
      refine ⟨key, by rw [hnone], fun heq => ?_⟩
      rw [hnone, Option.map_none, Option.map_eq_none_iff] at heq
      exact absurd hold (by simpa using heq)
  · rintro ⟨key, rfl, hne⟩
    cases htarget : state.targets[key]? with
    | none =>
      refine .inr ⟨key, ⟨?_, ?_⟩, rfl⟩
      · by_contra hold
        rw [htarget, ExtTreeMap.getElem?_eq_none hold] at hne
        exact hne rfl
      · rw [ExtTreeMap.contains_eq_isSome_getElem?, htarget]
        rfl
    | some target =>
      refine .inl ⟨key, target, htarget, if_pos ?_⟩
      cases hprevious : previous.targets[key]? with
      | none => rfl
      | some old =>
        rw [htarget, hprevious] at hne
        simp only
        by_contra hsame
        refine hne (congrArg some ?_)
        exact TargetRuntimeState.differsForClients_eq_false.mp (by simpa using hsame)

theorem mem_broadcastState {message : ServerMessage} {effect : Effect} :
    effect ∈ b.broadcastState message ↔ ∃ client : ClientId, effect = .send client message ∧
      b.clients[client]?.map Client.stateSubscribed = some true := by
  simp only [broadcastState, List.mem_filterMap, Prod.exists,
    ExtTreeMap.mem_toList_iff_getElem?_eq_some]
  constructor
  · rintro ⟨client, session, hs, hsend⟩
    split_ifs at hsend with hsubscribed
    exact ⟨client, (Option.some.inj hsend).symm, by rw [hs, Option.map_some, hsubscribed]⟩
  · rintro ⟨client, rfl, hsubscribed⟩
    obtain ⟨session, hs, hflag⟩ := Option.map_eq_some_iff.mp hsubscribed
    exact ⟨client, session, hs, by rw [if_pos hflag]⟩

/-- The mirror of a client holds what the broker publishes. -/
def Mirrors (b : Broker E) (held : ExtTreeMap TargetSession TargetRuntimeState) : Prop :=
  ∀ key : TargetSession, held[key]?.map TargetRuntimeState.published =
    b.state.targets[key]?.map TargetRuntimeState.published

/-- **An update of the federation is mirrored**: what is sent brings the mirror from what was
published before to what is published now. -/
theorem Mirrors.federationUpdated
    {held : ExtTreeMap TargetSession TargetRuntimeState} (h : b.Mirrors held)
    (hsubscribed : b.clients[client]?.map Client.stateSubscribed = some true)
    (state : FederationState) :
    ∃ held', (b.federationUpdated state).2.foldl (mirrorStep client) (some held) = some held' ∧
      (b.federationUpdated state).1.Mirrors held' := by
  have hclosing : Unseen ({ b with state } : Broker E) (closeVanishedRoutes { b with state }) :=
    (unnoticed_exec unnoticed_paneRouteClosed _ _).unseen
  have hstate : (b.federationUpdated state).1.state = state := hclosing.state
  -- whatever is sent about a target is the target as it is now
  have hsent : ∀ effect ∈ (b.federationUpdated state).2, effect.federates = false ∨
      ∃ (receiver : ClientId) (key : TargetSession),
        effect = .send receiver (.targetState key state.targets[key]?) ∧
          b.state.targets[key]?.map TargetRuntimeState.published ≠
            state.targets[key]?.map TargetRuntimeState.published := by
    intro effect he
    rcases List.mem_append.mp he with he | he
    · obtain ⟨message, hmessage, he⟩ := List.mem_flatMap.mp he
      obtain ⟨key, rfl, hne⟩ := mem_targetChanges.mp hmessage
      obtain ⟨receiver, rfl, -⟩ := mem_broadcastState.mp he
      exact .inr ⟨receiver, key, rfl, hne⟩
    · exact .inl (hclosing.effects effect he)
  obtain ⟨held', hheld, hentries⟩ := foldl_mirrorStep (fun effect he state' heq => by
    rcases hsent effect he with hquiet | ⟨receiver, key, rfl, -⟩
    · subst heq
      cases hquiet
    · cases heq) held
  refine ⟨held', hheld, fun key => ?_⟩
  rw [hentries, hstate]
  by_cases hsame : b.state.targets[key]?.map TargetRuntimeState.published =
      state.targets[key]?.map TargetRuntimeState.published
  · -- nothing is sent about a target that is published as before
    refine (congrArg _ (foldl_of_ignored (fun effect he entry => ?_) _)).trans
      ((h key).trans hsame)
    rcases hsent effect he with hquiet | ⟨receiver, key', rfl, hne⟩
    · cases effect with
      | send receiver message => cases message <;> first | rfl | cases hquiet
      | _ => rfl
    · have hkey : key' ≠ key := by
        rintro rfl
        exact hne hsame
      simp [entryStep, hkey]
  · refine congrArg _ (foldl_of_written (fun effect he => ?_) ?_ _)
    · rcases hsent effect he with hquiet | ⟨receiver, key', rfl, -⟩
      · cases effect with
        | send receiver message => cases message <;> first | rfl | cases hquiet
        | _ => rfl
      · simp only [entryStep]
        split_ifs with hkey
        · rw [hkey.2]
        · rfl
    · refine ⟨.send client (.targetState key state.targets[key]?), ?_, fun entry => by
        simp [entryStep]⟩
      refine List.mem_append_left _ (List.mem_flatMap.mpr ⟨_, mem_targetChanges.mpr
        ⟨key, rfl, hsame⟩, mem_broadcastState.mpr ⟨client, rfl, hsubscribed⟩⟩)

/-! ### Along a run -/

/-- Whoever subscribed to the federation mirrors it. -/
def Watches (client : ClientId)
    (s : Broker E × Option (ExtTreeMap TargetSession TargetRuntimeState)) : Prop :=
  s.1.clients[client]?.map Client.stateSubscribed = some true →
    ∃ held, s.2 = some held ∧ s.1.Mirrors held

theorem Watches.of_unseen
    {s : Broker E × Option (ExtTreeMap TargetSession TargetRuntimeState)} (h : Watches client s)
    {event : Event} (hunseen : Unseen s.1 (s.1.step event)) :
    Watches client (observe step (mirror client) s event).1 := by
  rw [Watches, observe_fst, observe_snd, hunseen.audience client, mirror,
    foldl_of_ignored fun effect he held =>
      mirrorStep_of_not_federates client (hunseen.effects effect he) held]
  intro hsubscribed
  obtain ⟨held, hheld, hmirrors⟩ := h hsubscribed
  exact ⟨held, hheld, fun key => by rw [hunseen.state, hmirrors key]⟩

theorem unnoticed_disconnect (b : Broker E) (client : ClientId) :
    Unnoticed ({ b with clients := b.clients.erase client } : Broker E) (b.disconnect client) := by
  unfold disconnect
  cases hc : b.clients[client]? with
  | none =>
    have herase : b.clients.erase client = b.clients := by
      refine ExtTreeMap.ext_getElem? fun client' => ?_
      rw [ExtTreeMap.getElem?_erase]
      split
      · next hcc =>
        obtain rfl : client = client' := by simpa using hcc
        rw [hc]
      · rfl
    exact unnoticed_of_same rfl herase.symm fun effect he => by cases he
  | some departing => exact unnoticed_exec (fun b pane => unnoticed_releasePane b client pane) _ _

theorem step_subscribeState (hg : b.greeted client = true) :
    b.step (.handle client .subscribeState) =
      ({ b with clients := b.clients.modify client ({ · with stateSubscribed := true }) },
        [.send client (.federationState b.state), .sendAttentionHistory client]) := by
  rw [step, handle_of_greeted hg]
  rfl

/-- **Every call keeps every subscriber's mirror.** -/
theorem Watches.step
    {s : Broker E × Option (ExtTreeMap TargetSession TargetRuntimeState)} (h : Watches client s)
    (event : Event) : Watches client (observe step (mirror client) s event).1 := by
  rcases unseen_step s.1 event with hunseen | rfl | ⟨client', rfl⟩ | ⟨client', rfl, hg⟩ |
    ⟨state, rfl⟩
  · exact h.of_unseen hunseen
  · intro hsubscribed
    simp only [observe_fst, Broker.step, connect, ExtTreeMap.getElem?_insert] at hsubscribed
    split at hsubscribed
    · cases hsubscribed
    · exact h hsubscribed
  · have hunseen := (unnoticed_disconnect s.1 client').unseen
    intro hsubscribed
    rw [observe_fst, Broker.step, hunseen.audience client] at hsubscribed
    simp only [ExtTreeMap.getElem?_erase] at hsubscribed
    split at hsubscribed
    · cases hsubscribed
    · obtain ⟨held, hheld, hmirrors⟩ := h hsubscribed
      refine ⟨held, ?_, fun key => ?_⟩
      · rw [observe_snd, Broker.step, mirror, foldl_of_ignored fun effect he held =>
          mirrorStep_of_not_federates client (hunseen.effects effect he) held, hheld]
      · rw [observe_fst, Broker.step, hunseen.state, hmirrors key]
  · rw [Watches, observe_fst, observe_snd, mirror, step_subscribeState hg]
    intro hsubscribed
    by_cases hc : client' = client
    · exact ⟨s.1.state.targets, by simp [mirrorStep, hc], fun key => rfl⟩
    · simp only [ExtTreeMap.getElem?_modify] at hsubscribed
      rw [if_neg (by simpa using hc)] at hsubscribed
      obtain ⟨held, hheld, hmirrors⟩ := h hsubscribed
      exact ⟨held, by simp [mirrorStep, hc, hheld], hmirrors⟩
  · have hclosing : Unseen ({ s.1 with state } : Broker E)
        (closeVanishedRoutes { s.1 with state }) :=
      (unnoticed_exec unnoticed_paneRouteClosed _ _).unseen
    intro hsubscribed
    rw [observe_fst, Broker.step, federationUpdated, hclosing.audience client] at hsubscribed
    obtain ⟨held, hheld, hmirrors⟩ := h hsubscribed
    rw [observe_fst, observe_snd, Broker.step, mirror, hheld]
    exact hmirrors.federationUpdated hsubscribed state

/-- A client that subscribed to the federation, and stays subscribed while it is connected. -/
structure Subscribed (b : Broker E) (client : ClientId) : Prop where
  issued : client < b.nextClient
  marked : ∀ session : Client, b.clients[client]? = some session → session.stateSubscribed = true

theorem Subscribed.step (h : b.Subscribed client)
    (event : Event) : (b.step event).1.Subscribed client := by
  have hkept : ∀ {clients : ExtTreeMap ClientId Client}, SameAudience b.clients clients →
      ∀ session : Client, clients[client]? = some session →
        session.stateSubscribed = true := by
    intro clients haudience session hs
    have hflag := haudience client
    rw [hs, Option.map_some] at hflag
    obtain ⟨old, hold, holdflag⟩ := Option.map_eq_some_iff.mp hflag.symm
    rw [← holdflag, h.marked old hold]
  by_cases hconnect : event = .connect
  · subst hconnect
    refine ⟨Nat.lt_succ_of_lt h.issued, fun session hs => ?_⟩
    simp only [Broker.step, connect, ExtTreeMap.getElem?_insert] at hs
    split at hs
    · next hc =>
      have hfresh : b.nextClient = client := by simpa using hc
      exact absurd h.issued (by rw [hfresh]; exact lt_irrefl _)
    · exact h.marked session hs
  · refine ⟨(succeeds_step b hconnect).nextClient ▸ h.issued, ?_⟩
    rcases unseen_step b event with hunseen | rfl | ⟨client', rfl⟩ | ⟨client', rfl, hg⟩ |
      ⟨state, rfl⟩
    · exact hkept hunseen.audience
    · exact absurd rfl hconnect
    · intro session hs
      have haudience := (unnoticed_disconnect b client').audience client
      rw [Broker.step] at hs
      rw [hs, Option.map_some] at haudience
      obtain ⟨old, hold, holdflag⟩ := Option.map_eq_some_iff.mp haudience.symm
      simp only [ExtTreeMap.getElem?_erase] at hold
      split at hold
      · cases hold
      · rw [← holdflag, h.marked old hold]
    · rw [step_subscribeState hg]
      intro session hs
      simp only [ExtTreeMap.getElem?_modify] at hs
      split at hs
      · obtain ⟨old, -, rfl⟩ := Option.map_eq_some_iff.mp hs
        rfl
      · exact h.marked session hs
    · exact hkept (unnoticed_exec unnoticed_paneRouteClosed ({ b with state } : Broker E) _).audience

theorem subscribed_of_subscribeState (hb : b.WellFormed) (hg : b.greeted client = true) :
    (b.step (.handle client .subscribeState)).1.Subscribed client := by
  rw [step_subscribeState hg]
  refine ⟨?_, fun session hs => ?_⟩
  · cases hc : b.clients[client]? with
    | none => simp [greeted, hc] at hg
    | some session => exact hb.fresh client session hc
  · rw [ExtTreeMap.getElem?_modify_self] at hs
    obtain ⟨old, -, rfl⟩ := Option.map_eq_some_iff.mp hs
    rfl

/-- **Subscribers mirror the federation**: a greeted client that subscribes to it, and applies
what it is sent from then on, holds the keys of the broker's federation as long as it is
connected, and under each key a target that differs in nothing a client could act on, whatever
targets came, went, returned or moved their clocks. -/
theorem federation_mirror (serverVersion : String) (features : List String)
    (quickReplies : List QuickReply) (before rest : List Event) (client : ClientId)
    (hg : (after E serverVersion features quickReplies before).greeted client = true)
    (hc : client ∈ (after E serverVersion features quickReplies
      (before ++ .handle client .subscribeState :: rest)).clients) :
    let s := (exec (observe step (mirror client))
      (Broker.new E serverVersion features quickReplies, none)
      (before ++ .handle client .subscribeState :: rest)).1
    ∃ held, s.2 = some held ∧
      (∀ key : TargetSession, key ∈ held ↔ key ∈ s.1.state.targets) ∧
      ∀ (key : TargetSession) (target current : TargetRuntimeState),
        held[key]? = some target → s.1.state.targets[key]? = some current →
          target.differsForClients current = false := by
  intro s
  have hwatches : Watches client s := by
    refine exec_invariant (fun s event h => h.step event) ?_ _
    intro hsubscribed
    simp [Broker.new] at hsubscribed
  have hsame : s.1 = after E serverVersion features quickReplies
      (before ++ .handle client .subscribeState :: rest) := exec_observe_fst _ _ _ _
  have hsubscribed : s.1.Subscribed client := by
    rw [hsame, after, exec_append]
    have hb := wellFormed_after (E := E) serverVersion features quickReplies before
    exact exec_invariant (I := fun b : Broker E => b.Subscribed client)
      (fun b event h => h.step event) (subscribed_of_subscribeState hb hg) rest
  have hmarked : s.1.clients[client]?.map Client.stateSubscribed = some true := by
    rw [← hsame] at hc
    obtain ⟨session, hs⟩ := Option.isSome_iff_exists.mp (ExtTreeMap.mem_iff_isSome_getElem?.mp hc)
    rw [hs, Option.map_some, hsubscribed.marked session hs]
  obtain ⟨held, hheld, hmirrors⟩ := hwatches hmarked
  refine ⟨held, hheld, fun key => ?_, fun key target current htarget hcurrent => ?_⟩
  · rw [ExtTreeMap.mem_iff_isSome_getElem?, ExtTreeMap.mem_iff_isSome_getElem?,
      ← Option.isSome_map (f := TargetRuntimeState.published), hmirrors key, Option.isSome_map]
  · have hpublished := hmirrors key
    rw [htarget, hcurrent] at hpublished
    exact TargetRuntimeState.differsForClients_eq_false.mpr (Option.some.inj hpublished)

/-- A target for concrete runs, as it was last read at some time. -/
def readAt (time : ℕ) : TargetRuntimeState :=
  ⟨⟨"local", "default"⟩, "local", .live, .polling, none, 1, none, [], none, none, some time, none⟩

/-- A target comes, is read again, goes and returns while a client watches. -/
def watchedTarget : List Event :=
  [.federationUpdated ⟨2, ExtTreeMap.empty.insert ⟨"local", "default"⟩ (readAt 1)⟩,
    .federationUpdated ⟨3, ExtTreeMap.empty.insert ⟨"local", "default"⟩ (readAt 2)⟩,
    .federationUpdated ⟨4, ∅⟩,
    .federationUpdated ⟨5, ExtTreeMap.empty.insert ⟨"local", "default"⟩ (readAt 3)⟩,
    .federationUpdated ⟨6, ExtTreeMap.empty.insert ⟨"local", "default"⟩ (readAt 4)⟩]

theorem federation_mirror_returned :
    ((ran (greeting 0)).greeted 0 = true ∧
      (0 : ClientId) ∈ (ran (greeting 0 ++ .handle 0 .subscribeState :: watchedTarget)).clients) ∧
    ∃ held, (exec (observe step (mirror 0)) (Broker.new teletype "0.9.0" [] [], none)
        (greeting 0 ++ .handle 0 .subscribeState :: watchedTarget)).1.2 = some held ∧
      ((⟨"local", "default"⟩ : TargetSession) ∈ held ↔ (⟨"local", "default"⟩ : TargetSession) ∈
        (exec (observe step (mirror 0)) (Broker.new teletype "0.9.0" [] [], none)
          (greeting 0 ++ .handle 0 .subscribeState :: watchedTarget)).1.1.state.targets) := by
  have hg : (ran (greeting 0)).greeted 0 = true := by decide
  have hc : (0 : ClientId) ∈
      (ran (greeting 0 ++ .handle 0 .subscribeState :: watchedTarget)).clients := by decide
  obtain ⟨held, hheld, hkeys, -⟩ :=
    federation_mirror "0.9.0" [] [] (greeting 0) watchedTarget 0 hg hc
  exact ⟨⟨hg, hc⟩, held, hheld, hkeys _⟩

end Broker

end SuperHerdr
