import SuperHerdr.Broker.Basic

/-!
# Sessions

What the table of clients is kept to, whatever happens to panes: the identifiers in it are
below the next one to be issued, so that a new connection never inherits anything, and a
connection that has not been greeted has no subscription.

Operations other than `connect` never invent a session and never un-greet one. That is the
relation `Succeeds`, and `WellFormed` is carried along it.
-/

namespace SuperHerdr

open Std Transducer

variable {E : Emulator}

/-- `session'` may follow `session`: a session that was greeted stays so, and one that was not
gains no subscription. -/
def Client.Follows (session session' : Client) : Prop :=
  session'.greeted = false → session.greeted = false ∧
    ∀ pane : PaneId, session.panes[pane]? = none → session'.panes[pane]? = none

theorem Client.Follows.refl (session : Client) : session.Follows session :=
  fun h => ⟨h, fun _ hp => hp⟩

theorem Client.follows_of_panes (session : Client)
    {panes : ExtTreeMap PaneId PaneSubscription}
    (h : ∀ pane : PaneId, session.panes[pane]? = none → panes[pane]? = none) :
    session.Follows { session with panes } := fun hg => ⟨hg, h⟩

namespace Broker

/-- What the table of clients is kept to. -/
structure WellFormed (b : Broker E) : Prop where
  fresh : ∀ (client : ClientId) (session : Client), b.clients[client]? = some session →
    client < b.nextClient
  greeted : ∀ (client : ClientId) (session : Client), b.clients[client]? = some session →
    session.greeted = false → ∀ pane : PaneId, session.panes[pane]? = none

/-- `clients'` may follow `clients`: every session of it follows one that was there. -/
def Inherits (clients clients' : ExtTreeMap ClientId Client) : Prop :=
  ∀ (client : ClientId) (session' : Client), clients'[client]? = some session' →
    ∃ session, clients[client]? = some session ∧ session.Follows session'

variable (clients : ExtTreeMap ClientId Client)

theorem Inherits.refl : Inherits clients clients :=
  fun _ session' h => ⟨session', h, Client.Follows.refl session'⟩

theorem Inherits.trans {clients clients' clients'' : ExtTreeMap ClientId Client}
    (h : Inherits clients clients') (h' : Inherits clients' clients'') :
    Inherits clients clients'' := by
  intro client session'' hs''
  obtain ⟨session', hs', hf'⟩ := h' client session'' hs''
  obtain ⟨session, hs, hf⟩ := h client session' hs'
  refine ⟨session, hs, fun hg'' => ?_⟩
  obtain ⟨hg', hp'⟩ := hf' hg''
  obtain ⟨hg, hp⟩ := hf hg'
  exact ⟨hg, fun pane hnone => hp' pane (hp pane hnone)⟩

theorem inherits_modify (client : ClientId)
    {f : Client → Client} (hf : ∀ session : Client, session.Follows (f session)) :
    Inherits clients (clients.modify client f) := by
  intro client' session' hs
  by_cases hc : client = client'
  · subst hc
    rw [ExtTreeMap.getElem?_modify_self] at hs
    obtain ⟨session, hold, rfl⟩ := Option.map_eq_some_iff.mp hs
    exact ⟨session, hold, hf session⟩
  · rw [ExtTreeMap.getElem?_modify, if_neg (by simpa using hc)] at hs
    exact ⟨session', hs, Client.Follows.refl session'⟩

theorem inherits_erase (client : ClientId) : Inherits clients (clients.erase client) := by
  intro client' session' hs
  rw [ExtTreeMap.getElem?_erase] at hs
  split at hs
  · cases hs
  · exact ⟨session', hs, Client.Follows.refl session'⟩

theorem inherits_modifySubscription (client : ClientId)
    (pane : PaneId) (f : PaneSubscription → PaneSubscription) :
    Inherits clients (modifySubscription clients client pane f) := by
  refine inherits_modify clients client fun session => session.follows_of_panes ?_
  intro other hnone
  by_cases hp : pane = other
  · subst hp
    rw [ExtTreeMap.getElem?_modify_self, hnone, Option.map_none]
  · rw [ExtTreeMap.getElem?_modify, if_neg (by simpa using hp), hnone]

theorem inherits_erasePane (client : ClientId) (pane : PaneId) :
    Inherits clients (clients.modify client fun session =>
      { session with panes := session.panes.erase pane }) := by
  refine inherits_modify clients client fun session => session.follows_of_panes ?_
  intro other hnone
  rw [ExtTreeMap.getElem?_erase]
  split
  · rfl
  · exact hnone

theorem inherits_exec {α β : Type*}
    {body : ExtTreeMap ClientId Client → α → ExtTreeMap ClientId Client × List β}
    (hbody : ∀ clients a, Inherits clients (body clients a).1)
    (clients : ExtTreeMap ClientId Client) (is : List α) :
    Inherits clients (exec body clients is).1 :=
  exec_invariant (fun clients' a h => h.trans (hbody clients' a)) (Inherits.refl clients) is

/-- A broker may **succeed** another: its sessions follow, and no identifier was issued. -/
structure Succeeds (b b' : Broker E) : Prop where
  sessions : Inherits b.clients b'.clients
  nextClient : b'.nextClient = b.nextClient

theorem Succeeds.wellFormed {b b' : Broker E} (h : Succeeds b b') (hb : b.WellFormed) :
    b'.WellFormed where
  fresh client session' hs' := by
    obtain ⟨session, hs, -⟩ := h.sessions client session' hs'
    rw [h.nextClient]
    exact hb.fresh client session hs
  greeted client session' hs' hg' pane := by
    obtain ⟨session, hs, hf⟩ := h.sessions client session' hs'
    obtain ⟨hg, hp⟩ := hf hg'
    exact hp pane (hb.greeted client session hs hg pane)

theorem Succeeds.refl (b : Broker E) : Succeeds b b := ⟨Inherits.refl b.clients, rfl⟩

theorem Succeeds.trans {b b' b'' : Broker E} (h : Succeeds b b') (h' : Succeeds b' b'') :
    Succeeds b b'' :=
  ⟨h.sessions.trans h'.sessions, h'.nextClient.trans h.nextClient⟩

theorem Succeeds.of_clients {b b' : Broker E} (hclients : b'.clients = b.clients)
    (hnext : b'.nextClient = b.nextClient) : Succeeds b b' :=
  ⟨hclients ▸ Inherits.refl b.clients, hnext⟩

/-! ### Every operation but `connect` succeeds -/

theorem succeeds_releaseScreenIfUnwatched (b : Broker E) (pane : PaneId) :
    Succeeds b (b.releaseScreenIfUnwatched pane) := by
  unfold releaseScreenIfUnwatched
  split
  · exact Succeeds.refl b
  · exact Succeeds.of_clients rfl rfl

theorem succeeds_releasePane (b : Broker E) (client : ClientId) (pane : PaneId) :
    Succeeds b (b.releasePane client pane).1 := by
  unfold releasePane
  cases b.routes[pane]? with
  | none => exact Succeeds.refl b
  | some route =>
    have hkept : ∀ route, Succeeds b
        ({ b with routes := b.routes.insert pane route }.releaseScreenIfUnwatched pane) := by
      intro route
      have hwritten : Succeeds b { b with routes := b.routes.insert pane route } :=
        Succeeds.of_clients rfl rfl
      exact hwritten.trans (succeeds_releaseScreenIfUnwatched _ pane)
    simp only
    split
    · exact Succeeds.of_clients rfl rfl
    · split
      · exact ⟨(hkept _).sessions, (hkept _).nextClient⟩
      · exact hkept _

theorem succeeds_disconnect (b : Broker E) (client : ClientId) :
    Succeeds b (b.disconnect client).1 := by
  unfold disconnect
  cases b.clients[client]? with
  | none => exact Succeeds.refl b
  | some departing =>
    have hgone : Succeeds b { b with clients := b.clients.erase client } :=
      ⟨inherits_erase b.clients client, rfl⟩
    exact exec_invariant (fun b' pane h => h.trans (succeeds_releasePane b' client pane)) hgone
      departing.panes.keys

theorem inherits_subscribe {clients : ExtTreeMap ClientId Client} {client : ClientId}
    {session : Client} (hc : clients[client]? = some session) (hg : session.greeted = true)
    (panes : ExtTreeMap PaneId PaneSubscription) :
    Inherits clients (clients.insert client { session with panes }) := by
  intro client' session' hs
  by_cases hcc : client = client'
  · subst hcc
    rw [ExtTreeMap.getElem?_insert_self] at hs
    obtain rfl := Option.some.inj hs
    refine ⟨session, hc, fun hungreeted => ?_⟩
    rw [hg] at hungreeted
    cases hungreeted
  · rw [ExtTreeMap.getElem?_insert, if_neg (by simpa using hcc)] at hs
    exact ⟨session', hs, Client.Follows.refl session'⟩

variable {b : Broker E}

theorem succeeds_subscribePane {client : ClientId} {session : Client}
    (hc : b.clients[client]? = some session) (hg : session.greeted = true) (pane : PaneId)
    (access : TerminalAccess) (cols rows : UInt16) (representation : PaneRepresentation) :
    Succeeds b (b.subscribePane client pane access cols rows representation).1 := by
  have hinsert := inherits_subscribe hc hg
    (session.panes.insert pane ⟨access, cols, rows, representation, none, []⟩)
  simp only [subscribePane, hc]
  refine ⟨?_, rfl⟩
  split
  · exact hinsert.trans (inherits_modifySubscription _ client pane _)
  · exact hinsert

theorem succeeds_takeControl (b : Broker E) (client : ClientId) (pane : PaneId)
    (onlyIfFree : Bool) : Succeeds b (b.takeControl client pane onlyIfFree).1 := by
  unfold takeControl
  repeat' split
  all_goals exact Succeeds.of_clients rfl rfl

theorem succeeds_ackPaneScreen (b : Broker E) (client : ClientId) (pane : PaneId)
    (sequence : ℕ) : Succeeds b (b.ackPaneScreen client pane sequence).1 := by
  have hsettle := inherits_modifySubscription b.clients client pane (·.settle sequence)
  unfold ackPaneScreen
  split
  · exact Succeeds.refl b
  · split
    · exact Succeeds.refl b
    · simp only
      split
      · exact ⟨hsettle, rfl⟩
      · split
        · exact ⟨hsettle, rfl⟩
        · exact ⟨hsettle.trans (inherits_modifySubscription _ client pane _), rfl⟩

theorem inherits_offerTo (pane : PaneId) (rendered : Rendered)
    (clients : ExtTreeMap ClientId Client) (client : ClientId) :
    Inherits clients (offerTo pane rendered clients client).1 := by
  unfold offerTo
  split
  · exact Inherits.refl clients
  · split
    · exact Inherits.refl clients
    · exact inherits_modifySubscription clients client pane _

theorem succeeds_paneFrame (b : Broker E) (pane : PaneId) (sequence : ℕ)
    (width height : UInt16) (full : Bool) (bytes : List UInt8) :
    Succeeds b (b.paneFrame pane sequence width height full bytes).1 := by
  unfold paneFrame
  split
  · exact Succeeds.refl b
  · simp only
    split
    · exact Succeeds.of_clients rfl rfl
    · exact ⟨inherits_exec (inherits_offerTo pane _) b.clients _, rfl⟩

theorem succeeds_paneRouteClosed (b : Broker E) (pane : PaneId) :
    Succeeds b (b.paneRouteClosed pane).1 := by
  unfold paneRouteClosed
  split
  · exact Succeeds.refl b
  · exact ⟨inherits_exec (fun clients client => inherits_erasePane clients client pane)
      b.clients _, rfl⟩

theorem succeeds_federationUpdated (b : Broker E) (state : FederationState) :
    Succeeds b (b.federationUpdated state).1 := by
  have hstate : Succeeds b { b with state } := Succeeds.of_clients rfl rfl
  exact exec_invariant (fun b' pane h => h.trans (succeeds_paneRouteClosed b' pane)) hstate _

theorem succeeds_withLease {operation : Broker E × List Effect}
    (h : Succeeds b operation.1) (client : ClientId) (pane : PaneId) :
    Succeeds b (b.withLease client pane operation).1 := by
  unfold withLease
  split
  · exact h
  · exact Succeeds.refl b

theorem succeeds_flag (b : Broker E) (client : ClientId) {f : Client → Client}
    (hgreeted : ∀ session, (f session).greeted = false → session.greeted = false)
    (hpanes : ∀ session, (f session).panes = session.panes) :
    Succeeds b { b with clients := b.clients.modify client f } := by
  refine ⟨inherits_modify b.clients client fun session hg => ?_, rfl⟩
  exact ⟨hgreeted session hg, fun pane hnone => by rw [hpanes, hnone]⟩

theorem succeeds_serve {client : ClientId} {session : Client}
    (hc : b.clients[client]? = some session) (hg : session.greeted = true)
    (message : ClientMessage) : Succeeds b (b.serve client message).1 := by
  cases message with
  | subscribePane pane access cols rows representation =>
    exact succeeds_subscribePane hc hg pane access cols rows representation
  | ackPaneScreen pane sequence => exact succeeds_ackPaneScreen b client pane sequence
  | takePaneControl pane onlyIfFree => exact succeeds_takeControl b client pane onlyIfFree
  | unsubscribePane pane =>
    simp only [serve]
    split
    · exact Succeeds.refl b
    · have hforget : Succeeds b { b with clients := b.clients.modify client fun session =>
          { session with panes := session.panes.erase pane } } :=
        ⟨inherits_erasePane b.clients client pane, rfl⟩
      exact hforget.trans (succeeds_releasePane _ client pane)
  | paneResize pane cols rows =>
    have hresized : Succeeds b (b.paneResize client pane cols rows).1 :=
      ⟨inherits_modifySubscription b.clients client pane _, rfl⟩
    exact succeeds_withLease hresized client pane
  | paneInput pane | paneScroll pane | pastePaneText _ pane | beginUpload _ pane
  | resumeUpload _ _ pane | beginDownload _ pane =>
    exact succeeds_withLease (Succeeds.refl b) client pane
  | transferBetween _ source _ destination =>
    exact succeeds_withLease (succeeds_withLease (Succeeds.refl b) client destination) client
      source
  | subscribeState | subscribeNotifications | unsubscribeNotifications | subscribeAgentCards =>
    exact succeeds_flag b client (fun _ h => h) fun _ => rfl
  | _ => exact Succeeds.refl b

theorem succeeds_handle (b : Broker E) (client : ClientId) (message : ClientMessage) :
    Succeeds b (b.handle client message).1 := by
  unfold handle
  cases hc : b.clients[client]? with
  | none => exact Succeeds.refl b
  | some session =>
    simp only
    split
    · exact succeeds_serve hc ‹_› message
    · unfold handshake
      split
      · split
        · exact succeeds_flag b client (fun _ h => by cases h) fun _ => rfl
        · exact Succeeds.refl b
      · exact Succeeds.refl b

/-! ### Every reachable table is well formed -/

theorem wellFormed_new (serverVersion : String) (features : List String)
    (quickReplies : List QuickReply) :
    (Broker.new E serverVersion features quickReplies).WellFormed where
  fresh client session h := by simp [Broker.new] at h
  greeted client session h := by simp [Broker.new] at h

theorem wellFormed_connect (hb : b.WellFormed) : b.connect.1.WellFormed where
  fresh client session hs := by
    simp only [connect, ExtTreeMap.getElem?_insert] at hs ⊢
    split at hs
    · obtain rfl : b.nextClient = client := by
        simpa using ‹compare b.nextClient client = .eq›
      exact Nat.lt_succ_self _
    · exact Nat.lt_succ_of_lt (hb.fresh client session hs)
  greeted client session hs hg pane := by
    simp only [connect, ExtTreeMap.getElem?_insert] at hs
    split at hs
    · obtain rfl := Option.some.inj hs
      simp [Client.new]
    · exact hb.greeted client session hs hg pane

/-- **Every operation but `connect` succeeds.** -/
theorem succeeds_step (b : Broker E) {event : Event} (hne : event ≠ .connect) :
    Succeeds b (b.step event).1 := by
  cases event with
  | connect => exact absurd rfl hne
  | disconnect client => exact succeeds_disconnect b client
  | handle client message => exact succeeds_handle b client message
  | federationUpdated state => exact succeeds_federationUpdated b state
  | paneFrame pane sequence width height full bytes =>
    exact succeeds_paneFrame b pane sequence width height full bytes
  | paneRouteClosed pane => exact succeeds_paneRouteClosed b pane
  | closeIfUnclaimed pane =>
    simp only [step, closeIfUnclaimed]
    split <;> exact Succeeds.of_clients rfl rfl
  | routeDowngraded pane =>
    simp only [step, routeDowngraded]
    repeat' split
    all_goals exact Succeeds.of_clients rfl rfl
  | agentCardsUpdated projection =>
    simp only [step, agentCardsUpdated]
    split <;> exact Succeeds.of_clients rfl rfl
  | _ => exact Succeeds.refl b

/-- **Every operation keeps the table of clients well formed.** -/
theorem wellFormed_step (hb : b.WellFormed) (event : Event) : (b.step event).1.WellFormed := by
  by_cases hconnect : event = .connect
  · subst hconnect
    exact wellFormed_connect hb
  · exact (succeeds_step b hconnect).wellFormed hb

end Broker

end SuperHerdr
