import SuperHerdr.Broker.Representation

/-!
# Authority and refusals

Messages that act on a pane as a person at its keyboard would are refused unless their sender
holds the pane's control lease. The check reads one field of the route; that it is sound (the
holder was greeted and watches the pane) is the representation invariant.

The module proves what the check grants, `lease_authority`, and what a refusal looks like. The
refusal is one message for all the messages that need a lease, and it does not name the
request it refuses: `answered_iff_leases` says exactly when a request is answered.
-/

namespace SuperHerdr

open Std Transducer

variable {E : Emulator}

/-! ### What needs a lease -/

/-- The panes whose lease an effect exercises. -/
def Effect.exercises : Effect → List PaneId
  | .routeInput pane _ | .routeScroll pane _ _ _ _ _ | .pastePaneText _ _ pane _
  | .beginUpload _ _ pane _ _ _ | .resumeUpload _ _ _ pane _ | .beginDownload _ _ pane _ => [pane]
  | .transferBetween _ _ source _ destination _ => [source, destination]
  | _ => []

/-- The client and the request an effect is performed for. -/
def Effect.request : Effect → Option (ClientId × ℕ)
  | .runOperation client request _ | .listPluginActions client request _
  | .getPluginRun client request _ | .pastePaneText client request _ _
  | .beginUpload client request _ _ _ _ | .resumeUpload client request _ _ _
  | .uploadChunk client request _ | .finishUpload client request _ | .cancelUpload client request
  | .beginDownload client request _ _ | .pullDownload client request _
  | .cancelDownload client request | .transferBetween client request _ _ _ _
  | .markAgent client request _ _ | .localNaming client request _
  | .listRemoteDirectory client request _ _ _ | .searchRemoteFiles client request _ _ _ _
  | .issuePairingCode client request => some (client, request)
  | _ => none

/-- Whether an effect tells a client that one of its requests failed. -/
def Effect.refuses (client : ClientId) (request : ℕ) : Effect → Bool
  | .send receiver (.error (some failed) _) => receiver = client ∧ failed = request
  | _ => false

/-- A message that manages a subscription or a lease, and the pane it names. -/
def ClientMessage.manages : ClientMessage → Option PaneId
  | .subscribePane pane _ _ _ _ | .unsubscribePane pane | .takePaneControl pane _
  | .ackPaneScreen pane _ => some pane
  | _ => none

namespace Broker

/-- The refusal every lease check shares. -/
def leaseRefusal (client : ClientId) (pane : PaneId) : List Effect :=
  [.send client (.error none
    ("this connection does not hold the control lease for " ++ toString pane))]

variable {client : ClientId} {b : Broker E} {pane : PaneId}

theorem withLease_of_held (h : b.holdsControl client pane) (operation : Broker E × List Effect) :
    b.withLease client pane operation = operation := if_pos h

theorem withLease_of_not_held
    (h : ¬ b.holdsControl client pane) (operation : Broker E × List Effect) :
    b.withLease client pane operation = (b, leaseRefusal client pane) := if_neg h

variable {message : ClientMessage}

/-- **A missing lease refuses the message**, whole: nothing changes and the sender is told. -/
theorem serve_of_not_held (h : ¬ ∀ pane ∈ message.leased, b.holdsControl client pane) :
    ∃ pane ∈ message.leased, ¬ b.holdsControl client pane ∧
      b.serve client message = (b, leaseRefusal client pane) := by
  cases message with
  | paneInput pane | paneResize pane | paneScroll pane | pastePaneText _ pane
  | beginUpload _ pane | resumeUpload _ _ pane | beginDownload _ pane =>
    have hnot : ¬ b.holdsControl client pane := by simpa [ClientMessage.leased] using h
    exact ⟨pane, by simp [ClientMessage.leased], hnot, withLease_of_not_held hnot _⟩
  | transferBetween _ source _ destination =>
    by_cases hs : b.holdsControl client source
    · have hd : ¬ b.holdsControl client destination := by
        simpa [ClientMessage.leased, hs] using h
      refine ⟨destination, by simp [ClientMessage.leased], hd, ?_⟩
      rw [serve, withLease_of_held hs, withLease_of_not_held hd]
    · exact ⟨source, by simp [ClientMessage.leased], hs, withLease_of_not_held hs _⟩
  | _ => simp [ClientMessage.leased] at h

theorem handle_of_greeted (h : b.greeted client)
    (message : ClientMessage) : b.handle client message = b.serve client message := by
  obtain ⟨session, hc, hg⟩ := (Option.any_eq_true _ _).mp h
  simp [handle, hc, hg]

/-! ### Requests and refusals -/

/-- A request is **answered** by a list of effects with exactly one effect performed for it, or
exactly one error naming it, and not both. -/
def Answered (client : ClientId) (request : ℕ) (effects : List Effect) : Prop :=
  effects.countP (fun effect => effect.request = some (client, request)) +
    effects.countP (Effect.refuses client request) = 1

instance (client : ClientId) (request : ℕ) (effects : List Effect) :
    Decidable (Answered client request effects) := inferInstanceAs (Decidable (_ = _))

variable {effect : Effect}

theorem refuses_of_request {performed : ClientId × ℕ}
    (h : effect.request = some performed) (client : ClientId) (request : ℕ) :
    effect.refuses client request = false := by
  cases effect <;> first | rfl | simp [Effect.request] at h

/-- With every lease it needs, a request causes the one effect it asks for. -/
theorem serve_request {request : ℕ} (hheld : ∀ pane ∈ message.leased, b.holdsControl client pane)
    (hr : message.request = some request) :
    ∃ effect, (b.serve client message).2 = [effect] ∧
      effect.request = some (client, request) := by
  cases message with
  | pastePaneText _ pane | beginUpload _ pane | resumeUpload _ _ pane | beginDownload _ pane =>
    have hpane : b.holdsControl client pane := hheld pane (by simp [ClientMessage.leased])
    obtain rfl := Option.some.inj hr
    rw [serve, withLease_of_held hpane]
    exact ⟨_, rfl, rfl⟩
  | transferBetween _ source _ destination =>
    have hs : b.holdsControl client source := hheld source (by simp [ClientMessage.leased])
    have hd : b.holdsControl client destination :=
      hheld destination (by simp [ClientMessage.leased])
    obtain rfl := Option.some.inj hr
    rw [serve, withLease_of_held hs, withLease_of_held hd]
    exact ⟨_, rfl, rfl⟩
  | _ =>
    -- either it carries no request, or no lease stands in its way
    cases hr <;> exact ⟨_, rfl, rfl⟩

/-- **When a request is answered**: exactly when its sender holds every lease the message
needs. Otherwise the sender is told that it holds no lease, and not which of its requests that
was about. -/
theorem answered_iff_leases {b : Broker E} {client : ClientId} {message : ClientMessage}
    {request : ℕ} (hg : b.greeted client) (hr : message.request = some request) :
    Answered client request (b.handle client message).2 ↔
      ∀ pane ∈ message.leased, b.holdsControl client pane := by
  rw [handle_of_greeted hg]
  constructor
  · intro hanswered
    by_contra hmissing
    obtain ⟨pane, -, -, hrefused⟩ := serve_of_not_held hmissing
    rw [hrefused] at hanswered
    simp [Answered, leaseRefusal, Effect.request, Effect.refuses] at hanswered
  · intro hheld
    obtain ⟨effect, heffects, hperformed⟩ := serve_request hheld hr
    rw [heffects]
    simp [Answered, hperformed, refuses_of_request hperformed]

theorem answered_iff_leases_paste :
    ((ran (greeting 0)).greeted 0 = true ∧
      (ClientMessage.pastePaneText 7 pane₁ "ls").request = some 7) ∧
    (Answered 0 7 ((ran (greeting 0)).handle 0 (.pastePaneText 7 pane₁ "ls")).2 ↔
      ∀ pane ∈ (ClientMessage.pastePaneText 7 pane₁ "ls").leased,
        (ran (greeting 0)).holdsControl 0 pane) :=
  ⟨⟨by decide, rfl⟩, answered_iff_leases (by decide) rfl⟩

/-- One client controls a pane and another observes it. -/
def contested : List Event :=
  greeting 0 ++ greeting 1 ++
    [.handle 0 (.subscribePane pane₁ .control 80 24 .frames),
      .handle 1 (.subscribePane pane₁ .observe 80 24 .frames)]

/-- The observer takes the control, and then the upload of the first client arrives. -/
def lateUpload : List Event := contested ++ [.handle 1 (.takePaneControl pane₁ false)]

/-- The refusal names no request, and the uploader waits for one. -/
theorem refusal_without_request :
    (ran lateUpload).greeted 0 = true ∧
      ¬ Answered 0 7 ((ran lateUpload).handle 0 (.beginUpload 7 pane₁ "image/png" none 3)).2 := by
  decide

/-! ### Lease authority -/

/-- A client **commands** a pane: it was greeted, watches the pane and is the holder of the
pane's one control lease. -/
structure Commands (b : Broker E) (client : ClientId) (pane : PaneId) : Prop where
  greeted : b.greeted client = true
  subscribed : ∃ route, b.routes[pane]? = some route ∧ client ∈ route.subscribers
  control : b.routes[pane]?.bind Route.control = some client

theorem commands_of_holdsControl (hb : b.Coherent) (hg : b.greeted client = true)
    (h : b.holdsControl client pane) :
    Commands b client pane := by
  have hctl : b.routes[pane]?.bind Route.control = some client := by
    simpa [holdsControl] using h
  obtain ⟨route, hr, hc⟩ := Option.bind_eq_some_iff.mp hctl
  exact ⟨hg, ⟨route, hr, hb.control_subscribed pane route client hr hc⟩, hctl⟩

theorem exercises_of_about (h : effect.about pane = true) : effect.exercises = [] := by
  cases effect <;> first | rfl | simp [Effect.about] at h

theorem OnlyAbout.exercises {effects : List Effect} (h : OnlyAbout pane effects)
    (he : effect ∈ effects) : effect.exercises = [] :=
  exercises_of_about (by rw [h effect he pane, decide_eq_true rfl])

theorem onlyAbout_subscribePane (b : Broker E) (client : ClientId) (pane : PaneId)
    (access : TerminalAccess) (cols rows : UInt16) (representation : PaneRepresentation) :
    OnlyAbout pane (b.subscribePane client pane access cols rows representation).2 := by
  unfold subscribePane
  split
  · exact onlyAbout_nil pane
  · refine ((onlyAbout_of_administer (administer_join _ client access cols rows)).append
      ?_).append (onlyAbout_send rfl client)
    split
    · exact onlyAbout_send rfl client
    · exact onlyAbout_nil pane

theorem onlyAbout_releasePane (b : Broker E) (client : ClientId) (pane : PaneId) :
    OnlyAbout pane (b.releasePane client pane).2 := by
  unfold releasePane
  split
  · exact onlyAbout_nil pane
  · simp only
    split_ifs
    · exact onlyAbout_singleton fun other => rfl
    · exact onlyAbout_of_administer (administer_dropControl _)
    · exact onlyAbout_nil pane

theorem onlyAbout_ackPaneScreen (b : Broker E) (client : ClientId) (pane : PaneId)
    (sequence : ℕ) : OnlyAbout pane (b.ackPaneScreen client pane sequence).2 := by
  unfold ackPaneScreen
  split
  · exact onlyAbout_nil pane
  · split
    · exact onlyAbout_nil pane
    · simp only
      split
      · exact onlyAbout_nil pane
      · split_ifs
        · exact onlyAbout_nil pane
        · exact onlyAbout_send (updateFor_pane _ pane _) client

theorem takeControl_exercises {onlyIfFree : Bool}
    (he : effect ∈ (b.takeControl client pane onlyIfFree).2) : effect.exercises = [] := by
  unfold takeControl at he
  split at he
  · cases he
  · split at he
    · rw [List.mem_singleton.mp he]
      rfl
    · split at he
      · cases he
      · simp only at he
        split_ifs at he
        · cases he
        · rw [List.mem_singleton.mp he]
          rfl
        · exact (onlyAbout_of_administer (administer_handOver _ client _ _)).exercises he

/-- Serving a message exercises no lease the message does not name. -/
theorem serve_exercises (he : effect ∈ (b.serve client message).2) :
    ∀ pane ∈ effect.exercises, pane ∈ message.leased := by
  by_cases hheld : ∀ pane ∈ message.leased, b.holdsControl client pane
  · cases message with
    | subscribePane pane access cols rows representation =>
      rw [(onlyAbout_subscribePane b client pane access cols rows representation).exercises he]
      simp
    | ackPaneScreen pane sequence =>
      rw [(onlyAbout_ackPaneScreen b client pane sequence).exercises he]
      simp
    | takePaneControl pane onlyIfFree =>
      rw [takeControl_exercises he]
      simp
    | unsubscribePane pane =>
      simp only [serve] at he
      split at he
      · cases he
      · rw [(onlyAbout_releasePane _ client pane).exercises he]
        simp
    | paneInput pane | paneResize pane | paneScroll pane | pastePaneText _ pane
    | beginUpload _ pane | resumeUpload _ _ pane | beginDownload _ pane =>
      have hpane : b.holdsControl client pane := hheld pane (by simp [ClientMessage.leased])
      rw [serve, withLease_of_held hpane] at he
      rw [List.mem_singleton.mp he]
      simp [Effect.exercises, ClientMessage.leased]
    | transferBetween _ source _ destination =>
      have hs : b.holdsControl client source := hheld source (by simp [ClientMessage.leased])
      have hd : b.holdsControl client destination :=
        hheld destination (by simp [ClientMessage.leased])
      rw [serve, withLease_of_held hs, withLease_of_held hd] at he
      rw [List.mem_singleton.mp he]
      simp [Effect.exercises, ClientMessage.leased]
    | subscribeAgentCards =>
      simp only [serve] at he
      split at he
      · rw [List.mem_singleton.mp he]
        simp [Effect.exercises]
      · cases he
    | hello | subscribeState =>
      rcases List.mem_pair.mp he with rfl | rfl <;> simp [Effect.exercises]
    | subscribeNotifications | unsubscribeNotifications => cases he
    | _ =>
      rw [List.mem_singleton.mp he]
      simp [Effect.exercises]
  · obtain ⟨pane, -, -, hrefused⟩ := serve_of_not_held hheld
    rw [hrefused] at he
    rw [List.mem_singleton.mp he]
    simp [Effect.exercises]

/-- A client that was not greeted is answered with an error, or with the greeting, or has its
connection closed; it can cause nothing else. -/
theorem handle_of_not_greeted (hg : b.greeted client = false)
    (he : effect ∈ (b.handle client message).2) :
    (∃ request text, effect = .send client (.error request text)) ∨
      (∃ protocol serverVersion features quickReplies,
        effect = .send client (.hello protocol serverVersion features quickReplies)) ∨
      ∃ reason, effect = .disconnect client reason := by
  have hrefuse : ∀ reason, effect ∈ refuse client reason →
      (∃ request text, effect = .send client (.error request text)) ∨
        (∃ protocol serverVersion features quickReplies,
          effect = .send client (.hello protocol serverVersion features quickReplies)) ∨
        ∃ reason, effect = .disconnect client reason := by
    intro reason he
    rcases List.mem_pair.mp he with rfl | rfl
    · exact .inl ⟨none, reason, rfl⟩
    · exact .inr (.inr ⟨reason, rfl⟩)
  cases hc : b.clients[client]? with
  | none =>
    rw [handle, hc] at he
    cases he
  | some session =>
    have hs : session.greeted = false := by simpa [greeted, hc] using hg
    simp only [handle, hc, hs, handshake, Bool.false_eq_true, if_false] at he
    split at he
    · split_ifs at he
      · rw [List.mem_singleton.mp he]
        exact .inr (.inl ⟨_, _, _, _, rfl⟩)
      · exact hrefuse _ he
    · exact hrefuse _ he

/-- Everything about panes in one broker is as in another. -/
structure SamePanes (b b' : Broker E) : Prop where
  routes : b'.routes = b.routes
  screens : b'.screens = b.screens
  subscriptions : ∀ client pane, b'.subscription client pane = b.subscription client pane

theorem SamePanes.refl (b : Broker E) : SamePanes b b := ⟨rfl, rfl, fun _ _ => rfl⟩

theorem samePanes_flag (b : Broker E) (client : ClientId) {f : Client → Client}
    (hf : ∀ session, (f session).panes = session.panes) :
    SamePanes b { b with clients := b.clients.modify client f } :=
  ⟨rfl, rfl, fun client' pane => subscriptionIn_modify_of_panes b.clients client client' pane hf⟩

theorem samePanes_serve (hm : message.manages = none) (hl : message.leased = []) :
    SamePanes b (b.serve client message).1 := by
  cases message with
  | subscribePane | unsubscribePane | takePaneControl | ackPaneScreen => cases hm
  | paneInput | paneResize | paneScroll | pastePaneText | beginUpload | resumeUpload
  | beginDownload | transferBetween => cases hl
  | subscribeState | subscribeNotifications | unsubscribeNotifications | subscribeAgentCards =>
    exact samePanes_flag b client fun _ => rfl
  | _ => exact SamePanes.refl b

/-- **A message without its lease changes nothing about panes**, and neither does one that
needs none. -/
theorem samePanes_handle (hb : b.Coherent) (hm : message.manages = none)
    (hl : message.leased = [] ∨ ∃ pane ∈ message.leased, ¬ Commands b client pane) :
    SamePanes b (b.handle client message).1 := by
  by_cases hg : b.greeted client = true
  · rw [handle_of_greeted hg]
    rcases hl with hnone | ⟨pane, hmem, hnot⟩
    · exact samePanes_serve hm hnone
    · have hmissing : ¬ ∀ pane ∈ message.leased, b.holdsControl client pane :=
        fun hheld => hnot (commands_of_holdsControl hb hg (hheld pane hmem))
      obtain ⟨_, -, -, hrefused⟩ := serve_of_not_held hmissing
      rw [hrefused]
      exact SamePanes.refl b
  · cases hc : b.clients[client]? with
    | none =>
      rw [handle, hc]
      exact SamePanes.refl b
    | some session =>
      have hs : session.greeted = false := by simpa [greeted, hc] using hg
      simp only [handle, hc, hs, handshake, Bool.false_eq_true, if_false]
      split
      · split_ifs
        · exact samePanes_flag b client fun _ => rfl
        · exact SamePanes.refl b
      · exact SamePanes.refl b

/-- What a managing message does to the pane it names, as an action of the pane, and that the
action leaves the subscriptions of other clients alone. -/
theorem messageAction_manages {p : PaneId} (hm : message.manages = some p) (client : ClientId) :
    ∃ a, (∀ pane, messageAction pane client message = if p = pane then some a else none) ∧
      ∀ (v : PaneView E) (other : ClientId), other ≠ client →
        (v.act p a).1.sub other = v.sub other := by
  cases message <;> cases hm
  case subscribePane access cols rows representation =>
    refine ⟨.subscribe client access cols rows representation, fun _ => rfl, fun v other hne => ?_⟩
    simp [PaneView.act, PaneView.subscribe, hne]
  case ackPaneScreen sequence =>
    refine ⟨.ack client sequence, fun _ => rfl, fun v other hne => ?_⟩
    rcases v.ack_eq p client sequence with h | ⟨s, sent, outstanding, -, h⟩
    · rw [PaneView.act, h]
    · simp [PaneView.act, h, hne]
  case unsubscribePane =>
    refine ⟨.leave client, fun _ => rfl, fun v other hne => ?_⟩
    simp [PaneView.act, hne]
  case takePaneControl onlyIfFree =>
    refine ⟨.take client onlyIfFree, fun _ => rfl, fun v other hne => ?_⟩
    rw [PaneView.act, PaneView.take_sub]

/-- A managing message touches the pane it names only, and of the subscriptions only its
sender's. -/
theorem handle_manages {p : PaneId} (hm : message.manages = some p) :
    (∀ other, other ≠ p → (b.handle client message).1.view other = b.view other) ∧
      ∀ (c : ClientId) (pane : PaneId), c ≠ client →
        (b.handle client message).1.subscription c pane = b.subscription c pane := by
  obtain ⟨a, haction, hothers⟩ := messageAction_manages (E := E) hm client
  have hview : ∀ pane, (b.handle client message).1.view pane =
      if p = pane ∧ b.greeted client then ((b.view pane).act pane a).1 else b.view pane := by
    intro pane
    rw [(seen_handle b client message pane).1, action, haction]
    by_cases hp : p = pane <;> by_cases hg : b.greeted client <;> simp [hp, hg, actOption]
  constructor
  · intro other hne
    rw [hview, if_neg fun h => hne h.1.symm]
  · intro c pane hc
    rw [← view_sub, ← view_sub, hview]
    split_ifs with h
    · rw [← h.1]
      exact hothers _ c hc
    · rfl

theorem commands_of_exercises (hb : b.Coherent) (he : effect ∈ (b.handle client message).2)
    (hpane : pane ∈ effect.exercises) : Commands b client pane := by
  by_cases hg : b.greeted client = true
  · rw [handle_of_greeted hg] at he
    by_cases hheld : ∀ pane ∈ message.leased, b.holdsControl client pane
    · exact commands_of_holdsControl hb hg (hheld pane (serve_exercises he pane hpane))
    · obtain ⟨_, -, -, hrefused⟩ := serve_of_not_held hheld
      rw [hrefused] at he
      rw [List.mem_singleton.mp he] at hpane
      cases hpane
  · rcases handle_of_not_greeted (by simpa using hg) he with
      ⟨_, _, rfl⟩ | ⟨_, _, _, _, rfl⟩ | ⟨_, rfl⟩ <;> cases hpane

/-- A resize that was asked for and is passed on was asked for by the client that commands the
pane. -/
theorem commands_of_resize (hb : b.Coherent) {p pane : PaneId} {cols rows cols' rows' : UInt16}
    (he : Effect.routeResize pane cols' rows' ∈ (b.handle client (.paneResize p cols rows)).2) :
    Commands b client pane := by
  by_cases hg : b.greeted client = true
  · rw [handle_of_greeted hg] at he
    by_cases hheld : b.holdsControl client p
    · rw [serve, withLease_of_held hheld] at he
      cases List.mem_singleton.mp he
      exact commands_of_holdsControl hb hg hheld
    · rw [serve, withLease_of_not_held hheld] at he
      cases List.mem_singleton.mp he
  · rcases handle_of_not_greeted (by simpa using hg) he with
      ⟨_, _, heq⟩ | ⟨_, _, _, _, heq⟩ | ⟨_, heq⟩ <;> cases heq

/-- **Lease authority**, over every run. What exercises a pane's lease is caused only by the
client that commands the pane; a message that does not manage a subscription or a lease
changes nothing about panes unless its sender commands every pane it needs; a managing message
touches only the pane it names and the subscription of its sender; and a client that was not
greeted gets an error, the greeting, or its connection closed. -/
theorem lease_authority (serverVersion : String) (features : List String)
    (quickReplies : List QuickReply) (events : List Event) (client : ClientId)
    (message : ClientMessage) :
    let b := after E serverVersion features quickReplies events
    (∀ effect ∈ (b.handle client message).2, ∀ pane ∈ effect.exercises, Commands b client pane) ∧
      (∀ (p pane : PaneId) (cols rows cols' rows' : UInt16), message = .paneResize p cols rows →
        Effect.routeResize pane cols' rows' ∈ (b.handle client message).2 →
        Commands b client pane) ∧
      (message.manages = none →
        (message.leased = [] ∨ ∃ pane ∈ message.leased, ¬ Commands b client pane) →
        SamePanes b (b.handle client message).1) ∧
      (∀ p, message.manages = some p →
        (∀ other, other ≠ p → (b.handle client message).1.routes[other]? = b.routes[other]? ∧
          (b.handle client message).1.screens[other]? = b.screens[other]?) ∧
        ∀ c pane, c ≠ client ∨ pane ≠ p →
          (b.handle client message).1.subscription c pane = b.subscription c pane) ∧
      (b.greeted client = false → ∀ effect ∈ (b.handle client message).2,
        (∃ request text, effect = .send client (.error request text)) ∨
        (∃ protocol serverVersion features quickReplies,
          effect = .send client (.hello protocol serverVersion features quickReplies)) ∨
        ∃ reason, effect = .disconnect client reason) := by
  intro b
  have hb : b.Coherent := coherent_of_view fun pane =>
    view_after_coherent serverVersion features quickReplies events pane
  refine ⟨fun effect he pane hpane => commands_of_exercises hb he hpane, ?_,
    samePanes_handle hb, ?_, fun hg effect he => handle_of_not_greeted hg he⟩
  · rintro p pane cols rows cols' rows' rfl he
    exact commands_of_resize hb he
  · intro p hm
    obtain ⟨hviews, hothers⟩ := @handle_manages E client b message p hm
    refine ⟨fun other hne => ⟨?_, ?_⟩, fun c pane hc => ?_⟩
    · rw [← view_route, hviews other hne, view_route]
    · rw [← view_screen, hviews other hne, view_screen]
    · rcases hc with hc | hne
      · exact hothers c pane hc
      · rw [← view_sub, hviews pane hne, view_sub]

/-- Taking control is a message of a client that does not hold the lease, and it moves the
lease. -/
theorem take_without_lease :
    (ran contested).holdsControl 1 pane₁ = false ∧
      ¬ SamePanes (ran contested) ((ran contested).handle 1 (.takePaneControl pane₁ false)).1 := by
  refine ⟨by decide, fun hsame => ?_⟩
  have hbefore : (ran contested).routes[pane₁]?.bind Route.control = some 0 := by decide
  have hafter : ((ran contested).handle 1 (.takePaneControl pane₁ false)).1.routes[pane₁]?.bind
      Route.control = some 1 := by decide
  rw [hsame.routes, hbefore] at hafter
  simp at hafter

end Broker

end SuperHerdr
