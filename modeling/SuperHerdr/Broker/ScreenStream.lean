import SuperHerdr.Broker.Lease

/-!
# The stream of rendered updates

A screen subscriber is sent numbered updates, as whole screens or as diffs, and acknowledges
them; at most `MAX_OUTSTANDING_SCREEN_UPDATES` are under way. What decides whether a diff is
enough is the marker of what was last sent. `PaneSubscription.Paced` says what the marker and
the queue of one subscriber are kept to, relative to the number of the screen the broker
holds; `PaneView.Paced` says it of all screen subscribers of a pane, and every action keeps
it. Over runs, `outstanding_invariant` says that the queue is strictly increasing and bounded,
and that a viewer that has room was sent the current screen.
-/

namespace SuperHerdr

open Std Transducer

variable {E : Emulator}

/-! ### One frame -/

namespace ScreenState

theorem advance_cases (state : ScreenState E) (width height : UInt16) (full : Bool)
    (bytes : List UInt8) :
    state.advance width height full bytes =
        (⟨state.feed width height full bytes, state.last⟩, ⟨state.last, none, false⟩) ∨
      ∃ next : Snapshot, next.WellFormed ∧ next.sequence = state.last.sequence + 1 ∧
        state.advance width height full bytes =
          (⟨state.feed width height full bytes, next⟩,
            ⟨next, Diff.between state.last next, true⟩) := by
  simp only [advance]
  split_ifs
  · exact .inl rfl
  · exact .inr ⟨_, Snapshot.wellFormed_of _ _, rfl, rfl⟩

theorem advance_screen (state : ScreenState E) (width height : UInt16) (full : Bool)
    (bytes : List UInt8) :
    (state.advance width height full bytes).2.screen =
      (state.advance width height full bytes).1.last := by
  rcases advance_cases state width height full bytes with h | ⟨next, -, -, h⟩ <;> rw [h]

theorem advance_wellFormed {state : ScreenState E} (h : state.last.WellFormed)
    (width height : UInt16) (full : Bool) (bytes : List UInt8) :
    (state.advance width height full bytes).1.last.WellFormed := by
  rcases advance_cases state width height full bytes with hadv | ⟨next, hnext, -, hadv⟩
  · rw [hadv]
    exact h
  · rw [hadv]
    exact hnext

end ScreenState

/-! ### One subscriber -/

namespace PaneSubscription

/-- The marker and the queue of a screen subscriber, while the broker holds the screen numbered
`current`, if any: the queue is increasing and bounded and ends in what was last sent, nothing
was sent beyond the current screen, and what was last sent is the current screen unless the
queue is full. -/
structure Paced (current : Option ℕ) (s : PaneSubscription) : Prop where
  increasing : s.outstanding.Pairwise (· < ·)
  bounded : s.outstanding.length ≤ MAX_OUTSTANDING_SCREEN_UPDATES
  last : ∀ q, s.outstanding.getLast? = some q → s.sent = some q
  fresh : current = none → s.sent = none ∧ s.outstanding = []
  sent_le : ∀ n q, current = some n → s.sent = some q → q ≤ n
  caughtUp : ∀ n, current = some n → s.sent = some n ∨
    s.outstanding.length = MAX_OUTSTANDING_SCREEN_UPDATES

theorem le_getLast_of_pairwise {l : List ℕ} (h : l.Pairwise (· < ·)) {last : ℕ}
    (hlast : l.getLast? = some last) : ∀ q ∈ l, q ≤ last := by
  obtain ⟨init, rfl⟩ := List.getLast?_eq_some_iff.mp hlast
  intro q hq
  rcases List.mem_append.mp hq with hq | hq
  · exact Nat.le_of_lt ((List.pairwise_append.mp h).2.2 q hq last (by simp))
  · exact Nat.le_of_eq (List.mem_singleton.mp hq)

variable {s : PaneSubscription}

theorem Paced.le_sent {current : Option ℕ} (h : s.Paced current) :
    ∀ q ∈ s.outstanding, ∃ sent, s.sent = some sent ∧ q ≤ sent := by
  intro q hq
  obtain ⟨last, hlast⟩ : ∃ last, s.outstanding.getLast? = some last :=
    Option.isSome_iff_exists.mp (by simpa using List.ne_nil_of_mem hq)
  exact ⟨last, h.last last hlast, le_getLast_of_pairwise h.increasing hlast q hq⟩

theorem Paced.le_current {n : ℕ} (h : s.Paced (some n)) : ∀ q ∈ s.outstanding, q ≤ n := by
  intro q hq
  obtain ⟨sent, hsent, hle⟩ := h.le_sent q hq
  exact Nat.le_trans hle (h.sent_le n sent rfl hsent)

theorem paced_push {n : ℕ} (hinc : s.outstanding.Pairwise (· < ·))
    (hroom : s.outstanding.length < MAX_OUTSTANDING_SCREEN_UPDATES)
    (hlt : ∀ q ∈ s.outstanding, q < n) : (s.push n).Paced (some n) where
  increasing := by
    rw [push, List.pairwise_append]
    exact ⟨hinc, List.pairwise_singleton _ _, fun q hq m hm => by
      rw [List.mem_singleton.mp hm]
      exact hlt q hq⟩
  bounded := by simpa [push] using Nat.succ_le_of_lt hroom
  last q hq := by simpa [push] using hq
  fresh h := by cases h
  sent_le m q hm hq := by
    obtain rfl := Option.some.inj hm
    obtain rfl : n = q := by simpa [push] using hq
    exact le_rfl
  caughtUp m hm := by
    obtain rfl := Option.some.inj hm
    exact .inl rfl

theorem paced_fresh (access : TerminalAccess) (cols rows : UInt16)
    (representation : PaneRepresentation) :
    (⟨access, cols, rows, representation, none, []⟩ : PaneSubscription).Paced none where
  increasing := List.Pairwise.nil
  bounded := Nat.zero_le _
  last q hq := by cases hq
  fresh _ := ⟨rfl, rfl⟩
  sent_le n q hn := by cases hn
  caughtUp n hn := by cases hn

theorem Paced.skip {n : ℕ} (h : s.Paced (some n))
    (hfull : MAX_OUTSTANDING_SCREEN_UPDATES ≤ s.outstanding.length) : s.Paced (some (n + 1)) where
  increasing := h.increasing
  bounded := h.bounded
  last := h.last
  fresh hn := by cases hn
  sent_le m q hm hq := by
    obtain rfl := Option.some.inj hm
    have hle := h.sent_le n q rfl hq
    omega
  caughtUp m _ := .inr (Nat.le_antisymm h.bounded hfull)

/-- **Offering a frame keeps a subscriber paced**, relative to the screen the frame made. -/
theorem Paced.offered {state : Option (ScreenState E)}
    (h : s.Paced (state.map fun state => state.last.sequence)) (pane : PaneId)
    (width height : UInt16) (full : Bool) (bytes : List UInt8) :
    let advanced :=
      (state.getD (ScreenState.new E width height)).advance width height full bytes
    (s.offered pane advanced.2).Paced (some advanced.1.last.sequence) := by
  intro advanced
  have hscreen : advanced.2.screen = advanced.1.last := ScreenState.advance_screen _ _ _ _ _
  cases state with
  | none =>
    -- the first screen: nothing was sent yet
    obtain ⟨hsent, hqueue⟩ := h.fresh rfl
    have hoffer : s.offered pane advanced.2 = s.push advanced.1.last.sequence := by
      simp [PaneSubscription.offered, offer, hsent, hqueue, hscreen,
        MAX_OUTSTANDING_SCREEN_UPDATES]
    rw [hoffer]
    refine paced_push (by simp [hqueue]) ?_ (by simp [hqueue])
    simp [hqueue, MAX_OUTSTANDING_SCREEN_UPDATES]
  | some state =>
    simp only [Option.map_some] at h
    rcases ScreenState.advance_cases state width height full bytes with
      hadv | ⟨next, -, hnext, hadv⟩
    · -- nothing changed: the subscriber is up to date, or its queue is full
      have hadv' : advanced = _ := hadv
      have hoffer : s.offered pane advanced.2 = s := by
        rcases h.caughtUp _ rfl with hsent | hfull
        · simp [PaneSubscription.offered, offer, hadv', hsent]
        · simp [PaneSubscription.offered, offer, hadv', hfull]
      rw [hoffer, hadv']
      exact h
    · have hadv' : advanced = _ := hadv
      by_cases hfull : MAX_OUTSTANDING_SCREEN_UPDATES ≤ s.outstanding.length
      · have hoffer : s.offered pane advanced.2 = s := by
          simp [PaneSubscription.offered, offer, hadv', hfull]
        rw [hoffer, hadv', hnext]
        exact h.skip hfull
      · have hoffer : s.offered pane advanced.2 = s.push next.sequence := by
          simp [PaneSubscription.offered, offer, hadv', hfull]
        rw [hoffer, hadv']
        refine paced_push h.increasing (by omega) fun q hq => ?_
        have hle := h.le_current q hq
        have hlt : q < next.sequence := by omega
        exact hlt

theorem getLast?_settle {sequence q : ℕ} (h : (s.settle sequence).outstanding.getLast? = some q) :
    s.outstanding.getLast? = some q := by
  obtain ⟨settled, hsplit⟩ : (s.settle sequence).outstanding <:+ s.outstanding :=
    List.dropWhile_suffix _
  rw [← hsplit, List.getLast?_append, h, Option.some_or]

/-- **Acknowledging keeps a subscriber paced**: it is sent the current screen unless it has it,
or has no room. -/
theorem Paced.acknowledge {n : ℕ} (h : s.Paced (some n)) (sequence : ℕ) :
    if (s.settle sequence).sent = some n ∨
        MAX_OUTSTANDING_SCREEN_UPDATES ≤ (s.settle sequence).outstanding.length then
      (s.settle sequence).Paced (some n)
    else ((s.settle sequence).push n).Paced (some n) := by
  have hsub : (s.settle sequence).outstanding.Sublist s.outstanding := List.dropWhile_sublist _
  have hinc : (s.settle sequence).outstanding.Pairwise (· < ·) := h.increasing.sublist hsub
  have hbounded := Nat.le_trans hsub.length_le h.bounded
  split_ifs with hdone
  · refine ⟨hinc, hbounded, fun q hq => h.last q (getLast?_settle hq), (fun hn => by cases hn),
      h.sent_le, fun m hm => ?_⟩
    obtain rfl := Option.some.inj hm
    exact hdone.imp_right fun hfull => Nat.le_antisymm hbounded hfull
  · obtain ⟨hbehind, hroom⟩ := not_or.mp hdone
    refine paced_push hinc (Nat.lt_of_not_le hroom) fun q hq => ?_
    -- what is still under way is at most what was last sent, which is behind
    obtain ⟨sent, hsent, hle⟩ := h.le_sent q (hsub.subset hq)
    have hcurrent := h.sent_le n sent rfl hsent
    have hne : sent ≠ n := by
      rintro rfl
      exact hbehind hsent
    omega

end PaneSubscription

/-! ### One pane -/

namespace PaneView

/-- The number of the screen the broker holds. -/
def current (v : PaneView E) : Option ℕ := v.screen.map fun state => state.last.sequence

/-- Every screen subscriber of the pane is paced, and the screen the broker holds is well
formed. -/
structure Paced (v : PaneView E) : Prop where
  subscribers : ∀ client s, v.sub client = some s → s.representation = .screen →
    s.Paced v.current
  screen : ∀ state, v.screen = some state → state.last.WellFormed

theorem paced_empty : (empty : PaneView E).Paced where
  subscribers client s hs := by cases hs
  screen state h := by cases h

variable {v : PaneView E}

theorem Coherent.mem_screenSubscribers (h : v.Coherent) {route : Route}
    (hr : v.route = some route) {client : ClientId} {s : PaneSubscription}
    (hs : v.sub client = some s) (hrep : s.representation = .screen) :
    client ∈ v.screenSubscribers route := by
  have hmem : client ∈ route.subscribers := (h.mem_iff hr client).mp (by simp [hs])
  simp [screenSubscribers, hmem, representationOf, hs, hrep]

theorem Paced.of_sub {v v' : PaneView E} (h : v.Paced) (hscreen : v'.screen = v.screen)
    (hsub : ∀ client s, v'.sub client = some s → s.representation = .screen →
      v.sub client = some s) : v'.Paced where
  subscribers client s hs hrep := by
    rw [current, hscreen]
    exact h.subscribers client s (hsub client s hs hrep) hrep
  screen state hstate := h.screen state (hscreen ▸ hstate)

theorem paced_of_unwatched (hsub : ∀ client s, v.sub client = some s → s.representation ≠ .screen)
    (hscreen : ∀ state, v.screen = some state → state.last.WellFormed) : v.Paced where
  subscribers client s hs hrep := absurd hrep (hsub client s hs)
  screen := hscreen

/-- What becomes of the screen when a client leaves: it stays, or nobody watches it any more. -/
theorem leave_screen (h : v.Coherent) (pane : PaneId) (client : ClientId) :
    (v.leave pane client).1.screen = v.screen ∨
      (v.leave pane client).1.screen = none ∧ ∀ client' s,
        (v.leave pane client).1.sub client' = some s → s.representation ≠ .screen := by
  rcases v.leave_cases pane client with ⟨-, hact⟩ | ⟨hs, ⟨hr, -⟩ | ⟨route, hr,
    ⟨-, hact⟩ | ⟨-, screen, hscreen, hact⟩⟩⟩
  · exact .inl (by rw [hact])
  · exact absurd hr (h.route_ne_none hs)
  · exact .inl (by rw [hact]; rfl)
  · have hleft : (v.leave pane client).1.screen = screen := by
      rcases hact with ⟨-, hact⟩ | ⟨-, hact⟩ <;> rw [hact]
    rw [hleft, hscreen, leave_sub]
    split_ifs with hunwatched
    · refine .inr ⟨rfl, fun client' s hs' hrep => ?_⟩
      -- whoever stays and watches is among those left behind
      have hmem : client' ∈ (route.without client).subscribers := by
        rw [← h.mem_without hr, PaneView.without]
        simp [hs']
      have hin : client' ∈ (v.without client).screenSubscribers (route.without client) := by
        simp only [screenSubscribers, representationOf, PaneView.without, hs', List.mem_filter]
        exact ⟨ExtTreeSet.mem_toList.mpr hmem, by simp [hrep]⟩
      rw [hunwatched] at hin
      cases hin
    · exact .inl rfl

theorem Paced.subscribe (h : v.Paced) (pane : PaneId) (client : ClientId)
    (access : TerminalAccess) (cols rows : UInt16) (representation : PaneRepresentation) :
    (v.subscribe pane client access cols rows representation).1.Paced := by
  refine ⟨fun client' s hs hrep => ?_, h.screen⟩
  by_cases hc : client' = client
  · subst hc
    simp only [PaneView.subscribe, Function.update_self, Option.some.injEq] at hs
    have hcurrent : (v.subscribe pane client' access cols rows representation).1.current =
        v.current := rfl
    rw [hcurrent]
    cases hshown : v.shownTo representation with
    | none =>
      rw [hshown] at hs
      subst hs
      obtain rfl : representation = .screen := hrep
      have hnone : v.current = none := by simpa [shownTo, current] using hshown
      rw [hnone]
      exact PaneSubscription.paced_fresh access cols rows .screen
    | some shown =>
      rw [hshown] at hs
      subst hs
      have hcurrent : v.current = some shown.sequence := by
        unfold shownTo at hshown
        split_ifs at hshown
        obtain ⟨state, hstate, rfl⟩ := Option.map_eq_some_iff.mp hshown
        simp [current, hstate]
      rw [hcurrent]
      exact PaneSubscription.paced_push List.Pairwise.nil
        (by simp [MAX_OUTSTANDING_SCREEN_UPDATES]) (by simp)
  · have hold : v.sub client' = some s := by simpa [PaneView.subscribe, hc] using hs
    exact h.subscribers client' s hold hrep

theorem Paced.leave (h : v.Paced) (hv : v.Coherent) (pane : PaneId)
    (client : ClientId) : (v.leave pane client).1.Paced := by
  rcases leave_screen hv pane client with hscreen | ⟨hscreen, hunwatched⟩
  · refine h.of_sub hscreen fun client' s hs _ => ?_
    rw [leave_sub] at hs
    by_cases hc : client' = client
    · subst hc
      simp at hs
    · simpa [hc] using hs
  · refine paced_of_unwatched hunwatched fun state hstate => ?_
    rw [hscreen] at hstate
    cases hstate

theorem Paced.resize (h : v.Paced) (pane : PaneId) (client : ClientId)
    (cols rows : UInt16) : (v.resize pane client cols rows).1.Paced := by
  rcases resize_cases v pane client cols rows with hact | ⟨route, -, -, hact⟩
  · rw [hact]
    exact h
  · rw [hact]
    refine ⟨fun client' s hs hrep => ?_, h.screen⟩
    by_cases hc : client' = client
    · -- the size a client asks for is not part of its pace
      subst hc
      simp only [Function.update_self, Option.map_eq_some_iff] at hs
      obtain ⟨old, hold, rfl⟩ := hs
      have hpaced := h.subscribers client' old hold hrep
      exact ⟨hpaced.increasing, hpaced.bounded, hpaced.last, hpaced.fresh, hpaced.sent_le,
        hpaced.caughtUp⟩
    · exact h.subscribers client' s (by simpa [hc] using hs) hrep

theorem Paced.ack (h : v.Paced) (pane : PaneId) (client : ClientId)
    (sequence : ℕ) : (v.ack pane client sequence).1.Paced := by
  -- writing one paced subscription
  have hwrite : ∀ s', (s'.representation = .screen → s'.Paced v.current) →
      ({ v with sub := Function.update v.sub client (some s') } : PaneView E).Paced := by
    intro s' hpaced
    refine ⟨fun client' t ht hrep => ?_, h.screen⟩
    by_cases hc : client' = client
    · subst hc
      obtain rfl : s' = t := by simpa using ht
      exact hpaced hrep
    · exact h.subscribers client' t (by simpa [hc] using ht) hrep
  rcases ack_cases v pane client sequence with
    ⟨hact, -⟩ | ⟨s, hs, hmem, ⟨hnone, hact⟩ | ⟨state, hstate, hact⟩⟩
  · rw [hact]
    exact h
  · -- without a screen there is nothing to acknowledge
    rw [hact]
    refine hwrite _ fun hrep => ?_
    have hpaced := h.subscribers client s hs hrep
    have hqueue := (hpaced.fresh (by simp [current, hnone])).2
    rw [hqueue] at hmem
    cases hmem
  · have hcurrent : v.current = some state.last.sequence := by simp [current, hstate]
    have hpaced : s.representation = .screen → s.Paced (some state.last.sequence) :=
      fun hrep => hcurrent ▸ h.subscribers client s hs hrep
    split_ifs at hact with hdone
    · rw [hact]
      refine hwrite _ fun hrep => ?_
      have hnext := (hpaced hrep).acknowledge sequence
      rwa [if_pos hdone, ← hcurrent] at hnext
    · rw [hact]
      refine hwrite _ fun hrep => ?_
      have hnext := (hpaced hrep).acknowledge sequence
      rwa [if_neg hdone, ← hcurrent] at hnext

theorem Paced.frame (h : v.Paced) (hv : v.Coherent) (pane : PaneId)
    (sequence : ℕ) (width height : UInt16) (full : Bool) (bytes : List UInt8) :
    (v.frame pane sequence width height full bytes).1.Paced := by
  rcases frame_cases v pane sequence width height full bytes with
    ⟨-, hact⟩ | ⟨route, hr, ⟨hnone, hact⟩ | ⟨-, hact⟩⟩
  · rw [hact]
    exact h
  · rw [hact]
    refine paced_of_unwatched (fun client s hs hrep => ?_) fun state hstate => by cases hstate
    have hmem := hv.mem_screenSubscribers hr hs hrep
    rw [hnone] at hmem
    cases hmem
  · rw [hact]
    refine ⟨fun client s hs hrep => ?_, fun state hstate => ?_⟩
    · -- every screen subscriber is offered the frame
      simp only [render] at hs
      split_ifs at hs with hmem
      · obtain ⟨old, hold, rfl⟩ := Option.map_eq_some_iff.mp hs
        rw [PaneSubscription.offered_representation] at hrep
        exact (h.subscribers client old hold hrep).offered pane width height full bytes
      · exact absurd (hv.mem_screenSubscribers hr hs hrep) hmem
    · obtain rfl := Option.some.inj hstate
      refine ScreenState.advance_wellFormed ?_ width height full bytes
      cases hscreen : v.screen with
      | none => exact Snapshot.wellFormed_of _ 0
      | some state => exact h.screen state hscreen

/-- **Every action keeps the screen subscribers of a coherent pane paced.** -/
theorem Paced.act (h : v.Paced) (hv : v.Coherent) (pane : PaneId)
    (a : PaneAction) : (v.act pane a).1.Paced := by
  -- nobody watches a pane without a route
  have hnobody : ∀ v' : PaneView E, v'.Coherent → v'.route = none → v'.Paced := by
    intro v' hv' hr
    have hnone : ∀ client, v'.sub client = none := by
      intro client
      by_contra hs
      obtain ⟨route, hr', -⟩ := (hv'.subscribed client).mp hs
      rw [hr] at hr'
      cases hr'
    refine paced_of_unwatched (fun client s hs => ?_) fun state hstate => ?_
    · rw [hnone client] at hs
      cases hs
    · exact absurd hr (hv'.screen (by simp [hstate]))
  cases a with
  | subscribe client access cols rows representation =>
    exact h.subscribe pane client access cols rows representation
  | leave client => exact h.leave hv pane client
  | take client onlyIfFree =>
    refine h.of_sub (take_screen v pane client onlyIfFree) fun client' s hs _ => ?_
    rwa [PaneView.act, take_sub] at hs
  | resize client cols rows => exact h.resize pane client cols rows
  | ack client sequence => exact h.ack pane client sequence
  | frame sequence width height full bytes =>
    exact h.frame hv pane sequence width height full bytes
  | expire =>
    rcases expire_cases v pane with hact | ⟨-, hact⟩
    · rw [PaneView.act, hact]
      exact h
    · exact hnobody _ (hv.expire pane) (by rw [PaneView.act, hact])
  | close => exact hnobody _ (hv.close pane) (close_route v pane)
  | downgrade =>
    refine h.of_sub (downgrade_screen v pane) fun client' s hs _ => ?_
    rwa [PaneView.act, downgrade_sub] at hs

end PaneView

/-! ### Queues along a run -/

namespace Broker

theorem view_after_paced (serverVersion : String) (features : List String)
    (quickReplies : List QuickReply) (events : List Event) (pane : PaneId) :
    ((after E serverVersion features quickReplies events).view pane).Paced := by
  have hact : ∀ (v : PaneView E) a, v.Coherent ∧ v.Paced →
      (v.act pane a).1.Coherent ∧ (v.act pane a).1.Paced :=
    fun _ a h => ⟨h.1.act pane a, h.2.act h.1 pane a⟩
  exact (view_after_invariant (J := fun v => v.Coherent ∧ v.Paced)
    ⟨PaneView.coherent_empty, PaneView.paced_empty⟩ hact serverVersion features quickReplies
    events).2

/-- An acknowledgement of something that is not under way changes nothing, and from a client
that was greeted it is not answered either. -/
theorem handle_ack_of_not_mem {b : Broker E} {client : ClientId} {pane : PaneId} {sequence : ℕ}
    (h : ∀ s, b.subscription client pane = some s → sequence ∉ s.outstanding) :
    (b.handle client (.ackPaneScreen pane sequence)).1 = b ∧
      (b.greeted client = true → (b.handle client (.ackPaneScreen pane sequence)).2 = []) := by
  have hserve : b.serve client (.ackPaneScreen pane sequence) = (b, []) := by
    rw [serve, ackPaneScreen]
    cases hs : b.subscription client pane with
    | none => rfl
    | some s => simp [h s hs]
  refine ⟨?_, fun hg => by rw [handle_of_greeted hg, hserve]⟩
  unfold handle
  split
  · rfl
  · split_ifs
    · rw [hserve]
    · rfl

/-- **The queue of every screen subscriber, over every run**: it is strictly increasing,
bounded, ends in what was last sent and holds nothing beyond the current screen; an
acknowledgement of anything else changes nothing; and while the pane has a screen, what was
last sent is that screen unless the queue is full or nothing was sent yet. So after an
acknowledgement that leaves room the viewer has been sent the current screen. -/
theorem outstanding_invariant (serverVersion : String) (features : List String)
    (quickReplies : List QuickReply) (events : List Event) :
    let b := after E serverVersion features quickReplies events
    (∀ client pane s, b.subscription client pane = some s → s.representation = .screen →
      s.outstanding.Pairwise (· < ·) ∧
      s.outstanding.length ≤ MAX_OUTSTANDING_SCREEN_UPDATES ∧
      (∀ q, s.outstanding.getLast? = some q → s.sent = some q) ∧
      ∀ state, b.screens[pane]? = some state →
        (∀ q ∈ s.outstanding, q ≤ state.last.sequence) ∧
        (s.sent ≠ some state.last.sequence →
          s.outstanding.length = MAX_OUTSTANDING_SCREEN_UPDATES ∨ s.sent = none)) ∧
    (∀ client pane sequence,
      (∀ s, b.subscription client pane = some s → sequence ∉ s.outstanding) →
      (b.handle client (.ackPaneScreen pane sequence)).1 = b ∧
        (b.greeted client = true → (b.handle client (.ackPaneScreen pane sequence)).2 = [])) ∧
    (∀ client pane sequence s state,
      (b.handle client (.ackPaneScreen pane sequence)).1.subscription client pane = some s →
      s.representation = .screen →
      (b.handle client (.ackPaneScreen pane sequence)).1.screens[pane]? = some state →
      s.outstanding.length < MAX_OUTSTANDING_SCREEN_UPDATES →
      s.sent = some state.last.sequence) := by
  intro b
  have hcurrent : ∀ (b : Broker E) pane state, b.screens[pane]? = some state →
      (b.view pane).current = some state.last.sequence := by
    intro b pane state hstate
    rw [PaneView.current, view_screen, hstate]
    rfl
  refine ⟨fun client pane s hs hrep => ?_, fun client pane sequence h =>
    handle_ack_of_not_mem h, ?_⟩
  · have hpaced := (view_after_paced serverVersion features quickReplies events pane).subscribers
      client s (by rw [view_sub]; exact hs) hrep
    refine ⟨hpaced.increasing, hpaced.bounded, hpaced.last, fun state hstate => ?_⟩
    rw [hcurrent b pane state hstate] at hpaced
    refine ⟨hpaced.le_current, fun hbehind => ?_⟩
    exact .inl ((hpaced.caughtUp _ rfl).resolve_left hbehind)
  · intro client pane sequence s state hs hrep hstate hroom
    -- the state after the acknowledgement is reached by one more event
    have hnext : (b.handle client (.ackPaneScreen pane sequence)).1 =
        after E serverVersion features quickReplies
          (events ++ [.handle client (.ackPaneScreen pane sequence)]) :=
      (after_concat serverVersion features quickReplies events
        (.handle client (.ackPaneScreen pane sequence))).symm
    rw [hnext] at hs hstate
    have hpaced := (view_after_paced serverVersion features quickReplies
      (events ++ [.handle client (.ackPaneScreen pane sequence)]) pane).subscribers client s
      (by rw [view_sub]; exact hs) hrep
    rw [hcurrent _ pane state hstate] at hpaced
    exact (hpaced.caughtUp _ rfl).resolve_right (Nat.ne_of_lt hroom)

end Broker

end SuperHerdr
