import SuperHerdr.Broker.ScreenStream

/-!
# What a viewer holds

A viewer replays the updates it is sent: a whole screen replaces what it holds, a diff is
applied to it. `screen_agreement` says that over every run a viewer never meets a diff it
cannot apply or one before any screen, and that after each update it holds exactly the screen
the broker held when it sent the update.

The argument rests on the pace of the subscription: if the marker of a screen subscriber is the
number of the screen the broker holds, then the viewer holds that screen (`PaneView.Shows`). A
diff follows the screen before it, and is sent only to a subscriber whose marker is that
screen's number.
-/

namespace SuperHerdr

open Std Transducer

variable {E : Emulator}

/-! ### A viewer -/

/-- A client that consumes the updates of one pane: it holds nothing, or a screen, or has met a
diff it could not apply, or a diff before any screen. -/
inductive Viewer
  | nothing
  | holding (screen : Snapshot)
  | stale
  | premature
deriving DecidableEq

namespace Viewer

/-- A whole screen replaces what is held. -/
def hold (viewer : Viewer) (screen : Snapshot) : Viewer :=
  match viewer with
  | .nothing | .holding _ => .holding screen
  | broken => broken

/-- A diff is applied to what is held. -/
def applyDiff (viewer : Viewer) (diff : Diff) : Viewer :=
  match viewer with
  | .nothing => .premature
  | .holding screen =>
      match screen.apply diff with
      | (screen, .ok ()) => .holding screen
      | (_, .error _) => .stale
  | broken => broken

/-- Consume one effect: an update sent to this client for this pane, or nothing of interest. -/
def receive (client : ClientId) (pane : PaneId) (viewer : Viewer) : Effect → Viewer
  | .send receiver (.paneScreen p screen) =>
      if receiver = client ∧ p = pane then viewer.hold screen else viewer
  | .send receiver (.paneScreenDiff p diff) =>
      if receiver = client ∧ p = pane then viewer.applyDiff diff else viewer
  | _ => viewer

/-- A viewer that never met a diff it could not use. -/
def Sound (viewer : Viewer) : Prop := viewer ≠ .stale ∧ viewer ≠ .premature

theorem sound_nothing : nothing.Sound := ⟨by simp, by simp⟩

theorem sound_holding (screen : Snapshot) : (holding screen).Sound := ⟨by simp, by simp⟩

theorem Sound.hold {viewer : Viewer} (h : viewer.Sound) (screen : Snapshot) :
    viewer.hold screen = .holding screen := by
  cases viewer with
  | nothing => rfl
  | holding _ => rfl
  | stale => exact absurd rfl h.1
  | premature => exact absurd rfl h.2

end Viewer

/-- Whether an effect is an update of one pane's screen for one client. -/
def Effect.isUpdate (client : ClientId) (pane : PaneId) : Effect → Bool
  | .send receiver (.paneScreen p _) | .send receiver (.paneScreenDiff p _) =>
      receiver = client ∧ p = pane
  | _ => false

section Updates

variable {client : ClientId} {pane : PaneId}

theorem receive_of_not_update (viewer : Viewer) (effect : Effect)
    (h : effect.isUpdate client pane = false) : viewer.receive client pane effect = viewer := by
  cases effect with
  | send receiver message =>
    cases message with
    | paneScreen | paneScreenDiff =>
      simp only [Effect.isUpdate, decide_eq_false_iff_not] at h
      simp [Viewer.receive, h]
    | _ => rfl
  | _ => rfl

theorem about_of_isUpdate (effect : Effect) (h : effect.isUpdate client pane = true) :
    effect.about pane = true := by
  cases effect with
  | send receiver message =>
    cases message with
    | paneScreen p | paneScreenDiff p =>
      have hp : receiver = client ∧ p = pane := by simpa [Effect.isUpdate] using h
      simp [Effect.about, ServerMessage.pane, hp.2]
    | _ => cases h
  | _ => cases h

theorem filter_isUpdate_quiet {effects : List Effect}
    (h : ∀ effect ∈ effects, effect.isUpdate client pane = false) :
    effects.filter (Effect.isUpdate client pane) = [] :=
  List.filter_eq_nil_iff.mpr fun effect he => by simp [h effect he]

theorem Silent.filter_isUpdate {effects : List Effect} (h : Silent effects) :
    effects.filter (Effect.isUpdate client pane) = [] := by
  refine filter_isUpdate_quiet fun effect he => ?_
  have hsilent := h effect he
  cases effect with
  | send receiver message =>
    cases message with
    | paneScreen | paneScreenDiff => cases hsilent
    | _ => rfl
  | _ => rfl

theorem isUpdate_updateFor (subscription : PaneSubscription) (rendered : Rendered)
    (receiver : ClientId) :
    (Effect.send receiver (subscription.updateFor pane rendered)).isUpdate client pane =
      decide (receiver = client) := by
  unfold PaneSubscription.updateFor
  split
  · split_ifs <;> simp [Effect.isUpdate]
  · simp [Effect.isUpdate]

theorem filter_isUpdate_offers {offers : ClientId → List Effect}
    (hother : ∀ receiver, receiver ≠ client →
      (offers receiver).filter (Effect.isUpdate client pane) = [])
    {subscribers : List ClientId} (hnd : subscribers.Nodup) :
    (subscribers.flatMap offers).filter (Effect.isUpdate client pane) =
      if client ∈ subscribers then (offers client).filter (Effect.isUpdate client pane)
      else [] := by
  induction subscribers with
  | nil => rfl
  | cons receiver rest ih =>
    obtain ⟨hmem, hrest⟩ := List.nodup_cons.mp hnd
    rw [List.flatMap_cons, List.filter_append, ih hrest]
    by_cases hc : receiver = client
    · subst hc
      simp [hmem]
    · simp [hother receiver hc, Ne.symm hc]

end Updates

/-! ### One action -/

namespace PaneView

/-- The viewer never met a diff it could not use, and if its marker is the number of the screen
the broker holds, it holds that screen. -/
structure Shows (v : PaneView E) (client : ClientId) (viewer : Viewer) : Prop where
  sound : viewer.Sound
  current : ∀ s state, v.sub client = some s → s.representation = .screen →
    v.screen = some state → s.sent = some state.last.sequence → viewer = .holding state.last

/-- The updates of its screen that an action sends to one client. -/
def updates (v : PaneView E) (pane : PaneId) (client : ClientId) (a : PaneAction) :
    List Effect :=
  (v.act pane a).2.filter (Effect.isUpdate client pane)

/-- What a viewer starts an action with: a subscription starts from nothing. -/
def viewerBefore (client : ClientId) (a : PaneAction) (viewer : Viewer) : Viewer :=
  if a.subscribes client then .nothing else viewer

/-- What a viewer holds after an action. -/
def viewerAfter (v : PaneView E) (pane : PaneId) (client : ClientId) (a : PaneAction)
    (viewer : Viewer) : Viewer :=
  (v.updates pane client a).foldl (Viewer.receive client pane) (viewerBefore client a viewer)

/-- What an action may do to a viewer: it sends it at most one update, and after it the viewer
holds the screen the broker then holds. -/
structure Delivers (v : PaneView E) (pane : PaneId) (client : ClientId) (a : PaneAction)
    (viewer : Viewer) : Prop where
  shows : (v.act pane a).1.Shows client (v.viewerAfter pane client a viewer)
  one : (v.updates pane client a).length ≤ 1
  holds : v.updates pane client a ≠ [] → ∃ state, (v.act pane a).1.screen = some state ∧
    v.viewerAfter pane client a viewer = .holding state.last

section Delivers

variable {v : PaneView E} {pane : PaneId} {client : ClientId} {a : PaneAction} {viewer : Viewer}

theorem delivers_of_quiet (hquiet : v.updates pane client a = [])
    (h : (v.act pane a).1.Shows client (viewerBefore client a viewer)) :
    v.Delivers pane client a viewer := by
  have hsame : v.viewerAfter pane client a viewer = viewerBefore client a viewer := by
    rw [viewerAfter, hquiet, List.foldl_nil]
  refine ⟨by rwa [hsame], by simp [hquiet], fun hne => absurd hquiet hne⟩

theorem updates_of_not_carries (h : a.carries = false) : v.updates pane client a = [] :=
  (v.silent_act pane h).filter_isUpdate

theorem delivers_of_update {effect : Effect} {state : ScreenState E}
    (hone : v.updates pane client a = [effect]) (hscreen : (v.act pane a).1.screen = some state)
    (hholds : (viewerBefore client a viewer).receive client pane effect = .holding state.last) :
    v.Delivers pane client a viewer := by
  have hafter : v.viewerAfter pane client a viewer = .holding state.last := by
    rw [viewerAfter, hone, List.foldl_cons, List.foldl_nil, hholds]
  refine ⟨⟨?_, fun s state' _ _ hstate' _ => ?_⟩, by simp [hone], fun _ => ⟨state, hscreen, hafter⟩⟩
  · rw [hafter]
    exact Viewer.sound_holding state.last
  · rw [hscreen] at hstate'
    obtain rfl := Option.some.inj hstate'
    exact hafter

theorem delivers_of_unwatched (hsound : viewer.Sound) (hquiet : v.updates pane client a = [])
    (hnew : a.subscribes client = false)
    (hgone : ∀ s, (v.act pane a).1.sub client = some s → s.representation = .screen →
      (v.act pane a).1.screen = none) : v.Delivers pane client a viewer := by
  refine delivers_of_quiet hquiet ⟨?_, fun s state hs hrep hstate _ => ?_⟩
  · rwa [viewerBefore, hnew]
  · rw [hgone s hs hrep] at hstate
    cases hstate

theorem delivers_of_same (h : v.Shows client viewer) (hquiet : v.updates pane client a = [])
    (hnew : a.subscribes client = false) (hscreen : (v.act pane a).1.screen = v.screen)
    (hsub : ∀ s, (v.act pane a).1.sub client = some s → ∃ old, v.sub client = some old ∧
      old.representation = s.representation ∧ old.sent = s.sent) :
    v.Delivers pane client a viewer := by
  refine delivers_of_quiet hquiet ?_
  rw [viewerBefore, hnew]
  refine ⟨h.sound, fun s state hs hrep hstate hsent => ?_⟩
  obtain ⟨old, hold, hrep', hsent'⟩ := hsub s hs
  exact h.current old state hold (hrep'.trans hrep) (hscreen ▸ hstate) (hsent'.trans hsent)

/-- A newcomer is shown the screen as it stands, if there is one. -/
theorem delivers_subscribe (h : v.Shows client viewer) (client' : ClientId)
    (access : TerminalAccess) (cols rows : UInt16) (representation : PaneRepresentation) :
    v.Delivers pane client (.subscribe client' access cols rows representation) viewer := by
  have hupdates : v.updates pane client (.subscribe client' access cols rows representation) =
      ((v.shownTo representation).map fun screen =>
        Effect.send client' (.paneScreen pane screen)).toList.filter
          (Effect.isUpdate client pane) := by
    simp [updates, act, subscribe, (administer_join _ _ _ _ _).silent.filter_isUpdate,
      Effect.isUpdate]
  by_cases hc : client' = client
  · subst hc
    have hbefore : viewerBefore client' (.subscribe client' access cols rows representation)
        viewer = .nothing := by simp [viewerBefore, PaneAction.subscribes]
    cases hshown : v.shownTo representation with
    | none =>
      refine delivers_of_quiet (by rw [hupdates, hshown]; rfl) ?_
      rw [hbefore]
      refine ⟨Viewer.sound_nothing, fun s state hs _ _ hsent => ?_⟩
      -- nothing was sent yet
      obtain rfl : _ = s := by simpa [act, subscribe, hshown] using hs
      cases hsent
    | some shown =>
      obtain ⟨state, hstate, rfl⟩ : ∃ state, v.screen = some state ∧ state.last = shown := by
        unfold shownTo at hshown
        split_ifs at hshown
        exact Option.map_eq_some_iff.mp hshown
      have hone : v.updates pane client' (.subscribe client' access cols rows representation) =
          [.send client' (.paneScreen pane state.last)] := by
        rw [hupdates, hshown]
        simp [Effect.isUpdate]
      refine delivers_of_update hone hstate ?_
      rw [hbefore]
      simp [Viewer.receive, Viewer.hold]
  · refine delivers_of_same h ?_ (by simp [PaneAction.subscribes, hc]) rfl
      fun s hs => ⟨s, ?_, rfl, rfl⟩
    · rw [hupdates]
      cases v.shownTo representation <;> simp [Effect.isUpdate, hc]
    · simpa [act, subscribe, Ne.symm hc] using hs

theorem delivers_leave (hv : v.Coherent) (h : v.Shows client viewer) (client' : ClientId) :
    v.Delivers pane client (.leave client') viewer := by
  rcases leave_screen hv pane client' with hscreen | ⟨hscreen, -⟩
  · refine delivers_of_same h (updates_of_not_carries rfl) rfl hscreen fun s hs =>
      ⟨s, ?_, rfl, rfl⟩
    rw [act, leave_sub] at hs
    by_cases hc : client = client'
    · subst hc
      simp at hs
    · simpa [hc] using hs
  · exact delivers_of_unwatched h.sound (updates_of_not_carries rfl) rfl fun _ _ _ => hscreen

theorem delivers_take (h : v.Shows client viewer) (client' : ClientId) (onlyIfFree : Bool) :
    v.Delivers pane client (.take client' onlyIfFree) viewer := by
  refine delivers_of_same h (updates_of_not_carries rfl) rfl
    (take_screen v pane client' onlyIfFree) fun s hs => ?_
  rw [act, take_sub] at hs
  exact ⟨s, hs, rfl, rfl⟩

theorem delivers_resize (h : v.Shows client viewer) (client' : ClientId) (cols rows : UInt16) :
    v.Delivers pane client (.resize client' cols rows) viewer := by
  rcases resize_cases v pane client' cols rows with hact | ⟨route, -, -, hact⟩
  · refine delivers_of_same h (updates_of_not_carries rfl) rfl (by rw [act, hact]) fun s hs => ?_
    rw [act, hact] at hs
    exact ⟨s, hs, rfl, rfl⟩
  · refine delivers_of_same h (updates_of_not_carries rfl) rfl (by rw [act, hact]) fun s hs => ?_
    rw [act, hact] at hs
    by_cases hc : client = client'
    · subst hc
      simp only [Function.update_self, Option.map_eq_some_iff] at hs
      obtain ⟨old, hold, rfl⟩ := hs
      exact ⟨old, hold, rfl, rfl⟩
    · exact ⟨s, by simpa [hc] using hs, rfl, rfl⟩

/-- An acknowledgement is answered with the whole screen, or not at all. -/
theorem delivers_ack (h : v.Shows client viewer) (client' : ClientId) (sequence : ℕ) :
    v.Delivers pane client (.ack client' sequence) viewer := by
  -- settling the queue does not move the marker
  have hsettled : ∀ t, v.sub client' = some t → v.ack pane client' sequence =
      ({ v with sub := Function.update v.sub client' (some (t.settle sequence)) }, []) →
      v.Delivers pane client (.ack client' sequence) viewer := by
    intro t ht hact
    refine delivers_of_same h (by rw [updates, act, hact]; rfl) rfl (by rw [act, hact]) ?_
    intro s hs
    rw [act, hact] at hs
    by_cases hc : client = client'
    · subst hc
      obtain rfl : t.settle sequence = s := by simpa using hs
      exact ⟨t, ht, rfl, rfl⟩
    · exact ⟨s, by simpa [hc] using hs, rfl, rfl⟩
  rcases ack_cases v pane client' sequence with
    ⟨hact, -⟩ | ⟨t, ht, -, ⟨-, hact⟩ | ⟨state, hstate, hact⟩⟩
  · refine delivers_of_same h (by rw [updates, act, hact]; rfl) rfl (by rw [act, hact]) ?_
    intro s hs
    rw [act, hact] at hs
    exact ⟨s, hs, rfl, rfl⟩
  · exact hsettled t ht hact
  · split_ifs at hact with hdone
    · exact hsettled t ht hact
    · have hupdates : v.updates pane client (.ack client' sequence) =
          if client' = client then [.send client' (.paneScreen pane state.last)] else [] := by
        rw [updates, act, hact]
        by_cases hc : client' = client <;>
          simp [PaneSubscription.updateFor, Effect.isUpdate, hc]
      by_cases hc : client' = client
      · subst hc
        rw [if_pos rfl] at hupdates
        refine delivers_of_update hupdates (by rw [act, ack_screen, hstate]) ?_
        simp [viewerBefore, PaneAction.subscribes, Viewer.receive, h.sound.hold]
      · rw [if_neg hc] at hupdates
        refine delivers_of_same h hupdates rfl (by rw [act, hact]) fun s hs => ?_
        rw [act, hact] at hs
        exact ⟨s, by simpa [Ne.symm hc] using hs, rfl, rfl⟩

/-- **A frame offered to a subscriber**: if the subscriber held the screen its marker names, it
holds the screen the frame made, or is behind it. -/
theorem receive_offer {state : Option (ScreenState E)} {s : PaneSubscription}
    (hpaced : s.Paced (state.map fun state => state.last.sequence)) (hsound : viewer.Sound)
    (hwf : ∀ old, state = some old → old.last.WellFormed)
    (hcurrent : ∀ old, state = some old → s.sent = some old.last.sequence →
      viewer = .holding old.last) (width height : UInt16) (full : Bool) (bytes : List UInt8) :
    let advanced :=
      (state.getD (ScreenState.new E width height)).advance width height full bytes
    (s.offer pane advanced.2 = none ∧
        (s.sent = some advanced.1.last.sequence → viewer = .holding advanced.1.last)) ∨
      ∃ offered, s.offer pane advanced.2 = some (offered, s.updateFor pane advanced.2) ∧
        viewer.receive client pane (.send client (s.updateFor pane advanced.2)) =
          .holding advanced.1.last := by
  intro advanced
  have hscreen : advanced.2.screen = advanced.1.last := ScreenState.advance_screen _ _ _ _ _
  -- a whole screen is always right
  have hwhole : viewer.receive client pane (.send client (.paneScreen pane advanced.2.screen)) =
      .holding advanced.1.last := by
    simp [Viewer.receive, hsound.hold, hscreen]
  have hoffer : s.offer pane advanced.2 = none ∨ ∃ offered,
      s.offer pane advanced.2 = some (offered, s.updateFor pane advanced.2) := by
    unfold PaneSubscription.offer
    split_ifs
    · exact .inl rfl
    · exact .inl rfl
    · exact .inr ⟨_, rfl⟩
  cases state with
  | none =>
    obtain ⟨hsent, -⟩ := hpaced.fresh rfl
    have hupdate : s.updateFor pane advanced.2 = .paneScreen pane advanced.2.screen := by
      simp [PaneSubscription.updateFor, hsent]
    rcases hoffer with hoffer | ⟨offered, hoffer⟩
    · exact .inl ⟨hoffer, fun hmarked => by rw [hsent] at hmarked; cases hmarked⟩
    · exact .inr ⟨offered, hoffer, by rw [hupdate, hwhole]⟩
  | some old =>
    simp only [Option.map_some] at hpaced
    rcases ScreenState.advance_cases old width height full bytes with
      hadv | ⟨next, hnext, hsequence, hadv⟩
    · -- nothing changed: there is no diff to send
      have hadv' : advanced = _ := hadv
      have hlast : advanced.1.last = old.last := by rw [hadv']
      have hupdate : s.updateFor pane advanced.2 = .paneScreen pane advanced.2.screen := by
        simp [PaneSubscription.updateFor, hadv']
      rcases hoffer with hoffer | ⟨offered, hoffer⟩
      · refine .inl ⟨hoffer, fun hmarked => ?_⟩
        rw [hlast] at hmarked ⊢
        exact hcurrent old rfl hmarked
      · exact .inr ⟨offered, hoffer, by rw [hupdate, hwhole]⟩
    · have hadv' : advanced = _ := hadv
      have hlast : advanced.1.last = next := by rw [hadv']
      rcases hoffer with hoffer | ⟨offered, hoffer⟩
      · -- the marker is behind the new screen
        refine .inl ⟨hoffer, fun hmarked => ?_⟩
        rw [hlast] at hmarked
        have hle := hpaced.sent_le old.last.sequence next.sequence rfl hmarked
        omega
      · refine .inr ⟨offered, hoffer, ?_⟩
        cases hdiff : Diff.between old.last next with
        | none =>
          have hupdate : s.updateFor pane advanced.2 = .paneScreen pane advanced.2.screen := by
            simp [PaneSubscription.updateFor, hadv', hdiff]
          rw [hupdate, hwhole]
        | some diff =>
          have hfollows : diff.follows = old.last.sequence := by
            obtain ⟨-, rfl⟩ := Snapshot.between_eq_some.mp hdiff
            rfl
          by_cases hmarked : s.sent = some diff.follows
          · -- the diff follows the screen the viewer holds
            have hupdate : s.updateFor pane advanced.2 = .paneScreenDiff pane diff := by
              simp [PaneSubscription.updateFor, hadv', hdiff, hmarked]
            have hheld := hcurrent old rfl (hfollows ▸ hmarked)
            have happly := Snapshot.apply_between (hwf old rfl) hnext hdiff
            rw [hupdate, hheld, hlast]
            simp [Viewer.receive, Viewer.applyDiff, happly]
          · have hupdate : s.updateFor pane advanced.2 = .paneScreen pane advanced.2.screen := by
              unfold PaneSubscription.updateFor
              split
              · next d q hd hq =>
                have hsame : diff = d := by simpa [hadv', hdiff] using hd
                rw [if_neg]
                rintro rfl
                exact hmarked (hsame ▸ hq)
              · rfl
            rw [hupdate, hwhole]

/-- The updates a rendered frame sends to one client: those of its own offer. -/
theorem updates_render (v : PaneView E) (pane : PaneId) (client : ClientId) (width height : UInt16)
    (full : Bool) (bytes : List UInt8) {subscribers : List ClientId} (hnd : subscribers.Nodup) :
    (v.render pane width height full bytes subscribers).2.filter (Effect.isUpdate client pane) =
      if client ∈ subscribers then
        ((v.sub client).map fun s => s.offerEffects pane ((v.screen.getD
          (ScreenState.new E width height)).advance width height full bytes).2 client).getD []
      else [] := by
  simp only [render]
  -- everything an offer sends is an update for the one it is made to
  have hoffer : ∀ (receiver : ClientId) (s : PaneSubscription) (rendered : Rendered),
      (s.offerEffects pane rendered receiver).filter (Effect.isUpdate client pane) =
        if receiver = client then s.offerEffects pane rendered receiver else [] := by
    intro receiver s rendered
    have hall : ∀ effect ∈ s.offerEffects pane rendered receiver,
        effect.isUpdate client pane = decide (receiver = client) := by
      intro effect he
      rw [PaneSubscription.mem_offerEffects he]
      exact isUpdate_updateFor s rendered receiver
    split_ifs with hc
    · exact List.filter_eq_self.mpr fun effect he => by simp [hall effect he, hc]
    · exact filter_isUpdate_quiet fun effect he => by simp [hall effect he, hc]
  rw [filter_isUpdate_offers _ hnd]
  · split_ifs
    · cases v.sub client with
      | none => rfl
      | some s => simp [hoffer]
    · rfl
  · intro receiver hne
    cases v.sub receiver with
    | none => rfl
    | some s => simp [hoffer, hne]

theorem delivers_frame (hv : v.Coherent) (hp : v.Paced) (h : v.Shows client viewer)
    (sequence : ℕ) (width height : UInt16) (full : Bool) (bytes : List UInt8) :
    v.Delivers pane client (.frame sequence width height full bytes) viewer := by
  have hencoded : ∀ receivers : List ClientId, (receivers.map fun receiver =>
      Effect.send receiver (.paneFrame pane sequence width height full bytes)).filter
        (Effect.isUpdate client pane) = [] := by
    intro receivers
    refine filter_isUpdate_quiet fun effect he => ?_
    obtain ⟨receiver, -, rfl⟩ := List.mem_map.mp he
    rfl
  rcases frame_cases v pane sequence width height full bytes with
    ⟨-, hact⟩ | ⟨route, hr, ⟨-, hact⟩ | ⟨-, hact⟩⟩
  · refine delivers_of_same h (by rw [updates, act, hact]; rfl) rfl (by rw [act, hact]) ?_
    intro s hs
    rw [act, hact] at hs
    exact ⟨s, hs, rfl, rfl⟩
  · refine delivers_of_unwatched h.sound ?_ rfl fun s _ _ => by rw [act, hact]
    rw [updates, act, hact]
    exact hencoded _
  · have hnd : (v.screenSubscribers route).Nodup := (Broker.nodup_subscribers route).filter _
    have hupdates : v.updates pane client (.frame sequence width height full bytes) =
        if client ∈ v.screenSubscribers route then
          ((v.sub client).map fun s => s.offerEffects pane ((v.screen.getD
            (ScreenState.new E width height)).advance width height full bytes).2 client).getD []
        else [] := by
      rw [updates, act, hact, List.filter_append, hencoded, List.nil_append]
      exact updates_render v pane client width height full bytes hnd
    have hscreen : (v.act pane (.frame sequence width height full bytes)).1.screen =
        some ((v.screen.getD (ScreenState.new E width height)).advance width height full
          bytes).1 := by
      rw [act, hact, render]
    have hsub : (v.act pane (.frame sequence width height full bytes)).1.sub client =
        if client ∈ v.screenSubscribers route then
          (v.sub client).map (·.offered pane ((v.screen.getD
            (ScreenState.new E width height)).advance width height full bytes).2)
        else v.sub client := by
      rw [act, hact, render]
    cases hs : v.sub client with
    | none =>
      refine delivers_of_unwatched h.sound ?_ rfl fun s hs' => ?_
      · rw [hupdates, hs]
        split_ifs <;> rfl
      · rw [hsub, hs, Option.map_none, ite_self] at hs'
        cases hs'
    | some s =>
      by_cases hrep : s.representation = .screen
      · have hmem := hv.mem_screenSubscribers hr hs hrep
        rw [if_pos hmem, hs] at hupdates hsub
        rcases @receive_offer E pane client viewer v.screen s (hp.subscribers client s hs hrep)
          h.sound hp.screen (fun old hold => h.current s old hs hrep hold) width height full bytes
          with ⟨hskip, hcurrent⟩ | ⟨offered, hsend, hholds⟩
        · refine delivers_of_quiet ?_ ⟨h.sound, fun s' state hs' _ hstate hsent => ?_⟩
          · rw [hupdates]
            simp [PaneSubscription.offerEffects, hskip]
          · obtain rfl : s = s' := by
              simpa [hsub, PaneSubscription.offered, hskip] using hs'
            rw [hscreen] at hstate
            obtain rfl := Option.some.inj hstate
            exact hcurrent hsent
        · refine delivers_of_update ?_ hscreen hholds
          rw [hupdates]
          simp [PaneSubscription.offerEffects, hsend]
      · -- a frame subscriber is sent no update
        have hnot : client ∉ v.screenSubscribers route := by
          simp [screenSubscribers, representationOf, hs, hrep]
        rw [if_neg hnot] at hupdates hsub
        refine delivers_of_unwatched h.sound hupdates rfl fun s' hs' hrep' => ?_
        rw [hsub, hs] at hs'
        obtain rfl := Option.some.inj hs'
        exact absurd hrep' hrep

theorem delivers_of_no_route (hsound : viewer.Sound) (hsilent : a.carries = false)
    (hnew : a.subscribes client = false) (hv : (v.act pane a).1.Coherent)
    (hr : (v.act pane a).1.route = none) : v.Delivers pane client a viewer := by
  refine delivers_of_unwatched hsound (updates_of_not_carries hsilent) hnew fun s _ _ => ?_
  by_contra hscreen
  exact hv.screen hscreen hr

/-- **Every action delivers** to every viewer of a coherent pane whose screen subscribers are
paced. -/
theorem Shows.act (hv : v.Coherent) (hp : v.Paced) (h : v.Shows client viewer) (a : PaneAction) :
    v.Delivers pane client a viewer := by
  cases a with
  | subscribe client' access cols rows representation =>
    exact delivers_subscribe h client' access cols rows representation
  | leave client' => exact delivers_leave hv h client'
  | take client' onlyIfFree => exact delivers_take h client' onlyIfFree
  | resize client' cols rows => exact delivers_resize h client' cols rows
  | ack client' sequence => exact delivers_ack h client' sequence
  | frame sequence width height full bytes =>
    exact delivers_frame hv hp h sequence width height full bytes
  | expire =>
    rcases expire_cases v pane with hact | ⟨-, hact⟩
    · refine delivers_of_same h (updates_of_not_carries rfl) rfl (by rw [PaneView.act, hact])
        fun s hs => ?_
      rw [PaneView.act, hact] at hs
      exact ⟨s, hs, rfl, rfl⟩
    · exact delivers_of_no_route h.sound rfl rfl (hv.expire pane) (by rw [PaneView.act, hact])
  | close => exact delivers_of_no_route h.sound rfl rfl (hv.close pane) (close_route v pane)
  | downgrade =>
    refine delivers_of_same h (updates_of_not_carries rfl) rfl (downgrade_screen v pane)
      fun s hs => ?_
    rw [PaneView.act, downgrade_sub] at hs
    exact ⟨s, hs, rfl, rfl⟩

end Delivers

end PaneView

/-! ### Viewers along a run -/

namespace Broker

/-- The updates of one pane's screen that a step sends to one client. -/
def updatesTo (b : Broker E) (client : ClientId) (pane : PaneId) (event : Event) : List Effect :=
  (b.step event).2.filter (Effect.isUpdate client pane)

/-- What a viewer holds: it starts from nothing when it subscribes, and consumes what it is
sent. -/
def watch (client : ClientId) (pane : PaneId) (viewer : Viewer) (_ : Broker E) (event : Event)
    (result : Broker E × List Effect) : Viewer :=
  result.2.foldl (Viewer.receive client pane)
    (if event.subscribes client pane then .nothing else viewer)

theorem watch_of_quiet {b : Broker E} {client : ClientId} {pane : PaneId} {event : Event}
    (h : b.updatesTo client pane event = []) (viewer : Viewer) :
    watch client pane viewer b event (b.step event) =
      if event.subscribes client pane then .nothing else viewer := by
  rw [watch, ← foldl_filter_of_ignored receive_of_not_update]
  rw [updatesTo] at h
  rw [h, List.foldl_nil]

/-- What is known of a viewer and of the pane it watches. -/
structure Serves (b : Broker E) (client : ClientId) (pane : PaneId) (viewer : Viewer) : Prop where
  wellFormed : b.WellFormed
  coherent : (b.view pane).Coherent
  paced : (b.view pane).Paced
  shows : (b.view pane).Shows client viewer

theorem serves_new (serverVersion : String) (features : List String)
    (quickReplies : List QuickReply) (client : ClientId) (pane : PaneId) :
    (Broker.new E serverVersion features quickReplies).Serves client pane .nothing := by
  refine ⟨wellFormed_new serverVersion features quickReplies, ?_, ?_, ?_⟩
  · rw [view_new]
    exact PaneView.coherent_empty
  · rw [view_new]
    exact PaneView.paced_empty
  · rw [view_new]
    refine ⟨Viewer.sound_nothing, fun s state hs => ?_⟩
    cases hs

/-- **A step, to a viewer**: it is sent at most one update, and then holds the screen the broker
holds. -/
theorem Serves.step {b : Broker E} {client : ClientId} {pane : PaneId} {viewer : Viewer}
    (h : b.Serves client pane viewer) (event : Event) :
    (b.step event).1.Serves client pane (watch client pane viewer b event (b.step event)) ∧
      (b.updatesTo client pane event).length ≤ 1 ∧
      (b.updatesTo client pane event ≠ [] → ∃ state, (b.step event).1.screens[pane]? = some state ∧
        watch client pane viewer b event (b.step event) = .holding state.last) := by
  have hb := wellFormed_step h.wellFormed event
  cases haction : b.action pane event with
  | none =>
    obtain ⟨hview, hout⟩ := (projects pane).idle b event h.wellFormed haction
    have hquiet : b.updatesTo client pane event = [] := by
      rw [updatesTo, ← filter_about about_of_isUpdate, hout, List.filter_nil]
    refine ⟨⟨hb, hview ▸ h.coherent, hview ▸ h.paced, ?_⟩, by simp [hquiet],
      fun hne => absurd hquiet hne⟩
    rw [watch_of_quiet hquiet, hview]
    by_cases hnew : event.subscribes client pane = true
    · -- only a client that was not greeted asks for the pane in vain
      rw [if_pos hnew]
      refine ⟨Viewer.sound_nothing, fun s state hs => ?_⟩
      obtain ⟨access, cols, rows, representation, rfl⟩ := Event.subscribes_iff.mp hnew
      rw [view_sub] at hs
      have hwatching : b.subscription client pane ≠ none := by simp [hs]
      have hg : b.greeted client = true := greeted_of_subscription h.wellFormed hwatching
      simp [action, messageAction, hg] at haction
    · rw [if_neg hnew]
      exact h.shows
  | some a =>
    obtain ⟨hview, hout⟩ := (projects pane).move b event a h.wellFormed haction
    have hupdates : b.updatesTo client pane event = (b.view pane).updates pane client a := by
      rw [updatesTo, ← filter_about about_of_isUpdate, hout, PaneView.updates]
    have hwatch : watch client pane viewer b event (b.step event) =
        (b.view pane).viewerAfter pane client a viewer := by
      rw [PaneView.viewerAfter, ← hupdates, updatesTo,
        foldl_filter_of_ignored receive_of_not_update, PaneView.viewerBefore,
        ← subscribes_of_action haction client, watch]
    have hdelivers : (b.view pane).Delivers pane client a viewer :=
      h.shows.act h.coherent h.paced a
    rw [hupdates, hwatch]
    refine ⟨⟨hb, ?_, ?_, ?_⟩, hdelivers.one, fun hne => ?_⟩
    · exact hview ▸ h.coherent.act pane a
    · exact hview ▸ h.paced.act h.coherent pane a
    · exact hview ▸ hdelivers.shows
    · obtain ⟨state, hstate, hholds⟩ := hdelivers.holds hne
      rw [← hview, view_screen] at hstate
      exact ⟨state, hstate, hholds⟩

/-- **Viewers agree with the broker**, over every run and at every step of it: a client that
starts from nothing at its subscription and consumes the updates of the pane it is sent never
meets a diff it cannot apply, nor a diff before a whole screen; it is sent at most one update at
a step, and after that holds exactly the screen the broker holds. -/
theorem screen_agreement (serverVersion : String) (features : List String)
    (quickReplies : List QuickReply) (events : List Event) (client : ClientId) (pane : PaneId) :
    AllSteps (observe step (watch client pane))
      (fun s event =>
        let viewer := watch client pane s.2 s.1 event (s.1.step event)
        viewer ≠ .stale ∧ viewer ≠ .premature ∧
          (s.1.updatesTo client pane event).length ≤ 1 ∧
          (s.1.updatesTo client pane event ≠ [] →
            ∃ state, (s.1.step event).1.screens[pane]? = some state ∧
              viewer = .holding state.last))
      (Broker.new E serverVersion features quickReplies, .nothing) events := by
  refine allSteps_of_invariant (I := fun s => s.1.Serves client pane s.2) ?_ ?_
    (serves_new serverVersion features quickReplies client pane) events
  · intro s event h
    exact (h.step event).1
  · intro s event h viewer
    obtain ⟨hnext, hone, hholds⟩ := h.step event
    exact ⟨hnext.shows.sound.1, hnext.shows.sound.2, hone, hholds⟩

end Broker

end SuperHerdr
