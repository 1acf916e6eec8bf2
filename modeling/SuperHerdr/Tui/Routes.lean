import SuperHerdr.Tui.Answers

/-!
# Reconciling routes

`ensureRoutes` compares what is held with what the layout wants, and replaces what differs. A route
is held at the size of the last frame it carried, so it goes on being what the layout wants only as
long as its frames are of that size. `routes_settle` is exact about when a further call does nothing.
-/

namespace SuperHerdr

namespace Tui

open Std Transducer

namespace App

variable (world : World) (self : App)

/-! ### What is wanted -/

/-- The panes of a layout that there is room for, around the one that is selected. -/
def wanted (selection : Option PaneId) (layout : List (PaneId × Size)) : ExtTreeMap PaneId Size :=
  match selection with
  | none => ∅
  | some _ => ExtTreeMap.ofList
      (layout.filter fun entry => 0 < entry.2.width ∧ 0 < entry.2.height)

/-- Whether a pane is left alone for now, as its stream has ended. -/
def Waiting (pane : PaneId) : Prop :=
  (self.routeRetryAfter[pane]?.any fun retry => world.now < retry) = true

instance (pane : PaneId) : Decidable (Waiting world self pane) :=
  inferInstanceAs (Decidable (_ = true))

/-- A route as it would be opened, whatever its size. -/
def Suits (state : FederationState) (selected : PaneId) (desired : ExtTreeMap PaneId Size)
    (pane : PaneId) (route : ActiveRoute) : Prop :=
  pane ∈ desired ∧ route.requested = desiredAccess pane selected ∧
    ∃ runtime, state.targets[pane.targetSession]? = some runtime ∧
      route.generation = runtime.connectionGeneration

/-- A route of the size that is wanted. -/
def Fits (desired : ExtTreeMap PaneId Size) (pane : PaneId) (route : ActiveRoute) : Prop :=
  ∃ inner : Size, desired[pane]? = some inner ∧ route.rows = inner.height ∧
    route.columns = inner.width

variable (selected : PaneId)

theorem keepsRoute_iff (desired : ExtTreeMap PaneId Size) (pane : PaneId)
    (route : ActiveRoute) : keepsRoute world selected desired pane route = true ↔
      Suits world.state selected desired pane route ∧ Fits desired pane route := by
  rw [keepsRoute, Suits, Fits, ExtTreeMap.mem_iff_isSome_getElem?]
  cases desired[pane]? with
  | none => simp
  | some inner =>
    cases world.state.targets[pane.targetSession]? with
    | none => simp
    | some runtime => simp [and_assoc]

/-! ### Opening routes -/

/-- Whether a route would be opened. -/
def Needed (pane : PaneId) : Prop :=
  pane ∉ self.routes ∧ ¬Waiting world self pane ∧ pane.targetSession ∈ world.state.targets

variable {pane : PaneId}

theorem openRoute_of_not_needed (inner : Size)
    (h : ¬Needed world self pane) : openRoute world selected self pane inner = self := by
  rw [openRoute]
  split
  · rfl
  · next hfree =>
    rw [not_or, ← ExtTreeMap.mem_iff_contains] at hfree
    split
    · rfl
    · next runtime hruntime =>
      have hknown : pane.targetSession ∈ world.state.targets :=
        ExtTreeMap.mem_iff_isSome_getElem?.mpr (by rw [hruntime]; rfl)
      exact absurd ⟨hfree.1, hfree.2, hknown⟩ h

/-- A route as it is opened. -/
def fresh (selected pane : PaneId) (inner : Size) (runtime : TargetRuntimeState) : ActiveRoute where
  pane := pane
  requested := desiredAccess pane selected
  access := .observe
  generation := runtime.connectionGeneration
  rows := inner.height
  columns := inner.width
  parser := ⟨inner.height, inner.width, []⟩
  lastSequence := none

theorem openRoute_of_needed (inner : Size) (h : Needed world self pane) : ∃ runtime,
      world.state.targets[pane.targetSession]? = some runtime ∧
        openRoute world selected self pane inner =
          { self with routes := self.routes.insert pane (fresh selected pane inner runtime) }.send
            (.subscribePane pane (desiredAccess pane selected) inner.width inner.height .frames) := by
  obtain ⟨hfresh, hfree, hknown⟩ := h
  obtain ⟨runtime, hruntime⟩ := Option.isSome_iff_exists.mp
    (ExtTreeMap.mem_iff_isSome_getElem?.mp hknown)
  refine ⟨runtime, hruntime, ?_⟩
  have hclosed : ¬(self.routes.contains pane = true ∨
      (self.routeRetryAfter[pane]?.any fun retry => world.now < retry) = true) := by
    rw [not_or, ← ExtTreeMap.mem_iff_contains]
    exact ⟨hfresh, hfree⟩
  rw [openRoute, if_neg hclosed, hruntime]
  rfl

/-- Open what is wanted, pane after pane. -/
def openAll (selected : PaneId) (self : App) (entries : List (PaneId × Size)) : App :=
  entries.foldl (fun self entry => openRoute world selected self entry.1 entry.2) self

/-- What opening routes leaves: the selection, what is waited for, and each route that is held. -/
structure Extends (before after : App) : Prop where
  selected : after.selectedPane = before.selectedPane
  retries : after.routeRetryAfter = before.routeRetryAfter
  routes : ∀ (pane : PaneId) (route : ActiveRoute), before.routes[pane]? = some route →
    after.routes[pane]? = some route
  sent : before.outbox ⊆ after.outbox

theorem Extends.refl (self : App) : Extends self self := ⟨rfl, rfl, fun _ _ => id, List.Subset.refl _⟩

theorem Extends.trans {before between after : App} (h : Extends before between)
    (hnext : Extends between after) : Extends before after where
  selected := hnext.selected.trans h.selected
  retries := hnext.retries.trans h.retries
  routes pane route hroute := hnext.routes pane route (h.routes pane route hroute)
  sent _ hmem := hnext.sent (h.sent hmem)

theorem extends_openRoute (selected pane : PaneId) (inner : Size) :
    Extends self (openRoute world selected self pane inner) := by
  by_cases hneeded : Needed world self pane
  · obtain ⟨runtime, -, hopened⟩ := openRoute_of_needed world self selected inner hneeded
    rw [hopened]
    refine ⟨rfl, rfl, fun held route hroute => ?_, by simp [send, perform]⟩
    have hne : pane ≠ held := by
      rintro rfl
      exact hneeded.1 (ExtTreeMap.mem_iff_isSome_getElem?.mpr (by rw [hroute]; rfl))
    simpa [send, perform, ExtTreeMap.getElem?_insert, hne] using hroute
  · rw [openRoute_of_not_needed world self selected inner hneeded]
    exact .refl self

theorem extends_openAll (entries : List (PaneId × Size)) :
    Extends self (openAll world selected self entries) := by
  rw [openAll]
  induction entries generalizing self with
  | nil => exact .refl self
  | cons entry entries ih => exact (extends_openRoute world self selected entry.1 entry.2).trans (ih _)

variable {entries : List (PaneId × Size)}

theorem openAll_of_not_needed
    (h : ∀ entry ∈ entries, ¬Needed world self entry.1) :
    openAll world selected self entries = self := by
  rw [openAll]
  induction entries with
  | nil => rfl
  | cons entry entries ih =>
    rw [List.foldl_cons, openRoute_of_not_needed world self selected entry.2 (h entry (by simp))]
    exact ih fun other hother => h other (by simp [hother])

/-- What opening a route sends. -/
def subscribes (selected pane : PaneId) (inner : Size) : Effect :=
  .send .plain
    (.subscribePane pane (desiredAccess pane selected) inner.width inner.height .frames)

/-- A route that is needed is opened, and the daemon is asked for it. -/
theorem openAll_of_needed
    {inner : Size} (hmem : (pane, inner) ∈ entries) (h : Needed world self pane) :
    ∃ size runtime, (pane, size) ∈ entries ∧
      world.state.targets[pane.targetSession]? = some runtime ∧
      (openAll world selected self entries).routes[pane]? =
        some (fresh selected pane size runtime) ∧
      subscribes selected pane size ∈ (openAll world selected self entries).outbox := by
  rw [openAll]
  induction entries generalizing self with
  | nil => cases hmem
  | cons entry entries ih =>
    rw [List.foldl_cons]
    by_cases hsame : entry.1 = pane
    · obtain ⟨runtime, hruntime, hopened⟩ :=
        openRoute_of_needed world self selected entry.2 (hsame ▸ h : Needed world self entry.1)
      have hrest := extends_openAll world (openRoute world selected self entry.1 entry.2) selected
        entries
      rw [hsame] at hruntime hopened hrest
      refine ⟨entry.2, runtime, by simp [← hsame], hruntime, ?_, ?_⟩
      · rw [hsame]
        exact hrest.routes pane _ (by rw [hopened]; simp [send, perform])
      · rw [hsame]
        exact hrest.sent (by rw [hopened]; simp [send, perform, subscribes])
    · have hrest : (pane, inner) ∈ entries := by
        rcases List.mem_cons.mp hmem with heq | hrest
        · exact absurd (heq ▸ rfl) hsame
        · exact hrest
      have hstep := extends_openRoute world self selected entry.1 entry.2
      have hneeded : Needed world (openRoute world selected self entry.1 entry.2) pane := by
        refine ⟨fun hheld => h.1 ?_, fun hwaiting => h.2.1 ?_, h.2.2⟩
        · by_cases hopens : Needed world self entry.1
          · obtain ⟨runtime, -, hopened⟩ := openRoute_of_needed world self selected entry.2 hopens
            rw [hopened] at hheld
            simpa [send, perform, hsame] using hheld
          · rwa [openRoute_of_not_needed world self selected entry.2 hopens] at hheld
        · rwa [Waiting, hstep.retries] at hwaiting
      obtain ⟨size, runtime, hsize, hopened⟩ := ih _ hrest hneeded
      exact ⟨size, runtime, List.mem_cons_of_mem _ hsize, hopened⟩

/-- Each route that is opened suits. -/
theorem suits_openAll (desired : ExtTreeMap PaneId Size)
    (hentries : ∀ entry ∈ entries, entry.1 ∈ desired)
    (h : ∀ (pane : PaneId) (route : ActiveRoute), self.routes[pane]? = some route →
      Suits world.state selected desired pane route) :
    ∀ (pane : PaneId) (route : ActiveRoute),
      (openAll world selected self entries).routes[pane]? = some route →
        Suits world.state selected desired pane route := by
  rw [openAll]
  induction entries generalizing self with
  | nil => exact h
  | cons entry entries ih =>
    rw [List.foldl_cons]
    refine ih _ (fun other hother => hentries other (by simp [hother])) fun pane route hroute => ?_
    by_cases hneeded : Needed world self entry.1
    · obtain ⟨runtime, hruntime, hopened⟩ :=
        openRoute_of_needed world self selected entry.2 hneeded
      rw [hopened] at hroute
      simp only [send, perform, ExtTreeMap.getElem?_insert] at hroute
      split at hroute
      · next hsame =>
        have hsame : entry.1 = pane := by simpa using hsame
        cases hroute
        exact hsame ▸ ⟨hentries entry (by simp), rfl, runtime, hruntime, rfl⟩
      · exact h pane route hroute
    · rw [openRoute_of_not_needed world self selected entry.2 hneeded] at hroute
      exact h pane route hroute

/-! ### One call -/

/-- A world with a given federation, which lays out given panes around a selection. The clock goes
on. -/
structure Held (state : FederationState) (selection : Option PaneId)
    (layout : List (PaneId × Size)) where
  world : World
  state_eq : world.state = state
  layout_eq : ∀ self : App, self.selectedPane = selection → world.visiblePanes self = layout

variable {state : FederationState} {selection : Option PaneId} {layout : List (PaneId × Size)}

/-- The routes that a call releases. -/
def released (selected : PaneId) (desired : ExtTreeMap PaneId Size) : List PaneId :=
  (self.routes.toList.filter fun entry => !keepsRoute world selected desired entry.1 entry.2).map (·.1)

/-- What a call keeps, and what it releases. -/
def narrowed (selected : PaneId) (desired : ExtTreeMap PaneId Size) : App :=
  { self with
    lastFrameArea := some world.frameArea
    routes := self.routes.filter (keepsRoute world selected desired)
    outbox := self.outbox ++ (released world self selected desired).map fun pane =>
      .send .plain (.unsubscribePane pane) }

/-- A call releases what does not fit and opens what is wanted. -/
theorem ensureRoutes_of_selected (held : Held state selection layout) {selected : PaneId}
    (hselection : selection = some selected) (hselected : self.selectedPane = selection) :
    ensureRoutes held.world self =
      openAll held.world selected (narrowed held.world self selected (wanted selection layout))
        (wanted selection layout).toList := by
  subst hselection
  have hlayout : held.world.visiblePanes { self with lastFrameArea := some held.world.frameArea } =
      layout := held.layout_eq _ hselected
  rw [ensureRoutes]
  split
  · next hnone => simp [hselected] at hnone
  · next found hfound =>
    have hsame : selected = found := by simpa [hselected] using hfound
    subst hsame
    dsimp only
    rw [hlayout, foldl_send]
    rfl

theorem ensureRoutes_of_none (hselected : self.selectedPane = none) :
    ensureRoutes world self =
      { self with
        routes := ∅
        outbox := self.outbox ++ (self.routes.toList.map (·.1)).map fun pane =>
          .send .plain (.unsubscribePane pane) } := by
  rw [ensureRoutes]
  split
  · rw [foldl_send]
  · next found hfound => simp [hselected] at hfound

/-- After a call, a route is as it would be opened, whatever its size. -/
def Reconciled (state : FederationState) (selection : Option PaneId) (layout : List (PaneId × Size))
    (self : App) : Prop :=
  self.selectedPane = selection ∧
    ∀ (pane : PaneId) (route : ActiveRoute), self.routes[pane]? = some route →
      ∃ selected, selection = some selected ∧
        Suits state selected (wanted selection layout) pane route

theorem reconciled_ensureRoutes (held : Held state selection layout)
    (hselected : self.selectedPane = selection) :
    Reconciled state selection layout (ensureRoutes held.world self) := by
  rcases Option.eq_none_or_eq_some selection with rfl | ⟨selected, rfl⟩
  · rw [ensureRoutes_of_none _ _ hselected]
    exact ⟨hselected, fun pane route hroute => by simp at hroute⟩
  · rw [ensureRoutes_of_selected self held rfl hselected]
    have hextends := extends_openAll held.world
      (narrowed held.world self selected (wanted (some selected) layout)) selected
      (wanted (some selected) layout).toList
    refine ⟨hextends.selected.trans hselected, fun pane route hroute => ⟨selected, rfl, ?_⟩⟩
    rw [← held.state_eq]
    refine suits_openAll held.world _ selected _ (fun entry hentry => ?_) (fun pane route hkept => ?_)
      pane route hroute
    · exact ExtTreeMap.mem_iff_isSome_getElem?.mpr
        (by rw [ExtTreeMap.mem_toList_iff_getElem?_eq_some.mp hentry]; rfl)
    · have hkept : (self.routes.filter (keepsRoute held.world selected
          (wanted (some selected) layout)))[pane]? = some route := hkept
      rw [ExtTreeMap.getElem?_filter', Option.filter_eq_some_iff] at hkept
      exact ((keepsRoute_iff held.world selected _ pane route).mp hkept.2).1

/-- **After a call, each pane that is wanted and not waited for is held**, at the size that is wanted:
its route was kept, or the daemon was asked for it. -/
theorem held_ensureRoutes (held : Held state selection layout)
    (hselected : self.selectedPane = selection) {inner : Size}
    (hwanted : (wanted selection layout)[pane]? = some inner)
    (hknown : pane.targetSession ∈ state.targets) (hfree : ¬Waiting held.world self pane) :
    ∃ selected route, selection = some selected ∧
      (ensureRoutes held.world self).routes[pane]? = some route ∧
      Suits state selected (wanted selection layout) pane route ∧
      Fits (wanted selection layout) pane route ∧
      (self.routes[pane]? = some route ∨
        subscribes selected pane inner ∈ (ensureRoutes held.world self).outbox) := by
  rcases Option.eq_none_or_eq_some selection with rfl | ⟨selected, rfl⟩
  · simp [wanted] at hwanted
  rw [ensureRoutes_of_selected self held rfl hselected]
  by_cases hkept : ∃ route, self.routes[pane]? = some route ∧
      keepsRoute held.world selected (wanted (some selected) layout) pane route = true
  · obtain ⟨route, hroute, hkeeps⟩ := hkept
    obtain ⟨hsuits, hfits⟩ := (keepsRoute_iff held.world selected _ pane route).mp hkeeps
    rw [held.state_eq] at hsuits
    have hextends := extends_openAll held.world
      (narrowed held.world self selected (wanted (some selected) layout)) selected
      (wanted (some selected) layout).toList
    refine ⟨selected, route, rfl, hextends.routes pane route ?_, hsuits, hfits, .inl hroute⟩
    rw [narrowed, ExtTreeMap.getElem?_filter', hroute, Option.filter_eq_some_iff]
    exact ⟨rfl, hkeeps⟩
  · have hneeded : Needed held.world
        (narrowed held.world self selected (wanted (some selected) layout)) pane := by
      refine ⟨fun hmem => hkept ?_, hfree, by rw [held.state_eq]; exact hknown⟩
      obtain ⟨route, hroute⟩ := Option.isSome_iff_exists.mp
        (ExtTreeMap.mem_iff_isSome_getElem?.mp hmem)
      rw [narrowed, ExtTreeMap.getElem?_filter', Option.filter_eq_some_iff] at hroute
      exact ⟨route, hroute⟩
    obtain ⟨size, runtime, hsize, hruntime, hopened, hsent⟩ := openAll_of_needed held.world _ selected
      (ExtTreeMap.mem_toList_iff_getElem?_eq_some.mpr hwanted) hneeded
    have hsame : size = inner := by
      have hfound := ExtTreeMap.mem_toList_iff_getElem?_eq_some.mp hsize
      rw [hwanted] at hfound
      exact (Option.some.inj hfound).symm
    rw [hsame] at hopened hsent
    refine ⟨selected, fresh selected pane inner runtime, rfl, hopened, ?_, ?_, .inr hsent⟩
    · rw [held.state_eq] at hruntime
      exact ⟨ExtTreeMap.mem_iff_isSome_getElem?.mpr (by rw [hwanted]; rfl), rfl, runtime,
        hruntime, rfl⟩
    · exact ⟨inner, hwanted, rfl, rfl⟩

/-! ### Calls, frames and leases -/

/-- What may come in between. -/
inductive Turn
  | call
  | frame (pane : PaneId) (sequence : ℕ) (width height : UInt16) (full : Bool) (bytes : List UInt8)
  | lease (pane : PaneId) (access : TerminalAccess)

def turn (self : App) (event : Held state selection layout × Turn) : App × List Effect :=
  let after := match event.2 with
    | .call => ensureRoutes event.1.world { self with outbox := [] }
    | .frame pane sequence width height full bytes =>
        handleDaemonEvent event.1.world { self with outbox := [] }
          (.paneFrame pane sequence width height full bytes)
    | .lease pane access =>
        handleDaemonEvent event.1.world { self with outbox := [] } (.paneLease pane access)
  ({ after with outbox := [] }, after.outbox)

/-- A call sends nothing, and keeps every route and its emulator. -/
def Settled (self : App) (event : Held state selection layout × Turn) : Prop :=
  event.2 = .call → (turn self event).2 = [] ∧ (turn self event).1.routes = self.routes

/-- Each route is as large as is wanted, that is, as the last frame it carried was, and no pane that
was waited for is free by now. -/
def Sized (self : App) (event : Held state selection layout × Turn) : Prop :=
  event.2 = .call →
    (∀ (pane : PaneId) (route : ActiveRoute), self.routes[pane]? = some route →
      Fits (wanted selection layout) pane route) ∧
    ∀ pane ∈ wanted selection layout, ¬Needed event.1.world self pane

/-- Frames and leases change the size of a route and its access, and nothing else. -/
theorem suits_heard {message : ServerMessage}
    (hmessage : (∃ pane sequence width height full bytes,
        message = .paneFrame pane sequence width height full bytes) ∨
      ∃ pane access, message = .paneLease pane access) {route : ActiveRoute}
    (hroute : (heardRoutes self.routes message)[pane]? = some route) :
    ∃ old, self.routes[pane]? = some old ∧
      ∀ (state : FederationState) (selected : PaneId) (desired : ExtTreeMap PaneId Size),
        Suits state selected desired pane old → Suits state selected desired pane route := by
  rcases hmessage with ⟨framed, sequence, width, height, full, bytes, rfl⟩ | ⟨leased, access, rfl⟩
  · rw [heardRoutes, ExtTreeMap.getElem?_modify] at hroute
    split at hroute
    · next hsame =>
      have hsame : framed = pane := by simpa using hsame
      obtain ⟨old, hold, rfl⟩ := Option.map_eq_some_iff.mp hroute
      exact ⟨old, hsame ▸ hold, fun _ _ _ => id⟩
    · exact ⟨route, hroute, fun _ _ _ => id⟩
  · rw [heardRoutes, ExtTreeMap.getElem?_modify] at hroute
    split at hroute
    · next hsame =>
      have hsame : leased = pane := by simpa using hsame
      obtain ⟨old, hold, rfl⟩ := Option.map_eq_some_iff.mp hroute
      exact ⟨old, hsame ▸ hold, fun _ _ _ => id⟩
    · exact ⟨route, hroute, fun _ _ _ => id⟩

theorem selectedPane_paneFrame (pane : PaneId) (sequence : ℕ) (width height : UInt16) (full : Bool)
    (bytes : List UInt8) :
    (paneFrame world self pane sequence width height full bytes).selectedPane =
      self.selectedPane := by
  rw [paneFrame]
  split
  · rfl
  · dsimp only
    rw [updateSelectionAfterFrame]
    repeat' split
    all_goals rfl

theorem reconciled_turn (event : Held state selection layout × Turn)
    (h : Reconciled state selection layout self) :
    Reconciled state selection layout (turn self event).1 := by
  obtain ⟨held, move⟩ := event
  cases move with
  | call => exact reconciled_ensureRoutes { self with outbox := [] } held h.1
  | frame framed sequence width height full bytes =>
    refine ⟨(selectedPane_paneFrame held.world _ _ _ _ _ _ _).trans h.1, fun pane route hroute => ?_⟩
    have hheard : (handleDaemonEvent held.world { self with outbox := [] }
        (.paneFrame framed sequence width height full bytes)).routes[pane]? = some route := hroute
    rw [routes_handleDaemonEvent] at hheard
    obtain ⟨old, hold, hsuits⟩ := suits_heard { self with outbox := [] }
      (.inl ⟨framed, sequence, width, height, full, bytes, rfl⟩) hheard
    obtain ⟨selected, hselection, hsuited⟩ := h.2 pane old hold
    exact ⟨selected, hselection, hsuits _ _ _ hsuited⟩
  | lease leased access =>
    refine ⟨h.1, fun pane route hroute => ?_⟩
    have hheard : (handleDaemonEvent held.world { self with outbox := [] }
        (.paneLease leased access)).routes[pane]? = some route := hroute
    rw [routes_handleDaemonEvent] at hheard
    obtain ⟨old, hold, hsuits⟩ := suits_heard { self with outbox := [] }
      (.inr ⟨leased, access, rfl⟩) hheard
    obtain ⟨selected, hselection, hsuited⟩ := h.2 pane old hold
    exact ⟨selected, hselection, hsuits _ _ _ hsuited⟩

/-- Where every route fits, a call narrows nothing. -/
theorem narrowed_of_fits {selected : PaneId} {desired : ExtTreeMap PaneId Size}
    (h : ∀ (pane : PaneId) (route : ActiveRoute), self.routes[pane]? = some route →
      keepsRoute world selected desired pane route = true) :
    narrowed world self selected desired =
      { self with lastFrameArea := some world.frameArea } := by
  have hroutes : self.routes.filter (keepsRoute world selected desired) = self.routes := by
    refine ExtTreeMap.ext_getElem? fun pane => ?_
    rw [ExtTreeMap.getElem?_filter']
    cases hroute : self.routes[pane]? with
    | none => rfl
    | some route => simp [h pane route hroute]
  have hreleased : released world self selected desired = [] := by
    rw [released, List.map_eq_nil_iff, List.filter_eq_nil_iff]
    intro entry hentry
    have hkeeps := h entry.1 entry.2 (ExtTreeMap.mem_toList_iff_getElem?_eq_some.mp hentry)
    simp [hkeeps]
  rw [narrowed, hroutes, hreleased, List.map_nil, List.append_nil]

/-- A call does nothing exactly if what is held is what is wanted. -/
theorem settled_iff_sized (event : Held state selection layout × Turn)
    (h : Reconciled state selection layout self) : Settled self event ↔ Sized self event := by
  obtain ⟨held, move⟩ := event
  refine forall_congr' fun hcall => ?_
  dsimp only at hcall
  subst hcall
  obtain ⟨hselected, hsuits⟩ := h
  rcases Option.eq_none_or_eq_some selection with rfl | ⟨selected, rfl⟩
  · have hempty : self.routes = ∅ := by
      refine ExtTreeMap.ext_getElem? fun pane => ?_
      cases hroute : self.routes[pane]? with
      | none => simp
      | some route =>
        obtain ⟨selected, hnone, -⟩ := hsuits pane route hroute
        cases hnone
    have hensured := ensureRoutes_of_none held.world { self with outbox := [] } hselected
    refine iff_of_true ?_ ⟨fun pane route hroute => ?_, fun pane hmem => ?_⟩
    · rw [turn]
      dsimp only
      rw [hensured, hempty]
      exact ⟨by simp, rfl⟩
    · simp [hempty] at hroute
    · simp [wanted] at hmem
  · have hensured := ensureRoutes_of_selected { self with outbox := [] } held rfl hselected
    have hkeeps : ∀ (pane : PaneId) (route : ActiveRoute), self.routes[pane]? = some route →
        (keepsRoute held.world selected (wanted (some selected) layout) pane route = true ↔
          Fits (wanted (some selected) layout) pane route) := by
      intro pane route hroute
      obtain ⟨found, hfound, hsuited⟩ := hsuits pane route hroute
      cases hfound
      rw [keepsRoute_iff, held.state_eq]
      exact and_iff_right hsuited
    rw [turn]
    dsimp only
    rw [hensured]
    constructor
    · rintro ⟨hsent, -⟩
      have hextends := extends_openAll held.world (narrowed held.world { self with outbox := [] }
        selected (wanted (some selected) layout)) selected (wanted (some selected) layout).toList
      have hreleased : released held.world { self with outbox := [] } selected
          (wanted (some selected) layout) = [] := by
        have hnothing := hextends.sent
        rw [hsent, narrowed, List.nil_append, List.subset_nil, List.map_eq_nil_iff] at hnothing
        exact hnothing
      refine ⟨fun pane route hroute => ?_, fun pane hmem hneeded => ?_⟩
      · rw [← hkeeps pane route hroute]
        by_contra hdrops
        rw [released, List.map_eq_nil_iff, List.filter_eq_nil_iff] at hreleased
        exact hreleased (pane, route) (ExtTreeMap.mem_toList_iff_getElem?_eq_some.mpr hroute)
          (by simpa using hdrops)
      · obtain ⟨inner, hinner⟩ := Option.isSome_iff_exists.mp
          (ExtTreeMap.mem_iff_isSome_getElem?.mp hmem)
        have hstill : Needed held.world (narrowed held.world { self with outbox := [] } selected
            (wanted (some selected) layout)) pane := by
          refine ⟨fun hheld => hneeded.1 ?_, hneeded.2⟩
          obtain ⟨route, hroute⟩ := Option.isSome_iff_exists.mp
            (ExtTreeMap.mem_iff_isSome_getElem?.mp hheld)
          rw [narrowed, ExtTreeMap.getElem?_filter', Option.filter_eq_some_iff] at hroute
          exact ExtTreeMap.mem_iff_isSome_getElem?.mpr (Option.isSome_iff_exists.mpr ⟨route, hroute.1⟩)
        obtain ⟨size, runtime, -, -, -, hasked⟩ := openAll_of_needed held.world _ selected
          (ExtTreeMap.mem_toList_iff_getElem?_eq_some.mpr hinner) hstill
        rw [hsent] at hasked
        cases hasked
    · rintro ⟨hfits, hneeds⟩
      have hnarrowed := narrowed_of_fits held.world { self with outbox := [] }
        fun pane route hroute => (hkeeps pane route hroute).mpr (hfits pane route hroute)
      rw [hnarrowed, openAll_of_not_needed]
      · exact ⟨rfl, rfl⟩
      · intro entry hentry
        refine hneeds entry.1 (ExtTreeMap.mem_iff_isSome_getElem?.mpr ?_)
        rw [ExtTreeMap.mem_toList_iff_getElem?_eq_some.mp hentry]
        rfl

/-- **Route reconciliation settles**: for a federation, a selection and a layout that are held, the
first call subscribes to each pane that is wanted and not waited for, and whatever frames and leases
arrive, every later call does nothing exactly as long as the frames are as large as is wanted, and no
pane that was waited for is free by then. -/
theorem routes_settle (first : Held state self.selectedPane layout)
    (events : List (Held state self.selectedPane layout × Turn)) :
    (∀ (pane : PaneId) (inner : Size), (wanted self.selectedPane layout)[pane]? = some inner →
      pane.targetSession ∈ state.targets → ¬Waiting first.world self pane →
      ∃ selected route, self.selectedPane = some selected ∧
        (ensureRoutes first.world self).routes[pane]? = some route ∧
        Suits state selected (wanted self.selectedPane layout) pane route ∧
        Fits (wanted self.selectedPane layout) pane route ∧
        (self.routes[pane]? = some route ∨
          subscribes selected pane inner ∈ (ensureRoutes first.world self).outbox)) ∧
      (AllSteps turn Settled (ensureRoutes first.world self) events ↔
        AllSteps turn Sized (ensureRoutes first.world self) events) := by
  refine ⟨fun pane inner hwanted hknown hfree => ?_, ?_⟩
  · exact held_ensureRoutes self first rfl hwanted hknown hfree
  · exact allSteps_congr (I := Reconciled state self.selectedPane layout)
      (fun self event h => reconciled_turn self event h)
      (fun self event h => settled_iff_sized self event h)
      (reconciled_ensureRoutes self first rfl) events

/-- A screen of another client's size is shown, and the next call takes the route down. -/
theorem a_frame_of_another_size_is_dropped :
    let pane : PaneId := ⟨"box", "main", "1"⟩
    let world := hosting [liveTarget ⟨"box", "main"⟩ 1 none [pane]]
    let held : Held world.state (some pane) [(pane, ⟨80, 24⟩)] :=
      ⟨world, rfl, fun self h => by
        change self.selectedPane.toList.map _ = _
        rw [h]
        rfl⟩
    let ready := { start (some pane) [] ∅ 100 with selectedPane := some pane }
    let after := exec turn ready
      [(held, .call), (held, .frame pane 1 100 30 true [0x61]), (held, .call)]
    after.2 = [.send .plain (.subscribePane pane .control 80 24 .frames),
        .send .plain (.unsubscribePane pane),
        .send .plain (.subscribePane pane .control 80 24 .frames)] ∧
      (after.1.routes[pane]?.map (·.parser)) = some ⟨24, 80, []⟩ := by
  decide +kernel

end App

end Tui

end SuperHerdr
