import SuperHerdr.Federation.Wire
import SuperHerdr.Tui.Neighbours

/-!
# The numbers of the sidebar

The sidebar lists the targets in their order, and under each the workspaces of the last snapshot that was
read of it. It numbers these, and a digit after the prefix selects a workspace by its number. But the
sidebar counts the workspaces of every target, while a digit counts only those of live ones: a target that
lost its connection keeps its snapshot, and the workspaces behind it in the sidebar are then chosen by
numbers that stand beside others (`shown_number_is_chosen_iff`).
-/

namespace SuperHerdr

namespace Tui

open Std

/-! ### Lines -/

inductive Color
  | red
  | green
  | yellow
  | gray
  | darkGray
  | white
deriving DecidableEq

/-- A color and the modifiers that a sidebar uses. -/
structure Style where
  fg : Option Color := none
  bold : Bool := false
  reversed : Bool := false
deriving DecidableEq

structure Span where
  content : String
  style : Style
deriving DecidableEq

structure Line where
  spans : List Span
  style : Style := {}
deriving DecidableEq

structure SidebarRow where
  line : Line
  pane : Option PaneId
  context : Option ContextTarget
  selectionAnchor : Bool
deriving DecidableEq

def targetStatus (target : TargetRuntimeState) : String × Color :=
  match target.connection with
  | .connecting => ("◌", .yellow)
  | .live => ("●", .green)
  | .backoff _ => ("!", .red)
  | .incompatible => ("×", .red)

def statusSymbol : Option String → String
  | some "working" => "●"
  | some "blocked" => "!"
  | some "idle" => "✓"
  | _ => "·"

def statusStyle (status : Option String) : Style :=
  let color := match status with
    | some "working" => .yellow
    | some "blocked" => .red
    | some "idle" => .green
    | _ => .darkGray
  { fg := some color }

def shortSession (session : String) : String :=
  let safe := App.safeText session
  if safe.length ≤ 14 then safe else String.ofList (safe.toList.take 13 ++ ['…'])

/-! ### Panes by workspace and by tab -/

def selectedWorkspace (state : FederationState) (selected : Option PaneId) : Option WorkspaceId := do
  let (_, pane) ← selectedSnapshotAndPane state selected
  pane.workspace

def paneForTab (snapshot : NormalizedSnapshot) (tab : TabId) : Option PaneId :=
  (snapshot.layouts[tab]?.map (·.focusedPane)).or
    ((snapshot.panes.values.find? fun pane => pane.tab = some tab).map (·.id))

def paneForWorkspace (snapshot : NormalizedSnapshot) (workspace : WorkspaceId) : Option PaneId := do
  let tab ← (snapshot.workspaces[workspace]?.bind (·.activeTab)).or
    ((snapshot.tabs.values.find? fun tab => tab.workspace = some workspace).map (·.id))
  paneForTab snapshot tab

def selectTab (snapshot : NormalizedSnapshot) (tab : TabId) : Went :=
  let pane := (snapshot.layouts[tab]?.map (·.focusedPane)).or
    ((snapshot.panes.values.find? fun pane => pane.tab = some tab).map (·.id))
  match pane with
  | some pane => .selected pane
  | none => .nowhere

def selectWorkspace (state : FederationState) (index : ℕ) : Went :=
  let workspaces := ((state.targets.values.filter fun target => target.connection = .live).filterMap
    (·.snapshot)).flatMap fun snapshot => snapshot.workspaces.values.map (snapshot, ·)
  match workspaces[index]? with
  | none => .told s!"workspace {index + 1} is not available"
  | some (snapshot, workspace) =>
      let tab := workspace.activeTab.or
        ((snapshot.tabs.values.find? fun tab => tab.workspace = some workspace.id).map (·.id))
      match tab with
      | some tab => selectTab snapshot tab
      | none => .nowhere

/-! ### The rows -/

def numberLabel (workspaceIndex : ℕ) : String := if workspaceIndex ≤ 9 then s!"{workspaceIndex} " else "· "

def workspaceRow (selectedWorkspace : Option WorkspaceId) (target : TargetRuntimeState)
    (snapshot : NormalizedSnapshot) (workspace : WorkspaceState) (workspaceIndex : ℕ) : SidebarRow :=
  let isSelected := decide (selectedWorkspace = some workspace.id)
  let workspaceStyle : Style := { fg := some (if isSelected then .white else .gray), bold := isSelected }
  { line :=
      { spans :=
          [⟨if isSelected then ">" else " ", { bold := true }⟩,
            ⟨numberLabel workspaceIndex, { fg := some .darkGray }⟩,
            ⟨statusSymbol workspace.agentStatus, statusStyle workspace.agentStatus⟩,
            ⟨s!" {App.displayLabel workspace.id.resource workspace.label}", workspaceStyle⟩]
        style := { reversed := isSelected } }
    pane := if target.connection = .live then paneForWorkspace snapshot workspace.id else none
    context := some (.workspace workspace.id)
    selectionAnchor := isSelected }

def workspaceRows (selectedWorkspace : Option WorkspaceId) (target : TargetRuntimeState)
    (snapshot : NormalizedSnapshot) : List WorkspaceState → ℕ → List SidebarRow
  | [], _ => []
  | workspace :: rest, workspaceIndex =>
      workspaceRow selectedWorkspace target snapshot workspace workspaceIndex ::
        workspaceRows selectedWorkspace target snapshot rest (workspaceIndex + 1)

/-- The rows of a target itself: its name, and the error of its events if it is selected. -/
def sessionRows (selectedTarget : Option TargetSession) (selectedWorkspace : Option WorkspaceId)
    (target : TargetRuntimeState) : List SidebarRow :=
  let isSelectedTarget := decide (selectedTarget = some target.key)
  let (symbol, color) := targetStatus target
  let targetStyle : Style := { fg := some color, bold := isSelectedTarget }
  let line : Line :=
    { spans :=
        [⟨if isSelectedTarget then ">" else " ", targetStyle⟩,
          ⟨s!"{symbol} ", targetStyle⟩,
          ⟨App.safeText target.key.target, targetStyle⟩,
          ⟨s!"  {shortSession target.key.session}", { fg := some .darkGray }⟩,
          ⟨match target.updateMode with
            | .events => " evt"
            | .polling => if target.eventError.isSome then " poll!" else " poll",
            { fg := some .darkGray }⟩]
      style := { reversed := isSelectedTarget } }
  let targetPane := (if target.connection = .live then target.snapshot else none).bind fun snapshot =>
    snapshot.focusedPane.or snapshot.panes.keys.head?
  let row : SidebarRow := ⟨line, targetPane, some (.session target.key),
    isSelectedTarget && selectedWorkspace.isNone⟩
  match target.eventError with
  | some error =>
      if isSelectedTarget then
        let text : Span := ⟨s!"  event: {App.safeText error}", {}⟩
        [row, ⟨{ spans := [text], style := { fg := some .red } }, none, none, false⟩]
      else [row]
  | none => [row]

def targetRows (selectedTarget : Option TargetSession) (selectedWorkspace : Option WorkspaceId) :
    List TargetRuntimeState → ℕ → List SidebarRow
  | [], _ => []
  | target :: rest, workspaceIndex =>
      sessionRows selectedTarget selectedWorkspace target ++
        match target.snapshot with
        | none => targetRows selectedTarget selectedWorkspace rest workspaceIndex
        | some snapshot =>
            workspaceRows selectedWorkspace target snapshot snapshot.workspaces.values workspaceIndex ++
              targetRows selectedTarget selectedWorkspace rest
                (workspaceIndex + snapshot.workspaces.values.length)

def sidebarSessionRows (state : FederationState) (selected : Option PaneId) : List SidebarRow :=
  targetRows (selected.map QualifiedId.targetSession) (selectedWorkspace state selected)
    state.targets.values 1

/-! ### What the numbers stand beside -/

/-- A workspace with the target and the snapshot it is listed under. -/
structure Numbered where
  target : TargetRuntimeState
  snapshot : NormalizedSnapshot
  workspace : WorkspaceState
deriving DecidableEq

namespace Numbered

def isLive (self : Numbered) : Bool := self.target.connection = .live

def pane (self : Numbered) : Option PaneId := paneForWorkspace self.snapshot self.workspace.id

/-- The workspace is found by its own identifier. -/
def Filed (self : Numbered) : Prop := self.snapshot.workspaces[self.workspace.id]? = some self.workspace

instance (self : Numbered) : Decidable self.Filed := inferInstanceAs (Decidable (_ = _))

end Numbered

/-- The workspaces of a target's last snapshot. -/
def workspacesOf (target : TargetRuntimeState) : List Numbered :=
  match target.snapshot with
  | none => []
  | some snapshot => snapshot.workspaces.values.map (⟨target, snapshot, ·⟩)

/-- The workspaces in the order of the sidebar. -/
def numbered (state : FederationState) : List Numbered := state.targets.values.flatMap workspacesOf

/-- Those that a digit counts. -/
def counted (state : FederationState) : List Numbered := (numbered state).filter (·.isLive)

/-- The workspaces that rows are of, with what stands before them and where a click leads. -/
def shownWorkspaces (rows : List SidebarRow) : List (WorkspaceId × Option String × Option PaneId) :=
  rows.filterMap fun row =>
    match row.context with
    | some (.workspace workspace) => some (workspace, (row.line.spans[1]?).map (·.content), row.pane)
    | _ => none

/-- The row of a workspace with its number. -/
def Numbered.shown (self : Numbered) (workspaceIndex : ℕ) : WorkspaceId × Option String × Option PaneId :=
  (self.workspace.id, some (numberLabel workspaceIndex), if self.isLive then self.pane else none)

theorem shownWorkspaces_append (rows others : List SidebarRow) :
    shownWorkspaces (rows ++ others) = shownWorkspaces rows ++ shownWorkspaces others :=
  List.filterMap_append

theorem shownWorkspaces_sessionRows (selectedTarget : Option TargetSession)
    (selectedWorkspace : Option WorkspaceId) (target : TargetRuntimeState) :
    shownWorkspaces (sessionRows selectedTarget selectedWorkspace target) = [] := by
  simp only [sessionRows]
  cases target.eventError with
  | none => rfl
  | some error =>
    simp only
    split <;> rfl

theorem shownWorkspaces_workspaceRows (selectedWorkspace : Option WorkspaceId)
    (target : TargetRuntimeState) (snapshot : NormalizedSnapshot) (workspaces : List WorkspaceState)
    (workspaceIndex : ℕ) :
    shownWorkspaces (workspaceRows selectedWorkspace target snapshot workspaces workspaceIndex) =
      (workspaces.map (⟨target, snapshot, ·⟩)).mapIdx fun i entry =>
        Numbered.shown entry (i + workspaceIndex) := by
  induction workspaces generalizing workspaceIndex with
  | nil => rfl
  | cons workspace rest ih =>
    rw [workspaceRows, List.map_cons, List.mapIdx_cons, Nat.zero_add]
    have hrow : shownWorkspaces [workspaceRow selectedWorkspace target snapshot workspace workspaceIndex] =
        [Numbered.shown ⟨target, snapshot, workspace⟩ workspaceIndex] := by
      simp [shownWorkspaces, workspaceRow, Numbered.shown, Numbered.isLive, Numbered.pane]
    rw [← List.singleton_append, shownWorkspaces_append, hrow, ih, List.singleton_append]
    simp only [Nat.add_assoc, Nat.add_comm 1]

theorem shownWorkspaces_targetRows (selectedTarget : Option TargetSession)
    (selectedWorkspace : Option WorkspaceId) (targets : List TargetRuntimeState) (workspaceIndex : ℕ) :
    shownWorkspaces (targetRows selectedTarget selectedWorkspace targets workspaceIndex) =
      (targets.flatMap workspacesOf).mapIdx fun i entry => entry.shown (i + workspaceIndex) := by
  induction targets generalizing workspaceIndex with
  | nil => rfl
  | cons target rest ih =>
    rw [targetRows, shownWorkspaces_append, shownWorkspaces_sessionRows, List.nil_append,
      List.flatMap_cons, List.mapIdx_append, workspacesOf]
    cases target.snapshot with
    | none => simp only [List.mapIdx_nil, List.nil_append, List.length_nil, Nat.add_zero, ih]
    | some snapshot =>
      simp only [shownWorkspaces_append, shownWorkspaces_workspaceRows, ih, List.length_map]
      simp only [Nat.add_assoc, Nat.add_comm snapshot.workspaces.values.length]

/-- **The rows of workspaces**, in their order and with their numbers. -/
theorem shownWorkspaces_sidebarSessionRows (state : FederationState) (selected : Option PaneId) :
    shownWorkspaces (sidebarSessionRows state selected) =
      (numbered state).mapIdx fun index entry => entry.shown (index + 1) :=
  shownWorkspaces_targetRows _ _ _ 1

/-! ### What a digit chooses -/

/-- The pane that a workspace leads to by what it says of itself. -/
def Numbered.reached (self : Numbered) : Option PaneId := do
  let tab ← self.workspace.activeTab.or
    ((self.snapshot.tabs.values.find? fun tab => tab.workspace = some self.workspace.id).map (·.id))
  paneForTab self.snapshot tab

theorem Numbered.Filed.reached_eq {self : Numbered} (h : self.Filed) : self.reached = self.pane := by
  rw [Numbered.reached, Numbered.pane, paneForWorkspace, h, Option.bind_some]

theorem selectTab_eq (snapshot : NormalizedSnapshot) (tab : TabId) :
    selectTab snapshot tab = (paneForTab snapshot tab).elim .nowhere .selected := by
  rw [selectTab, ← paneForTab]
  cases paneForTab snapshot tab <;> rfl

/-- The workspaces that a digit counts, as they are collected. -/
theorem map_counted (state : FederationState) :
    (((state.targets.values.filter fun target => target.connection = .live).filterMap
      (·.snapshot)).flatMap fun snapshot => snapshot.workspaces.values.map (snapshot, ·)) =
      (counted state).map fun entry => (entry.snapshot, entry.workspace) := by
  rw [counted, numbered]
  induction state.targets.values with
  | nil => rfl
  | cons target rest ih =>
    rw [List.flatMap_cons, List.filter_append, List.map_append, ← ih]
    by_cases hlive : target.connection = .live
    · have hkept : (workspacesOf target).filter (·.isLive) = workspacesOf target := by
        rw [List.filter_eq_self]
        intro entry hentry
        rw [workspacesOf] at hentry
        split at hentry
        · cases hentry
        · obtain ⟨workspace, -, rfl⟩ := List.mem_map.mp hentry
          exact decide_eq_true hlive
      rw [hkept, workspacesOf]
      cases hsnapshot : target.snapshot with
      | none => simp [hlive, hsnapshot]
      | some snapshot => simp [hlive, hsnapshot]
    · have hdropped : (workspacesOf target).filter (·.isLive) = [] := by
        rw [List.filter_eq_nil_iff]
        intro entry hentry
        rw [workspacesOf] at hentry
        split at hentry
        · cases hentry
        · obtain ⟨workspace, -, rfl⟩ := List.mem_map.mp hentry
          simpa [Numbered.isLive] using hlive
      simp [hlive, hdropped]

variable {state : FederationState} {index : ℕ}

/-- **What a digit selects**: the pane that the workspace at its place among the live ones leads to. -/
theorem selectWorkspace_eq_selected_iff {pane : PaneId} :
    selectWorkspace state index = .selected pane ↔
      ∃ entry, (counted state)[index]? = some entry ∧ entry.reached = some pane := by
  simp only [selectWorkspace, map_counted, List.getElem?_map]
  cases (counted state)[index]? with
  | none => simp
  | some entry =>
    simp only [Option.map_some, Option.some.injEq, exists_eq_left', Numbered.reached]
    split
    · next tab htab =>
      rw [htab, selectTab_eq]
      simp only [Option.bind_eq_bind, Option.bind_some]
      cases paneForTab entry.snapshot tab <;> simp
    · next htab => simp [htab]

/-- What stands at a place among the chosen ones stands behind as many of them in the whole list. -/
theorem getElem?_filter_eq_some_iff {α : Type*} {p : α → Bool} {l : List α} {a : α} :
    (l.filter p)[index]? = some a ↔
      ∃ place, l[place]? = some a ∧ p a ∧ ((l.take place).filter p).length = index := by
  induction l generalizing index with
  | nil => simp
  | cons b l ih =>
    by_cases hb : p b
    · rw [List.filter_cons_of_pos hb]
      cases index with
      | zero =>
        constructor
        · intro h
          obtain rfl : b = a := by simpa using h
          exact ⟨0, rfl, hb, rfl⟩
        · rintro ⟨place | place, hplace, -, hcount⟩
          · simpa using hplace
          · simp [hb] at hcount
      | succ index =>
        rw [List.getElem?_cons_succ, ih]
        constructor
        · rintro ⟨place, hplace, ha, hcount⟩
          exact ⟨place + 1, by simpa using hplace, ha, by simp [hb, hcount]⟩
        · rintro ⟨place | place, hplace, ha, hcount⟩
          · simp at hcount
          · exact ⟨place, by simpa using hplace, ha, by simpa [hb] using hcount⟩
    · rw [List.filter_cons_of_neg hb, ih]
      constructor
      · rintro ⟨place, hplace, ha, hcount⟩
        exact ⟨place + 1, by simpa using hplace, ha, by simp [hb, hcount]⟩
      · rintro ⟨place | place, hplace, ha, hcount⟩
        · obtain rfl : b = a := by simpa using hplace
          exact absurd ha hb
        · exact ⟨place, by simpa using hplace, ha, by simpa [hb] using hcount⟩

/-- A number chooses what it stands beside: a digit selects the pane of a live workspace, and no pane
of another. -/
structure Chooses (state : FederationState) (index : ℕ) (shown : Numbered) : Prop where
  live : shown.isLive → ∀ pane, shown.pane = some pane → selectWorkspace state index = .selected pane
  only : ∀ pane, selectWorkspace state index = .selected pane → shown.pane = some pane

/-- The workspace is counted like it is numbered: it is live, and all before it are. -/
structure Unmoved (state : FederationState) (index : ℕ) (shown : Numbered) : Prop where
  live : shown.isLive
  earlier : ∀ entry ∈ (numbered state).take index, entry.isLive
  filed : shown.Filed

/-- The workspace is not live, and so few are that none is counted at its place. -/
structure Unreached (state : FederationState) (index : ℕ) (shown : Numbered) : Prop where
  lost : ¬shown.isLive
  few : (counted state).length ≤ index

/-- Every workspace is filed under its own identifier and leads to a pane, and no two to one. -/
structure Apart (state : FederationState) : Prop where
  filed : ∀ entry ∈ numbered state, entry.Filed
  leads : ∀ entry ∈ numbered state, entry.pane.isSome
  nodup : ((numbered state).map Numbered.pane).Nodup

variable {shown : Numbered}

theorem Unmoved.chooses
    (h : Unmoved state index shown) (hshown : (numbered state)[index]? = some shown) :
    Chooses state index shown := by
  have hlive : (((numbered state).take index).filter (·.isLive)).length = index := by
    obtain ⟨hlt, -⟩ := List.getElem?_eq_some_iff.mp hshown
    rw [List.filter_eq_self.mpr h.earlier, List.length_take_of_le hlt.le]
  have hcounted : (counted state)[index]? = some shown :=
    getElem?_filter_eq_some_iff.mpr ⟨index, hshown, h.live, hlive⟩
  refine ⟨fun _ pane hpane => ?_, fun pane hselected => ?_⟩
  · exact selectWorkspace_eq_selected_iff.mpr ⟨shown, hcounted, h.filed.reached_eq.trans hpane⟩
  · obtain ⟨other, hother, hreached⟩ := selectWorkspace_eq_selected_iff.mp hselected
    rw [hcounted] at hother
    obtain rfl := Option.some.inj hother
    exact h.filed.reached_eq.symm.trans hreached

theorem Unreached.chooses (h : Unreached state index shown) : Chooses state index shown := by
  refine ⟨fun hlive => absurd hlive h.lost, fun pane hselected => ?_⟩
  obtain ⟨other, hother, -⟩ := selectWorkspace_eq_selected_iff.mp hselected
  rw [List.getElem?_eq_none_iff.mpr h.few] at hother
  cases hother

/-- Where panes tell workspaces apart, only the workspace itself may be counted at its number. -/
theorem Apart.unmoved_or_unreached (h : Apart state) (hshown : (numbered state)[index]? = some shown)
    (hchooses : Chooses state index shown) :
    Unmoved state index shown ∨ Unreached state index shown := by
  cases hplace : (counted state)[index]? with
  | none =>
    refine .inr ⟨fun hlive => ?_, List.getElem?_eq_none_iff.mp hplace⟩
    obtain ⟨pane, hpane⟩ := Option.isSome_iff_exists.mp (h.leads shown (List.mem_of_getElem? hshown))
    obtain ⟨other, hother, -⟩ := selectWorkspace_eq_selected_iff.mp (hchooses.live hlive pane hpane)
    rw [hplace] at hother
    cases hother
  | some other =>
    obtain ⟨place, hother, hlive, hcount⟩ := getElem?_filter_eq_some_iff.mp hplace
    have hmem := List.mem_of_getElem? hother
    obtain ⟨pane, hpane⟩ := Option.isSome_iff_exists.mp (h.leads other hmem)
    have hsame := hchooses.only pane (selectWorkspace_eq_selected_iff.mpr
      ⟨other, hplace, (h.filed other hmem).reached_eq.trans hpane⟩)
    -- both lead to one pane, so both stand at one place
    have hlt : place < ((numbered state).map Numbered.pane).length := by
      rw [List.length_map]
      exact (List.getElem?_eq_some_iff.mp hother).1
    obtain rfl : place = index := by
      refine (List.getElem?_inj hlt h.nodup).mp ?_
      rw [List.getElem?_map, List.getElem?_map, hother, hshown, Option.map_some, Option.map_some,
        hpane, hsame]
    rw [hother] at hshown
    obtain rfl := Option.some.inj hshown
    have hall : (((numbered state).take place).filter (·.isLive)).length =
        ((numbered state).take place).length := by
      rw [hcount, List.length_take_of_le (List.getElem?_eq_some_iff.mp hother).1.le]
    exact .inl ⟨hlive, List.length_filter_eq_length_iff.mp hall, h.filed other hmem⟩

/-- **The number shown is the workspace chosen** if the target is live and so is every target that has
workspaces before it, or if nothing is chosen by the number and the target is not live. Where the
workspaces lead to panes of their own, it is exactly then. -/
theorem shown_number_is_chosen_iff {state : FederationState} (selected : Option PaneId) {index : ℕ}
    {shown : Numbered} (hshown : (numbered state)[index]? = some shown) :
    (shownWorkspaces (sidebarSessionRows state selected))[index]? = some (shown.shown (index + 1)) ∧
      (Unmoved state index shown ∨ Unreached state index shown → Chooses state index shown) ∧
      (Apart state → Chooses state index shown →
        Unmoved state index shown ∨ Unreached state index shown) := by
  refine ⟨?_, ?_, fun hapart hchooses => hapart.unmoved_or_unreached hshown hchooses⟩
  · rw [shownWorkspaces_sidebarSessionRows, List.getElem?_mapIdx, hshown, Option.map_some]
  · rintro (hunmoved | hunreached)
    · exact hunmoved.chooses hshown
    · exact hunreached.chooses

/-- A session with one workspace, of which the tab and the pane are laid out. -/
def oneWorkspace (target : String) (connection : TargetConnectionState) : TargetRuntimeState :=
  let workspace : WorkspaceId := ⟨target, "main", "work"⟩
  let tab : TabId := ⟨target, "main", "tab"⟩
  let pane : PaneId := ⟨target, "main", "pane"⟩
  let live := App.liveTarget ⟨target, "main"⟩ 1 none [pane]
  { live with
    connection := connection
    snapshot := live.snapshot.map fun snapshot =>
      { snapshot with
        workspaces := (∅ : ExtTreeMap WorkspaceId WorkspaceState).insert workspace
          ⟨workspace, some tab, none, none, false, none⟩
        layouts := (∅ : ExtTreeMap TabId LayoutState).insert tab
          ⟨workspace, tab, false, ⟨0, 0, 80, 24⟩, pane, []⟩ } }

/-- Two such sessions, the first with this connection. -/
def twoWorkspaces (connection : TargetConnectionState) : FederationState :=
  ⟨0, ((∅ : ExtTreeMap TargetSession TargetRuntimeState).insert ⟨"box", "main"⟩
    (oneWorkspace "box" connection)).insert ⟨"hut", "main"⟩ (oneWorkspace "hut" .live)⟩

/-- Where both are live, the second number chooses the second workspace, as it must. -/
theorem second_number_chooses :
    ∃ shown, (numbered (twoWorkspaces .live))[1]? = some shown ∧ Chooses (twoWorkspaces .live) 1 shown ∧
      (Unmoved (twoWorkspaces .live) 1 shown ∨ Unreached (twoWorkspaces .live) 1 shown) := by
  have hsome : ((numbered (twoWorkspaces .live))[1]?).any (·.isLive) = true := by decide +kernel
  obtain ⟨shown, hshown, hlive⟩ := (Option.any_eq_true _ _).mp hsome
  have hapart : Apart (twoWorkspaces .live) :=
    ⟨by decide +kernel, by decide +kernel, by decide +kernel⟩
  have hunmoved : Unmoved (twoWorkspaces .live) 1 shown :=
    ⟨hlive, by decide +kernel, hapart.filed shown (List.mem_of_getElem? hshown)⟩
  have hchosen := shown_number_is_chosen_iff none hshown
  exact ⟨shown, hshown, hchosen.2.1 (.inl hunmoved), hchosen.2.2 hapart (hchosen.2.1 (.inl hunmoved))⟩

/-- The first target has lost its connection, and the number of the second one's workspace chooses
nothing. -/
theorem number_of_live_workspace_chooses_nothing :
    ¬∀ (state : FederationState) (index : ℕ) (shown : Numbered), index < 9 →
      (numbered state)[index]? = some shown → Chooses state index shown := by
  intro h
  have hsome : ((numbered (twoWorkspaces (.backoff 1)))[1]?).any (fun entry =>
      entry.isLive && entry.pane = some ⟨"hut", "main", "pane"⟩) = true := by
    decide +kernel
  obtain ⟨shown, hshown, hentry⟩ := (Option.any_eq_true _ _).mp hsome
  rw [Bool.and_eq_true, decide_eq_true_eq] at hentry
  have hselected := (h _ 1 shown (by decide) hshown).live hentry.1 _ hentry.2
  have htold : selectWorkspace (twoWorkspaces (.backoff 1)) 1 = .told "workspace 2 is not available" := by
    decide +kernel
  rw [htold] at hselected
  cases hselected

end Tui

end SuperHerdr
