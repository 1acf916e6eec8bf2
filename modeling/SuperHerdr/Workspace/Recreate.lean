import SuperHerdr.Workspace.Move

/-!
# Recreating a workspace elsewhere

A workspace cannot be moved to another session, but it can be recreated there with fresh shells.
What crosses the boundary is its structure: how the tabs are split, the ratios, the labels and the
working directories. That is a `Sketch`, and a sketch is all that a recreatable layout is made of
(`recreatableLayouts_eq_ok_iff`), so that two workspaces with the same sketches cannot be told apart
by what is sent (`recreation_carries_structure_alone`).
-/

namespace SuperHerdr

namespace Workspace

open JsonData Dialogue

/-- How many panes one recreation may start. -/
def MAX_RECREATED_PANES : ℕ := 64

/-- One destination tab. -/
structure RecreatableTab where
  label : Option String
  root : Value

structure WorkspaceRecreateSummary where
  workspace : String
  tabs : ℕ
  panes : ℕ
deriving DecidableEq

/-- The member of a name, if there is a text for it. -/
def insertText (name : String) (text : Option String) (members : List (String × Value)) :
    List (String × Value) :=
  match text with
  | some text => Value.insert name (.string text) members
  | none => members

/-- Reduce an exported tree, which may have so many levels at most, to what may be recreated on
another server, with the number of its panes. -/
def recreatableLayout : ℕ → Value → Except String (Value × ℕ)
  | 0, _ => .error "exported layout is nested too deeply"
  | levels + 1, node =>
      if kind node = some "pane" then
        let pane := Value.insert "type" (.string "pane") []
        let pane := insertText "cwd" ((text node "cwd").filter (· ≠ "")) pane
        let pane := insertText "label" ((text node "label").filter (· ≠ "")) pane
        .ok (.object pane, 1)
      else if kind node = some "split" then do
        let direction ← okOr "exported layout split has an unsupported direction" (direction node)
        let first ← okOr "exported layout split has no first child" (node.get "first")
        let second ← okOr "exported layout split has no second child" (node.get "second")
        let (first, firstPanes) ← recreatableLayout levels first
        let (second, secondPanes) ← recreatableLayout levels second
        return (.ofMembers
          [("type", .string "split"), ("direction", .string direction.cliValue),
            ("ratio", .number (.float ((ratio node).getD .HALF))), ("first", first),
            ("second", second)], saturatingAdd64 firstPanes secondPanes)
      else .error "exported layout contained an unsupported node"

/-- The tabs one after another, with what there is of those before. -/
def recreatableTabs : List ExportedTab → List RecreatableTab → ℕ →
    Except String (List RecreatableTab × ℕ)
  | [], layouts, panes => .ok (layouts, panes)
  | tab :: tabs, layouts, panes => do
      let (root, tabPanes) ← recreatableLayout (MAX_LAYOUT_DEPTH + 1) tab.root
      let panes := saturatingAdd64 panes tabPanes
      if panes > MAX_RECREATED_PANES then
        .error s!"recreating this workspace would start more than {MAX_RECREATED_PANES} panes"
      else recreatableTabs tabs (layouts ++ [⟨tab.label, root⟩]) panes

/-- Reduce every exported tab to a recreatable layout. -/
def recreatableLayouts (exported : List ExportedTab) : Except String (List RecreatableTab × ℕ) :=
  recreatableTabs exported [] 0

/-- Apply the layouts to a workspace that was created. The first goes to the tab it has already. -/
def applyLayouts (workspace : String) (firstTab : Option String) (total : ℕ) :
    ℕ → List RecreatableTab → Api ℕ
  | tabs, [] => pure tabs
  | tabs, tab :: layouts => do
      let params : Value := match firstTab, tabs with
        | some tabId, 0 => .ofMembers
            [("tab_id", .string tabId), ("tab_label", .ofOption tab.label), ("root", tab.root),
              ("focus", .bool false)]
        | _, _ => .ofMembers
            [("workspace_id", .string workspace), ("tab_label", .ofOption tab.label),
              ("root", tab.root), ("focus", .bool false)]
      let _ ← .ask (.request .destination "layout.apply" params) fun answer =>
        .done (answer.mapError fun error =>
          s!"{error}; workspace {workspace} on the destination holds {tabs} of {total} " ++
            "recreated tab(s)")
      applyLayouts workspace firstTab total (saturatingAdd64 tabs 1) layouts

/-- What is done with the tabs that were exported. -/
def recreateExported (label : Option String) (exported : List ExportedTab) :
    Api WorkspaceRecreateSummary := do
  let (layouts, panes) ← .done (recreatableLayouts exported)
  let _ ← openSession .destination
  let created ← request .destination "workspace.create"
    (.ofMembers [("label", .ofOption label), ("focus", .bool false)])
  let workspace ← require "Herdr did not report the created destination workspace"
    ((created.get "workspace").bind fun workspace => text workspace "workspace_id")
  let firstTab := (created.get "tab").bind fun tab => text tab "tab_id"
  let tabs ← applyLayouts workspace firstTab layouts.length 0 layouts
  return ⟨workspace, tabs, panes⟩

/-- What is asked of the source. -/
def exportSource (sourceWorkspace : String) : Api (List ExportedTab) := do
  let _ ← openSession .source
  exportWorkspaceTabs .source sourceWorkspace

/-- Recreate a workspace on another session. -/
def recreateWorkspace (sourceWorkspace : String) (label : Option String) :
    Api WorkspaceRecreateSummary :=
  exportSource sourceWorkspace >>= recreateExported label

/-! ### What is carried over -/

structure NonemptyText where
  text : String
  nonempty : text ≠ ""
deriving DecidableEq

/-- A field that holds a text that is not empty. -/
def shown (node : Value) (name : String) : Option NonemptyText :=
  (text node name).bind fun text => if h : text ≠ "" then some ⟨text, h⟩ else none

theorem filter_text (node : Value) (name : String) :
    (text node name).filter (· ≠ "") = (shown node name).map NonemptyText.text := by
  rw [shown]
  cases text node name with
  | none => rfl
  | some text =>
    by_cases h : text = ""
    · simp [h]
    · simp [h, Option.filter]

/-- The structure of a tab. -/
inductive Sketch
  | pane (cwd label : Option NonemptyText)
  | split (direction : SplitDirection) (ratio : Double) (first second : Sketch)
deriving DecidableEq

namespace Sketch

/-- The sketch is what there is to carry over of a node. A ratio that is missing is a half. -/
def Sketches : Sketch → Value → Prop
  | pane cwd label, node =>
      kind node = some "pane" ∧ shown node "cwd" = cwd ∧ shown node "label" = label
  | split way share first second, node =>
      kind node = some "split" ∧ direction node = some way ∧ (ratio node).getD .HALF = share ∧
        ∃ left right, node.get "first" = some left ∧ node.get "second" = some right ∧
          first.Sketches left ∧ second.Sketches right

def height : Sketch → ℕ
  | pane _ _ => 0
  | split _ _ first second => max first.height second.height + 1

/-- How many panes there are. -/
def leaves : Sketch → ℕ
  | pane _ _ => 1
  | split _ _ first second => first.leaves + second.leaves

/-- The layout that has the structure and nothing else. -/
def value : Sketch → Value
  | pane cwd label =>
      .object (insertText "label" (label.map NonemptyText.text)
        (insertText "cwd" (cwd.map NonemptyText.text) (Value.insert "type" (.string "pane") [])))
  | split direction ratio first second =>
      .ofMembers
        [("type", .string "split"), ("direction", .string direction.cliValue),
          ("ratio", .number (.float ratio)), ("first", first.value), ("second", second.value)]

theorem sketches_value (sketch : Sketch) : sketch.Sketches sketch.value := by
  induction sketch with
  | pane cwd label =>
    rcases cwd with _ | ⟨cwd, hcwd⟩ <;> rcases label with _ | ⟨label, hlabel⟩
    all_goals
      simp_all [Sketches, value, insertText, kind, shown, text, Value.get_object_insert,
        Value.asStr]
  | split way share first second ihfirst ihsecond =>
    refine ⟨?_, ?_, ?_, first.value, second.value, ?_, ?_, ihfirst, ihsecond⟩
    all_goals
      simp [kind, direction, ratio, text, value, Value.ofMembers, Value.get_object_insert,
        Value.asStr, Value.asF64, Number.asF64]

/-- A node with a sketch is reduced to it. Counting stops at the greatest number of 64 bits. -/
theorem recreatableLayout_eq {sketch : Sketch} {node : Value} (h : sketch.Sketches node)
    {levels : ℕ} (hlevels : sketch.height < levels) :
    recreatableLayout levels node = .ok (sketch.value, min sketch.leaves (2 ^ 64 - 1)) := by
  induction sketch generalizing node levels with
  | pane cwd label =>
    obtain ⟨levels, rfl⟩ := Nat.exists_eq_add_one_of_ne_zero (Nat.ne_zero_of_lt hlevels)
    obtain ⟨hkind, rfl, rfl⟩ := h
    rw [recreatableLayout, if_pos hkind, filter_text, filter_text]
    rfl
  | split way share first second ihfirst ihsecond =>
    obtain ⟨levels, rfl⟩ := Nat.exists_eq_add_one_of_ne_zero (Nat.ne_zero_of_lt hlevels)
    obtain ⟨hkind, hway, hshare, left, right, hleft, hright, hfirst, hsecond⟩ := h
    rw [height] at hlevels
    have hleaves : saturatingAdd64 (min first.leaves (2 ^ 64 - 1)) (min second.leaves (2 ^ 64 - 1)) =
        min (first.leaves + second.leaves) (2 ^ 64 - 1) := by
      rw [saturatingAdd64]
      omega
    rw [recreatableLayout, hkind, if_neg (by decide), if_pos rfl, hleft, hright, hway, hshare]
    simp only [okOr, bind, Except.bind, ihfirst hfirst (show first.height < levels by omega),
      ihsecond hsecond (show second.height < levels by omega), hleaves]
    rfl

end Sketch

/-- What is reduced has a sketch. -/
theorem sketches_of_recreatableLayout {levels : ℕ} {node : Value} {reduced : Value × ℕ}
    (h : recreatableLayout levels node = .ok reduced) :
    ∃ sketch : Sketch, sketch.Sketches node ∧ sketch.height < levels := by
  induction levels generalizing node reduced with
  | zero => cases h
  | succ levels ih =>
    rw [recreatableLayout] at h
    by_cases hpane : kind node = some "pane"
    · exact ⟨.pane _ _, ⟨hpane, rfl, rfl⟩, Nat.succ_pos _⟩
    · by_cases hsplit : kind node = some "split"
      · simp only [if_neg hpane, if_pos hsplit, bind_eq_ok_iff, okOr_eq_ok_iff] at h
        obtain ⟨way, hway, left, hleft, right, hright, first, hfirst, second, hsecond, -⟩ := h
        obtain ⟨firstSketch, hfirstSketch, hfirstHeight⟩ := ih hfirst
        obtain ⟨secondSketch, hsecondSketch, hsecondHeight⟩ := ih hsecond
        refine ⟨.split way _ firstSketch secondSketch,
          ⟨hsplit, hway, rfl, left, right, hleft, hright, hfirstSketch, hsecondSketch⟩, ?_⟩
        rw [Sketch.height]
        omega
      · rw [if_neg hpane, if_neg hsplit] at h
        cases h

/-- The tab that a sketch becomes. -/
def recreatable (tab : ExportedTab) (sketch : Sketch) : RecreatableTab := ⟨tab.label, sketch.value⟩

/-- The sketch of a tab that is not too deep. -/
def SketchOf (sketch : Sketch) (tab : ExportedTab) : Prop :=
  sketch.Sketches tab.root ∧ sketch.height ≤ MAX_LAYOUT_DEPTH

theorem recreatableTabs_eq_ok_iff {tabs : List ExportedTab} {before layouts : List RecreatableTab}
    {count panes : ℕ} (hcount : count ≤ MAX_RECREATED_PANES) :
    recreatableTabs tabs before count = .ok (layouts, panes) ↔
      ∃ sketches, List.Forall₂ SketchOf sketches tabs ∧
        layouts = before ++ List.zipWith recreatable tabs sketches ∧
        panes = count + (sketches.map Sketch.leaves).sum ∧ panes ≤ MAX_RECREATED_PANES := by
  induction tabs generalizing before count layouts panes with
  | nil =>
    rw [recreatableTabs]
    constructor
    · intro h
      cases h
      exact ⟨[], .nil, (List.append_nil _).symm, rfl, hcount⟩
    · rintro ⟨sketches, hsketches, rfl, rfl, -⟩
      cases hsketches
      simp
  | cons tab tabs ih =>
    rw [recreatableTabs]
    constructor
    · intro h
      obtain ⟨⟨root, tabPanes⟩, hroot, hrest⟩ := bind_eq_ok_iff.mp h
      obtain ⟨sketch, hsketch, hheight⟩ := sketches_of_recreatableLayout hroot
      rw [Sketch.recreatableLayout_eq hsketch hheight] at hroot
      cases hroot
      simp only at hrest
      split at hrest
      · cases hrest
      · next hbound =>
        -- below the bound nothing is saturated
        have hsum :
            saturatingAdd64 count (min sketch.leaves (2 ^ 64 - 1)) = count + sketch.leaves := by
          rw [saturatingAdd64, MAX_RECREATED_PANES] at hbound
          rw [saturatingAdd64]
          omega
        rw [ih (Nat.not_lt.mp hbound), hsum] at hrest
        obtain ⟨sketches, hsketches, rfl, rfl, hpanes⟩ := hrest
        refine ⟨sketch :: sketches, .cons ⟨hsketch, Nat.lt_succ_iff.mp hheight⟩ hsketches, ?_, ?_,
          hpanes⟩
        · rw [List.zipWith_cons_cons, List.append_assoc]
          rfl
        · rw [List.map_cons, List.sum_cons, Nat.add_assoc]
    · rintro ⟨sketches, hsketches, rfl, rfl, hpanes⟩
      obtain ⟨sketch, rest, ⟨hsketch, hheight⟩, hrest, rfl⟩ :=
        List.forall₂_cons_right_iff.mp hsketches
      rw [List.map_cons, List.sum_cons, ← Nat.add_assoc] at hpanes ⊢
      have hsum : saturatingAdd64 count (min sketch.leaves (2 ^ 64 - 1)) = count + sketch.leaves := by
        rw [MAX_RECREATED_PANES] at hpanes
        rw [saturatingAdd64]
        omega
      have hbound : ¬count + sketch.leaves > MAX_RECREATED_PANES := by omega
      rw [Sketch.recreatableLayout_eq hsketch (Nat.lt_succ_iff.mpr hheight)]
      simp only [bind, Except.bind, hsum, if_neg hbound]
      rw [ih (Nat.not_lt.mp hbound)]
      refine ⟨rest, hrest, ?_, rfl, hpanes⟩
      rw [List.zipWith_cons_cons, List.append_assoc]
      rfl

/-- **Which tabs are recreated, and as what.** -/
theorem recreatableLayouts_eq_ok_iff {tabs : List ExportedTab} {layouts : List RecreatableTab}
    {panes : ℕ} :
    recreatableLayouts tabs = .ok (layouts, panes) ↔
      ∃ sketches, List.Forall₂ SketchOf sketches tabs ∧
        layouts = List.zipWith recreatable tabs sketches ∧
        panes = (sketches.map Sketch.leaves).sum ∧ panes ≤ MAX_RECREATED_PANES := by
  rw [recreatableLayouts, recreatableTabs_eq_ok_iff (Nat.zero_le _)]
  simp

/-! ### What is not carried over -/

/-- Two nodes that differ at most in what no pane and no split is recreated with. -/
inductive Alike : Option Value → Option Value → Prop
  | missing : Alike none none
  | pane {a b : Value} (ha : kind a = some "pane") (hb : kind b = some "pane")
      (hcwd : shown a "cwd" = shown b "cwd") (hlabel : shown a "label" = shown b "label") :
      Alike (some a) (some b)
  | split {a b : Value} (ha : kind a = some "split") (hb : kind b = some "split")
      (hdirection : direction a = direction b) (hratio : ratio a = ratio b)
      (hfirst : Alike (a.get "first") (b.get "first"))
      (hsecond : Alike (a.get "second") (b.get "second")) : Alike (some a) (some b)
  | unsupported {a b : Value} (ha : kind a ≠ some "pane" ∧ kind a ≠ some "split")
      (hb : kind b ≠ some "pane" ∧ kind b ≠ some "split") : Alike (some a) (some b)

/-- Two tabs of one label whose nodes are alike. -/
def AlikeTabs (tab other : ExportedTab) : Prop :=
  tab.label = other.label ∧ Alike (some tab.root) (some other.root)

theorem Alike.cases {left right : Option Value} (h : Alike left right) :
    (left = none ∧ right = none) ∨
      ∃ a b, left = some a ∧ right = some b ∧ Alike (some a) (some b) := by
  cases left with
  | none =>
    cases h
    exact .inl ⟨rfl, rfl⟩
  | some a =>
    cases right with
    | none => cases h
    | some b => exact .inr ⟨a, b, rfl, rfl, h⟩

/-- What is alike is reduced to the same. -/
theorem Alike.recreatableLayout_eq {levels : ℕ} {a b : Value} (h : Alike (some a) (some b)) :
    recreatableLayout levels a = recreatableLayout levels b := by
  induction levels generalizing a b with
  | zero => rfl
  | succ levels ih =>
    rw [recreatableLayout, recreatableLayout]
    cases h with
    | pane ha hb hcwd hlabel =>
      rw [if_pos ha, if_pos hb, filter_text, filter_text, filter_text, filter_text, hcwd, hlabel]
    | split ha hb hdirection hratio hfirst hsecond =>
      have hkind : some "split" ≠ some "pane" := by decide
      rw [ha, hb, hdirection, hratio, if_neg hkind, if_pos rfl, if_neg hkind, if_pos rfl]
      rcases hfirst.cases with ⟨hleft, hleft'⟩ | ⟨left, left', hleft, hleft', halike⟩
      · rw [hleft, hleft']
        simp only [okOr, bind, Except.bind]
      · rcases hsecond.cases with ⟨hright, hright'⟩ | ⟨right, right', hright, hright', halike'⟩
        · rw [hleft, hleft', hright, hright']
          simp only [okOr, bind, Except.bind]
        · rw [hleft, hleft', hright, hright']
          simp only [okOr, bind, Except.bind, ih halike, ih halike']
    | unsupported ha hb => rw [if_neg ha.1, if_neg ha.2, if_neg hb.1, if_neg hb.2]

theorem recreatableTabs_eq_of_alike {tabs others : List ExportedTab}
    (h : List.Forall₂ AlikeTabs tabs others) (before : List RecreatableTab) (count : ℕ) :
    recreatableTabs tabs before count = recreatableTabs others before count := by
  induction h generalizing before count with
  | nil => rfl
  | cons htab _ ih =>
    rw [recreatableTabs, recreatableTabs, htab.1, htab.2.recreatableLayout_eq]
    simp only [ih]

/-- The tab as it would be exported. -/
def RecreatableTab.exported (tab : RecreatableTab) : ExportedTab := ⟨tab.label, tab.root⟩

theorem sketches_recreatable {tabs : List ExportedTab} {sketches : List Sketch}
    (h : List.Forall₂ SketchOf sketches tabs) :
    List.Forall₂ SketchOf sketches
        ((List.zipWith recreatable tabs sketches).map RecreatableTab.exported) ∧
      List.zipWith recreatable
        ((List.zipWith recreatable tabs sketches).map RecreatableTab.exported)
        sketches = List.zipWith recreatable tabs sketches := by
  induction h with
  | nil => exact ⟨.nil, rfl⟩
  | @cons sketch tab sketches tabs hsketch _ ih =>
    exact ⟨.cons ⟨sketch.sketches_value, hsketch.2⟩ ih.1,
      congrArg (recreatable tab sketch :: ·) ih.2⟩

/-! ### What is asked of the destination -/

def Question.side : Question → Side
  | .openSession side => side
  | .request side _ _ => side

/-- Only one side is asked. -/
def Only {α : Type} (side : Side) (talk : Api α) : Prop := talk.Asks (Question.side · = side)

theorem only_request (side : Side) (method : String) (params : Value) :
    Only side (request side method params) :=
  Talk.asks_request (Question.side · = side) rfl

theorem only_require {α : Type} (side : Side) (message : String) (value : Option α) :
    Only side (require message value) := Talk.asks_done _

theorem only_exportTabs (side : Side) (tabs : List Value) : Only side (exportTabs side tabs) := by
  induction tabs with
  | nil => exact Talk.asks_done _
  | cons tab tabs ih =>
    rw [exportTabs]
    refine (only_require side _ _).bind fun tabId => (only_request side _ _).bind fun layout => ?_
    exact (only_require side _ _).bind fun root => ih.bind fun exported => Talk.asks_done _

theorem only_exportSource (workspace : String) : Only .source (exportSource workspace) := by
  have hopen : Only .source (openSession .source) :=
    Talk.asks_request (Question.side · = .source) rfl
  refine hopen.bind fun _ => (only_request .source _ _).bind fun listed => ?_
  simp only
  split
  · exact Talk.asks_done _
  · exact only_exportTabs _ _

/-- **Recreation carries structure and nothing else.** The tabs that are recreated are those that
have sketches of few enough panes, and each is its sketch with its label. What was recreated is
recreated as it is. Tabs that are alike become the same, and the same is asked of the destination
for them. And the destination is asked nothing unless the tabs can be recreated. -/
theorem recreation_carries_structure_alone :
    (∀ tabs layouts panes, recreatableLayouts tabs = .ok (layouts, panes) ↔
      ∃ sketches, List.Forall₂ SketchOf sketches tabs ∧
        layouts = List.zipWith recreatable tabs sketches ∧
        panes = (sketches.map Sketch.leaves).sum ∧ panes ≤ MAX_RECREATED_PANES) ∧
    (∀ tabs layouts panes, recreatableLayouts tabs = .ok (layouts, panes) →
      recreatableLayouts (layouts.map RecreatableTab.exported) = .ok (layouts, panes)) ∧
    (∀ tabs others, List.Forall₂ AlikeTabs tabs others →
      recreatableLayouts tabs = recreatableLayouts others ∧
        ∀ label, recreateExported label tabs = recreateExported label others) ∧
    ∀ workspace label said result, Talk.Ends (recreateWorkspace workspace label) said result →
      ((∀ asked ∈ said, asked.1.side = .source) ∧ ∃ message, result = .error message) ∨
        ∃ asked rest tabs recreated, said = asked ++ rest ∧
          Talk.Ends (exportSource workspace) asked (.ok tabs) ∧
          recreatableLayouts tabs = .ok recreated := by
  refine ⟨fun tabs layouts panes => recreatableLayouts_eq_ok_iff, fun tabs layouts panes h => ?_,
    fun tabs others halike => ?_, fun workspace label said result h => ?_⟩
  · obtain ⟨sketches, hsketches, rfl, hpanes⟩ := recreatableLayouts_eq_ok_iff.mp h
    obtain ⟨hagain, hsame⟩ := sketches_recreatable hsketches
    exact recreatableLayouts_eq_ok_iff.mpr ⟨sketches, hagain, hsame.symm, hpanes⟩
  · have hsame : recreatableLayouts tabs = recreatableLayouts others :=
      recreatableTabs_eq_of_alike halike [] 0
    exact ⟨hsame, fun label => by rw [recreateExported, hsame]; rfl⟩
  · rw [recreateWorkspace] at h
    have hsource := only_exportSource workspace
    rcases Talk.ends_bind_iff.mp h with ⟨message, rfl, hfailed⟩ |
      ⟨asked, rest, tabs, rfl, hasked, hrest⟩
    · exact .inl ⟨hsource said _ hfailed, message, rfl⟩
    · cases hrecreated : recreatableLayouts tabs with
      | ok recreated => exact .inr ⟨asked, rest, tabs, recreated, rfl, hasked, hrecreated⟩
      | error message =>
        rw [recreateExported, hrecreated] at hrest
        obtain ⟨rfl, rfl⟩ := Talk.ends_done_iff.mp hrest
        rw [List.append_nil]
        exact .inl ⟨hsource asked _ hasked, message, rfl⟩

/-- A pane with a command and a secret, and one with the same label in the same directory. -/
def withCommand : Value :=
  .ofMembers
    [("type", .string "pane"), ("pane_id", .string "w1:p1"), ("cwd", .string "/src"),
      ("label", .string "editor"), ("command", .array [.string "cargo", .string "watch"]),
      ("env", .ofMembers [("TOKEN", .string "secret")])]

def withoutCommand : Value :=
  .ofMembers [("type", .string "pane"), ("cwd", .string "/src"), ("label", .string "editor")]

theorem a_command_is_left_behind :
    recreatableLayouts [⟨none, withCommand⟩] = recreatableLayouts [⟨none, withoutCommand⟩] ∧
      recreatableLayouts [⟨none, withoutCommand⟩] = .ok ([⟨none, withoutCommand⟩], 1) := by
  have halike : AlikeTabs ⟨none, withCommand⟩ ⟨none, withoutCommand⟩ :=
    ⟨rfl, .pane rfl rfl rfl rfl⟩
  exact ⟨(recreation_carries_structure_alone.2.2.1 _ _ (.cons halike .nil)).1, rfl⟩

end Workspace

end SuperHerdr
