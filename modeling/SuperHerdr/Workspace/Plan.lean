import Mathlib.Data.List.Nodup
import SuperHerdr.Library.Values
import SuperHerdr.Protocol.Model

/-!
# Plans for moving a tab

A tab's layout is a tree of splits with panes at its leaves, exported as a JSON value. Panes can
only be moved one at a time, each next to one that is there already, so the tree is reduced to the
pane that opens the new tab and a list of splits in order (`planTabMove`).

What such a list does to a tab is `execute`. Each subtree is stood for by its leftmost pane until it
is rebuilt there: executing the splits of a subtree puts the subtree in the place of that pane
(`execute_splits`), so a whole plan ends with the tree that was exported.
-/

namespace SuperHerdr

open JsonData

def SplitDirection.cliValue : SplitDirection → String
  | right => "right"
  | down => "down"

def SplitDirection.fromApiValue (value : String) : Option SplitDirection :=
  if value = "right" then some right else if value = "down" then some down else none

@[simp] theorem SplitDirection.fromApiValue_cliValue (direction : SplitDirection) :
    fromApiValue direction.cliValue = some direction := by
  cases direction <;> decide

namespace Workspace

/-- Bounded recursion guard for an exported layout tree. -/
def MAX_LAYOUT_DEPTH : ℕ := 64

/-- One pane to move next to another. -/
structure SplitMove where
  pane : String
  targetPane : String
  direction : SplitDirection
  ratio : Option Double
deriving DecidableEq

/-- The pane that opens the tab, and the splits that rebuild the others around it. -/
structure TabMovePlan where
  anchorPane : String
  splits : List SplitMove
deriving DecidableEq

/-! ### Reading an exported node -/

/-- A field that holds a text. -/
def text (node : Value) (name : String) : Option String := (node.get name).bind Value.asStr

def kind (node : Value) : Option String := text node "type"

def direction (node : Value) : Option SplitDirection :=
  (text node "direction").bind SplitDirection.fromApiValue

def ratio (node : Value) : Option Double := (node.get "ratio").bind Value.asF64

/-- `ok_or_else`. -/
def okOr {α : Type} (message : String) : Option α → Except String α
  | some a => .ok a
  | none => .error message

theorem okOr_eq_ok_iff {α : Type} {message : String} {value : Option α} {a : α} :
    okOr message value = .ok a ↔ value = some a := by
  cases value <;> simp [okOr]

theorem bind_eq_ok_iff {α β : Type} {first : Except String α} {next : α → Except String β} {b : β} :
    first >>= next = .ok b ↔ ∃ a, first = .ok a ∧ next a = .ok b := by
  cases first with
  | error e => simp [bind, Except.bind]
  | ok a => simp [bind, Except.bind]

/-! ### The plan -/

/-- The pane at the left end of a node, which may have so many levels at most. -/
def leftmostPane : ℕ → Value → Except String String
  | 0, _ => .error "exported layout is nested too deeply"
  | levels + 1, node =>
      if kind node = some "pane" then
        okOr "exported layout pane has no identifier" (text node "pane_id")
      else if kind node = some "split" then do
        let first ← okOr "exported layout split has no first child" (node.get "first")
        leftmostPane levels first
      else .error "exported layout contained an unsupported node"

/-- The splits of a node, which may have so many levels at most, behind those collected before. -/
def collectSplits : ℕ → Value → List SplitMove → Except String (List SplitMove)
  | 0, _, _ => .error "exported layout is nested too deeply"
  | levels + 1, node, splits =>
      if kind node = some "pane" then .ok splits
      else if kind node = some "split" then do
        let first ← okOr "exported layout split has no first child" (node.get "first")
        let second ← okOr "exported layout split has no second child" (node.get "second")
        let direction ← okOr "exported layout split has an unsupported direction" (direction node)
        let pane ← leftmostPane levels second
        let targetPane ← leftmostPane levels first
        let splits ←
          collectSplits levels first (splits ++ [⟨pane, targetPane, direction, ratio node⟩])
        collectSplits levels second splits
      else .error "exported layout contained an unsupported node"

def planTabMove (root : Value) : Except String TabMovePlan := do
  let anchorPane ← leftmostPane (MAX_LAYOUT_DEPTH + 1) root
  let splits ← collectSplits (MAX_LAYOUT_DEPTH + 1) root []
  return ⟨anchorPane, splits⟩

/-! ### Layouts -/

inductive Layout
  | pane (id : String)
  | split (direction : SplitDirection) (ratio : Option Double) (first second : Layout)
deriving DecidableEq

namespace Layout

/-- The layout is what a node exports. -/
def Exported : Layout → Value → Prop
  | pane id, node => kind node = some "pane" ∧ text node "pane_id" = some id
  | split way share first second, node =>
      kind node = some "split" ∧ direction node = some way ∧ ratio node = share ∧
        ∃ left right, node.get "first" = some left ∧ node.get "second" = some right ∧
          first.Exported left ∧ second.Exported right

/-- How deep its deepest node lies. -/
def height : Layout → ℕ
  | pane _ => 0
  | split _ _ first second => max first.height second.height + 1

def panes : Layout → List String
  | pane id => [id]
  | split _ _ first second => first.panes ++ second.panes

def leftmost : Layout → String
  | pane id => id
  | split _ _ first _ => first.leftmost

def splits : Layout → List SplitMove
  | pane _ => []
  | split direction ratio first second =>
      ⟨second.leftmost, first.leftmost, direction, ratio⟩ :: (first.splits ++ second.splits)

def plan (layout : Layout) : TabMovePlan := ⟨layout.leftmost, layout.splits⟩

/-- A layout whose panes are called otherwise. -/
def rename (name : String → String) : Layout → Layout
  | pane id => pane (name id)
  | split direction ratio first second =>
      split direction ratio (first.rename name) (second.rename name)

/-- Put another layout in the place of a pane. -/
def graft : Layout → String → Layout → Layout
  | pane id, target, scion => if id = target then scion else pane id
  | split direction ratio first second, target, scion =>
      split direction ratio (first.graft target scion) (second.graft target scion)

end Layout

/-- One pane is put next to another, which must be there. -/
def SplitMove.place (move : SplitMove) (tab : Layout) : Option Layout :=
  if move.targetPane ∈ tab.panes then
    some (tab.graft move.targetPane
      (.split move.direction move.ratio (.pane move.targetPane) (.pane move.pane)))
  else none

/-- The splits in order. -/
def execute (tab : Layout) (moves : List SplitMove) : Option Layout :=
  moves.foldlM (fun tab move => move.place tab) tab

/-- A plan from its beginning, a tab with the anchor alone. -/
def TabMovePlan.execute (plan : TabMovePlan) : Option Layout :=
  Workspace.execute (.pane plan.anchorPane) plan.splits

/-- The panes that a plan moves, in order. -/
def TabMovePlan.moved (plan : TabMovePlan) : List String :=
  plan.anchorPane :: plan.splits.map SplitMove.pane

/-! ### Which layouts are planned -/

namespace Layout

theorem leftmostPane_eq {layout : Layout} {node : Value} (h : layout.Exported node) {levels : ℕ}
    (hlevels : layout.height < levels) : leftmostPane levels node = .ok layout.leftmost := by
  induction layout generalizing node levels with
  | pane id =>
    obtain ⟨levels, rfl⟩ := Nat.exists_eq_add_one_of_ne_zero (Nat.ne_zero_of_lt hlevels)
    obtain ⟨hkind, hid⟩ := h
    rw [leftmostPane, if_pos hkind, hid]
    rfl
  | split way share first second ihfirst =>
    obtain ⟨levels, rfl⟩ := Nat.exists_eq_add_one_of_ne_zero (Nat.ne_zero_of_lt hlevels)
    obtain ⟨hkind, -, -, left, -, hleft, -, hfirst, -⟩ := h
    rw [height] at hlevels
    rw [leftmostPane, hkind, if_neg (by decide), if_pos rfl, hleft]
    exact ihfirst hfirst (by omega)

theorem collectSplits_eq {layout : Layout} {node : Value} (h : layout.Exported node) {levels : ℕ}
    (hlevels : layout.height < levels) (before : List SplitMove) :
    collectSplits levels node before = .ok (before ++ layout.splits) := by
  induction layout generalizing node levels before with
  | pane id =>
    obtain ⟨levels, rfl⟩ := Nat.exists_eq_add_one_of_ne_zero (Nat.ne_zero_of_lt hlevels)
    rw [collectSplits, if_pos h.1, splits, List.append_nil]
  | split way share first second ihfirst ihsecond =>
    obtain ⟨levels, rfl⟩ := Nat.exists_eq_add_one_of_ne_zero (Nat.ne_zero_of_lt hlevels)
    obtain ⟨hkind, hway, hshare, left, right, hleft, hright, hfirst, hsecond⟩ := h
    rw [height] at hlevels
    rw [collectSplits, hkind, if_neg (by decide), if_pos rfl, hleft, hright, hway, hshare]
    simp only [okOr, bind, Except.bind,
      leftmostPane_eq hsecond (show second.height < levels by omega),
      leftmostPane_eq hfirst (show first.height < levels by omega),
      ihfirst hfirst (show first.height < levels by omega),
      ihsecond hsecond (show second.height < levels by omega)]
    simp [splits]

end Layout

/-- A node whose splits can be collected, and that has a leftmost pane, is a layout. -/
theorem exported_of_collectSplits {levels : ℕ} {node : Value} {before after : List SplitMove}
    {leftmost : String} (hleftmost : leftmostPane levels node = .ok leftmost)
    (h : collectSplits levels node before = .ok after) :
    ∃ layout : Layout, layout.Exported node ∧ layout.height < levels := by
  induction levels generalizing node before after leftmost with
  | zero => cases hleftmost
  | succ levels ih =>
    rw [leftmostPane] at hleftmost
    rw [collectSplits] at h
    by_cases hpane : kind node = some "pane"
    · rw [if_pos hpane, okOr_eq_ok_iff] at hleftmost
      exact ⟨.pane leftmost, ⟨hpane, hleftmost⟩, Nat.succ_pos _⟩
    · by_cases hsplit : kind node = some "split"
      · simp only [if_neg hpane, if_pos hsplit, bind_eq_ok_iff, okOr_eq_ok_iff] at h
        obtain ⟨left, hleft, right, hright, way, hway, pane, hpane, target, htarget, middle,
          hmiddle, hafter⟩ := h
        obtain ⟨first, hfirst, hfirstHeight⟩ := ih htarget hmiddle
        obtain ⟨second, hsecond, hsecondHeight⟩ := ih hpane hafter
        refine ⟨.split way (ratio node) first second,
          ⟨hsplit, hway, rfl, left, right, hleft, hright, hfirst, hsecond⟩, ?_⟩
        rw [Layout.height]
        omega
      · rw [if_neg hpane, if_neg hsplit] at h
        cases h

/-- A node exports one layout at most. -/
theorem Layout.Exported.unique {layout other : Layout} {node : Value} (h : layout.Exported node)
    (hother : other.Exported node) : layout = other := by
  induction layout generalizing other node with
  | pane id =>
    cases other with
    | pane other =>
      have hid : some id = some other := h.2.symm.trans hother.2
      cases hid
      rfl
    | split way share first second => exact absurd (h.1.symm.trans hother.1) (by decide)
  | split way share first second ihfirst ihsecond =>
    cases other with
    | pane other => exact absurd (h.1.symm.trans hother.1) (by decide)
    | split way' share' first' second' =>
      obtain ⟨-, hway, rfl, left, right, hleft, hright, hfirst, hsecond⟩ := h
      obtain ⟨-, hway', rfl, left', right', hleft', hright', hfirst', hsecond'⟩ := hother
      cases hleft.symm.trans hleft'
      cases hright.symm.trans hright'
      cases hway.symm.trans hway'
      rw [ihfirst hfirst hfirst', ihsecond hsecond hsecond']

/-- A tab is planned exactly if it is a layout that is not too deep, and then its plan is the
layout's. -/
theorem planTabMove_eq_ok_iff {root : Value} {plan : TabMovePlan} :
    planTabMove root = .ok plan ↔
      ∃ layout : Layout, layout.Exported root ∧ layout.height ≤ MAX_LAYOUT_DEPTH ∧
        plan = layout.plan := by
  constructor
  · intro h
    rw [planTabMove, bind_eq_ok_iff] at h
    obtain ⟨anchor, hanchor, h⟩ := h
    obtain ⟨collected, hcollected, h⟩ := bind_eq_ok_iff.mp h
    obtain ⟨layout, hlayout, hheight⟩ := exported_of_collectSplits hanchor hcollected
    rw [Layout.leftmostPane_eq hlayout hheight] at hanchor
    rw [Layout.collectSplits_eq hlayout hheight] at hcollected
    cases hanchor
    cases hcollected
    cases h
    exact ⟨layout, hlayout, Nat.lt_succ_iff.mp hheight, rfl⟩
  · rintro ⟨layout, hlayout, hheight, rfl⟩
    rw [planTabMove, Layout.leftmostPane_eq hlayout (Nat.lt_succ_iff.mpr hheight),
      Layout.collectSplits_eq hlayout (Nat.lt_succ_iff.mpr hheight)]
    rfl

/-! ### What a plan rebuilds -/

namespace Layout

theorem leftmost_mem_panes (layout : Layout) : layout.leftmost ∈ layout.panes := by
  induction layout with
  | pane id => exact List.mem_singleton_self id
  | split way share first second ihfirst => exact List.mem_append_left _ ihfirst

theorem graft_of_notMem {tab : Layout} {target : String} (h : target ∉ tab.panes) (scion : Layout) :
    tab.graft target scion = tab := by
  induction tab with
  | pane id =>
    rw [graft, if_neg]
    rintro rfl
    exact h (List.mem_singleton_self _)
  | split way share first second ihfirst ihsecond =>
    rw [panes, List.mem_append, not_or] at h
    rw [graft, ihfirst h.1, ihsecond h.2]

/-- A layout in the place of a pane is the same as a part of it there, and the rest in the place of
one of the part's panes. -/
theorem graft_graft (tab scion inner : Layout) {target other : String}
    (h : other = target ∨ other ∉ tab.panes) :
    (tab.graft target scion).graft other inner = tab.graft target (scion.graft other inner) := by
  induction tab with
  | pane id =>
    rw [graft, graft]
    split
    · rfl
    · next hid =>
      rcases h with rfl | h
      · exact if_neg hid
      · rw [graft, if_neg]
        rintro rfl
        exact h (List.mem_singleton_self _)
  | split way share first second ihfirst ihsecond =>
    rw [panes, List.mem_append, not_or] at h
    rw [graft, graft, graft, ihfirst (h.imp_right And.left), ihsecond (h.imp_right And.right)]

theorem graft_self (tab : Layout) (target : String) : tab.graft target (.pane target) = tab := by
  induction tab with
  | pane id =>
    rw [graft]
    split
    · next hid => rw [hid]
    · rfl
  | split way share first second ihfirst ihsecond => rw [graft, ihfirst, ihsecond]

theorem mem_panes_graft {tab scion : Layout} {target pane : String} :
    pane ∈ (tab.graft target scion).panes ↔
      (pane ∈ tab.panes ∧ pane ≠ target) ∨ (target ∈ tab.panes ∧ pane ∈ scion.panes) := by
  induction tab with
  | pane id =>
    rw [graft, panes]
    by_cases hid : id = target
    · subst hid
      simp
    · rw [if_neg hid, panes]
      simp only [List.mem_singleton]
      constructor
      · rintro rfl
        exact .inl ⟨rfl, hid⟩
      · rintro (⟨rfl, -⟩ | ⟨rfl, -⟩)
        · rfl
        · exact absurd rfl hid
  | split way share first second ihfirst ihsecond =>
    simp only [graft, panes, List.mem_append, ihfirst, ihsecond]
    tauto

theorem panes_rename (name : String → String) (layout : Layout) :
    (layout.rename name).panes = layout.panes.map name := by
  induction layout with
  | pane id => rfl
  | split way share first second ihfirst ihsecond =>
    rw [rename, panes, ihfirst, ihsecond, panes, List.map_append]

/-- Names may be changed before or after, if the pane that is replaced keeps a name of its own. -/
theorem rename_graft {name : String → String} {tab : Layout} {target : String}
    (h : ∀ pane ∈ tab.panes, name pane = name target → pane = target) (scion : Layout) :
    (tab.graft target scion).rename name =
      (tab.rename name).graft (name target) (scion.rename name) := by
  induction tab with
  | pane id =>
    rw [rename, graft, graft]
    by_cases hid : id = target
    · rw [if_pos hid, if_pos (congrArg name hid)]
    · rw [if_neg hid, if_neg fun hsame => hid (h id (List.mem_singleton_self id) hsame), rename]
  | split way share first second ihfirst ihsecond =>
    rw [graft, rename, rename, graft,
      ihfirst fun pane hpane => h pane (List.mem_append_left _ hpane),
      ihsecond fun pane hpane => h pane (List.mem_append_right _ hpane)]

end Layout

namespace SplitMove

variable {move : SplitMove} {tab next : Layout}

theorem mem_panes_of_place (h : move.place tab = some next) {pane : String}
    (hpane : pane ∈ next.panes) :
    pane ∈ tab.panes ∨ pane = move.pane := by
  rw [place] at h
  split at h
  · next hthere =>
    cases h
    rcases Layout.mem_panes_graft.mp hpane with ⟨hpane, -⟩ | ⟨-, hpane⟩
    · exact .inl hpane
    · rcases List.mem_cons.mp hpane with rfl | hpane
      · exact .inl hthere
      · exact .inr (List.mem_singleton.mp hpane)
  · cases h

theorem place_rename {name : String → String} (h : move.place tab = some next)
    (hname : ∀ pane ∈ tab.panes, name pane = name move.targetPane → pane = move.targetPane) :
    SplitMove.place ⟨name move.pane, name move.targetPane, move.direction, move.ratio⟩
      (tab.rename name) = some (next.rename name) := by
  rw [place] at h
  split at h
  · next hthere =>
    cases h
    have hrenamed : name move.targetPane ∈ (tab.rename name).panes := by
      rw [Layout.panes_rename]
      exact List.mem_map_of_mem hthere
    rw [place, if_pos hrenamed, Layout.rename_graft hname]
    rfl
  · cases h

end SplitMove

namespace Layout

/-- **Executing the splits of a subtree.** The subtree is put in the place of its leftmost pane, if
none of its other panes is there. -/
theorem execute_splits {layout tab : Layout} (hnodup : layout.panes.Nodup)
    (hthere : layout.leftmost ∈ tab.panes)
    (hfree : ∀ pane ∈ layout.panes, pane ≠ layout.leftmost → pane ∉ tab.panes) :
    execute tab layout.splits = some (tab.graft layout.leftmost layout) := by
  induction layout generalizing tab with
  | pane id => rw [leftmost, graft_self]; rfl
  | split way share first second ihfirst ihsecond =>
    rw [panes] at hnodup hfree
    rw [leftmost] at hthere hfree
    obtain ⟨hfirst, hsecond, hapart⟩ := List.nodup_append.mp hnodup
    have hleft := first.leftmost_mem_panes
    have hright := second.leftmost_mem_panes
    have hne : first.leftmost ≠ second.leftmost := hapart _ hleft _ hright
    have hnew : second.leftmost ∉ tab.panes :=
      hfree _ (List.mem_append_right _ hright) hne.symm
    -- at first each half is stood for by its leftmost pane
    let opened := tab.graft first.leftmost
      (.split way share (.pane first.leftmost) (.pane second.leftmost))
    have hopened (pane : String) : pane ∈ opened.panes ↔
        (pane ∈ tab.panes ∧ pane ≠ first.leftmost) ∨ pane = first.leftmost ∨
          pane = second.leftmost := by
      rw [mem_panes_graft]
      simp [hthere, panes]
    have hone : execute opened first.splits = some (opened.graft first.leftmost first) := by
      refine ihfirst hfirst ((hopened _).mpr (.inr (.inl rfl))) fun pane hpane hother hmem => ?_
      rcases (hopened pane).mp hmem with ⟨hmem, -⟩ | hsame | hsame
      · exact hfree pane (List.mem_append_left _ hpane) hother hmem
      · exact hother hsame
      · exact hapart pane hpane _ hright hsame
    -- then the first half is there
    let halfway := tab.graft first.leftmost (.split way share first (.pane second.leftmost))
    have hhalfway : opened.graft first.leftmost first = halfway := by
      rw [graft_graft _ _ _ (.inl rfl), graft, graft, graft, if_pos rfl, if_neg hne.symm]
    have hmem (pane : String) : pane ∈ halfway.panes ↔
        (pane ∈ tab.panes ∧ pane ≠ first.leftmost) ∨ pane ∈ first.panes ∨
          pane = second.leftmost := by
      rw [mem_panes_graft]
      simp [hthere, panes]
    have htwo : execute halfway second.splits = some (halfway.graft second.leftmost second) := by
      refine ihsecond hsecond ((hmem _).mpr (.inr (.inr rfl))) fun pane hpane hother hthere => ?_
      rcases (hmem pane).mp hthere with ⟨hthere, hne⟩ | hsame | hsame
      · exact hfree pane (List.mem_append_right _ hpane) hne hthere
      · exact hapart pane hsame _ hpane rfl
      · exact hother hsame
    -- at last the second half is there too
    have hwhole : halfway.graft second.leftmost second =
        tab.graft first.leftmost (.split way share first second) := by
      have hnot : second.leftmost ∉ first.panes := fun hmem => hapart _ hmem _ hright rfl
      rw [graft_graft _ _ _ (.inr hnew), graft, graft_of_notMem hnot, graft, if_pos rfl]
    have hplace : SplitMove.place ⟨second.leftmost, first.leftmost, way, share⟩ tab = some opened :=
      if_pos hthere
    rw [execute] at hone htwo
    rw [execute, splits, List.foldlM_cons, hplace, Option.bind_eq_bind, Option.bind_some,
      List.foldlM_append, hone, Option.bind_eq_bind, Option.bind_some, hhalfway, htwo, hwhole]
    rfl

theorem moved_plan_perm (layout : Layout) : layout.plan.moved.Perm layout.panes := by
  induction layout with
  | pane id => exact List.Perm.refl _
  | split way share first second ihfirst ihsecond =>
    have hmiddle : (split way share first second).plan.moved.Perm
        (first.plan.moved ++ second.plan.moved) := by
      simp only [TabMovePlan.moved, plan, splits, leftmost, List.map_cons, List.map_append]
      exact (List.perm_middle.symm).cons first.leftmost
    exact hmiddle.trans (ihfirst.append ihsecond)

theorem execute_plan {layout : Layout} (h : layout.panes.Nodup) :
    layout.plan.execute = some layout := by
  have hend : execute (.pane layout.leftmost) layout.splits =
      some ((pane layout.leftmost).graft layout.leftmost layout) :=
    execute_splits h (List.mem_singleton_self _)
      fun pane _ hother hmem => hother (List.mem_singleton.mp hmem)
  rw [graft, if_pos rfl] at hend
  exact hend

end Layout

end Workspace

end SuperHerdr
