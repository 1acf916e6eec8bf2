import SuperHerdr.Library.Minima
import SuperHerdr.Tui.Layouts

/-!
# The pane beside a pane

Going left, right, up or down selects a pane of the layout that lies wholly on that side: of the nearest
ones, one at the least distance across. That distance is zero for a pane that shares a stretch of border
with the current one, and as well for a pane that only touches it at a corner, and where it is equal the
lesser identifier decides. So a pane at a corner is taken for one beside the current pane if its
identifier is less (`a_pane_beside_is_selected_iff`).
-/

namespace SuperHerdr

namespace Tui

open Std Minima

inductive PaneDirection
  | left
  | right
  | up
  | down
deriving DecidableEq

namespace PaneDirection

def label : PaneDirection → String
  | left => "left"
  | right => "right"
  | up => "top"
  | down => "bottom"

end PaneDirection

/-- How far two intervals are apart. -/
def intervalDistance (firstStart firstEnd secondStart secondEnd : ℕ) : ℕ :=
  if firstEnd < secondStart then secondStart - firstEnd else firstStart - secondEnd

def paneDirectionScore (current candidate : LayoutRect) (direction : PaneDirection) : Option (ℕ × ℕ) :=
  let currentX := current.x.toNat
  let candidateX := candidate.x.toNat
  let currentY := current.y.toNat
  let candidateY := candidate.y.toNat
  let currentRight := currentX + current.width.toNat
  let candidateRight := candidateX + candidate.width.toNat
  let currentBottom := currentY + current.height.toNat
  let candidateBottom := candidateY + candidate.height.toNat
  match direction with
  | .left =>
      if candidateRight ≤ currentX then
        some (currentX - candidateRight,
          intervalDistance currentY currentBottom candidateY candidateBottom)
      else none
  | .right =>
      if currentRight ≤ candidateX then
        some (candidateX - currentRight,
          intervalDistance currentY currentBottom candidateY candidateBottom)
      else none
  | .up =>
      if candidateBottom ≤ currentY then
        some (currentY - candidateBottom,
          intervalDistance currentX currentRight candidateX candidateRight)
      else none
  | .down =>
      if currentBottom ≤ candidateY then
        some (candidateY - currentBottom,
          intervalDistance currentX currentRight candidateX candidateRight)
      else none

/-- What a key that goes somewhere does: it selects a pane, says something, or does nothing. -/
inductive Went
  | selected (pane : PaneId)
  | told (message : String)
  | nowhere
deriving DecidableEq

/-- Scores before identifiers. -/
def compareScored : (ℕ × ℕ) × PaneId → (ℕ × ℕ) × PaneId → Ordering :=
  compareLex (compareOn fun scored => scored.1.1)
    (compareLex (compareOn fun scored => scored.1.2) (compareOn fun scored => scored.2))

def selectNeighborPane (state : FederationState) (selected : Option PaneId)
    (direction : PaneDirection) : Went :=
  match selectedSnapshotAndPane state selected with
  | none => .nowhere
  | some (snapshot, pane) =>
      match pane.tab with
      | none => .nowhere
      | some tab =>
          match snapshot.layouts[tab]? with
          | none => .told "Herdr: selected tab has no pane layout"
          | some layout =>
              match layout.panes.find? fun layoutPane => layoutPane.pane = pane.id with
              | none => .nowhere
              | some current =>
                  let scored := (layout.panes.filter fun candidate => candidate.pane ≠ pane.id).filterMap
                    fun candidate => (paneDirectionScore current.rect candidate.rect direction).map
                      (·, candidate.pane)
                  match minBy compareScored scored with
                  | some (_, pane) => .selected pane
                  | none => .told s!"Herdr: no pane to the {direction.label}"

/-! ### What lies beside a pane -/

/-- The candidate lies wholly on that side. -/
def OnSide : PaneDirection → LayoutRect → LayoutRect → Prop
  | .left, current, candidate =>
      ∀ own ∈ LayoutCells current, ∀ cell ∈ LayoutCells candidate, cell.1 < own.1
  | .right, current, candidate =>
      ∀ own ∈ LayoutCells current, ∀ cell ∈ LayoutCells candidate, own.1 < cell.1
  | .up, current, candidate =>
      ∀ own ∈ LayoutCells current, ∀ cell ∈ LayoutCells candidate, cell.2 < own.2
  | .down, current, candidate =>
      ∀ own ∈ LayoutCells current, ∀ cell ∈ LayoutCells candidate, own.2 < cell.2

/-- The two share a row, or a column if one is above the other. -/
def Beside : PaneDirection → LayoutRect → LayoutRect → Prop
  | .left, current, candidate | .right, current, candidate =>
      ∃ own ∈ LayoutCells current, ∃ cell ∈ LayoutCells candidate, own.2 = cell.2
  | .up, current, candidate | .down, current, candidate =>
      ∃ own ∈ LayoutCells current, ∃ cell ∈ LayoutCells candidate, own.1 = cell.1

/-- How far a rectangle is away on that side. -/
def gap : PaneDirection → LayoutRect → LayoutRect → ℕ
  | .left, current, candidate => current.x.toNat - (candidate.x.toNat + candidate.width.toNat)
  | .right, current, candidate => candidate.x.toNat - (current.x.toNat + current.width.toNat)
  | .up, current, candidate => current.y.toNat - (candidate.y.toNat + candidate.height.toNat)
  | .down, current, candidate => candidate.y.toNat - (current.y.toNat + current.height.toNat)

/-- How far it is off across. -/
def offset : PaneDirection → LayoutRect → LayoutRect → ℕ
  | .left, current, candidate | .right, current, candidate =>
      intervalDistance current.y.toNat (current.y.toNat + current.height.toNat)
        candidate.y.toNat (candidate.y.toNat + candidate.height.toNat)
  | .up, current, candidate | .down, current, candidate =>
      intervalDistance current.x.toNat (current.x.toNat + current.width.toNat)
        candidate.x.toNat (candidate.x.toNat + candidate.width.toNat)

theorem mem_layoutCells {rect : LayoutRect} {cell : ℕ × ℕ} :
    cell ∈ LayoutCells rect ↔
      (rect.x.toNat ≤ cell.1 ∧ cell.1 < rect.x.toNat + rect.width.toNat) ∧
        rect.y.toNat ≤ cell.2 ∧ cell.2 < rect.y.toNat + rect.height.toNat :=
  Iff.rfl

theorem sizes_of_nonempty {rect : LayoutRect} (h : (LayoutCells rect).Nonempty) :
    0 < rect.width.toNat ∧ 0 < rect.height.toNat := by
  obtain ⟨cell, hcell⟩ := h
  rw [mem_layoutCells] at hcell
  omega

variable {current candidate : LayoutRect} {direction : PaneDirection}

/-- The side a candidate is on, by the edges. -/
theorem onSide_iff
    (hcurrent : (LayoutCells current).Nonempty) (hcandidate : (LayoutCells candidate).Nonempty) :
    OnSide direction current candidate ↔
      match direction with
      | .left => candidate.x.toNat + candidate.width.toNat ≤ current.x.toNat
      | .right => current.x.toNat + current.width.toNat ≤ candidate.x.toNat
      | .up => candidate.y.toNat + candidate.height.toNat ≤ current.y.toNat
      | .down => current.y.toNat + current.height.toNat ≤ candidate.y.toNat := by
  obtain ⟨hwidth, hheight⟩ := sizes_of_nonempty hcurrent
  obtain ⟨hcandidateWidth, hcandidateHeight⟩ := sizes_of_nonempty hcandidate
  -- the first and the last cell of each decide
  have hfirst : ∀ {rect : LayoutRect}, 0 < rect.width.toNat → 0 < rect.height.toNat →
      (rect.x.toNat, rect.y.toNat) ∈ LayoutCells rect := by
    intro rect hw hh
    rw [mem_layoutCells]
    omega
  have hlast : ∀ {rect : LayoutRect}, 0 < rect.width.toNat → 0 < rect.height.toNat →
      (rect.x.toNat + rect.width.toNat - 1, rect.y.toNat + rect.height.toNat - 1) ∈
        LayoutCells rect := by
    intro rect hw hh
    rw [mem_layoutCells]
    omega
  constructor
  · intro h
    cases direction with
    | left =>
      have hlt := h _ (hfirst hwidth hheight) _ (hlast hcandidateWidth hcandidateHeight)
      simp only at hlt ⊢
      omega
    | right =>
      have hlt := h _ (hlast hwidth hheight) _ (hfirst hcandidateWidth hcandidateHeight)
      simp only at hlt ⊢
      omega
    | up =>
      have hlt := h _ (hfirst hwidth hheight) _ (hlast hcandidateWidth hcandidateHeight)
      simp only at hlt ⊢
      omega
    | down =>
      have hlt := h _ (hlast hwidth hheight) _ (hfirst hcandidateWidth hcandidateHeight)
      simp only at hlt ⊢
      omega
  · intro h
    cases direction <;>
      intro own hown cell hcell <;>
      rw [mem_layoutCells] at hown hcell <;>
      simp only at h <;>
      omega

/-- **How a candidate scores**: on that side, by the gap and then by how far it is off. -/
theorem paneDirectionScore_eq_some_iff
    (hcurrent : (LayoutCells current).Nonempty) (hcandidate : (LayoutCells candidate).Nonempty)
    {score : ℕ × ℕ} :
    paneDirectionScore current candidate direction = some score ↔
      OnSide direction current candidate ∧
        score = (gap direction current candidate, offset direction current candidate) := by
  rw [onSide_iff hcurrent hcandidate]
  cases direction <;> simp [paneDirectionScore, gap, offset, eq_comm]

theorem intervalDistance_of_shared {start length otherStart otherLength a : ℕ}
    (h : start ≤ a ∧ a < start + length) (hother : otherStart ≤ a ∧ a < otherStart + otherLength) :
    intervalDistance start (start + length) otherStart (otherStart + otherLength) = 0 := by
  rw [intervalDistance]
  split <;> omega

theorem offset_of_beside
    (h : Beside direction current candidate) : offset direction current candidate = 0 := by
  cases direction <;>
    obtain ⟨own, hown, cell, hcell, heq⟩ := h <;>
    rw [mem_layoutCells] at hown hcell <;>
    rw [← heq] at hcell
  · exact intervalDistance_of_shared hown.2 hcell.2
  · exact intervalDistance_of_shared hown.2 hcell.2
  · exact intervalDistance_of_shared hown.1 hcell.1
  · exact intervalDistance_of_shared hown.1 hcell.1

/-! ### The nearest panes -/

/-- The layout of the selected pane's tab, and the selected pane in it. -/
def placeOf (state : FederationState) (selected : Option PaneId) : Option (LayoutState × LayoutPane) := do
  let (snapshot, pane) ← selectedSnapshotAndPane state selected
  let tab ← pane.tab
  let layout ← snapshot.layouts[tab]?
  let current ← layout.panes.find? fun layoutPane => layoutPane.pane = pane.id
  return (layout, current)

/-- Another pane of the layout, on that side. -/
structure Neighbour (layout : LayoutState) (current : LayoutPane) (direction : PaneDirection)
    (candidate : LayoutPane) : Prop where
  mem : candidate ∈ layout.panes
  other : candidate.pane ≠ current.pane
  onSide : OnSide direction current.rect candidate.rect

/-- One that no other is nearer than. -/
structure Nearest (layout : LayoutState) (current : LayoutPane) (direction : PaneDirection)
    (candidate : LayoutPane) : Prop extends Neighbour layout current direction candidate where
  least : ∀ other, Neighbour layout current direction other →
    gap direction current.rect candidate.rect ≤ gap direction current.rect other.rect

/-- A nearest pane that shares a border with the current one, or would without a gap. -/
def NearestBeside (layout : LayoutState) (current : LayoutPane) (direction : PaneDirection)
    (candidate : LayoutPane) : Prop :=
  Nearest layout current direction candidate ∧ Beside direction current.rect candidate.rect

/-- A nearest pane that is off by no cell and yet not beside the current one: it touches a corner. -/
def NearestCorner (layout : LayoutState) (current : LayoutPane) (direction : PaneDirection)
    (candidate : LayoutPane) : Prop :=
  Nearest layout current direction candidate ∧ offset direction current.rect candidate.rect = 0 ∧
    ¬Beside direction current.rect candidate.rect

/-- The panes that score, with what they score. -/
def scoredPanes (layout : LayoutState) (current : LayoutPane) (direction : PaneDirection) :
    List ((ℕ × ℕ) × PaneId) :=
  (layout.panes.filter fun candidate => candidate.pane ≠ current.pane).filterMap fun candidate =>
    (paneDirectionScore current.rect candidate.rect direction).map (·, candidate.pane)

theorem selectNeighborPane_of_placeOf {state : FederationState} {selected : Option PaneId}
    {layout : LayoutState} {current : LayoutPane} (h : placeOf state selected = some (layout, current))
    (direction : PaneDirection) :
    selectNeighborPane state selected direction =
      match minBy compareScored (scoredPanes layout current direction) with
      | some (_, pane) => .selected pane
      | none => .told s!"Herdr: no pane to the {direction.label}" := by
  simp only [placeOf, Option.bind_eq_bind, Option.bind_eq_some_iff, Option.pure_def,
    Option.some.injEq, Prod.mk.injEq] at h
  obtain ⟨⟨snapshot, pane⟩, hselected, tab, htab, found, hlayout, place, hplace, rfl, rfl⟩ := h
  simp only at htab hlayout hplace
  have hpane : place.pane = pane.id := by simpa using List.find?_some hplace
  simp only [selectNeighborPane, hselected, htab, hlayout, hplace, scoredPanes, hpane]

theorem isLE_compareScored_iff {a b : (ℕ × ℕ) × PaneId} :
    (compareScored a b).isLE ↔
      a.1.1 < b.1.1 ∨ a.1.1 = b.1.1 ∧ (a.1.2 < b.1.2 ∨ a.1.2 = b.1.2 ∧ (compare a.2 b.2).isLE) := by
  simp only [compareScored, compareLex, compareOn]
  rcases Nat.lt_trichotomy a.1.1 b.1.1 with hlt | heq | hgt
  · simp [Nat.compare_eq_lt.mpr hlt, hlt]
  · rcases Nat.lt_trichotomy a.1.2 b.1.2 with hlt' | heq' | hgt'
    · simp [heq, Nat.compare_eq_lt.mpr hlt', hlt']
    · simp [heq, heq']
    · simp [heq, Nat.compare_eq_gt.mpr hgt', hgt'.not_gt, hgt'.ne']
  · simp [Nat.compare_eq_gt.mpr hgt, hgt.not_gt, hgt.ne']

instance : TransCmp compareScored := inferInstanceAs (TransCmp (compareLex _ _))

theorem mem_of_placeOf {state : FederationState} {selected : Option PaneId} {layout : LayoutState}
    {current : LayoutPane} (h : placeOf state selected = some (layout, current)) :
    current ∈ layout.panes := by
  simp only [placeOf, Option.bind_eq_bind, Option.bind_eq_some_iff, Option.pure_def,
    Option.some.injEq, Prod.mk.injEq] at h
  obtain ⟨found, -, tab, -, place, -, pane, hplace, rfl, rfl⟩ := h
  exact List.mem_of_find?_eq_some hplace

section Layout

variable {layout : LayoutState} {current : LayoutPane} {direction : PaneDirection}
  (hcells : ∀ pane ∈ layout.panes, (LayoutCells pane.rect).Nonempty) (hcurrent : current ∈ layout.panes)
include hcells hcurrent

/-- **The panes that score** are those on that side. -/
theorem mem_scoredPanes_iff {score : ℕ × ℕ} {pane : PaneId} :
    (score, pane) ∈ scoredPanes layout current direction ↔
      ∃ candidate, Neighbour layout current direction candidate ∧ candidate.pane = pane ∧
        score = (gap direction current.rect candidate.rect,
          offset direction current.rect candidate.rect) := by
  simp only [scoredPanes, List.mem_filterMap, List.mem_filter, Option.map_eq_some_iff,
    decide_eq_true_eq, Prod.mk.injEq]
  constructor
  · rintro ⟨candidate, ⟨hmem, hother⟩, found, hscore, rfl, rfl⟩
    obtain ⟨hside, heq⟩ :=
      (paneDirectionScore_eq_some_iff (hcells _ hcurrent) (hcells _ hmem)).mp hscore
    exact ⟨candidate, ⟨hmem, hother, hside⟩, rfl, heq⟩
  · rintro ⟨candidate, ⟨hmem, hother, hside⟩, rfl, heq⟩
    exact ⟨candidate, ⟨hmem, hother⟩, score,
      (paneDirectionScore_eq_some_iff (hcells _ hcurrent) (hcells _ hmem)).mpr ⟨hside, heq⟩, rfl, rfl⟩

/-- **What is least among those that score**: a nearest pane, of these one that is off by the fewest cells,
and of these one with the least identifier. -/
theorem minBy_scoredPanes {score : ℕ × ℕ} {pane : PaneId}
    (h : minBy compareScored (scoredPanes layout current direction) = some (score, pane)) :
    ∃ candidate, Nearest layout current direction candidate ∧ candidate.pane = pane ∧
      ∀ other, Nearest layout current direction other →
        offset direction current.rect candidate.rect ≤ offset direction current.rect other.rect ∧
          (offset direction current.rect candidate.rect = offset direction current.rect other.rect →
            (compare pane other.pane).isLE) := by
  obtain ⟨hmem, hle⟩ := minBy_spec compareScored h
  obtain ⟨candidate, hcandidate, rfl, rfl⟩ := (mem_scoredPanes_iff hcells hcurrent).mp hmem
  have hcompare : ∀ other, Neighbour layout current direction other →
      gap direction current.rect candidate.rect < gap direction current.rect other.rect ∨
        gap direction current.rect candidate.rect = gap direction current.rect other.rect ∧
          (offset direction current.rect candidate.rect < offset direction current.rect other.rect ∨
            offset direction current.rect candidate.rect = offset direction current.rect other.rect ∧
              (compare candidate.pane other.pane).isLE) := by
    intro other hother
    have hother := hle _ ((mem_scoredPanes_iff hcells hcurrent).mpr ⟨other, hother, rfl, rfl⟩)
    exact isLE_compareScored_iff.mp hother
  refine ⟨candidate, ⟨hcandidate, ?_⟩, rfl, ?_⟩
  · intro other hother
    have hcases := hcompare other hother
    omega
  · intro other hother
    have hleast := hother.least candidate hcandidate
    rcases hcompare other hother.toNeighbour with hlt | ⟨-, hlt | ⟨heq, hpane⟩⟩
    · omega
    · exact ⟨hlt.le, fun heq => absurd heq hlt.ne⟩
    · exact ⟨heq.le, fun _ => hpane⟩

/-- **A pane is selected if there is one on that side**, and it is on that side. -/
theorem minBy_scoredPanes_eq_none_iff :
    minBy compareScored (scoredPanes layout current direction) = none ↔
      ¬∃ candidate, Neighbour layout current direction candidate := by
  rw [minBy_eq_none_iff, List.eq_nil_iff_forall_not_mem, not_exists]
  constructor
  · intro hnone candidate hcandidate
    exact hnone _ ((mem_scoredPanes_iff hcells hcurrent).mpr ⟨candidate, hcandidate, rfl, rfl⟩)
  · rintro hnone ⟨score, pane⟩ hmem
    obtain ⟨candidate, hcandidate, -⟩ := (mem_scoredPanes_iff hcells hcurrent).mp hmem
    exact hnone candidate hcandidate

end Layout

/-! ### What is selected -/

/-- If a nearest pane is beside the current one, one that is so is selected. -/
def GoesBeside (layout : LayoutState) (current : LayoutPane) (direction : PaneDirection)
    (went : Went) : Prop :=
  (∃ beside, NearestBeside layout current direction beside) →
    ∃ beside, NearestBeside layout current direction beside ∧ went = .selected beside.pane

/-- Where there is a nearest pane beside the current one and another at a corner, no identifier of a
corner is less than all of those beside. -/
def CornersYield (layout : LayoutState) (current : LayoutPane) (direction : PaneDirection) : Prop :=
  (∃ beside, NearestBeside layout current direction beside) →
    ∀ corner, NearestCorner layout current direction corner →
      ∃ beside, NearestBeside layout current direction beside ∧
        (compare beside.pane corner.pane).isLE

/-- **A pane on that side is selected if there is one**, and one that shares a border with the current pane
exactly if no nearest pane at a corner has a lesser identifier than all that do. -/
theorem a_pane_beside_is_selected_iff {state : FederationState} {selected : Option PaneId}
    {layout : LayoutState} {current : LayoutPane} (direction : PaneDirection)
    (hplace : placeOf state selected = some (layout, current))
    (hcells : ∀ pane ∈ layout.panes, (LayoutCells pane.rect).Nonempty) :
    ((∃ candidate, Neighbour layout current direction candidate) →
      ∃ candidate, Neighbour layout current direction candidate ∧
        selectNeighborPane state selected direction = .selected candidate.pane) ∧
    ((¬∃ candidate, Neighbour layout current direction candidate) →
      selectNeighborPane state selected direction =
        .told s!"Herdr: no pane to the {direction.label}") ∧
    (GoesBeside layout current direction (selectNeighborPane state selected direction) ↔
      CornersYield layout current direction) := by
  have hcurrent := mem_of_placeOf hplace
  rw [selectNeighborPane_of_placeOf hplace]
  cases hleast : minBy compareScored (scoredPanes layout current direction) with
  | none =>
    have hnone := (minBy_scoredPanes_eq_none_iff hcells hcurrent).mp hleast
    have hbeside : ¬∃ beside, NearestBeside layout current direction beside := by
      rintro ⟨beside, hbeside⟩
      exact hnone ⟨beside, hbeside.1.toNeighbour⟩
    exact ⟨fun h => absurd h hnone, fun _ => rfl,
      iff_of_true (fun h => absurd h hbeside) fun h => absurd h hbeside⟩
  | some found =>
    obtain ⟨score, pane⟩ := found
    obtain ⟨candidate, hcandidate, rfl, hmin⟩ := minBy_scoredPanes hcells hcurrent hleast
    refine ⟨fun _ => ⟨candidate, hcandidate.toNeighbour, rfl⟩,
      fun h => absurd ⟨candidate, hcandidate.toNeighbour⟩ h, ?_⟩
    refine forall_congr' fun ⟨near, hnear⟩ => ?_
    -- a pane beside is off by nothing, so the selected one is too
    have hoffset : offset direction current.rect candidate.rect = 0 := by
      have hle := (hmin near hnear.1).1
      rw [offset_of_beside hnear.2] at hle
      exact Nat.le_zero.mp hle
    have hless : ∀ other, Nearest layout current direction other →
        offset direction current.rect other.rect = 0 →
        (compare candidate.pane other.pane).isLE :=
      fun other hother hzero => (hmin other hother).2 (hoffset.trans hzero.symm)
    constructor
    · rintro ⟨beside, hbeside, hselected⟩ corner ⟨hcorner, hzero, -⟩
      refine ⟨beside, hbeside, ?_⟩
      rw [← Went.selected.inj hselected]
      exact hless corner hcorner hzero
    · intro hyield
      by_cases hbeside : Beside direction current.rect candidate.rect
      · exact ⟨candidate, ⟨hcandidate, hbeside⟩, rfl⟩
      · obtain ⟨beside, hother, hle⟩ := hyield candidate ⟨hcandidate, hoffset, hbeside⟩
        refine ⟨beside, hother, congrArg Went.selected ?_⟩
        have hge := hless beside hother.1 (offset_of_beside hother.2)
        exact LawfulEqCmp.compare_eq_iff_eq.mp (OrientedCmp.isLE_antisymm hge hle)

/-- A pane of the session that the runs below are about. -/
def paneOf (resource : String) : PaneId := ⟨"box", "main", resource⟩

/-- A tab of four equal panes, two above two. -/
def gridOf (pane beside below corner : String) : LayoutState where
  workspace := ⟨"box", "main", "work"⟩
  tab := ⟨"box", "main", "tab"⟩
  zoomed := false
  area := ⟨0, 0, 80, 24⟩
  focusedPane := paneOf pane
  panes := [⟨paneOf pane, true, ⟨0, 0, 40, 12⟩⟩, ⟨paneOf beside, false, ⟨40, 0, 40, 12⟩⟩,
    ⟨paneOf below, false, ⟨0, 12, 40, 12⟩⟩, ⟨paneOf corner, false, ⟨40, 12, 40, 12⟩⟩]

/-- A live session with one laid out tab. -/
def laidOut (layout : LayoutState) : FederationState :=
  let pane := layout.focusedPane
  let live := App.liveTarget pane.targetSession 1 none []
  let snapshot := live.snapshot.map fun snapshot =>
    { snapshot with
      panes := (∅ : ExtTreeMap PaneId PaneState).insert pane
        ⟨pane, some layout.workspace, some layout.tab, none, none, true, none, none, none⟩
      layouts := (∅ : ExtTreeMap TabId LayoutState).insert layout.tab layout }
  ⟨0, (∅ : ExtTreeMap TargetSession TargetRuntimeState).insert pane.targetSession
    { live with snapshot := snapshot }⟩

theorem placeOf_laidOut (layout : LayoutState) :
    placeOf (laidOut layout) (some layout.focusedPane) =
      (layout.panes.find? fun pane => pane.pane = layout.focusedPane).map (layout, ·) := by
  simp [placeOf, laidOut, selectedSnapshotAndPane, App.liveTarget, Option.map_eq_bind]

theorem layoutCells_gridOf {pane beside below corner : String} :
    ∀ layoutPane ∈ (gridOf pane beside below corner).panes, (LayoutCells layoutPane.rect).Nonempty := by
  intro layoutPane hpane
  simp only [gridOf, List.mem_cons, List.not_mem_nil, or_false] at hpane
  rcases hpane with rfl | rfl | rfl | rfl
  · exact ⟨(0, 0), by simp [LayoutCells]⟩
  · exact ⟨(40, 0), by simp [LayoutCells]⟩
  · exact ⟨(0, 12), by simp [LayoutCells]⟩
  · exact ⟨(40, 12), by simp [LayoutCells]⟩

theorem nearestBeside_gridOf {pane beside below corner : String} (h : paneOf beside ≠ paneOf pane) :
    NearestBeside (gridOf pane beside below corner) ⟨paneOf pane, true, ⟨0, 0, 40, 12⟩⟩ .right
      ⟨paneOf beside, false, ⟨40, 0, 40, 12⟩⟩ := by
  refine ⟨⟨⟨by simp [gridOf], h, ?_⟩, fun other _ => Nat.zero_le _⟩, (0, 0), by simp [LayoutCells],
    (40, 0), by simp [LayoutCells], rfl⟩
  intro own hown cell hcell
  rw [mem_layoutCells] at hown hcell
  exact hown.1.2.trans_le hcell.1.1

/-- Four panes of which the one beside has the lesser identifier. -/
theorem pane_beside_is_selected :
    ∃ beside, NearestBeside (gridOf "p1" "p2" "p3" "p4") ⟨paneOf "p1", true, ⟨0, 0, 40, 12⟩⟩ .right
        beside ∧
      selectNeighborPane (laidOut (gridOf "p1" "p2" "p3" "p4")) (some (paneOf "p1")) .right =
        .selected beside.pane := by
  have hplace : placeOf (laidOut (gridOf "p1" "p2" "p3" "p4")) (some (paneOf "p1")) =
      some (gridOf "p1" "p2" "p3" "p4", ⟨paneOf "p1", true, ⟨0, 0, 40, 12⟩⟩) :=
    placeOf_laidOut _
  have hbeside := @nearestBeside_gridOf "p1" "p2" "p3" "p4" (by decide)
  refine (a_pane_beside_is_selected_iff .right hplace layoutCells_gridOf).2.2.mpr ?_
    ⟨_, hbeside⟩
  intro _ corner hcorner
  refine ⟨_, hbeside, ?_⟩
  have hmem := hcorner.1.mem
  have hother := hcorner.1.other
  simp only [gridOf, List.mem_cons, List.not_mem_nil, or_false] at hmem
  rcases hmem with rfl | rfl | rfl | rfl
  · exact absurd rfl hother
  · decide
  · decide
  · decide

/-- The pane across the corner has a lesser identifier than the one beside, and is selected. -/
theorem pane_at_corner_is_selected :
    ¬∀ (state : FederationState) (selected : Option PaneId) (layout : LayoutState)
      (current : LayoutPane), placeOf state selected = some (layout, current) →
      (∀ pane ∈ layout.panes, (LayoutCells pane.rect).Nonempty) →
      (layout.panes.Pairwise fun pane other =>
        Disjoint (LayoutCells pane.rect) (LayoutCells other.rect)) →
      ∀ direction, GoesBeside layout current direction (selectNeighborPane state selected direction) := by
  intro h
  have hplace : placeOf (laidOut (gridOf "p1" "p4" "p3" "p2")) (some (paneOf "p1")) =
      some (gridOf "p1" "p4" "p3" "p2", ⟨paneOf "p1", true, ⟨0, 0, 40, 12⟩⟩) :=
    placeOf_laidOut _
  have hselected : selectNeighborPane (laidOut (gridOf "p1" "p4" "p3" "p2")) (some (paneOf "p1"))
      .right = .selected (paneOf "p2") := by
    rw [selectNeighborPane_of_placeOf hplace]
    rfl
  have hbeside := @nearestBeside_gridOf "p1" "p4" "p3" "p2" (by decide)
  have hdisjoint : (gridOf "p1" "p4" "p3" "p2").panes.Pairwise fun pane other =>
      Disjoint (LayoutCells pane.rect) (LayoutCells other.rect) := by
    simp only [gridOf, List.pairwise_cons, List.mem_cons, List.not_mem_nil, or_false, forall_eq_or_imp,
      forall_eq, false_imp_iff, implies_true, List.Pairwise.nil, and_true, Set.disjoint_left,
      mem_layoutCells]
    have hforty : (40 : UInt16).toNat = 40 := rfl
    have htwelve : (12 : UInt16).toNat = 12 := rfl
    simp only [hforty, htwelve, UInt16.toNat_zero]
    refine ⟨⟨?_, ?_, ?_⟩, ⟨?_, ?_⟩, ?_⟩ <;>
      · rintro ⟨column, row⟩ hcell hother
        omega
  obtain ⟨other, ⟨hnearest, own, hown, cell, hcell, hrow⟩, hother⟩ :=
    h _ _ _ _ hplace layoutCells_gridOf hdisjoint .right ⟨_, hbeside⟩
  have hpane := Went.selected.inj (hselected.symm.trans hother)
  have hmem := hnearest.mem
  simp only [gridOf, List.mem_cons, List.not_mem_nil, or_false] at hmem
  rcases hmem with rfl | rfl | rfl | rfl
  · exact absurd hpane (by decide)
  · exact absurd hpane (by decide)
  · exact absurd hpane (by decide)
  · rw [mem_layoutCells] at hown hcell
    simp at hown hcell
    omega

end Tui

end SuperHerdr
