import SuperHerdr.Library.Tilings
import SuperHerdr.Tui.Moves

/-!
# Layouts on the screen

Herdr lays the panes of a tab out on an area of its own, and the terminal client draws them on another.
Each edge of a pane is scaled and rounded for itself, and a pane that shrinks to nothing is left out. A
cell of the screen still lies in the pane that the cell it comes from lies in
(`contains_scaleLayoutRect_iff`), so panes that tile the layout tile the screen
(`scaled_layouts_tile`).
-/

namespace SuperHerdr

namespace Tui

open Tilings

/-! ### Rectangles -/

/-- A subtraction that ends at zero. -/
def saturatingSub (a b : UInt16) : UInt16 := a - min a b

/-- An addition that ends at the largest value. -/
def saturatingAdd (a b : UInt16) : UInt16 := UInt16.ofNat (min (a.toNat + b.toNat) 65535)

structure Position where
  x : UInt16
  y : UInt16
deriving DecidableEq

structure Rect where
  x : UInt16
  y : UInt16
  width : UInt16
  height : UInt16
deriving DecidableEq

namespace Rect

/-- A rectangle, cut so that its edges are coordinates. -/
def new (x y width height : UInt16) : Rect :=
  ⟨x, y, min width (65535 - x), min height (65535 - y)⟩

def right (self : Rect) : UInt16 := saturatingAdd self.x self.width

def bottom (self : Rect) : UInt16 := saturatingAdd self.y self.height

def contains (self : Rect) (position : Position) : Bool :=
  self.x ≤ position.x && position.x < self.right && self.y ≤ position.y && position.y < self.bottom

end Rect

/-! ### Scaling -/

def scaleEdge (offset sourceLength destinationLength : UInt16) : UInt16 :=
  (offset.toUInt32 * destinationLength.toUInt32 / sourceLength.toUInt32).toUInt16

def scaleLayoutRect (source pane : LayoutRect) (destination : Rect) : Option Rect :=
  if source.width = 0 ∨ source.height = 0 ∨ destination.width = 0 ∨ destination.height = 0 then none
  else
    let left := scaleEdge (saturatingSub pane.x source.x) source.width destination.width
    let right := scaleEdge (saturatingAdd (saturatingSub pane.x source.x) pane.width) source.width
      destination.width
    let top := scaleEdge (saturatingSub pane.y source.y) source.height destination.height
    let bottom := scaleEdge (saturatingAdd (saturatingSub pane.y source.y) pane.height) source.height
      destination.height
    let left := min left destination.width
    let right := min right destination.width
    let top := min top destination.height
    let bottom := min bottom destination.height
    if left < right ∧ top < bottom then
      some (.new (saturatingAdd destination.x left) (saturatingAdd destination.y top) (right - left)
        (bottom - top))
    else none

/-- The panes that are drawn, and where. -/
def visiblePaneAreas (state : FederationState) (selected : Option PaneId) (destination : Rect) :
    List (PaneId × Rect) :=
  match selectedSnapshotAndPane state selected, selected with
  | some (snapshot, selectedState), some selected =>
      match selectedState.tab with
      | none => [(selected, destination)]
      | some tab =>
          match snapshot.layouts[tab]? with
          | none => [(selected, destination)]
          | some layout =>
              if layout.zoomed then [(selected, destination)]
              else
                let panes := (layout.panes.filter fun pane => snapshot.panes.contains pane.pane).filterMap
                  fun pane => (scaleLayoutRect layout.area pane.rect destination).map (pane.pane, ·)
                if panes = [] then [(selected, destination)] else panes
  | _, _ => []

/-- `Block::inner` of a pane's block, which has a border all around and a blank on either side. -/
def paneInner (area : Rect) : Rect :=
  let x := min (saturatingAdd area.x 1) area.right
  let width := saturatingSub area.width 1
  let y := min (saturatingAdd area.y 1) area.bottom
  let height := saturatingSub area.height 1
  let width := saturatingSub width 1
  let height := saturatingSub height 1
  ⟨saturatingAdd x 1, y, saturatingSub width 2, height⟩

/-- The pane under the pointer, the cell of it and the report for it. -/
def mousePanePosition (state : FederationState) (self : App) (mouse : MouseInput)
    (terminalArea : Rect) : Option (PaneId × CellPosition × MouseInput) :=
  if mouse.column = 0 ∨ mouse.row = 0 then none
  else
    let outer : Position := ⟨mouse.column - 1, mouse.row - 1⟩
    (visiblePaneAreas state self.selectedPane terminalArea).findSome? fun (pane, area) =>
      let inner := paneInner area
      if inner.contains outer then
        let position : CellPosition := ⟨(outer.y - inner.y).toNat, outer.x - inner.x⟩
        some (pane, position,
          { mouse with
            column := position.column + 1
            row := saturatingAdd (outer.y - inner.y) 1 })
      else none

/-! ### Cells -/

/-- The cells of a layout's rectangle. -/
def LayoutCells (rect : LayoutRect) : Set (ℕ × ℕ) :=
  Set.Ico rect.x.toNat (rect.x.toNat + rect.width.toNat) ×ˢ
    Set.Ico rect.y.toNat (rect.y.toNat + rect.height.toNat)

namespace Rect

def cells (self : Rect) : Set Position := {position | self.contains position}

/-- A rectangle that is not empty and has its edges among the coordinates. -/
structure Proper (rect : Rect) : Prop where
  width_pos : 0 < rect.width
  height_pos : 0 < rect.height
  fits_width : rect.x.toNat + rect.width.toNat ≤ 65535
  fits_height : rect.y.toNat + rect.height.toNat ≤ 65535

end Rect

/-- Panes that lie within an area that is not empty, and do not overlap. -/
structure Arranged (area : LayoutRect) (panes : List LayoutRect) : Prop where
  width_pos : 0 < area.width
  height_pos : 0 < area.height
  inside : ∀ pane ∈ panes, LayoutCells pane ⊆ LayoutCells area
  disjoint : panes.Pairwise fun pane other => Disjoint (LayoutCells pane) (LayoutCells other)

theorem Arranged.sublist {area : LayoutRect} {panes kept : List LayoutRect} (h : Arranged area panes)
    (hkept : kept.Sublist panes) : Arranged area kept where
  width_pos := h.width_pos
  height_pos := h.height_pos
  inside := fun pane hpane => h.inside pane (hkept.subset hpane)
  disjoint := h.disjoint.sublist hkept

/-- Panes that leave nothing of the area. -/
def Covered (area : LayoutRect) (panes : List LayoutRect) : Prop :=
  ∀ cell ∈ LayoutCells area, ∃ pane ∈ panes, cell ∈ LayoutCells pane

/-- The cell of the layout that a cell of the screen comes from. -/
def originCell (source : LayoutRect) (destination : Rect) (position : Position) : ℕ × ℕ :=
  (source.x.toNat + origin source.width.toNat destination.width.toNat
      (position.x.toNat - destination.x.toNat),
    source.y.toNat + origin source.height.toNat destination.height.toNat
      (position.y.toNat - destination.y.toNat))

/-! ### Arithmetic in sixteen bits -/

@[simp] theorem toNat_min (a b : UInt16) : (min a b).toNat = min a.toNat b.toNat := by
  show (if a ≤ b then a else b).toNat = _
  rw [Nat.min_def]
  simp only [UInt16.le_iff_toNat_le]
  split <;> rfl

@[simp] theorem toNat_saturatingSub (a b : UInt16) : (saturatingSub a b).toNat = a.toNat - b.toNat := by
  have hle : min a b ≤ a := by
    rw [UInt16.le_iff_toNat_le, toNat_min]
    exact Nat.min_le_left _ _
  rw [saturatingSub, UInt16.toNat_sub_of_le _ _ hle, toNat_min]
  omega

@[simp] theorem toNat_saturatingAdd (a b : UInt16) :
    (saturatingAdd a b).toNat = min (a.toNat + b.toNat) 65535 := by
  rw [saturatingAdd, UInt16.toNat_ofNat', Nat.mod_eq_of_lt]
  omega

theorem toNat_scaleEdge {offset source destination : UInt16} (hsource : 0 < source)
    (h : offset ≤ source) :
    (min (scaleEdge offset source destination) destination).toNat =
      scale source.toNat destination.toNat offset.toNat := by
  rw [UInt16.lt_iff_toNat_lt] at hsource
  rw [UInt16.le_iff_toNat_le] at h
  have hle : scale source.toNat destination.toNat offset.toNat ≤ destination.toNat :=
    scale_le hsource h
  have hproduct : offset.toNat * destination.toNat < 2 ^ 32 := by
    calc offset.toNat * destination.toNat < 2 ^ 16 * 2 ^ 16 :=
          Nat.mul_lt_mul'' offset.toNat_lt destination.toNat_lt
      _ = 2 ^ 32 := rfl
  have hdestination := destination.toNat_lt
  have hedge : (scaleEdge offset source destination).toNat =
      scale source.toNat destination.toNat offset.toNat := by
    rw [scaleEdge, UInt32.toNat_toUInt16, UInt32.toNat_div, UInt32.toNat_mul, UInt16.toNat_toUInt32,
      UInt16.toNat_toUInt32, UInt16.toNat_toUInt32, Nat.mod_eq_of_lt hproduct, ← scale,
      Nat.mod_eq_of_lt (by omega)]
  rw [toNat_min, hedge, Nat.min_eq_left hle]

theorem contains_iff {rect : Rect} {position : Position} :
    rect.contains position ↔
      (rect.x.toNat ≤ position.x.toNat ∧
        position.x.toNat < min (rect.x.toNat + rect.width.toNat) 65535) ∧
      rect.y.toNat ≤ position.y.toNat ∧
        position.y.toNat < min (rect.y.toNat + rect.height.toNat) 65535 := by
  simp only [Rect.contains, Rect.right, Rect.bottom, Bool.and_eq_true, decide_eq_true_eq,
    UInt16.le_iff_toNat_le, UInt16.lt_iff_toNat_lt, toNat_saturatingAdd]
  tauto

/-! ### Where a pane is drawn -/

/-- A rectangle with a cell lies in another along each axis. -/
theorem bounds_of_subset {pane area : LayoutRect} (hinside : LayoutCells pane ⊆ LayoutCells area)
    (hwidth : 0 < pane.width.toNat) (hheight : 0 < pane.height.toNat) :
    (area.x.toNat ≤ pane.x.toNat ∧
      pane.x.toNat + pane.width.toNat ≤ area.x.toNat + area.width.toNat) ∧
    area.y.toNat ≤ pane.y.toNat ∧
      pane.y.toNat + pane.height.toNat ≤ area.y.toNat + area.height.toNat := by
  have hfirst : (pane.x.toNat, pane.y.toNat) ∈ LayoutCells area :=
    hinside ⟨⟨le_rfl, by simp only; omega⟩, le_rfl, by simp only; omega⟩
  have hlast : (pane.x.toNat + pane.width.toNat - 1, pane.y.toNat + pane.height.toNat - 1) ∈
      LayoutCells area :=
    hinside ⟨⟨by simp only; omega, by simp only; omega⟩, by simp only; omega, by simp only; omega⟩
  simp only [LayoutCells, Set.mem_prod, Set.mem_Ico] at hfirst hlast
  omega

theorem scaleLayoutRect_of_empty (source : LayoutRect) {pane : LayoutRect} (destination : Rect)
    (h : pane.width.toNat = 0 ∨ pane.height.toNat = 0) :
    scaleLayoutRect source pane destination = none := by
  have hself : ∀ a b : UInt16, b.toNat = 0 → saturatingAdd a b = a := by
    intro a b hb
    rw [← UInt16.toNat_inj, toNat_saturatingAdd, hb]
    have ha := a.toNat_lt
    omega
  have hirrefl : ∀ a : UInt16, ¬a < a := fun a => UInt16.lt_irrefl a
  rw [scaleLayoutRect]
  split
  · rfl
  · rcases h with h | h <;> simp [hself _ _ h, hirrefl]

/-- The edges of a pane along one axis. -/
theorem toNat_edges {start length paneStart paneLength : UInt16} (destination : UInt16)
    (hlength : 0 < length) (h : start.toNat ≤ paneStart.toNat ∧
      paneStart.toNat + paneLength.toNat ≤ start.toNat + length.toNat) :
    (min (scaleEdge (saturatingSub paneStart start) length destination) destination).toNat =
        scale length.toNat destination.toNat (paneStart.toNat - start.toNat) ∧
      (min (scaleEdge (saturatingAdd (saturatingSub paneStart start) paneLength) length destination)
          destination).toNat =
        scale length.toNat destination.toNat (paneStart.toNat - start.toNat + paneLength.toNat) ∧
      scale length.toNat destination.toNat (paneStart.toNat - start.toNat + paneLength.toNat) ≤
        destination.toNat := by
  have hsize := length.toNat_lt
  have hpos := UInt16.lt_iff_toNat_lt.mp hlength
  have hfirst : (saturatingSub paneStart start).toNat = paneStart.toNat - start.toNat :=
    toNat_saturatingSub _ _
  have hlast : (saturatingAdd (saturatingSub paneStart start) paneLength).toNat =
      paneStart.toNat - start.toNat + paneLength.toNat := by
    rw [toNat_saturatingAdd, hfirst]
    omega
  refine ⟨?_, ?_, scale_le hpos (by omega)⟩
  · rw [toNat_scaleEdge hlength (UInt16.le_iff_toNat_le.mpr (by omega)), hfirst]
  · rw [toNat_scaleEdge hlength (UInt16.le_iff_toNat_le.mpr (by omega)), hlast]

/-- A rectangle between two edges of a proper one is not cut. -/
theorem toNat_placed {start length left right : UInt16} (hfits : start.toNat + length.toNat ≤ 65535)
    (hlt : left.toNat < right.toNat) (hle : right.toNat ≤ length.toNat) :
    (saturatingAdd start left).toNat = start.toNat + left.toNat ∧
      (min (right - left) (65535 - saturatingAdd start left)).toNat = right.toNat - left.toNat := by
  have hstart : (saturatingAdd start left).toNat = start.toNat + left.toNat := by
    rw [toNat_saturatingAdd]
    omega
  have hmax : (65535 : UInt16).toNat = 65535 := rfl
  have hleft : left ≤ right := UInt16.le_iff_toNat_le.mpr (by omega)
  have hroom : saturatingAdd start left ≤ 65535 := UInt16.le_iff_toNat_le.mpr (by omega)
  refine ⟨hstart, ?_⟩
  rw [toNat_min, UInt16.toNat_sub_of_le _ _ hleft, UInt16.toNat_sub_of_le _ _ hroom, hstart, hmax]
  omega

section Scaled

variable {source pane : LayoutRect} {destination : Rect} (hproper : destination.Proper)
  (hwidth : 0 < source.width) (hheight : 0 < source.height)
  (hinside : LayoutCells pane ⊆ LayoutCells source)
include hproper hwidth hheight hinside

/-- The edges a pane with a cell is drawn between. -/
theorem scaleLayoutRect_cases (hpane : 0 < pane.width.toNat ∧ 0 < pane.height.toNat) :
    let left := scale source.width.toNat destination.width.toNat (pane.x.toNat - source.x.toNat)
    let right := scale source.width.toNat destination.width.toNat
      (pane.x.toNat - source.x.toNat + pane.width.toNat)
    let top := scale source.height.toNat destination.height.toNat (pane.y.toNat - source.y.toNat)
    let bottom := scale source.height.toNat destination.height.toNat
      (pane.y.toNat - source.y.toNat + pane.height.toNat)
    (right ≤ destination.width.toNat ∧ bottom ≤ destination.height.toNat) ∧
      (scaleLayoutRect source pane destination = none ∧ ¬(left < right ∧ top < bottom) ∨
        ∃ rect, scaleLayoutRect source pane destination = some rect ∧ (left < right ∧ top < bottom) ∧
          (rect.x.toNat = destination.x.toNat + left ∧ rect.width.toNat = right - left) ∧
          rect.y.toNat = destination.y.toNat + top ∧ rect.height.toNat = bottom - top) := by
  intro left right top bottom
  obtain ⟨hx, hy⟩ := bounds_of_subset hinside hpane.1 hpane.2
  obtain ⟨hleft, hright, hrightle⟩ := toNat_edges destination.width hwidth hx
  obtain ⟨htop, hbottom, hbottomle⟩ := toNat_edges destination.height hheight hy
  have hnonempty : ¬(source.width = 0 ∨ source.height = 0 ∨ destination.width = 0 ∨
      destination.height = 0) := by
    have hne : ∀ a : UInt16, 0 < a → a ≠ 0 := by
      rintro a ha rfl
      exact UInt16.lt_irrefl _ ha
    simp only [not_or]
    exact ⟨hne _ hwidth, hne _ hheight, hne _ hproper.width_pos, hne _ hproper.height_pos⟩
  refine ⟨⟨hrightle, hbottomle⟩, ?_⟩
  rw [scaleLayoutRect, if_neg hnonempty]
  simp only [UInt16.lt_iff_toNat_lt, hleft, hright, htop, hbottom]
  split
  · next hlt =>
    refine .inr ⟨_, rfl, hlt, ?_⟩
    have hx := toNat_placed hproper.fits_width (hleft.trans_lt (hlt.1.trans_eq hright.symm))
      (hright.trans_le hrightle)
    have hy := toNat_placed hproper.fits_height (htop.trans_lt (hlt.2.trans_eq hbottom.symm))
      (hbottom.trans_le hbottomle)
    rw [hleft, hright] at hx
    rw [htop, hbottom] at hy
    exact ⟨hx, hy⟩
  · next hlt => exact .inl ⟨rfl, hlt⟩

/-- **Which cells a pane is drawn on**: those that come from its own. -/
theorem contains_scaleLayoutRect_iff {position : Position} (h : destination.contains position) :
    (scaleLayoutRect source pane destination).any (·.contains position) = true ↔
      originCell source destination position ∈ LayoutCells pane := by
  by_cases hpane : 0 < pane.width.toNat ∧ 0 < pane.height.toNat
  · obtain ⟨⟨hx, -⟩, hy, -⟩ := bounds_of_subset hinside hpane.1 hpane.2
    obtain ⟨⟨hright, hbottom⟩, hcases⟩ :=
      scaleLayoutRect_cases hproper hwidth hheight hinside hpane
    obtain ⟨⟨hpx, hpw⟩, hpy, hph⟩ := contains_iff.mp h
    have hfitsw := hproper.fits_width
    have hfitsh := hproper.fits_height
    have hcolumn : _ ↔ origin source.width.toNat destination.width.toNat
          (position.x.toNat - destination.x.toNat) ∈
        Set.Ico (pane.x.toNat - source.x.toNat)
          (pane.x.toNat - source.x.toNat + pane.width.toNat) :=
      mem_Ico_scale_iff (UInt16.lt_iff_toNat_lt.mp hwidth)
        (UInt16.lt_iff_toNat_lt.mp hproper.width_pos)
    have hrow : _ ↔ origin source.height.toNat destination.height.toNat
          (position.y.toNat - destination.y.toNat) ∈
        Set.Ico (pane.y.toNat - source.y.toNat)
          (pane.y.toNat - source.y.toNat + pane.height.toNat) :=
      mem_Ico_scale_iff (UInt16.lt_iff_toNat_lt.mp hheight)
        (UInt16.lt_iff_toNat_lt.mp hproper.height_pos)
    simp only [Set.mem_Ico] at hcolumn hrow
    simp only [LayoutCells, originCell, Set.mem_prod, Set.mem_Ico]
    rcases hcases with ⟨hnone, hempty⟩ | ⟨rect, hrect, -, ⟨hrx, hrw⟩, hry, hrh⟩
    · rw [hnone]
      refine iff_of_false (by simp) fun hmem => hempty ?_
      have hcolumn := hcolumn.mpr (by omega)
      have hrow := hrow.mpr (by omega)
      omega
    · rw [hrect, Option.any_some, contains_iff, hrx, hrw, hry, hrh]
      omega
  · rw [scaleLayoutRect_of_empty source destination (by omega)]
    refine iff_of_false (by simp) fun hmem => hpane ?_
    simp only [LayoutCells, Set.mem_prod, Set.mem_Ico] at hmem
    omega

theorem cells_subset {rect : Rect} (h : scaleLayoutRect source pane destination = some rect) :
    rect.cells ⊆ destination.cells := by
  by_cases hpane : 0 < pane.width.toNat ∧ 0 < pane.height.toNat
  · obtain ⟨⟨hright, hbottom⟩, hcases⟩ :=
      scaleLayoutRect_cases hproper hwidth hheight hinside hpane
    rcases hcases with ⟨hnone, -⟩ | ⟨other, hother, hlt, ⟨hx, hw⟩, hy, hh⟩
    · rw [hnone] at h
      cases h
    · obtain rfl := Option.some.inj (hother.symm.trans h)
      intro position hmem
      have hmem := contains_iff.mp hmem
      have hfitsw := hproper.fits_width
      have hfitsh := hproper.fits_height
      refine contains_iff.mpr ?_
      omega
  · rw [scaleLayoutRect_of_empty source destination (by omega)] at h
    cases h

end Scaled

/-! ### Layouts that are scaled -/

/-- The rectangles that panes are drawn on. -/
def scaledRects (area : LayoutRect) (panes : List LayoutRect) (destination : Rect) : List Rect :=
  panes.filterMap fun pane => scaleLayoutRect area pane destination

section Arranged

variable {area : LayoutRect} {panes : List LayoutRect} {destination : Rect}
  (hproper : destination.Proper) (harranged : Arranged area panes)
include hproper harranged

theorem subset_of_mem_scaledRects {rect : Rect} (h : rect ∈ scaledRects area panes destination) :
    rect.cells ⊆ destination.cells := by
  obtain ⟨pane, hpane, hrect⟩ := List.mem_filterMap.mp h
  exact cells_subset hproper harranged.width_pos harranged.height_pos
    (harranged.inside pane hpane) hrect

/-- **Panes that do not overlap are drawn so.** -/
theorem pairwise_scaledRects :
    (scaledRects area panes destination).Pairwise fun rect other => Disjoint rect.cells other.cells := by
  rw [scaledRects, List.pairwise_filterMap]
  refine harranged.disjoint.imp_of_mem fun {pane other} hpane hother hdisjoint rect hrect next hnext => ?_
  have horigin : ∀ {pane : LayoutRect} {rect : Rect} {position : Position}, pane ∈ panes →
      scaleLayoutRect area pane destination = some rect → position ∈ rect.cells →
      originCell area destination position ∈ LayoutCells pane := by
    intro pane rect position hpane hrect hmem
    have hinside := harranged.inside pane hpane
    have hdestination := cells_subset hproper harranged.width_pos harranged.height_pos hinside hrect hmem
    rw [← contains_scaleLayoutRect_iff hproper harranged.width_pos harranged.height_pos hinside
      hdestination, hrect]
    exact hmem
  rw [Set.disjoint_left] at hdisjoint ⊢
  exact fun position hfirst hsecond =>
    hdisjoint (horigin hpane hrect hfirst) (horigin hother hnext hsecond)

theorem excluding_scaledRects (position : Position) :
    (scaledRects area panes destination).Pairwise fun rect other =>
      ¬(rect.contains position ∧ other.contains position) := by
  refine (pairwise_scaledRects hproper harranged).imp ?_
  rintro rect other hdisjoint ⟨hfirst, hsecond⟩
  exact Set.disjoint_left.mp hdisjoint hfirst hsecond

/-- **Panes that leave nothing of the layout leave nothing of the screen.** -/
theorem exists_mem_scaledRects (hcovered : Covered area panes) {position : Position}
    (h : destination.contains position) :
    ∃ rect ∈ scaledRects area panes destination, rect.contains position := by
  have hcell : originCell area destination position ∈ LayoutCells area := by
    obtain ⟨hx, hy⟩ := contains_iff.mp h
    have hcolumn := origin_lt (UInt16.lt_iff_toNat_lt.mp harranged.width_pos)
      (show position.x.toNat - destination.x.toNat < destination.width.toNat by omega)
    have hrow := origin_lt (UInt16.lt_iff_toNat_lt.mp harranged.height_pos)
      (show position.y.toNat - destination.y.toNat < destination.height.toNat by omega)
    exact ⟨⟨Nat.le_add_right _ _, Nat.add_lt_add_left hcolumn _⟩, Nat.le_add_right _ _,
      Nat.add_lt_add_left hrow _⟩
  obtain ⟨pane, hpane, hmem⟩ := hcovered _ hcell
  have hany := (contains_scaleLayoutRect_iff hproper harranged.width_pos harranged.height_pos
    (harranged.inside pane hpane) h).mpr hmem
  cases hrect : scaleLayoutRect area pane destination with
  | none =>
    rw [hrect] at hany
    cases hany
  | some rect =>
    rw [hrect, Option.any_some] at hany
    exact ⟨rect, List.mem_filterMap.mpr ⟨pane, hpane, hrect⟩, hany⟩

end Arranged

/-! ### Panes on the screen -/

/-- The layout of the tab that the selected pane is in. -/
def layoutOf (state : FederationState) (selected : Option PaneId) : Option LayoutState := do
  let (snapshot, pane) ← selectedSnapshotAndPane state selected
  let tab ← pane.tab
  snapshot.layouts[tab]?

/-- The rectangles of a layout's panes. -/
def paneRects (layout : LayoutState) : List LayoutRect := layout.panes.map (·.rect)

/-- The rectangles of those that are there. -/
def shownRects (snapshot : NormalizedSnapshot) (layout : LayoutState) : List LayoutRect :=
  (layout.panes.filter fun pane => snapshot.panes.contains pane.pane).map (·.rect)

theorem shownRects_sublist (snapshot : NormalizedSnapshot) (layout : LayoutState) :
    (shownRects snapshot layout).Sublist (paneRects layout) :=
  List.filter_sublist.map _

/-- Each pane of the layout is there. -/
def PanesExist (snapshot : NormalizedSnapshot) (layout : LayoutState) : Prop :=
  ∀ pane ∈ layout.panes, snapshot.panes.contains pane.pane

/-- The panes in whose areas a position lies. -/
def panesAt (state : FederationState) (selected : Option PaneId) (destination : Rect)
    (position : Position) : List (PaneId × Rect) :=
  (visiblePaneAreas state selected destination).filter fun entry => entry.2.contains position

theorem length_filter_snd (areas : List (PaneId × Rect)) (position : Position) :
    (areas.filter fun entry => entry.2.contains position).length =
      ((areas.map Prod.snd).filter (·.contains position)).length := by
  rw [List.filter_map, List.length_map]
  rfl

/-- **What is drawn**: nothing, one pane on all of the screen, or the panes of a layout that are there. -/
theorem visiblePaneAreas_cases (state : FederationState) (selected : Option PaneId)
    (destination : Rect) :
    (selectedSnapshotAndPane state selected = none ∧ visiblePaneAreas state selected destination = []) ∨
    (∃ pane, visiblePaneAreas state selected destination = [(pane, destination)]) ∨
    ∃ snapshot pane layout, selectedSnapshotAndPane state selected = some (snapshot, pane) ∧
      layoutOf state selected = some layout ∧
      (visiblePaneAreas state selected destination).map Prod.snd =
        scaledRects layout.area (shownRects snapshot layout) destination := by
  unfold visiblePaneAreas layoutOf
  cases hselected : selectedSnapshotAndPane state selected with
  | none => exact .inl ⟨rfl, rfl⟩
  | some found =>
    obtain ⟨snapshot, pane⟩ := found
    cases selected with
    | none => cases hselected
    | some selected =>
      cases htab : pane.tab with
      | none => exact .inr (.inl ⟨selected, by simp [htab]⟩)
      | some tab =>
        cases hlayout : snapshot.layouts[tab]? with
        | none => exact .inr (.inl ⟨selected, by simp [htab, hlayout]⟩)
        | some layout =>
          simp only [htab, hlayout]
          split
          · exact .inr (.inl ⟨selected, rfl⟩)
          · split
            · exact .inr (.inl ⟨selected, rfl⟩)
            · refine .inr (.inr ⟨snapshot, pane, layout, rfl, ?_, ?_⟩)
              · exact (congrArg (fun tab => tab.bind fun tab => snapshot.layouts[tab]?) htab).trans hlayout
              · simp [scaledRects, shownRects, List.map_filterMap, List.filterMap_map, Function.comp_def]

section Positions

variable {state : FederationState} {selected : Option PaneId} {destination : Rect}
  (hproper : destination.Proper)
include hproper

/-- **A position lies in one pane at most**, if no panes of the layout overlap. -/
theorem length_panesAt_le_one
    (hlayout : ∀ layout ∈ layoutOf state selected, Arranged layout.area (paneRects layout))
    (position : Position) : (panesAt state selected destination position).length ≤ 1 := by
  rw [panesAt]
  rcases visiblePaneAreas_cases state selected destination with ⟨-, hnone⟩ | ⟨pane, hone⟩ |
    ⟨snapshot, pane, layout, -, hfound, hareas⟩
  · rw [hnone]
    exact Nat.zero_le 1
  · rw [hone]
    exact List.length_filter_le _ _
  · have harranged := (hlayout layout hfound).sublist (shownRects_sublist snapshot layout)
    rw [length_filter_snd, hareas]
    exact length_filter_le_one (excluding_scaledRects hproper harranged position)

/-- **And in exactly one**, if they leave nothing of it and all of them are there. -/
theorem length_panesAt_eq_one {snapshot : NormalizedSnapshot} {pane : PaneState}
    (hselected : selectedSnapshotAndPane state selected = some (snapshot, pane))
    (hlayout : ∀ layout ∈ layoutOf state selected, Arranged layout.area (paneRects layout) ∧
      Covered layout.area (paneRects layout) ∧ PanesExist snapshot layout)
    {position : Position} (h : destination.contains position) :
    (panesAt state selected destination position).length = 1 := by
  rw [panesAt]
  rcases visiblePaneAreas_cases state selected destination with ⟨hnone, -⟩ | ⟨other, hone⟩ |
    ⟨found, other, layout, hfound, hlayoutOf, hareas⟩
  · rw [hnone] at hselected
    cases hselected
  · rw [hone, @List.filter_cons_of_pos _ _ (other, destination) [] h]
    rfl
  · obtain ⟨harranged, hcovered, hexist⟩ := hlayout layout hlayoutOf
    rw [hselected] at hfound
    obtain ⟨rfl, -⟩ := Prod.mk.inj (Option.some.inj hfound)
    have hshown : shownRects snapshot layout = paneRects layout := by
      rw [shownRects, paneRects, List.filter_eq_self.mpr hexist]
    rw [length_filter_snd, hareas, hshown]
    exact length_filter_eq_one (excluding_scaledRects hproper harranged position)
      (exists_mem_scaledRects hproper harranged hcovered h)

end Positions

/-! ### The pointer -/

theorem row_of_inner {start length p : ℕ} (hstart : start < 65536)
    (h : min (min (start + 1) 65535) (min (start + length) 65535) ≤ p ∧
      p < min (min (min (start + 1) 65535) (min (start + length) 65535) + (length - 1 - 1)) 65535) :
    start ≤ p ∧ p < min (start + length) 65535 := by
  omega

theorem column_of_inner {start length p : ℕ} (hstart : start < 65536)
    (h : min (min (min (start + 1) 65535) (min (start + length) 65535) + 1) 65535 ≤ p ∧
      p < min (min (min (min (start + 1) 65535) (min (start + length) 65535) + 1) 65535 +
        (length - 1 - 1 - 2)) 65535) :
    start ≤ p ∧ p < min (start + length) 65535 := by
  omega

theorem contains_of_contains_paneInner {area : Rect} {position : Position}
    (h : (paneInner area).contains position) : area.contains position := by
  have hone : (1 : UInt16).toNat = 1 := by decide
  have htwo : (2 : UInt16).toNat = 2 := by decide
  rw [contains_iff] at h ⊢
  simp only [paneInner, Rect.right, Rect.bottom, toNat_min, toNat_saturatingAdd, toNat_saturatingSub,
    hone, htwo] at h
  exact ⟨column_of_inner area.x.toNat_lt h.1, row_of_inner area.y.toNat_lt h.2⟩

/-- **The pane under the pointer is one whose area the pointer is in.** -/
theorem mem_panesAt_of_mousePanePosition {state : FederationState} {self : App}
    {mouse mouse' : MouseInput}
    {terminalArea : Rect} {pane : PaneId} {cell : CellPosition}
    (h : mousePanePosition state self mouse terminalArea = some (pane, cell, mouse')) :
    ∃ area, (pane, area) ∈
      panesAt state self.selectedPane terminalArea ⟨mouse.column - 1, mouse.row - 1⟩ := by
  rw [mousePanePosition] at h
  split at h
  · cases h
  · obtain ⟨⟨other, area⟩, hmem, hfound⟩ := List.exists_of_findSome?_eq_some h
    simp only at hfound
    split at hfound
    · next hcontains =>
      obtain ⟨rfl, -⟩ := Prod.mk.inj (Option.some.inj hfound)
      exact ⟨area, List.mem_filter.mpr ⟨hmem, contains_of_contains_paneInner hcontains⟩⟩
    · cases hfound

/-- **Panes that tile a layout tile the screen**: they are drawn inside the destination and do not overlap,
and if they leave nothing of the layout each cell is in exactly one of them. So the pointer is in one pane
at most, and in exactly one if all of the layout's panes are there. -/
theorem scaled_layouts_tile :
    (∀ (area : LayoutRect) (panes : List LayoutRect) (destination : Rect), destination.Proper →
      Arranged area panes →
      (∀ rect ∈ scaledRects area panes destination, rect.cells ⊆ destination.cells) ∧
      ((scaledRects area panes destination).Pairwise fun rect other =>
        Disjoint rect.cells other.cells) ∧
      (Covered area panes → ∀ position ∈ destination.cells,
        ((scaledRects area panes destination).filter (·.contains position)).length = 1)) ∧
    (∀ (state : FederationState) (selected : Option PaneId) (destination : Rect), destination.Proper →
      ((∀ layout ∈ layoutOf state selected, Arranged layout.area (paneRects layout)) →
        ∀ position ∈ destination.cells, (panesAt state selected destination position).length ≤ 1) ∧
      ∀ snapshot pane, selectedSnapshotAndPane state selected = some (snapshot, pane) →
        (∀ layout ∈ layoutOf state selected, Arranged layout.area (paneRects layout) ∧
          Covered layout.area (paneRects layout) ∧ PanesExist snapshot layout) →
        ∀ position ∈ destination.cells, (panesAt state selected destination position).length = 1) ∧
    ∀ (state : FederationState) (self : App) (mouse : MouseInput) (terminalArea : Rect) found,
      mousePanePosition state self mouse terminalArea = some found →
      ∃ area, (found.1, area) ∈
        panesAt state self.selectedPane terminalArea ⟨mouse.column - 1, mouse.row - 1⟩ := by
  refine ⟨fun area panes destination hproper harranged => ⟨?_, ?_, ?_⟩,
    fun state selected destination hproper => ⟨?_, ?_⟩, ?_⟩
  · exact fun rect => subset_of_mem_scaledRects hproper harranged
  · exact pairwise_scaledRects hproper harranged
  · exact fun hcovered position h => length_filter_eq_one
      (excluding_scaledRects hproper harranged position)
      (exists_mem_scaledRects hproper harranged hcovered h)
  · exact fun hlayout position _ => length_panesAt_le_one hproper hlayout position
  · exact fun snapshot pane hselected hlayout position h =>
      length_panesAt_eq_one hproper hselected hlayout h
  · rintro state self mouse terminalArea ⟨pane, cell, mouse'⟩ h
    exact mem_panesAt_of_mousePanePosition h

/-- Two panes of one cell each on a strip of four. -/
theorem scaled_strip_tiles :
    ∀ position ∈ (Rect.mk 0 0 4 1).cells,
      ((scaledRects ⟨0, 0, 2, 1⟩ [⟨0, 0, 1, 1⟩, ⟨1, 0, 1, 1⟩] ⟨0, 0, 4, 1⟩).filter
        (·.contains position)).length = 1 := by
  have hproper : (Rect.mk 0 0 4 1).Proper := ⟨by decide, by decide, by decide, by decide⟩
  have hlayout : Arranged ⟨0, 0, 2, 1⟩ [⟨0, 0, 1, 1⟩, ⟨1, 0, 1, 1⟩] := by
    refine ⟨by decide, by decide, ?_, ?_⟩
    · rintro pane hpane ⟨column, row⟩ hcell
      simp only [List.mem_cons, List.not_mem_nil, or_false] at hpane
      rcases hpane with rfl | rfl <;> simp [LayoutCells] at hcell ⊢ <;> omega
    · simp only [List.pairwise_cons, List.mem_singleton, forall_eq, List.not_mem_nil, false_imp_iff,
        implies_true, List.Pairwise.nil, and_true]
      rw [Set.disjoint_left]
      rintro ⟨column, row⟩ hfirst hsecond
      simp [LayoutCells] at hfirst hsecond
      omega
  have hcovered : Covered ⟨0, 0, 2, 1⟩ [⟨0, 0, 1, 1⟩, ⟨1, 0, 1, 1⟩] := by
    rintro ⟨column, row⟩ hcell
    simp [LayoutCells] at hcell ⊢
    omega
  exact (scaled_layouts_tile.1 _ _ _ hproper hlayout).2.2 hcovered

end Tui

end SuperHerdr
