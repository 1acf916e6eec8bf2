import SuperHerdr.Tui.Frontend

/-!
# What a selection copies

A selection that is dragged over an edge of its pane scrolls the pane, and what was shown is kept
by its row counted from where the selection began. How far the pane scrolled is told by comparing
what it shows with what it showed: the least distance at which the two agree is taken. So a row
goes where it belongs as long as no lesser distance fits and something changed
(`selection_copies_what_was_shown`).

A frame for another pane ends the scrolling, if it was going on (`elsewhere_undisturbed_iff`).

The frontend is the one of `App`, with the rows beside it that `TerminalSelection` keeps of its
pane; without them, a frame is `App.paneFrame` (`paneFrame_app`).
-/

namespace SuperHerdr

namespace Tui

open Transducer

inductive CapturedCell
  | text (text : String)
  | wideContinuation
deriving DecidableEq

abbrev CapturedRow := List CapturedCell

/-! ### Comparing and keeping rows -/

def captureScreenRows (screen : VtScreen) : List CapturedRow :=
  (List.range screen.size.1.toNat).map fun row =>
    (List.range screen.size.2.toNat).map fun column =>
      match screen.cell (UInt16.ofNat row) (UInt16.ofNat column) with
      | some cell =>
          if cell.isWideContinuation then .wideContinuation
          else if cell.hasContents then .text cell.contents
          else .text " "
      | none => .text " "

/-- The rows of a viewport, each under its number. -/
def captureSelectionRows (viewportOffset : ℤ) (rows : List CapturedRow)
    (captured : ℤ → Option CapturedRow) : ℤ → Option CapturedRow :=
  (rows.zipIdx.takeWhile (·.2 < 2 ^ 16)).foldl
    (fun captured (row, viewportRow) =>
      Function.update captured (viewportRow - viewportOffset) (some row)) captured

/-- Whether one screen is another, moved by some lines. -/
def Fits (direction : TerminalScrollDirection) (before after : List CapturedRow) (lines : ℕ) : Prop :=
  match direction with
  | .up => before.take (before.length - lines) = after.drop lines
  | .down => before.drop lines = after.take (after.length - lines)

instance : (direction : TerminalScrollDirection) → (before after : List CapturedRow) →
    (lines : ℕ) → Decidable (Fits direction before after lines)
  | .up, _, _, _ => inferInstanceAs (Decidable (_ = _))
  | .down, _, _, _ => inferInstanceAs (Decidable (_ = _))

def viewportShiftDistance (before after : List CapturedRow) (direction : TerminalScrollDirection) :
    Option ℕ :=
  if before.length ≠ after.length ∨ before = [] ∨ before = after then none
  else if before.length = 1 then some 1
  else (List.range' 1 (before.length - 1)).find? fun lines => Fits direction before after lines

/-! ### The text of a selection -/

def CapturedCell.contents : CapturedCell → Option String
  | .text held => some held
  | .wideContinuation => none

def trimEndBlanks (line : String) : String := String.ofList (line.toList.rdropWhile (· = ' '))

namespace CellPosition

/-- By rows, and within a row by columns. -/
def le (self other : CellPosition) : Bool :=
  self.row < other.row || (self.row = other.row && self.column ≤ other.column)

def min (self other : CellPosition) : CellPosition := if self.le other then self else other

def max (self other : CellPosition) : CellPosition := if self.le other then other else self

end CellPosition

/-- The text of one captured row, as far as it lies between two positions. -/
def selectedLine (start stop : CellPosition) (row : ℤ) (cells : CapturedRow) : String :=
  let firstColumn := if row = start.row then start.column.toNat else 0
  let lastColumn := Min.min
    (if row = stop.row then stop.column.toNat else Min.min (cells.length - 1) 65535)
    (cells.length - 1)
  trimEndBlanks <| String.join <|
    if firstColumn ≤ lastColumn then
      ((cells.drop firstColumn).take (lastColumn + 1 - firstColumn)).filterMap CapturedCell.contents
    else []

def selectedTerminalText (selection : TerminalSelection) (captured : ℤ → Option CapturedRow) :
    String :=
  let start := selection.anchor.min selection.head
  let stop := selection.anchor.max selection.head
  "\n".intercalate <| (List.range (stop.row - start.row + 1).toNat).map fun (i : ℕ) =>
    match captured (start.row + i) with
    | some cells => selectedLine start stop (start.row + i) cells
    | none => ""

/-! ### Frames -/

/-- What a daemon sends of a pane. -/
structure Frame where
  pane : PaneId
  sequence : ℕ
  width : UInt16
  height : UInt16
  full : Bool
  bytes : List UInt8

/-- The emulator of a route after a frame. -/
def ActiveRoute.parserAfter (self : ActiveRoute) (frame : Frame) : Parser :=
  let parser : Parser := if frame.full ∨ self.rows ≠ frame.height ∨ self.columns ≠ frame.width then
    ⟨frame.height, frame.width, []⟩ else self.parser
  { parser with processed := parser.processed ++ frame.bytes }

/-- The rows on the screen of an emulator. -/
def Parser.screenRows (vt : SuperHerdr.Emulator) (self : Parser) : List CapturedRow :=
  captureScreenRows (vt.screen (vt.process (vt.new self.rows self.columns 2000) self.processed))

/-- The frontend, and what its selection keeps of what was shown. -/
structure Capturing where
  app : App
  capturedRows : ℤ → Option CapturedRow

namespace Capturing

variable (vt : SuperHerdr.Emulator)

/-- A left press begins a selection. -/
def press (self : App) (pane : PaneId) (position : CellPosition)
    (forwardedClick : Option MouseInput) : Capturing where
  app := { self with
    selectionAutoscroll := none
    selection := some ⟨pane, position, position, 0, false, forwardedClick⟩ }
  capturedRows := match self.routes[pane]? with
    | some route => captureSelectionRows 0 (route.parser.screenRows vt) fun _ => none
    | none => fun _ => none

/-- A selection whose viewport moved: its head is at the edge the viewport moved to. -/
def shiftSelection (self : Capturing) (selection : TerminalSelection)
    (direction : TerminalScrollDirection) (lines : ℕ) (after : List CapturedRow) : Capturing :=
  let viewportOffset := match direction with
    | .up => selection.viewportOffset + lines
    | .down => selection.viewportOffset - lines
  let viewportRow : ℕ := match direction with
    | .up => 0
    | .down => min (after.length - 1) 65535
  let column := match self.app.selectionAutoscroll with
    | some autoscroll => autoscroll.column
    | none => selection.head.column
  { app := { self.app with
      selection := some { selection with
        viewportOffset, head := ⟨viewportRow - viewportOffset, column⟩ }
      selectionAutoscroll := self.app.selectionAutoscroll.map fun autoscroll =>
        { autoscroll with pendingLines := autoscroll.pendingLines - lines } }
    capturedRows := captureSelectionRows viewportOffset after self.capturedRows }

def updateSelectionAfterFrame (self : Capturing) (pane : PaneId)
    (pendingDirection : Option TerminalScrollDirection) (before : Option (List CapturedRow))
    (after : List CapturedRow) : Capturing :=
  let shift := pendingDirection.bind fun direction =>
    before.bind fun before => viewportShiftDistance before after direction
  match self.app.selection.filter fun selection => selection.pane = pane with
  | none => { self with app := { self.app with selectionAutoscroll := none } }
  | some selection =>
      match pendingDirection, shift with
      | some direction, some lines => self.shiftSelection selection direction lines after
      | _, _ =>
          { self with
            capturedRows := captureSelectionRows selection.viewportOffset after self.capturedRows }

/-- Where a pane is being scrolled. -/
def pendingDirection (self : App) (pane : PaneId) : Option TerminalScrollDirection :=
  (self.selectionAutoscroll.filter fun autoscroll =>
    autoscroll.pane = pane ∧ 0 < autoscroll.pendingLines).map (·.direction)

/-- The frontend with a route as it is after a frame. -/
def rerouted (self : Capturing) (route : ActiveRoute) (frame : Frame) : Capturing :=
  { self with app := { self.app with
      routes := self.app.routes.insert frame.pane { route with
        rows := frame.height, columns := frame.width, parser := route.parserAfter frame,
        lastSequence := some frame.sequence } } }

def paneFrame (self : Capturing) (frame : Frame) : Capturing :=
  match self.app.routes[frame.pane]? with
  | none => self
  | some route =>
      let direction := pendingDirection self.app frame.pane
      let before := direction.map fun _ => route.parser.screenRows vt
      updateSelectionAfterFrame (self.rerouted route frame) frame.pane direction before
        ((route.parserAfter frame).screenRows vt)

@[simp] theorem rerouted_selection (self : Capturing) (route : ActiveRoute) (frame : Frame) :
    (self.rerouted route frame).app.selection = self.app.selection := rfl

@[simp] theorem rerouted_selectionAutoscroll (self : Capturing) (route : ActiveRoute)
    (frame : Frame) :
    (self.rerouted route frame).app.selectionAutoscroll = self.app.selectionAutoscroll := rfl

@[simp] theorem rerouted_capturedRows (self : Capturing) (route : ActiveRoute) (frame : Frame) :
    (self.rerouted route frame).capturedRows = self.capturedRows := rfl

theorem rerouted_routes (self : Capturing) (route : ActiveRoute) (frame : Frame) (pane : PaneId) :
    (self.rerouted route frame).app.routes[pane]? = if frame.pane = pane then
      some { route with rows := frame.height, columns := frame.width,
                        parser := route.parserAfter frame, lastSequence := some frame.sequence }
      else self.app.routes[pane]? := by
  rw [rerouted, Std.ExtTreeMap.getElem?_insert]
  simp

theorem length_captureScreenRows (screen : VtScreen) :
    (captureScreenRows screen).length = screen.size.1.toNat := by
  rw [captureScreenRows, List.length_map, List.length_range]

theorem length_screenRows (parser : Parser) : (parser.screenRows vt).length = parser.rows.toNat := by
  rw [Parser.screenRows, length_captureScreenRows, vt.size_process, vt.size_new]

section Updates

variable {self : Capturing} {selection : TerminalSelection} {pane : PaneId}
  {before after : List CapturedRow} {direction : TerminalScrollDirection} {lines : ℕ}

theorem update_elsewhere (hpane : ∀ selection, self.app.selection = some selection →
      selection.pane ≠ pane) (pending : Option TerminalScrollDirection)
    (before : Option (List CapturedRow)) :
    self.updateSelectionAfterFrame pane pending before after =
      { self with app := { self.app with selectionAutoscroll := none } } := by
  have hnone : (self.app.selection.filter fun selection => decide (selection.pane = pane)) = none :=
    Option.filter_eq_none_iff.mpr fun selection hselection => by simpa using hpane selection hselection
  rw [updateSelectionAfterFrame, hnone]

theorem filter_selection (hselection : self.app.selection = some selection)
    (hpane : selection.pane = pane) :
    (self.app.selection.filter fun selection => decide (selection.pane = pane)) = some selection := by
  rw [hselection, Option.filter_some, if_pos (decide_eq_true hpane)]

theorem update_shifted (hselection : self.app.selection = some selection)
    (hpane : selection.pane = pane)
    (hshift : viewportShiftDistance before after direction = some lines) :
    self.updateSelectionAfterFrame pane (some direction) (some before) after =
      self.shiftSelection selection direction lines after := by
  rw [updateSelectionAfterFrame, filter_selection hselection hpane]
  simp only [Option.bind_some, hshift]

theorem update_still (hselection : self.app.selection = some selection)
    (hpane : selection.pane = pane) {pending : Option TerminalScrollDirection}
    {shown : Option (List CapturedRow)}
    (hshift : (pending.bind fun direction => shown.bind fun before =>
      viewportShiftDistance before after direction) = none) :
    self.updateSelectionAfterFrame pane pending shown after =
      { self with
        capturedRows := captureSelectionRows selection.viewportOffset after self.capturedRows } := by
  rw [updateSelectionAfterFrame, filter_selection hselection hpane, hshift]
  cases pending <;> rfl

end Updates

/-- What a frame does to a selection is what it does to that of the frontend, where the comparisons
are made on the rows of the screens. -/
theorem update_app (world : World) (self : Capturing) (pane : PaneId) (before after : Parser) :
    (self.updateSelectionAfterFrame pane (pendingDirection self.app pane)
        ((pendingDirection self.app pane).map fun _ => before.screenRows vt)
        (after.screenRows vt)).app =
      App.updateSelectionAfterFrame { world with
        viewportShift := fun before after direction =>
          viewportShiftDistance (before.screenRows vt) (after.screenRows vt) direction }
        self.app pane before after := by
  have hlast : min ((after.screenRows vt).length - 1) 65535 = after.rows.toNat - 1 := by
    rw [length_screenRows]
    have := after.rows.toNat_lt
    omega
  rcases Option.eq_none_or_eq_some self.app.selection with hselection | ⟨selection, hselection⟩
  · rw [update_elsewhere (by simp [hselection])]
    simp only [App.updateSelectionAfterFrame, hselection]
  by_cases hpane : selection.pane = pane
  · rcases Option.eq_none_or_eq_some self.app.selectionAutoscroll with
      hautoscroll | ⟨autoscroll, hautoscroll⟩
    · rw [update_still hselection hpane (by simp [pendingDirection, hautoscroll])]
      simp only [App.updateSelectionAfterFrame, hselection, hpane, hautoscroll, ne_eq,
        not_true_eq_false, if_false]
    · by_cases hgo : autoscroll.pane = pane ∧ 0 < autoscroll.pendingLines
      · have hpending : pendingDirection self.app pane = some autoscroll.direction := by
          simp [pendingDirection, hautoscroll, hgo]
        have hstop : ¬(autoscroll.pane ≠ pane ∨ autoscroll.pendingLines = 0) := fun hstop =>
          hstop.elim (fun hother => hother hgo.1) (fun hnone => by omega)
        rw [hpending, Option.map_some]
        rcases Option.eq_none_or_eq_some (viewportShiftDistance (before.screenRows vt)
          (after.screenRows vt) autoscroll.direction) with hshift | ⟨lines, hshift⟩
        · rw [update_still hselection hpane (by rw [Option.bind_some, Option.bind_some, hshift])]
          simp only [App.updateSelectionAfterFrame, hselection, hpane, hautoscroll, hstop, hshift,
            ne_eq, not_true_eq_false, if_false]
        · rw [update_shifted hselection hpane hshift]
          simp only [shiftSelection, App.updateSelectionAfterFrame, hselection, hpane, hautoscroll,
            hstop, hshift, hlast, ne_eq, not_true_eq_false, if_false, Option.map_some]
          cases autoscroll.direction <;> rfl
      · have hpending : pendingDirection self.app pane = none := by
          simpa [pendingDirection, hautoscroll] using hgo
        have hstop : autoscroll.pane ≠ pane ∨ autoscroll.pendingLines = 0 := by
          by_cases hother : autoscroll.pane = pane
          · have := not_and.mp hgo hother
            exact .inr (by omega)
          · exact .inl hother
        rw [hpending, update_still hselection hpane rfl]
        simp only [App.updateSelectionAfterFrame, hselection, hpane, hautoscroll, hstop, ne_eq,
          not_true_eq_false, if_false, if_true]
  · rw [update_elsewhere (by simpa [hselection] using hpane)]
    simp only [App.updateSelectionAfterFrame, hselection, hpane, ne_eq, not_false_eq_true, if_true]

theorem paneFrame_app (world : World) (self : Capturing) (frame : Frame) :
    (self.paneFrame vt frame).app =
      App.paneFrame { world with
        viewportShift := fun before after direction =>
          viewportShiftDistance (before.screenRows vt) (after.screenRows vt) direction }
        self.app frame.pane frame.sequence frame.width frame.height frame.full frame.bytes := by
  rw [paneFrame, App.paneFrame]
  cases hroute : self.app.routes[frame.pane]? with
  | none => rfl
  | some route => exact update_app vt world (self.rerouted route frame) _ _ _

end Capturing

/-! ### Rows of a scrollback -/

/-- What a pane has printed, as rows of its width. -/
structure Scrollback where
  rows : List CapturedRow
  width : UInt16
  wide : 0 < width
  length_row : ∀ row ∈ rows, row.length = width.toNat

/-- So many rows, from one on. -/
def Scrollback.viewport (self : Scrollback) (top height : ℕ) : List CapturedRow :=
  (self.rows.drop top).take height

theorem Scrollback.length_viewport {self : Scrollback} {top height : ℕ}
    (h : top + height ≤ self.rows.length) : (self.viewport top height).length = height := by
  rw [viewport, List.length_take, List.length_drop]
  omega

theorem Scrollback.getElem?_viewport (self : Scrollback) (top height i : ℕ) :
    (self.viewport top height)[i]? = if i < height then self.rows[top + i]? else none := by
  rw [viewport, List.getElem?_take, List.getElem?_drop]

/-- Rows of a viewport are kept by their number less its offset, and others stay. -/
theorem captureSelectionRows_apply (viewportOffset : ℤ) {rows : List CapturedRow}
    (hrows : rows.length ≤ 2 ^ 16) (captured : ℤ → Option CapturedRow) (row : ℤ) :
    captureSelectionRows viewportOffset rows captured row =
      if 0 ≤ row + viewportOffset ∧ row + viewportOffset < rows.length then
        rows[(row + viewportOffset).toNat]?
      else captured row := by
  have hall : rows.zipIdx.takeWhile (fun entry => decide (entry.2 < 2 ^ 16)) = rows.zipIdx := by
    refine List.takeWhile_eq_self_iff.mpr fun entry hentry => decide_eq_true ?_
    have := List.snd_lt_of_mem_zipIdx hentry
    omega
  rw [captureSelectionRows, hall]
  -- the induction is on the rows, the last of which is kept last
  clear hall
  induction rows using List.reverseRecOn with
  | nil => simp
  | append_singleton rows last ih =>
    have hbefore : rows.length ≤ 2 ^ 16 := by
      rw [List.length_append] at hrows
      omega
    rw [List.zipIdx_append, List.foldl_append]
    simp only [List.zipIdx_singleton, List.foldl_cons, List.foldl_nil, Function.update_apply,
      ih hbefore, List.length_append, List.length_singleton]
    by_cases hlast : row = ((0 + rows.length : ℕ) : ℤ) - viewportOffset
    · have hnumber : (row + viewportOffset).toNat = rows.length := by omega
      rw [if_pos hlast, if_pos (by omega), hnumber, List.getElem?_concat_length]
    · rw [if_neg hlast]
      by_cases hwithin : 0 ≤ row + viewportOffset ∧ row + viewportOffset < rows.length
      · rw [if_pos hwithin, if_pos (by omega), List.getElem?_append_left (by omega)]
      · rw [if_neg hwithin, if_neg (by omega)]

/-- A lesser distance fits, or this is the one that is found. -/
theorem viewportShiftDistance_eq {before after : List CapturedRow}
    {direction : TerminalScrollDirection} {lines : ℕ} (hlength : before.length = after.length)
    (hchanged : before ≠ after) (hpos : 0 < lines) (hlt : lines < before.length)
    (hfits : Fits direction before after lines)
    (hleast : ∀ fewer, 0 < fewer → fewer < lines → ¬Fits direction before after fewer) :
    viewportShiftDistance before after direction = some lines := by
  have hne : before ≠ [] := List.ne_nil_of_length_pos (by omega)
  rw [viewportShiftDistance, if_neg (by tauto), if_neg (by omega), List.find?_eq_some_iff_append]
  obtain ⟨rest, hrest⟩ : ∃ rest, before.length - 1 = (lines - 1) + (rest + 1) :=
    ⟨before.length - 1 - lines, by omega⟩
  refine ⟨by simpa using hfits, List.range' 1 (lines - 1), List.range' (lines + 1) rest, ?_, ?_⟩
  · have hstart : 1 + (lines - 1) = lines := by omega
    rw [hrest, ← List.range'_append_1, hstart, List.range'_succ]
  · intro fewer hfewer
    have := List.mem_range'_1.mp hfewer
    simpa using hleast fewer (by omega) (by omega)

theorem fits_viewport_up (scrollback : Scrollback) {top lines height : ℕ}
    (h : top + lines + height ≤ scrollback.rows.length) :
    Fits .up (scrollback.viewport (top + lines) height) (scrollback.viewport top height) lines := by
  rw [Fits, Scrollback.length_viewport h]
  simp only [Scrollback.viewport, List.take_take, List.drop_take, List.drop_drop]
  rw [Nat.min_eq_left (Nat.sub_le _ _)]

theorem fits_viewport_down (scrollback : Scrollback) {top lines height : ℕ}
    (h : top + lines + height ≤ scrollback.rows.length) :
    Fits .down (scrollback.viewport top height) (scrollback.viewport (top + lines) height) lines := by
  rw [Fits, Scrollback.length_viewport h]
  simp only [Scrollback.viewport, List.take_take, List.drop_take, List.drop_drop]
  rw [Nat.min_eq_left (Nat.sub_le _ _)]

/-! ### The text between two positions -/

/-- A position in the order a text is read in. -/
def CellPosition.place (self : CellPosition) : ℤ ×ₗ ℕ := toLex (self.row, self.column.toNat)

/-- What a row of a scrollback says between two positions, whichever of them comes first. Rows
count from `top`. -/
def Scrollback.lineBetween (self : Scrollback) (top : ℕ) (one other : CellPosition) (row : ℤ) :
    String :=
  let cells := (self.rows[(top + row).toNat]?).getD []
  trimEndBlanks <| String.join <| cells.zipIdx.filterMap fun (cell, column) =>
    if one.place ⊓ other.place ≤ toLex (row, column) ∧
      toLex (row, column) ≤ one.place ⊔ other.place then cell.contents else none

/-- What it says on all rows between them. -/
def Scrollback.textBetween (self : Scrollback) (top : ℕ) (one other : CellPosition) : String :=
  "\n".intercalate <| (List.range ((one.row ⊔ other.row) - (one.row ⊓ other.row) + 1).toNat).map
    fun (i : ℕ) => self.lineBetween top one other ((one.row ⊓ other.row) + i)

variable {self other : CellPosition}

theorem CellPosition.le_iff : self.le other = true ↔ self.place ≤ other.place := by
  simp [CellPosition.le, place, Prod.Lex.toLex_le_toLex, UInt16.le_iff_toNat_le]

theorem CellPosition.place_min (self other : CellPosition) :
    (self.min other).place = self.place ⊓ other.place := by
  rw [CellPosition.min]
  split
  · next h => exact (inf_eq_left.mpr (CellPosition.le_iff.mp h)).symm
  · next h => exact (inf_eq_right.mpr (le_of_not_ge fun hle => h (CellPosition.le_iff.mpr hle))).symm

theorem CellPosition.place_max (self other : CellPosition) :
    (self.max other).place = self.place ⊔ other.place := by
  rw [CellPosition.max]
  split
  · next h => exact (sup_eq_right.mpr (CellPosition.le_iff.mp h)).symm
  · next h => exact (sup_eq_left.mpr (le_of_not_ge fun hle => h (CellPosition.le_iff.mpr hle))).symm

theorem CellPosition.row_le (h : self.le other = true) : self.row ≤ other.row := by
  simp only [CellPosition.le, Bool.or_eq_true, Bool.and_eq_true, decide_eq_true_eq] at h
  omega

theorem CellPosition.row_le_of_not (h : ¬self.le other = true) : other.row ≤ self.row := by
  simp only [CellPosition.le, Bool.or_eq_true, Bool.and_eq_true, decide_eq_true_eq, not_or] at h
  omega

theorem CellPosition.row_min (self other : CellPosition) :
    (self.min other).row = self.row ⊓ other.row := by
  rw [CellPosition.min]
  split
  · next h => exact (inf_eq_left.mpr (CellPosition.row_le h)).symm
  · next h => exact (inf_eq_right.mpr (CellPosition.row_le_of_not h)).symm

theorem CellPosition.row_max (self other : CellPosition) :
    (self.max other).row = self.row ⊔ other.row := by
  rw [CellPosition.max]
  split
  · next h => exact (sup_eq_right.mpr (CellPosition.row_le h)).symm
  · next h => exact (sup_eq_left.mpr (CellPosition.row_le_of_not h)).symm

/-- Picking by number what lies in a stretch is taking that stretch. -/
theorem filterMap_zipIdx {α β : Type*} (f : α → Option β) (first last : ℕ) (xs : List α) (n : ℕ) :
    ((xs.zipIdx n).filterMap fun (x, i) => if first ≤ i ∧ i < last then f x else none) =
      ((xs.drop (first - n)).take (last - (first ⊔ n))).filterMap f := by
  induction xs generalizing n with
  | nil => simp
  | cons x xs ih =>
    rw [List.zipIdx_cons, List.filterMap_cons, ih]
    dsimp only
    by_cases hbefore : n < first
    · have hdrop : first - n = (first - (n + 1)) + 1 := by omega
      have hmax : first ⊔ (n + 1) = first ⊔ n := by omega
      rw [if_neg (by omega), hdrop, List.drop_succ_cons, hmax]
    · have hzero : first - n = 0 := by omega
      have hnext : first - (n + 1) = 0 := by omega
      have hmax : first ⊔ n = n := by omega
      have hmax' : first ⊔ (n + 1) = n + 1 := by omega
      rw [hzero, hnext, hmax, hmax', List.drop_zero, List.drop_zero]
      by_cases hwithin : n < last
      · have htake : last - n = (last - (n + 1)) + 1 := by omega
        rw [if_pos (by omega), htake, List.take_succ_cons, List.filterMap_cons]
      · have hnone : last - n = 0 := by omega
        have hnone' : last - (n + 1) = 0 := by omega
        rw [if_neg (by omega), hnone, hnone', List.take_zero, List.take_zero]

/-- The columns that are taken of a row are those between the positions. -/
theorem selectedLine_eq {start stop : CellPosition} {row : ℤ} {cells : CapturedRow}
    (hcells : cells.length < 2 ^ 16) (hstart : start.row ≤ row) (hstop : row ≤ stop.row) :
    selectedLine start stop row cells =
      trimEndBlanks (String.join (cells.zipIdx.filterMap fun (cell, column) =>
        if start.place ≤ toLex (row, column) ∧ toLex (row, column) ≤ stop.place then cell.contents
        else none)) := by
  have htake : ∀ first last : ℕ, (if first ≤ last then
        ((cells.drop first).take (last + 1 - first)).filterMap CapturedCell.contents else []) =
      cells.zipIdx.filterMap fun (cell, column) =>
        if first ≤ column ∧ column < last + 1 then cell.contents else none := by
    intro first last
    have hslice := filterMap_zipIdx CapturedCell.contents first (last + 1) cells 0
    rw [Nat.sub_zero, Nat.max_zero] at hslice
    rw [hslice]
    split
    · rfl
    · next hempty =>
      have hnone : last + 1 - first = 0 := by omega
      rw [hnone, List.take_zero, List.filterMap_nil]
  rw [selectedLine]
  simp only [htake]
  refine congrArg (fun contents => trimEndBlanks (String.join contents)) ?_
  refine List.filterMap_congr fun entry hentry => ?_
  obtain ⟨cell, column⟩ := entry
  have hcolumn : column < cells.length := List.snd_lt_of_mem_zipIdx hentry
  have hfirst : start.place ≤ toLex (row, column) ↔
      (if row = start.row then start.column.toNat else 0) ≤ column := by
    rw [CellPosition.place, Prod.Lex.toLex_le_toLex]
    split
    · omega
    · omega
  have hlast : toLex (row, column) ≤ stop.place ↔ column < Min.min
      (if row = stop.row then stop.column.toNat else Min.min (cells.length - 1) 65535)
      (cells.length - 1) + 1 := by
    rw [CellPosition.place, Prod.Lex.toLex_le_toLex]
    split
    · omega
    · omega
  simp only [hfirst, hlast]

/-- A selection all of whose rows are kept copies what the scrollback says. -/
theorem selectedTerminalText_eq {scrollback : Scrollback} {top : ℕ} {selection : TerminalSelection}
    {captured : ℤ → Option CapturedRow}
    (hkept : ∀ row, selection.anchor.row ⊓ selection.head.row ≤ row →
      row ≤ selection.anchor.row ⊔ selection.head.row →
      ∃ cells, captured row = some cells ∧ scrollback.rows[(top + row).toNat]? = some cells) :
    selectedTerminalText selection captured =
      scrollback.textBetween top selection.anchor selection.head := by
  rw [selectedTerminalText, Scrollback.textBetween, CellPosition.row_min, CellPosition.row_max]
  refine congrArg (String.intercalate "\n") (List.map_congr_left fun i hi => ?_)
  have hlt := List.mem_range.mp hi
  obtain ⟨cells, hcaptured, hcells⟩ := hkept _ (Int.le_add_of_nonneg_right (Int.natCast_nonneg i))
    (by omega)
  have hlength : cells.length < 2 ^ 16 := by
    rw [scrollback.length_row cells (List.mem_of_getElem? hcells)]
    exact scrollback.width.toNat_lt
  rw [hcaptured, Scrollback.lineBetween, hcells, Option.getD_some, ← CellPosition.place_min,
    ← CellPosition.place_max]
  exact selectedLine_eq hlength (by rw [CellPosition.row_min]; omega)
    (by rw [CellPosition.row_max]; omega)

/-! ### Scrolling -/

/-- What happens while a selection is dragged. -/
inductive Event
  /-- A frame for its pane, which then shows the scrollback from `top` on. -/
  | scrolled (frame : Frame) (top : ℕ)
  | elsewhere (frame : Frame)
  /-- The pane is asked to scroll by a line. -/
  | tick
  /-- The mouse is dragged to a row and column of the viewport, perhaps at an edge. -/
  | dragged (row : ℕ) (column : UInt16) (edge : Option TerminalScrollDirection)

/-- The frontend, and where its viewport stands. -/
structure Scene where
  capturing : Capturing
  top : ℕ

namespace Scene

variable (vt : SuperHerdr.Emulator) (scrollback : Scrollback) (pane : PaneId) (height : ℕ)

def step (self : Scene) : Event → Scene × List Empty
  | .scrolled frame top => (⟨self.capturing.paneFrame vt frame, top⟩, [])
  | .elsewhere frame => (⟨self.capturing.paneFrame vt frame, self.top⟩, [])
  | .tick =>
      (⟨{ self.capturing with app := self.capturing.app.tickSelectionAutoscroll }, self.top⟩, [])
  | .dragged row column edge =>
      match self.capturing.app.selection with
      | none => (self, [])
      | some selection =>
          let position : CellPosition := ⟨row - selection.viewportOffset, column⟩
          (⟨{ self.capturing with
            app := self.capturing.app.dragSelection selection position edge }, self.top⟩, [])

/-- Which way a viewport goes. -/
def direction (top next : ℕ) : TerminalScrollDirection := if next < top then .up else .down

/-- How far a viewport goes. -/
def distance (top next : ℕ) : ℕ := (top - next) + (next - top)

/-- What is looked at: the pane scrolls within its scrollback by less than its height, the way it is
asked to, and the mouse stays within the viewport. -/
def Scrolls (self : Scene) : Event → Prop
  | .scrolled frame top =>
      frame.pane = pane ∧
      (∃ route, self.capturing.app.routes[pane]? = some route ∧
        (route.parserAfter frame).screenRows vt = scrollback.viewport top height) ∧
      top + height ≤ scrollback.rows.length ∧
      1 ≤ distance self.top top ∧ distance self.top top < height ∧
      Capturing.pendingDirection self.capturing.app pane = some (direction self.top top)
  | .elsewhere frame => frame.pane ≠ pane
  | .tick => True
  | .dragged row _ _ => row < height

/-- What has to be met: something changes, and no lesser distance fits; and no other pane has a
frame while the selection scrolls. -/
def Told (self : Scene) : Event → Prop
  | .scrolled _ top =>
      let before := scrollback.viewport self.top height
      let after := scrollback.viewport top height
      before ≠ after ∧ ∀ lines, 0 < lines → lines < distance self.top top →
        ¬Fits (direction self.top top) before after lines
  | .elsewhere frame =>
      self.capturing.app.selectionAutoscroll = none ∨
        self.capturing.app.routes[frame.pane]? = none
  | _ => True

/-- What is promised of a state: rows are kept where they belong, counted from the first `top`, and
copied as the scrollback says them. -/
def Copies (first : ℕ) (anchor : CellPosition) (self : Scene) : Prop :=
  (∀ row cells, self.capturing.capturedRows row = some cells →
    0 ≤ first + row ∧ scrollback.rows[(first + row).toNat]? = some cells) ∧
  ∃ selection, self.capturing.app.selection = some selection ∧ selection.pane = pane ∧
    selection.anchor = anchor ∧ selection.viewportOffset = first - self.top ∧
    selectedTerminalText selection self.capturing.capturedRows =
      scrollback.textBetween first selection.anchor selection.head

/-- What is promised of a step: a frame for another pane is nothing to the selection. -/
def Undisturbed (self : Scene) (event : Event) : Prop :=
  match event with
  | .elsewhere _ =>
      let after := (self.step vt event).1.capturing
      after.app.selection = self.capturing.app.selection ∧
        after.capturedRows = self.capturing.capturedRows ∧
        after.app.selectionAutoscroll = self.capturing.app.selectionAutoscroll
  | _ => True

/-- What holds all along: the rows that are kept are a stretch of the scrollback about the viewport,
and both ends of the selection lie in it. -/
structure Consistent (first : ℕ) (anchor : CellPosition) (state : Scene) : Prop where
  within : state.top + height ≤ scrollback.rows.length
  shown : ∃ route, state.capturing.app.routes[pane]? = some route ∧
    route.parser.screenRows vt = scrollback.viewport state.top height
  autoscroll : ∀ autoscroll, state.capturing.app.selectionAutoscroll = some autoscroll →
    autoscroll.pane = pane
  selected : ∃ selection, state.capturing.app.selection = some selection ∧
    selection.pane = pane ∧ selection.anchor = anchor ∧
    selection.viewportOffset = first - state.top ∧
    ∃ low high : ℕ, low ≤ state.top ∧ state.top + height ≤ high ∧ high ≤ scrollback.rows.length ∧
      (∀ row : ℤ, state.capturing.capturedRows row =
        if low ≤ first + row ∧ first + row < high then scrollback.rows[(first + row).toNat]?
        else none) ∧
      (low ≤ first + anchor.row ∧ first + anchor.row < high) ∧
      (low ≤ first + selection.head.row ∧ first + selection.head.row < high)

variable {vt scrollback pane height} {first : ℕ} {anchor : CellPosition}

variable {state : Scene}

theorem Consistent.copies (h : Consistent vt scrollback pane height first anchor state) :
    Copies scrollback pane first anchor state := by
  obtain ⟨selection, hselection, hpane, rfl, hoffset, low, high, -, -, hhigh, hcaptured, hanchor,
    hhead⟩ := h.selected
  refine ⟨fun row cells hcells => ?_, selection, hselection, hpane, rfl, hoffset,
    selectedTerminalText_eq fun row hfrom hto => ?_⟩
  · rw [hcaptured] at hcells
    split at hcells
    · next hwithin => exact ⟨by omega, hcells⟩
    · cases hcells
  · have hlt : (first + row).toNat < scrollback.rows.length := by omega
    rw [hcaptured, if_pos (by omega), List.getElem?_eq_getElem hlt]
    exact ⟨_, rfl, rfl⟩

theorem Consistent.height_lt
    (h : Consistent vt scrollback pane height first anchor state) : height < 2 ^ 16 := by
  obtain ⟨route, -, hrows⟩ := h.shown
  have hlength := congrArg List.length hrows
  rw [Capturing.length_screenRows, Scrollback.length_viewport h.within] at hlength
  have := route.parser.rows.toNat_lt
  omega

/-- A viewport that meets a stretch of rows makes it a longer one. -/
theorem capture_stretch {captured : ℤ → Option CapturedRow} {low high next : ℕ}
    (hheight : height < 2 ^ 16) (hnext : next + height ≤ scrollback.rows.length)
    (hlow : low ≤ next + height) (hhigh : next ≤ high)
    (hcaptured : ∀ row : ℤ, captured row =
      if low ≤ first + row ∧ first + row < high then scrollback.rows[(first + row).toNat]? else none)
    (row : ℤ) :
    captureSelectionRows (first - next) (scrollback.viewport next height) captured row =
      if ((low ⊓ next : ℕ) : ℤ) ≤ first + row ∧ first + row < ((high ⊔ (next + height) : ℕ) : ℤ) then
        scrollback.rows[(first + row).toNat]?
      else none := by
  have hlength := Scrollback.length_viewport hnext
  rw [captureSelectionRows_apply _ (by rw [hlength]; omega), hlength, hcaptured]
  by_cases hwithin : 0 ≤ row + (first - next) ∧ row + (first - next) < height
  · have hnumber : next + (row + (first - next)).toNat = (first + row).toNat := by omega
    rw [if_pos hwithin, if_pos (by omega), scrollback.getElem?_viewport, if_pos (by omega), hnumber]
  · rw [if_neg hwithin]
    by_cases hbefore : low ≤ first + row ∧ first + row < high
    · rw [if_pos hbefore, if_pos (by omega)]
    · rw [if_neg hbefore, if_neg (by omega)]

theorem Consistent.tick (h : Consistent vt scrollback pane height first anchor state) :
    Consistent vt scrollback pane height first anchor (state.step vt .tick).1 := by
  have hkept : ∀ app : App, app.tickSelectionAutoscroll.routes = app.routes ∧
      app.tickSelectionAutoscroll.selection = app.selection ∧
      ∀ after, app.tickSelectionAutoscroll.selectionAutoscroll = some after →
        ∃ before, app.selectionAutoscroll = some before ∧ after.pane = before.pane := by
    intro app
    rcases Option.eq_none_or_eq_some app.selectionAutoscroll with hnone | ⟨before, hbefore⟩
    · simp [App.tickSelectionAutoscroll, hnone]
    · simp only [App.tickSelectionAutoscroll, hbefore]
      split
      · split
        · simp
        · split
          · simp
          · simp [App.perform]
      · simp
  obtain ⟨hroutes, hselection, hautoscroll⟩ := hkept state.capturing.app
  obtain ⟨hwithin, hshown, hpane, hselected⟩ := h
  refine ⟨hwithin, by rwa [step, hroutes], fun after hafter => ?_, by rwa [step, hselection]⟩
  obtain ⟨before, hbefore, heq⟩ := hautoscroll after hafter
  rw [heq]
  exact hpane before hbefore

theorem Consistent.dragged
    (h : Consistent vt scrollback pane height first anchor state) {row : ℕ} (hrow : row < height)
    (column : UInt16) (edge : Option TerminalScrollDirection) :
    Consistent vt scrollback pane height first anchor
      (state.step vt (.dragged row column edge)).1 := by
  obtain ⟨hwithin, hshown, hpane, selection, hselection, hselected, hanchor, hoffset, low, high, hlow,
    hhigh, hlast, hcaptured, hends, -⟩ := h
  simp only [step, hselection, App.dragSelection]
  refine ⟨hwithin, hshown, fun autoscroll hautoscroll => ?_, _, rfl, hselected, hanchor, hoffset, low,
    high, hlow, hhigh, hlast, hcaptured, hends, ?_⟩
  · obtain ⟨-, hsome⟩ := Option.ite_none_right_eq_some.mp hautoscroll
    obtain ⟨_, -, rfl⟩ := Option.map_eq_some_iff.mp hsome
    exact hselected
  · dsimp only
    omega

theorem Consistent.elsewhere
    (h : Consistent vt scrollback pane height first anchor state) {frame : Frame}
    (hframe : frame.pane ≠ pane) :
    Consistent vt scrollback pane height first anchor (state.step vt (.elsewhere frame)).1 := by
  obtain ⟨hwithin, ⟨shown, hroute, hrows⟩, hpane, selection, hselection, hselected, hrest⟩ := h
  rcases Option.eq_none_or_eq_some state.capturing.app.routes[frame.pane]? with hnone | ⟨route, hsome⟩
  · rw [step, Capturing.paneFrame, hnone]
    exact ⟨hwithin, ⟨shown, hroute, hrows⟩, hpane, selection, hselection, hselected, hrest⟩
  · have hother : ∀ kept, (state.capturing.rerouted route frame).app.selection = some kept →
        kept.pane ≠ frame.pane := by
      intro kept hkept
      rw [Capturing.rerouted_selection, hselection, Option.some.injEq] at hkept
      rw [← hkept, hselected]
      exact hframe.symm
    rw [step, Capturing.paneFrame, hsome]
    simp only [Capturing.update_elsewhere hother]
    refine ⟨hwithin, ⟨shown, ?_, hrows⟩, fun _ hautoscroll => (by cases hautoscroll), selection,
      hselection, hselected, hrest⟩
    exact (state.capturing.rerouted_routes route frame pane).trans (by rwa [if_neg hframe])

theorem direction_cases (top next : ℕ) :
    (direction top next = .up ∧ top = next + distance top next) ∨
      (direction top next = .down ∧ next = top + distance top next) := by
  simp only [direction, distance]
  split
  · exact .inl ⟨rfl, by omega⟩
  · exact .inr ⟨rfl, by omega⟩

theorem fits_viewport {top next : ℕ} (htop : top + height ≤ scrollback.rows.length)
    (hnext : next + height ≤ scrollback.rows.length) :
    Fits (direction top next) (scrollback.viewport top height) (scrollback.viewport next height)
      (distance top next) := by
  rcases direction_cases top next with ⟨hdirection, heq⟩ | ⟨hdirection, heq⟩
  · have hreach : next + distance top next + height ≤ scrollback.rows.length := heq ▸ htop
    have hfits := fits_viewport_up scrollback hreach
    rwa [← heq, ← hdirection] at hfits
  · have hreach : top + distance top next + height ≤ scrollback.rows.length := heq ▸ hnext
    have hfits := fits_viewport_down scrollback hreach
    rwa [← heq, ← hdirection] at hfits

/-- The distance is found if something changes and no lesser distance fits. -/
theorem viewportShiftDistance_viewport {top next : ℕ} (htop : top + height ≤ scrollback.rows.length)
    (hnext : next + height ≤ scrollback.rows.length) (hmoved : 1 ≤ distance top next)
    (hless : distance top next < height)
    (hchanged : scrollback.viewport top height ≠ scrollback.viewport next height)
    (hleast : ∀ lines, 0 < lines → lines < distance top next →
      ¬Fits (direction top next) (scrollback.viewport top height) (scrollback.viewport next height)
        lines) :
    viewportShiftDistance (scrollback.viewport top height) (scrollback.viewport next height)
      (direction top next) = some (distance top next) := by
  refine viewportShiftDistance_eq ?_ hchanged hmoved ?_ ?_ hleast
  · rw [Scrollback.length_viewport htop, Scrollback.length_viewport hnext]
  · rwa [Scrollback.length_viewport htop]
  · exact fits_viewport htop hnext

/-- **A scroll that is told**: the distance is found, and the rows go where they belong. -/
theorem Consistent.scrolled
    (h : Consistent vt scrollback pane height first anchor state) {frame : Frame} {top : ℕ}
    (hscrolls : state.Scrolls vt scrollback pane height (.scrolled frame top))
    (htold : state.Told scrollback height (.scrolled frame top)) :
    Consistent vt scrollback pane height first anchor (state.step vt (.scrolled frame top)).1 := by
  have hheight := h.height_lt
  obtain ⟨hwithin, ⟨shown, hroute, hrows⟩, hpane, selection, hselection, hselected, hanchor, hoffset,
    low, high, hlow, hhigh, hlast, hcaptured, hends, -⟩ := h
  obtain ⟨rfl, ⟨route, hroute', hafter⟩, hnext, hmoved, hless, hpending⟩ := hscrolls
  obtain ⟨hchanged, hleast⟩ := htold
  rw [hroute, Option.some.injEq] at hroute'
  subst hroute'
  have hshift := viewportShiftDistance_viewport hwithin hnext hmoved hless hchanged hleast
  have hstep : (state.step vt (.scrolled frame top)).1 =
      ⟨(state.capturing.rerouted shown frame).shiftSelection selection (direction state.top top)
        (distance state.top top) (scrollback.viewport top height), top⟩ := by
    rw [step, Capturing.paneFrame, hroute]
    simp only [hpending, Option.map_some, hrows, hafter]
    rw [Capturing.update_shifted (by rwa [Capturing.rerouted_selection]) hselected hshift]
  have hoffset' : (match direction state.top top with
      | .up => selection.viewportOffset + distance state.top top
      | .down => selection.viewportOffset - distance state.top top) = (first : ℤ) - top := by
    rcases direction_cases state.top top with ⟨hdirection, heq⟩ | ⟨hdirection, heq⟩
    · rw [hdirection]
      change selection.viewportOffset + (distance state.top top : ℤ) = _
      omega
    · rw [hdirection]
      change selection.viewportOffset - (distance state.top top : ℤ) = _
      omega
  have hmeets : low ≤ top + height ∧ top ≤ high := by
    rw [distance] at hless
    omega
  rw [hstep, Capturing.shiftSelection.eq_def]
  simp only [hoffset', Scrollback.length_viewport hnext]
  refine ⟨hnext, ⟨_, (state.capturing.rerouted_routes shown frame frame.pane).trans (if_pos rfl),
    hafter⟩, fun autoscroll hautoscroll => ?_, _, rfl, hselected, hanchor, rfl, low ⊓ top,
    high ⊔ (top + height), Nat.min_le_right _ _, Nat.le_max_right _ _, Nat.max_le.mpr ⟨hlast, hnext⟩,
    capture_stretch hheight hnext hmeets.1 hmeets.2 hcaptured, by omega, ?_⟩
  · obtain ⟨before, hbefore, rfl⟩ := Option.map_eq_some_iff.mp hautoscroll
    exact hpane before hbefore
  · -- the head is on the first row of the viewport, or on its last
    dsimp only
    rcases direction_cases state.top top with ⟨hdirection, -⟩ | ⟨hdirection, -⟩
    · rw [hdirection]
      dsimp only
      omega
    · rw [hdirection]
      dsimp only
      omega

theorem Consistent.step
    (h : Consistent vt scrollback pane height first anchor state) {event : Event}
    (hscrolls : state.Scrolls vt scrollback pane height event)
    (htold : state.Told scrollback height event) :
    Consistent vt scrollback pane height first anchor (state.step vt event).1 := by
  cases event with
  | scrolled frame top => exact h.scrolled hscrolls htold
  | elsewhere frame => exact h.elsewhere hscrolls
  | tick => exact h.tick
  | dragged row column edge => exact h.dragged hscrolls column edge

/-- A frame for another pane is nothing to the selection exactly where it does not scroll, or the
frontend has no route to that pane. -/
theorem elsewhere_undisturbed_iff
    (h : Consistent vt scrollback pane height first anchor state) {frame : Frame}
    (hframe : frame.pane ≠ pane) :
    state.Undisturbed vt (.elsewhere frame) ↔ state.Told scrollback height (.elsewhere frame) := by
  obtain ⟨selection, hselection, hselected, -⟩ := h.selected
  simp only [Undisturbed, Told, Scene.step, Capturing.paneFrame]
  rcases Option.eq_none_or_eq_some state.capturing.app.routes[frame.pane]? with hnone | ⟨route, hsome⟩
  · rw [hnone]
    exact iff_of_true ⟨rfl, rfl, rfl⟩ (.inr rfl)
  · have hother : ∀ kept, (state.capturing.rerouted route frame).app.selection = some kept →
        kept.pane ≠ frame.pane := by
      intro kept hkept
      rw [Capturing.rerouted_selection, hselection, Option.some.injEq] at hkept
      rw [← hkept, hselected]
      exact hframe.symm
    simp only [hsome, Capturing.update_elsewhere hother, Capturing.rerouted_selection,
      Capturing.rerouted_capturedRows, true_and, reduceCtorEq, or_false]
    exact eq_comm

theorem consistent_press {self : App} {route : ActiveRoute} (hroute : self.routes[pane]? = some route)
    {top : ℕ} (hshown : route.parser.screenRows vt = scrollback.viewport top height)
    (hwithin : top + height ≤ scrollback.rows.length) {row : ℕ} (hrow : row < height)
    (column : UInt16) (click : Option MouseInput) :
    Consistent vt scrollback pane height top ⟨row, column⟩
      ⟨Capturing.press vt self pane ⟨row, column⟩ click, top⟩ := by
  have hheight : height < 2 ^ 16 := by
    have hlength := congrArg List.length hshown
    rw [Capturing.length_screenRows, Scrollback.length_viewport hwithin] at hlength
    have := route.parser.rows.toNat_lt
    omega
  refine ⟨hwithin, ⟨route, hroute, hshown⟩, fun _ hautoscroll => (by cases hautoscroll), _, rfl, rfl,
    rfl, (Int.sub_self _).symm, top, top + height, Nat.le_refl _, Nat.le_refl _, hwithin,
    fun number => ?_, ?_, ?_⟩
  · -- nothing was kept before
    have hnone : ∀ row : ℤ, (none : Option CapturedRow) =
        if (top : ℤ) ≤ top + row ∧ (top : ℤ) + row < top then
          scrollback.rows[((top : ℤ) + row).toNat]? else none :=
      fun row => by rw [if_neg (by omega)]
    have hstretch := capture_stretch hheight hwithin (Nat.le_add_right _ _) (Nat.le_refl _) hnone number
    rw [Int.sub_self, Nat.min_self, Nat.max_eq_right (Nat.le_add_right _ _)] at hstretch
    rw [← hstretch, ← hshown]
    simp only [Capturing.press, hroute]
  · dsimp only
    omega
  · dsimp only
    omega

end Scene

/-- **A selection copies what was shown**: from the press that begins it, in every run in which
frames for its pane scroll it and frames for other panes come between, as long as every distance is
told by what is shown and no other pane has a frame while it scrolls. -/
theorem selection_copies_what_was_shown (vt : SuperHerdr.Emulator) (scrollback : Scrollback)
    (pane : PaneId) (height : ℕ) (self : App) (route : ActiveRoute)
    (hroute : self.routes[pane]? = some route) (top : ℕ)
    (hshown : route.parser.screenRows vt = scrollback.viewport top height)
    (hwithin : top + height ≤ scrollback.rows.length) (row : ℕ) (hrow : row < height)
    (column : UInt16) (click : Option MouseInput) (events : List Event)
    (hevents : AllSteps (Scene.step vt)
      (fun scene event => scene.Scrolls vt scrollback pane height event ∧
        scene.Told scrollback height event)
      ⟨Capturing.press vt self pane ⟨row, column⟩ click, top⟩ events) :
    AllStates (Scene.step vt) (Scene.Copies scrollback pane top ⟨row, column⟩)
        ⟨Capturing.press vt self pane ⟨row, column⟩ click, top⟩ events ∧
      AllSteps (Scene.step vt) (Scene.Undisturbed vt)
        ⟨Capturing.press vt self pane ⟨row, column⟩ click, top⟩ events := by
  have hpress := Scene.consistent_press hroute hshown hwithin hrow column click
  constructor
  · refine (allStates_of_allSteps (I := fun _ => True) (fun _ _ _ => trivial)
      (fun scene event _ hscene hevent => hscene.step hevent.1 hevent.2) trivial hpress
      hevents).imp fun scene hscene => hscene.copies
  · refine allSteps_of_allSteps (fun scene event hscene hevent => hscene.step hevent.1 hevent.2)
      (fun scene event hscene hevent => ?_) hpress hevents
    cases event with
    | elsewhere frame => exact (Scene.elsewhere_undisturbed_iff hscene hevent.1).mpr hevent.2
    | _ => trivial

/-! A pane of two rows and one column, on a terminal that prints on its first row. -/

def somePane (name : String) : PaneId := ⟨"local", "default", name⟩

def someRoute (name : String) : ActiveRoute :=
  ⟨somePane name, .control, .control, 0, 2, 1, ⟨2, 1, []⟩, none⟩

def someApp : App :=
  { App.start none [] ∅ 0 with
    routes := (∅ : Std.ExtTreeMap PaneId ActiveRoute).insert (somePane "a") (someRoute "a")
      |>.insert (somePane "b") (someRoute "b") }

/-- A letter, and blank rows below. -/
def letterAbove (blanks : ℕ) : Scrollback where
  rows := [.text "a"] :: List.replicate blanks [.text " "]
  width := 1
  wide := by decide
  length_row := by
    intro row hrow
    rcases List.mem_cons.mp hrow with rfl | hrow
    · rfl
    · rw [(List.mem_replicate.mp hrow).2]
      rfl

def someFrame (name : String) (bytes : List UInt8) : Frame := ⟨somePane name, 0, 1, 2, true, bytes⟩

/-- Pressed on the first row and dragged to the upper edge, and a line further. -/
def dragUp : List Event := [.dragged 0 0 (some .up), .tick]

/-- Where somebody pressed, on the pane that shows nothing but blanks. -/
def pressed (top : ℕ) : Scene := ⟨Capturing.press teletype someApp (somePane "a") ⟨0, 0⟩ none, top⟩

/-- The letter is a line further up. -/
theorem letter_is_copied :
    AllStates (Scene.step teletype) (Scene.Copies (letterAbove 2) (somePane "a") 1 ⟨0, 0⟩)
      (pressed 1) (dragUp ++ [.scrolled (someFrame "a" [0x61]) 0]) := by
  refine (selection_copies_what_was_shown teletype (letterAbove 2) (somePane "a") 2 someApp
    (someRoute "a") (by decide) 1 (by decide) (by decide) 0 (by decide) 0 none _ ?_).1
  refine ⟨⟨Nat.zero_lt_two, trivial⟩, ⟨trivial, trivial⟩,
    ⟨⟨rfl, ⟨someRoute "a", by decide, by decide⟩, by decide, by decide, by decide, by decide⟩,
      by decide, fun lines hpos hless => ?_⟩, trivial⟩
  have hone : lines < 1 := hless
  omega

/-- The letter is two lines further up, and the first of them changes nothing; and a pane beside
has a frame while the selection scrolls. -/
theorem blank_lines_are_lost :
    (AllSteps (Scene.step teletype)
        (Scene.Scrolls teletype (letterAbove 3) (somePane "a") 2) (pressed 2)
        (dragUp ++ [.scrolled (someFrame "a" []) 1, .scrolled (someFrame "a" [0x61]) 0]) ∧
      ¬AllStates (Scene.step teletype) (Scene.Copies (letterAbove 3) (somePane "a") 2 ⟨0, 0⟩)
        (pressed 2)
        (dragUp ++ [.scrolled (someFrame "a" []) 1, .scrolled (someFrame "a" [0x61]) 0])) ∧
    AllSteps (Scene.step teletype) (Scene.Scrolls teletype (letterAbove 2) (somePane "a") 2)
        (pressed 1) (dragUp ++ [.elsewhere (someFrame "b" [0x61])]) ∧
      ¬AllSteps (Scene.step teletype) (Scene.Undisturbed teletype) (pressed 1)
        (dragUp ++ [.elsewhere (someFrame "b" [0x61])]) := by
  refine ⟨⟨?_, fun hcopies => ?_⟩, ?_, fun hundisturbed => ?_⟩
  · exact ⟨Nat.zero_lt_two, trivial,
      ⟨rfl, ⟨someRoute "a", by decide, by decide⟩, by decide, by decide, by decide, by decide⟩,
      ⟨rfl, ⟨{ someRoute "a" with lastSequence := some 0 }, by decide, by decide⟩, by decide,
        by decide, by decide, by decide⟩, trivial⟩
  · have hkept := (hcopies.last.1 (-1) [.text "a"] (by decide)).2
    exact absurd hkept (by decide)
  · have hother : somePane "b" ≠ somePane "a" := by decide
    exact ⟨Nat.zero_lt_two, trivial, hother, trivial⟩
  · have hautoscroll := hundisturbed.2.2.1.2.2
    exact absurd hautoscroll (by decide)

end Tui

end SuperHerdr
