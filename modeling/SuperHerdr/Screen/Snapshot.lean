import SuperHerdr.Library.Texts

/-!
# Rendered screens: snapshots and diffs

A client that carries no terminal emulator is sent a rendered screen: rows of runs of
identically styled cells. `Snapshot.of` renders the visible screen of an emulator as one
numbered update, `Diff.between` says what a holder of one update needs in order to hold the
next, and `Snapshot.apply` brings a held snapshot up to date or refuses.

The emulator itself (the `vt100` crate) is outside the repository and is a parameter,
`Emulator`. What the code relies on are the two laws it carries: a new parser has the size it
was asked for, and processing bytes never changes a parser's size (a program's request to
resize goes to a callback and is ignored). Everything else about it is arbitrary.

The main result is `Snapshot.apply_between`: on two snapshots of one size, applying the diff
between them to the first yields exactly the second.
-/

namespace SuperHerdr

open Texts (isWhiteSpace)

/-! ### What an emulator shows -/

/-- A colour exactly as the terminal expressed it. -/
inductive Color
  | default
  | indexed (index : UInt8)
  | rgb (red green blue : UInt8)
deriving DecidableEq, Repr

/-- `none` when the terminal expressed no preference. -/
def Color.specified : Color → Option Color
  | .default => none
  | other => some other

/-- One cell of an emulator's grid. -/
structure Cell where
  contents : String
  fgcolor : Color
  bgcolor : Color
  bold : Bool
  dim : Bool
  italic : Bool
  underline : Bool
  inverse : Bool
  isWideContinuation : Bool

/-- Whether the cell holds any text. -/
def Cell.hasContents (cell : Cell) : Bool := cell.contents != ""

/-- The visible screen of an emulator: its size as rows and columns, its cells, its cursor. -/
structure VtScreen where
  size : UInt16 × UInt16
  cell : UInt16 → UInt16 → Option Cell
  hideCursor : Bool
  cursorPosition : UInt16 × UInt16

/-- A terminal emulator: a fold over bytes whose state shows a screen. `new` takes rows,
columns and the length of the scrollback. -/
structure Emulator where
  Parser : Type
  new : UInt16 → UInt16 → ℕ → Parser
  process : Parser → List UInt8 → Parser
  screen : Parser → VtScreen
  size_new : ∀ rows cols scrollback, (screen (new rows cols scrollback)).size = (rows, cols)
  size_process : ∀ parser bytes, (screen (process parser bytes)).size = (screen parser).size

/-- A cell of printed text, or a blank one, in the terminal's default style. -/
def Cell.plain (contents : String) : Cell where
  contents
  fgcolor := .default
  bgcolor := .default
  bold := false
  dim := false
  italic := false
  underline := false
  inverse := false
  isWideContinuation := false

/-- The simplest emulator, for concrete runs: printable characters are printed on the first
row. On text that fits the row this is what any terminal shows. -/
def teletype : Emulator where
  Parser := (UInt16 × UInt16) × List UInt8
  new rows cols _ := ((rows, cols), [])
  process parser bytes := (parser.1, parser.2 ++ bytes)
  screen parser :=
    { size := parser.1
      cell := fun row column =>
        if row < parser.1.1 ∧ column < parser.1.2 then
          some (.plain (if row = 0 then
            (parser.2[column.toNat]?.map fun byte => String.singleton (Char.ofUInt8 byte)).getD ""
          else ""))
        else none
      hideCursor := false
      cursorPosition := (0, UInt16.ofNat parser.2.length) }
  size_new _ _ _ := rfl
  size_process _ _ := rfl

instance : DecidableEq teletype.Parser :=
  inferInstanceAs (DecidableEq ((UInt16 × UInt16) × List UInt8))

/-- The simplest emulator after it printed `bytes`. -/
def printed (rows cols : UInt16) (bytes : List UInt8) : teletype.Parser := ((rows, cols), bytes)

/-! ### Runs -/

/-- How a run of cells is drawn. -/
structure Style where
  foreground : Option Color := none
  background : Option Color := none
  bold : Bool := false
  dim : Bool := false
  italic : Bool := false
  underline : Bool := false
  inverse : Bool := false
deriving DecidableEq, Repr

/-- A stretch of cells sharing one style. -/
structure Run where
  text : String
  style : Style
deriving DecidableEq, Repr

/-- A style that asks for nothing. -/
def isPlain (style : Style) : Bool := style == {}

/-- Drop trailing white space. -/
def trimEnd (text : String) : String := String.ofList (text.toList.rdropWhile isWhiteSpace)

/-- The style a cell is drawn with. Inverse video is resolved by exchanging the colours, and
survives as a flag only where both are the terminal's defaults and a swap would say nothing. -/
def Cell.style (cell : Cell) : Style :=
  let unresolvable := cell.inverse && cell.fgcolor == .default && cell.bgcolor == .default
  let (foreground, background) :=
    if cell.inverse then (cell.bgcolor, cell.fgcolor) else (cell.fgcolor, cell.bgcolor)
  { foreground := foreground.specified
    background := background.specified
    bold := cell.bold
    dim := cell.dim
    italic := cell.italic
    underline := cell.underline
    inverse := unresolvable }

/-- Append a cell to the runs of its row: it joins the last run if that has its style. A cell
outside the grid and the second half of a wide character add nothing. -/
def pushCell (runs : List Run) : Option Cell → List Run
  | none => runs
  | some cell =>
      if cell.isWideContinuation then runs
      else
        let text := if cell.hasContents then cell.contents else " "
        match runs.getLast? with
        | some run =>
            if run.style = cell.style then runs.dropLast ++ [{ run with text := run.text ++ text }]
            else runs ++ [⟨text, cell.style⟩]
        | none => runs ++ [⟨text, cell.style⟩]

/-- Drop the trailing blank runs of a row, and the trailing blanks of a plain last run. -/
def trimRuns (runs : List Run) : List Run :=
  let kept := runs.rdropWhile fun run => isPlain run.style && trimEnd run.text == ""
  match kept.getLast? with
  | some run =>
      if isPlain run.style then kept.dropLast ++ [{ run with text := trimEnd run.text }] else kept
  | none => kept

/-- One row of a screen as runs. -/
def renderRow (screen : VtScreen) (row width : UInt16) : List Run :=
  trimRuns <| (List.range width.toNat).foldl
    (fun runs column => pushCell runs (screen.cell row (UInt16.ofNat column))) []

/-! ### Snapshots and diffs -/

structure Cursor where
  row : UInt16
  column : UInt16
deriving DecidableEq, Repr

/-- One screen, rendered, as update `sequence`. -/
structure Snapshot where
  sequence : ℕ
  width : UInt16
  height : UInt16
  rows : List (List Run)
  cursor : Option Cursor
deriving DecidableEq, Repr

/-- A row of one screen that a later screen replaces. -/
structure RowUpdate where
  row : UInt16
  runs : List Run
deriving DecidableEq, Repr

/-- What changed between two updates of the same screen. -/
structure Diff where
  follows : ℕ
  sequence : ℕ
  rows : List RowUpdate
  cursor : Option Cursor
deriving DecidableEq, Repr

/-- A client holding the wrong update asked to apply a diff. -/
structure StaleScreen where
  held : ℕ
  expected : ℕ
deriving DecidableEq, Repr

namespace Snapshot

/-- Render the visible screen as update `sequence`. -/
def of (screen : VtScreen) (sequence : ℕ) : Snapshot :=
  let (height, width) := screen.size
  { sequence
    width
    height
    rows := (List.range height.toNat).map fun row => renderRow screen (UInt16.ofNat row) width
    cursor :=
      if screen.hideCursor then none
      else some ⟨screen.cursorPosition.1, screen.cursorPosition.2⟩ }

/-- Replace rows in place, in order, until one is out of range; whether all were in range. -/
def applyRows (rows : List (List Run)) : List RowUpdate → List (List Run) × Bool
  | [] => (rows, true)
  | update :: rest =>
      if update.row.toNat < rows.length then
        applyRows (rows.set update.row.toNat update.runs) rest
      else (rows, false)

/-- Bring this screen up to date, or refuse. The first component is the screen afterwards,
refused or not. -/
def apply (self : Snapshot) (diff : Diff) : Snapshot × Except StaleScreen Unit :=
  if diff.follows ≠ self.sequence then (self, .error ⟨self.sequence, diff.follows⟩)
  else
    match applyRows self.rows diff.rows with
    | (rows, false) => ({ self with rows }, .error ⟨self.sequence, diff.follows⟩)
    | (rows, true) =>
        ({ self with rows, cursor := diff.cursor, sequence := diff.sequence }, .ok ())

/-- The rows that differ from an earlier snapshot of the same screen; all of them after a
resize. -/
def changedRows (self previous : Snapshot) : List UInt16 :=
  if self.width ≠ previous.width ∨ self.height ≠ previous.height then
    (List.range self.height.toNat).map UInt16.ofNat
  else
    ((self.rows.zip previous.rows).zipIdx.filter fun entry => entry.1.1 ≠ entry.1.2).map
      fun entry => UInt16.ofNat entry.2

end Snapshot

/-- What a client holding `previous` needs in order to hold `current`; nothing can say it
when the screen was resized. -/
def Diff.between (previous current : Snapshot) : Option Diff :=
  if previous.width ≠ current.width ∨ previous.height ≠ current.height then none
  else
    some
      { follows := previous.sequence
        sequence := current.sequence
        rows := (current.changedRows previous).map fun row =>
          ⟨row, current.rows.getD row.toNat []⟩
        cursor := current.cursor }

/-! ### A diff carries its holder to the next update -/

namespace Snapshot

/-- A snapshot with as many rows as its height says. -/
def WellFormed (self : Snapshot) : Prop := self.rows.length = self.height.toNat

theorem wellFormed_of (screen : VtScreen) (sequence : ℕ) : (of screen sequence).WellFormed := by
  simp [WellFormed, of]

theorem eq_of_fields {self : Snapshot} {screen : VtScreen} {sequence : ℕ}
    (hwidth : (of screen sequence).width = self.width)
    (hheight : (of screen sequence).height = self.height)
    (hrows : (of screen sequence).rows = self.rows)
    (hcursor : (of screen sequence).cursor = self.cursor) : self = of screen self.sequence := by
  cases self
  rw [of, Snapshot.mk.injEq]
  exact ⟨rfl, hwidth.symm, hheight.symm, hrows.symm, hcursor.symm⟩

/-- Updates that agree with `target` turn any screen that agrees with it everywhere else into
`target`. The induction is on the updates: each one shrinks the set of rows still to fix. -/
theorem applyRows_eq {rows target : List (List Run)} {updates : List RowUpdate}
    (hlen : rows.length = target.length)
    (hupd : ∀ u ∈ updates, target[u.row.toNat]? = some u.runs)
    (hrest : ∀ j, (∀ u ∈ updates, u.row.toNat ≠ j) → rows[j]? = target[j]?) :
    applyRows rows updates = (target, true) := by
  induction updates generalizing rows with
  | nil =>
    have heq : rows = target := List.ext_getElem? fun j => hrest j (by simp)
    rw [applyRows, heq]
  | cons u us ih =>
    have hu := hupd u (by simp)
    have hlt : u.row.toNat < rows.length := by
      rw [hlen]
      exact (List.getElem?_eq_some_iff.mp hu).1
    rw [applyRows, if_pos hlt]
    refine ih (by simp [hlen]) (fun v hv => hupd v (by simp [hv])) fun j hj => ?_
    by_cases hju : u.row.toNat = j
    · subst hju
      rw [List.getElem?_set_self hlt, hu]
    · rw [List.getElem?_set_ne hju]
      exact hrest j fun v hv => by
        rcases List.mem_cons.mp hv with rfl | hv
        · exact hju
        · exact hj v hv

/-- Membership in `changedRows` on one size: exactly the rows whose contents differ. -/
theorem mem_changedRows {self previous : Snapshot} (hself : self.WellFormed)
    (hprev : previous.WellFormed) (hw : self.width = previous.width)
    (hh : self.height = previous.height) {row : UInt16} :
    row ∈ self.changedRows previous ↔
      row.toNat < self.rows.length ∧ self.rows[row.toNat]? ≠ previous.rows[row.toNat]? := by
  have hlen : self.rows.length = previous.rows.length := by rw [hself, hprev, hh]
  have hbound : self.rows.length < 2 ^ 16 := by
    rw [hself]
    exact self.height.toNat_lt
  simp only [changedRows, hw, hh, ne_eq, not_true_eq_false, or_self, if_false, List.mem_map,
    List.mem_filter, List.mem_zipIdx_iff_getElem?, Prod.exists, List.getElem?_zip_eq_some,
    decide_not, Bool.not_eq_eq_eq_not, Bool.not_true, decide_eq_false_iff_not]
  constructor
  · rintro ⟨a, b, i, ⟨⟨ha, hb⟩, hne⟩, rfl⟩
    have hi : i < self.rows.length := (List.getElem?_eq_some_iff.mp ha).1
    have hmod : (UInt16.ofNat i).toNat = i := by
      rw [UInt16.toNat_ofNat', Nat.mod_eq_of_lt (by omega)]
    rw [hmod, ha, hb]
    exact ⟨hi, by simpa using hne⟩
  · rintro ⟨hlt, hne⟩
    have hlt' : row.toNat < previous.rows.length := hlen ▸ hlt
    refine ⟨self.rows[row.toNat], previous.rows[row.toNat], row.toNat,
      ⟨⟨List.getElem?_eq_getElem hlt, List.getElem?_eq_getElem hlt'⟩, ?_⟩, by simp⟩
    rw [List.getElem?_eq_getElem hlt, List.getElem?_eq_getElem hlt'] at hne
    simpa using hne

variable {previous current : Snapshot}

theorem between_eq_some {diff : Diff} : Diff.between previous current = some diff ↔
      (previous.width = current.width ∧ previous.height = current.height) ∧
        (⟨previous.sequence, current.sequence, (current.changedRows previous).map fun row =>
          ⟨row, current.rows.getD row.toNat []⟩, current.cursor⟩ : Diff) = diff := by
  simp only [Diff.between, ne_eq]
  split_ifs with hsize
  · simp only [false_iff, not_and]
    intro hsame
    exact absurd hsame (by tauto)
  · simp only [Option.some.injEq]
    exact ⟨fun h => ⟨by tauto, h⟩, fun h => h.2⟩

/-- The updates of a diff turn the earlier rows into the later ones. -/
private theorem applyRows_changedRows
    (hprev : previous.WellFormed) (hcur : current.WellFormed)
    (hw : previous.width = current.width) (hh : previous.height = current.height) :
    applyRows previous.rows ((current.changedRows previous).map fun row =>
      ⟨row, current.rows.getD row.toNat []⟩) = (current.rows, true) := by
  have hlen : previous.rows.length = current.rows.length := by rw [hprev, hcur, hh]
  have hbound : current.rows.length < 2 ^ 16 := by
    rw [hcur]
    exact current.height.toNat_lt
  refine applyRows_eq hlen ?_ ?_
  · intro u hu
    obtain ⟨row, hrow, rfl⟩ := List.mem_map.mp hu
    have hlt := ((mem_changedRows hcur hprev hw.symm hh.symm).mp hrow).1
    rw [List.getD_eq_getElem?_getD, List.getElem?_eq_getElem hlt, Option.getD_some]
  · intro j hj
    by_contra hne
    -- a row that differs is in range, so its number survives the cast and it is listed
    have hlt : j < current.rows.length := by
      by_contra hge
      rw [List.getElem?_eq_none (by omega), List.getElem?_eq_none (by omega)] at hne
      exact hne rfl
    have hmod : (UInt16.ofNat j).toNat = j := by
      rw [UInt16.toNat_ofNat', Nat.mod_eq_of_lt (by omega)]
    refine hj ⟨UInt16.ofNat j, _⟩ (List.mem_map.mpr ⟨UInt16.ofNat j, ?_, rfl⟩) hmod
    rw [mem_changedRows hcur hprev hw.symm hh.symm, hmod]
    exact ⟨hlt, fun heq => hne heq.symm⟩

/-- **A diff is exact**: applying the diff between two well-formed snapshots to the earlier
one succeeds and yields the later one. -/
theorem apply_between (hprev : previous.WellFormed) (hcur : current.WellFormed) {diff : Diff}
    (hdiff : Diff.between previous current = some diff) :
    previous.apply diff = (current, .ok ()) := by
  obtain ⟨⟨hw, hh⟩, rfl⟩ := between_eq_some.mp hdiff
  have hrows := applyRows_changedRows hprev hcur hw hh
  obtain ⟨sequence, width, height, rows, cursor⟩ := current
  simp_all [apply]

end Snapshot

end SuperHerdr
