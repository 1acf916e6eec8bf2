import Mathlib.Data.List.Chain
import SuperHerdr.Screen.Snapshot

/-!
# What the runs of a row show

A row of cells is rendered as runs, which merge neighbours of one style and leave out the plain white
space at its end. Read character by character, the runs show what the cells show, up to that white space
(`renderRow_faithful`).

White space is what Unicode takes for it, not the blank alone: a row that ends in a plain no-break space
is read back with blanks in its place (`a_trailing_space_is_read_as_blank`).
-/

namespace SuperHerdr

open Texts (isWhiteSpace)

/-! ### Characters and their styles -/

/-- A cell without contents reads as one blank. -/
def Cell.text (cell : Cell) : String := if cell.hasContents then cell.contents else " "

/-- The characters of a cell, each with its style. -/
def Cell.glyphs (cell : Cell) : List (Char × Style) := cell.text.toList.map fun c => (c, cell.style)

def Run.glyphs (run : Run) : List (Char × Style) := run.text.toList.map fun c => (c, run.style)

/-- What runs show, character by character. -/
def glyphs (runs : List Run) : List (Char × Style) := runs.flatMap Run.glyphs

/-- The cells of a row, without the second halves of wide characters. -/
def VtScreen.cells (screen : VtScreen) (row width : UInt16) : List Cell :=
  ((List.range width.toNat).filterMap fun column => screen.cell row (UInt16.ofNat column)).filter
    fun cell => !cell.isWideContinuation

/-- **How a cell is drawn**: its attributes are its own, and inverse video is its colours exchanged, or
the flag where both are the terminal's defaults. -/
structure Cell.DrawnAs (cell : Cell) (style : Style) : Prop where
  bold : style.bold = cell.bold
  dim : style.dim = cell.dim
  italic : style.italic = cell.italic
  underline : style.underline = cell.underline
  upright : cell.inverse = false → style.foreground = cell.fgcolor.specified ∧
    style.background = cell.bgcolor.specified ∧ style.inverse = false
  exchanged : cell.inverse = true → cell.fgcolor ≠ .default ∨ cell.bgcolor ≠ .default →
    style.foreground = cell.bgcolor.specified ∧ style.background = cell.fgcolor.specified ∧
      style.inverse = false
  flagged : cell.inverse = true → cell.fgcolor = .default → cell.bgcolor = .default →
    style.foreground = none ∧ style.background = none ∧ style.inverse = true

theorem Cell.drawnAs_style (cell : Cell) : cell.DrawnAs cell.style := by
  unfold Cell.style
  constructor
  case bold => rfl
  case dim => rfl
  case italic => rfl
  case underline => rfl
  case upright =>
    intro h
    simp [h]
  case exchanged =>
    intro h hcolor
    simpa [h, Classical.or_iff_not_imp_left] using hcolor
  case flagged =>
    intro h hforeground hbackground
    simp [h, hforeground, hbackground, Color.specified]

theorem Cell.text_ne (cell : Cell) : cell.text ≠ "" := by
  unfold Cell.text Cell.hasContents
  split
  · next h => simpa using h
  · decide

@[simp] theorem glyphs_append (runs more : List Run) :
    glyphs (runs ++ more) = glyphs runs ++ glyphs more :=
  List.flatMap_append

@[simp] theorem glyphs_singleton (run : Run) : glyphs [run] = run.glyphs :=
  List.flatMap_singleton ..

theorem Run.glyphs_append (run : Run) (text : String) :
    ({ run with text := run.text ++ text } : Run).glyphs =
      run.glyphs ++ text.toList.map fun c => (c, run.style) := by
  simp [Run.glyphs]

/-! ### Merging cells into runs -/

/-- What runs are like before and after each column. -/
structure Merged (runs : List Run) : Prop where
  apart : (runs.map Run.style).IsChain (· ≠ ·)
  nonempty : ∀ run ∈ runs, run.text ≠ ""

theorem Merged.nil : Merged [] := ⟨.nil, by simp⟩

variable {runs : List Run}

theorem Merged.concat (h : Merged runs) {run : Run} (htext : run.text ≠ "")
    (hstyle : ∀ last, runs.getLast? = some last → last.style ≠ run.style) :
    Merged (runs ++ [run]) := by
  refine ⟨?_, fun other hother => ?_⟩
  · rw [List.map_append, List.isChain_append]
    refine ⟨h.apart, .singleton _, ?_⟩
    intro style hstyles other hother
    rw [List.getLast?_map, Option.mem_def] at hstyles
    obtain ⟨last, hlast, rfl⟩ := Option.map_eq_some_iff.mp hstyles
    obtain rfl := Option.some.inj hother
    exact hstyle last hlast
  · rcases List.mem_append.mp hother with hother | hother
    · exact h.nonempty other hother
    · exact List.mem_singleton.mp hother ▸ htext

theorem Merged.join {last : Run} (h : Merged (runs ++ [last])) {text : String}
    (htext : text ≠ "") : Merged (runs ++ [{ last with text }]) := by
  refine ⟨?_, fun other hother => ?_⟩
  · have hstyles : (runs ++ [{ last with text }]).map Run.style =
        (runs ++ [last]).map Run.style := by simp
    exact hstyles ▸ h.apart
  · rcases List.mem_append.mp hother with hother | hother
    · exact h.nonempty other (List.mem_append_left _ hother)
    · exact List.mem_singleton.mp hother ▸ htext

/-- A visible cell joins the last run or starts one. -/
theorem pushCell_cases (runs : List Run) {cell : Cell} (hvisible : cell.isWideContinuation = false) :
    (∃ before last, runs = before ++ [last] ∧ last.style = cell.style ∧
      pushCell runs (some cell) = before ++ [{ last with text := last.text ++ cell.text }]) ∨
    (∀ last, runs.getLast? = some last → last.style ≠ cell.style) ∧
      pushCell runs (some cell) = runs ++ [⟨cell.text, cell.style⟩] := by
  simp only [pushCell, hvisible, Bool.false_eq_true, if_false, Cell.text]
  cases hlast : runs.getLast? with
  | none => exact .inr ⟨by simp, rfl⟩
  | some last =>
    by_cases hstyle : last.style = cell.style
    · have hruns : runs.dropLast ++ [last] = runs := List.dropLast_append_getLast? last hlast
      exact .inl ⟨runs.dropLast, last, hruns.symm, hstyle, by simp [hstyle]⟩
    · refine .inr ⟨?_, by simp [hstyle]⟩
      intro other hother
      exact Option.some.inj hother ▸ hstyle

/-- **One column**: a visible cell adds its characters, in a run of its style. -/
theorem pushCell_spec (h : Merged runs) {cell : Cell} (hvisible : cell.isWideContinuation = false) :
    Merged (pushCell runs (some cell)) ∧
      glyphs (pushCell runs (some cell)) = glyphs runs ++ cell.glyphs := by
  rcases pushCell_cases runs hvisible with ⟨before, last, rfl, hstyle, heq⟩ | ⟨hother, heq⟩
  · have htext : last.text ++ cell.text ≠ "" := by
      intro hempty
      exact cell.text_ne (String.append_eq_empty_iff.mp hempty).2
    rw [heq]
    refine ⟨h.join htext, ?_⟩
    rw [glyphs_append, glyphs_append, glyphs_singleton, glyphs_singleton, Run.glyphs_append, hstyle,
      ← List.append_assoc]
    rfl
  · rw [heq]
    refine ⟨h.concat cell.text_ne hother, ?_⟩
    rw [glyphs_append, glyphs_singleton]
    rfl

/-- **All columns**, by induction on them. -/
theorem foldl_pushCell {columns : List ℕ} {cellAt : ℕ → Option Cell} (h : Merged runs) :
    Merged (columns.foldl (fun runs column => pushCell runs (cellAt column)) runs) ∧
      glyphs (columns.foldl (fun runs column => pushCell runs (cellAt column)) runs) =
        glyphs runs ++
          ((columns.filterMap cellAt).filter fun cell => !cell.isWideContinuation).flatMap
            Cell.glyphs := by
  induction columns generalizing runs with
  | nil => simp [h]
  | cons column columns ih =>
    rw [List.foldl_cons]
    cases hcell : cellAt column with
    | none =>
      rw [List.filterMap_cons_none hcell]
      exact ih h
    | some cell =>
      rw [List.filterMap_cons_some hcell]
      by_cases hwide : cell.isWideContinuation = true
      · have hsame : pushCell runs (some cell) = runs := by simp [pushCell, hwide]
        rw [hsame, List.filter_cons_of_neg (by simp [hwide])]
        exact ih h
      · have hvisible : cell.isWideContinuation = false := Bool.eq_false_iff.mpr hwide
        obtain ⟨hmerged, hglyphs⟩ := pushCell_spec h hvisible
        obtain ⟨hafter, hall⟩ := ih hmerged
        refine ⟨hafter, ?_⟩
        rw [hall, hglyphs, List.filter_cons_of_pos (by simp [hvisible]), List.flatMap_cons,
          List.append_assoc]

/-! ### The end of a row -/

/-- Characters that are plain white space. -/
def Blanks (shown : List (Char × Style)) : Prop :=
  ∃ spaces : List Char, (∀ c ∈ spaces, isWhiteSpace c = true) ∧
    shown = spaces.map fun c => (c, {})

theorem Blanks.append {shown more : List (Char × Style)} (h : Blanks shown) (hmore : Blanks more) :
    Blanks (shown ++ more) := by
  obtain ⟨spaces, hspaces, rfl⟩ := h
  obtain ⟨others, hothers, rfl⟩ := hmore
  refine ⟨spaces ++ others, fun c hc => ?_, (List.map_append).symm⟩
  exact (List.mem_append.mp hc).elim (hspaces c) (hothers c)

theorem isPlain_iff {style : Style} : isPlain style = true ↔ style = {} := by
  simp [isPlain]

theorem trimEnd_append (text : String) :
    ∃ spaces : List Char, (∀ c ∈ spaces, isWhiteSpace c = true) ∧
      text.toList = (trimEnd text).toList ++ spaces := by
  refine ⟨text.toList.rtakeWhile isWhiteSpace, fun c hc => List.mem_rtakeWhile_imp hc, ?_⟩
  rw [trimEnd, String.toList_ofList, List.rdropWhile_append_rtakeWhile]

theorem isWhiteSpace_getLast_trimEnd {text : String} {c : Char}
    (h : (trimEnd text).toList.getLast? = some c) : isWhiteSpace c = false := by
  rw [trimEnd, String.toList_ofList] at h
  have hne : text.toList.rdropWhile isWhiteSpace ≠ [] := by
    intro hnil
    rw [hnil] at h
    cases h
  rw [List.getLast?_eq_getLast_of_ne_nil hne] at h
  rw [← Option.some.inj h]
  exact Bool.eq_false_iff.mpr (List.rdropWhile_last_not isWhiteSpace text.toList hne)

theorem Run.glyphs_trimmed {run : Run} (hplain : isPlain run.style = true) :
    ∃ blanks, Blanks blanks ∧
      run.glyphs = ({ run with text := trimEnd run.text } : Run).glyphs ++ blanks := by
  obtain ⟨spaces, hspaces, htext⟩ := trimEnd_append run.text
  refine ⟨spaces.map fun c => (c, {}), ⟨spaces, hspaces, rfl⟩, ?_⟩
  rw [Run.glyphs, Run.glyphs, htext, List.map_append]
  simp only [isPlain_iff.mp hplain]

theorem blanks_of_dropped {run : Run} (hplain : isPlain run.style = true)
    (hblank : trimEnd run.text = "") : Blanks run.glyphs := by
  obtain ⟨blanks, hblanks, hglyphs⟩ := run.glyphs_trimmed hplain
  rw [hglyphs, hblank]
  exact hblanks

theorem blanks_of_all_dropped
    (h : ∀ run ∈ runs, isPlain run.style = true ∧ trimEnd run.text = "") : Blanks (glyphs runs) := by
  induction runs with
  | nil => exact ⟨[], by simp, rfl⟩
  | cons run runs ih =>
    have hrun := h run (by simp)
    exact (blanks_of_dropped hrun.1 hrun.2).append (ih fun other hother => h other (by simp [hother]))

/-- A run that is dropped at the end of a row. -/
def isBlank (run : Run) : Bool := isPlain run.style && trimEnd run.text == ""

theorem getLast_rdropWhile {α : Type} {p : α → Bool} {xs : List α} {x : α}
    (h : (xs.rdropWhile p).getLast? = some x) : p x = false := by
  have hne : xs.rdropWhile p ≠ [] := by
    intro hnil
    rw [hnil] at h
    cases h
  rw [List.getLast?_eq_getLast_of_ne_nil hne] at h
  rw [← Option.some.inj h]
  exact Bool.eq_false_iff.mpr (List.rdropWhile_last_not p xs hne)

/-- What is left of a row, whose last run is trimmed if it is plain. -/
theorem trimRuns_cases (runs : List Run) :
    (∃ before last, runs.rdropWhile isBlank = before ++ [last] ∧ isPlain last.style = true ∧
      trimRuns runs = before ++ [{ last with text := trimEnd last.text }]) ∨
    (∀ last, (runs.rdropWhile isBlank).getLast? = some last → isPlain last.style = false) ∧
      trimRuns runs = runs.rdropWhile isBlank := by
  have hblank : (fun run : Run => isPlain run.style && trimEnd run.text == "") = isBlank := rfl
  simp only [trimRuns, hblank]
  cases hlast : (runs.rdropWhile isBlank).getLast? with
  | none => exact .inr ⟨by simp, rfl⟩
  | some last =>
    by_cases hplain : isPlain last.style = true
    · have hruns : (runs.rdropWhile isBlank).dropLast ++ [last] = runs.rdropWhile isBlank :=
        List.dropLast_append_getLast? last hlast
      exact .inl ⟨_, last, hruns.symm, hplain, by simp [hplain]⟩
    · refine .inr ⟨?_, by simp [hplain]⟩
      intro other hother
      exact Option.some.inj hother ▸ Bool.eq_false_iff.mpr hplain

/-- **Trimming** takes blanks off the end, keeps the runs apart and leaves none empty, and what is last
then is no blank. -/
theorem trimRuns_spec (h : Merged runs) : Merged (trimRuns runs) ∧
      (∀ run c, (trimRuns runs).getLast? = some run → isPlain run.style = true →
        run.text.toList.getLast? = some c → isWhiteSpace c = false) ∧
      ∃ blanks, Blanks blanks ∧ glyphs runs = glyphs (trimRuns runs) ++ blanks := by
  have hdropped : Blanks (glyphs (runs.rtakeWhile isBlank)) := by
    refine blanks_of_all_dropped fun run hrun => ?_
    simpa [isBlank] using List.mem_rtakeWhile_imp hrun
  have hglyphs : glyphs runs =
      glyphs (runs.rdropWhile isBlank) ++ glyphs (runs.rtakeWhile isBlank) := by
    rw [← glyphs_append, List.rdropWhile_append_rtakeWhile]
  have hfront : runs.rdropWhile isBlank <+: runs := List.rdropWhile_prefix isBlank runs
  have hkept : Merged (runs.rdropWhile isBlank) := by
    refine ⟨?_, fun run hrun => h.nonempty run (hfront.subset hrun)⟩
    exact List.IsChain.prefix h.apart (hfront.map _)
  rcases trimRuns_cases runs with ⟨before, last, hruns, hplain, heq⟩ | ⟨hstyled, heq⟩
  · have hnonblank : isBlank last = false := getLast_rdropWhile (p := isBlank) (by rw [hruns]; simp)
    have htext : trimEnd last.text ≠ "" := by simpa [isBlank, hplain] using hnonblank
    obtain ⟨blanks, hblanks, hlast⟩ := last.glyphs_trimmed hplain
    rw [heq]
    rw [hruns] at hkept hglyphs
    refine ⟨hkept.join htext, ?_, blanks ++ glyphs (runs.rtakeWhile isBlank),
      hblanks.append hdropped, ?_⟩
    · intro run c hrun _ hc
      obtain rfl : { last with text := trimEnd last.text } = run := by simpa using hrun
      exact isWhiteSpace_getLast_trimEnd hc
    · rw [hglyphs, glyphs_append, glyphs_append, glyphs_singleton, glyphs_singleton, hlast]
      simp only [List.append_assoc]
  · rw [heq]
    refine ⟨hkept, ?_, _, hdropped, hglyphs⟩
    intro run c hrun hplain
    rw [hstyled run hrun] at hplain
    cases hplain

/-! ### A rendered row -/

/-- **The runs of a row show its cells.** Neighbours differ in style, no run is empty, the last is not a
plain one that ends in white space, and what the runs leave out of the cells' characters is plain white
space at the end of the row, in whose place a viewer that pads the row puts blanks. Every cell is drawn
as it asked to be. -/
theorem renderRow_faithful (screen : VtScreen) (row width : UInt16) :
    ((renderRow screen row width).map Run.style).IsChain (· ≠ ·) ∧
    (∀ run ∈ renderRow screen row width, run.text ≠ "") ∧
    (∀ run c, (renderRow screen row width).getLast? = some run → isPlain run.style = true →
      run.text.toList.getLast? = some c → isWhiteSpace c = false) ∧
    (∃ spaces : List Char, (∀ c ∈ spaces, isWhiteSpace c = true) ∧
      (screen.cells row width).flatMap Cell.glyphs =
        glyphs (renderRow screen row width) ++ spaces.map fun c => (c, ({} : Style))) ∧
    ∀ cell ∈ screen.cells row width, cell.DrawnAs cell.style := by
  obtain ⟨hmerged, hall⟩ := @foldl_pushCell [] (List.range width.toNat)
    (fun column => screen.cell row (UInt16.ofNat column)) Merged.nil
  obtain ⟨⟨hapart, hnonempty⟩, hlast, _, ⟨spaces, hspaces, rfl⟩, hglyphs⟩ := trimRuns_spec hmerged
  refine ⟨hapart, hnonempty, hlast, ⟨spaces, hspaces, ?_⟩, fun cell _ => cell.drawnAs_style⟩
  exact hall.symm.trans hglyphs

/-- A row with one cell that holds a no-break space is rendered as no runs. Padded with a blank it does
not read as the cell does. -/
theorem a_trailing_space_is_read_as_blank :
    let screen : VtScreen :=
      { size := (1, 1)
        cell := fun _ _ => some (.plain "\u00a0")
        hideCursor := true
        cursorPosition := (0, 0) }
    renderRow screen 0 1 = [] ∧
      ∀ n, glyphs (renderRow screen 0 1) ++ List.replicate n (' ', ({} : Style)) ≠
        (screen.cells 0 1).flatMap Cell.glyphs := by
  have hruns : renderRow ⟨(1, 1), fun _ _ => some (.plain "\u00a0"), true, (0, 0)⟩ 0 1 = [] := by
    decide
  refine ⟨hruns, fun n h => ?_⟩
  have hcells : (VtScreen.cells ⟨(1, 1), fun _ _ => some (.plain "\u00a0"), true, (0, 0)⟩ 0 1).flatMap
      Cell.glyphs = [('\u00a0', {})] := by
    decide
  simp only [hruns, hcells] at h
  have hmem : ('\u00a0', ({} : Style)) ∈ List.replicate n (' ', ({} : Style)) := by
    change _ ∈ glyphs [] ++ _
    rw [h]
    exact List.mem_singleton.mpr rfl
  have hblank := (List.mem_replicate.mp hmem).2
  revert hblank
  decide

end SuperHerdr
