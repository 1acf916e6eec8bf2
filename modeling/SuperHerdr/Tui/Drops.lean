import SuperHerdr.Library.CommandLine
import SuperHerdr.Library.Texts

/-!
# Files dropped on a terminal

A terminal types the paths of what is dropped on it, each spelled for a shell. `shellWords` tells
the words of that apart and leaves them spelled, `droppedPath` undoes the spelling of one. Between
quotes any path comes through. One spelled with backslashes is taken apart at every white space
that has none, which a shell does at a few kinds of it only, and where it ends in white space the
last is trimmed off and its backslash kept (`drops_are_understood_iff`).
-/

namespace SuperHerdr

namespace Drops

open Texts (isWhiteSpace trim)
open CommandLine (quoteCharacter quoteWord isKept)

/-! ### Words -/

/-- Where a reader of words stands. -/
inductive Reading
  | outside
  /-- After a backslash. -/
  | escaped
  | within (quote : Char)
  /-- After a backslash between double quotes. -/
  | withinEscaped (quote : Char)
deriving DecidableEq

/-- The words of a text, from where the reader stands and what it has of a word. -/
def wordsFrom : Reading → List Char → Bool → List Char → Option (List (List Char))
  | .outside, word, started, [] => some (if started then [word] else [])
  | .outside, word, started, character :: rest =>
      if character = '\\' then wordsFrom .escaped (word ++ ['\\']) started rest
      else if character = '\'' ∨ character = '"' then
        wordsFrom (.within character) (word ++ [character]) started rest
      else if isWhiteSpace character then
        if started then (word :: ·) <$> wordsFrom .outside [] false rest
        else wordsFrom .outside word false rest
      else wordsFrom .outside (word ++ [character]) true rest
  | .escaped, word, _, character :: rest => wordsFrom .outside (word ++ [character]) true rest
  | .within quote, word, started, character :: rest =>
      if character = quote then wordsFrom .outside (word ++ [quote]) true rest
      else if character = '\\' ∧ quote = '"' then
        wordsFrom (.withinEscaped quote) (word ++ ['\\']) started rest
      else wordsFrom (.within quote) (word ++ [character]) started rest
  | .withinEscaped quote, word, started, character :: rest =>
      wordsFrom (.within quote) (word ++ [character]) started rest
  | _, _, _, [] => none

/-- Split text on white space that is not escaped or quoted. -/
def shellWords (text : List Char) : Option (List (List Char)) := wordsFrom .outside [] false text

/-- A backslash quotes whatever follows it. A trailing one is kept. -/
def unescaped : List Char → List Char
  | [] => []
  | [character] => [character]
  | character :: next :: rest =>
      if character = '\\' then next :: unescaped rest else character :: unescaped (next :: rest)

/-- A quote of a name, where it stands between single quotes, put back. -/
def replaceQuotes : List Char → List Char
  | '\'' :: '\\' :: '\'' :: '\'' :: rest => '\'' :: replaceQuotes rest
  | character :: rest => character :: replaceQuotes rest
  | [] => []

def isQuotedBy (quote : Char) (text : List Char) : Bool :=
  text.head? = some quote && text.getLast? = some quote && 2 ≤ text.length

def unquoted (text : List Char) : List Char :=
  if isQuotedBy '\'' text then replaceQuotes text.tail.dropLast
  else if isQuotedBy '"' text then unescaped text.tail.dropLast
  else unescaped text

/-- A relative path below a directory. -/
def join (directory path : List Char) : List Char :=
  directory ++ (if directory ≠ [] ∧ directory.getLast? ≠ some '/' then ['/'] else []) ++ path

/-- A path of which the home directory is spelled `~`. -/
def expanded (home : Option (List Char)) (path : List Char) : List Char :=
  match path, home with
  | '~' :: rest, some home =>
      if rest = [] ∨ rest.head? = some '/' then join home (rest.dropWhile (· = '/')) else path
  | _, _ => path

def droppedPath (home : Option (List Char)) (text : List Char) : List Char :=
  expanded home (unquoted (trim text))

/-- The files a terminal drop names, or nothing. -/
def droppedFiles (isFile : List Char → Bool) (home : Option (List Char)) (text : List Char) :
    List (List Char) :=
  match shellWords text with
  | none => []
  | some words =>
      let paths := words.map (droppedPath home)
      if words ≠ [] ∧ paths.all fun path => path.head? = some '/' && isFile path then paths else []

/-! ### Spellings -/

/-- What is special to a POSIX shell wherever it stands, a newline apart. -/
def SPECIAL : List Char :=
  ['|', '&', ';', '<', '>', '(', ')', '$', '\x60', '\\', '"', '\'', ' ', '\t']

/-- The characters a terminal writes a backslash before. Some write one before more than they
have to. -/
structure Escapes where
  contains : Char → Bool
  special : ∀ character ∈ SPECIAL, contains character = true

inductive Spelling
  | backslashes (escapes : Escapes)
  | single
  | double

/-- A character, behind a backslash if it is one of some. -/
def escape (contains : Char → Bool) (character : Char) : List Char :=
  if contains character then ['\\', character] else [character]

def Spelling.spell : Spelling → List Char → List Char
  | .backslashes escapes, path => path.flatMap (escape escapes.contains)
  | .single, path => quoteWord path
  | .double, path => ['"'] ++ path.flatMap (escape isKept) ++ ['"']

/-- An absolute path and how a terminal spells it. -/
structure Drop where
  path : List Char
  absolute : path.head? = some '/'
  named : ∀ character ∈ path, character ≠ '\n' ∧ character ≠ '\x00'
  spelling : Spelling

def Drop.spelled (self : Drop) : List Char := self.spelling.spell self.path

/-- What a terminal inserts: a blank between each two, and perhaps one behind. -/
def inserted (drops : List Drop) (trailing : Bool) : List Char :=
  [' '].intercalate (drops.map Drop.spelled) ++ if trailing then [' '] else []

/-- A path spelled with backslashes has no white space but behind one, and none at its end. -/
def Drop.Survives (self : Drop) : Prop :=
  match self.spelling with
  | .backslashes escapes =>
      (∀ character ∈ self.path, isWhiteSpace character → escapes.contains character) ∧
        ∀ character, self.path.getLast? = some character → ¬isWhiteSpace character
  | _ => True

/-! ### Undoing a spelling -/

theorem unescaped_flatMap {contains : Char → Bool} (h : contains '\\' = true) (path rest : List Char) :
    unescaped (path.flatMap (escape contains) ++ rest) = path ++ unescaped rest := by
  induction path with
  | nil => rfl
  | cons character path ih =>
    rw [List.flatMap_cons, List.append_assoc, List.cons_append, ← ih, escape]
    split
    · rfl
    · next hplain =>
      have hother : character ≠ '\\' := by
        rintro rfl
        exact hplain h
      cases hrest : path.flatMap (escape contains) ++ rest with
      | nil => rfl
      | cons next tail => simp [unescaped, hother]

theorem replaceQuotes_cons {character : Char} (h : character ≠ '\'') (rest : List Char) :
    replaceQuotes (character :: rest) = character :: replaceQuotes rest := by
  conv_lhs => unfold replaceQuotes
  split
  · next heq => exact absurd (List.cons.inj heq).1 h
  · next heq => rw [(List.cons.inj heq).1, (List.cons.inj heq).2]
  · next heq => cases heq

theorem replaceQuotes_flatMap (path : List Char) :
    replaceQuotes (path.flatMap quoteCharacter) = path := by
  induction path with
  | nil => rfl
  | cons character path ih =>
    rw [List.flatMap_cons, quoteCharacter]
    split
    · next hquote =>
      rw [hquote]
      simp [replaceQuotes, ih]
    · next hother => rw [List.singleton_append, replaceQuotes_cons hother, ih]

theorem Escapes.backslash (self : Escapes) : self.contains '\\' = true :=
  self.special _ (by decide)

theorem unescaped_spell {contains : Char → Bool} (h : contains '\\' = true) (path : List Char) :
    unescaped (path.flatMap (escape contains)) = path := by
  have hspelled := unescaped_flatMap h path []
  rwa [List.append_nil, unescaped, List.append_nil] at hspelled

theorem expanded_of_absolute {home : Option (List Char)} {path : List Char}
    (h : path.head? = some '/') : expanded home path = path := by
  obtain ⟨rest, rfl⟩ := List.head?_eq_some_iff.mp h
  rfl

theorem trim_of_ends {text : List Char} {first last : Char} (hfirst : text.head? = some first)
    (hlast : text.getLast? = some last) (hstart : isWhiteSpace first = false)
    (hend : isWhiteSpace last = false) : trim text = text := by
  obtain ⟨rest, rfl⟩ := List.head?_eq_some_iff.mp hfirst
  obtain ⟨front, hfront⟩ := List.getLast?_eq_some_iff.mp hlast
  rw [trim, List.dropWhile_cons_of_neg (by rw [hstart]; decide), hfront,
    List.rdropWhile_concat_neg _ _ _ (by rw [hend]; decide)]

theorem isQuotedBy_quoted (quote : Char) (inner : List Char) :
    isQuotedBy quote ([quote] ++ inner ++ [quote]) = true := by
  rw [isQuotedBy, List.getLast?_concat]
  simp

theorem droppedPath_single (home : Option (List Char)) {path : List Char}
    (h : path.head? = some '/') : droppedPath home (Spelling.single.spell path) = path := by
  have htrim : trim (quoteWord path) = quoteWord path :=
    @trim_of_ends _ '\'' '\'' rfl (List.getLast?_concat ..) (by decide) (by decide)
  rw [droppedPath, Spelling.spell, htrim, unquoted, quoteWord, if_pos (isQuotedBy_quoted ..)]
  have hinner : ((['\''] ++ path.flatMap quoteCharacter ++ ['\'']).tail).dropLast =
      path.flatMap quoteCharacter := by
    rw [List.append_assoc, List.singleton_append, List.tail_cons, List.dropLast_concat]
  rw [hinner, replaceQuotes_flatMap, expanded_of_absolute h]

theorem droppedPath_double (home : Option (List Char)) {path : List Char}
    (h : path.head? = some '/') : droppedPath home (Spelling.double.spell path) = path := by
  have htrim : trim (Spelling.double.spell path) = Spelling.double.spell path :=
    @trim_of_ends _ '"' '"' rfl (List.getLast?_concat ..) (by decide) (by decide)
  have hother : isQuotedBy '\'' (['"'] ++ path.flatMap (escape isKept) ++ ['"']) = false := by
    simp [isQuotedBy]
  rw [droppedPath, htrim, unquoted, Spelling.spell, hother, if_neg Bool.false_ne_true,
    if_pos (isQuotedBy_quoted ..)]
  have hinner : ((['"'] ++ path.flatMap (escape isKept) ++ ['"']).tail).dropLast =
      path.flatMap (escape isKept) := by
    rw [List.append_assoc, List.singleton_append, List.tail_cons, List.dropLast_concat]
  rw [hinner, unescaped_spell (by decide), expanded_of_absolute h]

/-! ### Reading a spelled word -/

theorem wordsFrom_single (path word rest : List Char) (started : Bool) :
    wordsFrom (.within '\'') word started (path.flatMap quoteCharacter ++ '\'' :: rest) =
      wordsFrom .outside (word ++ path.flatMap quoteCharacter ++ ['\'']) true rest := by
  induction path generalizing word started with
  | nil => simp [wordsFrom]
  | cons character path ih =>
    rw [List.flatMap_cons, quoteCharacter]
    split
    · next hquote => simp [wordsFrom, ih]
    · next hother => simp [wordsFrom, hother, ih]

theorem wordsFrom_double (path word rest : List Char) (started : Bool) :
    wordsFrom (.within '"') word started (path.flatMap (escape isKept) ++ '"' :: rest) =
      wordsFrom .outside (word ++ path.flatMap (escape isKept) ++ ['"']) true rest := by
  induction path generalizing word started with
  | nil => simp [wordsFrom]
  | cons character path ih =>
    rw [List.flatMap_cons, escape]
    split
    · next hkept => simp [wordsFrom, ih]
    · next hplain =>
      have hquote : character ≠ '"' := by
        rintro rfl
        exact hplain (by decide)
      have hbackslash : character ≠ '\\' := by
        rintro rfl
        exact hplain (by decide)
      simp [wordsFrom, hquote, hbackslash, ih]

/-- Where the spelling of one path ends. -/
def Ends (rest : List Char) : Prop := rest = [] ∨ ∃ more, rest = ' ' :: more

theorem wordsFrom_ended {rest : List Char} (h : Ends rest) (word : List Char) :
    wordsFrom .outside word true rest = ([word] ++ ·) <$> wordsFrom .outside [] false rest := by
  have hblank : isWhiteSpace ' ' = true := by decide
  rcases h with rfl | ⟨more, rfl⟩
  · rfl
  · simp [wordsFrom, hblank]

namespace Escapes

variable (self : Escapes)

def spell (path : List Char) : List Char := path.flatMap (escape self.contains)

/-- What parts a path: white space the terminal wrote no backslash before. -/
def breaks (character : Char) : Bool := isWhiteSpace character && !self.contains character

/-- The parts of a path that are left apart, from what there is of one. -/
def pieces : List Char → List Char → List (List Char)
  | word, [] => if word = [] then [] else [word]
  | word, character :: path =>
      if self.breaks character then (if word = [] then [] else [word]) ++ pieces [] path
      else pieces (word ++ [character]) path

theorem spell_concat (word : List Char) (character : Char) :
    self.spell (word ++ [character]) = self.spell word ++ escape self.contains character := by
  simp [spell]

theorem spell_cons (character : Char) (path : List Char) :
    self.spell (character :: path) = escape self.contains character ++ self.spell path := rfl

/-- **What a path spelled with backslashes is read as**: its parts, as they were spelled. -/
theorem wordsFrom_spell {rest : List Char} (hrest : Ends rest) (path word : List Char) :
    wordsFrom .outside (self.spell word) (decide (word ≠ [])) (self.spell path ++ rest) =
      ((self.pieces word path).map self.spell ++ ·) <$> wordsFrom .outside [] false rest := by
  induction path generalizing word with
  | nil =>
    by_cases hword : word = []
    · simp [hword, pieces, spell]
    · simp [hword, pieces, wordsFrom_ended hrest, spell]
  | cons character path ih =>
    have hnext := ih (word ++ [character])
    have hstarted : decide (word ++ [character] ≠ []) = true := by simp
    rw [spell_concat, hstarted] at hnext
    rw [spell_cons, List.append_assoc, pieces]
    -- behind a backslash any character is kept, white space too
    cases hcontains : self.contains character with
    | true =>
      simp only [escape, hcontains, if_true] at hnext ⊢
      simp only [breaks, hcontains, Bool.not_true, Bool.and_false, Bool.false_eq_true, if_false,
        ← hnext]
      simp [wordsFrom]
    | false =>
      have hother : ∀ special ∈ SPECIAL, character ≠ special := by
        rintro special hmem rfl
        rw [self.special _ hmem] at hcontains
        cases hcontains
      have hbackslash := hother '\\' (by decide)
      have hsingle := hother '\'' (by decide)
      have hdouble := hother '"' (by decide)
      simp only [escape, hcontains, Bool.false_eq_true, if_false] at hnext ⊢
      cases hspace : isWhiteSpace character with
      | true =>
        have hempty : wordsFrom .outside [] false (self.spell path ++ rest) =
            ((self.pieces [] path).map self.spell ++ ·) <$> wordsFrom .outside [] false rest := ih []
        have hbreaks : self.breaks character = true := by simp [breaks, hspace, hcontains]
        -- white space without a backslash ends a part, if one has begun
        by_cases hword : word = []
        · subst hword
          rw [if_pos hbreaks, if_pos rfl, List.nil_append, ← hempty]
          simp [wordsFrom, hbackslash, hsingle, hdouble, hspace, spell]
        · rw [if_pos hbreaks, if_neg hword]
          simp only [List.singleton_append, wordsFrom, hbackslash, hsingle, hdouble, hspace, or_self,
            if_false, if_true, ne_eq, hword, not_false_eq_true, decide_true, hempty, Functor.map_map,
            List.map_cons]
          rfl
      | false =>
        simp only [breaks, hspace, Bool.false_and, Bool.false_eq_true, if_false, ← hnext]
        simp [wordsFrom, hbackslash, hsingle, hdouble, hspace]

/-! ### The parts of a path -/

theorem pieces_of_started {word : List Char} (h : word ≠ []) (path : List Char) :
    ∃ more rest, self.pieces word path = (word ++ more) :: rest := by
  induction path generalizing word with
  | nil => exact ⟨[], [], by rw [pieces, if_neg h, List.append_nil]⟩
  | cons character path ih =>
    rw [pieces, if_neg h]
    split
    · exact ⟨[], self.pieces [] path, by rw [List.append_nil, List.singleton_append]⟩
    · have hgrown : word ++ [character] ≠ [] := List.concat_ne_nil _ _
      obtain ⟨more, rest, hpieces⟩ := ih hgrown
      exact ⟨character :: more, rest, by rw [hpieces, List.append_assoc, List.singleton_append]⟩

theorem sublist_of_mem_pieces {word path piece : List Char} (h : piece ∈ self.pieces word path) :
    piece.Sublist (word ++ path) := by
  induction path generalizing word with
  | nil =>
    rw [pieces] at h
    split at h
    · cases h
    · rw [List.mem_singleton.mp h, List.append_nil]
  | cons character path ih =>
    rw [pieces] at h
    split at h
    · rcases List.mem_append.mp h with h | h
      · split at h
        · cases h
        · rw [List.mem_singleton.mp h]
          exact List.sublist_append_left _ _
      · have hlater := ih h
        rw [List.nil_append] at hlater
        exact (hlater.trans (List.sublist_cons_self _ _)).trans (List.sublist_append_right _ _)
    · simpa using ih h

theorem breaks_of_mem_pieces {word path piece : List Char} (h : piece ∈ self.pieces word path)
    (hword : ∀ character ∈ word, self.breaks character = false) :
    ∀ character ∈ piece, self.breaks character = false := by
  induction path generalizing word with
  | nil =>
    rw [pieces] at h
    split at h
    · cases h
    · rwa [List.mem_singleton.mp h]
  | cons character path ih =>
    rw [pieces] at h
    split at h
    · rcases List.mem_append.mp h with h | h
      · split at h
        · cases h
        · rwa [List.mem_singleton.mp h]
      · exact ih h (by simp)
    · next hwhole =>
      refine ih h fun other hother => ?_
      rcases List.mem_append.mp hother with hother | hother
      · exact hword other hother
      · rw [List.mem_singleton.mp hother]
        exact Bool.eq_false_iff.mpr hwhole

theorem pieces_of_unbroken {path : List Char} (h : ∀ character ∈ path, self.breaks character = false)
    (word : List Char) : self.pieces word path = if word ++ path = [] then [] else [word ++ path] := by
  induction path generalizing word with
  | nil => simp [pieces]
  | cons character path ih =>
    obtain ⟨hfirst, hrest⟩ := List.forall_mem_cons.mp h
    rw [pieces, hfirst, if_neg Bool.false_ne_true, ih hrest, ← List.append_cons]

theorem spell_of_absolute {path : List Char} (h : path.head? = some '/') :
    ∃ first rest, self.spell path = first :: rest ∧ (first = '/' ∨ first = '\\') := by
  obtain ⟨rest, rfl⟩ := List.head?_eq_some_iff.mp h
  rw [spell_cons, escape]
  split
  · exact ⟨'\\', _, rfl, .inr rfl⟩
  · exact ⟨'/', _, rfl, .inl rfl⟩

/-- It is taken for no quotation, and only its end can be trimmed. -/
theorem droppedPath_cons (home : Option (List Char)) {first : Char} {rest : List Char}
    (h : first = '/' ∨ first = '\\') :
    droppedPath home (first :: rest) =
      expanded home (unescaped ((first :: rest).rdropWhile isWhiteSpace)) := by
  have hspace : isWhiteSpace first = false := by rcases h with rfl | rfl <;> decide
  have hquote : ∀ quote, quote = '\'' ∨ quote = '"' → first ≠ quote := by
    rcases h with rfl | rfl <;> rintro quote (rfl | rfl) <;> decide
  have hstart : ∀ text : List Char, text <+: first :: rest → ∀ quote, quote = '\'' ∨ quote = '"' →
      isQuotedBy quote text = false := by
    rintro text ⟨tail, htail⟩ quote hmem
    cases text with
    | nil => rfl
    | cons other text =>
      have hother : other ≠ quote := by
        rw [(List.cons.inj htail).1]
        exact hquote quote hmem
      simp [isQuotedBy, hother]
  rw [droppedPath, trim, List.dropWhile_cons_of_neg (by rw [hspace]; decide), unquoted,
    hstart _ (List.rdropWhile_prefix _ _) _ (.inl rfl),
    hstart _ (List.rdropWhile_prefix _ _) _ (.inr rfl), if_neg Bool.false_ne_true,
    if_neg Bool.false_ne_true]

/-- A part that ends in white space loses it, and what kept it is left. -/
theorem droppedPath_spell (home : Option (List Char)) {piece : List Char} {last : Char}
    (hfirst : piece.head? = some '/') (hlast : piece.getLast? = some last)
    (hbreaks : self.breaks last = false) :
    droppedPath home (self.spell piece) =
      if isWhiteSpace last then piece.dropLast ++ ['\\'] else piece := by
  obtain ⟨first, rest, hspelled, hstart⟩ := self.spell_of_absolute hfirst
  obtain ⟨front, rfl⟩ := List.getLast?_eq_some_iff.mp hlast
  rw [hspelled, droppedPath_cons home hstart, ← hspelled, spell_concat, List.dropLast_concat]
  cases hspace : isWhiteSpace last with
  | true =>
    have hcontains : self.contains last = true := by simpa [breaks, hspace] using hbreaks
    have hfront : (front ++ ['\\']).head? = some '/' := by
      cases front with
      | nil =>
        obtain rfl : last = '/' := by simpa using hfirst
        exact absurd hspace (by decide)
      | cons other front => simpa using hfirst
    rw [escape, if_pos hcontains, List.append_cons,
      List.rdropWhile_concat_pos _ _ _ (by rw [hspace]), List.rdropWhile_concat_neg _ _ _ (by decide),
      spell, unescaped_flatMap self.backslash, if_pos rfl]
    exact expanded_of_absolute hfront
  | false =>
    have hend : ∃ start, self.spell front ++ escape self.contains last = start ++ [last] := by
      rw [escape]
      split
      · exact ⟨self.spell front ++ ['\\'], by simp⟩
      · exact ⟨self.spell front, rfl⟩
    obtain ⟨start, hend⟩ := hend
    rw [hend, List.rdropWhile_concat_neg _ _ _ (by rw [hspace]; decide), ← hend, ← spell_concat,
      spell, unescaped_spell self.backslash, if_neg Bool.false_ne_true,
      expanded_of_absolute hfirst]

end Escapes

/-! ### What a drop is read as -/

namespace Drop

/-- The words a spelled path is read as. -/
def read (self : Drop) : List (List Char) :=
  match self.spelling with
  | .backslashes escapes => (escapes.pieces [] self.path).map escapes.spell
  | _ => [self.spelled]

theorem wordsFrom_spelled (self : Drop) {rest : List Char} (hrest : Ends rest) :
    wordsFrom .outside [] false (self.spelled ++ rest) =
      (self.read ++ ·) <$> wordsFrom .outside [] false rest := by
  obtain ⟨path, -, -, spelling⟩ := self
  cases spelling with
  | backslashes escapes => exact escapes.wordsFrom_spell hrest path []
  | single =>
    have hword : wordsFrom .outside [] false (quoteWord path ++ rest) =
        wordsFrom .outside (quoteWord path) true rest := by
      have hwithin := wordsFrom_single path ['\''] rest false
      simpa [quoteWord, wordsFrom] using hwithin
    rw [spelled, Spelling.spell, hword, wordsFrom_ended hrest]
    rfl
  | double =>
    have hword : wordsFrom .outside [] false (Spelling.double.spell path ++ rest) =
        wordsFrom .outside (Spelling.double.spell path) true rest := by
      have hwithin := wordsFrom_double path ['"'] rest false
      simpa [Spelling.spell, wordsFrom] using hwithin
    rw [spelled, hword, wordsFrom_ended hrest]
    rfl

theorem pieces_of_absolute (escapes : Escapes) {path : List Char} (h : path.head? = some '/') :
    ∃ more rest, escapes.pieces [] path = ('/' :: more) :: rest := by
  obtain ⟨tail, rfl⟩ := List.head?_eq_some_iff.mp h
  have hslash : escapes.breaks '/' = false := by
    have hspace : isWhiteSpace '/' = false := by decide
    rw [Escapes.breaks, hspace, Bool.false_and]
  rw [Escapes.pieces, hslash]
  exact escapes.pieces_of_started (List.cons_ne_nil _ _) tail

theorem read_ne_nil : ∀ self : Drop, self.read ≠ []
  | ⟨path, habsolute, _, .backslashes escapes⟩ => by
    change (escapes.pieces [] path).map escapes.spell ≠ []
    obtain ⟨more, rest, hpieces⟩ := pieces_of_absolute escapes habsolute
    rw [hpieces]
    exact List.cons_ne_nil _ _
  | ⟨_, _, _, .single⟩ => List.cons_ne_nil _ _
  | ⟨_, _, _, .double⟩ => List.cons_ne_nil _ _

/-- A path that survives is one word, and that path. -/
theorem Survives.read (home : Option (List Char)) : ∀ {self : Drop}, self.Survives →
    self.read = [self.spelled] ∧ droppedPath home self.spelled = self.path
  | ⟨path, habsolute, _, .backslashes escapes⟩, ⟨hspace, hend⟩ => by
    have hunbroken : ∀ character ∈ path, escapes.breaks character = false := by
      intro character hmem
      cases hcase : isWhiteSpace character with
      | true => simp [Escapes.breaks, hspace character hmem hcase]
      | false => simp [Escapes.breaks, hcase]
    have hne : path ≠ [] := by
      rintro rfl
      cases habsolute
    obtain ⟨front, last, hpath⟩ := (List.eq_nil_or_concat' path).resolve_left hne
    have hlast : path.getLast? = some last := by rw [hpath, List.getLast?_concat]
    constructor
    · change (escapes.pieces [] path).map escapes.spell = [escapes.spell path]
      rw [escapes.pieces_of_unbroken hunbroken, List.nil_append, if_neg hne]
      rfl
    · refine (escapes.droppedPath_spell home habsolute hlast (hunbroken last ?_)).trans ?_
      · rw [hpath]
        simp
      · rw [if_neg (hend last hlast)]
  | ⟨_, habsolute, _, .single⟩, _ => ⟨rfl, droppedPath_single home habsolute⟩
  | ⟨_, habsolute, _, .double⟩, _ => ⟨rfl, droppedPath_double home habsolute⟩

/-- And only such a path is. -/
theorem survives_of_read {home : Option (List Char)} {word : List Char} :
    ∀ {self : Drop}, self.read = [word] → droppedPath home word = self.path → self.Survives
  | ⟨path, habsolute, _, .backslashes escapes⟩, hread, hword => by
    change (escapes.pieces [] path).map escapes.spell = [word] at hread
    obtain ⟨piece, hpieces, rfl⟩ := List.map_eq_singleton_iff.mp hread
    change droppedPath home (escapes.spell piece) = path at hword
    have hmem : piece ∈ escapes.pieces [] path := by simp [hpieces]
    have hbreaks := escapes.breaks_of_mem_pieces hmem (by simp)
    have hsublist : piece.Sublist path := escapes.sublist_of_mem_pieces hmem
    have hfirst : piece.head? = some '/' := by
      obtain ⟨more, rest, hstarted⟩ := pieces_of_absolute escapes habsolute
      rw [hpieces] at hstarted
      rw [(List.cons.inj hstarted).1]
      rfl
    have hne : piece ≠ [] := by
      rintro rfl
      cases hfirst
    obtain ⟨front, last, hpiece⟩ := (List.eq_nil_or_concat' piece).resolve_left hne
    have hlast : piece.getLast? = some last := by rw [hpiece, List.getLast?_concat]
    have hunbroken : escapes.breaks last = false := hbreaks last (by simp [hpiece])
    rw [escapes.droppedPath_spell home hfirst hlast hunbroken] at hword
    cases hspace : isWhiteSpace last with
    | true =>
      -- the backslash of the blank would stand at the end of the path
      rw [hspace, if_pos rfl] at hword
      have hwhole : piece = path := hsublist.eq_of_length (by simp [← hword, hpiece])
      rw [← hwhole, hpiece, List.dropLast_concat] at hword
      have heq := List.singleton_inj.mp (List.append_cancel_left hword)
      rw [← heq] at hspace
      exact absurd hspace (by decide)
    | false =>
      rw [hspace, if_neg Bool.false_ne_true] at hword
      subst hword
      refine ⟨fun character hcharacter hwhite => ?_, fun character hend => ?_⟩
      · simpa [Escapes.breaks, hwhite] using hbreaks character hcharacter
      · rw [hlast, Option.some.injEq] at hend
        rw [← hend, hspace]
        decide
  | ⟨_, _, _, .single⟩, _, _ => trivial
  | ⟨_, _, _, .double⟩, _, _ => trivial

end Drop

theorem shellWords_inserted (drops : List Drop) (trailing : Bool) :
    shellWords (inserted drops trailing) = some (drops.flatMap Drop.read) := by
  rw [shellWords, inserted]
  -- a blank at the end begins no word
  generalize htail : (if trailing then [' '] else []) = tail
  have hblank : isWhiteSpace ' ' = true := by decide
  have hends : Ends tail ∧ wordsFrom .outside [] false tail = some [] := by
    cases trailing
    · exact ⟨.inl htail.symm, by rw [← htail]; rfl⟩
    · exact ⟨.inr ⟨[], htail.symm⟩, by rw [← htail]; simp [wordsFrom, hblank]⟩
  induction drops with
  | nil => simpa [List.intercalate] using hends.2
  | cons drop drops ih =>
    cases drops with
    | nil =>
      have hone := drop.wordsFrom_spelled hends.1
      rw [hends.2] at hone
      simpa [List.intercalate] using hone
    | cons next drops =>
      have hline : [' '].intercalate ((drop :: next :: drops).map Drop.spelled) ++ tail =
          drop.spelled ++
            (' ' :: ([' '].intercalate ((next :: drops).map Drop.spelled) ++ tail)) := by
        simp [List.intercalate]
      have hskip : ∀ rest, wordsFrom .outside [] false (' ' :: rest) =
          wordsFrom .outside [] false rest := by
        intro rest
        simp [wordsFrom, hblank]
      rw [hline, drop.wordsFrom_spelled (.inr ⟨_, rfl⟩), hskip, ih]
      rfl

/-! ### Drops -/

theorem length_le_flatMap (drops : List Drop) : drops.length ≤ (drops.flatMap Drop.read).length := by
  induction drops with
  | nil => exact Nat.zero_le _
  | cons drop drops ih =>
    have hread := List.length_pos_of_ne_nil drop.read_ne_nil
    rw [List.flatMap_cons, List.length_append, List.length_cons]
    omega

/-- **A drop is understood exactly where each of its paths survives its spelling**: as one word
for each, which is the path again. -/
theorem drops_are_understood_iff (home : Option (List Char)) (drops : List Drop) (trailing : Bool) :
    (∃ words, shellWords (inserted drops trailing) = some words ∧
      words.map (droppedPath home) = drops.map Drop.path) ↔ ∀ drop ∈ drops, drop.Survives := by
  rw [shellWords_inserted]
  simp only [Option.some.injEq, exists_eq_left']
  induction drops with
  | nil => simp
  | cons drop drops ih =>
    rw [List.flatMap_cons, List.map_append, List.map_cons, List.forall_mem_cons, ← ih]
    constructor
    · intro hpaths
      -- the first path is one word: there are no more of them than paths
      obtain ⟨word, rest, hread⟩ := List.exists_cons_of_ne_nil drop.read_ne_nil
      have hlength := congrArg List.length hpaths
      have hlater := length_le_flatMap drops
      rw [hread] at hpaths
      rw [hread, List.length_append, List.length_map, List.length_map, List.length_cons,
        List.length_cons, List.length_map] at hlength
      obtain rfl : rest = [] := List.length_eq_zero_iff.mp (by omega)
      obtain ⟨hword, hrest⟩ := List.cons.inj hpaths
      exact ⟨Drop.survives_of_read hread hword, hrest⟩
    · rintro ⟨hsurvives, hrest⟩
      obtain ⟨hread, hpath⟩ := hsurvives.read home
      rw [hread, hrest, List.map_singleton, hpath]
      rfl

/-- Where every path survives and names a file, a drop is those files. -/
theorem droppedFiles_eq {isFile : List Char → Bool} {home : Option (List Char)} {drops : List Drop}
    {trailing : Bool} (hne : drops ≠ []) (hsurvives : ∀ drop ∈ drops, drop.Survives)
    (hfiles : ∀ drop ∈ drops, isFile drop.path = true) :
    droppedFiles isFile home (inserted drops trailing) = drops.map Drop.path := by
  have hwords : drops.flatMap Drop.read = drops.map Drop.spelled := by
    rw [← List.flatMap_pure_eq_map]
    exact List.flatMap_congr fun drop hdrop => ((hsurvives drop hdrop).read home).1
  have hpaths : (drops.map Drop.spelled).map (droppedPath home) = drops.map Drop.path := by
    rw [List.map_map]
    exact List.map_congr_left fun drop hdrop => ((hsurvives drop hdrop).read home).2
  have hall : ((drops.map Drop.path).all fun path => path.head? = some '/' && isFile path) = true := by
    rw [List.all_map, List.all_eq_true]
    intro drop hdrop
    simp [drop.absolute, hfiles drop hdrop]
  rw [droppedFiles, shellWords_inserted, hwords]
  simp only [hpaths, hall, ne_eq, List.map_eq_nil_iff, hne, not_false_eq_true, and_self, if_true]

/-- Escaping what is special, and nothing else. -/
def Escapes.posix : Escapes := ⟨fun character => character ∈ SPECIAL, fun _ h => decide_eq_true h⟩

theorem droppedFiles_eq_quoted :
    droppedFiles (fun _ => true) none (inserted [⟨['/', 'a', ' ', 'b'], rfl, by simp, .single⟩] true) =
      [['/', 'a', ' ', 'b']] :=
  droppedFiles_eq (by simp) (by simp [Drop.Survives]) (by simp)

/-- A name with a narrow no-break space, as of a screenshot, and one that ends in a blank. -/
theorem blank_names_are_lost :
    (¬∃ words, shellWords (inserted [⟨['/', 'a', '\u202f', 'b'], rfl, by simp,
        .backslashes .posix⟩] false) = some words ∧
      words.map (droppedPath none) = [['/', 'a', '\u202f', 'b']]) ∧
    ¬∃ words, shellWords (inserted [⟨['/', 'a', ' '], rfl, by simp,
        .backslashes .posix⟩] false) = some words ∧
      words.map (droppedPath none) = [['/', 'a', ' ']] := by
  constructor
  · rintro ⟨words, hwords, hpaths⟩
    have hread : some words = some [['/', 'a'], ['b']] := hwords.symm.trans (by decide)
    rw [Option.some.inj hread] at hpaths
    exact absurd hpaths (by decide)
  · rintro ⟨words, hwords, hpaths⟩
    have hread : some words = some [['/', 'a', '\\', ' ']] := hwords.symm.trans (by decide)
    rw [Option.some.inj hread] at hpaths
    exact absurd hpaths (by decide)

end Drops

end SuperHerdr
