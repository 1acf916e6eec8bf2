import Mathlib.Algebra.Ring.Nat
import Mathlib.Data.List.Basic

/-!
# Simple commands of a shell

How a POSIX shell reads a line as one command with its arguments: blanks delimit words, quotes and
backslashes keep characters, and everything else that the shell would act on makes the line more
than a command. That is a line with an operator, a redirection or a second line, with an expansion,
a pattern or a comment, or with a reserved word or an assignment where the command stands
(`commandWords`). What a word has ahead of its first quote is kept apart, since reserved words and
assignments are only known there. Aliases are left aside.

`commandWords_quoted` says that words in quotes are read as they are, whatever is in them, and
`commandWords_bare_iff` when words without quotes are.
-/

namespace CommandLine

/-- Where a reader stands. -/
inductive Quoting
  | outside
  /-- Between single quotes. -/
  | single
  /-- Between double quotes. -/
  | double
  /-- After a backslash outside quotes. -/
  | escaped
  /-- After a backslash between double quotes. -/
  | doubleEscaped
deriving DecidableEq

/-- A word that is being read. -/
structure Word where
  /-- What stands ahead of its first quote. -/
  bare : List Char
  /-- What stands behind, if there is a quote. -/
  rest : Option (List Char)
deriving DecidableEq

namespace Word

def empty : Word := ⟨[], none⟩

def text (word : Word) : List Char := word.bare ++ word.rest.getD []

/-- Something of the word is quoted. -/
def quote (word : Word) : Word := { word with rest := some (word.rest.getD []) }

def push (word : Word) (character : Char) : Word :=
  match word.rest with
  | none => { word with bare := word.bare ++ [character] }
  | some rest => { word with rest := some (rest ++ [character]) }

@[simp] theorem text_empty : empty.text = [] := rfl

@[simp] theorem text_quote (word : Word) : word.quote.text = word.text := rfl

@[simp] theorem text_push (word : Word) (character : Char) :
    (word.push character).text = word.text ++ [character] := by
  obtain ⟨bare, rest⟩ := word
  cases rest <;> simp [push, text]

end Word

/-! ### The reader -/

def isBlank (character : Char) : Bool := character = ' ' || character = '\t'

def isQuote (character : Char) : Bool := character = '\'' || character = '"' || character = '\\'

/-- A character that a backslash keeps between double quotes. -/
def isKept (character : Char) : Bool := character ∈ ['$', '\x60', '"', '\\']

/-- A character that ends a command, or redirects it, or is for grouping. -/
def isOperator (character : Char) : Bool := character ∈ ['|', '&', ';', '<', '>', '(', ')', '\n']

/-- A character with which an expansion or a pattern begins. -/
def isExpanding (character : Char) : Bool := character ∈ ['$', '\x60', '*', '?', '[']

/-- A character the shell acts on where a word begins: a comment, or somebody's home. -/
def isLeading (character : Char) : Bool := character = '#' || character = '~'

/-- The words of a line, from where the reader stands and what it has of a word. -/
def readWords : Quoting → Option Word → List Char → Option (List Word)
  | .outside, word, [] => some word.toList
  | .outside, word, character :: line =>
      -- a blank ends a word, or delimits nothing
      if isBlank character then (word.toList ++ ·) <$> readWords .outside none line
      else if character = '\'' then readWords .single (some (word.getD .empty).quote) line
      else if character = '"' then readWords .double (some (word.getD .empty).quote) line
      else if character = '\\' then readWords .escaped word line
      else if isOperator character || isExpanding character ||
          (word.isNone && isLeading character) then none
      else readWords .outside (some ((word.getD .empty).push character)) line
  | .single, word, character :: line =>
      -- nothing but its own end has a meaning between single quotes
      if character = '\'' then readWords .outside word line
      else readWords .single (some ((word.getD .empty).push character)) line
  | .double, word, character :: line =>
      if character = '"' then readWords .outside word line
      else if character = '\\' then readWords .doubleEscaped word line
      else if character = '$' ∨ character = '\x60' then none
      else readWords .double (some ((word.getD .empty).push character)) line
  | .escaped, word, character :: line =>
      -- A line that is continued.
      if character = '\n' then readWords .outside word line
      else readWords .outside (some ((word.getD .empty).quote.push character)) line
  | .doubleEscaped, word, character :: line =>
      if character = '\n' then readWords .double word line
      else if isKept character then
        readWords .double (some ((word.getD .empty).push character)) line
      else readWords .double (some (((word.getD .empty).push '\\').push character)) line
  | _, _, [] => none

def reservedWords : List (List Char) :=
  ["!", "\x7b", "\x7d", "case", "do", "done", "elif", "else", "esac", "fi", "for", "if", "in",
    "then", "until", "while"].map String.toList

def isNameCharacter (character : Char) : Bool := character.isAlphanum || character = '_'

/-- A word that the shell takes for itself where a command stands: a reserved word, or an
assignment. -/
def Word.isTaken (word : Word) : Bool :=
  (word.rest.isNone && word.bare ∈ reservedWords) ||
    (word.bare.contains '=' &&
      let name := word.bare.takeWhile (· ≠ '=')
      name ≠ [] && name.all isNameCharacter && !name.head?.any Char.isDigit)

/-- The words of a line that is one command. -/
def commandWords (line : List Char) : Option (List (List Char)) := do
  let words ← readWords .outside none line
  if words.head?.any Word.isTaken then none else some (words.map Word.text)

/-! ### Words in quotes -/

/-- How words are quoted: every one is read to its closing quote as what it is. -/
def Quotes (quote : List Char → List Char) : Prop :=
  ∀ word line, readWords .outside none (quote word ++ line) =
    readWords .outside (some ⟨[], some word⟩) line

variable {quote : List Char → List Char}

theorem readWords_quoted (hquote : Quotes quote) (list : List (List Char)) :
    readWords .outside none ([' '].intercalate (list.map quote)) =
      some (list.map fun word => ⟨[], some word⟩) := by
  induction list with
  | nil => rfl
  | cons word list ih =>
    cases list with
    | nil =>
      have hread := hquote word []
      simpa [List.intercalate, readWords] using hread
    | cons next list =>
      -- the first word, a blank and the rest
      have hline : [' '].intercalate ((word :: next :: list).map quote) =
          quote word ++ (' ' :: [' '].intercalate ((next :: list).map quote)) := by
        simp [List.intercalate]
      have hblank (line : List Char) (held : Word) :
          readWords .outside (some held) (' ' :: line) =
            ([held] ++ ·) <$> readWords .outside none line := by
        simp [readWords, isBlank]
      rw [hline, hquote, hblank, ih]
      rfl

/-- **Words in quotes, with a blank between each two, are a command with its arguments.** -/
theorem commandWords_quoted (hquote : Quotes quote) (list : List (List Char)) :
    commandWords ([' '].intercalate (list.map quote)) = some list := by
  have hfree :
      ((list.map fun word => (⟨[], some word⟩ : Word)).head?.any Word.isTaken) = false := by
    cases list <;> rfl
  have htext : (list.map fun word => (⟨[], some word⟩ : Word)).map Word.text = list := by
    simp [Word.text, Function.comp_def]
  rw [commandWords, readWords_quoted hquote]
  simp only [Option.bind_eq_bind, Option.bind_some, hfree, htext]
  rfl

/-- Words between single quotes are quoted if each of their characters is read as itself there. -/
theorem quotes_single {escape : Char → List Char}
    (hescape : ∀ held character line,
      readWords .single (some ⟨[], some held⟩) (escape character ++ line) =
        readWords .single (some ⟨[], some (held ++ [character])⟩) line) :
    Quotes fun word => ['\''] ++ word.flatMap escape ++ ['\''] := by
  have hinside (held word line : List Char) :
      readWords .single (some ⟨[], some held⟩) (word.flatMap escape ++ line) =
        readWords .single (some ⟨[], some (held ++ word)⟩) line := by
    induction word generalizing held with
    | nil => simp
    | cons character word ih =>
      rw [List.flatMap_cons, List.append_assoc, hescape, ih, List.append_assoc]
      rfl
  intro word line
  have hopen : readWords .outside none (['\''] ++ word.flatMap escape ++ ['\''] ++ line) =
      readWords .single (some ⟨[], some []⟩) (word.flatMap escape ++ ('\'' :: line)) := by
    simp [readWords, Word.quote, Word.empty, isBlank]
  rw [hopen, hinside, List.nil_append]
  simp [readWords]

/-- A character of a word between single quotes: a single quote closes them, is kept by a backslash,
and opens them again. -/
def quoteCharacter (character : Char) : List Char :=
  if character = '\'' then ['\'', '\\', '\'', '\''] else [character]

/-- A word that is kept whatever is in it. -/
def quoteWord (word : List Char) : List Char := ['\''] ++ word.flatMap quoteCharacter ++ ['\'']

theorem quotes_quoteWord : Quotes quoteWord := by
  refine quotes_single fun held character line => ?_
  rw [quoteCharacter]
  split
  · next hquote =>
    subst hquote
    simp [readWords, Word.push, Word.quote, isBlank]
  · next hplain => simp [readWords, Word.push, hplain]

/-! ### Words without quotes -/

/-- A character that stands for itself wherever it is in a word. -/
def isOrdinary (character : Char) : Bool :=
  !isBlank character && !isQuote character && !isOperator character && !isExpanding character

/-- A word the shell reads as it is written. -/
structure Plain (word : List Char) : Prop where
  nonempty : word ≠ []
  ordinary : ∀ character ∈ word, isOrdinary character = true
  head : ∀ character ∈ word.head?, isLeading character = false

instance (word : List Char) : Decidable (Plain word) :=
  decidable_of_iff (word ≠ [] ∧ word.all isOrdinary = true ∧ word.head?.all (!isLeading ·) = true)
    ⟨fun ⟨hnonempty, hordinary, hhead⟩ => ⟨hnonempty, List.all_eq_true.mp hordinary, by
        simpa [Option.all_eq_true] using hhead⟩,
      fun h => ⟨h.nonempty, List.all_eq_true.mpr h.ordinary, by
        simpa [Option.all_eq_true] using h.head⟩⟩

variable {character : Char}

theorem readWords_ordinary (word : Option Word) (line : List Char)
    (hordinary : isOrdinary character = true)
    (hlead : word.isNone = true → isLeading character = false) :
    readWords .outside word (character :: line) =
      readWords .outside (some ((word.getD .empty).push character)) line := by
  simp only [isOrdinary, isQuote, Bool.and_eq_true, Bool.not_eq_true', Bool.or_eq_false_iff,
    decide_eq_false_iff_not] at hordinary
  obtain ⟨⟨⟨hblank, ⟨hsingle, hdouble⟩, hslash⟩, hoperator⟩, hexpanding⟩ := hordinary
  have hquiet : (word.isNone && isLeading character) = false := by
    cases hnone : word.isNone with
    | false => rfl
    | true => rw [hlead hnone]; rfl
  rw [readWords]
  simp [hblank, hsingle, hdouble, hslash, hoperator, hexpanding, hquiet]

theorem readWords_plain {word : List Char} (hplain : Plain word) (line : List Char) :
    readWords .outside none (word ++ line) = readWords .outside (some ⟨word, none⟩) line := by
  have hrest (held tail : List Char) (htail : ∀ character ∈ tail, isOrdinary character = true) :
      readWords .outside (some ⟨held, none⟩) (tail ++ line) =
        readWords .outside (some ⟨held ++ tail, none⟩) line := by
    induction tail generalizing held with
    | nil => simp
    | cons character tail ih =>
      have hone := readWords_ordinary (some ⟨held, none⟩) (tail ++ line)
        (htail character List.mem_cons_self) (by simp)
      rw [List.cons_append, hone]
      have hmore := ih (held ++ [character]) fun other hother =>
        htail other (List.mem_cons_of_mem _ hother)
      simpa [Word.push] using hmore
  cases word with
  | nil => exact absurd rfl hplain.nonempty
  | cons character tail =>
    have hone := readWords_ordinary none (tail ++ line)
      (hplain.ordinary character List.mem_cons_self) fun _ => hplain.head character rfl
    rw [List.cons_append, hone]
    exact hrest [character] tail fun other hother =>
      hplain.ordinary other (List.mem_cons_of_mem _ hother)

theorem readWords_bare {list : List (List Char)} (hplain : ∀ word ∈ list, Plain word) :
    readWords .outside none ([' '].intercalate list) =
      some (list.map fun word => ⟨word, none⟩) := by
  induction list with
  | nil => rfl
  | cons word list ih =>
    have hword := readWords_plain (hplain word List.mem_cons_self)
    cases list with
    | nil => simpa [List.intercalate, readWords] using hword []
    | cons next list =>
      have hline : [' '].intercalate (word :: next :: list) =
          word ++ (' ' :: [' '].intercalate (next :: list)) := by
        simp [List.intercalate]
      have hblank :
          readWords .outside (some ⟨word, none⟩) (' ' :: [' '].intercalate (next :: list)) =
          ([⟨word, none⟩] ++ ·) <$> readWords .outside none ([' '].intercalate (next :: list)) := by
        simp [readWords, isBlank]
      rw [hline, hword, hblank, ih fun other hother => hplain other (List.mem_cons_of_mem _ hother)]
      rfl

/-! ### How much of a line its words keep -/

/-- The characters of the words, and one more for each. -/
def size (words : List Word) : ℕ := (words.map fun word => word.text.length + 1).sum

/-- What has to be dropped yet: between quotes, the closing one. -/
def owed : Quoting → ℕ
  | .single | .double => 1
  | .outside | .escaped | .doubleEscaped => 0

def Word.length (word : Option Word) : ℕ := (word.getD .empty).text.length

@[simp] theorem Word.length_none : Word.length none = 0 := rfl

@[simp] theorem Word.length_some (word : Word) : Word.length (some word) = word.text.length := rfl

@[simp] theorem Word.length_getD (word : Option Word) :
    (word.getD .empty).text.length = Word.length word := rfl

variable {word : Option Word} {words : List Word} {line : List Char}

/-- What one character outside of quotes does to the word: it ends the word, or joins it, or is not
kept in it. -/
theorem readWords_outside_cases (h : readWords .outside word (character :: line) = some words) :
    (∃ others, readWords .outside none line = some others ∧ words = word.toList ++ others) ∨
    (isOrdinary character = true ∧ (word = none → isLeading character = false) ∧
      readWords .outside (some ((word.getD .empty).push character)) line = some words) ∨
    ∃ quoting next, readWords quoting next line = some words ∧
      Word.length next = Word.length word := by
  rw [readWords] at h
  split at h
  · obtain ⟨others, hothers, rfl⟩ := Option.map_eq_some_iff.mp h
    exact .inl ⟨others, hothers, rfl⟩
  next hblank =>
  split at h
  · exact .inr (.inr ⟨_, _, h, rfl⟩)
  next hsingle =>
  split at h
  · exact .inr (.inr ⟨_, _, h, rfl⟩)
  next hdouble =>
  split at h
  · exact .inr (.inr ⟨_, _, h, rfl⟩)
  next hslash =>
  split at h
  · cases h
  next hquiet =>
  simp only [Bool.or_eq_true, Bool.and_eq_true, not_or, Bool.not_eq_true] at hblank hquiet
  refine .inr (.inl ⟨?_, ?_, h⟩)
  · simp [isOrdinary, isQuote, hblank, hsingle, hdouble, hslash, hquiet]
  · rintro rfl
    simpa using hquiet.2

/-- Where a character is read between quotes or behind a backslash, at most that character is added
to what is held. -/
theorem readWords_quoting_cases {quoting : Quoting} (hquoting : quoting ≠ .outside)
    (h : readWords quoting word (character :: line) = some words) :
    ∃ after next, readWords after next line = some words ∧
      Word.length next + owed quoting ≤ Word.length word + 1 + owed after := by
  cases quoting with
  | outside => exact absurd rfl hquoting
  | single =>
    rw [readWords] at h
    split at h
    · exact ⟨_, _, h, by simp [owed]⟩
    · exact ⟨_, _, h, by simp [owed]⟩
  | double =>
    rw [readWords] at h
    split at h
    · exact ⟨_, _, h, by simp [owed]⟩
    · split at h
      · exact ⟨_, _, h, by simp [owed]⟩
      · split at h
        · cases h
        · exact ⟨_, _, h, by simp [owed]⟩
  | escaped =>
    rw [readWords] at h
    split at h
    · exact ⟨_, _, h, by simp [owed]⟩
    · exact ⟨_, _, h, by simp [owed]⟩
  | doubleEscaped =>
    rw [readWords] at h
    split at h
    · exact ⟨_, _, h, by simp [owed]; omega⟩
    · split at h
      · exact ⟨_, _, h, by simp [owed]⟩
      · exact ⟨_, _, h, by simp [owed]⟩

theorem size_append (words others : List Word) :
    size (words ++ others) = size words + size others := by
  simp [size]

theorem size_toList (word : Option Word) : size word.toList ≤ Word.length word + 1 := by
  cases word <;> simp [size]

theorem size_readWords {quoting : Quoting} (h : readWords quoting word line = some words) :
    size words + owed quoting ≤ Word.length word + 1 + line.length := by
  induction line generalizing quoting word words with
  | nil =>
    cases quoting with
    | outside =>
      rw [readWords, Option.some.injEq] at h
      subst h
      exact size_toList word
    | single | double | escaped | doubleEscaped => cases h
  | cons character line ih =>
    rw [List.length_cons]
    -- a step outside of quotes, or one between them
    by_cases hquoting : quoting = .outside
    · subst hquoting
      rcases readWords_outside_cases h with ⟨others, hothers, rfl⟩ | ⟨-, -, hpushed⟩ |
        ⟨_, _, hnext, hlength⟩
      · have hbound := ih hothers
        have hword := size_toList word
        rw [size_append]
        simp only [owed, Word.length_none] at hbound ⊢
        omega
      · have hbound := ih hpushed
        simp only [owed, Word.length_some, Word.text_push, List.length_append,
          List.length_singleton, Word.length_getD] at hbound ⊢
        omega
      · have hbound := ih hnext
        simp only [owed]
        omega
    · obtain ⟨_, _, hnext, hlength⟩ := readWords_quoting_cases hquoting h
      have hbound := ih hnext
      omega

/-- A plain word is plain with an ordinary character behind it, and a character that does not lead
is a plain word. -/
theorem plain_push (hword : ∀ held ∈ word, Plain held.text)
    (hordinary : isOrdinary character = true) (hlead : word = none → isLeading character = false) :
    Plain ((word.getD .empty).push character).text := by
  rw [Word.text_push]
  cases word with
  | none => exact ⟨by simp, by simpa using hordinary, by simpa using hlead rfl⟩
  | some held =>
    have hheld := hword held rfl
    refine ⟨by simp, ?_, ?_⟩
    · intro other hother
      rcases List.mem_append.mp hother with hother | hother
      · exact hheld.ordinary other hother
      · rwa [List.mem_singleton.mp hother]
    · intro other hother
      rw [Option.getD_some, List.head?_append_of_ne_nil _ hheld.nonempty] at hother
      exact hheld.head other hother

/-- Words that keep all of a line but the blanks between them are plain. -/
theorem plain_of_size (h : readWords .outside word line = some words)
    (hall : Word.length word + 1 + line.length ≤ size words)
    (hword : ∀ held ∈ word, Plain held.text) : ∀ held ∈ words, Plain held.text := by
  induction line generalizing word words with
  | nil =>
    rw [readWords, Option.some.injEq] at h
    subst h
    simpa using hword
  | cons character line ih =>
    rw [List.length_cons] at hall
    rcases readWords_outside_cases h with ⟨others, hothers, rfl⟩ | ⟨hordinary, hlead, hpushed⟩ |
      ⟨_, _, hnext, hlength⟩
    · have hbound := size_readWords hothers
      rw [size_append] at hall
      cases word with
      | none =>
        -- A blank is dropped that delimits nothing.
        simp only [size, owed, Word.length_none, Option.toList_none, List.map_nil, List.sum_nil]
          at hall hbound
        omega
      | some held =>
        have hrest := ih hothers (by simp [size] at hall ⊢; omega) (by simp)
        intro other hother
        rcases List.mem_append.mp hother with hother | hother
        · exact hword other (Option.mem_toList.mp hother)
        · exact hrest other hother
    · refine ih hpushed ?_ fun held hheld => ?_
      · simp only [Word.length_some, Word.text_push, List.length_append, List.length_singleton,
          Word.length_getD]
        omega
      · obtain rfl := Option.some.inj hheld
        exact plain_push hword hordinary hlead
    · have hbound := size_readWords hnext
      omega

theorem length_intercalate {list : List (List Char)} (hne : list ≠ []) :
    ([' '].intercalate list).length + 1 = (list.map fun word => word.length + 1).sum := by
  induction list with
  | nil => exact absurd rfl hne
  | cons word list ih =>
    cases list with
    | nil => simp [List.intercalate]
    | cons next list =>
      have hmore := ih (by simp)
      simp [List.intercalate] at hmore ⊢
      omega

/-- **Words without quotes are a command with its arguments exactly if they are plain**, and the
first is not one that the shell takes for itself. -/
theorem commandWords_bare_iff {first : List Char} (rest : List (List Char))
    (hfirst : Word.isTaken ⟨first, none⟩ = false) :
    commandWords ([' '].intercalate (first :: rest)) = some (first :: rest) ↔
      ∀ word ∈ first :: rest, Plain word := by
  constructor
  · intro h
    rw [commandWords, Option.bind_eq_bind, Option.bind_eq_some_iff] at h
    obtain ⟨words, hwords, htexts⟩ := h
    split at htexts
    · cases htexts
    · have htexts : words.map Word.text = first :: rest := by simpa using htexts
      -- the words keep every character but the blanks, so no more than these was dropped
      have hsize : size words = ([' '].intercalate (first :: rest)).length + 1 := by
        rw [length_intercalate (by simp), ← htexts, size, List.map_map]
        rfl
      have hplain := plain_of_size hwords (by simp [Word.length, hsize]; omega) (by simp)
      intro word hword
      rw [← htexts] at hword
      obtain ⟨held, hheld, rfl⟩ := List.mem_map.mp hword
      exact hplain held hheld
  · intro hplain
    rw [commandWords, readWords_bare hplain]
    simp [hfirst, Word.text, Function.comp_def]

end CommandLine
