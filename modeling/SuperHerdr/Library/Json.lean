import Mathlib

/-!
# JSON texts, and words searched for in them

A JSON text is given by how it is written (`Json`): its literals with their escapes, the blanks
between its tokens, members in the order they stand. `chars` is the text and `value` what it means.

A quoted word that is searched for in such a text (`afterFirst`) is found at a literal that
**names** it: one that is the word, or that ends with the word behind an escaped quote.
`afterFirst_literal` says so of one literal.
-/

namespace JsonText

/-! ### Literals -/

inductive Escape
  | quote
  | backslash
  | slash
  | backspace
  | formFeed
  | newline
  | carriageReturn
  | tab
deriving DecidableEq

namespace Escape

/-- How an escape is written behind its backslash. -/
def letter : Escape → Char
  | quote => '"'
  | backslash => '\\'
  | slash => '/'
  | backspace => 'b'
  | formFeed => 'f'
  | newline => 'n'
  | carriageReturn => 'r'
  | tab => 't'

def char : Escape → Char
  | quote => '"'
  | backslash => '\\'
  | slash => '/'
  | backspace => '\x08'
  | formFeed => '\x0c'
  | newline => '\n'
  | carriageReturn => '\r'
  | tab => '\t'

end Escape

def hexDigit (c : Char) : Option ℕ :=
  if '0' ≤ c ∧ c ≤ '9' then some (c.toNat - '0'.toNat)
  else if 'a' ≤ c ∧ c ≤ 'f' then some (c.toNat - 'a'.toNat + 10)
  else if 'A' ≤ c ∧ c ≤ 'F' then some (c.toNat - 'A'.toNat + 10)
  else none

/-- A code unit of four hexadecimal digits. -/
def codeUnit : List Char → Option ℕ
  | [a, b, c, d] => do
      return (← hexDigit a) * 0x1000 + (← hexDigit b) * 0x100 + (← hexDigit c) * 0x10 + (← hexDigit d)
  | _ => none

/-- The character of what stands behind `\u`: a code unit, or two that are a surrogate pair. -/
def unicodeChar (raw : List Char) : Option Char :=
  match raw with
  | [_, _, _, _] => (codeUnit raw).bind fun unit =>
      if unit < 0xd800 ∨ 0xdfff < unit then some (Char.ofNat unit) else none
  | [a, b, c, d, '\\', 'u', e, f, g, h] => do
      let high ← codeUnit [a, b, c, d]
      let low ← codeUnit [e, f, g, h]
      if 0xd800 ≤ high ∧ high < 0xdc00 ∧ 0xdc00 ≤ low ∧ low < 0xe000 then
        some (Char.ofNat (0x10000 + (high - 0xd800) * 0x400 + (low - 0xdc00)))
      else none
  | _ => none

/-- What a literal is written with. -/
inductive Item
  | plain (c : Char) (h : c ≠ '"' ∧ c ≠ '\\' ∧ ' ' ≤ c)
  | escape (escape : Escape)
  | unicode (raw : List Char) (c : Char) (h : unicodeChar raw = some c)

namespace Item

def chars : Item → List Char
  | plain c _ => [c]
  | escape e => ['\\', e.letter]
  | unicode raw _ _ => '\\' :: 'u' :: raw

def char : Item → Char
  | plain c _ => c
  | escape e => e.char
  | unicode _ c _ => c

/-- The character of an item that is not an escape. -/
def plain? : Item → Option Char
  | plain c _ => some c
  | _ => none

end Item

/-- What stands between the quotes of a literal. -/
def chars (literal : List Item) : List Char := literal.flatMap Item.chars

def decoded (literal : List Item) : String := String.ofList (literal.map Item.char)

/-- The literal is the word, without an escape. -/
def spells (word : List Char) (literal : List Item) : Bool :=
  literal.map Item.plain? = word.map some

/-- The literal ends with the word, behind an escaped quote. -/
def endsWith (word : List Char) : List Item → Bool
  | [] => false
  | .escape .quote :: literal => spells word literal || endsWith word literal
  | _ :: literal => endsWith word literal

def names (word : List Char) (literal : List Item) : Bool :=
  spells word literal || endsWith word literal

/-- How a character is written: with an escape of its own, by its number, or as it is. -/
def written (c : Char) : Item :=
  if hquote : c = '"' then .escape .quote
  else if hslash : c = '\\' then .escape .backslash
  else if c = '\x08' then .escape .backspace
  else if c = '\x0c' then .escape .formFeed
  else if c = '\n' then .escape .newline
  else if c = '\r' then .escape .carriageReturn
  else if c = '\t' then .escape .tab
  else if hplain : ' ' ≤ c then .plain c ⟨hquote, hslash, hplain⟩
  else .unicode ['0', '0', Nat.digitChar (c.toNat / 16), Nat.digitChar (c.toNat % 16)] c (by
    have hcontrol : ∀ n < 32, unicodeChar
        ['0', '0', Nat.digitChar (n / 16), Nat.digitChar (n % 16)] = some (Char.ofNat n) := by
      decide
    have hlt : c.toNat < 32 := not_le.mp hplain
    rw [hcontrol c.toNat hlt, Char.ofNat_toNat])

/-- A text written as a literal. -/
def literalOf (text : String) : List Item := text.toList.map written

/-! ### Texts -/

/-- Blanks between tokens. -/
structure Spaces where
  chars : List Char
  blank : ∀ c ∈ chars, c = ' ' ∨ c = '\t' ∨ c = '\n' ∨ c = '\r'

/-- A number, or one of the three words. Which numbers there are does not matter here. -/
structure Scalar where
  chars : List Char
  nonempty : chars ≠ []
  plain : ∀ c ∈ chars, c.isAlphanum ∨ c = '+' ∨ c = '-' ∨ c = '.'

mutual

inductive Json
  | scalar (value : Scalar)
  | string (literal : List Item)
  | array (pad : Spaces) (elements : Elements)
  | object (pad : Spaces) (members : Members)

inductive Elements
  | nil
  | cons (before : Spaces) (value : Json) (after : Spaces) (rest : Elements)

inductive Members
  | nil
  | cons (before : Spaces) (key : List Item) (beforeColon afterColon : Spaces) (value : Json)
      (after : Spaces) (rest : Members)

end

/-- A literal in its quotes. -/
def quoted (literal : List Item) : List Char := '"' :: (chars literal ++ ['"'])

mutual

def Json.chars : Json → List Char
  | .scalar value => value.chars
  | .string literal => quoted literal
  | .array pad elements => '[' :: (pad.chars ++ elements.chars [] ++ [']'])
  | .object pad members => '\x7b' :: (pad.chars ++ members.chars [] ++ ['\x7d'])

/-- Elements are led by nothing or, behind others, by a comma. -/
def Elements.chars (lead : List Char) : Elements → List Char
  | .nil => []
  | .cons before value after rest =>
      lead ++ before.chars ++ value.chars ++ after.chars ++ rest.chars [',']

def Members.chars (lead : List Char) : Members → List Char
  | .nil => []
  | .cons before key beforeColon afterColon value after rest =>
      lead ++ before.chars ++ quoted key ++ beforeColon.chars ++ ':' :: afterColon.chars ++
        value.chars ++ after.chars ++ rest.chars [',']

end

/-! ### What a text means -/

inductive Value
  | scalar (chars : List Char)
  | string (text : String)
  | array (elements : List Value)
  | object (members : List (String × Value))

/-- The member of an object; the last of a name counts. -/
def Value.get (key : String) : Value → Option Value
  | .object members => (members.reverse.find? fun member => member.1 = key).map Prod.snd
  | _ => none

mutual

def Json.value : Json → Value
  | .scalar value => .scalar value.chars
  | .string literal => .string (decoded literal)
  | .array _ elements => .array elements.values
  | .object _ members => .object members.values

def Elements.values : Elements → List Value
  | .nil => []
  | .cons _ value _ rest => value.value :: rest.values

def Members.values : Members → List (String × Value)
  | .nil => []
  | .cons _ key _ _ value _ rest => (decoded key, value.value) :: rest.values

end

/-- A text on its own, with what blanks stand around it. -/
structure Document where
  before : Spaces
  json : Json
  after : Spaces

def Document.text (self : Document) : String :=
  String.ofList (self.before.chars ++ self.json.chars ++ self.after.chars)

/-! ### The first literal that names a word -/

def Json.literal? : Json → Option (List Item)
  | .string literal => some literal
  | _ => none

mutual

/-- The first literal of a text that names a word, and of the key of a member the literal that is
the member's value. -/
def Json.firstNamed (word : List Char) : Json → Option (Option (List Item))
  | .scalar _ => none
  | .string literal => if names word literal then some none else none
  | .array _ elements => elements.firstNamed word
  | .object _ members => members.firstNamed word

def Elements.firstNamed (word : List Char) : Elements → Option (Option (List Item))
  | .nil => none
  | .cons _ value _ rest => (value.firstNamed word).or (rest.firstNamed word)

def Members.firstNamed (word : List Char) : Members → Option (Option (List Item))
  | .nil => none
  | .cons _ key _ _ value _ rest =>
      if names word key then some value.literal?
      else (value.firstNamed word).or (rest.firstNamed word)

end

/-! ### Searching -/

/-- What stands behind the first place a key is found at. -/
def afterFirst (key : List Char) : List Char → Option (List Char)
  | [] => if key = [] then some [] else none
  | c :: text => if key <+: c :: text then some ((c :: text).drop key.length) else afterFirst key text

section Search

variable {word : List Char} {rest text : List Char}

/-- A word in quotes. -/
def quotedWord (word : List Char) : List Char := '"' :: (word ++ ['"'])

/-- What stands behind a value: a comma or a closing bracket, or nothing. -/
def Follows (rest : List Char) : Prop :=
  ∃ spaces : Spaces, ∃ tail, rest = spaces.chars ++ tail ∧
    ∀ c ∈ tail.head?, c = ',' ∨ c = ']' ∨ c = '\x7d'

theorem afterFirst_cons {key : List Char} {c : Char} (h : ¬ key <+: c :: text) :
    afterFirst key (c :: text) = afterFirst key text := by
  rw [afterFirst, if_neg h]

/-- No place in front of the first quote is one. -/
theorem afterFirst_append {front : List Char} (h : '"' ∉ front) :
    afterFirst (quotedWord word) (front ++ text) = afterFirst (quotedWord word) text := by
  induction front with
  | nil => rfl
  | cons c front ih =>
    rw [List.mem_cons, not_or] at h
    rw [List.cons_append, afterFirst_cons, ih h.2]
    intro hprefix
    exact h.1 (List.cons_prefix_cons.mp hprefix).1

theorem not_mem_of_codeUnit {raw : List Char} {unit : ℕ} (h : codeUnit raw = some unit) :
    '"' ∉ raw := by
  have hquote : ∀ unit, hexDigit '"' ≠ some unit := by
    intro unit h
    cases h
  unfold codeUnit at h
  split at h
  · next a b c d =>
    simp only [Option.bind_eq_bind, Option.bind_eq_some_iff] at h
    obtain ⟨_, ha, _, hb, _, hc, _, hd, -⟩ := h
    intro hmem
    simp only [List.mem_cons, List.not_mem_nil, or_false] at hmem
    rcases hmem with rfl | rfl | rfl | rfl
    · exact hquote _ ha
    · exact hquote _ hb
    · exact hquote _ hc
    · exact hquote _ hd
  · cases h

theorem not_mem_of_unicodeChar {raw : List Char} {c : Char} (h : unicodeChar raw = some c) :
    '"' ∉ raw := by
  unfold unicodeChar at h
  split at h
  · obtain ⟨unit, hunit, -⟩ := Option.bind_eq_some_iff.mp h
    exact not_mem_of_codeUnit hunit
  · next a b c d e f g h' =>
    simp only [Option.bind_eq_bind, Option.bind_eq_some_iff] at h
    obtain ⟨high, hhigh, low, hlow, -⟩ := h
    have hfirst := not_mem_of_codeUnit hhigh
    have hsecond := not_mem_of_codeUnit hlow
    simp only [List.mem_cons, List.not_mem_nil, or_false, not_or] at hfirst hsecond ⊢
    exact ⟨hfirst.1, hfirst.2.1, hfirst.2.2.1, hfirst.2.2.2, by decide, by decide, hsecond⟩
  · cases h

theorem chars_cons (item : Item) (literal : List Item) :
    chars (item :: literal) = item.chars ++ chars literal := rfl

theorem chars_of_spells {literal : List Item} (h : spells word literal = true) :
    chars literal = word := by
  replace h := of_decide_eq_true h
  induction literal generalizing word with
  | nil =>
    cases word with
    | nil => rfl
    | cons w word => cases h
  | cons item literal ih =>
    cases word with
    | nil => cases h
    | cons w word =>
      obtain ⟨hitem, hrest⟩ := List.cons.inj h
      cases item with
      | plain c hc =>
        rw [chars_cons, ih hrest]
        exact congrArg (· :: word) (Option.some.inj hitem)
      | escape e => cases hitem
      | unicode raw c hc => cases hitem

/-- A word and a quote stand at the start of a literal only if they are all of it. -/
theorem prefix_literal_iff (hword : ∀ c ∈ word, c.isAlpha = true) (literal : List Item) :
    word ++ ['"'] <+: chars literal ++ '"' :: rest ↔ spells word literal = true := by
  induction word generalizing literal with
  | nil =>
    cases literal with
    | nil => simp [chars, spells]
    | cons item literal =>
      cases item with
      | plain c hc => simp [chars_cons, Item.chars, spells, hc.1.symm]
      | escape e => simp [chars_cons, Item.chars, spells]
      | unicode raw c hc => simp [chars_cons, Item.chars, spells]
  | cons w word ih =>
    have hw : w.isAlpha = true := hword w List.mem_cons_self
    have hrest := ih fun c hc => hword c (List.mem_cons_of_mem w hc)
    have hquote : w ≠ '"' := by rintro rfl; cases hw
    have hslash : w ≠ '\\' := by rintro rfl; cases hw
    cases literal with
    | nil => simp [chars, spells, hquote]
    | cons item literal =>
      cases item with
      | plain c hc =>
        have hsplit : spells (w :: word) (.plain c hc :: literal) = true ↔
            w = c ∧ spells word literal = true := by
          rw [spells, spells, decide_eq_true_iff, decide_eq_true_iff, List.map_cons, List.map_cons,
            List.cons.injEq, Item.plain?, Option.some.injEq]
          exact and_congr_left' eq_comm
        rw [hsplit, chars_cons, Item.chars, List.cons_append, List.cons_append,
          List.cons_append, List.nil_append, List.cons_prefix_cons, hrest literal]
      | escape e => simp [chars_cons, Item.chars, spells, Item.plain?, hslash]
      | unicode raw c hc => simp [chars_cons, Item.chars, spells, Item.plain?, hslash]

theorem drop_literal {literal : List Item} (h : spells word literal = true) :
    ('"' :: (chars literal ++ '"' :: rest)).drop (quotedWord word).length = rest := by
  rw [chars_of_spells h, quotedWord]
  simp

/-- Searching from inside a literal: its end names the word, or the search goes on behind it. -/
theorem afterFirst_inside (hword : ∀ c ∈ word, c.isAlpha = true) (hne : word ≠ [])
    (hrest : ∀ c ∈ rest.head?, c.isAlpha = false) (literal : List Item) :
    afterFirst (quotedWord word) (chars literal ++ '"' :: rest) =
      if endsWith word literal then some rest else afterFirst (quotedWord word) rest := by
  induction literal with
  | nil =>
    -- The closing quote is not the opening one of the word.
    refine afterFirst_cons fun hprefix => ?_
    obtain ⟨-, hprefix⟩ := List.cons_prefix_cons.mp hprefix
    obtain ⟨w, word, rfl⟩ := List.exists_cons_of_ne_nil hne
    cases rest with
    | nil => cases List.prefix_nil.mp hprefix
    | cons c rest =>
      obtain ⟨rfl, -⟩ := List.cons_prefix_cons.mp hprefix
      have hfalse := hrest w rfl
      rw [hword w List.mem_cons_self] at hfalse
      cases hfalse
  | cons item literal ih =>
    rw [chars_cons, List.append_assoc]
    cases item with
    | plain c hc =>
      rw [afterFirst_append (by simp [Item.chars, hc.1.symm]), ih]
      rfl
    | unicode raw c hc =>
      rw [afterFirst_append (by simp [Item.chars, not_mem_of_unicodeChar hc]), ih]
      rfl
    | escape e =>
      by_cases hquote : e = .quote
      · subst hquote
        have hslash : afterFirst (quotedWord word)
            ((Item.escape .quote).chars ++ (chars literal ++ '"' :: rest)) =
              afterFirst (quotedWord word) ('"' :: (chars literal ++ '"' :: rest)) :=
          afterFirst_cons fun hprefix => absurd (List.cons_prefix_cons.mp hprefix).1 (by decide)
        rw [hslash]
        by_cases hspells : spells word literal = true
        · have hprefix : quotedWord word <+: '"' :: (chars literal ++ '"' :: rest) :=
            List.cons_prefix_cons.mpr ⟨rfl, (prefix_literal_iff hword literal).mpr hspells⟩
          rw [afterFirst, if_pos hprefix, drop_literal hspells, endsWith, hspells]
          rfl
        · have hprefix : ¬ quotedWord word <+: '"' :: (chars literal ++ '"' :: rest) := by
            intro hprefix
            exact hspells ((prefix_literal_iff hword literal).mp (List.cons_prefix_cons.mp hprefix).2)
          rw [afterFirst_cons hprefix, ih, endsWith, Bool.eq_false_iff.mpr hspells]
          rfl
      · have hletter : '"' ∉ (Item.escape e).chars := by
          cases e <;> simp_all [Item.chars, Escape.letter]
        have hends : endsWith word (.escape e :: literal) = endsWith word literal := by
          cases e <;> first | rfl | exact absurd rfl hquote
        rw [afterFirst_append hletter, ih, hends]

/-- **A search stops at a literal if it names the word**, and otherwise goes on behind it. -/
theorem afterFirst_literal (hword : ∀ c ∈ word, c.isAlpha = true) (hne : word ≠ [])
    (hrest : ∀ c ∈ rest.head?, c.isAlpha = false) (literal : List Item) :
    afterFirst (quotedWord word) (quoted literal ++ rest) =
      if names word literal then some rest else afterFirst (quotedWord word) rest := by
  have htext : quoted literal ++ rest = '"' :: (chars literal ++ '"' :: rest) := by
    simp [quoted]
  rw [htext]
  by_cases hspells : spells word literal = true
  · have hprefix : quotedWord word <+: '"' :: (chars literal ++ '"' :: rest) :=
      List.cons_prefix_cons.mpr ⟨rfl, (prefix_literal_iff hword literal).mpr hspells⟩
    rw [afterFirst, if_pos hprefix, drop_literal hspells, names, hspells]
    rfl
  · have hprefix : ¬ quotedWord word <+: '"' :: (chars literal ++ '"' :: rest) := by
      intro hprefix
      exact hspells ((prefix_literal_iff hword literal).mp (List.cons_prefix_cons.mp hprefix).2)
    rw [afterFirst_cons hprefix, afterFirst_inside hword hne hrest, names,
      Bool.eq_false_iff.mpr hspells]
    rfl

/-! ### Searching a text -/

def Spaces.append (first second : Spaces) : Spaces where
  chars := first.chars ++ second.chars
  blank c hc := (List.mem_append.mp hc).elim (first.blank c) (second.blank c)

theorem Spaces.not_mem (self : Spaces) : '"' ∉ self.chars := by
  intro hmem
  have hblank := self.blank '"' hmem
  revert hblank
  decide

theorem Spaces.not_alpha (self : Spaces) {c : Char} (h : c ∈ self.chars) : c.isAlpha = false := by
  rcases self.blank c h with rfl | rfl | rfl | rfl <;> rfl

/-- Behind blanks, too, no word begins. -/
theorem Spaces.head_not_alpha (self : Spaces) (h : ∀ c ∈ text.head?, c.isAlpha = false) :
    ∀ c ∈ (self.chars ++ text).head?, c.isAlpha = false := by
  intro c hc
  cases hspaces : self.chars with
  | nil =>
    rw [hspaces, List.nil_append] at hc
    exact h c hc
  | cons blank blanks =>
    rw [hspaces] at hc
    obtain rfl : blank = c := Option.some.inj hc
    exact self.not_alpha (hspaces ▸ List.mem_cons_self)

theorem Follows.not_alpha (h : Follows rest) : ∀ c ∈ rest.head?, c.isAlpha = false := by
  obtain ⟨spaces, tail, rfl, htail⟩ := h
  refine spaces.head_not_alpha fun c hc => ?_
  rcases htail c hc with rfl | rfl | rfl <;> rfl

theorem Follows.spaces (h : Follows rest) (first : Spaces) : Follows (first.chars ++ rest) := by
  obtain ⟨spaces, tail, rfl, htail⟩ := h
  exact ⟨first.append spaces, tail, by simp [Spaces.append], htail⟩

def Spaces.none : Spaces := ⟨[], by simp⟩

theorem follows_cons {c : Char} (h : c = ',' ∨ c = ']' ∨ c = '\x7d') : Follows (c :: rest) :=
  ⟨.none, c :: rest, rfl, by simpa using h⟩

theorem follows_elements (h : Follows rest) (elements : Elements) :
    Follows (elements.chars [','] ++ rest) := by
  cases elements with
  | nil => exact h
  | cons before value after rest =>
    rw [Elements.chars]
    exact follows_cons (.inl rfl)

theorem follows_members (h : Follows rest) (members : Members) :
    Follows (members.chars [','] ++ rest) := by
  cases members with
  | nil => exact h
  | cons before key beforeColon afterColon value after rest =>
    rw [Members.chars]
    exact follows_cons (.inl rfl)

theorem Scalar.not_mem (self : Scalar) : '"' ∉ self.chars := by
  intro hmem
  have hplain := self.plain '"' hmem
  revert hplain
  decide

section Read

set_option linter.unusedSectionVars false

variable {α : Type*} {read : List Char → Option α} {f : List Item → α}
  (hword : ∀ c ∈ word, c.isAlpha = true) (hne : word ≠ [])
  (hstop : ∀ rest, Follows rest → read rest = none)
  (hkey : ∀ (before after : Spaces) (value : Json) (rest : List Char), Follows rest →
    read (before.chars ++ ':' :: (after.chars ++ (value.chars ++ rest))) = value.literal?.map f)

include hword hne hstop hkey

mutual

/-- **What is read behind a quoted word is read at the first literal that names it.** A reader reads
nothing behind a value, and behind a key the literal that is its value. -/
theorem read_json (json : Json) (rest : List Char) (hrest : Follows rest) :
    (afterFirst (quotedWord word) (json.chars ++ rest)).bind read =
      ((json.firstNamed word).map (Option.map f)).getD
        ((afterFirst (quotedWord word) rest).bind read) := by
  match json with
  | .scalar value =>
    rw [Json.chars, afterFirst_append value.not_mem]
    rfl
  | .string literal =>
    rw [Json.chars, afterFirst_literal hword hne hrest.not_alpha, Json.firstNamed]
    split
    · exact hstop rest hrest
    · rfl
  | .array pad elements =>
    have htext : (Json.array pad elements).chars ++ rest =
        ('[' :: pad.chars) ++ (elements.chars [] ++ (']' :: rest)) := by
      simp [Json.chars]
    have hpad : '"' ∉ '[' :: pad.chars := by simp [pad.not_mem]
    have hclose : afterFirst (quotedWord word) (']' :: rest) =
        afterFirst (quotedWord word) rest := afterFirst_cons (by simp [quotedWord])
    rw [htext, afterFirst_append hpad,
      read_elements elements [] (by simp) (']' :: rest) (follows_cons (.inr (.inl rfl))), hclose,
      Json.firstNamed]
  | .object pad members =>
    have htext : (Json.object pad members).chars ++ rest =
        ('\x7b' :: pad.chars) ++ (members.chars [] ++ ('\x7d' :: rest)) := by
      simp [Json.chars]
    have hpad : '"' ∉ '\x7b' :: pad.chars := by simp [pad.not_mem]
    have hclose : afterFirst (quotedWord word) ('\x7d' :: rest) =
        afterFirst (quotedWord word) rest := afterFirst_cons (by simp [quotedWord])
    rw [htext, afterFirst_append hpad,
      read_members members [] (by simp) ('\x7d' :: rest) (follows_cons (.inr (.inr rfl))), hclose,
      Json.firstNamed]

theorem read_elements (elements : Elements) (lead : List Char) (hlead : '"' ∉ lead)
    (rest : List Char) (hrest : Follows rest) :
    (afterFirst (quotedWord word) (elements.chars lead ++ rest)).bind read =
      ((elements.firstNamed word).map (Option.map f)).getD
        ((afterFirst (quotedWord word) rest).bind read) := by
  match elements with
  | .nil => rfl
  | .cons before value after tail =>
    have htext : (Elements.cons before value after tail).chars lead ++ rest =
        (lead ++ before.chars) ++ (value.chars ++ (after.chars ++ (tail.chars [','] ++ rest))) := by
      simp [Elements.chars]
    have hfront : '"' ∉ lead ++ before.chars := by simp [hlead, before.not_mem]
    rw [htext, afterFirst_append hfront,
      read_json value _ ((follows_elements hrest tail).spaces after),
      afterFirst_append after.not_mem, read_elements tail [','] (by simp) rest hrest,
      Elements.firstNamed]
    cases value.firstNamed word <;> rfl

theorem read_members (members : Members) (lead : List Char) (hlead : '"' ∉ lead)
    (rest : List Char) (hrest : Follows rest) :
    (afterFirst (quotedWord word) (members.chars lead ++ rest)).bind read =
      ((members.firstNamed word).map (Option.map f)).getD
        ((afterFirst (quotedWord word) rest).bind read) := by
  match members with
  | .nil => rfl
  | .cons before key beforeColon afterColon value after tail =>
    have hfollows : Follows (after.chars ++ (tail.chars [','] ++ rest)) :=
      (follows_members hrest tail).spaces after
    have htext : (Members.cons before key beforeColon afterColon value after tail).chars lead ++
        rest = (lead ++ before.chars) ++ (quoted key ++ (beforeColon.chars ++ ':' ::
          (afterColon.chars ++ (value.chars ++ (after.chars ++ (tail.chars [','] ++ rest)))))) := by
      simp [Members.chars]
    have hfront : '"' ∉ lead ++ before.chars := by simp [hlead, before.not_mem]
    have hcolon : ∀ c ∈ (beforeColon.chars ++ ':' :: (afterColon.chars ++ (value.chars ++
        (after.chars ++ (tail.chars [','] ++ rest))))).head?, c.isAlpha = false :=
      beforeColon.head_not_alpha (by simp)
    rw [htext, afterFirst_append hfront, afterFirst_literal hword hne hcolon, Members.firstNamed]
    split
    · exact hkey beforeColon afterColon value _ hfollows
    · have hbetween : '"' ∉ beforeColon.chars ++ ':' :: afterColon.chars := by
        simp [beforeColon.not_mem, afterColon.not_mem]
      have hsplit : beforeColon.chars ++ ':' :: (afterColon.chars ++ (value.chars ++
          (after.chars ++ (tail.chars [','] ++ rest)))) =
            (beforeColon.chars ++ ':' :: afterColon.chars) ++ (value.chars ++
              (after.chars ++ (tail.chars [','] ++ rest))) := by
        simp
      rw [hsplit, afterFirst_append hbetween, read_json value _ hfollows,
        afterFirst_append after.not_mem, read_members tail [','] (by simp) rest hrest]
      cases value.firstNamed word <;> rfl

end

end Read

end Search

/-! ### Literals as they read -/

/-- What stands in a literal before its first quote, escaped or closing. -/
def untilQuote (literal : List Item) : List Char := (chars literal).takeWhile (· ≠ '"')

theorem Item.length_chars (item : Item) :
    1 ≤ item.chars.length ∧ (item.chars.length = 1 ↔ item.plain?.isSome = true) := by
  cases item with
  | plain c h => simp [Item.chars, Item.plain?]
  | escape e => simp [Item.chars, Item.plain?]
  | unicode raw c h => simp [Item.chars, Item.plain?]

theorem length_chars (literal : List Item) :
    literal.length ≤ (chars literal).length ∧ ((chars literal).length = literal.length →
      ∀ item ∈ literal, item.plain?.isSome = true) := by
  induction literal with
  | nil => simp [chars]
  | cons item literal ih =>
    obtain ⟨hle, hplain⟩ := ih
    obtain ⟨hone, hiff⟩ := item.length_chars
    rw [chars_cons, List.length_append, List.length_cons]
    refine ⟨by omega, fun heq other hother => ?_⟩
    rcases List.mem_cons.mp hother with rfl | hother
    · exact hiff.mp (by omega)
    · exact hplain (by omega) other hother

theorem not_mem_chars {literal : List Item} (h : '"' ∉ literal.map Item.char) :
    '"' ∉ chars literal := by
  intro hmem
  obtain ⟨item, hitem, hquote⟩ := List.mem_flatMap.mp hmem
  refine h (List.mem_map.mpr ⟨item, hitem, ?_⟩)
  cases item with
  | plain c hc => exact (List.mem_singleton.mp hquote).symm
  | escape e => cases e <;> simp_all [Item.chars, Escape.letter, Item.char, Escape.char]
  | unicode raw c hc => simp [Item.chars, not_mem_of_unicodeChar hc] at hquote

theorem chars_of_plain {literal : List Item} (h : ∀ item ∈ literal, item.plain?.isSome = true) :
    chars literal = literal.map Item.char ∧ '"' ∉ chars literal := by
  induction literal with
  | nil => exact ⟨rfl, by simp [chars]⟩
  | cons item literal ih =>
    obtain ⟨heq, hmem⟩ := ih fun other hother => h other (List.mem_cons_of_mem item hother)
    have hitem := h item List.mem_cons_self
    cases item with
    | plain c hc =>
      rw [chars_cons, heq]
      exact ⟨rfl, by simp [Item.chars, hc.1.symm, heq ▸ hmem]⟩
    | escape e => cases hitem
    | unicode raw c hc => cases hitem

/-- **A literal read up to the first quote is what it means exactly if it has no escapes.** -/
theorem untilQuote_eq_iff (literal : List Item) :
    untilQuote literal = literal.map Item.char ↔
      ∀ item ∈ literal, item.plain?.isSome = true := by
  constructor
  · intro h
    have hnone : '"' ∉ literal.map Item.char := by
      rw [← h]
      intro hmem
      have hne := List.mem_takeWhile_imp hmem
      simp at hne
    have hall : untilQuote literal = chars literal := by
      refine List.takeWhile_eq_self_iff.mpr fun c hc => ?_
      have hne : c ≠ '"' := fun heq => not_mem_chars hnone (heq ▸ hc)
      simpa using hne
    refine (length_chars literal).2 ?_
    rw [← hall, h, List.length_map]
  · intro h
    obtain ⟨heq, hmem⟩ := chars_of_plain h
    rw [← heq]
    refine List.takeWhile_eq_self_iff.mpr fun c hc => ?_
    have hne : c ≠ '"' := fun hquote => hmem (hquote ▸ hc)
    simpa using hne

theorem char_written (c : Char) : (written c).char = c := by
  unfold written
  split_ifs <;> simp_all [Item.char, Escape.char]

theorem plain_written (c : Char) :
    (written c).plain? = if c ≠ '"' ∧ c ≠ '\\' ∧ ' ' ≤ c then some c else none := by
  unfold written
  split_ifs <;> simp_all [Item.plain?]

@[simp] theorem decoded_literalOf (text : String) : decoded (literalOf text) = text := by
  rw [decoded, literalOf, List.map_map]
  have hid : Item.char ∘ written = id := funext char_written
  rw [hid, List.map_id, String.ofList_toList]

theorem plain_of_alpha {c : Char} (h : c.isAlpha = true) : (written c).plain? = some c := by
  have hquote : c ≠ '"' := by
    rintro rfl
    cases h
  have hslash : c ≠ '\\' := by
    rintro rfl
    cases h
  have hlarge : ' ' ≤ c := by
    simp only [Char.isAlpha, Char.isUpper, Char.isLower, Bool.or_eq_true, Bool.and_eq_true,
      decide_eq_true_eq, ge_iff_le, UInt32.le_iff_toNat_le] at h
    change (65 ≤ c.toNat ∧ c.toNat ≤ 90) ∨ (97 ≤ c.toNat ∧ c.toNat ≤ 122) at h
    have hspace : 32 ≤ c.toNat := by omega
    exact UInt32.le_iff_toNat_le.mpr hspace
  rw [plain_written, if_pos ⟨hquote, hslash, hlarge⟩]

theorem plain_written_eq {c d : Char} (h : (written c).plain? = some d) : c = d := by
  rw [plain_written] at h
  split at h
  · exact Option.some.inj h
  · cases h

section Written

variable {word : List Char} (hword : ∀ c ∈ word, c.isAlpha = true)

include hword

/-- A word is written as it is, and nothing else is. -/
theorem spells_literalOf (text : List Char) :
    spells word (text.map written) = true ↔ text = word := by
  rw [spells, decide_eq_true_iff, List.map_map]
  constructor
  · intro h
    induction text generalizing word with
    | nil =>
      cases word with
      | nil => rfl
      | cons w word => cases h
    | cons c text ih =>
      cases word with
      | nil => cases h
      | cons w word =>
        obtain ⟨hhead, hrest⟩ := List.cons.inj h
        rw [plain_written_eq hhead, ih (fun d hd => hword d (List.mem_cons_of_mem w hd)) hrest]
  · rintro rfl
    exact List.map_congr_left fun c hc => plain_of_alpha (hword c hc)

/-- What ends with a word behind a quote is written so. -/
theorem endsWith_literalOf (text : List Char) :
    endsWith word (text.map written) = true ↔ '"' :: word <:+ text := by
  induction text with
  | nil => simp [endsWith]
  | cons c text ih =>
    rw [List.map_cons, List.suffix_cons_iff, ← ih]
    by_cases hquote : c = '"'
    · subst hquote
      have hwritten : written '"' = .escape .quote := by simp [written]
      rw [hwritten, endsWith, Bool.or_eq_true, spells_literalOf hword, List.cons.injEq]
      simp only [true_and]
      exact or_congr_left eq_comm
    · have hne : ¬ '"' :: word = c :: text := fun h => hquote (List.cons.inj h).1.symm
      have hwritten : written c ≠ .escape .quote := by
        intro h
        have hchar := char_written c
        rw [h] at hchar
        exact hquote hchar.symm
      have hends : endsWith word (written c :: text.map written) =
          endsWith word (text.map written) := by
        rw [endsWith]
        exact fun h => hwritten h
      rw [hends]
      simp [hne]

end Written

end JsonText
