import SuperHerdr.Library.Json

/-!
# Reading a JSON text

A reader of JSON texts by recursive descent. It reads one value and leaves what stands behind it;
`readDocument` reads a text that is one value and nothing else but blanks. The recursion is on a number
that the length of the text bounds.

Every JSON text is read as what it means (`readDocument_text`), however it is written. The reader is
looser than a strict one: it takes any word of letters, digits and signs for a number.
-/

namespace JsonText

def isBlank (c : Char) : Bool := c = ' ' || c = '\t' || c = '\n' || c = '\r'

/-- What a number or one of the three words is written with. -/
def isScalar (c : Char) : Bool := c.isAlphanum || c = '+' || c = '-' || c = '.'

/-- The character an escape stands for, by the letter behind its backslash. -/
def escaped : Char → Option Char
  | '"' => some '"'
  | '\\' => some '\\'
  | '/' => some '/'
  | 'b' => some '\x08'
  | 'f' => some '\x0c'
  | 'n' => some '\n'
  | 'r' => some '\r'
  | 't' => some '\t'
  | _ => none

/-- A character of two code units, behind the first of them. -/
def readPair (unit : List Char) : List Char → Option (Char × List Char)
  | '\\' :: 'u' :: e :: f :: g :: h :: rest =>
      (unicodeChar (unit ++ ['\\', 'u', e, f, g, h])).map fun decoded => (decoded, rest)
  | _ => none

/-- What stands behind a backslash: its character, and the rest. -/
def readEscape : List Char → Option (Char × List Char)
  | 'u' :: a :: b :: c :: d :: rest =>
      ((unicodeChar [a, b, c, d]).map fun decoded => (decoded, rest)).or (readPair [a, b, c, d] rest)
  | letter :: rest => (escaped letter).map fun decoded => (decoded, rest)
  | [] => none

/-- A literal behind its first quote: what it says, and what stands behind its last. -/
def readLiteral : ℕ → List Char → Option (List Char × List Char)
  | 0, _ => none
  | _, [] => none
  | fuel + 1, c :: rest =>
      if c = '"' then some ([], rest)
      else if c = '\\' then
        (readEscape rest).bind fun (decoded, rest) =>
          (readLiteral fuel rest).map fun (text, rest) => (decoded :: text, rest)
      else if ' ' ≤ c then (readLiteral fuel rest).map fun (text, rest) => (c :: text, rest)
      else none

/-- What stands behind a character, if it is the next. -/
def expect (c : Char) : List Char → Option (List Char)
  | next :: rest => if next = c then some rest else none
  | [] => none

mutual

def readValue : ℕ → List Char → Option (Value × List Char)
  | 0, _ => none
  | _, [] => none
  | fuel + 1, c :: rest =>
      if c = '"' then
        (readLiteral fuel rest).map fun (text, rest) => (.string (String.ofList text), rest)
      else if c = '[' then
        (readElements fuel true rest).map fun (values, rest) => (.array values, rest)
      else if c = '\x7b' then
        (readMembers fuel true rest).map fun (members, rest) => (.object members, rest)
      else if isScalar c then
        some (.scalar ((c :: rest).takeWhile isScalar), (c :: rest).dropWhile isScalar)
      else none

/-- The elements of an array, to its end. All but the first stand behind a comma. -/
def readElements : ℕ → Bool → List Char → Option (List Value × List Char)
  | 0, _, _ => none
  | fuel + 1, first, text =>
      match expect ']' (text.dropWhile isBlank) with
      | some rest => some ([], rest)
      | none => do
          let text ← if first then some text else expect ',' (text.dropWhile isBlank)
          let (value, rest) ← readValue fuel (text.dropWhile isBlank)
          let (values, rest) ← readElements fuel false rest
          some (value :: values, rest)

def readMembers : ℕ → Bool → List Char → Option (List (String × Value) × List Char)
  | 0, _, _ => none
  | fuel + 1, first, text =>
      match expect '\x7d' (text.dropWhile isBlank) with
      | some rest => some ([], rest)
      | none => do
          let text ← if first then some text else expect ',' (text.dropWhile isBlank)
          let text ← expect '"' (text.dropWhile isBlank)
          let (key, text) ← readLiteral fuel text
          let text ← expect ':' (text.dropWhile isBlank)
          let (value, rest) ← readValue fuel (text.dropWhile isBlank)
          let (members, rest) ← readMembers fuel false rest
          some ((String.ofList key, value) :: members, rest)

end

/-- The value of a text, if it is one. -/
def readDocument (text : List Char) : Option Value :=
  (readValue (text.length + 1) (text.dropWhile isBlank)).bind fun (value, rest) =>
    if rest.all isBlank then some value else none

/-! ### Literals -/

theorem escaped_letter (escape : Escape) : escaped escape.letter = some escape.char := by
  cases escape <;> rfl

/-- A pair of code units begins with one that is no character. -/
theorem unicodeChar_cases {raw : List Char} {c : Char} (h : unicodeChar raw = some c) :
    (∃ a b c' d, raw = [a, b, c', d]) ∨
      ∃ a b c' d e f g i, raw = [a, b, c', d, '\\', 'u', e, f, g, i] ∧
        unicodeChar [a, b, c', d] = none := by
  unfold unicodeChar at h
  split at h
  · exact .inl ⟨_, _, _, _, rfl⟩
  · next a b c' d e f g i =>
    refine .inr ⟨a, b, c', d, e, f, g, i, rfl, ?_⟩
    simp only [Option.bind_eq_bind, Option.bind_eq_some_iff] at h
    obtain ⟨high, hhigh, low, -, hc⟩ := h
    rw [unicodeChar, hhigh, Option.bind_some]
    refine if_neg ?_
    split at hc
    · omega
    · cases hc
  · cases h

theorem readEscape_chars (item : Item) (rest tail : List Char)
    (h : item.chars ++ rest = '\\' :: tail) : readEscape tail = some (item.char, rest) := by
  cases item with
  | plain c hplain =>
    obtain ⟨rfl, -⟩ := List.cons.inj h
    exact absurd rfl hplain.2.1
  | escape escape =>
    obtain ⟨-, rfl⟩ := List.cons.inj h
    have hletter : escape.letter ≠ 'u' := by cases escape <;> decide
    show readEscape (escape.letter :: rest) = _
    rw [readEscape.eq_def]
    split
    · next heq => exact absurd (List.cons.inj heq).1 hletter
    · next heq =>
      obtain ⟨rfl, rfl⟩ := List.cons.inj heq
      rw [escaped_letter]
      rfl
    · next heq => cases heq
  | unicode raw c hraw =>
    obtain ⟨-, rfl⟩ := List.cons.inj h
    rcases unicodeChar_cases hraw with ⟨a, b, c', d, rfl⟩ | ⟨a, b, c', d, e, f, g, i, rfl, hnone⟩
    · show readEscape ('u' :: a :: b :: c' :: d :: rest) = _
      rw [readEscape, hraw]
      rfl
    · show readEscape ('u' :: a :: b :: c' :: d :: '\\' :: 'u' :: e :: f :: g :: i :: rest) = _
      rw [readEscape, hnone, Option.map_none, Option.none_or, readPair, List.cons_append,
        List.cons_append, List.cons_append, List.cons_append, List.nil_append, hraw]
      rfl

/-- **A literal is read as what it says.** -/
theorem readLiteral_chars (literal : List Item) (rest : List Char) {fuel : ℕ}
    (hfuel : (chars literal).length < fuel) :
    readLiteral fuel (chars literal ++ '"' :: rest) = some (literal.map Item.char, rest) := by
  induction literal generalizing fuel with
  | nil =>
    obtain ⟨fuel, rfl⟩ := Nat.exists_eq_succ_of_ne_zero (Nat.ne_zero_of_lt hfuel)
    rfl
  | cons item literal ih =>
    rw [chars_cons, List.length_append] at hfuel
    obtain ⟨fuel, rfl⟩ := Nat.exists_eq_succ_of_ne_zero (Nat.ne_zero_of_lt hfuel)
    rw [chars_cons, List.append_assoc, List.map_cons]
    cases item with
    | plain c hplain =>
      have hlength : (chars literal).length < fuel := by
        simp only [Item.chars, List.length_singleton] at hfuel
        omega
      have hrest := ih hlength
      simp [Item.chars, readLiteral, hplain, hrest, Item.char]
    | escape escape =>
      have hlength : (chars literal).length < fuel := by
        simp only [Item.chars, List.length_cons] at hfuel
        omega
      have hrest := ih hlength
      have hescape := readEscape_chars (.escape escape) (chars literal ++ '"' :: rest)
        (escape.letter :: (chars literal ++ '"' :: rest)) rfl
      simp [Item.chars, readLiteral, hescape, hrest]
    | unicode raw c hraw =>
      have hlength : (chars literal).length < fuel := by
        simp only [Item.chars, List.length_cons] at hfuel
        omega
      have hrest := ih hlength
      have hescape := readEscape_chars (.unicode raw c hraw) (chars literal ++ '"' :: rest)
        ('u' :: (raw ++ (chars literal ++ '"' :: rest))) rfl
      simp [Item.chars, readLiteral, hescape, hrest]

/-! ### Values -/

theorem isScalar_of_plain (self : Scalar) {c : Char} (h : c ∈ self.chars) : isScalar c = true := by
  rcases self.plain c h with h | rfl | rfl | rfl
  · simp [isScalar, h]
  · rfl
  · rfl
  · rfl

theorem Spaces.isBlank (self : Spaces) {c : Char} (h : c ∈ self.chars) : isBlank c = true := by
  rcases self.blank c h with rfl | rfl | rfl | rfl <;> rfl

theorem dropWhile_spaces (self : Spaces) (text : List Char) :
    (self.chars ++ text).dropWhile isBlank = text.dropWhile isBlank :=
  List.dropWhile_append_of_pos fun _ h => self.isBlank h

/-- What stands behind a value is no part of a number. -/
theorem Follows.not_scalar {rest : List Char} (h : Follows rest) :
    ∀ c ∈ rest.head?, isScalar c = false := by
  obtain ⟨spaces, tail, rfl, htail⟩ := h
  intro c hc
  cases hspaces : spaces.chars with
  | nil =>
    rw [hspaces, List.nil_append] at hc
    rcases htail c hc with rfl | rfl | rfl <;> rfl
  | cons blank blanks =>
    rw [hspaces] at hc
    obtain rfl : blank = c := Option.some.inj hc
    rcases spaces.blank blank (hspaces ▸ List.mem_cons_self) with rfl | rfl | rfl | rfl <;> rfl

/-- How a value begins: with no blank, and with nothing that ends what it stands in. -/
theorem exists_chars_eq_cons (json : Json) : ∃ c tail, json.chars = c :: tail ∧
    isBlank c = false ∧ c ≠ ']' ∧ c ≠ '\x7d' ∧ c ≠ ',' := by
  cases json with
  | scalar value =>
    obtain ⟨c, tail, hchars⟩ := List.exists_cons_of_ne_nil value.nonempty
    have hscalar := isScalar_of_plain value (hchars ▸ List.mem_cons_self : c ∈ value.chars)
    refine ⟨c, tail, hchars, ?_, ?_, ?_, ?_⟩
    · by_contra hblank
      simp only [isBlank, Bool.not_eq_false, Bool.or_eq_true, decide_eq_true_eq] at hblank
      rcases hblank with ((rfl | rfl) | rfl) | rfl <;> cases hscalar
    all_goals
      rintro rfl
      cases hscalar
  | string literal => exact ⟨_, _, rfl, by decide⟩
  | array pad elements => exact ⟨_, _, rfl, by decide⟩
  | object pad members => exact ⟨_, _, rfl, by decide⟩

/-- Blanks in front of a value are passed over. -/
theorem dropWhile_chars (spaces : Spaces) (json : Json) (rest : List Char) :
    (spaces.chars ++ (json.chars ++ rest)).dropWhile isBlank = json.chars ++ rest := by
  obtain ⟨c, tail, hchars, hblank, -⟩ := exists_chars_eq_cons json
  rw [dropWhile_spaces, hchars, List.cons_append]
  exact List.dropWhile_cons_of_neg (by simp [hblank])

theorem dropWhile_cons (spaces : Spaces) {c : Char} (h : isBlank c = false) (rest : List Char) :
    (spaces.chars ++ c :: rest).dropWhile isBlank = c :: rest := by
  rw [dropWhile_spaces]
  exact List.dropWhile_cons_of_neg (by simp [h])

theorem expect_self (c : Char) (rest : List Char) : expect c (c :: rest) = some rest := if_pos rfl

/-- What a value begins with ends nothing. -/
theorem expect_chars (json : Json) (rest : List Char) :
    expect ']' (json.chars ++ rest) = none := by
  obtain ⟨c, tail, hchars, -, hclose, -⟩ := exists_chars_eq_cons json
  rw [hchars, List.cons_append]
  exact if_neg hclose

theorem length_chars_pos (json : Json) : 0 < json.chars.length := by
  obtain ⟨c, tail, hchars, -⟩ := exists_chars_eq_cons json
  rw [hchars]
  exact Nat.succ_pos _

/-- A number or a word is read to its end. -/
theorem readValue_scalar (value : Scalar) {rest : List Char}
    (hrest : ∀ c ∈ rest.head?, isScalar c = false) (fuel : ℕ) :
    readValue (fuel + 1) (value.chars ++ rest) = some (.scalar value.chars, rest) := by
  have hall : ∀ c ∈ value.chars, isScalar c = true := fun c hc => isScalar_of_plain value hc
  have htake : (value.chars ++ rest).takeWhile isScalar = value.chars := by
    rw [List.takeWhile_append_of_pos hall]
    cases rest with
    | nil => simp
    | cons d rest => simp [hrest d rfl]
  have hdrop : (value.chars ++ rest).dropWhile isScalar = rest := by
    rw [List.dropWhile_append_of_pos hall]
    cases rest with
    | nil => rfl
    | cons d rest => simp [hrest d rfl]
  obtain ⟨c, tail, hchars⟩ := List.exists_cons_of_ne_nil value.nonempty
  have hscalar := hall c (hchars ▸ List.mem_cons_self)
  have hquote : c ≠ '"' := by
    rintro rfl
    cases hscalar
  have hbracket : c ≠ '[' := by
    rintro rfl
    cases hscalar
  have hbrace : c ≠ '\x7b' := by
    rintro rfl
    cases hscalar
  rw [hchars, List.cons_append] at htake hdrop ⊢
  rw [readValue, if_neg hquote, if_neg hbracket, if_neg hbrace, if_pos hscalar, htake, hdrop]

mutual

/-- **A value is read as what it means**, if what stands behind it may stand there. -/
theorem readValue_chars (json : Json) (rest : List Char) (hrest : Follows rest) {fuel : ℕ}
    (hfuel : json.chars.length < fuel) :
    readValue fuel (json.chars ++ rest) = some (json.value, rest) := by
  obtain ⟨fuel, rfl⟩ := Nat.exists_eq_succ_of_ne_zero (Nat.ne_zero_of_lt hfuel)
  match json with
  | .scalar value => exact readValue_scalar value hrest.not_scalar fuel
  | .string literal =>
    have hlength : (chars literal).length < fuel := by
      simp only [Json.chars, quoted, List.length_cons, List.length_append] at hfuel
      omega
    simp [Json.chars, quoted, readValue, readLiteral_chars literal rest hlength, Json.value, decoded]
  | .array pad elements =>
    have hlength : (elements.chars []).length + 1 < fuel := by
      simp only [Json.chars, List.length_cons, List.length_append] at hfuel
      omega
    have helements := readElements_chars elements pad true rest hlength
    simp only [if_true] at helements
    simp [Json.chars, readValue, helements, Json.value]
  | .object pad members =>
    have hlength : (members.chars []).length + 1 < fuel := by
      simp only [Json.chars, List.length_cons, List.length_append] at hfuel
      omega
    have hmembers := readMembers_chars members pad true rest hlength
    simp only [if_true] at hmembers
    simp [Json.chars, readValue, hmembers, Json.value]

/-- The elements of an array, behind blanks. -/
theorem readElements_chars (elements : Elements) (spaces : Spaces) (first : Bool) (rest : List Char)
    {fuel : ℕ} (hfuel : (elements.chars (if first then [] else [','])).length + 1 < fuel) :
    readElements fuel first
        (spaces.chars ++ (elements.chars (if first then [] else [',']) ++ ']' :: rest)) =
      some (elements.values, rest) := by
  obtain ⟨fuel, rfl⟩ := Nat.exists_eq_succ_of_ne_zero (Nat.ne_zero_of_lt hfuel)
  match elements with
  | .nil =>
    rw [Elements.chars, List.nil_append, readElements, dropWhile_cons spaces (by decide), expect_self]
    rfl
  | .cons before value after tail =>
    have hpos := length_chars_pos value
    simp only [Elements.chars, List.length_append] at hfuel
    have hfirst : value.chars.length < fuel := by omega
    have hothers : (tail.chars [',']).length + 1 < fuel := by omega
    have hvalue := readValue_chars value (after.chars ++ (tail.chars [','] ++ ']' :: rest))
      ((follows_elements (follows_cons (.inr (.inl rfl))) tail).spaces after) hfirst
    have htail := readElements_chars tail after false rest hothers
    simp only [Bool.false_eq_true, if_false] at htail
    cases first with
    | true =>
      have htext : (spaces.chars ++ ((Elements.cons before value after tail).chars [] ++ ']' :: rest)) =
          (spaces.append before).chars ++
            (value.chars ++ (after.chars ++ (tail.chars [','] ++ ']' :: rest))) := by
        simp [Elements.chars, Spaces.append]
      simp only [if_true]
      rw [htext, readElements, dropWhile_chars, expect_chars]
      simp [hvalue, htail, Elements.values, dropWhile_chars]
    | false =>
      have htext : (spaces.chars ++ ((Elements.cons before value after tail).chars [','] ++ ']' :: rest))
          = spaces.chars ++ ',' :: (before.chars ++
            (value.chars ++ (after.chars ++ (tail.chars [','] ++ ']' :: rest)))) := by
        simp [Elements.chars]
      simp only [Bool.false_eq_true, if_false]
      rw [htext, readElements, dropWhile_cons spaces (by decide)]
      simp [expect, hvalue, htail, Elements.values, dropWhile_chars]

theorem readMembers_chars (members : Members) (spaces : Spaces) (first : Bool) (rest : List Char)
    {fuel : ℕ} (hfuel : (members.chars (if first then [] else [','])).length + 1 < fuel) :
    readMembers fuel first
        (spaces.chars ++ (members.chars (if first then [] else [',']) ++ '\x7d' :: rest)) =
      some (members.values, rest) := by
  obtain ⟨fuel, rfl⟩ := Nat.exists_eq_succ_of_ne_zero (Nat.ne_zero_of_lt hfuel)
  match members with
  | .nil =>
    rw [Members.chars, List.nil_append, readMembers, dropWhile_cons spaces (by decide), expect_self]
    rfl
  | .cons before key beforeColon afterColon value after tail =>
    have hpos := length_chars_pos value
    simp only [Members.chars, quoted, List.length_append, List.length_cons] at hfuel
    have hname : (chars key).length < fuel := by omega
    have hfirst : value.chars.length < fuel := by omega
    have hothers : (tail.chars [',']).length + 1 < fuel := by omega
    have hkey := readLiteral_chars key (beforeColon.chars ++ ':' :: (afterColon.chars ++
      (value.chars ++ (after.chars ++ (tail.chars [','] ++ '\x7d' :: rest))))) hname
    have hvalue := readValue_chars value (after.chars ++ (tail.chars [','] ++ '\x7d' :: rest))
      ((follows_members (follows_cons (.inr (.inr rfl))) tail).spaces after) hfirst
    have htail := readMembers_chars tail after false rest hothers
    simp only [Bool.false_eq_true, if_false] at htail
    have hcolon := dropWhile_cons beforeColon (c := ':') (by decide)
    cases first with
    | true =>
      have htext : (spaces.chars ++ ((Members.cons before key beforeColon afterColon value after tail).chars
          [] ++ '\x7d' :: rest)) = (spaces.append before).chars ++ '"' :: (chars key ++ '"' ::
            (beforeColon.chars ++ ':' :: (afterColon.chars ++ (value.chars ++ (after.chars ++
              (tail.chars [','] ++ '\x7d' :: rest)))))) := by
        simp [Members.chars, Spaces.append, quoted]
      simp only [if_true]
      rw [htext, readMembers, dropWhile_cons _ (by decide)]
      simp [expect, hkey, hcolon, hvalue, htail, Members.values, dropWhile_chars, decoded,
        dropWhile_cons (spaces.append before) (c := '"') (by decide)]
    | false =>
      have htext : (spaces.chars ++ ((Members.cons before key beforeColon afterColon value after tail).chars
          [','] ++ '\x7d' :: rest)) = spaces.chars ++ ',' :: (before.chars ++ '"' :: (chars key ++ '"' ::
            (beforeColon.chars ++ ':' :: (afterColon.chars ++ (value.chars ++ (after.chars ++
              (tail.chars [','] ++ '\x7d' :: rest))))))) := by
        simp [Members.chars, quoted]
      simp only [Bool.false_eq_true, if_false]
      rw [htext, readMembers, dropWhile_cons spaces (by decide)]
      simp [expect, hkey, hcolon, hvalue, htail, Members.values, dropWhile_chars, decoded,
        dropWhile_cons before (c := '"') (by decide)]

end

/-- **Every JSON text is read as what it means.** -/
theorem readDocument_text (document : Document) :
    readDocument document.text.toList = some document.json.value := by
  have hlength : document.json.chars.length < document.text.toList.length + 1 := by
    simp only [Document.text, String.toList_ofList, List.length_append]
    omega
  have hafter : Follows document.after.chars := ⟨document.after, [], by simp, by simp⟩
  have hread := readValue_chars document.json document.after.chars hafter hlength
  have htext : document.text.toList =
      document.before.chars ++ (document.json.chars ++ document.after.chars) := by
    simp [Document.text]
  have hblank : document.after.chars.all isBlank = true :=
    List.all_eq_true.mpr fun c hc => document.after.isBlank hc
  rw [readDocument, htext, dropWhile_chars, ← htext, hread, Option.bind_some]
  exact if_pos hblank

end JsonText
