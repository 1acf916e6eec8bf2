import SuperHerdr.Library.JsonReader
import SuperHerdr.Library.Utf8

/-!
# Writing a JSON text

The texts a program writes without blanks: numbers, words, lists and records of such texts. Each is as
many bytes long as its parts and the marks between them (`size_list`, `size_record`), and what it means
is read back by the type it was written from: a number by its digits (`natural_number`), a record by the
names of its fields (`fields_object`).
-/

namespace JsonText

open Utf8

/-! ### Texts without blanks -/

namespace Json

/-- A number, in its decimal digits. -/
def number (n : ℕ) : Json :=
  .scalar ⟨Nat.toDigits 10 n, Nat.toDigits_ne_nil, fun c hc =>
    .inl (by simp [Char.isAlphanum, Nat.isDigit_of_mem_toDigits (by decide) (by decide) hc])⟩

def text (text : String) : Json := .string (literalOf text)

end Json

def Elements.of : List Json → Elements
  | [] => .nil
  | json :: rest => .cons .none json .none (of rest)

def Members.of : List (String × Json) → Members
  | [] => .nil
  | (key, json) :: rest => .cons .none (literalOf key) .none .none json .none (of rest)

namespace Json

def list (elements : List Json) : Json := .array .none (.of elements)

def record (members : List (String × Json)) : Json := .object .none (.of members)

end Json

/-- A text on a line of its own. -/
def Json.line (self : Json) : Document := ⟨.none, self, ⟨['\n'], by simp⟩⟩

@[simp] theorem value_number (n : ℕ) : (Json.number n).value = .scalar (Nat.toDigits 10 n) := by
  rw [Json.number, Json.value]

@[simp] theorem value_text (text : String) : (Json.text text).value = .string text := by
  rw [Json.text, Json.value, decoded_literalOf]

@[simp] theorem value_list (elements : List Json) :
    (Json.list elements).value = .array (elements.map Json.value) := by
  have hvalues : (Elements.of elements).values = elements.map Json.value := by
    induction elements with
    | nil => simp [Elements.of, Elements.values]
    | cons json rest ih => rw [Elements.of, Elements.values, ih, List.map_cons]
  rw [Json.list, Json.value, hvalues]

@[simp] theorem value_record (members : List (String × Json)) :
    (Json.record members).value = .object (members.map fun member => (member.1, member.2.value)) := by
  have hvalues : (Members.of members).values =
      members.map fun member => (member.1, member.2.value) := by
    induction members with
    | nil => simp [Members.of, Members.values]
    | cons member rest ih => rw [Members.of, Members.values, ih, List.map_cons, decoded_literalOf]
  rw [Json.record, Json.value, hvalues]

/-! ### How long a text is -/

/-- How many bytes a text is. -/
def size (text : List Char) : ℕ := (encode text).length

@[simp] theorem size_nil : size [] = 0 := rfl

@[simp] theorem size_append (text rest : List Char) : size (text ++ rest) = size text + size rest := by
  rw [size, encode_append, List.length_append, size, size]

@[simp] theorem size_cons (c : Char) (text : List Char) : size (c :: text) = c.utf8Size + size text := by
  rw [size, encode_cons, List.length_append, String.length_utf8EncodeChar, size]

/-- How many bytes a character is between quotes. -/
def writtenSize (c : Char) : ℕ :=
  if c = '"' ∨ c = '\\' ∨ c = '\x08' ∨ c = '\x0c' ∨ c = '\n' ∨ c = '\r' ∨ c = '\t' then 2
  else if ' ' ≤ c then c.utf8Size
  else 6

/-- How many bytes a text is in its quotes. -/
def literalSize (text : String) : ℕ := 2 + (text.toList.map writtenSize).sum

theorem size_digitChar {n : ℕ} (h : n < 16) : (Nat.digitChar n).utf8Size = 1 := by
  have hall : ∀ n < 16, (Nat.digitChar n).utf8Size = 1 := by decide
  exact hall n h

theorem size_written (c : Char) : size (written c).chars = writtenSize c := by
  rw [writtenSize]
  split
  · next hshort =>
    rcases hshort with rfl | rfl | rfl | rfl | rfl | rfl | rfl <;> rfl
  · next hshort =>
    simp only [not_or] at hshort
    obtain ⟨hquote, hslash, hbackspace, hfeed, hnewline, hreturn, htab⟩ := hshort
    rw [written, dif_neg hquote, dif_neg hslash, if_neg hbackspace, if_neg hfeed, if_neg hnewline,
      if_neg hreturn, if_neg htab]
    split
    · rw [Item.chars, size_cons, size_nil, Nat.add_zero]
    · next hplain =>
      have hlt : c.toNat < 32 := not_le.mp hplain
      have hhigh := size_digitChar (n := c.toNat / 16) (by omega)
      have hlow := size_digitChar (n := c.toNat % 16) (by omega)
      simp only [Item.chars, size_cons, size_nil, hhigh, hlow]
      rfl

theorem size_line (json : Json) : size json.line.text.toList = size json.chars + 1 := by
  have hnewline : ('\n' : Char).utf8Size = 1 := rfl
  simp [Document.text, Json.line, Spaces.none, hnewline]

@[simp] theorem size_quoted (text : String) : size (quoted (literalOf text)) = literalSize text := by
  have hchars : ∀ chars : List Char,
      size (JsonText.chars (chars.map written)) = (chars.map writtenSize).sum := by
    intro chars
    induction chars with
    | nil => rfl
    | cons c rest ih =>
      rw [List.map_cons, chars_cons, size_append, size_written, ih, List.map_cons, List.sum_cons]
  have hmarks : ('"' : Char).utf8Size = 1 := rfl
  rw [quoted, size_cons, size_append, literalOf, hchars, size_cons, size_nil, hmarks, literalSize]
  omega

/-- Texts one behind another, with a comma between two of them. -/
theorem size_list (elements : List Json) :
    size (Json.list elements).chars =
      2 + ((elements.map fun json => size json.chars).sum + (elements.length - 1)) := by
  have hrest : ∀ elements : List Json, size ((Elements.of elements).chars [',']) =
      (elements.map fun json => size json.chars).sum + elements.length := by
    intro elements
    induction elements with
    | nil => simp [Elements.of, Elements.chars]
    | cons json rest ih =>
      have hcomma : (',' : Char).utf8Size = 1 := rfl
      simp only [Elements.of, Elements.chars, Spaces.none, size_append, size_cons, size_nil, ih, hcomma,
        List.map_cons, List.sum_cons, List.length_cons]
      omega
  have hopen : ('[' : Char).utf8Size = 1 := rfl
  have hclose : (']' : Char).utf8Size = 1 := rfl
  rw [Json.list, Json.chars]
  cases elements with
  | nil => rfl
  | cons json rest =>
    simp only [Elements.of, Elements.chars, Spaces.none, size_append, size_cons, size_nil, hrest, hopen,
      hclose, List.map_cons, List.sum_cons, List.length_cons]
    omega

theorem size_record (members : List (String × Json)) :
    size (Json.record members).chars =
      2 + ((members.map fun member => literalSize member.1 + 1 + size member.2.chars).sum +
        (members.length - 1)) := by
  have hcolon : (':' : Char).utf8Size = 1 := rfl
  have hrest : ∀ members : List (String × Json), size ((Members.of members).chars [',']) =
      (members.map fun member => literalSize member.1 + 1 + size member.2.chars).sum +
        members.length := by
    intro members
    induction members with
    | nil => simp [Members.of, Members.chars]
    | cons member rest ih =>
      have hcomma : (',' : Char).utf8Size = 1 := rfl
      simp only [Members.of, Members.chars, Spaces.none, size_append, size_cons, size_nil, size_quoted,
        ih, hcomma, hcolon, List.map_cons, List.sum_cons, List.length_cons]
      omega
  have hopen : ('\x7b' : Char).utf8Size = 1 := rfl
  have hclose : ('\x7d' : Char).utf8Size = 1 := rfl
  rw [Json.record, Json.chars]
  cases members with
  | nil => rfl
  | cons member rest =>
    simp only [Members.of, Members.chars, Spaces.none, size_append, size_cons, size_nil, size_quoted,
      hrest, hopen, hclose, hcolon, List.map_cons, List.sum_cons, List.length_cons]
    omega

/-! ### Reading by type -/

/-- A number up to a bound, as a type without a sign is read. -/
def Value.natural (bound : ℕ) : Value → Option ℕ
  | .scalar chars =>
      if chars ≠ [] ∧ chars.all Char.isDigit ∧ (chars.head? = some '0' → chars = ['0']) ∧
          Nat.ofDigitChars 10 chars 0 ≤ bound then
        some (Nat.ofDigitChars 10 chars 0)
      else none
  | _ => none

/-- The fields of a record: by their names, each of them once, or in their order in an array. A strict
record has no others. -/
def Value.fields (names : List String) (strict : Bool) : Value → Option (List Value)
  | .array elements => if elements.length = names.length then some elements else none
  | .object members =>
      if strict && members.any fun member => member.1 ∉ names then none
      else names.mapM fun name =>
        match members.filter fun member => member.1 = name with
        | [member] => some member.2
        | _ => none
  | _ => none

theorem head?_toDigits {n : ℕ} (h : (Nat.toDigits 10 n).head? = some '0') :
    Nat.toDigits 10 n = ['0'] := by
  induction n using Nat.strongRecOn with
  | ind n ih =>
    by_cases hlt : n < 10
    · have hzero : ∀ n < 10, (Nat.toDigits 10 n).head? = some '0' → Nat.toDigits 10 n = ['0'] := by
        decide
      exact hzero n hlt h
    · rw [Nat.toDigits_of_base_le (by decide) (Nat.le_of_not_lt hlt),
        List.head?_append_of_ne_nil _ Nat.toDigits_ne_nil] at h
      have hten := ih (n / 10) (by omega) h
      have hdigits := congrArg (Nat.ofDigitChars 10 · 0) hten
      rw [Nat.ofDigitChars_ten_toDigits] at hdigits
      have hvalue : Nat.ofDigitChars 10 ['0'] 0 = 0 := rfl
      omega

/-- **A number is read back** from its digits, within the bound of its type. -/
theorem natural_number {n bound : ℕ} (h : n ≤ bound) :
    (Json.number n).value.natural bound = some n := by
  rw [value_number, Value.natural, Nat.ofDigitChars_ten_toDigits, if_pos]
  refine ⟨Nat.toDigits_ne_nil, List.all_eq_true.mpr fun c hc => ?_, head?_toDigits, h⟩
  exact Nat.isDigit_of_mem_toDigits (by decide) (by decide) hc

/-- **A record is read back** by the names of its fields. -/
theorem fields_object (members : List (String × Value)) (hnodup : (members.map Prod.fst).Nodup)
    (strict : Bool) :
    (Value.object members).fields (members.map Prod.fst) strict = some (members.map Prod.snd) := by
  have hfilter : ∀ member ∈ members, (members.filter fun other => other.1 = member.1) = [member] := by
    intro member hmem
    induction members with
    | nil => cases hmem
    | cons first rest ih =>
      rw [List.map_cons, List.nodup_cons] at hnodup
      rcases List.mem_cons.mp hmem with rfl | hrest
      · rw [List.filter_cons_of_pos (by simp), List.filter_eq_nil_iff.mpr]
        intro other hother heq
        exact hnodup.1 (List.mem_map.mpr ⟨other, hother, of_decide_eq_true heq⟩)
      · have hne : first.1 ≠ member.1 := fun heq =>
          hnodup.1 (heq ▸ List.mem_map_of_mem hrest)
        rw [List.filter_cons_of_neg (by simpa using hne), ih hnodup.2 hrest]
  have hread : ∀ part : List (String × Value), (∀ member ∈ part, member ∈ members) →
      ((part.map Prod.fst).mapM fun name =>
        match members.filter fun member => member.1 = name with
        | [member] => some member.2
        | _ => none) = some (part.map Prod.snd) := by
    intro part hsub
    induction part with
    | nil => rfl
    | cons member rest ih =>
      rw [List.map_cons, List.mapM_cons, hfilter member (hsub member List.mem_cons_self),
        ih fun other hother => hsub other (List.mem_cons_of_mem member hother)]
      rfl
  have hknown : (strict && members.any fun member => member.1 ∉ members.map Prod.fst) = false := by
    rw [Bool.and_eq_false_iff, List.any_eq_false]
    refine .inr fun member hmem => ?_
    simpa using ⟨member.2, hmem⟩
  rw [Value.fields, if_neg (by rw [hknown]; exact Bool.false_ne_true), hread members fun _ h => h]

end JsonText
