import SuperHerdr.Library.Records

/-!
# Operations on texts

What programs do to text before they make sense of it: white space is trimmed off or separates words,
a text is cut into lines or at a character, and decimal digits are read as a number. A text is the list
of its characters.
-/

namespace Texts

open Records

/-! ### White space -/

/-- The characters with the Unicode property `White_Space`, which is what trimming a Rust
string removes. -/
def isWhiteSpace (c : Char) : Bool :=
  (0x09 ≤ c.toNat && c.toNat ≤ 0x0D) || c.toNat == 0x20 || c.toNat == 0x85
    || c.toNat == 0xA0 || c.toNat == 0x1680 || (0x2000 ≤ c.toNat && c.toNat ≤ 0x200A)
    || c.toNat == 0x2028 || c.toNat == 0x2029 || c.toNat == 0x202F || c.toNat == 0x205F
    || c.toNat == 0x3000

def trim (text : List Char) : List Char := (text.dropWhile isWhiteSpace).rdropWhile isWhiteSpace

def splitWhitespace (text : List Char) : List (List Char) :=
  (text.splitOnP isWhiteSpace).filter fun field => field ≠ []

/-! ### Lines -/

/-- A line without the `\r` at its end. -/
def stripReturn (line : List Char) : List Char :=
  if line.getLast? = some '\r' then line.dropLast else line

/-- The lines of a text. What stands behind the last `\n` is one if there is something. -/
def lines (text : List Char) : List (List Char) :=
  let pieces := text.splitOn '\n'
  pieces.dropLast.map stripReturn ++ pieces.getLast?.toList.filter fun piece => piece ≠ []

theorem lines_framed {raws : List (List Char)} (hfree : ∀ raw ∈ raws, '\n' ∉ raw) :
    lines (framed '\n' raws) = raws.map stripReturn := by
  simp [lines, splitOn_framed hfree]

theorem stripReturn_eq_nil_iff {raw : List Char} : stripReturn raw = [] ↔ raw = [] ∨ raw = ['\r'] := by
  rcases List.eq_nil_or_concat' raw with rfl | ⟨front, c, rfl⟩
  · simp [stripReturn]
  · by_cases hc : c = '\r'
    · simp [stripReturn, hc]
    · have hne : front ++ [c] ≠ ['\r'] := by
        intro heq
        have hlast := congrArg List.getLast? heq
        simp [hc] at hlast
      simp [stripReturn, hc, hne]

theorem stripReturn_concat (line : List Char) : stripReturn (line ++ ['\r']) = line := by
  simp [stripReturn]

/-! ### Parts -/

/-- What stands before the first of a character, and behind it. -/
def splitOnce (c : Char) (text : List Char) : Option (List Char × List Char) :=
  if c ∈ text then some (text.takeWhile (· ≠ c), (text.dropWhile (· ≠ c)).tail) else none

/-- What a text is behind what it begins with. -/
def stripPrefixText (front : String) (text : List Char) : Option (List Char) :=
  if front.toList <+: text then some (text.drop front.toList.length) else none

def eqIgnoreAsciiCase (text other : List Char) : Bool :=
  text.map Char.toLower = other.map Char.toLower

/-! ### Numbers -/

/-- A number of 64 bits in decimal digits. -/
def parseUsize (text : List Char) : Option ℕ :=
  let digits := if text.head? = some '+' then text.tail else text
  if digits ≠ [] ∧ digits.all Char.isDigit then
    let value := digits.foldl (fun value digit => value * 10 + (digit.toNat - '0'.toNat)) 0
    if value < 2 ^ 64 then some value else none
  else none

/-- A number of 16 bits in decimal digits. -/
def parseU16 (text : List Char) : Option UInt16 :=
  (parseUsize text).bind fun number => if number < 2 ^ 16 then some (UInt16.ofNat number) else none

end Texts
