import Mathlib
import SuperHerdr.Library.Digests

/-!
# Numerals

How a text is read as a number below a bound: digit by digit, in a base, with a sign `+` before them
if there is one. Two characters are so read as a byte in base 16 if they are two digits, or the sign
and one digit (`fromStrRadix_pair`).
-/

namespace Numerals

open Digests

/-- The value of a digit, which may be a letter of either case. -/
def toDigit (radix : ℕ) (c : Char) : Option ℕ :=
  (if c.isDigit then some (c.toNat - 48)
    else if c.isLower then some (c.toNat - 97 + 10)
    else if c.isUpper then some (c.toNat - 65 + 10)
    else none).filter (· < radix)

/-- The number that digits continue, which stays below the bound. -/
def readDigits (radix bound : ℕ) : ℕ → List Char → Option ℕ
  | n, [] => some n
  | n, c :: rest =>
      (toDigit radix c).bind fun digit =>
        if n * radix + digit < bound then readDigits radix bound (n * radix + digit) rest else none

/-- The number that a text is, with or without its sign. -/
def fromStrRadix (radix bound : ℕ) : List Char → Option ℕ
  | [] => none
  | ['+'] => none
  | '+' :: rest => readDigits radix bound 0 rest
  | text => readDigits radix bound 0 text

/-- The byte that a text is in base 16. -/
def byteOfHex (text : List Char) : Option UInt8 := (fromStrRadix 16 256 text).map UInt8.ofNat

/-! ### Digits of base 16 -/

theorem lt_of_toDigit {radix digit : ℕ} {c : Char} (h : toDigit radix c = some digit) :
    digit < radix := by
  simpa using (Option.filter_eq_some_iff.mp h).2

theorem digitChar_lt {n : ℕ} (h : n < 16) : (Nat.digitChar n).toNat < 128 := by
  have hall : ∀ n < 16, (Nat.digitChar n).toNat < 128 := by decide
  exact hall n h

/-- Beyond ASCII there are no digits, and no letters that have a lower case. -/
theorem toDigit_of_le {radix : ℕ} {c : Char} (h : 128 ≤ c.toNat) :
    toDigit radix c = none ∧ c.toLower = c := by
  have hval : c.val.toNat = c.toNat := rfl
  have hdigit : c.isDigit = false := by
    simp [Char.isDigit, UInt32.le_iff_toNat_le, hval]
    omega
  have hlower : c.isLower = false := by
    simp [Char.isLower, UInt32.le_iff_toNat_le, hval]
    omega
  have hupper : c.isUpper = false := by
    simp [Char.isUpper, UInt32.le_iff_toNat_le, hval]
    omega
  refine ⟨by simp [toDigit, hdigit, hlower, hupper], ?_⟩
  rw [Char.toLower, dif_neg]
  simp only [UInt32.le_iff_toNat_le, hval, show 'Z'.val.toNat = 90 from rfl]
  omega

/-- A digit is what is spelled with its value, in either case. -/
theorem toDigit_sixteen_iff {c : Char} {n : ℕ} :
    toDigit 16 c = some n ↔ n < 16 ∧ c.toLower = Nat.digitChar n := by
  have hascii : ∀ k < 128, ∀ n < 16,
      (toDigit 16 (Char.ofNat k) = some n ↔ (Char.ofNat k).toLower = Nat.digitChar n) := by
    decide
  by_cases hc : c.toNat < 128
  · constructor
    · intro h
      have hn := lt_of_toDigit h
      rw [← Char.ofNat_toNat c] at h ⊢
      exact ⟨hn, (hascii _ hc _ hn).mp h⟩
    · rintro ⟨hn, h⟩
      rw [← Char.ofNat_toNat c] at h ⊢
      exact (hascii _ hc _ hn).mpr h
  · obtain ⟨hnone, hlower⟩ := @toDigit_of_le 16 c (Nat.not_lt.mp hc)
    rw [hnone, hlower]
    refine ⟨nofun, ?_⟩
    rintro ⟨hn, rfl⟩
    exact absurd (digitChar_lt hn) hc

theorem isSome_toDigit (c : Char) : (toDigit 16 c).isSome = isHexDigit c := by
  have hascii : ∀ k < 128, (toDigit 16 (Char.ofNat k)).isSome = isHexDigit (Char.ofNat k) := by
    decide
  by_cases hc : c.toNat < 128
  · have h := hascii _ hc
    rwa [Char.ofNat_toNat] at h
  · have hval : c.val.toNat = c.toNat := rfl
    rw [(toDigit_of_le (Nat.not_lt.mp hc)).1]
    simp [isHexDigit, Char.isDigit, Char.le_def, UInt32.le_iff_toNat_le, hval]
    omega

theorem size_hexDigit {c : Char} (h : isHexDigit c = true) : c.utf8Size = 1 := by
  rw [← isSome_toDigit] at h
  rw [Char.utf8Size_eq_one_iff, UInt32.le_iff_toNat_le]
  by_contra hc
  have hlarge : 128 ≤ c.toNat := Nat.not_le.mp hc
  rw [(toDigit_of_le hlarge).1] at h
  cases h

/-- Two digits of base 16, and no sign. -/
def pairValue (high low : Char) : Option UInt8 :=
  (toDigit 16 high).bind fun high =>
    (toDigit 16 low).map fun low => UInt8.ofNat (16 * high + low)

/-- A pair is a byte if it spells it, in either case. -/
theorem pairValue_eq_some_iff {high low : Char} {byte : UInt8} :
    pairValue high low = some byte ↔ [high, low].map Char.toLower = hexByte byte := by
  have hbyte := byte.toNat_lt
  simp only [pairValue, Option.bind_eq_some_iff, Option.map_eq_some_iff, toDigit_sixteen_iff, hexByte,
    List.map_cons, List.map_nil, List.cons.injEq, and_true]
  constructor
  · rintro ⟨x, ⟨hx, hhigh⟩, y, ⟨hy, hlow⟩, rfl⟩
    have hvalue : (UInt8.ofNat (16 * x + y)).toNat = 16 * x + y := by
      rw [UInt8.toNat_ofNat']
      omega
    rw [hvalue, hhigh, hlow, show (16 * x + y) / 16 = x by omega,
      show (16 * x + y) % 16 = y by omega]
    exact ⟨rfl, rfl⟩
  · rintro ⟨hhigh, hlow⟩
    refine ⟨byte.toNat / 16, ⟨by omega, hhigh⟩, byte.toNat % 16, ⟨by omega, hlow⟩, ?_⟩
    rw [show 16 * (byte.toNat / 16) + byte.toNat % 16 = byte.toNat by omega, UInt8.ofNat_toNat]

theorem toLower_digitChar {n : ℕ} (h : n < 16) : (Nat.digitChar n).toLower = Nat.digitChar n := by
  have hall : ∀ n < 16, (Nat.digitChar n).toLower = Nat.digitChar n := by decide
  exact hall n h

theorem map_toLower_hexByte (byte : UInt8) : (hexByte byte).map Char.toLower = hexByte byte := by
  have hbyte := byte.toNat_lt
  rw [hexByte, List.map_cons, List.map_cons, toLower_digitChar (by omega), toLower_digitChar (by omega),
    List.map_nil]

/-- A spelling is in lower case. -/
theorem map_toLower_hex (bytes : List UInt8) : (hex bytes).map Char.toLower = hex bytes := by
  rw [hex, List.map_flatMap]
  exact List.flatMap_congr fun byte _ => map_toLower_hexByte byte

theorem hexByte_injective : Function.Injective hexByte := by
  intro byte other h
  have hpair := pairValue_eq_some_iff.mpr (map_toLower_hexByte byte)
  have hother := pairValue_eq_some_iff.mpr ((map_toLower_hexByte byte).trans h)
  exact Option.some.inj (hpair.symm.trans hother)

/-- Bytes are told apart by how they are spelled. -/
theorem hex_injective : Function.Injective hex := by
  intro bytes
  induction bytes with
  | nil =>
    rintro (_ | ⟨other, others⟩) h
    · rfl
    · cases h
  | cons byte bytes ih =>
    rintro (_ | ⟨other, others⟩) h
    · cases h
    · rw [hex, hex, List.flatMap_cons, List.flatMap_cons] at h
      obtain ⟨hbyte, hbytes⟩ := List.append_inj h rfl
      rw [hexByte_injective hbyte, ih hbytes]

theorem isHexDigit_of_pairValue {high low : Char} {byte : UInt8} (h : pairValue high low = some byte) :
    isHexDigit high = true ∧ isHexDigit low = true := by
  rw [pairValue, Option.bind_eq_some_iff] at h
  obtain ⟨x, hx, hlow⟩ := h
  obtain ⟨y, hy, -⟩ := Option.map_eq_some_iff.mp hlow
  rw [← isSome_toDigit, ← isSome_toDigit, hx, hy]
  exact ⟨rfl, rfl⟩

theorem readDigits_one (low : Char) {n : ℕ} (hn : n < 16) :
    readDigits 16 256 n [low] = (toDigit 16 low).map (16 * n + ·) := by
  cases hlow : toDigit 16 low with
  | none => simp [readDigits, hlow]
  | some y =>
    have hy := lt_of_toDigit hlow
    have hbound : n * 16 + y < 256 := by omega
    simp [readDigits, hlow, hbound, Nat.mul_comm]

/-- A character of several bytes is no number. -/
theorem byteOfHex_wide {c : Char} (hc : c.utf8Size ≠ 1) : byteOfHex [c] = none := by
  have hdigit : toDigit 16 c = none := by
    by_contra hsome
    rw [← ne_eq, Option.ne_none_iff_isSome, isSome_toDigit] at hsome
    exact hc (size_hexDigit hsome)
  have hplus : c ≠ '+' := by
    rintro rfl
    exact hc rfl
  rw [byteOfHex, fromStrRadix] <;> simp [readDigits, hdigit, hplus]

theorem readDigits_two (high low : Char) :
    readDigits 16 256 0 [high, low] =
      (toDigit 16 high).bind fun high => (toDigit 16 low).map (16 * high + ·) := by
  cases hhigh : toDigit 16 high with
  | none => simp [readDigits, hhigh]
  | some x =>
    have hx := lt_of_toDigit hhigh
    have hbound : x < 256 := by omega
    rw [readDigits, hhigh, Option.bind_some, Option.bind_some, Nat.zero_mul, Nat.zero_add,
      if_pos hbound, readDigits_one low hx]

/-- What two characters are read as: the sign may stand for the first of two digits. -/
theorem byteOfHex_pair (high low : Char) :
    byteOfHex [high, low] =
      if high = '+' then (toDigit 16 low).map UInt8.ofNat else pairValue high low := by
  split
  · next hplus =>
    subst hplus
    rw [byteOfHex, fromStrRadix, readDigits_one low (by omega)]
    · simp
    · simp
  · next hplus =>
    rw [byteOfHex, fromStrRadix, readDigits_two, pairValue, Option.map_bind]
    · simp [Function.comp_def]
    · simp
    · simp [hplus]
    · simp [hplus]

end Numerals
