import SuperHerdr.Library.Numerals
import SuperHerdr.Library.JsonWriter
import SuperHerdr.Files.Listing

/-!
# The stored key

The daemon signs its pushes with a key that it keeps in a file, the private scalar in hexadecimal
digits. `hexDecode` takes the digits two bytes at a time, so it panics where a pair of bytes cuts a
character; and each pair is read as a number, which may have a sign, so `+5` is the byte 5. Otherwise it
takes what spells bytes and refuses what does not (`key_decoding_is_strict_iff`).
-/

namespace SuperHerdr

namespace Files

open Numerals Digests JsonText

/-! ### Slices of a text -/

/-- The text behind so many bytes, if a character begins there. -/
def behind : ℕ → List Char → Option (List Char)
  | 0, text => some text
  | _ + 1, [] => none
  | n + 1, c :: rest => if c.utf8Size ≤ n + 1 then behind (n + 1 - c.utf8Size) rest else none

/-- The text of so many bytes, if a character ends there. -/
def ahead : ℕ → List Char → Option (List Char)
  | 0, _ => some []
  | _ + 1, [] => none
  | n + 1, c :: rest =>
      if c.utf8Size ≤ n + 1 then (ahead (n + 1 - c.utf8Size) rest).map (c :: ·) else none

/-- A slice between two bytes. Where a character is cut, the program panics. -/
def slice (text : List Char) (start stop : ℕ) : Option (List Char) :=
  (behind start text).bind (ahead (stop - start))

/-! ### The digits -/

/-- What a call returns, if it does not panic. -/
abbrev Outcome (α : Type) := Option (Except String α)

def hexEncode (bytes : List UInt8) : List Char := hex bytes

/-- The pairs from these bytes on, up to the first that is refused. -/
def decodePairs (text : List Char) : List ℕ → Outcome (List UInt8)
  | [] => some (.ok [])
  | index :: indices =>
      (slice text index (index + 2)).bind fun pair =>
        match byteOfHex pair with
        | none => some (.error "hex-encoded key has an invalid digit")
        | some byte => (decodePairs text indices).map (Except.map (byte :: ·))

def hexDecode (text : List Char) : Outcome (List UInt8) :=
  if size text % 2 ≠ 0 then some (.error "hex-encoded key has an odd length")
  else decodePairs text ((List.range (size text / 2)).map (2 * ·))

/-! ### The file -/

inductive KeyStep
  | inspect
  | read
deriving DecidableEq

/-- What the daemon starts with: a key it has loaded, or one it makes. -/
inductive Start (Key : Type)
  | loaded (key : Key)
  | generate
deriving DecidableEq

section VapidKeys

variable {Key : Type} (fromSlice : List UInt8 → Option Key) (toBytes : Key → List UInt8)

/-- `PersistedVapidKey`, its digits. -/
def persistedKey (bytes : List UInt8) : Option String :=
  (fromUtf8 bytes).bind fun text =>
    (readDocument text.toList).bind fun value =>
      (value.fields ["private_key_hex"] false).bind fun
        | [.string digits] => some digits
        | _ => none

/-- `VapidKeys::load_or_generate`. -/
def loadOrGenerate (failure : Option KeyStep) (file : Option (List UInt8)) : Outcome (Start Key) :=
  if failure = some .inspect then some (.error "failed to inspect the stored VAPID key")
  else
    match file with
    | none => some (.ok .generate)
    | some bytes =>
        if failure = some .read then some (.error "failed to read the stored VAPID key")
        else
          match persistedKey bytes with
          | none => some (.error "the stored VAPID key is invalid")
          | some digits =>
              (hexDecode digits.toList).map fun
                | .error _ => .error "the stored VAPID key is not valid hex"
                | .ok scalar =>
                    match fromSlice scalar with
                    | none => .error "the stored VAPID key is not a valid key"
                    | some key => .ok (.loaded key)

/-- What `generate_and_persist` writes: one line. -/
def storedKey (key : Key) : List UInt8 :=
  utf8 (Json.record [("private_key_hex", .text (String.ofList (hexEncode (toBytes key))))]).line.text

end VapidKeys

/-! ### Pairs of bytes -/

/-- What is taken for a byte. -/
def Accepted (high low : Char) : Prop := (high = '+' ∨ isHexDigit high) ∧ isHexDigit low

/-- A text of such pairs. -/
def Pairs : List Char → Prop
  | [] => True
  | [_] => False
  | high :: low :: rest => Accepted high low ∧ Pairs rest

/-- Two bytes of the text would cut its first character or its second. -/
def Cuts (text : List Char) : Prop :=
  (∃ c rest, text = c :: rest ∧ 2 < c.utf8Size) ∨
    ∃ c d rest, text = c :: d :: rest ∧ c.utf8Size = 1 ∧ 1 < d.utf8Size

/-- A digit spells its value in either case. -/
def Spells (text : List Char) (bytes : List UInt8) : Prop := text.map Char.toLower = hex bytes

instance (text : List Char) (bytes : List UInt8) : Decidable (Spells text bytes) :=
  inferInstanceAs (Decidable (text.map Char.toLower = hex bytes))

/-- A text is decoded without a panic, and into what it spells. -/
def Strict (text : List Char) : Prop :=
  ∃ outcome, hexDecode text = some outcome ∧ ∀ bytes, outcome = .ok bytes ↔ Spells text bytes

/-- A sign stands for a digit of a text that is accepted, or a character is cut behind pairs that are. -/
def Misread (text : List Char) : Prop :=
  size text % 2 = 0 ∧ (Pairs text ∧ '+' ∈ text ∨
    ∃ front rest, text = front ++ rest ∧ Pairs front ∧ Cuts rest)

theorem accepted_iff {high low : Char} :
    Accepted high low ↔ ∃ byte, byteOfHex [high, low] = some byte := by
  rw [byteOfHex_pair, Accepted, ← isSome_toDigit, ← isSome_toDigit, ← Option.isSome_iff_exists]
  split
  · next hplus =>
    subst hplus
    simp
  · next hplus =>
    cases hhigh : toDigit 16 high <;> cases hlow : toDigit 16 low <;>
      simp [pairValue, hplus, hhigh, hlow]

theorem Accepted.sizes {high low : Char} (h : Accepted high low) :
    high.utf8Size = 1 ∧ low.utf8Size = 1 := by
  obtain ⟨hhigh, hlow⟩ := h
  refine ⟨?_, size_hexDigit hlow⟩
  rcases hhigh with rfl | hhigh
  · rfl
  · exact size_hexDigit hhigh

variable {text : List Char}

theorem Pairs.even (h : Pairs text) : size text % 2 = 0 := by
  induction text using Pairs.induct with
  | case1 => rfl
  | case2 => exact h.elim
  | case3 high low rest ih =>
    obtain ⟨hhigh, hlow⟩ := h.1.sizes
    have hrest := ih h.2
    rw [size_cons, size_cons, hhigh, hlow]
    omega

/-! ### One pair -/

theorem hexDecode_odd (h : size text % 2 = 1) :
    hexDecode text = some (.error "hex-encoded key has an odd length") := by
  rw [hexDecode, if_pos (by omega)]

section Pair

variable {high low : Char} (hhigh : high.utf8Size = 1) (hlow : low.utf8Size = 1)
include hhigh hlow

theorem slice_first (rest : List Char) : slice (high :: low :: rest) 0 2 = some [high, low] := by
  simp [slice, behind, ahead, hhigh, hlow]

theorem slice_behind (rest : List Char) (index : ℕ) :
    slice (high :: low :: rest) (index + 2) (index + 2 + 2) = slice rest index (index + 2) := by
  simp [slice, behind, hhigh, hlow]

theorem decodePairs_behind (rest : List Char) (indices : List ℕ) :
    decodePairs (high :: low :: rest) (indices.map (· + 2)) = decodePairs rest indices := by
  induction indices with
  | nil => rfl
  | cons index indices ih =>
    rw [List.map_cons, decodePairs, slice_behind hhigh hlow, ih, decodePairs]

theorem hexDecode_pair {rest : List Char} (heven : size rest % 2 = 0) :
    hexDecode (high :: low :: rest) =
      match byteOfHex [high, low] with
      | none => some (.error "hex-encoded key has an invalid digit")
      | some byte => (hexDecode rest).map (Except.map (byte :: ·)) := by
  have hsize : size (high :: low :: rest) = size rest + 2 := by
    rw [size_cons, size_cons, hhigh, hlow]
    omega
  have hindices : (List.range ((size rest + 2) / 2)).map (2 * ·) =
      0 :: ((List.range (size rest / 2)).map (2 * ·)).map (· + 2) := by
    rw [show (size rest + 2) / 2 = size rest / 2 + 1 by omega, List.range_succ_eq_map]
    simp [Function.comp_def, Nat.mul_add]
  rw [hexDecode, hsize, if_neg (by omega), hindices, decodePairs, slice_first hhigh hlow,
    decodePairs_behind hhigh hlow, hexDecode, if_neg (by omega)]
  rfl

end Pair

theorem hexDecode_wide {c : Char} (hc : c.utf8Size = 2) {rest : List Char}
    (heven : size rest % 2 = 0) :
    hexDecode (c :: rest) = some (.error "hex-encoded key has an invalid digit") := by
  have hslice : slice (c :: rest) 0 2 = some [c] := by simp [slice, behind, ahead, hc]
  have hbyte : byteOfHex [c] = none := byteOfHex_wide (by omega)
  rw [hexDecode, size_cons, hc, if_neg (by omega),
    show (2 + size rest) / 2 = size rest / 2 + 1 by omega, List.range_succ_eq_map, List.map_cons,
    decodePairs, hslice, Option.bind_some, hbyte]

theorem hexDecode_cuts (h : Cuts text) (heven : size text % 2 = 0) : hexDecode text = none := by
  have hslice : slice text 0 2 = none := by
    rcases h with ⟨c, rest, rfl, hc⟩ | ⟨c, d, rest, rfl, hc, hd⟩
    · simp [slice, behind, ahead, hc]
    · simp [slice, behind, ahead, hc, hd]
  have hpos : 0 < size text := by
    rcases h with ⟨c, rest, rfl, hc⟩ | ⟨c, d, rest, rfl, hc, hd⟩ <;> rw [size_cons] <;> omega
  obtain ⟨n, hn⟩ : ∃ n, size text / 2 = n + 1 := ⟨size text / 2 - 1, by omega⟩
  rw [hexDecode, if_neg (by omega), hn, List.range_succ_eq_map, List.map_cons, decodePairs, hslice]
  rfl

/-! ### Texts -/

/-- **Pairs are decoded**, into what they spell if no sign is among them. -/
theorem hexDecode_of_pairs (h : Pairs text) :
    ∃ bytes, hexDecode text = some (.ok bytes) ∧ ('+' ∉ text → Spells text bytes) := by
  induction text using Pairs.induct with
  | case1 => exact ⟨[], rfl, fun _ => rfl⟩
  | case2 => exact h.elim
  | case3 high low rest ih =>
    obtain ⟨bytes, hbytes, hspells⟩ := ih h.2
    obtain ⟨hhigh, hlow⟩ := h.1.sizes
    obtain ⟨byte, hbyte⟩ := accepted_iff.mp h.1
    refine ⟨byte :: bytes, ?_, fun hplus => ?_⟩
    · rw [hexDecode_pair hhigh hlow h.2.even, hbyte, hbytes]
      rfl
    · simp only [List.mem_cons, not_or] at hplus
      rw [byteOfHex_pair, if_neg (Ne.symm hplus.1), pairValue_eq_some_iff] at hbyte
      have hrest := hspells hplus.2.2
      rw [Spells] at hrest ⊢
      rw [hex, List.flatMap_cons, ← hbyte, ← hex, ← hrest]
      rfl

/-- What spells bytes is pairs of digits without a sign. -/
theorem pairs_of_spells {bytes : List UInt8} (h : Spells text bytes) : Pairs text ∧ '+' ∉ text := by
  induction bytes generalizing text with
  | nil =>
    obtain rfl : text = [] := List.map_eq_nil_iff.mp h
    exact ⟨trivial, by simp⟩
  | cons byte bytes ih =>
    rw [Spells, hex, List.flatMap_cons, ← hex, hexByte, List.cons_append, List.cons_append,
      List.nil_append] at h
    obtain ⟨high, text, rfl, hhigh, h⟩ := List.map_eq_cons_iff.mp h
    obtain ⟨low, rest, rfl, hlow, hrest⟩ := List.map_eq_cons_iff.mp h
    have hpair : pairValue high low = some byte := by
      rw [pairValue_eq_some_iff, List.map_cons, List.map_cons, hhigh, hlow]
      rfl
    obtain ⟨hhigh, hlow⟩ := isHexDigit_of_pairValue hpair
    obtain ⟨hpairs, hplus⟩ := ih hrest
    refine ⟨⟨⟨.inr hhigh, hlow⟩, hpairs⟩, ?_⟩
    simp only [List.mem_cons, not_or]
    refine ⟨?_, ?_, hplus⟩
    · rintro rfl
      cases hhigh
    · rintro rfl
      cases hlow

theorem hexDecode_of_spells {bytes : List UInt8} (h : Spells text bytes) :
    hexDecode text = some (.ok bytes) := by
  obtain ⟨hpairs, hplus⟩ := pairs_of_spells h
  obtain ⟨decoded, hdecoded, hspells⟩ := hexDecode_of_pairs hpairs
  rw [hdecoded, hex_injective ((hspells hplus).symm.trans h)]

/-- **A character that is cut behind pairs is a panic.** -/
theorem hexDecode_of_cuts {front rest : List Char} (hfront : Pairs front) (hrest : Cuts rest)
    (heven : size (front ++ rest) % 2 = 0) : hexDecode (front ++ rest) = none := by
  induction front using Pairs.induct with
  | case1 => exact hexDecode_cuts hrest heven
  | case2 => exact hfront.elim
  | case3 high low front ih =>
    obtain ⟨hhigh, hlow⟩ := hfront.1.sizes
    obtain ⟨byte, hbyte⟩ := accepted_iff.mp hfront.1
    have hbehind : size (front ++ rest) % 2 = 0 := by
      rw [List.cons_append, List.cons_append, size_cons, size_cons, hhigh, hlow] at heven
      omega
    rw [List.cons_append, List.cons_append, hexDecode_pair hhigh hlow hbehind, hbyte,
      ih hfront.2 hbehind]
    rfl

/-- **Any text** of this many bytes is pairs, is refused, or has a character cut behind pairs. -/
theorem hexDecode_cases (heven : size text % 2 = 0) :
    Pairs text ∨ (¬Pairs text ∧ ∃ message, hexDecode text = some (.error message)) ∨
      ∃ front rest, text = front ++ rest ∧ Pairs front ∧ Cuts rest := by
  induction text using Pairs.induct with
  | case1 => exact .inl trivial
  | case2 c =>
    rcases Char.utf8Size_eq c with hc | hc | hc | hc
    · rw [size_cons, size_nil, hc] at heven
      omega
    · exact .inr (.inl ⟨id, _, hexDecode_wide hc rfl⟩)
    · exact .inr (.inr ⟨[], [c], rfl, trivial, .inl ⟨c, [], rfl, by omega⟩⟩)
    · exact .inr (.inr ⟨[], [c], rfl, trivial, .inl ⟨c, [], rfl, by omega⟩⟩)
  | case3 high low rest ih =>
    rcases Char.utf8Size_eq high with hhigh | hhigh | hhigh | hhigh
    · by_cases hlow : low.utf8Size = 1
      · have hrest : size rest % 2 = 0 := by
          rw [size_cons, size_cons, hhigh, hlow] at heven
          omega
        by_cases haccepted : Accepted high low
        · obtain ⟨byte, hbyte⟩ := accepted_iff.mp haccepted
          rcases ih hrest with hpairs | ⟨hpairs, message, hmessage⟩ | ⟨front, tail, rfl, hfront, htail⟩
          · exact .inl ⟨haccepted, hpairs⟩
          · refine .inr (.inl ⟨fun h => hpairs h.2, message, ?_⟩)
            rw [hexDecode_pair hhigh hlow hrest, hbyte, hmessage]
            rfl
          · exact .inr (.inr ⟨high :: low :: front, tail, rfl, ⟨haccepted, hfront⟩, htail⟩)
        · have hnone : byteOfHex [high, low] = none := by
            rw [Option.eq_none_iff_forall_ne_some]
            exact fun byte hbyte => haccepted (accepted_iff.mpr ⟨byte, hbyte⟩)
          refine .inr (.inl ⟨fun h => haccepted h.1, "hex-encoded key has an invalid digit", ?_⟩)
          rw [hexDecode_pair hhigh hlow hrest, hnone]
      · have hwide : 1 < low.utf8Size := by
          have hpos := Char.utf8Size_pos low
          omega
        exact .inr (.inr ⟨[], _, rfl, trivial, .inr ⟨high, low, rest, rfl, hhigh, hwide⟩⟩)
    · have hrest : size (low :: rest) % 2 = 0 := by
        rw [size_cons, hhigh] at heven
        omega
      refine .inr (.inl ⟨fun hpairs => ?_, _, hexDecode_wide hhigh hrest⟩)
      have hone := hpairs.1.sizes.1
      omega
    · exact .inr (.inr ⟨[], _, rfl, trivial, .inl ⟨high, _, rfl, by omega⟩⟩)
    · exact .inr (.inr ⟨[], _, rfl, trivial, .inl ⟨high, _, rfl, by omega⟩⟩)

/-- **A text is decoded strictly** unless it is misread. -/
theorem strict_iff : Strict text ↔ ¬Misread text := by
  constructor
  · rintro ⟨outcome, houtcome, hstrict⟩ ⟨heven, ⟨hpairs, hplus⟩ | ⟨front, rest, rfl, hfront, hrest⟩⟩
    · obtain ⟨bytes, hbytes, -⟩ := hexDecode_of_pairs hpairs
      obtain rfl := Option.some.inj (houtcome.symm.trans hbytes)
      exact (pairs_of_spells ((hstrict bytes).mp rfl)).2 hplus
    · rw [hexDecode_of_cuts hfront hrest heven] at houtcome
      cases houtcome
  · intro hread
    have hrefused : ∀ message, hexDecode text = some (.error message) → ¬Pairs text → Strict text := by
      intro message hmessage hpairs
      refine ⟨_, hmessage, fun bytes => ⟨nofun, fun hspells => ?_⟩⟩
      exact absurd (pairs_of_spells hspells).1 hpairs
    by_cases heven : size text % 2 = 0
    · rcases hexDecode_cases heven with hpairs | ⟨hpairs, message, hmessage⟩ | hcut
      · obtain ⟨bytes, hbytes, hspells⟩ := hexDecode_of_pairs hpairs
        have hplus : '+' ∉ text := fun hplus => hread ⟨heven, .inl ⟨hpairs, hplus⟩⟩
        refine ⟨_, hbytes, fun other => ⟨?_, fun hother => ?_⟩⟩
        · rintro ⟨⟩
          exact hspells hplus
        · rw [hex_injective ((hspells hplus).symm.trans hother)]
      · exact hrefused message hmessage hpairs
      · exact absurd ⟨heven, .inr hcut⟩ hread
    · exact hrefused _ (hexDecode_odd (by omega)) fun hpairs => heven hpairs.even

theorem hexDecode_hexEncode (bytes : List UInt8) : hexDecode (hexEncode bytes) = some (.ok bytes) :=
  hexDecode_of_spells (map_toLower_hex bytes)

/-- **Keys are decoded as they were encoded, and any text strictly** unless it is misread: a sign stands
for a digit of a text that is accepted, or a character is cut behind pairs that are. -/
theorem key_decoding_is_strict_iff (bytes : List UInt8) (text : List Char) :
    hexDecode (hexEncode bytes) = some (.ok bytes) ∧ (Strict text ↔ ¬Misread text) :=
  ⟨hexDecode_hexEncode bytes, strict_iff⟩

/-- A sign and a digit are a byte, and two characters of one byte around one of two are a panic. -/
theorem signed_key_is_decoded :
    hexDecode ['+', '5'] = some (.ok [5]) ∧ hexDecode ['a', 'é', 'b'] = none ∧
      ¬∀ text, Strict text := by
  refine ⟨by decide, by decide, fun hstrict => ?_⟩
  obtain ⟨outcome, houtcome, hspells⟩ := hstrict ['+', '5']
  obtain rfl : Except.ok [5] = outcome := Option.some.inj houtcome
  exact absurd ((hspells [5]).mp rfl) (by decide)

/-! ### Key files -/

section VapidKeys

variable {Key : Type} (fromSlice : List UInt8 → Option Key) (toBytes : Key → List UInt8)

/-- **A corrupt key is reported**, unless it is misread. -/
theorem loadOrGenerate_of_corrupt {bytes : List UInt8} {digits : String}
    (hfile : persistedKey bytes = some digits) (hread : ¬Misread digits.toList)
    (hcorrupt : ∀ scalar, ¬Spells digits.toList scalar) :
    loadOrGenerate fromSlice none (some bytes) =
      some (.error "the stored VAPID key is not valid hex") := by
  obtain ⟨outcome, houtcome, hstrict⟩ := strict_iff.mpr hread
  rw [loadOrGenerate, if_neg (by simp)]
  simp only [hfile, houtcome]
  cases outcome with
  | ok scalar => exact absurd ((hstrict scalar).mp rfl) (hcorrupt scalar)
  | error message => simp

theorem persistedKey_storedKey (key : Key) :
    persistedKey (storedKey toBytes key) = some (String.ofList (hexEncode (toBytes key))) := by
  rw [persistedKey, storedKey, fromUtf8_eq_some_iff.mpr rfl, Option.bind_some, readDocument_text,
    Option.bind_some, Json.line, value_record]
  simp [Value.fields]

/-- **A key that was generated is loaded again.** -/
theorem loadOrGenerate_storedKey {key : Key} (hkey : fromSlice (toBytes key) = some key) :
    loadOrGenerate fromSlice none (some (storedKey toBytes key)) = some (.ok (.loaded key)) := by
  rw [loadOrGenerate, if_neg (by simp)]
  simp [persistedKey_storedKey, hexDecode_hexEncode, hkey]

end VapidKeys

theorem loadOrGenerate_storedKey_drawn :
    loadOrGenerate (fun bytes : List UInt8 => if bytes.length = 32 then some bytes else none) none
        (some (storedKey id (List.replicate 32 7))) = some (.ok (.loaded (List.replicate 32 7))) :=
  loadOrGenerate_storedKey _ id (by decide)

end Files

end SuperHerdr
