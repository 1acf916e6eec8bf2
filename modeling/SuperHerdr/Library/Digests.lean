import Mathlib.Data.List.Basic

/-!
# Digests

A digest of 32 bytes, and how it is spelled: two hexadecimal digits for each byte, in lower case.
Which digest a content has is a parameter.
-/

namespace Digests

/-- A digest function such as SHA-256. -/
structure Sha256 where
  digest : List UInt8 → List UInt8
  length_digest : ∀ content, (digest content).length = 32

def hexByte (byte : UInt8) : List Char :=
  [Nat.digitChar (byte.toNat / 16), Nat.digitChar (byte.toNat % 16)]

/-- Bytes as they are spelled. -/
def hex (bytes : List UInt8) : List Char := bytes.flatMap hexByte

def isHexDigit (character : Char) : Bool :=
  character.isDigit || ('a' ≤ character && character ≤ 'f') || ('A' ≤ character && character ≤ 'F')

def DIGITS : List Char :=
  ['0', '1', '2', '3', '4', '5', '6', '7', '8', '9', 'a', 'b', 'c', 'd', 'e', 'f']

/-- A digit of a spelling. -/
def Spells (character : Char) : Prop := character ∈ DIGITS

theorem spells_digitChar {n : ℕ} (h : n < 16) : Spells (Nat.digitChar n) := by
  have hall : ∀ n < 16, Nat.digitChar n ∈ DIGITS := by decide
  exact hall n h

theorem spells_of_mem_hex {bytes : List UInt8} {character : Char} (h : character ∈ hex bytes) :
    Spells character := by
  obtain ⟨byte, -, hmem⟩ := List.mem_flatMap.mp h
  have hbyte := byte.toNat_lt
  simp only [hexByte, List.mem_cons, List.not_mem_nil, or_false] at hmem
  rcases hmem with rfl | rfl
  · exact spells_digitChar (by omega)
  · exact spells_digitChar (by omega)

theorem length_hex (bytes : List UInt8) : (hex bytes).length = 2 * bytes.length := by
  induction bytes with
  | nil => rfl
  | cons byte bytes ih =>
    rw [hex] at ih
    simp only [hex, List.flatMap_cons, List.length_append, hexByte, List.length_cons,
      List.length_nil, ih]
    omega

@[simp] theorem Sha256.length_hex_digest (sha : Sha256) (content : List UInt8) :
    (hex (sha.digest content)).length = 64 := by
  rw [length_hex, sha.length_digest]

/-- What is so of every digit is so of all of a spelling. -/
theorem of_mem_hex (such : Char → Bool) (hall : DIGITS.all such = true) {bytes : List UInt8} :
    ∀ character ∈ hex bytes, such character = true := fun character h =>
  List.all_eq_true.mp hall character (spells_of_mem_hex h)

/-! ### SHA-256 -/

def ROUND_CONSTANTS : List UInt32 :=
  [0x428a2f98, 0x71374491, 0xb5c0fbcf, 0xe9b5dba5, 0x3956c25b, 0x59f111f1, 0x923f82a4,
    0xab1c5ed5, 0xd807aa98, 0x12835b01, 0x243185be, 0x550c7dc3, 0x72be5d74, 0x80deb1fe,
    0x9bdc06a7, 0xc19bf174, 0xe49b69c1, 0xefbe4786, 0x0fc19dc6, 0x240ca1cc, 0x2de92c6f,
    0x4a7484aa, 0x5cb0a9dc, 0x76f988da, 0x983e5152, 0xa831c66d, 0xb00327c8, 0xbf597fc7,
    0xc6e00bf3, 0xd5a79147, 0x06ca6351, 0x14292967, 0x27b70a85, 0x2e1b2138, 0x4d2c6dfc,
    0x53380d13, 0x650a7354, 0x766a0abb, 0x81c2c92e, 0x92722c85, 0xa2bfe8a1, 0xa81a664b,
    0xc24b8b70, 0xc76c51a3, 0xd192e819, 0xd6990624, 0xf40e3585, 0x106aa070, 0x19a4c116,
    0x1e376c08, 0x2748774c, 0x34b0bcb5, 0x391c0cb3, 0x4ed8aa4a, 0x5b9cca4f, 0x682e6ff3,
    0x748f82ee, 0x78a5636f, 0x84c87814, 0x8cc70208, 0x90befffa, 0xa4506ceb, 0xbef9a3f7,
    0xc67178f2]

/-- The words that a block is folded into. -/
structure Registers where
  (a b c d e f g h : UInt32)

def INITIAL_REGISTERS : Registers where
  a := 0x6a09e667
  b := 0xbb67ae85
  c := 0x3c6ef372
  d := 0xa54ff53a
  e := 0x510e527f
  f := 0x9b05688c
  g := 0x1f83d9ab
  h := 0x5be0cd19

def rotateRight (word places : UInt32) : UInt32 := word >>> places ||| word <<< (32 - places)

def wordBytes (word : UInt32) : List UInt8 :=
  [(word >>> 24).toUInt8, (word >>> 16).toUInt8, (word >>> 8).toUInt8, word.toUInt8]

def words : List UInt8 → List UInt32
  | a :: b :: c :: d :: rest =>
      (a.toUInt32 <<< 24 ||| b.toUInt32 <<< 16 ||| c.toUInt32 <<< 8 ||| d.toUInt32) :: words rest
  | _ => []

/-- The content with a bit after it, and its length in bits at the end of the last block. -/
def padded (content : List UInt8) : List UInt8 :=
  let bits : UInt64 := UInt64.ofNat (8 * content.length)
  content ++ (0x80 : UInt8) :: List.replicate ((119 - content.length % 64) % 64) (0 : UInt8) ++
    wordBytes (bits >>> 32).toUInt32 ++ wordBytes bits.toUInt32

/-- The words of a block and those that are made of them, the last one first. -/
def schedule (block : List UInt32) : List UInt32 :=
  (List.range 48).foldl (fun made _ =>
    let near := made.getD 1 0
    let far := made.getD 14 0
    ((rotateRight near 17 ^^^ rotateRight near 19 ^^^ near >>> 10) + made.getD 6 0 +
      (rotateRight far 7 ^^^ rotateRight far 18 ^^^ far >>> 3) + made.getD 15 0) :: made)
    block.reverse

def Registers.round (r : Registers) (constant word : UInt32) : Registers :=
  let first := r.h + (rotateRight r.e 6 ^^^ rotateRight r.e 11 ^^^ rotateRight r.e 25) +
    ((r.e &&& r.f) ^^^ (~~~r.e &&& r.g)) + constant + word
  let second := (rotateRight r.a 2 ^^^ rotateRight r.a 13 ^^^ rotateRight r.a 22) +
    ((r.a &&& r.b) ^^^ (r.a &&& r.c) ^^^ (r.b &&& r.c))
  ⟨first + second, r.a, r.b, r.c, r.d + first, r.e, r.f, r.g⟩

def Registers.compress (r : Registers) (block : List UInt32) : Registers :=
  let last := (ROUND_CONSTANTS.zip (schedule block).reverse).foldl
    (fun r (constant, word) => r.round constant word) r
  ⟨r.a + last.a, r.b + last.b, r.c + last.c, r.d + last.d, r.e + last.e, r.f + last.f, r.g + last.g,
    r.h + last.h⟩

def Registers.bytes (r : Registers) : List UInt8 :=
  wordBytes r.a ++ wordBytes r.b ++ wordBytes r.c ++ wordBytes r.d ++ wordBytes r.e ++
    wordBytes r.f ++ wordBytes r.g ++ wordBytes r.h

/-- SHA-256. -/
def sha256 : Sha256 where
  digest content :=
    (((words (padded content)).toChunks 16).foldl Registers.compress INITIAL_REGISTERS).bytes
  length_digest _ := rfl

end Digests
