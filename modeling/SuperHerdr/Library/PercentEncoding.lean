import SuperHerdr.Library.Numerals

/-!
# Percent-encoding

Bytes where some stand as `%` and two digits. A text of such bytes is in pieces, plain bytes and
escapes; it is read strictly if a `%` is plain only where no two digits stand behind it, and what is
read so spells the text (`spelled_strictly`). An encoding writes no `%` plainly, so that is how it is
read.
-/

namespace Percent

open Numerals Digests

def PERCENT : UInt8 := 0x25

/-- The byte that two bytes spell as digits. -/
def spelledBy (high low : UInt8) : Option UInt8 :=
  pairValue (Char.ofNat high.toNat) (Char.ofNat low.toNat)

/-- A byte as it is written. -/
inductive Piece
  | plain (byte : UInt8)
  | escape (high low byte : UInt8) (spells : spelledBy high low = some byte)

namespace Piece

def bytes : Piece → List UInt8
  | plain byte => [byte]
  | escape high low _ _ => [PERCENT, high, low]

def value : Piece → UInt8
  | plain byte => byte
  | escape _ _ byte _ => byte

end Piece

/-- The bytes that are written. -/
def spelled (pieces : List Piece) : List UInt8 := pieces.flatMap Piece.bytes

/-- The bytes that are meant. -/
def values (pieces : List Piece) : List UInt8 := pieces.map Piece.value

/-- Whether an escape's digits stand here. -/
def Escapes : List UInt8 → Prop
  | high :: low :: _ => (spelledBy high low).isSome
  | _ => False

/-- A `%` is plain only where no two digits stand behind it. -/
def Strict : List Piece → Prop
  | [] => True
  | .plain byte :: rest => (byte = PERCENT → ¬Escapes (spelled rest)) ∧ Strict rest
  | .escape .. :: rest => Strict rest

/-- The pieces of written bytes. -/
def strictly : List UInt8 → List Piece
  | [] => []
  | [byte] => [.plain byte]
  | [byte, next] => [.plain byte, .plain next]
  | byte :: high :: low :: rest =>
      if h : byte = PERCENT ∧ (spelledBy high low).isSome then
        .escape high low ((spelledBy high low).get h.2) (Option.some_get h.2).symm :: strictly rest
      else .plain byte :: strictly (high :: low :: rest)

/-- A percent-encoding of some bytes: any of them may be escaped, and each `%` is. -/
def Encodes (pieces : List Piece) (bytes : List UInt8) : Prop :=
  values pieces = bytes ∧ ∀ byte, .plain byte ∈ pieces → byte ≠ PERCENT

@[simp] theorem spelled_nil : spelled [] = [] := rfl

@[simp] theorem spelled_cons (piece : Piece) (pieces : List Piece) :
    spelled (piece :: pieces) = piece.bytes ++ spelled pieces := rfl

@[simp] theorem values_cons (piece : Piece) (pieces : List Piece) :
    values (piece :: pieces) = piece.value :: values pieces := rfl

theorem spelled_strictly (bytes : List UInt8) : spelled (strictly bytes) = bytes := by
  induction bytes using strictly.induct with
  | case1 | case2 | case3 => rfl
  | case4 byte high low rest h ih =>
    rw [strictly, dif_pos h, spelled_cons, ih, Piece.bytes, h.1]
    rfl
  | case5 byte high low rest h ih =>
    rw [strictly, dif_neg h, spelled_cons, ih]
    rfl

theorem strict_strictly (bytes : List UInt8) : Strict (strictly bytes) := by
  induction bytes using strictly.induct with
  | case1 => trivial
  | case2 byte => exact ⟨fun _ => id, trivial⟩
  | case3 byte next => exact ⟨fun _ => id, fun _ => id, trivial⟩
  | case4 byte high low rest h ih =>
    rw [strictly, dif_pos h]
    exact ih
  | case5 byte high low rest h ih =>
    rw [strictly, dif_neg h]
    refine ⟨fun hbyte hescapes => h ⟨hbyte, ?_⟩, ih⟩
    rwa [spelled_strictly] at hescapes

/-- An encoding is read as it was written. -/
theorem Encodes.strict {pieces : List Piece} {bytes : List UInt8} (h : Encodes pieces bytes) :
    Strict pieces := by
  obtain ⟨-, hplain⟩ := h
  induction pieces with
  | nil => trivial
  | cons piece rest ih =>
    have hrest := ih fun byte hmem => hplain byte (List.mem_cons_of_mem _ hmem)
    cases piece with
    | escape => exact hrest
    | plain byte => exact ⟨fun hbyte => absurd hbyte (hplain byte List.mem_cons_self), hrest⟩

end Percent
