import Mathlib.Algebra.Ring.Nat
import Mathlib.Data.Int.Order.Basic
import Mathlib.Data.List.Basic
import Mathlib.Data.Nat.Log

/-!
# JSON values

A value as a program holds it: its numbers are integers of 64 bits or finite doubles, and the
members of an object are in the order of their names. A member of an object is read by its name,
whatever else the object has (`get_insert`).
-/

namespace JsonData

/-! ### Numbers -/

/-- A finite double: its sign, its biased exponent and its fraction. -/
structure Double where
  negative : Bool
  exponent : Fin 2047
  fraction : Fin (2 ^ 52)
deriving DecidableEq

namespace Double

/-- The double next to a whole number, the even one of two that are as near. -/
def ofNat (negative : Bool) (n : ℕ) : Double :=
  if n = 0 then ⟨negative, 0, 0⟩
  else if n.log2 ≤ 52 then
    ⟨negative, Fin.ofNat 2047 (1023 + n.log2), Fin.ofNat (2 ^ 52) (n <<< (52 - n.log2))⟩
  else
    let unit := 2 ^ (n.log2 - 52)
    let below := n / unit
    let rest := 2 * (n % unit)
    let near := if unit < rest ∨ unit = rest ∧ below % 2 = 1 then below + 1 else below
    -- rounding up may lead to the next power of two
    ⟨negative, Fin.ofNat 2047 (1023 + n.log2 + (near - 2 ^ 52) / 2 ^ 52), Fin.ofNat (2 ^ 52) near⟩

def ofInt (i : ℤ) : Double := ofNat (i < 0) i.natAbs

/-- `0.5`. -/
def HALF : Double := ⟨false, 1022, 0⟩

end Double

inductive Number
  | posInt (n : UInt64)
  | negInt (i : Int64)
  | float (value : Double)
deriving DecidableEq

def Number.asF64 : Number → Double
  | .posInt n => .ofInt n.toNat
  | .negInt i => .ofInt i.toInt
  | .float value => value

/-! ### Values -/

inductive Value
  | null
  | bool (b : Bool)
  | number (n : Number)
  | string (text : String)
  | array (elements : List Value)
  | object (members : List (String × Value))

namespace Value

def asStr : Value → Option String
  | .string text => some text
  | _ => none

def asF64 : Value → Option Double
  | .number n => some n.asF64
  | _ => none

def asArray : Value → Option (List Value)
  | .array elements => some elements
  | _ => none

def asBool : Value → Option Bool
  | .bool b => some b
  | _ => none

def asObject : Value → Option (List (String × Value))
  | .object members => some members
  | _ => none

def isNull : Value → Bool
  | .null => true
  | _ => false

/-- What a list of members has under a name. -/
def member (name : String) : List (String × Value) → Option Value
  | [] => none
  | (other, value) :: members => if name = other then some value else member name members

/-- The member of an object. -/
def get (value : Value) (name : String) : Option Value :=
  match value with
  | .object members => member name members
  | _ => none

/-- A member in its place among others. -/
def insert (name : String) (value : Value) : List (String × Value) → List (String × Value)
  | [] => [(name, value)]
  | (other, held) :: members =>
      if name < other then (name, value) :: (other, held) :: members
      else if name = other then (name, value) :: members
      else (other, held) :: insert name value members

/-- The object with these members. -/
def ofMembers (members : List (String × Value)) : Value :=
  .object (members.foldl (fun held (name, value) => insert name value held) [])

@[simp] theorem get_object_nil (name : String) : (object []).get name = none := rfl

/-- A text, or nothing. -/
def ofOption : Option String → Value
  | some text => .string text
  | none => .null

theorem member_insert (name other : String) (value : Value) (members : List (String × Value)) :
    member name (insert other value members) =
      if name = other then some value else member name members := by
  induction members with
  | nil => rfl
  | cons first members ih =>
    obtain ⟨held, kept⟩ := first
    rw [insert]
    split
    · rfl
    · split
      · next hsame =>
        subst hsame
        rw [member, member]
        split <;> rfl
      · next hother =>
        rw [member, ih, member]
        by_cases hname : name = held
        · rw [if_pos hname, if_pos hname, if_neg (hname ▸ Ne.symm hother)]
        · rw [if_neg hname, if_neg hname]

theorem get_object_insert (name other : String) (value : Value) (members : List (String × Value)) :
    (object (insert other value members)).get name =
      if name = other then some value else (object members).get name :=
  member_insert name other value members

end Value

end JsonData
