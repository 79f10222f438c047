import ModelWorkspace.Json.Tree
import ModelWorkspace.Text.Digits

/-! Free JSON values. Integers of 64 bits stay integers and all other numbers are binary
floating-point numbers; the fields of an object are in the order of their keys, each key once. -/
namespace ModelWorkspace.Json

open Text (digitValue valueOf)

/-- A free value. -/
inductive Value
  | null
  | bool (b : Bool)
  | int (n : Int)
  | float (x : Float)
  | string (s : String)
  | array (items : List Value)
  | object (fields : List (String × Value))

/-- A decimal number with at most 64 bits of digits, `significand * 10 ^ exponent`. -/
structure Scaled where
  significand : Nat
  exponent : Int

namespace Scaled

/-- Whether a significand of 64 bits has room for the digit. -/
def admits (significand : Nat) (c : Char) : Bool :=
  10 * significand + digitValue c < UInt64.size

/-- Takes digits before the point while there is room; each later one counts as a factor of ten. -/
def takeWhole (significand : Nat) : List Char → Scaled
  | [] => ⟨significand, 0⟩
  | c :: rest =>
    if admits significand c then takeWhole (10 * significand + digitValue c) rest
    else ⟨significand, rest.length + 1⟩

/-- Takes digits after the point while there is room, and drops the rest. -/
def takeFraction (x : Scaled) : List Char → Scaled
  | [] => x
  | c :: rest =>
    if admits x.significand c then
      takeFraction ⟨10 * x.significand + digitValue c, x.exponent - 1⟩ rest
    else x

def ofNumeral (n : Numeral) : Scaled := takeFraction (takeWhole 0 n.whole) n.fraction

def powerOfTen (n : Nat) : Float := Float.ofScientific 1 false n

/-- Multiplies by a power of ten. Powers have at most 308 zeros; a result that is too large is
refused, one that is too small becomes zero. -/
def scale (x : Float) (e : Int) : Option Float :=
  if -308 ≤ e ∧ e ≤ 308 then
    if 0 ≤ e then
      let y := x * powerOfTen e.toNat
      if y.isInf then none else some y
    else some (x / powerOfTen (-e).toNat)
  else if x == 0 then some x
  else if 0 ≤ e then none
  else scale (x / powerOfTen 308) (e + 308)
termination_by (-e).toNat

def toFloat? (x : Scaled) : Option Float := scale (UInt64.ofNat x.significand).toFloat x.exponent

end Scaled

/-- The magnitude of a numeral as a float. An exponent of more than 31 bits makes zero of it, or is
refused. -/
def Numeral.magnitude? (n : Numeral) : Option Float :=
  let x := Scaled.ofNumeral n
  match n.exponent with
  | none => x.toFloat?
  | some (negative, digits) =>
    let e := valueOf digits
    if e < UInt32.size / 2 then
      Scaled.toFloat? { x with exponent := if negative then x.exponent - e else x.exponent + e }
    else if x.significand = 0 || negative then some 0
    else none

/-- The integer that the numeral writes, if it is an integer of 64 bits. Zero with a sign is none. -/
def Numeral.integer? (n : Numeral) : Option Int :=
  let magnitude := valueOf n.whole
  if !n.isWhole then none
  else if n.negative then
    if magnitude = 0 || UInt64.size / 2 < magnitude then none else some (-(magnitude : Int))
  else if magnitude < UInt64.size then some magnitude
  else none

def Numeral.value? (n : Numeral) : Option Value :=
  match n.integer? with
  | some i => some (.int i)
  | none => n.magnitude?.map fun x => .float (if n.negative then -x else x)

/-- The number without sign, below `2 ^ 32`, that the numeral writes. -/
def Numeral.word32? (n : Numeral) : Option UInt32 :=
  if n.isWhole && !n.negative && valueOf n.whole < UInt32.size then
    some (UInt32.ofNat (valueOf n.whole))
  else none

/-- Puts a field in the place of its key. A field of the same key makes room for it. -/
def insertField (key : String) (value : Value) :
    List (String × Value) → List (String × Value)
  | [] => [(key, value)]
  | (k, v) :: rest =>
    match compare key k with
    | .lt => (key, value) :: (k, v) :: rest
    | .eq => (key, value) :: rest
    | .gt => (k, v) :: insertField key value rest

mutual

/-- The value of a tree in which arrays and objects are nested at most this deep. -/
def Value.ofTree (depth : Nat) : Tree → Option Value
  | .null => some .null
  | .bool b => some (.bool b)
  | .number n => n.value?
  | .string pieces => (decode pieces).map fun s => .string (String.ofList s)
  | .array items =>
    match depth with
    | 0 => none
    | d + 1 => (Value.ofItems d items).map .array
  | .object fields =>
    match depth with
    | 0 => none
    | d + 1 => (Value.ofFields d [] fields).map .object

def Value.ofItems (depth : Nat) : List Tree → Option (List Value)
  | [] => some []
  | t :: rest => do return (← Value.ofTree depth t) :: (← Value.ofItems depth rest)

/-- The fields of an object, put one after the other into those there are. -/
def Value.ofFields (depth : Nat) (done : List (String × Value)) :
    List (List Piece × Tree) → Option (List (String × Value))
  | [] => some done
  | (key, t) :: rest => do
    let key ← decode key
    let value ← Value.ofTree depth t
    Value.ofFields depth (insertField (String.ofList key) value done) rest

end

/-- How deep arrays and objects may be nested in a text that is read as one value. -/
def depthLimit : Nat := 127

mutual

/-- Equality of values: an integer differs from every float, and zero equals negative zero. -/
def Value.same : Value → Value → Bool
  | .null, .null => true
  | .bool a, .bool b => a == b
  | .int m, .int n => m == n
  | .float x, .float y => x == y
  | .string s, .string t => s == t
  | .array a, .array b => Value.sameItems a b
  | .object a, .object b => Value.sameFields a b
  | _, _ => false

def Value.sameItems : List Value → List Value → Bool
  | [], [] => true
  | a :: as, b :: bs => Value.same a b && Value.sameItems as bs
  | _, _ => false

def Value.sameFields : List (String × Value) → List (String × Value) → Bool
  | [], [] => true
  | (k, a) :: as, (l, b) :: bs => k == l && Value.same a b && Value.sameFields as bs
  | _, _ => false

end

end ModelWorkspace.Json
