/-! The syntax tree of a JSON text. It keeps numerals and string escapes as they are written: which
number or character they stand for, and whether they stand for one at all, is a question of the
reader of a value. Half a surrogate pair is fine in a tree and in no string. -/
namespace ModelWorkspace.Json

/-- A piece of a written string: a character, or a code unit given by its four hexadecimal digits. -/
inductive Piece
  | char (c : Char)
  | unit (n : Nat)
  deriving DecidableEq

/-- A number as it is written. Without point and exponent it is an integer. -/
structure Numeral where
  negative : Bool := false
  whole : List Char := []
  fraction : List Char := []
  /-- Whether the exponent is negative, and its digits. -/
  exponent : Option (Bool × List Char) := none
  deriving DecidableEq

def Numeral.isWhole (n : Numeral) : Bool := n.fraction.isEmpty && n.exponent.isNone

/-- The syntax tree of a JSON text. -/
inductive Tree
  | null
  | bool (b : Bool)
  | number (n : Numeral)
  | string (pieces : List Piece)
  | array (items : List Tree)
  | object (fields : List (List Piece × Tree))

def isHighSurrogate (n : Nat) : Bool := 0xd800 ≤ n && n ≤ 0xdbff

def isLowSurrogate (n : Nat) : Bool := 0xdc00 ≤ n && n ≤ 0xdfff

def joinSurrogates (high low : Nat) : Char :=
  Char.ofNat (0x10000 + (high - 0xd800) * 0x400 + (low - 0xdc00))

/-- The characters a written string stands for. A code unit that is half a pair needs the other
half beside it. -/
def decode : List Piece → Option (List Char)
  | [] => some []
  | .char c :: rest => (decode rest).map (c :: ·)
  | .unit high :: .unit low :: rest =>
    if isHighSurrogate high then
      if isLowSurrogate low then (decode rest).map (joinSurrogates high low :: ·) else none
    else if isLowSurrogate high then none
    else (decode (.unit low :: rest)).map (Char.ofNat high :: ·)
  | .unit n :: rest =>
    if isHighSurrogate n || isLowSurrogate n then none else (decode rest).map (Char.ofNat n :: ·)

@[simp] theorem decode_nil : decode [] = some [] := rfl

def Tree.string? : Tree → Option String
  | .string pieces => (decode pieces).map String.ofList
  | _ => none

end ModelWorkspace.Json
