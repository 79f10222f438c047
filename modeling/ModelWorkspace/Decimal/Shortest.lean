/-! The shortest decimal that reads back as a given binary floating-point number. A number is
`mantissa * 2 ^ exponent`; the reals that round to it form an interval, whose ends belong to it iff
the mantissa is even. Among the decimal grids the first one with a point in the interval wins, and
on it the nearer of the two neighbours of the number. -/
namespace ModelWorkspace.Decimal

/-- A positive binary number, and whether the gap below it is half the gap above. -/
structure Binary where
  mantissa : Nat
  exponent : Int
  narrowBelow : Bool := false
  deriving DecidableEq

/-- A decimal number, `digits * 10 ^ exponent`. -/
structure Scientific where
  digits : Nat
  exponent : Int
  deriving DecidableEq

/-- Compares `a * 10 ^ g` with `b * 2 ^ e`. -/
def compareScaled (a : Nat) (g : Int) (b : Nat) (e : Int) : Ordering :=
  compare (a * Nat.pow 10 g.toNat * Nat.pow 2 (-e).toNat)
    (b * Nat.pow 2 e.toNat * Nat.pow 10 (-g).toNat)

namespace Binary

def floorAt (x : Binary) (g : Int) : Nat :=
  (x.mantissa * Nat.pow 2 x.exponent.toNat * Nat.pow 10 (-g).toNat) /
    (Nat.pow 2 (-x.exponent).toNat * Nat.pow 10 g.toNat)

/-- The lower end of the interval, in quarters of the unit. -/
def low (x : Binary) : Nat := 4 * x.mantissa - if x.narrowBelow then 1 else 2

def high (x : Binary) : Nat := 4 * x.mantissa + 2

/-- Whether `a * 10 ^ g` rounds to the number. -/
def roundsFrom (x : Binary) (a : Nat) (g : Int) : Bool :=
  let even := x.mantissa % 2 == 0
  let below := compareScaled a g x.low (x.exponent - 2)
  let above := compareScaled a g x.high (x.exponent - 2)
  (below == .gt || (even && below == .eq)) && (above == .lt || (even && above == .eq))

def leading (x : Binary) : Int :=
  let whole := x.mantissa * Nat.pow 2 x.exponent.toNat
  let part := Nat.pow 2 (-x.exponent).toNat
  let guess : Int := (Nat.toDigits 10 whole).length - (Nat.toDigits 10 part).length
  if compareScaled 1 guess x.mantissa x.exponent == .gt then guess - 1 else guess

/-- The neighbour of the number on the grid of `10 ^ g` that rounds to it; of two, the nearer, and
the even one in the middle. -/
def onGrid (x : Binary) (g : Int) : Option Scientific :=
  let a := x.floorAt g
  match x.roundsFrom a g, x.roundsFrom (a + 1) g with
  | false, false => none
  | true, false => some ⟨a, g⟩
  | false, true => some ⟨a + 1, g⟩
  | true, true =>
    match compareScaled (2 * a + 1) g (2 * x.mantissa) x.exponent with
    | .gt => some ⟨a, g⟩
    | .lt => some ⟨a + 1, g⟩
    | .eq => some ⟨if a % 2 == 0 then a else a + 1, g⟩

/-- The first hit on the grids of 1 to 17 digits. -/
def shortest (x : Binary) : Scientific :=
  ((List.range 17).findSome? fun (n : Nat) => x.onGrid (x.leading - (n : Int))).getD
    ⟨x.floorAt (x.leading - 16), x.leading - 16⟩

/-- The magnitude of a finite float other than zero. -/
def ofBits (bits : UInt64) : Binary :=
  let fraction : Nat := bits.toNat % Nat.pow 2 52
  let biased : Nat := bits.toNat / Nat.pow 2 52 % Nat.pow 2 11
  if biased = 0 then ⟨fraction, -1074, false⟩
  else ⟨Nat.pow 2 52 + fraction, (biased : Int) - 1075, fraction == 0 && 1 < biased⟩

end Binary

/-- How a decimal is laid out: where positional notation begins and ends, counted by the exponent of
the first digit. Outside, the exponent follows an `e` and always has a sign. -/
structure Layout where
  least : Int
  greatest : Int

/-- The text of a decimal. Its digits end with one that is not zero; a whole number in positional
notation has `.0` after it. -/
def Scientific.text (layout : Layout) (d : Scientific) : List Char :=
  let written := Nat.toDigits 10 d.digits
  let digits := (written.reverse.dropWhile (· == '0')).reverse
  let first := d.exponent + written.length - 1
  if layout.least ≤ first && first ≤ layout.greatest then
    if first < 0 then
      '0' :: '.' :: (List.replicate (-first - 1).toNat '0' ++ digits)
    else
      let point := first.toNat + 1
      if digits.length ≤ point then
        digits ++ List.replicate (point - digits.length) '0' ++ ['.', '0']
      else digits.take point ++ '.' :: digits.drop point
  else
    let tail := digits.drop 1
    digits.take 1 ++ (if tail.isEmpty then [] else '.' :: tail) ++ ['e'] ++
      [if first < 0 then '-' else '+'] ++ Nat.toDigits 10 first.natAbs

def floatText (layout : Layout) (x : Float) : List Char :=
  let bits := x.toBits
  let magnitude := bits.toNat % Nat.pow 2 63
  (if magnitude = bits.toNat then [] else ['-']) ++
    if magnitude = 0 then ['0', '.', '0']
    else (Binary.ofBits bits).shortest.text layout

end ModelWorkspace.Decimal
