import AccessPlan.Number.Binary64

/-!
# Shortest decimals

`Decimal.shortest` gives the fewest significant digits that read back as a given binary number: the
reals that round to `m * 2 ^ e` form an interval (with its ends when `m` is even), and the first of
the decimal grids with 1, 2, … 17 digits that has a point in it supplies the digits. Of two points of
that grid the nearer is taken. `Binary64.text` lays the digits out.
-/

set_option autoImplicit false

namespace AccessPlan

namespace Decimal

/-- The decimal digits of a natural number, most significant first; zero has one digit. -/
def digits (n : Nat) : List Char := Nat.toDigits 10 n

/-- A decimal number `0.d₁d₂… * 10 ^ point`, given by its digits without trailing zeros. -/
structure Digits where
  digits : List Char
  point : Int
  deriving DecidableEq, Repr

/-- The open or closed interval of the reals that round to a number, over one denominator. -/
structure Interval where
  low : Nat
  value : Nat
  high : Nat
  den : Nat
  closed : Bool

/-- The interval of `mantissa * 2 ^ exponent`: half a step to each side, and a quarter below a power
of two, where the numbers below lie twice as close. -/
def interval (mantissa : Nat) (exponent : Int) : Interval :=
  let narrow := mantissa == Nat.pow 2 52 && exponent > Binary64.minExponent
  let (unit, den) := Binary64.ratio 1 (exponent - 2)
  { low := (4 * mantissa - if narrow then 1 else 2) * unit
    value := 4 * mantissa * unit
    high := (4 * mantissa + 2) * unit
    den, closed := mantissa % 2 == 0 }

/-- The least `point` with `num / den < 10 ^ point`, found from a start that is not above it. -/
def pointFrom (num den : Nat) : Nat → Int → Int
  | 0, point => point
  | steps + 1, point =>
    let below := if 0 ≤ point then num < Nat.pow 10 point.toNat * den
      else num * Nat.pow 10 (-point).toNat < den
    if below then point else pointFrom num den steps (point + 1)

/-- The position of the decimal point of `num / den`: the least power of ten above it. -/
def pointOf (num den : Nat) : Int :=
  let guess := ((Nat.log2 num : Int) - (Nat.log2 den : Int) - 1) * 30103 / 100000
  pointFrom num den 4 (guess - 1)

/-- The point of the grid with step `10 ^ scale` that lies in the interval and is nearest to the value. -/
def gridPoint? (i : Interval) (scale : Int) : Option Nat :=
  let up := if 0 ≤ scale then 1 else Nat.pow 10 (-scale).toNat
  let step := if 0 ≤ scale then Nat.pow 10 scale.toNat * i.den else i.den
  let inside (n : Nat) : Bool :=
    let x := n * step
    if i.closed then i.low * up ≤ x && x ≤ i.high * up else i.low * up < x && x < i.high * up
  let below := i.value * up / step
  let rest := i.value * up % step
  match inside below, inside (below + 1) with
  | false, false => none
  | true, false => some below
  | false, true => some (below + 1)
  | true, true =>
    some (if 2 * rest < step || (2 * rest == step && below % 2 == 0) then below else below + 1)

/-- Digits without the zeros at their end. -/
def dropTrailingZeros (cs : List Char) : List Char :=
  (cs.reverse.dropWhile (· == '0')).reverse

/-- A grid point as digits: one digit more than the grid has moves the decimal point. -/
def ofGridPoint (n : Nat) (scale : Int) : Digits :=
  let cs := digits n
  { digits := dropTrailingZeros cs, point := scale + cs.length }

/-- The grids from `count` digits on, `steps` of them. -/
def search (i : Interval) (point : Int) : Nat → Nat → Option Digits
  | 0, _ => none
  | steps + 1, count =>
    match gridPoint? i (point - count) with
    | some n => some (ofGridPoint n (point - count))
    | none => search i point steps (count + 1)

/-- The fewest digits that read back as `mantissa * 2 ^ exponent`, for a positive mantissa. -/
def shortest (mantissa : Nat) (exponent : Int) : Digits :=
  let i := interval mantissa exponent
  let point := pointOf i.value i.den
  (search i point 17 1).getD ⟨digits mantissa, 0⟩

end Decimal

/-- How a number is laid out in decimal. -/
structure DecimalLayout where
  /-- A decimal point at this position or below is written with an exponent. -/
  pointAbove : Int
  /-- A decimal point beyond this position is written with an exponent. -/
  pointUpTo : Int
  /-- The least number of exponent digits. -/
  exponentDigits : Nat

namespace Binary64

/-- Settings and directives show a number positionally from `0.0001` to below `10 ^ 16`, and with an
exponent of at least two digits outside that range. -/
def layout : DecimalLayout := ⟨-4, 16, 2⟩

/-- Digits with the decimal point at `point`; a whole number keeps one zero after the point. -/
def positional (d : Decimal.Digits) : List Char :=
  if d.point ≤ 0 then
    '0' :: '.' :: (List.replicate (-d.point).toNat '0' ++ d.digits)
  else
    let whole := d.point.toNat
    if d.digits.length ≤ whole then
      d.digits ++ List.replicate (whole - d.digits.length) '0' ++ ['.', '0']
    else d.digits.take whole ++ '.' :: d.digits.drop whole

/-- Digits with one of them before the decimal point and a signed exponent. -/
def exponential (format : DecimalLayout) (d : Decimal.Digits) : List Char :=
  let power := d.point - 1
  let exponent := Decimal.digits power.natAbs
  let padded := List.replicate (format.exponentDigits - exponent.length) '0' ++ exponent
  let fraction := d.digits.drop 1
  d.digits.take 1 ++ (if fraction.isEmpty then [] else '.' :: fraction) ++
    'e' :: (if power < 0 then '-' else '+') :: padded

/-- The text of a number without its sign. -/
def magnitude (mantissa : Nat) (exponent : Int) : List Char :=
  if mantissa == 0 then ['0', '.', '0']
  else
    let d := Decimal.shortest mantissa exponent
    if layout.pointAbove < d.point && d.point ≤ layout.pointUpTo then positional d
    else exponential layout d

/-- The text of a number: the shortest decimal that reads back as it. -/
def text : Binary64 → String
  | .nan _ => "nan"
  | .infinite negative => if negative then "-inf" else "inf"
  | .finite negative m e =>
    String.ofList (if negative then '-' :: magnitude m e else magnitude m e)

end Binary64

end AccessPlan
