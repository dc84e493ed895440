/-!
# Binary64 numbers

The numbers of a double-precision format, held exactly: a finite number is `mantissa * 2 ^ exponent`
with a sign, so every operation is integer arithmetic followed by one rounding.

* `ofRatio` rounds a ratio of naturals to the nearest number of the format, ties to the even mantissa.
* `add`, `mul` and `ofInt` are the exact results rounded once.
* `truncate?` drops the fraction; `equalsInt` and `equal` compare by value.
-/

set_option autoImplicit false

namespace AccessPlan

/-- A number of the double-precision format. A finite one has a mantissa below `2 ^ 53` and an
exponent from -1074 to 971; the mantissa is at least `2 ^ 52` unless the exponent is -1074. Two that
are no numbers are equal only if they are one object, which `serial` tells. -/
inductive Binary64 where
  | nan (serial : Nat)
  | infinite (negative : Bool)
  | finite (negative : Bool) (mantissa : Nat) (exponent : Int)
  deriving DecidableEq, Repr, Inhabited

namespace Binary64

/-- The least exponent of a finite number. -/
def minExponent : Int := -1074

/-- The greatest exponent of a finite number. -/
def maxExponent : Int := 971

/-- Zero with a sign. -/
def zero (negative : Bool) : Binary64 := .finite negative 0 minExponent

/-- `mantissa * 2 ^ exponent` as a numerator and a denominator. -/
def ratio (mantissa : Nat) (exponent : Int) : Nat × Nat :=
  if 0 ≤ exponent then (mantissa * Nat.pow 2 exponent.toNat, 1)
  else (mantissa, Nat.pow 2 (-exponent).toNat)

/-- `num / den` divided by `2 ^ exponent`, as a numerator and a denominator. -/
def scaleDown (num den : Nat) (exponent : Int) : Nat × Nat :=
  if 0 ≤ exponent then (num, den * Nat.pow 2 exponent.toNat)
  else (num * Nat.pow 2 (-exponent).toNat, den)

/-- The natural nearest to `num / den`; a half goes to the even neighbour. -/
def roundDiv (num den : Nat) : Nat :=
  let quotient := num / den
  let twice := 2 * (num % den)
  if twice < den || (twice == den && quotient % 2 == 0) then quotient else quotient + 1

/-- The exponent at which the quotient of `num` and `den` has 53 binary digits, or the least one. -/
def exponentFor (num den : Nat) : Int :=
  let guess : Int := (Nat.log2 num : Int) - (Nat.log2 den : Int) - 52
  let (n, d) := scaleDown num den guess
  let exact := if n / d < Nat.pow 2 52 then guess - 1 else guess
  max exact minExponent

/-- A rounded mantissa at an exponent: a carry into the 54th digit moves the exponent, and what is
above the largest finite number is infinite. -/
def pack (negative : Bool) (mantissa : Nat) (exponent : Int) : Binary64 :=
  let (m, e) := if mantissa == Nat.pow 2 53 then (Nat.pow 2 52, exponent + 1) else (mantissa, exponent)
  if e > maxExponent then .infinite negative else .finite negative m e

/-- The number nearest to `num / den`, for a positive `den`. -/
def ofRatio (negative : Bool) (num den : Nat) : Binary64 :=
  if num == 0 then zero negative
  else
    let exponent := exponentFor num den
    let (n, d) := scaleDown num den exponent
    pack negative (roundDiv n d) exponent

/-- The number nearest to an integer. -/
def ofInt (i : Int) : Binary64 := ofRatio (i < 0) i.natAbs 1

/-- The number nearest to `digits * 10 ^ exponent`. Exponents far outside the range of the format
are answered without the power: `digitCount` is the number of digits of `digits`. -/
def ofDecimal (negative : Bool) (digits digitCount : Nat) (exponent : Int) : Binary64 :=
  if digits == 0 then zero negative
  else if exponent > 400 then .infinite negative
  else if exponent + digitCount < -400 then zero negative
  else if 0 ≤ exponent then ofRatio negative (digits * Nat.pow 10 exponent.toNat) 1
  else ofRatio negative digits (Nat.pow 10 (-exponent).toNat)

/-- A finite number as an integer multiple of `2 ^ exponent`. -/
def signed (negative : Bool) (mantissa : Nat) : Int :=
  if negative then -(mantissa : Int) else mantissa

/-- The sum, rounded once. A zero sum is positive unless both terms are negative zeros. -/
def add : Binary64 → Binary64 → Binary64
  | .nan _, _ | _, .nan _ => .nan 0
  | .infinite s, .infinite t => if s == t then .infinite s else .nan 0
  | .infinite s, .finite .. => .infinite s
  | .finite .., .infinite t => .infinite t
  | .finite s m e, .finite t n f =>
    let low := min e f
    let sum := signed s m * Int.pow 2 (e - low).toNat + signed t n * Int.pow 2 (f - low).toNat
    if sum == 0 then zero (s && t)
    else
      let (num, den) := ratio sum.natAbs low
      ofRatio (sum < 0) num den

/-- The product, rounded once. -/
def mul : Binary64 → Binary64 → Binary64
  | .nan _, _ | _, .nan _ => .nan 0
  | .infinite s, .infinite t => .infinite (s != t)
  | .infinite s, .finite t n _ => if n == 0 then .nan 0 else .infinite (s != t)
  | .finite s m _, .infinite t => if m == 0 then .nan 0 else .infinite (s != t)
  | .finite s m e, .finite t n f =>
    let (num, den) := ratio (m * n) (e + f)
    ofRatio (s != t) num den

/-- The integer part, toward zero. -/
def truncate? : Binary64 → Option Int
  | .finite s m e =>
    let (num, den) := ratio m e
    some (signed s (num / den))
  | _ => none

/-- Whether the number is exactly the integer `i`. -/
def equalsInt (x : Binary64) (i : Int) : Bool :=
  match x with
  | .finite s m e =>
    let (num, den) := ratio m e
    signed s num == i * den
  | _ => false

/-- Equality by value: the two zeros are equal, and what is no number equals itself only. -/
def equal : Binary64 → Binary64 → Bool
  | .nan a, .nan b => a == b
  | .infinite s, .infinite t => s == t
  | .finite s m e, .finite t n f =>
    let low := min e f
    signed s m * Int.pow 2 (e - low).toNat == signed t n * Int.pow 2 (f - low).toNat
  | _, _ => false

/-- Whether the number is a zero. -/
def isZero : Binary64 → Bool
  | .finite _ m _ => m == 0
  | _ => false

/-- The number with its sign turned. -/
def negate : Binary64 → Binary64
  | .nan serial => .nan serial
  | .infinite s => .infinite (!s)
  | .finite s m e => .finite (!s) m e

/-- A number that has just been computed: if it is no number, it is an object of its own. -/
def fresh (serial : Nat) : Binary64 → Binary64
  | .nan _ => .nan serial
  | x => x

end Binary64

end AccessPlan
