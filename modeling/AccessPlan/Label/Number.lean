import AccessPlan.Label.Layout
import AccessPlan.Number.Shortest

/-!
# Numbers in labels

`Layout.integer?` and `Layout.binary64?` lay numbers out: in base ten, two, eight or sixteen, with a fixed
number of decimal places or of significant digits, with grouped digits, a sign and fillers between sign
and digits.
-/

set_option autoImplicit false

namespace AccessPlan.Label

/-- The parts of a number that is to be laid out. -/
structure NumberParts where
  negative : Bool
  /-- The mark of the base. -/
  marker : List Char
  /-- The digits before the point. -/
  whole : List Char
  /-- The rest, with the point. -/
  fraction : List Char

namespace Layout

/-- Groups digits from the right, given last to first. Zeros come before them until `least` characters are
there. -/
def groupFrom (mark : Char) (size : Nat) : Nat → List Char → Nat → List Char
  | 0, ds, _ => ds
  | steps + 1, ds, least =>
    let len := min size (max (max ds.length least) 1)
    let group := ds.take len ++ List.replicate (len - ds.length) '0'
    let rest := ds.drop len
    if rest.isEmpty && least ≤ len then group
    else group ++ mark :: groupFrom mark size steps rest (least - len - 1)

/-- Digits in groups, at least `least` characters in all. -/
def grouped (l : Layout) (digits : List Char) (least : Nat) : List Char :=
  if digits.isEmpty then []
  else match l.grouping with
    | none => List.replicate (least - digits.length) '0' ++ digits
    | some mark =>
      let size := if l.kind.any "boxX".toList.contains then 4 else 3
      (groupFrom mark size (digits.length + least) digits.reverse least).reverse

/-- The sign that is written. -/
def signOf (l : Layout) (negative : Bool) : List Char :=
  if negative then ['-']
  else match l.sign with
    | some '+' => ['+']
    | some ' ' => [' ']
    | _ => []

/-- Lays the parts of a number out, to the right unless the layout says otherwise. -/
def parts (l : Layout) (n : NumberParts) : List Char :=
  let front := l.signOf n.negative ++ n.marker
  let align := l.align.getD (if l.fill.isNone && l.zeroFill then '=' else '>')
  let width := l.width.getD 0
  let least := if l.filler == '0' && align == '=' then
    width - (front.length + n.fraction.length) else 0
  let digits := l.grouped n.whole least
  if align == '=' then
    let gap := width - (front.length + digits.length + n.fraction.length)
    front ++ List.replicate gap l.filler ++ digits ++ n.fraction
  else
    let body := front ++ digits ++ n.fraction
    let (before, after) := l.margins align body.length
    List.replicate before l.filler ++ body ++ List.replicate after l.filler

/-- The mark of a base. -/
def markerOf (kind : Char) : List Char := ['0', kind]

/-- Lays an integer out in the base of the layout; `none` if the layout is not one for integers. -/
def basedInteger? (l : Layout) (i : Int) : Option (List Char) :=
  if l.precision.isSome || l.plainZero then none
  else
    let inBase (base : Nat) (kind : Char) : List Char :=
      let digits := Nat.toDigits base i.natAbs
      l.parts ⟨i < 0, if l.alternate then markerOf kind else [],
        if kind == 'X' then digits.map Char.toUpper else digits, []⟩
    match l.kind.getD 'd' with
    | 'd' | 'n' => some (l.parts ⟨i < 0, [], Nat.toDigits 10 i.natAbs, []⟩)
    | 'b' => some (inBase 2 'b')
    | 'o' => some (inBase 8 'o')
    | 'x' => some (inBase 16 'x')
    | 'X' => some (inBase 16 'X')
    | 'c' =>
      if l.sign.isSome || l.alternate then none
      else some (l.parts ⟨false, [], [], [Char.ofNat i.toNat]⟩)
    | _ => none

/-- Whether a layout shows an integer as a decimal fraction. -/
def isFractional (l : Layout) : Bool := l.kind.any "eEfFgG%".toList.contains

/-- Whether a layout shows an integer as the character that it numbers. -/
def isCharacter (l : Layout) : Bool := l.kind == some 'c'

end Layout

/-! ## Decimal fractions -/

namespace Decimal

/-- `num / den * 10 ^ scale`, rounded to a natural. -/
def scaled (num den : Nat) (scale : Int) : Nat :=
  if 0 ≤ scale then Binary64.roundDiv (num * Nat.pow 10 scale.toNat) den
  else Binary64.roundDiv num (den * Nat.pow 10 (-scale).toNat)

/-- The first `count` digits of `num / den`, rounded, and the position of the decimal point. -/
def significant (num den count : Nat) : List Char × Int :=
  if num == 0 then (List.replicate count '0', 1)
  else
    let point := AccessPlan.Decimal.pointOf num den
    let n := scaled num den (count - point)
    if n < Nat.pow 10 count then (AccessPlan.Decimal.digits n, point)
    else (AccessPlan.Decimal.digits (n / 10), point + 1)

/-- The digits of `num / den` with `places` of them after the point. -/
def fixed (num den places : Nat) : List Char × List Char :=
  let digits := AccessPlan.Decimal.digits (scaled num den places)
  let padded := List.replicate (places + 1 - digits.length) '0' ++ digits
  (padded.take (padded.length - places), padded.drop (padded.length - places))

/-- A signed exponent of at least two digits. -/
def exponentText (mark : Char) (power : Int) : List Char :=
  let digits := AccessPlan.Decimal.digits power.natAbs
  mark :: (if power < 0 then '-' else '+') :: (List.replicate (2 - digits.length) '0' ++ digits)

/-- Digits after a point; the point is left out if there are none, unless it is wanted. -/
def pointed (keep : Bool) (digits : List Char) : List Char :=
  if digits.isEmpty && !keep then [] else '.' :: digits

/-- A number with `count` significant digits: with an exponent if the point lies at `-4` or below or
beyond `limit`, and without the zeros at the end unless they are wanted. `least` digits stay after the
point of a number without an exponent. -/
def general (keep : Bool) (mark : Char) (count : Nat) (limit : Int) (least : Nat)
    (digits : List Char) (point : Int) : List Char × List Char :=
  let cut := if keep then digits ++ List.replicate (count - digits.length) '0'
    else AccessPlan.Decimal.dropTrailingZeros digits
  if point ≤ -4 || point > limit then
    (if cut.isEmpty then ['0'] else cut.take 1,
      pointed keep (cut.drop 1) ++ exponentText mark (point - 1))
  else if point ≤ 0 then
    (['0'], pointed keep (List.replicate (-point).toNat '0' ++ cut))
  else
    let whole := point.toNat
    let fraction := cut.drop whole
    let fraction := fraction ++ List.replicate (least - fraction.length) '0'
    (cut.take whole ++ List.replicate (whole - cut.length) '0', pointed keep fraction)

end Decimal

namespace Layout

/-- The digits of a finite number before the point and the rest, as the kind of the layout wants them. -/
def digitsOf (l : Layout) (mantissa : Nat) (exponent : Int) : List Char × List Char :=
  let (num, den) := Binary64.ratio mantissa exponent
  let mark := if l.kind.any "EG".toList.contains then 'E' else 'e'
  match l.kind with
  | some 'f' | some 'F' | some '%' =>
    let (whole, fraction) := Decimal.fixed num den (l.precision.getD 6)
    (whole, Decimal.pointed l.alternate fraction)
  | some 'e' | some 'E' =>
    let (digits, point) := Decimal.significant num den (l.precision.getD 6 + 1)
    (digits.take 1, Decimal.pointed l.alternate (digits.drop 1) ++
      Decimal.exponentText mark (point - 1))
  | some _ =>
    let count := max 1 (l.precision.getD 6)
    let (digits, point) := Decimal.significant num den count
    Decimal.general l.alternate mark count count 0 digits point
  | none => match l.precision with
    | some count =>
      let count := max 1 count
      let (digits, point) := Decimal.significant num den count
      Decimal.general l.alternate mark count (count - 1) 1 digits point
    | none =>
      let d := if mantissa == 0 then ⟨[], 1⟩ else AccessPlan.Decimal.shortest mantissa exponent
      let digits := if d.digits.isEmpty then ['0'] else d.digits
      Decimal.general l.alternate mark digits.length 16 1 digits d.point

/-- Lays a number out; `none` if the layout is not one for such numbers. -/
def binary64? (l : Layout) (x : Binary64) : Option (List Char) :=
  if l.kind.any fun c => !"eEfFgGn%".toList.contains c then none
  else
    let x := if l.kind == some '%' then x.mul (Binary64.ofInt 100) else x
    let upper := l.kind.any "EFG".toList.contains
    let word (s : String) : List Char := if upper then s.toList.map Char.toUpper else s.toList
    let percent := if l.kind == some '%' then ['%'] else []
    match x with
    | .nan _ => some (l.parts ⟨false, [], [], word "nan" ++ percent⟩)
    | .infinite negative => some (l.parts ⟨negative, [], [], word "inf" ++ percent⟩)
    | .finite negative mantissa exponent =>
      let (whole, fraction) := l.digitsOf mantissa exponent
      let isZero := (whole ++ fraction.takeWhile fun c => c != 'e' && c != 'E').all
        fun c => c == '0' || c == '.'
      some (l.parts ⟨negative && !(l.plainZero && isZero), [], whole, fraction ++ percent⟩)

end Layout

end AccessPlan.Label
