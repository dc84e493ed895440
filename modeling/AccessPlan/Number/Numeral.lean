import AccessPlan.Number.Binary64
import AccessPlan.Text.Blank
import AccessPlan.Text.Digit

/-!
# Numerals

Reading a number from text. Around a numeral blanks may stand; a sign may stand before it; between
two digits one underscore may stand.

* `integer?` reads an integer in base 2, 8, 10 or 16; the bases but ten allow their marker `0b`,
  `0o` or `0x`. A numeral in base ten has at most `maxDigits` digits.
* `binary64?` reads a decimal with fraction and exponent, or the words for infinity and for no number.
-/

set_option autoImplicit false

namespace AccessPlan.Numeral

open Text

/-- The most digits that a numeral of base ten may have. -/
def maxDigits : Nat := 4300

/-- Decimal digits of other scripts become ASCII; the rest stays. -/
def plainDigits (cs : List Char) : List Char :=
  cs.map fun c => match decimalDigit? c with
    | some d => Char.ofNat ('0'.toNat + d)
    | none => c

/-- A sign in front, if there is one, and what follows it. -/
def splitSign : List Char → Bool × List Char
  | '-' :: cs => (true, cs)
  | '+' :: cs => (false, cs)
  | cs => (false, cs)

/-- The digits of a run in which single underscores stand between digits. `after` says whether the
previous character was a digit. -/
def separated? : Bool → List Char → Option (List Char)
  | after, [] => if after then some [] else none
  | after, '_' :: cs => if after then separated? false cs else none
  | _, c :: cs => (separated? true cs).map (c :: ·)

/-- The value of digits of a base, if all of them are. -/
def valueIn? (base : Nat) (cs : List Char) : Option Nat :=
  cs.foldlM (fun n c => match hexDigit? c with
    | some d => if d < base then some (n * base + d) else none
    | none => none) 0

/-- The letter that marks a base. -/
def markerOf? (base : Nat) : Option Char :=
  if base == 2 then some 'b' else if base == 8 then some 'o' else if base == 16 then some 'x' else none

/-- The numeral without the marker of its base; an underscore may follow the marker. -/
def dropMarker (base : Nat) (cs : List Char) : List Char :=
  match cs, markerOf? base with
  | '0' :: m :: rest, some marker =>
    if m.toLower == marker then
      match rest with
      | '_' :: more => more
      | _ => rest
    else cs
  | _, _ => cs

/-- An integer in the given base. -/
def integer? (base : Nat) (text : List Char) : Option Int := do
  let (negative, body) := splitSign (strip isNumeralBlank (plainDigits text))
  let digits ← separated? false (dropMarker base body)
  if base == 10 && digits.length > maxDigits then none
  let n ← valueIn? base digits
  pure (if negative then -(n : Int) else n)

/-- An integer of base ten from bytes, which must be ASCII. -/
def integerOfBytes? (bytes : List UInt8) : Option Int :=
  if bytes.all (· < 128) then integer? 10 (bytes.map fun b => Char.ofNat b.toNat) else none

/-- A run of digits with its underscores, and the rest. -/
def splitDigits (cs : List Char) : List Char × List Char :=
  cs.span fun c => c.isDigit || c == '_'

/-- A possibly empty run of digits. -/
def optionalDigits? (cs : List Char) : Option (List Char) :=
  if cs.isEmpty then some [] else separated? false cs

/-- The exponent part: nothing, or `e` with a signed numeral. -/
def exponent? : List Char → Option Int
  | [] => some 0
  | c :: cs =>
    if c == 'e' || c == 'E' then do
      let (negative, body) := splitSign cs
      let digits ← separated? false body
      let n ← valueIn? 10 digits
      pure (if negative then -(n : Int) else n)
    else none

/-- The words for the numbers that have no decimal. -/
def word? (negative : Bool) (cs : List Char) : Option Binary64 :=
  let lower := cs.map Char.toLower
  if lower == "inf".toList || lower == "infinity".toList then some (.infinite negative)
  else if lower == "nan".toList then some (.nan 0)
  else none

/-- A decimal with an optional fraction and exponent. -/
def decimal? (negative : Bool) (cs : List Char) : Option Binary64 := do
  let (whole, rest) := splitDigits cs
  let (fraction, rest) := match rest with
    | '.' :: more => splitDigits more
    | _ => ([], rest)
  if whole.isEmpty && fraction.isEmpty then none
  let whole ← optionalDigits? whole
  let fraction ← optionalDigits? fraction
  let exponent ← exponent? rest
  let digits := (whole ++ fraction).dropWhile (· == '0')
  let n ← valueIn? 10 digits
  pure (.ofDecimal negative n digits.length (exponent - fraction.length))

/-- A number of the double-precision format from text. -/
def binary64? (text : List Char) : Option Binary64 :=
  let (negative, body) := splitSign (strip isNumeralBlank (plainDigits text))
  (word? negative body).orElse fun _ => decimal? negative body

end AccessPlan.Numeral
