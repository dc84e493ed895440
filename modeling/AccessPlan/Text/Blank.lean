/-!
# Blank characters

`isBlank` is the Unicode class of white space that a domain catalogue drops; `isNumeralBlank` is
the smaller class that may stand around a numeral: of ASCII it holds the space and the controls
from tab to carriage return only.
-/

set_option autoImplicit false

namespace AccessPlan.Text

/-- White space outside ASCII. -/
def isWideBlank (c : Char) : Bool :=
  let n := c.toNat
  n == 0x85 || n == 0xa0 || n == 0x1680 || (0x2000 ≤ n && n ≤ 0x200a) || n == 0x2028 ||
    n == 0x2029 || n == 0x202f || n == 0x205f || n == 0x3000

/-- The space and the controls from tab to carriage return. -/
def isPlainBlank (c : Char) : Bool :=
  let n := c.toNat
  n == 0x20 || (0x09 ≤ n && n ≤ 0x0d)

/-- White space that may stand around a numeral. -/
def isNumeralBlank (c : Char) : Bool := isPlainBlank c || isWideBlank c

/-- White space: as around a numeral, and the four ASCII separators. -/
def isBlank (c : Char) : Bool :=
  isNumeralBlank c || (0x1c ≤ c.toNat && c.toNat ≤ 0x1f)

/-- A comma is not blank, so dropping blanks keeps the separators of a catalogue. -/
@[simp] theorem isBlank_comma : isBlank ',' = false := by decide

/-- The text without blanks at either end, where `blank` says what a blank is. -/
def strip (blank : Char → Bool) (cs : List Char) : List Char :=
  ((cs.dropWhile blank).reverse.dropWhile blank).reverse

end AccessPlan.Text
