import AccessPlan.Text.Printable

/-!
# Quoted text

The quoted form of a text, as it appears inside lists and mappings and in error locations. Single
quotes stand around it, or double quotes if it holds a single quote and no double quote; the quote and
the backslash are escaped, and so is what is not printable. `quotedBytes` is the form of a byte string, and
`asciiOnly` escapes whatever is left outside ASCII.
-/

set_option autoImplicit false

namespace AccessPlan.Text

/-- A digit of base sixteen, in lower case. -/
def hexChar (n : Nat) : Char := (Nat.toDigits 16 (n % 16)).headD '0'

/-- A number in base sixteen with exactly `width` digits. -/
def hexDigits : Nat → Nat → List Char
  | 0, _ => []
  | width + 1, n => hexDigits width (n / 16) ++ [hexChar n]

/-- The numbered escape of a code point: two, four or eight digits. -/
def numberedEscape (n : Nat) : List Char :=
  if n < 0x100 then '\\' :: 'x' :: hexDigits 2 n
  else if n < 0x10000 then '\\' :: 'u' :: hexDigits 4 n
  else '\\' :: 'U' :: hexDigits 8 n

/-- The quote around a text: single, unless only the double one is free. -/
def quoteFor (cs : List Char) : Char :=
  if cs.contains '\x27' && !cs.contains '\x22' then '\x22' else '\x27'

/-- One character of a quoted text; `plain` says which characters may be shown. -/
def quoteChar (plain : Char → Bool) (quote c : Char) : List Char :=
  if c == quote || c == '\\' then ['\\', c]
  else if c == '\t' then ['\\', 't']
  else if c == '\n' then ['\\', 'n']
  else if c == '\r' then ['\\', 'r']
  else if plain c then [c]
  else numberedEscape c.toNat

/-- A text in quotes; `plain` says which characters may be shown. -/
def quotedWith (plain : Char → Bool) (cs : List Char) : List Char :=
  let quote := quoteFor cs
  quote :: (cs.flatMap (quoteChar plain quote) ++ [quote])

/-- The quoted form of a text. -/
def quoted (s : String) : String := String.ofList (quotedWith isPrintable s.toList)

/-- The characters that the ASCII form shows. -/
def isPrintableAscii (c : Char) : Bool := 0x20 ≤ c.toNat && c.toNat < 0x7f

/-- The quoted form of a byte string: a `b` and the bytes as ASCII. -/
def quotedBytes (bytes : List UInt8) : String :=
  String.ofList ('b' :: quotedWith isPrintableAscii (bytes.map fun b => Char.ofNat b.toNat))

/-- A text with everything outside ASCII replaced by its numbered escape. -/
def asciiOnly (s : String) : String :=
  String.ofList (s.toList.flatMap fun c => if c.toNat < 0x80 then [c] else numberedEscape c.toNat)

end AccessPlan.Text
