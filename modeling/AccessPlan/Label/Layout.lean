import AccessPlan.Text.Digit

/-!
# Layouts

A layout is the format of a field, read: how a text or a number is filled up, signed, grouped and cut.
`Layout.parse?` reads one; `Layout.text?` lays a text out.
-/

set_option autoImplicit false

namespace AccessPlan.Label

/-- How a value is laid out. -/
structure Layout where
  fill : Option Char
  align : Option Char
  sign : Option Char
  plainZero : Bool
  alternate : Bool
  /-- A zero before the width. -/
  zeroFill : Bool
  width : Option Nat
  grouping : Option Char
  precision : Option Nat
  kind : Option Char
  deriving DecidableEq, Repr

namespace Layout

/-- The largest width, precision or index. -/
def maxNumber : Nat := Nat.pow 2 63 - 1

/-- Reads the decimal digits at the start of a text. The outcome is `none` if their number is too large;
otherwise the number, if there are digits, and the rest. -/
def number? : Option Nat → List Char → Option (Option Nat × List Char)
  | n, [] => some (n, [])
  | n, c :: cs => match Text.decimalDigit? c with
    | none => some (n, c :: cs)
    | some d =>
      let n := n.getD 0 * 10 + d
      if n ≤ maxNumber then number? (some n) cs else none

/-- Whether a character says where a value stands in its width. -/
def isAlign (c : Char) : Bool := c == '<' || c == '>' || c == '=' || c == '^'

/-- Takes a character off the front if it is one of those wanted. -/
def takeIf (wanted : Char → Bool) : List Char → Option Char × List Char
  | c :: cs => if wanted c then (some c, cs) else (none, c :: cs)
  | [] => (none, [])

/-- Takes fill and alignment off the front. -/
def takeAlign : List Char → Option Char × Option Char × List Char
  | c :: d :: cs =>
    if isAlign d then (some c, some d, cs)
    else if isAlign c then (none, some c, d :: cs)
    else (none, none, c :: d :: cs)
  | [c] => if isAlign c then (none, some c, []) else (none, none, [c])
  | [] => (none, none, [])

/-- Takes the precision off the front; a point without digits is a mistake. -/
def precision? : List Char → Option (Option Nat × List Char)
  | '.' :: cs => match number? none cs with
    | some (some n, rest) => some (some n, rest)
    | _ => none
  | cs => some (none, cs)

/-- Takes the grouping mark off the front; both marks together are a mistake. -/
def grouping? (cs : List Char) : Option (Option Char × List Char) :=
  let (comma, cs) := takeIf (· == ',') cs
  let (underscore, cs) := takeIf (· == '_') cs
  if (comma.isSome && underscore.isSome) || (underscore.isSome && cs.head? == some ',') then none
  else some (comma.or underscore, cs)

/-- Reads a layout. Digits are grouped in decimal numbers only, or in fours with an underscore in the
other bases. -/
def parse? (cs : List Char) : Option Layout := do
  let (fill, align, cs) := takeAlign cs
  let (sign, cs) := takeIf (fun c => c == ' ' || c == '+' || c == '-') cs
  let (plainZero, cs) := takeIf (· == 'z') cs
  let (alternate, cs) := takeIf (· == '#') cs
  let (zero, cs) := takeIf (fun c => fill.isNone && c == '0') cs
  let (width, cs) ← number? none cs
  let (grouping, cs) ← grouping? cs
  let (precision, cs) ← precision? cs
  guard (cs.length ≤ 1)
  let kind := cs.head?
  let decimal := kind.all "deEfFgG%".toList.contains
  let based := kind.any "boxX".toList.contains && grouping == some '_'
  guard (grouping.isNone || decimal || based)
  some ⟨fill, align, sign, plainZero.isSome, alternate.isSome, zero.isSome, width, grouping,
    precision, kind⟩

/-- The character that fills up the width. -/
def filler (l : Layout) : Char := l.fill.getD (if l.zeroFill then '0' else ' ')

/-- How many fillers go before and after a value of a length. -/
def margins (l : Layout) (align : Char) (length : Nat) : Nat × Nat :=
  let gap := l.width.getD 0 - length
  if align == '>' then (gap, 0)
  else if align == '^' then (gap / 2, gap - gap / 2)
  else (0, gap)

/-- Lays a text out: cut to the precision, then filled up to the width, from the left unless the layout
says otherwise. There is none if the layout is one for numbers. -/
def text? (l : Layout) (cs : List Char) : Option (List Char) :=
  if l.kind.any (· != 's') || l.grouping.isSome || l.sign.isSome || l.plainZero || l.alternate
      || l.align == some '=' then none
  else
    let cs := match l.precision with
      | some n => cs.take n
      | none => cs
    let (before, after) := l.margins (l.align.getD '<') cs.length
    some (List.replicate before l.filler ++ cs ++ List.replicate after l.filler)

end Layout

end AccessPlan.Label
