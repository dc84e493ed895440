import AccessPlan.Number.Numeral
import AccessPlan.Text.Base64
import AccessPlan.Yaml.Node

/-!
# Scalars

The values that scalars stand for under each tag. A numeral may hold underscores anywhere; one with colons
is in base sixty. What is no number is one object wherever it is written as such, and else an object of its
own. A tag can be given to a text of any form, so every reader here may refuse.
-/

set_option autoImplicit false

namespace AccessPlan.Yaml.Scalar

/-- A value, or the refusal of a text that is not of its form. -/
def orRefuse {α : Type} (m : Misuse) : Option α → Except Problem α
  | some a => .ok a
  | none => .error (.misuse m)

/-- The words of the truth values. -/
def truthWords : List (String × Bool) :=
  [("yes", true), ("no", false), ("true", true), ("false", false), ("on", true), ("off", false)]

/-- A truth value. -/
def bool (s : String) : Except Problem Value :=
  .bool <$> orRefuse .unknownTruthWord
    ((truthWords.find? fun w => w.1.toList == s.toList.map Char.toLower).map Prod.snd)

/-- A numeral without its underscores and its sign, and whether the sign is a minus. It may not be empty. -/
def unsigned (cs : List Char) : Except Problem (Bool × List Char) :=
  match cs.filter (· != '_') with
  | [] => .error (.misuse .emptyNumeral)
  | c :: cs => .ok (c == '-', if c == '-' || c == '+' then cs else c :: cs)

/-- The parts of a numeral in base sixty, last first. -/
def sixtyParts (cs : List Char) : List (List Char) := (Text.splitChars ':' cs).reverse

/-- The magnitude of an integer. A leading zero means base eight unless a letter says otherwise. -/
def magnitude (cs : List Char) : Except Problem Int :=
  match cs with
  | [] => .error (.misuse .emptyNumeral)
  | ['0'] => .ok 0
  | '0' :: 'b' :: ds => orRefuse .badNumeral (Numeral.integer? 2 ds)
  | '0' :: 'x' :: ds => orRefuse .badNumeral (Numeral.integer? 16 ds)
  | '0' :: ds => orRefuse .badNumeral (Numeral.integer? 8 ('0' :: ds))
  | cs =>
    if cs.contains ':' then do
      let parts ← orRefuse .badNumeral ((sixtyParts cs).mapM (Numeral.integer? 10))
      pure (parts.foldr (fun part n => n * 60 + part) 0)
    else orRefuse .badNumeral (Numeral.integer? 10 cs)

/-- An integer. -/
def int (s : String) : Except Problem Value := do
  let (negative, cs) ← unsigned s.toList
  let n ← magnitude cs
  pure (.int (if negative then -n else n))

/-- The sum of the parts of a number in base sixty, last first, at a base. -/
def sixtySum (sum : Binary64) (base : Int) : List Binary64 → Binary64
  | [] => sum
  | part :: parts => sixtySum (sum.add (part.mul (Binary64.ofInt base))) (base * 60) parts

/-- A number of the double-precision format, in the scalar of a number. -/
def float (number : Nat) (s : String) : Except Problem Value := do
  let (negative, cs) ← unsigned (s.toList.map Char.toLower)
  let x ← if cs == ".inf".toList then pure (Binary64.infinite false)
    else if cs == ".nan".toList then pure (.nan 0)
    else if cs.contains ':' then do
      let parts ← orRefuse .badNumeral ((sixtyParts cs).mapM Numeral.binary64?)
      pure ((sixtySum (Binary64.zero false) 1 parts).fresh number)
    else do pure ((← orRefuse .badNumeral (Numeral.binary64? cs)).fresh number)
  pure (.float (if negative then x.negate else x))

/-- Bytes in base sixty-four. -/
def binary (s : String) : Except Problem Value :=
  match Text.Base64.decode? s.toList with
  | some bytes => .ok (.bytes bytes)
  | none => .error .malformed

/-- A day or a moment. One line feed at the end is not looked at. -/
def timestamp (s : String) : Except Problem Value := do
  let whole := s.toList
  let cs := if whole.getLast? == some '\n' then whole.dropLast else whole
  let stamp ← orRefuse .noPart (Stamp.parse? cs)
  orRefuse .noSuchMoment stamp.value

/-- The value of a text under the tag of a scalar; other tags are refused. -/
def value (number : Nat) (tag : Tag) (s : String) : Except Problem Value :=
  match tag with
  | .null => .ok .null
  | .bool => bool s
  | .int => int s
  | .float => float number s
  | .binary => binary s
  | .timestamp => timestamp s
  | .text => .ok (.text s)
  | _ => .error .malformed

end AccessPlan.Yaml.Scalar
