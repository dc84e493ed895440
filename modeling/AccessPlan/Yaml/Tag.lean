import AccessPlan.Text.Digit
import AccessPlan.Text.Split
import AccessPlan.Yaml.Stamp

/-!
# Tags of nodes

The tag of a node says what it stands for. A plain scalar without a tag gets one from its form:
`Tag.ofPlain`.
-/

set_option autoImplicit false

namespace AccessPlan.Yaml

/-- What a node stands for. -/
inductive Tag where
  | null
  | bool
  | int
  | float
  | binary
  | timestamp
  | text
  | sequence
  | mapping
  | set
  | orderedMap
  | pairs
  /-- The key that merges other mappings in. -/
  | merge
  /-- The key of the value that stands for its whole mapping. -/
  | value
  | unknown
  deriving DecidableEq, Repr

namespace Tag

/-- The common start of the names of tags. -/
def family : String := "tag:yaml.org,2002:"

/-- The tags that have names. -/
def named : List (String × Tag) := [("null", null), ("bool", bool), ("int", int), ("float", float),
  ("binary", binary), ("timestamp", timestamp), ("str", text), ("seq", sequence), ("map", mapping),
  ("set", set), ("omap", orderedMap), ("pairs", pairs), ("merge", merge), ("value", value)]

/-- The tag of a name. -/
def ofName (name : String) : Tag :=
  ((named.find? fun e => family ++ e.1 == name).map Prod.snd).getD unknown

/-! ## The form of plain scalars -/

/-- A word in small letters, capitals, or small letters with a capital in front. -/
def cases (word : String) : List (List Char) :=
  let cs := word.toList
  [cs, cs.map Char.toUpper, (cs.take 1).map Char.toUpper ++ cs.drop 1]

/-- Whether a text is a truth word. -/
def isBool (cs : List Char) : Bool :=
  ["yes", "no", "true", "false", "on", "off"].any fun w => (cases w).contains cs

/-- Whether a text stands for nothing. -/
def isNull (cs : List Char) : Bool :=
  cs.isEmpty || cs == ['~'] || (cases "null").contains cs

/-- A text without the sign in front. -/
def dropSign : List Char → List Char
  | c :: cs => if c == '+' || c == '-' then cs else c :: cs
  | [] => []

/-- Whether a text consists of digits and underscores and starts with a digit. -/
def isDigits (digit : Char → Bool) : List Char → Bool
  | c :: cs => digit c && cs.all fun c => digit c || c == '_'
  | [] => false

/-- Whether a text is a part of a number in base sixty: one digit, or two of which the first is less than
six. -/
def isSixty : List Char → Bool
  | [d] => d.isDigit
  | [c, d] => '0' ≤ c && c ≤ '5' && d.isDigit
  | _ => false

/-- Whether a text is a number in base sixty; `start` says which digit may come first. -/
def isBaseSixty (start : Char → Bool) (cs : List Char) : Bool :=
  match Text.splitChars ':' cs with
  | head :: part :: parts =>
    head.head?.any start && isDigits Char.isDigit head && (part :: parts).all isSixty
  | _ => false

/-- Whether a text is an integer of base two, eight, ten, sixteen or sixty. -/
def isInt (cs : List Char) : Bool :=
  let body := dropSign cs
  let nonempty (digit : Char → Bool) (ds : List Char) : Bool :=
    !ds.isEmpty && ds.all fun c => digit c || c == '_'
  match body with
  | ['0'] => true
  | '0' :: 'b' :: ds => nonempty (fun c => c == '0' || c == '1') ds
  | '0' :: 'x' :: ds => nonempty (fun c => (Text.hexDigit? c).isSome) ds
  | '0' :: ds => nonempty (fun c => '0' ≤ c && c ≤ '7') ds
  | c :: ds =>
    c.isDigit && (ds.all fun c => c.isDigit || c == '_') || isBaseSixty (fun c => c != '0') (c :: ds)
  | [] => false

/-- Whether a text is an exponent with its sign, or nothing. -/
def isExponent : List Char → Bool
  | [] => true
  | e :: sign :: ds =>
    (e == 'e' || e == 'E') && (sign == '+' || sign == '-') && !ds.isEmpty && ds.all Char.isDigit
  | _ => false

/-- Whether a text is a number with a point, in base ten or sixty, or one of the words that follow a
point. -/
def isFloat (cs : List Char) : Bool :=
  let body := dropSign cs
  let whole := body.takeWhile (· != '.')
  match body.dropWhile (· != '.') with
  | [] => false
  | _ :: after =>
    let digits := after.takeWhile fun c => c.isDigit || c == '_'
    let rest := after.drop digits.length
    (isDigits Char.isDigit whole && isExponent rest) ||
      (cs.head? == some '.' && isDigits Char.isDigit digits && isExponent rest) ||
      (isBaseSixty (fun _ => true) whole && rest.isEmpty) ||
      (whole.isEmpty && (cases "inf").contains after) ||
      (cs.head? == some '.' && ["nan", "NaN", "NAN"].any fun w => w.toList == after)

/-- Whether a text is a timestamp: a day has two digits for month and day, a moment may have fewer. -/
def isTimestamp (cs : List Char) : Bool :=
  (Stamp.parse? cs).any fun s => s.time.isSome || s.isFull

/-- The tag of a plain scalar, by its form. One line feed at the end is not looked at. -/
def ofPlain (s : String) : Tag :=
  let whole := s.toList
  let cs := if whole.getLast? == some '\n' then whole.dropLast else whole
  if whole == ['\n'] then text
  else if isBool cs then bool
  else if isFloat cs then float
  else if isInt cs then int
  else if cs == ['<', '<'] then merge
  else if isNull cs then null
  else if isTimestamp cs then timestamp
  else if cs == ['='] then value
  else if cs == ['!'] || cs == ['&'] || cs == ['*'] then unknown
  else text

end Tag

end AccessPlan.Yaml
