import AccessPlan.Number.Numeral
import AccessPlan.Number.Shortest
import AccessPlan.Text.Quoted
import AccessPlan.Value

/-!
# The spelling of values

`Value.spell` is the text of a value as it stands in a label, a name or a message: a text stands for
itself, anything else for its `literal`. Inside lists, tuples, sets and mappings every value is shown as
a literal, and a loop as three dots in the brackets of its kind. An integer of more than
`Numeral.maxDigits` digits has no spelling: `Value.spelling?` is `none` for a value that holds one.
-/

set_option autoImplicit false

namespace AccessPlan

/-- The texts with `sep` between them. -/
def joinTexts (sep : String) : List String → String
  | [] => ""
  | [s] => s
  | s :: rest => s ++ sep ++ joinTexts sep rest

namespace Date

/-- A day as a literal. -/
def literal (d : Date) : String := s!"datetime.date({d.year}, {d.month}, {d.day})"

end Date

namespace Moment

/-- An offset as a literal: whole days down and seconds up. -/
def offsetLiteral (offset : Int) : String :=
  if offset == 0 then "datetime.timezone.utc"
  else
    let days := if offset < 0 then "days=-1, " else ""
    let seconds := (offset * 60) % 86400
    s!"datetime.timezone(datetime.timedelta({days}seconds={seconds}))"

/-- A moment as a literal: a zero fraction is left out, and then a zero second as well. -/
def literal (m : Moment) : String :=
  let fields := [m.date.year, m.date.month, m.date.day, m.hour, m.minute]
  let fields := if m.micro != 0 then fields ++ [m.second, m.micro]
    else if m.second != 0 then fields ++ [m.second] else fields
  let offset := (m.offset.map fun o => s!", tzinfo={offsetLiteral o}").getD ""
  let shown := joinTexts ", " (fields.map Nat.repr)
  s!"datetime.datetime({shown}{offset})"

end Moment

namespace Value

mutual

/-- A value as it stands inside a list or a mapping. -/
def literal : Value → String
  | .null => "None"
  | .bool b => if b then "True" else "False"
  | .int i => toString i
  | .float x => x.text
  | .text s => Text.quoted s
  | .bytes bs => Text.quotedBytes bs
  | .date d => d.literal
  | .moment m => m.literal
  | .list items => "[" ++ joinTexts ", " (literals items) ++ "]"
  | .tuple items => match items with
    | [] => "()"
    | [item] => "(" ++ literal item ++ ",)"
    | item :: more => "(" ++ literal item ++ ", " ++ joinTexts ", " (literals more) ++ ")"
  | .set items => if items.isEmpty then "set()" else "\x7b" ++ joinTexts ", " (literals items) ++ "\x7d"
  | .map entries => "\x7b" ++ joinTexts ", " (entryLiterals entries) ++ "\x7d"
  | .loop .list => "[...]"
  | .loop .map => "\x7b...\x7d"
termination_by structural v => v

/-- The literals of a list of values. -/
def literals : List Value → List String
  | [] => []
  | v :: vs => literal v :: literals vs
termination_by structural vs => vs

/-- The literals of a list of entries: key, colon and value. -/
def entryLiterals : List (Value × Value) → List String
  | [] => []
  | (k, v) :: rest => (literal k ++ ": " ++ literal v) :: entryLiterals rest
termination_by structural es => es

end

/-- The text of a value: a text itself, a day or a moment in its usual form, else the literal. -/
def spell : Value → String
  | .text s => s
  | .date d => d.text
  | .moment m => m.text
  | v => v.literal

mutual

/-- Whether a value is or holds an integer that is too long to be written in base ten. -/
def holdsLongInteger : Value → Bool
  | .int i => Nat.pow 10 Numeral.maxDigits ≤ i.natAbs
  | .list items | .tuple items | .set items => anyHoldsLongInteger items
  | .map entries => anyEntryHoldsLongInteger entries
  | _ => false
termination_by structural v => v

/-- Whether one of the values holds such an integer. -/
def anyHoldsLongInteger : List Value → Bool
  | [] => false
  | v :: vs => holdsLongInteger v || anyHoldsLongInteger vs
termination_by structural vs => vs

/-- Whether one of the entries holds such an integer. -/
def anyEntryHoldsLongInteger : List (Value × Value) → Bool
  | [] => false
  | (k, v) :: rest => holdsLongInteger k || holdsLongInteger v || anyEntryHoldsLongInteger rest
termination_by structural es => es

end

/-- The text of a value, if its integers can be written. -/
def spelling? (v : Value) : Option String := if v.holdsLongInteger then none else some v.spell

/-- The literal of a value, if its integers can be written. -/
def literal? (v : Value) : Option String := if v.holdsLongInteger then none else some v.literal

@[simp] theorem spelling?_text (s : String) : spelling? (.text s) = some s := rfl

end Value

end AccessPlan
