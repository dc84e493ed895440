import AccessPlan.Calendar
import AccessPlan.Fault

/-!
# Timestamps

The written form of a day or of a moment: year, month and day with hyphens; then perhaps a time after the
letter T or a gap, with a fraction of any length; then perhaps an offset. `Stamp.parse?` reads the form and
`Stamp.value` looks whether there is such a day or moment.
-/

set_option autoImplicit false

namespace AccessPlan.Yaml

/-- The time of a timestamp. -/
structure Stamp.Time where
  hour : Nat
  minute : Nat
  second : Nat
  fraction : List Char
  /-- The offset in minutes. -/
  offset : Option Int

/-- A timestamp as it is written. -/
structure Stamp where
  year : Nat
  month : Nat
  day : Nat
  /-- Whether month and day have two digits each. -/
  isFull : Bool
  time : Option Stamp.Time

namespace Stamp

/-- The value of decimal digits. -/
def valueOf (ds : List Char) : Nat := ds.foldl (fun n d => n * 10 + (d.toNat - '0'.toNat)) 0

/-- Takes at least `least` and at most `most` digits. -/
def digits? (least most : Nat) (cs : List Char) : Option (List Char × List Char) :=
  let ds := (cs.takeWhile Char.isDigit).take most
  if least ≤ ds.length then some (ds, cs.drop ds.length) else none

/-- Takes a given character. -/
def mark? (c : Char) : List Char → Option (List Char)
  | d :: cs => if d == c then some cs else none
  | [] => none

/-- Skips spaces and tabs. -/
def skipGaps (cs : List Char) : List Char := cs.dropWhile fun c => c == ' ' || c == '\t'

/-- Reads an offset up to the end: nothing, the letter Z, or hours and perhaps minutes with a sign. -/
def offset? (cs : List Char) : Option (Option Int) :=
  if cs.isEmpty then some none
  else match skipGaps cs with
    | ['Z'] => some (some 0)
    | sign :: cs => do
      guard (sign == '+' || sign == '-')
      let (hours, cs) ← digits? 1 2 cs
      let minutes ← match cs with
        | [] => some []
        | _ => do
          let (minutes, rest) ← digits? 2 2 (← mark? ':' cs)
          if rest.isEmpty then some minutes else none
      let n : Int := (valueOf hours * 60 + valueOf minutes : Nat)
      some (some (if sign == '-' then -n else n))
    | [] => none

/-- Reads a time up to the end: nothing, or a time after the letter T or a gap. -/
def time? (cs : List Char) : Option (Option Time) :=
  match cs with
  | [] => some none
  | c :: more => do
    let cs ← if c == 'T' || c == 't' then some more
      else if c == ' ' || c == '\t' then some (skipGaps more)
      else none
    let (hour, cs) ← digits? 1 2 cs
    let (minute, cs) ← digits? 2 2 (← mark? ':' cs)
    let (second, cs) ← digits? 2 2 (← mark? ':' cs)
    let (fraction, cs) := match cs with
      | '.' :: more => more.span Char.isDigit
      | _ => ([], cs)
    let offset ← offset? cs
    some (some ⟨valueOf hour, valueOf minute, valueOf second, fraction, offset⟩)

/-- Reads a timestamp. -/
def parse? (cs : List Char) : Option Stamp := do
  let (year, cs) ← digits? 4 4 cs
  let (month, cs) ← digits? 1 2 (← mark? '-' cs)
  let (day, cs) ← digits? 1 2 (← mark? '-' cs)
  let time ← time? cs
  some ⟨valueOf year, valueOf month, valueOf day, month.length == 2 && day.length == 2, time⟩

/-- A fraction of a second in microseconds; further digits are dropped. -/
def micros (fraction : List Char) : Nat :=
  valueOf (fraction.take 6 ++ List.replicate (6 - fraction.length) '0')

/-- The day or the moment that is written. -/
def value (s : Stamp) : Option Value := do
  let date ← Date.make? s.year s.month s.day
  match s.time with
  | none => some (.date date)
  | some t => (Moment.make? date t.hour t.minute t.second (micros t.fraction) t.offset).map .moment

end Stamp

end AccessPlan.Yaml
