import AccessPlan.Fault

/-!
# Cursors

A cursor is a place in a text with the characters still to come. Its line and column decide indentation,
its index how far back a key may lie. `Reader` is a computation that moves a cursor.

* `Cursor.length_advance`: moving on never adds characters.
-/

set_option autoImplicit false

namespace AccessPlan.Yaml

/-- Why a text is refused as a document. -/
inductive Problem where
  | malformed
  | misuse (m : Misuse)
  deriving DecidableEq, Repr

/-- A place in a text. -/
structure Cursor where
  rest : List Char
  index : Nat
  line : Nat
  column : Nat

/-- Whether a character ends a line. -/
def isBreak (c : Char) : Bool :=
  c == '\n' || c == '\x85' || c == '\u2028' || c == '\u2029'

/-- Whether a character is a space or a tab. -/
def isGap (c : Char) : Bool := c == ' ' || c == '\t'

/-- Whether a word ends here: at a gap, a line end or the end of the text. -/
def endsWord (c : Option Char) : Bool := c.all fun c => isGap c || isBreak c

/-- Whether a word without tabs ends here. -/
def endsName (c : Option Char) : Bool := c.all fun c => c == ' ' || isBreak c

/-- Whether a line ends here. -/
def endsLine (c : Option Char) : Bool := c.all isBreak

/-- Whether a character may stand in the name of a directive, a tag handle or an anchor. -/
def isWordChar (c : Char) : Bool := c.isAlphanum || c == '-' || c == '_'

namespace Cursor

/-- The character `k` places on. -/
def peek (c : Cursor) (k : Nat) : Option Char := c.rest[k]?

/-- One character on. A byte order mark takes no column. -/
def next (c : Cursor) : Cursor :=
  match c.rest with
  | [] => c
  | ch :: rest =>
    if isBreak ch then ⟨rest, c.index + 1, c.line + 1, 0⟩
    else ⟨rest, c.index + 1, c.line, if ch == '\ufeff' then c.column else c.column + 1⟩

/-- Some characters on. -/
def advance (c : Cursor) : Nat → Cursor
  | 0 => c
  | n + 1 => c.next.advance n

theorem length_next (c : Cursor) : c.next.rest.length ≤ c.rest.length := by
  unfold next
  split
  · exact Nat.le_refl _
  · next ch rest h => split <;> simp [h]

theorem length_advance (n : Nat) (c : Cursor) : (c.advance n).rest.length ≤ c.rest.length := by
  induction n generalizing c with
  | zero => exact Nat.le_refl _
  | succ n ih => exact Nat.le_trans (ih c.next) (length_next c)

/-- Whether a line that separates documents starts here: three dashes or dots as a word. -/
def atSeparator (c : Cursor) : Bool :=
  let word := c.rest.take 3
  (word == ['-', '-', '-'] || word == ['.', '.', '.']) && endsWord (c.peek 3)

end Cursor

/-- A computation that moves a cursor. -/
abbrev Reader := StateT Cursor (Except Problem)

namespace Reader

/-- Refuses the text. -/
def fail {α : Type} : Reader α := throw .malformed

/-- Refuses the text unless a condition holds. -/
def demand (b : Bool) : Reader Unit := if b then pure () else fail

/-- The character `k` places on. -/
def peek (k : Nat) : Reader (Option Char) := do pure ((← get).peek k)

/-- Moves on. -/
def skip (n : Nat) : Reader Unit := modify (·.advance n)

/-- Takes the characters that satisfy a condition. -/
def takeWhile (p : Char → Bool) : Reader (List Char) := do
  let taken := (← get).rest.takeWhile p
  skip taken.length
  pure taken

/-- Takes a line end: most stand for a line feed, the Unicode separators for themselves. -/
def lineBreak : Reader (List Char) := do
  match ← peek 0 with
  | some c =>
    if c == '\u2028' || c == '\u2029' then skip 1; pure [c]
    else if isBreak c then skip 1; pure ['\n']
    else pure []
  | none => pure []

/-- Runs a computation as often as it asks for it, at most `fuel` times, and collects what it finds. -/
def collect (fuel : Nat) (step : Reader (Option (List Char))) : Reader (List (List Char)) :=
  match fuel with
  | 0 => pure []
  | fuel + 1 => do
    match ← step with
    | some found => do pure (found :: (← collect fuel step))
    | none => pure []

/-- A bound for loops that take at least one character each time. -/
def fuel : Reader Nat := do pure ((← get).rest.length + 1)

/-- Skips a comment up to the end of the line, if one starts here. -/
def comment : Reader Unit := do
  if (← peek 0) == some '#' then discard <| takeWhile fun c => !isBreak c

/-- Skips spaces and a comment; the line has to end then. -/
def restOfLine : Reader Unit := do
  discard <| takeWhile (· == ' ')
  comment
  demand (endsLine (← peek 0))
  discard lineBreak

end Reader

end AccessPlan.Yaml
