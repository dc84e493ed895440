import AccessPlan.Text.Digit
import AccessPlan.Yaml.Cursor
import AccessPlan.Yaml.Token

/-!
# Scalar tokens

How plain, quoted and block scalars are read. Lines of a plain or quoted scalar are folded: a single line
end becomes a space, and of several the first is dropped. A block scalar keeps its line ends, or folds
those between two lines that both start without a gap.
-/

set_option autoImplicit false

namespace AccessPlan.Yaml.Reader

/-- Whether the character here satisfies a condition. -/
def here (p : Char → Bool) : Reader Bool := do pure ((← peek 0).any p)

/-- What stands between two folded lines: the line ends after the first, or a space if there are none. -/
def fold (first : List Char) (more : List (List Char)) : List Char :=
  if first != ['\n'] then first ++ more.flatten
  else if more.isEmpty then [' '] else more.flatten

/-! ## Plain scalars -/

/-- How many characters of a plain scalar follow one another without a gap. -/
def plainRun (flow : Bool) : List Char → Nat
  | [] => 0
  | c :: cs =>
    let stops := isGap c || isBreak c ||
      (c == ':' && (endsWord cs.head? || (flow && cs.head?.any ",[]\x7b\x7d".toList.contains))) ||
      (flow && ",?[]\x7b\x7d".toList.contains c)
    if stops then 0 else plainRun flow cs + 1

/-- Takes further line ends and spaces of a plain scalar. The outcome is `none` at a document separator. -/
def plainBreaks : Nat → Reader (Option (List (List Char)))
  | 0 => pure (some [])
  | fuel + 1 => do
    if (← get).atSeparator then pure none
    else
      discard <| takeWhile (· == ' ')
      if ← here isBreak then
        let b ← lineBreak
        pure ((← plainBreaks fuel).map (b :: ·))
      else pure (some [])

/-- Takes the gap after a run of a plain scalar: the text for it, and whether it holds a line end. A
document separator ends the scalar. -/
def plainGap : Reader (List Char × Bool) := do
  let spaces ← takeWhile (· == ' ')
  if ← here isBreak then
    let first ← lineBreak
    match ← plainBreaks (← fuel) with
    | some more => pure (fold first more, true)
    | none => pure ([], true)
  else pure (spaces, false)

/-- Takes the runs of a plain scalar; `before` is the gap in front. Lines of the scalar have to start at
`indent` or further right. Answers the text and whether the scalar ended after a line end. -/
def plainRuns (flow : Bool) (indent : Int) : Nat → List Char → Bool → Reader (List Char × Bool)
  | 0, _, broken => pure ([], broken)
  | fuel + 1, before, broken => do
    if ← here (· == '#') then pure ([], broken)
    else
      let run := (← get).rest.take (plainRun flow (← get).rest)
      if run.isEmpty then pure ([], broken)
      else
        skip run.length
        let (gap, broken) ← plainGap
        let text := before ++ run
        let outside := !flow && ((← get).column : Int) < indent
        if gap.isEmpty || outside || (← here (· == '#')) then pure (text, broken)
        else
          let (more, broken) ← plainRuns flow indent fuel gap broken
          pure (text ++ more, broken)

/-- A plain scalar, and whether it ended after a line end. -/
def plainScalar (flow : Bool) (indent : Int) : Reader (String × Bool) := do
  let (text, broken) ← plainRuns flow indent (← fuel) [] false
  pure (String.ofList text, broken)

/-! ## Quoted scalars -/

/-- What a letter after a backslash stands for. -/
def escape? : Char → Option Char
  | '0' => some '\x00'
  | 'a' => some '\x07'
  | 'b' => some '\x08'
  | 't' | '\t' => some '\t'
  | 'n' => some '\n'
  | 'v' => some '\x0b'
  | 'f' => some '\x0c'
  | 'r' => some '\x0d'
  | 'e' => some '\x1b'
  | ' ' => some ' '
  | '\x22' => some '\x22'
  | '\\' => some '\\'
  | '/' => some '/'
  | 'N' => some '\x85'
  | '_' => some '\xa0'
  | 'L' => some '\u2028'
  | 'P' => some '\u2029'
  | _ => none

/-- How many hexadecimal digits follow a letter after a backslash. -/
def escapeDigits? : Char → Option Nat
  | 'x' => some 2
  | 'u' => some 4
  | 'U' => some 8
  | _ => none

/-- The value of hexadecimal digits. -/
def hexValue (ds : List Nat) : Nat := ds.foldl (fun n d => n * 16 + d) 0

/-- Takes a number of hexadecimal digits. -/
def hexDigits (count : Nat) : Reader Nat := do
  match ((← get).rest.take count).mapM Text.hexDigit? with
  | some ds => do
    demand (ds.length == count)
    skip count
    pure (hexValue ds)
  | none => fail

/-- Takes the line ends of a quoted scalar, with the gaps around them. -/
def quotedBreaks : Nat → Reader (List (List Char))
  | 0 => pure []
  | fuel + 1 => do
    demand !(← get).atSeparator
    discard <| takeWhile isGap
    if ← here isBreak then
      let b ← lineBreak
      pure (b :: (← quotedBreaks fuel))
    else pure []

/-- Takes an escape after its backslash. -/
def escaped : Reader (List Char) := do
  match ← peek 0 with
  | none => fail
  | some c =>
    match escape? c, escapeDigits? c with
    | some r, _ => skip 1; pure [r]
    | none, some count =>
      skip 1
      let code ← hexDigits count
      if code > 0x10ffff then throw (.misuse .badNumeral)
      if 0xd800 ≤ code ∧ code < 0xe000 then throw (.misuse .loneSurrogate)
      pure [Char.ofNat code]
    | none, none =>
      demand (isBreak c)
      discard lineBreak
      pure (← quotedBreaks (← fuel)).flatten

/-- Takes one piece of a quoted scalar that is no gap, if there is one. -/
def quotedPiece (double : Bool) : Reader (Option (List Char)) := do
  let run ← takeWhile fun c => !("\x27\x22\\".toList.contains c || isGap c || isBreak c)
  if !run.isEmpty then pure (some run)
  else match ← peek 0 with
    | some '\x27' =>
      if double then skip 1; pure (some ['\x27'])
      else if (← peek 1) == some '\x27' then skip 2; pure (some ['\x27'])
      else pure none
    | some '\x22' => if double then pure none else skip 1; pure (some ['\x22'])
    | some '\\' =>
      skip 1
      if double then pure (some (← escaped)) else pure (some ['\\'])
    | _ => pure none

/-- Takes a gap of a quoted scalar; the text may not end in it. -/
def quotedGap : Reader (List Char) := do
  let spaces ← takeWhile isGap
  match ← peek 0 with
  | none => fail
  | some c =>
    if isBreak c then
      let first ← lineBreak
      pure (fold first (← quotedBreaks (← fuel)))
    else pure spaces

/-- Takes gaps and pieces up to the closing quote. -/
def quotedRest (double : Bool) : Nat → Reader (List Char)
  | 0 => fail
  | fuel + 1 => do
    let pieces ← collect (← Reader.fuel) (quotedPiece double)
    if (← peek 0) == some (if double then '\x22' else '\x27') then
      skip 1
      pure pieces.flatten
    else
      let gap ← quotedGap
      pure (pieces.flatten ++ gap ++ (← quotedRest double fuel))

/-- A scalar in single or double quotes. -/
def quotedScalar (double : Bool) : Reader String := do
  skip 1
  pure (String.ofList (← quotedRest double (← fuel)))

/-! ## Block scalars -/

/-- What becomes of the line ends after a block scalar. -/
inductive Chomp where
  | strip
  | clip
  | keep
  deriving DecidableEq, Repr

/-- The chomping of an indicator. -/
def chomp? : Char → Option Chomp
  | '+' => some .keep
  | '-' => some .strip
  | _ => none

/-- Takes the chomping indicator of a block scalar, if there is one. -/
def chomping : Reader (Option Chomp) := do
  let chomp := (← peek 0).bind chomp?
  if chomp.isSome then skip 1
  pure chomp

/-- Takes the indentation indicator of a block scalar, if there is one. It may not be zero. -/
def increment : Reader (Option Nat) := do
  match (← peek 0).filter Char.isDigit with
  | some c => do
    demand (c != '0')
    skip 1
    pure (some (c.toNat - '0'.toNat))
  | none => pure none

/-- Takes the indicators of a block scalar, which come in either order. -/
def blockIndicators : Reader (Chomp × Option Nat) := do
  match ← chomping with
  | some chomp => do
    let n ← increment
    demand (endsName (← peek 0))
    pure (chomp, n)
  | none => do
    let n ← increment
    let chomp ← if n.isSome then chomping else pure none
    demand (endsName (← peek 0))
    pure (chomp.getD .clip, n)

/-- Takes the blank lines before a block scalar whose indentation is still open: the line ends, and the
largest column that the spaces reach. -/
def blockIndentation : Nat → Nat → Reader (List (List Char) × Nat)
  | 0, widest => pure ([], widest)
  | fuel + 1, widest => do
    if ← here (· == ' ') then
      skip 1
      blockIndentation fuel (max widest (← get).column)
    else if ← here isBreak then
      let b ← lineBreak
      let (more, widest) ← blockIndentation fuel widest
      pure (b :: more, widest)
    else pure ([], widest)

/-- Takes spaces up to a column. -/
def spacesTo (indent : Nat) : Reader Unit := do
  let c ← get
  skip ((c.rest.takeWhile (· == ' ')).length.min (indent - c.column))

/-- Takes the blank lines between the lines of a block scalar. -/
def blockBreaks (indent : Nat) : Nat → Reader (List (List Char))
  | 0 => pure []
  | fuel + 1 => do
    spacesTo indent
    if ← here isBreak then
      let b ← lineBreak
      pure (b :: (← blockBreaks indent fuel))
    else pure []

/-- Takes the lines of a block scalar after the blank lines `breaks`; `joint` is what goes before those.
Answers the text up to the last line, its line end and the blank lines that follow. -/
def blockLines (folded : Bool) (indent : Nat) :
    Nat → List Char → List (List Char) → Reader (List Char × List Char × List (List Char))
  | 0, last, breaks => pure ([], last, breaks)
  | fuel + 1, last, breaks => do
    let c ← get
    if c.column != indent || c.rest.isEmpty then pure ([], last, breaks)
    else
      let solid := !(← here isGap)
      let line ← takeWhile fun c => !isBreak c
      let ending ← lineBreak
      let more ← blockBreaks indent (← Reader.fuel)
      let c ← get
      if c.column == indent && !c.rest.isEmpty then
        let joint := if folded && ending == ['\n'] && solid && !(← here isGap) then
            if more.isEmpty then [' '] else []
          else ending
        let (text, last, after) ← blockLines folded indent fuel ending more
        pure (breaks.flatten ++ line ++ joint ++ text, last, after)
      else pure (breaks.flatten ++ line, ending, more)

/-- A block scalar inside a block at column `indent`. -/
def blockScalar (folded : Bool) (indent : Int) : Reader String := do
  skip 1
  let (chomp, given) ← blockIndicators
  restOfLine
  let least := (max (indent + 1) 1).toNat
  let (column, breaks) ← match given with
    | some n => do
      let column := least + n - 1
      pure (column, ← blockBreaks column (← fuel))
    | none => do
      let (breaks, widest) ← blockIndentation (← fuel) 0
      pure (max least widest, breaks)
  let (text, last, after) ← blockLines folded column (← fuel) [] breaks
  let tail := match chomp with
    | .strip => []
    | .clip => last
    | .keep => last ++ after.flatten
  pure (String.ofList (text ++ tail))

end AccessPlan.Yaml.Reader
