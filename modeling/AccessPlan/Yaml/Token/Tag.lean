import AccessPlan.Text.Digit
import AccessPlan.Yaml.Cursor
import AccessPlan.Yaml.Token

/-!
# Directives, tags and anchors

How the tokens are read that stand before a node or a document: directives, tags with their percent
escapes, anchors and aliases.
-/

set_option autoImplicit false

namespace AccessPlan.Yaml.Reader

/-- Takes a name that is not empty. -/
def word : Reader String := do
  let cs ← takeWhile isWordChar
  demand !cs.isEmpty
  pure (String.ofList cs)

/-- The name of an anchor or an alias, after its mark. -/
def anchorName : Reader String := do
  skip 1
  let name ← word
  let next ← peek 0
  demand (endsWord next || next.any "?:,]\x7d%@\x60".toList.contains)
  pure name

/-! ## Tags -/

/-- Whether a character may stand in a tag. -/
def isTagChar (c : Char) : Bool :=
  c.isAlphanum || "-;/?:@&=+$,_.!~*\x27()[]".toList.contains c

/-- Takes percent escapes that follow one another: their bytes. -/
def percentBytes : Nat → Reader (List UInt8)
  | 0 => pure []
  | fuel + 1 => do
    if (← peek 0) == some '%' then
      match (← peek 1).bind Text.hexDigit?, (← peek 2).bind Text.hexDigit? with
      | some high, some low => do
        skip 3
        pure (UInt8.ofNat (high * 16 + low) :: (← percentBytes fuel))
      | _, _ => fail
    else pure []

/-- Takes one piece of a tag: plain characters, or escapes that are UTF-8 together. -/
def tagPiece : Reader (Option (List Char)) := do
  let run ← takeWhile isTagChar
  if !run.isEmpty then pure (some run)
  else if (← peek 0) == some '%' then
    let bytes ← percentBytes (← fuel)
    match String.fromUTF8? ⟨bytes.toArray⟩ with
    | some s => pure (some s.toList)
    | none => fail
  else pure none

/-- Takes the text of a tag, which may not be empty. -/
def tagText : Reader String := do
  let pieces ← collect (← fuel) tagPiece
  demand !pieces.isEmpty
  pure (String.ofList pieces.flatten)

/-- Takes a tag handle: one exclamation mark, or a name between two. -/
def tagHandle : Reader String := do
  demand ((← peek 0) == some '!')
  skip 1
  if (← peek 0) == some ' ' then pure "!"
  else
    let name ← takeWhile isWordChar
    demand ((← peek 0) == some '!')
    skip 1
    pure (String.ofList ('!' :: name ++ ['!']))

/-- A tag: between angle brackets, bare, or a handle with a suffix. -/
def tag : Reader Token := do
  let next ← peek 1
  let token ← if next == some '<' then do
      skip 2
      let suffix ← tagText
      demand ((← peek 0) == some '>')
      skip 1
      pure (Token.tag none suffix)
    else if endsWord next then do
      skip 1
      pure (Token.tag none "!")
    else do
      let word := ((← get).rest.drop 1).takeWhile fun c => !endsName (some c)
      let handle ← if word.contains '!' then tagHandle else do skip 1; pure "!"
      pure (Token.tag (some handle) (← tagText))
  demand (endsName (← peek 0))
  pure token

/-! ## Directives -/

/-- Takes a number. -/
def number : Reader Nat := do
  let ds ← takeWhile Char.isDigit
  demand !ds.isEmpty
  pure (valueOf ds)
where
  /-- The value of decimal digits. -/
  valueOf (ds : List Char) : Nat := ds.foldl (fun n d => n * 10 + (d.toNat - '0'.toNat)) 0

/-- A directive. Those with unknown names mean nothing. -/
def directive : Reader Token := do
  skip 1
  let name ← word
  demand (endsName (← peek 0))
  let d ← if name == "YAML" then do
      discard <| takeWhile (· == ' ')
      let major ← number
      demand ((← peek 0) == some '.')
      skip 1
      discard number
      demand (endsName (← peek 0))
      pure (Directive.version major)
    else if name == "TAG" then do
      discard <| takeWhile (· == ' ')
      let handle ← tagHandle
      demand ((← peek 0) == some ' ')
      discard <| takeWhile (· == ' ')
      let start ← tagText
      demand (endsName (← peek 0))
      pure (Directive.tag handle start)
    else do
      discard <| takeWhile fun c => !isBreak c
      pure Directive.other
  restOfLine
  pure (.directive d)

end AccessPlan.Yaml.Reader
