import AccessPlan.Yaml.Token.Scalar
import AccessPlan.Yaml.Token.Tag

/-!
# Cutting a text into tokens

The lexer follows the columns: a deeper column where a node may start opens a block collection, a column
further left closes those that lie deeper. A node that may turn out to be a key is remembered with its
place until its colon is found, on the same line and not too far on.

* `Token.scan`: the tokens of a text up to its end or its first mistake, and that mistake.
-/

set_option autoImplicit false

namespace AccessPlan.Yaml

/-- A node that may turn out to be a key. -/
structure PossibleKey where
  /-- How many tokens come before it. -/
  place : Nat
  /-- Whether nothing but a key can stand here. -/
  required : Bool
  index : Nat
  line : Nat
  column : Nat

/-- The state of the lexer. -/
structure Lexer where
  cursor : Cursor
  tokens : Array Token
  /-- The column of the innermost block collection; `-1` outside all. -/
  indent : Int
  /-- The columns of the block collections around it. -/
  indents : List Int
  /-- How many flow collections are open. -/
  flow : Nat
  keyAllowed : Bool
  /-- The possible keys, by flow depth. -/
  keys : List (Nat × PossibleKey)
  done : Bool

/-- How far a colon may lie behind the start of its key. -/
def maxKeyLength : Nat := 1024

/-- A step of the lexer. -/
abbrev Lex := StateT Lexer (Except Problem)

namespace Lex

/-- Refuses the text unless a condition holds. -/
def demand (b : Bool) : Lex Unit := if b then pure () else throw .malformed

/-- Runs a reader at the cursor. -/
def read {α : Type} (r : Reader α) : Lex α := do
  let s ← get
  let (a, cursor) ← r.run s.cursor
  set { s with cursor }
  pure a

/-- Adds a token. -/
def emit (t : Token) : Lex Unit := modify fun s => { s with tokens := s.tokens.push t }

/-- Moves on and adds a token. -/
def take (n : Nat) (t : Token) : Lex Unit := do
  read (Reader.skip n)
  emit t

/-- Says whether a key may start next. -/
def allowKey (b : Bool) : Lex Unit := modify fun s => { s with keyAllowed := b }

/-- Whether no flow collection is open. -/
def inBlock : Lex Bool := do pure ((← get).flow == 0)

/-! ## Possible keys -/

/-- Gives up the possible keys that lie on an earlier line or too far back. -/
def dropStaleKeys : Lex Unit := do
  let s ← get
  let stale (k : PossibleKey) : Bool :=
    k.line != s.cursor.line || s.cursor.index - k.index > maxKeyLength
  demand !(s.keys.any fun k => stale k.2 && k.2.required)
  set { s with keys := s.keys.filter fun k => !stale k.2 }

/-- Gives up the possible key at this flow depth. -/
def dropKey : Lex Unit := do
  let s ← get
  demand !(s.keys.any fun k => k.1 == s.flow && k.2.required)
  set { s with keys := s.keys.filter fun k => k.1 != s.flow }

/-- Remembers the next token as a possible key, where one may start. -/
def saveKey : Lex Unit := do
  if (← get).keyAllowed then
    dropKey
    modify fun s =>
      let c := s.cursor
      let required := s.flow == 0 && s.indent == (c.column : Int)
      let key := ⟨s.tokens.size, required, c.index, c.line, c.column⟩
      { s with keys := (s.flow, key) :: s.keys }

/-! ## Indentation -/

/-- Closes the collections from `indents` on that lie deeper than a column. -/
def closeFrom (column : Int) (s : Lexer) : List Int → Lexer
  | [] => s
  | outer :: more =>
    if column < s.indent then
      closeFrom column { s with
        indent := outer, indents := more, tokens := s.tokens.push .blockEnd } more
    else s

/-- Closes the block collections that lie deeper than a column. Flow collections know no columns. -/
def closeDeeper (column : Int) : Lex Unit := do
  if ← inBlock then modify fun s => closeFrom column s s.indents

/-- Opens a block collection at a column, if that lies deeper than the innermost one. -/
def openDeeper (column : Nat) : Lex Bool := do
  let s ← get
  if s.indent < (column : Int) then
    set { s with indent := (column : Int), indents := s.indent :: s.indents }
    pure true
  else pure false

/-- Opens a block collection here before a mark that starts its entries. -/
def openHere (start : Token) : Lex Unit := do
  if ← inBlock then
    demand (← get).keyAllowed
    if ← openDeeper (← get).cursor.column then emit start

/-! ## Marks -/

/-- The end of the text. -/
def finish : Lex Unit := do
  closeDeeper (-1)
  dropKey
  modify fun s => { s with keyAllowed := false, keys := [], done := true }
  emit .streamEnd

/-- A mark or directive that stands between documents. -/
def betweenDocuments (mark : Lex Unit) : Lex Unit := do
  closeDeeper (-1)
  dropKey
  allowKey false
  mark

/-- The start of a flow collection. -/
def openFlow (start : Token) : Lex Unit := do
  saveKey
  modify fun s => { s with flow := s.flow + 1, keyAllowed := true }
  take 1 start

/-- The end of a flow collection. -/
def closeFlow (finish : Token) : Lex Unit := do
  dropKey
  demand ((← get).flow != 0)
  modify fun s => { s with flow := s.flow - 1, keyAllowed := false }
  take 1 finish

/-- The comma between the entries of a flow collection. -/
def flowEntry : Lex Unit := do
  allowKey true
  dropKey
  take 1 .flowEntry

/-- The dash before an entry of a block sequence. -/
def blockEntry : Lex Unit := do
  openHere .blockSequenceStart
  allowKey true
  dropKey
  take 1 .blockEntry

/-- The mark of a key. -/
def keyMark : Lex Unit := do
  openHere .blockMappingStart
  allowKey (← inBlock)
  dropKey
  take 1 .key

/-- The colon before a value. It makes a key of the possible key before it, if there is one. -/
def valueMark : Lex Unit := do
  let s ← get
  match s.keys.lookup s.flow with
  | some key => do
    let tokens := s.tokens.toList
    let before := tokens.take key.place
    let after := Token.key :: tokens.drop key.place
    set { s with keys := s.keys.filter fun k => k.1 != s.flow, keyAllowed := false }
    let opened ← if ← inBlock then openDeeper key.column else pure false
    let start := if opened then [Token.blockMappingStart] else []
    modify fun s => { s with tokens := (before ++ start ++ after).toArray }
  | none => do
    openHere .blockMappingStart
    allowKey (← inBlock)
    dropKey
  take 1 .value

/-! ## Nodes -/

/-- A token that may be a key, and after which no key may start. -/
def node (r : Reader Token) : Lex Unit := do
  saveKey
  allowKey false
  emit (← read r)

/-- A plain scalar. A key may start after it if it ended with its line. -/
def plainScalar : Lex Unit := do
  saveKey
  let s ← get
  let (text, broken) ← read (Reader.plainScalar (s.flow != 0) (s.indent + 1))
  allowKey broken
  emit (.scalar text true)

/-- A block scalar. -/
def blockScalar (folded : Bool) : Lex Unit := do
  allowKey true
  dropKey
  let indent := (← get).indent
  emit (.scalar (← read (Reader.blockScalar folded indent)) false)

/-- A quoted scalar. -/
def quotedScalar (double : Bool) : Lex Unit :=
  node do pure (.scalar (← Reader.quotedScalar double) false)

/-! ## Between tokens -/

/-- Skips spaces, comments and line ends. In a block a key may start on a new line. -/
def skipBlanks : Nat → Lex Unit
  | 0 => pure ()
  | fuel + 1 => do
    discard <| read (Reader.takeWhile (· == ' '))
    read Reader.comment
    let ended ← read Reader.lineBreak
    if !ended.isEmpty then
      if ← inBlock then allowKey true
      skipBlanks fuel

/-- Skips a byte order mark at the start of the text. -/
def skipMark : Lex Unit := do
  let c := (← get).cursor
  if c.index == 0 && c.peek 0 == some '\ufeff' then read (Reader.skip 1)

/-- Reads the next tokens, as their first character and the one after it demand. -/
def step : Lex Unit := do
  skipMark
  skipBlanks ((← get).cursor.rest.length + 1)
  dropStaleKeys
  closeDeeper (← get).cursor.column
  let s ← get
  let c := s.cursor
  let inFlow := s.flow != 0
  let alone := endsWord (c.peek 1)
  match c.peek 0 with
  | none => finish
  | some ch =>
    if ch == '%' && c.column == 0 then
      betweenDocuments do emit (← read Reader.directive)
    else if c.column == 0 && c.atSeparator then
      betweenDocuments (take 3 (if ch == '-' then .documentStart else .documentEnd))
    else match ch with
      | '[' => openFlow .flowSequenceStart
      | '\x7b' => openFlow .flowMappingStart
      | ']' => closeFlow .flowSequenceEnd
      | '\x7d' => closeFlow .flowMappingEnd
      | ',' => flowEntry
      | '*' => node do pure (.alias (← Reader.anchorName))
      | '&' => node do pure (.anchor (← Reader.anchorName))
      | '!' => node Reader.tag
      | '\x27' => quotedScalar false
      | '\x22' => quotedScalar true
      | '-' => if alone then blockEntry else plainScalar
      | '?' => if inFlow || alone then keyMark else plainScalar
      | ':' => if inFlow || alone then valueMark else plainScalar
      | '|' => do demand !inFlow; blockScalar false
      | '>' => do demand !inFlow; blockScalar true
      | ch => do
        demand !(isGap ch || "#%@\x60".toList.contains ch)
        plainScalar

/-- The state at the start of a text. -/
def start (text : List Char) : Lexer where
  cursor := ⟨text, 0, 0, 0⟩
  tokens := #[]
  indent := -1
  indents := []
  flow := 0
  keyAllowed := true
  keys := []
  done := false

/-- Steps until the text ends or a step fails. -/
def toEnd : Nat → Lexer → Lexer × Option Problem
  | 0, s => (s, some .malformed)
  | fuel + 1, s =>
    if s.done then (s, none)
    else match step.run s with
      | .ok (_, s) => toEnd fuel s
      | .error p => (s, some p)

end Lex

/-- The tokens of a text, and the mistake at which they end, if there is one. -/
def Token.scan (text : List Char) : List Token × Option Problem :=
  let (s, problem) := Lex.toEnd (text.length + 2) (Lex.start text)
  (s.tokens.toList, problem)

end AccessPlan.Yaml
