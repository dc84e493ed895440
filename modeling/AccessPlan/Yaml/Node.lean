import AccessPlan.Yaml.Tag
import AccessPlan.Yaml.Token.Lexer

/-!
# Nodes

The tree that the tokens of a document describe. Tags are known, and an alias is replaced by the node that
its anchor names. Inside that node itself it stays a reference, which the anchors of the document resolve. A
text holds one document at most.

* `Document.ofTokens?`: the document of a list of tokens.
-/

set_option autoImplicit false

namespace AccessPlan.Yaml

/-- A node of a document. A collection knows its anchor, if it has one. -/
inductive Node where
  /-- No two scalars that are written have one number. -/
  | scalar (number : Nat) (tag : Tag) (text : String)
  | sequence (anchor : Option String) (tag : Tag) (items : List Node)
  | mapping (anchor : Option String) (tag : Tag) (entries : List (Node × Node))
  /-- A collection that this place is inside of. -/
  | inner (anchor : String) (tag : Tag)

/-- The nodes that have an anchor. -/
abbrev Anchors := List (String × Node)

/-- A tree with the anchors in it. -/
structure Document where
  root : Node
  anchors : Anchors
  /-- More than there are steps to any place at which no collection comes twice. -/
  size : Nat

/-- The nodes under construction: tokens still to come, the mistake at their end, anchors that are named so
far, and what the tag handles stand for. -/
structure Builder where
  tokens : List Token
  problem : Option Problem
  anchors : Anchors
  handles : List (String × String)

/-- A computation that uses up tokens. -/
abbrev Build := StateT Builder (Except Problem)

namespace Build

/-- Refuses the tokens. -/
def fail {α : Type} : Build α := throw .malformed

/-- The next token. After the last one comes the mistake at which they end. -/
def peek : Build Token := do
  match (← get).tokens with
  | t :: _ => pure t
  | [] => throw ((← get).problem.getD .malformed)

/-- Drops the next token. -/
def drop : Build Unit := modify fun s => { s with tokens := s.tokens.drop 1 }

/-- Drops the next token if it is the given one, and says whether it was. -/
def accept (t : Token) : Build Bool := do
  if (← peek) == t then drop; pure true else pure false

/-- Drops the next token, which has to be the given one. -/
def expect (t : Token) : Build Unit := do
  if !(← accept t) then fail

/-- Whether the next token is one of the given ones. -/
def comes (ts : List Token) : Build Bool := do pure (ts.contains (← peek))

/-! ## Anchors and tags -/

/-- The handles that every document knows. -/
def defaultHandles : List (String × String) := [("!", "!"), ("!!", Tag.family)]

/-- The anchor and the tag before a node, in either order. -/
structure Properties where
  anchor : Option String
  tag : Option String

/-- Takes an anchor, if there is one. -/
def anchor : Build (Option String) := do
  match ← peek with
  | .anchor name => drop; pure (some name)
  | _ => pure none

/-- Takes a tag, if there is one, and puts its handle and suffix together. -/
def tag : Build (Option String) := do
  match ← peek with
  | .tag handle suffix => do
    drop
    match handle with
    | none => pure (some suffix)
    | some h => match (← get).handles.lookup h with
      | some start => pure (some (start ++ suffix))
      | none => fail
  | _ => pure none

/-- Takes anchor and tag. -/
def properties : Build Properties := do
  match ← anchor with
  | some name => pure ⟨some name, ← tag⟩
  | none => do
    let t ← tag
    pure ⟨← if t.isSome then anchor else pure none, t⟩

/-- Names a node, if it has an anchor. -/
def name (p : Properties) (n : Node) : Build Unit :=
  match p.anchor with
  | some a => modify fun s => { s with anchors := (a, n) :: s.anchors }
  | none => pure ()

/-- Names the collection that begins here, for the places inside it. -/
def enter (p : Properties) (t : Tag) : Build Unit :=
  match p.anchor with
  | some a => modify fun s => { s with anchors := (a, .inner a t) :: s.anchors }
  | none => pure ()

/-- The tag of a node that is given one; a single exclamation mark gives none. -/
def tagOr (p : Properties) (implicit : Tag) : Tag :=
  match p.tag with
  | some t => if t == "!" then implicit else Tag.ofName t
  | none => implicit

/-- The node for nothing written. -/
def emptyNode : Node := .scalar 0 .null ""

/-! ## Collections -/

mutual

/-- Takes a node. In a block, block collections may come; where an entry of a mapping comes, so may a
sequence whose dashes are not indented. -/
def node (fuel : Nat) (block dashes : Bool) : Build Node := do
  match fuel with
  | 0 => fail
  | fuel + 1 => do
    match ← peek with
    | .alias a => do
      drop
      match (← get).anchors.lookup a with
      | some n => pure n
      | none => fail
    | _ => do
      let p ← properties
      let known := (← get).anchors
      if p.anchor.any fun a => (known.lookup a).isSome then fail
      content fuel block dashes p

/-- Takes what a node holds after its anchor and tag. -/
def content (fuel : Nat) (block dashes : Bool) (p : Properties) : Build Node := do
  match fuel with
  | 0 => fail
  | fuel + 1 => do
    let sequenceOf (items : Build (List Node)) : Build Node := do
      let t := tagOr p .sequence
      enter p t
      let n := Node.sequence p.anchor t (← items)
      name p n
      pure n
    let mappingOf (entries : Build (List (Node × Node))) : Build Node := do
      let t := tagOr p .mapping
      enter p t
      let n := Node.mapping p.anchor t (← entries)
      name p n
      pure n
    match ← peek with
    | .blockEntry =>
      if dashes then sequenceOf (dashEntries fuel) else emptyOr p
    | .scalar text plain => do
      let number := (← get).tokens.length
      drop
      let implicit := if plain || p.tag == some "!" then Tag.ofPlain text else .text
      let n := Node.scalar number (tagOr p implicit) text
      name p n
      pure n
    | .flowSequenceStart => do
      drop
      sequenceOf (flowItems fuel true)
    | .flowMappingStart => do
      drop
      mappingOf (flowEntries fuel true)
    | .blockSequenceStart =>
      if block then do
        drop
        sequenceOf (blockItems fuel)
      else emptyOr p
    | .blockMappingStart =>
      if block then do
        drop
        mappingOf (blockEntries fuel)
      else emptyOr p
    | _ => emptyOr p

/-- The node that consists of an anchor or a tag alone. -/
def emptyOr (p : Properties) : Build Node := do
  if p.anchor.isNone && p.tag.isNone then fail
  else
    let n := Node.scalar 0 (tagOr p .null) ""
    name p n
    pure n

/-- Takes a node, or the empty one if one of the given tokens comes. -/
def nodeUnless (fuel : Nat) (block dashes : Bool) (ends : List Token) : Build Node := do
  match fuel with
  | 0 => fail
  | fuel + 1 => do
    if ← comes ends then pure emptyNode else node fuel block dashes

/-- Takes the entries of a block sequence up to its end. -/
def blockItems (fuel : Nat) : Build (List Node) := do
  match fuel with
  | 0 => fail
  | fuel + 1 => do
    if ← accept .blockEntry then
      let n ← nodeUnless fuel true false [.blockEntry, .blockEnd]
      pure (n :: (← blockItems fuel))
    else
      expect .blockEnd
      pure []

/-- Takes the entries of a sequence whose dashes are not indented. -/
def dashEntries (fuel : Nat) : Build (List Node) := do
  match fuel with
  | 0 => fail
  | fuel + 1 => do
    if ← accept .blockEntry then
      let n ← nodeUnless fuel true false [.blockEntry, .key, .value, .blockEnd]
      pure (n :: (← dashEntries fuel))
    else pure []

/-- Takes the value of an entry, if its colon comes. -/
def valueUnless (fuel : Nat) (block : Bool) (ends : List Token) : Build Node := do
  match fuel with
  | 0 => fail
  | fuel + 1 => do
    if ← accept .value then nodeUnless fuel block block ends else pure emptyNode

/-- Takes the entries of a block mapping up to its end. -/
def blockEntries (fuel : Nat) : Build (List (Node × Node)) := do
  match fuel with
  | 0 => fail
  | fuel + 1 => do
    if ← accept .key then
      let k ← nodeUnless fuel true true [.key, .value, .blockEnd]
      let v ← valueUnless fuel true [.key, .value, .blockEnd]
      pure ((k, v) :: (← blockEntries fuel))
    else
      expect .blockEnd
      pure []

/-- Takes the items of a flow sequence up to its end. A marked key makes a mapping of one entry. -/
def flowItems (fuel : Nat) (first : Bool) : Build (List Node) := do
  match fuel with
  | 0 => fail
  | fuel + 1 => do
    if ← accept .flowSequenceEnd then pure []
    else
      if !first then expect .flowEntry
      if ← accept .key then
        let k ← nodeUnless fuel false false [.value, .flowEntry, .flowSequenceEnd]
        let v ← valueUnless fuel false [.flowEntry, .flowSequenceEnd]
        pure (.mapping none .mapping [(k, v)] :: (← flowItems fuel false))
      else if ← accept .flowSequenceEnd then pure []
      else
        let n ← node fuel false false
        pure (n :: (← flowItems fuel false))

/-- Takes the entries of a flow mapping up to its end. A node that is no key has an empty value. -/
def flowEntries (fuel : Nat) (first : Bool) : Build (List (Node × Node)) := do
  match fuel with
  | 0 => fail
  | fuel + 1 => do
    if ← accept .flowMappingEnd then pure []
    else
      if !first then expect .flowEntry
      if ← accept .key then
        let k ← nodeUnless fuel false false [.value, .flowEntry, .flowMappingEnd]
        let v ← valueUnless fuel false [.flowEntry, .flowMappingEnd]
        pure ((k, v) :: (← flowEntries fuel false))
      else if ← accept .flowMappingEnd then pure []
      else
        let n ← node fuel false false
        pure ((n, emptyNode) :: (← flowEntries fuel false))

end

/-! ## Documents -/

/-- Takes the directives before a document: one version at most, and every handle once. -/
def directives : Nat → Bool → List (String × String) → Build (List (String × String))
  | 0, _, _ => fail
  | fuel + 1, versioned, handles => do
    match ← peek with
    | .directive (.version major) => do
      drop
      if versioned || major != 1 then fail
      directives fuel true handles
    | .directive (.tag handle start) => do
      drop
      if (handles.lookup handle).isSome then fail
      directives fuel versioned ((handle, start) :: handles)
    | .directive .other => do
      drop
      directives fuel versioned handles
    | _ => pure (handles ++ defaultHandles)

/-- Drops the marks of document ends. -/
def dropEnds : Nat → Build Unit
  | 0 => pure ()
  | fuel + 1 => do
    if ← accept .documentEnd then dropEnds fuel

/-- Takes the only document of a text, if it holds one. -/
def document (fuel : Nat) : Build (Option Node) := do
  let root ← match ← peek with
    | .streamEnd => pure none
    | .directive _ | .documentStart => do
      let handles ← directives fuel false []
      modify fun s => { s with handles }
      expect .documentStart
      match ← peek with
      | .directive _ | .documentStart | .documentEnd | .streamEnd => pure (some emptyNode)
      | _ => some <$> node fuel true false
    | _ => some <$> node fuel true false
  dropEnds fuel
  expect .streamEnd
  pure root

end Build

/-- The document of the tokens of a text, if there is one. -/
def Document.ofTokens? (tokens : List Token) (problem : Option Problem) :
    Except Problem (Option Document) := do
  let start : Builder := ⟨tokens, problem, [], Build.defaultHandles⟩
  let (root, s) ← (Build.document (4 * tokens.length + 16)).run start
  pure (root.map fun n => ⟨n, s.anchors, 2 * tokens.length + 16⟩)

end AccessPlan.Yaml
