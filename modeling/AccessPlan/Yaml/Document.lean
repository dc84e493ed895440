import AccessPlan.Yaml.Scalar

/-!
# Documents

From the bytes of a file to the value of its document. `Document.value` makes the value of a tree: mappings
are merged first, and of several mistakes the one nearest to the root counts, then the one that comes first.

A collection that holds itself is written out once, from `Document.opening` steps below the root on. Nearer to
the root it is written out again, so that what stands there is never a loop.

* `Yaml.load`: the value of a file, null if it holds no document.
-/

set_option autoImplicit false

namespace AccessPlan.Yaml

/-! ## Merging mappings -/

namespace Node

/-- A node with another tag. -/
def retag (t : Tag) : Node → Node
  | .scalar number _ s => .scalar number t s
  | .sequence a _ items => .sequence a t items
  | .mapping a _ entries => .mapping a t entries
  | .inner a _ => .inner a t

/-- The tag of a node. -/
def tag : Node → Tag
  | .scalar _ t _ | .sequence _ t _ | .mapping _ t _ | .inner _ t => t

/-- The node that a reference is to, and any other node itself. -/
def resolve (anchors : Anchors) : Node → Node
  | .inner a t => (anchors.lookup a).getD (.inner a t)
  | n => n

/-- Goes through the entries of a mapping, with the ones before that are no merge keys: what the merge keys
name, and the other entries. `merge` is told which entries the mapping has left besides the merge key. -/
def splitMerges
    (merge : List (Node × Node) → Node → Except Problem (List (Node × Node))) :
    List (Node × Node) → List (Node × Node) → Except Problem (List (Node × Node) × List (Node × Node))
  | own, [] => .ok ([], own)
  | own, e :: rest =>
    if e.1.tag == .merge then do
      let merged ← merge (own ++ rest) e.2
      let (more, own) ← splitMerges merge own rest
      pure (merged ++ more, own)
    else
      let e := if e.1.tag == .value then (e.1.retag .text, e.2) else e
      splitMerges merge (own ++ [e]) rest

/-- The entries of a mapping with those of the mappings that its merge keys name in front. Of the mappings
in a list the first comes last, so that its entries win. A mapping that is being merged gives the entries that
it has left, which `left` holds. -/
def mergedEntries (anchors : Anchors) : Nat → List (String × List (Node × Node)) → Option String →
    List (Node × Node) → Except Problem (List (Node × Node))
  | 0, _, _, _ => .error .malformed
  | fuel + 1, left, anchor, entries => do
    let entriesOf (others : List (Node × Node)) (n : Node) : Except Problem (List (Node × Node)) :=
      match resolve anchors n with
      | .mapping a _ es =>
        let left := (anchor.map fun b => (b, others)).toList ++ left
        mergedEntries anchors fuel left a ((a.bind fun b => left.lookup b).getD es)
      | _ => .error .malformed
    let merge (others : List (Node × Node)) (n : Node) : Except Problem (List (Node × Node)) :=
      match resolve anchors n with
      | .sequence _ _ items => do pure (← items.mapM (entriesOf others)).reverse.flatten
      | n => entriesOf others n
    let (merged, own) ← splitMerges merge [] entries
    pure (merged ++ own)

/-! ## Values -/

/-- The number and the text of a scalar. A mapping may stand for one by its value key; if that leads back to
the mapping, it never comes to an end. -/
def scalarText (anchors : Anchors) : Nat → Node → Except Problem (Nat × String)
  | _, .scalar number _ s => .ok (number, s)
  | _, .sequence .. => .error .malformed
  | 0, _ => .error (.misuse .endless)
  | fuel + 1, .inner a _ => match anchors.lookup a with
    | some n => scalarText anchors fuel n
    | none => .error .malformed
  | fuel + 1, .mapping _ _ entries => match entries.find? fun e => e.1.tag == .value with
    | some e => scalarText anchors fuel e.2
    | none => .error .malformed

end Node

/-- A value, and the mistakes in its node with their distance from the root. -/
structure Reading (α : Type) where
  result : α
  mistakes : List (Nat × Problem)

namespace Reading

/-- A value that cannot be read. -/
def mistake (depth : Nat) (p : Problem) : Reading Value := ⟨.null, [(depth, p)]⟩

/-- A value or the mistake in it. -/
def ofExcept (depth : Nat) : Except Problem Value → Reading Value
  | .ok v => ⟨v, []⟩
  | .error p => mistake depth p

/-- Values one after another. -/
def all {α : Type} (rs : List (Reading α)) : Reading (List α) :=
  ⟨rs.map Reading.result, (rs.map Reading.mistakes).flatten⟩

/-- The mistake that counts: the nearest to the root, and of those the first. -/
def first? : List (Nat × Problem) → Option (Nat × Problem)
  | [] => none
  | m :: ms => match first? ms with
    | some n => if n.1 < m.1 then some n else some m
    | none => some m

/-- The value, or the mistake that counts. -/
def toExcept {α : Type} (r : Reading α) : Except Problem α :=
  match first? r.mistakes with
  | some m => .error m.2
  | none => .ok r.result

end Reading

namespace Node

/-- Reads the two sides of an entry. -/
def entryReading (read : Node → Reading Value) (depth : Nat) (keyed : Bool) (e : Node × Node) :
    Reading (Value × Value) :=
  let k := read e.1
  let v := read e.2
  let unusable := if keyed && !k.result.isKey then [(depth, Problem.malformed)] else []
  ⟨(k.result, v.result), k.mistakes ++ unusable ++ v.mistakes⟩

/-- What stands at a place inside a collection for the collection. -/
def loop (t : Tag) : Value := .loop (if t == .mapping then .map else .list)

end Node

namespace Document

/-- How many steps below the root no collection counts as one that a place is inside of. -/
def opening : Nat := 3

/-- Reads a node at a depth: a scalar by its tag, a collection with what it holds one deeper. `around` are the
anchors of the collections that the place is inside of. -/
def reading (d : Document) : Nat → List String → Nat → Node → Reading Value
  | 0, _, depth, _ => .mistake depth .malformed
  | fuel + 1, around, depth, n =>
    let below (anchor : Option String) : Node → Reading Value :=
      d.reading fuel (if depth < opening then around else anchor.toList ++ around) (depth + 1)
    let wrong : Reading Value := .mistake (depth + 1) .malformed
    let entries (make : Mapping → Value) : Reading Value :=
      match n with
      | .mapping a _ es => match Node.mergedEntries d.anchors d.size [] a es with
        | .ok es =>
          let r := Reading.all (es.map (Node.entryReading (below a) (depth + 1) true))
          ⟨make (Mapping.ofEntries r.result), r.mistakes⟩
        | .error p => .mistake (depth + 1) p
      | _ => wrong
    match n with
    | .inner a t =>
      if around.contains a then ⟨Node.loop t, []⟩
      else match d.anchors.lookup a with
        | some n => d.reading fuel around depth n
        | none => .mistake depth .malformed
    | n => match n.tag with
      | .sequence => match n with
        | .sequence a _ items =>
          let r := Reading.all (items.map (below a))
          ⟨.list r.result, r.mistakes⟩
        | _ => wrong
      | .mapping => entries .map
      | .set => entries fun m => .set (Mapping.keys m)
      | .orderedMap | .pairs => match n with
        | .sequence a _ items =>
          let r := Reading.all <| items.map fun item => match item.resolve d.anchors with
            | .mapping _ _ [e] => Node.entryReading (below a) (depth + 1) false e
            | _ => ⟨(.null, .null), [(depth + 1, .malformed)]⟩
          ⟨.list (r.result.map fun e => .tuple [e.1, e.2]), r.mistakes⟩
        | _ => wrong
      | .merge | .value | .unknown => .mistake depth .malformed
      | t => match n.scalarText d.anchors d.size with
        | .ok (number, s) => .ofExcept depth (Scalar.value number t s)
        | .error p => .mistake depth p

/-- The value of a document. -/
def value (d : Document) : Except Problem Value := (d.reading d.size [] 0 d.root).toExcept

end Document

/-! ## Files -/

/-- A text in which every line ends with a line feed. -/
def unifyLines : List Char → List Char
  | '\x0d' :: '\n' :: cs => '\n' :: unifyLines cs
  | '\x0d' :: cs => '\n' :: unifyLines cs
  | c :: cs => c :: unifyLines cs
  | [] => []

/-- Whether a character may stand in a text. -/
def isAllowed (c : Char) : Bool :=
  let n := c.toNat
  c == '\t' || c == '\n' || (0x20 ≤ n && n ≤ 0x7e) || n == 0x85 || (0xa0 ≤ n && n ≤ 0xd7ff) ||
    (0xe000 ≤ n && n ≤ 0xfffd) || 0x10000 ≤ n

/-- The value of the document of a text. -/
def ofText (text : List Char) : Except Problem Value := do
  let text := unifyLines text
  if text.all isAllowed then
    let (tokens, problem) := Token.scan text
    match ← Document.ofTokens? tokens problem with
    | some d => d.value
    | none => pure .null
  else throw .malformed

/-- The value of the document of a file. -/
def load (bytes : List UInt8) : Except Problem Value :=
  match String.fromUTF8? ⟨bytes.toArray⟩ with
  | some s => ofText s.toList
  | none => .error (.misuse .undecodable)

end AccessPlan.Yaml
