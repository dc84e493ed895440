import AccessPlan.Directives
import AccessPlan.Request

/-!
# Validation

From named values to a valid request. Every field is looked at, and all findings are reported, field by field
in a fixed order and then one for every unknown name. That a request allows somebody is looked at only when
there is no other finding.

* `Request.validate`: the request, or its findings.
* `Request.build`: the same for named arguments, whose names are looked at first. It breaks off if the
  directives are never put into words.
-/

set_option autoImplicit false

namespace AccessPlan

/-- A checked part of a request, or what was found wrong with it. -/
abbrev Checked (α : Type) := Except (List Finding) α

namespace Checked

/-- What was found. -/
def findings {α : Type} : Checked α → List Finding
  | .ok _ => []
  | .error fs => fs

end Checked

namespace Value

/-- The content of a text or of bytes that are UTF-8. -/
def content : Value → Except Rule String
  | .text s => .ok s
  | .bytes bs => match String.fromUTF8? ⟨bs.toArray⟩ with
    | some s => .ok s
    | none => .error .notUtf8
  | _ => .error .notText

/-- The items of a list, a tuple or a set. -/
def sequence? : Value → Option (List Value)
  | .list items | .tuple items | .set items => some items
  | _ => none

/-- A bare text as a sequence of one, and nothing as an empty sequence. -/
def asSequence : Value → Value
  | .null => .tuple []
  | .text s => .tuple [.text s]
  | v => v

/-- A key as a step of a place: integers of 64 bits as numbers, texts as they are, the rest as literals. -/
def step (key : Value) : Step :=
  match key, key.whole? with
  | .text s, _ => .name s
  | v, some i =>
    if -Int.pow 2 63 ≤ i && i < Int.pow 2 63 then .index i
    else .name (v.literal?.getD s!"<unprintable {v.kindName} object>")
  | v, none => .name (v.literal?.getD s!"<unprintable {v.kindName} object>")

end Value

namespace Request

/-! ## Texts -/

/-- Checks the items of a sequence at a place, numbered from `n`: the texts among them, and the findings. -/
def checkItems (place : List Step) (n : Nat) : List Value → List String × List Finding
  | [] => ([], [])
  | v :: vs =>
    let (texts, findings) := checkItems place (n + 1) vs
    match v.content with
    | .ok s => (s :: texts, findings)
    | .error r => (texts, ⟨r, place ++ [.index n]⟩ :: findings)

/-- Fails with findings, or gives the value if there are none. -/
def barring {α : Type} (findings : List Finding) (a : α) : Checked α :=
  if findings.isEmpty then .ok a else .error findings

/-- Checks a sequence of texts at a place. -/
def checkTexts (place : List Step) (v : Value) : Checked (List String) :=
  match v.sequence? with
  | none => .error [⟨.notSequence, place⟩]
  | some items =>
    let (texts, findings) := checkItems place 0 items
    barring findings texts

/-- The list without repeats: of equal items the first stays. -/
def firstSeen : List String → List String
  | [] => []
  | s :: ss => s :: (firstSeen ss).filter (· != s)

/-! ## Fields -/

/-- The name of a request: a text that is not empty. -/
def checkName : Option Value → Checked String
  | none => .ok "sshd"
  | some v => match v.content with
    | .ok s => if s == "" then .error [⟨.emptyName, [.name "name"]⟩] else .ok s
    | .error r => .error [⟨r, [.name "name"]⟩]

/-- The hosts: at least one text, and none of them empty. -/
def checkHosts : Option Value → Checked (List String)
  | none => .error [⟨.missing, [.name "hostlist"]⟩]
  | some v =>
    let place := [Step.name "hostlist"]
    match v.asSequence.sequence? with
    | none => .error [⟨.notSequence, place⟩]
    | some items =>
      let (texts, findings) := checkItems place 0 items
      let few := if texts.isEmpty then [⟨.tooFew, place⟩] else []
      match findings ++ few with
      | [] => if texts.contains "" then .error [⟨.emptyHost, place⟩] else .ok texts
      | found => .error found

/-- Users or groups: any number of texts. -/
def checkSubjectList (name : String) : Option Value → Checked (List String)
  | none => .ok []
  | some v => firstSeen <$> checkTexts [.name name] v.asSequence

/-! ## Directives -/

/-- Checks the value of a directive: a text, or else a sequence of texts. What is neither is reported as
both. -/
def checkDirective (place : List Step) (v : Value) : Checked Directive :=
  match v.content with
  | .ok s => .ok (.word s)
  | .error r => match checkTexts (place ++ [.name "tuple[str, ...]"]) v with
    | .ok ss => .ok (.words ss)
    | .error findings => .error (⟨r, place ++ [.name "str"]⟩ :: findings)

/-- Checks one entry of the directives. -/
def checkEntry (place : List Step) (e : Value × Value) : Checked (String × Directive) :=
  let place := place ++ [e.1.step]
  let value := checkDirective place e.2
  match e.1.content, value with
  | .ok k, .ok d => .ok (k, d)
  | .ok _, .error findings => .error findings
  | .error r, _ => .error (⟨r, place ++ [.name "[key]"]⟩ :: value.findings)

/-- Writes an entry: a name that is there keeps its place. -/
def putDirective : List (String × Directive) → String × Directive → List (String × Directive)
  | [], e => [e]
  | f :: fs, e => if f.1 == e.1 then e :: fs else f :: putDirective fs e

/-- Checks all entries of the directives, after turning their values into words. -/
def checkEntries (place : List Step) (m : Mapping) : Checked (List (String × Directive)) :=
  match m.mapM fun e => (Directives.normalize? e.2).map fun v => (e.1, v) with
  | none => .error [⟨.longInteger, place⟩]
  | some entries =>
    let checked := entries.map (checkEntry place)
    barring (checked.flatMap Checked.findings)
      ((checked.filterMap Except.toOption).foldl putDirective [])

/-- The names under which directives may be given; the first one that is there counts. -/
def overrideNames : List String := ["sshd_overrides", "sshdOverrides", "sshd_options"]

/-- The directives under the name that was used. -/
def checkOverrides : Option (String × Value) → Checked (List (String × Directive))
  | none => .ok []
  | some (name, .map m) => checkEntries [.name name] m
  | some (name, _) => .error [⟨.notMapping, [.name name]⟩]

/-! ## Requests -/

/-- Named values in the order given; no name comes twice. -/
abbrev Fields := List (String × Value)

/-- The directives among named values. -/
def overridesOf (fields : Fields) : Option (String × Value) :=
  overrideNames.findSome? fun name => (fields.lookup name).map fun v => (name, v)

/-- The names that belong to a request, with the name that its directives use. -/
def knownNames (fields : Fields) : List String :=
  ["name", "hostlist", "users", "groups"] ++ ((overridesOf fields).map Prod.fst).toList

/-- A finding for every name that does not belong to a request. -/
def unknownNames (fields : Fields) : List Finding :=
  let known := knownNames fields
  (fields.filter fun f => !known.contains f.1).map fun f => ⟨.unknownField, [.name f.1]⟩

/-- The valid request with the given fields, or everything that is wrong with them. -/
def validate (fields : Fields) : Checked Request :=
  let name := checkName (fields.lookup "name")
  let hosts := checkHosts (fields.lookup "hostlist")
  let users := checkSubjectList "users" (fields.lookup "users")
  let groups := checkSubjectList "groups" (fields.lookup "groups")
  let overrides := checkOverrides (overridesOf fields)
  match name, hosts, users, groups, overrides, unknownNames fields with
  | .ok name, .ok hosts, .ok users, .ok groups, .ok overrides, [] =>
    if users.isEmpty && groups.isEmpty then .error [⟨.noSubjects, []⟩]
    else .ok ⟨name, hosts, users, groups, overrides⟩
  | _, _, _, _, _, unknown => .error <|
    name.findings ++ hosts.findings ++ users.findings ++ groups.findings ++ overrides.findings ++
      unknown

/-! ## Named arguments -/

/-- The ways in which fields are handed over. -/
inductive Route where
  /-- As the arguments of the builder. -/
  | builder
  /-- As one record. -/
  | record
  deriving DecidableEq, Repr

/-- The names that no field may have on a route. -/
def Route.reserved : Route → List String
  | .builder => ["self", "cls"]
  | .record => ["self"]

/-- Named arguments as fields: every name has to be a text and none reserved. -/
def fieldsOf (reserved : List String) (arguments : Mapping) : Outcome Fields := do
  let fields ← orMisuse .badArguments <|
    arguments.mapM fun e => e.1.text?.map fun name => (name, e.2)
  if fields.any fun f => reserved.contains f.1 then misuse .badArguments else pure fields

/-- Whether putting the directives into words comes to no end. -/
def isEndless (fields : Fields) : Bool :=
  match overridesOf fields with
  | some (_, .map m) => Directives.anyEndless (m.map Prod.snd)
  | _ => false

/-- The valid request with the given arguments; `label` is its name in a request file. -/
def build (route : Route) (arguments : Mapping) (label : Option String) : Outcome Request := do
  let fields ← fieldsOf route.reserved arguments
  if isEndless fields then misuse .endless
  else match validate fields with
    | .ok r => pure r
    | .error findings => .error (.rejected findings label)

/-- The valid request that a value describes, which has to be a mapping. -/
def ofValue : Value → Outcome Request
  | .map m => build .record m none
  | _ => .error (.rejected [⟨.notRequest, []⟩] none)

end Request

namespace Draft

/-- The draft with the given arguments as they are. Unknown names are dropped, and the fields that are missing
take their defaults, except the hosts. -/
def ofArguments (arguments : Mapping) : Outcome Draft := do
  let fields ← Request.fieldsOf ["cls"] arguments
  pure {
    name := (fields.lookup "name").getD (.text "sshd")
    hosts := fields.lookup "hostlist"
    users := (fields.lookup "users").getD (.tuple [])
    groups := (fields.lookup "groups").getD (.tuple [])
    overrides := ((Request.overridesOf fields).map Prod.snd).getD (.map [])
    isFixed := false }

/-- A draft that is validated as it is: it has to allow somebody. -/
def revalidate (d : Draft) : Outcome Draft :=
  if d.allowsNobody then .error (.rejected [⟨.noSubjects, []⟩] none) else pure d

end Draft

end AccessPlan
