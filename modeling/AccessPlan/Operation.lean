import AccessPlan.MatchBlock

/-!
# Operations

One operation of a plan: a rule for one subsystem. An operation has a `key`, which names the state that it
leads to, and a `record`, a plain view for printing. `foreign` stands for an object that got into a plan
without being an operation.
-/

set_option autoImplicit false

namespace AccessPlan

/-! ## Kinds of subject and of setting -/

/-- Who is granted access. -/
inductive SubjectKind where
  | user
  | group
  deriving DecidableEq, Repr

namespace SubjectKind

/-- The word of a kind of subject. -/
def word : SubjectKind → String
  | .user => "user"
  | .group => "group"

/-- The kind of subject of a word. -/
def ofWord? (word : String) : Option SubjectKind :=
  [user, group].find? fun k => k.word == word

end SubjectKind

/-- The allow lists of an identity domain. -/
inductive SettingKind where
  | allowUsers
  | allowGroups
  deriving DecidableEq, Repr

namespace SettingKind

/-- The word of an allow list. -/
def word : SettingKind → String
  | .allowUsers => "AllowUsers"
  | .allowGroups => "AllowGroups"

/-- The allow list of a word. -/
def ofWord? (word : String) : Option SettingKind :=
  [allowUsers, allowGroups].find? fun k => k.word == word

/-- The option of the identity service that holds an allow list. -/
def directive : SettingKind → String
  | .allowUsers => "simple_allow_users"
  | .allowGroups => "simple_allow_groups"

end SettingKind

/-! ## Operations -/

/-- The kinds of operation. -/
inductive OperationKind where
  | pamAllow
  | firewallAllow
  | tcpWrapperAllow
  | domainAppend
  | matchBlockCreate
  | matchParamSet
  deriving DecidableEq, Repr

/-- The tag of a kind in a record. -/
def OperationKind.tag : OperationKind → String
  | .pamAllow => "pam_allow"
  | .firewallAllow => "firewall_allow"
  | .tcpWrapperAllow => "tcpwrapper_allow"
  | .domainAppend => "domain_append"
  | .matchBlockCreate => "match_block_create"
  | .matchParamSet => "match_param_set"

/-- An object that is no operation. -/
inductive Foreign where
  /-- A Match block, which has a key like an operation. -/
  | block (b : MatchBlock)
  /-- Two objects of the bare kind `object` are equal only if they are one, which `serial` tells. -/
  | other (kind : String) (serial : Nat)

namespace Foreign

/-- The name of the kind of an object. -/
def kind : Foreign → String
  | .block _ => "MatchBlock"
  | .other kind _ => kind

/-- The key of an object, if it has one. -/
def key? : Foreign → Option String
  | .block b => some b.key
  | .other .. => none

/-- Equality of objects. -/
def same : Foreign → Foreign → Bool
  | .block b, .block c => b.same c
  | .other k m, .other k' n => k == k' && (k != "object" || m == n)
  | _, _ => false

end Foreign

/-- An operation of a plan. -/
inductive Operation where
  /-- Grants a subject access from one origin. -/
  | pamAllow (kind : SubjectKind) (subject origin permission position : Value)
  /-- Accepts traffic from one host. -/
  | firewallAllow (source label port protocol action : Value)
  /-- Allows one address for a service. -/
  | tcpWrapperAllow (address service : Value)
  /-- Appends items to an allow list of an identity domain. -/
  | domainAppend (domain : Value) (kind : SettingKind) (items : Value)
  /-- Creates a Match block. -/
  | matchBlockCreate (header : Header)
  /-- Sets one directive inside a Match block. -/
  | matchParamSet (block : Header) (directive value : Value)
  | foreign (object : Foreign)

namespace Operation

/-- The kind of an operation. -/
def kind? : Operation → Option OperationKind
  | .pamAllow .. => some .pamAllow
  | .firewallAllow .. => some .firewallAllow
  | .tcpWrapperAllow .. => some .tcpWrapperAllow
  | .domainAppend .. => some .domainAppend
  | .matchBlockCreate .. => some .matchBlockCreate
  | .matchParamSet .. => some .matchParamSet
  | .foreign _ => none

/-- The header of the Match block that an operation is about. -/
def header? : Operation → Option Header
  | .matchBlockCreate h => some h
  | .matchParamSet h _ _ => some h
  | _ => none

/-- The option of the identity service that an operation writes. -/
def directive? : Operation → Option String
  | .domainAppend _ kind _ => some kind.directive
  | _ => none

/-- The key of an operation: two operations with one key lead to the same state. Of the foreign objects
only a Match block has a key. -/
def key : Operation → Outcome Value
  | .pamAllow kind subject origin _ _ =>
    pure (.tuple [.text "pam", .text kind.word, subject, origin])
  | .firewallAllow _ label _ _ _ => pure (.tuple [.text "firewall", label])
  | .tcpWrapperAllow address service => pure (.tuple [.text "tcpwrapper", service, address])
  | .domainAppend domain kind items =>
    pure (.tuple [.text "domain", domain, .text kind.word, items])
  | .matchBlockCreate header => do pure (.tuple [.text "match", .text (← header.key)])
  | .matchParamSet block directive _ => do
    pure (.tuple [.text "match_param", .text (← block.key), directive])
  | .foreign object => do pure (.text (← orMisuse .noView object.key?))

mutual

/-- A value as a record shows it: tuples become lists, also inside one another. -/
def plain : Value → Value
  | .tuple items => .list (plainAll items)
  | v => v
termination_by structural v => v

/-- The values as a record shows them. -/
def plainAll : List Value → List Value
  | [] => []
  | v :: vs => plain v :: plainAll vs
termination_by structural vs => vs

end

/-- The fields of an operation by name, after its tag. The header of a block inside shows as its key. -/
def record : Operation → Outcome (List (String × Value))
  | .pamAllow kind subject origin permission position => pure
    [("type", .text OperationKind.pamAllow.tag), ("subject_kind", .text kind.word),
      ("subject", plain subject), ("origin", plain origin), ("permission", plain permission),
      ("position", plain position)]
  | .firewallAllow source label port protocol action => pure
    [("type", .text OperationKind.firewallAllow.tag), ("source", plain source),
      ("label", plain label), ("port", plain port), ("protocol", plain protocol),
      ("action", plain action)]
  | .tcpWrapperAllow address service => pure
    [("type", .text OperationKind.tcpWrapperAllow.tag), ("address", plain address),
      ("service", plain service)]
  | .domainAppend domain kind items => pure
    [("type", .text OperationKind.domainAppend.tag), ("domain", plain domain),
      ("setting_kind", .text kind.word), ("items", plain items)]
  | .matchBlockCreate header => pure
    [("type", .text OperationKind.matchBlockCreate.tag), ("criteria", .text header.criteria.word),
      ("pattern", plain header.pattern), ("position", plain header.position)]
  | .matchParamSet block directive value => do
    let key ← block.key
    pure [("type", .text OperationKind.matchParamSet.tag), ("block", .text key),
      ("directive", plain directive), ("value", plain value)]
  | .foreign _ => misuse .noView

/-- Equality of operations, field by field. -/
def same : Operation → Operation → Bool
  | .pamAllow k a b c d, .pamAllow k' a' b' c' d' =>
    k == k' && a.same a' && b.same b' && c.same c' && d.same d'
  | .firewallAllow a b c d e, .firewallAllow a' b' c' d' e' =>
    a.same a' && b.same b' && c.same c' && d.same d' && e.same e'
  | .tcpWrapperAllow a b, .tcpWrapperAllow a' b' => a.same a' && b.same b'
  | .domainAppend a k b, .domainAppend a' k' b' => a.same a' && k == k' && b.same b'
  | .matchBlockCreate h, .matchBlockCreate h' => h.same h'
  | .matchParamSet h a b, .matchParamSet h' a' b' => h.same h' && a.same a' && b.same b'
  | .foreign f, .foreign f' => f.same f'
  | _, _ => false

end Operation

/-! ## Making an operation from named fields -/

/-- The names of the fields of an operation; a field with a value may be left out. -/
def OperationKind.fields : OperationKind → List (String × Option Value)
  | .pamAllow => [("subject_kind", none), ("subject", none), ("origin", none),
      ("permission", some (.text "+")), ("position", some (.text "end"))]
  | .firewallAllow => [("source", none), ("label", none), ("port", some (.int 22)),
      ("protocol", some (.text "tcp")), ("action", some (.text "accept"))]
  | .tcpWrapperAllow => [("address", none), ("service", some (.text "sshd"))]
  | .domainAppend => [("domain", none), ("setting_kind", none), ("items", none)]
  | .matchBlockCreate => [("criteria", none), ("pattern", none),
      ("position", some (.text defaultPosition))]
  | .matchParamSet => [("block", none), ("directive", none), ("value", none)]

/-- Whether fields of these names, and no others, make an operation. -/
def OperationKind.accepts (kind : OperationKind) (names : List Value) : Bool :=
  (kind.fields.all fun f => f.2.isSome || names.any (Value.same (.text f.1))) &&
    names.all fun name => kind.fields.any fun f => name.same (.text f.1)

namespace Operation

/-- Reads the word of a choice, if its field is there. -/
def choice {α : Type} (ofWord? : String → Option α) (name : String) (fields : Mapping) :
    Outcome (Option α) :=
  match fields.getText? name with
  | none => pure none
  | some v => some <$> orMisuse .unknownChoice (v.text?.bind ofWord?)

/-- The operation of a kind whose fields are all there; `field` looks up those that are no choice. -/
def assemble? (kind : OperationKind) (criteria : Option Criteria) (setting : Option SettingKind)
    (subject : Option SubjectKind) (block : Option Header) (field : String → Value) :
    Option Operation :=
  match kind with
  | .pamAllow => subject.map fun k =>
    .pamAllow k (field "subject") (field "origin") (field "permission") (field "position")
  | .firewallAllow => some <| .firewallAllow (field "source") (field "label") (field "port")
    (field "protocol") (field "action")
  | .tcpWrapperAllow => some (.tcpWrapperAllow (field "address") (field "service"))
  | .domainAppend => setting.map fun k => .domainAppend (field "domain") k (field "items")
  | .matchBlockCreate => criteria.map fun c =>
    .matchBlockCreate ⟨c, field "pattern", field "position"⟩
  | .matchParamSet => block.map fun h => .matchParamSet h (field "directive") (field "value")

/-- The operation of a kind with the given fields. The words of choices are read first; then every field
must belong to the kind and none that it needs may be missing. -/
def ofFields (kind : OperationKind) (fields : Mapping) (block : Option Header) :
    Outcome Operation := do
  let criteria ← choice Criteria.ofWord? "criteria" fields
  let setting ← choice SettingKind.ofWord? "setting_kind" fields
  let subject ← choice SubjectKind.ofWord? "subject_kind" fields
  let names := fields.keys ++ block.toList.map fun _ => .text "block"
  let field (name : String) : Value :=
    (fields.getText? name).getD (((kind.fields.lookup name).bind id).getD .null)
  if kind.accepts names then
    orMisuse .badArguments (assemble? kind criteria setting subject block field)
  else misuse .badArguments

end Operation

end AccessPlan
