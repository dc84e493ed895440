import AccessPlan.Application
import AccessPlan.Request
import AccessPlan.Proofs.Outcome

/-!
# The calls of operations

`Operation.WellTyped op`: every field of `op` holds what it is for. `Operation.Asks op call` is the table of
what such an operation asks its collaborator for, written out without the dispatcher.

* `Operation.WellTyped.exists_asks`: every well-typed operation is in the table.
* `Operation.Asks.call_eq`: the dispatcher makes the call of the table.
* `Operation.changesSshd_iff`: an operation changes sshd if it is about a Match block.
-/

set_option autoImplicit false

namespace AccessPlan

/-- A directive in a call or a record: several words are a list there. -/
def Directive.listed : Directive → Value
  | .word s => .text s
  | .words ss => .list (ss.map .text)

namespace Operation

/-- Every field holds what it is for: a number in the port, a tuple of texts in the items, a text or a tuple
of texts in the value of a directive, and a text in any other field that is no choice. -/
inductive WellTyped : Operation → Prop
  | pamAllow (kind : SubjectKind) (subject origin permission position : String) :
    WellTyped (.pamAllow kind (.text subject) (.text origin) (.text permission) (.text position))
  | firewallAllow (source label : String) (port : Int) (protocol action : String) :
    WellTyped (.firewallAllow (.text source) (.text label) (.int port) (.text protocol) (.text action))
  | tcpWrapperAllow (address service : String) :
    WellTyped (.tcpWrapperAllow (.text address) (.text service))
  | domainAppend (domain : String) (kind : SettingKind) (items : List String) :
    WellTyped (.domainAppend (.text domain) kind (.tuple (items.map .text)))
  | matchBlockCreate (criteria : Criteria) (pattern position : String) :
    WellTyped (.matchBlockCreate ⟨criteria, .text pattern, .text position⟩)
  | matchParamSet (criteria : Criteria) (pattern position directive : String) (value : Directive) :
    WellTyped (.matchParamSet ⟨criteria, .text pattern, .text position⟩ (.text directive) value.toValue)

/-- What an operation asks its collaborator for. -/
inductive Asks : Operation → Call → Prop
  | pamAllow (kind : SubjectKind) (subject origin permission position : String) :
    Asks (.pamAllow kind (.text subject) (.text origin) (.text permission) (.text position)) {
      kind := .pamAllow
      arguments := [.text kind.word, .text subject, .text origin, .text permission, .text position] }
  | firewallAllow (source label : String) (port : Int) (protocol action : String) :
    Asks (.firewallAllow (.text source) (.text label) (.int port) (.text protocol) (.text action)) {
      kind := .firewallAllow
      arguments := [.int port, .text protocol, .text source, .text action, .text label] }
  | tcpWrapperAllow (address service : String) :
    Asks (.tcpWrapperAllow (.text address) (.text service)) {
      kind := .wrapperAllow
      arguments := [.text service, .text address] }
  | domainAppend (domain : String) (kind : SettingKind) (items : List String) :
    Asks (.domainAppend (.text domain) kind (.tuple (items.map .text))) {
      kind := .appendAllowList
      arguments := [.text domain, .text kind.word, .list (items.map .text)] }
  | matchBlockCreate (criteria : Criteria) (pattern position : String) :
    Asks (.matchBlockCreate ⟨criteria, .text pattern, .text position⟩) {
      kind := .createMatchBlock
      arguments := [.text criteria.word, .text pattern, .text position] }
  | matchParamSet (criteria : Criteria) (pattern position directive : String) (value : Directive) :
    Asks (.matchParamSet ⟨criteria, .text pattern, .text position⟩ (.text directive) value.toValue) {
      kind := .setParameter
      arguments := [.text (criteria.word ++ " " ++ pattern), .text directive, value.listed]
      block := some ⟨criteria, .text pattern, .text position⟩ }

variable {op : Operation} {call : Call}

theorem WellTyped.exists_asks (h : op.WellTyped) : ∃ call, op.Asks call := by
  cases h <;> exact ⟨_, by constructor⟩

theorem Asks.call_eq (h : op.Asks call) : op.call = .ok call := by
  cases h with
  | matchParamSet _ _ _ _ value => cases value <;> rfl
  | _ => rfl

/-- Whether an operation is about a Match block of the sshd configuration. -/
def IsSshd (op : Operation) : Prop :=
  op.kind? = some .matchBlockCreate ∨ op.kind? = some .matchParamSet

theorem changesSshd_iff (op : Operation) : op.changesSshd = true ↔ op.IsSshd := by
  cases op <;> simp [changesSshd, header?, IsSshd, kind?]

theorem any_changesSshd_iff (p : Plan) : p.any changesSshd = true ↔ ∃ op ∈ p, op.IsSshd := by
  simp [changesSshd_iff]

end Operation

end AccessPlan
