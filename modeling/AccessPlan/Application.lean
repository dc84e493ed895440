import AccessPlan.Plan

/-!
# Applying a plan

Every operation is one call to a collaborator. The calls are made in order; the first one that is refused
ends the application. After all of them sshd is reloaded once, if a call went to sshd.

* `Plan.applyTo`: the calls that were made, and the number of operations or the fault.
* `Recorder.apply`: the same with a recorder in place of all collaborators.
-/

set_option autoImplicit false

namespace AccessPlan

/-- What a collaborator can be asked to do. -/
inductive CallKind where
  | pamAllow
  | firewallAllow
  | wrapperAllow
  | appendAllowList
  | createMatchBlock
  | setParameter
  | reload
  deriving DecidableEq, Repr

namespace CallKind

/-- All kinds of call. -/
def all : List CallKind :=
  [pamAllow, firewallAllow, wrapperAllow, appendAllowList, createMatchBlock, setParameter, reload]

/-- The name of a kind of call: the collaborator and what it does. -/
def name : CallKind → String
  | .pamAllow => "pam.allow"
  | .firewallAllow => "firewall.allow"
  | .wrapperAllow => "tcpwrapper.allow"
  | .appendAllowList => "directory.append_allow_list"
  | .createMatchBlock => "sshd.create_match_block"
  | .setParameter => "sshd.set_parameter"
  | .reload => "sshd.reload"

end CallKind

/-- A call to a collaborator. -/
structure Call where
  kind : CallKind
  arguments : List Value
  /-- The header of the block that a parameter is set in, which goes along with the arguments. -/
  block : Option Header := none

/-- The call that makes sshd read its configuration again. -/
def Call.reload : Call where
  kind := .reload
  arguments := []

namespace Operation

/-- The call that an operation stands for. A foreign object stands for none. -/
def call : Operation → Outcome Call
  | .pamAllow kind subject origin permission position =>
    pure { kind := .pamAllow, arguments := [.text kind.word, subject, origin, permission, position] }
  | .firewallAllow source label port protocol action =>
    pure { kind := .firewallAllow, arguments := [port, protocol, source, action, label] }
  | .tcpWrapperAllow address service =>
    pure { kind := .wrapperAllow, arguments := [service, address] }
  | .domainAppend domain kind items => do
    pure { kind := .appendAllowList, arguments := [domain, .text kind.word, .list (← items.items)] }
  | .matchBlockCreate header =>
    pure {
      kind := .createMatchBlock
      arguments := [.text header.criteria.word, header.pattern, header.position] }
  | .matchParamSet block directive value => do
    let value := match value with
      | .tuple items => .list items
      | v => v
    pure {
      kind := .setParameter
      arguments := [.text (← block.key), directive, value]
      block := some block }
  | .foreign object => .error (.unsupported object.kind)

/-- Whether an operation changes the sshd configuration. -/
def changesSshd (op : Operation) : Bool := op.header?.isSome

end Operation

/-- How the collaborators answer a call, given the calls before it: a refusal, or none. -/
abbrev Crew := List Call → Call → Option Fault

/-- The course of an application. -/
structure Course where
  /-- The calls that were accepted, in order. -/
  accepted : List Call
  /-- The call that was refused. -/
  refused : Option Call
  /-- The number of operations, or the fault that ended the application. -/
  result : Outcome Nat

namespace Course

/-- All calls that were made. -/
def calls (c : Course) : List Call := c.accepted ++ c.refused.toList

end Course

/-- Makes one call after the calls before it, and goes on with `next` if it is accepted. -/
def Crew.ask (crew : Crew) (before : List Call) (call : Call) (next : List Call → Course) : Course :=
  match crew before call with
  | some f => ⟨before, some call, .error f⟩
  | none => next (before ++ [call])

namespace Plan

/-- The end of an application of `count` operations: sshd is reloaded if its configuration has changed. -/
def finish (crew : Crew) (changed : Bool) (count : Nat) (before : List Call) : Course :=
  let done (before : List Call) : Course := ⟨before, none, .ok count⟩
  if changed then crew.ask before .reload done else done before

/-- Applies operations after the calls before them. There were `count` operations so far, and `changed` says
whether one of them has changed the sshd configuration. -/
def applyFrom (crew : Crew) (changed : Bool) (count : Nat) (before : List Call) : Plan → Course
  | [] => finish crew changed count before
  | op :: rest => match op.call with
    | .error f => ⟨before, none, .error f⟩
    | .ok call => crew.ask before call fun before =>
      applyFrom crew (op.changesSshd || changed) (count + 1) before rest

/-- Applies a plan, and reloads sshd at the end if an operation has changed its configuration. -/
def applyTo (crew : Crew) (p : Plan) : Course := applyFrom crew false 0 [] p

end Plan

/-! ## Recording -/

/-- A call as it is written down: its name and its arguments. -/
def Call.noted (c : Call) : Call := { c with block := none }

/-- A stand-in for all collaborators that writes down what it is asked. -/
structure Recorder where
  /-- The calls, without the reloads. -/
  calls : List Call
  reloads : Nat

/-- A place at which a recorder refuses: the call of a kind that comes after a number of others. -/
structure FailPoint where
  kind : CallKind
  after : Nat
  message : String

namespace Recorder

/-- A recorder that was asked nothing yet. -/
def empty : Recorder := ⟨[], 0⟩

/-- Writes calls down, without the headers that go along with them. -/
def record (r : Recorder) (calls : List Call) : Recorder where
  calls := r.calls ++ (calls.filter (·.kind != .reload)).map Call.noted
  reloads := r.reloads + (calls.filter (·.kind == .reload)).length

/-- Accepts every call, except the one at the fail point. -/
def crew (failure : Option FailPoint) : Crew := fun before call =>
  failure.bind fun p =>
    if call.kind == p.kind && (before.filter (·.kind == p.kind)).length == p.after then
      some (.refused p.message)
    else none

/-- Applies a plan and writes the accepted calls down. -/
def apply (r : Recorder) (failure : Option FailPoint) (p : Plan) : Recorder × Outcome Nat :=
  let course := p.applyTo (crew failure)
  (r.record course.accepted, course.result)

/-- Applies named plans in order, down to the first that fails. -/
def applyAll (r : Recorder) : List (String × Plan) → Outcome (Recorder × List (String × Nat))
  | [] => pure (r, [])
  | (name, p) :: rest => do
    let (r, result) := r.apply none p
    let count ← result
    let (r, counts) ← r.applyAll rest
    pure (r, (name, count) :: counts)

end Recorder

end AccessPlan
