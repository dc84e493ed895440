import AccessPlan.Catalogue
import AccessPlan.Directives
import AccessPlan.Plan
import AccessPlan.Request
import AccessPlan.Settings

/-!
# Compiling a request

The plan of a request holds, in this order, a PAM rule for every subject and host, a firewall rule and a
wrapper rule for every host, the appends to every identity domain, and for each Match block its creation,
unless it is known already, and its directives.

* `Settings.compile`: the plan of a draft, and how often the source of domains was asked.
* `Settings.compileEach`: the plans of drafts in a row, each of which knows the blocks of those before it.
-/

set_option autoImplicit false

namespace AccessPlan

/-- Where the catalogue of identity domains comes from. -/
inductive DomainSource where
  /-- A value given outright. -/
  | given (catalogue : Value)
  /-- Somebody who is asked for it, and who may fail. -/
  | provider (answer : Outcome Value)

/-- A value as an integer: a fraction is cut off, and a text has to be a numeral. -/
def Value.toInteger : Value → Outcome Int
  | .bool b => pure (if b then 1 else 0)
  | .int i => pure i
  | .float (.nan _) => misuse .notANumber
  | .float (.infinite _) => misuse .infinite
  | .float x => orMisuse .notANumber x.truncate?
  | .text s => orMisuse .badNumeral (Numeral.integer? 10 s.toList)
  | .bytes bs => orMisuse .badNumeral (Numeral.integerOfBytes? bs)
  | _ => misuse .notNumeric

namespace Draft

/-- The hosts one by one. -/
def hostItems (d : Draft) : Outcome (List Value) := do (← d.hostValue).items

/-- The PAM rules for one kind of subject: for each subject in order, one for each host in order. Without
subjects the hosts are not looked at. -/
def grants (s : Settings) (d : Draft) (kind : SubjectKind) (subjects : Value) : Outcome Plan := do
  let subjects ← subjects.items
  if subjects.isEmpty then pure []
  else
    let hosts ← d.hostItems
    pure <| subjects.flatMap fun subject => hosts.map fun host =>
      .pamAllow kind subject host (s.read "pam.permission") (s.read "pam.position")

/-- The PAM rules: those of the groups, then those of the users. -/
def pamRules (s : Settings) (d : Draft) : Outcome Plan := do
  pure ((← d.grants s .group d.groups) ++ (← d.grants s .user d.users))

/-- The firewall rule for a host: its label is made first, then its port is read. -/
def firewallRule (s : Settings) (d : Draft) (host : Value) : Outcome Operation := do
  let template ← orMisuse .notTemplate (s.read "firewall.label_format").text?
  let label ← Label.render s.members template ⟨d.name, host⟩
  let port ← (s.read "firewall.port").toInteger
  pure <| .firewallAllow host (.text label) (.int port) (s.read "firewall.protocol")
    (s.read "firewall.action")

/-- The firewall rules, one for each host in order. -/
def firewallRules (s : Settings) (d : Draft) : Outcome Plan := do
  (← d.hostItems).mapM (d.firewallRule s)

/-- The wrapper rules, one for each host in order. -/
def wrapperRules (s : Settings) (d : Draft) : Outcome Plan := do
  pure <| (← d.hostItems).map fun host => .tcpWrapperAllow host (s.read "tcpwrapper.service")

/-- The Match blocks. -/
def matchBlocks (s : Settings) (d : Draft) : Outcome (List MatchBlock) := do
  let hosts ← (← d.hostValue).texts
  let buckets := Host.classify hosts
  let parameters ← Directives.merge d.overrides d.users d.groups
  MatchBlock.synthesize (.list (buckets.names.map .text)) (.list (buckets.addresses.map .text))
    (.map parameters) (s.read "sshd.match_position")

end Draft

namespace MatchBlock

/-- The value of a directive in a plan: a list becomes a tuple. -/
def parameterValue : Value → Value
  | .list items => .tuple items
  | v => v

/-- The operations for a block: its creation, if wanted, and its directives in order. -/
def operations (b : MatchBlock) (create : Bool) : Plan :=
  (if create then [.matchBlockCreate b.header] else []) ++
    b.parameters.map fun e => .matchParamSet b.header e.1 (parameterValue e.2)

end MatchBlock

/-- The keys of the blocks that are known. Each has to be a value that may be a key. -/
def knownKeys (existing : Value) : Outcome (List Value) := do
  let keys ← existing.items
  if keys.all Value.isKey then pure keys else misuse .notKey

namespace Draft

/-- The operations for the Match blocks; a block that is known is not created again. -/
def matchRules (s : Settings) (d : Draft) (existing : Value) : Outcome Plan := do
  let blocks ← d.matchBlocks s
  let known ← knownKeys existing
  pure <| blocks.flatMap fun b => b.operations !(known.any (Value.same (.text b.key)))

/-- The plan of a draft that allows somebody, for a catalogue of domains. -/
def plan (s : Settings) (d : Draft) (catalogue existing : Value) : Outcome Plan := do
  let pam ← d.pamRules s
  let firewall ← d.firewallRules s
  let wrapper ← d.wrapperRules s
  let domains ← Catalogue.expand catalogue d.users d.groups
  let blocks ← d.matchRules s existing
  pure (pam ++ firewall ++ wrapper ++ domains ++ blocks)

end Draft

/-- The result of a compilation, and how often the provider of domains was asked. -/
structure Compiled where
  result : Outcome Plan
  providerReads : Nat

/-- The catalogue that a value given outright stands for: the empty one, if it is not present. -/
def catalogueOf (given : Value) : Value := given.orElse (.text "")

/-- Compiles a draft. A draft that allows nobody is refused before anybody is asked for domains. -/
def Settings.compile (s : Settings) (d : Draft) (source : DomainSource) (existing : Value) :
    Compiled :=
  match d.checkSubjects with
  | .error f => ⟨.error f, 0⟩
  | .ok () => match source with
    | .given v => ⟨d.plan s (catalogueOf v) existing, 0⟩
    | .provider answer => ⟨do d.plan s (← answer) existing, 1⟩

/-- Compiles requests in order, each with a source of domains of its own. Each finds known, besides the keys
given at the start, the keys of the blocks that were created before it. -/
def Settings.compileEach (s : Settings) :
    List Value → List (Draft × DomainSource) → Outcome (List Plan)
  | _, [] => pure []
  | known, (d, source) :: rest => do
    let plan ← (s.compile d source (.list known)).result
    let created ← plan.createdKeys
    pure (plan :: (← s.compileEach (known ++ created.map .text) rest))

/-- Compiles requests in order with one source of domains. -/
def Settings.compileAll (s : Settings) (source : DomainSource) (known : List Value)
    (ds : List Draft) : Outcome (List Plan) :=
  s.compileEach known (ds.map fun d => (d, source))

end AccessPlan
