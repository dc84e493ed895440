import AccessPlan.Fault

/-!
# Tokens

The tokens of a YAML text. The starts and ends of block collections are not written: they follow from
indentation. A key that is not marked becomes one when its colon is found.
-/

set_option autoImplicit false

namespace AccessPlan.Yaml

/-- A directive before a document. -/
inductive Directive where
  | version (major : Nat)
  | tag (handle start : String)
  | other
  deriving DecidableEq, Repr

/-- A token of a YAML text. -/
inductive Token where
  | directive (d : Directive)
  | documentStart
  | documentEnd
  | streamEnd
  | blockSequenceStart
  | blockMappingStart
  | blockEnd
  | flowSequenceStart
  | flowSequenceEnd
  | flowMappingStart
  | flowMappingEnd
  | blockEntry
  | flowEntry
  | key
  | value
  | alias (name : String)
  | anchor (name : String)
  | tag (handle : Option String) (suffix : String)
  /-- `plain` if it stands without quotes and is no block. -/
  | scalar (text : String) (plain : Bool)
  deriving DecidableEq, Repr

end AccessPlan.Yaml
