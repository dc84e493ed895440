import AccessPlan.Operation
import AccessPlan.Text.Blank
import AccessPlan.Text.Split

/-!
# Identity domains

A catalogue is a text that lists identity domains between commas; blanks anywhere in it mean nothing and
empty places are dropped. `Catalogue.expand` appends users and groups to the allow lists of every domain.
-/

set_option autoImplicit false

namespace AccessPlan.Catalogue

/-- The domains of a catalogue text. -/
def parse (raw : String) : List String :=
  (Text.split ',' (String.ofList (raw.toList.filter fun c => !Text.isBlank c))).filter (· != "")

/-- The domains of a catalogue that may be absent: any value that is not present lists none. -/
def domains (catalogue : Value) : Outcome (List String) :=
  if catalogue.isPresent then do pure (parse (← orMisuse .notText catalogue.text?)) else pure []

/-- The append of one kind of subject to one domain, if there are subjects. -/
def appends (kind : SettingKind) (subjects : Value) (domain : String) : Outcome (List Operation) :=
  if subjects.isPresent then do
    pure [.domainAppend (.text domain) kind (.tuple (← subjects.items))]
  else pure []

/-- For each domain in order, the append of the users and then that of the groups. -/
def expand (catalogue users groups : Value) : Outcome (List Operation) := do
  let perDomain ← (← domains catalogue).mapM fun domain => do
    pure ((← appends .allowUsers users domain) ++ (← appends .allowGroups groups domain))
  pure perDomain.flatten

/-- What a fixed catalogue answers: its text, or the empty one if it was made without. -/
def fixed (raw : Value) : Value := raw.orElse (.text "")

@[simp] theorem domains_text (raw : String) : domains (.text raw) = .ok (parse raw) := by
  unfold domains
  split
  · rfl
  · next h =>
    have : raw = "" := by simpa [Value.isPresent] using h
    subst this
    rfl

end AccessPlan.Catalogue
