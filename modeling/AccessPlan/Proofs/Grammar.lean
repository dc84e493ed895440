import AccessPlan.Proofs.Valid
import Mathlib.Data.List.Forall2

/-!
# The grammar of requests

What arguments make a request, said without the validator: relations between the value of each field and what
it becomes in the request. `Request.IsFormOf` puts them together, and `Request.Accepted` says which arguments
have such a form.

* `Value.spells_iff`: which values are texts.
* `Request.checkName_iff`, `Request.checkHosts_iff`, `Request.checkSubjectList_iff`: the checks of these
  fields agree with the grammar.
-/

set_option autoImplicit false

namespace AccessPlan

/-! ## The grammar -/

namespace Value

/-- A value that spells a text: the text, or its bytes. -/
inductive Spells : Value → String → Prop
  | text (s : String) : Spells (.text s) s
  | utf8 (s : String) : Spells (.bytes s.toUTF8.data.toList) s

/-- A value that lists values. -/
inductive Lists : Value → List Value → Prop
  | list (vs : List Value) : Lists (.list vs) vs
  | tuple (vs : List Value) : Lists (.tuple vs) vs
  | set (vs : List Value) : Lists (.set vs) vs

/-- A value that stands for one word of a directive. -/
inductive IsWord : Value → String → Prop
  | text {v : Value} {s : String} : v.Spells s → IsWord v s
  | yes : IsWord (.bool true) "yes"
  | no : IsWord (.bool false) "no"
  | int (i : Int) : i.natAbs < Nat.pow 10 Numeral.maxDigits → IsWord (.int i) (toString i)
  | float (x : Binary64) : IsWord (.float x) x.text

/-- A value that stands for a directive: one word, or several. The items of a set have to be texts. -/
inductive IsDirective : Value → Directive → Prop
  | word {v : Value} {s : String} : v.IsWord s → IsDirective v (.word s)
  | list {vs : List Value} {ss : List String} :
    List.Forall₂ IsWord vs ss → IsDirective (.list vs) (.words ss)
  | tuple {vs : List Value} {ss : List String} :
    List.Forall₂ IsWord vs ss → IsDirective (.tuple vs) (.words ss)
  | set {vs : List Value} {ss : List String} :
    List.Forall₂ Spells vs ss → IsDirective (.set vs) (.words ss)

end Value

namespace Request

/-- The name of a request, from the value of its field. -/
inductive NameOf : Option Value → String → Prop
  | default : NameOf none "sshd"
  | given {v : Value} {s : String} : v.Spells s → s ≠ "" → NameOf (some v) s

/-- The entries of a field that holds texts: a text is an entry by itself. -/
inductive Entries : Value → List String → Prop
  | one (s : String) : Entries (.text s) [s]
  | many {v : Value} {vs : List Value} {ss : List String} :
    v.Lists vs → List.Forall₂ Value.Spells vs ss → Entries v ss

/-- The hosts: the entries as they are, at least one and none of them empty. -/
inductive HostsOf : Option Value → List String → Prop
  | given {v : Value} {ss : List String} : Entries v ss → ss ≠ [] → "" ∉ ss → HostsOf (some v) ss

/-- Users or groups, with repeats. -/
inductive SubjectsOf : Option Value → List String → Prop
  | absent : SubjectsOf none []
  | null : SubjectsOf (some .null) []
  | given {v : Value} {ss : List String} : Entries v ss → SubjectsOf (some v) ss

/-- Directives `fs` that keep the order in which their names first come in `es`, and of equal names the last
value. -/
structure LastWins (es fs : List (String × Directive)) : Prop where
  names : fs.map Prod.fst = (es.map Prod.fst).eraseDups
  values : ∀ name, fs.lookup name = es.reverse.lookup name

/-- An entry of a mapping that stands for a directive under a name. -/
def IsEntry (e : Value × Value) (f : String × Directive) : Prop :=
  e.1.Spells f.1 ∧ e.2.IsDirective f.2

/-- The directives: none, or those of a mapping under one of the names that they may have. -/
inductive OverridesOf (fields : Fields) : List (String × Directive) → Prop
  | absent : (∀ name ∈ overrideNames, fields.lookup name = none) → OverridesOf fields []
  | given {name : String} {m : Mapping} {es fs : List (String × Directive)} :
    name ∈ overrideNames → fields.lookup name = some (.map m) →
    (∀ other ∈ overrideNames, other ≠ name → fields.lookup other = none) →
    List.Forall₂ IsEntry m es → LastWins es fs → OverridesOf fields fs

/-- The names that the fields of a request may have. -/
def fieldNames : List String := ["name", "hostlist", "users", "groups"] ++ overrideNames

/-- Named values as arguments. -/
def argumentsOf (fields : Fields) : Mapping := fields.map fun f => (.text f.1, f.2)

/-- A request that is the form of named values. -/
structure IsFormOf (r : Request) (fields : Fields) : Prop where
  name : NameOf (fields.lookup "name") r.name
  hosts : HostsOf (fields.lookup "hostlist") r.hosts
  users : ∃ ss, SubjectsOf (fields.lookup "users") ss ∧ r.users = ss.eraseDups
  groups : ∃ ss, SubjectsOf (fields.lookup "groups") ss ∧ r.groups = ss.eraseDups
  somebody : r.users ≠ [] ∨ r.groups ≠ []
  overrides : OverridesOf fields r.overrides
  known : ∀ f ∈ fields, f.1 ∈ fieldNames

/-- Named values that make a request. -/
structure Accepted (fields : Fields) : Prop where
  name : ∃ s, NameOf (fields.lookup "name") s
  hosts : ∃ ss, HostsOf (fields.lookup "hostlist") ss
  subjects : ∃ users groups, SubjectsOf (fields.lookup "users") users ∧
    SubjectsOf (fields.lookup "groups") groups ∧ (users ≠ [] ∨ groups ≠ [])
  overrides : (∀ name ∈ overrideNames, fields.lookup name = none) ∨
    ∃ name ∈ overrideNames, ∃ m, fields.lookup name = some (.map m) ∧
      (∀ other ∈ overrideNames, other ≠ name → fields.lookup other = none) ∧
      ∀ e ∈ m, (∃ s, e.1.Spells s) ∧ ∃ d, e.2.IsDirective d
  known : ∀ f ∈ fields, f.1 ∈ fieldNames

end Request

/-! ## Texts -/

namespace Value

theorem fromUTF8?_eq_some_iff {b : ByteArray} {s : String} :
    String.fromUTF8? b = some s ↔ b = s.toUTF8 := by
  unfold String.fromUTF8?
  constructor
  · intro h
    split at h
    · cases h
      rfl
    · cases h
  · rintro rfl
    rw [String.toUTF8_eq_toByteArray, dif_pos s.isValidUTF8]
    rfl

theorem spells_iff {v : Value} {s : String} : v.Spells s ↔ v.content = .ok s := by
  cases v with
  | text t =>
    constructor
    · rintro ⟨⟩
      rfl
    · intro h
      cases h
      exact .text _
  | bytes bs =>
    constructor
    · rintro ⟨⟩
      have hs : String.fromUTF8? ⟨s.toUTF8.data.toList.toArray⟩ = some s := by
        rw [fromUTF8?_eq_some_iff, Array.toArray_toList]
      simp only [content, hs]
    · intro h
      simp only [content] at h
      split at h
      · rename_i t ht
        cases h
        have hs := Spells.utf8 s
        rwa [← fromUTF8?_eq_some_iff.1 ht] at hs
      · cases h
  | _ => exact ⟨nofun, nofun⟩

theorem lists_iff {v : Value} {vs : List Value} : v.Lists vs ↔ v.sequence? = some vs := by
  constructor
  · rintro ⟨⟩ <;> rfl
  · intro h
    cases v with
    | list | tuple | set => cases h; constructor
    | _ => cases h

/-- As a sequence, a value holds texts if it is nothing, or if it has entries. -/
theorem exists_asSequence_iff {v : Value} {ss : List String} :
    (∃ vs, v.asSequence.Lists vs ∧ List.Forall₂ Spells vs ss) ↔
      (v = .null ∧ ss = []) ∨ Request.Entries v ss := by
  constructor
  · rintro ⟨vs, hv, hs⟩
    cases v with
    | null =>
      cases hv
      cases hs
      exact .inl ⟨rfl, rfl⟩
    | text t =>
      cases hv
      obtain ⟨_, _, ⟨⟩, ⟨⟩, rfl⟩ := List.forall₂_cons_left_iff.1 hs
      exact .inr (.one t)
    | _ => exact .inr (.many hv hs)
  · rintro (⟨rfl, rfl⟩ | h)
    · exact ⟨[], .tuple [], .nil⟩
    · cases h with
      | one s => exact ⟨[.text s], .tuple _, .cons (.text s) .nil⟩
      | many hv hs =>
        refine ⟨_, ?_, hs⟩
        cases hv <;> constructor

end Value

namespace Request

/-- The items of a sequence pass exactly if each of them spells a text. -/
theorem checkItems_iff (place : List Step) (n : Nat) {vs : List Value} {ss : List String} :
    checkItems place n vs = (ss, []) ↔ List.Forall₂ Value.Spells vs ss := by
  induction vs generalizing n ss with
  | nil => simp [checkItems, eq_comm]
  | cons v vs ih =>
    rw [checkItems, List.forall₂_cons_left_iff]
    cases hv : v.content with
    | error r =>
      constructor
      · intro h
        cases (Prod.mk.inj h).2
      · rintro ⟨s, ss', hs, -, -⟩
        cases hv.symm.trans (Value.spells_iff.1 hs)
    | ok s =>
      have hs := Value.spells_iff.2 hv
      constructor
      · intro h
        obtain ⟨rfl, hf⟩ := Prod.mk.inj h
        exact ⟨s, _, hs, (ih (n + 1)).1 (Prod.ext rfl hf), rfl⟩
      · rintro ⟨s', ss', hs', hss, rfl⟩
        cases hv.symm.trans (Value.spells_iff.1 hs')
        rw [(ih (n + 1)).2 hss]

theorem barring_iff {α : Type} {findings : List Finding} {a b : α} :
    barring findings a = .ok b ↔ findings = [] ∧ a = b := by
  constructor
  · exact barring_ok
  · rintro ⟨rfl, rfl⟩
    rfl

theorem checkTexts_iff {place : List Step} {v : Value} {ss : List String} :
    checkTexts place v = .ok ss ↔ ∃ vs, v.Lists vs ∧ List.Forall₂ Value.Spells vs ss := by
  unfold checkTexts
  cases hv : v.sequence? with
  | none => simp [Value.lists_iff, hv]
  | some items =>
    have hi : checkItems place 0 items = (ss, []) ↔ _ := checkItems_iff place 0
    simp only [Value.lists_iff, hv, Option.some.injEq, exists_eq_left', ← hi, barring_iff,
      Prod.ext_iff]
    exact and_comm

/-! ## Fields -/

theorem checkName_iff {o : Option Value} {s : String} : checkName o = .ok s ↔ NameOf o s := by
  cases o with
  | none =>
    constructor
    · intro h
      cases h
      exact .default
    · rintro ⟨⟩
      rfl
  | some v =>
    constructor
    · intro h
      have hne := checkName_ne h
      simp only [checkName] at h
      split at h
      · rename_i t ht
        split at h
        · cases h
        · cases h
          exact .given (Value.spells_iff.2 ht) hne
      · cases h
    · intro h
      cases h with
      | given hs hne => simp [checkName, Value.spells_iff.1 hs, hne]

theorem checkHosts_iff {o : Option Value} {ss : List String} :
    checkHosts o = .ok ss ↔ HostsOf o ss := by
  cases o with
  | none => exact ⟨nofun, nofun⟩
  | some v =>
    constructor
    · intro h
      obtain ⟨hne, hc⟩ := checkHosts_ok h
      simp only [checkHosts] at h
      split at h
      · cases h
      · rename_i items hi
        split at h
        · rename_i hf
          split at h
          · cases h
          · cases h
            have hs := (checkItems_iff _ _).1 (Prod.ext rfl (List.append_eq_nil_iff.1 hf).1)
            have hv := Value.exists_asSequence_iff.1 ⟨items, Value.lists_iff.2 hi, hs⟩
            exact .given (hv.resolve_left fun hn => hne hn.2) hne hc
        · cases h
    · intro h
      cases h with
      | given he hne hc =>
        obtain ⟨items, hi, hs⟩ := Value.exists_asSequence_iff.2 (.inr he)
        have hi := Value.lists_iff.1 hi
        have hs := (checkItems_iff [.name "hostlist"] 0).2 hs
        simp [checkHosts, hi, hs, hne, hc]

theorem firstSeen_filter (p : String → Bool) (ss : List String) :
    firstSeen (ss.filter p) = (firstSeen ss).filter p := by
  induction ss with
  | nil => rfl
  | cons s ss ih =>
    by_cases hs : p s
    · simp [firstSeen, hs, ih, List.filter_filter, Bool.and_comm]
    · rw [List.filter_cons_of_neg hs, firstSeen, List.filter_cons_of_neg hs, ih, List.filter_filter]
      refine List.filter_congr fun t _ => ?_
      by_cases ht : t = s
      · simp [ht, hs]
      · simp [ht]

theorem firstSeen_eq_eraseDups : ∀ ss : List String, firstSeen ss = ss.eraseDups
  | [] => rfl
  | s :: ss => by
    rw [firstSeen, List.eraseDups_cons, ← firstSeen_eq_eraseDups (ss.filter _), firstSeen_filter]
    rfl
termination_by ss => ss.length
decreasing_by exact Nat.lt_succ_of_le (List.length_filter_le _ ss)

theorem checkTexts_asSequence_iff (place : List Step) {v : Value} {ss : List String} :
    checkTexts place v.asSequence = .ok ss ↔ SubjectsOf (some v) ss := by
  rw [checkTexts_iff, Value.exists_asSequence_iff]
  constructor
  · rintro (⟨rfl, rfl⟩ | he)
    · exact .null
    · exact .given he
  · intro h
    cases h with
    | null => exact .inl ⟨rfl, rfl⟩
    | given he => exact .inr he

theorem checkSubjectList_iff {name : String} {o : Option Value} {ss : List String} :
    checkSubjectList name o = .ok ss ↔ ∃ ts, SubjectsOf o ts ∧ ss = ts.eraseDups := by
  cases o with
  | none =>
    constructor
    · intro h
      cases h
      exact ⟨[], .absent, rfl⟩
    · rintro ⟨ts, ⟨⟩, rfl⟩
      rfl
  | some v =>
    simp only [checkSubjectList, ← checkTexts_asSequence_iff [.name name]]
    cases checkTexts [.name name] v.asSequence with
    | error fs =>
      constructor
      · intro h
        cases h
      · rintro ⟨ts, ⟨⟩, -⟩
    | ok ts =>
      constructor
      · intro h
        cases h
        exact ⟨ts, rfl, firstSeen_eq_eraseDups ts⟩
      · rintro ⟨_, ⟨⟩, rfl⟩
        exact congrArg Except.ok (firstSeen_eq_eraseDups ts)

end Request

end AccessPlan
