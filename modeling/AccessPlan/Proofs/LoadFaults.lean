import AccessPlan.Proofs.Accepting
import AccessPlan.Proofs.RequestForms

/-!
# How loading fails

A request file that holds a value is refused with a report, of the file or of a request in it, or loading breaks
off without one. The latter is a misuse, and there are four ways to it: the key of an entry or the name of a
request that cannot be written, a field under a key that the builder does not take, and directives that are never
put into words, for a list among them holds itself.

* `Request.build_misuse_iff`: the arguments with which building breaks off, `Request.BreaksOff`.
* `Request.loadAll_misuse_iff`: the entries with which loading breaks off, `Request.Misused`.
* `Request.load_refusals`: all faults of a file that holds a value, however it is read.
-/

set_option autoImplicit false

namespace AccessPlan

/-- A fault with a report that a request file, or a request, is refused. -/
def Fault.IsReported (fault : Fault) : Prop :=
  ∃ report, fault.report? = some report ∧ (report.kind = .requestFile ∨ report.kind = .validation)

/-- A key under which the builder takes no argument: it is no text, or a name that the builder uses itself. -/
def Value.IsBarred (key : Value) : Prop := ∀ s, key = .text s → s = "self" ∨ s = "cls"

@[simp] theorem Value.isBarred_text_iff {s : String} : (Value.text s).IsBarred ↔ s = "self" ∨ s = "cls" :=
  ⟨fun h => h s rfl, fun h _ hs => Value.text.inj hs ▸ h⟩

/-! ## Arguments -/

namespace Mapping

theorem fields?_eq_none_iff {m : Mapping} : m.fields? = none ↔ ∃ e ∈ m, e.1.text? = none := by
  induction m with
  | nil => simp [fields?]
  | cons e m ih =>
    rw [List.exists_mem_cons_iff, ← ih]
    unfold fields?
    rw [List.mapM_cons]
    cases e.1.text? with
    | none => simp
    | some name =>
      cases m.mapM fun e => e.1.text?.map fun name => (name, e.2) <;> simp

theorem eq_argumentsOf {m : Mapping} {fields : Request.Fields} (h : m.fields? = some fields) :
    m = Request.argumentsOf fields := by
  unfold fields? at h
  rw [mapM_some_iff] at h
  induction h with
  | nil => rfl
  | cons he _ ih =>
    obtain ⟨name, hname, rfl⟩ := Option.map_eq_some_iff.1 he
    rw [ih]
    unfold Request.argumentsOf
    rw [List.map_cons, ← Value.text?_eq_some hname]

/-- The directives among arguments stand under the first of the names for them that is there. -/
def overrides? (m : Mapping) : Option Value := Request.overrideNames.findSome? (getText? m)

/-- Arguments whose directives are never put into words. -/
def HasEndlessOverrides (m : Mapping) : Prop := ∃ entries, m.overrides? = some (.map entries) ∧ Endless entries

theorem overrides?_put_of_notMem {m : Mapping} {key : String} (h : key ∉ Request.overrideNames) (v : Value) :
    overrides? (put m (.text key) v) = overrides? m := by
  have hget : ∀ name ∈ Request.overrideNames, getText? (put m (.text key) v) name = getText? m name := by
    intro name hname
    refine getText?_put_of_ne (fun hk => h ?_) m v
    rw [Value.text.inj hk]
    exact hname
  simp only [Request.overrideNames, List.forall_mem_cons] at hget
  obtain ⟨h1, h2, h3, -⟩ := hget
  simp only [overrides?, Request.overrideNames, List.findSome?_cons, h1, h2, h3]
  rfl

/-- Writing a value adds no key but the one that it is written under. -/
theorem key_of_mem_put {m : Mapping} {key v : Value} {e : Value × Value} (h : e ∈ put m key v) :
    e.1 = key ∨ ∃ e' ∈ m, e'.1 = e.1 := by
  have hk : e.1 ∈ keys (put m key v) := List.mem_map_of_mem h
  rw [keys_put] at hk
  split at hk
  · exact .inr (List.mem_map.1 hk)
  · rcases List.mem_append.1 hk with hk | hk
    · exact .inr (List.mem_map.1 hk)
    · exact .inl (List.mem_singleton.1 hk)

end Mapping

namespace Request

/-- How building breaks off: at an argument under a barred key, or else at the directives. -/
inductive BreaksOff (arguments : Mapping) : Misuse → Prop
  | barred {e : Value × Value} : e ∈ arguments → e.1.IsBarred → BreaksOff arguments .badArguments
  | endless : (∀ e ∈ arguments, ¬ e.1.IsBarred) → arguments.HasEndlessOverrides →
    BreaksOff arguments .endless

section
variable {arguments : Mapping} {fields : Fields}

/-- The directives of the fields are those among the arguments. -/
theorem map_snd_overridesOf (hf : arguments.fields? = some fields) :
    (overridesOf fields).map Prod.snd = arguments.overrides? := by
  simp only [overridesOf, Mapping.overrides?, overrideNames, List.findSome?_cons, List.findSome?_nil,
    Mapping.lookup_fields? hf]
  cases Mapping.getText? arguments "sshd_overrides" with
  | some v => rfl
  | none =>
    cases Mapping.getText? arguments "sshdOverrides" with
    | some v => rfl
    | none => cases Mapping.getText? arguments "sshd_options" <;> rfl

theorem isEndless_iff_of_fields? (hf : arguments.fields? = some fields) :
    isEndless fields = true ↔ arguments.HasEndlessOverrides := by
  rw [isEndless_iff, Mapping.HasEndlessOverrides, ← map_snd_overridesOf hf]
  constructor
  · rintro ⟨name, m, hm, hend⟩
    exact ⟨m, by rw [hm]; rfl, hend⟩
  · rintro ⟨m, hm, hend⟩
    obtain ⟨⟨name, _⟩, hm, rfl⟩ := Option.map_eq_some_iff.1 hm
    exact ⟨name, m, hm, hend⟩

theorem any_reserved_iff (hf : arguments.fields? = some fields) :
    (fields.any fun f => Route.builder.reserved.contains f.1) = true ↔ ∃ e ∈ arguments, e.1.IsBarred := by
  rw [Mapping.eq_argumentsOf hf]
  simp [-Prod.exists, argumentsOf, Route.reserved]

theorem build_of_barred {e : Value × Value} (he : e ∈ arguments) (hb : e.1.IsBarred) (label : Option String) :
    build .builder arguments label = .error (.misuse .badArguments) := by
  rw [build_eq]
  cases hf : arguments.fields? with
  | none => rfl
  | some fields =>
    dsimp only
    rw [if_pos ((any_reserved_iff hf).2 ⟨e, he, hb⟩)]
    rfl

/-- Arguments under keys that are not barred are fields, and building goes on with these. -/
theorem build_of_free (h : ∀ e ∈ arguments, ¬ e.1.IsBarred) (label : Option String) :
    ∃ fields, arguments.fields? = some fields ∧
      build .builder arguments label = if isEndless fields then misuse .endless
        else match validate fields with
          | .ok r => pure r
          | .error findings => .error (.rejected findings label) := by
  cases hf : arguments.fields? with
  | none =>
    obtain ⟨e, he, ht⟩ := Mapping.fields?_eq_none_iff.1 hf
    refine absurd (fun s hs => ?_) (h e he)
    rw [hs] at ht
    cases ht
  | some fields =>
    refine ⟨fields, rfl, ?_⟩
    have hany : ¬ (fields.any fun f => Route.builder.reserved.contains f.1) = true := by
      rw [any_reserved_iff hf]
      exact fun ⟨e, he, hb⟩ => h e he hb
    rw [build_eq, hf]
    exact if_neg hany

/-- **How building breaks off.** -/
theorem build_misuse_iff {label : Option String} {m : Misuse} :
    build .builder arguments label = .error (.misuse m) ↔ BreaksOff arguments m := by
  constructor
  · intro h
    by_cases hbarred : ∃ e ∈ arguments, e.1.IsBarred
    · obtain ⟨e, he, hb⟩ := hbarred
      cases h.symm.trans (build_of_barred he hb label)
      exact .barred he hb
    · have hfree : ∀ e ∈ arguments, ¬ e.1.IsBarred := fun e he hb => hbarred ⟨e, he, hb⟩
      obtain ⟨fields, hf, hbuild⟩ := build_of_free hfree label
      rw [hbuild] at h
      split at h
      · next hend =>
        cases h
        exact .endless hfree ((isEndless_iff_of_fields? hf).1 hend)
      · split at h <;> cases h
  · intro h
    cases h with
    | barred he hb => exact build_of_barred he hb label
    | endless hfree hend =>
      obtain ⟨fields, hf, hbuild⟩ := build_of_free hfree label
      rw [hbuild, if_pos ((isEndless_iff_of_fields? hf).2 hend)]
      rfl

end

/-! ## Entries -/

/-- How loading entries breaks off. -/
inductive Misused (path : String) (es : List Listed) : Misuse → Prop
  /-- The first entry that is not sound has a key that cannot be written. -/
  | key {before after : List Listed} {key value : Value} {cs : List Candidate} :
    es = before ++ .named key value :: after → List.Forall₂ Listed.Gives before cs →
    key.spelling? = none → Misused path es .longInteger
  /-- The first candidate that fails has a name that cannot be written. -/
  | name {cs before after : List Candidate} {c : Candidate} :
    List.Forall₂ Listed.Gives es cs → cs = before ++ c :: after → Candidate.Clear path before →
    c.name = none → Misused path es .longInteger
  /-- The first candidate that fails has a new name, and a field under a barred key. -/
  | field {cs before after : List Candidate} {c : Candidate} {name : String} :
    List.Forall₂ Listed.Gives es cs → cs = before ++ c :: after → Candidate.Clear path before →
    c.name = some name → (∀ b ∈ before, b.name ≠ some name) → (∃ e ∈ c.fields, e.1.IsBarred) →
    Misused path es .badArguments
  /-- The first candidate that fails has a new name, no such field, and directives without an end. -/
  | endless {cs before after : List Candidate} {c : Candidate} {name : String} :
    List.Forall₂ Listed.Gives es cs → cs = before ++ c :: after → Candidate.Clear path before →
    c.name = some name → (∀ b ∈ before, b.name ≠ some name) → (∀ e ∈ c.fields, ¬ e.1.IsBarred) →
    c.fields.HasEndlessOverrides → Misused path es .endless

section
variable {path : String} {es : List Listed}

theorem loadAll_misuse_iff {m : Misuse} :
    loadAll path es = .error (.misuse m) ↔ Misused path es m := by
  constructor
  · intro h
    have hloaded := loaded_loadAll path es
    rw [h] at hloaded
    cases hloaded with
    | unsound hes hcs he =>
      cases he with
      | key hk => exact .key hes hcs hk
    | failed hcs hsplit hb hc =>
      cases hc with
      | unspelled hn => exact .name hcs hsplit hb hn
      | misused hn hnew hm =>
        cases build_misuse_iff.1 hm with
        | barred he hbarred => exact .field hcs hsplit hb hn hnew ⟨_, he, hbarred⟩
        | endless hfree hend => exact .endless hcs hsplit hb hn hnew hfree hend
  · intro h
    cases h with
    | key hes hcs hk => exact (Loaded.unsound hes hcs (.key hk)).eq
    | name hcs hsplit hb hn => exact (Loaded.failed hcs hsplit hb (.unspelled hn)).eq
    | field hcs hsplit hb hn hnew hbarred =>
      obtain ⟨e, he, hbarred⟩ := hbarred
      exact (Loaded.failed hcs hsplit hb (.misused hn hnew (build_misuse_iff.2 (.barred he hbarred)))).eq
    | endless hcs hsplit hb hn hnew hfree hend =>
      exact (Loaded.failed hcs hsplit hb (.misused hn hnew (build_misuse_iff.2 (.endless hfree hend)))).eq

theorem Loaded.reported_or_misuse {fault : Fault} (h : Loaded path es (.error fault)) :
    fault.IsReported ∨ ∃ m, fault = .misuse m := by
  cases h with
  | unsound _ _ he =>
    cases he with
    | key => exact .inr ⟨_, rfl⟩
    | named | numbered | unnamed => exact .inl ⟨_, rfl, .inl rfl⟩
  | failed _ _ _ hc =>
    cases hc with
    | unspelled | misused => exact .inr ⟨_, rfl⟩
    | duplicate => exact .inl ⟨_, rfl, .inl rfl⟩
    | rejected => exact .inl ⟨_, rfl, .inr rfl⟩

end

end Request

/-! ## Plain entries -/

/-- Fields none of which stands under a barred key, and whose directives come to an end. -/
structure Mapping.IsPlain (m : Mapping) : Prop where
  free : ∀ e ∈ m, ¬ e.1.IsBarred
  ends : ¬ m.HasEndlessOverrides

/-- An entry whose names can be written, with plain fields. -/
inductive Listed.IsPlain : Listed → Prop
  | named {key value : Value} : key.spelling? ≠ none → (∀ m, value = .map m → Mapping.IsPlain m) →
    IsPlain (.named key value)
  | numbered {i : Nat} {value : Value} : (∀ m, value = .map m →
      (∀ v, Mapping.getText? m "name" = some v → v.spelling? ≠ none) ∧ Mapping.IsPlain m) →
    IsPlain (.numbered i value)

/-- The name of a request may be written into plain fields: its key is not barred, and no name for directives. -/
theorem Mapping.IsPlain.put_name {m : Mapping} (h : m.IsPlain) (v : Value) :
    Mapping.IsPlain (put m (.text "name") v) := by
  constructor
  · intro e he hbarred
    obtain hname | ⟨e', he', hkey⟩ := key_of_mem_put he
    · rw [hname, Value.isBarred_text_iff] at hbarred
      revert hbarred
      decide
    · exact h.free e' he' (hkey ▸ hbarred)
  · unfold HasEndlessOverrides
    rw [overrides?_put_of_notMem (by decide)]
    exact h.ends

/-- A plain entry gives a name and plain fields. -/
theorem Listed.Gives.of_isPlain {e : Listed} {c : Candidate} (h : e.Gives c) (he : e.IsPlain) :
    c.name ≠ none ∧ c.fields.IsPlain := by
  cases h with
  | named hk hn hf =>
    cases he with
    | named _ hfields =>
      rw [hf]
      exact ⟨by simp [hn], (hfields _ rfl).put_name _⟩
  | numbered hm hn hf =>
    cases he with
    | numbered hvalue =>
      obtain ⟨hname, hfields⟩ := hvalue _ rfl
      rw [hn, hf]
      exact ⟨hname _ hm, hfields⟩

theorem Request.Misused.not_isPlain {path : String} {es : List Listed} {m : Misuse}
    (h : Misused path es m) : ¬ ∀ e ∈ es, e.IsPlain := by
  intro hplain
  have hgiven {cs before after : List Candidate} {c : Candidate} (hcs : List.Forall₂ Listed.Gives es cs)
      (hsplit : cs = before ++ c :: after) : c.name ≠ none ∧ c.fields.IsPlain := by
    obtain ⟨e, he, hc⟩ := exists_of_forall₂_mem hcs (y := c) (by simp [hsplit])
    exact hc.of_isPlain (hplain e he)
  cases h with
  | @key before after key value cs hes hcs hk =>
    cases hplain (.named key value) (by simp [hes]) with
    | named hne => exact hne hk
  | name hcs hsplit _ hn => exact (hgiven hcs hsplit).1 hn
  | field hcs hsplit _ _ _ hbarred =>
    obtain ⟨f, hf, hbarred⟩ := hbarred
    exact (hgiven hcs hsplit).2.free f hf hbarred
  | endless hcs hsplit _ _ _ _ hend => exact (hgiven hcs hsplit).2.ends hend

/-! ## Files -/

namespace Request

variable {f : File} {read : File.Reader} {document : Value}

/-- **How loading a file that holds a value fails**: with a report that the file or a request is refused, or
without one exactly if its entries break it off, which plain entries never do. -/
theorem load_refusals (hdoc : f.document (.requestFile f.path .malformed) read = .ok document) :
    (∀ fault, load f read = .error fault → fault.IsReported ∨ ∃ m, fault = .misuse m) ∧
    (∀ m, load f read = .error (.misuse m) ↔ ∃ es, f.Holds read es ∧ Misused f.path es m) ∧
    ((∀ es, f.Holds read es → ∀ e ∈ es, e.IsPlain) →
      ∀ fault, load f read = .error fault → fault.IsReported) := by
  have hcases : ∀ fault, load f read = .error fault → fault.IsReported ∨ ∃ m, fault = .misuse m := by
    intro fault h
    obtain ⟨es, hes⟩ | ⟨problem, hp⟩ := holds_or_refused hdoc
    · have hloaded := loaded_loadAll f.path es
      rw [← load_of_holds hes, h] at hloaded
      exact hloaded.reported_or_misuse
    · cases hp.symm.trans h
      exact .inl ⟨_, rfl, .inl rfl⟩
  have hmisuse (m : Misuse) :
      load f read = .error (.misuse m) ↔ ∃ es, f.Holds read es ∧ Misused f.path es m := by
    constructor
    · intro h
      obtain ⟨es, hes⟩ | ⟨problem, hp⟩ := holds_or_refused hdoc
      · rw [load_of_holds hes] at h
        exact ⟨es, hes, loadAll_misuse_iff.1 h⟩
      · cases hp.symm.trans h
    · rintro ⟨es, hes, hm⟩
      rw [load_of_holds hes]
      exact loadAll_misuse_iff.2 hm
  refine ⟨hcases, hmisuse, fun hplain fault h => ?_⟩
  obtain hreported | ⟨m, rfl⟩ := hcases fault h
  · exact hreported
  · obtain ⟨es, hes, hm⟩ := (hmisuse m).1 h
    exact absurd (hplain es hes) hm.not_isPlain

/-- A file with a directive that is a list inside itself. -/
def endlessField : File :=
  ⟨"requests.yaml", some ("requests:\n- name: web\n  hostlist: a\n  users: u\n".toUTF8.data.toList ++
    "  sshd_overrides: \x7bAcceptEnv: &l [LANG, *l]\x7d\n".toUTF8.data.toList)⟩

example : load endlessField = .error (.misuse .endless) := by decide +kernel

/-- A file with a sound first entry, and a second one that has a field under a number. -/
def numberedField : File :=
  ⟨"requests.yaml", some ("requests:\n  db: \x7bhostlist: a, users: u\x7d\n".toUTF8.data.toList ++
    "  web: \x7bhostlist: b, groups: g, 1: x\x7d\n".toUTF8.data.toList)⟩

theorem load_numberedField : load numberedField = .error (.misuse .badArguments) ∧
    ∃ es, numberedField.Holds Yaml.load es ∧ Misused "requests.yaml" es .badArguments ∧
      ¬ ∀ e ∈ es, e.IsPlain := by
  have hload : load numberedField = .error (.misuse .badArguments) := by decide +kernel
  have hok : (numberedField.document (.requestFile "requests.yaml" .malformed)).isOk = true := by
    decide +kernel
  obtain ⟨document, hdoc⟩ := Outcome.exists_ok hok
  obtain ⟨es, hes, hm⟩ := ((load_refusals hdoc).2.1 _).1 hload
  exact ⟨hload, es, hes, hm, hm.not_isPlain⟩

/-- A file with a field whose name the builder uses itself. -/
def selfField : File :=
  ⟨"requests.yaml",
    some "requests:\n- \x7bname: web, hostlist: a, users: u, self: x\x7d\n".toUTF8.data.toList⟩

/-- It holds a value, and loading it breaks off without a report. -/
theorem load_selfField : ¬ ∀ (f : File) (document : Value) (fault : Fault),
    f.document (.requestFile f.path .malformed) = .ok document → load f = .error fault →
    fault.IsReported := by
  intro h
  have hload : load selfField = .error (.misuse .badArguments) := by decide +kernel
  have hok : (selfField.document (.requestFile "requests.yaml" .malformed)).isOk = true := by
    decide +kernel
  obtain ⟨document, hdoc⟩ := Outcome.exists_ok hok
  obtain ⟨report, hreport, -⟩ := h selfField document _ hdoc hload
  cases hreport

end Request

end AccessPlan
