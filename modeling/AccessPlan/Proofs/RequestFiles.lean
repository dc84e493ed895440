import AccessPlan.Proofs.Mappings
import AccessPlan.Proofs.Outcome
import AccessPlan.Request.File
import Mathlib.Data.List.Induction

/-!
# Loading request files

A request file gives all of its requests or one fault. `Request.Loaded` says which: the fault of the first
entry whose structure is not sound, whatever the other entries are; else that of the first entry that cannot
be named after the ones before it or cannot be built; else one request for every entry, in order.

* `Outcome.mapM_error_iff` carries the first walk over the entries, `Request.buildAll_append` the second one.
* `Candidate.exists_first`: there is a first candidate that fails, or there is none.
* `Request.load_iff_loaded`: loading does what `Request.Loaded` says.
-/

set_option autoImplicit false

namespace AccessPlan

/-! ## Entries -/

/-- An entry of a request file as it stands there: a value under a key, or a value in a list. -/
inductive Listed where
  | named (key value : Value)
  | numbered (index : Nat) (value : Value)

/-- The fields of a request to be built, and its name: the text of the field `name`, if it has one. -/
structure Candidate where
  fields : Mapping
  name : Option String
  spelled : ((Mapping.getText? fields "name").getD .null).spelling? = name

namespace Listed

/-- The entries that requests consist of. -/
def ofRequests? : Value → Option (List Listed)
  | .map m => some (m.map fun e => .named e.1 e.2)
  | .list vs => some (vs.zipIdx.map fun e => .numbered e.2 e.1)
  | _ => none

/-- An entry whose structure is not sound, with the fault that it is: what it holds is no mapping, or there is
no name in it. A key that has no text is one, too. -/
inductive Unsound (path : String) : Listed → Fault → Prop
  | key {key v : Value} :
    key.spelling? = none → Unsound path (.named key v) (.misuse .longInteger)
  | named {key v : Value} {name : String} :
    key.spelling? = some name → (∀ m, v ≠ .map m) →
    Unsound path (.named key v) (.requestFile path (.namedNotMapping name v.kindName))
  | numbered {i : Nat} {v : Value} :
    (∀ m, v ≠ .map m) →
    Unsound path (.numbered i v) (.requestFile path (.numberedNotMapping i v.kindName))
  | unnamed {i : Nat} {m : Mapping} :
    Mapping.getText? m "name" = none →
    Unsound path (.numbered i (.map m)) (.requestFile path (.unnamed i))

/-- What an entry gives: its fields, with its key over any name among them. -/
inductive Gives : Listed → Candidate → Prop
  | named {key : Value} {m : Mapping} {name : String} {c : Candidate} :
    key.spelling? = some name → c.name = some name →
    c.fields = Mapping.put m (.text "name") (.text name) → Gives (.named key (.map m)) c
  | numbered {i : Nat} {m : Mapping} {v : Value} {c : Candidate} :
    Mapping.getText? m "name" = some v → c.name = v.spelling? → c.fields = m →
    Gives (.numbered i (.map m)) c

end Listed

namespace Candidate

/-- Why a candidate fails after those before it: it has no name, or one of theirs, or no request can be
built from it. A refusal by validation then carries the name. -/
inductive Fails (path : String) (before : List Candidate) (c : Candidate) : Fault → Prop
  | unspelled : c.name = none → Fails path before c (.misuse .longInteger)
  | duplicate {name : String} :
    c.name = some name → (∃ b ∈ before, b.name = some name) →
    Fails path before c (.requestFile path (.duplicate name))
  | rejected {name : String} {findings : List Finding} :
    c.name = some name → (∀ b ∈ before, b.name ≠ some name) →
    Request.build .builder c.fields none = .error (.rejected findings none) →
    Fails path before c (.rejected findings (some name))
  | misused {name : String} {m : Misuse} :
    c.name = some name → (∀ b ∈ before, b.name ≠ some name) →
    Request.build .builder c.fields none = .error (.misuse m) →
    Fails path before c (.misuse m)

/-- No candidate fails after those before it. -/
def Clear (path : String) (cs : List Candidate) : Prop :=
  ∀ before c after, cs = before ++ c :: after → ∀ fault, ¬ Fails path before c fault

/-- The request of a candidate, under its name. -/
def Becomes (c : Candidate) (r : String × Request) : Prop :=
  c.name = some r.1 ∧ Request.build .builder c.fields none = .ok r.2

end Candidate

/-- What loading entries comes to. -/
inductive Request.Loaded (path : String) (es : List Listed) : Outcome (List (String × Request)) → Prop
  /-- The first entry that is not sound, whatever comes after it and whether those before it can be built. -/
  | unsound {before after : List Listed} {e : Listed} {cs : List Candidate} {fault : Fault} :
    es = before ++ e :: after → List.Forall₂ Listed.Gives before cs → e.Unsound path fault →
    Loaded path es (.error fault)
  /-- The first candidate that fails, if the structure is sound. -/
  | failed {cs before after : List Candidate} {c : Candidate} {fault : Fault} :
    List.Forall₂ Listed.Gives es cs → cs = before ++ c :: after → Candidate.Clear path before →
    c.Fails path before fault → Loaded path es (.error fault)
  /-- One request for every entry, in order. -/
  | built {cs : List Candidate} {rs : List (String × Request)} :
    List.Forall₂ Listed.Gives es cs → Candidate.Clear path cs →
    List.Forall₂ Candidate.Becomes cs rs → Loaded path es (.ok rs)

/-! ## The structure of a file -/

namespace Listed

/-- The first walk over an entry. -/
def read (path : String) : Listed → Outcome Request.Entry
  | .named key value => Request.namedEntry path (key, value)
  | .numbered index value => Request.numberedEntry path (value, index)

theorem entries_eq {path : String} {m : Mapping} {requests : Value} {es : List Listed}
    (hr : Mapping.getText? m "requests" = some requests) (he : ofRequests? requests = some es) :
    Request.entries path (.map m) = es.mapM (read path) := by
  simp only [Request.entries, hr]
  cases requests with
  | map | list =>
    cases he
    rw [List.mapM_map]
    rfl
  | _ => cases he

theorem Unsound.read {path : String} {e : Listed} {fault : Fault} (h : e.Unsound path fault) :
    e.read path = .error fault := by
  cases h with
  | key hk =>
    simp only [Listed.read, Request.namedEntry, Request.nameOf, hk]
    rfl
  | @named key v name hk hv =>
    simp only [Listed.read, Request.namedEntry, Request.nameOf, hk]
    cases v with
    | map m => exact absurd rfl (hv m)
    | _ => rfl
  | @numbered i v hv =>
    cases v with
    | map m => exact absurd rfl (hv m)
    | _ => rfl
  | @unnamed i m hm =>
    have hn : Mapping.hasKey m (.text "name") = false := by
      rw [Mapping.hasKey_eq]
      exact Option.isSome_eq_false_iff.2 (Option.isNone_iff_eq_none.2 hm)
    simp only [Listed.read, Request.numberedEntry, hn]
    rfl

theorem Gives.read {path : String} {e : Listed} {c : Candidate} (h : e.Gives c) :
    e.read path = .ok c.fields := by
  cases h with
  | named hk _ hf =>
    simp only [Listed.read, Request.namedEntry, Request.nameOf, hk, hf]
    rfl
  | @numbered i m v _ hm _ hf =>
    have hn : Mapping.hasKey m (.text "name") = true := by
      rw [Mapping.hasKey_eq]
      exact Option.isSome_of_eq_some hm
    simp only [Listed.read, Request.numberedEntry, hn, hf]
    rfl

theorem unsound_or_gives (path : String) (e : Listed) :
    (∃ fault, e.Unsound path fault) ∨ ∃ c, e.Gives c := by
  cases e with
  | named key v =>
    cases hk : key.spelling? with
    | none => exact .inl ⟨_, .key hk⟩
    | some name =>
      cases v with
      | map m =>
        have hname : ((Mapping.getText? (Mapping.put m (.text "name") (.text name)) "name").getD
            .null).spelling? = some name := by
          rw [Mapping.getText?_put]
          rfl
        exact .inr ⟨⟨_, _, hname⟩, .named hk rfl rfl⟩
      | _ => exact .inl ⟨_, .named hk nofun⟩
  | numbered i v =>
    cases v with
    | map m =>
      cases hm : Mapping.getText? m "name" with
      | none => exact .inl ⟨_, .unnamed hm⟩
      | some w =>
        have hname : ((Mapping.getText? m "name").getD .null).spelling? = w.spelling? := by
          rw [hm]
          rfl
        exact .inr ⟨⟨m, _, hname⟩, .numbered hm rfl rfl⟩
    | _ => exact .inl ⟨_, .numbered nofun⟩

theorem read_error_iff {path : String} {e : Listed} {fault : Fault} :
    e.read path = .error fault ↔ e.Unsound path fault := by
  refine ⟨fun h => ?_, Unsound.read⟩
  obtain ⟨fault', hu⟩ | ⟨c, hc⟩ := unsound_or_gives path e
  · cases h.symm.trans hu.read
    exact hu
  · cases h.symm.trans hc.read

theorem read_ok_iff {path : String} {e : Listed} {fields : Mapping} :
    e.read path = .ok fields ↔ ∃ c, e.Gives c ∧ c.fields = fields := by
  constructor
  · intro h
    obtain ⟨fault, hu⟩ | ⟨c, hc⟩ := unsound_or_gives path e
    · cases h.symm.trans hu.read
    · exact ⟨c, hc, Except.ok.inj (hc.read.symm.trans h)⟩
  · rintro ⟨c, hc, rfl⟩
    exact hc.read

theorem mapM_read_iff {path : String} {es : List Listed} {xs : List Mapping} :
    es.mapM (read path) = .ok xs ↔
      ∃ cs, List.Forall₂ Gives es cs ∧ cs.map Candidate.fields = xs := by
  have hcomp : Relation.Comp Gives (fun c x => c.fields = x) =
      fun e x => e.read path = .ok x := by
    funext e x
    exact propext read_ok_iff.symm
  have hfields {cs : List Candidate} :
      cs.map Candidate.fields = xs ↔ List.Forall₂ (fun c x => c.fields = x) cs xs := by
    rw [← List.forall₂_eq_eq_eq, List.forall₂_map_left_iff]
  simp only [Outcome.mapM_ok_iff, ← hcomp, ← forall₂_comp_iff, hfields]

end Listed

/-! ## The requests of a file -/

namespace Request

theorem build_cases (route : Route) (arguments : Mapping) :
    (∃ m, ∀ label, build route arguments label = .error (.misuse m)) ∨
      (∃ findings, ∀ label, build route arguments label = .error (.rejected findings label)) ∨
      ∃ r, ∀ label, build route arguments label = .ok r := by
  unfold build
  have hf : (∃ m, fieldsOf route.reserved arguments = .error (.misuse m)) ∨
      ∃ fields, fieldsOf route.reserved arguments = .ok fields := by
    unfold fieldsOf
    cases arguments.mapM fun e => e.1.text?.map fun name => (name, e.2) with
    | none => exact .inl ⟨_, rfl⟩
    | some fields =>
      by_cases h : fields.any fun f => route.reserved.contains f.1
      · exact .inl ⟨_, if_pos h⟩
      · exact .inr ⟨fields, if_neg h⟩
  obtain ⟨m, hf⟩ | ⟨fields, hf⟩ := hf
  · exact .inl ⟨m, fun label => by rw [hf]; rfl⟩
  · simp only [hf, Outcome.ok_bind]
    split
    · exact .inl ⟨_, fun _ => rfl⟩
    · cases validate fields with
      | error findings => exact .inr (.inl ⟨findings, fun _ => rfl⟩)
      | ok r => exact .inr (.inr ⟨r, fun _ => rfl⟩)

/-- The name in a request file is in the report of what validation finds, and has no other effect. -/
theorem build_label (route : Route) (arguments : Mapping) (label : Option String) :
    build route arguments label = match build route arguments none with
      | .error (.rejected findings _) => .error (.rejected findings label)
      | outcome => outcome := by
  obtain ⟨m, h⟩ | ⟨findings, h⟩ | ⟨r, h⟩ := build_cases route arguments <;> rw [h label, h none]

theorem buildAll_append (path : String) (taken : List String) (xs ys : List Entry) :
    buildAll path taken (xs ++ ys) = (do
      let rs ← buildAll path taken xs
      let rs' ← buildAll path ((rs.map Prod.fst).reverse ++ taken) ys
      pure (rs ++ rs')) := by
  induction xs generalizing taken with
  | nil =>
    show _ = buildAll path taken ys >>= pure
    rw [bind_pure]
    rfl
  | cons x xs ih =>
    simp only [List.cons_append, buildAll]
    cases nameOf ((Mapping.getText? x "name").getD .null) with
    | error e => rfl
    | ok name =>
      simp only [Outcome.ok_bind]
      split
      · rfl
      · simp [ih]

end Request

namespace Candidate

variable {path : String} {before : List Candidate} {taken : List String} {c : Candidate}

theorem nameOf_eq (c : Candidate) :
    Request.nameOf ((Mapping.getText? c.fields "name").getD .null) = orMisuse .longInteger c.name := by
  rw [Request.nameOf, c.spelled]

theorem buildAll_cons {name : String} (hn : c.name = some name) (rest : List Request.Entry) :
    Request.buildAll path taken (c.fields :: rest) =
      if name ∈ taken then .error (.requestFile path (.duplicate name))
      else (do
        let request ← Request.build .builder c.fields (some name)
        pure ((name, request) :: (← Request.buildAll path (name :: taken) rest))) := by
  simp only [Request.buildAll, nameOf_eq, hn, orMisuse, Outcome.ok_bind, List.contains_iff_mem]

section
variable (ht : ∀ name, name ∈ taken ↔ ∃ b ∈ before, b.name = some name)
include ht

theorem notMem_taken {name : String} (hb : ∀ b ∈ before, b.name ≠ some name) : name ∉ taken := by
  intro hmem
  obtain ⟨b, hbefore, hname⟩ := (ht name).1 hmem
  exact hb b hbefore hname

theorem Fails.buildAll {fault : Fault} (h : c.Fails path before fault) (rest : List Request.Entry) :
    Request.buildAll path taken (c.fields :: rest) = .error fault := by
  cases h with
  | unspelled hn =>
    rw [Request.buildAll, nameOf_eq, hn]
    rfl
  | duplicate hn hb => rw [buildAll_cons hn, if_pos ((ht _).2 hb)]
  | rejected hn hb hr =>
    rw [buildAll_cons hn, if_neg (notMem_taken ht hb), Request.build_label, hr]
    rfl
  | misused hn hb hm =>
    rw [buildAll_cons hn, if_neg (notMem_taken ht hb), Request.build_label, hm]
    rfl

theorem Becomes.buildAll {r : String × Request} (h : c.Becomes r)
    (hb : ∀ b ∈ before, b.name ≠ some r.1) : Request.buildAll path taken [c.fields] = .ok [r] := by
  rw [buildAll_cons h.1, if_neg (notMem_taken ht hb), Request.build_label, h.2]
  rfl

end

/-- A candidate fails, or it becomes a request under a new name. -/
theorem fails_or_becomes (path : String) (before : List Candidate) (c : Candidate) :
    (∃ fault, c.Fails path before fault) ∨
      ∃ r, c.Becomes r ∧ ∀ b ∈ before, b.name ≠ some r.1 := by
  cases hn : c.name with
  | none => exact .inl ⟨_, .unspelled hn⟩
  | some name =>
    by_cases hb : ∃ b ∈ before, b.name = some name
    · exact .inl ⟨_, .duplicate hn hb⟩
    · have hb : ∀ b ∈ before, b.name ≠ some name := fun b h he => hb ⟨b, h, he⟩
      obtain ⟨m, h⟩ | ⟨findings, h⟩ | ⟨r, h⟩ := Request.build_cases .builder c.fields
      · exact .inl ⟨_, .misused hn hb (h none)⟩
      · exact .inl ⟨_, .rejected hn hb (h none)⟩
      · exact .inr ⟨(name, r), ⟨hn, h none⟩, hb⟩

theorem clear_nil (path : String) : Clear path [] := by
  intro before c after h
  cases before <;> cases h

theorem clear_concat {cs : List Candidate} :
    Clear path (cs ++ [c]) ↔ Clear path cs ∧ ∀ fault, ¬ c.Fails path cs fault := by
  constructor
  · intro h
    refine ⟨fun before d after hd => ?_, h cs c [] rfl⟩
    exact h before d (after ++ [c]) (by rw [hd]; simp)
  · rintro ⟨hcs, hc⟩ before d after h
    obtain rfl | ⟨after', x, rfl⟩ := List.eq_nil_or_concat' after
    · obtain ⟨rfl, hd⟩ := List.append_inj' h rfl
      cases hd
      exact hc
    · rw [← List.cons_append, ← List.append_assoc] at h
      exact hcs before d after' (List.append_inj' h rfl).1

/-- There is a first candidate that fails, unless there is none. -/
theorem exists_first (path : String) (cs : List Candidate) :
    Clear path cs ∨ ∃ before c after fault,
      cs = before ++ c :: after ∧ Clear path before ∧ c.Fails path before fault := by
  induction cs using List.reverseRecOn with
  | nil => exact .inl (clear_nil path)
  | append_singleton cs c ih =>
    obtain hcs | ⟨before, d, after, fault, rfl, hb, hd⟩ := ih
    · by_cases hc : ∃ fault, c.Fails path cs fault
      · obtain ⟨fault, hc⟩ := hc
        exact .inr ⟨cs, c, [], fault, rfl, hcs, hc⟩
      · exact .inl (clear_concat.2 ⟨hcs, fun fault h => hc ⟨fault, h⟩⟩)
    · exact .inr ⟨before, d, after ++ [c], fault, by simp, hb, hd⟩

theorem mem_names {cs : List Candidate} {rs : List (String × Request)}
    (h : List.Forall₂ Becomes cs rs) (name : String) :
    name ∈ (rs.map Prod.fst).reverse ++ [] ↔ ∃ c ∈ cs, c.name = some name := by
  rw [List.append_nil, List.mem_reverse]
  induction h with
  | nil => simp
  | cons hc _ ih => simp [ih, hc.1, eq_comm]

/-- Where no candidate fails, each one becomes its request. -/
theorem Clear.exists_buildAll {cs : List Candidate} (h : Clear path cs) :
    ∃ rs, Request.buildAll path [] (cs.map fields) = .ok rs ∧ List.Forall₂ Becomes cs rs := by
  -- from the right, so that the names taken at the last candidate are those of all before it
  induction cs using List.reverseRecOn with
  | nil => exact ⟨[], rfl, .nil⟩
  | append_singleton cs c ih =>
    obtain ⟨hcs, hc⟩ := clear_concat.1 h
    obtain ⟨rs, hrs, hall⟩ := ih hcs
    obtain ⟨fault, hf⟩ | ⟨r, hr, hb⟩ := fails_or_becomes path cs c
    · exact absurd hf (hc fault)
    · refine ⟨rs ++ [r], ?_, ?_⟩
      · rw [List.map_append, Request.buildAll_append, hrs, Outcome.ok_bind]
        rw [List.map_singleton, hr.buildAll (mem_names hall) hb]
        rfl
      · exact List.rel_append hall (.cons hr .nil)

theorem becomes_unique : Relator.RightUnique Becomes := by
  intro c r r' h h'
  obtain ⟨hn, hr⟩ := h
  obtain ⟨hn', hr'⟩ := h'
  exact Prod.ext (Option.some.inj (hn.symm.trans hn')) (Except.ok.inj (hr.symm.trans hr'))

/-- The first candidate that fails is what loading reports. -/
theorem Fails.buildAll_eq {cs after : List Candidate} {fault : Fault} (h : c.Fails path before fault)
    (hb : Clear path before) (hcs : cs = before ++ c :: after) :
    Request.buildAll path [] (cs.map fields) = .error fault := by
  obtain ⟨rs, hrs, hall⟩ := hb.exists_buildAll
  rw [hcs, List.map_append, Request.buildAll_append, hrs, Outcome.ok_bind, List.map_cons,
    h.buildAll (mem_names hall)]
  rfl

end Candidate

/-! ## Loading -/

/-- A report with one more detail. -/
def Report.noting (r : Report) (name value : String) : Report :=
  match r.details with
  | .map details => { r with details := .map (details ++ [(.text name, .text value)]) }
  | _ => r

namespace Request

variable {path : String} {es : List Listed}

/-- The two walks over the entries of a file. -/
def loadAll (path : String) (es : List Listed) : Outcome (List (String × Request)) := do
  buildAll path [] (← es.mapM (Listed.read path))

theorem loadAll_of_given {cs : List Candidate} (h : List.Forall₂ Listed.Gives es cs) :
    loadAll path es = buildAll path [] (cs.map Candidate.fields) := by
  rw [loadAll, Listed.mapM_read_iff.2 ⟨cs, h, rfl⟩, Outcome.ok_bind]

theorem Loaded.eq {out : Outcome (List (String × Request))} (h : Loaded path es out) :
    loadAll path es = out := by
  cases h with
  | unsound hes hcs he =>
    have hread := Outcome.mapM_error_iff.2
      ⟨_, _, _, hes, ⟨_, Listed.mapM_read_iff.2 ⟨_, hcs, rfl⟩⟩, he.read⟩
    rw [loadAll, hread]
    rfl
  | failed hcs hsplit hb hc => rw [loadAll_of_given hcs, hc.buildAll_eq hb hsplit]
  | built hcs hclear hrs =>
    obtain ⟨rs', hrs', hall⟩ := hclear.exists_buildAll
    rw [loadAll_of_given hcs, hrs', List.right_unique_forall₂' Candidate.becomes_unique hall hrs]

theorem loaded_loadAll (path : String) (es : List Listed) : Loaded path es (loadAll path es) := by
  suffices h : ∃ out, Loaded path es out by
    obtain ⟨out, h⟩ := h
    exact h.eq.symm ▸ h
  cases hread : es.mapM (Listed.read path) with
  | error fault =>
    obtain ⟨before, e, after, hes, ⟨xs, hxs⟩, he⟩ := Outcome.mapM_error_iff.1 hread
    obtain ⟨cs, hcs, -⟩ := Listed.mapM_read_iff.1 hxs
    exact ⟨_, .unsound hes hcs (Listed.read_error_iff.1 he)⟩
  | ok xs =>
    obtain ⟨cs, hcs, -⟩ := Listed.mapM_read_iff.1 hread
    obtain hclear | ⟨before, c, after, fault, hsplit, hb, hc⟩ := Candidate.exists_first path cs
    · obtain ⟨rs, -, hrs⟩ := hclear.exists_buildAll
      exact ⟨_, .built hcs hclear hrs⟩
    · exact ⟨_, .failed hcs hsplit hb hc⟩

/-- **Loading gives one fault or all requests, as `Loaded` says**, however files are read. The report of a
refused request then also holds its name. -/
theorem load_iff_loaded {f : File} {read : File.Reader} {m : Mapping} {requests : Value}
    (hdoc : f.document (.requestFile f.path .malformed) read = .ok (.map m))
    (hr : Mapping.getText? m "requests" = some requests)
    (he : Listed.ofRequests? requests = some es) :
    (∀ out, load f read = out ↔ Loaded f.path es out) ∧
      ∀ findings name, (Fault.rejected findings (some name)).report? =
        (Fault.rejected findings none).report?.map (·.noting "request" name) := by
  have hload : load f read = loadAll f.path es := by
    rw [load, hdoc, Outcome.ok_bind, ofDocument, Listed.entries_eq hr he]
    rfl
  refine ⟨fun out => ?_, fun _ _ => rfl⟩
  rw [hload]
  constructor
  · rintro rfl
    exact loaded_loadAll f.path es
  · exact Loaded.eq

/-- A file with an entry that lists no hosts, and after it one that is no mapping. -/
def mixedFile : File :=
  ⟨"requests.yaml", some "requests:\n  a:\n    users: u\n  b: 5\n".toUTF8.data.toList⟩

/-- What the file says. -/
def mixedEntries : Mapping := [(.text "a", .map [(.text "users", .text "u")]), (.text "b", .int 5)]

/-- Whether a document says that. -/
def isMixed : Outcome Value → Bool
  | .ok (.map [(.text "requests", .map [(.text "a", .map [(.text "users", .text "u")]),
      (.text "b", .int 5)])]) => true
  | _ => false

theorem eq_of_isMixed {d : Outcome Value} (h : isMixed d = true) :
    d = .ok (.map [(.text "requests", .map mixedEntries)]) := by
  unfold isMixed at h
  split at h
  · rfl
  · cases h

theorem load_mixedFile :
    mixedFile.document (.requestFile mixedFile.path .malformed) =
        .ok (.map [(.text "requests", .map mixedEntries)]) ∧
      load mixedFile = .error (.requestFile "requests.yaml" (.namedNotMapping "b" "int")) := by
  have hmixed : isMixed (mixedFile.document (.requestFile mixedFile.path .malformed)) = true := by
    decide +kernel
  have hdoc := eq_of_isMixed hmixed
  let a : Candidate :=
    ⟨[(.text "users", .text "u"), (.text "name", .text "a")], some "a", rfl⟩
  have hgives : List.Forall₂ Listed.Gives [.named (.text "a") (.map [(.text "users", .text "u")])] [a] :=
    .cons (.named rfl rfl rfl) .nil
  have hunsound : Listed.Unsound "requests.yaml" (.named (.text "b") (.int 5))
      (.requestFile "requests.yaml" (.namedNotMapping "b" "int")) := .named rfl nofun
  exact ⟨hdoc, ((load_iff_loaded hdoc rfl rfl).1 _).2 (.unsound rfl hgives hunsound)⟩

theorem spelling?_long {i : Int} (h : Nat.pow 10 Numeral.maxDigits ≤ i.natAbs) :
    (Value.int i).spelling? = none := by
  have hlong : (Value.int i).holdsLongInteger = true := by
    simpa only [Value.holdsLongInteger, decide_eq_true_eq] using h
  rw [Value.spelling?, hlong]
  rfl

/-- A key that cannot be written is reported even if a later entry is no mapping. -/
theorem ofDocument_longKey :
    ¬ ∀ (path : String) (before after : Mapping) (name : String) (v : Value),
      (∀ e ∈ before, ∃ fields, e.2 = .map fields) → (∀ fields, v ≠ .map fields) →
      ofDocument path (.map [(.text "requests", .map (before ++ (.text name, v) :: after))]) =
        .error (.requestFile path (.namedNotMapping name v.kindName)) := by
  intro h
  have hpow : Nat.pow 10 Numeral.maxDigits ≤ (Nat.pow 10 Numeral.maxDigits : Int).natAbs :=
    Nat.le_of_eq (Int.natAbs_natCast _).symm
  obtain ⟨i, hi⟩ : ∃ i : Int, (Value.int i).spelling? = none := ⟨_, spelling?_long hpow⟩
  have hbad := h "input.yaml" [(.int i, .map [])] [] "bad" (.int 5) (by simp) nofun
  have hentries : entries "input.yaml" (.map [(.text "requests",
      .map ([(.int i, .map [])] ++ [(.text "bad", .int 5)]))]) = .error (.misuse .longInteger) := by
    rw [Listed.entries_eq rfl rfl]
    exact Outcome.mapM_error_iff.2 ⟨[], _, _, rfl, ⟨[], rfl⟩, (Listed.Unsound.key hi).read⟩
  rw [ofDocument, hentries] at hbad
  cases hbad

end Request

end AccessPlan
