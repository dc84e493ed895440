import AccessPlan.Proofs.RequestNames
import AccessPlan.Value.Equality

/-!
# The two forms of a request file

A request file gives names to fields in a mapping, or it lists fields that hold a name. Both forms mean the
same: what is built from fields does not depend on where among them the name stands, and the path of a file
is in no fault but those of its structure and of a repeated name.

* `Request.validate_congr`: validation looks fields up and goes through the unknown ones, and no more.
* `Named.build_eq`: the place of the name does not matter.
* `Request.buildAll_eq`: requests with names of their own are built one by one.
* `Request.load_forms_agree`: a file of either form gives the same outcome.
-/

set_option autoImplicit false

namespace AccessPlan

/-- The fields of a request with its name anywhere among them. -/
inductive Named (name : String) : Mapping → Mapping → Prop
  | intro (before after : Mapping) :
    Named name (before ++ after) (before ++ (.text "name", .text name) :: after)

/-! ## Looking up -/

namespace Mapping

theorem getText?_append (m m' : Mapping) (key : String) :
    getText? (m ++ m') key = (getText? m key).or (getText? m' key) := by
  simp only [getText?, get?, List.find?_append, Option.map_or]

theorem put_of_getText?_none {m : Mapping} {key : String} (h : getText? m key = none) (v : Value) :
    put m (.text key) v = m ++ [(.text key, v)] := by
  induction m with
  | nil => rfl
  | cons e m ih =>
    obtain ⟨k, w⟩ := e
    by_cases hk : (Value.text key).same k = true
    · simp [getText?, get?, hk] at h
    · simp only [getText?, get?, List.find?_cons, hk] at h
      simp only [put, hk, Bool.false_eq_true, if_false, List.cons_append]
      rw [ih h]

theorem fields?_append (m m' : Mapping) :
    fields? (m ++ m') = (fields? m).bind fun fs => (fields? m').map fun fs' => fs ++ fs' := by
  unfold fields?
  rw [List.mapM_append]
  cases m.mapM fun e => e.1.text?.map fun name => (name, e.2) with
  | none => rfl
  | some fs =>
    cases m'.mapM fun e => e.1.text?.map fun name => (name, e.2) with
    | none => rfl
    | some fs' => rfl

theorem fields?_cons (key : String) (v : Value) (m : Mapping) :
    fields? ((.text key, v) :: m) = (fields? m).map fun fs => (key, v) :: fs := by
  unfold fields?
  rw [List.mapM_cons]
  cases m.mapM fun e => e.1.text?.map fun name => (name, e.2) with
  | none => rfl
  | some fs => rfl

end Mapping

namespace Request

section
variable {fields fields' : Fields}

theorem overridesOf_congr (h : ∀ name, fields.lookup name = fields'.lookup name) :
    overridesOf fields = overridesOf fields' := by
  simp only [overridesOf, h]

theorem isEndless_congr (h : ∀ name, fields.lookup name = fields'.lookup name) :
    isEndless fields = isEndless fields' := by
  rw [isEndless, isEndless, overridesOf_congr h]

/-- Validation depends on what is found under each name and on the unknown names in order. -/
theorem validate_congr (h : ∀ name, fields.lookup name = fields'.lookup name)
    (hu : unknownNames fields = unknownNames fields') : validate fields = validate fields' := by
  simp only [validate, h, overridesOf_congr h, hu]

end

/-- Building goes from the arguments to fields, and from these to the request. -/
theorem build_eq (route : Route) (arguments : Mapping) (label : Option String) :
    build route arguments label = match arguments.fields? with
      | none => misuse .badArguments
      | some fields =>
        if fields.any fun f => route.reserved.contains f.1 then misuse .badArguments
        else if isEndless fields then misuse .endless
        else match validate fields with
          | .ok r => pure r
          | .error findings => .error (.rejected findings label) := by
  unfold build fieldsOf
  show (orMisuse .badArguments arguments.fields? >>= _) >>= _ = _
  cases arguments.fields? with
  | none => rfl
  | some fields =>
    simp only [orMisuse, Outcome.ok_bind]
    split <;> rfl

/-! ## The place of the name -/

section
variable {before after : Fields} {v : Value}

theorem lookup_middle (h : before.lookup "name" = none) (name : String) :
    (before ++ ("name", v) :: after).lookup name =
      (("name", v) :: (before ++ after)).lookup name := by
  by_cases hname : name = "name"
  · subst hname
    simp [List.lookup_append, h]
  · simp [List.lookup_append, List.lookup_cons, beq_eq_false_iff_ne.2 hname]

theorem unknownNames_middle (h : before.lookup "name" = none) :
    unknownNames (before ++ ("name", v) :: after) =
      unknownNames (("name", v) :: (before ++ after)) := by
  unfold unknownNames knownNames
  rw [overridesOf_congr (lookup_middle h)]
  simp

theorem validate_middle (h : before.lookup "name" = none) :
    validate (before ++ ("name", v) :: after) = validate (("name", v) :: (before ++ after)) :=
  validate_congr (lookup_middle h) (unknownNames_middle h)

end

/-- Where the name stands among the arguments makes no difference. -/
theorem build_middle {before after : Mapping} (v : Value) (h : Mapping.getText? before "name" = none)
    (route : Route) (label : Option String) :
    build route (before ++ (.text "name", v) :: after) label =
      build route ((.text "name", v) :: (before ++ after)) label := by
  rw [build_eq, build_eq, Mapping.fields?_append, Mapping.fields?_cons, Mapping.fields?_cons,
    Mapping.fields?_append]
  cases hbefore : before.fields? with
  -- a key that is no text is a misuse, whatever stands before it
  | none => rfl
  | some bs =>
    cases after.fields? with
    | none => rfl
    | some as =>
      have hlookup : bs.lookup "name" = none := by rw [Mapping.lookup_fields? hbefore, h]
      have hany : ((bs ++ ("name", v) :: as).any fun f => route.reserved.contains f.1) =
          ((("name", v) :: (bs ++ as)).any fun f => route.reserved.contains f.1) := by
        simp only [List.any_append, List.any_cons]
        exact Bool.or_left_comm _ _ _
      simp only [Option.bind_some, Option.map_some, hany, isEndless_congr (lookup_middle hlookup),
        validate_middle hlookup]

end Request

namespace Named

variable {name : String} {fields entry : Mapping}

theorem build_eq (h : Named name fields entry) (hf : Mapping.getText? fields "name" = none)
    (route : Request.Route) (label : Option String) :
    Request.build route entry label = Request.build route ((.text "name", .text name) :: fields) label := by
  cases h with
  | intro before after =>
    rw [Mapping.getText?_append, Option.or_eq_none_iff] at hf
    exact Request.build_middle _ hf.1 route label

theorem getText?_eq (h : Named name fields entry) (hf : Mapping.getText? fields "name" = none) :
    Mapping.getText? entry "name" = some (.text name) := by
  cases h with
  | intro before after =>
    rw [Mapping.getText?_append, Option.or_eq_none_iff] at hf
    rw [Mapping.getText?_append, hf.1]
    rfl

/-- A name that is written into fields without one comes last. -/
theorem put (hf : Mapping.getText? fields "name" = none) :
    Named name fields (Mapping.put fields (.text "name") (.text name)) := by
  rw [Mapping.put_of_getText?_none hf]
  have h : Named name (fields ++ []) (fields ++ [(.text "name", .text name)]) := .intro fields []
  rwa [List.append_nil] at h

end Named

/-! ## Requests by name -/

/-- Names and fields in which no name is repeated and no field is a name. -/
structure Distinct (requests : List (String × Mapping)) : Prop where
  nodup : (requests.map Prod.fst).Nodup
  unnamed : ∀ r ∈ requests, Mapping.getText? r.2 "name" = none

namespace Request

variable {requests : List (String × Mapping)} {entries : List Mapping}

/-- The requests are built one by one, whatever the path of the file. -/
def buildEach (requests : List (String × Mapping)) : Outcome (List (String × Request)) :=
  requests.mapM fun r => do
    pure (r.1, ← build .builder ((.text "name", .text r.1) :: r.2) (some r.1))

theorem buildEach_cons (r : String × Mapping) (rest : List (String × Mapping)) :
    buildEach (r :: rest) = (do
      let request ← build .builder ((.text "name", .text r.1) :: r.2) (some r.1)
      pure ((r.1, request) :: (← buildEach rest))) := by
  simp only [buildEach, List.mapM_cons, bind_assoc, pure_bind]

theorem buildAll_eq (path : String) {taken : List String}
    (h : List.Forall₂ (fun r entry => Named r.1 r.2 entry) requests entries) (hd : Distinct requests)
    (htaken : ∀ r ∈ requests, r.1 ∉ taken) : buildAll path taken entries = buildEach requests := by
  induction h generalizing taken with
  | nil => rfl
  | @cons r entry requests entries hr _ ih =>
    obtain ⟨hnodup, hunnamed⟩ := hd
    rw [List.map_cons, List.nodup_cons] at hnodup
    rw [List.forall_mem_cons] at hunnamed htaken
    have hrest : buildAll path (r.1 :: taken) entries = buildEach requests := by
      refine ih ⟨hnodup.2, hunnamed.2⟩ fun r' hr' => ?_
      rw [List.mem_cons, not_or]
      refine ⟨fun he => hnodup.1 ?_, htaken.2 r' hr'⟩
      exact he ▸ List.mem_map_of_mem hr'
    -- no name is taken, and only a taken one would show the path
    rw [buildAll, hr.getText?_eq hunnamed.1]
    simp only [nameOf, Option.getD_some, Value.spelling?_text, orMisuse, Outcome.ok_bind,
      List.contains_iff_mem, htaken.1, if_false, hr.build_eq hunnamed.1, hrest]
    exact (buildEach_cons r requests).symm

end Request

/-! ## Files of either form -/

/-- Fields under their names. -/
def namedForm (requests : List (String × Mapping)) : Value :=
  .map (requests.map fun r => (.text r.1, .map r.2))

/-- Fields with names among them. -/
def listedForm (entries : List Mapping) : Value := .list (entries.map .map)

namespace Listed

theorem mapM_read_named (path : String) (requests : List (String × Mapping)) :
    ((requests.map fun r => (Value.text r.1, Value.map r.2)).map fun e => named e.1 e.2).mapM (read path) =
      .ok (requests.map fun r => Mapping.put r.2 (.text "name") (.text r.1)) := by
  rw [Outcome.mapM_ok_iff, List.map_map, List.forall₂_map_left_iff, List.forall₂_map_right_iff]
  exact List.forall₂_same.2 fun _ _ => rfl

theorem read_numbered {path name : String} {i : Nat} {entry : Mapping}
    (h : Mapping.getText? entry "name" = some (.text name)) :
    read path (numbered i (.map entry)) = .ok entry := by
  have hspelled : ((Mapping.getText? entry "name").getD .null).spelling? = some name := by
    rw [h]
    rfl
  have hgives : Gives (numbered i (.map entry)) ⟨entry, some name, hspelled⟩ := .numbered h rfl rfl
  exact hgives.read

theorem mapM_read_numbered (path : String) {entries : List Mapping}
    (h : ∀ entry ∈ entries, ∃ name, Mapping.getText? entry "name" = some (.text name)) :
    ((entries.map Value.map).zipIdx.map fun e => numbered e.2 e.1).mapM (read path) = .ok entries := by
  suffices hall : List.Forall₂ (fun e x => read path (numbered e.2 (.map e.1)) = .ok x) entries.zipIdx
      (entries.zipIdx.map Prod.fst) by
    rw [List.zipIdx_map_fst] at hall
    rw [Outcome.mapM_ok_iff, List.zipIdx_map, List.map_map, List.forall₂_map_left_iff]
    exact hall
  rw [List.forall₂_map_right_iff]
  refine List.forall₂_same.2 fun e he => ?_
  obtain ⟨name, hname⟩ := h e.1 (List.fst_mem_of_mem_zipIdx he)
  exact read_numbered hname

end Listed

namespace Request

variable {read : File.Reader} {requests : List (String × Mapping)} {entries : List Mapping}

/-- The entries that a file holds, once they are read, are built one by one. -/
theorem load_eq_buildEach {f : File} {es : List Listed} (hf : f.Holds read es)
    (hread : es.mapM (Listed.read f.path) = .ok entries)
    (h : List.Forall₂ (fun r entry => Named r.1 r.2 entry) requests entries) (hd : Distinct requests) :
    load f read = buildEach requests := by
  rw [load_of_holds hf, loadAll, hread, Outcome.ok_bind]
  exact buildAll_eq f.path h hd fun _ _ => List.not_mem_nil

theorem load_namedForm {f : File} (hf : f.Lists read (namedForm requests)) (hd : Distinct requests) :
    load f read = buildEach requests := by
  refine load_eq_buildEach ⟨_, hf, rfl⟩ (Listed.mapM_read_named f.path requests) ?_ hd
  rw [List.forall₂_map_right_iff]
  exact List.forall₂_same.2 fun r hr => Named.put (hd.unnamed r hr)

theorem load_listedForm {f : File} (hf : f.Lists read (listedForm entries)) (hd : Distinct requests)
    (h : List.Forall₂ (fun r entry => Named r.1 r.2 entry) requests entries) :
    load f read = buildEach requests := by
  refine load_eq_buildEach ⟨_, hf, rfl⟩ (Listed.mapM_read_numbered f.path fun entry he => ?_) h hd
  obtain ⟨r, hr, hnamed⟩ := exists_of_forall₂_mem h he
  exact ⟨r.1, hnamed.getText?_eq (hd.unnamed r hr)⟩

/-- **The two forms of a request file mean the same**: one file has fields under names of their own, the other
lists the same fields with the name anywhere among them. Both give what building the requests one by one
gives: the same requests in the same order, or the same fault. -/
theorem load_forms_agree {f g : File} (hd : Distinct requests)
    (h : List.Forall₂ (fun r entry => Named r.1 r.2 entry) requests entries)
    (hf : f.Lists read (namedForm requests)) (hg : g.Lists read (listedForm entries)) :
    load f read = load g read ∧ load f read = buildEach requests := by
  have hnamed := load_namedForm hf hd
  have hlisted := load_listedForm hg hd h
  exact ⟨hnamed.trans hlisted.symm, hnamed⟩

/-- The fields of two requests; the second one has two fields too many. -/
def sampleRequests : List (String × Mapping) :=
  [("web", [(.text "hostlist", .text "a"), (.text "users", .text "u")]),
    ("db", [(.text "port", .int 22), (.text "hostlist", .text "b"), (.text "role", .null)])]

def sampleEntries : List Mapping :=
  [[(.text "name", .text "web"), (.text "hostlist", .text "a"), (.text "users", .text "u")],
    [(.text "port", .int 22), (.text "name", .text "db"), (.text "hostlist", .text "b"),
      (.text "role", .null)]]

def namedFile : File :=
  ⟨"named.yaml", some ("requests:\n  web: \x7bhostlist: a, users: u\x7d\n".toUTF8.data.toList ++
    "  db: \x7bport: 22, hostlist: b, role: null\x7d\n".toUTF8.data.toList)⟩

def listedFile : File :=
  ⟨"listed.yaml", some ("requests:\n- \x7bname: web, hostlist: a, users: u\x7d\n".toUTF8.data.toList ++
    "- \x7bport: 22, name: db, hostlist: b, role: null\x7d\n".toUTF8.data.toList)⟩

theorem load_sampleForms : namedFile.Lists Yaml.load (namedForm sampleRequests) ∧
    listedFile.Lists Yaml.load (listedForm sampleEntries) ∧ load namedFile = load listedFile ∧
      load namedFile = .error (.rejected
        [⟨.unknownField, [.name "port"]⟩, ⟨.unknownField, [.name "role"]⟩] (some "db")) := by
  have hd : Distinct sampleRequests := ⟨by decide, by decide⟩
  have hnamed : namedFile.document (.requestFile namedFile.path .malformed) =
      .ok (.map [(.text "requests", namedForm sampleRequests)]) := by decide +kernel
  have hlisted : listedFile.document (.requestFile listedFile.path .malformed) =
      .ok (.map [(.text "requests", listedForm sampleEntries)]) := by decide +kernel
  have h : List.Forall₂ (fun r entry => Named r.1 r.2 entry) sampleRequests sampleEntries :=
    .cons (.intro [] _) (.cons (.intro [_] _) .nil)
  have hf : namedFile.Lists Yaml.load (namedForm sampleRequests) := ⟨_, hnamed, rfl⟩
  have hg : listedFile.Lists Yaml.load (listedForm sampleEntries) := ⟨_, hlisted, rfl⟩
  obtain ⟨hforms, heach⟩ := load_forms_agree hd h hf hg
  refine ⟨hf, hg, hforms, ?_⟩
  rw [heach]
  decide

end Request

end AccessPlan
