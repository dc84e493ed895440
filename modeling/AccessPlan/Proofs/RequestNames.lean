import AccessPlan.Proofs.Grammar
import AccessPlan.Proofs.RequestFiles
import Mathlib.Algebra.Order.BigOperators.Group.List

/-!
# The names of loaded requests

A loaded request stands under the spelling of the name that its entry gives, and its own name is what
validation makes of the same value. Only bytes are spelled otherwise than they are read, and only a list
hands them on: the key of a mapping is spelled before it becomes a name.

* `Text.length_lt_quotedBytes`, `Value.Spells.spelling?_iff`: the spelling of bytes is never their text.
* `Request.nameOf_build`: where the name of a built request comes from.
* `Request.load_keyed`: no two requests stand under one name, and a request stands under its own name exactly
  if its entry does not name it by bytes.
-/

set_option autoImplicit false

namespace AccessPlan

/-! ## The spelling of bytes -/

theorem length_le_flatMap {α β : Type} {f : α → List β} (hf : ∀ a, f a ≠ []) (l : List α) :
    l.length ≤ (l.flatMap f).length := by
  have hlen : (l.map fun a => (f a).length).length = l.length := List.length_map _
  rw [List.length_flatMap, ← hlen]
  refine List.length_le_sum_of_one_le _ fun n hn => ?_
  obtain ⟨a, -, rfl⟩ := List.mem_map.1 hn
  exact List.length_pos_of_ne_nil (hf a)

namespace Text

theorem length_le_toUTF8 (s : String) : s.length ≤ s.toUTF8.data.toList.length := by
  have hc : ∀ c, String.utf8EncodeChar c ≠ [] := by
    intro c hc
    have hl := String.length_utf8EncodeChar c
    rw [hc] at hl
    exact absurd hl (Nat.ne_of_lt c.utf8Size_pos)
  have hs : s.toUTF8.data.toList = s.toList.flatMap String.utf8EncodeChar := by
    have he : s.toUTF8 = s.toList.utf8Encode := by
      rw [← String.toByteArray_ofList, String.ofList_toList]
      rfl
    rw [he]
    simp [List.utf8Encode]
  rw [hs, ← String.length_toList]
  exact length_le_flatMap hc s.toList

theorem quoteChar_ne_nil (plain : Char → Bool) (quote c : Char) : quoteChar plain quote c ≠ [] := by
  unfold quoteChar numberedEscape
  repeat' split
  all_goals simp

/-- Every byte takes a place in the quoted form, and the quotes take more. -/
theorem length_lt_quotedBytes (bs : List UInt8) : bs.length < (quotedBytes bs).length := by
  have hl := length_le_flatMap
    (quoteChar_ne_nil isPrintableAscii (quoteFor (bs.map fun b => Char.ofNat b.toNat)))
    (bs.map fun b => Char.ofNat b.toNat)
  rw [List.length_map] at hl
  simp only [quotedBytes, quotedWith, String.length_ofList, List.length_cons, List.length_append]
  omega

theorem quotedBytes_toUTF8_ne (s : String) : quotedBytes s.toUTF8.data.toList ≠ s := by
  intro h
  have h1 := length_le_toUTF8 s
  have h2 := length_lt_quotedBytes s.toUTF8.data.toList
  rw [h] at h2
  omega

end Text

/-- A value that spells a text is spelled as that text, unless it is bytes. -/
theorem Value.Spells.spelling?_iff {v : Value} {s : String} (h : v.Spells s) :
    v.spelling? = some s ↔ ∀ bs, v ≠ .bytes bs := by
  cases h with
  | text => exact ⟨nofun, fun _ => rfl⟩
  | utf8 =>
    constructor
    · intro hs
      exact absurd (Option.some.inj hs) (Text.quotedBytes_toUTF8_ne s)
    · intro hb
      exact absurd rfl (hb _)

/-! ## The names of built requests -/

/-- The arguments as fields, if every key is a text. -/
def Mapping.fields? (m : Mapping) : Option Request.Fields :=
  m.mapM fun e => e.1.text?.map fun name => (name, e.2)

/-- The fields are looked up under the keys of the arguments. -/
theorem Mapping.lookup_fields? {m : Mapping} {fields : Request.Fields} (h : m.fields? = some fields)
    (name : String) : fields.lookup name = getText? m name := by
  unfold fields? at h
  rw [mapM_some_iff] at h
  induction h with
  | nil => rfl
  | @cons e f m fs he _ ih =>
    obtain ⟨k, hk, rfl⟩ := Option.map_eq_some_iff.1 he
    obtain ⟨key, v⟩ := e
    cases Value.text?_eq_some hk
    simp only [getText?, get?, List.lookup_cons, List.find?_cons, Value.same_text] at ih ⊢
    cases name == k <;> simp [ih]

namespace Request

theorem fieldsOf_ok {reserved : List String} {arguments : Mapping} {fields : Fields}
    (h : fieldsOf reserved arguments = .ok fields) : arguments.fields? = some fields := by
  unfold fieldsOf at h
  rw [Outcome.bind_ok_iff] at h
  obtain ⟨fs, hm, h⟩ := h
  split at h
  · cases h
  · cases h
    exact orMisuse_ok_iff.1 hm

/-- The name of a built request comes from the argument of that name. -/
theorem nameOf_build {route : Route} {arguments : Mapping} {label : Option String} {r : Request}
    (h : build route arguments label = .ok r) : NameOf (Mapping.getText? arguments "name") r.name := by
  obtain ⟨fields, hf, hv⟩ := validate_of_build h
  rw [← Mapping.lookup_fields? (fieldsOf_ok hf)]
  exact checkName_iff.1 (validate_ok_iff.1 hv).name

end Request

/-! ## The names of entries -/

/-- An entry of a list that names its request by bytes. -/
inductive Listed.NamedByBytes : Listed → Prop
  | intro {i : Nat} {m : Mapping} {bs : List UInt8} :
    Mapping.getText? m "name" = some (.bytes bs) → NamedByBytes (.numbered i (.map m))

/-- A request stands under its own name, unless a list names it by bytes. -/
theorem Listed.Gives.key_iff {e : Listed} {c : Candidate} {r : String × Request} (h : e.Gives c)
    (hr : c.Becomes r) : r.1 = r.2.name ↔ ¬ e.NamedByBytes := by
  obtain ⟨hkey, hbuild⟩ := hr
  have hname := Request.nameOf_build hbuild
  cases h with
  | named _ hn hf =>
    -- the spelled key is written over the name, so bytes do not get through here
    rw [hf, Mapping.getText?_put] at hname
    cases hname with
    | given hs _ =>
      cases hs
      exact ⟨nofun, fun _ => Option.some.inj (hkey.symm.trans hn)⟩
  | @numbered i m v _ hm hn hf =>
    rw [hf, hm] at hname
    cases hname with
    | given hs _ =>
      have hv : v.spelling? = some r.1 := hn.symm.trans hkey
      have hb : (∀ bs, v ≠ .bytes bs) ↔ ¬ (Listed.numbered i (.map m)).NamedByBytes := by
        constructor
        · rintro hb ⟨hm'⟩
          exact hb _ (Option.some.inj (hm.symm.trans hm'))
        · rintro hb bs rfl
          exact hb ⟨hm⟩
      rw [← hb, ← hs.spelling?_iff, hv, Option.some.injEq]

theorem Candidate.Clear.nodup_names {path : String} {cs : List Candidate} (h : Clear path cs) :
    (cs.map Candidate.name).Nodup := by
  induction cs using List.reverseRecOn with
  | nil => exact List.nodup_nil
  | append_singleton cs c ih =>
    obtain ⟨hcs, hc⟩ := clear_concat.1 h
    have hnew : c.name ∉ cs.map Candidate.name := by
      intro hmem
      obtain ⟨b, hb, hbc⟩ := List.mem_map.1 hmem
      rcases hn : c.name with _ | name
      · exact hc _ (.unspelled hn)
      · exact hc _ (.duplicate hn ⟨b, hb, hbc.trans hn⟩)
    rw [List.map_append, List.nodup_append]
    refine ⟨ih hcs, List.nodup_singleton _, fun a ha b hb hab => ?_⟩
    cases List.mem_singleton.1 hb
    exact hnew (hab ▸ ha)

/-! ## Files -/

namespace File

/-- What stands under the key `requests` in a file, as it is read. -/
def Lists (f : File) (read : Reader) (requests : Value) : Prop :=
  ∃ m, f.document (.requestFile f.path .malformed) read = .ok (.map m) ∧
    Mapping.getText? m "requests" = some requests

/-- The entries of a file, as it is read. -/
def Holds (f : File) (read : Reader) (es : List Listed) : Prop :=
  ∃ requests, f.Lists read requests ∧ Listed.ofRequests? requests = some es

end File

namespace Request

variable {f : File} {read : File.Reader} {es : List Listed} {rs : List (String × Request)}

/-- A file that holds entries is loaded by the two walks over them. -/
theorem load_of_holds (h : f.Holds read es) : load f read = loadAll f.path es := by
  obtain ⟨requests, ⟨m, hdoc, hr⟩, he⟩ := h
  rw [load, hdoc, Outcome.ok_bind, ofDocument, Listed.entries_eq hr he]
  rfl

/-- A file that holds a value has entries, or it is refused as a whole. -/
theorem holds_or_refused {document : Value}
    (hdoc : f.document (.requestFile f.path .malformed) read = .ok document) :
    (∃ es, f.Holds read es) ∨ ∃ problem, load f read = .error (.requestFile f.path problem) := by
  unfold load ofDocument
  rw [hdoc, Outcome.ok_bind]
  cases document with
  | map m =>
    rcases hr : Mapping.getText? m "requests" with _ | requests
    · simp only [entries, hr]
      exact .inr ⟨_, rfl⟩
    · cases requests with
      | map | list => exact .inl ⟨_, _, ⟨m, hdoc, hr⟩, rfl⟩
      | _ =>
        simp only [entries, hr]
        exact .inr ⟨_, rfl⟩
  | _ => exact .inr ⟨_, rfl⟩

theorem exists_holds (h : load f read = .ok rs) : ∃ es, f.Holds read es := by
  obtain ⟨document, hdoc, -⟩ := Outcome.bind_ok_iff.1 h
  obtain hes | ⟨problem, hp⟩ := holds_or_refused hdoc
  · exact hes
  · cases hp.symm.trans h

/-- **The names of loaded requests**: no two of them stand under one name, and each stands under its own name
exactly if its entry does not name it by bytes. Where no entry does, no two requests have one name. -/
theorem load_keyed (h : load f read = .ok rs) :
    ∃ es, f.Holds read es ∧ (rs.map Prod.fst).Nodup ∧
      List.Forall₂ (fun e r => r.1 = r.2.name ↔ ¬ e.NamedByBytes) es rs ∧
      ((∀ e ∈ es, ¬ e.NamedByBytes) →
        (∀ r ∈ rs, r.1 = r.2.name) ∧ (rs.map fun r => r.2.name).Nodup) := by
  obtain ⟨es, hes⟩ := exists_holds h
  have hloaded := loaded_loadAll f.path es
  rw [← load_of_holds hes, h] at hloaded
  cases hloaded with
  | @built cs _ hgives hclear hbecomes =>
    have hkeys : cs.map Candidate.name = (rs.map Prod.fst).map some := by
      rw [List.map_map, ← List.forall₂_eq_eq_eq, List.forall₂_map_left_iff, List.forall₂_map_right_iff]
      exact hbecomes.imp fun _ _ hr => hr.1
    have hnodup : (rs.map Prod.fst).Nodup := by
      have hn := hclear.nodup_names
      rw [hkeys] at hn
      exact hn.of_map
    have hown : List.Forall₂ (fun e r => r.1 = r.2.name ↔ ¬ e.NamedByBytes) es rs := by
      refine (forall₂_comp_iff.1 ⟨cs, hgives, hbecomes⟩).imp fun e r h => ?_
      obtain ⟨c, hc, hr⟩ := h
      exact hc.key_iff hr
    refine ⟨es, hes, hnodup, hown, fun hall => ?_⟩
    have heq : ∀ r ∈ rs, r.1 = r.2.name := by
      intro r hr
      obtain ⟨e, he, hiff⟩ := exists_of_forall₂_mem hown hr
      exact hiff.2 (hall e he)
    refine ⟨heq, ?_⟩
    rw [← List.map_congr_left heq]
    exact hnodup

/-- A file whose keys are a number and bytes. -/
def spelledKeys : File :=
  ⟨"requests.yaml", some ("requests:\n  1: \x7bhostlist: a, users: u\x7d\n".toUTF8.data.toList ++
    "  !!binary d2Vi: \x7bhostlist: b, groups: g\x7d\n".toUTF8.data.toList)⟩

def spelledRequests : List (String × Request) :=
  [("1", ⟨"1", ["a"], ["u"], [], []⟩), ("b'web'", ⟨"b'web'", ["b"], [], ["g"], []⟩)]

theorem load_keyed_spelled :
    load spelledKeys = .ok spelledRequests ∧ ∃ es, spelledKeys.Holds Yaml.load es ∧
      List.Forall₂ (fun e r => r.1 = r.2.name ↔ ¬ e.NamedByBytes) es spelledRequests := by
  have hload : load spelledKeys = .ok spelledRequests := by decide +kernel
  obtain ⟨es, hes, -, hown, -⟩ := load_keyed hload
  exact ⟨hload, es, hes, hown⟩

/-- A file that lists one name twice, the first time as bytes. -/
def namedTwice : File :=
  ⟨"requests.yaml", some ("requests:\n- \x7bname: !!binary d2Vi, hostlist: a, users: u\x7d\n".toUTF8.data.toList ++
    "- \x7bname: web, hostlist: b, groups: g\x7d\n".toUTF8.data.toList)⟩

/-- It is accepted: the two requests of one name stand under two keys, and the first key is no name. -/
theorem load_namedTwice : ∃ rs, load namedTwice = .ok rs ∧ ¬ (∀ r ∈ rs, r.1 = r.2.name) ∧
    ¬ (rs.map fun r => r.2.name).Nodup := by
  refine ⟨[("b'web'", ⟨"web", ["a"], ["u"], [], []⟩), ("web", ⟨"web", ["b"], [], ["g"], []⟩)], ?_⟩
  decide +kernel

end Request

end AccessPlan
