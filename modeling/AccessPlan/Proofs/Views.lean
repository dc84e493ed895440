import AccessPlan.Proofs.Overrides
import AccessPlan.Proofs.Records

/-!
# Records as views of operations

The record of an operation shows all of it but one thing: the place of the block that a parameter belongs
to, for a parameter shows its block by criterion and pattern only. `Operation.Alike` is agreement in what is
shown, and `Record.Same` is equality of records by content, whatever the order of their fields.

* `Record.IsOf.same_iff`: records of well-typed operations are equal by content only if they are equal.
* `Operation.WellTyped.alike_of_record`: well-typed operations that have one record are alike.
* `Plan.records_show`: the records of plans show the plans, up to the places of those blocks.
-/

set_option autoImplicit false

namespace AccessPlan

/-- Operations that agree in every field, but for the place of the block that a parameter belongs to. -/
inductive Operation.Alike : Operation → Operation → Prop
  | refl (op : Operation) : Alike op op
  | param (criteria : Criteria) (pattern position position' directive value : Value) :
    Alike (.matchParamSet ⟨criteria, pattern, position⟩ directive value)
      (.matchParamSet ⟨criteria, pattern, position'⟩ directive value)

/-! ## Words -/

theorem OperationKind.tag_inj {k k' : OperationKind} (h : k.tag = k'.tag) : k = k' := by
  cases k <;> cases k' <;> simp [tag] at h ⊢

theorem SettingKind.word_inj {k k' : SettingKind} (h : k.word = k'.word) : k = k' := by
  cases k <;> cases k' <;> simp [word] at h ⊢

theorem Criteria.word_inj {c c' : Criteria} (h : c.word = c'.word) : c = c' := by
  rw [← Option.some_inj, ← ofWord?_word, h, ofWord?_word]

/-- The key of a block tells its criterion and its pattern. -/
theorem Criteria.key_inj {c c' : Criteria} {pattern pattern' : String}
    (h : c.word ++ " " ++ pattern = c'.word ++ " " ++ pattern') : c = c' ∧ pattern = pattern' := by
  have hc : c = c' :=
    MatchBlock.criteria_of_key (a := ⟨c, pattern, [], .null⟩) (b := ⟨c', pattern', [], .null⟩) h
  subst hc
  refine ⟨rfl, ?_⟩
  have hl := congrArg String.toList h
  simp only [String.toList_append, List.append_cancel_left_eq] at hl
  exact String.toList_inj.1 hl

@[simp] theorem Value.texts_inj {ss ts : List String} : ss.map Value.text = ts.map .text ↔ ss = ts :=
  List.map_inj_right fun _ _ => Value.text.inj

theorem Directive.listed_inj {d d' : Directive} (h : d.listed = d'.listed) : d = d' := by
  cases d <;> cases d' <;> simp_all [listed, Value.texts_inj]

/-! ## Equality by content -/

/-- A value as the records of well-typed operations show it. -/
inductive Value.IsShown : Value → Prop
  | text (s : String) : IsShown (.text s)
  | int (i : Int) : IsShown (.int i)
  | texts (ss : List String) : IsShown (.list (ss.map .text))

theorem Value.same_iff_of_isShown {v w : Value} (hv : v.IsShown) (hw : w.IsShown) :
    v.same w = true ↔ v = w := by
  cases hv with
  | text s => cases hw <;> simp [same]
  | int i => cases hw <;> simp [same]
  | texts ss =>
    cases hw with
    | texts ts => simp [same, sameItems_iff_of_allTextual (allTextual_texts ts)]
    | _ => simp [same]

namespace Record

open Request (lookup_cons_ite lookup_eq_some_iff_mem lookup_eq_none_iff eq_of_lookup)

/-- The fields of a record as entries of a mapping. -/
def entries (r : Record) : Mapping := r.map fun f => (.text f.1, f.2)

/-- Equality of records by content: the same fields, in any order. -/
def Same (r s : Record) : Prop := (Value.map r.entries).same (.map s.entries) = true

theorem find?_entries (s : Record) (name : String) :
    (s.entries.find? fun e => (Value.text name).same e.1) =
      (s.lookup name).map fun w => (.text name, w) := by
  induction s with
  | nil => rfl
  | cons f s ih =>
    rw [entries, List.map_cons, List.find?_cons, Value.same_text, lookup_cons_ite]
    by_cases h : name = f.1
    · simp [h]
    · rw [if_neg h, beq_false_of_ne h]
      exact ih

theorem entriesIn_iff (r s : Record) : Value.entriesIn r.entries s.entries = true ↔
    ∀ f ∈ r, ∃ w, s.lookup f.1 = some w ∧ f.2.same w = true := by
  induction r with
  | nil => simp [entries, Value.entriesIn]
  | cons f r ih =>
    rw [entries, List.map_cons, Value.entriesIn, Bool.and_eq_true, List.forall_mem_cons, find?_entries]
    refine and_congr ?_ ih
    cases s.lookup f.1 <;> simp

theorem same_iff_lookup (r s : Record) : r.Same s ↔
    r.length = s.length ∧ ∀ f ∈ r, ∃ w, s.lookup f.1 = some w ∧ f.2.same w = true := by
  unfold Same
  rw [Value.same, Bool.and_eq_true, entriesIn_iff, beq_iff_eq, entries, entries, List.length_map,
    List.length_map]

/-- A record of an operation of a kind. -/
structure IsOf (kind : OperationKind) (r : Record) : Prop where
  tag : r.lookup "type" = some (.text kind.tag)
  names : r.map Prod.fst = "type" :: kind.fields.map Prod.fst
  values : ∀ f ∈ r, f.2.IsShown

variable {kind kind' : OperationKind} {r s : Record}

theorem IsOf.nodup (h : r.IsOf kind) : (r.map Prod.fst).Nodup := by
  rw [h.names]
  cases kind <;> decide

/-- Under each name, records that are equal by content have one value. -/
theorem IsOf.lookup_eq (hr : r.IsOf kind) (hs : s.IsOf kind') (h : r.Same s) {name : String} {v : Value}
    (hv : r.lookup name = some v) : s.lookup name = some v := by
  have hmem : (name, v) ∈ r := (lookup_eq_some_iff_mem hr.nodup).1 hv
  obtain ⟨w, hw, hvw⟩ := ((same_iff_lookup r s).1 h).2 _ hmem
  have hmem' : (name, w) ∈ s := (lookup_eq_some_iff_mem hs.nodup).1 hw
  have hvw : v = w := (Value.same_iff_of_isShown (hr.values _ hmem) (hs.values _ hmem')).1 hvw
  rw [hvw]
  exact hw

/-- **Records of well-typed operations are equal by content only if they are equal.** -/
theorem IsOf.same_iff (hr : r.IsOf kind) (hs : s.IsOf kind') : r.Same s ↔ r = s := by
  constructor
  · intro h
    have htag : some (Value.text kind.tag) = some (.text kind'.tag) :=
      (hr.lookup_eq hs h hr.tag).symm.trans hs.tag
    have hkind := OperationKind.tag_inj (Value.text.inj (Option.some.inj htag))
    have hnames : r.map Prod.fst = s.map Prod.fst := by rw [hr.names, hs.names, hkind]
    refine eq_of_lookup hr.nodup hnames fun name => ?_
    cases hv : r.lookup name with
    | some v => exact (hr.lookup_eq hs h hv).symm
    | none =>
      rw [lookup_eq_none_iff, hnames] at hv
      exact (lookup_eq_none_iff.2 hv).symm
  · rintro rfl
    refine (same_iff_lookup r r).2 ⟨rfl, fun f hf => ⟨f.2, ?_, ?_⟩⟩
    · exact (lookup_eq_some_iff_mem hr.nodup).2 hf
    · exact (Value.same_iff_of_isShown (hr.values f hf) (hr.values f hf)).2 rfl

end Record

/-! ## Operations -/

namespace Operation

variable {a b op : Operation}

attribute [simp] Value.IsShown.text Value.IsShown.int Value.IsShown.texts

theorem WellTyped.exists_record (h : op.WellTyped) : ∃ kind record, op.kind? = some kind ∧
    op.record = .ok record ∧ Record.IsOf kind record := by
  cases h with
  | matchParamSet criteria pattern position directive value =>
    refine ⟨_, _, rfl, rfl, rfl, rfl, ?_⟩
    cases value <;> simp [plain, Directive.listed]
  | _ => exact ⟨_, _, rfl, rfl, rfl, rfl, by simp [plain]⟩

theorem Alike.record_eq (h : a.Alike b) : a.record = b.record := by
  cases h <;> rfl

theorem Alike.key_eq (h : a.Alike b) : a.key = b.key := by
  cases h <;> rfl

theorem WellTyped.kind?_eq_of_record (ha : a.WellTyped) (hb : b.WellTyped) (h : a.record = b.record) :
    a.kind? = b.kind? := by
  obtain ⟨k, r, hk, hr, hrk⟩ := ha.exists_record
  obtain ⟨k', s, hk', hs, hsk⟩ := hb.exists_record
  have hrs : r = s := Except.ok.inj (hr.symm.trans (h.trans hs))
  have htag : some (Value.text k.tag) = some (.text k'.tag) := by rw [← hrk.tag, ← hsk.tag, hrs]
  rw [hk, hk', OperationKind.tag_inj (Value.text.inj (Option.some.inj htag))]

/-- **Well-typed operations that have one record are alike.** -/
theorem WellTyped.alike_of_record (ha : a.WellTyped) (hb : b.WellTyped) (h : a.record = b.record) :
    a.Alike b := by
  have hkind := ha.kind?_eq_of_record hb h
  have fields {r s : Record} (h : (.ok r : Outcome Record) = .ok s) : r = s := Except.ok.inj h
  -- operations of two kinds have two tags, so one case is left for each kind
  cases ha with
  | pamAllow kind subject origin permission position =>
    cases hb with
    | pamAllow kind' subject' origin' permission' position' =>
      have h := fields h
      simp only [plain, List.cons.injEq, Prod.mk.injEq, Value.text.injEq, true_and, and_true] at h
      obtain ⟨hword, rfl, rfl, rfl, rfl⟩ := h
      rw [SubjectKind.word_inj hword]
      exact .refl _
    | _ => cases hkind
  | firewallAllow =>
    cases hb with
    | firewallAllow =>
      cases fields h
      exact .refl _
    | _ => cases hkind
  | tcpWrapperAllow =>
    cases hb with
    | tcpWrapperAllow =>
      cases fields h
      exact .refl _
    | _ => cases hkind
  | domainAppend domain kind items =>
    cases hb with
    | domainAppend domain' kind' items' =>
      have h := fields h
      simp only [plain, plainAll_texts, List.cons.injEq, Prod.mk.injEq, Value.text.injEq,
        Value.list.injEq, Value.texts_inj, true_and, and_true] at h
      obtain ⟨rfl, hword, rfl⟩ := h
      rw [SettingKind.word_inj hword]
      exact .refl _
    | _ => cases hkind
  | matchBlockCreate criteria pattern position =>
    cases hb with
    | matchBlockCreate criteria' pattern' position' =>
      have h := fields h
      simp only [plain, List.cons.injEq, Prod.mk.injEq, Value.text.injEq, true_and, and_true] at h
      obtain ⟨hword, rfl, rfl⟩ := h
      rw [Criteria.word_inj hword]
      exact .refl _
    | _ => cases hkind
  | matchParamSet criteria pattern position directive value =>
    cases hb with
    | matchParamSet criteria' pattern' position' directive' value' =>
      have h := fields h
      simp only [plain_toValue, List.cons.injEq, Prod.mk.injEq, Value.text.injEq, true_and,
        and_true] at h
      obtain ⟨hkey, hdirective, hvalue⟩ := h
      obtain ⟨rfl, rfl⟩ := Criteria.key_inj hkey
      cases hdirective
      rw [Directive.listed_inj hvalue]
      exact .param ..
    | _ => cases hkind

/-- A well-typed operation and its record. -/
def Shows (op : Operation) (r : Record) : Prop := op.WellTyped ∧ op.record = .ok r

theorem Shows.same_iff {r s : Record} (ha : a.Shows r) (hb : b.Shows s) : r.Same s ↔ a.Alike b := by
  obtain ⟨ha, hr⟩ := ha
  obtain ⟨hb, hs⟩ := hb
  obtain ⟨k, r', -, hr', hrk⟩ := ha.exists_record
  obtain ⟨k', s', -, hs', hsk⟩ := hb.exists_record
  cases hr.symm.trans hr'
  cases hs.symm.trans hs'
  rw [hrk.same_iff hsk]
  constructor
  · rintro rfl
    exact ha.alike_of_record hb (hr.trans hs.symm)
  · intro h
    exact Except.ok.inj (hr.symm.trans (h.record_eq.trans hs))

end Operation

/-! ## Plans -/

namespace Plan

variable {p q : Plan} {rs ss : List Record}

theorem exists_shows (h : ∀ op ∈ p, op.WellTyped) :
    ∃ rs, p.records = .ok rs ∧ List.Forall₂ Operation.Shows p rs := by
  obtain ⟨rs, hrs⟩ : ∃ rs, List.Forall₂ Operation.Shows p rs := by
    refine exists_forall₂_iff.2 fun op hop => ?_
    obtain ⟨-, r, -, hr, -⟩ := (h op hop).exists_record
    exact ⟨r, h op hop, hr⟩
  exact ⟨rs, Outcome.mapM_ok_iff.2 (hrs.imp fun _ _ h => h.2), hrs⟩

theorem forall₂_same_iff (hp : List.Forall₂ Operation.Shows p rs)
    (hq : List.Forall₂ Operation.Shows q ss) :
    List.Forall₂ Record.Same rs ss ↔ List.Forall₂ Operation.Alike p q := by
  induction hp generalizing q ss with
  | nil => cases hq <;> simp
  | cons ha _ ih =>
    cases hq with
    | nil => simp
    | cons hb hq => simp [ha.same_iff hb, ih hq]

/-- **The records of plans show the plans.** Two well-typed operations have records that are equal by content
exactly if they agree in every field, but for the place of the block that a parameter belongs to; the records
are then the same field by field, and the keys are equal. So the records of two plans are equal exactly if
the plans are equal up to the places of those blocks. -/
theorem records_show (hp : ∀ op ∈ p, op.WellTyped) (hq : ∀ op ∈ q, op.WellTyped) :
    (∀ a ∈ p, ∀ b ∈ q, ∃ r s : Record, a.record = .ok r ∧ b.record = .ok s ∧
      (r.Same s ↔ a.Alike b) ∧ (r.Same s → r = s ∧ a.key = b.key)) ∧
    ∃ rs ss : List Record, p.records = .ok rs ∧ q.records = .ok ss ∧
      (List.Forall₂ Record.Same rs ss ↔ List.Forall₂ Operation.Alike p q) := by
  constructor
  · intro a ha b hb
    obtain ⟨-, r, -, hr, -⟩ := (hp a ha).exists_record
    obtain ⟨-, s, -, hs, -⟩ := (hq b hb).exists_record
    have hsame : Record.Same r s ↔ a.Alike b := Operation.Shows.same_iff ⟨hp a ha, hr⟩ ⟨hq b hb, hs⟩
    refine ⟨r, s, hr, hs, hsame, fun h => ?_⟩
    have halike := hsame.1 h
    exact ⟨Except.ok.inj (hr.symm.trans (halike.record_eq.trans hs)), halike.key_eq⟩
  · obtain ⟨rs, hrs, hps⟩ := exists_shows hp
    obtain ⟨ss, hss, hqs⟩ := exists_shows hq
    exact ⟨rs, ss, hrs, hss, forall₂_same_iff hps hqs⟩

/-- A parameter with one word, in a block that goes to a place. -/
def placed (position : String) (value : Directive) : Plan :=
  [.matchParamSet ⟨.host, .text "a b", .text position⟩ (.text "AllowUsers") value.toValue]

theorem placed_wellTyped (position : String) (value : Directive) :
    ∀ op ∈ placed position value, op.WellTyped := by
  intro op hop
  cases List.mem_singleton.1 hop
  exact .matchParamSet .host "a b" position "AllowUsers" value

/-- The place of the block is not shown; one word and a list of one word are told apart. -/
theorem records_show_placed :
    (∀ op ∈ placed "end" (.words ["u"]), op.WellTyped) ∧
    (∀ op ∈ placed "before first match" (.words ["u"]), op.WellTyped) ∧
    (∃ rs ss, (placed "end" (.words ["u"])).records = .ok rs ∧
      (placed "before first match" (.words ["u"])).records = .ok ss ∧ List.Forall₂ Record.Same rs ss) ∧
    ∃ rs ss, (placed "end" (.words ["u"])).records = .ok rs ∧
      (placed "end" (.word "u")).records = .ok ss ∧ ¬ List.Forall₂ Record.Same rs ss := by
  have hp := placed_wellTyped "end" (.words ["u"])
  have hq := placed_wellTyped "before first match" (.words ["u"])
  have hw := placed_wellTyped "end" (.word "u")
  refine ⟨hp, hq, ?_, ?_⟩
  · obtain ⟨-, rs, ss, hrs, hss, hsame⟩ := records_show hp hq
    exact ⟨rs, ss, hrs, hss, hsame.2 (.cons (.param ..) .nil)⟩
  · obtain ⟨-, rs, ss, hrs, hss, hsame⟩ := records_show hp hw
    refine ⟨rs, ss, hrs, hss, fun h => ?_⟩
    cases hsame.1 h with
    | cons h _ => cases h

end Plan

end AccessPlan
