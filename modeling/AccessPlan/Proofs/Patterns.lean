import AccessPlan.Proofs.Mappings
import AccessPlan.Proofs.Rules
import AccessPlan.Text.Split

/-!
# The patterns of Match blocks

Every entry of a request goes into one pattern, in order: the entries with a letter into that of the block for
names, the others into that of the block for addresses. A pattern is its entries with commas between, so
commas cut it into the pieces that they cut the entries into.

* `Text.split_joinTexts`: the pieces of a join are those of the texts that were joined, one after another.
* `Request.bucket_eq`, `Request.not_hasLetter_addresses`: where an entry goes, by its letters.
* `Sections.Of.holdsBlock`: a plan sets parameters in the block of a criterion, and creates it if it is new.
* `Settings.compile_patterns`: the blocks in the plan of a built request and what their patterns are.
-/

set_option autoImplicit false

namespace AccessPlan

/-! ## Joining and splitting -/

namespace Text

theorem toList_joinTexts_cons (sep s : String) {ss : List String} (h : ss ≠ []) :
    (joinTexts sep (s :: ss)).toList = s.toList ++ (sep.toList ++ (joinTexts sep ss).toList) := by
  cases ss with
  | nil => exact absurd rfl h
  | cons t ss => simp [joinTexts]

/-- The pieces of a join are the pieces of the texts that were joined, one after another. -/
theorem split_joinTexts {ss : List String} (h : ss ≠ []) :
    split ',' (joinTexts "," ss) = ss.flatMap (split ',') := by
  induction ss with
  | nil => exact absurd rfl h
  | cons s ss ih =>
    by_cases hs : ss = []
    · subst hs
      simp [joinTexts]
    · rw [List.flatMap_cons, ← ih hs]
      unfold split
      rw [toList_joinTexts_cons "," s hs, ← List.map_append]
      exact congrArg _ (splitChars_append_sep ',' _ _)

theorem mem_toList_joinTexts {sep : String} {ss : List String} {c : Char}
    (h : c ∈ (joinTexts sep ss).toList) : c ∈ sep.toList ∨ ∃ s ∈ ss, c ∈ s.toList := by
  induction ss with
  | nil => simp [joinTexts] at h
  | cons s ss ih =>
    by_cases hs : ss = []
    · subst hs
      exact .inr ⟨s, by simp, h⟩
    · rw [toList_joinTexts_cons sep s hs, List.mem_append, List.mem_append] at h
      rcases h with h | h | h
      · exact .inr ⟨s, by simp, h⟩
      · exact .inl h
      · obtain hsep | ⟨t, ht, hc⟩ := ih h
        · exact .inl hsep
        · exact .inr ⟨t, List.mem_cons_of_mem _ ht, hc⟩

end Text

/-! ## Entries by their letters -/

namespace Host

/-- Whether a character is a letter from `a` to `z`, small or capital. -/
def IsLetter (c : Char) : Prop := 'a' ≤ c ∧ c ≤ 'z' ∨ 'A' ≤ c ∧ c ≤ 'Z'

/-- Whether an entry holds a letter. -/
def HasLetter (entry : String) : Prop := ∃ c ∈ entry.toList, IsLetter c

theorem isAlpha_iff (c : Char) : c.isAlpha = true ↔ IsLetter c := by
  simp only [Char.isAlpha, Char.isUpper, Char.isLower, IsLetter, Char.le_def, Bool.or_eq_true,
    Bool.and_eq_true, decide_eq_true_eq]
  exact or_comm

@[simp] theorem isName_iff (entry : String) : isName entry = true ↔ HasLetter entry := by
  simp only [isName, HasLetter, List.any_eq_true, isAlpha_iff]

instance (entry : String) : Decidable (HasLetter entry) := decidable_of_iff _ (isName_iff entry)

end Host

/-- The entries that the block of a criterion is for. -/
def Criteria.Takes : Criteria → String → Prop
  | .host, entry => Host.HasLetter entry
  | .address, entry => ¬ Host.HasLetter entry

instance : (c : Criteria) → (entry : String) → Decidable (c.Takes entry)
  | .host, entry => inferInstanceAs (Decidable (Host.HasLetter entry))
  | .address, entry => inferInstanceAs (Decidable ¬ Host.HasLetter entry)

namespace Request

theorem bucket_eq (r : Request) (c : Criteria) :
    r.bucket c = r.hosts.filter fun entry => c.Takes entry := by
  cases c with
  | host =>
    refine List.filter_congr fun entry _ => ?_
    rw [Bool.eq_iff_iff, decide_eq_true_eq, Host.isName_iff]
    rfl
  | address =>
    refine List.filter_congr fun entry _ => ?_
    rw [Bool.eq_iff_iff, decide_eq_true_eq, Bool.not_eq_true', ← Bool.not_eq_true, Host.isName_iff]
    rfl

theorem bucket_ne_nil_iff {r : Request} {c : Criteria} :
    r.bucket c ≠ [] ↔ ∃ entry ∈ r.hosts, c.Takes entry := by
  rw [bucket_eq]
  simp

/-- A pattern of addresses holds no letter: a comma is none. -/
theorem not_hasLetter_addresses (r : Request) :
    ¬ Host.HasLetter (joinTexts "," (r.bucket .address)) := by
  rintro ⟨c, hc, hletter⟩
  rcases Text.mem_toList_joinTexts hc with hcomma | ⟨entry, he, hc⟩
  · have hc : c = ',' := by simpa using hcomma
    subst hc
    revert hletter
    unfold Host.IsLetter
    decide
  · rw [bucket_eq, List.mem_filter, decide_eq_true_eq] at he
    exact he.2 ⟨c, hc, hletter⟩

theorem split_pattern {r : Request} {c : Criteria} (h : r.bucket c ≠ []) :
    Text.split ',' (joinTexts "," (r.bucket c)) =
      (r.hosts.filter fun entry => c.Takes entry).flatMap (Text.split ',') := by
  rw [Text.split_joinTexts h, bucket_eq]

end Request

/-! ## Blocks in a plan -/

/-- A plan holds the block of a header, and no other block for its criterion: it sets parameters there, and
creates the block exactly if its key is new. -/
structure Plan.HoldsBlock (p : Plan) (known : List Value) (header : Header) : Prop where
  set : ∃ directive value, .matchParamSet header directive value ∈ p
  create : .matchBlockCreate header ∈ p ↔ ∀ key, header.key = .ok key → Value.text key ∉ known
  unique : ∀ op ∈ p, ∀ other, op.header? = some other → other.criteria = header.criteria → other = header

/-- The criteria of the blocks that a plan speaks of, operation by operation. -/
def Plan.blockCriteria (p : Plan) : List Criteria := (p.filterMap Operation.header?).map Header.criteria

namespace Sections.Of

variable {x : Sections} {s : Settings} {r : Request} {catalogue : Value}

theorem create_mem_iff (h : x.Of s r.draft catalogue) (known : List Value) {c : Criteria}
    (hc : c ∈ r.criteria) :
    .matchBlockCreate (r.block s c).header ∈ x.plan known ↔ Value.text (r.block s c).key ∉ known := by
  have hknown : known.any (Value.same (.text (r.block s c).key)) = true ↔
      Value.text (r.block s c).key ∈ known := by
    simp
  constructor
  · intro hop hmem
    rcases List.mem_append.1 hop with hop | hop
    · cases h.header?_front _ hop
    · obtain ⟨b, hb, hop⟩ := List.mem_flatMap.1 hop
      rw [h.blocks_eq] at hb
      obtain ⟨c', -, rfl⟩ := List.mem_map.1 hb
      rcases List.mem_append.1 hop with hop | hop
      · split at hop
        · rename_i hnew
          have hcc : c = c' := congrArg Header.criteria
            (Operation.matchBlockCreate.inj (List.mem_singleton.1 hop))
          subst hcc
          simp [hknown.2 hmem] at hnew
        · cases hop
      · obtain ⟨e, -, he⟩ := List.mem_map.1 hop
        cases he
  · intro hmem
    have hnew : known.any (Value.same (.text (r.block s c).key)) = false :=
      Bool.eq_false_iff.2 fun hany => hmem (hknown.1 hany)
    refine List.mem_append_right _ (List.mem_flatMap.2 ⟨r.block s c, ?_, ?_⟩)
    · rw [h.blocks_eq]
      exact List.mem_map_of_mem hc
    · rw [hnew]
      exact List.mem_append_left _ (List.mem_singleton.2 rfl)

theorem holdsBlock (h : x.Of s r.draft catalogue) (hr : r.Valid) (known : List Value) {c : Criteria}
    (hc : c ∈ r.criteria) : (x.plan known).HoldsBlock known (r.block s c).header where
  set := by
    obtain ⟨e, he⟩ := List.exists_mem_of_ne_nil _ hr.parameters_ne
    exact ⟨_, _, h.set_mem_plan known hc he⟩
  create := by
    rw [h.create_mem_iff known hc, MatchBlock.header_key]
    constructor
    · rintro hnew _ ⟨⟩
      exact hnew
    · intro hnew
      exact hnew _ rfl
  unique op hop other hother hcriteria := by
    obtain ⟨c', -, rfl⟩ := (h.mem_headers hr known other).1 (List.mem_filterMap.2 ⟨op, hop, hother⟩)
    rw [show c' = c from hcriteria]

/-- The block for names comes before the block for addresses. -/
theorem pairwise_criteria (h : x.Of s r.draft catalogue) (known : List Value) :
    (x.plan known).blockCriteria.Pairwise fun c c' => c = .address → c' = .address := by
  have hfront : x.front.filterMap Operation.header? = [] :=
    List.filterMap_eq_nil_iff.2 h.header?_front
  have hcriteria : r.criteria.Pairwise fun c c' => c = .address → c' = .address :=
    List.Pairwise.filter _ (by decide)
  have hblock (c : Criteria) (create : Bool) :
      ∀ c' ∈ (((r.block s c).operations create).filterMap Operation.header?).map Header.criteria, c' = c := by
    intro c' hc'
    obtain ⟨header, hh, rfl⟩ := List.mem_map.1 hc'
    obtain ⟨op, hop, hheader⟩ := List.mem_filterMap.1 hh
    rw [MatchBlock.header?_operations hop] at hheader
    cases hheader
    rfl
  unfold Plan.blockCriteria
  rw [plan, List.filterMap_append, hfront, List.nil_append, rear, h.blocks_eq, Request.blocks,
    List.flatMap_map, List.filterMap_flatMap, List.map_flatMap, List.pairwise_flatMap]
  constructor
  · intro c _
    refine List.pairwise_of_forall_mem_list fun a ha b hb hac => ?_
    rw [hblock _ _ b hb, ← hblock _ _ a ha, hac]
  · refine hcriteria.imp fun {c c'} hcc a ha b hb hac => ?_
    rw [hblock _ _ b hb]
    exact hcc (by rw [← hblock _ _ a ha, hac])

end Sections.Of

/-- The pattern of a criterion, as commas cut it. -/
structure Request.PatternOf (r : Request) (c : Criteria) (pattern : String) : Prop where
  pieces : Text.split ',' pattern = (r.hosts.filter fun entry => c.Takes entry).flatMap (Text.split ',')
  entries : (∀ entry ∈ r.hosts, c.Takes entry → ',' ∉ entry.toList) →
    Text.split ',' pattern = r.hosts.filter fun entry => c.Takes entry
  letters : c = .address → ¬ Host.HasLetter pattern

theorem Request.patternOf_block {r : Request} {c : Criteria} (h : r.bucket c ≠ []) :
    r.PatternOf c (joinTexts "," (r.bucket c)) where
  pieces := split_pattern h
  entries hcommas := by
    have hsplit : ∀ entry ∈ r.hosts.filter (fun entry => c.Takes entry), Text.split ',' entry = [entry] := by
      intro entry he
      obtain ⟨hmem, htakes⟩ := List.mem_filter.1 he
      rw [Text.split, Text.splitChars_of_not_mem (hcommas entry hmem (of_decide_eq_true htakes))]
      simp
    rw [split_pattern h, List.flatMap_congr hsplit, List.flatMap_singleton']
  letters hc := by
    subst hc
    exact r.not_hasLetter_addresses

/-- **Every host lands in one pattern, in order.** The plan of a built request speaks of the block of a criterion
exactly if the criterion takes some entry, and names come before addresses. There is one block for a
criterion, and its pattern holds the entries that the criterion takes, in order and with repeats. -/
theorem Settings.compile_patterns {s : Settings} {route : Request.Route} {arguments : Mapping}
    {label : Option String} {r : Request} {source : DomainSource} {existing : Value} {p : Plan}
    (hr : Request.build route arguments label = .ok r)
    (h : (s.compile r.draft source existing).result = .ok p) :
    ∃ known, knownKeys existing = .ok known ∧
      (∀ c, c ∈ p.blockCriteria ↔ ∃ entry ∈ r.hosts, c.Takes entry) ∧
      p.blockCriteria.Pairwise (fun c c' => c = .address → c' = .address) ∧
      ∀ c, (∃ entry ∈ r.hosts, c.Takes entry) → ∃ pattern position,
        p.HoldsBlock known ⟨c, .text pattern, position⟩ ∧ r.PatternOf c pattern := by
  obtain ⟨-, catalogue, x, known, -, hx, hk, rfl⟩ := compile_ok_iff.1 h
  have hv := Request.valid_of_build hr
  refine ⟨known, hk, fun c => ?_, hx.pairwise_criteria known, fun c hc => ?_⟩
  · rw [← Request.bucket_ne_nil_iff, ← Request.mem_criteria]
    constructor
    · intro hc
      obtain ⟨header, hheader, rfl⟩ := List.mem_map.1 hc
      obtain ⟨c', hc', rfl⟩ := (hx.mem_headers hv known header).1 hheader
      exact hc'
    · intro hc
      exact List.mem_map.2 ⟨_, (hx.mem_headers hv known _).2 ⟨c, hc, rfl⟩, rfl⟩
  · have hbucket := Request.bucket_ne_nil_iff.2 hc
    exact ⟨_, _, hx.holdsBlock hv known (Request.mem_criteria.2 hbucket), Request.patternOf_block hbucket⟩

/-- Arguments with names and addresses in turn, some of which hold commas. -/
def mixedArguments : Mapping :=
  [(.text "name", .text "mixed"), (.text "users", .text "alice"),
    (.text "hostlist", .list ([" web", "1,2", "db,db", "é", "::a", "10.0.0.1", " web"].map .text))]

/-- The request that they make. -/
def mixedRequest : Request :=
  ⟨"mixed", [" web", "1,2", "db,db", "é", "::a", "10.0.0.1", " web"], ["alice"], [], []⟩

theorem compile_mixed_patterns : ∃ p,
    ((Settings.ofTree []).compile mixedRequest.draft (.given .null)
      (.list [.text "Address 1,2,é,10.0.0.1"])).result = .ok p ∧
    (∀ c, c ∈ p.blockCriteria) ∧
    ∃ names addresses position position',
      p.HoldsBlock [.text "Address 1,2,é,10.0.0.1"] ⟨.host, .text names, position⟩ ∧
      p.HoldsBlock [.text "Address 1,2,é,10.0.0.1"] ⟨.address, .text addresses, position'⟩ ∧
      Text.split ',' names = [" web", "db", "db", "::a", " web"] ∧
      Text.split ',' addresses = ["1", "2", "é", "10.0.0.1"] ∧ ¬ Host.HasLetter addresses := by
  have hr : Request.build .builder mixedArguments none = .ok mixedRequest := by decide +kernel
  have hok : ((Settings.ofTree []).compile mixedRequest.draft (.given .null)
      (.list [.text "Address 1,2,é,10.0.0.1"])).result.isOk = true := by cbv
  obtain ⟨p, hp⟩ := Outcome.exists_ok hok
  obtain ⟨known, hk, hcriteria, -, hpatterns⟩ := Settings.compile_patterns hr hp
  cases (knownKeys_texts ["Address 1,2,é,10.0.0.1"]).symm.trans hk
  have htakes (c : Criteria) : ∃ entry ∈ mixedRequest.hosts, c.Takes entry := by
    cases c <;> decide
  obtain ⟨names, position, hnames, hn⟩ := hpatterns .host (htakes .host)
  obtain ⟨addresses, position', haddresses, ha⟩ := hpatterns .address (htakes .address)
  refine ⟨p, hp, fun c => (hcriteria c).2 (htakes c), names, addresses, position, position', hnames,
    haddresses, ?_, ?_, ha.letters rfl⟩
  · rw [hn.pieces]
    decide
  · rw [ha.pieces]
    decide

end AccessPlan
