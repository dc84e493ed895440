import AccessPlan.Proofs.Fanout

/-!
# The Match blocks of a request

A request has at most two Match blocks, one for its names and one for its addresses
(`Request.bucket`), and both hold the same parameters: its own directives with its allow lists
written over them (`Request.parameters`).

* `Request.matchBlocks_draft`: the blocks that compilation makes are `Request.blocks`.
* `Request.lookup_parameters`: what the parameters say of an allow list.
* `MatchBlock.criteria_of_key`: a block for names and one for addresses never share a key.
-/

set_option autoImplicit false

namespace AccessPlan

namespace Request

/-- The hosts that go into the block of a criterion. -/
def bucket (r : Request) : Criteria → List String
  | .host => (Host.classify r.hosts).names
  | .address => (Host.classify r.hosts).addresses

/-- Writes the subjects of a kind at their allow list, if there are any. -/
def writeSubjects (r : Request) (kind : SubjectKind) (fs : List (String × Directive)) :
    List (String × Directive) :=
  if r.subjects kind = [] then fs else putDirective fs (kind.setting.word, .words (r.subjects kind))

/-- The parameters of the Match blocks. -/
def parameters (r : Request) : List (String × Directive) :=
  r.writeSubjects .group (r.writeSubjects .user r.overrides)

/-- An entry of the parameters in a block: several words are a list there. -/
def blockEntry (e : String × Directive) : Value × Value :=
  (.text e.1, Directives.listed e.2.toValue)

/-- The block of a criterion. -/
def block (s : Settings) (r : Request) (c : Criteria) : MatchBlock :=
  ⟨c, joinTexts "," (r.bucket c), r.parameters.map blockEntry, s.read "sshd.match_position"⟩

/-- The criteria for which there are hosts. -/
def criteria (r : Request) : List Criteria := [.host, .address].filter fun c => r.bucket c ≠ []

/-- The blocks of a request. -/
def blocks (s : Settings) (r : Request) : List MatchBlock := r.criteria.map (r.block s)

/-! ## Parameters -/

theorem put_blockEntry (fs : List (String × Directive)) (name : String) (d : Directive) :
    Mapping.put (fs.map blockEntry) (.text name) (Directives.listed d.toValue) =
      (putDirective fs (name, d)).map blockEntry := by
  induction fs with
  | nil => rfl
  | cons f fs ih =>
    have hs : (Value.text name).same (.text f.1) = (name == f.1) := rfl
    rw [List.map_cons, blockEntry, Mapping.put, hs, putDirective]
    by_cases hf : f.1 = name
    · rw [if_pos (by simpa using hf.symm), if_pos (by simpa using hf), List.map_cons, blockEntry, hf]
    · rw [if_neg (by simpa using Ne.symm hf), if_neg (by simpa using hf), List.map_cons, ih,
        blockEntry]

theorem allow_draft (r : Request) (kind : SubjectKind) (fs : List (String × Directive)) :
    Directives.allow kind.setting.word (.tuple ((r.subjects kind).map .text)) (fs.map blockEntry) =
      .ok ((r.writeSubjects kind fs).map blockEntry) := by
  unfold Directives.allow writeSubjects
  by_cases h : r.subjects kind = []
  · simp [h, Value.isPresent, pure, Except.pure]
  · have hp : (Value.tuple ((r.subjects kind).map .text)).isPresent = true := by
      simpa [Value.isPresent] using h
    rw [if_pos hp, if_neg h, Value.items_tuple, Outcome.ok_bind, Outcome.pure_eq, ← put_blockEntry]
    rfl

theorem merge_draft (r : Request) :
    Directives.merge r.draft.overrides r.draft.users r.draft.groups =
      .ok (r.parameters.map blockEntry) := by
  have hu := r.allow_draft .user r.overrides
  have hg := r.allow_draft .group (r.writeSubjects .user r.overrides)
  have ho : r.directives.map (fun e => (e.1, Directives.listed e.2)) =
      r.overrides.map blockEntry := by
    rw [directives, List.map_map]
    rfl
  show Directives.allow Directives.allowUsers r.draft.users _ >>= _ = _
  rw [ho]
  exact (congrArg (· >>= _) hu).trans hg

theorem lookup_cons_ite {α : Type} (f : String × α) (fs : List (String × α)) (name : String) :
    (f :: fs).lookup name = if name = f.1 then some f.2 else fs.lookup name := by
  obtain ⟨n, d⟩ := f
  by_cases h : name = n
  · simp [h]
  · have hn : (name == n) = false := beq_false_of_ne h
    simp [List.lookup_cons, hn, h]

theorem lookup_putDirective (fs : List (String × Directive)) (e : String × Directive)
    (name : String) :
    (putDirective fs e).lookup name = if name = e.1 then some e.2 else fs.lookup name := by
  induction fs with
  | nil => exact lookup_cons_ite e [] name
  | cons f fs ih =>
    rw [putDirective]
    by_cases hf : f.1 = e.1
    · rw [if_pos (by simpa using hf), lookup_cons_ite, lookup_cons_ite, hf]
      split <;> rfl
    · rw [if_neg (by simpa using hf), lookup_cons_ite, lookup_cons_ite, ih]
      by_cases h : name = f.1
      · rw [if_pos h, if_pos h, if_neg (h ▸ hf)]
      · rw [if_neg h, if_neg h]

theorem lookup_writeSubjects (r : Request) (kind : SubjectKind) (fs : List (String × Directive))
    (name : String) : (r.writeSubjects kind fs).lookup name =
      if r.subjects kind ≠ [] ∧ name = kind.setting.word then some (.words (r.subjects kind))
      else fs.lookup name := by
  unfold writeSubjects
  split
  · rename_i h
    simp [h]
  · rename_i h
    simp [lookup_putDirective, h]

/-- **What the parameters say of an allow list**: the subjects of its kind, if there are any, and else what
the request's own directives say. -/
theorem lookup_parameters (r : Request) (kind : SubjectKind) :
    r.parameters.lookup kind.setting.word =
      if r.subjects kind = [] then r.overrides.lookup kind.setting.word
      else some (.words (r.subjects kind)) := by
  unfold parameters
  rw [lookup_writeSubjects, lookup_writeSubjects]
  cases kind with
  | user =>
    by_cases h : r.subjects .user = [] <;> simp [h, SubjectKind.setting, SettingKind.word]
  | group =>
    by_cases h : r.subjects .group = [] <;> simp [h, SubjectKind.setting, SettingKind.word]

theorem Valid.nodup_parameters {r : Request} (hr : r.Valid) :
    (r.parameters.map Prod.fst).Nodup := by
  have write {kind fs} (h : (fs.map Prod.fst).Nodup) :
      ((r.writeSubjects kind fs).map Prod.fst).Nodup := by
    unfold writeSubjects
    split
    · exact h
    · exact nodup_putDirective h _
  exact write (write hr.directives)

/-! ## Blocks -/

theorem ofBucket_texts (c : Criteria) (hosts : List String) (m : Mapping) (position : Value) :
    MatchBlock.ofBucket c (.list (hosts.map .text)) (.map m) position =
      .ok (if hosts = [] then [] else [⟨c, joinTexts "," hosts, m, position⟩]) := by
  unfold MatchBlock.ofBucket
  by_cases h : hosts = []
  · simp [h, Value.isPresent, pure, Except.pure]
  · have hp : (Value.list (hosts.map .text)).isPresent = true := by simpa [Value.isPresent] using h
    have ht : (Value.list (hosts.map .text)).texts = .ok hosts := Value.texts_tuple hosts
    rw [if_pos hp, if_neg h, ht]
    rfl

theorem matchBlocks_draft (s : Settings) (r : Request) :
    r.draft.matchBlocks s = .ok (r.blocks s) := by
  have hh : r.draft.hostValue = .ok (.tuple (r.hosts.map .text)) := rfl
  rw [Draft.matchBlocks, hh, Outcome.ok_bind, Value.texts_tuple, Outcome.ok_bind, merge_draft,
    Outcome.ok_bind, MatchBlock.synthesize, ofBucket_texts, Outcome.ok_bind, ofBucket_texts,
    Outcome.ok_bind, Outcome.pure_eq]
  refine congrArg _ ?_
  unfold blocks criteria
  have hn : (Host.classify r.hosts).names = r.bucket .host := rfl
  have ha : (Host.classify r.hosts).addresses = r.bucket .address := rfl
  rw [hn, ha]
  by_cases h1 : r.bucket .host = [] <;> by_cases h2 : r.bucket .address = [] <;>
    simp [h1, h2, block]

theorem mem_criteria {r : Request} {c : Criteria} : c ∈ r.criteria ↔ r.bucket c ≠ [] := by
  cases c <;> simp [criteria]

theorem nodup_criteria (r : Request) : r.criteria.Nodup :=
  List.Nodup.filter _ (by decide : [Criteria.host, .address].Nodup)

/-- A request with hosts has a block. -/
theorem Valid.criteria_ne {r : Request} (hr : r.Valid) : r.criteria ≠ [] := by
  intro hc
  have hb (c : Criteria) : r.bucket c = [] :=
    Classical.byContradiction fun h => by simpa [hc] using mem_criteria.2 h
  have hn : (Host.classify r.hosts).names = [] := hb .host
  have ha : (Host.classify r.hosts).addresses = [] := hb .address
  have hl := Host.length_classify r.hosts
  rw [hn, ha] at hl
  exact hr.hosts (List.length_eq_zero_iff.1 hl.symm)

/-- A valid request has parameters, for it allows somebody. -/
theorem Valid.parameters_ne {r : Request} (hr : r.Valid) : r.parameters ≠ [] := by
  obtain ⟨kind, hk⟩ := hr.exists_subjects
  intro hp
  have hl := r.lookup_parameters kind
  rw [hp, if_neg hk] at hl
  cases hl

end Request

/-! ## Keys -/

/-- The key of a block tells its criterion. -/
theorem MatchBlock.criteria_of_key {a b : MatchBlock} (h : a.key = b.key) :
    a.criteria = b.criteria := by
  have hh : a.key.toList.head? = b.key.toList.head? := by rw [h]
  simp only [key, String.toList_append] at hh
  cases ha : a.criteria <;> cases hb : b.criteria <;> simp_all [Criteria.word]

theorem Request.key_block_inj {s : Settings} {r : Request} {c c' : Criteria}
    (h : (r.block s c).key = (r.block s c').key) : c = c' :=
  MatchBlock.criteria_of_key h

theorem Sections.Of.blocks_eq {x : Sections} {s : Settings} {r : Request} {catalogue : Value}
    (h : x.Of s r.draft catalogue) : x.blocks = r.blocks s :=
  Except.ok.inj (h.blocks.symm.trans (r.matchBlocks_draft s))

end AccessPlan
