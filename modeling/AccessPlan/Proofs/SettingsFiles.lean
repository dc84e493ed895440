import AccessPlan.File
import AccessPlan.Proofs.Layers
import AccessPlan.Proofs.Outcome

/-!
# Settings from values and from files

Settings are made of a tree, which is given as a value or is the document of a file, and they answer as that
tree over the defaults.

* `Yaml.Document.reading_throughout`, `Yaml.load_throughout`: in what is read from a file, no text is a key of a
  mapping twice.
* `Settings.load_ok_iff`: the documents that settings can be read from, and what tree they give.
* `Settings.answers_layered`: what settings of either origin answer.
-/

set_option autoImplicit false

namespace AccessPlan

open Mapping (NoTextTwice keys)

/-! ## What is read from a file -/

namespace Yaml

theorem exists_of_bind_ok {α β : Type} {x : Except Problem α} {f : α → Except Problem β} {b : β}
    (h : x >>= f = .ok b) : ∃ a, f a = .ok b := by
  cases x with
  | error e => cases h
  | ok a => exact ⟨a, h⟩

theorem Stamp.value_ne_map (s : Stamp) (m : Mapping) : s.value ≠ some (.map m) := by
  intro h
  obtain ⟨date, -, h⟩ := Option.bind_eq_some_iff.1 h
  split at h
  · cases h
  · obtain ⟨moment, -, h⟩ := Option.map_eq_some_iff.1 h
    cases h

/-- A scalar is never a mapping. -/
theorem Scalar.value_ne_map (number : Nat) (tag : Tag) (s : String) (m : Mapping) :
    Scalar.value number tag s ≠ .ok (.map m) := by
  intro h
  cases tag with
  | bool =>
    unfold Scalar.value Scalar.bool at h
    obtain ⟨b, h⟩ := exists_of_bind_ok h
    cases h
  | int =>
    obtain ⟨cs, h⟩ := exists_of_bind_ok h
    obtain ⟨n, h⟩ := exists_of_bind_ok h
    cases h
  | float =>
    obtain ⟨⟨negative, cs⟩, h⟩ := exists_of_bind_ok h
    dsimp only at h
    split at h
    · cases h
    · split at h
      · cases h
      · split at h
        · obtain ⟨parts, h⟩ := exists_of_bind_ok h
          cases h
        · obtain ⟨x, h⟩ := exists_of_bind_ok h
          cases h
  | binary =>
    simp only [Scalar.value, Scalar.binary] at h
    split at h <;> cases h
  | timestamp =>
    obtain ⟨stamp, h⟩ := exists_of_bind_ok h
    unfold Scalar.orRefuse at h
    split at h
    · next v hv =>
      cases h
      exact stamp.value_ne_map m hv
    · cases h
  | _ => cases h

namespace Document

open Mapping (ofEntries)

theorem throughout_null : Value.null.Throughout NoTextTwice := .leaf (by simp)

theorem throughout_ofEntries {es : List (Value × Value)} (h : ∀ e ∈ es, e.2.Throughout NoTextTwice) :
    (Value.map (ofEntries es)).Throughout NoTextTwice := by
  refine .map (Mapping.noTextTwice_putAll es List.nodup_nil) fun e he => ?_
  rcases Mapping.mem_putAll he with ⟨e', he', hv⟩ | he
  · exact hv ▸ h e' he'
  · cases he

theorem ofExcept_throughout {depth : Nat} {x : Except Problem Value} (h : ∀ m, x ≠ .ok (.map m)) :
    (Reading.ofExcept depth x).result.Throughout NoTextTwice := by
  cases x with
  | error p => exact throughout_null
  | ok v => exact .leaf fun m hv => h m (congrArg Except.ok hv)

/-- In the value of a node, no text is a key of a mapping twice. -/
theorem reading_throughout (d : Document) (fuel : Nat) (around : List String) (depth : Nat) (n : Node) :
    (d.reading fuel around depth n).result.Throughout NoTextTwice := by
  induction fuel generalizing around depth n with
  | zero => exact throughout_null
  | succ fuel ih =>
    unfold reading
    dsimp only
    split
    · -- a reference to a collection around it
      split
      · exact .leaf nofun
      · split
        · exact ih around depth _
        · exact throughout_null
    split
    case h_1 | h_4 | h_5 =>
      -- a sequence, or one of pairs
      split
      · exact .leaf (by simp)
      · exact throughout_null
    case h_2 =>
      -- a mapping: its entries are read one deeper
      split
      · split
        · refine throughout_ofEntries fun e he => ?_
          obtain ⟨r, hr, rfl⟩ := List.mem_map.1 he
          obtain ⟨e, -, rfl⟩ := List.mem_map.1 hr
          exact ih _ (depth + 1) e.2
        · exact throughout_null
      · exact throughout_null
    case h_3 =>
      -- a set
      split
      · split
        · exact .leaf (by simp)
        · exact throughout_null
      · exact throughout_null
    case h_6 | h_7 | h_8 => exact throughout_null
    case h_9 =>
      split
      · exact ofExcept_throughout (Scalar.value_ne_map _ _ _)
      · exact throughout_null

end Document

/-- In what is read from a file, no text is a key of a mapping twice. -/
theorem load_throughout {bytes : List UInt8} {v : Value} (h : load bytes = .ok v) :
    v.Throughout NoTextTwice := by
  unfold load at h
  split at h
  · unfold ofText at h
    dsimp only at h
    split at h
    · obtain ⟨document, h⟩ := exists_of_bind_ok h
      cases document with
      | none =>
        cases h
        exact Document.throughout_null
      | some d =>
        simp only [Document.value, Reading.toExcept] at h
        split at h
        · cases h
        · cases h
          exact d.reading_throughout _ [] 0 d.root
    · cases h
  · cases h

end Yaml

theorem File.document_throughout {f : File} {malformed : Fault} {v : Value}
    (h : f.document malformed = .ok v) : v.Throughout NoTextTwice := by
  unfold File.document at h
  split at h
  · cases h
  · split at h
    · next w hw =>
      cases h
      exact Yaml.load_throughout hw
    · cases h
    · cases h

/-! ## What settings are made of -/

namespace Settings

/-- A document that settings can be read from, and the tree that it gives: none, or a mapping of sections. -/
inductive TreeOf : Value → Mapping → Prop
  | null : TreeOf .null []
  | sections {tree : Mapping} :
    (∀ key ∈ keys tree, key ∈ ["pam", "firewall", "tcpwrapper", "sshd"].map Value.text) →
    TreeOf (.map tree) tree

theorem hasKey_defaults_iff {key : Value} : Mapping.hasKey defaults key = true ↔
    key ∈ ["pam", "firewall", "tcpwrapper", "sshd"].map Value.text := by
  rw [Mapping.hasKey_eq_any_keys, show keys defaults = ["pam", "firewall", "tcpwrapper", "sshd"].map Value.text
    from rfl]
  simp

theorem TreeOf.throughout {document : Value} {tree : Mapping} (ht : TreeOf document tree)
    (h : document.Throughout NoTextTwice) : (Value.map tree).Throughout NoTextTwice := by
  cases ht with
  | null => exact .map List.nodup_nil nofun
  | sections _ => exact h

theorem ofDocument_ok_iff {path : String} {document : Value} {s : Settings} :
    ofDocument path document = .ok s ↔ ∃ tree, TreeOf document tree ∧ s = ofTree tree := by
  cases document with
  | null =>
    constructor
    · intro h
      cases h
      exact ⟨[], .null, rfl⟩
    · rintro ⟨_, ⟨⟩, rfl⟩
      rfl
  | map tree =>
    have hsections : ((keys tree).filter fun key => !Mapping.hasKey defaults key) = [] ↔
        ∀ key ∈ keys tree, key ∈ ["pam", "firewall", "tcpwrapper", "sshd"].map Value.text := by
      simp only [List.filter_eq_nil_iff, Bool.not_eq_true', Bool.not_eq_false, hasKey_defaults_iff]
    unfold ofDocument
    dsimp only
    split
    · next hnone =>
      constructor
      · intro h
        cases h
        exact ⟨tree, .sections (hsections.1 hnone), rfl⟩
      · rintro ⟨_, ⟨⟩, rfl⟩
        rfl
    · next hsome =>
      constructor
      · intro h
        obtain ⟨names, -, h⟩ := Outcome.bind_ok_iff.1 h
        cases h
      · rintro ⟨_, ht, rfl⟩
        cases ht with
        | sections htree => exact absurd (hsections.2 htree) hsome
  | _ =>
    constructor
    · intro h
      cases h
    · rintro ⟨_, ⟨⟩, _⟩

/-- Settings are read from a file exactly if it holds a document that gives a tree, and then they are those
of the tree. -/
theorem load_ok_iff {f : File} {s : Settings} : load f = .ok s ↔
    ∃ document tree, f.document (.settings (.malformed f.path)) = .ok document ∧ TreeOf document tree ∧
      s = ofTree tree := by
  unfold load
  simp only [Outcome.bind_ok_iff, ofDocument_ok_iff]
  exact ⟨fun ⟨document, hd, tree, ht, hs⟩ => ⟨document, tree, hd, ht, hs⟩,
    fun ⟨document, tree, hd, ht, hs⟩ => ⟨document, hd, tree, ht, hs⟩⟩

@[simp] theorem ofValue_map (tree : Mapping) : ofValue (.map tree) = .ok (ofTree tree) := by
  unfold ofValue
  cases tree <;> rfl

/-- Settings that are made of a tree, given as a value or in a file. -/
inductive MadeOf (tree : Mapping) (s : Settings) : Prop
  | value : ofValue (.map tree) = .ok s → MadeOf tree s
  | file {f : File} {document : Value} : f.document (.settings (.malformed f.path)) = .ok document →
    TreeOf document tree → load f = .ok s → MadeOf tree s

theorem TreeOf.unique {document : Value} {tree tree' : Mapping} (h : TreeOf document tree)
    (h' : TreeOf document tree') : tree = tree' := by
  cases h <;> cases h' <;> rfl

theorem MadeOf.eq {tree : Mapping} {s : Settings} (h : MadeOf tree s) : s = ofTree tree := by
  cases h with
  | value h =>
    rw [ofValue_map] at h
    cases h
    rfl
  | file hd ht h =>
    obtain ⟨document', tree', hd', ht', rfl⟩ := load_ok_iff.1 h
    cases hd.symm.trans hd'
    rw [ht.unique ht']

/-- **Settings answer as the tree that they are made of, layered over the defaults**, whether the tree is
given as a value or is that of a file; and settings are read from a file exactly if its document is null or a
mapping whose keys are all sections. -/
theorem answers_layered {user : Mapping} (h : (Value.map user).Throughout NoTextTwice) :
    (∃ s, ofValue (.map user) = .ok s ∧ s.AnswersAs user) ∧
    ∀ f : File,
      ((∃ s, load f = .ok s) ↔
        ∃ document tree, f.document (.settings (.malformed f.path)) = .ok document ∧ TreeOf document tree) ∧
      ∀ document tree, f.document (.settings (.malformed f.path)) = .ok document → TreeOf document tree →
        ∃ s, load f = .ok s ∧ s.AnswersAs tree := by
  refine ⟨⟨ofTree user, ofValue_map user, answersAs_ofTree h⟩, fun f => ⟨⟨?_, ?_⟩, ?_⟩⟩
  · rintro ⟨s, hs⟩
    obtain ⟨document, tree, hd, ht, -⟩ := load_ok_iff.1 hs
    exact ⟨document, tree, hd, ht⟩
  · rintro ⟨document, tree, hd, ht⟩
    exact ⟨ofTree tree, load_ok_iff.2 ⟨document, tree, hd, ht, rfl⟩⟩
  · intro document tree hd ht
    exact ⟨ofTree tree, load_ok_iff.2 ⟨document, tree, hd, ht, rfl⟩,
      answersAs_ofTree (ht.throughout (File.document_throughout hd))⟩

/-- A tree that keeps most of one section, puts a text in place of another, and a mapping where the defaults
have a text. -/
def partialTree : Mapping := [
  (.text "firewall", .map [(.text "port", .int 2222)]),
  (.text "sshd", .text "off"),
  (.text "tcpwrapper", .map [(.text "service", .map [(.text "name", .text "inner")])])]

/-- A file with a part of one section. -/
def partialFile : File := ⟨"settings.yaml", some "pam: \x7bposition: start\x7d\n".toUTF8.data.toList⟩

theorem answers_layered_partial :
    (Value.map partialTree).Throughout NoTextTwice ∧
    (∃ s, ofValue (.map partialTree) = .ok s ∧ s.AnswersAs partialTree ∧
      s.get "firewall.port" .null = .int 2222 ∧ s.get "firewall.protocol" .null = .text "tcp" ∧
      s.get "sshd.match_position" (.text "none") = .text "none" ∧
      s.get "tcpwrapper.service.name" .null = .text "inner") ∧
    ∃ document tree s, partialFile.document (.settings (.malformed partialFile.path)) = .ok document ∧
      TreeOf document tree ∧ load partialFile = .ok s ∧ s.AnswersAs tree := by
  have h : (Value.map partialTree).Throughout NoTextTwice := by decide
  obtain ⟨⟨s, hs, ha⟩, hf⟩ := answers_layered h
  refine ⟨h, ⟨s, hs, ha, ?_, ?_, ?_, ?_⟩, ?_⟩
  · exact (ha ["firewall", "port"] .null _ (by decide) (by decide)).2
      (.own (by rfl) (by rintro ⟨_, _, ⟨⟩, _⟩))
  · exact (ha ["firewall", "protocol"] .null _ (by decide) (by decide)).2
      (.shown (by rfl) (.step (by rfl) (.stop (by rfl))))
  · exact (ha ["sshd", "match_position"] (.text "none") _ (by decide) (by decide)).2
      (.masked (by rfl) (.step (by rfl) (.stop (by rfl))) (by nofun))
  · exact (ha ["tcpwrapper", "service", "name"] .null _ (by decide) (by decide)).2
      (.own (by rfl) (by rintro ⟨_, _, ⟨⟩, _⟩))
  · have hload : (load partialFile).isOk = true := by decide +kernel
    obtain ⟨document, tree, hd, ht⟩ := (hf partialFile).1.1 (Outcome.exists_ok hload)
    obtain ⟨s, hs, ha⟩ := (hf partialFile).2 document tree hd ht
    exact ⟨document, tree, s, hd, ht, hs, ha⟩

end Settings

end AccessPlan
