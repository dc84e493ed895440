import AccessPlan.Proofs.SettingsFiles
import AccessPlan.Value.Equality

/-!
# The built-in settings

What the settings of a tree answer for the settings that the defaults have (`builtIns`). A section of the tree
that is a mapping is filled up from the defaults. One that is left empty is not: it hides the section of the
defaults, and the settings in it are lost.

* `Settings.reads`: what a built-in setting reads as, by what the tree has at its section.
* `Settings.load_builtIns`: the built-in settings of a file whose sections are empty or mappings without nulls.
-/

set_option autoImplicit false

namespace AccessPlan.Settings

open Mapping (getText? NoTextTwice)

/-! ## The settings of the defaults -/

/-- The built-in settings: section, key, and default. -/
def builtIns : List (String × String × Value) := [
  ("pam", "permission", .text "+"),
  ("pam", "position", .text "end"),
  ("firewall", "port", .int 22),
  ("firewall", "protocol", .text "tcp"),
  ("firewall", "action", .text "accept"),
  ("firewall", "label_format", .text "022 \x7bname\x7d allow ssh from \x7bhost\x7d"),
  ("tcpwrapper", "service", .text "sshd"),
  ("sshd", "match_position", .text "before first match")]

theorem builtIns_plain : ∀ e ∈ builtIns, '.' ∉ e.1.toList ∧ '.' ∉ e.2.1.toList ∧
    e.2.2 ≠ .null ∧ ∀ m, e.2.2 ≠ .map m := by
  simp [builtIns]

variable {sec key : String} {default : Value} {tree : Mapping}

/-- They are what the defaults have at the end of paths of two keys. -/
theorem lookup?_defaults_iff :
    lookup? (.map defaults) [sec, key] = some default ↔ (sec, key, default) ∈ builtIns := by
  constructor
  · intro h
    obtain ⟨_, u, ⟨⟩, hsec, hu⟩ := lookup?_cons_eq_some h
    obtain ⟨m, v, rfl, hkey, hv⟩ := lookup?_cons_eq_some hu
    have hv : v = default := by cases v <;> exact Option.some_inj.1 hv
    have hm := Mapping.mem_of_getText?_eq_some hsec
    have hd := Mapping.mem_of_getText?_eq_some hkey
    simp only [defaults, List.mem_cons, List.not_mem_nil, or_false, Prod.mk.injEq, Value.text.injEq,
      Value.map.injEq] at hm
    rcases hm with hm | hm | hm | hm
    all_goals
      obtain ⟨rfl, rfl⟩ := hm
      simpa [builtIns, defaultPosition, hv] using hd
  · intro h
    simp only [builtIns, List.mem_cons, List.not_mem_nil, or_false, Prod.mk.injEq] at h
    rcases h with h | h | h | h | h | h | h | h
    all_goals
      obtain ⟨rfl, rfl, rfl⟩ := h
      rfl

example : (builtIns.map fun e => Text.join '.' [e.1, e.2.1]) = [
    "pam.permission", "pam.position", "firewall.port", "firewall.protocol", "firewall.action",
    "firewall.label_format", "tcpwrapper.service", "sshd.match_position"] := by
  decide

/-! ## What a tree makes of them -/

/-- What a built-in setting reads as, by what the tree has at its section. -/
inductive Reads (tree : Mapping) (sec key : String) (default : Value) : Value → Prop
  /-- The section is no mapping, and hides that of the defaults. -/
  | lost {w : Value} : getText? tree sec = some w → (∀ m, w ≠ .map m) → Reads tree sec key default .null
  | given {m : Mapping} {v : Value} : getText? tree sec = some (.map m) → getText? m key = some v →
    Reads tree sec key default v
  | unmentioned {m : Mapping} : getText? tree sec = some (.map m) → getText? m key = none →
    Reads tree sec key default default
  | absent : getText? tree sec = none → Reads tree sec key default default

theorem reads (h : (Value.map tree).Throughout NoTextTwice) (he : (sec, key, default) ∈ builtIns) :
    Reads tree sec key default ((ofTree tree).read (Text.join '.' [sec, key])) := by
  obtain ⟨hdsec, hdkey, -, hleaf⟩ := builtIns_plain _ he
  have hdots : ∀ k ∈ [sec, key], '.' ∉ k.toList := by simp [hdsec, hdkey]
  have hthere := lookup?_defaults_iff.2 he
  have answers {answer : Value}
      (hl : Layered (.map tree) [sec, key] (some default) .null answer) :
      (ofTree tree).read (Text.join '.' [sec, key]) = answer :=
    (answersAs_ofTree h _ _ _ (by simp) hdots).2 (hthere ▸ hl)
  cases hsec : getText? tree sec with
  | none =>
    rw [answers (.shown (by rw [lookup?_cons, hsec]; rfl) (.stop (by rw [lookup?_one, hsec])))]
    exact .absent hsec
  | some w =>
    by_cases hw : ∃ m, w = .map m
    · obtain ⟨m, rfl⟩ := hw
      have hone : lookup? (.map tree) [sec, key] = getText? m key := by
        rw [lookup?_cons, hsec]
        exact lookup?_one m key
      cases hkey : getText? m key with
      | none =>
        have hstop : Deepest (.map m) [key] [] (.map m) := .stop (by rw [lookup?_one, hkey])
        rw [answers (.shown (hone.trans hkey) (hstop.step hsec))]
        exact .unmentioned hsec hkey
      | some v =>
        rw [answers (.own (hone.trans hkey) ?_)]
        · exact .given hsec hkey
        · rintro ⟨-, below, -, hbelow⟩
          exact hleaf below (Option.some_inj.1 hbelow)
    · have hw := not_exists.1 hw
      have hstop : Deepest w [key] [] w := .stop (lookup?_of_not_map hw key [])
      rw [answers (.masked ?_ (hstop.step hsec) hw)]
      · exact .lost hsec hw
      · rw [lookup?_cons, hsec]
        exact lookup?_of_not_map hw key []

theorem Reads.unique {v w : Value} (hv : Reads tree sec key default v) (hw : Reads tree sec key default w) :
    v = w := by
  cases hv <;> cases hw <;> grind

/-! ## Files -/

/-- Each section of a tree is left empty, or it is a mapping without null values. -/
def Plain (tree : Mapping) : Prop :=
  ∀ e ∈ tree, e.2 = .null ∨ ∃ m : Mapping, e.2 = .map m ∧ ∀ e' ∈ m, e'.2 ≠ .null

/-- In a plain tree the settings that are lost are those of the sections that are left empty. -/
theorem Reads.null_iff (hp : Plain tree) (he : (sec, key, default) ∈ builtIns) {v : Value}
    (h : Reads tree sec key default v) : v = .null ↔ getText? tree sec = some .null := by
  obtain ⟨-, -, hdefault, -⟩ := builtIns_plain _ he
  cases h with
  | lost hsec hw =>
    rcases hp _ (Mapping.mem_of_getText?_eq_some hsec) with rfl | ⟨m, rfl, -⟩
    · simp [hsec]
    · exact absurd rfl (hw m)
  | given hsec hkey =>
    rcases hp _ (Mapping.mem_of_getText?_eq_some hsec) with h | ⟨m, h, hm⟩
    · cases h
    · cases h
      have hv := hm _ (Mapping.mem_of_getText?_eq_some hkey)
      simp [hsec, hv]
  | unmentioned hsec _ => simp [hsec, hdefault]
  | absent hsec => simp [hsec, hdefault]

/-- **The built-in settings of a file** whose sections are left empty or are mappings without nulls: one that the
file gives reads as that, and one that it does not mention as the default; and those of a section that is left
empty, and no others, are lost. -/
theorem load_builtIns {f : File} {s : Settings} (hs : load f = .ok s) {document : Value} {tree : Mapping}
    (hd : f.document (.settings (.malformed f.path)) = .ok document) (ht : TreeOf document tree)
    (hp : Plain tree) : ∀ {sec key default}, (sec, key, default) ∈ builtIns →
      Reads tree sec key default (s.read (Text.join '.' [sec, key])) ∧
      (s.read (Text.join '.' [sec, key]) = .null ↔ getText? tree sec = some .null) := by
  intro sec key default he
  cases (MadeOf.file hd ht hs).eq
  have hr := reads (ht.throughout (File.document_throughout hd)) he
  exact ⟨hr, hr.null_iff hp he⟩

/-- A file that leaves one section empty and fills a part of another. -/
def emptySection : File :=
  ⟨"settings.yaml", some "firewall:\npam: \x7bposition: start\x7d\n".toUTF8.data.toList⟩

/-- Its tree. -/
def emptySectionTree : Mapping :=
  [(.text "firewall", .null), (.text "pam", .map [(.text "position", .text "start")])]

theorem document_emptySection :
    emptySection.document (.settings (.malformed emptySection.path)) = .ok (.map emptySectionTree) := by
  decide +kernel

theorem treeOf_emptySection : TreeOf (.map emptySectionTree) emptySectionTree :=
  .sections (by simp [emptySectionTree, Mapping.keys])

theorem plain_emptySection : Plain emptySectionTree := by
  simp [Plain, emptySectionTree]

theorem load_emptySection : ∃ s, load emptySection = .ok s :=
  ⟨_, load_ok_iff.2 ⟨_, _, document_emptySection, treeOf_emptySection, rfl⟩⟩

/-- One section is lost, one is given in part and filled up, and one is the default. -/
theorem load_emptySection_builtIns : ∃ s, load emptySection = .ok s ∧
    emptySection.document (.settings (.malformed emptySection.path)) = .ok (.map emptySectionTree) ∧
    TreeOf (.map emptySectionTree) emptySectionTree ∧ Plain emptySectionTree ∧
    s.read "firewall.port" = .null ∧ s.read "pam.position" = .text "start" ∧
    s.read "pam.permission" = .text "+" ∧ s.read "tcpwrapper.service" = .text "sshd" := by
  obtain ⟨s, hs⟩ := load_emptySection
  have h := @load_builtIns _ _ hs _ _ document_emptySection treeOf_emptySection plain_emptySection
  refine ⟨s, hs, document_emptySection, treeOf_emptySection, plain_emptySection, ?_, ?_, ?_, ?_⟩
  · exact (@h "firewall" "port" (.int 22) (by simp [builtIns])).2.2 rfl
  · exact (@h "pam" "position" (.text "end") (by simp [builtIns])).1.unique (.given rfl rfl)
  · exact (@h "pam" "permission" (.text "+") (by simp [builtIns])).1.unique (.unmentioned rfl rfl)
  · exact (@h "tcpwrapper" "service" (.text "sshd") (by simp [builtIns])).1.unique (.absent rfl)

/-- A file that leaves a section empty loses the settings in it. -/
theorem load_emptySection_loses : ¬ ∀ (f : File) (s : Settings) (document : Value) (tree : Mapping),
    load f = .ok s → f.document (.settings (.malformed f.path)) = .ok document → TreeOf document tree →
    Plain tree → ∀ sec key default, (sec, key, default) ∈ builtIns →
      s.read (Text.join '.' [sec, key]) ≠ .null := by
  intro h
  obtain ⟨s, hs⟩ := load_emptySection
  cases (MadeOf.file document_emptySection treeOf_emptySection hs).eq
  have hport : ("firewall", "port", Value.int 22) ∈ builtIns := by simp [builtIns]
  have hr := reads (treeOf_emptySection.throughout (File.document_throughout document_emptySection)) hport
  exact h _ _ _ _ hs document_emptySection treeOf_emptySection plain_emptySection _ _ _ hport
    ((hr.null_iff plain_emptySection hport).2 rfl)

end AccessPlan.Settings
