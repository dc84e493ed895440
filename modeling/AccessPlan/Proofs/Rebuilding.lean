import AccessPlan.Proofs.Accepting
import AccessPlan.Value.Equality

/-!
# Building a request from its own fields

A request can be taken apart into five fields and built from them again: `Request.ShownBy` says what its
fields look like, in any order and with its texts in lists or in tuples. Everything that validation does to
a field has been done to the parts of a request, so that nothing changes.

* `Request.ShownBy.isFormOf`: a valid request is the form of fields that show it.
* `Request.build_again`: a request that was built is built again from its own fields.
-/

set_option autoImplicit false

namespace AccessPlan

/-! ## Fields that show a request -/

namespace Value

/-- A value that shows texts, as a list or as a tuple. -/
inductive ShowsTexts (ss : List String) : Value → Prop
  | list : ShowsTexts ss (.list (ss.map .text))
  | tuple : ShowsTexts ss (.tuple (ss.map .text))

/-- A value that shows a directive. -/
inductive ShowsDirective : Value → Directive → Prop
  | word (s : String) : ShowsDirective (.text s) (.word s)
  | words {v : Value} {ss : List String} : v.ShowsTexts ss → ShowsDirective v (.words ss)

end Value

namespace Request

/-- Entries that show directives, in their order. -/
def ShowsDirectives (m : Mapping) (fs : List (String × Directive)) : Prop :=
  List.Forall₂ (fun e f => e.1 = .text f.1 ∧ e.2.ShowsDirective f.2) m fs

/-- Fields that show a request: its five parts under their names, in any order. -/
inductive ShownBy (r : Request) : Fields → Prop
  | intro {fields : Fields} {hosts users groups : Value} {m : Mapping} :
    hosts.ShowsTexts r.hosts → users.ShowsTexts r.users → groups.ShowsTexts r.groups →
    ShowsDirectives m r.overrides →
    fields.Perm [("name", .text r.name), ("hostlist", hosts), ("users", users), ("groups", groups),
      ("sshd_overrides", .map m)] →
    ShownBy r fields

/-! ## Lists without repeats -/

theorem firstSeen_of_nodup {ss : List String} (h : ss.Nodup) : firstSeen ss = ss := by
  induction ss with
  | nil => rfl
  | cons s ss ih =>
    obtain ⟨hs, hss⟩ := List.nodup_cons.1 h
    rw [firstSeen, ih hss, List.filter_eq_self.2]
    intro t ht
    exact bne_iff_ne.2 fun he => hs (he ▸ ht)

theorem eraseDups_of_nodup {ss : List String} (h : ss.Nodup) : ss.eraseDups = ss := by
  rw [← firstSeen_eq_eraseDups, firstSeen_of_nodup h]

/-- With distinct names, what a name stands for does not depend on the order. -/
theorem lookup_perm {α : Type} {fs gs : List (String × α)} (hp : fs.Perm gs)
    (hd : (gs.map Prod.fst).Nodup) (name : String) : fs.lookup name = gs.lookup name := by
  have hd' : (fs.map Prod.fst).Nodup := (hp.map Prod.fst).nodup_iff.2 hd
  ext a
  rw [lookup_eq_some_iff_mem hd', lookup_eq_some_iff_mem hd, hp.mem_iff]

theorem lastWins_of_nodup {fs : List (String × Directive)} (h : (fs.map Prod.fst).Nodup) :
    LastWins fs fs where
  names := (eraseDups_of_nodup h).symm
  values name := (lookup_perm fs.reverse_perm h name).symm

/-! ## Parts -/

section
variable {v : Value} {ss : List String} {d : Directive} {m : Mapping} {fs : List (String × Directive)}

theorem spells_texts (ss : List String) : List.Forall₂ Value.Spells (ss.map .text) ss := by
  rw [List.forall₂_map_left_iff]
  exact List.forall₂_same.2 fun s _ => .text s

theorem entries_of_showsTexts (h : v.ShowsTexts ss) : Entries v ss := by
  cases h with
  | list => exact .many (.list _) (spells_texts ss)
  | tuple => exact .many (.tuple _) (spells_texts ss)

/-- A directive that is shown passes as it is. -/
theorem checkDirective_of_shows (h : v.ShowsDirective d) (place : List Step) :
    checkDirective place v = .ok d := by
  rw [checkDirective_iff]
  cases h with
  | word s => exact .inl ⟨s, .text s, rfl⟩
  | @words v ss hv =>
    right
    cases hv with
    | list => exact ⟨_, ss, .list _, spells_texts ss, rfl⟩
    | tuple => exact ⟨_, ss, .tuple _, spells_texts ss, rfl⟩

theorem isDirective_of_shows (h : v.ShowsDirective d) : v.IsDirective d := by
  have hword (ss : List String) : List.Forall₂ Value.IsWord (ss.map .text) ss :=
    (spells_texts ss).imp fun _ _ => .text
  cases h with
  | word s => exact .word (.text (.text s))
  | @words v ss hv =>
    cases hv with
    | list => exact .list (hword ss)
    | tuple => exact .tuple (hword ss)

theorem isEntry_of_shows (h : ShowsDirectives m fs) : List.Forall₂ IsEntry m fs := by
  refine h.imp fun e f he => ⟨?_, isDirective_of_shows he.2⟩
  rw [he.1]
  exact .text f.1

theorem checkEntry_of_shows (h : ShowsDirectives m fs) (place : List Step) :
    m.map (checkEntry place) = fs.map .ok := by
  induction h with
  | nil => rfl
  | @cons e f m fs he _ ih =>
    have hentry : checkEntry place e = .ok f := by
      rw [checkEntry_iff, he.1]
      exact ⟨.text f.1, checkDirective_of_shows he.2 _⟩
    rw [List.map_cons, List.map_cons, hentry, ih]

end

/-! ## Requests -/

section
variable {r : Request} {fields : Fields}

/-- The names under which a request shows itself. -/
def shownNames : List String := ["name", "hostlist", "users", "groups", "sshd_overrides"]

/-- **A valid request is the form of fields that show it.** -/
theorem ShownBy.isFormOf (h : r.ShownBy fields) (hr : r.Valid) : r.IsFormOf fields := by
  cases h with
  | @intro hosts users groups m hh hu hg ho hp =>
    have hdistinct : shownNames.Nodup := by decide
    have hlookup := lookup_perm hp hdistinct
    have hother : ∀ name ∈ overrideNames, name ≠ "sshd_overrides" → fields.lookup name = none := by
      intro name hname hne
      have hnone : name ∉ shownNames := by
        revert name
        decide
      rw [hlookup]
      exact lookup_eq_none_iff.2 hnone
    constructor
    · rw [hlookup]
      exact .given (.text r.name) hr.name
    · rw [hlookup]
      exact .given (entries_of_showsTexts hh) hr.hosts hr.entries
    · rw [hlookup]
      exact ⟨r.users, .given (entries_of_showsTexts hu), (eraseDups_of_nodup hr.users).symm⟩
    · rw [hlookup]
      exact ⟨r.groups, .given (entries_of_showsTexts hg), (eraseDups_of_nodup hr.groups).symm⟩
    · exact hr.somebody
    · exact .given (by decide) (hlookup "sshd_overrides") hother (isEntry_of_shows ho)
        (lastWins_of_nodup hr.directives)
    · intro f hf
      have hname : f.1 ∈ shownNames := (hp.map Prod.fst).subset (List.mem_map_of_mem hf)
      have hknown : ∀ name ∈ shownNames, name ∈ fieldNames := by decide
      exact hknown f.1 hname

theorem IsFormOf.build_eq (h : r.IsFormOf fields) (route : Route) (label : Option String) :
    build route (argumentsOf fields) label = .ok r :=
  build_ok_iff.2 ⟨fields, h.fieldsOf_eq route, validate_ok_iff.2 (validated_iff.2 h)⟩

/-- **Building a request from its own fields gives it back**: with its texts in lists or in tuples, and the
fields in any order. Its directives are words already, so that each of them passes as it stands, too, without
being put into words. -/
theorem build_again {route : Route} {arguments : Mapping} {label : Option String}
    (h : build route arguments label = .ok r) (hs : r.ShownBy fields) (route' : Route)
    (label' : Option String) : build route' (argumentsOf fields) label' = .ok r ∧
      ∃ m, fields.lookup "sshd_overrides" = some (.map m) ∧
        ∀ place, m.map (checkEntry place) = r.overrides.map .ok := by
  have hform := hs.isFormOf (valid_of_build h)
  refine ⟨hform.build_eq route' label', ?_⟩
  cases hs with
  | @intro hosts users groups m hh hu hg ho hp =>
    have hdistinct : shownNames.Nodup := by decide
    exact ⟨m, lookup_perm hp hdistinct _, checkEntry_of_shows ho⟩

/-- Arguments in which nothing has its final form yet. -/
def roughArguments : Mapping := [
  (.text "users", .list [.text "alice", .bytes [98, 111, 98], .text "alice"]),
  (.text "sshdOverrides", .map [
    (.text "Port", .int 22),
    (.text "AcceptEnv", .tuple [.text "LANG", .bool true, .int 7]),
    (.bytes [80, 111, 114, 116], .bool false)]),
  (.text "hostlist", .text "bastion")]

/-- The request that they make. -/
def settled : Request :=
  ⟨"sshd", ["bastion"], ["alice", "bob"], [],
    [("Port", .word "no"), ("AcceptEnv", .words ["LANG", "yes", "7"])]⟩

/-- Its own fields, in another order. -/
def settledFields : Fields := [
  ("sshd_overrides", .map [
    (.text "Port", .text "no"),
    (.text "AcceptEnv", .list [.text "LANG", .text "yes", .text "7"])]),
  ("groups", .list []),
  ("hostlist", .tuple [.text "bastion"]),
  ("name", .text "sshd"),
  ("users", .tuple [.text "alice", .text "bob"])]

theorem settled_shownBy : settled.ShownBy settledFields := by
  refine .intro (m := [(.text "Port", .text "no"),
    (.text "AcceptEnv", .list [.text "LANG", .text "yes", .text "7"])]) .tuple .tuple .list ?_ ?_
  · exact .cons ⟨rfl, .word "no"⟩ (.cons ⟨rfl, .words .list⟩ .nil)
  · decide

theorem build_settled_again :
    build .builder roughArguments none = .ok settled ∧ settled.ShownBy settledFields ∧
      build .builder (argumentsOf settledFields) none = .ok settled := by
  have hb : build .builder roughArguments none = .ok settled := by decide +kernel
  exact ⟨hb, settled_shownBy, (build_again hb settled_shownBy .builder none).1⟩

end

end Request

end AccessPlan
