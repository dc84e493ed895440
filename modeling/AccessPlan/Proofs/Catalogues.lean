import AccessPlan.Catalogue
import Mathlib.Data.List.DropRight

/-!
# Texts that list identity domains

A text lists domains if it is their join with further commas beside the separators or at the ends
(`Catalogue.Separated`), and with blanks anywhere (`Catalogue.Spaced`).

* `Catalogue.parse_eq_iff`: the domains of a text are the one list of domains that it lists.
* `Catalogue.join_parse`: their join is the text without blanks and with its separators squeezed.
* `Catalogue.parse_append`: texts with a comma between.
-/

set_option autoImplicit false

namespace AccessPlan

/-! ## Squeezing separators -/

namespace Text

variable {sep : Char} {cs piece : List Char}

/-- The characters with every run of `sep` as one. -/
def squeeze (sep : Char) : List Char → List Char
  | [] => []
  | c :: cs => if c == sep then sep :: (squeeze sep cs).dropWhile (· == sep) else c :: squeeze sep cs

theorem squeeze_sep_cons : squeeze sep (sep :: cs) = sep :: (squeeze sep cs).dropWhile (· == sep) := by
  simp [squeeze]

theorem head_beq_sep {c : Char} (h : sep ∉ c :: piece) : (c == sep) = false :=
  beq_false_of_ne fun he => h (he ▸ List.mem_cons_self)

theorem squeeze_append (h : sep ∉ piece) : squeeze sep (piece ++ cs) = piece ++ squeeze sep cs := by
  induction piece with
  | nil => rfl
  | cons c piece ih =>
    simp [squeeze, head_beq_sep h, ih fun hm => h (List.mem_cons_of_mem _ hm)]

theorem squeeze_of_not_mem (h : sep ∉ piece) : squeeze sep piece = piece := by
  simpa [squeeze] using @squeeze_append sep [] piece h

theorem dropWhile_piece (hne : piece ≠ []) (h : sep ∉ piece) :
    (piece ++ cs).dropWhile (· == sep) = piece ++ cs := by
  obtain ⟨c, piece, rfl⟩ := List.exists_cons_of_ne_nil hne
  rw [List.cons_append, List.dropWhile_cons, head_beq_sep h]
  rfl

theorem rdropWhile_append {α : Type} (p : α → Bool) (xs ys : List α) : (xs ++ ys).rdropWhile p =
    if ys.rdropWhile p = [] then xs.rdropWhile p else xs ++ ys.rdropWhile p := by
  simp only [List.rdropWhile, List.reverse_append, List.dropWhile_append, List.isEmpty_iff,
    List.reverse_eq_nil_iff]
  split <;> simp

theorem rdropWhile_of_not_mem (h : sep ∉ piece) : piece.rdropWhile (· == sep) = piece :=
  List.rdropWhile_eq_self_iff.2 fun hl he =>
    h (beq_iff_eq.1 he ▸ List.getLast_mem hl)

theorem strip_eq (blank : Char → Bool) (cs : List Char) :
    strip blank cs = (cs.dropWhile blank).rdropWhile blank := rfl

theorem strip_of_not_mem (h : sep ∉ piece) : strip (· == sep) piece = piece := by
  by_cases hne : piece = []
  · rw [hne]
    rfl
  · have hd : piece.dropWhile (· == sep) = piece := by simpa using @dropWhile_piece sep [] piece hne h
    rw [strip_eq, hd, rdropWhile_of_not_mem h]

/-- A separator at the front is dropped. -/
theorem strip_squeeze_sep_cons :
    strip (· == sep) (squeeze sep (sep :: cs)) = strip (· == sep) (squeeze sep cs) := by
  simp [squeeze_sep_cons, strip_eq, List.dropWhile_idempotent]

/-- A piece at the front is kept, with one separator after it if anything follows. -/
theorem strip_squeeze_append (hne : piece ≠ []) (h : sep ∉ piece) :
    strip (· == sep) (squeeze sep (piece ++ sep :: cs)) =
      if strip (· == sep) (squeeze sep cs) = [] then piece
      else piece ++ sep :: strip (· == sep) (squeeze sep cs) := by
  simp only [strip_eq]
  rw [squeeze_append h, squeeze_sep_cons, dropWhile_piece hne h, rdropWhile_append,
    ← List.singleton_append, rdropWhile_append]
  by_cases hnil : ((squeeze sep cs).dropWhile (· == sep)).rdropWhile (· == sep) = []
  · simp [hnil, List.rdropWhile_singleton, rdropWhile_of_not_mem h]
  · simp [hnil]

/-! ## Pieces -/

theorem mem_of_mem_splitChars : ∀ {cs p : List Char}, p ∈ splitChars sep cs →
    ∀ c ∈ p, c ≠ sep ∧ c ∈ cs
  | [], p, hp, c, hc => by simp_all [splitChars]
  | d :: cs, p, hp, c, hc => by
    unfold splitChars at hp
    split at hp
    · rcases List.mem_cons.1 hp with rfl | hp
      · cases hc
      · exact (mem_of_mem_splitChars hp c hc).imp_right (List.mem_cons_of_mem d)
    · next hd =>
      split at hp
      · next hnil => exact absurd hnil (splitChars_ne_nil sep cs)
      · next piece pieces hs =>
        have ih := @mem_of_mem_splitChars cs
        rw [hs] at ih
        rcases List.mem_cons.1 hp with rfl | hp
        · rcases List.mem_cons.1 hc with rfl | hc
          · exact ⟨by simpa using hd, List.mem_cons_self⟩
          · exact (ih List.mem_cons_self c hc).imp_right (List.mem_cons_of_mem d)
        · exact (ih (List.mem_cons_of_mem _ hp) c hc).imp_right (List.mem_cons_of_mem d)

end Text

namespace Catalogue

/-! ## What a text lists -/

/-- A text that can be listed: not empty, and without separators and blanks. -/
structure IsDomain (domain : String) : Prop where
  ne_empty : domain ≠ ""
  no_comma : ',' ∉ domain.toList
  no_blank : ∀ c ∈ domain.toList, Text.isBlank c = false

theorem isDomain_iff {domain : String} : IsDomain domain ↔
    domain ≠ "" ∧ domain.toList.all fun c => c != ',' && !Text.isBlank c := by
  simp only [List.all_eq_true, Bool.and_eq_true, bne_iff_ne, Bool.not_eq_true']
  constructor
  · exact fun h => ⟨h.ne_empty, fun c hc => ⟨fun he => h.no_comma (he ▸ hc), h.no_blank c hc⟩⟩
  · exact fun h => ⟨h.1, fun hc => (h.2 _ hc).1 rfl, fun c hc => (h.2 c hc).2⟩

instance : DecidablePred IsDomain := fun _ => decidable_of_iff _ isDomain_iff.symm

/-- Characters that are the join of some pieces with any number of commas before, between and after them,
and at least one between two. -/
inductive Separated : List (List Char) → List Char → Prop where
  | nil : Separated [] []
  | comma {pieces : List (List Char)} {cs : List Char} : Separated pieces cs →
      Separated pieces (',' :: cs)
  | last (piece : List Char) : Separated [piece] piece
  | cons {piece : List Char} {pieces : List (List Char)} {cs : List Char} : Separated pieces cs →
      Separated (piece :: pieces) (piece ++ ',' :: cs)

/-- Characters with blanks put in anywhere. -/
inductive Spaced : List Char → List Char → Prop where
  | nil : Spaced [] []
  | blank {c : Char} {cs raw : List Char} : Text.isBlank c = true → Spaced cs raw → Spaced cs (c :: raw)
  | cons {c : Char} {cs raw : List Char} : Spaced cs raw → Spaced (c :: cs) (c :: raw)

/-- A text lists domains. -/
def Lists (raw : String) (domains : List String) : Prop :=
  ∃ cs, Separated (domains.map String.toList) cs ∧ Spaced cs raw.toList

/-! ### Blanks -/

variable {cs raw : List Char} {pieces : List (List Char)}

theorem spaced_filter (raw : List Char) : Spaced (raw.filter fun c => !Text.isBlank c) raw := by
  induction raw with
  | nil => exact .nil
  | cons c raw ih =>
    cases hc : Text.isBlank c with
    | true => simpa [hc] using Spaced.blank hc ih
    | false => simpa [hc] using Spaced.cons ih

theorem Spaced.refl : ∀ cs : List Char, Spaced cs cs
  | [] => .nil
  | _ :: cs => .cons (refl cs)

theorem Spaced.filter_eq (h : Spaced cs raw) (hcs : ∀ c ∈ cs, Text.isBlank c = false) :
    (raw.filter fun c => !Text.isBlank c) = cs := by
  induction h with
  | nil => rfl
  | blank hc _ ih => simp [hc, ih hcs]
  | cons _ ih =>
    obtain ⟨hc, hcs⟩ := List.forall_mem_cons.1 hcs
    simp [hc, ih hcs]

/-! ### Separators -/

theorem Separated.mem (h : Separated pieces cs) : ∀ c ∈ cs, c = ',' ∨ ∃ piece ∈ pieces, c ∈ piece := by
  induction h with
  | nil => simp
  | comma _ ih => exact List.forall_mem_cons.2 ⟨.inl rfl, ih⟩
  | last piece => exact fun c hc => .inr ⟨piece, List.mem_singleton_self _, hc⟩
  | cons _ ih =>
    intro c hc
    rcases List.mem_append.1 hc with hc | hc
    · exact .inr ⟨_, List.mem_cons_self, hc⟩
    · rcases List.mem_cons.1 hc with rfl | hc
      · exact .inl rfl
      · exact (ih c hc).imp_right fun ⟨p, hp, hm⟩ => ⟨p, List.mem_cons_of_mem _ hp, hm⟩

/-- The pieces that are not empty are found again. -/
theorem Separated.splitChars (h : Separated pieces cs) (hp : ∀ p ∈ pieces, p ≠ [] ∧ ',' ∉ p) :
    ((Text.splitChars ',' cs).filter (· ≠ [])) = pieces := by
  induction h with
  | nil => rfl
  | comma _ ih => simpa [Text.splitChars] using ih hp
  | last piece =>
    obtain ⟨hne, hc⟩ := hp piece (List.mem_singleton_self _)
    simp [Text.splitChars_of_not_mem hc, hne]
  | cons _ ih =>
    obtain ⟨⟨hne, hc⟩, hp⟩ := List.forall_mem_cons.1 hp
    rw [Text.splitChars_append_sep, Text.splitChars_of_not_mem hc]
    simpa [hne] using ih hp

theorem separated_joinChars (hne : pieces ≠ []) :
    Separated (pieces.filter (· ≠ [])) (Text.joinChars ',' pieces) := by
  induction pieces with
  | nil => exact absurd rfl hne
  | cons p ps ih =>
    cases ps with
    | nil =>
      by_cases hp : p = []
      · simpa [hp, Text.joinChars] using Separated.nil
      · simpa [hp, Text.joinChars] using Separated.last p
    | cons q qs =>
      have ih := ih (List.cons_ne_nil q qs)
      rw [Text.joinChars_cons ',' p (List.cons_ne_nil q qs)]
      by_cases hp : p = []
      · simpa [hp] using Separated.comma ih
      · simpa [hp] using @Separated.cons p _ _ ih

theorem separated_splitChars (cs : List Char) :
    Separated ((Text.splitChars ',' cs).filter (· ≠ [])) cs := by
  simpa [Text.joinChars_splitChars] using separated_joinChars (Text.splitChars_ne_nil ',' cs)

/-- Squeezing the separators leaves one between two pieces. -/
theorem Separated.strip_squeeze (h : Separated pieces cs) (hp : ∀ p ∈ pieces, p ≠ [] ∧ ',' ∉ p) :
    Text.strip (· == ',') (Text.squeeze ',' cs) = Text.joinChars ',' pieces := by
  induction h with
  | nil => rfl
  | comma _ ih => rw [Text.strip_squeeze_sep_cons, ih hp]
  | last piece =>
    have hc := (hp piece (List.mem_singleton_self _)).2
    rw [Text.squeeze_of_not_mem hc, Text.strip_of_not_mem hc, Text.joinChars]
  | @cons piece pieces cs _ ih =>
    obtain ⟨⟨hne, hc⟩, hp⟩ := List.forall_mem_cons.1 hp
    rw [Text.strip_squeeze_append hne hc, ih hp]
    cases pieces with
    | nil => simp [Text.joinChars]
    | cons q qs =>
      have hq : q ≠ [] := (hp q List.mem_cons_self).1
      have hjoin : Text.joinChars ',' (q :: qs) ≠ [] := by cases qs <;> simp [Text.joinChars, hq]
      rw [if_neg hjoin, Text.joinChars_cons ',' piece (List.cons_ne_nil q qs)]

/-! ## The domains of a text -/

theorem map_toList_injective : Function.Injective (List.map String.toList) :=
  List.map_injective_iff.2 fun _ _ => String.toList_inj.1

theorem map_toList_parse (raw : String) : (parse raw).map String.toList =
    (Text.splitChars ',' (raw.toList.filter fun c => !Text.isBlank c)).filter (· ≠ []) := by
  have hne (p : List Char) : (String.ofList p != "") = decide (p ≠ []) := by
    rw [Bool.eq_iff_iff]
    simp
  simp [parse, Text.split, List.filter_map, Function.comp_def, hne]

theorem isDomain_of_mem_parse {raw domain : String} (h : domain ∈ parse raw) : IsDomain domain := by
  have hm := List.mem_map_of_mem (f := String.toList) h
  rw [map_toList_parse] at hm
  obtain ⟨hm, hne⟩ := List.mem_filter.1 hm
  have hc := Text.mem_of_mem_splitChars hm
  refine ⟨by rintro rfl; simp at hne, fun hcomma => (hc _ hcomma).1 rfl, fun c hmem => ?_⟩
  simpa using (List.mem_filter.1 (hc c hmem).2).2

theorem lists_parse (raw : String) : Lists raw (parse raw) :=
  ⟨_, map_toList_parse raw ▸ separated_splitChars _, spaced_filter raw.toList⟩

theorem isDomain_pieces {ds : List String} (hd : ∀ d ∈ ds, IsDomain d) :
    ∀ p ∈ ds.map String.toList, p ≠ [] ∧ ',' ∉ p := by
  simp only [List.forall_mem_map]
  exact fun d hm => ⟨by simpa using (hd d hm).ne_empty, (hd d hm).no_comma⟩

theorem Lists.parse_eq {raw : String} {ds : List String} (h : Lists raw ds)
    (hd : ∀ d ∈ ds, IsDomain d) : parse raw = ds := by
  obtain ⟨cs, hs, hb⟩ := h
  have hcs : ∀ c ∈ cs, Text.isBlank c = false := by
    intro c hc
    rcases hs.mem c hc with rfl | ⟨p, hp, hm⟩
    · exact Text.isBlank_comma
    · obtain ⟨d, hmem, rfl⟩ := List.mem_map.1 hp
      exact (hd d hmem).no_blank c hm
  apply map_toList_injective
  rw [map_toList_parse, hb.filter_eq hcs, hs.splitChars (isDomain_pieces hd)]

/-- **The domains of a text** are the one list of domains that it lists. -/
theorem parse_eq_iff {raw : String} {ds : List String} :
    parse raw = ds ↔ (∀ d ∈ ds, IsDomain d) ∧ Lists raw ds := by
  refine ⟨?_, fun h => h.2.parse_eq h.1⟩
  rintro rfl
  exact ⟨fun d => isDomain_of_mem_parse, lists_parse raw⟩

theorem join_parse (raw : String) : (Text.join ',' (parse raw)).toList =
    Text.strip (· == ',') (Text.squeeze ',' (raw.toList.filter fun c => !Text.isBlank c)) := by
  have hp := isDomain_pieces fun d (hm : d ∈ parse raw) => isDomain_of_mem_parse hm
  rw [Text.join, String.toList_ofList]
  rw [map_toList_parse] at hp ⊢
  exact ((separated_splitChars _).strip_squeeze hp).symm

theorem lists_join {ds : List String} (hd : ∀ d ∈ ds, IsDomain d) : Lists (Text.join ',' ds) ds := by
  have hs : Separated (ds.map String.toList) (Text.joinChars ',' (ds.map String.toList)) := by
    by_cases hne : ds = []
    · simpa [hne, Text.joinChars] using Separated.nil
    · have hs := @separated_joinChars (ds.map String.toList) (by simpa using hne)
      rwa [List.filter_eq_self.2 fun p hp => decide_eq_true (isDomain_pieces hd p hp).1] at hs
  exact ⟨_, hs, by simpa [Text.join] using Spaced.refl _⟩

/-- Texts with a comma between list the domains of the one and then those of the other. -/
theorem parse_append (a b : String) : parse (a ++ "," ++ b) = parse a ++ parse b := by
  apply map_toList_injective
  simp [map_toList_parse, Text.splitChars_append_sep]

/-- **The texts of catalogues** list domains that their join shows squeezed; every list of domains is found
again in its join and in all other texts that list it, and in no others; and a comma joins two texts. -/
theorem domains_exact :
    (∀ raw, domains (.text raw) = .ok (parse raw) ∧ (∀ d ∈ parse raw, IsDomain d) ∧
      (Text.join ',' (parse raw)).toList = Text.strip (· == ',')
        (Text.squeeze ',' (raw.toList.filter fun c => !Text.isBlank c))) ∧
    (∀ ds, (∀ d ∈ ds, IsDomain d) → parse (Text.join ',' ds) = ds ∧
      ∀ raw, Lists raw ds ↔ parse raw = ds) ∧
    ∀ a b, parse (a ++ "," ++ b) = parse a ++ parse b := by
  refine ⟨fun raw => ⟨domains_text raw, fun d => isDomain_of_mem_parse, join_parse raw⟩,
    fun ds hd => ⟨(lists_join hd).parse_eq hd, fun raw => ?_⟩, parse_append⟩
  rw [parse_eq_iff, and_iff_right hd]

/-- Two domains with blanks inside them, of which one is wide, and with commas to spare. -/
theorem domains_spaced : (∀ d ∈ ["corp", "lab"], IsDomain d) ∧ parse "corp,lab" = ["corp", "lab"] ∧
    Lists ",co rp\t,\u2003,l ab, " ["corp", "lab"] ∧
    parse ",co rp\t,\u2003,l ab, " = ["corp", "lab"] := by
  have hd : ∀ d ∈ ["corp", "lab"], IsDomain d := by decide
  have hl : Lists ",co rp\t,\u2003,l ab, " ["corp", "lab"] := by
    refine ⟨_, ?_, spaced_filter _⟩
    exact .comma (.cons (.comma (.cons .nil)))
  obtain ⟨hjoin, hraw⟩ := domains_exact.2.1 _ hd
  exact ⟨hd, hjoin, hl, (hraw _).1 hl⟩

end Catalogue

end AccessPlan
