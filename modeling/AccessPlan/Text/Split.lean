/-!
# Splitting at a separator

`split` cuts a text at every occurrence of a character and `join` puts the pieces together again.

* `join_split`: nothing is lost.
* `split_join`: pieces without the separator are found again.
-/

set_option autoImplicit false

namespace AccessPlan.Text

/-- The pieces of a character list between the occurrences of `sep`; there is always at least one. -/
def splitChars (sep : Char) : List Char → List (List Char)
  | [] => [[]]
  | c :: cs =>
    if c == sep then [] :: splitChars sep cs
    else match splitChars sep cs with
      | [] => [[c]]
      | piece :: pieces => (c :: piece) :: pieces

/-- The pieces with the separator between them. -/
def joinChars (sep : Char) : List (List Char) → List Char
  | [] => []
  | [piece] => piece
  | piece :: pieces => piece ++ sep :: joinChars sep pieces

/-- The pieces of a text between the occurrences of `sep`. -/
def split (sep : Char) (s : String) : List String := (splitChars sep s.toList).map String.ofList

/-- The texts with the separator between them. -/
def join (sep : Char) (pieces : List String) : String :=
  String.ofList (joinChars sep (pieces.map String.toList))

theorem splitChars_ne_nil (sep : Char) (cs : List Char) : splitChars sep cs ≠ [] := by
  cases cs with
  | nil => simp [splitChars]
  | cons c cs =>
    unfold splitChars
    split
    · simp
    · split <;> simp

theorem joinChars_cons (sep : Char) (piece : List Char) {pieces : List (List Char)}
    (h : pieces ≠ []) :
    joinChars sep (piece :: pieces) = piece ++ sep :: joinChars sep pieces := by
  cases pieces with
  | nil => exact absurd rfl h
  | cons => rfl

/-- Joining the pieces of a text gives the text back. -/
theorem joinChars_splitChars (sep : Char) (cs : List Char) :
    joinChars sep (splitChars sep cs) = cs := by
  induction cs with
  | nil => rfl
  | cons c cs ih =>
    unfold splitChars
    split
    · next h =>
      rw [joinChars_cons sep [] (splitChars_ne_nil sep cs), ih]
      simpa using (beq_iff_eq.1 h).symm
    · cases hs : splitChars sep cs with
      | nil => exact absurd hs (splitChars_ne_nil sep cs)
      | cons piece pieces =>
        rw [hs] at ih
        cases pieces with
        | nil => simpa [joinChars] using ih
        | cons p ps => simpa [joinChars] using ih

theorem splitChars_of_not_mem {sep : Char} {cs : List Char} (h : sep ∉ cs) :
    splitChars sep cs = [cs] := by
  induction cs with
  | nil => rfl
  | cons c cs ih =>
    simp only [List.mem_cons, not_or] at h
    have hc : (c == sep) = false := by simpa using fun e => h.1 e.symm
    simp [splitChars, hc, ih h.2]

/-- At a separator, what is before it and what is after it are split on their own. -/
theorem splitChars_append_sep (sep : Char) (cs rest : List Char) :
    splitChars sep (cs ++ sep :: rest) = splitChars sep cs ++ splitChars sep rest := by
  induction cs with
  | nil => simp [splitChars]
  | cons c cs ih =>
    cases hc : c == sep with
    | true => simp [splitChars, hc, ih]
    | false =>
      cases hs : splitChars sep cs with
      | nil => exact absurd hs (splitChars_ne_nil sep cs)
      | cons piece pieces => simp [splitChars, hc, ih, hs]

/-- Pieces without the separator are found again in their join. -/
theorem splitChars_joinChars {sep : Char} {pieces : List (List Char)} (hne : pieces ≠ [])
    (h : ∀ p ∈ pieces, sep ∉ p) : splitChars sep (joinChars sep pieces) = pieces := by
  induction pieces with
  | nil => exact absurd rfl hne
  | cons p ps ih =>
    have hp : sep ∉ p := h p List.mem_cons_self
    cases ps with
    | nil => exact splitChars_of_not_mem hp
    | cons q qs =>
      rw [joinChars_cons sep p (by simp), splitChars_append_sep, splitChars_of_not_mem hp,
        ih (by simp) fun x hx => h x (List.mem_cons_of_mem _ hx)]
      rfl

/-- Splitting a text and joining the pieces gives the text back. -/
theorem join_split (sep : Char) (s : String) : join sep (split sep s) = s := by
  simp [join, split, Function.comp_def, joinChars_splitChars]

/-- The pieces of a join are the texts that were joined, if none holds the separator. -/
theorem split_join {sep : Char} {pieces : List String} (hne : pieces ≠ [])
    (h : ∀ p ∈ pieces, sep ∉ p.toList) : split sep (join sep pieces) = pieces := by
  have hs : splitChars sep (joinChars sep (pieces.map String.toList)) =
      pieces.map String.toList :=
    splitChars_joinChars (by simpa using hne) (by simpa using h)
  simp [split, join, hs, Function.comp_def]

end AccessPlan.Text
