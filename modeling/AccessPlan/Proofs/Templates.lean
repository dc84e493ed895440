import AccessPlan.Label
import AccessPlan.Proofs.Outcome

/-!
# Templates that are written from parts

A `Part` of a template is one character of its text, or the place of the name or of the host. A template
that is written from parts (`Template.write`) has the braces of its text doubled and single braces around
its places only, and so it says exactly what it was written from.

* `Template.parse_write`: reading a written template gives the pieces of its parts.
* `render_write`: its label is the text with name and host in their places, as they are.
* `fill_inj`: the label tells the host, if the template has a place for it.
-/

set_option autoImplicit false

namespace AccessPlan.Label

/-- A part of a template. -/
inductive Part where
  | literal (c : Char)
  | name
  | host
  deriving DecidableEq, Repr

namespace Part

/-- A part as it is written. -/
def written : Part → List Char
  | .literal c => if c = '\x7b' ∨ c = '\x7d' then [c, c] else [c]
  | .name => ['\x7b', 'n', 'a', 'm', 'e', '\x7d']
  | .host => ['\x7b', 'h', 'o', 's', 't', '\x7d']

/-- The piece that a part is read as. -/
def piece : Part → Piece
  | .literal c => .literal c
  | .name => .field ⟨['n', 'a', 'm', 'e'], none, []⟩
  | .host => .field ⟨['h', 'o', 's', 't'], none, []⟩

/-- What stands in a label for a part. -/
def filled (name host : String) : Part → List Char
  | .literal c => [c]
  | .name => name.toList
  | .host => host.toList

end Part

/-- The label of parts for a name and a host. -/
def fill (parts : List Part) (name host : String) : String :=
  String.ofList (parts.flatMap (Part.filled name host))

namespace Template

/-- The template of parts. -/
def write (parts : List Part) : String := String.ofList (parts.flatMap Part.written)

/-! ## Reading a template back -/

/-- After an opening brace that is not doubled comes a field. -/
theorem parse_field {d : Char} {cs after : List Char} {f : Field} (hd : d ≠ '\x7b')
    (h : scanField (d :: cs) = some (f, after)) :
    parse ('\x7b' :: d :: cs) = .field f :: parse after := by
  have hb : (d == '\x7b') = false := beq_false_of_ne hd
  have hc : ('\x7b' == '\x7d') = false := by decide
  rw [parse]
  simp only [hb, hc, beq_self_eq_true, Bool.true_or, if_true, Bool.false_eq_true, if_false]
  split
  · rename_i hs
    cases h.symm.trans hs
    rfl
  · rename_i hs
    cases h.symm.trans hs

theorem parse_literal_cons {c : Char} (h : ¬(c = '\x7b' ∨ c = '\x7d')) (rest : List Char) :
    parse (c :: rest) = .literal c :: parse rest := by
  cases rest with
  | nil => simp [parse, h]
  | cons d rest => simp [parse, h]

theorem parse_written_append (p : Part) (rest : List Char) :
    parse (p.written ++ rest) = p.piece :: parse rest := by
  cases p with
  | literal c =>
    by_cases h : c = '\x7b' ∨ c = '\x7d'
    · rw [Part.written, if_pos h, List.cons_append, List.cons_append, parse]
      simp [h, Part.piece]
    · rw [Part.written, if_neg h]
      exact parse_literal_cons h rest
  | name => exact parse_field (by decide) rfl
  | host => exact parse_field (by decide) rfl

theorem parse_write (parts : List Part) :
    parse (write parts).toList = parts.map Part.piece := by
  rw [write, String.toList_ofList]
  induction parts with
  | nil => simp [parse]
  | cons p parts ih => rw [List.flatMap_cons, parse_written_append, ih, List.map_cons]

end Template

/-! ## Filling a template in -/

/-- A place is filled with the argument as it stands: nothing in it is read again. -/
theorem renderPiece_part (members : Members) (p : Part) (name host : String) (depth : Nat) :
    renderPiece members ⟨.text name, .text host⟩ (depth + 1) p.piece = .ok (p.filled name host) := by
  cases p with
  | literal c =>
    rw [Part.piece, renderPiece]
    rfl
  | name =>
    have hl : lookup members ⟨.text name, .text host⟩ ['n', 'a', 'm', 'e'] = .ok (.text name) := by
      simp [lookup, follow, endsName]
      rfl
    rw [Part.piece, renderPiece, hl]
    rfl
  | host =>
    have hl : lookup members ⟨.text name, .text host⟩ ['h', 'o', 's', 't'] = .ok (.text host) := by
      simp [lookup, follow, endsName]
      rfl
    rw [Part.piece, renderPiece, hl]
    rfl

theorem mapM_renderPiece (members : Members) (parts : List Part) (name host : String) (depth : Nat) :
    (parts.map Part.piece).mapM (renderPiece members ⟨.text name, .text host⟩ (depth + 1)) =
      .ok (parts.map (Part.filled name host)) := by
  rw [Outcome.mapM_ok_iff, List.forall₂_map_left_iff, List.forall₂_map_right_iff]
  exact List.forall₂_same.2 fun p _ => renderPiece_part members p name host depth

/-- **The label of a written template** is its text with name and host in their places. -/
theorem render_write (members : Members) (parts : List Part) (name host : String) :
    render members (Template.write parts) ⟨.text name, .text host⟩ = .ok (fill parts name host) := by
  rw [render, renderFrom, Template.parse_write, mapM_renderPiece, Outcome.ok_bind, Outcome.pure_eq,
    Outcome.ok_bind, Outcome.pure_eq, fill, List.flatMap_def]

/-! ## What a label tells -/

theorem length_flatMap_filled (parts : List Part) (name host : String) :
    (parts.flatMap (Part.filled name host)).length =
      (parts.flatMap (Part.filled name "")).length + parts.count .host * host.toList.length := by
  induction parts with
  | nil => simp
  | cons p parts ih =>
    simp only [List.flatMap_cons, List.length_append, ih, List.count_cons]
    cases p with
    | host =>
      simp only [Part.filled, beq_self_eq_true, if_true, Nat.add_mul, Nat.one_mul,
        String.toList_empty, List.length_nil]
      omega
    | _ => simp [Part.filled, Nat.add_assoc]

/-- Where two hosts are of one length, equal labels agree part by part. -/
theorem filled_eq_of_flatMap {parts : List Part} {name host host' : String}
    (hlen : host.toList.length = host'.toList.length)
    (h : parts.flatMap (Part.filled name host) = parts.flatMap (Part.filled name host')) :
    ∀ p ∈ parts, p.filled name host = p.filled name host' := by
  induction parts with
  | nil => simp
  | cons p parts ih =>
    have hp : (p.filled name host).length = (p.filled name host').length := by
      cases p with
      | host => exact hlen
      | _ => rfl
    rw [List.flatMap_cons, List.flatMap_cons] at h
    obtain ⟨hhead, htail⟩ := List.append_inj h hp
    exact List.forall_mem_cons.2 ⟨hhead, ih htail⟩

/-- **The label tells the host**: its length tells the length of the host, and then the hosts in it stand at
the same places. -/
theorem fill_inj {parts : List Part} (hp : .host ∈ parts) {name host host' : String}
    (h : fill parts name host = fill parts name host') : host = host' := by
  have h := String.ofList_injective h
  have hlen : host.toList.length = host'.toList.length := by
    have hl := congrArg List.length h
    rw [length_flatMap_filled, length_flatMap_filled _ _ host'] at hl
    have hc : 0 < parts.count .host := List.count_pos_iff.2 hp
    exact Nat.eq_of_mul_eq_mul_left hc (Nat.add_left_cancel hl)
  exact String.toList_injective (filled_eq_of_flatMap hlen h .host hp)

end AccessPlan.Label
