import AccessPlan.Proofs.Outcome
import AccessPlan.Value
import Mathlib

/-!
# Equality by content

`Value.same` asks whether two values say the same, however they are written: a whole number may be an
integer, a truth value or a fraction, and a moment may be told at any offset. On values that may be keys it is
an equivalence: a key without parts says one thing (`Value.content?`), and tuples are compared item by item.

* `Binary64.equal_iff`, `Binary64.equalsInt_iff`: numbers are compared by their exact value.
* `Value.same_iff_content`: a value without parts is the same as those that say what it says.
* `Value.same_refl`, `Value.same_symm`, `Value.same_trans`: the laws of keys.
-/

set_option autoImplicit false

namespace AccessPlan

/-- What a number is compared by. -/
inductive Magnitude where
  | rational (q : ℚ)
  | infinite (negative : Bool)
  | nan (serial : Nat)

namespace Binary64

/-- The exact value of a finite number. -/
def exact (negative : Bool) (mantissa : Nat) (exponent : Int) : ℚ :=
  signed negative mantissa * 2 ^ exponent

def magnitudeOf : Binary64 → Magnitude
  | .nan serial => .nan serial
  | .infinite negative => .infinite negative
  | .finite negative m e => .rational (exact negative m e)

theorem signed_mul (negative : Bool) (m n : Nat) : signed negative (m * n) = signed negative m * n := by
  cases negative <;> simp [signed]

/-- At an exponent below its own, a number is an integer. -/
theorem exact_eq_scaled (negative : Bool) (m : Nat) {e low : Int} (h : low ≤ e) :
    exact negative m e = (signed negative m * 2 ^ (e - low).toNat : Int) * (2 : ℚ) ^ low := by
  have hexp : ((e - low).toNat : Int) + low = e := by omega
  have hpow : (2 : ℚ) ^ e = 2 ^ (e - low).toNat * 2 ^ low := by
    rw [← zpow_natCast, ← zpow_add₀ two_ne_zero, hexp]
  rw [exact, hpow]
  push_cast
  ring

theorem equal_iff (x y : Binary64) : x.equal y = true ↔ x.magnitudeOf = y.magnitudeOf := by
  cases x with
  | nan | infinite => cases y <;> simp [equal, magnitudeOf]
  | finite s m e =>
    cases y with
    | nan | infinite => simp [equal, magnitudeOf]
    | finite t n f =>
      have hx := exact_eq_scaled s m (min_le_left e f)
      have hy := exact_eq_scaled t n (min_le_right e f)
      have hpos : (2 : ℚ) ^ min e f ≠ 0 := zpow_ne_zero _ two_ne_zero
      simp only [equal, magnitudeOf, Magnitude.rational.injEq, beq_iff_eq, hx, hy,
        mul_left_inj' hpos, Int.cast_inj, Int.pow_eq]

theorem equalsInt_iff (x : Binary64) (i : Int) :
    x.equalsInt i = true ↔ x.magnitudeOf = .rational i := by
  cases x with
  | nan | infinite => simp [equalsInt, magnitudeOf]
  | finite s m e =>
    simp only [equalsInt, ratio, magnitudeOf, Magnitude.rational.injEq, beq_iff_eq]
    by_cases he : 0 ≤ e
    · have hx := exact_eq_scaled s m he
      rw [Int.sub_zero, zpow_zero, mul_one] at hx
      rw [if_pos he, hx, Int.cast_inj, signed_mul]
      simp
    · have hpow : (2 : ℚ) ^ e * 2 ^ (-e).toNat = 1 := by
        rw [← zpow_natCast, ← zpow_add₀ two_ne_zero, show e + ((-e).toNat : Int) = 0 by omega, zpow_zero]
      have hpos : (2 : ℚ) ^ (-e).toNat ≠ 0 := pow_ne_zero _ two_ne_zero
      rw [if_neg he, ← mul_left_inj' hpos, exact, mul_assoc, hpow, mul_one, ← @Int.cast_inj ℚ]
      push_cast
      simp

end Binary64

namespace Value

/-- What a value without parts says. -/
inductive Content where
  | null
  | number (n : Magnitude)
  | text (s : String)
  | bytes (bs : List UInt8)
  | date (d : Date)
  | moment (hasOffset : Bool) (instant : Int)

/-- What a value says, if it has no parts. -/
def content? : Value → Option Content
  | .null => some .null
  | .bool b => some (.number (.rational (if b then 1 else 0 : Int)))
  | .int i => some (.number (.rational i))
  | .float x => some (.number x.magnitudeOf)
  | .text s => some (.text s)
  | .bytes bs => some (.bytes bs)
  | .date d => some (.date d)
  | .moment m => some (.moment m.offset.isSome m.instant)
  | .list _ | .tuple _ | .set _ | .map _ | .loop _ => none

theorem same_int_iff (i : Int) (w : Value) :
    (Value.int i).same w = true ↔ (Value.int i).content? = w.content? := by
  cases w with
  | bool b => cases b <;> simp [same, content?]
  | float x =>
    rw [same, Binary64.equalsInt_iff, content?, content?, Option.some_inj, Content.number.injEq]
    exact eq_comm
  | _ => simp [same, content?]

/-- A truth value is the number that it counts as. -/
theorem same_bool (b : Bool) (w : Value) :
    (Value.bool b).same w = (Value.int (if b then 1 else 0)).same w := by
  cases w with
  | bool b' => cases b <;> cases b' <;> rfl
  | _ => rfl

theorem same_iff_content {v w : Value} {c : Content} (h : v.content? = some c) :
    v.same w = true ↔ some c = w.content? := by
  rw [← h]
  cases v with
  | list | tuple | set | map | loop => cases h
  | bool b =>
    rw [same_bool]
    exact same_int_iff _ w
  | int i => exact same_int_iff i w
  | float x => cases w <;> simp [same, content?, Binary64.equal_iff, Binary64.equalsInt_iff]
  | _ => cases w <;> simp [same, content?, Moment.same]

theorem sameItems_iff {vs ws : List Value} :
    sameItems vs ws = true ↔ List.Forall₂ (fun v w => v.same w = true) vs ws := by
  induction vs generalizing ws with
  | nil => simp [sameItems]
  | cons v vs ih =>
    cases ws with
    | nil => simp [sameItems]
    | cons w ws => simp [sameItems, ih]

theorem same_tuple_iff {vs : List Value} {w : Value} :
    (Value.tuple vs).same w = true ↔ ∃ ws, w = .tuple ws ∧ sameItems vs ws = true := by
  cases w <;> simp [same]

/-! ## The laws of keys -/

mutual

/-- A key has no parts, or it is a tuple of keys. -/
theorem isKey_induction {motive : Value → Prop} (leaf : ∀ {v c}, content? v = some c → motive v)
    (tuple : ∀ {vs}, (∀ v ∈ vs, motive v) → motive (.tuple vs)) :
    ∀ {v : Value}, v.isKey = true → motive v
  | .tuple _, h => tuple (allKeys_induction leaf tuple h)
  | .null, _ | .bool _, _ | .int _, _ | .float _, _ | .text _, _ | .bytes _, _ | .date _, _
  | .moment _, _ => leaf rfl

theorem allKeys_induction {motive : Value → Prop} (leaf : ∀ {v c}, content? v = some c → motive v)
    (tuple : ∀ {vs}, (∀ v ∈ vs, motive v) → motive (.tuple vs)) :
    ∀ {vs : List Value}, allKeys vs = true → ∀ v ∈ vs, motive v
  | [], _ => nofun
  | _ :: _, h => by
    obtain ⟨hv, hvs⟩ := Bool.and_eq_true_iff.1 h
    exact List.forall_mem_cons.2 ⟨isKey_induction leaf tuple hv, allKeys_induction leaf tuple hvs⟩

end

theorem same_refl {v : Value} (h : v.isKey = true) : v.same v = true := by
  refine isKey_induction (motive := fun v => v.same v = true) ?_ ?_ h
  · intro v c hv
    exact (same_iff_content hv).2 hv.symm
  · intro vs ih
    exact same_tuple_iff.2 ⟨vs, rfl, sameItems_iff.2 (List.forall₂_same.2 ih)⟩

theorem same_symm {v w : Value} (h : v.isKey = true) (hw : v.same w = true) : w.same v = true := by
  refine isKey_induction (motive := fun v => ∀ w, v.same w = true → w.same v = true) ?_ ?_ h w hw
  · intro v c hv w hw
    exact (same_iff_content ((same_iff_content hv).1 hw).symm).2 hv.symm
  · intro vs ih w hw
    obtain ⟨ws, rfl, hws⟩ := same_tuple_iff.1 hw
    have hitems := (List.forall₂_and_left _ _).2 ⟨ih, sameItems_iff.1 hws⟩
    refine same_tuple_iff.2 ⟨vs, rfl, sameItems_iff.2 (hitems.flip.imp ?_)⟩
    rintro w v ⟨hv, hvw⟩
    exact hv w hvw

theorem same_trans {u v w : Value} (h : u.isKey = true) (huv : u.same v = true)
    (hvw : v.same w = true) : u.same w = true := by
  refine isKey_induction
    (motive := fun u => ∀ v w, u.same v = true → v.same w = true → u.same w = true) ?_ ?_ h v w huv hvw
  · intro u c hu v w huv hvw
    exact (same_iff_content hu).2 ((same_iff_content ((same_iff_content hu).1 huv).symm).1 hvw)
  · intro us ih v w huv hvw
    obtain ⟨vs, rfl, huv⟩ := same_tuple_iff.1 huv
    obtain ⟨ws, rfl, hvw⟩ := same_tuple_iff.1 hvw
    have hcomp := forall₂_comp_iff.1
      ⟨vs, (List.forall₂_and_left _ _).2 ⟨ih, sameItems_iff.1 huv⟩, sameItems_iff.1 hvw⟩
    refine same_tuple_iff.2 ⟨ws, rfl, sameItems_iff.2 (hcomp.imp ?_)⟩
    rintro u w ⟨v, ⟨hu, huv⟩, hvw⟩
    exact hu v w huv hvw

end Value

end AccessPlan
