import Mathlib.Data.Int.ModEq
import Mathlib.Algebra.BigOperators.Group.List.Basic
import Mathlib.Tactic.Ring

/-! # Two's-complement integers

A signed machine word of width `w` is modelled by an integer, and every
machine operation by the exact operation followed by `wrap w`, the balanced
residue modulo `2 ^ w`.  The lemmas below say what a chain of wrapped additions
computes (`foldl_wrapAdd`), and when a wrapped result can be read as the exact
one (`wrap_eq_self`, `eq_of_wrap_eq`). -/

namespace TwosComplement

/-- The value a signed word of width `w` holds after the exact result `x`. -/
def wrap (w : Nat) (x : Int) : Int := x.bmod (2 ^ w)

/-- `x` is representable in a signed word of width `w`. -/
def Fits (w : Nat) (x : Int) : Prop := wrap w x = x

instance (w : Nat) (x : Int) : Decidable (Fits w x) :=
  inferInstanceAs (Decidable (wrap w x = x))

/-- Machine addition. -/
def wrapAdd (w : Nat) (x y : Int) : Int := wrap w (x + y)

variable (w : Nat)

@[simp] theorem wrap_wrap (x : Int) : wrap w (wrap w x) = wrap w x := by
  simp [wrap]

theorem wrap_fits (x : Int) : Fits w (wrap w x) := wrap_wrap w x

@[simp] theorem wrap_zero : wrap w 0 = 0 := by simp [wrap]

@[simp] theorem wrap_add_wrap_left (x y : Int) : wrap w (wrap w x + y) = wrap w (x + y) := by
  simp [wrap]

/-- Wrapped values agree exactly when the exact ones are congruent. -/
theorem wrap_eq_wrap_iff (x y : Int) : wrap w x = wrap w y ↔ ((2 ^ w : Nat) : Int) ∣ x - y := by
  unfold wrap
  rw [Int.bmod_eq_bmod_iff_bmod_sub_eq_zero, Int.dvd_iff_bmod_eq_zero]

/-- A word holds the exact value when that value is in range. -/
theorem wrap_eq_self {v : Nat} {x : Int} (lower : -(2 ^ v) ≤ x) (upper : x < 2 ^ v) :
    wrap (v + 1) x = x := by
  have double : ((2 ^ (v + 1) : Nat) : Int) = 2 * 2 ^ v := by
    push_cast
    ring
  apply Int.bmod_eq_of_le_mul_two <;> rw [double] <;> omega

/-- Congruent values less than one modulus apart are equal. -/
theorem eq_of_wrap_eq {x y : Int} (same : wrap w x = wrap w y)
    (close : |x - y| < 2 ^ w) : x = y := by
  rw [wrap_eq_wrap_iff] at same
  have zero : x - y = 0 := by
    apply Int.eq_zero_of_abs_lt_dvd same
    push_cast
    exact close
  omega

/-- A machine accumulator holds the wrapped exact sum. -/
theorem foldl_wrapAdd (xs : List Int) (start : Int) :
    xs.foldl (wrapAdd w) (wrap w start) = wrap w (start + xs.sum) := by
  induction xs generalizing start with
  | nil => simp
  | cons x rest ih =>
    rw [List.foldl_cons, wrapAdd, wrap_add_wrap_left, ih, List.sum_cons, add_assoc]

end TwosComplement
