import Mathlib.Tactic.Ring

/-! # Whole numbers of a binary format

A number has a mantissa of 53 bits; a whole number is one when what follows its first 53
bits is zero.  Any other is rounded to the nearest, and to the even mantissa from halfway. -/

namespace Binary64

def IsNumber (x : Int) : Prop :=
  ∃ (mantissa : Int) (exponent : Nat), mantissa.natAbs < 2 ^ 53 ∧ x = mantissa * 2 ^ exponent

/-- A whole number that the format has. -/
structure Number where
  value : Int
  isNumber : IsNumber value

/-- The unit of the last of 53 bits. -/
def unit (n : Nat) : Nat := 2 ^ (n.log2 - 52)

def nearest (n : Nat) : Nat :=
  let mantissa := n / unit n
  let rest := n % unit n
  if unit n < 2 * rest ∨ unit n = 2 * rest ∧ mantissa % 2 = 1 then (mantissa + 1) * unit n
  else mantissa * unit n

variable {n : Nat}

theorem unit_pos (n : Nat) : 0 < unit n := Nat.two_pow_pos _

theorem lt_mul_unit (n : Nat) : n < 2 ^ 53 * unit n := by
  have bound : n < 2 ^ (n.log2 + 1) := Nat.lt_log2_self
  rw [unit, ← Nat.pow_add]
  exact bound.trans_le (Nat.pow_le_pow_right (by decide) (by omega))

theorem mantissa_lt (n : Nat) : n / unit n < 2 ^ 53 := by
  rw [Nat.div_lt_iff_lt_mul (unit_pos n)]
  exact lt_mul_unit n

theorem unit_le (positive : n ≠ 0) : unit n ≤ n := by
  have least := Nat.log2_self_le positive
  exact (Nat.pow_le_pow_right (by decide) (Nat.sub_le _ _)).trans least

theorem nearest_bounds (n : Nat) : nearest n ≤ 2 * n ∧ (nearest n = 0 ↔ n = 0) := by
  by_cases zero : n = 0
  · subst zero
    decide
  · have split := Nat.div_add_mod' n (unit n)
    have least := unit_le zero
    have one : 1 ≤ n / unit n := Nat.div_pos least (unit_pos n)
    have product := Nat.mul_le_mul_right (unit n) one
    have positive := unit_pos n
    simp only [nearest, Nat.succ_mul]
    split_ifs <;> omega

theorem nearest_eq_iff : nearest n = n ↔ unit n ∣ n := by
  have split := Nat.div_add_mod' n (unit n)
  have less := Nat.mod_lt n (unit_pos n)
  rw [Nat.dvd_iff_mod_eq_zero]
  simp only [nearest, Nat.succ_mul]
  split_ifs <;> omega

theorem dvd_of_isNumber (isNumber : IsNumber n) : unit n ∣ n := by
  obtain ⟨mantissa, exponent, small, same⟩ := isNumber
  have product : n = mantissa.natAbs * 2 ^ exponent := by
    have sizes := congrArg Int.natAbs same
    rwa [Int.natAbs_natCast, Int.natAbs_mul, Int.natAbs_pow] at sizes
  by_cases zero : n = 0
  · exact zero ▸ Nat.dvd_zero _
  · have bound : n < 2 ^ (53 + exponent) := by
      rw [product, Nat.pow_add]
      exact Nat.mul_lt_mul_of_pos_right small (Nat.two_pow_pos _)
    have size := (Nat.log2_lt zero).mpr bound
    rw [product]
    refine Nat.dvd_mul_left_of_dvd ?_ _
    rw [← product]
    exact Nat.pow_dvd_pow 2 (by omega)

theorem isNumber_mul {m k : Nat} (most : m ≤ 2 ^ 53) : IsNumber ((m * 2 ^ k : Nat) : Int) := by
  rcases Nat.lt_or_eq_of_le most with small | rfl
  · exact ⟨m, k, small, by push_cast; rfl⟩
  · exact ⟨1, 53 + k, by decide, by rw [Int.one_mul, ← Nat.pow_add, Int.natCast_pow]; rfl⟩

theorem isNumber_nearest (n : Nat) : IsNumber (nearest n) := by
  have small := mantissa_lt n
  unfold nearest
  dsimp only
  split_ifs
  · exact isNumber_mul (by omega)
  · exact isNumber_mul (by omega)

theorem IsNumber.neg {x : Int} (isNumber : IsNumber x) : IsNumber (-x) := by
  obtain ⟨mantissa, exponent, small, rfl⟩ := isNumber
  exact ⟨-mantissa, exponent, by rwa [Int.natAbs_neg], (Int.neg_mul _ _).symm⟩

/-- The number nearest to a whole one. -/
def Number.ofInt : Int → Number
  | .ofNat n => ⟨nearest n, isNumber_nearest n⟩
  | .negSucc n => ⟨-nearest (n + 1), (isNumber_nearest (n + 1)).neg⟩

variable {x : Int}

theorem ofInt_eq_zero_iff : (Number.ofInt x).value = 0 ↔ x = 0 := by
  cases x with
  | ofNat n =>
    have zero := (nearest_bounds n).2
    simp only [Number.ofInt, Int.ofNat_eq_natCast]
    omega
  | negSucc n =>
    have zero := (nearest_bounds (n + 1)).2
    simp only [Number.ofInt]
    omega

theorem ofInt_close (x : Int) : ((Number.ofInt x).value - x).natAbs ≤ x.natAbs := by
  cases x with
  | ofNat n =>
    have bound := (nearest_bounds n).1
    simp only [Number.ofInt, Int.ofNat_eq_natCast]
    omega
  | negSucc n =>
    have bound := (nearest_bounds (n + 1)).1
    simp only [Number.ofInt]
    omega

theorem ofInt_eq_self_iff : (Number.ofInt x).value = x ↔ IsNumber x := by
  constructor
  · intro same
    exact same ▸ (Number.ofInt x).isNumber
  · intro isNumber
    cases x with
    | ofNat n => exact congrArg Int.ofNat (nearest_eq_iff.mpr (dvd_of_isNumber isNumber))
    | negSucc n =>
      have positive : IsNumber (n + 1 : Nat) := isNumber.neg
      have same := nearest_eq_iff.mpr (dvd_of_isNumber positive)
      simp only [Number.ofInt, same]
      rfl

end Binary64
