import Mathlib.Data.List.Sort

/-! # Medians of a sliding window

The upper median of a list is the element in the middle of its sorted form.  A
bound on it is a bound on how many elements lie below, so a window that takes in
elements not below its median never lowers it. -/

namespace Median

open List

variable {α : Type} [LinearOrder α]

/-- The element in the middle of the sorted list, the upper one of two. -/
def upperMedian (xs : List α) : Option α := (xs.insertionSort (· ≤ ·))[xs.length / 2]?

theorem countP_lt_eq_zero {v : α} {xs : List α} (above : ∀ x ∈ xs, v ≤ x) : xs.countP (· < v) = 0 :=
  countP_eq_zero.mpr fun x member below =>
    absurd (above x member) (not_le.mpr (by simpa using below))

/-- An element of a sorted list is bounded below by what at most so many precede. -/
theorem le_getElem_iff_countP {v : α} : ∀ {xs : List α}, xs.Pairwise (· ≤ ·) →
    ∀ {k : Nat} (inside : k < xs.length), v ≤ xs[k] ↔ xs.countP (· < v) ≤ k := by
  intro xs
  induction xs with
  | nil => intro _ k inside; cases inside
  | cons x xs ih =>
    intro sorted k inside
    obtain ⟨least, sorted⟩ := pairwise_cons.mp sorted
    by_cases below : x < v
    · cases k with
      | zero => simp [below]
      | succ k =>
        rw [getElem_cons_succ, ih sorted (by simpa using inside)]
        simp [below]
    · have none : (x :: xs).countP (· < v) = 0 := by
        refine countP_lt_eq_zero fun y member => ?_
        rcases mem_cons.mp member with rfl | later
        · exact not_lt.mp below
        · exact (not_lt.mp below).trans (least y later)
      rw [none]
      refine iff_of_true ?_ (Nat.zero_le k)
      cases k with
      | zero => exact not_lt.mp below
      | succ k => exact (not_lt.mp below).trans (least _ (getElem_mem _))

theorem exists_upperMedian (xs : List α) (nonempty : xs ≠ []) : ∃ m, upperMedian xs = some m := by
  have positive := length_pos_iff.mpr nonempty
  have inside : xs.length / 2 < (xs.insertionSort (· ≤ ·)).length := by
    rw [length_insertionSort]
    omega
  exact ⟨_, getElem?_eq_getElem inside⟩

theorem le_upperMedian_iff {xs : List α} {m v : α} (median : upperMedian xs = some m) :
    v ≤ m ↔ xs.countP (· < v) ≤ xs.length / 2 := by
  obtain ⟨inside, rfl⟩ := List.getElem?_eq_some_iff.mp median
  rw [le_getElem_iff_countP (List.pairwise_insertionSort _ xs) inside,
    (List.perm_insertionSort (· ≤ ·) xs).countP_eq]

/-- The window moves on by one element, which is not below its median. -/
theorem upperMedian_slide {xs : List α} {span : Nat} {m m' t : α}
    (median : upperMedian (xs.take span) = some m) (above : m ≤ t)
    (next : upperMedian ((t :: xs).take span) = some m') : m ≤ m' := by
  have few := (le_upperMedian_iff median).mp le_rfl
  rw [le_upperMedian_iff next]
  cases span with
  | zero => cases median
  | succ span =>
    have kept : (xs.take span).countP (· < m) ≤ (xs.take (span + 1)).countP (· < m) :=
      (take_sublist_take_left (Nat.le_succ span)).countP_le
    rw [take_succ_cons, countP_cons_of_neg (by simpa using above)]
    refine kept.trans (few.trans (Nat.div_le_div_right ?_))
    simp only [length_cons, length_take]
    omega

end Median
