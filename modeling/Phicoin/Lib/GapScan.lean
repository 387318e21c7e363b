import Mathlib.Data.Nat.Find
import Mathlib.Tactic.Common

/-! # Hits, misses and gaps of a sequence

Positions of a sequence are hits or misses.  A scan that walks from the start and
gives up after a number of consecutive misses sees exactly the positions below one
point, which depends on the sequence only. -/

namespace GapScan

variable (hit : Nat → Bool)

/-- The length of the run of misses that ends just below a position. -/
def misses : Nat → Nat
  | 0 => 0
  | n + 1 => if hit n then 0 else misses n + 1

/-- The highest hit below a position, and `-1` without one. -/
def lastHit : Nat → Int
  | 0 => -1
  | n + 1 => if hit n then n else lastHit n

/-- A run of misses of the given length ends just below the position. -/
def GapAt (gap n : Nat) : Prop :=
  gap ≤ n ∧ ∀ i, n - gap ≤ i → i < n → hit i = false

/-- Every hit below the bound comes less than `gap` positions after the start or an
earlier hit. -/
def GapsBelow (gap bound : Nat) : Prop :=
  ∀ j, j < bound → hit j = true → ∀ s, s + gap ≤ j → ∃ i, s ≤ i ∧ i < s + gap ∧ hit i = true

variable {hit}
  {n : Nat}

theorem misses_succ_of_hit (h : hit n = true) : misses hit (n + 1) = 0 := by
  simp [misses, h]

theorem misses_succ_of_miss (h : hit n = false) : misses hit (n + 1) = misses hit n + 1 := by
  simp [misses, h]

variable {gap : Nat}

theorem le_misses_iff : gap ≤ misses hit n ↔ GapAt hit gap n := by
  induction n generalizing gap with
  | zero =>
    simp only [misses, GapAt]
    constructor
    · intro h
      exact ⟨h, fun i _ below => absurd below (Nat.not_lt_zero i)⟩
    · intro h
      exact h.1
  | succ n ih =>
    cases hn : hit n with
    | true =>
      rw [misses_succ_of_hit hn]
      constructor
      · intro h
        refine ⟨by omega, fun i low high => ?_⟩
        omega
      · intro h
        by_contra pos
        have := h.2 n (by omega) (by omega)
        simp [hn] at this
    | false =>
      rw [misses_succ_of_miss hn]
      cases gap with
      | zero =>
        simp only [Nat.zero_le, GapAt, true_and, true_iff]
        intro i low high
        omega
      | succ gap =>
        have step : gap ≤ misses hit n ↔ GapAt hit gap n := ih
        constructor
        · intro h
          have run := step.mp (by omega)
          refine ⟨by have := run.1; omega, fun i low high => ?_⟩
          by_cases top : i = n
          · rw [top]
            exact hn
          · exact run.2 i (by omega) (by omega)
        · intro h
          have run : GapAt hit gap n :=
            ⟨by have := h.1; omega, fun i low high => h.2 i (by omega) (by omega)⟩
          have := step.mpr run
          omega

theorem lastHit_lt (hit : Nat → Bool) (n : Nat) : lastHit hit n < n := by
  induction n with
  | zero => simp [lastHit]
  | succ n ih =>
    simp only [lastHit]
    split <;> omega

theorem le_lastHit {i : Nat} (below : i < n) (h : hit i = true) : (i : Int) ≤ lastHit hit n := by
  induction n with
  | zero => omega
  | succ n ih =>
    simp only [lastHit]
    split
    · omega
    · next miss =>
      have : i ≠ n := by
        intro same
        exact miss (same ▸ h)
      exact ih (by omega)

theorem lastHit_cases (hit : Nat → Bool) (n : Nat) :
    lastHit hit n = -1 ∨ ∃ i, i < n ∧ hit i = true ∧ lastHit hit n = i := by
  induction n with
  | zero => exact Or.inl rfl
  | succ n ih =>
    simp only [lastHit]
    split
    · next h => exact Or.inr ⟨n, by omega, h, rfl⟩
    · rcases ih with none | ⟨i, below, h, last⟩
      · exact Or.inl none
      · exact Or.inr ⟨i, by omega, h, last⟩

/-- Positions without a hit do not move the highest hit. -/
theorem lastHit_of_misses {m : Nat} (le : n ≤ m)
    (miss : ∀ i, n ≤ i → i < m → hit i = false) : lastHit hit m = lastHit hit n := by
  induction m, le using Nat.le_induction with
  | base => rfl
  | succ m le ih =>
    rw [lastHit, miss m le (by omega)]
    exact ih fun i low high => miss i low (by omega)

theorem exists_stop (hit : Nat → Bool) (gap limit : Nat) : ∃ n, limit ≤ n ∨ gap ≤ misses hit n :=
  ⟨limit, Or.inl le_rfl⟩

/-- The number of positions a scan sees: up to the first gap, or to the limit. -/
def stopAt (hit : Nat → Bool) (gap limit : Nat) : Nat :=
  Nat.find (exists_stop hit gap limit)

theorem stopAt_le (hit : Nat → Bool) (gap limit : Nat) : stopAt hit gap limit ≤ limit :=
  Nat.find_min' _ (Or.inl le_rfl)

theorem stopAt_spec (hit : Nat → Bool) (gap limit : Nat) :
    stopAt hit gap limit = limit ∨ gap ≤ misses hit (stopAt hit gap limit) := by
  have le := stopAt_le hit gap limit
  rcases Nat.find_spec (exists_stop hit gap limit) with h | h
  · exact Or.inl (Nat.le_antisymm le h)
  · exact Or.inr h

variable {limit : Nat}

theorem misses_lt_of_lt_stopAt (h : n < stopAt hit gap limit) : misses hit n < gap := by
  have := Nat.find_min (exists_stop hit gap limit) h
  omega

theorem stopAt_le_of_gap (h : GapAt hit gap n) : stopAt hit gap limit ≤ n :=
  Nat.find_min' _ (Or.inr (le_misses_iff.mpr h))

/-- A scan reaches every hit below the limit when no gap comes before it. -/
theorem lt_stopAt_of_gapsBelow {j : Nat} (gaps : GapsBelow hit gap limit)
    (below : j < limit) (h : hit j = true) : j < stopAt hit gap limit := by
  by_contra past
  rcases stopAt_spec hit gap limit with atLimit | gapHere
  · omega
  · obtain ⟨fits, miss⟩ := le_misses_iff.mp gapHere
    obtain ⟨i, low, high, found⟩ :=
      gaps j below h (stopAt hit gap limit - gap) (by omega)
    have := miss i low (by omega)
    simp [found] at this

/-- Below the point where a scan stops, every stretch of `gap` positions has a hit. -/
theorem exists_hit_of_lt_stopAt {s : Nat} (h : s + gap < stopAt hit gap limit) :
    ∃ i, s ≤ i ∧ i < s + gap ∧ hit i = true := by
  by_contra none
  have gapHere : GapAt hit gap (s + gap) := by
    refine ⟨by omega, fun i low high => ?_⟩
    by_contra isHit
    exact none ⟨i, by omega, high, by simpa using isHit⟩
  have : stopAt hit gap limit ≤ s + gap := stopAt_le_of_gap gapHere
  omega

/-- No position of the `k`-th batch is a hit. -/
def emptyBatch (hit : Nat → Bool) (size k : Nat) : Bool :=
  (List.range' (size * k) size).all (!hit ·)

variable {size : Nat}

theorem emptyBatch_eq_true {k : Nat} : emptyBatch hit size k = true ↔
      ∀ i, size * k ≤ i → i < size * k + size → hit i = false := by
  simp only [emptyBatch, List.all_eq_true, List.mem_range'_1, Bool.not_eq_true']
  exact ⟨fun h i low high => h i ⟨low, high⟩, fun h i bounds => h i bounds.1 bounds.2⟩

theorem emptyBatch_eq_false {k : Nat} : emptyBatch hit size k = false ↔
      ∃ i, size * k ≤ i ∧ i < size * k + size ∧ hit i = true := by
  rw [← Bool.not_eq_true, emptyBatch_eq_true]
  constructor
  · intro h
    by_contra none
    refine h fun i low high => ?_
    by_contra isHit
    exact none ⟨i, low, high, by simpa using isHit⟩
  · rintro ⟨i, low, high, isHit⟩ h
    simp [h i low high] at isHit

theorem exists_emptyBatch (hit : Nat → Bool) (size limit : Nat) :
    ∃ k, limit ≤ k ∨ emptyBatch hit size k = true :=
  ⟨limit, Or.inl le_rfl⟩

/-- The number of batches before the first empty one, at most the limit. -/
def fullBatches (hit : Nat → Bool) (size limit : Nat) : Nat :=
  Nat.find (exists_emptyBatch hit size limit)

theorem fullBatches_le (hit : Nat → Bool) (size limit : Nat) : fullBatches hit size limit ≤ limit :=
  Nat.find_min' _ (Or.inl le_rfl)

theorem fullBatches_le_of_empty {k : Nat} (h : emptyBatch hit size k = true) :
    fullBatches hit size limit ≤ k :=
  Nat.find_min' _ (Or.inr h)

theorem fullBatches_spec (hit : Nat → Bool) (size limit : Nat) :
    fullBatches hit size limit = limit ∨
      emptyBatch hit size (fullBatches hit size limit) = true := by
  have le := fullBatches_le hit size limit
  rcases Nat.find_spec (exists_emptyBatch hit size limit) with h | h
  · exact Or.inl (Nat.le_antisymm le h)
  · exact Or.inr h

/-- A hit below the limit is in a full batch when none of the batches before its own is
empty. -/
theorem lt_fullBatches {j : Nat} (below : j < size * limit) (isHit : hit j = true)
    (full : ∀ k, size * k + size ≤ j → emptyBatch hit size k = false) :
    j < size * fullBatches hit size limit := by
  by_contra past
  rcases fullBatches_spec hit size limit with h | h
  · rw [h] at past
    exact past below
  · rcases Nat.lt_or_ge j (size * fullBatches hit size limit + size) with inside | beyond
    · have := emptyBatch_eq_true.mp h j (by omega) inside
      simp [isHit] at this
    · have := full _ beyond
      simp [h] at this

end GapScan
