import Mathlib.Data.List.Basic

/-! # Records in the order of their keys

A store that keeps its records in the order of their serialized keys, read by a
cursor: `seek` is what the cursor passes when it is set to a key.  The records whose
keys start alike stand together (`prefix_of_between`). -/

namespace KeyOrder

open List

variable {α β : Type} [LT α] [LE α] [Std.IsLinearOrder α] [Std.LawfulOrderLT α]

/-- What stands between two lists that start alike starts so too. -/
theorem prefix_of_between {common low high between : List α} (above : common ++ low ≤ between)
    (below : between ≤ common ++ high) : common <+: between := by
  induction common generalizing between with
  | nil => exact nil_prefix
  | cons c rest ih =>
    cases between with
    | nil => exact absurd (nil_lt_cons c (rest ++ low)) above
    | cons d more =>
      rcases cons_le_cons_iff.mp above with less | ⟨rfl, restAbove⟩
      · rcases cons_le_cons_iff.mp below with greater | ⟨rfl, _⟩
        · exact absurd greater (Std.not_gt_of_lt less)
        · exact absurd less Std.lt_irrefl
      · rcases cons_le_cons_iff.mp below with greater | ⟨_, restBelow⟩
        · exact absurd greater Std.lt_irrefl
        · exact cons_prefix_cons.mpr ⟨rfl, ih restAbove restBelow⟩

variable [DecidableLT α] [DecidableEq α]

/-- The records from a key on. -/
def seek (key : β → List α) (records : List β) (target : List α) : List β :=
  (records.mergeSort fun a b => key a ≤ key b).filter fun record => target ≤ key record

variable {key : β → List α} {records : List β} {target : List α}

theorem pairwise_seek : (seek key records target).Pairwise fun a b => key a ≤ key b := by
  refine ((pairwise_mergeSort ?_ ?_ records).imp of_decide_eq_true).filter _
  · intro a b c first second
    exact decide_eq_true (List.le_trans (of_decide_eq_true first) (of_decide_eq_true second))
  · intro a b
    simpa using List.le_total (key a) (key b)

/-- A loop that stops at the first record without a property passes all that have it,
when these stand together. -/
theorem mem_takeWhile_seek {p : β → Bool} {record : β}
    (together : ∀ a ∈ records, target ≤ key a → key a ≤ key record → p record = true →
      p a = true) : record ∈ (seek key records target).takeWhile p ↔
      (record ∈ records ∧ target ≤ key record) ∧ p record = true := by
  have found : ∀ a, a ∈ seek key records target ↔ a ∈ records ∧ target ≤ key a := by simp [seek]
  rw [← found]
  have sorted := @pairwise_seek _ _ _ _ _ _ _ _ key records target
  have together : ∀ a ∈ seek key records target, key a ≤ key record → p record = true →
      p a = true := fun a member => together a ((found a).mp member).1 ((found a).mp member).2
  generalize seek key records target = passed at sorted together
  refine ⟨fun member => ⟨(takeWhile_sublist p).subset member, all_eq_true.mp all_takeWhile _ member⟩, ?_⟩
  rintro ⟨member, holds⟩
  induction passed with
  | nil => cases member
  | cons a rest ih =>
    obtain ⟨first, sorted⟩ := pairwise_cons.mp sorted
    rw [forall_mem_cons] at together
    rcases mem_cons.mp member with rfl | later
    · rw [takeWhile_cons_of_pos holds]
      exact mem_cons_self
    · rw [takeWhile_cons_of_pos (together.1 (first record later) holds)]
      exact mem_cons_of_mem a (ih sorted together.2 later)

end KeyOrder
