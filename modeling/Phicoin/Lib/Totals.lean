import Phicoin.Lib.KeyedMap
import Phicoin.Lib.TwosComplement

/-! # Totals per key in machine words

A list of entries (key, amount) is added up into a map of machine words, one
total per key.  A key with entries gets the wrapped exact sum of its amounts, a
key without entries gets none; so equal maps mean exact sums that are congruent,
and equal as soon as they are less than one modulus apart. -/

namespace Totals

open KeyedMap TwosComplement List

variable {K : Type} [DecidableEq K] (w : Nat)
  (entries : List (K × Int))

def totals : KeyedMap K Int :=
  entries.foldl (fun acc e => accumulate (wrapAdd w) acc e.1 e.2) ∅

/-- The amounts of one key. -/
def amountsOf (k : K) : List Int :=
  (entries.filter fun e => e.1 = k).map Prod.snd

/-- The exact total of one key. -/
def exactTotal (k : K) : Int := (amountsOf entries k).sum

theorem foldl_accumulateValue_some (amounts : List Int) (start : Int) :
    amounts.foldl (accumulateValue (wrapAdd w)) (some (wrap w start)) =
      some (wrap w (start + amounts.sum)) := by
  rw [← foldl_wrapAdd]
  generalize wrap w start = current
  induction amounts generalizing current with
  | nil => rfl
  | cons x rest ih => rw [foldl_cons, foldl_cons, ← ih]; rfl

/-- A map of totals holds the wrapped exact total of every key that occurs. -/
theorem lookup_totals (fits : ∀ e ∈ entries, Fits w e.2) (k : K) :
    (totals w entries).lookup k =
      if amountsOf entries k = [] then none else some (wrap w (exactTotal entries k)) := by
  have start : (totals w entries).lookup k =
      (amountsOf entries k).foldl (accumulateValue (wrapAdd w)) none :=
    lookup_foldl_accumulate (wrapAdd w) entries ∅ k
  have fitsOf : ∀ x ∈ amountsOf entries k, Fits w x := by
    intro x member
    obtain ⟨e, inFilter, rfl⟩ := mem_map.mp member
    exact fits e (mem_of_mem_filter inFilter)
  rw [start]
  unfold exactTotal
  cases amounts : amountsOf entries k with
  | nil => simp
  | cons x rest =>
    have first : wrap w x = x := fitsOf x (by rw [amounts]; exact mem_cons_self)
    rw [foldl_cons, if_neg (cons_ne_nil x rest), sum_cons,
      ← foldl_accumulateValue_some]
    simp only [accumulateValue, first]

theorem isSome_lookup_totals (fits : ∀ e ∈ entries, Fits w e.2) (k : K) :
    ((totals w entries).lookup k).isSome ↔ ∃ x, (k, x) ∈ entries := by
  rw [lookup_totals w entries fits]
  have occurs : amountsOf entries k ≠ [] ↔ ∃ x, (k, x) ∈ entries := by
    simp [amountsOf]
  by_cases empty : amountsOf entries k = []
  · simp only [empty, if_true, Option.isSome_none, Bool.false_eq_true, false_iff]
    intro present
    exact occurs.mpr present empty
  · simp only [empty, if_false, Option.isSome_some, true_iff]
    exact occurs.mp empty

variable {left right : List (K × Int)} (fitsLeft : ∀ e ∈ left, Fits w e.2)
  (fitsRight : ∀ e ∈ right, Fits w e.2) {k : K}
  (same : (totals w left).lookup k = (totals w right).lookup k)

include fitsLeft fitsRight same

/-- Equal totals mean congruent exact totals. -/
theorem wrap_exactTotal_eq :
    wrap w (exactTotal left k) = wrap w (exactTotal right k) := by
  rw [lookup_totals w left fitsLeft, lookup_totals w right fitsRight] at same
  unfold exactTotal at same ⊢
  by_cases emptyLeft : amountsOf left k = [] <;> by_cases emptyRight : amountsOf right k = [] <;>
    simp_all

/-- With equal totals, the exact totals agree exactly when they are less than one
modulus apart. -/
theorem exactTotal_eq_iff :
    exactTotal left k = exactTotal right k ↔ |exactTotal left k - exactTotal right k| < 2 ^ w := by
  constructor
  · intro equal
    rw [equal, sub_self, abs_zero]
    exact Int.pow_pos (by omega)
  · exact eq_of_wrap_eq w (wrap_exactTotal_eq w fitsLeft fitsRight same)

end Totals
