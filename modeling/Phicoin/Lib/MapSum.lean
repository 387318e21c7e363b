import Phicoin.Lib.KeyedMap
import Mathlib.Tactic.Ring

/-! # Sums over a map

The sum of a value of every entry, and what insertions and erasures do to it: a
key that is erased takes its value along, a key that is inserted brings its
value and loses the one it had. -/

namespace KeyedMap

open List

variable {K V : Type} [DecidableEq K] (f : V → Int)

def sumOf (m : KeyedMap K V) : Int := (m.entries.map fun entry => f entry.2).sum

/-- The value under a key, zero when there is none. -/
def valueAt (m : KeyedMap K V) (k : K) : Int := ((m.lookup k).map f).getD 0

def without (m : KeyedMap K V) (keys : List K) : KeyedMap K V := keys.foldl (fun acc k => acc.erase k) m

variable {f}

theorem lookup_without (m : KeyedMap K V) (keys : List K) (j : K) :
    (m.without keys).lookup j = if j ∈ keys then none else m.lookup j := by
  unfold without
  induction keys generalizing m with
  | nil => simp
  | cons k rest ih =>
    rw [foldl_cons, ih, lookup_erase_ite]
    by_cases later : j ∈ rest <;> by_cases same : j = k <;> simp [later, same]

theorem sumOf_erase (m : KeyedMap K V) (k : K) :
    sumOf f m = sumOf f (m.erase k) + valueAt f m k := by
  suffices general : ∀ entries : List (Sigma fun _ : K => V),
      (entries.map fun entry => f entry.2).sum =
        ((entries.kerase k).map fun entry => f entry.2).sum +
          ((entries.dlookup k).map f).getD 0 from general m.entries
  intro entries
  induction entries with
  | nil => rfl
  | cons entry rest ih =>
    obtain ⟨j, v⟩ := entry
    by_cases same : k = j
    · subst same
      rw [@List.kerase_cons_eq _ _ _ k ⟨k, v⟩ rest rfl, dlookup_cons_eq, map_cons,
        sum_cons, add_comm]
      rfl
    · rw [@List.kerase_cons_ne _ _ _ k ⟨j, v⟩ rest same, dlookup_cons_ne rest ⟨j, v⟩ same,
        map_cons, sum_cons, ih, map_cons, sum_cons, add_assoc]

theorem sumOf_insert (m : KeyedMap K V) (k : K) (v : V) :
    sumOf f (m.insert k v) = f v + sumOf f (m.erase k) := by
  rw [sumOf, AList.entries_insert, map_cons, sum_cons]
  rfl

/-- Values read one after another from a shrinking map stood in the map at the start. -/
theorem lookup_taken {α : Type} {m : KeyedMap K V} {k : K} {key : α → K} {rest : List α}
    {later : List V} (taken : rest.map (fun x => (m.erase k).lookup (key x)) = later.map some) :
    k ∉ rest.map key ∧ rest.map (fun x => m.lookup (key x)) = later.map some := by
  have others : ∀ x ∈ rest, key x ≠ k ∧ (m.erase k).lookup (key x) = m.lookup (key x) := by
    intro x member
    have present : (m.erase k).lookup (key x) ∈ later.map some := taken ▸ mem_map_of_mem member
    obtain ⟨v, _, found⟩ := mem_map.mp present
    rw [lookup_erase_ite] at found ⊢
    split at found
    · cases found
    · exact ⟨‹_›, if_neg ‹_›⟩
  refine ⟨fun member => ?_, ?_⟩
  · obtain ⟨x, inRest, same⟩ := mem_map.mp member
    exact (others x inRest).1 same
  · rw [← taken]
    exact map_congr_left fun x member => (others x member).2.symm

/-- Distinct keys take exactly their values along. -/
theorem sumOf_without {keys : List K} (distinct : keys.Nodup) (m : KeyedMap K V) :
    sumOf f m = sumOf f (m.without keys) + (keys.map (valueAt f m)).sum := by
  induction keys generalizing m with
  | nil => simp [without]
  | cons k rest ih =>
    obtain ⟨fresh, restDistinct⟩ := nodup_cons.mp distinct
    have untouched : rest.map (valueAt f (m.erase k)) = rest.map (valueAt f m) := by
      refine map_congr_left fun j member => ?_
      have other : j ≠ k := fun same => fresh (same ▸ member)
      rw [valueAt, lookup_erase_ite, if_neg other, valueAt]
    have later := ih restDistinct (m.erase k)
    rw [untouched] at later
    rw [sumOf_erase m k, later, map_cons, sum_cons, without, without, foldl_cons]
    ring

end KeyedMap
