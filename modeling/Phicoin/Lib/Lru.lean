import Phicoin.Lib.KeyedMap

/-! # A bounded cache of recently used entries

The entries stand most recent first.  Storing an entry moves it to the front and
evicts the last one when the bound is passed, so a cache never invents an
answer: what a lookup finds after a store was stored now or was there before.  Storing a
list of new entries keeps of the old ones the most recent that still fit. -/

structure LruCache (K V : Type) where
  maxSize : Nat
  items : KeyedMap K V

namespace LruCache

variable {K V : Type} [DecidableEq K]

/-- Forget the least recently used entry. -/
def dropOldest (m : KeyedMap K V) : KeyedMap K V :=
  ⟨m.entries.dropLast, m.nodupKeys.sublist (List.dropLast_sublist m.entries)⟩

variable (cache : LruCache K V)

def put (k : K) (v : V) : LruCache K V :=
  { cache with
    items :=
      if (cache.items.insert k v).entries.length > cache.maxSize then
        dropOldest (cache.items.insert k v)
      else cache.items.insert k v }

def erase (k : K) : LruCache K V :=
  { cache with items := cache.items.erase k }

def get? (k : K) : Option V := cache.items.lookup k

def exists? (k : K) : Bool := (cache.get? k).isSome

theorem lookup_dropOldest {m : KeyedMap K V} {k : K} {v : V}
    (found : (dropOldest m).lookup k = some v) : m.lookup k = some v := by
  rw [← Option.mem_def, AList.mem_lookup_iff] at found ⊢
  exact (List.dropLast_sublist m.entries).subset found

theorem get?_put {cache : LruCache K V} {k j : K} {v w : V}
    (found : (cache.put k v).get? j = some w) : (j = k ∧ w = v) ∨ cache.get? j = some w := by
  have stored : (cache.items.insert k v).lookup j = some w := by
    simp only [put, get?] at found
    split at found
    · exact lookup_dropOldest found
    · exact found
  rw [KeyedMap.lookup_insert_ite] at stored
  by_cases same : j = k
  · rw [if_pos same] at stored
    exact Or.inl ⟨same, (Option.some.inj stored).symm⟩
  · rw [if_neg same] at stored
    exact Or.inr stored

/-- Store entries one after another. -/
def putAll (pairs : List (K × V)) : LruCache K V :=
  pairs.foldl (fun stored pair => stored.put pair.1 pair.2) cache

section

variable {cache} {k : K} {v : V}

theorem entries_put (isNew : k ∉ cache.items)
    (bounded : cache.items.entries.length ≤ cache.maxSize) :
    (cache.put k v).items.entries = (⟨k, v⟩ :: cache.items.entries).take cache.maxSize := by
  have inserted := AList.entries_insert_of_notMem isNew (b := v)
  unfold put
  dsimp only
  split_ifs with full
  · rw [dropOldest]
    dsimp only
    rw [inserted] at full ⊢
    rw [List.dropLast_eq_take]
    congr 1
    rw [List.length_cons] at full ⊢
    omega
  · rw [inserted] at full ⊢
    rw [List.take_of_length_le (by omega)]

theorem mem_put_iff (isNew : k ∉ cache.items)
    (bounded : cache.items.entries.length ≤ cache.maxSize) {j : K} (other : j ≠ k) (n : Nat)
    (room : n ≤ cache.maxSize) : j ∈ ((cache.put k v).items.entries.take n).keys ↔
      j ∈ (cache.items.entries.take (n - 1)).keys := by
  rw [entries_put isNew bounded, List.take_take, Nat.min_eq_left room]
  cases n with
  | zero => simp [List.keys]
  | succ n => simp [List.keys, other]

/-- Of the entries that were there, the most recent are kept. -/
theorem mem_putAll_iff {pairs : List (K × V)} (distinct : (pairs.map Prod.fst).Nodup)
    (new : ∀ pair ∈ pairs, pair.1 ∉ cache.items)
    (bounded : cache.items.entries.length ≤ cache.maxSize) {j : K}
    (other : j ∉ pairs.map Prod.fst) :
    j ∈ (cache.putAll pairs).items ↔
      j ∈ (cache.items.entries.take (cache.maxSize - pairs.length)).keys := by
  induction pairs generalizing cache with
  | nil =>
    rw [List.take_of_length_le (by simpa using bounded)]
    rfl
  | cons pair rest ih =>
    rw [List.map_cons, List.nodup_cons] at distinct
    rw [List.map_cons, List.mem_cons, not_or] at other
    rw [List.forall_mem_cons] at new
    have stored := entries_put (v := pair.2) new.1 bounded
    have still : ∀ later ∈ rest, later.1 ∉ (cache.put pair.1 pair.2).items := by
      intro later member present
      obtain ⟨value, found⟩ := Option.isSome_iff_exists.mp (AList.lookup_isSome.mpr present)
      rcases get?_put found with ⟨same, _⟩ | before
      · exact distinct.1 (same ▸ List.mem_map_of_mem member)
      · exact new.2 later member (AList.lookup_isSome.mp (Option.isSome_of_eq_some before))
    refine (ih distinct.2 still ?_ other.2).trans ?_
    · rw [stored]
      exact List.length_take_le _ _
    · refine (mem_put_iff new.1 bounded other.1 _ (Nat.sub_le _ _)).trans ?_
      rw [List.length_cons, Nat.sub_sub]

theorem get?_putAll {pairs : List (K × V)} {j : K} {w : V}
    (found : (cache.putAll pairs).get? j = some w) : (j, w) ∈ pairs ∨ cache.get? j = some w := by
  induction pairs generalizing cache with
  | nil => exact .inr found
  | cons pair rest ih =>
    rcases ih found with member | stored
    · exact .inl (List.mem_cons_of_mem pair member)
    · rcases get?_put stored with ⟨rfl, rfl⟩ | before
      · exact .inl List.mem_cons_self
      · exact .inr before

theorem bounded_put (bounded : cache.items.entries.length ≤ cache.maxSize) :
    (cache.put k v).items.entries.length ≤ cache.maxSize := by
  have kept := (List.kerase_sublist k cache.items.entries).length_le
  have inserted := congrArg List.length (AList.entries_insert (b := v) (a := k) (s := cache.items))
  rw [List.length_cons] at inserted
  unfold put
  dsimp only
  split_ifs with full
  · rw [dropOldest]
    dsimp only
    rw [List.length_dropLast]
    omega
  · omega

theorem bounded_putAll (pairs : List (K × V))
    (bounded : cache.items.entries.length ≤ cache.maxSize) :
    (cache.putAll pairs).items.entries.length ≤ (cache.putAll pairs).maxSize := by
  induction pairs generalizing cache with
  | nil => exact bounded
  | cons pair rest ih => exact ih (bounded_put bounded)

end

theorem get?_erase (k j : K) :
    (cache.erase k).get? j = if j = k then none else cache.get? j :=
  KeyedMap.lookup_erase_ite cache.items k j

end LruCache
