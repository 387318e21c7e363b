import Phicoin.Lib.Lru

/-! # Pending changes of a store

Changes that no store has yet are kept by their keys in two containers: the last
change made of a key, and the last change undone.  An entry of either says what
the value of the key is; the undone ones are read first.  Flushing one layer of
pending changes into another lets the upper one prevail.  A stored set, a database
of keys with a bounded cache of hits, takes the changes when they are dumped. -/

/-- The changes made and the changes undone. -/
structure Pending (K E : Type) where
  undone : KeyedMap K E
  made : KeyedMap K E

/-- The value that a change gives when it is made and when it is undone. -/
structure Reading (E V : Type) where
  made : E → V
  undone : E → V

namespace Pending

open KeyedMap List

variable {K E V : Type} [DecidableEq K]

def empty : Pending K E := ⟨∅, ∅⟩

def make (layer : Pending K E) (k : K) (e : E) : Pending K E :=
  ⟨layer.undone.erase k, layer.made.insert k e⟩

def undo (layer : Pending K E) (k : K) (e : E) : Pending K E :=
  ⟨layer.undone.insert k e, layer.made.erase k⟩

def flush (layer into : Pending K E) : Pending K E :=
  ⟨putAll layer.undone (eraseAll layer.made into.undone),
    eraseAll layer.undone (putAll layer.made into.made)⟩

variable (reading : Reading E V)

/-- What the pending changes say of a key. -/
def verdict (layer : Pending K E) (k : K) : Option V :=
  match layer.undone.lookup k with
  | some e => some (reading.undone e)
  | none => (layer.made.lookup k).map reading.made

@[simp] theorem verdict_empty (k : K) : (empty : Pending K E).verdict reading k = none := rfl

theorem verdict_make (layer : Pending K E) (k j : K) (e : E) : (layer.make k e).verdict reading j =
      if j = k then some (reading.made e) else layer.verdict reading j := by
  simp only [verdict, make, lookup_erase_ite, lookup_insert_ite]
  by_cases same : j = k <;> simp [same]

theorem verdict_undo (layer : Pending K E) (k j : K) (e : E) : (layer.undo k e).verdict reading j =
      if j = k then some (reading.undone e) else layer.verdict reading j := by
  simp only [verdict, undo, lookup_erase_ite, lookup_insert_ite]
  by_cases same : j = k <;> simp [same]

/-- The upper layer prevails in a flush. -/
theorem verdict_flush (layer into : Pending K E) (k : K) :
    (layer.flush into).verdict reading k = (layer.verdict reading k).or (into.verdict reading k) := by
  simp only [verdict, flush, lookup_putAll, lookup_eraseAll]
  cases layer.undone.lookup k <;> cases layer.made.lookup k <;> simp

variable (upper lower : Pending K E)

/-- The order in which a lookup may read two layers: what was undone in either of them
first. -/
def read (k : K) : Option V :=
  match upper.undone.lookup k with
  | some e => some (reading.undone e)
  | none =>
  match lower.undone.lookup k with
  | some e => some (reading.undone e)
  | none =>
  match upper.made.lookup k with
  | some e => some (reading.made e)
  | none => (lower.made.lookup k).map reading.made

/-- No change of the upper layer stands behind one that was undone in the lower layer. -/
def Unshadowed (k : K) : Prop :=
  upper.made.lookup k = none ∨ lower.undone.lookup k = none

theorem unshadowed_empty (lower : Pending K E) (k : K) : Unshadowed empty lower k := .inl rfl

theorem read_eq {upper lower : Pending K E} {k : K} (unshadowed : Unshadowed upper lower k) :
    read reading upper lower k = (upper.verdict reading k).or (lower.verdict reading k) := by
  unfold read verdict
  rcases unshadowed with none | none <;> rw [none] <;>
    cases upper.undone.lookup k <;> simp
  cases upper.made.lookup k <;> simp

/-- The value of a key: what the upper layer says, else the lower one, else the store. -/
def value (store : K → V) (k : K) : V :=
  ((upper.verdict reading k).or (lower.verdict reading k)).getD (store k)

theorem value_flush (store : K → V) (k : K) :
    value reading empty (upper.flush lower) store k = value reading upper lower store k := by
  rw [value, value, verdict_empty, Option.none_or, verdict_flush]

theorem value_dump (store : K → V) (k : K) :
    value reading upper empty (fun j => (lower.verdict reading j).getD (store j)) k =
      value reading upper lower store k := by
  rw [value, value, verdict_empty, Option.or_none]
  cases upper.verdict reading k <;> rfl

/-! ### Replaying

A history is a list of batches of changes, newest first.  Making the changes of a
batch one after the other gives the replayed values; undoing the newest batch gives
those of the batches below, when every undone entry says what they were. -/

/-- The values after the changes of a batch. -/
def applied (start : K → V) (changes : List (K × E)) : K → V :=
  changes.foldl (fun values change => Function.update values change.1 (reading.made change.2)) start

/-- The values after all batches. -/
def replay (start : K → V) (history : List (List (K × E))) : K → V :=
  history.foldr (fun changes below => applied reading below changes) start

def makeAll (layer : Pending K E) (changes : List (K × E)) : Pending K E :=
  changes.foldl (fun layer change => layer.make change.1 change.2) layer

theorem makeAll_append (layer : Pending K E) (changes more : List (K × E)) :
    layer.makeAll (changes ++ more) = (layer.makeAll changes).makeAll more :=
  foldl_append

variable {changes : List (K × E)}

/-- A key that no change names keeps its value. -/
theorem applied_of_not_mem {start : K → V} {k : K}
    (untouched : k ∉ changes.map Prod.fst) : applied reading start changes k = start k := by
  induction changes generalizing start with
  | nil => rfl
  | cons change rest ih =>
    rw [map_cons, mem_cons, not_or] at untouched
    exact (ih untouched.2).trans (Function.update_of_ne untouched.1 _ _)

/-- A key that some change names has the value of one of them. -/
theorem applied_of_mem {start : K → V} {k : K} (touched : k ∈ changes.map Prod.fst) :
    ∃ change ∈ changes, change.1 = k ∧ applied reading start changes k = reading.made change.2 := by
  induction changes generalizing start with
  | nil => cases touched
  | cons change rest ih =>
    by_cases later : k ∈ rest.map Prod.fst
    · obtain ⟨other, member, named, value⟩ := ih later
      exact ⟨other, mem_cons_of_mem change member, named, value⟩
    · have named : k = change.1 := (mem_cons.mp touched).resolve_right later
      refine ⟨change, mem_cons_self, named.symm, ?_⟩
      refine (applied_of_not_mem reading later).trans ?_
      rw [named]
      exact Function.update_self _ _ _

theorem value_make (upper lower : Pending K E) (store : K → V) (k : K) (e : E) :
    value reading (upper.make k e) lower store =
      Function.update (value reading upper lower store) k (reading.made e) := by
  funext j
  rw [value, verdict_make, Function.update_apply]
  split
  · rfl
  · rfl

/-- Making the changes of a batch replays them. -/
theorem value_makeAll (upper lower : Pending K E) (store : K → V) (changes : List (K × E)) :
    value reading (upper.makeAll changes) lower store =
      applied reading (value reading upper lower store) changes := by
  induction changes generalizing upper with
  | nil => rfl
  | cons change rest ih =>
    rw [makeAll, foldl_cons, ← makeAll, ih, value_make]
    rfl

/-- The keys of the changes made are those of the batch. -/
theorem isSome_made_makeAll (changes : List (K × E)) (k : K) :
    ((empty.makeAll changes).made.lookup k).isSome ↔ k ∈ changes.map Prod.fst := by
  suffices general : ∀ layer : Pending K E, ((layer.makeAll changes).made.lookup k).isSome ↔
      k ∈ changes.map Prod.fst ∨ (layer.made.lookup k).isSome by
    simpa [empty] using general empty
  intro layer
  induction changes generalizing layer with
  | nil => simp [makeAll]
  | cons change rest ih =>
    rw [makeAll, foldl_cons, ← makeAll, ih, make, lookup_insert_ite]
    by_cases same : k = change.1 <;> simp [same]

/-- A layer in which some keys were given earlier values back, and nothing else was done. -/
structure Restores (earlier : K → V) (keys : List K) (layer : Pending K E) : Prop where
  made : ∀ k, layer.made.lookup k = none
  undone : ∀ k, layer.verdict reading k = if k ∈ keys then some (earlier k) else none

theorem restores_empty (earlier : K → V) : Restores reading earlier [] (empty : Pending K E) :=
  ⟨fun _ => rfl, fun _ => rfl⟩

variable {reading}

theorem undone_of_verdict {layer : Pending K E} {k : K} (silent : layer.verdict reading k = none) :
    layer.undone.lookup k = none := by
  cases found : layer.undone.lookup k with
  | none => rfl
  | some e =>
    rw [verdict, found] at silent
    cases silent

variable {earlier : K → V} {keys : List K} {layer : Pending K E}

theorem Restores.undo (restores : Restores reading earlier keys layer) {k : K} {e : E}
    (back : reading.undone e = earlier k) :
    Restores reading earlier (k :: keys) (layer.undo k e) where
  made j := by
    rw [Pending.undo, lookup_erase_ite, restores.made j, ite_self]
  undone j := by
    rw [verdict_undo, restores.undone j]
    by_cases same : j = k
    · subst same
      simp [back]
    · simp [same]

theorem Restores.congr {others : List K}
    (restores : Restores reading earlier keys layer) (same : ∀ k, k ∈ others ↔ k ∈ keys) :
    Restores reading earlier others layer :=
  ⟨restores.made, fun k => (restores.undone k).trans (if_congr (same k).symm rfl rfl)⟩

theorem Restores.undoAll (restores : Restores reading earlier keys layer)
    (back : ∀ change ∈ changes, reading.undone change.2 = earlier change.1) :
    Restores reading earlier (changes.map Prod.fst ++ keys)
      (changes.foldl (fun layer change => layer.undo change.1 change.2) layer) := by
  induction changes generalizing layer keys with
  | nil => exact restores
  | cons change rest ih =>
    refine (ih (restores.undo (back change mem_cons_self)) fun other member =>
      back other (mem_cons_of_mem change member)).congr fun k => ?_
    simp only [map_cons, cons_append, mem_append, mem_cons]
    tauto

/-- Restoring every key of the newest batch gives the values below it. -/
theorem Restores.value_eq {upper lower : Pending K E}
    {store : K → V} (restores : Restores reading earlier (changes.map Prod.fst) upper)
    (before : value reading empty lower store = applied reading earlier changes) :
    value reading upper lower store = earlier := by
  funext k
  rw [value, restores.undone k]
  split
  · rfl
  · rename_i untouched
    refine Eq.trans ?_ (applied_of_not_mem reading untouched)
    rw [← before, value, verdict_empty]

end Pending

/-- A set of keys in a database, with a cache of keys found there. -/
structure StoredSet (K : Type) where
  database : KeyedMap K Unit
  cache : LruCache K Unit

namespace StoredSet

open KeyedMap

variable {K E : Type} [DecidableEq K]

def has (store : StoredSet K) (k : K) : Bool := (store.database.lookup k).isSome

/-- A key written to the database and cached, or erased from both. -/
def write (store : StoredSet K) (k : K) (on : Bool) : StoredSet K :=
  if on then ⟨store.database.insert k (), store.cache.put k ()⟩
  else ⟨store.database.erase k, store.cache.erase k⟩

/-- A key that the database has is cached. -/
def refresh (store : StoredSet K) (k : K) : StoredSet K :=
  if store.has k then { store with cache := store.cache.put k () } else store

/-- The changes made are written first, then those undone. -/
def dump (reading : Reading E Bool) (layer : Pending K E) (store : StoredSet K) : StoredSet K :=
  layer.undone.entries.foldl (fun acc e => acc.write e.1 (reading.undone e.2))
    (layer.made.entries.foldl (fun acc e => acc.write e.1 (reading.made e.2)) store)

/-- What is cached is in the database. -/
def Coherent (store : StoredSet K) : Prop := ∀ k, store.cache.exists? k = true → store.has k = true

variable {store : StoredSet K}

/-- What a set with a coherent cache answers. -/
theorem Coherent.or_has (coherent : store.Coherent) (k : K) :
    (store.cache.exists? k || store.has k) = store.has k := by
  cases cached : store.cache.exists? k with
  | false => rfl
  | true => rw [coherent k cached, Bool.true_or]

theorem has_write (store : StoredSet K) (k j : K) (on : Bool) :
    (store.write k on).has j = if j = k then on else store.has j := by
  cases on
  · simp only [write, has, Bool.false_eq_true, if_false, lookup_erase_ite]
    by_cases same : j = k <;> simp [same]
  · simp only [write, has, if_true, lookup_insert_ite]
    by_cases same : j = k <;> simp [same]

theorem has_dump (reading : Reading E Bool) (layer : Pending K E) (store : StoredSet K) (k : K) :
    (store.dump reading layer).has k = (layer.verdict reading k).getD (store.has k) := by
  rw [dump, foldl_entries_observe (fun acc k e => write acc k (reading.undone e)) (has · k)
      (fun _ e => reading.undone e) k fun s j e => has_write s j k _,
    foldl_entries_observe (fun acc k e => write acc k (reading.made e)) (has · k)
      (fun _ e => reading.made e) k fun s j e => has_write s j k _, Pending.verdict]
  cases layer.undone.lookup k <;> cases layer.made.lookup k <;> rfl

theorem exists?_put {cache : LruCache K Unit} {k j : K} (found : (cache.put k ()).exists? j = true) :
    j = k ∨ cache.exists? j = true := by
  obtain ⟨v, stored⟩ := Option.isSome_iff_exists.mp found
  rcases LruCache.get?_put stored with ⟨same, _⟩ | before
  · exact .inl same
  · exact .inr (by rw [LruCache.exists?, before]; rfl)

theorem Coherent.write (coherent : store.Coherent) (k : K) (on : Bool) :
    (store.write k on).Coherent := by
  intro j found
  rw [has_write]
  cases on
  · simp only [StoredSet.write, Bool.false_eq_true, if_false, LruCache.exists?,
      LruCache.get?_erase] at found
    by_cases same : j = k
    · simp [same] at found
    · rw [if_neg same] at found ⊢
      exact coherent j found
  · by_cases same : j = k
    · rw [if_pos same]
    · rw [if_neg same]
      simp only [StoredSet.write, if_true] at found
      exact coherent j ((exists?_put found).resolve_left same)

theorem Coherent.refresh (coherent : store.Coherent) (k : K) : (store.refresh k).Coherent := by
  unfold StoredSet.refresh
  split
  · rename_i stored
    intro j found
    rcases exists?_put found with rfl | before
    · exact stored
    · exact coherent j before
  · exact coherent

theorem has_refresh (store : StoredSet K) (k j : K) : (store.refresh k).has j = store.has j := by
  unfold refresh
  split <;> rfl

theorem Coherent.dump (coherent : store.Coherent) (reading : Reading E Bool)
    (layer : Pending K E) : (store.dump reading layer).Coherent := by
  refine List.foldlRecOn _ _ ?_ fun acc before e _ => before.write e.1 _
  exact List.foldlRecOn _ _ coherent fun acc before e _ => before.write e.1 _

end StoredSet
