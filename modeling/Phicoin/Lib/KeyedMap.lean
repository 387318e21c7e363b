import Mathlib.Data.List.AList

/-! # Maps and sets ordered by a key

An ordered container (a map, or a set whose elements are compared by a key) is
an association list without repeated keys.  Overwriting assignment is
`AList.insert`; the `insert` that keeps an element already there is `insertNew`.  Loops
over a container are folds over its entries, and the lemmas say what such a loop does to
every lookup. -/

abbrev KeyedMap (K V : Type) := AList fun _ : K => V

namespace KeyedMap

open List Option

variable {K V : Type} [DecidableEq K]

theorem lookup_insert_ite (m : KeyedMap K V) (k j : K) (v : V) :
    (m.insert k v).lookup j = if j = k then some v else m.lookup j := by
  by_cases same : j = k
  · subst same
    simp
  · simp [same]

theorem lookup_erase_ite (m : KeyedMap K V) (k j : K) :
    (m.erase k).lookup j = if j = k then none else m.lookup j := by
  by_cases same : j = k
  · subst same
    simp
  · simp [same]

/-- `insert` of an ordered container: an element already there is kept. -/
def insertNew (k : K) (v : V) (m : KeyedMap K V) : KeyedMap K V :=
  if (m.lookup k).isSome then m else m.insert k v

variable {m : KeyedMap K V}

theorem insertNew_of_none {k : K} (absent : m.lookup k = none) (v : V) :
    insertNew k v m = m.insert k v := by
  rw [insertNew, absent]
  rfl

theorem lookup_insertNew (m : KeyedMap K V) (k j : K) (v : V) : (insertNew k v m).lookup j =
      if j = k then some ((m.lookup k).getD v) else m.lookup j := by
  unfold insertNew
  by_cases same : j = k
  · subst same
    cases found : m.lookup j with
    | none => simp
    | some old => simp [found]
  · cases found : m.lookup k with
    | none => simp [same]
    | some old => simp [same]

theorem lookup_of_insertNew {k j : K} {v e : V} (found : (insertNew k v m).lookup j = some e) :
    m.lookup j = some e ∨ j = k ∧ e = v := by
  unfold insertNew at found
  split at found
  · exact .inl found
  · rw [lookup_insert_ite] at found
    split_ifs at found with same
    · exact .inr ⟨same, (Option.some.inj found).symm⟩
    · exact .inl found

@[simp] theorem isSome_lookup_insertNew (m : KeyedMap K V) (k j : K) (v : V) :
    ((insertNew k v m).lookup j).isSome = (decide (j = k) || (m.lookup j).isSome) := by
  rw [lookup_insertNew]
  by_cases same : j = k <;> simp [same]

@[simp] theorem isSome_lookup_insert (m : KeyedMap K V) (k j : K) (v : V) :
    ((m.insert k v).lookup j).isSome = (decide (j = k) || (m.lookup j).isSome) := by
  rw [lookup_insert_ite]
  by_cases same : j = k <;> simp [same]

@[simp] theorem isSome_lookup_erase (m : KeyedMap K V) (k j : K) :
    ((m.erase k).lookup j).isSome = (!decide (j = k) && (m.lookup j).isSome) := by
  rw [lookup_erase_ite]
  by_cases same : j = k <;> simp [same]

def putAll (items m : KeyedMap K V) : KeyedMap K V :=
  items.entries.foldl (fun acc e => acc.insert e.1 e.2) m

def insertNewAll (items m : KeyedMap K V) : KeyedMap K V :=
  items.entries.foldl (fun acc e => insertNew e.1 e.2 acc) m

def eraseAll {W : Type} (items : KeyedMap K W) (m : KeyedMap K V) : KeyedMap K V :=
  items.entries.foldl (fun acc e => acc.erase e.1) m

/-- A loop whose steps are seen from one key only at the entry of that key: that entry
decides what is seen after it. -/
theorem foldl_entries_observe {σ β W : Type} (step : σ → K → W → σ) (observe : σ → β)
    (effect : β → W → β) (j : K)
    (spec : ∀ s k w, observe (step s k w) = if j = k then effect (observe s) w else observe s)
    (items : KeyedMap K W) (s : σ) :
    observe (items.entries.foldl (fun acc e => step acc e.1 e.2) s) =
      match items.lookup j with
      | some w => effect (observe s) w
      | none => observe s := by
  suffices general : ∀ (entries : List (Sigma fun _ : K => W)) (s : σ), entries.NodupKeys →
      observe (entries.foldl (fun acc e => step acc e.1 e.2) s) =
        match entries.dlookup j with
        | some w => effect (observe s) w
        | none => observe s from general items.entries s items.nodupKeys
  intro entries
  induction entries with
  | nil => intro s _; rfl
  | cons e rest ih =>
    intro s nodup
    obtain ⟨k, w⟩ := e
    obtain ⟨fresh, restNodup⟩ := nodupKeys_cons.mp nodup
    rw [foldl_cons, ih _ restNodup, spec]
    by_cases same : j = k
    · subst same
      have absent : rest.dlookup j = none := dlookup_eq_none.mpr fresh
      simp [absent]
    · rw [dlookup_cons_ne rest ⟨k, w⟩ same]
      simp [same]

/-- A loop that only changes the key of each entry, seen from one key: the entry
of that key decides. -/
theorem lookup_foldl_entries {W : Type} (step : KeyedMap K V → K → W → KeyedMap K V)
    (effect : Option V → W → Option V)
    (spec : ∀ m k w j, (step m k w).lookup j =
      if j = k then effect (m.lookup k) w else m.lookup j)
    (items : KeyedMap K W) (m : KeyedMap K V) (j : K) :
    (items.entries.foldl (fun acc e => step acc e.1 e.2) m).lookup j =
      match items.lookup j with
      | some w => effect (m.lookup j) w
      | none => m.lookup j := by
  refine foldl_entries_observe step (AList.lookup j) effect j (fun m k w => ?_) items m
  rw [spec]
  by_cases same : j = k
  · rw [if_pos same, if_pos same, same]
  · rw [if_neg same, if_neg same]

theorem lookup_putAll (items m : KeyedMap K V) (j : K) :
    (putAll items m).lookup j = (items.lookup j).or (m.lookup j) := by
  rw [putAll, lookup_foldl_entries (fun acc k v => acc.insert k v) (fun _ v => some v)
    fun m k v j => lookup_insert_ite m k j v]
  cases items.lookup j <;> rfl

theorem lookup_insertNewAll (items m : KeyedMap K V) (j : K) :
    (insertNewAll items m).lookup j = (m.lookup j).or (items.lookup j) := by
  rw [insertNewAll, lookup_foldl_entries (fun acc k v => insertNew k v acc)
    (fun old v => some (old.getD v)) fun m k v j => lookup_insertNew m k j v]
  cases items.lookup j <;> cases m.lookup j <;> rfl

theorem lookup_eraseAll {W : Type} (items : KeyedMap K W) (m : KeyedMap K V) (j : K) :
    (eraseAll items m).lookup j = if (items.lookup j).isSome then none else m.lookup j := by
  rw [eraseAll, lookup_foldl_entries (fun acc k _ => acc.erase k) (fun _ _ => none)
    fun m k _ j => lookup_erase_ite m k j]
  cases items.lookup j <;> rfl

theorem lookup_foldl_insert_keys (keys : List K) (v : V) (m : KeyedMap K V) (j : K) :
    (keys.foldl (fun acc k => acc.insert k v) m).lookup j =
      if j ∈ keys then some v else m.lookup j := by
  induction keys generalizing m with
  | nil => simp
  | cons k rest ih =>
    rw [foldl_cons, ih, lookup_insert_ite]
    by_cases later : j ∈ rest <;> by_cases same : j = k <;> simp [later, same]

theorem lookup_foldl_insert_values (values : List V) (k : K) (m : KeyedMap K V) (j : K) :
    (values.foldl (fun acc v => acc.insert k v) m).lookup j =
      if j = k then values.getLast?.or (m.lookup k) else m.lookup j := by
  induction values generalizing m with
  | nil =>
    by_cases same : j = k
    · subst same
      simp
    · simp [same]
  | cons v rest ih =>
    rw [foldl_cons, ih, lookup_insert_ite, lookup_insert_ite, if_pos rfl,
      getLast?_cons]
    by_cases same : j = k
    · rw [if_pos same, if_pos same]
      cases rest.getLast? <;> rfl
    · simp [same]

/-- The map holds exactly the given pairs. -/
def Holds (m : KeyedMap K V) (R : K → V → Prop) : Prop := ∀ k v, m.lookup k = some v ↔ R k v

variable {R : K → V → Prop}

theorem Holds.congr {S : K → V → Prop} (holds : Holds m R)
    (same : ∀ k v, R k v ↔ S k v) : Holds m S :=
  fun k v => (holds k v).trans (same k v)

section

variable (holds : Holds m R)

include holds

/-- A value leaves with the one key that has it. -/
theorem Holds.erase_value {k : K} {v : V}
    (only : ∀ j, R j v ↔ j = k) : Holds (m.erase k) fun j w => R j w ∧ w ≠ v := by
  intro j w
  have atKey := (holds k v).mpr ((only k).mpr rfl)
  rw [lookup_erase_ite]
  by_cases same : j = k
  · subst same
    rw [if_pos rfl]
    constructor
    · intro absent
      cases absent
    · rintro ⟨related, other⟩
      have atValue := (holds j w).mpr related
      rw [atKey] at atValue
      exact absurd (Option.some.inj atValue).symm other
  · rw [if_neg same, holds]
    constructor
    · intro related
      exact ⟨related, fun isValue => same ((only j).mp (isValue ▸ related))⟩
    · exact And.left

/-- Nothing changes for a value that no key has. -/
theorem Holds.without_value {v : V}
    (keyless : ∀ j, ¬ R j v) : Holds m fun j w => R j w ∧ w ≠ v :=
  holds.congr fun j _ => ⟨fun related => ⟨related, fun same => keyless j (same ▸ related)⟩, And.left⟩

theorem Holds.erase_key (k : K) :
    Holds (m.erase k) fun j w => R j w ∧ j ≠ k := by
  intro j w
  rw [lookup_erase_ite]
  by_cases same : j = k
  · simp [same]
  · rw [if_neg same, holds]
    exact ⟨fun related => ⟨related, same⟩, And.left⟩

/-- Inserted either way, a pair joins what the map holds when its key has no other value. -/
theorem Holds.join {n : KeyedMap K V} {k : K} {v : V}
    (made : n = m.insert k v ∨ n = insertNew k v m) (only : ∀ w, R k w → w = v) :
    Holds n fun j w => R j w ∨ j = k ∧ w = v := by
  have found : ∀ j, n.lookup j = if j = k then some v else m.lookup j := by
    intro j
    rcases made with rfl | rfl
    · rw [lookup_insert_ite]
    · rw [lookup_insertNew]
      cases old : m.lookup k with
      | none => rfl
      | some w => rw [only w ((holds k w).mp old), getD_some]
  intro j w
  rw [found]
  by_cases same : j = k
  · subst same
    rw [if_pos rfl, Option.some.injEq]
    exact ⟨fun isValue => .inr ⟨rfl, isValue.symm⟩, fun either =>
      (either.elim (only w) And.right).symm⟩
  · rw [if_neg same, holds j w]
    exact ⟨.inl, fun either => either.resolve_right fun new => same new.1⟩

theorem Holds.join_keys {keys : List K} {v : V}
    {step : KeyedMap K V → K → KeyedMap K V}
    (made : ∀ m k, step m k = m.insert k v ∨ step m k = insertNew k v m)
    (only : ∀ j w, j ∈ keys → R j w → w = v) :
    Holds (keys.foldl step m) fun j w => R j w ∨ j ∈ keys ∧ w = v := by
  induction keys generalizing m R with
  | nil => exact holds.congr fun j w => by simp
  | cons k rest ih =>
    refine (ih (holds.join (made m k) fun w => only k w mem_cons_self) ?_).congr fun j w => ?_
    · rintro j w later (old | ⟨_, rfl⟩)
      · exact only j w (mem_cons_of_mem k later) old
      · rfl
    · simp only [mem_cons]
      tauto

theorem Holds.insert_values {k : K} {values : List V} (free : ∀ v, ¬ R k v) :
    Holds (values.foldl (fun acc v => acc.insert k v) m)
      fun j w => R j w ∨ w ∈ values.getLast?.toList ∧ j = k := by
  intro j w
  rw [lookup_foldl_insert_values]
  by_cases same : j = k
  · have absent : m.lookup k = none :=
      eq_none_iff_forall_not_mem.mpr fun old found => free old ((holds k old).mp found)
    simp only [if_pos same, absent, or_none, mem_toList]
    exact ⟨fun found => .inr ⟨found, same⟩, fun either =>
      (either.resolve_left (same ▸ free w)).1⟩
  · rw [if_neg same, holds j w]
    exact ⟨.inl, fun either => either.resolve_right fun new => same new.2⟩

theorem Holds.insertNew_values {k : K} {values : List V}
    (equal : ∀ a ∈ values, ∀ b, R k b ∨ b ∈ values → a = b) :
    Holds (values.foldl (fun acc v => insertNew k v acc) m)
      fun j w => R j w ∨ w ∈ values ∧ j = k := by
  induction values generalizing m R with
  | nil => exact holds.congr fun j w => by simp
  | cons v rest ih =>
    have joined := @Holds.join _ _ _ _ _ holds _ k v (.inr rfl) fun w old =>
      (equal v mem_cons_self w (.inl old)).symm
    refine (ih joined fun a later b either => equal a (mem_cons_of_mem v later) b ?_).congr
      fun j w => ?_
    · rcases either with (old | ⟨_, rfl⟩) | new
      · exact .inl old
      · exact .inr mem_cons_self
      · exact .inr (mem_cons_of_mem v new)
    · simp only [mem_cons]
      tauto

end

variable (add : V → V → V)

/-- `m[k] += v`, where a missing key starts at `v`. -/
def accumulate (m : KeyedMap K V) (k : K) (v : V) : KeyedMap K V :=
  match m.lookup k with
  | some old => m.insert k (add old v)
  | none => m.insert k v

/-- One accumulation step seen from a single key. -/
def accumulateValue (current : Option V) (v : V) : Option V :=
  match current with
  | some old => some (add old v)
  | none => some v

theorem lookup_accumulate (m : KeyedMap K V) (k j : K) (v : V) :
    (accumulate add m k v).lookup j =
      if j = k then accumulateValue add (m.lookup k) v else m.lookup j := by
  unfold accumulate accumulateValue
  cases found : m.lookup k with
  | none => simp only [lookup_insert_ite]
  | some old => simp only [lookup_insert_ite]

/-- Seen from one key, a loop of accumulations only adds the entries of that key. -/
theorem lookup_foldl_accumulate (entries : List (K × V))
    (m : KeyedMap K V) (j : K) :
    (entries.foldl (fun acc e => accumulate add acc e.1 e.2) m).lookup j =
      ((entries.filter fun e => e.1 = j).map Prod.snd).foldl
        (accumulateValue add) (m.lookup j) := by
  induction entries generalizing m with
  | nil => rfl
  | cons e rest ih =>
    rw [foldl_cons, ih, lookup_accumulate]
    by_cases same : j = e.1
    · subst same
      simp
    · simp [same, Ne.symm same]

/-- Two containers of equal size, the keys of one among those of the other, have
the same keys. -/
theorem keys_iff_of_subset {V₁ V₂ : Type} (m : KeyedMap K V₁) (n : KeyedMap K V₂)
    (subset : ∀ k, (m.lookup k).isSome → (n.lookup k).isSome)
    (size : m.entries.length = n.entries.length) (k : K) :
    (m.lookup k).isSome ↔ (n.lookup k).isSome := by
  refine ⟨subset k, fun present => ?_⟩
  have keysSubset : m.keys ⊆ n.keys := by
    intro j member
    exact AList.mem_keys.mp (AList.lookup_isSome.mp
      (subset j (AList.lookup_isSome.mpr (AList.mem_keys.mpr member))))
  have perm : m.keys.Perm n.keys := by
    apply (subperm_of_subset m.keys_nodup keysSubset).perm_of_length_le
    simp [AList.keys, keys, size]
  exact AList.lookup_isSome.mpr (AList.mem_keys.mpr
    (perm.mem_iff.mpr (AList.mem_keys.mp (AList.lookup_isSome.mp present))))

end KeyedMap
