import Phicoin.Lib.KeyedMap

/-! # An index and its reverse

A set of owners is kept for every key, and the set of its keys for every owner,
so that the entries of an owner can be found when it leaves.  Three ways of
releasing an owner differ in what they leave behind: an empty set under a key,
or the keys of the owner. -/

structure SetIndex (K H : Type) [DecidableEq K] [DecidableEq H] where
  forward : KeyedMap K (List H)
  backward : KeyedMap H (List K)

namespace SetIndex

variable {K H : Type} [DecidableEq K] [DecidableEq H]

def empty : SetIndex K H := ⟨∅, ∅⟩

/-- The set under a key, empty when there is none. -/
def get {A B : Type} [DecidableEq A] (m : KeyedMap A (List B)) (a : A) : List B :=
  (m.lookup a).getD []

/-- `m[a].insert(b)` -/
def put {A B : Type} [DecidableEq A] [DecidableEq B] (m : KeyedMap A (List B)) (a : A) (b : B) :
    KeyedMap A (List B) :=
  m.insert a ((get m a).insert b)

def record (index : SetIndex K H) (k : K) (h : H) : SetIndex K H :=
  ⟨put index.forward k h, put index.backward h k⟩

/-- All keys of an owner. -/
def recordAll (index : SetIndex K H) (keys : List K) (h : H) : SetIndex K H :=
  keys.foldl (fun index k => index.record k h) index

theorem recordAll_append (index : SetIndex K H) (first second : List K) (h : H) :
    index.recordAll (first ++ second) h = (index.recordAll first h).recordAll second h :=
  List.foldl_append

/-- One owner taken out of the set of a key that has one. -/
def drop (h : H) (m : KeyedMap K (List H)) (k : K) : KeyedMap K (List H) :=
  match m.lookup k with
  | some owners => m.insert k (owners.filter (· ≠ h))
  | none => m

/-- The same, and a set that becomes empty goes with its key. -/
def dropPruning (h : H) (m : KeyedMap K (List H)) (k : K) : KeyedMap K (List H) :=
  match m.lookup k with
  | some owners =>
    let rest := owners.filter (· ≠ h)
    if rest = [] then m.erase k else m.insert k rest
  | none => m

/-- An owner leaves; its keys may keep an empty set. -/
def release (index : SetIndex K H) (h : H) : SetIndex K H :=
  ⟨(get index.backward h).foldl (drop h) index.forward, index.backward.erase h⟩

/-- An owner leaves with the keys that were its own. -/
def releasePruning (index : SetIndex K H) (h : H) : SetIndex K H :=
  ⟨(get index.backward h).foldl (dropPruning h) index.forward, index.backward.erase h⟩

/-- An owner leaves the sets; what is recorded of it stays. -/
def releaseForward (index : SetIndex K H) (h : H) : SetIndex K H :=
  ⟨(get index.backward h).foldl (dropPruning h) index.forward, index.backward⟩

section

variable {A B : Type} [DecidableEq A]

@[simp] theorem get_empty (a : A) : get (∅ : KeyedMap A (List B)) a = [] := rfl

theorem get_insert (m : KeyedMap A (List B)) (a j : A) (bs : List B) :
    get (m.insert a bs) j = if j = a then bs else get m j := by
  unfold get
  rw [KeyedMap.lookup_insert_ite]
  split <;> rfl

theorem get_erase (m : KeyedMap A (List B)) (a j : A) :
    get (m.erase a) j = if j = a then [] else get m j := by
  unfold get
  rw [KeyedMap.lookup_erase_ite]
  split <;> rfl

theorem get_eq_nil {m : KeyedMap A (List B)} {a : A} (absent : m.lookup a = none) :
    get m a = [] := by
  rw [get, absent]
  rfl

theorem mem_put [DecidableEq B] {m : KeyedMap A (List B)} {a j : A} {b c : B} :
    c ∈ get (put m a b) j ↔ c ∈ get m j ∨ j = a ∧ c = b := by
  rw [put, get_insert]
  by_cases same : j = a
  · subst same
    rw [if_pos rfl, List.mem_insert_iff]
    constructor
    · rintro (rfl | old)
      · exact .inr ⟨rfl, rfl⟩
      · exact .inl old
    · rintro (old | ⟨_, rfl⟩)
      · exact .inr old
      · exact .inl rfl
  · rw [if_neg same]
    simp [same]

end

theorem mem_drop {m : KeyedMap K (List H)} {k j : K} {h o : H} :
    o ∈ get (drop h m k) j ↔ o ∈ get m j ∧ ¬ (j = k ∧ o = h) := by
  unfold drop
  cases found : m.lookup k with
  | none =>
    by_cases same : j = k
    · subst same
      simp [get_eq_nil found]
    · simp [same]
  | some owners =>
    dsimp only
    rw [get_insert]
    by_cases same : j = k
    · subst same
      have owned : get m j = owners := by rw [get, found]; rfl
      simp [owned]
    · simp [same]

theorem mem_dropPruning {m : KeyedMap K (List H)} {k j : K} {h o : H} :
    o ∈ get (dropPruning h m k) j ↔ o ∈ get m j ∧ ¬ (j = k ∧ o = h) := by
  rw [← mem_drop]
  unfold dropPruning drop
  cases found : m.lookup k with
  | none => rfl
  | some owners =>
    dsimp only
    split_ifs with nothing
    · rw [get_erase, get_insert, nothing]
    · rfl

/-- A loop of releases, seen from one key. -/
theorem mem_foldl_drop {step : KeyedMap K (List H) → K → KeyedMap K (List H)} {h o : H} {j : K}
    (spec : ∀ m k, o ∈ get (step m k) j ↔ o ∈ get m j ∧ ¬ (j = k ∧ o = h)) (keys : List K)
    (m : KeyedMap K (List H)) :
    o ∈ get (keys.foldl step m) j ↔ o ∈ get m j ∧ ¬ (j ∈ keys ∧ o = h) := by
  induction keys generalizing m with
  | nil => simp
  | cons k rest ih =>
    rw [List.foldl_cons, ih, spec, List.mem_cons]
    tauto

/-- Releasing an owner adds no key. -/
theorem isSome_of_foldl_dropPruning {h : H} {j : K} (keys : List K) (m : KeyedMap K (List H))
    (present : ((keys.foldl (dropPruning h) m).lookup j).isSome = true) :
    (m.lookup j).isSome = true := by
  induction keys generalizing m with
  | nil => exact present
  | cons k rest ih =>
    have kept := ih _ present
    unfold dropPruning at kept
    cases found : m.lookup k with
    | none =>
      rw [found] at kept
      exact kept
    | some owners =>
      rw [found] at kept
      dsimp only at kept
      by_cases same : j = k
      · rw [same, found]
        rfl
      · split_ifs at kept <;> simpa [same] using kept

/-- Both maps hold exactly the given relation. -/
structure Mirrors (index : SetIndex K H) (R : K → H → Prop) : Prop where
  forward : ∀ k h, h ∈ get index.forward k ↔ R k h
  backward : ∀ k h, k ∈ get index.backward h ↔ R k h

variable {index : SetIndex K H} {R S : K → H → Prop}

theorem Mirrors.empty : Mirrors (empty : SetIndex K H) fun _ _ => False :=
  ⟨fun k h => by simp [SetIndex.empty], fun k h => by simp [SetIndex.empty]⟩

variable (mirrors : Mirrors index R)

include mirrors

theorem Mirrors.congr (same : ∀ k h, R k h ↔ S k h) : Mirrors index S :=
  ⟨fun k h => (mirrors.forward k h).trans (same k h),
    fun k h => (mirrors.backward k h).trans (same k h)⟩

theorem Mirrors.record (k : K) (h : H) :
    Mirrors (index.record k h) fun j o => R j o ∨ j = k ∧ o = h := by
  constructor
  · intro j o
    rw [SetIndex.record, mem_put, mirrors.forward]
  · intro j o
    rw [SetIndex.record, mem_put, mirrors.backward, and_comm]

theorem Mirrors.recordAll (keys : List K) (h : H) :
    Mirrors (index.recordAll keys h) fun j o => R j o ∨ j ∈ keys ∧ o = h := by
  induction keys generalizing index R with
  | nil => exact mirrors.congr fun j o => by simp
  | cons k rest ih =>
    refine (ih (mirrors.record k h)).congr fun j o => ?_
    rw [List.mem_cons, or_assoc, or_and_right]

theorem Mirrors.release (h : H) :
    Mirrors (index.release h) fun j o => R j o ∧ o ≠ h := by
  constructor
  · intro j o
    rw [SetIndex.release, mem_foldl_drop fun m k => mem_drop, mirrors.forward, mirrors.backward]
    constructor
    · rintro ⟨related, other⟩
      exact ⟨related, fun same => other ⟨same ▸ related, same⟩⟩
    · rintro ⟨related, other⟩
      exact ⟨related, fun same => other same.2⟩
  · intro j o
    rw [SetIndex.release, get_erase]
    by_cases same : o = h
    · simp [same]
    · simp [same, mirrors.backward]

/-- To the relation it makes no difference whether empty sets stay. -/
theorem Mirrors.releasePruning (h : H) :
    Mirrors (index.releasePruning h) fun j o => R j o ∧ o ≠ h := by
  have released := mirrors.release h
  constructor
  · intro j o
    rw [← released.forward, SetIndex.release, SetIndex.releasePruning,
      mem_foldl_drop fun m k => mem_drop, mem_foldl_drop fun m k => mem_dropPruning]
  · exact released.backward

/-- An owner without keys leaves nothing behind. -/
theorem Mirrors.releaseForward {h : H} (keyless : ∀ k, ¬ R k h) :
    Mirrors (index.releaseForward h) fun j o => R j o ∧ o ≠ h := by
  have nothing : get index.backward h = [] := by
    apply List.eq_nil_iff_forall_not_mem.mpr
    intro k member
    exact keyless k ((mirrors.backward k h).mp member)
  have unchanged : index.releaseForward h = index := by
    rw [SetIndex.releaseForward, nothing]
    rfl
  rw [unchanged]
  apply mirrors.congr
  intro k o
  constructor
  · intro related
    exact ⟨related, fun same => keyless k (same ▸ related)⟩
  · exact And.left

end SetIndex
