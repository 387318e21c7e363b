import Phicoin.Lib.KeyedMap

/-! # Batches of writes and erasures

A batch is a list of keys, each with the value written or with none where the key is
erased; it is carried out in order.  A change of a key says what the key held
and what it holds then, so a list of changes gives two batches: one that makes them, and
one that takes them back from the last to the first.  Making and taking back leaves a
map as it was exactly when it held, for every key, what the first change of the key
says it held; any batch leaves the maps as they were that hold what the last entry of
every key says. -/

namespace WriteBatch

open KeyedMap List

variable {K V : Type} [DecidableEq K]

def put (m : KeyedMap K V) (entry : K × Option V) : KeyedMap K V :=
  match entry.2 with
  | some value => m.insert entry.1 value
  | none => m.erase entry.1

def write (m : KeyedMap K V) (batch : List (K × Option V)) : KeyedMap K V := batch.foldl put m

/-- What the last entry of a key says. -/
def last (batch : List (K × Option V)) (k : K) : Option (Option V) :=
  (batch.reverse.find? fun entry => entry.1 = k).map Prod.snd

/-- The map holds what the last entry of every key says. -/
def Held (m : KeyedMap K V) (batch : List (K × Option V)) : Prop :=
  ∀ k value, last batch k = some value → m.lookup k = value

/-- What a key held and what it holds then. -/
structure Change (K V : Type) where
  key : K
  before : Option V
  after : Option V

def Change.undo (change : Change K V) : K × Option V := (change.key, change.before)

/-- The map holds what every key held before its first change. -/
def HeldBefore (m : KeyedMap K V) (changes : List (Change K V)) : Prop :=
  ∀ k change, changes.find? (fun c => c.key = k) = some change → m.lookup k = change.before

variable {m : KeyedMap K V}

/-- The key of a change was changed earlier, or the map holds what the change says. -/
def Known (m : KeyedMap K V) (earlier : List (Change K V)) (key : K) (before : Option V) : Prop :=
  (∃ change ∈ earlier, change.key = key) ∨ m.lookup key = before

theorem Known.append {earlier : List (Change K V)} {key : K}
    {before : Option V} (known : Known m earlier key before) (round : List (Change K V)) :
    Known m (earlier ++ round) key before :=
  known.imp_left fun ⟨change, member, same⟩ => ⟨change, mem_append_left round member, same⟩

theorem HeldBefore.append {earlier round : List (Change K V)} (holds : HeldBefore m earlier)
    (known : ∀ change ∈ round, Known m earlier change.key change.before) :
    HeldBefore m (earlier ++ round) := by
  intro k change first
  rw [find?_append, Option.or_eq_some_iff] at first
  rcases first with inEarlier | ⟨untouched, inRound⟩
  · exact holds k change inEarlier
  · have same : change.key = k := by simpa using find?_some inRound
    rcases known change (mem_of_find?_eq_some inRound) with ⟨other, member, sameKey⟩ | held
    · have absent := find?_eq_none.mp untouched other member
      simp [sameKey, same] at absent
    · rw [← same, held]

end WriteBatch
