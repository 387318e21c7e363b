import Mathlib.Data.List.Forall2
import Phicoin.Lib.ByteReader
import Phicoin.Lib.Validation

/-! # Encoded records

A record is encoded field after field, and a list of records record after record.
Fields of the same width can be compared one by one: two encodings are equal when
each field is. -/

namespace Check

open List

/-- A fallible traversal gives one result for each element. -/
theorem mapM_eq_ok {α β : Type} {f : α → Check β} {xs : List α} {ys : List β} :
    xs.mapM f = .ok ys ↔ List.Forall₂ (fun x y => f x = .ok y) xs ys := by
  induction xs generalizing ys with
  | nil =>
    rw [mapM_nil, pure_eq_ok, forall₂_nil_left_iff, eq_comm]
  | cons x rest ih =>
    rw [mapM_cons, bind_eq_ok, forall₂_cons_left_iff]
    constructor
    · rintro ⟨y, first, mapped⟩
      obtain ⟨tail, others, returned⟩ := bind_eq_ok.mp mapped
      exact ⟨y, tail, first, ih.mp others, (pure_eq_ok.mp returned).symm⟩
    · rintro ⟨y, tail, first, others, rfl⟩
      exact ⟨y, first, bind_eq_ok.mpr ⟨tail, ih.mpr others, pure_eq_ok.mpr rfl⟩⟩

end Check

theorem exists_of_mem_right {α β : Type} {R : α → β → Prop} {xs : List α} {ys : List β}
    (related : List.Forall₂ R xs ys) {y : β} (member : y ∈ ys) : ∃ x ∈ xs, R x y := by
  obtain ⟨index, bound, rfl⟩ := List.mem_iff_getElem.mp member
  have same := related.length_eq
  exact ⟨xs.get ⟨index, by omega⟩, List.get_mem _ _,
    (List.forall₂_iff_get.mp related).2 index (by omega) bound⟩

namespace ByteReader

open List

theorem leValue_leBytes_mod (n value : Nat) : leValue (leBytes n value) = value % 256 ^ n := by
  induction n generalizing value with
  | zero => rw [pow_zero, Nat.mod_one, leBytes, leValue]
  | succ n ih =>
    rw [leBytes, leValue, ih, pow_succ', Nat.mod_mul]
    simp

/-- A field keeps the low bytes of a value, and those only. -/
theorem leBytes_eq_iff {n a b : Nat} : leBytes n a = leBytes n b ↔ a % 256 ^ n = b % 256 ^ n := by
  constructor
  · intro same
    rw [← leValue_leBytes_mod, same, leValue_leBytes_mod]
  · intro same
    have left := leBytes_leValue (leBytes n a)
    have right := leBytes_leValue (leBytes n b)
    rw [length_leBytes, leValue_leBytes_mod] at left right
    rw [← left, same, right]

theorem length_signedBytes (n : Nat) (value : Int) : (signedBytes n value).length = n :=
  length_leBytes n _

/-- Lists of records of the same widths are equal record by record. -/
theorem flatMap_eq_flatMap_iff {α β : Type} {f g : α → List β} {xs : List α}
    (lengths : ∀ x ∈ xs, (f x).length = (g x).length) :
    xs.flatMap f = xs.flatMap g ↔ ∀ x ∈ xs, f x = g x := by
  induction xs with
  | nil => simp
  | cons x rest ih =>
    rw [flatMap_cons, flatMap_cons, forall_mem_cons]
    constructor
    · intro same
      obtain ⟨first, others⟩ := append_inj same (lengths x mem_cons_self)
      exact ⟨first, (ih fun y member => lengths y (mem_cons_of_mem x member)).mp others⟩
    · rintro ⟨first, others⟩
      rw [first, (ih fun y member => lengths y (mem_cons_of_mem x member)).mpr others]

section

variable {α : Type} {element : Reader α} {write : α → List UInt8}

/-- A number of elements, one after the other. -/
def readMany (element : Reader α) : Nat → Reader (List α)
  | 0 => pure []
  | n + 1 => do
      let x ← element
      let xs ← readMany element n
      return x :: xs

/-- The elements of a list after their count. -/
def readList (maxSize : Nat) (element : Reader α) : Reader (List α) := do
  readMany element (← readCompactSize maxSize)

def writeList (write : α → List UInt8) (xs : List α) : List UInt8 :=
  writeCompactSize xs.length ++ xs.flatMap write

theorem readMany_flatMap {xs : List α}
    (back : ∀ x ∈ xs, ∀ rest, element (write x ++ rest) = some (x, rest)) (rest : List UInt8) :
    readMany element xs.length (xs.flatMap write ++ rest) = some (xs, rest) := by
  induction xs with
  | nil => rfl
  | cons x tail ih =>
    rw [flatMap_cons, append_assoc]
    exact run_bind.mpr ⟨x, tail.flatMap write ++ rest, back x mem_cons_self _,
      run_bind.mpr ⟨tail, rest, ih fun y member => back y (mem_cons_of_mem x member),
        run_pure.mpr ⟨rfl, rfl⟩⟩⟩

theorem readList_writeList {maxSize : Nat} {xs : List α} (allowed : xs.length ≤ maxSize)
    (word : xs.length < 2 ^ 64)
    (back : ∀ x ∈ xs, ∀ rest, element (write x ++ rest) = some (x, rest)) (rest : List UInt8) :
    readList maxSize element (writeList write xs ++ rest) = some (xs, rest) := by
  rw [writeList, append_assoc]
  exact run_bind.mpr ⟨xs.length, xs.flatMap write ++ rest, readCompactSize_write allowed word,
    readMany_flatMap back rest⟩

/-- What was read is what is written, when that is so of each element; what holds of
each element that is read holds of all. -/
theorem readMany_eq_some {good : α → Prop}
    (forth : ∀ {stream x rest}, element stream = some (x, rest) → stream = write x ++ rest ∧ good x)
    {n : Nat} {stream rest : List UInt8} {xs : List α}
    (read : readMany element n stream = some (xs, rest)) :
    xs.length = n ∧ stream = xs.flatMap write ++ rest ∧ ∀ x ∈ xs, good x := by
  induction n generalizing stream xs with
  | zero =>
    obtain ⟨rfl, rfl⟩ := run_pure.mp read
    simp
  | succ n ih =>
    obtain ⟨x, middle, first, read⟩ := run_bind.mp read
    obtain ⟨tail, final, others, read⟩ := run_bind.mp read
    obtain ⟨rfl, rfl⟩ := run_pure.mp read
    obtain ⟨rfl, goodX⟩ := forth first
    obtain ⟨count, rfl, goods⟩ := ih others
    refine ⟨by rw [length_cons, count], ?_, forall_mem_cons.mpr ⟨goodX, goods⟩⟩
    rw [flatMap_cons, append_assoc]

theorem readList_eq_some {good : α → Prop} {maxSize : Nat}
    (forth : ∀ {stream x rest}, element stream = some (x, rest) → stream = write x ++ rest ∧ good x)
    {stream rest : List UInt8} {xs : List α}
    (read : readList maxSize element stream = some (xs, rest)) :
    xs.length ≤ maxSize ∧ stream = writeList write xs ++ rest ∧ ∀ x ∈ xs, good x := by
  obtain ⟨size, middle, head, tail⟩ := run_bind.mp read
  obtain ⟨le, rfl⟩ := readCompactSize_eq_some head
  obtain ⟨rfl, rfl, goods⟩ := readMany_eq_some forth tail
  exact ⟨le, by rw [writeList, append_assoc], goods⟩

end

theorem readSigned_eq_some {n : Nat} {stream rest : List UInt8} {value : Int}
    (read : readSigned n stream = some (value, rest)) : stream = signedBytes n value ++ rest := by
  obtain ⟨word, middle, head, tail⟩ := run_bind.mp read
  obtain ⟨rfl, rfl⟩ := run_pure.mp tail
  have bound : (word : Int) < 2 ^ (8 * n) := by
    have := readUnsigned_lt head
    rw [pow_mul]
    exact_mod_cast this
  have cast : ((2 ^ (8 * n) : Nat) : Int) = 2 ^ (8 * n) := by push_cast; rfl
  have exact_ : (TwosComplement.wrap (8 * n) word % 2 ^ (8 * n)).toNat = word := by
    unfold TwosComplement.wrap
    rw [← cast, Int.bmod_emod, cast, Int.emod_eq_of_lt (Int.natCast_nonneg word) bound,
      Int.toNat_natCast]
  rw [readUnsigned_eq_some head, signedBytes, exact_]

end ByteReader
