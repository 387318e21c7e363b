import Phicoin.Lib.TwosComplement

/-! # Reading a byte stream

A reader consumes bytes from the front of a stream and fails when too few are
left.  Integers are little-endian; a length is written in the variable-width
compact form whose non-canonical encodings are refused. -/

namespace ByteReader

open TwosComplement List

abbrev Reader (α : Type) := StateT (List UInt8) Option α

/-- The next `n` bytes. -/
def readBytes (n : Nat) : Reader (List UInt8) := fun stream =>
  if stream.length < n then none else some (stream.take n, stream.drop n)

/-- The number of bytes left. -/
def remaining : Reader Nat := fun stream => some (stream.length, stream)

/-- The value of little-endian bytes. -/
def leValue : List UInt8 → Nat
  | [] => 0
  | b :: rest => b.toNat + 256 * leValue rest

/-- An unsigned integer of `n` bytes. -/
def readUnsigned (n : Nat) : Reader Nat := do
  return leValue (← readBytes n)

/-- A two's-complement integer of `n` bytes. -/
def readSigned (n : Nat) : Reader Int := do
  return wrap (8 * n) (← readUnsigned n)

/-- The compact form of a length: one byte, or a marker and 2, 4 or 8 bytes. -/
def readCompactSize (maxSize : Nat) : Reader Nat := do
  let first ← readUnsigned 1
  let size ←
    if first < 253 then pure first
    else if first = 253 then
      let size ← readUnsigned 2
      if size < 253 then failure else pure size
    else if first = 254 then
      let size ← readUnsigned 4
      if size < 0x10000 then failure else pure size
    else
      let size ← readUnsigned 8
      if size < 0x100000000 then failure else pure size
  if size > maxSize then failure else pure size

/-- A length-prefixed string. -/
def readString (maxSize : Nat) : Reader (List UInt8) := do
  readBytes (← readCompactSize maxSize)

/-- The `n` little-endian bytes of an unsigned value. -/
def leBytes : Nat → Nat → List UInt8
  | 0, _ => []
  | n + 1, value => UInt8.ofNat (value % 256) :: leBytes n (value / 256)

/-- The `n` bytes of a two's-complement value. -/
def signedBytes (n : Nat) (value : Int) : List UInt8 :=
  leBytes n (value % 2 ^ (8 * n)).toNat

def writeCompactSize (size : Nat) : List UInt8 :=
  if size < 253 then leBytes 1 size
  else if size ≤ 0xffff then leBytes 1 253 ++ leBytes 2 size
  else if size ≤ 0xffffffff then leBytes 1 254 ++ leBytes 4 size
  else leBytes 1 255 ++ leBytes 8 size

def writeString (text : List UInt8) : List UInt8 :=
  writeCompactSize text.length ++ text

variable {stream rest : List UInt8}

theorem run_bind {α β : Type} {first : Reader α} {next : α → Reader β} {result : β} :
    (first >>= next) stream = some (result, rest) ↔
      ∃ a middle, first stream = some (a, middle) ∧ next a middle = some (result, rest) := by
  change (first stream).bind (fun p => next p.1 p.2) = some (result, rest) ↔ _
  rw [Option.bind_eq_some_iff]
  constructor
  · rintro ⟨⟨a, middle⟩, head, tail⟩
    exact ⟨a, middle, head, tail⟩
  · rintro ⟨a, middle, head, tail⟩
    exact ⟨(a, middle), head, tail⟩

theorem run_pure {α : Type} {value result : α} :
    (pure value : Reader α) stream = some (result, rest) ↔ result = value ∧ rest = stream := by
  change some (value, stream) = some (result, rest) ↔ _
  rw [Option.some_inj, Prod.mk.injEq]
  exact and_congr eq_comm eq_comm

/-- The reader succeeds, with a result that has the property. -/
def Reads {α : Type} (reader : Reader α) (stream : List UInt8) (post : α → Prop) : Prop :=
  ∃ a rest, reader stream = some (a, rest) ∧ post a

theorem reads_bind {α β : Type} {first : Reader α} {next : α → Reader β} {post : β → Prop} :
    Reads (first >>= next) stream post ↔
      ∃ a middle, first stream = some (a, middle) ∧ Reads (next a) middle post := by
  constructor
  · rintro ⟨b, rest, read, holds⟩
    obtain ⟨a, middle, head, tail⟩ := run_bind.mp read
    exact ⟨a, middle, head, b, rest, tail, holds⟩
  · rintro ⟨a, middle, head, b, rest, tail, holds⟩
    exact ⟨b, rest, run_bind.mpr ⟨a, middle, head, tail⟩, holds⟩

theorem reads_pure {α : Type} {a : α} {post : α → Prop} :
    Reads (pure a) stream post ↔ post a :=
  ⟨fun ⟨_, _, read, holds⟩ => (run_pure.mp read).1 ▸ holds, fun holds => ⟨a, stream, rfl, holds⟩⟩

variable {n : Nat}

theorem readSigned_fits {value : Int}
    (read : readSigned n stream = some (value, rest)) : Fits (8 * n) value := by
  obtain ⟨a, middle, _, tail⟩ := run_bind.mp read
  obtain ⟨rfl, _⟩ := run_pure.mp tail
  exact wrap_fits _ _

theorem length_leBytes (n value : Nat) : (leBytes n value).length = n := by
  induction n generalizing value with
  | zero => rfl
  | succ n ih => simp [leBytes, ih]

theorem leValue_leBytes {value : Nat} (small : value < 256 ^ n) :
    leValue (leBytes n value) = value := by
  induction n generalizing value with
  | zero =>
    simp only [pow_zero, Nat.lt_one_iff] at small
    simp [leBytes, leValue, small]
  | succ n ih =>
    have quotient : value / 256 < 256 ^ n := by
      rw [pow_succ] at small
      exact Nat.div_lt_of_lt_mul (by omega)
    have byte : (UInt8.ofNat (value % 256)).toNat = value % 256 := by
      simp
    rw [leBytes, leValue, ih quotient, byte]
    omega

section

variable {rest : List UInt8}

theorem readBytes_append (bytes : List UInt8) :
    readBytes bytes.length (bytes ++ rest) = some (bytes, rest) := by
  simp [readBytes]

theorem readUnsigned_byte (b : UInt8) : readUnsigned 1 (b :: rest) = some (b.toNat, rest) :=
  run_bind.mpr ⟨[b], rest, readBytes_append [b], run_pure.mpr ⟨by simp [leValue], rfl⟩⟩

theorem readUnsigned_leBytes {value : Nat} (small : value < 256 ^ n) :
    readUnsigned n (leBytes n value ++ rest) = some (value, rest) := by
  refine run_bind.mpr ⟨leBytes n value, rest, ?_, run_pure.mpr ⟨(leValue_leBytes small).symm, rfl⟩⟩
  have read := @readBytes_append rest (leBytes n value)
  rwa [length_leBytes] at read

theorem readSigned_signedBytes {value : Int} (fits : Fits (8 * n) value) :
    readSigned n (signedBytes n value ++ rest) = some (value, rest) := by
  set word := (value % 2 ^ (8 * n)).toNat with wordEq
  have positive : (0 : Int) < 2 ^ (8 * n) := Int.pow_pos (by decide)
  have exact_ : (word : Int) = value % 2 ^ (8 * n) := by
    rw [wordEq, Int.toNat_of_nonneg (Int.emod_nonneg _ positive.ne')]
  have small : word < 256 ^ n := by
    have bound := Int.emod_lt_of_pos value positive
    rw [← exact_] at bound
    have power : (2 : Nat) ^ (8 * n) = 256 ^ n := pow_mul 2 8 n
    rw [← power]
    exact_mod_cast bound
  have back : wrap (8 * n) word = value := by
    have cast : ((2 ^ (8 * n) : Nat) : Int) = 2 ^ (8 * n) := by push_cast; rfl
    rw [exact_, wrap, ← cast, Int.emod_bmod]
    exact fits
  exact run_bind.mpr ⟨word, rest, readUnsigned_leBytes small, run_pure.mpr ⟨back.symm, rfl⟩⟩

theorem readCompactSize_write {maxSize size : Nat} (allowed : size ≤ maxSize)
    (word : size < 2 ^ 64) :
    readCompactSize maxSize (writeCompactSize size ++ rest) = some (size, rest) := by
  have accepted : (if size > maxSize then failure else pure size : Reader Nat) rest =
      some (size, rest) := by
    rw [if_neg (by omega)]
    rfl
  unfold readCompactSize writeCompactSize
  split_ifs with one two four
  · refine run_bind.mpr ⟨size, rest, readUnsigned_leBytes (by omega), ?_⟩
    rw [if_pos one]
    exact run_bind.mpr ⟨size, rest, rfl, accepted⟩
  · rw [append_assoc]
    refine run_bind.mpr ⟨253, leBytes 2 size ++ rest, readUnsigned_leBytes (by decide), ?_⟩
    refine run_bind.mpr ⟨size, rest, readUnsigned_leBytes (by omega), ?_⟩
    rw [if_neg one]
    exact run_bind.mpr ⟨size, rest, rfl, accepted⟩
  · rw [append_assoc]
    refine run_bind.mpr ⟨254, leBytes 4 size ++ rest, readUnsigned_leBytes (by decide), ?_⟩
    refine run_bind.mpr ⟨size, rest, readUnsigned_leBytes (by omega), ?_⟩
    rw [if_neg (by omega)]
    exact run_bind.mpr ⟨size, rest, rfl, accepted⟩
  · rw [append_assoc]
    refine run_bind.mpr ⟨255, leBytes 8 size ++ rest, readUnsigned_leBytes (by decide), ?_⟩
    refine run_bind.mpr ⟨size, rest, readUnsigned_leBytes (by omega), ?_⟩
    rw [if_neg (by omega)]
    exact run_bind.mpr ⟨size, rest, rfl, accepted⟩

theorem readString_writeString {maxSize : Nat} {text : List UInt8} (allowed : text.length ≤ maxSize)
    (word : text.length < 2 ^ 64) :
    readString maxSize (writeString text ++ rest) = some (text, rest) := by
  rw [writeString, append_assoc]
  exact run_bind.mpr ⟨text.length, text ++ rest, readCompactSize_write allowed word,
    readBytes_append text⟩

end

/-! ## What was read is what is written

Overlong lengths are refused, so a string has one encoding. -/

theorem leBytes_leValue (bytes : List UInt8) : leBytes bytes.length (leValue bytes) = bytes := by
  induction bytes with
  | nil => rfl
  | cons b rest ih =>
    have small := b.toNat_lt
    have low : (b.toNat + 256 * leValue rest) % 256 = b.toNat := by omega
    have high : (b.toNat + 256 * leValue rest) / 256 = leValue rest := by omega
    rw [length_cons, leValue, leBytes, low, high, ih, UInt8.ofNat_toNat]

theorem readBytes_eq_some {bytes : List UInt8}
    (read : readBytes n stream = some (bytes, rest)) : bytes.length = n ∧ stream = bytes ++ rest := by
  unfold readBytes at read
  split_ifs at read with short
  cases read
  exact ⟨by simp; omega, (take_append_drop n stream).symm⟩

theorem readUnsigned_eq_some {value : Nat}
    (read : readUnsigned n stream = some (value, rest)) : stream = leBytes n value ++ rest := by
  obtain ⟨bytes, middle, head, tail⟩ := run_bind.mp read
  obtain ⟨size, rfl⟩ := readBytes_eq_some head
  obtain ⟨rfl, rfl⟩ := run_pure.mp tail
  rw [← size, leBytes_leValue]

theorem leValue_lt (bytes : List UInt8) : leValue bytes < 256 ^ bytes.length := by
  induction bytes with
  | nil => simp [leValue]
  | cons b rest ih =>
    have small := b.toNat_lt
    rw [leValue, length_cons, pow_succ]
    omega

theorem readUnsigned_lt {value : Nat}
    (read : readUnsigned n stream = some (value, rest)) : value < 256 ^ n := by
  obtain ⟨bytes, middle, head, tail⟩ := run_bind.mp read
  obtain ⟨size, rfl⟩ := readBytes_eq_some head
  obtain ⟨rfl, rfl⟩ := run_pure.mp tail
  rw [← size]
  exact leValue_lt bytes

theorem readCompactSize_eq_some {maxSize size : Nat}
    (read : readCompactSize maxSize stream = some (size, rest)) :
    size ≤ maxSize ∧ stream = writeCompactSize size ++ rest := by
  have bounded : ∀ {n : Nat} {middle : List UInt8},
      (if n > maxSize then failure else pure n : Reader Nat) middle = some (size, rest) →
        n = size ∧ middle = rest ∧ size ≤ maxSize := by
    intro n middle run
    split_ifs at run with large
    · cases run
    · obtain ⟨rfl, rfl⟩ := run_pure.mp run
      exact ⟨rfl, rfl, by omega⟩
  have wide : ∀ {width least : Nat} {middle : List UInt8},
      (do let n ← readUnsigned width
          let m ← if n < least then failure else pure n
          if m > maxSize then failure else pure m : Reader Nat) middle = some (size, rest) →
        size ≤ maxSize ∧ least ≤ size ∧ size < 256 ^ width ∧ middle = leBytes width size ++ rest := by
    intro width least middle run
    obtain ⟨n, after, word, run⟩ := run_bind.mp run
    split_ifs at run with overlong
    · cases run
    obtain ⟨rfl, rfl, le⟩ := bounded run
    exact ⟨le, by omega, readUnsigned_lt word, readUnsigned_eq_some word⟩
  unfold readCompactSize at read
  obtain ⟨first, middle, head, tail⟩ := run_bind.mp read
  have streamEq := readUnsigned_eq_some head
  have byte := readUnsigned_lt head
  split_ifs at tail with one two four
  · obtain ⟨rfl, rfl, le⟩ := bounded tail
    exact ⟨le, by rw [streamEq, writeCompactSize, if_pos one]⟩
  · obtain ⟨le, least, most, rfl⟩ := wide tail
    subst two
    refine ⟨le, ?_⟩
    rw [streamEq, writeCompactSize, if_neg (by omega), if_pos (by omega), append_assoc]
  · obtain ⟨le, least, most, rfl⟩ := wide tail
    subst four
    refine ⟨le, ?_⟩
    rw [streamEq, writeCompactSize, if_neg (by omega), if_neg (by omega), if_pos (by omega),
      append_assoc]
  · obtain ⟨le, least, most, rfl⟩ := wide tail
    have marker : first = 255 := by omega
    subst marker
    refine ⟨le, ?_⟩
    rw [streamEq, writeCompactSize, if_neg (by omega), if_neg (by omega), if_neg (by omega),
      append_assoc]

theorem readString_eq_some {maxSize : Nat} {text : List UInt8}
    (read : readString maxSize stream = some (text, rest)) :
    text.length ≤ maxSize ∧ stream = writeString text ++ rest := by
  obtain ⟨size, middle, head, tail⟩ := run_bind.mp read
  obtain ⟨rfl, rfl⟩ := readBytes_eq_some tail
  obtain ⟨le, rfl⟩ := readCompactSize_eq_some head
  exact ⟨le, by rw [writeString, append_assoc]⟩

theorem readString_iff {maxSize : Nat} {text : List UInt8} (word : maxSize < 2 ^ 64) :
    readString maxSize stream = some (text, rest) ↔
      text.length ≤ maxSize ∧ stream = writeString text ++ rest := by
  refine ⟨readString_eq_some, ?_⟩
  rintro ⟨allowed, rfl⟩
  exact readString_writeString allowed (by omega)

theorem readSigned_iff {value : Int} : readSigned n stream = some (value, rest) ↔
    Fits (8 * n) value ∧ stream = signedBytes n value ++ rest := by
  constructor
  · intro read
    refine ⟨readSigned_fits read, ?_⟩
    obtain ⟨word, middle, head, tail⟩ := run_bind.mp read
    obtain ⟨rfl, rfl⟩ := run_pure.mp tail
    have small := readUnsigned_lt head
    have power : (256 : Nat) ^ n = 2 ^ (8 * n) := (pow_mul 2 8 n).symm
    have cast : ((2 ^ (8 * n) : Nat) : Int) = 2 ^ (8 * n) := by push_cast; rfl
    rw [power] at small
    rw [readUnsigned_eq_some head, signedBytes, wrap, ← cast, Int.bmod_emod,
      Int.emod_eq_of_lt (by omega) (by exact_mod_cast small), Int.toNat_natCast]
  · rintro ⟨fits, rfl⟩
    exact readSigned_signedBytes fits

end ByteReader
