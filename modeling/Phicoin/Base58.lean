import Mathlib.Data.List.DropRight
import Mathlib.Data.Nat.Digits.Lemmas
import Phicoin.Standard

/-! # Base58 is a positional notation

The carry loop computes one Horner step on a fixed number of digits, so a
conversion returns the digits of the number its input denotes, as long as the
digits it allots suffice.  Both conversions allot enough, and decoding inverts
encoding. -/

namespace Phicoin

open List

section

variable {base factor length : Nat}

theorem addCarry_length (i carry : Nat) (digits : List Nat) :
    (addCarry base factor length i carry digits).1.length = digits.length := by
  induction digits generalizing i carry with
  | nil => rfl
  | cons digit rest ih =>
    unfold addCarry
    split
    · simp [ih]
    · rfl

variable {digits : List Nat}

theorem addCarry_lt (positive : 0 < base) (i carry : Nat) (small : ∀ d ∈ digits, d < base) :
    ∀ d ∈ (addCarry base factor length i carry digits).1, d < base := by
  induction digits generalizing i carry with
  | nil => intro d member; cases member
  | cons digit rest ih =>
    intro d member
    unfold addCarry at member
    split at member
    · rcases mem_cons.mp member with rfl | member
      · exact Nat.mod_lt _ positive
      · exact ih _ _ (fun d' later => small d' (mem_cons_of_mem _ later)) d member
    · exact small d member

def ZeroFrom (position : Nat) (digits : List Nat) : Prop :=
  ∀ d ∈ digits.drop position, d = 0

theorem ZeroFrom.tail {i digit : Nat} {rest : List Nat}
    (zeros : ZeroFrom (length - i) (digit :: rest)) : ZeroFrom (length - (i + 1)) rest := by
  intro d later
  apply zeros d
  by_cases reached : length ≤ i
  · have here : length - i = 0 := by omega
    have next : length - (i + 1) = 0 := by omega
    rw [next] at later
    rw [here]
    exact mem_cons_of_mem _ later
  · have step : length - i = length - (i + 1) + 1 := by omega
    rw [step]
    exact later

theorem ofDigits_of_zeroFrom (zeros : ZeroFrom 0 digits) : Nat.ofDigits base digits = 0 := by
  induction digits with
  | nil => rfl
  | cons digit rest ih =>
    have head : digit = 0 := zeros digit mem_cons_self
    have tail : Nat.ofDigits base rest = 0 :=
      ih fun d later => zeros d (mem_cons_of_mem _ later)
    rw [Nat.ofDigits_cons, head, tail]
    rfl

theorem addCarry_value (positive : 0 < base) (i carry : Nat) (zeros : ZeroFrom (length - i) digits)
    (room : factor * Nat.ofDigits base digits + carry < base ^ digits.length) :
    Nat.ofDigits base (addCarry base factor length i carry digits).1 =
      factor * Nat.ofDigits base digits + carry := by
  induction digits generalizing i carry with
  | nil =>
    have noCarry : carry = 0 := by simpa [Nat.ofDigits_nil] using room
    simp [addCarry, noCarry]
  | cons digit rest ih =>
    unfold addCarry
    split
    · set total := carry + factor * digit with totalEq
      have split : factor * Nat.ofDigits base (digit :: rest) + carry =
          total + base * (factor * Nat.ofDigits base rest) := by
        rw [Nat.ofDigits_cons, totalEq]
        ring
      have restRoom : factor * Nat.ofDigits base rest + total / base < base ^ rest.length := by
        rw [split, length_cons, pow_succ, mul_comm (base ^ _)] at room
        have quotient := Nat.div_lt_of_lt_mul room
        rw [Nat.add_mul_div_left _ _ positive] at quotient
        omega
      have value := ih (i + 1) (total / base) zeros.tail restRoom
      have division := Nat.mod_add_div total base
      rw [split, Nat.ofDigits_cons, value]
      linarith
    · rename_i stopped
      simp only [ne_eq, Bool.or_eq_true, decide_eq_true_eq, not_or, not_not, not_lt] at stopped
      have reached : length - i = 0 := by omega
      rw [reached] at zeros
      simp [ofDigits_of_zeroFrom zeros, stopped.1]

theorem addCarry_stop (i carry : Nat) (zeros : ZeroFrom (length - i) digits) :
    i ≤ (addCarry base factor length i carry digits).2 ∧
      ZeroFrom ((addCarry base factor length i carry digits).2 - i)
        (addCarry base factor length i carry digits).1 := by
  induction digits generalizing i carry with
  | nil => exact ⟨le_refl i, by intro d member; simp [addCarry] at member⟩
  | cons digit rest ih =>
    unfold addCarry
    split
    · obtain ⟨further, zeroRest⟩ := ih (i + 1) ((carry + factor * digit) / base) zeros.tail
      dsimp only
      generalize addCarry base factor length (i + 1) _ rest = tail at *
      refine ⟨by omega, ?_⟩
      intro d later
      have step : tail.2 - i = tail.2 - (i + 1) + 1 := by omega
      rw [step] at later
      exact zeroRest d later
    · rename_i stopped
      simp only [ne_eq, Bool.or_eq_true, decide_eq_true_eq, not_or, not_not, not_lt] at stopped
      have reached : length - i = 0 := by omega
      rw [reached] at zeros
      exact ⟨le_refl i, by simpa using zeros⟩

end

def horner (factor : Nat) (input : List Nat) : Nat :=
  input.foldl (fun value digit => factor * value + digit) 0

theorem horner_append_singleton (factor : Nat) (input : List Nat) (digit : Nat) :
    horner factor (input ++ [digit]) = factor * horner factor input + digit := by
  simp [horner]

theorem horner_eq_ofDigits (factor : Nat) (input : List Nat) :
    horner factor input = Nat.ofDigits factor input.reverse := by
  induction input using reverseRecOn with
  | nil => rfl
  | append_singleton input digit ih =>
    rw [horner_append_singleton, ih, reverse_append, reverse_singleton,
      singleton_append, Nat.ofDigits_cons]
    ring

/-- The digits of a number that a conversion in progress holds. -/
structure Holds (base size value : Nat) (state : List Nat × Nat) : Prop where
  length : state.1.length = size
  small : ∀ d ∈ state.1, d < base
  zeros : ZeroFrom state.2 state.1
  value : Nat.ofDigits base state.1 = value

variable {base factor : Nat}

theorem Holds.step {size value digit : Nat} {state : List Nat × Nat}
    (positive : 0 < base) (holds : Holds base size value state)
    (room : factor * value + digit < base ^ size) :
    Holds base size (factor * value + digit) (addCarry base factor state.2 0 digit state.1) where
  length := by rw [addCarry_length, holds.length]
  small := addCarry_lt positive 0 digit holds.small
  zeros := (addCarry_stop 0 digit holds.zeros).2
  value := by
    rw [addCarry_value positive 0 digit holds.zeros, holds.value]
    rwa [holds.value, holds.length]

variable {input : List Nat}

theorem convertDigits_holds {size : Nat} (positive : 0 < base)
    (grows : 0 < factor) (room : horner factor input < base ^ size) :
    Holds base size (horner factor input) (input.foldl
      (fun (state : List Nat × Nat) digit => addCarry base factor state.2 0 digit state.1)
      (replicate size 0, 0)) := by
  induction input using reverseRecOn with
  | nil =>
    have allZero : ZeroFrom 0 (replicate size 0) := by
      intro d member
      exact eq_of_mem_replicate member
    refine ⟨length_replicate, ?_, allZero, ofDigits_of_zeroFrom allZero⟩
    intro d member
    rw [eq_of_mem_replicate member]
    exact positive
  | append_singleton input digit ih =>
    rw [horner_append_singleton] at room ⊢
    have shorter : horner factor input < base ^ size := by
      have := Nat.le_mul_of_pos_left (horner factor input) grows
      omega
    rw [foldl_append]
    exact (ih shorter).step positive room

theorem ofDigits_eq_of_zeros {digits zeros : List Nat} (allZero : ∀ d ∈ zeros, d = 0) :
    Nat.ofDigits base (digits ++ zeros) = Nat.ofDigits base digits := by
  rw [Nat.ofDigits_append, ofDigits_of_zeroFrom (fun d member => allZero d member), mul_zero,
    add_zero]

theorem trimmed_digits {position : Nat} {digits : List Nat} (large : 1 < base)
    (small : ∀ d ∈ digits, d < base) (zeros : ZeroFrom position digits) :
    (digits.take position).reverse.dropWhile (· = 0) =
      (Nat.digits base (Nat.ofDigits base digits)).reverse := by
  set isZero : Nat → Bool := fun d => d = 0
  set kept := (digits.take position).rdropWhile isZero with keptEq
  have pieces : digits.take position =
      kept ++ ((digits.take position).reverse.takeWhile isZero).reverse := by
    rw [keptEq, rdropWhile, ← reverse_append, takeWhile_append_dropWhile,
      reverse_reverse]
  have value : Nat.ofDigits base digits = Nat.ofDigits base kept := by
    rw [← take_append_drop position digits, ofDigits_eq_of_zeros zeros, pieces]
    apply ofDigits_eq_of_zeros
    intro d member
    have dropped := mem_takeWhile_imp (mem_reverse.mp member)
    simpa [isZero] using dropped
  have keptSmall : ∀ d ∈ kept, d < base := by
    intro d member
    have taken : d ∈ digits.take position := by
      rw [pieces]
      exact mem_append_left _ member
    exact small d (mem_of_mem_take taken)
  have leading : ∀ nonempty : kept ≠ [], kept.getLast nonempty ≠ 0 := by
    intro nonempty
    have last := rdropWhile_last_not isZero (digits.take position) nonempty
    simpa [isZero] using last
  rw [value, Nat.digits_ofDigits base large _ keptSmall leading, keptEq, rdropWhile,
    reverse_reverse]

theorem convertDigits_eq {size : Nat} (large : 1 < base)
    (grows : 0 < factor) (room : horner factor input < base ^ size) :
    convertDigits base factor size input = (Nat.digits base (horner factor input)).reverse := by
  have holds := convertDigits_holds (by omega) grows room
  unfold convertDigits
  rw [trimmed_digits large holds.small holds.zeros, holds.value]

theorem pow_256_le (n : Nat) : 256 ^ n ≤ 58 ^ (n * 138 / 100 + 1) := by
  have enough : n * 138 ≤ (n * 138 / 100 + 1) * 100 := by omega
  apply le_of_pow_le_pow_left₀ (n := 100) (by decide) (by positivity)
  calc (256 ^ n) ^ 100 = (256 ^ 100) ^ n := by rw [← pow_mul, ← pow_mul, mul_comm]
    _ ≤ (58 ^ 138) ^ n := Nat.pow_le_pow_left (by norm_num) n
    _ = 58 ^ (n * 138) := by rw [← pow_mul, mul_comm]
    _ ≤ 58 ^ ((n * 138 / 100 + 1) * 100) := Nat.pow_le_pow_right (by decide) enough
    _ = (58 ^ (n * 138 / 100 + 1)) ^ 100 := by rw [← pow_mul]

theorem pow_58_le (n : Nat) : 58 ^ n ≤ 256 ^ (n * 733 / 1000 + 1) := by
  have enough : n * 85 ≤ (n * 733 / 1000 + 1) * 116 := by omega
  apply le_of_pow_le_pow_left₀ (n := 116) (by decide) (by positivity)
  calc (58 ^ n) ^ 116 = (58 ^ 116) ^ n := by rw [← pow_mul, ← pow_mul, mul_comm]
    _ ≤ (256 ^ 85) ^ n := Nat.pow_le_pow_left (by norm_num) n
    _ = 256 ^ (n * 85) := by rw [← pow_mul, mul_comm]
    _ ≤ 256 ^ ((n * 733 / 1000 + 1) * 116) := Nat.pow_le_pow_right (by decide) enough
    _ = (256 ^ (n * 733 / 1000 + 1)) ^ 116 := by rw [← pow_mul]

theorem horner_lt (large : 1 < factor)
    (small : ∀ d ∈ input, d < factor) : horner factor input < factor ^ input.length := by
  rw [horner_eq_ofDigits, ← length_reverse]
  exact Nat.ofDigits_lt_base_pow_length large fun d member => small d (mem_reverse.mp member)

def bytesValue (data : Bytes) : Nat := horner 256 (data.map UInt8.toNat)

theorem bytesValue_lt (data : Bytes) : bytesValue data < 256 ^ data.length := by
  have small : ∀ d ∈ data.map UInt8.toNat, d < 256 := by
    intro d member
    obtain ⟨byte, _, rfl⟩ := mem_map.mp member
    exact byte.toNat_lt
  simpa [bytesValue] using horner_lt (by decide) small

def base58Char (digit : Nat) : UInt8 := base58Alphabet.getD digit 0

def base58Digits (data : Bytes) : List Nat := (Nat.digits 58 (bytesValue data)).reverse

def base58Text (data : Bytes) : Bytes := (base58Digits data).map base58Char

theorem encodeBase58_eq (data : Bytes) : encodeBase58 data =
      replicate (data.length - (data.dropWhile (· = 0)).length) 49 ++
        base58Text (data.dropWhile (· = 0)) := by
  have room := (bytesValue_lt (data.dropWhile (· = 0))).trans_le (pow_256_le _)
  unfold encodeBase58
  dsimp only
  rw [convertDigits_eq (by decide) (by decide) room]
  rfl

theorem base58Char_spec : ∀ digit < 58, base58Char digit ≠ 0 ∧ isSpace (base58Char digit) = false ∧
      (base58Char digit = 49 ↔ digit = 0) ∧ base58Alphabet.contains (base58Char digit) = true ∧
      base58Alphabet.idxOf (base58Char digit) = digit := by
  decide +kernel

section

variable {data : Bytes}

theorem base58Digits_lt {digit : Nat} (member : digit ∈ base58Digits data) : digit < 58 :=
  Nat.digits_lt_base (by decide) (mem_reverse.mp member)

theorem base58Digits_head {digit : Nat} {rest : List Nat}
    (digits : base58Digits data = digit :: rest) : digit ≠ 0 := by
  have reversed : Nat.digits 58 (bytesValue data) = rest.reverse ++ [digit] := by
    rw [← reverse_cons, ← digits, base58Digits, reverse_reverse]
  have positive : bytesValue data ≠ 0 := by
    intro zero
    rw [zero, Nat.digits_zero] at reversed
    simp at reversed
  have last := Nat.getLast_digit_ne_zero 58 positive
  simpa [reversed] using last

theorem base58Text_char {c : UInt8} (member : c ∈ base58Text data) :
    c ≠ 0 ∧ isSpace c = false ∧ base58Alphabet.contains c = true := by
  obtain ⟨digit, isDigit, rfl⟩ := mem_map.mp member
  have spec := base58Char_spec digit (base58Digits_lt isDigit)
  exact ⟨spec.1, spec.2.1, spec.2.2.2.1⟩

theorem idxOf_base58Text : (base58Text data).map base58Alphabet.idxOf = base58Digits data := by
  rw [base58Text, map_map]
  conv_rhs => rw [← map_id (base58Digits data)]
  apply map_congr_left
  intro digit member
  exact (base58Char_spec digit (base58Digits_lt member)).2.2.2.2

theorem dropOnes_base58Text (zeros : Nat) :
    (replicate zeros 49 ++ base58Text data).dropWhile (· = 49) = base58Text data := by
  rw [dropWhile_append_of_pos (by intro c member; simp [eq_of_mem_replicate member])]
  unfold base58Text
  cases digits : base58Digits data with
  | nil => rfl
  | cons digit rest =>
    have isDigit : digit ∈ base58Digits data := by
      rw [digits]
      exact mem_cons_self
    have notOne : base58Char digit ≠ 49 := by
      rw [ne_eq, (base58Char_spec digit (base58Digits_lt isDigit)).2.2.1]
      exact base58Digits_head digits
    simp [notOne]

theorem digits_bytesValue (leading : data.head? ≠ some 0) :
    (Nat.digits 256 (bytesValue data)).reverse = data.map UInt8.toNat := by
  rw [bytesValue, horner_eq_ofDigits, Nat.digits_ofDigits 256 (by decide), reverse_reverse]
  · intro d member
    obtain ⟨byte, _, rfl⟩ := mem_map.mp (mem_reverse.mp member)
    exact byte.toNat_lt
  · intro nonempty
    cases data with
    | nil => simp at nonempty
    | cons byte rest => simpa [← UInt8.toNat_inj] using leading

theorem convertDigits_base58Text (leading : data.head? ≠ some 0) :
    (convertDigits 256 58 ((base58Text data).length * 733 / 1000 + 1)
      ((base58Text data).map base58Alphabet.idxOf)).map UInt8.ofNat = data := by
  have value : horner 58 (base58Digits data) = bytesValue data := by
    rw [horner_eq_ofDigits, base58Digits, reverse_reverse, Nat.ofDigits_digits]
  have room : horner 58 (base58Digits data) <
      256 ^ ((base58Text data).length * 733 / 1000 + 1) := by
    have small : ∀ d ∈ base58Digits data, d < 58 := fun d member => base58Digits_lt member
    rw [base58Text, length_map]
    exact (horner_lt (by decide) small).trans_le (pow_58_le _)
  rw [idxOf_base58Text, convertDigits_eq (by decide) (by decide) room, value,
    digits_bytesValue leading, map_map]
  conv_rhs => rw [← map_id data]
  apply map_congr_left
  intro byte _
  exact UInt8.ofNat_toNat

end

theorem head_dropZeros (data : Bytes) : (data.dropWhile (· = 0)).head? ≠ some 0 := by
  have nonzero := head?_dropWhile_not (fun byte : UInt8 => decide (byte = 0)) data
  intro zero
  simp [zero] at nonzero

theorem leading_append (c : UInt8) (data : Bytes) :
    replicate (data.length - (data.dropWhile (· = c)).length) c ++
      data.dropWhile (· = c) = data := by
  have pieces := @List.takeWhile_append_dropWhile _ (fun byte : UInt8 => decide (byte = c)) data
  have sizes : data.length - (data.dropWhile (· = c)).length =
      (data.takeWhile (· = c)).length := by
    have total := congrArg List.length pieces
    rw [length_append] at total
    omega
  have same : data.takeWhile (· = c) = replicate (data.takeWhile (· = c)).length c := by
    rw [eq_replicate_iff]
    refine ⟨rfl, ?_⟩
    intro byte member
    simpa using mem_takeWhile_imp member
  rw [sizes, ← same, pieces]

theorem decodeBase58_encodeBase58 (data : Bytes) : decodeBase58 (encodeBase58 data) = some data := by
  set rest := data.dropWhile (· = 0) with restEq
  set zeros := data.length - rest.length with zerosEq
  have textChars : ∀ c ∈ replicate zeros 49 ++ base58Text rest, c ≠ 0 ∧ isSpace c = false := by
    intro c member
    rcases mem_append.mp member with one | member
    · rw [eq_of_mem_replicate one]
      decide
    · exact ⟨(base58Text_char member).1, (base58Text_char member).2.1⟩
  have noNul : (replicate zeros 49 ++ base58Text rest).takeWhile (· ≠ 0) =
      replicate zeros 49 ++ base58Text rest := by
    rw [takeWhile_eq_self_iff]
    intro c member
    simpa using (textChars c member).1
  have noSpace : (replicate zeros 49 ++ base58Text rest).dropWhile isSpace =
      replicate zeros 49 ++ base58Text rest := by
    rw [dropWhile_eq_self_iff]
    intro nonempty
    simpa using (textChars _ (getElem_mem nonempty)).2
  have wholeText : (base58Text rest).takeWhile (fun c => !isSpace c) = base58Text rest := by
    rw [takeWhile_eq_self_iff]
    intro c member
    simpa using (base58Text_char member).2.1
  have inAlphabet : (base58Text rest).all (base58Alphabet.contains ·) = true := by
    rw [all_eq_true]
    intro c member
    exact (base58Text_char member).2.2
  have bytes := convertDigits_base58Text (head_dropZeros data)
  have whole := leading_append 0 data
  rw [← restEq] at bytes whole
  rw [encodeBase58_eq, ← restEq, ← zerosEq]
  unfold decodeBase58
  simp only [noNul, noSpace, dropOnes_base58Text, wholeText, inAlphabet, bytes]
  simp [zerosEq, whole]

theorem encodeBase58_ne_nil {data : Bytes} (nonempty : data ≠ []) : encodeBase58 data ≠ [] := by
  intro empty
  have decoded := decodeBase58_encodeBase58 data
  rw [empty] at decoded
  exact nonempty (Option.some.inj decoded).symm

theorem decodeBase58Check_encodeBase58Check {env : Env} {data : Bytes}
    (checksum : 4 ≤ (env.hash256 data).length) :
    decodeBase58Check env (encodeBase58Check env data) = some data := by
  unfold decodeBase58Check encodeBase58Check
  rw [decodeBase58_encodeBase58]
  simp [checksum]

theorem encodeDestination_key_ne_nil {env : Env} {id : Bytes} (nonempty : id ≠ []) :
    encodeDestination env (.keyId id) ≠ [] := by
  apply encodeBase58_ne_nil
  simp [nonempty]

end Phicoin
