import Mathlib.Data.Nat.Digits.Lemmas
import Phicoin.Lib.Validation
import Phicoin.Env

/-! # Amounts as text

`ValueFromAmountString` prints an amount with as many decimals as the asset has
units, and `AmountFromValue` reads one back through `ParseFixedPoint`.  The reader
keeps a mantissa without its trailing zeros and an exponent, and refuses what passes
one of its bounds.  These were made for a smaller supply: of the amounts above
`10 ^ 18 - 1` only some can be read. -/

namespace Phicoin

open Check List Option

/-- `%0<width>d` of a number. -/
def padded (width n : Nat) : List Char :=
  List.replicate (width - (Nat.toDigits 10 n).length) '0' ++ Nat.toDigits 10 n

/-- `ValueFromAmountString`, for units of at most 8; the division of the remainder by a
power of ten in floating point is exact there. -/
def valueFromAmountString (amount : Int) (units : Nat) : List Char :=
  let sign := if amount < 0 then ['-'] else []
  let quotient := amount.natAbs / 100000000
  let remainder := amount.natAbs % 100000000 / 10 ^ (8 - units)
  if units = 0 ∧ remainder = 0 then sign ++ Nat.toDigits 10 quotient
  else sign ++ Nat.toDigits 10 quotient ++ '.' :: padded units remainder

def upperBound : Int := 1000000000000000000 - 1

/-- A loop that multiplies by ten, refused as soon as the value is out of bounds. -/
def timesTen (overflows : Int → Bool) : Nat → Int → Option Int
  | 0, mantissa => some mantissa
  | count + 1, mantissa =>
    if overflows mantissa then none else timesTen overflows count (mantissa * 10)

/-- The digits read so far: a mantissa and the zeros that follow it. -/
structure Mantissa where
  mantissa : Int
  tzeros : Nat
  deriving DecidableEq

def digitOf (ch : Char) : Int := ch.toNat - '0'.toNat

def processMantissaDigit (ch : Char) (read : Mantissa) : Option Mantissa :=
  if ch = '0' then some { read with tzeros := read.tzeros + 1 }
  else (timesTen (fun mantissa => mantissa > upperBound / 10) (read.tzeros + 1) read.mantissa).map
    fun shifted => ⟨shifted + digitOf ch, 0⟩

/-- The loop over the digits of the mantissa, with their number and the rest. -/
def readMantissa : List Char → Mantissa → Option (Mantissa × Nat × List Char)
  | [], read => some (read, 0, [])
  | ch :: rest, read =>
    if ch.isDigit then do
      let (final, count, unread) ← readMantissa rest (← processMantissaDigit ch read)
      return (final, count + 1, unread)
    else some (read, 0, ch :: rest)

def readExponent : List Char → Int → Option (Int × List Char)
  | [], exponent => some (exponent, [])
  | ch :: rest, exponent =>
    if ch.isDigit then
      if exponent > upperBound / 10 then none
      else readExponent rest (exponent * 10 + digitOf ch)
    else some (exponent, ch :: rest)

/-- The part before the point: a single zero, or digits that do not start with one. -/
def readWhole : List Char → Option (Mantissa × List Char)
  | [] => none
  | ch :: rest =>
    if ch = '0' then some (⟨0, 0⟩, rest)
    else if ch.isDigit then (readMantissa (ch :: rest) ⟨0, 0⟩).map fun read => (read.1, read.2.2)
    else none

def readFraction (text : List Char) (read : Mantissa) : Option (Mantissa × Nat × List Char) :=
  match text with
  | '.' :: ch :: rest => if ch.isDigit then readMantissa (ch :: rest) read else none
  | ['.'] => none
  | _ => some (read, 0, text)

def readPower (text : List Char) : Option (Int × List Char) :=
  let digits := fun (signed : Int → Int) (text : List Char) =>
    match text with
    | ch :: rest =>
      if ch.isDigit then (readExponent (ch :: rest) 0).map fun read => (signed read.1, read.2)
      else none
    | [] => none
  match text with
  | 'e' :: '+' :: rest | 'E' :: '+' :: rest => digits id rest
  | 'e' :: '-' :: rest | 'E' :: '-' :: rest => digits Neg.neg rest
  | 'e' :: rest | 'E' :: rest => digits id rest
  | _ => some (0, text)

def scaleMantissa (mantissa exponent : Int) : Option Int :=
  if exponent < 0 then none
  else if exponent ≥ 18 then none
  else do
    let scaled ← timesTen
      (fun mantissa => mantissa > 420000000000000000 || mantissa < -(upperBound / 10))
      exponent.toNat mantissa
    if scaled > 4200000000000000000 || scaled < -upperBound then none else some scaled

def parseFixedPoint (val : List Char) (decimals : Nat) : Option Int := do
  let (negative, text) := match val with
    | '-' :: rest => (true, rest)
    | _ => (false, val)
  let (whole, text) ← readWhole text
  let (read, point_ofs, text) ← readFraction text whole
  let (exponent, text) ← readPower text
  if text ≠ [] then none
  else
    let mantissa := if negative then -read.mantissa else read.mantissa
    scaleMantissa mantissa (exponent - point_ofs + read.tzeros + decimals)

/-- A JSON value, as far as amounts go. -/
inductive UniValue where
  | num (val : List Char)
  | str (val : List Char)
  | other

def UniValue.getValStr : UniValue → Option (List Char)
  | .num val | .str val => some val
  | .other => none

def amountFromValue (value : UniValue) (isPHI : Bool) : Check Int := do
  let text ← require? value.getValStr "Amount is not a number or string"
  let amount ← require? (parseFixedPoint text 8) ("Invalid amount (3): " ++ String.ofList text)
  require (!(isPHI && !moneyRange amount)) ("Amount out of range: " ++ toString amount)
  return amount

theorem timesTen_succ {overflows : Int → Bool} (bound : Int)
    (bounded : ∀ m, 0 ≤ m → (overflows m = true ↔ bound < m)) (count : Nat) {mantissa : Int}
    (nonneg : 0 ≤ mantissa) : timesTen overflows (count + 1) mantissa =
      if mantissa * 10 ^ count ≤ bound then some (mantissa * 10 ^ (count + 1)) else none := by
  induction count generalizing mantissa with
  | zero =>
    rw [timesTen, timesTen, pow_zero, mul_one, zero_add, pow_one]
    by_cases above : bound < mantissa
    · rw [if_pos ((bounded mantissa nonneg).mpr above), if_neg (not_le.mpr above)]
    · rw [if_neg (mt (bounded mantissa nonneg).mp above), if_pos (not_lt.mp above)]
  | succ count ih =>
    rw [timesTen, ih (by omega)]
    have shift : mantissa * 10 * 10 ^ count = mantissa * 10 ^ (count + 1) := by ring
    have shift' : mantissa * 10 * 10 ^ (count + 1) = mantissa * 10 ^ (count + 1 + 1) := by ring
    rw [shift, shift']
    by_cases above : bound < mantissa
    · have grows : mantissa ≤ mantissa * 10 ^ (count + 1) :=
        le_mul_of_one_le_right nonneg (one_le_pow₀ (by norm_num))
      rw [if_pos ((bounded mantissa nonneg).mpr above), if_neg (by omega)]
    · rw [if_neg (mt (bounded mantissa nonneg).mp above)]

/-- The digits read so far spell a number: its trailing zeros are apart. -/
structure Mantissa.Spells (read : Mantissa) (n : Nat) : Prop where
  nonneg : 0 ≤ read.mantissa
  value : read.mantissa * 10 ^ read.tzeros = n
  reduced : read.mantissa = 0 ∨ ¬ 10 ∣ read.mantissa
  bounded : read.mantissa < 10 ^ 18

def Short (n : Nat) : Prop := ∃ zeros, 10 ^ zeros ∣ n ∧ n / 10 ^ zeros < 10 ^ 18

variable {n : Nat}

theorem Short.of_append {d : Nat} (small : d < 10) (short : Short (10 * n + d)) : Short n := by
  obtain ⟨zeros, divides, bounded⟩ := short
  cases zeros with
  | zero => exact ⟨0, one_dvd n, by omega⟩
  | succ zeros =>
    have ten : 10 ∣ 10 * n + d := (Dvd.intro_left (10 ^ zeros) (pow_succ 10 zeros).symm).trans divides
    obtain rfl : d = 0 := by omega
    rw [add_zero, pow_succ'] at divides bounded
    rw [Nat.mul_div_mul_left _ _ (by norm_num)] at bounded
    exact ⟨zeros, Nat.dvd_of_mul_dvd_mul_left (by norm_num) divides, bounded⟩

theorem short_iff_of_not_dvd (last : ¬ 10 ∣ n) : Short n ↔ n < 10 ^ 18 := by
  constructor
  · rintro ⟨zeros, divides, bounded⟩
    cases zeros with
    | zero => simpa using bounded
    | succ zeros =>
      exact absurd ((Dvd.intro_left (10 ^ zeros) (pow_succ 10 zeros).symm).trans divides) last
  · intro small
    exact ⟨0, one_dvd n, by simpa using small⟩

variable {ch : Char}

theorem digitOf_eq (digit : ch.isDigit = true) :
    digitOf ch = ((ch.toNat - '0'.toNat : Nat) : Int) ∧ ch.toNat - '0'.toNat < 10 ∧
      (ch.toNat - '0'.toNat = 0 ↔ ch = '0') := by
  obtain ⟨low, high⟩ : '0'.toNat ≤ ch.toNat ∧ ch.toNat ≤ '9'.toNat := by
    simpa [Char.isDigit, Char.le_def, UInt32.le_iff_toNat_le] using digit
  have nine : '9'.toNat = '0'.toNat + 9 := rfl
  refine ⟨by rw [digitOf]; omega, by omega, ⟨fun same => ?_, fun same => by rw [same]; rfl⟩⟩
  exact Char.toNat_inj.mp (by omega)

variable {read : Mantissa}

theorem processMantissaDigit_spells (digit : ch.isDigit = true)
    (spells : read.Spells n) (short : Short n) :
    (∀ next, processMantissaDigit ch read = some next →
      next.Spells (10 * n + (ch.toNat - '0'.toNat))) ∧
    ((processMantissaDigit ch read).isSome ↔ Short (10 * n + (ch.toNat - '0'.toNat))) := by
  obtain ⟨value, small, zero⟩ := digitOf_eq digit
  generalize ch.toNat - '0'.toNat = d at value small zero ⊢
  unfold processMantissaDigit
  by_cases isZero : ch = '0'
  · obtain rfl := zero.mpr isZero
    rw [if_pos isZero]
    refine ⟨?_, iff_of_true rfl ?_⟩
    · rintro next ⟨⟩
      refine ⟨spells.nonneg, ?_, spells.reduced, spells.bounded⟩
      have whole := spells.value
      rw [pow_succ]
      push_cast
      linarith
    · obtain ⟨zeros, divides, bounded⟩ := short
      refine ⟨zeros + 1, ?_, ?_⟩
      · rw [add_zero, pow_succ']
        exact Nat.mul_dvd_mul_left 10 divides
      · rwa [add_zero, pow_succ', Nat.mul_div_mul_left _ _ (by norm_num)]
  · have positive : 0 < d := Nat.pos_of_ne_zero (mt zero.mp isZero)
    rw [if_neg isZero, timesTen_succ (upperBound / 10)
      (fun m _ => by rw [decide_eq_true_eq]) read.tzeros spells.nonneg, spells.value,
      short_iff_of_not_dvd (by omega)]
    have bound : upperBound / 10 = 10 ^ 17 - 1 := by decide
    have top : (10 : Nat) ^ 18 = 10 * 10 ^ 17 := by norm_num
    by_cases fits : (n : Int) ≤ upperBound / 10
    · rw [if_pos fits]
      refine ⟨?_, iff_of_true rfl (by zify at *; omega)⟩
      rintro next ⟨⟩
      have shifted : read.mantissa * 10 ^ (read.tzeros + 1) = 10 * n := by
        rw [pow_succ, ← mul_assoc, spells.value, mul_comm]
      refine ⟨?_, ?_, .inr ?_, ?_⟩
      · change 0 ≤ read.mantissa * 10 ^ (read.tzeros + 1) + digitOf ch
        rw [shifted, value]
        omega
      · change (read.mantissa * 10 ^ (read.tzeros + 1) + digitOf ch) * 10 ^ 0 = _
        rw [shifted, value, pow_zero, mul_one]
        push_cast
        ring
      · change ¬ 10 ∣ read.mantissa * 10 ^ (read.tzeros + 1) + digitOf ch
        rw [shifted, value]
        omega
      · change read.mantissa * 10 ^ (read.tzeros + 1) + digitOf ch < 10 ^ 18
        rw [shifted, value]
        omega
    · rw [if_neg fits]
      refine ⟨fun next impossible => (by cases impossible), iff_of_false (by simp) ?_⟩
      zify at *
      omega

theorem processMantissaDigit_tzeros {next : Mantissa}
    (reads : processMantissaDigit ch read = some next) : next.tzeros ≤ read.tzeros + 1 := by
  unfold processMantissaDigit at reads
  split at reads
  · cases reads
    exact le_refl _
  · obtain ⟨_, _, rfl⟩ := map_eq_some_iff.mp reads
    exact Nat.zero_le _

theorem short_of_ofDigitChars {digits : List Char} (all : ∀ ch ∈ digits, ch.isDigit = true)
    (short : Short (Nat.ofDigitChars 10 digits n)) : Short n := by
  induction digits generalizing n with
  | nil => exact short
  | cons ch rest ih =>
    rw [Nat.ofDigitChars_cons] at short
    have small := (digitOf_eq (all ch mem_cons_self)).2.1
    exact (ih (fun other member => all other (mem_cons_of_mem ch member)) short).of_append small

theorem readMantissa_spells {digits rest : List Char} (all : ∀ ch ∈ digits, ch.isDigit = true)
    (stops : ∀ ch ∈ rest.head?, ch.isDigit = false) {read : Mantissa} {n : Nat}
    (spells : read.Spells n) (short : Short n) : (Short (Nat.ofDigitChars 10 digits n) →
      ∃ final : Mantissa, final.Spells (Nat.ofDigitChars 10 digits n) ∧
        final.tzeros ≤ read.tzeros + digits.length ∧
        readMantissa (digits ++ rest) read = some (final, digits.length, rest)) ∧
    (¬ Short (Nat.ofDigitChars 10 digits n) → readMantissa (digits ++ rest) read = none) := by
  induction digits generalizing read n with
  | nil =>
    refine ⟨fun _ => ⟨read, spells, le_refl _, ?_⟩, fun long => absurd short long⟩
    cases rest with
    | nil => rfl
    | cons ch rest =>
      rw [nil_append, readMantissa, if_neg (by simpa using stops ch rfl)]
      rfl
  | cons ch digits ih =>
    have digit := all ch mem_cons_self
    have later : ∀ other ∈ digits, other.isDigit = true :=
      fun other member => all other (mem_cons_of_mem ch member)
    obtain ⟨spellsNext, passes⟩ := processMantissaDigit_spells digit spells short
    rw [Nat.ofDigitChars_cons, cons_append, readMantissa, if_pos digit]
    cases processed : processMantissaDigit ch read with
    | none =>
      have long : ¬ Short (10 * n + (ch.toNat - '0'.toNat)) := by
        rw [← passes, processed]
        simp
      exact ⟨fun fits => absurd (short_of_ofDigitChars later fits) long, fun _ => rfl⟩
    | some next =>
      have tzeros := processMantissaDigit_tzeros processed
      obtain ⟨tail, tailFails⟩ :=
        ih later (spellsNext next processed) (passes.mp (by rw [processed]; rfl))
      refine ⟨fun fits => ?_, fun long => by simp [tailFails long]⟩
      obtain ⟨final, spellsFinal, bounded, reads⟩ := tail fits
      exact ⟨final, spellsFinal, by rw [length_cons]; omega, by simp [reads]⟩

theorem head_toDigits (positive : 0 < n) :
    ∃ ch rest, Nat.toDigits 10 n = ch :: rest ∧ ch ≠ '0' ∧ ch.isDigit = true := by
  induction n using Nat.strong_induction_on with
  | _ n ih =>
    rw [Nat.toDigits_eq_if (by norm_num)]
    split
    · rename_i small
      refine ⟨n.digitChar, [], rfl, ?_, ?_⟩ <;> interval_cases n <;> decide
    · rename_i large
      obtain ⟨ch, rest, digits, first, digit⟩ := ih (n / 10) (by omega) (by omega)
      exact ⟨ch, rest ++ [(n % 10).digitChar], by rw [digits]; rfl, first, digit⟩

theorem isDigit_of_mem_padded {width : Nat} (member : ch ∈ padded width n) : ch.isDigit = true := by
  rcases mem_append.mp member with zeros | digits
  · rw [eq_of_mem_replicate zeros]
    rfl
  · exact Nat.isDigit_of_mem_toDigits (by norm_num) (by norm_num) digits

theorem length_padded {width : Nat} (positive : 0 < width) (fits : n < 10 ^ width) :
    (padded width n).length = width := by
  have short := (Nat.length_toDigits_le_iff (by norm_num) positive).mpr fits
  rw [padded, length_append, length_replicate]
  omega

theorem ofDigitChars_eq (digits : List Char) (n : Nat) :
    Nat.ofDigitChars 10 digits n = n * 10 ^ digits.length + Nat.ofDigitChars 10 digits 0 := by
  induction digits generalizing n with
  | nil => simp [Nat.ofDigitChars]
  | cons ch rest ih =>
    rw [Nat.ofDigitChars_cons, Nat.ofDigitChars_cons, ih, ih (10 * 0 + _), length_cons]
    ring

theorem ofDigitChars_zeros (count : Nat) : Nat.ofDigitChars 10 (replicate count '0') 0 = 0 := by
  induction count with
  | zero => rfl
  | succ count ih => rw [replicate_succ, Nat.ofDigitChars_cons]; exact ih

theorem ofDigitChars_padded {width : Nat} (positive : 0 < width) (fits : n < 10 ^ width)
    (init : Nat) : Nat.ofDigitChars 10 (padded width n) init = init * 10 ^ width + n := by
  rw [ofDigitChars_eq, length_padded positive fits, padded, Nat.ofDigitChars_append,
    ofDigitChars_zeros, Nat.ofDigitChars_toDigits (by norm_num) (by norm_num)]

theorem Mantissa.Spells.zero : (⟨0, 0⟩ : Mantissa).Spells 0 :=
  ⟨le_refl _, rfl, .inl rfl, by norm_num⟩

theorem short_zero : Short 0 := ⟨0, one_dvd 0, by norm_num⟩

theorem readWhole_spells {rest : List Char} (stops : ∀ ch ∈ rest.head?, ch.isDigit = false)
    (quotient : Nat) :
    (Short quotient → ∃ read : Mantissa, read.Spells quotient ∧ (quotient = 0 → read.tzeros = 0) ∧
      readWhole (Nat.toDigits 10 quotient ++ rest) = some (read, rest)) ∧
    (¬ Short quotient → readWhole (Nat.toDigits 10 quotient ++ rest) = none) := by
  rcases Nat.eq_zero_or_pos quotient with rfl | positive
  · exact ⟨fun _ => ⟨⟨0, 0⟩, .zero, fun _ => rfl, rfl⟩, fun long => absurd short_zero long⟩
  · obtain ⟨ch, digits, whole, first, digit⟩ := head_toDigits positive
    have all : ∀ other ∈ Nat.toDigits 10 quotient, other.isDigit = true := fun other member =>
      Nat.isDigit_of_mem_toDigits (by norm_num) (by norm_num) member
    have reads := readMantissa_spells all stops .zero short_zero
    rw [Nat.ofDigitChars_toDigits (by norm_num) (by norm_num), whole, cons_append] at reads
    rw [whole, cons_append, readWhole, if_neg first, if_pos digit]
    refine ⟨fun short => ?_, fun long => by rw [reads.2 long]; rfl⟩
    obtain ⟨read, spells, _, result⟩ := reads.1 short
    exact ⟨read, spells, fun none => by omega, by rw [result]; rfl⟩

theorem readFraction_spells {units quotient remainder : Nat} (positive : 0 < units)
    (fits : remainder < 10 ^ units) (spells : read.Spells quotient) (short : Short quotient) :
    (Short (quotient * 10 ^ units + remainder) →
      ∃ final : Mantissa, final.Spells (quotient * 10 ^ units + remainder) ∧
        final.tzeros ≤ read.tzeros + units ∧
        readFraction ('.' :: padded units remainder) read = some (final, units, [])) ∧
    (¬ Short (quotient * 10 ^ units + remainder) →
      readFraction ('.' :: padded units remainder) read = none) := by
  have reads := @readMantissa_spells (padded units remainder) [] (fun ch => isDigit_of_mem_padded)
    (fun ch absent => by cases absent) read quotient spells short
  rw [ofDigitChars_padded positive fits, length_padded positive fits, append_nil] at reads
  have nonempty : padded units remainder ≠ [] := by
    intro empty
    have length := length_padded positive fits
    rw [empty] at length
    exact absurd length positive.ne
  obtain ⟨ch, digits, whole⟩ := exists_cons_of_ne_nil nonempty
  have digit : ch.isDigit = true := isDigit_of_mem_padded (whole ▸ mem_cons_self)
  have step : readFraction ('.' :: padded units remainder) read =
      readMantissa (padded units remainder) read := by
    rw [whole, readFraction, if_pos digit]
  rw [step]
  exact reads

theorem scaleMantissa_eq {mantissa : Int} (nonneg : 0 ≤ mantissa) (exponent : Nat) :
    scaleMantissa mantissa exponent =
      if exponent < 18 ∧ mantissa * 10 ^ exponent ≤ 4200000000000000000
      then some (mantissa * 10 ^ exponent) else none := by
  have bounded : ∀ m : Int, 0 ≤ m → ((decide (m > 420000000000000000) ||
      decide (m < -(upperBound / 10))) = true ↔ 420000000000000000 < m) := by
    intro m positive
    have low : ¬ m < -(upperBound / 10) := by
      have bound : upperBound / 10 = 99999999999999999 := by decide
      omega
    simp [low]
  have final : ∀ scaled : Int, 0 ≤ scaled → ((decide (scaled > 4200000000000000000) ||
      decide (scaled < -upperBound)) = true ↔ 4200000000000000000 < scaled) := by
    intro scaled positive
    have low : ¬ scaled < -upperBound := by
      have bound : upperBound = 999999999999999999 := by decide
      omega
    simp [low]
  unfold scaleMantissa
  rw [if_neg (by omega)]
  by_cases large : 18 ≤ exponent
  · rw [if_pos (by omega), if_neg (by omega)]
  · rw [if_neg (by omega), Int.toNat_natCast]
    have scaled : 0 ≤ mantissa * 10 ^ exponent := by positivity
    cases exponent with
    | zero =>
      rw [timesTen, bind_eq_bind, bind_some, pow_zero, mul_one]
      by_cases above : 4200000000000000000 < mantissa
      · rw [if_pos ((final mantissa nonneg).mpr above), if_neg (by omega)]
      · rw [if_neg (mt (final mantissa nonneg).mp above), if_pos ⟨by norm_num, by omega⟩]
    | succ count =>
      have shift : mantissa * 10 ^ (count + 1) = 10 * (mantissa * 10 ^ count) := by ring
      rw [timesTen_succ 420000000000000000 bounded count nonneg, bind_eq_bind]
      by_cases within : mantissa * 10 ^ count ≤ 420000000000000000
      · rw [if_pos within, bind_some,
          if_neg (mt (final _ scaled).mp (by omega)), if_pos ⟨by omega, by omega⟩]
      · rw [if_neg within, if_neg (by omega)]
        rfl

theorem parseFixedPoint_digits (n : Nat) (rest : List Char) (decimals : Nat) :
    parseFixedPoint (Nat.toDigits 10 n ++ rest) decimals =
      (readWhole (Nat.toDigits 10 n ++ rest)).bind fun whole =>
        (readFraction whole.2 whole.1).bind fun read => (readPower read.2.2).bind fun power =>
            if power.2 ≠ [] then none
            else scaleMantissa read.1.mantissa (power.1 - read.2.1 + read.1.tzeros + decimals) := by
  have unsigned : ∀ text, Nat.toDigits 10 n ++ rest ≠ '-' :: text := by
    intro text signed
    have nonempty : Nat.toDigits 10 n ≠ [] := Nat.toDigits_ne_nil
    obtain ⟨ch, digits, whole⟩ := exists_cons_of_ne_nil nonempty
    have digit : ch.isDigit = true :=
      Nat.isDigit_of_mem_toDigits (by norm_num) (by norm_num) (whole ▸ mem_cons_self)
    rw [whole, cons_append] at signed
    rw [(List.cons.inj signed).1] at digit
    cases digit
  unfold parseFixedPoint
  split
  rename_i negative text parts
  split at parts
  · rename_i signed
    exact absurd signed (unsigned _)
  · cases parts
    rfl

theorem parse_valueFromAmountString {amount units : Nat} (unitsBound : units ≤ 8)
    (divisible : 10 ^ (8 - units) ∣ amount) :
    (Short (amount / 10 ^ (8 - units)) → ∃ read : Mantissa,
      read.Spells (amount / 10 ^ (8 - units)) ∧ (amount = 0 → read.tzeros ≤ units) ∧
      parseFixedPoint (valueFromAmountString amount units) 8 =
        scaleMantissa read.mantissa ((read.tzeros + (8 - units) : Nat) : Int)) ∧
    (¬ Short (amount / 10 ^ (8 - units)) →
      parseFixedPoint (valueFromAmountString amount units) 8 = none) := by
  have split8 : 10 ^ units * 10 ^ (8 - units) = 100000000 := by
    rw [← pow_add, Nat.add_sub_cancel' unitsBound]
    norm_num
  -- the number of smallest units is the quotient followed by the remainder
  have remainderFits : amount % 100000000 / 10 ^ (8 - units) < 10 ^ units := by
    rw [Nat.div_lt_iff_lt_mul (by positivity), split8]
    exact Nat.mod_lt _ (by norm_num)
  have number : amount / 10 ^ (8 - units) =
      amount / 100000000 * 10 ^ units + amount % 100000000 / 10 ^ (8 - units) := by
    obtain ⟨count, rfl⟩ := divisible
    have ten : 0 < 10 ^ (8 - units) := by positivity
    rw [Nat.mul_div_cancel_left _ ten, ← split8, mul_comm (10 ^ units), Nat.mul_mod_mul_left,
      Nat.mul_div_cancel_left _ ten, Nat.mul_div_mul_left _ _ ten]
    exact (Nat.div_add_mod' count (10 ^ units)).symm
  have unsigned : ¬ (amount : Int) < 0 := by omega
  rw [number]
  rcases Nat.eq_zero_or_pos units with rfl | positive
  · have none : amount % 100000000 / 10 ^ (8 - 0) = 0 := by omega
    have text : valueFromAmountString amount 0 = Nat.toDigits 10 (amount / 100000000) ++ [] := by
      simp [valueFromAmountString, unsigned]
    rw [none, pow_zero, mul_one, add_zero, text, parseFixedPoint_digits]
    obtain ⟨whole, fails⟩ := @readWhole_spells [] (fun ch absent => by cases absent)
      (amount / 100000000)
    refine ⟨fun short => ?_, fun long => by rw [fails long]; rfl⟩
    obtain ⟨read, spells, zeros, reads⟩ := whole short
    refine ⟨read, spells, fun zero => by rw [zeros (by rw [zero])], ?_⟩
    rw [reads]
    simp [readFraction, readPower]
  · have text : valueFromAmountString amount units = Nat.toDigits 10 (amount / 100000000) ++
        '.' :: padded units (amount % 100000000 / 10 ^ (8 - units)) := by
      simp [valueFromAmountString, unsigned, positive.ne']
    rw [text, parseFixedPoint_digits]
    obtain ⟨whole, fails⟩ := @readWhole_spells
      ('.' :: padded units (amount % 100000000 / 10 ^ (8 - units)))
      (fun ch head => by cases head; rfl) (amount / 100000000)
    have shortWhole : Short (amount / 100000000 * 10 ^ units +
        amount % 100000000 / 10 ^ (8 - units)) → Short (amount / 100000000) := by
      rw [← ofDigitChars_padded positive remainderFits]
      exact short_of_ofDigitChars fun ch => isDigit_of_mem_padded
    by_cases short : Short (amount / 100000000)
    · obtain ⟨read, spells, zeros, reads⟩ := whole short
      obtain ⟨fraction, fractionFails⟩ := readFraction_spells positive remainderFits spells short
      rw [reads]
      refine ⟨fun fits => ?_, fun long => by simp [fractionFails long]⟩
      obtain ⟨final, spellsFinal, bounded, readsFinal⟩ := fraction fits
      refine ⟨final, spellsFinal, fun zero => ?_, ?_⟩
      · rw [zeros (by rw [zero]), zero_add] at bounded
        exact bounded
      · rw [bind_some, readsFinal, bind_some]
        simp only [readPower, bind_some, ne_eq, not_true_eq_false, if_false]
        congr 1
        push_cast [Nat.cast_sub unitsBound]
        ring
    · exact ⟨fun fits => absurd (shortWhole fits) short, fun _ => by rw [fails short]; rfl⟩

def ReadableAmount (amount : Nat) : Prop :=
  amount < 10 ^ 18 ∨ (amount ≤ 42 * 10 ^ 17 ∧ 10 ∣ amount ∧ ¬ 10 ^ 18 ∣ amount)

instance (amount : Nat) : Decidable (ReadableAmount amount) :=
  inferInstanceAs (Decidable (_ ∨ _))

theorem readableAmount_iff {mantissa exponent : Nat} (reduced : mantissa = 0 ∨ ¬ 10 ∣ mantissa)
    (zero : mantissa = 0 → exponent < 18) (short : mantissa < 10 ^ 18) :
    exponent < 18 ∧ mantissa * 10 ^ exponent ≤ 42 * 10 ^ 17 ↔
      ReadableAmount (mantissa * 10 ^ exponent) := by
  have divides : 10 ^ 18 ∣ mantissa * 10 ^ exponent ↔ mantissa = 0 ∨ 18 ≤ exponent := by
    constructor
    · intro whole
      by_contra neither
      obtain ⟨nonzero, small⟩ := not_or.mp neither
      have powers : 10 ^ 18 = 10 ^ (18 - exponent) * 10 ^ exponent := by
        rw [← pow_add]
        congr 1
        omega
      rw [powers] at whole
      have ten := Nat.dvd_of_mul_dvd_mul_right (by positivity) whole
      refine reduced.resolve_left nonzero (Dvd.dvd.trans ?_ ten)
      exact dvd_pow_self 10 (by omega)
    · rintro (rfl | large)
      · simp
      · exact Dvd.dvd.mul_left (pow_dvd_pow 10 large) mantissa
  have last : 10 ∣ mantissa * 10 ^ exponent ↔ mantissa = 0 ∨ 1 ≤ exponent := by
    cases exponent with
    | zero =>
      rw [pow_zero, mul_one]
      exact ⟨fun ten => .inl (reduced.resolve_right (not_not.mpr ten)), fun case => by omega⟩
    | succ count => exact ⟨fun _ => .inr (by omega), fun _ => ⟨mantissa * 10 ^ count, by ring⟩⟩
  rw [ReadableAmount, divides, last]
  have grows : mantissa ≠ 0 → 18 ≤ exponent → 10 ^ 18 ≤ mantissa * 10 ^ exponent := by
    intro nonzero large
    calc 10 ^ 18 ≤ 10 ^ exponent := Nat.pow_le_pow_right (by norm_num) large
      _ ≤ mantissa * 10 ^ exponent := Nat.le_mul_of_pos_left _ (Nat.pos_of_ne_zero nonzero)
  have same : exponent = 0 → mantissa * 10 ^ exponent = mantissa := by
    rintro rfl
    simp
  have none : mantissa = 0 → mantissa * 10 ^ exponent = 0 := by
    rintro rfl
    simp
  generalize mantissa * 10 ^ exponent = amount at *
  omega

/-- An amount of an asset, or of PHI, printed by the node is read back as the same
amount exactly when it is below `10 ^ 18`, or at most `42 * 10 ^ 17` with a last digit 0
and not a multiple of `10 ^ 18`. -/
theorem amount_text_round_trip_iff (units amount : Nat) (unitsBound : units ≤ 8)
    (money : (amount : Int) ≤ maxMoney) (divisible : 10 ^ (8 - units) ∣ amount) (isPHI : Bool) :
    ∀ value ∈ [UniValue.num (valueFromAmountString amount units),
        UniValue.str (valueFromAmountString amount units)],
      (amountFromValue value isPHI = .ok amount ↔ ReadableAmount amount) := by
  have maxMoney_eq : maxMoney = 5000000000000000000 := by decide
  have parsed : parseFixedPoint (valueFromAmountString amount units) 8 = some (amount : Int) ↔
      ReadableAmount amount := by
    obtain ⟨reads, fails⟩ := parse_valueFromAmountString unitsBound divisible
    obtain ⟨count, counted⟩ := divisible
    have number : amount / 10 ^ (8 - units) = count := by
      rw [counted]
      exact Nat.mul_div_cancel_left _ (by positivity)
    rw [number] at reads fails
    by_cases short : Short count
    · obtain ⟨read, spells, zeros, result⟩ := reads short
      obtain ⟨mantissa, natural⟩ := Int.eq_ofNat_of_zero_le spells.nonneg
      have value := spells.value
      have reduced := spells.reduced
      have small := spells.bounded
      rw [natural] at value reduced small result
      norm_cast at value reduced small
      have whole : amount = mantissa * 10 ^ (read.tzeros + (8 - units)) := by
        rw [counted, ← value, pow_add]
        ring
      rw [result, scaleMantissa_eq (Int.natCast_nonneg mantissa), whole]
      rw [← readableAmount_iff reduced (fun none => ?_) small]
      · norm_cast
        split <;> simp_all
      · have := zeros (by rw [whole, none, zero_mul])
        omega
    · -- a number with more than 18 digits is the amount itself and has no last digit 0
      rw [fails short]
      refine iff_of_false (by simp) ?_
      have large : 10 ^ 18 ≤ count := by
        by_contra less
        exact short ⟨0, one_dvd count, by simpa using less⟩
      have last : ¬ 10 ∣ count := by
        intro ten
        refine short ⟨1, by simpa using ten, ?_⟩
        have bound : count ≤ amount := by
          rw [counted]
          exact Nat.le_mul_of_pos_left count (by positivity)
        rw [pow_one]
        omega
      have only : units = 8 := by
        by_contra fewer
        have ten : 10 ≤ 10 ^ (8 - units) := by
          calc 10 = 10 ^ 1 := (pow_one 10).symm
            _ ≤ 10 ^ (8 - units) := Nat.pow_le_pow_right (by norm_num) (by omega)
        have bound : 10 * count ≤ amount := by
          rw [counted]
          exact Nat.mul_le_mul_right count ten
        omega
      rw [only, Nat.sub_self, pow_zero, one_mul] at counted
      rw [counted, ReadableAmount]
      omega
  intro value member
  have text : value.getValStr = some (valueFromAmountString amount units) := by
    rcases mem_pair.mp member with rfl | rfl <;> rfl
  rw [← parsed]
  unfold amountFromValue
  rw [text]
  cases result : parseFixedPoint (valueFromAmountString amount units) 8 with
  | none => simp [require?, result, bind, Except.bind]
  | some found =>
    constructor
    · intro reads
      obtain ⟨_, same, reads⟩ := bind_eq_ok.mp reads
      cases same
      obtain ⟨_, same, reads⟩ := bind_eq_ok.mp reads
      rw [require?_eq_ok, result] at same
      obtain ⟨_, _, reads⟩ := bind_eq_ok.mp reads
      rw [← pure_eq_ok.mp reads, same]
    · intro same
      obtain rfl := Option.some.inj same
      have inRange : moneyRange (amount : Int) = true := by
        simp [moneyRange, money]
      simp [require?, result, require, inRange, bind, Except.bind, pure, Except.pure]

/-- An amount of 41 999 999 999.99999990 is read back. -/
theorem amount_text_round_trip_iff_large :
    amountFromValue (.num (valueFromAmountString 4199999999999999990 8)) true =
      .ok 4199999999999999990 :=
  (amount_text_round_trip_iff 8 4199999999999999990 (by decide) (by decide) (by decide) true _
    mem_cons_self).mpr (by decide)

/-- Ten billion are printed as `10000000000`, which is refused. -/
theorem ten_billion_is_refused :
    valueFromAmountString 1000000000000000000 0 = "10000000000".toList ∧
      amountFromValue (.str (valueFromAmountString 1000000000000000000 0)) true =
        .error "Invalid amount (3): 10000000000" := by
  decide +kernel

end Phicoin
