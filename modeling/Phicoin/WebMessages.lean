import Mathlib.Data.Nat.Digits.Lemmas
import Phicoin.Lib.ByteReader

/-! # Signed messages of the web wallet

`messageHash` writes the length of a message as decimal digits, the daemon as a compact
size.  The two never hash the same bytes. -/

namespace Phicoin.Web

open ByteReader List

abbrev JsString := List UInt16

def isHighSurrogate (unit : UInt16) : Bool := 0xd800 ≤ unit && unit < 0xdc00

def isLowSurrogate (unit : UInt16) : Bool := 0xdc00 ≤ unit && unit < 0xe000

def utf8Bytes (code : Nat) : List UInt8 :=
  (if code < 0x80 then [code]
  else if code < 0x800 then [0xc0 + code / 64, 0x80 + code % 64]
  else if code < 0x10000 then [0xe0 + code / 4096, 0x80 + code / 64 % 64, 0x80 + code % 64]
  else [0xf0 + code / 262144, 0x80 + code / 4096 % 64, 0x80 + code / 64 % 64,
    0x80 + code % 64]).map UInt8.ofNat

def replacement : List UInt8 := utf8Bytes 0xfffd

/-- The UTF-8 bytes of what follows, after a high surrogate that waits for its partner. -/
def encodeAfter : Option UInt16 → JsString → List UInt8
  | none, [] => []
  | some _, [] => replacement
  | none, unit :: rest =>
      if isHighSurrogate unit then encodeAfter (some unit) rest
      else (if isLowSurrogate unit then replacement else utf8Bytes unit.toNat) ++
        encodeAfter none rest
  | some high, unit :: rest =>
      if isLowSurrogate unit then
        utf8Bytes (0x10000 + (high.toNat - 0xd800) * 0x400 + (unit.toNat - 0xdc00)) ++
          encodeAfter none rest
      else if isHighSurrogate unit then replacement ++ encodeAfter (some unit) rest
      else replacement ++ utf8Bytes unit.toNat ++ encodeAfter none rest

/-- `TextEncoder.encode`. -/
def textEncode (text : JsString) : List UInt8 := encodeAfter none text

def asciiUnits (text : String) : JsString := text.toList.map fun c => UInt16.ofNat c.toNat

def decimalUnits (n : Nat) : JsString :=
  if n = 0 then [48] else (Nat.digits 10 n).reverse.map fun d => UInt16.ofNat (48 + d)

/-- What `messageHash` hashes twice. -/
def messagePayload (message : JsString) : List UInt8 :=
  textEncode (asciiUnits "\x18PHICOIN Signed Message:\n" ++ decimalUnits message.length ++ message)

/-- What `signmessage` and `verifymessage` of the daemon hash twice. -/
def daemonPayload (message : List UInt8) : List UInt8 :=
  writeString (textEncode (asciiUnits "PHICOIN Signed Message:\n")) ++ writeString message

theorem length_utf8Bytes_le (code : Nat) (small : code < 0x10000) :
    (utf8Bytes code).length ≤ 3 := by
  unfold utf8Bytes
  split_ifs <;> simp

theorem length_encodeAfter_le (text : JsString) : ∀ waiting : Option UInt16,
      (encodeAfter waiting text).length ≤ 3 * (text.length + waiting.toList.length) := by
  have unitBytes : ∀ unit : UInt16, (utf8Bytes unit.toNat).length ≤ 3 :=
    fun unit => length_utf8Bytes_le _ unit.toNat_lt
  have lost : replacement.length = 3 := by decide
  have pair : ∀ code, (utf8Bytes code).length ≤ 4 := by
    intro code
    unfold utf8Bytes
    split_ifs <;> simp
  induction text with
  | nil => rintro (_ | high) <;> simp [encodeAfter, lost]
  | cons unit rest ih =>
    have open_ := ih (some unit)
    have closed := ih none
    have own := unitBytes unit
    simp only [Option.toList_none, Option.toList_some, length_nil, length_singleton]
      at open_ closed
    rintro (_ | high)
    · simp only [encodeAfter, Option.toList_none, length_nil, length_cons]
      split_ifs
      · omega
      all_goals
        rw [length_append]
        omega
    · have both := pair (0x10000 + (high.toNat - 0xd800) * 0x400 + (unit.toNat - 0xdc00))
      simp only [encodeAfter, Option.toList_some, length_cons]
      split_ifs <;> simp only [length_append] <;> omega

theorem textEncode_append {text rest : JsString} (ascii : ∀ unit ∈ text, unit < 0x80) :
    textEncode (text ++ rest) = text.map UInt16.toUInt8 ++ textEncode rest := by
  unfold textEncode
  induction text with
  | nil => rfl
  | cons unit text ih =>
    have small := UInt16.lt_iff_toNat_lt.mp (ascii unit mem_cons_self)
    have high : isHighSurrogate unit = false := by
      simp only [isHighSurrogate, Bool.and_eq_false_iff, decide_eq_false_iff_not,
        UInt16.le_iff_toNat_le]
      left
      simp at small ⊢
      omega
    have low : isLowSurrogate unit = false := by
      simp only [isLowSurrogate, Bool.and_eq_false_iff, decide_eq_false_iff_not,
        UInt16.le_iff_toNat_le]
      left
      simp at small ⊢
      omega
    have byte : utf8Bytes unit.toNat = [unit.toUInt8] := by
      simp at small
      simp [utf8Bytes, small]
    simp only [cons_append, encodeAfter, high, low, Bool.false_eq_true, if_false, byte,
      map_cons, nil_append, ih fun u member => ascii u (mem_cons_of_mem _ member)]

theorem decimalUnits_range {n : Nat} {unit : UInt16} (member : unit ∈ decimalUnits n) :
    48 ≤ unit.toNat ∧ unit.toNat < 58 := by
  unfold decimalUnits at member
  split at member
  · rw [mem_singleton.mp member]
    decide
  · obtain ⟨d, inDigits, rfl⟩ := mem_map.mp member
    have small := Nat.digits_lt_base (by decide) (mem_reverse.mp inDigits)
    rw [UInt16.toNat_ofNat_of_lt' (by rw [UInt16.size]; omega)]
    omega

theorem lt_ten_of_decimalUnits {n : Nat} (one : (decimalUnits n).length = 1) : n < 10 := by
  unfold decimalUnits at one
  split at one
  · omega
  · have := Nat.lt_base_pow_length_digits (b := 10) (m := n) (by decide)
    rw [length_map, length_reverse] at one
    rwa [one] at this

theorem decimalUnits_ne_writeCompactSize (message : JsString) :
    (decimalUnits message.length).map UInt16.toUInt8 ≠
      writeCompactSize (textEncode message).length := by
  intro same
  have size := length_encodeAfter_le message none
  have digit : ∀ byte ∈ writeCompactSize (textEncode message).length,
      48 ≤ byte.toNat ∧ byte.toNat < 58 := by
    rw [← same]
    intro byte member
    obtain ⟨unit, inDigits, rfl⟩ := mem_map.mp member
    have range := decimalUnits_range inDigits
    rw [UInt16.toNat_toUInt8]
    omega
  have lengths := congrArg List.length same
  rw [length_map] at lengths
  unfold writeCompactSize at digit lengths
  split_ifs at digit lengths with short
  · have := lt_ten_of_decimalUnits (lengths.trans (by simp [length_leBytes]))
    have first := digit _ (by simp [leBytes]; rfl)
    simp [textEncode] at size first short
    omega
  all_goals
    have first := digit _ (mem_append_left _ (mem_singleton_self _))
    simp at first

/-- No message is hashed to the same digest by the two: the bytes hashed differ. -/
theorem signed_messages_never_agree (message : JsString) :
    messagePayload message ≠ daemonPayload (textEncode message) := by
  intro same
  have ascii : ∀ unit ∈ asciiUnits "\x18PHICOIN Signed Message:\n" ++
      decimalUnits message.length, unit < 0x80 := by
    intro unit member
    rcases mem_append.mp member with inPrefix | inDigits
    · have small : (asciiUnits "\x18PHICOIN Signed Message:\n").all (· < 0x80) = true := by rfl
      exact of_decide_eq_true (all_eq_true.mp small unit inPrefix)
    · have := decimalUnits_range inDigits
      rw [UInt16.lt_iff_toNat_lt]
      exact Nat.lt_trans this.2 (by decide)
  have magic : (asciiUnits "\x18PHICOIN Signed Message:\n").map UInt16.toUInt8 =
      writeString (textEncode (asciiUnits "PHICOIN Signed Message:\n")) := by
    decide +kernel
  rw [messagePayload, textEncode_append ascii, map_append, magic, daemonPayload,
    append_assoc, append_cancel_left_eq, writeString, append_cancel_right_eq] at same
  exact decimalUnits_ne_writeCompactSize message same

/-- The empty message: one writes a digit, the other a zero byte. -/
theorem empty_message_differs : messagePayload [] ≠ daemonPayload (textEncode []) := by
  decide +kernel

end Phicoin.Web
