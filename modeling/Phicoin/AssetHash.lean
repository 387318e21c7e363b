import Phicoin.Base58
import Phicoin.ScriptRoundTrip

/-! # Hashes of assets

A hash is given as a text: 46 characters in Base58 for an IPFS hash, 64 in hexadecimal
for a transaction id.  It is accepted by the look of the text, `Qm` and its length, and
stored without its first two bytes, which are put back as `0x12 0x20` when it is read.
Every multihash of SHA2-256 has such a text, but so have other numbers. -/

namespace Phicoin

open List

def hexDigitValue (c : UInt8) : Nat :=
  if between '0' '9' c then c.toNat - 48
  else if between 'a' 'f' c then c.toNat - 87
  else c.toNat - 55

/-- `ParseHex` of a text that has no spaces. -/
def parseHex : Bytes → Bytes
  | high :: low :: rest =>
    if isHexDigit high && isHexDigit low then
      UInt8.ofNat (16 * hexDigitValue high + hexDigitValue low) :: parseHex rest
    else []
  | _ => []

/-- `DecodeAssetData`; what `DecodeBase58` refuses is the empty text. -/
def decodeAssetData (encoded : Bytes) : Bytes :=
  if encoded.length = 46 then (decodeBase58 encoded).getD []
  else if encoded.length = 64 && isHex encoded then parseHex encoded
  else []

def IsBase58Text (text : Bytes) : Prop := ∀ c ∈ text, c ∈ base58Alphabet

def lowered (c : UInt8) : UInt8 := if between 'A' 'Z' c then c + 32 else c

theorem hexDigit_hexDigitValue : ∀ n < 256, isHexDigit (UInt8.ofNat n) = true →
    hexDigitValue (UInt8.ofNat n) < 16 ∧
      hexDigit (hexDigitValue (UInt8.ofNat n)) = lowered (UInt8.ofNat n) := by
  decide +kernel

theorem hexDigit_of_isHexDigit {c : UInt8} (isDigit : isHexDigit c = true) :
    hexDigitValue c < 16 ∧ hexDigit (hexDigitValue c) = lowered c := by
  have spec := hexDigit_hexDigitValue c.toNat c.toNat_lt
  rw [UInt8.ofNat_toNat] at spec
  exact spec isDigit

theorem hexStr_parseHex (text : Bytes) (digits : ∀ c ∈ text, isHexDigit c = true)
    (even : text.length % 2 = 0) :
    hexStr (parseHex text) = text.map lowered ∧ 2 * (parseHex text).length = text.length := by
  fun_induction parseHex text with
  | case1 high low rest isDigits ih =>
    rw [forall_mem_cons, forall_mem_cons] at digits
    obtain ⟨highDigit, lowDigit, restDigits⟩ := digits
    obtain ⟨text, length⟩ := ih restDigits (by simp at even; omega)
    obtain ⟨highSmall, highText⟩ := hexDigit_of_isHexDigit highDigit
    obtain ⟨lowSmall, lowText⟩ := hexDigit_of_isHexDigit lowDigit
    have value : (UInt8.ofNat (16 * hexDigitValue high + hexDigitValue low)).toNat =
        16 * hexDigitValue high + hexDigitValue low := by
      rw [UInt8.toNat_ofNat']
      omega
    have upper : (16 * hexDigitValue high + hexDigitValue low) / 16 = hexDigitValue high := by
      omega
    have lower : (16 * hexDigitValue high + hexDigitValue low) % 16 = hexDigitValue low := by
      omega
    refine ⟨?_, by simp; omega⟩
    unfold hexStr at text ⊢
    rw [flatMap_cons, value, upper, lower, highText, lowText, text]
    rfl
  | case2 high low rest notDigits =>
    rw [forall_mem_cons, forall_mem_cons] at digits
    simp [digits.1, digits.2.1] at notDigits
  | case3 text short =>
    match text, even with
    | [], _ => exact ⟨rfl, rfl⟩
    | [_], even => simp at even
    | high :: low :: rest, _ => exact absurd rfl (short high low rest)

theorem base58Alphabet_spec {c : UInt8} (member : c ∈ base58Alphabet) :
    c ≠ 0 ∧ isSpace c = false ∧ base58Alphabet.idxOf c < 58 ∧
      base58Char (base58Alphabet.idxOf c) = c ∧ (base58Alphabet.idxOf c = 0 ↔ c = 49) := by
  obtain ⟨digit, bound, rfl⟩ := mem_iff_getElem.mp member
  have size : base58Alphabet.length = 58 := by decide
  have char : base58Char digit = base58Alphabet[digit] := by
    unfold base58Char
    rw [getD_eq_getElem?_getD, getElem?_eq_getElem bound]
    rfl
  obtain ⟨nonzero, space, one, _, index⟩ := base58Char_spec digit (size ▸ bound)
  rw [char] at nonzero space one index
  rw [index, char]
  exact ⟨nonzero, space, size ▸ bound, rfl, one.symm⟩

def bytesOf (value : Nat) : Bytes := (Nat.digits 256 value).reverse.map UInt8.ofNat

theorem bytesOf_toNat (value : Nat) :
    (bytesOf value).map UInt8.toNat = (Nat.digits 256 value).reverse := by
  unfold bytesOf
  rw [map_map]
  conv_rhs => rw [← map_id (Nat.digits 256 value).reverse]
  refine map_congr_left fun d member => ?_
  have small : d < 256 := Nat.digits_lt_base (by decide) (mem_reverse.mp member)
  simp only [Function.comp, id_eq, UInt8.toNat_ofNat']
  omega

theorem bytesValue_bytesOf (value : Nat) : bytesValue (bytesOf value) = value := by
  rw [bytesValue, bytesOf_toNat, horner_eq_ofDigits, reverse_reverse, Nat.ofDigits_digits]

theorem dropZeros_bytesOf (value : Nat) : (bytesOf value).dropWhile (· = 0) = bytesOf value := by
  rw [dropWhile_eq_self_iff]
  intro nonempty
  have positive : value ≠ 0 := by
    rintro rfl
    simp [bytesOf] at nonempty
  intro isZero
  have first : ((bytesOf value).map UInt8.toNat)[0]? = some 0 := by
    rw [getElem?_map, getElem?_eq_getElem nonempty, of_decide_eq_true isZero]
    rfl
  rw [bytesOf_toNat, ← head?_eq_getElem?, head?_reverse, getLast?_eq_some_getLast
    (Nat.digits_ne_nil_iff_ne_zero.mpr positive)] at first
  exact Nat.getLast_digit_ne_zero 256 positive (Option.some.inj first)

/-- The number that the digits of a text denote; ones in front of it are zeros. -/
def textValue (text : Bytes) : Nat := horner 58 (text.map base58Alphabet.idxOf)

variable {text : Bytes}

theorem textDigits_lt (isText : IsBase58Text text) :
    ∀ d ∈ text.map base58Alphabet.idxOf, d < 58 := by
  intro d member
  obtain ⟨c, inText, rfl⟩ := mem_map.mp member
  exact (base58Alphabet_spec (isText c inText)).2.2.1

theorem IsBase58Text.dropOnes (isText : IsBase58Text text) :
    IsBase58Text (text.dropWhile (· = 49)) :=
  fun c member => isText c (dropWhile_subset _ member)

theorem decodeBase58_text (isText : IsBase58Text text) : decodeBase58 text = some (replicate
      (text.length - (text.dropWhile (· = 49)).length) 0 ++
        bytesOf (textValue (text.dropWhile (· = 49)))) := by
  have noNul : text.takeWhile (· ≠ 0) = text := by
    rw [takeWhile_eq_self_iff]
    intro c member
    simpa using (base58Alphabet_spec (isText c member)).1
  have noSpace : text.dropWhile isSpace = text := by
    rw [dropWhile_eq_self_iff]
    intro nonempty
    simpa using (base58Alphabet_spec (isText _ (getElem_mem nonempty))).2.1
  have restText := isText.dropOnes
  set rest := text.dropWhile (· = 49) with restEq
  have wholeText : rest.takeWhile (fun c => !isSpace c) = rest := by
    rw [takeWhile_eq_self_iff]
    intro c member
    simpa using (base58Alphabet_spec (restText c member)).2.1
  have inAlphabet : rest.all (base58Alphabet.contains ·) = true := by
    rw [all_eq_true]
    intro c member
    exact contains_iff_mem.mpr (restText c member)
  have room : horner 58 (rest.map base58Alphabet.idxOf) <
      256 ^ (rest.length * 733 / 1000 + 1) := by
    have bound := (horner_lt (by decide) (textDigits_lt restText)).trans_le (pow_58_le _)
    rwa [length_map] at bound
  unfold decodeBase58
  simp only [noNul, noSpace, ← restEq, wholeText, inAlphabet, drop_length, all_nil,
    Bool.true_and, if_true]
  rw [convertDigits_eq (by decide) (by decide) room]
  rfl

theorem encodeBase58_of_decodeBase58 {data : Bytes} (isText : IsBase58Text text)
    (decoded : decodeBase58 text = some data) : encodeBase58 data = text := by
  have restText := isText.dropOnes
  have dataEq := Option.some.inj (decoded.symm.trans (decodeBase58_text isText))
  set rest := text.dropWhile (· = 49) with restEq
  have tail : data.dropWhile (· = 0) = bytesOf (textValue rest) := by
    rw [dataEq, dropWhile_append_of_pos (by
      intro byte member
      simp [eq_of_mem_replicate member])]
    exact dropZeros_bytesOf _
  have digits : Nat.digits 58 (textValue rest) = (rest.map base58Alphabet.idxOf).reverse := by
    rw [textValue, horner_eq_ofDigits]
    refine Nat.digits_ofDigits 58 (by decide) _ (fun d member =>
      textDigits_lt restText d (mem_reverse.mp member)) fun nonempty => ?_
    rw [getLast_reverse, head_map]
    have notOne := head?_dropWhile_not (fun c : UInt8 => decide (c = 49)) text
    rw [← restEq, head?_eq_some_head (by simpa using nonempty)] at notOne
    rw [ne_eq, (base58Alphabet_spec (restText _ (head_mem _))).2.2.2.2]
    simpa using notOne
  have count : data.length - (bytesOf (textValue rest)).length = text.length - rest.length := by
    rw [dataEq, length_append, length_replicate]
    omega
  have chars : base58Text (bytesOf (textValue rest)) = rest := by
    unfold base58Text base58Digits
    rw [bytesValue_bytesOf, digits, reverse_reverse, map_map]
    conv_rhs => rw [← map_id rest]
    refine map_congr_left fun c member => ?_
    exact (base58Alphabet_spec (restText c member)).2.2.2.1
  rw [encodeBase58_eq, tail, count, chars]
  exact leading_append 49 text

theorem length_encodeBase58_le (data : Bytes) :
    (encodeBase58 data).length ≤ data.length * 138 / 100 + 1 := by
  have shorter : (data.dropWhile (· = 0)).length ≤ data.length :=
    (dropWhile_sublist _).length_le
  have digits : (base58Text (data.dropWhile (· = 0))).length ≤
      (data.dropWhile (· = 0)).length * 138 / 100 + 1 := by
    unfold base58Text base58Digits
    rw [length_map, length_reverse, Nat.digits_length_le_iff (by decide)]
    exact (bytesValue_lt _).trans_le (pow_256_le _)
  rw [encodeBase58_eq, length_append, length_replicate]
  omega

theorem bytesValue_append (left right : Bytes) :
    bytesValue (left ++ right) = bytesValue left * 256 ^ right.length + bytesValue right := by
  unfold bytesValue
  rw [map_append, horner_eq_ofDigits, reverse_append, Nat.ofDigits_append,
    horner_eq_ofDigits, horner_eq_ofDigits, length_reverse, length_map]
  ring

theorem drop_digits (base position value : Nat) (large : 1 < base) :
    (Nat.digits base value).drop position = Nat.digits base (value / base ^ position) := by
  rw [Nat.self_div_pow_eq_ofDigits_drop position value large]
  refine (Nat.digits_ofDigits base large _ (fun d member =>
    Nat.digits_lt_base large (mem_of_mem_drop member)) fun nonempty => ?_).symm
  rw [getLast_drop nonempty]
  refine Nat.getLast_digit_ne_zero base ?_
  rintro rfl
  simp at nonempty

theorem multihash_leading {body : Bytes} (size : body.length = 32) :
    bytesValue ([ipfsSha2, ipfsSha2Len] ++ body) / 58 ^ 44 = 23 * 58 + 44 := by
  have bound := bytesValue_lt body
  have lead : bytesValue [ipfsSha2, ipfsSha2Len] = 0x1220 := by decide
  rw [size] at bound
  rw [bytesValue_append, lead, size]
  refine Nat.div_eq_of_lt_le ?_ ?_
  · norm_num
    omega
  · norm_num at bound ⊢
    omega

theorem encodeBase58_multihash {body : Bytes} (size : body.length = 32) :
    (encodeBase58 ([ipfsSha2, ipfsSha2Len] ++ body)).take 2 = ascii "Qm" ∧
      (encodeBase58 ([ipfsSha2, ipfsSha2Len] ++ body)).length = 46 := by
  have whole : ([ipfsSha2, ipfsSha2Len] ++ body).dropWhile (· = 0) =
      [ipfsSha2, ipfsSha2Len] ++ body := rfl
  set value := bytesValue ([ipfsSha2, ipfsSha2Len] ++ body) with valueEq
  have top : (Nat.digits 58 value).drop 44 = [44, 23] := by
    rw [drop_digits 58 44 value (by decide), multihash_leading size]
    norm_num
  have split : Nat.digits 58 value = (Nat.digits 58 value).take 44 ++ [44, 23] := by
    rw [← top, take_append_drop]
  have count : ((Nat.digits 58 value).take 44).length = 44 := by
    have total := congrArg List.length top
    rw [length_drop, length_cons, length_singleton] at total
    rw [length_take]
    omega
  have text : encodeBase58 ([ipfsSha2, ipfsSha2Len] ++ body) = ascii "Qm" ++
      ((Nat.digits 58 value).take 44).reverse.map base58Char := by
    rw [encodeBase58_eq, whole, Nat.sub_self, base58Text, base58Digits, ← valueEq, split,
      take_left' count]
    rw [reverse_append, map_append]
    rfl
  rw [text]
  refine ⟨rfl, ?_⟩
  rw [length_append, length_map, length_reverse, count]
  rfl

def IsHashText (text : Bytes) : Prop :=
  (text.length = 46 ∧ IsBase58Text text) ∨ (text.length = 64 ∧ isHex text = true)

theorem accepted_length {env : Env} {hash : Bytes} (accepted : checkEncoded env hash = .ok ()) :
    hash.length = 34 ∨ hash.length = 32 := by
  by_contra neither
  rw [not_or] at neither
  have empty : encodeAssetData hash = [] := by
    unfold encodeAssetData
    rw [if_neg neither.1, if_neg neither.2]
  unfold checkEncoded at accepted
  rw [empty] at accepted
  simp at accepted

theorem accepted_base58 {env : Env} (size : text.length = 46)
    (isText : IsBase58Text text) (accepted : checkEncoded env (decodeAssetData text) = .ok ()) :
    (decodeAssetData text).length = 34 ∧ encodeAssetData (decodeAssetData text) = text := by
  have length := accepted_length accepted
  have dataEq : decodeAssetData text = (decodeBase58 text).getD [] := by
    unfold decodeAssetData
    rw [if_pos size]
  cases decoded : decodeBase58 text with
  | none =>
    rw [dataEq, decoded] at length
    simp at length
  | some data =>
    rw [dataEq, decoded, Option.getD_some] at length ⊢
    -- a text of 46 characters is too long for 32 bytes
    have inverse := encodeBase58_of_decodeBase58 isText decoded
    have shorter := length_encodeBase58_le data
    rw [inverse, size] at shorter
    have exactly : data.length = 34 := by omega
    refine ⟨exactly, ?_⟩
    unfold encodeAssetData
    rw [if_pos exactly, inverse]

theorem decoded_hex (size : text.length = 64) (hex : isHex text = true) :
    (decodeAssetData text).length = 32 ∧
      encodeAssetData (decodeAssetData text) = text.map lowered := by
  have digits : ∀ c ∈ text, isHexDigit c = true := by
    simp only [isHex, Bool.and_eq_true, all_eq_true] at hex
    exact hex.1.1
  obtain ⟨back, half⟩ := hexStr_parseHex text digits (by rw [size])
  have parsed : decodeAssetData text = parseHex text := by
    unfold decodeAssetData
    rw [if_neg (by omega), if_pos (by simp [size, hex])]
  have length : (parseHex text).length = 32 := by omega
  rw [parsed]
  refine ⟨length, ?_⟩
  unfold encodeAssetData
  rw [if_neg (by omega), if_pos length, back]

theorem readAssetHash_writeAssetHash {hash : Bytes} (size : hash.length = 34) :
    readAssetHash (writeAssetHash hash) =
      some (([ipfsSha2, ipfsSha2Len] ++ hash.drop 2, true), []) := by
  have body : (hash.drop 2).length = 32 := by rw [length_drop, size]
  have read := @readAssetHash_present [] ipfsSha2 (hash.drop 2) body
  rw [append_nil, if_pos rfl] at read
  rw [writeAssetHash, if_pos size, read]

/-- An accepted hash is stored unchanged exactly when it is a transaction id or its
decoded bytes begin with `0x12 0x20`; and every multihash of SHA2-256 is accepted. -/
theorem hash_stored_unchanged_iff (env : Env) (text : Bytes) (isText : IsHashText text)
    (accepted : checkEncoded env (decodeAssetData text) = .ok ()) :
    ((∃ result present, readAssetHash (writeAssetHash (decodeAssetData text)) =
        some ((result, present), []) ∧ result = decodeAssetData text ∧
        encodeAssetData result = (if text.length = 64 then text.map lowered else text)) ↔
      (text.length = 64 ∨ (decodeAssetData text).take 2 = [ipfsSha2, ipfsSha2Len])) ∧
    ∀ body : Bytes, body.length = 32 →
      checkEncoded env ([ipfsSha2, ipfsSha2Len] ++ body) = .ok () := by
  constructor
  · rcases isText with ⟨size, base58⟩ | ⟨size, hex⟩
    · obtain ⟨length, encoded⟩ := accepted_base58 size base58 accepted
      have notHex : ¬ text.length = 64 := by omega
      simp only [notHex, if_false, false_or]
      rw [readAssetHash_writeAssetHash length]
      constructor
      · rintro ⟨result, present, read, same, _⟩
        obtain ⟨resultEq, _⟩ := Prod.mk.inj (Prod.mk.inj (Option.some.inj read)).1
        rw [← same, ← resultEq]
        rfl
      · intro lead
        refine ⟨_, _, rfl, ?_, ?_⟩
        · rw [← lead, take_append_drop]
        · rw [← lead, take_append_drop, encoded]
    · obtain ⟨length, encoded⟩ := decoded_hex size hex
      have stored := @readAssetHash_write [] _ (.inr (.inl length)) fun empty => by simp
      rw [append_nil] at stored
      simp only [size, if_true, true_or, iff_true]
      exact ⟨_, _, stored, rfl, encoded⟩
  · intro body size
    obtain ⟨start, length⟩ := encodeBase58_multihash size
    have encoded : encodeAssetData ([ipfsSha2, ipfsSha2Len] ++ body) =
        encodeBase58 ([ipfsSha2, ipfsSha2Len] ++ body) := by
      unfold encodeAssetData
      rw [if_pos (by simp [size])]
    unfold checkEncoded
    simp only [encoded, start, length]
    rfl

def multihashText : Bytes := ascii "QmNLfbof5rLekrACjeuLk9JmGZD2HDBHCU4z16iYKmx5SE"

theorem decodeAssetData_multihashText :
    decodeAssetData multihashText = [18, 32] ++ (range 32).map UInt8.ofNat := by
  decide +kernel

theorem hash_stored_unchanged_iff_multihash :
    checkEncoded MainNet.env (decodeAssetData multihashText) = .ok () ∧
    ∃ result present, readAssetHash (writeAssetHash (decodeAssetData multihashText)) =
      some ((result, present), []) ∧ result = decodeAssetData multihashText ∧
      encodeAssetData result = multihashText := by
  have isText : IsHashText multihashText :=
    .inl ⟨by decide, by unfold IsBase58Text; decide +kernel⟩
  have accepted : checkEncoded MainNet.env (decodeAssetData multihashText) = .ok () := by
    rw [decodeAssetData_multihashText]
    decide +kernel
  obtain ⟨iff, _⟩ := hash_stored_unchanged_iff MainNet.env multihashText isText accepted
  refine ⟨accepted, iff.mpr (.inr ?_)⟩
  rw [decodeAssetData_multihashText]
  rfl

/-- A text that looks like one and decodes to `0x12 0x21` and 32 more bytes. -/
def otherText : Bytes := ascii "QmfZyyJSqT8hVcjHX58WvSVz55TWvXvVGZZ2xRaTkYU2gW"

theorem decodeAssetData_otherText :
    decodeAssetData otherText = [18, 33] ++ (range 32).map UInt8.ofNat := by
  decide +kernel

/-- It is accepted, and comes back with another second byte. -/
theorem other_text_is_changed :
    IsHashText otherText ∧ checkEncoded MainNet.env (decodeAssetData otherText) = .ok () ∧
    ∃ result present, readAssetHash (writeAssetHash (decodeAssetData otherText)) =
      some ((result, present), []) ∧ result ≠ decodeAssetData otherText ∧
      encodeAssetData result ≠ otherText := by
  rw [decodeAssetData_otherText]
  refine ⟨.inl ⟨by decide, by unfold IsBase58Text; decide +kernel⟩, by decide +kernel, ?_⟩
  exact ⟨_, _, readAssetHash_writeAssetHash (by decide), by decide, by decide +kernel⟩

end Phicoin
