import Phicoin.ScriptRoundTrip
import Phicoin.Base58

/-! # Null-asset scripts read back

Tags, freezes and verifier strings are written with the shortest push and read at
a fixed position, one byte behind the opcode.  From 76 bytes on the push has its
length behind the opcode, and the parser takes the length for data. -/

namespace Phicoin

open ByteReader TwosComplement List NullAssetTxData

section

variable {payload rest : Bytes}

theorem pushData_direct (direct : payload.length < 0x4c) :
    pushData payload = UInt8.ofNat payload.length :: payload := by
  rw [pushData, if_pos direct]

theorem pushData_head (payload : Bytes) :
    ∃ opcode operand, pushData payload = opcode :: operand ∧ opcode ≠ opReserved ∧
      payload.length ≤ operand.length := by
  unfold pushData
  split_ifs with direct one two
  · refine ⟨_, _, rfl, ?_, le_refl _⟩
    intro reserved
    have value := congrArg UInt8.toNat reserved
    rw [UInt8.toNat_ofNat', Nat.mod_eq_of_lt (by omega)] at value
    have : opReserved.toNat = 0x50 := rfl
    omega
  · exact ⟨_, _, rfl, by decide, by simp⟩
  · exact ⟨_, _, rfl, by decide, by simp⟩
  · exact ⟨_, _, rfl, by decide, by simp⟩

theorem getOp_push (direct : payload.length < 0x4c) :
    getOp (pushData payload ++ rest) = some (UInt8.ofNat payload.length, payload, rest) := by
  have value : (UInt8.ofNat payload.length).toNat = payload.length := by
    rw [UInt8.toNat_ofNat', Nat.mod_eq_of_lt (by omega)]
  have below : UInt8.ofNat payload.length < opPushdata1 := by
    rw [UInt8.lt_iff_toNat_lt, value]
    exact direct
  rw [pushData_direct direct, cons_append, getOp, if_pos below, value, takeOperand]
  simp

theorem isPushOnly_pushes {first second : Bytes} (directFirst : first.length < 0x4c)
    (directSecond : second.length < 0x4c) :
    isPushOnly (pushData first ++ pushData second) = true := by
  have small : ∀ data : Bytes, data.length < 0x4c → UInt8.ofNat data.length ≤ op16 := by
    intro data direct
    rw [UInt8.le_iff_toNat_le, UInt8.toNat_ofNat', Nat.mod_eq_of_lt (by omega)]
    have : op16.toNat = 0x60 := rfl
    omega
  have fuel : ∃ n, (pushData first ++ pushData second).length = n + 2 := by
    rw [pushData_direct directFirst, pushData_direct directSecond]
    exact ⟨first.length + second.length, by simp; omega⟩
  obtain ⟨n, fuel⟩ := fuel
  have last : getOp (pushData second) = some (UInt8.ofNat second.length, second, []) := by
    simpa using @getOp_push second [] directSecond
  have nonempty : ∀ data rest : Bytes, data.length < 0x4c → (pushData data ++ rest).isEmpty = false := by
    intro data rest direct
    rw [pushData_direct direct]
    rfl
  have done : instructions n [] = ([], true) := by cases n <;> rfl
  have secondOps : instructions (n + 1) (pushData second) =
      ([(UInt8.ofNat second.length, second)], true) := by
    rw [instructions, if_neg (by simpa using nonempty second [] directSecond), last]
    simp only [done]
  have ops : instructions (n + 2) (pushData first ++ pushData second) =
      ([(UInt8.ofNat first.length, first), (UInt8.ofNat second.length, second)], true) := by
    rw [instructions, if_neg (by rw [nonempty _ _ directFirst]; decide), getOp_push directFirst]
    simp only [secondOps]
  simp [isPushOnly, fuel, ops, small first directFirst, small second directSecond]

end

theorem ofNat_cons_inj {a b : Nat} {r s : Bytes}
    (same : UInt8.ofNat a :: r = UInt8.ofNat b :: s) : a % 256 = b % 256 ∧ r = s := by
  obtain ⟨heads, tails⟩ := List.cons.inj same
  have value := congrArg UInt8.toNat heads
  rw [UInt8.toNat_ofNat', UInt8.toNat_ofNat'] at value
  exact ⟨value, tails⟩

theorem readText_long_push {text tail rest : Bytes} (short : tail.length ≤ 1)
    (long : ¬ (writeString text ++ tail).length < 0x4c) :
    readText ((pushData (writeString text ++ tail)).drop 1) ≠ some (text, rest) := by
  intro read
  obtain ⟨bounded, stream⟩ := readString_eq_some read
  simp only [maxSize] at bounded
  unfold pushData at stream
  rw [if_neg long] at stream
  generalize sizeEq : (writeString text ++ tail).length = size at long stream
  rw [writeString, length_append, length_append] at sizeEq
  rw [writeString] at stream
  rcases (by omega : text.length < 253 ∨ (253 ≤ text.length ∧ text.length ≤ 0xffff) ∨
    0xffff < text.length) with one | ⟨two, twoMax⟩ | four
  · have compact : writeCompactSize text.length = leBytes 1 text.length := by
      rw [writeCompactSize, if_pos one]
    rw [compact] at stream sizeEq
    rw [length_leBytes] at sizeEq
    rw [if_pos (by omega)] at stream
    obtain ⟨first, _⟩ := ofNat_cons_inj stream
    omega
  · have compact : writeCompactSize text.length = leBytes 1 253 ++ leBytes 2 text.length := by
      rw [writeCompactSize, if_neg (by omega), if_pos twoMax]
    rw [compact] at stream sizeEq
    rw [length_append, length_leBytes, length_leBytes] at sizeEq
    rw [if_neg (by omega)] at stream
    split_ifs at stream with width
    · -- 253 would be the low byte of the size, and the high byte of the text's length
      obtain ⟨first, stream⟩ := ofNat_cons_inj stream
      obtain ⟨second, stream⟩ := ofNat_cons_inj stream
      obtain ⟨third, _⟩ := ofNat_cons_inj stream
      simp only [Nat.mod_mod] at first second third
      have high : text.length / 256 = 253 := by omega
      have low : text.length % 256 = size / 256 := by omega
      omega
    · obtain ⟨first, _⟩ := ofNat_cons_inj stream
      omega
  · have compact : writeCompactSize text.length = leBytes 1 254 ++ leBytes 4 text.length := by
      rw [writeCompactSize, if_neg (by omega), if_neg (by omega), if_pos (by omega)]
    rw [compact] at stream sizeEq
    rw [length_append, length_leBytes, length_leBytes] at sizeEq
    rw [if_neg (by omega), if_neg (by omega)] at stream
    -- 254 would be the high byte of the text's length
    obtain ⟨_, stream⟩ := ofNat_cons_inj stream
    obtain ⟨_, stream⟩ := ofNat_cons_inj stream
    obtain ⟨_, stream⟩ := ofNat_cons_inj stream
    obtain ⟨_, stream⟩ := ofNat_cons_inj stream
    obtain ⟨fifth, _⟩ := ofNat_cons_inj stream
    omega

theorem length_writeString_lt (text : Bytes) {extra : Nat} :
    (writeString text).length + extra < 0x4c ↔ text.length + 1 + extra < 0x4c := by
  unfold writeString writeCompactSize
  split_ifs with one two four <;>
    simp only [length_append, length_leBytes] <;> omega

theorem length_writeString_gt (text : Bytes) : text.length < (writeString text).length := by
  unfold writeString writeCompactSize
  split_ifs <;> simp only [length_append, length_leBytes] <;> omega

theorem length_writeNull (name : Bytes) (flag : Int) :
    (writeNullAssetTxData ⟨name, flag⟩).length = (writeString name).length + 1 := by
  simp [writeNullAssetTxData, signedBytes, length_leBytes]

theorem readNull_pushed {name : Bytes} {flag : Int} (fits : Fits 8 flag) :
    (readNullAssetTxData ((pushData (writeNullAssetTxData ⟨name, flag⟩)).drop 1)).map Prod.fst =
      some ⟨name, flag⟩ ↔ name.length ≤ 73 := by
  have size := length_writeNull name flag
  have direct := @length_writeString_lt name 1
  constructor
  · intro read
    obtain ⟨⟨data, rest⟩, run, same⟩ := Option.map_eq_some_iff.mp read
    obtain ⟨text, middle, readName, run⟩ := run_bind.mp run
    obtain ⟨value, after, _, run⟩ := run_bind.mp run
    obtain ⟨built, _⟩ := run_pure.mp run
    have isName : text = name := by
      rw [built] at same
      exact congrArg assetName same
    by_contra long
    rw [isName] at readName
    refine @readText_long_push name (signedBytes 1 flag) middle ?_ ?_ readName
    · rw [signedBytes, length_leBytes]
    · change ¬ (writeNullAssetTxData ⟨name, flag⟩).length < 0x4c
      rw [size]
      omega
  · intro short
    rw [pushData_direct (by rw [size]; omega), drop_succ_cons, drop_zero]
    apply Option.map_eq_some_iff.mpr
    refine ⟨(⟨name, flag⟩, []), run_bind.mpr ⟨name, signedBytes 1 flag, ?_, ?_⟩, rfl⟩
    · exact @readText_writeString _ name (by omega)
    · refine run_bind.mpr ⟨flag, [], ?_, rfl⟩
      simpa using @readInt8_signedBytes [] flag fits

theorem readText_pushed (verifier : Bytes) :
    (readText ((pushData (writeString verifier)).drop 1)).map Prod.fst = some verifier ↔
      verifier.length ≤ 74 := by
  have direct := @length_writeString_lt verifier 0
  constructor
  · intro read
    obtain ⟨⟨text, rest⟩, run, same⟩ := Option.map_eq_some_iff.mp read
    obtain rfl : text = verifier := same
    by_contra long
    refine @readText_long_push text [] rest (by simp) ?_ (by simpa using run)
    rw [append_nil]
    omega
  · intro short
    rw [pushData_direct (by omega), drop_succ_cons, drop_zero]
    have read := @readText_writeString [] verifier (by omega)
    rw [append_nil] at read
    rw [read, Option.map_some]

def NullAssetName (name : Bytes) : Prop :=
  isAssetNameAQualifier name false = true ∨ isAssetNameAnRestricted name = true

theorem NullAssetName.second {name : Bytes} (valid : NullAssetName name) :
    ∃ c d rest, name = c :: d :: rest ∧ d ≠ opPhiAsset := by
  have upper : ∀ {d : UInt8},
      (between 'A' 'Z' d || between '0' '9' d || oneOf "._" d) = true → d ≠ opPhiAsset := by
    rintro d member rfl
    revert member
    decide
  have second : ∀ {member : UInt8 → Bool} {r s : Regex UInt8},
      Regex.accepts (.seq (.cls member) (.seq (.seq (upperOr "._") r) s)) name = true →
        ∃ c d rest, name = c :: d :: rest ∧ d ≠ opPhiAsset := by
    intro member r s accepted
    obtain ⟨c, tail, rfl, _, accepted⟩ := Regex.accepts_seq_cls.mp accepted
    obtain ⟨d, rest, rfl, isUpper⟩ := Regex.accepts_seq_seq_cls accepted
    exact ⟨c, d, rest, rfl, upper isUpper⟩
  rcases valid with qualifier | restricted
  · simp only [isAssetNameAQualifier, Bool.and_eq_true, Bool.or_eq_true] at qualifier
    rcases qualifier.2 with root | ⟨_, sub⟩
    · exact second root
    · exact second sub
  · simp only [isAssetNameAnRestricted, Bool.and_eq_true] at restricted
    exact second restricted.2

section

variable {env : Env} {id name : Bytes} {flag : Int}

theorem nullAssetDataDestination_eq (size : id.length = 20) :
    nullAssetDataDestination id = opPhiAsset :: 0x14 :: id := by
  rw [nullAssetDataDestination, pushData_direct (by omega), size]
  rfl

theorem scriptAddress_nullAsset (size : id.length = 20) (valid : NullAssetName name)
    (short : name.length ≤ 73) : scriptAddress env (constructTransaction ⟨name, flag⟩
      (nullAssetDataDestination id)) = encodeDestination env (.keyId id) := by
  obtain ⟨c, d, rest, nameEq, notPhi⟩ := valid.second
  have direct : (writeNullAssetTxData ⟨name, flag⟩).length < 0x4c := by
    rw [length_writeNull, length_writeString_lt]
    omega
  set payload := writeNullAssetTxData ⟨name, flag⟩ with payloadEq
  set script := constructTransaction ⟨name, flag⟩ (nullAssetDataDestination id)
    with scriptEq
  have operand : script.drop 1 = pushData id ++ pushData payload := by
    simp [scriptEq, constructTransaction, nullAssetDataDestination, payloadEq]
  have layout : script = opPhiAsset :: 0x14 :: (id ++ pushData payload) := by
    simp [scriptEq, constructTransaction, nullAssetDataDestination_eq size,
      payloadEq]
  have bytes : byteAt script 0 = opPhiAsset ∧ byteAt script 1 = 0x14 := by
    rw [layout]
    exact ⟨rfl, rfl⟩
  -- the position where an asset script has its opcode holds the second character of the name
  have second : byteAt script 25 = d := by
    have written : pushData payload =
        UInt8.ofNat payload.length :: UInt8.ofNat (name.length % 256) :: c :: d ::
          (rest ++ signedBytes 1 flag) := by
      have compact : writeCompactSize name.length = [UInt8.ofNat (name.length % 256)] := by
        rw [writeCompactSize, if_pos (by omega)]
        rfl
      rw [pushData_direct direct, payloadEq, writeNullAssetTxData, writeString, compact]
      simp [nameEq]
    rw [layout, written, byteAt, getD_cons_succ, getD_cons_succ,
      getD_append_right _ _ _ _ (by omega), size]
    rfl
  have noAsset : isAssetScript script = none := by
    rw [isAssetScript, if_neg (by simp [second, notPhi])]
  have noWitness : isWitnessProgram script = none := by
    unfold isWitnessProgram
    split_ifs with width version
    · rfl
    · rfl
    · exact absurd (by rw [bytes.1]; decide) version
    · rfl
  have long : 23 ≤ script.length := by
    rw [layout, pushData_direct direct]
    simp only [length_cons, length_append, size]
    omega
  have pushes : isPushOnly (script.drop 1) = true := by
    rw [operand]
    exact isPushOnly_pushes (by omega) direct
  have solved : solver script = some (.restrictedAssetData, [(script.drop 2).take 20]) := by
    rw [solver, if_neg (by rw [isPayToScriptHash, bytes.1]; simp [opPhiAsset, opHash160]), noAsset]
    simp only [noWitness]
    rw [if_neg (by rw [bytes.1]; simp [opPhiAsset, opReturn]),
      if_pos (by rw [bytes.1, pushes]; simp; omega), if_pos (by rw [bytes.2]; simp [opReserved, long])]
  have key : (script.drop 2).take 20 = id := by
    rw [layout, drop_succ_cons, drop_succ_cons, drop_zero, ← size, take_left]
  rw [scriptAddress, extractDestination, solved, key]

end

def Env.DistinctVersions (env : Env) : Prop :=
  ∃ key script, env.params.pubkeyAddress = [key] ∧ env.params.scriptAddress = [script] ∧
    key ≠ script

def TxDestination.HashSize : TxDestination → Prop
  | .noDestination => False
  | .keyId id => id.length = 20
  | .scriptId id => id.length = 20

def TxDestination.isKey : TxDestination → Bool
  | .keyId _ => true
  | _ => false

/-- A key hash and a script hash survive their addresses. -/
theorem decodeDestination_encodeDestination {env : Env} {dest : TxDestination}
    (versions : env.DistinctVersions) (size : dest.HashSize)
    (checksum : ∀ data, 4 ≤ (env.hash256 data).length) :
    decodeDestination env (encodeDestination env dest) = dest := by
  obtain ⟨key, script, isKey, isScript, differ⟩ := versions
  have decoded := fun data => decodeBase58Check_encodeBase58Check (checksum data)
  cases dest with
  | noDestination => exact absurd size id
  | keyId id =>
    simp [decodeDestination, encodeDestination, decoded, isKey, show id.length = 20 from size]
  | scriptId id =>
    simp [decodeDestination, encodeDestination, decoded, isKey, isScript, differ.symm,
      show id.length = 20 from size]

theorem decodeDestination_encodeDestination_script :
    let env := { MainNet.env with hash256 := fun data => data ++ List.replicate 32 0 }
    decodeDestination env (encodeDestination env (.scriptId MainNet.alice)) =
      .scriptId MainNet.alice :=
  decodeDestination_encodeDestination ⟨56, 16, rfl, rfl, by decide⟩ rfl (by simp)

section

variable {env : Env} (versions : env.DistinctVersions)

include versions

theorem encodeDestination_script_ne (id : Bytes) :
    encodeDestination env (.keyId id) ≠ encodeDestination env (.scriptId id) := by
  obtain ⟨key, script, isKey, isScript, differ⟩ := versions
  intro same
  simp only [encodeDestination, encodeBase58Check, isKey, isScript] at same
  have decoded := congrArg decodeBase58 same
  rw [decodeBase58_encodeBase58, decodeBase58_encodeBase58] at decoded
  simp [differ] at decoded

theorem nullAsset_address_iff {dest : TxDestination}
    (size : dest.HashSize) {name : Bytes} {flag : Int} (valid : NullAssetName name)
    (short : name.length ≤ 73) : scriptAddress env (constructTransaction ⟨name, flag⟩
      (getScriptForNullAssetDataDestination dest)) = encodeDestination env dest ↔
        dest.isKey = true := by
  cases dest with
  | noDestination => exact absurd size id
  | keyId id =>
    rw [getScriptForNullAssetDataDestination, scriptAddress_nullAsset size valid short]
    simp [TxDestination.isKey]
  | scriptId id =>
    rw [getScriptForNullAssetDataDestination, scriptAddress_nullAsset size valid short]
    simp [TxDestination.isKey, encodeDestination_script_ne versions id]

theorem nullData_reads_back_iff
    {dest : TxDestination} {name : Bytes} {flag : Int} (size : dest.HashSize)
    (valid : NullAssetName name) (fits : Fits 8 flag) :
    assetNullDataFromScript env (constructTransaction ⟨name, flag⟩
        (getScriptForNullAssetDataDestination dest)) =
      some (⟨name, flag⟩, encodeDestination env dest) ↔ dest.isKey = true ∧ name.length ≤ 73 := by
  obtain ⟨id, idSize, destScript⟩ : ∃ id : Bytes, id.length = 20 ∧
      getScriptForNullAssetDataDestination dest = opPhiAsset :: 0x14 :: id := by
    cases dest with
    | noDestination => exact absurd size id
    | keyId id => exact ⟨id, size, nullAssetDataDestination_eq size⟩
    | scriptId id => exact ⟨id, size, nullAssetDataDestination_eq size⟩
  have address := @nullAsset_address_iff env versions dest size name flag valid
  set script := constructTransaction ⟨name, flag⟩
    (getScriptForNullAssetDataDestination dest) with scriptEq
  have layout : script =
      (opPhiAsset :: 0x14 :: id) ++ pushData (writeNullAssetTxData ⟨name, flag⟩) := by
    rw [scriptEq, destScript]
    rfl
  have isTag : isNullAssetTxDataScript script = true := by
    have written := length_writeNull name flag
    obtain ⟨opcode, operand, push, _, long⟩ := pushData_head (writeNullAssetTxData ⟨name, flag⟩)
    have total : script.length > 23 := by
      rw [layout, push]
      simp only [length_append, length_cons, idSize]
      omega
    rw [isNullAssetTxDataScript, Bool.and_eq_true, Bool.and_eq_true]
    refine ⟨⟨by simpa using total, ?_⟩, ?_⟩ <;> rw [layout] <;> rfl
  have read : readAt readNullAssetTxData 23 script = some ⟨name, flag⟩ ↔ name.length ≤ 73 := by
    rw [← readNull_pushed fits, readAt, layout,
      show 23 = (opPhiAsset :: 0x14 :: id).length + 1 by simp [idSize],
      drop_length_add_append]
  rw [assetNullDataFromScript, if_pos isTag, Option.map_eq_some_iff]
  constructor
  · rintro ⟨data, found, same⟩
    obtain ⟨rfl, sameAddress⟩ := Prod.mk.inj same
    have short := read.mp found
    exact ⟨(address short).mp sameAddress, short⟩
  · rintro ⟨isKey, short⟩
    exact ⟨_, read.mpr short, by rw [(address short).mpr isKey]⟩

end

theorem globalNullData_reads_back_iff {name : Bytes} {flag : Int} (valid : NullAssetName name)
    (fits : Fits 8 flag) : globalAssetNullDataFromScript
        (constructGlobalRestrictionTransaction ⟨name, flag⟩ []) =
      some ⟨name, flag⟩ ↔ name.length ≤ 73 := by
  obtain ⟨c, d, rest, nameEq, _⟩ := valid.second
  obtain ⟨opcode, operand, push, _, long⟩ := pushData_head (writeNullAssetTxData ⟨name, flag⟩)
  have isGlobal : isNullGlobalRestrictionAssetTxDataScript
      (constructGlobalRestrictionTransaction ⟨name, flag⟩ []) = true := by
    have written := length_writeNull name flag
    have named := length_writeString_gt name
    have two : 2 ≤ name.length := by simp [nameEq]
    rw [constructGlobalRestrictionTransaction, push,
      isNullGlobalRestrictionAssetTxDataScript]
    simp [byteAt]
    omega
  rw [globalAssetNullDataFromScript, if_pos isGlobal]
  exact readNull_pushed fits

theorem verifierString_reads_back_iff (verifier : Bytes) :
    assetNullVerifierDataFromScript (constructVerifierTransaction verifier []) =
      some verifier ↔ verifier.length ≤ 74 := by
  obtain ⟨opcode, operand, push, notReserved, long⟩ := pushData_head (writeString verifier)
  have isVerifier : isNullAssetVerifierTxDataScript (constructVerifierTransaction verifier []) =
      true := by
    have written := length_writeString_gt verifier
    rw [constructVerifierTransaction, push, isNullAssetVerifierTxDataScript]
    simp [byteAt, notReserved]
    omega
  rw [assetNullVerifierDataFromScript, if_pos isVerifier]
  exact readText_pushed verifier

/-- A null-asset script is read back exactly when its payload was pushed
directly and, for a tag or a freeze, the address is a key's. -/
theorem null_asset_scripts_read_back_iff (env : Env) (versions : env.DistinctVersions) :
    (∀ (dest : TxDestination) (name : Bytes) (flag : Int),
      dest.HashSize → NullAssetName name → Fits 8 flag →
        (assetNullDataFromScript env (NullAssetTxData.constructTransaction ⟨name, flag⟩
            (getScriptForNullAssetDataDestination dest)) =
          some (⟨name, flag⟩, encodeDestination env dest) ↔ dest.isKey = true ∧ name.length ≤ 73)) ∧
    (∀ (name : Bytes) (flag : Int), NullAssetName name → Fits 8 flag →
      (globalAssetNullDataFromScript
          (NullAssetTxData.constructGlobalRestrictionTransaction ⟨name, flag⟩ []) =
        some ⟨name, flag⟩ ↔ name.length ≤ 73)) ∧ (∀ verifier : Bytes,
      (assetNullVerifierDataFromScript (constructVerifierTransaction verifier []) =
        some verifier ↔ verifier.length ≤ 74)) :=
  ⟨fun _ _ _ size valid fits => nullData_reads_back_iff versions size valid fits,
    fun _ _ valid fits => globalNullData_reads_back_iff valid fits,
    verifierString_reads_back_iff⟩

open MainNet

/-- A tag of Alice's address comes back. -/
theorem null_asset_scripts_read_back_iff_tag :
    assetNullDataFromScript env (tag (ascii "#TAG") 1 alice).scriptPubKey =
      some (⟨ascii "#TAG", 1⟩, encodeDestination env (.keyId alice)) :=
  ((null_asset_scripts_read_back_iff env ⟨56, 16, rfl, rfl, by decide⟩).1
    (.keyId alice) (ascii "#TAG") 1 rfl (.inl (by decide +kernel)) rfl).mpr
      ⟨rfl, by decide⟩

/-- A tag with a name of 74 bytes does not come back, nor does a tag of a script
hash; a verifier string of 75 characters comes back with its length as a further
character. -/
theorem long_pushes_lost :
    (isAssetNameAQualifier (qualifierChar :: List.replicate 73 65) false = true ∧
      assetNullDataFromScript env
        (tag (qualifierChar :: List.replicate 73 65) 1 alice).scriptPubKey ≠
          some (⟨qualifierChar :: List.replicate 73 65, 1⟩,
            encodeDestination env (.keyId alice))) ∧
    assetNullDataFromScript env (NullAssetTxData.constructTransaction ⟨ascii "#TAG", 1⟩
        (getScriptForNullAssetDataDestination (.scriptId alice))) =
      some (⟨ascii "#TAG", 1⟩, encodeDestination env (.keyId alice)) ∧
    encodeDestination env (.keyId alice) ≠
      encodeDestination env (.scriptId alice) ∧
    (checkVerifierString (List.replicate 75 65)).passed = true ∧
    assetNullVerifierDataFromScript (constructVerifierTransaction (List.replicate 75 65) []) =
      some (75 :: List.replicate 75 65) := by
  refine ⟨⟨?_, ?_⟩, ?_, ?_, ?_, ?_⟩ <;> decide +kernel

end Phicoin
