import Mathlib.Data.List.GetD
import Phicoin.Spender

/-! # Asset scripts read back

An asset record is written behind a pay-to-key-hash script as one push.  The
parser does not run the script: it finds the record behind a marker, at a
position that depends on the width of the push.  What it reads there is the
record that was written, and the `OP_DROP` behind it is too short to be taken for
a hash or a time. -/

namespace Phicoin

open ByteReader TwosComplement List

section

variable {script rest : Bytes}

theorem byteAt_append_right (base : script.length = 25) (i : Nat) :
    byteAt (script ++ rest) (25 + i) = byteAt rest i := by
  rw [byteAt, byteAt, ← base, getD_append_right _ _ _ _ (by omega), Nat.add_sub_cancel_left]

theorem drop_append_right (base : script.length = 25) (i : Nat) :
    (script ++ rest).drop (25 + i) = rest.drop i := by
  rw [← base, drop_length_add_append]

theorem length_payToPublicKeyHash {id : Bytes} (size : id.length = 20) :
    (payToPublicKeyHash id).length = 25 := by
  simp [payToPublicKeyHash, pushData, size]

theorem pushData_cases {payload : Bytes} (short : payload.length ≤ 0xffff) :
    (∃ n, payload.length < 0x4c ∧ n < opPushdata1 ∧ pushData payload = n :: payload) ∨
      (∃ n, ¬ payload.length < 0x4c ∧ pushData payload = opPushdata1 :: n :: payload) ∨
      (∃ m n, ¬ payload.length < 0x4c ∧ pushData payload = opPushdata2 :: m :: n :: payload) := by
  unfold pushData
  split_ifs with direct one
  · refine .inl ⟨_, direct, ?_, rfl⟩
    rw [UInt8.lt_iff_toNat_lt, UInt8.toNat_ofNat', Nat.mod_eq_of_lt (by omega)]
    exact direct
  · exact .inr (.inl ⟨_, direct, rfl⟩)
  · exact .inr (.inr ⟨_, _, direct, rfl⟩)

theorem appendAsset_layout (base : script.length = 25) (type : UInt8) {data : Bytes}
    (short : data.length + 4 ≤ 0xffff) :
    ∃ index, assetTypeIndex (appendAsset script type data) = some index ∧
      byteAt (appendAsset script type data) index = type ∧
      (appendAsset script type data).drop (index + 1) = data ++ [opDrop] ∧
      (data.length + 4 < 0x4c → index = 30) := by
  set written := appendAsset script type data
  set tail := opPhiAsset :: (pushData ([phiR, phiV, phiN, type] ++ data) ++ [opDrop]) with tailEq
  have shape : written = script ++ tail := by simp [written, tail, appendAsset]
  have bytes : ∀ i, byteAt written (25 + i) = byteAt tail i := by
    intro i
    rw [shape, byteAt_append_right base]
  have suffix : ∀ i, written.drop (25 + i) = tail.drop i := by
    intro i
    rw [shape, drop_append_right base]
  have fits : ([phiR, phiV, phiN, type] ++ data).length ≤ 0xffff := by
    rw [length_append, length_cons, length_cons, length_cons,
      length_cons, length_nil]
    omega
  rcases pushData_cases fits with
    ⟨n, _, small, push⟩ | ⟨n, long, push⟩ | ⟨m, n, long, push⟩ <;> rw [push] at tailEq
  · have width : byteAt written 26 = n := by rw [bytes 1, tailEq]; rfl
    have marker : markerAt written 27 = true := by
      rw [markerAt, bytes 2, bytes 3, bytes 4, tailEq]
      rfl
    refine ⟨30, ?_, ?_, ?_, fun _ => rfl⟩
    · rw [assetTypeIndex, width, if_pos small, if_pos marker]
    · rw [bytes 5, tailEq]; rfl
    · rw [suffix 6, tailEq]; rfl
  · have width : byteAt written 26 = opPushdata1 := by rw [bytes 1, tailEq]; rfl
    have marker : markerAt written 28 = true := by
      rw [markerAt, bytes 3, bytes 4, bytes 5, tailEq]
      rfl
    refine ⟨31, ?_, ?_, ?_, fun direct => absurd (by simpa using direct) long⟩
    · rw [assetTypeIndex, width, if_neg (by decide), if_pos rfl, if_pos marker]
    · rw [bytes 6, tailEq]; rfl
    · rw [suffix 7, tailEq]; rfl
  · have width : byteAt written 26 = opPushdata2 := by rw [bytes 1, tailEq]; rfl
    have marker : markerAt written 29 = true := by
      rw [markerAt, bytes 4, bytes 5, bytes 6, tailEq]
      rfl
    refine ⟨32, ?_, ?_, ?_, fun direct => absurd (by simpa using direct) long⟩
    · rw [assetTypeIndex, width, if_neg (by decide), if_neg (by decide), if_pos rfl, if_pos marker]
    · rw [bytes 7, tailEq]; rfl
    · rw [suffix 8, tailEq]; rfl

theorem length_appendAsset_ge (type : UInt8) (data : Bytes) :
    script.length + data.length + 7 ≤ (appendAsset script type data).length := by
  have push : ([phiR, phiV, phiN, type] ++ data).length + 1 ≤
      (pushData ([phiR, phiV, phiN, type] ++ data)).length := by
    unfold pushData
    split_ifs <;> simp [length_leBytes]
  simp only [appendAsset, length_append, length_cons, length_nil] at push ⊢
  omega

end

def scriptKind (type : UInt8) : Option (TxnOutType × Bool) :=
  if type = phiT then some (.transferAsset, false)
  else if type = phiQ then some (.newAsset, false)
  else if type = phiO then some (.newAsset, true)
  else if type = phiR then some (.reissueAsset, false)
  else none

variable {data : Bytes} {type : UInt8}

theorem isAssetScript_appendAsset {id : Bytes} (size : id.length = 20)
    {nType : TxnOutType} {fIsOwner : Bool}
    (kind : scriptKind type = some (nType, fIsOwner)) (short : data.length + 4 ≤ 0xffff)
    (long : type = phiQ → 8 ≤ data.length) :
    ∃ start, isAssetScript (appendAsset (payToPublicKeyHash id) type data) =
        some ⟨nType, fIsOwner, start⟩ ∧
      (appendAsset (payToPublicKeyHash id) type data).drop start = data ++ [opDrop] ∧
      (data.length + 4 < 0x4c → start = 31) := by
  have base := length_payToPublicKeyHash size
  obtain ⟨index, found, typeByte, suffix, direct⟩ := appendAsset_layout base type short
  have total := @length_appendAsset_ge (payToPublicKeyHash id) type data
  have phi : byteAt (appendAsset (payToPublicKeyHash id) type data) 25 = opPhiAsset := by
    have position := @byteAt_append_right (payToPublicKeyHash id)
      (opPhiAsset :: (pushData ([phiR, phiV, phiN, type] ++ data) ++ [opDrop])) base 0
    simpa [appendAsset, byteAt] using position
  refine ⟨index + 1, ?_, suffix, fun small => by rw [direct small]⟩
  unfold scriptKind at kind
  unfold isAssetScript
  rw [phi, found]
  dsimp only
  rw [typeByte, if_pos (by simp; omega)]
  split_ifs at kind with transfer issue owner reissue
  · cases kind
    rw [if_pos transfer]
  · cases kind
    have enough : (appendAsset (payToPublicKeyHash id) type data).length > 39 := by
      have := long issue
      omega
    rw [if_neg transfer, if_pos]
    rw [Bool.and_eq_true]
    exact ⟨decide_eq_true issue, decide_eq_true enough⟩
  · cases kind
    rw [if_neg transfer, if_neg (by simp [issue]), if_pos owner]
  · cases kind
    rw [if_neg transfer, if_neg (by simp [issue]), if_neg owner, if_pos reissue]

/-- A hash is absent, a transaction id, or the multihash of an IPFS object. -/
def HashShape (hash : Bytes) : Prop :=
  hash = [] ∨ hash.length = 32 ∨ hash.length = 34 ∧ hash.take 2 = [ipfsSha2, ipfsSha2Len]

def NameLength (name : Bytes) : Prop := 1 ≤ name.length ∧ name.length ≤ 256

/-- The fields of an issuance hold what their types can, and the flag says
whether there is a hash. -/
structure NewAsset.Encodable (asset : NewAsset) : Prop where
  name : NameLength asset.strName
  amount : Fits 64 asset.nAmount
  units : Fits 8 asset.units
  reissuable : Fits 8 asset.nReissuable
  hash : HashShape asset.strIPFSHash
  flag : asset.nHasIPFS = if asset.strIPFSHash = [] then 0 else 1

structure ReissueAsset.Encodable (reissue : ReissueAsset) : Prop where
  name : NameLength reissue.strName
  amount : Fits 64 reissue.nAmount
  units : Fits 8 reissue.nUnits
  reissuable : Fits 8 reissue.nReissuable
  hash : HashShape reissue.strIPFSHash

/-- A time needs a message. -/
structure AssetTransfer.Encodable (transfer : AssetTransfer) : Prop where
  name : NameLength transfer.strName
  amount : Fits 64 transfer.nAmount
  hash : HashShape transfer.message
  expireTime : Fits 64 transfer.nExpireTime
  noTime : transfer.message = [] → transfer.nExpireTime = 0

variable {asset : NewAsset}

/-- A checked issuance is one of them. -/
theorem NewAsset.encodable_of_checked (checked : checkNewAsset asset = .ok ())
    (name : NameLength asset.strName) (hash : HashShape asset.strIPFSHash)
    (present : asset.nHasIPFS = 1 ↔ asset.strIPFSHash ≠ []) : asset.Encodable := by
  unfold checkNewAsset at checked
  obtain ⟨_, _, _, _, _, _, checked⟩ := Check.ok_bind₃ checked
  obtain ⟨_, _, _, positive, _, bounded, checked⟩ := Check.ok_bind₃ checked
  obtain ⟨_, units, _, _, _, reissuable, flag⟩ := Check.ok_bind₃ checked
  simp only [Check.require_eq_ok, Bool.and_eq_true, Bool.or_eq_true, decide_eq_true_eq]
    at positive bounded units reissuable flag
  refine ⟨name, ?_, ?_, ?_, hash, ?_⟩
  · simp only [maxMoney, coin] at bounded
    exact wrap_eq_self (v := 63) (by omega) (by omega)
  · exact wrap_eq_self (v := 7) (by omega) (by omega)
  · exact wrap_eq_self (v := 7) (by omega) (by omega)
  · by_cases absent : asset.strIPFSHash = []
    · rw [if_pos absent]
      exact flag.resolve_right fun one => present.mp one absent
    · rw [if_neg absent]
      exact present.mpr absent

variable {reissue : ReissueAsset}

theorem ReissueAsset.encodable_of_checked {env : Env}
    (checked : checkReissueAsset env reissue = .ok ()) (name : NameLength reissue.strName)
    (hash : HashShape reissue.strIPFSHash) : reissue.Encodable := by
  unfold checkReissueAsset at checked
  obtain ⟨_, amount, _, units, reissuable⟩ := Check.ok_bind₂ checked
  simp only [Check.require_eq_ok, grandfathered, Bool.and_eq_true, Bool.or_eq_true,
    decide_eq_true_eq] at amount units reissuable
  refine ⟨name, ?_, ?_, ?_, hash⟩
  · simp only [maxMoney, coin] at amount
    exact wrap_eq_self (v := 63) (by omega) (by omega)
  · exact wrap_eq_self (v := 7) (by omega) (by omega)
  · exact wrap_eq_self (v := 7) (by omega) (by omega)

section

variable {tail : Bytes}

theorem readText_writeString {text : Bytes} (short : text.length ≤ 257) :
    readText (writeString text ++ tail) = some (text, tail) := by
  apply readString_writeString
  · simp only [maxSize]
    omega
  · omega

theorem readInt64_signedBytes {value : Int} (fits : Fits 64 value) :
    readInt64 (signedBytes 8 value ++ tail) = some (value, tail) := readSigned_signedBytes fits

theorem readInt8_signedBytes {value : Int} (fits : Fits 8 value) :
    readInt8 (signedBytes 1 value ++ tail) = some (value, tail) := readSigned_signedBytes fits

theorem readAssetHash_present (kind : UInt8) {body : Bytes} (size : body.length = 32) :
    readAssetHash (kind :: writeString body ++ tail) =
      some (((if kind.toNat = ipfsSha2.toNat then [ipfsSha2, ipfsSha2Len] else []) ++ body, true),
        tail) := by
  refine run_bind.mpr ⟨(kind :: writeString body ++ tail).length, _, rfl, ?_⟩
  have enough : ¬ (kind :: writeString body ++ tail).length < 33 := by
    simp [writeString, size]
    omega
  rw [if_neg enough]
  refine run_bind.mpr ⟨kind.toNat, writeString body ++ tail, readUnsigned_byte kind, ?_⟩
  refine run_bind.mpr ⟨body, tail, readText_writeString (by omega), ?_⟩
  rw [take_of_length_le (by omega)]
  rfl

theorem readAssetHash_write {hash : Bytes} (shape : HashShape hash)
    (short : hash = [] → tail.length < 33) :
    readAssetHash (writeAssetHash hash ++ tail) = some ((hash, decide (hash ≠ [])), tail) := by
  rcases shape with rfl | size | ⟨size, lead⟩
  · refine run_bind.mpr ⟨tail.length, tail, rfl, ?_⟩
    rw [if_pos (short rfl)]
    rfl
  · have nonempty : hash ≠ [] := by
      intro empty
      simp [empty] at size
    rw [writeAssetHash, if_neg (by omega), if_pos size, readAssetHash_present _ size,
      decide_eq_true nonempty]
    rfl
  · have nonempty : hash ≠ [] := by
      intro empty
      simp [empty] at size
    have body : (hash.drop 2).length = 32 := by simp [size]
    have whole : [ipfsSha2, ipfsSha2Len] ++ hash.drop 2 = hash := by
      rw [← lead, take_append_drop]
    rw [writeAssetHash, if_pos size, readAssetHash_present _ body, if_pos rfl, whole,
      decide_eq_true nonempty]

theorem length_writeAssetHash_le (hash : Bytes) : (writeAssetHash hash).length ≤ 34 := by
  unfold writeAssetHash
  split_ifs with ipfs txid
  · simp [writeString, ipfs, writeCompactSize, length_leBytes]
  · simp [writeString, txid, writeCompactSize, length_leBytes]
  · simp

theorem length_writeString_le {text : Bytes} (short : text.length ≤ 257) :
    text.length + 1 ≤ (writeString text).length ∧ (writeString text).length ≤ text.length + 3 := by
  unfold writeString writeCompactSize
  split_ifs <;> simp [length_leBytes] <;> omega

theorem readNewAsset_write (encodable : asset.Encodable) :
    readNewAsset (writeNewAsset asset ++ [opDrop]) = some (asset, [opDrop]) := by
  have flagFits : Fits 8 asset.nHasIPFS := by
    rw [encodable.flag]
    split_ifs <;> decide
  unfold writeNewAsset
  simp only [append_assoc]
  refine run_bind.mpr ⟨_, _, readText_writeString (encodable.name.2.trans (by decide)), ?_⟩
  refine run_bind.mpr ⟨_, _, readInt64_signedBytes encodable.amount, ?_⟩
  refine run_bind.mpr ⟨_, _, readInt8_signedBytes encodable.units, ?_⟩
  refine run_bind.mpr ⟨_, _, readInt8_signedBytes encodable.reissuable, ?_⟩
  refine run_bind.mpr ⟨_, _, readInt8_signedBytes flagFits, ?_⟩
  by_cases absent : asset.strIPFSHash = []
  · have flag : asset.nHasIPFS = 0 := by rw [encodable.flag, if_pos absent]
    refine run_bind.mpr ⟨([], false), [opDrop], ?_, run_pure.mpr ⟨?_, rfl⟩⟩
    · simp [flag, readHashWhen]
      rfl
    · rw [← absent]
  · have flag : asset.nHasIPFS = 1 := by rw [encodable.flag, if_neg absent]
    refine run_bind.mpr ⟨(asset.strIPFSHash, true), [opDrop], ?_, run_pure.mpr ⟨rfl, rfl⟩⟩
    have read := @readAssetHash_write [opDrop] _ encodable.hash fun empty => absurd empty absent
    simpa [flag, readHashWhen, absent] using read

theorem readReissueAsset_write (encodable : reissue.Encodable) :
    readReissueAsset (writeReissueAsset reissue ++ [opDrop]) = some (reissue, [opDrop]) := by
  unfold writeReissueAsset
  simp only [append_assoc]
  refine run_bind.mpr ⟨_, _, readText_writeString (encodable.name.2.trans (by decide)), ?_⟩
  refine run_bind.mpr ⟨_, _, readInt64_signedBytes encodable.amount, ?_⟩
  refine run_bind.mpr ⟨_, _, readInt8_signedBytes encodable.units, ?_⟩
  refine run_bind.mpr ⟨_, _, readInt8_signedBytes encodable.reissuable, ?_⟩
  refine run_bind.mpr ⟨_, [opDrop], readAssetHash_write encodable.hash fun _ => by decide, ?_⟩
  rfl

theorem readAssetTransfer_write {transfer : AssetTransfer} (encodable : transfer.Encodable) :
    readAssetTransfer (writeAssetTransfer transfer ++ [opDrop]) = some (transfer, [opDrop]) := by
  unfold writeAssetTransfer
  simp only [append_assoc]
  refine run_bind.mpr ⟨_, _, readText_writeString (encodable.name.2.trans (by decide)), ?_⟩
  refine run_bind.mpr ⟨_, _, readInt64_signedBytes encodable.amount, ?_⟩
  by_cases noTime : transfer.nExpireTime = 0
  · -- no time is written, and one byte is no time
    simp only [noTime, ne_eq, not_true_eq_false, decide_false, Bool.false_and, Bool.false_eq_true,
      if_false, nil_append]
    refine run_bind.mpr ⟨_, [opDrop], readAssetHash_write encodable.hash fun _ => by decide, ?_⟩
    refine run_bind.mpr ⟨0, [opDrop], ?_, run_pure.mpr ⟨?_, rfl⟩⟩
    · refine run_bind.mpr ⟨1, [opDrop], rfl, ?_⟩
      simp
      rfl
    · rw [← noTime]
  · have present : transfer.message ≠ [] := fun empty => noTime (encodable.noTime empty)
    have written : (decide (transfer.message.length = 34) || decide (transfer.message.length = 32)) =
        true := by
      rcases encodable.hash with empty | size | size
      · exact absurd empty present
      · simp [size]
      · simp [size.1]
    simp only [noTime, ne_eq, not_false_eq_true, decide_true, Bool.true_and, written, if_true]
    refine run_bind.mpr ⟨_, _, readAssetHash_write encodable.hash fun empty => absurd empty present, ?_⟩
    refine run_bind.mpr ⟨transfer.nExpireTime, [opDrop], ?_, run_pure.mpr ⟨rfl, rfl⟩⟩
    refine run_bind.mpr ⟨9, signedBytes 8 transfer.nExpireTime ++ [opDrop], ?_, ?_⟩
    · simp [remaining, signedBytes, length_leBytes]
    · simp only [present, ne_eq, not_false_eq_true, decide_true, Bool.true_and]
      exact readInt64_signedBytes encodable.expireTime

end

/-- A script is an asset script of the given kind that pays the key, and its
record is read as `record`. -/
structure ReadsBack {α : Type} (env : Env) (id script : Bytes) (nType : TxnOutType)
    (fIsOwner : Bool) (parsed : Option (α × Bytes)) (record : α) : Prop where
  kind : ∃ start, isAssetScript script = some ⟨nType, fIsOwner, start⟩
  destination : extractDestination env script = .keyId id
  record : parsed = some (record, encodeDestination env (.keyId id))

section

variable (env : Env) {id : Bytes}

variable (size : id.length = 20)

include size

theorem take_payToPublicKeyHash (tail : Bytes) :
    ((payToPublicKeyHash id ++ tail).drop 3).take 20 = id := by
  simp [payToPublicKeyHash, pushData, size]

theorem destination_appendAsset {info : AssetScript}
    (found : isAssetScript (appendAsset (payToPublicKeyHash id) type data) = some info) :
    extractDestination env (appendAsset (payToPublicKeyHash id) type data) = .keyId id := by
  rw [extractDestination_asset found, appendAsset, append_assoc, take_payToPublicKeyHash size]

theorem readsBack_of_write {α : Type} {reader : Reader α} {record : α}
    {nType : TxnOutType} {fIsOwner : Bool} {parsed : Option (α × Bytes)}
    (kind : scriptKind type = some (nType, fIsOwner)) (short : data.length + 4 ≤ 0xffff)
    (long : type = phiQ → 8 ≤ data.length)
    (read : reader (data ++ [opDrop]) = some (record, [opDrop])) (parse : ∀ start,
      assetScriptOf nType fIsOwner (appendAsset (payToPublicKeyHash id) type data) = some start →
      readAt reader start (appendAsset (payToPublicKeyHash id) type data) = some record →
      (data.length + 4 < 0x4c → start = 31) → parsed = some (record,
          scriptAddress env (appendAsset (payToPublicKeyHash id) type data))) :
    ReadsBack env id (appendAsset (payToPublicKeyHash id) type data) nType fIsOwner parsed record := by
  obtain ⟨start, found, suffix, direct⟩ := isAssetScript_appendAsset size kind short long
  have pays := destination_appendAsset env size found
  have readHere : readAt reader start (appendAsset (payToPublicKeyHash id) type data) =
      some record := by
    refine readAt_eq_some.mpr ⟨[opDrop], ?_⟩
    rw [suffix, read]
  refine ⟨⟨start, found⟩, pays, ?_⟩
  rw [parse start (assetScriptOf_eq_some.mpr found) readHere direct, scriptAddress, pays]

theorem newAsset_reads_back (encodable : asset.Encodable) :
    ReadsBack env id (asset.constructTransaction (payToPublicKeyHash id)) .newAsset false
      (assetFromScript env (asset.constructTransaction (payToPublicKeyHash id))) asset := by
  obtain ⟨lower, upper⟩ := encodable.name
  have nameSize := @length_writeString_le asset.strName (by omega)
  have hashSize := length_writeAssetHash_le asset.strIPFSHash
  have bounds : 8 ≤ (writeNewAsset asset).length ∧ (writeNewAsset asset).length + 4 ≤ 0xffff := by
    simp only [writeNewAsset, length_append, signedBytes, length_leBytes]
    split_ifs
    · omega
    · rw [length_nil]
      omega
  refine readsBack_of_write env size rfl bounds.2 (fun _ => bounds.1)
    (readNewAsset_write encodable) fun start found read _ => ?_
  simp [assetFromScript, isScriptNewAsset, NewAsset.constructTransaction, found, read]

theorem owner_reads_back (name : NameLength asset.strName) :
    ReadsBack env id (asset.constructOwnerTransaction (payToPublicKeyHash id)) .newAsset true
      (ownerAssetFromScript env (asset.constructOwnerTransaction (payToPublicKeyHash id)))
      (asset.strName ++ ownerTag) := by
  have nameLength : (asset.strName ++ ownerTag).length ≤ 257 := by
    have tag : ownerTag.length = 1 := by decide
    have := name.2
    rw [length_append]
    omega
  have nameSize := length_writeString_le nameLength
  refine readsBack_of_write env size rfl (by omega) (fun other => absurd other (by decide))
    (readText_writeString nameLength) fun start found read _ => ?_
  simp [ownerAssetFromScript, isScriptOwnerAsset, NewAsset.constructOwnerTransaction, found, read]

theorem reissue_reads_back (encodable : reissue.Encodable) :
    ReadsBack env id (reissue.constructTransaction (payToPublicKeyHash id)) .reissueAsset false
      (reissueAssetFromScript env (reissue.constructTransaction (payToPublicKeyHash id)))
      reissue := by
  obtain ⟨lower, upper⟩ := encodable.name
  have nameSize := @length_writeString_le reissue.strName (by omega)
  have hashSize := length_writeAssetHash_le reissue.strIPFSHash
  have bound : (writeReissueAsset reissue).length + 4 ≤ 0xffff := by
    simp only [writeReissueAsset, length_append, signedBytes, length_leBytes]
    omega
  refine readsBack_of_write env size rfl bound (fun other => absurd other (by decide))
    (readReissueAsset_write encodable) fun start found read _ => ?_
  simp [reissueAssetFromScript, isScriptReissueAsset, ReissueAsset.constructTransaction, found, read]

theorem transfer_reads_back {transfer : AssetTransfer} (encodable : transfer.Encodable)
    (located : env.areTransferScriptsSizeDeployed = true ∨
      (writeAssetTransfer transfer).length + 4 < 0x4c) :
    ReadsBack env id (transfer.constructTransaction (payToPublicKeyHash id)) .transferAsset false
      (transferAssetFromScript env (transfer.constructTransaction (payToPublicKeyHash id)))
      transfer := by
  obtain ⟨lower, upper⟩ := encodable.name
  have nameSize := @length_writeString_le transfer.strName (by omega)
  have hashSize := length_writeAssetHash_le transfer.message
  have bound : (writeAssetTransfer transfer).length + 4 ≤ 0xffff := by
    simp only [writeAssetTransfer, length_append, signedBytes, length_leBytes]
    split_ifs
    · rw [length_leBytes]
      omega
    · rw [length_nil]
      omega
  refine readsBack_of_write env size rfl bound (fun other => absurd other (by decide))
    (readAssetTransfer_write encodable) fun start found read direct => ?_
  have offset : (if env.areTransferScriptsSizeDeployed then start else 31) = start := by
    rcases located with deployed | short
    · rw [if_pos deployed]
    · rw [direct short, ite_self]
  simp [transferAssetFromScript, isScriptTransferAsset, AssetTransfer.constructTransaction, found,
    offset, read]

end

/-- Every asset record comes back from its script, with its kind and its owner. -/
theorem asset_scripts_read_back (env : Env) (id : Bytes) (size : id.length = 20) :
    (∀ asset : NewAsset, asset.Encodable →
      ReadsBack env id (asset.constructTransaction (payToPublicKeyHash id)) .newAsset false
        (assetFromScript env (asset.constructTransaction (payToPublicKeyHash id))) asset) ∧
    (∀ asset : NewAsset, NameLength asset.strName →
      ReadsBack env id (asset.constructOwnerTransaction (payToPublicKeyHash id)) .newAsset true
        (ownerAssetFromScript env (asset.constructOwnerTransaction (payToPublicKeyHash id)))
        (asset.strName ++ ownerTag)) ∧ (∀ reissue : ReissueAsset, reissue.Encodable →
      ReadsBack env id (reissue.constructTransaction (payToPublicKeyHash id)) .reissueAsset false
        (reissueAssetFromScript env (reissue.constructTransaction (payToPublicKeyHash id)))
        reissue) ∧ (∀ transfer : AssetTransfer, transfer.Encodable →
      (env.areTransferScriptsSizeDeployed = true ∨
        (writeAssetTransfer transfer).length + 4 < 0x4c) →
      ReadsBack env id (transfer.constructTransaction (payToPublicKeyHash id)) .transferAsset false
        (transferAssetFromScript env (transfer.constructTransaction (payToPublicKeyHash id)))
        transfer) :=
  ⟨fun _ encodable => newAsset_reads_back env size encodable,
    fun _ name => owner_reads_back env size name,
    fun _ encodable => reissue_reads_back env size encodable,
    fun _ encodable located => transfer_reads_back env size encodable located⟩

open MainNet

namespace ScriptRoundTrip

/-- A transfer with a message and a time, which is pushed with a length byte. -/
def longTransfer : AssetTransfer :=
  ⟨List.replicate 30 65, 5, [ipfsSha2, ipfsSha2Len] ++ List.replicate 32 7, 1700000000⟩

theorem longTransfer_encodable : longTransfer.Encodable where
  name := by unfold NameLength; decide
  amount := by decide
  hash := .inr (.inr (by decide))
  expireTime := by decide
  noTime := fun empty => absurd empty (by decide)

def beforeDeployment : Env := { env with areTransferScriptsSizeDeployed := false }

end ScriptRoundTrip

open ScriptRoundTrip

/-- The transfer comes back when the deployment is active. -/
theorem asset_scripts_read_back_long : ReadsBack env alice
      (longTransfer.constructTransaction (payToPublicKeyHash alice)) .transferAsset false
      (transferAssetFromScript env
        (longTransfer.constructTransaction (payToPublicKeyHash alice))) longTransfer :=
  (asset_scripts_read_back env alice (by decide)).2.2.2 longTransfer
    longTransfer_encodable (.inl rfl)

/-- Before the deployment the same transfer is not read at all. -/
theorem long_transfer_lost : longTransfer.Encodable ∧
      isAssetScript (longTransfer.constructTransaction (payToPublicKeyHash alice)) =
        some ⟨.transferAsset, false, 32⟩ ∧ transferAssetFromScript beforeDeployment
        (longTransfer.constructTransaction (payToPublicKeyHash alice)) = none :=
  ⟨longTransfer_encodable, by decide +kernel, by decide +kernel⟩

end Phicoin
