import Phicoin.AssetNames
import Phicoin.Standard

/-! # Asset data in scripts

The records an output script carries, how they are written into a script and
read back from it, and what `GetAssetData` reports of a coin. -/

namespace Phicoin

open ByteReader

/-- `CNewAsset` -/
@[ext]
structure NewAsset where
  strName : Bytes
  nAmount : Int
  units : Int
  nReissuable : Int
  nHasIPFS : Int
  strIPFSHash : Bytes
deriving DecidableEq

/-- `CNewAsset::SetNull` -/
def NewAsset.null : NewAsset := ⟨[], 0, 8, 0, 0, []⟩

structure AssetTransfer where
  strName : Bytes
  nAmount : Int
  message : Bytes
  nExpireTime : Int
deriving DecidableEq

structure ReissueAsset where
  strName : Bytes
  nAmount : Int
  nUnits : Int
  nReissuable : Int
  strIPFSHash : Bytes
deriving DecidableEq

/-- `CReissueAsset::SetNull` -/
def ReissueAsset.null : ReissueAsset := ⟨[], 0, 0, 1, []⟩

structure NullAssetTxData where
  assetName : Bytes
  flag : Int
deriving DecidableEq

/-- `CNullAssetTxData::SetNull` -/
def NullAssetTxData.null : NullAssetTxData := ⟨[], -1⟩

def readInt64 : Reader Int := readSigned 8
def readInt8 : Reader Int := readSigned 1
def readText : Reader Bytes := readString maxSize

def ipfsSha2 : UInt8 := 0x12
def ipfsSha2Len : UInt8 := 0x20

/-- The reading half of `ReadWriteAssetHash`: the hash, and whether there was one. -/
def readAssetHash : Reader (Bytes × Bool) := do
  if (← remaining) < 33 then return ([], false)
  let kind ← readUnsigned 1
  let hash ← readText
  let lead := if kind = ipfsSha2.toNat then [ipfsSha2, ipfsSha2Len] else []
  return (lead ++ hash.take 32, true)

def readHashWhen (present : Bool) : Reader (Bytes × Bool) :=
  if present then readAssetHash else pure ([], false)

def readExpireTime (hasHash : Bool) : Reader Int := do
  let left ← remaining
  if hasHash && 8 ≤ left then readInt64 else pure 0

def readNewAsset : Reader NewAsset := do
  let strName ← readText
  let nAmount ← readInt64
  let units ← readInt8
  let nReissuable ← readInt8
  let nHasIPFS ← readInt8
  let hash ← readHashWhen (nHasIPFS = 1)
  return ⟨strName, nAmount, units, nReissuable, nHasIPFS, hash.1⟩

def readAssetTransfer : Reader AssetTransfer := do
  let strName ← readText
  let nAmount ← readInt64
  let hash ← readAssetHash
  let nExpireTime ← readExpireTime hash.2
  return ⟨strName, nAmount, hash.1, nExpireTime⟩

def readReissueAsset : Reader ReissueAsset := do
  let strName ← readText
  let nAmount ← readInt64
  let nUnits ← readInt8
  let nReissuable ← readInt8
  let hash ← readAssetHash
  return ⟨strName, nAmount, nUnits, nReissuable, hash.1⟩

def readNullAssetTxData : Reader NullAssetTxData := do
  let assetName ← readText
  let flag ← readInt8
  return ⟨assetName, flag⟩

/-- The record that starts at a position of a script; bytes after it are ignored. -/
def readAt {α : Type} (reader : Reader α) (offset : Nat) (script : Bytes) : Option α :=
  (reader (script.drop offset)).map Prod.fst

def writeAssetHash (hash : Bytes) : Bytes :=
  if hash.length = 34 then ipfsSha2 :: writeString (hash.drop 2)
  else if hash.length = 32 then 0x54 :: writeString hash
  else []

def writeNewAsset (asset : NewAsset) : Bytes :=
  writeString asset.strName ++ signedBytes 8 asset.nAmount ++ signedBytes 1 asset.units ++
    signedBytes 1 asset.nReissuable ++ signedBytes 1 asset.nHasIPFS ++
    if asset.nHasIPFS = 1 then writeAssetHash asset.strIPFSHash else []

def writeAssetTransfer (transfer : AssetTransfer) : Bytes :=
  writeString transfer.strName ++ signedBytes 8 transfer.nAmount ++
    writeAssetHash transfer.message ++
    if transfer.nExpireTime ≠ 0 &&
        (transfer.message.length = 34 || transfer.message.length = 32) then
      signedBytes 8 transfer.nExpireTime
    else []

def writeReissueAsset (reissue : ReissueAsset) : Bytes :=
  writeString reissue.strName ++ signedBytes 8 reissue.nAmount ++ signedBytes 1 reissue.nUnits ++
    signedBytes 1 reissue.nReissuable ++ writeAssetHash reissue.strIPFSHash

variable (env : Env) (script : Bytes) (data : NullAssetTxData)

def writeNullAssetTxData : Bytes :=
  writeString data.assetName ++ signedBytes 1 data.flag

/-- The common tail of the `ConstructTransaction` functions. -/
def appendAsset (type : UInt8) (data : Bytes) : Bytes :=
  script ++ opPhiAsset :: pushData ([phiR, phiV, phiN, type] ++ data) ++ [opDrop]

def NewAsset.constructTransaction (asset : NewAsset) (script : Bytes) : Bytes :=
  appendAsset script phiQ (writeNewAsset asset)

def NewAsset.constructOwnerTransaction (asset : NewAsset) (script : Bytes) : Bytes :=
  appendAsset script phiO (writeString (asset.strName ++ ownerTag))

def AssetTransfer.constructTransaction (transfer : AssetTransfer) (script : Bytes) : Bytes :=
  appendAsset script phiT (writeAssetTransfer transfer)

def ReissueAsset.constructTransaction (reissue : ReissueAsset) (script : Bytes) : Bytes :=
  appendAsset script phiR (writeReissueAsset reissue)

def NullAssetTxData.constructTransaction (script : Bytes) : Bytes :=
  script ++ pushData (writeNullAssetTxData data)

def NullAssetTxData.constructGlobalRestrictionTransaction (script : Bytes) : Bytes :=
  script ++ [opPhiAsset, opReserved, opReserved] ++ pushData (writeNullAssetTxData data)

/-- `CNullAssetTxVerifierString::ConstructTransaction` -/
def constructVerifierTransaction (verifier script : Bytes) : Bytes :=
  script ++ [opPhiAsset, opReserved] ++ pushData (writeString verifier)

/-- `GetScriptForDestination` of a key. -/
def payToPublicKeyHash (id : Bytes) : Bytes :=
  [opDup, opHash160] ++ pushData id ++ [opEqualverify, opChecksig]

/-- `GetScriptForNullAssetDataDestination` of a key. -/
def nullAssetDataDestination (id : Bytes) : Bytes := opPhiAsset :: pushData id

/-- `GetScriptForNullAssetDataDestination`: a script hash is written as a key hash is. -/
def getScriptForNullAssetDataDestination : TxDestination → Bytes
  | .noDestination => []
  | .keyId id => nullAssetDataDestination id
  | .scriptId id => nullAssetDataDestination id

/-- The address of an output, the empty string when it has no destination. -/
def scriptAddress : Bytes :=
  encodeDestination env (extractDestination env script)

def transferAssetFromScript : Option (AssetTransfer × Bytes) := do
  let nStartingIndex ← isScriptTransferAsset script
  let offset := if env.areTransferScriptsSizeDeployed then nStartingIndex else 31
  let transfer ← readAt readAssetTransfer offset script
  return (transfer, scriptAddress env script)

def assetFromScript : Option (NewAsset × Bytes) := do
  let nStartingIndex ← isScriptNewAsset script
  let asset ← readAt readNewAsset nStartingIndex script
  return (asset, scriptAddress env script)

def ownerAssetFromScript : Option (Bytes × Bytes) := do
  let nStartingIndex ← isScriptOwnerAsset script
  let name ← readAt readText nStartingIndex script
  return (name, scriptAddress env script)

def reissueAssetFromScript : Option (ReissueAsset × Bytes) := do
  let nStartingIndex ← isScriptReissueAsset script
  let reissue ← readAt readReissueAsset nStartingIndex script
  return (reissue, scriptAddress env script)

/-- An issuance whose name is valid and of an accepted type: the common body of
`IsScriptNewUniqueAsset` and its siblings. -/
def isScriptNewAssetOf (accepted : AssetType → Bool) (env : Env) (script : Bytes) : Bool :=
  match assetFromScript env script with
  | none => false
  | some (asset, _) =>
    match isAssetNameValid asset.strName with
    | .ok type => accepted type
    | .error _ => false

def isScriptNewUniqueAsset : Env → Bytes → Bool := isScriptNewAssetOf (· = .unique)
def isScriptNewMsgChannelAsset : Env → Bytes → Bool := isScriptNewAssetOf (· = .msgChannel)
def isScriptNewQualifierAsset : Env → Bytes → Bool :=
  isScriptNewAssetOf fun type => type = .qualifier || type = .subQualifier
def isScriptNewRestrictedAsset : Env → Bytes → Bool := isScriptNewAssetOf (· = .restricted)

def msgChannelAssetFromScript : Option (NewAsset × Bytes) :=
  if isScriptNewMsgChannelAsset env script then assetFromScript env script else none

def qualifierAssetFromScript : Option (NewAsset × Bytes) :=
  if isScriptNewQualifierAsset env script then assetFromScript env script else none

def restrictedAssetFromScript : Option (NewAsset × Bytes) :=
  if isScriptNewRestrictedAsset env script then assetFromScript env script else none

def assetNullDataFromScript : Option (NullAssetTxData × Bytes) :=
  if isNullAssetTxDataScript script then
    (readAt readNullAssetTxData 23 script).map fun data => (data, scriptAddress env script)
  else none

def globalAssetNullDataFromScript : Option NullAssetTxData :=
  if isNullGlobalRestrictionAssetTxDataScript script then readAt readNullAssetTxData 4 script
  else none

def assetNullVerifierDataFromScript : Option Bytes :=
  if isNullAssetVerifierTxDataScript script then readAt readText 3 script else none

/-- The fields of `CAssetOutputEntry` that validation reads. -/
structure AssetOutputEntry where
  type : TxnOutType
  assetName : Bytes
  nAmount : Int
  destination : TxDestination
  message : Bytes
  expireTime : Int

/-- `GetAssetData`: name, amount and holder of an asset output. -/
def getAssetData : Option AssetOutputEntry := do
  let info ← isAssetScript script
  match info.nType, info.fIsOwner with
  | .newAsset, false =>
    let (asset, address) ← assetFromScript env script
    return ⟨.newAsset, asset.strName, asset.nAmount, decodeDestination env address, [], 0⟩
  | .newAsset, true =>
    let (name, address) ← ownerAssetFromScript env script
    return ⟨.newAsset, name, ownerAssetAmount, decodeDestination env address, [], 0⟩
  | .transferAsset, _ =>
    let (transfer, address) ← transferAssetFromScript env script
    return ⟨.transferAsset, transfer.strName, transfer.nAmount, decodeDestination env address,
      transfer.message, transfer.nExpireTime⟩
  | .reissueAsset, _ =>
    let (reissue, address) ← reissueAssetFromScript env script
    return ⟨.reissueAsset, reissue.strName, reissue.nAmount, decodeDestination env address, [], 0⟩
  | _, _ => none

/-- `CheckAmountWithUnits`; the source only asks it for units of at most 8. -/
def checkAmountWithUnits (nAmount nUnits : Int) : Bool :=
  nAmount % 10 ^ (8 - nUnits).toNat = 0

/-- `GetAssetAmountFromScript`, which reads the data where the script says it is. -/
def getAssetAmountFromScript : Option Int := do
  let info ← isAssetScript script
  match info.nType, info.fIsOwner with
  | .newAsset, false =>
    return (← readAt readNewAsset info.nStartingIndex script).nAmount
  | .newAsset, true => return ownerAssetAmount
  | .transferAsset, _ =>
    return (← readAt readAssetTransfer info.nStartingIndex script).nAmount
  | .reissueAsset, _ =>
    return (← readAt readReissueAsset info.nStartingIndex script).nAmount
  | _, _ => none

def isUnspendable : Bool :=
  (script.length > 0 && byteAt script 0 = opReturn) ||
    (script.length > 0 && byteAt script 0 = opPhiAsset) || script.length > maxScriptSize ||
    getAssetAmountFromScript script = some 0

def hexDigit (n : Nat) : UInt8 := (ascii "0123456789abcdef").getD n 0

def hexStr (data : Bytes) : Bytes :=
  data.flatMap fun b => [hexDigit (b.toNat / 16), hexDigit (b.toNat % 16)]

def encodeAssetData (decoded : Bytes) : Bytes :=
  if decoded.length = 34 then encodeBase58 decoded
  else if decoded.length = 32 then hexStr decoded
  else []

def isHexDigit (c : UInt8) : Bool := between '0' '9' c || between 'a' 'f' c || between 'A' 'F' c

/-- `IsHex`: an even, positive number of hex digits. -/
def isHex (text : Bytes) : Bool :=
  text.all isHexDigit && text.length > 0 && text.length % 2 = 0

def checkEncoded (hash : Bytes) : Check Unit :=
  let encoded := encodeAssetData hash
  if encoded.take 2 = ascii "Qm" && encoded.length = 46 then .ok ()
  else if env.areMessagesDeployed && isHex encoded && encoded.length = 64 then .ok ()
  else .error "Invalid parameter: ipfs_hash is not valid, or txid hash is not the right length"

end Phicoin
