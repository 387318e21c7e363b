import Phicoin.AssetsCacheOps
import Phicoin.Verifier

/-! # Checks of asset data against the asset state -/

namespace Phicoin

open Check

/-- The maps the memory pool keeps about assets and validation can read. -/
structure MempoolMaps where
  mapReissuedTx : KeyedMap Uint256 Bytes
  mapReissuedAssets : KeyedMap Bytes Uint256
  mapAssetToHash : KeyedMap Bytes Uint256

def MempoolMaps.empty : MempoolMaps := ⟨∅, ∅, ∅⟩

def nameError : String :=
  "Invalid parameter: asset_name must only consist of valid characters and have a size " ++
    "between 3 and 30 characters. See help for more details."

def checkNewAsset (asset : NewAsset) : Check Unit := do
  require (isAssetNameValid asset.strName).passed nameError
  let assetType := assetNameType asset.strName
  guarded (assetType = .unique || assetType = .msgChannel) do
    require (asset.units = 0) "Invalid parameter: units must be 0"
    require (asset.nAmount = uniqueAssetAmount) "Invalid parameter: amount must be 100000000"
    require (asset.nReissuable = 0) "Invalid parameter: reissuable must be 0"
  guarded (assetType = .qualifier || assetType = .subQualifier) do
    require (asset.units = 0) "Invalid parameter: units must be 0"
    require
      (qualifierAssetMinAmount ≤ asset.nAmount && asset.nAmount ≤ qualifierAssetMaxAmount)
      "Invalid parameter: amount must be between 100000000 - 1000000000"
    require (asset.nReissuable = 0) "Invalid parameter: reissuable must be 0"
  require (!isAssetNameAnOwner asset.strName)
    "Invalid parameters: asset_name can't have a '!' at the end of it. See help for more details."
  require (0 < asset.nAmount)
    "Invalid parameter: asset amount can't be equal to or less than zero."
  require (asset.nAmount ≤ maxMoney)
    "Invalid parameter: asset amount greater than max money: 50000000000"
  require (0 ≤ asset.units && asset.units ≤ 8) "Invalid parameter: units must be between 0-8."
  require (checkAmountWithUnits asset.nAmount asset.units)
    "Invalid parameter: amount must be divisible by the smaller unit assigned to the asset"
  require (asset.nReissuable = 0 || asset.nReissuable = 1)
    "Invalid parameter: reissuable must be 0 or 1"
  require (asset.nHasIPFS = 0 || asset.nHasIPFS = 1)
    "Invalid parameter: has_ipfs must be 0 or 1."

def hashLengthError : String :=
  "Invalid parameter: ipfs_hash must be 46 characters. Txid must be valid 64 character hash"

def grandfathered (env : Env) (reissue : ReissueAsset) : Bool :=
  env.params.network = .test &&
    ((reissue.strName = ascii "GAMINGWEB" && reissue.nReissuable = 109) ||
      (reissue.strName = ascii "UINT8" && reissue.nReissuable = -47))

def checkReissueAsset (env : Env) (reissue : ReissueAsset) : Check Unit := do
  require (0 ≤ reissue.nAmount && reissue.nAmount < maxMoney)
    "Unable to reissue asset: amount must be 0 or larger"
  require (-1 ≤ reissue.nUnits && reissue.nUnits ≤ 8)
    "Unable to reissue asset: unit must be between 8 and -1"
  require (grandfathered env reissue || reissue.nReissuable = 0 || reissue.nReissuable = 1)
    "Unable to reissue asset: reissuable must be 0 or 1"

variable (env : Env) (global : AssetState) (cache : AssetsCache)

def contextualCheckNewAsset (mempool : MempoolMaps) (asset : NewAsset) (fCheckMempool : Bool) :
    Check Unit := do
  require env.areAssetsDeployed "bad-txns-new-asset-when-assets-is-not-active"
  checkNewAsset asset
  require (!cache.checkIfAssetExists env global asset.strName)
    ("Invalid parameter: asset_name '" ++ textOf asset.strName ++ "' has already been used")
  require (!(fCheckMempool && (mempool.mapAssetToHash.lookup asset.strName).isSome))
    "Asset with this name is already in the mempool"
  guarded (asset.nHasIPFS ≠ 0 && asset.strIPFSHash.length ≠ 34)
    (require (env.areMessagesDeployed && asset.strIPFSHash.length = 32) hashLengthError)
  guarded (asset.nHasIPFS ≠ 0) (checkEncoded env asset.strIPFSHash)

/-- `ContextualCheckVerifierString`; an empty address asks for the syntax only. -/
def contextualCheckVerifierString (verifier address : Bytes) : Check Unit :=
  if verifier = verifierTrue then .ok ()
  else do
    let qualifiers ← checkVerifierString verifier
    forM qualifiers fun qualifier =>
      require (cache.checkIfAssetExists env global (qualifierChar :: qualifier))
        "bad-txns-null-verifier-contains-non-issued-qualifier"
    guarded (address ≠ []) do
      let valuation := fun name =>
        if qualifiers.contains name then
          some (cache.checkForAddressQualifier global (qualifierChar :: name) address true)
        else none
      let value ← require?
        (LibBoolEE.resolve valuation (verifier.length + 1) verifier)
        "bad-txns-null-verifier-failed-contexual-syntax-check"
      require value "bad-txns-null-verifier-address-failed-verification"

/-- What both overloads of `ContextualCheckReissueAsset` check of the amount and
units against the previous record. -/
def checkReissueAmounts (prev : NewAsset) (reissue : ReissueAsset) : Check Unit := do
  require (addAmount prev.nAmount reissue.nAmount ≤ maxMoney)
    ("Unable to reissue asset: asset_name '" ++ textOf reissue.strName ++
      "' the amount trying to reissue is too large")
  require (checkAmountWithUnits reissue.nAmount prev.units)
    "Unable to reissue asset: amount must be divisible by the smaller unit assigned to the asset"
  require (prev.units ≤ reissue.nUnits || reissue.nUnits = -1)
    "Unable to reissue asset: unit must be larger than current unit selection"

variable (reissue : ReissueAsset)

def checkReissueHash : Check Unit := do
  require (reissue.strIPFSHash = [] || reissue.strIPFSHash.length = 34 ||
      !(env.areMessagesDeployed && reissue.strIPFSHash.length ≠ 32))
    "Invalid parameter: ipfs_hash must be 34 bytes, Txid must be 32 bytes"
  guarded (reissue.strIPFSHash ≠ []) (checkEncoded env reissue.strIPFSHash)

def missingAssetError : String :=
  "Unable to reissue asset: asset_name '" ++ textOf reissue.strName ++
    "' doesn't exist in the database"

def onlyHashError : String :=
  "Unable to reissue asset: only IPFS hash modification is allowed for unissuable assets"

/-- The verifier check of a restricted reissue: against the new verifier string,
or the current one when the transaction has none. -/
def checkReissueVerifier (tx : Transaction) (address : Bytes) :
    Check Unit := do
  let newVerifier ← tx.getVerifierStringFromTx
  guarded (reissue.nAmount > 0)
    (match newVerifier with
    | some verifier => contextualCheckVerifierString env global cache verifier address
    | none => do
        let current ← require?
          (cache.getAssetVerifierStringIfExists global reissue.strName false)
          ("failed to get verifier string from a restricted asset, database is out of sync. " ++
            "Reindex required. Please report this to the development team")
        contextualCheckVerifierString env global cache current address)

/-- What the overload with the transaction checks of the reissuable field: a
non-reissuable asset may still change its hash, and the new value of the field
is not looked at. -/
def checkReissuable (prev : NewAsset) (reissue : ReissueAsset) : Check Unit :=
  if prev.nReissuable = 0 && reissue.strIPFSHash ≠ prev.strIPFSHash then
    require (reissue.nAmount = 0 && reissue.nUnits = -1) onlyHashError
  else
    require (prev.nReissuable ≠ 0) "Unable to reissue asset: reissuable is set to false"

/-- `ContextualCheckReissueAsset`, the overload with the transaction. -/
def contextualCheckReissueAssetTx (tx : Transaction) : Check Unit := do
  let (_, address) ← require? (tx.reissueAssetFromTransaction env)
    "bad-txns-reissue-asset-contextual-check"
  checkReissueAsset env reissue
  let prev ← require? (cache.getAssetMetaDataIfExists global reissue.strName)
    (missingAssetError reissue)
  checkReissuable prev reissue
  checkReissueAmounts prev reissue
  checkReissueHash env reissue
  guarded (isAssetNameAnRestricted reissue.strName)
    (checkReissueVerifier env global cache reissue tx address)

/-- `ContextualCheckReissueAsset`, the overload without the transaction. -/
def contextualCheckReissueAsset : Check Unit := do
  checkReissueAsset env reissue
  let prev ← require? (cache.getAssetMetaDataIfExists global reissue.strName)
    (missingAssetError reissue)
  guarded (prev.nReissuable = 0) do
    require (reissue.nAmount = 0 && reissue.nUnits = -1) onlyHashError
    require (reissue.nReissuable ≠ 1)
      "Unable to reissue asset: cannot change unissuable asset to reissuable"
  checkReissueAmounts prev reissue
  checkReissueHash env reissue

def contextualCheckTransferAsset (transfer : AssetTransfer) (address : Bytes) : Check Unit := do
  require (isAssetNameValid transfer.strName).passed nameError
  let assetType := assetNameType transfer.strName
  require (0 < transfer.nAmount)
    "Invalid parameter: asset amount can't be equal to or less than zero."
  guarded env.areMessagesDeployed do
    require (!(transfer.message = [] && transfer.nExpireTime > 0))
      ("Invalid parameter: asset transfer expiration time requires a message to be attached " ++
        "to the transfer")
    require (0 ≤ transfer.nExpireTime)
      "Invalid parameter: expiration time must be a positive value"
    guarded (transfer.message ≠ []) (checkEncoded env transfer.message)
  require (assetType ≠ .msgChannel || env.areMessagesDeployed)
    "bad-txns-transfer-msgchannel-before-messaging-is-active"
  guarded (assetType = .restricted) do
    require env.areRestrictedAssetsDeployed "bad-txns-transfer-restricted-before-it-is-active"
    require (!cache.checkForGlobalRestriction global transfer.strName true)
      "bad-txns-transfer-restricted-asset-that-is-globally-restricted"
    -- the error of this check stays in a local variable
    require (match cache.getAssetVerifierStringIfExists global transfer.strName true with
      | some verifier => (contextualCheckVerifierString env global cache verifier address).passed
      | none => false) ""
  require (!(assetType = .qualifier || assetType = .subQualifier) ||
      env.areRestrictedAssetsDeployed)
    "bad-txns-transfer-qualifier-before-it-is-active"

def verifyNullAssetDataFlag (flag : Int) : Check Unit :=
  require (flag = 0 || flag = 1) "bad-txns-null-data-flag-must-be-0-or-1"

def verifyChange (flag : Int) (current : Bool) (whenSet whenUnset : String) : Check Unit := do
  verifyNullAssetDataFlag flag
  if flag ≠ 0 then require (!current) whenSet else require current whenUnset

variable (data : NullAssetTxData)

def verifyQualifierChange (address : Bytes) : Check Unit :=
  verifyChange data.flag (cache.checkForAddressQualifier global data.assetName address true)
    "bad-txns-null-data-add-qualifier-when-already-assigned"
    "bad-txns-null-data-removing-qualifier-when-not-assigned"

def verifyRestrictedAddressChange (address : Bytes) : Check Unit :=
  verifyChange data.flag (cache.checkForAddressRestriction global data.assetName address true)
    "bad-txns-null-data-freeze-address-when-already-frozen"
    "bad-txns-null-data-unfreeze-address-when-not-frozen"

def verifyGlobalRestrictedChange : Check Unit :=
  verifyChange data.flag (cache.checkForGlobalRestriction global data.assetName true)
    "bad-txns-null-data-global-freeze-when-already-frozen"
    "bad-txns-null-data-global-unfreeze-when-not-frozen"

def contextualCheckNullAssetTxOut (out : TxOut) : Check Unit := do
  let (data, address) ← require? (assetNullDataFromScript env out.scriptPubKey)
    "bad-txns-null-asset-data-serialization"
  if isAssetNameAQualifier data.assetName false then
    verifyQualifierChange global cache data address
  else if isAssetNameAnRestricted data.assetName then
    verifyRestrictedAddressChange global cache data address
  else .error "bad-txns-null-asset-data-on-non-restricted-or-qualifier-asset"

def contextualCheckGlobalAssetTxOut (out : TxOut) : Check Unit := do
  let data ← require? (globalAssetNullDataFromScript out.scriptPubKey)
    "bad-txns-null-global-asset-data-serialization"
  verifyGlobalRestrictedChange global cache data

def contextualCheckVerifierAssetTxOut (out : TxOut) : Check Unit := do
  let verifier ← require? (assetNullVerifierDataFromScript out.scriptPubKey)
    "bad-txns-null-verifier-data-serialization"
  require (contextualCheckVerifierString env global cache verifier []).passed ""

def contextualCheckUniqueAssetTx (mempool : MempoolMaps) (tx : Transaction) : Check Unit :=
  forM tx.vout fun out =>
    if isScriptNewUniqueAsset env out.scriptPubKey then do
      let (asset, _) ← require? (assetFromScript env out.scriptPubKey)
        "bad-txns-issue-unique-serialization-failed"
      contextualCheckNewAsset env global cache mempool asset false
    else pure ⟨⟩

end Phicoin
