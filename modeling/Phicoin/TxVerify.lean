import Phicoin.AssetChecks
import Phicoin.Coins

/-! # Transaction validation

`CheckTransaction` looks at a transaction alone, `CheckTxInputs` at the coins it
spends, and `CheckTxAssets` at its assets: the coins it spends, the asset state
and the totals per asset. -/

namespace Phicoin

open KeyedMap Check

def maxBlockWeight : Nat := 4000000

def witnessScaleFactor : Nat := 4

def coinbaseMaturity : Int := 100

def scriptSize (script : Bytes) : Nat := (ByteReader.writeString script).length

/-- `GetSerializeSize` without the witness. -/
def Transaction.serializeSize (tx : Transaction) : Nat :=
  4 + (ByteReader.writeCompactSize tx.vin.length).length +
    (tx.vin.map fun input => 36 + scriptSize input.scriptSig + 4).sum +
    (ByteReader.writeCompactSize tx.vout.length).length +
    (tx.vout.map fun out => 8 + scriptSize out.scriptPubKey).sum + 4

structure OutputScan where
  nValueOut : Int
  setAssetTransferNames : List Bytes
  mapNullDataTxCount : List (Bytes × Bytes)
  setNullGlobalAssetChanges : List Bytes
  fContainsNullAssetVerifierTx : Bool
  nCountAddTagOuts : Nat

def OutputScan.start : OutputScan := ⟨0, [], [], [], false, 0⟩

section

variable (env : Env)
  (scan : OutputScan) (out : TxOut)

def checkVerifierAssetTxOut : Check Unit :=
  checkVerifierTxOut (assetNullVerifierDataFromScript out.scriptPubKey)

def scanValue : Check OutputScan := do
  require (0 ≤ out.nValue) "bad-txns-vout-negative"
  require (out.nValue ≤ maxMoney) "bad-txns-vout-toolarge"
  let nValueOut := addAmount scan.nValueOut out.nValue
  require (moneyRange nValueOut) "bad-txns-txouttotal-toolarge"
  return { scan with nValueOut := nValueOut }

def scanNullAsset : Check OutputScan :=
  if isNullAssetTxDataScript out.scriptPubKey then do
    let (data, address) ← require? (assetNullDataFromScript env out.scriptPubKey)
      "bad-txns-null-asset-data-serialization"
    verifyNullAssetDataFlag data.flag
    require (!scan.mapNullDataTxCount.contains (data.assetName, address))
      "bad-txns-null-data-only-one-change-per-asset-address"
    let tagged := isAssetNameAQualifier data.assetName false && data.flag = 1
    return { scan with
      mapNullDataTxCount := (data.assetName, address) :: scan.mapNullDataTxCount
      nCountAddTagOuts := scan.nCountAddTagOuts + if tagged then 1 else 0 }
  else if isNullGlobalRestrictionAssetTxDataScript out.scriptPubKey then do
    let data ← require? (globalAssetNullDataFromScript out.scriptPubKey)
      "bad-txns-null-global-asset-data-serialization"
    verifyNullAssetDataFlag data.flag
    require (!scan.setNullGlobalAssetChanges.contains data.assetName)
      "bad-txns-null-data-only-one-global-change-per-asset-name"
    return { scan with
      setNullGlobalAssetChanges := data.assetName :: scan.setNullGlobalAssetChanges }
  else if isNullAssetVerifierTxDataScript out.scriptPubKey then do
    checkVerifierAssetTxOut out
    require (!scan.fContainsNullAssetVerifierTx) "bad-txns-null-data-only-one-verifier-per-tx"
    return { scan with fContainsNullAssetVerifierTx := true }
  else return scan

def scanTransfer : Check OutputScan := do
  let (transfer, _) ← require? (transferAssetFromScript env out.scriptPubKey)
    "bad-txns-transfer-asset-bad-deserialize"
  require (isAssetNameValid transfer.strName).passed "bad-txns-transfer-asset-name-invalid"
  let assetType := assetNameType transfer.strName
  require (!isAssetNameAnOwner transfer.strName || transfer.nAmount = ownerAssetAmount)
    "bad-txns-transfer-owner-amount-was-not-1"
  require (assetType ≠ .unique || transfer.nAmount = uniqueAssetAmount)
    "bad-txns-transfer-unique-amount-was-not-1"
  require (!(assetType = .qualifier || assetType = .subQualifier) ||
      (qualifierAssetMinAmount ≤ transfer.nAmount && transfer.nAmount ≤ qualifierAssetMaxAmount))
    "bad-txns-transfer-qualifier-amount-must be between 1 - 100"
  require (out.nValue = 0) "bad-txns-asset-transfer-amount-isn't-zero"
  return { scan with setAssetTransferNames := transfer.strName :: scan.setAssetTransferNames }

def scanAsset (fMempoolCheck fBlockCheck : Bool) (scan : OutputScan) (out : TxOut) :
    Check OutputScan :=
  match isAssetScript out.scriptPubKey with
  | none => return scan
  | some info =>
    match info.nType with
    | .transferAsset => scanTransfer env scan out
    | .newAsset => do
        require (out.nValue = 0) "bad-txns-asset-issued-amount-isn't-zero"
        return scan
    | .reissueAsset => do
        require (!(env.areEnforcedValuesDeployed && fBlockCheck) || out.nValue = 0)
          "bad-txns-asset-reissued-amount-isn't-zero"
        require (!fMempoolCheck || out.nValue = 0)
          "bad-mempool-txns-asset-reissued-amount-isn't-zero"
        return scan
    | _ => .error "bad-asset-type-not-any-of-the-main-three"

def scanOutput (fMempoolCheck fBlockCheck : Bool) (scan : OutputScan) (out : TxOut) :
    Check OutputScan := do
  let valued ← scanValue scan out
  let nulls ← scanNullAsset env valued out
  scanAsset env fMempoolCheck fBlockCheck nulls out

def checkNullAuthority : Check Unit := do
  forM scan.mapNullDataTxCount fun entry =>
    if entry.1.head? = some restrictedChar then
      require (scan.setAssetTransferNames.contains (entry.1.drop 1 ++ ownerTag))
        "bad-txns-tx-contains-restricted-asset-null-tx-without-asset-transfer"
    else
      require (scan.setAssetTransferNames.contains entry.1)
        "bad-txns-tx-contains-qualifier-asset-null-tx-without-asset-transfer"
  forM scan.setNullGlobalAssetChanges fun name => do
    require (name ≠ []) "bad-txns-tx-contains-global-asset-null-tx-with-null-asset-name"
    require (scan.setAssetTransferNames.contains (name.drop 1 ++ ownerTag))
      "bad-txns-tx-contains-global-asset-null-tx-without-asset-transfer"

def checkPrevouts (tx : Transaction) (fCheckDuplicateInputs : Bool) : Check Unit := do
  require (!fCheckDuplicateInputs || (tx.vin.map TxIn.prevout).Nodup)
    "bad-txns-inputs-duplicate"
  if tx.isCoinBase then do
    forM tx.vin fun input =>
      require (2 ≤ input.scriptSig.length && input.scriptSig.length ≤ 100) "bad-cb-length"
    require (!env.areCoinbaseCheckAssetsDeployed || tx.vout.all fun out =>
        (isAssetScript out.scriptPubKey).isNone && !isNullAsset out.scriptPubKey)
      "bad-txns-coinbase-contains-asset-txes"
  else
    forM tx.vin fun input => require (!input.prevout.isNull) "bad-txns-prevout-null"

/-- What the checks of the transaction's kind find about restricted assets. -/
inductive RestrictedUse where
  | none
  | issuance
  | reissuance
deriving DecidableEq

def checkPlainOutput : Check Unit :=
  match isAssetScript out.scriptPubKey with
  | some info => require (info.nType = .transferAsset) "bad-txns-bad-asset-transaction"
  | none => require (find out.scriptPubKey opPhiAsset = 0 ||
        byteAt out.scriptPubKey 0 = opPhiAsset)
      "bad-txns-op-PHI-asset-not-in-right-script-location"

def checkTransactionKind (tx : Transaction) : Check RestrictedUse := do
  if tx.isNewAsset env then
    tx.verifyNewAsset env
    let (asset, address) ← require? (tx.assetFromTransaction env)
      "bad-txns-issue-asset-from-transaction"
    tx.isNewOwnerTxValid env asset.strName address
    checkNewAsset asset
    return .none
  else if tx.isReissueAsset then
    tx.verifyReissueAsset env
    let (reissue, _) ← require? (tx.reissueAssetFromTransaction env) "bad-txns-reissue-asset"
    checkReissueAsset env reissue
    if assetNameType reissue.strName = .restricted then
      let _ ← labelled "bad-txns-reissue-restricted-verifier-" tx.getVerifierStringFromTx
      return .reissuance
    else return .none
  else if tx.isNewUniqueAsset env then
    tx.verifyNewUniqueAsset env
    forM tx.vout fun out =>
      if isScriptNewUniqueAsset env out.scriptPubKey then do
        let (asset, _) ← require? (assetFromScript env out.scriptPubKey)
          "bad-txns-check-transaction-issue-unique-asset-serialization"
        labelled "bad-txns-issue-unique" (checkNewAsset asset)
      else pure ⟨⟩
    return .none
  else if tx.isNewMsgChannelAsset env then
    tx.verifyNewMsgChannelAsset env
    let (asset, _) ← require? (tx.msgChannelAssetFromTransaction env)
      "bad-txns-issue-msgchannel-from-transaction"
    labelled "bad-txns-issue-msgchannel" (checkNewAsset asset)
    return .none
  else if tx.isNewQualifierAsset env then
    tx.verifyNewQualfierAsset env
    let (asset, _) ← require? (tx.qualifierAssetFromTransaction env)
      "bad-txns-issue-qualifier-from-transaction"
    labelled "bad-txns-issue-qualfier" (checkNewAsset asset)
    return .none
  else if tx.isNewRestrictedAsset env then
    tx.verifyNewRestrictedAsset env
    let (asset, _) ← require? (tx.restrictedAssetFromTransaction env)
      "bad-txns-issue-restricted-from-transaction"
    labelled "bad-txns-issue-restricted" (checkNewAsset asset)
    let _ ← labelled "bad-txns-issue-restricted-verifier-search-" tx.requireVerifierString
    return .issuance
  else
    forM tx.vout checkPlainOutput
    return .none

def checkTransaction (tx : Transaction) (fCheckDuplicateInputs fMempoolCheck fBlockCheck : Bool) :
    Check Unit := do
  require (tx.vin ≠ []) "bad-txns-vin-empty"
  require (tx.vout ≠ []) "bad-txns-vout-empty"
  require (tx.serializeSize * witnessScaleFactor ≤ maxBlockWeight) "bad-txns-oversize"
  let scan ← tx.vout.foldlM (scanOutput env fMempoolCheck fBlockCheck) OutputScan.start
  require (scan.nCountAddTagOuts = 0 || tx.checkAddingTagBurnFee env scan.nCountAddTagOuts)
    "bad-txns-tx-doesn't-contain-required-burn-fee-for-adding-tags"
  checkNullAuthority scan
  checkPrevouts env tx fCheckDuplicateInputs
  let use ← checkTransactionKind env tx
  require (!(scan.fContainsNullAssetVerifierTx && use = .none))
    ("bad-txns-tx-cointains-verifier-string-without-restricted-asset-issuance-" ++
      "or-reissuance")
  require (!(use = .issuance && !scan.fContainsNullAssetVerifierTx))
    "bad-txns-tx-cointains-restricted-asset-issuance-without-verifier"

end

/-- `CheckTxInputs`: the fee. -/
def checkTxInputs (env : Env) (view : CoinsView) (tx : Transaction) (nSpendHeight : Nat) :
    Check Int := do
  require (view.haveInputs tx) "bad-txns-inputs-missingorspent"
  let nValueIn ← tx.vin.foldlM (fun (nValueIn : Int) input => do
    let coin ← require? (view.lookup input.prevout) "assertion !coin.IsSpent()"
    require (!(coin.fCoinBase && (nSpendHeight : Int) - coin.nHeight < coinbaseMaturity))
      "bad-txns-premature-spend-of-coinbase"
    let total := addAmount nValueIn coin.out.nValue
    require (moneyRange coin.out.nValue && moneyRange total)
      "bad-txns-inputvalues-outofrange"
    return total) 0
  let valueOut ← tx.getValueOut env.areEnforcedValuesDeployed
  require (valueOut ≤ nValueIn) "bad-txns-in-belowout"
  let txfee := TwosComplement.wrap 64 (nValueIn - valueOut)
  require (moneyRange txfee) "bad-txns-fee-out-of-range"
  return txfee

structure Message where
  out : OutPoint
  strName : Bytes
  ipfsHash : Bytes
  nExpiredTime : Int
  time : Int

structure AssetInputs where
  totalInputs : KeyedMap Bytes Int
  mapAddresses : KeyedMap Bytes Bytes

/-- What the loop over the outputs collects, with the index of the next output. -/
structure AssetOutputs where
  totalOutputs : KeyedMap Bytes Int
  vPairReissueAssets : List (Bytes × Uint256)
  setMessages : List Message
  index : Nat

variable (env : Env) (global : AssetState) (cache : AssetsCache)

def checkAssetInput (view : CoinsView) (inputs : AssetInputs) (input : TxIn) :
    Check AssetInputs := do
  let coin ← require? (view.lookup input.prevout) "assertion !coin.IsSpent()"
  if (isAssetScript coin.out.scriptPubKey).isSome then
    let data ← require? (getAssetData env coin.out.scriptPubKey)
      "bad-txns-failed-to-get-asset-from-script"
    let address := encodeDestination env data.destination
    require (!(isAssetNameAnRestricted data.assetName &&
        cache.checkForAddressRestriction global data.assetName address true))
      "bad-txns-restricted-asset-transfer-from-frozen-address"
    return {
      totalInputs := accumulate addAmount inputs.totalInputs data.assetName data.nAmount
      mapAddresses := if env.areMessagesDeployed then
        insertNew data.assetName address inputs.mapAddresses else inputs.mapAddresses }
  else return inputs

/-- The tag, freeze or verifier string of an output against the asset state. -/
def checkNullAssetOutput (out : TxOut) : Check Unit :=
  if isNullAsset out.scriptPubKey then do
    require env.areRestrictedAssetsDeployed
      "bad-tx-null-asset-data-before-restricted-assets-activated"
    if isNullAssetTxDataScript out.scriptPubKey then
      contextualCheckNullAssetTxOut env global cache out
    else if isNullGlobalRestrictionAssetTxDataScript out.scriptPubKey then
      contextualCheckGlobalAssetTxOut global cache out
    else if isNullAssetVerifierTxDataScript out.scriptPubKey then
      contextualCheckVerifierAssetTxOut env global cache out
    else .error "bad-tx-null-asset-data-unknown-type"
  else pure ()

def checkTransferUnits (transfer : AssetTransfer) : Check Unit :=
  if isAssetNameAnOwner transfer.strName then
    require (transfer.nAmount = ownerAssetAmount) "bad-txns-transfer-owner-amount-was-not-1"
  else do
    let asset ← require? (cache.getAssetMetaDataIfExists global transfer.strName)
      "bad-txns-transfer-asset-not-exist"
    require (asset.strName = transfer.strName) "bad-txns-asset-database-corrupted"
    require (checkAmountWithUnits transfer.nAmount asset.units)
      "bad-txns-transfer-asset-amount-not-match-units"

variable (mempool : MempoolMaps) (tx : Transaction) (mapAddresses : KeyedMap Bytes Bytes)
  (nBlocktime currentTime : Int) (outputs : AssetOutputs)

/-- The message of a transfer back to the address the channel was spent from. -/
def transferMessages
    (transfer : AssetTransfer) (address : Bytes) (index : Nat) (nBlocktime currentTime : Int) :
    List Message :=
  if env.areMessagesDeployed && env.fMessaging &&
      (isAssetNameAnOwner transfer.strName || isAssetNameAnMsgChannel transfer.strName) &&
      transfer.message ≠ [] &&
      (transfer.nExpireTime = 0 || transfer.nExpireTime > currentTime) &&
      mapAddresses.lookup transfer.strName = some address then
    [⟨⟨tx.hash, index⟩, transfer.strName, transfer.message, transfer.nExpireTime, nBlocktime⟩]
  else []

def checkTransferOutput (out : TxOut) : Check AssetOutputs := do
  let (transfer, address) ← require? (transferAssetFromScript env out.scriptPubKey)
    "bad-tx-asset-transfer-bad-deserialize"
  contextualCheckTransferAsset env global cache transfer address
  checkTransferUnits global cache transfer
  return { outputs with
    totalOutputs := accumulate addAmount outputs.totalOutputs transfer.strName transfer.nAmount
    setMessages := outputs.setMessages ++ transferMessages env tx mapAddresses transfer address
      outputs.index nBlocktime currentTime }

def checkReissueOutput (out : TxOut) : Check AssetOutputs := do
  let (reissue, _) ← require? (reissueAssetFromScript env out.scriptPubKey)
    "bad-tx-asset-reissue-bad-deserialize"
  match mempool.mapReissuedAssets.lookup reissue.strName with
  | some hash =>
    require (hash = tx.hash) "bad-tx-reissue-chaining-not-allowed"
    return outputs
  | none =>
    return { outputs with
      vPairReissueAssets := outputs.vPairReissueAssets ++ [(reissue.strName, tx.hash)] }

def checkAssetOutputKind (nType : Option TxnOutType)
    (outputs : AssetOutputs) (out : TxOut) : Check AssetOutputs :=
  match nType with
  | some .transferAsset =>
    checkTransferOutput env global cache tx mapAddresses nBlocktime currentTime outputs out
  | some .reissueAsset => checkReissueOutput env mempool tx outputs out
  | _ => pure outputs

def checkAssetOutput (out : TxOut) : Check AssetOutputs := do
  let info := isAssetScript out.scriptPubKey
  require (info.isNone || env.areAssetsDeployed) "bad-txns-is-asset-and-asset-not-active"
  checkNullAssetOutput env global cache out
  let checked ← checkAssetOutputKind env global cache mempool tx mapAddresses nBlocktime currentTime
    (info.map AssetScript.nType) outputs out
  return { checked with index := checked.index + 1 }

def checkTxAssetsKind (fCheckMempool : Bool) :
    Check Unit := do
  if tx.isNewAsset env then
    let (asset, _) ← require? (assetFromScript env tx.lastScript)
      "bad-txns-issue-serialzation-failed"
    contextualCheckNewAsset env global cache mempool asset fCheckMempool
  else if tx.isReissueAsset then
    let (reissue, _) ← require? (reissueAssetFromScript env tx.lastScript)
      "bad-txns-reissue-serialzation-failed"
    labelled "bad-txns-reissue-contextual-"
      (contextualCheckReissueAssetTx env global cache reissue tx)
  else if tx.isNewUniqueAsset env then
    labelled "bad-txns-issue-unique-contextual-"
      (contextualCheckUniqueAssetTx env global cache mempool tx)
  else if tx.isNewMsgChannelAsset env then
    require env.areMessagesDeployed "bad-txns-issue-msgchannel-before-messaging-is-active"
    let (asset, _) ← require? (tx.msgChannelAssetFromTransaction env)
      "bad-txns-issue-msgchannel-serialzation-failed"
    labelled "bad-txns-issue-msgchannel-contextual-"
      (contextualCheckNewAsset env global cache mempool asset fCheckMempool)
  else if tx.isNewQualifierAsset env then
    require env.areRestrictedAssetsDeployed "bad-txns-issue-qualifier-before-it-is-active"
    let (asset, _) ← require? (tx.qualifierAssetFromTransaction env)
      "bad-txns-issue-qualifier-serialzation-failed"
    labelled "bad-txns-issue-qualfier-contextual"
      (contextualCheckNewAsset env global cache mempool asset fCheckMempool)
  else if tx.isNewRestrictedAsset env then
    require env.areRestrictedAssetsDeployed "bad-txns-issue-restricted-before-it-is-active"
    let (asset, address) ← require? (tx.restrictedAssetFromTransaction env)
      "bad-txns-issue-restricted-serialzation-failed"
    labelled "bad-txns-issue-restricted-contextual"
      (contextualCheckNewAsset env global cache mempool asset fCheckMempool)
    let verifier ← labelled "bad-txns-issue-restricted-verifier-search-"
      tx.requireVerifierString
    contextualCheckVerifierString env global cache verifier address
  else
    forM tx.vout fun out =>
      match isAssetScript out.scriptPubKey with
      | some info => require (info.nType = .transferAsset) "bad-txns-bad-asset-transaction"
      | none =>
        if find out.scriptPubKey opPhiAsset = 0 then pure ⟨⟩
        else do
          require env.areRestrictedAssetsDeployed "bad-txns-bad-asset-script"
          require (byteAt out.scriptPubKey 0 = opPhiAsset)
            "bad-txns-op-PHI-asset-not-in-right-script-location"

def checkTotals (totalInputs totalOutputs : KeyedMap Bytes Int) : Check Unit := do
  forM totalOutputs.entries fun entry => do
    let total ← require? (totalInputs.lookup entry.1)
      ("bad-tx-inputs-outputs-mismatch Bad Transaction - Trying to create outpoint for asset " ++
        "that you don't have: " ++ textOf entry.1)
    require (total = entry.2)
      ("bad-tx-inputs-outputs-mismatch Bad Transaction - Assets would be burnt " ++ textOf entry.1)
  require (totalOutputs.entries.length = totalInputs.entries.length)
    "bad-tx-asset-inputs-size-does-not-match-outputs-size"

def checkTxAssets (view : CoinsView) (tx : Transaction)
    (fCheckMempool : Bool) (nBlocktime currentTime : Int) : Check AssetOutputs := do
  require (view.haveInputs tx) "bad-txns-inputs-missing-or-spent"
  let inputs ← tx.vin.foldlM (checkAssetInput env global cache view) ⟨∅, ∅⟩
  let outputs ← tx.vout.foldlM
    (checkAssetOutput env global cache mempool tx inputs.mapAddresses nBlocktime currentTime)
    ⟨∅, [], [], 0⟩
  checkTxAssetsKind env global cache mempool tx fCheckMempool
  checkTotals inputs.totalInputs outputs.totalOutputs
  return outputs

end Phicoin
