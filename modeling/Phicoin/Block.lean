import Phicoin.TxVerify

/-! # Connecting and disconnecting blocks

`ConnectBlock` checks the transactions of a block one after the other and
applies each before the next is checked; `DisconnectBlock` takes them back in
reverse order.  Both work on the coins and on a fresh asset cache of the block,
over the global asset state. -/

namespace Phicoin

open Check

/-- `CBlock`, with the fields of its header that the functions below read. -/
structure Block where
  vtx : List Transaction
  hash : Uint256
  nTime : Int
deriving DecidableEq

/-- The parts of block validation that read neither assets nor the mempool:
header, merkle root and sizes, legacy signature operations, relative lock times
(given the heights of the spent coins), the cost of signature operations, and
the scripts of the inputs. -/
structure BlockRules where
  hashGenesisBlock : Uint256
  checkHeader : Block → Check Unit
  checkSigOps : Block → Check Unit
  sequenceLocks : Transaction → List Nat → Bool
  getTransactionSigOpCost : CoinsView → Transaction → Nat
  checkInputs : CoinsView → Transaction → Check Unit

def maxBlockSigopsCost : Nat := 80000

def getBlockSubsidy (env : Env) (nHeight : Nat) : Int :=
  if nHeight = 1 then 320000005 * coin
  else if nHeight / env.params.nSubsidyHalvingInterval ≥ 1 then 250000000
  else 5 * coin

def devSubsidy (env : Env) (nHeight : Nat) : Int :=
  let nSubsidy := getBlockSubsidy env nHeight
  if nHeight = 1 then 320000000 * coin else nSubsidy - 50 * nSubsidy / 100

def getScriptForDestination : TxDestination → Bytes
  | .noDestination => []
  | .keyId id => payToPublicKeyHash id
  | .scriptId id => [opHash160] ++ pushData id ++ [opEqual]

def checkBlock (env : Env) (rules : BlockRules) (block : Block) : Check Unit := do
  rules.checkHeader block
  require ((block.vtx.head?.map Transaction.isCoinBase).getD false) "bad-cb-missing"
  require (block.vtx.tail.all fun tx => !tx.isCoinBase) "bad-cb-multiple"
  forM block.vtx fun tx => checkTransaction env tx true false true
  rules.checkSigOps block

/-- What the loop of `ConnectBlock` carries. -/
structure Connecting where
  view : BlockView
  nFees : Int
  nSigOpsCost : Nat
  vprevouts : List (List Coin)
  vUndoAssetData : List (Bytes × BlockAssetUndo)
  setMessages : List Message

section

variable (env : Env) (rules : BlockRules) (global : AssetState) (mempool : MempoolMaps)
  (nHeight : Nat) (block : Block) (currentTime : Int)

/-- The assets of a transaction: none before the deployment, checked after it. -/
def checkDeployedAssets (view : BlockView) (tx : Transaction) : Check (List Message) :=
  if env.areAssetsDeployed then do
    let outputs ← checkTxAssets env global view.assets mempool view.coins tx false block.nTime
      currentTime
    return outputs.setMessages
  else do
    forM tx.vout fun out =>
      if (isAssetScript out.scriptPubKey).isSome then .error "bad-txns-assets-not-active"
      else require (!isNullAsset out.scriptPubKey) "bad-txns-null-data-assets-not-active"
    return []

/-- The checks of a transaction that spends coins: the fees so far and its messages. -/
def checkSpending (acc : Connecting) (tx : Transaction) : Check (Int × List Message) :=
  if tx.isCoinBase then .ok (acc.nFees, [])
  else do
    let txfee ← checkTxInputs env acc.view.coins tx nHeight
    let nFees := addAmount acc.nFees txfee
    require (moneyRange nFees) "bad-txns-accumulated-fee-outofrange"
    let messages ← checkDeployedAssets env global mempool block currentTime acc.view tx
    let prevheights := tx.vin.map fun input =>
      ((acc.view.coins.lookup input.prevout).map Coin.nHeight).getD 0
    require (rules.sequenceLocks tx prevheights) "bad-txns-nonfinal"
    return (nFees, messages)

def connectTx (acc : Connecting) (tx : Transaction) : Check Connecting := do
  let (nFees, messages) ← checkSpending env rules global mempool nHeight block currentTime acc tx
  let nSigOpsCost := acc.nSigOpsCost + rules.getTransactionSigOpCost acc.view.coins tx
  require (nSigOpsCost ≤ maxBlockSigopsCost) "bad-blk-sigops"
  guarded (!tx.isCoinBase) (rules.checkInputs acc.view.coins tx)
  let updated ← acc.view.updateCoins env global tx nHeight block.hash
  return {
    view := updated.view
    nFees := nFees
    nSigOpsCost := nSigOpsCost
    vprevouts := acc.vprevouts ++ [updated.vprevout]
    -- an item without a name is not kept
    vUndoAssetData := acc.vUndoAssetData ++ updated.undo.toList.filter fun item => item.1 ≠ []
    setMessages := acc.setMessages ++ messages }

/-- The value, the development share and the development address of the coinbase. -/
def checkCoinbase (nFees : Int) : Check Unit := do
  let coinbase ← require? block.vtx.head? "assertion !vtx.empty()"
  let valueOut ← coinbase.getValueOut env.areEnforcedValuesDeployed
  require (valueOut ≤ addAmount nFees (getBlockSubsidy env nHeight)) "bad-cb-amount"
  let devOutput ← require? coinbase.vout[1]? "vout[1] out of range"
  require (devSubsidy env nHeight ≤ devOutput.nValue) "bad-cb-community-autonomous-amount"
  require (devOutput.scriptPubKey =
      getScriptForDestination (decodeDestination env env.params.devAddress))
    "bad-cb-community-autonomous-address"

/-- What `ConnectBlock` leaves: the view with the block's asset cache, the spent
coins of every transaction but the first, and the asset undo items. -/
structure Connected where
  view : BlockView
  vtxundo : List (List Coin)
  vUndoAssetData : List (Bytes × BlockAssetUndo)
  setMessages : List Message

def connectBlock (view : BlockView) : Check Connected := do
  checkBlock env rules block
  if block.hash = rules.hashGenesisBlock then return ⟨view, [], [], []⟩
  else do
    let final ← block.vtx.foldlM
      (connectTx env rules global mempool nHeight block currentTime) ⟨view, 0, 0, [], [], []⟩
    checkCoinbase env nHeight block final.nFees
    return ⟨final.view, final.vprevouts.tail, final.vUndoAssetData, final.setMessages⟩

end

/-- What the loop of `DisconnectBlock` carries: the coins with the asset cache,
the copy of the cache that only takes spends, and whether all outputs matched. -/
structure Disconnecting where
  coins : CoinsView
  assets : AssetsCache
  tempCache : AssetsCache
  fClean : Bool

/-- The verdict and the view of a block that was disconnected; a failed
disconnect is refused with its message. -/
structure Disconnected where
  view : BlockView
  fClean : Bool

/-- `AccessByTxid`: the unspent output of a transaction with the least index. -/
def accessByTxid (view : CoinsView) (hash : Uint256) : Option Coin :=
  let indexes := (view.entries.filter fun entry => entry.1.hash = hash).map fun entry => entry.1.n
  match indexes.min? with
  | some n => view.lookup ⟨hash, n⟩
  | none => none

variable (env : Env) (global : AssetState) (nHeight : Nat)
  (vUndoData : List (Bytes × BlockAssetUndo)) (cache : AssetsCache) (tx : Transaction)

/-- The output of index `n` taken out of the coins; an unspendable one is not there. -/
def spendOutput (acc : Disconnecting) (n : Nat) (out : TxOut) : Disconnecting :=
  if isUnspendable out.scriptPubKey then acc
  else
    let (spent, coin, isSpent) :=
      (⟨acc.coins, acc.tempCache⟩ : BlockView).spendCoin env global ⟨tx.hash, n⟩
    let matched := match coin with
      | some c => isSpent && c.out.nValue = out.nValue && c.out.scriptPubKey = out.scriptPubKey &&
          c.nHeight = nHeight && c.fCoinBase = tx.isCoinBase
      | none => false
    { acc with coins := spent.coins, tempCache := spent.assets, fClean := acc.fClean && matched }

def spendOutputs (tx : Transaction) : List TxOut → Nat → Disconnecting → Disconnecting
  | [], _, acc => acc
  | out :: rest, n, acc => spendOutputs tx rest (n + 1) (spendOutput env global nHeight tx acc n out)

/-- `RemoveNewAsset` of an asset the cache contains. -/
def undoNewAsset (asset : NewAsset) (address : Bytes) : AssetsCache :=
  (cache.removeNewAsset env global asset address).getD cache

/-- `RemoveReissueAsset` of an asset the cache contains. -/
def undoReissue (reissue : ReissueAsset) (address : Bytes) (out : OutPoint) : Check AssetsCache :=
  if cache.checkIfAssetExists env global reissue.strName then
    require? (cache.removeReissueAsset env global reissue address out vUndoData)
      "Failed to Undo Reissue Asset"
  else .ok cache

def lastVerifierScript : Option Bytes :=
  if env.areRestrictedAssetsDeployed then
    (tx.vout.reverse.find? fun out => isUnspendable out.scriptPubKey &&
      isNullAssetVerifierTxDataScript out.scriptPubKey).map TxOut.scriptPubKey
  else none

def undoIssues : Check AssetsCache :=
  if tx.isNewAsset env then do
    let (asset, address) ← require? (tx.assetFromTransaction env)
      "Failed to get asset from transaction"
    let (ownerName, ownerAddress) ← require? (tx.ownerFromTransaction env)
      "Failed to get owner from transaction"
    return (undoNewAsset env global cache asset address).removeOwnerAsset env ownerName ownerAddress
  else if tx.isReissueAsset then do
    let (reissue, address) ← require? (tx.reissueAssetFromTransaction env)
      "Failed to get reissue asset from transaction"
    undoReissue env global vUndoData cache reissue address ⟨tx.hash, tx.vout.length - 1⟩
  else if tx.isNewUniqueAsset env then
    tx.vout.foldlM (fun acc out =>
      if isScriptNewUniqueAsset env out.scriptPubKey then do
        let (asset, address) ← require? (assetFromScript env out.scriptPubKey)
          "Failed to get unique asset from transaction"
        return undoNewAsset env global acc asset address
      else pure acc) cache
  else if tx.isNewMsgChannelAsset env then do
    let (asset, address) ← require? (tx.msgChannelAssetFromTransaction env)
      "Failed to get msgchannel asset from transaction"
    return undoNewAsset env global cache asset address
  else if tx.isNewQualifierAsset env then do
    let (asset, address) ← require? (tx.qualifierAssetFromTransaction env)
      "Failed to get qualifier asset from transaction"
    return undoNewAsset env global cache asset address
  else if tx.isNewRestrictedAsset env then do
    let (asset, address) ← require? (tx.restrictedAssetFromTransaction env)
      "Failed to get restricted asset from transaction"
    let script ← require? (lastVerifierScript env tx)
      "Failed to find the restricted asset verifier string index from trasaction"
    let verifier ← require? (assetNullVerifierDataFromScript script)
      "Failed to get the restricted asset verifier string from trasaction"
    return (undoNewAsset env global cache asset address).removeRestrictedVerifier asset.strName
      verifier false
  else .ok cache

/-- The transfers of the outputs from index `n` on. -/
def undoTransfers (tx : Transaction) : List TxOut → Nat → AssetsCache → Check AssetsCache
  | [], _, cache => .ok cache
  | out :: rest, n, cache =>
    if !isUnspendable out.scriptPubKey && isTransferAssetScript out.scriptPubKey then do
      let (transfer, address) ← require? (transferAssetFromScript env out.scriptPubKey)
        "Failed to get transfer asset from transaction"
      let removed ← require? (cache.removeTransfer env global transfer address ⟨tx.hash, n⟩)
        "Failed to Remove the transfer of an asset"
      undoTransfers tx rest (n + 1) removed
    else undoTransfers tx rest (n + 1) cache

/-- The tag or freeze of an output taken back with the type it was made with. -/
def undoNullData (out : TxOut) : Check AssetsCache :=
  let script := out.scriptPubKey
  if !(isUnspendable script && isNullAsset script) then .ok cache
  else if isNullAssetTxDataScript script then do
    let (data, address) ← require? (assetNullDataFromScript env script)
      "Failed to get null asset data from transaction"
    let type := assetNameType data.assetName
    return if type = .qualifier || type = .subQualifier then
        cache.removeQualifierAddress data.assetName address
          (if data.flag ≠ 0 then .addQualifier else .removeQualifier)
      else if type = .restricted then
        cache.removeRestrictedAddress data.assetName address
          (if data.flag ≠ 0 then .freezeAddress else .unfreezeAddress)
      else cache
  else if isNullGlobalRestrictionAssetTxDataScript script then do
    let data ← require? (globalAssetNullDataFromScript script)
      "Failed to get global null asset data from transaction"
    return cache.removeGlobalRestricted data.assetName
      (if data.flag ≠ 0 then .globalFreeze else .globalUnfreeze)
  else .ok cache

def undoNulls (cache : AssetsCache) : Check AssetsCache :=
  if env.areRestrictedAssetsDeployed then tx.vout.foldlM (undoNullData env) cache else .ok cache

/-- What `DisconnectBlock` takes back of the assets of a transaction. -/
def undoTransaction : Check AssetsCache :=
  if env.areAssetsDeployed then do
    let issues ← undoIssues env global vUndoData cache tx
    let transfers ← undoTransfers env global tx tx.vout 0 issues
    undoNulls env tx transfers
  else .ok cache

/-- The metadata of a restored coin; an old record without it takes that of
another output of the same transaction. -/
def restoredCoin (coins : CoinsView) (undo : Coin) (out : OutPoint) : Check Coin :=
  if undo.nHeight = 0 then do
    let alternate ← require? (accessByTxid coins out.hash)
      "adding output for transaction without known metadata"
    return { undo with nHeight := alternate.nHeight, fCoinBase := alternate.fCoinBase }
  else .ok undo

def applyTxInUndo (acc : Disconnecting) (undo : Coin) (out : OutPoint) : Check Disconnecting := do
  let restored ← restoredCoin acc.coins undo out
  let fClean := acc.fClean && (acc.coins.lookup out).isNone
  let coins := acc.coins.addCoin out restored
  return if env.areAssetsDeployed && (isAssetScript undo.out.scriptPubKey).isSome then
      match acc.assets.undoAssetCoin env global undo.out.scriptPubKey with
      | some assets => { acc with coins := coins, assets := assets, fClean := fClean }
      | none => { acc with coins := coins, fClean := false }
    else { acc with coins := coins, fClean := fClean }

/-- The inputs of a transaction with the coins they spent, last input first. -/
def restoreInputs (vprevout : List Coin) (acc : Disconnecting) :
    Check Disconnecting := do
  require (vprevout.length = tx.vin.length) "transaction and undo data inconsistent"
  (tx.vin.zip vprevout).reverse.foldlM
    (fun acc pair => applyTxInUndo env global acc pair.2 pair.1.prevout) acc

/-- One transaction taken back; the first of the block has no undo record. -/
def disconnectTx (acc : Disconnecting)
    (entry : Transaction × Option (List Coin)) : Check Disconnecting := do
  let spent := spendOutputs env global nHeight entry.1 entry.1.vout 0 acc
  let assets ← undoTransaction env global vUndoData spent.assets entry.1
  match entry.2 with
  | some vprevout => restoreInputs env global entry.1 vprevout { spent with assets := assets }
  | none => return { spent with assets := assets }

def disconnectBlock (block : Block) (vtxundo : List (List Coin))
    (vUndoData : List (Bytes × BlockAssetUndo)) (view : BlockView) : Check Disconnected := do
  require (vtxundo.length + 1 = block.vtx.length) "block and undo data inconsistent"
  let final ← (block.vtx.zip (none :: vtxundo.map some)).reverse.foldlM
    (disconnectTx env global nHeight vUndoData) ⟨view.coins, view.assets, view.assets, true⟩
  return ⟨⟨final.coins, final.assets⟩, final.fClean⟩

end Phicoin
