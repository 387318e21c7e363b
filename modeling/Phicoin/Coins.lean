import Phicoin.AssetsCacheOps

/-! # Coins

The view of the unspent outputs, and what a transaction does to it and to the
cache of the block (`AddCoins`, `SpendCoin`, `UpdateCoins`).  The source makes
both updates of `AddCoins` in one pass over the outputs; they read nothing of
each other and are two functions here. -/

namespace Phicoin

/-- `Coin`, unspent. -/
structure Coin where
  out : TxOut
  fCoinBase : Bool
  nHeight : Nat

/-- `CCoinsViewCache` as the map of its unspent coins. -/
abbrev CoinsView := KeyedMap OutPoint Coin

namespace CoinsView

variable (view : CoinsView)

def haveInputs (tx : Transaction) : Bool :=
  tx.isCoinBase || tx.vin.all fun input => (view.lookup input.prevout).isSome

/-- `AddCoin`; unspendable outputs are not kept. -/
def addCoin (out : OutPoint) (coin : Coin) : CoinsView :=
  if isUnspendable coin.out.scriptPubKey then view else view.insert out coin

/-- The coins of the outputs from index `n` on. -/
def addOutputs (tx : Transaction) (nHeight : Nat) : List TxOut → Nat → CoinsView → CoinsView
  | [], _, view => view
  | out :: rest, n, view =>
    addOutputs tx nHeight rest (n + 1)
      (view.addCoin ⟨tx.hash, n⟩ ⟨out, tx.isCoinBase, nHeight⟩)

end CoinsView

namespace AssetsCache

variable (env : Env) (global : AssetState)
  (cache : AssetsCache)

/-- `AddNewAsset` as its callers use it: a failure is only logged. -/
def tryAddNewAsset (issue : Option (NewAsset × Bytes)) (nHeight : Nat)
    (blockHash : Uint256) : AssetsCache :=
  let (asset, address) := issue.getD (NewAsset.null, [])
  (cache.addNewAsset env global asset address nHeight blockHash).getD cache

variable (tx : Transaction)

/-- The verifier string of the first verifier output; the inner option is what
its data reads as. -/
def firstVerifier : Option (Option Bytes) :=
  (tx.vout.find? fun out => isNullAssetVerifierTxDataScript out.scriptPubKey).map
    fun out => assetNullVerifierDataFromScript out.scriptPubKey

/-- The verifier change of a reissue: the cache after it, and the string before. -/
def reissueVerifier (asset : NewAsset) (tx : Transaction) :
    AssetsCache × Option Bytes :=
  if assetNameType asset.strName = .restricted then
    match firstVerifier tx with
    | some (some verifier) =>
      let old := (cache.getAssetVerifierStringIfExists global asset.strName false).getD []
      (cache.addRestrictedVerifier asset.strName verifier, some old)
    | _ => (cache, none)
  else (cache, none)

/-- The reissue branch, with the undo item it leaves when anything but the
amount and the reissuable field changed. -/
def addReissue :
    AssetsCache × Option (Bytes × BlockAssetUndo) :=
  let (reissue, address) := (tx.reissueAssetFromTransaction env).getD (ReissueAsset.null, [])
  let asset := (cache.getAssetMetaDataIfExists global reissue.strName).getD NewAsset.null
  let reissued := (cache.addReissueAsset env global reissue address
    ⟨tx.hash, tx.vout.length - 1⟩).getD cache
  let (changed, oldVerifier) := reissueVerifier global reissued asset tx
  let fIPFSChanged : Bool := reissue.strIPFSHash ≠ []
  let fUnitsChanged : Bool := reissue.nUnits ≠ -1
  let undo : BlockAssetUndo :=
    { fChangedIPFS := fIPFSChanged
      fChangedUnits := fUnitsChanged
      strIPFS := asset.strIPFSHash
      nUnits := asset.units
      fChangedVerifierString := oldVerifier.isSome
      verifierString := oldVerifier.getD [] }
  (changed, if fIPFSChanged || fUnitsChanged || oldVerifier.isSome then some (reissue.strName, undo)
    else none)

/-- The part of `AddCoins` before its loop. -/
def addIssues (nHeight : Nat) (blockHash : Uint256) :
    AssetsCache × Option (Bytes × BlockAssetUndo) :=
  if tx.isNewAsset env then
    let (ownerName, ownerAddress) := (tx.ownerFromTransaction env).getD ([], [])
    ((tryAddNewAsset env global cache (tx.assetFromTransaction env) nHeight blockHash).addOwnerAsset
      env ownerName ownerAddress, none)
  else if tx.isReissueAsset then addReissue env global cache tx
  else if tx.isNewUniqueAsset env then
    (tx.vout.foldl (fun acc out =>
      if isScriptNewUniqueAsset env out.scriptPubKey then
        tryAddNewAsset env global acc (assetFromScript env out.scriptPubKey) nHeight blockHash
      else acc) cache, none)
  else if tx.isNewMsgChannelAsset env then
    (tryAddNewAsset env global cache (tx.msgChannelAssetFromTransaction env) nHeight blockHash, none)
  else if tx.isNewQualifierAsset env then
    (tryAddNewAsset env global cache (tx.qualifierAssetFromTransaction env) nHeight blockHash, none)
  else if tx.isNewRestrictedAsset env then
    let issue := tx.restrictedAssetFromTransaction env
    let issued := tryAddNewAsset env global cache issue nHeight blockHash
    (match firstVerifier tx with
      | some verifier =>
        issued.addRestrictedVerifier (issue.getD (NewAsset.null, [])).1.strName (verifier.getD [])
      | none => issued, none)
  else (cache, none)

def addTransferOutput (out : OutPoint) (script : Bytes) : AssetsCache :=
  match getAssetData env script with
  | some data =>
    if data.type = .transferAsset && data.nAmount > 0 then
      cache.addTransferAsset env global
        ⟨data.assetName, data.nAmount, data.message, data.expireTime⟩
        (encodeDestination env data.destination) out
    else cache
  | none => cache

def addNullData (script : Bytes) : AssetsCache :=
  if isNullAssetTxDataScript script then
    let (data, address) := (assetNullDataFromScript env script).getD (NullAssetTxData.null, [])
    let type := assetNameType data.assetName
    if type = .restricted then
      cache.addRestrictedAddress data.assetName address
        (if data.flag ≠ 0 then .freezeAddress else .unfreezeAddress)
    else if type = .qualifier || type = .subQualifier then
      cache.addQualifierAddress data.assetName address
        (if data.flag ≠ 0 then .addQualifier else .removeQualifier)
    else cache
  else if isNullGlobalRestrictionAssetTxDataScript script then
    let data := (globalAssetNullDataFromScript script).getD NullAssetTxData.null
    cache.addGlobalRestricted data.assetName
      (if data.flag ≠ 0 then .globalFreeze else .globalUnfreeze)
  else cache

/-- The assets of the outputs from index `n` on. -/
def addOutputAssets (tx : Transaction) : List TxOut → Nat → AssetsCache → AssetsCache
  | [], _, cache => cache
  | out :: rest, n, cache =>
    addOutputAssets tx rest (n + 1)
      ((addTransferOutput env global cache ⟨tx.hash, n⟩ out.scriptPubKey).addNullData env
        out.scriptPubKey)

/-- What `AddCoins` does to the cache of the block, and its undo item. -/
def addTransaction (nHeight : Nat) (blockHash : Uint256) :
    AssetsCache × Option (Bytes × BlockAssetUndo) :=
  if env.areAssetsDeployed then
    let (issued, undo) := addIssues env global cache tx nHeight blockHash
    (addOutputAssets env global tx tx.vout 0 issued, undo)
  else (cache, none)

end AssetsCache

structure BlockView where
  coins : CoinsView
  assets : AssetsCache

namespace BlockView

variable (env : Env) (global : AssetState)

/-- `SpendCoin`: the coin spent, none when there was none, and whether the
asset cache took the spend. -/
def spendCoin (view : BlockView) (out : OutPoint) : BlockView × Option Coin × Bool :=
  match view.coins.lookup out with
  | none => (view, none, false)
  | some coin =>
    let coins : CoinsView := view.coins.erase out
    if env.areAssetsDeployed then
      match view.assets.trySpendCoin env global coin.out.scriptPubKey with
      | some assets => (⟨coins, assets⟩, some coin, true)
      | none => (⟨coins, view.assets⟩, some coin, false)
    else (⟨coins, view.assets⟩, some coin, true)

/-- The loop of `UpdateCoins` over the inputs, with the spent coins; the source
asserts every spend. -/
def spendInputs : List TxIn → BlockView → Check (BlockView × List Coin)
  | [], view => .ok (view, [])
  | input :: rest, view =>
    match view.spendCoin env global input.prevout with
    | (spent, some coin, true) => do
        let (final, coins) ← spendInputs rest spent
        return (final, coin :: coins)
    | _ => .error "assertion is_spent"

def spendTransaction (tx : Transaction) (view : BlockView) : Check (BlockView × List Coin) :=
  if tx.isCoinBase then .ok (view, []) else spendInputs env global tx.vin view

/-- What `UpdateCoins` leaves: the view, the spent coins and the asset undo item. -/
structure Updated where
  view : BlockView
  vprevout : List Coin
  undo : Option (Bytes × BlockAssetUndo)

def updateCoins (tx : Transaction) (view : BlockView) (nHeight : Nat) (blockHash : Uint256) :
    Check Updated := do
  let (spent, vprevout) ← spendTransaction env global tx view
  let (assets, undo) := spent.assets.addTransaction env global tx nHeight blockHash
  return ⟨⟨spent.coins.addOutputs tx nHeight tx.vout 0, assets⟩, vprevout, undo⟩

end BlockView

end Phicoin
