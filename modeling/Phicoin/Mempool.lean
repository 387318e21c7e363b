import Phicoin.Lib.SetIndex
import Phicoin.Lib.Worklist
import Phicoin.Block

/-! # The memory pool

The transactions that wait for a block, which of them spends an output, and what
the pool remembers of their assets: issued and reissued names, tag changes and
global freezes, and the transfers of restricted assets that a tag, a freeze or a
verifier string can make invalid.  An index is one map of the source together
with its reverse by transaction hash. -/

namespace Phicoin

/-- The fields of `CTxMemPoolEntry` that acceptance and removal read. -/
structure MempoolEntry where
  tx : Transaction
  nFee : Int
  nTime : Int
  nTxSize : Nat
  feeDelta : Int

def MempoolEntry.getModifiedFee (entry : MempoolEntry) : Int := entry.nFee + entry.feeDelta

/-- `CTxMemPool` with the two maps of reissues that are global in the source. -/
structure Mempool where
  mapTx : KeyedMap Uint256 MempoolEntry
  mapNextTx : KeyedMap OutPoint Uint256
  mapDeltas : KeyedMap Uint256 Int
  assets : MempoolMaps
  mapHashToAsset : KeyedMap Uint256 Bytes
  mapAddressesMarkedFrozen : SetIndex (Bytes × Bytes) Uint256
  mapAssetMarkedGlobalFrozen : SetIndex Bytes Uint256
  mapAddressesQualifiersChanged : SetIndex Bytes Uint256
  mapAssetVerifierChanged : SetIndex Bytes Uint256
  mapGlobalFreezingAssetTransactions : SetIndex Bytes Uint256
  mapGlobalUnFreezingAssetTransactions : SetIndex Bytes Uint256
  mapAddressAddedTag : SetIndex (Bytes × Bytes) Uint256
  mapAddressRemoveTag : SetIndex (Bytes × Bytes) Uint256

namespace Mempool

def empty : Mempool where
  mapTx := ∅
  mapNextTx := ∅
  mapDeltas := ∅
  assets := .empty
  mapHashToAsset := ∅
  mapAddressesMarkedFrozen := .empty
  mapAssetMarkedGlobalFrozen := .empty
  mapAddressesQualifiersChanged := .empty
  mapAssetVerifierChanged := .empty
  mapGlobalFreezingAssetTransactions := .empty
  mapGlobalUnFreezingAssetTransactions := .empty
  mapAddressAddedTag := .empty
  mapAddressRemoveTag := .empty

variable (pool : Mempool)
  (hash : Uint256)

/-- `exists` -/
def contains : Bool := (pool.mapTx.lookup hash).isSome

/-- `clear`; prioritisations stay, and so do the two global maps of reissues. -/
def clear : Mempool :=
  { empty with
    mapDeltas := pool.mapDeltas
    assets := { pool.assets with mapAssetToHash := ∅ } }

def mempoolHeight : Nat := 0x7fffffff

/-- `CCoinsViewMemPool::GetCoin` over the coins of the chain. -/
def getCoin (coins : CoinsView) (out : OutPoint) : Option Coin :=
  match pool.mapTx.lookup out.hash with
  | some entry => entry.tx.vout[out.n]?.map fun txout => ⟨txout, false, mempoolHeight⟩
  | none => coins.lookup out

def inputCoins (coins : CoinsView) (tx : Transaction) : CoinsView :=
  tx.vin.foldl (fun view input =>
    match pool.getCoin coins input.prevout with
    | some coin => view.insert input.prevout coin
    | none => view) ∅

/-- `GetMemPoolChildren`: the entries that spend an output of a transaction.  The
source caches this relation in `mapLinks`. -/
def children : List Uint256 :=
  (pool.mapTx.entries.filter fun entry =>
    entry.2.tx.vin.any fun input => input.prevout.hash = hash).map Sigma.fst

variable (tx : Transaction)

/-- `GetMemPoolParents` of a transaction: the entries whose outputs it spends. -/
def parentsOf : List Uint256 :=
  (tx.vin.map fun input => input.prevout.hash).filter pool.contains

def parents : List Uint256 :=
  match pool.mapTx.lookup hash with
  | some entry => pool.parentsOf entry.tx
  | none => []

/-- `CalculateDescendants`, added to those already found. -/
def calculateDescendants (setDescendants : List Uint256) (hash : Uint256) : List Uint256 :=
  if hash ∈ setDescendants then setDescendants
  else Worklist.explore pool.children pool.mapTx.entries.length [hash] setDescendants

def withDescendants (hashes : List Uint256) : List Uint256 :=
  hashes.foldl pool.calculateDescendants []

/-- `CalculateMemPoolAncestors` without its limits. -/
def calculateMemPoolAncestors : List Uint256 :=
  Worklist.explore pool.parents pool.mapTx.entries.length (pool.parentsOf tx).dedup []

def addUnchecked (entry : MempoolEntry) : Mempool :=
  { pool with
    mapTx := KeyedMap.insertNew entry.tx.hash
      { entry with feeDelta := (pool.mapDeltas.lookup entry.tx.hash).getD 0 } pool.mapTx
    mapNextTx := entry.tx.vin.foldl
      (fun map input => KeyedMap.insertNew input.prevout entry.tx.hash map) pool.mapNextTx }

def releaseReissue (assets : MempoolMaps) (hash : Uint256) : MempoolMaps :=
  match assets.mapReissuedTx.lookup hash with
  | some name =>
    if (assets.mapReissuedAssets.lookup name).isSome then
      { assets with
        mapReissuedAssets := assets.mapReissuedAssets.erase name
        mapReissuedTx := assets.mapReissuedTx.erase hash }
    else assets
  | none => assets

def releaseIssue (mapHashToAsset : KeyedMap Uint256 Bytes) (assets : MempoolMaps)
    (hash : Uint256) : MempoolMaps :=
  match mapHashToAsset.lookup hash with
  | some name => { assets with mapAssetToHash := assets.mapAssetToHash.erase name }
  | none => assets

/-- `removeUnchecked`.  The sets of the first four indexes stay when they become
empty; the tags recorded of the transaction are not erased. -/
def removeUnchecked : Mempool :=
  match pool.mapTx.lookup hash with
  | none => pool
  | some entry =>
    { pool with
      mapTx := pool.mapTx.erase hash
      mapNextTx := entry.tx.vin.foldl (fun map input => map.erase input.prevout) pool.mapNextTx
      assets := releaseIssue pool.mapHashToAsset (releaseReissue pool.assets hash) hash
      mapHashToAsset := pool.mapHashToAsset.erase hash
      mapAddressesMarkedFrozen := pool.mapAddressesMarkedFrozen.release hash
      mapAssetMarkedGlobalFrozen := pool.mapAssetMarkedGlobalFrozen.release hash
      mapAddressesQualifiersChanged := pool.mapAddressesQualifiersChanged.release hash
      mapAssetVerifierChanged := pool.mapAssetVerifierChanged.release hash
      mapGlobalFreezingAssetTransactions :=
        pool.mapGlobalFreezingAssetTransactions.releasePruning hash
      mapGlobalUnFreezingAssetTransactions :=
        pool.mapGlobalUnFreezingAssetTransactions.releasePruning hash
      mapAddressAddedTag := pool.mapAddressAddedTag.releaseForward hash
      mapAddressRemoveTag := pool.mapAddressRemoveTag.releaseForward hash }

def removeStaged (stage : List Uint256) : Mempool := stage.foldl removeUnchecked pool

/-- `removeRecursive`: a transaction with its descendants, or, when the pool does
not have it, what spends its outputs with their descendants. -/
def removeRecursive (origTx : Transaction) : Mempool :=
  let txToRemove := if pool.contains origTx.hash then [origTx.hash]
    else (List.range origTx.vout.length).filterMap fun n => pool.mapNextTx.lookup ⟨origTx.hash, n⟩
  pool.removeStaged (pool.withDescendants txToRemove)

def clearPrioritisation : Mempool :=
  { pool with mapDeltas := pool.mapDeltas.erase hash }

/-- One input of `removeConflicts`: another transaction that spends it goes. -/
def removeConflict (input : TxIn) : Mempool :=
  match (pool.mapNextTx.lookup input.prevout).bind pool.mapTx.lookup with
  | some conflict =>
    if conflict.tx.hash = tx.hash then pool
    else (pool.clearPrioritisation conflict.tx.hash).removeRecursive conflict.tx
  | none => pool

def removeConflicts : Mempool :=
  tx.vin.foldl (fun pool input => pool.removeConflict tx input) pool

/-- What `removeForBlock` collects before it removes anything. -/
structure Evicting where
  trans : List Transaction
  setAlreadyRemoving : List Uint256

/-- An entry of an index goes unless it is already going or passes a check. -/
def evictUnless (stillValid : Transaction → Bool) (acc : Evicting) (hash : Uint256) : Evicting :=
  match pool.mapTx.lookup hash with
  | none => acc
  | some entry =>
    if hash ∈ acc.setAlreadyRemoving || stillValid entry.tx then acc
    else ⟨acc.trans ++ [entry.tx], hash :: acc.setAlreadyRemoving⟩

def evictAll {K : Type} [DecidableEq K] (stillValid : Transaction → Bool)
    (index : SetIndex K Uint256) (acc : Evicting) (key : K) : Evicting :=
  (SetIndex.get index.forward key).foldl (pool.evictUnless stillValid) acc

def evictIssue (acc : Evicting) (name : Bytes) : Evicting :=
  match pool.assets.mapAssetToHash.lookup name with
  | none => acc
  | some hash =>
    match pool.mapTx.lookup hash with
    | none => acc
    | some entry => ⟨acc.trans ++ [entry.tx], hash :: acc.setAlreadyRemoving⟩

variable (env : Env) (global : AssetState) (coins : CoinsView) (connected : AssetsCache)

/-- The test of most evictions: the asset cache is passed where the function takes
the flag for duplicate inputs, so that no asset state is read. -/
def recheckTransaction (tx : Transaction) : Bool := (checkTransaction env tx true false false).passed

def recheckTxAssets (tx : Transaction) : Bool :=
  (checkTxAssets env global global.passets pool.assets coins tx false 0 0).passed

def evictGlobal (acc : Evicting) (name : Bytes) (type : RestrictedType) : Evicting :=
  match type with
  | .globalFreeze =>
    pool.evictAll (fun _ => false) pool.mapGlobalFreezingAssetTransactions
      (pool.evictAll (recheckTransaction env) pool.mapAssetMarkedGlobalFrozen acc name) name
  | .globalUnfreeze =>
    pool.evictAll (fun _ => false) pool.mapGlobalUnFreezingAssetTransactions acc name
  | _ => acc

/-- The transactions that the asset changes of a block make invalid, as the source
selects them; coins and assets are those after the block. -/
def evicted : Evicting :=
  let issues := connected.setNewAssetsToAdd.entries.foldl
    (fun acc item => pool.evictIssue acc item.1) ⟨[], []⟩
  let verifiers := connected.setNewRestrictedVerifierToAdd.entries.foldl
    (fun acc item => pool.evictAll (recheckTransaction env) pool.mapAssetVerifierChanged acc item.1)
    issues
  let qualifiers := connected.setNewQualifierAddressToAdd.entries.foldl
    (fun acc item =>
      pool.evictAll (recheckTransaction env) pool.mapAddressesQualifiersChanged acc item.1.2)
    verifiers
  let globals := connected.setNewRestrictedGlobalToAdd.entries.foldl
    (fun acc item => pool.evictGlobal env acc item.1 item.2) qualifiers
  connected.setNewRestrictedAddressToAdd.entries.foldl
    (fun acc item =>
      if item.2 = .freezeAddress then
        pool.evictAll (pool.recheckTxAssets env global coins) pool.mapAddressesMarkedFrozen acc
          (item.1.2, item.1.1)
      else acc)
    globals

/-- A transaction of the block, or one the block makes invalid: it leaves alone,
what conflicts with it leaves with its descendants. -/
def removeBlockTx (tx : Transaction) : Mempool :=
  ((pool.removeStaged [tx.hash]).removeConflicts tx).clearPrioritisation tx.hash

def removeForBlock (vtx : List Transaction) : Mempool :=
  let trans := (pool.evicted env global coins connected).trans
  trans.foldl removeBlockTx (vtx.foldl removeBlockTx pool)

end Mempool

end Phicoin
