import Phicoin.Mempool

/-! # Acceptance to the memory pool

`AcceptToMemoryPoolWorker`: a long row of checks that only read, then the writes.
The transactions it replaces leave, the transaction is stored, the pool is
trimmed, and at last the asset maps are updated, output by output.  That loop
still refuses a tag change or a global freeze that the pool already has; what was
written until then stays, so the result is a verdict and the pool that is left. -/

namespace Phicoin

open Check

/-- The parts of acceptance that read no assets: what is standard, lock times,
sizes and signature operations, fee floors, limits on chains of unconfirmed
transactions, the scripts of the inputs, which coins happen to be cached, and how
the pool is kept within its limits: the age at which entries expire, and the
entry that is evicted next while the pool takes too much memory. -/
structure MempoolPolicy where
  fRequireStandard : Bool
  fEnableReplacement : Bool
  witnessAllowed : Transaction → Bool
  isStandardTx : Transaction → Check Unit
  checkFinalTx : Transaction → Bool
  haveCoinInCache : OutPoint → Bool
  checkSequenceLocks : CoinsView → Transaction → Bool
  areInputsStandard : CoinsView → Transaction → Bool
  isWitnessStandard : CoinsView → Transaction → Bool
  getTransactionSigOpCost : CoinsView → Transaction → Nat
  getVirtualTransactionSize : Transaction → Nat → Nat
  getMinFee : Mempool → Nat → Int
  minRelayTxFee : Nat → Int
  incrementalRelayFee : Nat → Int
  withinChainLimits : Mempool → Transaction → Bool
  checkInputs : CoinsView → Transaction → Check Unit
  expiryTime : Int
  trimsNext : Mempool → Option Uint256

structure AcceptArgs where
  nAcceptTime : Int
  bypassLimits : Bool
  nAbsurdFee : Int
  testAccept : Bool

def maxBip125RbfSequence : Nat := 0xfffffffd

def maxStandardTxSigopsCost : Nat := maxBlockSigopsCost / 5

def maxDescendantsToVisit : Nat := 100

/-- `CFeeRate(nFeePaid, nBytes)` -/
def feeRate (nFeePaid : Int) (nBytes : Nat) : Int :=
  if nBytes > 0 then (nFeePaid * 1000).tdiv nBytes else 0

namespace Mempool

section

variable (policy : MempoolPolicy) (pool : Mempool)

/-- The entries that spend the same outputs; one that does not signal that it can
be replaced ends the acceptance. -/
def findConflicts (tx : Transaction) : Check (List Uint256) :=
  tx.vin.foldlM (fun setConflicts input =>
    match pool.mapNextTx.lookup input.prevout with
    | none => pure setConflicts
    | some hash =>
      if hash ∈ setConflicts then pure setConflicts
      else do
        let signals := match pool.mapTx.lookup hash with
          | some entry => entry.tx.vin.any fun other => other.nSequence ≤ maxBip125RbfSequence
          | none => false
        require (policy.fEnableReplacement && signals) "txn-mempool-conflict"
        return hash :: setConflicts) []

/-- The input coins, all of which have to exist; an orphan is refused without a
reason. -/
def requireInputs (coins : CoinsView) (tx : Transaction) : Check CoinsView := do
  let view := pool.inputCoins coins tx
  guarded (!tx.vin.all fun input => (view.lookup input.prevout).isSome) do
    require (!(List.range tx.vout.length).any fun n => policy.haveCoinInCache ⟨tx.hash, n⟩)
      "txn-already-known"
    require false ""
  return view

/-- A replacement pays a higher rate than each entry it replaces, replaces few
entries, spends no unconfirmed output the replaced ones did not spend, and pays
for all of them and for its own relay. -/
def checkReplacement (tx : Transaction) (setConflicts : List Uint256) (nModifiedFees : Int)
    (nSize : Nat) : Check (List Uint256) :=
  if setConflicts = [] then .ok []
  else do
    let conflicting := setConflicts.filterMap pool.mapTx.lookup
    forM conflicting fun entry =>
      require (feeRate entry.getModifiedFee entry.nTxSize < feeRate nModifiedFees nSize)
        "insufficient fee"
    let nConflictingCount := (conflicting.map fun entry =>
      (pool.calculateDescendants [] entry.tx.hash).length).sum
    require (nConflictingCount ≤ maxDescendantsToVisit) "too many potential replacements"
    let allConflicting := pool.withDescendants (conflicting.map fun entry => entry.tx.hash)
    let setConflictsParents := conflicting.flatMap fun entry =>
      entry.tx.vin.map fun input => input.prevout.hash
    forM tx.vin fun input =>
      require (input.prevout.hash ∈ setConflictsParents ||
        !pool.contains input.prevout.hash) "replacement-adds-unconfirmed"
    let nConflictingFees := (allConflicting.filterMap pool.mapTx.lookup).foldl
      (fun sum entry => sum + entry.getModifiedFee) 0
    require (nConflictingFees ≤ nModifiedFees) "insufficient fee"
    require (policy.incrementalRelayFee nSize ≤ nModifiedFees - nConflictingFees)
      "insufficient fee"
    return allConflicting

structure Acceptance where
  entry : MempoolEntry
  allConflicting : List Uint256
  vReissueAssets : List (Bytes × Uint256)

variable (env : Env) (global : AssetState) (coins : CoinsView) (nSpendHeight : Nat)

/-- The assets of a transaction: none before the deployment, checked after it,
against the pool too. -/
def checkAcceptedAssets (view : CoinsView) (tx : Transaction) : Check (List (Bytes × Uint256)) :=
  if env.areAssetsDeployed then do
    let outputs ← checkTxAssets env global global.passets pool.assets view tx true 0 0
    return outputs.vPairReissueAssets
  else do
    forM tx.vout fun out =>
      require (isAssetScript out.scriptPubKey).isNone
        "bad-txns-contained-asset-when-not-active"
    return []

def checkAcceptance (args : AcceptArgs) (tx : Transaction) : Check Acceptance := do
  checkTransaction env tx true true false
  require (!tx.isCoinBase) "coinbase"
  require (policy.witnessAllowed tx) "no-witness-yet"
  guarded policy.fRequireStandard (policy.isStandardTx tx)
  require (policy.checkFinalTx tx) "non-final"
  require (!pool.contains tx.hash) "txn-already-in-mempool"
  let setConflicts ← pool.findConflicts policy tx
  let view ← pool.requireInputs policy coins tx
  require (policy.checkSequenceLocks view tx) "non-BIP68-final"
  let nFees ← checkTxInputs env view tx nSpendHeight
  let vReissueAssets ← pool.checkAcceptedAssets env global view tx
  require (!policy.fRequireStandard || policy.areInputsStandard view tx)
    "bad-txns-nonstandard-inputs"
  require (!policy.fRequireStandard || policy.isWitnessStandard view tx)
    "bad-witness-nonstandard"
  let nSigOpsCost := policy.getTransactionSigOpCost view tx
  let nModifiedFees := nFees + (pool.mapDeltas.lookup tx.hash).getD 0
  let nSize := policy.getVirtualTransactionSize tx nSigOpsCost
  require (nSigOpsCost ≤ maxStandardTxSigopsCost) "bad-txns-too-many-sigops"
  let mempoolRejectFee := policy.getMinFee pool nSize
  require (!(!args.bypassLimits && mempoolRejectFee > 0 && nModifiedFees < mempoolRejectFee))
    "mempool min fee not met"
  require (!(!args.bypassLimits && nModifiedFees < policy.minRelayTxFee nSize))
    "min relay fee not met"
  require (!(args.nAbsurdFee ≠ 0 && nFees > args.nAbsurdFee)) "absurdly-high-fee"
  require (policy.withinChainLimits pool tx) "too-long-mempool-chain"
  require (!(pool.calculateMemPoolAncestors tx).any fun hash => hash ∈ setConflicts)
    "bad-txns-spends-conflicting-tx"
  let allConflicting ← pool.checkReplacement policy tx setConflicts nModifiedFees nSize
  policy.checkInputs view tx
  return ⟨⟨tx, nFees, args.nAcceptTime, nSize, 0⟩, allConflicting, vReissueAssets⟩

end

def expire (pool : Mempool) (time : Int) : Mempool :=
  pool.removeStaged (pool.withDescendants
    ((pool.mapTx.entries.filter fun entry => entry.2.nTime < time).map Sigma.fst))

/-- `TrimToSize`: every round evicts an entry with its descendants. -/
def trimToSize (trimsNext : Mempool → Option Uint256) : Nat → Mempool → Mempool
  | 0, pool => pool
  | rounds + 1, pool =>
    match trimsNext pool with
    | some hash =>
      if pool.contains hash then
        trimToSize trimsNext rounds (pool.removeStaged (pool.withDescendants [hash]))
      else pool
    | none => pool

/-- `LimitMempoolSize`; no more rounds than entries are possible. -/
def limitMempoolSize (policy : MempoolPolicy) (pool : Mempool) : Mempool :=
  let kept := pool.expire policy.expiryTime
  trimToSize policy.trimsNext kept.mapTx.entries.length kept

section

variable (env : Env) (hash : Uint256)

def registerReissues (vReissueAssets : List (Bytes × Uint256)) (pool : Mempool) : Mempool :=
  { pool with assets := vReissueAssets.foldl (fun assets item =>
      { assets with
        mapReissuedAssets := KeyedMap.insertNew item.1 item.2 assets.mapReissuedAssets
        mapReissuedTx := KeyedMap.insertNew item.2 item.1 assets.mapReissuedTx }) pool.assets }

def registerIssue (pool : Mempool) (data : AssetOutputEntry) : Mempool :=
  if data.type = .newAsset && !isAssetNameAnOwner data.assetName then
    { pool with
      assets := { pool.assets with
        mapAssetToHash := pool.assets.mapAssetToHash.insert data.assetName hash }
      mapHashToAsset := pool.mapHashToAsset.insert hash data.assetName }
  else pool

/-- An output of a restricted asset, which a tag of its address or a verifier
string can make invalid. -/
def registerRestricted (pool : Mempool) (data : AssetOutputEntry) : Mempool :=
  if env.areRestrictedAssetsDeployed && isAssetNameAnRestricted data.assetName then
    { pool with
      mapAddressesQualifiersChanged :=
        pool.mapAddressesQualifiersChanged.record (encodeDestination env data.destination) hash
      mapAssetVerifierChanged := pool.mapAssetVerifierChanged.record data.assetName hash }
  else pool

def recordOnce {K : Type} [DecidableEq K] (index : SetIndex K Uint256) (key : K) (reason : String) :
    Check (SetIndex K Uint256) := do
  require (index.forward.lookup key).isNone reason
  return index.record key hash

def registerGlobal (pool : Mempool) (data : NullAssetTxData) : Check Mempool :=
  if data.flag = 1 then do
    let index ← recordOnce hash pool.mapGlobalFreezingAssetTransactions data.assetName
      "bad-txns-global-freeze-already-in-mempool"
    return { pool with mapGlobalFreezingAssetTransactions := index }
  else if data.flag = 0 then do
    let index ← recordOnce hash pool.mapGlobalUnFreezingAssetTransactions data.assetName
      "bad-txns-global-unfreeze-already-in-mempool"
    return { pool with mapGlobalUnFreezingAssetTransactions := index }
  else .ok pool

def registerTag (pool : Mempool) (data : NullAssetTxData) (address : Bytes) : Check Mempool :=
  if isAssetNameAQualifier data.assetName false then
    if data.flag = 1 then do
      let index ← recordOnce hash pool.mapAddressAddedTag (address, data.assetName)
        "bad-txns-adding-tag-already-in-mempool"
      return { pool with mapAddressAddedTag := index }
    else do
      let index ← recordOnce hash pool.mapAddressRemoveTag (address, data.assetName)
        "bad-txns-remove-tag-already-in-mempool"
      return { pool with mapAddressRemoveTag := index }
  else .ok pool

def registerOutput (pool : Mempool) (out : TxOut) : Check Mempool :=
  if (isAssetScript out.scriptPubKey).isSome then
    match getAssetData env out.scriptPubKey with
    | none => .ok pool
    | some data => .ok (registerRestricted env hash (registerIssue hash pool data) data)
  else if isNullGlobalRestrictionAssetTxDataScript out.scriptPubKey then
    match globalAssetNullDataFromScript out.scriptPubKey with
    | none => .ok pool
    | some data => registerGlobal hash pool data
  else if isNullAssetTxDataScript out.scriptPubKey then
    match assetNullDataFromScript env out.scriptPubKey with
    | none => .ok pool
    | some (data, address) => registerTag hash pool data address
  else .ok pool

/-- The loop over the outputs; a refusal leaves what earlier outputs wrote. -/
def registerOutputs : List TxOut → Mempool → Mempool × Check Unit
  | [], pool => (pool, .ok ())
  | out :: rest, pool =>
    match registerOutput env hash pool out with
    | .ok next => registerOutputs rest next
    | .error reason => (pool, .error reason)

/-- A restricted asset that the transaction spends from a coin of the chain. -/
def registerInput (coins : CoinsView) (pool : Mempool) (input : TxIn) : Mempool :=
  match (coins.lookup input.prevout).bind fun coin => getAssetData env coin.out.scriptPubKey with
  | none => pool
  | some data =>
    if isAssetNameAnRestricted data.assetName then
      { pool with
        mapAssetMarkedGlobalFrozen := pool.mapAssetMarkedGlobalFrozen.record data.assetName hash
        mapAddressesMarkedFrozen := pool.mapAddressesMarkedFrozen.record
          (encodeDestination env data.destination, data.assetName) hash }
    else pool

def registerInputs (coins : CoinsView) (tx : Transaction) (pool : Mempool) : Mempool :=
  if env.areRestrictedAssetsDeployed then tx.vin.foldl (registerInput env hash coins) pool
  else pool

end

variable (policy : MempoolPolicy) (env : Env) (global : AssetState) (coins : CoinsView)
  (nSpendHeight : Nat) (args : AcceptArgs) (pool : Mempool) (tx : Transaction)

def store (acceptance : Acceptance) : Mempool :=
  (pool.removeStaged acceptance.allConflicting).addUnchecked acceptance.entry

def storeLimited (acceptance : Acceptance) : Mempool :=
  if args.bypassLimits then pool.store acceptance
  else (pool.store acceptance).limitMempoolSize policy

def register (acceptance : Acceptance) : Mempool × Check Unit :=
  let reissued := registerReissues acceptance.vReissueAssets pool
  let (registered, verdict) :=
    if env.areAssetsDeployed then registerOutputs env tx.hash tx.vout reissued
    else (reissued, .ok ())
  match verdict with
  | .ok () => (registerInputs env tx.hash coins tx registered, .ok ())
  | .error reason => (registered, .error reason)

def acceptToMemoryPoolWorker : Mempool × Check Unit :=
  match pool.checkAcceptance policy env global coins nSpendHeight args tx with
  | .error reason => (pool, .error reason)
  | .ok acceptance =>
    if args.testAccept then (pool, .ok ())
    else
      let stored := pool.storeLimited policy args acceptance
      if !args.bypassLimits && !stored.contains tx.hash then (stored, .error "mempool full")
      else stored.register env coins tx acceptance

end Mempool

end Phicoin
