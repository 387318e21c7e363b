import Phicoin.Lib.Runs
import Phicoin.FailedAcceptance
import Phicoin.MempoolNames

/-! # Runs of a memory pool

What happens to a pool over time: transactions are accepted, leave for any
reason, leave for a connected block, and the pool is cleared.  Everything that
leaves goes through `removeUnchecked`, so an invariant has to be shown for a
single removal and for the maps that an acceptance writes. -/

namespace Phicoin

open Check List Option SetIndex

namespace Mempool

/-- The pool after entries were removed one by one and prioritisations dropped. -/
inductive Removal : Mempool → Mempool → Prop where
  | refl (pool : Mempool) : Removal pool pool
  | unchecked {pool final : Mempool} (hash : Uint256) :
      Removal (pool.removeUnchecked hash) final → Removal pool final
  | prioritisation {pool final : Mempool} (hash : Uint256) :
      Removal (pool.clearPrioritisation hash) final → Removal pool final

theorem Removal.trans {first second third : Mempool} (left : Removal first second)
    (right : Removal second third) : Removal first third := by
  induction left with
  | refl pool => exact right
  | unchecked hash _ ih => exact .unchecked hash (ih right)
  | prioritisation hash _ ih => exact .prioritisation hash (ih right)

theorem removal_removeStaged (pool : Mempool) (stage : List Uint256) :
    Removal pool (pool.removeStaged stage) := by
  induction stage generalizing pool with
  | nil => exact .refl pool
  | cons hash rest ih => exact .unchecked hash (ih _)

theorem removal_removeConflict (pool : Mempool) (tx : Transaction) (input : TxIn) :
    Removal pool (pool.removeConflict tx input) := by
  unfold removeConflict
  split
  · split_ifs
    · exact .refl pool
    · exact .prioritisation _ (removal_removeStaged _ _)
  · exact .refl pool

theorem removal_foldl {α : Type} {step : Mempool → α → Mempool}
    (removes : ∀ pool x, Removal pool (step pool x)) (xs : List α) (pool : Mempool) :
    Removal pool (xs.foldl step pool) := by
  induction xs generalizing pool with
  | nil => exact .refl pool
  | cons x rest ih => exact (removes pool x).trans (ih _)

theorem removal_removeBlockTx (pool : Mempool) (tx : Transaction) :
    Removal pool (pool.removeBlockTx tx) :=
  ((removal_removeStaged pool _).trans
    (removal_foldl (fun pool input => removal_removeConflict pool tx input) tx.vin _)).trans
      (.prioritisation tx.hash (.refl _))

theorem removal_removeForBlock (pool : Mempool) (env : Env) (global : AssetState)
    (coins : CoinsView) (connected : AssetsCache) (vtx : List Transaction) :
    Removal pool (pool.removeForBlock env global coins connected vtx) :=
  (removal_foldl removal_removeBlockTx vtx pool).trans (removal_foldl removal_removeBlockTx _ _)

theorem removal_limitMempoolSize (policy : MempoolPolicy) (pool : Mempool) :
    Removal pool (pool.limitMempoolSize policy) := by
  have trims : ∀ rounds pool, Removal pool (trimToSize policy.trimsNext rounds pool) := by
    intro rounds
    induction rounds with
    | zero => exact fun pool => .refl pool
    | succ rounds ih =>
      intro pool
      unfold trimToSize
      split
      · split_ifs
        · exact (removal_removeStaged pool _).trans (ih _)
        · exact .refl pool
      · exact .refl pool
  exact (removal_removeStaged pool _).trans (trims _ _)

theorem lookup_removeUnchecked (pool : Mempool) (hash other : Uint256) :
    (pool.removeUnchecked hash).mapTx.lookup other =
      if other = hash then none else pool.mapTx.lookup other := by
  unfold removeUnchecked
  cases found : pool.mapTx.lookup hash with
  | none =>
    by_cases same : other = hash
    · rw [if_pos same, same]
      exact found
    · rw [if_neg same]
  | some entry => exact KeyedMap.lookup_erase_ite _ _ _

theorem Removal.lookup {pool final : Mempool} (removal : Removal pool final) {hash : Uint256}
    {entry : MempoolEntry} (kept : final.mapTx.lookup hash = some entry) :
    pool.mapTx.lookup hash = some entry := by
  induction removal with
  | refl pool => exact kept
  | unchecked other _ ih =>
    have found := ih kept
    rw [lookup_removeUnchecked] at found
    split_ifs at found
    exact found
  | prioritisation other _ ih => exact ih kept

theorem Removal.lookup_none {pool final : Mempool} (removal : Removal pool final) {hash : Uint256}
    (absent : pool.mapTx.lookup hash = none) : final.mapTx.lookup hash = none := by
  refine eq_none_iff_forall_not_mem.mpr fun entry kept => ?_
  rw [removal.lookup kept] at absent
  cases absent

theorem Removal.invariant {pool final : Mempool} (Inv : Mempool → Prop)
    (leaves : Uint256 → MempoolEntry → Prop) (removal : Removal pool final) (initial : Inv pool)
    (gone : ∀ hash entry, pool.mapTx.lookup hash = some entry →
      final.mapTx.lookup hash = none → leaves hash entry)
    (removes : ∀ pool hash entry, Inv pool → pool.mapTx.lookup hash = some entry →
      leaves hash entry → Inv (pool.removeUnchecked hash))
    (prioritises : ∀ pool hash, Inv pool → Inv (pool.clearPrioritisation hash)) : Inv final := by
  induction removal with
  | refl pool => exact initial
  | @unchecked pool final hash rest ih =>
    refine ih ?_ ?_
    · cases found : pool.mapTx.lookup hash with
      | none =>
        rw [removeUnchecked, found]
        exact initial
      | some entry =>
        refine removes pool hash entry initial found (gone hash entry found (rest.lookup_none ?_))
        rw [lookup_removeUnchecked, if_pos rfl]
    · intro other entry found left
      rw [lookup_removeUnchecked] at found
      split_ifs at found
      exact gone other entry found left
  | prioritisation hash _ ih => exact ih (prioritises _ hash initial) gone

end Mempool

namespace Mempool

theorem lookup_addUnchecked (pool : Mempool) (entry : MempoolEntry) (hash : Uint256)
    (fresh : pool.mapTx.lookup entry.tx.hash = none) : (pool.addUnchecked entry).mapTx.lookup hash =
      if hash = entry.tx.hash then
        some { entry with feeDelta := (pool.mapDeltas.lookup entry.tx.hash).getD 0 }
      else pool.mapTx.lookup hash := by
  rw [addUnchecked, KeyedMap.lookup_insertNew, fresh, getD_none]

variable {policy : MempoolPolicy} {args : AcceptArgs} {pool : Mempool} {acceptance : Acceptance}

theorem removal_storeLimited (policy : MempoolPolicy) (args : AcceptArgs) (pool : Mempool)
    (acceptance : Acceptance) : Removal pool (pool.removeStaged acceptance.allConflicting) ∧
      Removal ((pool.removeStaged acceptance.allConflicting).addUnchecked acceptance.entry)
        (pool.storeLimited policy args acceptance) := by
  refine ⟨removal_removeStaged pool _, ?_⟩
  unfold storeLimited store
  split_ifs
  · exact .refl _
  · exact removal_limitMempoolSize policy _

theorem lookup_storeLimited (fresh : pool.mapTx.lookup acceptance.entry.tx.hash = none)
    {hash : Uint256} {entry : MempoolEntry}
    (found : (pool.storeLimited policy args acceptance).mapTx.lookup hash = some entry) :
    hash = acceptance.entry.tx.hash ∧ entry.tx = acceptance.entry.tx ∨
      hash ≠ acceptance.entry.tx.hash ∧
        (pool.removeStaged acceptance.allConflicting).mapTx.lookup hash = some entry ∧
        pool.mapTx.lookup hash = some entry := by
  obtain ⟨replacing, trimming⟩ := removal_storeLimited policy args pool acceptance
  have stored := trimming.lookup found
  rw [lookup_addUnchecked] at stored
  · split_ifs at stored with same
    · exact .inl ⟨same, by rw [← Option.some.inj stored]⟩
    · exact .inr ⟨same, stored, replacing.lookup stored⟩
  · exact replacing.lookup_none fresh

theorem storeLimited_invariant (Inv : Mempool → Prop) (leaves : Uint256 → MempoolEntry → Prop)
    (fresh : pool.mapTx.lookup acceptance.entry.tx.hash = none) (initial : Inv pool)
    (gone : ∀ hash entry, pool.mapTx.lookup hash = some entry →
      (pool.storeLimited policy args acceptance).mapTx.lookup hash = none → leaves hash entry)
    (own : (pool.storeLimited policy args acceptance).contains acceptance.entry.tx.hash = true ∨
      ∀ entry, leaves acceptance.entry.tx.hash entry)
    (removes : ∀ pool hash entry, Inv pool → pool.mapTx.lookup hash = some entry →
      leaves hash entry → Inv (pool.removeUnchecked hash))
    (prioritises : ∀ pool hash, Inv pool → Inv (pool.clearPrioritisation hash))
    (adds : ∀ pool, pool.mapTx.lookup acceptance.entry.tx.hash = none → Inv pool →
      Inv (pool.addUnchecked acceptance.entry)) :
    Inv (pool.storeLimited policy args acceptance) := by
  obtain ⟨replacing, trimming⟩ := removal_storeLimited policy args pool acceptance
  have notYet := replacing.lookup_none fresh
  have replaced := replacing.invariant Inv leaves initial (fun hash entry found left => by
    refine gone hash entry found (eq_none_iff_forall_not_mem.mpr fun other still => ?_)
    rcases lookup_storeLimited fresh still with ⟨same, _⟩ | ⟨_, there, _⟩
    · rw [same, fresh] at found
      cases found
    · rw [there] at left
      cases left) removes prioritises
  refine trimming.invariant Inv leaves (adds _ notYet replaced) ?_ removes prioritises
  intro hash entry found left
  rw [lookup_addUnchecked _ _ _ notYet] at found
  split_ifs at found with same
  · rcases own with kept | all
    · rw [contains, ← same, left] at kept
      cases kept
    · rw [same]
      exact all entry
  · exact gone hash entry (replacing.lookup found) left

end Mempool

def freezeKey (env : Env) (out : TxOut) : Option Bytes :=
  match registryKey env out with
  | some (.freeze name) => some name
  | _ => none

def unfreezeKey (env : Env) (out : TxOut) : Option Bytes :=
  match registryKey env out with
  | some (.unfreeze name) => some name
  | _ => none

def addTagKey (env : Env) (out : TxOut) : Option (Bytes × Bytes) :=
  match registryKey env out with
  | some (.addTag address name) => some (address, name)
  | _ => none

def removeTagKey (env : Env) (out : TxOut) : Option (Bytes × Bytes) :=
  match registryKey env out with
  | some (.removeTag address name) => some (address, name)
  | _ => none

def restrictedAddress (env : Env) (out : TxOut) : Option Bytes :=
  (restrictedOutput env out).map fun data => encodeDestination env data.destination

def restrictedName (env : Env) (out : TxOut) : Option Bytes :=
  (restrictedOutput env out).map AssetOutputEntry.assetName

namespace Mempool

structure Registered (env : Env) (hash : Uint256) (outs : List TxOut) (pool final : Mempool) :
    Prop where
  mapTx : final.mapTx = pool.mapTx
  mapNextTx : final.mapNextTx = pool.mapNextTx
  mapReissuedTx : final.assets.mapReissuedTx = pool.assets.mapReissuedTx
  mapReissuedAssets : final.assets.mapReissuedAssets = pool.assets.mapReissuedAssets
  mapAssetToHash : final.assets.mapAssetToHash = (outs.filterMap (issuedName env)).foldl
    (fun map name => map.insert name hash) pool.assets.mapAssetToHash
  mapHashToAsset : final.mapHashToAsset = (outs.filterMap (issuedName env)).foldl
    (fun map name => map.insert hash name) pool.mapHashToAsset
  markedFrozen : final.mapAddressesMarkedFrozen = pool.mapAddressesMarkedFrozen
  markedGlobalFrozen : final.mapAssetMarkedGlobalFrozen = pool.mapAssetMarkedGlobalFrozen
  qualifiersChanged : final.mapAddressesQualifiersChanged =
    pool.mapAddressesQualifiersChanged.recordAll (outs.filterMap (restrictedAddress env)) hash
  verifierChanged : final.mapAssetVerifierChanged =
    pool.mapAssetVerifierChanged.recordAll (outs.filterMap (restrictedName env)) hash
  freezing : final.mapGlobalFreezingAssetTransactions =
    pool.mapGlobalFreezingAssetTransactions.recordAll (outs.filterMap (freezeKey env)) hash
  unfreezing : final.mapGlobalUnFreezingAssetTransactions =
    pool.mapGlobalUnFreezingAssetTransactions.recordAll (outs.filterMap (unfreezeKey env)) hash
  addedTag : final.mapAddressAddedTag =
    pool.mapAddressAddedTag.recordAll (outs.filterMap (addTagKey env)) hash
  removeTag : final.mapAddressRemoveTag =
    pool.mapAddressRemoveTag.recordAll (outs.filterMap (removeTagKey env)) hash

variable {hash : Uint256} {env : Env}

theorem registered_nil (pool : Mempool) : Registered env hash [] pool pool :=
  ⟨rfl, rfl, rfl, rfl, rfl, rfl, rfl, rfl, rfl, rfl, rfl, rfl, rfl, rfl⟩

variable {out : TxOut}

theorem Registered.cons {rest : List TxOut}
    {pool middle final : Mempool} (head : Registered env hash [out] pool middle)
    (tail : Registered env hash rest middle final) : Registered env hash (out :: rest) pool final := by
  have split : ∀ {K : Type} (key : TxOut → Option K),
      (out :: rest).filterMap key = [out].filterMap key ++ rest.filterMap key := by
    intro K key
    rw [← filterMap_append, singleton_append]
  constructor
  · rw [tail.mapTx, head.mapTx]
  · rw [tail.mapNextTx, head.mapNextTx]
  · rw [tail.mapReissuedTx, head.mapReissuedTx]
  · rw [tail.mapReissuedAssets, head.mapReissuedAssets]
  · rw [tail.mapAssetToHash, head.mapAssetToHash, split, foldl_append]
  · rw [tail.mapHashToAsset, head.mapHashToAsset, split, foldl_append]
  · rw [tail.markedFrozen, head.markedFrozen]
  · rw [tail.markedGlobalFrozen, head.markedGlobalFrozen]
  · rw [tail.qualifiersChanged, head.qualifiersChanged, split, recordAll_append]
  · rw [tail.verifierChanged, head.verifierChanged, split, recordAll_append]
  · rw [tail.freezing, head.freezing, split, recordAll_append]
  · rw [tail.unfreezing, head.unfreezing, split, recordAll_append]
  · rw [tail.addedTag, head.addedTag, split, recordAll_append]
  · rw [tail.removeTag, head.removeTag, split, recordAll_append]

theorem getAssetData_of_registryKey {key : RegistryKey}
    (isKey : registryKey env out = some key) : getAssetData env out.scriptPubKey = none := by
  cases read : getAssetData env out.scriptPubKey with
  | none => rfl
  | some data =>
    rw [registryKey, if_pos (getAssetData_isAssetScript read)] at isKey
    cases isKey

theorem registered_recordKey {key : RegistryKey}
    (isKey : registryKey env out = some key) (pool : Mempool) :
    Registered env hash [out] pool (pool.recordKey hash key) := by
  have noAsset := getAssetData_of_registryKey isKey
  cases key <;> constructor <;>
    simp [recordKey, issuedName, restrictedAddress, restrictedName, restrictedOutput, noAsset,
      freezeKey, unfreezeKey, addTagKey, removeTagKey, isKey, recordAll]

theorem registered_recordAsset (noKey : registryKey env out = none) (pool : Mempool) :
    Registered env hash [out] pool (pool.recordAsset env hash out) := by
  rw [recordAsset_eq]
  cases issued : issuedName env out <;> cases restricted : restrictedOutput env out <;>
    constructor <;>
    simp [issued, restricted, restrictedAddress, restrictedName, freezeKey, unfreezeKey, addTagKey,
      removeTagKey, noKey, recordAll]

theorem registered_of_ok {env : Env} {hash : Uint256} {outs : List TxOut} {pool : Mempool}
    (passes : (registerOutputs env hash outs pool).2 = .ok ()) :
    Registered env hash outs pool (registerOutputs env hash outs pool).1 := by
  induction outs generalizing pool with
  | nil => exact registered_nil pool
  | cons out rest ih =>
    rw [registerOutputs, registerOutput_eq] at passes ⊢
    cases isKey : registryKey env out with
    | none =>
      rw [isKey] at passes
      exact (registered_recordAsset isKey pool).cons (ih passes)
    | some key =>
      rw [isKey] at passes
      cases held : pool.has key with
      | true => simp [held] at passes
      | false =>
        simp only [held, Bool.false_eq_true, if_false] at passes ⊢
        exact (registered_recordKey isKey pool).cons (ih passes)

end Mempool

/-- What an acceptance reads of the node when it records a transaction: the
environment and the coins of the chain. -/
structure AcceptContext where
  env : Env
  coins : CoinsView

def AcceptContext.restrictedInput (context : AcceptContext) (input : TxIn) :
    Option AssetOutputEntry :=
  ((context.coins.lookup input.prevout).bind fun coin =>
    getAssetData context.env coin.out.scriptPubKey).filter fun data =>
      isAssetNameAnRestricted data.assetName

def outputKeys {K : Type} (key : Env → TxOut → Option K) (context : AcceptContext)
    (tx : Transaction) : List K :=
  if context.env.areAssetsDeployed then tx.vout.filterMap (key context.env) else []

def inputKeys {K : Type} (key : Env → AssetOutputEntry → K) (context : AcceptContext)
    (tx : Transaction) : List K :=
  if context.env.areRestrictedAssetsDeployed then
    (tx.vin.filterMap context.restrictedInput).map (key context.env)
  else []

def frozenKey (env : Env) (data : AssetOutputEntry) : Bytes × Bytes :=
  (encodeDestination env data.destination, data.assetName)

def globalFrozenKey (_ : Env) (data : AssetOutputEntry) : Bytes := data.assetName

namespace Mempool

variable {context : AcceptContext} {tx : Transaction}

theorem foldl_registerInput (hash : Uint256) (inputs : List TxIn) (pool : Mempool) :
    inputs.foldl (registerInput context.env hash context.coins) pool = { pool with
      mapAssetMarkedGlobalFrozen := pool.mapAssetMarkedGlobalFrozen.recordAll
        ((inputs.filterMap context.restrictedInput).map (globalFrozenKey context.env)) hash
      mapAddressesMarkedFrozen := pool.mapAddressesMarkedFrozen.recordAll
        ((inputs.filterMap context.restrictedInput).map (frozenKey context.env)) hash } := by
  induction inputs generalizing pool with
  | nil => rfl
  | cons input rest ih =>
    rw [foldl_cons, ih]
    unfold registerInput
    cases read : (context.coins.lookup input.prevout).bind fun coin =>
        getAssetData context.env coin.out.scriptPubKey with
    | none =>
      have nothing : context.restrictedInput input = none := by
        rw [AcceptContext.restrictedInput, read, filter_none]
      rw [filterMap_cons_none nothing]
    | some data =>
      by_cases restricted : isAssetNameAnRestricted data.assetName = true
      · have found : context.restrictedInput input = some data := by
          rw [AcceptContext.restrictedInput, read, filter_some, if_pos restricted]
        rw [filterMap_cons_some found]
        dsimp only
        rw [if_pos restricted]
        rfl
      · have nothing : context.restrictedInput input = none := by
          rw [AcceptContext.restrictedInput, read, filter_some, if_neg restricted]
        rw [filterMap_cons_none nothing]
        dsimp only
        rw [if_neg restricted]

theorem registerInputs_eq (pool : Mempool) :
    registerInputs context.env tx.hash context.coins tx pool = { pool with
      mapAssetMarkedGlobalFrozen := pool.mapAssetMarkedGlobalFrozen.recordAll
        (inputKeys globalFrozenKey context tx) tx.hash
      mapAddressesMarkedFrozen := pool.mapAddressesMarkedFrozen.recordAll
        (inputKeys frozenKey context tx) tx.hash } := by
  unfold registerInputs inputKeys
  by_cases deployed : context.env.areRestrictedAssetsDeployed = true
  · rw [if_pos deployed, if_pos deployed, if_pos deployed]
    exact foldl_registerInput tx.hash tx.vin pool
  · rw [if_neg deployed, if_neg deployed, if_neg deployed]
    rfl

def registeredOutputs (context : AcceptContext) (tx : Transaction) : List TxOut :=
  if context.env.areAssetsDeployed then tx.vout else []

theorem filterMap_registeredOutputs {K : Type} (key : Env → TxOut → Option K) :
    (registeredOutputs context tx).filterMap (key context.env) = outputKeys key context tx := by
  unfold registeredOutputs outputKeys
  split_ifs <;> rfl

variable {pool final : Mempool}

theorem register_ok {acceptance : Acceptance}
    (passes : pool.register context.env context.coins tx acceptance = (final, .ok ())) :
    ∃ registered, Registered context.env tx.hash (registeredOutputs context tx)
        (registerReissues acceptance.vReissueAssets pool) registered ∧
      final = registerInputs context.env tx.hash context.coins tx registered := by
  unfold register at passes
  by_cases deployed : context.env.areAssetsDeployed = true
  · simp only [if_pos deployed] at passes
    rw [registeredOutputs, if_pos deployed]
    have recorded := @registered_of_ok context.env tx.hash tx.vout
      (registerReissues acceptance.vReissueAssets pool)
    generalize registerOutputs context.env tx.hash tx.vout
      (registerReissues acceptance.vReissueAssets pool) = result at passes recorded
    obtain ⟨registered, verdict⟩ := result
    cases verdict with
    | error reason => cases passes
    | ok u =>
      cases passes
      exact ⟨registered, recorded rfl, rfl⟩
  · simp only [if_neg deployed] at passes
    rw [registeredOutputs, if_neg deployed]
    cases passes
    exact ⟨_, registered_nil _, rfl⟩

theorem registerReissues_eq (hash : Uint256) (names : List Bytes) (pool : Mempool) :
    registerReissues (names.map (·, hash)) pool = { pool with assets := { pool.assets with
      mapReissuedAssets := names.foldl (fun map name => KeyedMap.insertNew name hash map)
        pool.assets.mapReissuedAssets
      mapReissuedTx := names.foldl (fun map name => KeyedMap.insertNew hash name map)
        pool.assets.mapReissuedTx } } := by
  unfold registerReissues
  congr 1
  generalize pool.assets = assets
  induction names generalizing assets with
  | nil => rfl
  | cons name rest ih => rw [map_cons, foldl_cons, ih, foldl_cons, foldl_cons]

structure Recorded (context : AcceptContext) (tx : Transaction) (pool final : Mempool) : Prop where
  mapTx : final.mapTx = pool.mapTx
  assetToHash : final.assets.mapAssetToHash = (outputKeys issuedName context tx).foldl
    (fun map name => map.insert name tx.hash) pool.assets.mapAssetToHash
  hashToAsset : final.mapHashToAsset = (outputKeys issuedName context tx).foldl
    (fun map name => map.insert tx.hash name) pool.mapHashToAsset
  reissuedAssets : final.assets.mapReissuedAssets = (outputKeys reissuedName context tx).foldl
    (fun map name => KeyedMap.insertNew name tx.hash map) pool.assets.mapReissuedAssets
  reissuedTx : final.assets.mapReissuedTx = (outputKeys reissuedName context tx).foldl
    (fun map name => KeyedMap.insertNew tx.hash name map) pool.assets.mapReissuedTx
  markedFrozen : final.mapAddressesMarkedFrozen =
    pool.mapAddressesMarkedFrozen.recordAll (inputKeys frozenKey context tx) tx.hash
  markedGlobalFrozen : final.mapAssetMarkedGlobalFrozen =
    pool.mapAssetMarkedGlobalFrozen.recordAll (inputKeys globalFrozenKey context tx) tx.hash
  qualifiersChanged : final.mapAddressesQualifiersChanged =
    pool.mapAddressesQualifiersChanged.recordAll (outputKeys restrictedAddress context tx) tx.hash
  verifierChanged : final.mapAssetVerifierChanged =
    pool.mapAssetVerifierChanged.recordAll (outputKeys restrictedName context tx) tx.hash
  freezing : final.mapGlobalFreezingAssetTransactions =
    pool.mapGlobalFreezingAssetTransactions.recordAll (outputKeys freezeKey context tx) tx.hash
  unfreezing : final.mapGlobalUnFreezingAssetTransactions =
    pool.mapGlobalUnFreezingAssetTransactions.recordAll (outputKeys unfreezeKey context tx) tx.hash
  addedTag : final.mapAddressAddedTag =
    pool.mapAddressAddedTag.recordAll (outputKeys addTagKey context tx) tx.hash
  removeTag : final.mapAddressRemoveTag =
    pool.mapAddressRemoveTag.recordAll (outputKeys removeTagKey context tx) tx.hash

theorem recorded_of_register {acceptance : Acceptance}
    (passes : pool.register context.env context.coins tx acceptance = (final, .ok ()))
    (reissues : acceptance.vReissueAssets =
      (outputKeys reissuedName context tx).map (·, tx.hash)) : Recorded context tx pool final := by
  obtain ⟨registered, recorded, rfl⟩ := register_ok passes
  rw [reissues, registerReissues_eq] at recorded
  rw [registerInputs_eq]
  constructor
  · exact recorded.mapTx
  · exact recorded.mapAssetToHash.trans (by rw [filterMap_registeredOutputs issuedName])
  · exact recorded.mapHashToAsset.trans (by rw [filterMap_registeredOutputs issuedName])
  · exact recorded.mapReissuedAssets
  · exact recorded.mapReissuedTx
  · exact congrArg (recordAll · _ _) recorded.markedFrozen
  · exact congrArg (recordAll · _ _) recorded.markedGlobalFrozen
  · exact recorded.qualifiersChanged.trans (by rw [filterMap_registeredOutputs restrictedAddress])
  · exact recorded.verifierChanged.trans (by rw [filterMap_registeredOutputs restrictedName])
  · exact recorded.freezing.trans (by rw [filterMap_registeredOutputs freezeKey])
  · exact recorded.unfreezing.trans (by rw [filterMap_registeredOutputs unfreezeKey])
  · exact recorded.addedTag.trans (by rw [filterMap_registeredOutputs addTagKey])
  · exact recorded.removeTag.trans (by rw [filterMap_registeredOutputs removeTagKey])

/-- What the checks establish of the names that a transaction issues: which of them
are recorded, what else is, and that the pool does not have them. -/
structure AcceptedNames (context : AcceptContext) (mempool : MempoolMaps) (tx : Transaction) :
    Prop where
  source : ∀ name ∈ outputKeys issuedName context tx, name ∈ tx.issuedNames context.env ∨
    ∃ issued ∈ tx.issuedNames context.env, name = issued ++ ownerTag
  recorded : ∀ name ∈ tx.issuedNames context.env, name ∈ outputKeys issuedName context tx
  unmarked : ∀ name ∈ tx.issuedNames context.env, (33 : UInt8) ∉ name
  free : mempool.uniquesFree context.env tx = true → ∀ name ∈ tx.issuedNames context.env,
    mempool.mapAssetToHash.lookup name = none

section

variable {global : AssetState} {pool : Mempool} {acceptance : Acceptance}

variable (checked : AcceptanceChecked context.env global context.coins pool tx acceptance)

include checked

theorem acceptedNames :
    AcceptedNames context pool.assets tx := by
  have passes := checked.reissues
  unfold checkAcceptedAssets at passes
  by_cases deployed : context.env.areAssetsDeployed = true
  · rw [if_pos deployed] at passes
    obtain ⟨outputs, assets, _⟩ := bind_eq_ok.mp passes
    obtain ⟨_, _, _, _, kindChecked, _⟩ := checkTxAssets_ok assets
    obtain ⟨_, use, stages⟩ := checkTransaction_ok checked.transaction
    have kind := stages.kind
    have keys : outputKeys issuedName context tx = tx.vout.filterMap (issuedName context.env) := by
      rw [outputKeys, if_pos deployed]
    constructor
    · intro name member
      exact issued_of_recorded kind (keys ▸ member)
    · intro name issued
      exact keys ▸ (recorded_of_issued kind kindChecked issued).1
    · intro name issued
      exact (recorded_of_issued kind kindChecked issued).2
    · intro uniques name issued
      exact issuedNames_free kind kindChecked uniques issued
  · rw [if_neg deployed] at passes
    obtain ⟨_, noAssets, _⟩ := bind_eq_ok.mp passes
    have nothing : ∀ name, name ∉ tx.issuedNames context.env := by
      intro name issued
      obtain ⟨out, member, asset, address, read, _⟩ := mem_issuedNames.mp issued
      obtain ⟨n, kind, _⟩ := assetFromScript_eq_some read
      have none := forM_eq_ok.mp noAssets out member
      rw [require_eq_ok, assetScriptOf_eq_some.mp kind] at none
      cases none
    constructor
    · intro name member
      rw [outputKeys, if_neg deployed] at member
      cases member
    all_goals intros; exact absurd ‹_ ∈ tx.issuedNames context.env› (nothing _)

theorem acceptedReissues
    (foreign : ∀ name, pool.assets.mapReissuedAssets.lookup name ≠ some tx.hash) :
    acceptance.vReissueAssets = (outputKeys reissuedName context tx).map (·, tx.hash) ∧
      (∀ a ∈ outputKeys reissuedName context tx, ∀ b ∈ outputKeys reissuedName context tx, a = b) ∧
      ∀ name ∈ outputKeys reissuedName context tx,
        pool.assets.mapReissuedAssets.lookup name = none := by
  have passes := checked.reissues
  unfold checkAcceptedAssets at passes
  unfold outputKeys
  split_ifs at passes ⊢ with deployed
  · obtain ⟨outputs, assets, handed⟩ := bind_eq_ok.mp passes
    obtain ⟨pairs, absent⟩ := checkTxAssets_reissues foreign assets
    obtain ⟨_, use, stages⟩ := checkTransaction_ok checked.transaction
    have kind := stages.kind
    refine ⟨by rw [← pure_eq_ok.mp handed, pairs], ?_, absent⟩
    intro a first b second
    exact reissuedName_unique kind first second
  · obtain ⟨_, _, handed⟩ := bind_eq_ok.mp passes
    refine ⟨by rw [← pure_eq_ok.mp handed]; rfl, ?_, ?_⟩ <;> simp

end

theorem acceptToMemoryPoolWorker_ok {policy : MempoolPolicy} {global : AssetState}
    {nSpendHeight : Nat} {args : AcceptArgs}
    (passes : pool.acceptToMemoryPoolWorker policy context.env global context.coins nSpendHeight args
      tx = (final, .ok ())) : pool.contains tx.hash = false ∧ (final = pool ∨ ∃ acceptance,
      AcceptanceChecked context.env global context.coins pool tx acceptance ∧
      (pool.storeLimited policy args acceptance).contains tx.hash = true ∧
      (pool.storeLimited policy args acceptance).register context.env context.coins tx acceptance =
        (final, .ok ())) := by
  unfold acceptToMemoryPoolWorker at passes
  cases checks : pool.checkAcceptance policy context.env global context.coins nSpendHeight args tx with
  | error reason => simp [checks] at passes
  | ok acceptance =>
    have checked := checkAcceptance_ok checks
    rw [checks] at passes
    refine ⟨checked.fresh, ?_⟩
    dsimp only at passes
    split_ifs at passes with test trimmed
    · cases passes
      exact .inl rfl
    · cases passes
    · exact .inr ⟨acceptance, checked, contains_storeLimited checked trimmed, passes⟩

end Mempool

inductive MempoolStep where
  | accept (policy : MempoolPolicy) (context : AcceptContext) (global : AssetState)
      (nSpendHeight : Nat) (args : AcceptArgs) (tx : Transaction)
  | removeUnchecked (hash : Uint256)
  | removeForBlock (env : Env) (global : AssetState) (coins : CoinsView) (connected : AssetsCache)
      (vtx : List Transaction)
  | clear

end Phicoin
