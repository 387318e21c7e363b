import Phicoin.NullAssets

/-! # What acceptance writes into the asset maps

A tag change or a global freeze is an entry that one transaction of the pool may
have; every other output is recorded without a question.  Within a transaction
no such entry occurs twice, so the loop over the outputs ends early exactly when
the pool has one of them. -/

namespace Phicoin

open Check Option

inductive RegistryKey where
  | freeze (name : Bytes)
  | unfreeze (name : Bytes)
  | addTag (address name : Bytes)
  | removeTag (address name : Bytes)
deriving DecidableEq

def RegistryKey.reason : RegistryKey → String
  | .freeze _ => "bad-txns-global-freeze-already-in-mempool"
  | .unfreeze _ => "bad-txns-global-unfreeze-already-in-mempool"
  | .addTag _ _ => "bad-txns-adding-tag-already-in-mempool"
  | .removeTag _ _ => "bad-txns-remove-tag-already-in-mempool"

def globalKey (data : NullAssetTxData) : Option RegistryKey :=
  if data.flag = 1 then some (.freeze data.assetName)
  else if data.flag = 0 then some (.unfreeze data.assetName)
  else none

def tagKey (data : NullAssetTxData) (address : Bytes) : Option RegistryKey :=
  if isAssetNameAQualifier data.assetName false then
    if data.flag = 1 then some (.addTag address data.assetName)
    else some (.removeTag address data.assetName)
  else none

def registryKey (env : Env) (out : TxOut) : Option RegistryKey :=
  if (isAssetScript out.scriptPubKey).isSome then none
  else if isNullGlobalRestrictionAssetTxDataScript out.scriptPubKey then
    (globalAssetNullDataFromScript out.scriptPubKey).bind globalKey
  else (assetNullDataFromScript env out.scriptPubKey).bind fun read => tagKey read.1 read.2

def issuedName (env : Env) (out : TxOut) : Option Bytes :=
  (getAssetData env out.scriptPubKey).bind fun data =>
    if data.type = .newAsset && !isAssetNameAnOwner data.assetName then some data.assetName else none

def restrictedOutput (env : Env) (out : TxOut) : Option AssetOutputEntry :=
  (getAssetData env out.scriptPubKey).bind fun data =>
    if env.areRestrictedAssetsDeployed && isAssetNameAnRestricted data.assetName then some data
    else none

namespace Mempool

variable (pool : Mempool)

def has : RegistryKey → Bool
  | .freeze name => (pool.mapGlobalFreezingAssetTransactions.forward.lookup name).isSome
  | .unfreeze name => (pool.mapGlobalUnFreezingAssetTransactions.forward.lookup name).isSome
  | .addTag address name => (pool.mapAddressAddedTag.forward.lookup (address, name)).isSome
  | .removeTag address name => (pool.mapAddressRemoveTag.forward.lookup (address, name)).isSome

def recordKey (hash : Uint256) : RegistryKey → Mempool
  | .freeze name => { pool with mapGlobalFreezingAssetTransactions :=
      pool.mapGlobalFreezingAssetTransactions.record name hash }
  | .unfreeze name => { pool with mapGlobalUnFreezingAssetTransactions :=
      pool.mapGlobalUnFreezingAssetTransactions.record name hash }
  | .addTag address name =>
    { pool with mapAddressAddedTag := pool.mapAddressAddedTag.record (address, name) hash }
  | .removeTag address name =>
    { pool with mapAddressRemoveTag := pool.mapAddressRemoveTag.record (address, name) hash }

def recordAsset (env : Env) (hash : Uint256) (out : TxOut) : Mempool :=
  match getAssetData env out.scriptPubKey with
  | some data => registerRestricted env hash (registerIssue hash pool data) data
  | none => pool

variable {pool} {env : Env} {hash : Uint256}

theorem getAssetData_isAssetScript {script : Bytes} {data : AssetOutputEntry}
    (read : getAssetData env script = some data) : (isAssetScript script).isSome = true := by
  unfold getAssetData at read
  cases found : isAssetScript script with
  | none => simp [found] at read
  | some info => rfl

theorem recordOnce_bind {K : Type} [DecidableEq K] (index : SetIndex K Uint256) (key : K)
    (reason : String) (write : SetIndex K Uint256 → Mempool) :
    (recordOnce hash index key reason >>= fun recorded => pure (write recorded)) =
      if (index.forward.lookup key).isSome then .error reason
      else .ok (write (index.record key hash)) := by
  unfold recordOnce
  cases index.forward.lookup key <;> rfl

theorem registerOutput_eq (out : TxOut) :
    registerOutput env hash pool out =
      match registryKey env out with
      | some key => if pool.has key then .error key.reason else .ok (pool.recordKey hash key)
      | none => .ok (pool.recordAsset env hash out) := by
  unfold registerOutput registryKey
  by_cases isAsset : (isAssetScript out.scriptPubKey).isSome = true
  · rw [if_pos isAsset, if_pos isAsset]
    unfold recordAsset
    cases getAssetData env out.scriptPubKey <;> rfl
  rw [if_neg isAsset, if_neg isAsset]
  have noAsset : pool.recordAsset env hash out = pool := by
    unfold recordAsset
    cases read : getAssetData env out.scriptPubKey with
    | none => rfl
    | some data => exact absurd (getAssetData_isAssetScript read) isAsset
  rw [noAsset]
  by_cases isGlobal : isNullGlobalRestrictionAssetTxDataScript out.scriptPubKey = true
  · rw [if_pos isGlobal, if_pos isGlobal]
    cases globalAssetNullDataFromScript out.scriptPubKey with
    | none => rfl
    | some data =>
      simp only [bind_some, registerGlobal, globalKey]
      split_ifs with freezes unfreezes
      · exact recordOnce_bind _ _ _ _
      · exact recordOnce_bind _ _ _ _
      · rfl
  rw [if_neg isGlobal, if_neg isGlobal]
  by_cases isTag : isNullAssetTxDataScript out.scriptPubKey = true
  · rw [if_pos isTag]
    cases assetNullDataFromScript env out.scriptPubKey with
    | none => rfl
    | some read =>
      simp only [bind_some, registerTag, tagKey]
      split_ifs with isQualifier adds
      · exact recordOnce_bind _ _ _ _
      · exact recordOnce_bind _ _ _ _
      · rfl
  · rw [if_neg isTag]
    have nothing : assetNullDataFromScript env out.scriptPubKey = none := by
      rw [assetNullDataFromScript, if_neg isTag]
    rw [nothing]
    rfl

theorem has_recordKey (key other : RegistryKey) :
    (pool.recordKey hash key).has other = (decide (other = key) || pool.has other) := by
  cases key <;> cases other <;>
    simp [recordKey, has, SetIndex.record, SetIndex.put]

theorem mapTx_recordKey (key : RegistryKey) : (pool.recordKey hash key).mapTx = pool.mapTx := by
  cases key <;> rfl

theorem recordAsset_eq (out : TxOut) : pool.recordAsset env hash out = { pool with
      assets := { pool.assets with
        mapAssetToHash := (issuedName env out).elim pool.assets.mapAssetToHash fun name =>
          pool.assets.mapAssetToHash.insert name hash }
      mapHashToAsset := (issuedName env out).elim pool.mapHashToAsset fun name =>
        pool.mapHashToAsset.insert hash name
      mapAddressesQualifiersChanged :=
        (restrictedOutput env out).elim pool.mapAddressesQualifiersChanged fun data =>
          pool.mapAddressesQualifiersChanged.record (encodeDestination env data.destination) hash
      mapAssetVerifierChanged :=
        (restrictedOutput env out).elim pool.mapAssetVerifierChanged fun data =>
          pool.mapAssetVerifierChanged.record data.assetName hash } := by
  unfold recordAsset issuedName restrictedOutput
  cases getAssetData env out.scriptPubKey with
  | none => rfl
  | some data =>
    simp only [bind_some]
    unfold registerRestricted registerIssue
    by_cases issues : (data.type = .newAsset && !isAssetNameAnOwner data.assetName) = true <;>
      by_cases restricted :
        (env.areRestrictedAssetsDeployed && isAssetNameAnRestricted data.assetName) = true <;>
      simp only [issues, restricted, if_true, if_false, Bool.false_eq_true] <;> rfl

theorem has_recordAsset (out : TxOut) (key : RegistryKey) :
    (pool.recordAsset env hash out).has key = pool.has key := by
  rw [recordAsset_eq]
  cases key <;> rfl

theorem mapTx_recordAsset (out : TxOut) : (pool.recordAsset env hash out).mapTx = pool.mapTx := by
  rw [recordAsset_eq]

def DistinctKeys (env : Env) (outs : List TxOut) : Prop :=
  outs.Pairwise fun a b => ∀ key, registryKey env a = some key → registryKey env b ≠ some key

theorem registerOutputs_ok_iff {outs : List TxOut} (distinct : DistinctKeys env outs) :
    (registerOutputs env hash outs pool).2 = .ok () ↔
      ∀ out ∈ outs, ∀ key, registryKey env out = some key → pool.has key = false := by
  induction outs generalizing pool with
  | nil => simp [registerOutputs]
  | cons out rest ih =>
    obtain ⟨others, distinctRest⟩ := List.pairwise_cons.mp distinct
    rw [registerOutputs, registerOutput_eq]
    cases isKey : registryKey env out with
    | none =>
      dsimp only
      rw [ih distinctRest]
      simp [isKey, has_recordAsset]
    | some key =>
      dsimp only
      cases held : pool.has key with
      | true => simp [isKey, held]
      | false =>
        rw [if_neg (by simp), ih distinctRest]
        simp only [List.forall_mem_cons, isKey, Option.some.injEq, forall_eq', held, true_and,
          has_recordKey, Bool.or_eq_false_iff, decide_eq_false_iff_not]
        constructor
        · intro free later member other otherKey
          exact (free later member other otherKey).2
        · intro free later member other otherKey
          refine ⟨?_, free later member other otherKey⟩
          rintro rfl
          exact others later member other isKey otherKey

theorem registerOutputs_error {outs : List TxOut} {reason : String}
    (refused : (registerOutputs env hash outs pool).2 = .error reason) :
    ∃ key : RegistryKey, reason = key.reason := by
  induction outs generalizing pool with
  | nil => cases refused
  | cons out rest ih =>
    rw [registerOutputs, registerOutput_eq] at refused
    cases isKey : registryKey env out with
    | none =>
      rw [isKey] at refused
      exact ih refused
    | some key =>
      rw [isKey] at refused
      cases held : pool.has key with
      | true =>
        simp only [held, if_true] at refused
        exact ⟨key, (Except.error.inj refused).symm⟩
      | false =>
        simp only [held, Bool.false_eq_true, if_false] at refused
        exact ih refused

theorem registerOutputs_keeps {α : Type} (part : Mempool → α) {outs : List TxOut}
    (asset : ∀ out ∈ outs, ∀ pool : Mempool, part (pool.recordAsset env hash out) = part pool)
    (key : ∀ (key : RegistryKey) (pool : Mempool), part (pool.recordKey hash key) = part pool) :
    part (registerOutputs env hash outs pool).1 = part pool := by
  induction outs generalizing pool with
  | nil => rfl
  | cons out rest ih =>
    have later : ∀ pool : Mempool, part (registerOutputs env hash rest pool).1 = part pool :=
      fun pool => ih fun other member => asset other (List.mem_cons_of_mem out member)
    rw [registerOutputs, registerOutput_eq]
    cases registryKey env out with
    | none => exact (later _).trans (asset out List.mem_cons_self pool)
    | some held =>
      dsimp only
      cases pool.has held with
      | true => rfl
      | false => exact (later _).trans (key held pool)

theorem mapTx_registerOutputs (outs : List TxOut) :
    (registerOutputs env hash outs pool).1.mapTx = pool.mapTx :=
  registerOutputs_keeps Mempool.mapTx (fun out _ _ => mapTx_recordAsset out)
    fun key _ => mapTx_recordKey key

end Mempool

variable {env : Env} {out : TxOut} {scan next : OutputScan} {fMempoolCheck fBlockCheck : Bool}

theorem scanOutput_fresh (passes : scanOutput env fMempoolCheck fBlockCheck scan out = .ok next) :
    (∀ data address, assetNullDataFromScript env out.scriptPubKey = some (data, address) →
      (data.assetName, address) ∉ scan.mapNullDataTxCount) ∧
    ∀ data, globalAssetNullDataFromScript out.scriptPubKey = some data →
      data.assetName ∉ scan.setNullGlobalAssetChanges := by
  unfold scanOutput at passes
  obtain ⟨valued, value, nulls, null, _⟩ := ok_bind₂ passes
  unfold scanValue at value
  obtain ⟨_, _, _, _, _, _, value⟩ := ok_bind₃ value
  obtain rfl := pure_eq_ok.mp value
  unfold scanNullAsset at null
  constructor
  · intro data address read
    rw [if_pos (isNullAssetTxDataScript_of_read read)] at null
    obtain ⟨found, again, _, _, _, fresh, _⟩ := ok_bind₃ null
    rw [require?_eq_ok, read] at again
    obtain rfl := Option.some.inj again
    simpa using fresh
  · intro data read
    have isGlobal := isNullGlobalRestriction_of_read read
    rw [if_neg (by simp [nullKinds_disjoint.1 isGlobal]), if_pos isGlobal] at null
    obtain ⟨found, again, _, _, _, fresh, _⟩ := ok_bind₃ null
    rw [require?_eq_ok, read] at again
    obtain rfl := Option.some.inj again
    simpa using fresh

theorem registryKey_source {key : RegistryKey} (isKey : registryKey env out = some key) :
    match key with
    | .freeze name | .unfreeze name => ∃ data, data.assetName = name ∧
        globalAssetNullDataFromScript out.scriptPubKey = some data
    | .addTag address name | .removeTag address name => ∃ data, data.assetName = name ∧
        assetNullDataFromScript env out.scriptPubKey = some (data, address) := by
  unfold registryKey at isKey
  split_ifs at isKey with _ isGlobal
  · obtain ⟨data, read, isKey⟩ := bind_eq_some_iff.mp isKey
    unfold globalKey at isKey
    split_ifs at isKey <;> cases isKey <;> exact ⟨data, rfl, read⟩
  · obtain ⟨⟨data, address⟩, read, isKey⟩ := bind_eq_some_iff.mp isKey
    unfold tagKey at isKey
    split_ifs at isKey <;> cases isKey <;> exact ⟨data, rfl, read⟩

theorem distinctKeys_of_checkTransaction {tx : Transaction} {fCheckDuplicateInputs : Bool}
    (checked : checkTransaction env tx fCheckDuplicateInputs fMempoolCheck fBlockCheck = .ok ()) :
    Mempool.DistinctKeys env tx.vout := by
  obtain ⟨scan, _, stages⟩ := checkTransaction_ok checked
  have scanned := stages.scanned
  have tags := (foldlM_distinct
    (fun out => (assetNullDataFromScript env out.scriptPubKey).map fun read =>
      (read.1.assetName, read.2))
    OutputScan.mapNullDataTxCount scanned
    (by
      intro acc out next k step isKey
      obtain ⟨⟨data, address⟩, read, rfl⟩ := map_eq_some_iff.mp isKey
      exact ⟨(scanOutput_fresh step).1 data address read, (scanOutput_ok step).tag data address read⟩)
    fun acc out next step => (scanOutput_ok step).keepsTags).2
  have globals := (foldlM_distinct
    (fun out => (globalAssetNullDataFromScript out.scriptPubKey).map NullAssetTxData.assetName)
    OutputScan.setNullGlobalAssetChanges scanned
    (by
      intro acc out next k step isKey
      obtain ⟨data, read, rfl⟩ := map_eq_some_iff.mp isKey
      exact ⟨(scanOutput_fresh step).2 data read, (scanOutput_ok step).globalFreeze data read⟩)
    fun acc out next step => (scanOutput_ok step).keepsGlobals).2
  refine (tags.and globals).imp ?_
  rintro a b ⟨tagsDiffer, globalsDiffer⟩ key keyA keyB
  have sourceA := registryKey_source keyA
  have sourceB := registryKey_source keyB
  cases key <;> obtain ⟨dataA, nameA, readA⟩ := sourceA <;>
    obtain ⟨dataB, nameB, readB⟩ := sourceB
  · exact globalsDiffer _ (by rw [readA, map_some]) (by simp [readB, nameA, nameB])
  · exact globalsDiffer _ (by rw [readA, map_some]) (by simp [readB, nameA, nameB])
  · exact tagsDiffer _ (by rw [readA, map_some]) (by simp [readB, nameA, nameB])
  · exact tagsDiffer _ (by rw [readA, map_some]) (by simp [readB, nameA, nameB])

end Phicoin
