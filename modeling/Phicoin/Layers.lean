import Phicoin.Coins

/-! # The layers of an asset cache

A cache holds four independent groups of data: the records of assets, the
reissues that wait for the database, the restrictions (verifier strings, tags,
freezes), and the balances with the owners, transfers and spends that only the
balance index reads.  The lookups of validation read records and restrictions.
Each operation is described by what it does to the first three groups; one on
balances leaves them alone. -/

namespace Phicoin

open KeyedMap

structure RecordLayer where
  removed : KeyedMap Bytes CachedNewAsset
  added : KeyedMap Bytes CachedNewAsset
  reissued : KeyedMap Bytes NewAsset

structure ReissueLayer where
  removed : KeyedMap OutPoint CachedReissue
  added : KeyedMap OutPoint CachedReissue

structure RestrictionLayer where
  verifierRemoved : KeyedMap Bytes CachedVerifier
  verifierAdded : KeyedMap Bytes CachedVerifier
  qualifierRemoved : KeyedMap (Bytes × Bytes) QualifierType
  qualifierAdded : KeyedMap (Bytes × Bytes) QualifierType
  rootsAdded : KeyedMap (Bytes × Bytes) (List Bytes)
  rootsRemoved : KeyedMap (Bytes × Bytes) (List Bytes)
  frozenRemoved : KeyedMap (Bytes × Bytes) RestrictedType
  frozenAdded : KeyedMap (Bytes × Bytes) RestrictedType
  globalRemoved : KeyedMap Bytes RestrictedType
  globalAdded : KeyedMap Bytes RestrictedType

namespace RecordLayer

variable (layer : RecordLayer) (name : Bytes)

def issue (entry : CachedNewAsset) : RecordLayer :=
  { layer with removed := layer.removed.erase name, added := insertNew name entry layer.added }

def withdraw (entry : CachedNewAsset) : RecordLayer :=
  { layer with added := layer.added.erase name, removed := insertNew name entry layer.removed }

def reissue (record : NewAsset) : RecordLayer :=
  { layer with reissued := layer.reissued.insert name record }

end RecordLayer

namespace ReissueLayer

variable (layer : ReissueLayer) (out : OutPoint) (entry : CachedReissue)

def make : ReissueLayer := ⟨layer.removed.erase out, insertNew out entry layer.added⟩

def undo : ReissueLayer := ⟨insertNew out entry layer.removed, layer.added.erase out⟩

end ReissueLayer

namespace RestrictionLayer

variable (layer : RestrictionLayer) (name : Bytes)

def setVerifier (verifier : Bytes) : RestrictionLayer :=
  { layer with
    verifierRemoved := layer.verifierRemoved.erase name
    verifierAdded := insertNew name ⟨verifier, false⟩ layer.verifierAdded }

def unsetVerifier (entry : CachedVerifier) : RestrictionLayer :=
  { layer with
    verifierAdded := layer.verifierAdded.erase name
    verifierRemoved := insertNew name entry layer.verifierRemoved }

def changeVerifier : Option Bytes → RestrictionLayer
  | some verifier => layer.setVerifier name verifier
  | none => layer

def undoVerifier : Option BlockAssetUndo → RestrictionLayer
  | some item =>
    if item.fChangedVerifierString then layer.unsetVerifier name ⟨item.verifierString, true⟩
    else layer
  | none => layer

end RestrictionLayer

namespace AssetsCache

def records (cache : AssetsCache) : RecordLayer where
  removed := cache.setNewAssetsToRemove
  added := cache.setNewAssetsToAdd
  reissued := cache.mapReissuedAssetData

def reissues (cache : AssetsCache) : ReissueLayer where
  removed := cache.setNewReissueToRemove
  added := cache.setNewReissueToAdd

def restrictions (cache : AssetsCache) : RestrictionLayer where
  verifierRemoved := cache.setNewRestrictedVerifierToRemove
  verifierAdded := cache.setNewRestrictedVerifierToAdd
  qualifierRemoved := cache.setNewQualifierAddressToRemove
  qualifierAdded := cache.setNewQualifierAddressToAdd
  rootsAdded := cache.mapRootQualifierAddressesAdd
  rootsRemoved := cache.mapRootQualifierAddressesRemove
  frozenRemoved := cache.setNewRestrictedAddressToRemove
  frozenAdded := cache.setNewRestrictedAddressToAdd
  globalRemoved := cache.setNewRestrictedGlobalToRemove
  globalAdded := cache.setNewRestrictedGlobalToAdd

structure SameLayers (cache other : AssetsCache) : Prop where
  records : other.records = cache.records
  reissues : other.reissues = cache.reissues
  restrictions : other.restrictions = cache.restrictions

theorem SameLayers.refl (cache : AssetsCache) : SameLayers cache cache := ⟨rfl, rfl, rfl⟩

theorem SameLayers.trans {a b c : AssetsCache} (first : SameLayers a b) (second : SameLayers b c) :
    SameLayers a c :=
  ⟨second.records.trans first.records, second.reissues.trans first.reissues,
    second.restrictions.trans first.restrictions⟩

variable {env : Env} {global : AssetState} {cache next : AssetsCache}

/-! The three sets of records after a change of their layer. -/

section

variable {name : Bytes} {entry : CachedNewAsset} {record : NewAsset}

theorem sets_of_records (same : next.records = cache.records) :
    next.setNewAssetsToRemove = cache.setNewAssetsToRemove ∧
      next.setNewAssetsToAdd = cache.setNewAssetsToAdd ∧
      next.mapReissuedAssetData = cache.mapReissuedAssetData := RecordLayer.mk.inj same

theorem sets_of_issue (made : next.records = cache.records.issue name entry) :
    next.setNewAssetsToRemove = cache.setNewAssetsToRemove.erase name ∧
      next.setNewAssetsToAdd = insertNew name entry cache.setNewAssetsToAdd ∧
      next.mapReissuedAssetData = cache.mapReissuedAssetData := RecordLayer.mk.inj made

theorem sets_of_withdraw (made : next.records = cache.records.withdraw name entry) :
    next.setNewAssetsToRemove = insertNew name entry cache.setNewAssetsToRemove ∧
      next.setNewAssetsToAdd = cache.setNewAssetsToAdd.erase name ∧
      next.mapReissuedAssetData = cache.mapReissuedAssetData := RecordLayer.mk.inj made

theorem sets_of_reissue (made : next.records = cache.records.reissue name record) :
    next.setNewAssetsToRemove = cache.setNewAssetsToRemove ∧
      next.setNewAssetsToAdd = cache.setNewAssetsToAdd ∧
      next.mapReissuedAssetData = cache.mapReissuedAssetData.insert name record :=
  RecordLayer.mk.inj made

end

theorem setBalance_layers (cache : AssetsCache) (pair : Bytes × Bytes) (amount : Int) :
    SameLayers cache (cache.setBalance pair amount) := ⟨rfl, rfl, rfl⟩

theorem getBestAssetAddressAmount_layers {pair : Bytes × Bytes}
    (found : cache.getBestAssetAddressAmount env global pair = some next) :
    SameLayers cache next := by
  unfold getBestAssetAddressAmount at found
  split at found
  · cases found
  · split at found
    · cases found
      exact SameLayers.refl cache
    · split at found
      · cases found
        exact ⟨rfl, rfl, rfl⟩
      · split at found
        · cases found
          exact ⟨rfl, rfl, rfl⟩
        · cases found

theorem updateBalance_layers (env : Env) (global : AssetState) (cache : AssetsCache)
    (pair : Bytes × Bytes) (change : Int → Int) :
    SameLayers cache (cache.updateBalance env global pair change) := by
  unfold updateBalance
  split
  · apply SameLayers.trans _ (setBalance_layers _ pair _)
    cases known : cache.getBestAssetAddressAmount env global pair with
    | none => exact SameLayers.refl cache
    | some best => exact getBestAssetAddressAmount_layers known
  · exact SameLayers.refl cache

theorem addOwnerAsset_layers (env : Env) (cache : AssetsCache) (name address : Bytes) :
    SameLayers cache (cache.addOwnerAsset env name address) := by
  unfold addOwnerAsset
  cases env.fAssetIndex <;> exact ⟨rfl, rfl, rfl⟩

theorem removeOwnerAsset_layers (env : Env) (cache : AssetsCache) (name address : Bytes) :
    SameLayers cache (cache.removeOwnerAsset env name address) := by
  unfold removeOwnerAsset
  cases env.fAssetIndex <;> exact ⟨rfl, rfl, rfl⟩

theorem addTransferAsset_layers (env : Env) (global : AssetState) (cache : AssetsCache)
    (transfer : AssetTransfer) (address : Bytes) (out : OutPoint) :
    SameLayers cache (cache.addTransferAsset env global transfer address out) := by
  have balanced := updateBalance_layers env global cache (transfer.strName, address) fun old =>
    if isAssetNameAnOwner transfer.strName then ownerAssetAmount
    else addAmount old transfer.nAmount
  exact ⟨balanced.records, balanced.reissues, balanced.restrictions⟩

variable {address : Bytes} {out : OutPoint}

theorem removeTransfer_layers {transfer : AssetTransfer}
    (removed : cache.removeTransfer env global transfer address out = some next) :
    SameLayers cache next := by
  unfold removeTransfer at removed
  dsimp only at removed
  split at removed
  · cases removed
    exact ⟨rfl, rfl, rfl⟩
  · cases known : cache.getBestAssetAddressAmount env global (transfer.strName, address) with
    | none => simp [known] at removed
    | some best =>
      have same := getBestAssetAddressAmount_layers known
      simp only [known] at removed
      split at removed
      · cases removed
      · cases removed
        exact ⟨same.records, same.reissues, same.restrictions⟩

theorem trySpendCoin_layers {script : Bytes}
    (spent : cache.trySpendCoin env global script = some next) : SameLayers cache next := by
  unfold trySpendCoin at spent
  split at spent
  · cases spent
    exact SameLayers.refl cache
  · split at spent
    · cases spent
    · rename_i name address amount _
      split at spent
      · cases spent
      · split at spent
        · cases known : cache.getBestAssetAddressAmount env global (name, address) with
          | none =>
            simp only [known] at spent
            cases spent
            exact SameLayers.refl cache
          | some best =>
            have same := getBestAssetAddressAmount_layers known
            simp only [known] at spent
            cases spent
            exact ⟨same.records, same.reissues, same.restrictions⟩
        · cases spent
          exact SameLayers.refl cache

theorem undoAssetCoin_layers {script : Bytes}
    (undone : cache.undoAssetCoin env global script = some next) : SameLayers cache next := by
  unfold undoAssetCoin at undone
  split at undone
  · cases undone
  · rename_i name address amount _
    split at undone
    · cases undone
    · cases undone
      have same := updateBalance_layers env global cache (name, address)
        fun old => addAmount old amount
      exact ⟨same.records, same.reissues, same.restrictions⟩

theorem addNewAsset_eq_some {asset : NewAsset} {nHeight : Int} {blockHash : Uint256}
    (added : cache.addNewAsset env global asset address nHeight blockHash = some next) :
    cache.checkIfAssetExists env global asset.strName = false ∧
      next.records = cache.records.issue asset.strName ⟨asset, address, nHeight, blockHash⟩ ∧
      next.reissues = cache.reissues ∧ next.restrictions = cache.restrictions := by
  unfold addNewAsset at added
  split at added
  · cases added
  · rename_i absent
    cases added
    refine ⟨by simpa using absent, ?_⟩
    cases env.fAssetIndex <;> exact ⟨rfl, rfl, rfl⟩

theorem removeNewAsset_eq_some {asset : NewAsset}
    (removed : cache.removeNewAsset env global asset address = some next) :
    cache.checkIfAssetExists env global asset.strName = true ∧
      next.records = cache.records.withdraw asset.strName ⟨asset, address, 0, 0⟩ ∧
      next.reissues = cache.reissues ∧ next.restrictions = cache.restrictions := by
  unfold removeNewAsset at removed
  split at removed
  · rename_i present
    cases removed
    refine ⟨present, ?_⟩
    cases env.fAssetIndex <;> exact ⟨rfl, rfl, rfl⟩
  · cases removed

theorem addReissueAsset_eq_some {reissue : ReissueAsset}
    (added : cache.addReissueAsset env global reissue address out = some next) :
    ∃ prev, cache.getAssetMetaDataIfExists global reissue.strName = some prev ∧
      next.records = cache.records.reissue reissue.strName (prev.applyReissue reissue) ∧
      (∃ data, cache.getAssetMetaData global reissue.strName = some data ∧
        next.reissues = cache.reissues.make out ⟨reissue, address, data.nHeight, data.blockHash⟩) ∧
      next.restrictions = cache.restrictions := by
  unfold addReissueAsset at added
  split at added
  · cases added
  · rename_i data found
    cases added
    refine ⟨data.asset, by simp [getAssetMetaDataIfExists, found], ?_⟩
    have same := updateBalance_layers env global { cache with
      mapReissuedAssetData := cache.mapReissuedAssetData.insert reissue.strName
        (data.asset.applyReissue reissue)
      setNewReissueToRemove := cache.setNewReissueToRemove.erase out
      setNewReissueToAdd := insertNew out ⟨reissue, address, data.nHeight, data.blockHash⟩
        cache.setNewReissueToAdd } (reissue.strName, address) fun old => addAmount old reissue.nAmount
    exact ⟨same.records, ⟨data, found, same.reissues⟩, same.restrictions⟩

@[simp] theorem undoReissue_strName (asset : NewAsset) (reissue : ReissueAsset)
    (undo : Option BlockAssetUndo) : (asset.undoReissue reissue undo).strName = asset.strName := by
  cases undo <;> rfl

theorem undoVerifier_layers (cache : AssetsCache) (name : Bytes) (undo : Option BlockAssetUndo) :
    (cache.undoVerifier name undo).records = cache.records ∧
      (cache.undoVerifier name undo).reissues = cache.reissues ∧
      (cache.undoVerifier name undo).restrictions = cache.restrictions.undoVerifier name undo := by
  cases undo with
  | none => exact ⟨rfl, rfl, rfl⟩
  | some item =>
    simp only [undoVerifier, RestrictionLayer.undoVerifier]
    split <;> exact ⟨rfl, rfl, rfl⟩

theorem removeReissueAsset_eq_some {reissue : ReissueAsset} {vUndo : List (Bytes × BlockAssetUndo)}
    (removed : cache.removeReissueAsset env global reissue address out vUndo = some next) :
    ∃ prev, cache.getAssetMetaDataIfExists global reissue.strName = some prev ∧
      next.records = cache.records.reissue prev.strName
        (prev.undoReissue reissue (firstUndo vUndo reissue.strName)) ∧
      (∃ data, cache.getAssetMetaData global reissue.strName = some data ∧
        next.reissues = cache.reissues.undo out ⟨reissue, address, data.nHeight, data.blockHash⟩) ∧
      next.restrictions =
        cache.restrictions.undoVerifier prev.strName (firstUndo vUndo reissue.strName) := by
  unfold removeReissueAsset at removed
  split at removed
  · cases removed
  · rename_i data found
    refine ⟨data.asset, by simp [getAssetMetaDataIfExists, found], ?_⟩
    dsimp only at removed
    rw [undoReissue_strName] at removed
    generalize firstUndo vUndo reissue.strName = undo at removed ⊢
    have layers := undoVerifier_layers { cache with
      mapReissuedAssetData := cache.mapReissuedAssetData.insert data.asset.strName
        (data.asset.undoReissue reissue undo)
      setNewReissueToAdd := cache.setNewReissueToAdd.erase out
      setNewReissueToRemove := insertNew out ⟨reissue, address, data.nHeight, data.blockHash⟩
        cache.setNewReissueToRemove } data.asset.strName undo
    -- the balances are settled after the layers
    generalize AssetsCache.undoVerifier _ _ _ = restored at removed layers
    have same : SameLayers restored next := by
      split at removed
      · cases removed
        exact SameLayers.refl _
      · split at removed
        · cases removed
        · split at removed
          · cases removed
          · cases removed
            cases known : restored.getBestAssetAddressAmount env global (reissue.strName, address) with
            | none => exact setBalance_layers restored _ _
            | some best =>
              exact (getBestAssetAddressAmount_layers known).trans (setBalance_layers best _ _)
    exact ⟨same.records.trans layers.1, ⟨data, found, same.reissues.trans layers.2.1⟩,
      same.restrictions.trans layers.2.2⟩

theorem removeReissueAsset_isSome {reissue : ReissueAsset} (noIndex : env.fAssetIndex = false)
    (found : (cache.getAssetMetaDataIfExists global reissue.strName).isSome) (address : Bytes)
    (out : OutPoint) (vUndo : List (Bytes × BlockAssetUndo)) :
    ∃ next, cache.removeReissueAsset env global reissue address out vUndo = some next := by
  unfold removeReissueAsset
  cases data : cache.getAssetMetaData global reissue.strName with
  | none => simp [getAssetMetaDataIfExists, data] at found
  | some record => exact ⟨_, by simp [noIndex]; rfl⟩

def Recorded (global : AssetState) (name : Bytes) : Prop :=
  (global.passets.setNewAssetsToAdd.lookup name).isSome ∨ global.passetsCache.exists? name = true ∨
    (global.passetsdb.assetData.lookup name).isSome

variable {name : Bytes}

theorem checkIfAssetExists_iff (notReindexing : env.fReindex = false) :
    cache.checkIfAssetExists env global name = true ↔
      cache.setNewAssetsToRemove.lookup name = none ∧
        global.passets.setNewAssetsToRemove.lookup name = none ∧
        ((cache.setNewAssetsToAdd.lookup name).isSome ∨ Recorded global name) := by
  unfold checkIfAssetExists Recorded
  rw [notReindexing]
  cases cache.setNewAssetsToRemove.lookup name <;>
    cases global.passets.setNewAssetsToRemove.lookup name <;>
    cases cache.setNewAssetsToAdd.lookup name <;>
    cases global.passets.setNewAssetsToAdd.lookup name <;>
    cases global.passetsCache.exists? name <;> simp

theorem checkIfAssetExists_records (same : next.records = cache.records) (env : Env)
    (global : AssetState) (name : Bytes) :
    next.checkIfAssetExists env global name = cache.checkIfAssetExists env global name := by
  obtain ⟨removed, added, _⟩ := sets_of_records same
  unfold checkIfAssetExists
  rw [removed, added]

theorem getAssetMetaData_records (same : next.records = cache.records) (global : AssetState)
    (name : Bytes) : next.getAssetMetaData global name = cache.getAssetMetaData global name := by
  obtain ⟨removed, added, reissued⟩ := sets_of_records same
  unfold getAssetMetaData
  rw [reissued, removed, added]

theorem getAssetMetaDataIfExists_congr
    (reissued : next.mapReissuedAssetData.lookup name = cache.mapReissuedAssetData.lookup name)
    (removed : next.setNewAssetsToRemove.lookup name = cache.setNewAssetsToRemove.lookup name)
    (added : next.setNewAssetsToAdd.lookup name = cache.setNewAssetsToAdd.lookup name)
    (global : AssetState) :
    next.getAssetMetaDataIfExists global name = cache.getAssetMetaDataIfExists global name := by
  unfold getAssetMetaDataIfExists getAssetMetaData
  rw [reissued, removed, added]

theorem getAssetMetaDataIfExists_records (same : next.records = cache.records)
    (global : AssetState) (name : Bytes) :
    next.getAssetMetaDataIfExists global name = cache.getAssetMetaDataIfExists global name :=
  congrArg (Option.map DatabasedAssetData.asset) (getAssetMetaData_records same global name)

variable {record : NewAsset}

theorem getAssetMetaDataIfExists_reissue
    (reissued : next.records = cache.records.reissue name record) (global : AssetState)
    (other : Bytes) : next.getAssetMetaDataIfExists global other =
      if other = name then some record else cache.getAssetMetaDataIfExists global other := by
  have reissuedEq : next.mapReissuedAssetData.lookup other =
      if other = name then some record else cache.mapReissuedAssetData.lookup other := by
    rw [(sets_of_reissue reissued).2.2, lookup_insert_ite]
  by_cases same : other = name
  · rw [if_pos same] at reissuedEq ⊢
    simp [getAssetMetaDataIfExists, getAssetMetaData, reissuedEq]
  · rw [if_neg same] at reissuedEq ⊢
    exact getAssetMetaDataIfExists_congr reissuedEq
      (congrArg (fun layer => layer.removed.lookup other) reissued)
      (congrArg (fun layer => layer.added.lookup other) reissued) global

theorem getAssetVerifierStringIfExists_restrictions (same : next.restrictions = cache.restrictions)
    (global : AssetState) (name : Bytes) (fSkipTempCache : Bool) :
    next.getAssetVerifierStringIfExists global name fSkipTempCache =
      cache.getAssetVerifierStringIfExists global name fSkipTempCache := by
  have removedEq : next.setNewRestrictedVerifierToRemove = cache.setNewRestrictedVerifierToRemove :=
    congrArg RestrictionLayer.verifierRemoved same
  have addedEq : next.setNewRestrictedVerifierToAdd = cache.setNewRestrictedVerifierToAdd :=
    congrArg RestrictionLayer.verifierAdded same
  unfold getAssetVerifierStringIfExists
  rw [removedEq, addedEq]

section

variable (cache passets : AssetsCache)

theorem flushInto_removed (name : Bytes) :
    (cache.flushInto passets).setNewAssetsToRemove.lookup name =
      (if (cache.setNewAssetsToAdd.lookup name).isSome then none
        else passets.setNewAssetsToRemove.lookup name).or
        (cache.setNewAssetsToRemove.lookup name) := by
  rw [flushInto, lookup_insertNewAll, lookup_eraseAll]

theorem flushInto_added (name : Bytes) :
    (cache.flushInto passets).setNewAssetsToAdd.lookup name =
      if (cache.setNewAssetsToRemove.lookup name).isSome then none
      else (passets.setNewAssetsToAdd.lookup name).or (cache.setNewAssetsToAdd.lookup name) := by
  rw [flushInto, lookup_eraseAll, lookup_insertNewAll]

theorem flushInto_reissued (name : Bytes) :
    (cache.flushInto passets).mapReissuedAssetData.lookup name =
      (cache.mapReissuedAssetData.lookup name).or (passets.mapReissuedAssetData.lookup name) := by
  rw [flushInto, lookup_putAll]

theorem flushInto_reissueRemoved (out : OutPoint) :
    (cache.flushInto passets).setNewReissueToRemove.lookup out =
      (if (cache.setNewReissueToAdd.lookup out).isSome then none
        else passets.setNewReissueToRemove.lookup out).or
        (cache.setNewReissueToRemove.lookup out) := by
  rw [flushInto, lookup_insertNewAll, lookup_eraseAll]

theorem flushInto_reissueAdded (out : OutPoint) :
    (cache.flushInto passets).setNewReissueToAdd.lookup out =
      if (cache.setNewReissueToRemove.lookup out).isSome then none
      else (passets.setNewReissueToAdd.lookup out).or (cache.setNewReissueToAdd.lookup out) := by
  rw [flushInto, lookup_eraseAll, lookup_insertNewAll]

end

structure Named (cache : AssetsCache) : Prop where
  added : ∀ name entry, cache.setNewAssetsToAdd.lookup name = some entry → entry.asset.strName = name
  reissued : ∀ name record, cache.mapReissuedAssetData.lookup name = some record →
    record.strName = name

/-- The records of every global layer are filed under their own names. -/
structure NamedState (state : AssetState) : Prop where
  passets : state.passets.Named
  cached : ∀ name data, state.passetsCache.get? name = some data → data.asset.strName = name
  stored : ∀ name data, state.passetsdb.assetData.lookup name = some data → data.asset.strName = name

theorem Named.empty : AssetsCache.empty.Named where
  added _ _ found := by cases found
  reissued _ _ found := by cases found

theorem Named.of_records (named : cache.Named) (same : next.records = cache.records) :
    next.Named where
  added name entry found := named.added name entry
    ((congrArg (fun layer => layer.added.lookup name) same).symm.trans found)
  reissued name record found := named.reissued name record
    ((congrArg (fun layer => layer.reissued.lookup name) same).symm.trans found)

theorem Named.reissue (named : cache.Named)
    (ownName : record.strName = name) (same : next.records = cache.records.reissue name record) :
    next.Named where
  added other entry found := named.added other entry
    ((congrArg (fun layer => layer.added.lookup other) same).symm.trans found)
  reissued other found record' := by
    rw [(sets_of_reissue same).2.2, lookup_insert_ite] at record'
    split at record'
    · rename_i sameName
      cases record'
      exact ownName.trans sameName.symm
    · exact named.reissued other found record'

theorem Named.metadata (named : cache.Named) (stored : NamedState global)
 (found : cache.getAssetMetaDataIfExists global name = some record) : record.strName = name := by
  unfold getAssetMetaDataIfExists getAssetMetaData at found
  split at found
  · rename_i reissued
    cases found
    exact named.reissued name _ reissued
  split at found
  · rename_i reissued
    cases found
    exact stored.passets.reissued name _ reissued
  split at found
  · cases found
  split at found
  · cases found
  split at found
  · rename_i added
    cases found
    exact named.added name _ added
  split at found
  · rename_i added
    cases found
    exact stored.passets.added name _ added
  split at found
  · rename_i cached
    cases found
    exact stored.cached name _ cached
  · obtain ⟨data, inDatabase, rfl⟩ := Option.map_eq_some_iff.mp found
    exact stored.stored name data inDatabase

theorem Named.flushInto {passets : AssetsCache} (named : cache.Named) (global : passets.Named) :
    (cache.flushInto passets).Named where
  added name entry found := by
    rw [flushInto_added] at found
    split at found
    · cases found
    · rcases Option.or_eq_some_iff.mp found with earlier | ⟨_, now⟩
      · exact global.added name entry earlier
      · exact named.added name entry now
  reissued name record found := by
    rw [flushInto_reissued] at found
    rcases Option.or_eq_some_iff.mp found with now | ⟨_, earlier⟩
    · exact named.reissued name record now
    · exact global.reissued name record earlier

end AssetsCache

end Phicoin
