import Phicoin.Lib.Lru
import Phicoin.Transaction

/-! # The asset caches

`CAssetsCache` holds what blocks changed and no database has yet: for each kind
of fact a set of additions and a set of removals (undone additions).  Two of
them are consulted by every lookup, the cache of the block being processed and
the global one (`passets`), then a bounded cache of database entries, then the
databases.  This module has the data and the lookups. -/

namespace Phicoin

/-- `CAssetCacheNewAsset`, an element of a set ordered by the asset's name. -/
structure CachedNewAsset where
  asset : NewAsset
  address : Bytes
  blockHeight : Int
  blockHash : Uint256

/-- `CAssetCacheReissueAsset`, ordered by the outpoint. -/
structure CachedReissue where
  reissue : ReissueAsset
  address : Bytes
  blockHeight : Int
  blockHash : Uint256

inductive QualifierType where
  | removeQualifier
  | addQualifier
deriving DecidableEq

inductive RestrictedType where
  | unfreezeAddress
  | freezeAddress
  | globalUnfreeze
  | globalFreeze
deriving DecidableEq

/-- `CAssetCacheRestrictedVerifiers`, ordered by the asset's name. -/
structure CachedVerifier where
  verifier : Bytes
  fUndoingReissue : Bool
deriving DecidableEq

/-- `CAssetsCache`.  Each set is a map from the key its elements are ordered by. -/
structure AssetsCache where
  mapAssetsAddressAmount : KeyedMap (Bytes × Bytes) Int
  mapReissuedAssetData : KeyedMap Bytes NewAsset
  vUndoAssetAmount : List (Bytes × Bytes × Int)
  vSpentAssets : List (Bytes × Bytes × Int)
  setNewAssetsToRemove : KeyedMap Bytes CachedNewAsset
  setNewAssetsToAdd : KeyedMap Bytes CachedNewAsset
  setNewReissueToRemove : KeyedMap OutPoint CachedReissue
  setNewReissueToAdd : KeyedMap OutPoint CachedReissue
  setNewOwnerAssetsToRemove : KeyedMap Bytes Bytes
  setNewOwnerAssetsToAdd : KeyedMap Bytes Bytes
  setNewTransferAssetsToRemove : KeyedMap OutPoint (AssetTransfer × Bytes)
  setNewTransferAssetsToAdd : KeyedMap OutPoint (AssetTransfer × Bytes)
  setNewQualifierAddressToRemove : KeyedMap (Bytes × Bytes) QualifierType
  setNewQualifierAddressToAdd : KeyedMap (Bytes × Bytes) QualifierType
  setNewRestrictedAddressToRemove : KeyedMap (Bytes × Bytes) RestrictedType
  setNewRestrictedAddressToAdd : KeyedMap (Bytes × Bytes) RestrictedType
  setNewRestrictedGlobalToRemove : KeyedMap Bytes RestrictedType
  setNewRestrictedGlobalToAdd : KeyedMap Bytes RestrictedType
  setNewRestrictedVerifierToRemove : KeyedMap Bytes CachedVerifier
  setNewRestrictedVerifierToAdd : KeyedMap Bytes CachedVerifier
  mapRootQualifierAddressesRemove : KeyedMap (Bytes × Bytes) (List Bytes)
  mapRootQualifierAddressesAdd : KeyedMap (Bytes × Bytes) (List Bytes)

/-- A fresh cache; also what `ClearDirtyCache` leaves. -/
def AssetsCache.empty : AssetsCache where
  mapAssetsAddressAmount := ∅
  mapReissuedAssetData := ∅
  vUndoAssetAmount := []
  vSpentAssets := []
  setNewAssetsToRemove := ∅
  setNewAssetsToAdd := ∅
  setNewReissueToRemove := ∅
  setNewReissueToAdd := ∅
  setNewOwnerAssetsToRemove := ∅
  setNewOwnerAssetsToAdd := ∅
  setNewTransferAssetsToRemove := ∅
  setNewTransferAssetsToAdd := ∅
  setNewQualifierAddressToRemove := ∅
  setNewQualifierAddressToAdd := ∅
  setNewRestrictedAddressToRemove := ∅
  setNewRestrictedAddressToAdd := ∅
  setNewRestrictedGlobalToRemove := ∅
  setNewRestrictedGlobalToAdd := ∅
  setNewRestrictedVerifierToRemove := ∅
  setNewRestrictedVerifierToAdd := ∅
  mapRootQualifierAddressesRemove := ∅
  mapRootQualifierAddressesAdd := ∅

structure DatabasedAssetData where
  asset : NewAsset
  nHeight : Int
  blockHash : Uint256

structure BlockAssetUndo where
  fChangedIPFS : Bool
  fChangedUnits : Bool
  strIPFS : Bytes
  nUnits : Int
  fChangedVerifierString : Bool
  verifierString : Bytes
deriving DecidableEq

structure AssetsDB where
  assetData : KeyedMap Bytes DatabasedAssetData
  addressQuantity : KeyedMap (Bytes × Bytes) Int
  blockUndo : KeyedMap Uint256 (List (Bytes × BlockAssetUndo))

/-- `CRestrictedDB`; the tags and freezes are stored under (name, address). -/
structure RestrictedDB where
  verifier : KeyedMap Bytes Bytes
  addressQualifier : KeyedMap (Bytes × Bytes) Unit
  restrictedAddress : KeyedMap (Bytes × Bytes) Unit
  globalRestriction : KeyedMap Bytes Unit

/-- The global asset state: `passets`, the bounded caches of database entries
and the two databases. -/
structure AssetState where
  passets : AssetsCache
  passetsCache : LruCache Bytes DatabasedAssetData
  passetsVerifierCache : LruCache Bytes Bytes
  passetsQualifierCache : LruCache (Bytes × Bytes) Unit
  passetsRestrictionCache : LruCache (Bytes × Bytes) Unit
  passetsGlobalRestrictionCache : LruCache Bytes Unit
  passetsdb : AssetsDB
  prestricteddb : RestrictedDB

def maxCacheAssetsSize : Nat := 2500

def AssetState.initial : AssetState where
  passets := AssetsCache.empty
  passetsCache := ⟨maxCacheAssetsSize, ∅⟩
  passetsVerifierCache := ⟨maxCacheAssetsSize, ∅⟩
  passetsQualifierCache := ⟨maxCacheAssetsSize, ∅⟩
  passetsRestrictionCache := ⟨maxCacheAssetsSize, ∅⟩
  passetsGlobalRestrictionCache := ⟨maxCacheAssetsSize, ∅⟩
  passetsdb := ⟨∅, ∅, ∅⟩
  prestricteddb := ⟨∅, ∅, ∅, ∅⟩

/-! ## Lookups

The lookups leave the state as it is.  What the source also does on a database
hit, storing the entry in the bounded cache, is an operation of its own
(`AssetState.refresh…` below). -/

namespace AssetsCache

variable (env : Env) (global : AssetState) (cache : AssetsCache)
  (name : Bytes)

/-- What the dirty caches and the databases say of a name: removed, or recorded. -/
def checkIfAssetExists : Bool :=
  if env.fReindex then true
  else if (cache.setNewAssetsToRemove.lookup name).isSome then false
  else if (global.passets.setNewAssetsToRemove.lookup name).isSome then false
  else if (cache.setNewAssetsToAdd.lookup name).isSome then true
  else if (global.passets.setNewAssetsToAdd.lookup name).isSome then true
  else if global.passetsCache.exists? name then true
  else (global.passetsdb.assetData.lookup name).isSome

/-- `GetAssetMetaDataIfExists` with its height and block hash; a record found
among the reissued ones leaves those as the caller had them. -/
def getAssetMetaData : Option DatabasedAssetData :=
  match cache.mapReissuedAssetData.lookup name with
  | some asset => some ⟨asset, 0, 0⟩
  | none =>
  match global.passets.mapReissuedAssetData.lookup name with
  | some asset => some ⟨asset, 0, 0⟩
  | none =>
  if (cache.setNewAssetsToRemove.lookup name).isSome then none
  else if (global.passets.setNewAssetsToRemove.lookup name).isSome then none
  else match cache.setNewAssetsToAdd.lookup name with
  | some entry => some ⟨entry.asset, entry.blockHeight, entry.blockHash⟩
  | none =>
  match global.passets.setNewAssetsToAdd.lookup name with
  | some entry => some ⟨entry.asset, entry.blockHeight, entry.blockHash⟩
  | none =>
  match global.passetsCache.get? name with
  | some data => some data
  | none => global.passetsdb.assetData.lookup name

def getAssetMetaDataIfExists : Option NewAsset :=
  (cache.getAssetMetaData global name).map DatabasedAssetData.asset

def getAssetVerifierStringIfExists (fSkipTempCache : Bool) : Option Bytes :=
  let removed := fun (entry : CachedVerifier) =>
    if entry.fUndoingReissue then some entry.verifier else none
  match if fSkipTempCache then none else cache.setNewRestrictedVerifierToRemove.lookup name with
  | some entry => removed entry
  | none =>
  match global.passets.setNewRestrictedVerifierToRemove.lookup name with
  | some entry => removed entry
  | none =>
  match if fSkipTempCache then none else cache.setNewRestrictedVerifierToAdd.lookup name with
  | some entry => some entry.verifier
  | none =>
  match global.passets.setNewRestrictedVerifierToAdd.lookup name with
  | some entry => some entry.verifier
  | none =>
  match global.passetsVerifierCache.get? name with
  | some verifier => some verifier
  | none => global.prestricteddb.verifier.lookup name

/-- `CRestrictedDB::CheckForAddressRootQualifier`: the tag itself or one below it.  The
scan starts at the key of the tag, and the keys are ordered as they are serialized,
with the length of the name in front of it. -/
def checkForAddressRootQualifier (db : RestrictedDB) (address qualifier : Bytes) : Bool :=
  db.addressQualifier.entries.any fun entry =>
    entry.1.2 = address &&
      ByteReader.writeString qualifier ≤ ByteReader.writeString entry.1.1 &&
      (entry.1.1 = qualifier || (qualifier ++ [subNameDelimiter]).isPrefixOf entry.1.1)

def hasRootQualifier (roots : KeyedMap (Bytes × Bytes) (List Bytes)) (name address : Bytes) : Bool :=
  match roots.lookup (name, address) with
  | some names => !names.isEmpty
  | none => false

def checkForAddressQualifier (name address : Bytes) (fSkipTempCache : Bool) : Bool :=
  let key := (name, address)
  match if fSkipTempCache then none else cache.setNewQualifierAddressToRemove.lookup key with
  | some type => type = .removeQualifier
  | none =>
  match global.passets.setNewQualifierAddressToRemove.lookup key with
  | some type => type = .removeQualifier
  | none =>
  match if fSkipTempCache then none else cache.setNewQualifierAddressToAdd.lookup key with
  | some type => type = .addQualifier
  | none =>
  match global.passets.setNewQualifierAddressToAdd.lookup key with
  | some .addQualifier => true
  | some .removeQualifier =>
    hasRootQualifier global.passets.mapRootQualifierAddressesAdd name address
  | none =>
    (!fSkipTempCache && hasRootQualifier cache.mapRootQualifierAddressesAdd name address) ||
      hasRootQualifier global.passets.mapRootQualifierAddressesAdd name address ||
      global.passetsQualifierCache.exists? key ||
      (global.prestricteddb.addressQualifier.lookup key).isSome ||
      checkForAddressRootQualifier global.prestricteddb address name

def checkForAddressRestriction (name address : Bytes) (fSkipTempCache : Bool) : Bool :=
  let key := (name, address)
  match if fSkipTempCache then none else cache.setNewRestrictedAddressToRemove.lookup key with
  | some type => type = .unfreezeAddress
  | none =>
  match global.passets.setNewRestrictedAddressToRemove.lookup key with
  | some type => type = .unfreezeAddress
  | none =>
  match if fSkipTempCache then none else cache.setNewRestrictedAddressToAdd.lookup key with
  | some type => type = .freezeAddress
  | none =>
  match global.passets.setNewRestrictedAddressToAdd.lookup key with
  | some type => type = .freezeAddress
  | none =>
    global.passetsRestrictionCache.exists? key ||
      (global.prestricteddb.restrictedAddress.lookup key).isSome

def checkForGlobalRestriction (fSkipTempCache : Bool) : Bool :=
  match if fSkipTempCache then none else cache.setNewRestrictedGlobalToRemove.lookup name with
  | some type => type = .globalUnfreeze
  | none =>
  match global.passets.setNewRestrictedGlobalToRemove.lookup name with
  | some type => type = .globalUnfreeze
  | none =>
  match if fSkipTempCache then none else cache.setNewRestrictedGlobalToAdd.lookup name with
  | some type => type = .globalFreeze
  | none =>
  match global.passets.setNewRestrictedGlobalToAdd.lookup name with
  | some type => type = .globalFreeze
  | none =>
    global.passetsGlobalRestrictionCache.exists? name ||
      (global.prestricteddb.globalRestriction.lookup name).isSome

end AssetsCache

/-! ## Refreshing the bounded caches

A lookup that reaches a database stores what it found. -/

namespace AssetState

variable (state : AssetState)

def refreshAsset (name : Bytes) : AssetState :=
  match state.passetsdb.assetData.lookup name with
  | some data => { state with passetsCache := state.passetsCache.put data.asset.strName data }
  | none => state

def refreshVerifier (name : Bytes) : AssetState :=
  match state.prestricteddb.verifier.lookup name with
  | some verifier =>
    { state with passetsVerifierCache := state.passetsVerifierCache.put name verifier }
  | none => state

def refreshQualifier (key : Bytes × Bytes) : AssetState :=
  match state.prestricteddb.addressQualifier.lookup key with
  | some _ => { state with passetsQualifierCache := state.passetsQualifierCache.put key () }
  | none => state

def refreshRestriction (key : Bytes × Bytes) : AssetState :=
  match state.prestricteddb.restrictedAddress.lookup key with
  | some _ => { state with passetsRestrictionCache := state.passetsRestrictionCache.put key () }
  | none => state

def refreshGlobalRestriction (name : Bytes) : AssetState :=
  match state.prestricteddb.globalRestriction.lookup name with
  | some _ =>
    { state with passetsGlobalRestrictionCache := state.passetsGlobalRestrictionCache.put name () }
  | none => state

end AssetState

end Phicoin
