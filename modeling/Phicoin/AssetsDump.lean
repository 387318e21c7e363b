import Phicoin.AssetsCacheOps

/-! # Writing the global cache to the databases

`DumpCacheToDatabase` as a sequence of loops, each over one set of the global
cache.  Writes to the databases succeed here. -/

namespace Phicoin.AssetState

variable (env : Env)
  (state : AssetState) (name : Bytes)

def eraseAssetData : AssetState :=
  { state with
    passetsdb := { state.passetsdb with assetData := state.passetsdb.assetData.erase name } }

/-- `WriteAssetData`, under the name of the record. -/
def writeAssetData (data : DatabasedAssetData) : AssetState :=
  { state with
    passetsdb := { state.passetsdb with assetData := state.passetsdb.assetData.insert name data } }

def cacheAsset (data : DatabasedAssetData) : AssetState :=
  { state with passetsCache := state.passetsCache.put name data }

def uncacheAsset : AssetState :=
  { state with passetsCache := state.passetsCache.erase name }

def writeQuantity (pair : Bytes × Bytes) (amount : Int) : AssetState :=
  if env.fAssetIndex then { state with
    passetsdb := { state.passetsdb with
      addressQuantity := state.passetsdb.addressQuantity.insert pair amount } }
  else state

def eraseQuantity (pair : Bytes × Bytes) : AssetState :=
  if env.fAssetIndex then { state with
    passetsdb := { state.passetsdb with
      addressQuantity := state.passetsdb.addressQuantity.erase pair } }
  else state

variable (cache : AssetsCache)

/-- The cached amount of a pair written, when there is one that passes the test. -/
def writeCached (test : Int → Bool) (state : AssetState)
    (pair : Bytes × Bytes) : AssetState :=
  match cache.mapAssetsAddressAmount.lookup pair with
  | some amount => if test amount then state.writeQuantity env pair amount else state
  | none => state

/-- The cached amount of a pair written, or the pair erased when it is zero. -/
def writeOrErase (state : AssetState) (pair : Bytes × Bytes) : AssetState :=
  match cache.mapAssetsAddressAmount.lookup pair with
  | some amount =>
    if amount = 0 then state.eraseQuantity env pair else state.writeQuantity env pair amount
  | none => state

def dumpRemovedAsset (entry : CachedNewAsset) : AssetState :=
  let erased := (state.uncacheAsset name).eraseAssetData name
  { erased with
    prestricteddb := { erased.prestricteddb with
      verifier := erased.prestricteddb.verifier.erase name } }.eraseQuantity env (name, entry.address)

def dumpAddedAsset (entry : CachedNewAsset) : AssetState :=
  let data : DatabasedAssetData := ⟨entry.asset, entry.blockHeight, entry.blockHash⟩
  ((state.cacheAsset name data).writeAssetData name data).writeQuantity env (name, entry.address)
    entry.asset.nAmount

def dumpAddedReissue (state : AssetState) (entry : CachedReissue) :
    AssetState :=
  match cache.mapReissuedAssetData.lookup entry.reissue.strName with
  | none => state
  | some asset =>
    writeCached env cache (· > 0)
      ((state.writeAssetData asset.strName
        ⟨asset, entry.blockHeight, entry.blockHash⟩).uncacheAsset entry.reissue.strName)
      (entry.reissue.strName, entry.address)

/-- An undone reissue of an asset that is itself being removed is skipped. -/
def dumpRemovedReissue (state : AssetState) (entry : CachedReissue) :
    AssetState :=
  if (cache.setNewAssetsToRemove.lookup entry.reissue.strName).isSome then state
  else match cache.mapReissuedAssetData.lookup entry.reissue.strName with
  | none => state
  | some asset =>
    (writeOrErase env cache
      (state.writeAssetData asset.strName ⟨asset, entry.blockHeight, entry.blockHash⟩)
      (entry.reissue.strName, entry.address)).uncacheAsset entry.reissue.strName

def dumpVerifier (verifier : Option Bytes) : AssetState :=
  { state with
    prestricteddb := { state.prestricteddb with
      verifier := match verifier with
        | some text => state.prestricteddb.verifier.insert name text
        | none => state.prestricteddb.verifier.erase name }
    passetsVerifierCache := state.passetsVerifierCache.erase name }

def dumpQualifier (key : Bytes × Bytes) (assigned : Bool) : AssetState :=
  if assigned then { state with
    passetsQualifierCache := state.passetsQualifierCache.put key ()
    prestricteddb := { state.prestricteddb with
      addressQualifier := state.prestricteddb.addressQualifier.insert key () } }
  else { state with
    passetsQualifierCache := state.passetsQualifierCache.erase key
    prestricteddb := { state.prestricteddb with
      addressQualifier := state.prestricteddb.addressQualifier.erase key } }

def dumpRestriction (key : Bytes × Bytes) (frozen : Bool) : AssetState :=
  if frozen then { state with
    passetsRestrictionCache := state.passetsRestrictionCache.put key ()
    prestricteddb := { state.prestricteddb with
      restrictedAddress := state.prestricteddb.restrictedAddress.insert key () } }
  else { state with
    passetsRestrictionCache := state.passetsRestrictionCache.erase key
    prestricteddb := { state.prestricteddb with
      restrictedAddress := state.prestricteddb.restrictedAddress.erase key } }

def dumpGlobalRestriction (frozen : Bool) : AssetState :=
  if frozen then { state with
    passetsGlobalRestrictionCache := state.passetsGlobalRestrictionCache.put name ()
    prestricteddb := { state.prestricteddb with
      globalRestriction := state.prestricteddb.globalRestriction.insert name () } }
  else { state with
    passetsGlobalRestrictionCache := state.passetsGlobalRestrictionCache.erase name
    prestricteddb := { state.prestricteddb with
      globalRestriction := state.prestricteddb.globalRestriction.erase name } }

def forEach {K V : Type} (items : KeyedMap K V) (body : AssetState → K → V → AssetState)
    (state : AssetState) : AssetState :=
  items.entries.foldl (fun acc entry => body acc entry.1 entry.2) state

def dumpAssets (state : AssetState) : AssetState :=
  let state := forEach cache.setNewAssetsToRemove (dumpRemovedAsset env) state
  let state := forEach cache.setNewAssetsToAdd (dumpAddedAsset env) state
  let state := forEach cache.setNewOwnerAssetsToRemove
    (fun acc name address => acc.eraseQuantity env (name, address)) state
  let state := forEach cache.setNewOwnerAssetsToAdd
    (fun acc name address => writeCached env cache (· > 0) acc (name, address)) state
  let state := forEach cache.setNewTransferAssetsToRemove
    (fun acc _ entry => writeOrErase env cache acc (entry.1.strName, entry.2)) state
  let state := forEach cache.setNewTransferAssetsToAdd
    (fun acc _ entry => writeCached env cache (fun _ => true) acc (entry.1.strName, entry.2)) state
  let state := forEach cache.setNewReissueToAdd
    (fun acc _ entry => dumpAddedReissue env cache acc entry) state
  forEach cache.setNewReissueToRemove
    (fun acc _ entry => dumpRemovedReissue env cache acc entry) state

def dumpRestrictions (state : AssetState) : AssetState :=
  let state := forEach cache.setNewRestrictedVerifierToAdd
    (fun acc name entry => acc.dumpVerifier name (some entry.verifier)) state
  let state := forEach cache.setNewRestrictedVerifierToRemove
    (fun acc name entry =>
      acc.dumpVerifier name (if entry.fUndoingReissue then some entry.verifier else none)) state
  let state := forEach cache.setNewQualifierAddressToAdd
    (fun acc key type => acc.dumpQualifier key (type = .addQualifier)) state
  let state := forEach cache.setNewQualifierAddressToRemove
    (fun acc key type => acc.dumpQualifier key (type = .removeQualifier)) state
  let state := forEach cache.setNewRestrictedAddressToAdd
    (fun acc key type => acc.dumpRestriction key (type = .freezeAddress)) state
  let state := forEach cache.setNewRestrictedAddressToRemove
    (fun acc key type => acc.dumpRestriction key (type = .unfreezeAddress)) state
  let state := forEach cache.setNewRestrictedGlobalToAdd
    (fun acc name type => acc.dumpGlobalRestriction name (type = .globalFreeze)) state
  forEach cache.setNewRestrictedGlobalToRemove
    (fun acc name type => acc.dumpGlobalRestriction name (type = .globalUnfreeze)) state

def dumpSpends (state : AssetState) : AssetState :=
  let state := cache.vUndoAssetAmount.foldl
    (fun acc entry => writeCached env cache (fun _ => true) acc (entry.1, entry.2.1)) state
  cache.vSpentAssets.foldl
    (fun acc entry => writeOrErase env cache acc (entry.1, entry.2.1)) state

/-- `passets->DumpCacheToDatabase()` -/
def dumpCacheToDatabase : AssetState :=
  let written := dumpSpends env state.passets
    (dumpRestrictions state.passets (dumpAssets env state.passets state))
  { written with passets := AssetsCache.empty }

end Phicoin.AssetState
