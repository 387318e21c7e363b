import Phicoin.AssetsCache

/-! # Changing the asset caches

What connecting a block adds to a cache, what disconnecting one takes back,
`Flush` of a block's cache into the global one, and `DumpCacheToDatabase`. -/

namespace Phicoin

open KeyedMap TwosComplement

/-- `std::set::insert` and `erase` of a set of names. -/
def setInsert (name : Bytes) (names : List Bytes) : List Bytes :=
  if names.contains name then names else name :: names

def setErase (name : Bytes) (names : List Bytes) : List Bytes := names.filter (· ≠ name)

namespace AssetsCache

variable (env : Env) (global : AssetState) (cache : AssetsCache)
  (pair : Bytes × Bytes)

/-- `GetBestAssetAddressAmount`: the cache with the best known amount of the
pair in it, none when no layer knows the pair. -/
def getBestAssetAddressAmount : Option AssetsCache :=
  if !env.fAssetIndex then none
  else if (cache.mapAssetsAddressAmount.lookup pair).isSome then some cache
  else match global.passets.mapAssetsAddressAmount.lookup pair with
  | some amount =>
    some { cache with mapAssetsAddressAmount := cache.mapAssetsAddressAmount.insert pair amount }
  | none =>
    match global.passetsdb.addressQuantity.lookup pair with
    | some amount =>
      some { cache with
        mapAssetsAddressAmount := insertNew pair amount cache.mapAssetsAddressAmount }
    | none => none

def setBalance (amount : Int) : AssetsCache :=
  { cache with mapAssetsAddressAmount := cache.mapAssetsAddressAmount.insert pair amount }

def balance : Int := (cache.mapAssetsAddressAmount.lookup pair).getD 0

def updateBalance (change : Int → Int) : AssetsCache :=
  if env.fAssetIndex then
    let known := (cache.getBestAssetAddressAmount env global pair).getD cache
    known.setBalance pair (change (known.balance pair))
  else cache

def addToAssetBalance (name address : Bytes) (amount : Int) : AssetsCache :=
  cache.updateBalance env global (name, address) fun old =>
    if isAssetNameAnOwner name then ownerAssetAmount else addAmount old amount

/-- `AddNewAsset`, none when the asset exists. -/
def addNewAsset (asset : NewAsset) (address : Bytes) (nHeight : Int) (blockHash : Uint256) :
    Option AssetsCache :=
  if cache.checkIfAssetExists env global asset.strName then none
  else
    let added := { cache with
      setNewAssetsToRemove := cache.setNewAssetsToRemove.erase asset.strName
      setNewAssetsToAdd :=
        insertNew asset.strName ⟨asset, address, nHeight, blockHash⟩ cache.setNewAssetsToAdd }
    some (if env.fAssetIndex then added.setBalance (asset.strName, address) asset.nAmount else added)

/-- `RemoveNewAsset`, none when the asset does not exist. -/
def removeNewAsset (asset : NewAsset) (address : Bytes) : Option AssetsCache :=
  if cache.checkIfAssetExists env global asset.strName then
    let removed := { cache with
      setNewAssetsToAdd := cache.setNewAssetsToAdd.erase asset.strName
      setNewAssetsToRemove :=
        insertNew asset.strName ⟨asset, address, 0, 0⟩ cache.setNewAssetsToRemove }
    some (if env.fAssetIndex then removed.setBalance (asset.strName, address) 0 else removed)
  else none

def addOwnerAsset (name address : Bytes) : AssetsCache :=
  let added := { cache with
    setNewOwnerAssetsToRemove := cache.setNewOwnerAssetsToRemove.erase name
    setNewOwnerAssetsToAdd := insertNew name address cache.setNewOwnerAssetsToAdd }
  if env.fAssetIndex then added.setBalance (name, address) ownerAssetAmount else added

def removeOwnerAsset (name address : Bytes) : AssetsCache :=
  let removed := { cache with
    setNewOwnerAssetsToAdd := cache.setNewOwnerAssetsToAdd.erase name
    setNewOwnerAssetsToRemove := insertNew name address cache.setNewOwnerAssetsToRemove }
  if env.fAssetIndex then removed.setBalance (name, address) 0 else removed

/-! ## Verifier strings

Both operations keep an entry that is already in the set they insert into. -/

def addRestrictedVerifier (name verifier : Bytes) : AssetsCache :=
  { cache with
    setNewRestrictedVerifierToRemove := cache.setNewRestrictedVerifierToRemove.erase name
    setNewRestrictedVerifierToAdd :=
      insertNew name ⟨verifier, false⟩ cache.setNewRestrictedVerifierToAdd }

def removeRestrictedVerifier (name verifier : Bytes) (fUndoingReissue : Bool) : AssetsCache :=
  { cache with
    setNewRestrictedVerifierToAdd := cache.setNewRestrictedVerifierToAdd.erase name
    setNewRestrictedVerifierToRemove :=
      insertNew name ⟨verifier, fUndoingReissue⟩ cache.setNewRestrictedVerifierToRemove }

end AssetsCache

def NewAsset.applyReissue (asset : NewAsset) (reissue : ReissueAsset) : NewAsset :=
  { asset with
    nAmount := addAmount asset.nAmount reissue.nAmount
    nReissuable := reissue.nReissuable
    units := if reissue.nUnits ≠ -1 then reissue.nUnits else asset.units
    nHasIPFS := if reissue.strIPFSHash ≠ [] then 1 else asset.nHasIPFS
    strIPFSHash := if reissue.strIPFSHash ≠ [] then reissue.strIPFSHash else asset.strIPFSHash }

def NewAsset.applyUndo (asset : NewAsset) (undo : BlockAssetUndo) : NewAsset :=
  let strIPFSHash := if undo.fChangedIPFS then undo.strIPFS else asset.strIPFSHash
  { asset with
    strIPFSHash := strIPFSHash
    units := if undo.fChangedUnits then undo.nUnits else asset.units
    nHasIPFS := if strIPFSHash = [] then 0 else asset.nHasIPFS }

def firstUndo (vUndo : List (Bytes × BlockAssetUndo)) (name : Bytes) : Option BlockAssetUndo :=
  (vUndo.find? fun item => item.1 = name).map Prod.snd

/-- The record `RemoveReissueAsset` rebuilds: the reissued amount taken off,
reissuable again, and what the first undo item of the name says. -/
def NewAsset.undoReissue (asset : NewAsset) (reissue : ReissueAsset)
    (undo : Option BlockAssetUndo) : NewAsset :=
  let reduced := { asset with
    nAmount := wrap 64 (asset.nAmount - reissue.nAmount)
    nReissuable := 1 }
  match undo with
  | some item => reduced.applyUndo item
  | none => reduced

namespace AssetsCache

variable (env : Env) (global : AssetState) (cache : AssetsCache)

/-- `AddReissueAsset`, none when the asset has no metadata. -/
def addReissueAsset (reissue : ReissueAsset) (address : Bytes) (out : OutPoint) :
    Option AssetsCache :=
  match cache.getAssetMetaData global reissue.strName with
  | none => none
  | some data =>
    let added := { cache with
      mapReissuedAssetData :=
        cache.mapReissuedAssetData.insert reissue.strName (data.asset.applyReissue reissue)
      setNewReissueToRemove := cache.setNewReissueToRemove.erase out
      setNewReissueToAdd :=
        insertNew out ⟨reissue, address, data.nHeight, data.blockHash⟩ cache.setNewReissueToAdd }
    some (added.updateBalance env global (reissue.strName, address)
      fun old => addAmount old reissue.nAmount)

def undoVerifier (name : Bytes) : Option BlockAssetUndo → AssetsCache
  | some item =>
    if item.fChangedVerifierString then
      cache.removeRestrictedVerifier name item.verifierString true
    else cache
  | none => cache

/-- `RemoveReissueAsset`, none where it reports an error. -/
def removeReissueAsset (reissue : ReissueAsset) (address : Bytes) (out : OutPoint)
    (vUndo : List (Bytes × BlockAssetUndo)) : Option AssetsCache :=
  match cache.getAssetMetaData global reissue.strName with
  | none => none
  | some data =>
    let undo := firstUndo vUndo reissue.strName
    let asset := data.asset.undoReissue reissue undo
    let removed := { cache with
      mapReissuedAssetData := cache.mapReissuedAssetData.insert asset.strName asset
      setNewReissueToAdd := cache.setNewReissueToAdd.erase out
      setNewReissueToRemove :=
        insertNew out ⟨reissue, address, data.nHeight, data.blockHash⟩
          cache.setNewReissueToRemove }
    let restored := removed.undoVerifier asset.strName undo
    if !env.fAssetIndex then some restored
    else
      let pair := (reissue.strName, address)
      let known := restored.getBestAssetAddressAmount env global pair
      if known.isNone && reissue.nAmount ≠ 0 then none
      else
        let balanced := (known.getD restored).setBalance pair
          (wrap 64 ((known.getD restored).balance pair - reissue.nAmount))
        if balanced.balance pair < 0 then none else some balanced

def addTransferAsset (transfer : AssetTransfer) (address : Bytes) (out : OutPoint) : AssetsCache :=
  let balanced := cache.addToAssetBalance env global transfer.strName address transfer.nAmount
  { balanced with
    setNewTransferAssetsToRemove := balanced.setNewTransferAssetsToRemove.erase out
    setNewTransferAssetsToAdd :=
      insertNew out (transfer, address) balanced.setNewTransferAssetsToAdd }

/-- `RemoveTransfer`, none where `UndoTransfer` reports an error. -/
def removeTransfer (transfer : AssetTransfer) (address : Bytes) (out : OutPoint) :
    Option AssetsCache :=
  let remove := fun (c : AssetsCache) => { c with
    setNewTransferAssetsToAdd := c.setNewTransferAssetsToAdd.erase out
    setNewTransferAssetsToRemove :=
      insertNew out (transfer, address) c.setNewTransferAssetsToRemove }
  if !env.fAssetIndex then some (remove cache)
  else
    let pair := (transfer.strName, address)
    match cache.getBestAssetAddressAmount env global pair with
    | none => none
    | some known =>
      if known.balance pair < transfer.nAmount then none
      else some (remove
        (known.setBalance pair (wrap 64 (known.balance pair - transfer.nAmount))))

/-- Name, holder and amount of an asset output, as the spend functions read them. -/
def assetOfScript (script : Bytes) : Option (Bytes × Bytes × Int) := do
  let info ← isAssetScript script
  match info.nType, info.fIsOwner with
  | .newAsset, false =>
    let (asset, address) ← assetFromScript env script
    return (asset.strName, address, asset.nAmount)
  | .newAsset, true =>
    let (name, address) ← ownerAssetFromScript env script
    return (name, address, ownerAssetAmount)
  | .transferAsset, _ =>
    let (transfer, address) ← transferAssetFromScript env script
    return (transfer.strName, address, transfer.nAmount)
  | .reissueAsset, _ =>
    let (reissue, address) ← reissueAssetFromScript env script
    return (reissue.strName, address, reissue.nAmount)
  | _, _ => none

/-- `TrySpendCoin`, none where it reports an error; an output that carries no
asset leaves the cache. -/
def trySpendCoin (script : Bytes) : Option AssetsCache :=
  if (isAssetScript script).isNone then some cache
  else match assetOfScript env script with
  | none => none
  | some (name, address, amount) =>
    if address = [] || name = [] then none
    else if env.fAssetIndex && amount > 0 then
      match cache.getBestAssetAddressAmount env global (name, address) with
      | none => some cache
      | some known =>
        let rest := wrap 64 (known.balance (name, address) - amount)
        let balanced := known.setBalance (name, address) (if rest < 0 then 0 else rest)
        some { balanced with vSpentAssets := balanced.vSpentAssets ++ [(name, address, amount)] }
    else some cache

/-- `UndoAssetCoin`, none where it reports an error. -/
def undoAssetCoin (script : Bytes) : Option AssetsCache :=
  match assetOfScript env script with
  | none => none
  | some (name, address, amount) =>
    if name = [] || address = [] || amount = 0 then none
    else
      let balanced := cache.updateBalance env global (name, address)
        fun old => addAmount old amount
      some { balanced with
        vUndoAssetAmount := balanced.vUndoAssetAmount ++ [(name, address, amount)] }

/-! ## Tags and freezes

A change found in the opposite set is erased there, and an entry already in the
set is overwritten. -/

/-- `map[key]` changed in place, created empty. -/
def updateRoot (roots : KeyedMap (Bytes × Bytes) (List Bytes)) (key : Bytes × Bytes)
    (change : List Bytes → List Bytes) : KeyedMap (Bytes × Bytes) (List Bytes) :=
  roots.insert key (change ((roots.lookup key).getD []))

variable (name address : Bytes)

/-- The root counters after a sub-qualifier was assigned to, or taken from, an
address. -/
def trackRoot (assigned : Bool) : AssetsCache :=
  if isAssetNameASubQualifier name then
    let key := (getParentName name, address)
    if assigned then { cache with
      mapRootQualifierAddressesAdd :=
        updateRoot cache.mapRootQualifierAddressesAdd key (setInsert name)
      mapRootQualifierAddressesRemove :=
        updateRoot cache.mapRootQualifierAddressesRemove key (setErase name) }
    else { cache with
      mapRootQualifierAddressesRemove :=
        updateRoot cache.mapRootQualifierAddressesRemove key (setInsert name)
      mapRootQualifierAddressesAdd :=
        updateRoot cache.mapRootQualifierAddressesAdd key (setErase name) }
  else cache

def addQualifierAddress (type : QualifierType) : AssetsCache :=
  let tracked := cache.trackRoot name address (type = .addQualifier)
  { tracked with
    setNewQualifierAddressToRemove := tracked.setNewQualifierAddressToRemove.erase (name, address)
    setNewQualifierAddressToAdd := tracked.setNewQualifierAddressToAdd.insert (name, address) type }

def removeQualifierAddress (type : QualifierType) : AssetsCache :=
  let tracked := cache.trackRoot name address (type = .removeQualifier)
  { tracked with
    setNewQualifierAddressToAdd := tracked.setNewQualifierAddressToAdd.erase (name, address)
    setNewQualifierAddressToRemove :=
      tracked.setNewQualifierAddressToRemove.insert (name, address) type }

def addRestrictedAddress (type : RestrictedType) : AssetsCache :=
  { cache with
    setNewRestrictedAddressToRemove := cache.setNewRestrictedAddressToRemove.erase (name, address)
    setNewRestrictedAddressToAdd := cache.setNewRestrictedAddressToAdd.insert (name, address) type }

def removeRestrictedAddress (type : RestrictedType) : AssetsCache :=
  { cache with
    setNewRestrictedAddressToAdd := cache.setNewRestrictedAddressToAdd.erase (name, address)
    setNewRestrictedAddressToRemove :=
      cache.setNewRestrictedAddressToRemove.insert (name, address) type }

def addGlobalRestricted (name : Bytes) (type : RestrictedType) : AssetsCache :=
  { cache with
    setNewRestrictedGlobalToRemove := cache.setNewRestrictedGlobalToRemove.erase name
    setNewRestrictedGlobalToAdd := cache.setNewRestrictedGlobalToAdd.insert name type }

def removeGlobalRestricted (name : Bytes) (type : RestrictedType) : AssetsCache :=
  { cache with
    setNewRestrictedGlobalToAdd := cache.setNewRestrictedGlobalToAdd.erase name
    setNewRestrictedGlobalToRemove := cache.setNewRestrictedGlobalToRemove.insert name type }

def mergeRoots (items roots : KeyedMap (Bytes × Bytes) (List Bytes)) :
    KeyedMap (Bytes × Bytes) (List Bytes) :=
  items.entries.foldl (fun acc entry => entry.2.foldl
    (fun acc name => updateRoot acc entry.1 (setInsert name)) acc) roots

/-- `Flush` into the global cache: additions first, then removals.  Both root
maps end in the map of additions. -/
def flushInto (passets : AssetsCache) : AssetsCache where
  mapAssetsAddressAmount := putAll cache.mapAssetsAddressAmount passets.mapAssetsAddressAmount
  mapReissuedAssetData := putAll cache.mapReissuedAssetData passets.mapReissuedAssetData
  vUndoAssetAmount := passets.vUndoAssetAmount ++ cache.vUndoAssetAmount
  vSpentAssets := passets.vSpentAssets ++ cache.vSpentAssets
  setNewAssetsToRemove := insertNewAll cache.setNewAssetsToRemove
    (eraseAll cache.setNewAssetsToAdd passets.setNewAssetsToRemove)
  setNewAssetsToAdd := eraseAll cache.setNewAssetsToRemove
    (insertNewAll cache.setNewAssetsToAdd passets.setNewAssetsToAdd)
  setNewReissueToRemove := insertNewAll cache.setNewReissueToRemove
    (eraseAll cache.setNewReissueToAdd passets.setNewReissueToRemove)
  setNewReissueToAdd := eraseAll cache.setNewReissueToRemove
    (insertNewAll cache.setNewReissueToAdd passets.setNewReissueToAdd)
  setNewOwnerAssetsToRemove := insertNewAll cache.setNewOwnerAssetsToRemove
    (eraseAll cache.setNewOwnerAssetsToAdd passets.setNewOwnerAssetsToRemove)
  setNewOwnerAssetsToAdd := eraseAll cache.setNewOwnerAssetsToRemove
    (insertNewAll cache.setNewOwnerAssetsToAdd passets.setNewOwnerAssetsToAdd)
  setNewTransferAssetsToRemove := insertNewAll cache.setNewTransferAssetsToRemove
    (eraseAll cache.setNewTransferAssetsToAdd passets.setNewTransferAssetsToRemove)
  setNewTransferAssetsToAdd := eraseAll cache.setNewTransferAssetsToRemove
    (insertNewAll cache.setNewTransferAssetsToAdd passets.setNewTransferAssetsToAdd)
  setNewQualifierAddressToRemove := putAll cache.setNewQualifierAddressToRemove
    (eraseAll cache.setNewQualifierAddressToAdd passets.setNewQualifierAddressToRemove)
  setNewQualifierAddressToAdd := eraseAll cache.setNewQualifierAddressToRemove
    (putAll cache.setNewQualifierAddressToAdd passets.setNewQualifierAddressToAdd)
  setNewRestrictedAddressToRemove := putAll cache.setNewRestrictedAddressToRemove
    (eraseAll cache.setNewRestrictedAddressToAdd passets.setNewRestrictedAddressToRemove)
  setNewRestrictedAddressToAdd := eraseAll cache.setNewRestrictedAddressToRemove
    (putAll cache.setNewRestrictedAddressToAdd passets.setNewRestrictedAddressToAdd)
  setNewRestrictedGlobalToRemove := putAll cache.setNewRestrictedGlobalToRemove
    (eraseAll cache.setNewRestrictedGlobalToAdd passets.setNewRestrictedGlobalToRemove)
  setNewRestrictedGlobalToAdd := eraseAll cache.setNewRestrictedGlobalToRemove
    (putAll cache.setNewRestrictedGlobalToAdd passets.setNewRestrictedGlobalToAdd)
  setNewRestrictedVerifierToRemove := putAll cache.setNewRestrictedVerifierToRemove
    (eraseAll cache.setNewRestrictedVerifierToAdd passets.setNewRestrictedVerifierToRemove)
  setNewRestrictedVerifierToAdd := eraseAll cache.setNewRestrictedVerifierToRemove
    (putAll cache.setNewRestrictedVerifierToAdd passets.setNewRestrictedVerifierToAdd)
  mapRootQualifierAddressesRemove := passets.mapRootQualifierAddressesRemove
  mapRootQualifierAddressesAdd := mergeRoots cache.mapRootQualifierAddressesRemove
    (mergeRoots cache.mapRootQualifierAddressesAdd passets.mapRootQualifierAddressesAdd)

end AssetsCache

def AssetState.flush (state : AssetState) (cache : AssetsCache) : AssetState :=
  { state with passets := cache.flushInto state.passets }

end Phicoin
