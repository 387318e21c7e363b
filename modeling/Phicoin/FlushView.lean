import Mathlib.Data.Fintype.EquivFin
import Phicoin.Lib.Runs
import Phicoin.Layers
import Phicoin.MainNet

/-! # The asset view across a flush

The changes of a block stand in a local cache, which the lookups read before the
global one; `Flush` moves them into the global cache.  The two views agree, and an asset
exists exactly when it has metadata, on a condition about the global cache and the names
the block touches: the undo set of the global cache is read before the additions of the local one, and
no flush takes a record out of the map of reissued assets. -/

namespace Phicoin

open KeyedMap AssetsCache List

inductive ConnectCall where
  | addNewAsset (asset : NewAsset) (address : Bytes) (nHeight : Int) (blockHash : Uint256)
  | addReissueAsset (reissue : ReissueAsset) (address : Bytes) (out : OutPoint)

inductive DisconnectCall where
  | removeNewAsset (asset : NewAsset) (address : Bytes)
  | removeReissueAsset (reissue : ReissueAsset) (address : Bytes) (out : OutPoint)
      (vUndo : List (Bytes × BlockAssetUndo))

inductive BlockCalls where
  | connect (calls : List ConnectCall)
  | disconnect (calls : List DisconnectCall)

namespace ConnectCall

def apply (env : Env) (state : AssetState) (cache : AssetsCache) :
    ConnectCall → Option AssetsCache
  | addNewAsset asset address nHeight blockHash =>
    cache.addNewAsset env state asset address nHeight blockHash
  | addReissueAsset reissue address out => cache.addReissueAsset env state reissue address out

def issued? : ConnectCall → Option Bytes
  | addNewAsset asset _ _ _ => some asset.strName
  | addReissueAsset _ _ _ => none

end ConnectCall

namespace DisconnectCall

def apply (env : Env) (state : AssetState) (cache : AssetsCache) :
    DisconnectCall → Option AssetsCache
  | removeNewAsset asset address => cache.removeNewAsset env state asset address
  | removeReissueAsset reissue address out vUndo =>
    cache.removeReissueAsset env state reissue address out vUndo

def withdrawn? : DisconnectCall → Option Bytes
  | removeNewAsset asset _ => some asset.strName
  | removeReissueAsset _ _ _ _ => none

def undone? : DisconnectCall → Option Bytes
  | removeNewAsset _ _ => none
  | removeReissueAsset reissue _ _ _ => some reissue.strName

end DisconnectCall

/-- The local cache after the calls of a block, none when one of them fails: the block
is then given up and its cache never flushed. -/
def BlockCalls.reach (env : Env) (state : AssetState) : BlockCalls → Option AssetsCache
  | connect calls => calls.foldlM (ConnectCall.apply env state) .empty
  | disconnect calls => calls.foldlM (DisconnectCall.apply env state) .empty

/-- The global cache after the flush reports what the local cache reported, and an
asset exists exactly when it has metadata. -/
structure ViewPreserved (env : Env) (state : AssetState) (cache : AssetsCache) : Prop where
  existence : ∀ name,
    (state.flush cache).passets.checkIfAssetExists env (state.flush cache) name =
      cache.checkIfAssetExists env state name
  metadata : ∀ name,
    (state.flush cache).passets.getAssetMetaData (state.flush cache) name =
      cache.getAssetMetaData state name
  agree : ∀ name, cache.checkIfAssetExists env state name = true ↔
    (cache.getAssetMetaDataIfExists state name).isSome

/-- A block issues no name whose issuance was undone since the last dump, and takes no
asset back that is among the reissued ones; every reissued asset exists, or is issued
now. -/
def BlockCalls.KeepsView (env : Env) (state : AssetState) : BlockCalls → Prop
  | connect calls =>
    (∀ name ∈ calls.filterMap ConnectCall.issued?,
      state.passets.setNewAssetsToRemove.lookup name = none) ∧
    ∀ name, (state.passets.mapReissuedAssetData.lookup name).isSome →
      AssetsCache.empty.checkIfAssetExists env state name = true ∨
        name ∈ calls.filterMap ConnectCall.issued?
  | disconnect calls =>
    (∀ name, (state.passets.mapReissuedAssetData.lookup name).isSome →
      AssetsCache.empty.checkIfAssetExists env state name = true) ∧
    ∀ name ∈ calls.filterMap DisconnectCall.withdrawn?,
      state.passets.mapReissuedAssetData.lookup name = none ∧
        name ∉ calls.filterMap DisconnectCall.undone?

section

variable {env : Env} {state : AssetState} {cache : AssetsCache} {name : Bytes}

/-- The removals, additions and records of a name that decide whether it exists. -/
def Present (state : AssetState) (cache : AssetsCache) (name : Bytes) : Prop :=
  cache.setNewAssetsToRemove.lookup name = none ∧
    state.passets.setNewAssetsToRemove.lookup name = none ∧
    ((cache.setNewAssetsToAdd.lookup name).isSome ∨ Recorded state name)

theorem metadata_isSome_iff (state : AssetState) (cache : AssetsCache) (name : Bytes) :
    (cache.getAssetMetaDataIfExists state name).isSome ↔
      (cache.mapReissuedAssetData.lookup name).isSome ∨
        (state.passets.mapReissuedAssetData.lookup name).isSome ∨ Present state cache name := by
  unfold getAssetMetaDataIfExists getAssetMetaData Present Recorded LruCache.exists?
  cases cache.mapReissuedAssetData.lookup name <;>
    cases state.passets.mapReissuedAssetData.lookup name <;>
    cases cache.setNewAssetsToRemove.lookup name <;>
    cases state.passets.setNewAssetsToRemove.lookup name <;>
    cases cache.setNewAssetsToAdd.lookup name <;>
    cases state.passets.setNewAssetsToAdd.lookup name <;>
    cases state.passetsCache.get? name <;> simp

theorem passets_checkIfAssetExists (env : Env) (state : AssetState) (name : Bytes) :
    state.passets.checkIfAssetExists env state name =
      AssetsCache.empty.checkIfAssetExists env state name := by
  unfold checkIfAssetExists
  cases state.passets.setNewAssetsToRemove.lookup name <;>
    cases state.passets.setNewAssetsToAdd.lookup name <;> simp [AssetsCache.empty]

theorem passets_getAssetMetaData (state : AssetState) (name : Bytes) :
    state.passets.getAssetMetaData state name = AssetsCache.empty.getAssetMetaData state name := by
  unfold getAssetMetaData
  cases state.passets.mapReissuedAssetData.lookup name <;>
    cases state.passets.setNewAssetsToRemove.lookup name <;>
    cases state.passets.setNewAssetsToAdd.lookup name <;> simp [AssetsCache.empty]

theorem flushed_exists_iff (notReindexing : env.fReindex = false) :
    (state.flush cache).passets.checkIfAssetExists env (state.flush cache) name = true ↔
      cache.setNewAssetsToRemove.lookup name = none ∧
        ((cache.setNewAssetsToAdd.lookup name).isSome ∨
          state.passets.setNewAssetsToRemove.lookup name = none ∧ Recorded state name) := by
  rw [passets_checkIfAssetExists, checkIfAssetExists_iff notReindexing]
  unfold Recorded AssetState.flush
  dsimp only
  rw [flushInto_removed, flushInto_added]
  cases cache.setNewAssetsToRemove.lookup name <;>
    cases cache.setNewAssetsToAdd.lookup name <;>
    cases state.passets.setNewAssetsToRemove.lookup name <;>
    cases state.passets.setNewAssetsToAdd.lookup name <;> simp [AssetsCache.empty]

theorem flushed_metadata (fresh : (cache.setNewAssetsToAdd.lookup name).isSome →
    state.passets.setNewAssetsToRemove.lookup name = none ∧
      state.passets.setNewAssetsToAdd.lookup name = none) :
    (state.flush cache).passets.getAssetMetaData (state.flush cache) name =
      cache.getAssetMetaData state name := by
  rw [passets_getAssetMetaData]
  unfold getAssetMetaData AssetState.flush
  dsimp only
  rw [flushInto_reissued, flushInto_removed, flushInto_added]
  cases cache.mapReissuedAssetData.lookup name with
  | some record => rfl
  | none =>
    cases added : cache.setNewAssetsToAdd.lookup name with
    | none =>
      cases cache.setNewAssetsToRemove.lookup name <;>
        cases state.passets.setNewAssetsToRemove.lookup name <;> simp [AssetsCache.empty]
    | some entry =>
      obtain ⟨notUndone, notAdded⟩ := fresh (by rw [added]; rfl)
      rw [notUndone, notAdded]
      cases cache.setNewAssetsToRemove.lookup name <;> simp [AssetsCache.empty]

theorem exists_unknown (state : AssetState) (cache : AssetsCache) :
    ∃ name, cache.getAssetMetaDataIfExists state name = none := by
  obtain ⟨name, unknown⟩ := Infinite.exists_notMem_finset
    (cache.mapReissuedAssetData.keys ++ state.passets.mapReissuedAssetData.keys ++
      cache.setNewAssetsToAdd.keys ++ state.passets.setNewAssetsToAdd.keys ++
      state.passetsCache.items.keys ++ state.passetsdb.assetData.keys).toFinset
  have absent : ∀ {V : Type} (m : KeyedMap Bytes V), name ∉ m.keys →
      (m.lookup name).isSome ≠ true := fun m missing found =>
    missing (AList.mem_keys.mp (AList.lookup_isSome.mp found))
  simp only [mem_toFinset, mem_append, not_or] at unknown
  obtain ⟨⟨⟨⟨⟨localMap, globalMap⟩, localAdd⟩, globalAdd⟩, cached⟩, stored⟩ := unknown
  refine ⟨name, Option.not_isSome_iff_eq_none.mp fun found => ?_⟩
  rcases (metadata_isSome_iff state cache name).mp found with inLocal | inGlobal | ⟨_, _, known⟩
  · exact absent _ localMap inLocal
  · exact absent _ globalMap inGlobal
  · rcases known with added | added | inCache | inDatabase
    · exact absent _ localAdd added
    · exact absent _ globalAdd added
    · exact absent _ cached inCache
    · exact absent _ stored inDatabase

end

section

variable {env : Env} {state : AssetState} {cache next : AssetsCache} {calls : List ConnectCall}

/-- A connecting cache removes nothing, adds the issued names, which were undone or
unknown before, and reissues what is present or was reissued before. -/
structure ConnectingView (state : AssetState) (calls : List ConnectCall) (cache : AssetsCache) :
    Prop where
  removed : ∀ name, cache.setNewAssetsToRemove.lookup name = none
  added : ∀ name, (cache.setNewAssetsToAdd.lookup name).isSome ↔
    name ∈ calls.filterMap ConnectCall.issued?
  fresh : ∀ name, (cache.setNewAssetsToAdd.lookup name).isSome →
    state.passets.setNewAssetsToRemove.lookup name = none → ¬ Recorded state name
  reissued : ∀ name, (cache.mapReissuedAssetData.lookup name).isSome →
    (state.passets.mapReissuedAssetData.lookup name).isSome ∨ Present state cache name

theorem ConnectingView.empty (state : AssetState) : ConnectingView state [] .empty where
  removed _ := rfl
  added name := by simp [AssetsCache.empty]
  fresh name added := by simp [AssetsCache.empty] at added
  reissued name reissued := by simp [AssetsCache.empty] at reissued

theorem ConnectingView.addNewAsset (connecting : ConnectingView state calls cache)
    {asset : NewAsset} {address : Bytes} {nHeight : Int} {blockHash : Uint256}
    (adds : cache.addNewAsset env state asset address nHeight blockHash = some next) :
    ConnectingView state (calls ++ [.addNewAsset asset address nHeight blockHash]) next := by
  obtain ⟨absent, records, _, _⟩ := addNewAsset_eq_some adds
  obtain ⟨removed, addedEq, reissued⟩ := sets_of_issue records
  have added : ∀ name, (next.setNewAssetsToAdd.lookup name).isSome ↔
      name = asset.strName ∨ (cache.setNewAssetsToAdd.lookup name).isSome := by
    simp [addedEq]
  have notReindexing : env.fReindex = false := by
    unfold checkIfAssetExists at absent
    split at absent
    · cases absent
    · simpa using ‹¬ env.fReindex = true›
  have stillRemoved : ∀ name, next.setNewAssetsToRemove.lookup name = none := by
    intro name
    rw [removed, lookup_erase_ite, connecting.removed, ite_self]
  refine ⟨stillRemoved, ?_, ?_, ?_⟩
  · intro name
    rw [added, connecting.added, filterMap_append, mem_append, or_comm]
    simp [ConnectCall.issued?]
  · intro name now notUndone recorded
    rcases (added name).mp now with rfl | before
    · rw [← Bool.not_eq_true, checkIfAssetExists_iff notReindexing] at absent
      exact absent ⟨connecting.removed _, notUndone, .inr recorded⟩
    · exact connecting.fresh name before notUndone recorded
  · intro name inMap
    rw [reissued] at inMap
    rcases connecting.reissued name inMap with earlier | ⟨_, notUndone, known⟩
    · exact .inl earlier
    · exact .inr ⟨stillRemoved name, notUndone,
        known.imp_left fun before => (added name).mpr (.inr before)⟩

theorem ConnectingView.addReissueAsset (connecting : ConnectingView state calls cache)
    {reissue : ReissueAsset} {address : Bytes} {out : OutPoint}
    (adds : cache.addReissueAsset env state reissue address out = some next) :
    ConnectingView state (calls ++ [.addReissueAsset reissue address out]) next := by
  obtain ⟨prev, found, records, _, _⟩ := addReissueAsset_eq_some adds
  obtain ⟨removed, added, reissued⟩ := sets_of_reissue records
  have samePresent : ∀ name, Present state next name ↔ Present state cache name := by
    intro name
    unfold Present
    rw [removed, added]
  refine ⟨fun name => removed ▸ connecting.removed name, ?_,
    fun name => added ▸ connecting.fresh name, ?_⟩
  · intro name
    rw [added, connecting.added, filterMap_append]
    simp [ConnectCall.issued?]
  · intro name inMap
    rw [samePresent]
    rw [reissued, isSome_lookup_insert, Bool.or_eq_true, decide_eq_true_eq] at inMap
    rcases inMap with rfl | before
    · rcases (metadata_isSome_iff state cache _).mp (by rw [found]; rfl) with before | known
      · exact connecting.reissued _ before
      · exact known
    · exact connecting.reissued name before

theorem connecting_of_reach (reached : (BlockCalls.connect calls).reach env state = some cache) :
    ConnectingView state calls cache := by
  refine Runs.foldlM_scan_some (ConnectingView state) reached (ConnectingView.empty state) ?_
  intro done call cache next connecting steps
  cases call with
  | addNewAsset asset address nHeight blockHash => exact connecting.addNewAsset steps
  | addReissueAsset reissue address out => exact connecting.addReissueAsset steps

theorem ConnectingView.viewPreserved_iff (connecting : ConnectingView state calls cache)
    (notReindexing : env.fReindex = false) :
    ViewPreserved env state cache ↔ (BlockCalls.connect calls).KeepsView env state := by
  have exists_iff : ∀ name, cache.checkIfAssetExists env state name = true ↔
      Present state cache name := fun name => checkIfAssetExists_iff notReindexing
  constructor
  · intro preserved
    constructor
    · intro name issued
      have added := (connecting.added name).mpr issued
      have present : cache.checkIfAssetExists env state name = true := by
        rw [← preserved.existence, flushed_exists_iff notReindexing]
        exact ⟨connecting.removed name, .inl added⟩
      exact ((exists_iff name).mp present).2.1
    · intro name inMap
      have found := (metadata_isSome_iff state cache name).mpr (.inr (.inl inMap))
      obtain ⟨_, notUndone, added | recorded⟩ :=
        (exists_iff name).mp ((preserved.agree name).mpr found)
      · exact .inr ((connecting.added name).mp added)
      · exact .inl ((checkIfAssetExists_iff notReindexing).mpr ⟨rfl, notUndone, .inr recorded⟩)
  · rintro ⟨notUndone, reissued⟩
    have fresh : ∀ name, (cache.setNewAssetsToAdd.lookup name).isSome →
        state.passets.setNewAssetsToRemove.lookup name = none :=
      fun name added => notUndone name ((connecting.added name).mp added)
    have earlier : ∀ name, (state.passets.mapReissuedAssetData.lookup name).isSome →
        Present state cache name := by
      intro name inMap
      rcases reissued name inMap with present | issued
      · obtain ⟨_, notUndone, known⟩ := (checkIfAssetExists_iff notReindexing).mp present
        exact ⟨connecting.removed name, notUndone,
          .inr (known.resolve_left (by simp [AssetsCache.empty]))⟩
      · have added := (connecting.added name).mpr issued
        exact ⟨connecting.removed name, fresh name added, .inl added⟩
    refine ⟨fun name => ?_, fun name => flushed_metadata fun added => ?_, fun name => ?_⟩
    · rw [Bool.eq_iff_iff, flushed_exists_iff notReindexing, exists_iff]
      refine and_congr_right fun _ => ?_
      constructor
      · rintro (added | ⟨notUndone, recorded⟩)
        · exact ⟨fresh name added, .inl added⟩
        · exact ⟨notUndone, .inr recorded⟩
      · rintro ⟨notUndone, added | recorded⟩
        · exact .inl added
        · exact .inr ⟨notUndone, recorded⟩
    · have unknown := connecting.fresh name added (fresh name added)
      exact ⟨fresh name added, Option.not_isSome_iff_eq_none.mp fun before =>
        unknown (.inl before)⟩
    · rw [exists_iff, metadata_isSome_iff]
      constructor
      · exact fun present => .inr (.inr present)
      · rintro (inLocal | inGlobal | present)
        · exact (connecting.reissued name inLocal).elim (earlier name) id
        · exact earlier name inGlobal
        · exact present

end

section

variable {env : Env} {state : AssetState} {cache next : AssetsCache} {calls : List DisconnectCall}

/-- A disconnecting cache adds nothing, removes the withdrawn names, and holds the
records of the names whose reissues were undone, which were present or reissued before. -/
structure DisconnectingView (state : AssetState) (calls : List DisconnectCall)
    (cache : AssetsCache) : Prop where
  added : ∀ name, cache.setNewAssetsToAdd.lookup name = none
  removed : ∀ name, (cache.setNewAssetsToRemove.lookup name).isSome ↔
    name ∈ calls.filterMap DisconnectCall.withdrawn?
  reissued : ∀ name, (cache.mapReissuedAssetData.lookup name).isSome ↔
    name ∈ calls.filterMap DisconnectCall.undone?
  source : ∀ name, (cache.mapReissuedAssetData.lookup name).isSome →
    (state.passets.mapReissuedAssetData.lookup name).isSome ∨ Present state .empty name
  named : cache.Named

theorem DisconnectingView.empty (state : AssetState) : DisconnectingView state [] .empty where
  added _ := rfl
  removed name := by simp [AssetsCache.empty]
  reissued name := by simp [AssetsCache.empty]
  source name reissued := by simp [AssetsCache.empty] at reissued
  named := Named.empty

theorem DisconnectingView.removeNewAsset (disconnecting : DisconnectingView state calls cache)
    {asset : NewAsset} {address : Bytes}
    (removes : cache.removeNewAsset env state asset address = some next) :
    DisconnectingView state (calls ++ [.removeNewAsset asset address]) next := by
  obtain ⟨_, records, _, _⟩ := removeNewAsset_eq_some removes
  obtain ⟨removed, addedEq, reissued⟩ := sets_of_withdraw records
  have added : ∀ name, next.setNewAssetsToAdd.lookup name = none := by
    intro name
    rw [addedEq, lookup_erase_ite, disconnecting.added, ite_self]
  refine ⟨added, ?_, ?_, fun name => reissued ▸ disconnecting.source name, ?_⟩
  · intro name
    rw [removed, isSome_lookup_insertNew, Bool.or_eq_true, decide_eq_true_eq,
      disconnecting.removed, filterMap_append, mem_append, or_comm]
    simp [DisconnectCall.withdrawn?]
  · intro name
    rw [reissued, disconnecting.reissued, filterMap_append]
    simp [DisconnectCall.undone?]
  · refine ⟨fun name entry found => ?_,
      fun name record => reissued ▸ disconnecting.named.reissued name record⟩
    rw [added] at found
    cases found

theorem DisconnectingView.removeReissueAsset (stored : NamedState state)
    (disconnecting : DisconnectingView state calls cache) {reissue : ReissueAsset}
    {address : Bytes} {out : OutPoint} {vUndo : List (Bytes × BlockAssetUndo)}
    (removes : cache.removeReissueAsset env state reissue address out vUndo = some next) :
    DisconnectingView state (calls ++ [.removeReissueAsset reissue address out vUndo]) next := by
  obtain ⟨prev, found, records, _, _⟩ := removeReissueAsset_eq_some removes
  -- the record goes back under its own name, which is the one it was found under
  have ownName : prev.strName = reissue.strName := disconnecting.named.metadata stored found
  obtain ⟨removed, added, reissuedEq⟩ := sets_of_reissue records
  have inMap : ∀ name, (next.mapReissuedAssetData.lookup name).isSome ↔
      name = reissue.strName ∨ (cache.mapReissuedAssetData.lookup name).isSome := by
    intro name
    rw [reissuedEq, isSome_lookup_insert, Bool.or_eq_true, decide_eq_true_eq, ownName]
  refine ⟨fun name => ?_, fun name => ?_, fun name => ?_, fun name reissued => ?_,
    disconnecting.named.reissue (undoReissue_strName _ _ _) records⟩
  · rw [added, disconnecting.added]
  · rw [removed, disconnecting.removed, filterMap_append]
    simp [DisconnectCall.withdrawn?]
  · rw [inMap, disconnecting.reissued, filterMap_append, mem_append, or_comm]
    simp [DisconnectCall.undone?]
  · rcases (inMap name).mp reissued with rfl | before
    · rcases (metadata_isSome_iff state cache _).mp (by rw [found]; rfl) with before | inGlobal |
        ⟨_, notUndone, known⟩
      · exact disconnecting.source _ before
      · exact .inl inGlobal
      · rw [disconnecting.added] at known
        exact .inr ⟨rfl, notUndone, .inr (known.resolve_left (by simp))⟩
    · exact disconnecting.source name before

theorem disconnecting_of_reach (stored : NamedState state)
    (reached : (BlockCalls.disconnect calls).reach env state = some cache) :
    DisconnectingView state calls cache := by
  refine Runs.foldlM_scan_some (DisconnectingView state) reached (DisconnectingView.empty state) ?_
  intro done call cache next disconnecting steps
  cases call with
  | removeNewAsset asset address => exact disconnecting.removeNewAsset steps
  | removeReissueAsset reissue address out vUndo =>
    exact disconnecting.removeReissueAsset stored steps

theorem DisconnectingView.viewPreserved_iff (disconnecting : DisconnectingView state calls cache)
    (notReindexing : env.fReindex = false) :
    ViewPreserved env state cache ↔ (BlockCalls.disconnect calls).KeepsView env state := by
  have exists_iff : ∀ name, cache.checkIfAssetExists env state name = true ↔
      name ∉ calls.filterMap DisconnectCall.withdrawn? ∧
        AssetsCache.empty.checkIfAssetExists env state name = true := by
    intro name
    rw [checkIfAssetExists_iff notReindexing, checkIfAssetExists_iff notReindexing,
      ← disconnecting.removed, disconnecting.added, Option.not_isSome_iff_eq_none]
    simp [AssetsCache.empty]
  have notAdded : ∀ name, (cache.setNewAssetsToAdd.lookup name).isSome ≠ true :=
    fun name => by simp [disconnecting.added name]
  constructor
  · intro preserved
    have present : ∀ name, (cache.mapReissuedAssetData.lookup name).isSome ∨
        (state.passets.mapReissuedAssetData.lookup name).isSome →
        cache.checkIfAssetExists env state name = true := by
      intro name inMap
      rw [preserved.agree, metadata_isSome_iff]
      exact inMap.imp_right .inl
    constructor
    · exact fun name inMap => ((exists_iff name).mp (present name (.inr inMap))).2
    · intro name withdrawn
      refine ⟨Option.not_isSome_iff_eq_none.mp fun inMap => ?_, fun undone => ?_⟩
      · exact ((exists_iff name).mp (present name (.inr inMap))).1 withdrawn
      · have inMap := (disconnecting.reissued name).mpr undone
        exact ((exists_iff name).mp (present name (.inl inMap))).1 withdrawn
  · rintro ⟨reissued, withdrawn⟩
    refine ⟨fun name => ?_, fun name => flushed_metadata fun added => absurd added (notAdded name),
      fun name => ?_⟩
    · rw [Bool.eq_iff_iff, flushed_exists_iff notReindexing, checkIfAssetExists_iff notReindexing]
      simp [disconnecting.added name]
    · rw [metadata_isSome_iff, exists_iff]
      constructor
      · intro present
        exact .inr (.inr ((checkIfAssetExists_iff notReindexing).mp ((exists_iff name).mpr present)))
      · rintro (inLocal | inGlobal | present)
        · refine ⟨fun gone => (withdrawn name gone).2 ((disconnecting.reissued name).mp inLocal), ?_⟩
          rcases disconnecting.source name inLocal with inGlobal | present
          · exact reissued name inGlobal
          · exact (checkIfAssetExists_iff notReindexing).mpr present
        · refine ⟨fun gone => ?_, reissued name inGlobal⟩
          rw [(withdrawn name gone).1] at inGlobal
          cases inGlobal
        · exact (exists_iff name).mp ((checkIfAssetExists_iff notReindexing).mpr present)

end

theorem notReindexing_of_viewPreserved {env : Env} {state : AssetState} {cache : AssetsCache}
    (preserved : ViewPreserved env state cache) : env.fReindex = false := by
  obtain ⟨name, unknown⟩ := exists_unknown state cache
  have absent : cache.checkIfAssetExists env state name ≠ true := by
    rw [Ne, preserved.agree, unknown]
    simp
  unfold checkIfAssetExists at absent
  split at absent
  · exact absurd rfl absent
  · simpa using ‹¬ env.fReindex = true›

/-- The flush of a block's cache preserves what is reported of every asset, and an asset
exists exactly when it has metadata, if and only if the databases are not being rebuilt
and the block keeps the view. -/
theorem flush_keeps_view_iff (env : Env) (state : AssetState) (stored : NamedState state)
    (calls : BlockCalls) (cache : AssetsCache) (reached : calls.reach env state = some cache) :
    ViewPreserved env state cache ↔ env.fReindex = false ∧ calls.KeepsView env state := by
  have views : env.fReindex = false →
      (ViewPreserved env state cache ↔ calls.KeepsView env state) := by
    intro notReindexing
    cases calls with
    | connect calls => exact (connecting_of_reach reached).viewPreserved_iff notReindexing
    | disconnect calls =>
      exact (disconnecting_of_reach stored reached).viewPreserved_iff notReindexing
  constructor
  · intro preserved
    have notReindexing := notReindexing_of_viewPreserved preserved
    exact ⟨notReindexing, (views notReindexing).mp preserved⟩
  · rintro ⟨notReindexing, keeps⟩
    exact (views notReindexing).mpr keeps

open MainNet

namespace FlushView

def token : NewAsset := ⟨ascii "TOKEN", 1000 * coin, 0, 1, 0, []⟩

def address : Bytes := encodeDestination env (.keyId alice)

def issuance : ConnectCall := .addNewAsset token address 10 7

def withdrawal : DisconnectCall := .removeNewAsset token address

def flushed (state : AssetState) (calls : BlockCalls) : Option AssetState :=
  (calls.reach env state).map state.flush

theorem namedState_initial : NamedState .initial where
  passets := Named.empty
  cached _ _ found := by cases found
  stored _ _ found := by cases found

end FlushView

open FlushView

/-- A fresh node that connects an issuance and a reissue keeps the view. -/
theorem flush_keeps_view_iff_issuance :
    ∃ cache, (BlockCalls.connect [issuance, .addReissueAsset ⟨ascii "TOKEN", 5, 0, 1, []⟩ address
        ⟨9, 0⟩]).reach env .initial = some cache ∧
      ViewPreserved env .initial cache := by
  have reaches : ((BlockCalls.connect [issuance, .addReissueAsset ⟨ascii "TOKEN", 5, 0, 1, []⟩
      address ⟨9, 0⟩]).reach env .initial).isSome = true := by decide +kernel
  obtain ⟨cache, reached⟩ := Option.isSome_iff_exists.mp reaches
  refine ⟨cache, reached, (flush_keeps_view_iff env .initial namedState_initial _ cache
    reached).mpr ⟨rfl, ?_, ?_⟩⟩
  · intro name _
    rfl
  · intro name reissued
    cases reissued

/-- A token is issued, its block disconnected, and the issuance connected again with no
dump between: the local cache does not see the token it adds, the global cache does
after the flush. -/
theorem flush_reveals_issued_again : ∃ state cache, (flushed .initial (.connect [issuance])).bind
        (fun first => flushed first (.disconnect [withdrawal])) = some state ∧
      (BlockCalls.connect [issuance]).reach env state = some cache ∧
      cache.checkIfAssetExists env state token.strName = false ∧
      (state.flush cache).passets.checkIfAssetExists env (state.flush cache) token.strName =
        true ∧ ¬ ViewPreserved env state cache := by
  have runs : ((flushed .initial (.connect [issuance])).bind
      (fun first => flushed first (.disconnect [withdrawal]))).bind (fun state =>
        ((BlockCalls.connect [issuance]).reach env state).map fun cache =>
          (cache.checkIfAssetExists env state token.strName,
            (state.flush cache).passets.checkIfAssetExists env (state.flush cache)
              token.strName)) = some (false, true) := by decide +kernel
  obtain ⟨state, before, again⟩ := Option.bind_eq_some_iff.mp runs
  obtain ⟨cache, reached, seen⟩ := Option.map_eq_some_iff.mp again
  obtain ⟨hidden, revealed⟩ := Prod.mk.inj seen
  refine ⟨state, cache, before, reached, hidden, revealed, fun preserved => ?_⟩
  have same := preserved.existence token.strName
  rw [hidden, revealed] at same
  cases same

end Phicoin
