import Phicoin.AssetsDump
import Phicoin.Layers

/-! # The records in the database

`DumpCacheToDatabase` erases the records of withdrawn assets, writes those of
issued ones and rewrites those of reissued ones.  What the database then records is
what it recorded before, without the withdrawn names and with the issued ones,
provided that no pending reissue names an asset outside them. -/

namespace Phicoin.AssetState

open KeyedMap List AssetState LruCache

variable {exist : Bytes → Prop} {env : Env} {state next : AssetState} {name : Bytes}

/-- The database records the assets of a set, each under its own name, and the
bounded cache holds records of such assets only. -/
structure Stores (exist : Bytes → Prop) (state : AssetState) : Prop where
  cachedName : ∀ name data, state.passetsCache.get? name = some data → data.asset.strName = name
  storedName : ∀ name data, state.passetsdb.assetData.lookup name = some data →
    data.asset.strName = name
  cached : ∀ name, state.passetsCache.exists? name = true → exist name
  stored : ∀ name, (state.passetsdb.assetData.lookup name).isSome ↔ exist name

namespace Stores

variable (stores : Stores exist state)

include stores

theorem congr {exist' : Bytes → Prop}
    (same : ∀ name, exist name ↔ exist' name) : Stores exist' state where
  cachedName := stores.cachedName
  storedName := stores.storedName
  cached name found := (same name).mp (stores.cached name found)
  stored name := (stores.stored name).trans (same name)

theorem of_same (data : next.passetsdb.assetData = state.passetsdb.assetData)
    (cache : next.passetsCache = state.passetsCache) : Stores exist next where
  cachedName := by rw [cache]; exact stores.cachedName
  storedName := by rw [data]; exact stores.storedName
  cached := by rw [cache]; exact stores.cached
  stored := by rw [data]; exact stores.stored

theorem uncache (name : Bytes) : Stores exist (state.uncacheAsset name) where
  cachedName other data found := by
    rw [uncacheAsset, get?_erase] at found
    split at found
    · cases found
    · exact stores.cachedName other data found
  storedName := stores.storedName
  cached other found := by
    rw [exists?, uncacheAsset, get?_erase] at found
    split at found
    · cases found
    · exact stores.cached other found
  stored := stores.stored

theorem erase (name : Bytes) : Stores (fun other => exist other ∧ other ≠ name)
      ((state.uncacheAsset name).eraseAssetData name) where
  cachedName := (stores.uncache name).cachedName
  storedName other data found := by
    rw [eraseAssetData, lookup_erase_ite] at found
    split at found
    · cases found
    · exact stores.storedName other data found
  cached other found := by
    refine ⟨(stores.uncache name).cached other found, ?_⟩
    rintro rfl
    simp [eraseAssetData, uncacheAsset, exists?, get?_erase] at found
  stored other := by
    rw [eraseAssetData, isSome_lookup_erase, ← stores.stored other]
    simp [uncacheAsset, and_comm]

theorem write {data : DatabasedAssetData} (ownName : data.asset.strName = name) :
    Stores (fun other => exist other ∨ other = name) (state.writeAssetData name data) where
  cachedName := stores.cachedName
  storedName other found lookup := by
    rw [writeAssetData, lookup_insert_ite] at lookup
    split at lookup
    · rename_i same
      cases lookup
      exact ownName.trans same.symm
    · exact stores.storedName other found lookup
  cached other found := .inl (stores.cached other found)
  stored other := by
    rw [writeAssetData, isSome_lookup_insert, ← stores.stored other]
    simp [or_comm]

theorem cache {data : DatabasedAssetData}
    (ownName : data.asset.strName = name) (known : exist name) :
    Stores exist (state.cacheAsset name data) where
  cachedName other found lookup := by
    rcases get?_put lookup with ⟨rfl, rfl⟩ | earlier
    · exact ownName
    · exact stores.cachedName other found earlier
  storedName := stores.storedName
  cached other found := by
    obtain ⟨data', lookup⟩ := Option.isSome_iff_exists.mp found
    rcases get?_put lookup with ⟨rfl, _⟩ | earlier
    · exact known
    · exact stores.cached other (by rw [exists?, earlier]; rfl)
  stored := stores.stored

theorem rewrite (data : DatabasedAssetData) (known : exist data.asset.strName) :
    Stores exist (state.writeAssetData data.asset.strName data) :=
  (stores.write rfl).congr fun _ => or_iff_left_of_imp fun same => same ▸ known

theorem refresh (name : Bytes) : Stores exist (state.refreshAsset name) := by
  unfold refreshAsset
  split
  · rename_i data found
    have ownName := stores.storedName name data found
    exact stores.cache rfl (ownName ▸ (stores.stored name).mp (by rw [found]; rfl))
  · exact stores

theorem writeQuantity (env : Env) (pair : Bytes × Bytes)
    (amount : Int) : Stores exist (state.writeQuantity env pair amount) := by
  unfold AssetState.writeQuantity
  split
  · exact stores.of_same rfl rfl
  · exact stores

theorem eraseQuantity (env : Env) (pair : Bytes × Bytes) :
    Stores exist (state.eraseQuantity env pair) := by
  unfold AssetState.eraseQuantity
  split
  · exact stores.of_same rfl rfl
  · exact stores

theorem writeCached (env : Env) (cache : AssetsCache) (test : Int → Bool) (pair : Bytes × Bytes) :
    Stores exist (AssetState.writeCached env cache test state pair) := by
  unfold AssetState.writeCached
  split
  · split
    · exact stores.writeQuantity env pair _
    · exact stores
  · exact stores

theorem writeOrErase (env : Env) (cache : AssetsCache)
    (pair : Bytes × Bytes) : Stores exist (AssetState.writeOrErase env cache state pair) := by
  unfold AssetState.writeOrErase
  split
  · split
    · exact stores.eraseQuantity env pair
    · exact stores.writeQuantity env pair _
  · exact stores

end Stores

section

variable {K V : Type} [DecidableEq K] (items : KeyedMap K V)
  (body : AssetState → K → V → AssetState)

theorem forEach_scan (Inv : List K → AssetState → Prop) (initial : Inv [] state)
    (step : ∀ visited k v acc, items.lookup k = some v → Inv visited acc →
      Inv (visited ++ [k]) (body acc k v)) : Inv items.keys (forEach items body state) := by
  have entriesFound : ∀ e ∈ items.entries, items.lookup e.1 = some e.2 := fun e member =>
    AList.mem_lookup_iff.mpr member
  suffices scan : ∀ (entries : List (Sigma fun _ : K => V)) (visited : List K) (acc : AssetState),
      (∀ e ∈ entries, items.lookup e.1 = some e.2) → Inv visited acc →
      Inv (visited ++ entries.keys) (entries.foldl (fun acc e => body acc e.1 e.2) acc) by
    exact scan items.entries [] state entriesFound initial
  intro entries
  induction entries with
  | nil => intro visited acc _ holds; simpa using holds
  | cons e rest ih =>
    intro visited acc found holds
    have head := step visited e.1 e.2 acc (found e mem_cons_self) holds
    have tail := ih (visited ++ [e.1]) _ (fun e' member => found e' (mem_cons_of_mem e member))
      head
    simpa using tail

theorem forEach_invariant (Inv : AssetState → Prop) (initial : Inv state)
    (step : ∀ k v acc, items.lookup k = some v → Inv acc → Inv (body acc k v)) :
    Inv (forEach items body state) :=
  forEach_scan items body (fun _ => Inv) initial fun _ => step

end

variable {cache : AssetsCache}

section

variable (stores : Stores exist state) (env : Env)

include stores

theorem stores_dumpRemoved (cache : AssetsCache) :
    Stores (fun name => exist name ∧ cache.setNewAssetsToRemove.lookup name = none)
      (forEach cache.setNewAssetsToRemove (dumpRemovedAsset env) state) := by
  have scanned := forEach_scan cache.setNewAssetsToRemove (dumpRemovedAsset env)
    (fun visited => Stores fun name => exist name ∧ name ∉ visited)
    (stores.congr fun name => by simp) fun visited name entry acc _ holds => by
      refine Stores.eraseQuantity ?_ env _
      refine ((holds.erase name).congr fun other => ?_).of_same rfl rfl
      rw [mem_append, mem_singleton, not_or, and_assoc]
  refine scanned.congr fun name => ?_
  rw [← AList.mem_keys, AList.lookup_eq_none]

theorem stores_dumpAdded (named : cache.Named) :
    Stores (fun name => exist name ∨ (cache.setNewAssetsToAdd.lookup name).isSome)
      (forEach cache.setNewAssetsToAdd (dumpAddedAsset env) state) := by
  have scanned := forEach_scan cache.setNewAssetsToAdd (dumpAddedAsset env)
    (fun visited => Stores fun name => exist name ∨ name ∈ visited)
    (stores.congr fun name => by simp) fun visited name entry acc found holds => by
      have ownName := named.added name entry found
      refine Stores.writeQuantity ?_ env _ _
      refine (((holds.write ownName).cache ownName (.inr rfl)).congr fun other => ?_).of_same rfl rfl
      rw [mem_append, mem_singleton, or_assoc]
  refine scanned.congr fun name => ?_
  rw [← AList.mem_keys, AList.lookup_isSome]

theorem stores_dumpAddedReissue (named : cache.Named)
    {entry : CachedReissue} (known : exist entry.reissue.strName) :
    Stores exist (dumpAddedReissue env cache state entry) := by
  unfold dumpAddedReissue
  split
  · exact stores
  · rename_i asset found
    have ownName := named.reissued _ asset found
    have rewritten := stores.rewrite ⟨asset, entry.blockHeight, entry.blockHash⟩ (ownName ▸ known)
    exact (rewritten.uncache _).writeCached env cache _ _

theorem stores_dumpRemovedReissue (named : cache.Named)
    {entry : CachedReissue}
    (known : (cache.setNewAssetsToRemove.lookup entry.reissue.strName).isSome ∨
      exist entry.reissue.strName) : Stores exist (dumpRemovedReissue env cache state entry) := by
  unfold dumpRemovedReissue
  split
  · exact stores
  · rename_i kept
    split
    · exact stores
    · rename_i asset found
      have ownName := named.reissued _ asset found
      have rewritten := stores.rewrite ⟨asset, entry.blockHeight, entry.blockHash⟩
        (ownName ▸ known.resolve_left kept)
      exact (rewritten.writeOrErase env cache _).uncache _

end

def Dumped (exist : Bytes → Prop) (cache : AssetsCache) (name : Bytes) : Prop :=
  (exist name ∧ cache.setNewAssetsToRemove.lookup name = none) ∨
    (cache.setNewAssetsToAdd.lookup name).isSome

variable (stores : Stores exist state)

include stores

theorem stores_dumpAssets (env : Env) (named : cache.Named)
    (made : ∀ out entry, cache.setNewReissueToAdd.lookup out = some entry →
      Dumped exist cache entry.reissue.strName)
    (undone : ∀ out entry, cache.setNewReissueToRemove.lookup out = some entry →
      (cache.setNewAssetsToRemove.lookup entry.reissue.strName).isSome ∨
        Dumped exist cache entry.reissue.strName) :
    Stores (Dumped exist cache) (dumpAssets env cache state) := by
  have issued := stores_dumpAdded (stores_dumpRemoved stores env cache) env named
  have ownersRemoved := forEach_invariant cache.setNewOwnerAssetsToRemove
    (fun acc name address => acc.eraseQuantity env (name, address)) _ issued
    fun _ _ _ _ holds => holds.eraseQuantity env _
  have ownersAdded := forEach_invariant cache.setNewOwnerAssetsToAdd
    (fun acc name address => writeCached env cache (· > 0) acc (name, address)) _
    ownersRemoved fun _ _ _ _ holds => holds.writeCached env cache _ _
  have transfersRemoved := forEach_invariant cache.setNewTransferAssetsToRemove
    (fun acc _ entry => writeOrErase env cache acc (entry.1.strName, entry.2)) _
    ownersAdded fun _ _ _ _ holds => holds.writeOrErase env cache _
  have transfersAdded := forEach_invariant cache.setNewTransferAssetsToAdd
    (fun acc _ entry =>
      writeCached env cache (fun _ => true) acc (entry.1.strName, entry.2)) _
    transfersRemoved fun _ _ _ _ holds => holds.writeCached env cache _ _
  have reissued := forEach_invariant cache.setNewReissueToAdd
    (fun acc _ entry => dumpAddedReissue env cache acc entry) _ transfersAdded
    fun out entry _ found holds => stores_dumpAddedReissue holds env named (made out entry found)
  exact forEach_invariant cache.setNewReissueToRemove
    (fun acc _ entry => dumpRemovedReissue env cache acc entry) _ reissued
    fun out entry _ found holds => stores_dumpRemovedReissue holds env named (undone out entry found)

theorem stores_dumpQualifier (key : Bytes × Bytes) (assigned : Bool) :
    Stores exist (state.dumpQualifier key assigned) := by
  unfold dumpQualifier
  cases assigned <;> exact stores.of_same rfl rfl

theorem stores_dumpRestriction (key : Bytes × Bytes) (frozen : Bool) :
    Stores exist (state.dumpRestriction key frozen) := by
  unfold dumpRestriction
  cases frozen <;> exact stores.of_same rfl rfl

theorem stores_dumpGlobalRestriction (name : Bytes) (frozen : Bool) :
    Stores exist (state.dumpGlobalRestriction name frozen) := by
  unfold dumpGlobalRestriction
  cases frozen <;> exact stores.of_same rfl rfl

theorem stores_dumpRestrictions (cache : AssetsCache) :
    Stores exist (dumpRestrictions cache state) := by
  unfold dumpRestrictions
  dsimp only
  refine forEach_invariant _ _ _ ?_ fun _ _ _ _ holds => stores_dumpGlobalRestriction holds _ _
  refine forEach_invariant _ _ _ ?_ fun _ _ _ _ holds => stores_dumpGlobalRestriction holds _ _
  refine forEach_invariant _ _ _ ?_ fun _ _ _ _ holds => stores_dumpRestriction holds _ _
  refine forEach_invariant _ _ _ ?_ fun _ _ _ _ holds => stores_dumpRestriction holds _ _
  refine forEach_invariant _ _ _ ?_ fun _ _ _ _ holds => stores_dumpQualifier holds _ _
  refine forEach_invariant _ _ _ ?_ fun _ _ _ _ holds => stores_dumpQualifier holds _ _
  refine forEach_invariant _ _ _ ?_ fun _ _ _ _ holds => holds.of_same rfl rfl
  exact forEach_invariant _ _ _ stores fun _ _ _ _ holds => holds.of_same rfl rfl

theorem stores_dumpSpends (env : Env) (cache : AssetsCache) :
    Stores exist (dumpSpends env cache state) := by
  unfold dumpSpends
  dsimp only
  refine foldlRecOn _ _ (foldlRecOn _ _ stores ?_) ?_
  · exact fun acc holds _ _ => holds.writeCached env cache _ _
  · exact fun acc holds _ _ => holds.writeOrErase env cache _

end Phicoin.AssetState
