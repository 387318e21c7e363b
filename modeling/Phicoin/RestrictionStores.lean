import Phicoin.Lib.Pending
import Phicoin.Changes
import Phicoin.Stored

/-! # Tags, freezes and verifier strings as pending changes

The tags, the freezes of addresses, the freezes of assets and the verifier strings
of a cache are four layers of pending changes.  Three of them are dumped into sets
of keys with a bounded cache, the verifier strings into a table of their own.  This
module says what `Flush`, `DumpCacheToDatabase` and the lookups do to them. -/

namespace Phicoin

open KeyedMap AssetsCache Pending RestrictionLayer

namespace RestrictionLayer

variable (layer : RestrictionLayer)

def tags : Pending (Bytes × Bytes) QualifierType := ⟨layer.qualifierRemoved, layer.qualifierAdded⟩

def freezes : Pending (Bytes × Bytes) RestrictedType := ⟨layer.frozenRemoved, layer.frozenAdded⟩

def globalFreezes : Pending Bytes RestrictedType := ⟨layer.globalRemoved, layer.globalAdded⟩

def verifiers : Pending Bytes CachedVerifier := ⟨layer.verifierRemoved, layer.verifierAdded⟩

end RestrictionLayer

def tagReading : Reading QualifierType Bool where
  made type := type = .addQualifier
  undone type := type = .removeQualifier

def freezeReading : Reading RestrictedType Bool where
  made type := type = .freezeAddress
  undone type := type = .unfreezeAddress

def globalReading : Reading RestrictedType Bool where
  made type := type = .globalFreeze
  undone type := type = .globalUnfreeze

/-- An undone reissue brings an earlier string back, an undone issuance none. -/
def verifierReading : Reading CachedVerifier (Option Bytes) where
  made entry := some entry.verifier
  undone entry := if entry.fUndoingReissue then some entry.verifier else none

namespace AssetState

variable (state : AssetState)

def tagStore : StoredSet (Bytes × Bytes) :=
  ⟨state.prestricteddb.addressQualifier, state.passetsQualifierCache⟩

def freezeStore : StoredSet (Bytes × Bytes) :=
  ⟨state.prestricteddb.restrictedAddress, state.passetsRestrictionCache⟩

def globalFreezeStore : StoredSet Bytes :=
  ⟨state.prestricteddb.globalRestriction, state.passetsGlobalRestrictionCache⟩

def storedSets : StoredSet (Bytes × Bytes) × StoredSet (Bytes × Bytes) × StoredSet Bytes :=
  (state.tagStore, state.freezeStore, state.globalFreezeStore)

/-! ## The dump

The issuances, reissues, transfers and spends are written to the records and
quantities, and leave every other part of the state. -/

section

variable {β : Type} (part : AssetState → β)
  (other : ∀ (state : AssetState) (data : KeyedMap Bytes DatabasedAssetData)
    (quantity : KeyedMap (Bytes × Bytes) Int) (cached : LruCache Bytes DatabasedAssetData),
    part { state with
      passetsdb := { state.passetsdb with assetData := data, addressQuantity := quantity }
      passetsCache := cached } = part state)

theorem forEach_frame {K V : Type} [DecidableEq K]
    {items : KeyedMap K V} {body : AssetState → K → V → AssetState}
    (same : ∀ acc k v, part (body acc k v) = part acc) :
    part (forEach items body state) = part state :=
  forEach_invariant items body (fun acc => part acc = part state) rfl
    fun k v acc _ before => (same acc k v).trans before

include other

variable (env : Env)

theorem writeQuantity_frame (pair : Bytes × Bytes) (amount : Int) :
    part (state.writeQuantity env pair amount) = part state := by
  unfold writeQuantity
  split
  · exact other state _ _ _
  · rfl

theorem eraseQuantity_frame (pair : Bytes × Bytes) :
    part (state.eraseQuantity env pair) = part state := by
  unfold eraseQuantity
  split
  · exact other state _ _ _
  · rfl

theorem writeCached_frame (cache : AssetsCache) (test : Int → Bool)
    (pair : Bytes × Bytes) : part (writeCached env cache test state pair) = part state := by
  unfold writeCached
  split
  · split
    · exact writeQuantity_frame state part other env pair _
    · rfl
  · rfl

theorem writeOrErase_frame (cache : AssetsCache) (pair : Bytes × Bytes) :
    part (writeOrErase env cache state pair) = part state := by
  unfold writeOrErase
  split
  · split
    · exact eraseQuantity_frame state part other env pair
    · exact writeQuantity_frame state part other env pair _
  · rfl

theorem dumpAddedAsset_frame (name : Bytes) (entry : CachedNewAsset) :
    part (dumpAddedAsset env state name entry) = part state :=
  (writeQuantity_frame _ part other env _ _).trans (other state _ _ _)

theorem dumpAddedReissue_frame (cache : AssetsCache) (entry : CachedReissue) :
    part (dumpAddedReissue env cache state entry) = part state := by
  unfold dumpAddedReissue
  split
  · rfl
  · exact (writeCached_frame _ part other env cache _ _).trans (other state _ _ _)

theorem dumpRemovedReissue_frame (cache : AssetsCache) (entry : CachedReissue) :
    part (dumpRemovedReissue env cache state entry) = part state := by
  unfold dumpRemovedReissue
  split
  · rfl
  · split
    · rfl
    · exact (other _ _ _ _).trans
        ((writeOrErase_frame _ part other env cache _).trans (other state _ _ _))

theorem dumpAssets_frame (cache : AssetsCache) : part (dumpAssets env cache state) =
      part (forEach cache.setNewAssetsToRemove (dumpRemovedAsset env) state) := by
  unfold dumpAssets
  dsimp only
  rw [forEach_frame _ part fun acc _ entry => dumpRemovedReissue_frame acc part other env cache entry,
    forEach_frame _ part fun acc _ entry => dumpAddedReissue_frame acc part other env cache entry,
    forEach_frame _ part fun acc _ entry => writeCached_frame acc part other env cache _ _,
    forEach_frame _ part fun acc _ entry => writeOrErase_frame acc part other env cache _,
    forEach_frame _ part fun acc _ _ => writeCached_frame acc part other env cache _ _,
    forEach_frame _ part fun acc _ _ => eraseQuantity_frame acc part other env _,
    forEach_frame _ part fun acc => dumpAddedAsset_frame acc part other env]

theorem dumpSpends_frame (cache : AssetsCache) :
    part (dumpSpends env cache state) = part state := by
  unfold dumpSpends
  refine List.foldlRecOn (motive := fun acc => part acc = part state) _ _ ?_
    fun acc before e _ => (writeOrErase_frame acc part other env cache _).trans before
  exact List.foldlRecOn (motive := fun acc => part acc = part state) _ _ rfl
    fun acc before e _ => (writeCached_frame acc part other env cache _ _).trans before

end

theorem dumpAssets_storedSets (env : Env) (cache : AssetsCache) :
    (dumpAssets env cache state).storedSets = state.storedSets :=
  (dumpAssets_frame state storedSets (fun _ _ _ _ => rfl) env cache).trans
    (forEach_frame state storedSets fun _ name entry =>
      eraseQuantity_frame _ storedSets (fun _ _ _ _ => rfl) env (name, entry.address))

/-! Each of the other loops writes to one set. -/

/-- `forEach` on a part of the state. -/
def along {K V β : Type} (items : KeyedMap K V) (body : β → K → V → β) (start : β) : β :=
  items.entries.foldl (fun acc entry => body acc entry.1 entry.2) start

theorem along_same {K V β : Type} (items : KeyedMap K V) (start : β) :
    along items (fun acc _ _ => acc) start = start :=
  List.foldl_fixed' (fun _ => rfl) _

theorem along_at {K V β : Type} [DecidableEq K] (effect : V → β) (k : K) (items : KeyedMap K V)
    (start : β) :
    along items (fun seen j v => if k = j then effect v else seen) start =
      match items.lookup k with
      | some v => effect v
      | none => start :=
  foldl_entries_observe _ id (fun _ v => effect v) k (fun _ _ _ => rfl) items start

theorem forEach_along {K V β : Type} {state : AssetState} {part : AssetState → β}
    {write : β → K → V → β} {items : KeyedMap K V} {body : AssetState → K → V → AssetState} {seen : β}
    (spec : ∀ acc k v, part (body acc k v) = write (part acc) k v) (before : part state = seen) :
    part (forEach items body state) = along items write seen := by
  subst before
  exact (List.foldl_hom part fun acc e => (spec acc e.1 e.2).symm).symm

/-- What the eight loops do to a part of the state of which each write is known. -/
theorem dumpRestrictions_part {β : Type} (part : AssetState → β)
    (verifier : β → Bytes → Option Bytes → β) (tag freeze : β → Bytes × Bytes → Bool → β)
    (globalFreeze : β → Bytes → Bool → β) (cache : AssetsCache)
    (verifiers : ∀ acc name text, part (acc.dumpVerifier name text) =
      verifier (part acc) name text := by exact fun _ _ _ => rfl)
    (tags : ∀ acc key assigned, part (acc.dumpQualifier key assigned) =
      tag (part acc) key assigned := by rintro _ _ ⟨⟩ <;> rfl)
    (freezes : ∀ acc key frozen, part (acc.dumpRestriction key frozen) =
      freeze (part acc) key frozen := by rintro _ _ ⟨⟩ <;> rfl)
    (globals : ∀ acc name frozen, part (acc.dumpGlobalRestriction name frozen) =
      globalFreeze (part acc) name frozen := by rintro _ _ ⟨⟩ <;> rfl) :
    part (dumpRestrictions cache state) =
      let seen := along cache.setNewRestrictedVerifierToAdd
        (fun acc name entry => verifier acc name (some entry.verifier)) (part state)
      let seen := along cache.setNewRestrictedVerifierToRemove (fun acc name entry =>
        verifier acc name (if entry.fUndoingReissue then some entry.verifier else none)) seen
      let seen := along cache.setNewQualifierAddressToAdd
        (fun acc key type => tag acc key (type = .addQualifier)) seen
      let seen := along cache.setNewQualifierAddressToRemove
        (fun acc key type => tag acc key (type = .removeQualifier)) seen
      let seen := along cache.setNewRestrictedAddressToAdd
        (fun acc key type => freeze acc key (type = .freezeAddress)) seen
      let seen := along cache.setNewRestrictedAddressToRemove
        (fun acc key type => freeze acc key (type = .unfreezeAddress)) seen
      let seen := along cache.setNewRestrictedGlobalToAdd
        (fun acc name type => globalFreeze acc name (type = .globalFreeze)) seen
      along cache.setNewRestrictedGlobalToRemove
        (fun acc name type => globalFreeze acc name (type = .globalUnfreeze)) seen := by
  unfold dumpRestrictions
  dsimp only
  iterate 2 apply forEach_along (by exact fun acc name _ => globals acc name _)
  iterate 2 apply forEach_along (by exact fun acc key _ => freezes acc key _)
  iterate 2 apply forEach_along (by exact fun acc key _ => tags acc key _)
  iterate 2 apply forEach_along (by exact fun acc name _ => verifiers acc name _)
  rfl

theorem dumpRestrictions_tagStore (cache : AssetsCache) : (dumpRestrictions cache state).tagStore =
      state.tagStore.dump tagReading cache.restrictions.tags := by
  refine (dumpRestrictions_part state tagStore (fun acc _ _ => acc) StoredSet.write
    (fun acc _ _ => acc) (fun acc _ _ => acc) cache).trans ?_
  simp only [along_same]
  rfl

theorem dumpRestrictions_freezeStore (cache : AssetsCache) :
    (dumpRestrictions cache state).freezeStore =
      state.freezeStore.dump freezeReading cache.restrictions.freezes := by
  refine (dumpRestrictions_part state freezeStore (fun acc _ _ => acc)
    (fun acc _ _ => acc) StoredSet.write (fun acc _ _ => acc) cache).trans ?_
  simp only [along_same]
  rfl

theorem dumpRestrictions_globalFreezeStore (cache : AssetsCache) :
    (dumpRestrictions cache state).globalFreezeStore =
      state.globalFreezeStore.dump globalReading cache.restrictions.globalFreezes := by
  refine (dumpRestrictions_part state globalFreezeStore (fun acc _ _ => acc)
    (fun acc _ _ => acc) (fun acc _ _ => acc) StoredSet.write cache).trans ?_
  simp only [along_same]
  rfl

theorem dumpCacheToDatabase_storedSets (env : Env) : (state.dumpCacheToDatabase env).storedSets =
      (state.tagStore.dump tagReading state.passets.restrictions.tags,
        state.freezeStore.dump freezeReading state.passets.restrictions.freezes,
        state.globalFreezeStore.dump globalReading state.passets.restrictions.globalFreezes) := by
  have assets := dumpAssets_storedSets state env state.passets
  unfold dumpCacheToDatabase
  refine (dumpSpends_frame _ storedSets (fun _ _ _ _ => rfl) env state.passets).trans ?_
  simp only [storedSets, Prod.mk.injEq] at assets ⊢
  rw [dumpRestrictions_tagStore, dumpRestrictions_freezeStore, dumpRestrictions_globalFreezeStore,
    assets.1, assets.2.1, assets.2.2]
  exact ⟨rfl, rfl, rfl⟩

/-! The verifier strings are written by two loops, and erased with the assets that are
removed; the cache of strings is not told of the latter. -/

def verifierAt (name : Bytes) : Option Bytes × Option Bytes :=
  (state.prestricteddb.verifier.lookup name, state.passetsVerifierCache.get? name)

theorem dumpRemovedAsset_verifierAt (env : Env) (name : Bytes) (entry : CachedNewAsset)
    (other : Bytes) : (dumpRemovedAsset env state name entry).verifierAt other =
      if other = name then (none, (state.verifierAt other).2) else state.verifierAt other := by
  refine (eraseQuantity_frame _ (verifierAt · other) (fun _ _ _ _ => rfl) env _).trans ?_
  simp only [verifierAt, eraseAssetData, uncacheAsset, lookup_erase_ite]
  split <;> rfl

theorem dumpVerifier_verifierAt (name : Bytes) (verifier : Option Bytes) (other : Bytes) :
    (state.dumpVerifier name verifier).verifierAt other =
      if other = name then (verifier, none) else state.verifierAt other := by
  simp only [verifierAt, dumpVerifier, LruCache.get?_erase]
  cases verifier <;> simp only [lookup_erase_ite, lookup_insert_ite] <;> split <;> rfl

theorem dumpRestrictions_verifierAt (cache : AssetsCache) (name : Bytes) :
    (dumpRestrictions cache state).verifierAt name =
      match cache.restrictions.verifiers.verdict verifierReading name with
      | some verifier => (verifier, none)
      | none => state.verifierAt name := by
  rw [dumpRestrictions_part state (verifierAt · name)
    (fun seen other text => if name = other then (text, none) else seen) (fun acc _ _ => acc)
    (fun acc _ _ => acc) (fun acc _ _ => acc) cache
    fun acc other text => dumpVerifier_verifierAt acc other text name]
  simp only [along_same]
  rw [along_at (fun entry : CachedVerifier =>
      (if entry.fUndoingReissue then some entry.verifier else none, none)) name,
    along_at (fun entry : CachedVerifier => (some entry.verifier, none)) name, verdict]
  simp only [verifiers, restrictions]
  cases cache.setNewRestrictedVerifierToRemove.lookup name <;>
    cases cache.setNewRestrictedVerifierToAdd.lookup name <;> rfl

theorem dumpCacheToDatabase_verifierAt (env : Env) (name : Bytes) :
    (state.dumpCacheToDatabase env).verifierAt name =
      match state.passets.restrictions.verifiers.verdict verifierReading name with
      | some verifier => (verifier, none)
      | none =>
        if (state.passets.setNewAssetsToRemove.lookup name).isSome
        then (none, (state.verifierAt name).2) else state.verifierAt name := by
  unfold dumpCacheToDatabase
  refine (dumpSpends_frame _ (verifierAt · name) (fun _ _ _ _ => rfl) env state.passets).trans ?_
  rw [dumpRestrictions_verifierAt,
    dumpAssets_frame state (verifierAt · name) (fun _ _ _ _ => rfl) env state.passets, forEach,
    foldl_entries_observe (dumpRemovedAsset env) (verifierAt · name)
      (fun seen _ => (none, seen.2)) name
      fun acc other entry => dumpRemovedAsset_verifierAt acc env other entry name]
  cases state.passets.setNewAssetsToRemove.lookup name <;> rfl

theorem dumpCacheToDatabase_blockUndo (env : Env) :
    (state.dumpCacheToDatabase env).passetsdb.blockUndo = state.passetsdb.blockUndo := by
  let part : AssetState → KeyedMap Uint256 (List (Bytes × BlockAssetUndo)) :=
    fun state => state.passetsdb.blockUndo
  unfold dumpCacheToDatabase
  refine (dumpSpends_frame _ part (fun _ _ _ _ => rfl) env state.passets).trans ?_
  refine Eq.trans ?_ ((dumpAssets_frame state part (fun _ _ _ _ => rfl) env state.passets).trans
    (forEach_frame state part fun acc name entry =>
      eraseQuantity_frame _ part (fun _ _ _ _ => rfl) env _))
  refine (dumpRestrictions_part _ part (fun acc _ _ => acc) (fun acc _ _ => acc)
    (fun acc _ _ => acc) (fun acc _ _ => acc) _).trans ?_
  simp only [along_same]

end AssetState

variable {state : AssetState} {cache : AssetsCache} {name address : Bytes}

@[simp] theorem empty_tags : empty.restrictions.tags = .empty := rfl

@[simp] theorem empty_verifiers : empty.restrictions.verifiers = .empty := rfl

theorem flush_tags (state : AssetState) (cache : AssetsCache) :
    (state.flush cache).passets.restrictions.tags =
      cache.restrictions.tags.flush state.passets.restrictions.tags := rfl

theorem checkForAddressRestriction_eq (coherent : state.freezeStore.Coherent)
    (unshadowed : Pending.Unshadowed cache.restrictions.freezes state.passets.restrictions.freezes
      (name, address)) : cache.checkForAddressRestriction state name address false =
      Pending.value freezeReading cache.restrictions.freezes state.passets.restrictions.freezes
        state.freezeStore.has (name, address) := by
  have order : cache.checkForAddressRestriction state name address false =
      (Pending.read freezeReading cache.restrictions.freezes state.passets.restrictions.freezes
        (name, address)).getD
        (state.freezeStore.cache.exists? (name, address) || state.freezeStore.has (name, address)) := by
    unfold checkForAddressRestriction Pending.read RestrictionLayer.freezes restrictions
    simp only [Bool.false_eq_true, if_false]
    cases cache.setNewRestrictedAddressToRemove.lookup (name, address) <;>
      cases state.passets.setNewRestrictedAddressToRemove.lookup (name, address) <;>
      cases cache.setNewRestrictedAddressToAdd.lookup (name, address) <;>
      cases state.passets.setNewRestrictedAddressToAdd.lookup (name, address) <;> rfl
  rw [order, coherent.or_has, Pending.read_eq freezeReading unshadowed, Pending.value]

theorem checkForGlobalRestriction_eq (coherent : state.globalFreezeStore.Coherent)
    (unshadowed : Pending.Unshadowed cache.restrictions.globalFreezes
      state.passets.restrictions.globalFreezes name) :
    cache.checkForGlobalRestriction state name false =
      Pending.value globalReading cache.restrictions.globalFreezes
        state.passets.restrictions.globalFreezes state.globalFreezeStore.has name := by
  have order : cache.checkForGlobalRestriction state name false =
      (Pending.read globalReading cache.restrictions.globalFreezes
        state.passets.restrictions.globalFreezes name).getD
        (state.globalFreezeStore.cache.exists? name || state.globalFreezeStore.has name) := by
    unfold checkForGlobalRestriction Pending.read RestrictionLayer.globalFreezes restrictions
    simp only [Bool.false_eq_true, if_false]
    cases cache.setNewRestrictedGlobalToRemove.lookup name <;>
      cases state.passets.setNewRestrictedGlobalToRemove.lookup name <;>
      cases cache.setNewRestrictedGlobalToAdd.lookup name <;>
      cases state.passets.setNewRestrictedGlobalToAdd.lookup name <;> rfl
  rw [order, coherent.or_has, Pending.read_eq globalReading unshadowed, Pending.value]

def AssetState.VerifiersCoherent (state : AssetState) : Prop :=
  ∀ name verifier, state.passetsVerifierCache.get? name = some verifier →
    state.prestricteddb.verifier.lookup name = some verifier

theorem getAssetVerifierStringIfExists_eq (coherent : state.VerifiersCoherent)
    (unshadowed : Pending.Unshadowed cache.restrictions.verifiers
      state.passets.restrictions.verifiers name) :
    cache.getAssetVerifierStringIfExists state name false =
      Pending.value verifierReading cache.restrictions.verifiers
        state.passets.restrictions.verifiers (AList.lookup · state.prestricteddb.verifier) name := by
  have cached : (state.passetsVerifierCache.get? name).or
      (state.prestricteddb.verifier.lookup name) = state.prestricteddb.verifier.lookup name := by
    cases found : state.passetsVerifierCache.get? name with
    | none => rfl
    | some verifier => exact (coherent name verifier found).symm
  have order : cache.getAssetVerifierStringIfExists state name false =
      (Pending.read verifierReading cache.restrictions.verifiers
        state.passets.restrictions.verifiers name).getD
        ((state.passetsVerifierCache.get? name).or
          (state.prestricteddb.verifier.lookup name)) := by
    unfold getAssetVerifierStringIfExists Pending.read RestrictionLayer.verifiers restrictions
    simp only [Bool.false_eq_true, if_false]
    cases cache.setNewRestrictedVerifierToRemove.lookup name <;>
      cases state.passets.setNewRestrictedVerifierToRemove.lookup name <;>
      cases cache.setNewRestrictedVerifierToAdd.lookup name <;>
      cases state.passets.setNewRestrictedVerifierToAdd.lookup name <;>
      cases state.passetsVerifierCache.get? name <;> rfl
  rw [order, cached, Pending.read_eq verifierReading unshadowed, Pending.value]

end Phicoin
