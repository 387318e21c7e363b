import Phicoin.MempoolRuns

/-! # The asset maps mirror the pool

A pool is followed together with what was read of the node when each of its
transactions was accepted, so the maps can be compared with the entries that the
transactions generate.  They agree as long
as no transaction leaves that issued several names or changed a tag, none issues
a unique asset that the pool has, and the pool is not cleared while it has a
reissue. -/

namespace Phicoin

open Mempool List Option

/-- A pool, and the context in which a transaction was accepted last. -/
structure TrackedPool where
  pool : Mempool
  contexts : KeyedMap Uint256 AcceptContext

namespace TrackedPool

def initial : TrackedPool := ⟨.empty, ∅⟩

variable (s : TrackedPool)

def Generates {K : Type} (keys : AcceptContext → Transaction → List K) (key : K)
    (hash : Uint256) : Prop :=
  ∃ entry context, s.pool.mapTx.lookup hash = some entry ∧
    s.contexts.lookup hash = some context ∧ key ∈ keys context entry.tx

def step : MempoolStep → Option TrackedPool
  | .accept policy context global nSpendHeight args tx =>
    match s.pool.acceptToMemoryPoolWorker policy context.env global context.coins nSpendHeight args
      tx with
    | (pool, .ok ()) => some ⟨pool, s.contexts.insert tx.hash context⟩
    | (_, .error _) => none
  | .removeUnchecked hash => some ⟨s.pool.removeUnchecked hash, s.contexts⟩
  | .removeForBlock env global coins connected vtx =>
    some ⟨s.pool.removeForBlock env global coins connected vtx, s.contexts⟩
  | .clear => some ⟨s.pool.clear, s.contexts⟩

def leavesNothing (hash : Uint256) (tx : Transaction) : Bool :=
  (s.contexts.lookup hash).all fun context =>
    (outputKeys issuedName context tx).length ≤ 1 && (outputKeys addTagKey context tx).isEmpty &&
      (outputKeys removeTagKey context tx).isEmpty

def leaveNothing (after : Mempool) : Bool :=
  s.pool.mapTx.entries.all fun item => after.contains item.1 || s.leavesNothing item.1 item.2.tx

def keepsMaps : MempoolStep → Bool
  | .accept policy context global nSpendHeight args tx =>
    s.pool.assets.uniquesFree context.env tx &&
      s.leaveNothing (s.pool.acceptToMemoryPoolWorker policy context.env global context.coins
        nSpendHeight args tx).1
  | .removeUnchecked hash => s.leaveNothing (s.pool.removeUnchecked hash)
  | .removeForBlock env global coins connected vtx =>
    s.leaveNothing (s.pool.removeForBlock env global coins connected vtx)
  | .clear => s.pool.mapTx.entries.all fun item =>
    (s.contexts.lookup item.1).all fun context =>
      (outputKeys reissuedName context item.2.tx).isEmpty

end TrackedPool

open TrackedPool

/-- Every map has exactly what the transactions of the pool generate. -/
structure MirrorsPool (s : TrackedPool) : Prop where
  assetToHash : KeyedMap.Holds s.pool.assets.mapAssetToHash (s.Generates (outputKeys issuedName))
  reissuedAssets : KeyedMap.Holds s.pool.assets.mapReissuedAssets (s.Generates (outputKeys reissuedName))
  reissuedTx : KeyedMap.Holds s.pool.assets.mapReissuedTx fun hash name =>
    s.Generates (outputKeys reissuedName) name hash
  markedFrozen : s.pool.mapAddressesMarkedFrozen.Mirrors (s.Generates (inputKeys frozenKey))
  markedGlobalFrozen : s.pool.mapAssetMarkedGlobalFrozen.Mirrors
    (s.Generates (inputKeys globalFrozenKey))
  qualifiersChanged : s.pool.mapAddressesQualifiersChanged.Mirrors
    (s.Generates (outputKeys restrictedAddress))
  verifierChanged : s.pool.mapAssetVerifierChanged.Mirrors (s.Generates (outputKeys restrictedName))
  freezing : s.pool.mapGlobalFreezingAssetTransactions.Mirrors (s.Generates (outputKeys freezeKey))
  unfreezing : s.pool.mapGlobalUnFreezingAssetTransactions.Mirrors
    (s.Generates (outputKeys unfreezeKey))
  addedTag : s.pool.mapAddressAddedTag.Mirrors (s.Generates (outputKeys addTagKey))
  removeTag : s.pool.mapAddressRemoveTag.Mirrors (s.Generates (outputKeys removeTagKey))

def lastIssued (context : AcceptContext) (tx : Transaction) : List Bytes :=
  (outputKeys issuedName context tx).getLast?.toList

/-- The invariant: beyond the maps themselves, which name is kept of a transaction,
and that the name of an owner token is recorded only with its asset. -/
structure Tracked (s : TrackedPool) : Prop extends MirrorsPool s where
  hashToAsset : KeyedMap.Holds s.pool.mapHashToAsset fun hash name => s.Generates lastIssued name hash
  marked : ∀ name hash, s.Generates (outputKeys issuedName) name hash → (33 : UInt8) ∈ name →
    ∃ issued, name = issued ++ ownerTag ∧ s.Generates (outputKeys issuedName) issued hash

section

variable {pool : Mempool} {contexts : KeyedMap Uint256 AcceptContext} {hash : Uint256}

theorem Tracked.congr (tracked : Tracked ⟨pool, contexts⟩) {mapTx : KeyedMap Uint256 MempoolEntry}
    {mapNextTx : KeyedMap OutPoint Uint256} {mapDeltas : KeyedMap Uint256 Int}
    {contexts' : KeyedMap Uint256 AcceptContext}
    (same : ∀ {K : Type} (keys : AcceptContext → Transaction → List K) (key : K) (hash : Uint256),
      TrackedPool.Generates ⟨pool, contexts⟩ keys key hash ↔
        TrackedPool.Generates ⟨{ pool with
          mapTx := mapTx, mapNextTx := mapNextTx, mapDeltas := mapDeltas }, contexts'⟩
          keys key hash) :
    Tracked ⟨{ pool with mapTx := mapTx, mapNextTx := mapNextTx, mapDeltas := mapDeltas },
      contexts'⟩ where
  assetToHash := tracked.assetToHash.congr (same _)
  reissuedAssets := tracked.reissuedAssets.congr (same _)
  reissuedTx := tracked.reissuedTx.congr fun hash name => same _ name hash
  markedFrozen := tracked.markedFrozen.congr (same _)
  markedGlobalFrozen := tracked.markedGlobalFrozen.congr (same _)
  qualifiersChanged := tracked.qualifiersChanged.congr (same _)
  verifierChanged := tracked.verifierChanged.congr (same _)
  freezing := tracked.freezing.congr (same _)
  unfreezing := tracked.unfreezing.congr (same _)
  addedTag := tracked.addedTag.congr (same _)
  removeTag := tracked.removeTag.congr (same _)
  hashToAsset := tracked.hashToAsset.congr fun hash name => same _ name hash
  marked name hash generated isMarked := by
    obtain ⟨issued, named, asset⟩ := tracked.marked name hash ((same _ name hash).mpr generated) isMarked
    exact ⟨issued, named, (same _ issued hash).mp asset⟩

theorem generates_removeUnchecked {K : Type} (keys : AcceptContext → Transaction → List K) (key : K)
    (other : Uint256) : TrackedPool.Generates ⟨pool.removeUnchecked hash, contexts⟩ keys key other ↔
      TrackedPool.Generates ⟨pool, contexts⟩ keys key other ∧ other ≠ hash := by
  unfold TrackedPool.Generates
  simp only [lookup_removeUnchecked]
  by_cases same : other = hash
  · simp [same]
  · simp [same]

theorem releaseReissue_holds {assets : MempoolMaps} {R : Bytes → Uint256 → Prop}
    (reissuedAssets : KeyedMap.Holds assets.mapReissuedAssets R)
    (reissuedTx : KeyedMap.Holds assets.mapReissuedTx fun owner name => R name owner) :
    KeyedMap.Holds (releaseReissue assets hash).mapReissuedAssets
        (fun name owner => R name owner ∧ owner ≠ hash) ∧
      KeyedMap.Holds (releaseReissue assets hash).mapReissuedTx
        fun owner name => R name owner ∧ owner ≠ hash := by
  unfold releaseReissue
  cases found : assets.mapReissuedTx.lookup hash with
  | none =>
    have nothing : ∀ name, ¬ R name hash := by
      intro name related
      rw [(reissuedTx hash name).mpr related] at found
      cases found
    refine ⟨reissuedAssets.without_value nothing, reissuedTx.congr fun owner name => ?_⟩
    exact ⟨fun related => ⟨related, fun same => nothing name (same ▸ related)⟩, And.left⟩
  | some name =>
    have related := (reissuedTx hash name).mp found
    have only : ∀ other, R other hash ↔ other = name := by
      intro other
      refine (reissuedTx hash other).symm.trans ?_
      rw [found]
      exact ⟨fun same => (Option.some.inj same).symm, fun same => congrArg some same.symm⟩
    have present : (assets.mapReissuedAssets.lookup name).isSome = true := by
      rw [(reissuedAssets name hash).mpr related]
      rfl
    dsimp only
    rw [if_pos present]
    exact ⟨reissuedAssets.erase_value only, reissuedTx.erase_key hash⟩

theorem mapAssetToHash_releaseReissue (assets : MempoolMaps) :
    (releaseReissue assets hash).mapAssetToHash = assets.mapAssetToHash := by
  unfold releaseReissue
  split
  · split_ifs <;> rfl
  · rfl

theorem releaseIssue_reissues (mapHashToAsset : KeyedMap Uint256 Bytes) (assets : MempoolMaps) :
    (releaseIssue mapHashToAsset assets hash).mapReissuedAssets = assets.mapReissuedAssets ∧
      (releaseIssue mapHashToAsset assets hash).mapReissuedTx = assets.mapReissuedTx := by
  unfold releaseIssue
  split <;> exact ⟨rfl, rfl⟩

theorem releaseIssue_holds {mapHashToAsset : KeyedMap Uint256 Bytes} {assets : MempoolMaps}
    {R : Bytes → Uint256 → Prop} (assetToHash : KeyedMap.Holds assets.mapAssetToHash R)
    (kept : ∀ name, mapHashToAsset.lookup hash = some name ↔ R name hash) :
    KeyedMap.Holds (releaseIssue mapHashToAsset assets hash).mapAssetToHash
      fun name owner => R name owner ∧ owner ≠ hash := by
  unfold releaseIssue
  cases found : mapHashToAsset.lookup hash with
  | none =>
    apply assetToHash.without_value
    intro name related
    rw [(kept name).mpr related] at found
    cases found
  | some name =>
    apply assetToHash.erase_value
    intro other
    rw [← kept other, found]
    exact ⟨fun same => (Option.some.inj same).symm, fun same => congrArg some same.symm⟩

theorem Tracked.removeUnchecked (tracked : Tracked ⟨pool, contexts⟩) {entry : MempoolEntry}
    (found : pool.mapTx.lookup hash = some entry)
    (simple : TrackedPool.leavesNothing ⟨pool, contexts⟩ hash entry.tx = true) :
    Tracked ⟨pool.removeUnchecked hash, contexts⟩ := by
  have removed := @generates_removeUnchecked pool contexts hash
  have of_hash : ∀ {K : Type} {keys : AcceptContext → Transaction → List K} {key : K},
      TrackedPool.Generates ⟨pool, contexts⟩ keys key hash →
      ∃ context, (outputKeys issuedName context entry.tx).length ≤ 1 ∧
        outputKeys addTagKey context entry.tx = [] ∧
        outputKeys removeTagKey context entry.tx = [] ∧ contexts.lookup hash = some context ∧
        key ∈ keys context entry.tx := by
    rintro K keys key ⟨other, context, again, accepted, generated⟩
    obtain rfl := Option.some.inj (found.symm.trans again)
    rw [TrackedPool.leavesNothing, accepted] at simple
    simp only [Option.all_some, Bool.and_eq_true, decide_eq_true_eq, List.isEmpty_iff] at simple
    exact ⟨context, simple.1.1, simple.1.2, simple.2, accepted, generated⟩
  have kept : ∀ name, pool.mapHashToAsset.lookup hash = some name ↔
      TrackedPool.Generates ⟨pool, contexts⟩ (outputKeys issuedName) name hash := by
    intro name
    rw [tracked.hashToAsset hash name]
    constructor
    · rintro ⟨other, context, again, accepted, generated⟩
      exact ⟨other, context, again, accepted,
        mem_of_getLast? (mem_toList.mp generated)⟩
    · intro generated
      obtain ⟨context, single, _, _, accepted, member⟩ := of_hash generated
      refine ⟨entry, context, found, accepted, ?_⟩
      unfold lastIssued
      match outputKeys issuedName context entry.tx, single, member with
      | [only], _, member => simpa using member
  obtain ⟨sameAssets, sameTx⟩ := @releaseIssue_reissues hash pool.mapHashToAsset
    (releaseReissue pool.assets hash)
  obtain ⟨reissuedAssets, reissuedTx⟩ := @releaseReissue_holds hash pool.assets _
    tracked.reissuedAssets tracked.reissuedTx
  rw [← sameAssets] at reissuedAssets
  rw [← sameTx] at reissuedTx
  have assetToHash := tracked.assetToHash
  rw [← @mapAssetToHash_releaseReissue hash] at assetToHash
  have noTags : ∀ key, ¬ TrackedPool.Generates ⟨pool, contexts⟩ (outputKeys addTagKey) key hash ∧
      ¬ TrackedPool.Generates ⟨pool, contexts⟩ (outputKeys removeTagKey) key hash := by
    intro key
    constructor <;> intro generated <;>
    · obtain ⟨context, _, noAdded, noRemoved, _, member⟩ := of_hash generated
      simp [noAdded, noRemoved] at member
  have marked := tracked.marked
  rw [Mempool.removeUnchecked, found] at removed ⊢
  have left := fun {K : Type} keys (key : K) other => (removed keys key other).symm
  exact {
    assetToHash := (releaseIssue_holds assetToHash kept).congr (left _)
    reissuedAssets := reissuedAssets.congr (left _)
    reissuedTx := reissuedTx.congr fun other name => (removed _ name other).symm
    markedFrozen := (tracked.markedFrozen.release hash).congr (left _)
    markedGlobalFrozen := (tracked.markedGlobalFrozen.release hash).congr (left _)
    qualifiersChanged := (tracked.qualifiersChanged.release hash).congr (left _)
    verifierChanged := (tracked.verifierChanged.release hash).congr (left _)
    freezing := (tracked.freezing.releasePruning hash).congr (left _)
    unfreezing := (tracked.unfreezing.releasePruning hash).congr (left _)
    addedTag := (tracked.addedTag.releaseForward fun key => (noTags key).1).congr (left _)
    removeTag := (tracked.removeTag.releaseForward fun key => (noTags key).2).congr (left _)
    hashToAsset := (tracked.hashToAsset.erase_key hash).congr fun other name =>
      (removed _ name other).symm
    marked := by
      intro name other generated isMarked
      obtain ⟨old, differs⟩ := (removed _ name other).mp generated
      obtain ⟨issued, named, asset⟩ := marked name other old isMarked
      exact ⟨issued, named, (removed _ issued other).mpr ⟨asset, differs⟩⟩ }

theorem Tracked.removal {final : Mempool} (tracked : Tracked ⟨pool, contexts⟩)
    (removal : Removal pool final)
    (gone : ∀ hash entry, pool.mapTx.lookup hash = some entry → final.mapTx.lookup hash = none →
      TrackedPool.leavesNothing ⟨pool, contexts⟩ hash entry.tx = true) :
    Tracked ⟨final, contexts⟩ := by
  refine removal.invariant (fun after => Tracked ⟨after, contexts⟩)
    (fun hash entry => TrackedPool.leavesNothing ⟨pool, contexts⟩ hash entry.tx = true) tracked gone
    ?_ ?_
  · intro after hash entry kept found simple
    exact kept.removeUnchecked found simple
  · intro after hash kept
    exact kept.congr fun keys key other => Iff.rfl

theorem tracked_of_empty {mapDeltas : KeyedMap Uint256 Int} {assets : MempoolMaps}
    (reissuedAssets : KeyedMap.Holds assets.mapReissuedAssets fun _ _ => False)
    (reissuedTx : KeyedMap.Holds assets.mapReissuedTx fun _ _ => False) :
    Tracked ⟨{ Mempool.empty with
      mapDeltas := mapDeltas, assets := { assets with mapAssetToHash := ∅ } }, contexts⟩ := by
  have nothing : ∀ {K : Type} (keys : AcceptContext → Transaction → List K) (key : K)
      (hash : Uint256), False ↔ TrackedPool.Generates ⟨{ Mempool.empty with
        mapDeltas := mapDeltas, assets := { assets with mapAssetToHash := ∅ } }, contexts⟩
        keys key hash := by
    intro K keys key hash
    constructor
    · exact False.elim
    · rintro ⟨entry, context, found, _⟩
      cases found
  have none_holds : ∀ {K V : Type} [DecidableEq K],
      KeyedMap.Holds (∅ : KeyedMap K V) fun _ _ => False := by
    intro K V _ key value
    simp
  exact {
    assetToHash := none_holds.congr (nothing _)
    reissuedAssets := reissuedAssets.congr (nothing _)
    reissuedTx := reissuedTx.congr fun hash name => nothing _ name hash
    markedFrozen := SetIndex.Mirrors.empty.congr (nothing _)
    markedGlobalFrozen := SetIndex.Mirrors.empty.congr (nothing _)
    qualifiersChanged := SetIndex.Mirrors.empty.congr (nothing _)
    verifierChanged := SetIndex.Mirrors.empty.congr (nothing _)
    freezing := SetIndex.Mirrors.empty.congr (nothing _)
    unfreezing := SetIndex.Mirrors.empty.congr (nothing _)
    addedTag := SetIndex.Mirrors.empty.congr (nothing _)
    removeTag := SetIndex.Mirrors.empty.congr (nothing _)
    hashToAsset := none_holds.congr fun hash name => nothing _ name hash
    marked := fun name hash generated _ => ((nothing _ name hash).mpr generated).elim }

theorem Tracked.clear (tracked : Tracked ⟨pool, contexts⟩) (noReissue : ∀ name hash,
      ¬ TrackedPool.Generates ⟨pool, contexts⟩ (outputKeys reissuedName) name hash) :
    Tracked ⟨pool.clear, contexts⟩ :=
  tracked_of_empty
    (tracked.reissuedAssets.congr fun name hash => iff_false_intro (noReissue name hash))
    (tracked.reissuedTx.congr fun hash name => iff_false_intro (noReissue name hash))

end

section

variable {pool : Mempool} {contexts : KeyedMap Uint256 AcceptContext} {context : AcceptContext}
  {tx : Transaction}
  {entry : MempoolEntry} {final : Mempool}

theorem generates_insert {K : Type} (keys : AcceptContext → Transaction → List K) (key : K)
    (other : Uint256) (absent : contexts.lookup tx.hash = none)
    (stored : pool.mapTx.lookup tx.hash = some entry) (isTx : entry.tx = tx)
    (sameTx : final.mapTx = pool.mapTx) :
    (TrackedPool.Generates ⟨pool, contexts⟩ keys key other ∨ key ∈ keys context tx ∧ other = tx.hash) ↔
      TrackedPool.Generates ⟨final, contexts.insert tx.hash context⟩ keys key other := by
  unfold TrackedPool.Generates
  simp only [sameTx, KeyedMap.lookup_insert_ite]
  by_cases same : other = tx.hash
  · subst same
    simp [absent, stored, isTx]
  · simp [same]

/-- The names of a transaction about to be recorded, none of which the pool has. -/
structure FreshNames (s : TrackedPool) (context : AcceptContext) (tx : Transaction)
    (vReissueAssets : List (Bytes × Uint256)) : Prop where
  reissues : vReissueAssets = (outputKeys reissuedName context tx).map (·, tx.hash)
  oneReissue : ∀ a ∈ outputKeys reissuedName context tx,
    ∀ b ∈ outputKeys reissuedName context tx, a = b
  reissueFree : ∀ name owner, name ∈ outputKeys reissuedName context tx →
    ¬ s.Generates (outputKeys reissuedName) name owner
  issueFree : ∀ name owner, name ∈ outputKeys issuedName context tx →
    ¬ s.Generates (outputKeys issuedName) name owner
  marked : ∀ name ∈ outputKeys issuedName context tx, (33 : UInt8) ∈ name →
    ∃ issued ∈ outputKeys issuedName context tx, name = issued ++ ownerTag

theorem FreshNames.mono {s t : TrackedPool} {vReissueAssets : List (Bytes × Uint256)}
    (fresh : FreshNames s context tx vReissueAssets)
    (fewer : ∀ {K : Type} (keys : AcceptContext → Transaction → List K) (key : K) (owner : Uint256),
      t.Generates keys key owner → s.Generates keys key owner) :
    FreshNames t context tx vReissueAssets where
  reissues := fresh.reissues
  oneReissue := fresh.oneReissue
  reissueFree name owner member generated :=
    fresh.reissueFree name owner member (fewer _ name owner generated)
  issueFree name owner member generated :=
    fresh.issueFree name owner member (fewer _ name owner generated)
  marked := fresh.marked

variable (tracked : Tracked ⟨pool, contexts⟩)

include tracked

theorem Tracked.register (absent : contexts.lookup tx.hash = none)
    (stored : pool.mapTx.lookup tx.hash = some entry) (isTx : entry.tx = tx)
    {acceptance : Acceptance}
    (fresh : FreshNames ⟨pool, contexts⟩ context tx acceptance.vReissueAssets)
    (passes : pool.register context.env context.coins tx acceptance = (final, .ok ())) :
    Tracked ⟨final, contexts.insert tx.hash context⟩ := by
  have recorded := recorded_of_register passes fresh.reissues
  have unrecorded : ∀ {K : Type} (keys : AcceptContext → Transaction → List K) (key : K),
      ¬ TrackedPool.Generates ⟨pool, contexts⟩ keys key tx.hash := by
    rintro K keys key ⟨_, other, _, accepted, _⟩
    rw [absent] at accepted
    cases accepted
  have added : ∀ {K : Type} (keys : AcceptContext → Transaction → List K) (key : K)
      (other : Uint256), (TrackedPool.Generates ⟨pool, contexts⟩ keys key other ∨
        key ∈ keys context tx ∧ other = tx.hash) ↔
        TrackedPool.Generates ⟨final, contexts.insert tx.hash context⟩ keys key other :=
    fun keys key other => generates_insert keys key other absent stored isTx recorded.mapTx
  exact {
    assetToHash := recorded.assetToHash ▸ (tracked.assetToHash.join_keys (fun _ _ => .inl rfl)
      fun name owner member old => absurd old (fresh.issueFree name owner member)).congr (added _)
    reissuedAssets := recorded.reissuedAssets ▸
      (tracked.reissuedAssets.join_keys (fun _ _ => .inr rfl)
        fun name owner member old => absurd old (fresh.reissueFree name owner member)).congr (added _)
    reissuedTx := recorded.reissuedTx ▸
      (tracked.reissuedTx.insertNew_values fun a member b either => fresh.oneReissue a member b
        (either.resolve_left (unrecorded _ b))).congr
        fun other name => added _ name other
    markedFrozen := recorded.markedFrozen ▸ (tracked.markedFrozen.recordAll _ _).congr (added _)
    markedGlobalFrozen := recorded.markedGlobalFrozen ▸
      (tracked.markedGlobalFrozen.recordAll _ _).congr (added _)
    qualifiersChanged := recorded.qualifiersChanged ▸
      (tracked.qualifiersChanged.recordAll _ _).congr (added _)
    verifierChanged := recorded.verifierChanged ▸
      (tracked.verifierChanged.recordAll _ _).congr (added _)
    freezing := recorded.freezing ▸ (tracked.freezing.recordAll _ _).congr (added _)
    unfreezing := recorded.unfreezing ▸ (tracked.unfreezing.recordAll _ _).congr (added _)
    addedTag := recorded.addedTag ▸ (tracked.addedTag.recordAll _ _).congr (added _)
    removeTag := recorded.removeTag ▸ (tracked.removeTag.recordAll _ _).congr (added _)
    hashToAsset := recorded.hashToAsset ▸
      (tracked.hashToAsset.insert_values fun name => unrecorded _ name).congr
        fun other name => added lastIssued name other
    marked := by
      intro name other generated isMarked
      rcases (added _ name other).mpr generated with old | ⟨member, rfl⟩
      · obtain ⟨issued, named, asset⟩ := tracked.marked name other old isMarked
        exact ⟨issued, named, (added _ issued other).mp (.inl asset)⟩
      · obtain ⟨issued, asset, named⟩ := fresh.marked name member isMarked
        exact ⟨issued, named, (added _ issued tx.hash).mp (.inr ⟨asset, rfl⟩)⟩ }

theorem Tracked.freshNames {global : AssetState} {acceptance : Acceptance}
    (checked : AcceptanceChecked context.env global context.coins pool tx acceptance)
    (uniques : pool.assets.uniquesFree context.env tx = true) :
    FreshNames ⟨pool, contexts⟩ context tx acceptance.vReissueAssets := by
  have names := acceptedNames checked
  have foreign : ∀ name, pool.assets.mapReissuedAssets.lookup name ≠ some tx.hash := by
    intro name found
    obtain ⟨entry, _, inPool, _⟩ := (tracked.reissuedAssets name tx.hash).mp found
    have fresh := checked.fresh
    rw [Mempool.contains, inPool] at fresh
    cases fresh
  obtain ⟨reissues, oneReissue, reissueAbsent⟩ := acceptedReissues checked foreign
  have issuedFree : ∀ name owner, name ∈ tx.issuedNames context.env →
      ¬ TrackedPool.Generates ⟨pool, contexts⟩ (outputKeys issuedName) name owner := by
    intro name owner issued generated
    have free := names.free uniques name issued
    rw [(tracked.assetToHash name owner).mpr generated] at free
    cases free
  refine ⟨reissues, oneReissue, ?_, ?_, ?_⟩
  · intro name owner member generated
    have free := reissueAbsent name member
    rw [(tracked.reissuedAssets name owner).mpr generated] at free
    cases free
  · intro name owner member generated
    rcases names.source name member with issued | ⟨issued, inNames, rfl⟩
    · exact issuedFree name owner issued generated
    · -- the owner token of another transaction would come with the same asset
      obtain ⟨other, sameName, asset⟩ := tracked.marked _ owner generated
        (mem_append_right _ (by decide))
      rw [← append_cancel_right sameName] at asset
      exact issuedFree issued owner inNames asset
  · intro name member isMarked
    rcases names.source name member with issued | ⟨issued, inNames, rfl⟩
    · exact absurd isMarked (names.unmarked name issued)
    · exact ⟨issued, names.recorded issued inNames, rfl⟩

theorem Tracked.of_contexts {contexts' : KeyedMap Uint256 AcceptContext}
    (same : ∀ hash entry, pool.mapTx.lookup hash = some entry →
      contexts'.lookup hash = contexts.lookup hash) : Tracked ⟨pool, contexts'⟩ := by
  refine tracked.congr fun keys key owner => ?_
  constructor
  · rintro ⟨entry, context, found, known, member⟩
    exact ⟨entry, context, found, (same owner entry found).trans known, member⟩
  · rintro ⟨entry, context, found, known, member⟩
    exact ⟨entry, context, found, (same owner entry found).symm.trans known, member⟩

theorem Tracked.addUnchecked (fresh : pool.mapTx.lookup entry.tx.hash = none)
    (contextless : contexts.lookup entry.tx.hash = none) :
    Tracked ⟨pool.addUnchecked entry, contexts⟩ := by
  refine tracked.congr fun keys key owner => ?_
  have stored := lookup_addUnchecked pool entry owner fresh
  by_cases same : owner = entry.tx.hash
  · constructor
    · rintro ⟨_, _, _, known, _⟩
      rw [same, contextless] at known
      cases known
    · rintro ⟨_, _, _, known, _⟩
      rw [same, contextless] at known
      cases known
  · rw [if_neg same] at stored
    constructor
    · rintro ⟨other, context, found, known⟩
      exact ⟨other, context, stored.trans found, known⟩
    · rintro ⟨other, context, found, known⟩
      exact ⟨other, context, stored.symm.trans found, known⟩

theorem Tracked.accept {policy : MempoolPolicy}
    {global : AssetState} {nSpendHeight : Nat} {args : AcceptArgs}
    (passes : pool.acceptToMemoryPoolWorker policy context.env global context.coins nSpendHeight args
      tx = (final, .ok ())) (uniques : pool.assets.uniquesFree context.env tx = true)
    (gone : ∀ hash entry, pool.mapTx.lookup hash = some entry → final.mapTx.lookup hash = none →
      TrackedPool.leavesNothing ⟨pool, contexts⟩ hash entry.tx = true) :
    Tracked ⟨final, contexts.insert tx.hash context⟩ := by
  obtain ⟨fresh, accepted⟩ := acceptToMemoryPoolWorker_ok passes
  have absent : pool.mapTx.lookup tx.hash = none := by simpa [Mempool.contains] using fresh
  have other_of_found : ∀ hash entry, pool.mapTx.lookup hash = some entry → hash ≠ tx.hash := by
    rintro hash entry found rfl
    rw [absent] at found
    cases found
  rcases accepted with rfl | ⟨acceptance, checked, kept, recorded⟩
  · refine tracked.of_contexts fun hash entry found => ?_
    rw [KeyedMap.lookup_insert_ite, if_neg (other_of_found hash entry found)]
  have names := tracked.freshNames checked uniques
  have sameTx := (recorded_of_register recorded names.reissues).mapTx
  -- while the transaction is stored and not yet recorded, it has no context
  have sameContext : ∀ other, other ≠ tx.hash →
      (contexts.erase tx.hash).lookup other = contexts.lookup other := by
    intro other differs
    rw [KeyedMap.lookup_erase_ite, if_neg differs]
  have contextless : (contexts.erase tx.hash).lookup tx.hash = none := by
    rw [KeyedMap.lookup_erase_ite, if_pos rfl]
  have erased : Tracked ⟨pool, contexts.erase tx.hash⟩ :=
    tracked.of_contexts fun hash entry found => sameContext hash (other_of_found hash entry found)
  obtain ⟨entry, stored⟩ := isSome_iff_exists.mp kept
  have entries := @lookup_storeLimited policy args pool acceptance (by rw [checked.stored, absent])
  rw [checked.stored] at entries
  have limited : Tracked ⟨pool.storeLimited policy args acceptance, contexts.erase tx.hash⟩ := by
    refine storeLimited_invariant (fun after => Tracked ⟨after, contexts.erase tx.hash⟩)
      (fun hash entry => TrackedPool.leavesNothing ⟨pool, contexts.erase tx.hash⟩ hash entry.tx = true)
      (by rw [checked.stored, absent]) erased ?_ (.inl (by rw [checked.stored, kept])) ?_ ?_ ?_
    · intro hash entry found left
      have simple := gone hash entry found (by rw [sameTx, left])
      rwa [TrackedPool.leavesNothing, ← sameContext hash (other_of_found hash entry found)] at simple
    · intro after hash entry kept found simple
      exact kept.removeUnchecked found simple
    · intro after hash kept
      exact kept.congr fun keys key other => Iff.rfl
    · intro after notYet kept
      exact kept.addUnchecked notYet (by rw [checked.stored, contextless])
  have isTx : entry.tx = tx := by
    rcases entries stored with ⟨_, same⟩ | ⟨differs, _⟩
    · exact same
    · exact absurd rfl differs
  have still : FreshNames ⟨pool.storeLimited policy args acceptance, contexts.erase tx.hash⟩ context tx
      acceptance.vReissueAssets := by
    refine names.mono fun keys key owner held => ?_
    obtain ⟨other, accepted, found, known, member⟩ := held
    rcases entries found with ⟨rfl, _⟩ | ⟨differs, _, before⟩
    · rw [contextless] at known
      cases known
    · exact ⟨other, accepted, before, (sameContext owner differs).symm.trans known, member⟩
  refine (limited.register contextless stored isTx still recorded).of_contexts fun hash _ _ => ?_
  rw [KeyedMap.lookup_insert_ite, KeyedMap.lookup_insert_ite, KeyedMap.lookup_erase_ite]
  split_ifs <;> rfl

end

theorem tracked_initial : Tracked .initial :=
  @tracked_of_empty ∅ ∅ .empty (fun _ _ => by simp [MempoolMaps.empty])
    fun _ _ => by simp [MempoolMaps.empty]

variable {s : TrackedPool}

theorem TrackedPool.leavesNothing_of_gone {after : Mempool}
    (simple : s.leaveNothing after = true) (hash : Uint256) (entry : MempoolEntry)
    (found : s.pool.mapTx.lookup hash = some entry) (gone : after.mapTx.lookup hash = none) :
    s.leavesNothing hash entry.tx = true := by
  have item := all_eq_true.mp simple ⟨hash, entry⟩ (AList.mem_lookup_iff.mp found)
  simpa [Mempool.contains, gone] using item

theorem Tracked.step {s' : TrackedPool} {op : MempoolStep} (tracked : Tracked s)
    (keeps : s.keepsMaps op = true) (steps : s.step op = some s') : Tracked s' := by
  cases op with
  | accept policy context global nSpendHeight args tx =>
    rw [keepsMaps, Bool.and_eq_true] at keeps
    obtain ⟨uniques, simple⟩ := keeps
    have gone := leavesNothing_of_gone simple
    rw [TrackedPool.step] at steps
    generalize result : s.pool.acceptToMemoryPoolWorker policy context.env global context.coins
      nSpendHeight args tx = outcome at steps gone
    obtain ⟨final, verdict⟩ := outcome
    cases verdict with
    | error reason => cases steps
    | ok u =>
      obtain rfl := Option.some.inj steps
      exact tracked.accept result uniques gone
  | removeUnchecked hash =>
    obtain rfl := Option.some.inj steps
    exact tracked.removal (.unchecked hash (.refl _)) (leavesNothing_of_gone keeps)
  | removeForBlock env global coins connected vtx =>
    obtain rfl := Option.some.inj steps
    exact tracked.removal (removal_removeForBlock _ _ _ _ _ _) (leavesNothing_of_gone keeps)
  | clear =>
    obtain rfl := Option.some.inj steps
    refine tracked.clear ?_
    rintro name hash ⟨entry, context, found, known, member⟩
    have item := all_eq_true.mp keeps ⟨hash, entry⟩ (AList.mem_lookup_iff.mp found)
    simp only [known, Option.all_some, List.isEmpty_iff] at item
    rw [item] at member
    cases member

/-- Over every run in which no transaction leaves that issued several names or
changed a tag, no unique asset is issued that the pool has, and no reissue is in a
pool that is cleared, the maps have exactly what the pool generates. -/
theorem mempool_maps_mirror {s : TrackedPool}
    (run : Runs.Run TrackedPool.step TrackedPool.keepsMaps .initial s) : MirrorsPool s :=
  (run.invariant Tracked tracked_initial fun _ _ _ => Tracked.step).toMirrorsPool

open MainNet

namespace MempoolMirror

def state : AssetState :=
  recording [⟨ascii "ROOT", coin, 0, 1, 0, []⟩, ⟨ascii "#TAG", coin, 0, 0, 0, []⟩]

def view : CoinsView :=
  coins [(⟨7, 0⟩, pay coin alice),
    (⟨7, 1⟩, transfer (ascii "ROOT!") coin), (⟨8, 0⟩, pay coin alice),
    (⟨8, 1⟩, transfer (ascii "#TAG") coin)]

def unique (name : String) : NewAsset := ⟨ascii name, coin, 0, 0, 0, []⟩

def uniques (hash : Uint256) (names : List String) : Transaction :=
  transaction hash [⟨7, 0⟩, ⟨7, 1⟩]
    (pay (coin / 10 * names.length) burnKey ::
      transfer (ascii "ROOT!") coin :: names.map fun name => issue (unique name))

def tagging : Transaction :=
  transaction 21 [⟨8, 0⟩, ⟨8, 1⟩]
    [pay (coin / 10) burnKey, tag (ascii "#TAG") 1 bob,
      transfer (ascii "#TAG") coin]

def reissuing : Transaction :=
  transaction 22 [⟨7, 0⟩, ⟨7, 1⟩]
    [pay (coin / 10) burnKey, transfer (ascii "ROOT!") coin,
      reissue ⟨ascii "ROOT", coin, -1, 1, []⟩]

def accept (tx : Transaction) : MempoolStep :=
  .accept policy ⟨env, view⟩ state 10 args tx

end MempoolMirror

open MempoolMirror

/-- Two acceptances, a removal, and an acceptance of the name that is free again. -/
theorem mempool_maps_mirror_unique :
    ∃ s, Runs.Run TrackedPool.step TrackedPool.keepsMaps .initial s ∧
      s.pool.assets.mapAssetToHash.lookup (ascii "ROOT#A") = some 23 ∧ MirrorsPool s := by
  have observed : (Runs.execute TrackedPool.step TrackedPool.keepsMaps .initial
      [accept tagging, accept (uniques 20 ["ROOT#A"]), .removeUnchecked 20,
        accept (uniques 23 ["ROOT#A", "ROOT#B"])]).bind
        (fun s => s.pool.assets.mapAssetToHash.lookup (ascii "ROOT#A")) = some 23 := by
    decide +kernel
  obtain ⟨s, run, found⟩ := Runs.exists_run_of_execute observed
  exact ⟨s, run, found, mempool_maps_mirror run⟩

theorem TrackedPool.Generates.inPool {K : Type}
    {keys : AcceptContext → Transaction → List K} {key : K} {hash : Uint256}
    (generated : s.Generates keys key hash) : s.pool.contains hash = true := by
  obtain ⟨entry, _, found, _⟩ := generated
  rw [Mempool.contains, found]
  rfl

/-- The maps name a transaction that the pool does not have, after several unique
assets were issued together, after a tag change, and after a reissue. -/
theorem mempool_maps_stale : (∃ s, Runs.Run TrackedPool.step (fun _ _ => true) .initial s ∧
      s.pool.contains 20 = false ∧
      s.pool.assets.mapAssetToHash.lookup (ascii "ROOT#A") = some 20 ∧ ¬ MirrorsPool s) ∧
    (∃ s, Runs.Run TrackedPool.step (fun _ _ => true) .initial s ∧
      s.pool.contains 21 = false ∧ SetIndex.get s.pool.mapAddressAddedTag.backward 21 =
        [(encodeDestination env (.keyId bob), ascii "#TAG")] ∧ ¬ MirrorsPool s) ∧
    ∃ s, Runs.Run TrackedPool.step (fun _ _ => true) .initial s ∧ s.pool.contains 22 = false ∧
      s.pool.assets.mapReissuedAssets.lookup (ascii "ROOT") = some 22 ∧ ¬ MirrorsPool s := by
  have issues : (Runs.execute TrackedPool.step (fun _ _ => true) .initial
      [accept (uniques 20 ["ROOT#A", "ROOT#B"]), .removeUnchecked 20]).bind
        (fun s => some (s.pool.contains 20,
          s.pool.assets.mapAssetToHash.lookup (ascii "ROOT#A"))) = some (false, some 20) := by
    decide +kernel
  have tags : (Runs.execute TrackedPool.step (fun _ _ => true) .initial
      [accept tagging, .removeUnchecked 21]).bind
        (fun s => some (s.pool.contains 21, SetIndex.get s.pool.mapAddressAddedTag.backward 21)) =
      some (false, [(encodeDestination env (.keyId bob), ascii "#TAG")]) := by
    decide +kernel
  have reissues : (Runs.execute TrackedPool.step (fun _ _ => true) .initial
      [accept reissuing, .clear]).bind
        (fun s => some (s.pool.contains 22,
          s.pool.assets.mapReissuedAssets.lookup (ascii "ROOT"))) = some (false, some 22) := by
    decide +kernel
  obtain ⟨s, run, seen⟩ := Runs.exists_run_of_execute issues
  obtain ⟨t, runTags, seenTags⟩ := Runs.exists_run_of_execute tags
  obtain ⟨u, runReissues, seenReissues⟩ := Runs.exists_run_of_execute reissues
  simp only [Option.some.injEq, Prod.mk.injEq] at seen seenTags seenReissues
  refine ⟨⟨s, run, seen.1, seen.2, fun mirrors => ?_⟩,
    ⟨t, runTags, seenTags.1, seenTags.2, fun mirrors => ?_⟩,
    u, runReissues, seenReissues.1, seenReissues.2, fun mirrors => ?_⟩
  · have inPool := ((mirrors.assetToHash _ _).mp seen.2).inPool
    rw [seen.1] at inPool
    cases inPool
  · have inPool := ((mirrors.addedTag.backward _ 21).mp
      (seenTags.2 ▸ mem_singleton_self _)).inPool
    rw [seenTags.1] at inPool
    cases inPool
  · have inPool := ((mirrors.reissuedAssets _ _).mp seenReissues.2).inPool
    rw [seenReissues.1] at inPool
    cases inPool

end Phicoin
