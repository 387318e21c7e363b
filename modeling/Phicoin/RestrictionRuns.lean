import Phicoin.BlockRestrictions

/-! # Freezes and verifier strings follow the chain

A node is asked whether an address or an asset is frozen and for the verifier string
of an asset.  Over every run of connected and disconnected blocks, dumps and refreshed
caches it answers as a replay of the active chain does, and through the cache of a
block as the chain with the transactions connected so far.  A block may bring a verifier
string with a reissue only when no other of its transactions issues or reissues the
asset, and in the cache of a block a change of what the global cache has undone is not
seen.  One environment stands for the deployments of a whole run: none is activated
within it. -/

namespace Phicoin

open Check KeyedMap AssetsCache List Option Prod AssetState Pending Node StoredSet

/-- The three lookups through a cache answer as the replay of a chain does. -/
structure Answers (env : Env) (state : AssetState) (cache : AssetsCache)
    (blocks : List (List Transaction)) : Prop where
  frozen : ∀ name address, cache.checkForAddressRestriction state name address false =
    frozenOn env blocks (name, address)
  frozenAll : ∀ name, cache.checkForGlobalRestriction state name false = frozenAllOn env blocks name
  verifier : ∀ name, cache.getAssetVerifierStringIfExists state name false =
    verifierOn env blocks name

/-- The same for what the cache did not change while the global cache has it undone. -/
structure AnswersUnshadowed (env : Env) (state : AssetState) (cache : AssetsCache)
    (blocks : List (List Transaction)) : Prop where
  frozen : ∀ name address, Pending.Unshadowed cache.restrictions.freezes
      state.passets.restrictions.freezes (name, address) →
    cache.checkForAddressRestriction state name address false = frozenOn env blocks (name, address)
  frozenAll : ∀ name, Pending.Unshadowed cache.restrictions.globalFreezes
      state.passets.restrictions.globalFreezes name →
    cache.checkForGlobalRestriction state name false = frozenAllOn env blocks name
  verifier : ∀ name, Pending.Unshadowed cache.restrictions.verifiers
      state.passets.restrictions.verifiers name →
    cache.getAssetVerifierStringIfExists state name false = verifierOn env blocks name

structure AssetState.Coherent (state : AssetState) : Prop where
  freezes : state.freezeStore.Coherent
  globalFreezes : state.globalFreezeStore.Coherent
  verifiers : state.VerifiersCoherent

structure Reflects (env : Env) (state : AssetState) (cache : AssetsCache)
    (blocks : List (List Transaction)) : Prop where
  frozen : Pending.value freezeReading cache.restrictions.freezes
    state.passets.restrictions.freezes state.freezeStore.has = frozenOn env blocks
  frozenAll : Pending.value globalReading cache.restrictions.globalFreezes
    state.passets.restrictions.globalFreezes state.globalFreezeStore.has = frozenAllOn env blocks
  verifier : Pending.value verifierReading cache.restrictions.verifiers
    state.passets.restrictions.verifiers (AList.lookup · state.prestricteddb.verifier) =
      verifierOn env blocks

namespace Reflects

variable {env : Env} {state : AssetState} {cache : AssetsCache} {blocks : List (List Transaction)}

theorem answersUnshadowed (reflects : Reflects env state cache blocks) (coherent : state.Coherent) :
    AnswersUnshadowed env state cache blocks where
  frozen name address unshadowed := by
    rw [checkForAddressRestriction_eq coherent.freezes unshadowed, reflects.frozen]
  frozenAll name unshadowed := by
    rw [checkForGlobalRestriction_eq coherent.globalFreezes unshadowed, reflects.frozenAll]
  verifier name unshadowed := by
    rw [getAssetVerifierStringIfExists_eq coherent.verifiers unshadowed, reflects.verifier]

theorem answers (reflects : Reflects env state cache blocks) (coherent : state.Coherent)
    (freezes : ∀ key, cache.restrictions.freezes.made.lookup key = none)
    (globalFreezes : ∀ name, cache.restrictions.globalFreezes.made.lookup name = none)
    (verifiers : ∀ name, cache.restrictions.verifiers.made.lookup name = none) :
    Answers env state cache blocks := by
  obtain ⟨frozen, frozenAll, verifier⟩ := reflects.answersUnshadowed coherent
  exact ⟨fun name address => frozen name address (.inl (freezes _)),
    fun name => frozenAll name (.inl (globalFreezes name)),
    fun name => verifier name (.inl (verifiers name))⟩

theorem restricting (reflects : Reflects env state .empty blocks) {txs : List Transaction}
    (restricting : Restricting env txs cache) : Reflects env state cache (txs :: blocks) where
  frozen := by
    rw [restricting.freezes, value_makeAll]
    exact congrArg (applied freezeReading · _) reflects.frozen
  frozenAll := by
    rw [restricting.globalFreezes, value_makeAll]
    exact congrArg (applied globalReading · _) reflects.frozenAll
  verifier := by
    rw [restricting.verifiers, value_makeAll]
    exact congrArg (applied verifierReading · _) reflects.verifier

theorem unrestricting {below : List Block} {block : Block}
    (reflects : Reflects env state .empty (transactionsOf (block :: below)))
    (unrestricting : Unrestricting env below block.vtx cache) :
    Reflects env state cache (transactionsOf below) where
  frozen := unrestricting.freezes.value_eq reflects.frozen
  frozenAll := unrestricting.globalFreezes.value_eq reflects.frozenAll
  verifier := unrestricting.verifiers.value_eq reflects.verifier

theorem flush (reflects : Reflects env state cache blocks) :
    Reflects env (state.flush cache) .empty blocks where
  frozen := by
    rw [← reflects.frozen]
    funext key
    exact value_flush freezeReading cache.restrictions.freezes
      state.passets.restrictions.freezes _ key
  frozenAll := by
    rw [← reflects.frozenAll]
    funext name
    exact value_flush globalReading cache.restrictions.globalFreezes
      state.passets.restrictions.globalFreezes _ name
  verifier := by
    rw [← reflects.verifier]
    funext name
    exact value_flush verifierReading cache.restrictions.verifiers
      state.passets.restrictions.verifiers _ name

variable (reflects : Reflects env state .empty blocks)

include reflects

theorem dump (removed : ∀ name, (state.passets.setNewAssetsToRemove.lookup name).isSome →
      verifierOn env blocks name = none) :
    Reflects env (state.dumpCacheToDatabase env) .empty blocks := by
  have sets := state.dumpCacheToDatabase_storedSets env
  simp only [AssetState.storedSets, Prod.mk.injEq] at sets
  obtain ⟨_, freezes, globalFreezes⟩ := sets
  constructor
  · rw [← reflects.frozen, freezes]
    funext key
    refine Eq.trans ?_ (Pending.value_dump freezeReading .empty _ _ key)
    exact congrArg (Pending.value freezeReading .empty .empty · key)
      (funext fun _ => StoredSet.has_dump freezeReading _ _ _)
  · rw [← reflects.frozenAll, globalFreezes]
    funext name
    refine Eq.trans ?_ (Pending.value_dump globalReading .empty _ _ name)
    exact congrArg (Pending.value globalReading .empty .empty · name)
      (funext fun _ => StoredSet.has_dump globalReading _ _ _)
  · rw [← reflects.verifier]
    funext name
    have value := congrFun reflects.verifier name
    have stored := congrArg Prod.fst (state.dumpCacheToDatabase_verifierAt env name)
    refine Eq.trans stored ?_
    rw [Pending.value, empty_verifiers, Pending.verdict_empty, Option.none_or] at value ⊢
    cases pending : state.passets.restrictions.verifiers.verdict verifierReading name with
    | some verifier => rfl
    | none =>
      rw [pending, Option.getD_none] at value
      dsimp only [Option.getD_none]
      split
      · rename_i gone
        exact (value.trans (removed name gone)).symm
      · rfl

end Reflects

namespace AssetState.Coherent

variable {env : Env} {state : AssetState} {blocks : List (List Transaction)}

theorem dump (coherent : state.Coherent) (reflects : Reflects env state .empty blocks)
    (removed : ∀ name, (state.passets.setNewAssetsToRemove.lookup name).isSome →
      verifierOn env blocks name = none) : (state.dumpCacheToDatabase env).Coherent := by
  have sets := state.dumpCacheToDatabase_storedSets env
  simp only [storedSets, Prod.mk.injEq] at sets
  obtain ⟨_, freezes, globalFreezes⟩ := sets
  refine ⟨?_, ?_, fun name verifier cached => ?_⟩
  · rw [freezes]
    exact coherent.freezes.dump freezeReading _
  · rw [globalFreezes]
    exact coherent.globalFreezes.dump globalReading _
  · have written := state.dumpCacheToDatabase_verifierAt env name
    cases pending : state.passets.restrictions.verifiers.verdict verifierReading name with
    | some value =>
      rw [pending] at written
      cases (congrArg Prod.snd written).symm.trans cached
    | none =>
      rw [pending] at written
      dsimp only at written
      have known : (state.verifierAt name).2 = some verifier →
          (state.verifierAt name).1 = some verifier := coherent.verifiers name verifier
      split at written
      · -- the string of a removed asset was not in the database, hence not in the cache
        rename_i gone
        have value := congrFun reflects.verifier name
        rw [Pending.value, empty_verifiers, Pending.verdict_empty, Option.none_or, pending,
          Option.getD_none, removed name gone] at value
        have had := known ((congrArg Prod.snd written).symm.trans cached)
        rw [show (state.verifierAt name).1 = none from value] at had
        cases had
      · exact (congrArg Prod.fst written).trans
          (known ((congrArg Prod.snd written).symm.trans cached))

end AssetState.Coherent

section

variable (state : AssetState)

theorem refreshRestriction_freezeStore (key : Bytes × Bytes) :
    (state.refreshRestriction key).freezeStore = state.freezeStore.refresh key := by
  unfold refreshRestriction refresh has freezeStore
  cases state.prestricteddb.restrictedAddress.lookup key <;> rfl

theorem refreshGlobalRestriction_globalFreezeStore (name : Bytes) :
    (state.refreshGlobalRestriction name).globalFreezeStore =
      state.globalFreezeStore.refresh name := by
  unfold refreshGlobalRestriction refresh has
    globalFreezeStore
  cases state.prestricteddb.globalRestriction.lookup name <;> rfl

theorem refresh_frame {β : Type} (part : AssetState → β)
    (other : ∀ (state : AssetState) verifiers freezes globalFreezes, part { state with
      passetsVerifierCache := verifiers
      passetsRestrictionCache := freezes
      passetsGlobalRestrictionCache := globalFreezes } = part state) :
    (∀ name, part (state.refreshVerifier name) = part state) ∧
      (∀ key, part (state.refreshRestriction key) = part state) ∧
      ∀ name, part (state.refreshGlobalRestriction name) = part state := by
  refine ⟨fun name => ?_, fun key => ?_, fun name => ?_⟩
  · unfold refreshVerifier
    split
    · exact other state _ _ _
    · rfl
  · unfold refreshRestriction
    split
    · exact other state _ _ _
    · rfl
  · unfold refreshGlobalRestriction
    split
    · exact other state _ _ _
    · rfl

end

/-- A step of a node, or a lookup that stores what it found in a bounded cache. -/
inductive ServeStep where
  | node (step : NodeStep)
  | refreshVerifier (name : Bytes)
  | refreshRestriction (key : Bytes × Bytes)
  | refreshGlobalRestriction (name : Bytes)

namespace Node

variable (env : Env) (rules : BlockRules) (ancestry : Uint256 → List Block) (node : Node)

def serve : ServeStep → Option Node
  | .node step => node.step env rules step
  | .refreshVerifier name => some { node with assets := node.assets.refreshVerifier name }
  | .refreshRestriction key => some { node with assets := node.assets.refreshRestriction key }
  | .refreshGlobalRestriction name =>
    some { node with assets := node.assets.refreshGlobalRestriction name }

/-- The condition on a step: a block is orderly, brings a verifier string with a reissue
only when no other of its transactions issues or reissues the asset, and is the one,
with the chain below it, that its hash stands for. -/
def steady : ServeStep → Bool
  | .node (.connect block mempool currentTime) =>
    node.orderly env (.connect block mempool currentTime) && block.singleVerifier env &&
      decide (ancestry block.hash = block :: node.chain)
  | _ => true

end Node

def Established (env : Env) (ancestry : Uint256 → List Block) : List Block → Prop
  | [] => True
  | block :: below =>
    block.Settled env below ∧ ancestry block.hash = block :: below ∧
      Established env ancestry below

/-- What holds of a node between two steps: its lookups reflect the chain, and the undo
data of every block that was ever connected keeps the verifier strings below it. -/
structure RestrictionInv (env : Env) (ancestry : Uint256 → List Block) (node : Node) : Prop where
  names : NodeInv env node
  established : Established env ancestry node.chain
  written : ∀ hash, (node.assets.passetsdb.blockUndo.lookup hash).isSome →
    (node.blockUndo.lookup hash).isSome
  kept : ∀ hash block below, (node.blockUndo.lookup hash).isSome →
    ancestry hash = block :: below →
    KeepsVerifiers env below block.vtx ((node.assets.passetsdb.blockUndo.lookup hash).getD [])
  coherent : node.assets.Coherent
  reflects : Reflects env node.assets .empty (transactionsOf node.chain)

section

variable {env : Env} {state other : AssetState} {cache : AssetsCache}
  {blocks : List (List Transaction)}

theorem AssetState.VerifiersCoherent.of_same (coherent : state.VerifiersCoherent)
    (same : other.verifierAt = state.verifierAt) : other.VerifiersCoherent := by
  intro name verifier cached
  have at' := congrFun same name
  exact (congrArg fst at').trans
    (coherent name verifier ((congrArg snd at').symm.trans cached))

theorem AssetState.Coherent.of_same (coherent : state.Coherent)
    (freezes : other.freezeStore = state.freezeStore)
    (globalFreezes : other.globalFreezeStore = state.globalFreezeStore)
    (verifiers : other.verifierAt = state.verifierAt) : other.Coherent :=
  ⟨by rw [freezes]; exact coherent.freezes, by rw [globalFreezes]; exact coherent.globalFreezes,
    coherent.verifiers.of_same verifiers⟩

theorem Reflects.of_same (reflects : Reflects env state cache blocks)
    (passets : other.passets = state.passets)
    (freezes : other.freezeStore.has = state.freezeStore.has)
    (globalFreezes : other.globalFreezeStore.has = state.globalFreezeStore.has)
    (verifiers : other.prestricteddb.verifier = state.prestricteddb.verifier) :
    Reflects env other cache blocks :=
  ⟨by rw [passets, freezes]; exact reflects.frozen,
    by rw [passets, globalFreezes]; exact reflects.frozenAll,
    by rw [passets, verifiers]; exact reflects.verifier⟩

end

theorem NodeInv.of_same {env : Env} {node next : Node} (inv : NodeInv env node)
    (chain : next.chain = node.chain) (passets : next.assets.passets = node.assets.passets)
    (cached : next.assets.passetsCache = node.assets.passetsCache)
    (data : next.assets.passetsdb.assetData = node.assets.passetsdb.assetData) :
    NodeInv env next := by
  have stored : next.Stored = node.Stored := by
    funext name
    rw [Node.Stored, Node.Stored, data]
  refine {
    lawful := by rw [chain]; exact inv.lawful
    named := by rw [passets]; exact inv.named
    stores := by rw [stored]; exact inv.stores.of_same data cached
    disjoint := by rw [passets]; exact inv.disjoint
    names := by rw [passets, stored, chain]; exact inv.names
    made := by rw [passets, chain]; exact inv.made
    undone := by rw [passets, chain]; exact inv.undone }

namespace RestrictionInv

variable {env : Env} {rules : BlockRules} {ancestry : Uint256 → List Block} {node next : Node}

theorem initial (env : Env) (ancestry : Uint256 → List Block) (base : Nat) (coins : CoinsView) :
    RestrictionInv env ancestry (initial base coins) where
  names := NodeInv.initial env base coins
  established := trivial
  written _ found := by cases found
  kept _ _ _ found := by cases found
  coherent := {
    freezes := fun _ found => by cases found
    globalFreezes := fun _ found => by cases found
    verifiers := fun _ _ found => by cases found }
  reflects := ⟨rfl, rfl, rfl⟩

section

variable (inv : RestrictionInv env ancestry node)

include inv

theorem removed {name : Bytes}
    (gone : (node.assets.passets.setNewAssetsToRemove.lookup name).isSome) :
    verifierOn env (transactionsOf node.chain) name = none := by
  refine not_isSome_iff_eq_none.mp fun had => ?_
  have kept := (inv.names.recorded_iff.mpr (inv.names.lawful.issued_of_verifierOn had)).1
  rw [kept] at gone
  cases gone

theorem dump :
    RestrictionInv env ancestry { node with assets := node.assets.dumpCacheToDatabase env } where
  names := inv.names.dump
  established := inv.established
  written hash found := by
    rw [dumpCacheToDatabase_blockUndo] at found
    exact inv.written hash found
  kept hash block below found anc := by
    rw [dumpCacheToDatabase_blockUndo]
    exact inv.kept hash block below found anc
  coherent := inv.coherent.dump inv.reflects fun _ => inv.removed
  reflects := inv.reflects.dump fun _ => inv.removed

theorem of_same {state : AssetState} (names : NodeInv env { node with assets := state })
    (passets : state.passets = node.assets.passets)
    (undo : state.passetsdb.blockUndo = node.assets.passetsdb.blockUndo)
    (db : state.prestricteddb = node.assets.prestricteddb) (coherent : state.Coherent) :
    RestrictionInv env ancestry { node with assets := state } where
  names := names
  established := inv.established
  written hash found := inv.written hash (by rwa [← undo])
  kept hash block below found anc := by
    rw [undo]
    exact inv.kept hash block below found anc
  coherent := coherent
  reflects := by
    refine inv.reflects.of_same passets ?_ ?_ (by rw [db])
    · funext key
      simp only [has, freezeStore, db]
    · funext name
      simp only [has, globalFreezeStore, db]

theorem refreshAsset (name : Bytes) :
    RestrictionInv env ancestry { node with assets := node.assets.refreshAsset name } := by
  have same : ∀ {β : Type} (part : AssetState → β),
      (∀ (state : AssetState) cached, part { state with passetsCache := cached } = part state) →
      part (node.assets.refreshAsset name) = part node.assets := by
    intro β part other
    unfold AssetState.refreshAsset
    split
    · exact other _ _
    · rfl
  exact inv.of_same (inv.names.refresh name) (same AssetState.passets fun _ _ => rfl)
    (same (fun state => state.passetsdb.blockUndo) fun _ _ => rfl)
    (same AssetState.prestricteddb fun _ _ => rfl)
    (inv.coherent.of_same (same AssetState.freezeStore fun _ _ => rfl)
      (same AssetState.globalFreezeStore fun _ _ => rfl)
      (same AssetState.verifierAt fun _ _ => rfl))

theorem refreshed {state : AssetState} (same : ∀ {β : Type} (part : AssetState → β),
      (∀ (state : AssetState) verifiers freezes globalFreezes, part { state with
        passetsVerifierCache := verifiers
        passetsRestrictionCache := freezes
        passetsGlobalRestrictionCache := globalFreezes } = part state) →
      part state = part node.assets)
    (coherent : state.Coherent) : RestrictionInv env ancestry { node with assets := state } :=
  inv.of_same
    (inv.names.of_same rfl (same passets fun _ _ _ _ => rfl)
      (same passetsCache fun _ _ _ _ => rfl)
      (same (fun state => state.passetsdb.assetData) fun _ _ _ _ => rfl))
    (same passets fun _ _ _ _ => rfl)
    (same (fun state => state.passetsdb.blockUndo) fun _ _ _ _ => rfl)
    (same prestricteddb fun _ _ _ _ => rfl) coherent

theorem refreshVerifier (name : Bytes) :
    RestrictionInv env ancestry { node with assets := node.assets.refreshVerifier name } := by
  refine inv.refreshed (fun part other => (refresh_frame node.assets part other).1 name) ?_
  have same : (node.assets.refreshVerifier name).freezeStore = node.assets.freezeStore ∧
      (node.assets.refreshVerifier name).globalFreezeStore = node.assets.globalFreezeStore := by
    unfold AssetState.refreshVerifier
    split <;> exact ⟨rfl, rfl⟩
  refine ⟨by rw [same.1]; exact inv.coherent.freezes,
    by rw [same.2]; exact inv.coherent.globalFreezes, fun other verifier cached => ?_⟩
  unfold AssetState.refreshVerifier at cached ⊢
  split at cached
  · rename_i stored found
    rcases LruCache.get?_put cached with ⟨rfl, rfl⟩ | before
    · exact found
    · exact inv.coherent.verifiers other verifier before
  · exact inv.coherent.verifiers other verifier cached

theorem refreshRestriction (key : Bytes × Bytes) :
    RestrictionInv env ancestry { node with assets := node.assets.refreshRestriction key } := by
  refine inv.refreshed (fun part other => (refresh_frame node.assets part other).2.1 key) ?_
  have same : (node.assets.refreshRestriction key).globalFreezeStore =
      node.assets.globalFreezeStore ∧
      (node.assets.refreshRestriction key).verifierAt = node.assets.verifierAt := by
    unfold AssetState.refreshRestriction
    split <;> exact ⟨rfl, rfl⟩
  refine ⟨?_, by rw [same.1]; exact inv.coherent.globalFreezes,
    inv.coherent.verifiers.of_same same.2⟩
  rw [refreshRestriction_freezeStore]
  exact inv.coherent.freezes.refresh key

theorem refreshGlobalRestriction (name : Bytes) : RestrictionInv env ancestry
      { node with assets := node.assets.refreshGlobalRestriction name } := by
  refine inv.refreshed (fun part other => (refresh_frame node.assets part other).2.2 name) ?_
  have same : (node.assets.refreshGlobalRestriction name).freezeStore = node.assets.freezeStore ∧
      (node.assets.refreshGlobalRestriction name).verifierAt = node.assets.verifierAt := by
    unfold AssetState.refreshGlobalRestriction
    split <;> exact ⟨rfl, rfl⟩
  refine ⟨by rw [same.1]; exact inv.coherent.freezes, ?_, inv.coherent.verifiers.of_same same.2⟩
  rw [refreshGlobalRestriction_globalFreezeStore]
  exact inv.coherent.globalFreezes.refresh name

end

section

variable {block : Block} {mempool : MempoolMaps} {currentTime : Int} {pre post : List Transaction}
  {acc : Connecting}

theorem replaced (inv : RestrictionInv env ancestry node) {cache : AssetsCache}
    (restricting : Restricting env pre cache) {name verifier : Bytes} {tx : Transaction}
    (made : tx.reissuedVerifier env = some (name, verifier))
    (first : name ∉ (pre.flatMap (Transaction.verifiers env)).map fst)
    (issued : name ∈ issuedOn env node.chain) :
    some ((cache.getAssetVerifierStringIfExists node.assets name false).getD []) =
      verifierOn env (transactionsOf node.chain) name := by
  obtain ⟨_, _, _, _, changed⟩ := reissuedVerifier_eq_some.mp made
  have unmade : cache.restrictions.verifiers.made.lookup name = none := by
    rwa [← not_isSome_iff_eq_none, restricting.verifiers, isSome_made_makeAll]
  have answer : cache.getAssetVerifierStringIfExists node.assets name false =
      verifierOn env (transactionsOf node.chain) name :=
    (((inv.reflects.restricting restricting).answersUnshadowed inv.coherent).verifier name
      (.inl unmade)).trans (applied_of_not_mem verifierReading first)
  obtain ⟨old, had⟩ := isSome_iff_exists.mp (inv.names.lawful.verifierOn_of_issued
    (restricted_of_changedVerifier changed) issued)
  rw [answer, had]
  rfl

/-- The first transactions of a block that is being connected: the cache has their
changes, the undo items what they replaced, and every freeze was admitted. -/
structure ConnectingBlock (env : Env) (node : Node) (txs : List Transaction) (cache : AssetsCache)
    (vUndo : List (Bytes × BlockAssetUndo)) : Prop where
  issuing : Issuing env txs cache
  restricting : Restricting env txs cache
  keeps : KeepsVerifiers env node.chain txs vUndo
  admitted : ∀ tx ∈ txs, ∀ change ∈ tx.nullChanges env,
    env.areRestrictedAssetsDeployed = true ∧ Admits node.assets change

variable (inv : RestrictionInv env ancestry node)

include inv

theorem connecting (deployed : env.areAssetsDeployed = true) (notReindexing : env.fReindex = false)
    (bare : block.BareCoinbase env) (orderly : node.orderlyTxs env [] block.vtx = true)
    (single : block.singleVerifier env = true) (checked : checkBlock env rules block = .ok ())
    (split : block.vtx = pre ++ post)
    (passes : node.connectTxs env rules block mempool currentTime pre = .ok acc) :
    ConnectingBlock env node pre acc.view.assets acc.vUndoAssetData := by
  have inBlock : ∀ tx ∈ pre, tx ∈ block.vtx := fun tx member =>
    split ▸ mem_append_left post member
  have kinds : ∀ tx ∈ block.vtx, ∃ use, checkTransactionKind env tx = .ok use := by
    intro tx member
    obtain ⟨_, use, stages⟩ := checkTransaction_ok (checkBlock_ok checked tx member)
    exact ⟨use, stages.kind⟩
  refine connectTxs_scan deployed notReindexing
    (fun tx member => checkBlock_ok checked tx (inBlock tx member)) bare inBlock passes
    (ConnectingBlock env node) ⟨Issuing.empty env, Restricting.empty env,
      KeepsVerifiers.empty env node.chain, fun _ absent => by cases absent⟩ ?_
  intro front tx back acc next issued item splitPre checkedTx made before
  have whole : block.vtx = front ++ tx :: (back ++ post) := by simp [split, splitPre]
  rw [whole] at orderly
  obtain ⟨use, kind⟩ := kinds tx (by simp [whole])
  have fresh : ∀ name ∈ tx.issuedNames env, name ∉ issuedBy env front := by
    intro name issues earlier
    have absent := made.fresh name ((mem_issueNames_iff kind).mpr issues)
    rw [(inv.names.exists_iff_of_orderly notReindexing orderly before.issuing issues).mpr
      (.inr earlier)] at absent
    cases absent
  have first : ∀ name verifier, tx.verifierChange env = some (name, verifier) →
      name ∉ (front.flatMap (Transaction.verifiers env)).map fst :=
    fun name verifier => Block.verifier_first single kinds whole fresh
  have alone : ∀ name verifier, tx.reissuedVerifier env = some (name, verifier) →
      ∀ other ∈ front, other.touches env name = false :=
    fun name verifier change => (Block.alone single whole change).1
  refine ⟨before.issuing.step inv.names.namedState checkedTx made,
    before.restricting.step before.issuing.named inv.names.namedState made first,
    before.keeps.step before.issuing.named inv.names.namedState made alone ?_, ?_⟩
  · intro name verifier change
    have own : tx.verifierChange env = some (name, verifier) := by
      obtain ⟨_, _, reissues, _⟩ := reissuedVerifier_eq_some.mp change
      rw [Transaction.verifierChange, issuedVerifier_of_reissuance reissues, none_or, change]
    refine inv.replaced before.restricting change (first name verifier own) ?_
    obtain ⟨_, _, reissues, rfl, _⟩ := reissuedVerifier_eq_some.mp change
    have known := (orderlyTxs_split orderly).2 _ (reissuedNames_of_reissuance reissues)
    refine (known.resolve_right fun earlier => ?_)
    obtain ⟨other, inFront, issues⟩ := mem_flatMap.mp
      (earlier.resolve_left not_mem_nil)
    obtain ⟨_, otherKind⟩ := kinds other (by simp [whole, inFront])
    have touches := touches_of_issued ((mem_issueNames_iff otherKind).mpr issues)
    rw [alone _ verifier change other inFront] at touches
    cases touches
  · intro other member
    rcases mem_append.mp member with earlier | last
    · exact before.admitted other earlier
    · rw [mem_singleton.mp last]
      exact made.admitted

theorem settled (single : block.singleVerifier env = true)
    (admitted : ∀ tx ∈ block.vtx, ∀ change ∈ tx.nullChanges env,
      env.areRestrictedAssetsDeployed = true ∧ Admits node.assets change) :
    block.Settled env node.chain where
  deployed tx member some := by
    obtain ⟨change, inChanges⟩ := exists_mem_of_ne_nil _ some
    exact (admitted tx member change inChanges).1
  freezes tx member change inFreezes := by
    obtain ⟨null, inChanges, picked⟩ := mem_filterMap.mp inFreezes
    have admits := (admitted tx member null inChanges).2
    cases null <;> cases picked
    exact admits.symm.trans
      ((inv.reflects.answersUnshadowed inv.coherent).frozen _ _ (unshadowed_empty _ _))
  globalFreezes tx member change inFreezes := by
    obtain ⟨null, inChanges, picked⟩ := mem_filterMap.mp inFreezes
    have admits := (admitted tx member null inChanges).2
    cases null <;> cases picked
    exact admits.symm.trans
      ((inv.reflects.answersUnshadowed inv.coherent).frozenAll _ (unshadowed_empty _ _))
  single := single

theorem writeUndo_kept {connected : Connected} (rooted : ancestry block.hash = block :: node.chain)
    (keeps : KeepsVerifiers env node.chain block.vtx connected.vUndoAssetData) :
    let written := node.writeUndo block connected
    (∀ hash, (written.assets.passetsdb.blockUndo.lookup hash).isSome →
      (written.blockUndo.lookup hash).isSome) ∧
    ∀ hash other below, (written.blockUndo.lookup hash).isSome → ancestry hash = other :: below →
      KeepsVerifiers env below other.vtx
        ((written.assets.passetsdb.blockUndo.lookup hash).getD []) := by
  unfold writeUndo
  split
  · exact ⟨inv.written, inv.kept⟩
  · rename_i new
    have unwritten : node.assets.passetsdb.blockUndo.lookup block.hash = none :=
      not_isSome_iff_eq_none.mp fun old => new (inv.written _ old)
    have lookup : ∀ hash, AList.lookup hash (if connected.vUndoAssetData = [] then
        node.assets.passetsdb.blockUndo
        else node.assets.passetsdb.blockUndo.insert block.hash connected.vUndoAssetData) =
        if hash = block.hash then
          if connected.vUndoAssetData = [] then none else some connected.vUndoAssetData
        else node.assets.passetsdb.blockUndo.lookup hash := by
      intro hash
      by_cases empty : connected.vUndoAssetData = []
      · rw [if_pos empty, if_pos empty]
        split
        · rename_i same
          rw [same, unwritten]
        · rfl
      · rw [if_neg empty, if_neg empty, lookup_insert_ite]
    dsimp only
    refine ⟨fun hash found => ?_, fun hash other below found anc => ?_⟩
    · rw [lookup_insert_ite]
      rw [lookup] at found
      split
      · rfl
      · rename_i different
        rw [if_neg different] at found
        exact inv.written hash found
    · rw [lookup]
      rw [lookup_insert_ite] at found
      split
      · rename_i same
        subst same
        rw [rooted] at anc
        obtain ⟨rfl, rfl⟩ := List.cons.inj anc
        by_cases empty : connected.vUndoAssetData = []
        · rwa [if_pos empty, getD_none, ← empty]
        · rwa [if_neg empty, getD_some]
      · rename_i different
        rw [if_neg different] at found
        exact inv.kept hash other below found anc

theorem connect (deployed : env.areAssetsDeployed = true) (notReindexing : env.fReindex = false)
    (may : node.steady env ancestry (.node (.connect block mempool currentTime)) = true)
    (steps : node.step env rules (.connect block mempool currentTime) = some next) :
    RestrictionInv env ancestry next := by
  rw [Node.steady, Bool.and_eq_true, Bool.and_eq_true, decide_eq_true_eq] at may
  obtain ⟨⟨orderly, single⟩, rooted⟩ := may
  have names := inv.names.step deployed notReindexing orderly steps
  obtain ⟨notGenesis, connected, passes, rfl⟩ := Node.connectTip_ok (toOption_eq_some.mp steps)
  rw [Node.orderly, Bool.and_eq_true, decide_eq_true_eq] at orderly
  obtain ⟨final, checked, looped, _, result⟩ := connectBlock_ok notGenesis passes
  have connecting : ConnectingBlock env node block.vtx connected.view.assets
      connected.vUndoAssetData := by
    rw [result]
    exact inv.connecting deployed notReindexing orderly.1 orderly.2 single checked
      (List.append_nil _).symm looped
  obtain ⟨written, kept⟩ := inv.writeUndo_kept rooted connecting.keeps
  refine {
    names := names
    established := ⟨inv.settled single connecting.admitted, rooted, inv.established⟩
    written := written
    kept := kept
    coherent := inv.coherent.of_same
      (Node.writeUndo_frame AssetState.freezeStore (fun _ _ => rfl) node block _)
      (Node.writeUndo_frame AssetState.globalFreezeStore (fun _ _ => rfl) node block _)
      (Node.writeUndo_frame AssetState.verifierAt (fun _ _ => rfl) node block _)
    reflects := ?_ }
  have reflects := inv.reflects.restricting connecting.restricting
  exact (reflects.of_same
    (Node.writeUndo_frame AssetState.passets (fun _ _ => rfl) node block _)
    (Node.writeUndo_frame (fun state => state.freezeStore.has) (fun _ _ => rfl) node block _)
    (Node.writeUndo_frame (fun state => state.globalFreezeStore.has) (fun _ _ => rfl) node block _)
    (Node.writeUndo_frame (fun state => state.prestricteddb.verifier) (fun _ _ => rfl) node block
      _)).flush

end

section

variable (inv : RestrictionInv env ancestry node) (deployed : env.areAssetsDeployed = true)
  (notReindexing : env.fReindex = false)

include inv deployed notReindexing

theorem unrestricting {block : Block} {below : List Block} (tip : node.chain = block :: below)
    {vtxundo : List (List Coin)} {disconnected : Disconnected}
    (found : node.blockUndo.lookup block.hash = some vtxundo)
    (passes : disconnectBlock env node.assets node.height block vtxundo
      ((node.assets.passetsdb.blockUndo.lookup block.hash).getD []) ⟨node.coins, .empty⟩ =
        .ok disconnected) : Unrestricting env below block.vtx disconnected.view.assets := by
  have lawful := inv.names.lawful
  have established := inv.established
  rw [tip] at lawful established
  obtain ⟨settled, rooted, _⟩ := established
  have keeps := inv.kept block.hash block below (by rw [found]; rfl) rooted
  have exist : ∀ name, (node.assets.passets.setNewAssetsToRemove.lookup name = none ∧
      Recorded node.assets name) ↔ name ∈ issuedOn env (block :: below) :=
    fun name => tip ▸ inv.names.recorded_iff
  refine (disconnectBlock_scan deployed passes
    (fun txs cache => Withdrawing env txs cache ∧ Unrestricting env below txs cache)
    ⟨Withdrawing.empty env, Unrestricting.empty env below⟩ ?_).2
  intro pre tx post cache next issues split made before
  obtain ⟨undo, undone⟩ := before.1.undoStep notReindexing exist lawful.1 split made
  exact ⟨before.1.step notReindexing inv.names.namedState exist lawful.1 split made,
    before.2.step lawful settled keeps split before.1.named inv.names.namedState made undo undone⟩

theorem disconnect
    (steps : node.step env rules .disconnect = some next) : RestrictionInv env ancestry next := by
  have names := inv.names.step deployed notReindexing rfl steps
  obtain ⟨block, below, vtxundo, disconnected, tip, found, passes, rfl⟩ :=
    disconnectTip_ok (toOption_eq_some.mp steps)
  have established := inv.established
  rw [tip] at established
  have reflects := inv.reflects
  rw [tip] at reflects
  exact {
    names := names
    established := established.2.2
    written := inv.written
    kept := inv.kept
    coherent := inv.coherent.of_same rfl rfl rfl
    reflects := (reflects.unrestricting
      (inv.unrestricting deployed notReindexing tip found passes)).flush }

theorem step {op : ServeStep}
    (may : node.steady env ancestry op = true) (steps : node.serve env rules op = some next) :
    RestrictionInv env ancestry next := by
  cases op with
  | node step =>
    cases step with
    | connect block mempool currentTime => exact inv.connect deployed notReindexing may steps
    | disconnect =>
      exact inv.disconnect deployed notReindexing
        (show node.step env rules .disconnect = some next from steps)
    | dump =>
      cases steps
      exact inv.dump
    | refresh name =>
      cases steps
      exact inv.refreshAsset name
  | refreshVerifier name =>
    cases steps
    exact inv.refreshVerifier name
  | refreshRestriction key =>
    cases steps
    exact inv.refreshRestriction key
  | refreshGlobalRestriction name =>
    cases steps
    exact inv.refreshGlobalRestriction name

end

theorem of_run {base : Nat} {coins : CoinsView} (deployed : env.areAssetsDeployed = true)
    (notReindexing : env.fReindex = false)
    (run : Runs.Run (Node.serve env rules) (Node.steady env ancestry) (Node.initial base coins)
      node) : RestrictionInv env ancestry node :=
  run.invariant (RestrictionInv env ancestry) (initial env ancestry base coins)
    fun _ _ _ inv may steps => inv.step deployed notReindexing may steps

end RestrictionInv

/-- Over every run of steady steps, the lookups through the global cache give what the
active chain replays to; through the cache of a block that is being connected, what the
chain with the transactions connected so far does, for every key that the global cache
has not among the undone ones while the block changed it; and through the cache of a
disconnected block, what the chain below it does. -/
theorem restrictions_follow_chain (env : Env) (rules : BlockRules)
    (deployed : env.areAssetsDeployed = true) (notReindexing : env.fReindex = false)
    (ancestry : Uint256 → List Block) (base : Nat) (coins : CoinsView) (node : Node)
    (run : Runs.Run (Node.serve env rules) (Node.steady env ancestry) (Node.initial base coins)
      node) : Answers env node.assets .empty (transactionsOf node.chain) ∧
    (∀ block mempool currentTime pre post acc,
      node.steady env ancestry (.node (.connect block mempool currentTime)) = true →
      checkBlock env rules block = .ok () → block.vtx = pre ++ post →
      node.connectTxs env rules block mempool currentTime pre = .ok acc →
      AnswersUnshadowed env node.assets acc.view.assets (pre :: transactionsOf node.chain)) ∧
    ∀ block below vtxundo disconnected, node.chain = block :: below →
      node.blockUndo.lookup block.hash = some vtxundo →
      disconnectBlock env node.assets node.height block vtxundo
        ((node.assets.passetsdb.blockUndo.lookup block.hash).getD []) ⟨node.coins, .empty⟩ =
          .ok disconnected →
      Answers env node.assets disconnected.view.assets (transactionsOf below) := by
  have inv := RestrictionInv.of_run deployed notReindexing run
  refine ⟨?_, ?_, ?_⟩
  · exact inv.reflects.answers inv.coherent (fun _ => rfl) (fun _ => rfl) fun _ => rfl
  · intro block mempool currentTime pre post acc may checked split passes
    rw [steady, Bool.and_eq_true, Bool.and_eq_true, orderly, Bool.and_eq_true,
      decide_eq_true_eq] at may
    have connecting := inv.connecting deployed notReindexing may.1.1.1 may.1.1.2 may.1.2 checked
      split passes
    exact (inv.reflects.restricting connecting.restricting).answersUnshadowed inv.coherent
  · intro block below vtxundo disconnected tip found passes
    have unrestricting := inv.unrestricting deployed notReindexing tip found passes
    have reflects := inv.reflects
    rw [tip] at reflects
    exact (reflects.unrestricting unrestricting).answers inv.coherent unrestricting.freezes.made
      unrestricting.globalFreezes.made unrestricting.verifiers.made

namespace RestrictionRuns

open MainNet

def restrictedToken : Bytes := ascii "$TOKEN"

def aliceAddress : Bytes := encodeDestination env (.keyId alice)

def wallet : CoinsView :=
  coins ((List.range 5).map fun n => (⟨1, n⟩, pay coin alice))

/-- Issues `TOKEN` and a qualifier. -/
def rootBlock : Block := block 7
  [Existence.issuance 2 0, transaction 9 [⟨1, 4⟩]
    [pay (coin / 10) burnKey, pay (coin / 2) alice, issue ⟨ascii "#KYC", coin, 0, 0, 0, []⟩]]

def guardedBlock : Block := block 8
  [transaction 3 [⟨1, 1⟩, ⟨2, 2⟩]
    [pay (coin / 10) burnKey, transfer (ascii "TOKEN!") coin, verifier (ascii "!KYC"),
      issue ⟨restrictedToken, 5 * coin, 0, 1, 0, []⟩]]

def frozenBlock : Block := block 9
  [transaction 4 [⟨3, 1⟩] [transfer (ascii "TOKEN!") coin, tag restrictedToken 1 alice]]

def change (hash : Uint256) (n : Nat) (owner : OutPoint) (text : String) : Transaction :=
  transaction hash [⟨1, n⟩, owner]
    [pay (coin / 10) burnKey, transfer (ascii "TOKEN!") coin, verifier (ascii text),
      reissue ⟨restrictedToken, 0, -1, 1, []⟩]

def changedTwice : Block := block 10 [change 5 2 ⟨3, 1⟩ "true", change 6 3 ⟨5, 1⟩ "!KYC"]

def ancestry (hash : Uint256) : List Block :=
  if hash = 7 then [rootBlock]
  else if hash = 8 then [guardedBlock, rootBlock]
  else if hash = 9 then [frozenBlock, guardedBlock, rootBlock]
  else []

def connect (block : Block) : ServeStep := .node (.connect block .empty 0)

end RestrictionRuns

open RestrictionRuns MainNet

/-- The restricted asset is issued, taken back, issued again and dumped: its verifier
string is found, and Alice is frozen while a block that freezes the address is connected. -/
theorem restrictions_follow_chain_again : ∃ node acc,
    Runs.Run (Node.serve env rules) (Node.steady env ancestry) (Node.initial 9 wallet) node ∧
      AssetsCache.empty.getAssetVerifierStringIfExists node.assets restrictedToken false =
        some (ascii "!KYC") ∧
      node.connectTxs env rules frozenBlock .empty 0 frozenBlock.vtx = .ok acc ∧
      acc.view.assets.checkForAddressRestriction node.assets restrictedToken aliceAddress false =
        true := by
  have observed : (Runs.execute (serve env rules) (steady env ancestry)
      (initial 9 wallet) [connect rootBlock, connect guardedBlock, .node .disconnect,
        connect guardedBlock, .node .dump, .refreshVerifier restrictedToken]).bind (fun node =>
      some (node.chain, node.steady env ancestry (connect frozenBlock),
        node.assets.passets.setNewRestrictedAddressToRemove.lookup (restrictedToken, aliceAddress),
        (node.connectTxs env rules frozenBlock .empty 0 frozenBlock.vtx).passed)) =
      some ([guardedBlock, rootBlock], true, none, true) := by decide +kernel
  obtain ⟨node, run, seen⟩ := Runs.exists_run_of_execute observed
  simp only [Option.some.injEq, Prod.mk.injEq] at seen
  obtain ⟨chain, steady, notUndone, passes⟩ := seen
  obtain ⟨acc, passes⟩ := passed_iff.mp passes
  obtain ⟨globally, inBlock, _⟩ := restrictions_follow_chain env rules rfl rfl ancestry 9 wallet
    node run
  refine ⟨node, acc, run, ?_, passes, ?_⟩
  · rw [globally.verifier, chain]
    decide +kernel
  · rw [(inBlock frozenBlock .empty 0 frozenBlock.vtx [] acc steady (by decide +kernel)
      (append_nil _).symm passes).frozen restrictedToken aliceAddress (.inr notUndone), chain]
    decide +kernel

/-- A block that changes the verifier string of an asset twice leaves the first change. -/
theorem second_verifier_is_lost : ∃ node,
    Runs.Run (Node.serve env rules) (fun _ _ => true) (Node.initial 9 wallet) node ∧
      AssetsCache.empty.getAssetVerifierStringIfExists node.assets restrictedToken false =
        some (ascii "true") ∧
      verifierOn env (transactionsOf node.chain) restrictedToken = some (ascii "!KYC") := by
  have observed : (Runs.execute (serve env rules) (fun _ _ => true) (initial 9 wallet)
      [connect rootBlock, connect guardedBlock, connect changedTwice]).bind (fun node =>
      some (empty.getAssetVerifierStringIfExists node.assets restrictedToken false,
        verifierOn env (transactionsOf node.chain) restrictedToken)) =
      some (some (ascii "true"), some (ascii "!KYC")) := by decide +kernel
  obtain ⟨node, run, seen⟩ := Runs.exists_run_of_execute observed
  obtain ⟨found, replayed⟩ := Prod.mk.inj (Option.some.inj seen)
  exact ⟨node, run, found, replayed⟩

end Phicoin
