import Phicoin.MainNet
import Phicoin.BlockNames
import Phicoin.Node
import Phicoin.Stored

/-! # Names on the active chain

A node says that an asset exists exactly when a block of its active chain issued
it: connecting a block adds the names it issues, disconnecting it takes them away,
and neither the database nor the bounded cache changes the answer.  A step may not
issue a name twice in one block that the cache still has among the withdrawn ones, may
not issue in a coinbase, and may reissue only names that are on the chain.  One
environment stands for the deployments of a whole run: none is activated within it. -/

namespace Phicoin

open Check KeyedMap AssetsCache AssetState Node

def Transaction.reissuedNames (env : Env) (tx : Transaction) : List Bytes :=
  tx.vout.filterMap fun out =>
    (reissueAssetFromScript env out.scriptPubKey).map fun read => read.1.strName

def issuedOn (env : Env) (chain : List Block) : List Bytes :=
  chain.flatMap fun block => issuedBy env block.vtx

theorem mem_issuedOn_cons {env : Env} {block : Block} {below : List Block} {name : Bytes} :
    name ∈ issuedOn env (block :: below) ↔
      name ∈ issuedBy env block.vtx ∨ name ∈ issuedOn env below := by
  simp [issuedOn]

theorem reissuedNames_of_reissuance {env : Env} {tx : Transaction} {reissue : ReissueAsset}
    {address : Bytes} (reissues : tx.reissuance env = some (reissue, address)) :
    reissue.strName ∈ tx.reissuedNames env := by
  have read := read_of_reissuance reissues
  obtain ⟨out, member, isLast⟩ := lastScript_mem (kind_of_read read)
  exact List.mem_filterMap.mpr ⟨out, member, by rw [isLast, read]; rfl⟩

/-- A block on a chain: it issues no name twice and none of the chain below, and
reissues only names of the chain below or issued earlier in it. -/
structure Block.On (env : Env) (below : List Block) (block : Block) : Prop where
  checked : ∀ tx ∈ block.vtx, ∃ use, checkTransactionKind env tx = .ok use
  fresh : ∀ pre tx post, block.vtx = pre ++ tx :: post → ∀ name ∈ tx.issuedNames env,
    name ∉ issuedOn env below ∧ name ∉ issuedBy env pre
  known : ∀ pre tx post, block.vtx = pre ++ tx :: post → ∀ reissue address,
    tx.reissuance env = some (reissue, address) →
    reissue.strName ∈ issuedOn env below ∨ reissue.strName ∈ issuedBy env pre

/-- A block that is being disconnected, with every reissue of its last transactions
undone. -/
structure Withdrawing (env : Env) (txs : List Transaction) (cache : AssetsCache) : Prop
    extends Undoing env txs cache where
  made : ∀ out, cache.setNewReissueToAdd.lookup out = none
  undone : ∀ out entry, cache.setNewReissueToRemove.lookup out = some entry →
    ∃ tx ∈ txs, ∃ address, tx.reissuance env = some (entry.reissue, address)
  complete : ∀ tx ∈ txs, (tx.reissuance env).isSome →
    (cache.setNewReissueToRemove.lookup tx.reissueOut).isSome

namespace Block.On

variable {env : Env} {below : List Block} {block : Block} {pre post : List Transaction}
  {tx : Transaction} {name : Bytes}

theorem not_mem_later (on : block.On env below) (split : block.vtx = pre ++ tx :: post)
    (earlier : name ∈ issuedOn env below ∨ name ∈ issuedBy env pre) : name ∉ issuedBy env post := by
  intro later
  obtain ⟨other, member, issued⟩ := List.mem_flatMap.mp later
  obtain ⟨front, back, rfl⟩ := List.append_of_mem member
  have fresh := on.fresh (pre ++ tx :: front) other back (by simp [split]) name issued
  rcases earlier with chain | block
  · exact fresh.1 chain
  · exact fresh.2 (mem_issuedBy_append.mpr (.inl block))

theorem mem_issuedOn (split : block.vtx = pre ++ tx :: post) (issued : name ∈ tx.issuedNames env) :
    name ∈ issuedOn env (block :: below) := by
  rw [mem_issuedOn_cons, split, mem_issuedBy_append, mem_issuedBy_cons]
  exact .inl (.inr (.inl issued))

theorem mem_issuedOn_of_earlier (split : block.vtx = pre ++ tx :: post)
    (earlier : name ∈ issuedOn env below ∨ name ∈ issuedBy env pre) :
    name ∈ issuedOn env (block :: below) := by
  rw [mem_issuedOn_cons, split, mem_issuedBy_append]
  exact earlier.symm.imp_left .inl

end Block.On

namespace Withdrawing

variable {env : Env} {global : AssetState} {vUndoData : List (Bytes × BlockAssetUndo)}
  {below : List Block} {block : Block} {pre post : List Transaction} {tx : Transaction}
  {cache next issues : AssetsCache}

theorem empty (env : Env) : Withdrawing env [] .empty where
  toUndoing := Undoing.empty env
  made _ := rfl
  undone _ _ found := by cases found
  complete _ absent := by cases absent

theorem undone_mono (withdrawing : Withdrawing env post cache) {out : OutPoint}
    {entry : CachedReissue} (found : cache.setNewReissueToRemove.lookup out = some entry) :
    ∃ other ∈ tx :: post, ∃ address, other.reissuance env = some (entry.reissue, address) := by
  obtain ⟨other, member, address, reissues⟩ := withdrawing.undone out entry found
  exact ⟨other, List.mem_cons_of_mem tx member, address, reissues⟩

theorem undoStep (notReindexing : env.fReindex = false)
    (exist : ∀ name, (global.passets.setNewAssetsToRemove.lookup name = none ∧
      Recorded global name) ↔ name ∈ issuedOn env (block :: below))
    (on : block.On env below) (split : block.vtx = pre ++ tx :: post)
    (made : TxDisconnected env global vUndoData tx cache next issues)
    (withdrawing : Withdrawing env post cache) : UndoStep env global vUndoData tx cache issues ∧
      ∀ reissue address, tx.reissuance env = some (reissue, address) →
        ∃ prev, Unreissued global vUndoData tx reissue prev cache issues := by
  have inBlock : tx ∈ block.vtx := split ▸ List.mem_append_right pre List.mem_cons_self
  obtain ⟨use, kind⟩ := on.checked tx inBlock
  have undo := undoStep_of_undone notReindexing kind withdrawing.added
    (fun name issued => (exist name).mpr (Block.On.mem_issuedOn split issued)) made.undone
  refine ⟨undo, fun reissue address reissues => ?_⟩
  rcases undo with ⟨noReissue, _⟩ | ⟨_, _, again, undo⟩
  · rw [reissues] at noReissue
    cases noReissue
  · cases reissues.symm.trans again
    have earlier := on.known pre tx post split reissue address reissues
    have present : cache.checkIfAssetExists env global reissue.strName = true := by
      obtain ⟨kept, recorded⟩ := (exist _).mpr (Block.On.mem_issuedOn_of_earlier split earlier)
      refine (checkIfAssetExists_iff notReindexing).mpr ⟨?_, kept, .inr recorded⟩
      rw [← Option.not_isSome_iff_eq_none, withdrawing.removed]
      exact on.not_mem_later split earlier
    refine (undo.resolve_right fun absent => ?_).2
    rw [present] at absent
    cases absent.1

theorem step (notReindexing : env.fReindex = false) (stored : NamedState global)
    (exist : ∀ name, (global.passets.setNewAssetsToRemove.lookup name = none ∧
      Recorded global name) ↔ name ∈ issuedOn env (block :: below))
    (on : block.On env below) (split : block.vtx = pre ++ tx :: post)
    (made : TxDisconnected env global vUndoData tx cache next issues)
    (withdrawing : Withdrawing env post cache) : Withdrawing env (tx :: post) next := by
  have inBlock : tx ∈ block.vtx := split ▸ List.mem_append_right pre List.mem_cons_self
  obtain ⟨use, kind⟩ := on.checked tx inBlock
  obtain ⟨undo, undone⟩ := withdrawing.undoStep notReindexing exist on split made
  have undoing := withdrawing.toUndoing.step stored kind undo made.records
  rcases undo with ⟨noReissue, withdrawn, _⟩ | ⟨reissue, address, reissues, _⟩
  · have layers := made.reissues.trans withdrawn.reissues
    refine { toUndoing := undoing, made := ?_, undone := ?_, complete := ?_ }
    · intro out
      exact (congrArg (fun layer => layer.added.lookup out) layers).trans (withdrawing.made out)
    · intro out entry found
      exact withdrawing.undone_mono
        ((congrArg (fun layer => layer.removed.lookup out) layers).symm.trans found)
    · intro other member isReissue
      rw [show next.setNewReissueToRemove = cache.setNewReissueToRemove from
        congrArg ReissueLayer.removed layers]
      rcases List.mem_cons.mp member with rfl | later
      · simp [noReissue] at isReissue
      · exact withdrawing.complete other later isReissue
  · obtain ⟨prev, undone⟩ := undone reissue address reissues
    obtain ⟨entry, ofReissue, layer⟩ := undone.reissues
    have layers := made.reissues.trans layer
    have removed : next.setNewReissueToRemove =
        insertNew tx.reissueOut entry cache.setNewReissueToRemove :=
      congrArg ReissueLayer.removed layers
    refine { toUndoing := undoing, made := ?_, undone := ?_, complete := ?_ }
    · intro out
      rw [show next.setNewReissueToAdd = cache.setNewReissueToAdd.erase tx.reissueOut from
        congrArg ReissueLayer.added layers, lookup_erase_ite]
      split
      · rfl
      · exact withdrawing.made out
    · intro out found lookup
      rw [removed] at lookup
      rcases lookup_of_insertNew lookup with earlier | ⟨_, rfl⟩
      · exact withdrawing.undone_mono earlier
      · exact ⟨tx, List.mem_cons_self, address, by rw [ofReissue, reissues]⟩
    · intro other member isReissue
      rw [removed, isSome_lookup_insertNew, Bool.or_eq_true, decide_eq_true_eq]
      rcases List.mem_cons.mp member with rfl | later
      · exact .inl rfl
      · exact .inr (withdrawing.complete other later isReissue)

end Withdrawing

def Lawful (env : Env) : List Block → Prop
  | [] => True
  | block :: below => block.On env below ∧ Lawful env below

theorem Lawful.known {env : Env} {chain : List Block} (lawful : Lawful env chain) {block : Block}
    (inChain : block ∈ chain) {tx : Transaction} (inBlock : tx ∈ block.vtx)
    {reissue : ReissueAsset} {address : Bytes}
    (reissues : tx.reissuance env = some (reissue, address)) :
    reissue.strName ∈ issuedOn env chain := by
  induction chain with
  | nil => cases inChain
  | cons top below ih =>
    rcases List.mem_cons.mp inChain with rfl | deeper
    · obtain ⟨pre, post, split⟩ := List.append_of_mem inBlock
      exact Block.On.mem_issuedOn_of_earlier split
        (lawful.1.known pre tx post split reissue address reissues)
    · exact mem_issuedOn_cons.mpr (.inr (ih lawful.2 deeper))

def Node.Stored (node : Node) (name : Bytes) : Prop :=
  (node.assets.passetsdb.assetData.lookup name).isSome

/-- What holds of a node between two steps: the database with the pending issuances
and withdrawals has the names of the chain, and every pending reissue is one of the
chain. -/
structure NodeInv (env : Env) (node : Node) : Prop where
  lawful : Lawful env node.chain
  named : node.assets.passets.Named
  stores : node.assets.Stores node.Stored
  disjoint : ∀ name, (node.assets.passets.setNewAssetsToRemove.lookup name).isSome →
    node.assets.passets.setNewAssetsToAdd.lookup name = none
  names : ∀ name, AssetState.Dumped node.Stored node.assets.passets name ↔
    name ∈ issuedOn env node.chain
  made : ∀ out entry, node.assets.passets.setNewReissueToAdd.lookup out = some entry →
    ∃ block ∈ node.chain, ∃ tx ∈ block.vtx, ∃ address,
      tx.reissuance env = some (entry.reissue, address) ∧ tx.reissueOut = out
  undone : ∀ out entry, node.assets.passets.setNewReissueToRemove.lookup out = some entry →
    (node.assets.passets.setNewAssetsToRemove.lookup entry.reissue.strName).isSome ∨
      entry.reissue.strName ∈ issuedOn env node.chain

namespace NodeInv

variable {env : Env} {rules : BlockRules} {node next : Node} {name : Bytes}

theorem initial (env : Env) (base : Nat) (coins : CoinsView) :
    NodeInv env (Node.initial base coins) where
  lawful := trivial
  named := Named.empty
  stores := {
    cachedName := fun _ _ found => by cases found
    storedName := fun _ _ found => by cases found
    cached := fun _ found => by cases found
    stored := fun _ => Iff.rfl }
  disjoint _ gone := by cases gone
  names name := by
    simp [AssetState.Dumped, Node.Stored, Node.initial, AssetState.initial, AssetsCache.empty,
      issuedOn]
  made _ _ found := by cases found
  undone _ _ found := by cases found

variable (inv : NodeInv env node)

include inv

theorem namedState : NamedState node.assets :=
  ⟨inv.named, inv.stores.cachedName, inv.stores.storedName⟩

theorem recorded_iff :
    (node.assets.passets.setNewAssetsToRemove.lookup name = none ∧ Recorded node.assets name) ↔
      name ∈ issuedOn env node.chain := by
  rw [← inv.names name]
  constructor
  · rintro ⟨kept, added | cached | stored⟩
    · exact .inr added
    · exact .inl ⟨inv.stores.cached name cached, kept⟩
    · exact .inl ⟨stored, kept⟩
  · rintro (⟨stored, kept⟩ | added)
    · exact ⟨kept, .inr (.inr stored)⟩
    · refine ⟨?_, .inl added⟩
      cases gone : node.assets.passets.setNewAssetsToRemove.lookup name with
      | none => rfl
      | some entry =>
        rw [inv.disjoint name (by rw [gone]; rfl)] at added
        cases added

theorem dump :
    NodeInv env { node with assets := node.assets.dumpCacheToDatabase env } := by
  have assets := stores_dumpAssets inv.stores env inv.named
    (fun out entry found => by
      obtain ⟨block, inChain, tx, inBlock, address, reissues, _⟩ := inv.made out entry found
      exact (inv.names _).mpr (inv.lawful.known inChain inBlock reissues))
    (fun out entry found => (inv.undone out entry found).imp_right (inv.names _).mpr)
  have stores : Stores _ (node.assets.dumpCacheToDatabase env) :=
    (stores_dumpSpends (stores_dumpRestrictions assets _) env _).of_same rfl rfl
  refine {
    lawful := inv.lawful
    named := Named.empty
    stores := stores.congr fun name => (stores.stored name).symm
    disjoint := fun _ gone => by cases gone
    names := fun name => ?_
    made := fun _ _ found => by cases found
    undone := fun _ _ found => by cases found }
  rw [← inv.names name, ← stores.stored name]
  simp [AssetState.Dumped, Node.Stored, dumpCacheToDatabase, empty]

theorem refresh (name : Bytes) :
    NodeInv env { node with assets := node.assets.refreshAsset name } := by
  have passets : (node.assets.refreshAsset name).passets = node.assets.passets := by
    unfold refreshAsset
    split <;> rfl
  have data : (node.assets.refreshAsset name).passetsdb = node.assets.passetsdb := by
    unfold refreshAsset
    split <;> rfl
  have stored : ({ node with assets := node.assets.refreshAsset name } : Node).Stored =
      node.Stored := by
    funext other
    rw [Node.Stored, Node.Stored, data]
  refine {
    lawful := inv.lawful
    named := by rw [passets]; exact inv.named
    stores := by rw [stored]; exact inv.stores.refresh name
    disjoint := by rw [passets]; exact inv.disjoint
    names := by rw [passets, stored]; exact inv.names
    made := by rw [passets]; exact inv.made
    undone := by rw [passets]; exact inv.undone }

end NodeInv

namespace Node

variable (env : Env) (node : Node)

/-- The transactions of a block that follow others: none issues a name that an
earlier one issued while it is withdrawn in the global cache, and a reissue names
an asset issued earlier or on the chain. -/
def orderlyTxs : List Bytes → List Transaction → Bool
  | _, [] => true
  | before, tx :: rest =>
    ((tx.issuedNames env).all fun name => !(before.contains name &&
      (node.assets.passets.setNewAssetsToRemove.lookup name).isSome)) &&
    ((tx.reissuedNames env).all fun name =>
      (issuedOn env node.chain).contains name || before.contains name) &&
    orderlyTxs (before ++ tx.issuedNames env) rest

def orderly : NodeStep → Bool
  | .connect block _ _ => decide (block.BareCoinbase env) && node.orderlyTxs env [] block.vtx
  | .disconnect | .dump | .refresh _ => true

/-- The loop of `ConnectBlock` over the first transactions of a block. -/
def connectTxs (rules : BlockRules) (block : Block) (mempool : MempoolMaps) (currentTime : Int)
    (txs : List Transaction) : Check Connecting :=
  txs.foldlM (connectTx env rules node.assets mempool (node.height + 1) block currentTime)
    ⟨⟨node.coins, .empty⟩, 0, 0, [], [], []⟩

variable {env node}

theorem orderlyTxs_split {before : List Bytes} {pre post : List Transaction} {tx : Transaction}
    (orderly : node.orderlyTxs env before (pre ++ tx :: post) = true) :
    (∀ name ∈ tx.issuedNames env, name ∈ before ∨ name ∈ issuedBy env pre →
      node.assets.passets.setNewAssetsToRemove.lookup name = none) ∧
    ∀ name ∈ tx.reissuedNames env, name ∈ issuedOn env node.chain ∨ name ∈ before ∨
      name ∈ issuedBy env pre := by
  induction pre generalizing before with
  | nil =>
    rw [List.nil_append, orderlyTxs, Bool.and_eq_true, Bool.and_eq_true, List.all_eq_true,
      List.all_eq_true] at orderly
    obtain ⟨⟨issues, reissues⟩, _⟩ := orderly
    refine ⟨fun name issued earlier => ?_, fun name reissued => ?_⟩
    · simpa [earlier.resolve_right (by simp [issuedBy])] using issues name issued
    · simpa [issuedBy] using reissues name reissued
  | cons first rest ih =>
    rw [List.cons_append, orderlyTxs, Bool.and_eq_true] at orderly
    simpa [mem_issuedBy_cons, or_assoc] using ih orderly.2

theorem connectTip_ok {rules : BlockRules} {block : Block} {mempool : MempoolMaps}
    {currentTime : Int} {next : Node}
    (connects : node.connectTip env rules block mempool currentTime = .ok next) :
    block.hash ≠ rules.hashGenesisBlock ∧ ∃ connected,
      connectBlock env rules node.assets mempool (node.height + 1) block currentTime
        ⟨node.coins, .empty⟩ = .ok connected ∧
      next = { node.writeUndo block connected with
        chain := block :: node.chain
        coins := connected.view.coins
        assets := (node.writeUndo block connected).assets.flush connected.view.assets } := by
  unfold connectTip at connects
  obtain ⟨_, notGenesis, connected, passes, connects⟩ := ok_bind₂ connects
  rw [require_eq_ok, decide_eq_true_eq] at notGenesis
  exact ⟨notGenesis, connected, passes, (pure_eq_ok.mp connects).symm⟩

theorem disconnectTip_ok {next : Node} (disconnects : node.disconnectTip env = .ok next) :
    ∃ block below vtxundo disconnected, node.chain = block :: below ∧
      node.blockUndo.lookup block.hash = some vtxundo ∧
      disconnectBlock env node.assets node.height block vtxundo
        ((node.assets.passetsdb.blockUndo.lookup block.hash).getD []) ⟨node.coins, .empty⟩ =
          .ok disconnected ∧
      next = { node with
        chain := below
        coins := disconnected.view.coins
        assets := node.assets.flush disconnected.view.assets } := by
  unfold disconnectTip at disconnects
  split at disconnects
  · cases disconnects
  · rename_i block below tip
    obtain ⟨vtxundo, found, disconnected, passes, _, _, disconnects⟩ := ok_bind₃ disconnects
    exact ⟨block, below, vtxundo, disconnected, tip, require?_eq_ok.mp found, passes,
      (pure_eq_ok.mp disconnects).symm⟩

theorem writeUndo_frame {β : Type} (part : AssetState → β)
    (other : ∀ (state : AssetState) undo, part { state with
      passetsdb := { state.passetsdb with blockUndo := undo } } = part state)
    (node : Node) (block : Block) (connected : Connected) :
    part (node.writeUndo block connected).assets = part node.assets := by
  unfold writeUndo
  split
  · rfl
  · exact other node.assets _

end Node

namespace NodeInv

section

variable {env : Env} {rules : BlockRules} {node next : Node} {name : Bytes} {block : Block}
  {mempool : MempoolMaps} {currentTime : Int} {pre post : List Transaction} {tx : Transaction}
  {acc : Connecting} {cache : AssetsCache}

variable (inv : NodeInv env node)

include inv

theorem exists_iff (notReindexing : env.fReindex = false) (issuing : Issuing env pre cache) :
    cache.checkIfAssetExists env node.assets name = true ↔ name ∈ issuedOn env node.chain ∨
      (name ∈ issuedBy env pre ∧ node.assets.passets.setNewAssetsToRemove.lookup name = none) := by
  rw [checkIfAssetExists_iff notReindexing, issuing.removed, issuing.added, ← inv.recorded_iff]
  tauto

theorem exists_iff_of_orderly (notReindexing : env.fReindex = false)
    (orderly : node.orderlyTxs env [] (pre ++ tx :: post) = true)
    (issuing : Issuing env pre cache) (issued : name ∈ tx.issuedNames env) :
    cache.checkIfAssetExists env node.assets name = true ↔
      name ∈ issuedOn env node.chain ∨ name ∈ issuedBy env pre := by
  rw [inv.exists_iff notReindexing issuing]
  have kept := (orderlyTxs_split orderly).1 name issued
  exact or_congr_right (and_iff_left_of_imp fun earlier => kept (.inr earlier))

theorem issuing (deployed : env.areAssetsDeployed = true)
    (notReindexing : env.fReindex = false) (bare : block.BareCoinbase env)
    (checked : checkBlock env rules block = .ok ()) (split : block.vtx = pre ++ post)
    (passes : node.connectTxs env rules block mempool currentTime pre = .ok acc) :
    Issuing env pre acc.view.assets := by
  have inBlock : ∀ tx ∈ pre, tx ∈ block.vtx := fun tx member =>
    split ▸ List.mem_append_left post member
  exact connectTxs_scan deployed notReindexing
    (fun tx member => checkBlock_ok checked tx (inBlock tx member)) bare inBlock passes
    (fun txs cache _ => Issuing env txs cache) (Issuing.empty env)
    fun _ _ _ _ _ _ _ _ checkedTx made issuing => issuing.step inv.namedState checkedTx made

theorem on (deployed : env.areAssetsDeployed = true)
    (notReindexing : env.fReindex = false) (notGenesis : block.hash ≠ rules.hashGenesisBlock)
    (bare : block.BareCoinbase env) (orderly : node.orderlyTxs env [] block.vtx = true)
    {connected : Connected}
    (passes : connectBlock env rules node.assets mempool (node.height + 1) block currentTime
      ⟨node.coins, .empty⟩ = .ok connected) : block.On env node.chain := by
  obtain ⟨final, checked, looped, _, _⟩ := connectBlock_ok notGenesis passes
  refine ⟨?_, ?_, ?_⟩
  · intro tx member
    obtain ⟨_, use, stages⟩ := checkTransaction_ok (checkBlock_ok checked tx member)
    have kind := stages.kind
    exact ⟨use, kind⟩
  · intro pre tx post split name issued
    have member : tx ∈ block.vtx := split ▸ List.mem_append_right pre List.mem_cons_self
    have checkedTx := checkBlock_ok checked tx member
    obtain ⟨_, use, stages⟩ := checkTransaction_ok checkedTx
    have kind := stages.kind
    rw [split] at looped orderly
    obtain ⟨acc, before, looped⟩ := foldlM_append_eq_ok.mp looped
    obtain ⟨after, connects, _⟩ := foldlM_cons_eq_ok.mp looped
    obtain ⟨_, _, made⟩ := connectTx_connected deployed notReindexing checkedTx
      (bare.bare member checkedTx) connects
    have absent := made.fresh name ((mem_issueNames_iff kind).mpr issued)
    have exact' := inv.exists_iff_of_orderly notReindexing orderly
      (inv.issuing deployed notReindexing bare checked split before) issued
    rw [absent] at exact'
    exact not_or.mp fun earlier => by cases exact'.mpr earlier
  · intro pre tx post split reissue address reissues
    rw [split] at orderly
    have known := (orderlyTxs_split orderly).2 _ (reissuedNames_of_reissuance reissues)
    simpa using known

theorem connect (on : block.On env node.chain) (issuing : Issuing env block.vtx cache)
    (chain : next.chain = block :: node.chain)
    (passets : next.assets.passets = cache.flushInto node.assets.passets)
    (cached : next.assets.passetsCache = node.assets.passetsCache)
    (data : next.assets.passetsdb.assetData = node.assets.passetsdb.assetData) :
    NodeInv env next := by
  have stored : next.Stored = node.Stored := by
    funext name
    rw [Node.Stored, Node.Stored, data]
  have removed : ∀ name, next.assets.passets.setNewAssetsToRemove.lookup name =
      if (cache.setNewAssetsToAdd.lookup name).isSome then none
      else node.assets.passets.setNewAssetsToRemove.lookup name := by
    intro name
    rw [passets, flushInto_removed, issuing.removed, Option.or_none]
  have added : ∀ name, next.assets.passets.setNewAssetsToAdd.lookup name =
      (node.assets.passets.setNewAssetsToAdd.lookup name).or
        (cache.setNewAssetsToAdd.lookup name) := by
    intro name
    rw [passets, flushInto_added, issuing.removed]
    rfl
  refine {
    lawful := by rw [chain]; exact ⟨on, inv.lawful⟩
    named := by rw [passets]; exact issuing.named.flushInto inv.named
    stores := by rw [stored]; exact inv.stores.of_same data cached
    disjoint := ?_
    names := ?_
    made := ?_
    undone := ?_ }
  · intro name gone
    rw [removed] at gone
    split at gone
    · cases gone
    · rename_i notIssued
      rw [added, inv.disjoint name gone, Option.none_or]
      simpa using notIssued
  · intro name
    rw [chain, mem_issuedOn_cons, ← issuing.added, ← inv.names name, stored, AssetState.Dumped,
      AssetState.Dumped, removed, added]
    cases cache.setNewAssetsToAdd.lookup name <;> simp
  · intro out entry found
    rw [passets, flushInto_reissueAdded, issuing.undone] at found
    rw [chain]
    rcases Option.or_eq_some_iff.mp found with earlier | ⟨_, now⟩
    · obtain ⟨other, inChain, rest⟩ := inv.made out entry earlier
      exact ⟨other, List.mem_cons_of_mem block inChain, rest⟩
    · exact ⟨block, List.mem_cons_self, issuing.made out entry now⟩
  · intro out entry found
    rw [passets, flushInto_reissueRemoved, issuing.undone, Option.or_none] at found
    split at found
    · cases found
    · rw [chain, mem_issuedOn_cons, ← issuing.added, removed]
      have pending := inv.undone out entry found
      split
      · rename_i issued
        exact .inr (.inl issued)
      · exact pending.imp_right .inr

end

section

variable {env : Env} {node next : Node} {block : Block} {below : List Block} {cache : AssetsCache}

theorem disconnect (inv : NodeInv env node) (tip : node.chain = block :: below)
    (withdrawing : Withdrawing env block.vtx cache) (chain : next.chain = below)
    (passets : next.assets.passets = cache.flushInto node.assets.passets)
    (cached : next.assets.passetsCache = node.assets.passetsCache)
    (data : next.assets.passetsdb.assetData = node.assets.passetsdb.assetData) :
    NodeInv env next := by
  have lawful := inv.lawful
  rw [tip] at lawful
  obtain ⟨on, lawful⟩ := lawful
  have stored : next.Stored = node.Stored := by
    funext name
    rw [Node.Stored, Node.Stored, data]
  have removed : ∀ name, next.assets.passets.setNewAssetsToRemove.lookup name =
      (node.assets.passets.setNewAssetsToRemove.lookup name).or
        (cache.setNewAssetsToRemove.lookup name) := by
    intro name
    rw [passets, flushInto_removed, withdrawing.added]
    rfl
  have added : ∀ name, next.assets.passets.setNewAssetsToAdd.lookup name =
      if (cache.setNewAssetsToRemove.lookup name).isSome then none
      else node.assets.passets.setNewAssetsToAdd.lookup name := by
    intro name
    rw [passets, flushInto_added, withdrawing.added, Option.or_none]
  -- a name of the chain before is on the chain below or among the withdrawn
  have leaves : ∀ name, name ∈ issuedOn env node.chain →
      (next.assets.passets.setNewAssetsToRemove.lookup name).isSome ∨ name ∈ issuedOn env below := by
    intro name onChain
    rw [tip, mem_issuedOn_cons, ← withdrawing.removed] at onChain
    refine onChain.imp_left fun gone => ?_
    rw [removed, Option.isSome_or, gone, Bool.or_true]
  refine {
    lawful := by rw [chain]; exact lawful
    named := by rw [passets]; exact withdrawing.named.flushInto inv.named
    stores := by rw [stored]; exact inv.stores.of_same data cached
    disjoint := ?_
    names := ?_
    made := ?_
    undone := ?_ }
  · intro name gone
    rw [added]
    split
    · rfl
    · rename_i kept
      rw [removed, Option.isSome_or, Bool.or_eq_true, or_iff_left kept] at gone
      exact inv.disjoint name gone
  · intro name
    have before := inv.names name
    rw [tip, mem_issuedOn_cons, ← withdrawing.removed] at before
    rw [chain, stored, AssetState.Dumped, removed, added]
    cases gone : cache.setNewAssetsToRemove.lookup name with
    | none => simpa [gone, AssetState.Dumped] using before
    | some entry =>
      have issued := (withdrawing.removed name).mp (by rw [gone]; rfl)
      obtain ⟨tx, member, issues⟩ := List.mem_flatMap.mp issued
      obtain ⟨pre, post, split⟩ := List.append_of_mem member
      have fresh := (on.fresh pre tx post split name issues).1
      simp [fresh]
  · intro out entry found
    rw [passets, flushInto_reissueAdded, withdrawing.made, Option.or_none] at found
    split at found
    · cases found
    · rename_i notUndone
      obtain ⟨other, inChain, tx, inBlock, address, reissues, ofTx⟩ := inv.made out entry found
      rw [tip] at inChain
      rcases List.mem_cons.mp inChain with rfl | deeper
      · refine absurd (withdrawing.complete tx inBlock (by rw [reissues]; rfl)) ?_
        rwa [ofTx]
      · exact ⟨other, chain ▸ deeper, tx, inBlock, address, reissues, ofTx⟩
  · intro out entry found
    rw [passets, flushInto_reissueRemoved, withdrawing.made] at found
    rw [chain]
    rcases Option.or_eq_some_iff.mp found with earlier | ⟨_, now⟩
    · rcases inv.undone out entry earlier with gone | onChain
      · exact .inl (by rw [removed, Option.isSome_or, gone, Bool.true_or])
      · exact leaves _ onChain
    · obtain ⟨tx, inBlock, address, reissues⟩ := withdrawing.undone out entry now
      exact leaves _ (inv.lawful.known (tip ▸ List.mem_cons_self) inBlock reissues)

theorem withdrawing (inv : NodeInv env node) (deployed : env.areAssetsDeployed = true)
    (notReindexing : env.fReindex = false) (tip : node.chain = block :: below)
    {vtxundo : List (List Coin)} {vUndoData : List (Bytes × BlockAssetUndo)}
    {disconnected : Disconnected}
    (passes : disconnectBlock env node.assets node.height block vtxundo vUndoData
      ⟨node.coins, .empty⟩ = .ok disconnected) :
    Withdrawing env block.vtx disconnected.view.assets := by
  have lawful := inv.lawful
  rw [tip] at lawful
  exact disconnectBlock_scan deployed passes (Withdrawing env) (Withdrawing.empty env)
    fun _ _ _ _ _ _ split made withdrawing =>
      withdrawing.step notReindexing inv.namedState (fun name => tip ▸ inv.recorded_iff) lawful.1
        split made

end

theorem step {env : Env} {rules : BlockRules} {node next : Node} {op : NodeStep}
    (deployed : env.areAssetsDeployed = true) (notReindexing : env.fReindex = false)
    (inv : NodeInv env node) (may : node.orderly env op = true)
    (steps : node.step env rules op = some next) : NodeInv env next := by
  cases op with
  | connect block mempool currentTime =>
    obtain ⟨notGenesis, connected, passes, rfl⟩ := connectTip_ok
      (toOption_eq_some.mp steps)
    rw [orderly, Bool.and_eq_true, decide_eq_true_eq] at may
    have passets := writeUndo_frame passets (fun _ _ => rfl) node block connected
    have cached := writeUndo_frame passetsCache (fun _ _ => rfl) node block connected
    have data := writeUndo_frame (fun state => state.passetsdb.assetData) (fun _ _ => rfl) node
      block connected
    obtain ⟨final, checked, looped, _, rfl⟩ := connectBlock_ok notGenesis passes
    refine inv.connect (inv.on deployed notReindexing notGenesis may.1 may.2 passes)
      (inv.issuing deployed notReindexing may.1 checked (List.append_nil _).symm looped) rfl ?_
      cached data
    exact congrArg final.view.assets.flushInto passets
  | disconnect =>
    obtain ⟨block, below, _, disconnected, tip, _, passes, rfl⟩ := disconnectTip_ok
      (toOption_eq_some.mp steps)
    exact inv.disconnect tip (inv.withdrawing deployed notReindexing tip passes) rfl rfl rfl rfl
  | dump =>
    cases steps
    exact inv.dump
  | refresh name =>
    cases steps
    exact inv.refresh name

theorem of_run {env : Env} {rules : BlockRules} {base : Nat} {coins : CoinsView} {node : Node}
    (deployed : env.areAssetsDeployed = true) (notReindexing : env.fReindex = false)
    (run : Runs.Run (Node.step env rules) (Node.orderly env) (Node.initial base coins) node) :
    NodeInv env node :=
  run.invariant (NodeInv env) (NodeInv.initial env base coins) fun _ _ _ inv may steps =>
    inv.step deployed notReindexing may steps

end NodeInv

/-- Over every run of orderly steps, an orderly block is refused when it issues a name
that the active chain or an earlier transaction of the block issued, and the check
for a name already in use answers yes in these cases and in no others. -/
theorem issued_names_are_refused (env : Env) (rules : BlockRules)
    (deployed : env.areAssetsDeployed = true) (notReindexing : env.fReindex = false)
    (base : Nat) (coins : CoinsView) (node : Node)
    (run : Runs.Run (Node.step env rules) (Node.orderly env) (Node.initial base coins) node)
    (block : Block) (mempool : MempoolMaps) (currentTime : Int)
    (orderly : node.orderly env (.connect block mempool currentTime) = true)
    (pre : List Transaction) (tx : Transaction) (post : List Transaction)
    (split : block.vtx = pre ++ tx :: post) (name : Bytes) (issued : name ∈ tx.issuedNames env) :
    (name ∈ issuedOn env node.chain ∨ name ∈ issuedBy env pre →
      node.step env rules (.connect block mempool currentTime) = none) ∧
    ∀ acc, checkBlock env rules block = .ok () →
      node.connectTxs env rules block mempool currentTime pre = .ok acc →
      (acc.view.assets.checkIfAssetExists env node.assets name = true ↔
        name ∈ issuedOn env node.chain ∨ name ∈ issuedBy env pre) := by
  have inv := NodeInv.of_run deployed notReindexing run
  rw [Node.orderly, Bool.and_eq_true, decide_eq_true_eq] at orderly
  obtain ⟨bare, orderly⟩ := orderly
  constructor
  · intro live
    cases steps : node.step env rules (.connect block mempool currentTime) with
    | none => rfl
    | some next =>
      obtain ⟨notGenesis, connected, passes, _⟩ := Node.connectTip_ok (toOption_eq_some.mp steps)
      have on := inv.on deployed notReindexing notGenesis bare orderly passes
      exact absurd live (not_or.mpr (on.fresh pre tx post split name issued))
  · intro acc checked passes
    exact inv.exists_iff_of_orderly notReindexing (split ▸ orderly)
      (inv.issuing deployed notReindexing bare checked split passes) issued

namespace Existence

open MainNet

def token : Bytes := ascii "TOKEN"

def wallet : CoinsView := coins [(⟨1, 0⟩, pay coin alice), (⟨1, 1⟩, pay coin alice)]

/-- Alice issues `TOKEN` with the coin of the given index. -/
def issuance (hash : Uint256) (n : Nat) : Transaction :=
  transaction hash [⟨1, n⟩]
    [pay (coin / 10) burnKey, pay (coin / 2) alice, owner ⟨token, 5 * coin, 0, 1, 0, []⟩,
      issue ⟨token, 5 * coin, 0, 1, 0, []⟩]

def connect (block : Block) : NodeStep := .connect block .empty 0

/-- A block that issues `TOKEN`, and one that issues it twice. -/
def once : Block := block 7 [issuance 2 0]

def twice : Block := block 8 [issuance 2 0, issuance 3 1]

/-- With `TOKEN` on the chain, a further block that issues it is refused. -/
theorem issued_names_are_refused_again : ∃ node,
    Runs.Run (Node.step env rules) (Node.orderly env) (Node.initial 9 wallet) node ∧
      issuedOn env node.chain = [token] ∧
      node.step env rules (connect (block 8 [issuance 3 1])) = none := by
  have observed : (Runs.execute (step env rules) (orderly env) (initial 9 wallet)
      [connect once]).bind (fun node => some (issuedOn env node.chain,
        node.orderly env (connect (block 8 [issuance 3 1])))) = some ([token], true) := by
    decide +kernel
  obtain ⟨node, run, seen⟩ := Runs.exists_run_of_execute observed
  obtain ⟨names, orderly⟩ := Prod.mk.inj (Option.some.inj seen)
  have refused := issued_names_are_refused env rules rfl rfl 9 wallet node run
    (block 8 [issuance 3 1]) .empty 0 orderly [coinbase 1008] (issuance 3 1) [] rfl token
    (by decide +kernel)
  exact ⟨node, run, names, refused.1 (.inl (by rw [names]; exact List.mem_singleton_self token))⟩

/-- A block that issues `TOKEN` is connected and disconnected, and then one that
issues it twice is connected: the name issued first counts as withdrawn. -/
theorem token_issued_twice : ∃ node,
    Runs.Run (Node.step env rules) (fun _ _ => true) (Node.initial 9 wallet) node ∧
      issuedOn env node.chain = [token, token] := by
  have observed : (Runs.execute (step env rules) (fun _ _ => true) (initial 9 wallet)
      [connect once, .disconnect, connect twice]).bind
      (fun node => some (issuedOn env node.chain)) = some [token, token] := by
    decide +kernel
  obtain ⟨node, run, names⟩ := Runs.exists_run_of_execute observed
  exact ⟨node, run, Option.some.inj names⟩

end Existence

end Phicoin
