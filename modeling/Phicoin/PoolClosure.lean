import Phicoin.BlockRemoval
import Phicoin.CoinEffects

/-! # The pool stays closed under parents

Every input of the pool is an unspent output of the chain or an output of another
transaction of the pool.  A block keeps this for what it mines and for what
conflicts with it.  What its asset changes select leaves without its children,
which are then left without a parent. -/

namespace Phicoin

open Check Relation List Transaction CoinsView

namespace Mempool

def HasOutput (pool : Mempool) (out : OutPoint) : Prop :=
  ∃ entry, pool.mapTx.lookup out.hash = some entry ∧ out.n < entry.tx.vout.length

/-- Each input of each entry is unspent in the chain or an output of another entry. -/
def ClosedOver (pool : Mempool) (coins : CoinsView) : Prop :=
  ∀ out hash, pool.SpentBy out hash →
    (coins.lookup out).isSome = true ∨ out.hash ≠ hash ∧ pool.HasOutput out

/-- No descendant of a transaction that left, other than with the block, remains. -/
def NoOrphans (pool final : Mempool) (vtx : List Transaction) : Prop :=
  ∀ hash, pool.contains hash = true → hash ∉ vtx.map Transaction.hash →
    final.contains hash = false →
    ∀ descendant, TransGen pool.Child hash descendant → final.contains descendant = false

/-- Hashes identify transactions: a block has no other transaction under a hash of the
pool, and the chain has no coins of a transaction that waits in the pool. -/
structure HashesIdentify (pool : Mempool) (coins : CoinsView) (vtx : List Transaction) : Prop where
  block : ∀ tx ∈ vtx, ∀ entry, pool.mapTx.lookup tx.hash = some entry →
    entry.tx.vin.map TxIn.prevout = tx.vin.map TxIn.prevout ∧ entry.tx.vout = tx.vout
  chain : ∀ out, pool.contains out.hash = true → coins.lookup out = none

/-- What the asset changes of a block select leaves with its children, and what
remains spends no output of a mined transaction that the chain does not keep. -/
structure FamiliesLeave (pool : Mempool) (vtx : List Transaction) (selected : List Uint256) :
    Prop where
  children : ∀ parent ∈ selected, parent ∉ vtx.map Transaction.hash →
    ∀ child, pool.Child parent child → child ∈ selected ∨ pool.Conflicted vtx child
  spendable : ∀ out hash, pool.SpentBy out hash → hash ∉ vtx.map Transaction.hash →
    ¬ pool.Conflicted vtx hash → hash ∉ selected → out.hash ∈ vtx.map Transaction.hash →
    ∀ entry output, pool.mapTx.lookup out.hash = some entry → entry.tx.vout[out.n]? = some output →
      isUnspendable output.scriptPubKey = false

end Mempool

theorem Transaction.isCoinBase_congr {first second : Transaction}
    (same : first.vin.map TxIn.prevout = second.vin.map TxIn.prevout) :
    first.isCoinBase = second.isCoinBase := by
  unfold isCoinBase
  generalize first.vin = left at same ⊢
  generalize second.vin = right at same ⊢
  rcases left with _ | ⟨input, _ | ⟨other, rest⟩⟩ <;>
    rcases right with _ | ⟨input', _ | ⟨other', rest'⟩⟩ <;> simp_all

namespace Mempool

section

variable {env : Env} {rules : BlockRules} {state : AssetState} {mempool : MempoolMaps}
  {nHeight : Nat} {block : Block} {currentTime : Int} {view : BlockView} {connected : Connected}
  {pool : Mempool}

theorem parentsFirst_of_accepted (notGenesis : block.hash ≠ rules.hashGenesisBlock)
    (accepted : connectBlock env rules state mempool nHeight block currentTime view = .ok connected)
    (linked : pool.Linked) (identify : pool.HashesIdentify view.coins block.vtx) :
    pool.ParentsFirst block.vtx := by
  rintro before tx after parent order ⟨out, ⟨entry, found, member⟩, rfl⟩ there
  have inBlock : tx ∈ block.vtx := by simp [order]
  obtain ⟨sameInputs, _⟩ := identify.block tx inBlock entry found
  have notCoinbase : tx.isCoinBase = false := by
    rw [← isCoinBase_congr sameInputs]
    exact linked.spending tx.hash entry found
  rw [sameInputs] at member
  obtain ⟨input, isInput, rfl⟩ := mem_map.mp member
  rcases source_foldl_connect
    (connectBlock_spends notGenesis accepted order notCoinbase isInput) with old | ⟨tx', earlier, made⟩
  · rw [identify.chain input.prevout there] at old
    cases old
  · rw [(created_isSome.mp made).1]
    exact mem_map_of_mem earlier

theorem unspent_of_remains {vtx : List Transaction} {out : OutPoint} {hash : Uint256}
    (spent : pool.SpentBy out hash) (notMined : hash ∉ vtx.map Transaction.hash)
    (notConflicted : ¬ pool.Conflicted vtx hash) :
    ∀ tx ∈ vtx, tx.isCoinBase = false → out ∉ tx.vin.map TxIn.prevout := by
  intro tx member _ again
  obtain ⟨before, after, rfl⟩ := List.append_of_mem member
  obtain ⟨input, isInput, rfl⟩ := List.mem_map.mp again
  simp only [List.map_append, List.map_cons, List.mem_append, List.mem_cons, not_or] at notMined
  exact notConflicted ⟨before, tx, after, hash, rfl,
    ⟨notMined.1, notMined.2.1, input, isInput, spent⟩, .refl⟩

theorem Conflicted.child {vtx : List Transaction} {parent child : Uint256}
    (conflicted : pool.Conflicted vtx parent) (isChild : pool.Child parent child) :
    pool.Conflicted vtx child := by
  obtain ⟨before, tx, after, conflict, order, conflicts, path⟩ := conflicted
  exact ⟨before, tx, after, conflict, order, conflicts, path.tail isChild⟩

theorem not_mined_child {vtx : List Transaction} (parentsFirst : pool.ParentsFirst vtx)
    {parent child : Uint256} (there : pool.contains parent = true)
    (notMined : parent ∉ vtx.map hash) (isChild : pool.Child parent child) :
    child ∉ vtx.map hash := by
  intro mined
  obtain ⟨tx, inBlock, rfl⟩ := mem_map.mp mined
  obtain ⟨before, after, order⟩ := append_of_mem inBlock
  refine notMined ?_
  rw [order, map_append, mem_append]
  exact .inl (parentsFirst before tx after parent order isChild there)

theorem FamiliesLeave.descendant {vtx : List Transaction} {selected : List Uint256}
    (families : pool.FamiliesLeave vtx selected) (parentsFirst : pool.ParentsFirst vtx)
    {hash descendant : Uint256} (there : pool.contains hash = true)
    (notMined : hash ∉ vtx.map Transaction.hash)
    (leaves : hash ∈ selected ∨ pool.Conflicted vtx hash)
    (path : TransGen pool.Child hash descendant) :
    descendant ∈ selected ∨ pool.Conflicted vtx descendant := by
  have next : ∀ {parent child}, parent ∉ vtx.map Transaction.hash →
      (parent ∈ selected ∨ pool.Conflicted vtx parent) → pool.Child parent child →
      child ∈ selected ∨ pool.Conflicted vtx child := by
    intro parent child notMined leaves isChild
    rcases leaves with isSelected | conflicted
    · exact families.children parent isSelected notMined child isChild
    · exact .inr (conflicted.child isChild)
  suffices all : (descendant ∈ selected ∨ pool.Conflicted vtx descendant) ∧
      pool.contains descendant = true ∧ descendant ∉ vtx.map Transaction.hash from all.1
  induction path with
  | single isChild =>
    exact ⟨next notMined leaves isChild, contains_of_child isChild,
      not_mined_child parentsFirst there notMined isChild⟩
  | tail _ isChild ih =>
    obtain ⟨leaves', there', notMined'⟩ := ih
    exact ⟨next notMined' leaves' isChild, contains_of_child isChild,
      not_mined_child parentsFirst there' notMined' isChild⟩

variable {later : AssetState}

def selected (pool : Mempool) (env : Env) (later : AssetState) (connected : Connected) :
    List Uint256 :=
  (pool.evicted env later connected.view.coins connected.view.assets).trans.map Transaction.hash

def afterBlock (pool : Mempool) (env : Env) (later : AssetState) (connected : Connected)
    (vtx : List Transaction) : Mempool :=
  pool.removeForBlock env later connected.view.coins connected.view.assets vtx

theorem spentBy_afterBlock {out : OutPoint} {hash : Uint256} :
    (pool.afterBlock env later connected block.vtx).SpentBy out hash ↔ pool.SpentBy out hash ∧
        (pool.afterBlock env later connected block.vtx).contains hash = true := by
  have removal : Removal pool (pool.afterBlock env later connected block.vtx) :=
    removal_removeForBlock _ _ _ _ _ _
  refine ⟨fun spent => ⟨removal.spentBy spent, contains_of_spentBy spent⟩, ?_⟩
  rintro ⟨⟨entry, found, member⟩, kept⟩
  exact ⟨entry, (removal.lookup_eq kept).trans found, member⟩

/-- **Closure.**  After an accepted block the pool is closed and free of orphans
exactly when what the asset changes select leaves with its children and no
remaining transaction spends an output that the chain drops. -/
theorem removeForBlock_closed_iff (notGenesis : block.hash ≠ rules.hashGenesisBlock)
    (accepted : connectBlock env rules state mempool nHeight block currentTime view = .ok connected)
    (linked : pool.Linked) (identify : pool.HashesIdentify view.coins block.vtx)
    (closed : pool.ClosedOver view.coins) (later : AssetState) :
    ((pool.afterBlock env later connected block.vtx).ClosedOver connected.view.coins ∧
      pool.NoOrphans (pool.afterBlock env later connected block.vtx) block.vtx) ↔
      pool.FamiliesLeave block.vtx (pool.selected env later connected) := by
  have parentsFirst := parentsFirst_of_accepted notGenesis accepted linked identify
  have remains : ∀ hash, (pool.afterBlock env later connected block.vtx).contains hash = true ↔ _ :=
    fun hash => contains_removeForBlock linked parentsFirst env later _ _ hash
  have removal : Removal pool (pool.afterBlock env later connected block.vtx) :=
    removal_removeForBlock _ _ _ _ _ _
  have coins := connectBlock_coins notGenesis accepted
  constructor
  · rintro ⟨closedAfter, noOrphans⟩
    refine ⟨fun parent isSelected notMined child isChild => ?_, ?_⟩
    · -- a child that is neither selected nor in conflict would remain
      by_contra stays
      rw [not_or] at stays
      have there : pool.contains parent = true := by
        obtain ⟨tx, isTx, rfl⟩ := List.mem_map.mp isSelected
        obtain ⟨hash, entry, found, rfl⟩ := selectsEntries_evicted _ _ _ _ _ tx isTx
        rw [linked.keyed hash entry found]
        exact contains_iff.mpr ⟨entry, found⟩
      have gone : (pool.afterBlock env later connected block.vtx).contains parent = false :=
        Bool.eq_false_iff.mpr fun kept => ((remains parent).mp kept).2.2.2 isSelected
      have orphan := noOrphans parent there notMined gone child (.single isChild)
      rw [(remains child).mpr ⟨contains_of_child isChild,
        not_mined_child parentsFirst there notMined isChild, stays.2, stays.1⟩] at orphan
      cases orphan
    · intro out hash spent notMined notConflicted notSelected mined entry output found read
      have kept := (remains hash).mpr
        ⟨contains_of_spentBy spent, notMined, notConflicted, notSelected⟩
      rcases closedAfter out hash (spentBy_afterBlock.mpr ⟨spent, kept⟩) with unspent | ⟨_, parent⟩
      · rw [coins] at unspent
        rcases CoinsView.source_foldl_connect unspent with old | ⟨tx, inBlock, made⟩
        · rw [identify.chain out (contains_iff.mpr ⟨entry, found⟩)] at old
          cases old
        · obtain ⟨own, output', read', spendable⟩ := CoinsView.created_isSome.mp made
          rw [own] at found
          rw [(identify.block tx inBlock entry found).2, read'] at read
          exact Option.some.inj read ▸ spendable
      · obtain ⟨entry', found', _⟩ := parent
        exact absurd mined ((remains out.hash).mp (contains_iff.mpr ⟨entry', found'⟩)).2.1
  · intro families
    have noOrphans : pool.NoOrphans (pool.afterBlock env later connected block.vtx) block.vtx := by
      intro hash there notMined gone descendant path
      have leaves : hash ∈ pool.selected env later connected ∨ pool.Conflicted block.vtx hash := by
        by_contra stays
        rw [not_or] at stays
        rw [(remains hash).mpr ⟨there, notMined, stays.2, stays.1⟩] at gone
        cases gone
      refine Bool.eq_false_iff.mpr fun kept => ?_
      obtain ⟨_, _, notConflicted, notSelected⟩ := (remains descendant).mp kept
      exact (families.descendant parentsFirst there notMined leaves path).elim notSelected
        notConflicted
    refine ⟨fun out hash spentAfter => ?_, noOrphans⟩
    obtain ⟨spent, kept⟩ := spentBy_afterBlock.mp spentAfter
    obtain ⟨_, notMined, notConflicted, notSelected⟩ := (remains hash).mp kept
    have unspent := unspent_of_remains spent notMined notConflicted
    rw [coins]
    rcases closed out hash spent with inChain | ⟨other, entry, found, isOutput⟩
    · exact .inl (CoinsView.isSome_foldl_connect inChain unspent)
    · have there := contains_iff.mpr ⟨entry, found⟩
      by_cases mined : out.hash ∈ block.vtx.map Transaction.hash
      · -- the block leaves the output in the chain
        obtain ⟨tx, inBlock, same⟩ := List.mem_map.mp mined
        rw [← same] at found
        have read : entry.tx.vout[out.n]? = some entry.tx.vout[out.n] :=
          List.getElem?_eq_getElem isOutput
        have spendable := families.spendable out hash spent notMined notConflicted notSelected mined
          entry _ (same ▸ found) read
        refine .inl (CoinsView.isSome_foldl_connect_created inBlock ?_ unspent _)
        refine CoinsView.created_isSome.mpr ⟨same.symm, entry.tx.vout[out.n], ?_, spendable⟩
        rw [← (identify.block tx inBlock entry found).2]
        exact read
      · -- the parent stays, or its child would be an orphan
        cases stays : (pool.afterBlock env later connected block.vtx).contains out.hash with
        | true =>
          exact .inr ⟨other, entry, (removal.lookup_eq stays).trans found, isOutput⟩
        | false =>
          rw [noOrphans out.hash there mined stays hash (.single ⟨out, spent, rfl⟩)] at kept
          cases kept

end

variable (pool : Mempool) (coins : CoinsView) (vtx : List Transaction)

theorem forall_entries {pool : Mempool} {test : Uint256 → MempoolEntry → Prop} :
    (∀ entry ∈ pool.mapTx.entries, test entry.1 entry.2) ↔
      ∀ hash entry, pool.mapTx.lookup hash = some entry → test hash entry :=
  ⟨fun all hash entry found => all ⟨hash, entry⟩ (AList.mem_lookup_iff.mp found),
    fun all entry member => all entry.1 entry.2 (AList.mem_lookup_iff.mpr member)⟩

instance (out : OutPoint) : Decidable (pool.HasOutput out) :=
  decidable_of_iff (∃ entry ∈ pool.mapTx.lookup out.hash, out.n < entry.tx.vout.length) Iff.rfl

instance : Decidable (pool.ClosedOver coins) :=
  decidable_of_iff (∀ entry ∈ pool.mapTx.entries, ∀ out ∈ entry.2.tx.vin.map TxIn.prevout,
      (coins.lookup out).isSome = true ∨ out.hash ≠ entry.1 ∧ pool.HasOutput out) <| by
    rw [@forall_entries pool fun hash entry => ∀ out ∈ entry.tx.vin.map TxIn.prevout,
      (coins.lookup out).isSome = true ∨ out.hash ≠ hash ∧ pool.HasOutput out]
    exact ⟨fun all out hash ⟨entry, found, member⟩ => all hash entry found out member,
      fun all hash entry found out member => all out hash ⟨entry, found, member⟩⟩

instance : Decidable (pool.HashesIdentify coins vtx) :=
  decidable_of_iff ((∀ tx ∈ vtx, ∀ entry ∈ pool.mapTx.lookup tx.hash,
      entry.tx.vin.map TxIn.prevout = tx.vin.map TxIn.prevout ∧ entry.tx.vout = tx.vout) ∧
      ∀ item ∈ coins.entries, pool.contains item.1.hash = false) <| by
    constructor
    · rintro ⟨block, chain⟩
      refine ⟨block, fun out there => ?_⟩
      cases found : coins.lookup out with
      | none => rfl
      | some coin =>
        rw [chain ⟨out, coin⟩ (AList.mem_lookup_iff.mp found)] at there
        cases there
    · rintro ⟨block, chain⟩
      refine ⟨block, fun item member => Bool.eq_false_iff.mpr fun there => ?_⟩
      have found := AList.mem_lookup_iff.mpr member
      rw [chain item.1 there] at found
      cases found

theorem familiesLeave_of_childless {pool : Mempool} {vtx : List Transaction}
    {selected : List Uint256} (childless : ∀ parent ∈ selected, pool.children parent = [])
    (spendable : ∀ entry ∈ pool.mapTx.entries, ∀ output ∈ entry.2.tx.vout,
      isUnspendable output.scriptPubKey = false) : pool.FamiliesLeave vtx selected where
  children := by
    intro parent isSelected _ child isChild
    have member := mem_children.mpr isChild
    rw [childless parent isSelected] at member
    cases member
  spendable := by
    intro out _ _ _ _ _ _ entry output found read
    exact spendable ⟨out.hash, entry⟩ (AList.mem_lookup_iff.mp found) output
      (mem_of_getElem? read)

end Mempool

open MainNet

namespace PoolClosure

def view : CoinsView :=
  coins [(⟨7, 0⟩, pay coin alice), (⟨8, 0⟩, pay coin alice),
    (⟨9, 0⟩, pay coin alice)]

def paying (hash : Uint256) (source : OutPoint) : Transaction :=
  transaction hash [source] [pay (coin / 4) alice]

def issuing (hash : Uint256) (source : OutPoint) : Transaction :=
  let asset : NewAsset := ⟨ascii "NEW", coin, 0, 0, 0, []⟩
  transaction hash [source]
    [pay (coin / 10) burnKey, pay (coin / 2) alice,
      owner asset, issue asset]

def waiting (txs : List Transaction) : Mempool :=
  txs.foldl (fun pool tx => (accept .initial view pool tx).1) .empty

theorem linked_waiting (txs : List Transaction) : (waiting txs).Linked :=
  foldlRecOn txs _ (Mempool.linked_of_empty rfl rfl) fun _ linked _ _ => linked.accept

def connect (block : Block) : Check Connected :=
  connectBlock env rules .initial .empty 10 block 0 ⟨view, .empty⟩

def after (pool : Mempool) (connected : Connected) (block : Block) : Mempool :=
  pool.afterBlock env (AssetState.initial.flush connected.view.assets) connected block.vtx

def minesBoth : Block := block 40 [paying 20 ⟨7, 0⟩, issuing 30 ⟨9, 0⟩]

def minesIssue : Block := block 41 [issuing 30 ⟨9, 0⟩]

end PoolClosure

open PoolClosure

/-- A payment is mined and its child stays; an issuance without children is evicted. -/
theorem removeForBlock_closed_iff_mined :
    ∃ pool connected, pool = waiting [paying 20 ⟨7, 0⟩, paying 21 ⟨20, 0⟩, issuing 22 ⟨8, 0⟩] ∧
      connect minesBoth = .ok connected ∧
      ((after pool connected minesBoth).contains 20, (after pool connected minesBoth).contains 21,
        (after pool connected minesBoth).contains 22) = (false, true, false) ∧
      (after pool connected minesBoth).ClosedOver connected.view.coins ∧
      pool.NoOrphans (after pool connected minesBoth) minesBoth.vtx := by
  set pool := waiting [paying 20 ⟨7, 0⟩, paying 21 ⟨20, 0⟩, issuing 22 ⟨8, 0⟩] with isPool
  have computed : ((connect minesBoth).toOption.map fun connected : Connected =>
      (decide (pool.HashesIdentify view minesBoth.vtx ∧ pool.ClosedOver view ∧
        (∀ entry ∈ pool.mapTx.entries, ∀ output ∈ entry.2.tx.vout,
          isUnspendable output.scriptPubKey = false) ∧
        ∀ parent ∈ pool.selected env (AssetState.initial.flush connected.view.assets)
          connected, pool.children parent = []),
        (after pool connected minesBoth).contains 20, (after pool connected minesBoth).contains 21,
        (after pool connected minesBoth).contains 22)) = some (true, false, true, false) := by
    decide +kernel
  obtain ⟨connected, connects, seen⟩ := Option.map_eq_some_iff.mp computed
  have accepted := toOption_eq_some.mp connects
  obtain ⟨identify, closed, spendable, childless⟩ := of_decide_eq_true (congrArg Prod.fst seen)
  obtain ⟨closedAfter, noOrphans⟩ := (Mempool.removeForBlock_closed_iff (by decide) accepted
    (linked_waiting _) identify closed _).mpr
      (Mempool.familiesLeave_of_childless childless spendable)
  exact ⟨pool, connected, rfl, accepted, congrArg Prod.snd seen, closedAfter, noOrphans⟩

/-- The child of an evicted issuance stays, and its input exists nowhere. -/
theorem orphan_remains : ∃ pool connected, pool = waiting [issuing 22 ⟨8, 0⟩, paying 23 ⟨22, 1⟩] ∧
      connect minesIssue = .ok connected ∧ pool.Linked ∧
      pool.HashesIdentify view minesIssue.vtx ∧ pool.ClosedOver view ∧
      ((after pool connected minesIssue).contains 22, (after pool connected minesIssue).contains 23) =
        (false, true) ∧ ¬ (after pool connected minesIssue).ClosedOver connected.view.coins ∧
      ¬ pool.NoOrphans (after pool connected minesIssue) minesIssue.vtx := by
  set pool := waiting [issuing 22 ⟨8, 0⟩, paying 23 ⟨22, 1⟩] with isPool
  have computed : ((connect minesIssue).toOption.map fun connected : Connected =>
      (decide (pool.HashesIdentify view minesIssue.vtx ∧ pool.ClosedOver view ∧
        ¬ (after pool connected minesIssue).ClosedOver connected.view.coins ∧
        23 ∈ pool.children 22 ∧ pool.contains 22 = true),
        (after pool connected minesIssue).contains 22,
        (after pool connected minesIssue).contains 23)) = some (true, false, true) := by
    decide +kernel
  obtain ⟨connected, connects, seen⟩ := Option.map_eq_some_iff.mp computed
  obtain ⟨identify, closed, notClosed, isChild, there⟩ :=
    of_decide_eq_true (congrArg Prod.fst seen)
  have remaining : ((after pool connected minesIssue).contains 22,
      (after pool connected minesIssue).contains 23) = (false, true) := congrArg Prod.snd seen
  have still : (after pool connected minesIssue).contains 23 = true := congrArg Prod.snd remaining
  refine ⟨pool, connected, rfl, toOption_eq_some.mp connects, linked_waiting _, identify, closed,
    remaining, notClosed, fun noOrphans => ?_⟩
  have orphan := noOrphans 22 there (by decide) (congrArg Prod.fst remaining) 23
    (.single (Mempool.mem_children.mp isChild))
  rw [still] at orphan
  cases orphan

end Phicoin
