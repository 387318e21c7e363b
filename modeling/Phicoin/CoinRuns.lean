import Phicoin.CoinsUndo
import Phicoin.Existence

/-! # Coins on the active chain

A node connects blocks on its tip and takes them back, and blocks that it took back may
come again.  Whatever it did, its coins are those that the transactions of the active
chain leave, one block after the other.  A block is taken back with the coins that were
written when it was connected for the first time, so this rests on what a block hash
stands for: the block, and the blocks below it. -/

namespace Phicoin

open Check KeyedMap List CoinsView

/-- The coins that the blocks of a chain, tip first, leave of those below its first one. -/
def coinsOn (base : Nat) (start : CoinsView) : List Block → CoinsView
  | [] => start
  | block :: below =>
    block.vtx.foldl (connect (base + below.length + 1)) (coinsOn base start below)

/-- A block connects on the chain its hash stands for, and brings transaction ids that
differ and that no coin has. -/
def Node.inPlace (chainOf : Uint256 → List Block) (node : Node) : NodeStep → Bool
  | .connect block _ _ =>
    let ids := block.vtx.map Transaction.hash
    decide (chainOf block.hash = block :: node.chain) && decide ids.Nodup &&
      node.coins.keys.all fun out => out.hash ∉ ids
  | _ => true

namespace CoinsView

variable {nHeight : Nat} {view other : CoinsView} {tx : Transaction} {vtx : List Transaction}
  {undo : List (List Coin)} {vprevout : List Coin}

theorem Same.connect (same : Same view other) (tx : Transaction) :
    Same (view.connect nHeight tx) (other.connect nHeight tx) := by
  intro out
  rw [lookup_connect, lookup_connect, lookup_spend, lookup_spend, same out]

theorem Same.connectAll (same : Same view other) (vtx : List Transaction) :
    Same (vtx.foldl (CoinsView.connect nHeight) view)
      (vtx.foldl (CoinsView.connect nHeight) other) := by
  induction vtx generalizing view other with
  | nil => exact same
  | cons tx rest ih => exact ih (same.connect tx)

theorem Same.spends (same : Same view other) (spends : Spends view tx vprevout) :
    Spends other tx vprevout := by
  refine ⟨spends.coinbase, spends.distinct, fun notCoinbase => ?_⟩
  rw [← spends.taken notCoinbase]
  exact map_congr_left fun input _ => (same input.prevout).symm

theorem Same.records (same : Same view other) (records : Records nHeight vtx view undo) :
    Records nHeight vtx other undo := by
  induction vtx generalizing view other undo with
  | nil => exact records
  | cons tx rest ih =>
    obtain ⟨vprevout, later, rfl, spends, others⟩ := records
    exact ⟨vprevout, later, rfl, same.spends spends, ih (same.connect tx) others⟩

theorem Same.newIds (same : Same view other) (newIds : NewIds vtx view) : NewIds vtx other :=
  ⟨newIds.distinct, fun tx member out own =>
    (same out).symm.trans (newIds.unknown tx member out own)⟩

theorem Records.snoc (records : Records nHeight vtx view undo)
    (spends : Spends (vtx.foldl (CoinsView.connect nHeight) view) tx vprevout) :
    Records nHeight (vtx ++ [tx]) view (undo ++ [vprevout]) := by
  induction vtx generalizing view undo with
  | nil =>
    obtain rfl : undo = [] := records
    exact ⟨vprevout, [], rfl, spends, rfl⟩
  | cons first rest ih =>
    obtain ⟨taken, later, rfl, firstSpends, others⟩ := records
    exact ⟨taken, later ++ [vprevout], rfl, firstSpends, ih others spends⟩

theorem Kept.connectAll (kept : view.Kept) (height : nHeight ≠ 0) (vtx : List Transaction) :
    (vtx.foldl (CoinsView.connect nHeight) view).Kept := by
  induction vtx generalizing view with
  | nil => exact kept
  | cons tx rest ih => exact ih (kept.connect height)

theorem Kept.coinsOn (kept : view.Kept) (base : Nat) (chain : List Block) :
    (coinsOn base view chain).Kept := by
  induction chain with
  | nil => exact kept
  | cons block below ih => exact ih.connectAll (Nat.succ_ne_zero _) block.vtx

end CoinsView

section

variable {env : Env} {rules : BlockRules} {global : AssetState} {mempool : MempoolMaps}
  {nHeight : Nat} {block : Block} {currentTime : Int} {view : BlockView} {connected : Connected}

/-- The undo data that `ConnectBlock` returns: the coins that every transaction but the
first found. -/
theorem connectBlock_records (notGenesis : block.hash ≠ rules.hashGenesisBlock)
    (accepted : connectBlock env rules global mempool nHeight block currentTime view =
      .ok connected) :
    ∃ undo, Records nHeight block.vtx view.coins undo ∧ connected.vtxundo = undo.tail := by
  obtain ⟨final, _, looped, _, rfl⟩ := connectBlock_ok notGenesis accepted
  have scanned := foldlM_scan (fun pre (acc : Connecting) =>
    acc.view.coins = pre.foldl (connect nHeight) view.coins ∧
      Records nHeight pre view.coins acc.vprevouts) looped ⟨rfl, rfl⟩ ?_
  · exact ⟨final.vprevouts, scanned.2, rfl⟩
  · rintro pre tx _ acc next _ connects ⟨before, records⟩
    obtain ⟨_, coins, vprevout, appended, spends⟩ := connectTx_coins connects
    rw [before] at coins spends
    rw [coins, appended, foldl_append]
    exact ⟨rfl, records.snoc spends⟩

end

/-- The undo data of a block that was connected on the coins of the blocks below it. -/
structure UndoOf (base : Nat) (start : CoinsView) (block : Block) (below : List Block)
    (vtxundo : List (List Coin)) : Prop where
  coinbase : ∃ coinbase rest, block.vtx = coinbase :: rest ∧ coinbase.isCoinBase = true ∧
    ∀ tx ∈ rest, tx.isCoinBase = false
  newIds : NewIds block.vtx (coinsOn base start below)
  records : ∃ undo, Records (base + below.length + 1) block.vtx (coinsOn base start below) undo ∧
    vtxundo = undo.tail

/-- The coins are those of the chain, every block of it stands on the blocks that its hash
stands for, and so did every block with undo data. -/
structure CoinsInv (chainOf : Uint256 → List Block) (base : Nat) (start : CoinsView)
    (node : Node) : Prop where
  lowest : node.base = base
  coins : Same node.coins (coinsOn base start node.chain)
  named : ∀ block below, block :: below <:+ node.chain → chainOf block.hash = block :: below
  undo : ∀ hash vtxundo, node.blockUndo.lookup hash = some vtxundo →
    ∃ block below, chainOf hash = block :: below ∧ UndoOf base start block below vtxundo

namespace CoinsInv

variable {chainOf : Uint256 → List Block} {base : Nat} {start : CoinsView} {node next : Node}
  {env : Env} {rules : BlockRules}

theorem initial (chainOf : Uint256 → List Block) (base : Nat) (start : CoinsView) :
    CoinsInv chainOf base start (Node.initial base start) where
  lowest := rfl
  coins _ := rfl
  named _ _ suffix := absurd suffix.length_le (by simp [Node.initial])
  undo _ _ found := by cases found

variable (inv : CoinsInv chainOf base start node)

include inv

theorem height_eq : node.height = base + node.chain.length := by rw [Node.height, inv.lowest]

theorem connect {block : Block} {mempool : MempoolMaps} {currentTime : Int}
    (may : node.inPlace chainOf (.connect block mempool currentTime) = true)
    (connects : node.connectTip env rules block mempool currentTime = .ok next) :
    CoinsInv chainOf base start next := by
  obtain ⟨notGenesis, connected, accepted, rfl⟩ := Node.connectTip_ok connects
  simp only [Node.inPlace, Bool.and_eq_true, decide_eq_true_eq, all_eq_true] at may
  obtain ⟨⟨named, distinct⟩, unknown⟩ := may
  have height : node.height + 1 = base + node.chain.length + 1 := by rw [inv.height_eq]
  have newIds := inv.coins.newIds (newIds_of_keys distinct unknown)
  have written : UndoOf base start block node.chain connected.vtxundo := by
    obtain ⟨_, checked, _⟩ := connectBlock_ok notGenesis accepted
    obtain ⟨undo, records, last⟩ := connectBlock_records notGenesis accepted
    rw [height] at records
    exact ⟨checkBlock_coinbase checked, newIds, undo, inv.coins.records records, last⟩
  refine ⟨?_, ?_, ?_, ?_⟩
  · rw [← inv.lowest]
    unfold Node.writeUndo
    split <;> rfl
  · intro out
    have coins := connectBlock_coins notGenesis accepted
    change connected.view.coins.lookup out = _
    rw [coins, height]
    exact inv.coins.connectAll block.vtx out
  · intro other below suffix
    rcases suffix_cons_iff.mp suffix with same | lower
    · cases same
      exact named
    · exact inv.named other below lower
  · intro hash vtxundo found
    change (node.writeUndo block connected).blockUndo.lookup hash = some vtxundo at found
    unfold Node.writeUndo at found
    split at found
    · exact inv.undo hash vtxundo found
    · rw [lookup_insert_ite] at found
      split at found
      · rename_i here
        cases found
        exact ⟨block, node.chain, here ▸ named, written⟩
      · exact inv.undo hash vtxundo found

theorem disconnect (kept : start.Kept) (disconnects : node.disconnectTip env = .ok next) :
    CoinsInv chainOf base start next := by
  obtain ⟨block, below, vtxundo, disconnected, tip, found, passes, rfl⟩ :=
    Node.disconnectTip_ok disconnects
  have height : node.height = base + below.length + 1 := by
    rw [inv.height_eq, tip, length_cons]
    omega
  -- the undo data is that of this block on the blocks below it
  obtain ⟨block', below', named, ⟨coinbase, rest, order, first, others⟩, newIds, undo, records,
    last⟩ := inv.undo block.hash vtxundo found
  rw [inv.named block below (tip ▸ suffix_rfl)] at named
  cases named
  obtain ⟨reverted, reverts, coins, _⟩ := revertBlock_of_disconnectBlock passes
  have same := inv.coins
  rw [tip, coinsOn, order] at same
  rw [order] at newIds records
  obtain ⟨restored, restores, _, back⟩ := revertBlock_same (Nat.succ_ne_zero _)
    (kept.coinsOn base below) first others newIds records same
  rw [height, order, last, restores] at reverts
  cases reverts
  refine ⟨inv.lowest, fun out => ?_, fun other lower suffix => ?_, inv.undo⟩
  · change disconnected.view.coins.lookup out = _
    rw [← coins]
    exact back out
  · exact inv.named other lower (tip ▸ suffix.trans (suffix_cons block below))

theorem step (kept : start.Kept) {op : NodeStep} (may : node.inPlace chainOf op = true)
    (steps : node.step env rules op = some next) : CoinsInv chainOf base start next := by
  cases op with
  | connect block mempool currentTime => exact inv.connect may (toOption_eq_some.mp steps)
  | disconnect => exact inv.disconnect kept (toOption_eq_some.mp steps)
  | dump =>
    cases steps
    exact ⟨inv.lowest, inv.coins, inv.named, inv.undo⟩
  | refresh name =>
    cases steps
    exact ⟨inv.lowest, inv.coins, inv.named, inv.undo⟩

end CoinsInv

/-- Over every run of connected and disconnected blocks, each step with the deployments of
its time, the coins are those of the active chain. -/
theorem coins_follow_chain (rules : BlockRules) (chainOf : Uint256 → List Block) (base : Nat)
    (start : CoinsView) (kept : start.Kept) (node : Node)
    (run : Runs.Run (fun node (turn : Env × NodeStep) => node.step turn.1 rules turn.2)
      (fun node turn => node.inPlace chainOf turn.2) (Node.initial base start) node) :
    ∀ out, node.coins.lookup out = (coinsOn base start node.chain).lookup out :=
  (run.invariant (CoinsInv chainOf base start) (CoinsInv.initial chainOf base start)
    fun _ _ _ inv may steps => inv.step kept may steps).coins

namespace CoinRuns

open MainNet Existence

/-- The chains of two blocks of one height. -/
def chainOf (hash : Uint256) : List Block :=
  if hash = once.hash then [once] else [twice]

end CoinRuns

open MainNet Existence CoinRuns in
/-- One block is taken back for another, which spends the same coin. -/
theorem coins_follow_chain_reorganised : ∃ node,
    Runs.Run (fun node (turn : Env × NodeStep) => node.step turn.1 rules turn.2)
      (fun node turn => node.inPlace chainOf turn.2) (Node.initial 9 wallet) node ∧
      node.chain = [twice] ∧
      ∀ out, node.coins.lookup out = (coinsOn 9 wallet [twice]).lookup out := by
  have observed : (Runs.execute
      (fun node (turn : Env × NodeStep) => node.step turn.1 rules turn.2)
      (fun node turn => node.inPlace chainOf turn.2) (Node.initial 9 wallet)
      [(env, connect once), (env, .disconnect), (env, connect twice)]).bind
      (fun node => some node.chain) = some [twice] := by
    decide +kernel
  obtain ⟨node, run, chain⟩ := Runs.exists_run_of_execute observed
  have tip : node.chain = [twice] := Option.some.inj chain
  refine ⟨node, run, tip, ?_⟩
  rw [← tip]
  exact coins_follow_chain rules chainOf 9 wallet (kept_of_entries (by decide +kernel)) node run

end Phicoin
