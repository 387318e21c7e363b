import Phicoin.BlockEffects
import Phicoin.Lib.MapSum

/-! # The coins of a block

The view after an accepted transaction as a function of the view before it: the
coins of its inputs are gone and those of its spendable outputs are there.  The
asset cache decides only whether a spend is accepted, never which coins there
are. -/

namespace Phicoin

open Check KeyedMap List Option CoinsView BlockView

namespace CoinsView

def All (P : Coin → Prop) (view : CoinsView) : Prop :=
  ∀ out coin, view.lookup out = some coin → P coin

def spend (view : CoinsView) (tx : Transaction) : CoinsView :=
  if tx.isCoinBase then view else KeyedMap.without view (tx.vin.map TxIn.prevout)

def connect (nHeight : Nat) (view : CoinsView) (tx : Transaction) : CoinsView :=
  (view.spend tx).addOutputs tx nHeight tx.vout 0

/-- The coin that the outputs from index `n` on leave under an outpoint. -/
def created (tx : Transaction) (nHeight : Nat) (outs : List TxOut) (n : Nat) (out : OutPoint) :
    Option Coin :=
  if out.hash = tx.hash ∧ n ≤ out.n then
    (outs[out.n - n]?.filter fun output => !isUnspendable output.scriptPubKey).map
      fun output => ⟨output, tx.isCoinBase, nHeight⟩
  else none

variable {P : Coin → Prop} {tx : Transaction} {nHeight : Nat}

theorem lookup_addCoin (view : CoinsView) (out other : OutPoint) (coin : Coin) :
    (view.addCoin out coin).lookup other =
      if other = out ∧ isUnspendable coin.out.scriptPubKey = false then some coin
      else view.lookup other := by
  unfold addCoin
  by_cases dropped : isUnspendable coin.out.scriptPubKey = true
  · rw [if_pos dropped, if_neg (by simp [dropped])]
  · rw [if_neg dropped, lookup_insert_ite]
    simp [dropped]

theorem created_cons (first : TxOut) (rest : List TxOut) (n : Nat) (out : OutPoint) :
    created tx nHeight (first :: rest) n out = if out = ⟨tx.hash, n⟩ then
        if isUnspendable first.scriptPubKey then none else some ⟨first, tx.isCoinBase, nHeight⟩
      else created tx nHeight rest (n + 1) out := by
  obtain ⟨hash, m⟩ := out
  by_cases own : hash = tx.hash
  · subst own
    rcases Nat.lt_trichotomy m n with before | here | after
    · simp [created, Nat.not_le.mpr before, Nat.not_le.mpr (Nat.lt_succ_of_lt before),
        Nat.ne_of_lt before]
    · subst here
      by_cases dropped : isUnspendable first.scriptPubKey = true <;>
        simp [created, dropped, Option.filter]
    · have shifted : m - n = m - (n + 1) + 1 := by omega
      simp [created, Nat.le_of_lt after, Nat.succ_le_of_lt after, Nat.ne_of_gt after, shifted]
  · simp [created, own]

theorem created_before (rest : List TxOut) (n : Nat) :
    created tx nHeight rest (n + 1) ⟨tx.hash, n⟩ = none := by
  unfold created
  rw [if_neg]
  simp

theorem lookup_addOutputs (outs : List TxOut) (n : Nat) (view : CoinsView) (out : OutPoint) :
    (view.addOutputs tx nHeight outs n).lookup out =
      (created tx nHeight outs n out).or (view.lookup out) := by
  induction outs generalizing n view with
  | nil => simp [addOutputs, created]
  | cons first rest ih =>
    rw [addOutputs, ih, lookup_addCoin, created_cons]
    by_cases here : out = ⟨tx.hash, n⟩
    · subst here
      rw [created_before, if_pos rfl]
      by_cases dropped : isUnspendable first.scriptPubKey = true <;> simp [dropped]
    · rw [if_neg here, if_neg fun stored => here stored.1]

theorem lookup_spend (view : CoinsView) (tx : Transaction) (out : OutPoint) :
    (view.spend tx).lookup out =
      if tx.isCoinBase = false ∧ out ∈ tx.vin.map TxIn.prevout then none else view.lookup out := by
  unfold spend
  by_cases isCoinbase : tx.isCoinBase = true
  · rw [if_pos isCoinbase, if_neg (by simp [isCoinbase])]
  · rw [if_neg isCoinbase, lookup_without]
    simp [isCoinbase]

theorem lookup_connect (view : CoinsView) (tx : Transaction) (out : OutPoint) :
    (view.connect nHeight tx).lookup out =
      (created tx nHeight tx.vout 0 out).or ((view.spend tx).lookup out) :=
  lookup_addOutputs tx.vout 0 (view.spend tx) out

variable {view : CoinsView}

theorem All.spend (all : view.All P) (tx : Transaction) : (view.spend tx).All P := by
  intro out coin found
  rw [lookup_spend] at found
  split at found
  · cases found
  · exact all out coin found

theorem All.addOutputs {outs : List TxOut} (made : ∀ out ∈ outs, P ⟨out, tx.isCoinBase, nHeight⟩)
    (n : Nat) (all : view.All P) : (view.addOutputs tx nHeight outs n).All P := by
  intro out coin found
  rw [lookup_addOutputs, or_eq_some_iff] at found
  rcases found with isNew | ⟨_, old⟩
  · unfold created at isNew
    split at isNew
    · obtain ⟨output, kept, rfl⟩ := map_eq_some_iff.mp isNew
      exact made output (mem_of_getElem? (filter_eq_some_iff.mp kept).1)
    · cases isNew
  · exact all out coin old

variable {out : OutPoint}

theorem created_isSome {outs : List TxOut} : (created tx nHeight outs 0 out).isSome = true ↔
      out.hash = tx.hash ∧ ∃ output, outs[out.n]? = some output ∧
        isUnspendable output.scriptPubKey = false := by
  unfold created
  by_cases own : out.hash = tx.hash
  · cases outs[out.n]? <;> simp [own]
  · simp [own]

theorem isSome_connect (present : (view.lookup out).isSome = true)
    (unspent : tx.isCoinBase = false → out ∉ tx.vin.map TxIn.prevout) :
    ((view.connect nHeight tx).lookup out).isSome = true := by
  rw [lookup_connect, lookup_spend, if_neg fun spent => unspent spent.1 spent.2, isSome_or,
    present, Bool.or_true]

variable {vtx : List Transaction}

theorem isSome_foldl_connect (present : (view.lookup out).isSome = true)
    (unspent : ∀ tx ∈ vtx, tx.isCoinBase = false → out ∉ tx.vin.map TxIn.prevout) :
    ((vtx.foldl (connect nHeight) view).lookup out).isSome = true := by
  induction vtx generalizing view with
  | nil => exact present
  | cons first rest ih =>
    refine ih (isSome_connect present (unspent first mem_cons_self)) ?_
    exact fun tx member => unspent tx (mem_cons_of_mem _ member)

theorem isSome_foldl_connect_created (member : tx ∈ vtx)
    (creates : (created tx nHeight tx.vout 0 out).isSome = true)
    (unspent : ∀ tx ∈ vtx, tx.isCoinBase = false → out ∉ tx.vin.map TxIn.prevout)
    (view : CoinsView) : ((vtx.foldl (connect nHeight) view).lookup out).isSome = true := by
  obtain ⟨before, after, rfl⟩ := append_of_mem member
  rw [foldl_append, foldl_cons]
  refine isSome_foldl_connect ?_ fun other later => unspent other (by simp [later])
  rw [lookup_connect, isSome_or, creates, Bool.true_or]

theorem source_foldl_connect
    (present : ((vtx.foldl (connect nHeight) view).lookup out).isSome = true) :
    (view.lookup out).isSome = true ∨
      ∃ tx ∈ vtx, (created tx nHeight tx.vout 0 out).isSome = true := by
  induction vtx generalizing view with
  | nil => exact .inl present
  | cons first rest ih =>
    rcases ih present with connected | ⟨tx, later, creates⟩
    · rw [lookup_connect, isSome_or, Bool.or_eq_true, lookup_spend] at connected
      rcases connected with creates | kept
      · exact .inr ⟨first, mem_cons_self, creates⟩
      · split at kept
        · cases kept
        · exact .inl kept
    · exact .inr ⟨tx, mem_cons_of_mem _ later, creates⟩

end CoinsView

section

variable {env : Env} {global : AssetState}
  {view : BlockView}

theorem spendCoin_coins {spent : BlockView} {out : OutPoint} {coin : Coin} {isSpent : Bool}
    (step : view.spendCoin env global out = (spent, some coin, isSpent)) :
    view.coins.lookup out = some coin ∧ spent.coins = view.coins.erase out := by
  unfold spendCoin at step
  split at step
  · cases step
  · rename_i found lookup
    split at step
    · split at step <;> cases step <;> exact ⟨lookup, rfl⟩
    · cases step
      exact ⟨lookup, rfl⟩

theorem spendInputs_ok {inputs : List TxIn} {final : BlockView} {spent : List Coin}
    (spends : spendInputs env global inputs view = .ok (final, spent)) :
    final.coins = without view.coins (inputs.map TxIn.prevout) ∧ (inputs.map TxIn.prevout).Nodup ∧
      inputs.map (fun input => view.coins.lookup input.prevout) = spent.map some := by
  induction inputs generalizing view spent with
  | nil =>
    cases spends
    exact ⟨rfl, nodup_nil, rfl⟩
  | cons input rest ih =>
    unfold spendInputs at spends
    split at spends
    · rename_i middle coin step
      obtain ⟨⟨final', later⟩, tail, spends⟩ := bind_eq_ok.mp spends
      cases pure_eq_ok.mp spends
      obtain ⟨found, erased⟩ := spendCoin_coins step
      obtain ⟨gone, distinct, taken⟩ := ih tail
      rw [erased] at gone taken
      obtain ⟨fresh, before⟩ := lookup_taken taken
      refine ⟨gone, nodup_cons.mpr ⟨fresh, distinct⟩, ?_⟩
      rw [map_cons, map_cons, found, before]
    · cases spends

structure Spends (view : CoinsView) (tx : Transaction) (vprevout : List Coin) : Prop where
  coinbase : tx.isCoinBase = true → vprevout = []
  distinct : tx.isCoinBase = false → (tx.vin.map TxIn.prevout).Nodup
  taken : tx.isCoinBase = false →
    tx.vin.map (fun input => view.lookup input.prevout) = vprevout.map some

theorem spendTransaction_ok {tx : Transaction} {spent : BlockView} {vprevout : List Coin}
    (spends : spendTransaction env global tx view = .ok (spent, vprevout)) :
    spent.coins = view.coins.spend tx ∧ Spends view.coins tx vprevout := by
  unfold spendTransaction at spends
  unfold spend
  by_cases isCoinbase : tx.isCoinBase = true
  · rw [if_pos isCoinbase] at spends
    cases spends
    rw [if_pos isCoinbase]
    exact ⟨rfl, fun _ => rfl, by simp [isCoinbase], by simp [isCoinbase]⟩
  · rw [if_neg isCoinbase] at spends
    obtain ⟨gone, distinct, taken⟩ := spendInputs_ok spends
    rw [if_neg isCoinbase]
    exact ⟨gone, fun itIs => absurd itIs isCoinbase, fun _ => distinct, fun _ => taken⟩

end

variable {env : Env} {rules : BlockRules} {global : AssetState} {mempool : MempoolMaps}
  {nHeight : Nat} {block : Block} {currentTime : Int}

structure CoinsConnected (acc : Connecting) (tx : Transaction) (next : Connecting) : Prop where
  fees : ∃ messages, checkSpending env rules global mempool nHeight block currentTime acc tx =
    .ok (next.nFees, messages)
  coins : next.view.coins = acc.view.coins.connect nHeight tx
  undo : ∃ vprevout, next.vprevouts = acc.vprevouts ++ [vprevout] ∧
    Spends acc.view.coins tx vprevout

theorem connectTx_coins {acc next : Connecting} {tx : Transaction}
    (passes : connectTx env rules global mempool nHeight block currentTime acc tx = .ok next) :
    @CoinsConnected env rules global mempool nHeight block currentTime acc tx next := by
  unfold connectTx at passes
  obtain ⟨⟨nFees, messages⟩, checks, passes⟩ := bind_eq_ok.mp passes
  obtain ⟨_, _, _, _, updated, updates, passes⟩ := ok_bind₃ passes
  obtain rfl := pure_eq_ok.mp passes
  obtain ⟨spent, spends, view, _⟩ := updateCoins_ok updates
  obtain ⟨gone, taken⟩ := spendTransaction_ok spends
  refine ⟨⟨messages, checks⟩, ?_, updated.vprevout, rfl, taken⟩
  rw [view, connect, gone]

variable (notGenesis : block.hash ≠ rules.hashGenesisBlock) {view : BlockView}
  {connected : Connected}
  (accepted : connectBlock env rules global mempool nHeight block currentTime view = .ok connected)

include notGenesis accepted

theorem connectBlock_coins :
    connected.view.coins = block.vtx.foldl (connect nHeight) view.coins := by
  obtain ⟨final, _, looped, _, rfl⟩ := connectBlock_ok notGenesis accepted
  exact foldlM_project (fun acc : Connecting => acc.view.coins) (connect nHeight) looped
    fun acc tx next _ passes => (connectTx_coins passes).coins

theorem connectBlock_spends
    {before after : List Transaction} {tx : Transaction} (order : block.vtx = before ++ tx :: after)
    (notCoinbase : tx.isCoinBase = false) {input : TxIn} (member : input ∈ tx.vin) :
    ((before.foldl (connect nHeight) view.coins).lookup input.prevout).isSome = true := by
  obtain ⟨final, _, looped, _, rfl⟩ := connectBlock_ok notGenesis accepted
  rw [order] at looped
  obtain ⟨acc, earlier, looped⟩ := foldlM_append_eq_ok.mp looped
  obtain ⟨next, connects, _⟩ := foldlM_cons_eq_ok.mp looped
  obtain ⟨_, _, vprevout, _, spends⟩ := connectTx_coins connects
  have coins : acc.view.coins = before.foldl (connect nHeight) view.coins :=
    foldlM_project (fun acc : Connecting => acc.view.coins) (connect nHeight) earlier
      fun acc tx next _ passes => (connectTx_coins passes).coins
  have taken : acc.view.coins.lookup input.prevout ∈ vprevout.map some :=
    spends.taken notCoinbase ▸ mem_map_of_mem member
  obtain ⟨coin, _, found⟩ := mem_map.mp taken
  rw [← coins, ← found, isSome_some]

end Phicoin
