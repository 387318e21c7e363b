import Phicoin.CoinEffects
import Phicoin.MainNet
import Phicoin.Lib.Runs
import Mathlib.Algebra.BigOperators.Intervals

/-! # The supply of coins

Once output values are enforced for every output, a transaction that spends moves
at most what it takes, and the coinbase of a block claims at most the fees of
the others and the subsidy.  The checks are made with 64-bit amounts; each sum
is compared with the money range before the next amount is added, so none of
them wraps. -/

namespace Phicoin

open Check KeyedMap TwosComplement List Transaction CoinsView

theorem moneyRange_iff {value : Int} : moneyRange value = true ↔ 0 ≤ value ∧ value ≤ maxMoney := by
  simp [moneyRange]

theorem addAmount_eq {x y : Int} (first : moneyRange x = true) (second : moneyRange y = true)
    (total : moneyRange (addAmount x y) = true) : addAmount x y = x + y := by
  rw [moneyRange_iff] at first second total
  unfold addAmount wrapAdd wrap at total ⊢
  unfold maxMoney coin at first second
  have exact_or := Int.bmod_def (x + y) (2 ^ 64)
  split at exact_or <;> omega

namespace Transaction

def valueOut (tx : Transaction) : Int := (tx.vout.map TxOut.nValue).sum

/-- The outputs that `GetValueOut` counts: all, or all without an asset. -/
def isCounted (fAreEnforcedValues : Bool) (out : TxOut) : Bool :=
  fAreEnforcedValues || (isAssetScript out.scriptPubKey).isNone

/-- The exact sum of the values that `GetValueOut` counts. -/
def countedOut (tx : Transaction) (fAreEnforcedValues : Bool) : Int :=
  ((tx.vout.filter (isCounted fAreEnforcedValues)).map TxOut.nValue).sum

theorem countedOut_enforced (tx : Transaction) : tx.countedOut true = tx.valueOut := by
  have all : tx.vout.filter (isCounted true) = tx.vout := filter_eq_self.mpr fun _ _ => rfl
  rw [countedOut, all, valueOut]

theorem getValueOut_ok {tx : Transaction} {fAreEnforcedValues : Bool} {total : Int}
    (passes : tx.getValueOut fAreEnforcedValues = .ok total) :
    total = tx.countedOut fAreEnforcedValues ∧ moneyRange total = true := by
  refine foldlM_scan (fun pre (acc : Int) =>
    acc = ((pre.filter (isCounted fAreEnforcedValues)).map TxOut.nValue).sum ∧
      moneyRange acc = true) passes ⟨rfl, by decide⟩ ?_
  rintro pre out post acc next _ step ⟨exact_, inRange⟩
  rw [filter_append]
  by_cases skipped : (!fAreEnforcedValues && (isAssetScript out.scriptPubKey).isSome) = true
  · rw [if_pos skipped] at step
    obtain rfl := pure_eq_ok.mp step
    have notCounted : isCounted fAreEnforcedValues out = false := by
      rw [Bool.and_eq_true, Bool.not_eq_true'] at skipped
      simp [isCounted, skipped.1, skipped.2]
    exact ⟨by simp [notCounted, exact_], inRange⟩
  · rw [if_neg skipped] at step
    obtain ⟨_, ranges, step⟩ := bind_eq_ok.mp step
    obtain rfl := pure_eq_ok.mp step
    obtain ⟨outRange, totalRange⟩ := Bool.and_eq_true_iff.mp (require_eq_ok.mp ranges)
    have counted : isCounted fAreEnforcedValues out = true := by
      cases fAreEnforcedValues with
      | true => rfl
      | false => simpa [isCounted] using skipped
    refine ⟨?_, totalRange⟩
    rw [addAmount_eq inRange outRange totalRange, exact_]
    simp [counted]

theorem nValue_nonneg {env : Env} {tx : Transaction} {fMempoolCheck fBlockCheck : Bool}
    (checked : checkTransaction env tx true fMempoolCheck fBlockCheck = .ok ()) :
    ∀ out ∈ tx.vout, 0 ≤ out.nValue := by
  obtain ⟨_, _, stages⟩ := checkTransaction_ok checked
  intro out member
  obtain ⟨scan, next, visited⟩ := foldlM_visits stages.scanned member
  unfold scanOutput scanValue at visited
  obtain ⟨_, valued, _⟩ := bind_eq_ok.mp visited
  obtain ⟨_, nonneg, _⟩ := bind_eq_ok.mp valued
  simpa using nonneg

end Transaction

namespace CoinsView

def nValue (coin : Coin) : Int := coin.out.nValue

def totalValue (view : CoinsView) : Int := KeyedMap.sumOf nValue view

def NonNegative (view : CoinsView) : Prop := view.All fun coin => 0 ≤ coin.out.nValue

variable {view : CoinsView}

theorem NonNegative.valueAt (nonneg : view.NonNegative) (out : OutPoint) :
    0 ≤ KeyedMap.valueAt nValue view out := by
  unfold KeyedMap.valueAt
  cases found : view.lookup out with
  | none => exact le_refl 0
  | some coin => exact nonneg out coin found

theorem totalValue_addCoin_le (nonneg : view.NonNegative) (out : OutPoint)
    {coin : Coin} (paid : 0 ≤ coin.out.nValue) :
    (view.addCoin out coin).totalValue ≤ view.totalValue + coin.out.nValue := by
  have lost := nonneg.valueAt out
  have before := sumOf_erase (f := nValue) view out
  unfold addCoin totalValue
  split
  · omega
  · rw [sumOf_insert, nValue]
    omega

theorem totalValue_addOutputs_le {tx : Transaction} {nHeight : Nat} {outs : List TxOut}
    (paid : ∀ out ∈ outs, 0 ≤ out.nValue) (n : Nat) {view : CoinsView} (nonneg : view.NonNegative) :
    (view.addOutputs tx nHeight outs n).totalValue ≤
      view.totalValue + (outs.map TxOut.nValue).sum := by
  induction outs generalizing n view with
  | nil => simp [addOutputs]
  | cons out rest ih =>
    obtain ⟨first, later⟩ := forall_mem_cons.mp paid
    have one : (view.addOutputs tx nHeight [out] n).NonNegative :=
      All.addOutputs (by simpa using first) n nonneg
    have added : (view.addOutputs tx nHeight [out] n).totalValue ≤ view.totalValue + out.nValue :=
      totalValue_addCoin_le nonneg ⟨tx.hash, n⟩ first
    have others := ih later (n + 1) one
    rw [map_cons, sum_cons]
    exact others.trans (by omega)

theorem NonNegative.connect (nonneg : view.NonNegative) (nHeight : Nat)
    {tx : Transaction} (paid : ∀ out ∈ tx.vout, 0 ≤ out.nValue) :
    (view.connect nHeight tx).NonNegative :=
  (All.spend nonneg tx).addOutputs paid 0

def valueIn (view : CoinsView) (tx : Transaction) : Int :=
  (tx.vin.map fun input => KeyedMap.valueAt nValue view input.prevout).sum

theorem totalValue_connect_le (nonneg : view.NonNegative) {nHeight : Nat}
    {tx : Transaction} (notCoinbase : tx.isCoinBase = false)
    (distinct : (tx.vin.map TxIn.prevout).Nodup) (paid : ∀ out ∈ tx.vout, 0 ≤ out.nValue) :
    (view.connect nHeight tx).totalValue ≤ view.totalValue - view.valueIn tx + tx.valueOut := by
  have added := @totalValue_addOutputs_le tx nHeight tx.vout paid 0 _ (All.spend nonneg tx)
  have spent : view.totalValue = (view.spend tx).totalValue + view.valueIn tx := by
    rw [totalValue, sumOf_without distinct, map_map, spend,
      if_neg (by simp [notCoinbase])]
    rfl
  rw [spent]
  exact added.trans (by unfold valueOut; omega)

end CoinsView

section

variable {env : Env} {view : CoinsView} {tx : Transaction} {nHeight : Nat} {txfee : Int}

/-- One input of `CheckTxInputs`. -/
def valueInStep (view : CoinsView) (nSpendHeight : Nat) (nValueIn : Int) (input : TxIn) :
    Check Int := do
  let coin ← require? (view.lookup input.prevout) "assertion !coin.IsSpent()"
  require (!(coin.fCoinBase && (nSpendHeight : Int) - coin.nHeight < coinbaseMaturity))
    "bad-txns-premature-spend-of-coinbase"
  let total := addAmount nValueIn coin.out.nValue
  require (moneyRange coin.out.nValue && moneyRange total) "bad-txns-inputvalues-outofrange"
  return total

theorem valueIn_exact {vin : List TxIn} {nValueIn : Int}
    (passes : vin.foldlM (valueInStep view nHeight) 0 = .ok nValueIn) : moneyRange nValueIn = true ∧
      nValueIn = (vin.map fun input => valueAt nValue view input.prevout).sum := by
  refine foldlM_scan (fun pre (acc : Int) => moneyRange acc = true ∧
    acc = (pre.map fun input : TxIn => valueAt nValue view input.prevout).sum)
    passes ⟨by decide, rfl⟩ ?_
  rintro pre input post acc next _ step ⟨inRange, exact_⟩
  obtain ⟨coin, found, _, _, _, ranges, step⟩ := ok_bind₃ step
  obtain rfl := pure_eq_ok.mp step
  obtain ⟨coinRange, totalRange⟩ := Bool.and_eq_true_iff.mp (require_eq_ok.mp ranges)
  refine ⟨totalRange, ?_⟩
  rw [addAmount_eq inRange coinRange totalRange, exact_]
  simp [valueAt, require?_eq_ok.mp found, nValue]

/-- What an accepted transaction takes in is in range, and the fee is exact. -/
theorem checkTxInputs_totals (passes : checkTxInputs env view tx nHeight = .ok txfee) :
    moneyRange (view.valueIn tx) = true ∧
      txfee = view.valueIn tx - tx.countedOut env.areEnforcedValuesDeployed ∧
      moneyRange txfee = true := by
  unfold checkTxInputs at passes
  obtain ⟨_, _, nValueIn, looped, valueOut, outs, passes⟩ := ok_bind₃ passes
  obtain ⟨_, below, _, ranged, passes⟩ := ok_bind₂ passes
  obtain rfl := pure_eq_ok.mp passes
  obtain ⟨rfl, outRange⟩ := getValueOut_ok outs
  obtain ⟨inRange, rfl⟩ := valueIn_exact looped
  refine ⟨inRange, ?_, require_eq_ok.mp ranged⟩
  rw [moneyRange_iff] at inRange outRange
  have ordered : tx.countedOut env.areEnforcedValuesDeployed ≤ view.valueIn tx := by
    simpa [valueIn] using below
  have fits : maxMoney < 2 ^ 63 := by decide
  exact wrap_eq_self (v := 63) (by omega) (by omega)

theorem checkTxInputs_ok (passes : checkTxInputs env view tx nHeight = .ok txfee) :
    txfee = view.valueIn tx - tx.countedOut env.areEnforcedValuesDeployed ∧
      moneyRange txfee = true :=
  (checkTxInputs_totals passes).2

end

section

variable {env : Env} {rules : BlockRules} {global : AssetState} {mempool : MempoolMaps}
  {nHeight : Nat} {block : Block} {currentTime : Int}

def Transaction.minted (tx : Transaction) : Int := if tx.isCoinBase then tx.valueOut else 0

/-- The coins and the fees of a block so far are covered by the coins before it
and what it minted. -/
structure Covered (start : CoinsView) (pre : List Transaction) (acc : Connecting) : Prop where
  nonneg : acc.view.coins.NonNegative
  fees : moneyRange acc.nFees = true
  covered : acc.view.coins.totalValue + acc.nFees ≤
    start.totalValue + (pre.map Transaction.minted).sum

theorem Covered.step (enforced : env.areEnforcedValuesDeployed = true) {start : CoinsView}
    {pre : List Transaction} {acc next : Connecting} {tx : Transaction}
    (checked : checkTransaction env tx true false true = .ok ()) (before : Covered start pre acc)
    (passes : connectTx env rules global mempool nHeight block currentTime acc tx = .ok next) :
    Covered start (pre ++ [tx]) next := by
  have paid := nValue_nonneg checked
  obtain ⟨⟨_, checks⟩, coins, vprevout, _, spends⟩ := connectTx_coins passes
  have covered := before.covered
  unfold checkSpending at checks
  by_cases isCoinbase : tx.isCoinBase = true
  · rw [if_pos isCoinbase] at checks
    obtain ⟨same, _⟩ := Prod.mk.inj (Except.ok.inj checks)
    have added : next.view.coins.totalValue ≤ acc.view.coins.totalValue + tx.valueOut := by
      rw [coins, connect, spend, if_pos isCoinbase]
      exact totalValue_addOutputs_le paid 0 before.nonneg
    refine ⟨coins ▸ before.nonneg.connect nHeight paid, same ▸ before.fees, ?_⟩
    rw [← same]
    simp only [map_append, map_cons, map_nil, sum_append, sum_cons,
      sum_nil, minted, if_pos isCoinbase]
    omega
  · have notCoinbase : tx.isCoinBase = false := by simpa using isCoinbase
    rw [if_neg isCoinbase] at checks
    obtain ⟨txfee, fee, _, inRange, _, _, checks⟩ := ok_bind₃ checks
    obtain ⟨_, _, checks⟩ := bind_eq_ok.mp checks
    obtain ⟨same, _⟩ := Prod.mk.inj (pure_eq_ok.mp checks)
    obtain ⟨exact_, feeRange⟩ := checkTxInputs_ok fee
    rw [enforced, countedOut_enforced] at exact_
    have total := addAmount_eq before.fees feeRange (require_eq_ok.mp inRange)
    have left : next.view.coins.totalValue ≤
        acc.view.coins.totalValue - acc.view.coins.valueIn tx + tx.valueOut := by
      rw [coins]
      exact totalValue_connect_le before.nonneg notCoinbase (spends.distinct notCoinbase)
        paid
    refine ⟨coins ▸ before.nonneg.connect nHeight paid, same ▸ require_eq_ok.mp inRange, ?_⟩
    rw [← same, total]
    simp only [map_append, map_cons, map_nil, sum_append, sum_cons,
      sum_nil, minted, if_neg isCoinbase]
    omega

theorem minted_of_checkBlock (checked : checkBlock env rules block = .ok ()) :
    ∃ coinbase, block.vtx.head? = some coinbase ∧
      (block.vtx.map minted).sum = coinbase.valueOut := by
  obtain ⟨coinbase, rest, order, isCoinbase, others⟩ := checkBlock_coinbase checked
  have nothing : rest.map minted = rest.map fun _ => (0 : Int) :=
    map_congr_left fun tx member => if_neg (by simp [others tx member])
  refine ⟨coinbase, by rw [order, head?_cons], ?_⟩
  rw [order, map_cons, sum_cons, nothing, minted, if_pos isCoinbase]
  simp

theorem getBlockSubsidy_range (env : Env) (nHeight : Nat) :
    0 ≤ getBlockSubsidy env nHeight ∧ getBlockSubsidy env nHeight ≤ 320000005 * coin := by
  unfold getBlockSubsidy coin
  split_ifs <;> omega

theorem connectBlock_totalValue (enforced : env.areEnforcedValuesDeployed = true)
    {view : BlockView} {connected : Connected} (nonneg : view.coins.NonNegative)
    (accepted : connectBlock env rules global mempool nHeight block currentTime view = .ok connected) :
    connected.view.coins.NonNegative ∧
      connected.view.coins.totalValue ≤ view.coins.totalValue + getBlockSubsidy env nHeight := by
  obtain ⟨least, most⟩ := getBlockSubsidy_range env nHeight
  by_cases isGenesis : block.hash = rules.hashGenesisBlock
  · -- the outputs of the first block of the chain are not added
    unfold connectBlock at accepted
    obtain ⟨⟨⟩, _, accepted⟩ := bind_eq_ok.mp accepted
    rw [if_pos isGenesis] at accepted
    obtain rfl := pure_eq_ok.mp accepted
    exact ⟨nonneg, le_add_of_nonneg_right least⟩
  · obtain ⟨final, checked, looped, paid, rfl⟩ := connectBlock_ok isGenesis accepted
    obtain ⟨after, fees, covered⟩ := foldlM_scan (Covered view.coins) looped
      ⟨nonneg, by simp [moneyRange, maxMoney, coin], by simp⟩
      fun pre tx post acc next order passes before =>
        before.step enforced (checkBlock_ok checked tx (by simp [order])) passes
    refine ⟨after, ?_⟩
    obtain ⟨coinbase, first, minted⟩ := minted_of_checkBlock checked
    unfold checkCoinbase at paid
    obtain ⟨claimant, isFirst, valueOut, claims, _, within, _⟩ := ok_bind₃ paid
    rw [require?_eq_ok, first] at isFirst
    obtain rfl := Option.some.inj isFirst
    obtain ⟨rfl, _⟩ := getValueOut_ok claims
    rw [enforced, countedOut_enforced] at within
    have limit : coinbase.valueOut ≤ addAmount final.nFees (getBlockSubsidy env nHeight) := by
      simpa using within
    have fits : addAmount final.nFees (getBlockSubsidy env nHeight) =
        final.nFees + getBlockSubsidy env nHeight := by
      rw [moneyRange_iff] at fees
      unfold maxMoney coin at *
      exact wrap_eq_self (v := 63) (by omega) (by omega)
    rw [minted] at covered
    change final.view.coins.totalValue ≤ _
    omega

end

open MainNet

/-- A block of the main network with enforced values, and what it is connected with. -/
structure MainBlock where
  env : Env
  mainNet : env.params = params
  enforced : env.areEnforcedValuesDeployed = true
  rules : BlockRules
  block : Block
  global : AssetState
  assets : AssetsCache
  mempool : MempoolMaps
  currentTime : Int

/-- The height of the tip and the coins there.  The chain starts at height 0 with
no coins: the outputs of the genesis block are not added. -/
structure ChainTip where
  height : Nat
  coins : CoinsView

def ChainTip.genesis : ChainTip := ⟨0, ∅⟩

/-- `CheckBlock` and `ConnectBlock` of the next block. -/
def ChainTip.accept (tip : ChainTip) (next : MainBlock) : Option ChainTip :=
  (connectBlock next.env next.rules next.global next.mempool (tip.height + 1) next.block
      next.currentTime ⟨tip.coins, next.assets⟩).toOption.map
    fun connected => ⟨tip.height + 1, connected.view.coins⟩

def subsidies (h : Nat) : Int := ∑ k ∈ Finset.Icc 1 h, getBlockSubsidy env k

theorem subsidies_succ (h : Nat) :
    subsidies (h + 1) = subsidies h + getBlockSubsidy env (h + 1) :=
  Finset.sum_Icc_succ_top (by omega) _

theorem subsidies_le (h : Nat) : subsidies h ≤ 320000000 * coin + 5 * coin * h := by
  induction h with
  | zero => decide
  | succ h ih =>
    rw [subsidies_succ]
    have next : getBlockSubsidy env (h + 1) ≤
        (if h = 0 then 320000000 * coin else 0) + 5 * coin := by
      unfold getBlockSubsidy coin
      split_ifs <;> omega
    unfold coin at *
    rcases Nat.eq_zero_or_pos h with rfl | positive
    · rw [show subsidies 0 = 0 from rfl]
      simp at next
      push_cast
      omega
    · rw [if_neg (by omega)] at next
      push_cast
      omega

structure WithinSubsidies (tip : ChainTip) : Prop where
  nonneg : tip.coins.NonNegative
  bounded : tip.coins.totalValue ≤ subsidies tip.height

theorem WithinSubsidies.accept {tip next : ChainTip} {block : MainBlock}
    (before : WithinSubsidies tip) (accepted : tip.accept block = some next) :
    WithinSubsidies next := by
  obtain ⟨connected, connects, rfl⟩ := Option.map_eq_some_iff.mp accepted
  obtain ⟨nonneg, bounded⟩ := connectBlock_totalValue block.enforced before.nonneg
    (toOption_eq_some.mp connects)
  refine ⟨nonneg, ?_⟩
  have same : getBlockSubsidy block.env (tip.height + 1) =
      getBlockSubsidy env (tip.height + 1) := by
    unfold getBlockSubsidy
    rw [block.mainNet]
    rfl
  have within := before.bounded
  rw [same] at bounded
  change connected.view.coins.totalValue ≤ subsidies (tip.height + 1)
  rw [subsidies_succ]
  exact bounded.trans (by gcongr)

/-- **Coin supply.**  At every height that fits its field the coins are at most the
subsidies so far, and those stay in the money range. -/
theorem coin_supply_bound (tip : ChainTip)
    (chain : Runs.Run ChainTip.accept (fun _ _ => true) .genesis tip)
    (height : tip.height ≤ 2 ^ 31 - 1) :
    tip.coins.totalValue ≤ subsidies tip.height ∧ subsidies tip.height ≤ maxMoney := by
  have within : WithinSubsidies tip := chain.invariant WithinSubsidies
    ⟨fun _ _ absent => (Option.some_ne_none _ absent.symm).elim, by decide⟩
    fun _ _ _ before _ accepted => before.accept accepted
  refine ⟨within.bounded, (subsidies_le tip.height).trans ?_⟩
  unfold maxMoney coin
  omega

/-- Two blocks that claim all they may: the premine with its subsidy, and the subsidy
of the second block. -/
def firstBlocks : List MainBlock :=
  let premine : Transaction := { coinbase 1001 with
    vout := [pay (5 * coin) alice, pay (320000000 * coin) devKey] }
  [⟨[premine], 1, 0⟩, block 2 []].map fun block =>
    ⟨env, rfl, rfl, rules, block, .initial, .empty, .empty, 0⟩

theorem coin_supply_bound_firstBlocks :
    ∃ tip : ChainTip, (tip.height, tip.coins.totalValue) = (2, 320000010 * coin) ∧
      tip.coins.totalValue ≤ subsidies tip.height ∧ subsidies tip.height ≤ maxMoney := by
  obtain ⟨tip, chain, seen⟩ := @Runs.exists_run_of_execute _ _ ChainTip.accept (fun _ _ => true) _
    .genesis firstBlocks (fun tip => some (tip.height, tip.coins.totalValue))
    (2, 320000010 * coin) (by decide +kernel)
  have reached := Option.some.inj seen
  have height : tip.height = 2 := congrArg Prod.fst reached
  exact ⟨tip, reached, coin_supply_bound tip chain (by rw [height]; decide)⟩

end Phicoin
