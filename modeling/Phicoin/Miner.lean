import Phicoin.CoinTotals
import Mathlib.Algebra.Order.BigOperators.Group.List

/-! # The coinbase of a mined block

`CreateNewBlock` splits the fees and the subsidy over two outputs, `ConnectBlock`
checks the split on its own.  The check reads output 1, which no other rule demands;
and in the first block the miner counts the fees twice. -/

namespace Phicoin

open Check TwosComplement List Transaction

section

variable (env : Env) (nHeight : Nat) (nFees : Int) (scriptPubKeyIn : Bytes)

def devScript : Bytes := getScriptForDestination (decodeDestination env env.params.devAddress)

/-- The miner's output and that of the development address. -/
def coinbaseOutputs : List TxOut :=
  let nSubsidy := getBlockSubsidy env nHeight
  if nHeight = 1 then
    let devSubsidy := 320000000 * coin
    let minerSubsidy := addAmount (addAmount nFees nSubsidy) (-devSubsidy)
    [⟨addAmount nFees minerSubsidy, scriptPubKeyIn⟩, ⟨devSubsidy, devScript env⟩]
  else
    let minerSubsidy := 50 * nSubsidy / 100
    [⟨addAmount nFees minerSubsidy, scriptPubKeyIn⟩, ⟨nSubsidy - minerSubsidy, devScript env⟩]

def witnessCommitmentHeader : Bytes := [opReturn, 0x24, 0xaa, 0x21, 0xa9, 0xed]

/-- What `GenerateCoinbaseCommitment` appends, unless there is a commitment already. -/
def coinbaseCommitment (witnessRoot : Bytes) (vout : List TxOut) : List TxOut :=
  if vout.any fun out => 38 ≤ out.scriptPubKey.length &&
      out.scriptPubKey.take 6 = witnessCommitmentHeader then []
  else [⟨0, witnessCommitmentHeader ++ witnessRoot⟩]

/-- The coinbase of `CreateNewBlock`; the script of its input starts with the height. -/
def createCoinbase (heightScript witnessRoot : Bytes) (hash : Uint256) : Check Transaction := do
  require (isValidDestination (decodeDestination env env.params.devAddress))
    "IsValidDestination: Invalid PHI Coin DEV address"
  let vout := coinbaseOutputs env nHeight nFees scriptPubKeyIn
  return {
    vin := [⟨⟨0, 0xffffffff⟩, heightScript, 0xffffffff, []⟩]
    vout := vout ++ coinbaseCommitment witnessRoot vout
    nVersion := 2
    nLockTime := 0
    hash := hash }

end

theorem sum_countedValue (fAreEnforcedValues : Bool) (vout : List TxOut) :
    (vout.map (countedValue fAreEnforcedValues)).sum =
      ((vout.filter (isCounted fAreEnforcedValues)).map TxOut.nValue).sum := by
  induction vout with
  | nil => rfl
  | cons out rest ih =>
    rw [map_cons, sum_cons, ih, countedValue, filter_cons]
    split_ifs <;> simp

/-- `GetValueOut` gives the exact sum when what it counts is in range together. -/
theorem getValueOut_eq_ok {tx : Transaction} {fAreEnforcedValues : Bool} {total : Int} :
    tx.getValueOut fAreEnforcedValues = .ok total ↔
      (∀ out ∈ tx.vout, moneyRange (countedValue fAreEnforcedValues out) = true) ∧
        total = tx.countedOut fAreEnforcedValues ∧ total ≤ maxMoney := by
  have zero : moneyRange 0 = true := rfl
  refine ((@valueOutStep_adding fAreEnforcedValues).foldlM_eq_ok tx.vout zero).trans ?_
  simp only [sum_countedValue, zero_add, true_and]
  rfl

section

variable {env : Env} {rules : BlockRules} {nHeight : Nat} {block : Block} {nFees : Int}

/-- What a block that passes `CheckBlock` has for a coinbase is counted. -/
theorem getValueOut_of_checkBlock (fAreEnforcedValues : Bool)
    (checked : checkBlock env rules block = .ok ()) :
    ∃ coinbase, block.vtx.head? = some coinbase ∧ coinbase.getValueOut fAreEnforcedValues =
      .ok (coinbase.countedOut fAreEnforcedValues) := by
  obtain ⟨coinbase, first, _⟩ := minted_of_checkBlock checked
  refine ⟨coinbase, first, ?_⟩
  obtain ⟨_, _, stages⟩ := checkTransaction_ok
    (checkBlock_ok checked coinbase (mem_of_mem_head? first))
  obtain ⟨range, most, _⟩ := (scan_eq_ok coinbase.vout rfl).mp stages.scanned
  rw [OutputScan.start, zero_add] at most
  refine getValueOut_eq_ok.mpr ⟨fun out member => ?_, rfl, ?_⟩
  · unfold countedValue
    split
    · exact range out member
    · rfl
  · refine le_trans (Sublist.sum_le_sum ?_ ?_) most
    · exact filter_sublist.map _
    · intro value member
      obtain ⟨out, inside, rfl⟩ := mem_map.mp member
      exact (moneyRange_iff.mp (range out inside)).1

/-- A script of a destination is too short for one of an asset. -/
theorem isAssetScript_devScript
    (valid : isValidDestination (decodeDestination env env.params.devAddress) = true) :
    isAssetScript (devScript env) = none := by
  have short : (devScript env).length ≤ 31 := by
    unfold devScript
    unfold decodeDestination at valid ⊢
    split at valid
    · rename_i version id _
      split_ifs at valid ⊢ with size isKey isScript
      all_goals simp_all [getScriptForDestination, payToPublicKeyHash, pushData]
    · cases valid
  unfold isAssetScript
  rw [if_neg (by simp [Nat.not_lt.mpr short])]

/-- The check, given what the coinbase claims. -/
theorem checkCoinbase_eq {coinbase : Transaction} {valueOut : Int}
    (first : block.vtx.head? = some coinbase)
    (claims : coinbase.getValueOut env.areEnforcedValuesDeployed = .ok valueOut) :
    checkCoinbase env nHeight block nFees = (do
      require (valueOut ≤ addAmount nFees (getBlockSubsidy env nHeight)) "bad-cb-amount"
      let devOutput ← require? coinbase.vout[1]? "vout[1] out of range"
      require (devSubsidy env nHeight ≤ devOutput.nValue) "bad-cb-community-autonomous-amount"
      require (devOutput.scriptPubKey = devScript env) "bad-cb-community-autonomous-address") := by
  unfold checkCoinbase
  rw [first]
  change (coinbase.getValueOut env.areEnforcedValuesDeployed >>= _) = _
  rw [claims]
  rfl

theorem reward_eq {reward : Int} (fits : Fits 64 (nFees + reward)) :
    addAmount nFees reward = nFees + reward := fits

/-- The check reads past the end when the coinbase has one output and does not claim too
much. -/
theorem checkCoinbase_reads_iff {coinbase : Transaction} {valueOut : Int}
    (first : block.vtx.head? = some coinbase)
    (claims : coinbase.getValueOut env.areEnforcedValuesDeployed = .ok valueOut)
    (fits : Fits 64 (nFees + getBlockSubsidy env nHeight)) :
    checkCoinbase env nHeight block nFees ≠ .error "vout[1] out of range" ↔
      2 ≤ coinbase.vout.length ∨ nFees + getBlockSubsidy env nHeight < valueOut := by
  rw [checkCoinbase_eq first claims, reward_eq fits]
  by_cases claimed : valueOut ≤ nFees + getBlockSubsidy env nHeight
  · by_cases two : 2 ≤ coinbase.vout.length
    · rw [List.getElem?_eq_getElem two]
      simp only [require, claimed, two, decide_true, if_true, true_or, iff_true, require?]
      intro refused
      simp only [bind, Except.bind] at refused
      split_ifs at refused <;> simp_all
    · rw [List.getElem?_eq_none (by omega)]
      simp [require, require?, claimed, two, bind, Except.bind]
  · simp [require, claimed, bind, Except.bind, Int.not_le.mp claimed]

/-- What the check accepts. -/
theorem checkCoinbase_ok_iff {coinbase : Transaction} (first : block.vtx.head? = some coinbase)
    (fits : Fits 64 (nFees + getBlockSubsidy env nHeight)) :
    checkCoinbase env nHeight block nFees = .ok () ↔
      (∀ out ∈ coinbase.vout,
        moneyRange (countedValue env.areEnforcedValuesDeployed out) = true) ∧
      coinbase.countedOut env.areEnforcedValuesDeployed ≤ maxMoney ∧
      coinbase.countedOut env.areEnforcedValuesDeployed ≤ nFees + getBlockSubsidy env nHeight ∧
      ∃ devOutput, coinbase.vout[1]? = some devOutput ∧
        devSubsidy env nHeight ≤ devOutput.nValue ∧ devOutput.scriptPubKey = devScript env := by
  unfold checkCoinbase
  simp only [first, bind_eq_ok, require?_eq_ok, require_eq_ok, Option.some_inj, exists_eq_left',
    getValueOut_eq_ok, decide_eq_true_eq, exists_const, reward_eq fits, devScript]
  constructor
  · rintro ⟨_, ⟨range, rfl, most⟩, claimed, devOutput⟩
    exact ⟨range, most, claimed, devOutput⟩
  · rintro ⟨range, most, claimed, devOutput⟩
    exact ⟨_, ⟨range, rfl, most⟩, claimed, devOutput⟩

end

/-- What the miner's output is to hold, without a word to hold it. -/
def minerValue (env : Env) (nHeight : Nat) (nFees : Int) : Int :=
  if nHeight = 1 then nFees + (nFees + getBlockSubsidy env nHeight - 320000000 * coin)
  else nFees + 50 * getBlockSubsidy env nHeight / 100

/-- The additions of the miner and of the check stay in the word. -/
def RewardFits (env : Env) (nHeight : Nat) (nFees : Int) : Prop :=
  Fits 64 (nFees + getBlockSubsidy env nHeight) ∧ Fits 64 (minerValue env nHeight nFees)

section

variable {env : Env} {nHeight : Nat} {nFees : Int} {scriptPubKeyIn : Bytes}

theorem fits_iff_of_nonneg {x : Int} (nonneg : 0 ≤ x) : Fits 64 x ↔ x < 2 ^ 63 := by
  unfold Fits wrap
  have word := Int.bmod_def x (2 ^ 64)
  split at word <;> omega

theorem minerValue_add_devSubsidy (env : Env) (nHeight : Nat) (nFees : Int) :
    minerValue env nHeight nFees + devSubsidy env nHeight =
      nFees + getBlockSubsidy env nHeight + if nHeight = 1 then nFees else 0 := by
  unfold minerValue devSubsidy
  dsimp only
  split_ifs <;> omega

theorem shares_nonneg (nonneg : 0 ≤ nFees) :
    0 ≤ minerValue env nHeight nFees ∧ 0 ≤ devSubsidy env nHeight ∧
      devSubsidy env nHeight ≤ getBlockSubsidy env nHeight := by
  obtain ⟨least, _⟩ := getBlockSubsidy_range env nHeight
  unfold minerValue devSubsidy
  by_cases first : nHeight = 1
  · rw [if_pos first, if_pos first, getBlockSubsidy, if_pos first]
    unfold coin
    omega
  · rw [if_neg first, if_neg first]
    omega

theorem coinbaseOutputs_eq (nonneg : 0 ≤ nFees) (fits : RewardFits env nHeight nFees) :
    coinbaseOutputs env nHeight nFees scriptPubKeyIn =
      [⟨minerValue env nHeight nFees, scriptPubKeyIn⟩,
        ⟨devSubsidy env nHeight, devScript env⟩] := by
  obtain ⟨reward, value⟩ := fits
  obtain ⟨least, _⟩ := getBlockSubsidy_range env nHeight
  unfold coinbaseOutputs devSubsidy minerValue at *
  by_cases first : nHeight = 1
  · simp only [if_pos first] at value ⊢
    have share : addAmount (nFees + getBlockSubsidy env nHeight) (-(320000000 * coin)) =
        nFees + getBlockSubsidy env nHeight - 320000000 * coin := by
      rw [fits_iff_of_nonneg (by omega)] at reward
      unfold coin at *
      exact wrap_eq_self (v := 63) (by omega) (by omega)
    rw [reward_eq reward, share, reward_eq value]
  · simp only [if_neg first] at value ⊢
    rw [reward_eq value]

theorem coinbaseCommitment_free (witnessRoot : Bytes) (vout : List TxOut) :
    ∀ out ∈ coinbaseCommitment witnessRoot vout, out.nValue = 0 := by
  unfold coinbaseCommitment
  split_ifs <;> simp

/-- The miner's coinbase passes when its output is not counted, or claims no fees in the first
block and stays within the limit. -/
theorem createCoinbase_passes_iff {block : Block} {heightScript witnessRoot : Bytes}
    {hash : Uint256} {coinbase : Transaction} (nonneg : 0 ≤ nFees)
    (created : createCoinbase env nHeight nFees scriptPubKeyIn heightScript witnessRoot hash =
      .ok coinbase) (first : block.vtx.head? = some coinbase)
    (fits : RewardFits env nHeight nFees) :
    checkCoinbase env nHeight block nFees = .ok () ↔
      ((env.areEnforcedValuesDeployed || (isAssetScript scriptPubKeyIn).isNone) = true →
        (nHeight = 1 → nFees = 0) ∧ nFees + getBlockSubsidy env nHeight ≤ maxMoney) := by
  obtain ⟨_, valid, built⟩ := bind_eq_ok.mp created
  have counted := isAssetScript_devScript (require_eq_ok.mp valid)
  have vout := congrArg Transaction.vout (pure_eq_ok.mp built)
  dsimp only at vout
  rw [coinbaseOutputs_eq nonneg fits] at vout
  have free := coinbaseCommitment_free witnessRoot
    [⟨minerValue env nHeight nFees, scriptPubKeyIn⟩, ⟨devSubsidy env nHeight, devScript env⟩]
  generalize coinbaseCommitment witnessRoot _ = commitment at vout free
  have second : coinbase.vout[1]? = some ⟨devSubsidy env nHeight, devScript env⟩ := by
    rw [← vout]
    rfl
  have uncounted : ∀ out ∈ commitment, countedValue env.areEnforcedValuesDeployed out = 0 := by
    intro out member
    rw [countedValue, free out member, ite_self]
  have share : countedValue env.areEnforcedValuesDeployed
      ⟨devSubsidy env nHeight, devScript env⟩ = devSubsidy env nHeight := by
    simp [countedValue, isCounted, counted]
  have total : coinbase.countedOut env.areEnforcedValuesDeployed =
      countedValue env.areEnforcedValuesDeployed ⟨minerValue env nHeight nFees, scriptPubKeyIn⟩ +
        devSubsidy env nHeight := by
    rw [countedOut, ← sum_countedValue, ← vout, map_append, sum_append, map_congr_left uncounted]
    simp [share]
  have ranges : (∀ out ∈ coinbase.vout,
      moneyRange (countedValue env.areEnforcedValuesDeployed out) = true) ↔
      moneyRange (countedValue env.areEnforcedValuesDeployed
        ⟨minerValue env nHeight nFees, scriptPubKeyIn⟩) = true ∧
        moneyRange (devSubsidy env nHeight) = true := by
    rw [← vout, forall_mem_append, forall_mem_cons, forall_mem_singleton, share]
    refine and_iff_left fun out member => ?_
    rw [uncounted out member]
    rfl
  obtain ⟨value, least, most⟩ := @shares_nonneg env nHeight nFees nonneg
  obtain ⟨_, subsidy⟩ := getBlockSubsidy_range env nHeight
  have sum := minerValue_add_devSubsidy env nHeight nFees
  rw [checkCoinbase_ok_iff first fits.1, ranges, total, second]
  simp only [Option.some_inj, exists_eq_left', le_refl, and_true, moneyRange_iff, countedValue,
    isCounted]
  unfold maxMoney coin at *
  by_cases counts : (env.areEnforcedValuesDeployed || (isAssetScript scriptPubKeyIn).isNone) = true
  · simp only [counts, if_true, true_imp_iff]
    by_cases one : nHeight = 1
    · rw [if_pos one] at sum
      omega
    · rw [if_neg one] at sum
      omega
  · simp only [counts, Bool.false_eq_true, if_false, false_imp_iff, iff_true]
    omega

end

/-- **The coinbase rule.**  The check of a block that passes `CheckBlock` reads only outputs that
exist exactly when the coinbase has two or claims too much; what it accepts pays the development
share and claims no more than the fees and the subsidy.  The miner's coinbase passes exactly when
its sums fit the word and, where its output counts, the first block has no fees and the reward is
in the money range. -/
theorem coinbase_rule_iff (env : Env) (rules : BlockRules) (nHeight : Nat) (block : Block)
    (nFees : Int) (nonneg : 0 ≤ nFees) (checked : checkBlock env rules block = .ok ()) :
    (nFees ≤ maxMoney → ∃ coinbase, block.vtx.head? = some coinbase ∧
      (checkCoinbase env nHeight block nFees ≠ .error "vout[1] out of range" ↔
        2 ≤ coinbase.vout.length ∨ nFees + getBlockSubsidy env nHeight <
          coinbase.countedOut env.areEnforcedValuesDeployed) ∧
      (checkCoinbase env nHeight block nFees = .ok () →
        (∃ devOutput, coinbase.vout[1]? = some devOutput ∧
          devSubsidy env nHeight ≤ devOutput.nValue ∧ devOutput.scriptPubKey = devScript env) ∧
        coinbase.countedOut env.areEnforcedValuesDeployed ≤
          nFees + getBlockSubsidy env nHeight)) ∧
    ∀ (scriptPubKeyIn heightScript witnessRoot : Bytes) (hash : Uint256) (coinbase : Transaction),
      createCoinbase env nHeight nFees scriptPubKeyIn heightScript witnessRoot hash = .ok coinbase →
      (RewardFits env nHeight nFees ∧
        checkCoinbase env nHeight { block with vtx := coinbase :: block.vtx.tail } nFees = .ok () ↔
      RewardFits env nHeight nFees ∧
        ((env.areEnforcedValuesDeployed || (isAssetScript scriptPubKeyIn).isNone) = true →
          (nHeight = 1 → nFees = 0) ∧ nFees + getBlockSubsidy env nHeight ≤ maxMoney)) := by
  refine ⟨fun most => ?_, fun scriptPubKeyIn heightScript witnessRoot hash coinbase created =>
    and_congr_right fun fits => createCoinbase_passes_iff nonneg created rfl fits⟩
  obtain ⟨coinbase, first, claims⟩ :=
    getValueOut_of_checkBlock env.areEnforcedValuesDeployed checked
  have fits : Fits 64 (nFees + getBlockSubsidy env nHeight) := by
    obtain ⟨least, subsidy⟩ := getBlockSubsidy_range env nHeight
    unfold maxMoney coin at *
    exact (fits_iff_of_nonneg (by omega)).mpr (by omega)
  refine ⟨coinbase, first, checkCoinbase_reads_iff first claims fits, fun passes => ?_⟩
  obtain ⟨_, _, claimed, devOutput⟩ := (checkCoinbase_ok_iff first fits).mp passes
  exact ⟨devOutput, claimed⟩

namespace Miner

open MainNet

theorem coinbase_rule_iff_second :
    ∃ coinbase, createCoinbase env 2 3 (payToPublicKeyHash alice) [1, 2, 0] [] 9 = .ok coinbase ∧
      checkCoinbase env 2 { block 2 [] with vtx := coinbase :: (block 2 []).vtx.tail } 3 =
        .ok () := by
  have created : ∃ coinbase,
      createCoinbase env 2 3 (payToPublicKeyHash alice) [1, 2, 0] [] 9 = .ok coinbase :=
    passed_iff.mp (by decide +kernel)
  obtain ⟨coinbase, created⟩ := created
  exact ⟨coinbase, created, (((coinbase_rule_iff env rules 2 (block 2 []) 3 (by decide)
    (by decide +kernel)).2 _ _ _ _ _ created).mpr ⟨⟨by decide, by decide⟩, by decide⟩).2⟩

/-- A coinbase with one output passes `CheckBlock`, and output 1 is read; the miner's
first block with a fee of 1 claims 1 too much. -/
theorem coinbase_rule_fails : (∃ single : Block, checkBlock env rules single = .ok () ∧
      checkCoinbase env 2 single 0 = .error "vout[1] out of range") ∧
    (createCoinbase env 1 1 (payToPublicKeyHash alice) [1, 1, 0] [] 9 >>= fun coinbase =>
      checkCoinbase env 1 ⟨[coinbase], 1, 0⟩ 1) = .error "bad-cb-amount" :=
  ⟨⟨⟨[{ coinbase 1002 with vout := [pay 250000000 alice] }], 2, 0⟩, by decide +kernel⟩,
    by decide +kernel⟩

end Miner

end Phicoin
