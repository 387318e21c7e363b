import Phicoin.CoinSupply
import Mathlib.Algebra.Order.BigOperators.Group.List

/-! # Conservation of value in every deployment state

Before output values are enforced, `GetValueOut` does not count the outputs with
an asset; `CheckTransaction` is to keep their values at zero.  It does so for
issued and transferred assets in every call, for reissued ones only in a call for
the pool or once values are enforced. -/

namespace Phicoin

open Check List Transaction

/-- The outputs pay no more than the inputs, and the fee is the difference. -/
def ValueConserved (view : CoinsView) (tx : Transaction) (txfee : Int) : Prop :=
  tx.valueOut ≤ view.valueIn tx ∧ txfee = view.valueIn tx - tx.valueOut

def Transaction.ReissuesNoValue (tx : Transaction) : Prop :=
  ∀ out ∈ tx.vout, ∀ info, isAssetScript out.scriptPubKey = some info →
    info.nType = .reissueAsset → out.nValue = 0

section

variable {env : Env} {view : CoinsView} {tx : Transaction} {nHeight : Nat} {txfee : Int}
  {fMempoolCheck fBlockCheck : Bool}

theorem valueOut_eq (tx : Transaction) (fAreEnforcedValues : Bool) :
    tx.valueOut = tx.countedOut fAreEnforcedValues +
      ((tx.vout.filter fun out => !isCounted fAreEnforcedValues out).map TxOut.nValue).sum := by
  unfold valueOut countedOut
  induction tx.vout with
  | nil => rfl
  | cons out rest ih =>
    cases counted : isCounted fAreEnforcedValues out <;>
      simp [counted, ih, add_assoc, add_left_comm]

theorem asset_nValue_zero
    (checked : checkTransaction env tx true fMempoolCheck fBlockCheck = .ok ()) {out : TxOut}
    (member : out ∈ tx.vout) {info : AssetScript}
    (isAsset : isAssetScript out.scriptPubKey = some info) :
    (info.nType = .reissueAsset ∧ fMempoolCheck = false) ∨ out.nValue = 0 := by
  obtain ⟨_, _, stages⟩ := checkTransaction_ok checked
  have scanned := stages.scanned
  obtain ⟨scan, next, visited⟩ := foldlM_visits scanned member
  unfold scanOutput at visited
  obtain ⟨_, _, _, _, asset⟩ := ok_bind₂ visited
  unfold scanAsset at asset
  rw [isAsset] at asset
  cases kind : info.nType with
  | transferAsset =>
    simp only [kind, scanTransfer] at asset
    iterate 5 obtain ⟨_, _, asset⟩ := bind_eq_ok.mp asset
    obtain ⟨_, zero, _⟩ := bind_eq_ok.mp asset
    exact .inr (by simpa using zero)
  | newAsset =>
    simp only [kind] at asset
    obtain ⟨_, zero, _⟩ := bind_eq_ok.mp asset
    exact .inr (by simpa using zero)
  | reissueAsset =>
    simp only [kind] at asset
    obtain ⟨_, _, _, inPool, _⟩ := ok_bind₂ asset
    cases fMempoolCheck with
    | false => exact .inl ⟨rfl, rfl⟩
    | true => exact .inr (by simpa using inPool)
  | _ => simp [kind] at asset

theorem valueConserved_iff_sum (passes : checkTxInputs env view tx nHeight = .ok txfee) :
    ValueConserved view tx txfee ↔ ((tx.vout.filter fun out =>
        !isCounted env.areEnforcedValuesDeployed out).map TxOut.nValue).sum = 0 := by
  obtain ⟨exact_, inRange⟩ := checkTxInputs_ok passes
  obtain ⟨nonneg, _⟩ := moneyRange_iff.mp inRange
  have split := valueOut_eq tx env.areEnforcedValuesDeployed
  unfold ValueConserved
  constructor
  · rintro ⟨_, fee⟩
    omega
  · intro zero
    omega

theorem reissuesNoValue_of_pool
    (checked : checkTransaction env tx true true fBlockCheck = .ok ()) : tx.ReissuesNoValue :=
  fun _ member _ isAsset _ => (asset_nValue_zero checked member isAsset).resolve_left (by simp)

/-- **Conservation.**  A transaction that passed both checks conserves value exactly
when values are enforced or no output that reissues has one; so it does whenever
it was checked for the pool. -/
theorem value_conserved_iff
    (checked : checkTransaction env tx true fMempoolCheck fBlockCheck = .ok ())
    (passes : checkTxInputs env view tx nHeight = .ok txfee) : (ValueConserved view tx txfee ↔
      env.areEnforcedValuesDeployed = true ∨ tx.ReissuesNoValue) ∧
      (fMempoolCheck = true → ValueConserved view tx txfee) := by
  have conserved : ValueConserved view tx txfee ↔
      env.areEnforcedValuesDeployed = true ∨ tx.ReissuesNoValue := by
    rw [valueConserved_iff_sum passes]
    constructor
    · intro zero
      rw [or_iff_not_imp_left]
      intro notEnforced out member info isAsset _
      have leftOut : isCounted env.areEnforcedValuesDeployed out = false := by
        simp [isCounted, isAsset, notEnforced]
      have bounded := single_le_sum (l := (tx.vout.filter fun out =>
          !isCounted env.areEnforcedValuesDeployed out).map TxOut.nValue)
        (fun value isValue => by
          obtain ⟨other, isOther, rfl⟩ := mem_map.mp isValue
          exact nValue_nonneg checked other (mem_filter.mp isOther).1)
        out.nValue (mem_map_of_mem (mem_filter.mpr ⟨member, by simp [leftOut]⟩))
      have nonneg := nValue_nonneg checked out member
      omega
    · intro holds
      refine sum_eq_zero fun value isValue => ?_
      obtain ⟨out, isOut, rfl⟩ := mem_map.mp isValue
      obtain ⟨member, leftOut⟩ := mem_filter.mp isOut
      simp only [isCounted, Bool.not_or, Bool.and_eq_true, Bool.not_eq_true',
        Option.isNone_eq_false_iff] at leftOut
      obtain ⟨info, isAsset⟩ := Option.isSome_iff_exists.mp leftOut.2
      rcases asset_nValue_zero checked member isAsset with ⟨isReissue, _⟩ | zero
      · rcases holds with enforced | noValue
        · rw [leftOut.1] at enforced
          cases enforced
        · exact noValue out member info isAsset isReissue
      · exact zero
  refine ⟨conserved, ?_⟩
  rintro rfl
  exact conserved.mpr (.inr (reissuesNoValue_of_pool checked))

end

namespace ValueConservation

def env : Env := { MainNet.env with areEnforcedValuesDeployed := false }

def view : CoinsView :=
  MainNet.coins [(⟨7, 0⟩, MainNet.pay coin MainNet.alice),
    (⟨7, 1⟩, MainNet.transfer (ascii "ROOT!") coin)]

def reissuing (value : Int) : Transaction :=
  MainNet.transaction 20 [⟨7, 0⟩, ⟨7, 1⟩]
    [MainNet.pay (coin / 10) MainNet.burnKey, MainNet.transfer (ascii "ROOT!") coin,
      { MainNet.reissue ⟨ascii "ROOT", coin, -1, 1, []⟩ with nValue := value }]

end ValueConservation

open ValueConservation

/-- A reissue without a value keeps the rest of its coin as the fee. -/
theorem value_conserved_iff_plain : checkTransaction env (reissuing 0) true false true = .ok () ∧
      checkTxInputs env view (reissuing 0) 10 = .ok (9 * coin / 10) ∧
      ValueConserved view (reissuing 0) (9 * coin / 10) := by
  have checked : checkTransaction env (reissuing 0) true false true = .ok () := by decide +kernel
  have passes : checkTxInputs env view (reissuing 0) 10 = .ok (9 * coin / 10) := by decide +kernel
  refine ⟨checked, passes, (value_conserved_iff checked passes).1.mpr (.inr ?_)⟩
  have zeros : ∀ out ∈ (reissuing 0).vout,
      (isAssetScript out.scriptPubKey).isSome = true → out.nValue = 0 := by decide +kernel
  exact fun out member _ isAsset _ => zeros out member (by simp [isAsset])

/-- A reissue in a block pays fifty coins out of one. -/
theorem reissue_creates_value :
    checkTransaction env (reissuing (50 * coin)) true false true = .ok () ∧
      checkTxInputs env view (reissuing (50 * coin)) 10 = .ok (9 * coin / 10) ∧
      (reissuing (50 * coin)).valueOut = 50 * coin + coin / 10 ∧
      view.valueIn (reissuing (50 * coin)) = coin ∧
      ¬ ValueConserved view (reissuing (50 * coin)) (9 * coin / 10) := by
  have values : (reissuing (50 * coin)).valueOut = 50 * coin + coin / 10 ∧
      view.valueIn (reissuing (50 * coin)) = coin := by decide +kernel
  refine ⟨by decide +kernel, by decide +kernel, values.1, values.2, fun conserved => ?_⟩
  rw [ValueConserved, values.1, values.2] at conserved
  exact absurd conserved.1 (by decide)

end Phicoin
