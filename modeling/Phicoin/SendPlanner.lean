import Mathlib.Algebra.Order.BigOperators.Group.List
import Mathlib.Algebra.Order.Round
import Mathlib.Data.Rat.Floor
import Mathlib.Tactic.Linarith
import Phicoin.WebTransaction

/-! # Plans of the web wallet

`planTransaction` takes inputs in order until they cover the amount and the fee,
computes the fee from their number and decides on a change output.  A plan it
returns spends exactly what its inputs hold, pays at least the rate for the size of
the signed transaction, and is accepted by the builder. -/

namespace Phicoin.Web

open ByteReader Check List

structure SendPlanParams where
  inputsSat : List Int
  grossOutputSat : Int
  feeRatePerByte : Int
  outputCount : Nat
  subtractFee : Bool := false
  forceAllInputs : Bool := false
  dustSat : Int := 546
  inputVbytes : Int := 180
  outputVbytes : Int := 34

structure SendPlan where
  selectedCount : Nat
  totalInputSat : Int
  feeSat : Int
  changeSat : Int
  hasChange : Bool
  recipientDeltaSat : Int

/-- `estimateVbytes`; a change output is always counted. -/
def estimateVbytes (params : SendPlanParams) (inputCount : Nat) : Int :=
  inputCount * params.inputVbytes + (params.outputCount + 1) * params.outputVbytes

/-- `feeSat`: the size at the rate, rounded up. -/
def feeAt (params : SendPlanParams) (rate : ℚ) (inputCount : Nat) : Int :=
  ⌈(estimateVbytes params inputCount : ℚ) * rate⌉

/-- The test that ends the selection; the fee is not rounded here. -/
def reachesTarget (params : SendPlanParams) (rate : ℚ) (total : Int) (count : Nat) : Bool :=
  if params.subtractFee then decide (params.grossOutputSat ≤ total)
  else decide ((params.grossOutputSat : ℚ) + estimateVbytes params count * rate + params.dustSat ≤
    total)

def selectInputs (params : SendPlanParams) (rate : ℚ) : List Int → Int → Nat → Int × Nat
  | [], total, count => (total, count)
  | v :: rest, total, count =>
      if !params.forceAllInputs && reachesTarget params rate (total + v) (count + 1) then
        (total + v, count + 1)
      else selectInputs params rate rest (total + v) (count + 1)

def needMore (sat : Int) : String :=
  "Insufficient funds. Need " ++ String.ofList (valueFromAmountString sat 8) ++ " PHI more."

/-- `planTransaction` at any rate; the one of the parameters is not read. -/
def planTransactionAt (params : SendPlanParams) (rate : ℚ) : Check SendPlan := do
  require (0 < params.grossOutputSat) "Output amount must be positive"
  require (!(params.subtractFee && params.outputCount ≠ 1))
    "Subtract-fee is only supported with a single recipient"
  let (totalInputSat, selectedCount) := selectInputs params rate params.inputsSat 0 0
  require (selectedCount ≠ 0) "No spendable inputs"
  let feeSat := feeAt params rate selectedCount
  if params.subtractFee then
    require (params.dustSat ≤ params.grossOutputSat - feeSat)
      "Amount is too small to cover the network fee"
    let changeSat := totalInputSat - params.grossOutputSat
    require (0 ≤ changeSat) (needMore (-changeSat))
    let hasChange := decide (params.dustSat < changeSat)
    return ⟨selectedCount, totalInputSat, feeSat, if hasChange then changeSat else 0, hasChange,
      feeSat⟩
  else
    let changeSat := totalInputSat - params.grossOutputSat - feeSat
    require (0 ≤ changeSat) (needMore (-changeSat))
    let hasChange := decide (params.dustSat < changeSat)
    return ⟨selectedCount, totalInputSat, feeSat, if hasChange then changeSat else 0, hasChange, 0⟩

/-- At the rate of the parameters, which is one in whole satoshi. -/
def planTransaction (params : SendPlanParams) : Check SendPlan :=
  planTransactionAt params params.feeRatePerByte

theorem feeAt_whole (params : SendPlanParams) (count : Nat) :
    feeAt params params.feeRatePerByte count =
      estimateVbytes params count * params.feeRatePerByte := by
  unfold feeAt
  exact_mod_cast Int.ceil_intCast (R := ℚ) (estimateVbytes params count * params.feeRatePerByte)

theorem selectInputs_sum (params : SendPlanParams) (rate : ℚ) (inputs : List Int) (total : Int)
    (count : Nat) : ∃ taken ≤ inputs.length, selectInputs params rate inputs total count =
      (total + (inputs.take taken).sum, count + taken) := by
  induction inputs generalizing total count with
  | nil => exact ⟨0, le_refl 0, by simp [selectInputs]⟩
  | cons v rest ih =>
    rw [selectInputs]
    split
    · exact ⟨1, by simp, by simp⟩
    · obtain ⟨taken, bounded, selected⟩ := ih (total + v) (count + 1)
      refine ⟨taken + 1, by simpa using bounded, ?_⟩
      rw [selected, take_succ_cons, sum_cons]
      ext
      · simp only
        ring
      · simp only
        omega

/-- The size of a signed transaction with P2PKH inputs and outputs: each input has a
signature of some length with its hash type and a compressed public key. -/
def signedSize (signatures : List Nat) (outputCount : Nat) : Nat :=
  4 + (writeCompactSize signatures.length).length +
    (signatures.map fun signature => 32 + 4 + 1 + (1 + (signature + 1) + 1 + 33) + 4).sum +
    (writeCompactSize outputCount).length + outputCount * (8 + 1 + 25) + 4

theorem length_writeCompactSize_le (size : Nat) : (writeCompactSize size).length ≤ 9 := by
  unfold writeCompactSize
  split_ifs <;> simp [length_leBytes]

theorem signedSize_le {signatures : List Nat} (some_input : signatures ≠ [])
    (short : ∀ signature ∈ signatures, signature ≤ 72) (outputCount : Nat) :
    signedSize signatures outputCount ≤ signatures.length * 180 + outputCount * 34 := by
  have inputs : (signatures.map fun signature =>
      32 + 4 + 1 + (1 + (signature + 1) + 1 + 33) + 4).sum ≤ signatures.length * 149 := by
    refine (sum_le_card_nsmul _ 149 ?_).trans (by simp)
    intro size member
    obtain ⟨signature, inSignatures, rfl⟩ := mem_map.mp member
    have := short signature inSignatures
    omega
  have inputCount := length_writeCompactSize_le signatures.length
  have outputs := length_writeCompactSize_le outputCount
  have positive : 0 < signatures.length := length_pos_iff.mpr some_input
  unfold signedSize
  omega

/-- The outputs `sendToMany` makes of a plan: the fee comes off the first recipient when
it is subtracted, and the change goes last. -/
def plannedOutputs (recipients : List PSBTOutput) (plan : SendPlan) (changeAddress : Bytes) :
    List PSBTOutput :=
  let outputs := if 0 < plan.recipientDeltaSat then
      recipients.modifyHead fun first => { first with
        valueSat := first.valueSat - plan.recipientDeltaSat }
    else recipients
  if plan.hasChange then outputs ++ [⟨changeAddress, plan.changeSat⟩] else outputs

/-- What `sendToMany` asks the builder for. -/
def plannedOptions (candidates : List PSBTInput) (recipients : List PSBTOutput)
    (changeAddress : Bytes) (feeRate : Int) (plan : SendPlan) : PSBTBuildOptions where
  inputs := candidates.take plan.selectedCount
  outputs := plannedOutputs recipients plan changeAddress
  feeRate := feeRate

def SendPlan.paidFee (plan : SendPlan) (grossOutputSat : Int) : Int :=
  plan.totalInputSat - (grossOutputSat - plan.recipientDeltaSat) - plan.changeSat

structure Planned (params : SendPlanParams) (plan : SendPlan) : Prop where
  bounded : plan.selectedCount ≤ params.inputsSat.length
  some_input : plan.selectedCount ≠ 0
  total : plan.totalInputSat = (params.inputsSat.take plan.selectedCount).sum
  fee : plan.feeSat = estimateVbytes params plan.selectedCount * params.feeRatePerByte
  remainder : ∃ remainder, 0 ≤ remainder ∧
    plan.totalInputSat = params.grossOutputSat - plan.recipientDeltaSat + plan.feeSat + remainder ∧
    plan.hasChange = decide (params.dustSat < remainder) ∧
    plan.changeSat = if plan.hasChange then remainder else 0
  delta : if params.subtractFee then params.outputCount = 1 ∧ plan.recipientDeltaSat = plan.feeSat ∧
      params.dustSat ≤ params.grossOutputSat - plan.feeSat
    else plan.recipientDeltaSat = 0

theorem planned_of_planTransaction {params : SendPlanParams} {plan : SendPlan}
    (planned : planTransaction params = .ok plan) : Planned params plan := by
  unfold planTransaction planTransactionAt at planned
  obtain ⟨_, _, _, single, planned⟩ := ok_bind₂ planned
  obtain ⟨taken, bounded, selected⟩ := selectInputs_sum params params.feeRatePerByte
    params.inputsSat 0 0
  rw [selected] at planned
  obtain ⟨_, some_input, planned⟩ := bind_eq_ok.mp planned
  rw [zero_add, zero_add, feeAt_whole] at planned
  simp only [require_eq_ok, decide_eq_true_eq, zero_add] at some_input
  split at planned
  · rename_i subtract
    obtain ⟨_, enough, _, covered, planned⟩ := ok_bind₂ planned
    obtain rfl := pure_eq_ok.mp planned
    simp only [require_eq_ok, decide_eq_true_eq] at enough covered
    refine { bounded := bounded, some_input := some_input, total := rfl, fee := rfl,
             remainder := ⟨_, covered, ?_, rfl, rfl⟩, delta := ?_ }
    · simp only
      ring
    · rw [if_pos subtract]
      exact ⟨by simpa [subtract] using single, rfl, enough⟩
  · rename_i whole
    obtain ⟨_, covered, planned⟩ := bind_eq_ok.mp planned
    obtain rfl := pure_eq_ok.mp planned
    simp only [require_eq_ok, decide_eq_true_eq] at covered
    refine { bounded := bounded, some_input := some_input, total := rfl, fee := rfl,
             remainder := ⟨_, covered, ?_, rfl, rfl⟩, delta := by rw [if_neg whole] }
    simp only
    ring

namespace Planned

variable {params : SendPlanParams} {plan : SendPlan}

theorem paidFee (planned : Planned params plan) (dust : 0 ≤ params.dustSat) :
    plan.feeSat ≤ plan.paidFee params.grossOutputSat ∧
      plan.paidFee params.grossOutputSat ≤ plan.feeSat + params.dustSat ∧
      (plan.hasChange = true → plan.paidFee params.grossOutputSat = plan.feeSat) ∧
      (plan.changeSat = 0 ∨ params.dustSat < plan.changeSat) ∧
      (plan.hasChange = false → plan.changeSat = 0) := by
  obtain ⟨remainder, nonneg, total, hasChange, change⟩ := planned.remainder
  unfold SendPlan.paidFee
  cases has : plan.hasChange with
  | true =>
    rw [has, eq_comm, decide_eq_true_eq] at hasChange
    rw [has, if_pos rfl] at change
    refine ⟨by omega, by omega, fun _ => by omega, .inr (by omega), fun impossible => ?_⟩
    cases impossible
  | false =>
    rw [has, eq_comm, decide_eq_false_iff_not] at hasChange
    rw [has, if_neg Bool.false_ne_true] at change
    exact ⟨by omega, by omega, fun impossible => absurd impossible Bool.false_ne_true,
      .inl change, fun _ => change⟩

theorem fee_covers (planned : Planned params plan) (inputVbytes : params.inputVbytes = 180)
    (outputVbytes : params.outputVbytes = 34) (rate : 0 ≤ params.feeRatePerByte)
    {signatures : List Nat} (each : signatures.length = plan.selectedCount)
    (short : ∀ signature ∈ signatures, signature ≤ 72) {outputs : Nat}
    (outputCount : outputs ≤ params.outputCount + 1) :
    params.feeRatePerByte * signedSize signatures outputs ≤ plan.feeSat := by
  have some_input : signatures ≠ [] := by
    rintro rfl
    exact planned.some_input each.symm
  have size := signedSize_le some_input short outputs
  rw [planned.fee, estimateVbytes, inputVbytes, outputVbytes, mul_comm, ← each]
  refine mul_le_mul_of_nonneg_right ?_ rate
  zify at size outputCount
  omega

theorem length_plannedOutputs (recipients : List PSBTOutput) (plan : SendPlan)
    (changeAddress : Bytes) : (plannedOutputs recipients plan changeAddress).length =
      recipients.length + if plan.hasChange then 1 else 0 := by
  unfold plannedOutputs
  split <;> split <;> simp

theorem sum_plannedOutputs (planned : Planned params plan) {recipients : List PSBTOutput}
    (count : recipients.length = params.outputCount)
    (gross : (recipients.map PSBTOutput.valueSat).sum = params.grossOutputSat)
    (rate : 0 ≤ plan.feeSat) (changeAddress : Bytes) :
    ((plannedOutputs recipients plan changeAddress).map PSBTOutput.valueSat).sum =
      params.grossOutputSat - plan.recipientDeltaSat + plan.changeSat := by
  have recipientsSum : ((if 0 < plan.recipientDeltaSat then
      recipients.modifyHead fun first => { first with
        valueSat := first.valueSat - plan.recipientDeltaSat }
      else recipients).map PSBTOutput.valueSat).sum =
      params.grossOutputSat - plan.recipientDeltaSat := by
    have delta := planned.delta
    split
    · rename_i positive
      split at delta
      · -- the fee is subtracted from the only recipient
        obtain ⟨single, _, _⟩ := delta
        obtain ⟨recipient, rfl⟩ := length_eq_one_iff.mp (count.trans single)
        simpa using gross
      · omega
    · rename_i none
      have zero : plan.recipientDeltaSat = 0 := by
        split at delta
        · omega
        · exact delta
      rw [gross, zero, sub_zero]
  obtain ⟨remainder, _, _, _, change⟩ := planned.remainder
  unfold plannedOutputs
  dsimp only
  cases has : plan.hasChange with
  | true =>
    rw [if_pos rfl, map_append, sum_append, recipientsSum]
    simp
  | false =>
    rw [has, if_neg Bool.false_ne_true] at change
    rw [if_neg Bool.false_ne_true, recipientsSum, change, add_zero]

theorem change_nonneg (planned : Planned params plan) (inputVbytes : params.inputVbytes = 180)
    (outputVbytes : params.outputVbytes = 34) (rate : 0 ≤ params.feeRatePerByte)
    (dust : 0 ≤ params.dustSat) {candidates : List PSBTInput} {recipients : List PSBTOutput}
    (values : candidates.map PSBTInput.valueSat = params.inputsSat)
    (count : recipients.length = params.outputCount)
    (gross : (recipients.map PSBTOutput.valueSat).sum = params.grossOutputSat)
    (changeAddress : Bytes) :
    0 ≤ change (plannedOptions candidates recipients changeAddress params.feeRatePerByte plan) := by
  have length : candidates.length = params.inputsSat.length := by
    rw [← values, length_map]
  have inputs : (candidates.take plan.selectedCount).length = plan.selectedCount := by
    rw [length_take, length]
    exact Nat.min_eq_left planned.bounded
  have feeNonneg : 0 ≤ plan.feeSat := by
    rw [planned.fee, estimateVbytes, inputVbytes, outputVbytes]
    positivity
  obtain ⟨enough, _, exact', _, _⟩ := planned.paidFee dust
  have fee := planned.fee
  rw [estimateVbytes, inputVbytes, outputVbytes] at fee
  unfold SendPlan.paidFee at enough exact'
  unfold Web.change estimatedFee plannedOptions
  simp only
  rw [inputs, planned.sum_plannedOutputs count gross feeNonneg, map_take, values,
    ← planned.total, length_plannedOutputs, count]
  cases has : plan.hasChange with
  | true =>
    have same := exact' has
    rw [if_pos rfl]
    push_cast
    linarith
  | false =>
    rw [if_neg Bool.false_ne_true, add_zero]
    have lower : ((plan.selectedCount : Int) * 180 + params.outputCount * 34) *
        params.feeRatePerByte ≤ plan.feeSat := by
      rw [fee]
      exact mul_le_mul_of_nonneg_right (by omega) rate
    linarith

end Planned

/-- A returned plan takes the first inputs, splits their sum into what the recipients get,
the change and a fee of at least the planned one, covers the size of every signed
transaction of its shape, and is not refused by the builder for lack of funds. -/
theorem plan_conserves_funds (inputsSat : List Int) (grossOutputSat feeRatePerByte : Int)
    (outputCount : Nat) (subtractFee forceAllInputs : Bool) (dustSat : Int)
    (rate : 0 ≤ feeRatePerByte) (dust : 0 ≤ dustSat) (plan : SendPlan)
    (planned : planTransaction ⟨inputsSat, grossOutputSat, feeRatePerByte, outputCount, subtractFee,
      forceAllInputs, dustSat, 180, 34⟩ = .ok plan) :
    plan.selectedCount ≤ inputsSat.length ∧
    plan.totalInputSat = (inputsSat.take plan.selectedCount).sum ∧
    plan.totalInputSat = (grossOutputSat - plan.recipientDeltaSat) + plan.changeSat +
      plan.paidFee grossOutputSat ∧
    plan.feeSat ≤ plan.paidFee grossOutputSat ∧
    plan.paidFee grossOutputSat ≤ plan.feeSat + dustSat ∧
    (plan.changeSat = 0 ∨ dustSat < plan.changeSat) ∧
    (subtractFee = true → dustSat ≤ grossOutputSat - plan.recipientDeltaSat) ∧
    (∀ signatures : List Nat, signatures.length = plan.selectedCount →
      (∀ signature ∈ signatures, signature ≤ 72) →
      feeRatePerByte * signedSize signatures (outputCount + if plan.hasChange then 1 else 0) ≤
        plan.feeSat) ∧
    ∀ (candidates : List PSBTInput) (recipients : List PSBTOutput) (changeAddress : Bytes),
      candidates.map PSBTInput.valueSat = inputsSat → recipients.length = outputCount →
      (recipients.map PSBTOutput.valueSat).sum = grossOutputSat →
      let options := plannedOptions candidates recipients changeAddress feeRatePerByte plan
      require (0 ≤ change options) (insufficientFunds options) = .ok () := by
  have facts := planned_of_planTransaction planned
  obtain ⟨low, high, _, change, _⟩ := facts.paidFee dust
  refine ⟨facts.bounded, facts.total, by unfold SendPlan.paidFee; ring, low, high, change, ?_, ?_, ?_⟩
  · intro subtract
    have delta := facts.delta
    rw [if_pos subtract] at delta
    rw [delta.2.1]
    exact delta.2.2
  · intro signatures each short
    refine facts.fee_covers rfl rfl rate each short ?_
    simp only
    split <;> omega
  · intro candidates recipients changeAddress values count gross
    rw [require_eq_ok, decide_eq_true_eq]
    exact facts.change_nonneg rfl rfl rate dust values count gross changeAddress

/-- Three inputs, of which two are taken, for a payment of 1500000 at ten a byte. -/
theorem plan_conserves_funds_two : ∃ plan,
    planTransaction ⟨[1000000, 900000, 70000], 1500000, 10, 1, false, false, 546, 180, 34⟩ =
      .ok plan ∧ plan.selectedCount = 2 ∧ plan.changeSat = 395720 ∧
      plan.feeSat ≤ plan.paidFee 1500000 := by
  have passes : (planTransaction ⟨[1000000, 900000, 70000], 1500000, 10, 1, false, false, 546, 180,
      34⟩).passed = true := by decide +kernel
  obtain ⟨plan, planned⟩ := passed_iff.mp passes
  have facts := plan_conserves_funds [1000000, 900000, 70000] 1500000 10 1 false false 546
    (by decide) (by decide) plan planned
  have observed : (planTransaction ⟨[1000000, 900000, 70000], 1500000, 10, 1, false, false, 546, 180,
      34⟩).toOption.map (fun plan => (plan.selectedCount, plan.changeSat)) = some (2, 395720) := by
    decide +kernel
  rw [planned] at observed
  obtain ⟨count, change⟩ := Prod.mk.inj (Option.some.inj observed)
  exact ⟨plan, planned, count, change, facts.2.2.2.1⟩

theorem reachesTarget_iff {params : SendPlanParams} {rate : ℚ} {total : Int} {count : Nat} :
    reachesTarget params rate total count = true ↔
      if params.subtractFee then params.grossOutputSat ≤ total
      else params.grossOutputSat + feeAt params rate count + params.dustSat ≤ total := by
  have rounded : (params.grossOutputSat : ℚ) + estimateVbytes params count * rate +
      params.dustSat ≤ total ↔
      params.grossOutputSat + feeAt params rate count + params.dustSat ≤ total := by
    have := @Int.ceil_le ℚ _ _ _ (total - params.grossOutputSat - params.dustSat)
      (estimateVbytes params count * rate)
    push_cast at this
    constructor
    · intro covers
      have := this.mpr (by linarith)
      unfold feeAt
      omega
    · intro covers
      have := this.mp (by unfold feeAt at covers; omega)
      linarith
  cases subtract : params.subtractFee <;> simp [reachesTarget, subtract, rounded]

section

variable {params : SendPlanParams} {rate : ℚ}

/-- The selection ends at the first prefix that reaches its target, or takes everything. -/
theorem selectInputs_spec (choose : params.forceAllInputs = false) (inputs : List Int)
    (total : Int) (count : Nat) :
    ∃ taken ≤ inputs.length, selectInputs params rate inputs total count =
        (total + (inputs.take taken).sum, count + taken) ∧ (∀ k, 0 < k → k < taken →
        reachesTarget params rate (total + (inputs.take k).sum) (count + k) = false) ∧
      (taken = inputs.length ∨
        reachesTarget params rate (total + (inputs.take taken).sum) (count + taken) = true) := by
  induction inputs generalizing total count with
  | nil => exact ⟨0, le_refl 0, by simp [selectInputs], by omega, Or.inl rfl⟩
  | cons v rest ih =>
    rw [selectInputs, choose]
    cases stop : reachesTarget params rate (total + v) (count + 1) with
    | true => exact ⟨1, by simp, by simp, by omega, Or.inr (by simpa using stop)⟩
    | false =>
      obtain ⟨taken, bounded, selected, before, ends⟩ := ih (total + v) (count + 1)
      have shift : ∀ k, total + ((v :: rest).take (k + 1)).sum = total + v + (rest.take k).sum := by
        intro k
        rw [take_succ_cons, sum_cons]
        ring
      have next : ∀ k, count + (k + 1) = count + 1 + k := fun k => by omega
      refine ⟨taken + 1, by simpa using bounded, ?_, fun k pos below => ?_, ?_⟩
      · rw [shift, next taken]
        exact selected
      · obtain ⟨k, rfl⟩ := Nat.exists_eq_succ_of_ne_zero (Nat.pos_iff_ne_zero.mp pos)
        rw [Nat.succ_eq_add_one, shift, next]
        rcases Nat.eq_zero_or_pos k with rfl | later
        · simpa using stop
        · exact before k later (by omega)
      · rw [shift, next, length_cons]
        exact ends.imp_left fun all => by omega

/-- What the first inputs cover. -/
def SendPlanParams.prefixSum (params : SendPlanParams) (count : Nat) : Int :=
  (params.inputsSat.take count).sum

theorem feeAt_mono (rateNonneg : 0 ≤ rate) (vbytes : 0 ≤ params.inputVbytes) {m n : Nat}
    (le : m ≤ n) : feeAt params rate m ≤ feeAt params rate n := by
  apply Int.ceil_mono
  apply mul_le_mul_of_nonneg_right _ rateNonneg
  have : (m : Int) * params.inputVbytes ≤ n * params.inputVbytes :=
    mul_le_mul_of_nonneg_right (by exact_mod_cast le) vbytes
  unfold estimateVbytes
  exact_mod_cast (by linarith : (m : Int) * params.inputVbytes +
    (params.outputCount + 1) * params.outputVbytes ≤ n * params.inputVbytes +
    (params.outputCount + 1) * params.outputVbytes)

theorem feeAt_nonneg (rateNonneg : 0 ≤ rate) (inputVbytes : 0 ≤ params.inputVbytes)
    (outputVbytes : 0 ≤ params.outputVbytes) (n : Nat) : 0 ≤ feeAt params rate n := by
  refine Int.ceil_nonneg (mul_nonneg ?_ rateNonneg)
  have : 0 ≤ estimateVbytes params n := by
    unfold estimateVbytes
    positivity
  exact_mod_cast this

theorem planTransactionAt_passed {total : Int} {count : Nat}
    (selected : selectInputs params rate params.inputsSat 0 0 = (total, count)) :
    (planTransactionAt params rate).passed = true ↔ 0 < params.grossOutputSat ∧
      (params.subtractFee = true → params.outputCount = 1) ∧ count ≠ 0 ∧
      if params.subtractFee then params.dustSat ≤ params.grossOutputSat - feeAt params rate count ∧
        params.grossOutputSat ≤ total
      else params.grossOutputSat + feeAt params rate count ≤ total := by
  have last : ∀ {α : Type} (f : Unit → α) (condition : Bool) (reason : String),
      (∃ plan, (f <$> require condition reason : Check α) = .ok plan) ↔ condition = true := by
    intro α f condition reason
    cases condition <;> simp [require]
  rw [passed_iff, planTransactionAt, selected]
  cases subtract : params.subtractFee <;>
    simp [bind_eq_ok, require_eq_ok, last, le_sub_iff_add_le, add_comm]

/-- Without a forced selection there is a plan exactly when some prefix covers the amount
and its fee with the dust limit to spare, or all inputs together cover the amount and
their fee; in subtract-fee mode, when some prefix covers the amount and its fee leaves the
recipient the dust limit. -/
theorem plan_exists_iff (params : SendPlanParams) (rate : ℚ)
    (choose : params.forceAllInputs = false) (rateNonneg : 0 ≤ rate)
    (dust : 0 ≤ params.dustSat) (inputVbytes : 0 ≤ params.inputVbytes)
    (outputVbytes : 0 ≤ params.outputVbytes) :
    (planTransactionAt params rate).passed = true ↔ 0 < params.grossOutputSat ∧
      if params.subtractFee then params.outputCount = 1 ∧
        ∃ n ≤ params.inputsSat.length, params.grossOutputSat ≤ params.prefixSum n ∧
          params.dustSat ≤ params.grossOutputSat - feeAt params rate n
      else (∃ n ≤ params.inputsSat.length, params.grossOutputSat + feeAt params rate n +
            params.dustSat ≤ params.prefixSum n) ∨
          params.grossOutputSat + feeAt params rate params.inputsSat.length ≤
            params.prefixSum params.inputsSat.length := by
  obtain ⟨taken, bounded, selected, before, ends⟩ :=
    @selectInputs_spec params rate choose params.inputsSat 0 0
  simp only [zero_add] at selected before ends
  have none : params.prefixSum 0 = 0 := rfl
  have fee := feeAt_nonneg rateNonneg inputVbytes outputVbytes
  rw [planTransactionAt_passed selected]
  change _ ∧ _ ∧ _ ∧ (if _ then _ ∧ _ ≤ params.prefixSum taken else _ ≤ params.prefixSum taken) ↔ _
  refine and_congr_right fun positive => ?_
  -- a prefix that reaches its target is not passed by
  have notPast : ∀ n, 0 < n → reachesTarget params rate (params.prefixSum n) n = true →
      taken ≤ n := by
    intro n pos reached
    by_contra past
    exact Bool.false_ne_true ((before n pos (by omega)).symm.trans reached)
  change taken = _ ∨ reachesTarget params rate (params.prefixSum taken) taken = true at ends
  simp only [reachesTarget_iff] at notPast ends
  have fee0 := fee 0
  have feeTaken := fee taken
  cases subtract : params.subtractFee with
  | true =>
    simp only [subtract, if_true, forall_const] at notPast ends ⊢
    refine and_congr_right fun _ => ⟨fun h => ⟨taken, bounded, h.2.2, h.2.1⟩, ?_⟩
    rintro ⟨n, inside, covers, left⟩
    have pos : 0 < n := Nat.pos_of_ne_zero fun zero => by rw [zero] at covers; omega
    have le := notPast n pos covers
    have cheaper := feeAt_mono rateNonneg inputVbytes le
    rcases ends with all | reached
    · obtain rfl : taken = n := by omega
      exact ⟨by omega, left, covers⟩
    · refine ⟨fun zero => ?_, by omega, reached⟩
      rw [zero] at reached
      omega
  | false =>
    simp only [subtract, Bool.false_eq_true, if_false, false_implies, true_and] at notPast ends ⊢
    constructor
    · rintro ⟨_, covers⟩
      rcases ends with all | reached
      · exact Or.inr (all ▸ covers)
      · exact Or.inl ⟨taken, bounded, reached⟩
    · intro covers
      have nonzero : taken ≠ 0 := by
        rintro rfl
        rcases ends with all | reached
        · rw [← all] at covers
          rcases covers with ⟨n, inside, covers⟩ | covers
          · obtain rfl : n = 0 := by omega
            omega
          · omega
        · omega
      refine ⟨nonzero, ?_⟩
      rcases ends with all | reached
      · rcases covers with ⟨n, inside, covers⟩ | covers
        · have pos : 0 < n := Nat.pos_of_ne_zero fun zero => by
            rw [zero] at covers
            omega
          have := notPast n pos covers
          obtain rfl : taken = n := by omega
          omega
        · rwa [← all] at covers
      · omega

end

/-- A payment of 1000 at one satoshi a byte with the inputs 1248 and 100. -/
def tightParams : SendPlanParams :=
  { inputsSat := [1248, 100], grossOutputSat := 1000, feeRatePerByte := 1, outputCount := 1 }

theorem plan_exists_iff_tight : (planTransactionAt tightParams 1).passed = true ↔
    0 < tightParams.grossOutputSat ∧
      ((∃ n ≤ 2, 1000 + feeAt tightParams 1 n + 546 ≤ tightParams.prefixSum n) ∨
        1000 + feeAt tightParams 1 2 ≤ tightParams.prefixSum 2) :=
  plan_exists_iff tightParams 1 rfl (by decide) (by decide) (by decide) (by decide)

/-- The first input covers the amount and its fee exactly, and the second one costs more
than it holds. -/
theorem covered_payment_has_no_plan :
    tightParams.grossOutputSat + feeAt tightParams 1 1 ≤ tightParams.prefixSum 1 ∧
      (planTransaction tightParams).passed = false := by
  decide +kernel

end Phicoin.Web
