import Mathlib.Algebra.Order.BigOperators.Group.List
import Phicoin.NullAssets

/-! # Burn fees

Each fee is looked for by a scan of its own: for an issuance or a reissue, and
for the tags a transaction adds.  On the main network every fee is the same
amount to the same address, so both scans can find the same output.  They cannot
when the numbers differ, since an output pays one amount. -/

namespace Phicoin

open Check TwosComplement List MainNet Transaction

def BurnTable.values {α : Type} (table : BurnTable α) : List α :=
  [table.issueAsset, table.reissueAsset, table.issueSubAsset, table.issueUniqueAsset,
    table.issueMsgChannelAsset, table.issueQualifierAsset, table.issueSubQualifierAsset,
    table.issueRestrictedAsset, table.addNullQualifierTag]

namespace Transaction

variable (env : Env) (tx : Transaction)

def burnPayments : List Int :=
  (tx.vout.filter fun out => isValidDestination (extractDestination env out.scriptPubKey) &&
    env.params.burnAddress.values.contains (scriptAddress env out.scriptPubKey)).map TxOut.nValue

def issueFee (out : TxOut) : Int :=
  match assetFromScript env out.scriptPubKey with
  | some (asset, _) => getBurnAmount env (assetNameType asset.strName)
  | none => 0

def addsTag (out : TxOut) : Bool :=
  match assetNullDataFromScript env out.scriptPubKey with
  | some (data, _) => isAssetNameAQualifier data.assetName false && data.flag = 1
  | none => false

def tagsAdded : Nat := tx.vout.countP (addsTag env)

def assetsMinted : Nat :=
  countOutputs tx.vout .newAsset false + countOutputs tx.vout .reissueAsset false

/-- The sum of all fees: of each issued asset, of the reissue, of each added tag. -/
def feesOwed : Int :=
  (tx.vout.map (issueFee env)).sum +
    (if countOutputs tx.vout .reissueAsset false = 0 then 0
      else env.params.burnAmount.reissueAsset) +
    getBurnAmount env .nullAddQualifier * tx.tagsAdded env

end Transaction

section

variable {env : Env} {scan next : OutputScan} {out : TxOut} {fMempoolCheck fBlockCheck : Bool}

theorem scanOutput_counts (passes : scanOutput env fMempoolCheck fBlockCheck scan out = .ok next) :
    next.nCountAddTagOuts = scan.nCountAddTagOuts + (if addsTag env out then 1 else 0) ∧
      0 ≤ out.nValue := by
  unfold scanOutput at passes
  obtain ⟨valued, value, nulls, null, asset⟩ := ok_bind₂ passes
  unfold scanValue at value
  obtain ⟨_, nonneg, _, _, _, _, value⟩ := ok_bind₃ value
  obtain rfl := pure_eq_ok.mp value
  rw [require_eq_ok, decide_eq_true_eq] at nonneg
  rw [(scanAsset_ok asset).1]
  refine ⟨?_, nonneg⟩
  dsimp only
  unfold scanNullAsset at null
  by_cases isTag : isNullAssetTxDataScript out.scriptPubKey = true
  · rw [if_pos isTag] at null
    obtain ⟨⟨data, address⟩, read, null⟩ := bind_eq_ok.mp null
    obtain ⟨_, _, _, _, null⟩ := ok_bind₂ null
    obtain rfl := pure_eq_ok.mp null
    rw [require?_eq_ok] at read
    simp [addsTag, read]
  · have noTag : addsTag env out = false := by
      simp [addsTag, assetNullDataFromScript, isTag]
    rw [if_neg isTag] at null
    split at null
    · obtain ⟨_, _, _, _, _, _, null⟩ := ok_bind₃ null
      obtain rfl := pure_eq_ok.mp null
      simp [noTag]
    · split at null
      · obtain ⟨_, _, _, _, null⟩ := ok_bind₂ null
        obtain rfl := pure_eq_ok.mp null
        simp [noTag]
      · obtain rfl := pure_eq_ok.mp null
        simp [noTag]

theorem foldl_count {α : Type} (p : α → Bool) (xs : List α) (start : Nat) :
    xs.foldl (fun count x => count + if p x then 1 else 0) start = start + xs.countP p := by
  induction xs generalizing start with
  | nil => rfl
  | cons x rest ih =>
    rw [foldl_cons, ih, countP_cons]
    omega

theorem scan_tagsAdded {tx : Transaction}
    (scanned : tx.vout.foldlM (scanOutput env fMempoolCheck fBlockCheck) .start = .ok scan) :
    scan.nCountAddTagOuts = tx.tagsAdded env := by
  have counted := foldlM_project OutputScan.nCountAddTagOuts
    (fun count out => count + if addsTag env out then 1 else 0) scanned
    fun acc out next _ step => (scanOutput_counts step).1
  rw [counted, foldl_count]
  exact Nat.zero_add _

end

section

variable {env : Env} {tx : Transaction}

/-- Some output pays the fee of `count` assets or tags. -/
def Transaction.PaysFee (env : Env) (tx : Transaction) (count : Nat) : Prop :=
  count = 0 ∨ coin / 10 * count ∈ tx.burnPayments env

theorem length_le_serializeSize (tx : Transaction) : tx.vout.length ≤ tx.serializeSize := by
  have each : tx.vout.length ≤ (tx.vout.map fun out => 8 + scriptSize out.scriptPubKey).sum := by
    induction tx.vout with
    | nil => simp
    | cons out rest ih =>
      simp only [length_cons, map_cons, sum_cons]
      omega
  unfold serializeSize
  omega

theorem mem_burnPayments (main : env.params = params) {out : TxOut}
    (member : out ∈ tx.vout) {amount : Int}
    (pays : paysToAddress env out amount burnAddress = true) : amount ∈ tx.burnPayments env := by
  simp only [paysToAddress, Bool.and_eq_true, decide_eq_true_eq] at pays
  obtain ⟨⟨value, valid⟩, address⟩ := pays
  refine mem_map.mpr ⟨out, mem_filter.mpr ⟨member, ?_⟩, value⟩
  have listed : burnAddress ∈ env.params.burnAddress.values := by
    rw [main]
    exact mem_cons_self
  simp [valid, address, listed]

theorem paysFee_of_hasIssueBurn (main : env.params = params) {type : AssetType}
    {count : Nat} (small : count ≤ maxBlockWeight) (burns : tx.hasIssueBurn env type count = true) :
    tx.PaysFee env count ∧ getBurnAmount env type = coin / 10 := by
  obtain ⟨out, member, pays⟩ := any_eq_true.mp burns
  unfold checkIssueBurnTx at pays
  split at pays
  · cases pays
  · rename_i taxed
    simp only [Bool.or_eq_true, decide_eq_true_eq, not_or] at taxed
    have amount : getBurnAmount env type = coin / 10 := by
      rw [getBurnAmount, main]
      cases type <;> simp_all [params, uniform, BurnTable.get]
    have address : getBurnAddress env type = burnAddress := by
      rw [getBurnAddress, main]
      cases type <;> simp_all [params, uniform, BurnTable.get]
    have word : wrap (63 + 1) (coin / 10 * count) = coin / 10 * count := by
      have fee : coin / 10 = 10000000 := by decide
      have bound : (count : Int) ≤ 4000000 := by exact_mod_cast small
      rw [fee]
      apply wrap_eq_self <;> omega
    rw [amount, address, word] at pays
    exact ⟨.inr (mem_burnPayments main member pays), amount⟩

theorem issueFees_eq {fee : Int} {vout : List TxOut}
    (each : ∀ out ∈ vout, isNewAssetScript out.scriptPubKey = true → issueFee env out = fee) :
    (vout.map (issueFee env)).sum = fee * countOutputs vout .newAsset false := by
  unfold countOutputs
  induction vout with
  | nil => simp
  | cons out rest ih =>
    have later := ih fun other member => each other (mem_cons_of_mem _ member)
    rw [map_cons, sum_cons, later, countP_cons]
    by_cases issues : isNewAssetScript out.scriptPubKey = true
    · have counted : (assetScriptOf .newAsset false out.scriptPubKey).isSome = true := issues
      rw [each out mem_cons_self issues, if_pos counted]
      push_cast
      ring
    · have none : assetFromScript env out.scriptPubKey = none := by
        refine Option.eq_none_iff_forall_not_mem.mpr fun ⟨asset, address⟩ read => issues ?_
        exact kind_of_read read
      have uncounted : ¬ (assetScriptOf .newAsset false out.scriptPubKey).isSome = true := issues
      rw [if_neg uncounted, issueFee, none]
      simp

variable (main : env.params = params)

include main

theorem feesOwed_eq (each : ∀ out ∈ tx.vout, isNewAssetScript out.scriptPubKey = true →
      issueFee env out = coin / 10) (reissues : countOutputs tx.vout .reissueAsset false ≤ 1) :
    tx.feesOwed env = coin / 10 * tx.assetsMinted + coin / 10 * tx.tagsAdded env := by
  have tagFee : getBurnAmount env .nullAddQualifier = coin / 10 := by
    rw [getBurnAmount, main]
    rfl
  have reissueFee : env.params.burnAmount.reissueAsset = coin / 10 := by
    rw [main]
    rfl
  rw [feesOwed, issueFees_eq each, tagFee, reissueFee, assetsMinted]
  have cases : countOutputs tx.vout .reissueAsset false = 0 ∨
      countOutputs tx.vout .reissueAsset false = 1 := by omega
  rcases cases with zero | one
  · rw [if_pos zero, zero]
    push_cast
    ring
  · rw [if_neg (by omega), one]
    push_cast
    ring

/-- The assets are paid for, and the fees are one tenth of a coin for each of them and for
each tag. -/
def PaysForMinted (env : Env) (tx : Transaction) : Prop :=
  tx.PaysFee env tx.assetsMinted ∧
    tx.feesOwed env = coin / 10 * tx.assetsMinted + coin / 10 * tx.tagsAdded env

theorem fees_of_singleIssue (single : SingleIssue env tx) : PaysForMinted env tx := by
  obtain ⟨asset, address, read, burns, one, zero⟩ := single
  obtain ⟨pays, fee⟩ := paysFee_of_hasIssueBurn main (by decide) burns
  have minted : tx.assetsMinted = 1 := by rw [assetsMinted, one, zero]
  refine ⟨minted ▸ pays, feesOwed_eq main ?_ (by omega)⟩
  intro out member issues
  have isLast := script_eq_lastScript one (kind_of_read read) member issues
  rw [issueFee, isLast, read]
  exact fee

theorem fees_of_unique
    (small : tx.vout.length ≤ maxBlockWeight) (passes : tx.verifyNewUniqueAsset env = .ok ()) :
    PaysForMinted env tx := by
  unfold verifyNewUniqueAsset at passes
  obtain ⟨_, _, scan, scanned, _, _, passes⟩ := ok_bind₃ passes
  obtain ⟨_, burns, _, _, counted⟩ := ok_bind₂ passes
  obtain ⟨_, length, _⟩ := foldlM_scanUnique scanned
  simp only [require_eq_ok, Bool.and_eq_true, decide_eq_true_eq] at burns counted
  obtain ⟨⟨_, noReissues⟩, issues⟩ := counted
  rw [length_nil, Nat.zero_add] at length
  have minted : tx.assetsMinted = scan.setUniqueAssets.length := by
    have reissues : countOutputs tx.vout .reissueAsset false = 0 := noReissues
    have issued : countOutputs tx.vout .newAsset false = scan.setUniqueAssets.length := issues
    rw [assetsMinted, reissues, issued, Nat.add_zero]
  have few : scan.setUniqueAssets.length ≤ maxBlockWeight := by
    rw [length]
    exact countP_le_length.trans small
  obtain ⟨pays, fee⟩ := paysFee_of_hasIssueBurn main few burns
  have reissues : countOutputs tx.vout .reissueAsset false ≤ 1 := le_of_eq_of_le noReissues (by decide)
  refine ⟨minted ▸ pays, feesOwed_eq main ?_ reissues⟩
  intro out member isNew
  have unique : isScriptNewUniqueAsset env out.scriptPubKey = true := by
    refine of_countP_eq (fun other isUnique => ?_) (issues.trans length) member isNew
    obtain ⟨_, _, readOther, _⟩ := isScriptNewUniqueAsset_iff.mp isUnique
    exact kind_of_read readOther
  obtain ⟨asset, address, read, valid⟩ := isScriptNewUniqueAsset_iff.mp unique
  rw [issueFee, read]
  dsimp only
  rw [assetNameType_of_valid valid, fee]

theorem fees_of_reissue (passes : tx.verifyReissueAsset env = .ok ()) :
    PaysForMinted env tx := by
  unfold verifyReissueAsset at passes
  obtain ⟨_, _, _, _, _, _, passes⟩ := ok_bind₃ passes
  obtain ⟨_, _, _, burns, counted⟩ := ok_bind₂ passes
  simp only [require_eq_ok, Bool.and_eq_true, decide_eq_true_eq] at burns counted
  obtain ⟨⟨_, one⟩, zero⟩ := counted
  have reissues : countOutputs tx.vout .reissueAsset false = 1 := one
  have issues : countOutputs tx.vout .newAsset false = 0 := zero
  have minted : tx.assetsMinted = 1 := by rw [assetsMinted, reissues, issues]
  obtain ⟨out, member, pays⟩ := any_eq_true.mp burns
  rw [checkReissueBurnTx, main] at pays
  refine ⟨.inr ?_, feesOwed_eq main ?_ (by omega)⟩
  · have paid := mem_burnPayments main member pays
    rw [minted]
    simpa [params, uniform] using paid
  · exact fun other inOutputs isNew => absurd issues (countOutputs_ne_zero inOutputs isNew)

theorem fees_of_plain (passes : (forM tx.vout checkPlainOutput : Check Unit) = .ok ()) :
    PaysForMinted env tx := by
  have transfers : ∀ out ∈ tx.vout, ∀ nType n, assetScriptOf nType false out.scriptPubKey = some n →
      nType = .transferAsset := by
    intro out member nType n found
    have checked := forM_eq_ok.mp passes out member
    simpa [checkPlainOutput, assetScriptOf_eq_some.mp found] using checked
  have uncounted : ∀ nType, nType ≠ .transferAsset → countOutputs tx.vout nType false = 0 := by
    intro nType other
    rw [countOutputs, countP_eq_zero]
    intro out member found
    obtain ⟨n, kind⟩ := Option.isSome_iff_exists.mp found
    exact other (transfers out member nType n kind)
  have reissues := uncounted .reissueAsset (by decide)
  have issues := uncounted .newAsset (by decide)
  refine ⟨.inl (by rw [assetsMinted, reissues, issues]),
    feesOwed_eq main ?_ (by omega)⟩
  exact fun out member isNew => absurd issues (countOutputs_ne_zero member isNew)

theorem fees_of_kind (small : tx.vout.length ≤ maxBlockWeight) {use : RestrictedUse}
    (kind : checkTransactionKind env tx = .ok use) : PaysForMinted env tx := by
  have branch := checkTransactionKind_ok kind
  cases kindEq : tx.kind env <;> simp only [kindEq] at branch
  case issue => exact fees_of_singleIssue main (verifyNewAsset_ok branch.1).1
  case reissue => exact fees_of_reissue main branch.1
  case unique => exact fees_of_unique main small branch.1
  case msgChannel =>
    exact fees_of_singleIssue main (verifyNewMsgChannelAsset_ok branch.1).1
  case qualifier =>
    exact fees_of_singleIssue main (verifyNewQualfierAsset_ok branch.1).1
  case restricted =>
    exact fees_of_singleIssue main (verifyNewRestrictedAsset_ok branch.1).1
  case plain => exact fees_of_plain main branch.1

end

theorem add_le_sum {payments : List Int} (nonneg : ∀ v ∈ payments, 0 ≤ v) {a b : Int}
    (aIn : a ∈ payments) (bIn : b ∈ payments) (differ : a ≠ b) : a + b ≤ payments.sum := by
  have bLeft : b ∈ payments.erase a := (mem_erase_of_ne differ.symm).mpr bIn
  have split := sum_erase aIn
  have single := single_le_sum (fun v member => nonneg v (mem_of_mem_erase member)) b bLeft
  omega

theorem two_fees_le_sum_iff {payments : List Int} (nonneg : ∀ v ∈ payments, 0 ≤ v) {fee : Int}
    (positive : 0 < fee) {minted tags : Nat} (mintFee : minted = 0 ∨ fee * minted ∈ payments)
    (tagFee : tags = 0 ∨ fee * tags ∈ payments) : fee * minted + fee * tags ≤ payments.sum ↔
      tags = 0 ∨ minted = 0 ∨ tags ≠ minted ∨ fee * tags ≤ (payments.erase (fee * tags)).sum := by
  have total : 0 ≤ payments.sum := sum_nonneg nonneg
  have mintBound : fee * minted ≤ payments.sum := by
    rcases mintFee with rfl | paid
    · simpa using total
    · exact single_le_sum nonneg _ paid
  have tagBound : fee * tags ≤ payments.sum := by
    rcases tagFee with rfl | paid
    · simpa using total
    · exact single_le_sum nonneg _ paid
  constructor
  · intro paid
    rcases tagFee with zero | tagsPaid
    · exact .inl zero
    · by_cases same : tags = minted
      · subst same
        have split := sum_erase tagsPaid
        exact .inr (.inr (.inr (by omega)))
      · exact .inr (.inr (.inl same))
  · intro separate
    rcases tagFee with rfl | tagsPaid
    · simpa using mintBound
    rcases mintFee with rfl | mintPaid
    · simpa using tagBound
    by_cases same : tags = minted
    · -- one output can have passed both scans
      subst same
      have split := sum_erase tagsPaid
      rcases separate with rfl | rfl | differ | rest
      · simpa using total
      · simpa using total
      · exact absurd rfl differ
      · omega
    · apply add_le_sum nonneg mintPaid tagsPaid
      intro equal
      have cancelled := mul_left_cancel₀ positive.ne' equal
      exact same (by exact_mod_cast cancelled.symm)

/-- The fee output of the tags is not also the one of the assets: there are no
tags, no assets, or not the same number of both, or the other payments to the
burn address come to the fee once more. -/
def SeparateFees (env : Env) (tx : Transaction) : Prop :=
  tx.tagsAdded env = 0 ∨ tx.assetsMinted = 0 ∨ tx.tagsAdded env ≠ tx.assetsMinted ∨
    coin / 10 * tx.tagsAdded env ≤
      ((tx.burnPayments env).erase (coin / 10 * tx.tagsAdded env)).sum

/-- An accepted transaction of the main network pays the sum of its fees exactly
when the two scans have not found the same output. -/
theorem burn_fees_additive_iff (env : Env) (main : env.params = params) (tx : Transaction)
    (fCheckDuplicateInputs fMempoolCheck fBlockCheck : Bool)
    (checked : checkTransaction env tx fCheckDuplicateInputs fMempoolCheck fBlockCheck = .ok ()) :
    tx.feesOwed env ≤ (tx.burnPayments env).sum ↔ SeparateFees env tx := by
  obtain ⟨scan, use, stages⟩ := checkTransaction_ok checked
  have small : tx.vout.length ≤ maxBlockWeight := by
    have := length_le_serializeSize tx
    have fits := stages.size
    simp only [witnessScaleFactor] at fits
    omega
  have nonneg : ∀ v ∈ tx.burnPayments env, 0 ≤ v := by
    intro v member
    obtain ⟨out, kept, rfl⟩ := mem_map.mp member
    obtain ⟨_, _, step⟩ := foldlM_visits stages.scanned (mem_of_mem_filter kept)
    exact (scanOutput_counts step).2
  have tagFee : tx.PaysFee env (tx.tagsAdded env) := by
    have tagBurn := stages.tagBurn
    rw [scan_tagsAdded stages.scanned] at tagBurn
    rcases tagBurn with zero | burns
    · exact .inl zero
    · exact (paysFee_of_hasIssueBurn main (countP_le_length.trans small) burns).1
  obtain ⟨mintFee, owed⟩ := fees_of_kind main small stages.kind
  rw [owed]
  exact two_fees_le_sum_iff nonneg (by decide) mintFee tagFee

namespace Burns

/-- Issues a qualifier and tags Bob with another, with one payment of one fee. -/
def issueAndTag (payments : List TxOut) : Transaction :=
  transaction 8 [⟨7, 0⟩, ⟨7, 1⟩]
    (payments ++ [transfer NullAssets.tagName coin, tag NullAssets.tagName 1 bob,
      issue ⟨ascii "#NEW", coin, 0, 0, 0, []⟩])

def feeOutput : TxOut := pay (coin / 10) burnKey

end Burns

open Burns

/-- With a fee output each the fees are paid. -/
theorem burn_fees_additive_iff_two : (issueAndTag [feeOutput, feeOutput]).feesOwed env ≤
      ((issueAndTag [feeOutput, feeOutput]).burnPayments env).sum :=
  (burn_fees_additive_iff env rfl (issueAndTag [feeOutput, feeOutput]) true true false
    (by decide +kernel)).mpr (.inr (.inr (.inr (by decide +kernel))))

/-- One fee output passes both scans. -/
theorem one_output_pays_two_fees :
    checkTransaction env (issueAndTag [feeOutput]) true true false = .ok () ∧
      (issueAndTag [feeOutput]).feesOwed env = coin / 5 ∧
      ((issueAndTag [feeOutput]).burnPayments env).sum = coin / 10 := by
  decide +kernel

end Phicoin
