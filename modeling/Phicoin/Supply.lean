import Phicoin.Layers
import Phicoin.Lib.Runs
import Phicoin.MainNet

/-! # Supply and metadata of recorded assets

Runs of accepted issuances and reissues on one cache over an empty asset state.
A recorded asset stays valid along every run whose reissues keep the exact
supply below `2 ^ 63` and set the reissuable field to a flag; the check of the
supply against `MAX_MONEY` adds in 64 bits and is no use beyond that. -/

namespace Phicoin

open Check TwosComplement KeyedMap Bool AssetsCache NewAsset

/-- An issuance, or a reissue with the transaction it was taken from, if any. -/
inductive SupplyOp where
  | issue (asset : NewAsset) (address : Bytes) (nHeight : Int) (blockHash : Uint256)
  | reissue (reissue : ReissueAsset) (tx : Option Transaction) (address : Bytes) (out : OutPoint)

/-- `ContextualCheckReissueAsset`, in the overload the caller selects. -/
def checkReissueOverload (env : Env) (global : AssetState) (cache : AssetsCache)
    (reissue : ReissueAsset) : Option Transaction → Check Unit
  | some tx => contextualCheckReissueAssetTx env global cache reissue tx
  | none => contextualCheckReissueAsset env global cache reissue

def applySupply (env : Env) (mempool : MempoolMaps) (cache : AssetsCache) :
    SupplyOp → Option AssetsCache
  | .issue asset address nHeight blockHash =>
    if (contextualCheckNewAsset env .initial cache mempool asset false).passed then
      cache.addNewAsset env .initial asset address nHeight blockHash
    else none
  | .reissue reissue tx address out =>
    if (checkReissueOverload env .initial cache reissue tx).passed then
      cache.addReissueAsset env .initial reissue address out
    else none

def recorded (cache : AssetsCache) (name : Bytes) : Option NewAsset :=
  cache.getAssetMetaDataIfExists .initial name

structure ValidRecord (asset : NewAsset) : Prop where
  positive : 0 < asset.nAmount
  bounded : asset.nAmount ≤ maxMoney
  unitsNonneg : 0 ≤ asset.units
  unitsBounded : asset.units ≤ 8
  divisible : (10 ^ (8 - asset.units).toNat : Int) ∣ asset.nAmount
  reissuable : asset.nReissuable = 0 ∨ asset.nReissuable = 1

theorem checkAmountWithUnits_iff {nAmount nUnits : Int} :
    checkAmountWithUnits nAmount nUnits = true ↔ (10 ^ (8 - nUnits).toNat : Int) ∣ nAmount := by
  rw [checkAmountWithUnits, decide_eq_true_eq, Int.dvd_iff_emod_eq_zero]

theorem checkNewAsset_valid {asset : NewAsset} (passes : checkNewAsset asset = .ok ()) :
    ValidRecord asset := by
  unfold checkNewAsset at passes
  obtain ⟨_, _, _, _, _, _, passes⟩ := ok_bind₃ passes
  obtain ⟨_, _, _, positive, _, bounded, passes⟩ := ok_bind₃ passes
  obtain ⟨_, units, _, divisible, _, reissuable, _⟩ := ok_bind₃ passes
  simp only [require_eq_ok, decide_eq_true_eq, and_eq_true, or_eq_true]
    at positive bounded units divisible reissuable
  exact ⟨positive, bounded, units.1, units.2, checkAmountWithUnits_iff.mp divisible, reissuable⟩

/-- What an accepted reissue satisfies against the record before it. -/
structure ReissueFits (env : Env) (prev : NewAsset) (reissue : ReissueAsset) : Prop where
  nonneg : 0 ≤ reissue.nAmount
  small : reissue.nAmount < maxMoney
  unitsLower : -1 ≤ reissue.nUnits
  unitsUpper : reissue.nUnits ≤ 8
  flag : grandfathered env reissue = true ∨ reissue.nReissuable = 0 ∨ reissue.nReissuable = 1
  total : addAmount prev.nAmount reissue.nAmount ≤ maxMoney
  divisible : (10 ^ (8 - prev.units).toNat : Int) ∣ reissue.nAmount
  unitsGrow : prev.units ≤ reissue.nUnits ∨ reissue.nUnits = -1

variable {env : Env} {prev : NewAsset}

theorem reissueFits_of_checks {reissue : ReissueAsset}
    (form : checkReissueAsset env reissue = .ok ())
    (amounts : checkReissueAmounts prev reissue = .ok ()) : ReissueFits env prev reissue := by
  obtain ⟨_, amount, _, units, flag⟩ := ok_bind₂ form
  obtain ⟨_, total, _, divisible, grow⟩ := ok_bind₂ amounts
  simp only [require_eq_ok, decide_eq_true_eq, and_eq_true, or_eq_true]
    at amount units flag total divisible grow
  exact ⟨amount.1, amount.2, units.1, units.2, or_assoc.mp flag, total,
    checkAmountWithUnits_iff.mp divisible, grow⟩

variable {cache : AssetsCache}

theorem checkReissueOverload_ok {global : AssetState}
    {reissue : ReissueAsset} {tx : Option Transaction}
    (passes : checkReissueOverload env global cache reissue tx = .ok ()) :
    ∃ prev, cache.getAssetMetaDataIfExists global reissue.strName = some prev ∧
      ReissueFits env prev reissue := by
  cases tx with
  | some tx =>
    obtain ⟨_, _, ⟨⟩, form, prev, found, passes⟩ := ok_bind₃ passes
    obtain ⟨_, _, ⟨⟩, amounts, _⟩ := ok_bind₂ passes
    exact ⟨prev, require?_eq_ok.mp found, reissueFits_of_checks form amounts⟩
  | none =>
    obtain ⟨⟨⟩, form, prev, found, _, _, passes⟩ := ok_bind₃ passes
    obtain ⟨⟨⟩, amounts, _⟩ := bind_eq_ok.mp passes
    exact ⟨prev, require?_eq_ok.mp found, reissueFits_of_checks form amounts⟩

section

variable {reissue : ReissueAsset} (valid : ValidRecord prev) (fits : ReissueFits env prev reissue)
  (noOverflow : prev.nAmount + reissue.nAmount < 2 ^ 63)

include valid fits noOverflow

theorem addAmount_exact :
    addAmount prev.nAmount reissue.nAmount = prev.nAmount + reissue.nAmount := by
  have positive := valid.positive
  have nonneg := fits.nonneg
  apply wrap_eq_self <;> omega

theorem ValidRecord.applyReissue (plain : grandfathered env reissue = false) :
    ValidRecord (prev.applyReissue reissue) ∧ prev.units ≤ (prev.applyReissue reissue).units ∧
      prev.nAmount + reissue.nAmount ≤ maxMoney := by
  have sum := addAmount_exact valid fits noOverflow
  have total := fits.total
  rw [sum] at total
  have grows : prev.units ≤ (prev.applyReissue reissue).units := by
    have unitsGrow := fits.unitsGrow
    simp only [NewAsset.applyReissue]
    split
    · omega
    · exact le_refl _
  have high : (prev.applyReissue reissue).units ≤ 8 := by
    have upper := fits.unitsUpper
    have bounded := valid.unitsBounded
    simp only [NewAsset.applyReissue]
    split <;> omega
  refine ⟨⟨?_, ?_, ?_, high, ?_, ?_⟩, grows, total⟩
  · have positive := valid.positive
    have nonneg := fits.nonneg
    simp only [NewAsset.applyReissue, sum]
    omega
  · simpa only [NewAsset.applyReissue, sum] using total
  · exact le_trans valid.unitsNonneg grows
  · -- finer units divide what the coarser ones divided
    have finer : (10 ^ (8 - (prev.applyReissue reissue).units).toNat : Int) ∣
        10 ^ (8 - prev.units).toNat := by
      apply pow_dvd_pow
      omega
    have divides := Int.dvd_add (dvd_trans finer valid.divisible) (dvd_trans finer fits.divisible)
    simpa only [NewAsset.applyReissue, sum] using divides
  · rcases fits.flag with exempt | flag
    · rw [plain] at exempt
      cases exempt
    · exact flag

end

/-- The reissues the theorem covers: the exact supply after them is a word, and
they are not one of the two exempt reissues of the test network. -/
def supplyAllowed (env : Env) (cache : AssetsCache) : SupplyOp → Bool
  | .issue _ _ _ _ => true
  | .reissue reissue _ _ _ =>
    !grandfathered env reissue &&
      match recorded cache reissue.strName with
      | some prev => prev.nAmount + reissue.nAmount < 2 ^ 63
      | none => true

structure SupplyInv (cache : AssetsCache) : Prop where
  noneRemoved : ∀ name, cache.setNewAssetsToRemove.lookup name = none
  issued : ∀ name entry, cache.setNewAssetsToAdd.lookup name = some entry → ValidRecord entry.asset
  reissued : ∀ name asset, cache.mapReissuedAssetData.lookup name = some asset → ValidRecord asset

theorem recorded_eq
    (noneRemoved : ∀ name, cache.setNewAssetsToRemove.lookup name = none) (name : Bytes) :
    recorded cache name = (cache.mapReissuedAssetData.lookup name).or
      ((cache.setNewAssetsToAdd.lookup name).map CachedNewAsset.asset) := by
  simp only [recorded, getAssetMetaDataIfExists, getAssetMetaData,
    noneRemoved name]
  cases cache.mapReissuedAssetData.lookup name with
  | some asset => rfl
  | none =>
    cases cache.setNewAssetsToAdd.lookup name with
    | some entry => rfl
    | none => rfl

theorem SupplyInv.valid (inv : SupplyInv cache) {name : Bytes}
    {asset : NewAsset} (found : recorded cache name = some asset) : ValidRecord asset := by
  rw [recorded_eq inv.noneRemoved, Option.or_eq_some_iff] at found
  rcases found with reissued | ⟨_, issued⟩
  · exact inv.reissued name asset reissued
  · obtain ⟨entry, inSet, rfl⟩ := Option.map_eq_some_iff.mp issued
    exact inv.issued name entry inSet

theorem applySupply_cases {mempool : MempoolMaps} {next : AssetsCache}
    {op : SupplyOp} (steps : applySupply env mempool cache op = some next) :
    (∃ asset address nHeight blockHash, op = .issue asset address nHeight blockHash ∧
        ValidRecord asset ∧ cache.checkIfAssetExists env .initial asset.strName = false ∧
        next.records = { cache.records with
          removed := cache.setNewAssetsToRemove.erase asset.strName
          added := insertNew asset.strName ⟨asset, address, nHeight, blockHash⟩
            cache.setNewAssetsToAdd }) ∨
      (∃ reissue tx address out prev, op = .reissue reissue tx address out ∧
        recorded cache reissue.strName = some prev ∧ ReissueFits env prev reissue ∧
        next.records = { cache.records with
          reissued := cache.mapReissuedAssetData.insert reissue.strName
            (prev.applyReissue reissue) }) := by
  cases op with
  | issue asset address nHeight blockHash =>
    simp only [applySupply] at steps
    split at steps
    · rename_i accepted
      obtain ⟨⟨⟩, passes⟩ := passed_iff.mp accepted
      obtain ⟨_, _, ⟨⟩, form, _⟩ := ok_bind₂ passes
      obtain ⟨absent, records, _⟩ := addNewAsset_eq_some steps
      exact .inl ⟨asset, address, nHeight, blockHash, rfl, checkNewAsset_valid form, absent,
        records⟩
    · cases steps
  | reissue reissue tx address out =>
    simp only [applySupply] at steps
    split at steps
    · rename_i accepted
      obtain ⟨⟨⟩, passes⟩ := passed_iff.mp accepted
      obtain ⟨prev, found, fits⟩ := checkReissueOverload_ok passes
      obtain ⟨same, foundAgain, records, _⟩ := addReissueAsset_eq_some steps
      obtain rfl : same = prev := Option.some.inj (foundAgain.symm.trans found)
      exact .inr ⟨reissue, tx, address, out, same, rfl, found, fits, records⟩
    · cases steps

/-- Every record of the first cache is one of the second, with at least its units. -/
def UnitsGrow (cache later : AssetsCache) : Prop :=
  ∀ name asset, recorded cache name = some asset →
    ∃ asset', recorded later name = some asset' ∧ asset.units ≤ asset'.units

theorem SupplyInv.step {mempool : MempoolMaps} {next : AssetsCache}
    {op : SupplyOp} (inv : SupplyInv cache) (may : supplyAllowed env cache op = true)
    (steps : applySupply env mempool cache op = some next) :
    SupplyInv next ∧ UnitsGrow cache next := by
  rcases applySupply_cases steps with
    ⟨asset, address, nHeight, blockHash, rfl, valid, absent, records⟩ |
    ⟨reissue, tx, address, out, prev, rfl, found, fits, records⟩
  · obtain ⟨removedEq, addedEq, reissuedEq⟩ := sets_of_issue records
    have noneRemoved : ∀ name, next.setNewAssetsToRemove.lookup name = none := by
      intro name
      rw [removedEq, lookup_erase_ite, inv.noneRemoved name, ite_self]
    refine ⟨⟨noneRemoved, ?_, ?_⟩, ?_⟩
    · intro name entry inSet
      rw [addedEq] at inSet
      rcases lookup_of_insertNew inSet with before | ⟨_, rfl⟩
      · exact inv.issued name entry before
      · exact valid
    · intro name record inMap
      rw [reissuedEq] at inMap
      exact inv.reissued name record inMap
    · -- a record that was there is kept by `insertNew`
      intro name record found
      refine ⟨record, ?_, le_refl _⟩
      rw [recorded_eq inv.noneRemoved, Option.or_eq_some_iff] at found
      rw [recorded_eq noneRemoved, reissuedEq, addedEq, Option.or_eq_some_iff]
      rcases found with reissued | ⟨notReissued, issued⟩
      · exact .inl reissued
      · refine .inr ⟨notReissued, ?_⟩
        obtain ⟨entry, inSet, rfl⟩ := Option.map_eq_some_iff.mp issued
        rw [lookup_insertNew]
        by_cases same : name = asset.strName
        · subst same
          rw [if_pos rfl, inSet]
          rfl
        · rw [if_neg same, inSet]
          rfl
  · obtain ⟨removedEq, addedEq, reissuedEq⟩ := sets_of_reissue records
    simp only [supplyAllowed, found, Bool.and_eq_true, Bool.not_eq_true', decide_eq_true_eq] at may
    obtain ⟨valid, grows, _⟩ := (inv.valid found).applyReissue fits may.2 may.1
    have noneRemoved : ∀ name, next.setNewAssetsToRemove.lookup name = none := by
      rw [removedEq]
      exact inv.noneRemoved
    refine ⟨⟨noneRemoved, ?_, ?_⟩, ?_⟩
    · rw [addedEq]
      exact inv.issued
    · intro name record inMap
      rw [reissuedEq, lookup_insert_ite] at inMap
      by_cases same : name = reissue.strName
      · rw [if_pos same] at inMap
        cases inMap
        exact valid
      · rw [if_neg same] at inMap
        exact inv.reissued name record inMap
    · intro name record before
      rw [recorded_eq noneRemoved, reissuedEq, addedEq, lookup_insert_ite]
      by_cases same : name = reissue.strName
      · subst same
        obtain rfl : prev = record := Option.some.inj (found.symm.trans before)
        exact ⟨prev.applyReissue reissue, by rw [if_pos rfl]; rfl, grows⟩
      · rw [recorded_eq inv.noneRemoved] at before
        exact ⟨record, by rw [if_neg same]; exact before, le_refl _⟩

theorem supplyInv_empty : SupplyInv empty := by
  refine ⟨fun _ => rfl, ?_, ?_⟩
  · intro name entry inSet
    cases inSet
  · intro name asset inMap
    cases inMap

theorem UnitsGrow.trans {a b c : AssetsCache} (first : UnitsGrow a b) (second : UnitsGrow b c) :
    UnitsGrow a c := by
  intro name asset found
  obtain ⟨middle, inMiddle, grows⟩ := first name asset found
  obtain ⟨final, inFinal, growsOn⟩ := second name middle inMiddle
  exact ⟨final, inFinal, le_trans grows growsOn⟩

/-- Along every run of allowed operations from an empty asset state the records
are valid, their units only grow, and the exact supply stays within bounds. -/
theorem supply_invariant (env : Env) (mempool : MempoolMaps) (cache : AssetsCache)
    (run : Runs.Run (applySupply env mempool) (supplyAllowed env) AssetsCache.empty cache) :
    (∀ name asset, recorded cache name = some asset → ValidRecord asset) ∧
      (∀ later, Runs.Run (applySupply env mempool) (supplyAllowed env) cache later →
        UnitsGrow cache later) ∧ (∀ reissue tx address out next prev,
        supplyAllowed env cache (.reissue reissue tx address out) = true →
        applySupply env mempool cache (.reissue reissue tx address out) = some next →
        recorded cache reissue.strName = some prev → prev.nAmount + reissue.nAmount ≤ maxMoney ∧
            addAmount prev.nAmount reissue.nAmount = prev.nAmount + reissue.nAmount) := by
  have inv : SupplyInv cache := run.invariant SupplyInv supplyInv_empty
    fun _ _ _ holds may steps => (holds.step may steps).1
  refine ⟨fun _ _ found => inv.valid found, ?_, ?_⟩
  · intro later rest
    have both : SupplyInv later ∧ UnitsGrow cache later := by
      apply rest.invariant (fun c => SupplyInv c ∧ UnitsGrow cache c)
      · exact ⟨inv, fun name asset found => ⟨asset, found, le_refl _⟩⟩
      · intro s op s' holds may steps
        obtain ⟨inv', grows⟩ := holds.1.step may steps
        exact ⟨inv', holds.2.trans grows⟩
    exact both.2
  · intro reissue tx address out next prev may steps found
    rcases applySupply_cases steps with ⟨_, _, _, _, isIssue, _⟩ |
      ⟨_, _, _, _, same, isReissue, foundAgain, fits, _⟩
    · cases isIssue
    · cases isReissue
      obtain rfl : prev = same := Option.some.inj (found.symm.trans foundAgain)
      simp only [supplyAllowed, found, and_eq_true, not_eq_true', decide_eq_true_eq] at may
      have valid := inv.valid found
      exact ⟨(valid.applyReissue fits may.2 may.1).2.2, addAmount_exact valid fits may.2⟩

namespace Supply

def issue (name : Bytes) (amount units : Int) : SupplyOp :=
  .issue ⟨name, amount, units, 1, 0, []⟩ [] 1 1

def reissueTx (reissue : ReissueAsset) : Transaction where
  vin := []
  vout := [⟨0, reissue.constructTransaction (payToPublicKeyHash MainNet.alice)⟩]
  nVersion := 2
  nLockTime := 0
  hash := 9

def reissue (name : Bytes) (amount units : Int) : SupplyOp :=
  let record : ReissueAsset := ⟨name, amount, units, 1, []⟩
  .reissue record (some (reissueTx record)) [] ⟨9, 0⟩

def token : Bytes := ascii "TOKEN"

def testEnv : Env := { MainNet.env with params := { MainNet.params with network := .test } }

def after (allowed : AssetsCache → SupplyOp → Bool) (ops : List SupplyOp) : Option AssetsCache :=
  Runs.execute (applySupply MainNet.env .empty) allowed AssetsCache.empty ops

def grow : List SupplyOp := [issue token 500 6, reissue token 300 7]

def overflow : List SupplyOp := [issue token maxMoney 0, reissue token (maxMoney - coin) 0]

def exempt : List SupplyOp :=
  [issue (ascii "GAMINGWEB") coin 0,
   .reissue ⟨ascii "GAMINGWEB", 0, -1, 109, []⟩ none [] ⟨9, 0⟩]

end Supply

open Supply

/-- An issuance of 500 and a reissue of 300 with finer units. -/
theorem supply_invariant_grow :
    ∃ cache, Runs.Run (applySupply MainNet.env .empty) (supplyAllowed MainNet.env) .empty cache ∧
      (recorded cache token).map NewAsset.nAmount = some 800 ∧
      ∀ name asset, recorded cache name = some asset → ValidRecord asset := by
  have observed : (after (supplyAllowed MainNet.env) grow).bind
      (fun c => (recorded c token).map nAmount) = some 800 := by decide +kernel
  obtain ⟨cache, run, supply⟩ := Runs.exists_run_of_execute observed
  exact ⟨cache, run, supply, (supply_invariant MainNet.env .empty cache run).1⟩

/-- On the test network a recorded asset can have the reissuable field 109; on
every network a reissue can make the recorded supply negative. -/
theorem supply_invariant_fails :
    (∃ cache, Runs.Run (applySupply testEnv .empty) (fun _ _ => true) .empty cache ∧
        (recorded cache (ascii "GAMINGWEB")).map NewAsset.nReissuable = some 109) ∧
      ∃ cache, Runs.Run (applySupply MainNet.env .empty) (fun _ _ => true) .empty cache ∧
        (recorded cache token).map NewAsset.nAmount = some (2 * maxMoney - coin - 2 ^ 64) := by
  have flag : (Runs.execute (applySupply testEnv .empty) (fun _ _ => true) .empty exempt).bind
      (fun c => (recorded c (ascii "GAMINGWEB")).map nReissuable) = some 109 := by
    decide +kernel
  have supply : (after (fun _ _ => true) overflow).bind
      (fun c => (recorded c token).map nAmount) =
        some (2 * maxMoney - coin - 2 ^ 64) := by
    decide +kernel
  exact ⟨Runs.exists_run_of_execute flag, Runs.exists_run_of_execute supply⟩

end Phicoin
