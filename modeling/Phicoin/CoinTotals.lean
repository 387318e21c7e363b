import Phicoin.CoinSupply
import Phicoin.NullAssets

/-! # Overflow in the totals of coins

Four loops add amounts in a 64-bit word and compare the new total with the money
range before they go on.  Twice the limit does not fit the word, so the addition
that ends a loop may overflow, which has no defined result; all before it are exact. -/

namespace Phicoin

open Check TwosComplement List Transaction

theorem fits_of_moneyRange {value : Int} (range : moneyRange value = true) : Fits 64 value := by
  rw [moneyRange_iff] at range
  unfold maxMoney coin at range
  exact wrap_eq_self (v := 63) (by omega) (by omega)

theorem moneyRange_add {x y : Int} (first : moneyRange x = true) (second : moneyRange y = true)
    (most : x + y ≤ maxMoney) : moneyRange (x + y) = true := by
  rw [moneyRange_iff] at first second
  exact moneyRange_iff.mpr ⟨by omega, most⟩

theorem moneyRange_addAmount_iff {x y next : Int} (first : moneyRange x = true)
    (second : moneyRange y = true) :
    moneyRange (addAmount x y) = true ∧ addAmount x y = next ↔ next = x + y ∧ next ≤ maxMoney := by
  constructor
  · rintro ⟨range, rfl⟩
    exact ⟨addAmount_eq first second range, (moneyRange_iff.mp range).2⟩
  · rintro ⟨rfl, most⟩
    have range := moneyRange_add first second most
    have same : addAmount x y = x + y := fits_of_moneyRange range
    exact ⟨same ▸ range, same⟩

section Loops

variable {α σ : Type}

/-- No addition leaves the word, and what is accepted is in the money range. -/
structure Sound (adds : Int → Int → Prop) (accepted : Int → Prop) : Prop where
  fits : ∀ x y, adds x y → Fits 64 (x + y)
  range : ∀ total, accepted total → moneyRange total = true

/-- A loop that adds a value of each item, and passes when all the values and totals are in
the money range. -/
def Adding (passes : α → Prop) (value : α → Int) (f : Int → α → Check Int) : Prop :=
  ∀ total item next, moneyRange total = true → (f total item = .ok next ↔
    passes item ∧ moneyRange (value item) = true ∧ next = total + value item ∧ next ≤ maxMoney)

variable {passes : α → Prop} {value : α → Int} {f : Int → α → Check Int}

theorem sum_values_nonneg {items : List α}
    (range : ∀ item ∈ items, moneyRange (value item) = true) : 0 ≤ (items.map value).sum := by
  induction items with
  | nil => exact Int.le_refl 0
  | cons item rest ih =>
    rw [forall_mem_cons] at range
    rw [map_cons, sum_cons]
    exact Int.add_nonneg (moneyRange_iff.mp range.1).1 (ih range.2)

theorem Adding.foldlM_eq_ok (adding : Adding passes value f) (items : List α) {start total : Int}
    (range : moneyRange start = true) : items.foldlM f start = .ok total ↔
      (∀ item ∈ items, passes item ∧ moneyRange (value item) = true) ∧
        total = start + (items.map value).sum ∧ total ≤ maxMoney := by
  induction items generalizing start with
  | nil =>
    have most := (moneyRange_iff.mp range).2
    simp only [foldlM_nil, pure_eq_ok, not_mem_nil, false_imp_iff, implies_true, map_nil, sum_nil,
      add_zero, true_and]
    constructor
    · rintro rfl
      exact ⟨rfl, most⟩
    · rintro ⟨rfl, _⟩
      rfl
  | cons item rest ih =>
    rw [foldlM_cons_eq_ok, forall_mem_cons, map_cons, sum_cons]
    constructor
    · rintro ⟨next, step, later⟩
      obtain ⟨pass, valueRange, rfl, most⟩ := (adding _ _ _ range).mp step
      have nextRange := moneyRange_add range valueRange most
      obtain ⟨all, rfl, bound⟩ := (ih nextRange).mp later
      exact ⟨⟨⟨pass, valueRange⟩, all⟩, by omega, bound⟩
    · rintro ⟨⟨⟨pass, valueRange⟩, all⟩, rfl, bound⟩
      have positive := sum_values_nonneg fun later member => (all later member).2
      have most : start + value item ≤ maxMoney := by omega
      have nextRange := moneyRange_add range valueRange most
      exact ⟨_, (adding _ _ _ range).mpr ⟨pass, valueRange, rfl, most⟩,
        (ih nextRange).mpr ⟨all, by omega, bound⟩⟩

end Loops

section Outputs

variable {env : Env} {fMempoolCheck fBlockCheck : Bool} {scan next : OutputScan} {out : TxOut}

/-- What `CheckTransaction` checks of an output besides its value. -/
def scanAssets (env : Env) (fMempoolCheck fBlockCheck : Bool) (scan : OutputScan) (out : TxOut) :
    Check OutputScan := do
  let nulls ← scanNullAsset env scan out
  scanAsset env fMempoolCheck fBlockCheck nulls out

def OutputScan.withValue (scan : OutputScan) (nValueOut : Int) : OutputScan :=
  { scan with nValueOut := nValueOut }

theorem map_bind_check {α β γ : Type} (check : Check α) (next : α → Check β) (f : β → γ) :
    (check >>= next).map f = check >>= fun a => (next a).map f := by
  cases check <;> rfl

theorem scanNullAsset_withValue (value : Int) :
    scanNullAsset env (scan.withValue value) out =
      (scanNullAsset env scan out).map (·.withValue value) := by
  unfold scanNullAsset
  split_ifs
  · simp only [map_bind_check]
    rfl
  · simp only [map_bind_check]
    rfl
  · simp only [map_bind_check]
    rfl
  · rfl

theorem scanAsset_withValue (value : Int) :
    scanAsset env fMempoolCheck fBlockCheck (scan.withValue value) out =
      (scanAsset env fMempoolCheck fBlockCheck scan out).map (·.withValue value) := by
  unfold scanAsset
  split
  · rfl
  · unfold scanTransfer
    split
    · simp only [map_bind_check]
      rfl
    · rw [map_bind_check]
      rfl
    · simp only [map_bind_check]
      rfl
    · rfl

theorem scanAssets_withValue (value : Int) :
    scanAssets env fMempoolCheck fBlockCheck (scan.withValue value) out =
      (scanAssets env fMempoolCheck fBlockCheck scan out).map (·.withValue value) := by
  unfold scanAssets
  rw [scanNullAsset_withValue, map_bind_check]
  cases scanNullAsset env scan out with
  | error reason => rfl
  | ok nulls => exact scanAsset_withValue value

theorem scanValue_eq_ok (range : moneyRange scan.nValueOut = true) :
    scanValue scan out = .ok next ↔ moneyRange out.nValue = true ∧
      scan.nValueOut + out.nValue ≤ maxMoney ∧
        next = scan.withValue (scan.nValueOut + out.nValue) := by
  unfold scanValue
  simp only [bind_eq_ok, require_eq_ok, decide_eq_true_eq, exists_const, pure_eq_ok]
  constructor
  · rintro ⟨least, most, total, rfl⟩
    have outRange := moneyRange_iff.mpr ⟨least, most⟩
    obtain ⟨same, bound⟩ := (moneyRange_addAmount_iff range outRange).mp ⟨total, rfl⟩
    exact ⟨outRange, same ▸ bound, by rw [same]; rfl⟩
  · rintro ⟨outRange, bound, rfl⟩
    obtain ⟨total, same⟩ := (moneyRange_addAmount_iff range outRange).mpr ⟨rfl, bound⟩
    obtain ⟨least, most⟩ := moneyRange_iff.mp outRange
    exact ⟨least, most, total, by rw [same]; rfl⟩

theorem scanOutput_eq_ok (range : moneyRange scan.nValueOut = true) :
    scanOutput env fMempoolCheck fBlockCheck scan out = .ok next ↔
      moneyRange out.nValue = true ∧ scan.nValueOut + out.nValue ≤ maxMoney ∧
        ∃ assets, scanAssets env fMempoolCheck fBlockCheck scan out = .ok assets ∧
          next = assets.withValue (scan.nValueOut + out.nValue) := by
  have split : scanOutput env fMempoolCheck fBlockCheck scan out =
      scanValue scan out >>= fun valued =>
        scanAssets env fMempoolCheck fBlockCheck valued out := rfl
  rw [split, bind_eq_ok]
  simp only [scanValue_eq_ok range, and_assoc]
  constructor
  · rintro ⟨_, outRange, bound, rfl, checked⟩
    rw [scanAssets_withValue] at checked
    refine ⟨outRange, bound, ?_⟩
    cases found : scanAssets env fMempoolCheck fBlockCheck scan out with
    | error reason =>
      rw [found] at checked
      cases checked
    | ok assets =>
      rw [found] at checked
      exact ⟨assets, rfl, (Except.ok.inj checked).symm⟩
  · rintro ⟨outRange, bound, assets, checked, rfl⟩
    refine ⟨_, outRange, bound, rfl, ?_⟩
    rw [scanAssets_withValue, checked]
    rfl

theorem foldlM_scanAssets_withValue (vout : List TxOut) (value : Int) :
    vout.foldlM (scanAssets env fMempoolCheck fBlockCheck) (scan.withValue value) =
      (vout.foldlM (scanAssets env fMempoolCheck fBlockCheck) scan).map (·.withValue value) := by
  induction vout generalizing scan with
  | nil => rfl
  | cons out rest ih =>
    rw [foldlM_cons, foldlM_cons, scanAssets_withValue, map_bind_check]
    cases scanAssets env fMempoolCheck fBlockCheck scan out with
    | error reason => rfl
    | ok assets => exact ih

theorem map_eq_ok {α β : Type} {check : Check α} {f : α → β} {b : β} :
    check.map f = .ok b ↔ ∃ a, check = .ok a ∧ b = f a := by
  cases check <;> simp [Except.map, eq_comm]

/-- The loop over the outputs passes when their values add up within the limit and their
assets pass. -/
theorem scan_eq_ok (vout : List TxOut) (range : moneyRange scan.nValueOut = true) :
    vout.foldlM (scanOutput env fMempoolCheck fBlockCheck) scan = .ok next ↔
      (∀ out ∈ vout, moneyRange out.nValue = true) ∧
        scan.nValueOut + (vout.map TxOut.nValue).sum ≤ maxMoney ∧
        ∃ assets, vout.foldlM (scanAssets env fMempoolCheck fBlockCheck) scan = .ok assets ∧
          next = assets.withValue (scan.nValueOut + (vout.map TxOut.nValue).sum) := by
  induction vout generalizing scan with
  | nil =>
    have most := (moneyRange_iff.mp range).2
    simp only [foldlM_nil, pure_eq_ok, not_mem_nil, false_imp_iff, implies_true, map_nil, sum_nil,
      add_zero, most, true_and, exists_eq_left']
    exact eq_comm
  | cons out rest ih =>
    simp only [foldlM_cons_eq_ok, forall_mem_cons, map_cons, sum_cons, scanOutput_eq_ok range]
    constructor
    · rintro ⟨_, ⟨outRange, bound, first, checked, rfl⟩, later⟩
      have total := moneyRange_add range outRange bound
      obtain ⟨all, most, _, assets, rfl⟩ := (ih total).mp later
      rw [foldlM_scanAssets_withValue] at assets
      obtain ⟨final, unvalued, rfl⟩ := map_eq_ok.mp assets
      refine ⟨⟨outRange, all⟩, ?_, final, ⟨first, checked, unvalued⟩, ?_⟩
      · rwa [← add_assoc]
      · rw [← add_assoc]
        rfl
    · rintro ⟨⟨outRange, all⟩, most, final, ⟨first, checked, assets⟩, rfl⟩
      have positive := sum_values_nonneg all
      have bound : scan.nValueOut + out.nValue ≤ maxMoney := by omega
      have total := moneyRange_add range outRange bound
      refine ⟨_, ⟨outRange, bound, first, checked, rfl⟩, (ih total).mpr ⟨all, ?_, ?_⟩⟩
      · rwa [← add_assoc] at most
      · refine ⟨_, by rw [foldlM_scanAssets_withValue, assets]; rfl, ?_⟩
        rw [← add_assoc]
        rfl

end Outputs

section Totals

variable (env : Env) (rules : BlockRules) (global : AssetState) (mempool : MempoolMaps)
  (nHeight : Nat) (block : Block) (currentTime : Int) (view : CoinsView)
  (fMempoolCheck fBlockCheck fAreEnforcedValues : Bool)

/-- One output of `GetValueOut`. -/
def valueOutStep (nValueOut : Int) (out : TxOut) : Check Int :=
  if !fAreEnforcedValues && (isAssetScript out.scriptPubKey).isSome then pure nValueOut
  else do
    let total := addAmount nValueOut out.nValue
    require (moneyRange out.nValue && moneyRange total) "GetValueOut: value out of range"
    return total

/-- What `GetValueOut` counts of an output. -/
def countedValue (out : TxOut) : Int := if isCounted fAreEnforcedValues out then out.nValue else 0

variable {env rules global mempool nHeight block currentTime view fMempoolCheck fBlockCheck
  fAreEnforcedValues} {tx : Transaction}

theorem valueOutStep_adding :
    Adding (fun _ => True) (countedValue fAreEnforcedValues) (valueOutStep fAreEnforcedValues) := by
  intro total out next range
  unfold valueOutStep countedValue isCounted
  by_cases skipped : (!fAreEnforcedValues && (isAssetScript out.scriptPubKey).isSome) = true
  · have uncounted : (fAreEnforcedValues || (isAssetScript out.scriptPubKey).isNone) = false := by
      simpa using skipped
    have most := (moneyRange_iff.mp range).2
    rw [if_pos skipped, uncounted, if_neg Bool.false_ne_true, pure_eq_ok, add_zero]
    constructor
    · rintro rfl
      exact ⟨trivial, rfl, rfl, most⟩
    · rintro ⟨_, _, rfl, _⟩
      rfl
  · have counted : (fAreEnforcedValues || (isAssetScript out.scriptPubKey).isNone) = true := by
      cases fAreEnforcedValues <;> simp_all
    rw [if_neg skipped, counted, if_pos rfl]
    simp only [bind_eq_ok, require_eq_ok, Bool.and_eq_true, exists_const, pure_eq_ok, true_and,
      and_assoc]
    exact and_congr_right fun outRange => moneyRange_addAmount_iff range outRange

end Totals

namespace CoinTotals

open MainNet KeyedMap

/-- A transaction that spends one coin of the limit. -/
def paying (vout : List TxOut) : Transaction := transaction 7 [⟨5, 0⟩] vout

def held : BlockView := ⟨coins [(⟨5, 0⟩, pay maxMoney alice)], .empty⟩

end CoinTotals

end Phicoin
