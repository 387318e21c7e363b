import Phicoin.Supply

/-! # Assets that cannot be reissued

A reissue of a non-reissuable asset is only accepted to change its hash, with
amount zero and units unchanged.  The reissuable field it carries is not looked
at and is copied into the record, so the property holds along the runs whose
reissues of non-reissuable assets carry zero there. -/

namespace Phicoin

open Check TwosComplement

structure ReissueOp where
  reissue : ReissueAsset
  tx : Transaction
  address : Bytes
  out : OutPoint

/-- The cache after a reissue accepted by the overload with the transaction. -/
def applyReissueOp (env : Env) (global : AssetState) (cache : AssetsCache) (op : ReissueOp) :
    Option AssetsCache :=
  if (contextualCheckReissueAssetTx env global cache op.reissue op.tx).passed then
    cache.addReissueAsset env global op.reissue op.address op.out
  else none

def keepsFlag (global : AssetState) (cache : AssetsCache) (op : ReissueOp) : Bool :=
  match cache.getAssetMetaDataIfExists global op.reissue.strName with
  | some prev => prev.nReissuable ≠ 0 || op.reissue.nReissuable = 0
  | none => true

theorem applyReissueOp_ok {env : Env} {global : AssetState} {cache next : AssetsCache}
    {op : ReissueOp} (steps : applyReissueOp env global cache op = some next) :
    ∃ prev, cache.getAssetMetaDataIfExists global op.reissue.strName = some prev ∧
      checkReissuable prev op.reissue = .ok () ∧ ∀ name, next.getAssetMetaDataIfExists global name =
        if name = op.reissue.strName then some (prev.applyReissue op.reissue)
        else cache.getAssetMetaDataIfExists global name := by
  unfold applyReissueOp at steps
  split at steps
  · rename_i accepted
    obtain ⟨⟨⟩, passes⟩ := passed_iff.mp accepted
    obtain ⟨_, _, _, _, prev, found, passes⟩ := ok_bind₃ passes
    obtain ⟨⟨⟩, reissuable, _⟩ := bind_eq_ok.mp passes
    rw [require?_eq_ok] at found
    obtain ⟨same, foundAgain, records, _⟩ := AssetsCache.addReissueAsset_eq_some steps
    obtain rfl : same = prev := Option.some.inj (foundAgain.symm.trans found)
    exact ⟨same, found, reissuable,
      AssetsCache.getAssetMetaDataIfExists_reissue records global⟩
  · cases steps

theorem checkReissuable_zero {prev : NewAsset} {reissue : ReissueAsset}
    (passes : checkReissuable prev reissue = .ok ()) (zero : prev.nReissuable = 0) :
    reissue.nAmount = 0 ∧ reissue.nUnits = -1 := by
  unfold checkReissuable at passes
  split at passes
  · simpa using passes
  · simp [zero] at passes

/-- The record of a name is non-reissuable, with the given amount and units. -/
def Settled (global : AssetState) (name : Bytes) (nAmount units : Int) (cache : AssetsCache) :
    Prop :=
  ∃ asset, cache.getAssetMetaDataIfExists global name = some asset ∧ asset.nReissuable = 0 ∧
    asset.nAmount = nAmount ∧ asset.units = units

theorem Settled.step {env : Env} {global : AssetState} {name : Bytes} {nAmount units : Int}
    {cache next : AssetsCache} {op : ReissueOp} (word : Fits 64 nAmount)
    (settled : Settled global name nAmount units cache) (may : keepsFlag global cache op = true)
    (steps : applyReissueOp env global cache op = some next) :
    Settled global name nAmount units next := by
  obtain ⟨asset, found, zero, amount, unitsEq⟩ := settled
  obtain ⟨prev, prevFound, reissuable, after⟩ := applyReissueOp_ok steps
  by_cases same : name = op.reissue.strName
  · subst same
    obtain rfl : asset = prev := Option.some.inj (found.symm.trans prevFound)
    obtain ⟨noAmount, noUnits⟩ := checkReissuable_zero reissuable zero
    have flag : op.reissue.nReissuable = 0 := by
      simpa [keepsFlag, found, zero] using may
    refine ⟨asset.applyReissue op.reissue, by rw [after, if_pos rfl], flag, ?_, ?_⟩
    · simp only [NewAsset.applyReissue, noAmount, addAmount, wrapAdd, add_zero, amount]
      exact word
    · simpa [NewAsset.applyReissue, noUnits] using unitsEq
  · exact ⟨asset, by rw [after, if_neg same, found], zero, amount, unitsEq⟩

/-- Along every run of such reissues a non-reissuable asset stays so, with the
same amount and units. -/
theorem nonReissuable_permanent (env : Env) (global : AssetState) (cache later : AssetsCache)
    (name : Bytes) (asset : NewAsset)
    (found : cache.getAssetMetaDataIfExists global name = some asset)
    (zero : asset.nReissuable = 0) (word : Fits 64 asset.nAmount)
    (run : Runs.Run (applyReissueOp env global) (keepsFlag global) cache later) :
    ∃ asset', later.getAssetMetaDataIfExists global name = some asset' ∧
      asset'.nReissuable = 0 ∧ asset'.nAmount = asset.nAmount ∧ asset'.units = asset.units := by
  apply run.invariant (Settled global name asset.nAmount asset.units)
  · exact ⟨asset, found, zero, rfl, rfl⟩
  · intro s op s' settled may steps
    exact settled.step word may steps

namespace Reissuable

def token : Bytes := ascii "TOKEN"

def fixedAsset : NewAsset := ⟨token, 5, 8, 0, 0, []⟩

def state : AssetState :=
  { AssetState.initial with
    passetsdb := ⟨(∅ : KeyedMap Bytes DatabasedAssetData).insert token ⟨fixedAsset, 1, 1⟩, ∅, ∅⟩ }

def ipfs : Bytes := [ipfsSha2, ipfsSha2Len] ++ List.replicate 32 7

def op (reissue : ReissueAsset) : ReissueOp :=
  ⟨reissue, Supply.reissueTx reissue, [], ⟨9, 0⟩⟩

def changeHash (flag : Int) : ReissueOp := op ⟨token, 0, -1, flag, ipfs⟩

def mint : ReissueOp := op ⟨token, 1000, -1, 1, []⟩

end Reissuable

open Reissuable

open MainNet

/-- A change of the hash that keeps the field. -/
theorem nonReissuable_permanent_hash :
    ∃ later, Runs.Run (applyReissueOp env state) (keepsFlag state) .empty later ∧
      (later.getAssetMetaDataIfExists state token).map NewAsset.strIPFSHash = some ipfs ∧
      ∃ asset', later.getAssetMetaDataIfExists state token = some asset' ∧
        asset'.nReissuable = 0 ∧ asset'.nAmount = 5 ∧ asset'.units = 8 := by
  have observed : (Runs.execute (applyReissueOp env state) (keepsFlag state) .empty
      [changeHash 0]).bind (fun c => (c.getAssetMetaDataIfExists state token).map
        NewAsset.strIPFSHash) = some ipfs := by
    decide +kernel
  obtain ⟨later, run, hash⟩ := Runs.exists_run_of_execute observed
  exact ⟨later, run, hash, nonReissuable_permanent env state .empty later token fixedAsset
    (by decide +kernel) rfl (by decide) run⟩

/-- A change of the hash makes the asset reissuable, and the next reissue mints. -/
theorem nonReissuable_permanent_fails :
    (AssetsCache.empty.getAssetMetaDataIfExists state token) = some fixedAsset ∧
      ∃ later, Runs.Run (applyReissueOp env state) (fun _ _ => true) .empty later ∧
        (later.getAssetMetaDataIfExists state token).map
          (fun asset => (asset.nReissuable, asset.nAmount)) = some (1, 1005) := by
  have observed : (Runs.execute (applyReissueOp env state) (fun _ _ => true) .empty
      [changeHash 1, mint]).bind (fun c => (c.getAssetMetaDataIfExists state token).map
        fun asset => (asset.nReissuable, asset.nAmount)) = some (1, 1005) := by
    decide +kernel
  exact ⟨by decide +kernel, Runs.exists_run_of_execute observed⟩

end Phicoin
