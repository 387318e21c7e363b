import Phicoin.Accepted
import Phicoin.MainNet

/-! # Conservation of assets

`CheckTxAssets` compares two maps of 64-bit totals, so an accepted transaction
has congruent exact totals.  They are equal for an asset exactly when they are
less than `2 ^ 64` apart, and nothing in the checks bounds the sum of the
outputs. -/

namespace Phicoin

open Totals

/-- Every asset has the same exact total in the transfer outputs as in the spent
coins. -/
def ConservesAssets (env : Env) (view : CoinsView) (tx : Transaction) : Prop :=
  ∀ name, exactTotal (spentAssets env view tx) name = exactTotal (transferredAssets env tx) name

theorem conservesAssets_iff (env : Env) (global : AssetState) (cache : AssetsCache)
    (mempool : MempoolMaps) (view : CoinsView) (tx : Transaction) (fCheckMempool : Bool)
    (nBlocktime currentTime : Int)
    (accepted : (checkTxAssets env global cache mempool view tx fCheckMempool nBlocktime
      currentTime).passed = true) : ConservesAssets env view tx ↔
      ∀ name, |exactTotal (spentAssets env view tx) name -
        exactTotal (transferredAssets env tx) name| < 2 ^ 64 := by
  obtain ⟨outputs, passes⟩ := Check.passed_iff.mp accepted
  apply forall_congr'
  intro name
  exact exactTotal_eq_iff 64 (spentAssets_fits env view tx) (transferredAssets_fits env tx)
    (checkTxAssets_totals passes name)

open MainNet

namespace Conservation

def token : Bytes := ascii "TOKEN"

def transfer (amount : Int) : TxOut :=
  ⟨0, AssetTransfer.constructTransaction ⟨token, amount, [], 0⟩ (payToPublicKeyHash alice)⟩

def state : AssetState :=
  { AssetState.initial with
    passetsdb := ⟨(∅ : KeyedMap Bytes DatabasedAssetData).insert token
      ⟨⟨token, 5, 8, 0, 0, []⟩, 1, 1⟩, ∅, ∅⟩ }

/-- The coin `(7, 0)` holds the given amount. -/
def view (amount : Int) : CoinsView :=
  (∅ : KeyedMap OutPoint Coin).insert ⟨7, 0⟩ ⟨transfer amount, false, 2⟩

/-- Spends the coin `(7, 0)` into transfers of the given amounts. -/
def spend (amounts : List Int) : Transaction where
  vin := [⟨⟨7, 0⟩, [], 0xffffffff, []⟩]
  vout := amounts.map transfer
  nVersion := 2
  nLockTime := 0
  hash := 8

def verdict (amount : Int) (amounts : List Int) : Check AssetOutputs :=
  checkTxAssets env state AssetsCache.empty MempoolMaps.empty (view amount) (spend amounts)
    false 0 0

end Conservation

open Conservation

/-- Five units spent into two and three. -/
theorem conservesAssets_iff_five : (verdict 5 [2, 3]).passed = true ∧
      (ConservesAssets env (view 5) (spend [2, 3]) ↔
        ∀ name, |exactTotal (spentAssets env (view 5) (spend [2, 3])) name -
          exactTotal (transferredAssets env (spend [2, 3])) name| < 2 ^ 64) := by
  have accepted : (verdict 5 [2, 3]).passed = true := by decide +kernel
  exact ⟨accepted, conservesAssets_iff env state AssetsCache.empty MempoolMaps.empty
    (view 5) (spend [2, 3]) false 0 0 accepted⟩

/-- One unit becomes `2 ^ 64 + 1` units: two outputs of the largest word and one
of three wrap back to one. -/
theorem conservesAssets_fails : (verdict 1 [2 ^ 63 - 1, 2 ^ 63 - 1, 3]).passed = true ∧
      (checkTransaction env (spend [2 ^ 63 - 1, 2 ^ 63 - 1, 3]) true false true).passed =
        true ∧ ¬ ConservesAssets env (view 1) (spend [2 ^ 63 - 1, 2 ^ 63 - 1, 3]) := by
  refine ⟨by decide +kernel, by decide +kernel, ?_⟩
  intro conserves
  have totals := conserves token
  revert totals
  decide +kernel

end Phicoin
