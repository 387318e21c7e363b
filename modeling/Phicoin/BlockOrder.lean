import Phicoin.BlockEffects
import Phicoin.RestrictedSafety

/-! # Restricted assets inside a block

The rules on restricted assets look past the cache of the block: freezes, global
freezes, tags and verifier strings are those of the tip before it.  The one thing
they ask of that cache is whether the qualifiers of a verifier string exist, so
they answer the same for every transaction of a block that issues no qualifier,
whatever the transactions before it changed. -/

namespace Phicoin

open AssetsCache Check

def SameRecordAt (name : Bytes) (cache other : AssetsCache) : Prop :=
  other.setNewAssetsToAdd.lookup name = cache.setNewAssetsToAdd.lookup name ∧
    other.setNewAssetsToRemove.lookup name = cache.setNewAssetsToRemove.lookup name

namespace SameRecordAt

variable {name : Bytes} {a b c : AssetsCache}

theorem refl (a : AssetsCache) : SameRecordAt name a a := ⟨rfl, rfl⟩

theorem trans (first : SameRecordAt name a b) (second : SameRecordAt name b c) :
    SameRecordAt name a c :=
  ⟨second.1.trans first.1, second.2.trans first.2⟩

theorem of_records (same : b.records = a.records) : SameRecordAt name a b := by
  obtain ⟨removed, added, _⟩ := sets_of_records same
  exact ⟨by rw [added], by rw [removed]⟩

theorem exists_eq (same : SameRecordAt name a b) (env : Env) (global : AssetState) :
    b.checkIfAssetExists env global name = a.checkIfAssetExists env global name := by
  simp only [checkIfAssetExists, same.1, same.2]

end SameRecordAt

section

variable {env : Env} {global : AssetState} {cache : AssetsCache} {tx : Transaction} {name : Bytes}
  {nHeight : Nat} {blockHash : Uint256}

theorem addNewAsset_sameRecordAt {next : AssetsCache} {asset : NewAsset} {address : Bytes}
    (added : cache.addNewAsset env global asset address nHeight blockHash = some next)
    (differs : name ≠ asset.strName) : SameRecordAt name cache next := by
  have records := (addNewAsset_eq_some added).2.1
  have added : next.setNewAssetsToAdd =
      (cache.records.issue asset.strName ⟨asset, address, nHeight, blockHash⟩).added :=
    congrArg RecordLayer.added records
  have removed : next.setNewAssetsToRemove =
      (cache.records.issue asset.strName ⟨asset, address, nHeight, blockHash⟩).removed :=
    congrArg RecordLayer.removed records
  constructor
  · rw [added]
    simp [RecordLayer.issue, AssetsCache.records, KeyedMap.lookup_insertNew, differs]
  · rw [removed]
    simp [RecordLayer.issue, AssetsCache.records, differs]

theorem tryAddNewAsset_sameRecordAt {issue : Option (NewAsset × Bytes)}
    (other : ∀ asset address, issue = some (asset, address) → asset.strName ≠ name)
    (named : name ≠ []) :
    SameRecordAt name cache (tryAddNewAsset env global cache issue nHeight blockHash) := by
  have differs : name ≠ (issue.getD (NewAsset.null, [])).1.strName := by
    cases issue with
    | none => exact named
    | some read => exact (other read.1 read.2 rfl).symm
  unfold tryAddNewAsset
  generalize issue.getD (NewAsset.null, []) = read at differs ⊢
  obtain ⟨asset, address⟩ := read
  dsimp only at differs ⊢
  cases result : cache.addNewAsset env global asset address nHeight blockHash with
  | none => exact SameRecordAt.refl cache
  | some next => exact addNewAsset_sameRecordAt result differs

theorem addReissue_sameRecordAt : SameRecordAt name cache (addReissue env global cache tx).1 := by
  unfold addReissue
  dsimp only
  refine SameRecordAt.trans ?_ (SameRecordAt.of_records (reissueVerifier_eq ..).1)
  generalize (tx.reissueAssetFromTransaction env).getD (ReissueAsset.null, []) = read
  obtain ⟨reissue, address⟩ := read
  dsimp only
  cases result : cache.addReissueAsset env global reissue address ⟨tx.hash, tx.vout.length - 1⟩ with
  | none => exact SameRecordAt.refl cache
  | some next =>
    obtain ⟨prev, _, records, _⟩ := addReissueAsset_eq_some result
    obtain ⟨removed, added, _⟩ := sets_of_reissue records
    exact ⟨by rw [Option.getD_some, added], by rw [Option.getD_some, removed]⟩

theorem addIssues_sameRecordAt (other : name ∉ tx.issuedNames env) (named : name ≠ []) :
    SameRecordAt name cache (addIssues env global cache tx nHeight blockHash).1 := by
  have outputs : ∀ out ∈ tx.vout, ∀ asset address,
      assetFromScript env out.scriptPubKey = some (asset, address) → asset.strName ≠ name := by
    rintro out member asset address read rfl
    exact other (mem_issuedNames.mpr ⟨out, member, asset, address, read, rfl⟩)
  have last : ∀ asset address, assetFromScript env tx.lastScript = some (asset, address) →
      asset.strName ≠ name := by
    intro asset address read
    obtain ⟨out, member, isLast⟩ := lastScript_mem (kind_of_read read)
    exact outputs out member asset address (isLast ▸ read)
  have issued := @tryAddNewAsset_sameRecordAt env global cache name nHeight blockHash _ last named
  rw [addIssues_eq]
  cases tx.kind env with
  | issue => exact issued.trans (SameRecordAt.of_records (addOwnerAsset_layers ..).records)
  | reissue => exact addReissue_sameRecordAt
  | unique =>
    refine List.foldlRecOn tx.vout _ (SameRecordAt.refl cache) fun acc same out member => ?_
    split
    · exact same.trans (tryAddNewAsset_sameRecordAt (outputs out member) named)
    · exact same
  | msgChannel => exact issued
  | qualifier => exact issued
  | restricted =>
    dsimp only
    split
    · exact issued.trans (SameRecordAt.of_records rfl)
    · exact issued
  | plain => exact SameRecordAt.refl cache

theorem addTransaction_sameRecordAt (other : name ∉ tx.issuedNames env) (named : name ≠ []) :
    SameRecordAt name cache (cache.addTransaction env global tx nHeight blockHash).1 := by
  by_cases deployed : env.areAssetsDeployed = true
  · rw [addTransaction_deployed deployed]
    exact (addIssues_sameRecordAt other named).trans
      (SameRecordAt.of_records (addOutputAssets_layers ..).1)
  · rw [addTransaction, if_neg deployed]
    exact SameRecordAt.refl cache

end

section

variable {env : Env} {rules : BlockRules} {global : AssetState} {mempool : MempoolMaps}
  {nHeight : Nat} {block : Block} {currentTime : Int} {acc next : Connecting} {tx : Transaction}
  {name : Bytes}

theorem connectTx_sameRecordAt (other : name ∉ tx.issuedNames env) (named : name ≠ [])
    (passes : connectTx env rules global mempool nHeight block currentTime acc tx = .ok next) :
    SameRecordAt name acc.view.assets next.view.assets := by
  unfold connectTx at passes
  obtain ⟨found, _, _, _, _, _, passes⟩ := ok_bind₃ passes
  obtain ⟨updated, updates, passes⟩ := bind_eq_ok.mp passes
  obtain ⟨spent, spends, view, _⟩ := updateCoins_ok updates
  have result := pure_eq_ok.mp passes
  have spending : SameRecordAt name acc.view.assets spent.assets :=
    SameRecordAt.of_records (spendTransaction_layers spends).records
  rw [← result]
  dsimp only
  rw [view]
  exact spending.trans (addTransaction_sameRecordAt other named)

theorem connectTxs_sameRecordAt {before : List Transaction} {start : Connecting}
    (other : ∀ tx ∈ before, name ∉ tx.issuedNames env) (named : name ≠ [])
    (passes : before.foldlM (connectTx env rules global mempool nHeight block currentTime) start =
      .ok next) : SameRecordAt name start.view.assets next.view.assets :=
  foldlM_invariant (fun acc : Connecting => SameRecordAt name start.view.assets acc.view.assets)
    passes (SameRecordAt.refl _) fun _ tx _ member step same =>
      same.trans (connectTx_sameRecordAt (other tx member) named step)

end

def NoQualifierIssued (env : Env) (txs : List Transaction) : Prop :=
  ∀ tx ∈ txs, ∀ name ∈ tx.issuedNames env, isAssetNameAQualifier name false = false

theorem not_issued_of_noQualifier {env : Env} {txs : List Transaction}
    (none : NoQualifierIssued env txs) {tx : Transaction} (member : tx ∈ txs)
    (checked : checkTransaction env tx true false true = .ok ()) (qualifier : Bytes) :
    qualifierChar :: qualifier ∉ tx.issuedNames env := by
  intro issued
  have notQualifier := none tx member _ issued
  obtain ⟨out, inOutputs, asset, address, read, same⟩ := mem_issuedNames.mp issued
  obtain ⟨_, _, stages⟩ := checkTransaction_ok checked
  obtain ⟨asset', address', readAgain, valid⟩ :=
    issue_of_checked stages.kind inOutputs (kind_of_read read)
  rw [read] at readAgain
  cases readAgain
  rw [same] at valid
  rw [isAssetNameAQualifier_of_mark valid] at notQualifier
  cases notQualifier

/-- The rules on restricted assets give the same verdicts with two caches: frozen
inputs, tag and freeze changes, and transfers with their global freeze and verifier
string. -/
structure SameRestrictedRules (env : Env) (global : AssetState) (cache base : AssetsCache) :
    Prop where
  inputs : ∀ view inputs input, checkAssetInput env global cache view inputs input =
    checkAssetInput env global base view inputs input
  changes : ∀ out, checkNullAssetOutput env global cache out = checkNullAssetOutput env global base out
  transfers : ∀ transfer address, contextualCheckTransferAsset env global cache transfer address =
    contextualCheckTransferAsset env global base transfer address

section

variable {env : Env} {global : AssetState} {cache base : AssetsCache}

section

variable (exist : ∀ qualifier, cache.checkIfAssetExists env global (qualifierChar :: qualifier) =
  base.checkIfAssetExists env global (qualifierChar :: qualifier))

include exist

theorem contextualCheckVerifierString_congr (verifier address : Bytes) :
    contextualCheckVerifierString env global cache verifier address =
      contextualCheckVerifierString env global base verifier address := by
  simp only [contextualCheckVerifierString, exist, checkForAddressQualifier_skip]

theorem sameRestrictedRules_of_exist :
    SameRestrictedRules env global cache base where
  inputs view inputs input := by
    simp only [checkAssetInput, checkForAddressRestriction_skip]
  changes out := by
    simp only [checkNullAssetOutput, contextualCheckNullAssetTxOut, verifyQualifierChange,
      verifyRestrictedAddressChange, contextualCheckGlobalAssetTxOut, verifyGlobalRestrictedChange,
      contextualCheckVerifierAssetTxOut, checkForAddressQualifier_skip,
      checkForAddressRestriction_skip, checkForGlobalRestriction_skip,
      contextualCheckVerifierString_congr exist]
  transfers transfer address := by
    simp only [contextualCheckTransferAsset, checkForGlobalRestriction_skip,
      getAssetVerifierStringIfExists_skip, contextualCheckVerifierString_congr exist]

end

theorem SameRestrictedRules.checkTxAssets_eq (same : SameRestrictedRules env global cache base)
    {tx : Transaction} (plain : tx.kind env = .plain) (units : ∀ out ∈ tx.vout, ∀ transfer address,
      transferAssetFromScript env out.scriptPubKey = some (transfer, address) →
        checkTransferUnits global cache transfer = checkTransferUnits global base transfer)
    (mempool : MempoolMaps) (view : CoinsView) (fCheckMempool : Bool)
    (nBlocktime currentTime : Int) :
    checkTxAssets env global cache mempool view tx fCheckMempool nBlocktime currentTime =
      checkTxAssets env global base mempool view tx fCheckMempool nBlocktime currentTime := by
  have inputs : checkAssetInput env global cache view = checkAssetInput env global base view := by
    funext inputs input
    exact same.inputs view inputs input
  have kind : checkTxAssetsKind env global cache mempool tx fCheckMempool =
      checkTxAssetsKind env global base mempool tx fCheckMempool := by
    unfold Transaction.kind at plain
    unfold checkTxAssetsKind
    split_ifs at plain ⊢
    rfl
  have outputs : ∀ mapAddresses start,
      tx.vout.foldlM (checkAssetOutput env global cache mempool tx mapAddresses nBlocktime
        currentTime) start =
      tx.vout.foldlM (checkAssetOutput env global base mempool tx mapAddresses nBlocktime
        currentTime) start := by
    intro mapAddresses start
    refine foldlM_congr (fun acc out member => ?_) start
    have transfers :
        checkTransferOutput env global cache tx mapAddresses nBlocktime currentTime acc out =
        checkTransferOutput env global base tx mapAddresses nBlocktime currentTime acc out := by
      unfold checkTransferOutput
      simp only [same.transfers]
      cases read : transferAssetFromScript env out.scriptPubKey with
      | none => rfl
      | some result =>
        have sameUnits := units out member result.1 result.2 read
        dsimp only [require?, bind, Except.bind]
        rw [sameUnits]
    unfold checkAssetOutput checkAssetOutputKind
    simp only [same.changes, transfers]
  unfold checkTxAssets
  simp only [inputs, outputs, kind]

end

/-- The cache after some transactions of a block that issue no qualifier leaves every
rule on restricted assets as it was at the tip before the block; a transaction that
neither issues nor reissues gets the same result of `CheckTxAssets` as at that tip,
unless the units of what it transfers were changed. -/
theorem restricted_rules_ignore_order {env : Env} {rules : BlockRules} {global : AssetState}
    {mempool : MempoolMaps} {nHeight : Nat} {block : Block} {currentTime : Int} {view : CoinsView}
    {before after : List Transaction} {tx : Transaction} {acc : Connecting}
    (checked : checkBlock env rules block = .ok ()) (order : block.vtx = before ++ tx :: after)
    (none : NoQualifierIssued env before)
    (connected : before.foldlM (connectTx env rules global mempool nHeight block currentTime)
      ⟨⟨view, .empty⟩, 0, 0, [], [], []⟩ = .ok acc) (plain : tx.kind env = .plain) :
    SameRestrictedRules env global acc.view.assets .empty ∧ ((∀ out ∈ tx.vout, ∀ transfer address,
          transferAssetFromScript env out.scriptPubKey = some (transfer, address) →
            checkTransferUnits global acc.view.assets transfer =
              checkTransferUnits global .empty transfer) →
        ∀ mempool view fCheckMempool nBlocktime currentTime,
          checkTxAssets env global acc.view.assets mempool view tx fCheckMempool nBlocktime
              currentTime =
            checkTxAssets env global .empty mempool view tx fCheckMempool nBlocktime currentTime) := by
  have same : SameRestrictedRules env global acc.view.assets .empty := by
    refine sameRestrictedRules_of_exist fun qualifier => ?_
    refine SameRecordAt.exists_eq (connectTxs_sameRecordAt (fun earlier member => ?_)
      (List.cons_ne_nil _ _) connected) env global
    have inBlock : earlier ∈ block.vtx := order ▸ List.mem_append_left _ member
    exact not_issued_of_noQualifier none member (checkBlock_ok checked earlier inBlock) qualifier
  exact ⟨same, fun units => same.checkTxAssets_eq plain units⟩

open MainNet

namespace BlockOrder

open RestrictedSafety

def freeze : Transaction :=
  transaction 8 [⟨7, 1⟩]
    [transfer (ascii "TOKEN!") coin, tag restrictedToken 1 alice]

def move : Transaction := transaction 9 [⟨7, 2⟩] [transfer restrictedToken 5]

def block : Block := MainNet.block 1 [freeze, move]

def earlier : List Transaction := [coinbase 1001, freeze]

def connecting : Check Connecting :=
  earlier.foldlM (connectTx env rules state .empty 10 block 0)
    ⟨⟨view, .empty⟩, 0, 0, [], [], []⟩

end BlockOrder

open BlockOrder RestrictedSafety

/-- The freeze of the same block does not stop the move. -/
theorem restricted_rules_ignore_order_freeze : ∃ acc, connecting = .ok acc ∧
      acc.view.assets.checkForAddressRestriction state restrictedToken aliceAddress false = true ∧
      SameRestrictedRules env state acc.view.assets .empty := by
  have frozen : connecting.toOption.map (fun acc : Connecting =>
      acc.view.assets.checkForAddressRestriction state restrictedToken aliceAddress false) =
        some true := by decide +kernel
  obtain ⟨acc, connected, isFrozen⟩ := Option.map_eq_some_iff.mp frozen
  have passes : connecting = .ok acc := toOption_eq_some.mp connected
  have none : NoQualifierIssued env earlier := by
    have names : ∀ tx ∈ earlier, ∀ name ∈ tx.issuedNames env,
        isAssetNameAQualifier name false = false := by decide +kernel
    exact names
  exact ⟨acc, passes, isFrozen, (@restricted_rules_ignore_order env rules state .empty
    10 block 0 view earlier [] move acc (by decide +kernel) rfl none passes (by decide +kernel)).1⟩

end Phicoin
