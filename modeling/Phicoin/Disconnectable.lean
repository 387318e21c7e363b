import Phicoin.BlockNames
import Phicoin.CoinEffects
import Phicoin.NullAssets

/-! # A connected block can be disconnected

`DisconnectBlock` reads the outputs of the block again, and what it reads was read
when the block was checked; its undo data has the right sizes because the loop of
`ConnectBlock` wrote it.  Without the balance index nothing else can fail. -/

namespace Phicoin

open Check AssetsCache List Transaction

section

variable {env : Env} {tx : Transaction} {out : TxOut}

section

variable (checked : checkTransaction env tx true false true = .ok ()) (member : out ∈ tx.vout)

include checked member

theorem scanned_of_checked : ∃ scan next, scanOutput env false true scan out = .ok next := by
  obtain ⟨_, _, stages⟩ := checkTransaction_ok checked
  exact foldlM_visits stages.scanned member

theorem nullData_of_checked : (isNullAssetTxDataScript out.scriptPubKey = true →
      ∃ data address, assetNullDataFromScript env out.scriptPubKey = some (data, address)) ∧
    (isNullGlobalRestrictionAssetTxDataScript out.scriptPubKey = true →
      ∃ data, globalAssetNullDataFromScript out.scriptPubKey = some data) ∧
    (isNullAssetVerifierTxDataScript out.scriptPubKey = true →
      ∃ verifier, assetNullVerifierDataFromScript out.scriptPubKey = some verifier) := by
  obtain ⟨scan, next, scanned⟩ := scanned_of_checked checked member
  unfold scanOutput at scanned
  obtain ⟨valued, _, nulls, null, _⟩ := ok_bind₂ scanned
  unfold scanNullAsset at null
  refine ⟨fun isTag => ?_, fun isGlobal => ?_, fun isVerifier => ?_⟩
  · rw [if_pos isTag] at null
    obtain ⟨⟨data, address⟩, read, _⟩ := bind_eq_ok.mp null
    exact ⟨data, address, require?_eq_ok.mp read⟩
  · have notTag := nullKinds_disjoint.1 isGlobal
    rw [if_neg (by simp [notTag]), if_pos isGlobal] at null
    obtain ⟨data, read, _⟩ := bind_eq_ok.mp null
    exact ⟨data, require?_eq_ok.mp read⟩
  · obtain ⟨notTag, notGlobal⟩ := nullKinds_disjoint.2 isVerifier
    rw [if_neg (by simp [notTag]), if_neg (by simp [notGlobal]), if_pos isVerifier] at null
    obtain ⟨_, verified, _⟩ := bind_eq_ok.mp null
    unfold checkVerifierAssetTxOut checkVerifierTxOut at verified
    obtain ⟨verifier, read, _⟩ := bind_eq_ok.mp verified
    exact ⟨verifier, require?_eq_ok.mp read⟩

theorem transfer_of_checked (isTransfer : isTransferAssetScript out.scriptPubKey = true) :
    ∃ transfer address, transferAssetFromScript env out.scriptPubKey = some (transfer, address) ∧
      (isAssetNameValid transfer.strName).passed = true := by
  obtain ⟨scan, next, scanned⟩ := scanned_of_checked checked member
  unfold scanOutput at scanned
  obtain ⟨valued, _, nulls, _, asset⟩ := ok_bind₂ scanned
  obtain ⟨n, isScript⟩ := Option.isSome_iff_exists.mp isTransfer
  rw [isScriptTransferAsset, assetScriptOf_eq_some] at isScript
  simp only [scanAsset, isScript, scanTransfer] at asset
  obtain ⟨⟨transfer, address⟩, read, asset⟩ := bind_eq_ok.mp asset
  obtain ⟨_, valid, _⟩ := bind_eq_ok.mp asset
  exact ⟨transfer, address, require?_eq_ok.mp read, require_eq_ok.mp valid⟩

end

theorem verifierOutput_of_required {verifier : Bytes}
    (required : tx.requireVerifierString = .ok verifier) :
    ∃ out ∈ tx.vout, isNullAssetVerifierTxDataScript out.scriptPubKey = true := by
  unfold requireVerifierString at required
  obtain ⟨found, searched, some_found⟩ := bind_eq_ok.mp required
  rw [require?_eq_ok] at some_found
  unfold getVerifierStringFromTx at searched
  have visited := foldlM_invariant (fun found : Option Bytes => found.isSome →
    ∃ out ∈ tx.vout, isNullAssetVerifierTxDataScript out.scriptPubKey = true) searched
    (fun absent => by cases absent) (fun acc out next member step earlier present => by
      by_cases isVerifier : isNullAssetVerifierTxDataScript out.scriptPubKey = true
      · exact ⟨out, member, isVerifier⟩
      · rw [if_neg isVerifier] at step
        obtain rfl := pure_eq_ok.mp step
        exact earlier present)
  exact visited (by rw [some_found]; rfl)

end

section

variable {env : Env} {global : AssetState} {cache : AssetsCache} {tx : Transaction} {name : Bytes}

theorem metadata_of_exists (notReindexing : env.fReindex = false)
    (present : cache.checkIfAssetExists env global name = true) :
    (cache.getAssetMetaDataIfExists global name).isSome := by
  obtain ⟨kept, keptGlobal, known⟩ := (checkIfAssetExists_iff notReindexing).mp present
  unfold Recorded LruCache.exists? at known
  unfold getAssetMetaDataIfExists getAssetMetaData
  rw [kept, keptGlobal]
  revert known
  cases cache.mapReissuedAssetData.lookup name <;>
    cases global.passets.mapReissuedAssetData.lookup name <;>
    cases cache.setNewAssetsToAdd.lookup name <;>
    cases global.passets.setNewAssetsToAdd.lookup name <;>
    cases global.passetsCache.get? name <;> simp

theorem undoReissue_passes (notReindexing : env.fReindex = false)
    (noIndex : env.fAssetIndex = false) (vUndoData : List (Bytes × BlockAssetUndo))
    (cache : AssetsCache) (reissue : ReissueAsset) (address : Bytes) (out : OutPoint) :
    ∃ next, undoReissue env global vUndoData cache reissue address out = .ok next := by
  unfold undoReissue
  split
  · rename_i present
    obtain ⟨next, removed⟩ := removeReissueAsset_isSome noIndex
      (metadata_of_exists notReindexing present) address out vUndoData
    exact ⟨next, require?_eq_ok.mpr removed⟩
  · exact ⟨cache, rfl⟩

theorem ownerRead_of_verified (verified : tx.verifyNewAsset env = .ok ()) :
    ∃ ownerName ownerAddress,
      ownerAssetFromScript env tx.secondLastScript = some (ownerName, ownerAddress) := by
  unfold verifyNewAsset at verified
  obtain ⟨_, _, _, _, _, _, verified⟩ := ok_bind₃ verified
  obtain ⟨_, _, ⟨ownerName, ownerAddress⟩, read, _⟩ := ok_bind₂ verified
  exact ⟨ownerName, ownerAddress, require?_eq_ok.mp read⟩

theorem required_of_verified (verified : tx.verifyNewRestrictedAsset env = .ok ()) :
    ∃ verifier, tx.requireVerifierString = .ok verifier := by
  unfold verifyNewRestrictedAsset at verified
  obtain ⟨_, _, _, _, _, _, verified⟩ := ok_bind₃ verified
  obtain ⟨_, _, _, _, verifier, required, _⟩ := ok_bind₃ verified
  exact ⟨verifier, required⟩

theorem lastVerifierScript_of_checked (checked : checkTransaction env tx true false true = .ok ())
    (verified : tx.verifyNewRestrictedAsset env = .ok ())
    (deployed : env.areRestrictedAssetsDeployed = true) :
    ∃ script verifier, lastVerifierScript env tx = some script ∧
      assetNullVerifierDataFromScript script = some verifier := by
  obtain ⟨_, required⟩ := required_of_verified verified
  obtain ⟨out, member, isVerifier⟩ := verifierOutput_of_required required
  rw [lastVerifierScript, if_pos deployed]
  have unspendable : ∀ script, isNullAssetVerifierTxDataScript script = true →
      isUnspendable script = true := fun script null =>
    isUnspendable_of_isNullAsset (by simp [isNullAsset, null])
  cases search : tx.vout.reverse.find? fun out => isUnspendable out.scriptPubKey &&
      isNullAssetVerifierTxDataScript out.scriptPubKey with
  | none =>
    have notFound := find?_eq_none.mp search out (mem_reverse.mpr member)
    simp [isVerifier, unspendable _ isVerifier] at notFound
  | some last =>
    have isLast := find?_some search
    rw [Bool.and_eq_true] at isLast
    have inOutputs := mem_reverse.mp (mem_of_find?_eq_some search)
    obtain ⟨verifier, read⟩ := (nullData_of_checked checked inOutputs).2.2 isLast.2
    exact ⟨last.scriptPubKey, verifier, rfl, read⟩

theorem undoIssues_passes (notReindexing : env.fReindex = false) (noIndex : env.fAssetIndex = false)
    (checked : checkTransaction env tx true false true = .ok ())
    (restricted : tx.kind env = .restricted → env.areRestrictedAssetsDeployed = true)
    (vUndoData : List (Bytes × BlockAssetUndo)) (cache : AssetsCache) :
    ∃ next, undoIssues env global vUndoData cache tx = .ok next := by
  obtain ⟨_, _, stages⟩ := checkTransaction_ok checked
  have branch := checkTransactionKind_ok stages.kind
  have readable := readable_of_kind stages.kind
  rw [undoIssues_eq]
  cases kind : tx.kind env <;> simp only [kind] at branch ⊢
  case plain => exact ⟨cache, rfl⟩
  case reissue =>
    obtain ⟨reissue, address, read⟩ := readable.reissue kind
    rw [read]
    exact undoReissue_passes notReindexing noIndex vUndoData cache reissue address tx.reissueOut
  case unique =>
    refine foldlM_passes cache fun acc out _ => ?_
    split
    · rename_i unique
      obtain ⟨asset, address, read, _⟩ := isScriptNewUniqueAsset_iff.mp unique
      rw [read]
      exact ⟨_, rfl⟩
    · exact ⟨acc, rfl⟩
  case issue =>
    obtain ⟨asset, address, read⟩ := readable.issue kind
    obtain ⟨ownerName, ownerAddress, ownerRead⟩ := ownerRead_of_verified branch.1
    rw [read, ownerFromTransaction, if_pos (isNewAsset_of_kind kind), ownerRead]
    exact ⟨_, rfl⟩
  case msgChannel =>
    obtain ⟨asset, address, read⟩ := readable.single (.inr (.inl kind))
    rw [read]
    exact ⟨_, rfl⟩
  case qualifier =>
    obtain ⟨asset, address, read⟩ := readable.single (.inr (.inr (.inl kind)))
    rw [read]
    exact ⟨_, rfl⟩
  case restricted =>
    obtain ⟨asset, address, read⟩ := readable.single (.inr (.inr (.inr kind)))
    obtain ⟨script, verifier, last, verifierRead⟩ :=
      lastVerifierScript_of_checked checked branch.1 (restricted kind)
    exact ⟨_, bind_eq_ok.mpr ⟨_, require?_eq_ok.mpr read, bind_eq_ok.mpr
      ⟨_, require?_eq_ok.mpr last, bind_eq_ok.mpr ⟨_, require?_eq_ok.mpr verifierRead, rfl⟩⟩⟩⟩

end

section

variable {env : Env} {global : AssetState} {tx : Transaction} {nHeight : Nat}

theorem undoTransfers_passes (noIndex : env.fAssetIndex = false)
    (checked : checkTransaction env tx true false true = .ok ()) (outs : List TxOut)
    (inOutputs : ∀ out ∈ outs, out ∈ tx.vout) (n : Nat) (cache : AssetsCache) :
    ∃ next, undoTransfers env global tx outs n cache = .ok next := by
  induction outs generalizing n cache with
  | nil => exact ⟨cache, rfl⟩
  | cons out rest ih =>
    have later := fun other member => inOutputs other (mem_cons_of_mem out member)
    unfold undoTransfers
    split
    · rename_i isTransfer
      rw [Bool.and_eq_true] at isTransfer
      obtain ⟨transfer, address, read, _⟩ := transfer_of_checked checked
        (inOutputs out mem_cons_self) isTransfer.2
      obtain ⟨removed, removes⟩ : ∃ next,
          cache.removeTransfer env global transfer address ⟨tx.hash, n⟩ = some next := by
        simp [removeTransfer, noIndex]
      obtain ⟨final, rest⟩ := ih later (n + 1) removed
      exact ⟨final, bind_eq_ok.mpr ⟨_, require?_eq_ok.mpr read, bind_eq_ok.mpr
        ⟨removed, require?_eq_ok.mpr removes, rest⟩⟩⟩
    · exact ih later (n + 1) cache

theorem undoNulls_passes (checked : checkTransaction env tx true false true = .ok ())
    (cache : AssetsCache) : ∃ next, undoNulls env tx cache = .ok next := by
  unfold undoNulls
  split
  · refine foldlM_passes cache fun acc out member => ?_
    obtain ⟨tagRead, globalRead, _⟩ := nullData_of_checked checked member
    unfold undoNullData
    dsimp only
    split
    · exact ⟨acc, rfl⟩
    · split
      · rename_i isTag
        obtain ⟨data, address, read⟩ := tagRead isTag
        exact ⟨_, bind_eq_ok.mpr ⟨_, require?_eq_ok.mpr read, rfl⟩⟩
      · split
        · rename_i isGlobal
          obtain ⟨data, read⟩ := globalRead isGlobal
          exact ⟨_, bind_eq_ok.mpr ⟨_, require?_eq_ok.mpr read, rfl⟩⟩
        · exact ⟨acc, rfl⟩
  · exact ⟨cache, rfl⟩

theorem restoreInputs_passes (global : AssetState) {vprevout : List Coin}
    (sizes : vprevout.length = tx.vin.length) (heights : ∀ coin ∈ vprevout, coin.nHeight ≠ 0)
    (acc : Disconnecting) : ∃ next, restoreInputs env global tx vprevout acc = .ok next := by
  unfold restoreInputs
  have looped : ∃ final, (tx.vin.zip vprevout).reverse.foldlM
      (fun acc pair => applyTxInUndo env global acc pair.2 pair.1.prevout) acc = .ok final := by
    refine foldlM_passes acc fun acc pair member => ?_
    have inUndo := (of_mem_zip (mem_reverse.mp member)).2
    unfold applyTxInUndo restoredCoin
    rw [if_neg (heights pair.2 inUndo)]
    exact ⟨_, rfl⟩
  obtain ⟨final, looped⟩ := looped
  exact ⟨final, bind_eq_ok.mpr ⟨(), by simp [sizes], looped⟩⟩

theorem undoTransaction_passes (notReindexing : env.fReindex = false)
    (noIndex : env.fAssetIndex = false) (checked : checkTransaction env tx true false true = .ok ())
    (restricted : tx.kind env = .restricted → env.areRestrictedAssetsDeployed = true)
    (vUndoData : List (Bytes × BlockAssetUndo)) (cache : AssetsCache) :
    ∃ next, undoTransaction env global vUndoData cache tx = .ok next := by
  unfold undoTransaction
  split
  · obtain ⟨issues, undone⟩ := undoIssues_passes notReindexing noIndex checked restricted vUndoData
      cache
    obtain ⟨transfers, moved⟩ := undoTransfers_passes noIndex checked tx.vout (fun _ => id) 0 issues
    obtain ⟨final, reverted⟩ := undoNulls_passes checked transfers
    exact ⟨final, bind_eq_ok.mpr ⟨issues, undone, bind_eq_ok.mpr ⟨transfers, moved, reverted⟩⟩⟩
  · exact ⟨cache, rfl⟩

end

variable {env : Env} {rules : BlockRules} {global : AssetState} {mempool : MempoolMaps}
  {nHeight : Nat} {block : Block} {currentTime : Int}

def UndoRecord (P : Coin → Prop) (tx : Transaction) (vprevout : List Coin) : Prop :=
  (tx.isCoinBase = false → vprevout.length = tx.vin.length) ∧ ∀ coin ∈ vprevout, P coin

theorem Spends.undoRecord {P : Coin → Prop} {view : CoinsView} {tx : Transaction}
    {vprevout : List Coin} (spends : Spends view tx vprevout) (all : view.All P) :
    UndoRecord P tx vprevout := by
  by_cases isCoinbase : tx.isCoinBase = true
  · rw [spends.coinbase isCoinbase]
    exact ⟨by simp [isCoinbase], fun coin absent => (not_mem_nil absent).elim⟩
  · have taken := spends.taken (by simpa using isCoinbase)
    refine ⟨fun _ => by simpa using (congrArg List.length taken).symm, ?_⟩
    intro coin member
    have present : some coin ∈ vprevout.map some := mem_map_of_mem member
    rw [← taken] at present
    obtain ⟨input, _, found⟩ := mem_map.mp present
    exact all input.prevout coin found

variable {view : BlockView} {connected : Connected}

theorem connectBlock_undo {P : Coin → Prop} (made : ∀ out isCoinbase, P ⟨out, isCoinbase, nHeight⟩)
    (notGenesis : block.hash ≠ rules.hashGenesisBlock) (all : view.coins.All P)
    (accepted : connectBlock env rules global mempool nHeight block currentTime view = .ok connected) :
    ∃ first rest, block.vtx = first :: rest ∧ (∀ tx ∈ rest, tx.isCoinBase = false) ∧
      List.Forall₂ (UndoRecord P) rest connected.vtxundo := by
  obtain ⟨final, checked, looped, _, rfl⟩ := connectBlock_ok notGenesis accepted
  obtain ⟨first, rest, order, _, others⟩ := checkBlock_coinbase checked
  have scanned := foldlM_scan (fun pre (acc : Connecting) => acc.view.coins.All P ∧
    List.Forall₂ (UndoRecord P) pre acc.vprevouts) looped ⟨all, .nil⟩ ?_
  · refine ⟨first, rest, order, others, ?_⟩
    rw [order, forall₂_cons_left_iff] at scanned
    obtain ⟨_, _, later, _, records, vprevouts⟩ := scanned
    rw [vprevouts]
    exact records
  · rintro pre tx post acc next _ connects ⟨allBefore, records⟩
    obtain ⟨_, coins, vprevout, appended, spends⟩ := connectTx_coins connects
    rw [coins, appended]
    exact ⟨(allBefore.spend tx).addOutputs (fun out _ => made out _) 0,
      rel_append records (.cons (spends.undoRecord allBefore) .nil)⟩

theorem restricted_deployed (deployed : env.areAssetsDeployed = true)
    (notGenesis : block.hash ≠ rules.hashGenesisBlock) (bare : block.BareCoinbase env)
    (accepted : connectBlock env rules global mempool nHeight block currentTime view = .ok connected)
    {tx : Transaction} (member : tx ∈ block.vtx) (restricted : tx.kind env = .restricted) :
    env.areRestrictedAssetsDeployed = true := by
  obtain ⟨final, checked, looped, _, _⟩ := connectBlock_ok notGenesis accepted
  obtain ⟨acc, next, visited⟩ := foldlM_visits looped member
  unfold connectTx at visited
  obtain ⟨_, spending, _⟩ := bind_eq_ok.mp visited
  unfold checkSpending at spending
  split at spending
  · rename_i isCoinbase
    have plain : tx.kind env = .plain :=
      kind_of_bare (bare.bare member (checkBlock_ok checked tx member) isCoinbase)
    rw [restricted] at plain
    cases plain
  · obtain ⟨_, _, _, _, _, assets, _⟩ := ok_bind₃ spending
    unfold checkDeployedAssets at assets
    rw [if_pos deployed] at assets
    obtain ⟨_, accepted, _⟩ := bind_eq_ok.mp assets
    obtain ⟨_, _, _, _, kind, _⟩ := checkTxAssets_ok accepted
    unfold checkTxAssetsKind at kind
    unfold Transaction.kind at restricted
    split_ifs at kind restricted with isNew isReissue isUnique isChannel isQualifier isRestricted
    obtain ⟨_, active, _⟩ := bind_eq_ok.mp kind
    exact require_eq_ok.mp active

theorem disconnectBlock_passes (deployed : env.areAssetsDeployed = true)
    (notReindexing : env.fReindex = false) (noIndex : env.fAssetIndex = false)
    (notGenesis : block.hash ≠ rules.hashGenesisBlock) (bare : block.BareCoinbase env)
    (aboveGenesis : nHeight ≠ 0) (heights : view.coins.All fun coin => coin.nHeight ≠ 0)
    (accepted : connectBlock env rules global mempool nHeight block currentTime view = .ok connected)
    (later : AssetState) (vUndoData : List (Bytes × BlockAssetUndo)) (final : BlockView) :
    ∃ disconnected, disconnectBlock env later nHeight block connected.vtxundo vUndoData final =
      .ok disconnected := by
  obtain ⟨first, rest, order, single, records⟩ := connectBlock_undo
    (fun _ _ => aboveGenesis) notGenesis heights accepted
  obtain ⟨sizes, records⟩ := forall₂_iff_zip.mp records
  obtain ⟨_, checked, _, _, _⟩ := connectBlock_ok notGenesis accepted
  unfold disconnectBlock
  have looped : ∃ last, (block.vtx.zip (none :: connected.vtxundo.map some)).reverse.foldlM
      (disconnectTx env later nHeight vUndoData)
      ⟨final.coins, final.assets, final.assets, true⟩ = .ok last := by
    refine foldlM_passes _ fun acc entry inZip => ?_
    have inZip := mem_reverse.mp inZip
    have member := (of_mem_zip inZip).1
    unfold disconnectTx
    obtain ⟨assets, undone⟩ := undoTransaction_passes notReindexing noIndex
      (checkBlock_ok checked entry.1 member)
      (restricted_deployed deployed notGenesis bare accepted member) vUndoData
      (spendOutputs env later nHeight entry.1 entry.1.vout 0 acc).assets
    cases undo : entry.2 with
    | none => exact ⟨_, bind_eq_ok.mpr ⟨assets, undone, rfl⟩⟩
    | some vprevout =>
      have inRest : (entry.1, vprevout) ∈ rest.zip connected.vtxundo := by
        rw [order, zip_cons_cons, mem_cons, zip_map_right] at inZip
        rcases inZip with isFirst | inLater
        · rw [isFirst] at undo
          cases undo
        · obtain ⟨pair, inPairs, rfl⟩ := mem_map.mp inLater
          cases undo
          exact inPairs
      obtain ⟨inputs, spentHeights⟩ := records inRest
      obtain ⟨next, restored⟩ := restoreInputs_passes later
        (inputs (single entry.1 (of_mem_zip inRest).1)) spentHeights
        { spendOutputs env later nHeight entry.1 entry.1.vout 0 acc with assets := assets }
      exact ⟨next, bind_eq_ok.mpr ⟨assets, undone, restored⟩⟩
  obtain ⟨last, looped⟩ := looped
  refine ⟨_, bind_eq_ok.mpr ⟨(), ?_, bind_eq_ok.mpr ⟨last, looped, rfl⟩⟩⟩
  rw [require_eq_ok, decide_eq_true_eq, order, length_cons, sizes]

end Phicoin
