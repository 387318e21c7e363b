import Phicoin.Admission

/-! # The transactions of a block

What the loop of `ConnectBlock` does to the layers of the block's cache with each
transaction, and to the list of undo items. -/

namespace Phicoin

open Check AssetsCache List Transaction BlockView

def Transaction.Bare (tx : Transaction) : Prop :=
  ∀ out ∈ tx.vout, isAssetScript out.scriptPubKey = none ∧ isNullAsset out.scriptPubKey = false

instance (tx : Transaction) : Decidable tx.Bare :=
  inferInstanceAs (Decidable (∀ out ∈ tx.vout, _ ∧ _))

/-- The coinbase carries no asset data; `CheckTransaction` asks for it once that
check is deployed. -/
def Block.BareCoinbase (env : Env) (block : Block) : Prop :=
  env.areCoinbaseCheckAssetsDeployed = false →
    ∀ tx ∈ block.vtx, tx.isCoinBase = true → tx.Bare

instance (env : Env) (block : Block) : Decidable (block.BareCoinbase env) :=
  inferInstanceAs (Decidable (_ → ∀ tx ∈ block.vtx, _ → _))

section

variable {env : Env} {global : AssetState} {tx : Transaction}

theorem lastScript_of_bare (bare : tx.Bare) (nType : TxnOutType) (fIsOwner : Bool) :
    assetScriptOf nType fIsOwner tx.lastScript = none := by
  by_contra found
  obtain ⟨out, member, isLast⟩ := lastScript_mem (Option.isSome_iff_ne_none.mpr found)
  rw [← isLast] at found
  obtain ⟨n, kind⟩ := Option.ne_none_iff_exists'.mp found
  rw [assetScriptOf_eq_some] at kind
  rw [(bare out member).1] at kind
  cases kind

theorem kinds_of_bare (bare : tx.Bare) :
    tx.isNewAsset env = false ∧ tx.isReissueAsset = false ∧ tx.isNewUniqueAsset env = false ∧
      tx.isNewMsgChannelAsset env = false ∧ tx.isNewQualifierAsset env = false ∧
      tx.isNewRestrictedAsset env = false := by
  have noIssue : isNewAssetScript tx.lastScript = false := by
    rw [isNewAssetScript, isScriptNewAsset, lastScript_of_bare bare]
    rfl
  have noReissue : tx.isReissueAsset = false := by
    rw [isReissueAsset, isReissueAssetScript, isScriptReissueAsset,
      lastScript_of_bare bare]
    rfl
  simp [isNewAsset, isNewUniqueAsset, isNewMsgChannelAsset,
    isNewQualifierAsset, isNewRestrictedAsset, noIssue, noReissue]

theorem kind_of_bare (bare : tx.Bare) : tx.kind env = .plain := by
  obtain ⟨new, reissue, unique, channel, qualifier, restricted⟩ := @kinds_of_bare env tx bare
  simp [kind, new, reissue, unique, channel, qualifier, restricted]

theorem nullChanges_of_bare (bare : tx.Bare) : tx.nullChanges env = [] := by
  refine filterMap_eq_nil_iff.mpr fun out member => ?_
  have notNull := (bare out member).2
  simp only [isNullAsset, Bool.or_eq_false_iff] at notNull
  simp [nullChange, notNull.1.1, notNull.1.2]

theorem addOutputAssets_bare {outs : List TxOut} (bare : ∀ out ∈ outs,
    isAssetScript out.scriptPubKey = none ∧ isNullAsset out.scriptPubKey = false) (n : Nat)
    (cache : AssetsCache) : addOutputAssets env global tx outs n cache = cache := by
  induction outs generalizing n with
  | nil => rfl
  | cons out rest ih =>
    obtain ⟨⟨noAsset, notNull⟩, restBare⟩ := forall_mem_cons.mp bare
    simp only [isNullAsset, Bool.or_eq_false_iff] at notNull
    have kept : (addTransferOutput env global cache ⟨tx.hash, n⟩
        out.scriptPubKey).addNullData env out.scriptPubKey = cache := by
      simp [addTransferOutput, addNullData, getAssetData, noAsset,
        notNull.1.1, notNull.1.2]
    rw [addOutputAssets, kept]
    exact ih restBare (n + 1)

theorem addTransaction_bare (bare : tx.Bare) (cache : AssetsCache) (nHeight : Nat)
    (blockHash : Uint256) :
    cache.addTransaction env global tx nHeight blockHash = (cache, none) := by
  obtain ⟨new, reissue, unique, channel, qualifier, restricted⟩ := @kinds_of_bare env tx bare
  have issues : addIssues env global cache tx nHeight blockHash = (cache, none) := by
    simp [addIssues, new, reissue, unique, channel, qualifier, restricted]
  unfold addTransaction
  simp only [issues, addOutputAssets_bare bare, ite_self]

theorem bare_of_checked (checked : checkTransaction env tx true false true = .ok ())
    (enforced : env.areCoinbaseCheckAssetsDeployed = true) (isCoinbase : tx.isCoinBase = true) :
    tx.Bare := by
  obtain ⟨_, _, stages⟩ := checkTransaction_ok checked
  have prevouts := stages.prevouts
  unfold checkPrevouts at prevouts
  obtain ⟨_, _, prevouts⟩ := bind_eq_ok.mp prevouts
  rw [if_pos isCoinbase] at prevouts
  obtain ⟨_, _, outputs⟩ := bind_eq_ok.mp prevouts
  simpa [Transaction.Bare, enforced] using outputs

theorem Block.BareCoinbase.bare {block : Block} (bare : block.BareCoinbase env)
    (member : tx ∈ block.vtx) (checked : checkTransaction env tx true false true = .ok ())
    (isCoinbase : tx.isCoinBase = true) : tx.Bare := by
  cases enforced : env.areCoinbaseCheckAssetsDeployed with
  | true => exact bare_of_checked checked enforced isCoinbase
  | false => exact bare enforced tx member isCoinbase

end

def IssueStep (env : Env) (global : AssetState) (tx : Transaction) (cache issued : AssetsCache)
    (item : Option (Bytes × BlockAssetUndo)) : Prop :=
  (tx.reissuance env = none ∧ Issued (tx.issueNames env) cache issued ∧ item = none ∧
    issued.restrictions = match tx.issuedVerifier env with
      | some (name, verifier) => cache.restrictions.setVerifier name verifier
      | none => cache.restrictions) ∨
  ∃ reissue address prev, tx.reissuance env = some (reissue, address) ∧
    Reissued global tx reissue prev cache issued item

section

variable {env : Env} {rules : BlockRules} {global : AssetState} {mempool : MempoolMaps}
  {nHeight : Nat} {block : Block} {currentTime : Int} {acc next : Connecting} {tx : Transaction}

/-- A transaction of a connected block, with the cache between its issuance and
its other outputs. -/
structure TxConnected (env : Env) (global : AssetState) (nHeight : Nat) (blockHash : Uint256)
    (tx : Transaction) (acc next : Connecting) (issued : AssetsCache)
    (item : Option (Bytes × BlockAssetUndo)) : Prop where
  valid : ∀ issue ∈ tx.issues env, checkNewAsset issue.1 = .ok () ∧
    (issue.1.nHasIPFS ≠ 0 → issue.1.strIPFSHash ≠ [])
  fresh : ∀ name ∈ tx.issueNames env, acc.view.assets.checkIfAssetExists env global name = false
  step : IssueStep env global tx acc.view.assets issued item
  added : tx.reissuance env = none → ∀ name, issued.setNewAssetsToAdd.lookup name =
    (acc.view.assets.setNewAssetsToAdd.lookup name).or ((tx.issueOf env name).map fun issue =>
      ⟨issue.1, issue.2, nHeight, blockHash⟩)
  records : next.view.assets.records = issued.records
  reissues : next.view.assets.reissues = issued.reissues
  restrictions : next.view.assets.restrictions =
    (tx.nullChanges env).foldl RestrictionLayer.apply issued.restrictions
  undo : next.vUndoAssetData =
    acc.vUndoAssetData ++ item.toList.filter fun item => item.1 ≠ []
  admitted : ∀ change ∈ tx.nullChanges env,
    env.areRestrictedAssetsDeployed = true ∧ Admits global change

theorem spendCoin_layers {view spent : BlockView} {out : OutPoint} {coin : Option Coin}
    {isSpent : Bool} (step : view.spendCoin env global out = (spent, coin, isSpent)) :
    SameLayers view.assets spent.assets := by
  unfold spendCoin at step
  split at step
  · cases step
    exact SameLayers.refl _
  · split at step
    · split at step
      · rename_i assets taken
        cases step
        exact trySpendCoin_layers taken
      · cases step
        exact SameLayers.refl _
    · cases step
      exact SameLayers.refl _

theorem spendInputs_layers {inputs : List TxIn} {view final : BlockView} {coins : List Coin}
    (spent : spendInputs env global inputs view = .ok (final, coins)) :
    SameLayers view.assets final.assets := by
  induction inputs generalizing view coins with
  | nil =>
    cases spent
    exact SameLayers.refl _
  | cons input rest ih =>
    unfold spendInputs at spent
    split at spent
    · rename_i middle coin step
      obtain ⟨⟨final', coins'⟩, tail, spent⟩ := bind_eq_ok.mp spent
      cases pure_eq_ok.mp spent
      exact (spendCoin_layers step).trans (ih tail)
    · cases spent

theorem spendTransaction_layers {view final : BlockView} {coins : List Coin}
    (spent : spendTransaction env global tx view = .ok (final, coins)) :
    SameLayers view.assets final.assets := by
  unfold spendTransaction at spent
  split at spent
  · cases spent
    exact SameLayers.refl _
  · exact spendInputs_layers spent

theorem IssueStep.of_sameLayers {cache spent issued : AssetsCache}
    {item : Option (Bytes × BlockAssetUndo)} (same : SameLayers cache spent)
    (step : IssueStep env global tx spent issued item) :
    IssueStep env global tx cache issued item := by
  rcases step with ⟨noReissue, names, noItem, verifier⟩ | ⟨reissue, address, prev, reissues, made⟩
  · refine .inl ⟨noReissue, (Issued.of_same same.records same.reissues).trans names, noItem, ?_⟩
    rw [verifier, same.restrictions]
  · refine .inr ⟨reissue, address, prev, reissues, ?_⟩
    exact {
      found := (getAssetMetaDataIfExists_records same.records global _).symm.trans made.found
      records := by rw [made.records, same.records]
      dated := by
        obtain ⟨data, address, stored, layer⟩ := made.dated
        exact ⟨data, address, (getAssetMetaData_records same.records global _).symm.trans stored,
          by rw [layer, same.reissues]⟩
      restrictions := by rw [made.restrictions, same.restrictions]
      undone := by
        rw [made.undone, getAssetVerifierStringIfExists_restrictions same.restrictions] }

theorem issueStep_addIssues (notReindexing : env.fReindex = false) (readable : Readable env tx)
    {cache : AssetsCache}
    (fresh : ∀ name ∈ tx.issueNames env, cache.checkIfAssetExists env global name = false)
    (known : ∀ reissue address, tx.reissuance env = some (reissue, address) →
      ∃ prev, cache.getAssetMetaDataIfExists global reissue.strName = some prev)
    (blockHash : Uint256) :
    IssueStep env global tx cache (addIssues env global cache tx nHeight blockHash).1
      (addIssues env global cache tx nHeight blockHash).2 := by
  cases reissues : tx.reissuance env with
  | none =>
    have notReissue : tx.kind env ≠ .reissue := by
      intro kind
      obtain ⟨reissue, address, read⟩ := readable.reissue kind
      simp [reissuance, kind, read] at reissues
    obtain ⟨issued, noItem⟩ := issued_addIssues notReindexing readable reissues
      (fun name member => Fresh.of_absent (fresh name member)) nHeight blockHash
    exact .inl ⟨reissues, issued, noItem, addIssues_restrictions notReissue⟩
  | some made =>
    obtain ⟨reissue, address⟩ := made
    obtain ⟨prev, found⟩ := known reissue address reissues
    exact .inr ⟨reissue, address, prev, reissues, reissued_addIssues reissues found⟩

theorem admitted_of_checkSpending (deployed : env.areAssetsDeployed = true)
    (bare : tx.isCoinBase = true → tx.Bare) {found : Int × List Message}
    (passes : checkSpending env rules global mempool nHeight block currentTime acc tx = .ok found) :
    (∀ issue ∈ tx.issues env, ∃ looksAtPool, contextualCheckNewAsset env global acc.view.assets
        mempool issue.1 looksAtPool = .ok ()) ∧
      (∀ reissue address, tx.reissuance env = some (reissue, address) →
        ∃ prev, acc.view.assets.getAssetMetaDataIfExists global reissue.strName = some prev) ∧
      ∀ change ∈ tx.nullChanges env,
        env.areRestrictedAssetsDeployed = true ∧ Admits global change := by
  unfold checkSpending at passes
  split at passes
  · rename_i coinbase
    simp [issues, nullChanges_of_bare (bare coinbase), reissuance,
      kind_of_bare (bare coinbase)]
  · obtain ⟨_, _, _, _, _, checked, _⟩ := ok_bind₃ passes
    unfold checkDeployedAssets at checked
    rw [if_pos deployed] at checked
    obtain ⟨outputs, accepted, _⟩ := bind_eq_ok.mp checked
    obtain ⟨inputs, _, _, outputsChecked, kind, _⟩ := checkTxAssets_ok accepted
    refine ⟨?_, fun _ _ => checkTxAssetsKind_known kind, ?_⟩
    · intro issue member
      obtain ⟨looksAtPool, checkedIssue, _⟩ := checkTxAssetsKind_issues kind issue member
      exact ⟨looksAtPool, checkedIssue⟩
    intro change member
    obtain ⟨out, inOutputs, made⟩ := mem_filterMap.mp member
    obtain ⟨_, _, visited⟩ := foldlM_visits outputsChecked inOutputs
    unfold checkAssetOutput at visited
    obtain ⟨_, _, _, null, _⟩ := ok_bind₂ visited
    exact admits_of_checkNullAssetOutput null made

theorem readable_of_checked (checked : checkTransaction env tx true false true = .ok ()) :
    Readable env tx := by
  obtain ⟨_, _, stages⟩ := checkTransaction_ok checked
  have kind := stages.kind
  exact readable_of_kind kind

theorem updateCoins_ok {view : BlockView} {blockHash : Uint256} {updated : BlockView.Updated}
    (updates : updateCoins env global tx view nHeight blockHash = .ok updated) :
    ∃ spent, spendTransaction env global tx view = .ok (spent, updated.vprevout) ∧
      updated.view = ⟨spent.coins.addOutputs tx nHeight tx.vout 0,
        (spent.assets.addTransaction env global tx nHeight blockHash).1⟩ ∧
      updated.undo = (spent.assets.addTransaction env global tx nHeight blockHash).2 := by
  unfold updateCoins at updates
  obtain ⟨⟨spent, vprevout⟩, spends, updates⟩ := bind_eq_ok.mp updates
  refine ⟨spent, ?_⟩
  dsimp only at updates
  generalize spent.assets.addTransaction env global tx nHeight blockHash = added at updates ⊢
  obtain ⟨assets, undo⟩ := added
  obtain rfl := pure_eq_ok.mp updates
  exact ⟨spends, rfl, rfl⟩

variable (deployed : env.areAssetsDeployed = true)

include deployed

theorem addTransaction_deployed (global : AssetState)
    (cache : AssetsCache) (tx : Transaction) (nHeight : Nat) (blockHash : Uint256) :
    cache.addTransaction env global tx nHeight blockHash =
      (addOutputAssets env global tx tx.vout 0 (addIssues env global cache tx nHeight blockHash).1,
        (addIssues env global cache tx nHeight blockHash).2) := by
  rw [addTransaction, if_pos deployed]

variable (notReindexing : env.fReindex = false)

include notReindexing

theorem connectTx_connected (checked : checkTransaction env tx true false true = .ok ())
    (bare : tx.isCoinBase = true → tx.Bare)
    (passes : connectTx env rules global mempool nHeight block currentTime acc tx = .ok next) :
    ∃ issued item, TxConnected env global nHeight block.hash tx acc next issued item := by
  unfold connectTx at passes
  obtain ⟨found, spending, _, _, _, _, passes⟩ := ok_bind₃ passes
  obtain ⟨updated, updates, passes⟩ := bind_eq_ok.mp passes
  have result := pure_eq_ok.mp passes
  obtain ⟨spent, spends, view, undo⟩ := updateCoins_ok updates
  rw [addTransaction_deployed deployed] at view undo
  obtain ⟨issues, known, admitted⟩ := admitted_of_checkSpending deployed bare spending
  have fresh : ∀ name ∈ tx.issueNames env,
      acc.view.assets.checkIfAssetExists env global name = false := by
    intro name member
    obtain ⟨issue, inIssues, rfl⟩ := mem_map.mp member
    obtain ⟨_, issueChecked⟩ := issues issue inIssues
    exact contextualCheckNewAsset_fresh issueChecked
  have same := spendTransaction_layers spends
  have freshSpent : ∀ name ∈ tx.issueNames env,
      spent.assets.checkIfAssetExists env global name = false := fun name member =>
    (checkIfAssetExists_records same.records env global name).trans (fresh name member)
  have step : IssueStep env global tx spent.assets
      (addIssues env global spent.assets tx nHeight block.hash).1
      (addIssues env global spent.assets tx nHeight block.hash).2 := by
    refine issueStep_addIssues notReindexing (readable_of_checked checked) freshSpent ?_ block.hash
    intro reissue address reissues
    rw [getAssetMetaDataIfExists_records same.records]
    exact known reissue address reissues
  obtain ⟨records, reissues, restrictions⟩ := addOutputAssets_layers env global tx tx.vout 0
    (addIssues env global spent.assets tx nHeight block.hash).1
  exact ⟨_, _, {
    valid := fun issue member => by
      obtain ⟨_, issueChecked⟩ := issues issue member
      exact contextualCheckNewAsset_valid issueChecked
    fresh := fresh
    step := step.of_sameLayers same
    added := fun noReissue name => by
      rw [← (sets_of_records same.records).2.1]
      exact addIssues_added notReindexing (readable_of_checked checked) noReissue
        (fun other member => Fresh.of_absent (freshSpent other member)) nHeight block.hash name
    records := by rw [← result, view, records]
    reissues := by rw [← result, view, reissues]
    restrictions := by
      rw [← result, view, restrictions]
      rfl
    undo := by rw [← result, undo]
    admitted := admitted }⟩

theorem connectTxs_scan {txs : List Transaction}
    (checked : ∀ tx ∈ txs, checkTransaction env tx true false true = .ok ())
    (bare : block.BareCoinbase env) (inBlock : ∀ tx ∈ txs, tx ∈ block.vtx)
    {start final : Connecting}
    (passes : txs.foldlM (connectTx env rules global mempool nHeight block currentTime) start =
      .ok final) (Inv : List Transaction → AssetsCache → List (Bytes × BlockAssetUndo) → Prop)
    (initial : Inv [] start.view.assets start.vUndoAssetData)
    (step : ∀ pre tx post acc next issued item, txs = pre ++ tx :: post →
      checkTransaction env tx true false true = .ok () →
      TxConnected env global nHeight block.hash tx acc next issued item →
      Inv pre acc.view.assets acc.vUndoAssetData →
      Inv (pre ++ [tx]) next.view.assets next.vUndoAssetData) :
    Inv txs final.view.assets final.vUndoAssetData := by
  refine foldlM_scan (fun pre acc => Inv pre acc.view.assets acc.vUndoAssetData) passes initial ?_
  intro pre tx post acc next split connects holds
  have member : tx ∈ txs := split ▸ mem_append_right pre mem_cons_self
  obtain ⟨issued, item, made⟩ := connectTx_connected deployed notReindexing (checked tx member)
    (bare.bare (inBlock tx member) (checked tx member)) connects
  exact step pre tx post acc next issued item split (checked tx member) made holds

end

variable {env : Env} {global : AssetState} {nHeight : Nat} {block : Block}
  {vtxundo : List (List Coin)} {vUndoData : List (Bytes × BlockAssetUndo)}

/-- A transaction of a disconnected block, with the cache between its issuance and
its other outputs. -/
structure TxDisconnected (env : Env) (global : AssetState)
    (vUndoData : List (Bytes × BlockAssetUndo)) (tx : Transaction)
    (cache next issues : AssetsCache) : Prop where
  undone : undoIssues env global vUndoData cache tx = .ok issues
  records : next.records = issues.records
  reissues : next.reissues = issues.reissues
  restrictions : next.restrictions = if env.areRestrictedAssetsDeployed then
    (tx.nullChanges env).foldl RestrictionLayer.revert issues.restrictions
    else issues.restrictions

theorem disconnectBlock_scan (deployed : env.areAssetsDeployed = true) {view : BlockView}
    {disconnected : Disconnected}
    (passes : disconnectBlock env global nHeight block vtxundo vUndoData view = .ok disconnected)
    (Inv : List Transaction → AssetsCache → Prop) (initial : Inv [] view.assets)
    (step : ∀ pre tx post cache next issues, block.vtx = pre ++ tx :: post →
      TxDisconnected env global vUndoData tx cache next issues →
      Inv post cache → Inv (tx :: post) next) : Inv block.vtx disconnected.view.assets := by
  unfold disconnectBlock at passes
  obtain ⟨_, sizes, final, looped, passes⟩ := ok_bind₂ passes
  obtain rfl := pure_eq_ok.mp passes
  rw [require_eq_ok, decide_eq_true_eq] at sizes
  have firsts : (block.vtx.zip (none :: vtxundo.map some)).map Prod.fst = block.vtx :=
    map_fst_zip (by simp; omega)
  have scanned := foldlM_scan
    (fun visited (acc : Disconnecting) => Inv (visited.reverse.map Prod.fst) acc.assets) looped
    initial ?_
  · rwa [reverse_reverse, firsts] at scanned
  · intro pre entry post acc next split undoes holds
    have order : block.vtx =
        post.reverse.map Prod.fst ++ entry.1 :: pre.reverse.map Prod.fst := by
      rw [← firsts, ← reverse_reverse (block.vtx.zip _), split]
      simp
    obtain ⟨issues, undone, records, reissues, restrictions⟩ := disconnectTx_layers deployed undoes
    rw [reverse_append, reverse_singleton, singleton_append, map_cons]
    exact step _ entry.1 _ acc.assets next.assets issues order
      ⟨undone, records, reissues, restrictions⟩ holds

end Phicoin
