import Phicoin.Changes

/-! # What disconnecting takes back

`DisconnectBlock` withdraws the assets a transaction issued, undoes its reissue
with the undo data of the block and reverts its tags and freezes; the balances it
changes on the way are no concern of the layers. -/

namespace Phicoin

open Check KeyedMap AssetsCache List Option Transaction RecordLayer

section

variable {env : Env} {global : AssetState} {tx : Transaction}
  {vUndoData : List (Bytes × BlockAssetUndo)}

theorem undoIssues_eq (env : Env) (global : AssetState) (vUndoData : List (Bytes × BlockAssetUndo))
    (cache : AssetsCache) (tx : Transaction) :
    undoIssues env global vUndoData cache tx =
      match tx.kind env with
      | .issue => do
          let (asset, address) ← require? (assetFromScript env tx.lastScript)
            "Failed to get asset from transaction"
          let (ownerName, ownerAddress) ← require? (tx.ownerFromTransaction env)
            "Failed to get owner from transaction"
          return (undoNewAsset env global cache asset address).removeOwnerAsset env ownerName
            ownerAddress
      | .reissue => do
          let (reissue, address) ← require? (reissueAssetFromScript env tx.lastScript)
            "Failed to get reissue asset from transaction"
          undoReissue env global vUndoData cache reissue address tx.reissueOut
      | .unique => tx.vout.foldlM (fun acc out =>
        if isScriptNewUniqueAsset env out.scriptPubKey then do
          let (asset, address) ← require? (assetFromScript env out.scriptPubKey)
            "Failed to get unique asset from transaction"
          return undoNewAsset env global acc asset address
        else pure acc) cache
      | .msgChannel => do
          let (asset, address) ← require? (assetFromScript env tx.lastScript)
            "Failed to get msgchannel asset from transaction"
          return undoNewAsset env global cache asset address
      | .qualifier => do
          let (asset, address) ← require? (assetFromScript env tx.lastScript)
            "Failed to get qualifier asset from transaction"
          return undoNewAsset env global cache asset address
      | .restricted => do
          let (asset, address) ← require? (assetFromScript env tx.lastScript)
            "Failed to get restricted asset from transaction"
          let script ← require? (lastVerifierScript env tx)
            "Failed to find the restricted asset verifier string index from trasaction"
          let verifier ← require? (assetNullVerifierDataFromScript script)
            "Failed to get the restricted asset verifier string from trasaction"
          return (undoNewAsset env global cache asset address).removeRestrictedVerifier
            asset.strName verifier false
      | .plain => .ok cache := by
  unfold undoIssues kind
  split_ifs with issue reissue unique channel qualifier restricted
  · simp only [assetFromTransaction, issue, if_true]
  · simp only [reissueAssetFromTransaction, reissue, if_true]
    rfl
  · rfl
  · rw [msgChannelAssetFromTransaction_eq channel]
  · rw [qualifierAssetFromTransaction_eq qualifier]
  · rw [restrictedAssetFromTransaction_eq restricted]
  · rfl

end

/-- The cache after names were withdrawn: they are removals and no additions. -/
structure Withdrawn (names : List Bytes) (cache next : AssetsCache) : Prop where
  added : ∀ name, next.setNewAssetsToAdd.lookup name =
    if name ∈ names then none else cache.setNewAssetsToAdd.lookup name
  kept : ∀ name, name ∉ names →
    next.setNewAssetsToRemove.lookup name = cache.setNewAssetsToRemove.lookup name
  removed : ∀ name ∈ names, (next.setNewAssetsToRemove.lookup name).isSome
  reissued : next.mapReissuedAssetData = cache.mapReissuedAssetData
  reissues : next.reissues = cache.reissues
  named : cache.Named → next.Named

namespace Withdrawn

variable {names more : List Bytes} {a b c : AssetsCache}

theorem of_same (records : b.records = a.records) (reissues : b.reissues = a.reissues) :
    Withdrawn [] a b where
  added name := by
    rw [if_neg List.not_mem_nil]
    exact congrArg (fun layer => layer.added.lookup name) records
  kept name _ := congrArg (fun layer => layer.removed.lookup name) records
  removed name absent := by cases absent
  reissued := congrArg RecordLayer.reissued records
  reissues := reissues
  named named := named.of_records records

theorem trans (first : Withdrawn names a b) (second : Withdrawn more b c) :
    Withdrawn (names ++ more) a c where
  added name := by
    rw [second.added, first.added]
    by_cases inMore : name ∈ more <;> simp [inMore]
  kept name absent := by
    rw [mem_append, not_or] at absent
    rw [second.kept name absent.2, first.kept name absent.1]
  removed name present := by
    by_cases inMore : name ∈ more
    · exact second.removed name inMore
    · rw [second.kept name inMore]
      exact first.removed name ((mem_append.mp present).resolve_right inMore)
  reissued := second.reissued.trans first.reissued
  reissues := second.reissues.trans first.reissues
  named named := second.named (first.named named)

end Withdrawn

section

variable {env : Env} {global : AssetState} {cache next : AssetsCache} {tx : Transaction}
  {vUndoData : List (Bytes × BlockAssetUndo)}

def Live (env : Env) (global : AssetState) (cache : AssetsCache) (name : Bytes) : Prop :=
  cache.checkIfAssetExists env global name = true ∨
    ((cache.setNewAssetsToRemove.lookup name).isSome ∧ cache.setNewAssetsToAdd.lookup name = none)

theorem withdrawn_undoNewAsset {asset : NewAsset} (live : Live env global cache asset.strName)
    (address : Bytes) :
    Withdrawn [asset.strName] cache (undoNewAsset env global cache asset address) := by
  unfold undoNewAsset
  cases result : cache.removeNewAsset env global asset address with
  | none =>
    have absent : ¬ cache.checkIfAssetExists env global asset.strName = true := by
      intro present
      simp [removeNewAsset, present] at result
    obtain ⟨gone, notAdded⟩ := live.resolve_left absent
    rw [getD_none]
    refine { added := ?_, kept := fun _ _ => rfl, removed := ?_, reissued := rfl, reissues := rfl,
             named := id }
    · intro name
      split
      · rename_i member
        rw [mem_singleton.mp member, notAdded]
      · rfl
    · intro name member
      rw [mem_singleton.mp member]
      exact gone
  | some next =>
    obtain ⟨_, records, reissues, _⟩ := removeNewAsset_eq_some result
    obtain ⟨removedEq, addedEq, reissued⟩ := sets_of_withdraw records
    rw [getD_some]
    refine { added := ?_, kept := ?_, removed := ?_, reissues := reissues, reissued := reissued,
             named := ?_ }
    · intro name
      rw [addedEq, lookup_erase_ite]
      simp only [mem_singleton]
    · intro name absent
      rw [removedEq, lookup_insertNew, if_neg (by simpa using absent)]
    · intro name member
      rw [removedEq, lookup_insertNew, if_pos (mem_singleton.mp member)]
      rfl
    · intro named
      refine ⟨?_, ?_⟩
      · intro name entry found
        rw [addedEq, lookup_erase_ite] at found
        split at found
        · cases found
        · exact named.added name entry found
      · intro name record found
        exact named.reissued name record
          ((congrArg (fun layer => layer.reissued.lookup name) records).symm.trans found)

theorem Live.of_withdrawn (notReindexing : env.fReindex = false) {names : List Bytes} {name : Bytes}
    (live : Live env global cache name) (withdrawn : Withdrawn names cache next) :
    Live env global next name := by
  by_cases member : name ∈ names
  · exact .inr ⟨withdrawn.removed name member, by rw [withdrawn.added, if_pos member]⟩
  · rcases live with present | gone
    · refine .inl ?_
      rw [checkIfAssetExists_iff notReindexing] at present ⊢
      rwa [withdrawn.kept name member, withdrawn.added, if_neg member]
    · refine .inr ?_
      rwa [withdrawn.kept name member, withdrawn.added, if_neg member]

theorem undoNewAsset_restrictions (env : Env) (global : AssetState) (cache : AssetsCache)
    (asset : NewAsset) (address : Bytes) :
    (undoNewAsset env global cache asset address).restrictions = cache.restrictions := by
  unfold undoNewAsset
  cases result : cache.removeNewAsset env global asset address with
  | none => rw [getD_none]
  | some next => exact (removeNewAsset_eq_some result).2.2.2

theorem withdrawn_foldlM_unique (notReindexing : env.fReindex = false) {outs : List TxOut}
    (live : ∀ issue ∈ outs.filterMap (uniqueIssue env), Live env global cache issue.1.strName)
    (undone : outs.foldlM (fun acc out => if isScriptNewUniqueAsset env out.scriptPubKey then do
        let (asset, address) ← require? (assetFromScript env out.scriptPubKey)
          "Failed to get unique asset from transaction"
        return undoNewAsset env global acc asset address
      else pure acc) cache = (.ok next : Check AssetsCache)) :
    Withdrawn ((outs.filterMap (uniqueIssue env)).map fun issue => issue.1.strName)
      cache next ∧ next.restrictions = cache.restrictions := by
  induction outs generalizing cache with
  | nil =>
    obtain rfl := pure_eq_ok.mp undone
    exact ⟨Withdrawn.of_same rfl rfl, rfl⟩
  | cons out rest ih =>
    obtain ⟨middle, head, tail⟩ := foldlM_cons_eq_ok.mp undone
    by_cases unique : isScriptNewUniqueAsset env out.scriptPubKey = true
    · obtain ⟨asset, address, read, _⟩ := isScriptNewUniqueAsset_iff.mp unique
      have issue : uniqueIssue env out = some (asset, address) := by
        simp [uniqueIssue, unique, read]
      rw [filterMap_cons_some issue] at live ⊢
      simp only [unique, if_true, read, require?, bind, Except.bind, pure, Except.pure,
        Except.ok.injEq] at head
      subst head
      have withdrawn := withdrawn_undoNewAsset (live _ mem_cons_self) address
      obtain ⟨rest, restrictions⟩ := ih (fun issue member =>
        (live issue (mem_cons_of_mem _ member)).of_withdrawn notReindexing withdrawn) tail
      exact ⟨withdrawn.trans rest,
        restrictions.trans (undoNewAsset_restrictions env global cache asset address)⟩
    · have issue : uniqueIssue env out = none := by
        simp [uniqueIssue, unique]
      rw [filterMap_cons_none issue] at live ⊢
      rw [if_neg unique] at head
      obtain rfl := pure_eq_ok.mp head
      exact ih live tail

def Transaction.withdrawnVerifier (env : Env) (tx : Transaction) : Option (Bytes × Bytes) :=
  match tx.kind env with
  | .restricted => (lastVerifierScript env tx).map fun script =>
    (((assetFromScript env tx.lastScript).getD (NewAsset.null, [])).1.strName,
      (assetNullVerifierDataFromScript script).getD [])
  | _ => none

theorem withdrawn_undoIssues (notReindexing : env.fReindex = false)
    (noReissue : tx.kind env ≠ .reissue)
    (live : ∀ name ∈ tx.issueNames env, Live env global cache name)
    (undone : undoIssues env global vUndoData cache tx = .ok next) :
    Withdrawn (tx.issueNames env) cache next ∧
      next.restrictions = match tx.withdrawnVerifier env with
        | some (name, verifier) => cache.restrictions.unsetVerifier name ⟨verifier, false⟩
        | none => cache.restrictions := by
  rw [undoIssues_eq] at undone
  unfold issueNames issues at live ⊢
  unfold withdrawnVerifier
  cases kind : tx.kind env with
  | reissue => exact absurd kind noReissue
  | plain =>
    rw [kind] at undone
    cases undone
    exact ⟨Withdrawn.of_same rfl rfl, rfl⟩
  | unique =>
    simp only [kind] at undone live ⊢
    exact withdrawn_foldlM_unique notReindexing
      (fun issue member => live _ (mem_map_of_mem member)) undone
  | issue =>
    simp only [kind] at undone live ⊢
    obtain ⟨⟨asset, address⟩, read, undone⟩ := bind_eq_ok.mp undone
    obtain ⟨⟨ownerName, ownerAddress⟩, _, undone⟩ := bind_eq_ok.mp undone
    rw [require?_eq_ok] at read
    obtain rfl := pure_eq_ok.mp undone
    simp only [read, toList_some, map_cons, map_nil] at live ⊢
    have owner := removeOwnerAsset_layers env (undoNewAsset env global cache asset address)
      ownerName ownerAddress
    exact ⟨(withdrawn_undoNewAsset (live _ mem_cons_self) address).trans
        (Withdrawn.of_same owner.records owner.reissues),
      owner.restrictions.trans (undoNewAsset_restrictions env global cache asset address)⟩
  | msgChannel | qualifier =>
    simp only [kind] at undone live ⊢
    obtain ⟨⟨asset, address⟩, read, undone⟩ := bind_eq_ok.mp undone
    rw [require?_eq_ok] at read
    obtain rfl := pure_eq_ok.mp undone
    simp only [read, toList_some, map_cons, map_nil] at live ⊢
    exact ⟨withdrawn_undoNewAsset (live _ mem_cons_self) address,
      undoNewAsset_restrictions env global cache asset address⟩
  | restricted =>
    simp only [kind] at undone live ⊢
    obtain ⟨⟨asset, address⟩, read, undone⟩ := bind_eq_ok.mp undone
    obtain ⟨script, last, verifier, readVerifier, undone⟩ := ok_bind₂ undone
    rw [require?_eq_ok] at read last readVerifier
    obtain rfl := pure_eq_ok.mp undone
    simp only [read, toList_some, map_cons, map_nil] at live ⊢
    refine ⟨(withdrawn_undoNewAsset (live _ mem_cons_self) address).trans
      (Withdrawn.of_same rfl rfl), ?_⟩
    simp only [last, map_some, readVerifier, getD_some]
    exact congrArg (fun layer : RestrictionLayer => layer.unsetVerifier asset.strName
      ⟨verifier, false⟩) (undoNewAsset_restrictions env global cache asset address)

structure Unreissued (global : AssetState) (vUndoData : List (Bytes × BlockAssetUndo))
    (tx : Transaction) (reissue : ReissueAsset) (prev : NewAsset) (cache next : AssetsCache) :
    Prop where
  found : cache.getAssetMetaDataIfExists global reissue.strName = some prev
  records : next.records = cache.records.reissue prev.strName
    (prev.undoReissue reissue (firstUndo vUndoData reissue.strName))
  dated : ∃ data address, cache.getAssetMetaData global reissue.strName = some data ∧
    next.reissues = cache.reissues.undo tx.reissueOut
      ⟨reissue, address, data.nHeight, data.blockHash⟩
  restrictions : next.restrictions =
    cache.restrictions.undoVerifier prev.strName (firstUndo vUndoData reissue.strName)

theorem Unreissued.reissues {reissue : ReissueAsset} {prev : NewAsset}
    (undone : Unreissued global vUndoData tx reissue prev cache next) :
    ∃ entry, entry.reissue = reissue ∧ next.reissues = cache.reissues.undo tx.reissueOut entry := by
  obtain ⟨data, address, _, layer⟩ := undone.dated
  exact ⟨_, rfl, layer⟩

theorem unreissued_undoIssues {reissue : ReissueAsset} {address : Bytes}
    (reissues : tx.reissuance env = some (reissue, address))
    (undone : undoIssues env global vUndoData cache tx = .ok next) :
    (cache.checkIfAssetExists env global reissue.strName = true ∧
      ∃ prev, Unreissued global vUndoData tx reissue prev cache next) ∨
    (cache.checkIfAssetExists env global reissue.strName = false ∧ next = cache) := by
  rw [undoIssues_eq] at undone
  simp only [kind_of_reissuance reissues, read_of_reissuance reissues, require?, bind,
    Except.bind] at undone
  unfold undoReissue at undone
  split at undone
  · rename_i present
    rw [require?_eq_ok] at undone
    obtain ⟨prev, found, records, ⟨data, stored, layer⟩, restrictions⟩ :=
      removeReissueAsset_eq_some undone
    exact .inl ⟨present, prev, found, records, ⟨data, address, stored, layer⟩, restrictions⟩
  · rename_i absent
    cases undone
    exact .inr ⟨by simpa using absent, rfl⟩

end

section

variable {env : Env} {global : AssetState} {cache next : AssetsCache} {tx : Transaction}

theorem undoTransfers_layers {outs : List TxOut} {n : Nat}
    (undone : undoTransfers env global tx outs n cache = .ok next) : SameLayers cache next := by
  induction outs generalizing n cache with
  | nil =>
    cases undone
    exact SameLayers.refl _
  | cons out rest ih =>
    unfold undoTransfers at undone
    split at undone
    · obtain ⟨⟨transfer, address⟩, _, undone⟩ := bind_eq_ok.mp undone
      obtain ⟨removed, taken, undone⟩ := bind_eq_ok.mp undone
      rw [require?_eq_ok] at taken
      exact (removeTransfer_layers taken).trans (ih undone)
    · exact ih undone

theorem isUnspendable_of_phiAsset {script : Bytes} (nonempty : 0 < script.length)
    (starts : byteAt script 0 = opPhiAsset) : isUnspendable script = true := by
  simp [isUnspendable, nonempty, starts]

theorem isUnspendable_of_isNullAsset {script : Bytes} (null : isNullAsset script = true) :
    isUnspendable script = true := by
  simp only [isNullAsset, isNullAssetTxDataScript, isNullGlobalRestrictionAssetTxDataScript,
    isNullAssetVerifierTxDataScript, Bool.or_eq_true, Bool.and_eq_true, decide_eq_true_eq] at null
  rcases null with (⟨⟨long, starts⟩, _⟩ | ⟨⟨⟨long, starts⟩, _⟩, _⟩) | ⟨⟨⟨long, starts⟩, _⟩, _⟩
  all_goals exact isUnspendable_of_phiAsset (by omega) starts

theorem undoNullData_layers {out : TxOut} (undone : undoNullData env cache out = .ok next) :
    next.records = cache.records ∧ next.reissues = cache.reissues ∧ next.restrictions =
        (nullChange env out.scriptPubKey).elim cache.restrictions cache.restrictions.revert := by
  unfold undoNullData at undone
  dsimp only at undone
  split at undone
  · -- no change without a null-asset output
    rename_i other
    cases undone
    have notNull : isNullAsset out.scriptPubKey = false := by
      by_contra null
      rw [Bool.not_eq_false] at null
      simp [null, isUnspendable_of_isNullAsset null] at other
    simp only [isNullAsset, Bool.or_eq_false_iff] at notNull
    simp [nullChange, notNull.1.1, notNull.1.2]
  · unfold nullChange
    split at undone
    · rename_i isData
      obtain ⟨⟨data, address⟩, read, undone⟩ := bind_eq_ok.mp undone
      rw [require?_eq_ok] at read
      obtain rfl := pure_eq_ok.mp undone
      simp only [isData, if_true, read, getD_some]
      by_cases restricted : assetNameType data.assetName = .restricted
      · simp only [restricted, reduceCtorEq, decide_false, Bool.or_self, Bool.false_eq_true, if_false,
          if_true]
        exact ⟨rfl, rfl, rfl⟩
      · rw [if_neg restricted, if_neg restricted]
        split
        · exact removeQualifierAddress_layers cache _ _ _
        · exact ⟨rfl, rfl, rfl⟩
    · rename_i notData
      rw [if_neg notData]
      split at undone
      · rename_i isGlobal
        obtain ⟨data, read, undone⟩ := bind_eq_ok.mp undone
        rw [require?_eq_ok] at read
        obtain rfl := pure_eq_ok.mp undone
        rw [if_pos isGlobal, read]
        exact ⟨rfl, rfl, rfl⟩
      · rename_i notGlobal
        cases undone
        rw [if_neg notGlobal]
        exact ⟨rfl, rfl, rfl⟩

theorem undoNulls_layers (undone : undoNulls env tx cache = .ok next) :
    next.records = cache.records ∧ next.reissues = cache.reissues ∧
      next.restrictions = if env.areRestrictedAssetsDeployed then
        (tx.nullChanges env).foldl RestrictionLayer.revert cache.restrictions
        else cache.restrictions := by
  unfold undoNulls at undone
  split at undone
  · rename_i deployed
    rw [if_pos deployed]
    unfold nullChanges
    generalize tx.vout = outs at undone ⊢
    induction outs generalizing cache with
    | nil =>
      obtain rfl := pure_eq_ok.mp undone
      exact ⟨rfl, rfl, rfl⟩
    | cons out rest ih =>
      obtain ⟨middle, head, tail⟩ := foldlM_cons_eq_ok.mp undone
      obtain ⟨records, reissues, restrictions⟩ := undoNullData_layers head
      obtain ⟨recordsRest, reissuesRest, restrictionsRest⟩ := ih tail
      refine ⟨recordsRest.trans records, reissuesRest.trans reissues, restrictionsRest.trans ?_⟩
      rw [restrictions, filterMap_cons]
      cases nullChange env out.scriptPubKey <;> rfl
  · rename_i inactive
    cases undone
    rw [if_neg inactive]
    exact ⟨rfl, rfl, rfl⟩

end

variable {env : Env} {global : AssetState} {nHeight : Nat} {tx : Transaction}
  {vUndoData : List (Bytes × BlockAssetUndo)} {acc next : Disconnecting}

theorem spendOutputs_assets (env : Env) (global : AssetState) (nHeight : Nat) (tx : Transaction)
    (outs : List TxOut) (n : Nat) (acc : Disconnecting) :
    (spendOutputs env global nHeight tx outs n acc).assets = acc.assets := by
  induction outs generalizing n acc with
  | nil => rfl
  | cons out rest ih =>
    rw [spendOutputs, ih]
    unfold spendOutput
    split <;> rfl

theorem applyTxInUndo_layers {undo : Coin} {out : OutPoint}
    (applied : applyTxInUndo env global acc undo out = .ok next) :
    SameLayers acc.assets next.assets := by
  unfold applyTxInUndo at applied
  obtain ⟨restored, _, applied⟩ := bind_eq_ok.mp applied
  obtain rfl := pure_eq_ok.mp applied
  split
  · split
    · rename_i assets undone
      exact undoAssetCoin_layers undone
    · exact SameLayers.refl _
  · exact SameLayers.refl _

theorem restoreInputs_layers {vprevout : List Coin}
    (restored : restoreInputs env global tx vprevout acc = .ok next) :
    SameLayers acc.assets next.assets := by
  unfold restoreInputs at restored
  obtain ⟨_, _, restored⟩ := bind_eq_ok.mp restored
  exact foldlM_invariant (fun state => SameLayers acc.assets state.assets) restored
    (SameLayers.refl _) fun state pair next _ step same => same.trans (applyTxInUndo_layers step)

theorem disconnectTx_layers (deployed : env.areAssetsDeployed = true)
    {entry : Transaction × Option (List Coin)}
    (undone : disconnectTx env global nHeight vUndoData acc entry = .ok next) :
    ∃ issues, undoIssues env global vUndoData acc.assets entry.1 = .ok issues ∧
      next.assets.records = issues.records ∧ next.assets.reissues = issues.reissues ∧
      next.assets.restrictions = if env.areRestrictedAssetsDeployed then
        (entry.1.nullChanges env).foldl RestrictionLayer.revert issues.restrictions
        else issues.restrictions := by
  unfold disconnectTx at undone
  obtain ⟨assets, taken, undone⟩ := bind_eq_ok.mp undone
  have same : SameLayers assets next.assets := by
    split at undone
    · exact restoreInputs_layers undone
    · obtain rfl := pure_eq_ok.mp undone
      exact SameLayers.refl _
  rw [spendOutputs_assets, undoTransaction, if_pos deployed] at taken
  obtain ⟨issues, issuesUndone, transfers, transfersUndone, taken⟩ := ok_bind₂ taken
  have transferred := undoTransfers_layers transfersUndone
  obtain ⟨records, reissues, restrictions⟩ := undoNulls_layers taken
  refine ⟨issues, issuesUndone, same.records.trans (records.trans transferred.records),
    same.reissues.trans (reissues.trans transferred.reissues), ?_⟩
  rw [same.restrictions, restrictions, transferred.restrictions]

end Phicoin
