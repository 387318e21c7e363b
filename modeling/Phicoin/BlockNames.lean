import Phicoin.BlockEffects

/-! # The names of a block

What a block's cache says of the names its transactions issue and reissue: while
the block is connected, after the first transactions, and while it is
disconnected, after the last ones. -/

namespace Phicoin

open KeyedMap AssetsCache

def issuedBy (env : Env) (txs : List Transaction) : List Bytes :=
  txs.flatMap (Transaction.issuedNames env)

theorem mem_issuedBy_cons {env : Env} {tx : Transaction} {txs : List Transaction} {name : Bytes} :
    name ∈ issuedBy env (tx :: txs) ↔ name ∈ tx.issuedNames env ∨ name ∈ issuedBy env txs := by
  simp [issuedBy]

theorem mem_issuedBy_append {env : Env} {txs more : List Transaction} {name : Bytes} :
    name ∈ issuedBy env (txs ++ more) ↔ name ∈ issuedBy env txs ∨ name ∈ issuedBy env more := by
  simp [issuedBy]

/-- The cache of a block after some of its transactions: the names they issued,
and the reissues they made. -/
structure Issuing (env : Env) (txs : List Transaction) (cache : AssetsCache) : Prop where
  removed : ∀ name, cache.setNewAssetsToRemove.lookup name = none
  added : ∀ name, (cache.setNewAssetsToAdd.lookup name).isSome ↔ name ∈ issuedBy env txs
  named : cache.Named
  undone : ∀ out, cache.setNewReissueToRemove.lookup out = none
  made : ∀ out entry, cache.setNewReissueToAdd.lookup out = some entry →
    ∃ tx ∈ txs, ∃ address, tx.reissuance env = some (entry.reissue, address) ∧ tx.reissueOut = out

namespace Issuing

variable {env : Env} {global : AssetState} {txs : List Transaction} {cache : AssetsCache}
  {tx : Transaction} {acc next : Connecting} {issued : AssetsCache}
  {item : Option (Bytes × BlockAssetUndo)} {nHeight : Nat} {blockHash : Uint256}

theorem empty (env : Env) : Issuing env [] .empty where
  removed _ := rfl
  added name := by simp [issuedBy, AssetsCache.empty]
  named := Named.empty
  undone _ := rfl
  made _ _ found := by cases found

theorem made_mono {txs' : List Transaction} (issuing : Issuing env txs cache)
    (subset : ∀ tx ∈ txs, tx ∈ txs') {out : OutPoint} {entry : CachedReissue}
    (found : cache.setNewReissueToAdd.lookup out = some entry) :
    ∃ tx ∈ txs', ∃ address, tx.reissuance env = some (entry.reissue, address) ∧
      tx.reissueOut = out := by
  obtain ⟨tx, member, address, reissues, ofTx⟩ := issuing.made out entry found
  exact ⟨tx, subset tx member, address, reissues, ofTx⟩

theorem step (stored : NamedState global) (issuing : Issuing env txs acc.view.assets)
    (checked : checkTransaction env tx true false true = .ok ())
    (made : TxConnected env global nHeight blockHash tx acc next issued item) :
    Issuing env (txs ++ [tx]) next.view.assets := by
  have names : issuedBy env (txs ++ [tx]) = issuedBy env txs ++ tx.issuedNames env := by
    simp [issuedBy]
  obtain ⟨_, _, stages⟩ := checkTransaction_ok checked
  have kind := stages.kind
  rcases made.step with ⟨_, issues, _, _⟩ | ⟨reissue, address, prev, reissues, reissued⟩
  · exact {
      removed := fun name => by
        rw [(sets_of_records made.records).1, issues.removed]
        split
        · rfl
        · exact issuing.removed name
      added := fun name => by
        rw [(sets_of_records made.records).2.1, names, List.mem_append, ← issuing.added,
          ← mem_issueNames_iff kind]
        by_cases member : name ∈ tx.issueNames env
        · simp [member, issues.added name member]
        · simp [member, issues.kept name member]
      named := (issues.named issuing.named).of_records made.records
      undone := fun out => by
        rw [show next.view.assets.setNewReissueToRemove = acc.view.assets.setNewReissueToRemove from
          congrArg ReissueLayer.removed (made.reissues.trans issues.reissues)]
        exact issuing.undone out
      made := fun out entry found => by
        rw [show next.view.assets.setNewReissueToAdd = acc.view.assets.setNewReissueToAdd from
          congrArg ReissueLayer.added (made.reissues.trans issues.reissues)] at found
        exact issuing.made_mono (fun _ => List.mem_append_left _) found }
  · have records := made.records.trans reissued.records
    obtain ⟨entry, ofReissue, layer⟩ := reissued.reissues
    have layers := made.reissues.trans layer
    have ownName : (prev.applyReissue reissue).strName = reissue.strName :=
      show prev.strName = _ from issuing.named.metadata stored reissued.found
    exact {
      removed := fun name => by
        rw [(sets_of_reissue records).1, issuing.removed name]
      added := fun name => by
        rw [(sets_of_reissue records).2.1, names, List.mem_append, ← issuing.added,
          ← mem_issueNames_iff kind, issueNames_of_reissuance reissues]
        simp
      named := issuing.named.reissue ownName records
      undone := fun out => by
        rw [show next.view.assets.setNewReissueToRemove =
          acc.view.assets.setNewReissueToRemove.erase tx.reissueOut from
          congrArg ReissueLayer.removed layers, lookup_erase_ite]
        split
        · rfl
        · exact issuing.undone out
      made := fun out found lookup => by
        rw [show next.view.assets.setNewReissueToAdd =
          insertNew tx.reissueOut entry acc.view.assets.setNewReissueToAdd from
          congrArg ReissueLayer.added layers] at lookup
        rcases lookup_of_insertNew lookup with earlier | ⟨same, rfl⟩
        · exact issuing.made_mono (fun _ => List.mem_append_left _) earlier
        · refine ⟨tx, List.mem_append_right _ List.mem_cons_self, address, ?_, same.symm⟩
          rw [ofReissue, reissues] }

end Issuing

def reissuesOf (env : Env) (name : Bytes) (txs : List Transaction) : List ReissueAsset :=
  txs.filterMap fun tx =>
    match tx.reissuance env with
    | some (reissue, _) => if reissue.strName = name then some reissue else none
    | none => none

variable {env : Env} {global : AssetState} {vUndoData : List (Bytes × BlockAssetUndo)}
  {txs : List Transaction} {tx : Transaction} {cache next issues : AssetsCache}
  {use : RestrictedUse} {name : Bytes}

theorem reissuesOf_cons_none (noReissue : tx.reissuance env = none) :
    reissuesOf env name (tx :: txs) = reissuesOf env name txs := by
  simp [reissuesOf, noReissue]

theorem reissuesOf_cons_some {reissue : ReissueAsset} {address : Bytes}
    (reissues : tx.reissuance env = some (reissue, address)) : reissuesOf env name (tx :: txs) =
      if reissue.strName = name then reissue :: reissuesOf env name txs
      else reissuesOf env name txs := by
  by_cases same : reissue.strName = name <;> simp [reissuesOf, reissues, same]

/-- What taking back a transaction makes of the cache with its issuance or reissue. -/
def UndoStep (env : Env) (global : AssetState) (vUndoData : List (Bytes × BlockAssetUndo))
    (tx : Transaction) (cache issues : AssetsCache) : Prop :=
  (tx.reissuance env = none ∧ Withdrawn (tx.issueNames env) cache issues ∧
    issues.restrictions = match tx.withdrawnVerifier env with
      | some (name, verifier) => cache.restrictions.unsetVerifier name ⟨verifier, false⟩
      | none => cache.restrictions) ∨
  ∃ reissue address, tx.reissuance env = some (reissue, address) ∧
    ((cache.checkIfAssetExists env global reissue.strName = true ∧
        ∃ prev, Unreissued global vUndoData tx reissue prev cache issues) ∨
      (cache.checkIfAssetExists env global reissue.strName = false ∧ issues = cache))

theorem undoStep_of_undone (notReindexing : env.fReindex = false)
    (kind : checkTransactionKind env tx = .ok use)
    (added : ∀ name, cache.setNewAssetsToAdd.lookup name = none)
    (recorded : ∀ name ∈ tx.issuedNames env,
      global.passets.setNewAssetsToRemove.lookup name = none ∧ Recorded global name)
    (undone : undoIssues env global vUndoData cache tx = .ok issues) :
    UndoStep env global vUndoData tx cache issues := by
  cases reissues : tx.reissuance env with
  | none =>
    have noReissue : tx.kind env ≠ .reissue := by
      intro isReissue
      obtain ⟨reissue, address, read⟩ := (readable_of_kind kind).reissue isReissue
      simp [Transaction.reissuance, isReissue, read] at reissues
    have live : ∀ name ∈ tx.issueNames env, Live env global cache name := by
      intro name issued
      obtain ⟨kept, known⟩ := recorded name ((mem_issueNames_iff kind).mp issued)
      cases gone : cache.setNewAssetsToRemove.lookup name with
      | none => exact .inl ((checkIfAssetExists_iff notReindexing).mpr ⟨gone, kept, .inr known⟩)
      | some entry => exact .inr ⟨by rw [gone]; rfl, added name⟩
    obtain ⟨withdrawn, restrictions⟩ := withdrawn_undoIssues notReindexing noReissue live undone
    exact .inl ⟨reissues, withdrawn, restrictions⟩
  | some read =>
    obtain ⟨reissue, address⟩ := read
    exact .inr ⟨reissue, address, reissues, unreissued_undoIssues reissues undone⟩

/-- The cache of a block that is being disconnected after some of its last
transactions: the names they issued are withdrawn, and only names they reissued
have a new record. -/
structure Undoing (env : Env) (txs : List Transaction) (cache : AssetsCache) : Prop where
  added : ∀ name, cache.setNewAssetsToAdd.lookup name = none
  removed : ∀ name, (cache.setNewAssetsToRemove.lookup name).isSome ↔ name ∈ issuedBy env txs
  named : cache.Named
  reissued : ∀ name, reissuesOf env name txs = [] → cache.mapReissuedAssetData.lookup name = none

namespace Undoing

theorem empty (env : Env) : Undoing env [] .empty where
  added _ := rfl
  removed name := by simp [issuedBy, AssetsCache.empty]
  named := Named.empty
  reissued _ _ := rfl

theorem step (stored : NamedState global) (kind : checkTransactionKind env tx = .ok use)
    (undoing : Undoing env txs cache) (undo : UndoStep env global vUndoData tx cache issues)
    (records : next.records = issues.records) : Undoing env (tx :: txs) next := by
  obtain ⟨removed, added, reissued⟩ := sets_of_records records
  rcases undo with ⟨noReissue, withdrawn, _⟩ | ⟨reissue, address, reissues, undo⟩
  · refine ⟨?_, ?_, (withdrawn.named undoing.named).of_records records, ?_⟩
    · intro name
      rw [added, withdrawn.added]
      split
      · rfl
      · exact undoing.added name
    · intro name
      rw [removed, mem_issuedBy_cons, ← undoing.removed, ← mem_issueNames_iff kind]
      by_cases member : name ∈ tx.issueNames env
      · simp [member, withdrawn.removed name member]
      · simp [member, withdrawn.kept name member]
    · intro name none
      rw [reissuesOf_cons_none noReissue] at none
      rw [reissued, withdrawn.reissued, undoing.reissued name none]
  · have names : ∀ name, name ∈ issuedBy env (tx :: txs) ↔ name ∈ issuedBy env txs := by
      intro name
      rw [mem_issuedBy_cons, ← mem_issueNames_iff kind, issueNames_of_reissuance reissues]
      simp
    rcases undo with ⟨_, prev, undone⟩ | ⟨_, same⟩
    · have ownName : prev.strName = reissue.strName := undoing.named.metadata stored undone.found
      have layer := records.trans undone.records
      refine ⟨?_, ?_, undoing.named.reissue (undoReissue_strName ..) layer, ?_⟩
      · intro name
        exact (congrArg (fun layer => layer.added.lookup name) layer).trans (undoing.added name)
      · intro name
        rw [(sets_of_reissue layer).1, names, undoing.removed]
      · intro name none
        rw [reissuesOf_cons_some reissues] at none
        split at none
        · cases none
        · rename_i other
          rw [(sets_of_reissue layer).2.2, lookup_insert_ite, ownName,
            if_neg (Ne.symm other), undoing.reissued name none]
    · subst same
      refine ⟨?_, ?_, undoing.named.of_records records, ?_⟩
      · intro name
        rw [added, undoing.added name]
      · intro name
        rw [removed, names, undoing.removed]
      · intro name none
        rw [reissuesOf_cons_some reissues] at none
        split at none
        · cases none
        · rw [reissued, undoing.reissued name none]

end Undoing

end Phicoin
