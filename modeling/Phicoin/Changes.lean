import Phicoin.Issuance
import Phicoin.Layers

/-! # What a transaction changes

`AddCoins`, `DisconnectBlock` and the checks choose by the same questions, in the
same order, what kind of asset transaction they have.  The kind fixes the assets
a transaction issues and the one it reissues; this module reads the changes that
connecting and disconnecting make to the layers of a cache off these. -/

namespace Phicoin

open KeyedMap AssetsCache List Option Transaction RestrictionLayer

namespace Transaction

variable (env : Env) (tx : Transaction)

def uniqueIssue (out : TxOut) : Option (NewAsset × Bytes) :=
  if isScriptNewUniqueAsset env out.scriptPubKey then assetFromScript env out.scriptPubKey else none

def issues : List (NewAsset × Bytes) :=
  match tx.kind env with
  | .issue | .msgChannel | .qualifier | .restricted => (assetFromScript env tx.lastScript).toList
  | .unique => tx.vout.filterMap (uniqueIssue env)
  | .reissue | .plain => []

def issueNames : List Bytes := (tx.issues env).map fun issue => issue.1.strName

def issueOf (name : Bytes) : Option (NewAsset × Bytes) :=
  (tx.issues env).find? fun issue => issue.1.strName = name

def reissuance : Option (ReissueAsset × Bytes) :=
  match tx.kind env with
  | .reissue => reissueAssetFromScript env tx.lastScript
  | _ => none

def issuedVerifier : Option (Bytes × Bytes) :=
  match tx.kind env with
  | .restricted => (firstVerifier tx).map fun verifier =>
    (((assetFromScript env tx.lastScript).getD (NewAsset.null, [])).1.strName, verifier.getD [])
  | _ => none

def changedVerifier (name : Bytes) : Option Bytes :=
  if assetNameType name = .restricted then (firstVerifier tx).join else none

def reissueOut : OutPoint := ⟨tx.hash, tx.vout.length - 1⟩

end Transaction

variable {tx : Transaction} {made : ReissueAsset × Bytes}

section

variable {env : Env} (reissues : tx.reissuance env = some made)

include reissues

theorem kind_of_reissuance : tx.kind env = .reissue := by
  unfold reissuance at reissues
  split at reissues
  · assumption
  · cases reissues

theorem read_of_reissuance :
    reissueAssetFromScript env tx.lastScript = some made := by
  simpa [reissuance, kind_of_reissuance reissues] using reissues

theorem issueNames_of_reissuance : tx.issueNames env = [] := by
  simp [issueNames, issues, kind_of_reissuance reissues]

end

section

variable {env : Env} {global : AssetState} {cache : AssetsCache} {tx : Transaction}
  {nHeight : Nat} {blockHash : Uint256}

theorem assetFromScript_of_kind {accepted : AssetType → Bool}
    (isNew : isScriptNewAssetOf accepted env tx.lastScript = true) :
    ∃ asset address, assetFromScript env tx.lastScript = some (asset, address) := by
  obtain ⟨asset, address, _, read, _, _⟩ := isScriptNewAssetOf_iff.mp isNew
  exact ⟨asset, address, read⟩

theorem msgChannelAssetFromTransaction_eq (channel : tx.isNewMsgChannelAsset env = true) :
    tx.msgChannelAssetFromTransaction env = assetFromScript env tx.lastScript := by
  rw [msgChannelAssetFromTransaction, if_pos channel, msgChannelAssetFromScript,
    if_pos ((Bool.and_eq_true _ _).mp channel).2]

theorem qualifierAssetFromTransaction_eq (qualifier : tx.isNewQualifierAsset env = true) :
    tx.qualifierAssetFromTransaction env = assetFromScript env tx.lastScript := by
  rw [qualifierAssetFromTransaction, if_pos qualifier, qualifierAssetFromScript,
    if_pos ((Bool.and_eq_true _ _).mp qualifier).2]

theorem restrictedAssetFromTransaction_eq (restricted : tx.isNewRestrictedAsset env = true) :
    tx.restrictedAssetFromTransaction env = assetFromScript env tx.lastScript := by
  rw [restrictedAssetFromTransaction, if_pos restricted, restrictedAssetFromScript,
    if_pos ((Bool.and_eq_true _ _).mp restricted).2]

theorem addIssues_eq (env : Env) (global : AssetState) (cache : AssetsCache) (tx : Transaction)
    (nHeight : Nat) (blockHash : Uint256) :
    addIssues env global cache tx nHeight blockHash =
      match tx.kind env with
      | .issue =>
        let (ownerName, ownerAddress) := (tx.ownerFromTransaction env).getD ([], [])
        ((tryAddNewAsset env global cache (assetFromScript env tx.lastScript) nHeight
          blockHash).addOwnerAsset env ownerName ownerAddress, none)
      | .reissue => addReissue env global cache tx
      | .unique =>
        (tx.vout.foldl (fun acc out =>
          if isScriptNewUniqueAsset env out.scriptPubKey then
            tryAddNewAsset env global acc (assetFromScript env out.scriptPubKey) nHeight blockHash
          else acc) cache, none)
      | .msgChannel | .qualifier =>
        (tryAddNewAsset env global cache (assetFromScript env tx.lastScript) nHeight blockHash, none)
      | .restricted =>
        let issue := assetFromScript env tx.lastScript
        let issued := tryAddNewAsset env global cache issue nHeight blockHash
        (match firstVerifier tx with
          | some verifier => issued.addRestrictedVerifier
              (issue.getD (NewAsset.null, [])).1.strName (verifier.getD [])
          | none => issued, none)
      | .plain => (cache, none) := by
  unfold addIssues kind
  split_ifs with issue reissue unique channel qualifier restricted
  · simp [assetFromTransaction, issue]
  · rfl
  · rfl
  · rw [msgChannelAssetFromTransaction_eq channel]
  · rw [qualifierAssetFromTransaction_eq qualifier]
  · rewrite [restrictedAssetFromTransaction_eq restricted]
    rfl
  · rfl

end

/-- The cache after names were issued: they are additions and no removals. -/
structure Issued (names : List Bytes) (cache next : AssetsCache) : Prop where
  removed : ∀ name, next.setNewAssetsToRemove.lookup name =
    if name ∈ names then none else cache.setNewAssetsToRemove.lookup name
  kept : ∀ name, name ∉ names →
    next.setNewAssetsToAdd.lookup name = cache.setNewAssetsToAdd.lookup name
  added : ∀ name ∈ names, (next.setNewAssetsToAdd.lookup name).isSome
  reissued : next.mapReissuedAssetData = cache.mapReissuedAssetData
  reissues : next.reissues = cache.reissues
  named : cache.Named → next.Named

namespace Issued

variable {names more : List Bytes} {a b c : AssetsCache}

theorem of_same (records : b.records = a.records) (reissues : b.reissues = a.reissues) :
    Issued [] a b where
  removed name := by
    rw [if_neg List.not_mem_nil]
    exact congrArg (fun layer => layer.removed.lookup name) records
  kept name _ := congrArg (fun layer => layer.added.lookup name) records
  added name absent := by cases absent
  reissued := congrArg RecordLayer.reissued records
  reissues := reissues
  named named := named.of_records records

theorem trans (first : Issued names a b) (second : Issued more b c) :
    Issued (names ++ more) a c where
  removed name := by
    rw [second.removed, first.removed]
    by_cases inMore : name ∈ more <;> simp [inMore]
  kept name absent := by
    rw [mem_append, not_or] at absent
    rw [second.kept name absent.2, first.kept name absent.1]
  added name present := by
    by_cases inMore : name ∈ more
    · exact second.added name inMore
    · rw [second.kept name inMore]
      exact first.added name ((mem_append.mp present).resolve_right inMore)
  reissued := second.reissued.trans first.reissued
  reissues := second.reissues.trans first.reissues
  named named := second.named (first.named named)

end Issued

section

variable {env : Env} {global : AssetState} {cache : AssetsCache} {tx : Transaction}
  {nHeight : Nat} {blockHash : Uint256}

/-- A name that may be issued: what makes it exist is at most an issuance in the
same cache. -/
def Fresh (env : Env) (global : AssetState) (cache : AssetsCache) (name : Bytes) : Prop :=
  cache.checkIfAssetExists env global name = true → (cache.setNewAssetsToAdd.lookup name).isSome

theorem Fresh.of_absent {name : Bytes}
    (absent : cache.checkIfAssetExists env global name = false) : Fresh env global cache name := by
  intro present
  rw [absent] at present
  cases present

theorem issued_tryAddNewAsset (notReindexing : env.fReindex = false) {asset : NewAsset}
    (fresh : Fresh env global cache asset.strName) (address : Bytes) (nHeight : Nat)
    (blockHash : Uint256) : Issued [asset.strName] cache
      (tryAddNewAsset env global cache (some (asset, address)) nHeight blockHash) := by
  unfold tryAddNewAsset
  simp only [getD_some]
  cases result : cache.addNewAsset env global asset address nHeight blockHash with
  | none =>
    -- the asset exists already, by an issuance in this cache
    have present : cache.checkIfAssetExists env global asset.strName = true := by
      by_contra absent
      simp [addNewAsset, absent] at result
    have notRemoved := (checkIfAssetExists_iff notReindexing).mp present
    rw [getD_none]
    refine { removed := ?_, kept := fun _ _ => rfl, added := ?_, reissued := rfl, reissues := rfl,
             named := id }
    · intro name
      split
      · rename_i member
        rw [mem_singleton.mp member, notRemoved.1]
      · rfl
    · intro name member
      rw [mem_singleton.mp member]
      exact fresh present
  | some next =>
    obtain ⟨_, records, reissues, _⟩ := addNewAsset_eq_some result
    obtain ⟨removedEq, addedEq, reissued⟩ := sets_of_issue records
    rw [getD_some]
    refine { removed := ?_, kept := ?_, added := ?_, reissues := reissues, reissued := reissued,
             named := ?_ }
    · intro name
      rw [removedEq, lookup_erase_ite]
      simp only [mem_singleton]
    · intro name absent
      rw [addedEq, lookup_insertNew, if_neg (by simpa using absent)]
    · intro name member
      rw [addedEq, lookup_insertNew, if_pos (mem_singleton.mp member)]
      rfl
    · intro named
      refine ⟨?_, ?_⟩
      · intro name entry found
        rw [addedEq] at found
        rcases lookup_of_insertNew found with earlier | ⟨rfl, rfl⟩
        · exact named.added name entry earlier
        · rfl
      · intro name record found
        exact named.reissued name record
          ((congrArg (fun layer => layer.reissued.lookup name) records).symm.trans found)

theorem tryAddNewAsset_added {issue : NewAsset × Bytes}
    (fresh : Fresh env global cache issue.1.strName) :
    (tryAddNewAsset env global cache (some issue) nHeight blockHash).setNewAssetsToAdd.lookup
        issue.1.strName = some ((cache.setNewAssetsToAdd.lookup issue.1.strName).getD
        ⟨issue.1, issue.2, nHeight, blockHash⟩) := by
  unfold tryAddNewAsset
  simp only [getD_some]
  cases result : cache.addNewAsset env global issue.1 issue.2 nHeight blockHash with
  | none =>
    have present : cache.checkIfAssetExists env global issue.1.strName = true := by
      by_contra absent
      simp [addNewAsset, absent] at result
    obtain ⟨entry, found⟩ := isSome_iff_exists.mp (fresh present)
    rw [getD_none, found, getD_some]
  | some next =>
    obtain ⟨_, records, _⟩ := addNewAsset_eq_some result
    rw [getD_some, (sets_of_issue records).2.1, lookup_insertNew, if_pos rfl]

theorem Fresh.of_issued (notReindexing : env.fReindex = false) {names : List Bytes}
    {next : AssetsCache} {name : Bytes} (fresh : Fresh env global cache name)
    (issued : Issued names cache next) : Fresh env global next name := by
  intro present
  by_cases member : name ∈ names
  · exact issued.added name member
  · rw [checkIfAssetExists_iff notReindexing, issued.removed, if_neg member,
      issued.kept name member, ← checkIfAssetExists_iff notReindexing] at present
    rw [issued.kept name member]
    exact fresh present

def issueAll (env : Env) (global : AssetState) (nHeight : Nat) (blockHash : Uint256)
    (issues : List (NewAsset × Bytes)) (cache : AssetsCache) : AssetsCache :=
  issues.foldl (fun acc issue => tryAddNewAsset env global acc (some issue) nHeight blockHash) cache

theorem issued_issueAll (notReindexing : env.fReindex = false) (issues : List (NewAsset × Bytes))
    (fresh : ∀ issue ∈ issues, Fresh env global cache issue.1.strName) :
    Issued (issues.map fun issue => issue.1.strName) cache
      (issueAll env global nHeight blockHash issues cache) := by
  induction issues generalizing cache with
  | nil => exact Issued.of_same rfl rfl
  | cons issue rest ih =>
    have issued := issued_tryAddNewAsset notReindexing (fresh issue mem_cons_self) issue.2
      nHeight blockHash
    refine issued.trans (ih fun later member => ?_)
    exact (fresh later (mem_cons_of_mem _ member)).of_issued notReindexing issued

theorem foldl_unique_eq_issueAll (outs : List TxOut) : outs.foldl (fun acc out =>
      if isScriptNewUniqueAsset env out.scriptPubKey then
        tryAddNewAsset env global acc (assetFromScript env out.scriptPubKey) nHeight blockHash
      else acc) cache =
      issueAll env global nHeight blockHash (outs.filterMap (uniqueIssue env)) cache := by
  rw [issueAll, foldl_filterMap]
  congr 1
  funext acc out
  by_cases unique : isScriptNewUniqueAsset env out.scriptPubKey = true
  · obtain ⟨asset, address, read, _⟩ := isScriptNewUniqueAsset_iff.mp unique
    simp [uniqueIssue, unique, read]
  · simp [uniqueIssue, unique]

/-- The issuance of a transaction can be read, where its kind alone does not say so. -/
structure Readable (env : Env) (tx : Transaction) : Prop where
  issue : tx.kind env = .issue → ∃ asset address,
    assetFromScript env tx.lastScript = some (asset, address)
  reissue : tx.kind env = .reissue → ∃ reissue address,
    reissueAssetFromScript env tx.lastScript = some (reissue, address)

theorem Readable.single (readable : Readable env tx)
    (kind : tx.kind env = .issue ∨ tx.kind env = .msgChannel ∨ tx.kind env = .qualifier ∨
      tx.kind env = .restricted) :
    ∃ asset address, assetFromScript env tx.lastScript = some (asset, address) := by
  rcases kind with issue | other
  · exact readable.issue issue
  · unfold kind at other
    split_ifs at other with _ _ _ channel qualifier restricted
    all_goals first | (rcases other with wrong | wrong | wrong <;> cases wrong; done) | skip
    · exact assetFromScript_of_kind ((Bool.and_eq_true _ _).mp channel).2
    · exact assetFromScript_of_kind ((Bool.and_eq_true _ _).mp qualifier).2
    · exact assetFromScript_of_kind ((Bool.and_eq_true _ _).mp restricted).2

theorem addIssues_issueAll (readable : Readable env tx) (noReissue : tx.reissuance env = none)
    (global : AssetState) (cache : AssetsCache) (nHeight : Nat) (blockHash : Uint256) :
    (addIssues env global cache tx nHeight blockHash).1.records =
        (issueAll env global nHeight blockHash (tx.issues env) cache).records ∧
      (addIssues env global cache tx nHeight blockHash).1.reissues =
        (issueAll env global nHeight blockHash (tx.issues env) cache).reissues ∧
      (addIssues env global cache tx nHeight blockHash).2 = none := by
  have effect := addIssues_eq env global cache tx nHeight blockHash
  unfold issues
  cases kind : tx.kind env with
  | reissue =>
    obtain ⟨reissue, address, read⟩ := readable.reissue kind
    simp [reissuance, kind, read] at noReissue
  | plain =>
    rw [effect, kind]
    exact ⟨rfl, rfl, rfl⟩
  | unique =>
    rw [effect, kind]
    simp only
    rw [foldl_unique_eq_issueAll]
    exact ⟨rfl, rfl, trivial⟩
  | issue =>
    obtain ⟨asset, address, read⟩ := readable.single (.inl kind)
    have owner := addOwnerAsset_layers env
      (tryAddNewAsset env global cache (some (asset, address)) nHeight blockHash)
      ((tx.ownerFromTransaction env).getD ([], [])).1 ((tx.ownerFromTransaction env).getD ([], [])).2
    rw [effect, kind, read]
    exact ⟨owner.records, owner.reissues, rfl⟩
  | msgChannel =>
    obtain ⟨asset, address, read⟩ := readable.single (.inr (.inl kind))
    rw [effect, kind, read]
    exact ⟨rfl, rfl, rfl⟩
  | qualifier =>
    obtain ⟨asset, address, read⟩ := readable.single (.inr (.inr (.inl kind)))
    rw [effect, kind, read]
    exact ⟨rfl, rfl, rfl⟩
  | restricted =>
    obtain ⟨asset, address, read⟩ := readable.single (.inr (.inr (.inr kind)))
    rw [effect, kind, read]
    cases firstVerifier tx <;> exact ⟨rfl, rfl, rfl⟩

theorem issued_addIssues (notReindexing : env.fReindex = false) (readable : Readable env tx)
    (noReissue : tx.reissuance env = none)
    (fresh : ∀ name ∈ tx.issueNames env, Fresh env global cache name) (nHeight : Nat)
    (blockHash : Uint256) :
    Issued (tx.issueNames env) cache (addIssues env global cache tx nHeight blockHash).1 ∧
      (addIssues env global cache tx nHeight blockHash).2 = none := by
  obtain ⟨records, reissues, noItem⟩ :=
    addIssues_issueAll readable noReissue global cache nHeight blockHash
  have issued : Issued (tx.issueNames env) cache
      (issueAll env global nHeight blockHash (tx.issues env) cache) :=
    issued_issueAll notReindexing (tx.issues env)
      fun issue member => fresh _ (mem_map_of_mem member)
  have whole := issued.trans (Issued.of_same records reissues)
  rw [append_nil] at whole
  exact ⟨whole, noItem⟩

theorem tryAddNewAsset_restrictions (env : Env) (global : AssetState) (cache : AssetsCache)
    (issue : Option (NewAsset × Bytes)) (nHeight : Nat) (blockHash : Uint256) :
    (tryAddNewAsset env global cache issue nHeight blockHash).restrictions = cache.restrictions := by
  unfold tryAddNewAsset
  obtain ⟨asset, address⟩ := issue.getD (NewAsset.null, [])
  dsimp only
  cases result : cache.addNewAsset env global asset address nHeight blockHash with
  | none => rw [getD_none]
  | some next => exact (addNewAsset_eq_some result).2.2.2

theorem issueAll_restrictions (issues : List (NewAsset × Bytes)) (cache : AssetsCache) :
    (issueAll env global nHeight blockHash issues cache).restrictions = cache.restrictions := by
  induction issues generalizing cache with
  | nil => rfl
  | cons issue rest ih =>
    exact (ih _).trans
      (tryAddNewAsset_restrictions env global cache (some issue) nHeight blockHash)

theorem issueAll_added (notReindexing : env.fReindex = false) (issues : List (NewAsset × Bytes))
    (fresh : ∀ issue ∈ issues, Fresh env global cache issue.1.strName) (name : Bytes) :
    (issueAll env global nHeight blockHash issues cache).setNewAssetsToAdd.lookup name =
      (cache.setNewAssetsToAdd.lookup name).or
        ((issues.find? fun issue => issue.1.strName = name).map fun issue =>
          ⟨issue.1, issue.2, nHeight, blockHash⟩) := by
  induction issues generalizing cache with
  | nil => exact (or_none).symm
  | cons issue rest ih =>
    have head := fresh issue mem_cons_self
    have issued := issued_tryAddNewAsset notReindexing head issue.2 nHeight blockHash
    have tail := ih fun later member =>
      (fresh later (mem_cons_of_mem _ member)).of_issued notReindexing issued
    refine tail.trans ?_
    by_cases same : issue.1.strName = name
    · subst same
      rw [find?_cons_of_pos (by simp)]
      rw [tryAddNewAsset_added head]
      cases cache.setNewAssetsToAdd.lookup issue.1.strName <;> rfl
    · rw [find?_cons_of_neg (by simpa using same),
        issued.kept name (by simpa using Ne.symm same)]

theorem addIssues_added (notReindexing : env.fReindex = false) (readable : Readable env tx)
    (noReissue : tx.reissuance env = none)
    (fresh : ∀ name ∈ tx.issueNames env, Fresh env global cache name) (nHeight : Nat)
    (blockHash : Uint256) (name : Bytes) :
    (addIssues env global cache tx nHeight blockHash).1.setNewAssetsToAdd.lookup name =
      (cache.setNewAssetsToAdd.lookup name).or ((tx.issueOf env name).map fun issue =>
        ⟨issue.1, issue.2, nHeight, blockHash⟩) := by
  obtain ⟨records, _, _⟩ := addIssues_issueAll readable noReissue global cache nHeight blockHash
  refine (congrArg (fun layer => layer.added.lookup name) records).trans ?_
  exact issueAll_added notReindexing (tx.issues env)
    (fun issue member => fresh _ (mem_map_of_mem member)) name

theorem addIssues_restrictions (noReissue : tx.kind env ≠ .reissue) :
    (addIssues env global cache tx nHeight blockHash).1.restrictions =
      match tx.issuedVerifier env with
      | some (name, verifier) => cache.restrictions.setVerifier name verifier
      | none => cache.restrictions := by
  have issued := tryAddNewAsset_restrictions env global cache (assetFromScript env tx.lastScript)
    nHeight blockHash
  rw [addIssues_eq]
  unfold issuedVerifier
  cases kind : tx.kind env with
  | reissue => exact absurd kind noReissue
  | plain => rfl
  | unique =>
    simp only
    rw [foldl_unique_eq_issueAll, issueAll_restrictions]
  | issue => exact (addOwnerAsset_layers env _ _ _).restrictions.trans issued
  | msgChannel => exact issued
  | qualifier => exact issued
  | restricted =>
    cases firstVerifier tx with
    | none => exact issued
    | some verifier => exact congrArg (fun layer : RestrictionLayer => layer.setVerifier
        ((assetFromScript env tx.lastScript).getD (NewAsset.null, [])).1.strName
        (verifier.getD [])) issued

def leavesUndo (reissue : ReissueAsset) (verifier : Option Bytes) : Bool :=
  reissue.strIPFSHash ≠ [] || reissue.nUnits ≠ -1 || verifier.isSome

/-- The undo item of a reissue: what the record and the verifier string were. -/
def undoItem (prev : NewAsset) (reissue : ReissueAsset) (oldVerifier : Option Bytes) :
    BlockAssetUndo where
  fChangedIPFS := reissue.strIPFSHash ≠ []
  fChangedUnits := reissue.nUnits ≠ -1
  strIPFS := prev.strIPFSHash
  nUnits := prev.units
  fChangedVerifierString := oldVerifier.isSome
  verifierString := oldVerifier.getD []

theorem reissueVerifier_eq (global : AssetState) (cache : AssetsCache) (asset : NewAsset)
    (tx : Transaction) : (reissueVerifier global cache asset tx).1.records = cache.records ∧
      (reissueVerifier global cache asset tx).1.reissues = cache.reissues ∧
      (reissueVerifier global cache asset tx).1.restrictions =
        cache.restrictions.changeVerifier asset.strName (tx.changedVerifier asset.strName) ∧
      (reissueVerifier global cache asset tx).2 = (tx.changedVerifier asset.strName).map fun _ =>
        (cache.getAssetVerifierStringIfExists global asset.strName false).getD [] := by
  unfold reissueVerifier changedVerifier
  split
  · cases first : firstVerifier tx with
    | none => exact ⟨rfl, rfl, rfl, rfl⟩
    | some verifier => cases verifier <;> exact ⟨rfl, rfl, rfl, rfl⟩
  · exact ⟨rfl, rfl, rfl, rfl⟩

/-- What a transaction that reissues leaves in the cache, and its undo item. -/
structure Reissued (global : AssetState) (tx : Transaction) (reissue : ReissueAsset)
    (prev : NewAsset) (cache next : AssetsCache) (undo : Option (Bytes × BlockAssetUndo)) :
    Prop where
  found : cache.getAssetMetaDataIfExists global reissue.strName = some prev
  records : next.records = cache.records.reissue reissue.strName (prev.applyReissue reissue)
  dated : ∃ data address, cache.getAssetMetaData global reissue.strName = some data ∧
    next.reissues = cache.reissues.make tx.reissueOut
      ⟨reissue, address, data.nHeight, data.blockHash⟩
  restrictions : next.restrictions =
    cache.restrictions.changeVerifier prev.strName (tx.changedVerifier prev.strName)
  undone : undo = if leavesUndo reissue (tx.changedVerifier prev.strName) then
      some (reissue.strName, undoItem prev reissue ((tx.changedVerifier prev.strName).map fun _ =>
        (cache.getAssetVerifierStringIfExists global prev.strName false).getD []))
    else none

theorem Reissued.reissues {reissue : ReissueAsset} {prev : NewAsset} {next : AssetsCache}
    {undo : Option (Bytes × BlockAssetUndo)}
    (reissued : Reissued global tx reissue prev cache next undo) :
    ∃ entry, entry.reissue = reissue ∧ next.reissues = cache.reissues.make tx.reissueOut entry := by
  obtain ⟨data, address, _, layer⟩ := reissued.dated
  exact ⟨_, rfl, layer⟩

theorem reissued_addIssues {reissue : ReissueAsset} {address : Bytes} {prev : NewAsset}
    (reissues : tx.reissuance env = some (reissue, address))
    (found : cache.getAssetMetaDataIfExists global reissue.strName = some prev) :
    Reissued global tx reissue prev cache (addIssues env global cache tx nHeight blockHash).1
      (addIssues env global cache tx nHeight blockHash).2 := by
  have kind := kind_of_reissuance reissues
  have read : tx.reissueAssetFromTransaction env = some (reissue, address) := by
    rw [reissueAssetFromTransaction, if_pos (isReissueAsset_of_kind kind),
      read_of_reissuance reissues]
  rw [addIssues_eq, kind]
  simp only [addReissue, read, getD_some, found]
  cases added : cache.addReissueAsset env global reissue address ⟨tx.hash, tx.vout.length - 1⟩ with
  | none =>
    simp only [getAssetMetaDataIfExists, map_eq_some_iff] at found
    obtain ⟨data, stored, _⟩ := found
    simp [addReissueAsset, stored] at added
  | some next =>
    obtain ⟨same, foundAgain, records, reissueLayer, restrictions⟩ := addReissueAsset_eq_some added
    rw [found] at foundAgain
    cases foundAgain
    obtain ⟨recordsV, reissuesV, restrictionsV, oldV⟩ := reissueVerifier_eq global next prev tx
    obtain ⟨data, stored, reissueLayer⟩ := reissueLayer
    simp only [getD_some]
    refine { found := found, records := recordsV.trans records,
             dated := ⟨data, address, stored, reissuesV.trans reissueLayer⟩,
             restrictions := ?_, undone := ?_ }
    · rw [restrictionsV, restrictions]
    · rw [oldV, getAssetVerifierStringIfExists_restrictions restrictions]
      simp only [leavesUndo, undoItem, isSome_map]

end

inductive NullChange where
  | tag (name address : Bytes) (type : QualifierType)
  | freeze (name address : Bytes) (type : RestrictedType)
  | freezeAll (name : Bytes) (type : RestrictedType)

def nullChange (env : Env) (script : Bytes) : Option NullChange :=
  if isNullAssetTxDataScript script then
    let (data, address) := (assetNullDataFromScript env script).getD (NullAssetTxData.null, [])
    let type := assetNameType data.assetName
    if type = .restricted then
      some (.freeze data.assetName address
        (if data.flag ≠ 0 then .freezeAddress else .unfreezeAddress))
    else if type = .qualifier || type = .subQualifier then
      some (.tag data.assetName address (if data.flag ≠ 0 then .addQualifier else .removeQualifier))
    else none
  else if isNullGlobalRestrictionAssetTxDataScript script then
    let data := (globalAssetNullDataFromScript script).getD NullAssetTxData.null
    some (.freezeAll data.assetName (if data.flag ≠ 0 then .globalFreeze else .globalUnfreeze))
  else none

def Transaction.nullChanges (env : Env) (tx : Transaction) : List NullChange :=
  tx.vout.filterMap fun out => nullChange env out.scriptPubKey

namespace RestrictionLayer

variable (layer : RestrictionLayer)

def trackRoot (name address : Bytes) (assigned : Bool) : RestrictionLayer :=
  if isAssetNameASubQualifier name then
    let key := (getParentName name, address)
    if assigned then { layer with
      rootsAdded := updateRoot layer.rootsAdded key (setInsert name)
      rootsRemoved := updateRoot layer.rootsRemoved key (setErase name) }
    else { layer with
      rootsRemoved := updateRoot layer.rootsRemoved key (setInsert name)
      rootsAdded := updateRoot layer.rootsAdded key (setErase name) }
  else layer

def apply : NullChange → RestrictionLayer
  | .tag name address type =>
    let tracked := layer.trackRoot name address (type = .addQualifier)
    { tracked with
      qualifierRemoved := tracked.qualifierRemoved.erase (name, address)
      qualifierAdded := tracked.qualifierAdded.insert (name, address) type }
  | .freeze name address type =>
    { layer with
      frozenRemoved := layer.frozenRemoved.erase (name, address)
      frozenAdded := layer.frozenAdded.insert (name, address) type }
  | .freezeAll name type =>
    { layer with
      globalRemoved := layer.globalRemoved.erase name
      globalAdded := layer.globalAdded.insert name type }

def revert : NullChange → RestrictionLayer
  | .tag name address type =>
    let tracked := layer.trackRoot name address (type = .removeQualifier)
    { tracked with
      qualifierAdded := tracked.qualifierAdded.erase (name, address)
      qualifierRemoved := tracked.qualifierRemoved.insert (name, address) type }
  | .freeze name address type =>
    { layer with
      frozenAdded := layer.frozenAdded.erase (name, address)
      frozenRemoved := layer.frozenRemoved.insert (name, address) type }
  | .freezeAll name type =>
    { layer with
      globalAdded := layer.globalAdded.erase name
      globalRemoved := layer.globalRemoved.insert name type }

end RestrictionLayer

variable {env : Env} {global : AssetState} {cache next : AssetsCache}

section

variable (cache : AssetsCache) (name address : Bytes)

theorem trackRoot_layers (assigned : Bool) :
    (cache.trackRoot name address assigned).records = cache.records ∧
      (cache.trackRoot name address assigned).reissues = cache.reissues ∧
      (cache.trackRoot name address assigned).restrictions =
        cache.restrictions.trackRoot name address assigned := by
  unfold AssetsCache.trackRoot RestrictionLayer.trackRoot
  split
  · cases assigned <;> exact ⟨rfl, rfl, rfl⟩
  · exact ⟨rfl, rfl, rfl⟩

theorem addQualifierAddress_layers
    (type : QualifierType) : (cache.addQualifierAddress name address type).records = cache.records ∧
      (cache.addQualifierAddress name address type).reissues = cache.reissues ∧
      (cache.addQualifierAddress name address type).restrictions =
        cache.restrictions.apply (.tag name address type) := by
  obtain ⟨records, reissues, restrictions⟩ :=
    trackRoot_layers cache name address (type = .addQualifier)
  refine ⟨records, reissues, ?_⟩
  rw [apply, ← restrictions]
  rfl

theorem removeQualifierAddress_layers (type : QualifierType) :
    (cache.removeQualifierAddress name address type).records = cache.records ∧
      (cache.removeQualifierAddress name address type).reissues = cache.reissues ∧
      (cache.removeQualifierAddress name address type).restrictions =
        cache.restrictions.revert (.tag name address type) := by
  obtain ⟨records, reissues, restrictions⟩ :=
    trackRoot_layers cache name address (type = .removeQualifier)
  refine ⟨records, reissues, ?_⟩
  rw [revert, ← restrictions]
  rfl

end

theorem addNullData_layers (env : Env) (cache : AssetsCache) (script : Bytes) :
    (cache.addNullData env script).records = cache.records ∧
      (cache.addNullData env script).reissues = cache.reissues ∧
      (cache.addNullData env script).restrictions =
        (nullChange env script).elim cache.restrictions cache.restrictions.apply := by
  unfold addNullData nullChange
  split
  · dsimp only
    split
    · exact ⟨rfl, rfl, rfl⟩
    · split
      · exact addQualifierAddress_layers cache _ _ _
      · exact ⟨rfl, rfl, rfl⟩
  · split
    · exact ⟨rfl, rfl, rfl⟩
    · exact ⟨rfl, rfl, rfl⟩

theorem addTransferOutput_layers (env : Env) (global : AssetState) (cache : AssetsCache)
    (out : OutPoint) (script : Bytes) :
    SameLayers cache (cache.addTransferOutput env global out script) := by
  unfold addTransferOutput
  split
  · split
    · exact addTransferAsset_layers env global cache _ _ out
    · exact SameLayers.refl cache
  · exact SameLayers.refl cache

theorem addOutputAssets_layers (env : Env) (global : AssetState) (tx : Transaction)
    (outs : List TxOut) (n : Nat) (cache : AssetsCache) :
    (addOutputAssets env global tx outs n cache).records = cache.records ∧
      (addOutputAssets env global tx outs n cache).reissues = cache.reissues ∧
      (addOutputAssets env global tx outs n cache).restrictions =
        (outs.filterMap fun out => nullChange env out.scriptPubKey).foldl apply
          cache.restrictions := by
  induction outs generalizing n cache with
  | nil => exact ⟨rfl, rfl, rfl⟩
  | cons out rest ih =>
    have transfer := addTransferOutput_layers env global cache ⟨tx.hash, n⟩ out.scriptPubKey
    obtain ⟨records, reissues, restrictions⟩ := addNullData_layers env
      (cache.addTransferOutput env global ⟨tx.hash, n⟩ out.scriptPubKey) out.scriptPubKey
    obtain ⟨recordsRest, reissuesRest, restrictionsRest⟩ := ih (n + 1)
      ((cache.addTransferOutput env global ⟨tx.hash, n⟩ out.scriptPubKey).addNullData env
        out.scriptPubKey)
    refine ⟨recordsRest.trans (records.trans transfer.records),
      reissuesRest.trans (reissues.trans transfer.reissues), restrictionsRest.trans ?_⟩
    rw [restrictions, transfer.restrictions]
    rw [filterMap_cons]
    cases nullChange env out.scriptPubKey <;> rfl

end Phicoin
