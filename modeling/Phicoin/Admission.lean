import Phicoin.Reverts

/-! # What the checks admit

A transaction that `CheckTransaction` and `CheckTxAssets` accept issues names that
do not exist, reissues an asset that has a record, and changes a tag or a freeze
to what it is not yet in the global state.  The names it issues are those of its
issuance outputs. -/

namespace Phicoin

open Check Transaction

def Transaction.issuedNames (env : Env) (tx : Transaction) : List Bytes :=
  tx.vout.filterMap fun out =>
    (assetFromScript env out.scriptPubKey).map fun read => read.1.strName

variable {name : Bytes}

theorem mem_issuedNames {env : Env} {tx : Transaction} :
    name ∈ tx.issuedNames env ↔ ∃ out ∈ tx.vout, ∃ asset address,
      assetFromScript env out.scriptPubKey = some (asset, address) ∧ asset.strName = name := by
  simp [issuedNames, Option.map_eq_some_iff]

section

variable {env : Env} {tx : Transaction} {use : RestrictedUse}
  {asset : NewAsset}

theorem mem_issuedNames_of_onlyIssue (only : OnlyIssue env tx asset) :
    name ∈ tx.issuedNames env ↔ asset.strName = name := by
  rw [mem_issuedNames]
  obtain ⟨⟨address, read⟩, same⟩ := only
  constructor
  · rintro ⟨out, member, other, address', readOther, rfl⟩
    rw [same out member other address' readOther]
  · rintro rfl
    obtain ⟨out, member, isLast⟩ := lastScript_mem (kind_of_read read)
    exact ⟨out, member, asset, address, by rw [isLast, read], rfl⟩

theorem not_mem_of_noIssue (noIssue : NoIssue env tx) (name : Bytes) :
    name ∉ tx.issuedNames env := by
  rw [mem_issuedNames]
  rintro ⟨out, member, asset, address, read, _⟩
  rw [noIssue out member] at read
  cases read

theorem readable_of_kind (checked : checkTransactionKind env tx = .ok use) : Readable env tx where
  issue kind := by
    have branch := checkTransactionKind_ok checked
    simp only [kind] at branch
    obtain ⟨_, asset, ⟨⟨address, read⟩, _⟩, _⟩ := verifyNewAsset_ok branch.1
    exact ⟨asset, address, read⟩
  reissue kind := by
    have branch := checkTransactionKind_ok checked
    simp only [kind] at branch
    obtain ⟨_, reissue, address, read, _⟩ := verifyReissueAsset_ok branch.1
    exact ⟨reissue, address, read⟩

theorem counts_of_kind (checked : checkTransactionKind env tx = .ok use) :
    match tx.kind env with
    | .issue => countOutputs tx.vout .newAsset true = 1 ∧ countOutputs tx.vout .newAsset false = 1 ∧
        countOutputs tx.vout .reissueAsset false = 0
    | .reissue => countOutputs tx.vout .newAsset true = 0 ∧
        countOutputs tx.vout .newAsset false = 0 ∧ countOutputs tx.vout .reissueAsset false = 1
    | .unique => countOutputs tx.vout .newAsset true = 0 ∧
        countOutputs tx.vout .reissueAsset false = 0
    | .plain => countOutputs tx.vout .newAsset true = 0 ∧
        countOutputs tx.vout .newAsset false = 0 ∧ countOutputs tx.vout .reissueAsset false = 0
    | _ => countOutputs tx.vout .newAsset true = 0 ∧ countOutputs tx.vout .newAsset false = 1 ∧
        countOutputs tx.vout .reissueAsset false = 0 := by
  have branch := checkTransactionKind_ok checked
  cases kind : tx.kind env <;> simp only [kind] at branch ⊢
  case plain =>
    have none : ∀ nType owner, nType ≠ .transferAsset → countOutputs tx.vout nType owner = 0 := by
      intro nType owner other
      refine List.countP_eq_zero.mpr fun out member found => ?_
      have plain := forM_eq_ok.mp branch.1 out member
      obtain ⟨n, isKind⟩ := Option.isSome_iff_exists.mp found
      simp [checkPlainOutput, assetScriptOf_eq_some.mp isKind, other] at plain
    exact ⟨none _ _ (by decide), none _ _ (by decide), none _ _ (by decide)⟩
  -- the count is the last requirement of every check
  all_goals
    have passes := branch.1
    simp only [verifyNewAsset, verifyReissueAsset, verifyNewUniqueAsset, verifyNewMsgChannelAsset,
      verifyNewQualfierAsset, verifyNewRestrictedAsset] at passes
    repeat obtain ⟨_, _, passes⟩ := bind_eq_ok.mp passes
    simp only [require_eq_ok, Bool.and_eq_true, decide_eq_true_eq] at passes
    tauto

theorem type_of_verifyNewAsset (passes : tx.verifyNewAsset env = .ok ())
    {address : Bytes} (read : assetFromScript env tx.lastScript = some (asset, address)) :
    assetNameType asset.strName ≠ .invalid := by
  unfold verifyNewAsset at passes
  iterate 3 obtain ⟨_, _, passes⟩ := bind_eq_ok.mp passes
  obtain ⟨⟨asset', address'⟩, readAgain, passes⟩ := bind_eq_ok.mp passes
  iterate 2 obtain ⟨_, _, passes⟩ := bind_eq_ok.mp passes
  obtain ⟨_, burns, _⟩ := bind_eq_ok.mp passes
  rw [require?_eq_ok, read] at readAgain
  cases readAgain
  rw [require_eq_ok, hasIssueBurn, List.any_eq_true] at burns
  obtain ⟨burn, _, pays⟩ := burns
  intro invalid
  simp [checkIssueBurnTx, invalid] at pays

theorem issue_of_checked (kind : checkTransactionKind env tx = .ok use) {out : TxOut}
    (member : out ∈ tx.vout) (isNew : isNewAssetScript out.scriptPubKey = true) :
    ∃ asset address, assetFromScript env out.scriptPubKey = some (asset, address) ∧
      (isAssetNameValid asset.strName).passed = true := by
  have branch := checkTransactionKind_ok kind
  have counts := counts_of_kind kind
  -- with one issuance output, it is the last one, and that one was read
  have single : ∀ asset, countOutputs tx.vout .newAsset false = 1 → OnlyIssue env tx asset →
      assetNameType asset.strName ≠ .invalid → ∃ asset address,
        assetFromScript env out.scriptPubKey = some (asset, address) ∧
          (isAssetNameValid asset.strName).passed = true := by
    intro asset one only valid
    obtain ⟨address, read⟩ := only.1
    rw [script_eq_lastScript one (kind_of_read read) member isNew]
    exact ⟨asset, address, read, passed_iff.mpr ⟨_, isAssetNameValid_of_type rfl valid⟩⟩
  have absent := countOutputs_ne_zero member isNew
  cases kindEq : tx.kind env <;> simp only [kindEq] at branch counts
  case issue =>
    obtain ⟨_, asset, only, _⟩ := verifyNewAsset_ok branch.1
    obtain ⟨address, read⟩ := only.1
    exact single asset counts.2.1 only (type_of_verifyNewAsset branch.1 read)
  case reissue => exact absurd counts.2.1 absent
  case unique =>
    have unique := isScriptNewUniqueAsset_of_verified branch.1 member isNew
    obtain ⟨asset, address, read, valid⟩ := isScriptNewUniqueAsset_iff.mp unique
    exact ⟨asset, address, read, passed_iff.mpr ⟨_, valid⟩⟩
  case msgChannel =>
    obtain ⟨_, asset, only, type, _⟩ := verifyNewMsgChannelAsset_ok branch.1
    exact single asset counts.2.1 only (by simp [type])
  case qualifier =>
    obtain ⟨_, asset, only, type, _⟩ := verifyNewQualfierAsset_ok branch.1
    exact single asset counts.2.1 only (by rcases type with type | type <;> simp [type])
  case restricted =>
    obtain ⟨_, asset, only, type, _⟩ := verifyNewRestrictedAsset_ok branch.1
    exact single asset counts.2.1 only (by simp [type])
  case plain => exact absurd counts.2.1 absent

theorem mem_issueNames_of_onlyIssue (only : OnlyIssue env tx asset)
    (issues : tx.issues env = (assetFromScript env tx.lastScript).toList) :
    name ∈ tx.issueNames env ↔ name ∈ tx.issuedNames env := by
  obtain ⟨address, read⟩ := only.1
  rw [mem_issuedNames_of_onlyIssue only, issueNames, issues, read]
  simp [eq_comm]

theorem mem_issueNames_iff (checked : checkTransactionKind env tx = .ok use) :
    name ∈ tx.issueNames env ↔ name ∈ tx.issuedNames env := by
  have branch := checkTransactionKind_ok checked
  cases kind : tx.kind env <;> simp only [kind] at branch
  case issue =>
    obtain ⟨_, asset, only, _⟩ := verifyNewAsset_ok branch.1
    exact mem_issueNames_of_onlyIssue only (by simp [issues, kind])
  case msgChannel =>
    obtain ⟨_, asset, only, _⟩ := verifyNewMsgChannelAsset_ok branch.1
    exact mem_issueNames_of_onlyIssue only (by simp [issues, kind])
  case qualifier =>
    obtain ⟨_, asset, only, _⟩ := verifyNewQualfierAsset_ok branch.1
    exact mem_issueNames_of_onlyIssue only (by simp [issues, kind])
  case restricted =>
    obtain ⟨_, asset, only, _⟩ := verifyNewRestrictedAsset_ok branch.1
    exact mem_issueNames_of_onlyIssue only (by simp [issues, kind])
  case reissue =>
    obtain ⟨noIssue, _⟩ := verifyReissueAsset_ok branch.1
    simp [issueNames, issues, kind, not_mem_of_noIssue noIssue]
  case plain =>
    obtain ⟨noIssue, _⟩ := checkPlainOutput_ok env branch.1
    simp [issueNames, issues, kind, not_mem_of_noIssue noIssue]
  case unique =>
    obtain ⟨_, _, _, unique⟩ := verifyNewUniqueAsset_ok branch.1
    simp only [issueNames, issues, kind, List.mem_map, List.mem_filterMap,
      mem_issuedNames]
    constructor
    · rintro ⟨⟨asset, address⟩, ⟨out, member, read⟩, rfl⟩
      unfold uniqueIssue at read
      split at read
      · exact ⟨out, member, asset, address, read, rfl⟩
      · cases read
    · rintro ⟨out, member, asset, address, read, rfl⟩
      obtain ⟨valid, _⟩ := unique out member asset address read
      have isUnique := isScriptNewUniqueAsset_iff.mpr ⟨asset, address, read, valid⟩
      exact ⟨(asset, address), ⟨out, member, by simp [uniqueIssue, isUnique, read]⟩, rfl⟩

end

variable {env : Env} {global : AssetState} {cache : AssetsCache} {mempool : MempoolMaps}
  {tx : Transaction} {fCheckMempool : Bool}

section

variable {asset : NewAsset}
  (passes : contextualCheckNewAsset env global cache mempool asset fCheckMempool = .ok ())

include passes

theorem contextualCheckNewAsset_fresh :
    cache.checkIfAssetExists env global asset.strName = false := by
  unfold contextualCheckNewAsset at passes
  obtain ⟨_, _, _, _, _, absent, _⟩ := ok_bind₃ passes
  simpa using absent

theorem contextualCheckNewAsset_valid :
    checkNewAsset asset = .ok () ∧ (asset.nHasIPFS ≠ 0 → asset.strIPFSHash ≠ []) := by
  unfold contextualCheckNewAsset at passes
  obtain ⟨_, _, ⟨⟩, valid, _, _, passes⟩ := ok_bind₃ passes
  obtain ⟨_, _, _, length, _⟩ := ok_bind₂ passes
  refine ⟨valid, fun present empty => ?_⟩
  rw [guarded_eq_ok, require_eq_ok] at length
  simp [present, empty] at length

end

theorem checkTxAssetsKind_issues
    (passes : checkTxAssetsKind env global cache mempool tx fCheckMempool = .ok ()) :
    ∀ issue ∈ tx.issues env, ∃ looksAtPool,
      contextualCheckNewAsset env global cache mempool issue.1 looksAtPool = .ok () ∧
        (tx.kind env ≠ .unique → looksAtPool = fCheckMempool) := by
  unfold checkTxAssetsKind at passes
  unfold issues kind
  split_ifs at passes ⊢ with isNew isReissue isUnique isChannel isQualifier isRestricted
  · obtain ⟨⟨asset, address⟩, read, passes⟩ := bind_eq_ok.mp passes
    rw [require?_eq_ok] at read
    simpa [read] using passes
  · simp
  · rw [labelled_eq_ok] at passes
    rintro ⟨asset, address⟩ member
    obtain ⟨out, inOutputs, issue⟩ := List.mem_filterMap.mp member
    unfold uniqueIssue at issue
    split at issue
    · rename_i unique
      have checked := forM_eq_ok.mp passes out inOutputs
      rw [if_pos unique, issue] at checked
      exact ⟨false, checked, fun other => absurd rfl other⟩
    · cases issue
  · obtain ⟨_, _, ⟨asset, address⟩, read, passes⟩ := ok_bind₂ passes
    rw [require?_eq_ok, msgChannelAssetFromTransaction_eq isChannel] at read
    rw [labelled_eq_ok] at passes
    simpa [read] using passes
  · obtain ⟨_, _, ⟨asset, address⟩, read, passes⟩ := ok_bind₂ passes
    rw [require?_eq_ok, qualifierAssetFromTransaction_eq isQualifier] at read
    rw [labelled_eq_ok] at passes
    simpa [read] using passes
  · obtain ⟨_, _, ⟨asset, address⟩, read, passes⟩ := ok_bind₂ passes
    obtain ⟨⟨⟩, checked, _⟩ := bind_eq_ok.mp passes
    rw [require?_eq_ok, restrictedAssetFromTransaction_eq isRestricted] at read
    rw [labelled_eq_ok] at checked
    simpa [read] using checked
  · simp

theorem contextualCheckReissueAssetTx_known {reissue : ReissueAsset}
    (passes : contextualCheckReissueAssetTx env global cache reissue tx = .ok ()) :
    ∃ prev, cache.getAssetMetaDataIfExists global reissue.strName = some prev := by
  unfold contextualCheckReissueAssetTx at passes
  obtain ⟨_, _, _, _, prev, found, _⟩ := ok_bind₃ passes
  exact ⟨prev, require?_eq_ok.mp found⟩

theorem checkTxAssetsKind_known
    (passes : checkTxAssetsKind env global cache mempool tx fCheckMempool = .ok ())
    {reissue : ReissueAsset} {address : Bytes}
    (reissues : tx.reissuance env = some (reissue, address)) :
    ∃ prev, cache.getAssetMetaDataIfExists global reissue.strName = some prev := by
  unfold checkTxAssetsKind at passes
  unfold reissuance kind at reissues
  split_ifs at passes reissues with isNew isReissue isUnique isChannel isQualifier isRestricted
  dsimp only at reissues
  obtain ⟨⟨reissue', address'⟩, read, passes⟩ := bind_eq_ok.mp passes
  rw [require?_eq_ok, reissues] at read
  cases read
  rw [labelled_eq_ok] at passes
  exact contextualCheckReissueAssetTx_known passes

def Admits (global : AssetState) : NullChange → Prop
  | .tag name address type =>
    AssetsCache.empty.checkForAddressQualifier global name address true =
      decide (type = .removeQualifier)
  | .freeze name address type =>
    AssetsCache.empty.checkForAddressRestriction global name address true =
      decide (type = .unfreezeAddress)
  | .freezeAll name type =>
    AssetsCache.empty.checkForGlobalRestriction global name true =
      decide (type = .globalUnfreeze)

theorem verifyChange_ok {flag : Int} {current : Bool} {whenSet whenUnset : String}
    (passes : verifyChange flag current whenSet whenUnset = .ok ()) :
    current = decide (flag = 0) := by
  unfold verifyChange at passes
  obtain ⟨_, _, passes⟩ := bind_eq_ok.mp passes
  split at passes
  · rename_i set
    rw [require_eq_ok] at passes
    simpa [set] using passes
  · rename_i unset
    rw [require_eq_ok] at passes
    rw [passes, decide_eq_true (not_not.mp unset)]

theorem admits_of_checkNullAssetOutput {out : TxOut} {change : NullChange}
    (passes : checkNullAssetOutput env global cache out = .ok ())
    (made : nullChange env out.scriptPubKey = some change) :
    env.areRestrictedAssetsDeployed = true ∧ Admits global change := by
  have null : isNullAsset out.scriptPubKey = true := by
    unfold nullChange at made
    unfold isNullAsset
    split_ifs at made with isData isGlobal <;> simp [*]
  unfold checkNullAssetOutput at passes
  rw [if_pos null] at passes
  obtain ⟨_, deployed, passes⟩ := bind_eq_ok.mp passes
  rw [require_eq_ok] at deployed
  refine ⟨deployed, ?_⟩
  unfold nullChange at made
  split at passes
  · rename_i isData
    rw [if_pos isData] at made
    unfold contextualCheckNullAssetTxOut at passes
    obtain ⟨⟨data, address⟩, read, passes⟩ := bind_eq_ok.mp passes
    rw [require?_eq_ok] at read
    simp only [read, Option.getD_some] at made
    dsimp only at passes
    split at made
    · rename_i restricted
      cases made
      have isRestricted := isAssetNameAnRestricted_of_type restricted
      have notQualifier : ¬ isAssetNameAQualifier data.assetName false = true := by
        intro qualifier
        have heads := (head_of_qualifier qualifier).symm.trans (head_of_restricted isRestricted)
        revert heads
        decide
      rw [if_neg notQualifier, if_pos isRestricted] at passes
      refine (verifyChange_ok passes : _ = _).trans ?_
      by_cases unset : data.flag = 0 <;> simp [unset]
    · split at made
      · rename_i tags
        cases made
        rw [Bool.or_eq_true, decide_eq_true_eq, decide_eq_true_eq] at tags
        rw [if_pos (isAssetNameAQualifier_of_type tags)] at passes
        refine (verifyChange_ok passes : _ = _).trans ?_
        by_cases unset : data.flag = 0 <;> simp [unset]
      · cases made
  · rename_i notData
    rw [if_neg notData] at made
    split at made
    · rename_i isGlobal
      cases made
      rw [if_pos isGlobal] at passes
      unfold contextualCheckGlobalAssetTxOut at passes
      obtain ⟨data, read, passes⟩ := bind_eq_ok.mp passes
      rw [require?_eq_ok] at read
      rw [read, Option.getD_some]
      refine (verifyChange_ok passes : _ = _).trans ?_
      by_cases unset : data.flag = 0 <;> simp [unset]
    · cases made

end Phicoin
