import Phicoin.MempoolRegistry
import Phicoin.Admission
import Phicoin.RestrictedSafety

/-! # Names that the pool records

An accepted transaction records the names of its issuance outputs.  The owner
token that comes with an issuance is left out by its name, and is recorded when
that is no valid name: when an asset other than a root or a sub asset is issued
together with an owner token.  Every issuance but that of unique assets is
checked against the names that the pool has. -/

namespace Phicoin

open Check List Option Transaction

section

variable {env : Env} {tx : Transaction} {use : RestrictedUse} {out : TxOut} {name address : Bytes}

theorem issuedName_of_read {asset : NewAsset}
    (read : assetFromScript env out.scriptPubKey = some (asset, address))
    (notOwner : isAssetNameAnOwner asset.strName = false) :
    issuedName env out = some asset.strName := by
  obtain ⟨n, kind, _⟩ := assetFromScript_eq_some read
  rw [issuedName, getAssetData, assetScriptOf_eq_some.mp kind]
  simp [read, notOwner]

theorem issuedName_source (issues : issuedName env out = some name) :
    isAssetNameAnOwner name = false ∧
    ((∃ asset address, assetFromScript env out.scriptPubKey = some (asset, address) ∧
        asset.strName = name) ∨
      ∃ address, ownerAssetFromScript env out.scriptPubKey = some (name, address)) := by
  obtain ⟨data, found, recorded⟩ := bind_eq_some_iff.mp issues
  split_ifs at recorded with isNew
  obtain rfl := Option.some.inj recorded
  simp only [Bool.and_eq_true, decide_eq_true_eq, Bool.not_eq_true'] at isNew
  refine ⟨isNew.2, ?_⟩
  simp only [getAssetData, bind_eq_bind, bind_eq_some_iff] at found
  obtain ⟨info, _, selected⟩ := found
  split at selected
  · obtain ⟨⟨asset, address⟩, read, same⟩ := bind_eq_some_iff.mp selected
    cases same
    exact .inl ⟨asset, address, read, rfl⟩
  · obtain ⟨⟨owner, address⟩, read, same⟩ := bind_eq_some_iff.mp selected
    cases same
    exact .inr ⟨address, read⟩
  · obtain ⟨_, _, same⟩ := bind_eq_some_iff.mp selected
    cases same
    cases isNew.1
  · obtain ⟨_, _, same⟩ := bind_eq_some_iff.mp selected
    cases same
    cases isNew.1
  · cases selected

theorem ownerScript_of_verifyNewAsset (passes : tx.verifyNewAsset env = .ok ())
    (member : out ∈ tx.vout)
    (isOwner : (assetScriptOf .newAsset true out.scriptPubKey).isSome = true) :
    out.scriptPubKey = tx.secondLastScript := by
  unfold verifyNewAsset at passes
  obtain ⟨_, size, _, _, _, isSecond, passes⟩ := ok_bind₃ passes
  iterate 5 obtain ⟨_, _, passes⟩ := bind_eq_ok.mp passes
  simp only [require_eq_ok, Bool.and_eq_true, decide_eq_true_eq] at size isSecond passes
  have position : tx.vout.length - 2 < tx.vout.length := by omega
  have atPosition : tx.secondLastScript = (tx.vout[tx.vout.length - 2]).scriptPubKey := by
    rw [secondLastScript, getElem?_eq_getElem position]
  rw [atPosition] at isSecond ⊢
  rw [eq_of_countOutputs_one passes.1.1 member (getElem_mem position) isOwner isSecond]

theorem owner_of_verifyNewAsset (passes : tx.verifyNewAsset env = .ok ()) (member : out ∈ tx.vout)
    (read : ownerAssetFromScript env out.scriptPubKey = some (name, address)) :
    ∃ issued ∈ tx.issuedNames env, name = issued ++ ownerTag := by
  have isSecond := ownerScript_of_verifyNewAsset passes member (kind_of_read read)
  obtain ⟨_, issue, only, _⟩ := verifyNewAsset_ok passes
  have issued := (mem_issuedNames_of_onlyIssue only).mpr rfl
  unfold verifyNewAsset at passes
  iterate 3 obtain ⟨_, _, passes⟩ := bind_eq_ok.mp passes
  obtain ⟨⟨asset, _⟩, readAsset, passes⟩ := bind_eq_ok.mp passes
  obtain ⟨⟨owner, _⟩, readOwner, passes⟩ := bind_eq_ok.mp passes
  obtain ⟨_, matching, _⟩ := bind_eq_ok.mp passes
  simp only [require_eq_ok, require?_eq_ok, decide_eq_true_eq] at readAsset readOwner matching
  obtain ⟨_, sameAsset⟩ := only.1
  rw [readAsset] at sameAsset
  cases sameAsset
  rw [← isSecond, read] at readOwner
  cases readOwner
  exact ⟨issue.strName, issued, matching⟩

theorem owner_source (kind : checkTransactionKind env tx = .ok use) (member : out ∈ tx.vout)
    (read : ownerAssetFromScript env out.scriptPubKey = some (name, address)) :
    ∃ issued ∈ tx.issuedNames env, name = issued ++ ownerTag := by
  have branch := checkTransactionKind_ok kind
  have counts := counts_of_kind kind
  cases kindEq : tx.kind env <;> simp only [kindEq] at branch counts
  case issue => exact owner_of_verifyNewAsset branch.1 member read
  all_goals exact absurd counts.1 (countOutputs_ne_zero member (kind_of_read read))

end

section

variable {env : Env} {global : AssetState} {cache : AssetsCache} {mempool : MempoolMaps}
  {tx : Transaction} {use : RestrictedUse}

theorem contextualCheckNewAsset_name {asset : NewAsset} {looksAtPool : Bool}
    (passes : contextualCheckNewAsset env global cache mempool asset looksAtPool = .ok ()) :
    (isAssetNameValid asset.strName).passed = true ∧ isAssetNameAnOwner asset.strName = false := by
  unfold contextualCheckNewAsset at passes
  obtain ⟨_, _, ⟨⟩, checked, _⟩ := ok_bind₂ passes
  unfold checkNewAsset at checked
  obtain ⟨_, valid, _, _, _, _, checked⟩ := ok_bind₃ checked
  obtain ⟨_, notOwner, _⟩ := bind_eq_ok.mp checked
  exact ⟨require_eq_ok.mp valid, by simpa using notOwner⟩

theorem contextualCheckNewAsset_mempool {asset : NewAsset}
    (passes : contextualCheckNewAsset env global cache mempool asset true = .ok ()) :
    mempool.mapAssetToHash.lookup asset.strName = none := by
  unfold contextualCheckNewAsset at passes
  obtain ⟨_, _, _, _, _, _, passes⟩ := ok_bind₃ passes
  obtain ⟨_, free, _⟩ := bind_eq_ok.mp passes
  simpa using free

/-- What `ContextualCheckUniqueAssetTx` does not ask of the pool. -/
def MempoolMaps.uniquesFree (env : Env) (mempool : MempoolMaps) (tx : Transaction) : Bool :=
  tx.vout.all fun out =>
    match Transaction.uniqueIssue env out with
    | some (asset, _) => (mempool.mapAssetToHash.lookup asset.strName).isNone
    | none => true

variable (kind : checkTransactionKind env tx = .ok use)

include kind

section

variable (passes : checkTxAssetsKind env global cache mempool tx true = .ok ())

include passes

theorem issuedNames_free (uniques : mempool.uniquesFree env tx = true) {name : Bytes}
    (issued : name ∈ tx.issuedNames env) : mempool.mapAssetToHash.lookup name = none := by
  obtain ⟨issue, inIssues, rfl⟩ := mem_map.mp ((mem_issueNames_iff kind).mpr issued)
  obtain ⟨looksAtPool, checked, looks⟩ := checkTxAssetsKind_issues passes issue inIssues
  by_cases isUnique : tx.kind env = .unique
  · simp only [issues, isUnique, mem_filterMap] at inIssues
    obtain ⟨out, member, issues⟩ := inIssues
    have free := all_eq_true.mp uniques out member
    rw [issues] at free
    simpa using free
  · obtain rfl := looks isUnique
    exact contextualCheckNewAsset_mempool checked

theorem issuedNames_valid {name : Bytes} (issued : name ∈ tx.issuedNames env) :
    (isAssetNameValid name).passed = true ∧ isAssetNameAnOwner name = false := by
  obtain ⟨issue, inIssues, rfl⟩ := mem_map.mp ((mem_issueNames_iff kind).mpr issued)
  obtain ⟨looksAtPool, checked, _⟩ := checkTxAssetsKind_issues passes issue inIssues
  exact contextualCheckNewAsset_name checked

theorem recorded_of_issued {name : Bytes} (issued : name ∈ tx.issuedNames env) :
    name ∈ tx.vout.filterMap (issuedName env) ∧ (33 : UInt8) ∉ name := by
  obtain ⟨valid, notOwner⟩ := issuedNames_valid kind passes issued
  constructor
  · obtain ⟨out, member, asset, address, read, rfl⟩ := mem_issuedNames.mp issued
    exact mem_filterMap.mpr ⟨out, member, issuedName_of_read read notOwner⟩
  · intro marked
    rw [isAssetNameAnOwner_of_mark valid marked] at notOwner
    cases notOwner

end

theorem issued_of_recorded {name : Bytes} (recorded : name ∈ tx.vout.filterMap (issuedName env)) :
    name ∈ tx.issuedNames env ∨ ∃ issued ∈ tx.issuedNames env, name = issued ++ ownerTag := by
  obtain ⟨out, member, issues⟩ := mem_filterMap.mp recorded
  rcases (issuedName_source issues).2 with ⟨asset, address, read, same⟩ | ⟨address, read⟩
  · exact .inl (mem_issuedNames.mpr ⟨out, member, asset, address, read, same⟩)
  · exact .inr (owner_source kind member read)

end

def reissuedName (env : Env) (out : TxOut) : Option Bytes :=
  (reissueAssetFromScript env out.scriptPubKey).map fun read => read.1.strName

variable {env : Env} {global : AssetState} {cache : AssetsCache} {mempool : MempoolMaps}
  {tx : Transaction} {use : RestrictedUse}

theorem reissuedName_of_kind {out : TxOut}
    (other : (isAssetScript out.scriptPubKey).map AssetScript.nType ≠ some .reissueAsset) :
    reissuedName env out = none := by
  cases read : reissueAssetFromScript env out.scriptPubKey with
  | none => rw [reissuedName, read, map_none]
  | some record =>
    obtain ⟨n, kind, _⟩ := reissueAssetFromScript_eq_some read
    rw [assetScriptOf_eq_some.mp kind] at other
    exact absurd rfl other

section

variable (foreign : ∀ name, mempool.mapReissuedAssets.lookup name ≠ some tx.hash)

include foreign

theorem checkAssetOutput_reissue
    {mapAddresses : KeyedMap Bytes Bytes} {nBlocktime currentTime : Int} {acc next : AssetOutputs}
    {out : TxOut}
    (passes : checkAssetOutput env global cache mempool tx mapAddresses nBlocktime currentTime acc
      out = .ok next) : next.vPairReissueAssets =
        acc.vPairReissueAssets ++ (reissuedName env out).toList.map (·, tx.hash) ∧
      ∀ name, reissuedName env out = some name → mempool.mapReissuedAssets.lookup name = none := by
  unfold checkAssetOutput at passes
  obtain ⟨_, _, _, _, checked, selected, passes⟩ := ok_bind₃ passes
  obtain rfl := pure_eq_ok.mp passes
  unfold checkAssetOutputKind at selected
  split at selected
  · rename_i kind
    unfold checkTransferOutput at selected
    obtain ⟨_, _, _, _, _, _, selected⟩ := ok_bind₃ selected
    obtain rfl := pure_eq_ok.mp selected
    rw [reissuedName_of_kind (by rw [kind]; decide)]
    simp
  · unfold checkReissueOutput at selected
    obtain ⟨⟨reissue, address⟩, read, selected⟩ := bind_eq_ok.mp selected
    rw [require?_eq_ok] at read
    have reissues : reissuedName env out = some reissue.strName := by
      rw [reissuedName, read, map_some]
    rw [reissues]
    dsimp only at selected
    split at selected
    · rename_i hash found
      obtain ⟨_, own, _⟩ := bind_eq_ok.mp selected
      rw [require_eq_ok, decide_eq_true_eq] at own
      rw [own] at found
      exact absurd found (foreign reissue.strName)
    · rename_i absent
      obtain rfl := pure_eq_ok.mp selected
      refine ⟨rfl, ?_⟩
      rintro name same
      obtain rfl := Option.some.inj same
      exact absent
  · rename_i _ other
    obtain rfl := pure_eq_ok.mp selected
    rw [reissuedName_of_kind other]
    simp

theorem checkTxAssets_reissues {view : CoinsView}
    {fCheckMempool : Bool} {nBlocktime currentTime : Int} {outputs : AssetOutputs}
    (passes : checkTxAssets env global cache mempool view tx fCheckMempool nBlocktime currentTime =
      .ok outputs) :
    outputs.vPairReissueAssets = (tx.vout.filterMap (reissuedName env)).map (·, tx.hash) ∧
      ∀ name ∈ tx.vout.filterMap (reissuedName env),
        mempool.mapReissuedAssets.lookup name = none := by
  obtain ⟨inputs, _, _, checked, _⟩ := checkTxAssets_ok passes
  refine foldlM_scan (fun pre acc =>
    acc.vPairReissueAssets = (pre.filterMap (reissuedName env)).map (·, tx.hash) ∧
      ∀ name ∈ pre.filterMap (reissuedName env), mempool.mapReissuedAssets.lookup name = none)
    checked ⟨rfl, by simp⟩ ?_
  intro pre out post acc next _ step ⟨collected, absent⟩
  obtain ⟨added, free⟩ := checkAssetOutput_reissue foreign step
  rw [filterMap_append, map_append]
  cases reissues : reissuedName env out with
  | none =>
    rw [reissues] at added
    simpa [reissues, added, collected] using absent
  | some name =>
    rw [reissues] at added
    refine ⟨by simp [added, collected, reissues], ?_⟩
    intro other member
    rcases mem_append.mp member with old | new
    · exact absent other old
    · simp only [filterMap_cons, reissues, filterMap_nil, mem_singleton] at new
      rw [new]
      exact free name reissues

end

theorem reissuedName_unique (kind : checkTransactionKind env tx = .ok use) {a b : Bytes}
    (first : a ∈ tx.vout.filterMap (reissuedName env))
    (second : b ∈ tx.vout.filterMap (reissuedName env)) : a = b := by
  obtain ⟨out, member, issues⟩ := mem_filterMap.mp first
  obtain ⟨out', member', issues'⟩ := mem_filterMap.mp second
  obtain ⟨⟨record, address⟩, read, rfl⟩ := map_eq_some_iff.mp issues
  obtain ⟨⟨record', address'⟩, read', rfl⟩ := map_eq_some_iff.mp issues'
  rw [(reissue_last kind member read).2] at read
  rw [(reissue_last kind member' read').2, read] at read'
  cases read'
  rfl

end Phicoin
