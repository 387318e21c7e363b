import Phicoin.Authority

/-! # Tokens behind tags, freezes and verifier strings

The loop of `CheckTransaction` over the outputs collects the tags and freezes
together with the names transferred, and a second loop looks for the
controlling token of each tag and freeze among those names. -/

namespace Phicoin

open Check MainNet Transaction

variable {env : Env} {tx : Transaction} {out : TxOut} {scan next : OutputScan}

/-- What the loop over the outputs does with one output, as far as tags, freezes
and verifier strings go. -/
structure ScanStep (env : Env) (out : TxOut) (scan next : OutputScan) : Prop where
  transfers : ∀ name ∈ next.setAssetTransferNames, name ∈ scan.setAssetTransferNames ∨
    ∃ transfer address, transferAssetFromScript env out.scriptPubKey = some (transfer, address) ∧
      transfer.strName = name
  keepsTags : scan.mapNullDataTxCount ⊆ next.mapNullDataTxCount
  keepsGlobals : scan.setNullGlobalAssetChanges ⊆ next.setNullGlobalAssetChanges
  keepsVerifier : scan.fContainsNullAssetVerifierTx = true →
    next.fContainsNullAssetVerifierTx = true
  tag : ∀ data address, assetNullDataFromScript env out.scriptPubKey = some (data, address) →
    (data.assetName, address) ∈ next.mapNullDataTxCount
  globalFreeze : ∀ data, globalAssetNullDataFromScript out.scriptPubKey = some data →
    data.assetName ∈ next.setNullGlobalAssetChanges
  verifier : isNullAssetVerifierTxDataScript out.scriptPubKey = true →
    next.fContainsNullAssetVerifierTx = true

variable {script : Bytes}

theorem isNullAssetTxDataScript_of_read {result : NullAssetTxData × Bytes}
    (read : assetNullDataFromScript env script = some result) :
    isNullAssetTxDataScript script = true := by
  unfold assetNullDataFromScript at read
  split at read
  · assumption
  · cases read

variable {data : NullAssetTxData}

theorem isNullGlobalRestriction_of_read (read : globalAssetNullDataFromScript script = some data) :
    isNullGlobalRestrictionAssetTxDataScript script = true := by
  unfold globalAssetNullDataFromScript at read
  split at read
  · assumption
  · cases read

theorem nullKinds_disjoint : (isNullGlobalRestrictionAssetTxDataScript script = true →
      isNullAssetTxDataScript script = false) ∧
    (isNullAssetVerifierTxDataScript script = true → isNullAssetTxDataScript script = false ∧
      isNullGlobalRestrictionAssetTxDataScript script = false) := by
  have differ : ¬ opReserved = 0x14 := by decide
  simp only [isNullGlobalRestrictionAssetTxDataScript, isNullAssetVerifierTxDataScript,
    isNullAssetTxDataScript, Bool.and_eq_true, decide_eq_true_eq]
  refine ⟨fun reserved => ?_, fun reserved => ⟨?_, ?_⟩⟩
  · simp [reserved.1.2, differ]
  · simp [reserved.1.2, differ]
  · simp [reserved.2]

theorem scanNullAsset_ok (passes : scanNullAsset env scan out = .ok next) :
    ScanStep env out scan next ∧ next.setAssetTransferNames = scan.setAssetTransferNames := by
  unfold scanNullAsset at passes
  by_cases isTag : isNullAssetTxDataScript out.scriptPubKey = true
  · rw [if_pos isTag] at passes
    obtain ⟨⟨data, address⟩, read, passes⟩ := bind_eq_ok.mp passes
    obtain ⟨_, _, _, _, passes⟩ := ok_bind₂ passes
    obtain rfl := pure_eq_ok.mp passes
    rw [require?_eq_ok] at read
    refine ⟨⟨fun _ => .inl, List.subset_cons_self _ _, fun _ => id, id, ?_, ?_, ?_⟩, rfl⟩
    · intro data' address' readAgain
      rw [read] at readAgain
      cases readAgain
      exact List.mem_cons_self
    · intro data' readGlobal
      have other := nullKinds_disjoint.1 (isNullGlobalRestriction_of_read readGlobal)
      rw [isTag] at other
      cases other
    · intro isVerifier
      have other := (nullKinds_disjoint.2 isVerifier).1
      rw [isTag] at other
      cases other
  have noTag : ∀ data address,
      assetNullDataFromScript env out.scriptPubKey ≠ some (data, address) :=
    fun data address read => isTag (isNullAssetTxDataScript_of_read read)
  rw [if_neg isTag] at passes
  by_cases isGlobal : isNullGlobalRestrictionAssetTxDataScript out.scriptPubKey = true
  · rw [if_pos isGlobal] at passes
    obtain ⟨data, read, _, _, _, _, passes⟩ := ok_bind₃ passes
    obtain rfl := pure_eq_ok.mp passes
    rw [require?_eq_ok] at read
    refine ⟨⟨fun _ => .inl, fun _ => id, List.subset_cons_self _ _, id, ?_, ?_, ?_⟩, rfl⟩
    · exact fun data' address' readTag => absurd readTag (noTag data' address')
    · intro data' readAgain
      rw [read] at readAgain
      cases readAgain
      exact List.mem_cons_self
    · intro isVerifier
      have other := (nullKinds_disjoint.2 isVerifier).2
      rw [isGlobal] at other
      cases other
  have noGlobal : ∀ data, globalAssetNullDataFromScript out.scriptPubKey ≠ some data :=
    fun data read => isGlobal (isNullGlobalRestriction_of_read read)
  rw [if_neg isGlobal] at passes
  split at passes
  · obtain ⟨_, _, _, _, passes⟩ := ok_bind₂ passes
    obtain rfl := pure_eq_ok.mp passes
    exact ⟨⟨fun _ => .inl, fun _ => id, fun _ => id, fun _ => rfl,
      fun data address read => absurd read (noTag data address),
      fun data read => absurd read (noGlobal data), fun _ => rfl⟩, rfl⟩
  · rename_i notVerifier
    obtain rfl := pure_eq_ok.mp passes
    exact ⟨⟨fun _ => .inl, fun _ => id, fun _ => id, id,
      fun data address read => absurd read (noTag data address),
      fun data read => absurd read (noGlobal data),
      fun isVerifier => absurd isVerifier notVerifier⟩, rfl⟩

theorem scanAsset_ok {fMempoolCheck fBlockCheck : Bool}
    (passes : scanAsset env fMempoolCheck fBlockCheck scan out = .ok next) :
    next = { scan with setAssetTransferNames := next.setAssetTransferNames } ∧
      ∀ name ∈ next.setAssetTransferNames, name ∈ scan.setAssetTransferNames ∨ ∃ transfer address,
          transferAssetFromScript env out.scriptPubKey = some (transfer, address) ∧
            transfer.strName = name := by
  unfold scanAsset at passes
  split at passes
  · obtain rfl := pure_eq_ok.mp passes
    exact ⟨rfl, fun _ => .inl⟩
  · split at passes
    · unfold scanTransfer at passes
      obtain ⟨⟨transfer, address⟩, read, passes⟩ := bind_eq_ok.mp passes
      obtain ⟨_, _, _, _, _, _, passes⟩ := ok_bind₃ passes
      obtain ⟨_, _, _, _, passes⟩ := ok_bind₂ passes
      obtain rfl := pure_eq_ok.mp passes
      rw [require?_eq_ok] at read
      refine ⟨rfl, fun name member => ?_⟩
      rcases List.mem_cons.mp member with rfl | earlier
      · exact .inr ⟨transfer, address, read, rfl⟩
      · exact .inl earlier
    · obtain ⟨_, _, passes⟩ := bind_eq_ok.mp passes
      obtain rfl := pure_eq_ok.mp passes
      exact ⟨rfl, fun _ => .inl⟩
    · obtain ⟨_, _, _, _, passes⟩ := ok_bind₂ passes
      obtain rfl := pure_eq_ok.mp passes
      exact ⟨rfl, fun _ => .inl⟩
    · cases passes

theorem scanOutput_ok {fMempoolCheck fBlockCheck : Bool}
    (passes : scanOutput env fMempoolCheck fBlockCheck scan out = .ok next) :
    ScanStep env out scan next := by
  unfold scanOutput at passes
  obtain ⟨valued, value, nulls, null, asset⟩ := ok_bind₂ passes
  unfold scanValue at value
  obtain ⟨_, _, _, _, _, _, value⟩ := ok_bind₃ value
  obtain rfl := pure_eq_ok.mp value
  obtain ⟨step, sameNames⟩ := scanNullAsset_ok null
  obtain ⟨others, transfers⟩ := scanAsset_ok asset
  rw [sameNames] at transfers
  rw [others]
  exact ⟨transfers, step.keepsTags, step.keepsGlobals, step.keepsVerifier, step.tag,
    step.globalFreeze, step.verifier⟩

section

variable {fMempoolCheck fBlockCheck : Bool}

variable (scanned : tx.vout.foldlM (scanOutput env fMempoolCheck fBlockCheck) .start = .ok scan)

include scanned

theorem scan_transfers {name : Bytes} (member : name ∈ scan.setAssetTransferNames) :
    tx.hasTransferOf env name = true := by
  refine foldlM_invariant (fun s => ∀ name ∈ s.setAssetTransferNames,
    tx.hasTransferOf env name = true) scanned (by simp [OutputScan.start]) ?_ name member
  intro acc out next inOutputs step held name member
  rcases (scanOutput_ok step).transfers name member with earlier | ⟨transfer, address, read, rfl⟩
  · exact held name earlier
  · rw [hasTransferOf, List.any_eq_true]
    exact ⟨out, inOutputs, by simp [read]⟩

theorem scan_tags (member : out ∈ tx.vout) {address : Bytes}
    (read : assetNullDataFromScript env out.scriptPubKey = some (data, address)) :
    (data.assetName, address) ∈ scan.mapNullDataTxCount :=
  foldlM_establishes (fun s => (data.assetName, address) ∈ s.mapNullDataTxCount) scanned member
    (fun _ _ step => (scanOutput_ok step).tag data address read)
    fun _ _ _ step => fun held => (scanOutput_ok step).keepsTags held

theorem scan_globals (member : out ∈ tx.vout)
    (read : globalAssetNullDataFromScript out.scriptPubKey = some data) :
    data.assetName ∈ scan.setNullGlobalAssetChanges :=
  foldlM_establishes (fun s => data.assetName ∈ s.setNullGlobalAssetChanges) scanned member
    (fun _ _ step => (scanOutput_ok step).globalFreeze data read)
    fun _ _ _ step => fun held => (scanOutput_ok step).keepsGlobals held

theorem scan_verifier
    (member : out ∈ tx.vout) (isVerifier : isNullAssetVerifierTxDataScript out.scriptPubKey = true) :
    scan.fContainsNullAssetVerifierTx = true :=
  foldlM_establishes (fun s => s.fContainsNullAssetVerifierTx = true) scanned member
    (fun _ _ step => (scanOutput_ok step).verifier isVerifier)
    fun _ _ _ step => (scanOutput_ok step).keepsVerifier

end

theorem checkNullAuthority_ok (passes : checkNullAuthority scan = .ok ()) :
    (∀ name address, (name, address) ∈ scan.mapNullDataTxCount →
      (if name.head? = some restrictedChar then name.drop 1 ++ ownerTag else name) ∈
        scan.setAssetTransferNames) ∧
    ∀ name ∈ scan.setNullGlobalAssetChanges, name.drop 1 ++ ownerTag ∈ scan.setAssetTransferNames := by
  unfold checkNullAuthority at passes
  obtain ⟨_, tags, globals⟩ := bind_eq_ok.mp passes
  constructor
  · intro name address member
    have checked := forM_eq_ok.mp tags (name, address) member
    split at checked <;> simpa [*] using checked
  · intro name member
    obtain ⟨_, _, checked⟩ := bind_eq_ok.mp (forM_eq_ok.mp globals name member)
    simpa using checked

/-- Every tag, freeze and change of a verifier string comes with its token. -/
structure NullAuthorityHeld (env : Env) (view : CoinsView) (tx : Transaction) : Prop where
  tag : ∀ out ∈ tx.vout, ∀ data address,
    assetNullDataFromScript env out.scriptPubKey = some (data, address) →
      isAssetNameAQualifier data.assetName false = true → tx.Spends env view data.assetName
  freeze : ∀ out ∈ tx.vout, ∀ data address,
    assetNullDataFromScript env out.scriptPubKey = some (data, address) →
      isAssetNameAnRestricted data.assetName = true →
        tx.Spends env view (data.assetName.drop 1 ++ ownerTag)
  tagOrFreeze : ∀ out ∈ tx.vout, ∀ data address,
    assetNullDataFromScript env out.scriptPubKey = some (data, address) →
      isAssetNameAQualifier data.assetName false = true ∨
        isAssetNameAnRestricted data.assetName = true
  globalFreeze : ∀ out ∈ tx.vout, ∀ data,
    globalAssetNullDataFromScript out.scriptPubKey = some data →
      tx.Spends env view (data.assetName.drop 1 ++ ownerTag)
  /-- Outside the issuance of a restricted asset the verifier string belongs to
  the restricted asset the transaction reissues. -/
  verifier : ∀ out ∈ tx.vout, isNullAssetVerifierTxDataScript out.scriptPubKey = true →
    tx.isNewRestrictedAsset env = false →
      ∃ reissue address, tx.reissueAssetFromTransaction env = some (reissue, address) ∧
        assetNameType reissue.strName = .restricted ∧
        tx.Spends env view (reissue.strName.drop 1 ++ ownerTag)

section

variable {global : AssetState} {cache : AssetsCache} {mempool : MempoolMaps} {view : CoinsView}
  {outputs : AssetOutputs} {fCheckMempool : Bool} {nBlocktime currentTime : Int}

theorem checkTxAssets_tagOrFreeze
    (accepted : checkTxAssets env global cache mempool view tx fCheckMempool nBlocktime
      currentTime = .ok outputs) (member : out ∈ tx.vout) {address : Bytes}
    (read : assetNullDataFromScript env out.scriptPubKey = some (data, address)) :
    isAssetNameAQualifier data.assetName false = true ∨
      isAssetNameAnRestricted data.assetName = true := by
  obtain ⟨inputs, _, _, checked, _, _⟩ := checkTxAssets_ok accepted
  obtain ⟨acc, next, visited⟩ := foldlM_visits checked member
  have isTag := isNullAssetTxDataScript_of_read read
  unfold checkAssetOutput at visited
  obtain ⟨_, _, ⟨⟩, nullData, _⟩ := ok_bind₂ visited
  rw [checkNullAssetOutput, if_pos (by simp [isNullAsset, isTag])] at nullData
  obtain ⟨_, _, nullData⟩ := bind_eq_ok.mp nullData
  rw [if_pos isTag, contextualCheckNullAssetTxOut, read] at nullData
  obtain ⟨_, same, nullData⟩ := bind_eq_ok.mp nullData
  rw [require?_eq_ok, Option.some.injEq] at same
  subst same
  by_cases qualifier : isAssetNameAQualifier data.assetName false = true
  · exact .inl qualifier
  · by_cases restricted : isAssetNameAnRestricted data.assetName = true
    · exact .inr restricted
    · simp [qualifier, restricted] at nullData

end

theorem reissue_of_verifier {use : RestrictedUse} (kind : checkTransactionKind env tx = .ok use)
    (used : use ≠ .none) (notIssued : tx.isNewRestrictedAsset env = false) :
    ∃ reissue address, tx.reissueAssetFromTransaction env = some (reissue, address) ∧
      assetNameType reissue.strName = .restricted ∧
      tx.hasTransferOf env (reissue.strName.drop 1 ++ ownerTag) = true := by
  have branch := checkTransactionKind_ok kind
  cases kindEq : tx.kind env <;> simp only [kindEq] at branch
  case reissue =>
    obtain ⟨verified, restricted, notIssuance⟩ := branch
    obtain ⟨_, reissue, address, read, moved, _⟩ := verifyReissueAsset_ok verified
    have isReissuance : use = .reissuance := by
      cases use with
      | none => exact absurd rfl used
      | issuance => exact absurd rfl notIssuance
      | reissuance => rfl
    obtain ⟨reissue', address', readAgain, type⟩ := restricted isReissuance
    rw [read] at readAgain
    cases readAgain
    rw [reissueAuthority, if_pos type] at moved
    refine ⟨reissue, address, ?_, type, moved⟩
    rw [reissueAssetFromTransaction, if_pos (isReissueAsset_of_kind kindEq), read]
  case restricted =>
    obtain ⟨_, asset, ⟨⟨address, read⟩, _⟩, type, _⟩ := verifyNewRestrictedAsset_ok branch.1
    rw [isNewRestrictedAsset, show isNewAssetScript _ = true from kind_of_read read, Bool.true_and,
      isScriptNewRestrictedAsset, isScriptNewAssetOf_of_read read (by simp [type])
        (by simp [type])] at notIssued
    cases notIssued
  -- no other kind asks for a verifier string
  all_goals exact absurd branch.2 used

/-- The token behind every tag, freeze and verifier string of an accepted
transaction is among the coins it spends. -/
theorem nullAuthority_held (env : Env) (global : AssetState) (cache : AssetsCache)
    (mempool : MempoolMaps) (view : CoinsView) (tx : Transaction)
    (fCheckDuplicateInputs fMempoolCheck fBlockCheck fCheckMempool : Bool)
    (nBlocktime currentTime : Int) (outputs : AssetOutputs)
    (checked : checkTransaction env tx fCheckDuplicateInputs fMempoolCheck fBlockCheck = .ok ())
    (accepted : checkTxAssets env global cache mempool view tx fCheckMempool nBlocktime
      currentTime = .ok outputs) : NullAuthorityHeld env view tx := by
  obtain ⟨scan, use, _, scanned, _, authority, _, kind, verifiers⟩ := checkTransaction_ok checked
  obtain ⟨tags, globals⟩ := checkNullAuthority_ok authority
  have spends : ∀ {token}, token ∈ scan.setAssetTransferNames → tx.Spends env view token :=
    fun member => (spends_iff_hasTransferOf accepted).mpr (scan_transfers scanned member)
  refine ⟨?_, ?_, ?_, ?_, ?_⟩
  · intro out member data address read qualifier
    have found := tags data.assetName address (scan_tags scanned member read)
    rw [head_of_qualifier qualifier, if_neg (by decide)] at found
    exact spends found
  · intro out member data address read restricted
    have found := tags data.assetName address (scan_tags scanned member read)
    rw [if_pos (head_of_restricted restricted)] at found
    exact spends found
  · intro out member data address read
    exact checkTxAssets_tagOrFreeze accepted member read
  · intro out member data read
    exact spends (globals data.assetName (scan_globals scanned member read))
  · intro out member isVerifier notIssued
    obtain ⟨reissue, address, read, type, moved⟩ := reissue_of_verifier kind
      (verifiers (scan_verifier scanned member isVerifier)) notIssued
    exact ⟨reissue, address, read, type, (spends_iff_hasTransferOf accepted).mpr moved⟩

namespace NullAssets

def tagName : Bytes := ascii "#TAG"

def tagBob : Transaction :=
  transaction 8 [⟨7, 0⟩, ⟨7, 1⟩]
    [pay (coin / 10) burnKey, transfer tagName coin,
      tag tagName 1 bob]

def view : CoinsView :=
  coins [(⟨7, 0⟩, pay coin alice), (⟨7, 1⟩, transfer tagName coin)]

def state : AssetState := recording [⟨tagName, coin, 0, 0, 0, []⟩]

end NullAssets

open NullAssets

/-- Bob is tagged by a transaction that spends the qualifier. -/
theorem nullAuthority_held_tag : checkTransaction MainNet.env tagBob true false true = .ok () ∧
      tagBob.Spends MainNet.env view tagName := by
  have checked : checkTransaction env tagBob true false true = .ok () := by decide +kernel
  have passes : (checkTxAssets env state .empty .empty view tagBob false 0 0).passed = true := by
    decide +kernel
  refine ⟨checked, ?_⟩
  obtain ⟨outputs, accepted⟩ := passed_iff.mp passes
  have held := nullAuthority_held env state .empty .empty view tagBob true false true false
    0 0 outputs checked accepted
  have tagged : (assetNullDataFromScript env
      (tag tagName 1 bob).scriptPubKey).map (fun read => read.1.assetName) =
        some tagName := by decide +kernel
  obtain ⟨⟨data, address⟩, read, name⟩ := Option.map_eq_some_iff.mp tagged
  have spent := held.tag (tag tagName 1 bob) (by simp [tagBob, transaction])
    data address read (name ▸ by decide +kernel)
  exact name ▸ spent

end Phicoin
