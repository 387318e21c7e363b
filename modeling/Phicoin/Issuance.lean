import Phicoin.Accepted

/-! # What the format checks of issuances establish

Each `verify…` function demands the transfer of a controlling token and counts
the outputs of every kind.  The lemmas state both for an accepted transaction;
a transaction of no issuing kind has transfers only. -/

namespace Phicoin

open Check Transaction

variable {env : Env} {tx : Transaction}
  {name : Bytes}

theorem assetNameType_of_valid {type : AssetType}
    (valid : isAssetNameValid name = .ok type) : assetNameType name = type := by
  simp [assetNameType, valid]

theorem isAssetNameValid_of_type {type : AssetType} (is : assetNameType name = type)
    (real : type ≠ .invalid) : isAssetNameValid name = .ok type := by
  subst is
  unfold assetNameType at real ⊢
  cases checked : isAssetNameValid name with
  | error reason => simp [checked] at real
  | ok type => rfl

theorem beforeLast_ne_nil {delimiter c : UInt8} {rest : Bytes} (differs : c ≠ delimiter) :
    beforeLast delimiter (c :: rest) ≠ [] := by
  unfold beforeLast
  cases dropped : (c :: rest).reverse.dropWhile (· ≠ delimiter) with
  | nil => simp
  | cons d front =>
    intro empty
    have frontNil : front = [] := by simpa using empty
    have isDelimiter : d = delimiter := by
      have stops := List.head?_dropWhile_not (fun x : UInt8 => decide (x ≠ delimiter))
        (c :: rest).reverse
      rw [dropped] at stops
      simpa using stops
    -- the reversed name would end in the delimiter
    have suffix := List.dropWhile_suffix (fun x : UInt8 => decide (x ≠ delimiter))
      (l := (c :: rest).reverse)
    rw [dropped, frontNil, List.reverse_cons] at suffix
    have last := List.singleton_suffix_iff_getLast?_eq_some.mp suffix
    simp at last
    exact differs (last.trans isDelimiter)

theorem getParentName_unique_ne_nil (valid : isAssetNameValid name = .ok .unique) :
    getParentName name ≠ [] := by
  obtain ⟨c, rest, rfl, notDelimiter⟩ :=
    Regex.accepts_seq_seq_cls (isAssetNameValid_ok valid).1
  have differs : c ≠ uniqueTagDelimiter := by
    rintro rfl
    revert notDelimiter
    decide
  simp only [getParentName, valid]
  exact beforeLast_ne_nil differs

theorem getParentName_restricted (type : assetNameType name = .restricted) :
    getParentName name = name := by
  simp only [getParentName, isAssetNameValid_of_type type (by decide)]

theorem head_of_restricted (restricted : isAssetNameAnRestricted name = true) :
    name.head? = some restrictedChar := by
  simp only [isAssetNameAnRestricted, Bool.and_eq_true] at restricted
  obtain ⟨c, rest, rfl, isDollar, _⟩ := Regex.accepts_seq_cls.mp restricted.2
  have dollar : ascii "$" = [restrictedChar] := by decide
  simpa [oneOf, dollar] using isDollar

theorem head_of_qualifier (qualifier : isAssetNameAQualifier name false = true) :
    name.head? = some qualifierChar := by
  simp only [isAssetNameAQualifier, Bool.and_eq_true, Bool.or_eq_true] at qualifier
  have hash : ascii "#" = [qualifierChar] := by decide
  rcases qualifier.2 with root | ⟨_, sub⟩
  · obtain ⟨c, rest, rfl, isHash, _⟩ := Regex.accepts_seq_cls.mp root
    simpa [oneOf, hash] using isHash
  · obtain ⟨c, rest, rfl, isHash, _⟩ := Regex.accepts_seq_cls.mp sub
    simpa [oneOf, hash] using isHash

theorem isAssetNameAnRestricted_of_type (type : assetNameType name = .restricted) :
    isAssetNameAnRestricted name = true := by
  have valid := isAssetNameValid_of_type type (by decide)
  simp only [isAssetNameAnRestricted, valid, passed, Bool.true_and]
  exact (isAssetNameValid_ok valid).1

theorem isAssetNameAQualifier_of_type
    (type : assetNameType name = .qualifier ∨ assetNameType name = .subQualifier) :
    isAssetNameAQualifier name false = true := by
  simp only [isAssetNameAQualifier, Bool.and_eq_true, Bool.or_eq_true, Bool.not_false, true_and]
  rcases type with type | type <;>
  · have valid := isAssetNameValid_of_type type (by decide)
    exact ⟨by simp [valid, passed], (isAssetNameValid_ok valid).1⟩

variable {accepted : AssetType → Bool} {script : Bytes}

theorem isScriptNewAssetOf_iff : isScriptNewAssetOf accepted env script = true ↔
      ∃ asset address type, assetFromScript env script = some (asset, address) ∧
        isAssetNameValid asset.strName = .ok type ∧ accepted type = true := by
  unfold isScriptNewAssetOf
  cases assetFromScript env script with
  | none => simp
  | some result =>
    obtain ⟨asset, address⟩ := result
    cases valid : isAssetNameValid asset.strName with
    | error reason => simp [valid]
    | ok type => simp [valid]

theorem isScriptNewUniqueAsset_iff : isScriptNewUniqueAsset env script = true ↔
      ∃ asset address, assetFromScript env script = some (asset, address) ∧
        isAssetNameValid asset.strName = .ok .unique := by
  rw [isScriptNewUniqueAsset, isScriptNewAssetOf_iff]
  simp

theorem scanUnique_ok {start next : Transaction.UniqueScan} {out : TxOut}
    (passes : scanUnique env start out = .ok next) :
    (isScriptNewUniqueAsset env out.scriptPubKey = true ∧
      ∃ asset address, assetFromScript env out.scriptPubKey = some (asset, address) ∧
        isAssetNameValid asset.strName = .ok .unique ∧
        next.assetRoot = getParentName asset.strName ∧
        (start.assetRoot ≠ [] → next.assetRoot = start.assetRoot) ∧
        next.setUniqueAssets.length = start.setUniqueAssets.length + 1) ∨
      (isScriptNewUniqueAsset env out.scriptPubKey = false ∧ next = start) := by
  unfold scanUnique at passes
  split at passes
  · rename_i unique
    refine .inl ⟨unique, ?_⟩
    obtain ⟨asset, address, read, valid⟩ := isScriptNewUniqueAsset_iff.mp unique
    obtain ⟨⟨asset', address'⟩, readAgain, passes⟩ := bind_eq_ok.mp passes
    rw [require?_eq_ok, read] at readAgain
    cases readAgain
    obtain ⟨_, sameRoot, _, _, passes⟩ := ok_bind₂ passes
    rw [require_eq_ok, decide_eq_true_eq] at sameRoot
    obtain rfl := pure_eq_ok.mp passes
    refine ⟨asset, address, read, valid, sameRoot, ?_, rfl⟩
    intro nonempty
    rw [if_neg nonempty]
  · rename_i other
    exact .inr ⟨by simpa using other, (pure_eq_ok.mp passes).symm⟩

theorem foldlM_scanUnique {outs : List TxOut} {start final : Transaction.UniqueScan}
    (passes : outs.foldlM (scanUnique env) start = .ok final) :
    (start.assetRoot ≠ [] → final.assetRoot = start.assetRoot) ∧
      final.setUniqueAssets.length = start.setUniqueAssets.length +
        outs.countP (fun out => isScriptNewUniqueAsset env out.scriptPubKey) ∧
      ∀ out ∈ outs, ∀ asset address, assetFromScript env out.scriptPubKey = some (asset, address) →
        isAssetNameValid asset.strName = .ok .unique →
          getParentName asset.strName = final.assetRoot := by
  induction outs generalizing start with
  | nil =>
    obtain rfl := pure_eq_ok.mp passes
    simp
  | cons out rest ih =>
    obtain ⟨middle, head, tail⟩ := foldlM_cons_eq_ok.mp passes
    obtain ⟨keeps, counted, roots⟩ := ih tail
    rcases scanUnique_ok head with
      ⟨unique, asset, address, read, valid, root, keepsHead, countedHead⟩ | ⟨other, rfl⟩
    · have finalRoot : final.assetRoot = getParentName asset.strName := by
        rw [keeps (root ▸ getParentName_unique_ne_nil valid), root]
      refine ⟨?_, ?_, ?_⟩
      · intro nonempty
        rw [finalRoot, ← root, keepsHead nonempty]
      · rw [counted, countedHead, List.countP_cons, if_pos unique]
        omega
      · intro later member asset' address' read' valid'
        rcases List.mem_cons.mp member with rfl | inRest
        · rw [read] at read'
          cases read'
          exact finalRoot.symm
        · exact roots later inRest asset' address' read' valid'
    · refine ⟨keeps, ?_, ?_⟩
      · simp [counted, other]
      · intro later member asset' address' read' valid'
        rcases List.mem_cons.mp member with rfl | inRest
        · rw [isScriptNewUniqueAsset_iff.mpr ⟨asset', address', read', valid'⟩] at other
          cases other
        · exact roots later inRest asset' address' read' valid'

theorem of_countP_eq {α : Type} {p q : α → Bool} {xs : List α} (weaker : ∀ x, p x → q x)
    (same : xs.countP q = xs.countP p) {x : α} (member : x ∈ xs) (holds : q x) : p x := by
  have sublist : (xs.filter p).Sublist (xs.filter q) := List.monotone_filter_right xs weaker
  have equal : xs.filter p = xs.filter q := by
    apply sublist.eq_of_length
    rw [← List.countP_eq_length_filter, ← List.countP_eq_length_filter, same]
  have kept : x ∈ xs.filter p := equal ▸ List.mem_filter.mpr ⟨member, holds⟩
  exact (List.mem_filter.mp kept).2

variable {asset : NewAsset} {address : Bytes}

def NoIssue (env : Env) (tx : Transaction) : Prop :=
  ∀ out ∈ tx.vout, assetFromScript env out.scriptPubKey = none

def NoReissue (env : Env) (tx : Transaction) : Prop :=
  ∀ out ∈ tx.vout, reissueAssetFromScript env out.scriptPubKey = none

theorem noIssue_of_count (zero : countOutputs tx.vout .newAsset false = 0) : NoIssue env tx := by
  intro out member
  refine Option.eq_none_iff_forall_not_mem.mpr fun ⟨asset, address⟩ read => ?_
  exact countOutputs_ne_zero member (kind_of_read read) zero

theorem noReissue_of_count (zero : countOutputs tx.vout .reissueAsset false = 0) :
    NoReissue env tx := by
  intro out member
  refine Option.eq_none_iff_forall_not_mem.mpr fun ⟨reissue, address⟩ read => ?_
  exact countOutputs_ne_zero member (kind_of_read read) zero

theorem isScriptNewUniqueAsset_of_verified (passes : tx.verifyNewUniqueAsset env = .ok ())
    {out : TxOut} (member : out ∈ tx.vout) (isNew : isNewAssetScript out.scriptPubKey = true) :
    isScriptNewUniqueAsset env out.scriptPubKey = true := by
  unfold verifyNewUniqueAsset at passes
  obtain ⟨_, _, scan, scanned, passes⟩ := ok_bind₂ passes
  iterate 3 obtain ⟨_, _, passes⟩ := bind_eq_ok.mp passes
  obtain ⟨_, length, _⟩ := foldlM_scanUnique scanned
  simp only [require_eq_ok, Bool.and_eq_true, decide_eq_true_eq] at passes
  have issues := passes.2
  rw [length, List.length_nil, Nat.zero_add] at issues
  refine of_countP_eq (fun other isUnique => ?_) issues member isNew
  obtain ⟨_, _, readOther, _⟩ := isScriptNewUniqueAsset_iff.mp isUnique
  exact kind_of_read readOther

theorem verifyNewUniqueAsset_ok (passes : tx.verifyNewUniqueAsset env = .ok ()) :
    NoReissue env tx ∧ ∃ root, tx.hasTransferOf env (root ++ ownerTag) = true ∧
      ∀ out ∈ tx.vout, ∀ asset address,
        assetFromScript env out.scriptPubKey = some (asset, address) →
          isAssetNameValid asset.strName = .ok .unique ∧ getParentName asset.strName = root := by
  have uniques := @isScriptNewUniqueAsset_of_verified env tx passes
  unfold verifyNewUniqueAsset at passes
  obtain ⟨_, _, scan, scanned, _, _, passes⟩ := ok_bind₃ passes
  obtain ⟨_, _, _, moved, counted⟩ := ok_bind₂ passes
  obtain ⟨_, _, roots⟩ := foldlM_scanUnique scanned
  simp only [require_eq_ok, Bool.and_eq_true, decide_eq_true_eq] at moved counted
  refine ⟨noReissue_of_count counted.1.2, scan.assetRoot, moved, ?_⟩
  intro out member asset address read
  have unique := uniques member (kind_of_read read)
  obtain ⟨asset', address', readAgain, valid⟩ := isScriptNewUniqueAsset_iff.mp unique
  rw [read] at readAgain
  cases readAgain
  exact ⟨valid, roots out member asset address read valid⟩

/-- The last output issues `asset`, and no other asset is issued. -/
def OnlyIssue (env : Env) (tx : Transaction) (asset : NewAsset) : Prop :=
  (∃ address, assetFromScript env tx.lastScript = some (asset, address)) ∧
    ∀ out ∈ tx.vout, ∀ other address,
      assetFromScript env out.scriptPubKey = some (other, address) → other = asset

theorem onlyIssue_of_count (one : countOutputs tx.vout .newAsset false = 1)
    (read : assetFromScript env tx.lastScript = some (asset, address)) :
    OnlyIssue env tx asset := by
  refine ⟨⟨address, read⟩, fun out member other address' readOther => ?_⟩
  have same := script_eq_lastScript one (kind_of_read read) member
    (kind_of_read readOther)
  rw [same, read] at readOther
  cases readOther
  rfl

def SingleIssue (env : Env) (tx : Transaction) : Prop :=
  ∃ asset address, assetFromScript env tx.lastScript = some (asset, address) ∧
    tx.hasIssueBurn env (assetNameType asset.strName) 1 = true ∧
    countOutputs tx.vout .newAsset false = 1 ∧ countOutputs tx.vout .reissueAsset false = 0

theorem SingleIssue.noReissue (single : SingleIssue env tx) : NoReissue env tx := by
  obtain ⟨_, _, _, _, _, zero⟩ := single
  exact noReissue_of_count zero

theorem verifyNewAsset_ok (passes : tx.verifyNewAsset env = .ok ()) :
    SingleIssue env tx ∧ ∃ asset, OnlyIssue env tx asset ∧ (assetNameType asset.strName = .sub →
        tx.hasTransferOf env (getParentName asset.strName ++ ownerTag) = true) := by
  unfold verifyNewAsset at passes
  obtain ⟨_, _, _, _, _, _, passes⟩ := ok_bind₃ passes
  obtain ⟨⟨asset, address⟩, read, passes⟩ := bind_eq_ok.mp passes
  obtain ⟨_, _, _, _, _, burns, passes⟩ := ok_bind₃ passes
  obtain ⟨_, moved, counted⟩ := bind_eq_ok.mp passes
  simp only [require_eq_ok, require?_eq_ok, Bool.and_eq_true, Bool.or_eq_true,
    decide_eq_true_eq] at read burns moved counted
  obtain ⟨⟨_, issues⟩, noReissues⟩ := counted
  exact ⟨⟨asset, address, read, burns, issues, noReissues⟩, asset, onlyIssue_of_count issues read,
    fun sub => moved.resolve_left (not_not_intro sub)⟩

theorem read_of_type
    (read : (if isScriptNewAssetOf accepted env script then assetFromScript env script else none) =
      some (asset, address)) : assetFromScript env script = some (asset, address) ∧
      accepted (assetNameType asset.strName) = true := by
  split at read
  · rename_i isNew
    obtain ⟨asset', address', type, readAgain, valid, ofType⟩ := isScriptNewAssetOf_iff.mp isNew
    rw [read] at readAgain
    cases readAgain
    exact ⟨read, by rwa [assetNameType_of_valid valid]⟩
  · cases read

theorem verifyNewMsgChannelAsset_ok (passes : tx.verifyNewMsgChannelAsset env = .ok ()) :
    SingleIssue env tx ∧ ∃ asset, OnlyIssue env tx asset ∧
      assetNameType asset.strName = .msgChannel ∧
      tx.hasTransferOf env (getParentName asset.strName ++ ownerTag) = true := by
  unfold verifyNewMsgChannelAsset at passes
  obtain ⟨_, _, _, _, ⟨asset, address⟩, read, passes⟩ := ok_bind₃ passes
  obtain ⟨_, burns, _, moved, counted⟩ := ok_bind₂ passes
  simp only [require_eq_ok, require?_eq_ok, Bool.and_eq_true, decide_eq_true_eq]
    at read burns moved counted
  obtain ⟨⟨_, issues⟩, noReissues⟩ := counted
  obtain ⟨read, type⟩ := read_of_type read
  rw [decide_eq_true_eq] at type
  rw [← type] at burns
  exact ⟨⟨asset, address, read, burns, issues, noReissues⟩, asset, onlyIssue_of_count issues read,
    type, moved⟩

theorem verifyNewQualfierAsset_ok (passes : tx.verifyNewQualfierAsset env = .ok ()) :
    SingleIssue env tx ∧ ∃ asset, OnlyIssue env tx asset ∧
      (assetNameType asset.strName = .qualifier ∨ assetNameType asset.strName = .subQualifier) ∧
      (assetNameType asset.strName = .subQualifier →
        tx.hasTransferOf env (getParentName asset.strName) = true) := by
  unfold verifyNewQualfierAsset at passes
  obtain ⟨_, _, _, _, ⟨asset, address⟩, read, passes⟩ := ok_bind₃ passes
  obtain ⟨_, burns, _, moved, counted⟩ := ok_bind₂ passes
  simp only [require_eq_ok, require?_eq_ok, Bool.and_eq_true, Bool.or_eq_true,
    decide_eq_true_eq] at read burns moved counted
  obtain ⟨⟨_, issues⟩, noReissues⟩ := counted
  obtain ⟨read, type⟩ := read_of_type read
  exact ⟨⟨asset, address, read, burns, issues, noReissues⟩, asset, onlyIssue_of_count issues read,
    by simpa using type, fun sub => moved.resolve_left (not_not_intro sub)⟩

theorem verifyNewRestrictedAsset_ok (passes : tx.verifyNewRestrictedAsset env = .ok ()) :
    SingleIssue env tx ∧ ∃ asset, OnlyIssue env tx asset ∧
      assetNameType asset.strName = .restricted ∧
      tx.hasTransferOf env ((getParentName asset.strName).drop 1 ++ ownerTag) = true := by
  unfold verifyNewRestrictedAsset at passes
  obtain ⟨_, _, _, _, ⟨asset, address⟩, read, passes⟩ := ok_bind₃ passes
  obtain ⟨_, burns, _, moved, _, _, counted⟩ := ok_bind₃ passes
  simp only [require_eq_ok, require?_eq_ok, Bool.and_eq_true, decide_eq_true_eq]
    at read burns moved counted
  obtain ⟨⟨_, issues⟩, noReissues⟩ := counted
  obtain ⟨read, type⟩ := read_of_type read
  exact ⟨⟨asset, address, read, burns, issues, noReissues⟩, asset, onlyIssue_of_count issues read,
    by simpa using type, moved⟩

theorem verifyReissueAsset_ok (passes : tx.verifyReissueAsset env = .ok ()) :
    NoIssue env tx ∧ ∃ reissue address,
      reissueAssetFromScript env tx.lastScript = some (reissue, address) ∧
      tx.hasTransferOf env (reissueAuthority reissue ++ ownerTag) = true ∧
      ∀ out ∈ tx.vout, ∀ other address',
        reissueAssetFromScript env out.scriptPubKey = some (other, address') → other = reissue := by
  unfold verifyReissueAsset at passes
  obtain ⟨_, _, _, _, ⟨reissue, address⟩, read, passes⟩ := ok_bind₃ passes
  obtain ⟨_, moved, _, _, counted⟩ := ok_bind₂ passes
  simp only [require_eq_ok, require?_eq_ok, Bool.and_eq_true, decide_eq_true_eq] at read moved counted
  obtain ⟨⟨_, reissues⟩, noIssues⟩ := counted
  refine ⟨noIssue_of_count noIssues, reissue, address, read, moved, ?_⟩
  intro out member other address' readOther
  have same := script_eq_lastScript reissues (kind_of_read read) member
    (kind_of_read readOther)
  rw [same, read] at readOther
  cases readOther
  rfl

theorem checkPlainOutput_ok (env : Env)
    (passes : (forM tx.vout checkPlainOutput : Check Unit) = .ok ()) :
    NoIssue env tx ∧ NoReissue env tx := by
  have transferOnly : ∀ out ∈ tx.vout, ∀ info, isAssetScript out.scriptPubKey = some info →
      info.nType = .transferAsset := by
    intro out member info found
    have checked := forM_eq_ok.mp passes out member
    simpa [checkPlainOutput, found] using checked
  constructor <;> intro out member <;>
    refine Option.eq_none_iff_forall_not_mem.mpr fun ⟨record, address⟩ read => ?_
  · obtain ⟨n, kind, _⟩ := assetFromScript_eq_some read
    cases transferOnly out member _ (assetScriptOf_eq_some.mp kind)
  · obtain ⟨n, kind, _⟩ := reissueAssetFromScript_eq_some read
    cases transferOnly out member _ (assetScriptOf_eq_some.mp kind)

theorem isScriptNewAssetOf_of_read (read : assetFromScript env script = some (asset, address))
    (valid : assetNameType asset.strName ≠ .invalid)
    (ofType : accepted (assetNameType asset.strName) = true) :
    isScriptNewAssetOf accepted env script = true :=
  isScriptNewAssetOf_iff.mpr ⟨asset, address, _, read, isAssetNameValid_of_type rfl valid, ofType⟩

inductive TxKind where
  | issue
  | reissue
  | unique
  | msgChannel
  | qualifier
  | restricted
  | plain
deriving DecidableEq

/-- The first question on the shape of the last outputs that is answered with yes. -/
def Transaction.kind (env : Env) (tx : Transaction) : TxKind :=
  if tx.isNewAsset env then .issue
  else if tx.isReissueAsset then .reissue
  else if tx.isNewUniqueAsset env then .unique
  else if tx.isNewMsgChannelAsset env then .msgChannel
  else if tx.isNewQualifierAsset env then .qualifier
  else if tx.isNewRestrictedAsset env then .restricted
  else .plain

theorem isNewAsset_of_kind (kind : tx.kind env = .issue) : tx.isNewAsset env = true := by
  unfold Transaction.kind at kind
  split_ifs at kind
  assumption

theorem isReissueAsset_of_kind (kind : tx.kind env = .reissue) : tx.isReissueAsset = true := by
  unfold Transaction.kind at kind
  split_ifs at kind
  assumption

theorem isNewAsset_type (isNew : tx.isNewAsset env = true)
    (read : assetFromScript env tx.lastScript = some (asset, address)) :
    assetNameType asset.strName ≠ .unique ∧ assetNameType asset.strName ≠ .restricted := by
  simp only [isNewAsset, Bool.and_eq_true, Bool.not_eq_true', Bool.or_eq_false_iff]
    at isNew
  obtain ⟨_, notUnique, notRestricted⟩ := isNew
  constructor
  · intro unique
    rw [isScriptNewUniqueAsset, isScriptNewAssetOf_of_read read (by simp [unique])
      (by simp [unique])] at notUnique
    cases notUnique
  · intro restricted
    rw [isScriptNewRestrictedAsset, isScriptNewAssetOf_of_read read (by simp [restricted])
      (by simp [restricted])] at notRestricted
    cases notRestricted

theorem checkTransactionKind_ok {use : RestrictedUse}
    (passes : checkTransactionKind env tx = .ok use) :
    match tx.kind env with
    | .issue => tx.verifyNewAsset env = .ok () ∧ use = .none
    | .reissue => tx.verifyReissueAsset env = .ok () ∧ (use = .reissuance → ∃ reissue address,
        reissueAssetFromScript env tx.lastScript = some (reissue, address) ∧
          assetNameType reissue.strName = .restricted) ∧ use ≠ .issuance
    | .unique => tx.verifyNewUniqueAsset env = .ok () ∧ use = .none
    | .msgChannel => tx.verifyNewMsgChannelAsset env = .ok () ∧ use = .none
    | .qualifier => tx.verifyNewQualfierAsset env = .ok () ∧ use = .none
    | .restricted => tx.verifyNewRestrictedAsset env = .ok () ∧ use = .issuance
    | .plain => (forM tx.vout checkPlainOutput : Check Unit) = .ok () ∧ use = .none := by
  unfold checkTransactionKind at passes
  unfold kind
  split_ifs at passes ⊢ with isNew isReissue isUnique isChannel isQualifier isRestricted
  · obtain ⟨⟨⟩, verified, _, _, _, _, passes⟩ := ok_bind₃ passes
    obtain ⟨_, _, passes⟩ := bind_eq_ok.mp passes
    exact ⟨verified, (pure_eq_ok.mp passes).symm⟩
  · obtain ⟨⟨⟩, verified, ⟨reissue, address⟩, read, passes⟩ := ok_bind₂ passes
    obtain ⟨_, _, passes⟩ := bind_eq_ok.mp passes
    rw [require?_eq_ok, reissueAssetFromTransaction, if_pos isReissue] at read
    refine ⟨verified, ?_⟩
    split at passes
    · rename_i restricted
      obtain ⟨_, _, passes⟩ := bind_eq_ok.mp passes
      obtain rfl := pure_eq_ok.mp passes
      exact ⟨fun _ => ⟨reissue, address, read, restricted⟩, by simp⟩
    · obtain rfl := pure_eq_ok.mp passes
      exact ⟨by simp, by simp⟩
  · obtain ⟨⟨⟩, verified, _, _, passes⟩ := ok_bind₂ passes
    exact ⟨verified, (pure_eq_ok.mp passes).symm⟩
  · obtain ⟨⟨⟩, verified, _, _, _, _, passes⟩ := ok_bind₃ passes
    exact ⟨verified, (pure_eq_ok.mp passes).symm⟩
  · obtain ⟨⟨⟩, verified, _, _, _, _, passes⟩ := ok_bind₃ passes
    exact ⟨verified, (pure_eq_ok.mp passes).symm⟩
  · obtain ⟨⟨⟩, verified, _, _, _, _, passes⟩ := ok_bind₃ passes
    obtain ⟨_, _, passes⟩ := bind_eq_ok.mp passes
    exact ⟨verified, (pure_eq_ok.mp passes).symm⟩
  · obtain ⟨⟨⟩, plain, passes⟩ := bind_eq_ok.mp passes
    exact ⟨plain, (pure_eq_ok.mp passes).symm⟩

/-- The stages of an accepting run of `CheckTransaction`: the scan of the outputs, and the use
of the verifier by the kind of the transaction. -/
structure CheckStages (env : Env) (tx : Transaction)
    (fCheckDuplicateInputs fMempoolCheck fBlockCheck : Bool) (scan : OutputScan)
    (use : RestrictedUse) : Prop where
  size : tx.serializeSize * witnessScaleFactor ≤ maxBlockWeight
  scanned : tx.vout.foldlM (scanOutput env fMempoolCheck fBlockCheck) OutputScan.start = .ok scan
  tagBurn : scan.nCountAddTagOuts = 0 ∨
    tx.checkAddingTagBurnFee env scan.nCountAddTagOuts = true
  authority : checkNullAuthority scan = .ok ()
  prevouts : checkPrevouts env tx fCheckDuplicateInputs = .ok ()
  kind : checkTransactionKind env tx = .ok use
  verifier : scan.fContainsNullAssetVerifierTx = true → use ≠ .none

theorem checkTransaction_ok {fCheckDuplicateInputs fMempoolCheck fBlockCheck : Bool}
    (passes : checkTransaction env tx fCheckDuplicateInputs fMempoolCheck fBlockCheck = .ok ()) :
    ∃ scan use, CheckStages env tx fCheckDuplicateInputs fMempoolCheck fBlockCheck scan use := by
  unfold checkTransaction at passes
  obtain ⟨_, _, _, _, _, size, passes⟩ := ok_bind₃ passes
  obtain ⟨scan, scanned, _, tagBurn, ⟨⟩, authority, passes⟩ := ok_bind₃ passes
  obtain ⟨⟨⟩, prevouts, use, kind, _, verifier, _⟩ := ok_bind₃ passes
  simp only [require_eq_ok, Bool.or_eq_true, decide_eq_true_eq] at size tagBurn
  refine ⟨scan, use, size, scanned, tagBurn, authority, prevouts, kind, ?_⟩
  intro contains unused
  simp [contains, unused] at verifier

end Phicoin
