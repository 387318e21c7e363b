import Phicoin.Base58
import Phicoin.Changes
import Phicoin.NullAssets
import Phicoin.Spender

/-! # Restricted assets

What an accepted transaction may do with a restricted asset: whose coins it
spends, whether it moves the asset at all, and whom its outputs pay.  Freezes,
tags and the verifier string of a transfer are those of the state before the
block; only a reissue looks at the verifier string that its own transaction or an
earlier one of the block sets. -/

namespace Phicoin

open Check Option MainNet Transaction

theorem mapM_mono {α β : Type} {f g : α → Option β} {xs : List α} {ys : List β}
    (extends_ : ∀ x y, f x = some y → g x = some y) (mapped : xs.mapM f = some ys) :
    xs.mapM g = some ys := by
  induction xs generalizing ys with
  | nil => simpa using mapped
  | cons x rest ih =>
    simp only [List.mapM_cons, bind_eq_bind, bind_eq_some_iff] at mapped ⊢
    obtain ⟨y, first, zs, others, same⟩ := mapped
    exact ⟨y, extends_ x y first, zs, ih others, same⟩

theorem resolve_mono {v w : Bytes → Option Bool}
    (extends_ : ∀ name b, v name = some b → w name = some b) (fuel : Nat) (formula : Bytes)
    (value : Bool) (resolved : LibBoolEE.resolve v fuel formula = some value) :
    LibBoolEE.resolve w fuel formula = some value := by
  induction fuel generalizing formula value with
  | zero => cases resolved
  | succ fuel ih =>
    unfold LibBoolEE.resolve at resolved ⊢
    generalize LibBoolEE.removeWhitespaces formula = source at resolved ⊢
    dsimp only at resolved ⊢
    by_cases empty : source = []
    · simp [empty] at resolved
    · rw [if_neg empty] at resolved ⊢
      generalize LibBoolEE.singleParse source LibBoolEE.orChar = ors at resolved ⊢
      generalize LibBoolEE.singleParse source LibBoolEE.andChar = ands at resolved ⊢
      rcases ors with _ | _ | ⟨p, _ | ⟨q, ps⟩⟩
      · cases resolved
      · cases resolved
      · rcases ands with _ | _ | ⟨r, _ | ⟨t, rs⟩⟩
        · cases resolved
        · cases resolved
        · dsimp only at resolved ⊢
          split_ifs at resolved ⊢ with negated opened
          · obtain ⟨inner, resolvedInner, rfl⟩ := map_eq_some_iff.mp resolved
            rw [ih _ _ resolvedInner]
            rfl
          · exact ih _ _ resolved
          · exact resolved
          · exact resolved
          · exact extends_ _ _ resolved
        · obtain ⟨values, mapped, rfl⟩ := map_eq_some_iff.mp resolved
          exact map_eq_some_iff.mpr ⟨values, mapM_mono ih mapped, rfl⟩
      · obtain ⟨values, mapped, rfl⟩ := map_eq_some_iff.mp resolved
        exact map_eq_some_iff.mpr ⟨values, mapM_mono ih mapped, rfl⟩

namespace AssetState

variable (state : AssetState)

def tagged (qualifier address : Bytes) : Bool :=
  AssetsCache.empty.checkForAddressQualifier state qualifier address false

def frozen (name address : Bytes) : Bool :=
  AssetsCache.empty.checkForAddressRestriction state name address false

def globallyFrozen (name : Bytes) : Bool :=
  AssetsCache.empty.checkForGlobalRestriction state name false

def verifier (name : Bytes) : Option Bytes :=
  AssetsCache.empty.getAssetVerifierStringIfExists state name false

def Satisfies (verifier address : Bytes) : Prop :=
  verifier = verifierTrue ∨
    LibBoolEE.resolve (fun name => some (state.tagged (qualifierChar :: name) address))
      (verifier.length + 1) verifier = some true

end AssetState

section

variable (state : AssetState) (cache : AssetsCache)

theorem checkForAddressQualifier_skip (qualifier address : Bytes) :
    cache.checkForAddressQualifier state qualifier address true = state.tagged qualifier address :=
  rfl

theorem checkForAddressRestriction_skip (name address : Bytes) :
    cache.checkForAddressRestriction state name address true = state.frozen name address := rfl

theorem checkForGlobalRestriction_skip (name : Bytes) :
    cache.checkForGlobalRestriction state name true = state.globallyFrozen name := rfl

theorem getAssetVerifierStringIfExists_skip (name : Bytes) :
    cache.getAssetVerifierStringIfExists state name true = state.verifier name := rfl

end

theorem scriptAddress_asset_ne_nil {env : Env} {script : Bytes} {info : AssetScript}
    (found : isAssetScript script = some info) : scriptAddress env script ≠ [] := by
  have long := (length_of_isAssetScript found).1
  rw [scriptAddress, extractDestination_asset found]
  apply encodeDestination_key_ne_nil
  intro empty
  have size := congrArg List.length empty
  simp only [List.length_take, List.length_drop, List.length_nil] at size
  omega

section

variable {env : Env} {script : Bytes} {address : Bytes}

/-- All parsers of asset outputs answer with the address of the script. -/
theorem address_ne_nil {α : Type} {nType : TxnOutType} {fIsOwner : Bool} {offset : Nat → Nat}
    {reader : ByteReader.Reader α} {a : α}
    (read : ((assetScriptOf nType fIsOwner script).bind fun n =>
      (readAt reader (offset n) script).bind fun a => some (a, scriptAddress env script)) =
        some (a, address)) : address ≠ [] := by
  obtain ⟨n, kind, read⟩ := bind_eq_some_iff.mp read
  obtain ⟨_, _, same⟩ := bind_eq_some_iff.mp read
  cases same
  exact scriptAddress_asset_ne_nil (assetScriptOf_eq_some.mp kind)

end

section

variable {env : Env} {state : AssetState} {cache : AssetsCache} {mempool : MempoolMaps}
  {view : CoinsView} {tx : Transaction} {fCheckMempool : Bool} {nBlocktime currentTime : Int}
  {outputs : AssetOutputs} {use : RestrictedUse}
  {address : Bytes}

theorem satisfies_of_contextual {verifier : Bytes} (paid : address ≠ [])
    (passes : contextualCheckVerifierString env state cache verifier address = .ok ()) :
    state.Satisfies verifier address := by
  unfold contextualCheckVerifierString at passes
  split at passes
  · exact .inl ‹_›
  · obtain ⟨qualifiers, _, _, _, passes⟩ := ok_bind₂ passes
    rw [guarded_eq_ok] at passes
    obtain ⟨value, resolved, holds⟩ := bind_eq_ok.mp (passes (by simpa using paid))
    rw [require?_eq_ok] at resolved
    rw [require_eq_ok] at holds
    subst holds
    refine .inr (resolve_mono ?_ _ _ _ resolved)
    intro name b listed
    rw [checkForAddressQualifier_skip] at listed
    split_ifs at listed
    exact listed

section

variable (accepted : checkTxAssets env state cache mempool view tx fCheckMempool nBlocktime
  currentTime = .ok outputs)

include accepted

theorem input_not_frozen {input : TxIn} (member : input ∈ tx.vin) {coin : Coin}
    (unspent : view.lookup input.prevout = some coin) {data : AssetOutputEntry}
    (read : getAssetData env coin.out.scriptPubKey = some data)
    (restricted : isAssetNameAnRestricted data.assetName = true) :
    state.frozen data.assetName (encodeDestination env data.destination) = false := by
  obtain ⟨_, _, scanned, _⟩ := checkTxAssets_ok accepted
  obtain ⟨before, after, step⟩ := foldlM_visits scanned member
  unfold checkAssetInput at step
  obtain ⟨coin', unspent', step⟩ := bind_eq_ok.mp step
  rw [require?_eq_ok, unspent] at unspent'
  cases unspent'
  rw [if_pos (getAssetData_isSome read)] at step
  obtain ⟨data', read', step⟩ := bind_eq_ok.mp step
  rw [require?_eq_ok, read] at read'
  cases read'
  obtain ⟨_, notFrozen, _⟩ := bind_eq_ok.mp step
  simpa [restricted, checkForAddressRestriction_skip] using notFrozen

theorem transfer_checked {out : TxOut} (member : out ∈ tx.vout) {transfer : AssetTransfer}
    (read : transferAssetFromScript env out.scriptPubKey = some (transfer, address)) :
    contextualCheckTransferAsset env state cache transfer address = .ok () := by
  obtain ⟨_, _, _, checked, _⟩ := checkTxAssets_ok accepted
  obtain ⟨before, after, step⟩ := foldlM_visits checked member
  unfold checkAssetOutput at step
  obtain ⟨_, _, _, _, next, selected, _⟩ := ok_bind₃ step
  obtain ⟨n, isTransfer, _⟩ := transferAssetFromScript_eq_some read
  have kind : (isAssetScript out.scriptPubKey).map AssetScript.nType = some .transferAsset := by
    rw [assetScriptOf_eq_some.mp isTransfer]
    rfl
  rw [kind] at selected
  obtain ⟨_, _, readAgain, contextual, _⟩ := checkTransferOutput_ok selected
  rw [read] at readAgain
  cases readAgain
  exact contextual

end

theorem transfer_allowed {transfer : AssetTransfer} (paid : address ≠ [])
    (restricted : assetNameType transfer.strName = .restricted)
    (passes : contextualCheckTransferAsset env state cache transfer address = .ok ()) :
    state.globallyFrozen transfer.strName = false ∧
      ∃ verifier, state.verifier transfer.strName = some verifier ∧
        state.Satisfies verifier address := by
  unfold contextualCheckTransferAsset at passes
  obtain ⟨_, _, _, _, _, _, passes⟩ := ok_bind₃ passes
  obtain ⟨_, _, _, guarded, _⟩ := ok_bind₂ passes
  rw [guarded_eq_ok] at guarded
  obtain ⟨_, _, guarded⟩ := bind_eq_ok.mp (guarded (by simp [restricted]))
  obtain ⟨_, notFrozen, verified⟩ := bind_eq_ok.mp guarded
  rw [require_eq_ok, checkForGlobalRestriction_skip] at notFrozen
  rw [require_eq_ok, getAssetVerifierStringIfExists_skip] at verified
  refine ⟨by simpa using notFrozen, ?_⟩
  cases recorded : state.verifier transfer.strName with
  | none => simp [recorded] at verified
  | some verifier =>
    rw [recorded] at verified
    obtain ⟨_, contextual⟩ := passed_iff.mp verified
    exact ⟨verifier, rfl, satisfies_of_contextual paid contextual⟩

/-- The verifier string in effect for what a transaction mints: its own, or the
one recorded when it has none. -/
def VerifierInEffect (state : AssetState) (cache : AssetsCache) (tx : Transaction)
    (name verifier : Bytes) : Prop :=
  tx.getVerifierStringFromTx = .ok (some verifier) ∨
    tx.getVerifierStringFromTx = .ok none ∧
      cache.getAssetVerifierStringIfExists state name false = some verifier

theorem reissue_allowed {reissue : ReissueAsset}
    (read : tx.reissueAssetFromTransaction env = some (reissue, address)) (paid : address ≠ [])
    (restricted : assetNameType reissue.strName = .restricted) (minted : 0 < reissue.nAmount)
    (passes : contextualCheckReissueAssetTx env state cache reissue tx = .ok ()) :
    ∃ verifier, VerifierInEffect state cache tx reissue.strName verifier ∧
      state.Satisfies verifier address := by
  unfold contextualCheckReissueAssetTx at passes
  obtain ⟨⟨_, address'⟩, readAgain, passes⟩ := bind_eq_ok.mp passes
  rw [require?_eq_ok, read] at readAgain
  cases readAgain
  obtain ⟨_, _, _, _, _, _, passes⟩ := ok_bind₃ passes
  obtain ⟨_, _, _, _, passes⟩ := ok_bind₂ passes
  rw [guarded_eq_ok] at passes
  have verified := passes (isAssetNameAnRestricted_of_type restricted)
  unfold checkReissueVerifier at verified
  obtain ⟨newVerifier, searched, verified⟩ := bind_eq_ok.mp verified
  rw [guarded_eq_ok] at verified
  have selected := verified (by simpa using minted)
  cases newVerifier with
  | some verifier => exact ⟨verifier, .inl searched, satisfies_of_contextual paid selected⟩
  | none =>
    obtain ⟨current, recorded, contextual⟩ := bind_eq_ok.mp selected
    rw [require?_eq_ok] at recorded
    exact ⟨current, .inr ⟨searched, recorded⟩, satisfies_of_contextual paid contextual⟩

theorem checkTxAssetsKind_reissue (kind : tx.kind env = .reissue)
    (passes : checkTxAssetsKind env state cache mempool tx fCheckMempool = .ok ()) :
    ∃ reissue address, reissueAssetFromScript env tx.lastScript = some (reissue, address) ∧
      contextualCheckReissueAssetTx env state cache reissue tx = .ok () := by
  unfold Transaction.kind at kind
  unfold checkTxAssetsKind at passes
  split_ifs at passes kind
  obtain ⟨⟨reissue, address⟩, read, passes⟩ := bind_eq_ok.mp passes
  rw [require?_eq_ok] at read
  rw [labelled_eq_ok] at passes
  exact ⟨reissue, address, read, passes⟩

theorem checkTxAssetsKind_restricted (kind : tx.kind env = .restricted)
    (passes : checkTxAssetsKind env state cache mempool tx fCheckMempool = .ok ()) :
    ∃ asset address verifier, assetFromScript env tx.lastScript = some (asset, address) ∧
      tx.getVerifierStringFromTx = .ok (some verifier) ∧
      contextualCheckVerifierString env state cache verifier address = .ok () := by
  unfold Transaction.kind at kind
  unfold checkTxAssetsKind at passes
  split_ifs at passes kind with _ _ _ _ _ isRestricted
  obtain ⟨_, _, ⟨asset, address⟩, read, passes⟩ := ok_bind₂ passes
  obtain ⟨_, _, verifier, required, contextual⟩ := ok_bind₂ passes
  rw [require?_eq_ok, restrictedAssetFromTransaction_eq isRestricted] at read
  rw [labelled_eq_ok] at required
  obtain ⟨found, searched, present⟩ := bind_eq_ok.mp required
  rw [require?_eq_ok] at present
  subst present
  exact ⟨asset, address, verifier, read, searched, contextual⟩

variable (kind : checkTransactionKind env tx = .ok use) {out : TxOut} (member : out ∈ tx.vout)

include kind member

theorem restricted_issue_last {asset : NewAsset}
    (read : assetFromScript env out.scriptPubKey = some (asset, address))
    (restricted : assetNameType asset.strName = .restricted) :
    tx.kind env = .restricted ∧ out.scriptPubKey = tx.lastScript := by
  have branch := checkTransactionKind_ok kind
  cases kindEq : tx.kind env <;> simp only [kindEq] at branch
  case issue =>
    obtain ⟨_, only, ⟨⟨address', readLast⟩, others⟩, _⟩ := verifyNewAsset_ok branch.1
    have notRestricted := (isNewAsset_type (isNewAsset_of_kind kindEq) readLast).2
    rw [others out member asset address read] at restricted
    exact absurd restricted notRestricted
  case reissue =>
    have noIssue := (verifyReissueAsset_ok branch.1).1
    rw [noIssue out member] at read
    cases read
  case unique =>
    obtain ⟨_, _, _, roots⟩ := verifyNewUniqueAsset_ok branch.1
    have valid := (roots out member asset address read).1
    rw [assetNameType_of_valid valid] at restricted
    cases restricted
  case msgChannel =>
    obtain ⟨_, only, ⟨_, others⟩, type, _⟩ := verifyNewMsgChannelAsset_ok branch.1
    rw [others out member asset address read, type] at restricted
    cases restricted
  case qualifier =>
    obtain ⟨_, only, ⟨_, others⟩, types, _⟩ := verifyNewQualfierAsset_ok branch.1
    rw [others out member asset address read] at restricted
    rcases types with type | type <;> · rw [type] at restricted; cases restricted
  case restricted =>
    refine ⟨rfl, ?_⟩
    obtain ⟨⟨_, _, _, _, one, _⟩, _, ⟨⟨_, readLast⟩, _⟩, _⟩ := verifyNewRestrictedAsset_ok branch.1
    exact script_eq_lastScript one (kind_of_read readLast) member
      (kind_of_read read)
  case plain =>
    have noIssue := (checkPlainOutput_ok env branch.1).1
    rw [noIssue out member] at read
    cases read

theorem reissue_last {reissue : ReissueAsset}
    (read : reissueAssetFromScript env out.scriptPubKey = some (reissue, address)) :
    tx.kind env = .reissue ∧ out.scriptPubKey = tx.lastScript := by
  have branch := checkTransactionKind_ok kind
  have none_of : NoReissue env tx → False := by
    intro noReissue
    rw [noReissue out member] at read
    cases read
  cases kindEq : tx.kind env <;> simp only [kindEq] at branch
  case issue => exact (none_of (verifyNewAsset_ok branch.1).1.noReissue).elim
  case unique => exact (none_of (verifyNewUniqueAsset_ok branch.1).1).elim
  case msgChannel => exact (none_of (verifyNewMsgChannelAsset_ok branch.1).1.noReissue).elim
  case qualifier => exact (none_of (verifyNewQualfierAsset_ok branch.1).1.noReissue).elim
  case restricted => exact (none_of (verifyNewRestrictedAsset_ok branch.1).1.noReissue).elim
  case plain => exact (none_of (checkPlainOutput_ok env branch.1).2).elim
  case reissue =>
    refine ⟨rfl, ?_⟩
    obtain ⟨_, only, _, readLast, _⟩ := verifyReissueAsset_ok branch.1
    have verified := branch.1
    unfold verifyReissueAsset at verified
    obtain ⟨_, _, _, _, _, _, verified⟩ := ok_bind₃ verified
    obtain ⟨_, _, _, _, counted⟩ := ok_bind₂ verified
    simp only [require_eq_ok, Bool.and_eq_true, decide_eq_true_eq] at counted
    exact script_eq_lastScript counted.1.2 (kind_of_read readLast) member
      (kind_of_read read)

end

/-- What a transaction does with a restricted asset is allowed by the state. -/
structure RestrictedSafe (env : Env) (state : AssetState) (cache : AssetsCache) (view : CoinsView)
    (tx : Transaction) (name : Bytes) : Prop where
  spent : ∀ input ∈ tx.vin, ∀ coin data, view.lookup input.prevout = some coin →
    getAssetData env coin.out.scriptPubKey = some data → data.assetName = name →
      state.frozen name (encodeDestination env data.destination) = false
  transferred : ∀ out ∈ tx.vout, ∀ transfer address,
    transferAssetFromScript env out.scriptPubKey = some (transfer, address) →
      transfer.strName = name → state.globallyFrozen name = false ∧
        ∃ verifier, state.verifier name = some verifier ∧ state.Satisfies verifier address
  issued : ∀ out ∈ tx.vout, ∀ asset address,
    assetFromScript env out.scriptPubKey = some (asset, address) → asset.strName = name →
      ∃ verifier, tx.getVerifierStringFromTx = .ok (some verifier) ∧
        state.Satisfies verifier address
  reissued : ∀ out ∈ tx.vout, ∀ reissue address,
    reissueAssetFromScript env out.scriptPubKey = some (reissue, address) →
      reissue.strName = name → 0 < reissue.nAmount →
        ∃ verifier, VerifierInEffect state cache tx name verifier ∧
          state.Satisfies verifier address

/-- Frozen coins stay, a frozen asset stays, and every output of the asset pays
an address its verifier string allows. -/
theorem restricted_asset_safety (env : Env) (state : AssetState) (cache : AssetsCache)
    (mempool : MempoolMaps) (view : CoinsView) (tx : Transaction)
    (fCheckDuplicateInputs fMempoolCheck fBlockCheck fCheckMempool : Bool)
    (nBlocktime currentTime : Int) (outputs : AssetOutputs)
    (checked : checkTransaction env tx fCheckDuplicateInputs fMempoolCheck fBlockCheck = .ok ())
    (accepted : checkTxAssets env state cache mempool view tx fCheckMempool nBlocktime
      currentTime = .ok outputs) (name : Bytes) (restricted : assetNameType name = .restricted) :
    RestrictedSafe env state cache view tx name := by
  obtain ⟨_, use, stages⟩ := checkTransaction_ok checked
  have kind := stages.kind
  obtain ⟨_, _, _, _, assetKind, _⟩ := checkTxAssets_ok accepted
  refine ⟨?_, ?_, ?_, ?_⟩
  · intro input member coin data unspent read same
    subst same
    exact input_not_frozen accepted member unspent read
      (isAssetNameAnRestricted_of_type restricted)
  · intro out member transfer address read same
    subst same
    exact transfer_allowed (address_ne_nil read) restricted
      (transfer_checked accepted member read)
  · intro out member asset address read same
    subst same
    obtain ⟨kindEq, isLast⟩ := restricted_issue_last kind member read restricted
    obtain ⟨asset', address', verifier, readLast, searched, contextual⟩ :=
      checkTxAssetsKind_restricted kindEq assetKind
    rw [isLast, readLast] at read
    cases read
    exact ⟨verifier, searched, satisfies_of_contextual (address_ne_nil readLast) contextual⟩
  · intro out member reissue address read same minted
    subst same
    obtain ⟨kindEq, isLast⟩ := reissue_last kind member read
    obtain ⟨reissue', address', readLast, contextual⟩ := checkTxAssetsKind_reissue kindEq assetKind
    rw [isLast, readLast] at read
    cases read
    refine reissue_allowed ?_ (address_ne_nil readLast) restricted minted contextual
    rw [reissueAssetFromTransaction, if_pos (isReissueAsset_of_kind kindEq), readLast]

namespace RestrictedSafety

def restrictedToken : Bytes := ascii "$TOKEN"

def aliceAddress : Bytes := encodeDestination env (.keyId alice)

/-- The asset is guarded by one tag, which Alice holds; she does not hold the
other. -/
def state : AssetState :=
  { recording [⟨ascii "TOKEN", coin, 8, 1, 0, []⟩, ⟨restrictedToken, coin, 8, 1, 0, []⟩,
      ⟨ascii "#KYC", coin, 0, 0, 0, []⟩, ⟨ascii "#AML", coin, 0, 0, 0, []⟩] with
    prestricteddb := ⟨(∅ : KeyedMap Bytes Bytes).insert restrictedToken (ascii "KYC"),
      (∅ : KeyedMap (Bytes × Bytes) Unit).insert (ascii "#KYC", aliceAddress) (), ∅, ∅⟩ }

def changeAndTransfer : Transaction :=
  transaction 8 [⟨7, 0⟩, ⟨7, 1⟩, ⟨7, 2⟩]
    [pay (coin / 10) burnKey, transfer (ascii "TOKEN!") coin,
      transfer restrictedToken 5, MainNet.verifier (ascii "AML"),
      reissue ⟨restrictedToken, 0, -1, 1, []⟩]

def view : CoinsView :=
  coins [(⟨7, 0⟩, pay coin alice),
    (⟨7, 1⟩, transfer (ascii "TOKEN!") coin), (⟨7, 2⟩, transfer restrictedToken 5)]

theorem checked : checkTransaction env changeAndTransfer true false true = .ok () := by
  decide +kernel

theorem passes :
    (checkTxAssets env state .empty .empty view changeAndTransfer false 0 0).passed = true := by
  decide +kernel

end RestrictedSafety

open RestrictedSafety

/-- The transfer is allowed by the recorded verifier string. -/
theorem restricted_asset_safety_transfer : state.globallyFrozen restrictedToken = false ∧
      ∃ verifier, state.verifier restrictedToken = some verifier ∧
        state.Satisfies verifier aliceAddress := by
  obtain ⟨outputs, accepted⟩ := passed_iff.mp passes
  have safe := restricted_asset_safety env state .empty .empty view changeAndTransfer true
    false true false 0 0 outputs checked accepted restrictedToken (by decide +kernel)
  have read : transferAssetFromScript env
      (transfer restrictedToken 5).scriptPubKey =
        some (⟨restrictedToken, 5, [], 0⟩, aliceAddress) := by decide +kernel
  exact safe.transferred (transfer restrictedToken 5)
    (by simp [changeAndTransfer, transaction]) _ _ read rfl

/-- The address the transfer pays does not satisfy the verifier string its own
transaction sets. -/
theorem new_verifier_not_satisfied :
    checkTransaction env changeAndTransfer true false true = .ok () ∧
      (checkTxAssets env state .empty .empty view changeAndTransfer false 0 0).passed ∧
      changeAndTransfer.getVerifierStringFromTx = .ok (some (ascii "AML")) ∧
      (∃ out ∈ changeAndTransfer.vout, ∃ transfer,
        transferAssetFromScript env out.scriptPubKey = some (transfer, aliceAddress) ∧
          transfer.strName = restrictedToken ∧ 0 < transfer.nAmount) ∧
      ¬ state.Satisfies (ascii "AML") aliceAddress := by
  refine ⟨checked, passes, by decide +kernel, ?_, ?_⟩
  · refine ⟨transfer restrictedToken 5, by simp [changeAndTransfer, transaction],
      ⟨restrictedToken, 5, [], 0⟩, by decide +kernel, rfl, by decide⟩
  · unfold AssetState.Satisfies
    decide +kernel

end Phicoin
