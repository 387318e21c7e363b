import Phicoin.Issuance
import Phicoin.MainNet

/-! # Controlling tokens

An issuance below an existing name, a reissue, a tag and a freeze each need a
controlling token.  `CheckTransaction` looks for the token among the transfer
outputs; `CheckTxAssets` compares transfer outputs with spent coins, so a token
found there is also spent.  `CheckTransaction` chooses the format check by the
last two outputs, and the one for an issuance with an owner output asks for the
parent's token of sub-assets only. -/

namespace Phicoin

open Check Totals MainNet

/-- Some input carries the asset `token`. -/
def Transaction.Spends (env : Env) (view : CoinsView) (tx : Transaction) (token : Bytes) : Prop :=
  ∃ amount, (token, amount) ∈ spentAssets env view tx

def issuanceAuthority (name : Bytes) : Option Bytes :=
  match assetNameType name with
  | .sub | .unique | .msgChannel => some (getParentName name ++ ownerTag)
  | .subQualifier => some (getParentName name)
  | .restricted => some (name.drop 1 ++ ownerTag)
  | _ => none

/-- Every asset the transaction issues or reissues is issued with its token. -/
structure AuthorityHeld (env : Env) (view : CoinsView) (tx : Transaction) : Prop where
  issued : ∀ out ∈ tx.vout, ∀ asset address,
    assetFromScript env out.scriptPubKey = some (asset, address) →
      ∀ token, issuanceAuthority asset.strName = some token → tx.Spends env view token
  reissued : ∀ out ∈ tx.vout, ∀ reissue address,
    reissueAssetFromScript env out.scriptPubKey = some (reissue, address) →
      tx.Spends env view (Transaction.reissueAuthority reissue ++ ownerTag)

/-- An issuance with an owner output of a message channel or a sub-qualifier
moves the token of its parent. -/
def MovesParent (env : Env) (tx : Transaction) : Prop :=
  tx.isNewAsset env = true → ∀ asset address,
    assetFromScript env tx.lastScript = some (asset, address) →
      assetNameType asset.strName = .msgChannel ∨ assetNameType asset.strName = .subQualifier →
        ∀ token, issuanceAuthority asset.strName = some token → tx.hasTransferOf env token = true

section

variable {env : Env} {global : AssetState} {cache : AssetsCache} {mempool : MempoolMaps}
  {view : CoinsView} {tx : Transaction} {outputs : AssetOutputs}
  {fCheckMempool fCheckDuplicateInputs fMempoolCheck fBlockCheck : Bool}
  {nBlocktime currentTime : Int}

theorem spends_iff_hasTransferOf
    (accepted : checkTxAssets env global cache mempool view tx fCheckMempool nBlocktime
      currentTime = .ok outputs) {token : Bytes} :
    tx.Spends env view token ↔ tx.hasTransferOf env token = true := by
  rw [hasTransferOf_iff, Transaction.Spends, ← isSome_lookup_totals 64 _ (spentAssets_fits env view tx),
    checkTxAssets_totals accepted, isSome_lookup_totals 64 _ (transferredAssets_fits env tx)]

theorem authorityHeld_of_onlyIssue {asset : NewAsset} (noReissue : NoReissue env tx)
    (only : OnlyIssue env tx asset)
    (moved : ∀ token, issuanceAuthority asset.strName = some token → tx.Spends env view token) :
    AuthorityHeld env view tx where
  issued out member other address read := by
    rw [only.2 out member other address read]
    exact moved
  reissued out member reissue address read := by
    rw [noReissue out member] at read
    cases read

theorem authorityHeld_of_isNewAsset (spends : ∀ {token}, tx.hasTransferOf env token = true →
      tx.Spends env view token) (isNew : tx.isNewAsset env = true)
    (verified : tx.verifyNewAsset env = .ok ()) (moves : MovesParent env tx) :
    AuthorityHeld env view tx := by
  obtain ⟨single, asset, only, sub⟩ := verifyNewAsset_ok verified
  obtain ⟨address, read⟩ := only.1
  obtain ⟨notUnique, notRestricted⟩ := isNewAsset_type isNew read
  refine authorityHeld_of_onlyIssue single.noReissue only fun token controls => spends ?_
  have moved := moves isNew asset address read
  cases type : assetNameType asset.strName with
  | sub =>
    simp only [issuanceAuthority, type, Option.some.injEq] at controls
    exact controls ▸ sub type
  | msgChannel => exact moved (.inl type) token controls
  | subQualifier => exact moved (.inr type) token controls
  | unique => exact absurd type notUnique
  | restricted => exact absurd type notRestricted
  | _ => simp [issuanceAuthority, type] at controls

end

/-- The tokens are held exactly when an issuance with an owner output of a
message channel or a sub-qualifier moves its parent's token. -/
theorem authorityHeld_iff (env : Env) (global : AssetState) (cache : AssetsCache)
    (mempool : MempoolMaps) (view : CoinsView) (tx : Transaction)
    (fCheckDuplicateInputs fMempoolCheck fBlockCheck fCheckMempool : Bool)
    (nBlocktime currentTime : Int) (outputs : AssetOutputs)
    (checked : checkTransaction env tx fCheckDuplicateInputs fMempoolCheck fBlockCheck = .ok ())
    (accepted : checkTxAssets env global cache mempool view tx fCheckMempool nBlocktime
      currentTime = .ok outputs) : AuthorityHeld env view tx ↔ MovesParent env tx := by
  constructor
  · intro held isNew asset address read _ token controls
    obtain ⟨out, member, isLast⟩ := lastScript_mem (kind_of_read read)
    rw [← isLast] at read
    exact (spends_iff_hasTransferOf accepted).mp (held.issued out member asset address read token
      controls)
  intro moves
  have spends : ∀ {token}, tx.hasTransferOf env token = true → tx.Spends env view token :=
    (spends_iff_hasTransferOf accepted).mpr
  obtain ⟨_, _, stages⟩ := checkTransaction_ok checked
  have kind := stages.kind
  have branch := checkTransactionKind_ok kind
  cases kindEq : tx.kind env <;> simp only [kindEq] at branch
  case issue =>
    exact authorityHeld_of_isNewAsset spends (isNewAsset_of_kind kindEq) branch.1 moves
  case reissue =>
    obtain ⟨noIssue, reissue, _, _, moved, same⟩ := verifyReissueAsset_ok branch.1
    refine ⟨fun out member asset address read => ?_, fun out member other address read => ?_⟩
    · rw [noIssue out member] at read
      cases read
    · rw [same out member other address read]
      exact spends moved
  case unique =>
    obtain ⟨noReissue, root, moved, roots⟩ := verifyNewUniqueAsset_ok branch.1
    refine ⟨fun out member asset address read token controls => ?_,
      fun out member other address read => ?_⟩
    · obtain ⟨valid, parent⟩ := roots out member asset address read
      simp only [issuanceAuthority, assetNameType_of_valid valid, parent,
        Option.some.injEq] at controls
      exact spends (controls ▸ moved)
    · rw [noReissue out member] at read
      cases read
  case msgChannel =>
    obtain ⟨single, asset, only, type, moved⟩ := verifyNewMsgChannelAsset_ok branch.1
    refine authorityHeld_of_onlyIssue single.noReissue only fun token controls => spends ?_
    simp only [issuanceAuthority, type, Option.some.injEq] at controls
    exact controls ▸ moved
  case qualifier =>
    obtain ⟨single, asset, only, types, moved⟩ := verifyNewQualfierAsset_ok branch.1
    refine authorityHeld_of_onlyIssue single.noReissue only fun token controls => spends ?_
    rcases types with type | type
    · simp [issuanceAuthority, type] at controls
    · simp only [issuanceAuthority, type, Option.some.injEq] at controls
      exact controls ▸ moved type
  case restricted =>
    obtain ⟨single, asset, only, type, moved⟩ := verifyNewRestrictedAsset_ok branch.1
    refine authorityHeld_of_onlyIssue single.noReissue only fun token controls => spends ?_
    rw [getParentName_restricted type] at moved
    simp only [issuanceAuthority, type, Option.some.injEq] at controls
    exact controls ▸ moved
  case plain =>
    obtain ⟨noIssue, noReissue⟩ := checkPlainOutput_ok env branch.1
    refine ⟨fun out member asset address read => ?_, fun out member reissue address read => ?_⟩
    · rw [noIssue out member] at read
      cases read
    · rw [noReissue out member] at read
      cases read

namespace Authority

def channel : NewAsset := ⟨ascii "TOKEN~CHAN", coin, 0, 0, 0, []⟩

def issueChannel (spent : List OutPoint) (others : List TxOut) : Transaction :=
  transaction 8 spent
    (others ++ [pay (coin / 10) burnKey, owner channel,
      issue channel])

def view : CoinsView :=
  coins [(⟨7, 0⟩, pay coin bob), (⟨7, 1⟩, transfer (ascii "TOKEN!") coin)]

def withToken : Transaction := issueChannel [⟨7, 0⟩, ⟨7, 1⟩] [transfer (ascii "TOKEN!") coin]
def withoutToken : Transaction := issueChannel [⟨7, 0⟩] []

def checked (tx : Transaction) : Check Unit := checkTransaction env tx true false true

def accepted (tx : Transaction) : Check AssetOutputs :=
  checkTxAssets env (recording []) .empty .empty view tx false 0 0

theorem channel_authority {tx : Transaction} {asset : NewAsset} {address token : Bytes}
    (last : (assetFromScript env tx.lastScript).map (fun read => read.1.strName) =
      some channel.strName) (read : assetFromScript env tx.lastScript = some (asset, address))
    (controls : issuanceAuthority asset.strName = some token) : token = ascii "TOKEN!" := by
  have authority : issuanceAuthority channel.strName = some (ascii "TOKEN!") := by decide +kernel
  rw [read, Option.map_some, Option.some.injEq] at last
  rw [last, authority, Option.some.injEq] at controls
  exact controls.symm

end Authority

open Authority

/-- The channel issued with `TOKEN!` among the inputs. -/
theorem authorityHeld_iff_channel :
    (accepted withToken).passed = true ∧ AuthorityHeld env view withToken := by
  have passes : (accepted withToken).passed = true := by decide +kernel
  refine ⟨passes, ?_⟩
  obtain ⟨outputs, accepts⟩ := passed_iff.mp passes
  have checks : checked withToken = .ok () := by decide +kernel
  refine (authorityHeld_iff env (recording []) .empty .empty view withToken true
    false true false 0 0 outputs checks accepts).mpr ?_
  intro _ asset address read _ token controls
  rw [channel_authority (by decide +kernel) read controls]
  decide +kernel

/-- The channel `TOKEN~CHAN` is issued by a transaction with one input, a coin of
the native currency. -/
theorem authorityHeld_fails :
    checked withoutToken = .ok () ∧ (accepted withoutToken).passed = true ∧
      spentAssets env view withoutToken = [] ∧
      (∃ out ∈ withoutToken.vout, (assetFromScript env out.scriptPubKey).map
        (fun read => read.1.strName) = some (ascii "TOKEN~CHAN")) ∧
      issuanceAuthority (ascii "TOKEN~CHAN") = some (ascii "TOKEN!") ∧
      ¬ AuthorityHeld env view withoutToken := by
  have spent : spentAssets env view withoutToken = [] := by decide +kernel
  have issued : ∃ out ∈ withoutToken.vout, (assetFromScript env out.scriptPubKey).map
      (fun read => read.1.strName) = some (ascii "TOKEN~CHAN") := by decide +kernel
  have controls : issuanceAuthority (ascii "TOKEN~CHAN") = some (ascii "TOKEN!") := by
    decide +kernel
  refine ⟨by decide +kernel, by decide +kernel, spent, issued, controls, ?_⟩
  intro held
  obtain ⟨out, member, read⟩ := issued
  obtain ⟨⟨asset, address⟩, read, name⟩ := Option.map_eq_some_iff.mp read
  obtain ⟨amount, inSpent⟩ := held.issued out member asset address read (ascii "TOKEN!")
    (name ▸ controls)
  rw [spent] at inSpent
  cases inSpent

end Phicoin
