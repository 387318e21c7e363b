import Phicoin.BlockOrder
import Phicoin.Disconnectable
import Phicoin.FailedAcceptance
import Phicoin.FlushView
import Phicoin.MempoolIndependence

/-! # Accepted transactions in a block

The memory pool and a block check the assets of a transaction with the same functions, on
the global asset cache and on a fresh one, with and without the maps of the pool.  What the
pool accepts from confirmed coins passes in a block on the same tip, and none of the updates
that `SpendCoin` and `AddCoins` make of the asset cache is refused. -/

namespace Phicoin

open Check KeyedMap AssetsCache Totals List Option Transaction BlockView

namespace AssetsCache

variable (env : Env) (global : AssetState)

def addVerifier? (cache : AssetsCache) (name : Bytes) (tx : Transaction) : Option AssetsCache :=
  match firstVerifier tx with
  | some verifier => verifier.map fun text => cache.addRestrictedVerifier name text
  | none => some cache

/-- The part of `AddCoins` before its loop, where nothing is passed over: none when a record
cannot be read or an update is refused. -/
def addIssues? (cache : AssetsCache) (tx : Transaction) (nHeight : Nat) (blockHash : Uint256) :
    Option AssetsCache :=
  if tx.isNewAsset env then do
    let (asset, address) ← tx.assetFromTransaction env
    let (ownerName, ownerAddress) ← tx.ownerFromTransaction env
    let issued ← cache.addNewAsset env global asset address nHeight blockHash
    return issued.addOwnerAsset env ownerName ownerAddress
  else if tx.isReissueAsset then do
    let (reissue, address) ← tx.reissueAssetFromTransaction env
    let asset ← cache.getAssetMetaDataIfExists global reissue.strName
    let reissued ← cache.addReissueAsset env global reissue address ⟨tx.hash, tx.vout.length - 1⟩
    if assetNameType asset.strName = .restricted then reissued.addVerifier? asset.strName tx
    else return reissued
  else if tx.isNewUniqueAsset env then
    tx.vout.foldlM (fun acc out =>
      if isScriptNewUniqueAsset env out.scriptPubKey then do
        let (asset, address) ← assetFromScript env out.scriptPubKey
        acc.addNewAsset env global asset address nHeight blockHash
      else return acc) cache
  else if tx.isNewMsgChannelAsset env then do
    let (asset, address) ← tx.msgChannelAssetFromTransaction env
    cache.addNewAsset env global asset address nHeight blockHash
  else if tx.isNewQualifierAsset env then do
    let (asset, address) ← tx.qualifierAssetFromTransaction env
    cache.addNewAsset env global asset address nHeight blockHash
  else if tx.isNewRestrictedAsset env then do
    let (asset, address) ← tx.restrictedAssetFromTransaction env
    let issued ← cache.addNewAsset env global asset address nHeight blockHash
    issued.addVerifier? asset.strName tx
  else return cache

end AssetsCache

/-- Every tag, freeze and transfer of the outputs is read, so that the loop of `AddCoins`
makes the update it stands for. -/
structure OutputsRead (env : Env) (tx : Transaction) : Prop where
  nullData : ∀ out ∈ tx.vout, isNullAssetTxDataScript out.scriptPubKey = true →
    (assetNullDataFromScript env out.scriptPubKey).isSome = true
  globalData : ∀ out ∈ tx.vout, isNullGlobalRestrictionAssetTxDataScript out.scriptPubKey = true →
    (globalAssetNullDataFromScript out.scriptPubKey).isSome = true
  transfers : ∀ out ∈ tx.vout, isTransferAssetScript out.scriptPubKey = true →
    (getAssetData env out.scriptPubKey).isSome = true

section

variable {env : Env} {tx : Transaction}

theorem scanOutput_block {scan next : OutputScan} {out : TxOut}
    (passes : scanOutput env true false scan out = .ok next) :
    scanOutput env false true scan out = .ok next := by
  unfold scanOutput at passes ⊢
  obtain ⟨valued, value, nulls, null, passes⟩ := ok_bind₂ passes
  refine bind_eq_ok.mpr ⟨valued, value, bind_eq_ok.mpr ⟨nulls, null, ?_⟩⟩
  unfold scanAsset at passes ⊢
  cases found : isAssetScript out.scriptPubKey with
  | none =>
    rw [found] at passes
    exact passes
  | some info =>
    rw [found] at passes
    dsimp only at passes ⊢
    cases kind : info.nType with
    | reissueAsset =>
      rw [kind] at passes
      obtain ⟨_, _, _, zero, passes⟩ := ok_bind₂ passes
      simp only [Bool.not_true, Bool.false_or, require_eq_ok] at zero
      exact bind_eq_ok.mpr ⟨(), by simp [zero], bind_eq_ok.mpr ⟨(), by simp, passes⟩⟩
    | _ =>
      rw [kind] at passes
      exact passes

theorem checkTransaction_block (passes : checkTransaction env tx true true false = .ok ()) :
    checkTransaction env tx true false true = .ok () := by
  unfold checkTransaction at passes ⊢
  obtain ⟨_, inputs, _, outputs, _, size, passes⟩ := ok_bind₃ passes
  obtain ⟨scan, scanned, passes⟩ := bind_eq_ok.mp passes
  have again := foldlM_repeats (g := scanOutput env false true) scanned
    fun acc out next _ => scanOutput_block
  exact bind_eq_ok.mpr ⟨_, inputs, bind_eq_ok.mpr ⟨_, outputs, bind_eq_ok.mpr ⟨_, size,
    bind_eq_ok.mpr ⟨scan, again, passes⟩⟩⟩⟩

end

section

variable {env : Env} {global : AssetState} {tx : Transaction} {pool mempool : MempoolMaps}

theorem passets_getAssetVerifierStringIfExists (state : AssetState) (name : Bytes) (skip : Bool) :
    state.passets.getAssetVerifierStringIfExists state name skip =
      empty.getAssetVerifierStringIfExists state name skip := by
  unfold getAssetVerifierStringIfExists
  cases skip <;> cases state.passets.setNewRestrictedVerifierToRemove.lookup name <;>
    cases state.passets.setNewRestrictedVerifierToAdd.lookup name <;> simp [empty]

theorem passets_getAssetMetaDataIfExists (state : AssetState) (name : Bytes) :
    state.passets.getAssetMetaDataIfExists state name =
      empty.getAssetMetaDataIfExists state name := by
  simp only [getAssetMetaDataIfExists, passets_getAssetMetaData]

theorem passets_rules (env : Env) (global : AssetState) :
    SameRestrictedRules env global global.passets empty :=
  sameRestrictedRules_of_exist fun _ => passets_checkIfAssetExists env global _

theorem passets_contextualCheckVerifierString (verifier address : Bytes) :
    contextualCheckVerifierString env global global.passets verifier address =
      contextualCheckVerifierString env global empty verifier address :=
  contextualCheckVerifierString_congr (fun _ => passets_checkIfAssetExists env global _) _ _

theorem contextualCheckNewAsset_block {asset : NewAsset} {fCheckMempool : Bool}
    (passes : contextualCheckNewAsset env global global.passets pool asset fCheckMempool = .ok ()) :
    contextualCheckNewAsset env global empty mempool asset false = .ok () := by
  unfold contextualCheckNewAsset at passes ⊢
  rw [passets_checkIfAssetExists] at passes
  obtain ⟨_, deployed, _, valid, _, absent, passes⟩ := ok_bind₃ passes
  obtain ⟨_, _, passes⟩ := bind_eq_ok.mp passes
  exact bind_eq_ok.mpr ⟨_, deployed, bind_eq_ok.mpr ⟨_, valid, bind_eq_ok.mpr ⟨_, absent,
    bind_eq_ok.mpr ⟨(), by simp, passes⟩⟩⟩⟩

theorem passets_contextualCheckReissueAssetTx (reissue : ReissueAsset) :
    contextualCheckReissueAssetTx env global global.passets reissue tx =
      contextualCheckReissueAssetTx env global empty reissue tx := by
  simp only [contextualCheckReissueAssetTx, checkReissueVerifier,
    passets_getAssetMetaDataIfExists, passets_getAssetVerifierStringIfExists,
    passets_contextualCheckVerifierString]

theorem checkTxAssetsKind_block
    (passes : checkTxAssetsKind env global global.passets pool tx true = .ok ()) :
    checkTxAssetsKind env global empty mempool tx false = .ok () := by
  unfold checkTxAssetsKind at passes ⊢
  split_ifs at passes ⊢ with isNew isReissue isUnique isChannel isQualifier isRestricted
  · obtain ⟨issue, read, passes⟩ := bind_eq_ok.mp passes
    exact bind_eq_ok.mpr ⟨issue, read, contextualCheckNewAsset_block passes⟩
  · obtain ⟨⟨reissue, address⟩, read, passes⟩ := bind_eq_ok.mp passes
    rw [labelled_eq_ok, passets_contextualCheckReissueAssetTx] at passes
    exact bind_eq_ok.mpr ⟨(reissue, address), read, labelled_eq_ok.mpr passes⟩
  · rw [labelled_eq_ok] at passes ⊢
    refine forM_eq_ok.mpr fun out member => ?_
    have checked := forM_eq_ok.mp passes out member
    split_ifs at checked ⊢
    · obtain ⟨issue, read, checked⟩ := bind_eq_ok.mp checked
      exact bind_eq_ok.mpr ⟨issue, read, contextualCheckNewAsset_block checked⟩
    · rfl
  iterate 2
    · obtain ⟨_, active, issue, read, passes⟩ := ok_bind₂ passes
      rw [labelled_eq_ok] at passes
      exact bind_eq_ok.mpr ⟨_, active, bind_eq_ok.mpr ⟨issue, read,
        labelled_eq_ok.mpr (contextualCheckNewAsset_block passes)⟩⟩
  · obtain ⟨_, active, ⟨asset, address⟩, read, passes⟩ := ok_bind₂ passes
    obtain ⟨_, checked, verifier, found, passes⟩ := ok_bind₂ passes
    rw [labelled_eq_ok] at checked
    rw [passets_contextualCheckVerifierString] at passes
    exact bind_eq_ok.mpr ⟨_, active, bind_eq_ok.mpr ⟨(asset, address), read, bind_eq_ok.mpr ⟨_,
      labelled_eq_ok.mpr (contextualCheckNewAsset_block checked),
      bind_eq_ok.mpr ⟨verifier, found, passes⟩⟩⟩⟩
  · exact passes

theorem checkAssetOutput_block {mapAddresses : KeyedMap Bytes Bytes}
    {nBlocktime currentTime : Int} {acc acc' next : AssetOutputs} {out : TxOut}
    (quiet : UndisturbedTx env mempool tx) (member : out ∈ tx.vout)
    (passes : checkAssetOutput env global global.passets pool tx mapAddresses 0 0 acc out =
      .ok next) (same : acc.totalOutputs = acc'.totalOutputs) :
    ∃ next', checkAssetOutput env global empty mempool tx mapAddresses nBlocktime
      currentTime acc' out = .ok next' ∧ next.totalOutputs = next'.totalOutputs := by
  have rules := passets_rules env global
  have totals := checkAssetOutput_totals passes
  unfold checkAssetOutput at passes
  obtain ⟨_, active, _, nulls, checked, selected, passes⟩ := ok_bind₃ passes
  rw [rules.changes] at nulls
  have again : ∃ checked', checkAssetOutputKind env global empty mempool tx mapAddresses
      nBlocktime currentTime ((isAssetScript out.scriptPubKey).map AssetScript.nType) acc' out =
        .ok checked' := by
    unfold checkAssetOutputKind at selected ⊢
    split at selected
    · obtain ⟨transfer, address, read, contextual, units, _⟩ := checkTransferOutput_ok selected
      rw [rules.transfers] at contextual
      simp only [checkTransferUnits, passets_getAssetMetaDataIfExists] at units
      exact ⟨_, bind_eq_ok.mpr ⟨(transfer, address), require?_eq_ok.mpr read,
        bind_eq_ok.mpr ⟨(), contextual, bind_eq_ok.mpr ⟨(), units, rfl⟩⟩⟩⟩
    · unfold checkReissueOutput at selected ⊢
      obtain ⟨⟨reissue, address⟩, read, _⟩ := bind_eq_ok.mp selected
      rcases quiet out member reissue address (require?_eq_ok.mp read) with none | own
      · exact ⟨_, bind_eq_ok.mpr ⟨(reissue, address), read, by simp only [none]; rfl⟩⟩
      · exact ⟨acc', bind_eq_ok.mpr ⟨(reissue, address), read, by simp [own, require]⟩⟩
    · exact ⟨acc', rfl⟩
  obtain ⟨checked', selected'⟩ := again
  have whole : checkAssetOutput env global empty mempool tx mapAddresses nBlocktime
      currentTime acc' out = .ok { checked' with index := checked'.index + 1 } :=
    bind_eq_ok.mpr ⟨_, active, bind_eq_ok.mpr ⟨_, nulls, bind_eq_ok.mpr ⟨checked', selected', rfl⟩⟩⟩
  refine ⟨_, whole, ?_⟩
  rw [totals, same, checkAssetOutput_totals whole]

theorem checkTxAssets_block {view coins : CoinsView} {outputs : AssetOutputs}
    (nBlocktime currentTime : Int) (quiet : UndisturbedTx env mempool tx)
    (sameCoins : ∀ input ∈ tx.vin, coins.lookup input.prevout = view.lookup input.prevout)
    (passes : checkTxAssets env global global.passets pool view tx true 0 0 = .ok outputs) :
    ∃ outputs', checkTxAssets env global AssetsCache.empty mempool coins tx false nBlocktime
      currentTime = .ok outputs' := by
  obtain ⟨inputs, available, scanned, checked, kind, compared⟩ := checkTxAssets_ok passes
  have available' : coins.haveInputs tx = true := by
    unfold CoinsView.haveInputs at available ⊢
    rw [Bool.or_eq_true, List.all_eq_true] at available ⊢
    refine available.imp_right fun present input member => ?_
    rw [sameCoins input member]
    exact present input member
  have scanned' : tx.vin.foldlM (checkAssetInput env global AssetsCache.empty coins) ⟨∅, ∅⟩ =
      .ok inputs := by
    rw [← scanned]
    refine foldlM_congr (fun acc input member => ?_) _
    rw [(passets_rules env global).inputs]
    unfold checkAssetInput
    rw [sameCoins input member]
  obtain ⟨outputs', checked', same⟩ := foldlM_simulates
    (g := checkAssetOutput env global AssetsCache.empty mempool tx inputs.mapAddresses nBlocktime
      currentTime)
    (fun acc acc' : AssetOutputs => acc.totalOutputs = acc'.totalOutputs) checked rfl
    fun acc out next acc' member passes same => checkAssetOutput_block quiet member passes same
  rw [same] at compared
  exact ⟨outputs', bind_eq_ok.mpr ⟨(), by simpa using available', bind_eq_ok.mpr ⟨inputs, scanned',
    bind_eq_ok.mpr ⟨outputs', checked', bind_eq_ok.mpr ⟨(), checkTxAssetsKind_block kind,
      bind_eq_ok.mpr ⟨(), compared, rfl⟩⟩⟩⟩⟩⟩

end

section

variable {env : Env} {global : AssetState} {tx : Transaction}

theorem assetOfScript_of_data {script : Bytes} {data : AssetOutputEntry}
    (read : getAssetData env script = some data) : ∃ address, address ≠ [] ∧
      assetOfScript env script = some (data.assetName, address, data.nAmount) := by
  simp only [getAssetData, bind_eq_bind, bind_eq_some_iff] at read
  obtain ⟨info, found, read⟩ := read
  simp only [assetOfScript, found, bind_eq_bind, bind_some]
  split at read
  · obtain ⟨⟨asset, address⟩, issue, same⟩ := bind_eq_some_iff.mp read
    cases same
    exact ⟨address, address_ne_nil issue, by simp [*]⟩
  · obtain ⟨⟨name, address⟩, owner, same⟩ := bind_eq_some_iff.mp read
    cases same
    exact ⟨address, address_ne_nil owner, by simp [*]⟩
  · obtain ⟨⟨transfer, address⟩, moved, same⟩ := bind_eq_some_iff.mp read
    cases same
    exact ⟨address, address_ne_nil moved, by simp [*]⟩
  · obtain ⟨⟨reissue, address⟩, made, same⟩ := bind_eq_some_iff.mp read
    cases same
    exact ⟨address, address_ne_nil made, by simp [*]⟩
  · cases read

def Coin.Spendable (env : Env) (coin : Coin) : Prop :=
  (isAssetScript coin.out.scriptPubKey).isSome = true →
    ∃ data, getAssetData env coin.out.scriptPubKey = some data ∧ data.assetName ≠ []

theorem trySpendCoin_isSome {coin : Coin} (spendable : coin.Spendable env) (cache : AssetsCache) :
    ∃ next, cache.trySpendCoin env global coin.out.scriptPubKey = some next := by
  unfold trySpendCoin
  split
  · exact ⟨cache, rfl⟩
  · rename_i carries
    obtain ⟨data, read, named⟩ := spendable (by simpa [isSome_iff_ne_none] using carries)
    obtain ⟨address, held, same⟩ := assetOfScript_of_data read
    simp only [same, held, named, decide_false, Bool.or_self, Bool.false_eq_true, if_false]
    split
    · split <;> exact ⟨_, rfl⟩
    · exact ⟨cache, rfl⟩

theorem spendInputs_passes {inputs : List TxIn} (view : BlockView)
    (distinct : (inputs.map TxIn.prevout).Nodup)
    (spendable : ∀ input ∈ inputs, ∃ coin, view.coins.lookup input.prevout = some coin ∧
      coin.Spendable env) :
    ∃ final spent, spendInputs env global inputs view = .ok (final, spent) := by
  induction inputs generalizing view with
  | nil => exact ⟨view, [], rfl⟩
  | cons input rest ih =>
    rw [map_cons, nodup_cons] at distinct
    obtain ⟨coin, unspent, readable⟩ := spendable input mem_cons_self
    obtain ⟨assets, spends⟩ := @trySpendCoin_isSome env global coin readable view.assets
    have step : ∃ assets', view.spendCoin env global input.prevout =
        (⟨view.coins.erase input.prevout, assets'⟩, some coin, true) := by
      unfold spendCoin
      simp only [unspent, spends]
      split
      · exact ⟨_, rfl⟩
      · exact ⟨_, rfl⟩
    obtain ⟨assets', step⟩ := step
    obtain ⟨final, spent, later⟩ := ih ⟨view.coins.erase input.prevout, assets'⟩ distinct.2
      fun next member => by
        obtain ⟨coin', unspent', readable'⟩ := spendable next (mem_cons_of_mem _ member)
        have differs : next.prevout ≠ input.prevout := fun same =>
          distinct.1 (same ▸ mem_map_of_mem member)
        refine ⟨coin', ?_, readable'⟩
        rw [lookup_erase_ite, if_neg differs, unspent']
    exact ⟨final, coin :: spent, by
      rw [spendInputs, step]
      exact bind_eq_ok.mpr ⟨(final, spent), later, rfl⟩⟩

theorem spendable_of_accepted {cache : AssetsCache} {mempool : MempoolMaps} {view : CoinsView}
    {fCheckMempool : Bool} {nBlocktime currentTime : Int} {outputs : AssetOutputs}
    (checked : checkTransaction env tx true false true = .ok ())
    (passes : checkTxAssets env global cache mempool view tx fCheckMempool nBlocktime currentTime =
      .ok outputs) {input : TxIn} (member : input ∈ tx.vin) :
    ∃ coin, view.lookup input.prevout = some coin ∧ coin.Spendable env := by
  obtain ⟨inputs, _, scanned, _, _, _⟩ := checkTxAssets_ok passes
  obtain ⟨acc, next, step⟩ := foldlM_visits scanned member
  unfold checkAssetInput at step
  obtain ⟨coin, unspent, step⟩ := bind_eq_ok.mp step
  rw [require?_eq_ok] at unspent
  refine ⟨coin, unspent, fun carries => ?_⟩
  rw [if_pos carries] at step
  obtain ⟨data, read, _⟩ := bind_eq_ok.mp step
  rw [require?_eq_ok] at read
  refine ⟨data, read, fun unnamed => ?_⟩
  have spent : (data.assetName, data.nAmount) ∈ spentAssets env view tx :=
    mem_filterMap.mpr ⟨input, member, by simp [spentAsset, unspent, read]⟩
  have moved : ∃ amount, (data.assetName, amount) ∈ transferredAssets env tx := by
    rw [← isSome_lookup_totals 64 _ (transferredAssets_fits env tx), ← checkTxAssets_totals passes,
      isSome_lookup_totals 64 _ (spentAssets_fits env view tx)]
    exact ⟨data.nAmount, spent⟩
  obtain ⟨amount, transferred⟩ := moved
  obtain ⟨out, inOutputs, carried⟩ := mem_filterMap.mp transferred
  simp only [transferredAsset, bind_eq_bind, bind_eq_some_iff] at carried
  obtain ⟨⟨transfer, address⟩, readOut, same⟩ := carried
  have name : transfer.strName = data.assetName := congrArg Prod.fst (Option.some.inj same)
  obtain ⟨transfer', address', readAgain, valid⟩ := transfer_of_checked checked inOutputs
    (kind_of_read readOut)
  rw [readOut] at readAgain
  cases readAgain
  rw [name, unnamed] at valid
  exact absurd valid (by decide)

end

section

variable {env : Env} {global : AssetState} {cache : AssetsCache} {tx : Transaction}
  {mempool : MempoolMaps}

theorem addNewAsset_isSome {asset : NewAsset}
    (absent : cache.checkIfAssetExists env global asset.strName = false) (address : Bytes)
    (nHeight : Int) (blockHash : Uint256) :
    ∃ next, cache.addNewAsset env global asset address nHeight blockHash = some next := by
  unfold addNewAsset
  rw [absent]
  exact ⟨_, rfl⟩

theorem addReissueAsset_isSome {reissue : ReissueAsset} {prev : NewAsset}
    (known : cache.getAssetMetaDataIfExists global reissue.strName = some prev) (address : Bytes)
    (out : OutPoint) :
    ∃ next, cache.addReissueAsset env global reissue address out = some next := by
  obtain ⟨data, found, _⟩ := map_eq_some_iff.mp known
  unfold addReissueAsset
  rw [found]
  exact ⟨_, rfl⟩

theorem firstVerifier_readable (checked : checkTransaction env tx true false true = .ok ())
    {verifier : Option Bytes} (found : firstVerifier tx = some verifier) :
    ∃ text, verifier = some text := by
  obtain ⟨out, search, rfl⟩ := map_eq_some_iff.mp found
  have isVerifier := find?_some search
  exact (nullData_of_checked checked (mem_of_find?_eq_some search)).2.2 isVerifier

theorem addVerifier?_eq (checked : checkTransaction env tx true false true = .ok ())
    (cache : AssetsCache) (name : Bytes) :
    cache.addVerifier? name tx = some (match firstVerifier tx with
      | some verifier => cache.addRestrictedVerifier name (verifier.getD [])
      | none => cache) := by
  unfold addVerifier?
  cases found : firstVerifier tx with
  | none => rfl
  | some verifier =>
    obtain ⟨text, rfl⟩ := firstVerifier_readable checked found
    rfl

theorem scanUnique_seen {acc next : Transaction.UniqueScan} {out : TxOut}
    (unique : isScriptNewUniqueAsset env out.scriptPubKey = true)
    (passes : scanUnique env acc out = .ok next) :
    ∃ asset address, assetFromScript env out.scriptPubKey = some (asset, address) ∧
      asset.strName ∉ acc.setUniqueAssets ∧
        next.setUniqueAssets = asset.strName :: acc.setUniqueAssets := by
  rw [scanUnique, if_pos unique] at passes
  obtain ⟨⟨asset, address⟩, read, passes⟩ := bind_eq_ok.mp passes
  obtain ⟨_, _, _, unseen, passes⟩ := ok_bind₂ passes
  obtain rfl := pure_eq_ok.mp passes
  rw [require_eq_ok] at unseen
  exact ⟨asset, address, require?_eq_ok.mp read, by simpa using unseen, rfl⟩

theorem uniqueIssues_distinct (verified : tx.verifyNewUniqueAsset env = .ok ()) :
    tx.vout.Pairwise fun a b => ∀ name,
      (uniqueIssue env a).map (fun issue => issue.1.strName) = some name →
        (uniqueIssue env b).map (fun issue => issue.1.strName) ≠ some name := by
  unfold verifyNewUniqueAsset at verified
  obtain ⟨_, _, scan, scanned, _⟩ := ok_bind₂ verified
  refine (foldlM_distinct (fun out => (uniqueIssue env out).map
    fun issue => issue.1.strName) Transaction.UniqueScan.setUniqueAssets scanned ?_ ?_).2
  · intro acc out next name step isName
    obtain ⟨⟨asset, address⟩, issue, rfl⟩ := map_eq_some_iff.mp isName
    unfold uniqueIssue at issue
    split at issue
    · rename_i unique
      obtain ⟨_, _, read, unseen, rest⟩ := scanUnique_seen unique step
      rw [issue] at read
      cases read
      exact ⟨unseen, rest ▸ mem_cons_self⟩
    · cases issue
  · intro acc out next step
    by_cases unique : isScriptNewUniqueAsset env out.scriptPubKey = true
    · obtain ⟨_, _, _, _, rest⟩ := scanUnique_seen unique step
      exact rest ▸ subset_cons_self _ _
    · rw [scanUnique, if_neg unique] at step
      obtain rfl := pure_eq_ok.mp step
      exact List.Subset.refl _

theorem addUnique_passes {outs : List TxOut} (nHeight : Nat) (blockHash : Uint256)
    (distinct : outs.Pairwise fun a b => ∀ name,
      (uniqueIssue env a).map (fun issue => issue.1.strName) = some name →
        (uniqueIssue env b).map (fun issue => issue.1.strName) ≠ some name)
    (absent : ∀ out ∈ outs, ∀ issue, uniqueIssue env out = some issue →
      cache.checkIfAssetExists env global issue.1.strName = false) : outs.foldlM (fun acc out =>
      if isScriptNewUniqueAsset env out.scriptPubKey then do
        let (asset, address) ← assetFromScript env out.scriptPubKey
        acc.addNewAsset env global asset address nHeight blockHash else return acc) cache =
    some (outs.foldl (fun acc out => if isScriptNewUniqueAsset env out.scriptPubKey then
        tryAddNewAsset env global acc (assetFromScript env out.scriptPubKey) nHeight blockHash
      else acc) cache) := by
  induction outs generalizing cache with
  | nil => rfl
  | cons out rest ih =>
    rw [pairwise_cons] at distinct
    rw [foldlM_cons, foldl_cons]
    by_cases unique : isScriptNewUniqueAsset env out.scriptPubKey = true
    · obtain ⟨asset, address, read, _⟩ := isScriptNewUniqueAsset_iff.mp unique
      have issue : uniqueIssue env out = some (asset, address) := by
        rw [uniqueIssue, if_pos unique, read]
      obtain ⟨next, added⟩ := addNewAsset_isSome
        (absent out mem_cons_self (asset, address) issue) address nHeight blockHash
      rw [if_pos unique, if_pos unique, read]
      simp only [tryAddNewAsset, bind_eq_bind, bind_some, getD_some, added]
      -- the later names differ from this one, so they are still absent
      refine ih distinct.2 fun later member other isIssue => ?_
      have differs : other.1.strName ≠ asset.strName := fun same =>
        distinct.1 later member asset.strName (by rw [issue]; rfl) (by rw [isIssue, ← same]; rfl)
      rw [(addNewAsset_sameRecordAt added differs).exists_eq]
      exact absent later (mem_cons_of_mem _ member) other isIssue
    · rw [if_neg unique, if_neg unique]
      exact ih distinct.2 fun later member => absent later (mem_cons_of_mem _ member)

theorem addIssues?_eq_some (same : cache.records = empty.records)
    (checked : checkTransaction env tx true false true = .ok ())
    (context : checkTxAssetsKind env global empty mempool tx false = .ok ())
    (nHeight : Nat) (blockHash : Uint256) : cache.addIssues? env global tx nHeight blockHash =
      some (addIssues env global cache tx nHeight blockHash).1 := by
  have fresh : ∀ {asset : NewAsset} {fCheckMempool : Bool},
      contextualCheckNewAsset env global empty mempool asset fCheckMempool = .ok () →
        cache.checkIfAssetExists env global asset.strName = false := fun passes =>
    (checkIfAssetExists_records same env global _).trans (contextualCheckNewAsset_fresh passes)
  obtain ⟨_, use, stages⟩ := checkTransaction_ok checked
  have format := stages.kind
  unfold addIssues? addIssues
  unfold checkTransactionKind at format
  unfold checkTxAssetsKind at context
  split_ifs at format context ⊢ with isNew isReissue isUnique isChannel isQualifier isRestricted
  · obtain ⟨⟨⟩, verified, _⟩ := bind_eq_ok.mp format
    obtain ⟨ownerName, ownerAddress, owner⟩ := ownerRead_of_verified verified
    obtain ⟨⟨asset, address⟩, read, context⟩ := bind_eq_ok.mp context
    obtain ⟨next, added⟩ := addNewAsset_isSome (fresh context) address nHeight blockHash
    rw [require?_eq_ok] at read
    have issued : tx.assetFromTransaction env = some (asset, address) := by
      rw [assetFromTransaction, if_pos isNew, read]
    have ownerRead : tx.ownerFromTransaction env = some (ownerName, ownerAddress) := by
      rw [ownerFromTransaction, if_pos isNew, owner]
    simp [issued, ownerRead, added, tryAddNewAsset]
  · obtain ⟨⟨reissue, address⟩, read, context⟩ := bind_eq_ok.mp context
    rw [require?_eq_ok] at read
    rw [labelled_eq_ok] at context
    obtain ⟨prev, known⟩ := contextualCheckReissueAssetTx_known context
    rw [← getAssetMetaDataIfExists_records same] at known
    obtain ⟨next, added⟩ := @addReissueAsset_isSome env global cache reissue prev known address
      ⟨tx.hash, tx.vout.length - 1⟩
    have made : tx.reissueAssetFromTransaction env = some (reissue, address) := by
      rw [reissueAssetFromTransaction, if_pos isReissue, read]
    simp only [made, known, added, addReissue, reissueVerifier, bind_eq_bind,
      bind_some, getD_some]
    split
    · rw [addVerifier?_eq checked]
      cases found : firstVerifier tx with
      | none => rfl
      | some verifier =>
        obtain ⟨text, rfl⟩ := firstVerifier_readable checked found
        rfl
    · rfl
  · obtain ⟨⟨⟩, verified, _⟩ := bind_eq_ok.mp format
    rw [labelled_eq_ok] at context
    refine addUnique_passes nHeight blockHash (uniqueIssues_distinct verified) ?_
    intro out member issue isIssue
    have checkedOut := forM_eq_ok.mp context out member
    unfold uniqueIssue at isIssue
    split_ifs at isIssue checkedOut
    obtain ⟨⟨asset, address⟩, read, passes⟩ := bind_eq_ok.mp checkedOut
    rw [require?_eq_ok, isIssue] at read
    cases read
    exact fresh passes
  -- a channel or a qualifier is issued alone
  iterate 2
    · obtain ⟨_, _, ⟨asset, address⟩, read, context⟩ := ok_bind₂ context
      rw [require?_eq_ok] at read
      obtain ⟨next, added⟩ := addNewAsset_isSome (fresh (labelled_eq_ok.mp context)) address nHeight
        blockHash
      simp [read, added, tryAddNewAsset]
  · obtain ⟨_, _, ⟨asset, address⟩, read, context⟩ := ok_bind₂ context
    obtain ⟨_, passes, _⟩ := bind_eq_ok.mp context
    rw [require?_eq_ok] at read
    obtain ⟨next, added⟩ := addNewAsset_isSome (fresh (labelled_eq_ok.mp passes)) address nHeight
      blockHash
    cases verifier : firstVerifier tx <;>
      simp [read, added, tryAddNewAsset, addVerifier?_eq checked, verifier]
  · rfl

theorem outputsRead_of_checked (checked : checkTransaction env tx true false true = .ok ()) :
    OutputsRead env tx where
  nullData out member isTag := by
    obtain ⟨data, address, read⟩ := (nullData_of_checked checked member).1 isTag
    rw [read]
    rfl
  globalData out member isGlobal := by
    obtain ⟨data, read⟩ := (nullData_of_checked checked member).2.1 isGlobal
    rw [read]
    rfl
  transfers out member isTransfer := by
    obtain ⟨transfer, address, read, _⟩ := transfer_of_checked checked member isTransfer
    obtain ⟨n, found⟩ := isSome_iff_exists.mp isTransfer
    rw [isScriptTransferAsset, assetScriptOf_eq_some] at found
    simp [getAssetData, found, read]

end

/-- A coinbase that a block on these coins may have: it passes its check, carries no asset
data, which that check asks for once it is deployed, and overwrites no coin. -/
structure ValidCoinbase (env : Env) (coins : CoinsView) (coinbase : Transaction) : Prop where
  isCoinbase : coinbase.isCoinBase = true
  checked : checkTransaction env coinbase true false true = .ok ()
  bare : env.areCoinbaseCheckAssetsDeployed = false → coinbase.Bare
  fresh : ∀ n < coinbase.vout.length, coins.lookup ⟨coinbase.hash, n⟩ = none

section

variable {env : Env} {global : AssetState} {coins : CoinsView} {pool : Mempool}
  {tx coinbase : Transaction}

theorem lookup_foldl_inputCoins (inputs : List TxIn) (view : CoinsView) (out : OutPoint) :
    (inputs.foldl (fun view input =>
      match pool.getCoin coins input.prevout with
      | some coin => view.insert input.prevout coin
      | none => view) view).lookup out =
        if out ∈ inputs.map TxIn.prevout then (pool.getCoin coins out).or (view.lookup out)
        else view.lookup out := by
  induction inputs generalizing view with
  | nil => rfl
  | cons input rest ih =>
    rw [foldl_cons, ih]
    simp only [map_cons, mem_cons]
    by_cases own : out = input.prevout
    · subst own
      cases found : pool.getCoin coins input.prevout <;> simp
    · cases found : pool.getCoin coins input.prevout <;>
        simp [own, AList.lookup_insert_ne]

theorem lookup_inputCoins {input : TxIn} (member : input ∈ tx.vin)
    (confirmed : pool.contains input.prevout.hash = false) :
    (pool.inputCoins coins tx).lookup input.prevout = coins.lookup input.prevout := by
  have unknown : pool.mapTx.lookup input.prevout.hash = none := by
    simpa [Mempool.contains] using confirmed
  refine (lookup_foldl_inputCoins tx.vin ∅ input.prevout).trans ?_
  rw [if_pos (mem_map_of_mem member)]
  simp [Mempool.getCoin, unknown]

theorem lookup_afterCoinbase (valid : ValidCoinbase env coins coinbase) (nHeight : Nat)
    {out : OutPoint} (unspent : (coins.lookup out).isSome = true) :
    (coins.addOutputs coinbase nHeight coinbase.vout 0).lookup out = coins.lookup out := by
  rw [CoinsView.lookup_addOutputs]
  cases made : CoinsView.created coinbase nHeight coinbase.vout 0 out with
  | none => rfl
  | some coin =>
    obtain ⟨own, output, inOutputs, _⟩ := CoinsView.created_isSome.mp (by rw [made]; rfl)
    obtain ⟨short, _⟩ := List.getElem?_eq_some_iff.mp inOutputs
    have overwritten := valid.fresh out.n short
    rw [← own] at overwritten
    rw [overwritten] at unspent
    cases unspent

theorem updateCoins_coinbase (valid : ValidCoinbase env coins coinbase) (nHeight : Nat)
    (blockHash : Uint256) : updateCoins env global coinbase ⟨coins, empty⟩ nHeight blockHash =
      .ok ⟨⟨coins.addOutputs coinbase nHeight coinbase.vout 0, empty⟩, [], none⟩ := by
  have bare : coinbase.Bare := by
    cases enforced : env.areCoinbaseCheckAssetsDeployed with
    | false => exact valid.bare enforced
    | true => exact bare_of_checked valid.checked enforced valid.isCoinbase
  simp [updateCoins, spendTransaction, valid.isCoinbase,
    addTransaction_bare bare]

theorem distinct_of_checked (checked : checkTransaction env tx true false true = .ok ()) :
    (tx.vin.map TxIn.prevout).Nodup := by
  obtain ⟨_, _, stages⟩ := checkTransaction_ok checked
  have prevouts := stages.prevouts
  unfold checkPrevouts at prevouts
  obtain ⟨_, distinct, _⟩ := bind_eq_ok.mp prevouts
  simpa using distinct

/-- A transaction that the pool accepts, with confirmed inputs, passes the asset checks of a
block on the same tip that has only a valid coinbase before it, and every update of the asset
cache that its inputs and outputs stand for is made. -/
theorem accepted_passes_in_block {policy : MempoolPolicy} {nSpendHeight : Nat} {args : AcceptArgs}
    {mempool : MempoolMaps} {block : Block} (deployed : env.areAssetsDeployed = true) (accepted :
      (pool.acceptToMemoryPoolWorker policy env global coins nSpendHeight args tx).2 = .ok ())
    (confirmed : ∀ input ∈ tx.vin, (coins.lookup input.prevout).isSome = true ∧
      pool.contains input.prevout.hash = false)
    (consistent : UndisturbedTx env mempool tx) (valid : ValidCoinbase env coins coinbase)
    (only : block.vtx = [coinbase, tx]) (nHeight : Nat) (currentTime : Int) :
    (∀ t ∈ block.vtx, checkTransaction env t true false true = .ok ()) ∧
      ∃ first messages spent vprevout,
        BlockView.updateCoins env global coinbase ⟨coins, AssetsCache.empty⟩ nHeight block.hash =
            .ok first ∧
          checkDeployedAssets env global mempool block currentTime first.view tx = .ok messages ∧
          BlockView.spendTransaction env global tx first.view = .ok (spent, vprevout) ∧
          spent.assets.addIssues? env global tx nHeight block.hash =
            some (addIssues env global spent.assets tx nHeight block.hash).1 ∧
          OutputsRead env tx := by
  have passed : ∃ acceptance,
      pool.checkAcceptance policy env global coins nSpendHeight args tx = .ok acceptance := by
    unfold Mempool.acceptToMemoryPoolWorker at accepted
    cases result : pool.checkAcceptance policy env global coins nSpendHeight args tx with
    | error reason => rw [result] at accepted; cases accepted
    | ok acceptance => exact ⟨acceptance, rfl⟩
  obtain ⟨acceptance, passed⟩ := passed
  have stages := checkAcceptance_ok passed
  have checked := checkTransaction_block stages.transaction
  have assets := stages.reissues
  rw [Mempool.checkAcceptedAssets, if_pos deployed] at assets
  obtain ⟨outputs, assets, _⟩ := bind_eq_ok.mp assets
  have sameCoins : ∀ input ∈ tx.vin,
      (coins.addOutputs coinbase nHeight coinbase.vout 0).lookup input.prevout =
        (pool.inputCoins coins tx).lookup input.prevout := by
    intro input member
    rw [lookup_afterCoinbase valid nHeight (confirmed input member).1,
      lookup_inputCoins member (confirmed input member).2]
  obtain ⟨outputs', inBlock⟩ := checkTxAssets_block block.nTime currentTime consistent sameCoins
    assets
  obtain ⟨_, _, _, _, kind, _⟩ := checkTxAssets_ok inBlock
  obtain ⟨spent, vprevout, spends⟩ : ∃ spent vprevout, spendTransaction env global tx
      ⟨coins.addOutputs coinbase nHeight coinbase.vout 0, empty⟩ =
        .ok (spent, vprevout) := by
    unfold spendTransaction
    split
    · exact ⟨_, _, rfl⟩
    · exact spendInputs_passes _ (distinct_of_checked checked)
        fun input member => spendable_of_accepted checked inBlock member
  refine ⟨?_, _, outputs'.setMessages, spent, vprevout, updateCoins_coinbase valid nHeight _, ?_,
    spends, ?_, outputsRead_of_checked checked⟩
  · intro t member
    rw [only, mem_pair] at member
    rcases member with rfl | rfl
    · exact valid.checked
    · exact checked
  · rw [checkDeployedAssets, if_pos deployed]
    exact bind_eq_ok.mpr ⟨outputs', inBlock, rfl⟩
  · exact addIssues?_eq_some (spendTransaction_layers spends).records checked kind nHeight _

end

namespace Minable

open MainNet

def state : AssetState :=
  recording [⟨ascii "$TOKEN", 5 * coin, 0, 1, 0, []⟩, ⟨ascii "#KYC", coin, 0, 0, 0, []⟩]

def wallet : CoinsView :=
  coins [(⟨7, 0⟩, pay coin alice), (⟨7, 1⟩, transfer (ascii "TOKEN!") coin)]

/-- Reissues the restricted asset with a new verifier string and nothing else. -/
def change : Transaction :=
  transaction 20 [⟨7, 0⟩, ⟨7, 1⟩]
    [pay (coin / 10) burnKey, transfer (ascii "TOKEN!") coin, verifier (ascii "!KYC"),
      reissue ⟨ascii "$TOKEN", 0, -1, 1, []⟩]

def holding : Mempool := (accept state wallet .empty change).1

end Minable

open Minable MainNet

/-- A reissue that only changes the verifier string, from the pool into a block. -/
theorem accepted_passes_in_block_verifier : (accept state wallet .empty change).2 = .ok () ∧
      ∃ first messages spent vprevout,
        BlockView.updateCoins env state (coinbase 1009) ⟨wallet, AssetsCache.empty⟩ 10 9 =
            .ok first ∧
          checkDeployedAssets env state holding.assets (block 9 [change]) 0 first.view change =
            .ok messages ∧
          BlockView.spendTransaction env state change first.view = .ok (spent, vprevout) ∧
          spent.assets.addIssues? env state change 10 9 =
            some (addIssues env state spent.assets change 10 9).1 ∧ OutputsRead env change := by
  have accepted : (accept state wallet .empty change).2 = .ok () := by decide +kernel
  have consistent : UndisturbedTx env holding.assets change := by
    intro out member reissue address read
    have checked : ∀ out ∈ change.vout, ((reissueAssetFromScript env out.scriptPubKey).all
        fun read => holding.assets.mapReissuedAssets.lookup read.1.strName =
          some change.hash) = true := by
      decide +kernel
    have own := checked out member
    rw [read] at own
    exact .inr (by simpa using own)
  have valid : ValidCoinbase env wallet (coinbase 1009) :=
    ⟨by decide, by decide +kernel, by decide +kernel, by decide +kernel⟩
  have only : (block 9 [change]).vtx = [coinbase 1009, change] := rfl
  exact ⟨accepted, (accepted_passes_in_block rfl accepted (by decide +kernel) consistent valid only
    10 0).2⟩

end Phicoin
