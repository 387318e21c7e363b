import Phicoin.Lib.Totals
import Phicoin.Block

/-! # What an accepted transaction satisfies

The validation functions read backwards: each lemma takes an accepted result
and gives the facts its checks established.  The assets of a transaction are
seen as two lists, what its inputs carry and what its outputs transfer, and the
two totals of `CheckTxAssets` as the totals of these lists. -/

namespace Phicoin

open Check ByteReader TwosComplement Totals KeyedMap List Option

variable {script : Bytes}

theorem isAssetScript_kinds {info : AssetScript} (found : isAssetScript script = some info) :
    (info.nType = .newAsset ∧ info.fIsOwner = false) ∨
      (info.nType = .newAsset ∧ info.fIsOwner = true) ∨
      (info.nType = .transferAsset ∧ info.fIsOwner = false) ∨
      (info.nType = .reissueAsset ∧ info.fIsOwner = false) := by
  unfold isAssetScript at found
  split at found
  · split at found
    · cases found
    · split_ifs at found <;> cases found <;> simp
  · cases found

theorem isAssetScript_kind {info : AssetScript} (found : isAssetScript script = some info) :
    (info.nType = .transferAsset ∧ info.fIsOwner = false) ∨ info.nType = .newAsset ∨
      (info.nType = .reissueAsset ∧ info.fIsOwner = false) := by
  rcases isAssetScript_kinds found with issue | owner | transfer | reissue
  · exact .inr (.inl issue.1)
  · exact .inr (.inl owner.1)
  · exact .inl transfer
  · exact .inr (.inr reissue)

variable {nType : TxnOutType} {fIsOwner : Bool}

theorem assetScriptOf_eq_some {n : Nat} : assetScriptOf nType fIsOwner script = some n ↔
      isAssetScript script = some ⟨nType, fIsOwner, n⟩ := by
  unfold assetScriptOf
  cases found : isAssetScript script with
  | none => simp
  | some info =>
    obtain ⟨kind, owner, start⟩ := info
    by_cases sameKind : kind = nType <;> by_cases sameOwner : owner = fIsOwner <;>
      simp [sameKind, sameOwner]

def Begins (stream name : Bytes) (amount : Int) : Prop :=
  ∃ after later, readText stream = some (name, after) ∧ readInt64 after = some (amount, later)

variable {stream : Bytes}

theorem Begins.fits {name : Bytes} {amount : Int} (begins : Begins stream name amount) :
    Fits 64 amount := by
  obtain ⟨_, _, _, readAmount⟩ := begins
  exact readSigned_fits readAmount

variable {rest : Bytes}

theorem readNewAsset_begins {asset : NewAsset} (read : readNewAsset stream = some (asset, rest)) :
    Begins stream asset.strName asset.nAmount := by
  simp only [readNewAsset, run_bind, run_pure] at read
  obtain ⟨_, _, readName, _, _, readAmount, _, _, _, _, _, _, _, _, _, _, _, _, rfl, _⟩ := read
  exact ⟨_, _, readName, readAmount⟩

theorem readAssetTransfer_begins {transfer : AssetTransfer}
    (read : readAssetTransfer stream = some (transfer, rest)) :
    Begins stream transfer.strName transfer.nAmount := by
  simp only [readAssetTransfer, run_bind, run_pure] at read
  obtain ⟨_, _, readName, _, _, readAmount, _, _, _, _, _, _, rfl, _⟩ := read
  exact ⟨_, _, readName, readAmount⟩

theorem readReissueAsset_begins {reissue : ReissueAsset}
    (read : readReissueAsset stream = some (reissue, rest)) :
    Begins stream reissue.strName reissue.nAmount := by
  simp only [readReissueAsset, run_bind, run_pure] at read
  obtain ⟨_, _, readName, _, _, readAmount, _, _, _, _, _, _, _, _, _, rfl, _⟩ := read
  exact ⟨_, _, readName, readAmount⟩

theorem readAt_eq_some {α : Type} {reader : Reader α} {offset : Nat} {a : α} :
    readAt reader offset script = some a ↔ ∃ rest, reader (script.drop offset) = some (a, rest) := by
  unfold readAt
  cases reader (script.drop offset) with
  | none => simp
  | some result =>
    obtain ⟨value, rest⟩ := result
    simp

/-- Every parser starts with a test of the kind. -/
theorem kind_of_read {α : Type} {nType : TxnOutType} {fIsOwner : Bool} {next : Nat → Option α} {a : α}
    (read : (assetScriptOf nType fIsOwner script).bind next = some a) :
    (assetScriptOf nType fIsOwner script).isSome = true := by
  obtain ⟨n, kind, _⟩ := bind_eq_some_iff.mp read
  rw [kind]
  rfl

variable {env : Env} {address : Bytes}

theorem transferAssetFromScript_eq_some {transfer : AssetTransfer}
    (found : transferAssetFromScript env script = some (transfer, address)) :
    ∃ n, isScriptTransferAsset script = some n ∧
      Begins (script.drop (if env.areTransferScriptsSizeDeployed then n else 31)) transfer.strName
        transfer.nAmount := by
  simp only [transferAssetFromScript, bind_eq_bind, bind_eq_some_iff] at found
  obtain ⟨n, isTransfer, _, read, same⟩ := found
  obtain ⟨rest, run⟩ := readAt_eq_some.mp read
  cases same
  exact ⟨n, isTransfer, readAssetTransfer_begins run⟩

theorem assetFromScript_eq_some {asset : NewAsset}
    (found : assetFromScript env script = some (asset, address)) :
    ∃ n, isScriptNewAsset script = some n ∧ Begins (script.drop n) asset.strName asset.nAmount := by
  simp only [assetFromScript, bind_eq_bind, bind_eq_some_iff] at found
  obtain ⟨n, isNew, _, read, same⟩ := found
  obtain ⟨rest, run⟩ := readAt_eq_some.mp read
  cases same
  exact ⟨n, isNew, readNewAsset_begins run⟩

theorem reissueAssetFromScript_eq_some {reissue : ReissueAsset}
    (found : reissueAssetFromScript env script = some (reissue, address)) :
    ∃ n, isScriptReissueAsset script = some n ∧
      Begins (script.drop n) reissue.strName reissue.nAmount := by
  simp only [reissueAssetFromScript, bind_eq_bind, bind_eq_some_iff] at found
  obtain ⟨n, isReissue, _, read, same⟩ := found
  obtain ⟨rest, run⟩ := readAt_eq_some.mp read
  cases same
  exact ⟨n, isReissue, readReissueAsset_begins run⟩

variable {data : AssetOutputEntry}

theorem getAssetData_fits (found : getAssetData env script = some data) : Fits 64 data.nAmount := by
  simp only [getAssetData, bind_eq_bind, bind_eq_some_iff] at found
  obtain ⟨info, _, selected⟩ := found
  split at selected
  · obtain ⟨⟨asset, address⟩, read, same⟩ := bind_eq_some_iff.mp selected
    cases same
    obtain ⟨_, _, begins⟩ := assetFromScript_eq_some read
    exact begins.fits
  · obtain ⟨_, _, same⟩ := bind_eq_some_iff.mp selected
    cases same
    exact (by decide : Fits 64 ownerAssetAmount)
  · obtain ⟨⟨transfer, address⟩, read, same⟩ := bind_eq_some_iff.mp selected
    cases same
    obtain ⟨_, _, begins⟩ := transferAssetFromScript_eq_some read
    exact begins.fits
  · obtain ⟨⟨reissue, address⟩, read, same⟩ := bind_eq_some_iff.mp selected
    cases same
    obtain ⟨_, _, begins⟩ := reissueAssetFromScript_eq_some read
    exact begins.fits
  · cases selected

def spentAsset (env : Env) (view : CoinsView) (input : TxIn) : Option (Bytes × Int) := do
  let coin ← view.lookup input.prevout
  let data ← getAssetData env coin.out.scriptPubKey
  return (data.assetName, data.nAmount)

def transferredAsset (env : Env) (out : TxOut) : Option (Bytes × Int) := do
  let (transfer, _) ← transferAssetFromScript env out.scriptPubKey
  return (transfer.strName, transfer.nAmount)

def spentAssets (env : Env) (view : CoinsView) (tx : Transaction) : List (Bytes × Int) :=
  tx.vin.filterMap (spentAsset env view)

def transferredAssets (env : Env) (tx : Transaction) : List (Bytes × Int) :=
  tx.vout.filterMap (transferredAsset env)

theorem spentAssets_fits (env : Env) (view : CoinsView) (tx : Transaction) :
    ∀ e ∈ spentAssets env view tx, Fits 64 e.2 := by
  intro e member
  obtain ⟨input, _, carried⟩ := mem_filterMap.mp member
  simp only [spentAsset, bind_eq_bind, bind_eq_some_iff] at carried
  obtain ⟨coin, _, data, read, same⟩ := carried
  cases same
  exact getAssetData_fits read

theorem transferredAssets_fits (env : Env) (tx : Transaction) :
    ∀ e ∈ transferredAssets env tx, Fits 64 e.2 := by
  intro e member
  obtain ⟨out, _, moved⟩ := mem_filterMap.mp member
  simp only [transferredAsset, bind_eq_bind, bind_eq_some_iff] at moved
  obtain ⟨⟨transfer, address⟩, read, same⟩ := moved
  cases same
  obtain ⟨_, _, begins⟩ := transferAssetFromScript_eq_some read
  exact begins.fits

def addEntry (acc : KeyedMap Bytes Int) : Option (Bytes × Int) → KeyedMap Bytes Int
  | some e => accumulate addAmount acc e.1 e.2
  | none => acc

theorem foldl_addEntry {α : Type} (entry : α → Option (Bytes × Int)) (xs : List α) :
    xs.foldl (fun acc x => addEntry acc (entry x)) ∅ = totals 64 (xs.filterMap entry) := by
  unfold totals
  rw [foldl_filterMap]
  congr 1
  funext acc x
  cases entry x <;> rfl

section

variable {env : Env} {global : AssetState} {cache : AssetsCache} {mempool : MempoolMaps}
  {view : CoinsView} {tx : Transaction}

theorem getAssetData_isSome
    (found : getAssetData env script = some data) : (isAssetScript script).isSome := by
  simp only [getAssetData, bind_eq_bind, bind_eq_some_iff] at found
  obtain ⟨info, isAsset, _⟩ := found
  rw [isAsset]
  rfl

theorem checkAssetInput_totals {acc next : AssetInputs} {input : TxIn}
    (passes : checkAssetInput env global cache view acc input = .ok next) :
    next.totalInputs = addEntry acc.totalInputs (spentAsset env view input) := by
  unfold checkAssetInput at passes
  obtain ⟨coin, unspent, passes⟩ := bind_eq_ok.mp passes
  rw [require?_eq_ok] at unspent
  split at passes
  · obtain ⟨data, read, passes⟩ := bind_eq_ok.mp passes
    rw [require?_eq_ok] at read
    obtain ⟨_, _, passes⟩ := bind_eq_ok.mp passes
    rw [← pure_eq_ok.mp passes]
    simp [spentAsset, unspent, read, addEntry]
  · rename_i plain
    rw [← pure_eq_ok.mp passes]
    have noData : getAssetData env coin.out.scriptPubKey = none := by
      cases read : getAssetData env coin.out.scriptPubKey with
      | none => rfl
      | some data => exact absurd (getAssetData_isSome read) plain
    simp [spentAsset, unspent, noData, addEntry]

variable {out : TxOut}

theorem transferredAsset_of_kind
    (other : (isAssetScript out.scriptPubKey).map AssetScript.nType ≠ some .transferAsset) :
    transferredAsset env out = none := by
  unfold transferredAsset
  cases read : transferAssetFromScript env out.scriptPubKey with
  | none => rfl
  | some result =>
    obtain ⟨n, isTransfer, _⟩ := transferAssetFromScript_eq_some read
    rw [isScriptTransferAsset, assetScriptOf_eq_some] at isTransfer
    simp [isTransfer] at other

variable {acc next : AssetOutputs}

theorem checkTransferOutput_ok {mapAddresses : KeyedMap Bytes Bytes} {nBlocktime currentTime : Int}
    (passes : checkTransferOutput env global cache tx mapAddresses nBlocktime currentTime acc out =
      .ok next) :
    ∃ transfer address, transferAssetFromScript env out.scriptPubKey = some (transfer, address) ∧
      contextualCheckTransferAsset env global cache transfer address = .ok () ∧
      checkTransferUnits global cache transfer = .ok () ∧ next.totalOutputs =
        accumulate addAmount acc.totalOutputs transfer.strName transfer.nAmount := by
  unfold checkTransferOutput at passes
  obtain ⟨⟨transfer, address⟩, read, passes⟩ := bind_eq_ok.mp passes
  obtain ⟨⟨⟩, contextual, ⟨⟩, units, passes⟩ := ok_bind₂ passes
  rw [require?_eq_ok] at read
  refine ⟨transfer, address, read, contextual, units, ?_⟩
  rw [← pure_eq_ok.mp passes]

theorem checkReissueOutput_totals (passes : checkReissueOutput env mempool tx acc out = .ok next) :
    next.totalOutputs = acc.totalOutputs := by
  unfold checkReissueOutput at passes
  obtain ⟨⟨reissue, address⟩, _, selected⟩ := bind_eq_ok.mp passes
  dsimp only at selected
  split at selected
  · obtain ⟨_, _, same⟩ := bind_eq_ok.mp selected
    rw [← pure_eq_ok.mp same]
  · rw [← pure_eq_ok.mp selected]

theorem checkAssetOutput_totals {mapAddresses : KeyedMap Bytes Bytes} {nBlocktime currentTime : Int}
    (passes : checkAssetOutput env global cache mempool tx mapAddresses nBlocktime currentTime acc
      out = .ok next) :
    next.totalOutputs = addEntry acc.totalOutputs (transferredAsset env out) := by
  unfold checkAssetOutput at passes
  obtain ⟨_, _, _, _, checked, selected, passes⟩ := ok_bind₃ passes
  rw [← pure_eq_ok.mp passes]
  unfold checkAssetOutputKind at selected
  split at selected
  · obtain ⟨transfer, address, read, _, _, total⟩ := checkTransferOutput_ok selected
    simp [total, transferredAsset, read, addEntry]
  · rename_i kind
    rw [checkReissueOutput_totals selected,
      transferredAsset_of_kind (by rw [kind]; decide)]
    rfl
  · rename_i other _
    rw [← pure_eq_ok.mp selected, transferredAsset_of_kind other]
    rfl

theorem checkTotals_ok {totalInputs totalOutputs : KeyedMap Bytes Int}
    (passes : checkTotals totalInputs totalOutputs = .ok ()) (name : Bytes) :
    totalInputs.lookup name = totalOutputs.lookup name := by
  obtain ⟨⟨⟩, compared, sizes⟩ := bind_eq_ok.mp passes
  rw [require_eq_ok, decide_eq_true_eq] at sizes
  have agree : ∀ k total, totalOutputs.lookup k = some total → totalInputs.lookup k = some total := by
    intro k total present
    have entry : (⟨k, total⟩ : Sigma fun _ : Bytes => Int) ∈ totalOutputs.entries :=
      AList.mem_lookup_iff.mp present
    obtain ⟨other, found, same⟩ := bind_eq_ok.mp (forM_eq_ok.mp compared _ entry)
    rw [require?_eq_ok] at found
    rw [require_eq_ok, decide_eq_true_eq] at same
    rw [found, same]
  cases present : totalOutputs.lookup name with
  | some total => exact agree name total present
  | none =>
    have sameKeys := keys_iff_of_subset totalOutputs totalInputs (fun k isKey => by
      obtain ⟨total, found⟩ := isSome_iff_exists.mp isKey
      rw [agree k total found]
      rfl) sizes name
    rw [present] at sameKeys
    exact not_isSome_iff_eq_none.mp fun isKey => by simpa using sameKeys.mpr isKey

variable {fCheckMempool : Bool} {nBlocktime currentTime : Int} {outputs : AssetOutputs}

variable (passes : checkTxAssets env global cache mempool view tx fCheckMempool nBlocktime
  currentTime = .ok outputs)

include passes

theorem checkTxAssets_ok : ∃ inputs, view.haveInputs tx = true ∧
      tx.vin.foldlM (checkAssetInput env global cache view) ⟨∅, ∅⟩ = .ok inputs ∧
      tx.vout.foldlM (checkAssetOutput env global cache mempool tx inputs.mapAddresses nBlocktime
        currentTime) ⟨∅, [], [], 0⟩ = .ok outputs ∧
      checkTxAssetsKind env global cache mempool tx fCheckMempool = .ok () ∧
      checkTotals inputs.totalInputs outputs.totalOutputs = .ok () := by
  unfold checkTxAssets at passes
  obtain ⟨⟨⟩, available, inputs, scanned, final, checked, passes⟩ := ok_bind₃ passes
  obtain ⟨⟨⟩, kind, ⟨⟩, compared, passes⟩ := ok_bind₂ passes
  obtain rfl := pure_eq_ok.mp passes
  rw [require_eq_ok] at available
  exact ⟨inputs, available, scanned, checked, kind, compared⟩

theorem checkTxAssets_totals (name : Bytes) : (totals 64 (spentAssets env view tx)).lookup name =
      (totals 64 (transferredAssets env tx)).lookup name := by
  obtain ⟨inputs, _, scanned, checked, _, compared⟩ := checkTxAssets_ok passes
  have spent := foldlM_project AssetInputs.totalInputs
    (fun acc input => addEntry acc (spentAsset env view input)) scanned
    fun acc input next _ step => checkAssetInput_totals step
  have moved := foldlM_project AssetOutputs.totalOutputs
    (fun acc out => addEntry acc (transferredAsset env out)) checked
    fun acc out next _ step => checkAssetOutput_totals step
  rw [foldl_addEntry] at spent moved
  rw [spentAssets, transferredAssets, ← spent, ← moved]
  exact checkTotals_ok compared name

end

section

variable {env : Env} {tx : Transaction}

theorem hasTransferOf_iff {name : Bytes} :
    tx.hasTransferOf env name = true ↔ ∃ amount, (name, amount) ∈ transferredAssets env tx := by
  rw [Transaction.hasTransferOf, List.any_eq_true]
  constructor
  · rintro ⟨out, member, matching⟩
    cases read : transferAssetFromScript env out.scriptPubKey with
    | none => simp [read] at matching
    | some result =>
      obtain ⟨transfer, address⟩ := result
      simp only [read, decide_eq_true_eq] at matching
      refine ⟨transfer.nAmount, List.mem_filterMap.mpr ⟨out, member, ?_⟩⟩
      simp [transferredAsset, read, matching]
  · rintro ⟨amount, member⟩
    obtain ⟨out, inOutputs, moved⟩ := List.mem_filterMap.mp member
    refine ⟨out, inOutputs, ?_⟩
    simp only [transferredAsset, Option.bind_eq_bind, Option.bind_eq_some_iff] at moved
    obtain ⟨⟨transfer, address⟩, read, same⟩ := moved
    cases same
    simp [read]

theorem eq_of_countOutputs_one {vout : List TxOut}
    (one : countOutputs vout nType fIsOwner = 1) {a b : TxOut} (aIn : a ∈ vout) (bIn : b ∈ vout)
    (aKind : (assetScriptOf nType fIsOwner a.scriptPubKey).isSome)
    (bKind : (assetScriptOf nType fIsOwner b.scriptPubKey).isSome) : a = b := by
  rw [countOutputs, countP_eq_length_filter, length_eq_one_iff] at one
  obtain ⟨only, filtered⟩ := one
  have aOnly : a ∈ [only] := filtered ▸ mem_filter.mpr ⟨aIn, aKind⟩
  have bOnly : b ∈ [only] := filtered ▸ mem_filter.mpr ⟨bIn, bKind⟩
  rw [mem_singleton.mp aOnly, mem_singleton.mp bOnly]

theorem countOutputs_ne_zero {vout : List TxOut} {out : TxOut} (member : out ∈ vout)
    (kind : (assetScriptOf nType fIsOwner out.scriptPubKey).isSome) :
    countOutputs vout nType fIsOwner ≠ 0 :=
  fun zero => countP_eq_zero.mp zero out member kind

theorem lastScript_mem (kind : (assetScriptOf nType fIsOwner tx.lastScript).isSome) :
    ∃ out ∈ tx.vout, out.scriptPubKey = tx.lastScript := by
  unfold Transaction.lastScript at kind ⊢
  cases last : tx.vout.getLast? with
  | none =>
    rw [last] at kind
    cases kind
  | some out => exact ⟨out, mem_of_getLast? last, rfl⟩

theorem script_eq_lastScript (one : countOutputs tx.vout nType fIsOwner = 1)
    (kind : (assetScriptOf nType fIsOwner tx.lastScript).isSome) {out : TxOut}
    (member : out ∈ tx.vout) (outKind : (assetScriptOf nType fIsOwner out.scriptPubKey).isSome) :
    out.scriptPubKey = tx.lastScript := by
  obtain ⟨last, inOutputs, isLast⟩ := lastScript_mem kind
  rw [← isLast]
  rw [← isLast] at kind
  exact congrArg TxOut.scriptPubKey (eq_of_countOutputs_one one member inOutputs outKind kind)

end

variable {env : Env} {rules : BlockRules} {global : AssetState} {mempool : MempoolMaps}
  {nHeight : Nat} {block : Block} {currentTime : Int} {view : BlockView} {connected : Connected}

theorem connectBlock_ok (notGenesis : block.hash ≠ rules.hashGenesisBlock)
    (passes : connectBlock env rules global mempool nHeight block currentTime view = .ok connected) :
    ∃ final, checkBlock env rules block = .ok () ∧
      block.vtx.foldlM (connectTx env rules global mempool nHeight block currentTime)
        ⟨view, 0, 0, [], [], []⟩ = .ok final ∧
      checkCoinbase env nHeight block final.nFees = .ok () ∧
      connected = ⟨final.view, final.vprevouts.tail, final.vUndoAssetData, final.setMessages⟩ := by
  unfold connectBlock at passes
  obtain ⟨⟨⟩, checked, passes⟩ := bind_eq_ok.mp passes
  rw [if_neg notGenesis] at passes
  obtain ⟨final, looped, ⟨⟩, coinbase, passes⟩ := ok_bind₂ passes
  exact ⟨final, checked, looped, coinbase, (pure_eq_ok.mp passes).symm⟩

theorem checkBlock_ok (checked : checkBlock env rules block = .ok ()) :
    ∀ tx ∈ block.vtx, checkTransaction env tx true false true = .ok () := by
  unfold checkBlock at checked
  obtain ⟨_, _, _, _, _, _, checked⟩ := ok_bind₃ checked
  obtain ⟨_, transactions, _⟩ := bind_eq_ok.mp checked
  exact forM_eq_ok.mp transactions

/-- The first transaction of a block is its only coinbase. -/
theorem checkBlock_coinbase (checked : checkBlock env rules block = .ok ()) :
    ∃ coinbase rest, block.vtx = coinbase :: rest ∧ coinbase.isCoinBase = true ∧
      ∀ tx ∈ rest, tx.isCoinBase = false := by
  unfold checkBlock at checked
  obtain ⟨_, _, _, first, _, others, _⟩ := ok_bind₃ checked
  rw [require_eq_ok] at first others
  cases order : block.vtx with
  | nil => simp [order] at first
  | cons coinbase rest =>
    refine ⟨coinbase, rest, rfl, by simpa [order] using first, ?_⟩
    simpa [order] using others

end Phicoin
