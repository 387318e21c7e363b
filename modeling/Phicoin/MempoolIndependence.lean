import Phicoin.Accepted
import Phicoin.MainNet

/-! # Blocks and the memory pool

`ConnectBlock` calls `CheckTxAssets`, which looks a reissued name up in
`mapReissuedAssets`, a map the memory pool fills and that is stored on disk.  The
verdict on a block is that of a node without such a map exactly when the map has
no other transaction under a name the block reissues. -/

namespace Phicoin

open Check

/-- The map remembers no other reissue of the names a transaction reissues. -/
def UndisturbedTx (env : Env) (mempool : MempoolMaps) (tx : Transaction) : Prop :=
  ∀ out ∈ tx.vout, ∀ reissue address,
    reissueAssetFromScript env out.scriptPubKey = some (reissue, address) →
      mempool.mapReissuedAssets.lookup reissue.strName = none ∨
        mempool.mapReissuedAssets.lookup reissue.strName = some tx.hash

def Undisturbed (env : Env) (mempool : MempoolMaps) (block : Block) : Prop :=
  ∀ tx ∈ block.vtx, tx.isCoinBase = false → UndisturbedTx env mempool tx

section

variable {env : Env} {global : AssetState} {cache : AssetsCache} {mempool other : MempoolMaps}
  {view : CoinsView} {tx : Transaction} {nBlocktime currentTime : Int}
  {mapAddresses : KeyedMap Bytes Bytes}

/-- What `ConnectBlock` keeps of the outputs: all but the new reissues. -/
def AssetOutputs.kept (outputs : AssetOutputs) : AssetOutputs :=
  { outputs with vPairReissueAssets := [] }

variable {outputs : AssetOutputs}

theorem kept_eq_iff {outputs' : AssetOutputs} :
    outputs.kept = outputs'.kept ↔ outputs.totalOutputs = outputs'.totalOutputs ∧
      outputs.setMessages = outputs'.setMessages ∧ outputs.index = outputs'.index := by
  simp [AssetOutputs.kept]

variable {acc next : AssetOutputs} {out : TxOut}

theorem checkReissueOutput_undisturbed
    (passes : checkReissueOutput env mempool tx acc out = .ok next) {reissue : ReissueAsset}
    {address : Bytes} (read : reissueAssetFromScript env out.scriptPubKey = some (reissue, address)) :
    mempool.mapReissuedAssets.lookup reissue.strName = none ∨
      mempool.mapReissuedAssets.lookup reissue.strName = some tx.hash := by
  unfold checkReissueOutput at passes
  obtain ⟨⟨reissue', address'⟩, readAgain, passes⟩ := bind_eq_ok.mp passes
  rw [require?_eq_ok, read] at readAgain
  cases readAgain
  dsimp only at passes
  split at passes
  · rename_i hash remembered
    obtain ⟨_, same, _⟩ := bind_eq_ok.mp passes
    rw [require_eq_ok, decide_eq_true_eq] at same
    exact .inr (same ▸ remembered)
  · rename_i forgotten
    exact .inl forgotten

theorem checkTxAssets_undisturbed {fCheckMempool : Bool}
    (passes : checkTxAssets env global cache mempool view tx fCheckMempool nBlocktime currentTime =
      .ok outputs) : UndisturbedTx env mempool tx := by
  intro out member reissue address read
  obtain ⟨inputs, _, _, checked, _, _⟩ := checkTxAssets_ok passes
  obtain ⟨acc, next, visited⟩ := foldlM_visits checked member
  unfold checkAssetOutput at visited
  obtain ⟨_, _, _, _, _, kind, _⟩ := ok_bind₃ visited
  obtain ⟨n, isReissue, _⟩ := reissueAssetFromScript_eq_some read
  rw [isScriptReissueAsset, assetScriptOf_eq_some] at isReissue
  rw [isReissue] at kind
  exact checkReissueOutput_undisturbed kind read

variable {acc' : AssetOutputs}

theorem checkReissueOutput_other (quiet : UndisturbedTx env other tx) (member : out ∈ tx.vout)
    (passes : checkReissueOutput env mempool tx acc out = .ok next) (same : acc.kept = acc'.kept) :
    ∃ next', checkReissueOutput env other tx acc' out = .ok next' ∧ next.kept = next'.kept := by
  have keeps : next.kept = acc.kept := by
    unfold checkReissueOutput at passes
    obtain ⟨_, _, passes⟩ := bind_eq_ok.mp passes
    dsimp only at passes
    split at passes
    · obtain ⟨_, _, passes⟩ := bind_eq_ok.mp passes
      exact congrArg AssetOutputs.kept (pure_eq_ok.mp passes).symm
    · obtain rfl := pure_eq_ok.mp passes
      rfl
  unfold checkReissueOutput at passes
  obtain ⟨⟨reissue, address⟩, read, _⟩ := bind_eq_ok.mp passes
  rw [require?_eq_ok] at read
  unfold checkReissueOutput
  rcases quiet out member reissue address read with absent | own
  · refine ⟨{ acc' with vPairReissueAssets := acc'.vPairReissueAssets ++ [(reissue.strName, tx.hash)] },
      ?_, keeps.trans same⟩
    simp [read, absent, require?, bind, Except.bind, pure, Except.pure]
  · refine ⟨acc', ?_, keeps.trans same⟩
    simp [read, own, require?, require, bind, Except.bind, pure, Except.pure]

theorem checkTransferOutput_other
    (passes : checkTransferOutput env global cache tx mapAddresses nBlocktime currentTime acc out =
      .ok next) (same : acc.kept = acc'.kept) :
    ∃ next', checkTransferOutput env global cache tx mapAddresses nBlocktime currentTime acc' out =
      .ok next' ∧ next.kept = next'.kept := by
  obtain ⟨total, pairs, messages, index⟩ := acc
  obtain ⟨total', pairs', messages', index'⟩ := acc'
  obtain ⟨rfl, rfl, rfl⟩ := kept_eq_iff.mp same
  unfold checkTransferOutput at passes ⊢
  obtain ⟨⟨transfer, address⟩, read, passes⟩ := bind_eq_ok.mp passes
  obtain ⟨_, allowed, _, units, passes⟩ := ok_bind₂ passes
  obtain rfl := pure_eq_ok.mp passes
  refine ⟨_, bind_eq_ok.mpr ⟨_, read, bind_eq_ok.mpr ⟨_, allowed, bind_eq_ok.mpr ⟨_, units, rfl⟩⟩⟩, ?_⟩
  rfl

theorem checkAssetOutput_other (quiet : UndisturbedTx env other tx) (member : out ∈ tx.vout)
    (passes : checkAssetOutput env global cache mempool tx mapAddresses nBlocktime currentTime acc
      out = .ok next) (same : acc.kept = acc'.kept) :
    ∃ next', checkAssetOutput env global cache other tx mapAddresses nBlocktime currentTime acc' out =
      .ok next' ∧ next.kept = next'.kept := by
  unfold checkAssetOutput at passes ⊢
  obtain ⟨_, deployed, _, nulls, checked, kind, passes⟩ := ok_bind₃ passes
  obtain rfl := pure_eq_ok.mp passes
  have follows : ∃ checked', checkAssetOutputKind env global cache other tx mapAddresses nBlocktime
      currentTime ((isAssetScript out.scriptPubKey).map AssetScript.nType) acc' out = .ok checked' ∧
      checked.kept = checked'.kept := by
    unfold checkAssetOutputKind at kind ⊢
    split at kind
    · exact checkTransferOutput_other kind same
    · exact checkReissueOutput_other quiet member kind same
    · obtain rfl := pure_eq_ok.mp kind
      exact ⟨acc', rfl, same⟩
  obtain ⟨checked', kind', sameChecked⟩ := follows
  refine ⟨{ checked' with index := checked'.index + 1 }, bind_eq_ok.mpr ⟨_, deployed,
    bind_eq_ok.mpr ⟨_, nulls, bind_eq_ok.mpr ⟨_, kind', rfl⟩⟩⟩, ?_⟩
  obtain ⟨totals, messages, index⟩ := kept_eq_iff.mp sameChecked
  exact kept_eq_iff.mpr ⟨totals, messages, congrArg (· + 1) index⟩

theorem checkTxAssets_other (quiet : UndisturbedTx env other tx)
    (passes : checkTxAssets env global cache mempool view tx false nBlocktime currentTime =
      .ok outputs) :
    ∃ outputs', checkTxAssets env global cache other view tx false nBlocktime currentTime =
      .ok outputs' ∧ outputs.kept = outputs'.kept := by
  obtain ⟨inputs, available, scanned, checked, kind, compared⟩ := checkTxAssets_ok passes
  obtain ⟨outputs', checked', same⟩ := foldlM_simulates
    (fun acc acc' : AssetOutputs => acc.kept = acc'.kept) checked rfl
    fun acc out next acc' member passed => checkAssetOutput_other quiet member passed
  change checkTxAssetsKind env global cache other tx false = _ at kind
  rw [(kept_eq_iff.mp same).1] at compared
  unfold checkTxAssets
  rw [available, scanned]
  exact ⟨outputs', bind_eq_ok.mpr ⟨_, rfl, bind_eq_ok.mpr ⟨_, rfl, bind_eq_ok.mpr ⟨_, checked',
    bind_eq_ok.mpr ⟨_, kind, bind_eq_ok.mpr ⟨_, compared, rfl⟩⟩⟩⟩⟩, same⟩

end

section

variable {env : Env} {rules : BlockRules} {global : AssetState} {mempool other : MempoolMaps}
  {nHeight : Nat} {block : Block} {currentTime : Int}
  {tx : Transaction} {messages : List Message}

theorem checkDeployedAssets_undisturbed {view : BlockView}
    (passes : checkDeployedAssets env global mempool block currentTime view tx = .ok messages) :
    UndisturbedTx env mempool tx := by
  unfold checkDeployedAssets at passes
  split at passes
  · obtain ⟨outputs, checked, _⟩ := bind_eq_ok.mp passes
    exact checkTxAssets_undisturbed checked
  · obtain ⟨_, noAssets, _⟩ := bind_eq_ok.mp passes
    intro out member reissue address read
    obtain ⟨n, isReissue, _⟩ := reissueAssetFromScript_eq_some read
    rw [isScriptReissueAsset, assetScriptOf_eq_some] at isReissue
    have refused := forM_eq_ok.mp noAssets out member
    simp [isReissue] at refused

theorem checkDeployedAssets_other {view : BlockView} (quiet : UndisturbedTx env other tx)
    (passes : checkDeployedAssets env global mempool block currentTime view tx = .ok messages) :
    checkDeployedAssets env global other block currentTime view tx = .ok messages := by
  unfold checkDeployedAssets at passes ⊢
  split at passes
  · rename_i deployed
    obtain ⟨outputs, checked, passes⟩ := bind_eq_ok.mp passes
    obtain rfl := pure_eq_ok.mp passes
    obtain ⟨outputs', checked', same⟩ := checkTxAssets_other quiet checked
    rw [if_pos deployed]
    exact bind_eq_ok.mpr ⟨outputs', checked', pure_eq_ok.mpr (kept_eq_iff.mp same).2.1.symm⟩
  · rename_i inactive
    rw [if_neg inactive]
    exact passes

variable {acc : Connecting}

theorem checkSpending_undisturbed {fees : Int} (spends : tx.isCoinBase = false)
    (passes : checkSpending env rules global mempool nHeight block currentTime acc tx =
      .ok (fees, messages)) : UndisturbedTx env mempool tx := by
  unfold checkSpending at passes
  rw [if_neg (by simp [spends])] at passes
  obtain ⟨_, _, _, _, _, checked, _⟩ := ok_bind₃ passes
  exact checkDeployedAssets_undisturbed checked

theorem checkSpending_other {found : Int × List Message}
    (quiet : tx.isCoinBase = false → UndisturbedTx env other tx)
    (passes : checkSpending env rules global mempool nHeight block currentTime acc tx = .ok found) :
    checkSpending env rules global other nHeight block currentTime acc tx = .ok found := by
  unfold checkSpending at passes ⊢
  split at passes
  · rename_i coinbase
    rw [if_pos coinbase]
    exact passes
  · rename_i spends
    rw [if_neg spends]
    obtain ⟨txfee, checkedInputs, _, inRange, messages, checked, passes⟩ := ok_bind₃ passes
    have checked' := checkDeployedAssets_other (quiet (Bool.not_eq_true _ ▸ spends)) checked
    exact bind_eq_ok.mpr ⟨txfee, checkedInputs, bind_eq_ok.mpr ⟨_, inRange,
      bind_eq_ok.mpr ⟨messages, checked', passes⟩⟩⟩

theorem connectTx_other {next : Connecting}
    (quiet : tx.isCoinBase = false → UndisturbedTx env other tx)
    (passes : connectTx env rules global mempool nHeight block currentTime acc tx = .ok next) :
    connectTx env rules global other nHeight block currentTime acc tx = .ok next := by
  unfold connectTx at passes ⊢
  obtain ⟨found, checked, passes⟩ := bind_eq_ok.mp passes
  exact bind_eq_ok.mpr ⟨found, checkSpending_other quiet checked, passes⟩

variable {view : BlockView} {connected : Connected}

theorem connectBlock_undisturbed (notGenesis : block.hash ≠ rules.hashGenesisBlock)
    (passes : connectBlock env rules global mempool nHeight block currentTime view = .ok connected) :
    Undisturbed env mempool block := by
  intro tx member spends
  obtain ⟨final, _, looped, _, _⟩ := connectBlock_ok notGenesis passes
  obtain ⟨acc, next, visited⟩ := foldlM_visits looped member
  unfold connectTx at visited
  obtain ⟨⟨fees, messages⟩, checked, _⟩ := bind_eq_ok.mp visited
  exact checkSpending_undisturbed spends checked

theorem connectBlock_other (notGenesis : block.hash ≠ rules.hashGenesisBlock)
    (quiet : Undisturbed env other block)
    (passes : connectBlock env rules global mempool nHeight block currentTime view = .ok connected) :
    connectBlock env rules global other nHeight block currentTime view = .ok connected := by
  obtain ⟨final, checked, looped, coinbase, rfl⟩ := connectBlock_ok notGenesis passes
  have looped' := foldlM_repeats (g := connectTx env rules global other nHeight block currentTime)
    looped fun acc tx next member => connectTx_other (quiet tx member)
  unfold connectBlock
  rw [checked, if_neg notGenesis]
  exact bind_eq_ok.mpr ⟨_, rfl, bind_eq_ok.mpr ⟨final, looped',
    bind_eq_ok.mpr ⟨_, coinbase, rfl⟩⟩⟩

end

/-- A block that one node connects is connected by another, with the same result,
exactly when the other's memory pool remembers no other reissue of its names. -/
theorem connectBlock_mempool_iff (env : Env) (rules : BlockRules) (global : AssetState)
    (mempool other : MempoolMaps) (nHeight : Nat) (block : Block) (currentTime : Int)
    (view : BlockView) (connected : Connected)
    (accepted : connectBlock env rules global mempool nHeight block currentTime view = .ok connected) :
    connectBlock env rules global other nHeight block currentTime view = .ok connected ↔
      (block.hash ≠ rules.hashGenesisBlock → Undisturbed env other block) := by
  constructor
  · intro sameVerdict notGenesis
    exact connectBlock_undisturbed notGenesis sameVerdict
  · intro quiet
    by_cases genesis : block.hash = rules.hashGenesisBlock
    · unfold connectBlock at accepted ⊢
      rw [if_pos genesis] at accepted ⊢
      exact accepted
    · exact connectBlock_other genesis (quiet genesis) accepted

namespace MempoolIndependence

open MainNet

def token : Bytes := ascii "TOKEN"

/-- `TOKEN` is on record and can be reissued. -/
def state : AssetState := recording [⟨token, 1000 * coin, 0, 1, 0, []⟩]

def view : BlockView :=
  ⟨coins [(⟨1, 0⟩, pay coin alice), (⟨1, 1⟩, transfer (ascii "TOKEN!") coin)], .empty⟩

def reissuance : Block := block 7
  [transaction 2 [⟨1, 0⟩, ⟨1, 1⟩]
    [pay (coin / 10) burnKey, pay (coin / 2) alice, transfer (ascii "TOKEN!") coin,
      reissue ⟨token, 10 * coin, 0, 1, []⟩]]

/-- A reissue of `TOKEN` by the given transaction is remembered. -/
def remembering (hash : Uint256) : MempoolMaps :=
  ⟨∅, (∅ : KeyedMap Bytes Uint256).insert token hash, ∅⟩

def verdict (mempool : MempoolMaps) : Check Connected :=
  connectBlock env rules state mempool 10 reissuance 0 view

theorem verdict_empty : (verdict .empty).passed = true := by decide +kernel

theorem connectBlock_mempool_iff_own : ∃ connected, verdict .empty = .ok connected ∧
    (verdict (remembering 2) = .ok connected ↔ (reissuance.hash ≠ rules.hashGenesisBlock →
      Undisturbed env (remembering 2) reissuance)) := by
  obtain ⟨connected, accepted⟩ := passed_iff.mp verdict_empty
  exact ⟨connected, accepted, connectBlock_mempool_iff env rules state .empty (remembering 2) 10
    reissuance 0 view connected accepted⟩

/-- A node that remembers another reissue refuses the block the first accepts. -/
theorem connectBlock_depends_on_mempool :
    (verdict .empty).passed = true ∧ (verdict (remembering 3)).passed = false :=
  ⟨verdict_empty, by decide +kernel⟩

end MempoolIndependence

end Phicoin
