import Phicoin.MempoolMirror

/-! # Issuances that conflict in the pool

The pool is to have no two transactions that issue one name.  An issuance is
checked against `mapAssetToHash`, where every transaction of the pool has to be
found under the names it issues.  Two things break this: unique assets are not
checked against the pool, and a transaction that is refused after it was stored
stays in the pool without being recorded. -/

namespace Phicoin

open Check Option

namespace Mempool

def call (pool : Mempool) : MempoolStep → Option Mempool
  | .accept policy context global nSpendHeight args tx =>
    some (pool.acceptToMemoryPoolWorker policy context.env global context.coins nSpendHeight args
      tx).1
  | .removeUnchecked hash => some (pool.removeUnchecked hash)
  | .removeForBlock env global coins connected vtx =>
    some (pool.removeForBlock env global coins connected vtx)
  | .clear => some pool.clear

def hasEntryOf (env : Env) (pool : Mempool) (tx : Transaction) : Bool :=
  tx.vout.any fun out => (registryKey env out).any pool.has

/-- A transaction that passes the checks issues no unique asset that the pool has,
and is not refused after it was stored, unless it issues nothing. -/
def keepsNamesApart (pool : Mempool) : MempoolStep → Bool
  | .accept policy context global nSpendHeight args tx =>
    !(pool.checkAcceptance policy context.env global context.coins nSpendHeight args tx).passed ||
      (pool.assets.uniquesFree context.env tx &&
        ((tx.issuedNames context.env).isEmpty || !pool.hasEntryOf context.env tx))
  | _ => true

variable {pool : Mempool} {tx : Transaction}

theorem hasEntryOf_iff {env : Env} : pool.hasEntryOf env tx = true ↔ pool.HasEntryOf env tx := by
  unfold hasEntryOf HasEntryOf
  rw [List.any_eq_true]
  refine exists_congr fun out => and_congr_right fun _ => ?_
  cases registryKey env out <;> simp

theorem has_removeUnchecked {hash : Uint256} {key : RegistryKey}
    (has : (pool.removeUnchecked hash).has key = true) : pool.has key = true := by
  unfold removeUnchecked at has
  cases found : pool.mapTx.lookup hash with
  | none =>
    rw [found] at has
    exact has
  | some entry =>
    rw [found] at has
    cases key <;> exact SetIndex.isSome_of_foldl_dropPruning _ _ has

theorem Removal.has {final : Mempool} (removal : Removal pool final) {key : RegistryKey}
    (has : final.has key = true) : pool.has key = true := by
  induction removal with
  | refl pool => exact has
  | unchecked hash _ ih => exact has_removeUnchecked (ih has)
  | prioritisation hash _ ih =>
    have kept := ih has
    cases key <;> exact kept

theorem hasEntryOf_storeLimited {policy : MempoolPolicy} {args : AcceptArgs}
    {acceptance : Acceptance} {env : Env}
    (has : (pool.storeLimited policy args acceptance).HasEntryOf env tx) :
    pool.HasEntryOf env tx := by
  obtain ⟨replacing, trimming⟩ := removal_storeLimited policy args pool acceptance
  obtain ⟨out, member, key, isKey, found⟩ := has
  have stored := trimming.has found
  refine ⟨out, member, key, isKey, replacing.has ?_⟩
  cases key <;> exact stored

theorem mapAssetToHash_registerReissues (vReissueAssets : List (Bytes × Uint256)) (pool : Mempool) :
    (registerReissues vReissueAssets pool).assets.mapAssetToHash = pool.assets.mapAssetToHash := by
  unfold registerReissues
  generalize pool.assets = assets
  induction vReissueAssets generalizing assets with
  | nil => rfl
  | cons item rest ih => exact ih _

theorem registerOutputs_names {env : Env} {hash : Uint256} {outs : List TxOut} {pool : Mempool}
    (none : outs.filterMap (issuedName env) = []) :
    (registerOutputs env hash outs pool).1.assets.mapAssetToHash = pool.assets.mapAssetToHash ∧
      (registerOutputs env hash outs pool).1.mapHashToAsset = pool.mapHashToAsset := by
  refine Prod.mk.inj (registerOutputs_keeps
    (fun pool => (pool.assets.mapAssetToHash, pool.mapHashToAsset)) (fun out member pool => ?_)
    fun key pool => ?_)
  · rw [recordAsset_eq, List.filterMap_eq_nil_iff.mp none out member]
    rfl
  · cases key <;> rfl

theorem register_names {context : AcceptContext} {acceptance : Acceptance}
    (complete : (pool.register context.env context.coins tx acceptance).2 = .ok () ∨
      outputKeys issuedName context tx = []) :
    (pool.register context.env context.coins tx acceptance).1.mapTx = pool.mapTx ∧
      (pool.register context.env context.coins tx acceptance).1.assets.mapAssetToHash =
        (outputKeys issuedName context tx).foldl (fun map name => map.insert name tx.hash)
          pool.assets.mapAssetToHash ∧
      (pool.register context.env context.coins tx acceptance).1.mapHashToAsset =
        (outputKeys issuedName context tx).foldl (fun map name => map.insert tx.hash name)
          pool.mapHashToAsset := by
  generalize result : pool.register context.env context.coins tx acceptance = outcome at complete
  obtain ⟨final, verdict⟩ := outcome
  cases verdict with
  | ok u =>
    obtain ⟨registered, recorded, rfl⟩ := register_ok result
    rw [registerInputs_eq, ← filterMap_registeredOutputs issuedName]
    exact ⟨recorded.mapTx, recorded.mapAssetToHash.trans
      (by rw [mapAssetToHash_registerReissues]), recorded.mapHashToAsset⟩
  | error reason =>
    have none : outputKeys issuedName context tx = [] := complete.resolve_left (by simp)
    unfold register at result
    by_cases deployed : context.env.areAssetsDeployed = true
    · simp only [if_pos deployed] at result
      rw [outputKeys, if_pos deployed] at none
      have names := @registerOutputs_names context.env tx.hash tx.vout
        (registerReissues acceptance.vReissueAssets pool) none
      have sameTx := @mapTx_registerOutputs (registerReissues acceptance.vReissueAssets pool)
        context.env tx.hash tx.vout
      rw [mapAssetToHash_registerReissues] at names
      rw [outputKeys, if_pos deployed, none]
      generalize registerOutputs context.env tx.hash tx.vout
        (registerReissues acceptance.vReissueAssets pool) = loop at result names sameTx
      obtain ⟨registered, stopped⟩ := loop
      cases stopped with
      | ok u => cases result
      | error _ =>
        cases result
        exact ⟨sameTx, names⟩
    · simp only [if_neg deployed] at result
      cases result

end Mempool

open Mempool

theorem issuedNames_env (tx : Transaction) (env env' : Env) :
    tx.issuedNames env = tx.issuedNames env' := by
  unfold Transaction.issuedNames
  refine List.filterMap_congr fun out _ => ?_
  unfold assetFromScript
  cases isScriptNewAsset out.scriptPubKey with
  | none => rfl
  | some n =>
    simp only [bind_eq_bind, bind_some]
    cases readAt readNewAsset n out.scriptPubKey <;> rfl

/-- A transaction of the pool is found under every name it issues, apart from one
that is stored and not yet recorded. -/
structure IssuesRecorded (unrecorded : Uint256 → Prop) (pool : Mempool) : Prop where
  named : ∀ hash entry, pool.mapTx.lookup hash = some entry → ¬ unrecorded hash → ∀ env,
    ∀ name ∈ entry.tx.issuedNames env, pool.assets.mapAssetToHash.lookup name = some hash
  kept : ∀ hash name, pool.mapHashToAsset.lookup hash = some name → ¬ unrecorded hash ∧
    ∃ entry, pool.mapTx.lookup hash = some entry ∧
      ((33 : UInt8) ∈ name ∨ ∃ env, name ∈ entry.tx.issuedNames env)
  unmarked : ∀ hash entry, pool.mapTx.lookup hash = some entry → ∀ env,
    ∀ name ∈ entry.tx.issuedNames env, (33 : UInt8) ∉ name

namespace IssuesRecorded

variable {unrecorded : Uint256 → Prop} {pool : Mempool}

theorem of_empty {pool : Mempool} (noTx : pool.mapTx = ∅) (noNames : pool.mapHashToAsset = ∅) :
    IssuesRecorded unrecorded pool := by
  constructor
  · intro hash entry found
    rw [noTx] at found
    cases found
  · intro hash name found
    rw [noNames] at found
    cases found
  · intro hash entry found
    rw [noTx] at found
    cases found

theorem removeUnchecked (recorded : IssuesRecorded unrecorded pool) (hash : Uint256) :
    IssuesRecorded unrecorded (pool.removeUnchecked hash) := by
  cases found : pool.mapTx.lookup hash with
  | none =>
    rw [Mempool.removeUnchecked, found]
    exact recorded
  | some entry =>
    have lookups := lookup_removeUnchecked pool hash
    have before : ∀ other entry, (pool.removeUnchecked hash).mapTx.lookup other = some entry →
        other ≠ hash ∧ pool.mapTx.lookup other = some entry := by
      intro other entry there
      rw [lookups] at there
      split_ifs at there with same
      exact ⟨same, there⟩
    have names : (pool.removeUnchecked hash).assets =
        releaseIssue pool.mapHashToAsset (releaseReissue pool.assets hash) hash := by
      rw [Mempool.removeUnchecked, found]
    have keeps : (pool.removeUnchecked hash).mapHashToAsset = pool.mapHashToAsset.erase hash := by
      rw [Mempool.removeUnchecked, found]
    constructor
    · intro other otherEntry there counted env name issued
      obtain ⟨differs, wasThere⟩ := before other otherEntry there
      have known := recorded.named other otherEntry wasThere counted env name issued
      rw [names, releaseIssue]
      cases last : pool.mapHashToAsset.lookup hash with
      | none => rw [mapAssetToHash_releaseReissue, known]
      | some gone =>
        dsimp only
        rw [mapAssetToHash_releaseReissue, KeyedMap.lookup_erase_ite, if_neg, known]
        rintro rfl
        obtain ⟨isRecorded, leaver, inPool, marked | ⟨env', own⟩⟩ := recorded.kept hash name last
        · exact recorded.unmarked other otherEntry wasThere env name issued marked
        · rw [recorded.named hash leaver inPool isRecorded env' name own] at known
          exact differs (Option.some.inj known).symm
    · intro other name last
      rw [keeps, KeyedMap.lookup_erase_ite] at last
      split_ifs at last with same
      obtain ⟨isRecorded, otherEntry, wasThere, source⟩ := recorded.kept other name last
      exact ⟨isRecorded, otherEntry, by rw [lookups, if_neg same, wasThere], source⟩
    · intro other otherEntry there
      exact recorded.unmarked other otherEntry (before other otherEntry there).2

theorem removal (recorded : IssuesRecorded unrecorded pool) {final : Mempool}
    (removal : Removal pool final) : IssuesRecorded unrecorded final :=
  removal.invariant (IssuesRecorded unrecorded) (fun _ _ => True) recorded (fun _ _ _ _ => trivial)
    (fun _ hash _ kept _ _ => kept.removeUnchecked hash)
    fun _ _ kept => ⟨kept.named, kept.kept, kept.unmarked⟩

theorem storeLimited (recorded : IssuesRecorded (fun _ => False) pool) {policy : MempoolPolicy}
    {args : AcceptArgs} {acceptance : Acceptance}
    (fresh : pool.mapTx.lookup acceptance.entry.tx.hash = none)
    (unmarked : ∀ env, ∀ name ∈ acceptance.entry.tx.issuedNames env, (33 : UInt8) ∉ name) :
    IssuesRecorded (· = acceptance.entry.tx.hash) (pool.storeLimited policy args acceptance) := by
  have initial : IssuesRecorded (· = acceptance.entry.tx.hash) pool := by
    refine ⟨fun hash entry found _ => recorded.named hash entry found id, ?_, recorded.unmarked⟩
    intro hash name last
    obtain ⟨_, entry, found, source⟩ := recorded.kept hash name last
    refine ⟨?_, entry, found, source⟩
    rintro rfl
    rw [fresh] at found
    cases found
  refine storeLimited_invariant (IssuesRecorded (· = acceptance.entry.tx.hash)) (fun _ _ => True)
    fresh initial (fun _ _ _ _ => trivial) (.inr fun _ => trivial)
    (fun _ hash _ kept _ _ => kept.removeUnchecked hash)
    (fun _ _ kept => ⟨kept.named, kept.kept, kept.unmarked⟩) ?_
  intro after notYet kept
  have stored := fun hash => lookup_addUnchecked after acceptance.entry hash notYet
  constructor
  · intro hash entry found counted
    rw [stored, if_neg counted] at found
    exact kept.named hash entry found counted
  · intro hash name last
    obtain ⟨counted, entry, found, source⟩ := kept.kept hash name last
    exact ⟨counted, entry, by rw [stored, if_neg counted, found], source⟩
  · intro hash entry found
    rw [stored] at found
    split_ifs at found with same
    · rw [← Option.some.inj found]
      exact unmarked
    · exact kept.unmarked hash entry found

theorem register {context : AcceptContext} {tx : Transaction} {mempool : MempoolMaps}
    (recorded : IssuesRecorded (· = tx.hash) pool) {own : MempoolEntry}
    (stored : pool.mapTx.lookup tx.hash = some own) (isTx : own.tx = tx)
    (names : AcceptedNames context mempool tx)
    (others : ∀ hash entry, pool.mapTx.lookup hash = some entry → hash ≠ tx.hash → ∀ env,
      ∀ name ∈ entry.tx.issuedNames env, name ∉ tx.issuedNames context.env)
    {acceptance : Acceptance}
    (complete : (pool.register context.env context.coins tx acceptance).2 = .ok () ∨
      outputKeys issuedName context tx = []) :
    IssuesRecorded (fun _ => False) (pool.register context.env context.coins tx acceptance).1 := by
  obtain ⟨sameTx, assetToHash, hashToAsset⟩ := register_names complete
  constructor
  · intro hash entry found _ env name issued
    rw [sameTx] at found
    rw [assetToHash, KeyedMap.lookup_foldl_insert_keys]
    by_cases same : hash = tx.hash
    · subst same
      obtain rfl := Option.some.inj (stored.symm.trans found)
      rw [isTx, issuedNames_env tx env context.env] at issued
      rw [if_pos (names.recorded name issued)]
    · rw [if_neg, recorded.named hash entry found same env name issued]
      intro member
      rcases names.source name member with again | ⟨asset, _, rfl⟩
      · exact others hash entry found same env name issued again
      · exact recorded.unmarked hash entry found env _ issued (List.mem_append_right _ (by decide))
  · intro hash name last
    rw [hashToAsset, KeyedMap.lookup_foldl_insert_values] at last
    rw [sameTx]
    split_ifs at last with same
    · have nothing : pool.mapHashToAsset.lookup tx.hash = none :=
        eq_none_iff_forall_not_mem.mpr fun old there =>
          (recorded.kept tx.hash old there).1 rfl
      rw [nothing, or_none] at last
      refine ⟨id, own, by rw [same, stored], ?_⟩
      rcases names.source name (List.mem_of_getLast? last) with issued | ⟨asset, _, rfl⟩
      · exact .inr ⟨context.env, by rw [isTx]; exact issued⟩
      · exact .inl (List.mem_append_right _ (by decide))
    · obtain ⟨_, entry, found, source⟩ := recorded.kept hash name last
      exact ⟨id, entry, found, source⟩
  · intro hash entry found
    rw [sameTx] at found
    exact recorded.unmarked hash entry found

theorem accept (recorded : IssuesRecorded (fun _ => False) pool) {policy : MempoolPolicy}
    {context : AcceptContext} {global : AssetState} {nSpendHeight : Nat} {args : AcceptArgs}
    {tx : Transaction}
    (may : pool.keepsNamesApart (.accept policy context global nSpendHeight args tx) = true) :
    IssuesRecorded (fun _ => False) (pool.acceptToMemoryPoolWorker policy context.env global
      context.coins nSpendHeight args tx).1 := by
  unfold acceptToMemoryPoolWorker
  rw [keepsNamesApart] at may
  cases checks : pool.checkAcceptance policy context.env global context.coins nSpendHeight args tx with
  | error reason => exact recorded
  | ok acceptance =>
    have checked := checkAcceptance_ok checks
    have names := acceptedNames checked
    have fresh : pool.mapTx.lookup tx.hash = none := by
      have absent := checked.fresh
      simpa [contains] using absent
    rw [checks] at may
    simp only [passed, Bool.not_true, Bool.false_or, Bool.and_eq_true] at may
    obtain ⟨uniques, noRefusal⟩ := may
    have limited := @IssuesRecorded.storeLimited pool recorded policy args acceptance
      (by rw [checked.stored, fresh]) (by
        rw [checked.stored]
        intro env name issued
        exact names.unmarked name (issuedNames_env tx env context.env ▸ issued))
    have entries := @lookup_storeLimited policy args pool acceptance
      (by rw [checked.stored, fresh])
    rw [checked.stored] at limited entries
    dsimp only
    split_ifs with test trimmed
    · exact recorded
    · -- the transaction was trimmed at once
      simp only [Bool.and_eq_true, Bool.not_eq_true'] at trimmed
      have absent : ∀ hash entry,
          (pool.storeLimited policy args acceptance).mapTx.lookup hash = some entry →
          hash ≠ tx.hash := by
        rintro hash entry found rfl
        rw [contains, found] at trimmed
        cases trimmed.2
      refine ⟨fun hash entry found _ => limited.named hash entry found (absent hash entry found),
        fun hash name last => ?_, limited.unmarked⟩
      exact ⟨id, (limited.kept hash name last).2⟩
    · have inPool := contains_storeLimited checked trimmed
      obtain ⟨own, stored⟩ := isSome_iff_exists.mp inPool
      have isTx : own.tx = tx := by
        rcases entries stored with ⟨_, same⟩ | ⟨differs, _⟩
        · exact same
        · exact absurd rfl differs
      refine limited.register stored isTx names ?_ ?_
      · intro hash entry found differs env name issued again
        rcases entries found with ⟨same, _⟩ | ⟨_, _, before⟩
        · exact differs same
        · have free := names.free uniques name again
          rw [recorded.named hash entry before id env name issued] at free
          cases free
      · rcases Bool.or_eq_true _ _ |>.mp noRefusal with issuesNone | noEntry
        · refine .inr (List.eq_nil_iff_forall_not_mem.mpr fun name member => ?_)
          rw [List.isEmpty_iff] at issuesNone
          rcases names.source name member with issued | ⟨_, issued, _⟩ <;>
            simp [issuesNone] at issued
        · refine .inl ((register_verdict checked.transaction).1.mpr fun _ hasEntry => ?_)
          have before := hasEntryOf_iff.mpr (hasEntryOf_storeLimited hasEntry)
          simp [before] at noEntry

end IssuesRecorded

def IssuesApart (pool : Mempool) : Prop :=
  ∀ (env : Env) (hash other : Uint256) (entry otherEntry : MempoolEntry) (name : Bytes),
    pool.mapTx.lookup hash = some entry → pool.mapTx.lookup other = some otherEntry →
    name ∈ entry.tx.issuedNames env → name ∈ otherEntry.tx.issuedNames env → hash = other

/-- Over every run in which no transaction issues a unique asset that the pool has,
and no issuing transaction is refused after it was stored. -/
theorem no_conflicting_issuances {pool : Mempool}
    (run : Runs.Run Mempool.call Mempool.keepsNamesApart .empty pool) : IssuesApart pool := by
  have recorded : IssuesRecorded (fun _ => False) pool := by
    refine run.invariant (IssuesRecorded fun _ => False) (.of_empty rfl rfl) ?_
    intro before op after recorded may steps
    cases op with
    | accept policy context global nSpendHeight args tx =>
      obtain rfl := Option.some.inj steps
      exact recorded.accept may
    | removeUnchecked hash =>
      obtain rfl := Option.some.inj steps
      exact recorded.removeUnchecked hash
    | removeForBlock env global coins connected vtx =>
      obtain rfl := Option.some.inj steps
      exact recorded.removal (removal_removeForBlock _ _ _ _ _ _)
    | clear =>
      obtain rfl := Option.some.inj steps
      exact .of_empty rfl rfl
  intro env hash other entry otherEntry name first second issued again
  have atFirst := recorded.named hash entry first id env name issued
  rw [recorded.named other otherEntry second id env name again] at atFirst
  exact (Option.some.inj atFirst).symm

open MainNet

namespace MempoolConflicts

open MempoolMirror

/-- Coins for the fees of four transactions, the owner token and two coins of the
qualifier. -/
def view : CoinsView :=
  coins [(⟨7, 0⟩, pay coin alice),
    (⟨7, 1⟩, transfer (ascii "ROOT!") coin), (⟨8, 0⟩, pay coin alice),
    (⟨8, 1⟩, transfer (ascii "#TAG") coin), (⟨9, 0⟩, pay coin alice),
    (⟨9, 1⟩, transfer (ascii "#TAG") coin), (⟨10, 0⟩, pay coin alice)]

def accept (tx : Transaction) : MempoolStep :=
  .accept policy ⟨env, view⟩ state 10 args tx

/-- Spends the owner token that the issuance of the given transaction gives back,
and issues a unique asset. -/
def next (hash previous : Uint256) (name : String) : Transaction :=
  transaction hash [⟨9, 0⟩, ⟨previous, 1⟩]
    [pay (coin / 10) burnKey, transfer (ascii "ROOT!") coin,
      issue (unique name)]

def asset : NewAsset := ⟨ascii "NEW", coin, 0, 0, 0, []⟩

def tagAndIssue : Transaction :=
  transaction 31 [⟨9, 0⟩, ⟨9, 1⟩]
    [pay (coin / 10) burnKey, tag (ascii "#TAG") 1 bob,
      transfer (ascii "#TAG") coin, owner asset, issue asset]

def issueOnly (hash : Uint256) (source : OutPoint) : Transaction :=
  transaction hash [source]
    [pay (coin / 10) burnKey, owner asset, issue asset]

def bothIssue (pool : Mempool) (hash other : Uint256) (name : Bytes) : Bool :=
  (pool.mapTx.lookup hash).any (fun entry => name ∈ entry.tx.issuedNames env) &&
    (pool.mapTx.lookup other).any (fun entry => name ∈ entry.tx.issuedNames env)

theorem not_apart_of_bothIssue {pool : Mempool} {hash other : Uint256} {name : Bytes}
    (both : bothIssue pool hash other name = true) (differ : hash ≠ other) : ¬ IssuesApart pool := by
  rw [bothIssue, Bool.and_eq_true, any_eq_true, any_eq_true] at both
  obtain ⟨⟨entry, first, issued⟩, otherEntry, second, again⟩ := both
  intro apart
  exact differ (apart env hash other entry otherEntry name first second
    (of_decide_eq_true issued) (of_decide_eq_true again))

end MempoolConflicts

open MempoolConflicts

/-- Two unique assets of one root, the second with the owner token of the first,
beside an issuance that fails because its name is taken. -/
theorem no_conflicting_issuances_unique :
    ∃ pool, Runs.Run Mempool.call Mempool.keepsNamesApart .empty pool ∧
      (pool.contains 20, pool.contains 21, pool.contains 32, pool.contains 33) =
        (true, true, true, false) ∧ IssuesApart pool := by
  have observed : (Runs.execute call keepsNamesApart .empty
      [accept (MempoolMirror.uniques 20 ["ROOT#A", "ROOT#B"]), accept (next 21 20 "ROOT#C"),
        accept (issueOnly 32 ⟨10, 0⟩), accept (issueOnly 33 ⟨8, 0⟩)]).bind
      (fun pool => some (pool.contains 20, pool.contains 21, pool.contains 32,
        pool.contains 33)) = some (true, true, true, false) := by
    decide +kernel
  obtain ⟨pool, run, seen⟩ := Runs.exists_run_of_execute observed
  exact ⟨pool, run, Option.some.inj seen, no_conflicting_issuances run⟩

/-- A unique asset is issued again with the owner token of its first issuance, and
an asset again after a first issuance was refused too late. -/
theorem conflicting_issuances : (∃ pool, Runs.Run Mempool.call (fun _ _ => true) .empty pool ∧
      bothIssue pool 20 21 (ascii "ROOT#A") = true ∧ ¬ IssuesApart pool) ∧
    ∃ pool, Runs.Run Mempool.call (fun _ _ => true) .empty pool ∧
      bothIssue pool 31 32 (ascii "NEW") = true ∧ ¬ IssuesApart pool := by
  have uniques : (Runs.execute call (fun _ _ => true) .empty
      [accept (MempoolMirror.uniques 20 ["ROOT#A"]), accept (next 21 20 "ROOT#A")]).bind
      (fun pool => some (bothIssue pool 20 21 (ascii "ROOT#A"))) = some true := by
    decide +kernel
  have refused : (Runs.execute call (fun _ _ => true) .empty
      [accept MempoolMirror.tagging, accept tagAndIssue, accept (issueOnly 32 ⟨10, 0⟩)]).bind
      (fun pool => some (bothIssue pool 31 32 (ascii "NEW"))) = some true := by
    decide +kernel
  obtain ⟨pool, run, both⟩ := Runs.exists_run_of_execute uniques
  obtain ⟨pool', run', both'⟩ := Runs.exists_run_of_execute refused
  exact ⟨⟨pool, run, Option.some.inj both, not_apart_of_bothIssue (Option.some.inj both) (by decide)⟩,
    pool', run', Option.some.inj both', not_apart_of_bothIssue (Option.some.inj both') (by decide)⟩

end Phicoin
