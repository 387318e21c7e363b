import Phicoin.MempoolRegistry

/-! # Failed acceptances

A transaction that fails one of the checks leaves the pool as it was.  The loop
that updates the asset maps runs when the transaction is already stored, and
when it refuses an entry the transaction stays. -/

namespace Phicoin

open Check Mempool

structure SameEntriesAndMaps (before after : Mempool) : Prop where
  entries : ∀ hash, after.mapTx.lookup hash = before.mapTx.lookup hash
  assets : after.assets = before.assets
  mapHashToAsset : after.mapHashToAsset = before.mapHashToAsset
  markedFrozen : after.mapAddressesMarkedFrozen = before.mapAddressesMarkedFrozen
  markedGlobalFrozen : after.mapAssetMarkedGlobalFrozen = before.mapAssetMarkedGlobalFrozen
  qualifiersChanged : after.mapAddressesQualifiersChanged = before.mapAddressesQualifiersChanged
  verifierChanged : after.mapAssetVerifierChanged = before.mapAssetVerifierChanged
  freezing : after.mapGlobalFreezingAssetTransactions = before.mapGlobalFreezingAssetTransactions
  unfreezing : after.mapGlobalUnFreezingAssetTransactions =
    before.mapGlobalUnFreezingAssetTransactions
  addedTag : after.mapAddressAddedTag = before.mapAddressAddedTag
  removeTag : after.mapAddressRemoveTag = before.mapAddressRemoveTag

theorem SameEntriesAndMaps.refl (pool : Mempool) : SameEntriesAndMaps pool pool :=
  ⟨fun _ => rfl, rfl, rfl, rfl, rfl, rfl, rfl, rfl, rfl, rfl, rfl⟩

/-- The pool already has a tag change or a global freeze of the transaction. -/
def Mempool.HasEntryOf (env : Env) (pool : Mempool) (tx : Transaction) : Prop :=
  ∃ out ∈ tx.vout, ∃ key, registryKey env out = some key ∧ pool.has key = true

section

variable {policy : MempoolPolicy} {env : Env} {global : AssetState} {coins : CoinsView}
  {nSpendHeight : Nat} {args : AcceptArgs} {pool : Mempool} {tx : Transaction}
  {acceptance : Acceptance}

structure AcceptanceChecked (env : Env) (global : AssetState) (coins : CoinsView) (pool : Mempool)
    (tx : Transaction) (acceptance : Acceptance) : Prop where
  transaction : checkTransaction env tx true true false = .ok ()
  fresh : pool.contains tx.hash = false
  stored : acceptance.entry.tx = tx
  reissues : checkAcceptedAssets pool env global (pool.inputCoins coins tx) tx =
    .ok acceptance.vReissueAssets

theorem checkAcceptance_ok
    (passes : pool.checkAcceptance policy env global coins nSpendHeight args tx = .ok acceptance) :
    AcceptanceChecked env global coins pool tx acceptance := by
  unfold checkAcceptance at passes
  obtain ⟨⟨⟩, transaction, _, _, _, _, passes⟩ := ok_bind₃ passes
  obtain ⟨_, _, _, _, _, fresh, passes⟩ := ok_bind₃ passes
  obtain ⟨_, _, view, inputs, _, _, passes⟩ := ok_bind₃ passes
  obtain ⟨_, _, _, reissues, _, _, passes⟩ := ok_bind₃ passes
  obtain ⟨_, _, _, _, _, _, passes⟩ := ok_bind₃ passes
  obtain ⟨_, _, _, _, _, _, passes⟩ := ok_bind₃ passes
  obtain ⟨_, _, _, _, _, _, passes⟩ := ok_bind₃ passes
  obtain rfl := pure_eq_ok.mp passes
  unfold requireInputs at inputs
  obtain ⟨_, _, inputs⟩ := bind_eq_ok.mp inputs
  obtain rfl := pure_eq_ok.mp inputs
  exact ⟨transaction, by simpa using fresh, rfl, reissues⟩

theorem contains_addUnchecked (entry : MempoolEntry) :
    (pool.addUnchecked entry).contains entry.tx.hash = true := by
  simp [addUnchecked, contains]

theorem contains_storeLimited (checked : AcceptanceChecked env global coins pool tx acceptance)
    (kept : (!args.bypassLimits && !(pool.storeLimited policy args acceptance).contains tx.hash) ≠
      true) : (pool.storeLimited policy args acceptance).contains tx.hash = true := by
  cases bypass : args.bypassLimits with
  | false => simpa [bypass] using kept
  | true =>
    rw [storeLimited, if_pos bypass, store, ← checked.stored]
    exact contains_addUnchecked _

theorem register_verdict (checked : checkTransaction env tx true true false = .ok ()) :
    ((pool.register env coins tx acceptance).2 = .ok () ↔
      (env.areAssetsDeployed = true → ¬ pool.HasEntryOf env tx)) ∧
    ∀ reason, (pool.register env coins tx acceptance).2 = .error reason →
      (pool.register env coins tx acceptance).1.mapTx = pool.mapTx ∧ reason ≠ "mempool full" := by
  have distinct := distinctKeys_of_checkTransaction checked
  set reissued := registerReissues acceptance.vReissueAssets pool with reissuedEq
  have sameKeys : ∀ key, reissued.has key = pool.has key := by
    intro key
    cases key <;> rfl
  have verdict := @registerOutputs_ok_iff reissued env tx.hash tx.vout distinct
  have sameTx : (registerOutputs env tx.hash tx.vout reissued).1.mapTx = pool.mapTx :=
    mapTx_registerOutputs tx.vout
  have refusal := @registerOutputs_error reissued env tx.hash tx.vout
  unfold register
  rw [← reissuedEq]
  cases deployed : env.areAssetsDeployed with
  | false => simp
  | true =>
    simp only [if_true]
    have noEntry : (∀ out ∈ tx.vout, ∀ key, registryKey env out = some key →
        reissued.has key = false) ↔ ¬ pool.HasEntryOf env tx := by
      simp [HasEntryOf, sameKeys]
    rw [noEntry] at verdict
    generalize registerOutputs env tx.hash tx.vout reissued = result at verdict sameTx refusal
    obtain ⟨registered, outcome⟩ := result
    cases outcome with
    | ok u => exact ⟨by simpa using verdict, by simp⟩
    | error reason =>
      refine ⟨by simpa using verdict, fun other same => ⟨sameTx, ?_⟩⟩
      obtain ⟨key, rfl⟩ := refusal same
      cases key <;> simp [RegistryKey.reason]

end

/-- A failed acceptance leaves the pool alone unless the transaction passed all
checks, was not trimmed, and has a tag change or a global freeze that the pool
has when the replaced and the trimmed transactions are gone. -/
theorem failed_acceptance_iff (policy : MempoolPolicy) (env : Env) (global : AssetState)
    (coins : CoinsView) (nSpendHeight : Nat) (args : AcceptArgs) (pool : Mempool)
    (tx : Transaction) :
    (∀ reason, (pool.acceptToMemoryPoolWorker policy env global coins nSpendHeight args tx).2 =
        .error reason → reason ≠ "mempool full" → SameEntriesAndMaps pool
        (pool.acceptToMemoryPoolWorker policy env global coins nSpendHeight args tx).1) ↔
    ∀ acceptance, pool.checkAcceptance policy env global coins nSpendHeight args tx =
        .ok acceptance → args.testAccept = false → env.areAssetsDeployed = true →
      (pool.storeLimited policy args acceptance).contains tx.hash = true →
        ¬ (pool.storeLimited policy args acceptance).HasEntryOf env tx := by
  unfold acceptToMemoryPoolWorker
  cases passes : pool.checkAcceptance policy env global coins nSpendHeight args tx with
  | error reason => simp [SameEntriesAndMaps.refl]
  | ok acceptance =>
    have checked := checkAcceptance_ok passes
    simp only [Except.ok.injEq, forall_eq']
    by_cases test : args.testAccept = true
    · simp [test]
    by_cases trimmed :
        (!args.bypassLimits && !(pool.storeLimited policy args acceptance).contains tx.hash) = true
    · rw [if_neg test, if_pos trimmed]
      simp only [Bool.and_eq_true, Bool.not_eq_true'] at trimmed
      simp [trimmed.2, test]
    rw [if_neg test, if_neg trimmed]
    have stored := contains_storeLimited checked trimmed
    obtain ⟨verdict, refused⟩ := @register_verdict env coins
      (pool.storeLimited policy args acceptance) tx acceptance checked.transaction
    generalize register env coins (pool.storeLimited policy args acceptance) tx acceptance =
      result at verdict refused ⊢
    constructor
    · intro unchanged _ deployed _ hasEntry
      cases outcome : result.2 with
      | ok u => exact verdict.mp outcome deployed hasEntry
      | error reason =>
        -- the transaction was not in the pool, and now is
        obtain ⟨sameTx, other⟩ := refused reason outcome
        have same := (unchanged reason outcome other).entries tx.hash
        have absent := checked.fresh
        rw [contains, ← same, sameTx] at absent
        exact absurd stored (by simp [contains, absent])
    · intro free reason outcome _
      have passed := verdict.mpr fun deployed => free (by simpa using test) deployed stored
      rw [passed] at outcome
      cases outcome

open MainNet

namespace FailedAcceptance

def state : AssetState := recording [⟨ascii "#TAG", 2 * coin, 0, 0, 0, []⟩]

def view : CoinsView :=
  coins [(⟨7, 0⟩, pay coin alice),
    (⟨7, 1⟩, transfer (ascii "#TAG") coin), (⟨8, 0⟩, pay coin alice),
    (⟨8, 1⟩, transfer (ascii "#TAG") coin)]

def tagging (hash source : Uint256) : Transaction :=
  transaction hash [⟨source, 0⟩, ⟨source, 1⟩]
    [pay (coin / 10) burnKey, tag (ascii "#TAG") 1 bob,
      transfer (ascii "#TAG") coin]

def first : Mempool × Check Unit := accept state view .empty (tagging 20 7)

def second : Mempool × Check Unit := accept state view first.1 (tagging 21 8)

end FailedAcceptance

open FailedAcceptance

/-- The second is refused and stays in the pool. -/
theorem refused_transaction_stays :
    first.2 = .ok () ∧ second.2 = .error "bad-txns-adding-tag-already-in-mempool" ∧
      first.1.contains 21 = false ∧ second.1.contains 21 = true := by
  decide +kernel

end Phicoin
