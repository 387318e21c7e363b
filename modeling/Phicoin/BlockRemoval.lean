import Phicoin.MempoolGraph

/-! # What leaves the pool with a block

The transactions of the block leave alone, what conflicts with them leaves with
its descendants, and what the asset changes of the block select leaves alone
again.  The three sets are found here from the pool before the block. -/

namespace Phicoin.Mempool

open Relation List

/-- A transaction of the pool spends what a transaction of a block spends, is not
that transaction and did not leave with an earlier one of the block. -/
def Conflicts (pool : Mempool) (before : List Transaction) (tx : Transaction)
    (hash : Uint256) : Prop :=
  hash ∉ before.map Transaction.hash ∧ hash ≠ tx.hash ∧
    ∃ input ∈ tx.vin, pool.SpentBy input.prevout hash

/-- A transaction conflicts with a block, or descends in the pool from one that does. -/
def Conflicted (pool : Mempool) (vtx : List Transaction) (hash : Uint256) : Prop :=
  ∃ before tx after conflict, vtx = before ++ tx :: after ∧ pool.Conflicts before tx conflict ∧
    ReflTransGen pool.Child conflict hash

def ParentsFirst (pool : Mempool) (vtx : List Transaction) : Prop :=
  ∀ before tx after parent, vtx = before ++ tx :: after → pool.Child parent tx.hash →
    pool.contains parent = true → parent ∈ before.map Transaction.hash

structure BlockRemoved (pool : Mempool) (vtx : List Transaction) (now : Mempool) : Prop where
  removal : Removal pool now
  source : ∀ hash, pool.contains hash = true → now.contains hash = false →
    hash ∈ vtx.map Transaction.hash ∨ pool.Conflicted vtx hash
  mined : ∀ tx ∈ vtx, now.contains tx.hash = false
  free : ∀ tx ∈ vtx, ∀ input ∈ tx.vin, ∀ hash, ¬ now.SpentBy input.prevout hash
  parents : ∀ parent child, now.Child parent child → pool.contains parent = true →
    now.contains parent = true ∨ parent ∈ vtx.map Transaction.hash

variable {pool : Mempool} {vtx : List Transaction} {hash : Uint256}

theorem Conflicted.append (conflicted : pool.Conflicted vtx hash) (later : List Transaction) :
    pool.Conflicted (vtx ++ later) hash := by
  obtain ⟨before, tx, after, conflict, rfl, conflicts, path⟩ := conflicted
  exact ⟨before, tx, after ++ later, conflict, by simp, conflicts, path⟩

theorem not_contains_of_removal {pool final : Mempool} (removal : Removal pool final)
    {hash : Uint256} (absent : pool.contains hash = false) : final.contains hash = false := by
  cases still : final.contains hash with
  | false => rfl
  | true =>
    rw [removal.contains still] at absent
    cases absent

variable {now : Mempool}

theorem BlockRemoved.step (linked : pool.Linked)
    (removed : BlockRemoved pool vtx now) (tx : Transaction) :
    BlockRemoved pool (vtx ++ [tx]) (now.removeBlockTx tx) := by
  have alone : Removal now (now.removeStaged [tx.hash]) := removal_removeStaged now _
  have conflicts := conflictsRemoved (linked.removal (removed.removal.trans alone)) tx
  have rest : Removal now (now.removeBlockTx tx) := removal_removeBlockTx now tx
  have own : (now.removeBlockTx tx).contains tx.hash = false := by
    refine @not_contains_of_removal (now.removeStaged [tx.hash]) _ conflicts.removal tx.hash ?_
    rw [Mempool.contains, lookup_removeStaged, if_pos (by simp)]
    rfl
  constructor
  · exact removed.removal.trans rest
  · intro hash there gone
    rw [map_append, mem_append]
    cases still : now.contains hash with
    | false =>
      exact (removed.source hash there still).imp .inl fun conflicted => conflicted.append [tx]
    | true =>
      by_cases same : hash = tx.hash
      · exact .inl (.inr (by simp [same]))
      · have staged := (@contains_removeStaged now [tx.hash] hash).mpr ⟨by simpa using same, still⟩
        obtain ⟨input, member, conflict, differs, spent, path⟩ :=
          conflicts.source hash staged gone
        refine .inr ⟨vtx, tx, [], conflict, rfl, ⟨?_, differs, input, member,
          (removed.removal.trans alone).spentBy spent⟩,
          ReflTransGen.lift id (fun _ _ => (removed.removal.trans alone).child) _ _ path⟩
        intro earlier
        obtain ⟨other, inBlock, rfl⟩ := mem_map.mp earlier
        have kept := alone.contains (contains_of_spentBy spent)
        rw [removed.mined other inBlock] at kept
        cases kept
  · intro other member
    rcases mem_append.mp member with earlier | last
    · exact not_contains_of_removal rest (removed.mined other earlier)
    · rw [mem_singleton.mp last]
      exact own
  · intro other member input isInput hash spent
    rcases mem_append.mp member with earlier | last
    · exact removed.free other earlier input isInput hash (rest.spentBy spent)
    · rw [mem_singleton.mp last] at isInput
      have isOwn := conflicts.complete input isInput hash spent
      rw [isOwn] at spent
      rw [contains_of_spentBy spent] at own
      cases own
  · intro parent child isChild there
    rw [map_append, mem_append]
    rcases removed.parents parent child (rest.child isChild) there with kept | earlier
    · by_cases same : parent = tx.hash
      · exact .inr (.inr (by simp [same]))
      · exact .inl (conflicts.parents parent child isChild
          (contains_removeStaged.mpr ⟨by simpa using same, kept⟩))
    · exact .inr (.inl earlier)

theorem blockRemoved (linked : pool.Linked) (vtx : List Transaction) :
    BlockRemoved pool vtx (vtx.foldl removeBlockTx pool) := by
  induction vtx using reverseRecOn with
  | nil =>
    refine ⟨.refl pool, fun hash there gone => ?_, by simp, by simp, fun _ _ _ => .inl⟩
    rw [foldl_nil, there] at gone
    cases gone
  | append_singleton earlier tx ih =>
    rw [foldl_append]
    exact ih.step linked tx

theorem gone_of_conflicted (linked : pool.Linked) (parentsFirst : pool.ParentsFirst vtx)
    (conflicted : pool.Conflicted vtx hash) :
    (vtx.foldl removeBlockTx pool).contains hash = false := by
  obtain ⟨before, tx, after, conflict, rfl, ⟨notBefore, differs, input, isInput, spent⟩, path⟩ :=
    conflicted
  have removed := blockRemoved linked (before ++ [tx])
  have first : ∀ early other late, before ++ [tx] = early ++ other :: late → ∀ parent,
      pool.Child parent other.hash → pool.contains parent = true →
      parent ∈ early.map Transaction.hash := by
    intro early other late order parent isChild there
    refine parentsFirst early other (late ++ after) parent ?_ isChild there
    rw [← List.singleton_append, ← List.append_assoc, order]
    simp
  set now := (before ++ [tx]).foldl removeBlockTx pool
  suffices gone : hash ∉ (before ++ [tx]).map Transaction.hash ∧ pool.contains hash = true ∧
      now.contains hash = false by
    rw [← List.singleton_append, ← List.append_assoc, List.foldl_append]
    exact not_contains_of_removal (removal_foldl removal_removeBlockTx after now) gone.2.2
  induction path with
  | refl =>
    refine ⟨by simpa [differs] using notBefore, contains_of_spentBy spent, ?_⟩
    cases still : now.contains conflict with
    | false => rfl
    | true =>
      obtain ⟨entry, found, member⟩ := spent
      exact absurd ⟨entry, (removed.removal.lookup_eq still).trans found, member⟩
        (removed.free tx (by simp) input isInput conflict)
  | @tail parent child _ isChild ih =>
    obtain ⟨notMined, there, gone⟩ := ih
    refine ⟨fun mined => notMined ?_, contains_of_child isChild, ?_⟩
    · obtain ⟨other, inBlock, rfl⟩ := List.mem_map.mp mined
      obtain ⟨early, late, order⟩ := List.append_of_mem inBlock
      rw [order, List.map_append, List.mem_append]
      exact .inl (first early other late order parent isChild there)
    · cases still : now.contains child with
      | false => rfl
      | true =>
        obtain ⟨out, ⟨entry, found, member⟩, isParent⟩ := isChild
        have kept : now.Child parent child :=
          ⟨out, ⟨entry, (removed.removal.lookup_eq still).trans found, member⟩, isParent⟩
        rcases removed.parents parent child kept there with still' | mined
        · rw [gone] at still'
          cases still'
        · exact absurd mined notMined

def SelectsEntries (pool : Mempool) (acc : Evicting) : Prop :=
  ∀ tx ∈ acc.trans, ∃ hash entry, pool.mapTx.lookup hash = some entry ∧ entry.tx = tx

section

variable {pool : Mempool} {acc : Evicting}

section

variable (selects : pool.SelectsEntries acc)

include selects

theorem SelectsEntries.add {entry : MempoolEntry} (found : pool.mapTx.lookup hash = some entry)
    (removing : List Uint256) : pool.SelectsEntries ⟨acc.trans ++ [entry.tx], removing⟩ := by
  intro tx member
  rcases mem_append.mp member with earlier | last
  · exact selects tx earlier
  · exact ⟨hash, entry, found, (mem_singleton.mp last).symm⟩

theorem SelectsEntries.evictUnless (stillValid : Transaction → Bool) (hash : Uint256) :
    pool.SelectsEntries (pool.evictUnless stillValid acc hash) := by
  unfold Mempool.evictUnless
  cases found : pool.mapTx.lookup hash with
  | none => exact selects
  | some entry =>
    dsimp only
    split_ifs
    · exact selects
    · exact selects.add found _

theorem SelectsEntries.evictAll {K : Type} [DecidableEq K]
    (stillValid : Transaction → Bool) (index : SetIndex K Uint256) (key : K) :
    pool.SelectsEntries (pool.evictAll stillValid index acc key) :=
  foldlRecOn _ _ selects fun _ before hash _ => before.evictUnless stillValid hash

theorem SelectsEntries.evictIssue (name : Bytes) :
    pool.SelectsEntries (pool.evictIssue acc name) := by
  unfold Mempool.evictIssue
  cases pool.assets.mapAssetToHash.lookup name with
  | none => exact selects
  | some hash =>
    dsimp only
    cases found : pool.mapTx.lookup hash with
    | none => exact selects
    | some entry => exact selects.add found _

theorem SelectsEntries.evictGlobal (env : Env) (name : Bytes)
    (type : RestrictedType) : pool.SelectsEntries (pool.evictGlobal env acc name type) := by
  unfold Mempool.evictGlobal
  cases type with
  | globalFreeze => exact (selects.evictAll _ _ _).evictAll _ _ _
  | globalUnfreeze => exact selects.evictAll _ _ _
  | _ => exact selects

end

theorem selectsEntries_evicted (pool : Mempool) (env : Env) (global : AssetState)
    (coins : CoinsView) (connected : AssetsCache) :
    pool.SelectsEntries (pool.evicted env global coins connected) := by
  unfold evicted
  refine foldlRecOn _ _ ?_ fun acc before item _ => ?_
  · refine foldlRecOn _ _ ?_ fun acc before item _ => before.evictGlobal env item.1 item.2
    refine foldlRecOn _ _ ?_ fun acc before item _ => before.evictAll _ _ item.1.2
    refine foldlRecOn _ _ ?_ fun acc before item _ => before.evictAll _ _ item.1
    refine foldlRecOn _ _ ?_ fun acc before item _ => before.evictIssue item.1
    simp [SelectsEntries]
  · split_ifs
    · exact before.evictAll _ _ _
    · exact before

theorem contains_removeBlockTx (linked : pool.Linked) (removal : Removal pool now)
    {entry : MempoolEntry} (found : pool.mapTx.lookup entry.tx.hash = some entry) (hash : Uint256) :
    (now.removeBlockTx entry.tx).contains hash = true ↔
      hash ≠ entry.tx.hash ∧ now.contains hash = true := by
  have alone : Removal now (now.removeStaged [entry.tx.hash]) := removal_removeStaged now _
  have conflicts := conflictsRemoved (linked.removal (removal.trans alone)) entry.tx
  have staged := @contains_removeStaged now [entry.tx.hash] hash
  rw [mem_singleton] at staged
  refine Iff.trans ⟨fun kept => conflicts.removal.contains kept, fun there => ?_⟩ staged
  cases still : (now.removeBlockTx entry.tx).contains hash with
  | true => rfl
  | false =>
    obtain ⟨input, member, conflict, differs, spent, _⟩ := conflicts.source hash there still
    have own : pool.SpentBy input.prevout entry.tx.hash :=
      ⟨entry, found, mem_map_of_mem member⟩
    exact absurd (linked.unique ((removal.trans alone).spentBy spent) own) differs

theorem contains_foldl_removeBlockTx (linked : pool.Linked) {trans : List Transaction}
    (entries : ∀ tx ∈ trans, ∃ hash entry, pool.mapTx.lookup hash = some entry ∧ entry.tx = tx)
    (removal : Removal pool now) (hash : Uint256) :
    (trans.foldl removeBlockTx now).contains hash = true ↔
      hash ∉ trans.map Transaction.hash ∧ now.contains hash = true := by
  induction trans generalizing now with
  | nil => simp
  | cons tx rest ih =>
    obtain ⟨key, entry, found, rfl⟩ := entries tx List.mem_cons_self
    rw [← linked.keyed key entry found] at found
    rw [List.foldl_cons, ih (fun other member => entries other (List.mem_cons_of_mem _ member))
      (removal.trans (removal_removeBlockTx now entry.tx)),
      contains_removeBlockTx linked removal found]
    simp only [List.map_cons, List.mem_cons]
    tauto

end

theorem contains_removeForBlock (linked : pool.Linked)
    (parentsFirst : pool.ParentsFirst vtx) (env : Env) (global : AssetState) (coins : CoinsView)
    (connected : AssetsCache) (hash : Uint256) :
    (pool.removeForBlock env global coins connected vtx).contains hash = true ↔
      pool.contains hash = true ∧ hash ∉ vtx.map Transaction.hash ∧ ¬ pool.Conflicted vtx hash ∧
        hash ∉ (pool.evicted env global coins connected).trans.map Transaction.hash := by
  have removed := blockRemoved linked vtx
  unfold removeForBlock
  rw [contains_foldl_removeBlockTx linked (selectsEntries_evicted pool env global coins connected)
    removed.removal]
  constructor
  · rintro ⟨notSelected, kept⟩
    refine ⟨removed.removal.contains kept, fun mined => ?_, fun conflicted => ?_, notSelected⟩
    · obtain ⟨tx, inBlock, rfl⟩ := List.mem_map.mp mined
      rw [removed.mined tx inBlock] at kept
      cases kept
    · rw [gone_of_conflicted linked parentsFirst conflicted] at kept
      cases kept
  · rintro ⟨there, notMined, notConflicted, notSelected⟩
    refine ⟨notSelected, ?_⟩
    cases still : (vtx.foldl removeBlockTx pool).contains hash with
    | true => rfl
    | false => exact absurd (removed.source hash there still) (by tauto)

end Phicoin.Mempool
