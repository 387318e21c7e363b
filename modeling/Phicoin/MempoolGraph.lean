import Phicoin.MempoolConflicts
import Phicoin.Lib.MapSum

/-! # Parents and children in the pool

`mapNextTx` names the one transaction of the pool that spends an output.  What a
replacement or a conflict with a block removes is closed under the children that
the pool has, so that whatever remains keeps its parents. -/

namespace Phicoin.Mempool

open Check KeyedMap Relation List Worklist

def SpentBy (pool : Mempool) (out : OutPoint) (hash : Uint256) : Prop :=
  ∃ entry, pool.mapTx.lookup hash = some entry ∧ out ∈ entry.tx.vin.map TxIn.prevout

def Child (pool : Mempool) (parent child : Uint256) : Prop :=
  ∃ out, pool.SpentBy out child ∧ out.hash = parent

/-- What every pool keeps: entries stand under their own hash, none is a coinbase,
and the map of spenders is the one the entries make. -/
structure Linked (pool : Mempool) : Prop where
  keyed : ∀ hash entry, pool.mapTx.lookup hash = some entry → entry.tx.hash = hash
  spending : ∀ hash entry, pool.mapTx.lookup hash = some entry → entry.tx.isCoinBase = false
  spenders : KeyedMap.Holds pool.mapNextTx pool.SpentBy

variable {pool : Mempool} {hash : Uint256}

theorem contains_iff : pool.contains hash = true ↔ ∃ entry, pool.mapTx.lookup hash = some entry :=
  Option.isSome_iff_exists

variable {out : OutPoint}

theorem contains_of_spentBy (spent : pool.SpentBy out hash) : pool.contains hash = true := by
  obtain ⟨entry, found, _⟩ := spent
  exact contains_iff.mpr ⟨entry, found⟩

variable {parent : Uint256}

theorem contains_of_child {child : Uint256}
    (isChild : pool.Child parent child) : pool.contains child = true := by
  obtain ⟨out, spent, _⟩ := isChild
  exact contains_of_spentBy spent

theorem mem_children {child : Uint256} :
    child ∈ pool.children parent ↔ pool.Child parent child := by
  unfold children Child SpentBy
  simp only [mem_map, mem_filter, any_eq_true, decide_eq_true_eq]
  constructor
  · rintro ⟨⟨hash, entry⟩, ⟨member, input, isInput, isParent⟩, rfl⟩
    exact ⟨input.prevout, ⟨entry, AList.mem_lookup_iff.mpr member, input, isInput, rfl⟩, isParent⟩
  · rintro ⟨out, ⟨entry, found, input, isInput, rfl⟩, isParent⟩
    exact ⟨⟨child, entry⟩, ⟨AList.mem_lookup_iff.mp found, input, isInput, isParent⟩, rfl⟩

theorem Linked.unique (linked : pool.Linked)
    {first second : Uint256} (one : pool.SpentBy out first) (other : pool.SpentBy out second) :
    first = second := by
  have atFirst := (linked.spenders out first).mpr one
  rw [(linked.spenders out second).mpr other] at atFirst
  exact (Option.some.inj atFirst).symm

variable {final : Mempool}

theorem Removal.contains (removal : Removal pool final)
    (kept : final.contains hash = true) : pool.contains hash = true := by
  obtain ⟨entry, found⟩ := contains_iff.mp kept
  exact contains_iff.mpr ⟨entry, removal.lookup found⟩

theorem Removal.lookup_eq (removal : Removal pool final)
    (kept : final.contains hash = true) : final.mapTx.lookup hash = pool.mapTx.lookup hash := by
  obtain ⟨entry, found⟩ := contains_iff.mp kept
  rw [found, removal.lookup found]

theorem Removal.spentBy (removal : Removal pool final)
 (spent : final.SpentBy out hash) : pool.SpentBy out hash := by
  obtain ⟨entry, found, member⟩ := spent
  exact ⟨entry, removal.lookup found, member⟩

theorem Removal.child (removal : Removal pool final)
    {child : Uint256} (isChild : final.Child parent child) : pool.Child parent child := by
  obtain ⟨out, spent, isParent⟩ := isChild
  exact ⟨out, removal.spentBy spent, isParent⟩

theorem lookup_removeStaged (pool : Mempool) (stage : List Uint256) (hash : Uint256) :
    (pool.removeStaged stage).mapTx.lookup hash =
      if hash ∈ stage then none else pool.mapTx.lookup hash := by
  induction stage generalizing pool with
  | nil => simp [removeStaged]
  | cons first rest ih =>
    rw [removeStaged, foldl_cons, ← removeStaged, ih, lookup_removeUnchecked]
    by_cases later : hash ∈ rest <;> by_cases same : hash = first <;> simp [later, same]

theorem contains_removeStaged {pool : Mempool} {stage : List Uint256} {hash : Uint256} :
    (pool.removeStaged stage).contains hash = true ↔ hash ∉ stage ∧ pool.contains hash = true := by
  rw [contains, lookup_removeStaged]
  split_ifs with staged
  · simp [staged]
  · simp [staged, contains]

theorem Linked.removeUnchecked (linked : pool.Linked) (hash : Uint256) :
    (pool.removeUnchecked hash).Linked := by
  have entries := lookup_removeUnchecked pool hash
  have kept : ∀ {other entry}, (pool.removeUnchecked hash).mapTx.lookup other = some entry →
      other ≠ hash ∧ pool.mapTx.lookup other = some entry := by
    intro other entry found
    rw [entries] at found
    split_ifs at found with same
    exact ⟨same, found⟩
  refine ⟨fun other entry found => linked.keyed other entry (kept found).2,
    fun other entry found => linked.spending other entry (kept found).2, fun out other => ?_⟩
  have remaining : (pool.removeUnchecked hash).SpentBy out other ↔
      other ≠ hash ∧ pool.SpentBy out other := by
    constructor
    · rintro ⟨entry, found, member⟩
      exact ⟨(kept found).1, entry, (kept found).2, member⟩
    · rintro ⟨differs, entry, found, member⟩
      exact ⟨entry, by rw [entries, if_neg differs, found], member⟩
  rw [remaining]
  unfold Mempool.removeUnchecked
  cases found : pool.mapTx.lookup hash with
  | none =>
    rw [linked.spenders out other]
    refine ⟨fun spent => ⟨?_, spent⟩, fun spent => spent.2⟩
    rintro rfl
    obtain ⟨entry, there, _⟩ := spent
    rw [there] at found
    cases found
  | some entry =>
    have erased : (entry.tx.vin.foldl (fun map input => map.erase input.prevout)
        pool.mapNextTx).lookup out =
          if out ∈ entry.tx.vin.map TxIn.prevout then none else pool.mapNextTx.lookup out := by
      rw [← lookup_without, without, List.foldl_map]
    dsimp only
    rw [erased]
    split_ifs with own
    · refine iff_of_false (by simp) ?_
      rintro ⟨differs, spent⟩
      exact differs (linked.unique spent ⟨entry, found, own⟩)
    · rw [linked.spenders out other]
      refine ⟨fun spent => ⟨?_, spent⟩, fun spent => spent.2⟩
      rintro rfl
      obtain ⟨entry', there, member⟩ := spent
      rw [found] at there
      cases there
      exact own member

theorem Linked.removal (linked : pool.Linked) (removal : Removal pool final) : final.Linked :=
  removal.invariant Linked (fun _ _ => True) linked (fun _ _ _ _ => trivial)
    (fun _ hash _ before _ _ => before.removeUnchecked hash)
    fun _ _ before => ⟨before.keyed, before.spending, before.spenders⟩

theorem mem_keys : hash ∈ pool.mapTx.keys ↔ pool.contains hash = true :=
  AList.mem_keys.trans AList.lookup_isSome.symm

theorem ready_single (inPool : pool.contains hash = true) :
    Worklist.Ready pool.children pool.mapTx.keys [hash] [] where
  stageNodup := nodup_singleton hash
  visitedNodup := nodup_nil
  fresh := by simp
  stageNodes := by simpa using mem_keys.mpr inPool
  visitedNodes := by simp
  pending := by simp

theorem mem_withDescendants {other : Uint256} (inPool : pool.contains hash = true) :
    other ∈ pool.withDescendants [hash] ↔ ReflTransGen pool.Child hash other := by
  have asChildren : (fun parent child => child ∈ pool.children parent) = pool.Child := by
    funext parent child
    exact propext mem_children
  have explored : pool.withDescendants [hash] =
      explore pool.children pool.mapTx.entries.length [hash] [] := rfl
  obtain ⟨staged, closed⟩ := (ready_single inPool).explore
    (fun _ _ child isChild => mem_keys.mpr (contains_of_child (mem_children.mp isChild)))
    (show pool.mapTx.keys.length ≤ pool.mapTx.entries.length + ([] : List Uint256).length by
      simp [AList.keys, keys])
  rw [explored]
  constructor
  · intro member
    rcases mem_explore _ member with absurdly | ⟨start, isStart, path⟩
    · simp at absurdly
    · rw [asChildren, mem_singleton.mp isStart] at path
      exact path
  · intro path
    induction path with
    | refl => exact staged hash (by simp)
    | tail _ isChild ih => exact closed _ ih _ (mem_children.mpr isChild)

def KeepsParents (pool final : Mempool) : Prop :=
  ∀ parent child, final.Child parent child → pool.contains parent = true →
    final.contains parent = true

theorem KeepsParents.trans {first second third : Mempool} (left : KeepsParents first second)
    (right : KeepsParents second third) (removal : Removal second third) :
    KeepsParents first third :=
  fun parent child isChild inFirst =>
    right parent child isChild (left parent child (removal.child isChild) inFirst)

theorem keepsParents_removeStaged (inPool : pool.contains hash = true) :
    KeepsParents pool (pool.removeStaged (pool.withDescendants [hash])) := by
  intro parent child isChild inFirst
  obtain ⟨notStaged, _⟩ := contains_removeStaged.mp (contains_of_child isChild)
  refine contains_removeStaged.mpr ⟨fun staged => notStaged ?_, inFirst⟩
  rw [mem_withDescendants inPool] at staged ⊢
  exact staged.tail ((removal_removeStaged pool _).child isChild)

/-- What the conflicts of a transaction over some of its inputs take out of the
pool: spenders of these inputs with their descendants, and all such spenders. -/
structure ConflictsRemoved (tx : Transaction) (inputs : List TxIn) (pool final : Mempool) :
    Prop where
  removal : Removal pool final
  parents : KeepsParents pool final
  source : ∀ hash, pool.contains hash = true → final.contains hash = false →
    ∃ input ∈ inputs, ∃ conflict, conflict ≠ tx.hash ∧ pool.SpentBy input.prevout conflict ∧
      ReflTransGen pool.Child conflict hash
  complete : ∀ input ∈ inputs, ∀ hash, final.SpentBy input.prevout hash → hash = tx.hash

theorem conflictsRemoved_single (linked : pool.Linked) (tx : Transaction)
    (input : TxIn) : ConflictsRemoved tx [input] pool (pool.removeConflict tx input) := by
  unfold removeConflict
  cases found : (pool.mapNextTx.lookup input.prevout).bind pool.mapTx.lookup with
  | none =>
    refine ⟨.refl pool, fun _ _ _ inPool => inPool, fun hash there gone => ?_, ?_⟩
    · rw [there] at gone
      cases gone
    · intro same member hash spent
      rw [mem_singleton.mp member] at spent
      rw [(linked.spenders input.prevout hash).mpr spent] at found
      obtain ⟨entry, there, _⟩ := spent
      rw [Option.bind_some, there] at found
      cases found
  | some conflict =>
    obtain ⟨hash, spender, there⟩ := Option.bind_eq_some_iff.mp found
    have spent := (linked.spenders input.prevout hash).mp spender
    obtain rfl := linked.keyed hash conflict there
    dsimp only
    split_ifs with own
    · refine ⟨.refl pool, fun _ _ _ inPool => inPool, fun hash there gone => ?_, ?_⟩
      · rw [there] at gone
        cases gone
      · intro same member hash spent'
        rw [mem_singleton.mp member] at spent'
        rw [linked.unique spent' spent, own]
    · have inPool : (pool.clearPrioritisation conflict.tx.hash).contains conflict.tx.hash = true :=
        contains_of_spentBy spent
      rw [removeRecursive, if_pos inPool]
      refine ⟨.prioritisation conflict.tx.hash (removal_removeStaged _ _),
        keepsParents_removeStaged inPool, fun other before gone => ?_, ?_⟩
      · refine ⟨input, by simp, conflict.tx.hash, own, spent, (mem_withDescendants inPool).mp ?_⟩
        by_contra notStaged
        have kept := (@contains_removeStaged (pool.clearPrioritisation conflict.tx.hash)
          ((pool.clearPrioritisation conflict.tx.hash).withDescendants [conflict.tx.hash])
          other).mpr ⟨notStaged, before⟩
        rw [kept] at gone
        cases gone
      · intro same member other spent'
        rw [mem_singleton.mp member] at spent'
        obtain ⟨notStaged, _⟩ := contains_removeStaged.mp (contains_of_spentBy spent')
        have before : pool.SpentBy input.prevout other :=
          (removal_removeStaged (pool.clearPrioritisation conflict.tx.hash) _).spentBy spent'
        rw [linked.unique before spent] at notStaged
        exact absurd ((mem_withDescendants inPool).mpr .refl) notStaged

variable {input : TxIn}

theorem ConflictsRemoved.cons {tx : Transaction} {rest : List TxIn}
    {middle : Mempool} (head : ConflictsRemoved tx [input] pool middle)
    (tail : ConflictsRemoved tx rest middle final) :
    ConflictsRemoved tx (input :: rest) pool final where
  removal := head.removal.trans tail.removal
  parents := head.parents.trans tail.parents tail.removal
  source := by
    intro hash there gone
    cases still : middle.contains hash with
    | false =>
      obtain ⟨same, member, found⟩ := head.source hash there still
      exact ⟨same, mem_cons.mpr (.inl (mem_singleton.mp member)), found⟩
    | true =>
      obtain ⟨other, member, conflict, differs, spent, path⟩ := tail.source hash still gone
      exact ⟨other, mem_cons_of_mem _ member, conflict, differs, head.removal.spentBy spent,
        ReflTransGen.lift id (fun _ _ isChild => head.removal.child isChild) _ _ path⟩
  complete := by
    intro same member hash spent
    rcases mem_cons.mp member with rfl | later
    · exact head.complete same (by simp) hash (tail.removal.spentBy spent)
    · exact tail.complete same later hash spent

theorem conflictsRemoved (linked : pool.Linked) (tx : Transaction) :
    ConflictsRemoved tx tx.vin pool (pool.removeConflicts tx) := by
  unfold removeConflicts
  generalize tx.vin = inputs
  induction inputs generalizing pool with
  | nil =>
    refine ⟨.refl pool, fun _ _ _ inPool => inPool, fun hash there gone => ?_, by simp⟩
    rw [foldl_nil, there] at gone
    cases gone
  | cons input rest ih =>
    have first := conflictsRemoved_single linked tx input
    exact first.cons (ih (linked.removal first.removal))

section

variable {policy : MempoolPolicy} {env : Env} {global : AssetState} {coins : CoinsView}
  {nSpendHeight : Nat} {args : AcceptArgs} {pool : Mempool} {tx : Transaction}
  {acceptance : Acceptance}

theorem mem_findConflicts {setConflicts : List Uint256}
    (passes : pool.findConflicts policy tx = .ok setConflicts) (member : input ∈ tx.vin)
    (spender : pool.mapNextTx.lookup input.prevout = some hash) : hash ∈ setConflicts := by
  unfold findConflicts at passes
  refine foldlM_establishes (fun acc => hash ∈ acc) passes member ?_ ?_
  · intro acc next visited
    simp only [spender] at visited
    split_ifs at visited with seen
    · rw [← pure_eq_ok.mp visited]
      exact seen
    · obtain ⟨_, _, visited⟩ := bind_eq_ok.mp visited
      rw [← pure_eq_ok.mp visited]
      exact mem_cons_self
  · intro acc other next visited seen
    split at visited
    · rw [← pure_eq_ok.mp visited]
      exact seen
    · split_ifs at visited with known
      · rw [← pure_eq_ok.mp visited]
        exact seen
      · obtain ⟨_, _, visited⟩ := bind_eq_ok.mp visited
        rw [← pure_eq_ok.mp visited]
        exact mem_cons_of_mem _ seen

theorem subset_calculateDescendants (found : List Uint256) (hash : Uint256) :
    ∀ other ∈ found, other ∈ pool.calculateDescendants found hash := by
  intro other member
  unfold calculateDescendants
  split_ifs
  · exact member
  · exact subset_explore _ other member

theorem self_mem_calculateDescendants (inPool : pool.contains hash = true)
    (found : List Uint256) : hash ∈ pool.calculateDescendants found hash := by
  unfold calculateDescendants
  split_ifs with seen
  · exact seen
  · have some_ : pool.mapTx.entries.length ≠ 0 := by
      obtain ⟨entry, there⟩ := contains_iff.mp inPool
      exact fun zero => ne_nil_of_mem (AList.mem_lookup_iff.mp there)
        (length_eq_zero_iff.mp zero)
    obtain ⟨fuel, size⟩ := Nat.exists_eq_succ_of_ne_zero some_
    rw [size, Nat.succ_eq_add_one, explore]
    exact subset_explore _ hash mem_cons_self

theorem subset_withDescendants {hashes : List Uint256}
    (inPool : ∀ hash ∈ hashes, pool.contains hash = true) :
    ∀ hash ∈ hashes, hash ∈ pool.withDescendants hashes := by
  suffices general : ∀ found : List Uint256,
      (∀ hash ∈ found, hash ∈ hashes.foldl pool.calculateDescendants found) ∧
      ∀ hash ∈ hashes, hash ∈ hashes.foldl pool.calculateDescendants found from
    (general []).2
  induction hashes with
  | nil => simp
  | cons first rest ih =>
    intro found
    obtain ⟨kept, visited⟩ := ih (fun hash member => inPool hash (mem_cons_of_mem _ member))
      (pool.calculateDescendants found first)
    refine ⟨fun hash member => kept hash (subset_calculateDescendants found first hash member), ?_⟩
    intro hash member
    rcases mem_cons.mp member with rfl | later
    · exact kept hash (self_mem_calculateDescendants (inPool hash mem_cons_self) found)
    · exact visited hash later

theorem checkAcceptance_conflicts
    (passes : pool.checkAcceptance policy env global coins nSpendHeight args tx = .ok acceptance) :
    tx.isCoinBase = false ∧ ∃ setConflicts nModifiedFees nSize,
      pool.findConflicts policy tx = .ok setConflicts ∧
      pool.checkReplacement policy tx setConflicts nModifiedFees nSize =
        .ok acceptance.allConflicting := by
  unfold checkAcceptance at passes
  obtain ⟨_, _, _, spending, passes⟩ := ok_bind₂ passes
  iterate 4 obtain ⟨_, _, passes⟩ := bind_eq_ok.mp passes
  obtain ⟨setConflicts, conflicts, passes⟩ := bind_eq_ok.mp passes
  iterate 12 obtain ⟨_, _, passes⟩ := bind_eq_ok.mp passes
  obtain ⟨allConflicting, replaced, _, _, passes⟩ := ok_bind₂ passes
  obtain rfl := pure_eq_ok.mp passes
  exact ⟨by simpa using spending, setConflicts, _, _, conflicts, replaced⟩

theorem free_of_checkAcceptance (linked : pool.Linked)
    (passes : pool.checkAcceptance policy env global coins nSpendHeight args tx = .ok acceptance)
    (member : input ∈ tx.vin) (hash : Uint256) :
    ¬ (pool.removeStaged acceptance.allConflicting).SpentBy input.prevout hash := by
  intro spent
  obtain ⟨_, setConflicts, nModifiedFees, nSize, conflicts, replaced⟩ :=
    checkAcceptance_conflicts passes
  obtain ⟨kept, _⟩ := contains_removeStaged.mp (contains_of_spentBy spent)
  have before := (removal_removeStaged pool _).spentBy spent
  have known := mem_findConflicts conflicts member ((linked.spenders _ _).mpr before)
  obtain ⟨entry, there, _⟩ := before
  unfold checkReplacement at replaced
  rw [if_neg (ne_nil_of_mem known)] at replaced
  iterate 5 obtain ⟨_, _, replaced⟩ := bind_eq_ok.mp replaced
  rw [← pure_eq_ok.mp replaced] at kept
  refine kept (subset_withDescendants ?_ hash ?_)
  · intro other isConflict
    obtain ⟨found, lookup, rfl⟩ := mem_map.mp isConflict
    obtain ⟨key, _, at_⟩ := mem_filterMap.mp lookup
    rw [linked.keyed key found at_]
    exact contains_iff.mpr ⟨found, at_⟩
  · rw [← linked.keyed hash entry there]
    exact mem_map_of_mem (mem_filterMap.mpr ⟨hash, known, there⟩)

theorem Linked.addUnchecked (linked : pool.Linked) {entry : MempoolEntry}
    (fresh : pool.mapTx.lookup entry.tx.hash = none) (spending : entry.tx.isCoinBase = false)
    (free : ∀ input ∈ entry.tx.vin, ∀ hash, ¬ pool.SpentBy input.prevout hash) :
    (pool.addUnchecked entry).Linked := by
  have entries := fun hash => lookup_addUnchecked pool entry hash fresh
  refine ⟨fun hash other found => ?_, fun hash other found => ?_, ?_⟩
  · rw [entries] at found
    split_ifs at found with same
    · rw [← Option.some.inj found, same]
    · exact linked.keyed hash other found
  · rw [entries] at found
    split_ifs at found with same
    · rw [← Option.some.inj found]
      exact spending
    · exact linked.spending hash other found
  · have unspent : ∀ out hash, out ∈ entry.tx.vin.map TxIn.prevout → ¬ pool.SpentBy out hash := by
      intro out hash member
      obtain ⟨input, isInput, rfl⟩ := mem_map.mp member
      exact free input isInput hash
    have added := linked.spenders.join_keys (v := entry.tx.hash) (fun _ _ => .inr rfl)
      fun out hash member spent => absurd spent (unspent out hash member)
    rw [foldl_map] at added
    refine added.congr fun out hash => ?_
    unfold SpentBy
    simp only [entries]
    constructor
    · rintro (⟨other, found, member⟩ | ⟨member, rfl⟩)
      · have differs : hash ≠ entry.tx.hash := by
          rintro rfl
          rw [fresh] at found
          cases found
        exact ⟨other, by rw [if_neg differs, found], member⟩
      · exact ⟨_, if_pos rfl, member⟩
    · rintro ⟨other, found, member⟩
      split_ifs at found with same
      · rw [← Option.some.inj found] at member
        exact .inr ⟨member, same⟩
      · exact .inl ⟨other, found, member⟩

def SameLinks (pool final : Mempool) : Prop :=
  final.mapTx = pool.mapTx ∧ final.mapNextTx = pool.mapNextTx

theorem Linked.sameLinks (linked : pool.Linked) (same : SameLinks pool final) : final.Linked := by
  obtain ⟨sameTx, sameNext⟩ := same
  have sameSpent : final.SpentBy = pool.SpentBy := by
    unfold SpentBy
    rw [sameTx]
  exact ⟨sameTx ▸ linked.keyed, sameTx ▸ linked.spending, sameNext ▸ sameSpent ▸ linked.spenders⟩

theorem sameLinks_registerOutputs (hash : Uint256) (outs : List TxOut) (pool : Mempool) :
    SameLinks pool (registerOutputs env hash outs pool).1 := by
  refine Prod.mk.inj (registerOutputs_keeps (fun pool => (pool.mapTx, pool.mapNextTx))
    (fun out _ pool => ?_) fun key pool => ?_)
  · rw [recordAsset_eq]
  · cases key <;> rfl

theorem sameLinks_register (pool : Mempool) :
    SameLinks pool (pool.register env coins tx acceptance).1 := by
  have outputs := @sameLinks_registerOutputs env tx.hash tx.vout
    (registerReissues acceptance.vReissueAssets pool)
  have inputs := fun before => @registerInputs_eq ⟨env, coins⟩ tx before
  unfold register
  dsimp only at inputs ⊢
  generalize written : (if env.areAssetsDeployed then
    registerOutputs env tx.hash tx.vout (registerReissues acceptance.vReissueAssets pool)
    else (registerReissues acceptance.vReissueAssets pool, .ok ())) = outcome
  have same : SameLinks pool outcome.1 := by
    rw [← written]
    split_ifs
    · exact outputs
    · exact ⟨rfl, rfl⟩
  obtain ⟨registered, verdict⟩ := outcome
  cases verdict with
  | ok u =>
    dsimp only
    rw [inputs]
    exact ⟨same.1, same.2⟩
  | error reason => exact same

theorem Linked.accept (linked : pool.Linked) :
    (pool.acceptToMemoryPoolWorker policy env global coins nSpendHeight args tx).1.Linked := by
  unfold acceptToMemoryPoolWorker
  cases checks : pool.checkAcceptance policy env global coins nSpendHeight args tx with
  | error reason => exact linked
  | ok acceptance =>
    have checked := checkAcceptance_ok checks
    have absent : pool.mapTx.lookup acceptance.entry.tx.hash = none := by
      have fresh := checked.fresh
      rw [checked.stored]
      simpa [contains] using fresh
    obtain ⟨replacing, trimming⟩ := removal_storeLimited policy args pool acceptance
    have replaced := linked.removal replacing
    have stored : (pool.storeLimited policy args acceptance).Linked := by
      refine (replaced.addUnchecked ?_ ?_ ?_).removal trimming
      · rw [lookup_removeStaged, absent, ite_self]
      · rw [checked.stored]
        exact (checkAcceptance_conflicts checks).1
      · rw [checked.stored]
        exact fun input member => free_of_checkAcceptance linked checks member
    dsimp only
    split_ifs
    · exact linked
    · exact stored
    · exact stored.sameLinks (sameLinks_register _)

end

theorem linked_of_empty (noTx : pool.mapTx = ∅) (noNext : pool.mapNextTx = ∅) : pool.Linked := by
  have nothing : ∀ hash entry, pool.mapTx.lookup hash ≠ some entry := by
    rw [noTx]
    simp
  refine ⟨fun hash entry found => absurd found (nothing hash entry),
    fun hash entry found => absurd found (nothing hash entry), fun out hash => ?_⟩
  rw [noNext]
  refine iff_of_false (by simp) ?_
  rintro ⟨entry, found, _⟩
  exact nothing hash entry found

/-- Every pool that acceptances, removals and connected blocks make has the map of spenders
that its entries make. -/
theorem linked_of_run (run : Runs.Run call (fun _ _ => true) .empty pool) : pool.Linked := by
  refine run.invariant Linked (linked_of_empty rfl rfl) ?_
  intro before op after linked _ steps
  cases op with
  | accept policy context global nSpendHeight args tx =>
    obtain rfl := Option.some.inj steps
    exact linked.accept
  | removeUnchecked hash =>
    obtain rfl := Option.some.inj steps
    exact linked.removeUnchecked hash
  | removeForBlock env global coins connected vtx =>
    obtain rfl := Option.some.inj steps
    exact linked.removal (removal_removeForBlock _ _ _ _ _ _)
  | clear =>
    obtain rfl := Option.some.inj steps
    exact linked_of_empty rfl rfl

theorem linked_of_run_chained : ∃ pool, Runs.Run call (fun _ _ => true) .empty pool ∧
    pool.mapNextTx.lookup ⟨20, 1⟩ = some 21 ∧ pool.Linked := by
  have observed : (Runs.execute call (fun _ _ => true) .empty
      [MempoolConflicts.accept (MempoolMirror.uniques 20 ["ROOT#A"]),
        MempoolConflicts.accept (MempoolConflicts.next 21 20 "ROOT#B")]).bind
      (fun pool => pool.mapNextTx.lookup ⟨20, 1⟩) = some 21 := by
    decide +kernel
  obtain ⟨pool, run, found⟩ := Runs.exists_run_of_execute observed
  exact ⟨pool, run, found, linked_of_run run⟩

end Phicoin.Mempool
