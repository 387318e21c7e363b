import Phicoin.ChainRestrictions
import Phicoin.RecordUndo

/-! # Freezes and verifier strings of a block

What the cache of a block says of freezes and verifier strings after the first
transactions that are connected, with the undo items they leave, and after the last
ones that are disconnected. -/

namespace Phicoin

open AssetsCache List Option Pending RestrictionLayer

structure Restricting (env : Env) (txs : List Transaction) (cache : AssetsCache) : Prop where
  freezes : cache.restrictions.freezes =
    Pending.empty.makeAll (txs.flatMap (Transaction.freezes env))
  globalFreezes : cache.restrictions.globalFreezes =
    Pending.empty.makeAll (txs.flatMap (Transaction.globalFreezes env))
  verifiers : cache.restrictions.verifiers =
    Pending.empty.makeAll (txs.flatMap (Transaction.verifiers env))

/-- The names for which some transactions bring a verifier string with a reissue. -/
def verifierReissues (env : Env) (txs : List Transaction) : List Bytes :=
  (txs.filterMap (Transaction.reissuedVerifier env)).map Prod.fst

def undoneVerifier (vUndo : List (Bytes × BlockAssetUndo)) (name : Bytes) : Option Bytes :=
  (firstUndo vUndo name).bind fun item =>
    if item.fChangedVerifierString then some item.verifierString else none

/-- The undo items of some transactions keep the verifier strings of the chain below. -/
structure KeepsVerifiers (env : Env) (below : List Block) (txs : List Transaction)
    (vUndo : List (Bytes × BlockAssetUndo)) : Prop where
  touched : ∀ name, (firstUndo vUndo name).isSome → ∃ tx ∈ txs, tx.touches env name = true
  verifiers : ∀ name, undoneVerifier vUndo name =
    if name ∈ verifierReissues env txs then verifierOn env (transactionsOf below) name else none

section

variable {env : Env} {global : AssetState} {pre : List Transaction} {tx : Transaction}
  {cache issued : AssetsCache} {acc next : Connecting} {item : Option (Bytes × BlockAssetUndo)}
  {nHeight : Nat} {blockHash : Uint256}
  {name : Bytes}

theorem mem_verifierReissues {txs : List Transaction} : name ∈ verifierReissues env txs ↔
      ∃ tx ∈ txs, ∃ verifier, tx.reissuedVerifier env = some (name, verifier) := by
  simp only [verifierReissues, List.mem_map, List.mem_filterMap, Prod.exists, exists_and_right,
    exists_eq_right]
  exact exists_comm.trans (exists_congr fun _ => exists_and_left)

theorem Restricting.empty (env : Env) : Restricting env [] .empty := ⟨rfl, rfl, rfl⟩

theorem IssueStep.restrictions (step : IssueStep env global tx cache issued item)
    (named : cache.Named) (stored : NamedState global)
    (first : ∀ name verifier, tx.verifierChange env = some (name, verifier) →
      cache.restrictions.verifiers.made.lookup name = none) :
    issued.restrictions.freezes = cache.restrictions.freezes ∧
      issued.restrictions.globalFreezes = cache.restrictions.globalFreezes ∧
      issued.restrictions.verifiers = cache.restrictions.verifiers.makeAll (tx.verifiers env) := by
  unfold Transaction.verifiers
  rcases step with ⟨noReissue, _, _, layer⟩ | ⟨reissue, address, prev, reissues, reissued⟩
  · have change : tx.verifierChange env = tx.issuedVerifier env := by
      rw [Transaction.verifierChange, reissuedVerifier_of_none noReissue, or_none]
    rw [layer, change]
    cases made : tx.issuedVerifier env with
    | none => exact ⟨rfl, rfl, rfl⟩
    | some found =>
      exact ⟨rfl, rfl, RestrictionLayer.setVerifier_verifiers _
        (first found.1 found.2 (change.trans made)) found.2⟩
  · have change : tx.verifierChange env = tx.reissuedVerifier env := by
      rw [Transaction.verifierChange, issuedVerifier_of_reissuance reissues, none_or]
    have same : prev.strName = reissue.strName := named.metadata stored reissued.found
    obtain ⟨freezes, globalFreezes⟩ := RestrictionLayer.changeVerifier_freezes cache.restrictions
      prev.strName (tx.changedVerifier prev.strName)
    rw [reissued.restrictions]
    refine ⟨freezes, globalFreezes, ?_⟩
    rw [change, Transaction.reissuedVerifier, reissues, same]
    cases changed : tx.changedVerifier reissue.strName with
    | none => simp [changed, RestrictionLayer.changeVerifier, Pending.makeAll]
    | some verifier =>
      simp only [bind_some, changed, map_some, toList_some, map_cons,
        map_nil]
      refine RestrictionLayer.setVerifier_verifiers _ (first _ verifier ?_) verifier
      rw [change, reissuedVerifier_eq_some]
      exact ⟨reissue, address, reissues, rfl, changed⟩

theorem Restricting.step (restricting : Restricting env pre acc.view.assets)
    (named : acc.view.assets.Named) (stored : NamedState global)
    (made : TxConnected env global nHeight blockHash tx acc next issued item)
    (first : ∀ name verifier, tx.verifierChange env = some (name, verifier) →
      name ∉ (pre.flatMap (Transaction.verifiers env)).map Prod.fst) :
    Restricting env (pre ++ [tx]) next.view.assets := by
  obtain ⟨freezes, globalFreezes, verifiers⟩ := made.step.restrictions named stored
    fun name verifier change => by
      rw [← not_isSome_iff_eq_none, restricting.verifiers, Pending.isSome_made_makeAll]
      exact first name verifier change
  constructor
  · rw [made.restrictions, RestrictionLayer.apply_freezes, freezes, restricting.freezes]
    simp [Pending.makeAll_append, Transaction.freezes]
  · rw [made.restrictions, RestrictionLayer.apply_globalFreezes, globalFreezes,
      restricting.globalFreezes]
    simp [Pending.makeAll_append, Transaction.globalFreezes]
  · rw [made.restrictions, RestrictionLayer.apply_verifiers, verifiers, restricting.verifiers]
    simp [Pending.makeAll_append]

theorem undoneVerifier_append (items more : List (Bytes × BlockAssetUndo)) (name : Bytes) :
    undoneVerifier (items ++ more) name =
      if (firstUndo items name).isSome then undoneVerifier items name
      else undoneVerifier more name := by
  unfold undoneVerifier
  rw [firstUndo_append]
  cases firstUndo items name <;> rfl

theorem mem_of_firstUndo {items : List (Bytes × BlockAssetUndo)}
    {undo : BlockAssetUndo} (found : firstUndo items name = some undo) : (name, undo) ∈ items := by
  obtain ⟨⟨own, _⟩, search, rfl⟩ := map_eq_some_iff.mp found
  obtain rfl : own = name := by simpa using find?_some search
  exact mem_of_find?_eq_some search

theorem undoneVerifier_eq_none {items : List (Bytes × BlockAssetUndo)}
    (quiet : ∀ undo, (name, undo) ∈ items → undo.fChangedVerifierString = false) :
    undoneVerifier items name = none := by
  refine bind_eq_none_iff.mpr fun undo found => ?_
  rw [quiet undo (mem_of_firstUndo found)]
  rfl

theorem KeepsVerifiers.empty (env : Env) (below : List Block) : KeepsVerifiers env below [] [] where
  touched _ found := by cases found
  verifiers _ := rfl

theorem KeepsVerifiers.same {below : List Block} {vUndo more : List (Bytes × BlockAssetUndo)}
    (keeps : KeepsVerifiers env below pre vUndo) (quiet : undoneVerifier more name = none)
    (other : name ∈ verifierReissues env [tx] → name ∈ verifierReissues env pre) :
    undoneVerifier (vUndo ++ more) name = if name ∈ verifierReissues env (pre ++ [tx])
      then verifierOn env (transactionsOf below) name else none := by
  have names : name ∈ verifierReissues env (pre ++ [tx]) ↔ name ∈ verifierReissues env pre := by
    rw [verifierReissues, filterMap_append, map_append, mem_append]
    exact or_iff_left_of_imp other
  rw [undoneVerifier_append, if_congr names rfl rfl, ← keeps.verifiers name]
  split
  · rfl
  · rename_i absent
    rw [quiet, undoneVerifier, not_isSome_iff_eq_none.mp absent]
    rfl

theorem KeepsVerifiers.step {below : List Block}
    (keeps : KeepsVerifiers env below pre acc.vUndoAssetData) (named : acc.view.assets.Named)
    (stored : NamedState global)
    (made : TxConnected env global nHeight blockHash tx acc next issued item)
    (alone : ∀ name verifier, tx.reissuedVerifier env = some (name, verifier) →
      ∀ other ∈ pre, other.touches env name = false)
    (old : ∀ name verifier, tx.reissuedVerifier env = some (name, verifier) →
      some ((acc.view.assets.getAssetVerifierStringIfExists global name false).getD []) =
        verifierOn env (transactionsOf below) name) :
    KeepsVerifiers env below (pre ++ [tx]) next.vUndoAssetData := by
  have inPre : ∀ {name : Bytes}, (firstUndo acc.vUndoAssetData name).isSome →
      ∃ other ∈ pre ++ [tx], other.touches env name = true := by
    intro name found
    obtain ⟨other, member, touches⟩ := keeps.touched name found
    exact ⟨other, mem_append_left _ member, touches⟩
  rw [made.undo]
  rcases made.step with ⟨noReissue, _, rfl, _⟩ | ⟨reissue, address, prev, reissues, reissued⟩
  · refine ⟨fun name found => ?_, fun name => keeps.same rfl fun own => ?_⟩
    · rw [toList_none, filter_nil, append_nil] at found
      exact inPre found
    · obtain ⟨_, member, _, change⟩ := mem_verifierReissues.mp own
      rw [mem_singleton.mp member, reissuedVerifier_of_none noReissue] at change
      cases change
  · have same : prev.strName = reissue.strName := named.metadata stored reissued.found
    -- the item, when there is one, is of the name that is reissued
    have ofReissue : ∀ {name : Bytes} {undo : BlockAssetUndo},
        (name, undo) ∈ item.toList.filter (fun item => item.1 ≠ []) →
        name = reissue.strName ∧
          undo.fChangedVerifierString = (tx.changedVerifier reissue.strName).isSome := by
      intro name undo member
      have found := mem_toList.mp (mem_of_mem_filter member)
      rw [reissued.undone, same] at found
      split at found
      · obtain ⟨rfl, rfl⟩ := Prod.mk.inj (some.inj found)
        exact ⟨rfl, isSome_map⟩
      · cases found
    refine ⟨fun name found => ?_, fun name => ?_⟩
    · rw [firstUndo_append, isSome_or, Bool.or_eq_true] at found
      rcases found with earlier | now
      · exact inPre earlier
      · obtain ⟨undo, found⟩ := isSome_iff_exists.mp now
        obtain ⟨rfl, _⟩ := ofReissue (mem_of_firstUndo found)
        exact ⟨tx, mem_append_right _ mem_cons_self, touches_of_reissuance reissues⟩
    · cases change : tx.reissuedVerifier env with
      | none =>
        refine keeps.same (undoneVerifier_eq_none fun undo member => ?_) fun own => ?_
        · obtain ⟨_, flag⟩ := ofReissue member
          rw [flag]
          cases changed : tx.changedVerifier reissue.strName with
          | none => rfl
          | some verifier =>
            rw [reissuedVerifier_eq_some.mpr ⟨reissue, address, reissues, rfl, changed⟩] at change
            cases change
        · obtain ⟨_, member, _, made⟩ := mem_verifierReissues.mp own
          rw [mem_singleton.mp member, change] at made
          cases made
      | some found =>
        obtain ⟨own, verifier⟩ := found
        obtain ⟨again, _, reissuesAgain, rfl, changed⟩ := reissuedVerifier_eq_some.mp change
        cases reissues.symm.trans reissuesAgain
        by_cases here : name = reissue.strName
        · -- no earlier item of the name, so the first one is of this reissue
          subst here
          have restricted := restricted_of_changedVerifier changed
          have nonempty : reissue.strName ≠ [] := by
            intro empty
            rw [empty] at restricted
            exact absurd restricted (by decide)
          have none : (firstUndo acc.vUndoAssetData reissue.strName).isSome = false := by
            refine Bool.eq_false_iff.mpr fun earlier => ?_
            obtain ⟨other, member, touches⟩ := keeps.touched _ earlier
            rw [alone _ verifier change other member] at touches
            cases touches
          have mine : reissue.strName ∈ verifierReissues env (pre ++ [tx]) :=
            mem_verifierReissues.mpr
              ⟨tx, mem_append_right _ mem_cons_self, verifier, change⟩
          rw [undoneVerifier_append, none, if_neg Bool.false_ne_true, if_pos mine,
            ← old _ verifier change, reissued.undone, same, changed]
          simp [leavesUndo, undoItem, undoneVerifier, firstUndo, nonempty]
        · refine keeps.same (undoneVerifier_eq_none fun undo member => ?_) fun own => ?_
          · exact absurd (ofReissue member).1 here
          · obtain ⟨_, member, _, made⟩ := mem_verifierReissues.mp own
            rw [mem_singleton.mp member, change] at made
            exact absurd (Prod.mk.inj (some.inj made)).1.symm here

end

/-- What connecting a block established of it: every freeze changed what the chain
below had, and a verifier string comes with the only reissue of its asset. -/
structure Block.Settled (env : Env) (below : List Block) (block : Block) : Prop where
  deployed : ∀ tx ∈ block.vtx, tx.nullChanges env ≠ [] → env.areRestrictedAssetsDeployed = true
  freezes : ∀ tx ∈ block.vtx, ∀ change ∈ tx.freezes env,
    freezeReading.undone change.2 = frozenOn env (transactionsOf below) change.1
  globalFreezes : ∀ tx ∈ block.vtx, ∀ change ∈ tx.globalFreezes env,
    globalReading.undone change.2 = frozenAllOn env (transactionsOf below) change.1
  single : block.singleVerifier env = true

/-- The cache of a block that is being disconnected gives what its last transactions
changed the values of the chain below. -/
structure Unrestricting (env : Env) (below : List Block) (txs : List Transaction)
    (cache : AssetsCache) : Prop where
  freezes : Pending.Restores freezeReading (frozenOn env (transactionsOf below))
    ((txs.flatMap (Transaction.freezes env)).map Prod.fst) cache.restrictions.freezes
  globalFreezes : Pending.Restores globalReading (frozenAllOn env (transactionsOf below))
    ((txs.flatMap (Transaction.globalFreezes env)).map Prod.fst) cache.restrictions.globalFreezes
  verifiers : Pending.Restores verifierReading (verifierOn env (transactionsOf below))
    ((txs.flatMap (Transaction.verifiers env)).map Prod.fst) cache.restrictions.verifiers

variable {env : Env} {global : AssetState} {vUndoData : List (Bytes × BlockAssetUndo)}
  {below : List Block} {block : Block} {pre post : List Transaction} {tx : Transaction}
  {cache next issues : AssetsCache}

theorem Unrestricting.empty (env : Env) (below : List Block) : Unrestricting env below [] .empty :=
  ⟨restores_empty _ _, restores_empty _ _, restores_empty _ _⟩

theorem undoVerifier_eq (layer : RestrictionLayer) (name : Bytes) :
    layer.undoVerifier name (firstUndo vUndoData name) =
      match undoneVerifier vUndoData name with
      | some old => layer.unsetVerifier name ⟨old, true⟩
      | none => layer := by
  unfold undoneVerifier RestrictionLayer.undoVerifier
  cases firstUndo vUndoData name with
  | none => rfl
  | some item => cases flag : item.fChangedVerifierString <;> simp [flag]

theorem UndoStep.freezes (undo : UndoStep env global vUndoData tx cache issues) :
    issues.restrictions.freezes = cache.restrictions.freezes ∧
      issues.restrictions.globalFreezes = cache.restrictions.globalFreezes := by
  rcases undo with ⟨_, _, layer⟩ | ⟨reissue, address, _, ⟨_, prev, undone⟩ | ⟨_, rfl⟩⟩
  · rw [layer]
    split <;> exact ⟨rfl, rfl⟩
  · rw [undone.restrictions]
    exact undoVerifier_freezes _ _ _
  · exact ⟨rfl, rfl⟩

theorem revert_deployed (settled : block.Settled env below) (member : tx ∈ block.vtx)
    (made : TxDisconnected env global vUndoData tx cache next issues) :
    next.restrictions = (tx.nullChanges env).foldl revert issues.restrictions := by
  rw [made.restrictions]
  split
  · rfl
  · rename_i notDeployed
    have quiet : tx.nullChanges env = [] := by
      by_contra some
      exact notDeployed (settled.deployed tx member some)
    rw [quiet]
    rfl

theorem Block.Settled.not_mem_verifierReissues (settled : block.Settled env below)
    (member : tx ∈ block.vtx) {reissue : ReissueAsset} {address : Bytes}
    (reissues : tx.reissuance env = some (reissue, address))
    (silent : tx.reissuedVerifier env = none) :
    reissue.strName ∉ verifierReissues env block.vtx := by
  intro named
  obtain ⟨other, inBlock, verifier, made⟩ := mem_verifierReissues.mp named
  obtain ⟨front, back, split⟩ := append_of_mem inBlock
  obtain ⟨alone, aloneBack⟩ := Block.alone settled.single split made
  have touches := touches_of_reissuance reissues
  rw [split, mem_append, mem_cons] at member
  rcases member with inFront | rfl | inBack
  · rw [alone tx inFront] at touches
    cases touches
  · rw [silent] at made
    cases made
  · rw [aloneBack tx inBack] at touches
    cases touches

variable (lawful : Lawful env (block :: below)) (settled : block.Settled env below)
  (keeps : KeepsVerifiers env below block.vtx vUndoData) (split : block.vtx = pre ++ tx :: post)
  (named : cache.Named) (stored : NamedState global)

include lawful settled keeps split named stored

theorem Unrestricting.undo_verifiers (unrestricting : Unrestricting env below post cache)
    (withdrawn : undoIssues env global vUndoData cache tx = .ok issues)
    (undo : UndoStep env global vUndoData tx cache issues)
    (undone : ∀ reissue address, tx.reissuance env = some (reissue, address) →
      ∃ prev, Unreissued global vUndoData tx reissue prev cache issues) :
    Pending.Restores verifierReading (verifierOn env (transactionsOf below))
      (((tx :: post).flatMap (Transaction.verifiers env)).map Prod.fst)
      issues.restrictions.verifiers := by
  have member : tx ∈ block.vtx := split ▸ mem_append_right pre mem_cons_self
  obtain ⟨use, kind⟩ := lawful.1.checked tx member
  have absent : ∀ {name verifier : Bytes}, tx.verifierChange env = some (name, verifier) →
      cache.restrictions.verifiers.undone.lookup name = none := by
    intro name verifier change
    refine @Pending.undone_of_verdict _ _ _ _ verifierReading _ _ ?_
    rw [unrestricting.verifiers.undone, if_neg (lawful.1.verifier_last settled.single split change)]
  rw [flatMap_cons, map_append]
  rcases undo with ⟨noReissue, _, layer⟩ | ⟨reissue, address, reissues, _⟩
  · have change : tx.verifierChange env = tx.issuedVerifier env := by
      rw [Transaction.verifierChange, reissuedVerifier_of_none noReissue, or_none]
    have names := withdrawnVerifier_names kind withdrawn
    rw [layer, Transaction.verifiers, change]
    cases issued : tx.issuedVerifier env with
    | none =>
      rw [issued, map_none, map_eq_none_iff] at names
      rw [names]
      exact unrestricting.verifiers
    | some found =>
      obtain ⟨name, verifier⟩ := found
      rw [issued, map_some, map_eq_some_iff] at names
      obtain ⟨⟨_, old⟩, taken, rfl⟩ := names
      rw [taken]
      change Pending.Restores _ _ _ (cache.restrictions.unsetVerifier _ _).verifiers
      rw [RestrictionLayer.unsetVerifier_verifiers _ (absent (change.trans issued))]
      refine unrestricting.verifiers.undo ?_
      -- the asset is not on the chain below, so it had no verifier string
      have fresh := (lawful.1.fresh pre tx post split _
        ((mem_issueNames_iff kind).mp (issued_of_issuedVerifier kind issued).1)).1
      exact (not_isSome_iff_eq_none.mp fun had =>
        fresh (lawful.2.issued_of_verifierOn had)).symm
  · have change : tx.verifierChange env = tx.reissuedVerifier env := by
      rw [Transaction.verifierChange, issuedVerifier_of_reissuance reissues, none_or]
    obtain ⟨prev, unreissued⟩ := undone reissue address reissues
    have same : prev.strName = reissue.strName := named.metadata stored unreissued.found
    rw [unreissued.restrictions, same, undoVerifier_eq, keeps.verifiers, Transaction.verifiers,
      change]
    cases made : tx.reissuedVerifier env with
    | none =>
      rw [if_neg (settled.not_mem_verifierReissues member reissues made)]
      exact unrestricting.verifiers
    | some found =>
      obtain ⟨name, verifier⟩ := found
      obtain ⟨_, _, again, rfl, changed⟩ := reissuedVerifier_eq_some.mp made
      cases reissues.symm.trans again
      rw [if_pos (mem_verifierReissues.mpr ⟨tx, member, verifier, made⟩)]
      -- the asset is on the chain below: no other transaction of the block issues it
      have issued : reissue.strName ∈ issuedOn env below := by
        refine (lawful.1.known pre tx post split reissue address reissues).resolve_right ?_
        intro inPre
        obtain ⟨other, inFront, issues⟩ := mem_flatMap.mp inPre
        obtain ⟨_, otherKind⟩ := lawful.1.checked other (split ▸ mem_append_left _ inFront)
        have touches := touches_of_issued ((mem_issueNames_iff otherKind).mpr issues)
        rw [(Block.alone settled.single split made).1 other inFront] at touches
        cases touches
      obtain ⟨old, had⟩ := isSome_iff_exists.mp
        (lawful.2.verifierOn_of_issued (restricted_of_changedVerifier changed) issued)
      rw [had]
      change Pending.Restores _ _ _ (cache.restrictions.unsetVerifier _ _).verifiers
      rw [RestrictionLayer.unsetVerifier_verifiers _ (absent (change.trans made))]
      exact unrestricting.verifiers.undo had.symm

theorem Unrestricting.step (made : TxDisconnected env global vUndoData tx cache next issues)
    (undo : UndoStep env global vUndoData tx cache issues)
    (undone : ∀ reissue address, tx.reissuance env = some (reissue, address) →
      ∃ prev, Unreissued global vUndoData tx reissue prev cache issues)
    (unrestricting : Unrestricting env below post cache) :
    Unrestricting env below (tx :: post) next := by
  have member : tx ∈ block.vtx := split ▸ mem_append_right pre mem_cons_self
  have layer := revert_deployed settled member made
  obtain ⟨freezes, globalFreezes⟩ := undo.freezes
  constructor
  · rw [layer, revert_freezes, freezes, flatMap_cons, map_append]
    exact unrestricting.freezes.undoAll (settled.freezes tx member)
  · rw [layer, revert_globalFreezes, globalFreezes, flatMap_cons,
      map_append]
    exact unrestricting.globalFreezes.undoAll (settled.globalFreezes tx member)
  · rw [layer, revert_verifiers]
    exact unrestricting.undo_verifiers lawful settled keeps split named stored made.undone undo undone

end Phicoin
