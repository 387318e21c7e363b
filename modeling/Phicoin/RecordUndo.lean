import Phicoin.Disconnectable

/-! # Records after a disconnect

`AddReissueAsset` changes a record and `RemoveReissueAsset` rebuilds the old one
from the new one: the amount is taken off again, the reissuable field becomes 1,
and hash and units come from the first undo item the block has for the name.
This gives the record back only under a condition on the reissues of the block. -/

namespace Phicoin

open Check KeyedMap AssetsCache TwosComplement AssetState NewAsset List Option

structure NewAsset.Sound (record : NewAsset) : Prop where
  amount : Fits 64 record.nAmount
  hash : (record.nHasIPFS = 0 ∧ record.strIPFSHash = []) ∨
    (record.nHasIPFS = 1 ∧ record.strIPFSHash ≠ [])

def NewAsset.reissued (record : NewAsset) (reissues : List ReissueAsset) : NewAsset :=
  reissues.foldl NewAsset.applyReissue record

def NewAsset.unreissued (record : NewAsset) (undo : Option BlockAssetUndo)
    (reissues : List ReissueAsset) : NewAsset :=
  reissues.foldr (fun reissue later => later.undoReissue reissue undo) record

section

variable {record : NewAsset} {reissues : List ReissueAsset} {undo : Option BlockAssetUndo}
  {item : BlockAssetUndo}

theorem reissued_strName (record : NewAsset) (reissues : List ReissueAsset) :
    (record.reissued reissues).strName = record.strName := by
  induction reissues generalizing record with
  | nil => rfl
  | cons reissue rest ih => exact ih (record.applyReissue reissue)

theorem reissued_invariant {P : NewAsset → Prop} (initial : P record)
    (step : ∀ (record : NewAsset) (reissue : ReissueAsset), P record → P (record.applyReissue reissue))
    (reissues : List ReissueAsset) : P (record.reissued reissues) := by
  induction reissues generalizing record with
  | nil => exact initial
  | cons reissue rest ih => exact ih (step record reissue initial)

theorem reissued_hash (hash : (record.nHasIPFS = 0 ∧ record.strIPFSHash = []) ∨
      (record.nHasIPFS = 1 ∧ record.strIPFSHash ≠ [])) (reissues : List ReissueAsset) :
    ((record.reissued reissues).nHasIPFS = 0 ∧ (record.reissued reissues).strIPFSHash = []) ∨
      ((record.reissued reissues).nHasIPFS = 1 ∧ (record.reissued reissues).strIPFSHash ≠ []) := by
  refine @reissued_invariant record (fun record => (record.nHasIPFS = 0 ∧ record.strIPFSHash = []) ∨
    (record.nHasIPFS = 1 ∧ record.strIPFSHash ≠ [])) hash (fun record reissue hash => ?_) reissues
  by_cases keeps : reissue.strIPFSHash = []
  · simpa [applyReissue, keeps] using hash
  · exact .inr (by simp [applyReissue, keeps])

theorem reissued_keeps_hash (nonempty : record.strIPFSHash ≠ []) (reissues : List ReissueAsset) :
    (record.reissued reissues).strIPFSHash ≠ [] := by
  refine @reissued_invariant record (fun record => record.strIPFSHash ≠ []) nonempty
    (fun record reissue nonempty => ?_) reissues
  by_cases keeps : reissue.strIPFSHash = [] <;> simp [applyReissue, keeps, nonempty]

theorem reissued_of_quiet (record : NewAsset) (quiet : ∀ reissue ∈ reissues,
      reissue.strIPFSHash = [] ∧ reissue.nUnits = -1) :
    (record.reissued reissues).strIPFSHash = record.strIPFSHash ∧
      (record.reissued reissues).units = record.units := by
  induction reissues generalizing record with
  | nil => exact ⟨rfl, rfl⟩
  | cons reissue rest ih =>
    obtain ⟨noHash, noUnits⟩ := quiet reissue mem_cons_self
    obtain ⟨hash, units⟩ := ih (record.applyReissue reissue)
      fun other member => quiet other (mem_cons_of_mem reissue member)
    exact ⟨hash.trans (by simp [applyReissue, noHash]),
      units.trans (by simp [applyReissue, noUnits])⟩

theorem wrap_reissued_nAmount (record : NewAsset) (reissues : List ReissueAsset) :
    wrap 64 (record.reissued reissues).nAmount =
      wrap 64 (record.nAmount + (reissues.map ReissueAsset.nAmount).sum) := by
  induction reissues generalizing record with
  | nil => simp [reissued]
  | cons reissue rest ih =>
    have tail := ih (record.applyReissue reissue)
    rw [map_cons, sum_cons, ← add_assoc]
    rw [applyReissue, addAmount, wrapAdd, wrap_add_wrap_left] at tail
    exact tail

theorem unreissued_nAmount (some_reissue : reissues ≠ []) :
    (record.unreissued undo reissues).nAmount =
      wrap 64 (record.nAmount - (reissues.map ReissueAsset.nAmount).sum) := by
  have undone : ∀ (later : NewAsset) (reissue : ReissueAsset),
      (later.undoReissue reissue undo).nAmount = wrap 64 (later.nAmount - reissue.nAmount) := by
    intro later reissue
    cases undo <;> rfl
  induction reissues with
  | nil => exact absurd rfl some_reissue
  | cons reissue rest ih =>
    rw [unreissued, foldr_cons, undone]
    cases rest with
    | nil => simp
    | cons next others =>
      have tail := ih (cons_ne_nil next others)
      rw [unreissued] at tail
      rw [tail, sub_eq_add_neg, wrap_add_wrap_left]
      congr 1
      simp only [map_cons, sum_cons]
      ring

theorem unreissued_reissued_nAmount (fits : Fits 64 record.nAmount) (some_reissue : reissues ≠ []) :
    ((record.reissued reissues).unreissued undo reissues).nAmount = record.nAmount := by
  rw [unreissued_nAmount some_reissue, sub_eq_add_neg, ← wrap_add_wrap_left, wrap_reissued_nAmount,
    wrap_add_wrap_left]
  rw [show record.nAmount + (reissues.map ReissueAsset.nAmount).sum +
    -(reissues.map ReissueAsset.nAmount).sum = record.nAmount by ring]
  exact fits

def hashAfter (undo : Option BlockAssetUndo) (hash : Bytes) : Bytes :=
  match undo with
  | some item => if item.fChangedIPFS then item.strIPFS else hash
  | none => hash

def unitsAfter (undo : Option BlockAssetUndo) (units : Int) : Int :=
  match undo with
  | some item => if item.fChangedUnits then item.nUnits else units
  | none => units

theorem hashAfter_hashAfter (undo : Option BlockAssetUndo) (hash : Bytes) :
    hashAfter undo (hashAfter undo hash) = hashAfter undo hash := by
  cases undo with
  | none => rfl
  | some item => cases changed : item.fChangedIPFS <;> simp [hashAfter, changed]

theorem unitsAfter_unitsAfter (undo : Option BlockAssetUndo) (units : Int) :
    unitsAfter undo (unitsAfter undo units) = unitsAfter undo units := by
  cases undo with
  | none => rfl
  | some item => cases changed : item.fChangedUnits <;> simp [unitsAfter, changed]

/-- A field that every undo sets in the same way is set once. -/
theorem unreissued_field {α : Type} {field : NewAsset → α} {set : α → α}
    (undone : ∀ (later : NewAsset) (reissue : ReissueAsset),
      field (later.undoReissue reissue undo) = set (field later))
    (idempotent : ∀ a, set (set a) = set a) (some_reissue : reissues ≠ []) :
    field (record.unreissued undo reissues) = set (field record) := by
  induction reissues with
  | nil => exact absurd rfl some_reissue
  | cons reissue rest ih =>
    rw [unreissued, foldr_cons, undone]
    cases rest with
    | nil => rfl
    | cons next others =>
      rw [← unreissued, ih (cons_ne_nil next others), idempotent]

theorem unreissued_strIPFSHash (some_reissue : reissues ≠ []) :
    (record.unreissued undo reissues).strIPFSHash = hashAfter undo record.strIPFSHash :=
  unreissued_field (fun _ _ => by cases undo <;> rfl) (hashAfter_hashAfter undo) some_reissue

theorem unreissued_units (some_reissue : reissues ≠ []) :
    (record.unreissued undo reissues).units = unitsAfter undo record.units :=
  unreissued_field (fun _ _ => by cases undo <;> rfl) (unitsAfter_unitsAfter undo) some_reissue

theorem unreissued_nReissuable (some_reissue : reissues ≠ []) :
    (record.unreissued undo reissues).nReissuable = 1 := by
  cases reissues with
  | nil => exact absurd rfl some_reissue
  | cons reissue rest => cases undo <;> rfl

theorem unreissued_strName (record : NewAsset) (undo : Option BlockAssetUndo)
    (reissues : List ReissueAsset) :
    (record.unreissued undo reissues).strName = record.strName := by
  induction reissues with
  | nil => rfl
  | cons reissue rest ih => exact (undoReissue_strName _ reissue undo).trans ih

def flagAfter (undo : Option BlockAssetUndo) (hash : Bytes) (flag : Int) : Int :=
  if undo.isSome ∧ hashAfter undo hash = [] then 0 else flag

theorem unreissued_nHasIPFS (some_reissue : reissues ≠ []) :
    (record.unreissued undo reissues).nHasIPFS =
      flagAfter undo record.strIPFSHash record.nHasIPFS := by
  refine congrArg Prod.snd (@unreissued_field record reissues undo _
    (fun record => (record.strIPFSHash, record.nHasIPFS))
    (fun fields => (hashAfter undo fields.1, flagAfter undo fields.1 fields.2)) ?_ ?_ some_reissue)
  · intro later reissue
    cases undo with
    | none => rfl
    | some item => simp [flagAfter, NewAsset.undoReissue, NewAsset.applyUndo, hashAfter]
  · rintro ⟨hash, flag⟩
    simp only [flagAfter, hashAfter_hashAfter]
    split <;> rfl

theorem unreissued_reissued_iff (sound : record.Sound) (some_reissue : reissues ≠ []) :
    (record.reissued reissues).unreissued undo reissues = record ↔ record.nReissuable = 1 ∧
      hashAfter undo (record.reissued reissues).strIPFSHash = record.strIPFSHash ∧
      unitsAfter undo (record.reissued reissues).units = record.units := by
  rw [← unreissued_strIPFSHash some_reissue, ← unreissued_units some_reissue]
  constructor
  · intro same
    refine ⟨?_, congrArg strIPFSHash same, congrArg units same⟩
    exact (congrArg nReissuable same).symm.trans (unreissued_nReissuable some_reissue)
  · rintro ⟨reissuable, hash, units⟩
    have flag : ((record.reissued reissues).unreissued undo reissues).nHasIPFS =
        record.nHasIPFS := by
      have after := reissued_hash sound.hash reissues
      rw [unreissued_strIPFSHash some_reissue] at hash
      rw [unreissued_nHasIPFS some_reissue, flagAfter, hash]
      rcases sound.hash with ⟨zero, empty⟩ | ⟨one, nonempty⟩
      · cases undo with
        | none =>
          rw [hashAfter] at hash
          rcases after with ⟨zero', _⟩ | ⟨_, nonempty'⟩
          · simp [zero, zero']
          · exact absurd (hash.trans empty) nonempty'
        | some item => simp [zero, empty]
      · rcases after with ⟨_, empty'⟩ | ⟨one', _⟩
        · exact absurd empty' (reissued_keeps_hash nonempty reissues)
        · simp [nonempty, one, one']
    ext1
    · exact (unreissued_strName _ undo reissues).trans (reissued_strName record reissues)
    · exact unreissued_reissued_nAmount sound.amount some_reissue
    · exact units
    · exact (unreissued_nReissuable some_reissue).trans reissuable.symm
    · exact flag
    · exact hash

end

/-- The first reissue of a name in a block that leaves an undo item: one that sets
the hash, the units or the verifier string. -/
def firstChange (env : Env) (name : Bytes) (txs : List Transaction) : Option ReissueAsset :=
  txs.findSome? fun tx =>
    match tx.reissuance env with
    | some (reissue, _) =>
      if reissue.strName = name ∧ leavesUndo reissue (tx.changedVerifier name) then some reissue
      else none
    | none => none

structure FirstItem (record : NewAsset) (change : ReissueAsset) (item : BlockAssetUndo) :
    Prop where
  changedHash : item.fChangedIPFS = decide (change.strIPFSHash ≠ [])
  hash : item.strIPFS = record.strIPFSHash
  changedUnits : item.fChangedUnits = decide (change.nUnits ≠ -1)
  units : item.nUnits = record.units

def Undoes (record : NewAsset) : Option ReissueAsset → Option BlockAssetUndo → Prop
  | none, undo => undo = none
  | some change, undo => ∃ item, undo = some item ∧ FirstItem record change item

section

variable {record : NewAsset} {first : Option ReissueAsset} {undo : Option BlockAssetUndo}
  (undoes : Undoes record first undo)

include undoes

theorem Undoes.hash_iff {hash : Bytes} :
    hashAfter undo hash = record.strIPFSHash ↔
      (∃ change ∈ first, change.strIPFSHash ≠ []) ∨ hash = record.strIPFSHash := by
  cases first with
  | none =>
    rw [show undo = none from undoes]
    simp [hashAfter]
  | some change =>
    obtain ⟨item, rfl, ofFirst⟩ := undoes
    by_cases sets : change.strIPFSHash = [] <;>
      simp [hashAfter, ofFirst.changedHash, ofFirst.hash, sets]

theorem Undoes.units_iff {units : Int} :
    unitsAfter undo units = record.units ↔
      (∃ change ∈ first, change.nUnits ≠ -1) ∨ units = record.units := by
  cases first with
  | none =>
    rw [show undo = none from undoes]
    simp [unitsAfter]
  | some change =>
    obtain ⟨item, rfl, ofFirst⟩ := undoes
    by_cases sets : change.nUnits = -1 <;>
      simp [unitsAfter, ofFirst.changedUnits, ofFirst.units, sets]

end

section

variable {env : Env} {name : Bytes} {txs : List Transaction} {tx : Transaction}
  {record : NewAsset}

theorem firstChange_append : firstChange env name (txs ++ [tx]) =
    (firstChange env name txs).or (firstChange env name [tx]) := by
  simp [firstChange, findSome?_append]

theorem firstUndo_append (items more : List (Bytes × BlockAssetUndo)) (name : Bytes) :
    firstUndo (items ++ more) name = (firstUndo items name).or (firstUndo more name) := by
  simp only [firstUndo, find?_append]
  cases items.find? fun item => item.1 = name <;> simp

theorem reissuesOf_append : reissuesOf env name (txs ++ [tx]) =
    reissuesOf env name txs ++ reissuesOf env name [tx] := by
  simp [reissuesOf]

theorem quiet_of_firstChange (none : firstChange env name txs = none) :
    ∀ reissue ∈ reissuesOf env name txs, reissue.strIPFSHash = [] ∧ reissue.nUnits = -1 := by
  intro reissue member
  obtain ⟨tx, inTxs, made⟩ := mem_filterMap.mp member
  have unchanged := findSome?_eq_none_iff.mp none tx inTxs
  cases reissues : tx.reissuance env with
  | none => simp [reissues] at made
  | some read =>
    obtain ⟨other, address⟩ := read
    simp only [reissues, ite_none_right_eq_some, Option.some.injEq] at made
    obtain ⟨ofName, rfl⟩ := made
    simp only [reissues, ofName, true_and, ite_eq_right_iff, reduceCtorEq, imp_false,
      leavesUndo, Bool.or_eq_true, decide_eq_true_eq, not_or, not_not] at unchanged
    exact unchanged.1

end

/-- What a block's cache says of a name that exists in the global state, after some
of its transactions. -/
structure Reissuing (env : Env) (global : AssetState) (name : Bytes) (record : NewAsset)
    (txs : List Transaction) (cache : AssetsCache) (undo : List (Bytes × BlockAssetUndo)) :
    Prop where
  metadata : cache.getAssetMetaDataIfExists global name =
    some (record.reissued (reissuesOf env name txs))
  undoes : Undoes record (firstChange env name txs) (firstUndo undo name)

section

variable {env : Env} {global : AssetState} {name : Bytes} {record : NewAsset}
  {txs : List Transaction} {tx : Transaction} {acc next : Connecting} {issued : AssetsCache}
  {item : Option (Bytes × BlockAssetUndo)} {nHeight : Nat} {blockHash : Uint256}

theorem Issuing.exists_of_global (notReindexing : env.fReindex = false) {cache : AssetsCache}
    (issuing : Issuing env txs cache)
    (present : AssetsCache.empty.checkIfAssetExists env global name = true) :
    cache.checkIfAssetExists env global name = true := by
  rw [checkIfAssetExists_iff notReindexing] at present ⊢
  obtain ⟨_, kept, added | recorded⟩ := present
  · cases added
  · exact ⟨issuing.removed name, kept, .inr recorded⟩

theorem TxConnected.not_issued (notReindexing : env.fReindex = false)
    (issuing : Issuing env txs acc.view.assets)
    (present : AssetsCache.empty.checkIfAssetExists env global name = true)
    (made : TxConnected env global nHeight blockHash tx acc next issued item) :
    name ∉ tx.issueNames env := by
  intro member
  have absent := made.fresh name member
  rw [issuing.exists_of_global notReindexing present] at absent
  cases absent

theorem firstUndo_ne (items : List (Bytes × BlockAssetUndo))
    (other : ∀ item ∈ items, item.1 ≠ name) : firstUndo items name = none := by
  rw [firstUndo, map_eq_none_iff, find?_eq_none]
  intro item member
  simpa using other item member

theorem Reissuing.step (notReindexing : env.fReindex = false) (named : name ≠ [])
    (ownName : record.strName = name) (issuing : Issuing env txs acc.view.assets)
    (present : AssetsCache.empty.checkIfAssetExists env global name = true)
    (made : TxConnected env global nHeight blockHash tx acc next issued item)
    (reissuing : Reissuing env global name record txs acc.view.assets acc.vUndoAssetData) :
    Reissuing env global name record (txs ++ [tx]) next.view.assets next.vUndoAssetData := by
  have notIssued := made.not_issued notReindexing issuing present
  have metadataNext := getAssetMetaDataIfExists_records made.records global name
  have undoNext := made.undo
  rcases made.step with ⟨noReissue, issues, rfl, _⟩ | ⟨reissue, address, prev, reissues, reissued⟩
  · have quiet : reissuesOf env name [tx] = [] ∧ firstChange env name [tx] = none := by
      simp [reissuesOf, firstChange, noReissue]
    rw [toList_none, filter_nil, append_nil] at undoNext
    refine ⟨?_, ?_⟩
    · rw [metadataNext, reissuesOf_append, quiet.1, append_nil, ← reissuing.metadata]
      refine getAssetMetaDataIfExists_congr ?_ ?_ ?_ global
      · rw [issues.reissued]
      · rw [issues.removed, if_neg notIssued]
      · rw [issues.kept name notIssued]
    · rw [firstChange_append, quiet.2, or_none, undoNext]
      exact reissuing.undoes
  · have metadataIssued := getAssetMetaDataIfExists_reissue reissued.records global name
    have undoMore := firstUndo_append acc.vUndoAssetData
      (item.toList.filter fun item => item.1 ≠ []) name
    rw [← undoNext, reissued.undone] at undoMore
    by_cases same : name = reissue.strName
    · subst same
      have prevEq := Option.some.inj (reissued.found.symm.trans reissuing.metadata)
      have prevName : prev.strName = reissue.strName := by rw [prevEq, reissued_strName, ownName]
      rw [prevName] at undoMore
      refine ⟨?_, ?_⟩
      · rw [metadataNext, metadataIssued, if_pos rfl, reissuesOf_append, prevEq]
        simp [reissuesOf, reissues, NewAsset.reissued]
      · rw [firstChange_append, undoMore]
        have undoes := reissuing.undoes
        cases leaves : leavesUndo reissue (tx.changedVerifier reissue.strName) with
        | false =>
          have unchanged : firstChange env reissue.strName [tx] = none := by
            simp [firstChange, reissues, leaves]
          rw [unchanged, or_none]
          simpa [firstUndo] using undoes
        | true =>
          have changed : firstChange env reissue.strName [tx] = some reissue := by
            simp [firstChange, reissues, leaves]
          rw [changed]
          cases first : firstChange env reissue.strName txs with
          | some change =>
            rw [first] at undoes
            obtain ⟨kept, found, ofChange⟩ := undoes
            exact ⟨kept, by rw [found]; rfl, ofChange⟩
          | none =>
            rw [first] at undoes
            obtain ⟨hash, units⟩ := reissued_of_quiet record (quiet_of_firstChange first)
            rw [show firstUndo acc.vUndoAssetData reissue.strName = none from undoes]
            refine ⟨_, by simp [firstUndo, named]; rfl, ?_⟩
            exact ⟨rfl, by rw [← hash, ← prevEq]; rfl, rfl, by rw [← units, ← prevEq]; rfl⟩
    · have others : reissuesOf env name [tx] = [] ∧ firstChange env name [tx] = none := by
        simp [reissuesOf, firstChange, reissues, Ne.symm same]
      refine ⟨?_, ?_⟩
      · rw [metadataNext, metadataIssued, if_neg same, reissuesOf_append, others.1, append_nil,
          reissuing.metadata]
      · generalize newItems : List.filter _ _ = items at undoMore
        have noItem : firstUndo items name = none := by
          refine firstUndo_ne items fun entry member => ?_
          have inItem := mem_of_mem_filter (newItems ▸ member)
          split at inItem
          · rw [toList_some, mem_singleton] at inItem
            rw [inItem]
            exact Ne.symm same
          · cases inItem
        rw [firstChange_append, others.2, or_none, undoMore, noItem, or_none]
        exact reissuing.undoes

theorem reissued_iff_step {name : Bytes}
    (reissued : (acc.view.assets.mapReissuedAssetData.lookup name).isSome ↔
      reissuesOf env name txs ≠ [])
    (made : TxConnected env global nHeight blockHash tx acc next issued item) :
    (next.view.assets.mapReissuedAssetData.lookup name).isSome ↔
      reissuesOf env name (txs ++ [tx]) ≠ [] := by
  rw [(sets_of_records made.records).2.2, reissuesOf_append, ne_eq, append_eq_nil_iff,
    not_and_or, ← ne_eq, ← reissued]
  rcases made.step with ⟨noReissue, issues, _, _⟩ | ⟨reissue, address, prev, reissues, step⟩
  · have quiet : reissuesOf env name [tx] = [] := by simp [reissuesOf, noReissue]
    simp [quiet, issues.reissued]
  · rw [(sets_of_reissue step.records).2.2,
      isSome_lookup_insert]
    by_cases same : name = reissue.strName
    · simp [reissuesOf, reissues, same]
    · simp [reissuesOf, reissues, same, Ne.symm same]

end

section

variable {env : Env} {global : AssetState} {vUndoData : List (Bytes × BlockAssetUndo)}
  {name : Bytes} {record : NewAsset} {txs : List Transaction} {tx : Transaction}
  {cache next issues : AssetsCache}

theorem unreissuing_step (notReindexing : env.fReindex = false) (stored : NamedState global)
    (present : empty.checkIfAssetExists env global name = true)
    (undoing : Undoing env txs cache) (notIssued : name ∉ issuedBy env txs)
    (notIssuedNow : name ∉ tx.issueNames env) (undo : UndoStep env global vUndoData tx cache issues)
    (records : next.records = issues.records)
    (metadata : cache.getAssetMetaDataIfExists global name =
      some (record.unreissued (firstUndo vUndoData name) (reissuesOf env name txs))) :
    next.getAssetMetaDataIfExists global name =
      some (record.unreissued (firstUndo vUndoData name) (reissuesOf env name (tx :: txs))) := by
  rw [getAssetMetaDataIfExists_records records]
  rcases undo with ⟨noReissue, withdrawn, _⟩ | ⟨reissue, address, reissues, undo⟩
  · rw [reissuesOf_cons_none noReissue, ← metadata]
    refine getAssetMetaDataIfExists_congr ?_ ?_ ?_ global
    · rw [withdrawn.reissued]
    · rw [withdrawn.kept name notIssuedNow]
    · rw [withdrawn.added, if_neg notIssuedNow]
  · rw [reissuesOf_cons_some reissues]
    rcases undo with ⟨_, prev, undone⟩ | ⟨absent, same⟩
    · have ownName : prev.strName = reissue.strName := undoing.named.metadata stored undone.found
      rw [getAssetMetaDataIfExists_reissue undone.records, ownName]
      by_cases same : name = reissue.strName
      · subst same
        have prevEq := Option.some.inj (undone.found.symm.trans metadata)
        rw [if_pos rfl, if_pos rfl, prevEq]
        rfl
      · rw [if_neg same, if_neg (Ne.symm same), metadata]
    · subst same
      have other : reissue.strName ≠ name := by
        rintro rfl
        rw [checkIfAssetExists_iff notReindexing] at present
        obtain ⟨_, kept, added | recorded⟩ := present
        · cases added
        · have exists' := (checkIfAssetExists_iff notReindexing).mpr
            ⟨not_isSome_iff_eq_none.mp (mt (undoing.removed _).mp notIssued), kept,
              .inr recorded⟩
          rw [absent] at exists'
          cases exists'
      rw [if_neg other, metadata]

end

section

variable {env : Env} {state : AssetState} {cache : AssetsCache} {name : Bytes}

theorem flush_metadata (state : AssetState) (added : cache.setNewAssetsToAdd.lookup name = none)
    (removed : cache.setNewAssetsToRemove.lookup name = none) :
    empty.getAssetMetaDataIfExists (state.flush cache) name =
      cache.getAssetMetaDataIfExists state name := by
  unfold getAssetMetaDataIfExists getAssetMetaData flush
  dsimp only
  rw [flushInto_reissued, flushInto_removed, flushInto_added, added, removed]
  cases cache.mapReissuedAssetData.lookup name with
  | some record => rfl
  | none =>
    simp only [empty, AList.lookup_empty, none_or, or_none,
      isSome_none, Bool.false_eq_true, if_false]

theorem flush_exists (notReindexing : env.fReindex = false) (state : AssetState)
    (added : cache.setNewAssetsToAdd.lookup name = none)
    (removed : cache.setNewAssetsToRemove.lookup name = none) :
    empty.checkIfAssetExists env (state.flush cache) name =
      empty.checkIfAssetExists env state name := by
  rw [Bool.eq_iff_iff, checkIfAssetExists_iff notReindexing, checkIfAssetExists_iff notReindexing]
  unfold Recorded flush
  dsimp only
  rw [flushInto_removed, flushInto_added, added, removed, or_none, or_none]
  rfl

theorem metadata_of_absent (notReindexing : env.fReindex = false)
    (absent : empty.checkIfAssetExists env state name = false) :
    empty.getAssetMetaDataIfExists state name = state.passets.mapReissuedAssetData.lookup name := by
  unfold checkIfAssetExists at absent
  unfold getAssetMetaDataIfExists getAssetMetaData
  simp only [notReindexing, Bool.false_eq_true, if_false, empty, AList.lookup_empty,
    isSome_none] at absent ⊢
  cases state.passets.mapReissuedAssetData.lookup name with
  | some record => rfl
  | none =>
    cases gone : state.passets.setNewAssetsToRemove.lookup name with
    | some entry => rfl
    | none =>
      simp only [gone, isSome_none, Bool.false_eq_true, if_false] at absent ⊢
      cases added : state.passets.setNewAssetsToAdd.lookup name with
      | some entry => simp [added] at absent
      | none =>
        simp only [added, isSome_none, Bool.false_eq_true, if_false,
          LruCache.exists?] at absent
        cases cached : state.passetsCache.get? name with
        | some data => simp [cached] at absent
        | none =>
          simp only [cached, isSome_none, Bool.false_eq_true, if_false,
            isSome_eq_false_iff, isNone_iff_eq_none] at absent
          simp [absent]

theorem exists_of_withdrawn (notReindexing : env.fReindex = false) (state : AssetState)
    (removed : (cache.setNewAssetsToRemove.lookup name).isSome) :
    empty.checkIfAssetExists env (state.flush cache) name = false := by
  rw [← Bool.not_eq_true, checkIfAssetExists_iff notReindexing]
  rintro ⟨_, kept, _⟩
  unfold flush at kept
  dsimp only at kept
  rw [flushInto_removed, or_eq_none_iff] at kept
  rw [kept.2] at removed
  cases removed

end

def SameRecords (env : Env) (state other : AssetState) : Prop :=
  ∀ name, AssetsCache.empty.checkIfAssetExists env other name =
      AssetsCache.empty.checkIfAssetExists env state name ∧
    AssetsCache.empty.getAssetMetaDataIfExists other name =
      AssetsCache.empty.getAssetMetaDataIfExists state name

/-- A state whose records are filed under their names and are as the checks leave them. -/
structure SoundState (state : AssetState) : Prop where
  named : NamedState state
  records : ∀ name record, AssetsCache.empty.getAssetMetaDataIfExists state name = some record →
    name ≠ [] ∧ record.Sound

/-- The undo data of a block gives the record of a name back: the name exists and is
reissuable, and its first reissue that leaves an undo item sets what any later one
changes. -/
def TakesBack (env : Env) (state : AssetState) (block : Block) (name : Bytes) : Prop :=
  AssetsCache.empty.checkIfAssetExists env state name = true ∧
  ∀ record, AssetsCache.empty.getAssetMetaDataIfExists state name = some record →
    let after := record.reissued (reissuesOf env name block.vtx)
    let first := firstChange env name block.vtx
    record.nReissuable = 1 ∧
    ((∃ change ∈ first, change.strIPFSHash ≠ []) ∨ after.strIPFSHash = record.strIPFSHash) ∧
    ((∃ change ∈ first, change.nUnits ≠ -1) ∨ after.units = record.units)

section

variable {env : Env} {rules : BlockRules} {state : AssetState} {mempool : MempoolMaps}
  {nHeight : Nat} {block : Block} {currentTime : Int} {coins : CoinsView} {connected : Connected}
  {name : Bytes} {record : NewAsset}

theorem connected_names (deployed : env.areAssetsDeployed = true)
    (notReindexing : env.fReindex = false) (notGenesis : block.hash ≠ rules.hashGenesisBlock)
    (bare : block.BareCoinbase env) (stored : NamedState state)
    (accepted : connectBlock env rules state mempool nHeight block currentTime ⟨coins, .empty⟩ =
      .ok connected) : Issuing env block.vtx connected.view.assets ∧
      (∀ name, (connected.view.assets.mapReissuedAssetData.lookup name).isSome ↔
        reissuesOf env name block.vtx ≠ []) ∧
      ∀ name, empty.checkIfAssetExists env state name = true →
        name ∉ issuedBy env block.vtx ∧ (name ≠ [] → ∀ record,
          empty.getAssetMetaDataIfExists state name = some record →
          Reissuing env state name record block.vtx connected.view.assets
            connected.vUndoAssetData) := by
  obtain ⟨final, inBlock, looped, _, rfl⟩ := connectBlock_ok notGenesis accepted
  refine connectTxs_scan deployed notReindexing (checkBlock_ok inBlock) bare (fun _ => id) looped
    (fun txs cache undo => Issuing env txs cache ∧
      (∀ name, (cache.mapReissuedAssetData.lookup name).isSome ↔ reissuesOf env name txs ≠ []) ∧
      ∀ name, empty.checkIfAssetExists env state name = true →
        name ∉ issuedBy env txs ∧ (name ≠ [] → ∀ record,
          empty.getAssetMetaDataIfExists state name = some record →
          Reissuing env state name record txs cache undo))
    ⟨Issuing.empty env, fun name => by simp [reissuesOf, empty],
      fun name _ => ⟨by simp [issuedBy], fun _ _ found => ⟨found, rfl⟩⟩⟩ ?_
  rintro pre tx post acc next issued item _ checked made ⟨issuing, reissued, known⟩
  obtain ⟨_, _, stages⟩ := checkTransaction_ok checked
  refine ⟨issuing.step stored checked made, fun name => reissued_iff_step (reissued name) made,
    fun name present => ?_⟩
  obtain ⟨earlier, reissuing⟩ := known name present
  refine ⟨?_, fun named record found => ?_⟩
  · rw [mem_issuedBy_append, mem_issuedBy_cons, ← mem_issueNames_iff stages.kind]
    exact not_or.mpr ⟨earlier, not_or.mpr
      ⟨made.not_issued notReindexing issuing present, by simp [issuedBy]⟩⟩
  · exact (reissuing named record found).step notReindexing named
      (Named.empty.metadata stored found) issuing present made

variable {cache : AssetsCache}

theorem namedState_flush (stored : NamedState state) (named : cache.Named) :
    NamedState (state.flush cache) :=
  ⟨named.flushInto stored.passets, stored.cached, stored.stored⟩

theorem recorded_of_issuing (state : AssetState) (issuing : Issuing env block.vtx cache)
    (issued : name ∈ issuedBy env block.vtx) :
    (state.flush cache).passets.setNewAssetsToRemove.lookup name = none ∧
      Recorded (state.flush cache) name := by
  have added := (issuing.added name).mpr issued
  unfold Recorded flush
  dsimp only
  rw [flushInto_removed, flushInto_added, issuing.removed, if_pos added]
  refine ⟨rfl, .inl ?_⟩
  simp [added]

variable {vtxundo : List (List Coin)} {vUndoData : List (Bytes × BlockAssetUndo)}
  {view : CoinsView} {disconnected : Disconnected}

theorem disconnected_undoing (deployed : env.areAssetsDeployed = true)
    (notReindexing : env.fReindex = false) (stored : NamedState state)
    (checked : checkBlock env rules block = .ok ()) (issuing : Issuing env block.vtx cache)
    (undone : disconnectBlock env (state.flush cache) nHeight block vtxundo vUndoData
      ⟨view, .empty⟩ = .ok disconnected) : Undoing env block.vtx disconnected.view.assets ∧
    ∀ name, empty.checkIfAssetExists env (state.flush cache) name = true →
      name ∉ issuedBy env block.vtx → ∀ record,
      empty.getAssetMetaDataIfExists (state.flush cache) name = some record →
      disconnected.view.assets.getAssetMetaDataIfExists (state.flush cache) name =
        some (record.unreissued (firstUndo vUndoData name) (reissuesOf env name block.vtx)) := by
  have flushed := namedState_flush stored issuing.named
  refine disconnectBlock_scan deployed undone
    (fun txs cache' => Undoing env txs cache' ∧
      ∀ name, empty.checkIfAssetExists env (state.flush cache) name = true →
        name ∉ issuedBy env block.vtx → ∀ record,
        empty.getAssetMetaDataIfExists (state.flush cache) name = some record →
        cache'.getAssetMetaDataIfExists (state.flush cache) name =
          some (record.unreissued (firstUndo vUndoData name) (reissuesOf env name txs)))
    ⟨Undoing.empty env, fun _ _ _ record found => found⟩ ?_
  rintro pre tx post cache' next issues split made ⟨undoing, metadata⟩
  have member : tx ∈ block.vtx := split ▸ mem_append_right pre mem_cons_self
  obtain ⟨_, _, stages⟩ := checkTransaction_ok (checkBlock_ok checked tx member)
  have kind := stages.kind
  have undo := undoStep_of_undone notReindexing kind undoing.added (fun name issued =>
    recorded_of_issuing state issuing (mem_flatMap.mpr ⟨tx, member, issued⟩)) made.undone
  refine ⟨undoing.step flushed kind undo made.records, ?_⟩
  intro name present notIssued record found
  rw [split, mem_issuedBy_append, mem_issuedBy_cons, not_or, not_or] at notIssued
  exact unreissuing_step notReindexing flushed present undoing notIssued.2.2
    (mt (mem_issueNames_iff kind).mp notIssued.2.1) undo made.records
    (metadata name present (by
      rw [split, mem_issuedBy_append, mem_issuedBy_cons, not_or, not_or]
      exact notIssued) record found)

theorem sameRecords_of_quiet (notReindexing : env.fReindex = false)
    {undone : AssetsCache} (issuing : Issuing env block.vtx cache)
    (reissued : (cache.mapReissuedAssetData.lookup name).isSome ↔
      reissuesOf env name block.vtx ≠ [])
    (undoing : Undoing env block.vtx undone) (quiet : reissuesOf env name block.vtx = [])
    (fresh : name ∈ issuedBy env block.vtx → empty.checkIfAssetExists env state name = false) :
    empty.checkIfAssetExists env ((state.flush cache).flush undone) name =
        empty.checkIfAssetExists env state name ∧
      empty.getAssetMetaDataIfExists ((state.flush cache).flush undone) name =
        empty.getAssetMetaDataIfExists state name := by
  have noRecord : cache.mapReissuedAssetData.lookup name = none := by
    rw [← not_isSome_iff_eq_none, reissued]
    exact not_not.mpr quiet
  by_cases issued : name ∈ issuedBy env block.vtx
  · have absent := fresh issued
    have absentAfter := exists_of_withdrawn notReindexing (state.flush cache)
      ((undoing.removed name).mpr issued)
    refine ⟨absentAfter.trans absent.symm, ?_⟩
    rw [metadata_of_absent notReindexing absent, metadata_of_absent notReindexing absentAfter]
    unfold flush
    dsimp only
    rw [flushInto_reissued, flushInto_reissued, undoing.reissued name quiet, noRecord]
    rfl
  · have notAdded := not_isSome_iff_eq_none.mp (mt (issuing.added name).mp issued)
    have notRemoved := not_isSome_iff_eq_none.mp (mt (undoing.removed name).mp issued)
    refine ⟨?_, ?_⟩
    · rw [flush_exists notReindexing _ (undoing.added name) notRemoved,
        flush_exists notReindexing state notAdded (issuing.removed name)]
    · have undoneSame : undone.getAssetMetaDataIfExists (state.flush cache) name =
          empty.getAssetMetaDataIfExists (state.flush cache) name :=
        getAssetMetaDataIfExists_congr (undoing.reissued name quiet) notRemoved (undoing.added name) _
      rw [flush_metadata _ (undoing.added name) notRemoved, undoneSame,
        flush_metadata state notAdded (issuing.removed name)]
      exact getAssetMetaDataIfExists_congr noRecord (issuing.removed name) notAdded state

theorem sameRecords_of_reissued (deployed : env.areAssetsDeployed = true)
    (notReindexing : env.fReindex = false) (notGenesis : block.hash ≠ rules.hashGenesisBlock)
    (bare : block.BareCoinbase env) (sound : SoundState state)
    (present : empty.checkIfAssetExists env state name = true)
    (found : empty.getAssetMetaDataIfExists state name = some record)
    (someReissue : reissuesOf env name block.vtx ≠ [])
    (accepted : connectBlock env rules state mempool nHeight block currentTime ⟨coins, .empty⟩ =
      .ok connected) (undone : disconnectBlock env (state.flush connected.view.assets) nHeight block
      connected.vtxundo connected.vUndoAssetData ⟨connected.view.coins, .empty⟩ =
      .ok disconnected) : empty.checkIfAssetExists env
        ((state.flush connected.view.assets).flush disconnected.view.assets) name = true ∧
      (empty.getAssetMetaDataIfExists
        ((state.flush connected.view.assets).flush disconnected.view.assets) name = some record ↔
        TakesBack env state block name) := by
  obtain ⟨issuing, _, known⟩ := connected_names deployed notReindexing notGenesis bare sound.named
    accepted
  obtain ⟨_, checked, _, _, _⟩ := connectBlock_ok notGenesis accepted
  obtain ⟨undoing, metadata⟩ := disconnected_undoing deployed notReindexing sound.named checked
    issuing undone
  obtain ⟨nonempty, soundRecord⟩ := sound.records name record found
  obtain ⟨notIssued, reissues⟩ := known name present
  have reissuing := reissues nonempty record found
  have notAdded := not_isSome_iff_eq_none.mp (mt (issuing.added name).mp notIssued)
  have notRemoved := not_isSome_iff_eq_none.mp (mt (undoing.removed name).mp notIssued)
  have presentFlushed := (flush_exists notReindexing state notAdded
    (issuing.removed name)).trans present
  have foundFlushed := (flush_metadata state notAdded (issuing.removed name)).trans
    reissuing.metadata
  refine ⟨(flush_exists notReindexing _ (undoing.added name) notRemoved).trans presentFlushed, ?_⟩
  rw [flush_metadata _ (undoing.added name) notRemoved,
    metadata name presentFlushed notIssued _ foundFlushed, Option.some.injEq,
    unreissued_reissued_iff soundRecord someReissue, reissuing.undoes.hash_iff,
    reissuing.undoes.units_iff]
  constructor
  · intro restored
    refine ⟨present, fun other foundOther => ?_⟩
    cases found.symm.trans foundOther
    exact restored
  · rintro ⟨_, restored⟩
    exact restored record found

theorem metadata_of_reissued {state' : AssetState} (undone : AssetsCache)
    (reissued : (state'.passets.mapReissuedAssetData.lookup name).isSome) :
    (empty.getAssetMetaDataIfExists (state'.flush undone) name).isSome := by
  obtain ⟨record, found⟩ := isSome_iff_exists.mp reissued
  unfold getAssetMetaDataIfExists getAssetMetaData flush
  dsimp only
  rw [flushInto_reissued, found]
  cases undone.mapReissuedAssetData.lookup name <;> rfl

end

/-- Without the balance index a connected block can be disconnected.  A disconnect
restores existence and metadata of every asset when each name the block reissues is
taken back by its undo data, and, where only existing assets have records, in no
other case. -/
theorem disconnect_restores_records_iff (env : Env) (rules : BlockRules) (state : AssetState)
    (mempool : MempoolMaps) (nHeight : Nat) (block : Block) (currentTime : Int) (coins : CoinsView)
    (connected : Connected) (deployed : env.areAssetsDeployed = true)
    (notReindexing : env.fReindex = false) (notGenesis : block.hash ≠ rules.hashGenesisBlock)
    (bare : block.BareCoinbase env) (sound : SoundState state)
    (accepted : connectBlock env rules state mempool nHeight block currentTime ⟨coins, .empty⟩ =
      .ok connected) :
    (env.fAssetIndex = false → nHeight ≠ 0 → (coins.All fun coin => coin.nHeight ≠ 0) →
      ∃ disconnected, disconnectBlock env (state.flush connected.view.assets) nHeight block
        connected.vtxundo connected.vUndoAssetData ⟨connected.view.coins, .empty⟩ =
        .ok disconnected) ∧
    ∀ disconnected, disconnectBlock env (state.flush connected.view.assets) nHeight block
        connected.vtxundo connected.vUndoAssetData ⟨connected.view.coins, .empty⟩ =
        .ok disconnected →
      ((∀ name, reissuesOf env name block.vtx ≠ [] → TakesBack env state block name) →
        SameRecords env state
          ((state.flush connected.view.assets).flush disconnected.view.assets)) ∧
      ((∀ name record, AssetsCache.empty.getAssetMetaDataIfExists state name = some record →
          AssetsCache.empty.checkIfAssetExists env state name = true) → SameRecords env state
          ((state.flush connected.view.assets).flush disconnected.view.assets) →
        ∀ name, reissuesOf env name block.vtx ≠ [] → TakesBack env state block name) := by
  refine ⟨fun noIndex aboveGenesis heights => disconnectBlock_passes deployed notReindexing noIndex
    notGenesis bare aboveGenesis heights accepted _ _ _, fun disconnected undone => ?_⟩
  obtain ⟨issuing, reissued, existing⟩ := connected_names deployed notReindexing notGenesis bare
    sound.named accepted
  obtain ⟨_, checked, _, _, _⟩ := connectBlock_ok notGenesis accepted
  obtain ⟨undoing, _⟩ := disconnected_undoing deployed notReindexing sound.named checked issuing
    undone
  constructor
  · intro takesBack name
    by_cases quiet : reissuesOf env name block.vtx = []
    · refine sameRecords_of_quiet notReindexing issuing (reissued name) undoing quiet fun issued => ?_
      rw [← Bool.not_eq_true]
      exact fun present => (existing name present).1 issued
    · have back := takesBack name quiet
      obtain ⟨record, found⟩ := isSome_iff_exists.mp (metadata_of_exists notReindexing back.1)
      obtain ⟨present, restored⟩ := sameRecords_of_reissued deployed notReindexing notGenesis bare
        sound back.1 found quiet accepted undone
      exact ⟨present.trans back.1.symm, (restored.mpr back).trans found.symm⟩
  · intro known same name someReissue
    by_cases present : empty.checkIfAssetExists env state name = true
    · obtain ⟨record, found⟩ := isSome_iff_exists.mp (metadata_of_exists notReindexing present)
      have restored := (sameRecords_of_reissued deployed notReindexing notGenesis bare sound present
        found someReissue accepted undone).2
      exact restored.mp ((same name).2.trans found)
    · -- a reissued name that did not exist keeps the record of its reissue
      have noRecord : empty.getAssetMetaDataIfExists state name = none := by
        cases found : empty.getAssetMetaDataIfExists state name with
        | none => rfl
        | some record => exact absurd (known name record found) present
      have inFlushed : ((state.flush connected.view.assets).passets.mapReissuedAssetData.lookup
          name).isSome := by
        unfold flush
        dsimp only
        rw [flushInto_reissued, isSome_or, (reissued name).mpr someReissue, Bool.true_or]
      have left := metadata_of_reissued disconnected.view.assets inFlushed
      rw [(same name).2, noRecord] at left
      cases left

namespace RecordUndo

open MainNet

def token : Bytes := ascii "TOKEN"

def ipfs : Bytes := [ipfsSha2, ipfsSha2Len] ++ List.replicate 32 7

/-- `TOKEN` with the given reissuable field. -/
def record (nReissuable : Int) : NewAsset := ⟨token, 1000 * coin, 0, nReissuable, 0, []⟩

def wallet : CoinsView :=
  coins [(⟨1, 0⟩, pay coin alice), (⟨1, 1⟩, transfer (ascii "TOKEN!") coin)]

def reissuance (change : ReissueAsset) : Block := block 7
  [transaction 2 [⟨1, 0⟩, ⟨1, 1⟩]
    [pay (coin / 10) burnKey, pay (coin / 2) alice, transfer (ascii "TOKEN!") coin, reissue change]]

def roundTrip (state : AssetState) (block : Block) : Check (Connected × Disconnected) := do
  let connected ← connectBlock env rules state .empty 10 block 0 ⟨wallet, .empty⟩
  let disconnected ← disconnectBlock env (state.flush connected.view.assets) 10 block
    connected.vtxundo connected.vUndoAssetData ⟨connected.view.coins, .empty⟩
  return (connected, disconnected)

theorem roundTrip_ok {state : AssetState} {block : Block} {connected : Connected}
    {disconnected : Disconnected} (trip : roundTrip state block = .ok (connected, disconnected)) :
    connectBlock env rules state .empty 10 block 0 ⟨wallet, .empty⟩ = .ok connected ∧
      disconnectBlock env (state.flush connected.view.assets) 10 block connected.vtxundo
        connected.vUndoAssetData ⟨connected.view.coins, .empty⟩ = .ok disconnected := by
  unfold roundTrip at trip
  obtain ⟨connected', connects, disconnected', disconnects, trip⟩ := ok_bind₂ trip
  obtain ⟨rfl, rfl⟩ := Prod.mk.inj (pure_eq_ok.mp trip)
  exact ⟨connects, disconnects⟩

theorem stored_recording (asset : NewAsset) (name : Bytes) :
    (recording [asset]).passetsdb.assetData.lookup name =
      if name = asset.strName then some ⟨asset, 1, 1⟩ else none :=
  lookup_insert_ite (∅ : KeyedMap Bytes DatabasedAssetData) asset.strName name ⟨asset, 1, 1⟩

theorem metadata_recording (asset : NewAsset) (name : Bytes) :
    empty.getAssetMetaDataIfExists (recording [asset]) name =
      if name = asset.strName then some asset else none := by
  have stored : empty.getAssetMetaDataIfExists (recording [asset]) name =
      ((recording [asset]).passetsdb.assetData.lookup name).map DatabasedAssetData.asset := rfl
  rw [stored, stored_recording]
  split <;> rfl

theorem soundState_recording {asset : NewAsset} (named : asset.strName ≠ []) (sound : asset.Sound) :
    SoundState (recording [asset]) where
  named := {
    passets := Named.empty
    cached := fun _ _ found => by cases found
    stored := fun name data found => by
      rw [stored_recording] at found
      split at found
      · rename_i same
        cases found
        exact same.symm
      · cases found }
  records name record found := by
    rw [metadata_recording] at found
    split at found
    · rename_i same
      cases found
      exact ⟨same ▸ named, sound⟩
    · cases found

def names (block : Block) : List Bytes :=
  block.vtx.filterMap fun tx => (tx.reissuance env).map fun read => read.1.strName

theorem mem_names {block : Block} {name : Bytes} (reissued : reissuesOf env name block.vtx ≠ []) :
    name ∈ names block := by
  obtain ⟨change, member⟩ := exists_mem_of_ne_nil _ reissued
  obtain ⟨tx, inBlock, made⟩ := mem_filterMap.mp member
  cases reissues : tx.reissuance env with
  | none => simp [reissues] at made
  | some read =>
    simp only [reissues, ite_none_right_eq_some] at made
    exact mem_filterMap.mpr ⟨tx, inBlock, by simp [reissues, made.1]⟩

def growth : Block := reissuance ⟨token, 10 * coin, 2, 1, ipfs⟩

theorem disconnect_restores_records_iff_growth : ∃ connected disconnected,
    roundTrip (recording [record 1]) growth = .ok (connected, disconnected) ∧
    SameRecords env (recording [record 1])
      (((recording [record 1]).flush connected.view.assets).flush disconnected.view.assets) := by
  have passes : (roundTrip (recording [record 1]) growth).passed = true := by decide +kernel
  obtain ⟨⟨connected, disconnected⟩, trip⟩ := passed_iff.mp passes
  obtain ⟨accepted, undone⟩ := roundTrip_ok trip
  have restores := (disconnect_restores_records_iff env rules (recording [record 1]) .empty 10 growth
    0 wallet connected rfl rfl (by decide) (by decide)
    (soundState_recording (by decide) ⟨by decide, .inl ⟨rfl, rfl⟩⟩) accepted).2 disconnected undone
  refine ⟨connected, disconnected, trip, restores.1 fun name reissued => ?_⟩
  have onlyToken : names growth = [token] := by decide +kernel
  obtain rfl : name = token := by simpa [onlyToken] using mem_names reissued
  refine ⟨by decide +kernel, fun found lookup => ?_⟩
  have same : found = record 1 := by simpa [metadata_recording, record] using lookup.symm
  subst same
  decide +kernel

/-- Only the hash of an asset that cannot be reissued is set; the disconnect makes it
reissuable. -/
theorem disconnect_changes_record : ∃ connected disconnected,
    roundTrip (recording [record 0]) (reissuance ⟨token, 0, -1, 0, ipfs⟩) =
      .ok (connected, disconnected) ∧ ¬ SameRecords env (recording [record 0])
      (((recording [record 0]).flush connected.view.assets).flush disconnected.view.assets) := by
  have observed : ((roundTrip (recording [record 0])
      (reissuance ⟨token, 0, -1, 0, ipfs⟩)).toOption.bind fun trip =>
        empty.getAssetMetaDataIfExists
          (((recording [record 0]).flush trip.1.view.assets).flush trip.2.view.assets) token) =
      some (record 1) := by
    decide +kernel
  obtain ⟨⟨connected, disconnected⟩, trip, after⟩ := bind_eq_some_iff.mp observed
  refine ⟨connected, disconnected, toOption_eq_some.mp trip, fun same => ?_⟩
  have before : empty.getAssetMetaDataIfExists (recording [record 0]) token =
      some (record 0) := by decide +kernel
  rw [(same token).2, before] at after
  exact absurd after (by decide)

end RecordUndo

end Phicoin
