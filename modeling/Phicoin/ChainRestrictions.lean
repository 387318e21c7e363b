import Phicoin.Existence
import Phicoin.Disconnectable
import Phicoin.RestrictionStores

/-! # Freezes and verifier strings of a chain

The freezes of addresses and assets and the verifier strings that the transactions
of a chain make, replayed in order, and what connecting and disconnecting a
transaction does to the layers that hold them. -/

namespace Phicoin

open Check KeyedMap AssetsCache List Option Transaction

namespace NullChange

def freeze? : NullChange → Option ((Bytes × Bytes) × RestrictedType)
  | .freeze name address type => some ((name, address), type)
  | .tag _ _ _ | .freezeAll _ _ => none

def freezeAll? : NullChange → Option (Bytes × RestrictedType)
  | .freezeAll name type => some (name, type)
  | .tag _ _ _ | .freeze _ _ _ => none

end NullChange

namespace Transaction

variable (env : Env) (tx : Transaction)

def freezes : List ((Bytes × Bytes) × RestrictedType) :=
  (tx.nullChanges env).filterMap NullChange.freeze?

def globalFreezes : List (Bytes × RestrictedType) :=
  (tx.nullChanges env).filterMap NullChange.freezeAll?

def reissuedVerifier : Option (Bytes × Bytes) :=
  (tx.reissuance env).bind fun made =>
    (tx.changedVerifier made.1.strName).map fun verifier => (made.1.strName, verifier)

def verifierChange : Option (Bytes × Bytes) := (tx.issuedVerifier env).or (tx.reissuedVerifier env)

def verifiers : List (Bytes × CachedVerifier) :=
  (tx.verifierChange env).toList.map fun change => (change.1, ⟨change.2, false⟩)

def touches (name : Bytes) : Bool :=
  (tx.issueNames env).contains name ||
    (tx.reissuance env).any fun made => made.1.strName = name

end Transaction

/-! ## Replaying a chain

The blocks of a chain are given by their transactions, newest block first. -/

section

variable (env : Env) (blocks : List (List Transaction))

def frozenOn : Bytes × Bytes → Bool :=
  Pending.replay freezeReading (fun _ => false)
    (blocks.map fun txs => txs.flatMap (Transaction.freezes env))

def frozenAllOn : Bytes → Bool :=
  Pending.replay globalReading (fun _ => false)
    (blocks.map fun txs => txs.flatMap (Transaction.globalFreezes env))

def verifierOn : Bytes → Option Bytes :=
  Pending.replay verifierReading (fun _ => none)
    (blocks.map fun txs => txs.flatMap (Transaction.verifiers env))

end

def transactionsOf (chain : List Block) : List (List Transaction) := chain.map Block.vtx

namespace RestrictionLayer

variable (layer : RestrictionLayer)

theorem trackRoot_freezes (name address : Bytes) (assigned : Bool) :
    (layer.trackRoot name address assigned).freezes = layer.freezes ∧
      (layer.trackRoot name address assigned).globalFreezes = layer.globalFreezes ∧
      (layer.trackRoot name address assigned).verifiers = layer.verifiers := by
  unfold trackRoot
  split
  · cases assigned <;> exact ⟨rfl, rfl, rfl⟩
  · exact ⟨rfl, rfl, rfl⟩

theorem foldl_pending {K E : Type} {pending : RestrictionLayer → Pending K E}
    {step : RestrictionLayer → NullChange → RestrictionLayer}
    {pick : NullChange → Option (K × E)} {op : Pending K E → K × E → Pending K E}
    (spec : ∀ layer change, pending (step layer change) =
      (pick change).elim (pending layer) (op (pending layer))) (changes : List NullChange) :
    pending (changes.foldl step layer) = (changes.filterMap pick).foldl op (pending layer) := by
  induction changes generalizing layer with
  | nil => rfl
  | cons change rest ih =>
    rw [foldl_cons, ih, spec, filterMap_cons]
    cases pick change <;> rfl

section

variable (changes : List NullChange)

include changes

theorem apply_freezes : (changes.foldl apply layer).freezes =
      layer.freezes.makeAll (changes.filterMap NullChange.freeze?) := by
  refine foldl_pending layer (fun layer change => ?_) changes
  cases change with
  | tag name address type => exact (trackRoot_freezes layer name address _).1
  | freeze => rfl
  | freezeAll => rfl

theorem apply_globalFreezes : (changes.foldl apply layer).globalFreezes =
      layer.globalFreezes.makeAll (changes.filterMap NullChange.freezeAll?) := by
  refine foldl_pending layer (fun layer change => ?_) changes
  cases change with
  | tag name address type => exact (trackRoot_freezes layer name address _).2.1
  | freeze => rfl
  | freezeAll => rfl

theorem apply_verifiers : (changes.foldl apply layer).verifiers = layer.verifiers := by
  refine foldlRecOn (motive := fun acc : RestrictionLayer => acc.verifiers = layer.verifiers)
    _ _ rfl fun acc before change _ => Eq.trans ?_ before
  cases change with
  | tag name address type => exact (trackRoot_freezes acc name address _).2.2
  | freeze => rfl
  | freezeAll => rfl

theorem revert_freezes : (changes.foldl revert layer).freezes =
      (changes.filterMap NullChange.freeze?).foldl (fun acc change => acc.undo change.1 change.2)
        layer.freezes := by
  refine foldl_pending layer (fun layer change => ?_) changes
  cases change with
  | tag name address type => exact (trackRoot_freezes layer name address _).1
  | freeze => rfl
  | freezeAll => rfl

theorem revert_globalFreezes : (changes.foldl revert layer).globalFreezes =
      (changes.filterMap NullChange.freezeAll?).foldl
        (fun acc change => acc.undo change.1 change.2) layer.globalFreezes := by
  refine foldl_pending layer (fun layer change => ?_) changes
  cases change with
  | tag name address type => exact (trackRoot_freezes layer name address _).2.1
  | freeze => rfl
  | freezeAll => rfl

theorem revert_verifiers : (changes.foldl revert layer).verifiers = layer.verifiers := by
  refine foldlRecOn (motive := fun acc : RestrictionLayer => acc.verifiers = layer.verifiers)
    _ _ rfl fun acc before change _ => Eq.trans ?_ before
  cases change with
  | tag name address type => exact (trackRoot_freezes acc name address _).2.2
  | freeze => rfl
  | freezeAll => rfl

end

theorem setVerifier_verifiers {name : Bytes} (absent : layer.verifiers.made.lookup name = none)
    (verifier : Bytes) :
    (layer.setVerifier name verifier).verifiers = layer.verifiers.make name ⟨verifier, false⟩ :=
  congrArg (Pending.mk (layer.verifierRemoved.erase name)) (insertNew_of_none absent _)

theorem unsetVerifier_verifiers {name : Bytes}
    (absent : layer.verifiers.undone.lookup name = none) (entry : CachedVerifier) :
    (layer.unsetVerifier name entry).verifiers = layer.verifiers.undo name entry :=
  congrArg (Pending.mk · (layer.verifierAdded.erase name)) (insertNew_of_none absent entry)

theorem changeVerifier_freezes (name : Bytes) (verifier : Option Bytes) :
    (layer.changeVerifier name verifier).freezes = layer.freezes ∧
      (layer.changeVerifier name verifier).globalFreezes = layer.globalFreezes := by
  cases verifier <;> exact ⟨rfl, rfl⟩

theorem undoVerifier_freezes (name : Bytes) (undo : Option BlockAssetUndo) :
    (layer.undoVerifier name undo).freezes = layer.freezes ∧
      (layer.undoVerifier name undo).globalFreezes = layer.globalFreezes := by
  unfold undoVerifier
  split
  · split <;> exact ⟨rfl, rfl⟩
  · exact ⟨rfl, rfl⟩

end RestrictionLayer

section

variable {env : Env} {tx : Transaction} {use : RestrictedUse} {name verifier : Bytes}

theorem accepts_restricted {accepted : AssetType → Bool} {script : Bytes} {asset : NewAsset}
    {address : Bytes} (isNew : isScriptNewAssetOf accepted env script = true)
    (read : assetFromScript env script = some (asset, address))
    (restricted : assetNameType asset.strName = .restricted) : accepted .restricted = true := by
  obtain ⟨_, _, type, again, valid, accepts⟩ := isScriptNewAssetOf_iff.mp isNew
  cases read.symm.trans again
  rw [assetNameType_of_valid valid] at restricted
  rwa [← restricted]

theorem kind_of_restricted (issued : name ∈ tx.issueNames env)
    (restricted : assetNameType name = .restricted) : tx.kind env = .restricted := by
  obtain ⟨⟨asset, address⟩, member, rfl⟩ := List.mem_map.mp issued
  unfold Transaction.issues at member
  cases kind : tx.kind env <;> simp only [kind, Option.mem_toList, List.not_mem_nil] at member
  case restricted => rfl
  case issue =>
    exact absurd restricted (isNewAsset_type (isNewAsset_of_kind kind) member).2
  case unique =>
    obtain ⟨out, _, read⟩ := List.mem_filterMap.mp member
    unfold Transaction.uniqueIssue at read
    split at read
    · rename_i isNew
      cases accepts_restricted isNew read restricted
    · cases read
  all_goals
    unfold Transaction.kind at kind
    split_ifs at kind with _ _ _ isNew isNew
    cases accepts_restricted ((Bool.and_eq_true _ _).mp isNew).2 member restricted

theorem firstVerifier_of_verified (verified : tx.verifyNewRestrictedAsset env = .ok ()) :
    ∃ read, firstVerifier tx = some read := by
  obtain ⟨_, required⟩ := required_of_verified verified
  obtain ⟨out, member, isVerifier⟩ := verifierOutput_of_required required
  have found : (tx.vout.find? fun out => isNullAssetVerifierTxDataScript out.scriptPubKey).isSome :=
    find?_isSome.mpr ⟨out, member, isVerifier⟩
  obtain ⟨first, found⟩ := isSome_iff_exists.mp found
  exact ⟨_, by rw [firstVerifier, found]; rfl⟩

theorem issuedVerifier_of_restricted (checked : checkTransactionKind env tx = .ok use)
    (issued : name ∈ tx.issueNames env) (restricted : assetNameType name = .restricted) :
    ∃ verifier, tx.issuedVerifier env = some (name, verifier) := by
  have kind := kind_of_restricted issued restricted
  have branch := checkTransactionKind_ok checked
  rw [kind] at branch
  obtain ⟨read, first⟩ := firstVerifier_of_verified branch.1
  obtain ⟨asset, inIssues, named⟩ := mem_map.mp issued
  rw [issues, kind] at inIssues
  refine ⟨read.getD [], ?_⟩
  simp [issuedVerifier, kind, first, mem_toList.mp inIssues, named]

theorem issued_of_issuedVerifier (checked : checkTransactionKind env tx = .ok use)
    (verified : tx.issuedVerifier env = some (name, verifier)) :
    name ∈ tx.issueNames env ∧ tx.kind env = .restricted := by
  unfold issuedVerifier at verified
  split at verified
  · rename_i kind
    obtain ⟨asset, address, read⟩ := (readable_of_kind checked).single (.inr (.inr (.inr kind)))
    obtain ⟨first, _, made⟩ := map_eq_some_iff.mp verified
    obtain ⟨rfl, _⟩ := Prod.mk.inj made
    refine ⟨?_, kind⟩
    simp [issueNames, issues, kind, read]
  · cases verified

theorem reissuedVerifier_eq_some : tx.reissuedVerifier env = some (name, verifier) ↔
    ∃ reissue address, tx.reissuance env = some (reissue, address) ∧ reissue.strName = name ∧
      tx.changedVerifier name = some verifier := by
  unfold reissuedVerifier
  constructor
  · intro made
    obtain ⟨⟨reissue, address⟩, reissues, changed⟩ := bind_eq_some_iff.mp made
    obtain ⟨found, read, same⟩ := map_eq_some_iff.mp changed
    obtain ⟨rfl, rfl⟩ := Prod.mk.inj same
    exact ⟨reissue, address, reissues, rfl, read⟩
  · rintro ⟨reissue, address, reissues, rfl, changed⟩
    simp [reissues, changed]

theorem restricted_of_changedVerifier (changed : tx.changedVerifier name = some verifier) :
    assetNameType name = .restricted := by
  by_contra other
  rw [changedVerifier, if_neg other] at changed
  cases changed

theorem issuedVerifier_of_reissuance {made : ReissueAsset × Bytes}
    (reissues : tx.reissuance env = some made) : tx.issuedVerifier env = none := by
  rw [issuedVerifier, kind_of_reissuance reissues]

theorem reissuedVerifier_of_none (noReissue : tx.reissuance env = none) :
    tx.reissuedVerifier env = none := by
  rw [reissuedVerifier, noReissue]
  rfl

theorem withdrawnVerifier_names {global : AssetState} {vUndoData : List (Bytes × BlockAssetUndo)}
    {cache issues : AssetsCache} (checked : checkTransactionKind env tx = .ok use)
    (undone : undoIssues env global vUndoData cache tx = .ok issues) :
    (tx.withdrawnVerifier env).map Prod.fst = (tx.issuedVerifier env).map Prod.fst := by
  by_cases kind : tx.kind env = .restricted
  · have branch := checkTransactionKind_ok checked
    rw [kind] at branch
    obtain ⟨_, first⟩ := firstVerifier_of_verified branch.1
    rw [undoIssues_eq, kind] at undone
    obtain ⟨_, _, script, last, _⟩ := ok_bind₂ undone
    simp [withdrawnVerifier, issuedVerifier, kind, first,
      require?_eq_ok.mp last]
  · have none : tx.withdrawnVerifier env = none ∧ tx.issuedVerifier env = none := by
      unfold withdrawnVerifier issuedVerifier
      constructor <;> split <;> first | exact absurd ‹_› kind | rfl
    rw [none.1, none.2]

theorem touches_of_reissuance {reissue : ReissueAsset} {address : Bytes}
    (reissues : tx.reissuance env = some (reissue, address)) :
    tx.touches env reissue.strName = true := by
  simp [touches, reissues]

theorem touches_of_issued (issued : name ∈ tx.issueNames env) : tx.touches env name = true := by
  simp [touches, issued]

theorem mem_verifierNames {txs : List Transaction} :
    name ∈ (txs.flatMap (verifiers env)).map Prod.fst ↔
      ∃ tx ∈ txs, ∃ verifier, tx.verifierChange env = some (name, verifier) := by
  simp [verifiers, mem_flatMap]

theorem verifierChange_cases (made : tx.verifierChange env = some (name, verifier)) :
    tx.issuedVerifier env = some (name, verifier) ∨
      tx.reissuedVerifier env = some (name, verifier) :=
  (or_eq_some_iff.mp made).imp id And.right

end

/-- A transaction that reissues an asset with a verifier string is the only one of its
block that issues or reissues the asset. -/
def Block.singleVerifier (env : Env) (block : Block) : Bool :=
  block.vtx.all fun tx =>
    match tx.reissuedVerifier env with
    | some (name, _) => (block.vtx.filter (Transaction.touches env · name)).length ≤ 1
    | none => true

section

variable {env : Env} {block : Block} {pre post : List Transaction} {tx : Transaction}
  {name verifier : Bytes}

theorem Block.alone (single : block.singleVerifier env = true)
    (split : block.vtx = pre ++ tx :: post)
    (made : tx.reissuedVerifier env = some (name, verifier)) :
    (∀ other ∈ pre, other.touches env name = false) ∧
      ∀ other ∈ post, other.touches env name = false := by
  obtain ⟨reissue, address, reissues, rfl, _⟩ := reissuedVerifier_eq_some.mp made
  have member : tx ∈ block.vtx := split ▸ mem_append_right pre mem_cons_self
  have few := all_eq_true.mp single tx member
  simp only [made, decide_eq_true_eq] at few
  have own := touches_of_reissuance reissues
  rw [split, filter_append, filter_cons, if_pos own, length_append,
    length_cons] at few
  have empty : (pre.filter (touches env · reissue.strName)).length = 0 ∧
      (post.filter (touches env · reissue.strName)).length = 0 := by omega
  constructor
  · intro other inPre
    simpa using filter_eq_nil_iff.mp (length_eq_zero_iff.mp empty.1) other inPre
  · intro other inPost
    simpa using filter_eq_nil_iff.mp (length_eq_zero_iff.mp empty.2) other inPost

theorem Block.verifier_first (single : block.singleVerifier env = true)
    (checked : ∀ tx ∈ block.vtx, ∃ use, checkTransactionKind env tx = .ok use)
    (split : block.vtx = pre ++ tx :: post)
    (fresh : ∀ name ∈ tx.issuedNames env, name ∉ issuedBy env pre)
    (made : tx.verifierChange env = some (name, verifier)) :
    name ∉ (pre.flatMap (verifiers env)).map Prod.fst := by
  intro earlier
  obtain ⟨other, inPre, _, otherMade⟩ := mem_verifierNames.mp earlier
  obtain ⟨use, kind⟩ := checked tx (split ▸ mem_append_right pre mem_cons_self)
  obtain ⟨_, otherKind⟩ := checked other (split ▸ mem_append_left _ inPre)
  have touched : other.touches env name = true := by
    rcases verifierChange_cases otherMade with issued | reissued
    · exact touches_of_issued (issued_of_issuedVerifier otherKind issued).1
    · obtain ⟨_, _, reissues, rfl, _⟩ := reissuedVerifier_eq_some.mp reissued
      exact touches_of_reissuance reissues
  rcases verifierChange_cases made with issued | reissued
  · have issues := (issued_of_issuedVerifier kind issued).1
    rcases verifierChange_cases otherMade with otherIssued | otherReissued
    · refine fresh name ((mem_issueNames_iff kind).mp issues) (mem_flatMap.mpr ⟨other, inPre, ?_⟩)
      exact (mem_issueNames_iff otherKind).mp (issued_of_issuedVerifier otherKind otherIssued).1
    · obtain ⟨front, back, rfl⟩ := append_of_mem inPre
      have whole : block.vtx = front ++ other :: (back ++ tx :: post) := by simp [split]
      have alone := (Block.alone single whole otherReissued).2 tx (by simp)
      rw [touches_of_issued issues] at alone
      cases alone
  · rw [(Block.alone single split reissued).1 other inPre] at touched
    cases touched

theorem Block.On.verifier_last {below : List Block} (on : block.On env below)
    (single : block.singleVerifier env = true) (split : block.vtx = pre ++ tx :: post)
    (made : tx.verifierChange env = some (name, verifier)) :
    name ∉ (post.flatMap (verifiers env)).map Prod.fst := by
  intro later
  obtain ⟨other, inPost, _, otherMade⟩ := mem_verifierNames.mp later
  obtain ⟨front, back, rfl⟩ := append_of_mem inPost
  have whole : block.vtx = (pre ++ tx :: front) ++ other :: back := by simp [split]
  refine Block.verifier_first single on.checked whole
    (fun name issued => (on.fresh _ other back whole name issued).2) otherMade ?_
  exact mem_verifierNames.mpr ⟨tx, by simp, verifier, made⟩

end

variable {env : Env} {chain : List Block} {name : Bytes}

theorem Lawful.issued_of_verifierOn (lawful : Lawful env chain)
    (verified : (verifierOn env (transactionsOf chain) name).isSome) :
    name ∈ issuedOn env chain := by
  induction chain with
  | nil => cases verified
  | cons block below ih =>
    by_cases touched : name ∈ (block.vtx.flatMap (verifiers env)).map Prod.fst
    · obtain ⟨tx, member, verifier, made⟩ := mem_verifierNames.mp touched
      obtain ⟨use, kind⟩ := lawful.1.checked tx member
      rcases verifierChange_cases made with issued | reissued
      · refine mem_issuedOn_cons.mpr (.inl (mem_flatMap.mpr ⟨tx, member, ?_⟩))
        exact (mem_issueNames_iff kind).mp (issued_of_issuedVerifier kind issued).1
      · obtain ⟨_, _, reissues, rfl, _⟩ := reissuedVerifier_eq_some.mp reissued
        exact lawful.known mem_cons_self member reissues
    · refine mem_issuedOn_cons.mpr (.inr (ih lawful.2 ?_))
      rwa [← show _ = verifierOn env (transactionsOf below) name from
        Pending.applied_of_not_mem verifierReading touched]

theorem Lawful.verifierOn_of_issued (lawful : Lawful env chain)
    (restricted : assetNameType name = .restricted) (issued : name ∈ issuedOn env chain) :
    (verifierOn env (transactionsOf chain) name).isSome := by
  induction chain with
  | nil => cases issued
  | cons block below ih =>
    by_cases touched : name ∈ (block.vtx.flatMap (verifiers env)).map Prod.fst
    · obtain ⟨change, _, _, value⟩ := Pending.applied_of_mem verifierReading touched
      rw [show verifierOn env (transactionsOf (block :: below)) name = _ from value]
      rfl
    · rw [show verifierOn env (transactionsOf (block :: below)) name =
        verifierOn env (transactionsOf below) name from
        Pending.applied_of_not_mem verifierReading touched]
      refine ih lawful.2 ((mem_issuedOn_cons.mp issued).resolve_left fun inBlock => touched ?_)
      obtain ⟨tx, member, issues⟩ := mem_flatMap.mp inBlock
      obtain ⟨use, kind⟩ := lawful.1.checked tx member
      obtain ⟨verifier, made⟩ := issuedVerifier_of_restricted kind
        ((mem_issueNames_iff kind).mpr issues) restricted
      exact mem_verifierNames.mpr ⟨tx, member, verifier, by
        rw [verifierChange, made, some_or]⟩

end Phicoin
