import Phicoin.Lib.Runs
import Phicoin.MainNet
import Phicoin.Qualifiers
import Phicoin.RestrictionStores

/-! # Tags on the active chain

The tags of an address change with operations that are connected and undone in the
cache of a block, flushed into the global cache and dumped into the database.
`CheckForAddressQualifier` answers for a root qualifier also when only a sub-qualifier is
assigned.  It follows the chain over every run in which an undone operation had changed
something, and in which no address loses the last tag of a family whose sub-qualifiers
changed since the last dump. -/

namespace Phicoin

open KeyedMap AssetsCache List

def rootNames (roots : KeyedMap (Bytes × Bytes) (List Bytes)) (key : Bytes × Bytes) : List Bytes :=
  (roots.lookup key).getD []

section

variable {roots items : KeyedMap (Bytes × Bytes) (List Bytes)} {key : Bytes × Bytes} {n : Bytes}

theorem hasRootQualifier_iff {name address : Bytes} :
    hasRootQualifier roots name address = true ↔ ∃ n, n ∈ rootNames roots (name, address) := by
  unfold hasRootQualifier rootNames
  cases roots.lookup (name, address) with
  | none => simp
  | some names => cases names <;> simp

theorem mem_setInsert {name : Bytes} {names : List Bytes} :
    n ∈ setInsert name names ↔ n = name ∨ n ∈ names := by
  unfold setInsert
  split
  · rename_i present
    have member : name ∈ names := by simpa using present
    constructor
    · exact .inr
    · rintro (rfl | before)
      · exact member
      · exact before
  · simp

theorem mem_setErase {name : Bytes} {names : List Bytes} :
    n ∈ setErase name names ↔ n ≠ name ∧ n ∈ names := by
  simp [setErase, and_comm]

theorem rootNames_updateRoot (roots : KeyedMap (Bytes × Bytes) (List Bytes))
    (key j : Bytes × Bytes) (change : List Bytes → List Bytes) :
    rootNames (updateRoot roots key change) j =
      if j = key then change (rootNames roots key) else rootNames roots j := by
  unfold rootNames updateRoot
  rw [lookup_insert_ite]
  by_cases same : j = key <;> simp [same]

theorem mem_rootNames_mergeRoots : n ∈ rootNames (mergeRoots items roots) key ↔
      n ∈ rootNames items key ∨ n ∈ rootNames roots key := by
  have atKey : ∀ (names : List Bytes) (acc : KeyedMap (Bytes × Bytes) (List Bytes))
      (k : Bytes × Bytes), rootNames (names.foldl
        (fun acc name => updateRoot acc k (setInsert name)) acc) key =
      if key = k then names.foldl (fun acc name => setInsert name acc) (rootNames acc key)
      else rootNames acc key := by
    intro names
    induction names with
    | nil => simp
    | cons first rest ih =>
      intro acc k
      rw [foldl_cons, ih, rootNames_updateRoot]
      by_cases same : key = k <;> simp [same]
  have inserted : ∀ (names old : List Bytes),
      n ∈ names.foldl (fun acc name => setInsert name acc) old ↔ n ∈ names ∨ n ∈ old := by
    intro names
    induction names with
    | nil => simp
    | cons first rest ih =>
      intro old
      rw [foldl_cons, ih, mem_setInsert, mem_cons]
      tauto
  have merged := foldl_entries_observe
    (fun (acc : KeyedMap (Bytes × Bytes) (List Bytes)) k (names : List Bytes) =>
      names.foldl (fun acc name => updateRoot acc k (setInsert name)) acc) (rootNames · key)
    (fun old names => names.foldl (fun acc name => setInsert name acc) old) key
    (fun acc k names => atKey names acc k) items roots
  rw [mergeRoots, merged]
  cases found : items.lookup key with
  | none => simp [rootNames, found]
  | some names => simp [inserted, rootNames, found]

end

structure TagOp where
  name : Bytes
  address : Bytes
  type : QualifierType
deriving DecidableEq

def TagOp.key (op : TagOp) : Bytes × Bytes := (op.name, op.address)

/-- The global state, the cache of the block being processed, and the operations of the
active chain with those of that block, the last one first. -/
structure TagState where
  assets : AssetState
  cache : AssetsCache
  chain : List TagOp

inductive TagStep where
  | connect (op : TagOp)
  | undo
  | flush
  | dump
  | refresh (key : Bytes × Bytes)

namespace TagState

def initial : TagState := ⟨.initial, .empty, []⟩

variable (env : Env) (s : TagState)

def step : TagStep → Option TagState
  | .connect op =>
    if isAssetNameAQualifier op.name false then some { s with
      cache := s.cache.addQualifierAddress op.name op.address op.type
      chain := op :: s.chain }
    else none
  | .undo =>
    match s.chain with
    | [] => none
    | op :: below => some { s with
        cache := s.cache.removeQualifierAddress op.name op.address op.type
        chain := below }
  | .flush => some { s with assets := s.assets.flush s.cache, cache := .empty }
  | .dump => some { s with assets := s.assets.dumpCacheToDatabase env }
  | .refresh key => some { s with assets := s.assets.refreshQualifier key }

end TagState

def tagOf (chain : List TagOp) (key : Bytes × Bytes) : Bool :=
  match chain.find? fun op => op.key = key with
  | some op => op.type = .addQualifier
  | none => false

def Tagged (chain : List TagOp) (qualifier address : Bytes) : Prop :=
  tagOf chain (qualifier, address) = true ∨
    isAssetNameAQualifier qualifier true = true ∧
      ∃ tag, tagOf chain (qualifier ++ ascii "/#" ++ tag, address) = true

def holdsFamily (chain : List TagOp) (root address : Bytes) : Bool :=
  tagOf chain (root, address) || chain.any fun op =>
    op.address = address && isAssetNameASubQualifier op.name && getParentName op.name = root &&
      tagOf chain op.key

namespace TagState

variable (s : TagState)

def pendingTag (key : Bytes × Bytes) : Option Bool :=
  (s.cache.restrictions.tags.verdict tagReading key).or
    (s.assets.passets.restrictions.tags.verdict tagReading key)

/-- A sub-qualifier of the root is in one of the root maps for the address, or in the
database. -/
def familyTouched (root address : Bytes) : Bool :=
  hasRootQualifier s.cache.mapRootQualifierAddressesAdd root address ||
    hasRootQualifier s.cache.mapRootQualifierAddressesRemove root address ||
    hasRootQualifier s.assets.passets.mapRootQualifierAddressesAdd root address ||
    s.assets.prestricteddb.addressQualifier.entries.any fun entry =>
      entry.1.2 = address && (root ++ [subNameDelimiter]).isPrefixOf entry.1.1

/-- A sub-qualifier may be assigned unless its root was taken from the address since the
last dump, and taken away while the address keeps another tag of the family; a root may
be taken away while none of its sub-qualifiers is known for the address.  `chain` is the
chain after the change. -/
def mayChange (chain : List TagOp) (op : TagOp) (assigned : Bool) : Bool :=
  if isAssetNameASubQualifier op.name then
    (getParentName op.name).length < 253 &&
      if assigned then s.pendingTag (getParentName op.name, op.address) ≠ some false
      else holdsFamily chain (getParentName op.name) op.address
  else assigned || !s.familyTouched op.name op.address

/-- The condition on a step.  An operation that is undone must have changed its tag. -/
def followsChain : TagStep → Bool
  | .connect op => s.mayChange (op :: s.chain) op (op.type = .addQualifier)
  | .undo =>
    match s.chain with
    | [] => true
    | op :: below => tagOf below op.key = decide (op.type = .removeQualifier) &&
        s.mayChange below op (op.type = .removeQualifier)
  | .flush | .dump | .refresh _ => true

end TagState

/-- The names of the operations: qualifiers whose root has a length of one byte. -/
structure Usable (name : Bytes) : Prop where
  valid : isAssetNameAQualifier name false = true
  short : ∀ root, SubQualifierOf root name → root.length < 253

/-- `Tagged` in terms of the names below a root. -/
def Held (chain : List TagOp) (qualifier address : Bytes) : Prop :=
  tagOf chain (qualifier, address) = true ∨
    ∃ n, SubQualifierOf qualifier n ∧ tagOf chain (n, address) = true

def Touched (s : TagState) (root address : Bytes) : Prop :=
  ∃ n, SubQualifierOf root n ∧
    (n ∈ rootNames s.cache.mapRootQualifierAddressesAdd (root, address) ∨
      n ∈ rootNames s.cache.mapRootQualifierAddressesRemove (root, address) ∨
      n ∈ rootNames s.assets.passets.mapRootQualifierAddressesAdd (root, address) ∨
      s.assets.tagStore.has (n, address) = true)

def RootsNamed (roots : KeyedMap (Bytes × Bytes) (List Bytes)) : Prop :=
  ∀ root address, ∀ n ∈ rootNames roots (root, address), SubQualifierOf root n

def RootsComplete (tags : Pending (Bytes × Bytes) QualifierType)
    (roots : KeyedMap (Bytes × Bytes) (List Bytes)) : Prop :=
  ∀ root n address, SubQualifierOf root n → tags.verdict tagReading (n, address) = some true →
    n ∈ rootNames roots (root, address)

structure TagInv (s : TagState) : Prop where
  names : ∀ op ∈ s.chain, Usable op.name
  tags : ∀ key, tagOf s.chain key = Pending.value tagReading s.cache.restrictions.tags
    s.assets.passets.restrictions.tags s.assets.tagStore.has key
  coherent : s.assets.tagStore.Coherent
  pending : ∀ key, (s.pendingTag key).isSome → Usable key.1
  stored : ∀ key, s.assets.tagStore.has key = true → Usable key.1
  localComplete : RootsComplete s.cache.restrictions.tags s.cache.mapRootQualifierAddressesAdd
  globalComplete : RootsComplete s.assets.passets.restrictions.tags
    s.assets.passets.mapRootQualifierAddressesAdd
  localAdd : RootsNamed s.cache.mapRootQualifierAddressesAdd
  localRemove : RootsNamed s.cache.mapRootQualifierAddressesRemove
  globalAdd : RootsNamed s.assets.passets.mapRootQualifierAddressesAdd
  held : ∀ root address, Touched s root address → Held s.chain root address
  explicit : ∀ root address, s.pendingTag (root, address) = some false → ¬ Touched s root address

section

variable {s : TagState} {chain : List TagOp} {root address name : Bytes}

theorem Usable.subQualifier (usable : Usable name) (isSub : isAssetNameASubQualifier name = true) :
    SubQualifierOf (getParentName name) name := subQualifierOf_parent usable.valid isSub

theorem mem_of_tagOf {key : Bytes × Bytes} (tagged : tagOf chain key = true) :
    ∃ op ∈ chain, op.key = key := by
  unfold tagOf at tagged
  split at tagged
  · rename_i op found
    exact ⟨op, mem_of_find?_eq_some found, by simpa using find?_some found⟩
  · cases tagged

theorem tagOf_cons (op : TagOp) (below : List TagOp) (key : Bytes × Bytes) :
    tagOf (op :: below) key =
      if key = op.key then decide (op.type = .addQualifier) else tagOf below key := by
  unfold tagOf
  by_cases same : key = op.key
  · rw [find?_cons_of_pos (by simp [same]), if_pos same]
  · rw [find?_cons_of_neg (by simpa using Ne.symm same), if_neg same]

theorem held_of_holdsFamily (names : ∀ op ∈ chain, Usable op.name)
    (holds : holdsFamily chain root address = true) : Held chain root address := by
  simp only [holdsFamily, Bool.or_eq_true, any_eq_true, Bool.and_eq_true,
    decide_eq_true_eq] at holds
  rcases holds with tagged | ⟨op, member, ⟨⟨rfl, isSub⟩, rfl⟩, tagged⟩
  · exact .inl tagged
  · exact .inr ⟨op.name, (names op member).subQualifier isSub, tagged⟩

theorem held_iff_tagged (names : ∀ op ∈ chain, Usable op.name) :
    Held chain root address ↔ Tagged chain root address := by
  have mark : ascii "/#" = [subNameDelimiter, qualifierChar] := by decide
  constructor
  · rintro (tagged | ⟨n, sub, tagged⟩)
    · exact .inl tagged
    · obtain ⟨tag, _, shape⟩ := sub.shape
      refine .inr ⟨sub.isRoot, tag, ?_⟩
      rwa [mark, append_assoc, cons_append, singleton_append, ← shape]
  · rintro (tagged | ⟨_, tag, tagged⟩)
    · exact .inl tagged
    · obtain ⟨op, member, same⟩ := mem_of_tagOf tagged
      refine .inr ⟨_, ?_, tagged⟩
      have valid := (names op member).valid
      rw [show op.name = _ from congrArg Prod.fst same] at valid
      refine @subQualifierOf_of_append root _ (qualifierChar :: tag) valid ?_
      rw [mark, append_assoc, cons_append, singleton_append]

theorem familyTouched_of_touched (touched : Touched s root address) :
    s.familyTouched root address = true := by
  obtain ⟨n, sub, known⟩ := touched
  simp only [TagState.familyTouched, Bool.or_eq_true, or_assoc, hasRootQualifier_iff]
  rcases known with added | removed | global | stored
  · exact .inl ⟨n, added⟩
  · exact .inr (.inl ⟨n, removed⟩)
  · exact .inr (.inr (.inl ⟨n, global⟩))
  · obtain ⟨⟨⟩, found⟩ := Option.isSome_iff_exists.mp stored
    obtain ⟨tag, _, shape⟩ := sub.shape
    refine .inr (.inr (.inr (any_eq_true.mpr ⟨_, AList.mem_lookup_iff.mp found, ?_⟩)))
    simp [shape, prefix_append_right_inj, isPrefixOf_iff_prefix]

namespace TagInv

theorem value_eq (s : TagState) (key : Bytes × Bytes) :
    Pending.value tagReading s.cache.restrictions.tags s.assets.passets.restrictions.tags
      s.assets.tagStore.has key = (s.pendingTag key).getD (s.assets.tagStore.has key) := rfl

section

variable (inv : TagInv s) {n : Bytes} (sub : SubQualifierOf root n)
  (tagged : tagOf s.chain (n, address) = true)

include inv sub tagged

theorem known_of_tag :
    n ∈ rootNames s.cache.mapRootQualifierAddressesAdd (root, address) ∨
      n ∈ rootNames s.assets.passets.mapRootQualifierAddressesAdd (root, address) ∨
      s.assets.tagStore.has (n, address) = true := by
  rw [inv.tags, value_eq, TagState.pendingTag] at tagged
  cases upper : s.cache.restrictions.tags.verdict tagReading (n, address) with
  | some now =>
    have assigned : now = true := by simpa [upper] using tagged
    exact .inl (inv.localComplete root n address sub (upper.trans (congrArg some assigned)))
  | none =>
    rw [upper, Option.none_or] at tagged
    cases lower : s.assets.passets.restrictions.tags.verdict tagReading (n, address) with
    | some before =>
      rw [lower, Option.getD_some] at tagged
      exact .inr (.inl
        (inv.globalComplete root n address sub (lower.trans (congrArg some tagged))))
    | none =>
      rw [lower, Option.getD_none] at tagged
      exact .inr (.inr tagged)

theorem touched_of_tag : Touched s root address := by
  rcases inv.known_of_tag sub tagged with added | global | stored
  · exact ⟨n, sub, .inl added⟩
  · exact ⟨n, sub, .inr (.inr (.inl global))⟩
  · exact ⟨n, sub, .inr (.inr (.inr stored))⟩

end

theorem initial : TagInv .initial where
  names _ absent := by cases absent
  tags _ := rfl
  coherent _ found := by cases found
  pending _ found := by cases found
  stored _ found := by cases found
  localComplete _ _ _ _ found := by cases found
  globalComplete _ _ _ _ found := by cases found
  localAdd _ _ _ absent := by cases absent
  localRemove _ _ _ absent := by cases absent
  globalAdd _ _ _ absent := by cases absent
  held _ _ touched := by
    obtain ⟨_, _, absent | absent | absent | absent⟩ := touched <;> cases absent
  explicit _ _ found := by cases found

end TagInv

end

section

variable {s t : TagState} {op : TagOp} {assigned : Bool} {cache : AssetsCache}

def Tracks (op : TagOp) (key : Bytes × Bytes) : Prop :=
  isAssetNameASubQualifier op.name = true ∧ key = (getParentName op.name, op.address)

theorem mem_trackRoot {key : Bytes × Bytes} {n : Bytes} :
    (n ∈ rootNames (cache.trackRoot op.name op.address assigned).mapRootQualifierAddressesAdd key ↔
      if assigned then (Tracks op key ∧ n = op.name) ∨
        n ∈ rootNames cache.mapRootQualifierAddressesAdd key
      else ¬ (Tracks op key ∧ n = op.name) ∧
        n ∈ rootNames cache.mapRootQualifierAddressesAdd key) ∧
    (n ∈ rootNames (cache.trackRoot op.name op.address assigned).mapRootQualifierAddressesRemove key ↔
      if assigned then
        ¬ (Tracks op key ∧ n = op.name) ∧ n ∈ rootNames cache.mapRootQualifierAddressesRemove key
      else (Tracks op key ∧ n = op.name) ∨
        n ∈ rootNames cache.mapRootQualifierAddressesRemove key) := by
  unfold trackRoot Tracks
  cases isAssetNameASubQualifier op.name <;> cases assigned <;>
    simp only [Bool.false_eq_true, if_false, if_true, false_and, true_and, not_false_eq_true,
      false_or, rootNames_updateRoot] <;>
    by_cases same : key = (getParentName op.name, op.address) <;>
    simp [same, mem_setInsert, mem_setErase]

/-- An operation connected or undone: the tag is set or unset, in the cache and on the
chain. -/
structure TagChange (s t : TagState) (op : TagOp) (assigned : Bool) : Prop where
  assets : t.assets = s.assets
  verdict : ∀ key, t.cache.restrictions.tags.verdict tagReading key =
    if key = op.key then some assigned else s.cache.restrictions.tags.verdict tagReading key
  add : t.cache.mapRootQualifierAddressesAdd =
    (s.cache.trackRoot op.name op.address assigned).mapRootQualifierAddressesAdd
  remove : t.cache.mapRootQualifierAddressesRemove =
    (s.cache.trackRoot op.name op.address assigned).mapRootQualifierAddressesRemove
  chain : ∀ key, tagOf t.chain key = if key = op.key then assigned else tagOf s.chain key
  names : ∀ op ∈ t.chain, Usable op.name
  usable : Usable op.name
  may : s.mayChange t.chain op assigned = true

namespace TagChange

theorem pendingTag (change : TagChange s t op assigned) (key : Bytes × Bytes) :
    t.pendingTag key = if key = op.key then some assigned else s.pendingTag key := by
  unfold TagState.pendingTag
  rw [change.verdict, change.assets]
  by_cases same : key = op.key <;> simp [same]

theorem touched (change : TagChange s t op assigned) {root address : Bytes}
    (after : Touched t root address) : Tracks op (root, address) ∨ Touched s root address := by
  obtain ⟨n, sub, known⟩ := after
  rw [change.assets, change.add, change.remove, mem_trackRoot.1, mem_trackRoot.2] at known
  by_cases tracks : Tracks op (root, address)
  · exact .inl tracks
  · refine .inr ⟨n, sub, ?_⟩
    cases assigned <;> simpa [tracks] using known

theorem not_sub_of_touched {root address : Bytes} (before : Touched s root address) :
    isAssetNameASubQualifier root = false := by
  obtain ⟨n, sub, _⟩ := before
  exact sub.not_sub_root

end TagChange

namespace TagInv

section

variable (inv : TagInv s) (change : TagChange s t op assigned) {root address : Bytes}

include inv change

theorem held_change (after : Touched t root address) : Held t.chain root address := by
  have may := change.may
  rw [TagState.mayChange] at may
  by_cases tracks : Tracks op (root, address)
  · obtain ⟨isSub, same⟩ := tracks
    obtain ⟨rfl, rfl⟩ := Prod.mk.inj same
    rw [if_pos isSub, Bool.and_eq_true] at may
    cases assigned with
    | true =>
      refine .inr ⟨op.name, change.usable.subQualifier isSub, ?_⟩
      exact (change.chain op.key).trans (if_pos rfl)
    | false => exact held_of_holdsFamily change.names may.2
  · have before := (change.touched after).resolve_left tracks
    rcases inv.held root address before with tagged | ⟨n, sub, tagged⟩
    · -- the root itself may have changed, but then no sub-qualifier is known
      by_cases same : (root, address) = op.key
      · obtain ⟨rfl, rfl⟩ := Prod.mk.inj same
        rw [if_neg (by rw [TagChange.not_sub_of_touched before]; simp)] at may
        left
        rw [change.chain, if_pos same]
        simpa [familyTouched_of_touched before] using may
      · left
        rwa [change.chain, if_neg same]
    · refine .inr ⟨n, sub, ?_⟩
      rw [change.chain, if_neg ?_]
      · exact tagged
      · intro same
        obtain ⟨rfl, rfl⟩ := Prod.mk.inj same
        exact tracks ⟨sub.isSub, by rw [sub.parent]⟩

theorem explicit_change (taken : t.pendingTag (root, address) = some false) :
    ¬ Touched t root address := by
  intro after
  have may := change.may
  rw [TagState.mayChange] at may
  rw [change.pendingTag] at taken
  have notTagged : tagOf t.chain (root, address) = true → (root, address) = op.key := by
    intro tagged
    by_contra other
    rw [change.chain, if_neg other, inv.tags, value_eq, (if_neg other).symm.trans taken] at tagged
    cases tagged
  rcases change.touched after with ⟨isSub, same⟩ | before
  · obtain ⟨rfl, rfl⟩ := Prod.mk.inj same
    have sub := change.usable.subQualifier isSub
    have other : ¬ (getParentName op.name, op.address) = op.key := by
      intro isKey
      have notSub := sub.not_sub_root
      rw [show getParentName op.name = op.name from congrArg Prod.fst isKey, isSub] at notSub
      cases notSub
    rw [if_neg other] at taken
    rw [if_pos isSub, Bool.and_eq_true] at may
    cases assigned with
    | true => simp [taken] at may
    | false =>
      rcases held_of_holdsFamily change.names may.2 with tagged | ⟨n, subOf, tagged⟩
      · exact other (notTagged tagged)
      · rw [change.chain] at tagged
        split at tagged
        · cases tagged
        · exact inv.explicit _ _ taken (inv.touched_of_tag subOf tagged)
  · by_cases same : (root, address) = op.key
    · obtain ⟨rfl, rfl⟩ := Prod.mk.inj same
      rw [if_pos same] at taken
      rw [if_neg (by rw [TagChange.not_sub_of_touched before]; simp)] at may
      cases Option.some.inj taken
      simp [familyTouched_of_touched before] at may
    · rw [if_neg same] at taken
      exact inv.explicit root address taken before

end

theorem change (inv : TagInv s) (change : TagChange s t op assigned) : TagInv t where
  names := change.names
  tags key := by
    rw [change.chain, value_eq, change.pendingTag, change.assets]
    split
    · rfl
    · exact inv.tags key
  coherent := change.assets ▸ inv.coherent
  pending key found := by
    rw [change.pendingTag] at found
    split at found
    · rename_i same
      rw [same]
      exact change.usable
    · exact inv.pending key found
  stored := change.assets ▸ inv.stored
  localComplete root n address sub set := by
    rw [change.add, mem_trackRoot.1]
    rw [change.verdict] at set
    split at set
    · rename_i same
      obtain ⟨rfl, rfl⟩ := Prod.mk.inj same
      cases Option.some.inj set
      rw [if_pos rfl]
      exact .inl ⟨⟨sub.isSub, by rw [sub.parent]⟩, rfl⟩
    · rename_i other
      have before := inv.localComplete root n address sub set
      cases assigned with
      | true => exact .inr before
      | false =>
        refine ⟨?_, before⟩
        rintro ⟨⟨_, same⟩, rfl⟩
        exact other (congrArg (Prod.mk op.name) (congrArg Prod.snd same))
  globalComplete := change.assets ▸ inv.globalComplete
  localAdd root address n member := by
    rw [change.add, mem_trackRoot.1] at member
    cases assigned with
    | false => exact inv.localAdd root address n member.2
    | true =>
      rcases member with ⟨⟨isSub, same⟩, rfl⟩ | before
      · obtain ⟨rfl, rfl⟩ := Prod.mk.inj same
        exact change.usable.subQualifier isSub
      · exact inv.localAdd root address n before
  localRemove root address n member := by
    rw [change.remove, mem_trackRoot.2] at member
    cases assigned with
    | true => exact inv.localRemove root address n member.2
    | false =>
      rcases member with ⟨⟨isSub, same⟩, rfl⟩ | before
      · obtain ⟨rfl, rfl⟩ := Prod.mk.inj same
        exact change.usable.subQualifier isSub
      · exact inv.localRemove root address n before
  globalAdd := change.assets ▸ inv.globalAdd
  held _ _ after := inv.held_change change after
  explicit _ _ taken := inv.explicit_change change taken

end TagInv

end

section

variable {env : Env} {s t : TagState} {op : TagOp}

theorem addQualifierAddress_tags (cache : AssetsCache) (op : TagOp) :
    (cache.addQualifierAddress op.name op.address op.type).restrictions.tags =
      cache.restrictions.tags.make op.key op.type := by
  unfold addQualifierAddress trackRoot
  dsimp only
  split
  · split <;> rfl
  · rfl

theorem removeQualifierAddress_tags (cache : AssetsCache) (op : TagOp) :
    (cache.removeQualifierAddress op.name op.address op.type).restrictions.tags =
      cache.restrictions.tags.undo op.key op.type := by
  unfold removeQualifierAddress trackRoot
  dsimp only
  split
  · split <;> rfl
  · rfl

namespace TagInv

theorem connect (inv : TagInv s) (may : s.followsChain (.connect op) = true)
    (steps : s.step env (.connect op) = some t) : TagInv t := by
  rw [TagState.step] at steps
  split at steps
  · rename_i valid
    cases steps
    have usable : Usable op.name := by
      refine ⟨valid, fun root sub => ?_⟩
      simp only [TagState.followsChain, TagState.mayChange, sub.isSub, if_true, Bool.and_eq_true,
        sub.parent, decide_eq_true_eq] at may
      exact may.1
    exact inv.change {
      assets := rfl
      verdict := fun key => by
        rw [addQualifierAddress_tags]
        exact Pending.verdict_make tagReading _ _ _ _
      add := rfl
      remove := rfl
      chain := tagOf_cons op s.chain
      names := forall_mem_cons.mpr ⟨usable, inv.names⟩
      usable := usable
      may := may }
  · cases steps

theorem undo (inv : TagInv s) (may : s.followsChain .undo = true)
    (steps : s.step env .undo = some t) : TagInv t := by
  rw [TagState.step] at steps
  rw [TagState.followsChain] at may
  cases order : s.chain with
  | nil => simp [order] at steps
  | cons op below =>
    simp only [order, Option.some.injEq] at steps
    simp only [order, Bool.and_eq_true, decide_eq_true_eq] at may
    have names := inv.names
    rw [order] at names
    obtain ⟨usable, names⟩ := forall_mem_cons.mp names
    have tags : ∀ key, tagOf below key =
        if key = op.key then decide (op.type = .removeQualifier) else tagOf s.chain key := by
      intro key
      rw [order, tagOf_cons]
      split
      · rename_i same
        rw [same, may.1]
      · rfl
    subst steps
    exact inv.change {
      assets := rfl
      verdict := fun key => by
        rw [removeQualifierAddress_tags]
        exact Pending.verdict_undo tagReading _ _ _ _
      add := rfl
      remove := rfl
      chain := tags
      names := names
      usable := usable
      may := may.2 }

theorem flush (inv : TagInv s) :
    TagInv { s with assets := s.assets.flush s.cache, cache := .empty } := by
  have pending : ∀ key, TagState.pendingTag
      { s with assets := s.assets.flush s.cache, cache := .empty } key = s.pendingTag key := by
    intro key
    rw [TagState.pendingTag, TagState.pendingTag, flush_tags, Pending.verdict_flush, empty_tags,
      Pending.verdict_empty, Option.none_or]
  have roots : ∀ (n : Bytes) key, n ∈ rootNames
      (s.assets.flush s.cache).passets.mapRootQualifierAddressesAdd key ↔
        n ∈ rootNames s.cache.mapRootQualifierAddressesRemove key ∨
          n ∈ rootNames s.cache.mapRootQualifierAddressesAdd key ∨
            n ∈ rootNames s.assets.passets.mapRootQualifierAddressesAdd key := by
    intro n key
    simp only [AssetState.flush, flushInto, mem_rootNames_mergeRoots]
  have touched : ∀ root address, Touched
      { s with assets := s.assets.flush s.cache, cache := .empty } root address →
        Touched s root address := by
    rintro root address ⟨n, sub, absent | absent | merged | stored⟩
    · cases absent
    · cases absent
    · rcases (roots n _).mp merged with removed | added | before
      · exact ⟨n, sub, .inr (.inl removed)⟩
      · exact ⟨n, sub, .inl added⟩
      · exact ⟨n, sub, .inr (.inr (.inl before))⟩
    · exact ⟨n, sub, .inr (.inr (.inr stored))⟩
  refine {
    names := inv.names
    tags := fun key => (inv.tags key).trans
      (Pending.value_flush tagReading _ _ s.assets.tagStore.has key).symm
    coherent := inv.coherent
    pending := fun key found => inv.pending key (pending key ▸ found)
    stored := inv.stored
    localComplete := fun _ _ _ _ found => by cases found
    globalComplete := fun root n address sub set => ?_
    localAdd := fun _ _ _ absent => by cases absent
    localRemove := fun _ _ _ absent => by cases absent
    globalAdd := fun root address n merged => ?_
    held := fun root address after => inv.held root address (touched root address after)
    explicit := fun root address taken after =>
      inv.explicit root address (pending _ ▸ taken) (touched root address after) }
  · rw [flush_tags, Pending.verdict_flush] at set
    rw [roots]
    cases upper : s.cache.restrictions.tags.verdict tagReading (n, address) with
    | some now =>
      rw [upper] at set
      exact .inr (.inl (inv.localComplete root n address sub (upper.trans set)))
    | none =>
      rw [upper] at set
      exact .inr (.inr (inv.globalComplete root n address sub set))
  · rcases (roots n _).mp merged with removed | added | before
    · exact inv.localRemove root address n removed
    · exact inv.localAdd root address n added
    · exact inv.globalAdd root address n before

theorem dump (inv : TagInv s) (env : Env) :
    TagInv { s with assets := s.assets.dumpCacheToDatabase env } := by
  have store : (s.assets.dumpCacheToDatabase env).tagStore =
      s.assets.tagStore.dump tagReading s.assets.passets.restrictions.tags :=
    congrArg Prod.fst (AssetState.dumpCacheToDatabase_storedSets s.assets env)
  have has : ∀ key, (s.assets.dumpCacheToDatabase env).tagStore.has key =
      (s.assets.passets.restrictions.tags.verdict tagReading key).getD
        (s.assets.tagStore.has key) := by
    intro key
    rw [store, StoredSet.has_dump]
  have touched : ∀ root address, Touched
      { s with assets := s.assets.dumpCacheToDatabase env } root address →
        Touched s root address := by
    rintro root address ⟨n, sub, added | removed | absent | stored⟩
    · exact ⟨n, sub, .inl added⟩
    · exact ⟨n, sub, .inr (.inl removed)⟩
    · cases absent
    · rw [has] at stored
      refine ⟨n, sub, .inr (.inr ?_)⟩
      cases lower : s.assets.passets.restrictions.tags.verdict tagReading (n, address) with
      | none =>
        rw [lower] at stored
        exact .inr stored
      | some before =>
        rw [lower, Option.getD_some] at stored
        exact .inl (inv.globalComplete root n address sub (lower.trans (congrArg some stored)))
  refine {
    names := inv.names
    tags := fun key => ?_
    coherent := by
      change (s.assets.dumpCacheToDatabase env).tagStore.Coherent
      rw [store]
      exact inv.coherent.dump tagReading _
    pending := fun key found => inv.pending key ?_
    stored := fun key found => ?_
    localComplete := inv.localComplete
    globalComplete := fun _ _ _ _ found => by cases found
    localAdd := inv.localAdd
    localRemove := inv.localRemove
    globalAdd := fun _ _ _ absent => by cases absent
    held := fun root address after => inv.held root address (touched root address after)
    explicit := fun root address taken after =>
      inv.explicit root address ?_ (touched root address after) }
  · refine (inv.tags key).trans ?_
    rw [← Pending.value_dump]
    exact congrArg (fun store => Pending.value tagReading s.cache.restrictions.tags .empty store key)
      (funext has).symm
  · have upper : (s.cache.restrictions.tags.verdict tagReading key).isSome := by
      simpa [TagState.pendingTag, AssetState.dumpCacheToDatabase] using found
    simp [TagState.pendingTag, upper]
  · change (s.assets.dumpCacheToDatabase env).tagStore.has key = true at found
    rw [has] at found
    cases lower : s.assets.passets.restrictions.tags.verdict tagReading key with
    | none =>
      rw [lower] at found
      exact inv.stored key found
    | some before => exact inv.pending key (by simp [TagState.pendingTag, lower])
  · have upper : s.cache.restrictions.tags.verdict tagReading (root, address) = some false := by
      simpa [TagState.pendingTag, AssetState.dumpCacheToDatabase] using taken
    simp [TagState.pendingTag, upper]

theorem refresh (inv : TagInv s) (key : Bytes × Bytes) :
    TagInv { s with assets := s.assets.refreshQualifier key } := by
  have store : (s.assets.refreshQualifier key).tagStore = s.assets.tagStore.refresh key := by
    unfold AssetState.refreshQualifier StoredSet.refresh StoredSet.has AssetState.tagStore
    cases s.assets.prestricteddb.addressQualifier.lookup key <;> simp
  have passets : (s.assets.refreshQualifier key).passets = s.assets.passets := by
    unfold AssetState.refreshQualifier
    split <;> rfl
  have has : (s.assets.refreshQualifier key).tagStore.has = s.assets.tagStore.has := by
    funext other
    rw [store, StoredSet.has_refresh]
  have pending : TagState.pendingTag { s with assets := s.assets.refreshQualifier key } =
      s.pendingTag := by
    funext other
    rw [TagState.pendingTag, TagState.pendingTag, passets]
  have touched : ∀ root address, Touched
      { s with assets := s.assets.refreshQualifier key } root address → Touched s root address := by
    rintro root address ⟨n, sub, known⟩
    rw [passets, has] at known
    exact ⟨n, sub, known⟩
  exact {
    names := inv.names
    tags := fun other => by
      rw [passets, has]
      exact inv.tags other
    coherent := by
      change (s.assets.refreshQualifier key).tagStore.Coherent
      rw [store]
      exact inv.coherent.refresh key
    pending := fun other found => inv.pending other (pending ▸ found)
    stored := fun other found => inv.stored other (has ▸ found)
    localComplete := inv.localComplete
    globalComplete := passets ▸ inv.globalComplete
    localAdd := inv.localAdd
    localRemove := inv.localRemove
    globalAdd := passets ▸ inv.globalAdd
    held := fun root address after => inv.held root address (touched root address after)
    explicit := fun root address taken after =>
      inv.explicit root address (pending ▸ taken) (touched root address after) }

theorem step {next : TagStep} (inv : TagInv s) (may : s.followsChain next = true)
    (steps : s.step env next = some t) : TagInv t := by
  cases next with
  | connect op => exact inv.connect may steps
  | undo => exact inv.undo may steps
  | flush =>
    cases steps
    exact inv.flush
  | dump =>
    cases steps
    exact inv.dump env
  | refresh key =>
    cases steps
    exact inv.refresh key

end TagInv

end

section

variable {s : TagState} {cache : AssetsCache} {state : AssetState} {qualifier address : Bytes}

def storedTag (state : AssetState) (cache : AssetsCache) (qualifier address : Bytes) : Bool :=
  hasRootQualifier cache.mapRootQualifierAddressesAdd qualifier address ||
    hasRootQualifier state.passets.mapRootQualifierAddressesAdd qualifier address ||
    state.tagStore.cache.exists? (qualifier, address) ||
    state.tagStore.has (qualifier, address) ||
    checkForAddressRootQualifier state.prestricteddb address qualifier

theorem checkForAddressQualifier_read (state : AssetState) (cache : AssetsCache)
    (qualifier address : Bytes) :
    match Pending.read tagReading cache.restrictions.tags state.passets.restrictions.tags
      (qualifier, address) with
    | some true => cache.checkForAddressQualifier state qualifier address false = true
    | some false => cache.checkForAddressQualifier state qualifier address false = true →
        hasRootQualifier state.passets.mapRootQualifierAddressesAdd qualifier address = true
    | none => cache.checkForAddressQualifier state qualifier address false =
        storedTag state cache qualifier address := by
  unfold checkForAddressQualifier storedTag Pending.read RestrictionLayer.tags restrictions
  simp only [Bool.false_eq_true, if_false, Bool.not_false, Bool.true_and]
  cases cache.setNewQualifierAddressToRemove.lookup (qualifier, address) with
  | some type => cases type <;> simp [tagReading]
  | none =>
  cases state.passets.setNewQualifierAddressToRemove.lookup (qualifier, address) with
  | some type => cases type <;> simp [tagReading]
  | none =>
  cases cache.setNewQualifierAddressToAdd.lookup (qualifier, address) with
  | some type => cases type <;> simp [tagReading]
  | none =>
  cases state.passets.setNewQualifierAddressToAdd.lookup (qualifier, address) with
  | some type => cases type <;> simp [tagReading]
  | none => rfl

theorem TagInv.storedTag_iff (inv : TagInv s) (none : s.pendingTag (qualifier, address) = none) :
    storedTag s.assets s.cache qualifier address = true ↔ Held s.chain qualifier address := by
  have exact' : tagOf s.chain (qualifier, address) = s.assets.tagStore.has (qualifier, address) := by
    rw [inv.tags, TagInv.value_eq, none, Option.getD_none]
  have ofName : ∀ n, SubQualifierOf qualifier n →
      (n ∈ rootNames s.cache.mapRootQualifierAddressesAdd (qualifier, address) ∨
        n ∈ rootNames s.assets.passets.mapRootQualifierAddressesAdd (qualifier, address) ∨
        s.assets.tagStore.has (n, address) = true) → Held s.chain qualifier address := by
    intro n sub known
    refine inv.held qualifier address ⟨n, sub, ?_⟩
    rcases known with added | global | stored
    · exact .inl added
    · exact .inr (.inr (.inl global))
    · exact .inr (.inr (.inr stored))
  simp only [storedTag, Bool.or_eq_true, or_assoc, hasRootQualifier_iff]
  constructor
  · rintro (⟨n, added⟩ | ⟨n, global⟩ | cached | stored | scanned)
    · exact ofName n (inv.localAdd qualifier address n added) (.inl added)
    · exact ofName n (inv.globalAdd qualifier address n global) (.inr (.inl global))
    · exact .inl (exact'.trans (inv.coherent _ cached))
    · exact .inl (exact'.trans stored)
    · obtain ⟨entry, member, found⟩ := any_eq_true.mp scanned
      simp only [Bool.and_eq_true, Bool.or_eq_true, decide_eq_true_eq] at found
      obtain ⟨⟨ofAddress, _⟩, isTag⟩ := found
      have stored : s.assets.tagStore.has (entry.1.1, address) = true := by
        rw [← ofAddress]
        exact Option.isSome_iff_exists.mpr ⟨entry.2, AList.mem_lookup_iff.mpr member⟩
      rcases isTag with same | below
      · exact .inl (exact'.trans (same ▸ stored))
      · obtain ⟨rest, shape⟩ := isPrefixOf_iff_prefix.mp below
        rw [append_assoc, singleton_append] at shape
        exact ofName _ (subQualifierOf_of_append (inv.stored _ stored).valid shape.symm)
          (.inr (.inr stored))
  · rintro (tagged | ⟨n, sub, tagged⟩)
    · exact .inr (.inr (.inr (.inl (exact'.symm.trans tagged))))
    · rcases inv.known_of_tag sub tagged with added | global | stored
      · exact .inl ⟨n, added⟩
      · exact .inr (.inl ⟨n, global⟩)
      · -- the scan from the root reaches the name
        obtain ⟨⟨⟩, found⟩ := Option.isSome_iff_exists.mp stored
        obtain ⟨tag, _, shape⟩ := sub.shape
        have reached := sub.seek ((inv.stored _ stored).short qualifier sub)
        refine .inr (.inr (.inr (.inr (any_eq_true.mpr
          ⟨_, AList.mem_lookup_iff.mp found, ?_⟩))))
        simp only [Bool.and_eq_true, Bool.or_eq_true, decide_eq_true_eq, true_and]
        refine ⟨reached, .inr (List.isPrefixOf_iff_prefix.mpr ⟨qualifierChar :: tag, ?_⟩)⟩
        rw [shape, append_assoc, singleton_append]

theorem TagInv.check_iff (inv : TagInv s)
    (unshadowed : Pending.Unshadowed s.cache.restrictions.tags s.assets.passets.restrictions.tags
      (qualifier, address)) :
    s.cache.checkForAddressQualifier s.assets qualifier address false = true ↔
      Held s.chain qualifier address := by
  have looked := checkForAddressQualifier_read s.assets s.cache qualifier address
  rw [Pending.read_eq tagReading unshadowed] at looked
  have tag := inv.tags (qualifier, address)
  rw [TagInv.value_eq] at tag
  cases pending : s.pendingTag (qualifier, address) with
  | none =>
    rw [show Option.or _ _ = _ from pending] at looked
    exact looked ▸ inv.storedTag_iff pending
  | some set =>
    rw [show Option.or _ _ = _ from pending] at looked
    rw [pending, Option.getD_some] at tag
    cases set with
    | true => exact ⟨fun _ => .inl tag, fun _ => looked⟩
    | false =>
      have untouched := inv.explicit qualifier address pending
      constructor
      · intro found
        obtain ⟨n, global⟩ := hasRootQualifier_iff.mp (looked found)
        exact absurd ⟨n, inv.globalAdd qualifier address n global, .inr (.inr (.inl global))⟩
          untouched
      · rintro (tagged | ⟨n, sub, tagged⟩)
        · rw [tag] at tagged
          cases tagged
        · exact absurd (inv.touched_of_tag sub tagged) untouched

end

/-- Over every run whose steps meet the condition, the lookup of a tag answers what the
operations of the chain leave, for a root qualifier also through its sub-qualifiers.
Through a local cache the tag must not be one that this cache changes after it was
undone in the global one; through the global cache this holds of every tag. -/
theorem tags_follow_chain (env : Env) (s : TagState)
    (run : Runs.Run (TagState.step env) TagState.followsChain .initial s)
    (qualifier address : Bytes)
    (unshadowed : s.cache.setNewQualifierAddressToAdd.lookup (qualifier, address) = none ∨
      s.assets.passets.setNewQualifierAddressToRemove.lookup (qualifier, address) = none) :
    s.cache.checkForAddressQualifier s.assets qualifier address false = true ↔
      Tagged s.chain qualifier address := by
  have inv : TagInv s := run.invariant TagInv TagInv.initial fun _ _ _ inv may steps =>
    inv.step may steps
  rw [← held_iff_tagged inv.names]
  exact inv.check_iff unshadowed

namespace TagRuns

def root : Bytes := ascii "#TAG"

def sub : Bytes := ascii "#TAG/#SUB"

def alice : Bytes := encodeDestination MainNet.env (.keyId MainNet.alice)

def assign (name : Bytes) : TagStep := .connect ⟨name, alice, .addQualifier⟩

def take (name : Bytes) : TagStep := .connect ⟨name, alice, .removeQualifier⟩

end TagRuns

open TagRuns

/-- Alice is tagged with a root and a sub-qualifier, the tags are dumped, and the second
assignment is undone: the root is left. -/
theorem tags_follow_chain_undo : ∃ s,
    Runs.Run (TagState.step MainNet.env) TagState.followsChain .initial s ∧
      s.chain = [⟨root, alice, .addQualifier⟩] ∧
      s.cache.checkForAddressQualifier s.assets root alice false = true := by
  have observed : (Runs.execute (TagState.step MainNet.env) TagState.followsChain .initial
      [assign root, .flush, assign sub, .flush, .dump, .undo, .flush]).bind (fun s =>
        some (s.chain, s.cache.setNewQualifierAddressToAdd.lookup (root, alice))) =
      some ([⟨root, alice, .addQualifier⟩], none) := by decide +kernel
  obtain ⟨s, run, seen⟩ := Runs.exists_run_of_execute observed
  obtain ⟨chain, notLocal⟩ := Prod.mk.inj (Option.some.inj seen)
  refine ⟨s, run, chain, (tags_follow_chain MainNet.env s run root alice (.inl notLocal)).mpr ?_⟩
  left
  rw [chain]
  decide +kernel

/-- A sub-qualifier is assigned in one block and taken away in the next: the flush adds
it to the root map a second time, and the address counts as tagged with the root. -/
theorem taken_tag_is_found : ∃ s,
    Runs.Run (TagState.step MainNet.env) (fun _ _ => true) .initial s ∧
      s.cache.checkForAddressQualifier s.assets root alice false = true ∧
      ¬ Tagged s.chain root alice := by
  have observed : (Runs.execute (TagState.step MainNet.env) (fun _ _ => true) .initial
      [assign sub, .flush, take sub, .flush]).bind (fun s =>
        some (s.chain, s.cache.checkForAddressQualifier s.assets root alice false)) =
      some ([⟨sub, alice, .removeQualifier⟩, ⟨sub, alice, .addQualifier⟩], true) := by
    decide +kernel
  obtain ⟨s, run, seen⟩ := Runs.exists_run_of_execute observed
  obtain ⟨chain, found⟩ := Prod.mk.inj (Option.some.inj seen)
  have none : ∀ key, tagOf s.chain key = false := by
    intro key
    rw [chain, tagOf_cons, tagOf_cons]
    by_cases same : key = TagOp.key ⟨sub, alice, .removeQualifier⟩
    · rw [if_pos same]
      rfl
    · rw [if_neg same]
      exact if_neg same
  refine ⟨s, run, found, ?_⟩
  rintro (tagged | ⟨_, tag, tagged⟩)
  · rw [none] at tagged
    cases tagged
  · rw [none] at tagged
    cases tagged

end Phicoin
