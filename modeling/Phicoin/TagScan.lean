import Phicoin.Lib.KeyOrder
import Phicoin.Qualifiers

/-! # The scan for tags below a root

`CheckForAddressRootQualifier` sets a cursor to the key of a tag and reads on while
the records are of the address.  The keys are serialized strings, so that the records
of a longer name come later only as far as their length bytes do. -/

namespace Phicoin

open List ByteReader Check Regex

/-- The key of a record, a tag and its address, behind the flag of its kind. -/
def addressQualifierKey (record : Bytes × Bytes) : Bytes :=
  writeString record.2 ++ writeString record.1

/-- `CheckForAddressRootQualifier` over a store in the order of its keys. -/
def rootQualifierQuery (db : RestrictedDB) (address qualifier : Bytes) : Bool :=
  ((KeyOrder.seek addressQualifierKey db.addressQualifier.keys
      (addressQualifierKey (qualifier, address))).takeWhile fun record => record.2 = address).any
    fun record => record.1 = qualifier || (qualifier ++ [subNameDelimiter]).isPrefixOf record.1

/-- A store of tags: names of qualifiers, assigned to strings. -/
structure TagStore (db : RestrictedDB) : Prop where
  valid : ∀ record ∈ db.addressQualifier.keys, isAssetNameAQualifier record.1 false = true
  sized : ∀ record ∈ db.addressQualifier.keys, record.2.length < 2 ^ 64

variable {db : RestrictedDB} {address qualifier : Bytes}

theorem address_of_between {tag tag' owner : Bytes} (ownerFits : owner.length < 2 ^ 64)
    (fits : address.length < 2 ^ 64)
    (above : addressQualifierKey (qualifier, address) ≤ addressQualifierKey (tag', owner))
    (below : addressQualifierKey (tag', owner) ≤ addressQualifierKey (tag, address)) :
    owner = address := by
  obtain ⟨more, same⟩ := KeyOrder.prefix_of_between above below
  -- a string is read back whatever follows it
  have first := @readString_writeString (writeString tag') _ _
    (Nat.le_max_left owner.length address.length) ownerFits
  have second := @readString_writeString more _ _
    (Nat.le_max_right owner.length address.length) fits
  rw [same] at second
  exact (Prod.mk.inj (Option.some.inj (first.symm.trans second))).1

/-- The cursor passes the tags of the address whose serialized names are not before its own. -/
theorem rootQualifierQuery_iff (store : TagStore db) (fits : address.length < 2 ^ 64) :
    rootQualifierQuery db address qualifier = true ↔
      ∃ tag, ((tag, address) ∈ db.addressQualifier.keys ∧
        writeString qualifier ≤ writeString tag) ∧
          (tag = qualifier ∨ qualifier ++ [subNameDelimiter] <+: tag) := by
  have keys : ∀ tag : Bytes, addressQualifierKey (qualifier, address) ≤
      addressQualifierKey (tag, address) ↔ writeString qualifier ≤ writeString tag :=
    fun tag => ⟨fun le less => le (append_left_lt less), append_left_le⟩
  simp only [rootQualifierQuery, any_eq_true, Bool.or_eq_true, decide_eq_true_eq,
    List.isPrefixOf_iff_prefix]
  have passed : ∀ record : Bytes × Bytes, _ := fun record =>
    @KeyOrder.mem_takeWhile_seek _ _ _ _ _ _ _ _ addressQualifierKey db.addressQualifier.keys
      (addressQualifierKey (qualifier, address)) (fun record => record.2 = address) record
      fun other member above below same => by
        obtain ⟨tag, owner⟩ := record
        obtain rfl : owner = address := of_decide_eq_true same
        exact decide_eq_true (address_of_between (store.sized other member) fits above below)
  simp only [passed, decide_eq_true_eq]
  constructor
  · rintro ⟨⟨tag, owner⟩, ⟨⟨stored, above⟩, rfl⟩, found⟩
    exact ⟨tag, ⟨stored, (keys tag).mp above⟩, found⟩
  · rintro ⟨tag, ⟨stored, above⟩, found⟩
    exact ⟨(tag, address), ⟨⟨stored, (keys tag).mpr above⟩, rfl⟩, found⟩

/-- The scan reads the records that the cursor passes of the whole store. -/
theorem rootQualifierQuery_eq (store : TagStore db) (fits : address.length < 2 ^ 64) :
    rootQualifierQuery db address qualifier =
      AssetsCache.checkForAddressRootQualifier db address qualifier := by
  rw [Bool.eq_iff_iff, rootQualifierQuery_iff store fits]
  simp only [AssetsCache.checkForAddressRootQualifier, any_eq_true, Bool.and_eq_true,
    Bool.or_eq_true, decide_eq_true_eq, List.isPrefixOf_iff_prefix]
  constructor
  · rintro ⟨tag, ⟨stored, above⟩, found⟩
    obtain ⟨entry, member, same⟩ := mem_map.mp stored
    obtain ⟨tag', owner⟩ := entry
    exact ⟨_, member, ⟨by rw [same], by rw [same]; exact above⟩, by rw [same]; exact found⟩
  · rintro ⟨entry, member, ⟨rfl, above⟩, found⟩
    exact ⟨entry.1.1, ⟨mem_map_of_mem member, above⟩, found⟩

/-- A name below another is longer by a slash, the mark and a character. -/
theorem length_of_below {tag more : Bytes} (valid : isAssetNameAQualifier tag false = true)
    (below : tag = qualifier ++ subNameDelimiter :: more) :
    qualifier.length + 3 ≤ tag.length ∧ tag.length ≤ maxNameLength := by
  have sub := subQualifierOf_of_append valid below
  obtain ⟨last, free, rfl⟩ := sub.shape
  obtain ⟨rest, start⟩ := head?_eq_some_iff.mp (head_of_qualifier valid)
  obtain ⟨type, passed⟩ := passed_iff.mp (Bool.and_eq_true_iff.mp valid).1
  rw [start] at passed
  obtain ⟨_, size, before, _⟩ := isAssetNameValid_mark passed
  rw [← start] at size before
  refine ⟨?_, size⟩
  have parts : splitAt subNameDelimiter (qualifier ++ subNameDelimiter :: qualifierChar :: last) =
      [qualifier, qualifierChar :: last] := by
    rw [splitAt, splitOn_append_cons_self_of_not_mem sub.free, splitOn_eq_singleton free]
  simp only [isQualifierNameValidBeforeTag, parts, Bool.and_eq_true, tail_cons, all_cons,
    isSubQualifierNameValid] at before
  obtain ⟨c, others, same, _, accepted⟩ := accepts_seq_cls.mp before.2.1.1
  cases same
  obtain ⟨c, others, rfl, _⟩ := accepts_seq_cls.mp accepted
  simp only [length_append, length_cons]
  omega

/-- The length of the name below is written FD 00 01, that of the root FD FD 00. -/
theorem not_seek {tag : Bytes} (root : qualifier.length = 253) (name : tag.length = 256) :
    ¬ writeString qualifier ≤ writeString tag := by
  have first : writeCompactSize 253 = [0xfd, 0xfd, 0] := by decide
  have second : writeCompactSize 256 = [0xfd, 0, 1] := by decide
  rw [writeString, writeString, root, name, first, second]
  intro le
  exact le <| cons_lt_cons_iff.mpr (.inr ⟨rfl, cons_lt_cons_iff.mpr (.inl (by decide))⟩)

/-- The query answers whether the address has the tag or one below it, but for a root of 253
bytes that the address does not have itself while it has a tag below it. -/
theorem root_qualifier_query_exact_iff (db : RestrictedDB) (store : TagStore db)
    (address qualifier : Bytes) (fits : address.length < 2 ^ 64) :
    (rootQualifierQuery db address qualifier = true ↔
      ∃ tag, (tag, address) ∈ db.addressQualifier.keys ∧
        (tag = qualifier ∨ qualifier ++ [subNameDelimiter] <+: tag)) ↔
    (qualifier.length ≠ 253 ∨ (qualifier, address) ∈ db.addressQualifier.keys ∨
      ∀ tag, (tag, address) ∈ db.addressQualifier.keys →
        ¬ qualifier ++ [subNameDelimiter] <+: tag) := by
  rw [rootQualifierQuery_iff store fits]
  constructor
  · intro exact'
    by_contra missed
    simp only [not_or, not_forall, not_not, ne_eq] at missed
    obtain ⟨size, absent, below, stored, prefixed⟩ := missed
    obtain ⟨tag, ⟨stored, above⟩, rfl | ⟨more, rfl⟩⟩ := exact'.mpr ⟨below, stored, .inr prefixed⟩
    · exact absent stored
    · have long := length_of_below (store.valid _ stored) (append_assoc ..)
      dsimp only [maxNameLength] at long
      exact not_seek size (by omega) above
  · intro holds
    refine ⟨fun ⟨tag, ⟨stored, _⟩, found⟩ => ⟨tag, stored, found⟩, ?_⟩
    rintro ⟨tag, stored, rfl | ⟨more, rfl⟩⟩
    · exact ⟨tag, ⟨stored, List.le_refl _⟩, .inl rfl⟩
    · have long := length_of_below (store.valid _ stored) (append_assoc ..)
      dsimp only [maxNameLength] at long
      rcases holds with size | own | none
      · refine ⟨_, ⟨stored, ?_⟩, .inr ⟨more, rfl⟩⟩
        exact (subQualifierOf_of_append (store.valid _ stored) (append_assoc ..)).seek (by omega)
      · exact ⟨qualifier, ⟨own, List.le_refl _⟩, .inl rfl⟩
      · exact absurd ⟨more, rfl⟩ (none _ stored)

namespace TagScan

def alice : Bytes := ascii "alice"

def root : Bytes := qualifierChar :: replicate 252 65

def sub : Bytes := root ++ ascii "/#A"

def tagged (tag : Bytes) : RestrictedDB := ⟨∅, (∅ : KeyedMap _ _).insert (tag, alice) (), ∅, ∅⟩

end TagScan

open TagScan

/-- A tag below a short root is found. -/
theorem root_qualifier_query_exact_iff_sub :
    rootQualifierQuery (tagged (ascii "#TAG/#SUB")) alice (ascii "#TAG") = true := by
  have stored : (tagged (ascii "#TAG/#SUB")).addressQualifier.keys =
      [(ascii "#TAG/#SUB", alice)] := rfl
  have member : (ascii "#TAG/#SUB", alice) ∈
      (tagged (ascii "#TAG/#SUB")).addressQualifier.keys := by
    rw [stored]
    exact mem_singleton_self _
  refine ((root_qualifier_query_exact_iff _ ⟨?_, ?_⟩ _ _ (by decide)).mpr
    (.inl (by decide))).mpr ⟨ascii "#TAG/#SUB", member, .inr ⟨ascii "#SUB", rfl⟩⟩
  · rw [stored]
    decide +kernel
  · rw [stored]
    decide

/-- A root of 253 bytes: the length bytes of the name below it stand before its own. -/
theorem root_qualifier_query_missed :
    assetNameType root = .qualifier ∧ assetNameType sub = .subQualifier ∧
      root ++ [subNameDelimiter] <+: sub ∧ rootQualifierQuery (tagged sub) alice root = false := by
  refine ⟨by decide +kernel, by decide +kernel, by decide +kernel, ?_⟩
  decide +kernel

end Phicoin
