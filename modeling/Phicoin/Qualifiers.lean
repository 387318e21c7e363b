import Phicoin.Issuance

/-! # Names of qualifiers

A qualifier is a root or stands below one: the name of a sub-qualifier is that of
its root, a slash and a further name with the mark of qualifiers.  The slash is what
the lookups go by, `IsAssetNameASubQualifier` and `GetParentName` as well as the
scan of the database. -/

namespace Phicoin

open Check List ByteReader Regex

theorem beforeLast_append {delimiter : UInt8} {front back : Bytes} (free : delimiter ∉ back) :
    beforeLast delimiter (front ++ delimiter :: back) = front := by
  unfold beforeLast
  have skipped : (front ++ delimiter :: back).reverse.dropWhile (· ≠ delimiter) =
      delimiter :: front.reverse := by
    rw [reverse_append, reverse_cons, append_assoc, dropWhile_append_of_pos]
    · simp
    · intro c member
      simpa using fun same : c = delimiter => free (same ▸ mem_reverse.mp member)
  rw [skipped]
  simp

variable {rest : Bytes}

theorem isAssetNameAQualifier_root (size : (qualifierChar :: rest).length ≤ maxNameLength)
    (root : qualifierIndicator.accepts (qualifierChar :: rest) = true)
    (characters : isQualifierNameValid (qualifierChar :: rest) = true) :
    isAssetNameAQualifier (qualifierChar :: rest) true = true := by
  have free : subNameDelimiter ∉ qualifierChar :: rest := not_mem_of_avoids root (by decide)
  have before : isQualifierNameValidBeforeTag (qualifierChar :: rest) = true := by
    unfold isQualifierNameValidBeforeTag splitAt
    rw [splitOn_eq_singleton free]
    simp [characters]
  have short : ¬ (qualifierChar :: rest).length > 266 := not_lt.mpr (le_trans size (by decide))
  have checked : isTypeCheckNameValid .qualifier (qualifierChar :: rest) = .ok () :=
    bind_eq_ok.mpr ⟨(), require_eq_ok.mpr (decide_eq_true size), require_eq_ok.mpr before⟩
  have tagged := fun r => not_tagged_of_mark r rest
  unfold isAssetNameAQualifier isAssetNameValid uniqueIndicator msgChannelIndicator ownerIndicator
    voteIndicator tagIndicator
  rw [if_neg short, if_neg (tagged _), if_neg (tagged _), if_neg (tagged _), if_neg (tagged _),
    if_pos root, checked, root]
  rfl

structure SubQualifierOf (root name : Bytes) : Prop where
  free : subNameDelimiter ∉ root
  shape : ∃ tag, subNameDelimiter ∉ qualifierChar :: tag ∧
    name = root ++ subNameDelimiter :: qualifierChar :: tag
  isSub : isAssetNameASubQualifier name = true
  parent : getParentName name = root
  isRoot : isAssetNameAQualifier root true = true

variable {name : Bytes}

theorem qualifier_cases (valid : isAssetNameAQualifier name false = true) :
    (subNameDelimiter ∉ name ∧ isAssetNameASubQualifier name = false) ∨
      ∃ root, SubQualifierOf root name := by
  obtain ⟨rest, rfl⟩ := head?_eq_some_iff.mp (head_of_qualifier valid)
  simp only [isAssetNameAQualifier, Bool.and_eq_true, Bool.or_eq_true, Bool.not_false, true_and]
    at valid
  obtain ⟨passes, qualifier⟩ := valid
  by_cases slash : subNameDelimiter ∈ qualifierChar :: rest
  · right
    have notRoot : ¬ qualifierIndicator.accepts (qualifierChar :: rest) = true := fun root =>
      not_mem_of_avoids root (by decide) slash
    have hash : ascii "#" = [qualifierChar] := by decide
    have bar : ascii "/" = [subNameDelimiter] := by decide
    -- the four parts of the pattern
    obtain ⟨c, others, same, _, accepted⟩ :=
      accepts_seq_cls.mp (qualifier.resolve_left notRoot)
    cases same
    obtain ⟨first, second, rfl, left, right⟩ :=
      matches_seq.mp ((accepts_iff _ _).mp accepted)
    obtain ⟨c, later, rfl, isSlash, accepted'⟩ :=
      accepts_seq_cls.mp ((accepts_iff _ _).mpr right)
    obtain rfl : c = subNameDelimiter := by simpa [oneOf, bar] using isSlash
    obtain ⟨c, tag, rfl, isHash, last⟩ := accepts_seq_cls.mp accepted'
    obtain rfl : c = qualifierChar := by simpa [oneOf, hash] using isHash
    have firstFree : subNameDelimiter ∉ qualifierChar :: first := by
      rw [mem_cons, not_or]
      exact ⟨by decide, not_mem_of_avoids ((accepts_iff _ _).mpr left) (by decide)⟩
    have tagFree : subNameDelimiter ∉ qualifierChar :: tag := by
      rw [mem_cons, not_or]
      exact ⟨by decide, not_mem_of_avoids last (by decide)⟩
    have parts : splitAt subNameDelimiter
        (qualifierChar :: (first ++ subNameDelimiter :: qualifierChar :: tag)) =
        [qualifierChar :: first, qualifierChar :: tag] := by
      rw [splitAt, ← cons_append, splitOn_append_cons_self_of_not_mem firstFree,
        splitOn_eq_singleton tagFree]
    obtain ⟨type, passed⟩ := passed_iff.mp passes
    obtain ⟨_, size, before, isType⟩ := isAssetNameValid_mark passed
    simp only [isQualifierNameValidBeforeTag, parts, Bool.and_eq_true, headD_cons] at before
    have characters : isQualifierNameValid (qualifierChar :: first) = true := before.1.1
    have isSub : isAssetNameASubQualifier
        (qualifierChar :: (first ++ subNameDelimiter :: qualifierChar :: tag)) = true := by
      simp [isAssetNameASubQualifier, parts, characters]
    refine ⟨qualifierChar :: first, firstFree, ⟨tag, tagFree, rfl⟩, isSub, ?_, ?_⟩
    · rw [isSub, if_pos rfl] at isType
      simp only [getParentName, passed, isType]
      rw [← cons_append]
      exact beforeLast_append tagFree
    · have long : 3 ≤ first.length := by
        simp only [isQualifierNameValid, Bool.and_eq_true] at characters
        obtain ⟨c, others, same, _, accepted⟩ := accepts_seq_cls.mp characters.1.1.1
        cases same
        exact (accepts_atLeast_cls.mp accepted).1
      have root : qualifierIndicator.accepts (qualifierChar :: first) = true := by
        refine accepts_seq_cls.mpr
          ⟨_, _, rfl, by decide, accepts_atLeast_cls.mpr ⟨long, ?_⟩⟩
        intro c member
        have run : accepts (atLeast (upperOr "._") 1) first = true := by
          rw [accepts_iff]
          obtain ⟨u, v, rfl, head, tail⟩ := matches_seq.mp left
          exact matches_seq.mpr
            ⟨u, v, rfl, matches_seq.mpr ⟨u, [], by simp, head, .eps⟩, tail⟩
        exact (accepts_atLeast_cls.mp run).2 c member
      refine isAssetNameAQualifier_root ?_ root characters
      simp only [length_cons, length_append] at size ⊢
      omega
  · refine .inl ⟨slash, ?_⟩
    unfold isAssetNameASubQualifier splitAt
    rw [splitOn_eq_singleton slash]
    simp

theorem subQualifierOf_parent (valid : isAssetNameAQualifier name false = true)
    (isSub : isAssetNameASubQualifier name = true) : SubQualifierOf (getParentName name) name := by
  rcases qualifier_cases valid with ⟨_, notSub⟩ | ⟨root, sub⟩
  · rw [isSub] at notSub
    cases notSub
  · rwa [sub.parent]

theorem subQualifierOf_of_append {root name rest : Bytes}
    (valid : isAssetNameAQualifier name false = true)
    (split : name = root ++ subNameDelimiter :: rest) : SubQualifierOf root name := by
  rcases qualifier_cases valid with ⟨free, _⟩ | ⟨other, sub⟩
  · exact absurd (split ▸ mem_append_right root mem_cons_self) free
  · obtain ⟨tag, tagFree, shape⟩ := sub.shape
    have same := split.symm.trans shape
    -- the only slash of the name is where both parts end
    rcases append_eq_append_iff.mp same with ⟨more, rfl, later⟩ | ⟨more, rfl, later⟩
    · cases more with
      | nil => simpa using sub
      | cons c others =>
        cases later
        exact absurd (mem_append_right root mem_cons_self) sub.free
    · cases more with
      | nil => simpa using sub
      | cons c others =>
        obtain ⟨_, later⟩ := List.cons.inj later
        exact absurd (later ▸ mem_append_right others mem_cons_self) tagFree

theorem SubQualifierOf.not_sub_root {root : Bytes} (sub : SubQualifierOf root name) :
    isAssetNameASubQualifier root = false := by
  unfold isAssetNameASubQualifier splitAt
  rw [splitOn_eq_singleton sub.free]
  simp

theorem SubQualifierOf.seek {root : Bytes} (sub : SubQualifierOf root name)
    (short : root.length < 253) : writeString root ≤ writeString name := by
  obtain ⟨tag, _, shape⟩ := sub.shape
  have longer : root.length < name.length := by simp [shape]
  have rootSize : writeString root = UInt8.ofNat root.length :: root := by
    rw [writeString, writeCompactSize, if_pos short, leBytes,
      Nat.mod_eq_of_lt (by omega)]
    rfl
  obtain ⟨size, rest, nameSize, above⟩ : ∃ size rest, writeString name = size :: rest ∧
      root.length < size.toNat := by
    rw [writeString, writeCompactSize]
    split_ifs with one two four
    · exact ⟨_, _, rfl, by rw [UInt8.toNat_ofNat']; omega⟩
    · exact ⟨_, _, rfl, by rw [UInt8.toNat_ofNat']; omega⟩
    · exact ⟨_, _, rfl, by rw [UInt8.toNat_ofNat']; omega⟩
    · exact ⟨_, _, rfl, by rw [UInt8.toNat_ofNat']; omega⟩
  rw [rootSize, nameSize]
  have less : UInt8.ofNat root.length < size := by
    rw [UInt8.lt_iff_toNat_lt, UInt8.toNat_ofNat']
    omega
  intro below
  rcases cons_lt_cons_iff.mp below with smaller | ⟨same, _⟩
  · exact absurd smaller (UInt8.not_lt.mpr (UInt8.le_of_lt less))
  · exact absurd same (UInt8.ne_of_lt less).symm

end Phicoin
