import Phicoin.Env
import Phicoin.Lib.Regex
import Phicoin.Lib.Validation

/-! # Asset names

The name grammar, pattern by pattern as the source writes it, and the functions
that derive one name from another: the parent of a name and the owner token of a
restricted asset. -/

namespace Phicoin

open Regex List Check

def between (low high : Char) (c : UInt8) : Bool := low.toNat ≤ c.toNat && c.toNat ≤ high.toNat

variable (chars : String)

def oneOf (c : UInt8) : Bool := (ascii chars).contains c

def noneOf (c : UInt8) : Bool := !oneOf chars c

/-- `[A-Z0-9]` and further characters. -/
def upperOr : Regex UInt8 :=
  .cls fun c => between 'A' 'Z' c || between '0' '9' c || oneOf chars c

/-- `[A-Za-z0-9]` and further characters. -/
def alphaOr : Regex UInt8 :=
  .cls fun c => between 'A' 'Z' c || between 'a' 'z' c || between '0' '9' c || oneOf chars c

/-- `.` of an ECMAScript pattern: anything but a line terminator. -/
def anyChar : Regex UInt8 := .cls (noneOf "\n\r")

def lit : Regex UInt8 := .cls (oneOf chars)

def rootNameCharacters : Regex UInt8 :=
  .alt (.cls (between 'A' 'Z'))
    (.seq (.cls (between 'A' 'Z')) (.seq (upTo (upperOr "-") 62) (upperOr "")))

def subNameCharacters : Regex UInt8 :=
  .alt (upperOr "") (.seq (upperOr "") (.seq (upTo (upperOr "-") 61) (upperOr "")))

def uniqueTagCharacters : Regex UInt8 := plus (alphaOr "-@$%&*()[]\x7b\x7d?:")
def msgChannelTagCharacters : Regex UInt8 := plus (alphaOr "")
def voteTagCharacters : Regex UInt8 := plus (upperOr "")

def qualifierNameCharacters : Regex UInt8 := .seq (lit "#") (atLeast (upperOr "-") 3)
def subQualifierNameCharacters : Regex UInt8 := .seq (lit "#") (plus (upperOr "-"))
def restrictedNameCharacters : Regex UInt8 := .seq (lit "$") (atLeast (upperOr "-") 3)

def doubleHyphen : Regex UInt8 := .seq (.star anyChar) (.seq (atLeast (lit "-") 2) (.star anyChar))
def leadingHyphen : Regex UInt8 := .seq (lit "-") (.star anyChar)
def trailingHyphen : Regex UInt8 := .seq (.star anyChar) (lit "-")
def qualifierLeadingHyphen : Regex UInt8 := .seq (lit "#$") (.seq (lit "-") (.star anyChar))

def punycodeSuffix : Regex UInt8 :=
  .seq (plus (upperOr "")) (.star (.seq (lit "-") (plus (upperOr ""))))

/-- A tagged name: characters before the tag delimiter and characters after it. -/
def tagIndicator (delimiter : String) : Regex UInt8 :=
  .seq (plus (.cls (noneOf "^~#!"))) (.seq (lit delimiter) (plus (.cls (noneOf "~#!/"))))

def uniqueIndicator : Regex UInt8 := tagIndicator "#"
def msgChannelIndicator : Regex UInt8 := tagIndicator "~"
def ownerIndicator : Regex UInt8 := .seq (plus (.cls (noneOf "^~#!"))) (lit "!")
def voteIndicator : Regex UInt8 := tagIndicator "^"

def qualifierIndicator : Regex UInt8 := .seq (lit "#") (atLeast (upperOr "._") 3)
def subQualifierIndicator : Regex UInt8 :=
  .seq (lit "#") (.seq (plus (upperOr "._"))
    (.seq (lit "/") (.seq (lit "#") (plus (upperOr "._")))))
def restrictedIndicator : Regex UInt8 := .seq (lit "$") (atLeast (upperOr "._") 3)

variable (name : Bytes)

def isRootNameValid : Bool := rootNameCharacters.accepts name

def isQualifierNameValid : Bool :=
  qualifierNameCharacters.accepts name && !doubleHyphen.accepts name &&
    !qualifierLeadingHyphen.accepts name && !trailingHyphen.accepts name

def hyphensValid : Bool :=
  !doubleHyphen.accepts name && !leadingHyphen.accepts name && !trailingHyphen.accepts name

def isRestrictedNameValid : Bool :=
  restrictedNameCharacters.accepts name && hyphensValid name

def isSubQualifierNameValid : Bool :=
  subQualifierNameCharacters.accepts name && hyphensValid name

def isValidUppercasePunycode : Bool :=
  if name.length < 5 || name.take 4 ≠ ascii "XN--" then false
  else punycodeSuffix.accepts (name.drop 4)

def isSubNameValid : Bool :=
  if !subNameCharacters.accepts name then false
  else if isValidUppercasePunycode name then true
  else hyphensValid name

def isUniqueTagValid (tag : Bytes) : Bool := uniqueTagCharacters.accepts tag

def isVoteTagValid (tag : Bytes) : Bool := voteTagCharacters.accepts tag

def isMsgChannelTagValid (tag : Bytes) : Bool :=
  msgChannelTagCharacters.accepts tag && hyphensValid tag

/-- `boost::split`; there is always a first part. -/
def splitAt (delimiter : UInt8) (name : Bytes) : List Bytes := name.splitOn delimiter

def subNameDelimiter : UInt8 := 47
def uniqueTagDelimiter : UInt8 := 35
def msgChannelTagDelimiter : UInt8 := 126
def voteTagDelimiter : UInt8 := 94

def isNameValidBeforeTag : Bool :=
  let parts := splitAt subNameDelimiter name
  isRootNameValid (parts.headD []) && parts.tail.all isSubNameValid

def isQualifierNameValidBeforeTag : Bool :=
  let parts := splitAt subNameDelimiter name
  isQualifierNameValid (parts.headD []) && parts.length ≤ 2 &&
    parts.tail.all isSubQualifierNameValid

def isAssetNameASubasset : Bool :=
  let parts := splitAt subNameDelimiter name
  isRootNameValid (parts.headD []) && parts.length > 1

def isAssetNameASubQualifier : Bool :=
  let parts := splitAt subNameDelimiter name
  isQualifierNameValid (parts.headD []) && parts.length > 1

def maxNameLength : Nat := 256
def maxChannelNameLength : Nat := 12
def minAssetLength : Nat := 1

def tooLong : String := "Name is greater than max length of 256"

/-- `IsTypeCheckNameValid`, with its error texts. -/
def isTypeCheckNameValid (type : AssetType) (name : Bytes) : Check Unit :=
  match type with
  | .unique => do
      require (name.length ≤ maxNameLength) tooLong
      let parts := splitAt uniqueTagDelimiter name
      require (isNameValidBeforeTag (parts.headD []) && isUniqueTagValid (parts.getLastD []))
        ("Unique name contains invalid characters (Valid characters are: " ++
          "A-Z a-z 0-9 @ $ % & * ( ) [ ] \x7b \x7d ? : -)")
  | .msgChannel => do
      require (name.length ≤ maxNameLength) tooLong
      let parts := splitAt msgChannelTagDelimiter name
      require ((parts.getLastD []).length ≤ maxChannelNameLength)
        "Channel name is greater than max length of 12"
      require
        (isNameValidBeforeTag (parts.headD []) && isMsgChannelTagValid (parts.getLastD []))
        ("Message Channel name contains invalid characters (Valid characters are: A-Z 0-9 -) " ++
          "(must start with letter, end with letter/digit, hyphen not at start/end)")
  | .owner => do
      require (name.length ≤ maxNameLength) tooLong
      require (isNameValidBeforeTag (name.take (name.length - 1)))
        ("Owner name contains invalid characters (Valid characters are: A-Z 0-9 -) " ++
          "(must start with letter, end with letter/digit, hyphen not at start/end)")
  | .vote => do
      require (name.length ≤ maxNameLength) tooLong
      let parts := splitAt voteTagDelimiter name
      require (isNameValidBeforeTag (parts.headD []) && isVoteTagValid (parts.getLastD []))
        ("Vote name contains invalid characters (Valid characters are: A-Z 0-9 -) " ++
          "(must start with letter, end with letter/digit, hyphen not at start/end)")
  | .qualifier | .subQualifier => do
      require (name.length ≤ maxNameLength) tooLong
      require (isQualifierNameValidBeforeTag name)
        ("Qualifier name contains invalid characters (Valid characters are: A-Z 0-9 -) " ++
          "(# must be the first character, must start with letter after #, " ++
          "end with letter/digit, hyphen not at start/end)")
  | .restricted => do
      require (name.length ≤ maxNameLength) tooLong
      require (isRestrictedNameValid name)
        ("Restricted name contains invalid characters (Valid characters are: A-Z 0-9 -) " ++
          "($ must be the first character, must start with letter after $, " ++
          "end with letter/digit, hyphen not at start/end)")
  | _ => do
      require (name.length ≤ maxNameLength - 1) "Name is greater than max length of 255"
      require (isAssetNameASubasset name || minAssetLength ≤ name.length)
        "Name must be contain 1 characters"
      let valid := isNameValidBeforeTag name
      require (valid || !(isAssetNameASubasset name && name.length < minAssetLength))
        "Name must have at least 1 characters (Valid characters are: A-Z 0-9 -)"
      require valid
        ("Name contains invalid characters (Valid characters are: A-Z 0-9 -) " ++
          "(must start with letter, end with letter/digit, hyphen not at start/end)")

/-- `IsAssetNameValid` with its output parameter: the type of a valid name.  A
name over 266 bytes is refused before a type or an error is set. -/
def isAssetNameValid : Check AssetType :=
  if name.length > 266 then .error ""
  else if uniqueIndicator.accepts name then do
    isTypeCheckNameValid .unique name
    return .unique
  else if msgChannelIndicator.accepts name then do
    isTypeCheckNameValid .msgChannel name
    return .msgChannel
  else if ownerIndicator.accepts name then do
    isTypeCheckNameValid .owner name
    return .owner
  else if voteIndicator.accepts name then do
    isTypeCheckNameValid .vote name
    return .vote
  else if qualifierIndicator.accepts name then do
    isTypeCheckNameValid .qualifier name
    return if isAssetNameASubQualifier name then .subQualifier else .qualifier
  else if subQualifierIndicator.accepts name then do
    isTypeCheckNameValid .subQualifier name
    return if isAssetNameASubQualifier name then .subQualifier else .invalid
  else if restrictedIndicator.accepts name then do
    isTypeCheckNameValid .restricted name
    return .restricted
  else do
    let type := if isAssetNameASubasset name then AssetType.sub else .root
    isTypeCheckNameValid type name
    return type

def assetNameType : AssetType :=
  match isAssetNameValid name with
  | .ok type => type
  | .error _ => .invalid

def isAssetNameAnOwner : Bool :=
  (isAssetNameValid name).passed && ownerIndicator.accepts name

def isAssetNameAnRestricted : Bool :=
  (isAssetNameValid name).passed && restrictedIndicator.accepts name

def isAssetNameAQualifier (fOnlyQualifiers : Bool) : Bool :=
  (isAssetNameValid name).passed &&
    (qualifierIndicator.accepts name || (!fOnlyQualifiers && subQualifierIndicator.accepts name))

def isAssetNameAnMsgChannel : Bool :=
  (isAssetNameValid name).passed && msgChannelIndicator.accepts name

def ownerTag : Bytes := ascii "!"
def restrictedChar : UInt8 := 36
def qualifierChar : UInt8 := 35

/-- What stands before the last occurrence of a delimiter; the whole name when
there is none. -/
def beforeLast (delimiter : UInt8) (name : Bytes) : Bytes :=
  match name.reverse.dropWhile (· ≠ delimiter) with
  | [] => name
  | _ :: front => front.reverse

def getParentName : Bytes :=
  match isAssetNameValid name with
  | .error _ => []
  | .ok type =>
    match type with
    | .sub => beforeLast subNameDelimiter name
    | .unique => beforeLast uniqueTagDelimiter name
    | .msgChannel => beforeLast msgChannelTagDelimiter name
    | .vote => beforeLast voteTagDelimiter name
    | .subQualifier => beforeLast subNameDelimiter name
    | _ => name

theorem mem_splitAt {delimiter c : UInt8} {name : Bytes} (member : c ∈ name) :
    c = delimiter ∨ ∃ part ∈ splitAt delimiter name, c ∈ part := by
  have joined : [delimiter].intercalate (splitAt delimiter name) = name :=
    intercalate_splitOn delimiter
  rw [← joined] at member
  generalize splitAt delimiter name = parts at member
  clear joined
  induction parts with
  | nil => simp at member
  | cons part rest ih =>
    cases rest with
    | nil =>
      rw [intercalate_singleton] at member
      exact .inr ⟨part, mem_singleton_self part, member⟩
    | cons next others =>
      rw [intercalate_cons_cons, mem_append, mem_append, mem_singleton]
        at member
      rcases member with (first | isDelimiter) | later
      · exact .inr ⟨part, mem_cons_self, first⟩
      · exact .inl isDelimiter
      · rcases ih later with isDelimiter | ⟨other, inRest, found⟩
        · exact .inl isDelimiter
        · exact .inr ⟨other, mem_cons_of_mem _ inRest, found⟩

theorem not_mem_of_isNameValidBeforeTag {name : Bytes} {c : UInt8}
    (root : rootNameCharacters.avoids c = true) (sub : subNameCharacters.avoids c = true)
    (differs : c ≠ subNameDelimiter) (valid : isNameValidBeforeTag name = true) : c ∉ name := by
  intro marked
  rcases @mem_splitAt subNameDelimiter c name marked with isDelimiter | ⟨part, member, inPart⟩
  · exact differs isDelimiter
  unfold isNameValidBeforeTag at valid
  simp only [Bool.and_eq_true, all_eq_true] at valid
  obtain ⟨first, subs⟩ := valid
  generalize splitAt subNameDelimiter name = parts at member first subs
  cases parts with
  | nil => cases member
  | cons head rest =>
    rcases mem_cons.mp member with rfl | later
    · exact not_mem_of_avoids first root inPart
    · have subValid := subs part later
      unfold isSubNameValid at subValid
      split_ifs at subValid with characters
      · exact not_mem_of_avoids (by simpa using characters) sub inPart
      · exact not_mem_of_avoids (by simpa using characters) sub inPart

theorem not_mark_of_isNameValidBeforeTag {name : Bytes} (valid : isNameValidBeforeTag name = true) :
    ∀ c ∈ ascii "^~#!$", c ∉ name := by
  have avoided : ∀ c ∈ ascii "^~#!$", rootNameCharacters.avoids c = true ∧
      subNameCharacters.avoids c = true ∧ c ≠ subNameDelimiter := by decide +kernel
  intro c isMark
  obtain ⟨root, sub, differs⟩ := avoided c isMark
  exact not_mem_of_isNameValidBeforeTag root sub differs valid

/-- What the name check has seen of a name when it answers with a type. -/
theorem isAssetNameValid_ok {name : Bytes} {type : AssetType}
    (valid : isAssetNameValid name = .ok type) :
    match type with
    | .unique => uniqueIndicator.accepts name = true ∧ name.length ≤ maxNameLength ∧
        isNameValidBeforeTag ((splitAt uniqueTagDelimiter name).headD []) = true
    | .msgChannel => msgChannelIndicator.accepts name = true ∧ name.length ≤ maxNameLength ∧
        isNameValidBeforeTag ((splitAt msgChannelTagDelimiter name).headD []) = true
    | .owner => ownerIndicator.accepts name = true ∧
        isNameValidBeforeTag (name.take (name.length - 1)) = true
    | .vote => voteIndicator.accepts name = true ∧ name.length ≤ maxNameLength ∧
        isNameValidBeforeTag ((splitAt voteTagDelimiter name).headD []) = true
    | .restricted => restrictedIndicator.accepts name = true ∧ name.length ≤ maxNameLength
    | .root | .sub | .reissue | .nullAddQualifier =>
        isNameValidBeforeTag name = true ∧ name.length < maxNameLength ∧
        type = if isAssetNameASubasset name then .sub else .root
    | type => (qualifierIndicator.accepts name = true ∨ subQualifierIndicator.accepts name = true) ∧
        name.length ≤ maxNameLength ∧ isQualifierNameValidBeforeTag name = true ∧
        type = if isAssetNameASubQualifier name then .subQualifier
          else if qualifierIndicator.accepts name then .qualifier else .invalid := by
  unfold isAssetNameValid at valid
  split_ifs at valid with _ unique channel owner vote qualifier isSub subQualifier isSub restricted
    isSub
  all_goals
    obtain ⟨_, checked, valid⟩ := bind_eq_ok.mp valid
    obtain rfl := pure_eq_ok.mp valid
    obtain ⟨_, size, checked⟩ := bind_eq_ok.mp checked
    have short := of_decide_eq_true (require_eq_ok.mp size)
  · exact ⟨unique, short, (by simpa using checked : _ ∧ _).1⟩
  · obtain ⟨_, _, checked⟩ := bind_eq_ok.mp checked
    exact ⟨channel, short, (by simpa using checked : _ ∧ _).1⟩
  · exact ⟨owner, require_eq_ok.mp checked⟩
  · exact ⟨vote, short, (by simpa using checked : _ ∧ _).1⟩
  · exact ⟨.inl qualifier, short, require_eq_ok.mp checked, by simp [isSub]⟩
  · exact ⟨.inl qualifier, short, require_eq_ok.mp checked, by simp [isSub, qualifier]⟩
  · exact ⟨.inr subQualifier, short, require_eq_ok.mp checked, by simp [isSub]⟩
  · exact ⟨.inr subQualifier, short, require_eq_ok.mp checked, by simp [isSub, qualifier]⟩
  · exact ⟨restricted, short⟩
  all_goals
    obtain ⟨_, _, _, _, checked⟩ := ok_bind₂ checked
    exact ⟨require_eq_ok.mp checked, lt_of_le_of_lt short (by decide), by simp [isSub]⟩

theorem isAssetNameAnOwner_of_mark {name : Bytes} (valid : (isAssetNameValid name).passed = true)
    (marked : (33 : UInt8) ∈ name) : isAssetNameAnOwner name = true := by
  rw [isAssetNameAnOwner, valid, Bool.true_and]
  obtain ⟨type, checked⟩ := passed_iff.mp valid
  have shape := isAssetNameValid_ok checked
  have free : ∀ r : Regex UInt8, r.avoids 33 = true → ¬ r.accepts name = true :=
    fun r avoided accepted => not_mem_of_avoids accepted avoided marked
  cases type with
  | owner => exact shape.1
  | unique | msgChannel | vote | restricted => exact absurd shape.1 (free _ (by decide))
  | qualifier | subQualifier | invalid =>
    rcases shape.1 with root | sub
    · exact absurd root (free _ (by decide))
    · exact absurd sub (free _ (by decide))
  | _ => exact absurd marked (not_mark_of_isNameValidBeforeTag shape.1 _ (by decide))

theorem mem_head_splitAt {delimiter c : UInt8} (differs : c ≠ delimiter) (rest : Bytes) :
    c ∈ (splitAt delimiter (c :: rest)).headD [] := by
  have notNil := splitOnP_ne_nil (· == delimiter) rest
  unfold splitAt splitOn
  rw [splitOnP_cons_eq_if_modifyHead, if_neg (by simpa using differs)]
  cases parts : splitOnP (· == delimiter) rest with
  | nil => exact absurd parts notNil
  | cons first later => simp

theorem isAssetNameValid_lower_t {rest : Bytes} :
    (isAssetNameValid (116 :: rest)).passed = false := by
  rw [Bool.eq_false_iff, Ne, passed_iff]
  rintro ⟨type, valid⟩
  have before : ∀ part : Bytes, isNameValidBeforeTag part = true → (116 : UInt8) ∉ part :=
    fun part => not_mem_of_isNameValidBeforeTag (by decide) (by decide) (by decide)
  have free : ∀ r : Regex UInt8, r.avoids 116 = true → ¬ r.accepts (116 :: rest) = true :=
    fun r avoided accepted => not_mem_of_avoids accepted avoided mem_cons_self
  have shape := isAssetNameValid_ok valid
  cases type with
  | unique | msgChannel | vote => exact before _ shape.2.2 (mem_head_splitAt (by decide) rest)
  | owner =>
    cases rest with
    | nil => exact absurd shape.1 (by decide)
    | cons next others => exact before _ shape.2 (by simp)
  | restricted => exact free _ (by decide) shape.1
  | qualifier | subQualifier | invalid =>
    rcases shape.1 with root | sub
    · exact free _ (by decide) root
    · exact free _ (by decide) sub
  | _ => exact before _ shape.1 mem_cons_self

theorem not_tagged_of_mark (r : Regex UInt8) (rest : Bytes) :
    ¬ accepts (.seq (plus (.cls (noneOf "^~#!"))) r) (qualifierChar :: rest) = true := by
  intro accepted
  obtain ⟨c, others, same, outside⟩ := accepts_seq_seq_cls accepted
  cases same
  exact absurd outside (by decide)

theorem isAssetNameValid_mark {rest : Bytes} {type : AssetType}
    (valid : isAssetNameValid (qualifierChar :: rest) = .ok type) :
    (qualifierIndicator.accepts (qualifierChar :: rest) = true ∨
        subQualifierIndicator.accepts (qualifierChar :: rest) = true) ∧
      (qualifierChar :: rest).length ≤ maxNameLength ∧
      isQualifierNameValidBeforeTag (qualifierChar :: rest) = true ∧
      type = if isAssetNameASubQualifier (qualifierChar :: rest) then .subQualifier
        else if qualifierIndicator.accepts (qualifierChar :: rest) then .qualifier
        else .invalid := by
  have shape := isAssetNameValid_ok valid
  cases type with
  | qualifier | subQualifier | invalid => exact shape
  | unique | msgChannel | owner | vote => exact absurd shape.1 (not_tagged_of_mark _ rest)
  | restricted =>
    obtain ⟨c, others, same, isDollar, _⟩ := accepts_seq_cls.mp shape.1
    cases same
    exact absurd isDollar (by decide)
  | _ => exact absurd mem_cons_self (not_mark_of_isNameValidBeforeTag shape.1 _ (by decide))

theorem isAssetNameAQualifier_of_mark {rest : Bytes}
    (valid : (isAssetNameValid (qualifierChar :: rest)).passed = true) :
    isAssetNameAQualifier (qualifierChar :: rest) false = true := by
  obtain ⟨type, checked⟩ := passed_iff.mp valid
  rw [isAssetNameAQualifier, valid, Bool.true_and, Bool.not_false, Bool.true_and, Bool.or_eq_true]
  exact (isAssetNameValid_mark checked).1

end Phicoin
