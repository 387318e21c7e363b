import Mathlib.Data.List.Basic

/-! # Regular expressions over character classes

Regular expressions whose symbols are decidable character classes, matched
against a whole word by Brzozowski derivatives.  `Matches` is the language of an
expression and `accepts_iff` says that the matcher decides it.  The lemmas after
it read facts about a word off its pattern: how it starts (`accepts_seq_cls`) and
which symbols it does not have (`not_mem_of_avoids`). -/

inductive Regex (α : Type) where
  | empty
  | eps
  | cls (member : α → Bool)
  | alt (left right : Regex α)
  | seq (left right : Regex α)
  | star (body : Regex α)

namespace Regex

open List

variable {α : Type}

/-- The words of an expression. -/
inductive Matches : Regex α → List α → Prop where
  | eps : Matches .eps []
  | cls {member : α → Bool} {c : α} (holds : member c = true) : Matches (.cls member) [c]
  | altLeft {r s : Regex α} {w : List α} (left : Matches r w) : Matches (.alt r s) w
  | altRight {r s : Regex α} {w : List α} (right : Matches s w) : Matches (.alt r s) w
  | seq {r s : Regex α} {u v : List α} (left : Matches r u) (right : Matches s v) :
      Matches (.seq r s) (u ++ v)
  | starNil {r : Regex α} : Matches (.star r) []
  | starCons {r : Regex α} {u v : List α} (head : Matches r u) (tail : Matches (.star r) v) :
      Matches (.star r) (u ++ v)

/-- `r+` -/
def plus (r : Regex α) : Regex α := .seq r (.star r)

/-- `r{n}` -/
def power (r : Regex α) : Nat → Regex α
  | 0 => .eps
  | n + 1 => .seq r (power r n)

/-- `r{n,}` -/
def atLeast (r : Regex α) (n : Nat) : Regex α := .seq (power r n) (.star r)

/-- `r{0,n}` -/
def upTo (r : Regex α) : Nat → Regex α
  | 0 => .eps
  | n + 1 => .alt .eps (.seq r (upTo r n))

/-- Sequence with the unit and the zero simplified away. -/
def mkSeq : Regex α → Regex α → Regex α
  | .empty, _ => .empty
  | .eps, s => s
  | r, s => .seq r s

/-- Alternative with the zero simplified away. -/
def mkAlt : Regex α → Regex α → Regex α
  | .empty, s => s
  | r, .empty => r
  | r, s => .alt r s

def nullable : Regex α → Bool
  | .empty => false
  | .eps => true
  | .cls _ => false
  | .alt r s => nullable r || nullable s
  | .seq r s => nullable r && nullable s
  | .star _ => true

/-- The expression of the words that complete `c` to a word of the expression. -/
def deriv (c : α) : Regex α → Regex α
  | .empty => .empty
  | .eps => .empty
  | .cls member => if member c then .eps else .empty
  | .alt r s => mkAlt (deriv c r) (deriv c s)
  | .seq r s =>
    if nullable r then mkAlt (mkSeq (deriv c r) s) (deriv c s)
    else mkSeq (deriv c r) s
  | .star r => mkSeq (deriv c r) (.star r)

/-- Whole-word match. -/
def accepts : Regex α → List α → Bool
  | r, [] => nullable r
  | r, c :: rest => accepts (deriv c r) rest

theorem matches_alt {r s : Regex α} {w : List α} :
    Matches (.alt r s) w ↔ Matches r w ∨ Matches s w := by
  constructor
  · intro matched
    cases matched with
    | altLeft left => exact Or.inl left
    | altRight right => exact Or.inr right
  · rintro (left | right)
    · exact .altLeft left
    · exact .altRight right

theorem matches_seq {r s : Regex α} {w : List α} :
    Matches (.seq r s) w ↔ ∃ u v, w = u ++ v ∧ Matches r u ∧ Matches s v := by
  constructor
  · intro matched
    cases matched with
    | seq left right => exact ⟨_, _, rfl, left, right⟩
  · rintro ⟨u, v, rfl, left, right⟩
    exact .seq left right

theorem not_matches_empty {w : List α} : ¬ Matches (.empty : Regex α) w := by
  intro matched
  cases matched

theorem matches_eps {w : List α} : Matches (.eps : Regex α) w ↔ w = [] := by
  constructor
  · intro matched
    cases matched
    rfl
  · rintro rfl
    exact .eps

theorem matches_mkSeq {r s : Regex α} {w : List α} :
    Matches (mkSeq r s) w ↔ Matches (.seq r s) w := by
  cases r with
  | empty => simp [mkSeq, matches_seq, not_matches_empty]
  | eps => simp [mkSeq, matches_seq, matches_eps]
  | cls member => rfl
  | alt left right => rfl
  | seq left right => rfl
  | star body => rfl

theorem matches_mkAlt {r s : Regex α} {w : List α} :
    Matches (mkAlt r s) w ↔ Matches (.alt r s) w := by
  cases r <;> cases s <;> simp [mkAlt, matches_alt, not_matches_empty]

theorem nullable_iff (r : Regex α) : nullable r = true ↔ Matches r [] := by
  induction r with
  | empty => simp [nullable, not_matches_empty]
  | eps => simp [nullable, matches_eps]
  | cls member =>
    simp only [nullable, Bool.false_eq_true, false_iff]
    intro matched
    cases matched
  | alt left right ihLeft ihRight => simp [nullable, ihLeft, ihRight, matches_alt]
  | seq left right ihLeft ihRight =>
    rw [matches_seq]
    simp only [nullable, Bool.and_eq_true, ihLeft, ihRight]
    constructor
    · rintro ⟨first, second⟩
      exact ⟨[], [], rfl, first, second⟩
    · rintro ⟨u, v, split, first, second⟩
      obtain ⟨rfl, rfl⟩ := append_eq_nil_iff.mp split.symm
      exact ⟨first, second⟩
  | star body => simp [nullable, Matches.starNil]

/-- A nonempty word of a star splits off a nonempty word of its body. -/
theorem matches_star_cons {r : Regex α} {c : α} {w : List α} :
    Matches (.star r) (c :: w) ↔
      ∃ u v, w = u ++ v ∧ Matches r (c :: u) ∧ Matches (.star r) v := by
  constructor
  · intro matched
    generalize shape : c :: w = word at matched
    generalize expression : Regex.star r = e at matched
    induction matched with
    | eps | cls | altLeft | altRight | seq => cases expression
    | starNil => cases shape
    | @starCons r' u v head tail ihHead ihTail =>
      cases expression
      cases u with
      | nil => exact ihTail shape rfl
      | cons d rest =>
        obtain ⟨rfl, rfl⟩ := List.cons.inj shape
        exact ⟨rest, v, rfl, head, tail⟩
  · rintro ⟨u, v, rfl, head, tail⟩
    exact .starCons (u := c :: u) head tail

theorem deriv_iff (c : α) (r : Regex α) (w : List α) :
    Matches (deriv c r) w ↔ Matches r (c :: w) := by
  induction r generalizing w with
  | empty => simp [deriv, not_matches_empty]
  | eps => simp [deriv, not_matches_empty, matches_eps]
  | cls member =>
    by_cases holds : member c = true
    · simp only [deriv, holds, if_true, matches_eps]
      constructor
      · rintro rfl
        exact .cls holds
      · intro matched
        cases matched
        rfl
    · simp only [deriv, holds, if_false, not_matches_empty, false_iff, Bool.false_eq_true]
      intro matched
      cases matched with
      | cls member => exact holds member
  | alt left right ihLeft ihRight =>
    rw [deriv, matches_mkAlt, matches_alt, matches_alt, ihLeft, ihRight]
  | seq left right ihLeft ihRight =>
    -- the first symbol comes from the left part, or from the right one
    -- when the left part contributes the empty word
    have fromLeft : Matches (mkSeq (deriv c left) right) w ↔
        ∃ u v, w = u ++ v ∧ Matches left (c :: u) ∧ Matches right v := by
      simp only [matches_mkSeq, matches_seq, ihLeft]
    have whole : Matches (.seq left right) (c :: w) ↔
        Matches (mkSeq (deriv c left) right) w ∨
          (Matches left [] ∧ Matches right (c :: w)) := by
      rw [fromLeft, matches_seq]
      constructor
      · rintro ⟨u, v, split, first, second⟩
        cases u with
        | nil => exact Or.inr ⟨first, by simpa [split] using second⟩
        | cons d rest =>
          obtain ⟨rfl, rfl⟩ := List.cons.inj split
          exact Or.inl ⟨rest, v, rfl, first, second⟩
      · rintro (⟨u, v, rfl, first, second⟩ | ⟨first, second⟩)
        · exact ⟨c :: u, v, rfl, first, second⟩
        · exact ⟨[], c :: w, rfl, first, second⟩
    rw [whole]
    by_cases empty : nullable left = true
    · have emptyWord := (nullable_iff left).mp empty
      simp only [deriv, empty, if_true, matches_mkAlt, matches_alt, ihRight, emptyWord,
        true_and]
    · have noEmptyWord := mt (nullable_iff left).mpr empty
      simp [deriv, empty, noEmptyWord]
  | star body ih =>
    rw [deriv, matches_mkSeq, matches_seq, matches_star_cons]
    simp only [ih]

/-- The matcher decides the language. -/
theorem accepts_iff (r : Regex α) (w : List α) : accepts r w = true ↔ Matches r w := by
  induction w generalizing r with
  | nil => exact nullable_iff r
  | cons c rest ih => rw [accepts, ih, deriv_iff]

section

variable {member : α → Bool}

theorem matches_cls {w : List α} :
    Matches (.cls member) w ↔ ∃ c, member c = true ∧ w = [c] := by
  constructor
  · intro matched
    cases matched with
    | cls holds => exact ⟨_, holds, rfl⟩
  · rintro ⟨c, holds, rfl⟩
    exact .cls holds

/-- A word of a sequence that starts with a class starts with one of its symbols. -/
theorem accepts_seq_cls {r : Regex α} {w : List α} :
    accepts (.seq (.cls member) r) w = true ↔
      ∃ c rest, w = c :: rest ∧ member c = true ∧ accepts r rest = true := by
  rw [accepts_iff, matches_seq]
  constructor
  · rintro ⟨u, v, rfl, left, right⟩
    obtain ⟨c, holds, rfl⟩ := matches_cls.mp left
    exact ⟨c, v, rfl, holds, (accepts_iff r v).mpr right⟩
  · rintro ⟨c, rest, rfl, holds, tail⟩
    exact ⟨[c], rest, rfl, .cls holds, (accepts_iff r rest).mp tail⟩

/-- So does a word whose first part is such a sequence. -/
theorem accepts_seq_seq_cls {r s : Regex α} {w : List α}
    (accepted : accepts (.seq (.seq (.cls member) r) s) w = true) :
    ∃ c rest, w = c :: rest ∧ member c = true := by
  obtain ⟨u, v, rfl, run, _⟩ := matches_seq.mp ((accepts_iff _ _).mp accepted)
  obtain ⟨c, rest, rfl, holds, _⟩ := accepts_seq_cls.mp ((accepts_iff _ _).mpr run)
  exact ⟨c, rest ++ v, rfl, holds⟩

theorem matches_star_cls {w : List α} :
    Matches (.star (.cls member)) w ↔ ∀ c ∈ w, member c = true := by
  induction w with
  | nil => exact ⟨fun _ _ absent => absurd absent not_mem_nil, fun _ => .starNil⟩
  | cons c rest ih =>
    rw [matches_star_cons]
    constructor
    · rintro ⟨u, v, rfl, head, tail⟩
      obtain ⟨d, holds, same⟩ := matches_cls.mp head
      cases same
      rw [nil_append] at ih ⊢
      exact forall_mem_cons.mpr ⟨holds, ih.mp tail⟩
    · intro all
      obtain ⟨holds, others⟩ := forall_mem_cons.mp all
      exact ⟨[], rest, rfl, .cls holds, ih.mpr others⟩

theorem matches_power_cls {n : Nat} {w : List α} :
    Matches (power (.cls member) n) w ↔ w.length = n ∧ ∀ c ∈ w, member c = true := by
  induction n generalizing w with
  | zero =>
    rw [power, matches_eps]
    constructor
    · rintro rfl
      exact ⟨rfl, fun _ absent => absurd absent not_mem_nil⟩
    · rintro ⟨size, _⟩
      exact length_eq_zero_iff.mp size
  | succ n ih =>
    rw [power, matches_seq]
    constructor
    · rintro ⟨u, v, rfl, head, tail⟩
      obtain ⟨c, holds, rfl⟩ := matches_cls.mp head
      obtain ⟨size, others⟩ := ih.mp tail
      exact ⟨by simp [size], forall_mem_cons.mpr ⟨holds, others⟩⟩
    · rintro ⟨size, all⟩
      obtain ⟨c, rest, rfl⟩ := exists_cons_of_length_eq_add_one size
      obtain ⟨holds, others⟩ := forall_mem_cons.mp all
      exact ⟨[c], rest, rfl, .cls holds, ih.mpr ⟨by simpa using size, others⟩⟩

/-- At least so many symbols of a class. -/
theorem accepts_atLeast_cls {n : Nat} {w : List α} :
    accepts (atLeast (.cls member) n) w = true ↔ n ≤ w.length ∧ ∀ c ∈ w, member c = true := by
  rw [accepts_iff, atLeast, matches_seq]
  constructor
  · rintro ⟨u, v, rfl, head, tail⟩
    obtain ⟨size, first⟩ := matches_power_cls.mp head
    refine ⟨by simp [size], fun c isMember => ?_⟩
    rcases mem_append.mp isMember with before | after
    · exact first c before
    · exact matches_star_cls.mp tail c after
  · rintro ⟨size, all⟩
    refine ⟨w.take n, w.drop n, (take_append_drop n w).symm, ?_, ?_⟩
    · exact matches_power_cls.mpr
        ⟨length_take_of_le size, fun c isMember => all c (mem_of_mem_take isMember)⟩
    · exact matches_star_cls.mpr fun c isMember => all c (mem_of_mem_drop isMember)

end

/-- No class of the expression has the symbol. -/
def avoids (c : α) : Regex α → Bool
  | .empty => true
  | .eps => true
  | .cls member => !member c
  | .alt r s => avoids c r && avoids c s
  | .seq r s => avoids c r && avoids c s
  | .star r => avoids c r

theorem not_mem_of_avoids {c : α} {r : Regex α} {w : List α} (accepted : accepts r w = true)
    (avoided : avoids c r = true) : c ∉ w := by
  rw [accepts_iff] at accepted
  induction accepted with
  | eps => exact not_mem_nil
  | @cls member d holds =>
    intro isMember
    rw [mem_singleton] at isMember
    subst isMember
    simp [avoids, holds] at avoided
  | altLeft _ ih =>
    rw [avoids, Bool.and_eq_true] at avoided
    exact ih avoided.1
  | altRight _ ih =>
    rw [avoids, Bool.and_eq_true] at avoided
    exact ih avoided.2
  | seq _ _ ihLeft ihRight =>
    rw [avoids, Bool.and_eq_true] at avoided
    rw [mem_append, not_or]
    exact ⟨ihLeft avoided.1, ihRight avoided.2⟩
  | starNil => exact not_mem_nil
  | starCons _ _ ihHead ihTail =>
    rw [mem_append, not_or]
    exact ⟨ihHead avoided, ihTail avoided⟩

end Regex
