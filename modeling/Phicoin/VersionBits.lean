import Phicoin.Lib.KeyedMap
import Phicoin.Lib.Median

/-! # Version bits

The state of a deployment at a block, computed from the headers below it with a
cache of the states at the ends of periods.  A block index is the list of headers
from its block down to the first one; `nullptr` is the empty list.  The states
found with a cache are those of the bare recursion, and a deployment that is
locked in or active stays so on every chain of accepted headers above. -/

namespace Phicoin

open Median List

/-- The fields of a `CBlockIndex` that the states depend on. -/
structure BlockIndex where
  nVersion : UInt32
  nTime : Nat
deriving DecidableEq

abbrev IndexChain := List BlockIndex

namespace IndexChain

def nHeight (chain : IndexChain) : Int := chain.length - 1

def getAncestor (chain : IndexChain) (height : Int) : IndexChain :=
  if height > nHeight chain || height < 0 then []
  else chain.drop (nHeight chain - height).toNat

def nMedianTimeSpan : Nat := 11

def getMedianTimePast (chain : IndexChain) : Nat :=
  (upperMedian ((chain.map BlockIndex.nTime).take nMedianTimeSpan)).getD 0

/-- The check of `ContextualCheckBlockHeader` on the time of the next block; the
first block has none. -/
def acceptsTime (chain : IndexChain) (block : BlockIndex) : Bool :=
  chain.isEmpty || getMedianTimePast chain < block.nTime

def Accepted : IndexChain → Prop
  | [] => True
  | block :: chain => acceptsTime chain block = true ∧ Accepted chain

variable {chain : IndexChain}

theorem getAncestor_back (k : Nat) : getAncestor chain (nHeight chain - k) = chain.drop k := by
  unfold getAncestor nHeight
  split
  · rename_i outside
    simp only [Bool.or_eq_true, decide_eq_true_eq] at outside
    rw [drop_eq_nil_of_le (by omega)]
  · congr 1
    omega

theorem getMedianTimePast_cons_le {block : BlockIndex} (accepts : acceptsTime chain block = true) :
    getMedianTimePast chain ≤ getMedianTimePast (block :: chain) := by
  by_cases empty : chain = []
  · subst empty
    exact Nat.zero_le _
  obtain ⟨m, median⟩ := exists_upperMedian
    ((chain.map BlockIndex.nTime).take nMedianTimeSpan) (by simp [nMedianTimeSpan, empty])
  obtain ⟨m', next⟩ := exists_upperMedian
    (((block :: chain).map BlockIndex.nTime).take nMedianTimeSpan) (by simp [nMedianTimeSpan])
  have later : m < block.nTime := by
    simpa [acceptsTime, empty, getMedianTimePast, median] using accepts
  unfold getMedianTimePast
  rw [median, next]
  exact upperMedian_slide median later.le next

theorem getMedianTimePast_drop_le (accepted : Accepted chain) (k : Nat) :
    getMedianTimePast (chain.drop k) ≤ getMedianTimePast chain := by
  induction k generalizing chain with
  | zero => exact le_rfl
  | succ k ih =>
    cases chain with
    | nil => exact le_rfl
    | cons block chain => exact (ih accepted.2).trans (getMedianTimePast_cons_le accepted.1)

end IndexChain

inductive ThresholdState where
  | defined
  | started
  | lockedIn
  | active
  | failed
deriving DecidableEq

/-- `AbstractThresholdConditionChecker`, with the positive period every network sets. -/
structure ThresholdChecker where
  period : Nat
  threshold : Nat
  beginTime : Nat
  endTime : Nat
  condition : BlockIndex → Bool
  period_pos : 0 < period

abbrev ThresholdConditionCache := KeyedMap IndexChain ThresholdState

namespace ThresholdChecker

open IndexChain

variable (checker : ThresholdChecker)

def stateNext (chain : IndexChain) (state : ThresholdState) : ThresholdState :=
  match state with
  | .defined =>
    if getMedianTimePast chain ≥ checker.endTime then .failed
    else if getMedianTimePast chain ≥ checker.beginTime then .started
    else .defined
  | .started =>
    if getMedianTimePast chain ≥ checker.endTime then .failed
    else if (chain.take checker.period).countP checker.condition ≥ checker.threshold then .lockedIn
    else .started
  | .lockedIn => .active
  | .failed => .failed
  | .active => .active

/-- The two loops of `GetStateFor`: the blocks pushed on the way back are the frames
of the recursion.  `fuel` bounds the number of periods. -/
def walk : Nat → IndexChain → ThresholdConditionCache → ThresholdState × ThresholdConditionCache
  | 0, _, cache => (.defined, cache)
  | fuel + 1, chain, cache =>
    match cache.lookup chain with
    | some state => (state, cache)
    | none =>
      if chain.isEmpty || getMedianTimePast chain < checker.beginTime then
        (.defined, cache.insert chain .defined)
      else
        let previous := walk fuel (getAncestor chain (nHeight chain - checker.period)) cache
        let state := checker.stateNext chain previous.1
        (state, previous.2.insert chain state)

def periodEnd (chain : IndexChain) : IndexChain :=
  if chain.isEmpty then []
  else getAncestor chain (nHeight chain - (nHeight chain + 1) % checker.period)

/-- `GetStateFor`: the state of the block after `chain`. -/
def getStateFor (chain : IndexChain) (cache : ThresholdConditionCache) :
    ThresholdState × ThresholdConditionCache :=
  checker.walk ((checker.periodEnd chain).length + 1) (checker.periodEnd chain) cache

def stateWalk : Nat → IndexChain → ThresholdState
  | 0, _ => .defined
  | fuel + 1, chain =>
    if chain.isEmpty || getMedianTimePast chain < checker.beginTime then .defined
    else checker.stateNext chain (stateWalk fuel (chain.drop checker.period))

/-- The state of the block after `chain`, from the headers alone. -/
def stateAfter (chain : IndexChain) : ThresholdState :=
  let last := chain.drop (chain.length % checker.period)
  checker.stateWalk (last.length + 1) last

variable {checker}

theorem periodEnd_eq (chain : IndexChain) :
    checker.periodEnd chain = chain.drop (chain.length % checker.period) := by
  unfold periodEnd
  cases chain with
  | nil => simp
  | cons block chain =>
    have back : (nHeight (block :: chain) + 1) % (checker.period : Int) =
        ((block :: chain).length % checker.period : Nat) := by
      simp [nHeight]
    rw [if_neg (by simp), back, getAncestor_back]

variable {chain : IndexChain}

theorem length_drop_period
    (inside : ¬ (chain.isEmpty || getMedianTimePast chain < checker.beginTime) = true) :
    (chain.drop checker.period).length < chain.length := by
  have positive := checker.period_pos
  simp only [Bool.or_eq_true, List.isEmpty_iff, not_or] at inside
  have nonempty := length_pos_iff.mpr inside.1
  rw [length_drop]
  omega

theorem stateWalk_fuel {fuel fuel' : Nat} {chain : IndexChain} (enough : chain.length < fuel)
    (enough' : chain.length < fuel') : checker.stateWalk fuel chain = checker.stateWalk fuel' chain := by
  induction fuel generalizing fuel' chain with
  | zero => cases enough
  | succ fuel ih =>
    cases fuel' with
    | zero => cases enough'
    | succ fuel' =>
      unfold stateWalk
      split
      · rfl
      · rename_i inside
        have shorter := length_drop_period inside
        rw [@ih fuel' (chain.drop checker.period) (by omega) (by omega)]

def Caches (checker : ThresholdChecker) (cache : ThresholdConditionCache) : Prop :=
  ∀ chain state, cache.lookup chain = some state →
    state = checker.stateWalk (chain.length + 1) chain

variable {cache : ThresholdConditionCache}

theorem Caches.insert (valid : checker.Caches cache) (chain : IndexChain) :
    checker.Caches (cache.insert chain (checker.stateWalk (chain.length + 1) chain)) := by
  intro other state found
  rw [KeyedMap.lookup_insert_ite] at found
  split at found
  · rename_i same
    rw [← Option.some.inj found, same]
  · exact valid other state found

theorem walk_spec {fuel : Nat} (valid : checker.Caches cache) (enough : chain.length < fuel) :
    (checker.walk fuel chain cache).1 = checker.stateWalk (chain.length + 1) chain ∧
      checker.Caches (checker.walk fuel chain cache).2 := by
  induction fuel generalizing chain cache with
  | zero => cases enough
  | succ fuel ih =>
    unfold walk
    cases cached : cache.lookup chain with
    | some state => exact ⟨valid chain state cached, valid⟩
    | none =>
      have bare : checker.stateWalk (chain.length + 1) chain =
          if chain.isEmpty || getMedianTimePast chain < checker.beginTime then .defined
          else checker.stateNext chain
            (checker.stateWalk chain.length (chain.drop checker.period)) := rfl
      dsimp only
      split
      · rename_i outside
        rw [if_pos outside] at bare
        have inserted := valid.insert chain
        rw [bare] at inserted ⊢
        exact ⟨rfl, inserted⟩
      · rename_i inside
        rw [if_neg inside] at bare
        have shorter := length_drop_period inside
        rw [getAncestor_back]
        obtain ⟨state, kept⟩ := @ih (chain.drop checker.period) cache valid (by omega)
        rw [stateWalk_fuel (Nat.lt_succ_self _) shorter] at state
        rw [state, ← bare]
        exact ⟨rfl, kept.insert chain⟩

theorem getStateFor_spec (valid : checker.Caches cache) (chain : IndexChain) :
    (checker.getStateFor chain cache).1 = checker.stateAfter chain ∧
      checker.Caches (checker.getStateFor chain cache).2 := by
  unfold getStateFor stateAfter
  rw [periodEnd_eq]
  exact walk_spec valid (Nat.lt_succ_self _)

theorem succ_mod_cases {n p : Nat} (positive : 0 < p) :
    ((n + 1) % p = 0 ∧ n % p + 1 = p) ∨ ((n + 1) % p ≠ 0 ∧ (n + 1) % p = n % p + 1) := by
  rw [← Nat.mod_add_mod n p 1]
  have below := Nat.mod_lt n positive
  by_cases inside : n % p + 1 < p
  · rw [Nat.mod_eq_of_lt inside]
    exact .inr ⟨Nat.succ_ne_zero _, rfl⟩
  · have ends : n % p + 1 = p := by omega
    rw [ends, Nat.mod_self]
    exact .inl ⟨rfl, rfl⟩

theorem stateAfter_cons (block : BlockIndex) (chain : IndexChain) :
    checker.stateAfter (block :: chain) = if (chain.length + 1) % checker.period = 0 then
        if getMedianTimePast (block :: chain) < checker.beginTime then .defined
        else checker.stateNext (block :: chain) (checker.stateAfter chain)
      else checker.stateAfter chain := by
  unfold stateAfter
  dsimp only
  rw [length_cons]
  rcases @succ_mod_cases chain.length checker.period checker.period_pos with
    ⟨ends, whole⟩ | ⟨inside, next⟩
  · have previous : (block :: chain).drop checker.period =
        chain.drop (chain.length % checker.period) := by
      nth_rewrite 1 [← whole]
      rw [drop_succ_cons]
    rw [if_pos ends, ends, drop_zero, stateWalk, previous]
    simp only [isEmpty_cons, Bool.false_or, decide_eq_true_eq]
    rw [@stateWalk_fuel checker _ _ _ (show _ < (block :: chain).length by
      rw [length_drop, length_cons]; omega) (Nat.lt_succ_self _)]
  · rw [if_neg inside, next, drop_succ_cons]

theorem beginTime_le (accepted : Accepted chain)
    (left : checker.stateAfter chain ≠ .defined) : checker.beginTime ≤ getMedianTimePast chain := by
  refine le_trans ?_ (getMedianTimePast_drop_le accepted (chain.length % checker.period))
  by_contra early
  apply left
  unfold stateAfter stateWalk
  rw [if_pos]
  simp only [Bool.or_eq_true, decide_eq_true_eq]
  exact .inr (not_le.mp early)

theorem stateAfter_cons_of_left {block : BlockIndex} {chain : IndexChain}
    (accepted : Accepted (block :: chain)) (left : checker.stateAfter chain ≠ .defined) :
    checker.stateAfter (block :: chain) = checker.stateAfter chain ∨
      checker.stateAfter (block :: chain) =
        checker.stateNext (block :: chain) (checker.stateAfter chain) := by
  have started := (beginTime_le accepted.2 left).trans (getMedianTimePast_cons_le accepted.1)
  rw [stateAfter_cons]
  split
  · exact .inr (if_neg (not_lt.mpr started))
  · exact .inl rfl

theorem active_cons {block : BlockIndex}
    (accepted : Accepted (block :: chain)) (isActive : checker.stateAfter chain = .active) :
    checker.stateAfter (block :: chain) = .active := by
  rcases @stateAfter_cons_of_left checker block chain accepted (by simp [isActive]) with same | next
  · rw [same, isActive]
  · rw [next, isActive]
    rfl

theorem lockedIn_cons {block : BlockIndex}
    (accepted : Accepted (block :: chain)) (isLocked : checker.stateAfter chain = .lockedIn) :
    checker.stateAfter (block :: chain) = .lockedIn ∨
      checker.stateAfter (block :: chain) = .active := by
  rcases @stateAfter_cons_of_left checker block chain accepted (by simp [isLocked]) with same | next
  · exact .inl (by rw [same, isLocked])
  · refine .inr ?_
    rw [next, isLocked]
    rfl

end ThresholdChecker

end Phicoin
