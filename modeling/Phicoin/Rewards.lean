import Mathlib.Data.List.Sublists
import Phicoin.Lib.KeyedMap
import Phicoin.Transaction

/-! # Distribution of rewards

A request for rewards is paid in transactions of a limited number of payments each.
`DistributeRewardSnapshot` counts the transactions by a division and
`BuildTransaction` takes the payments of each from where it starts. -/

namespace Phicoin

open List

structure OwnerAndAmount where
  address : Bytes
  amount : Int

/-- The states of a `CRewardSnapshot`. -/
inductive RewardStatus where
  | rewardError
  | processing
  | complete
  | lowFunds
  | notEnoughFee
  | lowRewards
  | stuckTx
  | networkError
  | failedCreateTransaction
  | failedCommitTransaction
deriving DecidableEq

/-- What the wallet answers while one transaction is built: its balance of what is
distributed, the fee asked for or the transaction made, and whether it is committed. -/
structure RewardWallet where
  fBroadcast : Bool
  fConnected : Bool
  balance : Int
  create : List OwnerAndAmount → Except Int Uint256
  commit : Uint256 → Bool
  depth : Uint256 → Option Int

namespace Rewards

variable (maxPayments : Nat) (paysPhi : Bool)

/-- The loop over the payments of a transaction, of so many steps from an index on. -/
def pending (payments : List OwnerAndAmount) : Nat → Nat → List OwnerAndAmount
  | 0, _ => []
  | n + 1, i =>
    match payments[i]? with
    | some payment => payment :: pending payments n (i + 1)
    | none => []

def totalOf (batch : List OwnerAndAmount) : Int :=
  batch.foldl (fun total payment => addAmount total payment.amount) 0

/-- `BuildTransaction`: the list of payments that the wallet is given, when it comes to that,
and the transaction or the state that the request is left in. -/
def buildTransaction (wallet : RewardWallet) (payments : List OwnerAndAmount) (start : Nat) :
    List (List OwnerAndAmount) × Except RewardStatus Uint256 :=
  let batch := pending payments maxPayments start
  if paysPhi && wallet.fBroadcast && !wallet.fConnected then ([], .error .networkError)
  else if totalOf batch > wallet.balance then
    ([], .error (if paysPhi then .lowFunds else .lowRewards))
  else ([batch],
    match wallet.create batch with
    | .error nFeeRequired =>
      .error (if paysPhi && addAmount (totalOf batch) nFeeRequired > wallet.balance
        then .notEnoughFee else .failedCreateTransaction)
    | .ok txid => if wallet.commit txid then .ok txid else .error .failedCommitTransaction)

structure Request where
  nStatus : RewardStatus
  transactions : KeyedMap Nat Uint256

/-- What a call leaves: the request, and the lists of payments that the wallet was given. -/
structure Distributed where
  request : Request
  handed : List (List OwnerAndAmount)

/-- The loop of `DistributeRewardSnapshot`; the wallet may differ at each transaction. -/
def distribute (wallet : Nat → RewardWallet) (payments : List OwnerAndAmount) :
    List Nat → Request → Distributed
  | [], request => ⟨request, []⟩
  | i :: rest, request =>
    match request.transactions.lookup i with
    | some txid =>
      match (wallet i).depth txid with
      | some depth => if depth ≤ 0 then ⟨request, []⟩ else distribute wallet payments rest request
      | none => distribute wallet payments rest request
    | none =>
      let built := buildTransaction maxPayments paysPhi (wallet i) payments (i * maxPayments)
      match built.2 with
      | .error nStatus => ⟨{ request with nStatus }, built.1⟩
      | .ok txid =>
        let later := distribute wallet payments rest
          { request with transactions := request.transactions.insert i txid }
        { later with handed := built.1 ++ later.handed }

/-- `DistributeRewardSnapshot`, with the payments of `GenerateDistributionList` when it
gives some. -/
def distributeRewardSnapshot (fLocked fSyncing : Bool) (wallet : Nat → RewardWallet)
    (paymentDetails : Option (List OwnerAndAmount)) (request : Request) : Distributed :=
  match if fLocked || fSyncing then none else paymentDetails with
  | none => ⟨request, []⟩
  | some payments => distribute maxPayments paysPhi wallet payments
      (range (payments.length / maxPayments + 1)) request

/-- The wallet has the funds for every part of the list, and makes and commits the
transaction of every part that pays someone. -/
structure Serves (payments : List OwnerAndAmount) (wallet : RewardWallet) : Prop where
  online : (paysPhi && wallet.fBroadcast && !wallet.fConnected) = false
  funds : ∀ batch, batch <:+: payments → totalOf batch ≤ wallet.balance
  makes : ∀ batch, batch <:+: payments → batch ≠ [] →
    ∃ txid, wallet.create batch = .ok txid ∧ wallet.commit txid = true

variable {maxPayments paysPhi} {payments : List OwnerAndAmount}

theorem pending_eq (n i : Nat) : pending payments n i = (payments.drop i).take n := by
  induction n generalizing i with
  | zero => simp [pending]
  | succ n ih =>
    rw [pending]
    cases found : payments[i]? with
    | none => rw [drop_eq_nil_of_le (getElem?_eq_none_iff.mp found), take_nil]
    | some payment =>
      obtain ⟨inside, rfl⟩ := List.getElem?_eq_some_iff.mp found
      rw [drop_eq_getElem_cons inside, take_succ_cons, ih]

theorem flatten_pending (n : Nat) :
    ((range n).map fun i => pending payments maxPayments (i * maxPayments)).flatten =
      payments.take (n * maxPayments) := by
  induction n with
  | zero => simp
  | succ n ih =>
    rw [range_succ, map_append, flatten_append, ih, Nat.succ_mul, take_add, map_singleton,
      flatten_singleton, pending_eq]

theorem pending_infix (n i : Nat) : pending payments n i <:+: payments := by
  rw [pending_eq]
  have start : (payments.drop i).take n <+: payments.drop i := take_prefix n _
  exact start.isInfix.trans (drop_suffix i _).isInfix

theorem pending_ne_nil_iff (positive : 0 < maxPayments) (i : Nat) :
    pending payments maxPayments i ≠ [] ↔ i < payments.length := by
  rw [pending_eq, ne_eq, take_eq_nil_iff, drop_eq_nil_iff]
  omega

variable {wallet : Nat → RewardWallet} {indices : List Nat} {request : Request}

theorem handed_buildTransaction {wallet : RewardWallet} {start : Nat} :
    (buildTransaction maxPayments paysPhi wallet payments start).1 <+:
      [pending payments maxPayments start] := by
  unfold buildTransaction
  dsimp only
  split
  · exact nil_prefix
  · split
    · exact nil_prefix
    · exact prefix_refl _

theorem handed_of_ok {wallet : RewardWallet} {start : Nat} {txid : Uint256}
    (built : (buildTransaction maxPayments paysPhi wallet payments start).2 = .ok txid) :
    (buildTransaction maxPayments paysPhi wallet payments start).1 =
      [pending payments maxPayments start] := by
  unfold buildTransaction at built ⊢
  dsimp only at built ⊢
  split at built
  · cases built
  · rename_i online
    rw [if_neg online]
    split at built
    · cases built
    · rename_i funds
      rw [if_neg funds]

theorem unrecorded_insert {i : Nat} {rest : List Nat} {txid : Uint256} (distinct : i ∉ rest)
    (unrecorded : ∀ j ∈ rest, request.transactions.lookup j = none) :
    ∀ j ∈ rest, (request.transactions.insert i txid).lookup j = none := by
  intro j member
  rw [KeyedMap.lookup_insert_ite, if_neg (ne_of_mem_of_not_mem member distinct)]
  exact unrecorded j member

/-- The wallet is given the lists in order, up to the first that fails. -/
theorem handed_initial (distinct : indices.Nodup)
    (unrecorded : ∀ i ∈ indices, request.transactions.lookup i = none) :
    (distribute maxPayments paysPhi wallet payments indices request).handed <+:
      indices.map fun i => pending payments maxPayments (i * maxPayments) := by
  induction indices generalizing request with
  | nil => exact nil_prefix
  | cons i rest ih =>
    obtain ⟨first, distinct⟩ := nodup_cons.mp distinct
    rw [forall_mem_cons] at unrecorded
    simp only [distribute, unrecorded.1, map_cons]
    split
    · exact handed_buildTransaction.trans (cons_prefix_cons.mpr ⟨rfl, nil_prefix⟩)
    · rename_i txid built
      rw [handed_of_ok built, singleton_append]
      exact cons_prefix_cons.mpr
        ⟨rfl, ih distinct (unrecorded_insert first unrecorded.2)⟩

/-- A wallet that serves is given every list, when only the last can be empty. -/
theorem handed_of_serves (serves : ∀ i, Serves paysPhi payments (wallet i))
    (distinct : indices.Nodup)
    (unrecorded : ∀ i ∈ indices, request.transactions.lookup i = none)
    (paying : indices.Pairwise fun i _ => pending payments maxPayments (i * maxPayments) ≠ []) :
    (distribute maxPayments paysPhi wallet payments indices request).handed =
      indices.map fun i => pending payments maxPayments (i * maxPayments) := by
  induction indices generalizing request with
  | nil => rfl
  | cons i rest ih =>
    obtain ⟨first, distinct⟩ := nodup_cons.mp distinct
    obtain ⟨pays, paying⟩ := pairwise_cons.mp paying
    rw [forall_mem_cons] at unrecorded
    set batch := pending payments maxPayments (i * maxPayments)
    have part : batch <:+: payments := pending_infix _ _
    have given : (buildTransaction maxPayments paysPhi (wallet i) payments
        (i * maxPayments)).1 = [batch] := by
      simp only [buildTransaction, (serves i).online, Bool.false_eq_true, if_false]
      rw [if_neg (not_lt.mpr ((serves i).funds batch part))]
    simp only [distribute, unrecorded.1, map_cons]
    split
    · rename_i status failed
      cases rest with
      | nil => exact given
      | cons j later =>
        -- a list that is not the last pays someone, so it does not fail
        obtain ⟨txid, made, committed⟩ := (serves i).makes batch part (pays j mem_cons_self)
        simp only [buildTransaction, (serves i).online, Bool.false_eq_true, if_false] at failed
        rw [if_neg (not_lt.mpr ((serves i).funds batch part))] at failed
        simp only [batch] at made
        simp [made, committed] at failed
    · rw [given, singleton_append, ih distinct (unrecorded_insert first unrecorded.2) paying]

theorem buildTransaction_status {wallet : RewardWallet} {start : Nat} :
    (buildTransaction maxPayments paysPhi wallet payments start).2 ≠ .error .complete := by
  cases made : wallet.create (pending payments maxPayments start) <;>
  · simp only [buildTransaction, made]
    split_ifs <;> simp

/-- No step of the loop completes a request. -/
theorem distribute_status (isOpen : request.nStatus ≠ .complete) :
    (distribute maxPayments paysPhi wallet payments indices request).request.nStatus ≠
      .complete := by
  induction indices generalizing request with
  | nil => exact isOpen
  | cons i rest ih =>
    rw [distribute]
    split
    · split
      · split
        · exact isOpen
        · exact ih isOpen
      · exact ih isOpen
    · dsimp only
      split
      · rename_i failed
        rintro rfl
        exact buildTransaction_status failed
      · exact ih isOpen

end Rewards

open Rewards

/-- The wallet is given the payments of a new request in order and none of them twice, at most
so many at a time.  A wallet that serves is given all of them, and one of its lists is empty
exactly when the limit divides their number.  A request that is not complete is not completed. -/
theorem reward_batches (maxPayments : Nat) (positive : 0 < maxPayments) (paysPhi : Bool)
    (wallet : Nat → RewardWallet) (payments : List OwnerAndAmount) (request : Request)
    (isNew : ∀ i, request.transactions.lookup i = none) (isOpen : request.nStatus ≠ .complete) :
    let made := distributeRewardSnapshot maxPayments paysPhi false false wallet (some payments)
      request
    made.handed.flatten <+: payments ∧
      (∀ batch ∈ made.handed, batch.length ≤ maxPayments) ∧
      ((∀ i, Serves paysPhi payments (wallet i)) → made.handed.flatten = payments ∧
        ((∀ batch ∈ made.handed, 1 ≤ batch.length) ↔ payments.length % maxPayments ≠ 0)) ∧
      made.request.nStatus ≠ .complete := by
  intro made
  have whole := Nat.div_add_mod' payments.length maxPayments
  have rest := Nat.mod_lt payments.length positive
  have inOrder := @handed_initial maxPayments paysPhi payments wallet
    (range (payments.length / maxPayments + 1)) request nodup_range fun i _ => isNew i
  refine ⟨?_, fun batch member => ?_, fun serves => ?_, distribute_status isOpen⟩
  · obtain ⟨later, split⟩ := inOrder
    have flat := congrArg flatten split
    rw [flatten_append, flatten_pending] at flat
    exact (prefix_append _ _).trans (flat ▸ take_prefix _ _)
  · obtain ⟨i, _, rfl⟩ := mem_map.mp (inOrder.subset member)
    rw [pending_eq]
    exact length_take_le _ _
  · have handed : made.handed = _ := handed_of_serves serves nodup_range (fun i _ => isNew i) <| by
      refine pairwise_lt_range.imp_of_mem fun {i j} _ inside less => ?_
      rw [pending_ne_nil_iff positive]
      have start := Nat.mul_le_mul_right maxPayments (Nat.le_of_lt_succ (mem_range.mp inside))
      have next := Nat.mul_le_mul_right maxPayments (Nat.succ_le_of_lt less)
      rw [Nat.succ_mul] at next
      omega
    rw [handed, flatten_pending, take_of_length_le (by rw [Nat.succ_mul]; omega)]
    refine ⟨rfl, ?_⟩
    simp only [forall_mem_map, mem_range, Nat.lt_succ_iff, Nat.succ_le_iff, length_pos_iff,
      pending_ne_nil_iff positive]
    constructor
    · intro nonempty
      have last := nonempty _ (Nat.le_refl _)
      omega
    · intro rest i inside
      have start := Nat.mul_le_mul_right maxPayments inside
      omega

namespace Rewards

def pay (address : String) : OwnerAndAmount := ⟨ascii address, 5⟩

/-- A wallet that makes every transaction that pays someone. -/
def rich : RewardWallet where
  fBroadcast := true
  fConnected := true
  balance := 100
  create payments := if payments.isEmpty then .error 0 else .ok 7
  commit _ := true
  depth _ := some 1

def request : Request := ⟨.processing, ∅⟩

end Rewards

/-- Three payments, two at a time. -/
theorem reward_batches_three :
    (distributeRewardSnapshot 2 true false false (fun _ => rich)
      (some [pay "A", pay "B", pay "C"]) request).handed.flatten = [pay "A", pay "B", pay "C"] ∧
    ∀ batch ∈ (distributeRewardSnapshot 2 true false false (fun _ => rich)
      (some [pay "A", pay "B", pay "C"]) request).handed, 1 ≤ batch.length := by
  have serves : Serves true [pay "A", pay "B", pay "C"] rich := by
    refine ⟨rfl, fun batch part => ?_, fun batch _ pays => ⟨7, ?_, rfl⟩⟩
    · exact (by decide : ∀ part ∈ sublists [pay "A", pay "B", pay "C"], totalOf part ≤ 100)
        batch (mem_sublists.mpr part.sublist)
    · simp [rich, pays]
  obtain ⟨covered, nonempty⟩ := (reward_batches 2 (by decide) true (fun _ => rich)
    [pay "A", pay "B", pay "C"] request (fun _ => rfl) (by decide)).2.2.1 fun _ => serves
  exact ⟨covered, nonempty.mpr (by decide)⟩

/-- Two payments are made, and then a transaction without payments fails. -/
theorem reward_batches_fail :
    (distributeRewardSnapshot 2 true false false (fun _ => rich) (some [pay "A", pay "B"])
      request).handed = [[pay "A", pay "B"], []] ∧
    (distributeRewardSnapshot 2 true false false (fun _ => rich) (some [pay "A", pay "B"])
      request).request.nStatus = .failedCreateTransaction := ⟨rfl, by decide⟩

end Phicoin
