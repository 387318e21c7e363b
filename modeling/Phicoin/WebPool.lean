import Phicoin.Lib.KeyedMap
import Phicoin.WebScan

/-! # The address pool, the change index and recovery of the web wallet

The pool of addresses a balance is read from, the stored index of the change address
and the lookup that finds the key of a script have bounds of their own.  This module
says when they fit together, and what a recovery scan finds of what the wallet did. -/

namespace Phicoin.Web

open GapScan List Option

def addressPoolSize : Nat := 10

def bip44Path (isChange : Bool) (index : Nat) : String :=
  "m/44'/0'/0'/" ++ (if isChange then "1" else "0") ++ "/" ++ toString index

/-- What the unlocked key derives on its receive and its change chain. -/
structure HDKeys where
  address : Bool → Nat → String
  scriptPubKeyHex : Bool → Nat → String
  address_inj : ∀ {c i c' i'}, address c i = address c' i' → c = c' ∧ i = i'
  script_inj : ∀ {c i c' i'}, scriptPubKeyHex c i = scriptPubKeyHex c' i' → c = c' ∧ i = i'

structure AddressIndex where
  txids : String → List String
  balance : String → Int

def HDKeys.chain (keys : HDKeys) (node : AddressIndex) (isChange : Bool) : Chain :=
  ⟨keys.address isChange, bip44Path isChange, node.txids, node.balance⟩

structure PooledAddress where
  address : String
  path : String
  index : Nat
  isChange : Bool

def HDKeys.pooled (keys : HDKeys) (isChange : Bool) (index : Nat) : PooledAddress :=
  ⟨keys.address isChange index, bip44Path isChange index, index, isChange⟩

def getDerivedAddressPoolAsync (keys : HDKeys) (node : AddressIndex) :
    Option (List PooledAddress) := do
  let recvUsed ← getUsedCountForChain (keys.chain node false).deps
  let changeUsed ← getUsedCountForChain (keys.chain node true).deps
  let recvCount := max (addressPoolSize : Int) (recvUsed + addressPoolSize)
  let changeCount := max (addressPoolSize : Int) (changeUsed + addressPoolSize)
  return (List.range recvCount.toNat).map (keys.pooled false) ++
    (List.range changeCount.toNat).map (keys.pooled true)

/-- The scan of `derivePathForAddress` over both chains. -/
def scanForPath (keys : HDKeys) (scriptPubKey : String) : Option String :=
  [false, true].findSome? fun isChange =>
    ((List.range discoveryHardCap).find? fun i =>
      keys.scriptPubKeyHex isChange i == scriptPubKey).map (bip44Path isChange)

abbrev PathCache := KeyedMap String String

/-- `derivePathForAddress` with its memo of scripts found before. -/
def derivePathForAddress (keys : HDKeys) (cache : PathCache) (scriptPubKey : String) :
    Option String × PathCache :=
  match cache.lookup scriptPubKey with
  | some path => (some path, cache)
  | none =>
    match scanForPath keys scriptPubKey with
    | some path => (some path, cache.insert scriptPubKey path)
    | none => (none, cache)

/-- `getCurrentChangeIndex` of what is stored. -/
def currentChangeIndex (stored : Option Nat) : Nat :=
  stored.getD 0

/-- `maybeAdvanceChangeIndex`: what is stored after it. -/
def maybeAdvanceChangeIndex (keys : HDKeys) (node : AddressIndex) (stored : Option Nat) :
    Option Nat :=
  let current := currentChangeIndex stored
  let address := keys.address true current
  if (node.txids address).length = 0 then stored
  else if node.balance address = 0 ∧ current < 100000 then some (current + 1)
  else stored

def emptyScan : ChainScanResult := ⟨0, [], [], 0, -1⟩

def ChainScanResult.append (receiveScan changeScan : ChainScanResult) : ChainScanResult where
  totalScanned := receiveScan.totalScanned + changeScan.totalScanned
  usedAddresses := receiveScan.usedAddresses ++ changeScan.usedAddresses
  unusedAddresses := receiveScan.unusedAddresses ++ changeScan.unusedAddresses
  totalBalance := receiveScan.totalBalance + changeScan.totalBalance
  lastUsedIndex := max receiveScan.lastUsedIndex changeScan.lastUsedIndex

/-- `recoverWallet`: what it reports, and what is stored after it. -/
def recoverWallet (keys : HDKeys) (node : AddressIndex) (gapLimit : Nat) (stored : Option Nat) :
    Option (ChainScanResult × Option Nat) := do
  let receiveScan ← scanChain (keys.chain node false).deps gapLimit 10
  if receiveScan.usedAddresses.length > 0 then
    let changeScan ← scanChain (keys.chain node true).deps (min gapLimit 10) 10
    let stored' :=
      if 0 ≤ changeScan.lastUsedIndex then some (changeScan.lastUsedIndex + 1).toNat else stored
    return (receiveScan.append changeScan, stored')
  else
    return (receiveScan.append emptyScan, stored)

theorem scanForPath_eq (keys : HDKeys) (isChange : Bool) (index : Nat) :
    scanForPath keys (keys.scriptPubKeyHex isChange index) =
      if index < discoveryHardCap then some (bip44Path isChange index) else none := by
  have other : ∀ c, c ≠ isChange → (range discoveryHardCap).find?
      (fun i => keys.scriptPubKeyHex c i == keys.scriptPubKeyHex isChange index) = none := by
    intro c different
    rw [find?_eq_none]
    intro i _ same
    exact different (keys.script_inj (by simpa using same)).1
  have own : (range discoveryHardCap).find?
      (fun i => keys.scriptPubKeyHex isChange i == keys.scriptPubKeyHex isChange index) =
        if index < discoveryHardCap then some index else none := by
    split
    · next inside =>
      rw [find?_range_eq_some]
      refine ⟨by simp, by simpa using inside, fun j before => ?_⟩
      have : keys.scriptPubKeyHex isChange j ≠ keys.scriptPubKeyHex isChange index :=
        fun same => by have := (keys.script_inj same).2; omega
      simpa using this
    · next outside =>
      rw [find?_eq_none]
      intro i inside same
      have := (keys.script_inj (by simpa using same)).2
      rw [mem_range] at inside
      omega
  cases isChange with
  | false =>
    by_cases inside : index < discoveryHardCap <;>
      simp [scanForPath, own, other true (by simp), inside]
  | true =>
    by_cases inside : index < discoveryHardCap <;>
      simp [scanForPath, own, other false (by simp), inside]

def SoundCache (keys : HDKeys) (cache : PathCache) : Prop :=
  ∀ script path, cache.lookup script = some path → scanForPath keys script = some path

theorem soundCache_empty (keys : HDKeys) : SoundCache keys ∅ := by
  intro script path found
  simp at found

variable {keys : HDKeys}

section

variable {cache : PathCache} (sound : SoundCache keys cache) (script : String)

include sound

theorem derivePathForAddress_eq :
    (derivePathForAddress keys cache script).1 = scanForPath keys script := by
  rw [derivePathForAddress]
  cases cached : cache.lookup script with
  | some path => exact (sound script path cached).symm
  | none => cases scanForPath keys script <;> rfl

theorem soundCache_derivePathForAddress :
    SoundCache keys (derivePathForAddress keys cache script).2 := by
  rw [derivePathForAddress]
  cases cached : cache.lookup script with
  | some path => exact sound
  | none =>
    cases scanned : scanForPath keys script with
    | none => exact sound
    | some path =>
      intro other path' found
      rw [KeyedMap.lookup_insert_ite] at found
      split at found
      · next same =>
        rw [same, scanned]
        exact found
      · exact sound other path' found

end

/-- The memo, with the key object it was made under. -/
structure PathMemo (K : Type) where
  keyRef : Option K
  cache : PathCache

namespace PathMemo

variable {K : Type} [DecidableEq K] (keysOf : K → HDKeys)

/-- `syncDerivePathCache` and the lookup, for the key in use; there is none while locked. -/
def derivePath (memo : PathMemo K) (hdKey : Option K) (script : String) :
    Option String × PathMemo K :=
  let synced := if hdKey = memo.keyRef then memo else ⟨hdKey, ∅⟩
  match hdKey with
  | none => (none, synced)
  | some key =>
    let found := derivePathForAddress (keysOf key) synced.cache script
    (found.1, { synced with cache := found.2 })

def derivePaths (memo : PathMemo K) : List (Option K × String) → List (Option String)
  | [] => []
  | (hdKey, script) :: rest =>
    let found := memo.derivePath keysOf hdKey script
    found.1 :: found.2.derivePaths rest

def Sound (memo : PathMemo K) : Prop :=
  ∀ key, memo.keyRef = some key → SoundCache (keysOf key) memo.cache

theorem derivePath_sound {memo : PathMemo K} (sound : memo.Sound keysOf) (hdKey : Option K)
    (script : String) : (memo.derivePath keysOf hdKey script).1 =
        hdKey.bind (fun key => scanForPath (keysOf key) script) ∧
      (memo.derivePath keysOf hdKey script).2.Sound keysOf := by
  unfold derivePath
  generalize isSynced : (if hdKey = memo.keyRef then memo else ⟨hdKey, ∅⟩) = synced
  obtain ⟨rfl, kept⟩ : synced.keyRef = hdKey ∧ synced.Sound keysOf := by
    rw [← isSynced]
    split_ifs with same
    · exact ⟨same.symm, sound⟩
    · exact ⟨rfl, fun key _ => soundCache_empty (keysOf key)⟩
  obtain ⟨_ | key, cache⟩ := synced
  · exact ⟨rfl, kept⟩
  · dsimp only [Option.bind_some]
    refine ⟨derivePathForAddress_eq (kept key rfl) script, ?_⟩
    rintro _ ⟨⟩
    exact soundCache_derivePathForAddress (kept key rfl) script

/-- Whatever keys are in use between the lookups, no path of another key is answered. -/
theorem derivePaths_of_key (calls : List (Option K × String)) :
    derivePaths keysOf ⟨none, ∅⟩ calls =
      calls.map fun call => call.1.bind fun key => scanForPath (keysOf key) call.2 := by
  suffices general : ∀ memo : PathMemo K, memo.Sound keysOf → memo.derivePaths keysOf calls =
      calls.map fun call => call.1.bind fun key => scanForPath (keysOf key) call.2 from
    general ⟨none, ∅⟩ nofun
  induction calls with
  | nil => exact fun _ _ => rfl
  | cons call rest ih =>
    intro memo sound
    obtain ⟨path, kept⟩ := derivePath_sound keysOf sound call.1 call.2
    exact congrArg₂ cons path (ih _ kept)

end PathMemo

section

variable (keys : HDKeys) (node : AddressIndex)

def HDKeys.usedCount (isChange : Bool) : Nat :=
  (lastHit (keys.chain node isChange).used
    (usedCountBatch * (keys.chain node isChange).fullBatches) + 1).toNat

theorem usedCount_cast (isChange : Bool) : (keys.usedCount node isChange : Int) =
      lastHit (keys.chain node isChange).used
        (usedCountBatch * (keys.chain node isChange).fullBatches) + 1 := by
  rw [HDKeys.usedCount, Int.toNat_of_nonneg]
  rcases lastHit_cases (keys.chain node isChange).used
    (usedCountBatch * (keys.chain node isChange).fullBatches) with h | ⟨i, _, _, h⟩
  · omega
  · omega

theorem getUsedCountForChain_usedCount (isChange : Bool) :
    getUsedCountForChain (keys.chain node isChange).deps =
      some (keys.usedCount node isChange : Int) := by
  rw [getUsedCountForChain_eq, usedCount_cast]

theorem lt_usedCount {isChange : Bool} {index : Nat} (inside : index < discoveryHardCap)
    (used : (keys.chain node isChange).used index = true)
    (full : ∀ k, usedCountBatch * k + usedCountBatch ≤ index →
      emptyBatch (keys.chain node isChange).used usedCountBatch k = false) :
    index < keys.usedCount node isChange := by
  have seen : index < usedCountBatch * (keys.chain node isChange).fullBatches :=
    lt_fullBatches inside used full
  have := le_lastHit seen used
  have := usedCount_cast keys node isChange
  omega

theorem getDerivedAddressPoolAsync_eq : getDerivedAddressPoolAsync keys node =
      some ((range (keys.usedCount node false + addressPoolSize)).map (keys.pooled false) ++
        (range (keys.usedCount node true + addressPoolSize)).map (keys.pooled true)) := by
  have size : ∀ n : Nat, (max (addressPoolSize : Int) ((n : Int) + addressPoolSize)).toNat =
      n + addressPoolSize := by
    intro n
    omega
  rw [getDerivedAddressPoolAsync, getUsedCountForChain_usedCount, getUsedCountForChain_usedCount]
  simp only [bind_eq_bind, bind_some, size]
  rfl

section

variable {pool : List PooledAddress} (made : getDerivedAddressPoolAsync keys node = some pool)

include made

theorem mem_pool_iff (isChange : Bool) (index : Nat) :
    keys.pooled isChange index ∈ pool ↔ index < keys.usedCount node isChange + addressPoolSize := by
  rw [getDerivedAddressPoolAsync_eq, some_inj] at made
  subst made
  cases isChange <;> simp [HDKeys.pooled]

theorem exists_of_mem_pool {entry : PooledAddress}
    (member : entry ∈ pool) : ∃ isChange index, entry = keys.pooled isChange index := by
  rw [getDerivedAddressPoolAsync_eq, some_inj] at made
  subst made
  simp only [mem_append, List.mem_map] at member
  rcases member with ⟨i, _, same⟩ | ⟨i, _, same⟩
  · exact ⟨false, i, same.symm⟩
  · exact ⟨true, i, same.symm⟩

end

theorem used_iff (isChange : Bool) (index : Nat) :
    (keys.chain node isChange).used index = true ↔ node.txids (keys.address isChange index) ≠ [] := by
  simp [Chain.used, HDKeys.chain, length_pos_iff]

end

def AddressIndex.Grows (node later : AddressIndex) : Prop :=
  ∀ address, node.txids address ≠ [] → later.txids address ≠ []

/-- The lookup of scripts finds the path of an address again, whatever was looked up
before. -/
def Signable (keys : HDKeys) (isChange : Bool) (index : Nat) : Prop :=
  ∀ cache, SoundCache keys cache →
    (derivePathForAddress keys cache (keys.scriptPubKeyHex isChange index)).1 =
      some (bip44Path isChange index)

/-- The change address of an index is in the pool of every later state of the chain in
which it has been paid. -/
def PooledLater (keys : HDKeys) (node : AddressIndex) (changeIndex : Nat) : Prop :=
  ∀ later, node.Grows later → later.txids (keys.address true changeIndex) ≠ [] →
    ∃ pool, getDerivedAddressPoolAsync keys later = some pool ∧
      keys.pooled true changeIndex ∈ pool

structure PoolSpendable (keys : HDKeys) (node : AddressIndex) (changeIndex : Nat) : Prop where
  pooled : ∀ pool, getDerivedAddressPoolAsync keys node = some pool →
    ∀ entry ∈ pool, Signable keys entry.isChange entry.index
  change : Signable keys true changeIndex
  later : PooledLater keys node changeIndex

/-- No batch before the one of the index is without a used change address. -/
def BatchesUsed (keys : HDKeys) (node : AddressIndex) (changeIndex : Nat) : Prop :=
  ∀ k, usedCountBatch * k + usedCountBatch ≤ changeIndex →
    emptyBatch (keys.chain node true).used usedCountBatch k = false

theorem signable_iff (keys : HDKeys) (isChange : Bool) (index : Nat) :
    Signable keys isChange index ↔ index < discoveryHardCap := by
  constructor
  · intro found
    have := found ∅ (soundCache_empty keys)
    rw [derivePathForAddress_eq (soundCache_empty keys), scanForPath_eq] at this
    by_contra outside
    simp [outside] at this
  · intro inside cache sound
    rw [derivePathForAddress_eq sound, scanForPath_eq, if_pos inside]

theorem pool_signable_iff (keys : HDKeys) (node : AddressIndex) :
    (∀ pool, getDerivedAddressPoolAsync keys node = some pool →
        ∀ entry ∈ pool, Signable keys entry.isChange entry.index) ↔
      ∀ isChange, keys.usedCount node isChange + addressPoolSize ≤ discoveryHardCap := by
  have made := getDerivedAddressPoolAsync_eq keys node
  constructor
  · intro found isChange
    have last : keys.pooled isChange (keys.usedCount node isChange + 9) ∈ _ :=
      (mem_pool_iff keys node made isChange _).mpr (by simp [addressPoolSize])
    have : keys.usedCount node isChange + 9 < discoveryHardCap :=
      (signable_iff keys _ _).mp (found _ made _ last)
    simp only [addressPoolSize]
    omega
  · intro fits pool made' entry member
    obtain ⟨isChange, index, rfl⟩ := exists_of_mem_pool keys node made' member
    have := (mem_pool_iff keys node made' isChange index).mp member
    have := fits isChange
    exact (signable_iff keys _ _).mpr (by simp only [HDKeys.pooled]; omega)

variable {node : AddressIndex}

theorem used_of_grows {later : AddressIndex} (grows : node.Grows later)
    {isChange : Bool} {index : Nat} (used : (keys.chain node isChange).used index = true) :
    (keys.chain later isChange).used index = true :=
  (used_iff keys later isChange index).mpr (grows _ ((used_iff keys node isChange index).mp used))

def AddressIndex.pay (node : AddressIndex) (address txid : String) : AddressIndex :=
  { node with txids := fun a => if a = address then txid :: node.txids a else node.txids a }

theorem grows_pay (node : AddressIndex) (address txid : String) :
    node.Grows (node.pay address txid) := by
  intro a some_
  by_cases same : a = address <;> simp [AddressIndex.pay, same, some_]

theorem used_pay (keys : HDKeys) (node : AddressIndex) (c : Bool) (i : Nat) (txid : String)
    (c' : Bool) (i' : Nat) : (keys.chain (node.pay (keys.address c i) txid) c').used i' = true ↔
      (keys.chain node c').used i' = true ∨ c' = c ∧ i' = i := by
  rw [used_iff, used_iff, AddressIndex.pay]
  by_cases same : keys.address c' i' = keys.address c i
  · simp [keys.address_inj same]
  · have different : ¬ (c' = c ∧ i' = i) := by
      rintro ⟨rfl, rfl⟩
      exact same rfl
    simp [same, different]

theorem pooledLater_iff (keys : HDKeys) (node : AddressIndex) {changeIndex : Nat}
    (inside : changeIndex < discoveryHardCap) :
    PooledLater keys node changeIndex ↔ BatchesUsed keys node changeIndex := by
  constructor
  · intro pooled k before
    by_contra isEmpty
    -- one payment to the change address leaves the batch empty, and the count ends there
    obtain ⟨pool, made, member⟩ := pooled _ (grows_pay node (keys.address true changeIndex) "")
      (by simp [AddressIndex.pay])
    have empty : emptyBatch (keys.chain (node.pay (keys.address true changeIndex) "") true).used
        usedCountBatch k = true := by
      rw [emptyBatch_eq_true]
      intro i low high
      by_contra used
      rcases (used_pay keys node true changeIndex "" true i).mp (by simpa using used) with h | h
      · have := emptyBatch_eq_true.mp (by simpa using isEmpty) i low high
        simp [h] at this
      · omega
    have ends : (keys.chain (node.pay (keys.address true changeIndex) "") true).fullBatches ≤ k :=
      fullBatches_le_of_empty empty
    have count := usedCount_cast keys (node.pay (keys.address true changeIndex) "") true
    have below := lastHit_lt (keys.chain (node.pay (keys.address true changeIndex) "") true).used
      (usedCountBatch *
        (keys.chain (node.pay (keys.address true changeIndex) "") true).fullBatches)
    have seen := Nat.mul_le_mul_left usedCountBatch ends
    have := (mem_pool_iff keys _ made true changeIndex).mp member
    simp only [Chain.fullBatches, usedCountBatch, addressPoolSize] at *
    omega
  · intro full later grows paid
    refine ⟨_, getDerivedAddressPoolAsync_eq keys later,
      (mem_pool_iff keys later (getDerivedAddressPoolAsync_eq keys later) true changeIndex).mpr ?_⟩
    have used := (used_iff keys later true changeIndex).mpr paid
    have counted : changeIndex < keys.usedCount later true := by
      refine lt_usedCount keys later inside used fun k before => ?_
      obtain ⟨i, low, high, hit⟩ := emptyBatch_eq_false.mp (full k before)
      exact emptyBatch_eq_false.mpr ⟨i, low, high, used_of_grows grows hit⟩
    omega

section

variable (keys : HDKeys) (node : AddressIndex)

theorem recoverWallet_eq {gapLimit : Nat} (pos : 1 ≤ gapLimit) (stored : Option Nat) :
    recoverWallet keys node gapLimit stored =
      let receive := keys.chain node false
      let change := keys.chain node true
      let receiveScan := scanResult receive.deps (receive.scanned (receive.scanEnd gapLimit))
      let changeEnd := change.scanEnd (min gapLimit 10)
      let last := lastHit change.used changeEnd
      if 0 < ((List.range (receive.scanEnd gapLimit)).filter receive.used).length then
        some (receiveScan.append (scanResult change.deps (change.scanned changeEnd)),
          if 0 ≤ last then some (last + 1).toNat else stored)
      else some (receiveScan.append emptyScan, stored) := by
  have batch : 1 ≤ 10 := by decide
  have pos' : 1 ≤ min gapLimit 10 := by omega
  simp only [recoverWallet, scanChain_eq _ pos batch, scanChain_eq _ pos' batch, bind,
    Option.bind, usedAddresses_scanned, List.length_map, pure, lastUsedIndex_scanned]
  rfl

theorem stored_of_recoverWallet {gapLimit : Nat} (pos : 1 ≤ gapLimit) {stored stored' : Option Nat}
    {result : ChainScanResult}
    (recovered : recoverWallet keys node gapLimit stored = some (result, stored')) :
    stored' = stored ∨ ∃ i, i < (keys.chain node true).scanEnd (min gapLimit 10) ∧
      (keys.chain node true).used i = true ∧ stored' = some (i + 1) := by
  rw [recoverWallet_eq keys node pos] at recovered
  simp only at recovered
  split at recovered
  · simp only [some_inj, Prod.mk.injEq] at recovered
    rcases lastHit_cases (keys.chain node true).used
      ((keys.chain node true).scanEnd (min gapLimit 10)) with none | ⟨i, below, used, last⟩
    · left
      simpa [none] using recovered.2.symm
    · right
      refine ⟨i, below, used, ?_⟩
      rw [← recovered.2, last, if_pos (by omega)]
      congr 1
  · simp only [some_inj, Prod.mk.injEq] at recovered
    exact Or.inl recovered.2.symm

end

/-- What can be stored as the change index of a wallet while other parties pay to any of
its addresses. -/
inductive StoredIndex (keys : HDKeys) : AddressIndex → Option Nat → Prop
  | fresh (node : AddressIndex) : StoredIndex keys node none
  | grows {node later : AddressIndex} {stored : Option Nat} (before : StoredIndex keys node stored)
      (grown : node.Grows later) : StoredIndex keys later stored
  | advances {node : AddressIndex} {stored : Option Nat} (before : StoredIndex keys node stored) :
      StoredIndex keys node (maybeAdvanceChangeIndex keys node stored)
  | recovers {node : AddressIndex} {stored stored' : Option Nat} {gapLimit : Nat}
      {result : ChainScanResult} (before : StoredIndex keys node stored) (pos : 1 ≤ gapLimit)
      (recovered : recoverWallet keys node gapLimit stored = some (result, stored')) :
      StoredIndex keys node stored'

theorem maybeAdvanceChangeIndex_cases (keys : HDKeys) (node : AddressIndex) (stored : Option Nat) :
    maybeAdvanceChangeIndex keys node stored = stored ∨
      (keys.chain node true).used (currentChangeIndex stored) = true ∧
        maybeAdvanceChangeIndex keys node stored = some (currentChangeIndex stored + 1) := by
  rw [maybeAdvanceChangeIndex]
  split
  · exact Or.inl rfl
  · next paid =>
    split
    · refine Or.inr ⟨(used_iff keys node true _).mpr ?_, rfl⟩
      simpa using paid
    · exact Or.inl rfl

variable {stored : Option Nat}

theorem StoredIndex.exists_used (reached : StoredIndex keys node stored) :
    ∀ s, s + usedCountBatch ≤ currentChangeIndex stored →
      ∃ i, s ≤ i ∧ i < s + usedCountBatch ∧ (keys.chain node true).used i = true := by
  induction reached with
  | fresh node =>
    intro s below
    simp [currentChangeIndex, usedCountBatch] at below
  | grows before grown ih =>
    intro s below
    obtain ⟨i, low, high, used⟩ := ih s below
    exact ⟨i, low, high, used_of_grows grown used⟩
  | @advances node stored before ih =>
    intro s below
    rcases maybeAdvanceChangeIndex_cases keys node stored with same | ⟨used, next⟩
    · rw [same] at below
      exact ih s below
    · rw [next] at below
      have below' : s + usedCountBatch ≤ currentChangeIndex stored + 1 := below
      rcases Nat.lt_or_ge (currentChangeIndex stored) (s + usedCountBatch) with last | more
      · refine ⟨currentChangeIndex stored, ?_, last, used⟩
        simp only [usedCountBatch] at below'
        omega
      · exact ih s more
  | @recovers node stored stored' gapLimit result before pos recovered ih =>
    intro s below
    rcases stored_of_recoverWallet keys node pos recovered with same | ⟨last, inScan, used, next⟩
    · rw [same] at below
      exact ih s below
    · rw [next] at below
      have below' : s + usedCountBatch ≤ last + 1 := below
      simp only [usedCountBatch] at below' ⊢
      -- the scan of the change chain passed this stretch with a smaller gap limit
      obtain ⟨i, low, high, hit⟩ := exists_hit_of_lt_stopAt (s := s)
        (show s + min gapLimit 10 < stopAt (keys.chain node true).used (min gapLimit 10)
          maxScanLimit by
            have : last < stopAt (keys.chain node true).used (min gapLimit 10) maxScanLimit :=
              inScan
            omega)
      exact ⟨i, low, by omega, hit⟩

theorem StoredIndex.batchesUsed (reached : StoredIndex keys node stored) :
    BatchesUsed keys node (currentChangeIndex stored) :=
  fun k before => emptyBatch_eq_false.mpr (reached.exists_used (usedCountBatch * k) before)

/-- Every pooled address and the change address can be spent from, and the change
address is pooled once it is paid, exactly when the pool ends below the bound of the
lookup, the change index is below it, and no batch of the count below the change index
is without a used address.  The last holds of every index this wallet stored itself. -/
theorem pooled_addresses_spendable_iff (keys : HDKeys) (node : AddressIndex) (changeIndex : Nat) :
    (PoolSpendable keys node changeIndex ↔
      (∀ isChange, keys.usedCount node isChange + addressPoolSize ≤ discoveryHardCap) ∧
        changeIndex < discoveryHardCap ∧ BatchesUsed keys node changeIndex) ∧
    (∀ stored, StoredIndex keys node stored → BatchesUsed keys node (currentChangeIndex stored)) := by
  refine ⟨⟨fun spendable => ?_, fun h => ?_⟩, fun stored reached => reached.batchesUsed⟩
  · have inside := (signable_iff keys true changeIndex).mp spendable.change
    exact ⟨(pool_signable_iff keys node).mp spendable.pooled, inside,
      (pooledLater_iff keys node inside).mp spendable.later⟩
  · obtain ⟨fits, inside, batches⟩ := h
    exact ⟨(pool_signable_iff keys node).mpr fits, (signable_iff keys true changeIndex).mpr inside,
      (pooledLater_iff keys node inside).mpr batches⟩

theorem leftover_change_index_not_pooled (keys : HDKeys) (node : AddressIndex) {changeIndex : Nat}
    (unused : ∀ i, (keys.chain node true).used i = false) (past : usedCountBatch ≤ changeIndex)
    (inside : changeIndex < discoveryHardCap) : ¬ PooledLater keys node changeIndex := by
  intro pooled
  have full := (pooledLater_iff keys node inside).mp pooled 0 (by simpa using past)
  obtain ⟨i, _, _, used⟩ := emptyBatch_eq_false.mp full
  simp [unused i] at used

def sampleAddressOf (isChange : Bool) (index : Nat) : String :=
  String.ofList ((if isChange then 'c' else 'r') :: List.replicate index 'x')

theorem sampleAddressOf_inj {c c' : Bool} {i i' : Nat}
    (same : sampleAddressOf c i = sampleAddressOf c' i') : c = c' ∧ i = i' := by
  have lists := String.ofList_injective same
  obtain ⟨heads, tails⟩ := List.cons.inj lists
  refine ⟨?_, by simpa using congrArg List.length tails⟩
  cases c <;> cases c' <;> simp_all

def sampleKeys : HDKeys where
  address := sampleAddressOf
  scriptPubKeyHex := sampleAddressOf
  address_inj := sampleAddressOf_inj
  script_inj := sampleAddressOf_inj

/-- A chain on which the addresses of the sample wallet below the given indices have a
transaction. -/
def sampleNode (receive change : Nat) : AddressIndex where
  txids address :=
    match address.toList with
    | 'r' :: rest => if rest.length < receive then ["funding"] else []
    | 'c' :: rest => if rest.length < change then ["change"] else []
    | _ => []
  balance _ := 0

theorem sampleNode_used (receive change : Nat) (isChange : Bool) (index : Nat) :
    (sampleKeys.chain (sampleNode receive change) isChange).used index =
      decide (index < if isChange then change else receive) := by
  cases isChange with
  | false =>
    by_cases below : index < receive <;>
      simp [Chain.used, HDKeys.chain, sampleKeys, sampleNode, sampleAddressOf, below]
  | true =>
    by_cases below : index < change <;>
      simp [Chain.used, HDKeys.chain, sampleKeys, sampleNode, sampleAddressOf, below]

theorem lt_usedCount_sampleNode {receive index : Nat} (below : index < receive)
    (inside : index < discoveryHardCap) :
    index < sampleKeys.usedCount (sampleNode receive 0) false := by
  refine lt_usedCount _ _ inside (by simpa [sampleNode_used] using below) fun k before => ?_
  refine emptyBatch_eq_false.mpr ⟨usedCountBatch * k, le_rfl, by simp [usedCountBatch], ?_⟩
  rw [sampleNode_used, decide_eq_true_eq, if_neg (by simp)]
  omega

/-- With 991 receive addresses used, the pool ends past the bound of the lookup. -/
theorem pool_past_lookup_not_spendable : ¬ PoolSpendable sampleKeys (sampleNode 991 0) 0 := by
  intro spendable
  have fits := (pool_signable_iff sampleKeys (sampleNode 991 0)).mp spendable.pooled false
  have counted : 990 < sampleKeys.usedCount (sampleNode 991 0) false :=
    lt_usedCount_sampleNode (by decide) (by decide)
  have : 990 + addressPoolSize < discoveryHardCap :=
    Nat.lt_of_lt_of_le (Nat.add_lt_add_right counted addressPoolSize) fits
  exact absurd this (by decide)

/-- What the wallet's own operation can leave on the chain and in the store: it receives
on receive addresses with gaps below the gap limit, sends with change to the current
change address, moves the index on and recovers. -/
inductive OwnOperation (keys : HDKeys) (gapLimit : Nat) : AddressIndex → Option Nat → Prop
  | fresh {node : AddressIndex} (unused : ∀ c i, (keys.chain node c).used i = false) :
      OwnOperation keys gapLimit node none
  | receives {node later : AddressIndex} {stored : Option Nat}
      (before : OwnOperation keys gapLimit node stored)
      (kept : ∀ i, (keys.chain node false).used i = true → (keys.chain later false).used i = true)
      (gaps : ∀ bound, GapsBelow (keys.chain later false).used gapLimit bound)
      (change : ∀ i, (keys.chain later true).used i = (keys.chain node true).used i) :
      OwnOperation keys gapLimit later stored
  | sends {node later : AddressIndex} {stored : Option Nat}
      (before : OwnOperation keys gapLimit node stored)
      (funded : ∃ c i, (keys.chain node c).used i = true)
      (receive : ∀ i, (keys.chain later false).used i = (keys.chain node false).used i)
      (change : ∀ i, (keys.chain later true).used i = true ↔
        (keys.chain node true).used i = true ∨ i = currentChangeIndex stored) :
      OwnOperation keys gapLimit later stored
  | advances {node : AddressIndex} {stored : Option Nat}
      (before : OwnOperation keys gapLimit node stored) :
      OwnOperation keys gapLimit node (maybeAdvanceChangeIndex keys node stored)
  | recovers {node : AddressIndex} {stored stored' : Option Nat} {limit : Nat}
      {result : ChainScanResult} (before : OwnOperation keys gapLimit node stored)
      (pos : 1 ≤ limit) (recovered : recoverWallet keys node limit stored = some (result, stored')) :
      OwnOperation keys gapLimit node stored'

/-- The used change addresses are the first ones, up to the stored index at least, and
none is used before a receive address is. -/
structure Operated (keys : HDKeys) (gapLimit : Nat) (node : AddressIndex) (stored : Option Nat)
    (changeUsed : Nat) : Prop where
  gaps : ∀ bound, GapsBelow (keys.chain node false).used gapLimit bound
  change : ∀ i, (keys.chain node true).used i = true ↔ i < changeUsed
  index : currentChangeIndex stored ≤ changeUsed
  funded : 0 < changeUsed → ∃ i, (keys.chain node false).used i = true

variable {gapLimit : Nat}

theorem OwnOperation.operated (own : OwnOperation keys gapLimit node stored) :
    ∃ changeUsed, Operated keys gapLimit node stored changeUsed := by
  induction own with
  | fresh unused =>
    exact ⟨0, fun _ j _ used => by simp [unused] at used, by simp [unused],
      by simp [currentChangeIndex], by simp⟩
  | receives before kept gaps change ih =>
    obtain ⟨n, operated⟩ := ih
    refine ⟨n, gaps, fun i => by rw [change, operated.change], operated.index, fun some_ => ?_⟩
    obtain ⟨i, used⟩ := operated.funded some_
    exact ⟨i, kept i used⟩
  | @sends node later stored before funded receive change ih =>
    obtain ⟨n, operated⟩ := ih
    have same : (keys.chain later false).used = (keys.chain node false).used := funext receive
    have received : ∃ i, (keys.chain later false).used i = true := by
      rw [same]
      obtain ⟨c, i, used⟩ := funded
      cases c with
      | false => exact ⟨i, used⟩
      | true =>
        have := (operated.change i).mp used
        exact operated.funded (by omega)
    have index := operated.index
    refine ⟨max n (currentChangeIndex stored + 1), ?_, fun i => ?_, by omega, fun _ => received⟩
    · rw [same]
      exact operated.gaps
    · rw [change, operated.change]
      omega
  | @advances node stored before ih =>
    obtain ⟨n, operated⟩ := ih
    refine ⟨n, operated.gaps, operated.change, ?_, operated.funded⟩
    rcases maybeAdvanceChangeIndex_cases keys node stored with same | ⟨used, next⟩
    · rw [same]
      exact operated.index
    · rw [next]
      exact (operated.change _).mp used
  | @recovers node stored stored' limit result before pos recovered ih =>
    obtain ⟨n, operated⟩ := ih
    refine ⟨n, operated.gaps, operated.change, ?_, operated.funded⟩
    rcases stored_of_recoverWallet keys node pos recovered with same | ⟨last, _, used, next⟩
    · rw [same]
      exact operated.index
    · rw [next]
      exact (operated.change last).mp used

/-- Every used address is reported, and no used change address is above the index. -/
structure RecoveredAll (keys : HDKeys) (node : AddressIndex) (result : ChainScanResult)
    (stored : Option Nat) : Prop where
  reported : ∀ c i, (keys.chain node c).used i = true →
    (keys.chain node c).report i ∈ result.usedAddresses
  index : ∀ i, (keys.chain node true).used i = true → i ≤ currentChangeIndex stored

theorem mem_usedAddresses_scanned (chain : Chain) {n i : Nat} (below : i < n)
    (used : chain.used i = true) :
    chain.report i ∈ (scanResult chain.deps (chain.scanned n)).usedAddresses := by
  rw [usedAddresses_scanned]
  exact mem_map_of_mem (by simp [below, used])

theorem index_lt_of_mem_usedAddresses (chain : Chain) {entry : UsedAddress} (member : entry ∈
      (scanResult chain.deps (chain.scanned (chain.scanEnd gapLimit))).usedAddresses) :
    entry.index < maxScanLimit := by
  rw [usedAddresses_scanned] at member
  obtain ⟨i, inside, rfl⟩ := List.mem_map.mp member
  rw [mem_filter, mem_range] at inside
  exact Nat.lt_of_lt_of_le inside.1 (stopAt_le _ _ _)

theorem index_lt_of_recoverWallet
    (pos : 1 ≤ gapLimit) {stored' : Option Nat} {result : ChainScanResult}
    (recovered : recoverWallet keys node gapLimit stored = some (result, stored'))
    {entry : UsedAddress} (member : entry ∈ result.usedAddresses) : entry.index < maxScanLimit := by
  rw [recoverWallet_eq keys node pos] at recovered
  simp only at recovered
  split at recovered <;> simp only [some_inj, Prod.mk.injEq] at recovered <;>
    obtain ⟨rfl, _⟩ := recovered <;>
    simp only [ChainScanResult.append, emptyScan, append_nil, mem_append] at member
  · rcases member with inReceive | inChange
    · exact index_lt_of_mem_usedAddresses _ inReceive
    · exact index_lt_of_mem_usedAddresses _ inChange
  · exact index_lt_of_mem_usedAddresses _ member

theorem Operated.recoveredAll (pos : 1 ≤ gapLimit) {changeUsed : Nat}
    (operated : Operated keys gapLimit node stored changeUsed)
    (inside : ∀ c i, (keys.chain node c).used i = true → i < maxScanLimit)
    {before stored' : Option Nat} {result : ChainScanResult}
    (recovered : recoverWallet keys node gapLimit before = some (result, stored')) :
    RecoveredAll keys node result stored' := by
  have receiveSeen : ∀ i, (keys.chain node false).used i = true →
      i < (keys.chain node false).scanEnd gapLimit :=
    fun i used => lt_stopAt_of_gapsBelow (operated.gaps _) (inside _ _ used) used
  -- the used change addresses have no gap at all, so any limit of one or more finds them
  have changeGaps : GapsBelow (keys.chain node true).used (min gapLimit 10) maxScanLimit := by
    intro j _ used s fits
    have := (operated.change j).mp used
    exact ⟨s, le_rfl, by omega, (operated.change s).mpr (by omega)⟩
  have changeSeen : ∀ i, (keys.chain node true).used i = true →
      i < (keys.chain node true).scanEnd (min gapLimit 10) :=
    fun i used => lt_stopAt_of_gapsBelow changeGaps (inside _ _ used) used
  rw [recoverWallet_eq keys node pos] at recovered
  simp only at recovered
  split at recovered
  · simp only [some_inj, Prod.mk.injEq] at recovered
    obtain ⟨rfl, rfl⟩ := recovered
    refine ⟨fun c i used => ?_, fun i used => ?_⟩
    · cases c with
      | false => exact mem_append_left _ (mem_usedAddresses_scanned _ (receiveSeen i used) used)
      | true => exact mem_append_right _ (mem_usedAddresses_scanned _ (changeSeen i used) used)
    · have last := le_lastHit (changeSeen i used) used
      rw [if_pos (by omega)]
      simp only [currentChangeIndex, getD_some]
      omega
  · next none =>
    have noReceive : ∀ i, (keys.chain node false).used i = false := by
      intro i
      by_contra used
      have isUsed : (keys.chain node false).used i = true := by simpa using used
      refine none (length_pos_iff.mpr (ne_nil_of_mem (a := i) ?_))
      simp [receiveSeen i isUsed, isUsed]
    have noChange : ∀ i, (keys.chain node true).used i = false := by
      intro i
      by_contra used
      have := (operated.change i).mp (by simpa using used)
      obtain ⟨k, received⟩ := operated.funded (by omega)
      simp [noReceive k] at received
    refine ⟨fun c i used => ?_, fun i used => ?_⟩
    · cases c with
      | false => simp [noReceive i] at used
      | true => simp [noChange i] at used
    · simp [noChange i] at used

/-- Recovery reports every address the wallet used and stores an index past the used
change addresses exactly when none of them is past the scan limit. -/
theorem recovery_finds_every_coin_iff (keys : HDKeys) {gapLimit : Nat} (pos : 1 ≤ gapLimit)
    {node : AddressIndex} {stored : Option Nat} (own : OwnOperation keys gapLimit node stored)
    (before : Option Nat) :
    ∃ result stored', recoverWallet keys node gapLimit before = some (result, stored') ∧
      (RecoveredAll keys node result stored' ↔
        ∀ c i, (keys.chain node c).used i = true → i < maxScanLimit) := by
  obtain ⟨changeUsed, operated⟩ := own.operated
  have returns : ∃ found, recoverWallet keys node gapLimit before = some found := by
    rw [recoverWallet_eq keys node pos]
    simp only
    split <;> exact ⟨_, rfl⟩
  obtain ⟨⟨result, stored'⟩, recovered⟩ := returns
  refine ⟨result, stored', recovered, fun all c i used => ?_,
    fun inside => operated.recoveredAll pos inside recovered⟩
  exact index_lt_of_recoverWallet pos recovered (all.reported c i used)

theorem ownOperation_sampleNode (receive : Nat) :
    OwnOperation sampleKeys 20 (sampleNode receive 0) none := by
  have none_used : OwnOperation sampleKeys 20 (sampleNode 0 0) none :=
    .fresh fun c i => by cases c <;> simp [sampleNode_used]
  refine .receives none_used (by simp [sampleNode_used]) ?_ (by simp [sampleNode_used])
  intro bound j _ used s fits
  simp only [sampleNode_used, decide_eq_true_eq] at used ⊢
  exact ⟨s, le_rfl, by omega, by simp at used ⊢; omega⟩

/-- Three receive addresses are used, and two payments were made with change. -/
theorem ownOperation_sent : ∃ stored, OwnOperation sampleKeys 20 (sampleNode 3 2) stored := by
  have first : OwnOperation sampleKeys 20 (sampleNode 3 1) none := by
    refine .sends (ownOperation_sampleNode 3) ⟨false, 0, by simp [sampleNode_used]⟩
      (by simp [sampleNode_used]) fun i => ?_
    simp [sampleNode_used, currentChangeIndex]
  have index : currentChangeIndex
      (maybeAdvanceChangeIndex sampleKeys (sampleNode 3 1) none) = 1 := by decide +kernel
  refine ⟨_, .sends first.advances ⟨false, 0, by simp [sampleNode_used]⟩
    (by simp [sampleNode_used]) fun i => ?_⟩
  rw [index]
  simp only [sampleNode_used, decide_eq_true_eq, if_true]
  omega

theorem recovery_finds_every_coin_iff_sample :
    ∃ result stored', recoverWallet sampleKeys (sampleNode 3 2) 20 none = some (result, stored') ∧
      RecoveredAll sampleKeys (sampleNode 3 2) result stored' := by
  obtain ⟨stored, own⟩ := ownOperation_sent
  obtain ⟨result, stored', recovered, all⟩ :=
    recovery_finds_every_coin_iff sampleKeys (by decide) own none
  refine ⟨result, stored', recovered, all.mpr fun c i used => ?_⟩
  rw [sampleNode_used, decide_eq_true_eq] at used
  rw [maxScanLimit]
  split at used <;> omega

/-- With 1001 receive addresses used, the last one is not found again. -/
theorem recovery_misses_past_scan_limit : OwnOperation sampleKeys 20 (sampleNode 1001 0) none ∧
      ¬ ∃ result stored', recoverWallet sampleKeys (sampleNode 1001 0) 20 none =
          some (result, stored') ∧ RecoveredAll sampleKeys (sampleNode 1001 0) result stored' := by
  refine ⟨ownOperation_sampleNode 1001, ?_⟩
  rintro ⟨result, stored', recovered, all⟩
  have used : (sampleKeys.chain (sampleNode 1001 0) false).used 1000 = true := by
    simp [sampleNode_used]
  have : 1000 < maxScanLimit :=
    index_lt_of_recoverWallet (by decide) recovered (all.reported false 1000 used)
  exact absurd this (by decide)

end Phicoin.Web
