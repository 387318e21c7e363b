import Phicoin.Lib.GapScan

/-! # Scanning a chain of derived addresses

`scanChain` walks the addresses of a chain in batches and gives up after `gapLimit`
consecutive unused ones; `getUsedCountForChain` walks aligned batches of twenty and
gives up at the first one without a used address.  What the first finds depends
on the usage of the addresses only, and the two agree on the highest used index unless
a gap as long as a batch comes before it. -/

namespace Phicoin.Web

open GapScan List

structure DerivedAddr where
  address : String
  path : String
  index : Nat

/-- What a scan asks for; `none` is a derivation or a call that fails. -/
structure ScanDeps where
  derive : Nat → Option DerivedAddr
  getAddressTxIds : String → Option (List String)
  getAddressBalance : String → Option Int

structure AddressScanEntry where
  address : String
  path : String
  index : Nat
  used : Bool
  txCount : Nat

structure UsedAddress where
  address : String
  balance : Int
  txCount : Nat
  path : String
  index : Nat

/-- Balances are in satoshi. -/
structure ChainScanResult where
  totalScanned : Nat
  usedAddresses : List UsedAddress
  unusedAddresses : List String
  totalBalance : Int
  lastUsedIndex : Int

def maxScanLimit : Nat := 1000

/-- The variables of the loop of `scanChain`. -/
structure ScanState where
  entries : List AddressScanEntry := []
  consecutiveUnused : Nat := 0
  lastUsedIndex : Int := -1

def ScanDeps.txCount (deps : ScanDeps) (address : String) : Nat :=
  ((deps.getAddressTxIds address).getD []).length

/-- The body of the inner loop, and whether it breaks out of the batch.  A failed
derivation counts as unused and does not break. -/
def scanAddress (deps : ScanDeps) (gapLimit index : Nat) (state : ScanState) :
    ScanState × Bool :=
  match deps.derive index with
  | none =>
    ({ state with
        entries := state.entries ++ [⟨"", "", index, false, 0⟩]
        consecutiveUnused := state.consecutiveUnused + 1 }, false)
  | some addr =>
    let txCount := deps.txCount addr.address
    let entry : AddressScanEntry :=
      ⟨addr.address, addr.path, addr.index, decide (0 < txCount), txCount⟩
    if 0 < txCount then
      (⟨state.entries ++ [entry], 0, addr.index⟩, false)
    else
      (⟨state.entries ++ [entry], state.consecutiveUnused + 1, state.lastUsedIndex⟩,
        decide (gapLimit ≤ state.consecutiveUnused + 1))

def scanBatch (deps : ScanDeps) (gapLimit : Nat) : Nat → Nat → ScanState → ScanState
  | 0, _, state => state
  | left + 1, index, state =>
    if index < maxScanLimit then
      let (state', stop) := scanAddress deps gapLimit index state
      if stop then state' else scanBatch deps gapLimit left (index + 1) state'
    else state

/-- The outer loop, `none` when it is not through after the given number of rounds. -/
def scanBatches (deps : ScanDeps) (gapLimit batchSize : Nat) :
    Nat → Nat → ScanState → Option ScanState
  | 0, _, _ => none
  | rounds + 1, index, state =>
    if state.consecutiveUnused < gapLimit ∧ index < maxScanLimit then
      scanBatches deps gapLimit batchSize rounds (index + batchSize)
        (scanBatch deps gapLimit batchSize index state)
    else some state

def ScanDeps.withBalance (deps : ScanDeps) (entry : AddressScanEntry) : UsedAddress :=
  ⟨entry.address, (deps.getAddressBalance entry.address).getD 0, entry.txCount, entry.path,
    entry.index⟩

def scanResult (deps : ScanDeps) (state : ScanState) : ChainScanResult :=
  let usedAddresses := (state.entries.filter (·.used)).map deps.withBalance
  { totalScanned := state.entries.length
    usedAddresses
    unusedAddresses := (state.entries.filter (!·.used)).map (·.address)
    totalBalance := usedAddresses.foldl (fun sum entry => sum + entry.balance) 0
    lastUsedIndex := state.lastUsedIndex }

/-- `scanChain`.  A batch of at least one address moves the index, so one round more
than the scan limit is enough. -/
def scanChain (deps : ScanDeps) (gapLimit batchSize : Nat) : Option ChainScanResult :=
  (scanBatches deps gapLimit batchSize (maxScanLimit + 1) 0 {}).map (scanResult deps)

def discoveryHardCap : Nat := 1000

def usedCountBatch : Nat := 20

def deriveAddressRange (deps : ScanDeps) (startIndex count : Nat) : Option (List DerivedAddr) :=
  (List.range' startIndex count).mapM deps.derive

/-- The body of the `forEach` over the answers for a batch. -/
def noteUsed (deps : ScanDeps) (seen : Int × Bool) (addr : DerivedAddr) : Int × Bool :=
  if 0 < deps.txCount addr.address then (addr.index, true) else seen

/-- The loop of `getUsedCountForChain` over the batches that are left. -/
def usedCountLoop (deps : ScanDeps) : Nat → Nat → Int → Option Int
  | 0, _, lastUsed => some lastUsed
  | left + 1, start, lastUsed =>
    match deriveAddressRange deps start usedCountBatch with
    | none => none
    | some batch =>
      let (lastUsed', anyUsed) := batch.foldl (noteUsed deps) (lastUsed, false)
      if anyUsed then usedCountLoop deps left (start + usedCountBatch) lastUsed'
      else some lastUsed'

/-- `getUsedCountForChain`; `none` when a derivation throws. -/
def getUsedCountForChain (deps : ScanDeps) : Option Int :=
  (usedCountLoop deps (discoveryHardCap / usedCountBatch) 0 (-1)).map (· + 1)

structure Chain where
  address : Nat → String
  path : Nat → String
  txids : String → List String
  balance : String → Int

def Chain.deps (chain : Chain) : ScanDeps where
  derive index := some ⟨chain.address index, chain.path index, index⟩
  getAddressTxIds address := some (chain.txids address)
  getAddressBalance address := some (chain.balance address)

def Chain.used (chain : Chain) (index : Nat) : Bool :=
  decide (0 < (chain.txids (chain.address index)).length)

def Chain.entry (chain : Chain) (index : Nat) : AddressScanEntry :=
  ⟨chain.address index, chain.path index, index, chain.used index,
    (chain.txids (chain.address index)).length⟩

def Chain.report (chain : Chain) (index : Nat) : UsedAddress :=
  ⟨chain.address index, chain.balance (chain.address index),
    (chain.txids (chain.address index)).length, chain.path index, index⟩

/-- The state of a scan that has seen the indices below `n`. -/
def Chain.scanned (chain : Chain) (n : Nat) : ScanState :=
  ⟨(List.range n).map chain.entry, misses chain.used n, lastHit chain.used n⟩

section

variable (chain : Chain) {gapLimit : Nat}

theorem scanAddress_scanned (index : Nat) :
    scanAddress chain.deps gapLimit index (chain.scanned index) = (chain.scanned (index + 1),
        !chain.used index && decide (gapLimit ≤ misses chain.used (index + 1))) := by
  cases used : chain.used index with
  | true =>
    have count : 0 < (chain.txids (chain.address index)).length := by
      simpa [Chain.used] using used
    simp [scanAddress, Chain.deps, ScanDeps.txCount, Chain.scanned, Chain.entry, count,
      range_succ, misses, lastHit, used]
  | false =>
    have count : ¬ 0 < (chain.txids (chain.address index)).length := by
      simpa [Chain.used] using used
    simp [scanAddress, Chain.deps, ScanDeps.txCount, Chain.scanned, Chain.entry, count,
      range_succ, misses, lastHit, used]
    exact decide_eq_decide.mpr Iff.rfl

def Chain.scanEnd (chain : Chain) (gapLimit : Nat) : Nat :=
  stopAt chain.used gapLimit maxScanLimit

theorem scanBatch_scanned (pos : 1 ≤ gapLimit) (left : Nat) :
    ∀ index, index < chain.scanEnd gapLimit ∨
        index = chain.scanEnd gapLimit ∧ index = maxScanLimit →
      scanBatch chain.deps gapLimit left index (chain.scanned index) =
        chain.scanned (min (index + left) (chain.scanEnd gapLimit)) := by
  have limit : chain.scanEnd gapLimit ≤ maxScanLimit := stopAt_le _ _ _
  induction left with
  | zero =>
    intro index place
    have : min (index + 0) (chain.scanEnd gapLimit) = index := by omega
    rw [this, scanBatch]
  | succ left ih =>
    intro index place
    rcases place with before | ⟨atEnd, atLimit⟩
    · rw [scanBatch, if_pos (by omega), scanAddress_scanned]
      simp only
      by_cases gap : gapLimit ≤ misses chain.used (index + 1)
      · -- the gap ends at this index: the batch is left here, and so is the scan
        have unused : chain.used index = false := by
          by_contra used
          rw [misses_succ_of_hit (by simpa using used)] at gap
          omega
        have stops : chain.scanEnd gapLimit ≤ index + 1 :=
          stopAt_le_of_gap (le_misses_iff.mp gap)
        have : min (index + (left + 1)) (chain.scanEnd gapLimit) = index + 1 := by omega
        simp [unused, gap, this]
      · have next : index + 1 < chain.scanEnd gapLimit ∨
            index + 1 = chain.scanEnd gapLimit ∧ index + 1 = maxScanLimit := by
          rcases Nat.lt_or_ge (index + 1) (chain.scanEnd gapLimit) with h | h
          · exact Or.inl h
          · have same : index + 1 = chain.scanEnd gapLimit := by omega
            rcases stopAt_spec chain.used gapLimit maxScanLimit with h' | h'
            · exact Or.inr ⟨same, same.trans h'⟩
            · exact absurd (same ▸ h') gap
        have : index + (left + 1) = index + 1 + left := by omega
        simp [gap, ih (index + 1) next, this]
    · have : min (index + (left + 1)) (chain.scanEnd gapLimit) = index := by omega
      rw [this, scanBatch, if_neg (by omega)]

theorem scanBatches_scanned (pos : 1 ≤ gapLimit) {batchSize : Nat} (batch : 1 ≤ batchSize)
    (rounds : Nat) : ∀ index, 0 < rounds → maxScanLimit < index + rounds →
      scanBatches chain.deps gapLimit batchSize rounds index
          (chain.scanned (min index (chain.scanEnd gapLimit))) =
        some (chain.scanned (chain.scanEnd gapLimit)) := by
  have limit : chain.scanEnd gapLimit ≤ maxScanLimit := stopAt_le _ _ _
  induction rounds with
  | zero =>
    intro index some_left
    omega
  | succ rounds ih =>
    intro index _ enough
    rw [scanBatches]
    rcases Nat.lt_or_ge index (chain.scanEnd gapLimit) with before | past
    · have here : min index (chain.scanEnd gapLimit) = index := by omega
      have goes : misses chain.used index < gapLimit := misses_lt_of_lt_stopAt before
      rw [here, if_pos ⟨goes, by omega⟩, scanBatch_scanned chain pos _ _ (Or.inl before)]
      exact ih (index + batchSize) (by omega) (by omega)
    · have here : min index (chain.scanEnd gapLimit) = chain.scanEnd gapLimit := by omega
      rw [here, if_neg]
      rintro ⟨goes, below⟩
      rcases stopAt_spec chain.used gapLimit maxScanLimit with h | h
      · have : chain.scanEnd gapLimit = maxScanLimit := h
        omega
      · exact absurd goes (Nat.not_lt.mpr h)

theorem scanChain_eq (pos : 1 ≤ gapLimit) {batchSize : Nat} (batch : 1 ≤ batchSize) :
    scanChain chain.deps gapLimit batchSize =
      some (scanResult chain.deps (chain.scanned (chain.scanEnd gapLimit))) := by
  have start : chain.scanned (min 0 (chain.scanEnd gapLimit)) = {} := by
    simp [Chain.scanned, misses, lastHit]
  have run := scanBatches_scanned chain pos batch (maxScanLimit + 1) 0 (by omega) (by omega)
  rw [start] at run
  rw [scanChain, run, Option.map_some]

theorem usedAddresses_scanned (n : Nat) : (scanResult chain.deps (chain.scanned n)).usedAddresses =
      ((List.range n).filter chain.used).map chain.report := by
  simp only [scanResult, Chain.scanned, filter_map, map_map]
  rfl

theorem unusedAddresses_scanned (n : Nat) :
    (scanResult chain.deps (chain.scanned n)).unusedAddresses =
      ((List.range n).filter (!chain.used ·)).map chain.address := by
  simp only [scanResult, Chain.scanned, filter_map, map_map]
  rfl

theorem totalScanned_scanned (n : Nat) :
    (scanResult chain.deps (chain.scanned n)).totalScanned = n := by
  simp [scanResult, Chain.scanned]

theorem lastUsedIndex_scanned (n : Nat) :
    (scanResult chain.deps (chain.scanned n)).lastUsedIndex = lastHit chain.used n :=
  rfl

end

section

variable (chain : Chain)

theorem deriveAddressRange_deps (start count : Nat) : deriveAddressRange chain.deps start count =
      some ((range' start count).map fun i => ⟨chain.address i, chain.path i, i⟩) := by
  rw [deriveAddressRange]
  induction range' start count with
  | nil => rfl
  | cons i rest ih =>
    rw [mapM_cons, ih]
    rfl

theorem foldl_noteUsed (start count : Nat) : ((List.range' start count).map fun i =>
        (⟨chain.address i, chain.path i, i⟩ : DerivedAddr)).foldl (noteUsed chain.deps)
          (lastHit chain.used start, false) =
      (lastHit chain.used (start + count), !(List.range' start count).all (!chain.used ·)) := by
  induction count with
  | zero => rfl
  | succ count ih =>
    rw [List.range'_1_concat, map_append, foldl_append, ih, all_append,
      ← Nat.add_assoc, lastHit]
    have txCount : chain.deps.txCount (chain.address (start + count)) =
        (chain.txids (chain.address (start + count))).length := rfl
    by_cases used : 0 < (chain.txids (chain.address (start + count))).length
    · simp [noteUsed, txCount, used, Chain.used]
    · simp [noteUsed, txCount, used, Chain.used]

/-- The number of batches the count looks at before one without a used address. -/
def Chain.fullBatches (chain : Chain) : Nat :=
  GapScan.fullBatches chain.used usedCountBatch (discoveryHardCap / usedCountBatch)

theorem usedCountLoop_eq (left : Nat) :
    ∀ k, k + left = discoveryHardCap / usedCountBatch → k ≤ chain.fullBatches →
      usedCountLoop chain.deps left (usedCountBatch * k) (lastHit chain.used (usedCountBatch * k)) =
        some (lastHit chain.used (usedCountBatch * chain.fullBatches)) := by
  have limit : chain.fullBatches ≤ discoveryHardCap / usedCountBatch := fullBatches_le _ _ _
  induction left with
  | zero =>
    intro k whole reached
    have : chain.fullBatches = k := by omega
    rw [this, usedCountLoop]
  | succ left ih =>
    intro k whole reached
    rw [usedCountLoop, deriveAddressRange_deps]
    simp only [foldl_noteUsed]
    cases empty : emptyBatch chain.used usedCountBatch k with
    | true =>
      have last : chain.fullBatches = k :=
        Nat.le_antisymm (fullBatches_le_of_empty empty) reached
      rw [emptyBatch] at empty
      rw [empty, if_neg (by simp), last,
        lastHit_of_misses (Nat.le_add_right _ _) (emptyBatch_eq_true.mp empty)]
    | false =>
      have further : k + 1 ≤ chain.fullBatches := by
        rcases fullBatches_spec chain.used usedCountBatch
          (discoveryHardCap / usedCountBatch) with h | h
        · have : chain.fullBatches = discoveryHardCap / usedCountBatch := h
          omega
        · by_contra not
          have same : k = chain.fullBatches := by omega
          rw [same] at empty
          exact absurd (h.symm.trans empty) (by simp)
      rw [emptyBatch] at empty
      rw [empty, if_pos (by simp)]
      exact ih (k + 1) (by omega) further

theorem getUsedCountForChain_eq : getUsedCountForChain chain.deps =
      some (lastHit chain.used (usedCountBatch * chain.fullBatches) + 1) := by
  have run := usedCountLoop_eq chain (discoveryHardCap / usedCountBatch) 0 (by omega)
    (Nat.zero_le _)
  rw [getUsedCountForChain]
  exact congrArg (Option.map (· + 1)) run

theorem seen_le : usedCountBatch * chain.fullBatches ≤ discoveryHardCap := by
  have : chain.fullBatches ≤ discoveryHardCap / usedCountBatch := fullBatches_le _ _ _
  calc usedCountBatch * chain.fullBatches
      ≤ usedCountBatch * (discoveryHardCap / usedCountBatch) := Nat.mul_le_mul_left _ this
    _ = discoveryHardCap := by decide

theorem lastHit_fullBatches (gaps : GapsBelow chain.used usedCountBatch discoveryHardCap) :
    lastHit chain.used (usedCountBatch * chain.fullBatches) =
      lastHit chain.used discoveryHardCap := by
  refine (lastHit_of_misses (seen_le chain) fun i low high => ?_).symm
  by_contra used
  have isUsed : chain.used i = true := by simpa using used
  have seen : i < usedCountBatch * chain.fullBatches :=
    lt_fullBatches high isUsed fun k before => emptyBatch_eq_false.mpr (gaps i high isUsed _ before)
  omega

end

/-- The index is the highest used one below the bound, or `-1` without a used one. -/
def Chain.HighestUsed (chain : Chain) (bound : Nat) (last : Int) : Prop :=
  (∀ i, i < bound → chain.used i = true → (i : Int) ≤ last) ∧
    (last = -1 ∨ ∃ i, i < bound ∧ chain.used i = true ∧ last = i)

theorem highestUsed_lastHit (chain : Chain) (bound : Nat) :
    chain.HighestUsed bound (lastHit chain.used bound) :=
  ⟨fun _ below used => le_lastHit below used, lastHit_cases _ bound⟩

/-- The first `n` for which the `gapLimit` indices below it are unused, or the scan
limit when it comes first. -/
def Chain.ScanEnds (chain : Chain) (gapLimit n : Nat) : Prop :=
  n ≤ maxScanLimit ∧ (n = maxScanLimit ∨ GapAt chain.used gapLimit n) ∧
    ∀ m, m < n → ¬ GapAt chain.used gapLimit m

theorem scanEnds_scanEnd (chain : Chain) (gapLimit : Nat) :
    chain.ScanEnds gapLimit (chain.scanEnd gapLimit) := by
  refine ⟨stopAt_le _ _ _, ?_, ?_⟩
  · rcases stopAt_spec chain.used gapLimit maxScanLimit with h | h
    · exact Or.inl h
    · exact Or.inr (le_misses_iff.mp h)
  · intro m before gap
    have := misses_lt_of_lt_stopAt before
    have := le_misses_iff.mpr gap
    omega

/-- A scan sees the indices up to the first gap, whatever the size of its batches, and
reports the used ones and the unused ones among them.  The batched count is one more
than the highest used index when no gap as long as a batch comes before a used one. -/
theorem gap_limit_scan_is_exact (chain : Chain) :
    (∀ gapLimit, 1 ≤ gapLimit → ∃ n result, chain.ScanEnds gapLimit n ∧
      (∀ batchSize, 1 ≤ batchSize → scanChain chain.deps gapLimit batchSize = some result) ∧
      result.totalScanned = n ∧
      result.usedAddresses = ((List.range n).filter chain.used).map chain.report ∧
      result.unusedAddresses = ((List.range n).filter (!chain.used ·)).map chain.address ∧
      chain.HighestUsed n result.lastUsedIndex) ∧
    (GapsBelow chain.used usedCountBatch discoveryHardCap →
      ∃ last, chain.HighestUsed discoveryHardCap last ∧
        getUsedCountForChain chain.deps = some (last + 1)) := by
  constructor
  · intro gapLimit pos
    refine ⟨chain.scanEnd gapLimit,
      scanResult chain.deps (chain.scanned (chain.scanEnd gapLimit)),
      scanEnds_scanEnd chain gapLimit, fun _ batch => scanChain_eq chain pos batch,
      totalScanned_scanned chain _, usedAddresses_scanned chain _,
      unusedAddresses_scanned chain _, ?_⟩
    rw [lastUsedIndex_scanned]
    exact highestUsed_lastHit chain _
  · intro gaps
    refine ⟨_, highestUsed_lastHit chain _, ?_⟩
    rw [getUsedCountForChain_eq, lastHit_fullBatches chain gaps]

/-- A chain of which every fifteenth of the first sixty addresses has a transaction. -/
def sampleChain : Chain where
  address index := String.ofList (List.replicate index 'x')
  path _ := ""
  txids address :=
    if address.toList.length % 15 = 0 ∧ address.toList.length < 60 then ["funding"] else []
  balance _ := 0

theorem sampleChain_used (index : Nat) :
    sampleChain.used index = decide (index % 15 = 0 ∧ index < 60) := by
  by_cases h : index % 15 = 0 ∧ index < 60 <;> simp [Chain.used, sampleChain, h]

theorem gap_limit_scan_is_exact_sampleChain :
    ∃ last, sampleChain.HighestUsed discoveryHardCap last ∧
      getUsedCountForChain sampleChain.deps = some (last + 1) := by
  refine (gap_limit_scan_is_exact sampleChain).2 fun j _ used s fits => ?_
  rw [sampleChain_used, decide_eq_true_eq] at used
  rw [usedCountBatch] at fits ⊢
  -- the next multiple of fifteen
  refine ⟨15 * ((s + 14) / 15), by omega, by omega, ?_⟩
  rw [sampleChain_used, decide_eq_true_eq]
  omega

end Phicoin.Web
