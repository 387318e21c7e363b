import Mathlib.Data.List.Dedup
import Mathlib.Data.List.Perm.Basic
import Mathlib.Data.List.Sort
import Phicoin.Lib.Lru

/-! # Pages of the transaction history

`getTransactionHistory` cuts its page out of the list of transaction ids before it knows
their heights, and sorts each page alone.  A page that needs too many calls comes out empty,
and one that caches new transactions loses those of its own that the cache drops for them. -/

namespace Phicoin.Web

open List LruCache

structure RawTx where
  height : Nat
  time : Nat
  confirmations : Nat

structure TxEntry where
  txid : String
  blockHeight : Nat
  confirmations : Nat
  timestamp : Nat

/-- What the node answers; `none` is a call of a batch that fails. -/
structure HistoryNode where
  getaddresstxids : String → Option (List String)
  getrawtransaction : String → Option RawTx
  blockCount : Nat

/-- `rawBatch`; nothing when it throws. -/
def rawBatch {α β : Type} (answer : α → Option β) (calls : List α) : Option (List (Option β)) :=
  if calls.length > 5000 then none else some (calls.map answer)

def getAddressTxIdsBatch (node : HistoryNode) (addresses : List String) : Option (List String) :=
  (rawBatch node.getaddresstxids addresses).map fun batched =>
    batched.flatMap fun txids => txids.getD []

/-- `Array.from(new Set(txids))`: the first occurrences, in order. -/
def uniqueTxIds (txids : List String) : List String :=
  txids.reverse.dedup.reverse

def txEntry (node : HistoryNode) (txid : String) (tx : RawTx) : TxEntry :=
  ⟨txid, tx.height, if 0 < tx.height then node.blockCount + 1 - tx.height else 0, tx.time⟩

/-- The order of the sort: higher blocks first, then later times. -/
def comesFirst (a b : TxEntry) : Bool :=
  if a.blockHeight ≠ b.blockHeight then decide (b.blockHeight < a.blockHeight)
  else decide (b.timestamp ≤ a.timestamp)

/-- `confirmedTxCache` -/
abbrev TxCache := LruCache String RawTx

def isUncached (cache : TxCache) (txid : String) : Bool := !cache.exists? txid

/-- The transactions that a page fetches, in order. -/
def freshByTxid (uncachedTxIds : List String) (fetchedRaw : List (Option RawTx)) :
    List (String × RawTx) :=
  (uncachedTxIds.zip fetchedRaw).filterMap fun entry => entry.2.map fun tx => (entry.1, tx)

/-- The calls of `cacheConfirmedTx`, for transactions of some depth. -/
def confirmedOf (fresh : List (String × RawTx)) : List (String × RawTx) :=
  fresh.filter fun entry => 6 ≤ entry.2.confirmations

def findTx (cache : TxCache) (fresh : List (String × RawTx)) (txid : String) : Option RawTx :=
  (cache.get? txid).or ((fresh.find? fun entry => entry.1 = txid).map Prod.snd)

/-- `getTransactionHistory` without filters: a page, and the cache after it. -/
def getTransactionHistory (node : HistoryNode) (cache : TxCache) (addresses : List String)
    (start count : Nat) : List TxEntry × TxCache :=
  match getAddressTxIdsBatch node addresses with
  | none => ([], cache)
  | some allTxIds =>
    let recentTxIds := ((uniqueTxIds allTxIds).drop start).take count
    let uncachedTxIds := recentTxIds.filter (isUncached cache)
    match rawBatch node.getrawtransaction uncachedTxIds with
    | none => ([], cache)
    | some fetchedRaw =>
      let fresh := freshByTxid uncachedTxIds fetchedRaw
      let kept := cache.putAll (confirmedOf fresh)
      let txs := recentTxIds.filterMap fun txid =>
        (findTx kept fresh txid).map (txEntry node txid)
      (txs.mergeSort comesFirst, kept)

section

variable (node : HistoryNode) (addresses : List String) (count : Nat)

/-- The pages from the `i`-th on, one after another. -/
def pagesFrom : Nat → Nat → TxCache → List (List TxEntry)
  | 0, _, _ => []
  | pages + 1, i, cache =>
    let page := getTransactionHistory node cache addresses (i * count) count
    page.1 :: pagesFrom pages (i + 1) page.2

/-- The ids that the node lists for the addresses, each once. -/
def listed : List String :=
  uniqueTxIds (addresses.flatMap fun address => (node.getaddresstxids address).getD [])

def pageIds (i : Nat) : List String := ((listed node addresses).drop (i * count)).take count

/-- The node returns every transaction it lists, and what is cached of one is what the
node returns. -/
structure Answers (cache : TxCache) : Prop where
  fetched : ∀ txid ∈ listed node addresses, (node.getrawtransaction txid).isSome
  cached : ∀ txid tx, cache.get? txid = some tx →
    ∃ now, node.getrawtransaction txid = some now ∧ now.height = tx.height ∧ now.time = tx.time
  bounded : cache.items.entries.length ≤ cache.maxSize

def entryOf (txid : String) : TxEntry :=
  txEntry node txid ((node.getrawtransaction txid).getD ⟨0, 0, 0⟩)

/-- The ids of a page that are fetched and then cached. -/
def newlyCached (cache : TxCache) (ids : List String) : List String :=
  ids.filter fun txid => isUncached cache txid &&
    (node.getrawtransaction txid).any fun tx => 6 ≤ tx.confirmations

/-- A page needs few calls, and those of its ids that are cached are recent enough to stay. -/
structure PageKept (cache : TxCache) (ids : List String) : Prop where
  calls : (ids.filter (isUncached cache)).length ≤ 5000
  recent : ∀ txid ∈ ids, cache.exists? txid = true →
    txid ∈ (cache.items.entries.take (cache.maxSize - (newlyCached node cache ids).length)).keys

def PagesKept : Nat → Nat → TxCache → Prop
  | 0, _, _ => True
  | pages + 1, i, cache => PageKept node cache (pageIds node addresses count i) ∧
    PagesKept pages (i + 1) (getTransactionHistory node cache addresses (i * count) count).2

variable {node addresses count}

theorem mem_listed {txid : String} : txid ∈ listed node addresses ↔
      ∃ address ∈ addresses, txid ∈ (node.getaddresstxids address).getD [] := by
  simp [listed, uniqueTxIds]

theorem nodup_listed : (listed node addresses).Nodup :=
  nodup_reverse.mpr (nodup_dedup _)

/-- What a page fetches. -/
def freshOf (node : HistoryNode) (cache : TxCache) (ids : List String) : List (String × RawTx) :=
  (ids.filter (isUncached cache)).filterMap fun txid =>
    (node.getrawtransaction txid).map fun tx => (txid, tx)

/-- The cache after a page. -/
def keptBy (node : HistoryNode) (cache : TxCache) (ids : List String) : TxCache :=
  cache.putAll (confirmedOf (freshOf node cache ids))

theorem freshByTxid_eq (ids : List String) :
    freshByTxid ids (ids.map node.getrawtransaction) =
      ids.filterMap fun txid => (node.getrawtransaction txid).map fun tx => (txid, tx) := by
  induction ids with
  | nil => rfl
  | cons txid rest ih =>
    unfold freshByTxid at ih ⊢
    rw [map_cons, zip_cons_cons, filterMap_cons, filterMap_cons, ih]

/-- A page of a wallet whose addresses fit a batch. -/
theorem getTransactionHistory_eq (few : addresses.length ≤ 5000) (cache : TxCache) (i : Nat) :
    let ids := pageIds node addresses count i
    getTransactionHistory node cache addresses (i * count) count =
      if 5000 < (ids.filter (isUncached cache)).length then ([], cache)
      else ((ids.filterMap fun txid => (findTx (keptBy node cache ids) (freshOf node cache ids)
        txid).map (txEntry node txid)).mergeSort comesFirst, keptBy node cache ids) := by
  intro ids
  have all : getAddressTxIdsBatch node addresses = some (addresses.flatMap fun address =>
      (node.getaddresstxids address).getD []) := by
    rw [getAddressTxIdsBatch, rawBatch, if_neg (by omega), Option.map_some, flatMap_map]
  have page : ((uniqueTxIds (addresses.flatMap fun address =>
      (node.getaddresstxids address).getD [])).drop (i * count)).take count = ids := rfl
  unfold getTransactionHistory
  rw [all]
  dsimp only
  rw [page, rawBatch]
  split_ifs
  · rfl
  · dsimp only
    rw [freshByTxid_eq]
    rfl

theorem getTransactionHistory_refused (many : 5000 < addresses.length) (cache : TxCache)
    (start : Nat) : getTransactionHistory node cache addresses start count = ([], cache) := by
  unfold getTransactionHistory
  rw [getAddressTxIdsBatch, rawBatch, if_pos many]
  rfl

section

variable {cache : TxCache} {ids : List String} {txid : String}

theorem isUncached_iff : isUncached cache txid = true ↔ txid ∉ cache.items := by
  rw [isUncached, Bool.not_eq_true', ← Bool.not_eq_true]
  exact not_congr AList.lookup_isSome

theorem mem_freshOf {entry : String × RawTx} : entry ∈ freshOf node cache ids ↔
    entry.1 ∈ ids ∧ isUncached cache entry.1 = true ∧
      node.getrawtransaction entry.1 = some entry.2 := by
  simp only [freshOf, mem_filterMap, mem_filter, Option.map_eq_some_iff]
  constructor
  · rintro ⟨txid, ⟨member, uncached⟩, tx, found, rfl⟩
    exact ⟨member, uncached, found⟩
  · rintro ⟨member, uncached, found⟩
    exact ⟨entry.1, ⟨member, uncached⟩, entry.2, found, rfl⟩

theorem fst_confirmedOf_freshOf (node : HistoryNode) (cache : TxCache) (ids : List String) :
    (confirmedOf (freshOf node cache ids)).map Prod.fst = newlyCached node cache ids := by
  unfold confirmedOf freshOf newlyCached
  induction ids with
  | nil => rfl
  | cons txid rest ih =>
    rw [filter_cons, filter_cons]
    by_cases uncached : isUncached cache txid = true
    · cases found : node.getrawtransaction txid with
      | none => simpa [uncached, found] using ih
      | some tx => by_cases deep : 6 ≤ tx.confirmations <;> simpa [uncached, found, deep] using ih
    · simpa [uncached] using ih

theorem mem_keptBy_iff (distinct : ids.Nodup)
    (bounded : cache.items.entries.length ≤ cache.maxSize) (cached : txid ∈ cache.items) :
    txid ∈ (keptBy node cache ids).items ↔ txid ∈ (cache.items.entries.take
      (cache.maxSize - (newlyCached node cache ids).length)).keys := by
  have names := fst_confirmedOf_freshOf node cache ids
  have isNew : ∀ pair ∈ confirmedOf (freshOf node cache ids), pair.1 ∉ cache.items :=
    fun pair member => isUncached_iff.mp (mem_freshOf.mp (mem_filter.mp member).1).2.1
  unfold keptBy
  rw [mem_putAll_iff (names ▸ distinct.filter _) isNew bounded, ← names, length_map]
  intro member
  obtain ⟨pair, inside, rfl⟩ := mem_map.mp member
  exact isNew pair inside cached

theorem find?_freshOf : ((freshOf node cache ids).find? fun entry => entry.1 = txid).map Prod.snd =
      if txid ∈ ids ∧ isUncached cache txid = true then node.getrawtransaction txid else none := by
  cases found : (freshOf node cache ids).find? fun entry => entry.1 = txid with
  | some entry =>
    have same : entry.1 = txid := by simpa using find?_some found
    obtain ⟨member, uncached, fetched⟩ := mem_freshOf.mp (mem_of_find?_eq_some found)
    rw [same] at member uncached fetched
    rw [if_pos ⟨member, uncached⟩, fetched]
    rfl
  | none =>
    split_ifs with inside
    · cases fetched : node.getrawtransaction txid with
      | none => rfl
      | some tx =>
        have entry : (txid, tx) ∈ freshOf node cache ids :=
          mem_freshOf.mpr ⟨inside.1, inside.2, fetched⟩
        simpa using find?_eq_none.mp found _ entry
    · rfl

theorem get?_keptBy {tx : RawTx} (found : (keptBy node cache ids).get? txid = some tx) :
    isUncached cache txid = true ∧ node.getrawtransaction txid = some tx ∨
      cache.get? txid = some tx := by
  refine (get?_putAll found).imp_left fun member => ?_
  exact (mem_freshOf.mp (mem_filter.mp member).1).2

theorem Answers.keptBy (answers : Answers node addresses cache) (ids : List String) :
    Answers node addresses (keptBy node cache ids) where
  fetched := answers.fetched
  cached txid tx found := by
    rcases get?_keptBy found with ⟨_, fetched⟩ | before
    · exact ⟨tx, fetched, rfl, rfl⟩
    · exact answers.cached txid tx before
  bounded := bounded_putAll _ answers.bounded

/-- An id of a page is shown when it was fetched or is still cached. -/
theorem findTx_entry (answers : Answers node addresses cache) (inside : txid ∈ ids)
    (member : txid ∈ listed node addresses) :
    (findTx (keptBy node cache ids) (freshOf node cache ids) txid).map (txEntry node txid) =
      if txid ∉ cache.items ∨ txid ∈ (keptBy node cache ids).items then some (entryOf node txid)
      else none := by
  obtain ⟨now, fetched⟩ := Option.isSome_iff_exists.mp (answers.fetched txid member)
  have shown : entryOf node txid = txEntry node txid now := by
    rw [entryOf, fetched, Option.getD_some]
  unfold findTx
  rw [find?_freshOf]
  cases found : (keptBy node cache ids).get? txid with
  | some tx =>
    have present := AList.lookup_isSome.mp (Option.isSome_of_eq_some found)
    obtain ⟨other, refetched, height, time⟩ := (answers.keptBy ids).cached txid tx found
    obtain rfl := Option.some_inj.mp (fetched.symm.trans refetched)
    rw [Option.some_or, if_pos (Or.inr present), shown]
    simp [txEntry, height, time]
  | none =>
    have absent : txid ∉ (keptBy node cache ids).items := fun present => by
      have isSome := AList.lookup_isSome.mpr present
      rw [show AList.lookup txid (keptBy node cache ids).items = none from found] at isSome
      cases isSome
    by_cases cached : txid ∈ cache.items
    · rw [if_neg (by simp [cached, isUncached_iff]), if_neg (by simp [cached, absent])]
      rfl
    · rw [if_pos ⟨inside, isUncached_iff.mpr cached⟩, if_pos (.inl cached), fetched, shown]
      rfl

theorem pageKept_iff (distinct : ids.Nodup)
    (bounded : cache.items.entries.length ≤ cache.maxSize) : PageKept node cache ids ↔
      (ids.filter (isUncached cache)).length ≤ 5000 ∧
        ∀ txid ∈ ids, txid ∉ cache.items ∨ txid ∈ (keptBy node cache ids).items := by
  constructor
  · rintro ⟨calls, recent⟩
    refine ⟨calls, fun txid member => or_iff_not_imp_left.mpr fun cached => ?_⟩
    rw [not_not] at cached
    exact (mem_keptBy_iff distinct bounded cached).mpr
      (recent txid member (AList.lookup_isSome.mpr cached))
  · rintro ⟨calls, shown⟩
    refine ⟨calls, fun txid member present => ?_⟩
    have cached := AList.lookup_isSome.mp present
    exact (mem_keptBy_iff distinct bounded cached).mp
      ((shown txid member).resolve_left (not_not.mpr cached))

end

theorem nodup_pageIds (i : Nat) : (pageIds node addresses count i).Nodup :=
  nodup_listed.sublist ((take_sublist _ _).trans (drop_sublist _ _))

/-- A page shows its ids when it is kept, and fewer otherwise. -/
theorem page_perm_or_short {cache : TxCache} (answers : Answers node addresses cache)
    (few : addresses.length ≤ 5000) (i : Nat) :
    let ids := pageIds node addresses count i
    let page := (getTransactionHistory node cache addresses (i * count) count).1
    (PageKept node cache ids → page.Perm (ids.map (entryOf node))) ∧
      (¬ PageKept node cache ids → page.length < ids.length) := by
  intro ids page
  have inside : ∀ txid ∈ ids, txid ∈ listed node addresses :=
    fun txid member => mem_of_mem_drop (mem_of_mem_take member)
  rw [pageKept_iff (nodup_pageIds i) answers.bounded]
  have pageEq : page = _ := congrArg Prod.fst (getTransactionHistory_eq few cache i)
  by_cases calls : 5000 < (ids.filter (isUncached cache)).length
  · refine ⟨fun kept => absurd kept.1 (Nat.not_le.mpr calls), fun _ => ?_⟩
    rw [pageEq, if_pos calls]
    exact (Nat.zero_lt_of_lt calls).trans_le (length_filter_le _ _)
  · rw [if_neg calls] at pageEq
    have shown : page.Perm ((ids.filter fun txid => txid ∉ cache.items ∨
        txid ∈ (keptBy node cache ids).items).map (entryOf node)) := by
      rw [pageEq]
      refine (mergeSort_perm _ _).trans (List.Perm.of_eq ?_)
      rw [← filterMap_eq_map, filterMap_filter]
      refine filterMap_congr fun txid member => ?_
      rw [findTx_entry answers member (inside txid member)]
      simp only [decide_eq_true_eq, Function.comp_apply]
      rfl
    constructor
    · rintro ⟨_, all⟩
      rwa [filter_eq_self.mpr fun txid member => decide_eq_true (all txid member)] at shown
    · intro notKept
      rw [shown.length_eq, length_map]
      refine lt_of_le_of_ne (length_filter_le _ _) fun same => notKept ⟨Nat.not_lt.mp calls, ?_⟩
      intro txid member
      exact of_decide_eq_true (length_filter_eq_length_iff.mp same txid member)

theorem Answers.page {cache : TxCache} (answers : Answers node addresses cache)
    (few : addresses.length ≤ 5000) (i : Nat) : Answers node addresses
      (getTransactionHistory node cache addresses (i * count) count).2 := by
  rw [getTransactionHistory_eq few]
  split
  · exact answers
  · exact answers.keptBy _

theorem pages_perm {cache : TxCache} (answers : Answers node addresses cache)
    (few : addresses.length ≤ 5000) {pages i : Nat}
    (kept : PagesKept node addresses count pages i cache) :
    List.Forall₂ (fun page ids => page.Perm (ids.map (entryOf node)))
      (pagesFrom node addresses count pages i cache)
      ((range' i pages).map (pageIds node addresses count)) := by
  induction pages generalizing i cache with
  | zero => exact .nil
  | succ pages ih =>
    exact .cons ((page_perm_or_short answers few i).1 kept.1) (ih (answers.page few i) kept.2)

/-- The pages show no more than their ids, and as many only when they are kept. -/
theorem length_pages {cache : TxCache} (answers : Answers node addresses cache)
    (few : addresses.length ≤ 5000) (pages i : Nat) :
    let shown := (pagesFrom node addresses count pages i cache).flatten.length
    let wanted := ((range' i pages).flatMap (pageIds node addresses count)).length
    shown ≤ wanted ∧ (wanted ≤ shown → PagesKept node addresses count pages i cache) := by
  induction pages generalizing i cache with
  | zero => exact ⟨Nat.le_refl _, fun _ => trivial⟩
  | succ pages ih =>
    have next := @Answers.page node addresses count cache answers few i
    obtain ⟨later, rest⟩ := ih next (i + 1)
    obtain ⟨whole, short⟩ := @page_perm_or_short node addresses count cache answers few i
    rw [pagesFrom, range'_succ, flatMap_cons, length_append]
    dsimp only
    rw [flatten_cons, length_append]
    by_cases kept : PageKept node cache (pageIds node addresses count i)
    · have size := (whole kept).length_eq
      rw [length_map] at size
      exact ⟨by omega, fun equal => ⟨kept, rest (by omega)⟩⟩
    · have size := short kept
      exact ⟨by omega, fun equal => by omega⟩

theorem flatMap_pages (xs : List String) (count pages : Nat) :
    ((range pages).flatMap fun i => (xs.drop (i * count)).take count) =
      xs.take (pages * count) := by
  induction pages with
  | zero => simp
  | succ pages ih =>
    rw [range_succ, flatMap_append, ih, Nat.succ_mul, take_add]
    simp

theorem mem_pageIds (pos : 0 < count) {i : Nat} {txid : String} :
    txid ∈ pageIds node addresses count i ↔
      ∃ n, (listed node addresses)[n]? = some txid ∧ n / count = i := by
  rw [pageIds, mem_iff_getElem?]
  constructor
  · rintro ⟨k, place⟩
    rw [getElem?_take] at place
    split at place
    · next below =>
      rw [getElem?_drop] at place
      refine ⟨i * count + k, place, ?_⟩
      rw [Nat.mul_comm, Nat.mul_add_div pos, Nat.div_eq_of_lt below, Nat.add_zero]
    · cases place
  · rintro ⟨n, place, rfl⟩
    refine ⟨n % count, ?_⟩
    rw [getElem?_take, if_pos (Nat.mod_lt _ pos), getElem?_drop, Nat.div_add_mod' n count]
    exact place

/-- A later page has nothing above an earlier one. -/
def InOrder : List (List TxEntry) → Prop :=
  List.Pairwise fun earlier later => ∀ a ∈ earlier, ∀ b ∈ later, b.blockHeight ≤ a.blockHeight

theorem inOrder_iff {pages : List (List TxEntry)} {lists : List (List String)}
    (same : List.Forall₂ (fun page ids => page.Perm (ids.map (entryOf node))) pages lists) :
    InOrder pages ↔ lists.Pairwise fun earlier later => ∀ x ∈ earlier, ∀ y ∈ later,
      (entryOf node y).blockHeight ≤ (entryOf node x).blockHeight := by
  unfold InOrder
  induction same with
  | nil => simp
  | @cons page ids pages lists first rest ih =>
    rw [pairwise_cons, pairwise_cons, ih]
    refine and_congr ?_ Iff.rfl
    clear ih
    induction rest with
    | nil => simp
    | @cons later laterIds pages lists second rest ih =>
      rw [forall_mem_cons, forall_mem_cons, ih]
      refine and_congr_left fun _ => ?_
      simp only [first.mem_iff, second.mem_iff, forall_mem_map]

theorem pairwise_pageIds_iff (pos : 0 < count) {pages : Nat}
    (whole : (listed node addresses).length ≤ pages * count) (R : String → String → Prop) :
    ((range' 0 pages).map (pageIds node addresses count)).Pairwise
        (fun earlier later => ∀ x ∈ earlier, ∀ y ∈ later, R x y) ↔
      ∀ m n x y, (listed node addresses)[m]? = some x → (listed node addresses)[n]? = some y →
        m / count < n / count → R x y := by
  rw [← range_eq_range', pairwise_map]
  constructor
  · intro ordered m n x y atM atN before
    have inside : n / count < pages := by
      rw [Nat.div_lt_iff_lt_mul pos]
      exact (List.getElem?_eq_some_iff.mp atN).1.trans_le whole
    have related := pairwise_iff_getElem.mp ordered (m / count) (n / count)
      (by rw [length_range]; omega) (by rwa [length_range]) before
    simp only [getElem_range] at related
    exact related x ((mem_pageIds pos).mpr ⟨m, atM, rfl⟩) y ((mem_pageIds pos).mpr ⟨n, atN, rfl⟩)
  · intro ordered
    refine pairwise_lt_range.imp fun {i j} before x inI y inJ => ?_
    obtain ⟨m, atM, rfl⟩ := (mem_pageIds pos).mp inI
    obtain ⟨n, atN, rfl⟩ := (mem_pageIds pos).mp inJ
    exact ordered m n x y atM atN before

theorem perm_flatten {pages : List (List TxEntry)} {lists : List (List String)}
    (same : List.Forall₂ (fun page ids => page.Perm (ids.map (entryOf node))) pages lists) :
    (pages.flatten.map TxEntry.txid).Perm lists.flatten := by
  induction same with
  | nil => exact .nil
  | @cons page ids pages lists first rest ih =>
    have names := first.map TxEntry.txid
    rw [map_map, show TxEntry.txid ∘ entryOf node = id from rfl, map_id] at names
    rw [flatten_cons, flatten_cons, map_append]
    exact names.append ih

theorem pagesFrom_refused (many : 5000 < addresses.length) (pages i : Nat) (cache : TxCache) :
    (pagesFrom node addresses count pages i cache).flatten = [] := by
  induction pages generalizing i with
  | zero => rfl
  | succ pages ih =>
    rw [pagesFrom, getTransactionHistory_refused many]
    exact ih (i + 1)

end

/-- The pages list every transaction of the wallet once, and none on a later page is higher than
one on an earlier page, exactly when the calls of each page fit a batch, the cached
transactions of each page are recent enough to stay, and the ids, in the order the node lists
them, already have the heights so across the page breaks. -/
theorem history_pages_in_order_iff {node : HistoryNode} {addresses : List String} {cache : TxCache}
    (answers : Answers node addresses cache) {count : Nat} (pos : 0 < count) {pages : Nat}
    (whole : (listed node addresses).length ≤ pages * count) :
    ((listed node addresses).Nodup ∧ ∀ txid, txid ∈ listed node addresses ↔
      ∃ address ∈ addresses, txid ∈ (node.getaddresstxids address).getD []) ∧
    (((pagesFrom node addresses count pages 0 cache).flatten.map TxEntry.txid).Perm
        (listed node addresses) ∧ InOrder (pagesFrom node addresses count pages 0 cache) ↔
      (listed node addresses = [] ∨
        addresses.length ≤ 5000 ∧ PagesKept node addresses count pages 0 cache) ∧
      ∀ m n x y, (listed node addresses)[m]? = some x → (listed node addresses)[n]? = some y →
        m / count < n / count → (entryOf node y).blockHeight ≤ (entryOf node x).blockHeight) := by
  refine ⟨⟨nodup_listed, fun _ => mem_listed⟩, ?_⟩
  have wanted : ((range' 0 pages).flatMap (pageIds node addresses count)) =
      listed node addresses := by
    rw [← range_eq_range']
    exact (flatMap_pages _ _ _).trans (take_of_length_le whole)
  by_cases few : addresses.length ≤ 5000
  · have enough := (@length_pages node addresses count cache answers few pages 0).2
    rw [wanted] at enough
    rw [← pairwise_pageIds_iff pos whole fun x y =>
      (entryOf node y).blockHeight ≤ (entryOf node x).blockHeight]
    constructor
    · rintro ⟨perm, ordered⟩
      have size := perm.length_eq
      rw [length_map] at size
      have kept := enough size.ge
      exact ⟨.inr ⟨few, kept⟩, (inOrder_iff (pages_perm answers few kept)).mp ordered⟩
    · rintro ⟨shown, ordered⟩
      have kept : PagesKept node addresses count pages 0 cache := by
        rcases shown with none | ⟨_, kept⟩
        · exact enough (by rw [none]; exact Nat.zero_le _)
        · exact kept
      have same := pages_perm answers few kept
      refine ⟨?_, (inOrder_iff same).mpr ordered⟩
      rw [← wanted]
      exact perm_flatten same
  · have none := @pagesFrom_refused node addresses count (Nat.not_le.mp few) pages 0 cache
    have ordered : InOrder (pagesFrom node addresses count pages 0 cache) := by
      refine pairwise_of_forall_mem_list fun earlier inPages later _ a inEarlier => ?_
      have inside := mem_flatten.mpr ⟨earlier, inPages, inEarlier⟩
      rw [none] at inside
      cases inside
    rw [none, map_nil, nil_perm, and_iff_left ordered]
    constructor
    · intro empty
      exact ⟨.inl empty, fun m n x y atM => by simp [empty] at atM⟩
    · rintro ⟨empty | ⟨fits, _⟩, _⟩
      · exact empty
      · exact absurd fits few

/-- A node that lists an old transaction of the first address before a new one of the
second. -/
def sampleHistory : HistoryNode where
  getaddresstxids address := if address = "a" then some ["old"] else some ["new"]
  getrawtransaction txid := some ⟨if txid = "new" then 9 else 1, 0, if txid = "new" then 1 else 9⟩
  blockCount := 9

/-- The cache of `MAX_CACHE_ENTRIES` at the start. -/
def emptyCache : TxCache := ⟨2000, ∅⟩

theorem history_pages_in_order_iff_sample :
    ((pagesFrom sampleHistory ["b", "a"] 1 2 0 emptyCache).flatten.map TxEntry.txid).Perm
      (listed sampleHistory ["b", "a"]) := by
  have answers : Answers sampleHistory ["b", "a"] emptyCache :=
    ⟨fun _ _ => rfl, fun _ _ found => (nomatch found), Nat.zero_le _⟩
  have kept := (@length_pages _ _ 1 _ answers (by decide) 2 0).2 (by decide +kernel)
  have pages := @history_pages_in_order_iff _ _ _ answers 1 (by decide) 2 (by decide)
  refine (pages.2.mpr ⟨.inr ⟨by decide, kept⟩, ?_⟩).1
  exact (@pairwise_pageIds_iff _ _ 1 (by decide) 2 (by decide) _).mp (by decide +kernel)

theorem later_page_has_greater_height :
    (pagesFrom sampleHistory ["a", "b"] 1 2 0 emptyCache).map (List.map TxEntry.blockHeight) =
      [[1], [9]] := by
  decide +kernel

end Phicoin.Web
