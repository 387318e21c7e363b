import Phicoin.CoinEffects

/-! # Taking a block back from the coins

`UpdateCoins` and the loop of `DisconnectBlock` where no asset cache is passed: only
the coins are touched.  Each transaction leaves a view that the transaction taken back
turns into the view before it, whatever the order of the coins in the view, so the
block is undone from its last transaction to its first. -/

namespace Phicoin.CoinsView

open Check KeyedMap List

/-- `AddCoin`; a coin that is still there is replaced only when that is allowed. -/
def storeCoin (view : CoinsView) (out : OutPoint) (coin : Coin) (possibleOverwrite : Bool) :
    Check CoinsView :=
  if isUnspendable coin.out.scriptPubKey then .ok view
  else do
    require (possibleOverwrite || (view.lookup out).isNone)
      "Adding new coin that replaces non-pruned entry"
    return view.insert out coin

/-- `AddCoins` for the outputs from index `n` on. -/
def addCoins (tx : Transaction) (nHeight : Nat) : List TxOut → Nat → CoinsView → Check CoinsView
  | [], _, view => .ok view
  | out :: rest, n, view => do
      let stored ← view.storeCoin ⟨tx.hash, n⟩ ⟨out, tx.isCoinBase, nHeight⟩ tx.isCoinBase
      addCoins tx nHeight rest (n + 1) stored

/-- The coins of the inputs, spent one after the other; every spend is asserted. -/
def spendCoins : List TxIn → CoinsView → Check (CoinsView × List Coin)
  | [], view => .ok (view, [])
  | input :: rest, view => do
      let coin ← require? (view.lookup input.prevout) "assertion is_spent"
      let (final, coins) ← spendCoins rest (view.erase input.prevout)
      return (final, coin :: coins)

def spendTransaction (tx : Transaction) (view : CoinsView) : Check (CoinsView × List Coin) :=
  if tx.isCoinBase then .ok (view, []) else spendCoins tx.vin view

/-- `UpdateCoins`: the view and the coins that were spent. -/
def updateCoins (tx : Transaction) (nHeight : Nat) (view : CoinsView) :
    Check (CoinsView × List Coin) := do
  let (spent, vprevout) ← view.spendTransaction tx
  return (← spent.addCoins tx nHeight tx.vout 0, vprevout)

structure Reverting where
  coins : CoinsView
  fClean : Bool

def revertOutput (tx : Transaction) (nHeight : Nat) (acc : Reverting) (n : Nat) (out : TxOut) :
    Reverting :=
  if isUnspendable out.scriptPubKey then acc
  else match acc.coins.lookup ⟨tx.hash, n⟩ with
    | none => { acc with fClean := false }
    | some coin => ⟨acc.coins.erase ⟨tx.hash, n⟩, acc.fClean && decide (out = coin.out) &&
        decide (nHeight = coin.nHeight) && (tx.isCoinBase == coin.fCoinBase)⟩

def revertOutputs (tx : Transaction) (nHeight : Nat) : List TxOut → Nat → Reverting → Reverting
  | [], _, acc => acc
  | out :: rest, n, acc =>
    revertOutputs tx nHeight rest (n + 1) (revertOutput tx nHeight acc n out)

/-- `ApplyTxInUndo` -/
def applyUndo (acc : Reverting) (entry : TxIn × Coin) : Check Reverting := do
  let fClean := (acc.coins.lookup entry.1.prevout).isNone
  let restored ← restoredCoin acc.coins entry.2 entry.1.prevout
  let coins ← acc.coins.storeCoin entry.1.prevout restored (!fClean)
  return ⟨coins, acc.fClean && fClean⟩

def revertTx (nHeight : Nat) (acc : Reverting) (entry : Transaction × Option (List Coin)) :
    Check Reverting :=
  let spent := revertOutputs entry.1 nHeight entry.1.vout 0 acc
  match entry.2 with
  | none => .ok spent
  | some vprevout => do
      require (vprevout.length = entry.1.vin.length) "transaction and undo data inconsistent"
      (entry.1.vin.zip vprevout).reverse.foldlM applyUndo spent

/-- `DisconnectBlock`: the records are those of all transactions but the first. -/
def revertBlock (nHeight : Nat) (vtx : List Transaction) (vtxundo : List (List Coin))
    (view : CoinsView) : Check Reverting := do
  require (vtxundo.length + 1 = vtx.length) "block and undo data inconsistent"
  (vtx.zip (none :: vtxundo.map some)).reverse.foldlM (revertTx nHeight) ⟨view, true⟩

/-- The coins that the code keeps: spendable, and with the height of their block. -/
def Kept (view : CoinsView) : Prop :=
  view.All fun coin => isUnspendable coin.out.scriptPubKey = false ∧ coin.nHeight ≠ 0

def Same (left right : CoinsView) : Prop := ∀ out, left.lookup out = right.lookup out

def Unknown (view : CoinsView) (tx : Transaction) : Prop :=
  ∀ out : OutPoint, out.hash = tx.hash → view.lookup out = none

section

variable {tx : Transaction} {nHeight : Nat}
  {view next : CoinsView}

theorem storeCoin_ok {out : OutPoint} {coin : Coin} {overwrite : Bool}
    (stored : view.storeCoin out coin overwrite = .ok next) : next = view.addCoin out coin := by
  unfold storeCoin at stored
  unfold addCoin
  split at stored
  · rename_i dropped
    rw [if_pos dropped]
    exact (Except.ok.inj stored).symm
  · rename_i kept
    obtain ⟨_, _, stored⟩ := bind_eq_ok.mp stored
    rw [if_neg kept]
    exact (pure_eq_ok.mp stored).symm

variable {final : CoinsView}

theorem addCoins_ok {outs : List TxOut} {n : Nat}
    (added : addCoins tx nHeight outs n view = .ok final) :
    final = view.addOutputs tx nHeight outs n := by
  induction outs generalizing n view with
  | nil => exact (Except.ok.inj added).symm
  | cons out rest ih =>
    obtain ⟨stored, first, others⟩ := bind_eq_ok.mp added
    rw [addOutputs, ← storeCoin_ok first]
    exact ih others

theorem spendCoins_ok {inputs : List TxIn} {spent : List Coin}
    (spends : spendCoins inputs view = .ok (final, spent)) :
    final = without view (inputs.map TxIn.prevout) ∧ (inputs.map TxIn.prevout).Nodup ∧
      inputs.map (fun input => view.lookup input.prevout) = spent.map some := by
  induction inputs generalizing view spent with
  | nil =>
    cases spends
    exact ⟨rfl, nodup_nil, rfl⟩
  | cons input rest ih =>
    obtain ⟨coin, found, ⟨final', later⟩, tail, spends⟩ := ok_bind₂ spends
    cases pure_eq_ok.mp spends
    rw [require?_eq_ok] at found
    obtain ⟨gone, distinct, taken⟩ := ih tail
    obtain ⟨fresh, before⟩ := lookup_taken taken
    refine ⟨gone, nodup_cons.mpr ⟨fresh, distinct⟩, ?_⟩
    rw [map_cons, map_cons, found, before]

variable {vprevout : List Coin}

theorem updateCoins_ok (updated : view.updateCoins tx nHeight = .ok (next, vprevout)) :
    next = view.connect nHeight tx ∧ Spends view tx vprevout := by
  unfold updateCoins at updated
  obtain ⟨⟨spent, coins⟩, spends, updated⟩ := bind_eq_ok.mp updated
  obtain ⟨added, adds, updated⟩ := bind_eq_ok.mp updated
  cases pure_eq_ok.mp updated
  rw [addCoins_ok adds, connect]
  unfold CoinsView.spend
  unfold spendTransaction at spends
  split at spends
  · rename_i isCoinbase
    cases spends
    exact ⟨by rw [if_pos isCoinbase], fun _ => rfl, by simp [isCoinbase], by simp [isCoinbase]⟩
  · rename_i notCoinbase
    obtain ⟨gone, distinct, taken⟩ := spendCoins_ok spends
    rw [if_neg notCoinbase, gone]
    exact ⟨rfl, fun isCoinbase => absurd isCoinbase notCoinbase, fun _ => distinct, fun _ => taken⟩

theorem revertOutputs_same {outs : List TxOut} {n : Nat} {acc : Reverting} {base : CoinsView}
    (unknown : base.Unknown tx) (left : ∀ out, acc.coins.lookup out =
      (created tx nHeight outs n out).or (base.lookup out)) (clean : acc.fClean = true) :
    (revertOutputs tx nHeight outs n acc).fClean = true ∧
      Same (revertOutputs tx nHeight outs n acc).coins base := by
  induction outs generalizing n acc with
  | nil => exact ⟨clean, fun out => by simpa [created, revertOutputs] using left out⟩
  | cons first rest ih =>
    rw [revertOutputs]
    unfold revertOutput
    by_cases dropped : isUnspendable first.scriptPubKey = true
    · rw [if_pos dropped]
      refine ih (fun out => ?_) clean
      rw [left out, created_cons, if_pos dropped]
      split
      · rename_i here
        rw [here, created_before]
      · rfl
    · rw [if_neg dropped]
      have found := left ⟨tx.hash, n⟩
      rw [created_cons, if_pos rfl, if_neg dropped, Option.some_or] at found
      rw [found]
      refine ih (fun out => ?_) (by simp [clean])
      rw [lookup_erase_ite]
      split
      · rename_i here
        rw [here, created_before, unknown _ rfl, Option.or_none]
      · rename_i elsewhere
        rw [left out, created_cons, if_neg elsewhere]

theorem applyUndo_same {entries : List (TxIn × Coin)} {acc : Reverting} {view : CoinsView}
    (kept : view.Kept) (distinct : (entries.map fun entry => entry.1.prevout).Nodup)
    (taken : ∀ entry ∈ entries, view.lookup entry.1.prevout = some entry.2)
    (left : ∀ out, acc.coins.lookup out =
      if out ∈ entries.map (fun entry => entry.1.prevout) then none else view.lookup out)
    (clean : acc.fClean = true) :
    ∃ final, entries.foldlM applyUndo acc = .ok final ∧ final.fClean = true ∧
      Same final.coins view := by
  induction entries generalizing acc with
  | nil => exact ⟨acc, rfl, clean, fun out => by simpa using left out⟩
  | cons entry rest ih =>
    rw [map_cons, nodup_cons] at distinct
    rw [forall_mem_cons] at taken
    obtain ⟨spendable, dated⟩ := kept _ _ taken.1
    have absent : acc.coins.lookup entry.1.prevout = none := by
      rw [left, if_pos (by simp)]
    have step : applyUndo acc entry =
        .ok ⟨acc.coins.insert entry.1.prevout entry.2, true⟩ := by
      have restored : restoredCoin acc.coins entry.2 entry.1.prevout = .ok entry.2 := by
        unfold restoredCoin
        rw [if_neg dated]
      have stored : acc.coins.storeCoin entry.1.prevout entry.2 false =
          .ok (acc.coins.insert entry.1.prevout entry.2) := by
        unfold storeCoin
        rw [if_neg (by simp [spendable]), absent]
        rfl
      unfold applyUndo
      rw [absent, restored, clean]
      exact bind_eq_ok.mpr ⟨_, rfl, bind_eq_ok.mpr ⟨_, stored, rfl⟩⟩
    have others : ∀ out, (acc.coins.insert entry.1.prevout entry.2).lookup out =
        if out ∈ rest.map (fun entry => entry.1.prevout) then none else view.lookup out := by
      intro out
      rw [lookup_insert_ite, left out, map_cons]
      by_cases here : out = entry.1.prevout
      · subst here
        rw [if_pos rfl, if_neg distinct.1, taken.1]
      · rw [if_neg here]
        by_cases later : out ∈ rest.map fun entry => entry.1.prevout
        · rw [if_pos (mem_cons_of_mem _ later), if_pos later]
        · rw [if_neg (not_mem_cons_of_ne_of_not_mem here later), if_neg later]
    obtain ⟨final, passes, finalClean, same⟩ := @ih
      ⟨acc.coins.insert entry.1.prevout entry.2, true⟩ distinct.2 taken.2 others rfl
    exact ⟨final, foldlM_cons_eq_ok.mpr ⟨_, step, passes⟩, finalClean, same⟩

theorem taken_of_mem_zip {inputs : List TxIn}
    (taken : inputs.map (fun input => view.lookup input.prevout) = vprevout.map some)
    {entry : TxIn × Coin} (member : entry ∈ inputs.zip vprevout) :
    view.lookup entry.1.prevout = some entry.2 := by
  obtain ⟨index, bound, rfl⟩ := mem_iff_getElem.mp member
  rw [length_zip] at bound
  have each := congrArg (fun found => found[index]?) taken
  simp only [getElem?_map] at each
  rw [getElem?_eq_getElem (by omega), getElem?_eq_getElem (by omega)] at each
  rw [getElem_zip]
  exact Option.some.inj each

/-- What a transaction leaves to take it back; the coinbase leaves nothing. -/
def undoRecord (tx : Transaction) (vprevout : List Coin) : Option (List Coin) :=
  if tx.isCoinBase then none else some vprevout

theorem revertTx_same {found : CoinsView} (kept : view.Kept) (unknown : view.Unknown tx)
    (spends : Spends view tx vprevout) (same : Same found (view.connect nHeight tx)) :
    ∃ final, revertTx nHeight ⟨found, true⟩ (tx, undoRecord tx vprevout) = .ok final ∧
      final.fClean = true ∧ Same final.coins view := by
  have noOutput : (view.spend tx).Unknown tx := by
    intro out own
    rw [lookup_spend]
    split
    · rfl
    · exact unknown out own
  obtain ⟨clean, outputsGone⟩ := @revertOutputs_same tx nHeight tx.vout 0 ⟨found, true⟩ _ noOutput
    (fun out => (same out).trans (lookup_connect view tx out)) rfl
  unfold revertTx undoRecord
  by_cases isCoinbase : tx.isCoinBase = true
  · rw [if_pos isCoinbase]
    refine ⟨_, rfl, clean, fun out => ?_⟩
    rw [outputsGone, lookup_spend, if_neg (by simp [isCoinbase])]
  · have notCoinbase : tx.isCoinBase = false := by simpa using isCoinbase
    have taken := spends.taken notCoinbase
    have sizes : tx.vin.length = vprevout.length := by
      simpa using congrArg List.length taken
    have outs : (tx.vin.zip vprevout).map (fun entry => entry.1.prevout) =
        tx.vin.map TxIn.prevout := by
      rw [← @List.map_fst_zip _ _ tx.vin vprevout (by omega), map_map]
      rw [map_fst_zip (by omega)]
      rfl
    rw [if_neg isCoinbase]
    obtain ⟨final, passes, finalClean, finalSame⟩ := @applyUndo_same
      (tx.vin.zip vprevout).reverse _ view kept
      (by rw [map_reverse, outs, nodup_reverse]; exact spends.distinct notCoinbase)
      (fun entry member => taken_of_mem_zip taken (mem_reverse.mp member))
      (fun out => by
        rw [outputsGone, lookup_spend, map_reverse, outs]
        simp [notCoinbase]) clean
    refine ⟨final, bind_eq_ok.mpr ⟨(), ?_, passes⟩, finalClean, finalSame⟩
    rw [require_eq_ok, decide_eq_true_eq, sizes]

theorem Kept.connect (kept : view.Kept) (height : nHeight ≠ 0) :
    (view.connect nHeight tx).Kept := by
  intro out coin found
  rw [lookup_connect, Option.or_eq_some_iff] at found
  rcases found with isNew | ⟨_, old⟩
  · unfold created at isNew
    split at isNew
    · obtain ⟨output, spendable, rfl⟩ := Option.map_eq_some_iff.mp isNew
      exact ⟨by simpa using (Option.filter_eq_some_iff.mp spendable).2, height⟩
    · cases isNew
  · rw [lookup_spend] at old
    split at old
    · cases old
    · exact kept out coin old

theorem Unknown.connect {other : Transaction} (unknown : view.Unknown other)
    (distinct : other.hash ≠ tx.hash) : (view.connect nHeight tx).Unknown other := by
  intro out own
  rw [lookup_connect, lookup_spend, unknown out own]
  unfold created
  rw [if_neg (by rw [own]; exact fun both => distinct both.1)]
  simp

/-- The transactions left these coins, each those it found when its turn came. -/
def Records (nHeight : Nat) : List Transaction → CoinsView → List (List Coin) → Prop
  | [], _, undo => undo = []
  | tx :: rest, view, undo => ∃ vprevout later, undo = vprevout :: later ∧
      Spends view tx vprevout ∧ Records nHeight rest (view.connect nHeight tx) later

/-- The ids of the transactions are new to the coins, and different. -/
structure NewIds (vtx : List Transaction) (view : CoinsView) : Prop where
  distinct : (vtx.map Transaction.hash).Nodup
  unknown : ∀ tx ∈ vtx, view.Unknown tx

variable {vtx : List Transaction} {undo : List (List Coin)}

theorem newIds_of_keys (distinct : (vtx.map Transaction.hash).Nodup)
    (unknown : ∀ out ∈ view.keys, out.hash ∉ vtx.map Transaction.hash) : NewIds vtx view := by
  refine ⟨distinct, fun tx member out own => AList.lookup_eq_none.mpr fun present => ?_⟩
  exact unknown out (AList.mem_keys.mp present) (own ▸ mem_map_of_mem member)

theorem kept_of_entries (entries : ∀ entry ∈ view.entries,
    isUnspendable entry.2.out.scriptPubKey = false ∧ entry.2.nHeight ≠ 0) : view.Kept :=
  fun out coin found => entries ⟨out, coin⟩ (AList.mem_lookup_iff.mp found)

theorem Records.length (records : Records nHeight vtx view undo) : undo.length = vtx.length := by
  induction vtx generalizing view undo with
  | nil =>
    obtain rfl : undo = [] := records
    rfl
  | cons tx rest ih =>
    obtain ⟨vprevout, later, rfl, _, others⟩ := records
    rw [length_cons, length_cons, ih others]

theorem revertAll_same {found : CoinsView} (height : nHeight ≠ 0) (kept : view.Kept)
    (newIds : NewIds vtx view) (records : Records nHeight vtx view undo)
    (same : Same found (vtx.foldl (connect nHeight) view)) :
    ∃ reverted, (vtx.zip (zipWith undoRecord vtx undo)).reverse.foldlM (revertTx nHeight)
        ⟨found, true⟩ = .ok reverted ∧ reverted.fClean = true ∧ Same reverted.coins view := by
  induction vtx generalizing view undo with
  | nil => exact ⟨_, rfl, rfl, same⟩
  | cons tx rest ih =>
    obtain ⟨distinct, unknown⟩ := newIds
    obtain ⟨vprevout, later, rfl, spends, others⟩ := records
    rw [map_cons, nodup_cons] at distinct
    have restUnknown : ∀ other ∈ rest, (view.connect nHeight tx).Unknown other := by
      intro other member
      refine (unknown other (mem_cons_of_mem tx member)).connect fun sameId => ?_
      exact distinct.1 (sameId ▸ mem_map_of_mem member)
    obtain ⟨middle, passes, clean, middleSame⟩ := ih (kept.connect height)
      ⟨distinct.2, restUnknown⟩ others same
    obtain ⟨coins, fClean⟩ := middle
    obtain rfl : fClean = true := clean
    obtain ⟨reverted, step, revertedClean, revertedSame⟩ := revertTx_same kept
      (unknown tx mem_cons_self) spends middleSame
    refine ⟨reverted, ?_, revertedClean, revertedSame⟩
    rw [zipWith_cons_cons, zip_cons_cons, reverse_cons]
    exact foldlM_append_eq_ok.mpr ⟨_, passes, foldlM_cons_eq_ok.mpr ⟨_, step, rfl⟩⟩

theorem zipWith_undoRecord
    (others : ∀ tx ∈ vtx, tx.isCoinBase = false) (count : undo.length = vtx.length) :
    zipWith undoRecord vtx undo = undo.map some := by
  induction vtx generalizing undo with
  | nil =>
    obtain rfl := length_eq_zero_iff.mp count
    rfl
  | cons tx rest ih =>
    obtain ⟨vprevout, later, rfl⟩ := exists_cons_of_length_eq_add_one count
    rw [forall_mem_cons] at others
    rw [zipWith_cons_cons, map_cons, undoRecord, others.1,
      ih others.2 (by simpa using count)]
    rfl

/-- A block taken back from any view with the coins it left. -/
theorem revertBlock_same {coinbase : Transaction} {rest : List Transaction} {found : CoinsView}
    (height : nHeight ≠ 0) (kept : view.Kept) (first : coinbase.isCoinBase = true)
    (others : ∀ tx ∈ rest, tx.isCoinBase = false) (newIds : NewIds (coinbase :: rest) view)
    (records : Records nHeight (coinbase :: rest) view undo)
    (same : Same found ((coinbase :: rest).foldl (connect nHeight) view)) :
    ∃ reverted, revertBlock nHeight (coinbase :: rest) undo.tail found = .ok reverted ∧
      reverted.fClean = true ∧ Same reverted.coins view := by
  obtain ⟨reverted, passes, clean, back⟩ := revertAll_same height kept newIds records same
  have count := records.length
  obtain ⟨vprevout, later, rfl⟩ := exists_cons_of_length_eq_add_one count
  have size : later.length = rest.length := Nat.succ.inj count
  rw [zipWith_cons_cons, undoRecord, if_pos first, zipWith_undoRecord others size] at passes
  refine ⟨reverted, bind_eq_ok.mpr ⟨(), ?_, passes⟩, clean, back⟩
  rw [require_eq_ok, decide_eq_true_eq]
  exact congrArg (· + 1) size

end

section

variable {env : Env} {global : AssetState} {nHeight : Nat} {tx : Transaction}
  {acc : Disconnecting} {rev : Reverting}

/-- The same coins, and nothing unclean about them where nothing is unclean at all. -/
structure Follows (acc : Disconnecting) (rev : Reverting) : Prop where
  coins : rev.coins = acc.coins
  clean : acc.fClean = true → rev.fClean = true

theorem Follows.spendOutput (follows : Follows acc rev) (n : Nat) (out : TxOut) :
    Follows (spendOutput env global nHeight tx acc n out) (revertOutput tx nHeight rev n out) := by
  obtain ⟨coins, clean⟩ := follows
  unfold Phicoin.spendOutput revertOutput
  split
  · exact ⟨coins, clean⟩
  · rw [coins]
    cases found : acc.coins.lookup ⟨tx.hash, n⟩ with
    | none =>
      simp only [BlockView.spendCoin, found]
      exact ⟨rfl, by simp⟩
    | some coin =>
      generalize spends : (⟨acc.coins, acc.tempCache⟩ : BlockView).spendCoin env global
        ⟨tx.hash, n⟩ = result
      obtain ⟨spent, given, isSpent⟩ := result
      have erased : given = some coin ∧ spent.coins = acc.coins.erase ⟨tx.hash, n⟩ := by
        simp only [BlockView.spendCoin, found] at spends
        split at spends
        · split at spends <;> cases spends <;> exact ⟨rfl, rfl⟩
        · cases spends
          exact ⟨rfl, rfl⟩
      obtain ⟨rfl, erased⟩ := erased
      refine ⟨erased.symm, fun matched => ?_⟩
      simp only [Bool.and_eq_true, decide_eq_true_eq] at matched
      obtain ⟨before, ⟨⟨⟨_, value⟩, script⟩, height⟩, isCoinbase⟩ := matched
      have same : out = coin.out := by
        obtain ⟨⟨nValue, scriptPubKey⟩, fCoinBase, nHeight⟩ := coin
        rw [show nValue = out.nValue from value,
          show scriptPubKey = out.scriptPubKey from script]
      simp [clean before, same, height, isCoinbase]

theorem Follows.spendOutputs (follows : Follows acc rev) (outs : List TxOut) (n : Nat) :
    Follows (spendOutputs env global nHeight tx outs n acc)
      (revertOutputs tx nHeight outs n rev) := by
  induction outs generalizing n acc rev with
  | nil => exact follows
  | cons out rest ih => exact ih (follows.spendOutput n out) (n + 1)

theorem storeCoin_eq {view : CoinsView} {out : OutPoint} {coin : Coin} {overwrite : Bool}
    (may : (overwrite || (view.lookup out).isNone) = true) :
    view.storeCoin out coin overwrite = .ok (view.addCoin out coin) := by
  unfold storeCoin addCoin
  split
  · rfl
  · exact bind_eq_ok.mpr ⟨(), require_eq_ok.mpr may, rfl⟩

theorem Follows.applyTxInUndo (follows : Follows acc rev) {entry : TxIn × Coin}
    {next : Disconnecting}
    (applied : applyTxInUndo env global acc entry.2 entry.1.prevout = .ok next) :
    ∃ next', applyUndo rev entry = .ok next' ∧ Follows next next' := by
  obtain ⟨coins, clean⟩ := follows
  unfold Phicoin.applyTxInUndo at applied
  obtain ⟨restored, given, applied⟩ := bind_eq_ok.mp applied
  have stored := @storeCoin_eq acc.coins entry.1.prevout restored
    (!(acc.coins.lookup entry.1.prevout).isNone) (Bool.not_or_self _)
  refine ⟨⟨acc.coins.addCoin entry.1.prevout restored,
    rev.fClean && (acc.coins.lookup entry.1.prevout).isNone⟩, ?_, ?_⟩
  · unfold applyUndo
    rw [coins]
    exact bind_eq_ok.mpr ⟨restored, given, bind_eq_ok.mpr ⟨_, stored, rfl⟩⟩
  · have both : (acc.fClean && (acc.coins.lookup entry.1.prevout).isNone) = true →
        (rev.fClean && (acc.coins.lookup entry.1.prevout).isNone) = true := by
      rw [Bool.and_eq_true, Bool.and_eq_true]
      exact And.imp_left clean
    rw [← pure_eq_ok.mp applied]
    split
    · split
      · exact ⟨rfl, both⟩
      · exact ⟨rfl, nofun⟩
    · exact ⟨rfl, both⟩

theorem Follows.disconnectTx (follows : Follows acc rev) {vUndoData : List (Bytes × BlockAssetUndo)}
    {entry : Transaction × Option (List Coin)} {next : Disconnecting}
    (disconnects : disconnectTx env global nHeight vUndoData acc entry = .ok next) :
    ∃ next', revertTx nHeight rev entry = .ok next' ∧ Follows next next' := by
  unfold Phicoin.disconnectTx at disconnects
  obtain ⟨assets, _, disconnects⟩ := bind_eq_ok.mp disconnects
  obtain ⟨coins, clean⟩ := @Follows.spendOutputs env global nHeight entry.1 acc rev follows
    entry.1.vout 0
  unfold revertTx
  cases given : entry.2 with
  | none =>
    rw [given] at disconnects
    rw [← pure_eq_ok.mp disconnects]
    exact ⟨_, rfl, coins, clean⟩
  | some vprevout =>
    rw [given] at disconnects
    unfold restoreInputs at disconnects
    obtain ⟨_, sizes, disconnects⟩ := bind_eq_ok.mp disconnects
    obtain ⟨next', passes, followed⟩ := foldlM_simulates Follows disconnects ⟨coins, clean⟩
      fun _ _ _ _ _ applied related => related.applyTxInUndo applied
    exact ⟨next', bind_eq_ok.mpr ⟨(), sizes, passes⟩, followed⟩

/-- `DisconnectBlock` with an asset cache leaves the coins that it leaves without one, and
is not clean where that is not. -/
theorem revertBlock_of_disconnectBlock {block : Block} {vtxundo : List (List Coin)}
    {vUndoData : List (Bytes × BlockAssetUndo)} {view : BlockView} {disconnected : Disconnected}
    (disconnects : disconnectBlock env global nHeight block vtxundo vUndoData view =
      .ok disconnected) :
    ∃ reverted, revertBlock nHeight block.vtx vtxundo view.coins = .ok reverted ∧
      reverted.coins = disconnected.view.coins ∧
      (disconnected.fClean = true → reverted.fClean = true) := by
  unfold disconnectBlock at disconnects
  obtain ⟨_, sizes, final, looped, disconnects⟩ := ok_bind₂ disconnects
  rw [← pure_eq_ok.mp disconnects]
  obtain ⟨reverted, passes, coins, clean⟩ := @foldlM_simulates _ _ _ _ _ _ _ _
    ⟨view.coins, true⟩ Follows looped ⟨rfl, id⟩
    fun _ _ _ _ _ disconnects related => related.disconnectTx disconnects
  exact ⟨reverted, bind_eq_ok.mpr ⟨(), sizes, passes⟩, coins, clean⟩

end

end Phicoin.CoinsView
