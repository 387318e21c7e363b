import Phicoin.Lib.WriteBatch
import Phicoin.AssetReaders
import Phicoin.CoinsUndo

/-! # The address and spent indexes

`ConnectBlock` collects, for every input and output of a block, what it writes to the
address index, the address unspent index and the spent index, and `DisconnectBlock` what
it erases or writes back, walking the block from its end.  An input is filed under the
script of the coin it spends: `ConnectBlock` reads that coin in the view before
`UpdateCoins` moves it to the undo record, `DisconnectBlock` after `ApplyTxInUndo` has
put it back.  A block is a list of transactions, each with the coins of its undo
record; that of the coinbase is empty. -/

namespace Phicoin.Indexes

open Check KeyedMap WriteBatch List Option MainNet CoinsView Bool

structure AddressIndexKey where
  type : Nat
  hashBytes : Bytes
  asset : Bytes
  blockHeight : Nat
  txindex : Nat
  txhash : Uint256
  index : Nat
  spending : Bool
deriving DecidableEq

structure AddressUnspentKey where
  type : Nat
  hashBytes : Bytes
  asset : Bytes
  txhash : Uint256
  index : Nat
deriving DecidableEq

structure AddressUnspentValue where
  satoshis : Int
  script : Bytes
  blockHeight : Nat
deriving DecidableEq

def AddressUnspentValue.null : AddressUnspentValue := ⟨-1, [], 0⟩

def AddressUnspentValue.isNull (value : AddressUnspentValue) : Bool := value.satoshis = -1

structure SpentIndexKey where
  txid : Uint256
  outputIndex : Nat
deriving DecidableEq

structure SpentIndexValue where
  txid : Uint256
  inputIndex : Nat
  blockHeight : Nat
  satoshis : Int
  addressType : Nat
  addressHash : Bytes
deriving DecidableEq

def SpentIndexValue.null : SpentIndexValue := ⟨0, 0, 0, 0, 0, List.replicate 20 0⟩

def SpentIndexValue.isNull (value : SpentIndexValue) : Bool := value.txid = 0

structure IndexDB where
  addressIndex : KeyedMap AddressIndexKey Int
  addressUnspentIndex : KeyedMap AddressUnspentKey AddressUnspentValue
  spentIndex : KeyedMap SpentIndexKey SpentIndexValue

def orErase {K V : Type} (isNull : V → Bool) (entry : K × V) : K × Option V :=
  (entry.1, if isNull entry.2 then none else some entry.2)

namespace IndexDB

end IndexDB

structure Filing where
  addressType : Nat
  hashBytes : Bytes
  asset : Bytes
  amount : Int

/-- `IsPayToPublicKey`: the first byte is not looked at. -/
def isPayToPublicKey (script : Bytes) : Bool :=
  if script.length = 35 then
    (byteAt script 1 = 0x02 || byteAt script 1 = 0x03) && byteAt script 34 = opChecksig
  else if script.length = 67 then byteAt script 1 = 0x04 && byteAt script 66 = opChecksig
  else false

def phi : Bytes := ascii "PHI"

def filing (env : Env) (out : TxOut) : Option Filing :=
  let script := out.scriptPubKey
  if isPayToScriptHash script then some ⟨2, (script.drop 2).take 20, phi, out.nValue⟩
  else if isPayToPublicKeyHash script then some ⟨1, (script.drop 3).take 20, phi, out.nValue⟩
  else if isPayToPublicKey script then
    some ⟨1, env.hash160 (script.drop 1).dropLast, phi, out.nValue⟩
  else if env.areAssetsDeployed then
    (parseAssetScript env script).map fun (hashBytes, assetName, assetAmount) =>
      ⟨1, hashBytes, assetName, assetAmount⟩
  else none

structure Place where
  nHeight : Nat
  i : Nat
  hash : Uint256

namespace Filing

def activity (entry : Filing) (place : Place) (index : Nat) (spending : Bool) : AddressIndexKey :=
  ⟨entry.addressType, entry.hashBytes, entry.asset, place.nHeight, place.i, place.hash, index,
    spending⟩

def unspent (entry : Filing) (out : OutPoint) : AddressUnspentKey :=
  ⟨entry.addressType, entry.hashBytes, entry.asset, out.hash, out.n⟩

end Filing

inductive Visit where
  | input (place : Place) (j : Nat) (txin : TxIn) (coin : Coin)
  | output (place : Place) (k : Nat) (out : TxOut)

abbrev Recorded := Transaction × List Coin

def spends (entry : Recorded) : List (TxIn × Coin) := entry.1.vin.zip entry.2

def visitInputs (place : Place) (entry : Recorded) : List Visit :=
  (spends entry).zipIdx.map fun (spend, j) => .input place j spend.1 spend.2

def visitOutputs (place : Place) (entry : Recorded) : List Visit :=
  entry.1.vout.zipIdx.map fun (out, k) => .output place k out

def visitTx (nHeight : Nat) (entry : Recorded × Nat) : List Visit :=
  let place := ⟨nHeight, entry.2, entry.1.1.hash⟩
  visitInputs place entry.1 ++ visitOutputs place entry.1

variable {place : Place}

def unspentEntry (entry : Filing) (script : Bytes) (nHeight : Nat) : Option AddressUnspentValue :=
  (orErase AddressUnspentValue.isNull ((), ⟨entry.amount, script, nHeight⟩)).2

def unspentChange (env : Env) : Visit → Option (Change AddressUnspentKey AddressUnspentValue)
  | .input _ _ txin coin =>
    (filing env coin.out).map fun entry =>
      ⟨entry.unspent txin.prevout, unspentEntry entry coin.out.scriptPubKey coin.nHeight, none⟩
  | .output place k out =>
    (filing env out).map fun entry =>
      ⟨entry.unspent ⟨place.hash, k⟩, none,
        unspentEntry entry out.scriptPubKey place.nHeight⟩

/-- Every record is where it was, and no other. -/
structure SameRecords (left db : IndexDB) : Prop where
  activity : ∀ key, left.addressIndex.lookup key = db.addressIndex.lookup key
  unspent : ∀ key, left.addressUnspentIndex.lookup key = db.addressUnspentIndex.lookup key
  spent : ∀ key, left.spentIndex.lookup key = db.spentIndex.lookup key

/-- No transaction of the block is in the address index, no output it spends is in the spent
index, and its transactions have hashes. -/
structure Fresh (db : IndexDB) (block : List Recorded) : Prop where
  activity : ∀ key : AddressIndexKey, (∃ entry ∈ block, key.txhash = entry.1.hash) →
    db.addressIndex.lookup key = none
  spent : ∀ entry ∈ block, ∀ spend ∈ spends entry,
    db.spentIndex.lookup ⟨spend.1.prevout.hash, spend.1.prevout.n⟩ = none
  named : ∀ entry ∈ block, entry.1.hash ≠ 0

section

variable {env : Env} {nHeight : Nat} {block : List Recorded} {db : IndexDB}

/-- The address unspent index has the entry of every coin, and none of the outputs of the
block. -/
structure Tracks (env : Env) (db : IndexDB) (view : CoinsView) (vtx : List Transaction) : Prop where
  coins : ∀ out coin filed, view.lookup out = some coin → filing env coin.out = some filed →
    db.addressUnspentIndex.lookup (filed.unspent out) =
      unspentEntry filed coin.out.scriptPubKey coin.nHeight
  outputs : ∀ key : AddressUnspentKey, (∃ tx ∈ vtx, key.txhash = tx.hash) →
    db.addressUnspentIndex.lookup key = none

/-- A coin of the view has its entry in the index, or a change of the block made it. -/
def Covered (env : Env) (db : IndexDB) (view : CoinsView)
    (earlier : List (Change AddressUnspentKey AddressUnspentValue)) : Prop :=
  ∀ out coin filed, view.lookup out = some coin → filing env coin.out = some filed →
    Known db.addressUnspentIndex earlier (filed.unspent out)
      (unspentEntry filed coin.out.scriptPubKey coin.nHeight)

def txChanges (env : Env) (nHeight : Nat) (entry : Recorded × Nat) :
    List (Change AddressUnspentKey AddressUnspentValue) :=
  (visitTx nHeight entry).filterMap (unspentChange env)

variable {tx : Transaction} {vprevout : List Coin} {view : CoinsView} {i : Nat}
  {earlier : List (Change AddressUnspentKey AddressUnspentValue)}

theorem Covered.connect (covered : Covered env db view earlier) :
    Covered env db (view.connect nHeight tx)
      (earlier ++ txChanges env nHeight ((tx, vprevout), i)) := by
  intro out coin filed found filedEq
  rw [lookup_connect, or_eq_some_iff] at found
  rcases found with made | ⟨_, old⟩
  · refine .inl ⟨⟨filed.unspent out, none, unspentEntry filed coin.out.scriptPubKey nHeight⟩,
      mem_append_right earlier ?_, rfl⟩
    unfold created at made
    split at made
    · rename_i own
      obtain ⟨output, kept, rfl⟩ := map_eq_some_iff.mp made
      have at_n : tx.vout[out.n]? = some output := (filter_eq_some_iff.mp kept).1
      refine mem_filterMap.mpr ⟨.output ⟨nHeight, i, tx.hash⟩ out.n output,
        mem_append_right _ (mem_map.mpr ⟨(output, out.n), ?_, rfl⟩), ?_⟩
      · exact mem_zipIdx_iff_getElem?.mpr at_n
      · obtain ⟨hash, n⟩ := out
        obtain rfl : hash = tx.hash := own.1
        exact map_eq_some_iff.mpr ⟨filed, filedEq, rfl⟩
    · cases made
  · rw [lookup_spend] at old
    split at old
    · cases old
    · exact (covered out coin filed old filedEq).append _

end

end Phicoin.Indexes
