import Phicoin.Lib.Runs
import Phicoin.AssetsDump
import Phicoin.BlockEffects

/-! # A node

The state a node keeps from block to block, and what changes it: connecting a
block on the tip, disconnecting the tip, writing the asset cache to the database
and refreshing the bounded cache from it.  Connecting and disconnecting work on a
fresh asset cache and flush it into the global one. -/

namespace Phicoin

/-- The active chain above the block of height `base`, tip first; the coins; the
assets; and the coins spent by every block ever connected. -/
structure Node where
  base : Nat
  chain : List Block
  coins : CoinsView
  assets : AssetState
  blockUndo : KeyedMap Uint256 (List (List Coin))

def Node.initial (base : Nat) (coins : CoinsView) : Node := ⟨base, [], coins, .initial, ∅⟩

inductive NodeStep where
  | connect (block : Block) (mempool : MempoolMaps) (currentTime : Int)
  | disconnect
  | dump
  | refresh (name : Bytes)

namespace Node

variable (env : Env) (rules : BlockRules) (node : Node)

/-- `chainActive.Height()` -/
def height : Nat := node.base + node.chain.length

/-- The undo data of a block, written when it is connected for the first time. -/
def writeUndo (block : Block) (connected : Connected) : Node :=
  if (node.blockUndo.lookup block.hash).isSome then node
  else { node with
    blockUndo := node.blockUndo.insert block.hash connected.vtxundo
    assets := { node.assets with passetsdb := { node.assets.passetsdb with
      blockUndo := if connected.vUndoAssetData = [] then node.assets.passetsdb.blockUndo
        else node.assets.passetsdb.blockUndo.insert block.hash connected.vUndoAssetData } } }

/-- `ConnectTip`; the first block of the network is not connected again. -/
def connectTip (block : Block) (mempool : MempoolMaps) (currentTime : Int) : Check Node := do
  Check.require (block.hash ≠ rules.hashGenesisBlock) "assertion pprev == chainActive.Tip()"
  let connected ← connectBlock env rules node.assets mempool (node.height + 1) block
    currentTime ⟨node.coins, .empty⟩
  let written := node.writeUndo block connected
  return { written with
    chain := block :: node.chain
    coins := connected.view.coins
    assets := written.assets.flush connected.view.assets }

def disconnectTip : Check Node :=
  match node.chain with
  | [] => .error "assertion pindexDelete"
  | block :: below => do
      let vtxundo ← Check.require? (node.blockUndo.lookup block.hash) "no undo data available"
      let vUndoData := (node.assets.passetsdb.blockUndo.lookup block.hash).getD []
      let disconnected ← disconnectBlock env node.assets node.height block vtxundo vUndoData
        ⟨node.coins, .empty⟩
      Check.require disconnected.fClean "DisconnectBlock failed"
      return { node with
        chain := below
        coins := disconnected.view.coins
        assets := node.assets.flush disconnected.view.assets }

def step : NodeStep → Option Node
  | .connect block mempool currentTime =>
    (node.connectTip env rules block mempool currentTime).toOption
  | .disconnect => (node.disconnectTip env).toOption
  | .dump => some { node with assets := node.assets.dumpCacheToDatabase env }
  | .refresh name => some { node with assets := node.assets.refreshAsset name }

end Node

end Phicoin
