import Phicoin.Conservation
import Phicoin.Reissuable
import Phicoin.Burns
import Phicoin.PoolClosure
import Phicoin.ValueConservation
import Phicoin.Activation
import Phicoin.TagRuns
import Phicoin.RestrictionRuns
import Phicoin.SendPlanner
import Phicoin.WebFormat
import Phicoin.WebAssets
import Phicoin.Minable
import Phicoin.AddressIndexes
import Phicoin.CoinRuns
import Phicoin.WebPool
import Phicoin.WebHistory
import Phicoin.WebAssetInfo
import Phicoin.Miner
import Phicoin.ScriptBounds
import Phicoin.Rewards
import Phicoin.TagScan
