import Zkpow.Lib.ExceptFold
import Zkpow.Lib.Rank
import Zkpow.Lib.RingWindow
import Zkpow.Lib.Limbs
import Zkpow.Lib.ByteCodec
import Zkpow.Lib.Sha256
import Zkpow.Lib.KeyedTable
import Zkpow.Lib.Floating
import Zkpow.Lib.Transactions
import Zkpow.Lib.Bisection
import Zkpow.Lib.MedianWindow
import Zkpow.Lib.HashChain
import Zkpow.Lib.SharedSlot
import Zkpow.Lib.HighWater
import Zkpow.Lib.PrefixTree
import Zkpow.Lib.Runs
import Zkpow.GuestHash
import Zkpow.Types
import Zkpow.U256
import Zkpow.Difficulty
import Zkpow.Retarget
import Zkpow.Work
import Zkpow.State
import Zkpow.Wire
import Zkpow.PublicValues
import Zkpow.Input
import Zkpow.Apply
import Zkpow.Batch
import Zkpow.Progress
import Zkpow.MedianTime
import Zkpow.DifficultyBounds
import Zkpow.Chain
import Zkpow.Guest
import Zkpow.TwoRuns
import Zkpow.Recursion
import Zkpow.TipBinding
import Zkpow.Incremental
import Zkpow.Database
import Zkpow.ChainTable
import Zkpow.Host
import Zkpow.TableReplay
import Zkpow.Config
import Zkpow.Pipeline
import Zkpow.Session
import Zkpow.ProverCache
import Zkpow.AllocationTracker
import Zkpow.CycleTree
import Zkpow.ClaimReport
import Zkpow.Divergence
import Zkpow.Coverage
import Zkpow.Resumption
import Zkpow.SessionSafety
import Zkpow.SessionEnd
import Zkpow.Relay
import Zkpow.RelayHistory
import Zkpow.RelayBoundary
import Zkpow.RelayLog
