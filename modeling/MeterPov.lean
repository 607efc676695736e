import MeterPov.Accounts.StackedRuns
import MeterPov.Accounts.Transient
import MeterPov.Auction.Clearing
import MeterPov.Auction.RewardRecord
import MeterPov.Chains.Store
import MeterPov.Chains.Trunk
import MeterPov.Comm.Sync
import MeterPov.Consensus.Agreement
import MeterPov.Consensus.BlockIdentity
import MeterPov.Consensus.Lookup
import MeterPov.Consensus.Pointers
import MeterPov.Consensus.VoteRuns
import MeterPov.Governor.Payouts
import MeterPov.KBlock.Soundness
import MeterPov.Node.LocalReads
import MeterPov.Node.ProcessBlock
import MeterPov.Node.Votes
import MeterPov.Packer.Agreement
import MeterPov.Pruning.Retained
import MeterPov.Replay.Authentic
import MeterPov.Staking.CandidateIndex
import MeterPov.Staking.Emission
import MeterPov.Staking.LifeCycle
import MeterPov.Staking.RatioKept
import MeterPov.Staking.SelfDestruct
import MeterPov.Staking.Violations
import MeterPov.TxPool.TxObjectMap
import MeterPov.Vm.NativeCalls
