import PrismChain.Programs.Allocations
import PrismChain.Programs.AtomicSwap.Settlement
import PrismChain.Programs.BatchTx.Isolation
import PrismChain.Programs.BridgeFinality
import PrismChain.Programs.Dao.Suffrage
import PrismChain.Programs.FlashLoan.Solvency
import PrismChain.Programs.Governance.Tallies
import PrismChain.Programs.Governance.TimeLock
import PrismChain.Programs.Pusd.Accrual
import PrismChain.Programs.Pusd.Principal
import PrismChain.Programs.SocialRecovery.Succession
import PrismChain.Programs.SolLend.Charging
import PrismChain.Programs.SolanaBridge.Directions
import PrismChain.Programs.Staking.Liquid
import PrismChain.Programs.Staking.Locks
import PrismChain.Programs.Vesting.Registry
import PrismChain.Templates.StakingPool.Emission
import PrismChain.Programs.NameService.Ownership
import PrismChain.Programs.SolLend.Fairness
import PrismChain.Programs.SolSwap.Trading
import PrismChain.Programs.Staking.Cranks
import PrismChain.Programs.Scusd.Fees
import PrismChain.Programs.Multisig.Votes
import PrismChain.Programs.Oracle.History
import PrismChain.Programs.Vesting.Quarters
import PrismChain.Programs.Privacy.Merkle
import PrismChain.Programs.Oracle.Spread
import PrismChain.Programs.Governance.Verdict
import PrismChain.Programs.DefiOracle.Median
import PrismChain.Programs.BitcoinBridge.Attestation
