import StellarKraal.Foundation.TransitionSystem
import StellarKraal.Foundation.History
import StellarKraal.Foundation.LastChain
import StellarKraal.Foundation.Averages
import StellarKraal.Foundation.Outcome
import StellarKraal.Foundation.MachineArithmetic
import StellarKraal.Foundation.KeyedStore
import StellarKraal.Foundation.LazyAccrual
import StellarKraal.Foundation.Script
import StellarKraal.Foundation.Reentrancy
import StellarKraal.Foundation.PagedLog
import StellarKraal.Contract.Types
import StellarKraal.Contract.Host
import StellarKraal.Contract.Pricing
import StellarKraal.Contract.Administration
import StellarKraal.Contract.Oracles
import StellarKraal.Contract.Collateral
import StellarKraal.Contract.Lending
import StellarKraal.Contract.LendingEffects
import StellarKraal.Contract.Protocol
import StellarKraal.Contract.ConfigEffects
import StellarKraal.Contract.GovernanceEffects
import StellarKraal.Contract.EventEffects
import StellarKraal.Contract.Unguarded
import StellarKraal.Contract.Frames
import StellarKraal.Oracle.Median
import StellarKraal.Oracle.Submission
import StellarKraal.Oracle.PriceAccess
import StellarKraal.Risk.Parameters
import StellarKraal.Lending.LoanRecords
import StellarKraal.Lending.PoolValue
import StellarKraal.Lending.CollateralRecords
import StellarKraal.Lending.Pledges
import StellarKraal.Risk.HealthFactor
import StellarKraal.Risk.Liquidation
import StellarKraal.Risk.OracleCeiling
import StellarKraal.Risk.Computable
import StellarKraal.Risk.Progress
import StellarKraal.Oracle.PriceFeed
import StellarKraal.Oracle.Window
import StellarKraal.Oracle.Average
import StellarKraal.Oracle.Staleness
import StellarKraal.Lending.References
import StellarKraal.Lending.Locks
import StellarKraal.Lending.AnimalCaps
import StellarKraal.Lending.Reentrancy
import StellarKraal.Lending.Interest
import StellarKraal.Indexer.Database
import StellarKraal.Indexer.EventIndexer
import StellarKraal.Lending.Paused
import StellarKraal.Governance.Upgrades
import StellarKraal.Governance.Authorization
import StellarKraal.Indexer.Mirror
import StellarKraal.Indexer.LoanRows
import StellarKraal.Indexer.Poller
import StellarKraal.Indexer.Replay
import StellarKraal.Indexer.Overlap
import StellarKraal.OracleBridge.Promotion
import StellarKraal.OracleBridge.Standby
import StellarKraal.OracleBridge.Failover
import StellarKraal.Idempotency.Once
import StellarKraal.Idempotency.Isolation
import StellarKraal.Governance.Whitelist
import StellarKraal.Governance.Pausing
import StellarKraal.CarbonOracle.Median
import StellarKraal.Aggregation.Robustness
import StellarKraal.Aggregation.Rounded
import StellarKraal.Aggregation.Agreement
import StellarKraal.Retirement.Reports
import StellarKraal.Retirement.Controller
import StellarKraal.Foundation.Stages
import StellarKraal.Foundation.DecimalText
import StellarKraal.Foundation.Emitter
import StellarKraal.Auth.Challenge
import StellarKraal.Auth.OneLogin
import StellarKraal.Auth.Forgery
import StellarKraal.Auth.Session
import StellarKraal.RateLimit.Store
import StellarKraal.RateLimit.Windows
import StellarKraal.RateLimit.UserWindows
import StellarKraal.RateLimit.PerUser
import StellarKraal.OracleBridge.JsonText
import StellarKraal.OracleBridge.BackupFiles
import StellarKraal.Monitoring.Dispatcher
import StellarKraal.Monitoring.Order
import StellarKraal.Monitoring.Cooldown
import StellarKraal.PriceEvents.Service
import StellarKraal.PriceEvents.Delivery
import StellarKraal.Wallet.Manager
import StellarKraal.Wallet.Consistency
import StellarKraal.Wallet.Disconnection
import StellarKraal.CarbonCredit.Conservation
import StellarKraal.CarbonCredit.Allowances
import StellarKraal.Oracle.EntryPoints
import StellarKraal.Oracle.Repetition
import StellarKraal.Oracle.OnChainMedian
import StellarKraal.Risk.Monotonicity
import StellarKraal.Lending.Waterfall
import StellarKraal.Lending.BorrowingLimit
import StellarKraal.Lending.Schedules
import StellarKraal.Foundation.Streams
import StellarKraal.Foundation.WhileLoop
import StellarKraal.Lending.Availability
import StellarKraal.Lending.LostCollateral
import StellarKraal.Lending.Appraisals
import StellarKraal.Retirement.Batches
import StellarKraal.Aggregation.Accounting
import StellarKraal.Aggregation.Appraisal
import StellarKraal.CarbonOracle.Latest
import StellarKraal.Idempotency.TimeToLive
import StellarKraal.Monitoring.Rules
import StellarKraal.Monitoring.VolumeSpike
import StellarKraal.Monitoring.VolumeWindows
import StellarKraal.Monitoring.Bursts
import StellarKraal.Foundation.TextInput
import StellarKraal.Retirement.Chunking
import StellarKraal.Monitoring.Termination
import StellarKraal.Monitoring.LargeValue
import StellarKraal.Monitoring.OracleDeviation
import StellarKraal.Monitoring.Baselines
import StellarKraal.Monitoring.Deduplicator
import StellarKraal.OracleBridge.Resilience
import StellarKraal.PriceEvents.Dates
import StellarKraal.PriceEvents.Chart
import StellarKraal.Foundation.Journal
import StellarKraal.Contract.Notices
import StellarKraal.Contract.NoticeEffects
import StellarKraal.Lending.EventLog
import StellarKraal.Foundation.FixedDecimals
import StellarKraal.Foundation.FloatingPoint
import StellarKraal.Livestock.Appraisal
import StellarKraal.OracleBridge.ParsedJson
import StellarKraal.Livestock.Metadata
import StellarKraal.Livestock.Registration
import StellarKraal.Livestock.Lifecycle
import StellarKraal.Livestock.Verification
import StellarKraal.Foundation.Components
import StellarKraal.Livestock.LoanRequests
import StellarKraal.Auth.Accounts
import StellarKraal.Auth.Admission
import StellarKraal.Monitoring.Decisions
import StellarKraal.Monitoring.Alerts
import StellarKraal.Monitoring.UnauthorizedEntryPoint
import StellarKraal.Monitoring.Horizon
import StellarKraal.CarbonOracle.Marketplace
import StellarKraal.Auth.Rotation
import StellarKraal.DataTable.Rows
import StellarKraal.DataTable.Browsing
