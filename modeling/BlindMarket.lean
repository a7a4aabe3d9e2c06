import BlindMarket.Support.Checked
import BlindMarket.Support.Runs
import BlindMarket.Support.Async
import BlindMarket.Support.Ledger
import BlindMarket.Escrow.Types
import BlindMarket.Escrow.Code
import BlindMarket.Escrow.Registry
import BlindMarket.Escrow.Reputation
import BlindMarket.Escrow.System
import BlindMarket.Escrow.Rows
import BlindMarket.Escrow.Effects
import BlindMarket.Escrow.Steps
import BlindMarket.Escrow.Clock
import BlindMarket.Escrow.Script
import BlindMarket.Escrow.Lifecycle
import BlindMarket.Escrow.Pauses
import BlindMarket.Escrow.OpenPhases
import BlindMarket.Escrow.Solvency
import BlindMarket.Escrow.Refunds
import BlindMarket.Escrow.OpenSettlement
import BlindMarket.Escrow.Transactions
import BlindMarket.Escrow.Appeals
import BlindMarket.Escrow.Batches
import BlindMarket.Escrow.Ratings
import BlindMarket.Escrow.Exits
import BlindMarket.Escrow.Listings
import BlindMarket.ValidatorPool.Code
import BlindMarket.ValidatorPool.System
import BlindMarket.ValidatorPool.Script
import BlindMarket.ValidatorPool.Finalize
import BlindMarket.ValidatorPool.Panels
import BlindMarket.ValidatorPool.Stakes
import BlindMarket.ValidatorPool.Locks
import BlindMarket.AgentDelegate.Code
import BlindMarket.AgentDelegate.System
import BlindMarket.AgentDelegate.Replay
import BlindMarket.WorkerPayout.Code
import BlindMarket.WorkerPayout.System
import BlindMarket.WorkerPayout.AtMostOnce
import BlindMarket.WorkerPayout.Markers
import BlindMarket.A2AStore.Code
import BlindMarket.A2AStore.Indexes
import BlindMarket.A2AStore.System
import BlindMarket.A2AStore.Transitions
import BlindMarket.A2AStore.WrappedKeys
import BlindMarket.ArcEvents.Code
import BlindMarket.ArcEvents.System
import BlindMarket.ArcEvents.Scans
import BlindMarket.ArcEvents.Checkpoints
import BlindMarket.Support.Knowledge
import BlindMarket.DeployPayments.Code
import BlindMarket.DeployPayments.System
import BlindMarket.DeployPayments.Holds
import BlindMarket.DeployPayments.AtMostOneAgent
import BlindMarket.DeployPayments.Scans
import BlindMarket.DeployPayments.Credits
import BlindMarket.DeployPayments.NoneDropped
import BlindMarket.DeployPayments.CreditsKept
import BlindMarket.McpSpends.FundedOnce
import BlindMarket.McpSpends.FeePaidOnce
import BlindMarket.Escrow.OpenRecords
import BlindMarket.OpenSubmissions.Events
import BlindMarket.OpenSubmissions.Judge
import BlindMarket.OpenSubmissions.Routes
import BlindMarket.OpenSubmissions.System
import BlindMarket.OpenSubmissions.Effects
import BlindMarket.OpenSubmissions.Grounds
import BlindMarket.OpenSubmissions.Programs
import BlindMarket.OpenSubmissions.Truth
import BlindMarket.OpenSubmissions.Kept
import BlindMarket.OpenSubmissions.Judged
import BlindMarket.OpenSubmissions.DueList
import BlindMarket.CctpTransfers.Transfers
import BlindMarket.HashClaims.FreedBatches
import BlindMarket.EarnedShares.Shares
import BlindMarket.Cascades.InTurn
import BlindMarket.ValidatorPool.Counts
import BlindMarket.TaskRegistry.Pages
import BlindMarket.Inft.Metadata
import BlindMarket.Paymaster.Charges
import BlindMarket.BulkCsv.Agree
import BlindMarket.RateLimit.Budget
import BlindMarket.UploadTurns.Deadline
import BlindMarket.SafeRegex.Scan
import BlindMarket.SafeRegex.Nested
import BlindMarket.Notifications.Reads
import BlindMarket.Sandboxes.Metered
import BlindMarket.AgentSkills.Edits
import BlindMarket.Waitlist.Line
import BlindMarket.Waitlist.Tokens
import BlindMarket.SealedBlobs.Briefs
import BlindMarket.AgentRunner.Untracked
import BlindMarket.AgentRunner.Stopped
