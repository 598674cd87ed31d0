import AlpacaTrading.Lib.Table
import AlpacaTrading.Lib.Text
import AlpacaTrading.Lib.Run
import AlpacaTrading.Lib.Json
import AlpacaTrading.Lib.Ranking
import AlpacaTrading.Lib.Criteria
import AlpacaTrading.Lib.Rounding
import AlpacaTrading.Lib.ProRata
import AlpacaTrading.Broker.OrderStatus
import AlpacaTrading.Broker.Response
import AlpacaTrading.Lifecycle.Graph
import AlpacaTrading.Lifecycle.Observed
import AlpacaTrading.Store.Schema
import AlpacaTrading.Store.Ledger
import AlpacaTrading.Store.Effect
import AlpacaTrading.Store.Invariant
import AlpacaTrading.Execution.Authorization
import AlpacaTrading.Execution.Capacity
import AlpacaTrading.Execution.Promotion
import AlpacaTrading.Execution.Submission
import AlpacaTrading.Reconciliation.Observe
import AlpacaTrading.Reconciliation.Settle
import AlpacaTrading.Reconciliation.Recover
import AlpacaTrading.Execution.Command
import AlpacaTrading.Reconciliation.Inversion
import AlpacaTrading.Recovery.Sweep
import AlpacaTrading.Recovery.Effects
import AlpacaTrading.Recovery.StaleReady
import AlpacaTrading.Execution.Inversion
import AlpacaTrading.Execution.Effects
import AlpacaTrading.Reconciliation.Transitions
import AlpacaTrading.Reconciliation.Effects
import AlpacaTrading.Reconciliation.Pass
import AlpacaTrading.Reconciliation.Fills
import AlpacaTrading.Reconciliation.Acceptance
import AlpacaTrading.Reconciliation.Complete
import AlpacaTrading.Reconciliation.Sync
import AlpacaTrading.Reconciliation.Snapshot
import AlpacaTrading.Execution.CapacityAgreement
import AlpacaTrading.Market.Option
import AlpacaTrading.Review.Arbitrator
import AlpacaTrading.Review.Budget
import AlpacaTrading.Review.Exposure
import AlpacaTrading.Review.Sizing
import AlpacaTrading.Review.Priority
import AlpacaTrading.Review.Entry
import AlpacaTrading.Review.Conflicts
import AlpacaTrading.Review.Effects
import AlpacaTrading.Review.Exit
import AlpacaTrading.Review.Triggers
import AlpacaTrading.Execution.Outcome
import AlpacaTrading.System.Machine
import AlpacaTrading.System.Statements
import AlpacaTrading.System.Turns
import AlpacaTrading.System.Footprint
import AlpacaTrading.System.Lineage
import AlpacaTrading.System.Exits
import AlpacaTrading.System.Books
import AlpacaTrading.System.Deployment
import AlpacaTrading.System.Ledger
import AlpacaTrading.System.Submission
import AlpacaTrading.System.Progress
import AlpacaTrading.System.Fills
import AlpacaTrading.Scheduler.Lease
import AlpacaTrading.Store.Idempotency
import AlpacaTrading.Projection.BrokerResult
import AlpacaTrading.Cancellation.Cancel
import AlpacaTrading.System.Views
import AlpacaTrading.System.Causes
import AlpacaTrading.System.Services
import AlpacaTrading.System.History
import AlpacaTrading.System.Cancellations
import AlpacaTrading.Identity.CanonicalJson
import AlpacaTrading.Migration.Run
import AlpacaTrading.Migration.Safety
import AlpacaTrading.Learning.OutcomeRecord
import AlpacaTrading.Learning.Lineage
import AlpacaTrading.Learning.Excursion
import AlpacaTrading.Learning.Reference
import AlpacaTrading.Learning.Aggregates
import AlpacaTrading.Research.Candidates
import AlpacaTrading.Research.Persistence
import AlpacaTrading.ZeroDte.Store
import AlpacaTrading.ZeroDte.Lifecycle
import AlpacaTrading.ZeroDte.Candidate
import AlpacaTrading.ZeroDte.History
import AlpacaTrading.ZeroDte.Exit
import AlpacaTrading.ZeroDte.ExitRun
import AlpacaTrading.ZeroDte.ExitTurn
import AlpacaTrading.ZeroDte.Queue
import AlpacaTrading.ZeroDte.Quote
import AlpacaTrading.ZeroDte.Shadow
import AlpacaTrading.ZeroDte.ShadowRun
import AlpacaTrading.ZeroDte.Outcome
import AlpacaTrading.ZeroDte.Market
import AlpacaTrading.ZeroDte.Playbook
import AlpacaTrading.ZeroDte.PlaybookScore
import AlpacaTrading.Numeric.Parse
import AlpacaTrading.Numeric.Canonical
import AlpacaTrading.Lib.Greedy
import AlpacaTrading.Research.Ranking
import AlpacaTrading.Research.Selection
import AlpacaTrading.Research.Levels
import AlpacaTrading.Lib.Extended
import AlpacaTrading.Store.Retry
import AlpacaTrading.Lib.Tenancy
import AlpacaTrading.Store.WriteLease
import AlpacaTrading.Market.Calendar
import AlpacaTrading.Market.OccSymbol
import AlpacaTrading.Lib.Moves
import AlpacaTrading.PaperPosition.Store
import AlpacaTrading.PaperPosition.Outcome
import AlpacaTrading.PaperPosition.Books
import AlpacaTrading.PaperPosition.Run
import AlpacaTrading.PaperPosition.Effects
import AlpacaTrading.Lib.Rotation
import AlpacaTrading.Universe.Lifecycle
import AlpacaTrading.Universe.Run
import AlpacaTrading.Universe.Coverage
import AlpacaTrading.Lib.Intervals
import AlpacaTrading.Lib.Units
import AlpacaTrading.Backtest.Market
import AlpacaTrading.Backtest.Run
import AlpacaTrading.Backtest.Trades
import AlpacaTrading.Backtest.Account
import AlpacaTrading.Lib.Batching
import AlpacaTrading.Research.EvidenceBatches
import AlpacaTrading.Stream.Service
import AlpacaTrading.Stream.Connection
import AlpacaTrading.Stream.Subscription
import AlpacaTrading.Learning.Governance
import AlpacaTrading.Learning.GovernanceRun
import AlpacaTrading.Learning.GovernanceHistory
import AlpacaTrading.Lib.Marking
import AlpacaTrading.ZeroDte.JsonGraph
import AlpacaTrading.Backtest.LookAhead
import AlpacaTrading.Identity.Redaction
import AlpacaTrading.Worker.State
import AlpacaTrading.Worker.Steps
import AlpacaTrading.Worker.Log
import AlpacaTrading.Worker.Persistence
import AlpacaTrading.Lib.Ends
import AlpacaTrading.Worker.Cycle
import AlpacaTrading.Worker.Mutations
import AlpacaTrading.Worker.Calls
import AlpacaTrading.Scheduler.Tokens
import AlpacaTrading.Scheduler.Execution
import AlpacaTrading.Lib.Delivery
import AlpacaTrading.Broker.Client
import AlpacaTrading.System.Absence
