import FraudAnalyzer.Audit.Scrubbing
import FraudAnalyzer.Charts.Approval
import FraudAnalyzer.Charts.Audit
import FraudAnalyzer.Charts.Editing
import FraudAnalyzer.Charts.Existence
import FraudAnalyzer.Charts.Fingerprint
import FraudAnalyzer.Charts.Freeze
import FraudAnalyzer.Charts.Machine
import FraudAnalyzer.Charts.Models
import FraudAnalyzer.Charts.PublishRow
import FraudAnalyzer.Charts.Publishing
import FraudAnalyzer.Charts.Reading
import FraudAnalyzer.Charts.Replacing
import FraudAnalyzer.Charts.ReviewQueue
import FraudAnalyzer.Charts.Rows
import FraudAnalyzer.Cli.ClaimUnowned
import FraudAnalyzer.Clock
import FraudAnalyzer.Config
import FraudAnalyzer.Connections.Coherence
import FraudAnalyzer.Connections.GuardedSessions
import FraudAnalyzer.Connections.Models
import FraudAnalyzer.Connections.Service
import FraudAnalyzer.Connections.Shape
import FraudAnalyzer.Dashboards.Arranging
import FraudAnalyzer.Dashboards.Machine
import FraudAnalyzer.Dashboards.Noninterference
import FraudAnalyzer.Dashboards.OwnCharts
import FraudAnalyzer.Dashboards.Placements
import FraudAnalyzer.Dashboards.Requests
import FraudAnalyzer.Dashboards.Service
import FraudAnalyzer.Db.SqliteCreator
import FraudAnalyzer.Db.SqliteUri
import FraudAnalyzer.Db.TargetRegistry
import FraudAnalyzer.Errors
import FraudAnalyzer.FlagRules.Badge
import FraudAnalyzer.FlagRules.Comparison
import FraudAnalyzer.FlagRules.ConcurrentDismissals
import FraudAnalyzer.FlagRules.ConcurrentSync
import FraudAnalyzer.FlagRules.Diagnosis
import FraudAnalyzer.FlagRules.DismissalAlgebra
import FraudAnalyzer.FlagRules.Dismissals
import FraudAnalyzer.FlagRules.Engine
import FraudAnalyzer.FlagRules.Evaluation
import FraudAnalyzer.FlagRules.Findings
import FraudAnalyzer.FlagRules.FlaggedRows
import FraudAnalyzer.FlagRules.FlaggedView
import FraudAnalyzer.FlagRules.Legend
import FraudAnalyzer.FlagRules.ListParity
import FraudAnalyzer.FlagRules.Outcome
import FraudAnalyzer.FlagRules.PersonalDismissals
import FraudAnalyzer.FlagRules.Preview
import FraudAnalyzer.FlagRules.Refreshing
import FraudAnalyzer.FlagRules.Relabel
import FraudAnalyzer.FlagRules.Streaks
import FraudAnalyzer.FlagRules.Summary
import FraudAnalyzer.Lib.Agree
import FraudAnalyzer.Lib.BudgetCache
import FraudAnalyzer.Lib.Comprehension
import FraudAnalyzer.Lib.Cutoff
import FraudAnalyzer.Lib.FirstKept
import FraudAnalyzer.Lib.FittingPrefix
import FraudAnalyzer.Lib.Gaps
import FraudAnalyzer.Lib.Json
import FraudAnalyzer.Lib.Ledger
import FraudAnalyzer.Lib.Meter
import FraudAnalyzer.Lib.OrderedDict
import FraudAnalyzer.Lib.Percent
import FraudAnalyzer.Lib.Recency
import FraudAnalyzer.Lib.Run
import FraudAnalyzer.Lib.Scan
import FraudAnalyzer.Lib.Scientific
import FraudAnalyzer.Lib.Table
import FraudAnalyzer.Lib.Tally
import FraudAnalyzer.Lists.CanonicalKey
import FraudAnalyzer.Lists.Cleaning
import FraudAnalyzer.Lists.HiddenRules
import FraudAnalyzer.Lists.Integrity
import FraudAnalyzer.Lists.Keys
import FraudAnalyzer.Lists.Machine
import FraudAnalyzer.Lists.Matching
import FraudAnalyzer.Lists.MemberCache
import FraudAnalyzer.Lists.Members
import FraudAnalyzer.Lists.Reflagging
import FraudAnalyzer.Lists.Saving
import FraudAnalyzer.Lists.Service
import FraudAnalyzer.Migrations.PublishApproval
import FraudAnalyzer.Migrations.QueryCharts
import FraudAnalyzer.Policy.ChartTypes
import FraudAnalyzer.Policy.FlagRules
import FraudAnalyzer.Policy.SqlAllowlist
import FraudAnalyzer.Python.Casing
import FraudAnalyzer.Python.Cell
import FraudAnalyzer.Python.Decimal
import FraudAnalyzer.Python.DecimalOrder
import FraudAnalyzer.Python.Numeral
import FraudAnalyzer.Python.Text
import FraudAnalyzer.Queries.Answers
import FraudAnalyzer.Queries.Backoff
import FraudAnalyzer.Queries.CacheAccounting
import FraudAnalyzer.Queries.CacheInvariant
import FraudAnalyzer.Queries.Coercion
import FraudAnalyzer.Queries.Creating
import FraudAnalyzer.Queries.DataHash
import FraudAnalyzer.Queries.Elapsed
import FraudAnalyzer.Queries.Execution
import FraudAnalyzer.Queries.ExecutionLog
import FraudAnalyzer.Queries.Limits
import FraudAnalyzer.Queries.LogRetention
import FraudAnalyzer.Queries.Noninterference
import FraudAnalyzer.Queries.OncePerInterval
import FraudAnalyzer.Queries.PaceInvariant
import FraudAnalyzer.Queries.Pacing
import FraudAnalyzer.Queries.PollBytes
import FraudAnalyzer.Queries.Refresher
import FraudAnalyzer.Queries.RenderedAccounting
import FraudAnalyzer.Queries.RenderedCache
import FraudAnalyzer.Queries.Replaced
import FraudAnalyzer.Queries.ResultCache
import FraudAnalyzer.Queries.Reviewed
import FraudAnalyzer.Queries.RowLimits
import FraudAnalyzer.Queries.Scheduler
import FraudAnalyzer.Queries.Serving
import FraudAnalyzer.Queries.Unchanged
import FraudAnalyzer.Queries.Updating
import FraudAnalyzer.Queries.Visibility
import FraudAnalyzer.Queries.Visits
import FraudAnalyzer.RateLimit
import FraudAnalyzer.RateLimit.Isolation
import FraudAnalyzer.Security.GuardMemo
import FraudAnalyzer.Security.InertTokens
import FraudAnalyzer.Security.Lexing
import FraudAnalyzer.Security.SqlGuard
import FraudAnalyzer.Security.SqlitePaths
import FraudAnalyzer.Store
import FraudAnalyzer.Users.Access
import FraudAnalyzer.Users.AccountTrail
import FraudAnalyzer.Users.Authentication
import FraudAnalyzer.Users.Enumeration
import FraudAnalyzer.Users.Guessing
import FraudAnalyzer.Users.LastAdmin
import FraudAnalyzer.Users.Lockout
import FraudAnalyzer.Users.LockoutHistory
import FraudAnalyzer.Users.Management
import FraudAnalyzer.Users.Models
import FraudAnalyzer.Users.OldAccess
import FraudAnalyzer.Users.Sessions
import FraudAnalyzer.Users.TemporaryPasswords
import FraudAnalyzer.Users.Updating
