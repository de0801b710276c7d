import BattleCloud.Lib.System
import BattleCloud.Db.Schema
import BattleCloud.Db.Queue
import BattleCloud.Api.Replay
import BattleCloud.Api.Store
import BattleCloud.Worker.Engine
import BattleCloud.Worker.Queue
import BattleCloud.Db.Invariant
import BattleCloud.Fleet.Model
import BattleCloud.Fleet.Effect
import BattleCloud.Fleet.Frame
import BattleCloud.Fleet.Queue
import BattleCloud.Fleet.Attempts
import BattleCloud.Lib.Lease
import BattleCloud.Fleet.Lease
import BattleCloud.Fleet.Provenance
import BattleCloud.Fleet.Resubmit
import BattleCloud.Api.List
import BattleCloud.Api.Paging
import BattleCloud.Fleet.Summary
import BattleCloud.Api.Launcher
import BattleCloud.Api.RateLimiter
import BattleCloud.Fleet.Cluster
import BattleCloud.Db.Operations
import BattleCloud.Fleet.Join
import BattleCloud.Lib.Loop
import BattleCloud.Worker.Drain
import BattleCloud.Api.Fetch
import BattleCloud.Api.Storing
import BattleCloud.Api.Submit
import BattleCloud.Api.Views
import BattleCloud.Fleet.Outcome
import BattleCloud.Fleet.Threads
import BattleCloud.Worker.Dumps
import BattleCloud.Worker.Report
import BattleCloud.Fleet.Handler
import BattleCloud.Api.Cursor
import BattleCloud.Api.Reader
import BattleCloud.Api.Refusal
import BattleCloud.Fleet.Delete
import BattleCloud.Fleet.Misconfigured
import BattleCloud.Worker.Adapter
import BattleCloud.Worker.Dataset
import BattleCloud.Worker.Heartbeat
import BattleCloud.Api.Columns
import BattleCloud.Api.Request
import BattleCloud.Contract.IdentityKey
import BattleCloud.Contract.Parse
import BattleCloud.Db.Enqueue
import BattleCloud.Db.Migrate
import BattleCloud.Db.MigrationLog
import BattleCloud.Db.UsageStatsDataset
import BattleCloud.Web.EvalCurve
import BattleCloud.Web.ReplayLink
import BattleCloud.Contract.RoundTrip
import BattleCloud.Web.Client
import BattleCloud.Web.SubmitForm
import BattleCloud.Worker.Fifo
import BattleCloud.Db.Tables
import BattleCloud.Fleet.Fits
import BattleCloud.Fleet.Progress
import BattleCloud.Web.JobPage
import BattleCloud.Web.Journey
import BattleCloud.Web.RecentPage
import BattleCloud.Fleet.Builds
import BattleCloud.Fleet.Limited
import BattleCloud.Fleet.Replays
import BattleCloud.Worker.Steps
