import JobWorkflow.Machinery.Dict
import JobWorkflow.Machinery.Runs
import JobWorkflow.Machinery.Fairness
import JobWorkflow.Machinery.Table
import JobWorkflow.Machinery.Pointwise
import JobWorkflow.Machinery.Text
import JobWorkflow.Machinery.Regex
import JobWorkflow.Machinery.Exchange
import JobWorkflow.Machinery.Streak
import JobWorkflow.Machinery.MovingWindow
import JobWorkflow.Machinery.Sha256
import JobWorkflow.Machinery.Sql
import JobWorkflow.Machinery.PyJson
import JobWorkflow.Machinery.Serial
import JobWorkflow.Machinery.Breaker
import JobWorkflow.Machinery.Rerun
import JobWorkflow.Common.Models
import JobWorkflow.Common.Store
import JobWorkflow.Common.Ledger
import JobWorkflow.Common.Lifecycle
import JobWorkflow.Common.History
import JobWorkflow.Common.Correspondence
import JobWorkflow.Common.Messaging
import JobWorkflow.Common.Wire
import JobWorkflow.Common.Db
import JobWorkflow.Common.Connect
import JobWorkflow.Common.Outbox
import JobWorkflow.Common.Mirror
import JobWorkflow.Common.Agreement
import JobWorkflow.Common.Rows
import JobWorkflow.Common.Scheduling
import JobWorkflow.Common.Resolution
import JobWorkflow.Common.Migrations
import JobWorkflow.Common.Migrate
import JobWorkflow.Dispatcher.Service
import JobWorkflow.Dispatcher.Delivery
import JobWorkflow.Dispatcher.Draining
import JobWorkflow.Dispatcher.Replicas
import JobWorkflow.Worker.Service
import JobWorkflow.Reaper.Service
import JobWorkflow.Reaper.RunningSince
import JobWorkflow.Handler.Service
import JobWorkflow.System.Relay
import JobWorkflow.System.Topic
import JobWorkflow.System.Machine
import JobWorkflow.System.Alone
import JobWorkflow.System.Ownership
import JobWorkflow.System.Churn
import JobWorkflow.System.Sweeps
import JobWorkflow.System.Exhaustion
import JobWorkflow.System.Snapshot
import JobWorkflow.System.Outcomes
import JobWorkflow.System.Stranding
import JobWorkflow.System.Exclusion
import JobWorkflow.System.Recovery
import JobWorkflow.System.Fair
import JobWorkflow.System.Deployed
import JobWorkflow.System.Transport
import JobWorkflow.System.DeployedFair
import JobWorkflow.System.Timeline
import JobWorkflow.Api.Http
import JobWorkflow.Api.Layers
import JobWorkflow.Api.Schemas
import JobWorkflow.Api.JobType
import JobWorkflow.Api.Auth
import JobWorkflow.Api.Jwks
import JobWorkflow.HandlerAPI.Service
import JobWorkflow.HandlerAPI.Requests
import JobWorkflow.HandlerAPI.Contract
import JobWorkflow.HandlerAPI.Identity
import JobWorkflow.HandlerAPI.Visibility
import JobWorkflow.HandlerAPI.RateLimit
import JobWorkflow.System.FrontDoor
import JobWorkflow.HandlerAPIv2.Service
import JobWorkflow.HandlerAPIv2.CircuitBreaker
import JobWorkflow.HandlerAPIv2.Agreement
import JobWorkflow.HandlerAPIv2.Shedding
import JobWorkflow.HandlerAPIv2.Outage
import JobWorkflow.HandlerAPIv2.Authentication
import JobWorkflow.HandlerAPIv2.Correlation
