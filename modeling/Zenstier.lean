import Zenstier.Store.Table
import Zenstier.Concurrent.Pool
import Zenstier.Schema
import Zenstier.Tokens.Service
import Zenstier.Tokens.Redemption
import Zenstier.Tokens.Revocation
import Zenstier.Tokens.Agreement
import Zenstier.Commands.CommandId
import Zenstier.Commands.Protocol
import Zenstier.Mqtt.Correlation
import Zenstier.Mqtt.Topic
import Zenstier.Commands.Fleet
import Zenstier.Commands.Dispatch
import Zenstier.Commands.Tenancy
import Zenstier.Commands.Audit
import Zenstier.Worker.Handlers
import Zenstier.Worker.Reap
import Zenstier.Commands.Terminal
import Zenstier.Metrics.Retention
import Zenstier.Metrics.Exactness
import Zenstier.Teams.Permissions
import Zenstier.Teams.Store
import Zenstier.Teams.Actions
import Zenstier.Teams.Authority
import Zenstier.Teams.View
import Zenstier.Teams.Refinement
import Zenstier.Teams.Confinement
import Zenstier.RateLimit.Limiter
import Zenstier.Teams.Amplification
import Zenstier.Concurrent.History
import Zenstier.Schedules.Store
import Zenstier.Schedules.Service
import Zenstier.Schedules.Claims
import Zenstier.Schedules.Pause
import Zenstier.Agent.Dedupe
import Zenstier.Agent.Protocol
import Zenstier.Agent.Dispatcher
import Zenstier.Agent.Execution
import Zenstier.Agent.Expiry
import Zenstier.Agent.Redelivery
import Zenstier.Worker.Overdue
import Zenstier.Worker.Status
import Zenstier.Worker.Grace
import Zenstier.Worker.Presence
import Zenstier.Concurrent.Linearization
import Zenstier.Worker.Serializability
import Zenstier.Agent.Client
import Zenstier.Agent.Fence
import Zenstier.Browser.Reducer
import Zenstier.Text.Utf8
import Zenstier.Text.JsonString
import Zenstier.Agent.Emitter
import Zenstier.Agent.Streaming
import Zenstier.Browser.Convergence
import Zenstier.Worker.Confinement
import Zenstier.Mqtt.Acl
import Zenstier.Mqtt.Isolation
import Zenstier.Commands.Failures
import Zenstier.Worker.Persistence
import Zenstier.Concurrent.Lift
import Zenstier.Execution.Services
import Zenstier.Execution.Authority
import Zenstier.Store.Ring
import Zenstier.Agent.Capture
import Zenstier.Agent.Payload
import Zenstier.Agent.Delivery
import Zenstier.Sse.Bus
import Zenstier.Sse.Stream
import Zenstier.Sse.Reconnects
import Zenstier.Concurrent.Contract
import Zenstier.Teams.Ownership
import Zenstier.Concurrent.Journal
import Zenstier.Teams.Invites
import Zenstier.Auth.Totp
import Zenstier.Auth.Service
import Zenstier.Auth.Guesses
import Zenstier.Auth.SecondFactor
import Zenstier.Auth.Recovery
import Zenstier.Auth.Enrolment
import Zenstier.Net.SafeFetch
import Zenstier.Alerts.Service
import Zenstier.Alerts.Dwell
import Zenstier.Ai.Context
import Zenstier.Text.Fence
import Zenstier.Ai.Isolation
import Zenstier.Tokens.Atomicity
import Zenstier.Tokens.TeamDeletion
import Zenstier.RateLimit.DeviceBudget
import Zenstier.Alerts.Overlap
import Zenstier.Alerts.StateMachine
import Zenstier.Agent.Groups
import Zenstier.Files.Inodes
import Zenstier.Agent.ConfigFile
import Zenstier.Groups.Store
import Zenstier.Groups.Service
import Zenstier.Groups.Membership
import Zenstier.Agent.Output
import Zenstier.Agent.DedupeMemory
import Zenstier.Agent.Environment
import Zenstier.Ai.PromptPrefix
import Zenstier.Ai.Proposals
import Zenstier.Groups.Names
import Zenstier.Net.Addresses
import Zenstier.Sse.References
import Zenstier.Agent.Cancel
import Zenstier.Agent.Shutdown
import Zenstier.Text.FlatJson
import Zenstier.Text.IsoTime
import Zenstier.Agent.Publishes
import Zenstier.Agent.Unmarshal
import Zenstier.Mqtt.Wire
import Zenstier.Alerts.Rules
import Zenstier.Tenancy.Database
import Zenstier.Store.Owner
import Zenstier.Tenancy.Frame
import Zenstier.Tenancy.Requests
import Zenstier.Tenancy.Calls
import Zenstier.Auth.Base32
import Zenstier.Ai.Stream
import Zenstier.Commands.Uuid
import Zenstier.Agent.Checked
import Zenstier.Agent.Metrics
import Zenstier.Ai.Console
import Zenstier.Mqtt.DynamicSecurity
import Zenstier.Agent.Config
import Zenstier.Ai.Scope
import Zenstier.Api.Consultation
import Zenstier.Mqtt.Accounts
import Zenstier.Mqtt.DataPlane
import Zenstier.Mqtt.Reconcile
import Zenstier.Mqtt.ReconcileRace
import Zenstier.Tokens.Requests
import Zenstier.Tokens.Secrets
