import IkelyaneMonitor.Interleave.Table
import IkelyaneMonitor.Interleave.Prog
import IkelyaneMonitor.Interleave.RelyGuarantee
import IkelyaneMonitor.Interleave.RowLocks
import IkelyaneMonitor.Replay.SkipDuplicates
import IkelyaneMonitor.Replay.Upsert
import IkelyaneMonitor.Replay.Latest
import IkelyaneMonitor.Replay.Fifo
import IkelyaneMonitor.Wire.Text
import IkelyaneMonitor.Wire.Json
import IkelyaneMonitor.Wire.Schema
import IkelyaneMonitor.Wire.Time
import IkelyaneMonitor.Wire.Stamps
import IkelyaneMonitor.Wire.Rounding
import IkelyaneMonitor.Stats.OrderStatistics
import IkelyaneMonitor.Text
import IkelyaneMonitor.Crypto
import IkelyaneMonitor.Auth.Permissions
import IkelyaneMonitor.Remediation.Guard
import IkelyaneMonitor.Remediation.Actions
import IkelyaneMonitor.Remediation.Executions
import IkelyaneMonitor.Remediation.Lifecycle
import IkelyaneMonitor.Remediation.Promises
import IkelyaneMonitor.Remediation.Law
import IkelyaneMonitor.Remediation.Guardrails
import IkelyaneMonitor.Remediation.Sweep
import IkelyaneMonitor.Auth.Totp
import IkelyaneMonitor.Auth.Throttle
import IkelyaneMonitor.Auth.RetryDelay
import IkelyaneMonitor.Auth.TwoFactor
import IkelyaneMonitor.Auth.TwoFactorSetup
import IkelyaneMonitor.Auth.SingleUse
import IkelyaneMonitor.Auth.AttemptCap
import IkelyaneMonitor.Auth.Members
import IkelyaneMonitor.Auth.Ownership
import IkelyaneMonitor.Telemetry.Signature
import IkelyaneMonitor.Telemetry.Auth
import IkelyaneMonitor.Telemetry.Series
import IkelyaneMonitor.Telemetry.Payload
import IkelyaneMonitor.Telemetry.Metrics
import IkelyaneMonitor.Telemetry.Ingest
import IkelyaneMonitor.Telemetry.Replays
import IkelyaneMonitor.Telemetry.Snapshots
import IkelyaneMonitor.Telemetry.Route
import IkelyaneMonitor.Servers.Hosts
import IkelyaneMonitor.Servers.Rotation
import IkelyaneMonitor.Agent.Buffer
import IkelyaneMonitor.Agent.Disk
import IkelyaneMonitor.Agent.Config
import IkelyaneMonitor.Agent.Jobs
import IkelyaneMonitor.Agent.Run
import IkelyaneMonitor.Agent.Sample
import IkelyaneMonitor.Agent.Snmp
import IkelyaneMonitor.Agent.SnmpRows
import IkelyaneMonitor.Remediation.Delivery
import IkelyaneMonitor.Remediation.Results
import IkelyaneMonitor.Telemetry.Schemas
import IkelyaneMonitor.Telemetry.SnmpDevices
import IkelyaneMonitor.Aiops.Baseline
import IkelyaneMonitor.Aiops.Robust
import IkelyaneMonitor.Alerts.Rules
import IkelyaneMonitor.Incidents.Tables
import IkelyaneMonitor.Incidents.Operations
import IkelyaneMonitor.Incidents.Shared
import IkelyaneMonitor.Incidents.OwnBaseline
import IkelyaneMonitor.Incidents.Turns
import IkelyaneMonitor.Incidents.Flapping
import IkelyaneMonitor.Incidents.Effects
import IkelyaneMonitor.Incidents.Spacing
import IkelyaneMonitor.Incidents.Unique
import IkelyaneMonitor.Incidents.Stamps
import IkelyaneMonitor.Graph.BreadthFirst
import IkelyaneMonitor.Graph.DepthFirst
import IkelyaneMonitor.Graph.Layers
import IkelyaneMonitor.Topology.Graph
import IkelyaneMonitor.Topology.Order
import IkelyaneMonitor.Topology.Health
import IkelyaneMonitor.Topology.Layout
import IkelyaneMonitor.Topology.LayoutRows
import IkelyaneMonitor.Aiops.Rca
import IkelyaneMonitor.Aiops.Verdict
import IkelyaneMonitor.Aiops.RootCauses
import IkelyaneMonitor.Aiops.Signature
import IkelyaneMonitor.Aiops.Shuffle
import IkelyaneMonitor.Aiops.Skipped
import IkelyaneMonitor.Aiops.Narrative
import IkelyaneMonitor.Aiops.Workers
import IkelyaneMonitor.Aiops.Leases
import IkelyaneMonitor.Aiops.Attempts
import IkelyaneMonitor.Interleave.History
import IkelyaneMonitor.Auth.Accounts
import IkelyaneMonitor.Auth.Login
import IkelyaneMonitor.Auth.LoginThrottle
import IkelyaneMonitor.Auth.PasswordChange
import IkelyaneMonitor.Auth.Sessions
import IkelyaneMonitor.Auth.SessionLifetime
import IkelyaneMonitor.Interleave.Faults
import IkelyaneMonitor.Auth.Invitations
import IkelyaneMonitor.Auth.InvitationLaws
import IkelyaneMonitor.Auth.LiveLinks
import IkelyaneMonitor.Net.TargetGuard
import IkelyaneMonitor.Saas.Probe
import IkelyaneMonitor.Saas.ProbeSafety
import IkelyaneMonitor.Saas.Runner
import IkelyaneMonitor.Incidents.CurrentValue
import IkelyaneMonitor.Agent.SnmpRates
import IkelyaneMonitor.Agent.SlowQueries
import IkelyaneMonitor.Agent.Slowlog
import IkelyaneMonitor.Agent.Profiler
import IkelyaneMonitor.Agent.Databases
import IkelyaneMonitor.Agent.SlowStatements
import IkelyaneMonitor.Agent.SlowRate
import IkelyaneMonitor.Agent.SlowlogOnce
import IkelyaneMonitor.Agent.ProfilerOnce
import IkelyaneMonitor.Agent.Endpoint
import IkelyaneMonitor.Net.EmbeddedV4
import IkelyaneMonitor.Wire.Bits
import IkelyaneMonitor.Auth.Base32
import IkelyaneMonitor.Agent.Redaction
import IkelyaneMonitor.Wire.Cuts
import IkelyaneMonitor.Agent.ConfigErrors
import IkelyaneMonitor.Remediation.Truncation
import IkelyaneMonitor.Telemetry.PortSeries
import IkelyaneMonitor.Agent.Collect
import IkelyaneMonitor.Auth.PasswordHash
import IkelyaneMonitor.Telemetry.HostSamples
import IkelyaneMonitor.Interleave.Noninterference
import IkelyaneMonitor.Relational.Schema
import IkelyaneMonitor.Relational.Owners
import IkelyaneMonitor.Notify.Http
import IkelyaneMonitor.Tenancy.Tables
import IkelyaneMonitor.Tenancy.Calls
import IkelyaneMonitor.Tenancy.Devices
import IkelyaneMonitor.Tenancy.Endpoints
import IkelyaneMonitor.Tenancy.Databases
import IkelyaneMonitor.Tenancy.Topology
import IkelyaneMonitor.Tenancy.Rules
import IkelyaneMonitor.Tenancy.Actions
import IkelyaneMonitor.Tenancy.Hosts
import IkelyaneMonitor.Tenancy.System
import IkelyaneMonitor.Relational.Serial
import IkelyaneMonitor.Relational.Whole
import IkelyaneMonitor.Relational.Open
import IkelyaneMonitor.Tenancy.Serial
import IkelyaneMonitor.Tenancy.Whole
import IkelyaneMonitor.Tenancy.Writers
import IkelyaneMonitor.Tenancy.Trail
import IkelyaneMonitor.Tenancy.Forms
import IkelyaneMonitor.Tenancy.Poller
import IkelyaneMonitor.Tenancy.Saved
import IkelyaneMonitor.Interleave.Arrivals
import IkelyaneMonitor.Remediation.Protocol
import IkelyaneMonitor.Remediation.Provenance
import IkelyaneMonitor.Remediation.Rows
import IkelyaneMonitor.Remediation.Outcomes
import IkelyaneMonitor.Remediation.Consent
import IkelyaneMonitor.Agent.Reporting
import IkelyaneMonitor.Agent.Kept
import IkelyaneMonitor.Agent.StoredOnce
import IkelyaneMonitor.Interleave.FanOut
import IkelyaneMonitor.Agent.PollAll
import IkelyaneMonitor.Agent.PollDatabases
import IkelyaneMonitor.Agent.SlowEntries
import IkelyaneMonitor.Agent.DatabaseEntries
import IkelyaneMonitor.Interleave.Past
import IkelyaneMonitor.Auth.Access
import IkelyaneMonitor.Auth.Grants
