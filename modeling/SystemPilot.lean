import SystemPilot.Library.Machine
import SystemPilot.Telemetry.Config
import SystemPilot.Telemetry.Acknowledgement
import SystemPilot.Agent.Preview
import SystemPilot.Agent.SpoolLedger
import SystemPilot.Agent.SequenceIdentity
import SystemPilot.Cloud.ExactlyOnce
import SystemPilot.Cloud.NodeRows
import SystemPilot.Delivery.NoLoss
import SystemPilot.Cloud.Isolation
import SystemPilot.Delivery.Admission
import SystemPilot.Cloud.BoundedRetry
import SystemPilot.Cloud.JobResults
import SystemPilot.Cloud.Migration
import SystemPilot.Cloud.Notifications
import SystemPilot.Forensics.Classifier
import SystemPilot.Alert.Decisions
import SystemPilot.Alert.Engine
import SystemPilot.Netlink.Agreement
import SystemPilot.Netlink.Threads
import SystemPilot.Forensics.Reference
import SystemPilot.Forensics.Completeness
import SystemPilot.Forensics.Loss
import SystemPilot.Forensics.Attribution
import SystemPilot.Cloud.Permits
import SystemPilot.Configuration.Rollback
import SystemPilot.Library.Replacement
import SystemPilot.Spool.Recovery
import SystemPilot.Alert.Recovery
import SystemPilot.Alert.Document
import SystemPilot.Agent.RecordEvent
import SystemPilot.Alert.Lifecycle
import SystemPilot.Alert.Identity
import SystemPilot.Telemetry.AddressCoverage
import SystemPilot.Support.Sanitize
import SystemPilot.Alert.RedactedIdentity
import SystemPilot.Agent.Rounds
import SystemPilot.Spool.Capacity
import SystemPilot.Cloud.SequenceGaps
import SystemPilot.Json.Refusal
import SystemPilot.Netlink.Socket
import SystemPilot.Netlink.Responses
import SystemPilot.Codebase.Chunks
import SystemPilot.Codebase.Index
import SystemPilot.Codebase.Incremental
import SystemPilot.Codebase.Coverage
import SystemPilot.Agent.Metrics
import SystemPilot.Agent.Health
import SystemPilot.Netlink.Locality
import SystemPilot.Library.Checked
import SystemPilot.Netlink.Total
import SystemPilot.Netlink.Overflow
import SystemPilot.Netlink.Concatenation
import SystemPilot.Library.LittleEndian
import SystemPilot.Collector.Abi
import SystemPilot.Collector.Decoding
import SystemPilot.Collector.Ingress
import SystemPilot.Collector.Conservation
import SystemPilot.Ui.Streamer
import SystemPilot.Ui.Chunking
import SystemPilot.Forensics.Eviction
import SystemPilot.Agent.Outage
import SystemPilot.Library.Decoder
import SystemPilot.Text.Lossy
import SystemPilot.Codebase.Binary
import SystemPilot.Library.BreadthFirst
import SystemPilot.Library.Ranking
import SystemPilot.Causal.Graph
import SystemPilot.Causal.Trace
import SystemPilot.Causal.Build
import SystemPilot.Causal.Connections
import SystemPilot.Causal.Contention
import SystemPilot.Json.Compact
import SystemPilot.Causal.Report
import SystemPilot.Causal.Nodes
import SystemPilot.Causal.Integrity
import SystemPilot.Library.Transducer
import SystemPilot.Library.Dot
import SystemPilot.Causal.Dot
import SystemPilot.Library.Program
import SystemPilot.Evidence.Retention
import SystemPilot.Evidence.Atomicity
import SystemPilot.Cloud.Circuit
import SystemPilot.Text.Fields
import SystemPilot.Shell.ContextLog
import SystemPilot.Shell.Capture
import SystemPilot.Telemetry.ProcStat
import SystemPilot.Configuration.Fleet
import SystemPilot.Ui.Monitor
import SystemPilot.Codebase.Workspaces
import SystemPilot.Daemon.Server
import SystemPilot.Daemon.Health
import SystemPilot.Configuration.Loading
import SystemPilot.Configuration.Standing
import SystemPilot.Daemon.Doctor
import SystemPilot.Library.Simulation
import SystemPilot.Commands.Edits
import SystemPilot.Commands.Register
import SystemPilot.Library.RelyGuarantee
import SystemPilot.Setup.Files
import SystemPilot.Setup.Binary
import SystemPilot.Setup.Install
import SystemPilot.Setup.Interview
import SystemPilot.Setup.Wizard
import SystemPilot.Setup.Reload
import SystemPilot.Cloud.Provider
import SystemPilot.Support.Bundle
import SystemPilot.Json.Cuts
import SystemPilot.Library.Lines
import SystemPilot.Ai.Stream
import SystemPilot.Ai.Query
import SystemPilot.Json.Declared
import SystemPilot.Evidence.Codec
import SystemPilot.Evidence.Cases
import SystemPilot.Evidence.Capture
