import AgenticSDLC.Foundations.Json
import AgenticSDLC.Foundations.JsonText
import AgenticSDLC.Foundations.JsonAscii
import AgenticSDLC.Foundations.JsonReader
import AgenticSDLC.Foundations.JsonCanonical
import AgenticSDLC.Foundations.JsonFloats
import AgenticSDLC.Foundations.Text
import AgenticSDLC.Foundations.Lines
import AgenticSDLC.Foundations.JsonQuotes
import AgenticSDLC.Foundations.JsonLines
import AgenticSDLC.Foundations.JsonLineBreaks
import AgenticSDLC.Foundations.Python
import AgenticSDLC.Foundations.Rego
import AgenticSDLC.Foundations.Paths
import AgenticSDLC.Foundations.Html
import AgenticSDLC.Foundations.Outcome
import AgenticSDLC.Foundations.Dict
import AgenticSDLC.Foundations.Runs
import AgenticSDLC.Foundations.Replay
import AgenticSDLC.Foundations.HashChain
import AgenticSDLC.Foundations.RetryPolicy
import AgenticSDLC.Foundations.Keyed
import AgenticSDLC.Foundations.Reach
import AgenticSDLC.Foundations.JsonSchema
import AgenticSDLC.Foundations.Sql
import AgenticSDLC.Foundations.Blocks
import AgenticSDLC.Foundations.Floats
import AgenticSDLC.Foundations.FirstSeen
import AgenticSDLC.Foundations.StableSort
import AgenticSDLC.Foundations.Patterns
import AgenticSDLC.Foundations.Spans
import AgenticSDLC.Foundations.Nesting
import AgenticSDLC.Foundations.Separated
import AgenticSDLC.Foundations.Matching
import AgenticSDLC.Foundations.FirstBest
import AgenticSDLC.Foundations.Rounding
import AgenticSDLC.Foundations.Effects
import AgenticSDLC.Foundations.JsonIndent
import AgenticSDLC.Foundations.JsonColons
import AgenticSDLC.Coverage.CoverageGate
import AgenticSDLC.Coverage.CoverageQuery
import AgenticSDLC.Coverage.MergeParity
import AgenticSDLC.Coverage.Completion
import AgenticSDLC.Evidence.EvidenceCollector
import AgenticSDLC.Evidence.EvidenceGate
import AgenticSDLC.Evidence.RecordFormat
import AgenticSDLC.Evidence.SliceWitness
import AgenticSDLC.Evidence.BaselineGate
import AgenticSDLC.Evidence.CiEvidenceCheck
import AgenticSDLC.Evidence.CiSoundness
import AgenticSDLC.Coverage.ProvenModels
import AgenticSDLC.Coverage.ModelFingerprint
import AgenticSDLC.Evidence.PerfBudget
import AgenticSDLC.Evidence.SpineCanary
import AgenticSDLC.Plane.PlaneClient
import AgenticSDLC.Plane.PlanGate
import AgenticSDLC.Plane.ConcurrentTransitions
import AgenticSDLC.Plane.PlaneMcp
import AgenticSDLC.Plane.McpGate
import AgenticSDLC.Plane.McpTools
import AgenticSDLC.Plane.McpServer
import AgenticSDLC.Plane.McpRequests
import AgenticSDLC.Plane.McpRefinement
import AgenticSDLC.Plane.McpResults
import AgenticSDLC.Loop.LoopGate
import AgenticSDLC.Plane.TheLoop
import AgenticSDLC.Plane.MarkdownHtml
import AgenticSDLC.Plane.EvidenceComments
import AgenticSDLC.Plane.Pagination
import AgenticSDLC.Plane.UpsertPlan
import AgenticSDLC.Plane.UpsertFrame
import AgenticSDLC.Plane.UpsertRuns
import AgenticSDLC.Plane.UpsertReruns
import AgenticSDLC.Plane.Provision
import AgenticSDLC.Plane.ProvisionIssues
import AgenticSDLC.Plane.ProvisionRuns
import AgenticSDLC.Loop.SelfHeal
import AgenticSDLC.Loop.StructuredOutput
import AgenticSDLC.Durable.Orchestrator
import AgenticSDLC.Durable.Recording
import AgenticSDLC.Durable.CrashReplay
import AgenticSDLC.Durable.HandoffReplay
import AgenticSDLC.Durable.Divergence
import AgenticSDLC.Durable.CheckpointIntegrity
import AgenticSDLC.Durable.HistoryShape
import AgenticSDLC.Durable.BoundedRetry
import AgenticSDLC.Durable.UntrustedBlobs
import AgenticSDLC.Bus.EventBus
import AgenticSDLC.Bus.BusRuns
import AgenticSDLC.Bus.Delivery
import AgenticSDLC.Bus.ExactlyOnce
import AgenticSDLC.Bus.Retry
import AgenticSDLC.Bus.EventIds
import AgenticSDLC.Bus.StepMemo
import AgenticSDLC.Bus.SoundBus
import AgenticSDLC.Audit.AuditLog
import AgenticSDLC.Audit.ChainCommitment
import AgenticSDLC.Audit.AuditVerify
import AgenticSDLC.Audit.MirrorFile
import AgenticSDLC.Audit.AtomicAppend
import AgenticSDLC.Audit.FailClosed
import AgenticSDLC.Bridge.WebhookHandler
import AgenticSDLC.Bridge.TransitionDispatch
import AgenticSDLC.Bridge.Redelivery
import AgenticSDLC.Bridge.Dispatcher
import AgenticSDLC.Bridge.JobOutcomes
import AgenticSDLC.Bridge.SettledJobs
import AgenticSDLC.Bridge.BaselineCoverage
import AgenticSDLC.Bridge.RetryLaw
import AgenticSDLC.Bridge.AgentConsumer
import AgenticSDLC.Bridge.OffsetProgress
import AgenticSDLC.Bridge.JobKeys
import AgenticSDLC.Bridge.BoardToAgents
import AgenticSDLC.Bridge.AgentCalls
import AgenticSDLC.Store.Store
import AgenticSDLC.Store.StoreRows
import AgenticSDLC.Store.StoreWrites
import AgenticSDLC.Store.StoreCalls
import AgenticSDLC.Store.ProvenEvidence
import AgenticSDLC.Store.StatusTransitions
import AgenticSDLC.Store.Provenance
import AgenticSDLC.Store.AtomicWrites
import AgenticSDLC.Store.EvidenceFrame
import AgenticSDLC.Store.RepeatedUpserts
import AgenticSDLC.Store.RunState
import AgenticSDLC.Control.KillSwitch
import AgenticSDLC.Control.ReasoningLoop
import AgenticSDLC.Control.CallLoops
import AgenticSDLC.Control.StateIntegrity
import AgenticSDLC.Control.SandboxGuard
import AgenticSDLC.Control.PredictiveRouter
import AgenticSDLC.Wiring.WiringChecker
import AgenticSDLC.Wiring.WiringIngest
import AgenticSDLC.Wiring.WiringIds
import AgenticSDLC.Wiring.WiringGate
import AgenticSDLC.Wiring.SymbolTable
import AgenticSDLC.Wiring.Reachability
import AgenticSDLC.Wiring.FeatureSchema
import AgenticSDLC.Wiring.IngestFrame
import AgenticSDLC.Wiring.MarkFailed
import AgenticSDLC.Wiring.Obligations
import AgenticSDLC.Wiring.WiringDedup
import AgenticSDLC.Wiring.DeadCodeUnion
import AgenticSDLC.Wiring.FindingIds
import AgenticSDLC.Trace.ReqIdScan
import AgenticSDLC.Trace.TraceabilityWriter
import AgenticSDLC.Trace.ExemptGlobs
import AgenticSDLC.Trace.OrphanDetector
import AgenticSDLC.Trace.DiffOrphans
import AgenticSDLC.Trace.SpecValidator
