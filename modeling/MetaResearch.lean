import MetaResearch.Model.RuntimeProtection.Startup
import MetaResearch.Soundness.RuntimeProtection.Ledger
import MetaResearch.Soundness.RuntimeProtection.Transactions
import MetaResearch.Soundness.RuntimeProtection.Programs
import MetaResearch.Soundness.RuntimeProtection.Protection
import MetaResearch.Soundness.RuntimeProtection.Permits
import MetaResearch.Soundness.RuntimeProtection.Runs
import MetaResearch.ToMathlib.Json
import MetaResearch.Model.Bundle.Protocol
import MetaResearch.ToMathlib.Saturation
import MetaResearch.Model.Bundle.Measurement
import MetaResearch.Model.Bundle.TargetContract
import MetaResearch.Soundness.Bundle.Candidates
import MetaResearch.Soundness.Bundle.Rolling
import MetaResearch.Soundness.Bundle.Unlimited
import MetaResearch.Model.Bundle.PlanDocument
import MetaResearch.Soundness.Bundle.Contracts
import MetaResearch.Soundness.Bundle.DeadEnds
import MetaResearch.Soundness.Bundle.Projections
import MetaResearch.Model.Bundle.Completion
import MetaResearch.Soundness.Bundle.GateAgreement
import MetaResearch.Model.RawOutput.Store
import MetaResearch.Soundness.RawOutput.ExactPrefix
import MetaResearch.Soundness.RawOutput.Pages
import MetaResearch.Soundness.RawOutput.Cursors
import MetaResearch.Model.Bundle.ClosedUnion
import MetaResearch.ToMathlib.JsonText
import MetaResearch.Soundness.Bundle.CanonicalBytes
import MetaResearch.Model.Bundle.Records
import MetaResearch.Model.Bundle.Report
import MetaResearch.Soundness.Bundle.ResultSets
import MetaResearch.Model.Bundle.Handoff
import MetaResearch.Model.Bundle.Replay
import MetaResearch.Soundness.Bundle.Partition
import MetaResearch.Soundness.Bundle.Sizes
import MetaResearch.Soundness.Bundle.Report
import MetaResearch.Soundness.Bundle.Recovery
import MetaResearch.Model.Plan.PlanContract
import MetaResearch.Model.Bundle.PlanBriefs
import MetaResearch.Soundness.Plan.Agreement
import MetaResearch.Model.RuntimeProtection.Telemetry
import MetaResearch.Soundness.RuntimeProtection.Consent
import MetaResearch.ToMathlib.Descendants
import MetaResearch.Model.Datasets.Facts
import MetaResearch.Soundness.Datasets.Laws
import MetaResearch.ToMathlib.JsonDict
import MetaResearch.Model.HumanRequests.Records
import MetaResearch.Model.HumanRequests.Owner
import MetaResearch.Model.HumanRequests.Commands
import MetaResearch.Soundness.HumanRequests.Revisions
import MetaResearch.Soundness.HumanRequests.Invariant
import MetaResearch.Soundness.HumanRequests.Reading
import MetaResearch.Soundness.HumanRequests.Writing
import MetaResearch.Soundness.HumanRequests.Transactions
import MetaResearch.Soundness.HumanRequests.Orders
import MetaResearch.Soundness.HumanRequests.Steps
import MetaResearch.Soundness.HumanRequests.Storage
import MetaResearch.Soundness.HumanRequests.Queries
import MetaResearch.Soundness.HumanRequests.Continuity
import MetaResearch.Soundness.HumanRequests.Replays
import MetaResearch.Soundness.Bundle.Streams
import MetaResearch.Soundness.Bundle.ByteBudget
import MetaResearch.Model.Reasoning.Metadata
import MetaResearch.Soundness.Reasoning.Assembly
import MetaResearch.Model.Retention.Boundaries
import MetaResearch.Soundness.Retention.Boundaries
import MetaResearch.Model.Bundle.BatchView
import MetaResearch.Soundness.Bundle.BatchView
import MetaResearch.Soundness.Plan.Accounts
import MetaResearch.Model.ExperimentLogs.Reader
import MetaResearch.Soundness.ExperimentLogs.Forward
import MetaResearch.Model.Idea.IdeaContract
import MetaResearch.Soundness.ExperimentLogs.Backward
import MetaResearch.Soundness.Idea.MaterialHash
import MetaResearch.Model.Plan.ContextPack
import MetaResearch.Soundness.Plan.Totality
import MetaResearch.Soundness.RawOutput.IncompleteEvents
import MetaResearch.Soundness.Bundle.HandoffErrors
import MetaResearch.Soundness.Bundle.Totality
import MetaResearch.Soundness.Bundle.Replan
import MetaResearch.Model.ReadSnapshot.Cache
import MetaResearch.Soundness.ReadSnapshot.Transparency
import MetaResearch.Model.RuntimeProtection.EventLog
import MetaResearch.Soundness.RuntimeProtection.Rotation
import MetaResearch.Model.ProviderSupervisor.Capture
import MetaResearch.Soundness.ProviderSupervisor.Capture
import MetaResearch.Model.Evidence.Catalog
import MetaResearch.ToMathlib.LeastByKey
import MetaResearch.Soundness.Evidence.Slices
import MetaResearch.Soundness.Evidence.Pages
import MetaResearch.Soundness.Evidence.Coverage
import MetaResearch.ToMathlib.JsonDecode
import MetaResearch.ToMathlib.JsonDecodeLaws
import MetaResearch.Model.ChatProgress.AnswerText
import MetaResearch.Soundness.ChatProgress.StringPrefix
import MetaResearch.Soundness.ChatProgress.Prefixes
import MetaResearch.Model.ChatProgress.ReplyProgress
import MetaResearch.Soundness.ChatProgress.Bound
import MetaResearch.Soundness.ChatProgress.Stream
import MetaResearch.Model.Bundle.DependencyLoop
import MetaResearch.Soundness.Bundle.Acyclic
import MetaResearch.Soundness.HumanRequests.Expiry
import MetaResearch.Soundness.HumanRequests.Waiters
import MetaResearch.Soundness.RuntimeProtection.Evolution
import MetaResearch.Soundness.RuntimeProtection.FailClosed
import MetaResearch.Soundness.RuntimeProtection.Settlement
import MetaResearch.Model.AssetLifecycle.Owner
import MetaResearch.Soundness.AssetLifecycle.Chain
import MetaResearch.Soundness.AssetLifecycle.Readers
import MetaResearch.Soundness.AssetLifecycle.Steps
import MetaResearch.Soundness.AssetLifecycle.Runs
import MetaResearch.Model.RuntimeConditions.Prompt
import MetaResearch.Soundness.RuntimeConditions.Prompt
import MetaResearch.Model.RuntimeConditions.Store
import MetaResearch.Soundness.RuntimeConditions.Register
import MetaResearch.Soundness.RuntimeConditions.Linearizable
