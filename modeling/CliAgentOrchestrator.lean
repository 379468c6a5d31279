import CliAgentOrchestrator.Queue.Deadline
import CliAgentOrchestrator.Queue.Budget
import CliAgentOrchestrator.Queue.Quarantine
import CliAgentOrchestrator.Queue.Custody
import CliAgentOrchestrator.Wiring.Cursor
import CliAgentOrchestrator.Inbox.BarrierLife
import CliAgentOrchestrator.Inbox.Supersede
import CliAgentOrchestrator.Inbox.Combined
import CliAgentOrchestrator.Delivery.Wake
import CliAgentOrchestrator.Gate.Suspension
import CliAgentOrchestrator.Gate.Ownership
import CliAgentOrchestrator.Gate.RunBounds
import CliAgentOrchestrator.Workflow.Soundness
import CliAgentOrchestrator.Workflow.Consent
import CliAgentOrchestrator.Truth.ProducerError
import CliAgentOrchestrator.Truth.Fold
import CliAgentOrchestrator.Truth.TailOnce
import CliAgentOrchestrator.Workflow.EventGaps
import CliAgentOrchestrator.Workflow.ScriptCancel
import CliAgentOrchestrator.Workflow.Generation
import CliAgentOrchestrator.Workflow.Drives
import CliAgentOrchestrator.Workflow.YamlSettle
import CliAgentOrchestrator.Workflow.YamlOutput
import CliAgentOrchestrator.Archive.Structure
import CliAgentOrchestrator.Memory.IndexFaithful
import CliAgentOrchestrator.Memory.Concurrent
import CliAgentOrchestrator.Archive.DryRun
import CliAgentOrchestrator.Lease.InForce
import CliAgentOrchestrator.Teardown.Marked
import CliAgentOrchestrator.Orphan.JobsHonest
import CliAgentOrchestrator.Ledger.LifeCycle
import CliAgentOrchestrator.Ledger.OnePush
import CliAgentOrchestrator.Wiring.Starvation
import CliAgentOrchestrator.Workflow.FrozenOnce
import CliAgentOrchestrator.Wiring.Suppression
import CliAgentOrchestrator.Terminal.ChildrenCount
import CliAgentOrchestrator.Inbox.NoticeOnce
import CliAgentOrchestrator.Conversation.BindingKept
import CliAgentOrchestrator.Conversation.IncarnationKept
import CliAgentOrchestrator.EventStream.Lossless
import CliAgentOrchestrator.SpecIndex.LookupKept
import CliAgentOrchestrator.Findings.LifeCycle
import CliAgentOrchestrator.Findings.Disagreement
import CliAgentOrchestrator.Workflow.StepFingerprint
import CliAgentOrchestrator.Workflow.PlanIdentifier
import CliAgentOrchestrator.Gate.ArtifactAddress
import CliAgentOrchestrator.Workflow.Settle
import CliAgentOrchestrator.Workflow.RunOutput
import CliAgentOrchestrator.Memory.ReplaceExact
import CliAgentOrchestrator.EventStream.StateDelta
import CliAgentOrchestrator.Terminal.QuestionState
import CliAgentOrchestrator.Orphan.AttemptProven
import CliAgentOrchestrator.Terminal.IdScanExact
