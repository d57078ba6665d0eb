import MoteKernel.Lib.Checked
import MoteKernel.Lib.Canonical
import MoteKernel.Lib.Dict
import MoteKernel.Lib.Digraph
import MoteKernel.Lib.Rectangle
import MoteKernel.Lib.Trace
import MoteKernel.Lib.OrderedQueues
import MoteKernel.Lib.LengthPrefix
import MoteKernel.Lib.Loop
import MoteKernel.Lib.AsciiJson
import MoteKernel.Lib.Utf16
import MoteKernel.Lib.Bdd
import MoteKernel.Lib.SymbolicReach
import MoteKernel.State.Identity
import MoteKernel.State.Text
import MoteKernel.State.ComposedIdentity
import MoteKernel.State.ResourceReducer
import MoteKernel.State.ResourceSteps
import MoteKernel.State.ResourceQueues
import MoteKernel.State.ResourceRelease
import MoteKernel.State.ResourceOrder
import MoteKernel.State.ResourceRuns
import MoteKernel.State.FrontierModel
import MoteKernel.State.Model
import MoteKernel.State.Validation
import MoteKernel.State.Transitions
import MoteKernel.State.Invariant
import MoteKernel.State.Steps
import MoteKernel.State.Preservation
import MoteKernel.State.Confirmation
import MoteKernel.State.SettleRelease
import MoteKernel.State.History
import MoteKernel.State.JoinHistory
import MoteKernel.State.InterruptHistory
import MoteKernel.State.ResumeLocal
import MoteKernel.Execution.Topology
import MoteKernel.Execution.DefinitionValidation
import MoteKernel.Execution.ControlAnalysis
import MoteKernel.Execution.Routing
import MoteKernel.Execution.ScopeIdentity
import MoteKernel.Execution.ControlSteps
import MoteKernel.Execution.Admission
import MoteKernel.Execution.JoinConservation
import MoteKernel.Execution.BddManager
import MoteKernel.Execution.BddTable
import MoteKernel.Execution.BddOperations
import MoteKernel.Execution.FrontierProof
import MoteKernel.Execution.Compiler
import MoteKernel.Execution.CompilerLoops
import MoteKernel.Execution.FrontierSteps
import MoteKernel.Execution.ControlRuns
import MoteKernel.Execution.CompiledControl
import MoteKernel.Execution.CompilerTermination
import MoteKernel.Execution.FrontierExact
import MoteKernel.Execution.ControlTrails
import MoteKernel.Execution.EdgeRuns
import MoteKernel.Execution.GuaranteedPredecessors
import MoteKernel.Execution.JoinSchedule
import MoteKernel.Execution.RouteRequirements
import MoteKernel.Execution.RouteSummaries
import MoteKernel.Execution.RouteRuns
import MoteKernel.Execution.RouteExactness
import MoteKernel.Execution.ControlSoundness
import MoteKernel.Execution.Settlement
import MoteKernel.Execution.SettleOrder
import MoteKernel.Execution.Frames
import MoteKernel.Execution.EvidenceCommitment
import MoteKernel.Execution.Commit
import MoteKernel.Execution.ChildProjection
import MoteKernel.Execution.FamilyDriver
import MoteKernel.Execution.ResumeInput
import MoteKernel.Execution.ValueBindings
import MoteKernel.Execution.DataFlow
import MoteKernel.Execution.RebuiltHistory
import MoteKernel.Execution.FrontierAdmission
import MoteKernel.Execution.EngineRuns
import MoteKernel.Execution.EngineProgress
import MoteKernel.Execution.Lineage
import MoteKernel.Execution.FramePartition
import MoteKernel.Execution.Session
import MoteKernel.Execution.SessionProgress
import MoteKernel.Execution.PlannedRuns
import MoteKernel.Execution.Superstep
import MoteKernel.Execution.FamilyAtomicity
import MoteKernel.Execution.NestedSettlement
import MoteKernel.Act.Contract
import MoteKernel.Act.Graph
import MoteKernel.Act.Authorization
import MoteKernel.Act.Resumable
import MoteKernel.Failover.Policy
import MoteKernel.Failover.Graph
import MoteKernel.Failover.Retries
import MoteKernel.Agent.CommitWriter
import MoteKernel.Observe.Contract
import MoteKernel.Observe.WaitCodec
import MoteKernel.Observe.Write
import MoteKernel.Observe.Settlement
import MoteKernel.Gateway.Api
import MoteKernel.Gateway.Catalog
import MoteKernel.Gateway.Generation
import MoteKernel.Gateway.Reasoning
