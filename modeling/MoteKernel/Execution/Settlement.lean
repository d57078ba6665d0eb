import MoteKernel.Execution.Routing

/-!
# Snapshot guard and settlement projection

`execution/engine/snapshot_guard.py`, `execution/engine/task.py`,
`execution/engine/settlement.py` and the resume-codec check of
`execution/engine/resume_input.py`.

A successful task carries an output frame; settlement reads only the Config
attached to it, so `TaskResult.success` keeps that Config and leaves the values
out.
-/

namespace MoteKernel
open Checked Canonical

variable {τ : Type}

/-! ## The snapshot guard -/

/-- `require_resume_input_binding`. -/
def requireResumeInputBinding (graph : CompiledGraph τ) (state : GraphRunState) :
    Except ExecutionError Unit :=
  match graph.resumeInput, state.resumeInputCodec with
  | none, none => return ()
  | some binding, some codec =>
      raiseIf (binding.codecId ≠ codec.codecId ∨ binding.version ≠ codec.version)
        ⟨.snapshotMismatch, "compiled graph resume input codec does not match durable graph state"⟩
  | _, _ => throw
      ⟨.snapshotMismatch, "compiled graph resume input codec does not match durable graph state"⟩

/-- The resources a pending callable node requires, for the nodes that require some. -/
def requiredResources (graph : CompiledGraph τ) (state : GraphRunState) :
    Dict GraphNodeId (List ResourceId) :=
  Dict.build ((pendingNodeIds state.frontier).filter (fun nodeId =>
      ((graph.nodes.get? nodeId).map GraphNode.resources).getD [] ≠ []))
    (fun nodeId => ((graph.nodes.get? nodeId).map GraphNode.resources).getD [])

/-- The resource part of `require_snapshot_matches_graph`. -/
def requireResourceSnapshot (graph : CompiledGraph τ) (state : GraphRunState) :
    Except ExecutionError Unit :=
  let required := requiredResources graph state
  if required.items = [] then
    raiseIf (state.resources ≠ none)
      ⟨.invalidExecutionSnapshot, "resource-free pending nodes cannot retain acquisitions"⟩
  else do
    let resources ← orRaise
      ⟨.invalidExecutionSnapshot, "active resource participants require the compiled resource snapshot"⟩
      state.resources
    raiseIf (resources.resources.map (·.resourceId) ≠ graph.transition.resourceOrder)
      ⟨.invalidExecutionSnapshot, "active resource participants require the compiled resource snapshot"⟩
    raiseIf (¬ (Dict.build (resources.acquisitions.map (·.nodeId)) (fun nodeId =>
        ((resources.acquisitions.find? (fun item => item.nodeId = nodeId)).map
          (·.required)).getD [])).Same required)
      ⟨.invalidExecutionSnapshot,
        "resource acquisitions do not exactly match pending compiled requirements"⟩

/-- `if text is not None: raise InvalidExecutionSnapshotError(text)`. -/
def raiseText : Option String → Except ExecutionError Unit
  | none => return ()
  | some text => throw ⟨.invalidExecutionSnapshot, text⟩

/-- The checks of `require_snapshot_matches_graph` on a running graph. -/
def requireRunningSnapshot (graph : CompiledGraph τ) (state : GraphRunState) :
    Except ExecutionError Unit := do
  raiseIf (state.superstep = 0 ∧
      state.frontier.nodes.map (·.nodeId) ≠ graph.transition.entries)
    ⟨.invalidExecutionSnapshot,
      "initial frontier does not exactly match the compiled graph entries"⟩
  let declared ← declaredJoins graph
  raiseIf (∃ progress ∈ state.joinProgress, progress.occurrence.join ∉ declared.keys)
    ⟨.invalidExecutionSnapshot, "snapshot references unknown join progress"⟩
  let text ← frontierAdmissionError graph state
  raiseText text
  requireResumeInputBinding graph state
  checkAll (fun settled => validateRoutingContribution graph settled.1 settled.2)
    (routingContributions state.frontier)
  match state.execution with
  | none => return ()
  | some _ => requireResourceSnapshot graph state

/-- What a state validation error is raised as: only `GraphStateTransitionError` is caught. -/
def snapshotError : GraphStateError → ExecutionError
  | .transition message => ⟨.invalidExecutionSnapshot, message⟩
  | .value message => ⟨.value, message⟩

/-- `require_snapshot_matches_graph`. -/
def requireSnapshotMatchesGraph (graph : CompiledGraph τ) (state : GraphRunState) :
    Except ExecutionError Unit := do
  rethrow snapshotError (validateGraphRunState state)
  raiseIf (state.definitionId ≠ graph.definitionId ∨ state.definitionVersion ≠ graph.version)
    ⟨.snapshotMismatch, "graph run does not match the compiled graph identity and version"⟩
  let unknown := (state.frontier.nodes.map (·.nodeId)).filter (fun nodeId =>
    nodeId ∉ graph.nodes.keys)
  raiseIf (unknown ≠ [])
    ⟨.invalidExecutionSnapshot, "snapshot frontier contains unknown nodes: " ++ reprTuple unknown⟩
  if state.status ≠ .running then
    raiseText (settledActivationAdmissionError graph state)
  else
    requireRunningSnapshot graph state

/-! ## Task results -/

structure GraphTask where
  taskId : String
  runId : GraphRunId
  superstep : Nat
  nodeId : GraphNodeId
  deriving DecidableEq, Repr

/-- `task_identity`. -/
def taskIdentity (runId : GraphRunId) (superstep : Nat) (nodeId : GraphNodeId) : String :=
  toString runId.length ++ ":" ++ runId ++ ":" ++ toString superstep ++ ":" ++
    toString nodeId.length ++ ":" ++ nodeId

/-- The coordinate of the Config attached to an output frame. -/
structure ActivationConfig where
  definitionId : GraphDefinitionId
  definitionVersion : GraphDefinitionVersion
  revision : Nat
  digest : String
  deriving DecidableEq, Repr

/-- `Config.config_cursor`. -/
def ActivationConfig.configCursor (config : ActivationConfig) : GraphConfigCursor :=
  ⟨config.definitionId, config.definitionVersion, config.revision, some config.digest⟩

inductive TaskResult where
  | success (task : GraphTask) (activationConfig : Option ActivationConfig)
      (route : Option GraphRouteId)
  | failure (task : GraphTask) (failure : String)
  | interrupt (task : GraphTask) (requestPayload : Bytes)
  deriving DecidableEq, Repr

def TaskResult.task : TaskResult → GraphTask
  | .success task _ _ => task
  | .failure task _ => task
  | .interrupt task _ => task

/-- `require_settlement_execution_token`. -/
def requireSettlementExecutionToken (state : GraphRunState) :
    Except ExecutionError GraphExecutionToken :=
  orRaise ⟨.resultCollection, "settlement requires a committed execution lease"⟩
    (state.execution.map (·.token))

/-- The contribution of a successful task. -/
def routingOf : Option GraphRouteId → GraphRoutingContribution
  | none => .continueGraphRouting
  | some route => .selectGraphRoute route

/-- `project_success_settlement`. -/
def projectSuccessSettlement (graph : CompiledGraph τ) (state : GraphRunState)
    (nodeId : GraphNodeId) (route : Option GraphRouteId) (configCursor : Option GraphConfigCursor) :
    Except ExecutionError SettleGraphNode := do
  validateRoutingContribution graph nodeId (routingOf route)
  let token ← requireSettlementExecutionToken state
  return ⟨state.revision, token, .succeeded nodeId (routingOf route), configCursor, none⟩

/-- `project_failure_settlement`. -/
def projectFailureSettlement (state : GraphRunState) (nodeId : GraphNodeId) (failure : String) :
    Except ExecutionError SettleGraphNode := do
  let token ← requireSettlementExecutionToken state
  return ⟨state.revision, token, .failed nodeId failure, none, none⟩

/-- `project_interrupt_settlement`. -/
def projectInterruptSettlement (graph : CompiledGraph τ) (state : GraphRunState)
    (nodeId : GraphNodeId) (requestPayload : Bytes) : Except ExecutionError SettleGraphNode := do
  raiseIf (graph.resumeInput = none)
    ⟨.resultCollection, "node interrupt requires a resume input codec"⟩
  let token ← requireSettlementExecutionToken state
  return ⟨state.revision, token,
    .interrupted nodeId ⟨state.runId, state.superstep, nodeId, token.generation⟩ requestPayload,
    none, none⟩

/-- The command one result of a pending node projects to. -/
def projectSettlement (graph : CompiledGraph τ) (state : GraphRunState) :
    TaskResult → Except ExecutionError SettleGraphNode
  | .success task activationConfig route => projectSuccessSettlement graph state task.nodeId route
      (activationConfig.map ActivationConfig.configCursor)
  | .failure task failure => projectFailureSettlement state task.nodeId failure
  | .interrupt task requestPayload =>
      projectInterruptSettlement graph state task.nodeId requestPayload

/-- `settle_result`. -/
def settleResult (graph : CompiledGraph τ) (state : GraphRunState) (result : TaskResult) :
    Except ExecutionError SettleGraphNode := do
  requireSnapshotMatchesGraph graph state
  let _ ← requireSettlementExecutionToken state
  let task := result.task
  raiseIf (task.runId ≠ state.runId ∨ task.superstep ≠ state.superstep ∨
      task.taskId ≠ taskIdentity task.runId task.superstep task.nodeId)
    ⟨.resultCollection, "task result has invalid coordinates"⟩
  raiseIf (¬ ∃ node ∈ frontierNode state.frontier task.nodeId, node.settlement.isPending)
    ⟨.resultCollection, "task result does not reference a pending node"⟩
  projectSettlement graph state result

end MoteKernel
