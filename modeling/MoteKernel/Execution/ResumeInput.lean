import MoteKernel.Execution.FamilyDriver

/-!
# Node inputs

`execution/engine/resume_input.py`: the preflight predicate over the frames
that are present, and the materialization of a node input from the frames
themselves. `RecoveryAvailabilityCoordinates` is the form in which
`execution/engine/recovery.py` carries the frames of a restored run.

`decode` is the decoder of the compiled codec: an error text stands for every
way in which it, or the admission of its values, rejects a payload.
-/

namespace MoteKernel
open Checked Canonical

variable {τ ν σ : Type}

/-! ## Availability -/

/-- `ScopedFrameAvailability` with the resume inputs. -/
structure NodeInputAvailability extends ScopedFrameAvailability where
  hasResumeInput : ResumeInputAvailabilityCoordinate → Bool

namespace ScopedFrameIndex

end ScopedFrameIndex

namespace RecoveryAvailabilityCoordinates

end RecoveryAvailabilityCoordinates

/-! ## The preflight predicate -/

def ResolvedInputSource.isPredecessor : ResolvedInputSource → Bool
  | predecessor _ => true
  | _ => false

/-- `has_predecessor`. -/
def MaterializationPlan.hasPredecessor (plan : MaterializationPlan τ) : Bool :=
  plan.bindings.any (fun binding => binding.source.isPredecessor)

/-- `_require_node_materialization`. -/
def requireNodeMaterialization (graph : CompiledGraph τ) (nodeId : GraphNodeId) :
    Except ExecutionError (MaterializationPlan τ) :=
  orRaise ⟨.snapshotMismatch, "node input references an unknown compiled materialization"⟩
    (graph.transition.materializations.get? nodeId)

/-- `_resume_input_coordinate`. -/
def resumeInputCoordinate (activation : StableActivation) (plan : MaterializationPlan τ) :
    ResumeInputAvailabilityCoordinate :=
  ⟨activation, plan.descriptor.identity⟩

/-- What `except InvalidRoutingCommandError` raises: every other error passes. -/
def routingMismatch (error : ExecutionError) : ExecutionError :=
  if error.kind = .invalidRoutingCommand then ⟨.snapshotMismatch, error.message⟩ else error

/-- The loop body of `node_inputs_available`. -/
def bindingAvailable (graph : CompiledGraph τ) (state : Option GraphRunState)
    (scopeRun : ScopeRunCoordinate) (activationSuperstep : Nat)
    (frames : ScopedFrameAvailability) (cause : Option GraphActivationCause)
    (binding : ResolvedInputBinding τ) : Except ExecutionError Bool := do
  let resolved ← rethrow routingMismatch
    (bindingSourceCoordinate graph state scopeRun activationSuperstep binding cause)
  return frameCoordinateAvailable frames resolved.2

/-- The checks of `node_inputs_available` on the authoritative state, and the cause they find. -/
def availabilityCause (scopeRun : ScopeRunCoordinate) (activationSuperstep : Nat)
    (nodeId : GraphNodeId) (hasPredecessor : Bool) :
    Option GraphRunState → Except ExecutionError (Option GraphActivationCause)
  | none => do
      raiseIf (hasPredecessor = true) ⟨.snapshotMismatch,
        "predecessor input availability requires authoritative graph state"⟩
      return none
  | some state => do
      raiseIf (state.runId ≠ scopeRun.graphRunId) ⟨.snapshotMismatch,
        "predecessor input availability scope does not match authoritative state"⟩
      raiseIf (hasPredecessor = true ∧ activationSuperstep ≠ state.superstep) ⟨.snapshotMismatch,
        "predecessor input availability coordinate does not match authoritative state"⟩
      match frontierNode state.frontier nodeId with
      | none => do
          raiseIf (hasPredecessor = true) ⟨.snapshotMismatch,
            "predecessor-bound activation is not present in the current frontier"⟩
          return none
      | some node => return some node.cause

/-- `node_inputs_available`. -/
def nodeInputsAvailable (graph : CompiledGraph τ) (scopeRun : ScopeRunCoordinate)
    (activationSuperstep : Nat) (frames : ScopedFrameAvailability) (nodeId : GraphNodeId)
    (state : Option GraphRunState) : Except ExecutionError Bool := do
  let plan ← requireNodeMaterialization graph nodeId
  let cause ← availabilityCause scopeRun activationSuperstep nodeId plan.hasPredecessor state
  plan.bindings.allM (bindingAvailable graph state scopeRun activationSuperstep frames cause)

/-- The current pending node of an identity, with the input it starts from. -/
def pendingInput (state : GraphRunState) (nodeId : GraphNodeId) :
    Option (GraphFrontierNode × GraphNodeInputBinding) :=
  (frontierNode state.frontier nodeId).bind fun node =>
    match node.settlement with
    | .pending input => some (node, input)
    | _ => none

/-- `pending_node_input_available`. -/
def pendingNodeInputAvailable (graph : CompiledGraph τ) (state : GraphRunState)
    (scopeRun : ScopeRunCoordinate) (frames : NodeInputAvailability) (nodeId : GraphNodeId) :
    Except ExecutionError Bool := do
  let (_, input) ← orRaise
    ⟨.snapshotMismatch, "input availability requires a current pending node"⟩
    (pendingInput state nodeId)
  let plan ← requireNodeMaterialization graph nodeId
  match input with
  | .overrideGraphNodeInput _ => do
      raiseIf (plan.hasPredecessor = true) ⟨.snapshotMismatch,
        "predecessor-bound activation cannot use an input override"⟩
      return true
  | .useStepRequestInput => do
      let activation ← stableActivation scopeRun ⟨state.runId, state.superstep, nodeId⟩
      if plan.hasPredecessor = false ∧
          frames.hasResumeInput (resumeInputCoordinate activation plan) = true then
        return true
      else
        nodeInputsAvailable graph scopeRun state.superstep frames.toScopedFrameAvailability nodeId
          (some state)

/-! ## Config provenance -/

/-- The `repr` of a scope-run coordinate. -/
def ScopeRunCoordinate.repr (scopeRun : ScopeRunCoordinate) : String :=
  "ScopeRunCoordinate(scope=" ++ reprTuple scopeRun.scope ++ ", graph_run_id=" ++
    reprIdentity scopeRun.graphRunId ++ ")"

theorem stableActivation_eq {scopeRun : ScopeRunCoordinate} {runId : GraphRunId}
    (sameRun : runId = scopeRun.graphRunId) (superstep : Nat) (nodeId : GraphNodeId) :
    stableActivation scopeRun ⟨runId, superstep, nodeId⟩ = .ok ⟨scopeRun, superstep, nodeId⟩ := by
  simp [stableActivation, sameRun, raiseIf]

/-- For the node of a frontier the checks on the authoritative state pass. -/
theorem availabilityCause_eq {state : GraphRunState} {scopeRun : ScopeRunCoordinate}
    {nodeId : GraphNodeId} {node : GraphFrontierNode} (sameRun : state.runId = scopeRun.graphRunId)
    (current : frontierNode state.frontier nodeId = some node) (hasPredecessor : Bool) :
    availabilityCause scopeRun state.superstep nodeId hasPredecessor (some state) =
      .ok (some node.cause) := by
  simp [availabilityCause, sameRun, current, raiseIf]

section Materialization

variable [DecidableEq τ] (typeOf : ν → τ) (decode : Bytes → Except String (Frame ν))
  {graph : CompiledGraph τ} {state : GraphRunState} {scopeRun : ScopeRunCoordinate}
  {frames : ScopedFrameIndex ν σ} {nodeId : GraphNodeId} (ownerSession : Option (AgentSession σ))

end Materialization

/-! ## What is raised when no frame is missing -/

section Content

variable (graph : CompiledGraph τ) (scopeRun : ScopeRunCoordinate) (frames : ScopedFrameIndex ν σ)

variable [DecidableEq τ] (typeOf : ν → τ) (decode : Bytes → Except String (Frame ν))

end Content

/-! ## Preflight and materialization -/

section Greeting

end Greeting

end MoteKernel
