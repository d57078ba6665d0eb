import MoteKernel.Lib.Checked
import MoteKernel.State.FrontierModel

/-!
# Act values and their admission

The immutable values of `act/contract.py` that cross the Act graph, and the
checks of `act/admission.py` on them. `σ` is the type of the owner's Hook states
and `κ` of its Hook commands; whether such a value has the concrete class the
assembly names is a predicate of the admission. The exact-class checks of the
other values are the types here, and a `ResumedAuthorization` carries the pairing
its constructor checks.
-/

namespace MoteKernel.Act
open Checked

/-- `ActContractError`. -/
structure ActContractError where
  message : String
  deriving DecidableEq, Repr

/-! ## Requests and resolution -/

structure ToolPairingIdentity where
  scope : String
  invocation : String
  toolCallId : String
  deriving DecidableEq, Repr

structure ActRequest (σ : Type) where
  pairing : ToolPairingIdentity
  selector : String
  arguments : Bytes
  caller : Bytes
  hookState : σ
  deriving DecidableEq, Repr

structure CanonicalArguments where
  payload : Bytes
  digest : Bytes
  deriving DecidableEq, Repr

structure ResolvedInvocation (σ : Type) where
  request : ActRequest σ
  definition : String
  binding : String
  arguments : CanonicalArguments
  deriving DecidableEq, Repr

/-- The closed result family of `ResolvePort`. -/
inductive ResolvePortResult (σ : Type) where
  | resolvedInvocation (resolved : ResolvedInvocation σ)
  | resolutionStopped (reason : String)

/-! ## Authorization -/

inductive AuthorizationDecision where
  | allow
  | deny
  deriving DecidableEq, Repr

structure AuthorizationRequestRef where
  pairing : ToolPairingIdentity
  handle : Bytes
  deriving DecidableEq, Repr

/-- `ResumedAuthorization`, with the pairing test of its `__post_init__`. -/
structure ResumedAuthorization (σ : Type) where
  resolved : ResolvedInvocation σ
  requestRef : AuthorizationRequestRef
  decision : AuthorizationDecision
  paired : requestRef.pairing = resolved.request.pairing
  deriving DecidableEq

inductive AuthorizationPhase (σ : Type) where
  | initialAuthorization (resolved : ResolvedInvocation σ)
  | resumedAuthorization (resumed : ResumedAuthorization σ)
  deriving DecidableEq

structure AuthorizationInput (σ : Type) where
  phase : AuthorizationPhase σ
  deriving DecidableEq

structure AuthorizedInvocation (σ : Type) where
  resolved : ResolvedInvocation σ
  deriving DecidableEq, Repr

/-! ## Execution and settlement -/

structure ToolExecutionIdentity where
  pairing : ToolPairingIdentity
  binding : String
  argumentsDigest : Bytes
  deriving DecidableEq, Repr

structure ToolExecutionResult where
  identity : ToolExecutionIdentity
  outcome : Bytes
  deriving DecidableEq, Repr

/-- The closed result family of `ExecutePort`. -/
inductive ExecutePortResult where
  | toolExecutionResult (result : ToolExecutionResult)
  | executionStopped (reason : String)

structure SettlementProjection where
  sourceIdentity : ToolExecutionIdentity
  payload : Bytes
  deriving DecidableEq, Repr

structure ToolExchangeWriteResult where
  receipt : Bytes
  deriving DecidableEq, Repr

structure SettledActResult where
  projection : SettlementProjection
  receipt : Bytes
  deriving DecidableEq, Repr

/-! ## Hook values -/

/-- `ActHookStage`: the business node whose value enters the shared Hook. -/
inductive ActHookStage where
  | resolve
  | authorize
  | execute
  | settle
  deriving DecidableEq, Repr

/-- `_stage_node_id`. -/
def stageNodeId : ActHookStage → GraphNodeId
  | .resolve => "resolve"
  | .authorize => "authorize"
  | .execute => "execute"
  | .settle => "settle"

inductive ActStageValue (σ : Type) where
  | resolveStageValue (authorization : AuthorizationInput σ)
  | authorizeStageValue (invocation : AuthorizedInvocation σ)
  | executeStageValue (result : ToolExecutionResult)
  | settleStageValue (result : SettledActResult)
  deriving DecidableEq

structure ActHookEnvelope (σ : Type) where
  stage : ActHookStage
  payload : ActStageValue σ
  hookState : σ
  deriving DecidableEq

structure HookActivationRequest (σ : Type) where
  value : ActHookEnvelope σ
  state : σ
  nodeId : Option GraphNodeId := none
  deriving DecidableEq

structure HookStageResult (σ κ : Type) where
  value : ActHookEnvelope σ
  commands : List κ := []

structure HookResult (σ κ : Type) where
  value : ActHookEnvelope σ
  commands : List κ := []
  nodeId : Option GraphNodeId := none
  deriving DecidableEq

/-! ## Admission -/

/-- `ActPayloadAdmission`: which Hook states and commands have the named concrete class. -/
structure ActPayloadAdmission (σ κ : Type) where
  hookStateType : σ → Bool
  hookCommandType : κ → Bool

/-- `_INTERRUPT_PAYLOAD_MAX_BYTES`. -/
def interruptPayloadMaxBytes : Nat := 65536

/-- `admit_authorization_interrupt_payload`. -/
def admitInterruptPayload (payload : Bytes) : Except ActContractError Bytes := do
  raiseIf (interruptPayloadMaxBytes < payload.length)
    ⟨"authorization interrupt request_payload exceeds its 65536-byte limit"⟩
  return payload

/-- The payload class each stage carries, and what is raised for another one. -/
def stagePayload {σ : Type} (value : ActHookEnvelope σ) : Bool × String :=
  match value.stage, value.payload with
  | .resolve, .resolveStageValue _ => (true, "")
  | .authorize, .authorizeStageValue _ => (true, "")
  | .execute, .executeStageValue _ => (true, "")
  | .settle, .settleStageValue _ => (true, "")
  | .resolve, _ => (false, "Resolve Hook envelope has an invalid stage payload")
  | .authorize, _ => (false, "Authorize Hook envelope has an invalid stage payload")
  | .execute, _ => (false, "Execute Hook envelope has an invalid stage payload")
  | .settle, _ => (false, "Settle Hook envelope has an invalid stage payload")

namespace ActPayloadAdmission

variable {σ κ : Type} (admission : ActPayloadAdmission σ κ)

/-- `admit_hook_state`. -/
def admitHookState (value : σ) : Except ActContractError σ := do
  raiseIf (admission.hookStateType value = false)
    ⟨"Act Hook state has an unexpected concrete type"⟩
  return value

/-- `admit_hook_envelope`. -/
def admitHookEnvelope (value : ActHookEnvelope σ) : Except ActContractError Unit :=
  raiseIf ((stagePayload value).1 = false) ⟨(stagePayload value).2⟩

/-- `admit_hook_request`. -/
def admitHookRequest [DecidableEq σ] (value : HookActivationRequest σ) :
    Except ActContractError Unit := do
  admitHookEnvelope value.value
  raiseIf (admission.hookStateType value.state = false)
    ⟨"Act Hook request state has an unexpected concrete type"⟩
  raiseIf (admission.hookStateType value.value.hookState = false)
    ⟨"Act Hook envelope state has an unexpected concrete type"⟩
  raiseIf (value.state ≠ value.value.hookState) ⟨"Hook request state does not match"⟩
  raiseIf (∃ nodeId ∈ value.nodeId, nodeId ≠ stageNodeId value.value.stage)
    ⟨"Act Hook request node_id does not match its stage"⟩

/-- `admit_hook_result`. -/
def admitHookResult (result : HookResult σ κ) : Except ActContractError Unit := do
  admitHookEnvelope result.value
  raiseIf (admission.hookStateType result.value.hookState = false)
    ⟨"Act Hook result state has an unexpected concrete type"⟩
  raiseIf (∃ command ∈ result.commands, admission.hookCommandType command = false)
    ⟨"Act Hook commands have an unexpected concrete type"⟩
  raiseIf (∃ nodeId ∈ result.nodeId, nodeId ≠ stageNodeId result.value.stage)
    ⟨"Act Hook result node_id does not match its stage"⟩

/-- `admit_transition`: an Act Hook priority preserves its complete stage value. -/
def admitTransition [DecidableEq σ] (request : HookActivationRequest σ)
    (result : HookStageResult σ κ) : Except ActContractError Unit := do
  admission.admitHookRequest request
  admitHookEnvelope result.value
  raiseIf (admission.hookStateType result.value.hookState = false)
    ⟨"Act Hook stage result state has an unexpected concrete type"⟩
  raiseIf (∃ command ∈ result.commands, admission.hookCommandType command = false)
    ⟨"Act Hook stage commands have an unexpected concrete type"⟩
  raiseIf (result.value ≠ request.value) ⟨"Act Hook stage value does not match"⟩

end ActPayloadAdmission

/-- `admit_execution_result`. -/
def admitExecutionResult {σ : Type} (invocation : AuthorizedInvocation σ)
    (value : ToolExecutionResult) : Except ActContractError Unit := do
  raiseIf (value.identity.pairing ≠ invocation.resolved.request.pairing)
    ⟨"execution pairing does not match"⟩
  raiseIf (value.identity.binding ≠ invocation.resolved.binding)
    ⟨"execution binding does not match"⟩
  raiseIf (value.identity.argumentsDigest ≠ invocation.resolved.arguments.digest)
    ⟨"execution arguments digest does not match"⟩

/-- `admit_settlement_projection`. -/
def admitSettlementProjection (execution : ToolExecutionResult) (value : SettlementProjection) :
    Except ActContractError Unit :=
  raiseIf (value.sourceIdentity ≠ execution.identity)
    ⟨"settlement source identity does not match"⟩

end MoteKernel.Act
