import MoteKernel.Observe.Contract

/-!
# Observe admission and the write node

`observe/admission.py` and `WriteObservationNode` of `observe/node.py`. The two
Ports are the ones the activation's Config selects; each answers with a value
the node has not yet admitted.
-/

namespace MoteKernel.Observe
open Checked

variable {π η κ γ : Type}

/-! ## Admission -/

/-- `ObservePayloadAdmission`: the exact classes it names, as predicates. -/
structure ObservePayloadAdmission (π η κ : Type) where
  isHookState : η → Bool
  isHookCommand : κ → Bool
  isPayload : ObservationFamily → π → Bool

/-- `DELIVERY_MAX_COUNT`. -/
def deliveryMaxCount : Nat := 4096

/-- `_revalidate`: only an `ObserveContractError` passes unchanged. -/
def revalidate {α : Type} (fieldName : String) (x : Except ObserveError α) :
    Except ObserveError α :=
  rethrow (fun error => if error.kind = .contract then error
    else ⟨.contract, fieldName ++ " is malformed"⟩) x

def admitCursor (cursor : ObservationCursor) : Except ObserveError Unit :=
  revalidate "observation cursor" cursor.validate

def admitBoundary (boundary : ObservationBoundary) : Except ObserveError Unit := do
  revalidate "observation boundary" boundary.validate
  admitCursor boundary.cursorBefore
  admitCursor boundary.cursorAfter

def admitCursorRange (range : CursorRange) : Except ObserveError Unit := do
  revalidate "cursor range" range.validate
  admitCursor range.before
  admitCursor range.after

def admitBlockingTask (task : BlockingTaskRef) : Except ObserveError Unit :=
  revalidate "blocking task reference" task.validate

def admitDeliveryId (deliveryId : DeliveryId) : Except ObserveError Unit :=
  revalidate "delivery id" deliveryId.validate

def admitAckReference (reference : DeliveryAckReference) : Except ObserveError Unit := do
  revalidate "delivery ack reference" reference.validate
  contractIf (deliveryMaxCount < reference.deliveryIds.length)
    "delivery ack reference exceeds its delivery limit"
  checkAll admitDeliveryId reference.deliveryIds

def admitDeliveryIds (ids : List DeliveryId) (fieldName : String) :
    Except ObserveError Unit := do
  contractIf (ids = []) (fieldName ++ " must be a non-empty tuple")
  contractIf (deliveryMaxCount < ids.length) (fieldName ++ " exceeds its delivery limit")
  checkAll admitDeliveryId ids
  contractIf (¬ ids.Nodup) (fieldName ++ " must contain distinct delivery ids")

def admitTaskSnapshot (snapshot : BackgroundTaskSnapshot) : Except ObserveError Unit := do
  let canonical ← revalidate "background task snapshot"
    (BackgroundTaskSnapshot.make snapshot.observationRevision snapshot.blockingTasks)
  checkAll admitBlockingTask snapshot.blockingTasks
  contractIf (snapshot.blockingTasks ≠ canonical.blockingTasks)
    "background task snapshot blocking_tasks are not canonical"

/-- The parts `admit_config_receipt` and `admit_context_receipt` share. -/
def admitReceipt (receipt : SettlementReceipt) (idsField : String)
    (validated : Except ObserveError Unit) (fieldName : String) : Except ObserveError Unit := do
  revalidate fieldName validated
  admitDeliveryIds receipt.deliveryIds idsField
  admitBoundary receipt.readBoundary
  admitBoundary receipt.settlementBoundary
  checkAll admitTaskSnapshot receipt.backgroundTaskSnapshot.toList

def admitConfigReceipt (receipt : SettlementReceipt) : Except ObserveError Unit :=
  admitReceipt receipt "Config settlement delivery_ids" (validateConfigReceipt receipt)
    "Config settlement receipt"

/-- `admit_config_apply_result`; a `Config` of the right type is admitted. -/
def admitConfigApplyResult (result : ConfigApplyResult γ) : Except ObserveError Unit :=
  admitConfigReceipt result.receipt

def admitContextReceipt (receipt : ContextAppendReceipt) : Except ObserveError Unit :=
  admitReceipt receipt.toSettlementReceipt "Context append delivery_ids"
    (validateContextReceipt receipt) "Context append receipt"

def admitBatchReceipt (receipt : ObservationBatchReceipt) : Except ObserveError Unit := do
  revalidate "observation batch receipt" receipt.validate
  checkAll admitConfigReceipt receipt.configReceipt.toList
  checkAll admitContextReceipt receipt.contextReceipt.toList
  admitBoundary receipt.readBoundary
  admitBoundary receipt.settlementBoundary
  admitAckReference receipt.ackReference

def admitResult (result : ObserveResult) : Except ObserveError Unit := do
  revalidate "Observe result" result.validate
  admitCursorRange result.cursorRange
  admitBatchReceipt result.observationReceipt
  admitTaskSnapshot result.backgroundTaskSnapshot

namespace ObservePayloadAdmission

variable (admission : ObservePayloadAdmission π η κ)

/-- The name of an observation class in `admit_observation`. -/
def observationField : ObservationFamily → String
  | .config => "Config observation"
  | .tool => "Tool observation"
  | .user => "User observation"
  | .assistant => "Assistant observation"

def admitObservation (observation : Observation π) : Except ObserveError Unit :=
  contractIf (admission.isPayload observation.family observation.payload = false)
    (observationField observation.family ++ " payload has an unexpected concrete type")

def admitDelivery (delivery : ObservationDelivery π) : Except ObserveError Unit := do
  revalidate "observation delivery" delivery.validate
  admitDeliveryId delivery.deliveryId
  admitCursor delivery.cursorBefore
  admitCursor delivery.cursorAfter
  admission.admitObservation delivery.payload

def admitBatch (batch : ObservationBatch π) : Except ObserveError Unit := do
  revalidate "observation batch" batch.validate
  contractIf (deliveryMaxCount < batch.deliveries.length)
    "observation batch exceeds its delivery limit"
  checkAll admission.admitDelivery batch.deliveries

/-- `admit_batch_subset`. -/
def admitBatchSubset (batch : FamilyBatch π) (fieldName : String) : Except ObserveError Unit := do
  contractIf (batch.deliveries = []) (fieldName ++ " deliveries must be a non-empty tuple")
  contractIf (deliveryMaxCount < batch.deliveries.length)
    (fieldName ++ " exceeds its delivery limit")
  revalidate fieldName batch.validate
  checkAll admission.admitDelivery batch.deliveries

def admitConfigBatch (batch : FamilyBatch π) : Except ObserveError Unit := do
  revalidate "config batch" batch.validate
  admission.admitBatchSubset batch "config batch"

def admitContextBatch (batch : FamilyBatch π) : Except ObserveError Unit := do
  revalidate (FamilyBatch.fieldName batch.family) batch.validate
  admission.admitBatchSubset batch "context batch"

def admitFrame (frame : ObserveFrame π) : Except ObserveError Unit := do
  revalidate "Observe frame" frame.validate
  admission.admitBatch frame.batch
  admitBoundary frame.boundary
  admitTaskSnapshot frame.backgroundTaskSnapshot

def admitStageValue : ObserveStageValue π → Except ObserveError Unit
  | .getObservationStageValue frame => admission.admitFrame frame
  | .writeObservationStageValue result => admitResult result

/-- `_concrete_state`. -/
def concreteState (state : η) (fieldName : String) : Except ObserveError Unit :=
  contractIf (admission.isHookState state = false)
    (fieldName ++ " has an unexpected concrete state type")

/-- `_concrete_command`. -/
def concreteCommand (command : κ) (fieldName : String) : Except ObserveError Unit :=
  contractIf (admission.isHookCommand command = false)
    (fieldName ++ " has an unexpected concrete command type")

def admitHookEnvelope (envelope : ObserveHookEnvelope π η) : Except ObserveError Unit := do
  revalidate "Observe Hook envelope" envelope.validate
  admission.admitStageValue envelope.payload
  admission.concreteState envelope.hookState "Observe Hook envelope hook_state"

end ObservePayloadAdmission

/-- `_expected_hook_node`. -/
def expectedHookNode : ObserveHookStage → GraphNodeId
  | .afterGetObservation => "get_observation"
  | .afterWriteObservation => "write_observation"

namespace ObservePayloadAdmission

variable (admission : ObservePayloadAdmission π η κ)

def admitHookRequest [DecidableEq η] (request : HookActivationRequest π η) :
    Except ObserveError Unit := do
  revalidate "Observe Hook activation" request.validate
  admission.admitHookEnvelope request.value
  admission.concreteState request.state "Observe Hook request state"
  contractIf (request.state ≠ request.value.hookState)
    "Observe Hook request state does not match its envelope"
  contractIf (request.nodeId ≠ some (expectedHookNode request.value.stage))
    "Observe Hook request node_id does not match its stage"

def admitHookResult (result : HookResult π η κ) : Except ObserveError Unit := do
  revalidate "Observe Hook result" result.validate
  admission.admitHookEnvelope result.value
  checkAll (fun command => admission.concreteCommand command "Observe Hook command")
    result.commands
  contractIf (result.nodeId ≠ some (expectedHookNode result.value.stage))
    "Observe Hook result node_id does not match its stage"

end ObservePayloadAdmission

/-! ## The write node -/

/-- The two Ports of one activation, as the answers they give. -/
structure ObservePorts (π γ : Type) where
  apply : FamilyBatch π → ConfigApplyResult γ
  append : FamilyBatch π → ContextAppendReceipt

/-- `ConfigActivation`. -/
structure ConfigActivation (α γ : Type) where
  value : α
  activationConfig : Option (Config γ) := none
  deriving DecidableEq, Repr

/-- One part of a settlement identity. -/
def settlementField (part : String) : String :=
  toString part.utf8ByteSize ++ ":" ++ part

/-- The parts of a settlement identity. The sequence is written whatever its length, where `str`
stops at 4300 digits. -/
def settlementParts (boundary : ObservationBoundary) (configReceipt : Option SettlementReceipt)
    (contextReceipt : Option ContextAppendReceipt) : List String :=
  ["mote.observe.settlement.v1", boundary.streamId, toString boundary.cursorAfter.sequence] ++
    (match configReceipt with
      | some receipt => ["config", receipt.settlementId]
      | none => []) ++
    (match contextReceipt with
      | some receipt => ["context", receipt.settlementId]
      | none => [])

/-- The text `_settlement_id` composes. -/
def composedSettlementId (boundary : ObservationBoundary)
    (configReceipt : Option SettlementReceipt) (contextReceipt : Option ContextAppendReceipt) :
    String :=
  String.join ((settlementParts boundary configReceipt contextReceipt).map settlementField)

/-- `_settlement_id`. -/
def settlementIdOf (boundary : ObservationBoundary) (configReceipt : Option SettlementReceipt)
    (contextReceipt : Option ContextAppendReceipt) : Except ObserveError String := do
  let composed := composedSettlementId boundary configReceipt contextReceipt
  contractIf (256 < composed.utf8ByteSize)
    "observation settlement identity exceeds its 256-byte limit"
  return composed

/-- `supplied` of `_snapshot_for_settlement`. -/
def suppliedSnapshots (configReceipt : Option SettlementReceipt)
    (contextReceipt : Option ContextAppendReceipt) : List BackgroundTaskSnapshot :=
  (configReceipt.bind (·.backgroundTaskSnapshot)).toList ++
    (contextReceipt.bind (·.backgroundTaskSnapshot)).toList

/-- `_snapshot_for_settlement`. -/
def snapshotForSettlement (frame : ObserveFrame π) (boundary : ObservationBoundary)
    (configReceipt : Option SettlementReceipt) (contextReceipt : Option ContextAppendReceipt) :
    Except ObserveError BackgroundTaskSnapshot := do
  let supplied := suppliedSnapshots configReceipt contextReceipt
  let selected := supplied.head?.getD frame.backgroundTaskSnapshot
  contractIf (∃ candidate ∈ supplied, candidate ≠ selected)
    "settlement returned conflicting task snapshots"
  contractIf (boundary = frame.boundary ∧ selected ≠ frame.backgroundTaskSnapshot)
    "settlement changed the task snapshot without advancing its boundary"
  return selected

/-- `_context_batch`. -/
def contextBatch (batch : ObservationBatch π) : Except ObserveError (Option (FamilyBatch π)) := do
  match ← batch.tool with
  | some tool => return some tool
  | none =>
      match ← batch.user with
      | some user => return some user
      | none => batch.assistant

/-- The Config half of `WriteObservationNode.__call__`. -/
def settleConfig (admission : ObservePayloadAdmission π η κ) (ports : ObservePorts π γ)
    (frame : ObserveFrame π) : Except ObserveError (Option (ConfigApplyResult γ)) := do
  match ← frame.batch.config with
  | none => return none
  | some batch => do
      admission.admitConfigBatch batch
      let applied := ports.apply batch
      admitConfigApplyResult applied
      contractIf (applied.receipt.readBoundary ≠ frame.boundary)
        "Config settlement receipt read boundary does not match observation frame"
      let ids ← batch.deliveryIds
      contractIf (applied.receipt.deliveryIds ≠ ids)
        "Config settlement receipt does not cover the complete Config batch"
      return some applied

/-- The Context half of `WriteObservationNode.__call__`. -/
def settleContext (admission : ObservePayloadAdmission π η κ) (ports : ObservePorts π γ)
    (frame : ObserveFrame π) : Except ObserveError (Option ContextAppendReceipt) := do
  match ← contextBatch frame.batch with
  | none => return none
  | some batch => do
      admission.admitContextBatch batch
      let receipt := ports.append batch
      admitContextReceipt receipt
      contractIf (receipt.readBoundary ≠ frame.boundary)
        "Context settlement receipt read boundary does not match observation frame"
      let ids ← batch.deliveryIds
      contractIf (receipt.deliveryIds ≠ ids)
        "Context settlement receipt does not cover the complete Context batch"
      contractIf (frame.batch.nonConfigFamilies.head? ≠ some receipt.family)
        "Context settlement receipt family does not match observation batch"
      return some receipt

/-- The settlement boundary the receipts agree on. -/
def settlementBoundaryOf (frame : ObserveFrame π) (configReceipt : Option SettlementReceipt)
    (contextReceipt : Option ContextAppendReceipt) : Except ObserveError ObservationBoundary := do
  let boundaries := (configReceipt.map (·.settlementBoundary)).toList ++
    (contextReceipt.map (·.settlementBoundary)).toList
  let selected := boundaries.head?.getD frame.boundary
  contractIf (∃ candidate ∈ boundaries, candidate ≠ selected)
    "Config and Context receipts disagree on settlement boundary"
  return selected

/-- A successor keeps the graph identity and is the next revision. -/
def Config.Advances (current candidate : Config γ) : Prop :=
  candidate.key.definitionId = current.key.definitionId ∧
    candidate.key.definitionVersion = current.key.definitionVersion ∧
    candidate.key.revision = current.key.revision + 1

instance (current candidate : Config γ) : Decidable (current.Advances candidate) :=
  inferInstanceAs (Decidable (_ ∧ _ ∧ _))

/-- The Config the activation publishes. -/
def successorConfigOf (current successor : Option (Config γ)) :
    Except ObserveError (Option (Config γ)) :=
  match successor with
  | none => return current
  | some candidate => do
      contractIf (∃ config ∈ current, ¬ config.Advances candidate)
        "Config successor must preserve graph identity and advance its snapshot revision"
      return some candidate

/-- The constructors of the receipt and the result, from the settled values on. -/
def observeResultOf (frame : ObserveFrame π) (configReceipt : Option SettlementReceipt)
    (contextReceipt : Option ContextAppendReceipt) (boundary : ObservationBoundary)
    (snapshot : BackgroundTaskSnapshot) (settlementId : String) (ids : List DeliveryId) :
    ObserveResult :=
  let receipt : ObservationBatchReceipt := ⟨frame.boundary, boundary, configReceipt,
    contextReceipt, ⟨frame.boundary.streamId, ids, settlementId⟩⟩
  ⟨receipt.currentState, ids, ⟨boundary.cursorBefore, boundary.cursorAfter⟩, snapshot, receipt⟩

/-- `WriteObservationNode.__call__`, from the receipts on. -/
def publishSettlement [DecidableEq η] (admission : ObservePayloadAdmission π η κ)
    (current : Option (Config γ)) (frame : ObserveFrame π) (hookState : η)
    (configApplyResult : Option (ConfigApplyResult γ))
    (contextReceipt : Option ContextAppendReceipt) :
    Except ObserveError (ConfigActivation (HookActivationRequest π η) γ) := do
  let configReceipt := configApplyResult.map ConfigApplyResult.receipt
  let boundary ← settlementBoundaryOf frame configReceipt contextReceipt
  let snapshot ← snapshotForSettlement frame boundary configReceipt contextReceipt
  let ids ← frame.batch.deliveryIds
  let settlementId ← settlementIdOf boundary configReceipt contextReceipt
  let result := observeResultOf frame configReceipt contextReceipt boundary snapshot settlementId ids
  result.observationReceipt.ackReference.validate
  result.observationReceipt.validate
  let successor ← successorConfigOf current
    (configApplyResult.bind ConfigApplyResult.successorConfig)
  let _ ← boundary.cursorRange
  result.validate
  let envelope : ObserveHookEnvelope π η :=
    ⟨.afterWriteObservation, .writeObservationStageValue result, hookState⟩
  envelope.validate
  let request : HookActivationRequest π η := ⟨envelope, hookState, some "write_observation"⟩
  request.validate
  admission.admitHookRequest request
  return ⟨request, successor⟩

/-- `WriteObservationNode.__call__`, for the Ports it has selected: before it calls them it binds
the Config of the activation, compares the bound admission with its own and takes the Ports from
there. -/
def writeObservation [DecidableEq η] (admission : ObservePayloadAdmission π η κ)
    (ports : ObservePorts π γ) (activation : ConfigActivation (HookResult π η κ) γ) :
    Except ObserveError (ConfigActivation (HookActivationRequest π η) γ) := do
  admission.admitHookResult activation.value
  match activation.value.value.stage, activation.value.value.payload with
  | .afterGetObservation, .getObservationStageValue frame => do
      let configApplyResult ← settleConfig admission ports frame
      let contextReceipt ← settleContext admission ports frame
      publishSettlement admission activation.activationConfig frame
        activation.value.value.hookState configApplyResult contextReceipt
  | _, _ => throw ⟨.contract, "write_observation input must be an after-get Hook envelope"⟩

end MoteKernel.Observe
