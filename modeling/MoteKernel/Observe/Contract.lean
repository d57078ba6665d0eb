import Mathlib.Data.List.Sort
import MoteKernel.Lib.Checked
import MoteKernel.State.Identity

/-!
# Observe values

The values of `observe/identity.py` and `observe/contract.py` that cross the
write stage. A value may come from a provider without its constructor having
run, so each is plain data here and its `__post_init__` is a check of its own.
The exact-class checks on fields are the types.

`π` is the type of the payload objects, `η` of the owner's Hook states and `γ`
of the part of a Config that Observe never reads.
-/

namespace MoteKernel.Observe
open Checked

variable {π η κ γ : Type}

/-! ## Errors and texts -/

/-- `ObserveContractError`, `ObserveIdentityError` and `HookContractError`. -/
inductive ObserveErrorKind where
  | contract
  | identity
  | hook
  deriving DecidableEq, Repr

structure ObserveError where
  kind : ObserveErrorKind
  message : String
  deriving DecidableEq, Repr

/-- `raise ObserveContractError(message)` under a condition. -/
def contractIf (bad : Prop) [Decidable bad] (message : String) : Except ObserveError Unit :=
  raiseIf bad ⟨.contract, message⟩

/-- `raise ObserveIdentityError(message)` under a condition. -/
def identityIf (bad : Prop) [Decidable bad] (message : String) : Except ObserveError Unit :=
  raiseIf bad ⟨.identity, message⟩

/-- `_IDENTITY_MAX_BYTES`. -/
def identityMaxBytes : Nat := 256

/-- `_require_text`. -/
def requireText (value field : String) : Except ObserveError Unit := do
  identityIf (isCanonicalIdentity value = false)
    (field ++ " must be a non-empty trimmed single-line string")
  identityIf (identityMaxBytes < value.utf8ByteSize) (field ++ " exceeds its 256-byte limit")

/-- `_require_identifier`. -/
def requireIdentifier (value fieldName : String) : Except ObserveError Unit := do
  contractIf (isCanonicalIdentity value = false)
    (fieldName ++ " must be a canonical non-empty string")
  contractIf (identityMaxBytes < value.utf8ByteSize) (fieldName ++ " exceeds its 256-byte limit")

/-! ## Coordinates -/

structure DeliveryId where
  value : String
  deriving DecidableEq, Repr

def DeliveryId.validate (deliveryId : DeliveryId) : Except ObserveError Unit :=
  requireText deliveryId.value "delivery id"

/-- A position in one durable observation stream. -/
structure ObservationCursor where
  streamId : String
  sequence : Nat
  deriving DecidableEq, Repr

def ObservationCursor.validate (cursor : ObservationCursor) : Except ObserveError Unit :=
  requireText cursor.streamId "observation cursor stream_id"

structure CursorRange where
  before : ObservationCursor
  after : ObservationCursor
  deriving DecidableEq, Repr

def CursorRange.validate (range : CursorRange) : Except ObserveError Unit := do
  identityIf (range.before.streamId ≠ range.after.streamId)
    "cursor range cursors must use the same stream"
  identityIf (range.after.sequence < range.before.sequence)
    "cursor range after cannot move backwards"

/-- The atomic queue read boundary. -/
structure ObservationBoundary where
  streamId : String
  cursorBefore : ObservationCursor
  cursorAfter : ObservationCursor
  observationRevision : Nat
  deriving DecidableEq, Repr

namespace ObservationBoundary

def validate (boundary : ObservationBoundary) : Except ObserveError Unit := do
  requireText boundary.streamId "observation boundary stream_id"
  identityIf (boundary.cursorBefore.streamId ≠ boundary.streamId ∨
      boundary.cursorAfter.streamId ≠ boundary.streamId)
    "observation boundary cursors must use its stream_id"
  identityIf (boundary.cursorAfter.sequence < boundary.cursorBefore.sequence)
    "observation boundary cursor_after cannot move backwards"

/-- `ObservationBoundary.cursor_range`. -/
def cursorRange (boundary : ObservationBoundary) : Except ObserveError CursorRange := do
  let range : CursorRange := ⟨boundary.cursorBefore, boundary.cursorAfter⟩
  range.validate
  return range

end ObservationBoundary

structure BlockingTaskRef where
  taskId : String
  incarnation : Nat
  completionPolicy : String
  deriving DecidableEq, Repr

namespace BlockingTaskRef

def validate (task : BlockingTaskRef) : Except ObserveError Unit := do
  requireText task.taskId "blocking task id"
  requireText task.completionPolicy "blocking task completion_policy"

/-- The key blocking tasks are sorted by. -/
def sortKey (task : BlockingTaskRef) : String ×ₗ Nat ×ₗ String :=
  toLex (task.taskId, toLex (task.incarnation, task.completionPolicy))

end BlockingTaskRef

/-- The exact deliveries acknowledged after settlement. -/
structure DeliveryAckReference where
  streamId : String
  deliveryIds : List DeliveryId
  settlementId : String
  deriving DecidableEq, Repr

def DeliveryAckReference.validate (reference : DeliveryAckReference) :
    Except ObserveError Unit := do
  requireText reference.streamId "delivery ack stream_id"
  identityIf (reference.deliveryIds = []) "delivery ack delivery_ids must be a non-empty tuple"
  identityIf (¬ reference.deliveryIds.Nodup) "delivery ack delivery_ids must be distinct"
  requireText reference.settlementId "delivery ack settlement_id"

/-! ## Observations and deliveries -/

/-- The class of an observation. -/
inductive ObservationFamily where
  | config
  | tool
  | user
  | assistant
  deriving DecidableEq, Repr

/-- `NonConfigObservationFamily`. -/
inductive NonConfigObservationFamily where
  | tool
  | user
  | assistant
  deriving DecidableEq, Repr

/-- `ObservationKind`. -/
inductive ObservationKind where
  | config
  | tool
  | user
  | assistant
  deriving DecidableEq, Repr

/-- `_kind_for_family`. -/
def kindForFamily : NonConfigObservationFamily → ObservationKind
  | .tool => .tool
  | .user => .user
  | .assistant => .assistant

/-- The family a non-Config class belongs to. -/
def ObservationFamily.nonConfig : ObservationFamily → Option NonConfigObservationFamily
  | config => none
  | tool => some .tool
  | user => some .user
  | assistant => some .assistant

structure Observation (π : Type) where
  family : ObservationFamily
  payload : π
  deriving DecidableEq, Repr

structure ObservationDelivery (π : Type) where
  deliveryId : DeliveryId
  cursorBefore : ObservationCursor
  cursorAfter : ObservationCursor
  payload : Observation π
  observationRevision : Nat
  deriving DecidableEq, Repr

namespace ObservationDelivery

def validate (delivery : ObservationDelivery π) : Except ObserveError Unit := do
  contractIf (delivery.cursorBefore.streamId ≠ delivery.cursorAfter.streamId)
    "observation delivery cursors must use one stream"
  contractIf (delivery.cursorAfter.sequence ≤ delivery.cursorBefore.sequence)
    "observation delivery cursor_after must advance"

/-- `ObservationDelivery.stream_id`. -/
def streamId (delivery : ObservationDelivery π) : String :=
  delivery.cursorBefore.streamId

end ObservationDelivery

/-- The loop body of `_validate_delivery_sequence` and `_validate_family_batch`: the two differ in
the order they require of neighbouring cursors. -/
def validateNeighbours (first : ObservationDelivery π) (fieldName : String)
    (misplaced : ObservationDelivery π → ObservationDelivery π → Bool) (message : String)
    (pair : ObservationDelivery π × ObservationDelivery π) : Except ObserveError Unit := do
  contractIf (pair.2.streamId ≠ first.streamId) (fieldName ++ " deliveries must use one stream")
  contractIf (pair.2.observationRevision ≠ first.observationRevision)
    (fieldName ++ " deliveries must use one observation revision")
  contractIf (misplaced pair.1 pair.2 = true) (fieldName ++ message)

/-- `pairwise(deliveries)`. -/
def neighbours {α : Type} (items : List α) : List (α × α) :=
  items.zip items.tail

/-- `_validate_delivery_sequence`. -/
def validateDeliverySequence (fieldName : String) :
    List (ObservationDelivery π) → Except ObserveError Unit
  | [] => throw ⟨.contract, fieldName ++ " deliveries must be a non-empty tuple"⟩
  | first :: rest =>
      checkAll (validateNeighbours first fieldName
          (fun previous current => current.cursorBefore ≠ previous.cursorAfter)
          " deliveries must be contiguous FIFO cursors")
        (neighbours (first :: rest))

/-- `_delivery_ids`. -/
def deliveryIds (deliveries : List (ObservationDelivery π)) :
    Except ObserveError (List DeliveryId) := do
  let ids := deliveries.map (·.deliveryId)
  contractIf (¬ ids.Nodup) "observation deliveries must have distinct delivery ids"
  return ids

/-- `_is_fifo_subsequence`, on the part of `sequence` from the offset on. -/
def isFifoSubsequence {α : Type} [DecidableEq α] : List α → List α → Bool
  | [], _ => true
  | expected :: subset, sequence =>
      match sequence.dropWhile (fun item => item ≠ expected) with
      | [] => false
      | _ :: rest => isFifoSubsequence subset rest

/-! ## Batches -/

/-- `ConfigBatch`, `ToolBatch`, `UserBatch` and `AssistantBatch`: the deliveries of one class. -/
structure FamilyBatch (π : Type) where
  family : ObservationFamily
  deliveries : List (ObservationDelivery π)
  deriving DecidableEq, Repr

namespace FamilyBatch

/-- The field name of each batch class. -/
def fieldName : ObservationFamily → String
  | .config => "config batch"
  | .tool => "tool batch"
  | .user => "user batch"
  | .assistant => "assistant batch"

/-- `_validate_family_batch`. -/
def validate (batch : FamilyBatch π) : Except ObserveError Unit :=
  match batch.deliveries with
  | [] => throw ⟨.contract, fieldName batch.family ++ " deliveries must be a non-empty tuple"⟩
  | first :: rest => do
      checkAll (validateNeighbours first (fieldName batch.family)
          (fun previous current => current.cursorBefore.sequence < previous.cursorAfter.sequence)
          " deliveries must preserve FIFO cursor order")
        (neighbours (first :: rest))
      let _ ← deliveryIds (first :: rest)
      contractIf (∃ delivery ∈ first :: rest, delivery.payload.family ≠ batch.family)
        (fieldName batch.family ++ " deliveries contain a different observation family")

/-- The `delivery_ids` of a batch. -/
def deliveryIds (batch : FamilyBatch π) : Except ObserveError (List DeliveryId) :=
  Observe.deliveryIds batch.deliveries

end FamilyBatch

/-- `_families_for_deliveries`. -/
def familiesForDeliveries (deliveries : List (ObservationDelivery π)) :
    List NonConfigObservationFamily :=
  deliveries.foldl (fun present delivery =>
    match delivery.payload.family.nonConfig with
    | some family => if family ∉ present then present ++ [family] else present
    | none => present) []

/-- `ObservationBatch`: the complete FIFO window. -/
structure ObservationBatch (π : Type) where
  deliveries : List (ObservationDelivery π)
  deriving DecidableEq, Repr

namespace ObservationBatch

def validate (batch : ObservationBatch π) : Except ObserveError Unit := do
  validateDeliverySequence "observation batch" batch.deliveries
  let _ ← deliveryIds batch.deliveries
  return ()

/-- The deliveries of one class. -/
def ofFamily (batch : ObservationBatch π) (family : ObservationFamily) :
    List (ObservationDelivery π) :=
  batch.deliveries.filter (fun delivery => delivery.payload.family = family)

/-- `ObservationBatch.config`, `tool`, `user` and `assistant`. -/
def project (batch : ObservationBatch π) (family : ObservationFamily) :
    Except ObserveError (Option (FamilyBatch π)) :=
  match batch.ofFamily family with
  | [] => return none
  | deliveries => do
      let projected : FamilyBatch π := ⟨family, deliveries⟩
      projected.validate
      return some projected

/-- `ObservationBatch.config`. -/
def config (batch : ObservationBatch π) : Except ObserveError (Option (FamilyBatch π)) :=
  batch.project .config

/-- `ObservationBatch.tool`. -/
def tool (batch : ObservationBatch π) : Except ObserveError (Option (FamilyBatch π)) :=
  batch.project .tool

/-- `ObservationBatch.user`. -/
def user (batch : ObservationBatch π) : Except ObserveError (Option (FamilyBatch π)) :=
  batch.project .user

/-- `ObservationBatch.assistant`. -/
def assistant (batch : ObservationBatch π) : Except ObserveError (Option (FamilyBatch π)) :=
  batch.project .assistant

/-- `ObservationBatch.non_config_families`. -/
def nonConfigFamilies (batch : ObservationBatch π) : List NonConfigObservationFamily :=
  familiesForDeliveries batch.deliveries

/-- `ObservationBatch.delivery_ids`. -/
def deliveryIds (batch : ObservationBatch π) : Except ObserveError (List DeliveryId) :=
  Observe.deliveryIds batch.deliveries

end ObservationBatch

/-- `observation_kind`. -/
def observationKind (batch : ObservationBatch π) : Except ObserveError ObservationKind :=
  match batch.nonConfigFamilies with
  | [] => return .config
  | [family] => return kindForFamily family
  | _ => throw ⟨.contract, "a conflicting batch cannot produce an ObservationKind"⟩

/-! ## Snapshots and frames -/

/-- Blocking-task evidence captured at one observation revision. -/
structure BackgroundTaskSnapshot where
  observationRevision : Nat
  blockingTasks : List BlockingTaskRef
  deriving DecidableEq, Repr

/-- The constructor of `BackgroundTaskSnapshot`, which sorts its tasks. -/
def BackgroundTaskSnapshot.make (observationRevision : Nat) (blockingTasks : List BlockingTaskRef) :
    Except ObserveError BackgroundTaskSnapshot := do
  contractIf (¬ (blockingTasks.map (fun task => (task.taskId, task.incarnation))).Nodup)
    "background task snapshot cannot repeat a task incarnation"
  return ⟨observationRevision,
    blockingTasks.insertionSort (fun a b => a.sortKey ≤ b.sortKey)⟩

/-- `_validate_boundary_for_deliveries`. -/
def validateBoundaryForDeliveries (boundary : ObservationBoundary)
    (deliveries : List (ObservationDelivery π)) (fieldName : String) :
    Except ObserveError Unit := do
  validateDeliverySequence fieldName deliveries
  contractIf (¬ ∃ first ∈ deliveries.head?, ∃ last ∈ deliveries.getLast?,
      boundary.streamId = first.streamId ∧ boundary.cursorBefore = first.cursorBefore ∧
      boundary.cursorAfter = last.cursorAfter ∧
      boundary.observationRevision = first.observationRevision)
    (fieldName ++ " boundary does not match its deliveries")

/-- The hand-off from get_observation to write_observation. -/
structure ObserveFrame (π : Type) where
  batch : ObservationBatch π
  boundary : ObservationBoundary
  backgroundTaskSnapshot : BackgroundTaskSnapshot
  deriving DecidableEq, Repr

def ObserveFrame.validate (frame : ObserveFrame π) : Except ObserveError Unit := do
  validateBoundaryForDeliveries frame.boundary frame.batch.deliveries "observe frame"
  contractIf (1 < frame.batch.nonConfigFamilies.length)
    "observe frame cannot contain conflicting non-Config families"
  contractIf (frame.backgroundTaskSnapshot.observationRevision ≠ frame.boundary.observationRevision)
    "observe frame task snapshot revision does not match boundary"

/-! ## Receipts -/

/-- `_validate_delivery_ids`. -/
def validateDeliveryIds (ids : List DeliveryId) (fieldName : String) :
    Except ObserveError Unit := do
  contractIf (ids = []) (fieldName ++ " must be a non-empty tuple")
  contractIf (¬ ids.Nodup) (fieldName ++ " must contain distinct delivery ids")

/-- `validate_settlement_boundary`. -/
def validateSettlementBoundary (read settlement : ObservationBoundary) (fieldName : String) :
    Except ObserveError Unit := do
  contractIf (read.streamId ≠ settlement.streamId) (fieldName ++ " boundaries must use one stream")
  contractIf (settlement.observationRevision < read.observationRevision)
    (fieldName ++ " settlement revision cannot move backwards")
  if settlement.observationRevision = read.observationRevision then
    contractIf (settlement ≠ read)
      (fieldName ++ " settlement boundary must equal its read boundary when revision is unchanged")
  else
    contractIf (settlement.cursorBefore ≠ read.cursorAfter ∨
        settlement.cursorAfter ≠ read.cursorAfter)
      (fieldName ++ " successor boundary must be zero-length at the read cursor_after")

/-- `_validate_settlement_snapshot`. -/
def validateSettlementSnapshot (snapshot : Option BackgroundTaskSnapshot)
    (read settlement : ObservationBoundary) (fieldName : String) : Except ObserveError Unit := do
  contractIf (read.observationRevision < settlement.observationRevision ∧ snapshot = none)
    (fieldName ++ " successor boundary requires a background task snapshot")
  contractIf (∃ given ∈ snapshot, given.observationRevision ≠ settlement.observationRevision)
    (fieldName ++ " snapshot revision does not match settlement boundary")

/-- `ConfigSettlementReceipt`, and what `ContextAppendReceipt` has in common with it. -/
structure SettlementReceipt where
  deliveryIds : List DeliveryId
  readBoundary : ObservationBoundary
  settlementBoundary : ObservationBoundary
  settlementId : String
  backgroundTaskSnapshot : Option BackgroundTaskSnapshot := none
  deriving DecidableEq, Repr

/-- The checks of both receipts, under the field name of each. -/
def SettlementReceipt.validate (receipt : SettlementReceipt) (fieldName : String) :
    Except ObserveError Unit := do
  validateDeliveryIds receipt.deliveryIds (fieldName ++ " delivery_ids")
  validateSettlementBoundary receipt.readBoundary receipt.settlementBoundary fieldName
  requireIdentifier receipt.settlementId (fieldName ++ " settlement_id")
  validateSettlementSnapshot receipt.backgroundTaskSnapshot receipt.readBoundary
    receipt.settlementBoundary fieldName

/-- `ConfigSettlementReceipt.__post_init__`. -/
def validateConfigReceipt (receipt : SettlementReceipt) : Except ObserveError Unit :=
  receipt.validate "config settlement"

structure ContextAppendReceipt extends SettlementReceipt where
  family : NonConfigObservationFamily
  deriving DecidableEq, Repr

/-- `ContextAppendReceipt.__post_init__`. -/
def validateContextReceipt (receipt : ContextAppendReceipt) : Except ObserveError Unit :=
  receipt.toSettlementReceipt.validate "context append"

/-- `ConfigSnapshotKey`. -/
structure ConfigSnapshotKey where
  definitionId : GraphDefinitionId
  definitionVersion : GraphDefinitionVersion
  revision : Nat
  deriving DecidableEq, Repr

/-- `Config`, of which Observe reads the snapshot key. -/
structure Config (γ : Type) where
  key : ConfigSnapshotKey
  content : γ
  deriving DecidableEq, Repr

structure ConfigApplyResult (γ : Type) where
  receipt : SettlementReceipt
  successorConfig : Option (Config γ) := none
  deriving DecidableEq, Repr

/-- The settlement evidence of one Observe activation. -/
structure ObservationBatchReceipt where
  readBoundary : ObservationBoundary
  settlementBoundary : ObservationBoundary
  configReceipt : Option SettlementReceipt
  contextReceipt : Option ContextAppendReceipt
  ackReference : DeliveryAckReference
  deriving DecidableEq, Repr

namespace ObservationBatchReceipt

/-- The present receipts, Config first. -/
def children (receipt : ObservationBatchReceipt) : List SettlementReceipt :=
  receipt.configReceipt.toList ++
    (receipt.contextReceipt.map ContextAppendReceipt.toSettlementReceipt).toList

/-- The delivery ids of the present receipts. -/
def childIds (receipt : ObservationBatchReceipt) : List DeliveryId :=
  receipt.children.flatMap (·.deliveryIds)

def validate (receipt : ObservationBatchReceipt) : Except ObserveError Unit := do
  validateSettlementBoundary receipt.readBoundary receipt.settlementBoundary
    "observation batch receipt"
  contractIf (receipt.configReceipt = none ∧ receipt.contextReceipt = none)
    "observation batch receipt requires a settlement receipt"
  checkAll (fun child : SettlementReceipt => contractIf
      (child.readBoundary ≠ receipt.readBoundary ∨
        child.settlementBoundary ≠ receipt.settlementBoundary)
      "observation batch receipt boundaries do not match child receipts") receipt.children
  contractIf (receipt.ackReference.streamId ≠ receipt.readBoundary.streamId ∨
      ¬ receipt.childIds.Nodup ∨
      ¬ (receipt.ackReference.deliveryIds ⊆ receipt.childIds ∧
        receipt.childIds ⊆ receipt.ackReference.deliveryIds))
    "observation batch ack_reference does not match settled deliveries"
  checkAll (fun child : SettlementReceipt => contractIf
      (isFifoSubsequence child.deliveryIds receipt.ackReference.deliveryIds = false)
      "observation batch ack_reference does not preserve family FIFO order") receipt.children

/-- `ObservationBatchReceipt.current_state`. -/
def currentState (receipt : ObservationBatchReceipt) : ObservationKind :=
  match receipt.contextReceipt with
  | none => .config
  | some context => kindForFamily context.family

/-- The task snapshots the present receipts supply. -/
def snapshots (receipt : ObservationBatchReceipt) : List BackgroundTaskSnapshot :=
  receipt.children.filterMap (·.backgroundTaskSnapshot)

end ObservationBatchReceipt

/-! ## Results and Hook values -/

structure ObserveResult where
  currentState : ObservationKind
  deliveryIds : List DeliveryId
  cursorRange : CursorRange
  backgroundTaskSnapshot : BackgroundTaskSnapshot
  observationReceipt : ObservationBatchReceipt
  deriving DecidableEq, Repr

def ObserveResult.validate (result : ObserveResult) : Except ObserveError Unit := do
  validateDeliveryIds result.deliveryIds "observe result delivery_ids"
  contractIf (result.currentState ≠ result.observationReceipt.currentState)
    "observe result current_state does not match settlement evidence"
  contractIf (result.deliveryIds ≠ result.observationReceipt.ackReference.deliveryIds)
    "observe result delivery_ids do not match observation_receipt"
  let range ← result.observationReceipt.settlementBoundary.cursorRange
  contractIf (result.cursorRange ≠ range)
    "observe result cursor_range does not match settlement boundary"
  contractIf (result.backgroundTaskSnapshot.observationRevision ≠
      result.observationReceipt.settlementBoundary.observationRevision)
    "observe result task snapshot revision does not match receipt"
  contractIf (∃ snapshot ∈ result.observationReceipt.snapshots,
      snapshot ≠ result.backgroundTaskSnapshot)
    "observe result task snapshot does not match settlement evidence"

inductive ObserveHookStage where
  | afterGetObservation
  | afterWriteObservation
  deriving DecidableEq, Repr

inductive ObserveStageValue (π : Type) where
  | getObservationStageValue (frame : ObserveFrame π)
  | writeObservationStageValue (result : ObserveResult)
  deriving DecidableEq, Repr

structure ObserveHookEnvelope (π η : Type) where
  stage : ObserveHookStage
  payload : ObserveStageValue π
  hookState : η
  deriving DecidableEq, Repr

def ObserveHookEnvelope.validate (envelope : ObserveHookEnvelope π η) : Except ObserveError Unit :=
  match envelope.stage, envelope.payload with
  | .afterGetObservation, .writeObservationStageValue _ => throw
      ⟨.contract, "after-get-observation envelope requires GetObservationStageValue"⟩
  | .afterWriteObservation, .getObservationStageValue _ => throw
      ⟨.contract, "after-write-observation envelope requires WriteObservationStageValue"⟩
  | _, _ => return ()

/-- `_admit_node_id`. -/
def admitNodeId (nodeId : Option GraphNodeId) (field : String) : Except ObserveError Unit :=
  raiseIf (∃ given ∈ nodeId, isCanonicalIdentity given = false)
    ⟨.hook, field ++ " must be a canonical GraphNodeId or None"⟩

structure HookActivationRequest (π η : Type) where
  value : ObserveHookEnvelope π η
  state : η
  nodeId : Option GraphNodeId
  deriving DecidableEq, Repr

def HookActivationRequest.validate (request : HookActivationRequest π η) :
    Except ObserveError Unit :=
  admitNodeId request.nodeId "hook activation request node_id"

structure HookResult (π η κ : Type) where
  value : ObserveHookEnvelope π η
  commands : List κ
  nodeId : Option GraphNodeId
  deriving DecidableEq, Repr

def HookResult.validate (result : HookResult π η κ) : Except ObserveError Unit :=
  admitNodeId result.nodeId "hook result node_id"

end MoteKernel.Observe
