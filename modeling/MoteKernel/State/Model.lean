import MoteKernel.Lib.Checked
import MoteKernel.State.FrontierModel
import MoteKernel.State.ResourceReducer

/-!
# Graph-run state

`state/graph_state/model.py` and `state/graph_state/command.py`. The `admit`
class methods return a copy of the value they admit, so here they are checks.
-/

namespace MoteKernel
open Checked

/-- The immutable Config snapshot coordinate carried by graph state. -/
structure GraphConfigCursor where
  definitionId : GraphDefinitionId
  definitionVersion : GraphDefinitionVersion
  revision : Nat
  digest : Option String := none
  deriving DecidableEq, Repr

/-- Why a cursor is refused: `TypeError` for a malformed one, `ValueError` with its text. -/
inductive ConfigCursorError where
  | malformed
  | value (message : String)
  deriving DecidableEq, Repr

namespace GraphConfigCursor

/-- `GraphConfigCursor.__post_init__`. -/
def postInit (cursor : GraphConfigCursor) : Except String Unit := do
  raiseIf (isCanonicalIdentity cursor.definitionId = false)
    "config definition identity must be canonical"
  raiseIf (cursor.definitionVersion < 1) "config definition version must be positive"
  raiseIf (cursor.revision < 1) "config revision must be positive"
  raiseIf (∃ digest ∈ cursor.digest, digest = "" ∨ digest ≠ strip digest)
    "config digest must be a non-empty string when present"
  raiseIf (cursor.revision > 1 ∧ cursor.digest = none)
    "a successor Config revision requires its snapshot digest"

/-- `GraphConfigCursor.admit`. -/
def admitted (cursor : GraphConfigCursor) : Except ConfigCursorError Unit :=
  rethrow (fun _ => .malformed) cursor.postInit

/-- `GraphConfigCursor.transition_to`: the monotonic Config revision rule. -/
def transitionTo (self candidate : GraphConfigCursor) :
    Except ConfigCursorError GraphConfigCursor := do
  candidate.admitted
  raiseIf (candidate.definitionId ≠ self.definitionId ∨
      candidate.definitionVersion ≠ self.definitionVersion)
    (.value "node settlement cannot change the Config identity or version")
  if candidate.revision = self.revision then
    raiseIf (self.digest ≠ none ∧ candidate.digest ≠ none ∧ candidate.digest ≠ self.digest)
      (.value "node settlement Config digest conflicts at the same revision")
    if self.digest = none ∧ candidate.digest ≠ none then
      return candidate
    return self
  if candidate.revision = self.revision + 1 then
    return candidate
  if candidate.revision < self.revision then
    throw (.value "node settlement Config revision cannot move backwards")
  throw (.value "node settlement Config revision must advance exactly once")

end GraphConfigCursor

inductive GraphRunStatus where
  | running
  | completed
  | failed
  | aborted
  deriving DecidableEq, Repr

structure GraphAbort where
  reason : String
  deriving DecidableEq, Repr

structure GraphExecutionToken where
  generation : Nat
  attemptId : GraphExecutionAttemptId
  deriving DecidableEq, Repr

/-- `GraphExecutionToken.admit`. -/
def GraphExecutionToken.admitted (token : GraphExecutionToken) : Except String Unit := do
  raiseIf (token.generation < 1) "execution token generation must be an exact positive integer"
  raiseIf (isCanonicalIdentity token.attemptId = false)
    "execution attempt identity must be canonical"

/-- Opaque canonical commitment to one durable typed value fact. -/
structure GraphEvidenceCommitment where
  digest : Bytes
  deriving DecidableEq, Repr

/-- `GraphEvidenceCommitment.admit`. -/
def GraphEvidenceCommitment.admitted (commitment : GraphEvidenceCommitment) : Except String Unit :=
  raiseIf (commitment.digest.length ≠ 32) "graph evidence commitment is malformed"

/-- `GraphEvidenceCommitment.admit(evidence) if evidence is not None else None`. -/
def admitEvidence : Option GraphEvidenceCommitment → Except String Unit
  | none => pure ()
  | some evidence => evidence.admitted

/-- State-owned birth facts for one committed successful publication. -/
structure GraphPublicationSettlement where
  reference : ActivationReference
  commitRevision : Nat
  execution : GraphExecutionToken
  evidence : Option GraphEvidenceCommitment := none
  deriving DecidableEq, Repr

/-- `GraphPublicationSettlement.admit`. -/
def GraphPublicationSettlement.admitted (settlement : GraphPublicationSettlement) :
    Except String Unit :=
  rethrow (fun _ => "graph publication settlement is malformed") do
    raiseIf (settlement.reference.wellFormed = false)
      "activation reference requires canonical coordinates"
    raiseIf (settlement.commitRevision < 1) "publication settlement revision must be positive"
    settlement.execution.admitted
    admitEvidence settlement.evidence

structure GraphExecutionLease where
  token : GraphExecutionToken
  deriving DecidableEq, Repr

structure GraphJoinProgress where
  occurrence : GraphJoinOccurrenceIdentity
  arrived : List ActivationReference
  deriving DecidableEq, Repr

/-- `GraphRunState`. `__post_init__` replaces an omitted Config identity by the topology
identity, so a constructed state always carries one. -/
structure GraphRunState where
  runId : GraphRunId
  definitionId : GraphDefinitionId
  definitionVersion : GraphDefinitionVersion
  status : GraphRunStatus
  superstep : Nat
  frontier : GraphFrontierState
  executionSequence : Nat := 0
  resumeInputCodec : Option GraphResumeInputCodec := none
  joinProgress : List GraphJoinProgress := []
  graphInputEvidence : Option GraphEvidenceCommitment := none
  settledPublications : List GraphPublicationSettlement := []
  resources : Option ResourceSnapshot := none
  execution : Option GraphExecutionLease := none
  abort : Option GraphAbort := none
  parent : Option GraphActivationIdentity := none
  revision : Nat := 0
  completionRoute : Option GraphRouteId := none
  configRevision : Nat := 1
  configDefinitionId : GraphDefinitionId := definitionId
  configDefinitionVersion : GraphDefinitionVersion := definitionVersion
  configDigest : Option String := none
  deriving DecidableEq, Repr

/-- `GraphRunState.config_cursor`. -/
def GraphRunState.configCursor (state : GraphRunState) : GraphConfigCursor :=
  ⟨state.configDefinitionId, state.configDefinitionVersion, state.configRevision,
    state.configDigest⟩

/-- The references of the committed publications. -/
def GraphRunState.settledReferences (state : GraphRunState) : List ActivationReference :=
  state.settledPublications.map (·.reference)

/-! ## Commands -/

inductive GraphNodeOutcome where
  | succeeded (nodeId : GraphNodeId) (routing : GraphRoutingContribution)
  | failed (nodeId : GraphNodeId) (failure : GraphFailure)
  | interrupted (nodeId : GraphNodeId) (identity : GraphNodeInterruptIdentity)
      (requestPayload : Bytes)
  deriving DecidableEq, Repr

def GraphNodeOutcome.nodeId : GraphNodeOutcome → GraphNodeId
  | .succeeded nodeId _ => nodeId
  | .failed nodeId _ => nodeId
  | .interrupted nodeId _ _ => nodeId

structure StartGraphRun where
  runId : GraphRunId
  definitionId : GraphDefinitionId
  definitionVersion : GraphDefinitionVersion
  activations : List GraphFrontierActivation
  parent : Option GraphActivationIdentity := none
  resumeInputCodec : Option GraphResumeInputCodec := none
  configCursor : Option GraphConfigCursor := none
  graphInputEvidence : Option GraphEvidenceCommitment := none
  deriving DecidableEq, Repr

structure ClaimGraphExecution where
  expectedRevision : Nat
  attemptId : GraphExecutionAttemptId
  resources : Option ResourceSnapshot
  deriving DecidableEq, Repr

structure FenceGraphExecution where
  expectedRevision : Nat
  execution : GraphExecutionToken
  deriving DecidableEq, Repr

structure SettleGraphNode where
  expectedRevision : Nat
  execution : GraphExecutionToken
  outcome : GraphNodeOutcome
  configCursor : Option GraphConfigCursor := none
  publicationEvidence : Option GraphEvidenceCommitment := none
  deriving DecidableEq, Repr

structure ResumeInterruptedNode where
  nodeId : GraphNodeId
  interruptId : GraphInterruptId
  payload : Bytes
  deriving DecidableEq, Repr

structure ResumeGraphNodes where
  expectedRevision : Nat
  actions : List ResumeInterruptedNode
  deriving DecidableEq, Repr

structure AdvanceGraphFrontier where
  expectedRevision : Nat
  activations : List GraphFrontierActivation
  joinProgress : List GraphJoinProgress
  consumedJoinProgress : List GraphJoinOccurrenceIdentity := []
  deriving DecidableEq, Repr

structure CompleteGraphFrontier where
  expectedRevision : Nat
  consumedJoinProgress : List GraphJoinOccurrenceIdentity := []
  completionRoute : Option GraphRouteId := none
  deriving DecidableEq, Repr

structure AbortGraphRun where
  expectedRevision : Nat
  reason : String
  deriving DecidableEq, Repr

/-- `GraphRunCommand`. -/
inductive GraphRunCommand where
  | start (command : StartGraphRun)
  | claim (command : ClaimGraphExecution)
  | fence (command : FenceGraphExecution)
  | settle (command : SettleGraphNode)
  | resume (command : ResumeGraphNodes)
  | advance (command : AdvanceGraphFrontier)
  | complete (command : CompleteGraphFrontier)
  | abort (command : AbortGraphRun)
  deriving DecidableEq, Repr

/-- `command.expected_revision`; a start carries none. -/
def GraphRunCommand.expectedRevision : GraphRunCommand → Option Nat
  | .start _ => none
  | .claim command => some command.expectedRevision
  | .fence command => some command.expectedRevision
  | .settle command => some command.expectedRevision
  | .resume command => some command.expectedRevision
  | .advance command => some command.expectedRevision
  | .complete command => some command.expectedRevision
  | .abort command => some command.expectedRevision

end MoteKernel
