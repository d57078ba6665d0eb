import MoteKernel.Lib.Canonical
import MoteKernel.State.Model

/-!
# Invariants of graph-run state

The validator of `state/graph_state/validation.py`. Checks on Python types are
dropped: the Lean types exclude the values they reject. `GraphStateError.value`
is a plain `ValueError` raised by a constructor on the way, which
`validate_graph_run_state` reports as a malformed snapshot.
-/

namespace MoteKernel
open Checked Canonical

/-- `GraphStateTransitionError`, or a `ValueError` of a constructor. -/
inductive GraphStateError where
  | transition (message : String)
  | value (message : String)
  deriving DecidableEq, Repr

/-- `_require_identity`. -/
def requireIdentity (value field : String) : Except GraphStateError Unit :=
  raiseIf (isCanonicalIdentity value = false)
    (.transition (field ++ " must be non-empty and trimmed"))

/-- `_canonical_references`. -/
def canonicalReferences (references : List ActivationReference) (field : String) :
    Except GraphStateError Unit :=
  raiseIf (references ≠ sortedSet references)
    (.transition (field ++ " must be canonical and distinct"))

/-- `_reference_activation`: the identity fields of one reference. -/
def referenceActivation (reference : ActivationReference) (field : String) :
    Except GraphStateError Unit := do
  requireIdentity reference.activation.runId (field ++ " run identity")
  requireIdentity reference.activation.nodeId (field ++ " node identity")
  match reference.route with
  | none => pure ()
  | some route => requireIdentity route (field ++ " route identity")

/-- `ActivationReference(GraphActivationIdentity(run_id, superstep, node_id), route)`. -/
def activationReference (runId : GraphRunId) (superstep : Nat) (nodeId : GraphNodeId)
    (route : Option GraphRouteId) : ActivationReference :=
  ⟨⟨runId, superstep, nodeId⟩, route⟩

/-- The constructor checks of `activationReference`. -/
def makeActivationReference (runId : GraphRunId) (superstep : Nat) (nodeId : GraphNodeId)
    (route : Option GraphRouteId) : Except GraphStateError ActivationReference := do
  raiseIf (isCanonicalIdentity runId = false)
    (.value "graph activation run_id must be canonical")
  raiseIf (isCanonicalIdentity nodeId = false)
    (.value "graph activation node_id must be canonical")
  raiseIf (∃ r ∈ route, isCanonicalIdentity r = false)
    (.value "activation reference route must be canonical")
  return activationReference runId superstep nodeId route

/-- The references the successful nodes of the current frontier stand for. -/
def frontierPublications (state : GraphRunState) : List ActivationReference :=
  (routingContributions state.frontier).map (fun contribution =>
    activationReference state.runId state.superstep contribution.1 contribution.2.route)

/-- A record of the current superstep has its successful frontier node. -/
def validateCurrentPublication (state : GraphRunState) (reference : ActivationReference) :
    Except GraphStateError Unit :=
  match frontierNode state.frontier reference.activation.nodeId with
  | some ⟨_, .succeeded routing, _⟩ =>
      raiseIf (reference.route ≠ routing.route)
        (.transition "settled publication route does not match its frontier settlement")
  | _ => throw (.transition "current settled publication has no successful frontier node")

/-- The loop body of `_validate_settled_publications`. -/
def validateSettledPublication (state : GraphRunState) (item : GraphPublicationSettlement) :
    Except GraphStateError Unit := do
  let activation := item.reference.activation
  referenceActivation item.reference "settled publication evidence"
  raiseIf (activation.runId ≠ state.runId ∨ activation.superstep > state.superstep)
    (.transition "settled publication evidence has an invalid coordinate")
  raiseIf (item.commitRevision > state.revision)
    (.transition "settled publication revision exceeds its authoritative state")
  raiseIf (item.execution.generation > state.executionSequence)
    (.transition "settled publication execution exceeds its authoritative state")
  if activation.superstep = state.superstep ∧ state.status ≠ .completed then
    validateCurrentPublication state item.reference

/-- The last part of `_validate_settled_publications`: the successes of the current frontier
are exactly the records of its superstep. -/
def validateFrontierLedger (state : GraphRunState) : Except GraphStateError Unit := do
  checkAll (fun contribution => do
      let _ ← makeActivationReference state.runId state.superstep contribution.1
        contribution.2.route
      pure ())
    (routingContributions state.frontier)
  let current := state.settledReferences.filter
    (fun reference => reference.activation.superstep = state.superstep)
  raiseIf (¬ (current ⊆ frontierPublications state ∧ frontierPublications state ⊆ current))
    (.transition "current successful frontier and publication ledger disagree")

/-- `_validate_settled_publications`: the committed publication ledger. -/
def validateSettledPublications (state : GraphRunState) : Except GraphStateError Unit := do
  let evidence := state.settledPublications
  checkAll (fun item => rethrow
      (fun _ => .transition "settled publication evidence contains a malformed record") item.admitted)
    evidence
  canonicalReferences state.settledReferences "settled publication evidence"
  raiseIf (¬ (evidence.map (·.reference.activation)).Nodup)
    (.transition "settled publication evidence repeats one activation")
  raiseIf (¬ (evidence.map (·.commitRevision)).Nodup)
    (.transition "settled publication evidence repeats one commit revision")
  checkAll (validateSettledPublication state) evidence
  if state.status ≠ .completed then
    validateFrontierLedger state

/-- `_validate_completed_graph_provenance`: the settlement that survives frontier clearing. -/
def validateCompletedGraphProvenance (state : GraphRunState) : Except GraphStateError Unit := do
  let terminal := state.settledPublications.filter
    (fun item => item.reference.activation.superstep = state.superstep)
  raiseIf (terminal = []) (.transition "completed graph lacks terminal settlement provenance")
  raiseIf (∃ item ∈ terminal, item.commitRevision ≥ state.revision)
    (.transition "terminal settlement must precede the completed state revision")
  raiseIf ((terminal.map (·.reference.route)).dedup ≠ [state.completionRoute])
    (.transition "completed graph route does not match terminal settlement provenance")

/-- `_validate_join_occurrence`. -/
def validateJoinOccurrence (state : GraphRunState) (occurrence : GraphJoinOccurrenceIdentity) :
    Except GraphStateError Unit := do
  let sources := occurrence.join.sources
  let target := occurrence.join.target
  raiseIf (sources.length < 2 ∨ (∃ source ∈ sources, isCanonicalIdentity source = false) ∨
      sources ≠ sortedSet sources)
    (.transition "join definition sources must be distinct and canonical")
  raiseIf (isCanonicalIdentity target = false ∨ target ∈ sources)
    (.transition "join definition target is invalid")
  raiseIf (occurrence.runId ≠ state.runId ∨ isCanonicalIdentity occurrence.runId = false)
    (.transition "join occurrence belongs to the wrong graph run")
  raiseIf (occurrence.targetSuperstep < 1)
    (.transition "join occurrence target superstep must be positive")

/-- One predecessor arrival of `_validate_join_progress`. -/
def validateJoinArrival (state : GraphRunState) (occurrence : GraphJoinOccurrenceIdentity)
    (reference : ActivationReference) : Except GraphStateError Unit := do
  let activation := reference.activation
  referenceActivation reference "join progress arrivals"
  raiseIf (activation.runId ≠ occurrence.runId ∨ activation.superstep ≥ state.superstep ∨
      activation.superstep ≥ occurrence.targetSuperstep ∨
      activation.nodeId ∉ occurrence.join.sources)
    (.transition "join progress contains an invalid predecessor arrival")
  raiseIf (reference ∉ state.settledReferences)
    (.transition "join progress arrival lacks committed settlement evidence")

/-- The source nodes a list of references names. -/
def sourceIds (references : List ActivationReference) : List GraphNodeId :=
  references.map (·.activation.nodeId)

/-- The loop body of `_validate_join_progress`, without the repetition check. -/
def validateJoinRecord (state : GraphRunState) (progress : GraphJoinProgress) :
    Except GraphStateError Unit := do
  let occurrence := progress.occurrence
  let sources := occurrence.join.sources
  let arrivedSources := sourceIds progress.arrived
  raiseIf (occurrence.targetSuperstep ≤ state.superstep)
    (.transition "pending join occurrence must target a future superstep")
  raiseIf (progress.arrived = [])
    (.transition "join progress arrivals must be canonical and distinct")
  canonicalReferences progress.arrived "join progress arrivals"
  raiseIf (¬ arrivedSources.Nodup ∨ ¬ (arrivedSources ⊆ sources ∧ ¬ sources ⊆ arrivedSources))
    (.transition "join progress must contain partial arrivals")
  checkAll (validateJoinArrival state occurrence) progress.arrived

/-- `_validate_join_progress`. -/
def validateJoinProgress (state : GraphRunState) : Except GraphStateError Unit := do
  let occurrences := state.joinProgress.map (·.occurrence)
  checkAll (validateJoinOccurrence state) occurrences
  raiseIf (sorted occurrences ≠ occurrences)
    (.transition "join progress must use canonical order")
  checkAll (validateJoinRecord state) state.joinProgress
  raiseIf (¬ occurrences.Nodup) (.transition "graph state repeats join progress")

/-- `_validate_interrupt_identity`. -/
def validateInterruptIdentity (state : GraphRunState) (identity : GraphNodeInterruptIdentity) :
    Except GraphStateError Unit :=
  raiseIf (identity.runId ≠ state.runId ∨ identity.superstep ≠ state.superstep ∨
      identity.executionGeneration < 1 ∨
      identity.executionGeneration > state.executionSequence)
    (.transition "interrupt identity does not match its current activation")

/-- `_validate_routing`. -/
def validateRouting : GraphRoutingContribution → Except GraphStateError Unit
  | .continueGraphRouting => pure ()
  | .selectGraphRoute route => requireIdentity route "graph route identity"

/-- The reference loop of `_validate_activation_cause`. -/
def validateCauseReference (state : GraphRunState) (reference : ActivationReference) :
    Except GraphStateError Unit := do
  referenceActivation reference "routed activation cause"
  raiseIf (reference.activation.runId ≠ state.runId ∨
      reference.activation.superstep ≥ state.superstep)
    (.transition "routed activation cause references a non-predecessor activation")
  raiseIf (reference ∉ state.settledReferences)
    (.transition "routed activation cause lacks committed settlement evidence")

/-- The Join part of `_validate_activation_cause`. -/
def validateCauseOccurrence (state : GraphRunState) (nodeId : GraphNodeId)
    (references : List ActivationReference) :
    Option GraphJoinOccurrenceIdentity → Except GraphStateError Unit
  | none => raiseIf (references.length ≠ 1)
      (.transition "non-Join routed cause requires exactly one reference")
  | some occurrence => do
      validateJoinOccurrence state occurrence
      raiseIf (occurrence.join.target ≠ nodeId ∨ occurrence.targetSuperstep ≠ state.superstep)
        (.transition "routed Join cause does not match its target activation")
      let covered := sourceIds references
      raiseIf (¬ covered.Nodup ∨
          ¬ (covered ⊆ occurrence.join.sources ∧ occurrence.join.sources ⊆ covered))
        (.transition "routed Join cause must exactly cover its occurrence sources")

/-- `_validate_activation_cause`. -/
def validateActivationCause (state : GraphRunState) (nodeId : GraphNodeId) :
    GraphActivationCause → Except GraphStateError Unit
  | .start => raiseIf (state.superstep ≠ 0)
      (.transition "START activation cause is valid only at superstep zero")
  | .routed cause => do
      raiseIf (state.superstep = 0)
        (.transition "initial frontier nodes must carry the START cause")
      raiseIf (cause.references = [])
        (.transition "routed activation cause requires non-empty references")
      canonicalReferences cause.references "routed activation cause references"
      checkAll (validateCauseReference state) cause.references
      validateCauseOccurrence state nodeId cause.references cause.joinOccurrence

/-- The settlement match of `validate_graph_frontier`. -/
def validateSettlement (state : GraphRunState) (nodeId : GraphNodeId) :
    GraphNodeSettlement → Except GraphStateError Unit
  | .pending _ => pure ()
  | .succeeded routing => validateRouting routing
  | .failed failure => requireIdentity failure "graph failure"
  | .interrupted interrupt => do
      raiseIf (interrupt.identity.nodeId ≠ nodeId)
        (.transition "interrupt identity node does not match its frontier node")
      validateInterruptIdentity state interrupt.identity

/-- The settlements that require a resume input codec. -/
def needsCodec : GraphNodeSettlement → Bool
  | .pending (.overrideGraphNodeInput _) => true
  | .interrupted _ => true
  | _ => false

/-- The codec check of `validate_graph_frontier`. -/
def validateCodec (state : GraphRunState) : Except GraphStateError Unit :=
  match state.resumeInputCodec with
  | none => pure ()
  | some codec => do
      requireIdentity codec.codecId "resume input codec identity"
      raiseIf (codec.version < 1) (.transition "resume input codec version must be positive")

/-- `validate_graph_frontier`. -/
def validateGraphFrontier (state : GraphRunState) (frontier : GraphFrontierState) :
    Except GraphStateError Unit := do
  let nodeIds := frontier.nodes.map (·.nodeId)
  raiseIf (nodeIds ≠ sortedSet nodeIds)
    (.transition "frontier node identities must be distinct and canonical")
  checkAll (fun node => do
      requireIdentity node.nodeId "frontier node identity"
      validateActivationCause state node.nodeId node.cause
      validateSettlement state node.nodeId node.settlement)
    frontier.nodes
  raiseIf (frontier.nodes.any (fun node => needsCodec node.settlement) ∧
      state.resumeInputCodec = none)
    (.transition "override or interrupt settlement requires a resume input codec")
  validateCodec state

/-- The parent check of `_validate_graph_run_state`. -/
def validateParent (state : GraphRunState) : Except GraphStateError Unit :=
  match state.parent with
  | none => pure ()
  | some parent => do
      requireIdentity parent.runId "parent graph run identity"
      requireIdentity parent.nodeId "parent graph node identity"
      raiseIf (parent.runId = state.runId) (.transition "parent graph activation is invalid")
      raiseIf (state.runId ≠ childGraphRunId parent.runId parent.superstep parent.nodeId)
        (.transition "child graph run identity does not match its parent activation")

/-- The resource check of `_validate_graph_run_state`. -/
def validateRunResources (state : GraphRunState) : Except GraphStateError Unit :=
  match state.resources with
  | none => pure ()
  | some resources => do
      rethrow (fun _ => GraphStateError.transition "graph resources state is invalid")
        (ResourceReducer.validateResourceSnapshot resources)
      raiseIf (resources.acquisitions = [])
        (.transition "authoritative graph resources cannot be empty")
      raiseIf (state.execution = none)
        (.transition "graph resources require an active execution lease")
      raiseIf (pendingNodeIds state.frontier = [])
        (.transition "resource admission requires current pending nodes")
      raiseIf (¬ resources.acquisitions.map (·.nodeId) ⊆ pendingNodeIds state.frontier)
        (.transition "resource participant is outside current pending nodes")

/-- The lease check of `_validate_graph_run_state`. -/
def validateRunExecution (state : GraphRunState) : Except GraphStateError Unit :=
  match state.execution with
  | none => pure ()
  | some execution => do
      raiseIf (state.status ≠ .running)
        (.transition "only a running graph may retain an execution lease")
      rethrow GraphStateError.transition execution.token.admitted
      raiseIf (execution.token.generation ≠ state.executionSequence)
        (.transition "execution lease generation must match the graph sequence")
      raiseIf (pendingNodeIds state.frontier = [])
        (.transition "an active execution lease requires pending nodes")

/-- The lifecycle match of `_validate_graph_run_state`. -/
def validateRunStatus (state : GraphRunState) : Except GraphStateError Unit :=
  match state.status with
  | .running => do
      raiseIf (state.frontier.nodes = [])
        (.transition "a running graph requires a non-empty frontier")
      raiseIf (frontierStatus state.frontier = some .failed)
        (.transition "a quiescent failed frontier requires terminal failed status")
      raiseIf (state.abort ≠ none) (.transition "a running graph cannot retain an abort")
      raiseIf (state.completionRoute ≠ none)
        (.transition "a running graph cannot retain a completion route")
  | .completed => do
      raiseIf (state.frontier.nodes ≠ [] ∨ state.joinProgress ≠ [] ∨ state.resources ≠ none)
        (.transition "a completed graph must use the canonical empty position")
      raiseIf (state.abort ≠ none) (.transition "a completed graph cannot retain an abort")
      if state.graphInputEvidence ≠ none then
        validateCompletedGraphProvenance state
  | .failed =>
      raiseIf (state.frontier.nodes = [] ∨ frontierStatus state.frontier ≠ some .failed ∨
          state.resources ≠ none ∨ state.execution ≠ none ∨ state.abort ≠ none ∨
          state.completionRoute ≠ none)
        (.transition "a failed graph must retain one quiescent failed diagnostic frontier")
  | .aborted => do
      raiseIf (state.frontier.nodes = [] ∨ state.abort = none ∨ state.resources ≠ none ∨
          state.completionRoute ≠ none)
        (.transition "an aborted graph must retain one quiescent diagnostic frontier")
      match state.abort with
      | none => pure ()
      | some abort => requireIdentity abort.reason "graph abort reason"

/-- The completion route check of `_validate_graph_run_state`. -/
def validateCompletionRoute (state : GraphRunState) : Except GraphStateError Unit :=
  match state.completionRoute with
  | none => pure ()
  | some route => requireIdentity route "graph completion route identity"

/-- `_validate_graph_run_state`. -/
def rawValidateGraphRunState (state : GraphRunState) : Except GraphStateError Unit := do
  requireIdentity state.runId "graph run identity"
  requireIdentity state.definitionId "graph definition identity"
  raiseIf (state.definitionVersion < 1) (.transition "graph definition version must be positive")
  rethrow (fun _ => GraphStateError.transition "graph Config cursor is malformed")
    state.configCursor.postInit
  validateSettledPublications state
  validateCompletionRoute state
  validateParent state
  validateJoinProgress state
  validateGraphFrontier state state.frontier
  validateRunResources state
  validateRunExecution state
  validateRunStatus state

/-- `validate_graph_run_state`. -/
def validateGraphRunState (state : GraphRunState) : Except GraphStateError Unit :=
  rethrow (fun
    | .transition message => GraphStateError.transition message
    | .value _ => .transition "graph snapshot is malformed") (rawValidateGraphRunState state)

/-- `validated_graph_run_state`. -/
def validatedGraphRunState (state : GraphRunState) : Except GraphStateError GraphRunState := do
  validateGraphRunState state
  return state

end MoteKernel
