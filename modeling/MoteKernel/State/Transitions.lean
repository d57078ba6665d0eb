import MoteKernel.State.Validation

/-!
# Graph-run transitions

`state/graph_state/execution_transitions.py`, `recovery_transitions.py`,
`lifecycle_transitions.py` and the dispatch of `reducer.py`.
-/

namespace MoteKernel
open Checked Canonical

/-! ## Start -/

/-- `_validate_activation_batch`. -/
def validateActivationBatch (declared : List GraphFrontierActivation) (label : String) :
    Except GraphStateError Unit := do
  raiseIf (declared = []) (.transition (label ++ " activations are malformed"))
  let nodeIds := declared.map (·.nodeId)
  raiseIf (nodeIds ≠ sortedSet nodeIds)
    (.transition (label ++ " activations must use canonical node order"))

/-- The frontier a batch of activations opens. -/
def pendingFrontier (activations : List GraphFrontierActivation) : GraphFrontierState :=
  ⟨activations.map (fun activation =>
    ⟨activation.nodeId, .pending .useStepRequestInput, activation.cause⟩)⟩

/-- `_start_activations`. -/
def startActivations (declared : List GraphFrontierActivation) : Except GraphStateError Unit := do
  validateActivationBatch declared "initial"
  raiseIf (∃ activation ∈ declared, activation.cause ≠ .start)
    (.transition "initial activations must use the START cause")

/-- The Config cursor a start command begins with. -/
def startConfigCursor (command : StartGraphRun) : GraphConfigCursor :=
  command.configCursor.getD ⟨command.definitionId, command.definitionVersion, 1, none⟩

/-- `start_graph_run`. -/
def startGraphRun (command : StartGraphRun) : Except GraphStateError GraphRunState := do
  startActivations command.activations
  let cursor := startConfigCursor command
  rethrow (fun _ => GraphStateError.transition "graph start Config cursor is malformed")
    cursor.postInit
  rethrow (fun _ => GraphStateError.transition "graph start input evidence is malformed")
    (admitEvidence command.graphInputEvidence)
  validatedGraphRunState
    { runId := command.runId
      definitionId := command.definitionId
      definitionVersion := command.definitionVersion
      status := .running
      superstep := 0
      frontier := pendingFrontier command.activations
      parent := command.parent
      resumeInputCodec := command.resumeInputCodec
      configRevision := cursor.revision
      configDefinitionId := cursor.definitionId
      configDefinitionVersion := cursor.definitionVersion
      configDigest := cursor.digest
      graphInputEvidence := command.graphInputEvidence }

/-! ## Claim and fence -/

/-- `_validate_claim_resources`. -/
def validateClaimResources (state : GraphRunState) (resources : Option ResourceSnapshot) :
    Except GraphStateError Unit :=
  match resources with
  | none => pure ()
  | some resources => do
      rethrow (fun _ => GraphStateError.transition "claim resource snapshot is invalid")
        (ResourceReducer.validateResourceSnapshot resources)
      raiseIf (resources.acquisitions = [])
        (.transition "an active claim cannot persist an empty resource snapshot")
      raiseIf (¬ resources.acquisitions.map (·.nodeId) ⊆ pendingNodeIds state.frontier)
        (.transition "claim resource participant is outside current pending nodes")

/-- `_require_execution_lease`. -/
def requireExecutionLease (state : GraphRunState) (token : GraphExecutionToken) :
    Except GraphStateError Unit :=
  raiseIf (state.execution.map (·.token) ≠ some token)
    (.transition "graph command does not own the active execution lease")

/-- `claim_graph_execution`. -/
def claimGraphExecution (state : GraphRunState) (command : ClaimGraphExecution) :
    Except GraphStateError GraphRunState := do
  raiseIf (state.status ≠ .running ∨ state.execution ≠ none ∨ state.resources ≠ none)
    (.transition "only a quiescent running graph can claim execution")
  raiseIf (frontierStatus state.frontier ≠ some .executable)
    (.transition "only an executable frontier can claim execution")
  raiseIf (pendingNodeIds state.frontier = [])
    (.transition "an execution claim requires pending nodes")
  validateClaimResources state command.resources
  let token : GraphExecutionToken := ⟨state.executionSequence + 1, command.attemptId⟩
  return { state with
    executionSequence := token.generation
    execution := some ⟨token⟩
    resources := command.resources }

/-- `fence_graph_execution`. -/
def fenceGraphExecution (state : GraphRunState) (command : FenceGraphExecution) :
    Except GraphStateError GraphRunState := do
  raiseIf (state.status ≠ .running) (.transition "only a running graph can fence execution")
  requireExecutionLease state command.execution
  return { state with execution := none, resources := none }

/-! ## Frontier resolution -/

/-- `_current_successful_references`. -/
abbrev currentSuccessfulReferences (state : GraphRunState) : List ActivationReference :=
  frontierPublications state

/-- `progress_by_occurrence.get(occurrence)`. -/
def progressOf (progress : List GraphJoinProgress) (occurrence : GraphJoinOccurrenceIdentity) :
    Option GraphJoinProgress :=
  progress.find? (fun item => item.occurrence = occurrence)

/-- `_index_join_progress`; the index itself is read through `progressOf`. -/
def indexJoinProgress (progress : List GraphJoinProgress) (label : String) :
    Except GraphStateError Unit :=
  raiseIf (¬ (progress.map (·.occurrence)).Nodup)
    (.transition (label ++ " join progress repeats one join"))

/-- The reference loop of `_validate_next_activations`. -/
def validateNextReference (state : GraphRunState) (reference : ActivationReference) :
    Except GraphStateError Unit := do
  let source := reference.activation
  raiseIf (source.runId ≠ state.runId ∨ source.superstep > state.superstep)
    (.transition "next activation cause references the wrong frontier")
  if source.superstep < state.superstep then
    return ()
  match frontierNode state.frontier source.nodeId with
  | some ⟨_, .succeeded routing, _⟩ =>
      raiseIf (reference.route ≠ routing.route)
        (.transition "next activation cause route does not match source settlement")
  | _ => throw (.transition "next activation cause source is not a settled success")

/-- The references of a cause that precede the current superstep. -/
def historicalReferences (state : GraphRunState) (references : List ActivationReference) :
    List ActivationReference :=
  references.filter (fun reference => reference.activation.superstep < state.superstep)

/-- The references of a cause in the current superstep. -/
def currentReferences (state : GraphRunState) (references : List ActivationReference) :
    List ActivationReference :=
  references.filter (fun reference => ¬ reference.activation.superstep < state.superstep)

/-- The Join part of one step of `_validate_next_activations`. The result is the pending
occurrence this activation consumes, if there is one. -/
def validateNextOccurrence (state : GraphRunState) (nodeId : GraphNodeId)
    (cause : RoutedActivationCause) (occurrence : GraphJoinOccurrenceIdentity) :
    Except GraphStateError (Option GraphJoinOccurrenceIdentity) := do
  let sources := sourceIds cause.references
  raiseIf (occurrence.runId ≠ state.runId ∨ occurrence.join.target ≠ nodeId ∨
      occurrence.targetSuperstep ≠ state.superstep + 1 ∨
      ¬ (sources ⊆ occurrence.join.sources ∧ occurrence.join.sources ⊆ sources))
    (.transition "next Join activation cause has the wrong occurrence identity")
  let history := historicalReferences state cause.references
  match progressOf state.joinProgress occurrence with
  | none => do
      raiseIf (history ≠ [])
        (.transition "historical Join references lack matching pending progress")
      return none
  | some progress => do
      raiseIf (progress.arrived ≠ history)
        (.transition "Join activation history does not match pending progress")
      return some occurrence

/-- One activation of `_validate_next_activations`. -/
def validateNextActivation (state : GraphRunState) (activation : GraphFrontierActivation) :
    Except GraphStateError (Option GraphJoinOccurrenceIdentity) :=
  match activation.cause with
  | .start => throw (.transition "next frontier activations must carry routed causes")
  | .routed cause => do
      raiseIf (¬ (sourceIds cause.references).Nodup)
        (.transition "next activation cause cannot repeat one source node")
      checkAll (validateNextReference state) cause.references
      raiseIf (currentReferences state cause.references = [])
        (.transition "next activation cause requires a current settled source")
      match cause.joinOccurrence with
      | none => do
          raiseIf (historicalReferences state cause.references ≠ [] ∨ cause.references.length ≠ 1)
            (.transition "non-Join activation cause must carry one current source")
          return none
      | some occurrence => validateNextOccurrence state activation.nodeId cause occurrence

/-- `_validate_next_activations`: the pending occurrences the activations consume. -/
def validateNextActivations (state : GraphRunState) (declared : List GraphFrontierActivation) :
    Except GraphStateError (List GraphJoinOccurrenceIdentity) := do
  validateActivationBatch declared "next frontier"
  indexJoinProgress state.joinProgress "state"
  let consumed ← declared.mapM (validateNextActivation state)
  return consumed.filterMap id

/-- The arrivals one explicit consumption counts: everything recorded, and every current
success of a source. -/
def consumptionArrivals (current : List ActivationReference) (progress : GraphJoinProgress) :
    List ActivationReference :=
  progress.arrived ++ current.filter
    (fun reference => reference.activation.nodeId ∈ progress.occurrence.join.sources)

/-- The loop body of `_validate_join_consumption`. -/
def validateConsumedOccurrence (state : GraphRunState) (current : List ActivationReference)
    (occurrence : GraphJoinOccurrenceIdentity) : Except GraphStateError Unit := do
  raiseIf (occurrence.runId ≠ state.runId ∨ occurrence.targetSuperstep ≠ state.superstep + 1)
    (.transition "consumed join occurrence has the wrong target coordinate")
  let progress ← orRaise
    (.transition "consumed join progress does not exist in the current state")
    (progressOf state.joinProgress occurrence)
  let sources := sourceIds (consumptionArrivals current progress)
  raiseIf (¬ sources.Nodup) (.transition "join progress repeats one source activation")
  raiseIf (¬ (sources ⊆ occurrence.join.sources ∧ occurrence.join.sources ⊆ sources))
    (.transition "consumed join progress is not complete")

/-- `_validate_join_consumption`. -/
def validateJoinConsumption (state : GraphRunState) (declared : List GraphJoinOccurrenceIdentity)
    (current : List ActivationReference) : Except GraphStateError Unit := do
  indexJoinProgress state.joinProgress "state"
  checkAll (validateConsumedOccurrence state current) declared
  raiseIf (¬ declared.Nodup)
    (.transition "consumed join progress keys must be canonical and distinct")
  raiseIf (sorted declared ≠ declared)
    (.transition "consumed join progress keys must use canonical order")

/-- One updated record of `_validate_join_progress_delta`. -/
def validateUpdatedProgress (state : GraphRunState)
    (consumable : List GraphJoinOccurrenceIdentity) (progress : GraphJoinProgress) :
    Except GraphStateError Unit :=
  let current := currentSuccessfulReferences state
  match progressOf state.joinProgress progress.occurrence with
  | none => raiseIf (¬ progress.arrived ⊆ current)
      (.transition "new join progress must contain only current settled successes")
  | some prior => do
      raiseIf (progress.occurrence ∈ consumable)
        (.transition "consumed join progress cannot be retained")
      raiseIf (¬ prior.arrived ⊆ progress.arrived)
        (.transition "join progress cannot remove or replace historical arrivals")
      raiseIf (∃ reference ∈ progress.arrived, reference ∉ prior.arrived ∧ reference ∉ current)
        (.transition "join progress additions must be current settled successes")

/-- `_validate_join_progress_delta`: an advance only appends current successes or consumes a
Join once. -/
def validateJoinProgressDelta (state : GraphRunState) (declared : List GraphJoinProgress)
    (consumed explicitlyConsumed : List GraphJoinOccurrenceIdentity) :
    Except GraphStateError Unit := do
  indexJoinProgress state.joinProgress "state"
  indexJoinProgress declared "command"
  validateJoinConsumption state explicitlyConsumed (currentSuccessfulReferences state)
  raiseIf (∃ occurrence ∈ consumed, occurrence ∈ explicitlyConsumed)
    (.transition "one pending join cannot be consumed more than once")
  checkAll (validateUpdatedProgress state (consumed ++ explicitlyConsumed)) declared
  raiseIf (∃ prior ∈ state.joinProgress,
      prior.occurrence ∉ declared.map (·.occurrence) ∧
      prior.occurrence ∉ consumed ++ explicitlyConsumed)
    (.transition "unrelated join progress cannot be discarded")

/-- `_resolution_base`. -/
def resolutionBase (state : GraphRunState) : Except GraphStateError Unit := do
  raiseIf (state.status ≠ .running)
    (.transition "frontier resolution requires a running graph")
  raiseIf (frontierStatus state.frontier ≠ some .settled)
    (.transition "frontier resolution requires a settled frontier")
  raiseIf (state.execution ≠ none ∨ state.resources ≠ none)
    (.transition "a settled frontier must be quiescent")

/-- `advance_graph_frontier`. -/
def advanceGraphFrontier (state : GraphRunState) (command : AdvanceGraphFrontier) :
    Except GraphStateError GraphRunState := do
  resolutionBase state
  let consumed ← validateNextActivations state command.activations
  validateJoinProgressDelta state command.joinProgress consumed command.consumedJoinProgress
  return { state with
    superstep := state.superstep + 1
    frontier := pendingFrontier command.activations
    joinProgress := command.joinProgress
    completionRoute := none }

/-- `complete_graph_frontier`. -/
def completeGraphFrontier (state : GraphRunState) (command : CompleteGraphFrontier) :
    Except GraphStateError GraphRunState := do
  resolutionBase state
  validateJoinConsumption state command.consumedJoinProgress (currentSuccessfulReferences state)
  raiseIf (command.consumedJoinProgress.length ≠ state.joinProgress.length)
    (.transition "a completed graph cannot discard unresolved join progress")
  return { state with
    status := .completed
    frontier := ⟨[]⟩
    joinProgress := []
    completionRoute := command.completionRoute }

/-! ## Settlement -/

/-- The settlement and the publication ledger one outcome produces in `settle_graph_node`. -/
def settleOutcome (state : GraphRunState) (command : SettleGraphNode) :
    Except GraphStateError (GraphNodeSettlement × List GraphPublicationSettlement) :=
  match command.outcome with
  | .succeeded nodeId routing => do
      let evidence ← makeActivationReference state.runId state.superstep nodeId routing.route
      raiseIf (evidence ∈ state.settledReferences)
        (.transition "node activation has already been committed as settled")
      let record : GraphPublicationSettlement :=
        ⟨evidence, command.expectedRevision + 1, command.execution, command.publicationEvidence⟩
      return (.succeeded routing,
        (state.settledPublications ++ [record]).insertionSort (fun a b => a.reference ≤ b.reference))
  | .failed _ failure => do
      raiseIf (command.publicationEvidence ≠ none)
        (.transition "failed node settlement cannot carry publication evidence")
      return (.failed failure, state.settledPublications)
  | .interrupted nodeId identity requestPayload => do
      raiseIf (command.publicationEvidence ≠ none)
        (.transition "interrupted node settlement cannot carry publication evidence")
      raiseIf (identity ≠ ⟨state.runId, state.superstep, nodeId, command.execution.generation⟩)
        (.transition "interrupt outcome identity does not match the active execution")
      raiseIf (state.resumeInputCodec = none)
        (.transition "an interrupted node requires a resume input codec")
      return (.interrupted ⟨identity, requestPayload⟩, state.settledPublications)

/-- The Config cursor after one settlement. -/
def settleConfigCursor (state : GraphRunState) (command : SettleGraphNode) :
    Except GraphStateError GraphConfigCursor :=
  match command.configCursor with
  | none => return state.configCursor
  | some candidate => rethrow (fun
      | .malformed => GraphStateError.transition "node settlement Config cursor is malformed"
      | .value message => .transition message) (state.configCursor.transitionTo candidate)

/-- The frontier with one node settled. -/
def settleFrontier (frontier : GraphFrontierState) (nodeId : GraphNodeId)
    (settlement : GraphNodeSettlement) : GraphFrontierState :=
  ⟨frontier.nodes.map (fun node =>
    ⟨node.nodeId, if node.nodeId = nodeId then settlement else node.settlement, node.cause⟩)⟩

/-- The resource snapshot after one settlement. -/
def settleResources (resources : Option ResourceSnapshot) (nodeId : GraphNodeId) :
    Except GraphStateError (Option ResourceSnapshot) :=
  match resources with
  | none => return none
  | some snapshot =>
      if nodeId ∈ snapshot.acquisitions.map (·.nodeId) then do
        let released ← rethrow (fun _ => GraphStateError.transition
            "completed node cannot release its resource acquisition")
          (ResourceReducer.reduceResources snapshot (.releaseResources nodeId))
        return if released.acquisitions = [] then none else some released
      else return some snapshot

/-- `settle_graph_node`. -/
def settleGraphNode (state : GraphRunState) (command : SettleGraphNode) :
    Except GraphStateError GraphRunState := do
  raiseIf (state.status ≠ .running)
    (.transition "only a running graph execution can settle a node")
  requireExecutionLease state command.execution
  let nodeId := command.outcome.nodeId
  raiseIf (¬ ∃ node ∈ frontierNode state.frontier nodeId, node.settlement.isPending)
    (.transition "node settlement requires a current pending node")
  let (settlement, settledPublications) ← settleOutcome state command
  let cursor ← settleConfigCursor state command
  let frontier := settleFrontier state.frontier nodeId settlement
  let resources ← settleResources state.resources nodeId
  let derived := frontierStatus frontier
  let executable := derived = some .executable
  return { state with
    status := if derived = some .failed then .failed else .running
    frontier := frontier
    execution := if executable then state.execution else none
    resources := if executable then resources else none
    settledPublications := settledPublications
    configRevision := cursor.revision
    configDefinitionId := cursor.definitionId
    configDefinitionVersion := cursor.definitionVersion
    configDigest := cursor.digest }

/-! ## Resume and abort -/

/-- One node of `resume_graph_nodes`. -/
def resumeNode (actions : List ResumeInterruptedNode) (node : GraphFrontierNode) :
    Except GraphStateError GraphFrontierNode :=
  match actions.find? (fun action => action.nodeId = node.nodeId) with
  | none => return node
  | some action =>
      match node.settlement with
      | .interrupted interrupt => do
          let identity := interrupt.identity
          raiseIf (action.interruptId ≠ graphInterruptId identity.runId identity.superstep
              identity.nodeId identity.executionGeneration)
            (.transition "interrupt resume ID does not match the current node interrupt")
          return ⟨node.nodeId, .pending (.overrideGraphNodeInput action.payload), node.cause⟩
      | _ => throw (.transition "resume action does not match its current node settlement")

/-- `resume_graph_nodes`. -/
def resumeGraphNodes (state : GraphRunState) (command : ResumeGraphNodes) :
    Except GraphStateError GraphRunState := do
  raiseIf (state.status ≠ .running ∨ state.execution ≠ none ∨ state.resources ≠ none)
    (.transition "node resume requires one quiescent running graph")
  let actionIds := command.actions.map (·.nodeId)
  raiseIf (actionIds = [] ∨ actionIds ≠ sortedSet actionIds)
    (.transition "resume actions must be non-empty, distinct, and canonical")
  let updated ← state.frontier.nodes.mapM (resumeNode command.actions)
  raiseIf (¬ actionIds ⊆ state.frontier.nodes.map (·.nodeId))
    (.transition "resume action references an unknown frontier node")
  return { state with frontier := ⟨updated⟩ }

/-- `abort_graph_run`. -/
def abortGraphRun (state : GraphRunState) (command : AbortGraphRun) :
    Except GraphStateError GraphRunState := do
  raiseIf (state.status ≠ .running ∨ state.execution ≠ none)
    (.transition "only a quiescent running graph can abort")
  return { state with status := .aborted, resources := none, abort := some ⟨command.reason⟩ }

/-! ## Dispatch -/

/-- The transition a command other than a start selects. -/
def transition (state : GraphRunState) : GraphRunCommand → Except GraphStateError GraphRunState
  | .start _ => throw (.transition "an existing graph run cannot be started again")
  | .claim command => claimGraphExecution state command
  | .fence command => fenceGraphExecution state command
  | .settle command => settleGraphNode state command
  | .resume command => resumeGraphNodes state command
  | .advance command => advanceGraphFrontier state command
  | .complete command => completeGraphFrontier state command
  | .abort command => abortGraphRun state command

/-- `reduce_graph_run` on an existing run. -/
def reduceExisting (state : GraphRunState) (command : GraphRunCommand) :
    Except GraphStateError GraphRunState := do
  validateGraphRunState state
  raiseIf (command.expectedRevision ≠ some state.revision)
    (.transition "graph command was based on a stale revision")
  let updated ← transition state command
  validatedGraphRunState { updated with revision := state.revision + 1 }

/-- `reduce_graph_run`. -/
def reduceGraphRun : Option GraphRunState → GraphRunCommand → Except GraphStateError GraphRunState
  | none, .start command => startGraphRun command
  | some _, .start _ => throw (.transition "an existing graph run cannot be started again")
  | none, _ => throw (.transition "a graph run must be started before it can transition")
  | some state, command => reduceExisting state command

end MoteKernel
