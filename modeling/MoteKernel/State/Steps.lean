import MoteKernel.State.Invariant

/-!
# What each transition does

One lemma for each transition function: the guards it passes and the state it
returns. The run properties are derived from these and from the validity of the
two states around a command; no later proof opens a transition again.
-/

namespace MoteKernel
open Checked Canonical

/-! ## Claim and fence -/

/-- The guards of `claim_graph_execution`. -/
structure Claims (state : GraphRunState) (command : ClaimGraphExecution) : Prop where
  running : state.status = .running
  unleased : state.execution = none
  free : state.resources = none
  executable : frontierStatus state.frontier = some .executable
  pending : pendingNodeIds state.frontier ≠ []
  resources : ∀ resources ∈ command.resources,
    ResourceReducer.validateResourceSnapshot resources = .ok () ∧ resources.acquisitions ≠ [] ∧
    resources.acquisitions.map (·.nodeId) ⊆ pendingNodeIds state.frontier

/-- The token a claim issues. -/
def claimToken (state : GraphRunState) (command : ClaimGraphExecution) : GraphExecutionToken :=
  ⟨state.executionSequence + 1, command.attemptId⟩

theorem validateClaimResources_eq_ok (state : GraphRunState) (resources : Option ResourceSnapshot)
    (u : Unit) :
    validateClaimResources state resources = .ok u ↔ ∀ snapshot ∈ resources,
      ResourceReducer.validateResourceSnapshot snapshot = .ok () ∧ snapshot.acquisitions ≠ [] ∧
      snapshot.acquisitions.map (·.nodeId) ⊆ pendingNodeIds state.frontier := by
  cases resources <;> simp [validateClaimResources]

theorem claimGraphExecution_eq_ok (state t : GraphRunState) (command : ClaimGraphExecution) :
    claimGraphExecution state command = .ok t ↔ Claims state command ∧
      t = { state with
        executionSequence := state.executionSequence + 1
        execution := some ⟨claimToken state command⟩
        resources := command.resources } := by
  simp only [claimGraphExecution, bind_unit_eq_ok, raiseIf_eq_ok, not_or, ne_eq, not_not,
    validateClaimResources_eq_ok, pure_eq_ok, Except.ok.injEq]
  constructor
  · rintro ⟨⟨running, unleased, free⟩, executable, pending, resources, rfl⟩
    exact ⟨⟨running, unleased, free, executable, pending, resources⟩, rfl⟩
  · rintro ⟨h, rfl⟩
    exact ⟨⟨h.running, h.unleased, h.free⟩, h.executable, h.pending, h.resources, rfl⟩

theorem requireExecutionLease_eq_ok (state : GraphRunState) (token : GraphExecutionToken)
    (u : Unit) :
    requireExecutionLease state token = .ok u ↔ state.execution = some ⟨token⟩ := by
  cases execution : state.execution with
  | none => simp [requireExecutionLease, execution]
  | some lease =>
      obtain ⟨own⟩ := lease
      simp [requireExecutionLease, execution]

theorem fenceGraphExecution_eq_ok (state t : GraphRunState) (command : FenceGraphExecution) :
    fenceGraphExecution state command = .ok t ↔
      state.status = .running ∧ state.execution = some ⟨command.execution⟩ ∧
      t = { state with execution := none, resources := none } := by
  simp only [fenceGraphExecution, bind_unit_eq_ok, raiseIf_eq_ok, ne_eq, not_not,
    requireExecutionLease_eq_ok, pure_eq_ok, Except.ok.injEq, eq_comm (a := t)]

/-! ## Settlement -/

/-- The ledger with one more record, in canonical order. -/
def recordPublication (ledger : List GraphPublicationSettlement)
    (record : GraphPublicationSettlement) : List GraphPublicationSettlement :=
  (ledger ++ [record]).insertionSort (fun a b => a.reference ≤ b.reference)

/-- What one outcome does to the frontier node and to the ledger. -/
inductive OutcomeSettles (state : GraphRunState) (command : SettleGraphNode) :
    GraphNodeSettlement → List GraphPublicationSettlement → Prop
  | succeeded (nodeId : GraphNodeId) (routing : GraphRoutingContribution)
      (outcome : command.outcome = .succeeded nodeId routing)
      (canonical : CanonicalReference
        (activationReference state.runId state.superstep nodeId routing.route))
      (fresh : activationReference state.runId state.superstep nodeId routing.route ∉
        state.settledReferences) :
      OutcomeSettles state command (.succeeded routing)
        (recordPublication state.settledPublications
          ⟨activationReference state.runId state.superstep nodeId routing.route,
            command.expectedRevision + 1, command.execution, command.publicationEvidence⟩)
  | failed (nodeId : GraphNodeId) (failure : GraphFailure)
      (outcome : command.outcome = .failed nodeId failure)
      (noEvidence : command.publicationEvidence = none) :
      OutcomeSettles state command (.failed failure) state.settledPublications
  | interrupted (nodeId : GraphNodeId) (requestPayload : Bytes)
      (outcome : command.outcome = .interrupted nodeId
        ⟨state.runId, state.superstep, nodeId, command.execution.generation⟩ requestPayload)
      (noEvidence : command.publicationEvidence = none)
      (codec : state.resumeInputCodec ≠ none) :
      OutcomeSettles state command
        (.interrupted ⟨⟨state.runId, state.superstep, nodeId, command.execution.generation⟩,
          requestPayload⟩) state.settledPublications

theorem settleOutcome_eq_ok (state : GraphRunState) (command : SettleGraphNode)
    (settlement : GraphNodeSettlement) (ledger : List GraphPublicationSettlement) :
    settleOutcome state command = .ok (settlement, ledger) ↔
      OutcomeSettles state command settlement ledger := by
  constructor
  · intro settled
    unfold settleOutcome at settled
    split at settled
    · rename_i nodeId routing outcome
      simp only [bind_eq_ok, exists_unit, makeActivationReference_eq_ok, raiseIf_eq_ok,
        pure_eq_ok, Except.ok.injEq, Prod.mk.injEq] at settled
      obtain ⟨_, ⟨canonical, rfl⟩, fresh, rfl, rfl⟩ := settled
      exact .succeeded nodeId routing outcome canonical fresh
    · rename_i nodeId failure outcome
      simp only [bind_unit_eq_ok, raiseIf_eq_ok, ne_eq, not_not, pure_eq_ok, Except.ok.injEq,
        Prod.mk.injEq] at settled
      obtain ⟨noEvidence, rfl, rfl⟩ := settled
      exact .failed nodeId failure outcome noEvidence
    · rename_i nodeId identity requestPayload outcome
      simp only [bind_unit_eq_ok, raiseIf_eq_ok, ne_eq, not_not, pure_eq_ok, Except.ok.injEq,
        Prod.mk.injEq] at settled
      obtain ⟨noEvidence, rfl, codec, rfl, rfl⟩ := settled
      exact .interrupted nodeId requestPayload outcome noEvidence codec
  · intro settles
    cases settles with
    | succeeded nodeId routing outcome canonical fresh =>
        simp [settleOutcome, outcome, makeActivationReference_eq_ok, canonical, fresh,
          recordPublication]
    | failed nodeId failure outcome noEvidence => simp [settleOutcome, outcome, noEvidence]
    | interrupted nodeId requestPayload outcome noEvidence codec =>
        simp [settleOutcome, outcome, noEvidence, codec]

/-- The Config revision rule: the same revision with a compatible digest, or the next one. -/
theorem transitionTo_eq_ok (self candidate cursor : GraphConfigCursor) :
    self.transitionTo candidate = .ok cursor ↔ candidate.postInit = .ok () ∧
      candidate.definitionId = self.definitionId ∧
      candidate.definitionVersion = self.definitionVersion ∧
      ((candidate.revision = self.revision ∧
          (self.digest = none ∨ candidate.digest = none ∨ candidate.digest = self.digest) ∧
          cursor = if self.digest = none ∧ candidate.digest ≠ none then candidate else self) ∨
        (candidate.revision = self.revision + 1 ∧ cursor = candidate)) := by
  simp only [GraphConfigCursor.transitionTo, GraphConfigCursor.admitted, bind_unit_eq_ok,
    rethrow_eq_ok, raiseIf_eq_ok, not_or, ne_eq, not_not, and_assoc]
  refine and_congr_right (fun _ => and_congr_right (fun _ => and_congr_right (fun _ => ?_)))
  by_cases same : candidate.revision = self.revision
  · have notNext : candidate.revision ≠ self.revision + 1 := by omega
    simp only [if_pos same, notNext, false_and, or_false, bind_unit_eq_ok, raiseIf_eq_ok]
    refine (and_congr ?_ ?_).trans (and_iff_right same).symm
    · grind
    · split <;> simp [eq_comm]
  · by_cases next : candidate.revision = self.revision + 1
    · simp [next, eq_comm]
    · simp only [same, next, if_false, false_and, or_false, iff_false]
      split <;> simp

/-- The guards of `settle_graph_node`, with the values its parts compute. -/
structure Settles (state : GraphRunState) (command : SettleGraphNode)
    (settlement : GraphNodeSettlement) (ledger : List GraphPublicationSettlement)
    (cursor : GraphConfigCursor) (resources : Option ResourceSnapshot) : Prop where
  running : state.status = .running
  leased : state.execution = some ⟨command.execution⟩
  pending : ∃ node ∈ frontierNode state.frontier command.outcome.nodeId,
    node.settlement.isPending = true
  outcome : OutcomeSettles state command settlement ledger
  cursor : settleConfigCursor state command = .ok cursor
  resources : settleResources state.resources command.outcome.nodeId = .ok resources

/-- The state a settlement produces. -/
def settledState (state : GraphRunState) (nodeId : GraphNodeId)
    (settlement : GraphNodeSettlement) (ledger : List GraphPublicationSettlement)
    (cursor : GraphConfigCursor) (resources : Option ResourceSnapshot) : GraphRunState :=
  let frontier := settleFrontier state.frontier nodeId settlement
  let executable := frontierStatus frontier = some .executable
  { state with
    status := if frontierStatus frontier = some .failed then .failed else .running
    frontier := frontier
    execution := if executable then state.execution else none
    resources := if executable then resources else none
    settledPublications := ledger
    configRevision := cursor.revision
    configDefinitionId := cursor.definitionId
    configDefinitionVersion := cursor.definitionVersion
    configDigest := cursor.digest }

theorem settleGraphNode_eq_ok (state t : GraphRunState) (command : SettleGraphNode) :
    settleGraphNode state command = .ok t ↔ ∃ settlement ledger cursor resources,
      Settles state command settlement ledger cursor resources ∧
      t = settledState state command.outcome.nodeId settlement ledger cursor resources := by
  simp only [settleGraphNode, bind_eq_ok, exists_unit, raiseIf_eq_ok, ne_eq, not_not,
    requireExecutionLease_eq_ok, Prod.exists, settleOutcome_eq_ok, pure_eq_ok, Except.ok.injEq]
  constructor
  · rintro ⟨running, leased, pending, settlement, ledger, outcome, cursor, cursorOk, resources,
      resourcesOk, rfl⟩
    exact ⟨settlement, ledger, cursor, resources,
      ⟨running, leased, pending, outcome, cursorOk, resourcesOk⟩, rfl⟩
  · rintro ⟨settlement, ledger, cursor, resources, h, rfl⟩
    exact ⟨h.running, h.leased, h.pending, settlement, ledger, h.outcome, cursor, h.cursor,
      resources, h.resources, rfl⟩

/-! ## Resume and abort -/

/-- The guards of `resume_graph_nodes` and the nodes it returns. -/
structure Resumes (state : GraphRunState) (command : ResumeGraphNodes)
    (nodes : List GraphFrontierNode) : Prop where
  running : state.status = .running
  unleased : state.execution = none
  free : state.resources = none
  nonempty : command.actions ≠ []
  canonical : (command.actions.map (·.nodeId)).Pairwise (· < ·)
  nodes : List.Forall₂ (fun node updated => resumeNode command.actions node = .ok updated)
    state.frontier.nodes nodes
  known : command.actions.map (·.nodeId) ⊆ state.frontier.nodes.map (·.nodeId)

theorem resumeGraphNodes_eq_ok (state t : GraphRunState) (command : ResumeGraphNodes) :
    resumeGraphNodes state command = .ok t ↔ ∃ nodes,
      Resumes state command nodes ∧ t = { state with frontier := ⟨nodes⟩ } := by
  simp only [resumeGraphNodes, bind_eq_ok, exists_unit, raiseIf_eq_ok, not_or, ne_eq,
    not_not, eq_sortedSet_iff, mapM_eq_ok, pure_eq_ok, Except.ok.injEq, List.map_eq_nil_iff]
  constructor
  · rintro ⟨⟨running, unleased, free⟩, ⟨nonempty, canonical⟩, nodes, resumed, known, rfl⟩
    exact ⟨nodes, ⟨running, unleased, free, nonempty, canonical, resumed, known⟩, rfl⟩
  · rintro ⟨nodes, h, rfl⟩
    exact ⟨⟨h.running, h.unleased, h.free⟩, ⟨h.nonempty, h.canonical⟩, nodes, h.nodes, h.known,
      rfl⟩

theorem abortGraphRun_eq_ok (state t : GraphRunState) (command : AbortGraphRun) :
    abortGraphRun state command = .ok t ↔ state.status = .running ∧ state.execution = none ∧
      t = { state with status := .aborted, resources := none, abort := some ⟨command.reason⟩ } := by
  simp only [abortGraphRun, bind_unit_eq_ok, raiseIf_eq_ok, not_or, ne_eq, not_not, pure_eq_ok,
    Except.ok.injEq, and_assoc, eq_comm (a := t)]

/-! ## Frontier resolution -/

/-- The guards of `_resolution_base`. -/
structure Resolves (state : GraphRunState) : Prop where
  running : state.status = .running
  settled : frontierStatus state.frontier = some .settled
  unleased : state.execution = none
  free : state.resources = none

theorem resolutionBase_eq_ok (state : GraphRunState) (u : Unit) :
    resolutionBase state = .ok u ↔ Resolves state := by
  simp only [resolutionBase, bind_unit_eq_ok, raiseIf_eq_ok, not_or, ne_eq, not_not]
  exact ⟨fun h => ⟨h.1, h.2.1, h.2.2.1, h.2.2.2⟩,
    fun h => ⟨h.running, h.settled, h.unleased, h.free⟩⟩

theorem progressOf_eq_some {progress : List GraphJoinProgress}
    (distinct : (progress.map (·.occurrence)).Nodup)
    {occurrence : GraphJoinOccurrenceIdentity} {item : GraphJoinProgress} :
    progressOf progress occurrence = some item ↔ item ∈ progress ∧ item.occurrence = occurrence := by
  constructor
  · intro found
    exact ⟨List.mem_of_find?_eq_some found, by simpa using List.find?_some found⟩
  · rintro ⟨member, rfl⟩
    cases found : progressOf progress item.occurrence with
    | none =>
        have absent := List.find?_eq_none.mp found item member
        simp at absent
    | some other =>
        have otherMember := List.mem_of_find?_eq_some found
        have same : other.occurrence = item.occurrence := by simpa using List.find?_some found
        rw [List.inj_on_of_nodup_map distinct otherMember member same]

theorem progressOf_eq_none {progress : List GraphJoinProgress}
    {occurrence : GraphJoinOccurrenceIdentity} :
    progressOf progress occurrence = none ↔ occurrence ∉ progress.map (·.occurrence) := by
  simp [progressOf]

/-- The arrivals recorded for one occurrence, none when it has no record. -/
def arrivalsAt (progress : List GraphJoinProgress) (occurrence : GraphJoinOccurrenceIdentity) :
    List ActivationReference :=
  match progressOf progress occurrence with
  | none => []
  | some item => item.arrived

/-- The same set of source nodes. -/
def SameSources (references : List ActivationReference) (sources : List GraphNodeId) : Prop :=
  ∀ source, source ∈ sourceIds references ↔ source ∈ sources

theorem sameSources_iff {references : List ActivationReference} {sources : List GraphNodeId} :
    (sourceIds references ⊆ sources ∧ sources ⊆ sourceIds references) ↔
      SameSources references sources :=
  ⟨fun h _ => ⟨fun m => h.1 m, fun m => h.2 m⟩,
    fun h => ⟨fun _ m => (h _).mp m, fun _ m => (h _).mpr m⟩⟩

/-- A reference an activation of the next superstep may name. -/
structure NextReference (state : GraphRunState) (reference : ActivationReference) : Prop where
  run : reference.activation.runId = state.runId
  place : reference.activation.superstep ≤ state.superstep
  current : reference.activation.superstep = state.superstep →
    reference ∈ frontierPublications state

theorem validateNextReference_eq_ok {state : GraphRunState}
    (distinct : (state.frontier.nodes.map (·.nodeId)).Nodup) (reference : ActivationReference)
    (u : Unit) :
    validateNextReference state reference = .ok u ↔ NextReference state reference := by
  have split : validateNextReference state reference = .ok u ↔
      (reference.activation.runId = state.runId ∧
        reference.activation.superstep ≤ state.superstep) ∧
      (reference.activation.superstep < state.superstep ∨
        validateCurrentPublication state reference = .ok u) := by
    unfold validateNextReference
    simp only [bind_unit_eq_ok, raiseIf_eq_ok, ne_eq, not_or, not_not, not_lt, gt_iff_lt]
    refine and_congr_right (fun _ => ?_)
    by_cases past : reference.activation.superstep < state.superstep
    · simp [past]
    · simp only [past, if_false, false_or]
      unfold validateCurrentPublication
      rcases frontierNode state.frontier reference.activation.nodeId with _ | ⟨_, settlement, _⟩
      · simp
      · cases settlement <;> simp
  rw [split]
  constructor
  · rintro ⟨⟨run, place⟩, past | current⟩
    · exact ⟨run, place, fun here => absurd here past.ne⟩
    · exact ⟨run, place, fun here => (validateCurrentPublication_eq_ok distinct run here u).mp current⟩
  · intro h
    refine ⟨⟨h.run, h.place⟩, ?_⟩
    rcases h.place.lt_or_eq with past | here
    · exact .inl past
    · exact .inr ((validateCurrentPublication_eq_ok distinct h.run here u).mpr (h.current here))

/-- The cause of one activation of the next superstep, and the pending occurrence it consumes. -/
structure NextCause (state : GraphRunState) (nodeId : GraphNodeId)
    (cause : RoutedActivationCause) (consumes : Option GraphJoinOccurrenceIdentity) : Prop where
  once : (sourceIds cause.references).Nodup
  references : ∀ reference ∈ cause.references, NextReference state reference
  current : currentReferences state cause.references ≠ []
  direct : cause.joinOccurrence = none →
    historicalReferences state cause.references = [] ∧ cause.references.length = 1 ∧
    consumes = none
  joined : ∀ occurrence ∈ cause.joinOccurrence,
    occurrence.runId = state.runId ∧ occurrence.join.target = nodeId ∧
    occurrence.targetSuperstep = state.superstep + 1 ∧
    SameSources cause.references occurrence.join.sources ∧
    historicalReferences state cause.references = arrivalsAt state.joinProgress occurrence ∧
    consumes = (progressOf state.joinProgress occurrence).map (fun _ => occurrence)

theorem validateNextOccurrence_eq_ok (state : GraphRunState) (nodeId : GraphNodeId)
    (cause : RoutedActivationCause) (occurrence : GraphJoinOccurrenceIdentity)
    (consumes : Option GraphJoinOccurrenceIdentity) :
    validateNextOccurrence state nodeId cause occurrence = .ok consumes ↔
      occurrence.runId = state.runId ∧ occurrence.join.target = nodeId ∧
      occurrence.targetSuperstep = state.superstep + 1 ∧
      SameSources cause.references occurrence.join.sources ∧
      historicalReferences state cause.references = arrivalsAt state.joinProgress occurrence ∧
      consumes = (progressOf state.joinProgress occurrence).map (fun _ => occurrence) := by
  simp only [validateNextOccurrence, bind_unit_eq_ok, raiseIf_eq_ok, not_or, ne_eq, not_not,
    sameSources_iff, and_assoc, arrivalsAt]
  refine and_congr_right (fun _ => and_congr_right (fun _ => and_congr_right (fun _ =>
    and_congr_right (fun _ => ?_))))
  cases progressOf state.joinProgress occurrence with
  | none =>
      simp only [bind_unit_eq_ok, raiseIf_eq_ok, not_not, pure_eq_ok, Except.ok.injEq,
        Option.map_none, eq_comm (a := consumes)]
  | some item =>
      simp only [bind_unit_eq_ok, raiseIf_eq_ok, not_not, pure_eq_ok, Except.ok.injEq,
        Option.map_some, eq_comm (a := consumes), eq_comm (a := item.arrived)]

theorem validateNextActivation_eq_ok {state : GraphRunState}
    (distinct : (state.frontier.nodes.map (·.nodeId)).Nodup)
    (activation : GraphFrontierActivation) (consumes : Option GraphJoinOccurrenceIdentity) :
    validateNextActivation state activation = .ok consumes ↔
      ∃ cause, activation.cause = .routed cause ∧
        NextCause state activation.nodeId cause consumes := by
  unfold validateNextActivation
  cases activation.cause with
  | start => simp
  | routed cause =>
      simp only [bind_unit_eq_ok, raiseIf_eq_ok, not_not, checkAll_eq_ok,
        validateNextReference_eq_ok distinct, GraphActivationCause.routed.injEq, exists_eq_left']
      cases join : cause.joinOccurrence with
      | none =>
          simp only [bind_unit_eq_ok, raiseIf_eq_ok, not_or, ne_eq, not_not, pure_eq_ok,
            Except.ok.injEq]
          constructor
          · rintro ⟨once, references, current, ⟨historical, single⟩, rfl⟩
            exact ⟨once, references, current, fun _ => ⟨historical, single, rfl⟩, by simp [join]⟩
          · intro h
            obtain ⟨historical, single, none⟩ := h.direct join
            exact ⟨h.once, h.references, h.current, ⟨historical, single⟩, none.symm⟩
      | some occurrence =>
          simp only [validateNextOccurrence_eq_ok]
          constructor
          · rintro ⟨once, references, current, joined⟩
            exact ⟨once, references, current, by simp [join], by simpa [join] using joined⟩
          · intro h
            exact ⟨h.once, h.references, h.current, h.joined occurrence join⟩

/-- One explicitly consumed occurrence. -/
structure ConsumedOccurrence (state : GraphRunState) (occurrence : GraphJoinOccurrenceIdentity)
    (progress : GraphJoinProgress) : Prop where
  run : occurrence.runId = state.runId
  step : occurrence.targetSuperstep = state.superstep + 1
  found : progressOf state.joinProgress occurrence = some progress
  once : (sourceIds (consumptionArrivals (currentSuccessfulReferences state) progress)).Nodup
  complete : SameSources (consumptionArrivals (currentSuccessfulReferences state) progress)
    occurrence.join.sources

/-- The guards of `_validate_join_consumption`. -/
structure JoinConsumption (state : GraphRunState)
    (declared : List GraphJoinOccurrenceIdentity) : Prop where
  distinct : (state.joinProgress.map (·.occurrence)).Nodup
  consumed : ∀ occurrence ∈ declared, ∃ progress, ConsumedOccurrence state occurrence progress
  ordered : declared.Pairwise (· < ·)

theorem indexJoinProgress_eq_ok (progress : List GraphJoinProgress) (label : String) (u : Unit) :
    indexJoinProgress progress label = .ok u ↔ (progress.map (·.occurrence)).Nodup := by
  simp [indexJoinProgress]

theorem validateConsumedOccurrence_eq_ok (state : GraphRunState)
    (occurrence : GraphJoinOccurrenceIdentity) (u : Unit) :
    validateConsumedOccurrence state (currentSuccessfulReferences state) occurrence = .ok u ↔
      ∃ progress, ConsumedOccurrence state occurrence progress := by
  simp only [validateConsumedOccurrence, bind_eq_ok, exists_unit, raiseIf_eq_ok, not_or, ne_eq,
    not_not, orRaise_eq_ok, sameSources_iff]
  constructor
  · rintro ⟨⟨run, step⟩, progress, found, once, complete⟩
    exact ⟨progress, run, step, found, once, complete⟩
  · rintro ⟨progress, h⟩
    exact ⟨⟨h.run, h.step⟩, progress, h.found, h.once, h.complete⟩

theorem validateJoinConsumption_eq_ok (state : GraphRunState)
    (declared : List GraphJoinOccurrenceIdentity) (u : Unit) :
    validateJoinConsumption state declared (currentSuccessfulReferences state) = .ok u ↔
      JoinConsumption state declared := by
  simp only [validateJoinConsumption, bind_unit_eq_ok, indexJoinProgress_eq_ok, checkAll_eq_ok,
    validateConsumedOccurrence_eq_ok, raiseIf_eq_ok, not_not, ne_eq, sorted_eq_self]
  constructor
  · rintro ⟨distinct, consumed, once, ordered⟩
    exact ⟨distinct, consumed, (ordered.and once).imp (fun h => lt_of_le_of_ne h.1 h.2)⟩
  · intro h
    exact ⟨h.distinct, h.consumed, nodup_of_strict h.ordered, h.ordered.imp le_of_lt⟩

/-- The guards of `_validate_join_progress_delta`. -/
structure JoinDelta (state : GraphRunState) (declared : List GraphJoinProgress)
    (consumed explicitlyConsumed : List GraphJoinOccurrenceIdentity) : Prop where
  distinct : (declared.map (·.occurrence)).Nodup
  consumption : JoinConsumption state explicitlyConsumed
  once : ∀ occurrence ∈ consumed, occurrence ∉ explicitlyConsumed
  fresh : ∀ progress ∈ declared, progressOf state.joinProgress progress.occurrence = none →
    progress.arrived ⊆ currentSuccessfulReferences state
  kept : ∀ progress ∈ declared, ∀ prior,
    progressOf state.joinProgress progress.occurrence = some prior →
    progress.occurrence ∉ consumed ++ explicitlyConsumed ∧ prior.arrived ⊆ progress.arrived ∧
    ∀ reference ∈ progress.arrived,
      reference ∈ prior.arrived ∨ reference ∈ currentSuccessfulReferences state
  retained : ∀ prior ∈ state.joinProgress, prior.occurrence ∈ declared.map (·.occurrence) ∨
    prior.occurrence ∈ consumed ++ explicitlyConsumed

theorem validateUpdatedProgress_eq_ok (state : GraphRunState)
    (consumable : List GraphJoinOccurrenceIdentity) (progress : GraphJoinProgress) (u : Unit) :
    validateUpdatedProgress state consumable progress = .ok u ↔
      (progressOf state.joinProgress progress.occurrence = none →
        progress.arrived ⊆ currentSuccessfulReferences state) ∧
      ∀ prior, progressOf state.joinProgress progress.occurrence = some prior →
        progress.occurrence ∉ consumable ∧ prior.arrived ⊆ progress.arrived ∧
        ∀ reference ∈ progress.arrived,
          reference ∈ prior.arrived ∨ reference ∈ currentSuccessfulReferences state := by
  unfold validateUpdatedProgress
  cases progressOf state.joinProgress progress.occurrence with
  | none => simp
  | some prior =>
      simp only [bind_unit_eq_ok, raiseIf_eq_ok, not_not, not_exists, not_and, reduceCtorEq,
        false_implies, true_and, Option.some.injEq, forall_eq', or_iff_not_imp_left]

theorem validateJoinProgressDelta_eq_ok (state : GraphRunState)
    (declared : List GraphJoinProgress)
    (consumed explicitlyConsumed : List GraphJoinOccurrenceIdentity) (u : Unit) :
    validateJoinProgressDelta state declared consumed explicitlyConsumed = .ok u ↔
      JoinDelta state declared consumed explicitlyConsumed := by
  simp only [validateJoinProgressDelta, bind_unit_eq_ok, indexJoinProgress_eq_ok,
    validateJoinConsumption_eq_ok, checkAll_eq_ok, validateUpdatedProgress_eq_ok, raiseIf_eq_ok,
    not_exists, not_and, not_not]
  constructor
  · rintro ⟨-, distinct, consumption, once, updated, retained⟩
    exact ⟨distinct, consumption, once, fun p m => (updated p m).1, fun p m => (updated p m).2,
      fun prior m => or_iff_not_imp_left.mpr (retained prior m)⟩
  · intro h
    exact ⟨h.consumption.distinct, h.distinct, h.consumption, h.once,
      fun p m => ⟨h.fresh p m, h.kept p m⟩,
      fun prior m => or_iff_not_imp_left.mp (h.retained prior m)⟩

/-- The guards of `advance_graph_frontier`. `consumes` pairs each activation with the pending
occurrence it consumes. -/
structure Advances (state : GraphRunState) (command : AdvanceGraphFrontier)
    (consumes : List (Option GraphJoinOccurrenceIdentity)) : Prop where
  resolves : Resolves state
  nonempty : command.activations ≠ []
  ordered : (command.activations.map (·.nodeId)).Pairwise (· < ·)
  activations : List.Forall₂ (fun (activation : GraphFrontierActivation) consumed =>
    ∃ cause, activation.cause = .routed cause ∧
      NextCause state activation.nodeId cause consumed) command.activations consumes
  delta : JoinDelta state command.joinProgress (consumes.filterMap id)
    command.consumedJoinProgress

theorem validateActivationBatch_eq_ok (declared : List GraphFrontierActivation) (label : String)
    (u : Unit) :
    validateActivationBatch declared label = .ok u ↔
      declared ≠ [] ∧ (declared.map (·.nodeId)).Pairwise (· < ·) := by
  simp only [validateActivationBatch, bind_unit_eq_ok, raiseIf_eq_ok, ne_eq, not_not,
    eq_sortedSet_iff]

theorem advanceGraphFrontier_eq_ok {state : GraphRunState}
    (distinct : (state.frontier.nodes.map (·.nodeId)).Nodup) (t : GraphRunState)
    (command : AdvanceGraphFrontier) :
    advanceGraphFrontier state command = .ok t ↔
      (∃ consumes, Advances state command consumes) ∧
      t = { state with
        superstep := state.superstep + 1
        frontier := pendingFrontier command.activations
        joinProgress := command.joinProgress
        completionRoute := none } := by
  simp only [advanceGraphFrontier, validateNextActivations, bind_eq_ok, exists_unit,
    resolutionBase_eq_ok, validateActivationBatch_eq_ok, indexJoinProgress_eq_ok, mapM_eq_ok,
    validateNextActivation_eq_ok distinct, validateJoinProgressDelta_eq_ok, pure_eq_ok,
    Except.ok.injEq]
  constructor
  · rintro ⟨resolves, _, ⟨⟨nonempty, ordered⟩, -, consumes, activations, rfl⟩, delta, rfl⟩
    exact ⟨⟨consumes, resolves, nonempty, ordered, activations, delta⟩, rfl⟩
  · rintro ⟨⟨consumes, h⟩, rfl⟩
    exact ⟨h.resolves, _, ⟨⟨h.nonempty, h.ordered⟩, h.delta.consumption.distinct, consumes,
      h.activations, rfl⟩, h.delta, rfl⟩

/-- The guards of `complete_graph_frontier`. -/
structure Completes (state : GraphRunState) (command : CompleteGraphFrontier) : Prop where
  resolves : Resolves state
  consumption : JoinConsumption state command.consumedJoinProgress
  all : command.consumedJoinProgress.length = state.joinProgress.length

theorem completeGraphFrontier_eq_ok (state t : GraphRunState) (command : CompleteGraphFrontier) :
    completeGraphFrontier state command = .ok t ↔ Completes state command ∧
      t = { state with
        status := .completed
        frontier := ⟨[]⟩
        joinProgress := []
        completionRoute := command.completionRoute } := by
  simp only [completeGraphFrontier, bind_unit_eq_ok, resolutionBase_eq_ok,
    validateJoinConsumption_eq_ok, raiseIf_eq_ok, ne_eq, not_not, pure_eq_ok, Except.ok.injEq]
  constructor
  · rintro ⟨resolves, consumption, all, rfl⟩
    exact ⟨⟨resolves, consumption, all⟩, rfl⟩
  · rintro ⟨h, rfl⟩
    exact ⟨h.resolves, h.consumption, h.all, rfl⟩

/-! ## Start and dispatch -/

theorem startGraphRun_ok {command : StartGraphRun} {t : GraphRunState}
    (started : startGraphRun command = .ok t) :
      ValidRun t ∧ t.status = .running ∧ t.superstep = 0 ∧ t.revision = 0 ∧
      t.executionSequence = 0 ∧ t.execution = none ∧ t.settledPublications = [] ∧
      t.joinProgress = [] ∧ t.frontier = pendingFrontier command.activations := by
  simp only [startGraphRun, bind_unit_eq_ok, validatedGraphRunState_eq_ok] at started
  obtain ⟨-, -, -, valid, rfl⟩ := started
  exact ⟨valid, rfl, rfl, rfl, rfl, rfl, rfl, rfl, rfl⟩

/-- `reduce_graph_run` on an existing run: the transition, between two valid states. -/
structure Reduces (state : GraphRunState) (command : GraphRunCommand)
    (updated : GraphRunState) : Prop where
  valid : ValidRun state
  expected : command.expectedRevision = some state.revision
  transition : transition state command = .ok updated
  result : ValidRun { updated with revision := state.revision + 1 }

theorem reduceGraphRun_some_eq_ok (state t : GraphRunState) (command : GraphRunCommand) :
    reduceGraphRun (some state) command = .ok t ↔ ∃ updated,
      Reduces state command updated ∧ t = { updated with revision := state.revision + 1 } := by
  have existing : reduceExisting state command = .ok t ↔ ∃ updated,
      Reduces state command updated ∧ t = { updated with revision := state.revision + 1 } := by
    simp only [reduceExisting, bind_eq_ok, exists_unit, validateGraphRunState_eq_ok,
      raiseIf_eq_ok, ne_eq, not_not, validatedGraphRunState_eq_ok]
    constructor
    · rintro ⟨valid, expected, updated, moved, result, rfl⟩
      exact ⟨updated, ⟨valid, expected, moved, result⟩, rfl⟩
    · rintro ⟨updated, h, rfl⟩
      exact ⟨h.valid, h.expected, updated, h.transition, h.result, rfl⟩
  cases command with
  | start command =>
      simp only [reduceGraphRun, throw_eq_error, reduceCtorEq, false_iff, not_exists]
      rintro updated ⟨h, -⟩
      exact absurd h.expected (by simp [GraphRunCommand.expectedRevision])
  | claim command => exact existing
  | fence command => exact existing
  | settle command => exact existing
  | resume command => exact existing
  | advance command => exact existing
  | complete command => exact existing
  | abort command => exact existing

theorem reduceGraphRun_none_eq_ok (command : GraphRunCommand) (t : GraphRunState) :
    reduceGraphRun none command = .ok t ↔
      ∃ start, command = .start start ∧ startGraphRun start = .ok t := by
  cases command <;> simp [reduceGraphRun]

end MoteKernel
