import MoteKernel.State.Transitions

/-!
# The run invariant as a proposition

Each validator of `State.Validation` accepts exactly the states that satisfy a
structure of named facts. Later proofs use the facts and never open the
validators again.
-/

namespace MoteKernel
open Checked Canonical

/-! ## Frontier lookups -/

@[simp] theorem requireIdentity_eq_ok (value field : String) (u : Unit) :
    requireIdentity value field = .ok u ↔ isCanonicalIdentity value = true := by
  simp [requireIdentity]

/-- In a frontier without repeated identities, the lookup finds exactly the members. -/
theorem frontierNode_eq_some {frontier : GraphFrontierState} {nodeId : GraphNodeId}
    {node : GraphFrontierNode} (distinct : (frontier.nodes.map (·.nodeId)).Nodup) :
    frontierNode frontier nodeId = some node ↔ node ∈ frontier.nodes ∧ node.nodeId = nodeId :=
  find_key_eq_some GraphFrontierNode.nodeId distinct

theorem mem_pendingNodeIds {frontier : GraphFrontierState} {nodeId : GraphNodeId} :
    nodeId ∈ pendingNodeIds frontier ↔
      ∃ node ∈ frontier.nodes, node.settlement.isPending = true ∧ node.nodeId = nodeId := by
  simp [pendingNodeIds, and_assoc]

theorem mem_routingContributions {frontier : GraphFrontierState} {nodeId : GraphNodeId}
    {routing : GraphRoutingContribution} :
    (nodeId, routing) ∈ routingContributions frontier ↔
      ∃ node ∈ frontier.nodes, node.nodeId = nodeId ∧ node.settlement = .succeeded routing := by
  simp only [routingContributions, List.mem_filterMap]
  constructor
  · rintro ⟨node, member, found⟩
    refine ⟨node, member, ?_⟩
    split at found
    · rename_i settlement
      simp only [Option.some.injEq, Prod.mk.injEq] at found
      exact ⟨found.1, by rw [settlement, found.2]⟩
    · simp at found
  · rintro ⟨node, member, rfl, settlement⟩
    exact ⟨node, member, by simp [settlement]⟩

theorem mem_frontierPublications {state : GraphRunState} {reference : ActivationReference} :
    reference ∈ frontierPublications state ↔
      ∃ node ∈ state.frontier.nodes, ∃ routing, node.settlement = .succeeded routing ∧
        reference = activationReference state.runId state.superstep node.nodeId routing.route := by
  simp only [frontierPublications, List.mem_map, Prod.exists, mem_routingContributions]
  constructor
  · rintro ⟨_, routing, ⟨node, member, rfl, settlement⟩, rfl⟩
    exact ⟨node, member, routing, settlement, rfl⟩
  · rintro ⟨node, member, routing, settlement, rfl⟩
    exact ⟨_, routing, ⟨node, member, rfl, settlement⟩, rfl⟩

/-! ## The publication ledger -/

/-- A route that is present is canonical. -/
def canonicalRoute (route : Option GraphRouteId) : Prop :=
  ∀ r ∈ route, isCanonicalIdentity r = true

/-- The identity fields of one reference are canonical. -/
structure CanonicalReference (reference : ActivationReference) : Prop where
  run : isCanonicalIdentity reference.activation.runId = true
  node : isCanonicalIdentity reference.activation.nodeId = true
  route : canonicalRoute reference.route

theorem referenceActivation_eq_ok (reference : ActivationReference) (field : String) (u : Unit) :
    referenceActivation reference field = .ok u ↔ CanonicalReference reference := by
  unfold referenceActivation
  cases route : reference.route with
  | none =>
      simp only [bind_unit_eq_ok, requireIdentity_eq_ok, pure_eq_ok, and_true]
      exact ⟨fun h => ⟨h.1, h.2, by simp [canonicalRoute, route]⟩, fun h => ⟨h.run, h.node⟩⟩
  | some r =>
      simp only [bind_unit_eq_ok, requireIdentity_eq_ok]
      exact ⟨fun h => ⟨h.1, h.2.1, by simpa [canonicalRoute, route] using h.2.2⟩,
        fun h => ⟨h.run, h.node, h.route r route⟩⟩

theorem wellFormed_iff (reference : ActivationReference) :
    reference.wellFormed = true ↔ CanonicalReference reference := by
  unfold ActivationReference.wellFormed GraphActivationIdentity.wellFormed
  simp only [Bool.and_eq_true, Option.all_eq_true]
  exact ⟨fun h => ⟨h.1.1, h.1.2, h.2⟩, fun h => ⟨⟨h.run, h.node⟩, h.route⟩⟩

/-- A token that a lease or a record may carry. -/
structure ValidToken (token : GraphExecutionToken) : Prop where
  generation : 1 ≤ token.generation
  attempt : isCanonicalIdentity token.attemptId = true

theorem tokenAdmit_eq_ok (token : GraphExecutionToken) (u : Unit) :
    token.admitted = .ok u ↔ ValidToken token := by
  simp only [GraphExecutionToken.admitted, bind_unit_eq_ok, raiseIf_eq_ok, Bool.not_eq_false, not_lt]
  exact ⟨fun h => ⟨h.1, h.2⟩, fun h => ⟨h.generation, h.attempt⟩⟩

/-- Evidence is absent, or an exact SHA-256 digest. -/
def ValidEvidence (evidence : Option GraphEvidenceCommitment) : Prop :=
  ∀ commitment ∈ evidence, commitment.digest.length = 32

/-- The shape `GraphPublicationSettlement.admit` accepts. -/
structure ValidRecord (item : GraphPublicationSettlement) : Prop where
  reference : CanonicalReference item.reference
  revision : 1 ≤ item.commitRevision
  token : ValidToken item.execution
  evidence : ValidEvidence item.evidence

theorem admitEvidence_eq_ok (evidence : Option GraphEvidenceCommitment) (u : Unit) :
    admitEvidence evidence = .ok u ↔ ValidEvidence evidence := by
  cases evidence <;> simp [admitEvidence, ValidEvidence, GraphEvidenceCommitment.admitted]

theorem recordAdmit_eq_ok (item : GraphPublicationSettlement) (u : Unit) :
    item.admitted = .ok u ↔ ValidRecord item := by
  simp only [GraphPublicationSettlement.admitted, rethrow_eq_ok, bind_unit_eq_ok, raiseIf_eq_ok,
    Bool.not_eq_false, wellFormed_iff, not_lt, tokenAdmit_eq_ok, admitEvidence_eq_ok]
  exact ⟨fun h => ⟨h.1, h.2.1, h.2.2.1, h.2.2.2⟩,
    fun h => ⟨h.reference, h.revision, h.token, h.evidence⟩⟩

/-- The publication ledger of a valid state. -/
structure ValidLedger (state : GraphRunState) : Prop where
  records : ∀ item ∈ state.settledPublications, ValidRecord item
  canonical : state.settledReferences.Pairwise (· < ·)
  activations : (state.settledPublications.map (·.reference.activation)).Nodup
  revisions : (state.settledPublications.map (·.commitRevision)).Nodup
  run : ∀ item ∈ state.settledPublications, item.reference.activation.runId = state.runId
  superstep : ∀ item ∈ state.settledPublications,
    item.reference.activation.superstep ≤ state.superstep
  revision : ∀ item ∈ state.settledPublications, item.commitRevision ≤ state.revision
  generation : ∀ item ∈ state.settledPublications,
    item.execution.generation ≤ state.executionSequence
  current : state.status ≠ .completed → ∀ reference,
    (reference ∈ state.settledReferences ∧ reference.activation.superstep = state.superstep) ↔
      reference ∈ frontierPublications state
  canonicalSuccesses : state.status ≠ .completed → ∀ reference ∈ frontierPublications state,
    CanonicalReference reference

theorem makeActivationReference_eq_ok (runId : GraphRunId) (superstep : Nat)
    (nodeId : GraphNodeId) (route : Option GraphRouteId) (reference : ActivationReference) :
    makeActivationReference runId superstep nodeId route = .ok reference ↔
      CanonicalReference (activationReference runId superstep nodeId route) ∧
        reference = activationReference runId superstep nodeId route := by
  simp only [makeActivationReference, bind_unit_eq_ok, raiseIf_eq_ok, Bool.not_eq_false,
    not_exists, not_and, pure_eq_ok, Except.ok.injEq]
  constructor
  · rintro ⟨run, node, routeOk, rfl⟩
    exact ⟨⟨run, node, fun r present => routeOk r present⟩, rfl⟩
  · rintro ⟨canonical, rfl⟩
    exact ⟨canonical.run, canonical.node, canonical.route, rfl⟩

/-- When no frontier identity repeats, a record of the current superstep passes its frontier
check exactly when it is the publication of a successful node. -/
theorem validateCurrentPublication_eq_ok {state : GraphRunState}
    (distinct : (state.frontier.nodes.map (·.nodeId)).Nodup) {reference : ActivationReference}
    (run : reference.activation.runId = state.runId)
    (here : reference.activation.superstep = state.superstep) (u : Unit) :
    validateCurrentPublication state reference = .ok u ↔
      reference ∈ frontierPublications state := by
  obtain ⟨⟨runId, superstep, nodeId⟩, route⟩ := reference
  simp only at run here
  subst run here
  have publication : ∀ node ∈ state.frontier.nodes, ∀ routing,
      (⟨⟨state.runId, state.superstep, nodeId⟩, route⟩ : ActivationReference) =
        activationReference state.runId state.superstep node.nodeId
          (GraphRoutingContribution.route routing) →
      frontierNode state.frontier nodeId = some node ∧ route = routing.route := by
    intro node member routing same
    simp only [activationReference, ActivationReference.mk.injEq,
      GraphActivationIdentity.mk.injEq, true_and] at same
    exact ⟨(frontierNode_eq_some distinct).mpr ⟨member, same.1.symm⟩, same.2⟩
  rw [mem_frontierPublications]
  unfold validateCurrentPublication
  split
  · rename_i id routing cause found
    obtain ⟨member, rfl⟩ := (frontierNode_eq_some distinct).mp found
    simp only [raiseIf_eq_ok, ne_eq, not_not]
    constructor
    · rintro rfl
      exact ⟨_, member, routing, rfl, rfl⟩
    · rintro ⟨node, nodeMember, routing', settlement, same⟩
      obtain ⟨foundNode, sameRoute⟩ := publication node nodeMember routing' same
      rw [found, Option.some.injEq] at foundNode
      subst foundNode
      cases settlement
      exact sameRoute
  · rename_i other
    simp only [throw_eq_error, reduceCtorEq, false_iff, not_exists, not_and]
    intro node member routing settlement same
    obtain ⟨found, -⟩ := publication node member routing same
    obtain ⟨id, nodeSettlement, cause⟩ := node
    simp only at settlement
    subst settlement
    exact other id routing cause found

theorem validateSettledPublication_eq_ok {state : GraphRunState}
    (distinct : (state.frontier.nodes.map (·.nodeId)).Nodup)
    (item : GraphPublicationSettlement) (u : Unit) :
    validateSettledPublication state item = .ok u ↔
      CanonicalReference item.reference ∧
      (item.reference.activation.runId = state.runId ∧
        item.reference.activation.superstep ≤ state.superstep) ∧
      item.commitRevision ≤ state.revision ∧
      item.execution.generation ≤ state.executionSequence ∧
      (item.reference.activation.superstep = state.superstep → state.status ≠ .completed →
        item.reference ∈ frontierPublications state) := by
  simp only [validateSettledPublication, bind_unit_eq_ok, referenceActivation_eq_ok,
    raiseIf_eq_ok, ne_eq, not_or, not_not, not_lt, gt_iff_lt]
  refine and_congr_right (fun _ => and_congr_right (fun place => and_congr_right (fun _ =>
    and_congr_right (fun _ => ?_))))
  split
  · rename_i here
    rw [validateCurrentPublication_eq_ok distinct place.1 here.1]
    exact ⟨fun h _ _ => h, fun h => h here.1 here.2⟩
  · rename_i elsewhere
    simp only [pure_eq_ok, true_iff]
    intro here live
    exact absurd ⟨here, live⟩ elsewhere

theorem canonicalReferences_eq_ok (references : List ActivationReference) (field : String)
    (u : Unit) :
    canonicalReferences references field = .ok u ↔ references.Pairwise (· < ·) := by
  simp [canonicalReferences, eq_sortedSet_iff]

theorem validateFrontierLedger_eq_ok (state : GraphRunState) (u : Unit) :
    validateFrontierLedger state = .ok u ↔
      (∀ reference ∈ frontierPublications state, CanonicalReference reference) ∧
      ∀ reference, (reference ∈ state.settledReferences ∧
        reference.activation.superstep = state.superstep) ↔
          reference ∈ frontierPublications state := by
  simp only [validateFrontierLedger, bind_unit_eq_ok, checkAll_eq_ok, raiseIf_eq_ok, not_not]
  refine and_congr ?_ ?_
  · simp only [bind_eq_ok, makeActivationReference_eq_ok, pure_eq_ok, and_true,
      frontierPublications, List.forall_mem_map, exists_and_left, exists_eq, and_true]
  · simp only [List.subset_def, List.mem_filter, decide_eq_true_eq]
    exact ⟨fun h reference => ⟨fun x => h.1 x, fun x => h.2 x⟩,
      fun h => ⟨fun {a} x => (h a).mp x, fun {a} x => (h a).mpr x⟩⟩

theorem validateSettledPublications_eq_ok {state : GraphRunState}
    (distinct : (state.frontier.nodes.map (·.nodeId)).Nodup) (u : Unit) :
    validateSettledPublications state = .ok u ↔ ValidLedger state := by
  simp only [validateSettledPublications, bind_unit_eq_ok, checkAll_eq_ok, rethrow_eq_ok,
    recordAdmit_eq_ok, canonicalReferences_eq_ok, raiseIf_eq_ok, not_not,
    validateSettledPublication_eq_ok distinct]
  constructor
  · rintro ⟨records, canonical, activations, revisions, items, last⟩
    have agree : state.status ≠ .completed → validateFrontierLedger state = .ok () := by
      intro live
      simpa [live] using last
    exact ⟨records, canonical, activations, revisions, fun i m => (items i m).2.1.1,
      fun i m => (items i m).2.1.2, fun i m => (items i m).2.2.1,
      fun i m => (items i m).2.2.2.1,
      fun live => ((validateFrontierLedger_eq_ok state ()).mp (agree live)).2,
      fun live => ((validateFrontierLedger_eq_ok state ()).mp (agree live)).1⟩
  · intro ledger
    refine ⟨ledger.records, ledger.canonical, ledger.activations, ledger.revisions, ?_, ?_⟩
    · intro item member
      refine ⟨(ledger.records item member).reference,
        ⟨ledger.run item member, ledger.superstep item member⟩, ledger.revision item member,
        ledger.generation item member, ?_⟩
      intro here live
      exact (ledger.current live _).mp ⟨List.mem_map_of_mem member, here⟩
    · split
      · rename_i live
        exact (validateFrontierLedger_eq_ok state _).mpr
          ⟨ledger.canonicalSuccesses live, ledger.current live⟩
      · rfl

/-! ## Join progress -/

/-- The identity of one Join occurrence of this run. -/
structure ValidOccurrence (state : GraphRunState) (occurrence : GraphJoinOccurrenceIdentity) :
    Prop where
  arity : 2 ≤ occurrence.join.sources.length
  sources : ∀ source ∈ occurrence.join.sources, isCanonicalIdentity source = true
  ordered : occurrence.join.sources.Pairwise (· < ·)
  target : isCanonicalIdentity occurrence.join.target = true
  apart : occurrence.join.target ∉ occurrence.join.sources
  run : occurrence.runId = state.runId
  canonical : isCanonicalIdentity occurrence.runId = true
  step : 1 ≤ occurrence.targetSuperstep

theorem validateJoinOccurrence_eq_ok (state : GraphRunState)
    (occurrence : GraphJoinOccurrenceIdentity) (u : Unit) :
    validateJoinOccurrence state occurrence = .ok u ↔ ValidOccurrence state occurrence := by
  simp only [validateJoinOccurrence, bind_unit_eq_ok, raiseIf_eq_ok, not_or, not_lt, ne_eq,
    not_not, not_exists, not_and, Bool.not_eq_false, eq_sortedSet_iff]
  constructor
  · rintro ⟨⟨a, b, c⟩, ⟨d, e⟩, ⟨f, g⟩, h⟩
    exact ⟨a, b, c, d, e, f, g, h⟩
  · intro h
    exact ⟨⟨h.arity, h.sources, h.ordered⟩, ⟨h.target, h.apart⟩, ⟨h.run, h.canonical⟩, h.step⟩

/-- One recorded arrival of an occurrence. -/
structure ValidArrival (state : GraphRunState) (occurrence : GraphJoinOccurrenceIdentity)
    (reference : ActivationReference) : Prop where
  canonical : CanonicalReference reference
  run : reference.activation.runId = occurrence.runId
  past : reference.activation.superstep < state.superstep
  early : reference.activation.superstep < occurrence.targetSuperstep
  source : reference.activation.nodeId ∈ occurrence.join.sources
  settled : reference ∈ state.settledReferences

theorem validateJoinArrival_eq_ok (state : GraphRunState)
    (occurrence : GraphJoinOccurrenceIdentity) (reference : ActivationReference) (u : Unit) :
    validateJoinArrival state occurrence reference = .ok u ↔
      ValidArrival state occurrence reference := by
  simp only [validateJoinArrival, bind_unit_eq_ok, referenceActivation_eq_ok, raiseIf_eq_ok,
    not_or, not_le, ge_iff_le, ne_eq, not_not]
  constructor
  · rintro ⟨a, ⟨b, c, d, e⟩, f⟩
    exact ⟨a, b, c, d, e, f⟩
  · intro h
    exact ⟨h.canonical, ⟨h.run, h.past, h.early, h.source⟩, h.settled⟩

/-- The pending record of one occurrence: some, but not all, of its sources have arrived. -/
structure ValidJoinRecord (state : GraphRunState) (progress : GraphJoinProgress) : Prop where
  future : state.superstep < progress.occurrence.targetSuperstep
  nonempty : progress.arrived ≠ []
  canonical : progress.arrived.Pairwise (· < ·)
  once : (sourceIds progress.arrived).Nodup
  incomplete : ¬ progress.occurrence.join.sources ⊆ sourceIds progress.arrived
  arrivals : ∀ reference ∈ progress.arrived, ValidArrival state progress.occurrence reference

theorem validateJoinRecord_eq_ok (state : GraphRunState) (progress : GraphJoinProgress)
    (u : Unit) :
    validateJoinRecord state progress = .ok u ↔ ValidJoinRecord state progress := by
  simp only [validateJoinRecord, bind_unit_eq_ok, raiseIf_eq_ok, canonicalReferences_eq_ok,
    checkAll_eq_ok, validateJoinArrival_eq_ok, not_or, not_le, not_not]
  constructor
  · rintro ⟨future, nonempty, canonical, ⟨once, -, incomplete⟩, arrivals⟩
    exact ⟨future, nonempty, canonical, once, incomplete, arrivals⟩
  · intro h
    refine ⟨h.future, h.nonempty, h.canonical, ⟨h.once, ?_, h.incomplete⟩, h.arrivals⟩
    intro source member
    obtain ⟨reference, arrived, rfl⟩ := List.mem_map.mp member
    exact (h.arrivals reference arrived).source

/-- The pending Join progress of a valid state. -/
structure ValidJoinProgress (state : GraphRunState) : Prop where
  occurrences : ∀ progress ∈ state.joinProgress, ValidOccurrence state progress.occurrence
  ordered : (state.joinProgress.map (·.occurrence)).Pairwise (· < ·)
  records : ∀ progress ∈ state.joinProgress, ValidJoinRecord state progress

theorem ValidJoinProgress.distinct {state : GraphRunState} (valid : ValidJoinProgress state) :
    (state.joinProgress.map (·.occurrence)).Nodup :=
  nodup_of_strict valid.ordered

theorem validateJoinProgress_eq_ok (state : GraphRunState) (u : Unit) :
    validateJoinProgress state = .ok u ↔ ValidJoinProgress state := by
  simp only [validateJoinProgress, bind_unit_eq_ok, raiseIf_eq_ok, checkAll_eq_ok,
    validateJoinOccurrence_eq_ok, validateJoinRecord_eq_ok, not_not, ne_eq, sorted_eq_self,
    List.forall_mem_map]
  constructor
  · rintro ⟨occurrences, ordered, records, distinct⟩
    exact ⟨occurrences, (ordered.and distinct).imp (fun h => lt_of_le_of_ne h.1 h.2), records⟩
  · intro h
    exact ⟨h.occurrences, h.ordered.imp le_of_lt, h.records, h.distinct⟩

/-! ## The frontier -/

/-- The cause that admitted a node of the current frontier. -/
structure ValidRoutedCause (state : GraphRunState) (nodeId : GraphNodeId)
    (cause : RoutedActivationCause) : Prop where
  later : state.superstep ≠ 0
  nonempty : cause.references ≠ []
  canonical : cause.references.Pairwise (· < ·)
  identities : ∀ reference ∈ cause.references, CanonicalReference reference
  run : ∀ reference ∈ cause.references, reference.activation.runId = state.runId
  past : ∀ reference ∈ cause.references, reference.activation.superstep < state.superstep
  settled : ∀ reference ∈ cause.references, reference ∈ state.settledReferences
  single : cause.joinOccurrence = none → cause.references.length = 1
  occurrence : ∀ occurrence ∈ cause.joinOccurrence, ValidOccurrence state occurrence ∧
    occurrence.join.target = nodeId ∧ occurrence.targetSuperstep = state.superstep ∧
    (sourceIds cause.references).Nodup ∧
    (∀ source, source ∈ sourceIds cause.references ↔ source ∈ occurrence.join.sources)

/-- A start cause at superstep zero, or a valid routed cause. -/
def ValidCause (state : GraphRunState) (nodeId : GraphNodeId) : GraphActivationCause → Prop
  | .start => state.superstep = 0
  | .routed cause => ValidRoutedCause state nodeId cause

theorem validateCauseOccurrence_eq_ok (state : GraphRunState) (nodeId : GraphNodeId)
    (references : List ActivationReference) (joinOccurrence : Option GraphJoinOccurrenceIdentity)
    (u : Unit) :
    validateCauseOccurrence state nodeId references joinOccurrence = .ok u ↔
      (joinOccurrence = none → references.length = 1) ∧
      ∀ occurrence ∈ joinOccurrence, ValidOccurrence state occurrence ∧
        occurrence.join.target = nodeId ∧ occurrence.targetSuperstep = state.superstep ∧
        (sourceIds references).Nodup ∧
        (∀ source, source ∈ sourceIds references ↔ source ∈ occurrence.join.sources) := by
  cases joinOccurrence with
  | none => simp [validateCauseOccurrence]
  | some occurrence =>
      simp only [validateCauseOccurrence, bind_unit_eq_ok, validateJoinOccurrence_eq_ok,
        raiseIf_eq_ok, not_or, not_not, ne_eq, reduceCtorEq, false_implies, true_and,
        Option.mem_def, Option.some.injEq, forall_eq', List.subset_def, and_assoc]
      refine and_congr_right (fun _ => and_congr_right (fun _ => and_congr_right (fun _ =>
        and_congr_right (fun _ => ?_))))
      exact ⟨fun h source => ⟨fun m => h.1 m, fun m => h.2 m⟩,
        fun h => ⟨fun {a} m => (h a).mp m, fun {a} m => (h a).mpr m⟩⟩

theorem validateActivationCause_eq_ok (state : GraphRunState) (nodeId : GraphNodeId)
    (cause : GraphActivationCause) (u : Unit) :
    validateActivationCause state nodeId cause = .ok u ↔ ValidCause state nodeId cause := by
  cases cause with
  | start => simp [validateActivationCause, ValidCause]
  | routed cause =>
      simp only [validateActivationCause, bind_unit_eq_ok, raiseIf_eq_ok,
        canonicalReferences_eq_ok, checkAll_eq_ok, validateCauseReference,
        referenceActivation_eq_ok, validateCauseOccurrence_eq_ok, not_or, not_not, ne_eq, not_le,
        ge_iff_le, ValidCause]
      constructor
      · rintro ⟨later, nonempty, canonical, references, single, occurrence⟩
        exact ⟨later, nonempty, canonical, fun r m => (references r m).1,
          fun r m => (references r m).2.1.1, fun r m => (references r m).2.1.2,
          fun r m => (references r m).2.2, single, occurrence⟩
      · intro h
        exact ⟨h.later, h.nonempty, h.canonical, fun r m => ⟨h.identities r m,
          ⟨h.run r m, h.past r m⟩, h.settled r m⟩, h.single, h.occurrence⟩

/-- One settlement of the current frontier. -/
def ValidSettlement (state : GraphRunState) (nodeId : GraphNodeId) : GraphNodeSettlement → Prop
  | .pending _ => True
  | .succeeded routing => canonicalRoute routing.route
  | .failed failure => isCanonicalIdentity failure = true
  | .interrupted interrupt =>
      interrupt.identity.nodeId = nodeId ∧ interrupt.identity.runId = state.runId ∧
      interrupt.identity.superstep = state.superstep ∧
      1 ≤ interrupt.identity.executionGeneration ∧
      interrupt.identity.executionGeneration ≤ state.executionSequence

theorem validateSettlement_eq_ok (state : GraphRunState) (nodeId : GraphNodeId)
    (settlement : GraphNodeSettlement) (u : Unit) :
    validateSettlement state nodeId settlement = .ok u ↔
      ValidSettlement state nodeId settlement := by
  cases settlement with
  | pending input => simp [validateSettlement, ValidSettlement]
  | succeeded routing =>
      cases routing <;> simp [validateSettlement, validateRouting, ValidSettlement,
        canonicalRoute, GraphRoutingContribution.route]
  | failed failure => simp [validateSettlement, ValidSettlement]
  | interrupted interrupt =>
      simp [validateSettlement, validateInterruptIdentity, ValidSettlement,
        Nat.one_le_iff_ne_zero]

/-- The frontier of a valid state. -/
structure ValidFrontier (state : GraphRunState) (frontier : GraphFrontierState) : Prop where
  ordered : (frontier.nodes.map (·.nodeId)).Pairwise (· < ·)
  identities : ∀ node ∈ frontier.nodes, isCanonicalIdentity node.nodeId = true
  causes : ∀ node ∈ frontier.nodes, ValidCause state node.nodeId node.cause
  settlements : ∀ node ∈ frontier.nodes, ValidSettlement state node.nodeId node.settlement
  codec : ∀ node ∈ frontier.nodes, needsCodec node.settlement = true →
    state.resumeInputCodec ≠ none
  codecIdentity : ∀ codec ∈ state.resumeInputCodec,
    isCanonicalIdentity codec.codecId = true ∧ 1 ≤ codec.version

theorem ValidFrontier.distinct {state : GraphRunState} {frontier : GraphFrontierState}
    (valid : ValidFrontier state frontier) : (frontier.nodes.map (·.nodeId)).Nodup :=
  nodup_of_strict valid.ordered

theorem validateCodec_eq_ok (state : GraphRunState) (u : Unit) :
    validateCodec state = .ok u ↔ ∀ codec ∈ state.resumeInputCodec,
      isCanonicalIdentity codec.codecId = true ∧ 1 ≤ codec.version := by
  unfold validateCodec
  cases state.resumeInputCodec <;> simp [Nat.one_le_iff_ne_zero]

theorem validateGraphFrontier_eq_ok (state : GraphRunState) (frontier : GraphFrontierState)
    (u : Unit) :
    validateGraphFrontier state frontier = .ok u ↔ ValidFrontier state frontier := by
  simp only [validateGraphFrontier, bind_unit_eq_ok, raiseIf_eq_ok, checkAll_eq_ok, ne_eq,
    not_not, eq_sortedSet_iff, requireIdentity_eq_ok, validateActivationCause_eq_ok,
    validateSettlement_eq_ok, validateCodec_eq_ok, List.any_eq_true, not_and,
    forall_exists_index]
  constructor
  · rintro ⟨ordered, nodes, needed, identity⟩
    exact ⟨ordered, fun n m => (nodes n m).1, fun n m => (nodes n m).2.1,
      fun n m => (nodes n m).2.2, fun n m needs => needed n ⟨m, needs⟩, identity⟩
  · intro h
    exact ⟨h.ordered, fun n m => ⟨h.identities n m, h.causes n m, h.settlements n m⟩,
      fun n m => h.codec n m.1 m.2, h.codecIdentity⟩

/-! ## The whole state -/

/-- The resource snapshot of a valid state. -/
structure ValidRunResources (state : GraphRunState) (resources : ResourceSnapshot) : Prop where
  snapshot : ResourceReducer.validateResourceSnapshot resources = .ok ()
  nonempty : resources.acquisitions ≠ []
  leased : state.execution ≠ none
  pending : resources.acquisitions.map (·.nodeId) ⊆ pendingNodeIds state.frontier

/-- The execution lease of a valid state. -/
structure ValidLease (state : GraphRunState) (lease : GraphExecutionLease) : Prop where
  running : state.status = .running
  token : ValidToken lease.token
  generation : lease.token.generation = state.executionSequence
  pending : pendingNodeIds state.frontier ≠ []

/-- The parent activation of a valid nested run. -/
structure ValidParent (state : GraphRunState) (parent : GraphActivationIdentity) : Prop where
  run : isCanonicalIdentity parent.runId = true
  node : isCanonicalIdentity parent.nodeId = true
  apart : parent.runId ≠ state.runId
  child : state.runId = childGraphRunId parent.runId parent.superstep parent.nodeId

/-- The lifecycle facts of each status. -/
def ValidStatus (state : GraphRunState) : Prop :=
  match state.status with
  | .running => state.frontier.nodes ≠ [] ∧ frontierStatus state.frontier ≠ some .failed ∧
      state.abort = none ∧ state.completionRoute = none
  | .completed => (state.frontier.nodes = [] ∧ state.joinProgress = [] ∧ state.resources = none) ∧
      state.abort = none ∧
      (state.graphInputEvidence ≠ none → validateCompletedGraphProvenance state = .ok ())
  | .failed => state.frontier.nodes ≠ [] ∧ frontierStatus state.frontier = some .failed ∧
      state.resources = none ∧ state.execution = none ∧ state.abort = none ∧
      state.completionRoute = none
  | .aborted => (state.frontier.nodes ≠ [] ∧ state.abort ≠ none ∧ state.resources = none ∧
      state.completionRoute = none) ∧
      ∀ abort ∈ state.abort, isCanonicalIdentity abort.reason = true

/-- The facts `validate_graph_run_state` checks. -/
structure ValidRun (state : GraphRunState) : Prop where
  run : isCanonicalIdentity state.runId = true
  definition : isCanonicalIdentity state.definitionId = true
  version : 1 ≤ state.definitionVersion
  config : state.configCursor.postInit = .ok ()
  ledger : ValidLedger state
  route : canonicalRoute state.completionRoute
  parent : ∀ parent ∈ state.parent, ValidParent state parent
  joins : ValidJoinProgress state
  frontier : ValidFrontier state state.frontier
  resources : ∀ resources ∈ state.resources, ValidRunResources state resources
  lease : ∀ lease ∈ state.execution, ValidLease state lease
  status : ValidStatus state

theorem validateParent_eq_ok (state : GraphRunState) (u : Unit) :
    validateParent state = .ok u ↔ ∀ parent ∈ state.parent, ValidParent state parent := by
  unfold validateParent
  cases state.parent with
  | none => simp
  | some parent =>
      simp only [bind_unit_eq_ok, requireIdentity_eq_ok, raiseIf_eq_ok, Option.mem_def,
        Option.some.injEq, forall_eq', ne_eq, not_not]
      exact ⟨fun h => ⟨h.1, h.2.1, h.2.2.1, h.2.2.2⟩, fun h => ⟨h.run, h.node, h.apart, h.child⟩⟩

theorem validateRunResources_eq_ok (state : GraphRunState) (u : Unit) :
    validateRunResources state = .ok u ↔
      ∀ resources ∈ state.resources, ValidRunResources state resources := by
  unfold validateRunResources
  cases state.resources with
  | none => simp
  | some resources =>
      simp only [bind_unit_eq_ok, rethrow_eq_ok, raiseIf_eq_ok, Option.mem_def,
        Option.some.injEq, forall_eq', not_not]
      constructor
      · rintro ⟨snapshot, nonempty, leased, -, pending⟩
        exact ⟨snapshot, nonempty, leased, pending⟩
      · intro h
        refine ⟨h.snapshot, h.nonempty, h.leased, ?_, h.pending⟩
        intro none
        have inside := h.pending
        rw [none, List.subset_nil, List.map_eq_nil_iff] at inside
        exact h.nonempty inside

theorem validateRunExecution_eq_ok (state : GraphRunState) (u : Unit) :
    validateRunExecution state = .ok u ↔
      ∀ lease ∈ state.execution, ValidLease state lease := by
  unfold validateRunExecution
  cases state.execution with
  | none => simp
  | some lease =>
      simp only [bind_unit_eq_ok, rethrow_eq_ok, raiseIf_eq_ok, Option.mem_def,
        Option.some.injEq, forall_eq', tokenAdmit_eq_ok, ne_eq, not_not]
      exact ⟨fun h => ⟨h.1, h.2.1, h.2.2.1, h.2.2.2⟩,
        fun h => ⟨h.running, h.token, h.generation, h.pending⟩⟩

theorem validateRunStatus_eq_ok (state : GraphRunState) (u : Unit) :
    validateRunStatus state = .ok u ↔ ValidStatus state := by
  unfold validateRunStatus ValidStatus
  cases state.status with
  | running => simp
  | completed =>
      by_cases evidence : state.graphInputEvidence = none <;> simp [evidence, and_assoc]
  | failed => simp
  | aborted => cases state.abort <;> simp [and_assoc]

theorem validateCompletionRoute_eq_ok (state : GraphRunState) (u : Unit) :
    validateCompletionRoute state = .ok u ↔ canonicalRoute state.completionRoute := by
  unfold validateCompletionRoute
  cases state.completionRoute <;> simp [canonicalRoute]

theorem validateGraphRunState_eq_ok (state : GraphRunState) (u : Unit) :
    validateGraphRunState state = .ok u ↔ ValidRun state := by
  simp only [validateGraphRunState, rethrow_eq_ok, rawValidateGraphRunState, bind_unit_eq_ok,
    requireIdentity_eq_ok, raiseIf_eq_ok, not_lt, validateParent_eq_ok,
    validateJoinProgress_eq_ok, validateGraphFrontier_eq_ok, validateRunResources_eq_ok,
    validateRunExecution_eq_ok, validateRunStatus_eq_ok,
    validateCompletionRoute_eq_ok]
  constructor
  · rintro ⟨run, definition, version, config, ledger, route, parent, joins, frontier,
      resources, lease, status⟩
    exact ⟨run, definition, version, config,
      (validateSettledPublications_eq_ok frontier.distinct ()).mp ledger, route, parent, joins,
      frontier, resources, lease, status⟩
  · intro h
    exact ⟨h.run, h.definition, h.version, h.config,
      (validateSettledPublications_eq_ok h.frontier.distinct ()).mpr h.ledger, h.route, h.parent,
      h.joins, h.frontier, h.resources, h.lease, h.status⟩

@[simp] theorem validatedGraphRunState_eq_ok (state result : GraphRunState) :
    validatedGraphRunState state = .ok result ↔ ValidRun state ∧ result = state := by
  simp only [validatedGraphRunState, bind_unit_eq_ok, validateGraphRunState_eq_ok, pure_eq_ok,
    Except.ok.injEq]
  exact and_congr_right (fun _ => eq_comm)

end MoteKernel
