import MoteKernel.State.ResourceSteps
import MoteKernel.State.Steps

/-!
# The run invariant is inductive

A transition that passes its own guards builds a state that satisfies the whole
invariant, so the validation at the end of `reduce_graph_run` has nothing left to
reject.
-/

namespace MoteKernel
open Checked Canonical

/-! ## Frontier dispositions -/

theorem frontierStatus_eq_executable {frontier : GraphFrontierState} :
    frontierStatus frontier = some .executable ↔
      ∃ node ∈ frontier.nodes, node.settlement.isPending = true := by
  unfold frontierStatus
  by_cases pending : ∃ node ∈ frontier.nodes, node.settlement.isPending = true
  · have some : (frontier.nodes.map (·.settlement)).any (·.isPending) = true := by
      simpa [List.any_eq_true] using pending
    simp only [some, if_true, pending]
  · have none : (frontier.nodes.map (·.settlement)).any (·.isPending) = false := by
      simpa [List.any_eq_true] using pending
    simp only [none, Bool.false_eq_true, if_false, pending, iff_false]
    split_ifs <;> simp

theorem pendingNodeIds_ne_nil {frontier : GraphFrontierState} :
    pendingNodeIds frontier ≠ [] ↔ frontierStatus frontier = some .executable := by
  rw [frontierStatus_eq_executable]
  simp [pendingNodeIds]

theorem pendingNodeIds_nodup {frontier : GraphFrontierState}
    (distinct : (frontier.nodes.map (·.nodeId)).Nodup) : (pendingNodeIds frontier).Nodup := by
  have sublist : (pendingNodeIds frontier).Sublist (frontier.nodes.map (·.nodeId)) :=
    List.filter_sublist.map _
  exact sublist.nodup distinct

/-- A pending node of a frontier without repetitions is the one found under its identity. -/
theorem pending_found {frontier : GraphFrontierState} {nodeId : GraphNodeId}
    (distinct : (frontier.nodes.map (·.nodeId)).Nodup) (pending : nodeId ∈ pendingNodeIds frontier) :
    ∃ node ∈ frontierNode frontier nodeId, node.settlement.isPending = true := by
  obtain ⟨node, member, isPending, same⟩ := mem_pendingNodeIds.mp pending
  exact ⟨node, (frontierNode_eq_some distinct).mpr ⟨member, same⟩, isPending⟩

/-- A frontier whose settled nodes all succeeded or wait is not a failed one. -/
theorem frontierStatus_ne_failed {frontier : GraphFrontierState}
    (pending : ∃ node ∈ frontier.nodes, node.settlement.isPending = true) :
    frontierStatus frontier ≠ some .failed := by
  rw [frontierStatus_eq_executable.mpr pending]
  simp

/-! ## Facts that survive in place -/

/-- The second state is at the same superstep of the same run, and keeps what the first one
recorded. -/
structure SamePlace (state updated : GraphRunState) : Prop where
  run : updated.runId = state.runId
  superstep : updated.superstep = state.superstep
  codec : updated.resumeInputCodec = state.resumeInputCodec
  sequence : state.executionSequence ≤ updated.executionSequence
  references : state.settledReferences ⊆ updated.settledReferences

section SamePlace

variable {state updated : GraphRunState} (place : SamePlace state updated)

include place

theorem ValidOccurrence.keep {occurrence : GraphJoinOccurrenceIdentity}
    (valid : ValidOccurrence state occurrence) : ValidOccurrence updated occurrence :=
  { valid with run := valid.run.trans place.run.symm }

theorem ValidArrival.keep {occurrence : GraphJoinOccurrenceIdentity}
    {reference : ActivationReference} (valid : ValidArrival state occurrence reference) :
    ValidArrival updated occurrence reference :=
  { valid with
    past := place.superstep ▸ valid.past
    settled := place.references valid.settled }

theorem ValidJoinProgress.keep (valid : ValidJoinProgress state)
    (same : updated.joinProgress = state.joinProgress) : ValidJoinProgress updated := by
  refine ⟨?_, same ▸ valid.ordered, ?_⟩
  · intro progress member
    exact (valid.occurrences progress (same ▸ member)).keep place
  · intro progress member
    have record := valid.records progress (same ▸ member)
    exact { record with
      future := place.superstep ▸ record.future
      arrivals := fun reference arrived => (record.arrivals reference arrived).keep place }

theorem ValidRoutedCause.keep {nodeId : GraphNodeId} {cause : RoutedActivationCause}
    (valid : ValidRoutedCause state nodeId cause) : ValidRoutedCause updated nodeId cause :=
  { valid with
    later := place.superstep ▸ valid.later
    run := fun reference member => (valid.run reference member).trans place.run.symm
    past := fun reference member => place.superstep ▸ valid.past reference member
    settled := fun reference member => place.references (valid.settled reference member)
    occurrence := by
      intro occurrence member
      obtain ⟨own, target, step, once, covers⟩ := valid.occurrence occurrence member
      exact ⟨own.keep place, target, step.trans place.superstep.symm, once, covers⟩ }

theorem ValidCause.keep {nodeId : GraphNodeId} {cause : GraphActivationCause}
    (valid : ValidCause state nodeId cause) : ValidCause updated nodeId cause := by
  cases cause with
  | start => exact place.superstep.trans valid
  | routed cause => exact ValidRoutedCause.keep place valid

theorem ValidSettlement.keep {nodeId : GraphNodeId} {settlement : GraphNodeSettlement}
    (valid : ValidSettlement state nodeId settlement) :
    ValidSettlement updated nodeId settlement := by
  cases settlement with
  | pending input => trivial
  | succeeded routing => exact valid
  | failed failure => exact valid
  | interrupted interrupt =>
      obtain ⟨node, run, superstep, positive, bounded⟩ := valid
      exact ⟨node, run.trans place.run.symm, superstep.trans place.superstep.symm, positive,
        bounded.trans place.sequence⟩

theorem ValidFrontier.keep {frontier : GraphFrontierState}
    (valid : ValidFrontier state frontier) : ValidFrontier updated frontier :=
  { ordered := valid.ordered
    identities := valid.identities
    causes := fun node member => (valid.causes node member).keep place
    settlements := fun node member => (valid.settlements node member).keep place
    codec := fun node member needs => place.codec ▸ valid.codec node member needs
    codecIdentity := fun codec member => valid.codecIdentity codec (place.codec ▸ member) }

/-- The ledger check of a state with the same records and the same successes. -/
theorem ValidLedger.keep (valid : ValidLedger state)
    (same : updated.settledPublications = state.settledPublications)
    (revision : state.revision ≤ updated.revision) (live : state.status ≠ .completed)
    (successes : ∀ reference, reference ∈ frontierPublications updated ↔
      reference ∈ frontierPublications state) : ValidLedger updated := by
  have sameReferences : updated.settledReferences = state.settledReferences := by
    simp only [GraphRunState.settledReferences, same]
  exact
    { records := same ▸ valid.records
      canonical := sameReferences ▸ valid.canonical
      activations := same ▸ valid.activations
      revisions := same ▸ valid.revisions
      run := fun item member => (valid.run item (same ▸ member)).trans place.run.symm
      superstep := fun item member => place.superstep ▸ valid.superstep item (same ▸ member)
      revision := fun item member => (valid.revision item (same ▸ member)).trans revision
      generation := fun item member => (valid.generation item (same ▸ member)).trans place.sequence
      current := by
        intro _ reference
        rw [successes, sameReferences, place.superstep]
        exact valid.current live reference
      canonicalSuccesses := by
        intro _ reference member
        exact valid.canonicalSuccesses live reference ((successes reference).mp member) }

end SamePlace

theorem ValidStatus.running_iff {state : GraphRunState} (running : state.status = .running) :
    ValidStatus state ↔ state.frontier.nodes ≠ [] ∧
      frontierStatus state.frontier ≠ some .failed ∧ state.abort = none ∧
      state.completionRoute = none := by
  simp [ValidStatus, running]

theorem ValidStatus.keep_running {state updated : GraphRunState} (valid : ValidStatus state)
    (running : state.status = .running) (status : updated.status = .running)
    (frontier : updated.frontier = state.frontier) (abort : updated.abort = state.abort)
    (route : updated.completionRoute = state.completionRoute) : ValidStatus updated := by
  rw [ValidStatus.running_iff status, frontier, abort, route]
  exact (ValidStatus.running_iff running).mp valid

/-! ## Claim, fence and abort -/

theorem claim_preserves {state : GraphRunState} {command : ClaimGraphExecution}
    (valid : ValidRun state) (claims : Claims state command)
    (attempt : isCanonicalIdentity command.attemptId = true) :
    ValidRun { state with
      executionSequence := state.executionSequence + 1
      execution := some ⟨claimToken state command⟩
      resources := command.resources
      revision := state.revision + 1 } := by
  have live : state.status ≠ .completed := by simp [claims.running]
  have place : SamePlace state { state with
      executionSequence := state.executionSequence + 1
      execution := some ⟨claimToken state command⟩
      resources := command.resources
      revision := state.revision + 1 } :=
    ⟨rfl, rfl, rfl, Nat.le_succ _, List.Subset.refl _⟩
  refine { valid with
    ledger := valid.ledger.keep place rfl (Nat.le_succ _) live (fun _ => Iff.rfl)
    parent := fun parent member => { valid.parent parent member with }
    joins := valid.joins.keep place rfl
    frontier := valid.frontier.keep place
    resources := ?_
    lease := ?_
    status := ?_ }
  · intro resources member
    obtain ⟨snapshot, nonempty, inside⟩ := claims.resources resources member
    exact ⟨snapshot, nonempty, by simp, inside⟩
  · rintro lease ⟨⟩
    exact ⟨claims.running, ⟨by simp [claimToken], attempt⟩, rfl, claims.pending⟩
  · exact valid.status.keep_running claims.running claims.running rfl rfl rfl

theorem fence_preserves {state : GraphRunState} (valid : ValidRun state)
    (running : state.status = .running) :
    ValidRun { state with
      execution := none
      resources := none
      revision := state.revision + 1 } := by
  have live : state.status ≠ .completed := by simp [running]
  have place : SamePlace state { state with
      execution := none
      resources := none
      revision := state.revision + 1 } :=
    ⟨rfl, rfl, rfl, le_refl _, List.Subset.refl _⟩
  exact { valid with
    ledger := valid.ledger.keep place rfl (Nat.le_succ _) live (fun _ => Iff.rfl)
    parent := fun parent member => { valid.parent parent member with }
    joins := valid.joins.keep place rfl
    frontier := valid.frontier.keep place
    resources := by simp
    lease := by simp
    status := valid.status.keep_running running running rfl rfl rfl }

theorem abort_preserves {state : GraphRunState} {reason : String} (valid : ValidRun state)
    (running : state.status = .running) (unleased : state.execution = none)
    (canonical : isCanonicalIdentity reason = true) :
    ValidRun { state with
      status := .aborted
      resources := none
      abort := some ⟨reason⟩
      revision := state.revision + 1 } := by
  have live : state.status ≠ .completed := by simp [running]
  have place : SamePlace state { state with
      status := .aborted
      resources := none
      abort := some ⟨reason⟩
      revision := state.revision + 1 } :=
    ⟨rfl, rfl, rfl, le_refl _, List.Subset.refl _⟩
  obtain ⟨nonempty, -, -, noRoute⟩ := (ValidStatus.running_iff running).mp valid.status
  exact { valid with
    ledger := valid.ledger.keep place rfl (Nat.le_succ _) live (fun _ => Iff.rfl)
    parent := fun parent member => { valid.parent parent member with }
    joins := valid.joins.keep place rfl
    frontier := valid.frontier.keep place
    resources := by simp
    lease := by simp [unleased]
    status := by simp [ValidStatus, nonempty, noRoute, canonical] }

/-! ## Resume -/

/-- One node of a resumed frontier: unchanged, or an interrupted node that is pending again. -/
theorem resumeNode_eq_ok {actions : List ResumeInterruptedNode} {node updated : GraphFrontierNode}
    (resumed : resumeNode actions node = .ok updated) :
    (updated = node ∧ node.nodeId ∉ actions.map (·.nodeId)) ∨
    ∃ interrupt payload, node.settlement = .interrupted interrupt ∧
      updated = ⟨node.nodeId, .pending (.overrideGraphNodeInput payload), node.cause⟩ := by
  unfold resumeNode at resumed
  split at resumed
  · rename_i absent
    simp only [pure_eq_ok, Except.ok.injEq] at resumed
    refine .inl ⟨resumed.symm, ?_⟩
    simpa [List.find?_eq_none] using absent
  · rename_i action found
    split at resumed
    · rename_i interrupt settlement
      simp only [bind_unit_eq_ok, pure_eq_ok, Except.ok.injEq] at resumed
      exact .inr ⟨interrupt, action.payload, settlement, resumed.2.symm⟩
    · simp at resumed

theorem resumed_nodeIds {actions : List ResumeInterruptedNode} {nodes updated : List GraphFrontierNode}
    (resumed : List.Forall₂ (fun node node' => resumeNode actions node = .ok node') nodes updated) :
    updated.map (·.nodeId) = nodes.map (·.nodeId) := by
  induction resumed with
  | nil => rfl
  | cons head tail ih =>
      rw [List.map_cons, List.map_cons, ih]
      rcases resumeNode_eq_ok head with ⟨rfl, -⟩ | ⟨_, _, -, rfl⟩ <;> rfl

/-- A resume makes at least one node pending. -/
theorem Resumes.pending {state : GraphRunState} {command : ResumeGraphNodes}
    {nodes : List GraphFrontierNode} (resumes : Resumes state command nodes) :
    ∃ node ∈ nodes, node.settlement.isPending = true := by
  obtain ⟨action, rest, actions⟩ := List.exists_cons_of_ne_nil resumes.nonempty
  have named : action.nodeId ∈ command.actions.map (·.nodeId) := by simp [actions]
  obtain ⟨node, member, sameId⟩ := List.mem_map.mp (resumes.known named)
  obtain ⟨updated, updatedMember, resumed⟩ := forall₂_mem_left resumes.nodes member
  rcases resumeNode_eq_ok resumed with ⟨-, absent⟩ | ⟨_, _, -, rfl⟩
  · exact absurd (sameId ▸ named) absent
  · exact ⟨_, updatedMember, rfl⟩

/-- A resume leaves the successes of the frontier as they are. -/
theorem Resumes.successes {state : GraphRunState} {command : ResumeGraphNodes}
    {nodes : List GraphFrontierNode} (resumes : Resumes state command nodes)
    (reference : ActivationReference) :
    reference ∈ frontierPublications
      { state with frontier := ⟨nodes⟩, revision := state.revision + 1 } ↔
      reference ∈ frontierPublications state := by
  simp only [mem_frontierPublications]
  constructor
  · rintro ⟨updated, member, routing, settlement, rfl⟩
    obtain ⟨node, inside, resumed⟩ := forall₂_mem_right resumes.nodes member
    rcases resumeNode_eq_ok resumed with ⟨rfl, -⟩ | ⟨_, _, -, rfl⟩
    · exact ⟨updated, inside, routing, settlement, rfl⟩
    · cases settlement
  · rintro ⟨node, inside, routing, settlement, rfl⟩
    obtain ⟨updated, member, resumed⟩ := forall₂_mem_left resumes.nodes inside
    rcases resumeNode_eq_ok resumed with ⟨rfl, -⟩ | ⟨_, _, interrupted, -⟩
    · exact ⟨updated, member, routing, settlement, rfl⟩
    · rw [settlement] at interrupted
      cases interrupted

theorem resume_preserves {state : GraphRunState} {command : ResumeGraphNodes}
    {nodes : List GraphFrontierNode} (valid : ValidRun state)
    (resumes : Resumes state command nodes) :
    ValidRun { state with frontier := ⟨nodes⟩, revision := state.revision + 1 } := by
  have live : state.status ≠ .completed := by simp [resumes.running]
  have place : SamePlace state
      { state with frontier := ⟨nodes⟩, revision := state.revision + 1 } :=
    ⟨rfl, rfl, rfl, le_refl _, List.Subset.refl _⟩
  have ids : nodes.map (·.nodeId) = state.frontier.nodes.map (·.nodeId) :=
    resumed_nodeIds resumes.nodes
  obtain ⟨nonempty, -, noAbort, noRoute⟩ :=
    (ValidStatus.running_iff resumes.running).mp valid.status
  have pending := resumes.pending
  have somewhere : nodes ≠ [] := by
    obtain ⟨node, member, -⟩ := pending
    exact List.ne_nil_of_mem member
  refine { valid with
    ledger := valid.ledger.keep place rfl (Nat.le_succ _) live resumes.successes
    parent := fun parent member => { valid.parent parent member with }
    joins := valid.joins.keep place rfl
    frontier := ?_
    resources := by simp [resumes.free]
    lease := by simp [resumes.unleased]
    status := ?_ }
  · have frontier := valid.frontier.keep place
    -- each node is an old one, or an old interrupted one whose codec is already bound
    have old : ∀ updated ∈ nodes, ∃ node ∈ state.frontier.nodes, updated.nodeId = node.nodeId ∧
        updated.cause = node.cause ∧ (updated.settlement = node.settlement ∨
          ∃ interrupt payload, node.settlement = .interrupted interrupt ∧
            updated.settlement = .pending (.overrideGraphNodeInput payload)) := by
      intro updated member
      obtain ⟨node, inside, resumed⟩ := forall₂_mem_right resumes.nodes member
      rcases resumeNode_eq_ok resumed with ⟨rfl, -⟩ | ⟨interrupt, payload, settlement, rfl⟩
      · exact ⟨updated, inside, rfl, rfl, .inl rfl⟩
      · exact ⟨node, inside, rfl, rfl, .inr ⟨interrupt, payload, settlement, rfl⟩⟩
    refine ⟨ids ▸ frontier.ordered, ?_, ?_, ?_, ?_, frontier.codecIdentity⟩
    · intro updated member
      obtain ⟨node, inside, sameId, -⟩ := old updated member
      exact sameId ▸ frontier.identities node inside
    · intro updated member
      obtain ⟨node, inside, sameId, sameCause, -⟩ := old updated member
      exact sameCause ▸ sameId ▸ frontier.causes node inside
    · intro updated member
      obtain ⟨node, inside, sameId, -, kept | ⟨_, _, -, pending⟩⟩ := old updated member
      · exact kept ▸ sameId ▸ frontier.settlements node inside
      · rw [pending]
        trivial
    · intro updated member needs
      obtain ⟨node, inside, -, -, kept | ⟨interrupt, _, interrupted, -⟩⟩ := old updated member
      · exact frontier.codec node inside (kept ▸ needs)
      · exact frontier.codec node inside (by rw [interrupted]; rfl)
  · exact (ValidStatus.running_iff (by exact resumes.running)).mpr
      ⟨somewhere, frontierStatus_ne_failed pending, noAbort, noRoute⟩

/-! ## Settlement -/

/-- The outcome carries canonical identities, and its evidence is a digest. -/
structure WellFormedOutcome (command : SettleGraphNode) : Prop where
  evidence : ValidEvidence command.publicationEvidence
  failure : ∀ nodeId failure, command.outcome = .failed nodeId failure →
    isCanonicalIdentity failure = true

theorem OutcomeSettles.not_pending {state : GraphRunState} {command : SettleGraphNode}
    {settlement : GraphNodeSettlement} {ledger : List GraphPublicationSettlement}
    (settles : OutcomeSettles state command settlement ledger) :
    settlement.isPending = false := by
  cases settles <;> rfl

theorem mem_settleFrontier {frontier : GraphFrontierState} {nodeId : GraphNodeId}
    {settlement : GraphNodeSettlement} {updated : GraphFrontierNode} :
    updated ∈ (settleFrontier frontier nodeId settlement).nodes ↔
      ∃ node ∈ frontier.nodes, updated = ⟨node.nodeId,
        if node.nodeId = nodeId then settlement else node.settlement, node.cause⟩ := by
  simp [settleFrontier, eq_comm]

theorem settleFrontier_nodeIds (frontier : GraphFrontierState) (nodeId : GraphNodeId)
    (settlement : GraphNodeSettlement) :
    (settleFrontier frontier nodeId settlement).nodes.map (·.nodeId) =
      frontier.nodes.map (·.nodeId) := by
  simp [settleFrontier]

/-- A settlement takes its node out of the pending ones and leaves the others in. -/
theorem mem_pendingNodeIds_settleFrontier {frontier : GraphFrontierState} {nodeId : GraphNodeId}
    {settlement : GraphNodeSettlement} (settled : settlement.isPending = false)
    {other : GraphNodeId} :
    other ∈ pendingNodeIds (settleFrontier frontier nodeId settlement) ↔
      other ∈ pendingNodeIds frontier ∧ other ≠ nodeId := by
  simp only [mem_pendingNodeIds, mem_settleFrontier]
  constructor
  · rintro ⟨_, ⟨node, member, rfl⟩, pending, rfl⟩
    by_cases same : node.nodeId = nodeId
    · simp [same, settled] at pending
    · simp only [same, if_false] at pending
      exact ⟨⟨node, member, pending, rfl⟩, same⟩
  · rintro ⟨⟨node, member, pending, rfl⟩, different⟩
    exact ⟨_, ⟨node, member, rfl⟩, by simpa [different] using pending, rfl⟩

section Settle

variable {state : GraphRunState} {command : SettleGraphNode} {settlement : GraphNodeSettlement}
  {ledger : List GraphPublicationSettlement} {cursor : GraphConfigCursor}
  {resources : Option ResourceSnapshot}

/-- The state `reduce_graph_run` returns for a settlement. -/
def settledResult (state : GraphRunState) (command : SettleGraphNode)
    (settlement : GraphNodeSettlement) (ledger : List GraphPublicationSettlement)
    (cursor : GraphConfigCursor) (resources : Option ResourceSnapshot) : GraphRunState :=
  { settledState state command.outcome.nodeId settlement ledger cursor resources with
    revision := state.revision + 1 }

/-- The pending node a settlement is about. -/
theorem Settles.pendingNode (settles : Settles state command settlement ledger cursor resources) :
    ∃ node ∈ state.frontier.nodes, node.nodeId = command.outcome.nodeId ∧
      node.settlement.isPending = true := by
  obtain ⟨node, found, pending⟩ := settles.pending
  exact ⟨node, List.mem_of_find?_eq_some found, by simpa using List.find?_some found, pending⟩

/-- The publications of the frontier gain the one of a successful outcome. -/
theorem Settles.successes (valid : ValidRun state)
    (settles : Settles state command settlement ledger cursor resources)
    (reference : ActivationReference) :
    reference ∈ frontierPublications
        (settledResult state command settlement ledger cursor resources) ↔
      reference ∈ frontierPublications state ∨ ∃ routing, settlement = .succeeded routing ∧
        reference = activationReference state.runId state.superstep command.outcome.nodeId
          routing.route := by
  obtain ⟨target, targetMember, targetId, targetPending⟩ := settles.pendingNode
  have frontier : (settledResult state command settlement ledger cursor resources).frontier =
    settleFrontier state.frontier command.outcome.nodeId settlement := rfl
  simp only [mem_frontierPublications, frontier, mem_settleFrontier]
  constructor
  · rintro ⟨_, ⟨node, member, rfl⟩, routing, success, rfl⟩
    by_cases same : node.nodeId = command.outcome.nodeId
    · simp only [same, if_true] at success
      exact .inr ⟨routing, success, by rw [← same]; rfl⟩
    · simp only [same, if_false] at success
      exact .inl ⟨node, member, routing, success, rfl⟩
  · rintro (⟨node, member, routing, success, rfl⟩ | ⟨routing, success, rfl⟩)
    · have different : node.nodeId ≠ command.outcome.nodeId := by
        intro same
        have sameNode := List.inj_on_of_nodup_map valid.frontier.distinct member targetMember
          (same.trans targetId.symm)
        rw [sameNode] at success
        rw [success] at targetPending
        cases targetPending
      exact ⟨_, ⟨node, member, rfl⟩, routing, by simpa [different] using success, rfl⟩
    · refine ⟨_, ⟨target, targetMember, rfl⟩, routing, by simpa [targetId] using success, ?_⟩
      rw [← targetId]
      rfl

/-- A pending activation has no record yet. -/
theorem ValidRun.pending_unrecorded (valid : ValidRun state) (live : state.status ≠ .completed)
    {target : GraphFrontierNode} (targetMember : target ∈ state.frontier.nodes)
    (targetPending : target.settlement.isPending = true) :
    ∀ item ∈ state.settledPublications,
      item.reference.activation ≠ ⟨state.runId, state.superstep, target.nodeId⟩ := by
  intro item member same
  have inside := (valid.ledger.current live item.reference).mp
    ⟨List.mem_map_of_mem member, by rw [same]⟩
  obtain ⟨node, nodeMember, routing, success, reference⟩ := mem_frontierPublications.mp inside
  have sameId : node.nodeId = target.nodeId := by
    rw [reference] at same
    simpa only [activationReference, GraphActivationIdentity.mk.injEq, true_and] using same
  rw [← List.inj_on_of_nodup_map valid.frontier.distinct nodeMember targetMember sameId,
    success] at targetPending
  cases targetPending

/-- The activation being settled has no record yet. -/
theorem Settles.unrecorded (valid : ValidRun state)
    (settles : Settles state command settlement ledger cursor resources) :
    ∀ item ∈ state.settledPublications,
      item.reference.activation ≠ ⟨state.runId, state.superstep, command.outcome.nodeId⟩ := by
  obtain ⟨target, targetMember, targetId, targetPending⟩ := settles.pendingNode
  rw [← targetId]
  apply valid.pending_unrecorded _ targetMember targetPending
  simp [settles.running]

/-- The references of a ledger with one more record, in canonical order. -/
theorem recordPublication_references (ledger : List GraphPublicationSettlement)
    (record : GraphPublicationSettlement) :
    (recordPublication ledger record).map (·.reference) =
      sorted (ledger.map (·.reference) ++ [record.reference]) := by
  unfold recordPublication sorted
  rw [List.map_insertionSort (fun a b : GraphPublicationSettlement => a.reference ≤ b.reference)
    (· ≤ ·) (·.reference) _ (fun _ _ _ _ => Iff.rfl), List.map_append, List.map_singleton]

theorem recordPublication_perm (ledger : List GraphPublicationSettlement)
    (record : GraphPublicationSettlement) :
    (recordPublication ledger record).Perm (ledger ++ [record]) :=
  List.perm_insertionSort _ _

theorem mem_recordPublication {ledger : List GraphPublicationSettlement}
    {record item : GraphPublicationSettlement} :
    item ∈ recordPublication ledger record ↔ item ∈ ledger ∨ item = record := by
  simp [recordPublication]

/-- Appending one value to a list without repetitions. -/
theorem nodup_recordPublication {α : Type} (f : GraphPublicationSettlement → α)
    {ledger : List GraphPublicationSettlement} {record : GraphPublicationSettlement}
    (distinct : (ledger.map f).Nodup) (fresh : ∀ item ∈ ledger, f item ≠ f record) :
    ((recordPublication ledger record).map f).Nodup := by
  rw [((recordPublication_perm ledger record).map f).nodup_iff, List.map_append, List.map_singleton]
  exact List.nodup_append.mpr ⟨distinct, List.nodup_singleton _, by simpa using fresh⟩

theorem Settles.samePlace (settles : Settles state command settlement ledger cursor resources) :
    SamePlace state (settledResult state command settlement ledger cursor resources) := by
  refine ⟨rfl, rfl, rfl, le_refl _, ?_⟩
  have outcome := settles.outcome
  cases outcome with
  | succeeded nodeId routing outcome canonical fresh =>
      intro reference member
      simp only [GraphRunState.settledReferences, settledResult, settledState,
        recordPublication_references, mem_sorted, List.mem_append]
      exact .inl member
  | failed => exact List.Subset.refl _
  | interrupted => exact List.Subset.refl _

theorem Settles.validLedger (valid : ValidRun state)
    (settles : Settles state command settlement ledger cursor resources)
    (wellFormed : WellFormedOutcome command)
    (expected : command.expectedRevision = state.revision) :
    ValidLedger (settledResult state command settlement ledger cursor resources) := by
  have live : state.status ≠ .completed := by simp [settles.running]
  have place := settles.samePlace
  have successes := settles.successes valid
  have unrecorded := settles.unrecorded valid
  have outcome := settles.outcome
  cases outcome with
  | succeeded nodeId routing outcome canonical fresh =>
      have nodeIdEq : command.outcome.nodeId = nodeId := by rw [outcome]; rfl
      rw [nodeIdEq] at unrecorded successes
      have lease := valid.lease _ settles.leased
      refine ⟨?_, ?_, ?_, ?_, ?_, ?_, ?_, ?_, ?_, ?_⟩
      · intro item member
        rcases mem_recordPublication.mp member with old | rfl
        · exact valid.ledger.records item old
        · exact ⟨canonical, Nat.succ_le_succ (Nat.zero_le _), lease.token, wellFormed.evidence⟩
      · rw [GraphRunState.settledReferences]
        simp only [settledResult, settledState, recordPublication_references]
        refine sorted_strict (List.nodup_append.mpr ⟨nodup_of_strict valid.ledger.canonical,
          List.nodup_singleton _, ?_⟩)
        intro reference member other same
        rw [List.mem_singleton.mp same]
        rintro rfl
        exact fresh member
      · exact nodup_recordPublication (fun item => item.reference.activation)
          valid.ledger.activations unrecorded
      · refine nodup_recordPublication (fun item => item.commitRevision)
          valid.ledger.revisions ?_
        intro item member same
        have bounded := valid.ledger.revision item member
        simp only [same, expected] at bounded
        omega
      · intro item member
        rcases mem_recordPublication.mp member with old | rfl
        · exact valid.ledger.run item old
        · rfl
      · intro item member
        rcases mem_recordPublication.mp member with old | rfl
        · exact valid.ledger.superstep item old
        · exact le_refl _
      · intro item member
        rcases mem_recordPublication.mp member with old | rfl
        · exact (valid.ledger.revision item old).trans (Nat.le_succ _)
        · exact (congrArg (· + 1) expected).le
      · intro item member
        rcases mem_recordPublication.mp member with old | rfl
        · exact valid.ledger.generation item old
        · exact lease.generation.le
      · intro _ reference
        rw [successes, ← valid.ledger.current live reference]
        simp only [GraphRunState.settledReferences, settledResult, settledState,
          recordPublication_references, mem_sorted, List.mem_append, List.mem_singleton,
          GraphNodeSettlement.succeeded.injEq, exists_eq_left']
        constructor
        · rintro ⟨old | rfl, here⟩
          · exact .inl ⟨old, here⟩
          · exact .inr rfl
        · rintro (⟨old, here⟩ | rfl)
          · exact ⟨.inl old, here⟩
          · exact ⟨.inr rfl, rfl⟩
      · intro _ reference member
        rcases (successes reference).mp member with old | ⟨_, ⟨⟩, rfl⟩
        · exact valid.ledger.canonicalSuccesses live reference old
        · exact canonical
  | failed nodeId failure outcome noEvidence =>
      exact valid.ledger.keep place rfl (Nat.le_succ _) live
        (fun reference => by simp [successes reference])
  | interrupted nodeId requestPayload outcome noEvidence codec =>
      exact valid.ledger.keep place rfl (Nat.le_succ _) live
        (fun reference => by simp [successes reference])

/-- The new settlement passes the frontier check of the state it is written to. -/
theorem Settles.validSettlement (valid : ValidRun state)
    (settles : Settles state command settlement ledger cursor resources)
    (wellFormed : WellFormedOutcome command) :
    ValidSettlement state command.outcome.nodeId settlement ∧
      (needsCodec settlement = true → state.resumeInputCodec ≠ none) := by
  have lease := valid.lease _ settles.leased
  have outcome := settles.outcome
  cases outcome with
  | succeeded nodeId routing outcome canonical fresh =>
      exact ⟨canonical.route, by simp [needsCodec]⟩
  | failed nodeId failure outcome noEvidence =>
      exact ⟨wellFormed.failure nodeId failure outcome, by simp [needsCodec]⟩
  | interrupted nodeId requestPayload outcome noEvidence codec =>
      refine ⟨?_, fun _ => codec⟩
      rw [outcome]
      exact ⟨rfl, rfl, rfl, lease.token.generation, lease.generation.le⟩

theorem Settles.validFrontier (valid : ValidRun state)
    (settles : Settles state command settlement ledger cursor resources)
    (wellFormed : WellFormedOutcome command) :
    ValidFrontier (settledResult state command settlement ledger cursor resources)
      (settleFrontier state.frontier command.outcome.nodeId settlement) := by
  have place := settles.samePlace
  have frontier := valid.frontier.keep place
  obtain ⟨newValid, newCodec⟩ := settles.validSettlement valid wellFormed
  refine ⟨?_, ?_, ?_, ?_, ?_, frontier.codecIdentity⟩
  · rw [settleFrontier_nodeIds]
    exact frontier.ordered
  · intro updated member
    obtain ⟨node, inside, rfl⟩ := mem_settleFrontier.mp member
    exact frontier.identities node inside
  · intro updated member
    obtain ⟨node, inside, rfl⟩ := mem_settleFrontier.mp member
    exact frontier.causes node inside
  · intro updated member
    obtain ⟨node, inside, rfl⟩ := mem_settleFrontier.mp member
    by_cases same : node.nodeId = command.outcome.nodeId
    · simpa [same] using newValid.keep place
    · simpa [same] using frontier.settlements node inside
  · intro updated member needs
    obtain ⟨node, inside, rfl⟩ := mem_settleFrontier.mp member
    by_cases same : node.nodeId = command.outcome.nodeId
    · exact newCodec (by simpa [same] using needs)
    · exact frontier.codec node inside (by simpa [same] using needs)

/-- The resources after a settlement are absent, or a valid snapshot of pending participants
without the settled node. -/
theorem settleResources_valid {before after : Option ResourceSnapshot} {nodeId : GraphNodeId}
    (settled : settleResources before nodeId = .ok after)
    (valid : ∀ snapshot ∈ before, ResourceReducer.validateResourceSnapshot snapshot = .ok () ∧
      snapshot.acquisitions ≠ []) :
    ∀ snapshot ∈ after, ResourceReducer.validateResourceSnapshot snapshot = .ok () ∧
      snapshot.acquisitions ≠ [] ∧ ∃ old ∈ before, ∀ other ∈ snapshot.acquisitions.map (·.nodeId),
        other ∈ old.acquisitions.map (·.nodeId) ∧ other ≠ nodeId := by
  intro snapshot member
  unfold settleResources at settled
  split at settled
  · simp only [pure_eq_ok, Except.ok.injEq] at settled
    simp [← settled] at member
  · rename_i old
    obtain ⟨oldValid, oldNonempty⟩ := valid old rfl
    split at settled
    · rename_i participant
      simp only [bind_eq_ok, rethrow_eq_ok, pure_eq_ok, Except.ok.injEq] at settled
      obtain ⟨released, reduced, rfl⟩ := settled
      obtain ⟨releasedValid, ids⟩ := ResourceReducer.reduceResources_release reduced
      split at member
      · cases member
      · rename_i nonempty
        obtain rfl : released = snapshot := Option.some.inj member
        refine ⟨releasedValid, nonempty, old, rfl, ?_⟩
        intro other inside
        rw [ids] at inside
        simpa using inside
    · rename_i absent
      simp only [pure_eq_ok, Except.ok.injEq] at settled
      subst settled
      obtain rfl : old = snapshot := Option.some.inj member
      refine ⟨oldValid, oldNonempty, old, rfl, ?_⟩
      intro other inside
      exact ⟨inside, fun same => absent (same ▸ inside)⟩

theorem Settles.validCursor (valid : ValidRun state)
    (settles : Settles state command settlement ledger cursor resources) :
    cursor.postInit = .ok () := by
  have settled := settles.cursor
  unfold settleConfigCursor at settled
  split at settled
  · simp only [pure_eq_ok, Except.ok.injEq] at settled
    exact settled ▸ valid.config
  · simp only [rethrow_eq_ok, transitionTo_eq_ok] at settled
    obtain ⟨admitted, -, -, ⟨-, -, chosen⟩ | ⟨-, rfl⟩⟩ := settled
    · rw [chosen]
      split
      · exact admitted
      · exact valid.config
    · exact admitted

theorem settle_preserves (valid : ValidRun state)
    (settles : Settles state command settlement ledger cursor resources)
    (wellFormed : WellFormedOutcome command)
    (expected : command.expectedRevision = state.revision) :
    ValidRun (settledResult state command settlement ledger cursor resources) := by
  have place := settles.samePlace
  obtain ⟨nonempty, -, noAbort, noRoute⟩ :=
    (ValidStatus.running_iff settles.running).mp valid.status
  have somewhere :
      (settleFrontier state.frontier command.outcome.nodeId settlement).nodes ≠ [] := by
    simpa [settleFrontier] using nonempty
  refine { valid with
    config := settles.validCursor valid
    ledger := settles.validLedger valid wellFormed expected
    parent := fun parent member => { valid.parent parent member with }
    joins := valid.joins.keep place rfl
    frontier := settles.validFrontier valid wellFormed
    resources := ?_
    lease := ?_
    status := ?_ }
  · intro snapshot member
    simp only [settledResult, settledState] at member
    split at member
    · rename_i executable
      obtain ⟨snapshotValid, participants, old, oldMember, inside⟩ :=
        settleResources_valid settles.resources
          (fun s m => ⟨(valid.resources s m).snapshot, (valid.resources s m).nonempty⟩)
          snapshot member
      refine ⟨snapshotValid, participants, ?_, ?_⟩
      · simp [settledResult, settledState, executable, settles.leased]
      · intro other participant
        obtain ⟨oldParticipant, different⟩ := inside other participant
        exact (mem_pendingNodeIds_settleFrontier settles.outcome.not_pending).mpr
          ⟨(valid.resources old oldMember).pending oldParticipant, different⟩
    · cases member
  · intro lease member
    simp only [settledResult, settledState] at member
    split at member
    · rename_i executable
      have old := valid.lease lease member
      refine ⟨?_, old.token, old.generation, pendingNodeIds_ne_nil.mpr executable⟩
      simp [settledResult, settledState, executable]
    · cases member
  · by_cases failed : frontierStatus
        (settleFrontier state.frontier command.outcome.nodeId settlement) = some .failed
    · simp [ValidStatus, settledResult, settledState, failed, somewhere, noAbort, noRoute]
    · refine (ValidStatus.running_iff ?_).mpr ⟨somewhere, failed, noAbort, noRoute⟩
      simp [settledResult, settledState, failed]

end Settle

/-! ## The invariant over commands -/

/-- The identities, tokens, evidence and payloads of a command are well formed. A start, an
advance and a completion are not among the commands considered here. -/
def WellFormedCommand : GraphRunCommand → Prop
  | .claim command => isCanonicalIdentity command.attemptId = true
  | .fence command => ValidToken command.execution
  | .settle command => ValidToken command.execution ∧ WellFormedOutcome command
  | .resume command => ∀ action ∈ command.actions, isCanonicalIdentity action.nodeId = true
  | .abort command => isCanonicalIdentity command.reason = true
  | .start _ => False
  | .advance _ => False
  | .complete _ => False

/-- A transition that passes its guards keeps the whole invariant. -/
theorem transition_preserves {state updated : GraphRunState} {command : GraphRunCommand}
    (valid : ValidRun state) (wellFormed : WellFormedCommand command)
    (expected : command.expectedRevision = some state.revision)
    (moved : transition state command = .ok updated) :
    ValidRun { updated with revision := state.revision + 1 } := by
  cases command with
  | start command => cases wellFormed
  | claim command =>
      obtain ⟨claims, rfl⟩ := (claimGraphExecution_eq_ok _ _ _).mp moved
      exact claim_preserves valid claims wellFormed
  | fence command =>
      obtain ⟨running, -, rfl⟩ := (fenceGraphExecution_eq_ok _ _ _).mp moved
      have result := fence_preserves valid running
      exact result
  | settle command =>
      obtain ⟨settlement, ledger, cursor, resources, settles, rfl⟩ :=
        (settleGraphNode_eq_ok _ _ _).mp moved
      exact settle_preserves valid settles wellFormed.2 (Option.some.inj expected)
  | resume command =>
      obtain ⟨nodes, resumes, rfl⟩ := (resumeGraphNodes_eq_ok _ _ _).mp moved
      have result := resume_preserves valid resumes
      exact result
  | advance command => cases wellFormed
  | complete command => cases wellFormed
  | abort command =>
      obtain ⟨running, unleased, rfl⟩ := (abortGraphRun_eq_ok _ _ _).mp moved
      have result := abort_preserves valid running unleased wellFormed
      exact result

/-- The run invariant is inductive: in a valid state, a well-formed claim, fence, settlement,
resume or abort that passes its own checks is reduced, the final validation included. No valid
running state is a trap: a held lease can be fenced, and an executable quiescent run claimed. -/
theorem runInvariant_inductive (state : GraphRunState)
    (valid : validateGraphRunState state = .ok ()) :
    (∀ command updated, WellFormedCommand command →
      command.expectedRevision = some state.revision → transition state command = .ok updated →
      rawValidateGraphRunState { updated with revision := state.revision + 1 } = .ok () ∧
      reduceGraphRun (some state) command = .ok { updated with revision := state.revision + 1 }) ∧
    (∀ lease, state.status = .running → state.execution = some lease →
      ∃ t, reduceGraphRun (some state) (.fence ⟨state.revision, lease.token⟩) = .ok t) ∧
    (state.status = .running → state.execution = none → state.resources = none →
      frontierStatus state.frontier = some .executable →
      ∀ attemptId, isCanonicalIdentity attemptId = true →
        ∃ t, reduceGraphRun (some state) (.claim ⟨state.revision, attemptId, none⟩) = .ok t) := by
  have run := (validateGraphRunState_eq_ok state ()).mp valid
  have reduced : ∀ command updated, WellFormedCommand command →
      command.expectedRevision = some state.revision → transition state command = .ok updated →
      reduceGraphRun (some state) command =
        .ok { updated with revision := state.revision + 1 } := by
    intro command updated wellFormed expected moved
    exact (reduceGraphRun_some_eq_ok _ _ _).mpr ⟨updated,
      ⟨run, expected, moved, transition_preserves run wellFormed expected moved⟩, rfl⟩
  refine ⟨?_, ?_, ?_⟩
  · intro command updated wellFormed expected moved
    refine ⟨?_, reduced command updated wellFormed expected moved⟩
    have result := (validateGraphRunState_eq_ok _ ()).mpr
      (transition_preserves run wellFormed expected moved)
    simpa only [validateGraphRunState, rethrow_eq_ok] using result
  · intro lease running held
    have token := (run.lease lease held).token
    exact ⟨_, reduced (.fence ⟨state.revision, lease.token⟩) _ token rfl
      ((fenceGraphExecution_eq_ok _ _ _).mpr ⟨running, held, rfl⟩)⟩
  · intro running unleased free executable attemptId canonical
    have claims : Claims state ⟨state.revision, attemptId, none⟩ :=
      ⟨running, unleased, free, executable, pendingNodeIds_ne_nil.mpr executable, by simp⟩
    exact ⟨_, reduced (.claim ⟨state.revision, attemptId, none⟩) _ canonical rfl
      ((claimGraphExecution_eq_ok _ _ _).mpr ⟨claims, rfl⟩)⟩

/-- A run that has just started with one node. -/
def startedRun : GraphRunState :=
  { runId := "run"
    definitionId := "graph"
    definitionVersion := 1
    status := .running
    superstep := 0
    frontier := pendingFrontier [⟨"node", .start⟩] }

/-- Two nodes under a lease: the first holds a resource that the second waits for. -/
def leasedRun : GraphRunState :=
  { startedRun with
    frontier := pendingFrontier [⟨"left", .start⟩, ⟨"right", .start⟩]
    executionSequence := 1
    resumeInputCodec := some ⟨"codec", 1⟩
    resources := some
      { resources := [⟨"disk", some "left", ["right"]⟩]
        acquisitions := [⟨"left", ["disk"], ["disk"], none⟩, ⟨"right", ["disk"], [], some "disk"⟩] }
    execution := some ⟨⟨1, "attempt"⟩⟩
    revision := 1 }

/-- The first node is interrupted and the second inherits the resource. -/
def interruptedRun : GraphRunState :=
  { leasedRun with
    frontier := ⟨[⟨"left", .interrupted ⟨⟨"run", 0, "left", 1⟩, [7]⟩, .start⟩,
      ⟨"right", .pending .useStepRequestInput, .start⟩]⟩
    resources := some
      { resources := [⟨"disk", some "right", []⟩]
        acquisitions := [⟨"right", ["disk"], ["disk"], none⟩] }
    revision := 2 }

def fencedRun : GraphRunState :=
  { interruptedRun with resources := none, execution := none, revision := 3 }

/-- The interrupt of the first node. -/
def leftInterrupted : SettleGraphNode :=
  ⟨1, ⟨1, "attempt"⟩, .interrupted "left" ⟨"run", 0, "left", 1⟩ [7], none, none⟩

/-- A start is claimed; under a lease with a ledger a node is interrupted, the lease fenced and the
node resumed. -/
theorem startedRun_claimable :
    (validateGraphRunState startedRun = .ok () ∧
      ∃ t, reduceGraphRun (some startedRun) (.claim ⟨0, "attempt", none⟩) = .ok t) ∧
    validateGraphRunState leasedRun = .ok () ∧
    reduceGraphRun (some leasedRun) (.settle leftInterrupted) = .ok interruptedRun ∧
    reduceGraphRun (some interruptedRun) (.fence ⟨2, ⟨1, "attempt"⟩⟩) = .ok fencedRun ∧
    ∃ t, reduceGraphRun (some fencedRun)
        (.resume ⟨3, [⟨"left", graphInterruptId "run" 0 "left" 1, [9]⟩]⟩) = .ok t := by
  have token : ValidToken ⟨1, "attempt"⟩ := ⟨by decide, by decide⟩
  have outcome : WellFormedOutcome leftInterrupted := by
    constructor
    · intro evidence given
      cases given
    · intro nodeId failure same
      cases same
  refine ⟨⟨rfl, (runInvariant_inductive startedRun rfl).2.2 rfl rfl rfl rfl "attempt" (by decide)⟩,
    rfl, ?_, ?_, ?_⟩
  · exact ((runInvariant_inductive leasedRun rfl).1 (.settle leftInterrupted)
      { interruptedRun with revision := 1 } ⟨token, outcome⟩ rfl rfl).2
  · exact ((runInvariant_inductive interruptedRun rfl).1 (.fence ⟨2, ⟨1, "attempt"⟩⟩)
      { fencedRun with revision := 2 } token rfl rfl).2
  · refine ⟨_, ((runInvariant_inductive fencedRun rfl).1 (.resume ⟨3, [⟨"left",
      graphInterruptId "run" 0 "left" 1, [9]⟩]⟩) _ ?_ rfl rfl).2⟩
    intro action member
    obtain rfl := List.mem_singleton.mp member
    decide

end MoteKernel
