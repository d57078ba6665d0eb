import MoteKernel.Execution.Admission
import MoteKernel.Execution.FrontierSteps

/-!
# All-success runs of control

A run in which every activated node succeeds with one of its declared routes:
the frontier is resolved by `_resolve_control`, and the next frontier opens with
exactly the activations and the Join progress it computed. Such a run is a run of
the markings of the frontier proof, and every run of the markings comes from one.
-/

namespace MoteKernel
open Checked Canonical

variable {τ : Type}

/-! ## Runs -/

/-- Every activation of the frontier succeeded with one of its declared routes. -/
def SettlesAll (graph : CompiledGraph τ) (state : GraphRunState) : Prop :=
  ∀ node ∈ state.frontier.nodes, ∃ routing, node.settlement = .succeeded routing ∧
    routing.route ∈ graph.routeOptions node.nodeId

/-- The settled first frontier: every entry is active, nothing is pending. -/
structure Starts (graph : CompiledGraph τ) (state : GraphRunState) : Prop where
  superstep : state.superstep = 0
  opens : state.frontier.nodes.map GraphFrontierNode.activation =
    graph.transition.entries.map (fun nodeId => ⟨nodeId, .start⟩)
  progress : state.joinProgress = []
  ledger : ∀ reference, reference ∈ state.settledReferences ↔ reference ∈ frontierPublications state

/-- `control` is what `_resolve_control` computes from the pending arrivals of the state. -/
def ResolvesTo (graph : CompiledGraph τ) (state : GraphRunState) (control : RoutingFacts) : Prop :=
  ∃ declared arrivals, declaredJoins graph = .ok declared ∧
    pendingJoinArrivals state declared = .ok arrivals ∧
    resolveControl graph state { declaredJoins := declared, pendingJoinArrivals := arrivals } =
      .ok control

/-- The settled frontier that a resolved control opens. -/
structure Follows (state : GraphRunState) (control : RoutingFacts) (next : GraphRunState) :
    Prop where
  run : next.runId = state.runId
  superstep : next.superstep = state.superstep + 1
  opens : next.frontier.nodes.map GraphFrontierNode.activation = control.activations
  progress : next.joinProgress = control.remainingJoinProgress
  ledger : ∀ reference, reference ∈ next.settledReferences ↔
    reference ∈ state.settledReferences ∨ reference ∈ frontierPublications next

/-- The settled frontiers of the all-success runs of a graph. -/
inductive ControlRun (graph : CompiledGraph τ) : GraphRunState → Prop
  | start {state : GraphRunState} (starts : Starts graph state) (settles : SettlesAll graph state) :
      ControlRun graph state
  | advance {state next : GraphRunState} {control : RoutingFacts}
      (before : ControlRun graph state) (resolves : ResolvesTo graph state control)
      (follows : Follows state control next) (settles : SettlesAll graph next) :
      ControlRun graph next

/-! ## The control tables of a compiled graph -/

/-- The control tables of the graph are the tables of the frontier proof. -/
structure Carries (graph : CompiledGraph τ) (relation : FrontierRelation) : Prop where
  entries : graph.transition.entries = relation.entries
  nodes : ∀ node, node ∈ graph.nodes.keys ↔ node ∈ relation.routeOptions.keys
  direct : ∀ node, graph.directTargets node = relation.direct node
  conditional : ∀ node, (graph.conditionalTargets node).Same (relation.conditional node)
  options : ∀ node, graph.routeOptions node = relation.options node
  joins : ∀ node, (graph.joinsBySource node).Perm (relation.joinsBySource.getItem node)

theorem selectedTarget_congr {d e : FrozenMap GraphRouteId GraphNodeId} (same : d.Same e)
    (route : Route) : selectedTarget d route = selectedTarget e route := by
  cases route with
  | none => rfl
  | some name => simp [selectedTarget, same name]

theorem mem_selectedTarget {routes : FrozenMap GraphRouteId GraphNodeId} {route : Route}
    {target : GraphNodeId} : target ∈ selectedTarget routes route ↔
      target ≠ END ∧ ∃ name, route = some name ∧ (name, target) ∈ routes.items := by
  cases route with
  | none => simp [selectedTarget]
  | some name =>
      simp only [selectedTarget, Option.bind_some, Option.mem_toList,
        Option.filter_eq_some_iff, Dict.get?_eq_some, decide_eq_true_eq]
      constructor
      · rintro ⟨member, inner⟩
        exact ⟨inner, name, rfl, member⟩
      · rintro ⟨inner, _, ⟨⟩, member⟩
        exact ⟨member, inner⟩

section Tables

variable {graph : CompiledGraph τ} {relation : FrontierRelation}

theorem Carries.mem_joins (carries : Carries graph relation) {plan : CompiledJoin} :
    plan ∈ relation.joins ↔ ∃ source, plan ∈ graph.joinsBySource source := by
  rw [FrontierRelation.mem_joins]
  exact exists_congr (fun source => (carries.joins source).mem_iff.symm)

theorem Carries.declarable (carries : Carries graph relation) (wellFormed : relation.WellFormed) :
    Declarable graph := by
  refine ⟨?_, ?_, ?_⟩
  · intro source plan member
    rw [(carries.joins source).mem_iff] at member
    exact (wellFormed.listed source).2 plan member
  · intro source plan member other plan' member' same
    rw [(carries.joins _).mem_iff] at member member'
    exact wellFormed.agree source plan member other plan' member' same
  · intro source plan member other inside
    rw [(carries.joins source).mem_iff] at member
    exact ⟨plan, (carries.joins other).mem_iff.mpr
      (wellFormed.complete source plan member other inside), rfl⟩

/-- A declared Join is one of the proof's. -/
theorem Carries.declared (carries : Carries graph relation) {declared : JoinDeclarations}
    (declares : declaredJoins graph = .ok declared) {identity : GraphJoinIdentity}
    {plan : CompiledJoin} :
    declared.get? identity = some plan ↔ plan.identity = identity ∧ plan ∈ relation.joins := by
  rw [(declaredJoins_ok declares).2, carries.mem_joins]

theorem Carries.agree (carries : Carries graph relation) (wellFormed : relation.WellFormed)
    {plan plan' : CompiledJoin} (member : plan ∈ relation.joins) (member' : plan' ∈ relation.joins)
    (same : plan.identity = plan'.identity) : plan = plan' := by
  obtain ⟨source, listed⟩ := carries.mem_joins.mp member
  obtain ⟨other, listed'⟩ := carries.mem_joins.mp member'
  exact (carries.declarable wellFormed).agree source plan listed other plan' listed' same

/-- A Join is listed for each of its sources. -/
theorem Carries.mem_joinsBySource (carries : Carries graph relation)
    (wellFormed : relation.WellFormed) {source : GraphNodeId} {plan : CompiledJoin} :
    plan ∈ graph.joinsBySource source ↔ plan ∈ relation.joins ∧ source ∈ plan.identity.sources := by
  constructor
  · intro member
    exact ⟨carries.mem_joins.mpr ⟨source, member⟩,
      (carries.declarable wellFormed).indexed source plan member⟩
  · rintro ⟨member, inside⟩
    obtain ⟨other, listed⟩ := FrontierRelation.mem_joins.mp member
    rw [(carries.joins source).mem_iff]
    exact wellFormed.complete other plan listed source inside

/-- A contribution with a declared route passes every check of `_resolve_control`. -/
theorem Carries.contributes (carries : Carries graph relation) (wellFormed : relation.WellFormed)
    (state : GraphRunState) {nodeId : GraphNodeId} (known : nodeId ∈ graph.nodes.keys)
    {routing : GraphRoutingContribution} (declared : routing.route ∈ graph.routeOptions nodeId) :
    Contributes graph state (nodeId, routing) := by
  have inside := (carries.nodes nodeId).mp known
  have items := (carries.conditional nodeId).items_eq_nil
  rw [carries.options] at declared
  have selective : (graph.conditionalTargets nodeId).items ≠ [] →
      ∃ name, routing.route = some name ∧ name ∈ (graph.conditionalTargets nodeId).keys := by
    intro conditional
    rw [wellFormed.selective nodeId inside (mt items.mpr conditional), List.mem_map] at declared
    obtain ⟨name, member, same⟩ := declared
    exact ⟨name, same.symm, ((carries.conditional nodeId).mem_keys name).mpr
      (mem_sorted.mp member)⟩
  refine ⟨?_, ?_, (carries.declarable wellFormed).indexed nodeId⟩
  · simp only [validateRoutingContribution, bind_unit_eq_ok, raiseIf_eq_ok, not_not]
    refine ⟨known, ?_⟩
    cases routing with
    | continueGraphRouting =>
        simp only [bind_unit_eq_ok, raiseIf_eq_ok, ne_eq, not_not]
        refine ⟨?_, by rw [carries.options]; exact declared⟩
        by_contra conditional
        obtain ⟨name, impossible, -⟩ := selective conditional
        cases impossible
    | selectGraphRoute route =>
        simp only [bind_unit_eq_ok, raiseIf_eq_ok, not_and, not_or, not_not]
        refine ⟨?_, by rw [carries.options]; exact declared⟩
        intro none
        by_contra continues
        have only := wellFormed.continuing nodeId inside (items.mp none) (by
          rw [← carries.direct]
          by_contra both
          rw [not_or, not_not, not_not] at both
          refine continues ⟨both.1, ?_⟩
          rw [← List.perm_nil, ← both.2]
          exact carries.joins nodeId)
        rw [only] at declared
        cases List.mem_singleton.mp declared
  · intro conditional
    obtain ⟨name, same, member⟩ := selective conditional
    exact ⟨name, same, member⟩

end Tables

/-! ## The marking of a state -/

/-- The active nodes and the pending arrivals of a state. -/
def stateMarking (state : GraphRunState) : Marking where
  active nodeId := nodeId ∈ state.frontier.nodes.map (·.nodeId)
  pending key := key.source ∈ sourceIds (arrivalsAt state.joinProgress
    ⟨key.join.identity, state.runId, state.superstep + key.remaining⟩)

/-- The route a node of the frontier selected. -/
def stateChoice (state : GraphRunState) (nodeId : GraphNodeId) : Route :=
  ((routingContributions state.frontier).find? (fun settled => settled.1 = nodeId)).bind
    (fun settled => settled.2.route)

/-- What every frontier of an all-success run is. -/
structure RunShape (graph : CompiledGraph τ) (declared : JoinDeclarations)
    (state : GraphRunState) : Prop where
  distinct : (state.frontier.nodes.map (·.nodeId)).Nodup
  known : ∀ node ∈ state.frontier.nodes, node.nodeId ∈ graph.nodes.keys
  settles : SettlesAll graph state
  evidence : frontierPublications state ⊆ state.settledReferences
  past : ∀ reference ∈ state.settledReferences, reference.activation.superstep ≤ state.superstep
  records : ∀ progress ∈ state.joinProgress, PendingRecord state declared progress
  once : (state.joinProgress.map (·.occurrence)).Nodup

section Shape

variable {graph : CompiledGraph τ} {relation : FrontierRelation} {declared : JoinDeclarations}
  {state : GraphRunState} {arrivals : JoinArrivals}

theorem mem_sourceIds {references : List ActivationReference} {source : GraphNodeId} :
    source ∈ sourceIds references ↔
      ∃ reference ∈ references, reference.activation.nodeId = source := by
  simp [sourceIds]

theorem RunShape.pending (shape : RunShape graph declared state) :
    ∃ arrivals, pendingJoinArrivals state declared = .ok arrivals := by
  refine ⟨⟨state.joinProgress.map (fun progress => (progress.occurrence, progress.arrived)), ?_⟩,
    (pendingJoinArrivals_eq_ok _ _ _).mpr ⟨shape.records, shape.once, rfl⟩⟩
  rw [List.map_map]
  exact shape.once

theorem contribution_nodup (distinct : (state.frontier.nodes.map (·.nodeId)).Nodup) :
    ((routingContributions state.frontier).map Prod.fst).Nodup := by
  refine List.Nodup.sublist ?_ distinct
  unfold routingContributions
  induction state.frontier.nodes with
  | nil => exact List.Sublist.slnil
  | cons node nodes ih =>
      cases isSettled : node.settlement with
      | succeeded routing => simpa [isSettled] using ih
      | pending input => simpa [isSettled] using ih.cons _
      | failed failure => simpa [isSettled] using ih.cons _
      | interrupted interrupt => simpa [isSettled] using ih.cons _

theorem RunShape.choice (shape : RunShape graph declared state) {nodeId : GraphNodeId}
    {routing : GraphRoutingContribution}
    (member : (nodeId, routing) ∈ routingContributions state.frontier) :
    stateChoice state nodeId = routing.route := by
  unfold stateChoice
  cases found : (routingContributions state.frontier).find? (fun settled => settled.1 = nodeId) with
  | none => exact absurd (List.find?_eq_none.mp found _ member) (by simp)
  | some settled =>
      have same : settled.1 = nodeId := by simpa using List.find?_some found
      rw [List.inj_on_of_nodup_map (contribution_nodup shape.distinct)
        (List.mem_of_find?_eq_some found) member same]
      rfl

/-- The active nodes are those that published. -/
theorem RunShape.publication (shape : RunShape graph declared state)
    {reference : ActivationReference} : reference ∈ frontierPublications state ↔
      ∃ nodeId, (stateMarking state).active nodeId ∧ reference =
        activationReference state.runId state.superstep nodeId (stateChoice state nodeId) := by
  rw [mem_frontierPublications]
  constructor
  · rintro ⟨node, member, routing, settled, rfl⟩
    have contributed : (node.nodeId, routing) ∈ routingContributions state.frontier :=
      mem_routingContributions.mpr ⟨node, member, rfl, settled⟩
    exact ⟨node.nodeId, List.mem_map.mpr ⟨node, member, rfl⟩, by rw [shape.choice contributed]⟩
  · rintro ⟨nodeId, active, rfl⟩
    obtain ⟨node, member, rfl⟩ := List.mem_map.mp active
    obtain ⟨routing, settled, -⟩ := shape.settles node member
    have contributed : (node.nodeId, routing) ∈ routingContributions state.frontier :=
      mem_routingContributions.mpr ⟨node, member, rfl, settled⟩
    exact ⟨node, member, routing, settled, by rw [shape.choice contributed]⟩

theorem RunShape.selects (shape : RunShape graph declared state) {nodeId : GraphNodeId}
    (active : (stateMarking state).active nodeId) :
    stateChoice state nodeId ∈ graph.routeOptions nodeId := by
  obtain ⟨node, member, rfl⟩ := List.mem_map.mp active
  obtain ⟨routing, settled, route⟩ := shape.settles node member
  rw [shape.choice (mem_routingContributions.mpr ⟨node, member, rfl, settled⟩)]
  exact route

theorem RunShape.active_known (shape : RunShape graph declared state) {nodeId : GraphNodeId}
    (active : (stateMarking state).active nodeId) : nodeId ∈ graph.nodes.keys := by
  obtain ⟨node, member, rfl⟩ := List.mem_map.mp active
  exact shape.known node member

/-- A recorded arrival belongs to its record's occurrence. -/
theorem RunShape.arrivalsAt (shape : RunShape graph declared state)
    {occurrence : GraphJoinOccurrenceIdentity} {reference : ActivationReference}
    (member : reference ∈ arrivalsAt state.joinProgress occurrence) :
    ∃ progress ∈ state.joinProgress, progress.occurrence = occurrence ∧
      reference ∈ progress.arrived := by
  unfold MoteKernel.arrivalsAt at member
  cases found : progressOf state.joinProgress occurrence with
  | none => rw [found] at member; cases member
  | some progress =>
      rw [found] at member
      obtain ⟨inside, same⟩ := (progressOf_eq_some shape.once).mp found
      exact ⟨progress, inside, same, member⟩

/-- An occurrence that gathers arrivals: its Join, its distance, and what each arrival shows. -/
structure GatheredAt (relation : FrontierRelation) (declared : JoinDeclarations)
    (state : GraphRunState) (references : List ActivationReference)
    (occurrence : GraphJoinOccurrenceIdentity) (plan : CompiledJoin) (remaining : Nat) : Prop where
  join : plan ∈ relation.joins
  declares : declared.get? occurrence.join = some plan
  near : 1 ≤ remaining
  far : remaining ≤ FrontierRelation.maximum plan
  place : occurrence = ⟨plan.identity, state.runId, state.superstep + remaining⟩
  nonempty : references ≠ []
  references : ∀ reference ∈ references, reference.activation.nodeId ∈ plan.identity.sources ∧
    plan.occurrenceAt reference.activation = occurrence ∧ reference ∈ state.settledReferences

/-- A frontier of an all-success run with everything its resolution reads. -/
structure RunsOn (graph : CompiledGraph τ) (relation : FrontierRelation)
    (declared : JoinDeclarations) (state : GraphRunState) (arrivals : JoinArrivals) : Prop where
  wellFormed : relation.WellFormed
  carries : Carries graph relation
  declares : declaredJoins graph = .ok declared
  shape : RunShape graph declared state
  pending : pendingJoinArrivals state declared = .ok arrivals

variable (runs : RunsOn graph relation declared state arrivals)
include runs

/-- What an arrival gathered for an occurrence shows. -/
theorem gathered_reference {occurrence : GraphJoinOccurrenceIdentity}
    {reference : ActivationReference}
    (member : reference ∈ (gatheredArrivals graph state arrivals).getItem occurrence) :
    ∃ plan, plan ∈ relation.joins ∧ declared.get? occurrence.join = some plan ∧
      reference.activation.nodeId ∈ plan.identity.sources ∧
      plan.occurrenceAt reference.activation = occurrence ∧ occurrence.runId = state.runId ∧
      state.superstep < occurrence.targetSuperstep ∧ reference ∈ state.settledReferences := by
  rw [getItem_eq_getD, mem_gatheredArrivals runs.pending, mem_joinArrivals] at member
  rcases member with recorded | ⟨success, plan, listed, rfl⟩
  · obtain ⟨progress, inside, rfl, arrived⟩ := runs.shape.arrivalsAt recorded
    have record := runs.shape.records progress inside
    obtain ⟨plan, found, projected⟩ := record.plan
    obtain ⟨source, same⟩ := projected reference arrived
    exact ⟨plan, ((runs.carries.declared runs.declares).mp found).2, found, source, same, record.run,
      record.future, record.settled reference arrived⟩
  · obtain ⟨inside, source⟩ := (runs.carries.mem_joinsBySource runs.wellFormed).mp listed
    have found := (runs.carries.declared runs.declares).mpr ⟨rfl, inside⟩
    obtain ⟨nodeId, -, same⟩ := runs.shape.publication.mp success
    refine ⟨plan, inside, found, source, rfl, by rw [same]; rfl, ?_, runs.shape.evidence success⟩
    have positive := plan.offset_positive source
    show state.superstep < reference.activation.superstep + plan.offset reference.activation.nodeId
    rw [superstep_of_success success]
    omega

theorem gathered_key {occurrence : GraphJoinOccurrenceIdentity}
    (key : occurrence ∈ (gatheredArrivals graph state arrivals).keys) :
    (gatheredArrivals graph state arrivals).getItem occurrence ≠ [] := by
  rw [gatheredArrivals, Dict.mem_keys_pushAll] at key
  rw [getItem_eq_getD, gatheredArrivals, Dict.getD_pushAll]
  rcases key with old | new
  · obtain ⟨-, once, items⟩ := (pendingJoinArrivals_eq_ok _ _ _).mp runs.pending
    rw [Dict.keys, items, List.map_map, List.mem_map] at old
    obtain ⟨progress, inside, same⟩ := old
    have record := runs.shape.records progress inside
    rw [pendingJoinArrivals_getD runs.pending, arrivalsAt,
      (progressOf_eq_some runs.shape.once).mpr ⟨inside, same⟩]
    exact List.append_ne_nil_of_left_ne_nil record.nonempty _
  · obtain ⟨⟨_, reference⟩, inside, rfl⟩ := List.mem_map.mp new
    apply List.append_ne_nil_of_right_ne_nil
    exact List.ne_nil_of_mem ((Dict.mem_valuesAt _ _ reference).mpr inside)

/-- Every gathered occurrence is one of a declared Join, at a distance it can have. -/
theorem gatheredAt {occurrence : GraphJoinOccurrenceIdentity}
    (key : occurrence ∈ (gatheredArrivals graph state arrivals).keys) :
    ∃ plan remaining, GatheredAt relation declared state
      ((gatheredArrivals graph state arrivals).getItem occurrence) occurrence plan remaining := by
  have nonempty := gathered_key runs key
  obtain ⟨reference, member⟩ := List.exists_mem_of_ne_nil _ nonempty
  obtain ⟨plan, join, found, source, same, run, future, settled⟩ :=
    gathered_reference runs member
  have identity := ((runs.carries.declared runs.declares).mp found).1
  have target : reference.activation.superstep + plan.offset reference.activation.nodeId =
      occurrence.targetSuperstep := by
    rw [← same]
    rfl
  have place := runs.shape.past reference settled
  have bound := FrontierRelation.offset_le_maximum plan reference.activation.nodeId
  refine ⟨plan, occurrence.targetSuperstep - state.superstep, join, found, by omega, by omega, ?_,
    nonempty, ?_⟩
  · obtain ⟨identity', run', target'⟩ := occurrence
    simp only at identity run future ⊢
    rw [identity, run]
    congr 1
    omega
  · intro other inside
    obtain ⟨plan', -, found', source', same', -, -, settled'⟩ :=
      gathered_reference runs inside
    rw [found, Option.some.injEq] at found'
    rw [found']
    exact ⟨source', same', settled'⟩

/-- The gathered sources of an occurrence are the arrived sources of the marking. -/
theorem arrives_iff {plan : CompiledJoin} (join : plan ∈ relation.joins) {source : GraphNodeId}
    (inside : source ∈ plan.identity.sources) (remaining : Nat) :
    source ∈ sourceIds ((gatheredArrivals graph state arrivals).getItem
        ⟨plan.identity, state.runId, state.superstep + remaining⟩) ↔
      (stateMarking state).Arrives plan remaining source := by
  rw [mem_sourceIds]
  constructor
  · rintro ⟨reference, member, rfl⟩
    rw [getItem_eq_getD, mem_gatheredArrivals runs.pending, mem_joinArrivals] at member
    rcases member with recorded | ⟨success, plan', listed, same⟩
    · exact .inl (mem_sourceIds.mpr ⟨reference, recorded, rfl⟩)
    · obtain ⟨join', -⟩ := (runs.carries.mem_joinsBySource runs.wellFormed).mp listed
      have identity : plan.identity = plan'.identity :=
        congrArg GraphJoinOccurrenceIdentity.join same
      have target : state.superstep + remaining =
          reference.activation.superstep + plan'.offset reference.activation.nodeId :=
        congrArg GraphJoinOccurrenceIdentity.targetSuperstep same
      obtain rfl := runs.carries.agree runs.wellFormed join join' identity
      rw [superstep_of_success success] at target
      obtain ⟨nodeId, active, rfl⟩ := runs.shape.publication.mp success
      refine .inr ⟨?_, active⟩
      simp only [activationReference] at target ⊢
      omega
  · rintro (recorded | ⟨offset, active⟩)
    · obtain ⟨reference, member, same⟩ := mem_sourceIds.mp recorded
      refine ⟨reference, ?_, same⟩
      rw [getItem_eq_getD, mem_gatheredArrivals runs.pending]
      exact .inl member
    · refine ⟨activationReference state.runId state.superstep source (stateChoice state source),
        ?_, rfl⟩
      rw [getItem_eq_getD, mem_gatheredArrivals runs.pending, mem_joinArrivals]
      refine .inr ⟨runs.shape.publication.mpr ⟨source, active, rfl⟩, plan,
        (runs.carries.mem_joinsBySource runs.wellFormed).mpr ⟨join, inside⟩, ?_⟩
      rw [← offset]
      rfl

/-- An occurrence is gathered exactly when some source arrived. -/
theorem mem_gathered_keys {plan : CompiledJoin} (join : plan ∈ relation.joins) (remaining : Nat) :
    (⟨plan.identity, state.runId, state.superstep + remaining⟩ : GraphJoinOccurrenceIdentity) ∈
        (gatheredArrivals graph state arrivals).keys ↔
      ∃ source ∈ plan.identity.sources, (stateMarking state).Arrives plan remaining source := by
  constructor
  · intro key
    obtain ⟨plan', remaining', gathered⟩ := gatheredAt runs key
    have same : plan'.identity = plan.identity :=
      (congrArg GraphJoinOccurrenceIdentity.join gathered.place).symm
    obtain rfl := runs.carries.agree runs.wellFormed gathered.join join same
    obtain ⟨reference, member⟩ := List.exists_mem_of_ne_nil _ gathered.nonempty
    have inside := (gathered.references reference member).1
    refine ⟨_, inside, (arrives_iff runs join inside _).mp ?_⟩
    exact mem_sourceIds.mpr ⟨reference, member, rfl⟩
  · rintro ⟨source, inside, arrived⟩
    have gathered := (arrives_iff runs join inside _).mpr arrived
    by_contra absent
    rw [getItem_eq_getD, (Dict.get?_eq_none _ _).mpr absent] at gathered
    cases gathered

theorem complete_iff {plan : CompiledJoin} (join : plan ∈ relation.joins) (remaining : Nat) :
    SameSources ((gatheredArrivals graph state arrivals).getItem
        ⟨plan.identity, state.runId, state.superstep + remaining⟩) plan.identity.sources ↔
      (stateMarking state).Complete plan remaining := by
  constructor
  · intro same source inside
    exact (arrives_iff runs join inside _).mp
      ((same source).mpr inside)
  · intro complete source
    refine ⟨fun gathered => ?_, fun inside =>
      (arrives_iff runs join inside _).mpr
        (complete source inside)⟩
    obtain ⟨reference, member, rfl⟩ := mem_sourceIds.mp gathered
    obtain ⟨plan', join', found, inside, -⟩ :=
      gathered_reference runs member
    obtain ⟨same, -⟩ := (runs.carries.declared runs.declares).mp found
    obtain rfl := runs.carries.agree runs.wellFormed join' join same
    exact inside

end Shape

/-! ## The causes of the next frontier -/

/-- The causes of the next frontier, those of the Joins that are due there. -/
def dueCauses (graph : CompiledGraph τ) (state : GraphRunState) (pending : JoinArrivals) :
    List (GraphNodeId × RoutedActivationCause) :=
  directCauses graph (frontierPublications state) ++
    ((sorted (gatheredArrivals graph state pending).keys).filter (fun occurrence =>
      occurrence.targetSuperstep = state.superstep + 1)).filterMap (fun occurrence =>
        (occurrenceOutcome state (gatheredArrivals graph state pending) occurrence).candidate)

/-- A Join whose due occurrence has every source. -/
def JoinDue (graph : CompiledGraph τ) (state : GraphRunState) (pending : JoinArrivals)
    (join : CompiledJoin) : Prop :=
  join.identity.target ≠ END ∧ join.identity.sources ≠ [] ∧
  join.identity.sources ⊆ sourceIds ((gatheredArrivals graph state pending).getItem
    ⟨join.identity, state.runId, state.superstep + 1⟩)

instance (graph : CompiledGraph τ) (state : GraphRunState) (pending : JoinArrivals)
    (join : CompiledJoin) : Decidable (JoinDue graph state pending join) :=
  inferInstanceAs (Decidable (_ ∧ _ ∧ _))

/-- The same causes with the labels of the frontier proof. -/
def firing (relation : FrontierRelation) (graph : CompiledGraph τ) (state : GraphRunState)
    (pending : JoinArrivals) : List (GraphNodeId × SuccessorCause) :=
  (frontierPublications state).flatMap (fun reference =>
    (relation.direct reference.activation.nodeId).map (fun target =>
      (target, .direct reference.activation.nodeId)) ++
    (selectedTarget (relation.conditional reference.activation.nodeId) reference.route).map
      (fun target => (target, .routed reference.activation.nodeId (reference.route.getD "")))) ++
  (relation.joins.filter (fun join => JoinDue graph state pending join)).map
    (fun join => (join.identity.target, .joined join))

instance (references : List ActivationReference) (sources : List GraphNodeId) :
    Decidable (SameSources references sources) := decidable_of_iff _ sameSources_iff

theorem candidate_occurrenceOutcome (state : GraphRunState) (arrivals : JoinArrivals)
    (occurrence : GraphJoinOccurrenceIdentity) :
    (occurrenceOutcome state arrivals occurrence).candidate =
      if SameSources (arrivals.getItem occurrence) occurrence.join.sources ∧
        occurrence.join.target ≠ END then
        some (occurrence.join.target, ⟨sorted (arrivals.getItem occurrence), some occurrence⟩)
      else none := by
  unfold occurrenceOutcome
  by_cases complete : SameSources (arrivals.getItem occurrence) occurrence.join.sources
  · rw [if_pos (sameSources_sorted.mpr complete)]
    by_cases inner : occurrence.join.target ≠ END
    · rw [if_pos inner, if_pos ⟨complete, inner⟩]
      rfl
    · have outside : ¬ (SameSources (arrivals.getItem occurrence) occurrence.join.sources ∧
          occurrence.join.target ≠ END) := fun both => inner both.2
      rw [if_neg inner, if_neg outside]
      split <;> rfl
  · rw [if_neg (mt sameSources_sorted.mp complete), if_neg (fun both => complete both.1)]
    rfl

namespace FrontierRelation

theorem successorCauses_nodup {relation : FrontierRelation} (wellFormed : relation.WellFormed)
    (target : GraphNodeId) : (relation.successorCauses target).Nodup := by
  refine List.nodup_append.mpr ⟨List.nodup_flatMap.mpr ⟨?_, ?_⟩, ?_, ?_⟩
  · intro source _
    refine List.nodup_append.mpr ⟨?_, ?_, ?_⟩
    · have single : ((relation.direct source).filter (· = target)).length ≤ 1 := by
        rw [← List.countP_eq_length_filter]
        exact List.nodup_iff_count_le_one.mp (wellFormed.direct source).1 target
      match (relation.direct source).filter (· = target), single with
      | [], _ => exact List.nodup_nil
      | [_], _ => exact List.nodup_singleton _
    · refine List.Nodup.map_on ?_ ((relation.conditional source).distinct.of_map.filter _)
      intro a memberA b memberB same
      exact List.inj_on_of_nodup_map (relation.conditional source).distinct
        (List.mem_filter.mp memberA).1 (List.mem_filter.mp memberB).1
        (SuccessorCause.routed.inj same).2
    · intro a memberA b memberB same
      obtain ⟨_, -, rfl⟩ := List.mem_map.mp memberA
      obtain ⟨_, -, rfl⟩ := List.mem_map.mp memberB
      cases same
  · refine (nodes_nodup relation).imp ?_
    intro a b different
    simp only [Function.onFun, List.disjoint_left, List.mem_append, List.mem_map]
    rintro _ (⟨_, -, rfl⟩ | ⟨_, -, rfl⟩) (⟨_, -, same⟩ | ⟨_, -, same⟩)
    · exact different (SuccessorCause.direct.inj same).symm
    · cases same
    · cases same
    · exact different (SuccessorCause.routed.inj same).1.symm
  · exact ((joins_nodup relation).filter _).map (fun _ _ => SuccessorCause.joined.inj)
  · intro a memberA b memberB same
    obtain ⟨_, -, inside⟩ := List.mem_flatMap.mp memberA
    obtain ⟨_, -, rfl⟩ := List.mem_map.mp memberB
    rcases List.mem_append.mp inside with direct | routed
    · obtain ⟨_, -, rfl⟩ := List.mem_map.mp direct
      cases same
    · obtain ⟨_, -, rfl⟩ := List.mem_map.mp routed
      cases same

end FrontierRelation

section Causes

variable {graph : CompiledGraph τ} {relation : FrontierRelation} {declared : JoinDeclarations}
  {state : GraphRunState} {arrivals : JoinArrivals}

theorem RunShape.publications_nodup (shape : RunShape graph declared state) :
    ((frontierPublications state).map (·.activation.nodeId)).Nodup := by
  have same : (frontierPublications state).map (·.activation.nodeId) =
      (routingContributions state.frontier).map Prod.fst := by
    rw [frontierPublications, List.map_map]
    rfl
  rw [same]
  exact contribution_nodup shape.distinct

variable (runs : RunsOn graph relation declared state arrivals)
include runs

theorem joinDue_iff {plan : CompiledJoin} (join : plan ∈ relation.joins) :
    JoinDue graph state arrivals plan ↔ plan.identity.target ≠ END ∧
      plan.identity.sources ≠ [] ∧ (stateMarking state).Complete plan 1 := by
  refine and_congr_right (fun _ => and_congr_right (fun _ => ?_))
  exact forall₂_congr (fun source inside => arrives_iff runs join inside 1)

/-- The labelled causes are the causes of the marking that hold. -/
theorem mem_firing (target : GraphNodeId) (cause : SuccessorCause) :
    (target, cause) ∈ firing relation graph state arrivals ↔
      cause ∈ relation.successorCauses target ∧
        (stateMarking state).Causes (stateChoice state) cause := by
  simp only [firing, List.mem_append, List.mem_flatMap, List.mem_map, List.mem_filter,
    decide_eq_true_eq, Prod.mk.injEq, runs.shape.publication,
    FrontierRelation.mem_successorCauses]
  have known : ∀ {nodeId}, (stateMarking state).active nodeId → nodeId ∈ relation.nodes :=
    fun active => FrontierRelation.mem_nodes.mpr
      ((runs.carries.nodes _).mp (runs.shape.active_known active))
  constructor
  · rintro (⟨reference, ⟨source, active, rfl⟩, direct | routed⟩ | ⟨plan, ⟨member, complete⟩, rfl, rfl⟩)
    · obtain ⟨_, inside, rfl, rfl⟩ := direct
      exact ⟨.inl ⟨source, known active, inside, rfl⟩, active⟩
    · obtain ⟨_, inside, rfl, rfl⟩ := routed
      obtain ⟨inner, name, same, item⟩ := mem_selectedTarget.mp inside
      have chosen : stateChoice state source = some name := same
      refine ⟨.inr (.inl ⟨source, known active, name, item, inner, ?_⟩), active, ?_⟩
      · rw [same]
        rfl
      · rw [same]
        exact chosen
    · obtain ⟨inner, -, whole⟩ := (joinDue_iff runs member).mp complete
      exact ⟨.inr (.inr ⟨plan, member, rfl, inner, rfl⟩), whole⟩
  · rintro ⟨⟨source, -, inside, rfl⟩ | ⟨source, -, name, item, inner, rfl⟩ |
      ⟨plan, member, rfl, inner, rfl⟩, holds⟩
    · exact .inl ⟨_, ⟨source, holds, rfl⟩, .inl ⟨target, inside, rfl, rfl⟩⟩
    · obtain ⟨active, chosen⟩ := holds
      refine .inl ⟨_, ⟨source, active, rfl⟩, .inr ⟨target, ?_, rfl, ?_⟩⟩
      · exact mem_selectedTarget.mpr ⟨inner, name, chosen, item⟩
      · simp [activationReference, chosen]
    · by_cases sources : plan.identity.sources = []
      · obtain ⟨node, listed⟩ := FrontierRelation.mem_joins.mp member
        have inside := (runs.wellFormed.listed node).2 plan listed
        rw [sources] at inside
        cases inside
      · exact .inr ⟨plan, ⟨member, (joinDue_iff runs member).mpr ⟨inner, sources, holds⟩⟩, rfl, rfl⟩

theorem firing_nodup : (firing relation graph state arrivals).Nodup := by
  have publications : (frontierPublications state).Pairwise (fun a b =>
      a.activation.nodeId ≠ b.activation.nodeId) :=
    List.pairwise_map.mp runs.shape.publications_nodup
  refine List.nodup_append.mpr ⟨List.nodup_flatMap.mpr ⟨?_, ?_⟩, ?_, ?_⟩
  · intro reference _
    refine List.nodup_append.mpr ⟨?_, ?_, ?_⟩
    · exact (runs.wellFormed.direct _).1.map (fun _ _ same => (Prod.mk.inj same).1)
    · unfold selectedTarget
      cases (reference.route.bind
        (relation.conditional reference.activation.nodeId).get?).filter (fun target => target ≠ END) with
      | none => exact List.nodup_nil
      | some target => exact List.nodup_singleton _
    · intro a memberA b memberB same
      obtain ⟨_, -, rfl⟩ := List.mem_map.mp memberA
      obtain ⟨_, -, rfl⟩ := List.mem_map.mp memberB
      cases same
  · refine publications.imp ?_
    intro a b different
    simp only [Function.onFun, List.disjoint_left, List.mem_append, List.mem_map]
    rintro _ (⟨_, -, rfl⟩ | ⟨_, -, rfl⟩) (⟨_, -, same⟩ | ⟨_, -, same⟩)
    · exact different (SuccessorCause.direct.inj (Prod.mk.inj same).2).symm
    · cases same
    · cases same
    · exact different (SuccessorCause.routed.inj (Prod.mk.inj same).2).1.symm
  · exact ((FrontierRelation.joins_nodup relation).filter _).map
      (fun _ _ same => SuccessorCause.joined.inj (Prod.mk.inj same).2)
  · intro a memberA b memberB same
    obtain ⟨_, -, inside⟩ := List.mem_flatMap.mp memberA
    obtain ⟨_, -, rfl⟩ := List.mem_map.mp memberB
    rcases List.mem_append.mp inside with direct | routed
    · obtain ⟨_, -, rfl⟩ := List.mem_map.mp direct
      cases same
    · obtain ⟨_, -, rfl⟩ := List.mem_map.mp routed
      cases same

/-- Both lists name the same targets equally often. -/
theorem dueCauses_perm : ((dueCauses graph state arrivals).map Prod.fst).Perm
    ((firing relation graph state arrivals).map Prod.fst) := by
  have direct : (directCauses graph (frontierPublications state)).map Prod.fst =
      ((frontierPublications state).flatMap (fun reference =>
        (relation.direct reference.activation.nodeId).map (fun target =>
          (target, SuccessorCause.direct reference.activation.nodeId)) ++
        (selectedTarget (relation.conditional reference.activation.nodeId) reference.route).map
          (fun target => (target, SuccessorCause.routed reference.activation.nodeId
            (reference.route.getD ""))))).map Prod.fst := by
    simp only [directCauses, List.map_flatMap, List.map_append, List.map_map, successorTargets,
      runs.carries.direct, selectedTarget_congr (runs.carries.conditional _)]
    rfl
  -- the due complete occurrences and the complete Joins, both without repetitions
  have occurrences : (((sorted (gatheredArrivals graph state arrivals).keys).filter
      (fun occurrence => occurrence.targetSuperstep = state.superstep + 1)).filter
      (fun occurrence => SameSources ((gatheredArrivals graph state arrivals).getItem occurrence)
        occurrence.join.sources ∧ occurrence.join.target ≠ END)).Perm
      ((relation.joins.filter (fun join => JoinDue graph state arrivals join)).map
        (fun join => ⟨join.identity, state.runId, state.superstep + 1⟩)) := by
    refine (List.perm_ext_iff_of_nodup ?_ ?_).mpr ?_
    · refine ((perm_sorted _).nodup_iff.mpr ?_).filter _ |>.filter _
      exact (gatheredArrivals graph state arrivals).distinct
    · refine List.Nodup.map_on ?_ ((FrontierRelation.joins_nodup relation).filter _)
      intro a memberA b memberB same
      exact runs.carries.agree runs.wellFormed (List.mem_filter.mp memberA).1
        (List.mem_filter.mp memberB).1 (congrArg GraphJoinOccurrenceIdentity.join same)
    · intro occurrence
      simp only [List.mem_filter, mem_sorted, decide_eq_true_eq, List.mem_map]
      constructor
      · rintro ⟨⟨key, due⟩, complete, inner⟩
        obtain ⟨plan, remaining, gathered⟩ := gatheredAt runs key
        have one : remaining = 1 := by
          have target := congrArg GraphJoinOccurrenceIdentity.targetSuperstep gathered.place
          simp only at target
          omega
        have place := gathered.place
        rw [one] at place
        rw [place] at complete inner
        refine ⟨plan, ⟨gathered.join, ?_⟩, place.symm⟩
        refine (joinDue_iff runs gathered.join).mpr ⟨inner, ?_,
          (complete_iff runs gathered.join 1).mp complete⟩
        obtain ⟨reference, member⟩ := List.exists_mem_of_ne_nil _ gathered.nonempty
        exact List.ne_nil_of_mem (gathered.references reference member).1
      · rintro ⟨plan, ⟨member, due⟩, rfl⟩
        obtain ⟨inner, sources, complete⟩ := (joinDue_iff runs member).mp due
        obtain ⟨source, inside⟩ := List.exists_mem_of_ne_nil _ sources
        exact ⟨⟨(mem_gathered_keys runs member 1).mpr ⟨source, inside, complete source inside⟩, rfl⟩,
          (complete_iff runs member 1).mpr complete, inner⟩
  have candidates : ∀ occurrences : List GraphJoinOccurrenceIdentity,
      (occurrences.filterMap (fun occurrence => (occurrenceOutcome state
        (gatheredArrivals graph state arrivals) occurrence).candidate)).map Prod.fst =
      (occurrences.filter (fun occurrence => SameSources ((gatheredArrivals graph state
        arrivals).getItem occurrence) occurrence.join.sources ∧
          occurrence.join.target ≠ END)).map (·.join.target) := by
    intro occurrences
    induction occurrences with
    | nil => rfl
    | cons occurrence rest ih =>
        rw [List.filterMap_cons, List.filter_cons, candidate_occurrenceOutcome]
        split_ifs <;> simp_all
  rw [dueCauses, firing, List.map_append, List.map_append, direct, candidates]
  refine List.Perm.append_left _ ?_
  have mapped := occurrences.map (fun occurrence => occurrence.join.target)
  rw [List.map_map] at mapped ⊢
  exact mapped

/-- Every cause has a known target. -/
theorem target_known {target : GraphNodeId} {cause : SuccessorCause}
    (member : cause ∈ relation.successorCauses target) : target ∈ relation.nodes := by
  rw [FrontierRelation.mem_nodes]
  rcases FrontierRelation.mem_successorCauses.mp member with ⟨source, -, inside, -⟩ |
    ⟨source, -, name, inside, inner, -⟩ | ⟨plan, inside, rfl, inner, -⟩
  · exact (runs.wellFormed.direct source).2 inside
  · exact (runs.wellFormed.conditional source _ inside).resolve_left inner
  · obtain ⟨node, listed⟩ := FrontierRelation.mem_joins.mp inside
    exact (runs.wellFormed.joined node plan listed).2.2.resolve_left inner

/-- Every target has at most one cause exactly when no two causes of a target hold together. -/
theorem dueCauses_once : ((dueCauses graph state arrivals).map Prod.fst).Nodup ↔
    ∀ target ∈ relation.nodes, ¬ relation.Duplicates (stateMarking state) (stateChoice state)
      target := by
  rw [(dueCauses_perm runs).nodup_iff]
  constructor
  · intro once target known duplicates
    apply duplicates
    refine (FrontierRelation.successorCauses_nodup runs.wellFormed target).imp_of_mem ?_
    intro a b memberA memberB different both
    have firesA := (mem_firing runs target a).mpr ⟨memberA, both.1⟩
    have firesB := (mem_firing runs target b).mpr ⟨memberB, both.2⟩
    exact different (Prod.mk.inj (List.inj_on_of_nodup_map once firesA firesB rfl)).2
  · intro single
    refine List.Nodup.map_on ?_ (firing_nodup runs)
    rintro ⟨target, a⟩ firesA ⟨target', b⟩ firesB same
    simp only at same
    subst same
    obtain ⟨memberA, holdsA⟩ := (mem_firing runs target a).mp firesA
    obtain ⟨memberB, holdsB⟩ := (mem_firing runs target b).mp firesB
    have apart := not_not.mp (single target (target_known runs memberA))
    have symmetric : Std.Symm (fun a b => ¬ ((stateMarking state).Causes (stateChoice state) a ∧
        (stateMarking state).Causes (stateChoice state) b)) := ⟨fun a b h both => h both.symm⟩
    by_contra different
    exact apart.forall memberA memberB (fun here => different (by rw [here])) ⟨holdsA, holdsB⟩

end Causes

end MoteKernel
