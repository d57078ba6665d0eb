import MoteKernel.Execution.ValueBindings
import MoteKernel.Execution.ControlSoundness
import MoteKernel.Execution.ResumeInput

/-!
# Data flow of accepted definitions

The publication a compiled binding selects is of a node that was active at the
selected superstep, in every run. So no input of an activation and no output of
a completed graph asks for a value that the run has not published.
-/

namespace MoteKernel
open Checked Canonical Digraph Trace

variable {τ : Type} {graph : CompiledGraph τ} {nodeIds entries : List GraphNodeId}
  {edges : List Edge} {routeOptions : Dict GraphNodeId (List Route)}
  {dataDependencies : DataDependencies} {requirements : Dict GraphNodeId RouteRequirementProof}
  {guarantees : Dict GraphNodeId (List GraphNodeId)} {plan : ControlPlan}

/-! ## Selected supersteps -/

theorem allSingleSourceGates_eq_true {source : GraphNodeId} {gates : List RawActivationGate} :
    allSingleSourceGates source gates = true ↔
      gates ≠ [] ∧ ∀ gate ∈ gates, ∃ route, gate = [(source, route)] := by
  rw [allSingleSourceGates, Bool.and_eq_true, decide_eq_true_eq, List.all_eq_true]
  refine and_congr_right (fun _ => forall₂_congr (fun gate _ => ?_))
  rw [Bool.and_eq_true, decide_eq_true_eq, decide_eq_true_eq, List.length_eq_one_iff]
  constructor
  · intro both
    obtain ⟨⟨pair, rfl⟩, head⟩ := both
    obtain rfl := Option.some.inj head
    exact ⟨pair.2, rfl⟩
  · intro single
    obtain ⟨route, rfl⟩ := single
    exact ⟨⟨_, rfl⟩, rfl⟩

theorem mem_joinsInto {joins : List CompiledJoin} {node : GraphNodeId} {join : CompiledJoin} :
    join ∈ joinsInto joins node ↔ join ∈ joins ∧ join.identity.target = node ∧ node ≠ END := by
  rw [joinsInto, List.mem_filter, decide_eq_true_eq]

theorem CompiledJoin.targetOffset_eq (join : CompiledJoin) {source : GraphNodeId}
    (inside : source ∈ join.identity.sources) : join.targetOffset source = .ok (join.offset source) := by
  rw [← join.covers, List.mem_map] at inside
  obtain ⟨pair, member, same⟩ := inside
  unfold targetOffset offset
  cases found : join.sourceTargetOffsets.find? (fun pair => pair.1 = source) with
  | none => exact absurd same (by simpa using List.find?_eq_none.mp found pair member)
  | some other => rfl

theorem PublicationSelection.resolve_relative {distance anchor : Nat} (near : distance ≤ anchor) :
    (PublicationSelection.mk .relative distance).resolve anchor = .ok (anchor - distance) := by
  simp only [resolve, raiseIf, if_neg (Nat.not_lt.mpr near)]
  rfl

/-- An input is read at the level of its source, one superstep back, or at the offset of the Join. -/
theorem inputPublicationSelection_cases {absoluteLevels : GraphNodeId → Option Nat}
    {gates : ActivationGates} {joinsByTarget : GraphNodeId → List CompiledJoin}
    {source : NodeOutputPort} {target : GraphNodeId} {selection : PublicationSelection}
    (selected : inputPublicationSelection absoluteLevels gates joinsByTarget source target =
      .ok selection) :
    (∃ level, absoluteLevels source.nodeId = some level ∧ selection = ⟨.absolute, level⟩) ∨
    (allSingleSourceGates source.nodeId (gates target) = true ∧ selection = ⟨.relative, 1⟩) ∨
    ∃ join, joinsByTarget target = [join] ∧ (gates target).length = 1 ∧
      source.nodeId ∈ join.identity.sources ∧ selection = ⟨.relative, join.offset source.nodeId⟩ := by
  unfold inputPublicationSelection at selected
  cases leveled : absoluteLevels source.nodeId with
  | some level =>
      rw [leveled] at selected
      exact .inl ⟨level, rfl, (Except.ok.inj selected).symm⟩
  | none =>
      rw [leveled] at selected
      by_cases single : allSingleSourceGates source.nodeId (gates target) = true
      · simp only [single, if_true, pure_eq_ok, Except.ok.injEq] at selected
        exact .inr (.inl ⟨single, selected.symm⟩)
      · simp only [single, Bool.false_eq_true, if_false] at selected
        cases joined : joinsByTarget target with
        | nil =>
            rw [joined] at selected
            cases selected
        | cons join others =>
            cases others with
            | cons other others =>
                rw [joined] at selected
                cases selected
            | nil =>
                rw [joined] at selected
                by_cases only : (gates target).length = 1 ∧ source.nodeId ∈ join.identity.sources
                · simp only [if_pos only, join.targetOffset_eq only.2] at selected
                  exact .inr (.inr ⟨join, rfl, only.1, only.2, (Except.ok.inj selected).symm⟩)
                · simp only [if_neg only] at selected
                  cases selected

section Selections

variable (accepted : Accepted graph nodeIds entries edges routeOptions dataDependencies requirements
    guarantees plan)
include accepted

/-- A Join has several sources, so its gate is no single pair. -/
theorem Accepted.join_gate {target : GraphNodeId} {join : CompiledJoin}
    (member : .joined join ∈
      (edgeRelation nodeIds entries edges routeOptions plan.joins).successorCauses target) :
    join ∈ joinsInto plan.joins target ∧ 1 < (SuccessorCause.joined join).gate.length := by
  obtain ⟨inner, ⟨_, _, wrong⟩ | ⟨_, _, _, wrong⟩ | ⟨other, listed, into, same⟩⟩ :=
    accepted.runs.mem_successorCauses.mp member
  · cases wrong
  · cases wrong
  · cases same
    obtain ⟨sources, edge, sorted⟩ := accepted.runs.join_edge listed
    have several := (accepted.runs.valid.known _ edge).1
    refine ⟨mem_joinsInto.mpr ⟨listed, into, inner⟩, ?_⟩
    rw [SuccessorCause.gate, List.length_map, sorted, (perm_sorted sources).length_eq]
    omega

/-- A cause whose gate is one pair was active in the superstep of the cause. -/
theorem Accepted.single_cause {target : GraphNodeId} {cause : SuccessorCause}
    (member : cause ∈ (edgeRelation nodeIds entries edges routeOptions plan.joins).successorCauses
      target) {active : Nat → GraphNodeId → Prop} {choice : Nat → GraphNodeId → Route}
    {superstep : Nat} (caused : CausedAt active choice superstep cause) {source : GraphNodeId}
    {route : Route} (gate : cause.gate = [(source, route)]) : active superstep source := by
  cases cause with
  | direct other =>
      obtain rfl : other = source := congrArg Prod.fst (List.singleton_inj.mp gate)
      exact caused
  | routed other name =>
      obtain rfl : other = source := congrArg Prod.fst (List.singleton_inj.mp gate)
      exact caused.1
  | joined join =>
      have several := (accepted.join_gate member).2
      rw [gate] at several
      exact absurd several (by simp)

/-- The only gate of a target with one Join is that of the Join. -/
theorem Accepted.only_join {target : GraphNodeId} {join : CompiledJoin}
    (joined : joinsInto plan.joins target = [join])
    (alone : (collectActivationGates edges target).length = 1) {cause : SuccessorCause}
    (member : cause ∈ (edgeRelation nodeIds entries edges routeOptions plan.joins).successorCauses
      target) : cause = .joined join := by
  obtain ⟨listed, into, inner⟩ := mem_joinsInto.mp (joined ▸ List.mem_singleton.mpr rfl)
  have joins : .joined join ∈ (edgeRelation nodeIds entries edges routeOptions
      plan.joins).successorCauses target :=
    accepted.runs.mem_successorCauses.mpr ⟨inner, .inr (.inr ⟨join, listed, into, rfl⟩)⟩
  have gates : ∀ cause ∈ (edgeRelation nodeIds entries edges routeOptions plan.joins).successorCauses
      target, cause.gate ∈ collectActivationGates edges target :=
    fun cause member => accepted.runs.mem_gates.mpr ⟨cause, member, rfl⟩
  have shared : cause.gate = (SuccessorCause.joined join).gate := by
    obtain ⟨sole, only⟩ := List.length_eq_one_iff.mp alone
    rw [only] at gates
    rw [List.mem_singleton.mp (gates _ member), List.mem_singleton.mp (gates _ joins)]
  have several := (accepted.join_gate joins).2
  rw [← shared] at several
  cases cause with
  | direct source => exact absurd several (by simp [SuccessorCause.gate])
  | routed source route => exact absurd several (by simp [SuccessorCause.gate])
  | joined other =>
      have same := (accepted.join_gate member).1
      rw [joined, List.mem_singleton] at same
      rw [same]

/-- A guaranteed node of an activation is none of an entry, and has been active. -/
theorem Accepted.guaranteed_active {target : GraphNodeId} (known : target ∈ nodeIds)
    {source : GraphNodeId} (guaranteed : source ∈ guarantees.getItem target)
    (different : source ≠ target) : target ∉ entries ∧
      ∀ {last active choice}, Trail (edgeRelation nodeIds entries edges routeOptions plan.joins) last
          active choice → ∀ {superstep cause}, cause ∈
            (edgeRelation nodeIds entries edges routeOptions plan.joins).successorCauses target →
          CausedAt active choice superstep cause →
        ∃ earlier ≤ superstep, active earlier source := by
  rw [← guaranteedSets_stable accepted.analysed.guaranteed, mem_guaranteedPass known] at guaranteed
  obtain ⟨outside, -, every⟩ := guaranteed.resolve_left different
  refine ⟨outside, ?_⟩
  intro last active choice trail superstep cause member caused
  obtain ⟨pair, inside, inner⟩ := every cause.gate (accepted.runs.mem_gates.mpr ⟨cause, member, rfl⟩)
  obtain ⟨middle, before, there⟩ := caused.sources inside
  obtain ⟨earlier, early, here, -⟩ :=
    guaranteed_before accepted.runs accepted.analysed.guaranteed trail there inner
  exact ⟨earlier, by omega, here⟩

variable {last : Nat} {active : Nat → GraphNodeId → Prop} {choice : Nat → GraphNodeId → Route}
  (trail : Trail (edgeRelation nodeIds entries edges routeOptions plan.joins) last active choice)
include trail

/-- The superstep an input binding selects is one in which its source was active. -/
theorem Accepted.selected_active {target : GraphNodeId} (known : target ∈ nodeIds)
    {cause : SuccessorCause}
    (member : cause ∈ (edgeRelation nodeIds entries edges routeOptions plan.joins).successorCauses
      target) {superstep : Nat} (caused : CausedAt active choice superstep cause)
    {port : NodeOutputPort} (guaranteed : port.nodeId ∈ guarantees.getItem target)
    (different : port.nodeId ≠ target) {selection : PublicationSelection}
    (selected : inputPublicationSelection plan.absoluteLevels (collectActivationGates edges)
      (joinsInto plan.joins) port target = .ok selection) :
    ∃ earlier ≤ superstep, selection.resolve (superstep + 1) = .ok earlier ∧
      active earlier port.nodeId := by
  have gate : cause.gate ∈ collectActivationGates edges target :=
    accepted.runs.mem_gates.mpr ⟨cause, member, rfl⟩
  rcases inputPublicationSelection_cases selected with ⟨level, leveled, rfl⟩ | ⟨single, rfl⟩ |
    ⟨join, joined, alone, inside, rfl⟩
  · obtain ⟨earlier, before, here⟩ := (accepted.guaranteed_active known guaranteed different).2
      trail member caused
    obtain rfl := accepted.active_absolute trail leveled here
    exact ⟨earlier, before, rfl, here⟩
  · obtain ⟨route, same⟩ := (allSingleSourceGates_eq_true.mp single).2 _ gate
    exact ⟨superstep, le_rfl, PublicationSelection.resolve_relative (by omega),
      accepted.single_cause member caused same⟩
  · obtain rfl := accepted.only_join joined alone member
    obtain ⟨earlier, before, here, place⟩ := caused port.nodeId inside
    have back : superstep + 1 - join.offset port.nodeId = earlier := by omega
    exact ⟨earlier, before, back ▸ PublicationSelection.resolve_relative (by omega), here⟩

end Selections

/-! ## Recorded causes -/

/-- What a routed activation records of a cause: the settled references it rests on. -/
def RecordsCause (graph : CompiledGraph τ) (state : GraphRunState) (arrivals : JoinArrivals)
    (cause : RoutedActivationCause) : SuccessorCause → Prop
  | .direct source => cause = ⟨[activationReference state.runId state.superstep source
      (stateChoice state source)], none⟩
  | .routed source route => stateChoice state source = some route ∧
      cause = ⟨[activationReference state.runId state.superstep source (some route)], none⟩
  | .joined join => cause = ⟨sorted ((gatheredArrivals graph state arrivals).getItem
      ⟨join.identity, state.runId, state.superstep + 1⟩),
        some ⟨join.identity, state.runId, state.superstep + 1⟩⟩

/-- Every cause of the next frontier records a cause of its target that holds. -/
theorem nextCauses_recorded {relation : FrontierRelation} {declared : JoinDeclarations}
    {state : GraphRunState} {arrivals : JoinArrivals}
    (runs : RunsOn graph relation declared state arrivals)
    (resolvable : Resolvable graph state arrivals) {target : GraphNodeId}
    {cause : RoutedActivationCause} (member : (target, cause) ∈ nextCauses graph state arrivals) :
    ∃ source ∈ relation.successorCauses target,
      (stateMarking state).Causes (stateChoice state) source ∧
      RecordsCause graph state arrivals cause source := by
  have known : ∀ {nodeId}, (stateMarking state).active nodeId → nodeId ∈ relation.nodes :=
    fun active => FrontierRelation.mem_nodes.mpr
      ((runs.carries.nodes _).mp (runs.shape.active_known active))
  rw [nextCauses, List.mem_append] at member
  rcases member with direct | joined
  · rw [directCauses, List.mem_flatMap] at direct
    obtain ⟨reference, success, inside⟩ := direct
    obtain ⟨source, active, rfl⟩ := runs.shape.publication.mp success
    obtain ⟨other, leads, same⟩ := List.mem_map.mp inside
    obtain ⟨rfl, rfl⟩ := Prod.mk.inj same
    rw [successorTargets, List.mem_append] at leads
    rcases leads with direct | routed
    · refine ⟨.direct source, FrontierRelation.mem_successorCauses.mpr
        (.inl ⟨source, known active, ?_, rfl⟩), active, rfl⟩
      rw [← runs.carries.direct]
      exact direct
    · rw [selectedTarget_congr (runs.carries.conditional _)] at routed
      obtain ⟨inner, name, chosen, item⟩ := mem_selectedTarget.mp routed
      have selects : stateChoice state source = some name := chosen
      refine ⟨.routed source name, FrontierRelation.mem_successorCauses.mpr
        (.inr (.inl ⟨source, known active, name, item, inner, rfl⟩)), ⟨active, selects⟩, selects, ?_⟩
      rw [selects]
  · obtain ⟨outcome, listed, activates⟩ := List.mem_filterMap.mp joined
    obtain ⟨occurrence, key, rfl⟩ := mem_controlOutcomes.mp listed
    rw [candidate_occurrenceOutcome] at activates
    by_cases complete : SameSources ((gatheredArrivals graph state arrivals).getItem occurrence)
        occurrence.join.sources ∧ occurrence.join.target ≠ END
    · rw [if_pos complete] at activates
      obtain ⟨rfl, rfl⟩ := Prod.mk.inj (Option.some.inj activates)
      obtain ⟨join, remaining, gathered⟩ := gatheredAt runs key
      have due := (resolvable.timely occurrence key).complete complete.1
      have place := gathered.place
      have one : remaining = 1 := by
        have target := congrArg GraphJoinOccurrenceIdentity.targetSuperstep place
        simp only at target
        omega
      subst one
      subst place
      exact ⟨.joined join, FrontierRelation.mem_successorCauses.mpr
        (.inr (.inr ⟨join, gathered.join, rfl, complete.2, rfl⟩)),
        (complete_iff runs gathered.join 1).mp complete.1, rfl⟩
    · rw [if_neg complete] at activates
      cases activates

/-! ## Available inputs -/

/-- The frames hold the graph input and what the activations before a superstep published. -/
structure HoldsValues (graph : CompiledGraph τ) (state : GraphRunState)
    (scopeRun : ScopeRunCoordinate) (frames : ScopedFrameAvailability) (bound : Nat) : Prop where
  run : state.runId = scopeRun.graphRunId
  graphInput : frames.hasGraphInput (graphInputAvailabilityCoordinate graph scopeRun) = true
  publications : ∀ reference ∈ state.settledReferences, reference.activation.superstep < bound →
    ∀ coordinate, publicationAvailabilityCoordinate graph scopeRun reference.activation =
      .ok coordinate → frames.hasPublication coordinate = true

/-- The binding resolves to a frame that is present. -/
def BindingReady (graph : CompiledGraph τ) (state : GraphRunState) (scopeRun : ScopeRunCoordinate)
    (frames : ScopedFrameAvailability) (superstep : Nat) (cause : GraphActivationCause)
    (binding : ResolvedInputBinding τ) : Prop :=
  ∃ resolved, bindingSourceCoordinate graph (some state) scopeRun superstep binding (some cause) =
    .ok resolved ∧ frameCoordinateAvailable frames resolved.2 = true

theorem publicationAvailabilityCoordinate_eq (graph : CompiledGraph τ)
    (scopeRun : ScopeRunCoordinate) (superstep : Nat) (nodeId : GraphNodeId) :
    publicationAvailabilityCoordinate graph scopeRun ⟨scopeRun.graphRunId, superstep, nodeId⟩ =
      .ok ⟨⟨scopeRun, superstep, nodeId⟩, (graph.transition.publications.getItem nodeId).identity⟩ := by
  rw [publicationAvailabilityCoordinate, stableActivation_eq rfl]
  rfl

/-- A port list with one port a node has the port of each of its nodes. -/
theorem filter_port_eq {nodes : List GraphNodeId} (distinct : nodes.Nodup) {nodeId : GraphNodeId}
    (member : nodeId ∈ nodes) (outputName : String) :
    (nodes.map (fun source => NodeOutputPort.mk source outputName)).filter
      (fun port => port.nodeId = nodeId) = [⟨nodeId, outputName⟩] := by
  rw [List.filter_map]
  have single : nodes.filter (fun source => source = nodeId) = [nodeId] := by
    rw [List.filter_eq, List.count_eq_one_of_mem distinct member]
    rfl
  show (nodes.filter (fun source => source = nodeId)).map _ = _
  rw [single]
  rfl

section Bindings

variable {state : GraphRunState} {scopeRun : ScopeRunCoordinate} {frames : ScopedFrameAvailability}
  {bound : Nat}

theorem HoldsValues.published (held : HoldsValues graph state scopeRun frames bound)
    {reference : ActivationReference} (settled : reference ∈ state.settledReferences)
    (before : reference.activation.superstep < bound)
    (run : reference.activation.runId = scopeRun.graphRunId) : ∃ coordinate,
      publicationAvailabilityCoordinate graph scopeRun reference.activation = .ok coordinate ∧
      frames.hasPublication coordinate = true := by
  obtain ⟨⟨runId, superstep, nodeId⟩, route⟩ := reference
  simp only at run
  subst run
  have computed := publicationAvailabilityCoordinate_eq graph scopeRun superstep nodeId
  exact ⟨_, computed, held.publications _ settled before _ computed⟩

/-- Graph inputs are available to every activation. -/
theorem HoldsValues.graphInput_ready (held : HoldsValues graph state scopeRun frames bound)
    {binding : ResolvedInputBinding τ} {port : GraphInputPort}
    (reads : binding.source = .graphInput port) (superstep : Nat) (cause : GraphActivationCause) :
    BindingReady graph state scopeRun frames superstep cause binding := by
  refine ⟨(.graphInput port, .graphInput (graphInputAvailabilityCoordinate graph scopeRun)), ?_,
    held.graphInput⟩
  rw [bindingSourceCoordinate.eq_def, reads]
  rfl

/-- A selected publication that was published is available. -/
theorem HoldsValues.nodeOutput_ready (held : HoldsValues graph state scopeRun frames bound)
    {binding : ResolvedInputBinding τ} {port : NodeOutputPort}
    (reads : binding.source = .nodeOutput port) {selection : PublicationSelection}
    (selects : binding.publication = some selection) {superstep earlier : Nat}
    (resolves : selection.resolve superstep = .ok earlier) (before : earlier < bound) {route : Route}
    (settled : activationReference state.runId earlier port.nodeId route ∈ state.settledReferences)
    (cause : GraphActivationCause) :
    BindingReady graph state scopeRun frames superstep cause binding := by
  obtain ⟨coordinate, computed, present⟩ := held.published settled before held.run
  have located : publicationAvailabilityCoordinate graph scopeRun
      ⟨scopeRun.graphRunId, earlier, port.nodeId⟩ = .ok coordinate := by
    rw [← held.run]
    exact computed
  refine ⟨(.nodeOutput port, .publication coordinate), ?_, present⟩
  rw [bindingSourceCoordinate.eq_def, reads]
  simp only [sourceAvailabilityCoordinate, selects, orRaise, ok_bind, resolves, located, pure_eq_ok]

/-- A direct or routed cause selects the port of its predecessor. -/
theorem causalRoutedSource_single {superstep : Nat} {source : GraphNodeId} {route : Route}
    (settled : activationReference state.runId superstep source route ∈ state.settledReferences)
    {input : CompiledPredecessorInput} {port : NodeOutputPort}
    (only : input.sources.filter (fun port => port.nodeId = source) = [port]) :
    causalRoutedSource state (superstep + 1)
      ⟨[activationReference state.runId superstep source route], none⟩ input =
        .ok (.predecessor port ⟨state.runId, superstep, source⟩) := by
  simp only [causalRoutedSource, bind_eq_ok, exists_unit, raiseIf_eq_ok]
  refine ⟨by omega, ?_, ?_⟩
  · rw [not_or, not_not, not_not]
    exact ⟨rfl, settled⟩
  · rw [show input.sources.filter (fun port => port.nodeId =
      (activationReference state.runId superstep source route).activation.nodeId) = [port] from only]
    rfl

/-- A control-causal input of an immediate predecessor is available. -/
theorem HoldsValues.predecessor_ready (held : HoldsValues graph state scopeRun frames bound)
    {node : GraphNodeId} {binding : ResolvedInputBinding τ} {input : CompiledPredecessorInput}
    (reads : binding.source = .predecessor input) (destination : binding.destination.nodeId = node)
    {gates : ActivationGates}
    (plans : PlansCausal entries gates node binding.destination.localName input)
    {superstep : Nat} (before : superstep < bound) {source : GraphNodeId} {name route : Route}
    (gate : [(source, name)] ∈ gates node)
    (settled : activationReference state.runId superstep source route ∈ state.settledReferences) :
    BindingReady graph state scopeRun frames (superstep + 1)
      (.routed ⟨[activationReference state.runId superstep source route], none⟩) binding := by
  obtain ⟨coordinate, computed, present⟩ := held.published settled before held.run
  obtain ⟨outputName, sources⟩ := plans.sources
  have listed : source ∈ sortedSet ((gates node).filterMap (fun gate => gate.head?.map Prod.fst)) :=
    mem_sortedSet.mpr (List.mem_filterMap.mpr ⟨_, gate, rfl⟩)
  refine ⟨(.nodeOutput ⟨source, outputName⟩, .publication coordinate), ?_, present⟩
  have selected : causalInputSourceForCause graph state (superstep + 1)
      (.routed ⟨[activationReference state.runId superstep source route], none⟩) binding =
        .ok (.predecessor ⟨source, outputName⟩ ⟨state.runId, superstep, source⟩) := by
    rw [causalInputSourceForCause.eq_def, reads]
    have aligned : ¬ (input.target ≠ binding.destination.nodeId ∨
        input.inputName ≠ binding.destination.localName) := by
      rw [not_or, not_not, not_not]
      exact ⟨plans.target.trans destination.symm, plans.named⟩
    have only := filter_port_eq ((sortedSet_strict _).imp ne_of_lt) listed outputName
    rw [← sources] at only
    simp only [raiseIf, if_neg aligned, ok_bind]
    exact causalRoutedSource_single settled only
  rw [bindingSourceCoordinate.eq_def, reads]
  simp only [selected, ok_bind]
  rw [show publicationAvailabilityCoordinate graph scopeRun ⟨state.runId, superstep, source⟩ =
    .ok coordinate from computed]
  rfl

end Bindings

/-! ## Inputs of an open frontier -/

/-- An open frontier: the entries, or what the control of a settled frontier opens. Its own
activations may be in any state. -/
inductive Opened (graph : CompiledGraph τ) (state : GraphRunState) : Prop
  | start (starts : Starts graph state)
  | advance {previous : GraphRunState} {control : RoutingFacts} (before : ControlRun graph previous)
      (resolves : ResolvesTo graph previous control) (follows : Follows previous control state)

section Inputs

variable (accepted : Accepted graph nodeIds entries edges routeOptions dataDependencies requirements
    guarantees plan) (values : PlansValues graph nodeIds entries edges dataDependencies plan)
include accepted

/-- The history that a cause of the next frontier continues. -/
theorem Accepted.caused {state : GraphRunState} {active : Nat → GraphNodeId → Prop}
    {choice : Nat → GraphNodeId → Route}
    (recorded : Recorded (edgeRelation nodeIds entries edges routeOptions plan.joins) state active
      choice) {target : GraphNodeId} {cause : SuccessorCause}
    (member : cause ∈ (edgeRelation nodeIds entries edges routeOptions plan.joins).successorCauses
      target) : (stateMarking state).Causes (stateChoice state) cause ↔
        CausedAt active choice state.superstep cause := by
  rw [recorded.agree.causes accepted.runs.wellFormed (fun node _ here => (recorded.chosen node
    ((recorded.current node).mpr here)).symm) member]
  exact historyMarking_causes

/-- A resolved control activates nodes of the graph. -/
theorem Accepted.activation_known {previous : GraphRunState} {control : RoutingFacts}
    (run : ControlRun graph previous) (resolves : ResolvesTo graph previous control)
    {activation : GraphFrontierActivation} (opens : activation ∈ control.activations) :
    activation.nodeId ∈ nodeIds := by
  obtain ⟨declared, arrivals, runsOn⟩ := run.runsOn accepted.runs.wellFormed accepted.runs.carries
  obtain ⟨resolvable, rfl⟩ := (resolvesTo_iff runsOn.declares runsOn.pending control).mp resolves
  obtain ⟨cause, -, caused⟩ := mem_nextActivations.mp opens
  obtain ⟨source, member, -, -⟩ := nextCauses_recorded runsOn resolvable caused
  exact accepted.runs.mem_nodes.mp (target_known runsOn member)

/-- The nodes of an open frontier are nodes of the graph. -/
theorem Accepted.opened_known {state : GraphRunState} (opened : Opened graph state) :
    ∀ node ∈ state.frontier.nodes, node.nodeId ∈ nodeIds := by
  intro node inside
  have listed : node.activation ∈ state.frontier.nodes.map GraphFrontierNode.activation :=
    List.mem_map.mpr ⟨node, inside, rfl⟩
  cases opened with
  | start starts =>
      rw [starts.opens, List.mem_map, accepted.graphEntries] at listed
      obtain ⟨entry, entryListed, same⟩ := listed
      have named : entry = node.nodeId := congrArg GraphFrontierActivation.nodeId same
      exact accepted.entriesKnown (named ▸ entryListed)
  | advance before resolves follows =>
      rw [follows.opens] at listed
      exact accepted.activation_known before resolves listed

include values

/-- Every input of an entry is available at the start. -/
theorem Accepted.start_ready {node : GraphNodeId} (entry : node ∈ entries) {state : GraphRunState}
    {scopeRun : ScopeRunCoordinate} {frames : ScopedFrameAvailability} {bound : Nat}
    (held : HoldsValues graph state scopeRun frames bound) :
    ∀ binding ∈ graph.bindings node, BindingReady graph state scopeRun frames 0 .start binding := by
  intro binding member
  have known := accepted.entriesKnown entry
  have plans := values.inputs node known binding member
  cases reads : binding.source with
  | graphInput port => exact held.graphInput_ready reads 0 .start
  | nodeOutput port =>
      obtain ⟨depends, different, -⟩ := plans.published port reads
      have guaranteed := accepted.analysed.produced node known _ depends
      exact absurd entry (accepted.guaranteed_active known guaranteed different).1
  | predecessor input =>
      have causal := plans.causal input reads
      refine ⟨(.graphInput ⟨binding.destination.localName⟩,
        .graphInput (graphInputAvailabilityCoordinate graph scopeRun)), ?_, held.graphInput⟩
      have selected : causalInputSourceForCause graph state 0 .start binding =
          .ok (.graphInput ⟨binding.destination.localName⟩) := by
        rw [causalInputSourceForCause.eq_def, reads]
        simp only [bind_eq_ok, exists_unit, raiseIf_eq_ok, causalStartSource, orRaise_eq_ok,
          causal.start entry, Option.some.injEq, pure_eq_ok, exists_eq_left', and_true]
        refine ⟨?_, by omega, ?_⟩
        · rw [not_or, not_not, not_not]
          exact ⟨causal.target.trans plans.destination.symm, causal.named⟩
        · rw [not_or, not_not, not_not, accepted.graphEntries, plans.destination]
          exact ⟨entry, rfl⟩
      rw [bindingSourceCoordinate.eq_def, reads]
      simp only [selected, ok_bind]
      rfl

/-- Every input of a routed activation is available in the superstep it opens. -/
theorem Accepted.routed_ready {previous : GraphRunState} {control : RoutingFacts}
    (run : ControlRun graph previous) (resolves : ResolvesTo graph previous control)
    {activation : GraphFrontierActivation} (opens : activation ∈ control.activations)
    {state : GraphRunState} (sameRun : state.runId = previous.runId)
    (ledger : previous.settledReferences ⊆ state.settledReferences)
    {scopeRun : ScopeRunCoordinate} {frames : ScopedFrameAvailability}
    (held : HoldsValues graph state scopeRun frames (previous.superstep + 1)) :
    ∀ binding ∈ graph.bindings activation.nodeId, BindingReady graph state scopeRun frames
      (previous.superstep + 1) activation.cause binding := by
  obtain ⟨active, choice, recorded⟩ := run.recorded accepted.runs.wellFormed accepted.runs.carries
  obtain ⟨declared, arrivals, runsOn⟩ := run.runsOn accepted.runs.wellFormed accepted.runs.carries
  obtain ⟨resolvable, rfl⟩ := (resolvesTo_iff runsOn.declares runsOn.pending control).mp resolves
  obtain ⟨cause, routed, caused⟩ := mem_nextActivations.mp opens
  obtain ⟨source, member, holds, records⟩ := nextCauses_recorded runsOn resolvable caused
  have known := accepted.runs.mem_nodes.mp (target_known runsOn member)
  have history := (accepted.caused recorded member).mp holds
  intro binding inside
  have plans := values.inputs _ known binding inside
  cases reads : binding.source with
  | graphInput port => exact held.graphInput_ready reads _ _
  | nodeOutput port =>
      obtain ⟨depends, different, selection, selects, selected⟩ := plans.published port reads
      have guaranteed := accepted.analysed.produced _ known _ depends
      obtain ⟨earlier, before, resolved, here⟩ :=
        accepted.selected_active recorded.trail known member history guaranteed different selected
      have settled := ledger ((recorded.ledger _).mpr ⟨earlier, port.nodeId, here, rfl⟩)
      rw [← sameRun] at settled
      exact held.nodeOutput_ready reads selects resolved (by omega) settled _
  | predecessor input =>
      have causal := plans.causal input reads
      -- every gate of the node is a single pair, so the cause is no Join
      have gate : source.gate ∈ collectActivationGates edges activation.nodeId :=
        accepted.runs.mem_gates.mpr ⟨source, member, rfl⟩
      have single := causal.single _ gate
      have settles : ∀ node, (stateMarking previous).active node → activationReference state.runId
          previous.superstep node (stateChoice previous node) ∈ state.settledReferences := by
        intro node here
        rw [sameRun]
        exact ledger (runsOn.shape.evidence (runsOn.shape.publication.mpr ⟨node, here, rfl⟩))
      rw [routed]
      cases source with
      | direct node =>
          rw [RecordsCause, ← sameRun] at records
          rw [records]
          exact held.predecessor_ready reads plans.destination causal (by omega) gate
            (settles node holds)
      | routed node name =>
          obtain ⟨chosen, records⟩ := records
          rw [← chosen, ← sameRun] at records
          rw [records]
          exact held.predecessor_ready reads plans.destination causal (by omega) gate
            (settles node holds.1)
      | joined join =>
          have several := (accepted.join_gate member).2
          rw [single] at several
          exact absurd several (lt_irrefl 1)

/-- Every input of an open frontier is available. -/
theorem Accepted.frontier_ready {state : GraphRunState} (opened : Opened graph state)
    {scopeRun : ScopeRunCoordinate} {frames : ScopedFrameAvailability}
    (held : HoldsValues graph state scopeRun frames state.superstep) :
    ∀ node ∈ state.frontier.nodes, ∀ binding ∈ graph.bindings node.nodeId,
      BindingReady graph state scopeRun frames state.superstep node.cause binding := by
  intro node inside binding member
  have listed : node.activation ∈ state.frontier.nodes.map GraphFrontierNode.activation :=
    List.mem_map.mpr ⟨node, inside, rfl⟩
  cases opened with
  | start starts =>
      rw [starts.opens, List.mem_map] at listed
      obtain ⟨entry, entryListed, same⟩ := listed
      have named : entry = node.nodeId := congrArg GraphFrontierActivation.nodeId same
      have caused : node.cause = .start := (congrArg GraphFrontierActivation.cause same).symm
      rw [starts.superstep, caused]
      rw [accepted.graphEntries, named] at entryListed
      exact accepted.start_ready values entryListed held binding member
  | advance before resolves follows =>
      rw [follows.opens] at listed
      rw [follows.superstep] at held ⊢
      exact accepted.routed_ready values before resolves listed follows.run
        (fun reference settled => (follows.ledger reference).mpr (.inl settled)) held binding member

/-- The preflight finds every input of an open frontier available. -/
theorem Accepted.inputs_available {state : GraphRunState} (opened : Opened graph state)
    {scopeRun : ScopeRunCoordinate} {frames : ScopedFrameAvailability}
    (held : HoldsValues graph state scopeRun frames state.superstep) {nodeId : GraphNodeId}
    {node : GraphFrontierNode} (current : frontierNode state.frontier nodeId = some node) :
    nodeInputsAvailable graph scopeRun state.superstep frames nodeId (some state) = .ok true := by
  have inside := List.mem_of_find?_eq_some current
  obtain rfl : node.nodeId = nodeId := by simpa using List.find?_some current
  have planned := values.materialized _ (accepted.opened_known opened node inside)
  obtain ⟨materialization, stored⟩ := (Dict.mem_keys _ _).mp planned
  have same : graph.bindings node.nodeId = materialization.bindings := by
    rw [CompiledGraph.bindings, Dict.getItem, stored, Option.getD_some]
  simp only [nodeInputsAvailable, requireNodeMaterialization, stored, orRaise, ok_bind,
    availabilityCause_eq held.run current, allM_eq_ok_true]
  intro binding member
  rw [← same] at member
  obtain ⟨resolved, located, present⟩ :=
    accepted.frontier_ready values opened held node inside binding member
  simp only [bindingAvailable, located, rethrow_ok, ok_bind, present, pure_eq_ok]

end Inputs

/-! ## Outputs of a completed graph -/

theorem outputPublicationSelection_cases {absoluteLevels : GraphNodeId → Option Nat}
    {terminalGates : List (List GraphNodeId)} {source : NodeOutputPort}
    {selection : PublicationSelection}
    (selected : outputPublicationSelection absoluteLevels terminalGates source = .ok selection) :
    (∃ level, absoluteLevels source.nodeId = some level ∧ selection = ⟨.absolute, level⟩) ∨
    ((∀ gate ∈ terminalGates, gate = [source.nodeId]) ∧ selection = ⟨.relative, 0⟩) := by
  unfold outputPublicationSelection at selected
  cases leveled : absoluteLevels source.nodeId with
  | some level =>
      rw [leveled] at selected
      exact .inl ⟨level, rfl, (Except.ok.inj selected).symm⟩
  | none =>
      rw [leveled] at selected
      by_cases only : terminalGates ≠ [] ∧ ∀ gate ∈ terminalGates, gate = [source.nodeId]
      · simp only [if_pos only, pure_eq_ok, Except.ok.injEq] at selected
        exact .inr ⟨only.2, selected.symm⟩
      · simp only [if_neg only] at selected
        cases selected

/-- An output never precedes the run, so its coordinate exists whenever control resolves. -/
theorem unavailableGraphOutput_exists {binding : GraphOutputBinding τ}
    (plans : PlansOutput plan binding) (scopeRun : ScopeRunCoordinate) (superstep : Nat)
    (frames : ScopedFrameAvailability) :
    ∃ label, unavailableGraphOutput graph scopeRun superstep frames binding = .ok label := by
  unfold unavailableGraphOutput sourceAvailabilityCoordinate
  cases reads : binding.source with
  | graphInput port => exact ⟨_, rfl⟩
  | nodeOutput port =>
      obtain ⟨-, selection, selects, selected⟩ := plans port reads
      have resolves : ∃ earlier, selection.resolve superstep = .ok earlier := by
        rcases outputPublicationSelection_cases selected with ⟨level, -, rfl⟩ | ⟨-, rfl⟩
        · exact ⟨level, rfl⟩
        · exact ⟨superstep, PublicationSelection.resolve_relative (Nat.zero_le _)⟩
      obtain ⟨earlier, resolved⟩ := resolves
      simp only [selects, orRaise, ok_bind, resolved, publicationAvailabilityCoordinate_eq, pure_eq_ok]
      exact ⟨_, rfl⟩

section Outputs

variable (accepted : Accepted graph nodeIds entries edges routeOptions dataDependencies requirements
    guarantees plan) {state : GraphRunState} {control : RoutingFacts}
include accepted

/-- A run that ends leaves nothing active and nothing pending. -/
theorem Accepted.quiet_marking (run : ControlRun graph state)
    (resolves : ResolvesTo graph state control) (ends : control.activations = []) :
    Quiet (edgeRelation nodeIds entries edges routeOptions plan.joins) (stateMarking state)
      (stateChoice state) := by
  obtain ⟨declared, arrivals, runsOn⟩ := run.runsOn accepted.runs.wellFormed accepted.runs.carries
  obtain ⟨resolvable, rfl⟩ := (resolvesTo_iff runsOn.declares runsOn.pending control).mp resolves
  exact quiet_of_agree (accepted.moves run)
    (accepted.quiet run (idle_of_activations runsOn resolvable ends))

/-- A run that ends passes a terminal gate: its nodes are active, or are sources of a complete
Join. -/
theorem Accepted.ending_gate (run : ControlRun graph state)
    (quiet : Quiet (edgeRelation nodeIds entries edges routeOptions plan.joins) (stateMarking state)
      (stateChoice state)) (nonempty : state.frontier.nodes ≠ []) :
    ∃ gate ∈ plan.terminalGates, ∀ source ∈ gate, (stateMarking state).active source ∨
      ∃ join ∈ plan.joins, source ∈ join.identity.sources ∧
        (stateMarking state).Complete join 1 := by
  obtain ⟨declared, arrivals, runsOn⟩ := run.runsOn accepted.runs.wellFormed accepted.runs.carries
  obtain ⟨frontierNode, inside⟩ := List.exists_mem_of_ne_nil _ nonempty
  have here : (stateMarking state).active frontierNode.nodeId :=
    List.mem_map.mpr ⟨frontierNode, inside, rfl⟩
  have known := (accepted.runs.nodes _).mp
    ((accepted.runs.carries.nodes _).mp (runsOn.shape.active_known here))
  have selects := runsOn.shape.selects here
  rw [accepted.runs.carries.options] at selects
  obtain ⟨gate, passed, settled⟩ := terminal_passed accepted.runs quiet known here selects
  rw [← accepted.analysed.terminals] at passed
  refine ⟨gate, passed, fun source member => ?_⟩
  rcases settled source member with rfl | complete
  · exact .inl here
  · exact .inr complete

/-- When every terminal gate is one node, a run that ends does so with the node active. -/
theorem Accepted.terminal_active (run : ControlRun graph state)
    (quiet : Quiet (edgeRelation nodeIds entries edges routeOptions plan.joins) (stateMarking state)
      (stateChoice state)) (nonempty : state.frontier.nodes ≠ []) {source : GraphNodeId}
    (only : ∀ gate ∈ plan.terminalGates, gate = [source]) : (stateMarking state).active source := by
  obtain ⟨gate, passed, settled⟩ := accepted.ending_gate run quiet nonempty
  have member : source ∈ gate := by
    rw [only gate passed]
    exact List.mem_singleton.mpr rfl
  rcases settled source member with here | ⟨join, listed, -, complete⟩
  · exact here
  · -- a complete Join activates its target, or has a terminal gate of several nodes
    exfalso
    obtain ⟨sources, edge, same⟩ := accepted.runs.join_edge listed
    obtain ⟨several, distinct, -, -⟩ := accepted.runs.valid.known _ edge
    by_cases ends : join.identity.target = END
    · have terminal : sortedSet ((Edge.join sources join.identity.target).gate.map Prod.fst) ∈
          plan.terminalGates := by
        rw [accepted.analysed.terminals]
        exact mem_terminalGates.mpr (.inl (mem_collectGatesToEnd.mpr ⟨_, edge, ends, rfl⟩))
      have every : ∀ other ∈ sources, other = source := by
        intro other otherInside
        have listed := mem_edge_gate.mpr (show other ∈ (Edge.join sources
          join.identity.target).sources from otherInside)
        rw [only _ terminal] at listed
        exact List.mem_singleton.mp listed
      have short := List.nodup_iff_count_le_one.mp distinct source
      rw [List.count_eq_length.mpr (fun other otherInside => (every other otherInside).symm)] at short
      omega
    · exact quiet.inactive join.identity.target
        (accepted.runs.mem_nodes.mpr ((accepted.runs.valid.target_known edge).resolve_left ends))
        (.joined join) (accepted.runs.mem_successorCauses.mpr
          ⟨ends, .inr (.inr ⟨join, listed, rfl, rfl⟩)⟩) complete

/-- The terminal guarantees of a run that ends have been active. -/
theorem Accepted.terminal_guaranteed (run : ControlRun graph state)
    (quiet : Quiet (edgeRelation nodeIds entries edges routeOptions plan.joins) (stateMarking state)
      (stateChoice state)) (nonempty : state.frontier.nodes ≠ [])
    {active : Nat → GraphNodeId → Prop} {choice : Nat → GraphNodeId → Route}
    (recorded : Recorded (edgeRelation nodeIds entries edges routeOptions plan.joins) state active
      choice) {source : GraphNodeId} (guaranteed : source ∈ plan.terminalGuarantees) :
    ∃ earlier ≤ state.superstep, active earlier source := by
  obtain ⟨gate, passed, settled⟩ := accepted.ending_gate run quiet nonempty
  have visited : ∀ other ∈ gate, ∃ earlier ≤ state.superstep, active earlier other := by
    intro other member
    rcases settled other member with here | ⟨join, listed, joined, complete⟩
    · exact ⟨state.superstep, le_rfl, (recorded.current _).mpr here⟩
    · have arrives := complete other joined
      rw [recorded.agree.arrives accepted.runs.wellFormed (accepted.runs.mem_joins.mpr listed) joined
        le_rfl (FrontierRelation.maximum_positive joined)] at arrives
      obtain ⟨earlier, before, there, -⟩ := historyMarking_arrives.mp arrives
      exact ⟨earlier, before, there⟩
  have common := accepted.analysed.completed
  simp only [terminalGuarantees, bind_unit_eq_ok, pure_eq_ok, Except.ok.injEq] at common
  rw [← common.2] at guaranteed
  have shared := (mem_common.mp guaranteed).2 _ (List.mem_map.mpr ⟨gate, passed, rfl⟩)
  rw [mem_sortedSet, List.mem_flatMap] at shared
  obtain ⟨other, member, inner⟩ := shared
  obtain ⟨middle, before, there⟩ := visited other member
  obtain ⟨earlier, early, settledBefore, -⟩ :=
    guaranteed_before accepted.runs accepted.analysed.guaranteed recorded.trail there inner
  exact ⟨earlier, early.trans before, settledBefore⟩

/-- Every output of a run that ends is available. -/
theorem Accepted.output_ready (run : ControlRun graph state)
    (resolves : ResolvesTo graph state control) (ends : control.activations = [])
    (nonempty : state.frontier.nodes ≠ []) {scopeRun : ScopeRunCoordinate}
    {frames : ScopedFrameAvailability}
    (held : HoldsValues graph state scopeRun frames (state.superstep + 1))
    {binding : GraphOutputBinding τ} (plans : PlansOutput plan binding) :
    unavailableGraphOutput graph scopeRun state.superstep frames binding = .ok none := by
  obtain ⟨active, choice, recorded⟩ := run.recorded accepted.runs.wellFormed accepted.runs.carries
  have quiet := accepted.quiet_marking run resolves ends
  unfold unavailableGraphOutput sourceAvailabilityCoordinate
  cases reads : binding.source with
  | graphInput port =>
      simp only [pure_eq_ok, ok_bind, frameCoordinateAvailable, held.graphInput, if_true]
  | nodeOutput port =>
      obtain ⟨guaranteed, selection, selects, selected⟩ := plans port reads
      have located : ∃ earlier ≤ state.superstep, selection.resolve state.superstep = .ok earlier ∧
          active earlier port.nodeId := by
        rcases outputPublicationSelection_cases selected with ⟨level, leveled, rfl⟩ | ⟨only, rfl⟩
        · obtain ⟨earlier, before, there⟩ :=
            accepted.terminal_guaranteed run quiet nonempty recorded guaranteed
          obtain rfl := accepted.active_absolute recorded.trail leveled there
          exact ⟨earlier, before, rfl, there⟩
        · exact ⟨state.superstep, le_rfl, PublicationSelection.resolve_relative (Nat.zero_le _),
            (recorded.current _).mpr (accepted.terminal_active run quiet nonempty only)⟩
      obtain ⟨earlier, before, resolved, there⟩ := located
      have settled := (recorded.ledger _).mpr ⟨earlier, port.nodeId, there, rfl⟩
      obtain ⟨coordinate, computed, present⟩ :=
        held.published settled (Nat.lt_succ_of_le before) held.run
      have found : publicationAvailabilityCoordinate graph scopeRun
          ⟨scopeRun.graphRunId, earlier, port.nodeId⟩ = .ok coordinate := by
        rw [← held.run]
        exact computed
      simp only [selects, orRaise, ok_bind, resolved, found, pure_eq_ok, frameCoordinateAvailable,
        present, if_true]

end Outputs

/-! ## Accepted definitions -/

section Resolved

variable {graph : CompiledGraph τ} {nodeIds entries : List GraphNodeId} {edges : List Edge}
  {routeOptions : Dict GraphNodeId (List Route)} {dataDependencies : DataDependencies}
  {requirements : Dict GraphNodeId RouteRequirementProof}
  {guarantees : Dict GraphNodeId (List GraphNodeId)} {plan : ControlPlan}
  (accepted : Accepted graph nodeIds entries edges routeOptions dataDependencies requirements
    guarantees plan) (values : PlansValues graph nodeIds entries edges dataDependencies plan)
  {state : GraphRunState} {control : RoutingFacts} (run : ControlRun graph state)
  (resolves : ResolvesTo graph state control) {scopeRun : ScopeRunCoordinate}
  {frames : ScopedFrameAvailability}
  (held : HoldsValues graph state scopeRun frames (state.superstep + 1))
include accepted values run resolves held

/-- An activation that control resolved misses no input. -/
theorem Accepted.required_target {activation : GraphFrontierActivation}
    (opens : activation ∈ control.activations) :
    requiredTarget graph activation state scopeRun (state.superstep + 1) frames =
      .ok ⟨activation.nodeId, []⟩ := by
  have ready := accepted.routed_ready values run resolves opens rfl (List.Subset.refl _) held
  have each : ∀ binding ∈ graph.bindings activation.nodeId, unavailableInput graph activation
      state scopeRun (state.superstep + 1) frames binding = .ok none := by
    intro binding member
    obtain ⟨resolved, located, present⟩ := ready binding member
    simp only [unavailableInput, located, ok_bind, present, if_true, pure_eq_ok]
  simp only [requiredTarget, mapM_const each, ok_bind, pure_eq_ok, Except.ok.injEq]
  congr 1
  simp

/-- The outputs of the graph resolve, and when nothing is activated none is missing. -/
theorem Accepted.graph_outputs (nonempty : state.frontier.nodes ≠ []) :
    ∃ unavailable, unavailableGraphOutputs graph scopeRun state.superstep frames =
      .ok unavailable ∧ (control.activations = [] → unavailable = []) := by
  have each : ∀ binding ∈ graph.transition.graphOutputs, ∃ label, unavailableGraphOutput graph
      scopeRun state.superstep frames binding = .ok label :=
    fun binding member => unavailableGraphOutput_exists (values.outputs binding member) _ _ _
  obtain ⟨labels, found⟩ := mapM_eq_ok_of_forall each
  refine ⟨labels.filterMap id, by rw [unavailableGraphOutputs, found]; rfl, ?_⟩
  intro ends
  have ready : ∀ binding ∈ graph.transition.graphOutputs, unavailableGraphOutput graph
      scopeRun state.superstep frames binding = .ok none :=
    fun binding member => accepted.output_ready run resolves ends nonempty held
      (values.outputs binding member)
  rw [mapM_const ready] at found
  rw [← Except.ok.inj found]
  simp

end Resolved

/-- No value is ever missing in a run of an accepted definition. Let the frames hold the graph input
and the publications of the ledger. On every open frontier each node finds its inputs, and a pending
node passes the preflight, unless it was resumed and reads its predecessor: an override of such a
node is refused. On every settled frontier each activation of the resolved control has its
inputs, and when nothing is activated the graph has its outputs. -/
theorem values_available [DecidableEq τ] {definition : GraphDefinition τ}
    {nestedGraphs : Dict GraphNodeId (CompiledGraph τ)}
    (compiles : Compiles definition nestedGraphs graph) {state : GraphRunState}
    {scopeRun : ScopeRunCoordinate} {frames : NodeInputAvailability} :
    (Opened graph state →
      HoldsValues graph state scopeRun frames.toScopedFrameAvailability state.superstep →
      ∀ nodeId node, frontierNode state.frontier nodeId = some node →
        nodeInputsAvailable graph scopeRun state.superstep frames.toScopedFrameAvailability nodeId
          (some state) = .ok true ∧
        (node.settlement = .pending .useStepRequestInput →
          pendingNodeInputAvailable graph state scopeRun frames nodeId = .ok true) ∧
        (∀ payload, node.settlement = .pending (.overrideGraphNodeInput payload) →
          ∃ materialization, requireNodeMaterialization graph nodeId = .ok materialization ∧
            pendingNodeInputAvailable graph state scopeRun frames nodeId =
              if materialization.hasPredecessor then .error ⟨.snapshotMismatch,
                "predecessor-bound activation cannot use an input override"⟩ else .ok true)) ∧
    (ControlRun graph state → state.frontier.nodes ≠ [] →
      HoldsValues graph state scopeRun frames.toScopedFrameAvailability (state.superstep + 1) →
      ∀ control, ResolvesTo graph state control →
        (∀ activation ∈ control.activations, requiredTarget graph activation state scopeRun
          (state.superstep + 1) frames.toScopedFrameAvailability = .ok ⟨activation.nodeId, []⟩) ∧
        ∃ unavailable, unavailableGraphOutputs graph scopeRun state.superstep
            frames.toScopedFrameAvailability = .ok unavailable ∧
          (control.activations = [] → unavailable = [])) := by
  obtain ⟨entries, routes, dataDependencies, plan, planned, values⟩ := compiles.planned_values
  obtain ⟨requirements, guarantees, accepted⟩ := compiles.accepted_plan planned
  constructor
  · intro opened held nodeId node current
    have available := accepted.inputs_available values opened held current
    obtain ⟨materialization, required⟩ : ∃ materialization,
        requireNodeMaterialization graph nodeId = .ok materialization := by
      simp only [nodeInputsAvailable, bind_eq_ok] at available
      obtain ⟨materialization, required, -⟩ := available
      exact ⟨materialization, required⟩
    refine ⟨available, ?_, ?_⟩
    · intro pending
      have found : pendingInput state nodeId = some (node, .useStepRequestInput) := by
        rw [pendingInput, current, Option.bind_some, pending]
      simp only [pendingNodeInputAvailable, found, orRaise, ok_bind, required,
        stableActivation_eq held.run]
      by_cases cached : materialization.hasPredecessor = false ∧ frames.hasResumeInput
          (resumeInputCoordinate ⟨scopeRun, state.superstep, nodeId⟩ materialization) = true
      · rw [if_pos cached]
        rfl
      · rw [if_neg cached]
        exact available
    · intro payload pending
      have found : pendingInput state nodeId = some (node, .overrideGraphNodeInput payload) := by
        rw [pendingInput, current, Option.bind_some, pending]
      refine ⟨materialization, required, ?_⟩
      simp only [pendingNodeInputAvailable, found, orRaise, ok_bind, required, raiseIf]
      cases materialization.hasPredecessor <;> rfl
  · intro run nonempty held control resolves
    exact ⟨fun activation opens => accepted.required_target values run resolves held opens,
      accepted.graph_outputs values run resolves held nonempty⟩

/-- A consumer of its predecessor's value, by name and as that of its predecessor. -/
def valueDefinition : GraphDefinition Unit where
  definitionId := "values"
  version := 1
  nodes := [.callable ⟨"a", [⟨"seed", .graphInput "seed" ⟨0, ()⟩⟩], [⟨"out", ⟨1, ()⟩⟩], [], []⟩,
    .callable ⟨"b", [⟨"in", .nodeOutput "a" "out" none⟩, ⟨"last", .predecessor "out" none⟩],
      [⟨"out", ⟨1, ()⟩⟩], [], []⟩]
  edges := [.direct "a" "b"]
  entries := ["a"]
  outputs := [⟨"result", .nodeOutput "b" "out" none⟩]

theorem valueDefinition_compiles :
    Compiles valueDefinition Dict.empty (compiledGraph valueDefinition) :=
  compiles_compiledGraph (by decide) (by simp [valueDefinition]) (by decide +kernel)

/-- The producer has settled. -/
def valueFirst : GraphRunState where
  runId := "run"
  definitionId := "values"
  definitionVersion := 1
  status := .running
  superstep := 0
  frontier := ⟨[⟨"a", .succeeded .continueGraphRouting, .start⟩]⟩
  executionSequence := 1
  settledPublications := [⟨activationReference "run" 0 "a" none, 2, ⟨1, "attempt"⟩, none⟩]
  revision := 2

/-- The consumer is pending. -/
def valueSecond : GraphRunState where
  runId := "run"
  definitionId := "values"
  definitionVersion := 1
  status := .running
  superstep := 1
  frontier := ⟨[⟨"b", .pending .useStepRequestInput,
    .routed ⟨[activationReference "run" 0 "a" none], none⟩⟩]⟩
  executionSequence := 1
  settledPublications := [⟨activationReference "run" 0 "a" none, 2, ⟨1, "attempt"⟩, none⟩]
  revision := 3

/-- What the producer's frontier resolves to. -/
def valueControl : RoutingFacts where
  activations := [⟨"b", .routed ⟨[activationReference "run" 0 "a" none], none⟩⟩]

theorem valueFirst_run : ControlRun (compiledGraph valueDefinition) valueFirst := by
  apply ControlRun.start
  · exact ⟨rfl, by decide +kernel, rfl, fun reference => Iff.rfl⟩
  · intro node member
    obtain rfl := List.mem_singleton.mp member
    exact ⟨.continueGraphRouting, rfl, by decide +kernel⟩

theorem valueFirst_resolves : ResolvesTo (compiledGraph valueDefinition) valueFirst valueControl :=
  ⟨Dict.empty, Dict.empty, by decide +kernel, by decide +kernel, by decide +kernel⟩

theorem valueSecond_opened : Opened (compiledGraph valueDefinition) valueSecond := by
  refine .advance valueFirst_run valueFirst_resolves ⟨rfl, rfl, rfl, rfl, ?_⟩
  intro reference
  simp [valueFirst, valueSecond, GraphRunState.settledReferences, frontierPublications,
    routingContributions]

/-- The producer is pending, with an input that a resume has replaced. -/
def valueReplaced : GraphRunState where
  runId := "run"
  definitionId := "values"
  definitionVersion := 1
  status := .running
  superstep := 0
  frontier := ⟨[⟨"a", .pending (.overrideGraphNodeInput [7]), .start⟩]⟩
  revision := 2

theorem valueReplaced_opened : Opened (compiledGraph valueDefinition) valueReplaced :=
  .start ⟨rfl, by decide +kernel, rfl, fun reference => Iff.rfl⟩

/-- The frontier of the consumer after a resume, which has replaced its input. -/
def valueResumed : GraphRunState :=
  { valueSecond with frontier := ⟨[⟨"b", .pending (.overrideGraphNodeInput [7]),
      .routed ⟨[activationReference "run" 0 "a" none], none⟩⟩]⟩ }

theorem valueResumed_opened : Opened (compiledGraph valueDefinition) valueResumed := by
  refine .advance valueFirst_run valueFirst_resolves ⟨rfl, rfl, rfl, rfl, ?_⟩
  intro reference
  simp [valueFirst, valueResumed, valueSecond, GraphRunState.settledReferences,
    frontierPublications, routingContributions]

/-- The graph input and what the producer published. -/
def valueFrames : NodeInputAvailability where
  hasGraphInput _ := true
  hasPublication coordinate := coordinate.activation.nodeId = "a"
  hasResumeInput _ := false

theorem valueFrames_hold {state : GraphRunState} (run : state.runId = "run")
    (ledger : state.settledReferences ⊆ [activationReference "run" 0 "a" none]) (bound : Nat) :
    HoldsValues (compiledGraph valueDefinition) state ⟨[], "run"⟩
      valueFrames.toScopedFrameAvailability bound := by
  refine ⟨run, rfl, ?_⟩
  intro reference member before coordinate computed
  obtain rfl := List.mem_singleton.mp (ledger member)
  rw [show (activationReference "run" 0 "a" none).activation = ⟨"run", 0, "a"⟩ from rfl,
    publicationAvailabilityCoordinate_eq _ ⟨[], "run"⟩] at computed
  obtain rfl := Except.ok.inj computed
  rfl

/-- With the producer's publication alone the consumer passes the preflight, before and after it is
activated. A replaced input is accepted for the producer and refused for the consumer. -/
theorem valueSecond_available :
    pendingNodeInputAvailable (compiledGraph valueDefinition) valueSecond ⟨[], "run"⟩ valueFrames
        "b" = .ok true ∧
      pendingNodeInputAvailable (compiledGraph valueDefinition) valueReplaced ⟨[], "run"⟩ valueFrames
        "a" = .ok true ∧
      pendingNodeInputAvailable (compiledGraph valueDefinition) valueResumed ⟨[], "run"⟩ valueFrames
        "b" = .error ⟨.snapshotMismatch,
          "predecessor-bound activation cannot use an input override"⟩ ∧
      requiredTarget (compiledGraph valueDefinition)
        ⟨"b", .routed ⟨[activationReference "run" 0 "a" none], none⟩⟩ valueFirst ⟨[], "run"⟩ 1
        valueFrames.toScopedFrameAvailability = .ok ⟨"b", []⟩ := by
  have reads : ∀ nodeId ∈ ["a", "b"], (requireNodeMaterialization (compiledGraph valueDefinition)
      nodeId).map MaterializationPlan.hasPredecessor = .ok (nodeId = "b") := by decide +kernel
  refine ⟨?_, ?_, ?_, ?_⟩
  · exact ((values_available valueDefinition_compiles).1 valueSecond_opened
      (valueFrames_hold rfl (List.Subset.refl _) _) "b" _ rfl).2.1 rfl
  · obtain ⟨materialization, required, accepted⟩ :=
      ((values_available valueDefinition_compiles).1 valueReplaced_opened
        (valueFrames_hold rfl (List.nil_subset _) _) "a" _ rfl).2.2 [7] rfl
    have plain := reads "a" (by simp)
    rw [required] at plain
    rw [accepted, Except.ok.inj plain]
    rfl
  · obtain ⟨materialization, required, refused⟩ :=
      ((values_available valueDefinition_compiles).1 valueResumed_opened
        (valueFrames_hold rfl (List.Subset.refl _) _) "b" _ rfl).2.2 [7] rfl
    have bound := reads "b" (by simp)
    rw [required] at bound
    rw [refused, Except.ok.inj bound]
    rfl
  · exact ((values_available valueDefinition_compiles).2 valueFirst_run (by simp [valueFirst])
      (valueFrames_hold rfl (List.Subset.refl _) _) _ valueFirst_resolves).1 _
      (List.mem_singleton.mpr rfl)

/-! ## A fork whose Configs differ -/

end MoteKernel
