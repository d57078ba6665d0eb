import MoteKernel.Execution.Routing
import MoteKernel.State.Steps

/-!
# What control resolution computes

`_resolve_control` in closed form: the targets and Join arrivals of the settled
frontier, the outcome of every Join occurrence, and the conditions under which no
loop raises. Later proofs use these and never open the loops again.
-/

namespace MoteKernel
open Checked Canonical

variable {τ : Type}

/-! ## Join occurrences -/

namespace CompiledJoin

/-- The offset of one source, zero for a node that is not a source. -/
def offset (join : CompiledJoin) (source : GraphNodeId) : Nat :=
  ((join.sourceTargetOffsets.find? (fun pair => pair.1 = source)).map Prod.snd).getD 0

/-- The occurrence an activation of a source belongs to. -/
def occurrenceAt (join : CompiledJoin) (activation : GraphActivationIdentity) :
    GraphJoinOccurrenceIdentity :=
  ⟨join.identity, activation.runId, activation.superstep + join.offset activation.nodeId⟩

@[simp] theorem occurrenceAt_join (join : CompiledJoin) (activation : GraphActivationIdentity) :
    (join.occurrenceAt activation).join = join.identity := rfl

theorem offset_positive (join : CompiledJoin) {source : GraphNodeId}
    (member : source ∈ join.identity.sources) : 1 ≤ join.offset source := by
  rw [← join.covers, List.mem_map] at member
  obtain ⟨pair, inside, same⟩ := member
  unfold offset
  cases found : join.sourceTargetOffsets.find? (fun pair => pair.1 = source) with
  | none => exact absurd (List.find?_eq_none.mp found pair inside) (by simp [same])
  | some other => exact join.positive other (List.mem_of_find?_eq_some found)

theorem occurrenceFor_eq_ok (join : CompiledJoin) (activation : GraphActivationIdentity)
    (occurrence : GraphJoinOccurrenceIdentity) :
    join.occurrenceFor activation = .ok occurrence ↔
      activation.nodeId ∈ join.identity.sources ∧ occurrence = join.occurrenceAt activation := by
  simp only [occurrenceFor, targetOffset, bind_eq_ok, orRaise_eq_ok, pure_eq_ok, Except.ok.injEq]
  rw [← join.covers]
  cases found : join.sourceTargetOffsets.find? (fun pair => pair.1 = activation.nodeId) with
  | none =>
      have absent := List.find?_eq_none.mp found
      simp only [Option.map_none, reduceCtorEq, false_and, exists_false, false_iff, not_and]
      intro member
      obtain ⟨pair, inside, same⟩ := List.mem_map.mp member
      exact absurd (absent pair inside) (by simp [same])
  | some pair =>
      have inside := List.mem_of_find?_eq_some found
      have same : pair.1 = activation.nodeId := by simpa using List.find?_some found
      simp only [Option.map_some, Option.some.injEq, exists_eq_left', occurrenceAt, offset, found,
        Option.getD_some]
      constructor
      · rintro rfl
        exact ⟨List.mem_map.mpr ⟨pair, inside, same⟩, rfl⟩
      · rintro ⟨-, rfl⟩
        rfl

end CompiledJoin

/-! ## The gathered contributions -/

/-- The targets one settled reference leads to. -/
def successorTargets (graph : CompiledGraph τ) (reference : ActivationReference) :
    List GraphNodeId :=
  graph.directTargets reference.activation.nodeId ++
    selectedTarget (graph.conditionalTargets reference.activation.nodeId) reference.route

/-- The causes the settled references contribute to their targets. -/
def directCauses (graph : CompiledGraph τ) (references : List ActivationReference) :
    List (GraphNodeId × RoutedActivationCause) :=
  references.flatMap (fun reference =>
    (successorTargets graph reference).map (fun target => (target, ⟨[reference], none⟩)))

/-- The arrivals of the settled references at the Joins listed for their nodes. -/
def joinArrivals (graph : CompiledGraph τ) (references : List ActivationReference) :
    List (GraphJoinOccurrenceIdentity × ActivationReference) :=
  references.flatMap (fun reference =>
    (graph.joinsBySource reference.activation.nodeId).map (fun plan =>
      (plan.occurrenceAt reference.activation, reference)))

/-- Two arrivals of one source. -/
def SameSource (a b : ActivationReference) : Prop := a.activation.nodeId = b.activation.nodeId

/-- The route of a settled reference agrees with the conditional targets of its node. -/
def Routable (graph : CompiledGraph τ) (reference : ActivationReference) : Prop :=
  (graph.conditionalTargets reference.activation.nodeId).items ≠ [] →
    ∃ route ∈ reference.route,
      route ∈ (graph.conditionalTargets reference.activation.nodeId).keys

/-- Every Join listed for a node has it as a source. -/
def Indexed (graph : CompiledGraph τ) (nodeId : GraphNodeId) : Prop :=
  ∀ plan ∈ graph.joinsBySource nodeId, nodeId ∈ plan.identity.sources

theorem successorTargetsForReference_eq_ok (graph : CompiledGraph τ)
    (reference : ActivationReference) (targets : List GraphNodeId) :
    successorTargetsForReference graph reference = .ok targets ↔
      Routable graph reference ∧ targets = successorTargets graph reference := by
  simp only [successorTargetsForReference, bind_unit_eq_ok, raiseIf_eq_ok, pure_eq_ok,
    Except.ok.injEq, ← and_assoc, eq_comm (a := targets)]
  refine and_congr ?_ Iff.rfl
  unfold Routable
  cases reference.route <;> simp

theorem referenceCandidates_eq_ok (graph : CompiledGraph τ) (reference : ActivationReference)
    (candidates : List (GraphNodeId × RoutedActivationCause)) :
    referenceCandidates graph reference = .ok candidates ↔
      Routable graph reference ∧ candidates = directCauses graph [reference] := by
  simp only [referenceCandidates, bind_eq_ok, successorTargetsForReference_eq_ok, pure_eq_ok,
    Except.ok.injEq]
  constructor
  · rintro ⟨targets, ⟨routable, rfl⟩, rfl⟩
    exact ⟨routable, by simp [directCauses]⟩
  · rintro ⟨routable, rfl⟩
    exact ⟨_, ⟨routable, rfl⟩, by simp [directCauses]⟩

theorem contributeArrival_eq_ok (reference : ActivationReference) (arrivals updated : JoinArrivals)
    (plan : CompiledJoin) :
    contributeArrival reference arrivals plan = .ok updated ↔
      reference.activation.nodeId ∈ plan.identity.sources ∧
      (∀ item ∈ (arrivals.get? (plan.occurrenceAt reference.activation)).getD [],
        ¬ SameSource item reference) ∧
      updated = arrivals.push (plan.occurrenceAt reference.activation) reference := by
  simp only [contributeArrival, bind_eq_ok, exists_unit, CompiledJoin.occurrenceFor_eq_ok,
    raiseIf_eq_ok, pure_eq_ok, Except.ok.injEq, not_exists, not_and]
  constructor
  · rintro ⟨_, ⟨source, rfl⟩, apart, rfl⟩
    exact ⟨source, apart, rfl⟩
  · rintro ⟨source, apart, rfl⟩
    exact ⟨_, ⟨source, rfl⟩, apart, rfl⟩

/-- A settled node that control resolution accepts. -/
structure Contributes (graph : CompiledGraph τ) (state : GraphRunState)
    (settled : GraphNodeId × GraphRoutingContribution) : Prop where
  route : validateRoutingContribution graph settled.1 settled.2 = .ok ()
  routable : Routable graph
    (activationReference state.runId state.superstep settled.1 settled.2.route)
  indexed : Indexed graph settled.1

/-- The first loop of `_resolve_control` over part of the frontier. -/
theorem contributions_eq_ok (graph : CompiledGraph τ) (state : GraphRunState)
    (settled : List (GraphNodeId × GraphRoutingContribution))
    (gathered result : ControlContributions) :
    settled.foldlM (contribute graph state) gathered = .ok result ↔
      (∀ item ∈ settled, Contributes graph state item) ∧
      Dict.Fresh SameSource gathered.arrivals (joinArrivals graph (settled.map (fun item =>
        activationReference state.runId state.superstep item.1 item.2.route))) ∧
      result = ⟨gathered.candidates ++ directCauses graph (settled.map (fun item =>
          activationReference state.runId state.superstep item.1 item.2.route)),
        gathered.arrivals.pushAll (joinArrivals graph (settled.map (fun item =>
          activationReference state.runId state.superstep item.1 item.2.route)))⟩ := by
  induction settled generalizing gathered with
  | nil => simp [joinArrivals, directCauses, Dict.Fresh, Dict.pushAll, eq_comm]
  | cons item rest ih =>
      have pairs : ∀ (reference : ActivationReference) (d e : JoinArrivals)
          (plans : List CompiledJoin), plans.foldlM (contributeArrival reference) d = .ok e ↔
            (∀ plan ∈ plans, reference.activation.nodeId ∈ plan.identity.sources) ∧
            Dict.Fresh SameSource d (plans.map (fun plan =>
              (plan.occurrenceAt reference.activation, reference))) ∧
            e = d.pushAll (plans.map (fun plan =>
              (plan.occurrenceAt reference.activation, reference))) :=
        fun reference d e plans => Dict.foldlM_push_eq_ok
          (fun d plan e => contributeArrival_eq_ok reference d e plan) d e plans
      simp only [List.foldlM_cons, contribute, bind_eq_ok, exists_unit, referenceCandidates_eq_ok,
        pairs, pure_eq_ok, Except.ok.injEq, ih, List.map_cons, List.forall_mem_cons]
      simp only [joinArrivals, directCauses, List.flatMap_cons, Dict.fresh_append,
        Dict.pushAll_append, List.flatMap_nil, List.append_nil]
      constructor
      · rintro ⟨_, ⟨route, _, ⟨routable, rfl⟩, _, ⟨indexed, fresh, rfl⟩, rfl⟩, all, freshRest, rfl⟩
        exact ⟨⟨⟨route, routable, indexed⟩, all⟩, ⟨fresh, freshRest⟩, by
          rw [List.append_assoc]; rfl⟩
      · rintro ⟨⟨first, all⟩, ⟨fresh, freshRest⟩, rfl⟩
        exact ⟨_, ⟨first.route, _, ⟨first.routable, rfl⟩, _, ⟨first.indexed, fresh, rfl⟩, rfl⟩,
          all, freshRest, by rw [List.append_assoc]; rfl⟩

/-! ## The outcomes of the occurrences -/

/-- The second loop of `_resolve_control` on one occurrence that reaches its target in time. -/
def occurrenceOutcome (state : GraphRunState) (arrivals : JoinArrivals)
    (occurrence : GraphJoinOccurrenceIdentity) : JoinOutcome :=
  let arrived := sorted (arrivals.getItem occurrence)
  let sources := sourceIds arrived
  if sources ⊆ occurrence.join.sources ∧ occurrence.join.sources ⊆ sources then
    if occurrence.join.target ≠ END then
      .activates occurrence.join.target ⟨arrived, some occurrence⟩
    else if occurrence ∈ state.joinProgress.map (·.occurrence) then .consumes occurrence
    else .ends
  else .remains ⟨occurrence, arrived⟩

/-- A complete occurrence has its target next, a partial one has it later. -/
structure Timely (state : GraphRunState) (arrivals : JoinArrivals)
    (occurrence : GraphJoinOccurrenceIdentity) : Prop where
  complete : SameSources (arrivals.getItem occurrence) occurrence.join.sources →
    occurrence.targetSuperstep = state.superstep + 1
  partially : ¬ SameSources (arrivals.getItem occurrence) occurrence.join.sources →
    state.superstep + 1 < occurrence.targetSuperstep

theorem sameSources_sorted {references : List ActivationReference} {sources : List GraphNodeId} :
    (sourceIds (sorted references) ⊆ sources ∧ sources ⊆ sourceIds (sorted references)) ↔
      SameSources references sources := by
  have same : ∀ source, source ∈ sourceIds (sorted references) ↔ source ∈ sourceIds references := by
    intro source
    simp [sourceIds]
  rw [sameSources_iff, SameSources, SameSources]
  simp only [same]

theorem resolveOccurrence_eq_ok (state : GraphRunState) (arrivals : JoinArrivals)
    (occurrence : GraphJoinOccurrenceIdentity) (result : JoinOutcome) :
    resolveOccurrence state arrivals occurrence = .ok result ↔
      Timely state arrivals occurrence ∧ result = occurrenceOutcome state arrivals occurrence := by
  simp only [resolveOccurrence, occurrenceOutcome]
  by_cases complete : SameSources (arrivals.getItem occurrence) occurrence.join.sources
  · have whole := sameSources_sorted.mpr complete
    simp only [if_pos whole, bind_unit_eq_ok, raiseIf_eq_ok, ne_eq, not_not, pure_eq_ok,
      Except.ok.injEq, eq_comm (a := result)]
    refine and_congr ?_ Iff.rfl
    exact ⟨fun target => ⟨fun _ => target, fun partially => absurd complete partially⟩,
      fun timely => timely.complete complete⟩
  · have missing := mt sameSources_sorted.mp complete
    simp only [if_neg missing, bind_unit_eq_ok, raiseIf_eq_ok, not_le, pure_eq_ok,
      Except.ok.injEq, eq_comm (a := result)]
    refine and_congr ?_ Iff.rfl
    exact ⟨fun target => ⟨fun whole => absurd whole complete, fun _ => target⟩,
      fun timely => timely.partially complete⟩

/-! ## The whole resolution -/

/-- The arrivals after the current successes joined the pending ones. -/
def gatheredArrivals (graph : CompiledGraph τ) (state : GraphRunState) (pending : JoinArrivals) :
    JoinArrivals :=
  pending.pushAll (joinArrivals graph (currentSuccessfulReferences state))

/-- The outcomes of all occurrences, in occurrence order. -/
def controlOutcomes (graph : CompiledGraph τ) (state : GraphRunState) (pending : JoinArrivals) :
    List JoinOutcome :=
  (sorted (gatheredArrivals graph state pending).keys).map
    (occurrenceOutcome state (gatheredArrivals graph state pending))

/-- The causes of the next frontier, with their targets. -/
def nextCauses (graph : CompiledGraph τ) (state : GraphRunState) (pending : JoinArrivals) :
    List (GraphNodeId × RoutedActivationCause) :=
  directCauses graph (currentSuccessfulReferences state) ++
    (controlOutcomes graph state pending).filterMap JoinOutcome.candidate

/-- The activations of the next frontier, in node order. -/
def nextActivations (causes : List (GraphNodeId × RoutedActivationCause)) :
    List GraphFrontierActivation :=
  (causes.map (fun cause => ⟨cause.1, .routed cause.2⟩)).insertionSort
    (fun a b : GraphFrontierActivation => a.nodeId ≤ b.nodeId)

/-- The conditions under which `_resolve_control` raises nothing. -/
structure Resolvable (graph : CompiledGraph τ) (state : GraphRunState) (pending : JoinArrivals) :
    Prop where
  contributes : ∀ settled ∈ routingContributions state.frontier, Contributes graph state settled
  fresh : Dict.Fresh SameSource pending (joinArrivals graph (currentSuccessfulReferences state))
  timely : ∀ occurrence ∈ (gatheredArrivals graph state pending).keys,
    Timely state (gatheredArrivals graph state pending) occurrence
  once : ((nextCauses graph state pending).map Prod.fst).Nodup

/-- Every target has one cause exactly when no target is named twice. -/
theorem uniqueActivations_eq_ok (causes : List (GraphNodeId × RoutedActivationCause))
    (activations : List GraphFrontierActivation) :
    ((Dict.empty : Dict GraphNodeId (List RoutedActivationCause)).pushAll causes).items.mapM
        uniqueActivation = .ok activations ↔
      (causes.map Prod.fst).Nodup ∧
      activations = causes.map (fun cause => ⟨cause.1, .routed cause.2⟩) := by
  have spec : ∀ item activation, uniqueActivation item = .ok activation ↔
      item.2.length = 1 ∧ activation = ⟨item.1, .routed (item.2.headD ⟨[], none⟩)⟩ := by
    rintro ⟨target, causes⟩ activation
    match causes with
    | [] => simp [uniqueActivation]
    | [cause] => simp [uniqueActivation, eq_comm]
    | _ :: _ :: _ => simp [uniqueActivation]
  rw [mapM_eq_ok_map spec]
  have lengths : (∀ item ∈ ((Dict.empty : Dict GraphNodeId (List RoutedActivationCause)).pushAll
      causes).items, item.2.length = 1) ↔ (causes.map Prod.fst).Nodup := by
    have counted : ∀ target, (Dict.valuesAt causes target).length =
        (causes.map Prod.fst).count target := by
      intro target
      rw [Dict.valuesAt, List.length_map, List.count, List.countP_map, List.countP_eq_length_filter]
      congr 1
    rw [List.nodup_iff_count_eq_one]
    constructor
    · intro single target member
      rw [← counted]
      exact single (target, Dict.valuesAt causes target)
        ((Dict.mem_items_pushAll causes target _).mpr ⟨member, rfl⟩)
    · rintro single ⟨target, values⟩ member
      obtain ⟨inside, rfl⟩ := (Dict.mem_items_pushAll causes target values).mp member
      rw [counted]
      exact single target inside
  rw [lengths]
  refine and_congr_right (fun once => ?_)
  have items := Dict.items_pushAll_of_nodup Dict.empty causes (by simpa [Dict.keys, Dict.empty])
  rw [items]
  simp [Dict.empty, Function.comp_def]

theorem resolveControl_eq_ok (graph : CompiledGraph τ) (state : GraphRunState)
    (evaluation control : RoutingFacts) :
    resolveControl graph state evaluation = .ok control ↔
      evaluation.pendingError = none ∧
      Resolvable graph state evaluation.pendingJoinArrivals ∧
      control = { evaluation with
        remainingJoinProgress := (controlOutcomes graph state
          evaluation.pendingJoinArrivals).filterMap JoinOutcome.progress
        activations := nextActivations (nextCauses graph state evaluation.pendingJoinArrivals)
        consumedJoinProgress := sorted ((controlOutcomes graph state
          evaluation.pendingJoinArrivals).filterMap JoinOutcome.consumed) } := by
  unfold resolveControl
  cases evaluation.pendingError with
  | some error => simp
  | none =>
      have outcomes : ∀ (arrivals : JoinArrivals) (results : List JoinOutcome),
          (sorted arrivals.keys).mapM (resolveOccurrence state arrivals) = .ok results ↔
            (∀ occurrence ∈ arrivals.keys, Timely state arrivals occurrence) ∧
            results = (sorted arrivals.keys).map (occurrenceOutcome state arrivals) := by
        intro arrivals results
        rw [mapM_eq_ok_map (resolveOccurrence_eq_ok state arrivals)]
        simp only [mem_sorted]
      have causes : ∀ (gathered : ControlContributions) (results : List JoinOutcome),
          nextCandidates gathered results = (Dict.empty : Dict GraphNodeId
            (List RoutedActivationCause)).pushAll
              (gathered.candidates ++ results.filterMap JoinOutcome.candidate) := by
        intro gathered results
        rw [Dict.pushAll_append]
        rfl
      simp only [bind_eq_ok, contributions_eq_ok, outcomes, causes, uniqueActivations_eq_ok,
        pure_eq_ok, Except.ok.injEq, true_and]
      constructor
      · rintro ⟨_, ⟨contributes, fresh, rfl⟩, _, ⟨timely, rfl⟩, _, ⟨once, rfl⟩, rfl⟩
        exact ⟨⟨contributes, fresh, timely, once⟩, rfl⟩
      · rintro ⟨resolvable, rfl⟩
        exact ⟨_, ⟨resolvable.contributes, resolvable.fresh, rfl⟩, _, ⟨resolvable.timely, rfl⟩, _,
          ⟨resolvable.once, rfl⟩, rfl⟩

theorem mem_joinArrivals {graph : CompiledGraph τ} {references : List ActivationReference}
    {occurrence : GraphJoinOccurrenceIdentity} {reference : ActivationReference} :
    (occurrence, reference) ∈ joinArrivals graph references ↔ reference ∈ references ∧
      ∃ plan ∈ graph.joinsBySource reference.activation.nodeId,
        occurrence = plan.occurrenceAt reference.activation := by
  simp only [joinArrivals, List.mem_flatMap, List.mem_map, Prod.mk.injEq]
  constructor
  · rintro ⟨_, member, plan, listed, rfl, rfl⟩
    exact ⟨member, plan, listed, rfl⟩
  · rintro ⟨member, plan, listed, rfl⟩
    exact ⟨reference, member, plan, listed, rfl, rfl⟩

theorem superstep_of_success {state : GraphRunState} {reference : ActivationReference}
    (success : reference ∈ frontierPublications state) :
    reference.activation.superstep = state.superstep := by
  obtain ⟨node, -, routing, -, rfl⟩ := mem_frontierPublications.mp success
  rfl

/-- The outcome of an occurrence: a record, an activation, or the end. -/
theorem mem_controlOutcomes {graph : CompiledGraph τ} {state : GraphRunState}
    {arrivals : JoinArrivals} {result : JoinOutcome} :
    result ∈ controlOutcomes graph state arrivals ↔
      ∃ occurrence ∈ (gatheredArrivals graph state arrivals).keys,
        result = occurrenceOutcome state (gatheredArrivals graph state arrivals) occurrence := by
  simp only [controlOutcomes, List.mem_map, mem_sorted, eq_comm (a := result)]

theorem getItem_eq_getD (arrivals : JoinArrivals) (occurrence : GraphJoinOccurrenceIdentity) :
    arrivals.getItem occurrence = (arrivals.get? occurrence).getD [] := rfl

theorem mem_nextActivations {causes : List (GraphNodeId × RoutedActivationCause)}
    {activation : GraphFrontierActivation} :
    activation ∈ nextActivations causes ↔
      ∃ cause, activation.cause = .routed cause ∧ (activation.nodeId, cause) ∈ causes := by
  obtain ⟨nodeId, cause⟩ := activation
  rw [nextActivations, (List.perm_insertionSort _ _).mem_iff, List.mem_map]
  constructor
  · rintro ⟨⟨target, routed⟩, member, same⟩
    cases same
    exact ⟨routed, rfl, member⟩
  · rintro ⟨routed, isRouted, member⟩
    simp only at isRouted
    exact ⟨(nodeId, routed), member, by rw [isRouted]⟩

/-! ## Join declarations -/

theorem mem_indexedJoins (graph : CompiledGraph τ) (source : GraphNodeId) (plan : CompiledJoin) :
    (source, plan) ∈ indexedJoins graph ↔ plan ∈ graph.joinsBySource source := by
  simp only [indexedJoins, List.mem_flatMap, List.mem_map, Prod.mk.injEq,
    CompiledGraph.joinsBySource, Dict.getItem]
  cases found : graph.transition.joinsBySource.get? source with
  | none =>
      have absent := (Dict.get?_eq_none _ _).mp found
      simp only [Option.getD_none]
      constructor
      · rintro ⟨item, member, _, -, same, -⟩
        exact absurd (List.mem_map.mpr ⟨item, member, same⟩) absent
      · intro none
        cases none
  | some plans =>
      have stored := (Dict.get?_eq_some _ _ _).mp found
      simp only [Option.getD_some]
      constructor
      · rintro ⟨⟨_, others⟩, member, _, inside, rfl, rfl⟩
        have same := (Dict.get?_eq_some _ _ _).mpr member
        rw [found, Option.some.injEq] at same
        rw [same]
        exact inside
      · intro inside
        exact ⟨(source, plans), stored, plan, inside, rfl, rfl⟩

/-- A compiled Join table that `_declared_joins` accepts. -/
structure Declarable (graph : CompiledGraph τ) : Prop where
  indexed : ∀ source, ∀ plan ∈ graph.joinsBySource source, source ∈ plan.identity.sources
  agree : ∀ source, ∀ plan ∈ graph.joinsBySource source, ∀ other,
    ∀ plan' ∈ graph.joinsBySource other, plan.identity = plan'.identity → plan = plan'
  complete : ∀ source, ∀ plan ∈ graph.joinsBySource source, ∀ other ∈ plan.identity.sources,
    ∃ plan' ∈ graph.joinsBySource other, plan'.identity = plan.identity

theorem declareJoin_eq_ok (declared updated : JoinDeclarations)
    (item : GraphNodeId × CompiledJoin) :
    declareJoin declared item = .ok updated ↔ item.1 ∈ item.2.identity.sources ∧
      (∀ plan, declared.get? item.2.identity = some plan → plan = item.2) ∧
      updated = if item.2.identity ∈ declared.keys then declared
        else declared.set item.2.identity item.2 := by
  simp only [declareJoin, bind_unit_eq_ok, raiseIf_eq_ok, not_not]
  refine and_congr_right (fun _ => ?_)
  cases found : declared.get? item.2.identity with
  | none => simp [(Dict.get?_eq_none _ _).mp found, eq_comm]
  | some plan =>
      have present := (Dict.mem_keys _ _).mpr ⟨plan, found⟩
      simp only [bind_unit_eq_ok, raiseIf_eq_ok, ne_eq, not_not, pure_eq_ok, Except.ok.injEq,
        Option.some.injEq, forall_eq', if_pos present, eq_comm (a := updated)]

/-- The declarations after the indexed Joins of a list: an identity has the plan it had, or the
plan of the list. -/
theorem declareJoins_ok {items : List (GraphNodeId × CompiledJoin)}
    {declared result : JoinDeclarations}
    (ok : items.foldlM declareJoin declared = .ok result) :
    (∀ item ∈ items, item.1 ∈ item.2.identity.sources ∧
      result.get? item.2.identity = some item.2) ∧
    (∀ identity plan, declared.get? identity = some plan → result.get? identity = some plan) ∧
    (∀ identity plan, result.get? identity = some plan → declared.get? identity = some plan ∨
      plan.identity = identity ∧ ∃ item ∈ items, item.2 = plan) := by
  induction items generalizing declared with
  | nil =>
      obtain rfl : declared = result := by simpa using ok
      exact ⟨by simp, fun _ _ h => h, fun _ _ h => .inl h⟩
  | cons item items ih =>
      simp only [List.foldlM_cons, bind_eq_ok, declareJoin_eq_ok] at ok
      obtain ⟨next, ⟨source, same, rfl⟩, rest⟩ := ok
      obtain ⟨later, kept, origin⟩ := ih rest
      by_cases present : item.2.identity ∈ declared.keys
      · rw [if_pos present] at kept origin
        obtain ⟨plan, found⟩ := (Dict.mem_keys _ _).mp present
        obtain rfl := same plan found
        refine ⟨List.forall_mem_cons.mpr ⟨⟨source, kept _ _ found⟩, later⟩, kept, ?_⟩
        intro identity plan stored
        rcases origin identity plan stored with old | ⟨named, other, member, from_⟩
        · exact .inl old
        · exact .inr ⟨named, other, List.mem_cons_of_mem _ member, from_⟩
      · rw [if_neg present] at kept origin
        refine ⟨List.forall_mem_cons.mpr ⟨⟨source, ?_⟩, later⟩, ?_, ?_⟩
        · exact kept _ _ (by simp [Dict.get?_set])
        · intro identity plan found
          have different : identity ≠ item.2.identity := by
            rintro rfl
            exact present ((Dict.mem_keys _ _).mpr ⟨plan, found⟩)
          exact kept _ _ (by simpa [Dict.get?_set, different] using found)
        · intro identity plan stored
          rcases origin identity plan stored with old | ⟨named, other, member, from_⟩
          · rw [Dict.get?_set] at old
            split at old
            · rename_i here
              obtain rfl : item.2 = plan := Option.some.inj old
              exact .inr ⟨here.symm, item, List.mem_cons_self, rfl⟩
            · exact .inl old
          · exact .inr ⟨named, other, List.mem_cons_of_mem _ member, from_⟩

theorem declareJoins_exists (items : List (GraphNodeId × CompiledJoin))
    (declared : JoinDeclarations)
    (indexed : ∀ item ∈ items, item.1 ∈ item.2.identity.sources)
    (agree : ∀ item ∈ items, ∀ other ∈ items, item.2.identity = other.2.identity →
      item.2 = other.2)
    (old : ∀ item ∈ items, ∀ plan, declared.get? item.2.identity = some plan → plan = item.2) :
    ∃ result, items.foldlM declareJoin declared = .ok result := by
  induction items generalizing declared with
  | nil => exact ⟨declared, rfl⟩
  | cons item items ih =>
      simp only [List.foldlM_cons, bind_eq_ok, declareJoin_eq_ok]
      have next : ∀ other ∈ items, ∀ plan,
          (if item.2.identity ∈ declared.keys then declared
            else declared.set item.2.identity item.2).get? other.2.identity = some plan →
          plan = other.2 := by
        intro other member plan found
        split at found
        · exact old other (List.mem_cons_of_mem _ member) plan found
        · rw [Dict.get?_set] at found
          split at found
          · rename_i here
            obtain rfl : item.2 = plan := Option.some.inj found
            exact agree item List.mem_cons_self other (List.mem_cons_of_mem _ member) here.symm
          · exact old other (List.mem_cons_of_mem _ member) plan found
      obtain ⟨result, rest⟩ := ih _
        (fun other member => indexed other (List.mem_cons_of_mem _ member))
        (fun a memberA b memberB => agree a (List.mem_cons_of_mem _ memberA) b
          (List.mem_cons_of_mem _ memberB)) next
      exact ⟨result, _, ⟨indexed item List.mem_cons_self, old item List.mem_cons_self, rfl⟩, rest⟩

/-- `_declared_joins` accepts a consistent table, and then looks up its plans. -/
theorem declaredJoins_ok {graph : CompiledGraph τ} {declared : JoinDeclarations}
    (ok : declaredJoins graph = .ok declared) :
    Declarable graph ∧ ∀ identity plan, declared.get? identity = some plan ↔
      plan.identity = identity ∧ ∃ source, plan ∈ graph.joinsBySource source := by
  simp only [declaredJoins, bind_eq_ok, exists_unit, raiseIf_eq_ok, pure_eq_ok,
    Except.ok.injEq] at ok
  obtain ⟨result, folded, complete, same⟩ := ok
  rw [same] at folded complete
  obtain ⟨listed, -, origin⟩ := declareJoins_ok folded
  have found : ∀ source, ∀ plan ∈ graph.joinsBySource source,
      source ∈ plan.identity.sources ∧ declared.get? plan.identity = some plan := by
    intro source plan member
    exact listed (source, plan) ((mem_indexedJoins graph source plan).mpr member)
  refine ⟨⟨fun source plan member => (found source plan member).1, ?_, ?_⟩, ?_⟩
  · intro source plan member other plan' member' same
    have stored := (found source plan member).2
    rw [same, (found other plan' member').2, Option.some.injEq] at stored
    exact stored.symm
  · intro source plan member other otherSource
    by_contra missing
    refine complete ⟨plan.identity, (Dict.mem_keys _ _).mpr ⟨plan, (found source plan member).2⟩,
      other, otherSource, ?_⟩
    rintro ⟨indexed, plan'⟩ member' same rfl
    exact missing ⟨plan', (mem_indexedJoins graph indexed plan').mp member', same⟩
  · intro identity plan
    constructor
    · intro stored
      rcases origin identity plan stored with none | ⟨named, ⟨source, _⟩, member, rfl⟩
      · simp [Dict.empty, Dict.get?] at none
      · exact ⟨named, source, (mem_indexedJoins graph source _).mp member⟩
    · rintro ⟨rfl, source, member⟩
      exact (found source plan member).2

theorem declaredJoins_exists {graph : CompiledGraph τ} (declarable : Declarable graph) :
    ∃ declared, declaredJoins graph = .ok declared := by
  obtain ⟨declared, folded⟩ := declareJoins_exists (indexedJoins graph) Dict.empty
    (fun item member => declarable.indexed item.1 item.2
      ((mem_indexedJoins graph item.1 item.2).mp member))
    (fun a memberA b memberB => declarable.agree a.1 a.2
      ((mem_indexedJoins graph a.1 a.2).mp memberA) b.1 b.2
      ((mem_indexedJoins graph b.1 b.2).mp memberB))
    (by simp [Dict.empty, Dict.get?])
  refine ⟨declared, ?_⟩
  simp only [declaredJoins, bind_eq_ok, exists_unit, raiseIf_eq_ok, pure_eq_ok, Except.ok.injEq]
  refine ⟨declared, folded, ?_, rfl⟩
  rintro ⟨identity, present, source, member, absent⟩
  obtain ⟨plan, stored⟩ := (Dict.mem_keys _ _).mp present
  obtain ⟨-, -, origin⟩ := declareJoins_ok folded
  rcases origin identity plan stored with none | ⟨rfl, ⟨indexed, _⟩, inside, rfl⟩
  · simp [Dict.empty, Dict.get?] at none
  · obtain ⟨plan', member', same⟩ := declarable.complete indexed _
      ((mem_indexedJoins graph indexed _).mp inside) source member
    exact absent (source, plan') ((mem_indexedJoins graph source plan').mpr member') same rfl

end MoteKernel
