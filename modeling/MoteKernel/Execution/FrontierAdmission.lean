import MoteKernel.Execution.RebuiltHistory

/-!
# Admission of open frontiers

Every open frontier of an accepted definition passes the snapshot admission of
`_routing_evaluation`. Each activation satisfies exactly one compiled gate, its
causal inputs have their source, and the ledger explains the whole frontier.
-/

namespace MoteKernel
open Checked Canonical Digraph

variable {τ : Type}

/-! ## Gates -/

/-- The settled pairs of a cause in gate order. -/
def causePairs (cause : RoutedActivationCause) : List (GraphNodeId × Route) :=
  (cause.references.map (fun reference => (reference.activation.nodeId, reference.route))).insertionSort
    (fun a b => gateKey a ≤ gateKey b)

/-- The one pair of a cause without a Join. -/
theorem causePairs_single (reference : ActivationReference)
    (occurrence : Option GraphJoinOccurrenceIdentity) :
    causePairs ⟨[reference], occurrence⟩ = [(reference.activation.nodeId, reference.route)] := rfl

/-- A gate matches a cause pair by pair. -/
theorem gateMatchesCause_iff (gate : ActivationGate) (cause : RoutedActivationCause) :
    gateMatchesCause gate cause = true ↔
      List.Forall₂ (fun slot pair => slot.1 = pair.1 ∧ pair.2 ∈ slot.2) gate (causePairs cause) := by
  have zipped : ∀ (gate : ActivationGate) (pairs : List (GraphNodeId × Route)),
      (decide (pairs.length = gate.length) && (gate.zip pairs).all (fun pair =>
        pair.1.1 = pair.2.1 && pair.1.2.contains pair.2.2)) = true ↔
        List.Forall₂ (fun slot pair => slot.1 = pair.1 ∧ pair.2 ∈ slot.2) gate pairs := by
    intro gate pairs
    induction gate generalizing pairs with
    | nil => cases pairs <;> simp
    | cons slot gate ih =>
        cases pairs with
        | nil => simp
        | cons pair pairs =>
            rw [List.forall₂_cons, ← ih]
            simp
            tauto
  exact zipped gate (causePairs cause)

theorem mem_causePairs {cause : RoutedActivationCause} {pair : GraphNodeId × Route} :
    pair ∈ causePairs cause ↔ ∃ reference ∈ cause.references,
      (reference.activation.nodeId, reference.route) = pair := by
  rw [causePairs, List.mem_insertionSort, List.mem_map]

/-- Pairs in gate order are in the order of their nodes. -/
theorem gateOrder_strict {pairs : List (GraphNodeId × Route)} (distinct : (pairs.map Prod.fst).Nodup) :
    ((pairs.insertionSort (fun a b => gateKey a ≤ gateKey b)).map Prod.fst).Pairwise (· < ·) := by
  have ordered := List.pairwise_insertionSort (fun a b => gateKey a ≤ gateKey b) pairs
  have apart : ((pairs.insertionSort (fun a b => gateKey a ≤ gateKey b)).map Prod.fst).Nodup :=
    ((List.perm_insertionSort _ pairs).map Prod.fst).nodup_iff.mpr distinct
  rw [List.Nodup, List.pairwise_map] at apart
  rw [List.pairwise_map]
  refine (ordered.and apart).imp ?_
  intro a b both
  rcases Prod.Lex.toLex_le_toLex.mp both.1 with less | ⟨same, -⟩
  · exact less
  · exact absurd same both.2

/-- The routes that one source of a gate may settle with. -/
def gateDomain (conditionalTargets : ConditionalTargets) (pair : GraphNodeId × Route) : List Route :=
  if pair.2 = none ∧ (conditionalTargets pair.1).items ≠ [] then
    (sorted (conditionalTargets pair.1).keys).map some
  else [pair.2]

theorem compiledActivationGate_eq (gate : RawActivationGate) (conditionalTargets : ConditionalTargets) :
    compiledActivationGate gate conditionalTargets =
      (gate.insertionSort (fun a b => gateKey a ≤ gateKey b)).map
        (fun pair => (pair.1, gateDomain conditionalTargets pair)) := rfl

/-- The gate of a Join names its sources in order. -/
theorem joinGate_names {sources : List GraphNodeId} (distinct : sources.Nodup)
    (conditionalTargets : ConditionalTargets) :
    (compiledActivationGate (sources.map (fun source => (source, none)))
      conditionalTargets).map Prod.fst = sorted sources := by
  have names : (sources.map (fun source => ((source, none) : GraphNodeId × Route))).map Prod.fst =
      sources := by
    rw [List.map_map]
    exact List.map_id _
  rw [compiledActivationGate_eq, List.map_map, show (Prod.fst ∘ fun pair : GraphNodeId × Route =>
    (pair.1, gateDomain conditionalTargets pair)) = Prod.fst from rfl]
  refine strict_ext (gateOrder_strict (by rw [names]; exact distinct)) (sorted_strict distinct) ?_
  intro source
  rw [mem_sorted, ((List.perm_insertionSort _ _).map Prod.fst).mem_iff, names]

theorem forall₂_of_names {gate : ActivationGate} {pairs : List (GraphNodeId × Route)}
    (names : gate.map Prod.fst = pairs.map Prod.fst)
    (routes : ∀ slot ∈ gate, ∀ pair ∈ pairs, slot.1 = pair.1 → pair.2 ∈ slot.2) :
    List.Forall₂ (fun slot pair => slot.1 = pair.1 ∧ pair.2 ∈ slot.2) gate pairs := by
  induction gate generalizing pairs with
  | nil =>
      cases pairs with
      | nil => exact .nil
      | cons pair pairs => cases names
  | cons slot gate ih =>
      cases pairs with
      | nil => cases names
      | cons pair pairs =>
          rw [List.map_cons, List.map_cons, List.cons.injEq] at names
          refine .cons ⟨names.1, routes slot List.mem_cons_self pair List.mem_cons_self names.1⟩
            (ih names.2 ?_)
          intro other member paired pairMember
          exact routes other (List.mem_cons_of_mem _ member) paired
            (List.mem_cons_of_mem _ pairMember)

/-- No two edges into a node have one gate. -/
theorem activationGates_nodup {nodeIds : List GraphNodeId} {edges : List Edge}
    (valid : ValidEdges nodeIds edges) (node : GraphNodeId) :
    (collectActivationGates edges node).Nodup := by
  have apart : (edges.filter (fun edge => edge.target = node ∧ node ≠ END)).Pairwise
      (fun a b => ¬ a.Clashes b) := valid.apart.filter _
  rw [collectActivationGates, List.Nodup, List.pairwise_map]
  refine apart.imp_of_mem ?_
  intro a b memberA memberB clear same
  obtain ⟨edgeA, targetA⟩ := List.mem_filter.mp memberA
  obtain ⟨edgeB, targetB⟩ := List.mem_filter.mp memberB
  have targets : b.target = a.target :=
    (of_decide_eq_true targetB).1.trans (of_decide_eq_true targetA).1.symm
  apply clear
  have several : ∀ sources target, .join sources target ∈ edges → 2 ≤ (sorted sources).length := by
    intro sources target edge
    rw [(perm_sorted sources).length_eq]
    exact (valid.known _ edge).1
  have longer : ∀ sources target pair, .join sources target ∈ edges →
      (sorted sources).map (fun source => ((source, none) : GraphNodeId × Route)) ≠ [pair] := by
    intro sources target pair edge single
    have short := congrArg List.length single
    rw [List.length_map, List.length_singleton] at short
    have long := several sources target edge
    omega
  cases a with
  | direct source target =>
      cases b with
      | direct source' target' =>
          cases same
          exact ⟨rfl, targets⟩
      | conditional source' route' target' => cases same
      | join sources' target' => exact absurd same.symm (longer _ _ _ edgeB)
  | conditional source route target =>
      cases b with
      | direct source' target' => cases same
      | conditional source' route' target' =>
          cases same
          exact ⟨rfl, rfl⟩
      | join sources' target' => exact absurd same.symm (longer _ _ _ edgeB)
  | join sources target =>
      cases b with
      | direct source' target' => exact absurd same (longer _ _ _ edgeA)
      | conditional source' route' target' => exact absurd same (longer _ _ _ edgeA)
      | join sources' target' =>
          have names : sorted sources = sorted sources' :=
            List.map_injective_iff.mpr (fun a b equal => congrArg Prod.fst equal) same
          refine ⟨?_, targets⟩
          rw [sortedSet, sortedSet, (valid.known _ edgeB).2.1.dedup, (valid.known _ edgeA).2.1.dedup,
            names]

section Matching

variable {graph : CompiledGraph τ} {nodeIds entries : List GraphNodeId} {edges : List Edge}
  {routeOptions : Dict GraphNodeId (List Route)} {dataDependencies : DataDependencies}
  {requirements : Dict GraphNodeId RouteRequirementProof}
  {guarantees : Dict GraphNodeId (List GraphNodeId)} {plan : ControlPlan}
  (accepted : Accepted graph nodeIds entries edges routeOptions dataDependencies requirements
    guarantees plan)
include accepted

/-- A declared route of a source is one that its gate may settle with. -/
theorem Accepted.mem_gateDomain {node : GraphNodeId} (known : node ∈ nodeIds) {route : Route}
    (declared : route ∈
      (edgeRelation nodeIds entries edges routeOptions plan.joins).options node)
    (leads : (edgeRelation nodeIds entries edges routeOptions plan.joins).direct node ≠ [] ∨
      (edgeRelation nodeIds entries edges routeOptions plan.joins).joinsBySource.getItem node ≠ []) :
    route ∈ gateDomain (collectConditionalTargets edges) (node, none) := by
  have inside := (accepted.runs.nodes node).mpr known
  have same : (edgeRelation nodeIds entries edges routeOptions plan.joins).conditional node =
      collectConditionalTargets edges node := frontierRelation_conditional accepted.runs.valid node
  by_cases conditional : (collectConditionalTargets edges node).items ≠ []
  · rw [gateDomain, if_pos ⟨rfl, conditional⟩]
    have several : ((edgeRelation nodeIds entries edges routeOptions plan.joins).conditional
        node).items ≠ [] := by
      rw [same]
      exact conditional
    rw [accepted.runs.wellFormed.selective node inside several, same] at declared
    exact declared
  · rw [gateDomain, if_neg (fun both => conditional both.2)]
    have none : ((edgeRelation nodeIds entries edges routeOptions plan.joins).conditional
        node).items = [] := by
      rw [same]
      exact not_not.mp conditional
    rw [accepted.runs.wellFormed.continuing node inside none leads] at declared
    exact declared

/-- The sources of a Join that causes an activation, in order and without repetitions. -/
theorem Accepted.join_cause {target : GraphNodeId} {join : CompiledJoin}
    (member : .joined join ∈
      (edgeRelation nodeIds entries edges routeOptions plan.joins).successorCauses target) :
    join ∈ plan.joins ∧ join.identity.target = target ∧ join.identity.sources.Nodup ∧
      sorted join.identity.sources = join.identity.sources ∧ 1 < join.identity.sources.length := by
  obtain ⟨into, several⟩ := accepted.join_gate member
  obtain ⟨listed, target, -⟩ := mem_joinsInto.mp into
  obtain ⟨sources, edge, same⟩ := accepted.runs.join_edge listed
  have distinct := (accepted.runs.valid.known _ edge).2.1
  rw [SuccessorCause.gate, List.length_map] at several
  refine ⟨listed, target, ?_, ?_, several⟩
  · rw [same, (perm_sorted sources).nodup_iff]
    exact distinct
  · rw [same]
    exact sorted_eq_self.mpr (sorted_pairwise sources)

variable {declared : JoinDeclarations} {state : GraphRunState} {arrivals : JoinArrivals}
  (runsOn : RunsOn graph (edgeRelation nodeIds entries edges routeOptions plan.joins) declared state
    arrivals) (resolvable : Resolvable graph state arrivals) {target : GraphNodeId}
  {cause : RoutedActivationCause}

include runsOn resolvable

/-- The references of a Join cause are of its sources. -/
theorem Accepted.joined_names {join : CompiledJoin}
    (member : .joined join ∈
      (edgeRelation nodeIds entries edges routeOptions plan.joins).successorCauses target)
    (holds : (stateMarking state).Causes (stateChoice state) (.joined join))
    (records : RecordsCause graph state arrivals cause (.joined join)) :
    (causePairs cause).map Prod.fst = join.identity.sources := by
  obtain ⟨listed, -, distinct, ordered, -⟩ := accepted.join_cause member
  have complete := (complete_iff runsOn (accepted.runs.mem_joins.mpr listed) 1).mpr holds
  have once := gathered_sources_nodup runsOn resolvable
    ⟨join.identity, state.runId, state.superstep + 1⟩
  have names : (cause.references.map (fun reference =>
      (reference.activation.nodeId, reference.route))).map Prod.fst = sourceIds cause.references := by
    rw [List.map_map]
    rfl
  have references : cause.references = sorted ((gatheredArrivals graph state arrivals).getItem
      ⟨join.identity, state.runId, state.superstep + 1⟩) := congrArg RoutedActivationCause.references
    records
  have perm : (sourceIds cause.references).Perm (sourceIds ((gatheredArrivals graph state
      arrivals).getItem ⟨join.identity, state.runId, state.superstep + 1⟩)) := by
    rw [references]
    exact (perm_sorted _).map _
  rw [← ordered]
  refine strict_ext (gateOrder_strict ?_) (sorted_strict distinct) ?_
  · rw [names, perm.nodup_iff]
    exact once
  · intro source
    rw [causePairs, mem_sorted, ((List.perm_insertionSort _ _).map Prod.fst).mem_iff, names,
      perm.mem_iff]
    exact complete source

/-- A gate that matches a recorded cause is satisfied. -/
theorem Accepted.matching_holds {source other : SuccessorCause}
    (member : source ∈
      (edgeRelation nodeIds entries edges routeOptions plan.joins).successorCauses target)
    (holds : (stateMarking state).Causes (stateChoice state) source)
    (records : RecordsCause graph state arrivals cause source)
    (otherMember : other ∈
      (edgeRelation nodeIds entries edges routeOptions plan.joins).successorCauses target)
    (matched : gateMatchesCause (compiledActivationGate other.gate (collectConditionalTargets edges))
      cause = true) : (stateMarking state).Causes (stateChoice state) other := by
  rw [gateMatchesCause_iff] at matched
  -- a gate of one pair is matched by one active node, which settled as the gate asks
  have alone : ∀ pair : GraphNodeId × Route, List.Forall₂ (fun slot settled =>
      slot.1 = settled.1 ∧ settled.2 ∈ slot.2)
        [(pair.1, gateDomain (collectConditionalTargets edges) pair)] (causePairs cause) →
      (stateMarking state).active pair.1 ∧
        stateChoice state pair.1 ∈ gateDomain (collectConditionalTargets edges) pair := by
    intro pair agrees
    cases source with
    | direct node =>
        rw [show cause = _ from records, causePairs_single, List.forall₂_cons] at agrees
        obtain ⟨⟨same, route⟩, -⟩ := agrees
        have named : pair.1 = node := same
        rw [named]
        exact ⟨holds, route⟩
    | routed node name =>
        obtain ⟨chosen, records⟩ := records
        rw [records, causePairs_single, List.forall₂_cons] at agrees
        obtain ⟨⟨same, route⟩, -⟩ := agrees
        have named : pair.1 = node := same
        rw [named, chosen]
        exact ⟨holds.1, route⟩
    | joined join =>
        have names := accepted.joined_names runsOn resolvable member holds records
        have several := (accepted.join_cause member).2.2.2.2
        have short := agrees.length_eq
        rw [← names, List.length_map, ← short, List.length_singleton] at several
        exact absurd several (lt_irrefl 1)
  cases other with
  | direct node => exact (alone (node, none) matched).1
  | routed node name =>
      obtain ⟨here, route⟩ := alone (node, some name) matched
      refine ⟨here, ?_⟩
      rw [gateDomain, if_neg (fun both => by cases both.1), List.mem_singleton] at route
      exact route
  | joined join =>
      obtain ⟨listed, into, distinct, ordered, several⟩ := accepted.join_cause otherMember
      have names : (causePairs cause).map Prod.fst = join.identity.sources := by
        rw [← ordered, ← joinGate_names distinct (collectConditionalTargets edges)]
        have same : ∀ {gate : ActivationGate} {pairs : List (GraphNodeId × Route)},
            List.Forall₂ (fun slot pair => slot.1 = pair.1 ∧ pair.2 ∈ slot.2) gate pairs →
            pairs.map Prod.fst = gate.map Prod.fst := by
          intro gate pairs agrees
          induction agrees with
          | nil => rfl
          | cons head _ ih => rw [List.map_cons, List.map_cons, ih, head.1]
        exact same matched
      have long : 1 < (causePairs cause).length := by
        rw [← List.length_map (f := Prod.fst), names]
        exact several
      cases source with
      | direct node =>
          rw [show cause = _ from records, causePairs_single] at long
          exact absurd long (lt_irrefl 1)
      | routed node name =>
          rw [records.2, causePairs_single] at long
          exact absurd long (lt_irrefl 1)
      | joined recorded =>
          obtain ⟨recordedListed, recordedInto, -⟩ := accepted.join_cause member
          have sources := accepted.joined_names runsOn resolvable member holds records
          have identity : recorded.identity = join.identity := by
            have sameSources : recorded.identity.sources = join.identity.sources :=
              sources.symm.trans names
            have sameTarget : recorded.identity.target = join.identity.target :=
              recordedInto.trans into.symm
            cases first : recorded.identity
            cases second : join.identity
            rw [first, second] at sameSources sameTarget
            simp only at sameSources sameTarget
            rw [sameSources, sameTarget]
          have same := runsOn.carries.agree runsOn.wellFormed
            (accepted.runs.mem_joins.mpr recordedListed) (accepted.runs.mem_joins.mpr listed) identity
          rw [← same]
          exact holds

/-- A recorded cause matches its own gate. -/
theorem Accepted.own_gate {source : SuccessorCause}
    (member : source ∈
      (edgeRelation nodeIds entries edges routeOptions plan.joins).successorCauses target)
    (holds : (stateMarking state).Causes (stateChoice state) source)
    (records : RecordsCause graph state arrivals cause source)
    (settles : ∀ reference ∈ cause.references, reference.activation.nodeId ∈ nodeIds ∧
      reference.route ∈ (edgeRelation nodeIds entries edges routeOptions plan.joins).options
        reference.activation.nodeId) :
    gateMatchesCause (compiledActivationGate source.gate (collectConditionalTargets edges)) cause =
      true := by
  rw [gateMatchesCause_iff]
  cases source with
  | direct node =>
      have leads : (edgeRelation nodeIds entries edges routeOptions plan.joins).direct node ≠ [] := by
        rcases FrontierRelation.mem_successorCauses.mp member with ⟨other, -, inside, same⟩ |
          ⟨_, -, _, -, -, wrong⟩ | ⟨_, -, -, -, wrong⟩
        · cases same
          exact List.ne_nil_of_mem inside
        · cases wrong
        · cases wrong
      have cause : cause = _ := records
      rw [cause] at settles ⊢
      obtain ⟨known, declared⟩ := settles _ (List.mem_singleton.mpr rfl)
      rw [causePairs_single]
      exact .cons ⟨rfl, accepted.mem_gateDomain known declared (.inl leads)⟩ .nil
  | routed node name =>
      rw [records.2, causePairs_single]
      refine .cons ⟨rfl, ?_⟩ .nil
      show some name ∈ gateDomain (collectConditionalTargets edges) (node, some name)
      rw [gateDomain, if_neg (fun both => by cases both.1)]
      exact List.mem_singleton.mpr rfl
  | joined join =>
      obtain ⟨listed, -, distinct, ordered, -⟩ := accepted.join_cause member
      have names := accepted.joined_names runsOn resolvable member holds records
      refine forall₂_of_names ?_ ?_
      · rw [SuccessorCause.gate, joinGate_names distinct, names, ordered]
      · intro slot slotMember pair pairMember same
        rw [compiledActivationGate_eq, List.mem_map] at slotMember
        obtain ⟨raw, rawMember, rfl⟩ := slotMember
        rw [List.mem_insertionSort, SuccessorCause.gate, List.mem_map] at rawMember
        obtain ⟨node, inside, rfl⟩ := rawMember
        obtain ⟨reference, referenced, rfl⟩ := mem_causePairs.mp pairMember
        obtain ⟨known, declared⟩ := settles reference referenced
        have named : node = reference.activation.nodeId := same
        rw [named] at inside ⊢
        refine accepted.mem_gateDomain known declared (.inr ?_)
        exact List.ne_nil_of_mem ((runsOn.carries.joins _).mem_iff.mp
          ((runsOn.carries.mem_joinsBySource runsOn.wellFormed).mpr
            ⟨accepted.runs.mem_joins.mpr listed, inside⟩))

/-- A recorded cause matches one compiled gate of its target. -/
theorem Accepted.one_gate (values : PlansValues graph nodeIds entries edges dataDependencies plan)
    (known : target ∈ nodeIds) {source : SuccessorCause}
    (member : source ∈
      (edgeRelation nodeIds entries edges routeOptions plan.joins).successorCauses target)
    (holds : (stateMarking state).Causes (stateChoice state) source)
    (records : RecordsCause graph state arrivals cause source)
    (settles : ∀ reference ∈ cause.references, reference.activation.nodeId ∈ nodeIds ∧
      reference.route ∈ (edgeRelation nodeIds entries edges routeOptions plan.joins).options
        reference.activation.nodeId) :
    (graph.activationGates target).filter (fun gate => gateMatchesCause gate cause) =
      [compiledActivationGate source.gate (collectConditionalTargets edges)] := by
  have moves := (resolvable_iff runsOn).mp resolvable
  have own := accepted.own_gate runsOn resolvable member holds records settles
  have inside : source.gate ∈ collectActivationGates edges target :=
    accepted.runs.mem_gates.mpr ⟨source, member, rfl⟩
  -- no other cause of the target holds, so no other gate matches
  have only : ∀ gate ∈ collectActivationGates edges target,
      gateMatchesCause (compiledActivationGate gate (collectConditionalTargets edges)) cause = true →
        gate = source.gate := by
    intro gate gateMember matched
    obtain ⟨other, otherMember, rfl⟩ := accepted.runs.mem_gates.mp gateMember
    have otherHolds := accepted.matching_holds runsOn resolvable member holds records otherMember matched
    have apart := moves.once target (target_known runsOn member)
    have symmetric : Std.Symm (fun a b => ¬ ((stateMarking state).Causes (stateChoice state) a ∧
        (stateMarking state).Causes (stateChoice state) b)) := ⟨fun a b clear both => clear both.symm⟩
    by_contra different
    exact apart.forall otherMember member (fun same => different (by rw [same]))
      ⟨otherHolds, holds⟩
  have sorted : (graph.activationGates target).Perm ((collectActivationGates edges target).map
      (fun gate => compiledActivationGate gate (collectConditionalTargets edges))) := by
    rw [CompiledGraph.activationGates, values.gates, Dict.getItem_build known]
    exact List.perm_insertionSort _ _
  have single : (collectActivationGates edges target).filter (fun gate => gateMatchesCause
      (compiledActivationGate gate (collectConditionalTargets edges)) cause) = [source.gate] := by
    have same : (collectActivationGates edges target).filter (fun gate => gateMatchesCause
        (compiledActivationGate gate (collectConditionalTargets edges)) cause) =
          (collectActivationGates edges target).filter (fun gate => gate = source.gate) := by
      refine List.filter_congr (fun gate gateMember => ?_)
      rw [Bool.eq_iff_iff, decide_eq_true_eq]
      constructor
      · exact only gate gateMember
      · rintro rfl
        exact own
    rw [same, List.filter_eq, List.count_eq_one_of_mem
      (activationGates_nodup accepted.runs.valid target) inside]
    rfl
  have perm := sorted.filter (fun gate => gateMatchesCause gate cause)
  rw [List.filter_map] at perm
  rw [show (collectActivationGates edges target).filter ((fun gate => gateMatchesCause gate cause) ∘
    (fun gate => compiledActivationGate gate (collectConditionalTargets edges))) = [source.gate] from
      single] at perm
  exact List.perm_singleton.mp perm

end Matching

/-! ## Checks that accept -/

theorem firstError_eq_none {α : Type} {check : α → Except ExecutionError (Option String)}
    {xs : List α} : firstError check xs = .ok none ↔ ∀ x ∈ xs, check x = .ok none := by
  induction xs with
  | nil => exact iff_of_true rfl (fun x member => nomatch member)
  | cons x xs ih =>
      rw [firstError, List.forall_mem_cons, ← ih, bind_eq_ok]
      constructor
      · intro passed
        obtain ⟨found, checked, rest⟩ := passed
        cases found with
        | none => exact ⟨checked, rest⟩
        | some text => cases rest
      · intro both
        exact ⟨none, both.1, both.2⟩

theorem settledReferenceError_eq_none {reference : ActivationReference} {graph : CompiledGraph τ} :
    settledReferenceError graph reference = none ↔
      reference.activation.nodeId ∈ graph.nodes.keys ∧
      ¬ (reference.route = none ∧
        (graph.conditionalTargets reference.activation.nodeId).items ≠ []) ∧
      reference.route ∈ graph.routeOptions reference.activation.nodeId := by
  unfold settledReferenceError
  by_cases known : reference.activation.nodeId ∈ graph.nodes.keys
  · by_cases selected : reference.route = none ∧
        (graph.conditionalTargets reference.activation.nodeId).items ≠ []
    · simp [known, selected]
    · by_cases declared : reference.route ∈ graph.routeOptions reference.activation.nodeId
      · simp only [known, selected, declared]
        simp
      · simp only [known, selected, declared]
        simp only [not_true_eq_false, if_false, not_false_eq_true, and_false, iff_false]
        split_ifs <;> exact not_false
  · simp [known]

/-- Every settled node of the frontier selected one of its declared routes. -/
def DeclaresRoutes (graph : CompiledGraph τ) (state : GraphRunState) : Prop :=
  ∀ node ∈ state.frontier.nodes, ∀ routing, node.settlement = .succeeded routing →
    routing.route ∈ graph.routeOptions node.nodeId

/-- The references of a cause are settled. -/
theorem RecordsCause.settled {graph : CompiledGraph τ} {relation : FrontierRelation}
    {declared : JoinDeclarations} {state : GraphRunState} {arrivals : JoinArrivals}
    (runsOn : RunsOn graph relation declared state arrivals) {cause : RoutedActivationCause}
    {source : SuccessorCause} (holds : (stateMarking state).Causes (stateChoice state) source)
    (records : RecordsCause graph state arrivals cause source) :
    ∀ reference ∈ cause.references, reference ∈ state.settledReferences := by
  have current : ∀ node, (stateMarking state).active node → activationReference state.runId
      state.superstep node (stateChoice state node) ∈ state.settledReferences := by
    intro node here
    exact runsOn.shape.evidence (runsOn.shape.publication.mpr ⟨node, here, rfl⟩)
  intro reference member
  cases source with
  | direct node =>
      rw [show cause = _ from records, List.mem_singleton] at member
      rw [member]
      exact current node holds
  | routed node name =>
      rw [records.2, List.mem_singleton, ← records.1] at member
      rw [member]
      exact current node holds.1
  | joined join =>
      rw [show cause = _ from records] at member
      obtain ⟨plan, -, -, -, -, -, -, settled⟩ := gathered_reference runsOn (mem_sorted.mp member)
      exact settled

/-! ## Admission of open frontiers -/

section Opened

variable {graph : CompiledGraph τ} {nodeIds entries : List GraphNodeId} {edges : List Edge}
  {routeOptions : Dict GraphNodeId (List Route)} {dataDependencies : DataDependencies}
  {requirements : Dict GraphNodeId RouteRequirementProof}
  {guarantees : Dict GraphNodeId (List GraphNodeId)} {plan : ControlPlan}
  (accepted : Accepted graph nodeIds entries edges routeOptions dataDependencies requirements
    guarantees plan)
include accepted

/-- What the settled frontier of a run shows of a state that continues it. -/
theorem Accepted.opensNext {previous next : GraphRunState} {control : RoutingFacts}
    (before : ControlRun graph previous) (resolves : ResolvesTo graph previous control)
    (follows : NextLedger previous next) : ∃ declared arrivals active choice,
      OpensNext graph (edgeRelation nodeIds entries edges routeOptions plan.joins) declared previous
        arrivals active choice next ∧
      control.activations = nextActivations (nextCauses graph previous arrivals) ∧
      control.remainingJoinProgress =
        (controlOutcomes graph previous arrivals).filterMap JoinOutcome.progress := by
  obtain ⟨active, choice, recorded⟩ := before.recorded accepted.runs.wellFormed accepted.runs.carries
  obtain ⟨declared, arrivals, runsOn⟩ := before.runsOn accepted.runs.wellFormed accepted.runs.carries
  obtain ⟨resolvable, rfl⟩ := (resolvesTo_iff runsOn.declares runsOn.pending control).mp resolves
  exact ⟨declared, arrivals, active, choice, ⟨runsOn, resolvable, recorded, follows⟩, rfl, rfl⟩

/-- Every activation settled in a run is of a node, with one of its declared routes. -/
theorem Accepted.recorded_declared {state : GraphRunState} {active : Nat → GraphNodeId → Prop}
    {choice : Nat → GraphNodeId → Route}
    (recorded : Recorded (edgeRelation nodeIds entries edges routeOptions plan.joins) state active
      choice) : ∀ reference ∈ state.settledReferences, reference.activation.nodeId ∈ nodeIds ∧
      reference.route ∈ (edgeRelation nodeIds entries edges routeOptions plan.joins).options
        reference.activation.nodeId := by
  intro reference settled
  obtain ⟨superstep, node, here, rfl⟩ := (recorded.ledger reference).mp settled
  exact ⟨accepted.runs.mem_nodes.mp (recorded.trail.known superstep node here).1,
    recorded.trail.selects superstep node here⟩

/-- Every activation settled up to an open frontier is of a node, with one of its declared routes. -/
theorem Accepted.opened_declared {state : GraphRunState} (opened : Opened graph state)
    (declares : DeclaresRoutes graph state) : ∀ reference ∈ state.settledReferences,
      reference.activation.nodeId ∈ nodeIds ∧
      reference.route ∈ graph.routeOptions reference.activation.nodeId := by
  have current : ∀ reference ∈ frontierPublications state,
      reference.activation.nodeId ∈ nodeIds ∧
      reference.route ∈ graph.routeOptions reference.activation.nodeId := by
    intro reference success
    obtain ⟨node, inside, routing, settled, rfl⟩ := mem_frontierPublications.mp success
    exact ⟨accepted.opened_known opened node inside, declares node inside routing settled⟩
  intro reference settled
  cases opened with
  | start starts => exact current reference ((starts.ledger reference).mp settled)
  | advance before resolves follows =>
      rcases (follows.ledger reference).mp settled with old | new
      · obtain ⟨active, choice, recorded⟩ :=
          before.recorded accepted.runs.wellFormed accepted.runs.carries
        rw [accepted.runs.carries.options]
        exact accepted.recorded_declared recorded reference old
      · exact current reference new

/-- A ledger of declared routes is admitted. -/
theorem Accepted.ledger_clear {state : GraphRunState}
    (declared : ∀ reference ∈ state.settledReferences, reference.activation.nodeId ∈ nodeIds ∧
      reference.route ∈ graph.routeOptions reference.activation.nodeId) :
    settledActivationAdmissionError graph state = none := by
  rw [settledActivationAdmissionError, List.findSome?_eq_none_iff]
  intro settlement member
  obtain ⟨known, declared⟩ := declared settlement.reference
    (List.mem_map.mpr ⟨settlement, member, rfl⟩)
  have inside := (accepted.runs.nodes _).mpr known
  rw [settledReferenceError_eq_none]
  refine ⟨(accepted.runs.carries.nodes _).mpr inside, ?_, declared⟩
  intro both
  obtain ⟨unselected, conditional⟩ := both
  rw [ne_eq, Dict.Same.items_eq_nil (accepted.runs.carries.conditional _)] at conditional
  rw [unselected, accepted.runs.carries.options, accepted.runs.wellFormed.selective _ inside
    conditional] at declared
  simp at declared

/-- The ledger of an open frontier is admitted. -/
theorem Accepted.ledger_admitted {state : GraphRunState} (opened : Opened graph state)
    (declares : DeclaresRoutes graph state) : settledActivationAdmissionError graph state = none :=
  accepted.ledger_clear (accepted.opened_declared opened declares)

/-- The occurrence of a recorded cause is the one of its gate. -/
theorem Accepted.occurrence_admitted {previous next : GraphRunState} {declared : JoinDeclarations}
    {arrivals : JoinArrivals} {active : Nat → GraphNodeId → Prop}
    {choice : Nat → GraphNodeId → Route}
    (opens : OpensNext graph (edgeRelation nodeIds entries edges routeOptions plan.joins) declared
      previous arrivals active choice next) {target : GraphNodeId} {source : SuccessorCause}
    (member : source ∈
      (edgeRelation nodeIds entries edges routeOptions plan.joins).successorCauses target)
    {cause : RoutedActivationCause} (records : RecordsCause graph previous arrivals cause source) :
    frontierOccurrenceError next declared target cause
      (compiledActivationGate source.gate (collectConditionalTargets edges)) = .ok none := by
  cases source with
  | direct node =>
      rw [show cause = _ from records]
      rfl
  | routed node name =>
      rw [records.2]
      rfl
  | joined join =>
      obtain ⟨listed, into, -⟩ := accepted.join_cause member
      have found : declared.get? join.identity = some join :=
        (opens.runs.carries.declared opens.runs.declares).mpr
          ⟨rfl, accepted.runs.mem_joins.mpr listed⟩
      have place : ¬ (join.identity.target ≠ target ∨ previous.runId ≠ next.runId ∨
          previous.superstep + 1 ≠ next.superstep) := by
        rw [not_or, not_or, not_not, not_not, not_not]
        exact ⟨into, opens.follows.run.symm, opens.follows.superstep.symm⟩
      rw [show cause = _ from records]
      simp only [frontierOccurrenceError, found, if_neg place]
      rw [firstError_eq_none]
      intro reference arrived
      obtain ⟨other, -, located, inside, projected, -⟩ :=
        gathered_reference opens.runs (mem_sorted.mp arrived)
      obtain rfl : join = other := Option.some.inj (found.symm.trans located)
      rw [bind_eq_ok]
      refine ⟨_, (join.occurrenceFor_eq_ok _ _).mpr ⟨inside, rfl⟩, ?_⟩
      rw [projected]
      simp

variable (values : PlansValues graph nodeIds entries edges dataDependencies plan)
include values

/-- Every control-causal input of an open frontier has its source. -/
theorem Accepted.causal_admitted {state : GraphRunState} (opened : Opened graph state)
    {node : GraphFrontierNode} (inside : node ∈ state.frontier.nodes) :
    checkCausalInputs graph state node = .ok () := by
  -- availability is no matter here, so the frames hold everything
  have held : HoldsValues graph state ⟨[], state.runId⟩ ⟨fun _ => true, fun _ => true⟩
      state.superstep := ⟨rfl, rfl, fun _ _ _ _ _ => rfl⟩
  rw [checkCausalInputs, checkAll_eq_ok]
  intro binding member
  cases reads : binding.source with
  | graphInput port => rfl
  | nodeOutput port => rfl
  | predecessor input =>
      obtain ⟨resolved, located, -⟩ :=
        accepted.frontier_ready values opened held node inside binding member
      rw [bindingSourceCoordinate.eq_def, reads] at located
      simp only [bind_eq_ok] at located ⊢
      obtain ⟨selected, found, -⟩ := located
      exact ⟨selected, found, rfl⟩

/-- Every activation of an open frontier is admitted. -/
theorem Accepted.gates_admitted {state : GraphRunState} (opened : Opened graph state)
    {declared : JoinDeclarations} (declares : declaredJoins graph = .ok declared) :
    frontierGateError graph state declared = .ok none := by
  rw [frontierGateError, firstError_eq_none]
  intro node inside
  have known := accepted.opened_known opened node inside
  have compiled : node.nodeId ∈ graph.nodes.keys :=
    (accepted.runs.carries.nodes _).mpr ((accepted.runs.nodes _).mpr known)
  have listed : node.activation ∈ state.frontier.nodes.map GraphFrontierNode.activation :=
    List.mem_map.mpr ⟨node, inside, rfl⟩
  rw [frontierNodeError, if_neg (not_not.mpr compiled),
    accepted.causal_admitted values opened inside,
    show routingErrorText (.ok ()) = .ok none from rfl]
  simp only [ok_bind]
  cases opened with
  | start starts =>
      rw [starts.opens, List.mem_map] at listed
      obtain ⟨entry, entryListed, same⟩ := listed
      have named : entry = node.nodeId := congrArg GraphFrontierActivation.nodeId same
      have caused : node.cause = .start := (congrArg GraphFrontierActivation.cause same).symm
      rw [caused]
      rw [named] at entryListed
      simp [entryListed]
  | advance before resolves follows =>
      obtain ⟨declared', arrivals, active, choice, opens, activations, -⟩ :=
        accepted.opensNext before resolves follows.nextLedger
      obtain rfl : declared' = declared := Except.ok.inj (opens.runs.declares.symm.trans declares)
      rw [follows.opens, activations] at listed
      obtain ⟨cause, caused, resolved⟩ := mem_nextActivations.mp listed
      obtain ⟨source, member, holds, records⟩ :=
        nextCauses_recorded opens.runs opens.resolvable resolved
      have settled := RecordsCause.settled opens.runs holds records
      have single := accepted.one_gate opens.runs opens.resolvable values known member holds records
        (fun reference referenced => accepted.recorded_declared opens.recorded reference
          (settled reference referenced))
      have committed : ¬ ∃ reference ∈ cause.references, reference ∉ state.settledReferences := by
        intro missing
        obtain ⟨reference, referenced, absent⟩ := missing
        exact absent ((follows.ledger reference).mpr (.inl (settled reference referenced)))
      have admitted : frontierOccurrenceError state declared' node.nodeId cause
          (compiledActivationGate source.gate (collectConditionalTargets edges)) = .ok none :=
        accepted.occurrence_admitted opens member records
      rw [show node.cause = .routed cause from caused]
      simp only [frontierCauseError, single, admitted, ok_bind, if_neg committed]
      rfl

/-- Every open frontier with an activation is admitted. -/
theorem Accepted.frontier_admitted {state : GraphRunState} (opened : Opened graph state)
    (declares : DeclaresRoutes graph state) (distinct : state.settledReferences.Nodup)
    (nonempty : state.frontier.nodes ≠ []) : ∃ declared arrivals,
      Admits graph state declared arrivals := by
  obtain ⟨declared, joins⟩ :=
    declaredJoins_exists (accepted.runs.carries.declarable accepted.runs.wellFormed)
  have ledger := accepted.ledger_admitted opened declares
  have gates := accepted.gates_admitted values opened joins
  cases opened with
  | start starts =>
      have pending : pendingJoinArrivals state declared = .ok Dict.empty := by
        rw [pendingJoinArrivals, starts.progress]
        rfl
      exact ⟨declared, Dict.empty, ledger, joins, gates, pending,
        fun advanced => absurd starts.superstep advanced⟩
  | advance before resolves follows =>
      obtain ⟨declared', gathered, active, choice, opens, activations, remaining⟩ :=
        accepted.opensNext before resolves follows.nextLedger
      obtain rfl : declared' = declared := Except.ok.inj (opens.runs.declares.symm.trans joins)
      have records := Follows.records opens.runs opens.resolvable remaining follows
      have once : (state.joinProgress.map (·.occurrence)).Nodup := by
        rw [follows.progress, remaining]
        exact remainingProgress_nodup graph _ gathered
      have keys : ((state.joinProgress.map (fun progress =>
          (progress.occurrence, progress.arrived))).map Prod.fst).Nodup := by
        rw [List.map_map]
        exact once
      refine ⟨declared', ⟨_, keys⟩, ledger, joins, gates,
        (pendingJoinArrivals_eq_ok _ _ _).mpr ⟨records, once, rfl⟩, fun _ => ?_⟩
      refine ⟨_, (historicalJoinArrivals_eq_ok _).mpr ⟨?_, opens.rebuilt_fresh distinct, rfl⟩, ?_⟩
      · intro reference past
        have settled := opens.mem_past.mp past
        have inside := (accepted.recorded_declared opens.recorded reference settled).1
        refine ⟨(accepted.runs.carries.nodes _).mpr ((accepted.runs.nodes _).mpr inside), ?_⟩
        intro join listed
        exact ((opens.runs.carries.mem_joinsBySource opens.runs.wellFormed).mp listed).2
      · rw [checkPostAdvance_eq_ok]
        refine opens.explained ⟨follows.opens.trans activations, follows.progress.trans remaining⟩
          distinct ?_
        -- some activation was resolved, and its cause has an active source
        obtain ⟨node, inside⟩ := List.exists_mem_of_ne_nil _ nonempty
        have listed : node.activation ∈ state.frontier.nodes.map GraphFrontierNode.activation :=
          List.mem_map.mpr ⟨node, inside, rfl⟩
        rw [follows.opens, activations] at listed
        obtain ⟨cause, -, resolved⟩ := mem_nextActivations.mp listed
        obtain ⟨source, member, holds, -⟩ :=
          nextCauses_recorded opens.runs opens.resolvable resolved
        obtain ⟨active', here, -⟩ := accepted.recent_source member
          ((accepted.caused opens.recorded member).mp holds)
        exact List.ne_nil_of_mem (opens.runs.shape.publication.mpr
          ⟨active', (opens.recorded.current _).mp here, rfl⟩)

omit values

/-- An admitted state that continues a settled frontier is the one that its control opens. -/
theorem Accepted.admitted_follows {previous next : GraphRunState} {control : RoutingFacts}
    (before : ControlRun graph previous) (resolves : ResolvesTo graph previous control)
    (ledger : NextLedger previous next) (valid : ValidRun next) {declared : JoinDeclarations}
    {arrivals : JoinArrivals} (admits : Admits graph next declared arrivals) :
    Follows previous control next := by
  obtain ⟨declared', gathered, active, choice, opens, activations, remaining⟩ :=
    accepted.opensNext before resolves ledger
  have later : next.superstep ≠ 0 := by
    have superstep := ledger.superstep
    omega
  obtain ⟨historical, rebuilt, checked⟩ := admits.advanced later
  obtain ⟨-, -, rfl⟩ := (historicalJoinArrivals_eq_ok historical).mp rebuilt
  have distinct := nodup_of_strict valid.ledger.canonical
  have causes : ∀ node ∈ next.frontier.nodes, ∃ cause, node.cause = .routed cause := by
    intro node inside
    have caused := valid.frontier.causes node inside
    cases start : node.cause with
    | start =>
        rw [start] at caused
        exact absurd caused later
    | routed cause => exact ⟨cause, rfl⟩
  have resolved := opens.resolved distinct ((checkPostAdvance_eq_ok _).mp checked) causes
    valid.frontier.ordered valid.joins.ordered
  exact ⟨ledger.run, ledger.superstep, resolved.activations.trans activations.symm,
    resolved.progress.trans remaining.symm, ledger.ledger⟩

end Opened

/-- An admitted ledger declares every route of the frontier. -/
theorem declaresRoutes_of_ledger {graph : CompiledGraph τ} {state : GraphRunState}
    (admitted : settledActivationAdmissionError graph state = none) (valid : ValidLedger state)
    (live : state.status ≠ .completed) : DeclaresRoutes graph state := by
  intro node inside routing settled
  have success : activationReference state.runId state.superstep node.nodeId routing.route ∈
      frontierPublications state :=
    mem_frontierPublications.mpr ⟨node, inside, routing, settled, rfl⟩
  have listed := ((valid.current live _).mpr success).1
  obtain ⟨settlement, member, same⟩ := List.mem_map.mp listed
  have passed := List.findSome?_eq_none_iff.mp admitted settlement member
  rw [same, settledReferenceError_eq_none] at passed
  exact passed.2.2

theorem ValidRun.nonempty {state : GraphRunState} (valid : ValidRun state)
    (live : state.status ≠ .completed) : state.frontier.nodes ≠ [] := by
  have status := valid.status
  unfold ValidStatus at status
  cases held : state.status with
  | completed => exact absurd held live
  | running =>
      rw [held] at status
      exact status.1
  | failed =>
      rw [held] at status
      exact status.1
  | aborted =>
      rw [held] at status
      exact status.1.1

/-- A later frontier that is admitted has no pending error. -/
theorem frontierAdmissionError_eq_none {graph : CompiledGraph τ} {state : GraphRunState}
    (live : state.status ≠ .completed) (later : state.superstep ≠ 0) :
    frontierAdmissionError graph state = .ok none ↔
      ∃ declared arrivals, Admits graph state declared arrivals := by
  rw [frontierAdmissionError, bind_eq_ok]
  constructor
  · intro admitted
    obtain ⟨evaluation, evaluated, clear⟩ := admitted
    have clear : evaluation.admissionError = none := Except.ok.inj clear
    have complete : evaluation.pendingError = none := by
      unfold routingEvaluation at evaluated
      by_cases ledger : settledActivationAdmissionError graph state ≠ none ∨
          state.status = .completed
      · rw [if_pos ledger] at evaluated
        rw [← Except.ok.inj evaluated]
      · rw [if_neg ledger] at evaluated
        cases declares : declaredJoins graph with
        | error error =>
            rw [declares] at evaluated
            rw [← Except.ok.inj evaluated]
        | ok declared =>
            rw [declares] at evaluated
            obtain ⟨found, -, evaluated⟩ := (bind_eq_ok _ _ _).mp evaluated
            cases found with
            | some text => rw [← Except.ok.inj evaluated]
            | none =>
                cases pending : pendingJoinArrivals state declared with
                | error error =>
                    -- a later frontier reports the pending error as its own
                    rw [pending] at evaluated
                    rw [← Except.ok.inj evaluated] at clear
                    simp only [show state.superstep > 0 by omega, if_true] at clear
                    cases clear
                | ok arrivals =>
                    rw [pending] at evaluated
                    rw [← Except.ok.inj evaluated]
                    exact (historicalEvaluation_pending _ _ _).2
    obtain ⟨declared, admits⟩ := (routingEvaluation_admitted live _).mp
      ⟨evaluation, evaluated, clear, complete, rfl⟩
    exact ⟨declared, _, admits⟩
  · intro admitted
    obtain ⟨declared, arrivals, admits⟩ := admitted
    obtain ⟨evaluation, evaluated, clear, -⟩ :=
      (routingEvaluation_admitted live arrivals).mpr ⟨declared, admits⟩
    exact ⟨evaluation, evaluated, by rw [clear]; rfl⟩

/-- Every open frontier of a valid live state is admitted. -/
theorem Accepted.opened_admitted {graph : CompiledGraph τ} {nodeIds entries : List GraphNodeId}
    {edges : List Edge} {routeOptions : Dict GraphNodeId (List Route)}
    {dataDependencies : DataDependencies} {requirements : Dict GraphNodeId RouteRequirementProof}
    {guarantees : Dict GraphNodeId (List GraphNodeId)} {plan : ControlPlan}
    (accepted : Accepted graph nodeIds entries edges routeOptions dataDependencies requirements
      guarantees plan) (values : PlansValues graph nodeIds entries edges dataDependencies plan)
    {state : GraphRunState} (opened : Opened graph state) (valid : ValidRun state)
    (live : state.status ≠ .completed) (declares : DeclaresRoutes graph state) :
    frontierAdmissionError graph state = .ok none := by
  obtain ⟨declared, arrivals, admits⟩ := accepted.frontier_admitted values opened declares
    (nodup_of_strict valid.ledger.canonical) (valid.nonempty live)
  obtain ⟨evaluation, evaluated, clear, -⟩ :=
    (routingEvaluation_admitted live arrivals).mpr ⟨declared, admits⟩
  rw [frontierAdmissionError, evaluated, ok_bind, clear]
  rfl

/-- Live routing and snapshot admission agree in the runs of an accepted definition. Every open
frontier is admitted, whatever has settled in it. A valid state with the ledger of a settled frontier
of the superstep before is admitted only as the frontier that the resolved control opens. -/
theorem admission_exact [DecidableEq τ] {definition : GraphDefinition τ} {graph : CompiledGraph τ}
    {nestedGraphs : Dict GraphNodeId (CompiledGraph τ)}
    (compiles : Compiles definition nestedGraphs graph) :
    (∀ state, Opened graph state → ValidRun state → state.status ≠ .completed →
      DeclaresRoutes graph state → frontierAdmissionError graph state = .ok none) ∧
    ∀ previous control next, ControlRun graph previous → ResolvesTo graph previous control →
      NextLedger previous next → ValidRun next → next.status ≠ .completed →
      frontierAdmissionError graph next = .ok none →
      Follows previous control next ∧ DeclaresRoutes graph next := by
  obtain ⟨entries, routes, dataDependencies, plan, planned, values⟩ := compiles.planned_values
  obtain ⟨requirements, guarantees, accepted⟩ := compiles.accepted_plan planned
  constructor
  · intro state opened valid live declares
    exact accepted.opened_admitted values opened valid live declares
  · intro previous control next run resolves ledger valid live admitted
    have later : next.superstep ≠ 0 := by
      have superstep := ledger.superstep
      omega
    obtain ⟨declared, arrivals, admits⟩ :=
      (frontierAdmissionError_eq_none live later).mp admitted
    exact ⟨accepted.admitted_follows run resolves ledger valid admits,
      declaresRoutes_of_ledger admits.ledger valid.ledger live⟩

theorem valueSecond_valid : ValidRun valueSecond :=
  (validateGraphRunState_eq_ok _ ()).mp (by decide +kernel)

/-- The producer again, in the place of the consumer. -/
def valueRepeated : GraphRunState :=
  { valueSecond with frontier := ⟨[⟨"a", .pending .useStepRequestInput,
    .routed ⟨[activationReference "run" 0 "a" none], none⟩⟩]⟩ }

theorem valueRepeated_ledger : NextLedger valueFirst valueRepeated := by
  refine ⟨rfl, rfl, ?_⟩
  intro reference
  simp [valueFirst, valueSecond, valueRepeated, GraphRunState.settledReferences,
    frontierPublications, routingContributions]

/-- The frontier of the consumer is admitted, and no other frontier with its ledger is. -/
theorem valueSecond_admitted :
    frontierAdmissionError (compiledGraph valueDefinition) valueSecond = .ok none ∧
      frontierAdmissionError (compiledGraph valueDefinition) valueRepeated ≠ .ok none := by
  constructor
  · apply (admission_exact valueDefinition_compiles).1 _ valueSecond_opened valueSecond_valid
    · exact fun completed => nomatch completed
    · intro node inside routing settled
      obtain rfl := List.mem_singleton.mp inside
      cases settled
  · intro admitted
    have follows := ((admission_exact valueDefinition_compiles).2 valueFirst valueControl
      valueRepeated valueFirst_run valueFirst_resolves valueRepeated_ledger
      ((validateGraphRunState_eq_ok _ ()).mp (by decide +kernel))
      (fun completed => nomatch completed) admitted).1
    exact absurd follows.opens (by decide)

end MoteKernel
