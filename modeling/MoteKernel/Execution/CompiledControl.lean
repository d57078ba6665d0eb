import MoteKernel.Execution.CompilerLoops
import MoteKernel.Execution.ControlRuns
import MoteKernel.Execution.DefinitionValidation

/-!
# The control plan of an accepted definition

What the edges of a valid definition become in the compiled tables, and the
control analyses an accepted definition has passed. The tables are well formed
for the frontier proof, and the compiled graph carries them.
-/

namespace MoteKernel
open Checked Canonical Digraph

variable {τ : Type}

/-! ## Dictionaries of pairs -/

theorem get?_foldl_set {κ ν : Type} [DecidableEq κ] (pairs : List (κ × ν)) (d : Dict κ ν) (key : κ) :
    (pairs.foldl (fun d pair => d.set pair.1 pair.2) d).get? key =
      ((pairs.reverse.find? (fun pair => pair.1 = key)).map Prod.snd).or (d.get? key) := by
  induction pairs generalizing d with
  | nil => simp
  | cons pair pairs ih =>
      rw [List.foldl_cons, ih, List.reverse_cons, List.find?_append]
      cases found : pairs.reverse.find? (fun pair => pair.1 = key) with
      | some other => simp
      | none =>
          by_cases same : pair.1 = key
          · simp [same, Dict.get?_set]
          · simp [same, Dict.get?_set, Ne.symm same]

/-- `dict(pairs)` holds one of the pairs for each of their keys. -/
theorem dictOf_eq_some {κ ν : Type} [DecidableEq κ] {pairs : List (κ × ν)} {key : κ} {value : ν}
    (found : (dictOf pairs).get? key = some value) : (key, value) ∈ pairs := by
  rw [dictOf, get?_foldl_set] at found
  cases first : pairs.reverse.find? (fun pair => pair.1 = key) with
  | none =>
      rw [first] at found
      cases found
  | some pair =>
      rw [first] at found
      have same : pair.1 = key := by simpa using List.find?_some first
      have member := List.mem_reverse.mp (List.mem_of_find?_eq_some first)
      simp only [Option.map_some, Option.some_or, Option.some.injEq] at found
      rw [← same, ← found]
      exact member

/-- `dict(pairs)` with distinct keys holds exactly the pairs. -/
theorem dictOf_get? {κ ν : Type} [DecidableEq κ] {pairs : List (κ × ν)}
    (distinct : (pairs.map Prod.fst).Nodup) {key : κ} {value : ν} :
    (dictOf pairs).get? key = some value ↔ (key, value) ∈ pairs := by
  refine ⟨dictOf_eq_some, fun member => ?_⟩
  rw [dictOf, get?_foldl_set]
  cases first : pairs.reverse.find? (fun pair => pair.1 = key) with
  | none =>
      have absent := List.find?_eq_none.mp first (key, value) (List.mem_reverse.mpr member)
      simp at absent
  | some pair =>
      have same : pair.1 = key := by simpa using List.find?_some first
      have inside := List.mem_reverse.mp (List.mem_of_find?_eq_some first)
      have equal := List.inj_on_of_nodup_map distinct inside member same
      rw [equal]
      rfl

theorem mem_dictOf_keys {κ ν : Type} [DecidableEq κ] {pairs : List (κ × ν)} {key : κ} :
    key ∈ (dictOf pairs).keys ↔ key ∈ pairs.map Prod.fst := by
  rw [Dict.mem_keys]
  constructor
  · rintro ⟨value, found⟩
    exact List.mem_map.mpr ⟨_, dictOf_eq_some found, rfl⟩
  · intro member
    obtain ⟨pair, inside, rfl⟩ := List.mem_map.mp member
    rw [dictOf]
    simp only [get?_foldl_set]
    cases first : pairs.reverse.find? (fun other => other.1 = pair.1) with
    | none =>
        have absent := List.find?_eq_none.mp first pair (List.mem_reverse.mpr inside)
        simp at absent
    | some other => exact ⟨other.2, rfl⟩

/-! ## The relations of the edges -/

section Edges

variable {nodeIds : List GraphNodeId} {edges : List Edge} {node target : GraphNodeId}

theorem mem_collectDirectTargets :
    target ∈ collectDirectTargets edges node ↔ .direct node target ∈ edges ∧ target ≠ END := by
  rw [collectDirectTargets, mem_sortedSet, List.mem_filterMap]
  constructor
  · rintro ⟨edge, member, found⟩
    cases edge with
    | direct source other =>
        simp only [Option.ite_none_right_eq_some, Option.some.injEq] at found
        obtain ⟨⟨rfl, inner⟩, rfl⟩ := found
        exact ⟨member, inner⟩
    | conditional source route other => cases found
    | join sources other => cases found
  · rintro ⟨member, inner⟩
    exact ⟨.direct node target, member, by simp [inner]⟩

/-- The conditional edges of a node, as pairs. -/
def conditionalPairs (edges : List Edge) (node : GraphNodeId) : List (GraphRouteId × GraphNodeId) :=
  edges.filterMap (fun edge =>
    match edge with
    | .conditional source route target => if source = node then some (route, target) else none
    | _ => none)

theorem mem_conditionalPairs {route : GraphRouteId} :
    (route, target) ∈ conditionalPairs edges node ↔ .conditional node route target ∈ edges := by
  rw [conditionalPairs, List.mem_filterMap]
  constructor
  · rintro ⟨edge, member, found⟩
    cases edge with
    | direct source other => cases found
    | conditional source name other =>
        simp only [Option.ite_none_right_eq_some, Option.some.injEq, Prod.mk.injEq] at found
        obtain ⟨rfl, rfl, rfl⟩ := found
        exact member
    | join sources other => cases found
  · intro member
    exact ⟨.conditional node route target, member, by simp⟩

theorem conditionalPairs_nodup (valid : ValidEdges nodeIds edges) (node : GraphNodeId) :
    ((conditionalPairs edges node).map Prod.fst).Nodup := by
  unfold conditionalPairs
  rw [List.nodup_iff_pairwise_ne, List.pairwise_map]
  refine List.Pairwise.filterMap _ ?_ valid.apart
  intro a b apart pair found pair' found' same
  cases a with
  | direct source other => cases found
  | join sources other => cases found
  | conditional source name other =>
      cases b with
      | direct source' other' => cases found'
      | join sources' other' => cases found'
      | conditional source' name' other' =>
          simp only [Option.ite_none_right_eq_some, Option.some.injEq] at found found'
          obtain ⟨rfl, rfl⟩ := found
          obtain ⟨rfl, rfl⟩ := found'
          exact apart ⟨rfl, same.symm⟩

theorem mem_collectConditionalTargets (valid : ValidEdges nodeIds edges) {route : GraphRouteId} :
    (route, target) ∈ (collectConditionalTargets edges node).items ↔
      .conditional node route target ∈ edges := by
  rw [← Dict.get?_eq_some, ← mem_conditionalPairs]
  exact dictOf_get? (conditionalPairs_nodup valid node)

theorem mem_collectJoins {join : JoinEdge} : join ∈ collectJoins edges ↔
    ∃ sources target, .join sources target ∈ edges ∧ join = ⟨sorted sources, target⟩ := by
  rw [collectJoins, List.mem_filterMap]
  constructor
  · rintro ⟨edge, member, found⟩
    cases edge with
    | direct source other => cases found
    | conditional source name other => cases found
    | join sources other => exact ⟨sources, other, member, (Option.some.inj found).symm⟩
  · rintro ⟨sources, other, member, rfl⟩
    exact ⟨.join sources other, member, rfl⟩

theorem mem_collectActivationGates {gate : RawActivationGate} :
    gate ∈ collectActivationGates edges node ↔
      node ≠ END ∧ ∃ edge ∈ edges, edge.target = node ∧ gate = edge.gate := by
  simp only [collectActivationGates, List.mem_map, List.mem_filter, decide_eq_true_eq]
  constructor
  · rintro ⟨edge, ⟨member, same, inner⟩, rfl⟩
    exact ⟨inner, edge, member, same, rfl⟩
  · rintro ⟨inner, edge, member, same, rfl⟩
    exact ⟨edge, ⟨member, same, inner⟩, rfl⟩

/-- The control successors of a node in the edges. -/
def edgeSuccessors (edges : List Edge) : Successors :=
  joinedSuccessors (staticSuccessors (collectDirectTargets edges) (collectConditionalTargets edges))
    (collectJoins edges)

/-- The sources of an edge. -/
def Edge.sources : Edge → List GraphNodeId
  | .direct source _ => [source]
  | .conditional source _ _ => [source]
  | .join sources _ => sources

theorem Edge.mem_gate {edge : Edge} {source : GraphNodeId} :
    (∃ pair ∈ edge.gate, pair.1 = source) ↔ source ∈ edge.sources := by
  cases edge <;> simp [Edge.gate, Edge.sources, eq_comm]

/-- A successor is the target of an edge from the node. -/
theorem mem_edgeSuccessors (valid : ValidEdges nodeIds edges) :
    target ∈ edgeSuccessors edges node ↔
      target ≠ END ∧ ∃ edge ∈ edges, edge.target = target ∧ node ∈ edge.sources := by
  simp only [edgeSuccessors, joinedSuccessors, staticSuccessors, mem_sortedSet, List.mem_append,
    List.mem_map, List.mem_filter, decide_eq_true_eq, mem_collectDirectTargets, Dict.values]
  constructor
  · rintro ((⟨direct, inner⟩ | ⟨⟨⟨route, other⟩, member, rfl⟩, inner⟩) |
      ⟨join, ⟨member, inner, inside⟩, rfl⟩)
    · exact ⟨inner, _, direct, rfl, by simp [Edge.sources]⟩
    · exact ⟨inner, _, (mem_collectConditionalTargets valid).mp member, rfl,
        by simp [Edge.sources]⟩
    · obtain ⟨sources, other, edge, rfl⟩ := mem_collectJoins.mp member
      exact ⟨inner, _, edge, rfl, mem_sorted.mp inside⟩
  · rintro ⟨inner, edge, member, rfl, inside⟩
    cases edge with
    | direct source other =>
        rw [Edge.sources, List.mem_singleton] at inside
        subst inside
        exact .inl (.inl ⟨member, inner⟩)
    | conditional source route other =>
        rw [Edge.sources, List.mem_singleton] at inside
        subst inside
        exact .inl (.inr ⟨⟨(route, other), (mem_collectConditionalTargets valid).mpr member, rfl⟩,
          inner⟩)
    | join sources other =>
        exact .inr ⟨⟨sorted sources, other⟩, ⟨mem_collectJoins.mpr ⟨sources, other, member, rfl⟩,
          inner, mem_sorted.mpr inside⟩, rfl⟩

theorem ValidEdges.target_known (valid : ValidEdges nodeIds edges) {edge : Edge}
    (member : edge ∈ edges) : KnownTarget nodeIds edge.target := by
  have known := valid.known edge member
  cases edge with
  | direct source other => exact known.2
  | conditional source route other => exact known.2
  | join sources other => exact known.2.2.2.1

theorem ValidEdges.sources_known (valid : ValidEdges nodeIds edges) {edge : Edge}
    (member : edge ∈ edges) : edge.sources ⊆ nodeIds := by
  have known := valid.known edge member
  cases edge with
  | direct source other => simpa [Edge.sources] using known.1
  | conditional source route other => simpa [Edge.sources] using known.1
  | join sources other => exact known.2.2.1

theorem edgeSuccessors_closed (valid : ValidEdges nodeIds edges) :
    ClosedOn nodeIds (edgeSuccessors edges) := by
  intro node _ next member
  obtain ⟨inner, edge, inside, rfl, -⟩ := (mem_edgeSuccessors valid).mp member
  exact (valid.target_known inside).resolve_left inner

/-- The source of a gate precedes the node it activates. -/
theorem gate_edges (valid : ValidEdges nodeIds edges) {gate : RawActivationGate}
    (member : gate ∈ collectActivationGates edges node) {pair : GraphNodeId × Option GraphRouteId}
    (inside : pair ∈ gate) : pair.1 ∈ nodeIds ∧ node ∈ edgeSuccessors edges pair.1 := by
  obtain ⟨inner, edge, edgeMember, rfl, rfl⟩ := mem_collectActivationGates.mp member
  have source := Edge.mem_gate.mp ⟨pair, inside, rfl⟩
  exact ⟨valid.sources_known edgeMember source,
    (mem_edgeSuccessors valid).mpr ⟨inner, edge, edgeMember, rfl, source⟩⟩

end Edges

/-! ## Accepted definitions -/

/-- The control relations of the edges. -/
def controlTopology (edges : List Edge) (routeOptions : Dict GraphNodeId (List Route)) :
    ControlTopology :=
  ⟨collectDirectTargets edges, collectConditionalTargets edges, collectActivationGates edges,
    collectGatesToEnd edges, collectJoins edges, routeOptions⟩

/-- The nodes of a definition, in order. -/
def nodeIdsOf (definition : GraphDefinition τ) : List GraphNodeId :=
  sorted (compiledNodes definition).keys

/-- The control analyses that a plan has passed. -/
structure Analysed (nodeIds entries : List GraphNodeId) (edges : List Edge)
    (routeOptions : Dict GraphNodeId (List Route)) (dataDependencies : DataDependencies)
    (requirements : Dict GraphNodeId RouteRequirementProof)
    (guarantees : Dict GraphNodeId (List GraphNodeId)) (plan : ControlPlan) : Prop where
  required : validateJointActivationPaths nodeIds entries (collectActivationGates edges)
    dataDependencies (collectConditionalTargets edges) (edgeSuccessors edges) = .ok requirements
  guaranteed : guaranteedSets nodeIds entries (collectActivationGates edges) = .ok guarantees
  produced : ∀ target ∈ nodeIds, ∀ source ∈ dataDependencies target,
    source ∈ guarantees.getItem target
  successors : plan.successors = edgeSuccessors edges
  terminals : plan.terminalGates =
    terminalGates nodeIds (collectGatesToEnd edges) (edgeSuccessors edges)
  completed : terminalGuarantees guarantees plan.terminalGates = .ok plan.terminalGuarantees
  levels : absoluteActivationLevels nodeIds entries (edgeSuccessors edges) = .ok plan.absoluteLevels
  joins : compileJoinOccurrencePlans nodeIds entries (collectJoins edges)
    (collectActivationGates edges) (edgeSuccessors edges) requirements
    (collectConditionalTargets edges) plan.absoluteLevels = .ok plan.joins
  proved : (frontierRelation nodeIds entries (controlTopology edges routeOptions)
    plan.joins).completionRoutes = .ok plan.completionRoutes

theorem planControl_eq_ok {nodeIds entries : List GraphNodeId} {edges : List Edge}
    {routeOptions : Dict GraphNodeId (List Route)} {dataDependencies : DataDependencies}
    {plan : ControlPlan} (planned : planControl nodeIds entries (controlTopology edges routeOptions)
      dataDependencies = .ok plan) :
    ∃ requirements guarantees,
      Analysed nodeIds entries edges routeOptions dataDependencies requirements guarantees plan := by
  simp only [planControl, bind_eq_ok, checkAll_eq_ok, raiseIf_eq_ok, rethrow_eq_ok, pure_eq_ok,
    Except.ok.injEq] at planned
  obtain ⟨reached, -, _, -, _, -, requirements, required, guarantees, guaranteed, _, produced, _,
    -, completion, completed, levels, leveled, joins, joined, routes, proved, rfl⟩ := planned
  refine ⟨requirements, guarantees, ⟨required, guaranteed, ?_, rfl, rfl, completed, leveled, joined,
    proved⟩⟩
  intro target known source member
  have none := produced target known
  simp only [checkGuarantees, raiseIf_eq_ok, ne_eq, not_not, List.filter_eq_nil_iff,
    decide_eq_true_eq] at none
  exact none source member

/-- The compiler accepts a definition: it is valid, its nested graphs have plans, and its own plan
is the graph. -/
structure Compiles [DecidableEq τ] (definition : GraphDefinition τ)
    (nestedGraphs : Dict GraphNodeId (CompiledGraph τ)) (graph : CompiledGraph τ) : Prop where
  valid : validateDefinition definition = .ok ()
  nested : ∀ nodeId child inputs, .nested nodeId child inputs ∈ definition.nodes →
    ∃ plans plan, nestedGraphs.get? nodeId = some plan ∧ compileDefinition child plans = .ok plan
  compiled : compileDefinition definition nestedGraphs = .ok graph

/-- A valid definition with its nested plans, its declared routes and its entries. -/
structure Lowered [DecidableEq τ] (definition : GraphDefinition τ)
    (nestedGraphs : Dict GraphNodeId (CompiledGraph τ)) (entries : List GraphNodeId)
    (routes : List (GraphNodeId × List Route)) (dataDependencies : DataDependencies) : Prop where
  valid : ValidDefinition definition
  nested : ∀ nodeId child inputs, .nested nodeId child inputs ∈ definition.nodes →
    ∃ plans plan, nestedGraphs.get? nodeId = some plan ∧ compileDefinition child plans = .ok plan
  collected : (compiledNodes definition).items.mapM
    (collectRouteOptions nestedGraphs definition.edges) = .ok routes
  resolved : resolveEntries (nodeIdsOf definition) definition.entries dataDependencies
    (collectActivationGates definition.edges) = .ok entries

/-- The control half of an accepted definition. -/
structure Planned (definition : GraphDefinition τ)
    (nestedGraphs : Dict GraphNodeId (CompiledGraph τ)) (graph : CompiledGraph τ)
    (entries : List GraphNodeId) (routes : List (GraphNodeId × List Route))
    (dataDependencies : DataDependencies) (plan : ControlPlan) : Prop where
  nodes : graph.nodes = (compiledNodes definition).frozen
  collected : (compiledNodes definition).items.mapM
    (collectRouteOptions nestedGraphs definition.edges) = .ok routes
  resolved : resolveEntries (nodeIdsOf definition) definition.entries dataDependencies
    (collectActivationGates definition.edges) = .ok entries
  planned : planControl (nodeIdsOf definition) entries
    (controlTopology definition.edges (dictOf routes)) dataDependencies = .ok plan
  graphEntries : graph.transition.entries = entries
  direct : graph.transition.directTargets =
    Dict.build (nodeIdsOf definition) (collectDirectTargets definition.edges)
  conditional : graph.transition.conditionalTargets = Dict.build (nodeIdsOf definition)
    (fun node => (collectConditionalTargets definition.edges node).frozen)
  options : graph.transition.routeOptions = (dictOf routes).frozen
  joins : graph.transition.joinsBySource = Dict.build (nodeIdsOf definition)
    (fun node => (joinsFrom plan.joins node).insertionSort
      (fun a b => joinSortKey a ≤ joinSortKey b))
  completionRoutes : graph.completionRoutes = plan.completionRoutes

theorem compileDefinition_planned [DecidableEq τ] {definition : GraphDefinition τ}
    {nestedGraphs : Dict GraphNodeId (CompiledGraph τ)} {graph : CompiledGraph τ}
    (compiled : compileDefinition definition nestedGraphs = .ok graph) :
    ∃ entries routes dataDependencies plan,
      Planned definition nestedGraphs graph entries routes dataDependencies plan := by
  simp only [compileDefinition, collectControlTopology, bind_eq_ok, pure_eq_ok, Except.ok.injEq,
    exists_exists_and_eq_and] at compiled
  obtain ⟨graphInputs, -, declared, -, routes, collected, entries, resolved, completed, -, plan,
    planned, graphOutputs, -, materializations, -, rfl⟩ := compiled
  exact ⟨entries, routes, _, plan,
    { nodes := rfl, collected := collected, resolved := resolved, planned := planned
      graphEntries := rfl, direct := rfl, conditional := rfl, options := rfl, joins := rfl
      completionRoutes := rfl }⟩

/-! ## The nodes and their routes -/

theorem completionRoutes_ne_nil [DecidableEq τ] {definition : GraphDefinition τ}
    {nestedGraphs : Dict GraphNodeId (CompiledGraph τ)} {graph : CompiledGraph τ}
    (compiled : compileDefinition definition nestedGraphs = .ok graph) :
    graph.completionRoutes ≠ [] := by
  obtain ⟨entries, routes, dataDependencies, plan, planned⟩ := compileDefinition_planned compiled
  obtain ⟨requirements, guarantees, analysed⟩ := planControl_eq_ok planned.planned
  have proved := analysed.proved
  simp only [FrontierRelation.completionRoutes, bind_unit_eq_ok, raiseIf_eq_ok, pure_eq_ok,
    Except.ok.injEq] at proved
  obtain ⟨-, -, exposed, same⟩ := proved
  rw [planned.completionRoutes, ← same]
  exact exposed

theorem mem_nodeIdsOf {definition : GraphDefinition τ} {node : GraphNodeId} :
    node ∈ nodeIdsOf definition ↔ node ∈ definition.nodes.map GraphNode.nodeId := by
  rw [nodeIdsOf, mem_sorted, compiledNodes, mem_dictOf_keys, List.map_map]
  rfl

theorem nodeIdsOf_nodup (definition : GraphDefinition τ) : (nodeIdsOf definition).Nodup :=
  (perm_sorted _).nodup_iff.mpr (compiledNodes definition).distinct

/-- The edges of a valid definition are valid over its sorted nodes. -/
theorem ValidDefinition.sorted_edges {definition : GraphDefinition τ}
    (valid : ValidDefinition definition) : ValidEdges (nodeIdsOf definition) definition.edges := by
  refine ⟨?_, valid.edges.apart⟩
  have target : ∀ node, KnownTarget (definition.nodes.map GraphNode.nodeId) node →
      KnownTarget (nodeIdsOf definition) node := fun node => Or.imp_right mem_nodeIdsOf.mpr
  intro edge member
  have known := valid.edges.known edge member
  cases edge with
  | direct source other => exact ⟨mem_nodeIdsOf.mpr known.1, target _ known.2⟩
  | conditional source route other => exact ⟨mem_nodeIdsOf.mpr known.1, target _ known.2⟩
  | join sources other =>
      exact ⟨known.1, known.2.1, fun source inside => mem_nodeIdsOf.mpr (known.2.2.1 inside),
        target _ known.2.2.2.1, known.2.2.2.2⟩

section Routes

variable [DecidableEq τ] {definition : GraphDefinition τ}
  {nestedGraphs : Dict GraphNodeId (CompiledGraph τ)} {graph : CompiledGraph τ}
  {entries : List GraphNodeId} {routes : List (GraphNodeId × List Route)}
  {dataDependencies : DataDependencies} {plan : ControlPlan}

theorem Planned.lowered (compiles : Compiles definition nestedGraphs graph)
    (planned : Planned definition nestedGraphs graph entries routes dataDependencies plan) :
    Lowered definition nestedGraphs entries routes dataDependencies :=
  ⟨validateDefinition_eq_ok compiles.valid, compiles.nested, planned.collected, planned.resolved⟩

theorem Lowered.routes_keys
    (lowered : Lowered definition nestedGraphs entries routes dataDependencies) :
    routes.map Prod.fst = (compiledNodes definition).keys := by
  have related := (mapM_eq_ok _ _ _).mp lowered.collected
  have named : List.Forall₂ (fun x y => x.1 = y.1) (compiledNodes definition).items routes := by
    refine related.imp ?_
    intro item pair collected
    simp only [collectRouteOptions, bind_eq_ok, pure_eq_ok, Except.ok.injEq] at collected
    obtain ⟨-, -, rfl⟩ := collected
    rfl
  have mapped : List.Forall₂ Eq ((compiledNodes definition).items.map Prod.fst)
      (routes.map Prod.fst) :=
    List.forall₂_map_left_iff.mpr (List.forall₂_map_right_iff.mpr named)
  exact (List.forall₂_eq_eq_eq ▸ mapped).symm

/-- The declared routes of a node. -/
theorem Lowered.options_eq
    (lowered : Lowered definition nestedGraphs entries routes dataDependencies)
    {node : GraphNodeId} (known : node ∈ nodeIdsOf definition) :
    ∃ item ∈ (compiledNodes definition).items, item.1 = node ∧ (dictOf routes).getItem node =
      routeOptionsOf (collectConditionalTargets definition.edges node).keys
        (decide (collectDirectTargets definition.edges node ≠ [] ∨
          ∃ join ∈ collectJoins definition.edges, node ∈ join.sources))
        (terminalDomain nestedGraphs item.2) := by
  rw [nodeIdsOf, mem_sorted] at known
  obtain ⟨item, member, rfl⟩ := List.mem_map.mp known
  obtain ⟨pair, inside, collected⟩ :=
    forall₂_mem_left ((mapM_eq_ok _ _ _).mp lowered.collected) member
  simp only [collectRouteOptions, bind_eq_ok, pure_eq_ok, Except.ok.injEq] at collected
  obtain ⟨-, -, rfl⟩ := collected
  refine ⟨item, member, rfl, ?_⟩
  have distinct : (routes.map Prod.fst).Nodup := by
    rw [lowered.routes_keys]
    exact (compiledNodes definition).distinct
  rw [Dict.getItem, (dictOf_get? distinct).mpr inside, Option.getD_some]

theorem mem_routes_keys
    (lowered : Lowered definition nestedGraphs entries routes dataDependencies)
    {node : GraphNodeId} : node ∈ (dictOf routes).keys ↔ node ∈ nodeIdsOf definition := by
  rw [mem_dictOf_keys, lowered.routes_keys, nodeIdsOf, mem_sorted]

/-- The route domain of a node is never empty. -/
theorem Lowered.terminalDomain_ne_nil
    (lowered : Lowered definition nestedGraphs entries routes dataDependencies)
    {item : GraphNodeId × GraphNode τ (GraphDefinition τ)}
    (member : item ∈ (compiledNodes definition).items) :
    terminalDomain nestedGraphs item.2 ≠ [] := by
  obtain ⟨key, definitionNode⟩ := item
  have found := dictOf_eq_some ((Dict.get?_eq_some _ _ _).mpr member)
  obtain ⟨node, inside, same⟩ := List.mem_map.mp found
  cases node with
  | callable callable =>
      cases same
      simp only [orderResources, terminalDomain]
      split
      · simp
      · rename_i exported
        simpa using exported
  | nested nodeId child inputs =>
      cases same
      obtain ⟨plans, childPlan, planFound, childCompiled⟩ := lowered.nested nodeId child inputs inside
      simp only [orderResources, terminalDomain, planFound, Option.map_some, Option.getD_some]
      exact completionRoutes_ne_nil childCompiled

end Routes

theorem routeOptionsOf_nodup {conditional : List GraphRouteId} (distinct : conditional.Nodup)
    (continues : Bool) (terminal : List Route) :
    (routeOptionsOf conditional continues terminal).Nodup := by
  unfold routeOptionsOf
  split
  · exact ((perm_sorted _).nodup_iff.mpr distinct).map (Option.some_injective _)
  · split
    · exact List.nodup_singleton _
    · exact (List.perm_insertionSort _ _).nodup_iff.mpr (List.nodup_dedup _)

theorem routeOptionsOf_ne_nil (conditional : List GraphRouteId) (continues : Bool)
    {terminal : List Route} (nonempty : terminal ≠ []) :
    routeOptionsOf conditional continues terminal ≠ [] := by
  unfold routeOptionsOf
  split
  · rename_i several
    intro none
    rw [List.map_eq_nil_iff] at none
    have perm := perm_sorted conditional
    rw [none] at perm
    exact several perm.nil_eq.symm
  · split
    · simp
    · intro none
      obtain ⟨route, member⟩ := List.exists_mem_of_ne_nil _ nonempty
      have inside : route ∈ terminal.dedup.insertionSort
          (fun a b => routeSortKey a ≤ routeSortKey b) := by
        rw [List.mem_insertionSort]
        exact List.mem_dedup.mpr member
      rw [none] at inside
      cases inside

/-! ## The compiled Joins -/

section Joins

variable {nodeIds entries : List GraphNodeId} {edges : List Edge} {gates : ActivationGates}
  {successors : Successors} {requirements : Dict GraphNodeId RouteRequirementProof}
  {conditionalTargets : ConditionalTargets} {absoluteLevels : GraphNodeId → Option Nat}
  {repeatable : List GraphNodeId}

theorem makeCompiledJoin_eq_ok {identity : GraphJoinIdentity} {offsets : List (GraphNodeId × Nat)}
    {join : CompiledJoin} (made : makeCompiledJoin identity offsets = .ok join) :
    join.identity = identity ∧ join.sourceTargetOffsets = offsets := by
  unfold makeCompiledJoin at made
  split at made
  · split at made
    · cases made
      exact ⟨rfl, rfl⟩
    · cases made
  · cases made

/-- The plan of a Join edge: its identity, and the offsets computed for it. -/
theorem compileJoin_eq_ok {edge : JoinEdge} {join : CompiledJoin}
    (compiled : compileJoin entries gates requirements conditionalTargets absoluteLevels repeatable
      edge = .ok join) :
    join.identity = ⟨edge.sources, edge.target⟩ ∧
      gateRouteRequirements requirements conditionalTargets
        (edge.sources.map (fun source => (source, none))) ≠ none ∧
      joinOffsets entries gates requirements conditionalTargets absoluteLevels repeatable edge =
        .ok join.sourceTargetOffsets := by
  simp only [compileJoin, raiseIf_eq_ok, bind_eq_ok] at compiled
  obtain ⟨_, compatible, offsets, computed, made⟩ := compiled
  obtain ⟨identity, same⟩ := makeCompiledJoin_eq_ok made
  exact ⟨identity, compatible, by rw [same]; exact computed⟩

/-- Every compiled Join is the plan of a Join edge, and every Join edge has its plan. -/
theorem compileJoinOccurrencePlans_eq_ok {joinEdges : List JoinEdge} {joins : List CompiledJoin}
    (compiled : compileJoinOccurrencePlans nodeIds entries joinEdges gates successors requirements
      conditionalTargets absoluteLevels = .ok joins) :
    ∃ repeatable, repeatableNodes nodeIds entries gates successors = .ok repeatable ∧
      List.Forall₂ (fun edge join => compileJoin entries gates requirements conditionalTargets
        absoluteLevels repeatable edge = .ok join) joinEdges joins := by
  simp only [compileJoinOccurrencePlans, bind_eq_ok] at compiled
  obtain ⟨repeatable, repeats, mapped⟩ := compiled
  exact ⟨repeatable, repeats, (mapM_eq_ok _ _ _).mp mapped⟩

theorem compiledJoins_identity {joinEdges : List JoinEdge} {joins : List CompiledJoin}
    (related : List.Forall₂ (fun edge join => compileJoin entries gates requirements
      conditionalTargets absoluteLevels repeatable edge = .ok join) joinEdges joins) :
    joins.map CompiledJoin.identity =
      joinEdges.map (fun edge => GraphJoinIdentity.mk edge.sources edge.target) := by
  have named : List.Forall₂ Eq (joins.map CompiledJoin.identity)
      (joinEdges.map (fun edge => GraphJoinIdentity.mk edge.sources edge.target)) := by
    rw [List.forall₂_map_left_iff, List.forall₂_map_right_iff]
    exact related.flip.imp (fun _ _ compiled => (compileJoin_eq_ok compiled).1)
  exact List.forall₂_eq_eq_eq ▸ named

/-- Valid Join edges have distinct identities. -/
theorem collectJoins_nodup (valid : ValidEdges nodeIds edges) :
    ((collectJoins edges).map (fun edge => GraphJoinIdentity.mk edge.sources edge.target)).Nodup := by
  unfold collectJoins
  rw [List.nodup_iff_pairwise_ne, List.pairwise_map]
  refine List.Pairwise.filterMap _ ?_ (valid.apart.imp_of_mem (S := fun a b =>
    ¬ a.Clashes b ∧ a.Known nodeIds ∧ b.Known nodeIds) ?_)
  · rintro a b ⟨apart, knownA, knownB⟩ join found join' found' same
    cases a with
    | direct source other => cases found
    | conditional source name other => cases found
    | join sources other =>
        cases b with
        | direct source' other' => cases found'
        | conditional source' name' other' => cases found'
        | join sources' other' =>
            obtain rfl := Option.some.inj found
            obtain rfl := Option.some.inj found'
            apply apart
            simp only [GraphJoinIdentity.mk.injEq] at same
            refine ⟨?_, same.2.symm⟩
            rw [sortedSet, sortedSet, knownA.2.1.dedup, knownB.2.1.dedup]
            exact same.1.symm
  · intro a b memberA memberB apart
    exact ⟨apart, valid.known a memberA, valid.known b memberB⟩

end Joins

/-! ## Well-formed tables -/

theorem resolveEntries_eq_ok {nodeIds declared entries : List GraphNodeId}
    {dataDependencies : DataDependencies} {gates : ActivationGates}
    (resolved : resolveEntries nodeIds declared dataDependencies gates = .ok entries) :
    entries ≠ [] ∧ entries = sorted (sorted declared ++ nodeIds.filter (fun node =>
      node ∉ sorted declared ∧ dataDependencies node = [] ∧ gates node = [])) := by
  simp only [resolveEntries, bind_eq_ok, raiseIf_eq_ok, pure_eq_ok, Except.ok.injEq] at resolved
  obtain ⟨_, -, _, -, _, nonempty, rfl⟩ := resolved
  exact ⟨nonempty, rfl⟩

theorem entries_nodup {nodeIds declared entries : List GraphNodeId}
    {dataDependencies : DataDependencies} {gates : ActivationGates} (distinct : nodeIds.Nodup)
    (once : declared.Nodup)
    (resolved : resolveEntries nodeIds declared dataDependencies gates = .ok entries) :
    entries.Nodup := by
  obtain ⟨-, rfl⟩ := resolveEntries_eq_ok resolved
  refine (perm_sorted _).nodup_iff.mpr (List.nodup_append.mpr
    ⟨(perm_sorted _).nodup_iff.mpr once, distinct.filter _, ?_⟩)
  intro a explicit b automatic same
  have outside := (List.mem_filter.mp automatic).2
  rw [decide_eq_true_eq] at outside
  rw [same] at explicit
  exact outside.1 explicit

theorem entries_known {nodeIds declared entries : List GraphNodeId}
    {dataDependencies : DataDependencies} {gates : ActivationGates} (known : declared ⊆ nodeIds)
    (resolved : resolveEntries nodeIds declared dataDependencies gates = .ok entries) :
    entries ⊆ nodeIds := by
  obtain ⟨-, rfl⟩ := resolveEntries_eq_ok resolved
  intro node member
  rcases List.mem_append.mp (mem_sorted.mp member) with explicit | automatic
  · exact known (mem_sorted.mp explicit)
  · exact (List.mem_filter.mp automatic).1

section WellFormed

variable {definition : GraphDefinition τ} {nestedGraphs : Dict GraphNodeId (CompiledGraph τ)}
  {graph : CompiledGraph τ} {entries : List GraphNodeId}
  {routes : List (GraphNodeId × List Route)} {dataDependencies : DataDependencies}
  {plan : ControlPlan} {joins : List CompiledJoin}

/-! ## The tables of some edges -/

section Tables

variable {nodeIds : List GraphNodeId} {edges : List Edge}
  {routeOptions : Dict GraphNodeId (List Route)}

theorem build_direct (valid : ValidEdges nodeIds edges) (node : GraphNodeId) :
    (Dict.build nodeIds (collectDirectTargets edges)).getItem node =
      collectDirectTargets edges node := by
  by_cases known : node ∈ nodeIds
  · exact Dict.getItem_build known
  · have none : collectDirectTargets edges node = [] := by
      rw [List.eq_nil_iff_forall_not_mem]
      intro target member
      have edge := valid.known _ (mem_collectDirectTargets.mp member).1
      exact known edge.1
    rw [none, Dict.getItem, Dict.get?_build, if_neg known]
    rfl

theorem conditional_unknown (valid : ValidEdges nodeIds edges) {node : GraphNodeId}
    (unknown : node ∉ nodeIds) : (collectConditionalTargets edges node).items = [] := by
  rw [List.eq_nil_iff_forall_not_mem]
  rintro ⟨route, target⟩ member
  have edge := valid.known _ ((mem_collectConditionalTargets valid).mp member)
  exact unknown edge.1

theorem frontierRelation_direct (valid : ValidEdges nodeIds edges) (node : GraphNodeId) :
    (frontierRelation nodeIds entries (controlTopology edges routeOptions) joins).direct node =
      collectDirectTargets edges node := build_direct valid node

theorem frontierRelation_conditional (valid : ValidEdges nodeIds edges) (node : GraphNodeId) :
    (frontierRelation nodeIds entries (controlTopology edges routeOptions) joins).conditional node =
      collectConditionalTargets edges node := by
  by_cases known : node ∈ nodeIds
  · exact Dict.getItem_build known
  · show (Dict.build _ _).getItem node = _
    rw [Dict.getItem, Dict.get?_build, if_neg known]
    apply Dict.ext_items
    rw [conditional_unknown valid known]
    rfl

theorem frontierRelation_joinsBySource {node : GraphNodeId} {join : CompiledJoin} :
    join ∈ (frontierRelation nodeIds entries (controlTopology edges routeOptions)
        joins).joinsBySource.getItem node ↔
      node ∈ nodeIds ∧ join ∈ joins ∧ node ∈ join.identity.sources := by
  show join ∈ (Dict.build _ _).getItem node ↔ _
  rw [Dict.getItem, Dict.get?_build]
  by_cases known : node ∈ nodeIds
  · rw [if_pos known, Option.getD_some, joinsFrom, List.mem_filter, decide_eq_true_eq]
    simp [known]
  · rw [if_neg known]
    exact ⟨fun member => absurd member List.not_mem_nil, fun inside => absurd inside.1 known⟩

end Tables

/-- The tables the compiler hands to the frontier proof. -/
def planRelation (definition : GraphDefinition τ) (entries : List GraphNodeId)
    (routes : List (GraphNodeId × List Route)) (joins : List CompiledJoin) : FrontierRelation :=
  frontierRelation (nodeIdsOf definition) entries
    (controlTopology definition.edges (dictOf routes)) joins

theorem planRelation_direct (valid : ValidDefinition definition) (node : GraphNodeId) :
    (planRelation definition entries routes joins).direct node =
      collectDirectTargets definition.edges node := frontierRelation_direct valid.sorted_edges node

theorem planRelation_conditional (valid : ValidDefinition definition) (node : GraphNodeId) :
    (planRelation definition entries routes joins).conditional node =
      collectConditionalTargets definition.edges node :=
  frontierRelation_conditional valid.sorted_edges node

theorem planRelation_joins {node : GraphNodeId} {join : CompiledJoin} :
    join ∈ (planRelation definition entries routes joins).joinsBySource.getItem node ↔
      node ∈ nodeIdsOf definition ∧ join ∈ joins ∧ node ∈ join.identity.sources :=
  frontierRelation_joinsBySource

/-- What the Joins of an accepted definition are. -/
structure PlannedJoins (nodeIds : List GraphNodeId) (joins : List CompiledJoin) : Prop where
  distinct : (joins.map CompiledJoin.identity).Nodup
  sources : ∀ join ∈ joins, join.identity.sources.Nodup ∧ join.identity.sources ⊆ nodeIds ∧
    2 ≤ join.identity.sources.length
  target : ∀ join ∈ joins, KnownTarget nodeIds join.identity.target

/-- The Joins are plans of the Join edges. -/
def PlansJoins (nodeIds entries : List GraphNodeId) (edges : List Edge)
    (joins : List CompiledJoin) : Prop :=
  ∃ requirements absoluteLevels, compileJoinOccurrencePlans nodeIds entries (collectJoins edges)
    (collectActivationGates edges) (edgeSuccessors edges) requirements
    (collectConditionalTargets edges) absoluteLevels = .ok joins

theorem plannedJoins {nodeIds : List GraphNodeId} {edges : List Edge}
    (valid : ValidEdges nodeIds edges) (plans : PlansJoins nodeIds entries edges joins) :
    PlannedJoins nodeIds joins := by
  obtain ⟨requirements, absoluteLevels, compiled⟩ := plans
  obtain ⟨repeatable, -, related⟩ := compileJoinOccurrencePlans_eq_ok compiled
  have identities := compiledJoins_identity related
  have edge : ∀ join ∈ joins, ∃ sources target, .join sources target ∈ edges ∧
      join.identity = ⟨sorted sources, target⟩ := by
    intro join member
    have named : join.identity ∈ joins.map CompiledJoin.identity :=
      List.mem_map.mpr ⟨join, member, rfl⟩
    rw [identities] at named
    obtain ⟨joinEdge, inside, same⟩ := List.mem_map.mp named
    obtain ⟨sources, target, edge, rfl⟩ := mem_collectJoins.mp inside
    exact ⟨sources, target, edge, same.symm⟩
  refine ⟨?_, ?_, ?_⟩
  · rw [identities]
    exact collectJoins_nodup valid
  · intro join member
    obtain ⟨sources, target, inside, same⟩ := edge join member
    obtain ⟨several, distinct, known, -⟩ := valid.known _ inside
    rw [same]
    refine ⟨(perm_sorted _).nodup_iff.mpr distinct, ?_, ?_⟩
    · intro source sourceMember
      exact known (mem_sorted.mp sourceMember)
    · rw [(perm_sorted sources).length_eq]
      exact several
  · intro join member
    obtain ⟨sources, target, inside, same⟩ := edge join member
    rw [same]
    exact (valid.known _ inside).2.2.2.1

/-- The tables of an accepted definition are well formed. -/
theorem planRelation_wellFormed [DecidableEq τ]
    (lowered : Lowered definition nestedGraphs entries routes dataDependencies)
    (plans : PlansJoins (nodeIdsOf definition) entries definition.edges joins) :
    (planRelation definition entries routes joins).WellFormed := by
  have valid := lowered.valid
  have edges := valid.sorted_edges
  have joined := plannedJoins edges plans
  have known : ∀ node, node ∈ (planRelation definition entries routes joins).routeOptions.keys ↔
      node ∈ nodeIdsOf definition := fun node => mem_routes_keys lowered
  have target : ∀ node, KnownTarget (nodeIdsOf definition) node → node = END ∨
      node ∈ (planRelation definition entries routes joins).routeOptions.keys :=
    fun node => Or.imp_right (known node).mpr
  constructor
  · intro node member
    exact (known node).mpr (entries_known
      (fun _ inside => mem_nodeIdsOf.mpr (valid.entriesKnown inside)) lowered.resolved member)
  · exact entries_nodup (nodeIdsOf_nodup definition) valid.entries lowered.resolved
  · intro member
    exact valid.inner END (mem_nodeIdsOf.mp ((known END).mp member)) rfl
  · intro node
    rw [planRelation_direct valid]
    refine ⟨nodup_of_strict (sortedSet_strict _), ?_⟩
    intro other member
    obtain ⟨edge, inner⟩ := mem_collectDirectTargets.mp member
    exact (target other (edges.known _ edge).2).resolve_left inner
  · rintro node ⟨route, other⟩ member
    rw [planRelation_conditional valid, mem_collectConditionalTargets edges] at member
    exact target other (edges.known _ member).2
  · intro node member
    obtain ⟨item, inside, -, options⟩ := lowered.options_eq ((known node).mp member)
    rw [show (planRelation definition entries routes joins).options node = _ from options]
    exact ⟨routeOptionsOf_ne_nil _ _ (lowered.terminalDomain_ne_nil inside),
      routeOptionsOf_nodup (collectConditionalTargets definition.edges node).distinct _ _⟩
  · intro node member conditional
    obtain ⟨item, -, -, options⟩ := lowered.options_eq ((known node).mp member)
    rw [planRelation_conditional valid] at conditional ⊢
    rw [show (planRelation definition entries routes joins).options node = _ from options,
      routeOptionsOf, if_pos]
    intro none
    exact conditional (List.map_eq_nil_iff.mp none)
  · intro node member conditional continues
    obtain ⟨item, -, -, options⟩ := lowered.options_eq ((known node).mp member)
    rw [planRelation_conditional valid] at conditional
    rw [planRelation_direct valid] at continues
    have none : ¬ (collectConditionalTargets definition.edges node).keys ≠ [] := by
      rw [Dict.keys, conditional]
      simp
    rw [show (planRelation definition entries routes joins).options node = _ from options,
      routeOptionsOf, if_neg none, if_pos]
    rw [decide_eq_true_eq]
    refine continues.imp_right (fun some => ?_)
    obtain ⟨join, listed⟩ := List.exists_mem_of_ne_nil _ some
    obtain ⟨-, planJoin, inside⟩ := planRelation_joins.mp listed
    obtain ⟨requirements, absoluteLevels, compiled⟩ := plans
    obtain ⟨repeatable, -, related⟩ := compileJoinOccurrencePlans_eq_ok compiled
    obtain ⟨edge, edgeMember, compiled⟩ := forall₂_mem_right related planJoin
    rw [(compileJoin_eq_ok compiled).1] at inside
    exact ⟨edge, edgeMember, inside⟩
  · intro node
    refine ⟨?_, fun join listed => (planRelation_joins.mp listed).2.2⟩
    show List.Nodup ((Dict.build (nodeIdsOf definition) (joinsFrom joins)).getItem node)
    rw [Dict.getItem, Dict.get?_build]
    split
    · exact (List.Nodup.of_map _ joined.distinct).filter _
    · exact List.nodup_nil
  · intro node join listed other join' listed' same
    exact List.inj_on_of_nodup_map joined.distinct (planRelation_joins.mp listed).2.1
      (planRelation_joins.mp listed').2.1 same
  · intro node join listed source inside
    obtain ⟨-, member, -⟩ := planRelation_joins.mp listed
    exact planRelation_joins.mpr ⟨(joined.sources join member).2.1 inside, member, inside⟩
  · intro node join listed
    obtain ⟨-, member, -⟩ := planRelation_joins.mp listed
    obtain ⟨distinct, inside, -⟩ := joined.sources join member
    exact ⟨distinct, fun source sourceMember => (known source).mpr (inside sourceMember),
      target _ (joined.target join member)⟩

/-- The compiled graph carries the tables of its frontier proof. -/
theorem planRelation_carries [DecidableEq τ]
    (lowered : Lowered definition nestedGraphs entries routes dataDependencies)
    (planned : Planned definition nestedGraphs graph entries routes dataDependencies plan) :
    Carries graph (planRelation definition entries routes plan.joins) := by
  have valid := lowered.valid
  constructor
  · exact planned.graphEntries
  · intro node
    rw [planned.nodes]
    show node ∈ (compiledNodes definition).frozen.keys ↔ node ∈ (dictOf routes).keys
    rw [mem_routes_keys lowered, nodeIdsOf, mem_sorted, Dict.mem_keys, Dict.mem_keys]
    simp only [Dict.get?_frozen]
  · intro node
    rw [planRelation_direct valid, CompiledGraph.directTargets, planned.direct]
    exact build_direct valid.sorted_edges node
  · intro node
    rw [planRelation_conditional valid, CompiledGraph.conditionalTargets, planned.conditional]
    intro route
    by_cases known : node ∈ nodeIdsOf definition
    · rw [Dict.getItem_build known, Dict.get?_frozen]
    · have none := conditional_unknown valid.sorted_edges known
      rw [Dict.getItem, Dict.get?_build, if_neg known]
      unfold Dict.get?
      rw [none]
      rfl
  · intro node
    rw [CompiledGraph.routeOptions, planned.options, Dict.getItem, Dict.get?_frozen]
    rfl
  · intro node
    rw [CompiledGraph.joinsBySource, planned.joins]
    show List.Perm _ ((Dict.build (nodeIdsOf definition) (joinsFrom plan.joins)).getItem node)
    rw [Dict.getItem, Dict.getItem, Dict.get?_build, Dict.get?_build]
    split
    · exact List.perm_insertionSort _ _
    · exact .refl _

end WellFormed

end MoteKernel
