import MoteKernel.Execution.CompiledControl
import MoteKernel.Execution.ControlTrails

/-!
# Runs over declared edges

The all-success runs of a graph that was compiled from some edges: the causes of
an activation are the activation gates of the edges, and a graph of an accepted
definition runs over its edges.
-/

namespace MoteKernel
open Checked Canonical Digraph

variable {τ : Type}

/-- The gate a cause satisfies. -/
def SuccessorCause.gate : SuccessorCause → RawActivationGate
  | .direct source => [(source, none)]
  | .routed source route => [(source, some route)]
  | .joined join => join.identity.sources.map (fun source => (source, none))

/-- The control tables of some edges. -/
abbrev edgeRelation (nodeIds entries : List GraphNodeId) (edges : List Edge)
    (routeOptions : Dict GraphNodeId (List Route)) (joins : List CompiledJoin) : FrontierRelation :=
  frontierRelation nodeIds entries (controlTopology edges routeOptions) joins

/-- The graph runs over the edges: it carries their control tables, with one planned Join for each
Join edge. -/
structure RunsEdges (graph : CompiledGraph τ) (nodeIds entries : List GraphNodeId)
    (edges : List Edge) (routeOptions : Dict GraphNodeId (List Route))
    (joins : List CompiledJoin) : Prop where
  valid : ValidEdges nodeIds edges
  joined : joins.map CompiledJoin.identity =
    (collectJoins edges).map (fun edge => GraphJoinIdentity.mk edge.sources edge.target)
  nodes : ∀ node, node ∈ routeOptions.keys ↔ node ∈ nodeIds
  wellFormed : (edgeRelation nodeIds entries edges routeOptions joins).WellFormed
  carries : Carries graph (edgeRelation nodeIds entries edges routeOptions joins)

/-- The graph of an accepted definition runs over its edges. -/
theorem Compiles.runsEdges [DecidableEq τ] {definition : GraphDefinition τ}
    {nestedGraphs : Dict GraphNodeId (CompiledGraph τ)} {graph : CompiledGraph τ}
    {entries : List GraphNodeId} {routes : List (GraphNodeId × List Route)}
    {dataDependencies : DataDependencies} {plan : ControlPlan}
    (compiles : Compiles definition nestedGraphs graph)
    (planned : Planned definition nestedGraphs graph entries routes dataDependencies plan) :
    RunsEdges graph (nodeIdsOf definition) entries definition.edges (dictOf routes) plan.joins := by
  have lowered := planned.lowered compiles
  obtain ⟨requirements, guarantees, analysed⟩ := planControl_eq_ok planned.planned
  obtain ⟨repeatable, -, related⟩ := compileJoinOccurrencePlans_eq_ok analysed.joins
  have plans : PlansJoins (nodeIdsOf definition) entries definition.edges plan.joins :=
    ⟨requirements, plan.absoluteLevels, analysed.joins⟩
  exact ⟨lowered.valid.sorted_edges, compiledJoins_identity related,
    fun node => mem_routes_keys lowered, planRelation_wellFormed lowered plans,
    planRelation_carries lowered planned⟩

section Gates

variable {graph : CompiledGraph τ} {nodeIds entries : List GraphNodeId} {edges : List Edge}
  {routeOptions : Dict GraphNodeId (List Route)} {joins : List CompiledJoin}
  (runs : RunsEdges graph nodeIds entries edges routeOptions joins)
include runs

theorem RunsEdges.mem_nodes {node : GraphNodeId} :
    node ∈ (edgeRelation nodeIds entries edges routeOptions joins).nodes ↔ node ∈ nodeIds := by
  rw [FrontierRelation.mem_nodes]
  exact runs.nodes node

/-- A planned Join comes from a Join edge. -/
theorem RunsEdges.join_edge {join : CompiledJoin} (member : join ∈ joins) :
    ∃ sources, .join sources join.identity.target ∈ edges ∧
      join.identity.sources = sorted sources := by
  have named : join.identity ∈ joins.map CompiledJoin.identity := List.mem_map.mpr ⟨join, member, rfl⟩
  rw [runs.joined] at named
  obtain ⟨joinEdge, inside, same⟩ := List.mem_map.mp named
  obtain ⟨sources, target, edge, rfl⟩ := mem_collectJoins.mp inside
  rw [← same]
  exact ⟨sources, edge, rfl⟩

/-- A Join edge has its plan. -/
theorem RunsEdges.join_plan {sources : List GraphNodeId} {target : GraphNodeId}
    (edge : .join sources target ∈ edges) :
    ∃ join ∈ joins, join.identity = ⟨sorted sources, target⟩ := by
  have named : (⟨sorted sources, target⟩ : GraphJoinIdentity) ∈ joins.map CompiledJoin.identity := by
    rw [runs.joined]
    exact List.mem_map.mpr ⟨⟨sorted sources, target⟩,
      mem_collectJoins.mpr ⟨sources, target, edge, rfl⟩, rfl⟩
  obtain ⟨join, member, same⟩ := List.mem_map.mp named
  exact ⟨join, member, same⟩

theorem RunsEdges.mem_joins {join : CompiledJoin} :
    join ∈ (edgeRelation nodeIds entries edges routeOptions joins).joins ↔ join ∈ joins := by
  rw [FrontierRelation.mem_joins]
  simp only [frontierRelation_joinsBySource]
  constructor
  · rintro ⟨-, -, member, -⟩
    exact member
  · intro member
    obtain ⟨sources, edge, same⟩ := runs.join_edge member
    obtain ⟨several, -, known, -⟩ := runs.valid.known _ edge
    obtain ⟨source, inside⟩ := List.exists_mem_of_ne_nil sources (by
      intro none
      rw [none] at several
      cases several)
    exact ⟨source, known inside, member, by rw [same]; exact mem_sorted.mpr inside⟩

/-- The causes of a target are the edges into it. -/
theorem RunsEdges.mem_successorCauses {target : GraphNodeId} {cause : SuccessorCause} :
    cause ∈ (edgeRelation nodeIds entries edges routeOptions joins).successorCauses target ↔
      target ≠ END ∧ ((∃ source, .direct source target ∈ edges ∧ cause = .direct source) ∨
        (∃ source route, .conditional source route target ∈ edges ∧
          cause = .routed source route) ∨
        ∃ join ∈ joins, join.identity.target = target ∧ cause = .joined join) := by
  rw [FrontierRelation.mem_successorCauses]
  simp only [frontierRelation_direct runs.valid, frontierRelation_conditional runs.valid,
    mem_collectDirectTargets, mem_collectConditionalTargets runs.valid, runs.mem_joins,
    runs.mem_nodes]
  constructor
  · rintro (⟨source, -, ⟨edge, inner⟩, rfl⟩ | ⟨source, -, route, edge, inner, rfl⟩ |
      ⟨join, member, same, inner, rfl⟩)
    · exact ⟨inner, .inl ⟨source, edge, rfl⟩⟩
    · exact ⟨inner, .inr (.inl ⟨source, route, edge, rfl⟩)⟩
    · exact ⟨inner, .inr (.inr ⟨join, member, same, rfl⟩)⟩
  · rintro ⟨inner, ⟨source, edge, rfl⟩ | ⟨source, route, edge, rfl⟩ | ⟨join, member, same, rfl⟩⟩
    · exact .inl ⟨source, (runs.valid.known _ edge).1, ⟨edge, inner⟩, rfl⟩
    · exact .inr (.inl ⟨source, (runs.valid.known _ edge).1, route, edge, inner, rfl⟩)
    · exact .inr (.inr ⟨join, member, same, inner, rfl⟩)

/-- The activation gates of a target are the gates of its causes. -/
theorem RunsEdges.mem_gates {target : GraphNodeId} {gate : RawActivationGate} :
    gate ∈ collectActivationGates edges target ↔
      ∃ cause ∈ (edgeRelation nodeIds entries edges routeOptions joins).successorCauses target,
        cause.gate = gate := by
  rw [mem_collectActivationGates]
  constructor
  · rintro ⟨inner, edge, member, rfl, rfl⟩
    cases edge with
    | direct source other =>
        exact ⟨.direct source, runs.mem_successorCauses.mpr ⟨inner, .inl ⟨source, member, rfl⟩⟩, rfl⟩
    | conditional source route other =>
        exact ⟨.routed source route, runs.mem_successorCauses.mpr
          ⟨inner, .inr (.inl ⟨source, route, member, rfl⟩)⟩, rfl⟩
    | join sources other =>
        obtain ⟨join, planned, same⟩ := runs.join_plan member
        refine ⟨.joined join, runs.mem_successorCauses.mpr
          ⟨inner, .inr (.inr ⟨join, planned, by rw [same]; rfl, rfl⟩)⟩, ?_⟩
        rw [SuccessorCause.gate, same]
        rfl
  · rintro ⟨cause, member, rfl⟩
    obtain ⟨inner, ⟨source, edge, rfl⟩ | ⟨source, route, edge, rfl⟩ | ⟨join, planned, rfl, rfl⟩⟩ :=
      runs.mem_successorCauses.mp member
    · exact ⟨inner, _, edge, rfl, rfl⟩
    · exact ⟨inner, _, edge, rfl, rfl⟩
    · obtain ⟨sources, edge, same⟩ := runs.join_edge planned
      refine ⟨inner, _, edge, rfl, ?_⟩
      rw [SuccessorCause.gate, same]
      rfl

omit runs in
/-- Every source of a cause that holds has been active. -/
theorem CausedAt.sources {active : Nat → GraphNodeId → Prop} {choice : Nat → GraphNodeId → Route}
    {superstep : Nat} {cause : SuccessorCause} (caused : CausedAt active choice superstep cause)
    {pair : GraphNodeId × Option GraphRouteId} (inside : pair ∈ cause.gate) :
    ∃ earlier ≤ superstep, active earlier pair.1 := by
  cases cause with
  | direct source =>
      obtain rfl := List.mem_singleton.mp inside
      exact ⟨superstep, le_rfl, caused⟩
  | routed source route =>
      obtain rfl := List.mem_singleton.mp inside
      exact ⟨superstep, le_rfl, caused.1⟩
  | joined join =>
      obtain ⟨source, member, rfl⟩ := List.mem_map.mp inside
      obtain ⟨earlier, before, here, -⟩ := caused source member
      exact ⟨earlier, before, here⟩

end Gates

/-! ## Accepted definitions -/

/-- A graph with the control analyses its definition has passed. -/
structure Accepted (graph : CompiledGraph τ) (nodeIds entries : List GraphNodeId)
    (edges : List Edge) (routeOptions : Dict GraphNodeId (List Route))
    (dataDependencies : DataDependencies) (requirements : Dict GraphNodeId RouteRequirementProof)
    (guarantees : Dict GraphNodeId (List GraphNodeId)) (plan : ControlPlan) : Prop where
  runs : RunsEdges graph nodeIds entries edges routeOptions plan.joins
  analysed : Analysed nodeIds entries edges routeOptions dataDependencies requirements guarantees
    plan
  distinct : nodeIds.Nodup
  entriesKnown : entries ⊆ nodeIds
  graphEntries : graph.transition.entries = entries
  routes : graph.completionRoutes = plan.completionRoutes

/-- A planned definition has passed its control analyses. -/
theorem Compiles.accepted_plan [DecidableEq τ] {definition : GraphDefinition τ}
    {nestedGraphs : Dict GraphNodeId (CompiledGraph τ)} {graph : CompiledGraph τ}
    {entries : List GraphNodeId} {routes : List (GraphNodeId × List Route)}
    {dataDependencies : DataDependencies} {plan : ControlPlan}
    (compiles : Compiles definition nestedGraphs graph)
    (planned : Planned definition nestedGraphs graph entries routes dataDependencies plan) :
    ∃ requirements guarantees, Accepted graph (nodeIdsOf definition) entries definition.edges
      (dictOf routes) dataDependencies requirements guarantees plan := by
  obtain ⟨requirements, guarantees, analysed⟩ := planControl_eq_ok planned.planned
  have valid := validateDefinition_eq_ok compiles.valid
  refine ⟨requirements, guarantees, compiles.runsEdges planned, analysed,
    nodeIdsOf_nodup definition, ?_, planned.graphEntries, planned.completionRoutes⟩
  exact entries_known (fun _ inside => mem_nodeIdsOf.mpr (valid.entriesKnown inside))
    planned.resolved

theorem Compiles.accepted [DecidableEq τ] {definition : GraphDefinition τ}
    {nestedGraphs : Dict GraphNodeId (CompiledGraph τ)} {graph : CompiledGraph τ}
    (compiles : Compiles definition nestedGraphs graph) :
    ∃ entries routeOptions dataDependencies requirements guarantees plan,
      Accepted graph (nodeIdsOf definition) entries definition.edges routeOptions dataDependencies
        requirements guarantees plan := by
  obtain ⟨entries, routes, dataDependencies, plan, planned⟩ :=
    compileDefinition_planned compiles.compiled
  obtain ⟨requirements, guarantees, accepted⟩ := compiles.accepted_plan planned
  exact ⟨entries, dictOf routes, dataDependencies, requirements, guarantees, plan, accepted⟩

/-- The plan of a definition without nested graphs. -/
def compiledGraph (definition : GraphDefinition Unit) : CompiledGraph Unit :=
  (compileDefinition definition Dict.empty).toOption.getD pairGraph

theorem compiles_compiledGraph {definition : GraphDefinition Unit}
    (valid : validateDefinition definition = .ok ())
    (flat : ∀ nodeId child inputs, .nested nodeId child inputs ∉ definition.nodes)
    (accepted : (compileDefinition definition Dict.empty).toOption.isSome = true) :
    Compiles definition Dict.empty (compiledGraph definition) := by
  refine ⟨valid, fun nodeId child inputs member => absurd member (flat nodeId child inputs), ?_⟩
  unfold compiledGraph
  cases compiled : compileDefinition definition Dict.empty with
  | error error =>
      rw [compiled] at accepted
      cases accepted
  | ok graph => rfl

end MoteKernel
