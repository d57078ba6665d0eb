import MoteKernel.Execution.EdgeRuns

/-!
# Guaranteed predecessors

The sets of `_guaranteed_sets` are sound for every run over the edges: a node is
only ever activated after the other nodes of its set have settled. A run that
completes has passed a terminal gate, so the nodes of `_terminal_guarantees` have
settled in it.
-/

namespace MoteKernel
open Checked Canonical Digraph

variable {τ : Type} {graph : CompiledGraph τ} {nodeIds entries : List GraphNodeId}
  {edges : List Edge} {routeOptions : Dict GraphNodeId (List Route)} {joins : List CompiledJoin}
  {guarantees : Dict GraphNodeId (List GraphNodeId)} {last : Nat}
  {active : Nat → GraphNodeId → Prop} {choice : Nat → GraphNodeId → Route}

/-! ## Activations -/

/-- Before a node is activated, every other node of its set has been active. -/
theorem guaranteed_before (runs : RunsEdges graph nodeIds entries edges routeOptions joins)
    (computed : guaranteedSets nodeIds entries (collectActivationGates edges) = .ok guarantees)
    (trail : Trail (edgeRelation nodeIds entries edges routeOptions joins) last active choice)
    {superstep : Nat} {node : GraphNodeId} (here : active superstep node) {source : GraphNodeId}
    (guaranteed : source ∈ guarantees.getItem node) :
    ∃ earlier ≤ superstep, active earlier source ∧ (source ≠ node → earlier < superstep) := by
  induction superstep using Nat.strong_induction_on generalizing node with
  | _ superstep ih =>
      have known := runs.mem_nodes.mp (trail.known superstep node here).1
      rw [← guaranteedSets_stable computed, mem_guaranteedPass known] at guaranteed
      rcases guaranteed with rfl | ⟨outside, -, every⟩
      · exact ⟨superstep, le_rfl, here, fun different => absurd rfl different⟩
      · cases superstep with
        | zero => exact absurd ((trail.start node).mp here) outside
        | succ superstep =>
            obtain ⟨cause, member, caused⟩ := trail.caused here
            obtain ⟨pair, inside, inner⟩ :=
              every cause.gate (runs.mem_gates.mpr ⟨cause, member, rfl⟩)
            obtain ⟨middle, before, there⟩ := caused.sources inside
            obtain ⟨earlier, early, settled, -⟩ := ih middle (by omega) there inner
            exact ⟨earlier, by omega, settled, fun _ => by omega⟩

/-! ## Completion -/

theorem mem_collectGatesToEnd {gate : List GraphNodeId} : gate ∈ collectGatesToEnd edges ↔
    ∃ edge ∈ edges, edge.target = END ∧ gate = sortedSet (edge.gate.map Prod.fst) := by
  simp only [collectGatesToEnd, List.mem_map, List.mem_filter, decide_eq_true_eq]
  constructor
  · rintro ⟨edge, ⟨member, ends⟩, rfl⟩
    exact ⟨edge, member, ends, rfl⟩
  · rintro ⟨edge, member, ends, rfl⟩
    exact ⟨edge, ⟨member, ends⟩, rfl⟩

theorem mem_terminalGates {successors : Successors} {gatesToEnd : List (List GraphNodeId)}
    {gate : List GraphNodeId} : gate ∈ terminalGates nodeIds gatesToEnd successors ↔
      gate ∈ gatesToEnd ∨ ∃ node ∈ nodeIds, successors node = [] ∧
        (∀ other ∈ gatesToEnd, node ∉ other) ∧ gate = [node] := by
  simp only [terminalGates, mem_sorted, List.mem_append, mem_sortedSet, List.mem_map,
    List.mem_filter, decide_eq_true_eq, List.mem_flatten, not_exists, not_and]
  refine or_congr_right ?_
  constructor
  · rintro ⟨node, ⟨known, last, outside⟩, rfl⟩
    exact ⟨node, known, last, outside, rfl⟩
  · rintro ⟨node, known, last, outside, rfl⟩
    exact ⟨node, ⟨known, last, outside⟩, rfl⟩

theorem mem_edge_gate {edge : Edge} {source : GraphNodeId} :
    source ∈ sortedSet (edge.gate.map Prod.fst) ↔ source ∈ edge.sources := by
  rw [mem_sortedSet, List.mem_map]
  exact Edge.mem_gate

/-- A step that leaves nothing active and nothing pending. -/
structure Quiet (relation : FrontierRelation) (m : Marking) (choice : GraphNodeId → Route) :
    Prop where
  inactive : ∀ target ∈ relation.nodes, ∀ cause ∈ relation.successorCauses target,
    ¬ m.Causes choice cause
  settled : ∀ join ∈ relation.joins, ∀ source ∈ join.identity.sources, m.active source →
    m.Complete join 1

theorem quiet_of_agree {relation : FrontierRelation} {m : Marking} {choice : GraphNodeId → Route}
    (moves : relation.Moves m choice (relation.after m choice))
    (agree : relation.Agree (relation.after m choice) ⟨fun _ => False, fun _ => False⟩) :
    Quiet relation m choice := by
  constructor
  · intro target known cause member holds
    exact (agree.active target known).mp ⟨cause, member, holds⟩
  · intro join member source inside here
    have positive := join.offset_positive inside
    have bound := FrontierRelation.offset_le_maximum join source
    by_cases now : join.offset source = 1
    · exact moves.due join member source inside (.inr ⟨now, here⟩)
    · -- otherwise the arrival would stay pending
      have back : join.offset source - 1 + 1 = join.offset source := by omega
      exfalso
      refine (agree.pending ⟨join, join.offset source - 1, source⟩
        (FrontierRelation.mem_joinKeys.mpr ⟨member, ?_, ?_, inside⟩)).mp ⟨?_, ?_⟩
      · show 1 ≤ join.offset source - 1
        omega
      · show join.offset source - 1 ≤ FrontierRelation.maximum join
        omega
      · show join.offset source - 1 < FrontierRelation.maximum join
        omega
      · show m.Arrives join (join.offset source - 1 + 1) source
        rw [back]
        exact .inr ⟨rfl, here⟩

/-- A completed run has passed a terminal gate: its last frontier is a node without successors, or
it took an edge to the end. -/
theorem terminal_passed (runs : RunsEdges graph nodeIds entries edges routeOptions joins)
    {m : Marking} {routes : GraphNodeId → Route}
    (quiet : Quiet (edgeRelation nodeIds entries edges routeOptions joins) m routes)
    {node : GraphNodeId} (known : node ∈ nodeIds) (here : m.active node)
    (selects : routes node ∈
      (edgeRelation nodeIds entries edges routeOptions joins).options node) :
    ∃ gate ∈ terminalGates nodeIds (collectGatesToEnd edges) (edgeSuccessors edges),
      ∀ source ∈ gate, source = node ∨ ∃ join ∈ joins, source ∈ join.identity.sources ∧
        m.Complete join 1 := by
  -- an edge to the end that the frontier has taken
  have taken : ∀ edge ∈ edges, edge.target = END → edge.sources = [node] →
      ∃ gate ∈ terminalGates nodeIds (collectGatesToEnd edges) (edgeSuccessors edges),
        ∀ source ∈ gate, source = node ∨ ∃ join ∈ joins, source ∈ join.identity.sources ∧
          m.Complete join 1 := by
    intro edge member ends single
    refine ⟨_, mem_terminalGates.mpr (.inl (mem_collectGatesToEnd.mpr ⟨edge, member, ends, rfl⟩)), ?_⟩
    intro source inside
    rw [mem_edge_gate, single, List.mem_singleton] at inside
    exact .inl inside
  have joined : ∀ sources target, .join sources target ∈ edges → node ∈ sources →
      target = END ∧ ∃ join ∈ joins, join.identity.sources = sorted sources ∧
        m.Complete join 1 := by
    intro sources target edge inside
    obtain ⟨join, planned, same⟩ := runs.join_plan edge
    have member : node ∈ join.identity.sources := by
      rw [same]
      exact mem_sorted.mpr inside
    have complete := quiet.settled join (runs.mem_joins.mpr planned) node member here
    refine ⟨?_, join, planned, by rw [same], complete⟩
    by_contra inner
    have into : join.identity.target = target := by rw [same]
    refine quiet.inactive target ?_ (.joined join) ?_ complete
    · exact runs.mem_nodes.mpr ((runs.valid.target_known edge).resolve_left inner)
    · exact runs.mem_successorCauses.mpr ⟨inner, .inr (.inr ⟨join, planned, into, rfl⟩)⟩
  by_cases explicit : ∃ gate ∈ collectGatesToEnd edges, node ∈ gate
  · obtain ⟨gate, member, inside⟩ := explicit
    obtain ⟨edge, edgeMember, ends, rfl⟩ := mem_collectGatesToEnd.mp member
    rw [mem_edge_gate] at inside
    cases edge with
    | direct source other =>
        obtain rfl := List.mem_singleton.mp inside
        exact taken _ edgeMember ends rfl
    | conditional source route other =>
        obtain rfl := List.mem_singleton.mp inside
        exact taken _ edgeMember ends rfl
    | join sources other =>
        obtain ⟨-, join, planned, same, complete⟩ := joined sources other edgeMember inside
        refine ⟨_, mem_terminalGates.mpr (.inl member), ?_⟩
        intro source sourceInside
        rw [mem_edge_gate] at sourceInside
        refine .inr ⟨join, planned, ?_, complete⟩
        rw [same]
        exact mem_sorted.mpr sourceInside
  · -- no edge of the node leads to the end, so a successor would have been activated
    refine ⟨[node], mem_terminalGates.mpr (.inr ⟨node, known, ?_, ?_, rfl⟩), ?_⟩
    · rw [List.eq_nil_iff_forall_not_mem]
      intro target member
      obtain ⟨inner, edge, edgeMember, rfl, inside⟩ := (mem_edgeSuccessors runs.valid).mp member
      have targetKnown := runs.mem_nodes.mpr ((runs.valid.target_known edgeMember).resolve_left inner)
      cases edge with
      | direct source other =>
          obtain rfl := List.mem_singleton.mp inside
          exact quiet.inactive _ targetKnown (.direct node)
            (runs.mem_successorCauses.mpr ⟨inner, .inl ⟨node, edgeMember, rfl⟩⟩) here
      | conditional source route other =>
          obtain rfl := List.mem_singleton.mp inside
          have conditional := (mem_collectConditionalTargets runs.valid).mpr edgeMember
          have several : ((edgeRelation nodeIds entries edges routeOptions joins).conditional
              node).items ≠ [] := by
            rw [frontierRelation_conditional runs.valid]
            exact List.ne_nil_of_mem conditional
          rw [runs.wellFormed.selective node ((runs.nodes node).mpr known) several, List.mem_map]
            at selects
          obtain ⟨name, listed, chosen⟩ := selects
          rw [mem_sorted, frontierRelation_conditional runs.valid, Dict.keys, List.mem_map] at listed
          obtain ⟨⟨_, selected⟩, item, rfl⟩ := listed
          have selectedEdge := (mem_collectConditionalTargets runs.valid).mp item
          by_cases ends : selected = END
          · exact explicit ⟨_, mem_collectGatesToEnd.mpr ⟨_, selectedEdge, ends, rfl⟩,
              mem_edge_gate.mpr (List.mem_singleton.mpr rfl)⟩
          · exact quiet.inactive selected
              (runs.mem_nodes.mpr ((runs.valid.target_known selectedEdge).resolve_left ends))
              (.routed node _) (runs.mem_successorCauses.mpr
                ⟨ends, .inr (.inl ⟨node, _, selectedEdge, rfl⟩)⟩) ⟨here, chosen.symm⟩
      | join sources other => exact inner (joined sources other edgeMember inside).1
    · intro gate member inside
      exact explicit ⟨gate, member, inside⟩
    · intro source inside
      exact .inl (List.mem_singleton.mp inside)

/-! ## Soundness -/

/-- In every all-success run over the edges, whenever a node is activated every other node of its
guaranteed set has settled in an earlier superstep; and in every completed run every node of the
terminal guarantees has settled. -/
theorem guarantees_sound (runs : RunsEdges graph nodeIds entries edges routeOptions joins)
    (computed : guaranteedSets nodeIds entries (collectActivationGates edges) = .ok guarantees) :
    (∀ state, ControlRun graph state → ∀ node ∈ state.frontier.nodes,
      ∀ source ∈ guarantees.getItem node.nodeId, source ≠ node.nodeId →
        ∃ reference ∈ state.settledReferences, reference.activation.nodeId = source ∧
          reference.activation.superstep < state.superstep) ∧
    ∀ completion, terminalGuarantees guarantees
        (terminalGates nodeIds (collectGatesToEnd edges) (edgeSuccessors edges)) = .ok completion →
      ∀ state control route, ControlRun graph state → ResolvesTo graph state control →
        control.activations = [] → control.remainingJoinProgress = [] →
        completionRoute graph state = .ok route →
        ∀ source ∈ completion, ∃ reference ∈ state.settledReferences,
          reference.activation.nodeId = source := by
  constructor
  · intro state run node member source guaranteed different
    obtain ⟨active, choice, recorded⟩ := run.recorded runs.wellFormed runs.carries
    have here : active state.superstep node.nodeId :=
      (recorded.current _).mpr (List.mem_map.mpr ⟨node, member, rfl⟩)
    obtain ⟨earlier, -, settled, before⟩ :=
      guaranteed_before runs computed recorded.trail here guaranteed
    obtain ⟨reference, listed, named⟩ := recorded.settled settled
    refine ⟨reference, listed, ?_, ?_⟩
    · rw [named]
    · rw [named]
      exact before different
  · intro completion common state control route run resolves none idle completes source inside
    obtain ⟨active, choice, recorded⟩ := run.recorded runs.wellFormed runs.carries
    obtain ⟨declared, arrivals, runsOn⟩ := run.runsOn runs.wellFormed runs.carries
    obtain ⟨resolvable, rfl⟩ := (resolvesTo_iff runsOn.declares runsOn.pending control).mp resolves
    obtain ⟨nonempty, -⟩ := (completionRoute_eq_ok runsOn route).mp completes
    obtain ⟨node, member⟩ := List.exists_mem_of_ne_nil _ nonempty
    have here : (stateMarking state).active node.nodeId := List.mem_map.mpr ⟨node, member, rfl⟩
    have known : node.nodeId ∈ nodeIds := (runs.nodes _).mp
      ((runs.carries.nodes _).mp (runsOn.shape.active_known here))
    have quiet := quiet_of_agree ((resolvable_iff runsOn).mp resolvable)
      ((quiet_iff runsOn resolvable).mp ⟨none, idle⟩)
    have selects := runsOn.shape.selects here
    rw [runs.carries.options] at selects
    obtain ⟨gate, passed, settled⟩ := terminal_passed runs quiet known here selects
    -- every source of the passed gate has been active
    have visited : ∀ other ∈ gate, ∃ earlier, active earlier other := by
      intro other otherInside
      rcases settled other otherInside with rfl | ⟨join, planned, joined, complete⟩
      · exact ⟨state.superstep, (recorded.current _).mpr here⟩
      · have arrives := complete other joined
        rw [recorded.agree.arrives runs.wellFormed (runs.mem_joins.mpr planned) joined le_rfl
          (FrontierRelation.maximum_positive joined)] at arrives
        obtain ⟨earlier, -, there, -⟩ := historyMarking_arrives.mp arrives
        exact ⟨earlier, there⟩
    simp only [terminalGuarantees, bind_unit_eq_ok, pure_eq_ok, Except.ok.injEq] at common
    obtain ⟨-, rfl⟩ := common
    have shared := (mem_common.mp inside).2 _ (List.mem_map.mpr ⟨gate, passed, rfl⟩)
    rw [mem_sortedSet, List.mem_flatMap] at shared
    obtain ⟨other, otherInside, guaranteed⟩ := shared
    obtain ⟨middle, there⟩ := visited other otherInside
    obtain ⟨earlier, -, before, -⟩ :=
      guaranteed_before runs computed recorded.trail there guaranteed
    obtain ⟨reference, listed, named⟩ := recorded.settled before
    exact ⟨reference, listed, by rw [named]⟩

/-- A node with one successor. -/
def chainDefinition : GraphDefinition Unit where
  definitionId := "chain"
  version := 1
  nodes := [.callable ⟨"a", [], [], [], []⟩, .callable ⟨"b", [], [], [], []⟩]
  edges := [.direct "a" "b"]
  entries := ["a"]
  outputs := []

theorem chainDefinition_compiles :
    Compiles chainDefinition Dict.empty (compiledGraph chainDefinition) :=
  compiles_compiledGraph (by decide) (by simp [chainDefinition]) (by decide +kernel)

/-- The successor of the chain is guaranteed its predecessor, which has settled before it. -/
theorem chain_guarantees : ∃ guarantees,
    guaranteedSets ["a", "b"] ["a"] (collectActivationGates chainDefinition.edges) =
      .ok guarantees ∧ "a" ∈ guarantees.getItem "b" ∧
    ∀ state, ControlRun (compiledGraph chainDefinition) state → ∀ node ∈ state.frontier.nodes,
      node.nodeId = "b" → ∃ reference ∈ state.settledReferences,
        reference.activation.nodeId = "a" ∧ reference.activation.superstep < state.superstep := by
  have compiles := chainDefinition_compiles
  obtain ⟨entries, routes, dataDependencies, plan, planned⟩ :=
    compileDefinition_planned compiles.compiled
  have runs := compiles.runsEdges planned
  have nodes : nodeIdsOf chainDefinition = ["a", "b"] := by decide
  have start : entries = ["a"] := planned.graphEntries.symm.trans (by decide +kernel)
  rw [nodes, start] at runs
  have computed : guaranteedSets ["a", "b"] ["a"] (collectActivationGates chainDefinition.edges) =
      .ok ⟨[("a", ["a"]), ("b", ["a", "b"])], by decide⟩ := by decide
  refine ⟨_, computed, by decide, ?_⟩
  intro state run node member named
  refine (guarantees_sound runs computed).1 state run node member "a" ?_ ?_
  · rw [named]
    decide
  · rw [named]
    decide

/-- The first superstep of the chain. -/
def chainStart : GraphRunState where
  runId := "run"
  definitionId := "chain"
  definitionVersion := 1
  status := .running
  superstep := 0
  frontier := ⟨[⟨"a", .succeeded .continueGraphRouting, .start⟩]⟩
  settledPublications := [⟨activationReference "run" 0 "a" none, 1, ⟨1, "attempt"⟩, none⟩]

/-- A node belongs to its own set, and nothing has settled before the first superstep. -/
theorem chainStart_own_guarantee : ∃ guarantees,
    guaranteedSets ["a", "b"] ["a"] (collectActivationGates chainDefinition.edges) =
      .ok guarantees ∧ "a" ∈ guarantees.getItem "a" ∧
    ControlRun (compiledGraph chainDefinition) chainStart ∧
    (∃ node ∈ chainStart.frontier.nodes, node.nodeId = "a") ∧
    ¬ ∃ reference ∈ chainStart.settledReferences, reference.activation.nodeId = "a" ∧
      reference.activation.superstep < chainStart.superstep := by
  have computed : guaranteedSets ["a", "b"] ["a"] (collectActivationGates chainDefinition.edges) =
      .ok ⟨[("a", ["a"]), ("b", ["a", "b"])], by decide⟩ := by decide
  refine ⟨_, computed, by decide, ?_, by decide, by decide⟩
  apply ControlRun.start
  · exact ⟨rfl, by decide +kernel, rfl, fun reference => Iff.rfl⟩
  · intro node member
    obtain rfl := List.mem_singleton.mp member
    exact ⟨.continueGraphRouting, rfl, by decide +kernel⟩

end MoteKernel
