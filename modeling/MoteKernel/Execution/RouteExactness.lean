import MoteKernel.Execution.RouteRuns
import MoteKernel.Execution.GuaranteedPredecessors

/-!
# Exact route requirements

The summaries of an accepted definition hold in its runs. The table that the loop
of `_validate_joint_activation_paths` builds satisfies its own equations, the
gates of an accepted definition are coherent, and a node is activated as soon as
one of its gates is passed.
-/

namespace MoteKernel
open Checked Canonical Digraph Rectangle

variable {τ : Type}

/-! ## The loop over the nodes -/

section Table

variable {entries : List GraphNodeId} {gates : ActivationGates}
  {dataDependencies : DataDependencies} {conditionalTargets : ConditionalTargets}
  {requirements table : Dict GraphNodeId RouteRequirementProof} {node : GraphNodeId}

theorem requireActivationPath_eq_ok
    (required : requireActivationPath entries gates dataDependencies conditionalTargets requirements
      node = .ok table) :
    ∃ proof, alternativeRouteRequirements conditionalTargets (activationAlternatives entries gates
        dataDependencies conditionalTargets requirements node) = some proof ∧
      table = requirements.set node proof := by
  simp only [requireActivationPath, bind_eq_ok, orRaise_eq_ok, pure_eq_ok, Except.ok.injEq]
    at required
  obtain ⟨proof, summarised, rfl⟩ := required
  exact ⟨proof, summarised, rfl⟩

theorem sourceRouteRequirements_congr {source : GraphNodeId}
    (same : requirements.get? source = table.get? source) (route : Option GraphRouteId) :
    sourceRouteRequirements requirements conditionalTargets source route =
      sourceRouteRequirements table conditionalTargets source route := by
  rw [sourceRouteRequirements.eq_def, sourceRouteRequirements.eq_def, same]

theorem gateRouteRequirements_congr {gate : RawActivationGate}
    (same : ∀ pair ∈ gate, requirements.get? pair.1 = table.get? pair.1) :
    gateRouteRequirements requirements conditionalTargets gate =
      gateRouteRequirements table conditionalTargets gate := by
  rw [gateRouteRequirements, gateRouteRequirements]
  congr 1
  refine List.map_congr_left ?_
  intro pair inside
  exact sourceRouteRequirements_congr (same pair inside) pair.2

/-- The alternatives of a node read the summaries of its sources only. -/
theorem activationAlternatives_congr
    (control : ∀ gate ∈ gates node, ∀ pair ∈ gate, requirements.get? pair.1 = table.get? pair.1)
    (values : ∀ source ∈ dataDependencies node, requirements.get? source = table.get? source) :
    activationAlternatives entries gates dataDependencies conditionalTargets requirements node =
      activationAlternatives entries gates dataDependencies conditionalTargets table node := by
  have gated : (gates node).map (gateRouteRequirements requirements conditionalTargets) =
      (gates node).map (gateRouteRequirements table conditionalTargets) :=
    List.map_congr_left (fun gate member => gateRouteRequirements_congr (control gate member))
  have valued : gateRouteRequirements requirements conditionalTargets
      ((dataDependencies node).map (fun source => (source, none))) =
        gateRouteRequirements table conditionalTargets
          ((dataDependencies node).map (fun source => (source, none))) := by
    apply gateRouteRequirements_congr
    rw [List.forall_mem_map]
    exact values
  unfold activationAlternatives
  rw [gated, valued]

/-- The loop sets each node once, to the summary over the nodes before it. -/
theorem foldlM_requireActivationPath {ordered : List GraphNodeId} (distinct : ordered.Nodup)
    (folded : ordered.foldlM (requireActivationPath entries gates dataDependencies
      conditionalTargets) requirements = .ok table) :
    (∀ node ∉ ordered, table.get? node = requirements.get? node) ∧
    ∀ before node after, ordered = before ++ node :: after →
      ∃ earlier : Dict GraphNodeId RouteRequirementProof, ∃ proof,
        (∀ other ∉ node :: after, table.get? other = earlier.get? other) ∧
        alternativeRouteRequirements conditionalTargets (activationAlternatives entries gates
          dataDependencies conditionalTargets earlier node) = some proof ∧
        table.get? node = some proof := by
  induction ordered generalizing requirements with
  | nil =>
      obtain rfl := Except.ok.inj folded
      refine ⟨fun _ _ => rfl, ?_⟩
      intro before node after split
      cases before <;> cases split
  | cons first rest ih =>
      rw [List.foldlM_cons, bind_eq_ok] at folded
      obtain ⟨next, required, remaining⟩ := folded
      obtain ⟨proof, summarised, rfl⟩ := requireActivationPath_eq_ok required
      obtain ⟨fresh, once⟩ := List.nodup_cons.mp distinct
      obtain ⟨outside, inside⟩ := ih once remaining
      have untouched : ∀ other ∉ first :: rest, table.get? other = requirements.get? other := by
        intro other absent
        rw [List.mem_cons, not_or] at absent
        rw [outside other absent.2, Dict.get?_set, if_neg absent.1]
      refine ⟨untouched, ?_⟩
      intro before node after split
      cases before with
      | nil =>
          obtain ⟨rfl, rfl⟩ := List.cons.inj split
          refine ⟨requirements, proof, untouched, summarised, ?_⟩
          rw [outside first fresh, Dict.get?_set, if_pos rfl]
      | cons head before =>
          obtain ⟨-, rest_split⟩ := List.cons.inj split
          exact inside before node after rest_split

end Table

/-! ## The table of an accepted definition -/

section Accepted

variable {graph : CompiledGraph τ} {nodeIds entries : List GraphNodeId} {edges : List Edge}
  {routeOptions : Dict GraphNodeId (List Route)} {dataDependencies : DataDependencies}
  {requirements : Dict GraphNodeId RouteRequirementProof}
  {guarantees : Dict GraphNodeId (List GraphNodeId)} {plan : ControlPlan}
  (accepted : Accepted graph nodeIds entries edges routeOptions dataDependencies requirements
    guarantees plan)
include accepted

/-- The sources of the gates of a fixed node, and the producers of its values, are fixed. -/
theorem Accepted.fixed_source {node source : GraphNodeId}
    (fixed : node ∈ fixedNodes nodeIds dataDependencies (edgeSuccessors edges))
    (needed : (∃ gate ∈ collectActivationGates edges node, ∃ pair ∈ gate, pair.1 = source) ∨
      source ∈ dataDependencies node) :
    source ∈ fixedDependencies (fixedNodes nodeIds dataDependencies (edgeSuccessors edges))
      (collectActivationGates edges) dataDependencies node := by
  have closed := edgeSuccessors_closed accepted.runs.valid
  obtain ⟨known, outside⟩ := (mem_fixedNodes closed accepted.distinct).mp fixed
  have adjacent : source ∈ nodeIds ∧ Adjacent
      (dependencySuccessors nodeIds dataDependencies (edgeSuccessors edges)) source node := by
    rcases needed with ⟨gate, member, pair, inside, rfl⟩ | value
    · obtain ⟨sourceKnown, next⟩ := gate_edges accepted.runs.valid member inside
      exact ⟨sourceKnown, mem_sortedSet.mpr (List.mem_append_left _ next)⟩
    · refine ⟨?_, mem_sortedSet.mpr (List.mem_append_right _
        (List.mem_filter.mpr ⟨known, decide_eq_true value⟩))⟩
      exact guaranteedSets_known accepted.distinct
        (fun _ _ _ member _ inside => (gate_edges accepted.runs.valid member inside).1)
        accepted.analysed.guaranteed node known (accepted.analysed.produced node known source value)
  refine mem_fixedDependencies.mpr ⟨(mem_fixedNodes closed accepted.distinct).mpr
    ⟨adjacent.1, ?_⟩, needed⟩
  intro after
  exact outside (after.step adjacent.2)

/-- A gate of several sources is the gate of a Join, whose sources are not mutually exclusive. -/
theorem Accepted.joint {node : GraphNodeId} {gate : RawActivationGate}
    (member : gate ∈ collectActivationGates edges node) : (∃ pair, gate = [pair]) ∨
      ∃ join ∈ plan.joins, gate = valueGate join.identity.sources ∧
        gateRouteRequirements requirements (collectConditionalTargets edges) gate ≠ none := by
  obtain ⟨cause, caused, rfl⟩ := accepted.runs.mem_gates.mp member
  obtain ⟨-, ⟨source, -, rfl⟩ | ⟨source, route, -, rfl⟩ | ⟨join, planned, -, rfl⟩⟩ :=
    accepted.runs.mem_successorCauses.mp caused
  · exact .inl ⟨_, rfl⟩
  · exact .inl ⟨_, rfl⟩
  · refine .inr ⟨join, planned, rfl, ?_⟩
    obtain ⟨repeatable, -, related⟩ := compileJoinOccurrencePlans_eq_ok accepted.analysed.joins
    obtain ⟨edge, -, compiled⟩ := forall₂_mem_right related planned
    obtain ⟨identity, compatible, -⟩ := compileJoin_eq_ok compiled
    rw [SuccessorCause.gate, identity]
    exact compatible

theorem Accepted.selectable {node : GraphNodeId} {gate : RawActivationGate}
    (member : gate ∈ collectActivationGates edges node) {pair : GraphNodeId × Option GraphRouteId}
    (inside : pair ∈ gate) : Selectable (collectConditionalTargets edges) pair.1 pair.2 := by
  obtain ⟨cause, caused, rfl⟩ := accepted.runs.mem_gates.mp member
  intro name asked
  obtain ⟨-, ⟨source, -, rfl⟩ | ⟨source, route, edge, rfl⟩ | ⟨join, -, -, rfl⟩⟩ :=
    accepted.runs.mem_successorCauses.mp caused
  · obtain rfl := List.mem_singleton.mp inside
    cases asked
  · obtain rfl := List.mem_singleton.mp inside
    cases asked
    exact List.mem_map.mpr ⟨_, (mem_collectConditionalTargets accepted.runs.valid).mpr edge, rfl⟩
  · obtain ⟨source, -, rfl⟩ := List.mem_map.mp inside
    cases asked

/-- The requirements of an accepted definition satisfy their own equations. -/
theorem Accepted.routeTable : ∃ rank, RouteTable entries (collectActivationGates edges)
      dataDependencies (collectConditionalTargets edges) guarantees.getItem requirements rank ∧
    ∀ node, node ∈ requirements.keys ↔
      node ∈ fixedNodes nodeIds dataDependencies (edgeSuccessors edges) := by
  have closed := edgeSuccessors_closed accepted.runs.valid
  have required := accepted.analysed.required
  simp only [validateJointActivationPaths, bind_eq_ok] at required
  obtain ⟨ordered, computed, folded⟩ := required
  obtain ⟨perm, order⟩ := activationOrder_spec closed accepted.distinct
    (fun node _ gate member pair inside => (gate_edges accepted.runs.valid member inside).2) computed
  have once : ordered.Nodup := perm.nodup_iff.mpr (accepted.distinct.filter _)
  obtain ⟨outside, listed⟩ := foldlM_requireActivationPath once folded
  have keys : ∀ node, node ∈ requirements.keys ↔ node ∈ ordered := by
    intro node
    constructor
    · intro known
      by_contra absent
      obtain ⟨proof, found⟩ := (requirements.mem_keys node).mp known
      rw [outside node absent] at found
      cases found
    · intro member
      obtain ⟨before, after, split⟩ := List.append_of_mem member
      obtain ⟨earlier, proof, -, -, found⟩ := listed before node after split
      exact (requirements.mem_keys node).mpr ⟨proof, found⟩
  have needs : ∀ node ∈ requirements.keys, ∀ source,
      (∃ gate ∈ collectActivationGates edges node, ∃ pair ∈ gate, pair.1 = source) ∨
        source ∈ dataDependencies node →
      source ∈ ordered ∧ ordered.idxOf source < ordered.idxOf node := by
    intro node known source needed
    have member := (keys node).mp known
    exact order.idxOf_lt member once (accepted.fixed_source (perm.mem_iff.mp member) needed)
  refine ⟨ordered.idxOf, ⟨accepted.runs.wellFormed.once, ?_, ?_, ?_, ?_, ?_⟩,
    fun node => (keys node).trans perm.mem_iff⟩
  · intro node known
    obtain ⟨before, after, split⟩ := List.append_of_mem ((keys node).mp known)
    obtain ⟨earlier, proof, same, summarised, found⟩ := listed before node after split
    -- the sources stand before the node, so the rest of the loop leaves them alone
    have untouched : ∀ source, (∃ gate ∈ collectActivationGates edges node, ∃ pair ∈ gate,
        pair.1 = source) ∨ source ∈ dataDependencies node →
        earlier.get? source = requirements.get? source := by
      intro source needed
      have inside := order before node after split (accepted.fixed_source
        (perm.mem_iff.mp ((keys node).mp known)) needed)
      refine (same source ?_).symm
      intro late
      rw [split] at once
      exact List.disjoint_of_nodup_append once inside late
    rw [activationAlternatives_congr
      (fun gate member pair inside => (untouched pair.1
        (.inl ⟨gate, member, pair, inside, rfl⟩)).symm)
      (fun source value => (untouched source (.inr value)).symm), summarised, summaryOf, found]
    rfl
  · intro node known gate member pair inside
    obtain ⟨sourceListed, lower⟩ := needs node known pair.1 (.inl ⟨gate, member, pair, inside, rfl⟩)
    exact ⟨(keys pair.1).mpr sourceListed, lower, accepted.selectable member inside⟩
  · intro node _ gate member
    refine (accepted.joint member).imp_right ?_
    rintro ⟨join, -, -, compatible⟩
    exact compatible
  · intro node known source value
    have nodeKnown := ((mem_fixedNodes closed accepted.distinct).mp
      (perm.mem_iff.mp ((keys node).mp known))).1
    exact ⟨(needs node known source (.inr value)).2,
      accepted.analysed.produced node nodeKnown source value⟩
  · intro node known other guaranteed
    have nodeKnown := ((mem_fixedNodes closed accepted.distinct).mp
      (perm.mem_iff.mp ((keys node).mp known))).1
    rw [← guaranteedSets_stable accepted.analysed.guaranteed, mem_guaranteedPass nodeKnown]
      at guaranteed
    refine guaranteed.imp_right ?_
    rintro ⟨notEntry, -, every⟩
    exact ⟨notEntry, every⟩

end Accepted

/-! ## Cohorts and gates in a run -/

/-- The nodes of a history. -/
def ActivatedIn (active : Nat → GraphNodeId → Prop) (node : GraphNodeId) : Prop :=
  ∃ superstep, active superstep node

/-- The routes that the nodes of a history selected. -/
def SelectedIn (active : Nat → GraphNodeId → Prop) (choice : Nat → GraphNodeId → Route)
    (node : GraphNodeId) (route : GraphRouteId) : Prop :=
  ∃ superstep, active superstep node ∧ choice superstep node = some route

section Runs

variable {graph : CompiledGraph τ} {nodeIds entries : List GraphNodeId} {edges : List Edge}
  {routeOptions : Dict GraphNodeId (List Route)} {dataDependencies : DataDependencies}
  {requirements : Dict GraphNodeId RouteRequirementProof}
  {guarantees : Dict GraphNodeId (List GraphNodeId)} {plan : ControlPlan}
  (accepted : Accepted graph nodeIds entries edges routeOptions dataDependencies requirements
    guarantees plan)
include accepted

/-- The sources of a Join are several known nodes. -/
theorem Accepted.join_sources {join : CompiledJoin} (planned : join ∈ plan.joins) :
    2 ≤ join.identity.sources.length ∧ join.identity.sources ⊆ nodeIds := by
  obtain ⟨sources, edge, same⟩ := accepted.runs.join_edge planned
  obtain ⟨several, -, known, -⟩ := accepted.runs.valid.known _ edge
  rw [same, (perm_sorted sources).length_eq]
  refine ⟨several, ?_⟩
  intro source inside
  exact known (mem_sorted.mp inside)

/-- Joins of the same sources have the same offsets. -/
theorem Accepted.same_offsets {join other : CompiledJoin} (planned : join ∈ plan.joins)
    (otherPlanned : other ∈ plan.joins) (same : join.identity.sources = other.identity.sources)
    {source : GraphNodeId} (inside : source ∈ join.identity.sources) :
    join.offset source = other.offset source := by
  obtain ⟨repeatable, -, cases⟩ := accepted.join_cases
  rcases cases join planned with repeated | ⟨target, single⟩
  · rcases cases other otherPlanned with otherRepeated | ⟨otherTarget, otherSingle⟩
    · rw [repeated.offsets source inside, otherRepeated.offsets source (same ▸ inside)]
    · exact absurd (repeated.repeats source inside) (otherSingle.single source (same ▸ inside))
  · rcases cases other otherPlanned with otherRepeated | ⟨otherTarget, otherSingle⟩
    · exact absurd (otherRepeated.repeats source (same ▸ inside)) (single.single source inside)
    · -- both targets come one superstep after the last source
      have bound : ∀ {first second : CompiledJoin} {firstTarget secondTarget : Nat},
          SingleJoin requirements (collectConditionalTargets edges) plan.absoluteLevels repeatable
            first firstTarget →
          SingleJoin requirements (collectConditionalTargets edges) plan.absoluteLevels repeatable
            second secondTarget →
          first.identity.sources = second.identity.sources → firstTarget ≤ secondTarget := by
        intro first second firstTarget secondTarget firstSingle secondSingle equal
        obtain ⟨last, lastInside, one⟩ := firstSingle.last
        obtain ⟨level, leveled, place⟩ := firstSingle.leveled last lastInside
        obtain ⟨level', leveled', place'⟩ := secondSingle.leveled last (equal ▸ lastInside)
        have positive := second.offset_positive (equal ▸ lastInside)
        rw [leveled] at leveled'
        obtain rfl := Option.some.inj leveled'
        omega
      have targets := le_antisymm (bound single otherSingle same) (bound otherSingle single same.symm)
      obtain ⟨level, leveled, place⟩ := single.leveled source inside
      obtain ⟨level', leveled', place'⟩ := otherSingle.leveled source (same ▸ inside)
      rw [leveled] at leveled'
      obtain rfl := Option.some.inj leveled'
      omega

/-- Causes with the same gate hold together. -/
theorem Accepted.caused_congr {a b : GraphNodeId} {cause other : SuccessorCause}
    (member : cause ∈ (edgeRelation nodeIds entries edges routeOptions plan.joins).successorCauses a)
    (otherMember : other ∈
      (edgeRelation nodeIds entries edges routeOptions plan.joins).successorCauses b)
    (same : cause.gate = other.gate) {active : Nat → GraphNodeId → Prop}
    {choice : Nat → GraphNodeId → Route} {superstep : Nat}
    (caused : CausedAt active choice superstep cause) : CausedAt active choice superstep other := by
  have joined : ∀ {join : CompiledJoin}, join ∈ plan.joins →
      ∀ pair, valueGate join.identity.sources ≠ [pair] := by
    intro join planned pair wrong
    have several := (accepted.join_sources planned).1
    have length := congrArg List.length wrong
    rw [valueGate, List.length_map, List.length_singleton] at length
    omega
  obtain ⟨-, ⟨source, -, rfl⟩ | ⟨source, route, -, rfl⟩ | ⟨join, planned, -, rfl⟩⟩ :=
    accepted.runs.mem_successorCauses.mp member
  · obtain ⟨-, ⟨source', -, rfl⟩ | ⟨source', route', -, rfl⟩ | ⟨join', planned', -, rfl⟩⟩ :=
      accepted.runs.mem_successorCauses.mp otherMember
    · obtain ⟨rfl, -⟩ := Prod.mk.inj (List.singleton_inj.mp same)
      exact caused
    · cases (Prod.mk.inj (List.singleton_inj.mp same)).2
    · exact absurd same.symm (joined planned' _)
  · obtain ⟨-, ⟨source', -, rfl⟩ | ⟨source', route', -, rfl⟩ | ⟨join', planned', -, rfl⟩⟩ :=
      accepted.runs.mem_successorCauses.mp otherMember
    · cases (Prod.mk.inj (List.singleton_inj.mp same)).2
    · obtain ⟨rfl, names⟩ := Prod.mk.inj (List.singleton_inj.mp same)
      cases names
      exact caused
    · exact absurd same.symm (joined planned' _)
  · obtain ⟨-, ⟨source', -, rfl⟩ | ⟨source', route', -, rfl⟩ | ⟨join', planned', -, rfl⟩⟩ :=
      accepted.runs.mem_successorCauses.mp otherMember
    · exact absurd same (joined planned _)
    · exact absurd same (joined planned _)
    · have sources : join.identity.sources = join'.identity.sources :=
        List.map_injective_iff.mpr (fun _ _ equal => (Prod.mk.inj equal).1) same
      intro source inside
      rw [← sources] at inside
      rw [← accepted.same_offsets planned planned' sources inside]
      exact caused source inside

variable {last : Nat} {active : Nat → GraphNodeId → Prop} {choice : Nat → GraphNodeId → Route}
  (trail : Trail (edgeRelation nodeIds entries edges routeOptions plan.joins) last active choice)
include trail

/-- The nodes of one cohort are active together. -/
theorem Accepted.coactive {a b : GraphNodeId} (known : b ∈ nodeIds)
    (cohort : activationCohortSignature entries (collectActivationGates edges) a =
      activationCohortSignature entries (collectActivationGates edges) b)
    {superstep : Nat} (here : active superstep a) : active superstep b := by
  obtain ⟨flag, sorts⟩ := Prod.mk.inj cohort
  rw [decide_eq_decide] at flag
  cases superstep with
  | zero => exact (trail.start b).mpr (flag.mp ((trail.start a).mp here))
  | succ superstep =>
      obtain ⟨cause, member, caused⟩ := trail.caused here
      have gate := accepted.runs.mem_gates.mpr ⟨cause, member, rfl⟩
      rw [← List.mem_insertionSort (r := fun a b => a.map gateSourceKey ≤ b.map gateSourceKey),
        sorts, List.mem_insertionSort] at gate
      obtain ⟨other, otherMember, same⟩ := accepted.runs.mem_gates.mp gate
      have bound := (trail.known _ _ here).2
      refine (trail.active_succ (by omega) (accepted.runs.mem_nodes.mpr known)).mpr
        ⟨other, otherMember, ?_⟩
      exact accepted.caused_congr member otherMember same.symm caused

theorem Accepted.outcome : Outcome entries (collectConditionalTargets edges) (ActivatedIn active)
    (SelectedIn active choice) := by
  constructor
  · intro entry member
    exact ⟨0, (trail.start entry).mpr member⟩
  · rintro node ⟨superstep, here⟩ several
    have selects := trail.selects superstep node here
    have known := FrontierRelation.mem_nodes.mp (trail.known superstep node here).1
    rw [accepted.runs.wellFormed.selective node known (by
      rw [frontierRelation_conditional accepted.runs.valid]
      exact several), List.mem_map] at selects
    obtain ⟨route, declared, chosen⟩ := selects
    rw [frontierRelation_conditional accepted.runs.valid, mem_sorted] at declared
    exact ⟨route, declared, superstep, here, chosen.symm⟩
  · rintro node route ⟨superstep, here, -⟩
    exact ⟨superstep, here⟩

/-- An activated node is an entry, or the run passed one of its gates. -/
theorem Accepted.passed {node : GraphNodeId} (here : ActivatedIn active node) : node ∈ entries ∨
    ∃ gate ∈ collectActivationGates edges node, ∀ pair ∈ gate,
      Passed (ActivatedIn active) (SelectedIn active choice) pair := by
  obtain ⟨superstep, here⟩ := here
  cases superstep with
  | zero => exact .inl ((trail.start node).mp here)
  | succ superstep =>
      obtain ⟨cause, member, caused⟩ := trail.caused here
      refine .inr ⟨cause.gate, accepted.runs.mem_gates.mpr ⟨cause, member, rfl⟩, ?_⟩
      intro pair inside
      obtain ⟨earlier, -, there⟩ := caused.sources inside
      refine ⟨⟨earlier, there⟩, ?_⟩
      intro route asked
      cases cause with
      | direct source =>
          obtain rfl := List.mem_singleton.mp inside
          cases asked
      | routed source name =>
          obtain rfl := List.mem_singleton.mp inside
          cases asked
          exact ⟨superstep, caused⟩
      | joined join =>
          obtain ⟨source, -, rfl⟩ := List.mem_map.mp inside
          cases asked

omit trail in
/-- The gates of an accepted definition are coherent. -/
theorem Accepted.coherent {rank : GraphNodeId → Nat}
    (table : RouteTable entries (collectActivationGates edges) dataDependencies
      (collectConditionalTargets edges) guarantees.getItem requirements rank)
    {node : GraphNodeId} (known : node ∈ requirements.keys) {gate : RawActivationGate}
    (member : gate ∈ collectActivationGates edges node) :
    Coherent requirements (collectConditionalTargets edges) gate := by
  have distinct : ∀ pair ∈ gate, Distinct (sourceRouteRequirements requirements
      (collectConditionalTargets edges) pair.1 pair.2).requirements := by
    intro pair inside
    exact (table.source_sided known (fun other otherKnown _ => table.grounded otherKnown) member
      inside).distinct
  rcases accepted.joint member with ⟨pair, rfl⟩ | ⟨join, planned, rfl, -⟩
  · refine coherent_of_same distinct ?_
    intro first firstInside second secondInside
    rw [List.mem_singleton.mp firstInside, List.mem_singleton.mp secondInside]
  · obtain ⟨repeatable, -, cases⟩ := accepted.join_cases
    rcases cases join planned with repeated | ⟨target, single⟩
    · refine table.cohort_coherent ?_ repeated.cohort
      intro source inside
      exact (table.gated node known _ member (source, none)
        (List.mem_map.mpr ⟨source, inside, rfl⟩)).1
    · refine coherent_of_same distinct ?_
      intro first firstInside second secondInside
      obtain ⟨a, insideA, rfl⟩ := List.mem_map.mp firstInside
      obtain ⟨b, insideB, rfl⟩ := List.mem_map.mp secondInside
      exact single.same a insideA b insideB

/-- An activated node has its requirement met by the routes of the run. -/
theorem Accepted.requirement_met {rank : GraphNodeId → Nat}
    (table : RouteTable entries (collectActivationGates edges) dataDependencies
      (collectConditionalTargets edges) guarantees.getItem requirements rank)
    {node : GraphNodeId} (known : node ∈ requirements.keys) (here : ActivatedIn active node) :
    Meets (SelectedIn active choice) (requirementOf requirements node) :=
  (accepted.outcome trail).meets table (fun _ _ there => accepted.passed trail there)
    (fun _ otherKnown _ member => accepted.coherent table otherKnown member) known here

/-- Where every cause activates its node, so does every passed gate. -/
theorem Accepted.fires {P : GraphNodeId → Prop}
    (firing : ∀ node, P node → ∀ superstep, ∀ cause ∈
      (edgeRelation nodeIds entries edges routeOptions plan.joins).successorCauses node,
      CausedAt active choice superstep cause → active (superstep + 1) node)
    {node : GraphNodeId} (holds : P node) {gate : RawActivationGate}
    (member : gate ∈ collectActivationGates edges node)
    (passed : ∀ pair ∈ gate, Passed (ActivatedIn active) (SelectedIn active choice) pair) :
    ActivatedIn active node := by
  obtain ⟨cause, caused, rfl⟩ := accepted.runs.mem_gates.mp member
  -- the superstep in which the cause holds
  have held : ∃ superstep, CausedAt active choice superstep cause := by
    cases cause with
    | direct source =>
        exact (passed (source, none) (List.mem_singleton.mpr rfl)).1
    | routed source route =>
        exact (passed (source, some route) (List.mem_singleton.mpr rfl)).2 route rfl
    | joined join =>
        have arrived : ∀ source ∈ join.identity.sources, ActivatedIn active source :=
          fun source inside => (passed (source, none) (List.mem_map.mpr ⟨source, inside, rfl⟩)).1
        obtain ⟨-, ⟨_, _, wrong⟩ | ⟨_, _, _, wrong⟩ | ⟨_, planned, -, same⟩⟩ :=
          accepted.runs.mem_successorCauses.mp caused
        · cases wrong
        · cases wrong
        · cases same
          obtain ⟨several, known⟩ := accepted.join_sources planned
          obtain ⟨repeatable, -, cases⟩ := accepted.join_cases
          rcases cases join planned with repeated | ⟨target, single⟩
          · obtain ⟨first, inside⟩ := List.exists_mem_of_ne_nil join.identity.sources (by
              intro none
              rw [none] at several
              cases several)
            obtain ⟨superstep, here⟩ := arrived first inside
            refine ⟨superstep, fun source otherInside => ⟨superstep, le_rfl, ?_, ?_⟩⟩
            · exact accepted.coactive trail (known otherInside)
                (repeated.cohort first inside source otherInside) here
            · rw [repeated.offsets source otherInside]
          · refine ⟨target - 1, fun source inside => ?_⟩
            obtain ⟨level, leveled, place⟩ := single.leveled source inside
            have positive := join.offset_positive inside
            obtain ⟨superstep, here⟩ := arrived source inside
            obtain rfl := accepted.active_absolute trail leveled here
            exact ⟨superstep, by omega, here, by omega⟩
  obtain ⟨superstep, here⟩ := held
  exact ⟨superstep + 1, firing node holds superstep cause caused here⟩

/-- Nodes with one exact source requirement are activated together. -/
theorem Accepted.activated_together {P : GraphNodeId → Prop}
    (inherited : Inherited (collectActivationGates edges) requirements P)
    (firing : ∀ node, P node → ∀ superstep, ∀ cause ∈
      (edgeRelation nodeIds entries edges routeOptions plan.joins).successorCauses node,
      CausedAt active choice superstep cause → active (superstep + 1) node)
    {a b : GraphNodeId}
    (same : sourceRouteRequirements requirements (collectConditionalTargets edges) a none =
      sourceRouteRequirements requirements (collectConditionalTargets edges) b none)
    (exactA : (summaryOf requirements a).exact = true)
    (exactB : (summaryOf requirements b).exact = true) (holds : P b)
    (here : ActivatedIn active a) : ActivatedIn active b := by
  obtain ⟨rank, table, -⟩ := accepted.routeTable
  have outcome := accepted.outcome trail
  have knownA := mem_keys_of_exact exactA
  have knownB := mem_keys_of_exact exactB
  have met := outcome.source_meets (table.grounded knownA).sided
    (selectable_none a) (passed_none here)
    (accepted.requirement_met trail table knownA here)
  rw [same] at met
  refine outcome.activated_of_meets table inherited ?_ exactB holds
    (met.coarser (sourceRouteRequirements_refines none (table.grounded knownB).sided.distinct))
  intro node _ nodeHolds gate member passed
  exact accepted.fires trail firing nodeHolds member passed

/-- The nodes that a run activates no later than its last superstep. -/
def Within (nodeIds : List GraphNodeId) (edges : List Edge) (levels : Dict GraphNodeId (List Nat))
    (last : Nat) (node : GraphNodeId) : Prop :=
  node ∉ cycleReachableNodes nodeIds (edgeSuccessors edges) ∧
    ∀ level ∈ levels.getItem node, level ≤ last

omit trail in
theorem Accepted.within_source {levels : Dict GraphNodeId (List Nat)}
    (computed : activationLevels nodeIds entries (edgeSuccessors edges) = .ok levels)
    {source target : GraphNodeId} (known : source ∈ nodeIds)
    (adjacent : target ∈ edgeSuccessors edges source)
    (within : Within nodeIds edges levels last target) :
    source ∉ cycleReachableNodes nodeIds (edgeSuccessors edges) ∧
      ∀ level ∈ levels.getItem source, level + 1 ∈ levels.getItem target := by
  obtain ⟨-, follows⟩ := activationLevels_spec accepted.entriesKnown computed
  constructor
  · intro varies
    apply within.1
    rw [mem_cycleReachableNodes (edgeSuccessors_closed accepted.runs.valid) accepted.distinct]
      at varies ⊢
    exact varies.step adjacent
  · intro level member
    exact follows source known target adjacent within.1 level member

omit trail in
theorem Accepted.within_inherited {levels : Dict GraphNodeId (List Nat)}
    (computed : activationLevels nodeIds entries (edgeSuccessors edges) = .ok levels) :
    Inherited (collectActivationGates edges) requirements (Within nodeIds edges levels last) := by
  intro node _ within gate member pair inside
  obtain ⟨known, adjacent⟩ := gate_edges accepted.runs.valid member inside
  obtain ⟨fixed, follows⟩ := accepted.within_source computed known adjacent within
  refine ⟨fixed, ?_⟩
  intro level here
  have bound := within.2 _ (follows level here)
  omega

/-- A cause of such a node holds before the last superstep. -/
theorem Accepted.within_firing {levels : Dict GraphNodeId (List Nat)}
    (computed : activationLevels nodeIds entries (edgeSuccessors edges) = .ok levels)
    (node : GraphNodeId) (within : Within nodeIds edges levels last node) (superstep : Nat)
    (cause : SuccessorCause) (member : cause ∈
      (edgeRelation nodeIds entries edges routeOptions plan.joins).successorCauses node)
    (caused : CausedAt active choice superstep cause) : active (superstep + 1) node := by
  obtain ⟨source, here, adjacent⟩ := accepted.recent_source member caused
  have known := accepted.runs.mem_nodes.mp (trail.known superstep source here).1
  obtain ⟨fixed, follows⟩ := accepted.within_source computed known adjacent within
  have bound := within.2 _ (follows superstep (accepted.active_level trail computed here fixed))
  have target : node ∈ nodeIds := edgeSuccessors_closed accepted.runs.valid source known adjacent
  exact (trail.active_succ (by omega) (accepted.runs.mem_nodes.mpr target)).mpr ⟨cause, member, caused⟩

/-- When one source of a Join arrives for the superstep after the last, all of them have. -/
theorem Accepted.arrived {join : CompiledJoin} (planned : join ∈ plan.joins) {source : GraphNodeId}
    (inside : source ∈ join.identity.sources) {earlier : Nat} (here : active earlier source)
    (place : earlier + join.offset source = last + 1) :
    ∀ other ∈ join.identity.sources, ∃ earlier ≤ last, active earlier other ∧
      earlier + join.offset other = last + 1 := by
  obtain ⟨repeatable, -, cases⟩ := accepted.join_cases
  intro other otherInside
  rcases cases join planned with repeated | ⟨target, single⟩
  · rw [repeated.offsets source inside] at place
    have now : earlier = last := by omega
    subst now
    refine ⟨earlier, le_rfl, ?_, by rw [repeated.offsets other otherInside]⟩
    exact accepted.coactive trail ((accepted.join_sources planned).2 otherInside)
      (repeated.cohort source inside other otherInside) here
  · obtain ⟨level, leveled, levelPlace⟩ := single.leveled source inside
    obtain ⟨otherLevel, otherLeveled, otherPlace⟩ := single.leveled other otherInside
    obtain rfl := accepted.active_absolute trail leveled here
    have positive := join.offset_positive otherInside
    have exactness : ∀ node ∈ join.identity.sources, (summaryOf requirements node).exact = true := by
      intro node nodeInside
      rw [← sourceRouteRequirements_exact none]
      exact single.exact node nodeInside
    obtain ⟨levels, computed, alone, fixed⟩ := accepted.absolute_level otherLeveled
    have within : Within nodeIds edges levels last other := by
      refine ⟨fixed, ?_⟩
      intro otherwise member
      rw [alone, List.mem_singleton] at member
      omega
    obtain ⟨superstep, there⟩ := accepted.activated_together trail
      (accepted.within_inherited computed) (accepted.within_firing trail computed)
      (single.same source inside other otherInside) (exactness source inside)
      (exactness other otherInside) within ⟨earlier, here⟩
    obtain rfl := accepted.active_absolute trail otherLeveled there
    exact ⟨superstep, by omega, there, by omega⟩

/-- When the last superstep causes nothing, every cause has activated its node. -/
theorem Accepted.quiet_firing
    (quiet : ∀ target ∈ nodeIds, ∀ cause ∈
      (edgeRelation nodeIds entries edges routeOptions plan.joins).successorCauses target,
      ¬ CausedAt active choice last cause)
    (node : GraphNodeId) (_ : True) (superstep : Nat) (cause : SuccessorCause) (member : cause ∈
      (edgeRelation nodeIds entries edges routeOptions plan.joins).successorCauses node)
    (caused : CausedAt active choice superstep cause) : active (superstep + 1) node := by
  obtain ⟨source, here, adjacent⟩ := accepted.recent_source member caused
  obtain ⟨sourceKnown, bound⟩ := trail.known superstep source here
  have known : node ∈ nodeIds := edgeSuccessors_closed accepted.runs.valid source
    (accepted.runs.mem_nodes.mp sourceKnown) adjacent
  by_cases final : superstep = last
  · subst final
    exact absurd caused (quiet node known cause member)
  · exact (trail.active_succ (by omega) (accepted.runs.mem_nodes.mpr known)).mpr
      ⟨cause, member, caused⟩

/-- When the last superstep causes nothing, no source of a Join waits for a later occurrence. -/
theorem Accepted.not_waiting
    (quiet : ∀ target ∈ nodeIds, ∀ cause ∈
      (edgeRelation nodeIds entries edges routeOptions plan.joins).successorCauses target,
      ¬ CausedAt active choice last cause)
    {join : CompiledJoin} (planned : join ∈ plan.joins) {source : GraphNodeId}
    (inside : source ∈ join.identity.sources) {earlier : Nat} (here : active earlier source) :
    earlier + join.offset source ≤ last + 1 := by
  obtain ⟨repeatable, -, cases⟩ := accepted.join_cases
  have bound := (trail.known earlier source here).2
  rcases cases join planned with repeated | ⟨target, single⟩
  · rw [repeated.offsets source inside]
    omega
  · obtain ⟨final, finalInside, one⟩ := single.last
    obtain ⟨level, leveled, levelPlace⟩ := single.leveled source inside
    obtain ⟨finalLevel, finalLeveled, finalPlace⟩ := single.leveled final finalInside
    obtain rfl := accepted.active_absolute trail leveled here
    have exactness : ∀ node ∈ join.identity.sources, (summaryOf requirements node).exact = true := by
      intro node nodeInside
      rw [← sourceRouteRequirements_exact none]
      exact single.exact node nodeInside
    obtain ⟨superstep, there⟩ := accepted.activated_together trail (P := fun _ => True)
      (fun _ _ _ _ _ _ _ => trivial) (accepted.quiet_firing trail quiet)
      (single.same source inside final finalInside) (exactness source inside)
      (exactness final finalInside) trivial ⟨earlier, here⟩
    obtain rfl := accepted.active_absolute trail finalLeveled there
    have finalBound := (trail.known superstep final there).2
    omega

end Runs

end MoteKernel
