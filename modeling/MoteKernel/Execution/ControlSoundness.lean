import MoteKernel.Execution.RouteExactness

/-!
# Soundness of accepted control flow

Every settled frontier of an all-success run of an accepted definition resolves:
no target has two causes, every Join occurrence is complete when it is due, no
partial Join waits once nothing is active, and a run that ends exposes one of the
completion routes of its plan.
-/

namespace MoteKernel
open Checked Canonical Digraph Rectangle

variable {τ : Type} {graph : CompiledGraph τ} {nodeIds entries : List GraphNodeId}
  {edges : List Edge} {routeOptions : Dict GraphNodeId (List Route)}
  {dataDependencies : DataDependencies} {requirements : Dict GraphNodeId RouteRequirementProof}
  {guarantees : Dict GraphNodeId (List GraphNodeId)} {plan : ControlPlan}

section Moves

variable (accepted : Accepted graph nodeIds entries edges routeOptions dataDependencies requirements
    guarantees plan) {state : GraphRunState}
include accepted

/-- The frontier of a run can move. -/
theorem Accepted.moves (run : ControlRun graph state) :
    (edgeRelation nodeIds entries edges routeOptions plan.joins).Moves
    (stateMarking state) (stateChoice state)
    ((edgeRelation nodeIds entries edges routeOptions plan.joins).after (stateMarking state)
      (stateChoice state)) := by
  have wellFormed := accepted.runs.wellFormed
  obtain ⟨active, choice, recorded⟩ := run.recorded wellFormed accepted.runs.carries
  obtain ⟨declared, arrivals, runsOn⟩ := run.runsOn wellFormed accepted.runs.carries
  have trail := recorded.trail
  have selects : ∀ node, (stateMarking state).active node → stateChoice state node ∈
      (edgeRelation nodeIds entries edges routeOptions plan.joins).options node := by
    intro node here
    rw [← accepted.runs.carries.options]
    exact runsOn.shape.selects here
  have arrives : ∀ join ∈ (edgeRelation nodeIds entries edges routeOptions plan.joins).joins,
      ∀ remaining, 1 ≤ remaining → remaining ≤ FrontierRelation.maximum join →
      ∀ source ∈ join.identity.sources, (stateMarking state).Arrives join remaining source ↔
        ∃ earlier ≤ state.superstep, active earlier source ∧
          earlier + join.offset source = state.superstep + remaining := by
    intro join member remaining low high source inside
    rw [recorded.agree.arrives wellFormed member inside low high]
    exact historyMarking_arrives
  refine ⟨fun node _ here => selects node here, ?_, ?_, ?_, ?_, fun _ _ => Iff.rfl,
    fun _ _ => Iff.rfl⟩
  · intro join member source inside arrived other otherInside
    have maximum := FrontierRelation.maximum_positive inside
    obtain ⟨earlier, -, here, place⟩ := (arrives join member 1 le_rfl maximum source inside).mp arrived
    rw [arrives join member 1 le_rfl maximum other otherInside]
    exact accepted.arrived trail (accepted.runs.mem_joins.mp member) inside here place other otherInside
  · intro join member remaining low high complete
    obtain ⟨source, inside, one⟩ := accepted.last_source (accepted.runs.mem_joins.mp member)
    obtain ⟨earlier, before, -, place⟩ :=
      (arrives join member remaining (by omega) high source inside).mp (complete source inside)
    omega
  · rintro join member source inside ⟨pending, here⟩
    have key : (⟨join, join.offset source, source⟩ : JoinKey) ∈
        (edgeRelation nodeIds entries edges routeOptions plan.joins).joinKeys :=
      FrontierRelation.mem_joinKeys.mpr ⟨member, join.offset_positive inside,
        FrontierRelation.offset_le_maximum join source, inside⟩
    obtain ⟨earlier, before, -, place⟩ := (recorded.pending _ key).mp pending
    simp only at place
    omega
  · intro target known
    obtain ⟨once, -⟩ := (FrontierRelation.completionRoutes_eq_ok wellFormed _).mp
      accepted.analysed.proved
    exact not_not.mp (once target known _ _
      (run.marked wellFormed accepted.runs.carries runsOn.declares).2
      (fun node _ here => selects node here))

/-- A frontier without causes has none in its history. -/
theorem Accepted.silent {active : Nat → GraphNodeId → Prop} {choice : Nat → GraphNodeId → Route}
    (recorded : Recorded (edgeRelation nodeIds entries edges routeOptions plan.joins) state active
      choice)
    (idle : ∀ target ∈ nodeIds, ∀ cause ∈
      (edgeRelation nodeIds entries edges routeOptions plan.joins).successorCauses target,
      ¬ (stateMarking state).Causes (stateChoice state) cause) :
    ∀ target ∈ nodeIds, ∀ cause ∈
      (edgeRelation nodeIds entries edges routeOptions plan.joins).successorCauses target,
      ¬ CausedAt active choice state.superstep cause := by
  intro target known cause member caused
  apply idle target known cause member
  rw [recorded.agree.causes accepted.runs.wellFormed (fun node _ here => (recorded.chosen node
    ((recorded.current node).mpr here)).symm) member]
  exact historyMarking_causes.mpr caused

/-- A run whose last frontier activates nothing has no partial Join. -/
theorem Accepted.quiet (run : ControlRun graph state)
    (idle : ∀ target ∈ nodeIds, ∀ cause ∈
      (edgeRelation nodeIds entries edges routeOptions plan.joins).successorCauses target,
      ¬ (stateMarking state).Causes (stateChoice state) cause) :
    (edgeRelation nodeIds entries edges routeOptions plan.joins).Agree
      ((edgeRelation nodeIds entries edges routeOptions plan.joins).after (stateMarking state)
        (stateChoice state)) ⟨fun _ => False, fun _ => False⟩ := by
  obtain ⟨active, choice, recorded⟩ := run.recorded accepted.runs.wellFormed accepted.runs.carries
  have silent := accepted.silent recorded idle
  constructor
  · intro target known
    refine iff_of_false ?_ id
    rintro ⟨cause, member, caused⟩
    exact idle target (accepted.runs.mem_nodes.mp known) cause member caused
  · intro key member
    refine iff_of_false ?_ id
    obtain ⟨join, low, high, inside⟩ := FrontierRelation.mem_joinKeys.mp member
    rintro ⟨less, arrived⟩
    rw [recorded.agree.arrives accepted.runs.wellFormed join inside (by omega) (by omega)] at arrived
    obtain ⟨earlier, -, here, place⟩ := historyMarking_arrives.mp arrived
    have bound := accepted.not_waiting recorded.trail silent (accepted.runs.mem_joins.mp join) inside
      here
    omega

end Moves

/-! ## Resolution -/

theorem idle_of_activations {relation : FrontierRelation} {declared : JoinDeclarations}
    {state : GraphRunState} {arrivals : JoinArrivals}
    (runsOn : RunsOn graph relation declared state arrivals)
    (resolvable : Resolvable graph state arrivals)
    (none : nextActivations (nextCauses graph state arrivals) = []) :
    ∀ target ∈ nodeIds, ∀ cause ∈ relation.successorCauses target,
      ¬ (stateMarking state).Causes (stateChoice state) cause := by
  intro target _ cause member caused
  have fires := (mem_firing runsOn target cause).mpr ⟨member, caused⟩
  rw [(activations_eq_nil runsOn resolvable).mp none] at fires
  cases fires

section Resolution

variable (accepted : Accepted graph nodeIds entries edges routeOptions dataDependencies requirements
    guarantees plan) {state : GraphRunState} (run : ControlRun graph state)
include accepted run

/-- Control resolves on every frontier of a run, and leaves no partial Join without an activation. -/
theorem Accepted.resolves : ∃ declared arrivals,
    RunsOn graph (edgeRelation nodeIds entries edges routeOptions plan.joins) declared state
      arrivals ∧ Resolvable graph state arrivals ∧
    (nextActivations (nextCauses graph state arrivals) = [] →
      (controlOutcomes graph state arrivals).filterMap JoinOutcome.progress = [] ∧
      (edgeRelation nodeIds entries edges routeOptions plan.joins).Agree
        ((edgeRelation nodeIds entries edges routeOptions plan.joins).after (stateMarking state)
          (stateChoice state)) ⟨fun _ => False, fun _ => False⟩) := by
  obtain ⟨declared, arrivals, runsOn⟩ := run.runsOn accepted.runs.wellFormed accepted.runs.carries
  have resolvable := (resolvable_iff runsOn).mpr (accepted.moves run)
  refine ⟨declared, arrivals, runsOn, resolvable, ?_⟩
  intro none
  have agree := accepted.quiet run (idle_of_activations runsOn resolvable none)
  exact ⟨((quiet_iff runsOn resolvable).mpr agree).2, agree⟩

/-- A run that ends exposes one of the completion routes of its plan. -/
theorem Accepted.completes {declared : JoinDeclarations} {arrivals : JoinArrivals}
    (runsOn : RunsOn graph (edgeRelation nodeIds entries edges routeOptions plan.joins) declared
      state arrivals)
    (agree : (edgeRelation nodeIds entries edges routeOptions plan.joins).Agree
        ((edgeRelation nodeIds entries edges routeOptions plan.joins).after (stateMarking state)
          (stateChoice state)) ⟨fun _ => False, fun _ => False⟩)
    (nonempty : state.frontier.nodes ≠ []) :
    ∃ route ∈ graph.completionRoutes, completionRoute graph state = .ok route := by
  have wellFormed := accepted.runs.wellFormed
  obtain ⟨-, agreed, -, same⟩ := (FrontierRelation.completionRoutes_eq_ok wellFormed _).mp
    accepted.analysed.proved
  obtain ⟨node, inside⟩ := List.exists_mem_of_ne_nil _ nonempty
  have here : (stateMarking state).active node.nodeId := List.mem_map.mpr ⟨node, inside, rfl⟩
  have known : ∀ other, (stateMarking state).active other →
      other ∈ (edgeRelation nodeIds entries edges routeOptions plan.joins).nodes := by
    intro other active
    exact FrontierRelation.mem_nodes.mpr
      ((accepted.runs.carries.nodes _).mp (runsOn.shape.active_known active))
  have ends : (edgeRelation nodeIds entries edges routeOptions plan.joins).Ends
      (stateMarking state) (stateChoice state) :=
    ⟨(run.marked wellFormed accepted.runs.carries runsOn.declares).2,
      ⟨node.nodeId, known _ here, here⟩,
      (accepted.moves run).congr wellFormed (.refl _) agree (fun _ _ _ => rfl)⟩
  refine ⟨stateChoice state node.nodeId, ?_, (completionRoute_eq_ok runsOn _).mpr ⟨nonempty, ?_⟩⟩
  · rw [accepted.routes, same, FrontierRelation.mem_exposedRoutes wellFormed]
    exact ⟨_, _, ends, node.nodeId, known _ here, here, rfl⟩
  · intro other active
    exact agreed _ _ ends other (known _ active) node.nodeId (known _ here) active here

end Resolution

/-- Routing facts without a waiting Join project to a command. -/
theorem projectRoutingFacts_exists (state : GraphRunState) (facts : RoutingFacts)
    (idle : facts.requiredTargets = [] → facts.remainingJoinProgress = []) :
    ∃ command, projectRoutingFacts state facts = .ok command ∧
      ∀ completed, command = .complete completed →
        facts.requiredTargets = [] ∧ completed.completionRoute = facts.completionRoute := by
  unfold projectRoutingFacts
  by_cases unavailable : (facts.requiredTargets.filter
      (fun target => target.unavailableInputs ≠ [])).map RequiredTarget.nodeId ≠ []
  · exact ⟨_, if_pos unavailable, fun completed wrong => by cases wrong⟩
  · by_cases more : facts.requiredTargets ≠ []
    · refine ⟨_, by rw [if_neg unavailable, if_pos more]; rfl, ?_⟩
      intro completed wrong
      cases wrong
    · rw [not_not] at more
      rw [if_neg unavailable, if_neg (not_not.mpr more), idle more]
      by_cases missing : facts.unavailableGraphOutputs ≠ []
      · refine ⟨_, by simp only [ne_eq, not_true_eq_false, raiseIf, if_false, if_pos missing]; rfl, ?_⟩
        intro completed wrong
        cases wrong
      · refine ⟨_, by simp only [ne_eq, not_true_eq_false, raiseIf, if_false, if_neg missing]; rfl, ?_⟩
        intro completed same
        cases same
        exact ⟨more, rfl⟩

/-- Every settled frontier of an all-success run of an accepted definition resolves: from its pending
arrivals `_resolve_control` finds one cause for each target and no conflicting Join, the completion
route of a frontier without successors is unique, and `project_routing_facts` returns a command
whatever values are available; a completion carries one of the compiled completion routes. -/
theorem control_flow_sound [DecidableEq τ] {definition : GraphDefinition τ}
    {nestedGraphs : Dict GraphNodeId (CompiledGraph τ)}
    (compiles : Compiles definition nestedGraphs graph) {state : GraphRunState}
    (run : ControlRun graph state) (settled : frontierStatus state.frontier = some .settled) :
    ∃ declared arrivals, declaredJoins graph = .ok declared ∧
      pendingJoinArrivals state declared = .ok arrivals ∧
      ∀ evaluation : RoutingFacts, evaluation.pendingError = none →
        evaluation.pendingJoinArrivals = arrivals →
        ∃ control route, resolveControl graph state evaluation = .ok control ∧
          resolvedCompletionRoute graph state control = .ok route ∧
          ∀ required unavailable, required.map RequiredTarget.nodeId =
              control.activations.map GraphFrontierActivation.nodeId →
            ∃ command, projectRoutingFacts state { control with
                requiredTargets := required
                unavailableGraphOutputs := unavailable
                completionRoute := route } = .ok command ∧
              ∀ completed, command = .complete completed →
                completed.completionRoute ∈ graph.completionRoutes := by
  obtain ⟨entries, routeOptions, dataDependencies, requirements, guarantees, plan, accepted⟩ :=
    compiles.accepted
  obtain ⟨declared, arrivals, runsOn, resolvable, closes⟩ := accepted.resolves run
  refine ⟨declared, arrivals, runsOn.declares, runsOn.pending, ?_⟩
  rintro evaluation clean rfl
  have nonempty : state.frontier.nodes ≠ [] := by
    intro none
    rw [frontierStatus, none] at settled
    cases settled
  obtain ⟨control, resolved⟩ : ∃ control, resolveControl graph state evaluation = .ok control :=
    ⟨_, (resolveControl_eq_ok graph state evaluation _).mpr ⟨clean, resolvable, rfl⟩⟩
  obtain ⟨-, -, fields⟩ := (resolveControl_eq_ok graph state evaluation control).mp resolved
  have activations : control.activations =
      nextActivations (nextCauses graph state evaluation.pendingJoinArrivals) := by
    rw [fields]
  have remaining : control.remainingJoinProgress = (controlOutcomes graph state
      evaluation.pendingJoinArrivals).filterMap JoinOutcome.progress := by
    rw [fields]
  have idle : control.activations = [] → control.remainingJoinProgress = [] := by
    rw [activations, remaining]
    exact fun none => (closes none).1
  -- the completion route, read only when nothing is activated
  have exposes : ∃ route, resolvedCompletionRoute graph state control = .ok route ∧
      (control.activations = [] → route ∈ graph.completionRoutes) := by
    by_cases goes : control.activations = []
    · obtain ⟨route, member, completes⟩ :=
        accepted.completes run runsOn (closes (activations ▸ goes)).2 nonempty
      refine ⟨route, ?_, fun _ => member⟩
      rw [resolvedCompletionRoute, if_neg (by
        rintro (more | waits)
        · exact more goes
        · exact waits (idle goes))]
      exact completes
    · exact ⟨none, by rw [resolvedCompletionRoute, if_pos (.inl goes)]; rfl,
        fun none => absurd none goes⟩
  obtain ⟨route, exposed, declaredRoute⟩ := exposes
  refine ⟨control, route, resolved, exposed, ?_⟩
  intro required unavailable targets
  have empty : required = [] → control.activations = [] := by
    intro none
    rw [none] at targets
    exact List.map_eq_nil_iff.mp targets.symm
  obtain ⟨command, projected, completes⟩ := projectRoutingFacts_exists state
    { control with
      requiredTargets := required
      unavailableGraphOutputs := unavailable
      completionRoute := route } (fun none => idle (empty none))
  refine ⟨command, projected, ?_⟩
  intro completed same
  obtain ⟨none, carried⟩ := completes completed same
  rw [carried]
  exact declaredRoute (empty none)

/-! ## Runs with fixed routes -/

/-- What `_resolve_control` computes from the pending arrivals of a state. -/
def resolvedControl (graph : CompiledGraph τ) (state : GraphRunState) :
    Except ExecutionError RoutingFacts := do
  let declared ← declaredJoins graph
  let arrivals ← pendingJoinArrivals state declared
  resolveControl graph state { declaredJoins := declared, pendingJoinArrivals := arrivals }

/-- The frontier of a run after some supersteps, if control resolves in each and the chosen routes
are declared. -/
def chosenRun (graph : CompiledGraph τ) (choice : GraphNodeId → Route) : Nat → Option GraphRunState
  | 0 =>
      let activations := graph.transition.entries.map (fun nodeId => ⟨nodeId, .start⟩)
      let base : GraphRunState :=
        { runId := "run", definitionId := graph.definitionId, definitionVersion := graph.version,
          status := .running, superstep := 0, frontier := ⟨[]⟩ }
      if ∀ activation ∈ activations,
          choice activation.nodeId ∈ graph.routeOptions activation.nodeId then
        some (succeededState base 0 activations [] choice)
      else none
  | superstep + 1 => do
      let state ← chosenRun graph choice superstep
      let control ← (resolvedControl graph state).toOption
      if ∀ activation ∈ control.activations,
          choice activation.nodeId ∈ graph.routeOptions activation.nodeId then
        some (succeededState state (state.superstep + 1) control.activations
          control.remainingJoinProgress choice)
      else none

theorem resolvesTo_iff_resolvedControl {state : GraphRunState} {control : RoutingFacts} :
    ResolvesTo graph state control ↔ resolvedControl graph state = .ok control := by
  simp only [ResolvesTo, resolvedControl, bind_eq_ok]
  constructor
  · rintro ⟨declared, arrivals, declares, pending, resolved⟩
    exact ⟨declared, declares, arrivals, pending, resolved⟩
  · rintro ⟨declared, declares, arrivals, pending, resolved⟩
    exact ⟨declared, arrivals, declares, pending, resolved⟩

/-- Such frontiers are those of a run. -/
theorem chosenRun_run {choice : GraphNodeId → Route} {supersteps : Nat} {state : GraphRunState}
    (reached : chosenRun graph choice supersteps = some state) : ControlRun graph state := by
  induction supersteps generalizing state with
  | zero =>
      simp only [chosenRun, Option.ite_none_right_eq_some, Option.some.injEq] at reached
      obtain ⟨declared, rfl⟩ := reached
      refine .start ⟨rfl, succeededState_opens, rfl, fun reference => ?_⟩
        (succeededState_settles declared)
      rw [succeededState_ledger]
      exact or_iff_right List.not_mem_nil
  | succ superstep ih =>
      simp only [chosenRun, Option.bind_eq_bind, Option.bind_eq_some_iff,
        Option.ite_none_right_eq_some, Option.some.injEq] at reached
      obtain ⟨before, earlier, control, resolved, declared, rfl⟩ := reached
      exact .advance (ih earlier) (resolvesTo_iff_resolvedControl.mpr (toOption_eq_some.mp resolved))
        (succeededState_follows before control choice) (succeededState_settles declared)

/-- The command of a settled frontier whose values are all available. -/
def settledCommand (graph : CompiledGraph τ) (state : GraphRunState) :
    Except ExecutionError ResolutionCommand := do
  let control ← resolvedControl graph state
  let route ← resolvedCompletionRoute graph state control
  projectRoutingFacts state { control with
    requiredTargets := control.activations.map (fun activation => ⟨activation.nodeId, []⟩)
    completionRoute := route }

/-- The nodes an advance opens; other commands open none. -/
def ResolutionCommand.opened : ResolutionCommand → Option (List GraphNodeId)
  | .advance command => some (command.activations.map (·.nodeId))
  | .complete _ => none
  | .abort _ => none

/-- A Join of a node and of the last of its followers. -/
def stepsDefinition : GraphDefinition Unit where
  definitionId := "steps"
  version := 1
  nodes := [.callable ⟨"a", [], [], [], []⟩, .callable ⟨"b", [], [], [], []⟩,
    .callable ⟨"c", [], [], [], []⟩, .callable ⟨"d", [], [], [], []⟩]
  edges := [.direct "a" "b", .direct "b" "c", .join ["a", "c"] "d"]
  entries := ["a"]
  outputs := []

theorem stepsDefinition_compiles :
    Compiles stepsDefinition Dict.empty (compiledGraph stepsDefinition) :=
  compiles_compiledGraph (by decide) (by simp [stepsDefinition]) (by decide +kernel)

/-- The Join opens its target, and the run of its target completes. -/
theorem steps_resolve : ∃ joining advance ended,
    chosenRun (compiledGraph stepsDefinition) (fun _ => none) 2 = some joining ∧
    settledCommand (compiledGraph stepsDefinition) joining = .ok (.advance advance) ∧
    advance.activations.map (·.nodeId) = ["d"] ∧
    chosenRun (compiledGraph stepsDefinition) (fun _ => none) 3 = some ended ∧
    settledCommand (compiledGraph stepsDefinition) ended = .ok (.complete ⟨0, [], none⟩) ∧
    none ∈ (compiledGraph stepsDefinition).completionRoutes := by
  have resolves : ∀ state, ControlRun (compiledGraph stepsDefinition) state →
      frontierStatus state.frontier = some .settled → ∃ command,
        settledCommand (compiledGraph stepsDefinition) state = .ok command ∧
        ∀ completed, command = .complete completed →
          completed.completionRoute ∈ (compiledGraph stepsDefinition).completionRoutes := by
    intro state run settled
    obtain ⟨declared, arrivals, declares, pending, flows⟩ :=
      control_flow_sound stepsDefinition_compiles run settled
    obtain ⟨control, route, resolved, exposed, projects⟩ :=
      flows { declaredJoins := declared, pendingJoinArrivals := arrivals } rfl rfl
    obtain ⟨command, projected, completes⟩ :=
      projects (control.activations.map (fun activation => ⟨activation.nodeId, []⟩))
        control.unavailableGraphOutputs (by rw [List.map_map]; rfl)
    refine ⟨command, ?_, completes⟩
    rw [settledCommand, resolvesTo_iff_resolvedControl.mp
      ⟨declared, arrivals, declares, pending, resolved⟩, ok_bind, exposed, ok_bind]
    exact projected
  have joins : (chosenRun (compiledGraph stepsDefinition) (fun _ => none) 2).map (fun state =>
      (frontierStatus state.frontier, (settledCommand (compiledGraph stepsDefinition)
        state).toOption.bind ResolutionCommand.opened)) = some (some .settled, some ["d"]) := by
    decide +kernel
  have ends : (chosenRun (compiledGraph stepsDefinition) (fun _ => none) 3).map (fun state =>
      (frontierStatus state.frontier, (settledCommand (compiledGraph stepsDefinition)
        state).toOption)) = some (some .settled, some (.complete ⟨0, [], none⟩)) := by
    decide +kernel
  obtain ⟨joining, reached, shown⟩ := Option.map_eq_some_iff.mp joins
  obtain ⟨settled, opens⟩ := Prod.mk.inj shown
  obtain ⟨command, commanded, -⟩ := resolves joining (chosenRun_run reached) settled
  obtain ⟨ended, reached', shown'⟩ := Option.map_eq_some_iff.mp ends
  obtain ⟨settled', closes⟩ := Prod.mk.inj shown'
  obtain ⟨last, commanded', completes⟩ := resolves ended (chosenRun_run reached') settled'
  rw [commanded] at opens
  rw [commanded'] at closes
  obtain rfl := Option.some.inj closes
  cases command with
  | advance advance =>
      exact ⟨joining, advance, ended, reached, commanded, Option.some.inj opens, reached',
        commanded', completes _ rfl⟩
  | complete complete => cases opens
  | abort abort => cases opens

/-! ## Route requirements -/

section Requirements

variable (accepted : Accepted graph nodeIds entries edges routeOptions dataDependencies requirements
    guarantees plan) {state : GraphRunState} {control : RoutingFacts}
include accepted

/-- The history of a run that has ended. -/
theorem Accepted.ended (run : ControlRun graph state) (resolves : ResolvesTo graph state control)
    (ends : control.activations = []) : ∃ active choice,
    Recorded (edgeRelation nodeIds entries edges routeOptions plan.joins) state active choice ∧
      ∀ target ∈ nodeIds, ∀ cause ∈
        (edgeRelation nodeIds entries edges routeOptions plan.joins).successorCauses target,
        ¬ CausedAt active choice state.superstep cause := by
  obtain ⟨active, choice, recorded⟩ := run.recorded accepted.runs.wellFormed accepted.runs.carries
  obtain ⟨declared, arrivals, runsOn⟩ := run.runsOn accepted.runs.wellFormed accepted.runs.carries
  obtain ⟨resolvable, rfl⟩ := (resolvesTo_iff runsOn.declares runsOn.pending control).mp resolves
  exact ⟨active, choice, recorded,
    accepted.silent recorded (idle_of_activations runsOn resolvable ends)⟩

/-- In a run that has ended, a node with an exact summary is activated exactly when the selected
routes meet it. -/
theorem Accepted.activated_iff (run : ControlRun graph state)
    (resolves : ResolvesTo graph state control) (ends : control.activations = [])
    {node : GraphNodeId} (exact : (summaryOf requirements node).exact = true) :
    ActivatedBy state node ↔ Meets (SelectedBy state) (requirementOf requirements node) := by
  obtain ⟨active, choice, recorded, silent⟩ := accepted.ended run resolves ends
  obtain ⟨rank, table, -⟩ := accepted.routeTable
  have selected : SelectedBy state = SelectedIn active choice := by
    funext source route
    exact propext recorded.selectedBy
  rw [recorded.activatedBy, selected]
  constructor
  · intro here
    exact accepted.requirement_met recorded.trail table (mem_keys_of_exact exact) here
  · intro meets
    refine (accepted.outcome recorded.trail).activated_of_meets table (P := fun _ => True)
      (fun _ _ _ _ _ _ _ => trivial) ?_ exact trivial meets
    intro other _ holds gate member passed
    exact accepted.fires recorded.trail (accepted.quiet_firing recorded.trail silent) holds member
      passed

/-- In a run that has ended, nodes with one exact source requirement are activated together. -/
theorem Accepted.activated_same (run : ControlRun graph state)
    (resolves : ResolvesTo graph state control) (ends : control.activations = [])
    {a b : GraphNodeId}
    (same : sourceRouteRequirements requirements (collectConditionalTargets edges) a none =
      sourceRouteRequirements requirements (collectConditionalTargets edges) b none)
    (exact : (sourceRouteRequirements requirements (collectConditionalTargets edges) a none).exact =
      true) (here : ActivatedBy state a) : ActivatedBy state b := by
  obtain ⟨active, choice, recorded, silent⟩ := accepted.ended run resolves ends
  have exactB := same ▸ exact
  rw [sourceRouteRequirements_exact] at exact exactB
  rw [recorded.activatedBy] at here ⊢
  exact accepted.activated_together recorded.trail (P := fun _ => True)
    (fun _ _ _ _ _ _ _ => trivial) (accepted.quiet_firing recorded.trail silent) same exact exactB
    trivial here

end Requirements

/-- The summaries of `_validate_joint_activation_paths` are exact in the all-success runs of an
accepted definition. In a run that has ended, a node whose summary is marked exact was activated
exactly when the selected routes meet the summary, and two nodes with the same exact source
requirement were activated together; and on every frontier of a run control resolves, with no Join
left waiting when nothing is activated. -/
theorem route_requirements_exact [DecidableEq τ] {definition : GraphDefinition τ}
    {nestedGraphs : Dict GraphNodeId (CompiledGraph τ)}
    {routes : List (GraphNodeId × List Route)}
    (compiles : Compiles definition nestedGraphs graph)
    (planned : Planned definition nestedGraphs graph entries routes dataDependencies plan)
    (required : validateJointActivationPaths (nodeIdsOf definition) entries
      (collectActivationGates definition.edges) dataDependencies
      (collectConditionalTargets definition.edges) (edgeSuccessors definition.edges) =
        .ok requirements) :
    (∀ state control, ControlRun graph state → ResolvesTo graph state control →
      control.activations = [] →
      (∀ node proof, requirements.get? node = some proof → proof.exact = true →
        (ActivatedBy state node ↔ Meets (SelectedBy state) proof.requirements)) ∧
      ∀ a b, sourceRouteRequirements requirements (collectConditionalTargets definition.edges) a
            none =
          sourceRouteRequirements requirements (collectConditionalTargets definition.edges) b none →
        (sourceRouteRequirements requirements (collectConditionalTargets definition.edges) a
          none).exact = true →
        (ActivatedBy state a ↔ ActivatedBy state b)) ∧
    ∀ state, ControlRun graph state → ∃ control, ResolvesTo graph state control ∧
      (control.activations = [] → control.remainingJoinProgress = []) := by
  obtain ⟨requirements', guarantees, accepted⟩ := compiles.accepted_plan planned
  obtain rfl := Except.ok.inj (accepted.analysed.required.symm.trans required)
  constructor
  · intro state control run resolves ends
    constructor
    · intro node proof found exact
      have summary : summaryOf requirements' node = proof := by
        rw [summaryOf, found, Option.getD_some]
      rw [← summary] at exact ⊢
      exact accepted.activated_iff run resolves ends exact
    · intro a b same exact
      exact ⟨accepted.activated_same run resolves ends same exact,
        accepted.activated_same run resolves ends same.symm (same ▸ exact)⟩
  · intro state run
    obtain ⟨declared, arrivals, runsOn, resolvable, closes⟩ := accepted.resolves run
    exact ⟨_, (resolvesTo_iff runsOn.declares runsOn.pending _).mpr ⟨resolvable, rfl⟩,
      fun none => (closes none).1⟩

/-- A node that selects one of two successors. -/
def branchDefinition : GraphDefinition Unit where
  definitionId := "branch"
  version := 1
  nodes := [.callable ⟨"a", [], [], [], []⟩, .callable ⟨"b", [], [], [], []⟩,
    .callable ⟨"c", [], [], [], []⟩]
  edges := [.conditional "a" "left" "b", .conditional "a" "right" "c"]
  entries := ["a"]
  outputs := []

theorem branchDefinition_compiles :
    Compiles branchDefinition Dict.empty (compiledGraph branchDefinition) :=
  compiles_compiledGraph (by decide) (by simp [branchDefinition]) (by decide +kernel)

/-- The branch consumes no values. -/
theorem branchDefinition_planned : ∃ routes plan, Planned branchDefinition Dict.empty
    (compiledGraph branchDefinition) ["a"] routes (fun _ => []) plan := by
  obtain ⟨entries, routes, dataDependencies, other, planned⟩ :=
    compileDefinition_planned branchDefinition_compiles.compiled
  have collected : routes = [("a", [some "left", some "right"]), ("b", [none]), ("c", [none])] := by
    refine Except.ok.inj (planned.collected.symm.trans ?_)
    decide
  have computed : (planControl (nodeIdsOf branchDefinition) ["a"] (controlTopology
      branchDefinition.edges (dictOf [("a", [some "left", some "right"]), ("b", [none]),
        ("c", [none])])) (fun _ => [])).toOption.map (fun plan => (plan.joins, plan.completionRoutes)) =
        some ([], [none]) := by decide +kernel
  rw [Option.map_eq_some_iff] at computed
  obtain ⟨plan, found, fields⟩ := computed
  obtain ⟨joins, completion⟩ := Prod.mk.inj fields
  have start : (compiledGraph branchDefinition).transition.entries = ["a"] := by decide +kernel
  refine ⟨routes, plan, planned.nodes, planned.collected, by decide, ?_, start, planned.direct,
    planned.conditional, planned.options, ?_, ?_⟩
  · rw [collected]
    exact toOption_eq_some.mp found
  · rw [joins]
    decide +kernel
  · rw [completion]
    decide +kernel

/-- The frontier that selects the left successor, and then ends. -/
theorem branch_run : ∃ state control, ControlRun (compiledGraph branchDefinition) state ∧
    ResolvesTo (compiledGraph branchDefinition) state control ∧ control.activations = [] ∧
    state.settledReferences.map (fun reference => (reference.activation.nodeId, reference.route)) =
      [("a", some "left"), ("b", none)] := by
  have ends : (chosenRun (compiledGraph branchDefinition)
      (fun nodeId => if nodeId = "a" then some "left" else none) 1).bind (fun state =>
        (resolvedControl (compiledGraph branchDefinition) state).toOption.map (fun control =>
          (control.activations, state.settledReferences.map (fun reference =>
            (reference.activation.nodeId, reference.route))))) =
      some ([], [("a", some "left"), ("b", none)]) := by decide +kernel
  obtain ⟨state, reached, shown⟩ := Option.bind_eq_some_iff.mp ends
  obtain ⟨control, resolved, facts⟩ := Option.map_eq_some_iff.mp shown
  obtain ⟨closes, settled⟩ := Prod.mk.inj facts
  exact ⟨state, control, chosenRun_run reached,
    resolvesTo_iff_resolvedControl.mpr (toOption_eq_some.mp resolved), closes, settled⟩

/-- A run of the branch activates the successor whose route was selected, and not the other. -/
theorem branch_requirement : ∃ routes plan requirements, Planned branchDefinition Dict.empty
      (compiledGraph branchDefinition) ["a"] routes (fun _ => []) plan ∧
    validateJointActivationPaths (nodeIdsOf branchDefinition) ["a"]
      (collectActivationGates branchDefinition.edges) (fun _ => [])
      (collectConditionalTargets branchDefinition.edges) (edgeSuccessors branchDefinition.edges) =
        .ok requirements ∧
    ∃ state control, ControlRun (compiledGraph branchDefinition) state ∧
      ResolvesTo (compiledGraph branchDefinition) state control ∧ control.activations = [] ∧
      Meets (SelectedBy state) [("a", ["left"])] ∧ ActivatedBy state "b" ∧
      ¬ Meets (SelectedBy state) [("a", ["right"])] ∧ ¬ ActivatedBy state "c" := by
  obtain ⟨routes, plan, planned⟩ := branchDefinition_planned
  have required : validateJointActivationPaths (nodeIdsOf branchDefinition) ["a"]
      (collectActivationGates branchDefinition.edges) (fun _ => [])
      (collectConditionalTargets branchDefinition.edges) (edgeSuccessors branchDefinition.edges) =
        .ok ⟨[("a", ⟨[("a", ["left", "right"])], true⟩), ("b", ⟨[("a", ["left"])], true⟩),
          ("c", ⟨[("a", ["right"])], true⟩)], by decide⟩ := by decide
  obtain ⟨state, control, run, resolves, ends, settled⟩ := branch_run
  have exact := ((route_requirements_exact branchDefinition_compiles planned required).1 state
    control run resolves ends).1
  have left := exact "b" ⟨[("a", ["left"])], true⟩ (by decide) rfl
  have right := exact "c" ⟨[("a", ["right"])], true⟩ (by decide) rfl
  have activated (nodeId : GraphNodeId) :
      ActivatedBy state nodeId ↔ nodeId = "a" ∨ nodeId = "b" := by
    have names := congrArg (List.map Prod.fst) settled
    rw [List.map_map] at names
    rw [show ActivatedBy state nodeId ↔ nodeId ∈ state.settledReferences.map
      (·.activation.nodeId) from List.mem_map.symm]
    rw [show state.settledReferences.map (·.activation.nodeId) = ["a", "b"] from names]
    simp
  have bGoes := (activated "b").mpr (.inr rfl)
  have cStays : ¬ ActivatedBy state "c" := by
    rw [activated]
    decide
  exact ⟨routes, plan, _, planned, required, state, control, run, resolves, ends, left.mp bGoes,
    bGoes, fun meets => cStays (right.mpr meets), cStays⟩

/-! ## The schedule of the Joins -/

section Schedule

variable (accepted : Accepted graph nodeIds entries edges routeOptions dataDependencies requirements
    guarantees plan) {state : GraphRunState} {active : Nat → GraphNodeId → Prop}
  {choice : Nat → GraphNodeId → Route}
  (recorded : Recorded (edgeRelation nodeIds entries edges routeOptions plan.joins) state active
    choice)
include accepted recorded

/-- An occurrence with one arrival, whose target follows a superstep of the run, has them all. -/
theorem Accepted.occurrence_complete {join : CompiledJoin} (planned : join ∈ plan.joins)
    {source : GraphNodeId} (inside : source ∈ join.identity.sources) {earlier target : Nat}
    (here : active earlier source) (place : earlier + join.offset source = target)
    (reached : target ≤ state.superstep + 1) :
    ∀ other ∈ join.identity.sources, ∃ superstep, active superstep other ∧
      superstep + join.offset other = target := by
  have positive := join.offset_positive inside
  obtain ⟨before, rfl⟩ : ∃ before, target = before + 1 := ⟨target - 1, by omega⟩
  have complete : ∀ other ∈ join.identity.sources, ∃ earlier ≤ before, active earlier other ∧
      earlier + join.offset other = before + 1 := by
    by_cases final : before = state.superstep
    · subst final
      exact accepted.arrived recorded.trail planned inside here place
    · exact recorded.trail.arrived (by omega) (accepted.runs.mem_joins.mpr planned) inside here place
  intro other otherInside
  obtain ⟨superstep, -, there, otherPlace⟩ := complete other otherInside
  exact ⟨superstep, there, otherPlace⟩

end Schedule

/-- The static coordinates of an accepted definition hold in its all-success runs. A node with a
single level is activated at that superstep only, and at most once. An occurrence of a Join that one
source reached, and whose target superstep the run reaches, has exactly one arrival of every source,
the last of them one superstep before the target; and two activations of one source belong to
different occurrences. -/
theorem join_schedule_sound [DecidableEq τ] {definition : GraphDefinition τ}
    {nestedGraphs : Dict GraphNodeId (CompiledGraph τ)}
    (compiles : Compiles definition nestedGraphs graph) :
    (∀ levels, absoluteActivationLevels (nodeIdsOf definition) graph.transition.entries
        (edgeSuccessors definition.edges) = .ok levels →
      ∀ node level, levels node = some level → ∀ state, ControlRun graph state →
        ∀ reference ∈ state.settledReferences, reference.activation.nodeId = node →
          reference.activation.superstep = level ∧
          ∀ other ∈ state.settledReferences, other.activation.nodeId = node → other = reference) ∧
    ∀ state, ControlRun graph state → ∀ source, ∀ join ∈ graph.joinsBySource source,
      (∀ target ≤ state.superstep + 1, (∃ reference, ArrivesAt state join target source reference) →
        (∀ other ∈ join.identity.sources, ∃! reference,
          ArrivesAt state join target other reference) ∧
        (∃ other ∈ join.identity.sources, ∃ reference, ArrivesAt state join target other reference ∧
          reference.activation.superstep + 1 = target) ∧
        ∀ other ∈ join.identity.sources, ∀ reference,
          ArrivesAt state join target other reference →
            reference.activation.superstep + 1 ≤ target) ∧
      ∀ first ∈ state.settledReferences, ∀ second ∈ state.settledReferences,
        first.activation.nodeId = source → second.activation.nodeId = source → first ≠ second →
          join.occurrenceFor first.activation ≠ join.occurrenceFor second.activation := by
  obtain ⟨entries, routeOptions, dataDependencies, requirements, guarantees, plan, accepted⟩ :=
    compiles.accepted
  have history : ∀ state, ControlRun graph state → ∃ active choice, Recorded
      (edgeRelation (nodeIdsOf definition) entries definition.edges routeOptions plan.joins) state
      active choice := fun state run => run.recorded accepted.runs.wellFormed accepted.runs.carries
  constructor
  · intro levels computed node level single state run reference member named
    obtain ⟨active, choice, recorded⟩ := history state run
    rw [accepted.graphEntries] at computed
    obtain rfl := Except.ok.inj (accepted.analysed.levels.symm.trans computed)
    -- the one activation of the node
    have only : ∀ other ∈ state.settledReferences, other.activation.nodeId = node →
        other = activationReference state.runId level node (choice level node) := by
      rintro other otherMember rfl
      obtain ⟨superstep, node, here, rfl⟩ := (recorded.ledger _).mp otherMember
      obtain rfl := accepted.active_absolute recorded.trail single here
      rfl
    rw [only reference member named]
    exact ⟨rfl, only⟩
  · intro state run source join listed
    obtain ⟨active, choice, recorded⟩ := history state run
    have inside : source ∈ join.identity.sources := (accepted.runs.wellFormed.listed source).2 join
      ((accepted.runs.carries.joins source).mem_iff.mp listed)
    have planned : join ∈ plan.joins := accepted.runs.mem_joins.mp (FrontierRelation.mem_joins.mpr
      ⟨source, (accepted.runs.carries.joins source).mem_iff.mp listed⟩)
    constructor
    · rintro target reached ⟨reference, arrives⟩
      obtain ⟨earlier, here, place, rfl⟩ := (recorded.arrivesAt inside).mp arrives
      have complete := accepted.occurrence_complete recorded planned inside here place reached
      refine ⟨?_, ?_, ?_⟩
      · intro other otherInside
        obtain ⟨superstep, there, otherPlace⟩ := complete other otherInside
        refine ⟨_, (recorded.arrivesAt otherInside).mpr ⟨superstep, there, otherPlace, rfl⟩, ?_⟩
        intro another anotherArrives
        obtain ⟨superstep', -, otherPlace', rfl⟩ := (recorded.arrivesAt otherInside).mp anotherArrives
        obtain rfl : superstep' = superstep := by omega
        rfl
      · obtain ⟨final, finalInside, one⟩ := accepted.last_source planned
        obtain ⟨superstep, there, finalPlace⟩ := complete final finalInside
        refine ⟨final, finalInside, _,
          (recorded.arrivesAt finalInside).mpr ⟨superstep, there, finalPlace, rfl⟩, ?_⟩
        rw [one] at finalPlace
        exact finalPlace
      · intro other otherInside another anotherArrives
        obtain ⟨superstep, -, otherPlace, rfl⟩ := (recorded.arrivesAt otherInside).mp anotherArrives
        have positive := join.offset_positive otherInside
        show superstep + 1 ≤ target
        omega
    · intro first firstMember second secondMember firstNamed secondNamed different same
      obtain ⟨a, node, -, rfl⟩ := (recorded.ledger _).mp firstMember
      obtain ⟨b, other, -, rfl⟩ := (recorded.ledger _).mp secondMember
      obtain rfl : node = source := firstNamed
      obtain rfl : other = node := secondNamed
      have occurs := (join.occurrenceFor_eq_ok ⟨state.runId, a, other⟩ _).mpr ⟨inside, rfl⟩
      have target := congrArg GraphJoinOccurrenceIdentity.targetSuperstep
        ((join.occurrenceFor_eq_ok ⟨state.runId, b, other⟩ _).mp (same.symm.trans occurs)).2
      have supersteps : a + join.offset other = b + join.offset other := target
      obtain rfl : a = b := by omega
      exact different rfl

/-- The last follower is activated in the third superstep, and the Join finds both its sources. -/
theorem steps_schedule : ∃ levels join state, absoluteActivationLevels (nodeIdsOf stepsDefinition)
      (compiledGraph stepsDefinition).transition.entries (edgeSuccessors stepsDefinition.edges) =
        .ok levels ∧ levels "c" = some 2 ∧
    join ∈ (compiledGraph stepsDefinition).joinsBySource "a" ∧ join.identity.sources = ["a", "c"] ∧
    ControlRun (compiledGraph stepsDefinition) state ∧ state.superstep = 2 ∧
    (∃ reference ∈ state.settledReferences, reference.activation.nodeId = "c") ∧
    (∀ reference ∈ state.settledReferences, reference.activation.nodeId = "c" →
      reference.activation.superstep = 2) ∧
    (∃ reference, ArrivesAt state join 3 "a" reference) ∧
    ∃! reference, ArrivesAt state join 3 "c" reference := by
  have sound := join_schedule_sound stepsDefinition_compiles
  have computed : (absoluteActivationLevels (nodeIdsOf stepsDefinition)
      (compiledGraph stepsDefinition).transition.entries
      (edgeSuccessors stepsDefinition.edges)).toOption.map (fun levels => levels "c") =
        some (some 2) := by decide +kernel
  obtain ⟨levels, found, single⟩ := Option.map_eq_some_iff.mp computed
  have leveled := toOption_eq_some.mp found
  have reaches : (chosenRun (compiledGraph stepsDefinition) (fun _ => none) 2).map (fun state =>
      (state.superstep, decide (∃ join ∈ (compiledGraph stepsDefinition).joinsBySource "a",
        join.identity.sources = ["a", "c"] ∧
        (∃ reference ∈ state.settledReferences, reference.activation.nodeId = "c") ∧
        ∃ reference ∈ state.settledReferences, reference.activation.nodeId = "a" ∧
          join.occurrenceFor reference.activation = .ok ⟨join.identity, state.runId, 3⟩))) =
      some (2, true) := by decide +kernel
  obtain ⟨state, reached, facts⟩ := Option.map_eq_some_iff.mp reaches
  obtain ⟨superstep, shown⟩ := Prod.mk.inj facts
  obtain ⟨join, listed, sources, settles, reference, arrives⟩ := of_decide_eq_true shown
  have run := chosenRun_run reached
  refine ⟨levels, join, state, leveled, single, listed, sources, run, superstep, settles, ?_,
    ⟨reference, arrives⟩, ?_⟩
  · intro reference member named
    exact (sound.1 levels leveled "c" 2 single state run reference member named).1
  · refine ((sound.2 state run "a" join listed).1 3 (by omega) ⟨reference, arrives⟩).1 "c" ?_
    rw [sources]
    decide

end MoteKernel
