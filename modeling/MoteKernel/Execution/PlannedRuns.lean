import MoteKernel.Execution.EngineProgress
import MoteKernel.Execution.SessionProgress

/-!
# Planned claims

The claims of the engine are planned: `claim_resource_snapshot` lets the pending nodes
join the queues of their resources one by one, from a snapshot in which every resource is
free. A compiled graph is enough for the reducer to accept every one of these joins, and
the acquisitions of a lease match the compiled requirements from the claim to the last
settlement under it.
-/

namespace MoteKernel
open Checked Canonical Dict ResourceReducer OrderedQueues

variable {τ : Type}

/-! ## The requests of a compiled graph -/

/-- The resources of a valid definition. -/
theorem validateDefinition_resources {definition : GraphDefinition τ}
    (valid : validateDefinition definition = .ok ()) :
    definition.resources.Nodup ∧ (∀ r ∈ definition.resources, isCanonicalIdentity r = true) ∧
      ∀ node, .callable node ∈ definition.nodes →
        node.resources.Nodup ∧ node.resources ⊆ definition.resources := by
  simp only [validateDefinition, validateCallableDeclarations, bind_unit_eq_ok, checkAll_eq_ok,
    raiseIf_eq_ok, not_not, rethrow_eq_ok, requireGraphIdentity, Bool.not_eq_false] at valid
  obtain ⟨-, -, -, -, ⟨distinct, canonical, callables⟩, -⟩ := valid
  refine ⟨distinct, canonical, ?_⟩
  intro node member
  have declared : validateCallable definition.resources node = .ok () := callables _ member
  simp only [validateCallable, bind_unit_eq_ok, raiseIf_eq_ok, not_not, not_exists, not_and] at declared
  exact ⟨declared.1, declared.2.1⟩

theorem compileDefinition_resourceOrder [DecidableEq τ] {definition : GraphDefinition τ}
    {nestedGraphs : Dict GraphNodeId (CompiledGraph τ)} {graph : CompiledGraph τ}
    (compiled : compileDefinition definition nestedGraphs = .ok graph) :
    graph.transition.resourceOrder = definition.resources := by
  simp only [compileDefinition, bind_eq_ok, pure_eq_ok, Except.ok.injEq] at compiled
  obtain ⟨graphInputs, -, declared, -, topology, -, entries, -, completed, -, plan, -, graphOutputs,
    -, materializations, -, rfl⟩ := compiled
  rfl

section Compiled

variable [DecidableEq τ] {definition : GraphDefinition τ}
  {nestedGraphs : Dict GraphNodeId (CompiledGraph τ)} {graph : CompiledGraph τ}
  (compiles : Compiles definition nestedGraphs graph)
include compiles

/-- A node with resources is a declared callable node, its resources in the order of the graph. -/
theorem Compiles.resourcesOf {nodeId : GraphNodeId} (needs : graph.resourcesOf nodeId ≠ []) :
    nodeId ∈ graph.nodes.keys ∧ isCanonicalIdentity nodeId = true ∧ ∃ node,
      .callable node ∈ definition.nodes ∧ graph.resourcesOf nodeId = node.resources.insertionSort
        (fun a b => definition.resources.idxOf a ≤ definition.resources.idxOf b) := by
  obtain ⟨entries, routes, dataDependencies, plan, planned⟩ :=
    compileDefinition_planned compiles.compiled
  cases found : graph.nodes.get? nodeId with
  | none =>
      rw [CompiledGraph.resourcesOf, found] at needs
      exact absurd rfl needs
  | some compiled =>
      have listed := found
      rw [planned.nodes, get?_frozen] at listed
      obtain ⟨node, member, same⟩ := List.mem_map.mp (dictOf_eq_some listed)
      obtain ⟨named, ordered⟩ := Prod.mk.inj same
      refine ⟨(Dict.mem_keys _ _).mpr ⟨compiled, found⟩, ?_, ?_⟩
      · rw [← named]
        exact validateDefinition_canonical compiles.valid _ (List.mem_map_of_mem member)
      · cases node with
        | callable node =>
            refine ⟨node, member, ?_⟩
            rw [CompiledGraph.resourcesOf, found, ← ordered]
            rfl
        | nested nestedId child inputs =>
            rw [CompiledGraph.resourcesOf, found, ← ordered] at needs
            exact absurd rfl needs

/-- The requests the compiled nodes make are the ones the reducer accepts. -/
theorem Compiles.requests {nodes : List GraphNodeId} (distinct : nodes.Nodup)
    (needs : ∀ nodeId ∈ nodes, graph.resourcesOf nodeId ≠ []) :
    Requests graph.transition.resourceOrder graph.resourcesOf nodes := by
  obtain ⟨unique, canonical, callables⟩ := validateDefinition_resources compiles.valid
  rw [compileDefinition_resourceOrder compiles.compiled]
  refine ⟨unique, canonical, distinct, ?_, needs, ?_, ?_, ?_⟩
  · exact fun nodeId member => (compiles.resourcesOf (needs nodeId member)).2.1
  · intro nodeId member
    obtain ⟨-, -, node, declared, same⟩ := compiles.resourcesOf (needs nodeId member)
    rw [same]
    exact (List.perm_insertionSort _ _).nodup_iff.mpr (callables node declared).1
  · intro nodeId member
    obtain ⟨-, -, node, declared, same⟩ := compiles.resourcesOf (needs nodeId member)
    rw [same]
    exact List.Subset.trans (List.perm_insertionSort _ _).subset (callables node declared).2
  · intro nodeId member
    obtain ⟨-, -, node, declared, same⟩ := compiles.resourcesOf (needs nodeId member)
    rw [same]
    exact (List.pairwise_insertionSort _ _).insertionSort_eq

end Compiled

/-! ## The admission loop -/

/-- The snapshot in which the nodes have joined the queues of their resources one after another. -/
def joinedSnapshot (graph : CompiledGraph τ) (nodes : List GraphNodeId) : ResourceSnapshot :=
  snapshotOf graph.transition.resourceOrder graph.resourcesOf nodes (stand graph.resourcesOf nodes) []

section Joined

variable {graph : CompiledGraph τ} {nodes : List GraphNodeId}

theorem joinedSnapshot_valid
    (requests : Requests graph.transition.resourceOrder graph.resourcesOf nodes) :
    validateResourceSnapshot (joinedSnapshot graph nodes) = .ok () :=
  (validateResourceSnapshot_snapshotOf requests requests.settled ()).mpr rfl

theorem joinedSnapshot_nil : joinedSnapshot graph [] = initialResourceSnapshot graph := by
  simp [joinedSnapshot, snapshotOf, initialResourceSnapshot, lockOf, stand]

/-- The requests of the joined nodes. -/
theorem mem_joinedSnapshot {nodeId : GraphNodeId} {required : List ResourceId} :
    (nodeId, required) ∈ requestPairs (joinedSnapshot graph nodes) ↔
      nodeId ∈ nodes ∧ graph.resourcesOf nodeId = required := by
  rw [mem_requestPairs]
  constructor
  · intro found
    obtain ⟨acquisition, member, rfl, rfl⟩ := found
    obtain ⟨node, inside, rfl⟩ := List.mem_map.mp member
    exact ⟨inside, rfl⟩
  · intro found
    obtain ⟨inside, rfl⟩ := found
    exact ⟨_, List.mem_map_of_mem inside, rfl, rfl⟩

/-- A newcomer with resources joins. -/
theorem reduceResources_joins {nodeId : GraphNodeId}
    (requests : Requests graph.transition.resourceOrder graph.resourcesOf (nodes ++ [nodeId])) :
    reduceResources (joinedSnapshot graph nodes)
      (.acquireResources nodeId (graph.resourcesOf nodeId)) =
        .ok (joinedSnapshot graph (nodes ++ [nodeId])) := by
  have earlier := requests.sublist (List.sublist_append_left nodes [nodeId])
  rw [reduceResources_eq_ok]
  refine ⟨joinedSnapshot_valid earlier, ?_, joinedSnapshot_valid requests⟩
  have joins := acquire_snapshotOf earlier.settled requests
  rw [← stand_append_singleton] at joins
  exact joins

/-- One turn of `admit_tasks` on a task whose node has not joined yet. -/
theorem admitTask_joins {task : GraphTask} {admission : TaskAdmission}
    (requests : Requests graph.transition.resourceOrder graph.resourcesOf (nodes ++ [task.nodeId]))
    (joined : admission.snapshot = joinedSnapshot graph nodes) :
    ∃ next, admitTask graph admission task = .ok next ∧
      next.snapshot = joinedSnapshot graph (nodes ++ [task.nodeId]) := by
  have needs : graph.resourcesOf task.nodeId ≠ [] := requests.nonempty _ (by simp)
  have callable : graph.callable task.nodeId = true := callable_of_resources needs
  have fresh : admission.snapshot.acquisitions.find? (fun item => item.nodeId = task.nodeId) = none := by
    rw [joined, List.find?_eq_none]
    intro acquisition member same
    obtain ⟨node, inside, rfl⟩ := List.mem_map.mp member
    have distinct := requests.participants
    rw [List.nodup_append] at distinct
    exact distinct.2.2 node inside task.nodeId (List.mem_singleton_self _) (of_decide_eq_true same)
  have proposed : proposeAcquisition admission.snapshot task.nodeId
      (graph.resourcesOf task.nodeId) none =
      .ok (joinedSnapshot graph (nodes ++ [task.nodeId])) := by
    rw [proposeAcquisition, joined, reduceResources_joins requests]
    rfl
  rw [admitTask, callable]
  simp only [Bool.true_eq_false, raiseIf, if_false, if_neg needs, fresh, proposed, ok_bind]
  split
  · exact ⟨_, rfl, rfl⟩
  · exact ⟨_, rfl, rfl⟩

/-- The loop of `admit_tasks` lets every task join, in the order of the tasks. -/
theorem admitTasks_loop {tasks : List GraphTask} {admission : TaskAdmission}
    (requests : Requests graph.transition.resourceOrder graph.resourcesOf
      (nodes ++ tasks.map (·.nodeId)))
    (joined : admission.snapshot = joinedSnapshot graph nodes) :
    ∃ next, tasks.foldlM (admitTask graph) admission = .ok next ∧
      next.snapshot = joinedSnapshot graph (nodes ++ tasks.map (·.nodeId)) := by
  induction tasks generalizing nodes admission with
  | nil => exact ⟨admission, rfl, by simpa using joined⟩
  | cons task tasks ih =>
      rw [List.map_cons, List.append_cons] at requests
      obtain ⟨after, admitted, joins⟩ :=
        admitTask_joins (requests.sublist (List.sublist_append_left _ _)) joined
      obtain ⟨next, rest, joinsAll⟩ := ih requests joins
      refine ⟨next, ?_, ?_⟩
      · rw [List.foldlM_cons, admitted]
        exact rest
      · rw [joinsAll, List.map_cons, List.append_assoc, List.singleton_append]

end Joined

/-! ## Planned claims -/

/-- The acquisitions of a snapshot, if there is one, are those of the nodes with resources. -/
structure AcquiresFor (graph : CompiledGraph τ) (nodeIds : List GraphNodeId)
    (resources : Option ResourceSnapshot) : Prop where
  valid : ∀ snapshot ∈ resources, validateResourceSnapshot snapshot = .ok ()
  nonempty : ∀ snapshot ∈ resources, snapshot.acquisitions ≠ []
  order : ∀ snapshot ∈ resources,
    snapshot.resources.map (·.resourceId) = graph.transition.resourceOrder
  participants : ∀ nodeId required,
    (∃ snapshot ∈ resources, (nodeId, required) ∈ requestPairs snapshot) ↔
      nodeId ∈ nodeIds ∧ graph.resourcesOf nodeId = required ∧ required ≠ []

/-- The tasks that `claim_resource_snapshot` admits are the ones with resources. -/
theorem mem_resourceTasks {graph : CompiledGraph τ} {tasks : List GraphTask} {nodeId : GraphNodeId} :
    nodeId ∈ (tasks.filter (fun task =>
        graph.callable task.nodeId ∧ graph.resourcesOf task.nodeId ≠ [])).map (·.nodeId) ↔
      nodeId ∈ tasks.map (·.nodeId) ∧ graph.resourcesOf nodeId ≠ [] := by
  constructor
  · intro member
    obtain ⟨task, inside, rfl⟩ := List.mem_map.mp member
    obtain ⟨listed, needs⟩ := List.mem_filter.mp inside
    exact ⟨List.mem_map_of_mem listed, (of_decide_eq_true needs).2⟩
  · intro both
    obtain ⟨member, needs⟩ := both
    obtain ⟨task, inside, rfl⟩ := List.mem_map.mp member
    exact List.mem_map_of_mem (List.mem_filter.mpr
      ⟨inside, decide_eq_true ⟨callable_of_resources needs, needs⟩⟩)

section Claimed

variable [DecidableEq τ] {definition : GraphDefinition τ}
  {nestedGraphs : Dict GraphNodeId (CompiledGraph τ)} {graph : CompiledGraph τ}
  (compiles : Compiles definition nestedGraphs graph) {tasks : List GraphTask}
  (distinct : (tasks.map (·.nodeId)).Nodup)
include compiles distinct

/-- `admit_tasks` lets distinct nodes with resources join, in the order of their tasks. -/
theorem admitTasks_joins (needs : ∀ nodeId ∈ tasks.map (·.nodeId), graph.resourcesOf nodeId ≠ []) :
    Requests graph.transition.resourceOrder graph.resourcesOf
        ((sortedTasks tasks).map (·.nodeId)) ∧
      ∃ admission, admitTasks graph tasks (initialResourceSnapshot graph) = .ok admission ∧
        admission.snapshot = joinedSnapshot graph ((sortedTasks tasks).map (·.nodeId)) := by
  have sortedPerm := (sortedTasks_perm tasks).map (·.nodeId)
  have requests := compiles.requests (sortedPerm.nodup_iff.mpr distinct)
    (fun nodeId member => needs nodeId (sortedPerm.mem_iff.mp member))
  have free : (⟨initialResourceSnapshot graph, [], []⟩ : TaskAdmission).snapshot =
      joinedSnapshot graph [] := joinedSnapshot_nil.symm
  obtain ⟨admission, loops, joined⟩ := admitTasks_loop requests free
  rw [List.nil_append] at joined
  have known : tasks.map (·.nodeId) ⊆ graph.nodes.keys := fun nodeId member =>
    (compiles.resourcesOf (needs nodeId member)).1
  have initial : (initialResourceSnapshot graph).resources.map (·.resourceId) =
      graph.transition.resourceOrder := by
    simp [initialResourceSnapshot, Function.comp_def]
  refine ⟨requests, admission, ?_, joined⟩
  simp only [admitTasks, bind_unit_eq_ok, raiseIf_eq_ok, not_not, ne_eq]
  exact ⟨initial, distinct, known, List.nil_subset _, loops⟩

/-- `claim_resource_snapshot` succeeds on the tasks of distinct nodes of a compiled graph. -/
theorem claimResourceSnapshot_acquires :
    ∃ resources, claimResourceSnapshot graph tasks = .ok resources ∧
      AcquiresFor graph (tasks.map (·.nodeId)) resources := by
  let chosen := tasks.filter (fun task =>
    graph.callable task.nodeId ∧ graph.resourcesOf task.nodeId ≠ [])
  have mem_chosen : ∀ nodeId, nodeId ∈ chosen.map (·.nodeId) ↔
      nodeId ∈ tasks.map (·.nodeId) ∧ graph.resourcesOf nodeId ≠ [] := fun _ => mem_resourceTasks
  by_cases none : chosen = []
  · refine ⟨Option.none, ?_, by simp, by simp, by simp, ?_⟩
    · exact if_pos none
    · intro nodeId required
      refine iff_of_false (by simp) ?_
      intro both
      obtain ⟨member, same, needs⟩ := both
      have inside := (mem_chosen nodeId).mpr ⟨member, same ▸ needs⟩
      rw [none] at inside
      cases inside
  · have unique : (chosen.map (·.nodeId)).Nodup :=
      List.Nodup.sublist (List.filter_sublist.map _) distinct
    obtain ⟨requests, admission, admits, joined⟩ :=
      admitTasks_joins compiles unique (fun nodeId member => ((mem_chosen nodeId).mp member).2)
    have sortedPerm := (sortedTasks_perm chosen).map (·.nodeId)
    have participants : (joinedSnapshot graph ((sortedTasks chosen).map (·.nodeId))).acquisitions.map
        (·.nodeId) = (sortedTasks chosen).map (·.nodeId) := snapshotOf_nodeIds
    have nonempty : admission.snapshot.acquisitions ≠ [] := by
      intro empty
      rw [joined] at empty
      rw [empty] at participants
      have nothing := sortedPerm.symm.trans (List.Perm.of_eq participants.symm)
      exact none (List.map_eq_nil_iff.mp (List.Perm.eq_nil nothing))
    refine ⟨some admission.snapshot, ?_, ?_, ?_, ?_, ?_⟩
    · simp only [claimResourceSnapshot]
      rw [if_neg none]
      simp only [bind_eq_ok, exists_unit, raiseIf_eq_ok, pure_eq_ok, Except.ok.injEq]
      exact ⟨admission, admits, nonempty, rfl⟩
    · intro snapshot present
      rw [← Option.some.inj present, joined]
      exact joinedSnapshot_valid requests
    · intro snapshot present
      rw [← Option.some.inj present]
      exact nonempty
    · intro snapshot present
      rw [← Option.some.inj present, joined]
      exact snapshotOf_resourceIds
    · intro nodeId required
      simp only [Option.mem_def, Option.some.injEq, exists_eq_left', joined, mem_joinedSnapshot,
        sortedPerm.mem_iff, mem_chosen]
      constructor
      · intro both
        obtain ⟨⟨member, needs⟩, rfl⟩ := both
        exact ⟨member, rfl, needs⟩
      · intro all
        obtain ⟨member, rfl, needs⟩ := all
        exact ⟨⟨member, needs⟩, rfl⟩

end Claimed

/-! ## The guard on a lease -/

/-- The acquisitions of a lease are those of the pending nodes. -/
def LeaseAcquires (graph : CompiledGraph τ) (state : GraphRunState) : Prop :=
  state.execution ≠ none → AcquiresFor graph (pendingNodeIds state.frontier) state.resources

section Guard

variable {graph : CompiledGraph τ} {state next : GraphRunState}

theorem AcquiresFor.matching
    (acquires : AcquiresFor graph (pendingNodeIds state.frontier) state.resources) :
    ResourcesMatch graph state := ⟨acquires.valid, acquires.participants⟩

/-- The resource part of the snapshot guard passes such acquisitions. -/
theorem AcquiresFor.guarded
    (acquires : AcquiresFor graph (pendingNodeIds state.frontier) state.resources) :
    requireResourceSnapshot graph state = .ok () := by
  unfold requireResourceSnapshot
  dsimp only
  by_cases free : (requiredResources graph state).items = []
  · rw [if_pos free, raiseIf_eq_ok, ne_eq, not_not]
    cases present : state.resources with
    | none => rfl
    | some snapshot =>
        obtain ⟨acquisition, member⟩ :=
          List.exists_mem_of_ne_nil _ (acquires.nonempty snapshot present)
        have required := (get?_requiredResources _ _).mpr ((acquires.participants _ _).mp
          ⟨snapshot, present, mem_requestPairs.mpr ⟨acquisition, member, rfl, rfl⟩⟩)
        have nothing : (requiredResources graph state).get? acquisition.nodeId = none := by
          rw [Dict.get?_eq_none, Dict.keys, free]
          simp
        rw [nothing] at required
        cases required
  · rw [if_neg free]
    obtain ⟨pair, listed⟩ := List.exists_mem_of_ne_nil _ free
    have required : (requiredResources graph state).get? pair.1 = some pair.2 :=
      (Dict.get?_eq_some _ _ _).mpr listed
    obtain ⟨snapshot, present, -⟩ :=
      (acquires.participants _ _).mpr ((get?_requiredResources _ _).mp required)
    have shape := (validateResourceSnapshot_eq_ok _ _).mp (acquires.valid snapshot present)
    simp only [bind_eq_ok, exists_unit, orRaise_eq_ok, raiseIf_eq_ok, ne_eq, not_not]
    refine ⟨snapshot, present, acquires.order snapshot present, ?_⟩
    intro nodeId
    refine Option.ext (fun needed => ?_)
    rw [get?_required shape.1.participants, get?_requiredResources, ← acquires.participants]
    simp [Option.mem_def.mp present]

/-- Acquisitions of the pending nodes make an admissible claim of an unleased running state. -/
theorem AcquiresFor.claims {resources : Option ResourceSnapshot} {attemptId : GraphExecutionAttemptId}
    (acquires : AcquiresFor graph (pendingNodeIds state.frontier) resources) (valid : ValidRun state)
    (running : state.status = .running) (unleased : state.execution = none)
    (pending : pendingNodeIds state.frontier ≠ []) :
    Claims state ⟨state.revision, attemptId, resources⟩ := by
  have free : state.resources = none := by
    cases present : state.resources with
    | none => rfl
    | some snapshot => exact absurd unleased (valid.resources snapshot present).leased
  have participants : ∀ snapshot ∈ resources,
      snapshot.acquisitions.map (·.nodeId) ⊆ pendingNodeIds state.frontier := by
    intro snapshot present nodeId member
    obtain ⟨acquisition, inside, rfl⟩ := List.mem_map.mp member
    exact ((acquires.participants _ _).mp
      ⟨snapshot, present, mem_requestPairs.mpr ⟨acquisition, inside, rfl, rfl⟩⟩).1
  exact ⟨running, unleased, free, pendingNodeIds_ne_nil.mp pending, pending, fun snapshot present =>
    ⟨acquires.valid snapshot present, acquires.nonempty snapshot present,
      participants snapshot present⟩⟩

/-- A settlement keeps the order of the resources. -/
theorem settleResources_order {before after : Option ResourceSnapshot} {nodeId : GraphNodeId}
    {order : List ResourceId} (settled : settleResources before nodeId = .ok after)
    (ordered : ∀ snapshot ∈ before, snapshot.resources.map (·.resourceId) = order) :
    ∀ snapshot ∈ after, snapshot.resources.map (·.resourceId) = order := by
  by_cases member : ∃ snapshot ∈ before, nodeId ∈ participants snapshot
  · obtain ⟨snapshot, present, inside⟩ := member
    rw [Option.mem_def.mp present] at settled
    obtain ⟨released, reduced, rfl⟩ := (settleResources_participant inside _).mp settled
    obtain ⟨-, -, -, -, -, -, -, same, -⟩ := release_result reduced
    intro kept here
    rw [keptSnapshot] at here
    split at here
    · cases here
    · rw [← Option.some.inj here, same]
      exact ordered snapshot present
  · have same : settleResources before nodeId = .ok before :=
      settleResources_other (fun snapshot present inside => member ⟨snapshot, present, inside⟩)
    rw [← Except.ok.inj (same.symm.trans settled)]
    exact ordered

/-- A settlement under a lease keeps its acquisitions. -/
theorem settle_acquires {command : SettleGraphNode} (acquires : LeaseAcquires graph state)
    (reduced : reduceGraphRun (some state) (.settle command) = .ok next) :
    LeaseAcquires graph next := by
  intro leased
  have confirmed : admitGraphRunConfirmation (some state) (.settle command) next = .ok next :=
    (admitGraphRunConfirmation_eq_ok _ _ _ _).mpr ⟨rfl, next, reduced, .exact⟩
  have settles : SettlesNode graph command.outcome.nodeId state next := confirmed_settlesNode confirmed
  have validNext : ValidRun next := reduced_valid reduced
  obtain ⟨-, -, settlement, ledger, cursor, resources, passes, valid, rfl⟩ :=
    reduceGraphRun_settle.mp reduced
  have before : AcquiresFor graph (pendingNodeIds state.frontier) state.resources := by
    apply acquires
    intro unleased
    have held := passes.leased
    rw [unleased] at held
    cases held
  have matching := settles.resources before.matching
  refine ⟨matching.valid, fun snapshot present => (validNext.resources snapshot present).nonempty, ?_,
    matching.participants⟩
  intro snapshot present
  have kept : snapshot ∈ resources := by
    have here : (if frontierStatus (settleFrontier state.frontier command.outcome.nodeId settlement) =
        some .executable then resources else none) = some snapshot := present
    split at here
    · exact here
    · cases here
  exact settleResources_order passes.resources before.order snapshot kept

/-- Evidence is no part of a lease. -/
theorem LeaseAcquires.sameButEvidence (acquires : LeaseAcquires graph state)
    (same : SameButEvidence state next) : LeaseAcquires graph next := by
  rw [LeaseAcquires, same.state]
  exact acquires

end Guard

/-! ## Runs -/

/-- The claim has been planned for the state: its snapshot is the one the planned tasks acquire. -/
def PlansClaim (graph : CompiledGraph τ) (state : GraphRunState) (command : ClaimGraphExecution) :
    Prop :=
  ∃ maxSupersteps tasks, planTasks graph state maxSupersteps = .ok tasks ∧
    claimResourceSnapshot graph tasks = .ok command.resources

/-- The claims of `prepare_claim` are planned. -/
theorem prepareClaim_plans [DecidableEq τ] {ν σ ι : Type} {typeOf : ν → τ} {graph : CompiledGraph τ}
    {state : GraphRunState} {scopeRun : ScopeRunCoordinate} {limits : ExecutionLimits}
    {projections : List (ChildProjection ν)} {materialize : GraphNodeId → Except ExecutionError ι}
    {preparation : FrontierPreparation ν σ ι} {attemptId : GraphExecutionAttemptId}
    {claim : PreparedExecutionClaim ν σ ι}
    (prepared : prepareFrontier typeOf graph state scopeRun limits projections materialize =
      .ok preparation) (claimed : prepareClaim graph preparation attemptId = .ok claim) :
    PlansClaim graph state claim.command := by
  simp only [prepareFrontier, prepareClaim, bind_eq_ok, pure_eq_ok, Except.ok.injEq]
    at prepared claimed
  obtain ⟨tasks, planned, results, -, executables, -, rfl⟩ := prepared
  obtain ⟨resources, acquired, rfl⟩ := claimed
  exact ⟨limits.maxSupersteps, tasks, planned, acquired⟩

/-- The states of the runs whose claims are planned. -/
inductive PlannedRun (graph : CompiledGraph τ) : GraphRunState → Prop
  | start {runId : GraphRunId} {parent : Option GraphActivationIdentity}
      {cursor : Option GraphConfigCursor} {command : StartGraphRun} {state : GraphRunState}
      (projects : projectStartGraphCommand graph runId parent cursor = .ok command)
      (commits : Commits graph none (.start command) state) : PlannedRun graph state
  | commit {state next : GraphRunState} {command : GraphRunCommand} (run : PlannedRun graph state)
      (planned : ∀ claim, command = .claim claim → PlansClaim graph state claim)
      (commits : Commits graph (some state) command next) : PlannedRun graph next

theorem PlannedRun.engine {graph : CompiledGraph τ} {state : GraphRunState}
    (run : PlannedRun graph state) : EngineRun graph state := by
  induction run with
  | start projects commits => exact .start projects commits
  | commit run planned commits ih => exact .commit ih commits

/-- The tasks of a running state are its pending nodes. -/
theorem planTasks_nodeIds {graph : CompiledGraph τ} {state : GraphRunState} {maxSupersteps : Nat}
    {tasks : List GraphTask} (running : state.status = .running)
    (planned : planTasks graph state maxSupersteps = .ok tasks) :
    tasks.map (·.nodeId) = pendingNodeIds state.frontier := by
  simp only [planTasks, running, bind_unit_eq_ok, ne_eq, not_true_eq_false, if_false, pure_eq_ok,
    Except.ok.injEq] at planned
  obtain ⟨-, -, rfl⟩ := planned
  rw [List.map_map]
  exact List.map_id _

/-- A guarded running state below the limit has its tasks planned. -/
theorem planTasks_ok {graph : CompiledGraph τ} {state : GraphRunState} {maxSupersteps : Nat}
    (guarded : requireSnapshotMatchesGraph graph state = .ok ()) (running : state.status = .running)
    (below : state.superstep < maxSupersteps) :
    ∃ tasks, planTasks graph state maxSupersteps = .ok tasks := by
  have room : ¬ maxSupersteps ≤ state.superstep := by omega
  simp only [planTasks, guarded, ok_bind, running, raiseIf, if_neg room, ne_eq, not_true_eq_false,
    if_false]
  exact ⟨_, rfl⟩

section Planned

variable [DecidableEq τ] {definition : GraphDefinition τ}
  {nestedGraphs : Dict GraphNodeId (CompiledGraph τ)} {graph : CompiledGraph τ}
  (compiles : Compiles definition nestedGraphs graph) {state next : GraphRunState}
include compiles

/-- The snapshot of a planned claim acquires for the pending nodes. -/
theorem PlansClaim.acquires {command : ClaimGraphExecution} (plans : PlansClaim graph state command)
    (valid : ValidRun state) (running : state.status = .running) :
    AcquiresFor graph (pendingNodeIds state.frontier) command.resources := by
  obtain ⟨maxSupersteps, tasks, planned, claimed⟩ := plans
  have nodes := planTasks_nodeIds running planned
  have distinct : (tasks.map (·.nodeId)).Nodup := by
    rw [nodes]
    exact pendingNodeIds_nodup valid.frontier.distinct
  obtain ⟨resources, again, acquires⟩ := claimResourceSnapshot_acquires compiles distinct
  rw [Except.ok.inj (claimed.symm.trans again), ← nodes]
  exact acquires

/-- One command keeps the acquisitions of the lease. -/
theorem reduced_acquires {command : GraphRunCommand} (acquires : LeaseAcquires graph state)
    (planned : ∀ claim, command = .claim claim → PlansClaim graph state claim)
    (reduced : reduceGraphRun (some state) command = .ok next) : LeaseAcquires graph next := by
  obtain ⟨updated, reduces, same⟩ := (reduceGraphRun_some_eq_ok _ _ _).mp reduced
  have moved := reduces.transition
  cases command with
  | start command => cases moved
  | claim command =>
      obtain ⟨claims, rfl⟩ := (claimGraphExecution_eq_ok _ _ _).mp moved
      intro leased
      rw [same]
      exact (planned command rfl).acquires compiles reduces.valid claims.running
  | fence command =>
      obtain ⟨-, -, rfl⟩ := (fenceGraphExecution_eq_ok _ _ _).mp moved
      intro leased
      rw [same] at leased
      exact absurd rfl leased
  | settle command => exact settle_acquires acquires reduced
  | resume command =>
      obtain ⟨nodes, resumes, rfl⟩ := (resumeGraphNodes_eq_ok _ _ _).mp moved
      intro leased
      rw [same] at leased
      exact absurd resumes.unleased leased
  | advance command =>
      obtain ⟨⟨consumes, advances⟩, rfl⟩ :=
        (advanceGraphFrontier_eq_ok reduces.valid.frontier.distinct _ _).mp moved
      intro leased
      rw [same] at leased
      exact absurd advances.resolves.unleased leased
  | complete command =>
      obtain ⟨completes, rfl⟩ := (completeGraphFrontier_eq_ok _ _ _).mp moved
      intro leased
      rw [same] at leased
      exact absurd completes.resolves.unleased leased
  | abort command =>
      obtain ⟨-, unleased, rfl⟩ := (abortGraphRun_eq_ok _ _ _).mp moved
      intro leased
      rw [same] at leased
      exact absurd unleased leased

/-- The acquisitions of every lease of a planned run are those of the pending nodes. -/
theorem PlannedRun.acquires (run : PlannedRun graph state) : LeaseAcquires graph state := by
  induction run with
  | start projects commits =>
      obtain ⟨candidate, reduced, -, same, -⟩ := commits.admitted
      obtain ⟨start, -, started⟩ := (reduceGraphRun_none_eq_ok _ _).mp reduced
      obtain ⟨-, -, -, -, rfl⟩ := (startGraphRun_eq_ok _ _).mp started
      refine LeaseAcquires.sameButEvidence ?_ same
      exact fun leased => absurd rfl leased
  | commit run planned commits ih =>
      obtain ⟨candidate, reduced, -, same, -⟩ := commits.admitted
      exact (reduced_acquires compiles ih planned reduced).sameButEvidence same

/-- The snapshot guard passes every state of a planned run. -/
theorem PlannedRun.guarded (run : PlannedRun graph state) :
    requireSnapshotMatchesGraph graph state = .ok () := by
  obtain ⟨entries, routes, dataDependencies, plan, planned, values⟩ := compiles.planned_values
  obtain ⟨requirements, guarantees, accepted⟩ := compiles.accepted_plan planned
  exact (accepted.guard values (accepted.invariant run.engine)).mpr
    (fun leased => (run.acquires compiles leased).guarded)

/-- The claim made of the planned tasks is committed. -/
theorem PlannedRun.claim_commits (run : PlannedRun graph state) {maxSupersteps : Nat}
    {attemptId : GraphExecutionAttemptId} {tasks : List GraphTask}
    (running : state.status = .running) (unleased : state.execution = none)
    (pending : pendingNodeIds state.frontier ≠ [])
    (canonical : isCanonicalIdentity attemptId = true)
    (planned : planTasks graph state maxSupersteps = .ok tasks) :
    ∃ resources next, claimResourceSnapshot graph tasks = .ok resources ∧
      Commits graph (some state) (.claim ⟨state.revision, attemptId, resources⟩) next ∧
      PlannedRun graph next ∧ next.frontier = state.frontier ∧
      next.execution = some ⟨⟨state.executionSequence + 1, attemptId⟩⟩ := by
  obtain ⟨entries, routes, dataDependencies, plan, gathered, values⟩ := compiles.planned_values
  obtain ⟨requirements, guarantees, accepted⟩ := compiles.accepted_plan gathered
  have invariant := accepted.invariant run.engine
  have nodes := planTasks_nodeIds running planned
  have distinct : (tasks.map (·.nodeId)).Nodup := by
    rw [nodes]
    exact pendingNodeIds_nodup invariant.valid.frontier.distinct
  obtain ⟨resources, claimed, joined⟩ := claimResourceSnapshot_acquires compiles distinct
  rw [nodes] at joined
  have moved : transition state (.claim ⟨state.revision, attemptId, resources⟩) = .ok _ :=
    (claimGraphExecution_eq_ok _ _ _).mpr
      ⟨joined.claims invariant.valid running unleased pending, rfl⟩
  have live : state.status ≠ .completed := by
    rw [running]
    exact fun wrong => nomatch wrong
  have settles : SettlesDeclared graph (.claim ⟨state.revision, attemptId, resources⟩) := by
    intro settle nodeId routing wrong
    cases wrong
  have wellFormed : WellFormedCommand (.claim ⟨state.revision, attemptId, resources⟩) := canonical
  obtain ⟨reduced, admitted⟩ :=
    accepted.transition_admitted values invariant live wellFormed settles rfl moved
  have commits := commits_bare (by intro c wrong; cases wrong) (by intro c wrong; cases wrong)
    reduced admitted
  refine ⟨resources, _, claimed, commits, run.commit ?_ commits, rfl, rfl⟩
  intro claim same
  rw [← GraphRunCommand.claim.inj same]
  exact ⟨maxSupersteps, tasks, planned, claimed⟩

end Planned

/-- The engine never locks itself out of a run whose claims it has planned. The snapshot guard passes
every state, so that a later process can take the run up from any of them, and under a lease the
acquisitions are those of the pending nodes. While nobody holds a lease and a node is pending,
`plan_tasks` and `claim_resource_snapshot` succeed below the superstep limit, whatever resources the
nodes share, and the claim made of them is committed. -/
theorem planned_runs_claimable [DecidableEq τ] {definition : GraphDefinition τ}
    {nestedGraphs : Dict GraphNodeId (CompiledGraph τ)} {graph : CompiledGraph τ}
    (compiles : Compiles definition nestedGraphs graph) {state : GraphRunState}
    (run : PlannedRun graph state) :
    requireSnapshotMatchesGraph graph state = .ok () ∧
    (state.execution ≠ none → ResourcesMatch graph state) ∧
    ∀ maxSupersteps attemptId, state.status = .running → state.execution = none →
      pendingNodeIds state.frontier ≠ [] → state.superstep < maxSupersteps →
      isCanonicalIdentity attemptId = true →
      ∃ tasks resources next, planTasks graph state maxSupersteps = .ok tasks ∧
        tasks.map (·.nodeId) = pendingNodeIds state.frontier ∧
        claimResourceSnapshot graph tasks = .ok resources ∧
        Commits graph (some state) (.claim ⟨state.revision, attemptId, resources⟩) next ∧
        PlannedRun graph next ∧ next.frontier = state.frontier ∧
        next.execution = some ⟨⟨state.executionSequence + 1, attemptId⟩⟩ := by
  refine ⟨run.guarded compiles, fun leased => (run.acquires compiles leased).matching, ?_⟩
  intro maxSupersteps attemptId running unleased pending below canonical
  obtain ⟨tasks, planned⟩ := planTasks_ok (run.guarded compiles) running below
  obtain ⟨resources, next, claimed, commits, goes, frontier, leased⟩ :=
    run.claim_commits compiles running unleased pending canonical planned
  exact ⟨tasks, resources, next, planned, planTasks_nodeIds running planned, claimed, commits, goes,
    frontier, leased⟩

/-! ## A shared disk -/

/-- Two entries that need the same disk. -/
def diskDefinition : GraphDefinition Unit where
  definitionId := "disk"
  version := 1
  nodes := [.callable ⟨"a", [], [⟨"out", ⟨0, ()⟩⟩], ["disk"], []⟩,
    .callable ⟨"b", [], [⟨"out", ⟨0, ()⟩⟩], ["disk"], []⟩]
  edges := []
  entries := ["a", "b"]
  outputs := []
  resources := ["disk"]

theorem diskDefinition_compiles :
    Compiles diskDefinition Dict.empty (compiledGraph diskDefinition) :=
  compiles_compiledGraph (by decide) (by simp [diskDefinition]) (by decide +kernel)

/-- Both entries are pending. -/
def diskStarted : GraphRunState where
  runId := "run"
  definitionId := "disk"
  definitionVersion := 1
  status := .running
  superstep := 0
  frontier := ⟨[⟨"a", .pending .useStepRequestInput, .start⟩,
    ⟨"b", .pending .useStepRequestInput, .start⟩]⟩

/-- The claim of both: `a` has the disk and `b` waits for it. -/
def diskClaimed : GraphRunState :=
  { diskStarted with
    executionSequence := 1
    execution := some ⟨⟨1, "attempt"⟩⟩
    resources := some diskSnapshot
    revision := 1 }

theorem diskStarted_reached : PlannedRun (compiledGraph diskDefinition) diskStarted := by
  have projects : projectStartGraphCommand (compiledGraph diskDefinition) "run" none none =
      .ok ⟨"run", "disk", 1, [⟨"a", .start⟩, ⟨"b", .start⟩], none, none, none, none⟩ := by
    decide +kernel
  have start : Commits (compiledGraph diskDefinition) none
      (.start ⟨"run", "disk", 1, [⟨"a", .start⟩, ⟨"b", .start⟩], none, none, none, none⟩)
      diskStarted :=
    commits_of_committedState ⟨[], "run"⟩ none (some ⟨[], none⟩) (by decide +kernel)
  exact .start projects start

theorem diskClaimed_reached : PlannedRun (compiledGraph diskDefinition) diskClaimed := by
  have claim : Commits (compiledGraph diskDefinition) (some diskStarted)
      (.claim ⟨0, "attempt", some diskSnapshot⟩) diskClaimed :=
    commits_of_committedState ⟨[], "run"⟩ none none (by decide +kernel)
  refine diskStarted_reached.commit ?_ claim
  intro command same
  rw [← GraphRunCommand.claim.inj same]
  exact ⟨1, [diskTask "a", diskTask "b"], by decide +kernel, by decide +kernel⟩

/-- The start can be claimed although the entries share the disk, and the claim recovered from. -/
theorem diskStarted_claimable :
    (∃ tasks resources next, planTasks (compiledGraph diskDefinition) diskStarted 1 = .ok tasks ∧
      claimResourceSnapshot (compiledGraph diskDefinition) tasks = .ok resources ∧
      Commits (compiledGraph diskDefinition) (some diskStarted) (.claim ⟨0, "other", resources⟩) next) ∧
    requireSnapshotMatchesGraph (compiledGraph diskDefinition) diskClaimed = .ok () ∧
    ResourcesMatch (compiledGraph diskDefinition) diskClaimed := by
  have claimed := planned_runs_claimable diskDefinition_compiles diskClaimed_reached
  obtain ⟨tasks, resources, next, planned, -, acquired, commits, -⟩ :=
    (planned_runs_claimable diskDefinition_compiles diskStarted_reached).2.2 1 "other" rfl rfl
      (by decide) (by decide) (by decide)
  refine ⟨⟨tasks, resources, next, planned, acquired, commits⟩, claimed.1, claimed.2.1 ?_⟩
  exact Option.some_ne_none _

end MoteKernel
