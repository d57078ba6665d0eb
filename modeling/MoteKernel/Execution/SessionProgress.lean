import MoteKernel.Execution.Session
import MoteKernel.Execution.SettleOrder
import MoteKernel.State.ComposedIdentity

/-!
# Progress of an execution session

Every node a session has started is either still on its way to a confirmed
settlement or has failed, and a pending node that uses resources takes part in
the snapshot of the run. The first participant of that snapshot holds everything
it needs, so the selection is empty only while something is on its way.
-/

namespace MoteKernel
open Checked Canonical

variable {τ ν σ ι : Type}

/-! ## Selection -/

section Selection

variable {graph : CompiledGraph τ} {tasks : List GraphTask} {snapshot : Option ResourceSnapshot}
  {limits : ExecutionLimits} {activeCount : Nat} {startedNodeIds : List GraphNodeId}
  {task : GraphTask}

@[simp] theorem mem_sortedTasks : task ∈ sortedTasks tasks ↔ task ∈ tasks := by
  simp [sortedTasks]

theorem sortedTasks_perm (tasks : List GraphTask) : (sortedTasks tasks).Perm tasks :=
  List.perm_insertionSort _ tasks

/-- The acquisition of a node in the snapshot of a run. -/
def acquisitionIn (snapshot : Option ResourceSnapshot) (nodeId : GraphNodeId) :
    Option ResourceAcquisition :=
  ((snapshot.map ResourceSnapshot.acquisitions).getD []).find? (fun item => item.nodeId = nodeId)

theorem executableTask_iff : executableTask graph snapshot startedNodeIds task = true ↔
    task.nodeId ∉ startedNodeIds ∧ graph.callable task.nodeId = true ∧
      (graph.resourcesOf task.nodeId = [] ∨ ∃ acquisition ∈ acquisitionIn snapshot task.nodeId,
        acquisition.admitted = true ∧ acquisition.required = graph.resourcesOf task.nodeId) := by
  simp only [executableTask, acquisitionIn, Bool.and_eq_true, Bool.or_eq_true, decide_eq_true_eq,
    Option.any_eq_true, and_assoc]
  rfl

theorem mem_selectExecutableTasks
    (member : task ∈ selectExecutableTasks graph tasks snapshot limits activeCount startedNodeIds) :
    task ∈ tasks ∧ executableTask graph snapshot startedNodeIds task = true := by
  have inside := List.mem_filter.mp (List.mem_of_mem_take member)
  exact ⟨mem_sortedTasks.mp inside.1, inside.2⟩

theorem length_selectExecutableTasks :
    (selectExecutableTasks graph tasks snapshot limits activeCount startedNodeIds).length ≤
      limits.maxParallelTasks - activeCount :=
  List.length_take_le _ _

theorem selectExecutableTasks_nodup {κ : Type} {key : GraphTask → κ}
    (distinct : (tasks.map key).Nodup) :
    ((selectExecutableTasks graph tasks snapshot limits activeCount startedNodeIds).map
      key).Nodup := by
  have sorted : ((sortedTasks tasks).map key).Nodup :=
    ((sortedTasks_perm tasks).map key).nodup_iff.mpr distinct
  refine List.Nodup.sublist ?_ sorted
  apply List.Sublist.map
  exact (List.take_sublist _ _).trans List.filter_sublist

/-- One executable task and one free slot are enough for a selection. -/
theorem selectExecutableTasks_ne_nil (member : task ∈ tasks)
    (executable : executableTask graph snapshot startedNodeIds task = true)
    (slots : activeCount < limits.maxParallelTasks) :
    selectExecutableTasks graph tasks snapshot limits activeCount startedNodeIds ≠ [] := by
  have inside : task ∈ (sortedTasks tasks).filter (executableTask graph snapshot startedNodeIds) :=
    List.mem_filter.mpr ⟨mem_sortedTasks.mpr member, executable⟩
  rw [selectExecutableTasks, Ne, List.take_eq_nil_iff, not_or]
  exact ⟨by omega, List.ne_nil_of_mem inside⟩

end Selection

/-- Only a callable node has resources. -/
theorem callable_of_resources {graph : CompiledGraph τ} {nodeId : GraphNodeId}
    (needs : graph.resourcesOf nodeId ≠ []) : graph.callable nodeId = true := by
  unfold CompiledGraph.resourcesOf at needs
  unfold CompiledGraph.callable
  split
  · rfl
  · rename_i other
    cases found : graph.nodes.get? nodeId with
    | none => simp [found] at needs
    | some node =>
        cases node with
        | callable definition => exact absurd found (other definition)
        | nested => simp [found, GraphNode.resources] at needs

/-! ## Resources of a claimed run -/

/-- A node has been admitted to everything it needs. -/
def GraphRunState.Admits (state : GraphRunState) (nodeId : GraphNodeId)
    (required : List ResourceId) : Prop :=
  ∃ snapshot ∈ state.resources, ∃ acquisition ∈ snapshot.acquisitions,
    acquisition.nodeId = nodeId ∧ acquisition.required = required ∧ acquisition.admitted = true

/-- The participants of a run's snapshot are its pending nodes with resources. -/
structure ResourcesMatch (graph : CompiledGraph τ) (state : GraphRunState) : Prop where
  valid : ∀ snapshot ∈ state.resources, ResourceReducer.validateResourceSnapshot snapshot = .ok ()
  participants : ∀ nodeId required,
    (∃ snapshot ∈ state.resources, (nodeId, required) ∈ ResourceReducer.requestPairs snapshot) ↔
      nodeId ∈ pendingNodeIds state.frontier ∧ graph.resourcesOf nodeId = required ∧ required ≠ []

namespace ResourcesMatch

variable {graph : CompiledGraph τ} {state : GraphRunState}

theorem participants_nodup (resources : ResourcesMatch graph state) {snapshot : ResourceSnapshot}
    (member : snapshot ∈ state.resources) : (ResourceReducer.participants snapshot).Nodup := by
  obtain ⟨shape, -⟩ :=
    (ResourceReducer.validateResourceSnapshot_eq_ok _ _).mp (resources.valid snapshot member)
  exact shape.participants

theorem acquisitionIn_eq_some (resources : ResourcesMatch graph state)
    {snapshot : ResourceSnapshot} (present : snapshot ∈ state.resources)
    {acquisition : ResourceAcquisition} (member : acquisition ∈ snapshot.acquisitions) :
    acquisitionIn state.resources acquisition.nodeId = some acquisition := by
  rw [Option.mem_def.mp present]
  exact ResourceReducer.find_acquisition (resources.participants_nodup present) member

/-- The acquisition that lets a task be selected is an admitted one. -/
theorem admits_of_executable {startedNodeIds : List GraphNodeId} {task : GraphTask}
    (executable : executableTask graph state.resources startedNodeIds task = true)
    (needs : graph.resourcesOf task.nodeId ≠ []) :
    state.Admits task.nodeId (graph.resourcesOf task.nodeId) := by
  obtain ⟨-, -, free | ⟨acquisition, found, admitted, required⟩⟩ := executableTask_iff.mp executable
  · exact absurd free needs
  · unfold acquisitionIn at found
    cases present : state.resources with
    | none => simp [present] at found
    | some snapshot =>
        simp only [present, Option.map_some, Option.getD_some, Option.mem_def] at found
        exact ⟨snapshot, present, acquisition, List.mem_of_find?_eq_some found,
          by simpa using List.find?_some found, required, admitted⟩

/-- Two nodes that are admitted at the same time use different resources. -/
theorem admits_disjoint (resources : ResourcesMatch graph state) {a b : GraphNodeId}
    {requiredA requiredB : List ResourceId} (admitsA : state.Admits a requiredA)
    (admitsB : state.Admits b requiredB) (different : a ≠ b) :
    List.Disjoint requiredA requiredB := by
  obtain ⟨snapshot, present, first, memberA, rfl, rfl, admittedA⟩ := admitsA
  obtain ⟨other, presentB, second, memberB, rfl, rfl, admittedB⟩ := admitsB
  obtain rfl : snapshot = other := Option.mem_unique present presentB
  intro r neededA neededB
  exact different (ResourceReducer.admitted_disjoint (resources.valid snapshot present) memberA
    memberB admittedA admittedB neededA neededB)

end ResourcesMatch

theorem mem_requestPairs {snapshot : ResourceSnapshot} {nodeId : GraphNodeId}
    {required : List ResourceId} :
    (nodeId, required) ∈ ResourceReducer.requestPairs snapshot ↔
      ∃ acquisition ∈ snapshot.acquisitions,
        acquisition.nodeId = nodeId ∧ acquisition.required = required := by
  simp [ResourceReducer.requestPairs]

/-- Reading the acquisitions as a dictionary gives the requests back. -/
theorem get?_required {snapshot : ResourceSnapshot}
    (distinct : (ResourceReducer.participants snapshot).Nodup) (nodeId : GraphNodeId)
    (required : List ResourceId) :
    (Dict.build (snapshot.acquisitions.map (·.nodeId)) (fun nodeId =>
        ((snapshot.acquisitions.find? (fun item => item.nodeId = nodeId)).map
          (·.required)).getD [])).get? nodeId = some required ↔
      (nodeId, required) ∈ ResourceReducer.requestPairs snapshot := by
  rw [Dict.get?_build, mem_requestPairs]
  constructor
  · intro found
    split at found
    · rename_i inside
      obtain ⟨acquisition, member, rfl⟩ := List.mem_map.mp inside
      rw [ResourceReducer.find_acquisition distinct member] at found
      exact ⟨acquisition, member, rfl, Option.some.inj found⟩
    · cases found
  · rintro ⟨acquisition, member, rfl, rfl⟩
    rw [if_pos (List.mem_map_of_mem member), ResourceReducer.find_acquisition distinct member]
    rfl

theorem get?_requiredResources {graph : CompiledGraph τ} {state : GraphRunState}
    (nodeId : GraphNodeId) (required : List ResourceId) :
    (requiredResources graph state).get? nodeId = some required ↔
      nodeId ∈ pendingNodeIds state.frontier ∧ graph.resourcesOf nodeId = required ∧
        required ≠ [] := by
  rw [requiredResources, Dict.get?_build]
  simp only [List.mem_filter, decide_eq_true_eq, Option.ite_none_right_eq_some, Option.some.injEq]
  constructor
  · rintro ⟨⟨pending, needs⟩, rfl⟩
    exact ⟨pending, rfl, needs⟩
  · rintro ⟨pending, rfl, needs⟩
    exact ⟨⟨pending, needs⟩, rfl⟩

/-- The snapshot guard lets only matching resources through. -/
theorem requireResourceSnapshot_ok {graph : CompiledGraph τ} {state : GraphRunState}
    (valid : ∀ snapshot ∈ state.resources,
      ResourceReducer.validateResourceSnapshot snapshot = .ok ())
    (ok : requireResourceSnapshot graph state = .ok ()) : ResourcesMatch graph state := by
  refine ⟨valid, ?_⟩
  intro nodeId required
  rw [← get?_requiredResources]
  unfold requireResourceSnapshot at ok
  dsimp only at ok
  split at ok
  · rename_i free
    rw [raiseIf_eq_ok, ne_eq, not_not] at ok
    have nothing : (requiredResources graph state).get? nodeId = none := by
      rw [Dict.get?_eq_none, Dict.keys, free]
      simp
    rw [ok, nothing]
    simp
  · simp only [bind_eq_ok, exists_unit, orRaise_eq_ok, raiseIf_eq_ok, ne_eq, not_not] at ok
    obtain ⟨snapshot, present, -, same⟩ := ok
    have shape := (ResourceReducer.validateResourceSnapshot_eq_ok _ _).mp (valid snapshot present)
    rw [← same nodeId, get?_required shape.1.participants, present]
    simp

theorem ResourcesMatch.of_guard {graph : CompiledGraph τ} {state : GraphRunState}
    (ok : requireSnapshotMatchesGraph graph state = .ok ()) (running : state.status = .running)
    (leased : state.execution ≠ none) : ResourcesMatch graph state := by
  simp only [requireSnapshotMatchesGraph, bind_eq_ok, exists_unit, rethrow_eq_ok,
    validateGraphRunState_eq_ok, running, ne_eq, not_true_eq_false, if_false] at ok
  obtain ⟨valid, -, -, checks⟩ := ok
  simp only [requireRunningSnapshot, bind_eq_ok, exists_unit] at checks
  obtain ⟨-, declared, -, -, text, -, -, -, -, resources⟩ := checks
  apply requireResourceSnapshot_ok
  · intro snapshot present
    exact (valid.resources snapshot present).snapshot
  · cases lease : state.execution with
    | none => exact absurd lease leased
    | some _ => simpa only [lease] using resources

/-! ## Settling one node -/

/-- What a confirmed settlement does to the frontier and the resources of a run. -/
structure SettlesNode (graph : CompiledGraph τ) (nodeId : GraphNodeId)
    (before after : GraphRunState) : Prop where
  pending : ∀ other, other ∈ pendingNodeIds after.frontier ↔
    other ∈ pendingNodeIds before.frontier ∧ other ≠ nodeId
  resources : ResourcesMatch graph before → ResourcesMatch graph after
  admits : ResourcesMatch graph before → ∀ other required,
    other ∈ pendingNodeIds after.frontier → before.Admits other required →
      after.Admits other required

section Settled

variable {graph : CompiledGraph τ} {before : GraphRunState} {nodeId : GraphNodeId}
  {resources : Option ResourceSnapshot}

/-- Who takes part once one node has given up its resources. -/
theorem settleResources_pairs
    (settled : settleResources before.resources nodeId = .ok resources)
    (other : GraphNodeId) (required : List ResourceId) :
    (∃ snapshot ∈ resources, (other, required) ∈ ResourceReducer.requestPairs snapshot) ↔
      (∃ snapshot ∈ before.resources,
        (other, required) ∈ ResourceReducer.requestPairs snapshot) ∧ other ≠ nodeId := by
  cases present : before.resources with
  | none =>
      rw [present, settleResources, pure_eq_ok, Except.ok.injEq] at settled
      simp [← settled]
  | some snapshot =>
      rw [present] at settled
      by_cases member : nodeId ∈ ResourceReducer.participants snapshot
      · obtain ⟨released, reduced, rfl⟩ := (settleResources_participant member _).mp settled
        obtain ⟨-, -, -, -, -, -, -, -, pairs⟩ := ResourceReducer.release_result reduced
        have kept : (∃ kept ∈ keptSnapshot released,
            (other, required) ∈ ResourceReducer.requestPairs kept) ↔
            (other, required) ∈ ResourceReducer.requestPairs released := by
          unfold keptSnapshot
          split
          · rename_i empty
            simp [ResourceReducer.requestPairs, empty]
          · simp
        rw [kept, pairs]
        simp only [Option.mem_def, Option.some.injEq, exists_eq_left', mem_requestPairs,
          List.mem_map, List.mem_filter, Prod.mk.injEq, decide_eq_true_eq]
        constructor
        · rintro ⟨acquisition, ⟨inside, different⟩, rfl, rfl⟩
          exact ⟨⟨acquisition, inside, rfl, rfl⟩, different⟩
        · rintro ⟨⟨acquisition, inside, rfl, rfl⟩, different⟩
          exact ⟨acquisition, ⟨inside, different⟩, rfl, rfl⟩
      · have same : settleResources (some snapshot) nodeId = .ok (some snapshot) := by
          apply settleResources_other
          intro held found
          obtain rfl := Option.some.inj found
          exact member
        obtain rfl := Except.ok.inj (same.symm.trans settled)
        simp only [Option.mem_def, Option.some.injEq, exists_eq_left', mem_requestPairs]
        constructor
        · rintro ⟨acquisition, inside, rfl, rfl⟩
          refine ⟨⟨acquisition, inside, rfl, rfl⟩, ?_⟩
          rintro rfl
          exact member (List.mem_map_of_mem inside)
        · exact fun h => h.1

/-- Whoever was admitted stays admitted when another node gives up its resources. -/
theorem settleResources_admits
    (settled : settleResources before.resources nodeId = .ok resources)
    (valid : ∀ snapshot ∈ before.resources,
      ResourceReducer.validateResourceSnapshot snapshot = .ok ())
    {other : GraphNodeId} {required : List ResourceId} (different : other ≠ nodeId)
    (admits : before.Admits other required) :
    ∃ snapshot ∈ resources, ∃ acquisition ∈ snapshot.acquisitions, acquisition.nodeId = other ∧
      acquisition.required = required ∧ acquisition.admitted = true := by
  obtain ⟨snapshot, present, acquisition, inside, rfl, rfl, admitted⟩ := admits
  rw [Option.mem_def.mp present] at settled
  by_cases member : nodeId ∈ ResourceReducer.participants snapshot
  · obtain ⟨released, reduced, rfl⟩ := (settleResources_participant member _).mp settled
    obtain ⟨kept, keptInside, same, keptAdmitted⟩ :=
      ResourceReducer.release_keeps_admitted reduced inside admitted different
    have nonempty : released.acquisitions ≠ [] := List.ne_nil_of_mem keptInside
    refine ⟨released, by simp [keptSnapshot, nonempty], kept, keptInside, same, ?_, keptAdmitted⟩
    -- the two acquisitions belong to one node of the old snapshot
    obtain ⟨-, -, -, -, -, -, -, -, pairs⟩ := ResourceReducer.release_result reduced
    have pair : (kept.nodeId, kept.required) ∈ ResourceReducer.requestPairs released :=
      mem_requestPairs.mpr ⟨kept, keptInside, rfl, rfl⟩
    rw [pairs] at pair
    simp only [List.mem_map, List.mem_filter, Prod.mk.injEq] at pair
    obtain ⟨old, ⟨oldInside, -⟩, sameNode, sameNeed⟩ := pair
    obtain ⟨shape, -⟩ :=
      (ResourceReducer.validateResourceSnapshot_eq_ok _ _).mp (valid snapshot present)
    have one : old = acquisition :=
      List.inj_on_of_nodup_map shape.participants oldInside inside (sameNode.trans same)
    rw [← sameNeed, one]
  · have kept : settleResources (some snapshot) nodeId = .ok (some snapshot) := by
      apply settleResources_other
      intro held found
      obtain rfl := Option.some.inj found
      exact member
    obtain rfl := Except.ok.inj (kept.symm.trans settled)
    exact ⟨snapshot, rfl, acquisition, inside, rfl, rfl, admitted⟩

end Settled

theorem Confirms.frontier {command : GraphRunCommand} {successor confirmed : GraphRunState}
    (confirms : Confirms command successor confirmed) :
    confirmed.frontier = successor.frontier ∧ confirmed.resources = successor.resources := by
  cases confirms with
  | exact => exact ⟨rfl, rfl⟩
  | annotated place _ _ _ _ => cases place <;> exact ⟨rfl, rfl⟩

/-- A confirmed settlement takes its node out of the pending ones and of the snapshot. -/
theorem confirmed_settlesNode {graph : CompiledGraph τ} {before after result : GraphRunState}
    {command : SettleGraphNode}
    (confirmed : admitGraphRunConfirmation (some before) (.settle command) after = .ok result) :
    SettlesNode graph command.outcome.nodeId before after := by
  obtain ⟨-, successor, reduced, confirms⟩ := (admitGraphRunConfirmation_eq_ok _ _ _ _).mp confirmed
  obtain ⟨frontier, snapshots⟩ := confirms.frontier
  obtain ⟨-, -, settlement, ledger, cursor, resources, settles, valid, rfl⟩ :=
    reduceGraphRun_settle.mp reduced
  have pending : ∀ other, other ∈ pendingNodeIds after.frontier ↔
      other ∈ pendingNodeIds before.frontier ∧ other ≠ command.outcome.nodeId := by
    intro other
    rw [frontier]
    exact mem_pendingNodeIds_settleFrontier settles.outcome.not_pending
  -- while a node is pending the frontier is executable and the released snapshot stays
  have still : ∀ other ∈ pendingNodeIds after.frontier, after.resources = resources := by
    intro other member
    rw [snapshots]
    rw [frontier] at member
    exact if_pos (pendingNodeIds_ne_nil.mp (List.ne_nil_of_mem member))
  refine ⟨pending, ?_, ?_⟩
  · intro matching
    refine ⟨?_, ?_⟩
    · intro snapshot present
      rw [snapshots] at present
      exact (valid.resources snapshot present).snapshot
    · intro other required
      by_cases rest : pendingNodeIds after.frontier = []
      · have none : after.resources = none := by
          rw [snapshots]
          rw [frontier] at rest
          refine if_neg (fun executable => ?_)
          exact pendingNodeIds_ne_nil.mpr executable rest
        simp [none, rest]
      · obtain ⟨some, member⟩ := List.exists_mem_of_ne_nil _ rest
        rw [still some member, settleResources_pairs settles.resources, matching.participants,
          pending other]
        exact ⟨fun h => ⟨⟨h.1.1, h.2⟩, h.1.2⟩, fun h => ⟨⟨h.1.1, h.2⟩, h.1.2⟩⟩
  · intro matching other required member admits
    have different := ((pending other).mp member).2
    unfold GraphRunState.Admits
    rw [still other member]
    exact settleResources_admits settles.resources matching.valid different admits

/-! ## What a session keeps -/

namespace GraphExecutionSession

/-- The nodes on their way to a confirmed settlement. -/
def inFlight (session : GraphExecutionSession τ ν σ ι) : List GraphNodeId :=
  session.scheduler.live.map (·.task.nodeId) ++ session.scheduler.events.map (·.task.nodeId) ++
    session.queuedResults.map (·.result.task.nodeId) ++
    session.awaitingAck.toList.map (·.outcome.nodeId)

/-- The tasks of a claim, and where each of them stands. -/
structure Scheduling (graph : CompiledGraph τ) (limits : ExecutionLimits)
    (session : GraphExecutionSession τ ν σ ι) : Prop where
  graph : session.graph = graph
  limits : session.limits = limits
  callable : ∀ executable ∈ session.executables,
    session.graph.callable executable.task.nodeId = true
  taskIds : (session.executables.map (·.task.taskId)).Nodup
  nodeIds : (session.executables.map (·.task.nodeId)).Nodup
  covers : ∀ nodeId ∈ pendingNodeIds session.state.frontier,
    session.graph.callable nodeId = true → nodeId ∈ session.executables.map (·.task.nodeId)
  nests : ∀ nodeId ∈ pendingNodeIds session.state.frontier,
    session.graph.callable nodeId = false → nodeId ∈ session.graph.nestedGraphs.map Prod.fst
  resources : ResourcesMatch session.graph session.state
  live : ∀ executable ∈ session.scheduler.live, executable ∈ session.executables
  events : ∀ event ∈ session.scheduler.events, event.task ∈ session.executables.map (·.task)
  once : session.inFlight.Nodup
  pending : ∀ nodeId ∈ session.inFlight, nodeId ∈ pendingNodeIds session.state.frontier
  origin : ∀ nodeId ∈ session.inFlight,
    nodeId ∈ session.started ∨ session.graph.callable nodeId = false
  admitted : ∀ nodeId ∈ session.started, nodeId ∈ pendingNodeIds session.state.frontier →
    session.graph.resourcesOf nodeId ≠ [] →
      session.state.Admits nodeId (session.graph.resourcesOf nodeId)
  submitted : session.scheduler.submitted.map (·.nodeId) = session.started
  distinct : session.started.Nodup
  slots : session.scheduler.live.length ≤ session.limits.maxParallelTasks

/-- Unless a task has raised, the started nodes that are pending are all on their way. -/
def Accounted (session : GraphExecutionSession τ ν σ ι) : Prop :=
  session.error = none → session.disposition = .opened ∧
    ∀ nodeId ∈ session.started, nodeId ∈ pendingNodeIds session.state.frontier →
      nodeId ∈ session.inFlight

/-- The second session differs from the first in where its nodes are on their way, and some of
them may have left. -/
structure Shrinks (session after : GraphExecutionSession τ ν σ ι) (lost : List GraphNodeId) :
    Prop where
  graph : after.graph = session.graph
  limits : after.limits = session.limits
  executables : after.executables = session.executables
  state : after.state = session.state
  started : after.started = session.started
  submitted : after.scheduler.submitted = session.scheduler.submitted
  live : after.scheduler.live.Sublist session.scheduler.live
  events : ∀ event ∈ after.scheduler.events,
    event ∈ session.scheduler.events ∨ event.task ∈ session.scheduler.live.map (·.task)
  inFlight : (after.inFlight ++ lost).Perm session.inFlight

variable {session after : GraphExecutionSession τ ν σ ι} {lost : List GraphNodeId}
  {graph : CompiledGraph τ} {limits : ExecutionLimits}

theorem Shrinks.mem (shrinks : Shrinks session after lost) {nodeId : GraphNodeId}
    (member : nodeId ∈ after.inFlight) : nodeId ∈ session.inFlight :=
  shrinks.inFlight.subset (List.mem_append_left _ member)

theorem Scheduling.shrink (scheduling : Scheduling graph limits session)
    (shrinks : Shrinks session after lost) : Scheduling graph limits after where
  graph := shrinks.graph.trans scheduling.graph
  limits := shrinks.limits.trans scheduling.limits
  callable := by
    rw [shrinks.executables, shrinks.graph]
    exact scheduling.callable
  taskIds := by
    rw [shrinks.executables]
    exact scheduling.taskIds
  nodeIds := by
    rw [shrinks.executables]
    exact scheduling.nodeIds
  covers := by
    rw [shrinks.executables, shrinks.graph, shrinks.state]
    exact scheduling.covers
  nests := by
    rw [shrinks.graph, shrinks.state]
    exact scheduling.nests
  resources := by
    rw [shrinks.graph, shrinks.state]
    exact scheduling.resources
  live := by
    intro executable member
    rw [shrinks.executables]
    exact scheduling.live executable (shrinks.live.subset member)
  events := by
    intro event member
    rw [shrinks.executables]
    rcases shrinks.events event member with here | live
    · exact scheduling.events event here
    · obtain ⟨executable, inside, same⟩ := List.mem_map.mp live
      exact List.mem_map.mpr ⟨executable, scheduling.live executable inside, same⟩
  once := (List.nodup_append.mp (shrinks.inFlight.nodup_iff.mpr scheduling.once)).1
  pending := by
    intro nodeId member
    rw [shrinks.state]
    exact scheduling.pending nodeId (shrinks.mem member)
  origin := by
    intro nodeId member
    rw [shrinks.started, shrinks.graph]
    exact scheduling.origin nodeId (shrinks.mem member)
  admitted := by
    rw [shrinks.started, shrinks.graph, shrinks.state]
    exact scheduling.admitted
  submitted := by
    rw [shrinks.submitted, shrinks.started]
    exact scheduling.submitted
  distinct := by
    rw [shrinks.started]
    exact scheduling.distinct
  slots := by
    rw [shrinks.limits]
    exact shrinks.live.length_le.trans scheduling.slots

/-- Nothing is lost on the way. -/
theorem Accounted.shrink (accounted : Accounted session) (shrinks : Shrinks session after lost)
    (kept : after.error = none → session.error = none ∧ after.disposition = session.disposition ∧
      lost = []) : Accounted after := by
  intro quiet
  obtain ⟨before, disposition, rfl⟩ := kept quiet
  obtain ⟨opened, way⟩ := accounted before
  refine ⟨disposition.trans opened, ?_⟩
  intro nodeId started pending
  rw [shrinks.started] at started
  rw [shrinks.state] at pending
  have perm := shrinks.inFlight
  rw [List.append_nil] at perm
  exact perm.mem_iff.mpr (way nodeId started pending)

/-! ## The parts of `next` -/

/-- An acknowledged settlement takes its node out of flight. -/
theorem acknowledge_keeps {state : GraphRunState} (scheduling : Scheduling graph limits session)
    (accounted : Accounted session) (ok : session.acknowledge state = .ok after) :
    Scheduling graph limits after ∧ Accounted after ∧ after.awaitingAck = none := by
  unfold acknowledge at ok
  cases awaiting : session.awaitingAck with
  | none =>
      simp only [awaiting, bind_eq_ok, exists_unit, pure_eq_ok, Except.ok.injEq] at ok
      obtain ⟨-, -, rfl⟩ := ok
      exact ⟨scheduling, accounted, awaiting⟩
  | some command =>
      simp only [awaiting, bind_eq_ok, rethrow_eq_ok, pure_eq_ok, Except.ok.injEq] at ok
      obtain ⟨result, confirmed, rfl⟩ := ok
      have settles : SettlesNode session.graph command.outcome.nodeId session.state state :=
        confirmed_settlesNode confirmed
      have flight : session.inFlight =
          inFlight { session with state := state, awaitingAck := none } ++
            [command.outcome.nodeId] := by
        simp [inFlight, awaiting]
      have once := scheduling.once
      rw [flight, List.nodup_append] at once
      have inside : ∀ nodeId ∈ inFlight { session with state := state, awaitingAck := none },
          nodeId ∈ session.inFlight := by
        intro nodeId member
        rw [flight]
        exact List.mem_append_left _ member
      refine ⟨?_, ?_, rfl⟩
      · exact {
          graph := scheduling.graph
          limits := scheduling.limits
          callable := scheduling.callable
          taskIds := scheduling.taskIds
          nodeIds := scheduling.nodeIds
          covers := fun nodeId pending =>
            scheduling.covers nodeId ((settles.pending nodeId).mp pending).1
          nests := fun nodeId pending =>
            scheduling.nests nodeId ((settles.pending nodeId).mp pending).1
          resources := settles.resources scheduling.resources
          live := scheduling.live
          events := scheduling.events
          once := once.1
          pending := by
            intro nodeId member
            refine (settles.pending nodeId).mpr
              ⟨scheduling.pending nodeId (inside nodeId member), ?_⟩
            exact once.2.2 nodeId member _ List.mem_cons_self
          origin := fun nodeId member => scheduling.origin nodeId (inside nodeId member)
          admitted := by
            intro nodeId started pending needs
            apply settles.admits scheduling.resources nodeId _ pending
            exact scheduling.admitted nodeId started ((settles.pending nodeId).mp pending).1 needs
          submitted := scheduling.submitted
          distinct := scheduling.distinct
          slots := scheduling.slots }
      · intro quiet
        obtain ⟨opened, way⟩ := accounted quiet
        refine ⟨opened, ?_⟩
        intro nodeId started pending
        obtain ⟨before, different⟩ := (settles.pending nodeId).mp pending
        have member := way nodeId started before
        rw [flight] at member
        rcases List.mem_append.mp member with here | settled
        · exact here
        · exact absurd (List.mem_singleton.mp settled) different

/-- Recording errors touches nothing but the error, and leaves none unrecorded. -/
theorem foldl_recordError (errors : List TaskRaised) (session : GraphExecutionSession τ ν σ ι) :
    ∃ error cancellation disposition,
      errors.foldl recordError session = { session with
        error := error
        nodeOriginCancellation := cancellation
        disposition := disposition } ∧
      (error = none → errors = [] ∧ session.error = none ∧ disposition = session.disposition) := by
  induction errors generalizing session with
  | nil =>
      exact ⟨session.error, session.nodeOriginCancellation, session.disposition, rfl,
        fun quiet => ⟨rfl, quiet, rfl⟩⟩
  | cons raised errors ih =>
      obtain ⟨error, cancellation, disposition, same, quiet⟩ := ih (session.recordError raised)
      refine ⟨error, cancellation, disposition, same, ?_⟩
      intro silent
      obtain ⟨-, recorded, -⟩ := quiet silent
      cases recorded

/-- Draining moves the results to the queue and drops the nodes that raised. -/
theorem drain_shrinks (session : GraphExecutionSession τ ν σ ι) :
    ∃ lost, Shrinks session session.drainSchedulerEvents lost ∧
      session.drainSchedulerEvents.scheduler.events = [] ∧
      session.drainSchedulerEvents.awaitingAck = session.awaitingAck ∧
      (session.drainSchedulerEvents.error = none → session.error = none ∧
        session.drainSchedulerEvents.disposition = session.disposition ∧ lost = []) := by
  obtain ⟨error, cancellation, disposition, same, quiet⟩ :=
    foldl_recordError (session.scheduler.events.filterMap TaskEvent.error?)
      { session with scheduler := { session.scheduler with events := [] } }
  have drained : session.drainSchedulerEvents = { session with
      scheduler := { session.scheduler with events := [] }
      error := error
      nodeOriginCancellation := cancellation
      disposition := disposition
      queuedResults := session.queuedResults ++
        (session.scheduler.events.filterMap TaskEvent.result?).map (fun result => ⟨result, true⟩) } := by
    simp only [drainSchedulerEvents, TaskScheduler.drainPendingEvents, same]
  refine ⟨(session.scheduler.events.filterMap TaskEvent.error?).map (·.task.nodeId), ?_, ?_, ?_, ?_⟩
  · rw [drained]
    refine ⟨rfl, rfl, rfl, rfl, rfl, rfl, List.Sublist.refl _, by simp, ?_⟩
    have parts : ((session.scheduler.events.filterMap TaskEvent.result?).map (·.task.nodeId) ++
        (session.scheduler.events.filterMap TaskEvent.error?).map (·.task.nodeId)).Perm
        (session.scheduler.events.map (·.task.nodeId)) := by
      induction session.scheduler.events with
      | nil => simp
      | cons event events ih =>
          cases event with
          | completed result => exact ih.cons _
          | raised error => exact List.perm_middle.trans (ih.cons _)
    rw [List.perm_iff_count] at parts ⊢
    intro nodeId
    have counted := parts nodeId
    simp only [inFlight, List.map_append, List.map_map, List.count_append, List.map_nil,
      List.count_nil] at counted ⊢
    simp only [Function.comp_def] at counted ⊢
    omega
  · rw [drained]
  · rw [drained]
  · rw [drained]
    intro silent
    obtain ⟨none, before, disposition⟩ := quiet silent
    exact ⟨before, disposition, by rw [none, List.map_nil]⟩

/-- A projected result leaves for its settlement. -/
theorem project_ok {result : CompletedTask ν σ} {executed : ExecutedGraphNode ν σ}
    (ok : session.project result = .ok (executed, after)) :
    ∃ command, command.outcome.nodeId = result.task.nodeId ∧
      after = { session with awaitingAck := some command } := by
  simp only [project, bind_eq_ok, pure_eq_ok, Except.ok.injEq, Prod.mk.injEq] at ok
  obtain ⟨command, settled, -, rfl⟩ := ok
  obtain ⟨-, -, node, -⟩ := settleResult_ok settled
  refine ⟨command, ?_, rfl⟩
  rw [node]
  cases result <;> rfl

/-- Closing a session drops what it had in flight. -/
theorem aclose_shrinks (session : GraphExecutionSession τ ν σ ι) :
    Shrinks session session.aclose session.inFlight where
  graph := rfl
  limits := rfl
  executables := rfl
  state := rfl
  started := rfl
  submitted := rfl
  live := List.nil_sublist _
  events := by simp [aclose, TaskScheduler.aclose]
  inFlight := by simp [inFlight, aclose, TaskScheduler.aclose]

/-! ## Scheduling -/

/-- The executables a session can still select. -/
theorem mem_pendingExecutables {executable : ExecutableTask ι} :
    executable ∈ session.pendingExecutables ↔ executable ∈ session.executables ∧
      executable.task.nodeId ∈ pendingNodeIds session.state.frontier := by
  simp [pendingExecutables]

theorem mem_selectedTasks {task : GraphTask} (member : task ∈ session.selectedTasks) :
    (∃ executable ∈ session.executables, executable.task = task) ∧
      task.nodeId ∈ pendingNodeIds session.state.frontier ∧
      executableTask session.graph session.state.resources session.started task = true := by
  obtain ⟨inside, executable⟩ := mem_selectExecutableTasks member
  obtain ⟨chosen, present, rfl⟩ := List.mem_map.mp inside
  obtain ⟨known, pending⟩ := mem_pendingExecutables.mp present
  exact ⟨⟨chosen, known, rfl⟩, pending, executable⟩

/-- The dictionary of `_select_ordinary` finds every selected task. -/
theorem selectOrdinary_tasks (scheduling : Scheduling graph limits session)
    (opened : session.disposition = .opened) :
    session.selectOrdinary.map (·.task) = session.selectedTasks := by
  have found : ∀ task ∈ session.selectedTasks, ∃ executable, executable.task = task ∧
      session.pendingExecutables.find? (fun other => other.task.taskId = task.taskId) =
        some executable := by
    intro task member
    obtain ⟨⟨executable, known, rfl⟩, pending, -⟩ := mem_selectedTasks member
    have inside := mem_pendingExecutables.mpr ⟨known, pending⟩
    cases looked : session.pendingExecutables.find?
        (fun other => other.task.taskId = executable.task.taskId) with
    | none => simpa using List.find?_eq_none.mp looked executable inside
    | some other =>
        have same : other.task.taskId = executable.task.taskId := by
          simpa using List.find?_some looked
        have otherKnown := (mem_pendingExecutables.mp (List.mem_of_find?_eq_some looked)).1
        exact ⟨other, by rw [List.inj_on_of_nodup_map scheduling.taskIds otherKnown known same], rfl⟩
  unfold selectOrdinary
  rw [if_neg (by simp [opened])]
  generalize session.selectedTasks = tasks at found ⊢
  induction tasks with
  | nil => rfl
  | cons task tasks ih =>
      obtain ⟨executable, same, looked⟩ := found task List.mem_cons_self
      simp only [List.filterMap_cons, looked, List.map_cons, same,
        ih (fun task member => found task (List.mem_cons_of_mem _ member))]

theorem mem_selectOrdinary {executable : ExecutableTask ι}
    (member : executable ∈ session.selectOrdinary) :
    executable ∈ session.pendingExecutables ∧
      ∃ task ∈ session.selectedTasks, executable.task.taskId = task.taskId := by
  unfold selectOrdinary at member
  split at member
  · cases member
  · obtain ⟨task, selected, looked⟩ := List.mem_filterMap.mp member
    exact ⟨List.mem_of_find?_eq_some looked, task, selected, by simpa using List.find?_some looked⟩

/-- What can be selected now: a pending executable whose node was not started, with everything it
needs. -/
theorem selectOrdinary_spec (scheduling : Scheduling graph limits session)
    {executable : ExecutableTask ι}
    (member : executable ∈ session.selectOrdinary) :
    executable ∈ session.executables ∧
      executable.task.nodeId ∈ pendingNodeIds session.state.frontier ∧
      executableTask session.graph session.state.resources session.started executable.task = true := by
  obtain ⟨inside, task, selected, same⟩ := mem_selectOrdinary member
  obtain ⟨known, pending⟩ := mem_pendingExecutables.mp inside
  obtain ⟨⟨other, otherKnown, rfl⟩, -, executes⟩ := mem_selectedTasks selected
  obtain rfl := List.inj_on_of_nodup_map scheduling.taskIds known otherKnown same
  exact ⟨known, pending, executes⟩

section Schedule

variable (scheduling : Scheduling graph limits session)

include scheduling

/-- A live task was started, and its node is pending. -/
theorem live_started {executable : ExecutableTask ι}
    (member : executable ∈ session.scheduler.live) :
    executable.task.nodeId ∈ session.started ∧
      executable.task.nodeId ∈ pendingNodeIds session.state.frontier := by
  have flying : executable.task.nodeId ∈ session.inFlight := by
    simp only [inFlight, List.mem_append]
    exact .inl (.inl (.inl (List.mem_map_of_mem member)))
  refine ⟨?_, scheduling.pending _ flying⟩
  rcases scheduling.origin _ flying with started | other
  · exact started
  · rw [scheduling.callable _ (scheduling.live executable member)] at other
    cases other

theorem live_nodup : (session.scheduler.live.map (·.task.nodeId)).Nodup := by
  have once := scheduling.once
  rw [inFlight, List.append_assoc, List.append_assoc] at once
  exact (List.nodup_append.mp once).1

theorem selectOrdinary_fresh {executable : ExecutableTask ι}
    (member : executable ∈ session.selectOrdinary) :
    executable.task.nodeId ∉ session.inFlight ∧ executable.task.nodeId ∉ session.started := by
  obtain ⟨known, -, executes⟩ := selectOrdinary_spec scheduling member
  obtain ⟨unstarted, callable, -⟩ := executableTask_iff.mp executes
  refine ⟨?_, unstarted⟩
  intro flying
  rcases scheduling.origin _ flying with started | other
  · exact unstarted started
  · rw [callable] at other
    cases other

theorem selectedTasks_nodup : (session.selectedTasks.map (·.nodeId)).Nodup := by
  apply selectExecutableTasks_nodup
  rw [List.map_map]
  exact List.Nodup.sublist (List.filter_sublist.map _) scheduling.nodeIds

theorem selectOrdinary_nodup :
    (session.selectOrdinary.map (·.task.nodeId)).Nodup := by
  by_cases opened : session.disposition = .opened
  · have tasks := selectOrdinary_tasks scheduling opened
    have nodes : session.selectOrdinary.map (·.task.nodeId) =
        session.selectedTasks.map (·.nodeId) := by
      rw [← tasks, List.map_map]
      rfl
    rw [nodes]
    exact selectedTasks_nodup scheduling
  · simp [selectOrdinary, opened]

theorem length_selectOrdinary : session.scheduler.live.length + session.selectOrdinary.length ≤
    session.limits.maxParallelTasks := by
  have room := scheduling.slots
  by_cases opened : session.disposition = .opened
  · have tasks := congrArg List.length (selectOrdinary_tasks scheduling opened)
    rw [List.length_map] at tasks
    have few : session.selectedTasks.length ≤
        session.limits.maxParallelTasks - session.scheduler.live.length :=
      length_selectExecutableTasks
    omega
  · simpa [selectOrdinary, opened] using room

/-- A selection is never refused: nothing in it was submitted before. -/
theorem scheduleOrdinary_ok : session.scheduleOrdinary = .ok { session with
    scheduler := { session.scheduler with
      live := session.scheduler.live ++ session.selectOrdinary
      submitted := session.scheduler.submitted ++ session.selectOrdinary.map (·.task) }
    started := session.started ++ session.selectOrdinary.map (·.task.nodeId) } := by
  have known : ∀ executable ∈ session.selectOrdinary, executable ∈ session.executables :=
    fun executable member => (selectOrdinary_spec scheduling member).1
  have distinct : (session.selectOrdinary.map (·.task.taskId)).Nodup := by
    refine List.Nodup.map_on ?_ (selectOrdinary_nodup scheduling).of_map
    intro a memberA b memberB same
    exact List.inj_on_of_nodup_map scheduling.taskIds (known a memberA) (known b memberB) same
  have apart : ¬ ∃ taskId ∈ session.selectOrdinary.map (·.task.taskId),
      taskId ∈ session.scheduler.live.map (·.task.taskId) ++
        session.scheduler.events.map (·.task.taskId) := by
    rintro ⟨taskId, selected, existing⟩
    obtain ⟨executable, member, rfl⟩ := List.mem_map.mp selected
    apply (selectOrdinary_fresh scheduling member).1
    unfold inFlight
    rcases List.mem_append.mp existing with live | event
    · obtain ⟨other, inside, same⟩ := List.mem_map.mp live
      obtain rfl := List.inj_on_of_nodup_map scheduling.taskIds (scheduling.live other inside)
        (known executable member) same
      simp only [List.mem_append]
      exact .inl (.inl (.inl (List.mem_map_of_mem inside)))
    · obtain ⟨other, inside, same⟩ := List.mem_map.mp event
      obtain ⟨owner, ownerKnown, own⟩ := List.mem_map.mp (scheduling.events other inside)
      rw [← own] at same
      obtain rfl := List.inj_on_of_nodup_map scheduling.taskIds ownerKnown
        (known executable member) same
      simp only [List.mem_append]
      refine .inl (.inl (.inr (List.mem_map.mpr ⟨other, inside, ?_⟩)))
      rw [← own]
  simp only [scheduleOrdinary, TaskScheduler.submit, bind_eq_ok, pure_eq_ok]
  refine ⟨_, ⟨(), ?_, rfl⟩, rfl⟩
  rw [raiseIf_eq_ok, not_or, not_not]
  exact ⟨distinct, apart⟩

end Schedule

/-- Scheduling keeps the account: what it starts is live. -/
theorem scheduleOrdinary_keeps (scheduling : Scheduling graph limits session)
    (accounted : Accounted session)
    (ok : session.scheduleOrdinary = .ok after) : Scheduling graph limits after ∧ Accounted after := by
  rw [scheduleOrdinary_ok scheduling, Except.ok.injEq] at ok
  subst ok
  have spec : ∀ executable ∈ session.selectOrdinary, executable ∈ session.executables ∧
      executable.task.nodeId ∈ pendingNodeIds session.state.frontier ∧
      executableTask session.graph session.state.resources session.started executable.task =
        true := fun executable member => selectOrdinary_spec scheduling member
  have flight : (inFlight { session with
      scheduler := { session.scheduler with
        live := session.scheduler.live ++ session.selectOrdinary
        submitted := session.scheduler.submitted ++ session.selectOrdinary.map (·.task) }
      started := session.started ++ session.selectOrdinary.map (·.task.nodeId) }).Perm
      (session.inFlight ++ session.selectOrdinary.map (·.task.nodeId)) := by
    rw [List.perm_iff_count]
    intro nodeId
    simp only [inFlight, List.map_append, List.count_append]
    omega
  refine ⟨?_, ?_⟩
  · exact {
      graph := scheduling.graph
      limits := scheduling.limits
      callable := scheduling.callable
      taskIds := scheduling.taskIds
      nodeIds := scheduling.nodeIds
      covers := scheduling.covers
      nests := scheduling.nests
      resources := scheduling.resources
      live := by
        intro executable member
        rcases List.mem_append.mp member with old | new
        · exact scheduling.live executable old
        · exact (spec executable new).1
      events := scheduling.events
      once := by
        rw [flight.nodup_iff, List.nodup_append]
        refine ⟨scheduling.once, selectOrdinary_nodup scheduling, ?_⟩
        intro nodeId old other new same
        obtain ⟨executable, member, rfl⟩ := List.mem_map.mp new
        exact (selectOrdinary_fresh scheduling member).1 (same ▸ old)
      pending := by
        intro nodeId member
        rcases List.mem_append.mp (flight.subset member) with old | new
        · exact scheduling.pending nodeId old
        · obtain ⟨executable, inside, rfl⟩ := List.mem_map.mp new
          exact (spec executable inside).2.1
      origin := by
        intro nodeId member
        rcases List.mem_append.mp (flight.subset member) with old | new
        · exact (scheduling.origin nodeId old).imp_left (List.mem_append_left _)
        · exact .inl (List.mem_append_right _ new)
      admitted := by
        intro nodeId started pending needs
        rcases List.mem_append.mp started with old | new
        · exact scheduling.admitted nodeId old pending needs
        · obtain ⟨executable, inside, rfl⟩ := List.mem_map.mp new
          exact ResourcesMatch.admits_of_executable (spec executable inside).2.2 needs
      submitted := by
        rw [List.map_append, scheduling.submitted, List.map_map]
        rfl
      distinct := by
        refine List.nodup_append.mpr ⟨scheduling.distinct, selectOrdinary_nodup scheduling, ?_⟩
        intro nodeId old other new same
        obtain ⟨executable, member, rfl⟩ := List.mem_map.mp new
        exact (selectOrdinary_fresh scheduling member).2 (same ▸ old)
      slots := by
        rw [List.length_append]
        exact length_selectOrdinary scheduling }
  · intro quiet
    obtain ⟨opened, way⟩ := accounted quiet
    refine ⟨opened, ?_⟩
    intro nodeId started pending
    apply flight.mem_iff.mpr
    rcases List.mem_append.mp started with old | new
    · exact List.mem_append_left _ (way nodeId old pending)
    · exact List.mem_append_right _ new

/-! ## Progress -/

/-- While a callable node is pending and none is in flight, there is something to select. -/
theorem selectedTasks_ne_nil (scheduling : Scheduling graph limits session)
    (accounted : Accounted session)
    (quiet : session.error = none)
    (waits : ∃ nodeId ∈ pendingNodeIds session.state.frontier,
      session.graph.callable nodeId = true)
    (idle : ∀ nodeId ∈ session.inFlight, session.graph.callable nodeId = false) :
    session.selectedTasks ≠ [] := by
  obtain ⟨-, way⟩ := accounted quiet
  -- a pending callable node was never started, or it would be in flight
  have unstarted : ∀ nodeId ∈ pendingNodeIds session.state.frontier,
      session.graph.callable nodeId = true → nodeId ∉ session.started := by
    intro nodeId pending callable started
    have grounded := idle nodeId (way nodeId started pending)
    rw [callable] at grounded
    cases grounded
  have none : session.scheduler.live = [] := by
    apply List.eq_nil_iff_forall_not_mem.mpr
    intro executable member
    have flying : executable.task.nodeId ∈ session.inFlight := by
      simp only [inFlight, List.mem_append]
      exact .inl (.inl (.inl (List.mem_map_of_mem member)))
    have grounded := idle _ flying
    rw [scheduling.callable _ (scheduling.live executable member)] at grounded
    cases grounded
  have slots : session.scheduler.live.length < session.limits.maxParallelTasks := by
    rw [none]
    exact session.limits.parallel_positive
  -- it is enough to find one pending callable node with everything it needs
  have enough : ∀ nodeId ∈ pendingNodeIds session.state.frontier,
      session.graph.callable nodeId = true → (session.graph.resourcesOf nodeId = [] ∨
        ∃ acquisition ∈ acquisitionIn session.state.resources nodeId,
          acquisition.admitted = true ∧
          acquisition.required = session.graph.resourcesOf nodeId) →
      session.selectedTasks ≠ [] := by
    intro nodeId pending callable served
    obtain ⟨executable, known, rfl⟩ := List.mem_map.mp (scheduling.covers nodeId pending callable)
    have inside : executable.task ∈ session.pendingExecutables.map (·.task) :=
      List.mem_map_of_mem (mem_pendingExecutables.mpr ⟨known, pending⟩)
    refine selectExecutableTasks_ne_nil inside (executableTask_iff.mpr ?_) slots
    exact ⟨unstarted _ pending callable, callable, served⟩
  obtain ⟨nodeId, pending, callable⟩ := waits
  by_cases free : session.graph.resourcesOf nodeId = []
  · exact enough nodeId pending callable (.inl free)
  -- otherwise the first participant of the snapshot has been admitted
  obtain ⟨snapshot, present, takesPart⟩ :=
    (scheduling.resources.participants nodeId _).mpr ⟨pending, rfl, free⟩
  cases acquisitions : snapshot.acquisitions with
  | nil => simp [ResourceReducer.requestPairs, acquisitions] at takesPart
  | cons first rest =>
      have admitted := ResourceReducer.first_admitted
        (scheduling.resources.valid snapshot present) acquisitions
      have member : first ∈ snapshot.acquisitions := by simp [acquisitions]
      obtain ⟨firstPending, required, needs⟩ :=
        (scheduling.resources.participants first.nodeId first.required).mp
          ⟨snapshot, present, mem_requestPairs.mpr ⟨first, member, rfl, rfl⟩⟩
      have firstCallable : session.graph.callable first.nodeId = true := by
        apply callable_of_resources
        rw [required]
        exact needs
      apply enough first.nodeId firstPending firstCallable
      exact .inr ⟨first, scheduling.resources.acquisitionIn_eq_some present member, admitted,
        required.symm⟩

/-! ## One pass of the loop -/

/-- A node that has just left for its settlement is still in flight. -/
theorem Shrinks.settle {command : SettleGraphNode} {nodeId : GraphNodeId}
    (shrinks : Shrinks session after [nodeId]) (free : after.awaitingAck = none)
    (node : command.outcome.nodeId = nodeId) :
    Shrinks session { after with awaitingAck := some command } [] where
  graph := shrinks.graph
  limits := shrinks.limits
  executables := shrinks.executables
  state := shrinks.state
  started := shrinks.started
  submitted := shrinks.submitted
  live := shrinks.live
  events := shrinks.events
  inFlight := by
    have perm := shrinks.inFlight
    simp only [GraphExecutionSession.inFlight, free, Option.toList_none, Option.toList_some,
      List.map_nil, List.map_cons, List.append_nil, node] at perm ⊢
    exact perm

end GraphExecutionSession

/-- The session of a driver: its tasks are accounted for as long as the driver goes on. -/
structure DrivenSession.Sound (graph : CompiledGraph τ) (limits : ExecutionLimits)
    (driven : DrivenSession τ ν σ ι) : Prop where
  scheduling : GraphExecutionSession.Scheduling graph limits driven.session
  accounted : (∀ outcome, driven.phase ≠ .done outcome) → driven.session.Accounted
  acknowledged : driven.phase = .looping ∨ driven.phase = .waiting →
    driven.session.awaitingAck = none
  schedulable : driven.phase ≠ .done (some .unschedulable)

namespace GraphExecutionSession

variable {session after : GraphExecutionSession τ ν σ ι} {graph : CompiledGraph τ}
  {limits : ExecutionLimits}

/-- A queued completion is settled, and the slot of its task is filled again. -/
theorem takeQueued_sound {queued : QueuedCompletion ν σ} {rest : List (QueuedCompletion ν σ)}
    {outcome : NextOutcome ν σ} (scheduling : Scheduling graph limits session)
    (accounted : Accounted session)
    (free : session.awaitingAck = none) (queue : session.queuedResults = queued :: rest)
    (taken : takeQueued { session with queuedResults := rest } queued = (after, outcome)) :
    DrivenSession.Sound graph limits ⟨after, DrivenSession.phaseAfter .waiting (some outcome)⟩ := by
  have popped : Shrinks session { session with queuedResults := rest }
      [queued.result.task.nodeId] := by
    refine ⟨rfl, rfl, rfl, rfl, rfl, rfl, List.Sublist.refl _, fun _ member => .inl member, ?_⟩
    rw [List.perm_iff_count]
    intro nodeId
    simp only [inFlight, queue, List.map_cons, List.count_append, List.count_cons, List.count_nil]
    omega
  unfold takeQueued at taken
  split at taken
  · obtain ⟨rfl, rfl⟩ := Prod.mk.inj taken
    exact ⟨scheduling.shrink popped, fun active => absurd rfl (active _),
      by simp [DrivenSession.phaseAfter],
      by simp [DrivenSession.phaseAfter]⟩
  · rename_i executed projected projects
    obtain ⟨command, node, rfl⟩ := project_ok projects
    have leaves := popped.settle free node
    have kept := scheduling.shrink leaves
    have counted := accounted.shrink leaves (fun quiet => ⟨quiet, rfl, rfl⟩)
    split at taken
    · rw [scheduleOrdinary_ok kept] at taken
      obtain ⟨rfl, rfl⟩ := Prod.mk.inj taken
      obtain ⟨scheduled, way⟩ := scheduleOrdinary_keeps kept counted (scheduleOrdinary_ok kept)
      exact ⟨scheduled, fun _ => way, by simp [DrivenSession.phaseAfter],
        by simp [DrivenSession.phaseAfter]⟩
    · obtain ⟨rfl, rfl⟩ := Prod.mk.inj taken
      exact ⟨kept, fun _ => counted, by simp [DrivenSession.phaseAfter],
        by simp [DrivenSession.phaseAfter]⟩

/-- With nothing live the session ends, and never for want of an executable node. -/
theorem settleIdle_sound {outcome : NextOutcome ν σ} (scheduling : Scheduling graph limits session)
    (accounted : Accounted session) (free : session.awaitingAck = none)
    (drained : session.scheduler.events = []) (empty : session.queuedResults = [])
    (nothing : session.scheduler.live = [])
    (unselected : session.error = none → session.selectedTasks = [])
    (idle : session.settleIdle = (after, outcome)) :
    DrivenSession.Sound graph limits ⟨after, DrivenSession.phaseAfter .waiting (some outcome)⟩ := by
  have same : Shrinks session { session with disposition := .quiescent } [] :=
    ⟨rfl, rfl, rfl, rfl, rfl, rfl, List.Sublist.refl _, fun _ member => .inl member, by
      rw [List.append_nil]
      exact List.Perm.refl _⟩
  unfold settleIdle at idle
  split at idle
  · obtain ⟨rfl, rfl⟩ := Prod.mk.inj idle
    exact ⟨scheduling.shrink same, fun active => absurd rfl (active _),
      by simp [DrivenSession.phaseAfter], by simp [DrivenSession.phaseAfter]⟩
  · rename_i quiet
    split at idle
    · obtain ⟨rfl, rfl⟩ := Prod.mk.inj idle
      exact ⟨scheduling.shrink same, fun active => absurd rfl (active _),
        by simp [DrivenSession.phaseAfter], by simp [DrivenSession.phaseAfter]⟩
    · rename_i somePending
      -- a pending node outside the nested ones is callable, and would have been selected
      exfalso
      apply selectedTasks_ne_nil scheduling accounted quiet ?_ ?_ (unselected quiet)
      · simp only [List.all_eq_true, List.contains_iff_mem, not_forall] at somePending
        obtain ⟨nodeId, pending, outside⟩ := somePending
        refine ⟨nodeId, pending, ?_⟩
        cases callable : session.graph.callable nodeId with
        | true => rfl
        | false => exact absurd (scheduling.nests nodeId pending callable) outside
      · simp [inFlight, drained, empty, nothing, free]

/-- The loop body keeps the account. -/
theorem iterate_sound {outcome : Option (NextOutcome ν σ)} (scheduling : Scheduling graph limits session)
    (accounted : Accounted session) (free : session.awaitingAck = none)
    (passes : session.iterate = (after, outcome)) :
    DrivenSession.Sound graph limits ⟨after, DrivenSession.phaseAfter .waiting outcome⟩ := by
  obtain ⟨lost, shrinks, noEvents, awaiting, quiet⟩ := drain_shrinks session
  have kept := scheduling.shrink shrinks
  have counted := accounted.shrink shrinks quiet
  rw [free] at awaiting
  unfold iterate at passes
  dsimp only at passes
  split at passes
  · obtain ⟨rfl, rfl⟩ := Prod.mk.inj passes
    exact ⟨kept.shrink (aclose_shrinks _), fun active => absurd rfl (active _),
      by simp [DrivenSession.phaseAfter], by simp [DrivenSession.phaseAfter]⟩
  · split at passes
    · rename_i queued rest queue
      obtain ⟨rfl, rfl⟩ := Prod.mk.inj passes
      exact takeQueued_sound kept counted awaiting queue rfl
    · rename_i empty
      have scheduled := scheduleOrdinary_ok kept
      obtain ⟨sound, way⟩ := scheduleOrdinary_keeps kept counted scheduled
      rw [scheduled] at passes
      dsimp only at passes
      split at passes
      · rename_i nothing
        obtain ⟨rfl, rfl⟩ := Prod.mk.inj passes
        obtain ⟨live, selected⟩ := List.append_eq_nil_iff.mp nothing
        refine settleIdle_sound sound way awaiting noEvents empty nothing ?_ rfl
        intro silent
        have tasks := selectOrdinary_tasks kept (counted silent).1
        rw [selected, List.map_nil] at tasks
        simpa [selectedTasks, pendingExecutables, selected] using tasks.symm
      · obtain ⟨rfl, rfl⟩ := Prod.mk.inj passes
        exact ⟨sound, fun _ => way, fun _ => awaiting, by simp [DrivenSession.phaseAfter]⟩

/-! ## Completions -/

theorem finishes_iff {scheduler : TaskScheduler ν σ ι} {done : List (TaskEvent ν σ)} :
    scheduler.finishes done = true ↔ done ≠ [] ∧ (done.map TaskEvent.task).Nodup ∧
      ∀ event ∈ done, event.task ∈ scheduler.live.map (·.task) := by
  simp only [TaskScheduler.finishes, Bool.and_eq_true, Bool.not_eq_true', List.isEmpty_eq_false_iff,
    decide_eq_true_eq, List.all_eq_true, List.contains_iff_mem, and_assoc]

/-- The live tasks are those that go on and those of the batch. -/
theorem live_perm {done : List (TaskEvent ν σ)} (scheduling : Scheduling graph limits session)
    (finishes : session.scheduler.finishes done = true) :
    ((session.scheduler.live.filter (fun executable =>
        executable.task.taskId ∉ done.map (·.task.taskId))).map (·.task) ++
      done.map TaskEvent.task).Perm (session.scheduler.live.map (·.task)) := by
  obtain ⟨-, distinct, live⟩ := finishes_iff.mp finishes
  have nodes := live_nodup scheduling
  have tasks : (session.scheduler.live.map (·.task)).Nodup := by
    refine List.Nodup.of_map (fun task => task.nodeId) ?_
    rw [List.map_map]
    exact nodes
  have batch : ((session.scheduler.live.filter (fun executable =>
      executable.task.taskId ∈ done.map (·.task.taskId))).map (·.task)).Perm
      (done.map TaskEvent.task) := by
    refine (List.perm_ext_iff_of_nodup (List.Nodup.sublist (List.filter_sublist.map _) tasks)
      distinct).mpr ?_
    intro task
    constructor
    · intro member
      obtain ⟨executable, inside, rfl⟩ := List.mem_map.mp member
      obtain ⟨here, found⟩ := List.mem_filter.mp inside
      obtain ⟨event, finished, same⟩ := List.mem_map.mp (of_decide_eq_true found)
      obtain ⟨other, otherLive, own⟩ := List.mem_map.mp (live event finished)
      rw [← own] at same
      have one := List.inj_on_of_nodup_map scheduling.taskIds (scheduling.live other otherLive)
        (scheduling.live executable here) same
      exact List.mem_map.mpr ⟨event, finished, by rw [← own, one]⟩
    · intro member
      obtain ⟨event, finished, rfl⟩ := List.mem_map.mp member
      obtain ⟨executable, here, own⟩ := List.mem_map.mp (live event finished)
      refine List.mem_map.mpr ⟨executable, List.mem_filter.mpr ⟨here, ?_⟩, own⟩
      rw [decide_eq_true_eq, own]
      exact List.mem_map_of_mem (f := fun event : TaskEvent ν σ => event.task.taskId) finished
  refine (batch.symm.append_left _).trans ?_
  rw [← List.map_append]
  apply List.Perm.map
  refine List.perm_append_comm.trans ?_
  simpa only [decide_not] using List.filter_append_perm (fun executable =>
    decide (executable.task.taskId ∈ done.map (·.task.taskId))) session.scheduler.live

/-- The completion that is returned leaves the scheduler, and nothing else does. -/
theorem nextCompletion_shrinks {done : List (TaskEvent ν σ)} {event : TaskEvent ν σ}
    {scheduler : TaskScheduler ν σ ι} (scheduling : Scheduling graph limits session)
    (finishes : session.scheduler.finishes done = true)
    (ok : session.scheduler.nextCompletion done = .ok (event, scheduler)) :
    Shrinks session { session with scheduler := scheduler } [event.task.nodeId] := by
  unfold TaskScheduler.nextCompletion at ok
  split at ok
  · rename_i first rest events
    obtain ⟨rfl, rfl⟩ := Prod.mk.inj (Except.ok.inj ok)
    refine ⟨rfl, rfl, rfl, rfl, rfl, rfl, List.Sublist.refl _, ?_, ?_⟩
    · intro other member
      rw [events]
      exact .inl (List.mem_cons_of_mem _ member)
    · rw [List.perm_iff_count]
      intro nodeId
      simp only [inFlight, events, List.map_cons, List.count_append, List.count_cons,
        List.count_nil]
      omega
  · rename_i events
    split at ok
    · cases ok
    · rename_i first rest sorted
      obtain ⟨rfl, rfl⟩ := Prod.mk.inj (Except.ok.inj ok)
      have batch : (first :: rest).Perm done := by
        rw [← sorted]
        exact List.perm_insertionSort _ done
      refine ⟨rfl, rfl, rfl, rfl, rfl, rfl, List.filter_sublist, ?_, ?_⟩
      · intro other member
        obtain ⟨-, -, live⟩ := finishes_iff.mp finishes
        exact .inr (live other (batch.subset (List.mem_cons_of_mem _ member)))
      · have nodes := (live_perm scheduling finishes).map (fun task => task.nodeId)
        have moved := batch.map (fun event => event.task.nodeId)
        rw [List.perm_iff_count] at nodes moved ⊢
        intro nodeId
        have total := nodes nodeId
        have parts := moved nodeId
        simp only [inFlight, events, List.map_append, List.map_map, List.map_cons, List.map_nil,
          List.count_append, List.count_cons, List.count_nil, Function.comp_def] at total parts ⊢
        omega

/-- The rest of the loop body keeps the account. -/
theorem receive_sound {done : List (TaskEvent ν σ)} {event : TaskEvent ν σ}
    {scheduler : TaskScheduler ν σ ι} {outcome : Option (NextOutcome ν σ)}
    (scheduling : Scheduling graph limits session) (accounted : Accounted session)
    (free : session.awaitingAck = none) (finishes : session.scheduler.finishes done = true)
    (ok : session.scheduler.nextCompletion done = .ok (event, scheduler))
    (received : receive { session with scheduler := scheduler } event = (after, outcome)) :
    DrivenSession.Sound graph limits ⟨after, DrivenSession.phaseAfter .looping outcome⟩ := by
  have shrinks := nextCompletion_shrinks scheduling finishes ok
  cases event with
  | raised error =>
      obtain ⟨rfl, rfl⟩ := Prod.mk.inj received
      have recorded : Shrinks session (recordError { session with scheduler := scheduler } error)
          [error.task.nodeId] :=
        ⟨rfl, rfl, rfl, rfl, rfl, shrinks.submitted, shrinks.live, shrinks.events,
          shrinks.inFlight⟩
      refine ⟨scheduling.shrink recorded, ?_, fun _ => free, by simp [DrivenSession.phaseAfter]⟩
      intro active quiet
      cases quiet
  | completed result =>
      unfold receive at received
      dsimp only at received
      split at received
      · obtain ⟨rfl, rfl⟩ := Prod.mk.inj received
        exact ⟨scheduling.shrink shrinks, fun active => absurd rfl (active _),
          by simp [DrivenSession.phaseAfter], by simp [DrivenSession.phaseAfter]⟩
      · rename_i executed projected projects
        obtain ⟨rfl, rfl⟩ := Prod.mk.inj received
        obtain ⟨command, node, rfl⟩ := project_ok projects
        have leaves := shrinks.settle free node
        refine ⟨scheduling.shrink leaves, ?_, by simp [DrivenSession.phaseAfter],
          by simp [DrivenSession.phaseAfter]⟩
        intro active
        exact accounted.shrink leaves (fun quiet => ⟨quiet, rfl, rfl⟩)

end GraphExecutionSession

open GraphExecutionSession in
/-- Every step of a driven session keeps the account. -/
theorem DrivenSession.Sound.step {driven next : DrivenSession τ ν σ ι} {step : SessionStep ν σ}
    {graph : CompiledGraph τ} {limits : ExecutionLimits}
    (sound : DrivenSession.Sound graph limits driven)
    (taken : driven.step step = .ok next) : DrivenSession.Sound graph limits next := by
  obtain ⟨session, phase⟩ := driven
  cases step with
  | next state =>
      cases phase with
      | between =>
          simp only [DrivenSession.step, bind_eq_ok, rethrow_eq_ok, exists_unit, pure_eq_ok,
            Except.ok.injEq] at taken
          obtain ⟨acknowledged, ⟨-, ok⟩, rfl⟩ := taken
          obtain ⟨kept, counted, free⟩ := acknowledge_keeps sound.scheduling
            (sound.accounted (by simp)) ok
          exact ⟨kept, fun _ => counted, fun _ => free, by simp⟩
      | looping => cases taken
      | waiting => cases taken
      | done outcome => cases taken
  | iterate =>
      cases phase with
      | looping =>
          obtain rfl := Except.ok.inj taken
          exact iterate_sound sound.scheduling (sound.accounted (by simp))
            (sound.acknowledged (.inl rfl)) rfl
      | between => cases taken
      | waiting => cases taken
      | done outcome => cases taken
  | finish batch =>
      cases phase with
      | waiting =>
          simp only [DrivenSession.step, bind_eq_ok, exists_unit, raiseIf_eq_ok, rethrow_eq_ok,
            Bool.not_eq_false, pure_eq_ok, Except.ok.injEq, Prod.exists] at taken
          obtain ⟨finishes, event, scheduler, completes, rfl⟩ := taken
          exact receive_sound sound.scheduling (sound.accounted (by simp))
            (sound.acknowledged (.inr rfl)) finishes completes rfl
      | between => cases taken
      | looping => cases taken
      | done outcome => cases taken
  | close =>
      obtain rfl := Except.ok.inj taken
      exact ⟨sound.scheduling.shrink (aclose_shrinks _), fun active => absurd rfl (active _),
        by simp, by simp⟩

/-! ## A new session -/

/-- The compiled plans of a graph are those of its nested nodes; a compiled graph is built so. -/
def CompiledGraph.NestsItsNodes (graph : CompiledGraph τ) : Prop :=
  ∀ nodeId ∈ graph.nodes.keys,
    graph.callable nodeId = false ↔ nodeId ∈ graph.nestedGraphs.map Prod.fst

theorem taskIdentity_inj {runId : GraphRunId} {superstep : Nat} {a b : GraphNodeId}
    (same : taskIdentity runId superstep a = taskIdentity runId superstep b) : a = b := by
  have fields : LengthPrefix.field decimals a.toList ++ [] =
      LengthPrefix.field decimals b.toList ++ [] := by
    have texts := congrArg String.toList same
    simp only [taskIdentity, String.toList_append, List.append_assoc] at texts
    have tails := List.append_cancel_left (List.append_cancel_left (List.append_cancel_left
      (List.append_cancel_left (List.append_cancel_left (List.append_cancel_left texts)))))
    simpa [LengthPrefix.field, decimals, String.length_toList] using tails
  exact String.toList_inj.mp (LengthPrefix.field_append_inj decimals fields).1

/-- The results of the nested nodes are results of some of the tasks. -/
theorem nestedResults_sublist [DecidableEq τ] {typeOf : ν → τ} {graph : CompiledGraph τ}
    {tasks : List GraphTask} {projections : List (ChildProjection ν)}
    {outcomes : List (Option (CompletedTask ν σ))}
    (made : (tasks.zip projections).mapM (fun pair => nestedResult typeOf graph pair.1 pair.2) =
      .ok outcomes) :
    ((outcomes.filterMap id).map CompletedTask.task).Sublist tasks := by
  induction tasks generalizing projections outcomes with
  | nil =>
      obtain rfl : [] = outcomes := by simpa using made
      exact List.Sublist.refl _
  | cons task tasks ih =>
      cases projections with
      | nil =>
          obtain rfl : [] = outcomes := by simpa using made
          exact List.nil_sublist _
      | cons projection projections =>
          simp only [List.zip_cons_cons, List.mapM_cons, bind_eq_ok, pure_eq_ok,
            Except.ok.injEq] at made
          obtain ⟨outcome, given, rest, others, rfl⟩ := made
          cases outcome with
          | none => exact (ih others).cons _
          | some result =>
              have own : result.task = task := nestedResult_task given
              simp only [List.filterMap_cons, id, List.map_cons, own]
              exact (ih others).cons_cons _

theorem prepareNestedResults_tasks [DecidableEq τ] {typeOf : ν → τ} {graph : CompiledGraph τ}
    {state : GraphRunState} {maxSupersteps : Nat} {projections : List (ChildProjection ν)}
    {results : List (CompletedTask ν σ)} {tasks : List GraphTask}
    (planned : planTasks graph state maxSupersteps = .ok tasks)
    (prepared : prepareNestedResults typeOf graph state maxSupersteps projections = .ok results) :
    (results.map CompletedTask.task).Sublist (tasks.filter (fun task =>
      (graph.nestedGraphs.map Prod.fst).contains task.nodeId)) := by
  simp only [prepareNestedResults, planned, bind_eq_ok, exists_unit, pure_eq_ok,
    Except.ok.injEq, exists_eq_left'] at prepared
  obtain ⟨-, outcomes, made, rfl⟩ := prepared
  exact nestedResults_sublist made

/-- Every task gets its own input. -/
theorem executables_tasks {tasks : List GraphTask}
    {materialize : GraphNodeId → Except ExecutionError ι} {executables : List (ExecutableTask ι)}
    (made : tasks.mapM (fun task => (do return (⟨task, ← materialize task.nodeId⟩ : ExecutableTask ι) :
      Except ExecutionError (ExecutableTask ι))) = .ok executables) :
    executables.map (·.task) = tasks := by
  induction tasks generalizing executables with
  | nil =>
      obtain rfl : [] = executables := by simpa using made
      rfl
  | cons task tasks ih =>
      simp only [List.mapM_cons, bind_eq_ok, pure_eq_ok, Except.ok.injEq] at made
      obtain ⟨executable, ⟨input, -, rfl⟩, rest, others, rfl⟩ := made
      rw [List.map_cons, ih others]

section Issued

variable [DecidableEq τ] {typeOf : ν → τ} {graph : CompiledGraph τ} {state confirmed : GraphRunState}
  {scopeRun : ScopeRunCoordinate} {limits : ExecutionLimits} {projections : List (ChildProjection ν)}
  {materialize : GraphNodeId → Except ExecutionError ι} {preparation : FrontierPreparation ν σ ι}
  {attemptId : GraphExecutionAttemptId} {claim : PreparedExecutionClaim ν σ ι}
  {session : GraphExecutionSession τ ν σ ι}

/-- A session that has just been issued has nothing started. -/
theorem issueSession_sound (nests : graph.NestsItsNodes)
    (prepared : prepareFrontier typeOf graph state scopeRun limits projections materialize =
      .ok preparation)
    (claimed : prepareClaim graph preparation attemptId = .ok claim)
    (issued : issueSession graph claim confirmed = .ok session) :
    DrivenSession.Sound graph limits ⟨session, .between⟩ := by
  simp only [prepareFrontier, bind_eq_ok, pure_eq_ok, Except.ok.injEq] at prepared
  obtain ⟨tasks, planned, results, nested, executables, made, rfl⟩ := prepared
  simp only [prepareClaim, bind_eq_ok, pure_eq_ok, Except.ok.injEq] at claimed
  obtain ⟨resources, -, rfl⟩ := claimed
  simp only [issueSession, requireScopedSnapshotMatchesGraph, requireCommittedClaimState,
    bind_eq_ok, exists_unit, rethrow_eq_ok, raiseIf_eq_ok, not_or, ne_eq, not_not, pure_eq_ok,
    Except.ok.injEq] at issued
  obtain ⟨⟨guarded, -, -⟩, ⟨_, reduced, rfl, expected⟩, rfl⟩ := issued
  -- the claim leaves a running frontier with a lease
  obtain ⟨updated, reduces, same⟩ := (reduceGraphRun_some_eq_ok _ _ _).mp reduced
  obtain ⟨claims, rfl⟩ := (claimGraphExecution_eq_ok _ _ _).mp reduces.transition
  have running : confirmed.status = .running := by
    rw [same]
    exact claims.running
  have leased : confirmed.execution ≠ none := by
    rw [same]
    simp
  have valid : ValidRun confirmed := reduced_valid reduced
  have known : ∀ nodeId ∈ pendingNodeIds confirmed.frontier, nodeId ∈ graph.nodes.keys := by
    simp only [requireSnapshotMatchesGraph, bind_eq_ok, exists_unit, raiseIf_eq_ok, ne_eq,
      not_not] at guarded
    obtain ⟨-, -, unknown, -⟩ := guarded
    intro nodeId pending
    obtain ⟨node, inside, -, rfl⟩ := mem_pendingNodeIds.mp pending
    have outside := List.filter_eq_nil_iff.mp unknown node.nodeId (List.mem_map_of_mem inside)
    simpa using outside
  have nodes : tasks.map (·.nodeId) = pendingNodeIds confirmed.frontier := by
    have expected : tasks = _ := expected
    rw [expected, List.map_map]
    exact List.map_id _
  have distinct : (tasks.map (·.nodeId)).Nodup := by
    rw [nodes]
    exact pendingNodeIds_nodup valid.frontier.distinct
  have own := executables_tasks made
  have callables : ∀ executable ∈ executables, executable.task ∈ tasks ∧
      graph.callable executable.task.nodeId = true := by
    intro executable member
    have inside := List.mem_map_of_mem (f := ExecutableTask.task) member
    rw [own] at inside
    exact List.mem_filter.mp inside
  have executableNodes : (executables.map (·.task.nodeId)).Nodup := by
    have map : executables.map (·.task.nodeId) = (executables.map (·.task)).map (·.nodeId) := by
      rw [List.map_map]
      rfl
    rw [map, own]
    exact List.Nodup.sublist (List.filter_sublist.map _) distinct
  have queue := prepareNestedResults_tasks planned nested
  have flight : GraphExecutionSession.inFlight (⟨graph, limits, executables, confirmed,
      results.map (fun result => ⟨result, false⟩), [], {}, none, .opened, none, none⟩ :
      GraphExecutionSession τ ν σ ι) = (results.map CompletedTask.task).map (·.nodeId) := by
    simp [GraphExecutionSession.inFlight, Function.comp_def]
  have nestedNode : ∀ nodeId ∈ (results.map CompletedTask.task).map (·.nodeId),
      nodeId ∈ pendingNodeIds confirmed.frontier ∧ graph.callable nodeId = false := by
    intro nodeId member
    obtain ⟨task, inside, rfl⟩ := List.mem_map.mp member
    obtain ⟨planned, nested⟩ := List.mem_filter.mp (queue.subset inside)
    have pending : task.nodeId ∈ pendingNodeIds confirmed.frontier := by
      rw [← nodes]
      exact List.mem_map_of_mem planned
    refine ⟨pending, (nests _ (known _ pending)).mpr ?_⟩
    simpa using nested
  refine ⟨?_, ?_, by simp, by simp⟩
  · exact {
      graph := rfl
      limits := rfl
      callable := fun executable member => (callables executable member).2
      taskIds := by
        refine List.Nodup.map_on ?_ executableNodes.of_map
        intro a memberA b memberB sameId
        have taskA := (callables a memberA).1
        have taskB := (callables b memberB).1
        have expected : tasks = _ := expected
        rw [expected] at taskA taskB
        obtain ⟨nodeA, -, formA⟩ := List.mem_map.mp taskA
        obtain ⟨nodeB, -, formB⟩ := List.mem_map.mp taskB
        have sameNode : nodeA = nodeB := by
          rw [← formA, ← formB] at sameId
          exact taskIdentity_inj sameId
        apply List.inj_on_of_nodup_map executableNodes memberA memberB
        rw [← formA, ← formB]
        exact sameNode
      nodeIds := executableNodes
      covers := by
        intro nodeId pending callable
        rw [← nodes] at pending
        obtain ⟨task, inside, rfl⟩ := List.mem_map.mp pending
        have kept : task ∈ executables.map (·.task) := by
          rw [own]
          exact List.mem_filter.mpr ⟨inside, callable⟩
        obtain ⟨executable, member, rfl⟩ := List.mem_map.mp kept
        exact List.mem_map_of_mem (f := fun item : ExecutableTask ι => item.task.nodeId) member
      nests := fun nodeId pending callable => (nests nodeId (known nodeId pending)).mp callable
      resources := ResourcesMatch.of_guard guarded running leased
      live := by simp
      events := by simp
      once := by
        rw [flight]
        exact List.Nodup.sublist ((queue.trans List.filter_sublist).map _) distinct
      pending := by
        rw [flight]
        exact fun nodeId member => (nestedNode nodeId member).1
      origin := by
        rw [flight]
        exact fun nodeId member => .inr (nestedNode nodeId member).2
      admitted := by simp
      submitted := rfl
      distinct := List.nodup_nil
      slots := Nat.zero_le _ }
  · intro active quiet
    exact ⟨rfl, by simp⟩

/-- A task as the activation it runs. -/
def GraphTask.activation (task : GraphTask) : GraphActivationIdentity :=
  ⟨task.runId, task.superstep, task.nodeId⟩

/-- Scheduler progress and at-most-once start. At every moment of a driven session, with any
completion order and any limits: while it goes on, has seen no task raise, has no callable node in
flight and one pending, the selection is not empty, and `next` never ends for want of an
executable node; the selected tasks and the live ones have been admitted to their resources at the
same time and share none; the live tasks fit their slots; and no activation is submitted twice. -/
theorem session_progress (nests : graph.NestsItsNodes)
    (prepared : prepareFrontier typeOf graph state scopeRun limits projections materialize =
      .ok preparation)
    (claimed : prepareClaim graph preparation attemptId = .ok claim)
    (issued : issueSession graph claim confirmed = .ok session)
    {driven : DrivenSession τ ν σ ι}
    (run : Trace.Reaches DrivenSession.step ⟨session, .between⟩ driven) :
    ((∀ outcome, driven.phase ≠ .done outcome) → driven.session.error = none →
      (∃ nodeId ∈ pendingNodeIds driven.session.state.frontier, graph.callable nodeId = true) →
      (∀ nodeId ∈ driven.session.inFlight, graph.callable nodeId = false) →
      driven.session.selectedTasks ≠ []) ∧
    driven.phase ≠ .done (some .unschedulable) ∧
    (∀ task ∈ driven.session.selectedTasks ++ driven.session.scheduler.live.map (·.task),
      graph.resourcesOf task.nodeId ≠ [] →
        driven.session.state.Admits task.nodeId (graph.resourcesOf task.nodeId)) ∧
    (driven.session.selectedTasks ++ driven.session.scheduler.live.map (·.task)).Pairwise
      (fun a b => List.Disjoint (graph.resourcesOf a.nodeId) (graph.resourcesOf b.nodeId)) ∧
    driven.session.scheduler.live.length ≤ limits.maxParallelTasks ∧
    (driven.session.scheduler.submitted.map GraphTask.activation).Nodup := by
  have sound : DrivenSession.Sound graph limits driven :=
    Trace.Reaches.preserves (fun _ _ _ taken sound => sound.step taken) run
      (issueSession_sound nests prepared claimed issued)
  have scheduling := sound.scheduling
  obtain rfl := scheduling.graph
  obtain rfl := scheduling.limits
  have admitted : ∀ task ∈ driven.session.selectedTasks ++
      driven.session.scheduler.live.map (·.task),
      driven.session.graph.resourcesOf task.nodeId ≠ [] →
        driven.session.state.Admits task.nodeId
          (driven.session.graph.resourcesOf task.nodeId) := by
    intro task member needs
    rcases List.mem_append.mp member with selected | live
    · exact ResourcesMatch.admits_of_executable
        (GraphExecutionSession.mem_selectedTasks selected).2.2 needs
    · obtain ⟨executable, inside, rfl⟩ := List.mem_map.mp live
      obtain ⟨started, pending⟩ := GraphExecutionSession.live_started scheduling inside
      exact scheduling.admitted _ started pending needs
  have apart : ((driven.session.selectedTasks ++
      driven.session.scheduler.live.map (·.task)).map (·.nodeId)).Nodup := by
    rw [List.map_append, List.map_map]
    refine List.nodup_append.mpr ⟨GraphExecutionSession.selectedTasks_nodup scheduling,
      GraphExecutionSession.live_nodup scheduling, ?_⟩
    intro nodeId selected other live same
    obtain ⟨task, chosen, rfl⟩ := List.mem_map.mp selected
    obtain ⟨executable, inside, rfl⟩ := List.mem_map.mp live
    obtain ⟨-, -, executes⟩ := GraphExecutionSession.mem_selectedTasks chosen
    obtain ⟨unstarted, -, -⟩ := executableTask_iff.mp executes
    apply unstarted
    rw [same]
    exact (GraphExecutionSession.live_started scheduling inside).1
  refine ⟨?_, sound.schedulable, admitted, ?_, scheduling.slots, ?_⟩
  · intro active quiet waits idle
    exact GraphExecutionSession.selectedTasks_ne_nil scheduling (sound.accounted active) quiet
      waits idle
  · refine (List.pairwise_map.mp apart).imp_of_mem ?_
    intro a b memberA memberB different
    by_cases freeA : driven.session.graph.resourcesOf a.nodeId = []
    · rw [freeA]
      exact List.disjoint_nil_left _
    by_cases freeB : driven.session.graph.resourcesOf b.nodeId = []
    · rw [freeB]
      exact List.disjoint_nil_right _
    exact scheduling.resources.admits_disjoint (admitted a memberA freeA)
      (admitted b memberB freeB) different
  · have nodes : (driven.session.scheduler.submitted.map (·.nodeId)).Nodup := by
      rw [scheduling.submitted]
      exact scheduling.distinct
    refine List.Nodup.of_map (fun activation => activation.nodeId) ?_
    rw [List.map_map]
    exact nodes

end Issued

/-! ## Two nodes that share a resource -/

/-- Two callable entries, `a` and `b`, that both use `disk`. -/
def diskGraph : CompiledGraph Unit where
  definitionId := "disk"
  version := 1
  nodes := Dict.build ["a", "b"] (fun nodeId => .callable ⟨nodeId, [], [], ["disk"], []⟩)
  nestedGraphs := []
  graphInputDescriptor := ⟨⟨"disk", 1, .graphInput, 0⟩, []⟩
  graphOutputDescriptor := ⟨⟨"disk", 1, .graphOutput, 0⟩, []⟩
  transition := {
    entries := ["a", "b"]
    directTargets := Dict.build ["a", "b"] (fun _ => [])
    conditionalTargets := Dict.build ["a", "b"] (fun _ => Dict.empty)
    routeOptions := Dict.build ["a", "b"] (fun _ => [none])
    joinsBySource := Dict.build ["a", "b"] (fun _ => [])
    materializations := Dict.build ["a", "b"] (fun _ => default)
    publications := Dict.build ["a", "b"] (fun _ => ⟨⟨"disk", 1, .nodeOutput, 0⟩, []⟩)
    graphOutputs := []
    resourceOrder := ["disk"]
    activationGates := Dict.build ["a", "b"] (fun _ => []) }
  resources := ["disk"]
  resumeInput := none
  completionRoutes := [none]

def diskTask (nodeId : GraphNodeId) : GraphTask :=
  ⟨taskIdentity "run" 0 nodeId, "run", 0, nodeId⟩

def twoSlots : ExecutionLimits := ⟨1000, 2, by decide, by decide⟩

/-- What the claim of both nodes acquires: `a` has the disk and `b` waits for it. -/
def diskSnapshot : ResourceSnapshot :=
  ⟨[⟨"disk", some "a", ["b"]⟩], [⟨"a", ["disk"], ["disk"], none⟩, ⟨"b", ["disk"], [], some "disk"⟩]⟩

/-- Start, claim, and the success of `a`. -/
def diskCommands : List GraphRunCommand :=
  [.start ⟨"run", "disk", 1, [⟨"a", .start⟩, ⟨"b", .start⟩], none, none, none, none⟩,
    .claim ⟨0, "attempt", some diskSnapshot⟩,
    .settle ⟨1, ⟨1, "attempt"⟩, .succeeded "a" .continueGraphRouting, none, none⟩]

/-- The state a number of these commands leads to. -/
def diskState (commands : Nat) : GraphRunState :=
  (((diskCommands.take commands).foldl
    (fun state command => (reduceGraphRun state command).toOption) none)).getD
    (startedState ⟨"run", "disk", 1, [], none, none, none, none⟩)

def diskClaim : PreparedExecutionClaim Unit Unit Unit :=
  ⟨⟨0, "attempt", some diskSnapshot⟩, ⟨diskState 1, ⟨[], "run"⟩, twoSlots,
    [diskTask "a", diskTask "b"], [⟨diskTask "a", ()⟩, ⟨diskTask "b", ()⟩], []⟩⟩

def diskSession : GraphExecutionSession Unit Unit Unit Unit where
  graph := diskGraph
  limits := twoSlots
  executables := [⟨diskTask "a", ()⟩, ⟨diskTask "b", ()⟩]
  state := diskState 2
  queuedResults := []

/-- The session starts `a`, which succeeds, and its settlement is confirmed. -/
def diskSteps : List (SessionStep Unit Unit) :=
  [.next (diskState 2), .iterate,
    .finish [.completed (.success (diskTask "a") ⟨[], none⟩ none none)], .next (diskState 3)]

set_option maxRecDepth 4000 in
/-- Once `a` has settled, `b` can be selected. -/
theorem settled_a_selects_b :
    (Trace.outcome DrivenSession.step ⟨diskSession, .between⟩ diskSteps).session.selectedTasks ≠
      [] := by
  have nests : diskGraph.NestsItsNodes := by
    unfold CompiledGraph.NestsItsNodes
    decide
  have prepared : prepareFrontier (fun _ : Unit => ()) diskGraph (diskState 1) ⟨[], "run"⟩ twoSlots []
      (fun _ => .ok ()) = .ok diskClaim.preparation := rfl
  have claimed : prepareClaim diskGraph diskClaim.preparation "attempt" = .ok diskClaim := rfl
  have issued : issueSession diskGraph diskClaim (diskState 2) = .ok diskSession := rfl
  have looping : (Trace.outcome DrivenSession.step ⟨diskSession, .between⟩ diskSteps).phase =
      .looping := rfl
  refine (session_progress nests prepared claimed issued
    (Trace.mem_visited (Trace.outcome_mem_visited _ diskSteps))).1 ?_ rfl ?_ ?_
  · intro outcome
    rw [looping]
    simp
  · exact ⟨"b", by decide +kernel, by decide +kernel⟩
  · decide +kernel

end MoteKernel
