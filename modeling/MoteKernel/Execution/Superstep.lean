import MoteKernel.Execution.PlannedRuns
import MoteKernel.Execution.NestedSettlement

/-!
# Preparing one superstep

`prepare_superstep`: what the driver does next with the state of a scope. Every state of a run
whose claims are planned has a next step, unless a lease is open.
-/

namespace MoteKernel
open Checked

variable {τ ν σ ι : Type}

/-! ## The model -/

/-- The order key of the parents of children. -/
def GraphActivationIdentity.orderKey (activation : GraphActivationIdentity) :
    String ×ₗ Nat ×ₗ String :=
  toLex (activation.runId, toLex (activation.superstep, activation.nodeId))

/-- `WaitingForChildren`, with the parents of its projections. -/
structure WaitingForChildren where
  missing : List GraphActivationIdentity
  active : List GraphActivationIdentity
  deriving DecidableEq, Repr

/-- `sorted(parents)` under the order key. -/
def sortedParents (parents : List GraphActivationIdentity) : List GraphActivationIdentity :=
  parents.insertionSort (fun a b => a.orderKey ≤ b.orderKey)

/-- `WaitingForChildren.__post_init__`. -/
def WaitingForChildren.postInit (children : WaitingForChildren) : Except ExecutionError Unit :=
  raiseIf (children.missing ++ children.active = [] ∨
      ¬ (children.missing ++ children.active).Nodup ∨
      children.missing ≠ sortedParents children.missing ∨
      children.active ≠ sortedParents children.active)
    ⟨.value, "children to drive must be non-empty, distinct, and canonical"⟩

def ChildProjection.isMissing : ChildProjection ν → Bool
  | .missing _ => true
  | _ => false

def ChildProjection.isActive : ChildProjection ν → Bool
  | .active _ => true
  | _ => false

/-- The parents `prepare_frontier` collects of its missing and of its active projections. -/
def childrenToDrive (projections : List (ChildProjection ν)) : WaitingForChildren :=
  ⟨(projections.filter (·.isMissing)).map (·.parent),
    (projections.filter (·.isActive)).map (·.parent)⟩

/-- The children `prepare_superstep` waits for, if there are any. -/
def waitingChildren (projections : List (ChildProjection ν)) :
    Except ExecutionError (Option WaitingForChildren) :=
  let children := childrenToDrive projections
  if children.missing ≠ [] ∨ children.active ≠ [] then do
    children.postInit
    return some children
  else return none

/-- `PrepareDisposition`. -/
inductive PrepareDisposition (ν σ ι : Type) where
  | executableFrontier (claim : PreparedExecutionClaim ν σ ι) (children : Option WaitingForChildren)
  | waitingForChildren (children : WaitingForChildren)
  | readyToResolve (command : ResolutionCommand)
  | awaitingResume (interruptedNodeIds : List GraphNodeId)
  | completedGraph
  | failedGraph
  | abortedGraph

section Superstep

variable [DecidableEq τ] (typeOf : ν → τ) (graph : CompiledGraph τ) (state : GraphRunState)
  (scopeRun : ScopeRunCoordinate) (limits : ExecutionLimits)
  (projections : List (ChildProjection ν)) (materialize : GraphNodeId → Except ExecutionError ι)
  (attemptId : GraphExecutionAttemptId)

/-- The end of `prepare_superstep`, for an executable frontier. -/
def prepareExecutable : Except ExecutionError (PrepareDisposition ν σ ι) := do
  raiseIf (state.execution ≠ none)
    ⟨.resultCollection, "active execution requires its original execution session"⟩
  let frontier ← prepareFrontier typeOf graph state scopeRun limits projections materialize
  let children ← waitingChildren projections
  match children with
  | some waiting =>
      if frontier.executables.isEmpty ∧ frontier.nestedResults.isEmpty then
        return .waitingForChildren waiting
      else do
        let claim ← prepareClaim graph frontier attemptId
        return .executableFrontier claim (some waiting)
  | none => do
      let claim ← prepareClaim graph frontier attemptId
      return .executableFrontier claim none

/-- `prepare_superstep`; the parts of its request are the arguments of `prepareFrontier`. -/
def prepareSuperstep (frames : ScopedFrameAvailability) :
    Except ExecutionError (PrepareDisposition ν σ ι) := do
  requireScopedSnapshotMatchesGraph graph state scopeRun
  match state.status with
  | .completed => return .completedGraph
  | .failed => return .failedGraph
  | .aborted => return .abortedGraph
  | .running =>
      match frontierStatus state.frontier with
      | none => throw ⟨.value, "a graph frontier has no valid derived status"⟩
      | some .settled => do
          let command ← resolveRouting graph state scopeRun frames
          return .readyToResolve command
      | some .awaitingResume => return .awaitingResume (interruptedNodeIds state.frontier)
      | some .executable =>
          prepareExecutable typeOf graph state scopeRun limits projections materialize attemptId
      | some .failed =>
          prepareExecutable typeOf graph state scopeRun limits projections materialize attemptId

end Superstep

/-! ## What the driver hands over -/

/-- The scope, the frames, the children and the limit of a scope that the driver has brought to
`state`. -/
structure Drivable [DecidableEq τ] (typeOf : ν → τ) (graph : CompiledGraph τ)
    (state : GraphRunState) (scopeRun : ScopeRunCoordinate) (limits : ExecutionLimits)
    (projections : List (ChildProjection ν)) (materialize : GraphNodeId → Except ExecutionError ι)
    (frames : ScopedFrameAvailability) : Prop where
  run : state.runId = scopeRun.graphRunId
  parent : state.parent.map (·.nodeId) = scopeRun.scope.getLast?
  values : frontierStatus state.frontier = some .settled →
    HoldsValues graph state scopeRun frames (state.superstep + 1)
  below : state.superstep < limits.maxSupersteps
  covers : projections.map (·.parent) = ((pendingNodeIds state.frontier).filter
    (fun nodeId => (graph.nestedGraphs.map Prod.fst).contains nodeId)).map
      (fun nodeId => ⟨state.runId, state.superstep, nodeId⟩)
  converts : ∀ parent output route, ChildProjection.completed parent output route ∈ projections →
    ∃ frame, nodeOutputFromView typeOf output
      (graph.transition.publications.getItem parent.nodeId).declarations = .ok frame
  materializes : ∀ nodeId ∈ pendingNodeIds state.frontier, graph.callable nodeId = true →
    ∃ input, materialize nodeId = .ok input

/-- The child has settled its own run. -/
def ChildProjection.hasEnded (projection : ChildProjection ν) : Bool :=
  !projection.isMissing && !projection.isActive

/-- A running state with pending nodes and no open lease. -/
structure AsksExecution (state : GraphRunState) : Prop where
  running : state.status = .running
  unleased : state.execution = none
  executable : frontierStatus state.frontier = some .executable

/-- No pending node is callable and no child has ended: only the children can go on. -/
def Idle (graph : CompiledGraph τ) (state : GraphRunState)
    (projections : List (ChildProjection ν)) : Prop :=
  (∀ nodeId ∈ pendingNodeIds state.frontier, graph.callable nodeId = false) ∧
    ∀ projection ∈ projections, projection.hasEnded = false

/-- The children are the missing and the active ones, and there are none when there is neither. -/
def DrivesChildren (projections : List (ChildProjection ν)) (children : Option WaitingForChildren) :
    Prop :=
  (children = none ↔ ∀ projection ∈ projections, projection.hasEnded = true) ∧
    ∀ waiting ∈ children, waiting = childrenToDrive projections

/-- The preparation has a task for each pending node, the callable ones with their inputs, and the
result of each child that has ended. -/
structure PreparesFrontier [DecidableEq τ] (typeOf : ν → τ) (graph : CompiledGraph τ)
    (state : GraphRunState) (projections : List (ChildProjection ν))
    (materialize : GraphNodeId → Except ExecutionError ι)
    (preparation : FrontierPreparation ν σ ι) : Prop where
  own : preparation.state = state
  tasks : preparation.tasks.map (·.nodeId) = pendingNodeIds state.frontier
  callables : preparation.executables.map (·.task.nodeId) =
    (pendingNodeIds state.frontier).filter graph.callable
  inputs : ∀ executable ∈ preparation.executables,
    materialize executable.task.nodeId = .ok executable.effectiveInput
  results : List.Forall₂ (fun projection result =>
      result.task.nodeId = projection.parent.nodeId ∧
        nestedResult typeOf graph result.task projection = .ok (some result))
    (projections.filter (·.hasEnded)) preparation.nestedResults

/-- The disposition is the one the state and its children ask for, and a command it carries is
committed. -/
def PrepareDisposition.Fits [DecidableEq τ] (typeOf : ν → τ) (graph : CompiledGraph τ)
    (state : GraphRunState) (scopeRun : ScopeRunCoordinate) (projections : List (ChildProjection ν))
    (materialize : GraphNodeId → Except ExecutionError ι) (frames : ScopedFrameAvailability) :
    PrepareDisposition ν σ ι → Prop
  | .executableFrontier claim children => AsksExecution state ∧
      DrivesChildren projections children ∧ (children ≠ none → ¬ Idle graph state projections) ∧
      PreparesFrontier typeOf graph state projections materialize claim.preparation ∧
      ∃ next, Commits graph (some state) (.claim claim.command) next ∧ PlannedRun graph next ∧
        next.frontier = state.frontier
  | .waitingForChildren children => AsksExecution state ∧ Idle graph state projections ∧
      DrivesChildren projections (some children)
  | .readyToResolve command => state.status = .running ∧
      frontierStatus state.frontier = some .settled ∧
      resolveRouting graph state scopeRun frames = .ok command ∧
      ∃ next, Commits graph (some state) command.toCommand next ∧ PlannedRun graph next
  | .awaitingResume nodeIds => state.status = .running ∧
      frontierStatus state.frontier = some .awaitingResume ∧
      nodeIds = interruptedNodeIds state.frontier ∧ nodeIds ≠ []
  | .completedGraph => state.status = .completed
  | .failedGraph => state.status = .failed
  | .abortedGraph => state.status = .aborted

/-! ## Children -/

theorem strict_sorted {parents : List GraphActivationIdentity}
    (ordered : parents.Pairwise (fun a b => a.orderKey < b.orderKey)) :
    sortedParents parents = parents :=
  (ordered.imp le_of_lt).insertionSort_eq

/-- The projections of the pending children stand in the order of their parents. -/
theorem pendingParents_ordered {state : GraphRunState} (valid : ValidRun state)
    {nested : GraphNodeId → Bool} :
    (((pendingNodeIds state.frontier).filter nested).map (fun nodeId =>
      (⟨state.runId, state.superstep, nodeId⟩ : GraphActivationIdentity))).Pairwise
        (fun a b => a.orderKey < b.orderKey) := by
  have sublist : ((pendingNodeIds state.frontier).filter nested).Sublist
      (state.frontier.nodes.map (·.nodeId)) :=
    List.filter_sublist.trans (List.filter_sublist.map _)
  refine List.pairwise_map.mpr ((valid.frontier.ordered.sublist sublist).imp ?_)
  intro a b less
  simp only [GraphActivationIdentity.orderKey, Prod.Lex.toLex_lt_toLex, lt_self_iff_false,
    false_or, true_and]
  exact less

theorem isActive_of_isMissing {projection : ChildProjection ν}
    (missing : projection.isMissing = true) : projection.isActive = false := by
  cases projection with
  | missing parent => rfl
  | active parent => cases missing
  | completed parent output route => cases missing
  | failed parent reason => cases missing
  | aborted parent reason => cases missing

theorem hasEnded_eq_false {projection : ChildProjection ν} : projection.hasEnded = false ↔
    projection.isMissing = true ∨ projection.isActive = true := by
  cases projection <;> simp [ChildProjection.hasEnded, ChildProjection.isMissing,
    ChildProjection.isActive]

/-- There is a child to drive unless every child has ended. -/
theorem childrenToDrive_eq_nil {projections : List (ChildProjection ν)} :
    (childrenToDrive projections).missing = [] ∧ (childrenToDrive projections).active = [] ↔
      ∀ projection ∈ projections, projection.hasEnded = true := by
  simp only [childrenToDrive, List.map_eq_nil_iff, List.filter_eq_nil_iff]
  constructor
  · rintro ⟨missing, active⟩ projection member
    by_contra waits
    rcases hasEnded_eq_false.mp (Bool.eq_false_of_not_eq_true waits) with here | here
    · exact missing projection member here
    · exact active projection member here
  · intro ended
    constructor
    · intro projection member here
      exact absurd (ended projection member) (by simp [hasEnded_eq_false.mpr (.inl here)])
    · intro projection member here
      exact absurd (ended projection member) (by simp [hasEnded_eq_false.mpr (.inr here)])

/-- Children under distinct, ordered parents are never refused. -/
theorem waitingChildren_ok {projections : List (ChildProjection ν)}
    (ordered : (projections.map (·.parent)).Pairwise (fun a b => a.orderKey < b.orderKey)) :
    ∃ children, waitingChildren projections = .ok children ∧
      DrivesChildren projections children := by
  have distinct : (projections.map (·.parent)).Nodup := ordered.imp (by
    intro a b less same
    rw [same] at less
    exact lt_irrefl _ less)
  have missing := ordered.sublist
    ((List.filter_sublist (p := fun p : ChildProjection ν => p.isMissing)).map (·.parent))
  have active := ordered.sublist
    ((List.filter_sublist (p := fun p : ChildProjection ν => p.isActive)).map (·.parent))
  unfold waitingChildren
  dsimp only
  split
  · rename_i some
    have apart : ((childrenToDrive projections).missing ++
        (childrenToDrive projections).active).Nodup := by
      refine List.nodup_append.mpr ⟨(List.filter_sublist.map _).nodup distinct,
        (List.filter_sublist.map _).nodup distinct, ?_⟩
      intro parent here other there same
      obtain ⟨projection, inside, rfl⟩ := List.mem_map.mp here
      obtain ⟨second, listed, rfl⟩ := List.mem_map.mp there
      obtain ⟨member, isMissing⟩ := List.mem_filter.mp inside
      obtain ⟨also, isActive⟩ := List.mem_filter.mp listed
      obtain rfl := List.inj_on_of_nodup_map distinct member also same
      rw [isActive_of_isMissing isMissing] at isActive
      cases isActive
    have checked : (childrenToDrive projections).postInit = .ok () := by
      simp only [WaitingForChildren.postInit, raiseIf_eq_ok, not_or, not_not, ne_eq,
        List.append_eq_nil_iff]
      exact ⟨not_and_or.mpr some, apart, (strict_sorted missing).symm, (strict_sorted active).symm⟩
    rw [checked]
    refine ⟨_, rfl, iff_of_false (by simp) ?_, fun waiting same => (Option.some.inj same).symm⟩
    rw [← childrenToDrive_eq_nil]
    exact not_and_or.mpr some
  · rename_i none
    refine ⟨_, rfl, iff_of_true rfl ?_, by simp⟩
    rw [← childrenToDrive_eq_nil]
    exact not_or.mp none |>.imp not_not.mp not_not.mp

/-! ## Results of ended children -/

theorem nestedResult_isSome [DecidableEq τ] {typeOf : ν → τ} {graph : CompiledGraph τ}
    {task : GraphTask} {projection : ChildProjection ν} {result : Option (CompletedTask ν σ)}
    (given : nestedResult typeOf graph task projection = .ok result) :
    result.isSome = projection.hasEnded := by
  cases projection with
  | missing parent => cases given; rfl
  | active parent => cases given; rfl
  | completed parent output route =>
      simp only [nestedResult, bind_eq_ok, pure_eq_ok, Except.ok.injEq] at given
      obtain ⟨frame, -, rfl⟩ := given
      rfl
  | failed parent reason => cases given; rfl
  | aborted parent reason => cases given; rfl

/-- The results of a frontier's children are those of the children that have ended. -/
theorem endedResults [DecidableEq τ] {typeOf : ν → τ} {graph : CompiledGraph τ}
    {pairs : List (GraphTask × ChildProjection ν)} {results : List (Option (CompletedTask ν σ))}
    (converted : pairs.mapM (fun pair => nestedResult typeOf graph pair.1 pair.2) = .ok results)
    (own : ∀ pair ∈ pairs, pair.2.parent.nodeId = pair.1.nodeId) :
    List.Forall₂ (fun projection result => result.task.nodeId = projection.parent.nodeId ∧
        nestedResult typeOf graph result.task projection = .ok (some result))
      ((pairs.map Prod.snd).filter (·.hasEnded)) (results.filterMap id) := by
  rw [mapM_eq_ok] at converted
  induction converted with
  | nil => exact .nil
  | @cons pair result pairs results here _ ih =>
      have rest := ih (fun pair member => own pair (List.mem_cons_of_mem _ member))
      have ended := nestedResult_isSome here
      cases result with
      | none =>
          rw [List.map_cons, List.filter_cons_of_neg (by rw [← ended]; exact Bool.false_ne_true)]
          exact rest
      | some result =>
          have task : result.task = pair.1 := nestedResult_task here
          rw [List.map_cons, List.filter_cons_of_pos (by rw [← ended]; rfl)]
          refine .cons ⟨?_, ?_⟩ rest
          · rw [task]
            exact (own pair List.mem_cons_self).symm
          · rw [task]
            exact here

/-- Each executable has the task it was made for and the input of its node. -/
theorem executables_given {materialize : GraphNodeId → Except ExecutionError ι}
    {tasks : List GraphTask} {executables : List (ExecutableTask ι)}
    (made : tasks.mapM (fun task =>
      (do return (⟨task, ← materialize task.nodeId⟩ : ExecutableTask ι) :
        Except ExecutionError (ExecutableTask ι))) = .ok executables) :
    executables.map (·.task) = tasks ∧ ∀ executable ∈ executables,
      materialize executable.task.nodeId = .ok executable.effectiveInput := by
  rw [mapM_eq_ok] at made
  induction made with
  | nil => exact ⟨rfl, by simp⟩
  | cons here _ ih =>
      simp only [bind_eq_ok, pure_eq_ok, Except.ok.injEq] at here
      obtain ⟨input, given, rfl⟩ := here
      exact ⟨congrArg _ ih.1, List.forall_mem_cons.mpr ⟨given, ih.2⟩⟩

/-! ## Dispositions -/

theorem frontierStatus_ne_none {frontier : GraphFrontierState} (nonempty : frontier.nodes ≠ []) :
    frontierStatus frontier ≠ none := by
  unfold frontierStatus
  dsimp only
  split_ifs with pending failed interrupted settled
  · simp
  · simp
  · simp
  · simp
  · exfalso
    refine settled ⟨by simpa using nonempty, List.all_eq_true.mpr ?_⟩
    intro settlement member
    have none (test : GraphNodeSettlement → Bool)
        (free : ¬ (frontier.nodes.map (·.settlement)).any test = true) : test settlement ≠ true :=
      fun holds => free (List.any_eq_true.mpr ⟨settlement, member, holds⟩)
    cases settlement with
    | pending input => exact absurd rfl (none _ pending)
    | succeeded routing => rfl
    | failed failure => exact absurd rfl (none _ failed)
    | interrupted interrupt => exact absurd rfl (none _ interrupted)

theorem interruptedNodeIds_ne_nil {frontier : GraphFrontierState}
    (awaiting : frontierStatus frontier = some .awaitingResume) :
    interruptedNodeIds frontier ≠ [] := by
  unfold frontierStatus at awaiting
  dsimp only at awaiting
  split_ifs at awaiting with pending failed interrupted settled
  · cases awaiting
  · cases awaiting
  · obtain ⟨settlement, member, holds⟩ := List.any_eq_true.mp interrupted
    obtain ⟨node, inside, rfl⟩ := List.mem_map.mp member
    exact List.ne_nil_of_mem (List.mem_map_of_mem (List.mem_filter.mpr ⟨inside, holds⟩))
  · cases awaiting

section Drivable

variable [DecidableEq τ] {typeOf : ν → τ} {graph : CompiledGraph τ} {state : GraphRunState}
  {scopeRun : ScopeRunCoordinate} {limits : ExecutionLimits}
  {projections : List (ChildProjection ν)} {materialize : GraphNodeId → Except ExecutionError ι}
  {frames : ScopedFrameAvailability}
  (drivable : Drivable typeOf graph state scopeRun limits projections materialize frames)
include drivable

theorem Drivable.placed (guarded : requireSnapshotMatchesGraph graph state = .ok ()) :
    requireScopedSnapshotMatchesGraph graph state scopeRun = .ok () := by
  have parent := drivable.parent
  simp only [requireScopedSnapshotMatchesGraph, guarded, ok_bind, bind_unit_eq_ok, raiseIf_eq_ok,
    drivable.run, ne_eq, not_true_eq_false, not_false_eq_true, true_and]
  cases last : scopeRun.scope.getLast? with
  | none =>
      rw [last] at parent
      simpa using parent
  | some nodeId =>
      rw [last] at parent
      simpa using parent

/-- The tasks of the nested nodes stand under the parents of the projections. -/
theorem Drivable.parents {tasks : List GraphTask} (mapped : tasks =
      (pendingNodeIds state.frontier).map fun nodeId =>
        ⟨taskIdentity state.runId state.superstep nodeId, state.runId, state.superstep, nodeId⟩) :
    projections.map ChildProjection.parent =
      (tasks.filter (fun task => (graph.nestedGraphs.map Prod.fst).contains task.nodeId)).map
        (fun task => ⟨task.runId, task.superstep, task.nodeId⟩) := by
  rw [drivable.covers, mapped, List.filter_map, List.map_map]
  rfl

/-- A child of a task is settled, or left to run. -/
theorem Drivable.nestedResult_ok {task : GraphTask} {projection : ChildProjection ν}
    (listed : projection ∈ projections)
    (own : projection.parent = ⟨task.runId, task.superstep, task.nodeId⟩) :
    ∃ result, (nestedResult typeOf graph task projection :
      Except ExecutionError (Option (CompletedTask ν σ))) = .ok result := by
  cases projection with
  | missing parent => exact ⟨none, rfl⟩
  | active parent => exact ⟨none, rfl⟩
  | completed parent output route =>
      obtain ⟨frame, converted⟩ := drivable.converts parent output route listed
      have same : parent.nodeId = task.nodeId := congrArg GraphActivationIdentity.nodeId own
      rw [same] at converted
      refine ⟨some (.success task frame route none), ?_⟩
      rw [nestedResult, converted]
      rfl
  | failed parent reason => exact ⟨_, rfl⟩
  | aborted parent reason => exact ⟨_, rfl⟩

/-- The callable pending nodes have their inputs. -/
theorem Drivable.executables_ok {tasks : List GraphTask}
    (nodeIds : tasks.map (·.nodeId) = pendingNodeIds state.frontier) :
    ∃ executables, (tasks.filter (fun task => graph.callable task.nodeId)).mapM
      (fun task => (do return (⟨task, ← materialize task.nodeId⟩ : ExecutableTask ι) :
        Except ExecutionError (ExecutableTask ι))) = .ok executables := by
  refine mapM_eq_ok_of_forall ?_
  intro task member
  obtain ⟨listed, callable⟩ := List.mem_filter.mp member
  have pending : task.nodeId ∈ pendingNodeIds state.frontier := by
    rw [← nodeIds]
    exact List.mem_map_of_mem listed
  obtain ⟨input, made⟩ := drivable.materializes task.nodeId pending callable
  refine ⟨⟨task, input⟩, ?_⟩
  rw [made]
  rfl

/-- The frontier of a running state can be prepared. -/
theorem Drivable.prepares (running : state.status = .running) {tasks : List GraphTask}
    (planned : planTasks graph state limits.maxSupersteps = .ok tasks) :
    ∃ preparation : FrontierPreparation ν σ ι,
      prepareFrontier typeOf graph state scopeRun limits projections materialize = .ok preparation ∧
        preparation.tasks = tasks ∧
        PreparesFrontier typeOf graph state projections materialize preparation := by
  have mapped : tasks = (pendingNodeIds state.frontier).map fun nodeId =>
      ⟨taskIdentity state.runId state.superstep nodeId, state.runId, state.superstep, nodeId⟩ := by
    simp only [planTasks, running, bind_unit_eq_ok, ne_eq, not_true_eq_false, if_false, pure_eq_ok,
      Except.ok.injEq] at planned
    exact planned.2.2.symm
  have nodeIds := planTasks_nodeIds running planned
  have parents := drivable.parents mapped
  have nested : ∃ results, ((tasks.filter (fun task =>
      (graph.nestedGraphs.map Prod.fst).contains task.nodeId)).zip projections).mapM
        (fun pair => (nestedResult typeOf graph pair.1 pair.2 :
          Except ExecutionError (Option (CompletedTask ν σ)))) = .ok results :=
    mapM_eq_ok_of_forall (fun pair member =>
      drivable.nestedResult_ok (List.of_mem_zip member).2 (mem_zip_same parents member))
  obtain ⟨results, converted⟩ := nested
  obtain ⟨executables, made⟩ := drivable.executables_ok nodeIds
  have prepared : (prepareNestedResults typeOf graph state limits.maxSupersteps projections :
      Except ExecutionError (List (CompletedTask ν σ))) = .ok (results.filterMap id) := by
    simp only [prepareNestedResults, planned, ok_bind, parents, raiseIf, ne_eq, not_true_eq_false,
      if_false, converted]
    rfl
  refine ⟨⟨state, scopeRun, limits, tasks, executables, results.filterMap id⟩, ?_, rfl, ?_⟩
  · simp only [prepareFrontier, planned, prepared, ok_bind, made]
    rfl
  obtain ⟨callables, given⟩ := executables_given made
  refine ⟨rfl, nodeIds, ?_, given, ?_⟩
  · rw [← nodeIds, List.filter_map]
    exact (List.map_map.symm.trans (congrArg _ callables))
  · have all := endedResults converted (fun pair member =>
      congrArg GraphActivationIdentity.nodeId (mem_zip_same parents member))
    have lengths := congrArg List.length parents
    rw [List.length_map, List.length_map] at lengths
    rw [List.map_snd_zip lengths.le] at all
    exact all

end Drivable

/-- A preparation has nothing to do or to settle where only the children can go on. -/
theorem PreparesFrontier.idle [DecidableEq τ] {typeOf : ν → τ} {graph : CompiledGraph τ}
    {state : GraphRunState} {projections : List (ChildProjection ν)}
    {materialize : GraphNodeId → Except ExecutionError ι} {preparation : FrontierPreparation ν σ ι}
    (prepares : PreparesFrontier typeOf graph state projections materialize preparation) :
    preparation.executables.isEmpty = true ∧ preparation.nestedResults.isEmpty = true ↔
      Idle graph state projections := by
  have callables := congrArg List.length prepares.callables
  have results := prepares.results.length_eq
  rw [List.length_map] at callables
  simp only [List.isEmpty_iff, ← List.length_eq_zero_iff, callables, ← results]
  simp only [List.length_eq_zero_iff, List.filter_eq_nil_iff, Bool.not_eq_true, Idle]

section Total

variable [DecidableEq τ] {definition : GraphDefinition τ}
  {nestedGraphs : Dict GraphNodeId (CompiledGraph τ)} {graph : CompiledGraph τ}
  (compiles : Compiles definition nestedGraphs graph) {state : GraphRunState}
  {typeOf : ν → τ} {scopeRun : ScopeRunCoordinate} {limits : ExecutionLimits}
  {projections : List (ChildProjection ν)} {materialize : GraphNodeId → Except ExecutionError ι}
  {frames : ScopedFrameAvailability} {attemptId : GraphExecutionAttemptId}
include compiles

theorem PlannedRun.valid (run : PlannedRun graph state) : ValidRun state := by
  obtain ⟨entries, routes, dataDependencies, plan, planned, values⟩ := compiles.planned_values
  obtain ⟨requirements, guarantees, accepted⟩ := compiles.accepted_plan planned
  exact (accepted.invariant run.engine).valid

/-- An executable frontier without a lease is claimed, or waits for its children. -/
theorem PlannedRun.executable_fits (run : PlannedRun graph state)
    (drivable : Drivable typeOf graph state scopeRun limits projections materialize frames)
    (canonical : isCanonicalIdentity attemptId = true) (running : state.status = .running)
    (unleased : state.execution = none)
    (executable : frontierStatus state.frontier = some .executable) :
    ∃ disposition : PrepareDisposition ν σ ι,
      prepareExecutable typeOf graph state scopeRun limits projections materialize attemptId =
        .ok disposition ∧
          disposition.Fits typeOf graph state scopeRun projections materialize frames := by
  have pending := pendingNodeIds_ne_nil.mpr executable
  obtain ⟨tasks, planned⟩ := planTasks_ok (run.guarded compiles) running drivable.below
  obtain ⟨preparation, prepared, listed, prepares⟩ := drivable.prepares (σ := σ) running planned
  obtain ⟨resources, next, claimed, commits, goes, frontier, -⟩ :=
    run.claim_commits compiles running unleased pending canonical planned
  have ordered : (projections.map (·.parent)).Pairwise (fun a b => a.orderKey < b.orderKey) := by
    rw [drivable.covers]
    exact pendingParents_ordered (run.valid compiles)
  obtain ⟨children, waits, drives⟩ := waitingChildren_ok ordered
  have asks : AsksExecution state := ⟨running, unleased, executable⟩
  have claims : prepareClaim graph preparation attemptId =
      .ok ⟨⟨state.revision, attemptId, resources⟩, preparation⟩ := by
    rw [prepareClaim, listed, claimed, prepares.own]
    rfl
  simp only [prepareExecutable, unleased, raiseIf, ne_eq, not_true_eq_false, if_false, ok_bind,
    prepared, waits]
  cases children with
  | none =>
      simp only [claims, ok_bind]
      exact ⟨_, rfl, asks, drives, fun some => absurd rfl some, prepares, next, commits, goes,
        frontier⟩
  | some waiting =>
      dsimp only
      split
      · rename_i empty
        exact ⟨_, rfl, asks, prepares.idle.mp empty, drives⟩
      · rename_i busy
        simp only [claims, ok_bind]
        exact ⟨_, rfl, asks, drives, fun _ idle => busy (prepares.idle.mpr idle), prepares, next,
          commits, goes, frontier⟩

/-- A state without a lease has a disposition. -/
theorem PlannedRun.superstep_fits (run : PlannedRun graph state)
    (drivable : Drivable typeOf graph state scopeRun limits projections materialize frames)
    (canonical : isCanonicalIdentity attemptId = true) (unleased : state.execution = none) :
    ∃ disposition : PrepareDisposition ν σ ι,
      prepareSuperstep typeOf graph state scopeRun limits projections materialize attemptId frames =
        .ok disposition ∧
          disposition.Fits typeOf graph state scopeRun projections materialize frames := by
  have placed := drivable.placed (run.guarded compiles)
  have valid := run.valid compiles
  have status := valid.status
  cases ended : state.status with
  | completed => exact ⟨.completedGraph, by rw [prepareSuperstep, placed, ended]; rfl, ended⟩
  | failed => exact ⟨.failedGraph, by rw [prepareSuperstep, placed, ended]; rfl, ended⟩
  | aborted => exact ⟨.abortedGraph, by rw [prepareSuperstep, placed, ended]; rfl, ended⟩
  | running =>
      rw [ValidStatus, ended] at status
      obtain ⟨nonempty, unfailed, -⟩ := status
      cases derived : frontierStatus state.frontier with
      | none => exact absurd derived (frontierStatus_ne_none nonempty)
      | some disposition =>
          cases disposition with
          | failed => exact absurd derived unfailed
          | settled =>
              obtain ⟨command, next, resolved, commits, -⟩ :=
                compiles.routing_commits run.engine ended derived (drivable.values derived)
              refine ⟨.readyToResolve command, ?_, ended, derived, resolved, next, commits,
                run.commit ?_ commits⟩
              · simp only [prepareSuperstep, placed, ok_bind, ended, derived, resolved]
                rfl
              · intro claim same
                cases command with
                | advance advance => cases same
                | complete complete => cases same
                | abort abort => cases same
          | awaitingResume =>
              refine ⟨.awaitingResume (interruptedNodeIds state.frontier), ?_, ended, derived, rfl,
                interruptedNodeIds_ne_nil derived⟩
              simp only [prepareSuperstep, placed, ok_bind, ended, derived]
              rfl
          | executable =>
              obtain ⟨disposition, prepared, fits⟩ :=
                run.executable_fits compiles drivable canonical ended unleased derived
              refine ⟨disposition, ?_, fits⟩
              simp only [prepareSuperstep, placed, ok_bind, ended, derived, prepared]

/-- An open lease keeps its own session. -/
theorem PlannedRun.superstep_leased (run : PlannedRun graph state)
    (drivable : Drivable typeOf graph state scopeRun limits projections materialize frames)
    (leased : state.execution ≠ none) :
    (prepareSuperstep typeOf graph state scopeRun limits projections materialize attemptId frames :
      Except ExecutionError (PrepareDisposition ν σ ι)) =
        .error ⟨.resultCollection, "active execution requires its original execution session"⟩ := by
  have placed := drivable.placed (run.guarded compiles)
  obtain ⟨lease, held⟩ := Option.ne_none_iff_exists'.mp leased
  have session := (run.valid compiles).lease lease held
  have executable := pendingNodeIds_ne_nil.mp session.pending
  simp only [prepareSuperstep, placed, ok_bind, session.running, executable, prepareExecutable,
    raiseIf, leased, ne_eq, not_false_eq_true, if_true, error_bind]

end Total

/-- `prepare_superstep` is total on planned runs: for what the driver hands over it fails only while
a lease is open, and then because that lease's session is still needed. Otherwise it says what the
state and its children ask for, and what it prepares is committed: the claim of an executable
frontier and the command of a settled one. -/
theorem superstep_total [DecidableEq τ] {definition : GraphDefinition τ}
    {nestedGraphs : Dict GraphNodeId (CompiledGraph τ)} {graph : CompiledGraph τ}
    (compiles : Compiles definition nestedGraphs graph) {state : GraphRunState}
    (run : PlannedRun graph state) {typeOf : ν → τ} {scopeRun : ScopeRunCoordinate}
    {limits : ExecutionLimits} {projections : List (ChildProjection ν)}
    {materialize : GraphNodeId → Except ExecutionError ι} {frames : ScopedFrameAvailability}
    (drivable : Drivable typeOf graph state scopeRun limits projections materialize frames)
    {attemptId : GraphExecutionAttemptId} (canonical : isCanonicalIdentity attemptId = true) :
    (∀ error, (prepareSuperstep typeOf graph state scopeRun limits projections materialize attemptId
        frames : Except ExecutionError (PrepareDisposition ν σ ι)) = .error error ↔
      state.execution ≠ none ∧ error =
        ⟨.resultCollection, "active execution requires its original execution session"⟩) ∧
    ∀ disposition : PrepareDisposition ν σ ι,
      prepareSuperstep typeOf graph state scopeRun limits projections materialize attemptId frames =
        .ok disposition →
          disposition.Fits typeOf graph state scopeRun projections materialize frames := by
  by_cases unleased : state.execution = none
  · obtain ⟨disposition, prepared, fits⟩ :=
      run.superstep_fits (σ := σ) compiles drivable canonical unleased
    rw [prepared]
    constructor
    · intro error
      refine iff_of_false (by simp) ?_
      intro both
      exact both.1 unleased
    · intro other same
      rw [← Except.ok.inj same]
      exact fits
  · rw [run.superstep_leased compiles drivable unleased]
    constructor
    · intro error
      simp [unleased, eq_comm]
    · intro disposition wrong
      cases wrong

section Fits

variable [DecidableEq τ] {typeOf : ν → τ} {graph : CompiledGraph τ} {state : GraphRunState}
  {scopeRun : ScopeRunCoordinate} {projections : List (ChildProjection ν)}
  {materialize : GraphNodeId → Except ExecutionError ι} {frames : ScopedFrameAvailability}
  {disposition : PrepareDisposition ν σ ι}

/-- Where a child has not ended, it is to be driven. -/
theorem DrivesChildren.eq_some {children : Option WaitingForChildren}
    (drives : DrivesChildren projections children)
    (child : ∃ projection ∈ projections, projection.hasEnded = false) :
    children = some (childrenToDrive projections) := by
  obtain ⟨projection, member, waits⟩ := child
  cases children with
  | none =>
      rw [drives.1.mp rfl projection member] at waits
      cases waits
  | some waiting => rw [drives.2 waiting rfl]

/-- A scope that asks for execution is executed, or waits for its children. -/
theorem PrepareDisposition.Fits.executes
    (fits : disposition.Fits typeOf graph state scopeRun projections materialize frames)
    (asks : AsksExecution state) :
    (∃ claim children, disposition = .executableFrontier claim children) ∨
      ∃ children, disposition = .waitingForChildren children := by
  have status := asks.running
  have executable := asks.executable
  cases disposition with
  | executableFrontier claim children => exact .inl ⟨claim, children, rfl⟩
  | waitingForChildren children => exact .inr ⟨children, rfl⟩
  | readyToResolve command =>
      rw [fits.2.1] at executable
      cases executable
  | awaitingResume nodeIds =>
      rw [fits.2.1] at executable
      cases executable
  | completedGraph =>
      rw [show state.status = .completed from fits] at status
      cases status
  | failedGraph =>
      rw [show state.status = .failed from fits] at status
      cases status
  | abortedGraph =>
      rw [show state.status = .aborted from fits] at status
      cases status

/-- A scope that asks for execution while only its children can go on waits for them. -/
theorem PrepareDisposition.Fits.waits
    (fits : disposition.Fits typeOf graph state scopeRun projections materialize frames)
    (asks : AsksExecution state) (idle : Idle graph state projections)
    (child : ∃ projection ∈ projections, projection.hasEnded = false) :
    disposition = .waitingForChildren (childrenToDrive projections) := by
  rcases fits.executes asks with ⟨claim, children, rfl⟩ | ⟨children, rfl⟩
  · obtain ⟨-, drives, busy, -⟩ := fits
    have some : children ≠ none := by
      rw [drives.eq_some child]
      exact Option.some_ne_none _
    exact absurd idle (busy some)
  · rw [Option.some.inj (fits.2.2.eq_some child)]

/-- A scope that asks for execution and has work of its own claims it. -/
theorem PrepareDisposition.Fits.claims
    (fits : disposition.Fits typeOf graph state scopeRun projections materialize frames)
    (asks : AsksExecution state) (busy : ¬ Idle graph state projections) :
    ∃ claim children, disposition = .executableFrontier claim children ∧
      DrivesChildren projections children := by
  rcases fits.executes asks with ⟨claim, children, rfl⟩ | ⟨children, rfl⟩
  · exact ⟨claim, children, rfl, fits.2.1⟩
  · exact absurd fits.2.1 busy

end Fits

/-! ## A node beside a nested graph -/

/-- A graph of one node. -/
def childDefinition : GraphDefinition Unit where
  definitionId := "child"
  version := 1
  nodes := [.callable ⟨"b", [], [⟨"out", ⟨0, ()⟩⟩], [], []⟩]
  edges := []
  entries := ["b"]
  outputs := []

/-- A node beside a nested graph. -/
def nestingDefinition : GraphDefinition Unit where
  definitionId := "nesting"
  version := 1
  nodes := [.callable ⟨"a", [], [⟨"out", ⟨0, ()⟩⟩], [], []⟩, .nested "n" childDefinition []]
  edges := []
  entries := ["a", "n"]
  outputs := []

def childPlans : Dict GraphNodeId (CompiledGraph Unit) :=
  ⟨[("n", compiledGraph childDefinition)], List.nodup_singleton _⟩

def nestingPlan : CompiledGraph Unit :=
  (compileDefinition nestingDefinition childPlans).toOption.getD pairGraph

theorem nestingDefinition_compiles : Compiles nestingDefinition childPlans nestingPlan := by
  have child : Compiles childDefinition Dict.empty (compiledGraph childDefinition) :=
    compiles_compiledGraph (by decide) (by simp [childDefinition]) (by decide +kernel)
  refine ⟨by decide, ?_, ?_⟩
  · intro nodeId other inputs member
    simp only [nestingDefinition, List.mem_cons, reduceCtorEq, GraphNode.nested.injEq,
      List.not_mem_nil, or_false, false_or] at member
    obtain ⟨rfl, rfl, -⟩ := member
    exact ⟨Dict.empty, compiledGraph childDefinition, rfl, child.compiled⟩
  · have accepted : (compileDefinition nestingDefinition childPlans).toOption.isSome = true := by
      decide +kernel
    obtain ⟨graph, compiled⟩ := Option.isSome_iff_exists.mp accepted
    rw [nestingPlan, compiled]
    exact toOption_eq_some.mp compiled

/-- Both nodes are pending. -/
def nestingStarted : GraphRunState where
  runId := "run"
  definitionId := "nesting"
  definitionVersion := 1
  status := .running
  superstep := 0
  frontier := ⟨[⟨"a", .pending .useStepRequestInput, .start⟩,
    ⟨"n", .pending .useStepRequestInput, .start⟩]⟩

def nestingClaimed : GraphRunState :=
  { nestingStarted with
    executionSequence := 1
    execution := some ⟨⟨1, "attempt"⟩⟩
    revision := 1 }

/-- The callable node has settled. -/
def nestingSettled : GraphRunState :=
  { nestingClaimed with
    frontier := ⟨[⟨"a", .succeeded .continueGraphRouting, .start⟩,
      ⟨"n", .pending .useStepRequestInput, .start⟩]⟩
    settledPublications := [⟨activationReference "run" 0 "a" none, 2, ⟨1, "attempt"⟩, none⟩]
    revision := 2 }

/-- The lease is given up: only the child can go on. -/
def nestingWaiting : GraphRunState :=
  { nestingSettled with
    execution := none
    revision := 3 }

theorem nestingStarted_reached : PlannedRun nestingPlan nestingStarted := by
  have projects : projectStartGraphCommand nestingPlan "run" none none =
      .ok ⟨"run", "nesting", 1, [⟨"a", .start⟩, ⟨"n", .start⟩], none, none, none, none⟩ := by
    decide +kernel
  have start : Commits nestingPlan none
      (.start ⟨"run", "nesting", 1, [⟨"a", .start⟩, ⟨"n", .start⟩], none, none, none, none⟩)
      nestingStarted :=
    commits_of_committedState ⟨[], "run"⟩ none (some ⟨[], none⟩) (by decide +kernel)
  exact .start projects start

theorem nestingClaimed_reached : PlannedRun nestingPlan nestingClaimed := by
  have claim : Commits nestingPlan (some nestingStarted) (.claim ⟨0, "attempt", none⟩)
      nestingClaimed :=
    commits_of_committedState ⟨[], "run"⟩ none none (by decide +kernel)
  refine nestingStarted_reached.commit ?_ claim
  intro command same
  rw [← GraphRunCommand.claim.inj same]
  exact ⟨1, [⟨taskIdentity "run" 0 "a", "run", 0, "a"⟩, ⟨taskIdentity "run" 0 "n", "run", 0, "n"⟩],
    by decide +kernel, by decide +kernel⟩

theorem nestingWaiting_reached : PlannedRun nestingPlan nestingWaiting := by
  have settle : Commits nestingPlan (some nestingClaimed)
      (.settle ⟨1, ⟨1, "attempt"⟩, .succeeded "a" .continueGraphRouting, none, none⟩)
      nestingSettled :=
    commits_of_committedState ⟨[], "run"⟩
      (some (.success ⟨taskIdentity "run" 0 "a", "run", 0, "a"⟩ ⟨[⟨"out", ()⟩], none⟩ none none))
      none (by decide +kernel)
  have fence : Commits nestingPlan (some nestingSettled) (.fence ⟨2, ⟨1, "attempt"⟩⟩)
      nestingWaiting :=
    commits_of_committedState ⟨[], "run"⟩ none none (by decide +kernel)
  refine (nestingClaimed_reached.commit ?_ settle).commit ?_ fence
  · intro command same
    cases same
  · intro command same
    cases same

/-- The child of the nested graph has no run yet. -/
def missingChild : List (ChildProjection Unit) := [.missing ⟨"run", 0, "n"⟩]

/-- The hand-over of a state with the nested graph pending. -/
theorem nesting_drivable {state : GraphRunState} (run : state.runId = "run")
    (root : state.parent = none) (first : state.superstep = 0)
    (executable : frontierStatus state.frontier = some .executable)
    (nested : (pendingNodeIds state.frontier).filter
      (fun nodeId => (nestingPlan.nestedGraphs.map Prod.fst).contains nodeId) = ["n"]) :
    Drivable (fun _ : Unit => ()) nestingPlan state ⟨[], "run"⟩ ⟨1, 1, by decide, by decide⟩
      missingChild (fun _ => .ok ()) ⟨fun _ => true, fun _ => true⟩ where
  run := run
  parent := by rw [root]; rfl
  values := by
    intro settled
    rw [executable] at settled
    cases settled
  below := by rw [first]; decide
  covers := by rw [nested, run, first]; rfl
  converts := by
    intro parent output route member
    simp [missingChild] at member
  materializes := fun _ _ _ => ⟨(), rfl⟩

/-- The start is claimed with the child to drive beside it. While the claim is open nothing else is
prepared, and once it is given up the scope waits for the child. -/
theorem nesting_superstep :
    (∃ claim, (prepareSuperstep (fun _ : Unit => ()) nestingPlan nestingStarted ⟨[], "run"⟩
        ⟨1, 1, by decide, by decide⟩ missingChild (fun _ => .ok ()) "attempt"
        ⟨fun _ => true, fun _ => true⟩ : Except ExecutionError (PrepareDisposition Unit Unit Unit)) =
      .ok (.executableFrontier claim (some ⟨[⟨"run", 0, "n"⟩], []⟩))) ∧
    (prepareSuperstep (fun _ : Unit => ()) nestingPlan nestingClaimed ⟨[], "run"⟩
        ⟨1, 1, by decide, by decide⟩ missingChild (fun _ => .ok ()) "attempt"
        ⟨fun _ => true, fun _ => true⟩ : Except ExecutionError (PrepareDisposition Unit Unit Unit)) =
      .error ⟨.resultCollection, "active execution requires its original execution session"⟩ ∧
    (prepareSuperstep (fun _ : Unit => ()) nestingPlan nestingWaiting ⟨[], "run"⟩
        ⟨1, 1, by decide, by decide⟩ missingChild (fun _ => .ok ()) "next"
        ⟨fun _ => true, fun _ => true⟩ : Except ExecutionError (PrepareDisposition Unit Unit Unit)) =
      .ok (.waitingForChildren ⟨[⟨"run", 0, "n"⟩], []⟩) := by
  have started := superstep_total (σ := Unit) nestingDefinition_compiles nestingStarted_reached
    (nesting_drivable rfl rfl rfl (by decide) (by decide +kernel))
    (show isCanonicalIdentity "attempt" = true by decide)
  have claimed := superstep_total (σ := Unit) nestingDefinition_compiles nestingClaimed_reached
    (nesting_drivable rfl rfl rfl (by decide) (by decide +kernel))
    (show isCanonicalIdentity "attempt" = true by decide)
  have waiting := superstep_total (σ := Unit) nestingDefinition_compiles nestingWaiting_reached
    (nesting_drivable rfl rfl rfl (by decide) (by decide +kernel))
    (show isCanonicalIdentity "next" = true by decide)
  have child : ∃ projection ∈ missingChild, projection.hasEnded = false :=
    ⟨_, List.mem_singleton.mpr rfl, rfl⟩
  refine ⟨?_, (claimed.1 _).mpr ⟨Option.some_ne_none _, rfl⟩, ?_⟩
  · cases prepared : (prepareSuperstep (fun _ : Unit => ()) nestingPlan nestingStarted ⟨[], "run"⟩
        ⟨1, 1, by decide, by decide⟩ missingChild (fun _ => .ok ()) "attempt"
        ⟨fun _ => true, fun _ => true⟩ :
          Except ExecutionError (PrepareDisposition Unit Unit Unit)) with
    | error error => exact absurd rfl ((started.1 error).mp prepared).1
    | ok disposition =>
        have busy : ¬ Idle nestingPlan nestingStarted missingChild := by
          intro idle
          have callable : nestingPlan.callable "a" = true := by decide +kernel
          rw [idle.1 "a" (by decide)] at callable
          cases callable
        obtain ⟨claim, children, rfl, drives⟩ := (started.2 disposition prepared).claims
          ⟨rfl, rfl, by decide⟩ busy
        rw [drives.eq_some child]
        exact ⟨claim, rfl⟩
  · cases prepared : (prepareSuperstep (fun _ : Unit => ()) nestingPlan nestingWaiting ⟨[], "run"⟩
        ⟨1, 1, by decide, by decide⟩ missingChild (fun _ => .ok ()) "next"
        ⟨fun _ => true, fun _ => true⟩ :
          Except ExecutionError (PrepareDisposition Unit Unit Unit)) with
    | error error => exact absurd rfl ((waiting.1 error).mp prepared).1
    | ok disposition =>
        have idle : Idle nestingPlan nestingWaiting missingChild := ⟨by decide +kernel, by decide⟩
        rw [(waiting.2 disposition prepared).waits ⟨rfl, rfl, by decide⟩ idle child]
        rfl

end MoteKernel
