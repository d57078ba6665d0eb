import MoteKernel.Execution.FamilyDriver

/-!
# Claims, task selection and execution sessions

The task half of `execution/engine/admission.py`, `execution/claim.py`,
`execution/engine/claim_stage.py`, `execution/engine/scheduler.py` and
`execution/engine/session.py`. `ι` is the type of a task's effective input,
which the scheduler hands to the node and never reads.

What a node's coroutine does is the environment's: a batch of finished tasks is
an argument of `nextCompletion`, so every completion order is a choice of
batches. `next` suspends in one place, while it waits for that batch.
-/

namespace MoteKernel
open Checked Canonical

variable {τ ν σ ι : Type}

/-! ## Limits and tasks -/

/-- `ExecutionLimits`; its `__post_init__` only lets positive bounds through. -/
structure ExecutionLimits where
  maxSupersteps : Nat
  maxParallelTasks : Nat
  supersteps_positive : 0 < maxSupersteps
  parallel_positive : 0 < maxParallelTasks

structure ExecutableTask (ι : Type) where
  task : GraphTask
  effectiveInput : ι
  deriving DecidableEq, Repr

/-- `GraphTask.sort_key`. -/
def GraphTask.sortKey (task : GraphTask) : Nat ×ₗ String ×ₗ String :=
  toLex (task.superstep, toLex (task.nodeId, task.taskId))

/-- `sorted(tasks, key=lambda item: item.sort_key)`. -/
def sortedTasks (tasks : List GraphTask) : List GraphTask :=
  tasks.insertionSort (fun a b => a.sortKey ≤ b.sortKey)

/-- `isinstance(graph.nodes[node_id], CallableNodeDefinition)`. -/
def CompiledGraph.callable (graph : CompiledGraph τ) (nodeId : GraphNodeId) : Bool :=
  match graph.nodes.get? nodeId with
  | some (.callable _) => true
  | _ => false

/-- `graph.nodes[node_id].resources`. -/
def CompiledGraph.resourcesOf (graph : CompiledGraph τ) (nodeId : GraphNodeId) : List ResourceId :=
  ((graph.nodes.get? nodeId).map GraphNode.resources).getD []

/-! ## Admission and selection -/

structure TaskAdmission where
  snapshot : ResourceSnapshot
  admittedNodeIds : List GraphNodeId
  waitingNodeIds : List GraphNodeId
  deriving DecidableEq, Repr

/-- `initial_resource_snapshot`. -/
def initialResourceSnapshot (graph : CompiledGraph τ) : ResourceSnapshot :=
  ⟨graph.transition.resourceOrder.map (fun resourceId => ⟨resourceId, none, []⟩), []⟩

/-- `ResourceTransitionError` as one of the execution errors. -/
def resourceError (error : ResourceTransitionError) : ExecutionError :=
  ⟨.resourceTransition, error.message⟩

/-- A task of a node with resources acquires them, or keeps the acquisition it has. -/
def proposeAcquisition (snapshot : ResourceSnapshot) (nodeId : GraphNodeId)
    (requirements : List ResourceId) :
    Option ResourceAcquisition → Except ExecutionError ResourceSnapshot
  | none => rethrow resourceError
      (ResourceReducer.reduceResources snapshot (.acquireResources nodeId requirements))
  | some acquisition => do
      raiseIf (acquisition.required ≠ requirements)
        ⟨.resourceTransition, "node acquisition does not match compiled requirements"⟩
      return snapshot

/-- One task of the loop of `admit_tasks`. A new acquisition stands last in the snapshot it is
added to, so the dictionary of acquisitions is read off the proposed snapshot. -/
def admitTask (graph : CompiledGraph τ) (admission : TaskAdmission) (task : GraphTask) :
    Except ExecutionError TaskAdmission := do
  raiseIf (graph.callable task.nodeId = false)
    ⟨.resourceTransition, "admission only accepts executable node tasks"⟩
  let requirements := graph.resourcesOf task.nodeId
  let known := admission.snapshot.acquisitions.find? (fun item => item.nodeId = task.nodeId)
  if requirements = [] then
    raiseIf (known ≠ none)
      ⟨.resourceTransition, "resource-free node unexpectedly has an acquisition"⟩
    return admission
  else
    let proposed ← proposeAcquisition admission.snapshot task.nodeId requirements known
    let admitted := ((proposed.acquisitions.find? (fun item => item.nodeId = task.nodeId)).map
      ResourceAcquisition.admitted).getD false
    return if admitted then
        { admission with
          snapshot := proposed
          admittedNodeIds := admission.admittedNodeIds ++ [task.nodeId] }
      else
        { admission with
          snapshot := proposed
          waitingNodeIds := admission.waitingNodeIds ++ [task.nodeId] }

/-- `admit_tasks`. -/
def admitTasks (graph : CompiledGraph τ) (tasks : List GraphTask) (snapshot : ResourceSnapshot) :
    Except ExecutionError TaskAdmission := do
  raiseIf (snapshot.resources.map (·.resourceId) ≠ graph.transition.resourceOrder)
    ⟨.resourceTransition, "resource snapshot does not match compiled resource order"⟩
  raiseIf (¬ (tasks.map (·.nodeId)).Nodup)
    ⟨.resourceTransition, "admission tasks must have unique node identities"⟩
  raiseIf (¬ tasks.map (·.nodeId) ⊆ graph.nodes.keys)
    ⟨.resourceTransition, "admission task references an unknown graph node"⟩
  raiseIf (¬ snapshot.acquisitions.map (·.nodeId) ⊆ tasks.map (·.nodeId))
    ⟨.resourceTransition, "resource snapshot contains an acquisition outside planned nodes"⟩
  (sortedTasks tasks).foldlM (admitTask graph) ⟨snapshot, [], []⟩

/-- `claim_resource_snapshot`. -/
def claimResourceSnapshot (graph : CompiledGraph τ) (tasks : List GraphTask) :
    Except ExecutionError (Option ResourceSnapshot) := do
  let resourceTasks := tasks.filter (fun task =>
    graph.callable task.nodeId ∧ graph.resourcesOf task.nodeId ≠ [])
  if resourceTasks = [] then
    return none
  else
    let admission ← admitTasks graph resourceTasks (initialResourceSnapshot graph)
    raiseIf (admission.snapshot.acquisitions = [])
      ⟨.resultCollection, "resource admission did not create acquisition participants"⟩
    return some admission.snapshot

/-- The tests of one task in the loop of `select_executable_tasks`. -/
def executableTask (graph : CompiledGraph τ) (snapshot : Option ResourceSnapshot)
    (startedNodeIds : List GraphNodeId) (task : GraphTask) : Bool :=
  let acquisitions := (snapshot.map ResourceSnapshot.acquisitions).getD []
  decide (task.nodeId ∉ startedNodeIds) && graph.callable task.nodeId &&
    (decide (graph.resourcesOf task.nodeId = []) ||
      (acquisitions.find? (fun item => item.nodeId = task.nodeId)).any (fun acquisition =>
        acquisition.admitted && decide (acquisition.required = graph.resourcesOf task.nodeId)))

/-- `select_executable_tasks`: the loop stops when the slots are full. -/
def selectExecutableTasks (graph : CompiledGraph τ) (tasks : List GraphTask)
    (snapshot : Option ResourceSnapshot) (limits : ExecutionLimits) (activeCount : Nat)
    (startedNodeIds : List GraphNodeId) : List GraphTask :=
  ((sortedTasks tasks).filter (executableTask graph snapshot startedNodeIds)).take
    (limits.maxParallelTasks - activeCount)

/-! ## Claims -/

/-- `FrontierPreparation`, with the parts of its request that a claim and a session read. -/
structure FrontierPreparation (ν σ ι : Type) where
  state : GraphRunState
  scopeRun : ScopeRunCoordinate
  limits : ExecutionLimits
  tasks : List GraphTask
  executables : List (ExecutableTask ι)
  nestedResults : List (CompletedTask ν σ)

/-- `prepare_frontier`; `materialize` is `materialize_node_input` for one node. -/
def prepareFrontier [DecidableEq τ] (typeOf : ν → τ) (graph : CompiledGraph τ)
    (state : GraphRunState) (scopeRun : ScopeRunCoordinate) (limits : ExecutionLimits)
    (projections : List (ChildProjection ν))
    (materialize : GraphNodeId → Except ExecutionError ι) :
    Except ExecutionError (FrontierPreparation ν σ ι) := do
  let tasks ← planTasks graph state limits.maxSupersteps
  let nestedResults ← prepareNestedResults typeOf graph state limits.maxSupersteps projections
  let executables ← (tasks.filter (fun task => graph.callable task.nodeId)).mapM
    (fun task => return (⟨task, ← materialize task.nodeId⟩ : ExecutableTask ι))
  return ⟨state, scopeRun, limits, tasks, executables, nestedResults⟩

structure PreparedExecutionClaim (ν σ ι : Type) where
  command : ClaimGraphExecution
  preparation : FrontierPreparation ν σ ι

/-- `prepare_claim` on the resources of the frontier, with the attempt's fresh identity. -/
def prepareClaim (graph : CompiledGraph τ) (preparation : FrontierPreparation ν σ ι)
    (attemptId : GraphExecutionAttemptId) :
    Except ExecutionError (PreparedExecutionClaim ν σ ι) := do
  let resources ← claimResourceSnapshot graph preparation.tasks
  return ⟨⟨preparation.state.revision, attemptId, resources⟩, preparation⟩

/-- `_require_committed_claim_state`. -/
def requireCommittedClaimState (claim : PreparedExecutionClaim ν σ ι) (state : GraphRunState) :
    Except TransitionError Unit := do
  let successor ← rethrow TransitionError.state
    (reduceGraphRun (some claim.preparation.state) (.claim claim.command))
  raiseIf (state ≠ successor ∨ claim.preparation.tasks ≠
      (pendingNodeIds state.frontier).map (fun nodeId =>
        ⟨taskIdentity state.runId state.superstep nodeId, state.runId, state.superstep, nodeId⟩))
    (.execution ⟨.resultCollection, "execution claim does not match committed graph state"⟩)

/-! ## The scheduler -/

/-- What a node raised. A `CancelledError` is told apart from the other exceptions. -/
structure NodeError where
  cancelled : Bool
  text : String
  deriving DecidableEq, Repr

structure TaskRaised where
  task : GraphTask
  error : NodeError
  deriving DecidableEq, Repr

/-- `TaskResult | TaskRaised`. -/
inductive TaskEvent (ν σ : Type) where
  | completed (result : CompletedTask ν σ)
  | raised (raised : TaskRaised)
  deriving DecidableEq, Repr

namespace TaskEvent

def task : TaskEvent ν σ → GraphTask
  | completed result => result.task
  | raised error => error.task

/-- `isinstance(event, TaskRaised)`. -/
def error? : TaskEvent ν σ → Option TaskRaised
  | completed _ => none
  | raised error => some error

def result? : TaskEvent ν σ → Option (CompletedTask ν σ)
  | completed result => some result
  | raised _ => none

end TaskEvent

/-- `TaskScheduler`. `submitted` lists the tasks handed to it so far; nothing reads it. -/
structure TaskScheduler (ν σ ι : Type) where
  live : List (ExecutableTask ι) := []
  events : List (TaskEvent ν σ) := []
  submitted : List GraphTask := []

namespace TaskScheduler

/-- `drain_pending_events`: the errors and the results, each in their order. -/
def drainPendingEvents (scheduler : TaskScheduler ν σ ι) :
    List TaskRaised × List (CompletedTask ν σ) × TaskScheduler ν σ ι :=
  (scheduler.events.filterMap TaskEvent.error?, scheduler.events.filterMap TaskEvent.result?,
    { scheduler with events := [] })

/-- `submit`. -/
def submit (scheduler : TaskScheduler ν σ ι) (executables : List (ExecutableTask ι)) :
    Except ExecutionError (TaskScheduler ν σ ι) := do
  let submitted := executables.map (·.task.taskId)
  let existing := scheduler.live.map (·.task.taskId) ++ scheduler.events.map (·.task.taskId)
  raiseIf (¬ submitted.Nodup ∨ ∃ taskId ∈ submitted, taskId ∈ existing)
    ⟨.nodeExecutionContract, "a graph task was submitted more than once"⟩
  return { scheduler with
    live := scheduler.live ++ executables
    submitted := scheduler.submitted ++ executables.map (·.task) }

/-- A batch `asyncio.wait` can find: some of the live tasks, each once. -/
def finishes (scheduler : TaskScheduler ν σ ι) (done : List (TaskEvent ν σ)) : Bool :=
  !done.isEmpty && decide (done.map TaskEvent.task).Nodup &&
    done.all (fun event => (scheduler.live.map (·.task)).contains event.task)

/-- `next_completion`, where `asyncio.wait` found the batch `done`. -/
def nextCompletion (scheduler : TaskScheduler ν σ ι) (done : List (TaskEvent ν σ)) :
    Except ExecutionError (TaskEvent ν σ × TaskScheduler ν σ ι) :=
  match scheduler.events with
  | event :: rest => return (event, { scheduler with events := rest })
  | [] =>
      match done.insertionSort (fun a b => a.task.sortKey ≤ b.task.sortKey) with
      | [] => throw ⟨.nodeExecutionContract, "there are no live graph tasks"⟩
      | first :: rest => return (first, { scheduler with
          live := scheduler.live.filter (fun executable =>
            executable.task.taskId ∉ done.map (·.task.taskId))
          events := rest })

/-- `aclose`. -/
def aclose (scheduler : TaskScheduler ν σ ι) : TaskScheduler ν σ ι :=
  { scheduler with live := [], events := [] }

end TaskScheduler

/-! ## Sessions -/

/-- `_SessionDisposition`. -/
inductive SessionDisposition where
  | opened
  | errorDraining
  | quiescent
  | closed
  deriving DecidableEq, Repr

/-- `_QueuedCompletion`. -/
structure QueuedCompletion (ν σ : Type) where
  result : CompletedTask ν σ
  refillOrdinarySlots : Bool := false
  deriving DecidableEq, Repr

/-- `ExecutedGraphNode`. -/
structure ExecutedGraphNode (ν σ : Type) where
  result : CompletedTask ν σ
  command : SettleGraphNode
  deriving DecidableEq, Repr

/-- `_GraphExecutionSession`. -/
structure GraphExecutionSession (τ ν σ ι : Type) where
  graph : CompiledGraph τ
  limits : ExecutionLimits
  executables : List (ExecutableTask ι)
  state : GraphRunState
  queuedResults : List (QueuedCompletion ν σ)
  started : List GraphNodeId := []
  scheduler : TaskScheduler ν σ ι := {}
  awaitingAck : Option SettleGraphNode := none
  disposition : SessionDisposition := .opened
  error : Option TaskRaised := none
  nodeOriginCancellation : Option NodeError := none

/-- `GraphExecutor.issue_session`. -/
def issueSession (graph : CompiledGraph τ) (claim : PreparedExecutionClaim ν σ ι)
    (state : GraphRunState) : Except TransitionError (GraphExecutionSession τ ν σ ι) := do
  rethrow TransitionError.execution
    (requireScopedSnapshotMatchesGraph graph state claim.preparation.scopeRun)
  requireCommittedClaimState claim state
  return {
    graph := graph
    limits := claim.preparation.limits
    executables := claim.preparation.executables
    state := state
    queuedResults := claim.preparation.nestedResults.map (fun result => ⟨result, false⟩) }

/-- How a call of `next` ends: with a completion, with the error of a function it calls, with the
node's own exception, with `StopAsyncIteration`, or with its own `ResultCollectionError`, "no
executable pending node can be scheduled". -/
inductive NextOutcome (ν σ : Type) where
  | completed (executed : ExecutedGraphNode ν σ)
  | failed (error : ExecutionError)
  | nodeRaised (error : NodeError)
  | stopped
  | unschedulable
  deriving DecidableEq, Repr

namespace GraphExecutionSession

/-- `_require_open`. -/
def requireOpen (session : GraphExecutionSession τ ν σ ι) : Except ExecutionError Unit := do
  raiseIf (session.disposition = .closed) ⟨.resultCollection, "execution session is closed"⟩
  raiseIf (session.disposition = .quiescent)
    ⟨.resultCollection, "execution session is quiescent"⟩

/-- `_acknowledge`. -/
def acknowledge (session : GraphExecutionSession τ ν σ ι) (state : GraphRunState) :
    Except ExecutionError (GraphExecutionSession τ ν σ ι) :=
  match session.awaitingAck with
  | none => do
      requireSnapshotMatchesGraph session.graph state
      raiseIf (state ≠ session.state) ⟨.resultCollection,
        "first session state must be the reducer-applied claim successor"⟩
      return session
  | some command => do
      let _ ← rethrow (fun _ => ⟨.resultCollection,
          "session state acknowledgement is not the exact reducer successor"⟩)
        (admitGraphRunConfirmation (some session.state) (.settle command) state)
      return { session with state := state, awaitingAck := none }

/-- The executables of the nodes that are still pending. -/
def pendingExecutables (session : GraphExecutionSession τ ν σ ι) : List (ExecutableTask ι) :=
  session.executables.filter (fun executable =>
    executable.task.nodeId ∈ pendingNodeIds session.state.frontier)

/-- The call of `select_executable_tasks` in `_select_ordinary`. -/
def selectedTasks (session : GraphExecutionSession τ ν σ ι) : List GraphTask :=
  selectExecutableTasks session.graph (session.pendingExecutables.map (·.task))
    session.state.resources session.limits session.scheduler.live.length session.started

/-- `_select_ordinary`. -/
def selectOrdinary (session : GraphExecutionSession τ ν σ ι) : List (ExecutableTask ι) :=
  if session.disposition ≠ .opened then []
  else session.selectedTasks.filterMap (fun task =>
    session.pendingExecutables.find? (fun executable => executable.task.taskId = task.taskId))

/-- `_record_error`. -/
def recordError (session : GraphExecutionSession τ ν σ ι) (raised : TaskRaised) :
    GraphExecutionSession τ ν σ ι :=
  let first := match session.error with
    | none => raised
    | some error => if raised.task.sortKey < error.task.sortKey then raised else error
  { session with
    error := some first
    nodeOriginCancellation := if first.error.cancelled then some first.error else none
    disposition := .errorDraining }

/-- `_drain_scheduler_events`. -/
def drainSchedulerEvents (session : GraphExecutionSession τ ν σ ι) :
    GraphExecutionSession τ ν σ ι :=
  let (errors, completions, scheduler) := session.scheduler.drainPendingEvents
  let recorded := errors.foldl recordError { session with scheduler := scheduler }
  { recorded with
    queuedResults := recorded.queuedResults ++ completions.map (fun result => ⟨result, true⟩) }

/-- `_schedule_ordinary`. -/
def scheduleOrdinary (session : GraphExecutionSession τ ν σ ι) :
    Except ExecutionError (GraphExecutionSession τ ν σ ι) := do
  let selected := session.selectOrdinary
  let scheduler ← session.scheduler.submit selected
  return { session with
    scheduler := scheduler
    started := session.started ++ selected.map (·.task.nodeId) }

/-- `_project`. -/
def project (session : GraphExecutionSession τ ν σ ι) (result : CompletedTask ν σ) :
    Except ExecutionError (ExecutedGraphNode ν σ × GraphExecutionSession τ ν σ ι) := do
  let command ← settleResult session.graph session.state result.result
  return (⟨result, command⟩, { session with awaitingAck := some command })

/-- `aclose`. -/
def aclose (session : GraphExecutionSession τ ν σ ι) : GraphExecutionSession τ ν σ ι :=
  { session with
    scheduler := session.scheduler.aclose
    queuedResults := []
    awaitingAck := none
    disposition := .closed }

/-- A queued completion leaves the session; one that came from a live task refills its slot. -/
def takeQueued (session : GraphExecutionSession τ ν σ ι) (queued : QueuedCompletion ν σ) :
    GraphExecutionSession τ ν σ ι × NextOutcome ν σ :=
  match session.project queued.result with
  | .error error => (session, .failed error)
  | .ok (executed, projected) =>
      if queued.refillOrdinarySlots then
        match projected.scheduleOrdinary with
        | .error error => (projected, .failed error)
        | .ok scheduled => (scheduled, .completed executed)
      else (projected, .completed executed)

/-- What `next` does when nothing is live after scheduling. -/
def settleIdle (session : GraphExecutionSession τ ν σ ι) :
    GraphExecutionSession τ ν σ ι × NextOutcome ν σ :=
  match session.error with
  | some raised => ({ session with disposition := .quiescent }, .nodeRaised raised.error)
  | none =>
      if (pendingNodeIds session.state.frontier).all
          (fun nodeId => (session.graph.nestedGraphs.map Prod.fst).contains nodeId) then
        ({ session with disposition := .quiescent }, .stopped)
      else (session, .unschedulable)

/-- The loop body of `next` up to its `await`: without an outcome, the call waits for the
scheduler. -/
def iterate (session : GraphExecutionSession τ ν σ ι) :
    GraphExecutionSession τ ν σ ι × Option (NextOutcome ν σ) :=
  let drained := session.drainSchedulerEvents
  match drained.nodeOriginCancellation with
  | some error => (drained.aclose, some (.nodeRaised error))
  | none =>
      match drained.queuedResults with
      | queued :: rest =>
          let (taken, outcome) := { drained with queuedResults := rest }.takeQueued queued
          (taken, some outcome)
      | [] =>
          match drained.scheduleOrdinary with
          | .error error => (drained, some (.failed error))
          | .ok scheduled =>
              if scheduled.scheduler.live = [] then
                let (idle, outcome) := scheduled.settleIdle
                (idle, some outcome)
              else (scheduled, none)

/-- The rest of the loop body, once the scheduler has a completion. -/
def receive (session : GraphExecutionSession τ ν σ ι) (event : TaskEvent ν σ) :
    GraphExecutionSession τ ν σ ι × Option (NextOutcome ν σ) :=
  match event with
  | .raised raised => (session.recordError raised, none)
  | .completed result =>
      match session.project result with
      | .error error => (session, some (.failed error))
      | .ok (executed, projected) => (projected, some (.completed executed))

end GraphExecutionSession

/-! ## Driving a session -/

/-- Where the driver of a session stands: between two calls of `next`, in its loop, waiting for
the scheduler, or done with the session. -/
inductive DriverPhase (ν σ : Type) where
  | between
  | looping
  | waiting
  | done (outcome : Option (NextOutcome ν σ))
  deriving DecidableEq, Repr

structure DrivenSession (τ ν σ ι : Type) where
  session : GraphExecutionSession τ ν σ ι
  phase : DriverPhase ν σ := .between

/-- `next` is called with the confirmed state, its loop runs to the next `await` or to its end, a
batch of tasks finishes, or the session is closed. -/
inductive SessionStep (ν σ : Type) where
  | next (state : GraphRunState)
  | iterate
  | finish (done : List (TaskEvent ν σ))
  | close

inductive SessionRefusal where
  | notDriven
  | execution (error : ExecutionError)
  deriving DecidableEq, Repr

namespace DrivenSession

/-- `_consume_session` calls `next` again only after a completion: any other outcome leaves the
`async with` block, which closes the session. Without an outcome `next` goes on to `ahead`. -/
def phaseAfter (ahead : DriverPhase ν σ) : Option (NextOutcome ν σ) → DriverPhase ν σ
  | none => ahead
  | some (.completed _) => .between
  | some outcome => .done (some outcome)

/-- One step of a driven session. -/
def step (driven : DrivenSession τ ν σ ι) :
    SessionStep ν σ → Except SessionRefusal (DrivenSession τ ν σ ι)
  | .next state =>
      match driven.phase with
      | .between => do
          let acknowledged ← rethrow SessionRefusal.execution do
            driven.session.requireOpen
            driven.session.acknowledge state
          return ⟨acknowledged, .looping⟩
      | _ => throw .notDriven
  | .iterate =>
      match driven.phase with
      | .looping =>
          let (session, outcome) := driven.session.iterate
          return ⟨session, phaseAfter .waiting outcome⟩
      | _ => throw .notDriven
  | .finish done =>
      match driven.phase with
      | .waiting => do
          raiseIf (driven.session.scheduler.finishes done = false) SessionRefusal.notDriven
          let (event, scheduler) ← rethrow SessionRefusal.execution
            (driven.session.scheduler.nextCompletion done)
          let (session, outcome) := { driven.session with scheduler := scheduler }.receive event
          return ⟨session, phaseAfter .looping outcome⟩
      | _ => throw .notDriven
  | .close => return ⟨driven.session.aclose, .done none⟩

end DrivenSession

end MoteKernel
