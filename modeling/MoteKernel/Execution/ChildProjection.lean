import MoteKernel.Execution.Commit

/-!
# Child projections

What a parent sees of its nested runs: `project_graph_outputs` of
`execution/engine/admission.py`, the terminal projection and boundary of
`execution/family_driver.py`, and the nested half of `prepare_frontier`.
`typeOf` is the exact class of a value.
-/

namespace MoteKernel
open Checked Canonical

variable {τ ν σ : Type} [DecidableEq τ]

/-! ## Frame values -/

/-- `admit_exact`. -/
def admitExact (typeOf : ν → τ) (value : ν) (descriptor : NominalTypeDescriptor τ)
    (kind : String) : Except ExecutionError Unit :=
  raiseIf (typeOf value ≠ descriptor.valueType)
    ⟨.graphValueAdmission, kind ++ " does not have its exact declared type"⟩

/-- `_admit_entries`. -/
def admitEntries (typeOf : ν → τ) (entries : List (NamedValue ν))
    (declarations : List (OutputDeclaration τ)) (kind : String) : Except ExecutionError Unit := do
  let expectedNames := declarations.map (·.name)
  let actualNames := entries.map (·.name)
  raiseIf (actualNames ≠ expectedNames)
    ⟨.graphValueAdmission, kind ++ " names do not match the compiled descriptor: expected " ++
      reprTuple expectedNames ++ ", got " ++ reprTuple actualNames⟩
  checkAll (fun pair : NamedValue ν × OutputDeclaration τ =>
      admitExact typeOf pair.1.value pair.2.descriptor
        (kind ++ " value for " ++ reprIdentity pair.1.name))
    (entries.zip declarations)

/-- `_frame_value`. -/
def frameValue (frame : Frame ν) (name : String) : Except ExecutionError ν :=
  orRaise ⟨.graphValueAdmission, "compiled frame does not contain value " ++ reprIdentity name⟩
    ((frame.entries.find? (fun entry => entry.name = name)).map NamedValue.value)

/-- `_node_output_from_view`. -/
def nodeOutputFromView (typeOf : ν → τ) (view : Frame ν)
    (declarations : List (OutputDeclaration τ)) : Except ExecutionError (Frame ν) := do
  admitEntries typeOf view.entries declarations "nested node output"
  return view

/-! ## Graph outputs -/

/-- The Config merge of `project_graph_outputs`: two sources may not disagree. -/
def mergeActivationConfig (current candidate : Option ActivationConfig) :
    Except ExecutionError (Option ActivationConfig) :=
  match current, candidate with
  | current, none => return current
  | none, some candidate => return some candidate
  | some current, some candidate => do
      raiseIf (current ≠ candidate) ⟨.graphValueAdmission,
        "graph output sources carry different activation Config snapshots"⟩
      return some candidate

/-- A source as the text of an error names it. -/
def ResolvedValueSource.reprSource : ResolvedValueSource → String
  | .graphInput port => reprIdentity port.name
  | .nodeOutput port => reprIdentity port.nodeId ++ "." ++ reprIdentity port.outputName

/-- The frame of one output source. -/
def outputFrame (frames : ScopedFrameIndex ν σ) (source : ResolvedValueSource) :
    SourceCoordinate → Except ExecutionError (Frame ν)
  | .graphInput coordinate =>
      orRaise ⟨.snapshotMismatch, "continuation has no frame at coordinate"⟩
        ((frames.lookupGraphInput coordinate).map AdmittedGraphInput.frame)
  | .publication coordinate =>
      orRaise ⟨.graphValueAdmission, "graph output source " ++ source.reprSource ++
          " is unavailable"⟩
        ((frames.lookupPublication coordinate).map ConfirmedPublication.frame)

/-- The name of a value in the frame of its source. -/
def ResolvedValueSource.valueName : ResolvedValueSource → String
  | .graphInput port => port.name
  | .nodeOutput port => port.outputName

/-- One binding of `project_graph_outputs`. With an owner Session the frames' own Config is not
read. -/
def projectGraphOutput (graph : CompiledGraph τ) (scopeRun : ScopeRunCoordinate)
    (completionSuperstep : Nat) (frames : ScopedFrameIndex ν σ) (ownerBound : Bool)
    (projected : List (NamedValue ν) × Option ActivationConfig) (binding : GraphOutputBinding τ) :
    Except ExecutionError (List (NamedValue ν) × Option ActivationConfig) := do
  let coordinate ← sourceAvailabilityCoordinate graph scopeRun binding.source binding.publication
    completionSuperstep
    ⟨.graphValueAdmission, "compiled graph output binding lacks its activation selection"⟩
  let frame ← outputFrame frames binding.source coordinate
  let value ← frameValue frame binding.source.valueName
  let config ← mergeActivationConfig projected.2
    (if ownerBound then none else frame.activationConfig)
  return (projected.1 ++ [⟨binding.destination.boundaryName, value⟩], config)

/-- `terminal_frames` of `project_graph_outputs`. -/
def terminalFrames (scopeRun : ScopeRunCoordinate) (completionSuperstep : Nat)
    (frames : ScopedFrameIndex ν σ) : List (Frame ν) :=
  (frames.publications.filter (fun record => record.coordinate.activation.scopeRun = scopeRun ∧
      record.coordinate.activation.superstep = completionSuperstep)).map (·.frame) ++
    (if completionSuperstep = 0 then
      (frames.graphInputs.filter (·.coordinate.scopeRun = scopeRun)).map (·.frame) else []) ++
    (frames.childBoundaries.filter (·.coordinate.childScopeRun = scopeRun)).map (·.frame)

/-- The Config of the terminal frames. -/
def terminalConfig (scopeRun : ScopeRunCoordinate) (completionSuperstep : Nat)
    (frames : ScopedFrameIndex ν σ) : Except ExecutionError (Option ActivationConfig) :=
  (terminalFrames scopeRun completionSuperstep frames).foldlM
    (fun current frame => mergeActivationConfig current frame.activationConfig) none

/-- `project_graph_outputs`. -/
def projectGraphOutputs (typeOf : ν → τ) (graph : CompiledGraph τ) (scopeRun : ScopeRunCoordinate)
    (completionSuperstep : Nat) (frames : ScopedFrameIndex ν σ)
    (ownerSession : Option (AgentSession σ)) : Except ExecutionError (Frame ν) := do
  let (entries, outputConfig) ← graph.transition.graphOutputs.foldlM
    (projectGraphOutput graph scopeRun completionSuperstep frames ownerSession.isSome)
    ([], ownerSession.bind AgentSession.config)
  -- a graph without outputs still carries the Config of its terminal frames
  let config ← if ownerSession.isNone ∧ outputConfig = none then
      terminalConfig scopeRun completionSuperstep frames
    else pure outputConfig
  admitEntries typeOf entries graph.graphOutputDescriptor.declarations "graph output"
  return ⟨entries, config⟩

/-! ## Terminal projections -/

/-- `ChildProjection`. -/
inductive ChildProjection (ν : Type) where
  | missing (parent : GraphActivationIdentity)
  | active (parent : GraphActivationIdentity)
  | completed (parent : GraphActivationIdentity) (output : Frame ν) (route : Option GraphRouteId)
  | failed (parent : GraphActivationIdentity) (reason : String)
  | aborted (parent : GraphActivationIdentity) (reason : String)
  deriving DecidableEq, Repr

def ChildProjection.parent : ChildProjection ν → GraphActivationIdentity
  | missing parent => parent
  | active parent => parent
  | completed parent _ _ => parent
  | failed parent _ => parent
  | aborted parent _ => parent

/-- The failed nodes of a frontier, with their failures. -/
def failedNodes (frontier : GraphFrontierState) : List (GraphNodeId × String) :=
  frontier.nodes.filterMap fun node =>
    match node.settlement with
    | .failed failure => some (node.nodeId, failure)
    | _ => none

/-- `_child_failure_reason`. -/
def childFailureReason (state : GraphRunState) : Except ExecutionError String :=
  match failedNodes state.frontier with
  | [] => throw ⟨.resultCollection, "failed child state contains no failed frontier node"⟩
  | [failure] => return failure.2
  | failures => return "nested graph failed: " ++
      "; ".intercalate (failures.map (fun failure => failure.1 ++ ": " ++ failure.2))

/-- `_GraphRun.terminal_projection`. -/
def terminalProjection (typeOf : ν → τ) (graph : CompiledGraph τ) (scopeRun : ScopeRunCoordinate)
    (state : GraphRunState) (frames : ScopedFrameIndex ν σ)
    (currentSession : Option (AgentSession σ)) (parent : GraphActivationIdentity) :
    Except ExecutionError (ChildProjection ν) :=
  match state.status, state.abort with
  | .completed, _ => do
      let output ← projectGraphOutputs typeOf graph scopeRun state.superstep frames currentSession
      return .completed parent output state.completionRoute
  | .failed, _ => do
      let reason ← childFailureReason state
      return .failed parent reason
  | .aborted, some abort => return .aborted parent abort.reason
  | _, _ => throw ⟨.resultCollection, "child evidence is not terminal"⟩

/-- `_GraphRun.terminal_boundary`. -/
def terminalBoundary (graph : CompiledGraph τ) (scopeRun : ScopeRunCoordinate)
    (state : GraphRunState) (parent : GraphActivationIdentity) (terminal : ChildProjection ν) :
    Except ExecutionError (Option (ConfirmedChildBoundary ν)) := do
  raiseIf (state.parent ≠ some parent)
    ⟨.snapshotMismatch, "child terminal handoff does not match its parent activation"⟩
  match terminal with
  | .completed _ output _ =>
      return some ⟨⟨scopeRun, graph.graphOutputDescriptor.identity⟩, output⟩
  | _ => return none

/-! ## Nested results -/

/-- `plan_tasks`. -/
def planTasks (graph : CompiledGraph τ) (state : GraphRunState) (maxSupersteps : Nat) :
    Except ExecutionError (List GraphTask) := do
  requireSnapshotMatchesGraph graph state
  if state.status ≠ .running then
    return []
  raiseIf (maxSupersteps ≤ state.superstep)
    ⟨.executionLimit, "graph run reached its superstep limit"⟩
  return (pendingNodeIds state.frontier).map fun nodeId =>
    ⟨taskIdentity state.runId state.superstep nodeId, state.runId, state.superstep, nodeId⟩

/-- The result one child projection gives its task, if it is terminal. -/
def nestedResult (typeOf : ν → τ) (graph : CompiledGraph τ) (task : GraphTask) :
    ChildProjection ν → Except ExecutionError (Option (CompletedTask ν σ))
  | .missing _ => return none
  | .active _ => return none
  | .completed _ output route => do
      let frame ← nodeOutputFromView typeOf output
        (graph.transition.publications.getItem task.nodeId).declarations
      return some (.success task frame route none)
  | .failed _ reason => return some (.failure task reason)
  | .aborted _ reason => return some (.failure task reason)

theorem nestedResult_task {typeOf : ν → τ} {graph : CompiledGraph τ}
    {task : GraphTask} {projection : ChildProjection ν} {result : CompletedTask ν σ}
    (given : nestedResult typeOf graph task projection = .ok (some result)) :
    result.task = task := by
  cases projection with
  | missing parent => cases given
  | active parent => cases given
  | completed parent output route =>
      simp only [nestedResult, bind_eq_ok, pure_eq_ok, Except.ok.injEq, Option.some.injEq] at given
      obtain ⟨frame, -, rfl⟩ := given
      rfl
  | failed parent reason =>
      cases given
      rfl
  | aborted parent reason =>
      cases given
      rfl

/-- `nested_results` of `prepare_frontier`. -/
def prepareNestedResults (typeOf : ν → τ) (graph : CompiledGraph τ) (state : GraphRunState)
    (maxSupersteps : Nat) (projections : List (ChildProjection ν)) :
    Except ExecutionError (List (CompletedTask ν σ)) := do
  let tasks ← planTasks graph state maxSupersteps
  let nestedTasks := tasks.filter (fun task => (graph.nestedGraphs.map Prod.fst).contains task.nodeId)
  raiseIf (projections.map ChildProjection.parent ≠
      nestedTasks.map (fun task => ⟨task.runId, task.superstep, task.nodeId⟩))
    ⟨.resultCollection,
      "child projections must exactly and canonically cover pending nested activations"⟩
  let results ← (nestedTasks.zip projections).mapM
    (fun pair => nestedResult typeOf graph pair.1 pair.2)
  return results.filterMap id

end MoteKernel
