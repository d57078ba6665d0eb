import MoteKernel.Execution.Frames
import MoteKernel.State.Confirmation

/-!
# Graph transitions and their commits

`execution/commit.py`, with the results of `execution/result.py` that a commit
carries. The seals that only the owning module can produce are left out: here a
value is built by the function that owns it.
-/

namespace MoteKernel
open Checked Canonical

variable {τ ν σ : Type}

/-- What a transition raises: a reducer error, or an execution error. -/
inductive TransitionError where
  | state (error : GraphStateError)
  | execution (error : ExecutionError)
  deriving DecidableEq, Repr

/-! ## Results -/

/-- `TaskResult` with the output frame and the explicit Session successor of a success. -/
inductive CompletedTask (ν σ : Type) where
  | success (task : GraphTask) (output : Frame ν) (route : Option GraphRouteId)
      (session : Option (AgentSession σ))
  | failure (task : GraphTask) (failure : String)
  | interrupt (task : GraphTask) (requestPayload : Bytes)
  deriving DecidableEq, Repr

namespace CompletedTask

def task : CompletedTask ν σ → GraphTask
  | .success task _ _ _ => task
  | .failure task _ => task
  | .interrupt task _ => task

/-- What settlement reads of a result. -/
def result : CompletedTask ν σ → TaskResult
  | .success task output route _ => .success task output.activationConfig route
  | .failure task text => .failure task text
  | .interrupt task requestPayload => .interrupt task requestPayload

/-- The Session successor a result carries. -/
def successor : CompletedTask ν σ → Option (AgentSession σ)
  | .success _ _ _ session => session
  | _ => none

end CompletedTask

structure GraphInputEvidence (ν : Type) where
  coordinate : GraphInputAvailabilityCoordinate
  frame : Frame ν
  deriving DecidableEq, Repr

structure GraphPublicationEvidence (ν : Type) where
  coordinate : PublicationAvailabilityCoordinate
  frame : Frame ν
  provenance : ExecutionPublicationProvenance
  deriving DecidableEq, Repr

/-- `GraphCommitResult`. -/
inductive GraphCommitResult (ν : Type) where
  | success (nodeId : GraphNodeId) (publication : GraphPublicationEvidence ν)
      (route : Option GraphRouteId)
  | failure (nodeId : GraphNodeId) (failure : String)
  | interrupt (nodeId : GraphNodeId) (requestPayload : Bytes)
  deriving DecidableEq, Repr

namespace GraphCommitResult

def nodeId : GraphCommitResult ν → GraphNodeId
  | .success nodeId _ _ => nodeId
  | .failure nodeId _ => nodeId
  | .interrupt nodeId _ => nodeId

/-- `GraphCommitWriteSet.publications`, for one settlement. -/
def publications : GraphCommitResult ν → List (GraphPublicationEvidence ν)
  | .success _ publication _ => [publication]
  | _ => []

end GraphCommitResult

/-! ## Transitions -/

structure GraphCommitKey where
  runId : GraphRunId
  revision : Nat
  deriving DecidableEq, Repr

structure GraphCommitWriteSet (ν : Type) where
  commitKey : GraphCommitKey
  graphInputs : List (GraphInputEvidence ν) := []
  settlement : Option (GraphCommitResult ν) := none
  deriving DecidableEq, Repr

/-- `GraphCommitWriteSet.publications`. -/
def GraphCommitWriteSet.publications (writes : GraphCommitWriteSet ν) :
    List (GraphPublicationEvidence ν) :=
  (writes.settlement.map GraphCommitResult.publications).getD []

structure GraphTransition (ν σ : Type) where
  scope : List GraphNodeId
  previousState : Option GraphRunState
  command : GraphRunCommand
  candidateState : GraphRunState
  writes : GraphCommitWriteSet ν
  agentSession : Option (AgentSession σ) := none
  deriving DecidableEq, Repr

/-- The publication records of a candidate at the activation one outcome settles. -/
def settledMatches (candidate : GraphRunState) (nodeId : GraphNodeId) :
    List GraphPublicationSettlement :=
  candidate.settledPublications.filter
    (·.reference.activation = ⟨candidate.runId, candidate.superstep, nodeId⟩)

/-- A success binds its publication evidence into the candidate's one record of it. -/
def requireSettledPublication (candidate : GraphRunState) (command : SettleGraphNode) :
    Except ExecutionError Unit :=
  match command.outcome with
  | .succeeded nodeId _ =>
      match settledMatches candidate nodeId with
      | [record] =>
          raiseIf (record.commitRevision ≠ candidate.revision ∨
              record.execution ≠ command.execution ∨
              record.evidence ≠ command.publicationEvidence)
            ⟨.snapshotMismatch,
              "successful settlement candidate is not bound to its publication evidence"⟩
      | _ => throw ⟨.snapshotMismatch,
          "successful settlement candidate is not bound to its publication evidence"⟩
  | _ => throw ⟨.snapshotMismatch,
      "successful settlement evidence requires a successful state outcome"⟩

/-- The settlement part of `GraphTransition.__post_init__`. -/
def validateSettlementWrites (candidate : GraphRunState) (writes : GraphCommitWriteSet ν)
    (command : SettleGraphNode) : Except ExecutionError Unit := do
  let mismatch : ExecutionError :=
    ⟨.snapshotMismatch, "settlement evidence does not match its command"⟩
  match writes.settlement with
  | none => throw mismatch
  | some settlement =>
      raiseIf (settlement.nodeId ≠ command.outcome.nodeId) mismatch
      match settlement with
      | .success _ _ _ => requireSettledPublication candidate command
      | _ => return ()

/-- `GraphTransition.__post_init__`. -/
def GraphTransition.postInit (transition : GraphTransition ν σ) : Except ExecutionError Unit := do
  let candidate := transition.candidateState
  let writes := transition.writes
  raiseIf (writes.commitKey.runId ≠ candidate.runId ∨
      writes.commitKey.revision ≠ candidate.revision)
    ⟨.snapshotMismatch, "graph write set is not bound to the candidate state"⟩
  match transition.command with
  | .start command => do
      raiseIf (writes.settlement ≠ none)
        ⟨.snapshotMismatch, "StartGraphRun cannot carry settlement output evidence"⟩
      raiseIf (writes.graphInputs.length ≠ 1)
        ⟨.snapshotMismatch, "StartGraphRun requires exactly one graph input evidence"⟩
      raiseIf (candidate.graphInputEvidence ≠ command.graphInputEvidence)
        ⟨.snapshotMismatch, "StartGraphRun candidate is not bound to its graph input evidence"⟩
  | .settle command => do
      raiseIf (writes.graphInputs ≠ [])
        ⟨.snapshotMismatch, "only StartGraphRun can carry graph input evidence"⟩
      validateSettlementWrites candidate writes command
  | _ => do
      raiseIf (writes.graphInputs ≠ [])
        ⟨.snapshotMismatch, "only StartGraphRun can carry graph input evidence"⟩
      raiseIf (writes.settlement ≠ none)
        ⟨.snapshotMismatch, "only SettleGraphNode can carry settlement evidence"⟩

/-- The Session check of `prepare_transition`: a start and its Session name one Config. -/
def requireSessionConfig (command : GraphRunCommand) (candidate : GraphRunState) :
    Option (AgentSession σ) → Except ExecutionError Unit
  | none => return ()
  | some session =>
      match command with
      | .start _ => raiseIf (session.configCursor ≠
            if candidate.configDigest ≠ none then some candidate.configCursor else none)
          ⟨.snapshotMismatch, "Graph candidate Config does not match its AgentSession"⟩
      | _ => return ()

/-- `input_evidence` of `prepare_transition`. -/
def inputEvidence (graph : CompiledGraph τ) (scopeRun : ScopeRunCoordinate)
    (command : GraphRunCommand) (graphInput : Option (Frame ν)) :
    Except ExecutionError (List (GraphInputEvidence ν)) :=
  match command, graphInput with
  | .start _, some frame => return [⟨graphInputAvailabilityCoordinate graph scopeRun, frame⟩]
  | .start _, none => throw
      ⟨.frameInstallationInvariant, "StartGraphRun requires graph input evidence"⟩
  | _, some _ => throw
      ⟨.frameInstallationInvariant, "only StartGraphRun can carry graph input evidence"⟩
  | _, none => return []

/-- `_commit_result` of one result, with the publication of a success. -/
def commitResult (graph : CompiledGraph τ) (scopeRun : ScopeRunCoordinate)
    (execution : GraphExecutionToken) :
    CompletedTask ν σ → Except ExecutionError (GraphCommitResult ν)
  | .success task output route _ => do
      let coordinate ← publicationAvailabilityCoordinate graph scopeRun
        ⟨task.runId, task.superstep, task.nodeId⟩
      return .success task.nodeId ⟨coordinate, output, ⟨execution⟩⟩ route
  | .failure task failure => return .failure task.nodeId failure
  | .interrupt task requestPayload => return .interrupt task.nodeId requestPayload

/-- `settlement` of the write set that `prepare_transition` builds. -/
def settlementEvidence (graph : CompiledGraph τ) (scopeRun : ScopeRunCoordinate)
    (candidate : GraphRunState) (command : GraphRunCommand)
    (result : Option (CompletedTask ν σ)) : Except ExecutionError (Option (GraphCommitResult ν)) :=
  match command, result with
  | .settle _, none => throw
      ⟨.frameInstallationInvariant, "SettleGraphNode requires settlement evidence"⟩
  | .settle command, some completed => do
      raiseIf (completed.task.runId ≠ candidate.runId ∨
          completed.task.superstep ≠ candidate.superstep ∨
          completed.task.nodeId ≠ command.outcome.nodeId)
        ⟨.snapshotMismatch, "settlement result does not match its command coordinates"⟩
      let committed ← commitResult graph scopeRun command.execution completed
      return some committed
  | _, some _ => throw
      ⟨.frameInstallationInvariant, "only SettleGraphNode can carry settlement evidence"⟩
  | _, none => return none

/-- `prepare_transition`. -/
def prepareTransition (graph : CompiledGraph τ) (scopeRun : ScopeRunCoordinate)
    (previous : Option GraphRunState) (command : GraphRunCommand)
    (result : Option (CompletedTask ν σ)) (admittedSuccessor : Option GraphRunState)
    (graphInput : Option (Frame ν)) (agentSession : Option (AgentSession σ)) :
    Except TransitionError (GraphTransition ν σ) := do
  let candidate ← rethrow TransitionError.state (reduceGraphRun previous command)
  rethrow TransitionError.execution do
    let admissionError ← transitionAdmissionError graph previous command candidate
    match admissionError with
    | none => return ()
    | some text => throw ⟨.snapshotMismatch, text⟩
  rethrow TransitionError.execution (requireSessionConfig command candidate agentSession)
  raiseIf (∃ successor ∈ admittedSuccessor, candidate ≠ successor)
    (TransitionError.execution ⟨.frameInstallationInvariant,
      "owner resume candidate does not match its admitted successor"⟩)
  let graphInputs ← rethrow TransitionError.execution
    (inputEvidence graph scopeRun command graphInput)
  let settlement ← rethrow TransitionError.execution
    (settlementEvidence graph scopeRun candidate command result)
  let transition : GraphTransition ν σ :=
    ⟨scopeRun.scope, previous, command, candidate,
      ⟨⟨candidate.runId, candidate.revision⟩, graphInputs, settlement⟩, agentSession⟩
  rethrow TransitionError.execution transition.postInit
  return transition

/-- The command of `bind_transition_evidence`, with its commitment. -/
def bindCommand (command : GraphRunCommand)
    (graphInput publication : Option GraphEvidenceCommitment) :
    Except ExecutionError GraphRunCommand :=
  match command, graphInput, publication with
  | .start command, some graphInput, none => do
      rethrow (fun text => ⟨.value, text⟩) graphInput.admitted
      raiseIf (command.graphInputEvidence ≠ none ∧ command.graphInputEvidence ≠ some graphInput)
        ⟨.snapshotMismatch, "StartGraphRun graph input commitment cannot be replaced"⟩
      return .start { command with graphInputEvidence := some graphInput }
  | .start _, _, _ => throw
      ⟨.snapshotMismatch, "StartGraphRun requires exactly one graph input commitment"⟩
  | .settle ⟨revision, execution, .succeeded nodeId routing, cursor, evidence⟩, none,
      some publication => do
      rethrow (fun text => ⟨.value, text⟩) publication.admitted
      raiseIf (evidence ≠ none ∧ evidence ≠ some publication)
        ⟨.snapshotMismatch, "settlement publication commitment cannot be replaced"⟩
      return .settle ⟨revision, execution, .succeeded nodeId routing, cursor, some publication⟩
  | .settle ⟨_, _, .succeeded _ _, _, _⟩, _, _ => throw
      ⟨.snapshotMismatch, "successful settlement requires exactly one publication commitment"⟩
  | command, none, none => return command
  | _, _, _ => throw
      ⟨.snapshotMismatch, "only value-producing transitions can bind durable evidence"⟩

/-- `bind_transition_evidence`. A transition that binds nothing is returned as it is. -/
def bindTransitionEvidence (transition : GraphTransition ν σ)
    (graphInput publication : Option GraphEvidenceCommitment) :
    Except TransitionError (GraphTransition ν σ) := do
  let command ← rethrow TransitionError.execution
    (bindCommand transition.command graphInput publication)
  if graphInput = none ∧ publication = none then
    return transition
  let candidate ← rethrow TransitionError.state (reduceGraphRun transition.previousState command)
  let bound := { transition with command := command, candidateState := candidate }
  rethrow TransitionError.execution bound.postInit
  return bound

/-! ## Confirmation -/

/-- `GraphCommitError`: the store raised, or its answer was refused. -/
inductive GraphCommitError where
  | raised
  | refused (error : ExecutionError)
  deriving DecidableEq, Repr

/-- `confirm_transition`; `answer` is what the commit port returned or raised. -/
def confirmTransition (transition : GraphTransition ν σ) (answer : Option GraphRunState) :
    Except GraphCommitError GraphRunState :=
  match answer with
  | none => throw .raised
  | some confirmed =>
      rethrow (fun _ => .refused ⟨.snapshotMismatch,
        "commit must return the exact authoritative reducer successor"⟩) do
        validateGraphRunState confirmed
        admitGraphRunConfirmation transition.previousState transition.command confirmed

/-- The guard of `scoped_commit`. -/
def requireScopedTransition (scopeRun : ScopeRunCoordinate) (transition : GraphTransition ν σ) :
    Except ExecutionError Unit :=
  raiseIf (transition.scope ≠ scopeRun.scope ∨
      transition.candidateState.runId ≠ scopeRun.graphRunId ∨
      ∃ previous ∈ transition.previousState, previous.runId ≠ scopeRun.graphRunId)
    ⟨.snapshotMismatch, "owner commit received a transition for a different scoped graph run"⟩

/-- The record a graph-input evidence is installed as. -/
def GraphInputEvidence.record (evidence : GraphInputEvidence ν) : AdmittedGraphInput ν :=
  ⟨evidence.coordinate, evidence.frame⟩

/-- The record a publication evidence is installed as. -/
def GraphPublicationEvidence.record (evidence : GraphPublicationEvidence ν) (revision : Nat) :
    ConfirmedPublication ν :=
  ⟨evidence.coordinate, evidence.frame, revision, evidence.provenance⟩

/-- `apply_commit_writes`. -/
def applyCommitWrites (frames : ScopedFrameIndex ν σ) (writes : GraphCommitWriteSet ν) :
    Except ExecutionError (ScopedFrameIndex ν σ) := do
  let staged ← writes.graphInputs.foldlM
    (fun index evidence => index.addGraphInput evidence.record) frames
  writes.publications.foldlM
    (fun index evidence => index.addPublication (evidence.record writes.commitKey.revision)) staged

end MoteKernel
