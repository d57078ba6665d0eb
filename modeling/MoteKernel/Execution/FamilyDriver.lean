import MoteKernel.Lib.Trace
import MoteKernel.Execution.ChildProjection

/-!
# The family driver

`execution/family_driver.py`. The scopes of one invocation share one Session
owner, whose lock serializes the preparation and the confirmation of their
transitions. The owner of a scope installs a confirmed transition only when its
own task runs again, so steps of other scopes may stand between the two.
-/

namespace MoteKernel
open Checked

variable {τ ν σ : Type}

/-! ## Scopes -/

/-- `project_start_graph_command`. -/
def projectStartGraphCommand (graph : CompiledGraph τ) (runId : GraphRunId)
    (parent : Option GraphActivationIdentity) (configCursor : Option GraphConfigCursor) :
    Except ExecutionError StartGraphRun := do
  raiseIf (∃ activation ∈ parent,
      runId ≠ childGraphRunId activation.runId activation.superstep activation.nodeId)
    ⟨.snapshotMismatch, "child graph run identity does not match its parent activation"⟩
  return { runId := runId
           definitionId := graph.definitionId
           definitionVersion := graph.version
           activations := graph.transition.entries.map (fun nodeId => ⟨nodeId, .start⟩)
           parent := parent
           resumeInputCodec := graph.resumeInput.map (fun codec => ⟨codec.codecId, codec.version⟩)
           configCursor := configCursor }

/-- `require_scoped_snapshot_matches_graph`. -/
def requireScopedSnapshotMatchesGraph (graph : CompiledGraph τ) (state : GraphRunState)
    (scopeRun : ScopeRunCoordinate) : Except ExecutionError Unit := do
  requireSnapshotMatchesGraph graph state
  raiseIf (state.runId ≠ scopeRun.graphRunId)
    ⟨.snapshotMismatch, "scope-run coordinate does not match its compiled graph state"⟩
  match scopeRun.scope.getLast? with
  | none =>
      raiseIf (state.parent ≠ none)
        ⟨.snapshotMismatch, "root graph state cannot carry a parent activation"⟩
  | some nodeId =>
      raiseIf (state.parent.map (·.nodeId) ≠ some nodeId)
        ⟨.snapshotMismatch, "nested graph state does not match its runtime scope"⟩

/-- `ScopedStateBinding.parent_activation`. -/
def scopedParentActivation (scopeRun : ScopeRunCoordinate) (state : GraphRunState) :
    Except ExecutionError (Option StableActivation) := do
  raiseIf (state.runId ≠ scopeRun.graphRunId)
    ⟨.snapshotMismatch, "scope-run coordinate does not match its graph state"⟩
  match state.parent with
  | none =>
      raiseIf (scopeRun.scope ≠ []) ⟨.snapshotMismatch,
        "nested graph state does not match its runtime scope: missing its parent activation"⟩
      return none
  | some parent =>
      raiseIf (scopeRun.scope = [])
        ⟨.snapshotMismatch, "root graph state cannot carry a parent activation"⟩
      let activation ← parentActivationForChild scopeRun parent
      return some activation

/-- `_GraphRun`: the live owner of one scoped run. -/
structure GraphRunOwner (τ ν σ : Type) where
  graph : CompiledGraph τ
  state : GraphRunState
  frames : ScopedFrameIndex ν σ

/-- The checks of `_GraphRun.__init__`. -/
def requireOwner (graph : CompiledGraph τ) (state : GraphRunState)
    (scopeRun : ScopeRunCoordinate) : Except ExecutionError Unit := do
  requireScopedSnapshotMatchesGraph graph state scopeRun
  let _ ← scopedParentActivation scopeRun state
  return ()

/-- What an invocation holds of one scope: nothing, its live owner, or a confirmed run whose
owner could not be constructed. -/
inductive ScopePhase (τ ν σ : Type) where
  | absent
  | owned (owner : GraphRunOwner τ ν σ)
  | unowned (graph : CompiledGraph τ) (state : GraphRunState)

namespace ScopePhase

/-- The last installed state of a scope. -/
def state : ScopePhase τ ν σ → Option GraphRunState
  | absent => none
  | owned owner => some owner.state
  | unowned _ state => some state

/-- The frame index of a scope; one without an owner has no frames. -/
def frames : ScopePhase τ ν σ → ScopedFrameIndex ν σ
  | owned owner => owner.frames
  | _ => {}

end ScopePhase

/-! ## Preparation -/

/-- One transaction of a scope: `_start_fresh_owner` and its cleanup, `_transition`, and
`apply_admission_resume`. -/
inductive TransitionRequest (τ ν σ : Type) where
  | start (graph : CompiledGraph τ) (parent : Option GraphActivationIdentity) (input : Frame ν)
  | cleanup (reason : String)
  | transition (command : GraphRunCommand) (result : Option (CompletedTask ν σ))
  | resume (command : GraphRunCommand) (successor : GraphRunState)
      (inputs : List (AdmittedResumeInput ν σ))

namespace TransitionRequest

/-- The explicit Session successor of a request. -/
def successor : TransitionRequest τ ν σ → Option (AgentSession σ)
  | transition _ result => result.bind CompletedTask.successor
  | _ => none

/-- The resume inputs a request admits. -/
def resumeInputs : TransitionRequest τ ν σ → List (AdmittedResumeInput ν σ)
  | resume _ _ inputs => inputs
  | _ => []

end TransitionRequest

/-- What the requester does with a confirmed state. -/
inductive Installation (τ ν σ : Type) where
  | construct (graph : CompiledGraph τ) (frames : ScopedFrameIndex ν σ)
  | replace (graph : CompiledGraph τ) (frames : ScopedFrameIndex ν σ)
  | discard (graph : CompiledGraph τ)

/-- A prepared transition, with the Session it selected and what its requester stages. -/
structure StagedTransition (τ ν σ : Type) where
  request : TransitionRequest τ ν σ
  selected : Option (AgentSession σ)
  transition : GraphTransition ν σ
  installation : Installation τ ν σ

inductive FamilyError where
  | notDriven
  | transition (error : TransitionError)
  deriving DecidableEq, Repr

/-- `project_resume_frames`. -/
def projectResumeFrames (frames : ScopedFrameIndex ν σ)
    (inputs : List (AdmittedResumeInput ν σ)) : Except ExecutionError (ScopedFrameIndex ν σ) :=
  rethrow (fun _ => ⟨.frameInstallationInvariant,
      "admitted resume frames failed owner-local projection"⟩)
    (inputs.foldlM ScopedFrameIndex.addResumeInput frames)

/-- `replace_graph_input_config` of a start: the Config of the family Session, if there is one. -/
def effectiveInput (input : Frame ν) : Option (AgentSession σ) → Frame ν
  | none => input
  | some session => { input with activationConfig := session.config }

/-- `prepare_start`. -/
def prepareStart (scopeRun : ScopeRunCoordinate) (graph : CompiledGraph τ)
    (parent : Option GraphActivationIdentity) (input : Frame ν)
    (selected : Option (AgentSession σ)) :
    Except TransitionError (GraphTransition ν σ × Installation τ ν σ) := do
  let effective := effectiveInput input selected
  let command ← rethrow TransitionError.execution (projectStartGraphCommand graph
    scopeRun.graphRunId parent (effective.activationConfig.map ActivationConfig.configCursor))
  let transition ← prepareTransition graph scopeRun none (.start command) none none
    (some effective) selected
  let frames ← rethrow TransitionError.execution (applyCommitWrites {} transition.writes)
  return (transition, .construct graph frames)

/-- `prepare_scoped` of a command that stages its own writes. -/
def prepareScoped (scopeRun : ScopeRunCoordinate) (owner : GraphRunOwner τ ν σ)
    (command : GraphRunCommand) (result : Option (CompletedTask ν σ))
    (selected : Option (AgentSession σ)) :
    Except TransitionError (GraphTransition ν σ × Installation τ ν σ) := do
  let transition ← prepareTransition owner.graph scopeRun (some owner.state) command result none
    none selected
  let frames ← rethrow TransitionError.execution
    (applyCommitWrites owner.frames transition.writes)
  return (transition, .replace owner.graph frames)

/-- `prepare_scoped` of an admitted resume, which installs `confirmed_frames`. -/
def prepareResume (scopeRun : ScopeRunCoordinate) (owner : GraphRunOwner τ ν σ)
    (command : GraphRunCommand) (successor : GraphRunState)
    (inputs : List (AdmittedResumeInput ν σ)) (selected : Option (AgentSession σ)) :
    Except TransitionError (GraphTransition ν σ × Installation τ ν σ) := do
  let confirmedFrames ← rethrow TransitionError.execution
    (projectResumeFrames owner.frames inputs)
  let transition ← prepareTransition owner.graph scopeRun (some owner.state) command none
    (some successor) none selected
  raiseIf (transition.writes.graphInputs.isEmpty = false ∨
      transition.writes.publications.isEmpty = false)
    (TransitionError.execution ⟨.frameInstallationInvariant,
      "a transition cannot stage frames and an admitted frame snapshot"⟩)
  return (transition, .replace owner.graph confirmedFrames)

/-- The cleanup of `_start_fresh_owner`. -/
def prepareCleanup (scopeRun : ScopeRunCoordinate) (graph : CompiledGraph τ)
    (state : GraphRunState) (reason : String) (selected : Option (AgentSession σ)) :
    Except TransitionError (GraphTransition ν σ × Installation τ ν σ) := do
  let transition ← prepareTransition graph scopeRun (some state)
    (.abort ⟨state.revision, reason⟩) none none none selected
  return (transition, .discard graph)

/-- The `prepare` argument of `_FamilySessionOwner.confirm`. -/
def prepareRequest (scopeRun : ScopeRunCoordinate) (phase : ScopePhase τ ν σ)
    (request : TransitionRequest τ ν σ) (selected : Option (AgentSession σ)) :
    Except FamilyError (GraphTransition ν σ × Installation τ ν σ) :=
  match request, phase with
  | .start graph parent input, .absent =>
      rethrow FamilyError.transition (prepareStart scopeRun graph parent input selected)
  | .cleanup reason, .unowned graph state =>
      rethrow FamilyError.transition (prepareCleanup scopeRun graph state reason selected)
  | .transition command result, .owned owner =>
      rethrow FamilyError.transition (prepareScoped scopeRun owner command result selected)
  | .resume command successor inputs, .owned owner =>
      rethrow FamilyError.transition
        (prepareResume scopeRun owner command successor inputs selected)
  | _, _ => throw .notDriven

/-! ## The family -/

/-- One confirmed transition of a scope, with the state its commit returned. -/
structure ConfirmedTransition (τ ν σ : Type) where
  scopeRun : ScopeRunCoordinate
  staged : StagedTransition τ ν σ
  state : GraphRunState

/-- The scopes of one invocation and their shared Session owner. `held` is the transition whose
commit the lock's holder awaits, `awaiting` the confirmed ones not installed yet, and `journal`
what the store has confirmed so far. -/
structure Family (τ ν σ : Type) where
  session : Option (AgentSession σ)
  phases : ScopeRunCoordinate → ScopePhase τ ν σ
  held : Option (ScopeRunCoordinate × StagedTransition τ ν σ) := none
  awaiting : ScopeRunCoordinate → Option (ConfirmedTransition τ ν σ) := fun _ => none
  journal : List (ConfirmedTransition τ ν σ) := []

inductive FamilyStep (τ ν σ : Type) where
  | prepare (scopeRun : ScopeRunCoordinate) (request : TransitionRequest τ ν σ)
  | answer (reply : Option GraphRunState)
  | install (scopeRun : ScopeRunCoordinate)
  | handoff (scopeRun childScopeRun : ScopeRunCoordinate)

namespace Family

/-- `_FamilySessionOwner.confirm` up to its `await`. A scope prepares one transition at a time:
its driver awaits each one to its installation. The check that the transition carries the selected
Session never fires, since `prepare_transition` was given it. -/
def prepare (family : Family τ ν σ) (scopeRun : ScopeRunCoordinate)
    (request : TransitionRequest τ ν σ) : Except FamilyError (Family τ ν σ) := do
  raiseIf (family.held.isSome ∨ (family.awaiting scopeRun).isSome) FamilyError.notDriven
  let selected := request.successor.or family.session
  let (transition, installation) ← prepareRequest scopeRun (family.phases scopeRun) request selected
  return { family with held := some (scopeRun, ⟨request, selected, transition, installation⟩) }

/-- `scoped_commit` and `confirm_transition` on the reply of the store. -/
def confirmScoped (scopeRun : ScopeRunCoordinate) (transition : GraphTransition ν σ)
    (reply : Option GraphRunState) : Except GraphCommitError GraphRunState := do
  rethrow GraphCommitError.refused (requireScopedTransition scopeRun transition)
  confirmTransition transition reply

/-- `_FamilySessionOwner.confirm` from the reply of the store on. A failed commit only frees the
lock. -/
def answer (family : Family τ ν σ) (reply : Option GraphRunState) :
    Except FamilyError (Family τ ν σ) :=
  match family.held with
  | none => throw .notDriven
  | some (scopeRun, staged) =>
      match confirmScoped scopeRun staged.transition reply with
      | .error _ => return { family with held := none }
      | .ok state =>
          let confirmed : ConfirmedTransition τ ν σ := ⟨scopeRun, staged, state⟩
          return { family with
            session := staged.selected
            held := none
            awaiting := Function.update family.awaiting scopeRun (some confirmed)
            journal := family.journal ++ [confirmed] }

/-- The phase of a scope once its requester has run again. -/
def installed (confirmed : ConfirmedTransition τ ν σ) : ScopePhase τ ν σ :=
  match confirmed.staged.installation with
  | .construct graph frames =>
      match requireOwner graph confirmed.state confirmed.scopeRun with
      | .ok _ => .owned ⟨graph, confirmed.state, frames⟩
      | .error _ => .unowned graph confirmed.state
  | .replace graph frames => .owned ⟨graph, confirmed.state, frames⟩
  | .discard graph => .unowned graph confirmed.state

/-- The requester of a scope runs again: the rest of `_transition`, or of `_start_fresh_owner`. -/
def install (family : Family τ ν σ) (scopeRun : ScopeRunCoordinate) :
    Except FamilyError (Family τ ν σ) :=
  match family.awaiting scopeRun with
  | none => throw .notDriven
  | some confirmed => return { family with
      phases := Function.update family.phases scopeRun (installed confirmed)
      awaiting := Function.update family.awaiting scopeRun none }

variable [DecidableEq τ] (typeOf : ν → τ)

/-- The end of `_drive_child`: the child has stopped, and `_install_terminal` adds its boundary
to the frames of the parent. -/
def handoff (family : Family τ ν σ) (scopeRun childScopeRun : ScopeRunCoordinate) :
    Except FamilyError (Family τ ν σ) :=
  match family.phases scopeRun, family.phases childScopeRun, family.awaiting childScopeRun with
  | .owned owner, .owned child, none =>
      rethrow (fun error => FamilyError.transition (.execution error)) do
        let parent ← orRaise
          ⟨.resultCollection, "child call phase does not match its parent activation"⟩
          child.state.parent
        let coordinate ← childScopeRunForActivation scopeRun parent
        raiseIf (coordinate ≠ childScopeRun) ⟨.snapshotMismatch,
          "child terminal handoff does not match its parent activation"⟩
        let terminal ← terminalProjection typeOf child.graph childScopeRun child.state child.frames
          family.session parent
        let boundary ← terminalBoundary child.graph childScopeRun child.state parent terminal
        match boundary with
        | none => return family
        | some record =>
            let frames ← owner.frames.addChildBoundary record
            return { family with
              phases := Function.update family.phases scopeRun
                (.owned { owner with frames := frames }) }
  | _, _, _ => throw .notDriven

/-- One step of an invocation. -/
def step (family : Family τ ν σ) : FamilyStep τ ν σ → Except FamilyError (Family τ ν σ)
  | .prepare scopeRun request => family.prepare scopeRun request
  | .answer reply => family.answer reply
  | .install scopeRun => family.install scopeRun
  | .handoff scopeRun childScopeRun => family.handoff typeOf scopeRun childScopeRun

end Family

end MoteKernel
