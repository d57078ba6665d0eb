import MoteKernel.Execution.FamilyAtomicity
import MoteKernel.Execution.SettleOrder

/-!
# Settling a nested node

A child run starts with the Config cursor of its parent and advances it one
revision at a settlement. Its parent sees only the Config of the terminal
projection, in the one settlement of the nested node.
-/

namespace MoteKernel
open Checked

variable {τ ν σ : Type}

/-! ## Config lineage -/

/-- A cursor that settlements can lead to from `origin`. -/
structure GraphConfigCursor.Follows (origin cursor : GraphConfigCursor) : Prop where
  wellFormed : cursor.postInit = .ok ()
  definition : cursor.definitionId = origin.definitionId
  version : cursor.definitionVersion = origin.definitionVersion
  revision : origin.revision ≤ cursor.revision
  digest : cursor.revision = origin.revision →
    origin.digest = none ∨ cursor.digest = origin.digest

/-- The Config of a frame or Session, if it has one, follows `origin`. -/
def ConfigFollows (origin : GraphConfigCursor) (config : Option ActivationConfig) : Prop :=
  ∀ item ∈ config, origin.Follows item.configCursor

namespace GraphConfigCursor.Follows

variable {origin self candidate cursor : GraphConfigCursor}

theorem refl (wellFormed : origin.postInit = .ok ()) : origin.Follows origin :=
  ⟨wellFormed, rfl, rfl, le_refl _, fun _ => .inr rfl⟩

/-- What a settlement moves to from a cursor that follows `origin` follows `origin`. -/
theorem transition (follows : origin.Follows self) {digest : String}
    (known : candidate.digest = some digest) (moved : self.transitionTo candidate = .ok cursor) :
    origin.Follows candidate ∧ cursor = candidate := by
  refine ⟨?_, transitionTo_eq known moved⟩
  obtain ⟨wellFormed, definition, version, step⟩ := (transitionTo_eq_ok _ _ _).mp moved
  refine ⟨wellFormed, definition.trans follows.definition, version.trans follows.version, ?_, ?_⟩
  · have later := follows.revision
    rcases step with ⟨same, -⟩ | ⟨next, -⟩
    · omega
    · omega
  · intro atOrigin
    have later := follows.revision
    rcases step with ⟨same, compatible, -⟩ | ⟨next, -⟩
    · have selfAtOrigin : self.revision = origin.revision := by omega
      rcases follows.digest selfAtOrigin with missing | kept
      · exact .inl missing
      · rcases compatible with absent | unknown | agrees
        · exact .inl (kept ▸ absent)
        · simp [known] at unknown
        · exact .inr (agrees.trans kept)
    · omega

/-- From `origin` itself a settlement accepts exactly the revisions up to the next one. -/
theorem accepted_iff (follows : origin.Follows candidate) :
    (∃ cursor, origin.transitionTo candidate = .ok cursor) ↔
      candidate.revision ≤ origin.revision + 1 := by
  have later := follows.revision
  constructor
  · rintro ⟨cursor, moved⟩
    obtain ⟨-, -, -, ⟨same, -⟩ | ⟨next, -⟩⟩ := (transitionTo_eq_ok _ _ _).mp moved
    · omega
    · omega
  · intro near
    simp only [transitionTo_eq_ok, follows.wellFormed, follows.definition, follows.version,
      true_and]
    rcases Nat.lt_or_ge origin.revision candidate.revision with ahead | level
    · exact ⟨candidate, .inr ⟨by omega, rfl⟩⟩
    · have same : candidate.revision = origin.revision := by omega
      refine ⟨_, .inl ⟨same, ?_, rfl⟩⟩
      rcases follows.digest same with missing | agrees
      · exact .inl missing
      · exact .inr (.inr agrees)

end GraphConfigCursor.Follows

/-! ## The nested node of a parent -/

/-- A nested node holds no resources. -/
theorem nested_absent {graph : CompiledGraph τ} {state : GraphRunState} {nodeId : GraphNodeId}
    {definition : GraphDefinition τ} {inputs : List (InputBinding τ)}
    (nested : graph.nodes.get? nodeId = some (.nested nodeId definition inputs))
    (matched : requireResourceSnapshot graph state = .ok ()) :
    ∀ snapshot ∈ state.resources, nodeId ∉ ResourceReducer.participants snapshot := by
  intro snapshot member inside
  simp only [requireResourceSnapshot] at matched
  split at matched
  · simp only [raiseIf_eq_ok, ne_eq, not_not] at matched
    simp [matched] at member
  · simp only [bind_eq_ok, exists_unit, orRaise_eq_ok, raiseIf_eq_ok, ne_eq, not_not] at matched
    obtain ⟨resources, found, -, same⟩ := matched
    obtain rfl : snapshot = resources := Option.some.inj (member.symm.trans found)
    have required : nodeId ∈ (requiredResources graph state).keys := by
      rw [← same.mem_keys, Dict.mem_keys_build]
      exact inside
    simp [requiredResources, nested, GraphNode.resources] at required

/-- The command a success projects to. -/
def successSettlement (state : GraphRunState) (token : GraphExecutionToken) (nodeId : GraphNodeId)
    (route : Option GraphRouteId) (config : Option ActivationConfig) : SettleGraphNode :=
  ⟨state.revision, token, .succeeded nodeId (routingOf route),
    config.map ActivationConfig.configCursor, none⟩

/-- What `settle_result` has checked when it projects a success, and what it projects. -/
theorem settleResult_success {graph : CompiledGraph τ} {state : GraphRunState} {task : GraphTask}
    {config : Option ActivationConfig} {route : Option GraphRouteId} {command : SettleGraphNode}
    (projected : settleResult graph state (.success task config route) = .ok command) :
    ∃ token, state.execution = some ⟨token⟩ ∧ ValidRun state ∧
      requireResourceSnapshot graph state = .ok () ∧
      (∃ node ∈ frontierNode state.frontier task.nodeId, node.settlement.isPending = true) ∧
      command = successSettlement state token task.nodeId route config := by
  simp only [settleResult, bind_eq_ok, exists_unit, raiseIf_eq_ok, not_not] at projected
  obtain ⟨snapshot, _, -, -, pending, settled⟩ := projected
  simp only [projectSettlement, projectSuccessSettlement, bind_eq_ok, exists_unit, pure_eq_ok,
    requireSettlementExecutionToken, orRaise_eq_ok, Option.map_eq_some_iff,
    Except.ok.injEq] at settled
  obtain ⟨-, _, ⟨lease, leased, rfl⟩, rfl⟩ := settled
  simp only [requireSnapshotMatchesGraph, bind_eq_ok, exists_unit, rethrow_eq_ok,
    validateGraphRunState_eq_ok] at snapshot
  obtain ⟨valid, -, -, matched⟩ := snapshot
  have running := (valid.lease lease leased).running
  rw [if_neg (by simp [running])] at matched
  simp only [requireRunningSnapshot, bind_eq_ok, exists_unit, leased] at matched
  obtain ⟨-, declared, -, -, text, -, -, -, -, resources⟩ := matched
  exact ⟨lease.token, leased, valid, resources, pending, rfl⟩

/-- The settlement of a nested success is refused for nothing but its Config. -/
theorem nested_settle_iff {graph : CompiledGraph τ} {state : GraphRunState} {task : GraphTask}
    {config : Option ActivationConfig} {route : Option GraphRouteId} {command : SettleGraphNode}
    {definition : GraphDefinition τ} {inputs : List (InputBinding τ)}
    (nested : graph.nodes.get? task.nodeId = some (.nested task.nodeId definition inputs))
    (canonical : canonicalRoute route)
    (projected : settleResult graph state (.success task config route) = .ok command) :
    (∃ next, reduceGraphRun (some state) (.settle command) = .ok next) ↔
      ∃ cursor, settleConfigCursor state command = .ok cursor := by
  obtain ⟨token, leased, valid, matched, pending, rfl⟩ := settleResult_success projected
  have running := (valid.lease _ leased).running
  constructor
  · rintro ⟨next, reduced⟩
    obtain ⟨-, -, settlement, ledger, cursor, resources, settles, -, -⟩ :=
      reduceGraphRun_settle.mp reduced
    exact ⟨cursor, settles.cursor⟩
  · rintro ⟨cursor, moved⟩
    obtain ⟨node, found, isPending⟩ := pending
    have member := List.mem_of_find?_eq_some found
    have sameId : node.nodeId = task.nodeId := by simpa using List.find?_some found
    have unrecorded := valid.pending_unrecorded (by simp [running]) member isPending
    have outcome : OutcomeSettles state (successSettlement state token task.nodeId route config)
        (.succeeded (routingOf route))
        (recordPublication state.settledPublications ⟨activationReference state.runId
          state.superstep task.nodeId (routingOf route).route, state.revision + 1, token, none⟩) := by
      refine .succeeded task.nodeId (routingOf route) rfl ⟨valid.run, ?_, ?_⟩ ?_
      · rw [← sameId]
        exact valid.frontier.identities node member
      · cases route with
        | none => exact canonical
        | some route => exact canonical
      · intro recorded
        obtain ⟨item, inside, same⟩ := List.mem_map.mp recorded
        apply unrecorded item inside
        rw [same, sameId]
        rfl
    have settles : Settles state (successSettlement state token task.nodeId route config) _ _
        cursor state.resources :=
      ⟨running, leased, ⟨node, found, isPending⟩, outcome, moved,
        settleResources_other (nested_absent nested matched)⟩
    have wellFormed : WellFormedOutcome
        (successSettlement state token task.nodeId route config) :=
      ⟨by simp [successSettlement, ValidEvidence], by simp [successSettlement]⟩
    exact ⟨_, reduceGraphRun_settle.mpr ⟨valid, rfl, _, _, _, _, settles,
      settle_preserves valid settles wellFormed rfl, rfl⟩⟩

/-! ## Config of a run -/

theorem Confirms.configCursor {command : GraphRunCommand} {successor confirmed : GraphRunState}
    (confirms : Confirms command successor confirmed) :
    confirmed.configCursor = successor.configCursor := by
  cases confirms with
  | exact => rfl
  | annotated place commitment created vacant digest =>
      cases place with
      | graphInput => rfl
      | publication activation => rfl

/-- Only a settlement moves the Config cursor of a run. -/
theorem reduced_configCursor {state next : GraphRunState} {command : GraphRunCommand}
    (other : ∀ settle, command ≠ .settle settle)
    (reduced : reduceGraphRun (some state) command = .ok next) :
    next.configCursor = state.configCursor := by
  obtain ⟨updated, ⟨valid, -, moved, -⟩, rfl⟩ := (reduceGraphRun_some_eq_ok _ _ _).mp reduced
  cases command with
  | start command => cases moved
  | claim command =>
      obtain ⟨-, -, -, -, rfl⟩ := (claimGraphExecution_eq_ok _ _ _).mp moved
      rfl
  | fence command =>
      obtain ⟨-, -, rfl⟩ := (fenceGraphExecution_eq_ok _ _ _).mp moved
      rfl
  | settle command => exact absurd rfl (other command)
  | resume command =>
      obtain ⟨nodes, -, rfl⟩ := (resumeGraphNodes_eq_ok _ _ _).mp moved
      rfl
  | advance command =>
      obtain ⟨-, rfl⟩ := (advanceGraphFrontier_eq_ok valid.frontier.distinct _ _).mp moved
      rfl
  | complete command =>
      obtain ⟨-, rfl⟩ := (completeGraphFrontier_eq_ok _ _ _).mp moved
      rfl
  | abort command =>
      obtain ⟨-, -, rfl⟩ := (abortGraphRun_eq_ok _ _ _).mp moved
      rfl

/-- The frames of a prepared transition are the given input and the output of the given result. -/
theorem prepareTransition_writes {graph : CompiledGraph τ} {scopeRun : ScopeRunCoordinate}
    {previous : Option GraphRunState} {command : GraphRunCommand}
    {result : Option (CompletedTask ν σ)} {admittedSuccessor : Option GraphRunState}
    {graphInput : Option (Frame ν)} {session : Option (AgentSession σ)}
    {transition : GraphTransition ν σ}
    (prepared : prepareTransition graph scopeRun previous command result admittedSuccessor
      graphInput session = .ok transition) :
    transition.command = command ∧
      (∀ record ∈ transition.writes.inputRecords, graphInput = some record.frame) ∧
      (∀ record ∈ transition.writes.publicationRecords, ∃ task route successor,
        result = some (.success task record.frame route successor)) ∧
      (result = none → ∀ settle, command ≠ .settle settle) := by
  simp only [prepareTransition, bind_eq_ok, exists_unit, pure_eq_ok, Except.ok.injEq,
    rethrow_eq_ok] at prepared
  obtain ⟨candidate, -, -, -, -, inputs, admitted, settlement, settled, -, rfl⟩ := prepared
  refine ⟨rfl, ?_, ?_, ?_⟩
  · intro record member
    obtain ⟨evidence, inside, rfl⟩ := List.mem_map.mp member
    unfold inputEvidence at admitted
    split at admitted
    · obtain rfl := Except.ok.inj admitted
      obtain rfl := List.mem_singleton.mp inside
      rfl
    · cases admitted
    · cases admitted
    · obtain rfl := Except.ok.inj admitted
      cases inside
  · intro record member
    obtain ⟨evidence, inside, rfl⟩ := List.mem_map.mp member
    unfold settlementEvidence at settled
    split at settled
    · cases settled
    · rename_i settle completed
      simp only [bind_eq_ok, exists_unit, pure_eq_ok, Except.ok.injEq] at settled
      obtain ⟨-, committed, made, rfl⟩ := settled
      cases completed with
      | success task output route successor =>
          simp only [commitResult, bind_eq_ok, pure_eq_ok, Except.ok.injEq] at made
          obtain ⟨coordinate, -, rfl⟩ := made
          obtain rfl := List.mem_singleton.mp inside
          exact ⟨task, route, successor, rfl⟩
      | failure task text =>
          obtain rfl := Except.ok.inj made
          cases inside
      | interrupt task payload =>
          obtain rfl := Except.ok.inj made
          cases inside
    · cases settled
    · obtain rfl := Except.ok.inj settled
      cases inside
  · rintro rfl settle rfl
    cases settled

theorem confirmScoped_valid {scopeRun : ScopeRunCoordinate} {transition : GraphTransition ν σ}
    {reply : Option GraphRunState} {state : GraphRunState}
    (confirmed : Family.confirmScoped scopeRun transition reply = .ok state) : ValidRun state := by
  simp only [Family.confirmScoped, bind_eq_ok, exists_unit, rethrow_eq_ok] at confirmed
  obtain ⟨-, accepted⟩ := confirmed
  unfold confirmTransition at accepted
  split at accepted
  · cases accepted
  · simp only [rethrow_eq_ok, bind_eq_ok, exists_unit, admitGraphRunConfirmation_eq_ok,
      validateGraphRunState_eq_ok] at accepted
    obtain ⟨valid, rfl, -⟩ := accepted
    exact valid

/-! ## Child runs -/

/-- A result with an explicit Session successor carries the Config of that successor, as
`_project_outcome` leaves it. -/
def CompletedTask.ConfigOfSuccessor : CompletedTask ν σ → Prop
  | .success _ output _ (some session) => output.activationConfig = session.config
  | _ => True

/-- The run of one scope from a start with the cursor `origin`, with the family Session beside it:
its own transitions, the boundaries its nested runs hand to it, and transitions of other scopes,
which can move the Session on from `origin` only. -/
inductive NestedRun (scopeRun : ScopeRunCoordinate) (origin : GraphConfigCursor) :
    GraphRunOwner τ ν σ → Option (AgentSession σ) → Prop
  | start {graph : CompiledGraph τ} {parent : Option GraphActivationIdentity} {input : Frame ν}
      {session : Option (AgentSession σ)} {transition : GraphTransition ν σ}
      {frames : ScopedFrameIndex ν σ} {reply : Option GraphRunState} {state : GraphRunState}
      (prepared : prepareStart scopeRun graph parent input session =
        .ok (transition, .construct graph frames))
      (confirmed : Family.confirmScoped scopeRun transition reply = .ok state)
      (started : state.configCursor = origin) :
      NestedRun scopeRun origin ⟨graph, state, frames⟩ session
  | settle {owner : GraphRunOwner τ ν σ} {session : Option (AgentSession σ)}
      {completed : CompletedTask ν σ} {command : SettleGraphNode}
      {transition : GraphTransition ν σ} {graph : CompiledGraph τ}
      {frames : ScopedFrameIndex ν σ} {reply : Option GraphRunState} {state : GraphRunState}
      (run : NestedRun scopeRun origin owner session)
      (projected : settleResult owner.graph owner.state completed.result = .ok command)
      (successor : completed.ConfigOfSuccessor)
      (prepared : prepareScoped scopeRun owner (.settle command) (some completed)
        (completed.successor.or session) = .ok (transition, .replace graph frames))
      (confirmed : Family.confirmScoped scopeRun transition reply = .ok state) :
      NestedRun scopeRun origin ⟨graph, state, frames⟩ (completed.successor.or session)
  | control {owner : GraphRunOwner τ ν σ} {session : Option (AgentSession σ)}
      {command : GraphRunCommand} {transition : GraphTransition ν σ} {graph : CompiledGraph τ}
      {frames : ScopedFrameIndex ν σ} {reply : Option GraphRunState} {state : GraphRunState}
      (run : NestedRun scopeRun origin owner session)
      (prepared : prepareScoped scopeRun owner command none session =
        .ok (transition, .replace graph frames))
      (confirmed : Family.confirmScoped scopeRun transition reply = .ok state) :
      NestedRun scopeRun origin ⟨graph, state, frames⟩ session
  | resume {owner : GraphRunOwner τ ν σ} {session : Option (AgentSession σ)}
      {command : ResumeGraphNodes} {successor : GraphRunState}
      {inputs : List (AdmittedResumeInput ν σ)} {transition : GraphTransition ν σ}
      {graph : CompiledGraph τ} {frames : ScopedFrameIndex ν σ} {reply : Option GraphRunState}
      {state : GraphRunState} (run : NestedRun scopeRun origin owner session)
      (prepared : prepareResume scopeRun owner (.resume command) successor inputs session =
        .ok (transition, .replace graph frames))
      (confirmed : Family.confirmScoped scopeRun transition reply = .ok state) :
      NestedRun scopeRun origin ⟨graph, state, frames⟩ session
  | boundary {owner : GraphRunOwner τ ν σ} {session : Option (AgentSession σ)}
      {activation : GraphActivationIdentity} {record : ConfirmedChildBoundary ν}
      {frames : ScopedFrameIndex ν σ} (run : NestedRun scopeRun origin owner session)
      (nested : childScopeRunForActivation scopeRun activation =
        .ok record.coordinate.childScopeRun)
      (added : owner.frames.addChildBoundary record = .ok frames) :
      NestedRun scopeRun origin { owner with frames := frames } session
  | elsewhere {owner : GraphRunOwner τ ν σ} {session other : Option (AgentSession σ)}
      (run : NestedRun scopeRun origin owner session)
      (follows : ∀ item ∈ other, ConfigFollows origin item.config) :
      NestedRun scopeRun origin owner other

/-- Every Config such a run holds follows the cursor it was started with. -/
structure NestedRun.Traced (scopeRun : ScopeRunCoordinate) (origin : GraphConfigCursor)
    (owner : GraphRunOwner τ ν σ) (session : Option (AgentSession σ)) : Prop where
  valid : ValidRun owner.state
  cursor : origin.Follows owner.state.configCursor
  graphInputs : ∀ record ∈ owner.frames.graphInputs,
    ConfigFollows origin record.frame.activationConfig
  publications : ∀ record ∈ owner.frames.publications,
    ConfigFollows origin record.frame.activationConfig
  childBoundaries : ∀ record ∈ owner.frames.childBoundaries,
    record.coordinate.childScopeRun ≠ scopeRun
  session : ∀ item ∈ session, ConfigFollows origin item.config

/-- A nested scope is not the scope it is nested in. -/
theorem childScopeRunForActivation_ne {scopeRun child : ScopeRunCoordinate}
    {activation : GraphActivationIdentity}
    (nested : childScopeRunForActivation scopeRun activation = .ok child) : child ≠ scopeRun := by
  simp only [childScopeRunForActivation, childScopeRun, bind_eq_ok, exists_unit, pure_eq_ok,
    Except.ok.injEq] at nested
  obtain ⟨-, -, rfl⟩ := nested
  intro same
  have lengths := congrArg (fun coordinate => coordinate.scope.length) same
  simp at lengths

/-- A start records the Config of its effective input as the cursor of the run. -/
theorem prepareStart_ok {scopeRun : ScopeRunCoordinate} {graph : CompiledGraph τ}
    {parent : Option GraphActivationIdentity} {input : Frame ν}
    {session : Option (AgentSession σ)} {transition : GraphTransition ν σ}
    {installation : Installation τ ν σ}
    (prepared : prepareStart scopeRun graph parent input session =
      .ok (transition, installation)) :
    ∃ command frames, transition.previousState = none ∧ transition.command = .start command ∧
      command.configCursor = (effectiveInput input session).activationConfig.map
        ActivationConfig.configCursor ∧
      installation = .construct graph frames ∧
      ({} : ScopedFrameIndex ν σ).Extends transition.writes.inputRecords
        transition.writes.publicationRecords [] frames ∧
      (∀ record ∈ transition.writes.inputRecords, record.frame = effectiveInput input session) ∧
      transition.writes.publicationRecords = [] := by
  simp only [prepareStart, bind_eq_ok, rethrow_eq_ok, pure_eq_ok, Except.ok.injEq,
    Prod.mk.injEq] at prepared
  obtain ⟨command, projected, transition, made, frames, applied, rfl, rfl⟩ := prepared
  obtain ⟨previous, -⟩ := prepareTransition_ok made
  obtain ⟨kept, inputs, publications, -⟩ := prepareTransition_writes made
  have cursor : command.configCursor = (effectiveInput input session).activationConfig.map
      ActivationConfig.configCursor := by
    simp only [projectStartGraphCommand, bind_eq_ok, exists_unit, pure_eq_ok,
      Except.ok.injEq] at projected
    obtain ⟨-, rfl⟩ := projected
    rfl
  refine ⟨command, frames, previous, kept, cursor, rfl, applyCommitWrites_extends applied, ?_, ?_⟩
  · intro record member
    exact (Option.some.inj (inputs record member)).symm
  · rw [List.eq_nil_iff_forall_not_mem]
    intro record member
    obtain ⟨_, _, _, result⟩ := publications record member
    cases result

/-- A transition of an owner starts from its state and extends its frames. -/
theorem prepareScoped_ok {scopeRun : ScopeRunCoordinate} {owner : GraphRunOwner τ ν σ}
    {command : GraphRunCommand} {result : Option (CompletedTask ν σ)}
    {selected : Option (AgentSession σ)} {transition : GraphTransition ν σ}
    {installation : Installation τ ν σ}
    (prepared : prepareScoped scopeRun owner command result selected =
      .ok (transition, installation)) :
    ∃ frames, transition.previousState = some owner.state ∧ transition.command = command ∧
      installation = .replace owner.graph frames ∧
      owner.frames.Extends [] transition.writes.publicationRecords [] frames ∧
      (∀ record ∈ transition.writes.publicationRecords, ∃ task route successor,
        result = some (.success task record.frame route successor)) ∧
      (result = none → ∀ settle, command ≠ .settle settle) := by
  simp only [prepareScoped, bind_eq_ok, rethrow_eq_ok, pure_eq_ok, Except.ok.injEq,
    Prod.mk.injEq] at prepared
  obtain ⟨transition, made, frames, applied, rfl, rfl⟩ := prepared
  obtain ⟨previous, -⟩ := prepareTransition_ok made
  obtain ⟨kept, inputs, publications, control⟩ := prepareTransition_writes made
  have extended := applyCommitWrites_extends applied
  have noInputs : transition.writes.inputRecords = [] := by
    rw [List.eq_nil_iff_forall_not_mem]
    intro record member
    cases inputs record member
  rw [noInputs] at extended
  exact ⟨frames, previous, kept, rfl, extended, publications, control⟩

theorem prepareResume_ok {scopeRun : ScopeRunCoordinate} {owner : GraphRunOwner τ ν σ}
    {command : GraphRunCommand} {successor : GraphRunState}
    {inputs : List (AdmittedResumeInput ν σ)} {selected : Option (AgentSession σ)}
    {transition : GraphTransition ν σ} {installation : Installation τ ν σ}
    (prepared : prepareResume scopeRun owner command successor inputs selected =
      .ok (transition, installation)) :
    ∃ frames, transition.previousState = some owner.state ∧ transition.command = command ∧
      installation = .replace owner.graph frames ∧ owner.frames.Extends [] [] inputs frames := by
  simp only [prepareResume, bind_eq_ok, exists_unit, rethrow_eq_ok, pure_eq_ok, Except.ok.injEq,
    Prod.mk.injEq] at prepared
  obtain ⟨frames, projected, transition, made, -, rfl, rfl⟩ := prepared
  obtain ⟨previous, -⟩ := prepareTransition_ok made
  exact ⟨frames, previous, (prepareTransition_writes made).1, rfl,
    projectResumeFrames_extends projected⟩

namespace NestedRun

variable {scopeRun : ScopeRunCoordinate} {origin : GraphConfigCursor}

/-- A transition of the run that leaves the cursor and writes no frame with a Config. -/
theorem Traced.keep {owner : GraphRunOwner τ ν σ} {session : Option (AgentSession σ)}
    (traced : Traced scopeRun origin owner session) {graph : CompiledGraph τ}
    {state : GraphRunState} {frames : ScopedFrameIndex ν σ}
    {publications : List (ConfirmedPublication ν)} {resumes : List (AdmittedResumeInput ν σ)}
    {selected : Option (AgentSession σ)} (valid : ValidRun state)
    (cursor : origin.Follows state.configCursor)
    (extended : owner.frames.Extends [] publications resumes frames)
    (published : ∀ record ∈ publications, ConfigFollows origin record.frame.activationConfig)
    (kept : ∀ item ∈ selected, ConfigFollows origin item.config) :
    Traced scopeRun origin ⟨graph, state, frames⟩ selected := by
  refine ⟨valid, cursor, ?_, ?_, ?_, kept⟩
  · intro record member
    have old := extended.graphInputs.mem_iff.mp member
    rw [List.append_nil] at old
    exact traced.graphInputs record old
  · intro record member
    rcases List.mem_append.mp (extended.publications.mem_iff.mp member) with old | new
    · exact traced.publications record old
    · exact published record new
  · intro record member
    rw [extended.childBoundaries] at member
    exact traced.childBoundaries record member

/-- Where a settlement moves the cursor of a run, and what its output carries. -/
theorem settled_config {state next : GraphRunState} {command : SettleGraphNode}
    {graph : CompiledGraph τ} {completed : CompletedTask ν σ}
    (follows : origin.Follows state.configCursor)
    (projected : settleResult graph state completed.result = .ok command)
    (reduced : reduceGraphRun (some state) (.settle command) = .ok next) :
    origin.Follows next.configCursor ∧
      ∀ task output route successor, completed = .success task output route successor →
        ConfigFollows origin output.activationConfig := by
  obtain ⟨-, -, -, digests⟩ := settleResult_ok projected
  obtain ⟨-, -, settlement, ledger, cursor, resources, settles, -, rfl⟩ :=
    reduceGraphRun_settle.mp reduced
  have moved := settles.cursor
  show origin.Follows cursor ∧ _
  unfold settleConfigCursor at moved
  split at moved
  · rename_i absent
    obtain rfl := Except.ok.inj moved
    refine ⟨follows, ?_⟩
    rintro task output route successor rfl
    obtain ⟨token, -, -, -, -, rfl⟩ := settleResult_success projected
    have none : output.activationConfig = none := by simpa [successSettlement] using absent
    simp [ConfigFollows, none]
  · rename_i candidate present
    rw [rethrow_eq_ok] at moved
    obtain ⟨digest, known⟩ := Option.ne_none_iff_exists'.mp (digests candidate present)
    obtain ⟨candidateFollows, rfl⟩ := follows.transition known moved
    refine ⟨candidateFollows, ?_⟩
    rintro task output route successor rfl
    obtain ⟨token, -, -, -, -, rfl⟩ := settleResult_success projected
    intro config carried
    have same : some config.configCursor = some cursor := by
      rw [← present]
      simp [successSettlement, Option.mem_def.mp carried]
    rw [Option.some.inj same]
    exact candidateFollows

/-- The Config of a started run is that of its input and of its Session. -/
theorem Traced.start {graph : CompiledGraph τ} {parent : Option GraphActivationIdentity}
    {input : Frame ν} {session : Option (AgentSession σ)} {transition : GraphTransition ν σ}
    {frames : ScopedFrameIndex ν σ} {reply : Option GraphRunState} {state : GraphRunState}
    (prepared : prepareStart scopeRun graph parent input session =
      .ok (transition, .construct graph frames))
    (confirmed : Family.confirmScoped scopeRun transition reply = .ok state) :
    Traced scopeRun state.configCursor (⟨graph, state, frames⟩ : GraphRunOwner τ ν σ) session := by
  obtain ⟨command, _, previous, made, cursor, construct, extended, inputs, noPublications⟩ :=
    prepareStart_ok prepared
  obtain ⟨-, rfl⟩ := Installation.construct.inj construct
  have valid := confirmScoped_valid confirmed
  obtain ⟨successor, reduced, confirms⟩ := confirmScoped_ok confirmed
  rw [previous, made] at reduced
  obtain ⟨-, -, -, -, rfl⟩ := (startGraphRun_eq_ok _ _).mp reduced
  have config : ConfigFollows state.configCursor
      (effectiveInput input session).activationConfig := by
    intro item carried
    have same : state.configCursor = item.configCursor := by
      rw [confirms.configCursor]
      show startConfigCursor command = item.configCursor
      simp [startConfigCursor, cursor, Option.mem_def.mp carried]
    rw [← same]
    exact .refl valid.config
  refine ⟨valid, .refl valid.config, ?_, ?_, ?_, ?_⟩
  · intro record member
    have new := extended.graphInputs.mem_iff.mp member
    rw [List.nil_append] at new
    rw [inputs record new]
    exact config
  · intro record member
    have new := extended.publications.mem_iff.mp member
    rw [noPublications] at new
    cases new
  · intro record member
    rw [extended.childBoundaries] at member
    cases member
  · intro item selected
    rw [Option.mem_def.mp selected] at config
    exact config

/-- A result keeps the family Session a follower of the start. -/
theorem selected_follows {completed : CompletedTask ν σ} {session : Option (AgentSession σ)}
    (consistent : completed.ConfigOfSuccessor)
    (output : ∀ task output route successor, completed = .success task output route successor →
      ConfigFollows origin output.activationConfig)
    (kept : ∀ item ∈ session, ConfigFollows origin item.config) :
    ∀ item ∈ completed.successor.or session, ConfigFollows origin item.config := by
  intro item member
  cases completed with
  | success task frame route successor =>
      cases successor with
      | none => exact kept item member
      | some successor =>
          obtain rfl : successor = item := Option.some.inj member
          have same : frame.activationConfig = successor.config := consistent
          rw [← same]
          exact output task frame route _ rfl
  | failure task text => exact kept item member
  | interrupt task payload => exact kept item member

/-- Every Config a child run holds follows the cursor it was started with. -/
theorem traced {owner : GraphRunOwner τ ν σ} {session : Option (AgentSession σ)}
    (run : NestedRun scopeRun origin owner session) : Traced scopeRun origin owner session := by
  induction run with
  | start prepared confirmed started => exact started ▸ Traced.start prepared confirmed
  | settle run projected successor prepared confirmed ih =>
      obtain ⟨_, previous, made, replace, extended, published, -⟩ := prepareScoped_ok prepared
      obtain ⟨-, rfl⟩ := Installation.replace.inj replace
      obtain ⟨next, reduced, confirms⟩ := confirmScoped_ok confirmed
      rw [previous, made] at reduced
      obtain ⟨cursor, output⟩ := settled_config ih.cursor projected reduced
      refine ih.keep (confirmScoped_valid confirmed) (confirms.configCursor ▸ cursor) extended ?_
        (selected_follows successor output ih.session)
      intro record member
      obtain ⟨task, route, explicit, result⟩ := published record member
      exact output task record.frame route explicit (Option.some.inj result)
  | control run prepared confirmed ih =>
      obtain ⟨_, previous, made, replace, extended, published, other⟩ := prepareScoped_ok prepared
      obtain ⟨-, rfl⟩ := Installation.replace.inj replace
      obtain ⟨next, reduced, confirms⟩ := confirmScoped_ok confirmed
      rw [previous, made] at reduced
      have kept := reduced_configCursor (other rfl) reduced
      refine ih.keep (confirmScoped_valid confirmed) ?_ extended ?_ ih.session
      · rw [confirms.configCursor, kept]
        exact ih.cursor
      · intro record member
        obtain ⟨_, _, _, result⟩ := published record member
        cases result
  | resume run prepared confirmed ih =>
      obtain ⟨_, previous, made, replace, extended⟩ := prepareResume_ok prepared
      obtain ⟨-, rfl⟩ := Installation.replace.inj replace
      obtain ⟨next, reduced, confirms⟩ := confirmScoped_ok confirmed
      rw [previous, made] at reduced
      have kept := reduced_configCursor (by simp) reduced
      refine ih.keep (confirmScoped_valid confirmed) ?_ extended (by simp) ih.session
      rw [confirms.configCursor, kept]
      exact ih.cursor
  | boundary run nested added ih =>
      simp only [ScopedFrameIndex.addChildBoundary, bind_eq_ok, pure_eq_ok, Except.ok.injEq]
        at added
      obtain ⟨boundaries, inserted, rfl⟩ := added
      refine { ih with childBoundaries := ?_ }
      intro record member
      rcases (mem_insertFrameRecord inserted).mp member with rfl | old
      · exact childScopeRunForActivation_ne nested
      · exact ih.childBoundaries record old
  | elsewhere run follows ih => exact { ih with session := follows }

end NestedRun

/-! ## Terminal projections -/

section Projections

variable {origin : GraphConfigCursor} {scopeRun : ScopeRunCoordinate}

theorem mergeActivationConfig_follows {current candidate merged : Option ActivationConfig}
    (taken : mergeActivationConfig current candidate = .ok merged)
    (first : ConfigFollows origin current) (second : ConfigFollows origin candidate) :
    ConfigFollows origin merged := by
  cases current with
  | none =>
      cases candidate with
      | none =>
          obtain rfl := Except.ok.inj taken
          exact first
      | some candidate =>
          obtain rfl := Except.ok.inj taken
          exact second
  | some current =>
      cases candidate with
      | none =>
          obtain rfl := Except.ok.inj taken
          exact first
      | some candidate =>
          simp only [mergeActivationConfig, bind_eq_ok, exists_unit, pure_eq_ok,
            Except.ok.injEq] at taken
          obtain ⟨-, rfl⟩ := taken
          exact second

variable {owner : GraphRunOwner τ ν σ} {session : Option (AgentSession σ)}

theorem outputFrame_follows (traced : NestedRun.Traced scopeRun origin owner session)
    {source : ResolvedValueSource} {coordinate : SourceCoordinate} {frame : Frame ν}
    (found : outputFrame owner.frames source coordinate = .ok frame) :
    ConfigFollows origin frame.activationConfig := by
  cases coordinate with
  | graphInput coordinate =>
      simp only [outputFrame, orRaise_eq_ok, Option.map_eq_some_iff] at found
      obtain ⟨record, looked, rfl⟩ := found
      exact traced.graphInputs record (List.mem_of_find?_eq_some looked)
  | publication coordinate =>
      simp only [outputFrame, orRaise_eq_ok, Option.map_eq_some_iff] at found
      obtain ⟨record, looked, rfl⟩ := found
      exact traced.publications record (List.mem_of_find?_eq_some looked)

theorem terminalFrames_follow (traced : NestedRun.Traced scopeRun origin owner session)
    {completionSuperstep : Nat} {frame : Frame ν}
    (member : frame ∈ terminalFrames scopeRun completionSuperstep owner.frames) :
    ConfigFollows origin frame.activationConfig := by
  simp only [terminalFrames, List.mem_append, List.mem_map, List.mem_filter,
    decide_eq_true_eq] at member
  rcases member with (⟨record, ⟨inside, -⟩, rfl⟩ | initial) | ⟨record, ⟨inside, here⟩, rfl⟩
  · exact traced.publications record inside
  · split at initial
    · obtain ⟨record, inside, rfl⟩ := List.mem_map.mp initial
      exact traced.graphInputs record (List.mem_of_mem_filter inside)
    · cases initial
  · exact absurd here (traced.childBoundaries record inside)

/-- The Config of the terminal projection is one the run or its Session holds. -/
theorem projectGraphOutputs_follows [DecidableEq τ] {typeOf : ν → τ} {graph : CompiledGraph τ}
    (traced : NestedRun.Traced scopeRun origin owner session) {completionSuperstep : Nat}
    {output : Frame ν}
    (projected : projectGraphOutputs typeOf graph scopeRun completionSuperstep owner.frames
      session = .ok output) :
    ConfigFollows origin output.activationConfig := by
  simp only [projectGraphOutputs, bind_eq_ok, Prod.exists] at projected
  obtain ⟨entries, outputConfig, folded, chosen⟩ := projected
  have outputs : ConfigFollows origin outputConfig := by
    refine foldlM_preserves (P := fun projected : List (NamedValue ν) × Option ActivationConfig =>
      ConfigFollows origin projected.2) ?_ folded ?_
    · intro before binding after _ taken holds
      simp only [projectGraphOutput, bind_eq_ok, pure_eq_ok, Except.ok.injEq] at taken
      obtain ⟨coordinate, -, frame, found, value, -, merged, mergedOk, rfl⟩ := taken
      refine mergeActivationConfig_follows mergedOk holds ?_
      split
      · simp [ConfigFollows]
      · exact outputFrame_follows traced found
    · intro item carried
      obtain ⟨holder, held, same⟩ := Option.bind_eq_some_iff.mp carried
      exact traced.session holder held item same
  split at chosen
  · simp only [bind_eq_ok, exists_unit, pure_eq_ok, Except.ok.injEq] at chosen
    obtain ⟨config, merged, -, rfl⟩ := chosen
    refine foldlM_preserves (P := ConfigFollows origin) ?_ merged (by simp [ConfigFollows])
    intro before frame after member taken holds
    exact mergeActivationConfig_follows taken holds (terminalFrames_follow traced member)
  · simp only [bind_eq_ok, exists_unit, pure_eq_ok, Except.ok.injEq] at chosen
    obtain ⟨config, rfl, -, rfl⟩ := chosen
    exact outputs

/-- A completed projection is that of a completed run. -/
theorem terminalProjection_completed [DecidableEq τ] {typeOf : ν → τ}
    {parent activation : GraphActivationIdentity} {output : Frame ν}
    {route : Option GraphRouteId}
    (terminal : terminalProjection typeOf owner.graph scopeRun owner.state owner.frames session
      parent = .ok (.completed activation output route)) :
    owner.state.status = .completed ∧ route = owner.state.completionRoute ∧
      projectGraphOutputs typeOf owner.graph scopeRun owner.state.superstep owner.frames session =
        .ok output := by
  unfold terminalProjection at terminal
  split at terminal
  · rename_i completed
    simp only [bind_eq_ok, pure_eq_ok, Except.ok.injEq, ChildProjection.completed.injEq]
      at terminal
    obtain ⟨view, projected, -, rfl, rfl⟩ := terminal
    exact ⟨completed, rfl, projected⟩
  · simp at terminal
  · simp at terminal
  · cases terminal

end Projections

/-! ## Acceptance -/

/-- The tasks of one frontier are told apart by their activations. -/
theorem planTasks_nodup {graph : CompiledGraph τ} {state : GraphRunState} {maxSupersteps : Nat}
    {tasks : List GraphTask} (planned : planTasks graph state maxSupersteps = .ok tasks) :
    (tasks.map (fun task => (⟨task.runId, task.superstep, task.nodeId⟩ :
      GraphActivationIdentity))).Nodup ∧
    ∀ task ∈ tasks, task.runId = state.runId ∧ task.superstep = state.superstep := by
  simp only [planTasks, bind_eq_ok, exists_unit, requireSnapshotMatchesGraph, rethrow_eq_ok,
    validateGraphRunState_eq_ok] at planned
  obtain ⟨⟨valid, -⟩, planned⟩ := planned
  split at planned
  · obtain rfl := Except.ok.inj planned
    simp
  · simp only [bind_eq_ok, exists_unit, pure_eq_ok, Except.ok.injEq] at planned
    obtain ⟨-, rfl⟩ := planned
    refine ⟨?_, ?_⟩
    · rw [List.map_map]
      apply (pendingNodeIds_nodup valid.frontier.distinct).map
      intro a b same
      simpa using same
    · intro task member
      obtain ⟨nodeId, -, rfl⟩ := List.mem_map.mp member
      exact ⟨rfl, rfl⟩

/-- Two lists with equal images are zipped at equal images. -/
theorem mem_zip_same {α β γ : Type} {f : α → γ} {g : β → γ} {xs : List α} {ys : List β}
    (same : ys.map g = xs.map f) {x : α} {y : β} (member : (x, y) ∈ xs.zip ys) : g y = f x := by
  induction xs generalizing ys with
  | nil => cases member
  | cons head xs ih =>
      cases ys with
      | nil => cases member
      | cons first ys =>
          simp only [List.map_cons, List.cons.injEq] at same
          rcases List.mem_cons.mp member with here | later
          · obtain ⟨rfl, rfl⟩ := Prod.mk.inj here
            exact same.1
          · exact ih same.2 later

/-- The result of a nested node is the one its own projection gives. -/
theorem prepareNestedResults_completed [DecidableEq τ] {typeOf : ν → τ} {graph : CompiledGraph τ}
    {state : GraphRunState} {maxSupersteps : Nat} {projections : List (ChildProjection ν)}
    {results : List (CompletedTask ν σ)} {result : CompletedTask ν σ}
    {activation : GraphActivationIdentity} {output : Frame ν} {route : Option GraphRouteId}
    (prepared : prepareNestedResults typeOf graph state maxSupersteps projections = .ok results)
    (projected : ChildProjection.completed activation output route ∈ projections)
    (member : result ∈ results) (own : result.task.nodeId = activation.nodeId) :
    result = .success result.task output route none := by
  simp only [prepareNestedResults, bind_eq_ok, exists_unit, raiseIf_eq_ok, ne_eq, not_not,
    pure_eq_ok, Except.ok.injEq] at prepared
  obtain ⟨tasks, planned, parents, outcomes, made, rfl⟩ := prepared
  obtain ⟨distinct, coordinates⟩ := planTasks_nodup planned
  obtain ⟨outcome, inside, found⟩ := List.mem_filterMap.mp member
  obtain ⟨⟨task, projection⟩, paired, given⟩ :=
    forall₂_mem_right ((mapM_eq_ok _ _ _).mp made) inside
  obtain rfl : outcome = some result := found
  have nestedTask : task ∈ tasks := List.mem_of_mem_filter (List.of_mem_zip paired).1
  have here := mem_zip_same parents paired
  have given : nestedResult typeOf graph task projection = .ok (some result) := given
  have sameTask : result.task = task := nestedResult_task given
  -- the projection of the result and the completed one stand at the same activation
  have completedTask : activation ∈ tasks.map (fun task => (⟨task.runId, task.superstep,
      task.nodeId⟩ : GraphActivationIdentity)) := by
    have inside := List.mem_map_of_mem (f := ChildProjection.parent) projected
    rw [parents] at inside
    exact (List.filter_sublist.map _).subset inside
  have same : projection.parent = activation := by
    obtain ⟨other, otherTask, rfl⟩ := List.mem_map.mp completedTask
    obtain ⟨run, step⟩ := coordinates task nestedTask
    obtain ⟨otherRun, otherStep⟩ := coordinates other otherTask
    rw [here, run, step, otherRun, otherStep, ← sameTask, own]
  have distinctParents : (projections.map ChildProjection.parent).Nodup := by
    rw [parents]
    exact (List.filter_sublist.map _).nodup distinct
  obtain rfl : projection = .completed activation output route :=
    List.inj_on_of_nodup_map distinctParents (List.of_mem_zip paired).2 projected same
  simp only [nestedResult, nodeOutputFromView, bind_eq_ok, exists_unit, pure_eq_ok,
    Except.ok.injEq, Option.some.injEq] at given
  obtain ⟨frame, ⟨-, rfl⟩, rfl⟩ := given
  rfl

/-- A completed child run is accepted by its parent exactly when the Config its terminal projection
carries is at most one revision ahead of the parent's cursor. -/
theorem nested_completion_accepted_iff [DecidableEq τ] (typeOf : ν → τ) (graph : CompiledGraph τ)
    (state : GraphRunState) (maxSupersteps : Nat) (projections : List (ChildProjection ν))
    (results : List (CompletedTask ν σ)) (result : CompletedTask ν σ) (command : SettleGraphNode)
    (childScope : ScopeRunCoordinate) (child : GraphRunOwner τ ν σ)
    (session : Option (AgentSession σ)) (activation : GraphActivationIdentity) (output : Frame ν)
    (route : Option GraphRouteId) (definition : GraphDefinition τ) (inputs : List (InputBinding τ))
    (nested : graph.nodes.get? activation.nodeId =
      some (.nested activation.nodeId definition inputs))
    (run : NestedRun childScope state.configCursor child session)
    (terminal : terminalProjection typeOf child.graph childScope child.state child.frames session
      activation = .ok (.completed activation output route))
    (projected : ChildProjection.completed activation output route ∈ projections)
    (prepared : prepareNestedResults typeOf graph state maxSupersteps projections = .ok results)
    (member : result ∈ results) (own : result.task.nodeId = activation.nodeId)
    (settled : settleResult graph state result.result = .ok command) :
    (∃ next, reduceGraphRun (some state) (.settle command) = .ok next) ↔
      ∀ config ∈ output.activationConfig, config.revision ≤ state.configRevision + 1 := by
  obtain ⟨-, rfl, outputs⟩ := terminalProjection_completed terminal
  have traced := run.traced
  have follows := projectGraphOutputs_follows traced outputs
  have success := prepareNestedResults_completed prepared projected member own
  rw [success] at settled
  rw [← own] at nested
  rw [nested_settle_iff nested traced.valid.route settled]
  obtain ⟨token, -, -, -, -, rfl⟩ := settleResult_success settled
  cases carried : output.activationConfig with
  | none => simp [settleConfigCursor, successSettlement]
  | some config =>
      have accepted : _ ↔ config.revision ≤ state.configRevision + 1 :=
        (follows config (by simp [carried])).accepted_iff
      simpa [settleConfigCursor, successSettlement, carried] using accepted

/-! ## Two Config advances -/

section TwoAdvances

/-- Node `b` leads to `c`, and `c` to `END`. -/
def loopGraph : CompiledGraph Unit where
  definitionId := "loop"
  version := 1
  nodes := Dict.build ["b", "c"] (fun nodeId => .callable ⟨nodeId, [], [], [], []⟩)
  nestedGraphs := []
  graphInputDescriptor := ⟨⟨"loop", 1, .graphInput, 0⟩, []⟩
  graphOutputDescriptor := ⟨⟨"loop", 1, .graphOutput, 0⟩, []⟩
  transition :=
    { parallelPlan "loop" ["b", "c"] with
      entries := ["b"]
      directTargets := Dict.build ["b", "c"] (fun nodeId => if nodeId = "b" then ["c"] else [])
      activationGates := Dict.build ["b", "c"]
        (fun nodeId => if nodeId = "b" then [] else [[("b", [none])]]) }
  resources := []
  resumeInput := none
  completionRoutes := [none]

/-- A graph whose one node is a nested `loopGraph`. -/
def nestingGraph : CompiledGraph Unit :=
  parallelGraph "root" ["n"] (fun nodeId => .nested nodeId
    ⟨"loop", 1, [.callable ⟨"b", [], [], [], []⟩, .callable ⟨"c", [], [], [], []⟩],
      [.direct START "b", .direct "b" "c", .direct "c" END], ["b"], [], [], none⟩ [])
    [("n", loopGraph)]

def configAt (revision : Nat) : ActivationConfig :=
  ⟨"agent", 1, revision, "digest-" ++ toString revision⟩

/-- The parent, started with the first revision and claimed. -/
def nestingState : GraphRunState :=
  { runId := "run"
    definitionId := "root"
    definitionVersion := 1
    status := .running
    superstep := 0
    frontier := ⟨[⟨"n", .pending .useStepRequestInput, .start⟩]⟩
    executionSequence := 1
    execution := some ⟨⟨1, "attempt"⟩⟩
    revision := 1
    configRevision := 1
    configDefinitionId := "agent"
    configDefinitionVersion := 1
    configDigest := some "digest-1" }

def loopActivation : GraphActivationIdentity := ⟨"run", 0, "n"⟩

def loopScope : ScopeRunCoordinate := ⟨["n"], childGraphRunId "run" 0 "n"⟩

/-- An owner of this section. -/
abbrev LoopOwner := GraphRunOwner Unit Unit Unit

/-- A start that is confirmed as it is. -/
def startLoop : Option LoopOwner :=
  match prepareStart loopScope loopGraph (some loopActivation) ⟨[], some (configAt 1)⟩ none with
  | .ok (transition, .construct _ frames) =>
      match Family.confirmScoped loopScope transition (some transition.candidateState) with
      | .ok state => some ⟨loopGraph, state, frames⟩
      | .error _ => none
  | _ => none

/-- A transition that is confirmed as it is. -/
def confirmLoop (command : GraphRunCommand) (result : Option (CompletedTask Unit Unit))
    (owner : LoopOwner) : Option LoopOwner :=
  match prepareScoped loopScope owner command result none with
  | .ok (transition, .replace graph frames) =>
      match Family.confirmScoped loopScope transition (some transition.candidateState) with
      | .ok state => some ⟨graph, state, frames⟩
      | .error _ => none
  | _ => none

/-- A node of the current superstep succeeds, with a Config of the given revision. -/
def loopSuccess (owner : LoopOwner) (nodeId : GraphNodeId) (revision : Nat) :
    CompletedTask Unit Unit :=
  .success ⟨taskIdentity owner.state.runId owner.state.superstep nodeId, owner.state.runId,
    owner.state.superstep, nodeId⟩ ⟨[], some (configAt revision)⟩ none none

def settleLoop (nodeId : GraphNodeId) (revision : Nat) (owner : LoopOwner) : Option LoopOwner :=
  match settleResult owner.graph owner.state (loopSuccess owner nodeId revision).result with
  | .ok command => confirmLoop (.settle command) (some (loopSuccess owner nodeId revision)) owner
  | .error _ => none

/-- The child runs `b` and `c`, whose outputs carry the given Config revisions, and completes. -/
def loopRun (first second : Nat) : Option LoopOwner :=
  startLoop >>= confirmLoop (.claim ⟨0, "first", none⟩) none >>= settleLoop "b" first >>=
    confirmLoop (.advance ⟨2, [⟨"c", .routed ⟨[⟨⟨loopScope.graphRunId, 0, "b"⟩, none⟩], none⟩⟩],
      [], []⟩) none >>=
    confirmLoop (.claim ⟨3, "second", none⟩) none >>= settleLoop "c" second >>=
    confirmLoop (.complete ⟨5, [], none⟩) none

theorem startLoop_run {owner : LoopOwner} (started : startLoop = some owner) :
    NestedRun loopScope owner.state.configCursor owner none := by
  unfold startLoop at started
  split at started
  · rename_i transition graph frames prepared
    split at started
    · rename_i state confirmed
      obtain rfl := Option.some.inj started
      obtain ⟨_, _, -, -, -, construct, -⟩ := prepareStart_ok prepared
      obtain ⟨rfl, -⟩ := Installation.construct.inj construct
      exact .start prepared confirmed rfl
    · cases started
  · cases started

theorem confirmLoop_run {origin : GraphConfigCursor} {command : GraphRunCommand}
    {owner next : LoopOwner} (run : NestedRun loopScope origin owner none)
    (taken : confirmLoop command none owner = some next) :
    NestedRun loopScope origin next none := by
  unfold confirmLoop at taken
  split at taken
  · rename_i transition graph frames prepared
    split at taken
    · rename_i state confirmed
      obtain rfl := Option.some.inj taken
      exact .control run prepared confirmed
    · cases taken
  · cases taken

theorem settleLoop_run {origin : GraphConfigCursor} {nodeId : GraphNodeId} {revision : Nat}
    {owner next : LoopOwner} (run : NestedRun loopScope origin owner none)
    (taken : settleLoop nodeId revision owner = some next) :
    NestedRun loopScope origin next none := by
  unfold settleLoop at taken
  split at taken
  · rename_i command projected
    unfold confirmLoop at taken
    split at taken
    · rename_i transition graph frames prepared
      split at taken
      · rename_i state confirmed
        obtain rfl := Option.some.inj taken
        exact .settle run projected trivial prepared confirmed
      · cases taken
    · cases taken
  · cases taken

/-- Such a child is a run from the cursor of its start. -/
theorem loopRun_run {first second : Nat} {child : LoopOwner}
    (ran : loopRun first second = some child) :
    ∃ started, startLoop = some started ∧
      NestedRun loopScope started.state.configCursor child none := by
  simp only [loopRun, Option.bind_eq_bind, Option.bind_eq_some_iff] at ran
  obtain ⟨_, ⟨_, ⟨_, ⟨_, ⟨_, ⟨started, starts, claims⟩, settlesB⟩, advances⟩, reclaims⟩,
    settlesC⟩, completes⟩ := ran
  have run := startLoop_run starts
  exact ⟨started, starts, confirmLoop_run (settleLoop_run (confirmLoop_run (confirmLoop_run
    (settleLoop_run (confirmLoop_run run claims) settlesB) advances) reclaims) settlesC) completes⟩

/-- What the parent sees of a completed child whose terminal Config has the given revision. -/
def loopProjection (revision : Nat) : ChildProjection Unit :=
  .completed loopActivation ⟨[], some (configAt revision)⟩ none

/-- The result of the nested node. -/
def loopResult (revision : Nat) : CompletedTask Unit Unit :=
  .success ⟨taskIdentity "run" 0 "n", "run", 0, "n"⟩ ⟨[], some (configAt revision)⟩ none none

/-- Its settlement. -/
def loopSettlement (revision : Nat) : SettleGraphNode :=
  ⟨1, ⟨1, "attempt"⟩, .succeeded "n" .continueGraphRouting,
    some (configAt revision).configCursor, none⟩

set_option maxRecDepth 2000 in
/-- After two Config advances in the child the parent refuses the settlement it built. -/
theorem two_advances_refused :
    replay [.start ⟨"run", "root", 1, [⟨"n", .start⟩], none, none,
        some (configAt 1).configCursor, none⟩, .claim ⟨0, "attempt", none⟩] = some nestingState ∧
    ∃ child : LoopOwner, NestedRun loopScope nestingState.configCursor child none ∧
      terminalProjection (fun _ : Unit => ()) child.graph loopScope child.state child.frames none
        loopActivation = .ok (loopProjection 3) ∧
      prepareNestedResults (fun _ : Unit => ()) nestingGraph nestingState 8 [loopProjection 3] =
        .ok [loopResult 3] ∧
      settleResult nestingGraph nestingState (loopResult 3).result = .ok (loopSettlement 3) ∧
      reduceGraphRun (some nestingState) (.settle (loopSettlement 3)) =
        .error (.transition "node settlement Config revision must advance exactly once") := by
  refine ⟨rfl, ?_⟩
  obtain ⟨child, ran, terminal⟩ : ∃ child, loopRun 2 3 = some child ∧
      terminalProjection (fun _ : Unit => ()) child.graph loopScope child.state child.frames none
        loopActivation = .ok (loopProjection 3) := ⟨_, rfl, rfl⟩
  obtain ⟨started, starts, run⟩ := loopRun_run ran
  obtain rfl : _ = started := Option.some.inj starts
  exact ⟨child, run, terminal, rfl, rfl, rfl⟩

set_option maxRecDepth 2000 in
/-- One advance is accepted. -/
theorem one_advance_accepted :
    ∃ next, reduceGraphRun (some nestingState) (.settle (loopSettlement 2)) = .ok next := by
  obtain ⟨child, ran, terminal⟩ : ∃ child, loopRun 2 2 = some child ∧
      terminalProjection (fun _ : Unit => ()) child.graph loopScope child.state child.frames none
        loopActivation = .ok (loopProjection 2) := ⟨_, rfl, rfl⟩
  obtain ⟨started, starts, run⟩ := loopRun_run ran
  obtain rfl : _ = started := Option.some.inj starts
  apply (nested_completion_accepted_iff (fun _ : Unit => ()) nestingGraph nestingState 8
    [loopProjection 2] [loopResult 2] (loopResult 2) (loopSettlement 2) loopScope child none
    loopActivation ⟨[], some (configAt 2)⟩ none _ _ rfl run terminal List.mem_cons_self rfl
    List.mem_cons_self rfl rfl).mpr
  intro config carried
  obtain rfl := Option.some.inj carried
  decide

end TwoAdvances

end MoteKernel
