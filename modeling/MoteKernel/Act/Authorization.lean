import Mathlib.Data.List.Basic
import MoteKernel.Act.Graph

/-!
# Nothing is executed without an Allow

What holds in every run of the Act graph. The override that a resume delivers to
Authorize comes from the `AuthorizePort` and is tested only against itself, so
the results are about the runs in which that override keeps the invocation that
was resolved and the decision that was made. They are also about the runs in which
no Execute attempt is run again and no awaiting state is submitted again, which
neither the recovery of a snapshot nor the admission of a continuation prevents.
-/

namespace MoteKernel.Act
open Checked

variable {σ κ : Type}

/-! ## Logs -/

/-- The invocation an event publishes. -/
def ActEvent.publication : ActEvent σ → Option (ResolvedInvocation σ)
  | .published resolved => some resolved
  | _ => none

/-- The invocation an event executes. -/
def ActEvent.execution : ActEvent σ → Option (AuthorizedInvocation σ)
  | .execute invocation => some invocation
  | _ => none

/-- The decision an event is. -/
def ActEvent.decision : ActEvent σ → Option AuthorizationDecision
  | .resumed decision => some decision
  | _ => none

def publications (log : List (ActEvent σ)) : List (ResolvedInvocation σ) :=
  log.filterMap ActEvent.publication

def executions (log : List (ActEvent σ)) : List (AuthorizedInvocation σ) :=
  log.filterMap ActEvent.execution

/-- The identity under which an invocation is executed. -/
def executionIdentity (invocation : AuthorizedInvocation σ) : ToolExecutionIdentity :=
  ⟨invocation.resolved.request.pairing, invocation.resolved.binding,
    invocation.resolved.arguments.digest⟩

/-- Two resolved invocations are one for the caller: their pairing, definition, binding, canonical
arguments and caller agree. -/
structure SameInvocation (resolved other : ResolvedInvocation σ) : Prop where
  pairing : other.request.pairing = resolved.request.pairing
  definition : other.definition = resolved.definition
  binding : other.binding = resolved.binding
  arguments : other.arguments = resolved.arguments
  caller : other.request.caller = resolved.request.caller

instance (resolved other : ResolvedInvocation σ) : Decidable (SameInvocation resolved other) :=
  decidable_of_iff (other.request.pairing = resolved.request.pairing ∧
    other.definition = resolved.definition ∧ other.binding = resolved.binding ∧
    other.arguments = resolved.arguments ∧ other.request.caller = resolved.request.caller)
    ⟨fun h => ⟨h.1, h.2.1, h.2.2.1, h.2.2.2.1, h.2.2.2.2⟩,
      fun h => ⟨h.pairing, h.definition, h.binding, h.arguments, h.caller⟩⟩

/-- What a log says about authorization: an execution comes after an Allow and is of the published
invocation, there is at most one of each, a settlement has the identity of the execution, and
nothing is executed in a run with a Deny. -/
structure SafeLog (log : List (ActEvent σ)) : Prop where
  allowed : ∀ before invocation after, log = before ++ .execute invocation :: after →
    .resumed .allow ∈ before ∧
      ∃ resolved, .published resolved ∈ before ∧ SameInvocation resolved invocation.resolved
  executedOnce : (executions log).length ≤ 1
  publishedOnce : (publications log).length ≤ 1
  settled : ∀ projection, .write projection ∈ log →
    ∃ invocation, .execute invocation ∈ log ∧
      projection.sourceIdentity = executionIdentity invocation
  denied : .resumed .deny ∈ log → executions log = []

theorem mem_executions {log : List (ActEvent σ)} {invocation : AuthorizedInvocation σ} :
    invocation ∈ executions log ↔ .execute invocation ∈ log := by
  simp only [executions, List.mem_filterMap]
  constructor
  · rintro ⟨event, member, executed⟩
    cases event <;> simp [ActEvent.execution] at executed
    rw [← executed]
    exact member
  · intro member
    exact ⟨_, member, rfl⟩

theorem mem_publications {log : List (ActEvent σ)} {resolved : ResolvedInvocation σ} :
    resolved ∈ publications log ↔ .published resolved ∈ log := by
  simp only [publications, List.mem_filterMap]
  constructor
  · rintro ⟨event, member, published⟩
    cases event <;> simp [ActEvent.publication] at published
    rw [← published]
    exact member
  · intro member
    exact ⟨_, member, rfl⟩

@[simp] theorem publications_append (log events : List (ActEvent σ)) :
    publications (log ++ events) = publications log ++ publications events :=
  List.filterMap_append

@[simp] theorem executions_append (log events : List (ActEvent σ)) :
    executions (log ++ events) = executions log ++ executions events :=
  List.filterMap_append

theorem safeLog_nil : SafeLog ([] : List (ActEvent σ)) :=
  ⟨fun before _ _ split => absurd split (by simp), by simp [executions], by simp [publications],
    by simp, by simp⟩

/-- A split at an execution is a split of the earlier log when nothing is executed later. -/
theorem split_of_append {log events before after : List (ActEvent σ)}
    {invocation : AuthorizedInvocation σ} (quiet : executions events = [])
    (split : log ++ events = before ++ .execute invocation :: after) :
    ∃ rest, log = before ++ .execute invocation :: rest := by
  rcases List.append_eq_append_iff.mp split with ⟨middle, rfl, tail⟩ | ⟨middle, rfl, tail⟩
  · -- the execution would be one of the events
    have executed : invocation ∈ executions events := by
      rw [mem_executions, tail]
      simp
    rw [quiet] at executed
    cases executed
  · cases middle with
    | nil =>
        rw [List.nil_append] at tail
        have executed : invocation ∈ executions events := by
          rw [mem_executions, ← tail]
          simp
        rw [quiet] at executed
        cases executed
    | cons head rest =>
        rw [List.cons_append, List.cons.injEq] at tail
        obtain ⟨rfl, -⟩ := tail
        exact ⟨rest, rfl⟩

/-- Events that neither publish, execute, settle nor decide keep the log safe. -/
theorem SafeLog.append {log events : List (ActEvent σ)} (safe : SafeLog log)
    (noExecution : executions events = [])
    (published : (publications log).length + (publications events).length ≤ 1)
    (settled : ∀ projection, .write projection ∈ events → ∃ invocation,
      .execute invocation ∈ log ∧ projection.sourceIdentity = executionIdentity invocation)
    (denied : .resumed .deny ∈ events → executions log = []) : SafeLog (log ++ events) := by
  refine ⟨?_, ?_, ?_, ?_, ?_⟩
  · intro before invocation after split
    obtain ⟨rest, earlier⟩ := split_of_append noExecution split
    exact safe.allowed before invocation rest earlier
  · rw [executions_append, noExecution, List.append_nil]
    exact safe.executedOnce
  · rw [publications_append, List.length_append]
    exact published
  · intro projection member
    rcases List.mem_append.mp member with old | new
    · obtain ⟨invocation, executed, identity⟩ := safe.settled projection old
      exact ⟨invocation, List.mem_append_left _ executed, identity⟩
    · obtain ⟨invocation, executed, identity⟩ := settled projection new
      exact ⟨invocation, List.mem_append_left _ executed, identity⟩
  · intro member
    rw [executions_append, noExecution, List.append_nil]
    rcases List.mem_append.mp member with old | new
    · exact safe.denied old
    · exact denied new

/-! ## Stages -/

/-- A run that has resolved an invocation, has executed nothing and was not denied. -/
structure Asked (resolved : ResolvedInvocation σ) (log : List (ActEvent σ)) : Prop where
  safe : SafeLog log
  published : publications log = [resolved]
  unexecuted : executions log = []
  notDenied : .resumed .deny ∉ log

/-- A run whose interrupt was resumed with Allow. -/
structure Allowed (resolved : ResolvedInvocation σ) (log : List (ActEvent σ)) : Prop
    extends Asked resolved log where
  allowed : .resumed .allow ∈ log

/-- A run that has executed its invocation. -/
structure Executed (identity : ToolExecutionIdentity) (log : List (ActEvent σ)) : Prop where
  safe : SafeLog log
  notDenied : .resumed .deny ∉ log
  executed : ∃ invocation, .execute invocation ∈ log ∧ identity = executionIdentity invocation

/-- A run that may execute an invocation. -/
def Executable (invocation : AuthorizedInvocation σ) (log : List (ActEvent σ)) : Prop :=
  ∃ resolved, SameInvocation resolved invocation.resolved ∧ Allowed resolved log

/-- What a stage value that enters or leaves the Hook says about its run. -/
def StageReady (log : List (ActEvent σ)) : ActStageValue σ → Prop
  | .resolveStageValue ⟨.initialAuthorization resolved⟩ => Asked resolved log
  | .resolveStageValue ⟨.resumedAuthorization _⟩ => False
  | .authorizeStageValue invocation => Executable invocation log
  | .executeStageValue result => Executed result.identity log
  | .settleStageValue settled => Executed settled.projection.sourceIdentity log

/-- A run whose interrupt was resumed, and whose Authorize has not settled yet: it may have asked
again, for an activation that raised. -/
def Decided (log : List (ActEvent σ)) : Prop :=
  ∃ earlier resolved decision asks, log = earlier ++ .resumed decision :: asks ∧
    Asked resolved earlier ∧ ∀ event ∈ asks, ∃ other, event = .requestAuthorization other

/-- A run whose Execute attempt has not settled. -/
structure Attempted (log : List (ActEvent σ)) : Prop where
  safe : SafeLog log
  notDenied : .resumed .deny ∉ log
  executed : executions log ≠ []

/-- What is true of a run at each point. An Execute activation that has called its Port stays
where it raised. -/
def Sound (run : ActRun σ κ) : Prop :=
  match run.point with
  | .resolve _ => run.log = []
  | .hook request => request.nodeId = some (stageNodeId request.value.stage) ∧
      (stagePayload request.value).1 = true ∧ StageReady run.log request.value.payload
  | .authorize input | .settle input => StageReady run.log input.value.payload
  | .execute input => StageReady run.log input.value.payload ∨
      run.raised.isSome = true ∧ Attempted run.log
  | .awaiting _ => ∃ resolved, Asked resolved run.log
  | .resuming _ => Decided run.log
  | .completed result => StageReady run.log result.value.payload ∧
      ∃ settled, result.value.payload = .settleStageValue settled
  | .failed _ => SafeLog run.log

section Asks
variable {events : List (ActEvent σ)}
  (requests : ∀ event ∈ events, ∃ other, event = .requestAuthorization other)
include requests

theorem executions_asks : executions events = [] := by
  refine List.filterMap_eq_nil_iff.mpr (fun event member => ?_)
  obtain ⟨other, rfl⟩ := requests event member
  rfl

theorem publications_asks : publications events = [] := by
  refine List.filterMap_eq_nil_iff.mpr (fun event member => ?_)
  obtain ⟨other, rfl⟩ := requests event member
  rfl

theorem resumed_not_mem_asks (decision : AuthorizationDecision) : .resumed decision ∉ events := by
  intro member
  obtain ⟨other, same⟩ := requests _ member
  cases same

theorem SafeLog.asks {log : List (ActEvent σ)} (safe : SafeLog log) : SafeLog (log ++ events) := by
  apply safe.append (executions_asks requests)
  · rw [publications_asks requests]
    exact safe.publishedOnce
  · intro projection member
    obtain ⟨other, same⟩ := requests _ member
    cases same
  · intro denied
    exact absurd denied (resumed_not_mem_asks requests _)

/-- Asking for authorization changes nothing of what a run has reached. -/
theorem Asked.asks {log : List (ActEvent σ)} {resolved : ResolvedInvocation σ}
    (asked : Asked resolved log) : Asked resolved (log ++ events) := by
  refine ⟨asked.safe.asks requests, ?_, ?_, ?_⟩
  · rw [publications_append, asked.published, publications_asks requests, List.append_nil]
  · rw [executions_append, asked.unexecuted, executions_asks requests, List.append_nil]
  · intro member
    rcases List.mem_append.mp member with old | new
    · exact asked.notDenied old
    · exact resumed_not_mem_asks requests _ new

theorem Allowed.asks {log : List (ActEvent σ)} {resolved : ResolvedInvocation σ}
    (allowed : Allowed resolved log) : Allowed resolved (log ++ events) :=
  ⟨allowed.toAsked.asks requests, List.mem_append_left _ allowed.allowed⟩

end Asks

/-- A decision keeps the log safe: nothing has been executed. -/
theorem Asked.decide {log : List (ActEvent σ)} {resolved : ResolvedInvocation σ}
    (asked : Asked resolved log) (decision : AuthorizationDecision) :
    SafeLog (log ++ [.resumed decision]) := by
  apply asked.safe.append rfl
  · show (publications log).length + 0 ≤ 1
    rw [asked.published]
    simp
  · simp
  · intro _
    exact asked.unexecuted

theorem Asked.allow {log : List (ActEvent σ)} {resolved : ResolvedInvocation σ}
    (asked : Asked resolved log) : Allowed resolved (log ++ [.resumed .allow]) := by
  refine ⟨⟨asked.decide .allow, ?_, ?_, ?_⟩, by simp⟩
  · rw [publications_append, asked.published]
    rfl
  · rw [executions_append, asked.unexecuted]
    rfl
  · intro member
    rcases List.mem_append.mp member with old | new
    · exact asked.notDenied old
    · simp at new

/-- The first execution of a log is its only one, and everything else comes before it. -/
theorem split_at_end {log before after : List (ActEvent σ)}
    {invocation other : AuthorizedInvocation σ} (unexecuted : executions log = [])
    (split : log ++ [.execute invocation] = before ++ .execute other :: after) :
    before = log ∧ other = invocation := by
  rcases List.eq_nil_or_concat after with rfl | ⟨between, last, rfl⟩
  · obtain ⟨same, event⟩ := List.append_inj' split rfl
    exact ⟨same.symm, by simpa using event.symm⟩
  · rw [List.concat_eq_append, ← List.cons_append, ← List.append_assoc] at split
    obtain ⟨same, -⟩ := List.append_inj' split rfl
    have executed : other ∈ executions log := by
      rw [mem_executions, same]
      simp
    rw [unexecuted] at executed
    cases executed

/-- The one execution of an allowed run. -/
theorem Executable.execute {log : List (ActEvent σ)} {invocation : AuthorizedInvocation σ}
    (ready : Executable invocation log) :
    Executed (executionIdentity invocation) (log ++ [.execute invocation]) := by
  obtain ⟨resolved, same, allowed⟩ := ready
  have notDenied : .resumed .deny ∉ log ++ [.execute invocation] := by
    intro member
    rcases List.mem_append.mp member with old | new
    · exact allowed.notDenied old
    · simp at new
  refine ⟨⟨?_, ?_, ?_, ?_, ?_⟩, notDenied, invocation, by simp, rfl⟩
  · intro before other after split
    obtain ⟨rfl, rfl⟩ := split_at_end allowed.unexecuted split
    refine ⟨allowed.allowed, resolved, ?_, same⟩
    rw [← mem_publications, allowed.published]
    exact List.mem_singleton_self _
  · rw [executions_append, allowed.unexecuted]
    exact Nat.le_refl 1
  · rw [publications_append, allowed.published]
    exact Nat.le_refl 1
  · intro projection member
    rcases List.mem_append.mp member with old | new
    · obtain ⟨other, executed, identity⟩ := allowed.safe.settled projection old
      exact ⟨other, List.mem_append_left _ executed, identity⟩
    · simp at new
  · intro denied
    exact absurd denied notDenied

/-- What the settlement of an executed run adds to its log. -/
theorem Executed.append {log events : List (ActEvent σ)} {identity : ToolExecutionIdentity}
    (executed : Executed identity log)
    (settles : ∀ event ∈ events, (∃ result, event = .project result) ∨
      ∃ projection, event = .write projection ∧ projection.sourceIdentity = identity) :
    Executed identity (log ++ events) := by
  have noExecution : executions events = [] := by
    refine List.filterMap_eq_nil_iff.mpr (fun event member => ?_)
    rcases settles event member with ⟨result, rfl⟩ | ⟨projection, rfl, -⟩ <;> rfl
  have noPublication : publications events = [] := by
    refine List.filterMap_eq_nil_iff.mpr (fun event member => ?_)
    rcases settles event member with ⟨result, rfl⟩ | ⟨projection, rfl, -⟩ <;> rfl
  have noDecision : ∀ decision, .resumed decision ∉ events := by
    intro decision member
    rcases settles _ member with ⟨result, same⟩ | ⟨projection, same, -⟩ <;> cases same
  obtain ⟨invocation, member, same⟩ := executed.executed
  refine ⟨executed.safe.append noExecution ?_ ?_ ?_, ?_, invocation, ?_, same⟩
  · rw [noPublication]
    exact executed.safe.publishedOnce
  · intro projection written
    refine ⟨invocation, member, ?_⟩
    rcases settles _ written with ⟨result, other⟩ | ⟨projection', other, own⟩
    · cases other
    · cases other
      rw [own, same]
  · intro denied
    exact absurd denied (noDecision _)
  · intro denied
    rcases List.mem_append.mp denied with old | new
    · exact executed.notDenied old
    · exact noDecision _ new
  · exact List.mem_append_left _ member

/-! ## Nodes -/

section Nodes

variable [DecidableEq σ] {admission : ActPayloadAdmission σ κ} {ports : ActPorts σ κ}

theorem hookRequestOf_eq_ok {stage : ActHookStage} {payload : ActStageValue σ} {hookState : σ}
    {request : HookActivationRequest σ}
    (made : hookRequestOf admission stage payload hookState = .ok request) :
    request.nodeId = some (stageNodeId request.value.stage) ∧
      (stagePayload request.value).1 = true ∧ request.value.payload = payload := by
  simp only [hookRequestOf, bind_eq_ok, exists_unit, pure_eq_ok, Except.ok.injEq] at made
  obtain ⟨state, -, admitted, rfl⟩ := made
  simp only [ActPayloadAdmission.admitHookRequest, ActPayloadAdmission.admitHookEnvelope,
    bind_eq_ok, exists_unit, raiseIf_eq_ok, Bool.not_eq_false] at admitted
  exact ⟨rfl, admitted.1, rfl⟩

/-- What the Hook returns is what it was given. -/
theorem hookNode_eq_ok {request : HookActivationRequest σ} {result : HookResult σ κ}
    (run : hookNode admission ports request = .ok result) :
    result.value = request.value ∧ result.nodeId = request.nodeId := by
  simp only [hookNode, hookPort, ActPayloadAdmission.admitTransition, bind_eq_ok, exists_unit,
    rethrow_eq_ok, raiseIf_eq_ok, not_not, ne_eq, pure_eq_ok, Except.ok.injEq] at run
  obtain ⟨⟨first, second⟩, -, ⟨-, -, -, -, -, -, same⟩, ⟨-, -, -, -, -, -, again⟩, rfl⟩ := run
  exact ⟨again.trans same, rfl⟩

omit [DecidableEq σ] in
theorem authorizeInput_eq_ok {input : HookResult σ κ} {authorization : AuthorizationInput σ}
    (admitted : authorizeInput admission input = .ok authorization) :
    input.value.payload = .resolveStageValue authorization := by
  simp only [authorizeInput, bind_eq_ok, exists_unit] at admitted
  obtain ⟨-, selected⟩ := admitted
  split at selected
  · rename_i payload
    rw [payload, Except.ok.inj selected]
  · simp at selected

omit [DecidableEq σ] in
theorem executeInput_eq_ok {input : HookResult σ κ} {invocation : AuthorizedInvocation σ}
    (admitted : executeInput admission input = .ok invocation) :
    input.value.payload = .authorizeStageValue invocation := by
  simp only [executeInput, bind_eq_ok, exists_unit] at admitted
  obtain ⟨-, selected⟩ := admitted
  split at selected
  · rename_i payload
    rw [payload, Except.ok.inj selected]
  · simp at selected

omit [DecidableEq σ] in
theorem settleInput_eq_ok {input : HookResult σ κ} {result : ToolExecutionResult}
    (admitted : settleInput admission input = .ok result) :
    input.value.payload = .executeStageValue result := by
  simp only [settleInput, bind_eq_ok, exists_unit] at admitted
  obtain ⟨-, selected⟩ := admitted
  split at selected
  · rename_i payload
    rw [payload, Except.ok.inj selected]
  · simp at selected

omit [DecidableEq σ] in
theorem admitExecutionResult_eq_ok {invocation : AuthorizedInvocation σ}
    {result : ToolExecutionResult} (u : Unit) :
    admitExecutionResult invocation result = .ok u ↔
      result.identity = executionIdentity invocation := by
  obtain ⟨⟨pairing, binding, digest⟩, outcome⟩ := result
  simp only [admitExecutionResult, bind_unit_eq_ok, raiseIf_eq_ok, ne_eq, not_not,
    executionIdentity, ToolExecutionIdentity.mk.injEq]

/-- What `ResolveNode` asks is no event of the log; its confirmed settlement is. -/
theorem resolveNode_events (request : ActRequest σ) :
    (resolveNode admission ports request).1 = [] := by
  unfold resolveNode
  cases ports.resolve request with
  | error error => rfl
  | ok result =>
      cases result with
      | resolutionStopped reason => rfl
      | resolvedInvocation resolved =>
          simp only [resolveOutcome]
          split
          · rfl
          · split <;> rfl

theorem resolveNode_eq_ok {request : ActRequest σ} {outcome : NodeOutcome σ}
    (returned : (resolveNode admission ports request).2 = .ok outcome) :
    (∃ reason, outcome = .failure reason) ∨ ∃ resolved made, outcome = .hookRequest made ∧
      hookRequestOf admission .resolve (.resolveStageValue ⟨.initialAuthorization resolved⟩)
        request.hookState = .ok made := by
  unfold resolveNode at returned
  cases answer : ports.resolve request with
  | error error => simp [answer] at returned
  | ok result =>
      rw [answer] at returned
      cases result with
      | resolutionStopped reason => exact .inl ⟨reason, (Except.ok.inj returned).symm⟩
      | resolvedInvocation resolved =>
          simp only [resolveOutcome] at returned
          split at returned
          · simp at returned
          · cases made : hookRequestOf admission .resolve
                (.resolveStageValue ⟨.initialAuthorization resolved⟩) request.hookState with
            | error error => simp [made] at returned
            | ok hookRequest =>
                simp only [made, Except.ok.injEq] at returned
                exact .inr ⟨resolved, hookRequest, returned.symm, made⟩

omit [DecidableEq σ] in
theorem askAuthorization_eq_ok {resolved : ResolvedInvocation σ} {outcome : NodeOutcome σ}
    (asked : askAuthorization ports resolved = .ok outcome) :
    ∃ payload, outcome = .interrupt payload := by
  simp only [askAuthorization, bind_eq_ok, exists_unit, pure_eq_ok, Except.ok.injEq] at asked
  obtain ⟨requestRef, -, -, encoded, -, payload, -, rfl⟩ := asked
  exact ⟨payload, rfl⟩

/-! ## Steps -/

omit [DecidableEq σ] in
/-- A business node keeps a run sound when it does where it raises and where its settlement is
confirmed. -/
theorem sound_extend {run : ActRun σ κ} (coordinates : ActCoordinates) {node : NodeRun σ}
    (stays : ∀ error, Sound { run with raised := some error, log := run.log ++ node.1 })
    (settles : ∀ outcome, node.2 = .ok outcome →
      Sound ({ run with point := afterNode coordinates outcome,
                        log := run.log ++ node.1 ++ publishedBy outcome } : ActRun σ κ)) :
    Sound (run.extend ports coordinates node) := by
  unfold ActRun.extend
  cases returned : node.2 with
  | error error => exact stays error
  | ok outcome =>
      cases ports.confirm with
      | error error => exact stays error
      | ok _ => exact settles outcome returned

/-- A node hands its value to the Hook. -/
theorem sound_hookRequest {stage : ActHookStage} {payload : ActStageValue σ} {hookState : σ}
    {request : HookActivationRequest σ} {log : List (ActEvent σ)} (raised : Option ActRaise)
    (submitted : List GraphInterruptView)
    (made : hookRequestOf admission stage payload hookState = .ok request)
    (ready : StageReady log payload) :
    Sound (⟨.hook request, raised, submitted, log⟩ : ActRun σ κ) := by
  obtain ⟨node, kind, rfl⟩ := hookRequestOf_eq_ok made
  exact ⟨node, kind, ready⟩

theorem publishedBy_hookRequest {stage : ActHookStage} {payload : ActStageValue σ} {hookState : σ}
    {request : HookActivationRequest σ}
    (made : hookRequestOf admission stage payload hookState = .ok request) :
    publishedBy (.hookRequest request) = stagePublication payload := by
  obtain ⟨-, -, rfl⟩ := hookRequestOf_eq_ok made
  rfl

theorem sound_resolve (request : ActRequest σ) (submitted : List GraphInterruptView)
    (coordinates : ActCoordinates) :
    Sound ((⟨.resolve request, none, submitted, []⟩ : ActRun σ κ).extend ports coordinates
      (resolveNode admission ports request)) := by
  have quiet : (resolveNode admission ports request).1 = [] := resolveNode_events request
  apply sound_extend
  · intro error
    rw [quiet]
    rfl
  · intro outcome returned
    rw [quiet]
    rcases resolveNode_eq_ok returned with ⟨reason, rfl⟩ | ⟨resolved, made, rfl, requested⟩
    · exact safeLog_nil
    · rw [publishedBy_hookRequest requested]
      have safe : SafeLog ([] ++ [ActEvent.published resolved]) :=
        safeLog_nil.append rfl (by simp [publications, ActEvent.publication]) (by simp) (by simp)
      have asked : Asked resolved [ActEvent.published resolved] := ⟨safe, rfl, rfl, by simp⟩
      exact sound_hookRequest none submitted requested asked

omit [DecidableEq σ] in
theorem afterHook_sound {log : List (ActEvent σ)} {raised : Option ActRaise}
    {submitted : List GraphInterruptView} {result : HookResult σ κ} {point : ActPoint σ κ}
    (node : result.nodeId = some (stageNodeId result.value.stage))
    (stage : (stagePayload result.value).1 = true) (ready : StageReady log result.value.payload)
    (after : afterHook result = .ok point) : Sound ⟨point, raised, submitted, log⟩ := by
  unfold afterHook at after
  rw [node] at after
  cases which : result.value.stage with
  | resolve =>
      rw [which] at after
      rw [← Except.ok.inj after]
      exact ready
  | authorize =>
      rw [which] at after
      rw [← Except.ok.inj after]
      exact .inl ready
  | execute =>
      rw [which] at after
      rw [← Except.ok.inj after]
      exact ready
  | settle =>
      rw [which] at after
      rw [← Except.ok.inj after]
      refine ⟨ready, ?_⟩
      unfold stagePayload at stage
      rw [which] at stage
      cases payload : result.value.payload with
      | settleStageValue settled => exact ⟨settled, rfl⟩
      | resolveStageValue authorization => simp [payload] at stage
      | authorizeStageValue invocation => simp [payload] at stage
      | executeStageValue execution => simp [payload] at stage

theorem sound_hook {run : ActRun σ κ} {request : HookActivationRequest σ}
    (sound : Sound run) (point : run.point = .hook request) :
    Sound (run.passHook ports (hookNode admission ports request)) := by
  have raises : ∀ error, Sound { run with raised := some error } := by
    intro error
    rw [Sound, point] at sound
    rw [Sound, point]
    exact sound
  unfold ActRun.passHook
  cases passed : (hookNode admission ports request >>= afterHook) with
  | error error => exact raises error
  | ok later =>
      cases ports.confirm with
      | error error => exact raises error
      | ok _ =>
          obtain ⟨result, returned, after⟩ := (bind_eq_ok _ _ _).mp passed
          obtain ⟨value, node⟩ := hookNode_eq_ok returned
          rw [Sound, point] at sound
          obtain ⟨nodeId, stage, ready⟩ := sound
          rw [← value] at ready stage nodeId
          rw [← node] at nodeId
          exact afterHook_sound nodeId stage ready after

omit [DecidableEq σ] in
theorem Executable.safe {log : List (ActEvent σ)} {invocation : AuthorizedInvocation σ}
    (ready : Executable invocation log) : SafeLog log := by
  obtain ⟨resolved, -, allowed⟩ := ready
  exact allowed.safe

omit [DecidableEq σ] in
theorem StageReady.safe {log : List (ActEvent σ)} {payload : ActStageValue σ}
    (ready : StageReady log payload) : SafeLog log := by
  unfold StageReady at ready
  split at ready
  · exact Asked.safe ready
  · exact ready.elim
  · exact Executable.safe ready
  · exact Executed.safe ready
  · exact Executed.safe ready

/-- What an Authorize activation needs of its input. -/
structure AuthorizeReady (log : List (ActEvent σ)) (payload : ActStageValue σ) : Prop where
  safe : SafeLog log
  first : ∀ other, payload = .resolveStageValue ⟨.initialAuthorization other⟩ →
    ∃ resolved, Asked resolved log
  second : ∀ resumed, payload = .resolveStageValue ⟨.resumedAuthorization resumed⟩ →
    resumed.decision = .allow → Executable ⟨resumed.resolved⟩ log

/-- `stays` says where an activation that raises leaves the run: the input stays what it was. -/
theorem sound_authorize {run : ActRun σ κ} {input : HookResult σ κ} {failureReason : String}
    (ready : AuthorizeReady run.log input.value.payload)
    (stays : ∀ error asks, (∀ event ∈ asks, ∃ other, event = .requestAuthorization other ∧
      input.value.payload = .resolveStageValue ⟨.initialAuthorization other⟩) →
      Sound { run with raised := some error, log := run.log ++ asks })
    (coordinates : ActCoordinates) :
    Sound (run.extend ports coordinates (authorizeNode admission ports failureReason input)) := by
  unfold authorizeNode
  cases admitted : authorizeInput admission input with
  | error error => exact sound_extend coordinates (fun error => stays error [] (by simp)) (by simp)
  | ok authorization =>
      have payload := authorizeInput_eq_ok admitted
      obtain ⟨phase⟩ := authorization
      cases phase with
      | initialAuthorization other =>
          apply sound_extend
          · intro error
            exact stays error _ (by simp [payload])
          · intro outcome answer
            obtain ⟨encoded, rfl⟩ := askAuthorization_eq_ok answer
            obtain ⟨resolved, asked⟩ := ready.first other payload
            have next : Asked resolved (run.log ++ [.requestAuthorization other]) :=
              asked.asks (by simp)
            rw [publishedBy, List.append_nil]
            exact ⟨resolved, next⟩
      | resumedAuthorization resumed =>
          dsimp only
          cases decision : resumed.decision with
          | deny =>
              apply sound_extend
              · intro error
                exact stays error [] (by simp)
              · intro outcome returned
                obtain rfl : NodeOutcome.failure failureReason = outcome :=
                  Except.ok.inj returned
                rw [publishedBy, List.append_nil, List.append_nil]
                exact ready.safe
          | allow =>
              have allowed := ready.second resumed payload decision
              apply sound_extend
              · intro error
                exact stays error [] (by simp)
              · intro outcome returned
                simp only [rethrow_eq_ok, bind_eq_ok, pure_eq_ok, Except.ok.injEq] at returned
                obtain ⟨request, made, rfl⟩ := returned
                have nothing : publishedBy (.hookRequest request) = [] :=
                  publishedBy_hookRequest made
                rw [nothing, List.append_nil, List.append_nil]
                exact sound_hookRequest run.raised run.submitted made allowed

theorem sound_execute {log : List (ActEvent σ)} {input : HookResult σ κ}
    (ready : StageReady log input.value.payload) (submitted : List GraphInterruptView)
    (coordinates : ActCoordinates) :
    Sound ((⟨.execute input, none, submitted, log⟩ : ActRun σ κ).extend ports coordinates
      (executeNode admission ports input)) := by
  unfold executeNode
  cases admitted : executeInput admission input with
  | error error =>
      apply sound_extend
      · intro error
        rw [List.append_nil]
        exact .inl ready
      · simp
  | ok invocation =>
      rw [executeInput_eq_ok admitted] at ready
      have executed : Executed (executionIdentity invocation) (log ++ [.execute invocation]) :=
        Executable.execute ready
      apply sound_extend
      · intro error
        refine .inr ⟨rfl, executed.safe, executed.notDenied, ?_⟩
        simp [executions, ActEvent.execution]
      · intro outcome returned
        simp only [bind_eq_ok, rethrow_eq_ok] at returned
        obtain ⟨answer, -, returned⟩ := returned
        cases answer with
        | executionStopped reason =>
            obtain rfl : NodeOutcome.failure reason = outcome := Except.ok.inj returned
            rw [publishedBy, List.append_nil]
            exact executed.safe
        | toolExecutionResult execution =>
            simp only [executeOutcome, bind_eq_ok, exists_unit, admitExecutionResult_eq_ok,
              pure_eq_ok, Except.ok.injEq] at returned
            obtain ⟨identity, request, made, rfl⟩ := returned
            have nothing : publishedBy (.hookRequest request) = [] := publishedBy_hookRequest made
            rw [nothing, List.append_nil]
            apply sound_hookRequest none submitted made
            show Executed execution.identity _
            rw [identity]
            exact executed

/-- The events of a settlement: its projection, and what is written has its identity. -/
theorem settleNode_events {input : HookResult σ κ} {execution : ToolExecutionResult}
    (payload : settleInput admission input = .ok execution) :
    ∀ event ∈ (settleNode admission ports input).1, (∃ result, event = .project result) ∨
      ∃ projection, event = .write projection ∧
        projection.sourceIdentity = execution.identity := by
  unfold settleNode
  rw [payload]
  dsimp only
  cases ports.project execution with
  | error error => simp
  | ok projection =>
      simp only [settleProjection]
      cases checked : admitSettlementProjection execution projection with
      | error error => simp
      | ok _ =>
          have identity : projection.sourceIdentity = execution.identity := by
            simpa [admitSettlementProjection] using checked
          simp [identity]

theorem settleNode_eq_ok {input : HookResult σ κ} {execution : ToolExecutionResult}
    {outcome : NodeOutcome σ} (payload : settleInput admission input = .ok execution)
    (returned : (settleNode admission ports input).2 = .ok outcome) :
    ∃ projection receipt request, outcome = .hookRequest request ∧
      projection.sourceIdentity = execution.identity ∧
      hookRequestOf admission .settle (.settleStageValue ⟨projection, receipt⟩)
        input.value.hookState = .ok request := by
  unfold settleNode at returned
  rw [payload] at returned
  dsimp only at returned
  cases projected : ports.project execution with
  | error error => simp [projected] at returned
  | ok projection =>
      simp only [projected, settleProjection] at returned
      cases checked : admitSettlementProjection execution projection with
      | error error => simp [checked] at returned
      | ok _ =>
          have identity : projection.sourceIdentity = execution.identity := by
            simpa [admitSettlementProjection] using checked
          simp only [checked, writeSettlement, bind_eq_ok, rethrow_eq_ok, pure_eq_ok,
            Except.ok.injEq] at returned
          obtain ⟨written, -, request, made, rfl⟩ := returned
          exact ⟨projection, written.receipt, request, rfl, identity, made⟩

theorem sound_settle {log : List (ActEvent σ)} {input : HookResult σ κ}
    (ready : StageReady log input.value.payload) (submitted : List GraphInterruptView)
    (coordinates : ActCoordinates) :
    Sound ((⟨.settle input, none, submitted, log⟩ : ActRun σ κ).extend ports coordinates
      (settleNode admission ports input)) := by
  cases admitted : settleInput admission input with
  | error error =>
      unfold settleNode
      rw [admitted]
      apply sound_extend
      · intro error
        rw [List.append_nil]
        exact ready
      · simp
  | ok execution =>
      have payload := settleInput_eq_ok admitted
      have executed : Executed execution.identity log := by rwa [payload] at ready
      have events : ∀ event ∈ (settleNode admission ports input).1,
          (∃ result, event = .project result) ∨ ∃ projection, event = .write projection ∧
            projection.sourceIdentity = execution.identity := settleNode_events admitted
      have written := executed.append events
      apply sound_extend
      · intro error
        show StageReady _ input.value.payload
        rw [payload]
        exact written
      · intro outcome returned
        obtain ⟨projection, receipt, request, rfl, identity, made⟩ :=
          settleNode_eq_ok admitted returned
        have nothing : publishedBy (.hookRequest request) = [] := publishedBy_hookRequest made
        rw [nothing, List.append_nil]
        apply sound_hookRequest none submitted made
        show Executed projection.sourceIdentity _
        rw [identity]
        exact written

end Nodes

/-! ## Runs -/

/-- The override a resume delivers keeps what was resolved and decided: an Allow is the caller's
Allow of the published invocation, and a Deny is not turned into a new request. -/
def delivers (resolved : ResolvedInvocation σ) (decision : AuthorizationDecision)
    (delivered : HookResult σ κ) : Bool :=
  match delivered.value.payload with
  | .resolveStageValue ⟨.resumedAuthorization resumed⟩ =>
      resumed.decision = .deny || (SameInvocation resolved resumed.resolved && decision = .allow)
  | .resolveStageValue ⟨.initialAuthorization _⟩ => decision = .allow
  | _ => true

/-- The last decision in a log. -/
def lastDecision (log : List (ActEvent σ)) : Option AuthorizationDecision :=
  (log.filterMap ActEvent.decision).getLast?

/-- The condition on one step: what the codec of the `AuthorizePort` delivers to Authorize, no
recovery of an Execute activation that has called its Port, and no awaiting state submitted twice. -/
def faithful (run : ActRun σ κ) : ActMove σ κ → Bool
  | .resume _ _ => true
  | .resubmit _ _ _ => false
  | .recover =>
      match run.point with
      | .execute _ => (executions run.log).isEmpty
      | _ => true
  | .activate ports _ =>
      match run.point with
      | .resuming payload =>
          match ports.decodeGraphInput payload with
          | .ok delivered => (publications run.log).all fun resolved =>
              (lastDecision run.log).all fun decision => delivers resolved decision delivered
          | .error _ => true
      | _ => true

section Runs

variable [DecidableEq σ] (admission : ActPayloadAdmission σ κ) (failureReason : String)

/-- Every step of a run meets the condition in the state before it. -/
def faithfulRun (run : ActRun σ κ) : List (ActMove σ κ) → Bool
  | [] => true
  | move :: moves => faithful run move &&
      faithfulRun (run.step admission failureReason move) moves

variable {admission failureReason}

omit [DecidableEq σ] in
/-- What a faithful override brings to Authorize. -/
theorem authorizeReady_of_delivers {log asks : List (ActEvent σ)} {resolved : ResolvedInvocation σ}
    {decision : AuthorizationDecision} {delivered : HookResult σ κ}
    (asked : Asked resolved log)
    (requests : ∀ event ∈ asks, ∃ other, event = .requestAuthorization other)
    (keeps : delivers resolved decision delivered = true) :
    AuthorizeReady (log ++ [.resumed decision] ++ asks) delivered.value.payload := by
  unfold delivers at keeps
  refine ⟨(asked.decide decision).asks requests, ?_, ?_⟩
  · intro other payload
    rw [payload] at keeps
    obtain rfl : decision = .allow := by simpa using keeps
    exact ⟨resolved, asked.allow.toAsked.asks requests⟩
  · intro resumed payload allow
    rw [payload] at keeps
    obtain ⟨same, rfl⟩ : SameInvocation resolved resumed.resolved ∧ decision = .allow := by
      simpa [allow] using keeps
    exact ⟨resolved, same, asked.allow.asks requests⟩

omit [DecidableEq σ] in
/-- The decision a run has been resumed with, and the invocation it has published. -/
theorem Decided.last {log : List (ActEvent σ)} (decided : Decided log) :
    ∃ earlier resolved decision asks, log = earlier ++ [.resumed decision] ++ asks ∧
      Asked resolved earlier ∧ (∀ event ∈ asks, ∃ other, event = .requestAuthorization other) ∧
      publications log = [resolved] ∧ lastDecision log = some decision := by
  obtain ⟨earlier, resolved, decision, asks, rfl, asked, requests⟩ := decided
  have quiet : asks.filterMap ActEvent.decision = [] := by
    refine List.filterMap_eq_nil_iff.mpr (fun event member => ?_)
    obtain ⟨other, rfl⟩ := requests event member
    rfl
  refine ⟨earlier, resolved, decision, asks, by simp, asked, requests, ?_, ?_⟩
  · have rest : publications (.resumed decision :: asks) = publications asks := rfl
    rw [publications_append, asked.published, rest, publications_asks requests, List.append_nil]
  · have rest : (ActEvent.resumed decision :: asks).filterMap ActEvent.decision =
        decision :: asks.filterMap ActEvent.decision := rfl
    rw [lastDecision, List.filterMap_append, rest, quiet, List.getLast?_concat]

theorem sound_resuming {log : List (ActEvent σ)} {payload : Bytes} {delivered : HookResult σ κ}
    (decided : Decided log) {ports : ActPorts σ κ} (submitted : List GraphInterruptView)
    (decoded : ports.decodeGraphInput payload = .ok delivered) (coordinates : ActCoordinates)
    (keeps : faithful (⟨.resuming payload, none, submitted, log⟩ : ActRun σ κ)
      (.activate ports coordinates) = true) :
    Sound ((⟨.resuming payload, none, submitted, log⟩ : ActRun σ κ).extend ports coordinates
      (authorizeNode admission ports failureReason delivered)) := by
  obtain ⟨earlier, resolved, decision, asks, rfl, asked, requests, published, last⟩ := decided.last
  have kept : delivers resolved decision delivered = true := by
    simp only [faithful, decoded, published, last] at keeps
    simpa using keeps
  apply sound_authorize (authorizeReady_of_delivers asked requests kept)
  intro error later again
  refine ⟨earlier, resolved, decision, asks ++ later, by simp, asked, ?_⟩
  intro event member
  rcases List.mem_append.mp member with old | new
  · exact requests event old
  · obtain ⟨other, same, -⟩ := again event new
    exact ⟨other, same⟩

theorem sound_activate {run : ActRun σ κ} (sound : Sound run) (ports : ActPorts σ κ)
    (coordinates : ActCoordinates) (keeps : faithful run (.activate ports coordinates) = true) :
    Sound (run.activate admission failureReason ports coordinates) := by
  obtain ⟨point, raised, submitted, log⟩ := run
  unfold ActRun.activate
  cases raised with
  | some error => exact sound
  | none =>
      cases point with
      | resolve request =>
          obtain rfl : log = [] := sound
          exact sound_resolve request submitted coordinates
      | hook request => exact sound_hook sound rfl
      | authorize input =>
          have ready : StageReady log input.value.payload := sound
          refine sound_authorize ⟨ready.safe, ?_, ?_⟩ ?_ coordinates
          · intro other payload
            rw [payload] at ready
            exact ⟨other, ready⟩
          · intro resumed payload
            rw [payload] at ready
            exact ready.elim
          · intro error asks again
            show StageReady (log ++ asks) input.value.payload
            cases asks with
            | nil => rwa [List.append_nil]
            | cons event asks =>
                obtain ⟨other, -, payload⟩ := again event List.mem_cons_self
                rw [payload] at ready again ⊢
                exact Asked.asks (fun event member => ⟨_, (again event member).choose_spec.1⟩) ready
      | resuming payload =>
          dsimp only
          cases decoded : ports.decodeGraphInput payload with
          | error error => exact sound
          | ok delivered => exact sound_resuming sound submitted decoded coordinates keeps
      | execute input =>
          have ready : StageReady log input.value.payload := by
            rcases sound with ready | ⟨raised, -⟩
            · exact ready
            · cases raised
          exact sound_execute ready submitted coordinates
      | settle input => exact sound_settle sound submitted coordinates
      | awaiting interrupt => exact sound
      | completed result => exact sound
      | failed reason => exact sound

omit [DecidableEq σ] in
/-- A recovery runs the node again with the input it had. -/
theorem sound_recover {run : ActRun σ κ} (sound : Sound run)
    (keeps : faithful run .recover = true) : Sound run.recover := by
  obtain ⟨point, raised, submitted, log⟩ := run
  cases point with
  | execute input =>
      rcases sound with ready | ⟨-, attempted⟩
      · exact .inl ready
      · have unexecuted : executions log = [] := List.isEmpty_iff.mp keeps
        exact absurd unexecuted attempted.executed
  | resolve request => exact sound
  | hook request => exact sound
  | authorize input => exact sound
  | awaiting interrupt => exact sound
  | resuming payload => exact sound
  | settle input => exact sound
  | completed result => exact sound
  | failed reason => exact sound

omit [DecidableEq σ] in
theorem sound_resume {run : ActRun σ κ} (sound : Sound run) (ports : ActPorts σ κ)
    (decision : AuthorizationDecision) : Sound (run.resume admission ports decision) := by
  unfold ActRun.resume
  cases point : run.point with
  | awaiting interrupt =>
      obtain ⟨resolved, asked⟩ : ∃ resolved, Asked resolved run.log := by
        rwa [Sound, point] at sound
      simp only [ActRun.submit]
      cases submission admission ports interrupt decision with
      | error error => exact sound
      | ok payload => exact ⟨run.log, resolved, decision, [], rfl, asked, by simp⟩
  | resolve request => exact sound
  | hook request => exact sound
  | authorize input => exact sound
  | resuming payload => exact sound
  | execute input => exact sound
  | settle input => exact sound
  | completed result => exact sound
  | failed reason => exact sound

theorem sound_steps {run : ActRun σ κ} (sound : Sound run) (moves : List (ActMove σ κ))
    (keeps : faithfulRun admission failureReason run moves = true) :
    Sound (run.steps admission failureReason moves) := by
  induction moves generalizing run with
  | nil => exact sound
  | cons move moves ih =>
      rw [faithfulRun, Bool.and_eq_true] at keeps
      apply ih _ keeps.2
      cases move with
      | activate ports coordinates => exact sound_activate sound ports coordinates keeps.1
      | recover => exact sound_recover sound keeps.1
      | resume ports decision => exact sound_resume sound ports decision
      | resubmit ports interrupt decision => cases keeps.1

/-! ## Authorization safety -/

/-- A run has ended in failure. -/
def ActPoint.hasFailed : ActPoint σ κ → Bool
  | .failed _ => true
  | _ => false

omit [DecidableEq σ] in
theorem StageReady.notDenied {log : List (ActEvent σ)} {payload : ActStageValue σ}
    (ready : StageReady log payload) : .resumed .deny ∉ log := by
  unfold StageReady at ready
  split at ready
  · exact Asked.notDenied ready
  · exact ready.elim
  · obtain ⟨resolved, -, allowed⟩ := ready
    exact allowed.notDenied
  · exact Executed.notDenied ready
  · exact Executed.notDenied ready

omit [DecidableEq σ] in
/-- In a run with a Deny, Authorize is about to fail or the run has failed. -/
theorem Sound.denied {run : ActRun σ κ} (sound : Sound run) (denied : .resumed .deny ∈ run.log) :
    run.point.hasFailed = true ∨ ∃ payload, run.point = .resuming payload := by
  obtain ⟨point, raised, submitted, log⟩ := run
  cases point with
  | resuming payload => exact .inr ⟨payload, rfl⟩
  | failed reason => exact .inl rfl
  | resolve request =>
      obtain rfl : log = [] := sound
      cases denied
  | awaiting interrupt =>
      obtain ⟨resolved, asked⟩ := sound
      exact absurd denied asked.notDenied
  | hook request => exact absurd denied sound.2.2.notDenied
  | completed result => exact absurd denied sound.1.notDenied
  | authorize input => exact absurd denied (StageReady.notDenied sound)
  | execute input =>
      rcases sound with ready | ⟨-, attempted⟩
      · exact absurd denied ready.notDenied
      · exact absurd denied attempted.notDenied
  | settle input => exact absurd denied (StageReady.notDenied sound)

/-- What authorization safety says of the state of a run. -/
structure AuthorizedRun (run : ActRun σ κ) : Prop where
  log : SafeLog run.log
  denied : .resumed .deny ∈ run.log →
    run.point.hasFailed = true ∨ ∃ payload, run.point = .resuming payload
  settled : ∀ result, run.point = .completed result → ∃ invocation settled,
    .execute invocation ∈ run.log ∧ result.value.payload = .settleStageValue settled ∧
    settled.projection.sourceIdentity = executionIdentity invocation

omit [DecidableEq σ] in
theorem Sound.safe {run : ActRun σ κ} (sound : Sound run) : SafeLog run.log := by
  obtain ⟨point, raised, submitted, log⟩ := run
  cases point with
  | resolve request =>
      obtain rfl : log = [] := sound
      exact safeLog_nil
  | hook request => exact sound.2.2.safe
  | authorize input => exact StageReady.safe sound
  | execute input =>
      rcases sound with ready | ⟨-, attempted⟩
      · exact ready.safe
      · exact attempted.safe
  | settle input => exact StageReady.safe sound
  | completed result => exact sound.1.safe
  | awaiting interrupt =>
      obtain ⟨resolved, asked⟩ := sound
      exact asked.safe
  | resuming payload =>
      obtain ⟨earlier, resolved, decision, asks, same, asked, requests, -, -⟩ := Decided.last sound
      rw [same]
      exact (asked.decide decision).asks requests
  | failed reason => exact sound

omit [DecidableEq σ] in
theorem Sound.authorized {run : ActRun σ κ} (sound : Sound run) : AuthorizedRun run := by
  refine ⟨sound.safe, sound.denied, ?_⟩
  intro result point
  rw [Sound, point] at sound
  obtain ⟨ready, settled, payload⟩ := sound
  rw [payload] at ready
  obtain ⟨invocation, executed, identity⟩ := Executed.executed ready
  exact ⟨invocation, settled, executed, payload, identity⟩

omit [DecidableEq σ] in
theorem log_prefix_extend (run : ActRun σ κ) (ports : ActPorts σ κ) (coordinates : ActCoordinates)
    (node : NodeRun σ) : run.log <+: (run.extend ports coordinates node).log := by
  unfold ActRun.extend
  split
  · exact List.prefix_append _ _
  · exact List.prefix_append _ _
  · rw [List.append_assoc]
    exact List.prefix_append _ _

theorem log_prefix_activate (run : ActRun σ κ) (ports : ActPorts σ κ)
    (coordinates : ActCoordinates) :
    run.log <+: (run.activate admission failureReason ports coordinates).log := by
  unfold ActRun.activate
  cases run.raised with
  | some error => exact List.prefix_rfl
  | none =>
      cases run.point with
      | resolve request => exact log_prefix_extend ..
      | hook request =>
          simp only [ActRun.passHook]
          split <;> exact List.prefix_rfl
      | authorize input => exact log_prefix_extend ..
      | resuming payload =>
          dsimp only
          cases ports.decodeGraphInput payload with
          | error error => exact List.prefix_rfl
          | ok input => exact log_prefix_extend ..
      | execute input => exact log_prefix_extend ..
      | settle input => exact log_prefix_extend ..
      | awaiting interrupt => exact List.prefix_rfl
      | completed result => exact List.prefix_rfl
      | failed reason => exact List.prefix_rfl

theorem activate_failed {run : ActRun σ κ} (failed : run.point.hasFailed = true)
    (ports : ActPorts σ κ) (coordinates : ActCoordinates) :
    run.activate admission failureReason ports coordinates = run := by
  obtain ⟨point, raised, submitted, log⟩ := run
  cases point with
  | failed reason => cases raised <;> rfl
  | resolve _ | hook _ | authorize _ | awaiting _ | resuming _ | execute _ | settle _
  | completed _ => cases failed

/-- An Authorize activation that settles does not wait for another resume. -/
theorem activate_resuming {run : ActRun σ κ} {payload : Bytes}
    (point : run.point = .resuming payload) (quiet : run.raised = none) (ports : ActPorts σ κ)
    (coordinates : ActCoordinates) (later : Bytes)
    (settled : (run.activate admission failureReason ports coordinates).raised = none) :
    (run.activate admission failureReason ports coordinates).point ≠ .resuming later := by
  unfold ActRun.activate at settled ⊢
  rw [quiet, point] at settled ⊢
  dsimp only at settled ⊢
  cases decoded : ports.decodeGraphInput payload with
  | error error => simp [decoded] at settled
  | ok delivered =>
      simp only [decoded, ActRun.extend] at settled ⊢
      cases returned : (authorizeNode admission ports failureReason delivered).2 with
      | error error => simp [returned] at settled
      | ok outcome =>
          cases confirmed : ports.confirm with
          | error error => simp [returned, confirmed] at settled
          | ok _ => cases outcome <;> simp [afterNode]

/-- In every run whose overrides keep what was resolved and decided, in which no Execute attempt is
run again and no awaiting state submitted again, an execution comes after an Allow, is of the
published invocation and happens once, a settlement has its identity, and a Deny ends in failure. -/
theorem act_runs_authorized (admission : ActPayloadAdmission σ κ) (failureReason : String)
    (request : ActRequest σ) (moves : List (ActMove σ κ))
    (keeps : faithfulRun admission failureReason (startAct request) moves = true) :
    let run := (startAct request).steps admission failureReason moves
    AuthorizedRun run ∧
    ∀ ports coordinates, .resumed .deny ∈ run.log → run.raised = none →
      faithful run (.activate ports coordinates) = true →
      let next := run.activate admission failureReason ports coordinates
      executions next.log = [] ∧ (next.point.hasFailed = true ∨ next.raised ≠ none) := by
  intro run
  have start : Sound (startAct request : ActRun σ κ) := by
    simp only [Sound, startAct]
  have sound : Sound run := sound_steps start moves keeps
  refine ⟨sound.authorized, ?_⟩
  intro ports coordinates denied quiet kept next
  have nextSound : Sound next := sound_activate sound ports coordinates kept
  have stillDenied : .resumed .deny ∈ next.log := (log_prefix_activate _ _ _).mem denied
  refine ⟨nextSound.safe.denied stillDenied, ?_⟩
  rcases nextSound.denied stillDenied with failed | ⟨later, waiting⟩
  · exact .inl failed
  · rcases sound.denied denied with failed | ⟨payload, point⟩
    · have same : next = run := activate_failed failed ports coordinates
      exact .inl (same ▸ failed)
    · right
      intro settled
      exact activate_resuming point quiet ports coordinates later settled waiting

end Runs

/-! ## A substituted invocation -/

def sampleRequest : ActRequest Unit := ⟨⟨"s", "i", "c"⟩, "t", [1], [2], ()⟩

def sampleResolved : ResolvedInvocation Unit := ⟨sampleRequest, "d", "safe", ⟨[1], [3]⟩⟩

/-- Ports that answer everything for one binding, and resume with a given invocation and
decision. -/
def samplePorts (resumed : ResolvedInvocation Unit) (decision : AuthorizationDecision)
    (paired : sampleRequest.pairing = resumed.request.pairing) : ActPorts Unit Unit where
  resolve _ := .ok (.resolvedInvocation sampleResolved)
  requestAuthorization resolved := .ok ⟨resolved.request.pairing, [9]⟩
  encodeInterrupt requestRef := .ok requestRef.handle
  buildResumeInput _ _ :=
    .ok ⟨.resumedAuthorization ⟨resumed, ⟨sampleRequest.pairing, [9]⟩, decision, paired⟩⟩
  encodeGraphInput _ := .ok []
  decodeGraphInput _ :=
    .ok (resumedHookResult ⟨resumed, ⟨sampleRequest.pairing, [9]⟩, decision, paired⟩)
  execute invocation := .ok (.toolExecutionResult ⟨executionIdentity invocation, [7]⟩)
  project result := .ok ⟨result.identity, [8]⟩
  write _ := .ok ⟨[6]⟩
  hook value := .ok (⟨value, []⟩, ⟨value, []⟩)
  confirm := .ok ()

def sampleAdmission : ActPayloadAdmission Unit Unit := ⟨fun _ => true, fun _ => true⟩

/-- The same Ports while the services behind Resolve and the commit fail. -/
def failingPorts (ports : ActPorts Unit Unit) : ActPorts Unit Unit :=
  { ports with resolve := fun _ => .error (.port "unavailable"),
               confirm := .error (.port "unavailable") }

/-- One authorization and a whole execution. Resolve raises at first, and the settlement of the
resumed Authorize is lost once; both are recovered. -/
def sampleMoves (ports : ActPorts Unit Unit) (decision : AuthorizationDecision) :
    List (ActMove Unit Unit) :=
  let activate := ActMove.activate ports ⟨[], ofString "run", 2, 1⟩
  let failing := ActMove.activate (failingPorts ports) ⟨[], ofString "run", 2, 1⟩
  [failing, .recover, activate, activate, activate, .resume ports decision, failing, .recover] ++
    List.replicate 6 activate

/-- A run that keeps its invocation settles what it executed. -/
theorem act_runs_authorized_sample :
    let ports := samplePorts sampleResolved .allow rfl
    let run := (startAct sampleRequest).steps sampleAdmission "denied" (sampleMoves ports .allow)
    executions run.log = [⟨sampleResolved⟩] ∧ AuthorizedRun run :=
  ⟨by decide +kernel, (act_runs_authorized sampleAdmission "denied" sampleRequest
    (sampleMoves (samplePorts sampleResolved .allow rfl) .allow) (by decide +kernel)).1⟩

/-- Neither recovery nor a second submission is harmless: each executes the invocation again. -/
example :
    let ports := samplePorts sampleResolved .allow rfl
    let activate := ActMove.activate ports ⟨[], ofString "run", 2, 1⟩
    let failing := ActMove.activate (failingPorts ports) ⟨[], ofString "run", 2, 1⟩
    let first : List (ActMove Unit Unit) :=
      [activate, activate, activate, .resume ports .allow, activate, activate]
    let view := interruptView ⟨[], ofString "run", 2, 1⟩ [9]
    let executed (moves : List (ActMove Unit Unit)) : Nat :=
      (executions ((startAct sampleRequest).steps sampleAdmission "denied"
        (first ++ moves)).log).length
    executed [failing, .recover, activate] = 2 ∧
      executed [activate, .resubmit ports view .allow, activate, activate, activate] = 2 := by
  decide +kernel

/-- The `AuthorizePort` resumes with another binding of the same pairing, and that is executed. -/
theorem substituted_invocation_executed :
    ¬ AuthorizedRun ((startAct sampleRequest).steps sampleAdmission "denied"
      (sampleMoves (samplePorts { sampleResolved with binding := "other" } .allow rfl) .allow)) := by
  intro authorized
  have split : ((startAct sampleRequest).steps sampleAdmission "denied"
      (sampleMoves (samplePorts { sampleResolved with binding := "other" } .allow rfl) .allow)).log =
      [.published sampleResolved, .requestAuthorization sampleResolved, .resumed .allow] ++
        .execute ⟨{ sampleResolved with binding := "other" }⟩ ::
        [.project ⟨⟨sampleRequest.pairing, "other", [3]⟩, [7]⟩,
          .write ⟨⟨sampleRequest.pairing, "other", [3]⟩, [8]⟩] := by
    decide +kernel
  obtain ⟨-, resolved, published, same⟩ := authorized.log.allowed _ _ _ split
  obtain rfl : resolved = sampleResolved := by simpa using published
  exact absurd same.binding (by decide)

end MoteKernel.Act
