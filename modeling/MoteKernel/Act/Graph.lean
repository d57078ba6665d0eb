import MoteKernel.Act.Contract
import MoteKernel.State.Text

/-!
# The Act graph

The four business nodes, the shared Hook and `ActNode.resume_authorization`, and
the runs of the graph that `ActNode.__init__` assembles. Every frontier of that
graph has one node, so a run is at one point at a time. The Ports are asked anew
at every step: a run may meet any answer at any time, an exception included. Which
Port a Config revision selects is one of those answers. An activation that raises,
or whose settlement the commit does not confirm, leaves the scope running at its
point, and a recovery runs the node again.
-/

namespace MoteKernel.Act
open Checked

/-- What ends a node early: a contract error of Act, or an exception of a Port. -/
inductive ActRaise where
  | contract (error : ActContractError)
  | port (message : String)
  deriving DecidableEq, Repr

/-! ## Interrupt views -/

/-- `GraphInterruptView`. Its identities are those of the run, which may hold surrogates. -/
structure GraphInterruptView where
  scope : List Text
  nodeId : Text
  interruptId : Text
  requestPayload : Bytes
  deriving DecidableEq

structure AuthorizationInterruptView where
  scope : List Text
  nodeId : Text
  interruptId : Text
  requestPayload : Bytes
  deriving DecidableEq

/-- `_SCOPE_MAX_SEGMENTS`. -/
def scopeMaxSegments : Nat := 16

/-- `_SCOPE_MAX_BYTES`. -/
def scopeMaxBytes : Nat := 4096

/-- `len(text.encode("utf-8"))`, with what a `UnicodeEncodeError` is turned into. -/
def encodedLength (text : Text) (message : String) : Except ActContractError Nat :=
  match utf8Length text with
  | some length => .ok length
  | none => .error ⟨message⟩

/-- The loop of `_require_scope`; `total` is what the earlier segments take. -/
def requireSegments (total : Nat) : List Text → Except ActContractError Unit
  | [] => .ok ()
  | segment :: rest => do
      raiseIf (isCanonical segment = false)
        ⟨"interrupt scope segments must be canonical strings"⟩
      let length ← encodedLength segment "interrupt scope segments must be valid UTF-8"
      raiseIf (scopeMaxBytes < total + length)
        ⟨"interrupt scope exceeds its 4096-byte limit"⟩
      raiseIf (256 < length)
        ⟨"interrupt scope segment exceeds its 256-byte limit"⟩
      requireSegments (total + length) rest

/-- `_require_scope`. -/
def requireScope (scope : List Text) : Except ActContractError Unit := do
  raiseIf (scopeMaxSegments < scope.length)
    ⟨"interrupt scope must contain zero to sixteen segments"⟩
  requireSegments 0 scope

/-- `AuthorizationInterruptView.__post_init__`. -/
def AuthorizationInterruptView.postInit (view : AuthorizationInterruptView) :
    Except ActContractError Unit := do
  requireScope view.scope
  raiseIf (view.nodeId ≠ ofString "authorize")
    ⟨"authorization interrupt node_id must be authorize"⟩
  raiseIf (isCanonical view.interruptId = false)
    ⟨"authorization interrupt_id must be canonical"⟩
  let length ← encodedLength view.interruptId "authorization interrupt_id must be valid UTF-8"
  raiseIf (256 < length) ⟨"authorization interrupt_id exceeds its 256-byte limit"⟩
  let _ ← admitInterruptPayload view.requestPayload
  return ()

variable {σ κ : Type}

/-! ## Ports -/

/-- The answers of every Port at one moment, of the Hook invocation for each priority, and of the
commit for what the step settles. -/
structure ActPorts (σ κ : Type) where
  resolve : ActRequest σ → Except ActRaise (ResolvePortResult σ)
  requestAuthorization : ResolvedInvocation σ → Except ActRaise AuthorizationRequestRef
  encodeInterrupt : AuthorizationRequestRef → Except ActRaise Bytes
  buildResumeInput : AuthorizationInterruptView → AuthorizationDecision →
    Except ActRaise (AuthorizationInput σ)
  encodeGraphInput : HookResult σ κ → Except ActRaise Bytes
  decodeGraphInput : Bytes → Except ActRaise (HookResult σ κ)
  execute : AuthorizedInvocation σ → Except ActRaise ExecutePortResult
  project : ToolExecutionResult → Except ActRaise SettlementProjection
  write : SettlementProjection → Except ActRaise ToolExchangeWriteResult
  hook : ActHookEnvelope σ → Except ActRaise (HookStageResult σ κ × HookStageResult σ κ)
  confirm : Except ActRaise Unit

/-- What happens in a run, in order: what a node asks of a Port, what the confirmed settlement of
Resolve publishes, and what the caller decides. -/
inductive ActEvent (σ : Type) where
  | published (resolved : ResolvedInvocation σ)
  | requestAuthorization (resolved : ResolvedInvocation σ)
  | resumed (decision : AuthorizationDecision)
  | execute (invocation : AuthorizedInvocation σ)
  | project (result : ToolExecutionResult)
  | write (projection : SettlementProjection)
  deriving DecidableEq

/-- What a business node returns. -/
inductive NodeOutcome (σ : Type) where
  | hookRequest (request : HookActivationRequest σ)
  | failure (reason : String)
  | interrupt (payload : Bytes)

/-- A node's events and how it ends. -/
abbrev NodeRun (σ : Type) := List (ActEvent σ) × Except ActRaise (NodeOutcome σ)

section Nodes

variable [DecidableEq σ] (admission : ActPayloadAdmission σ κ) (ports : ActPorts σ κ)

/-- The value a stage sends into the shared Hook, after its own admission. -/
def hookRequestOf (stage : ActHookStage) (payload : ActStageValue σ) (hookState : σ) :
    Except ActContractError (HookActivationRequest σ) := do
  let state ← admission.admitHookState hookState
  let request : HookActivationRequest σ :=
    ⟨⟨stage, payload, state⟩, state, some (stageNodeId stage)⟩
  admission.admitHookRequest request
  return request

/-- What `ResolveNode` returns for an answer of its Port. -/
def resolveOutcome (request : ActRequest σ) : ResolvePortResult σ → NodeRun σ
  | .resolutionStopped reason => ([], .ok (.failure reason))
  | .resolvedInvocation resolved =>
      if resolved.request ≠ request then
        ([], .error (.contract ⟨"resolved invocation request does not match Act request"⟩))
      else
        match hookRequestOf admission .resolve
            (.resolveStageValue ⟨.initialAuthorization resolved⟩) request.hookState with
        | .error error => ([], .error (.contract error))
        | .ok hookRequest => ([], .ok (.hookRequest hookRequest))

/-- `ResolveNode.__call__`. -/
def resolveNode (request : ActRequest σ) : NodeRun σ :=
  match ports.resolve request with
  | .error error => ([], .error error)
  | .ok result => resolveOutcome admission request result

/-- The authorization input of an Authorize activation. -/
def authorizeInput (input : HookResult σ κ) :
    Except ActContractError (AuthorizationInput σ) := do
  admission.admitHookResult input
  match input.value.stage, input.value.payload with
  | .resolve, .resolveStageValue authorization => return authorization
  | _, _ => throw ⟨"authorize input must be a Resolve Hook envelope"⟩

/-- The first phase of Authorize: ask, and interrupt with what the Port encodes. -/
def askAuthorization (resolved : ResolvedInvocation σ) : Except ActRaise (NodeOutcome σ) := do
  let requestRef ← ports.requestAuthorization resolved
  rethrow .contract (raiseIf (requestRef.pairing ≠ resolved.request.pairing)
    ⟨"authorization request pairing does not match resolved invocation"⟩)
  let encoded ← ports.encodeInterrupt requestRef
  let payload ← rethrow .contract (admitInterruptPayload encoded)
  return .interrupt payload

/-- `AuthorizeNode.__call__`. -/
def authorizeNode (failureReason : String) (input : HookResult σ κ) : NodeRun σ :=
  match authorizeInput admission input with
  | .error error => ([], .error (.contract error))
  | .ok ⟨.initialAuthorization resolved⟩ =>
      ([.requestAuthorization resolved], askAuthorization ports resolved)
  | .ok ⟨.resumedAuthorization resumed⟩ =>
      match resumed.decision with
      | .deny => ([], .ok (.failure failureReason))
      | .allow => ([], rethrow .contract (do
          let request ← hookRequestOf admission .authorize
            (.authorizeStageValue ⟨resumed.resolved⟩) input.value.hookState
          return .hookRequest request))

/-- The invocation of an Execute activation. -/
def executeInput (input : HookResult σ κ) :
    Except ActContractError (AuthorizedInvocation σ) := do
  admission.admitHookResult input
  match input.value.stage, input.value.payload with
  | .authorize, .authorizeStageValue invocation => return invocation
  | _, _ => throw ⟨"execute input must be an Authorize Hook envelope"⟩

/-- What `ExecuteNode` returns for an answer of its Port. -/
def executeOutcome (invocation : AuthorizedInvocation σ) (hookState : σ) :
    ExecutePortResult → Except ActContractError (NodeOutcome σ)
  | .executionStopped reason => return .failure reason
  | .toolExecutionResult execution => do
      admitExecutionResult invocation execution
      let request ← hookRequestOf admission .execute (.executeStageValue execution) hookState
      return .hookRequest request

/-- `ExecuteNode.__call__`. -/
def executeNode (input : HookResult σ κ) : NodeRun σ :=
  match executeInput admission input with
  | .error error => ([], .error (.contract error))
  | .ok invocation =>
      ([.execute invocation], do
        let outcome ← ports.execute invocation
        rethrow .contract (executeOutcome admission invocation input.value.hookState outcome))

/-- The execution result of a Settle activation. -/
def settleInput (input : HookResult σ κ) : Except ActContractError ToolExecutionResult := do
  admission.admitHookResult input
  match input.value.stage, input.value.payload with
  | .execute, .executeStageValue result => return result
  | _, _ => throw ⟨"settle input must be an Execute Hook envelope"⟩

/-- `SettleNode.__call__` after the projection. -/
def writeSettlement (projection : SettlementProjection) (hookState : σ) :
    Except ActRaise (NodeOutcome σ) := do
  let written ← ports.write projection
  let request ← rethrow .contract (hookRequestOf admission .settle
    (.settleStageValue ⟨projection, written.receipt⟩) hookState)
  return .hookRequest request

/-- `SettleNode.__call__` from the answer of its projection Port. -/
def settleProjection (execution : ToolExecutionResult) (hookState : σ)
    (projection : SettlementProjection) : NodeRun σ :=
  match admitSettlementProjection execution projection with
  | .error error => ([.project execution], .error (.contract error))
  | .ok () => ([.project execution, .write projection],
      writeSettlement admission ports projection hookState)

/-- `SettleNode.__call__`. -/
def settleNode (input : HookResult σ κ) : NodeRun σ :=
  match settleInput admission input with
  | .error error => ([], .error (.contract error))
  | .ok execution =>
      match ports.project execution with
      | .error error => ([.project execution], .error error)
      | .ok projection =>
          settleProjection admission ports execution input.value.hookState projection

/-- `HookPort.execute` for one priority. -/
def hookPort (request : HookActivationRequest σ) (result : HookStageResult σ κ) :
    Except ActContractError Unit := do
  raiseIf (admission.hookStateType request.state = false)
    ⟨"hook state has an unexpected payload type"⟩
  raiseIf (∃ command ∈ result.commands, admission.hookCommandType command = false)
    ⟨"hook command has an unexpected payload type"⟩
  admission.admitTransition request result

/-- The P1 and P2 nodes of the shared Hook. -/
def hookNode (request : HookActivationRequest σ) : Except ActRaise (HookResult σ κ) := do
  let (first, second) ← ports.hook request.value
  rethrow .contract (hookPort admission request first)
  let progress : HookActivationRequest σ := { request with value := first.value }
  rethrow .contract (hookPort admission progress second)
  return ⟨second.value, first.commands ++ second.commands, request.nodeId⟩

/-! ## Resuming -/

/-- `Graph.ResumeAction`, with the Hook result it delivers. -/
structure ResumeAction (σ κ : Type) where
  scope : List Text
  nodeId : GraphNodeId
  interruptId : Text
  hookResult : HookResult σ κ

/-- The Hook result that carries a resumed input to Authorize. -/
def resumedHookResult (resumed : ResumedAuthorization σ) : HookResult σ κ :=
  ⟨⟨.resolve, .resolveStageValue ⟨.resumedAuthorization resumed⟩,
    resumed.resolved.request.hookState⟩, [], some "resolve"⟩

/-- The resumed phase `build_resume_input` has to return. -/
def requireResumed : AuthorizationInput σ → Except ActContractError (ResumedAuthorization σ)
  | ⟨.resumedAuthorization resumed⟩ => .ok resumed
  | ⟨.initialAuthorization _⟩ =>
      .error ⟨"AuthorizePort resume input must use ResumedAuthorization"⟩

/-- The one awaiting interrupt an identity names. -/
def matchInterrupt (interrupts : List GraphInterruptView) (interruptId : Text) :
    Except ActContractError GraphInterruptView :=
  match interrupts.filter (fun interrupt => interrupt.interruptId = interruptId) with
  | [interrupt] => .ok interrupt
  | _ => .error ⟨"authorization interrupt_id must identify exactly one awaiting interrupt"⟩

/-- `ActNode.resume_authorization`. -/
def resumeAuthorization (interrupts : List GraphInterruptView) (interruptId : Text)
    (decision : AuthorizationDecision) : Except ActRaise (ResumeAction σ κ) := do
  let interrupt ← rethrow .contract (matchInterrupt interrupts interruptId)
  let view : AuthorizationInterruptView :=
    ⟨interrupt.scope, interrupt.nodeId, interrupt.interruptId, interrupt.requestPayload⟩
  rethrow .contract view.postInit
  let input ← ports.buildResumeInput view decision
  let resumed ← rethrow .contract (requireResumed input)
  let hookResult : HookResult σ κ := resumedHookResult resumed
  rethrow .contract (admission.admitHookResult hookResult)
  return ⟨interrupt.scope, "authorize", interrupt.interruptId, hookResult⟩

/-- What the caller submits for an awaiting interrupt: the override, encoded and committed. -/
def submission (interrupt : GraphInterruptView) (decision : AuthorizationDecision) :
    Except ActRaise Bytes := do
  let action : ResumeAction σ κ ←
    resumeAuthorization admission ports [interrupt] interrupt.interruptId decision
  let payload ← ports.encodeGraphInput action.hookResult
  ports.confirm
  return payload

end Nodes

/-! ## Runs -/

/-- Where a run is. `resuming` is the Authorize activation whose input a resume has replaced. -/
inductive ActPoint (σ κ : Type) where
  | resolve (request : ActRequest σ)
  | hook (request : HookActivationRequest σ)
  | authorize (input : HookResult σ κ)
  | awaiting (interrupt : GraphInterruptView)
  | resuming (payload : Bytes)
  | execute (input : HookResult σ κ)
  | settle (input : HookResult σ κ)
  | completed (result : HookResult σ κ)
  | failed (reason : String)

/-- A run: its point, what the activation there has raised, the awaiting interrupts the caller has
submitted, and what has happened. -/
structure ActRun (σ κ : Type) where
  point : ActPoint σ κ
  raised : Option ActRaise := none
  submitted : List GraphInterruptView := []
  log : List (ActEvent σ) := []

/-- The coordinates the graph gives an activation. -/
structure ActCoordinates where
  scope : List Text
  runId : Text
  superstep : Nat
  executionGeneration : Nat

/-- One step of a run: the graph activates its node, the confirmed snapshot is recovered after an
activation that raised, the caller resumes the interrupt, or the caller submits an awaiting state
again. -/
inductive ActMove (σ κ : Type) where
  | activate (ports : ActPorts σ κ) (coordinates : ActCoordinates)
  | recover
  | resume (ports : ActPorts σ κ) (decision : AuthorizationDecision)
  | resubmit (ports : ActPorts σ κ) (interrupt : GraphInterruptView)
      (decision : AuthorizationDecision)

/-- The awaiting interrupt an Authorize activation leaves. -/
def interruptView (coordinates : ActCoordinates) (payload : Bytes) : GraphInterruptView :=
  ⟨coordinates.scope, ofString "authorize", Text.graphInterruptId coordinates.runId
    coordinates.superstep (ofString "authorize") coordinates.executionGeneration, payload⟩

/-- Every business node leads to the shared Hook. -/
def afterNode (coordinates : ActCoordinates) : NodeOutcome σ → ActPoint σ κ
  | .hookRequest request => .hook request
  | .failure reason => .failed reason
  | .interrupt payload => .awaiting (interruptView coordinates payload)

/-- The invocation a stage value publishes, when it is Resolve's. -/
def stagePublication : ActStageValue σ → List (ActEvent σ)
  | .resolveStageValue ⟨.initialAuthorization resolved⟩ => [.published resolved]
  | _ => []

/-- What a confirmed settlement publishes of a resolved invocation. -/
def publishedBy : NodeOutcome σ → List (ActEvent σ)
  | .hookRequest request => stagePublication request.value.payload
  | .failure _ | .interrupt _ => []

/-- The conditional edges of the Hook: the node it reports decides the next one. -/
def afterHook (result : HookResult σ κ) : Except ActRaise (ActPoint σ κ) :=
  match result.nodeId with
  | some "resolve" => .ok (.authorize result)
  | some "authorize" => .ok (.execute result)
  | some "execute" => .ok (.settle result)
  | some "settle" => .ok (.completed result)
  | _ => .error (.port "Hook completion has no declared route")

section Run

variable [DecidableEq σ] (admission : ActPayloadAdmission σ κ) (failureReason : String)

/-- A business node has run: its events, and where the run goes once the settlement is confirmed. -/
def ActRun.extend (run : ActRun σ κ) (ports : ActPorts σ κ) (coordinates : ActCoordinates)
    (node : NodeRun σ) : ActRun σ κ :=
  match node.2, ports.confirm with
  | .error error, _ | .ok _, .error error =>
      { run with raised := some error, log := run.log ++ node.1 }
  | .ok outcome, .ok () =>
      { run with point := afterNode coordinates outcome,
                 log := run.log ++ node.1 ++ publishedBy outcome }

/-- The shared Hook has run; its two priorities are one step here. -/
def ActRun.passHook (run : ActRun σ κ) (ports : ActPorts σ κ)
    (hook : Except ActRaise (HookResult σ κ)) : ActRun σ κ :=
  match hook >>= afterHook, ports.confirm with
  | .error error, _ | .ok _, .error error => { run with raised := some error }
  | .ok point, .ok () => { run with point := point }

/-- One activation. -/
def ActRun.activate (run : ActRun σ κ) (ports : ActPorts σ κ) (coordinates : ActCoordinates) :
    ActRun σ κ :=
  match run.raised with
  | some _ => run
  | none =>
      match run.point with
      | .resolve request => run.extend ports coordinates (resolveNode admission ports request)
      | .hook request => run.passHook ports (hookNode admission ports request)
      | .authorize input =>
          run.extend ports coordinates (authorizeNode admission ports failureReason input)
      | .resuming payload =>
          match ports.decodeGraphInput payload with
          | .error error => { run with raised := some error }
          | .ok input =>
              run.extend ports coordinates (authorizeNode admission ports failureReason input)
      | .execute input => run.extend ports coordinates (executeNode admission ports input)
      | .settle input => run.extend ports coordinates (settleNode admission ports input)
      | .awaiting _ | .completed _ | .failed _ => run

/-- `fence_after_worker_failure` leaves the scope running, so the node can be run again. -/
def ActRun.recover (run : ActRun σ κ) : ActRun σ κ :=
  { run with raised := none }

/-- An awaiting state is submitted with a resume; a rejected one changes nothing. -/
def ActRun.submit (run : ActRun σ κ) (ports : ActPorts σ κ) (interrupt : GraphInterruptView)
    (decision : AuthorizationDecision) : ActRun σ κ :=
  match submission admission ports interrupt decision with
  | .error _ => run
  | .ok payload => ⟨.resuming payload, none, run.submitted ++ [interrupt],
      run.log ++ [.resumed decision]⟩

/-- The caller resumes the awaiting interrupt. -/
def ActRun.resume (run : ActRun σ κ) (ports : ActPorts σ κ)
    (decision : AuthorizationDecision) : ActRun σ κ :=
  match run.point with
  | .awaiting interrupt => run.submit admission ports interrupt decision
  | _ => run

/-- `admit_snapshot` compares a continuation with the state it was made with, so both are accepted
again after the run has gone on. -/
def ActRun.resubmit (run : ActRun σ κ) (ports : ActPorts σ κ) (interrupt : GraphInterruptView)
    (decision : AuthorizationDecision) : ActRun σ κ :=
  if interrupt ∈ run.submitted then run.submit admission ports interrupt decision else run

def ActRun.step (run : ActRun σ κ) : ActMove σ κ → ActRun σ κ
  | .activate ports coordinates => run.activate admission failureReason ports coordinates
  | .recover => run.recover
  | .resume ports decision => run.resume admission ports decision
  | .resubmit ports interrupt decision => run.resubmit admission ports interrupt decision

/-- A whole run. -/
def ActRun.steps (run : ActRun σ κ) (moves : List (ActMove σ κ)) : ActRun σ κ :=
  moves.foldl (fun run move => run.step admission failureReason move) run

end Run

/-- A run of the Act graph starts at Resolve. -/
def startAct (request : ActRequest σ) : ActRun σ κ := { point := .resolve request }

end MoteKernel.Act
