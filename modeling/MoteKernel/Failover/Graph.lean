import MoteKernel.Failover.Policy

/-!
# The failover graph

`failover/assembly.py`: the three nodes around one single-attempt Port and the
runs of the graph they form,

    START → observe → invoke → prepare,  prepare –prepare→ invoke,  prepare –finish→ END.

The Port, the preparation capability and the Config an activation is bound to are
not the graph's: each activation meets them as its `Surroundings`, and they answer
as they like. A run keeps a log of the calls made of the two capabilities and of
every context its activations commit. An exception ends the run.
-/

namespace MoteKernel.Failover
open Checked

variable {ρ α β γ τ : Type}

/-! ## The Port projection of an activation -/

/-- `FailoverConfig`, less the capability it names. -/
structure FailoverConfig (τ : Type) where
  portId : String
  plan : FailoverPlan τ
  matchesPort : plan.portId = portId

/-- `_failover_config_for_port` over `Config.failovers`. -/
def failoverConfigForPort (failovers : List (FailoverConfig τ)) (portId : String)
    (required : Bool) : Except FailoverRaise (Option (FailoverConfig τ)) :=
  match failovers.filter (·.portId = portId) with
  | [] =>
      if required then
        .error (.contract "Config.bind requires a FailoverConfig for the requested Port")
      else
        .ok none
  | [selected] => .ok (some selected)
  | _ :: _ :: _ =>
      .error (.contract "Config.bind found duplicate FailoverConfig projections for one Port")

/-- `_runtime_plan`, and the plan of `_runtime_config`. -/
def runtimePlan (config : Option (List (FailoverConfig τ))) (required : Bool)
    (fallbackPlan : FailoverPlan τ) : Except FailoverRaise (FailoverPlan τ) :=
  match config with
  | none => .ok fallbackPlan
  | some failovers => do
      let found ← failoverConfigForPort failovers fallbackPlan.portId required
      let selected ← orRaise
        (.contract "failover Config binding did not provide the compiled Port projection") found
      raiseIf (selected.plan.portId ≠ fallbackPlan.portId)
        (.contract "failover Config binding changed the compiled Port contract")
      pure selected.plan

/-- The decorator `Failover`: its plan and whether its bindings require a projection. -/
structure FailoverDecorator (τ : Type) where
  config : FailoverPlan τ
  planRequired : Bool := true
  prepareRequired : Bool := true

/-! ## Frames -/

structure FailoverCall (ρ : Type) where
  operationId : String
  request : ρ
  canonical : isCanonicalIdentity operationId = true

/-- `_InvokeStep` and `_ObserveStep`. -/
inductive FailoverStep (ρ α β γ : Type) where
  | invoke (request : ρ) (context : RetryContext)
  | observe (request : ρ) (context : RetryContext) (outcome : PortOutcome α β γ)

def FailoverStep.context : FailoverStep ρ α β γ → RetryContext
  | .invoke _ context => context
  | .observe _ context _ => context

structure FailoverFrame (ρ α β γ τ : Type) where
  step : FailoverStep ρ α β γ
  plan : FailoverPlan τ

/-- The checks of `_FailoverFrame.__post_init__`. -/
def FailoverFrame.postInit (frame : FailoverFrame ρ α β γ τ) :
    Except FailoverRaise (FailoverFrame ρ α β γ τ) := do
  raiseIf (frame.step.context.planRevision ≠ frame.plan.planRevision)
    (.contract "failover frame context and plan revisions must match")
  pure frame

structure FailoverResult (ρ α β γ τ : Type) where
  request : ρ
  context : RetryContext
  outcome : PortOutcome α β γ
  decision : FailoverDecision τ

/-- The checks of `FailoverResult.__post_init__`. -/
def FailoverResult.postInit (result : FailoverResult ρ α β γ τ) :
    Except FailoverRaise (FailoverResult ρ α β γ τ) :=
  match result.decision, result.outcome with
  | .abort _, _ => .error (.contract "failover result cannot carry an abort decision")
  | .completed, .completed _ => .ok result
  | .completed, _ =>
      .error (.contract "a completed failover result requires a completed Port outcome")
  | _, _ => .ok result

/-! ## What an activation meets -/

/-- The Config the activation is bound to and the answers of the two capabilities: an
exception, or a value, `none` when it is not of the capability's result type. -/
structure Surroundings (ρ α β γ τ : Type) where
  config : Option (List (FailoverConfig τ)) := none
  invokeOnce : ρ → Except String (Option (PortOutcome α β γ))
  prepareNext : ρ → PreparationAction τ → Except String (Option ρ)

inductive FailoverEvent (ρ α β γ τ : Type) where
  | invoked (request : ρ) (answer : Except String (Option (PortOutcome α β γ)))
  | prepared (strategy : FailureStrategy) (action : PreparationAction τ)
  | committed (context : RetryContext)

/-- The value of a capability's answer. -/
def admitAnswer {δ : Type} (message : String) (answer : Except String (Option δ)) :
    Except FailoverRaise δ := do
  let value ← rethrow .capability answer
  orRaise (.contract message) value

/-- The plan an activation goes on with, of the revision its context captured. -/
def boundPlan (failover : FailoverDecorator τ) (config : Option (List (FailoverConfig τ)))
    (required : Bool) (context : RetryContext) : Except FailoverRaise (FailoverPlan τ) := do
  let plan ← runtimePlan config required failover.config
  raiseIf (context.planRevision ≠ plan.planRevision)
    (.contract "failover frame context and bound plan revisions must match")
  pure plan

/-! ## The nodes -/

/-- `_ObserveCall`. -/
def observeCall (failover : FailoverDecorator τ) (surroundings : Surroundings ρ α β γ τ)
    (call : FailoverCall ρ) : Except FailoverRaise (FailoverFrame ρ α β γ τ) := do
  let plan ← runtimePlan surroundings.config failover.planRequired failover.config
  FailoverFrame.postInit
    { step := .invoke call.request
        { operationId := call.operationId
          planRevision := plan.planRevision
          canonical := call.canonical
          revisionPositive := plan.revisionPositive }
      plan := plan }

/-- `_InvokeOnce`: the calls it makes and the frame it publishes. -/
def invokeOnce (failover : FailoverDecorator τ) (surroundings : Surroundings ρ α β γ τ)
    (frame : FailoverFrame ρ α β γ τ) :
    List (FailoverEvent ρ α β γ τ) × Except FailoverRaise (FailoverFrame ρ α β γ τ) :=
  match frame.step with
  | .observe _ _ _ => ([], .error (.contract "invoke node requires an invoke step"))
  | .invoke request context =>
      match boundPlan failover surroundings.config failover.planRequired context with
      | .error error => ([], .error error)
      | .ok plan =>
          let answer := surroundings.invokeOnce request
          ([.invoked request answer], do
            let outcome ← admitAnswer "single-attempt capability returned an unsupported outcome"
              answer
            FailoverFrame.postInit ⟨.observe request context outcome, plan⟩)

/-- The context of a rejected or unknown outcome names the failure. -/
def noteFailure (context : RetryContext) : PortOutcome α β γ → RetryContext
  | .rejected evidence | .unknown _ evidence =>
      { context with lastFailure := some evidence.category, lastSignal := some evidence.signal }
  | _ => context

/-- The context of the next attempt, its cursors moved by the action. -/
def nextContext (context : RetryContext) (strategy : FailureStrategy)
    (action : PreparationAction τ) : RetryContext :=
  let used := context.withStrategyUse strategy
  { used with
    requestVersion := used.requestVersion +
      (match action with | .transformRequest _ => 1 | _ => 0)
    attemptOrdinal := used.attemptOrdinal + 1
    endpointCursor := used.endpointCursor + (match action with | .switchEndpoint => 1 | _ => 0)
    credentialCursor := used.credentialCursor +
      (match action with | .rotateCredential => 1 | _ => 0)
    versionPositive := Nat.le_trans used.versionPositive (Nat.le_add_right _ _) }

inductive FailoverRoute where
  | prepare
  | finish
  deriving DecidableEq, Repr

/-- The `Graph.Outcome` of the prepare node. -/
inductive PrepareOutcome (ρ α β γ τ : Type) where
  | success (frame : FailoverFrame ρ α β γ τ) (result : FailoverResult ρ α β γ τ)
      (route : FailoverRoute)
  | failure (message : String)

/-- The end of `_PrepareNextAttempt`, once its outcome is decided. -/
def settleDecision (surroundings : Surroundings ρ α β γ τ) (plan : FailoverPlan τ)
    (result : FailoverResult ρ α β γ τ) :
    List (FailoverEvent ρ α β γ τ) × Except FailoverRaise (PrepareOutcome ρ α β γ τ) :=
  match result.decision with
  | .prepare strategy action _ =>
      ([.prepared strategy action], do
        let prepared ← admitAnswer "preparation capability must return a PreparedRequest"
          (surroundings.prepareNext result.request action)
        let next ← FailoverFrame.postInit
          ⟨.invoke prepared (nextContext result.context strategy action), plan⟩
        pure (.success next result .prepare))
  | _ =>
      ([], do
        let next ← FailoverFrame.postInit
          ⟨.observe result.request result.context result.outcome, plan⟩
        pure (.success next result .finish))

/-- `_PrepareNextAttempt`: the calls it makes and the outcome it returns. -/
def prepareNextAttempt (failover : FailoverDecorator τ) (surroundings : Surroundings ρ α β γ τ)
    (frame : FailoverFrame ρ α β γ τ) :
    List (FailoverEvent ρ α β γ τ) × Except FailoverRaise (PrepareOutcome ρ α β γ τ) :=
  match frame.step with
  | .invoke _ _ => ([], .error (.contract "prepare node requires an observe step"))
  | .observe request context outcome =>
      let decided := do
        let plan ← boundPlan failover surroundings.config failover.prepareRequired context
        let decision ← observeAndRoute outcome plan context
        pure (plan, decision)
      match decided with
      | .error error => ([], .error error)
      | .ok (_, .abort _) => ([], .ok (.failure "failover policy aborted the operation"))
      | .ok (plan, decision) =>
          match FailoverResult.postInit
              ⟨request, noteFailure context outcome, outcome, decision⟩ with
          | .error error => ([], .error error)
          | .ok result => settleDecision surroundings plan result

/-! ## Runs -/

inductive Phase (ρ α β γ τ : Type) where
  | observe (call : FailoverCall ρ)
  | invoke (frame : FailoverFrame ρ α β γ τ)
  | prepare (frame : FailoverFrame ρ α β γ τ)
  | finished (result : FailoverResult ρ α β γ τ)
  | failed (message : String)
  | raised (error : FailoverRaise)

def Phase.ended : Phase ρ α β γ τ → Bool
  | .finished _ | .failed _ | .raised _ => true
  | _ => false

structure FailoverRun (ρ α β γ τ : Type) where
  phase : Phase ρ α β γ τ
  log : List (FailoverEvent ρ α β γ τ) := []

/-- The activation the run is waiting for; a run that has ended has none. -/
def activate (failover : FailoverDecorator τ) (surroundings : Surroundings ρ α β γ τ)
    (run : FailoverRun ρ α β γ τ) : FailoverRun ρ α β γ τ :=
  match run.phase with
  | .observe call =>
      match observeCall failover surroundings call with
      | .error error => ⟨.raised error, run.log⟩
      | .ok frame => ⟨.invoke frame, run.log ++ [.committed frame.step.context]⟩
  | .invoke frame =>
      match invokeOnce failover surroundings frame with
      | (events, .error error) => ⟨.raised error, run.log ++ events⟩
      | (events, .ok next) =>
          ⟨.prepare next, run.log ++ events ++ [.committed next.step.context]⟩
  | .prepare frame =>
      match prepareNextAttempt failover surroundings frame with
      | (events, .error error) => ⟨.raised error, run.log ++ events⟩
      | (events, .ok (.failure message)) => ⟨.failed message, run.log ++ events⟩
      | (events, .ok (.success next result .prepare)) =>
          ⟨.invoke next,
            run.log ++ events ++ [.committed next.step.context, .committed result.context]⟩
      | (events, .ok (.success next result .finish)) =>
          ⟨.finished result,
            run.log ++ events ++ [.committed next.step.context, .committed result.context]⟩
  | .finished _ | .failed _ | .raised _ => run

end MoteKernel.Failover
