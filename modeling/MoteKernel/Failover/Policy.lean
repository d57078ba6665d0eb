import Mathlib.Data.NNRat.Lemmas
import Mathlib.Data.List.Nodup
import MoteKernel.Lib.Checked
import MoteKernel.State.Identity

/-!
# The failover policy

The values of `failover/contract.py` and `failover/plan.py` that one Port
operation carries, and the pure routing of `failover/policy.py`. A budget and a
context carry what their constructors check. Durations are finite and
non-negative by those checks, and doubling or comparing them loses nothing, so
they are non-negative rationals.
-/

namespace MoteKernel.Failover
open Checked

/-- `FailoverContractError`, or an exception of the wrapped Port or of the
preparation capability. -/
inductive FailoverRaise where
  | contract (message : String)
  | capability (message : String)
  deriving DecidableEq, Repr

/-! ## Evidence and outcomes -/

inductive FailureClass where
  | rateLimited
  | authRejected
  | serviceUnavailable
  | invalidRequest
  | requestTimeout
  | noResponse
  | unknownOutcome
  | policyDenied
  deriving DecidableEq, Repr

inductive FailureStrategy where
  | wait
  | transformRequest
  | refreshCredential
  | rotateCredential
  | switchEndpoint
  | returnToModel
  | abort
  deriving DecidableEq, Repr

structure FailureSignal where
  statusCode : Option Nat := none
  errorHint : Option String := none
  deriving DecidableEq, Repr

structure FailureEvidence where
  category : FailureClass := .unknownOutcome
  statusCode : Option Nat := none
  errorHint : Option String := none
  retryAfterSeconds : Option ℚ≥0 := none
  deriving DecidableEq

def FailureEvidence.signal (evidence : FailureEvidence) : FailureSignal :=
  ⟨evidence.statusCode, evidence.errorHint⟩

/-- What one wire attempt reports: a result, a rejection, a receipt or an opaque handle. -/
inductive PortOutcome (α β γ : Type) where
  | completed (response : α)
  | rejected (evidence : FailureEvidence)
  | inProgress (receipt : β)
  | unknown (handle : Option γ) (evidence : FailureEvidence)

def PortOutcome.isRejected {α β γ : Type} : PortOutcome α β γ → Bool
  | .rejected _ => true
  | _ => false

inductive PreparationAction (τ : Type) where
  | wait (delaySeconds : ℚ≥0)
  | transformRequest (instruction : τ)
  | refreshCredential
  | rotateCredential
  | switchEndpoint

/-! ## Plans -/

structure StrategyLimit where
  strategy : FailureStrategy
  maxUses : Nat
  deriving DecidableEq, Repr

structure RetryBudget where
  maxWireAttempts : Nat := 3
  hardMaxWireAttempts : Nat := 10
  defaultMaxStrategyUses : Nat := 1
  strategyLimits : List StrategyLimit := []
  positive : 1 ≤ maxWireAttempts := by decide
  bounded : maxWireAttempts ≤ hardMaxWireAttempts := by decide
  distinct : (strategyLimits.map (·.strategy)).Nodup := by decide

/-- The strategy's own limit, or else the unified one. -/
def RetryBudget.maxUsesFor (budget : RetryBudget) (strategy : FailureStrategy) : Nat :=
  match budget.strategyLimits.find? (·.strategy = strategy) with
  | some limit => limit.maxUses
  | none => budget.defaultMaxStrategyUses

structure RetryTiming where
  baseBackoffSeconds : ℚ≥0 := 0
  maxBackoffSeconds : ℚ≥0 := 60
  ordered : baseBackoffSeconds ≤ maxBackoffSeconds := by decide

structure FailoverProfile (τ : Type) where
  profileId : String
  budget : RetryBudget := {}
  timing : RetryTiming := {}
  /-- The instruction of the profile's `TransformRequest`. -/
  requestTransform : Option τ := none

structure FailoverPlan (τ : Type) where
  planRevision : Nat
  portId : String
  profile : FailoverProfile τ
  revisionPositive : 1 ≤ planRevision := by decide

/-! ## The retry context -/

structure StrategyUsage where
  strategy : FailureStrategy
  used : Nat := 0
  deriving DecidableEq, Repr

/-- `RetryContext` with the conditions its constructor and every `replace` check again. -/
structure RetryContext where
  operationId : String
  planRevision : Nat
  requestVersion : Nat := 1
  attemptOrdinal : Nat := 0
  endpointCursor : Nat := 0
  credentialCursor : Nat := 0
  strategyUsages : List StrategyUsage := []
  lastFailure : Option FailureClass := none
  lastSignal : Option FailureSignal := none
  lastStrategy : Option FailureStrategy := none
  canonical : isCanonicalIdentity operationId = true
  revisionPositive : 1 ≤ planRevision
  versionPositive : 1 ≤ requestVersion := by decide
  distinct : (strategyUsages.map (·.strategy)).Nodup := by decide

/-- The committed count of one strategy in a list of usages. -/
def usesIn (usages : List StrategyUsage) (strategy : FailureStrategy) : Nat :=
  match usages.find? (·.strategy = strategy) with
  | some usage => usage.used
  | none => 0

/-- The usages of `with_strategy_use`: the strategy's entry moves to the end, one higher. -/
def recordUse (usages : List StrategyUsage) (strategy : FailureStrategy) : List StrategyUsage :=
  usages.filter (·.strategy ≠ strategy) ++ [⟨strategy, usesIn usages strategy + 1⟩]

theorem recordUse_distinct {usages : List StrategyUsage}
    (distinct : (usages.map (·.strategy)).Nodup) (strategy : FailureStrategy) :
    ((recordUse usages strategy).map (·.strategy)).Nodup := by
  rw [recordUse, List.map_append, List.nodup_append]
  refine ⟨?_, by simp, ?_⟩
  · exact distinct.sublist (List.filter_sublist.map _)
  · intro other member last single
    simp only [List.mem_map, List.mem_filter, decide_eq_true_eq] at member
    obtain ⟨usage, ⟨-, different⟩, rfl⟩ := member
    simp only [List.map_cons, List.map_nil, List.mem_singleton] at single
    rw [single]
    exact different

namespace RetryContext

def usesFor (context : RetryContext) (strategy : FailureStrategy) : Nat :=
  usesIn context.strategyUsages strategy

def withStrategyUse (context : RetryContext) (strategy : FailureStrategy) : RetryContext :=
  { context with
    strategyUsages := recordUse context.strategyUsages strategy
    lastStrategy := some strategy
    distinct := recordUse_distinct context.distinct strategy }

end RetryContext

/-! ## Routing -/

/-- `FailoverDecision`: each `ObservationRoute` with the fields its constructor admits on it. -/
inductive FailoverDecision (τ : Type) where
  | completed
  | prepare (strategy : FailureStrategy) (preparation : PreparationAction τ)
      (evidence : FailureEvidence)
  | returnToModel (strategy : Option FailureStrategy) (evidence : Option FailureEvidence)
      (budgetExhausted : Bool)
  | abort (evidence : FailureEvidence)

structure FailureRule where
  signal : FailureSignal
  strategy : FailureStrategy

/-- `_FIXED_RULES`. -/
def fixedRules : List FailureRule :=
  [⟨⟨some 429, some "rate_limited"⟩, .wait⟩,
   ⟨⟨some 429, some "quota_exceeded"⟩, .wait⟩,
   ⟨⟨some 401, some "token_expired"⟩, .refreshCredential⟩,
   ⟨⟨some 401, some "invalid_credential"⟩, .rotateCredential⟩,
   ⟨⟨some 401, some "invalid_api_key"⟩, .rotateCredential⟩,
   ⟨⟨some 503, some "service_unavailable"⟩, .switchEndpoint⟩,
   ⟨⟨some 503, some "overloaded"⟩, .switchEndpoint⟩,
   ⟨⟨some 408, some "request_timeout"⟩, .wait⟩,
   ⟨⟨some 504, some "request_timeout"⟩, .wait⟩,
   ⟨⟨some 400, some "bad_payload"⟩, .transformRequest⟩,
   ⟨⟨some 403, some "forbidden"⟩, .returnToModel⟩,
   ⟨⟨some 409, some "conflict"⟩, .abort⟩]

def fixedStrategy (evidence : FailureEvidence) : Option FailureStrategy :=
  (fixedRules.find? (·.signal = evidence.signal)).map (·.strategy)

variable {τ : Type}

section Backoff

local instance numeralTwo : Nat.AtLeastTwo 2 := ⟨le_rfl⟩

/-- `_backoff_seconds`: the base delay doubled once for each earlier attempt, up to the
maximum, and never below what the rejection asks for. -/
def backoffSeconds (plan : FailoverPlan τ) (context : RetryContext) (evidence : FailureEvidence) :
    ℚ≥0 :=
  let timing := plan.profile.timing
  let doubled := (List.range (min context.attemptOrdinal 1024)).foldl
    (fun delay _ => min timing.maxBackoffSeconds (delay * 2)) timing.baseBackoffSeconds
  let delay := min timing.maxBackoffSeconds doubled
  match evidence.retryAfterSeconds with
  | some requested => max delay requested
  | none => delay

end Backoff

/-- `_preparation_for`, which sees no terminal strategy and not the request transform. -/
def preparationFor (strategy : FailureStrategy) (evidence : FailureEvidence)
    (plan : FailoverPlan τ) (context : RetryContext) : PreparationAction τ :=
  match strategy with
  | .wait => .wait (backoffSeconds plan context evidence)
  | .refreshCredential => .refreshCredential
  | .rotateCredential => .rotateCredential
  | _ => .switchEndpoint

/-- The budget leaves no further use of the strategy or no further wire attempt. -/
def exhausted (budget : RetryBudget) (context : RetryContext) (strategy : FailureStrategy) :
    Prop :=
  context.usesFor strategy ≥ budget.maxUsesFor strategy ∨
    context.attemptOrdinal ≥ budget.maxWireAttempts - 1

instance (budget : RetryBudget) (context : RetryContext) (strategy : FailureStrategy) :
    Decidable (exhausted budget context strategy) :=
  inferInstanceAs (Decidable (_ ∨ _))

/-- The part of `route_rejected` behind its terminal strategies. -/
def routeWithinBudget (strategy : FailureStrategy) (evidence : FailureEvidence)
    (plan : FailoverPlan τ) (context : RetryContext) : FailoverDecision τ :=
  if exhausted plan.profile.budget context strategy then
    .returnToModel (some strategy) (some evidence) true
  else if strategy = .transformRequest then
    match plan.profile.requestTransform with
    | none => .returnToModel (some strategy) (some evidence) false
    | some instruction => .prepare strategy (.transformRequest instruction) evidence
  else
    .prepare strategy (preparationFor strategy evidence plan context) evidence

def routeRejected (evidence : FailureEvidence) (plan : FailoverPlan τ) (context : RetryContext) :
    Except FailoverRaise (FailoverDecision τ) := do
  raiseIf (context.planRevision ≠ plan.planRevision)
    (.contract "rejected routing requires the context's captured plan revision")
  match fixedStrategy evidence with
  | none => pure (.returnToModel none (some evidence) false)
  | some .returnToModel => pure (.returnToModel (some .returnToModel) (some evidence) false)
  | some .abort => pure (.abort evidence)
  | some strategy => pure (routeWithinBudget strategy evidence plan context)

variable {α β γ : Type}

def observeAndRoute (outcome : PortOutcome α β γ) (plan : FailoverPlan τ)
    (context : RetryContext) : Except FailoverRaise (FailoverDecision τ) := do
  raiseIf (context.planRevision ≠ plan.planRevision)
    (.contract "observation requires the context's captured plan revision")
  match outcome with
  | .completed _ => pure .completed
  | .rejected evidence => routeRejected evidence plan context
  | .inProgress _ => pure (.returnToModel none none false)
  | .unknown _ evidence => pure (.returnToModel none (some evidence) false)

/-! ## Counting uses -/

theorem usesIn_recordUse_self (usages : List StrategyUsage) (strategy : FailureStrategy) :
    usesIn (recordUse usages strategy) strategy = usesIn usages strategy + 1 := by
  have removed : (usages.filter (·.strategy ≠ strategy)).find? (·.strategy = strategy) = none := by
    simp
  simp only [usesIn, recordUse, List.find?_append, removed, Option.none_or]
  simp

theorem usesIn_recordUse_of_ne (usages : List StrategyUsage) {strategy other : FailureStrategy}
    (different : other ≠ strategy) :
    usesIn (recordUse usages strategy) other = usesIn usages other := by
  have kept : (usages.filter (·.strategy ≠ strategy)).find? (·.strategy = other) =
      usages.find? (·.strategy = other) := by
    rw [List.find?_filter]
    congr 1
    funext usage
    by_cases same : usage.strategy = other
    · simp [same, different]
    · simp [same]
  simp only [usesIn, recordUse, List.find?_append, kept]
  simp [different.symm]

/-- Removing a strategy's entry takes exactly its count from the total: no strategy has two. -/
theorem sum_without {usages : List StrategyUsage} (distinct : (usages.map (·.strategy)).Nodup)
    (strategy : FailureStrategy) :
    ((usages.filter (·.strategy ≠ strategy)).map (·.used)).sum + usesIn usages strategy =
      (usages.map (·.used)).sum := by
  induction usages with
  | nil => rfl
  | cons usage usages ih =>
      rw [List.map_cons, List.nodup_cons] at distinct
      have rest := ih distinct.2
      by_cases same : usage.strategy = strategy
      · have absent : usages.find? (·.strategy = strategy) = none := by
          rw [List.find?_eq_none]
          intro other member found
          apply distinct.1
          rw [same, ← of_decide_eq_true found]
          exact List.mem_map_of_mem member
        have none : usesIn usages strategy = 0 := by
          rw [usesIn, absent]
        simp only [usesIn, List.find?_cons, same, decide_true, List.map_cons, List.sum_cons,
          ne_eq, not_true_eq_false, decide_false, Bool.false_eq_true, not_false_eq_true,
          List.filter_cons_of_neg] at none rest ⊢
        omega
      · simp only [usesIn, List.find?_cons, same, decide_false, List.map_cons, List.sum_cons,
          ne_eq, not_false_eq_true, decide_true, List.filter_cons_of_pos] at rest ⊢
        omega

theorem sum_recordUse {usages : List StrategyUsage} (distinct : (usages.map (·.strategy)).Nodup)
    (strategy : FailureStrategy) :
    ((recordUse usages strategy).map (·.used)).sum = (usages.map (·.used)).sum + 1 := by
  have total := sum_without distinct strategy
  rw [recordUse, List.map_append, List.sum_append]
  simp only [List.map_cons, List.map_nil, List.sum_cons, List.sum_nil]
  omega

/-! ## What a decision to prepare says -/

/-- The action is one of the strategy's kind. -/
def Fits : FailureStrategy → PreparationAction τ → Prop
  | .wait, .wait _ => True
  | .transformRequest, .transformRequest _ => True
  | .refreshCredential, .refreshCredential => True
  | .rotateCredential, .rotateCredential => True
  | .switchEndpoint, .switchEndpoint => True
  | _, _ => False

theorem routeWithinBudget_prepare {fixed strategy : FailureStrategy} {evidence : FailureEvidence}
    {plan : FailoverPlan τ} {context : RetryContext} {action : PreparationAction τ}
    {reported : FailureEvidence} (notReturned : fixed ≠ .returnToModel) (notAborted : fixed ≠ .abort)
    (routed : routeWithinBudget fixed evidence plan context = .prepare strategy action reported) :
    ¬ exhausted plan.profile.budget context strategy ∧ Fits strategy action := by
  unfold routeWithinBudget at routed
  by_cases spent : exhausted plan.profile.budget context fixed
  · simp [spent] at routed
  · rw [if_neg spent] at routed
    by_cases transforms : fixed = .transformRequest
    · subst transforms
      cases transform : plan.profile.requestTransform with
      | none => simp [transform] at routed
      | some instruction =>
          simp only [transform, ↓reduceIte, FailoverDecision.prepare.injEq] at routed
          obtain ⟨rfl, rfl, -⟩ := routed
          exact ⟨spent, trivial⟩
    · rw [if_neg transforms, FailoverDecision.prepare.injEq] at routed
      obtain ⟨rfl, rfl, -⟩ := routed
      refine ⟨spent, ?_⟩
      cases fixed <;> simp_all [Fits, preparationFor]

theorem routeRejected_prepare {evidence : FailureEvidence} {plan : FailoverPlan τ}
    {context : RetryContext} {strategy : FailureStrategy} {action : PreparationAction τ}
    {reported : FailureEvidence}
    (routed : routeRejected evidence plan context = .ok (.prepare strategy action reported)) :
    ¬ exhausted plan.profile.budget context strategy ∧ Fits strategy action := by
  simp only [routeRejected, bind_unit_eq_ok] at routed
  obtain ⟨-, decided⟩ := routed
  split at decided
  case h_1 => simp at decided
  case h_2 => simp at decided
  case h_3 => simp at decided
  case h_4 fixed notReturned notAborted chosen =>
    rw [pure_eq_ok, Except.ok.injEq] at decided
    exact routeWithinBudget_prepare notReturned notAborted decided

/-- Routing raises only when the context captured another revision. -/
theorem observeAndRoute_total {plan : FailoverPlan τ} {context : RetryContext}
    (same : context.planRevision = plan.planRevision) (outcome : PortOutcome α β γ) :
    ∃ decision, observeAndRoute outcome plan context = .ok decision := by
  simp only [observeAndRoute, bind_unit_eq_ok, raiseIf_eq_ok, Decidable.not_not, same, true_and]
  cases outcome with
  | completed response => exact ⟨_, rfl⟩
  | inProgress receipt => exact ⟨_, rfl⟩
  | unknown handle evidence => exact ⟨_, rfl⟩
  | rejected evidence =>
      simp only [routeRejected, bind_unit_eq_ok, raiseIf_eq_ok, Decidable.not_not, same, true_and]
      split <;> exact ⟨_, rfl⟩

theorem routeRejected_ne_completed {evidence : FailureEvidence} {plan : FailoverPlan τ}
    {context : RetryContext} : routeRejected evidence plan context ≠ .ok .completed := by
  intro routed
  simp only [routeRejected, bind_unit_eq_ok] at routed
  obtain ⟨-, decided⟩ := routed
  split at decided
  case h_1 => simp at decided
  case h_2 => simp at decided
  case h_3 => simp at decided
  case h_4 fixed notReturned notAborted chosen =>
    rw [pure_eq_ok, Except.ok.injEq, routeWithinBudget] at decided
    split at decided
    · cases decided
    · split at decided
      · split at decided <;> cases decided
      · cases decided

theorem observeAndRoute_completed {outcome : PortOutcome α β γ} {plan : FailoverPlan τ}
    {context : RetryContext} (routed : observeAndRoute outcome plan context = .ok .completed) :
    ∃ response, outcome = .completed response := by
  simp only [observeAndRoute, bind_unit_eq_ok] at routed
  have decided := routed.2
  cases outcome with
  | completed response => exact ⟨response, rfl⟩
  | rejected evidence => exact absurd decided routeRejected_ne_completed
  | inProgress receipt => simp at decided
  | unknown handle evidence => simp at decided

/-- Only a rejection within the budget is prepared for another attempt. -/
theorem observeAndRoute_prepare {outcome : PortOutcome α β γ} {plan : FailoverPlan τ}
    {context : RetryContext} {strategy : FailureStrategy} {action : PreparationAction τ}
    {reported : FailureEvidence}
    (routed : observeAndRoute outcome plan context = .ok (.prepare strategy action reported)) :
    outcome.isRejected = true ∧ ¬ exhausted plan.profile.budget context strategy ∧
      Fits strategy action := by
  simp only [observeAndRoute, bind_unit_eq_ok] at routed
  have decided := routed.2
  cases outcome with
  | completed response => simp at decided
  | rejected evidence => exact ⟨rfl, routeRejected_prepare decided⟩
  | inProgress receipt => simp at decided
  | unknown handle evidence => simp at decided

end MoteKernel.Failover
