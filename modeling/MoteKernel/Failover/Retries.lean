import MoteKernel.Failover.Graph

/-!
# Bounded retries

Every attempt but the first is paid for: it is counted in the context by the
strategy that prepared it, and a strategy is chosen only while its own limit and
the limit on wire attempts leave room. The invariant compares the counters of the
context with the calls in the log of the run.
-/

namespace MoteKernel.Failover
open Checked

variable {ρ α β γ τ : Type}

/-! ## Reading the log -/

namespace FailoverEvent

def isInvocation : FailoverEvent ρ α β γ τ → Bool
  | .invoked _ _ => true
  | _ => false

def isPreparation (strategy : FailureStrategy) : FailoverEvent ρ α β γ τ → Bool
  | .prepared used _ => used = strategy
  | _ => false

/-- An invocation whose outcome is not a rejection. -/
def isConclusive : FailoverEvent ρ α β γ τ → Bool
  | .invoked _ (.ok (some outcome)) => !outcome.isRejected
  | _ => false

end FailoverEvent

/-- How often `invoke_once` was called. -/
def invocations (log : List (FailoverEvent ρ α β γ τ)) : Nat :=
  log.countP FailoverEvent.isInvocation

/-- How often a strategy was applied. -/
def preparations (strategy : FailureStrategy) (log : List (FailoverEvent ρ α β γ τ)) : Nat :=
  log.countP (FailoverEvent.isPreparation strategy)

/-- The cursors of a context are what its strategy usages say they are. -/
structure Accounted (context : RetryContext) : Prop where
  ordinal : context.attemptOrdinal = (context.strategyUsages.map (·.used)).sum
  endpoint : context.endpointCursor = context.usesFor .switchEndpoint
  credential : context.credentialCursor = context.usesFor .rotateCredential
  version : context.requestVersion = 1 + context.usesFor .transformRequest

/-- What the log of a failover run keeps to under a budget. -/
structure BoundedRetries (budget : RetryBudget) (log : List (FailoverEvent ρ α β γ τ)) :
    Prop where
  attempts : invocations log ≤ budget.maxWireAttempts
  uses : ∀ strategy, preparations strategy log ≤ budget.maxUsesFor strategy
  accounted : ∀ context, .committed context ∈ log → Accounted context
  conclusive : log.Pairwise fun earlier later =>
    earlier.isConclusive = true → later.isInvocation = false

/-! ## Contexts -/

theorem Accounted.fresh {operationId : String} {planRevision : Nat}
    (canonical : isCanonicalIdentity operationId = true) (positive : 1 ≤ planRevision) :
    Accounted { operationId, planRevision, canonical, revisionPositive := positive } :=
  ⟨rfl, rfl, rfl, rfl⟩

@[simp] theorem noteFailure_planRevision (context : RetryContext) (outcome : PortOutcome α β γ) :
    (noteFailure context outcome).planRevision = context.planRevision := by
  cases outcome <;> rfl

@[simp] theorem noteFailure_attemptOrdinal (context : RetryContext)
    (outcome : PortOutcome α β γ) :
    (noteFailure context outcome).attemptOrdinal = context.attemptOrdinal := by
  cases outcome <;> rfl

@[simp] theorem noteFailure_usesFor (context : RetryContext) (outcome : PortOutcome α β γ)
    (strategy : FailureStrategy) :
    (noteFailure context outcome).usesFor strategy = context.usesFor strategy := by
  cases outcome <;> rfl

theorem Accounted.noteFailure {context : RetryContext} (accounted : Accounted context)
    (outcome : PortOutcome α β γ) : Accounted (noteFailure context outcome) := by
  cases outcome <;> exact ⟨accounted.1, accounted.2, accounted.3, accounted.4⟩

theorem nextContext_attemptOrdinal (context : RetryContext) (outcome : PortOutcome α β γ)
    (strategy : FailureStrategy) (action : PreparationAction τ) :
    (nextContext (noteFailure context outcome) strategy action).attemptOrdinal =
      context.attemptOrdinal + 1 := by
  show (noteFailure context outcome).attemptOrdinal + 1 = _
  rw [noteFailure_attemptOrdinal]

theorem nextContext_usesFor (context : RetryContext) (strategy other : FailureStrategy)
    (action : PreparationAction τ) :
    (nextContext context strategy action).usesFor other =
      context.usesFor other + if other = strategy then 1 else 0 := by
  show usesIn (recordUse context.strategyUsages strategy) other = _
  by_cases same : other = strategy
  · subst same
    rw [usesIn_recordUse_self, if_pos rfl]
    rfl
  · rw [usesIn_recordUse_of_ne _ same, if_neg same]
    rfl

/-- The cursor an action moves is the one its strategy is counted under. -/
theorem Accounted.nextContext {context : RetryContext} (accounted : Accounted context)
    {strategy : FailureStrategy} {action : PreparationAction τ} (fits : Fits strategy action) :
    Accounted (nextContext context strategy action) := by
  obtain ⟨ordinal, endpoint, credential, version⟩ := accounted
  refine ⟨?_, ?_, ?_, ?_⟩
  · show context.attemptOrdinal + 1 = ((recordUse context.strategyUsages strategy).map _).sum
    rw [sum_recordUse context.distinct, ordinal]
  · rw [nextContext_usesFor, ← endpoint]
    cases strategy <;> cases action <;> first | rfl | exact fits.elim
  · rw [nextContext_usesFor, ← credential]
    cases strategy <;> cases action <;> first | rfl | exact fits.elim
  · rw [nextContext_usesFor, ← Nat.add_assoc, ← version]
    cases strategy <;> cases action <;> first | rfl | exact fits.elim

/-! ## What a node can do -/

theorem boundPlan_eq_ok {failover : FailoverDecorator τ}
    {config : Option (List (FailoverConfig τ))} {required : Bool} {context : RetryContext}
    {plan : FailoverPlan τ} :
    boundPlan failover config required context = .ok plan ↔
      runtimePlan config required failover.config = .ok plan ∧
        context.planRevision = plan.planRevision := by
  simp only [boundPlan, bind_eq_ok, exists_unit, raiseIf_eq_ok, pure_eq_ok, Except.ok.injEq,
    Decidable.not_not]
  constructor
  · rintro ⟨selected, chosen, same, rfl⟩
    exact ⟨chosen, same⟩
  · rintro ⟨chosen, same⟩
    exact ⟨plan, chosen, same, rfl⟩

theorem FailoverFrame.postInit_of_same {frame : FailoverFrame ρ α β γ τ}
    (same : frame.step.context.planRevision = frame.plan.planRevision) :
    frame.postInit = .ok frame := by
  simp [FailoverFrame.postInit, raiseIf, same]

variable {failover : FailoverDecorator τ} {surroundings : Surroundings ρ α β γ τ}
  {frame : FailoverFrame ρ α β γ τ} {request : ρ} {context : RetryContext}
  {outcome : PortOutcome α β γ}

/-- What `_PrepareNextAttempt` does with an observe step: nothing is prepared unless the
outcome is a rejection that the budget of the bound plan leaves room for. -/
inductive Prepares (failover : FailoverDecorator τ) (surroundings : Surroundings ρ α β γ τ)
    (context : RetryContext) (outcome : PortOutcome α β γ) :
    List (FailoverEvent ρ α β γ τ) × Except FailoverRaise (PrepareOutcome ρ α β γ τ) → Prop where
  | refused (error : FailoverRaise)
      (unbound : boundPlan failover surroundings.config failover.prepareRequired context =
        .error error) :
      Prepares failover surroundings context outcome ([], .error error)
  | aborted (message : String) :
      Prepares failover surroundings context outcome ([], .ok (.failure message))
  | finished (next : FailoverFrame ρ α β γ τ) (result : FailoverResult ρ α β γ τ)
      (carried : next.step.context = noteFailure context outcome)
      (exported : result.context = noteFailure context outcome) :
      Prepares failover surroundings context outcome ([], .ok (.success next result .finish))
  | raised (plan : FailoverPlan τ) (strategy : FailureStrategy) (action : PreparationAction τ)
      (error : FailoverRaise) (request : ρ)
      (chosen : boundPlan failover surroundings.config failover.prepareRequired context = .ok plan)
      (within : ¬ exhausted plan.profile.budget context strategy)
      (unanswered : ∀ prepared, surroundings.prepareNext request action ≠ .ok (some prepared)) :
      Prepares failover surroundings context outcome ([.prepared strategy action], .error error)
  | prepared (plan : FailoverPlan τ) (strategy : FailureStrategy) (action : PreparationAction τ)
      (request : ρ) (result : FailoverResult ρ α β γ τ)
      (chosen : boundPlan failover surroundings.config failover.prepareRequired context = .ok plan)
      (within : ¬ exhausted plan.profile.budget context strategy)
      (rejected : outcome.isRejected = true) (fits : Fits strategy action)
      (exported : result.context = noteFailure context outcome) :
      Prepares failover surroundings context outcome
        ([.prepared strategy action],
          .ok (.success
            ⟨.invoke request (nextContext (noteFailure context outcome) strategy action), plan⟩
            result .prepare))

theorem postInit_of_routed {plan : FailoverPlan τ} {decision : FailoverDecision τ}
    (routed : observeAndRoute outcome plan context = .ok decision)
    (unabated : ∀ evidence, decision ≠ .abort evidence) (noted : RetryContext) :
    FailoverResult.postInit (⟨request, noted, outcome, decision⟩ : FailoverResult ρ α β γ τ) =
      .ok ⟨request, noted, outcome, decision⟩ := by
  cases decision with
  | completed =>
      obtain ⟨response, rfl⟩ := observeAndRoute_completed routed
      rfl
  | prepare strategy action evidence => rfl
  | returnToModel strategy evidence spent => rfl
  | abort evidence => exact absurd rfl (unabated evidence)

theorem settleDecision_prepares {plan : FailoverPlan τ} {decision : FailoverDecision τ}
    (chosen : boundPlan failover surroundings.config failover.prepareRequired context = .ok plan)
    (routed : observeAndRoute outcome plan context = .ok decision) :
    Prepares failover surroundings context outcome
      (settleDecision surroundings plan
        ⟨request, noteFailure context outcome, outcome, decision⟩) := by
  have same := (boundPlan_eq_ok.mp chosen).2
  have finishes : (noteFailure context outcome).planRevision = plan.planRevision := by
    rw [noteFailure_planRevision, same]
  cases decision with
  | prepare strategy action evidence =>
      obtain ⟨rejected, within, fits⟩ := observeAndRoute_prepare routed
      unfold settleDecision
      dsimp only
      cases answer : surroundings.prepareNext request action with
      | error message =>
          exact .raised plan strategy action _ request chosen within (by simp [answer])
      | ok value =>
          cases value with
          | none => exact .raised plan strategy action _ request chosen within (by simp [answer])
          | some prepared =>
              simp only [admitAnswer, rethrow_ok, orRaise, ok_bind]
              rw [FailoverFrame.postInit_of_same]
              · exact .prepared plan strategy action prepared _ chosen within rejected fits rfl
              · exact finishes
  | completed | returnToModel strategy evidence spent | abort evidence =>
      all_goals
        unfold settleDecision
        dsimp only
        rw [FailoverFrame.postInit_of_same]
        · exact .finished _ _ rfl rfl
        · exact finishes

variable (failover surroundings) in
theorem prepares (step : frame.step = .observe request context outcome) :
    Prepares failover surroundings context outcome
      (prepareNextAttempt failover surroundings frame) := by
  unfold prepareNextAttempt
  rw [step]
  dsimp only
  split
  case h_1 error raised =>
    simp only [bind_eq_error, pure_eq_ok, reduceCtorEq, and_false, exists_false, or_false] at raised
    rcases raised with unbound | ⟨plan, chosen, unrouted⟩
    · exact .refused error unbound
    · obtain ⟨decision, routed⟩ := observeAndRoute_total (boundPlan_eq_ok.mp chosen).2 outcome
      rw [routed] at unrouted
      cases unrouted
  case h_2 plan evidence decided => exact .aborted _
  case h_3 plan decision unabated decided =>
    simp only [bind_eq_ok, pure_eq_ok, Except.ok.injEq, Prod.mk.injEq] at decided
    obtain ⟨plan', chosen, decision', routed, rfl, rfl⟩ := decided
    rw [postInit_of_routed routed]
    · exact settleDecision_prepares chosen routed
    · intro evidence abandoned
      exact unabated evidence abandoned

/-! ## The invariant -/

section Counting

variable {log events : List (FailoverEvent ρ α β γ τ)}

@[simp] theorem invocations_append :
    invocations (log ++ events) = invocations log + invocations events :=
  List.countP_append

@[simp] theorem preparations_append (strategy : FailureStrategy) :
    preparations strategy (log ++ events) =
      preparations strategy log + preparations strategy events :=
  List.countP_append

theorem invocations_quiet (quiet : ∀ event ∈ events, event.isInvocation = false) :
    invocations events = 0 := by
  rw [invocations, List.countP_eq_zero]
  intro event member
  rw [quiet event member]
  decide

/-- Nothing conclusive before them, or no invocation among them: the events may follow. -/
theorem pairwise_append_of_quiet
    (earlier : log.Pairwise fun earlier later =>
      earlier.isConclusive = true → later.isInvocation = false)
    (later : events.Pairwise fun earlier later =>
      earlier.isConclusive = true → later.isInvocation = false)
    (follows : (∀ event ∈ log, event.isConclusive = false) ∨
      ∀ event ∈ events, event.isInvocation = false) :
    (log ++ events).Pairwise fun earlier later =>
      earlier.isConclusive = true → later.isInvocation = false := by
  rw [List.pairwise_append]
  refine ⟨earlier, later, ?_⟩
  intro first here second there conclusive
  rcases follows with inconclusive | quiet
  · rw [inconclusive first here] at conclusive
    cases conclusive
  · exact quiet second there

end Counting

/-- The context of the attempt to come accounts for everything in the log. -/
structure Ready (budget : RetryBudget) (revision : Nat) (context : RetryContext)
    (log : List (FailoverEvent ρ α β γ τ)) : Prop where
  revision : context.planRevision = revision
  accounted : Accounted context
  attempts : invocations log = context.attemptOrdinal
  room : context.attemptOrdinal < budget.maxWireAttempts
  uses : ∀ strategy, preparations strategy log = context.usesFor strategy
  inconclusive : ∀ event ∈ log, event.isConclusive = false

/-- The context of an attempt that was made is one invocation behind the log. -/
structure Observed (budget : RetryBudget) (revision : Nat) (context : RetryContext)
    (outcome : PortOutcome α β γ) (log : List (FailoverEvent ρ α β γ τ)) : Prop where
  revision : context.planRevision = revision
  accounted : Accounted context
  attempts : invocations log = context.attemptOrdinal + 1
  room : context.attemptOrdinal < budget.maxWireAttempts
  uses : ∀ strategy, preparations strategy log = context.usesFor strategy
  inconclusive : outcome.isRejected = true → ∀ event ∈ log, event.isConclusive = false

/-- A run past its observe node. -/
def Underway (budget : RetryBudget) (revision : Nat) (run : FailoverRun ρ α β γ τ) : Prop :=
  BoundedRetries budget run.log ∧
  match run.phase with
  | .observe _ => False
  | .invoke frame => ∃ request context,
      frame.step = .invoke request context ∧ Ready budget revision context run.log
  | .prepare frame => ∃ request context outcome,
      frame.step = .observe request context outcome ∧
        Observed budget revision context outcome run.log
  | .finished _ | .failed _ | .raised _ => True

/-- The activations a run may still need: two for each wire attempt left. -/
def rank (budget : RetryBudget) : Phase ρ α β γ τ → Nat
  | .observe _ => 2 * budget.maxWireAttempts + 1
  | .invoke frame => 2 * (budget.maxWireAttempts - frame.step.context.attemptOrdinal)
  | .prepare frame => 2 * (budget.maxWireAttempts - frame.step.context.attemptOrdinal) - 1
  | .finished _ | .failed _ | .raised _ => 0

variable {budget : RetryBudget} {revision : Nat} {log : List (FailoverEvent ρ α β γ τ)}

/-- Commits are no invocations. -/
theorem committed_quiet (contexts : List RetryContext) :
    ∀ event ∈ contexts.map (.committed : RetryContext → FailoverEvent ρ α β γ τ),
      event.isInvocation = false := by
  intro event member
  obtain ⟨context, -, rfl⟩ := List.mem_map.mp member
  rfl

/-- Commits use no strategy. -/
theorem preparations_committed (strategy : FailureStrategy) (contexts : List RetryContext) :
    preparations strategy
      (contexts.map (.committed : RetryContext → FailoverEvent ρ α β γ τ)) = 0 := by
  simp [preparations, List.countP_map, Function.comp_def, FailoverEvent.isPreparation]

theorem BoundedRetries.commit (bounded : BoundedRetries budget log)
    (contexts : List RetryContext) (accounted : ∀ context ∈ contexts, Accounted context) :
    BoundedRetries budget (log ++ contexts.map .committed) := by
  have quiet : ∀ event ∈ contexts.map (.committed : RetryContext → FailoverEvent ρ α β γ τ),
      event.isInvocation = false := committed_quiet contexts
  refine ⟨?_, ?_, ?_, ?_⟩
  · rw [invocations_append, invocations_quiet quiet]
    exact bounded.attempts
  · intro strategy
    rw [preparations_append, preparations_committed]
    exact bounded.uses strategy
  · intro context member
    rcases List.mem_append.mp member with old | new
    · exact bounded.accounted context old
    · obtain ⟨committed, here, same⟩ := List.mem_map.mp new
      rw [← FailoverEvent.committed.inj same]
      exact accounted committed here
  · apply pairwise_append_of_quiet bounded.conclusive
    · apply List.pairwise_of_forall_mem_list
      intro first _ second there _
      exact quiet second there
    · exact .inr quiet

theorem Ready.invoke (ready : Ready budget revision context log)
    (bounded : BoundedRetries budget log) (request : ρ)
    (answer : Except String (Option (PortOutcome α β γ))) :
    BoundedRetries budget (log ++ [.invoked request answer]) := by
  refine ⟨?_, ?_, ?_, ?_⟩
  · have room := ready.room
    rw [invocations_append, ready.attempts]
    show context.attemptOrdinal + 1 ≤ _
    omega
  · intro strategy
    rw [preparations_append]
    exact bounded.uses strategy
  · intro committed member
    rcases List.mem_append.mp member with old | new
    · exact bounded.accounted committed old
    · simp at new
  · exact pairwise_append_of_quiet bounded.conclusive (List.pairwise_singleton _ _)
      (.inl ready.inconclusive)

theorem Observed.prepare (observed : Observed budget revision context outcome log)
    (bounded : BoundedRetries budget log) {strategy : FailureStrategy}
    (within : ¬ exhausted budget context strategy) (action : PreparationAction τ) :
    BoundedRetries budget (log ++ [.prepared strategy action]) := by
  refine ⟨?_, ?_, ?_, ?_⟩
  · rw [invocations_append]
    exact bounded.attempts
  · intro other
    rw [preparations_append]
    by_cases same : strategy = other
    · subst same
      have counted : preparations strategy
          [(.prepared strategy action : FailoverEvent ρ α β γ τ)] = 1 := by
        simp [preparations, FailoverEvent.isPreparation]
      unfold exhausted at within
      rw [observed.uses, counted]
      omega
    · have uncounted : preparations other
          [(.prepared strategy action : FailoverEvent ρ α β γ τ)] = 0 := by
        simp [preparations, FailoverEvent.isPreparation, same]
      rw [uncounted]
      exact bounded.uses other
  · intro committed member
    rcases List.mem_append.mp member with old | new
    · exact bounded.accounted committed old
    · simp at new
  · apply pairwise_append_of_quiet bounded.conclusive (List.pairwise_singleton _ _)
    right
    intro event member
    rw [List.mem_singleton.mp member]
    rfl

/-- An attempt that answers is one invocation more. -/
theorem Ready.observed (ready : Ready budget revision context log) (request : ρ)
    (outcome : PortOutcome α β γ) (contexts : List RetryContext) :
    Observed budget revision context outcome
      (log ++ [.invoked request (.ok (some outcome))] ++ contexts.map .committed) := by
  refine ⟨ready.revision, ready.accounted, ?_, ready.room, ?_, ?_⟩
  · rw [invocations_append, invocations_append, ready.attempts,
      invocations_quiet (committed_quiet contexts)]
    rfl
  · intro strategy
    rw [preparations_append, preparations_append, ready.uses, preparations_committed]
    rfl
  · intro rejected event member
    rcases List.mem_append.mp member with earlier | committed
    · rcases List.mem_append.mp earlier with old | invoked
      · exact ready.inconclusive event old
      · rw [List.mem_singleton.mp invoked]
        simp [FailoverEvent.isConclusive, rejected]
    · obtain ⟨_, -, rfl⟩ := List.mem_map.mp committed
      rfl

/-- A preparation opens the next attempt, with one use of its strategy more. -/
theorem Observed.ready (observed : Observed budget revision context outcome log)
    {strategy : FailureStrategy} (within : ¬ exhausted budget context strategy)
    (rejected : outcome.isRejected = true) (action : PreparationAction τ)
    (accounted : Accounted (nextContext (noteFailure context outcome) strategy action))
    (contexts : List RetryContext) :
    Ready budget revision (nextContext (noteFailure context outcome) strategy action)
      (log ++ [.prepared strategy action] ++ contexts.map .committed) := by
  have ordinal := nextContext_attemptOrdinal context outcome strategy action
  refine ⟨?_, accounted, ?_, ?_, ?_, ?_⟩
  · show (noteFailure context outcome).planRevision = revision
    rw [noteFailure_planRevision, observed.revision]
  · rw [invocations_append, invocations_append, observed.attempts, ordinal,
      invocations_quiet (committed_quiet contexts)]
    rfl
  · unfold exhausted at within
    omega
  · intro other
    rw [preparations_append, preparations_append, observed.uses, preparations_committed,
      nextContext_usesFor, noteFailure_usesFor]
    by_cases same : strategy = other
    · subst same
      simp [preparations, FailoverEvent.isPreparation]
    · simp [preparations, FailoverEvent.isPreparation, same, Ne.symm same]
  · intro event member
    rcases List.mem_append.mp member with earlier | committed
    · rcases List.mem_append.mp earlier with old | prepared
      · exact observed.inconclusive rejected event old
      · rw [List.mem_singleton.mp prepared]
        rfl
    · obtain ⟨_, -, rfl⟩ := List.mem_map.mp committed
      rfl

/-! ## Steps -/

/-- Whatever plan of the operation's revision the activation is bound to, it allows no more than
the operation's budget. -/
def KeepsBudget (failover : FailoverDecorator τ) (revision : Nat) (budget : RetryBudget)
    (surroundings : Surroundings ρ α β γ τ) : Prop :=
  ∀ required plan, runtimePlan surroundings.config required failover.config = .ok plan →
    plan.planRevision = revision →
      plan.profile.budget.maxWireAttempts ≤ budget.maxWireAttempts ∧
      ∀ strategy, plan.profile.budget.maxUsesFor strategy ≤ budget.maxUsesFor strategy

/-- What the plan of an activation leaves room for, the operation's budget leaves room for. -/
theorem KeepsBudget.within (keeps : KeepsBudget failover revision budget surroundings)
    {required : Bool} {plan : FailoverPlan τ} {strategy : FailureStrategy}
    (current : context.planRevision = revision)
    (chosen : boundPlan failover surroundings.config required context = .ok plan)
    (within : ¬ exhausted plan.profile.budget context strategy) :
    ¬ exhausted budget context strategy := by
  obtain ⟨selected, same⟩ := boundPlan_eq_ok.mp chosen
  obtain ⟨attempts, uses⟩ := keeps required plan selected (same ▸ current)
  have allowed := uses strategy
  unfold exhausted at within ⊢
  omega

theorem Underway.ended {run : FailoverRun ρ α β γ τ} (underway : Underway budget revision run)
    (none : rank budget run.phase = 0) : run.phase.ended = true := by
  obtain ⟨phase, log⟩ := run
  cases phase with
  | observe call => exact underway.2.elim
  | invoke frame =>
      obtain ⟨request, context, step, ready⟩ := underway.2
      have room := ready.room
      simp only [rank, step, FailoverStep.context] at none
      omega
  | prepare frame =>
      obtain ⟨request, context, outcome, step, observed⟩ := underway.2
      have room := observed.room
      simp only [rank, step, FailoverStep.context] at none
      omega
  | finished result => rfl
  | failed message => rfl
  | raised error => rfl

section Runs

variable {surroundings : Nat → Surroundings ρ α β γ τ} (call : FailoverCall ρ)
  {plan : FailoverPlan τ}

end Runs

end MoteKernel.Failover
