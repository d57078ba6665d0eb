import MoteKernel.Execution.ControlSteps

/-!
# What snapshot admission checks

The pending Join arrivals, the rebuilt history and the successor check of
`_routing_evaluation`, each as the facts it accepts.
-/

namespace MoteKernel
open Checked Canonical

variable {τ : Type}

/-! ## Pending arrivals -/

/-- One pending record that the compiled Joins explain. -/
structure PendingRecord (state : GraphRunState) (declared : JoinDeclarations)
    (progress : GraphJoinProgress) : Prop where
  plan : ∃ plan, declared.get? progress.occurrence.join = some plan ∧
    ∀ reference ∈ progress.arrived, reference.activation.nodeId ∈ plan.identity.sources ∧
      plan.occurrenceAt reference.activation = progress.occurrence
  run : progress.occurrence.runId = state.runId
  future : state.superstep < progress.occurrence.targetSuperstep
  nonempty : progress.arrived ≠ []
  known : sourceIds progress.arrived ⊆ progress.occurrence.join.sources
  incomplete : ¬ progress.occurrence.join.sources ⊆ sourceIds progress.arrived
  once : (sourceIds progress.arrived).Nodup
  settled : ∀ reference ∈ progress.arrived, reference ∈ state.settledReferences

theorem pendingJoinArrival_eq_ok (state : GraphRunState) (declared : JoinDeclarations)
    (arrivals updated : JoinArrivals) (progress : GraphJoinProgress) :
    pendingJoinArrival state declared arrivals progress = .ok updated ↔
      PendingRecord state declared progress ∧ progress.occurrence ∉ arrivals.keys ∧
      updated = arrivals.set progress.occurrence progress.arrived := by
  simp only [pendingJoinArrival, bind_eq_ok, exists_unit, orRaise_eq_ok, raiseIf_eq_ok,
    checkAll_eq_ok, CompiledJoin.occurrenceFor_eq_ok, pure_eq_ok, Except.ok.injEq, not_or, not_le,
    ne_eq, not_not, not_exists, not_and_not_right, Classical.not_imp]
  constructor
  · rintro ⟨plan, found, ⟨absent, run, future, nonempty, known, incomplete⟩, once, settled,
      projected, rfl⟩
    refine ⟨⟨⟨plan, found, ?_⟩, run, future, nonempty, known, incomplete, once, settled⟩, absent,
      rfl⟩
    intro reference member
    obtain ⟨_, ⟨source, rfl⟩, same⟩ := projected reference member
    exact ⟨source, same⟩
  · rintro ⟨record, absent, rfl⟩
    obtain ⟨plan, found, projected⟩ := record.plan
    refine ⟨plan, found, ⟨absent, record.run, record.future, record.nonempty, record.known,
      record.incomplete⟩, record.once, record.settled, ?_, rfl⟩
    intro reference member
    obtain ⟨source, same⟩ := projected reference member
    exact ⟨_, ⟨source, rfl⟩, same⟩

theorem pendingJoinArrivals_from (state : GraphRunState) (declared : JoinDeclarations)
    (records : List GraphJoinProgress) (arrivals result : JoinArrivals) :
    records.foldlM (pendingJoinArrival state declared) arrivals = .ok result ↔
      (∀ progress ∈ records, PendingRecord state declared progress) ∧
      (arrivals.keys ++ records.map (·.occurrence)).Nodup ∧
      result.items = arrivals.items ++
        records.map (fun progress => (progress.occurrence, progress.arrived)) := by
  induction records generalizing arrivals with
  | nil =>
      have distinct : arrivals.keys.Nodup := arrivals.distinct
      simp only [List.foldlM_nil, pure_eq_ok, Except.ok.injEq, List.map_nil, List.append_nil,
        distinct, true_and, List.not_mem_nil, false_implies, implies_true]
      exact ⟨fun same => same ▸ rfl, fun same => (Dict.ext_items same).symm⟩
  | cons progress records ih =>
      simp only [List.foldlM_cons, bind_eq_ok, pendingJoinArrival_eq_ok, List.forall_mem_cons]
      have next : ∀ absent : progress.occurrence ∉ arrivals.keys,
          (arrivals.set progress.occurrence progress.arrived).items =
            arrivals.items ++ [(progress.occurrence, progress.arrived)] ∧
          (arrivals.set progress.occurrence progress.arrived).keys =
            arrivals.keys ++ [progress.occurrence] := by
        intro absent
        have items := Dict.items_set_of_not_mem arrivals progress.occurrence progress.arrived absent
        refine ⟨items, ?_⟩
        rw [Dict.keys, items, List.map_append]
        rfl
      constructor
      · rintro ⟨_, ⟨record, absent, rfl⟩, rest⟩
        obtain ⟨items, keys⟩ := next absent
        rw [ih, items, keys] at rest
        obtain ⟨all, once, same⟩ := rest
        exact ⟨⟨record, all⟩, by simpa using once, by simpa using same⟩
      · rintro ⟨⟨record, all⟩, once, same⟩
        have absent : progress.occurrence ∉ arrivals.keys := by
          intro present
          exact (List.nodup_append.mp once).2.2 _ present progress.occurrence (by simp) rfl
        obtain ⟨items, keys⟩ := next absent
        refine ⟨_, ⟨record, absent, rfl⟩, ?_⟩
        rw [ih, items, keys]
        exact ⟨all, by simpa using once, by simpa using same⟩

/-- The pending arrivals are the records themselves. -/
theorem pendingJoinArrivals_eq_ok (state : GraphRunState) (declared : JoinDeclarations)
    (arrivals : JoinArrivals) :
    pendingJoinArrivals state declared = .ok arrivals ↔
      (∀ progress ∈ state.joinProgress, PendingRecord state declared progress) ∧
      (state.joinProgress.map (·.occurrence)).Nodup ∧
      arrivals.items =
        state.joinProgress.map (fun progress => (progress.occurrence, progress.arrived)) := by
  rw [pendingJoinArrivals, pendingJoinArrivals_from]
  simp [Dict.keys, Dict.empty]

theorem pendingJoinArrivals_getD {state : GraphRunState} {declared : JoinDeclarations}
    {arrivals : JoinArrivals} (ok : pendingJoinArrivals state declared = .ok arrivals)
    (occurrence : GraphJoinOccurrenceIdentity) :
    (arrivals.get? occurrence).getD [] = arrivalsAt state.joinProgress occurrence := by
  obtain ⟨-, once, items⟩ := (pendingJoinArrivals_eq_ok _ _ _).mp ok
  rw [arrivalsAt]
  cases found : progressOf state.joinProgress occurrence with
  | none =>
      have absent : occurrence ∉ arrivals.keys := by
        rw [Dict.keys, items, List.map_map]
        exact progressOf_eq_none.mp found
      rw [(Dict.get?_eq_none _ _).mpr absent]
      rfl
  | some item =>
      obtain ⟨member, same⟩ := (progressOf_eq_some once).mp found
      have stored : arrivals.get? occurrence = some item.arrived := by
        rw [Dict.get?_eq_some, items]
        exact List.mem_map.mpr ⟨item, member, by rw [same]⟩
      rw [stored]
      rfl

/-- An occurrence has what was pending for it and what the current successes bring. -/
theorem mem_gatheredArrivals {graph : CompiledGraph τ} {state : GraphRunState}
    {declared : JoinDeclarations} {arrivals : JoinArrivals}
    (pending : pendingJoinArrivals state declared = .ok arrivals)
    {occurrence : GraphJoinOccurrenceIdentity}
    {reference : ActivationReference} :
    reference ∈ ((gatheredArrivals graph state arrivals).get? occurrence).getD [] ↔
      reference ∈ arrivalsAt state.joinProgress occurrence ∨
      (occurrence, reference) ∈ joinArrivals graph (frontierPublications state) := by
  rw [gatheredArrivals, Dict.getD_pushAll, List.mem_append, Dict.mem_valuesAt,
    pendingJoinArrivals_getD pending]

/-! ## The whole evaluation -/

/-- A state that `_routing_evaluation` admits, with the values it computes. -/
structure Admits (graph : CompiledGraph τ) (state : GraphRunState) (declared : JoinDeclarations)
    (arrivals : JoinArrivals) : Prop where
  ledger : settledActivationAdmissionError graph state = none
  declares : declaredJoins graph = .ok declared
  gates : frontierGateError graph state declared = .ok none
  pending : pendingJoinArrivals state declared = .ok arrivals
  advanced : state.superstep ≠ 0 → ∃ historical, historicalJoinArrivals graph state = .ok historical ∧
    checkPostAdvance graph state historical = .ok ()

theorem postAdvanceError_eq_none (graph : CompiledGraph τ) (state : GraphRunState)
    (historical : JoinArrivals) :
    postAdvanceError graph state historical = none ↔
      checkPostAdvance graph state historical = .ok () := by
  unfold postAdvanceError
  cases checkPostAdvance graph state historical with
  | ok u => simp
  | error text => simp

theorem historicalEvaluation_admitted (graph : CompiledGraph τ) (state : GraphRunState)
    (declared : JoinDeclarations) (arrivals : JoinArrivals) :
    (historicalEvaluation graph state
      { declaredJoins := declared, pendingJoinArrivals := arrivals }).admissionError = none ↔
      (state.superstep ≠ 0 → ∃ historical, historicalJoinArrivals graph state = .ok historical ∧
        checkPostAdvance graph state historical = .ok ()) := by
  unfold historicalEvaluation
  by_cases initial : state.superstep = 0
  · simp [initial]
  · simp only [initial, ne_eq, not_false_eq_true, forall_const, if_false]
    cases historicalJoinArrivals graph state with
    | error error => simp
    | ok historical => simp [postAdvanceError_eq_none]

theorem historicalEvaluation_pending (graph : CompiledGraph τ) (state : GraphRunState)
    (evaluation : RoutingFacts) :
    (historicalEvaluation graph state evaluation).pendingJoinArrivals =
      evaluation.pendingJoinArrivals ∧
    (historicalEvaluation graph state evaluation).pendingError = evaluation.pendingError := by
  unfold historicalEvaluation
  split
  · exact ⟨rfl, rfl⟩
  · split <;> exact ⟨rfl, rfl⟩

/-- The evaluation of a run that is not completed admits it exactly when every part does. -/
theorem routingEvaluation_admitted {graph : CompiledGraph τ} {state : GraphRunState}
    (openRun : state.status ≠ .completed) (arrivals : JoinArrivals) :
    (∃ evaluation, routingEvaluation graph state = .ok evaluation ∧
      evaluation.admissionError = none ∧ evaluation.pendingError = none ∧
      evaluation.pendingJoinArrivals = arrivals) ↔
      ∃ declared, Admits graph state declared arrivals := by
  unfold routingEvaluation
  by_cases ledger : settledActivationAdmissionError graph state = none
  · simp only [ledger, ne_eq, not_true_eq_false, openRun, or_self, if_false]
    cases declares : declaredJoins graph with
    | error error =>
        simp only [pure_eq_ok, Except.ok.injEq, exists_eq_left', reduceCtorEq, false_and, false_iff]
        rintro ⟨declared, admits⟩
        rw [admits.declares] at declares
        cases declares
    | ok declared =>
        have same : ∀ other, Admits graph state other arrivals → other = declared := by
          intro other admits
          have both := admits.declares.symm.trans declares
          exact Except.ok.inj both
        cases gates : frontierGateError graph state declared with
        | error error =>
            simp only [gates, error_bind, reduceCtorEq, false_and, exists_false, false_iff]
            rintro ⟨other, admits⟩
            obtain rfl := same other admits
            rw [admits.gates] at gates
            cases gates
        | ok text =>
            cases text with
            | some text =>
                simp only [gates, ok_bind, pure_eq_ok, Except.ok.injEq, exists_eq_left',
                  reduceCtorEq, false_and, false_iff]
                rintro ⟨other, admits⟩
                obtain rfl := same other admits
                rw [admits.gates] at gates
                cases gates
            | none =>
                simp only [gates, ok_bind]
                cases pending : pendingJoinArrivals state declared with
                | error error =>
                    simp only [pure_eq_ok, Except.ok.injEq, exists_eq_left', reduceCtorEq,
                      false_and, and_false, false_iff]
                    rintro ⟨other, admits⟩
                    obtain rfl := same other admits
                    rw [admits.pending] at pending
                    cases pending
                | ok found =>
                    simp only [pure_eq_ok, Except.ok.injEq, exists_eq_left',
                      historicalEvaluation_admitted, historicalEvaluation_pending, true_and]
                    constructor
                    · rintro ⟨advanced, rfl⟩
                      exact ⟨declared, ledger, declares, gates, pending, advanced⟩
                    · rintro ⟨other, admits⟩
                      obtain rfl := same other admits
                      have both := pending.symm.trans admits.pending
                      exact ⟨admits.advanced, Except.ok.inj both⟩
  · simp only [ledger, ne_eq, not_false_eq_true, true_or, if_true, pure_eq_ok, Except.ok.injEq,
      exists_eq_left', false_and, false_iff]
    rintro ⟨declared, admits⟩
    exact ledger admits.ledger

/-- A resolution comes from an admitted state whose control is resolvable. -/
theorem resolveRoutingFacts_ok {graph : CompiledGraph τ} {state : GraphRunState}
    {scopeRun : ScopeRunCoordinate} {frames : ScopedFrameAvailability} {facts : RoutingFacts}
    (openRun : state.status ≠ .completed)
    (ok : resolveRoutingFacts graph state scopeRun frames = .ok facts) :
    frontierStatus state.frontier = some .settled ∧
    ∃ declared arrivals, Admits graph state declared arrivals ∧ Resolvable graph state arrivals ∧
      facts.remainingJoinProgress =
        (controlOutcomes graph state arrivals).filterMap JoinOutcome.progress ∧
      facts.activations = nextActivations (nextCauses graph state arrivals) ∧
      facts.consumedJoinProgress =
        sorted ((controlOutcomes graph state arrivals).filterMap JoinOutcome.consumed) ∧
      facts.requiredTargets.map (·.nodeId) = facts.activations.map (·.nodeId) := by
  simp only [resolveRoutingFacts, bind_eq_ok, exists_unit, raiseIf_eq_ok, ne_eq, not_not,
    resolveControl_eq_ok, pure_eq_ok, Except.ok.injEq] at ok
  obtain ⟨settled, evaluation, evaluated, admitted, _, ⟨clear, resolvable, rfl⟩, required,
    targets, _, -, _, -, rfl⟩ := ok
  obtain ⟨declared, admits⟩ := (routingEvaluation_admitted openRun _).mp
    ⟨evaluation, evaluated, admitted, clear, rfl⟩
  refine ⟨settled, declared, _, admits, resolvable, rfl, rfl, rfl, ?_⟩
  rw [mapM_eq_ok] at targets
  have named : ∀ (activations : List GraphFrontierActivation) (targets : List RequiredTarget),
      List.Forall₂ (fun activation target => requiredTarget graph activation state scopeRun
        (state.superstep + 1) frames = .ok target) activations targets →
      targets.map (·.nodeId) = activations.map (·.nodeId) := by
    intro activations targets related
    induction related with
    | nil => rfl
    | cons head _ ih =>
        simp only [requiredTarget, bind_eq_ok, pure_eq_ok, Except.ok.injEq] at head
        obtain ⟨_, -, rfl⟩ := head
        simp only [List.map_cons, ih]
  exact named _ _ targets

end MoteKernel
