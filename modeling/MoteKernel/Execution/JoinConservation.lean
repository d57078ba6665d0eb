import MoteKernel.Execution.Admission
import MoteKernel.State.JoinHistory

/-!
# Join conservation

Where an arrival goes when control is resolved, and the conservation law of Join
arrivals over whole runs of a compiled graph.
-/

namespace MoteKernel
open Checked Canonical Trace

variable {τ : Type}

/-! ## What consumes an occurrence -/

/-- The activations a command opens. -/
def GraphRunCommand.activations : GraphRunCommand → List GraphFrontierActivation
  | .advance command => command.activations
  | _ => []

/-- The references of a routed cause, none at the start. -/
def GraphActivationCause.references : GraphActivationCause → List ActivationReference
  | .start => []
  | .routed cause => cause.references

/-- The current successes that a command consumes an occurrence with: those the activation of
its target names, or all those of its sources when it is consumed explicitly. -/
def consumingSuccesses (state : GraphRunState) (command : GraphRunCommand)
    (occurrence : GraphJoinOccurrenceIdentity) : List ActivationReference :=
  match command.activations.find? (fun activation =>
      activation.joinOccurrence = some occurrence) with
  | some activation => currentReferences state activation.cause.references
  | none => (frontierPublications state).filter
      (fun reference => reference.activation.nodeId ∈ occurrence.join.sources)

/-- The cause of a Join activation is the recorded arrivals and the successes it names. -/
theorem NextCause.covers {state : GraphRunState} {nodeId : GraphNodeId}
    {cause : RoutedActivationCause} {consumed : Option GraphJoinOccurrenceIdentity}
    (next : NextCause state nodeId cause consumed) {occurrence : GraphJoinOccurrenceIdentity}
    (join : cause.joinOccurrence = some occurrence) :
    currentReferences state cause.references ⊆ frontierPublications state ∧
    CoversOnce (arrivalsAt state.joinProgress occurrence ++
      currentReferences state cause.references) occurrence.join.sources := by
  obtain ⟨-, -, -, sources, recorded, -⟩ := next.joined occurrence join
  have perm : (arrivalsAt state.joinProgress occurrence ++
      currentReferences state cause.references).Perm cause.references := by
    rw [← recorded, historicalReferences, currentReferences]
    simpa only [decide_not] using List.filter_append_perm
      (fun reference : ActivationReference =>
        decide (reference.activation.superstep < state.superstep)) cause.references
  have permSources := perm.map (·.activation.nodeId)
  refine ⟨?_, permSources.nodup_iff.mpr next.once, ?_⟩
  · intro reference member
    obtain ⟨inside, here⟩ := List.mem_filter.mp member
    have place := (next.references reference inside).place
    have current : reference.activation.superstep = state.superstep := by
      have notPast : ¬ reference.activation.superstep < state.superstep := by simpa using here
      omega
    exact (next.references reference inside).current current
  · intro source
    rw [← sources source]
    exact permSources.mem_iff

/-- An explicitly consumed occurrence counts every current success of its sources. -/
theorem ConsumedOccurrence.covers {state : GraphRunState}
    {occurrence : GraphJoinOccurrenceIdentity} {progress : GraphJoinProgress}
    (consumed : ConsumedOccurrence state occurrence progress)
    (distinct : (state.joinProgress.map (·.occurrence)).Nodup) :
    CoversOnce (arrivalsAt state.joinProgress occurrence ++ (frontierPublications state).filter
      (fun reference => reference.activation.nodeId ∈ occurrence.join.sources))
      occurrence.join.sources := by
  obtain ⟨-, same⟩ := (progressOf_eq_some distinct).mp consumed.found
  have once := consumed.once
  have complete := consumed.complete
  rw [consumptionArrivals, same] at once complete
  rw [arrivalsAt, consumed.found]
  exact ⟨once, complete⟩

/-- Whatever consumes an occurrence, its recorded arrivals and the successes that consume it
cover every source once. -/
theorem Accepted.consumption_covers {event : RunEvent} (accepted : Accepted reduceStep event)
    {state : GraphRunState} (before : event.before = some state)
    {occurrence : GraphJoinOccurrenceIdentity}
    (member : occurrence ∈ event.command.consumptions) :
    consumingSuccesses state event.command occurrence ⊆ frontierPublications state ∧
    CoversOnce (arrivalsAt state.joinProgress occurrence ++
      consumingSuccesses state event.command occurrence) occurrence.join.sources := by
  have explicit : JoinConsumption state event.command.consumedJoins →
      occurrence ∈ event.command.consumedJoins →
      event.command.activations.find? (fun activation =>
        activation.joinOccurrence = some occurrence) = none →
      consumingSuccesses state event.command occurrence ⊆ frontierPublications state ∧
      CoversOnce (arrivalsAt state.joinProgress occurrence ++
        consumingSuccesses state event.command occurrence) occurrence.join.sources := by
    intro consumption inside absent
    obtain ⟨progress, consumed⟩ := consumption.consumed occurrence inside
    rw [consumingSuccesses, absent]
    exact ⟨List.filter_sublist.subset, consumed.covers consumption.distinct⟩
  rcases accepted_cases accepted with ⟨start, t, rfl, -⟩ | ⟨state', updated, same, reduces, -⟩
  · cases before
  · obtain rfl : state' = state := Option.some.inj (same.symm.trans before)
    have moved := reduces.transition
    cases isCommand : event.command with
    | advance command =>
        rw [isCommand] at moved explicit member
        obtain ⟨⟨consumes, advances⟩, -⟩ :=
          (advanceGraphFrontier_eq_ok reduces.valid.frontier.distinct _ _).mp moved
        cases found : command.activations.find? (fun activation =>
            activation.joinOccurrence = some occurrence) with
        | some activation =>
            have inside := List.mem_of_find?_eq_some found
            have join : activation.joinOccurrence = some occurrence := by
              simpa using List.find?_some found
            obtain ⟨cause, consumed, routed, joins, -, next⟩ := advances.joined inside join
            have consuming : consumingSuccesses state' (.advance command) occurrence =
                currentReferences state' cause.references := by
              rw [consumingSuccesses, GraphRunCommand.activations, found]
              show currentReferences state' activation.cause.references = _
              rw [routed]
              rfl
            rw [consuming]
            exact next.covers joins
        | none =>
            refine explicit advances.delta.consumption ?_ found
            rcases List.mem_append.mp member with activated | explicitly
            · obtain ⟨activation, inside, join⟩ := List.mem_filterMap.mp activated
              exact absurd (List.find?_eq_none.mp found activation inside) (by simp [join])
            · exact explicitly
    | complete command =>
        rw [isCommand] at moved explicit member
        obtain ⟨completes, -⟩ := (completeGraphFrontier_eq_ok _ _ _).mp moved
        exact explicit completes.consumption member rfl
    | start | claim | fence | settle | resume | abort =>
        rw [isCommand] at member
        cases member

/-! ## Where an arrival goes -/

/-- The arrivals that `_resolve_control` gathers by occurrence: pending ones, then the current
successes. -/
def GathersArrivals (graph : CompiledGraph τ) (state : GraphRunState) (arrivals : JoinArrivals) :
    Prop :=
  ∃ evaluation candidates, routingEvaluation graph state = .ok evaluation ∧
    (routingContributions state.frontier).foldlM (contribute graph state)
      ⟨[], evaluation.pendingJoinArrivals⟩ = .ok ⟨candidates, arrivals⟩

/-- A command names a reference among the arrivals of an occurrence, in a record or in the cause
of an activation. -/
def GraphRunCommand.namesArrival (command : GraphRunCommand)
    (occurrence : GraphJoinOccurrenceIdentity) (reference : ActivationReference) : Prop :=
  ∃ advance, command = .advance advance ∧
    ((∃ progress ∈ advance.joinProgress, progress.occurrence = occurrence ∧
        reference ∈ progress.arrived) ∨
      ∃ activation ∈ advance.activations, activation.joinOccurrence = some occurrence ∧
        reference ∈ activation.cause.references)

/-- The occurrence ends at `END`: it is complete and, if it was pending, consumed explicitly. -/
def EndsJoin (state : GraphRunState) (command : GraphRunCommand) (arrivals : JoinArrivals)
    (occurrence : GraphJoinOccurrenceIdentity) : Prop :=
  occurrence.join.target = END ∧
  SameSources ((arrivals.get? occurrence).getD []) occurrence.join.sources ∧
  (occurrence ∈ occurrencesOf (some state) → occurrence ∈ command.consumedJoins)

/-- The commands that resolve a frontier. -/
def ResolutionCommand.resolves : ResolutionCommand → Prop
  | .abort _ => False
  | _ => True

/-- What a resolving command carries is what `_resolve_control` computes. -/
theorem resolveRouting_ok {graph : CompiledGraph τ} {state : GraphRunState}
    {scopeRun : ScopeRunCoordinate} {frames : ScopedFrameAvailability}
    {resolution : ResolutionCommand} (openRun : state.status ≠ .completed)
    (ok : resolveRouting graph state scopeRun frames = .ok resolution)
    (resolves : resolution.resolves) :
    ∃ declared arrivals, Admits graph state declared arrivals ∧ Resolvable graph state arrivals ∧
      resolution.toCommand.consumedJoins =
        sorted ((controlOutcomes graph state arrivals).filterMap JoinOutcome.consumed) ∧
      ((∃ command, resolution = .advance command ∧
          command.activations = nextActivations (nextCauses graph state arrivals) ∧
          command.activations ≠ [] ∧
          command.joinProgress =
            (controlOutcomes graph state arrivals).filterMap JoinOutcome.progress) ∨
        (∃ command, resolution = .complete command ∧
          nextActivations (nextCauses graph state arrivals) = [] ∧
          (controlOutcomes graph state arrivals).filterMap JoinOutcome.progress = [])) := by
  simp only [resolveRouting, bind_eq_ok] at ok
  obtain ⟨facts, resolved, projected⟩ := ok
  obtain ⟨-, declared, arrivals, admits, resolvable, remaining, activations, consumed, required⟩ :=
    resolveRoutingFacts_ok openRun resolved
  refine ⟨declared, arrivals, admits, resolvable, ?_⟩
  rw [← remaining, ← activations, ← consumed]
  simp only [projectRoutingFacts] at projected
  split at projected
  · obtain rfl : _ = resolution := Except.ok.inj projected
    exact resolves.elim
  · split at projected
    · rename_i opens
      obtain rfl : _ = resolution := Except.ok.inj projected
      refine ⟨rfl, .inl ⟨_, rfl, rfl, ?_, rfl⟩⟩
      intro (none : facts.activations = [])
      rw [none, List.map_nil, List.map_eq_nil_iff] at required
      exact opens required
    · rename_i closed
      simp only [bind_unit_eq_ok, raiseIf_eq_ok, ne_eq, not_not] at projected
      obtain ⟨finished, chosen⟩ := projected
      have noActivation : facts.activations = [] := by
        rw [not_not.mp closed, List.map_nil] at required
        exact List.map_eq_nil_iff.mp required.symm
      split at chosen
      · obtain rfl : _ = resolution := Except.ok.inj chosen
        exact resolves.elim
      · obtain rfl : _ = resolution := Except.ok.inj chosen
        exact ⟨rfl, .inr ⟨_, rfl, noActivation, finished⟩⟩

theorem Resolvable.gathers {graph : CompiledGraph τ} {state : GraphRunState}
    {declared : JoinDeclarations} {arrivals : JoinArrivals}
    (openRun : state.status ≠ .completed) (admits : Admits graph state declared arrivals)
    (resolvable : Resolvable graph state arrivals) :
    GathersArrivals graph state (gatheredArrivals graph state arrivals) := by
  obtain ⟨evaluation, evaluated, -, -, same⟩ :=
    (routingEvaluation_admitted openRun arrivals).mpr ⟨declared, admits⟩
  refine ⟨evaluation, directCauses graph (currentSuccessfulReferences state), evaluated, ?_⟩
  rw [same]
  exact (contributions_eq_ok _ _ _ _ _).mpr ⟨resolvable.contributes, resolvable.fresh, rfl⟩

/-- A current success is gathered for one occurrence of each Join listed for its node. -/
theorem gathered_once {graph : CompiledGraph τ} {state : GraphRunState}
    {declared : JoinDeclarations} {arrivals : JoinArrivals} (valid : ValidRun state)
    (admits : Admits graph state declared arrivals) {reference : ActivationReference}
    (success : reference ∈ frontierPublications state) {plan : CompiledJoin}
    (listed : plan ∈ graph.joinsBySource reference.activation.nodeId)
    {occurrence : GraphJoinOccurrenceIdentity} (named : occurrence.join = plan.identity) :
    reference ∈ ((gatheredArrivals graph state arrivals).get? occurrence).getD [] ↔
      occurrence = plan.occurrenceAt reference.activation := by
  have current := superstep_of_success success
  rw [mem_gatheredArrivals admits.pending, mem_joinArrivals]
  constructor
  · rintro (pending | ⟨-, other, otherListed, rfl⟩)
    · obtain ⟨progress, member, -, arrived⟩ := mem_arrivalsOf.mp ((mem_arrivalsAt valid).mp pending)
      have past := ((valid.joins.records progress member).arrivals reference arrived).past
      omega
    · have same := (declaredJoins_ok admits.declares).1.agree _ other otherListed _ plan listed named
      rw [same]
  · rintro rfl
    exact .inr ⟨success, plan, listed, rfl⟩

section Resolution

variable {graph : CompiledGraph τ} {state : GraphRunState} {declared : JoinDeclarations}
  {arrivals : JoinArrivals} {command : AdvanceGraphFrontier}

/-- A direct cause belongs to no Join occurrence. -/
theorem directCauses_joinOccurrence {references : List ActivationReference}
    {target : GraphNodeId} {cause : RoutedActivationCause}
    (member : (target, cause) ∈ directCauses graph references) : cause.joinOccurrence = none := by
  simp only [directCauses, List.mem_flatMap, List.mem_map, Prod.mk.injEq] at member
  obtain ⟨_, -, _, -, -, rfl⟩ := member
  rfl

/-- What a resolved advance names for an occurrence was gathered for it. -/
theorem names_gathered
    (activations : command.activations = nextActivations (nextCauses graph state arrivals))
    (remaining : command.joinProgress =
      (controlOutcomes graph state arrivals).filterMap JoinOutcome.progress)
    {occurrence : GraphJoinOccurrenceIdentity} {reference : ActivationReference}
    (names : (GraphRunCommand.advance command).namesArrival occurrence reference) :
    reference ∈ ((gatheredArrivals graph state arrivals).get? occurrence).getD [] := by
  obtain ⟨_, ⟨⟩, recorded | activated⟩ := names
  · obtain ⟨progress, member, rfl, arrived⟩ := recorded
    rw [remaining, List.mem_filterMap] at member
    obtain ⟨result, inside, isProgress⟩ := member
    obtain ⟨other, -, rfl⟩ := mem_controlOutcomes.mp inside
    unfold occurrenceOutcome at isProgress
    simp only at isProgress
    split_ifs at isProgress <;>
      simp only [JoinOutcome.progress, Option.some.injEq, reduceCtorEq] at isProgress
    subst isProgress
    rw [mem_sorted, getItem_eq_getD] at arrived
    exact arrived
  · obtain ⟨activation, member, join, named⟩ := activated
    rw [activations, mem_nextActivations] at member
    obtain ⟨cause, routed, inside⟩ := member
    rw [GraphFrontierActivation.joinOccurrence, routed] at join
    rw [routed] at named
    have joinsAt : cause.joinOccurrence = some occurrence := join
    rcases List.mem_append.mp inside with direct | joined
    · cases (directCauses_joinOccurrence direct).symm.trans joinsAt
    · obtain ⟨result, resultMember, isCandidate⟩ := List.mem_filterMap.mp joined
      obtain ⟨other, -, rfl⟩ := mem_controlOutcomes.mp resultMember
      unfold occurrenceOutcome at isCandidate
      simp only at isCandidate
      split_ifs at isCandidate <;>
        simp only [JoinOutcome.candidate, Option.some.injEq, Prod.mk.injEq, reduceCtorEq] at isCandidate
      obtain ⟨-, rfl⟩ := isCandidate
      obtain rfl : other = occurrence := Option.some.inj joinsAt
      exact mem_sorted.mp named

/-- Every gathered arrival is recorded, activates the target, or ends its occurrence. -/
theorem gathered_fate {resolution : ResolutionCommand}
    (consumed : resolution.toCommand.consumedJoins =
      sorted ((controlOutcomes graph state arrivals).filterMap JoinOutcome.consumed))
    (carried : (∃ command, resolution = .advance command ∧
        command.activations = nextActivations (nextCauses graph state arrivals) ∧
        command.activations ≠ [] ∧
        command.joinProgress =
          (controlOutcomes graph state arrivals).filterMap JoinOutcome.progress) ∨
      (∃ command, resolution = .complete command ∧
        nextActivations (nextCauses graph state arrivals) = [] ∧
        (controlOutcomes graph state arrivals).filterMap JoinOutcome.progress = []))
    {occurrence : GraphJoinOccurrenceIdentity} {reference : ActivationReference}
    (gathered : reference ∈ ((gatheredArrivals graph state arrivals).get? occurrence).getD []) :
    resolution.toCommand.namesArrival occurrence reference ∨
      EndsJoin state resolution.toCommand (gatheredArrivals graph state arrivals) occurrence := by
  have key : occurrence ∈ (gatheredArrivals graph state arrivals).keys := by
    by_contra absent
    rw [(Dict.get?_eq_none _ _).mpr absent] at gathered
    cases gathered
  have inside := mem_controlOutcomes.mpr ⟨occurrence, key, rfl⟩
  have arrived : reference ∈ sorted ((gatheredArrivals graph state arrivals).getItem occurrence) :=
    mem_sorted.mpr gathered
  by_cases complete : SameSources ((gatheredArrivals graph state arrivals).getItem occurrence)
      occurrence.join.sources
  · have whole := sameSources_sorted.mpr complete
    by_cases ends : occurrence.join.target = END
    · refine .inr ⟨ends, complete, ?_⟩
      intro pending
      rw [consumed, mem_sorted, List.mem_filterMap]
      refine ⟨_, inside, ?_⟩
      have pendingHere : occurrence ∈ state.joinProgress.map (·.occurrence) := pending
      simp only [occurrenceOutcome, if_pos whole, ends, ne_eq, not_true_eq_false, if_false,
        if_pos pendingHere, JoinOutcome.consumed]
    · have activates : occurrenceOutcome state (gatheredArrivals graph state arrivals) occurrence =
          .activates occurrence.join.target
            ⟨sorted ((gatheredArrivals graph state arrivals).getItem occurrence),
              some occurrence⟩ := by
        simp only [occurrenceOutcome, if_pos whole, ne_eq, ends, not_false_eq_true, if_true]
      rw [activates] at inside
      have cause : (occurrence.join.target, (⟨sorted ((gatheredArrivals graph state
          arrivals).getItem occurrence), some occurrence⟩ : RoutedActivationCause)) ∈
            nextCauses graph state arrivals :=
        List.mem_append_right _ (List.mem_filterMap.mpr ⟨_, inside, rfl⟩)
      have opens : (⟨occurrence.join.target, .routed ⟨sorted ((gatheredArrivals graph state
          arrivals).getItem occurrence), some occurrence⟩⟩ : GraphFrontierActivation) ∈
            nextActivations (nextCauses graph state arrivals) :=
        mem_nextActivations.mpr ⟨_, rfl, cause⟩
      rcases carried with ⟨command, rfl, activations, -, -⟩ | ⟨command, rfl, none, -⟩
      · rw [← activations] at opens
        exact .inl ⟨command, rfl, .inr ⟨_, opens, rfl, arrived⟩⟩
      · rw [none] at opens
        cases opens
  · have missing := mt sameSources_sorted.mp complete
    have remains : occurrenceOutcome state (gatheredArrivals graph state arrivals) occurrence =
        .remains ⟨occurrence,
          sorted ((gatheredArrivals graph state arrivals).getItem occurrence)⟩ := by
      simp only [occurrenceOutcome, if_neg missing]
    rw [remains] at inside
    have record := List.mem_filterMap.mpr (⟨_, inside, rfl⟩ : ∃ result ∈
      controlOutcomes graph state arrivals, result.progress = some _)
    rcases carried with ⟨command, rfl, -, -, remaining⟩ | ⟨command, rfl, -, none⟩
    · rw [← remaining] at record
      exact .inl ⟨command, rfl, .inl ⟨_, record, rfl, arrived⟩⟩
    · rw [none] at record
      cases record

end Resolution

/-! ## Whole runs -/

/-- The commands that leave a superstep. -/
def GraphRunCommand.leavesSuperstep : GraphRunCommand → Prop
  | .advance _ => True
  | .complete _ => True
  | _ => False

/-- Leaving a superstep raises the counter or completes the run. -/
theorem Accepted.leaves {event : RunEvent} (accepted : Accepted reduceStep event)
    (leaves : event.command.leavesSuperstep) :
    ∃ s ∈ event.before, ∃ t ∈ event.after, s.superstep < t.superstep ∨ t.status = .completed := by
  rcases accepted_cases accepted with ⟨start, _, rfl, -⟩ | ⟨state, updated, before, reduces, after⟩
  · exact leaves.elim
  · refine ⟨state, before, _, after, ?_⟩
    have moved := reduces.transition
    cases isCommand : event.command with
    | advance command =>
        rw [isCommand] at moved
        obtain ⟨-, rfl⟩ := (advanceGraphFrontier_eq_ok reduces.valid.frontier.distinct _ _).mp moved
        exact .inl (Nat.lt_succ_self _)
    | complete command =>
        rw [isCommand] at moved
        obtain ⟨-, rfl⟩ := (completeGraphFrontier_eq_ok _ _ _).mp moved
        exact .inr rfl
    | start | claim | fence | settle | resume | abort =>
        rw [isCommand] at leaves
        exact leaves.elim

/-- No superstep is left twice. -/
theorem history_leaves (initial : Option GraphRunState) (commands : List GraphRunCommand) :
    (history reduceStep initial commands).Pairwise (fun e f =>
      e.command.leavesSuperstep → f.command.leavesSuperstep →
        ∀ s ∈ e.before, ∀ t ∈ f.before, s.superstep ≠ t.superstep) := by
  refine (history_pairwise initial commands).imp ?_
  rintro e f ⟨acceptedE, reaches, acceptedF⟩ leaves - s beforeS t beforeT
  obtain ⟨s', before, u, after, left⟩ := Accepted.leaves acceptedE leaves
  obtain rfl : s = s' := Option.some.inj (beforeS.symm.trans before)
  rcases left with later | completed
  · obtain ⟨t', beforeT', -, grows⟩ := Reaches.continues reaches u after
    obtain rfl : t = t' := Option.some.inj (beforeT.symm.trans beforeT')
    have rising := grows.superstep
    omega
  · obtain ⟨t', beforeT', still⟩ := Reaches.of_terminal reaches ⟨u, after, .inl completed⟩
    have running := Accepted.running acceptedF beforeT'
    simp [terminal, running] at still

theorem history_leaves_eq {initial : Option GraphRunState} {commands : List GraphRunCommand}
    {e f : RunEvent} (memberE : e ∈ history reduceStep initial commands)
    (memberF : f ∈ history reduceStep initial commands) (leavesE : e.command.leavesSuperstep)
    (leavesF : f.command.leavesSuperstep) {s t : GraphRunState} (beforeE : e.before = some s)
    (beforeF : f.before = some t) (same : s.superstep = t.superstep) : e = f := by
  by_contra different
  have : Std.Symm (fun e f : RunEvent =>
      e.command.leavesSuperstep → f.command.leavesSuperstep →
        ∀ s ∈ e.before, ∀ t ∈ f.before, s.superstep ≠ t.superstep) :=
    ⟨fun _ _ h leavesF leavesE t ht s hs => (h leavesE leavesF s hs t ht).symm⟩
  have apart := (history_leaves initial commands).forall memberE memberF different
  exact apart leavesE leavesF s beforeE t beforeF same

/-- An advance that names a current success among the arrivals of an occurrence is the advance
that leaves its superstep, or the arrival was recorded before. -/
theorem names_recorded {event : RunEvent} (accepted : Accepted reduceStep event)
    {occurrence : GraphJoinOccurrenceIdentity} {reference : ActivationReference}
    (names : event.command.namesArrival occurrence reference) :
    (∃ state ∈ event.before, reference ∈ frontierPublications state) ∨
      (occurrence, reference) ∈ arrivalsOf event.before := by
  obtain ⟨command, isAdvance, named⟩ := names
  rcases accepted_cases accepted with ⟨start, t, rfl, -⟩ | ⟨state, updated, before, reduces, -⟩
  · cases isAdvance
  · have moved := reduces.transition
    rw [isAdvance] at moved
    obtain ⟨⟨consumes, advances⟩, -⟩ :=
      (advanceGraphFrontier_eq_ok reduces.valid.frontier.distinct _ _).mp moved
    rcases named with ⟨progress, member, rfl, arrived⟩ | ⟨activation, member, join, named⟩
    · rcases advances.recorded member arrived with old | current
      · exact .inr (before ▸ (mem_arrivalsAt reduces.valid).mp old)
      · exact .inl ⟨state, before, current⟩
    · obtain ⟨cause, consumed, routed, joins, -, next⟩ := advances.joined member join
      rw [routed] at named
      have place := (next.references reference named).place
      rcases Nat.lt_or_eq_of_le place with past | current
      · have historical : reference ∈ historicalReferences state cause.references :=
          List.mem_filter.mpr ⟨named, by simpa using past⟩
        rw [(next.joined occurrence joins).2.2.2.2.1, mem_arrivalsAt reduces.valid] at historical
        exact .inr (before ▸ historical)
      · exact .inl ⟨state, before, (next.references reference named).current current⟩

/-- Over a whole run, a command names a success only for occurrences that the command leaving
its superstep names it for. -/
theorem history_names {commands : List GraphRunCommand} {e f : RunEvent}
    (memberE : e ∈ history reduceStep none commands)
    (memberF : f ∈ history reduceStep none commands) (leaves : e.command.leavesSuperstep)
    {state : GraphRunState} (before : e.before = some state) {reference : ActivationReference}
    (success : reference ∈ frontierPublications state)
    {occurrence : GraphJoinOccurrenceIdentity}
    (names : f.command.namesArrival occurrence reference) :
    e.command.namesArrival occurrence reference := by
  have current := superstep_of_success success
  rcases names_recorded (mem_history memberF).2 names with ⟨t, beforeF, here⟩ | recorded
  · have leavesF : f.command.leavesSuperstep := by
      obtain ⟨command, isAdvance, -⟩ := names
      rw [isAdvance]
      trivial
    have same : e = f := by
      refine history_leaves_eq memberE memberF leaves leavesF before beforeF ?_
      rw [← current, superstep_of_success here]
    rw [same]
    exact names
  · obtain ⟨g, memberG, u, command, beforeG, isAdvance, here, progress, member, named, arrived⟩ :=
      history_records commands (before_mem_visited memberF) recorded
    have same : e = g := by
      refine history_leaves_eq memberE memberG leaves (by rw [isAdvance]; trivial) before beforeG ?_
      rw [← current, superstep_of_success here]
    rw [same]
    exact ⟨command, isAdvance, .inl ⟨progress, member, named, arrived⟩⟩

/-- Where one success goes: for a Join listed for its node, exactly one occurrence gathers it,
and that occurrence records it, is activated with it, or ends. -/
theorem contribution_once {graph : CompiledGraph τ} {commands : List GraphRunCommand}
    {e : RunEvent} (member : e ∈ history reduceStep none commands) {state : GraphRunState}
    (before : e.before = some state) {resolution : ResolutionCommand}
    {scopeRun : ScopeRunCoordinate} {frames : ScopedFrameAvailability}
    (resolved : resolveRouting graph state scopeRun frames = .ok resolution)
    (resolves : resolution.resolves) (sent : e.command = resolution.toCommand)
    {reference : ActivationReference} (success : reference ∈ frontierPublications state)
    {plan : CompiledJoin} (listed : plan ∈ graph.joinsBySource reference.activation.nodeId) :
    ∃ occurrence arrivals, occurrence.join = plan.identity ∧
      GathersArrivals graph state arrivals ∧
      (∀ other, other.join = plan.identity →
        (reference ∈ (arrivals.get? other).getD [] ↔ other = occurrence)) ∧
      (e.command.namesArrival occurrence reference ∨
        EndsJoin state e.command arrivals occurrence) ∧
      (∀ f ∈ history reduceStep none commands, ∀ other, other.join = plan.identity →
        f.command.namesArrival other reference → other = occurrence) := by
  have accepted := (mem_history member).2
  have valid := Accepted.valid accepted before
  have openRun : state.status ≠ .completed := by
    rw [Accepted.running accepted before]
    simp
  obtain ⟨declared, arrivals, admits, resolvable, consumed, carried⟩ :=
    resolveRouting_ok openRun resolved resolves
  have once : ∀ other : GraphJoinOccurrenceIdentity, other.join = plan.identity →
      (reference ∈ ((gatheredArrivals graph state arrivals).get? other).getD [] ↔
        other = plan.occurrenceAt reference.activation) :=
    fun other named => gathered_once valid admits success listed named
  have gathered := (once (plan.occurrenceAt reference.activation) rfl).mpr rfl
  refine ⟨plan.occurrenceAt reference.activation, gatheredArrivals graph state arrivals, rfl,
    resolvable.gathers openRun admits, once, ?_, ?_⟩
  · rw [sent]
    exact gathered_fate consumed carried gathered
  · intro f memberF other named names
    have leaves : e.command.leavesSuperstep := by
      rw [sent]
      cases resolution with
      | advance command => trivial
      | complete command => trivial
      | abort command => exact resolves.elim
    have namesHere := history_names member memberF leaves before success names
    rw [sent] at namesHere
    refine (once other named).mp ?_
    rcases carried with ⟨command, rfl, activations, -, remaining⟩ | ⟨command, rfl, -, -⟩
    · exact names_gathered activations remaining namesHere
    · obtain ⟨_, ⟨⟩, -⟩ := namesHere

/-- Join conservation. Over any command list from the start of a run: recorded arrivals are
successes of the superstep their advance left, one for each source, and stay until their
occurrence is consumed; an occurrence is consumed once, in the superstep before its target, when
its recorded arrivals and the successes that consume it cover every source once, and it never
comes back; a completed run has consumed all it recorded. When the resolving commands come from
`resolve_routing`, a success goes to exactly one occurrence of each Join listed for its node. -/
theorem join_conservation (graph : CompiledGraph τ) (commands : List GraphRunCommand) :
    let events := history reduceStep none commands
    let states := visited reduceStep none commands
    (∀ state ∈ states, ∀ arrival ∈ arrivalsOf state, ∃ e ∈ events, RecordsArrival e arrival) ∧
    (∀ state ∈ states, (occurrencesOf state).Nodup ∧
      ∀ progress ∈ joinsOf state, (sourceIds progress.arrived).Nodup) ∧
    (∀ earlier later, commands = earlier ++ later →
      ∀ arrival ∈ arrivalsOf (outcome reduceStep none earlier),
        arrival ∈ arrivalsOf (outcome reduceStep none commands) ∨
        ∃ e ∈ history reduceStep (outcome reduceStep none earlier) later,
          arrival.1 ∈ e.command.consumptions) ∧
    (events.flatMap (·.command.consumptions)).Nodup ∧
    (∀ e ∈ events, ∀ occurrence ∈ e.command.consumptions, ∃ state ∈ e.before,
      occurrence.targetSuperstep = state.superstep + 1 ∧
      consumingSuccesses state e.command occurrence ⊆ frontierPublications state ∧
      CoversOnce (arrivalsAt state.joinProgress occurrence ++
        consumingSuccesses state e.command occurrence) occurrence.join.sources) ∧
    (∀ e ∈ events, ∀ occurrence ∈ e.command.consumptions, occurrence ∉ occurrencesOf e.after) ∧
    events.Pairwise (fun e f => ∀ occurrence ∈ e.command.consumptions,
      occurrence ∉ occurrencesOf f.after) ∧
    (∀ final, outcome reduceStep none commands = some final → final.status = .completed →
      ∀ state ∈ states, ∀ occurrence ∈ occurrencesOf state,
        ∃ e ∈ events, occurrence ∈ e.command.consumptions) ∧
    (∀ e ∈ events, ∀ state ∈ e.before, ∀ resolution scopeRun frames,
      resolveRouting graph state scopeRun frames = .ok resolution → resolution.resolves →
      e.command = resolution.toCommand →
      ∀ reference ∈ frontierPublications state,
      ∀ plan ∈ graph.joinsBySource reference.activation.nodeId,
      ∃ occurrence arrivals, occurrence.join = plan.identity ∧
        GathersArrivals graph state arrivals ∧
        (∀ other, other.join = plan.identity →
          (reference ∈ (arrivals.get? other).getD [] ↔ other = occurrence)) ∧
        (e.command.namesArrival occurrence reference ∨
          EndsJoin state e.command arrivals occurrence) ∧
        (∀ f ∈ events, ∀ other, other.join = plan.identity →
          f.command.namesArrival other reference → other = occurrence)) := by
  intro events states
  refine ⟨?_, ?_, ?_, history_consumptions_nodup none commands, ?_,
    (history_consumed_gone none commands).1, (history_consumed_gone none commands).2, ?_, ?_⟩
  · intro state member arrival inside
    exact history_records commands member inside
  · intro state member
    cases state with
    | none => exact ⟨List.nodup_nil, fun progress none => by cases none⟩
    | some s =>
        have valid := visited_valid commands member s rfl
        exact ⟨valid.joins.distinct, fun progress inside => (valid.joins.records progress inside).once⟩
  · rintro earlier later rfl arrival inside
    rw [outcome_append]
    have start : outcome reduceStep none earlier ∈
        visited reduceStep (outcome reduceStep none earlier) later := List.mem_cons_self
    exact visited_kept (fun event accepted => (Accepted.joinStep accepted).keeps) start inside
  · intro e member occurrence consumed
    have accepted := (mem_history member).2
    obtain ⟨state, before, target⟩ := (Accepted.joinStep accepted).target occurrence consumed
    exact ⟨state, before, target, Accepted.consumption_covers accepted before consumed⟩
  · intro final ends completed state member occurrence recorded
    exact completed_consumed commands ends completed member recorded
  · intro e member state before resolution scopeRun frames resolved resolves sent reference success
      plan listed
    exact contribution_once member before resolved resolves sent success listed

/-! ## Two runs -/

/-- The commands that settle the nodes of one frontier under one claim. -/
def settleCommands (revision generation : Nat) (nodeIds : List GraphNodeId) :
    List GraphRunCommand :=
  .claim ⟨revision, "attempt", none⟩ :: nodeIds.mapIdx (fun index nodeId =>
    .settle ⟨revision + 1 + index, ⟨generation, "attempt"⟩,
      .succeeded nodeId .continueGraphRouting, none, none⟩)

/-- The success of one node of the run. -/
def successOf (superstep : Nat) (nodeId : GraphNodeId) : ActivationReference :=
  activationReference "run" superstep nodeId none

/-- Two entries that join. -/
def pairJoin : CompiledJoin := ⟨⟨["a", "b"], "t"⟩, [("a", 1), ("b", 1)], rfl, by decide⟩

def pairGraph : CompiledGraph Unit where
  definitionId := "graph"
  version := 1
  nodes := Dict.build ["a", "b", "t"] (fun nodeId => .callable ⟨nodeId, [], [], [], []⟩)
  nestedGraphs := []
  graphInputDescriptor := default
  graphOutputDescriptor := default
  transition :=
    { entries := ["a", "b"]
      directTargets := Dict.empty
      conditionalTargets := Dict.empty
      routeOptions := Dict.build ["a", "b", "t"] (fun _ => [none])
      joinsBySource := Dict.build ["a", "b"] (fun _ => [pairJoin])
      materializations := Dict.empty
      publications := Dict.empty
      graphOutputs := []
      resourceOrder := []
      activationGates := Dict.build ["t"] (fun _ => [[("a", [none]), ("b", [none])]]) }
  resources := []
  resumeInput := none
  completionRoutes := [none]

/-- The advance that `resolve_routing` returns when both entries have settled. -/
def pairAdvance : AdvanceGraphFrontier :=
  ⟨3, [⟨"t", .routed ⟨[successOf 0 "a", successOf 0 "b"],
    some ⟨pairJoin.identity, "run", 1⟩⟩⟩], [], []⟩

def pairCommands : List GraphRunCommand :=
  [.start ⟨"run", "graph", 1, [⟨"a", .start⟩, ⟨"b", .start⟩], none, none, none, none⟩] ++
    settleCommands 0 1 ["a", "b"] ++ [.advance pairAdvance]

/-- The success of an entry goes to one occurrence of the pair's Join. -/
theorem pairRun_conserves : ∃ state occurrence arrivals,
    resolveRouting pairGraph state ⟨[], "run"⟩ ⟨fun _ => true, fun _ => true⟩ =
      .ok (.advance pairAdvance) ∧
    occurrence.join = pairJoin.identity ∧ GathersArrivals pairGraph state arrivals ∧
    successOf 0 "a" ∈ (arrivals.get? occurrence).getD [] ∧
    ∀ f ∈ history reduceStep none pairCommands, ∀ other, other.join = pairJoin.identity →
      f.command.namesArrival other (successOf 0 "a") → other = occurrence := by
  obtain ⟨e, state, member, before, sent, success, resolved⟩ : ∃ e state,
      e ∈ history reduceStep none pairCommands ∧ e.before = some state ∧
      e.command = .advance pairAdvance ∧ successOf 0 "a" ∈ frontierPublications state ∧
      resolveRouting pairGraph state ⟨[], "run"⟩ ⟨fun _ => true, fun _ => true⟩ =
        .ok (.advance pairAdvance) :=
    ⟨_, _, List.mem_of_getElem? (i := 4) rfl, rfl, rfl, by decide, rfl⟩
  obtain ⟨-, -, -, -, -, -, -, -, contributes⟩ := join_conservation pairGraph pairCommands
  obtain ⟨occurrence, arrivals, named, gathers, once, -, only⟩ := contributes e member state before
    (.advance pairAdvance) ⟨[], "run"⟩ ⟨fun _ => true, fun _ => true⟩ resolved trivial sent
    (successOf 0 "a") success pairJoin (by decide)
  exact ⟨state, occurrence, arrivals, resolved, named, gathers, (once occurrence named).mpr rfl,
    only⟩

/-- The Join of two nodes that settle together once more after the first one arrived. -/
def crossingOccurrence : GraphJoinOccurrenceIdentity := ⟨⟨["a", "b"], "t"⟩, "run", 2⟩

/-- A run up to the superstep before the target: `a` arrived at superstep 0 and settles again at
superstep 1 together with `b`. -/
def crossingCommands : List GraphRunCommand :=
  [.start ⟨"run", "graph", 1, [⟨"a", .start⟩], none, none, none, none⟩] ++
  settleCommands 0 1 ["a"] ++
  [.advance ⟨2, [⟨"a", .routed ⟨[successOf 0 "a"], none⟩⟩,
      ⟨"b", .routed ⟨[successOf 0 "a"], none⟩⟩],
    [⟨crossingOccurrence, [successOf 0 "a"]⟩], []⟩] ++
  settleCommands 3 2 ["a", "b"]

/-- The activation of the target with the recorded arrival of `a` and the success of `b`. -/
def crossingAdvance : AdvanceGraphFrontier :=
  ⟨6, [⟨"t", .routed ⟨[successOf 0 "a", successOf 1 "b"], some crossingOccurrence⟩⟩], [], []⟩

/-- The advance is accepted although the recorded arrivals and all the current successes count
`a` twice: the second success of `a` belongs to another occurrence. -/
theorem crossingRun_counts_twice :
    ∃ state updated, outcome reduceStep none crossingCommands = some state ∧
      reduceGraphRun (some state) (.advance crossingAdvance) = .ok updated ∧
      crossingOccurrence ∈ (GraphRunCommand.advance crossingAdvance).consumptions ∧
      ¬ CoversOnce (arrivalsAt state.joinProgress crossingOccurrence ++
        (frontierPublications state).filter (fun reference =>
          reference.activation.nodeId ∈ crossingOccurrence.join.sources))
        crossingOccurrence.join.sources :=
  ⟨_, _, rfl, rfl, by decide, fun covers => absurd covers.1 (by decide)⟩

end MoteKernel
