import MoteKernel.Execution.ControlRuns
import MoteKernel.Execution.JoinConservation

/-!
# Exactness of the frontier proof

A frontier of an all-success run resolves exactly when its marking can move, and
the frontier it opens has the marking of that move. So the reachable diagram, the
returned completion routes and the duplicate-activation error speak about the
concrete runs.
-/

namespace MoteKernel
open Checked Canonical

variable {τ : Type}

/-! ## Determined steps -/

namespace FrontierRelation

variable {relation : FrontierRelation}

/-- The marking that the causes and the arrivals of a frontier determine. -/
def after (relation : FrontierRelation) (m : Marking) (choice : GraphNodeId → Route) : Marking where
  active target := ∃ cause ∈ relation.successorCauses target, m.Causes choice cause
  pending key := key.remaining < maximum key.join ∧
    m.Arrives key.join (key.remaining + 1) key.source

theorem Moves.agree_after {m next : Marking} {choice : GraphNodeId → Route}
    (moves : relation.Moves m choice next) : relation.Agree next (relation.after m choice) :=
  ⟨moves.active, moves.pending⟩

end FrontierRelation

/-! ## Resolution and moves -/

section Resolution

variable {graph : CompiledGraph τ} {relation : FrontierRelation} {declared : JoinDeclarations}
  {state : GraphRunState} {arrivals : JoinArrivals}

theorem dueCauses_eq_nextCauses (timely : ∀ occurrence ∈ (gatheredArrivals graph state arrivals).keys,
      Timely state (gatheredArrivals graph state arrivals) occurrence) :
    dueCauses graph state arrivals = nextCauses graph state arrivals := by
  rw [dueCauses, nextCauses, controlOutcomes, List.filterMap_map, List.filterMap_filter]
  congr 1
  refine List.filterMap_congr (fun occurrence member => ?_)
  by_cases due : occurrence.targetSuperstep = state.superstep + 1
  · simp [due]
  · have partially : ¬ (SameSources ((gatheredArrivals graph state arrivals).getItem occurrence)
        occurrence.join.sources ∧ occurrence.join.target ≠ END) :=
      fun both => due ((timely occurrence (mem_sorted.mp member)).complete both.1)
    simp [due, candidate_occurrenceOutcome, partially]

theorem mem_remainingProgress {progress : GraphJoinProgress} :
    progress ∈ (controlOutcomes graph state arrivals).filterMap JoinOutcome.progress ↔
      ∃ occurrence ∈ (gatheredArrivals graph state arrivals).keys,
        ¬ SameSources ((gatheredArrivals graph state arrivals).getItem occurrence)
          occurrence.join.sources ∧
        progress = ⟨occurrence,
          sorted ((gatheredArrivals graph state arrivals).getItem occurrence)⟩ := by
  have outcome : ∀ occurrence, (occurrenceOutcome state (gatheredArrivals graph state arrivals)
      occurrence).progress = some progress ↔
      ¬ SameSources ((gatheredArrivals graph state arrivals).getItem occurrence)
        occurrence.join.sources ∧ progress = ⟨occurrence,
          sorted ((gatheredArrivals graph state arrivals).getItem occurrence)⟩ := by
    intro occurrence
    unfold occurrenceOutcome
    by_cases complete : SameSources ((gatheredArrivals graph state arrivals).getItem occurrence)
        occurrence.join.sources
    · simp only [if_pos (sameSources_sorted.mpr complete), complete, not_true_eq_false, false_and,
        iff_false]
      split_ifs <;> simp [JoinOutcome.progress]
    · simp only [if_neg (mt sameSources_sorted.mp complete), complete, not_false_eq_true, true_and,
        JoinOutcome.progress, Option.some.injEq, eq_comm (a := progress)]
  simp only [List.mem_filterMap, mem_controlOutcomes]
  constructor
  · rintro ⟨_, ⟨occurrence, key, rfl⟩, found⟩
    exact ⟨occurrence, key, (outcome occurrence).mp found⟩
  · rintro ⟨occurrence, key, found⟩
    exact ⟨_, ⟨occurrence, key, rfl⟩, (outcome occurrence).mpr found⟩

/-- The remaining progress is in the order of the gathered occurrences. -/
theorem remainingProgress_sublist (graph : CompiledGraph τ) (state : GraphRunState)
    (arrivals : JoinArrivals) :
    (((controlOutcomes graph state arrivals).filterMap JoinOutcome.progress).map
      (·.occurrence)).Sublist (sorted (gatheredArrivals graph state arrivals).keys) := by
  have named : ∀ occurrence progress, (occurrenceOutcome state
      (gatheredArrivals graph state arrivals) occurrence).progress = some progress →
      progress.occurrence = occurrence := by
    intro occurrence progress found
    unfold occurrenceOutcome at found
    simp only at found
    split_ifs at found <;> simp only [JoinOutcome.progress, Option.some.injEq, reduceCtorEq] at found
    rw [← found]
  rw [controlOutcomes, List.filterMap_map]
  induction sorted (gatheredArrivals graph state arrivals).keys with
  | nil => exact List.Sublist.slnil
  | cons occurrence rest ih =>
      rw [List.filterMap_cons]
      split
      · exact ih.cons _
      · rename_i progress found
        rw [List.map_cons, named occurrence progress found]
        exact ih.cons_cons _

theorem remainingProgress_nodup (graph : CompiledGraph τ) (state : GraphRunState)
    (arrivals : JoinArrivals) :
    (((controlOutcomes graph state arrivals).filterMap JoinOutcome.progress).map
      (·.occurrence)).Nodup := by
  have distinct : (sorted (gatheredArrivals graph state arrivals).keys).Nodup :=
    (perm_sorted _).nodup_iff.mpr (gatheredArrivals graph state arrivals).distinct
  exact distinct.sublist (remainingProgress_sublist graph state arrivals)

theorem remainingProgress_sorted (graph : CompiledGraph τ) (state : GraphRunState)
    (arrivals : JoinArrivals) :
    (((controlOutcomes graph state arrivals).filterMap JoinOutcome.progress).map
      (·.occurrence)).Pairwise (· ≤ ·) :=
  (sorted_pairwise _).sublist (remainingProgress_sublist graph state arrivals)

variable (runs : RunsOn graph relation declared state arrivals)
include runs

theorem fresh_iff : Dict.Fresh SameSource arrivals
      (joinArrivals graph (frontierPublications state)) ↔
    ∀ join ∈ relation.joins, ∀ source ∈ join.identity.sources,
      ¬ ((stateMarking state).pending ⟨join, join.offset source, source⟩ ∧
        (stateMarking state).active source) := by
  have apart : (joinArrivals graph (frontierPublications state)).Pairwise
      (fun p q => p.1 = q.1 → ¬ SameSource p.2 q.2) := by
    refine List.pairwise_flatMap.mpr ⟨?_, ?_⟩
    · intro reference _
      rw [List.pairwise_map]
      have distinct : (graph.joinsBySource reference.activation.nodeId).Nodup := by
        rw [(runs.carries.joins _).nodup_iff]
        exact (runs.wellFormed.listed _).1
      refine distinct.imp_of_mem ?_
      intro a b memberA memberB different same _
      exact different ((runs.carries.declarable runs.wellFormed).agree _ a memberA _ b memberB
        (congrArg GraphJoinOccurrenceIdentity.join same))
    · refine (List.pairwise_map.mp runs.shape.publications_nodup).imp ?_
      intro a b different p memberP q memberQ _ same
      obtain ⟨_, -, rfl⟩ := List.mem_map.mp memberP
      obtain ⟨_, -, rfl⟩ := List.mem_map.mp memberQ
      exact different same
  rw [Dict.Fresh, and_iff_left apart]
  constructor
  · rintro fresh join member source inside ⟨pending, active⟩
    obtain ⟨reference, arrived, same⟩ := mem_sourceIds.mp pending
    refine fresh (⟨join.identity, state.runId, state.superstep + join.offset source⟩,
      activationReference state.runId state.superstep source (stateChoice state source)) ?_
      reference ?_ same
    · exact mem_joinArrivals.mpr ⟨runs.shape.publication.mpr ⟨source, active, rfl⟩, join,
        (runs.carries.mem_joinsBySource runs.wellFormed).mpr ⟨member, inside⟩, rfl⟩
    · rw [pendingJoinArrivals_getD runs.pending]
      exact arrived
  · rintro fresh ⟨occurrence, reference⟩ member item recorded same
    obtain ⟨success, plan, listed, rfl⟩ := mem_joinArrivals.mp member
    obtain ⟨source, active, rfl⟩ := runs.shape.publication.mp success
    obtain ⟨join, inside⟩ := (runs.carries.mem_joinsBySource runs.wellFormed).mp listed
    rw [pendingJoinArrivals_getD runs.pending] at recorded
    exact fresh plan join source inside ⟨mem_sourceIds.mpr ⟨item, recorded, same⟩, active⟩

theorem timely_iff : (∀ occurrence ∈ (gatheredArrivals graph state arrivals).keys,
      Timely state (gatheredArrivals graph state arrivals) occurrence) ↔
    (∀ join ∈ relation.joins, ∀ source ∈ join.identity.sources,
      (stateMarking state).Arrives join 1 source → (stateMarking state).Complete join 1) ∧
    ∀ join ∈ relation.joins, ∀ remaining, 1 < remaining →
      remaining ≤ FrontierRelation.maximum join → ¬ (stateMarking state).Complete join remaining := by
  constructor
  · intro timely
    refine ⟨?_, ?_⟩
    · intro join member source inside arrives
      by_contra partially
      have late := (timely _ ((mem_gathered_keys runs member 1).mpr ⟨source, inside, arrives⟩)).partially
        (mt (complete_iff runs member 1).mp partially)
      exact absurd late (Nat.lt_irrefl _)
    · intro join member remaining low _ complete
      obtain ⟨node, listed⟩ := FrontierRelation.mem_joins.mp member
      have inside := (runs.wellFormed.listed node).2 join listed
      have due := (timely _ ((mem_gathered_keys runs member remaining).mpr
        ⟨node, inside, complete node inside⟩)).complete
        ((complete_iff runs member remaining).mpr complete)
      simp only at due
      omega
  · rintro ⟨due, early⟩ occurrence key
    obtain ⟨plan, remaining, gathered⟩ := gatheredAt runs key
    have place := gathered.place
    rw [place] at key ⊢
    have near := gathered.near
    obtain ⟨source, inside, arrives⟩ := (mem_gathered_keys runs gathered.join remaining).mp key
    refine ⟨?_, ?_⟩
    · intro complete
      by_contra late
      simp only at late
      exact early plan gathered.join remaining (by omega) gathered.far
        ((complete_iff runs gathered.join remaining).mp complete)
    · intro partially
      by_contra late
      simp only at late
      obtain rfl : remaining = 1 := by omega
      exact partially ((complete_iff runs gathered.join 1).mpr
        (due plan gathered.join source inside arrives))

/-- Control resolves exactly when the marking can move under the selected routes. -/
theorem resolvable_iff : Resolvable graph state arrivals ↔
    relation.Moves (stateMarking state) (stateChoice state)
      (relation.after (stateMarking state) (stateChoice state)) := by
  have once := dueCauses_once runs
  constructor
  · intro resolvable
    obtain ⟨due, early⟩ := (timely_iff runs).mp resolvable.timely
    refine ⟨?_, due, early, (fresh_iff runs).mp resolvable.fresh, ?_, fun _ _ => Iff.rfl,
      fun _ _ => Iff.rfl⟩
    · intro node _ active
      rw [← runs.carries.options]
      exact runs.shape.selects active
    · rw [dueCauses_eq_nextCauses resolvable.timely] at once
      intro target known
      exact not_not.mp (once.mp resolvable.once target known)
  · intro moves
    have timely := (timely_iff runs).mpr ⟨moves.due, moves.early⟩
    refine ⟨?_, (fresh_iff runs).mpr moves.fresh, timely, ?_⟩
    · rintro ⟨nodeId, routing⟩ member
      obtain ⟨node, inside, rfl, settled⟩ := mem_routingContributions.mp member
      obtain ⟨other, settled', route⟩ := runs.shape.settles node inside
      rw [settled] at settled'
      obtain rfl := GraphNodeSettlement.succeeded.inj settled'
      exact runs.carries.contributes runs.wellFormed state (runs.shape.known node inside) route
    · rw [← dueCauses_eq_nextCauses timely]
      exact once.mpr (fun target known => not_not.mpr (moves.once target known))

omit runs in
theorem resolvesTo_iff (declares : declaredJoins graph = .ok declared)
    (pending : pendingJoinArrivals state declared = .ok arrivals) (control : RoutingFacts) :
    ResolvesTo graph state control ↔ Resolvable graph state arrivals ∧ control =
      { declaredJoins := declared, pendingJoinArrivals := arrivals,
        remainingJoinProgress :=
          (controlOutcomes graph state arrivals).filterMap JoinOutcome.progress,
        activations := nextActivations (nextCauses graph state arrivals),
        consumedJoinProgress :=
          sorted ((controlOutcomes graph state arrivals).filterMap JoinOutcome.consumed) } := by
  unfold ResolvesTo
  constructor
  · rintro ⟨declared', arrivals', declares', pending', resolved⟩
    obtain rfl := Except.ok.inj (declares.symm.trans declares')
    obtain rfl := Except.ok.inj (pending.symm.trans pending')
    obtain ⟨-, resolvable, rfl⟩ := (resolveControl_eq_ok _ _ _ _).mp resolved
    exact ⟨resolvable, rfl⟩
  · rintro ⟨resolvable, rfl⟩
    exact ⟨declared, arrivals, declares, pending,
      (resolveControl_eq_ok _ _ _ _).mpr ⟨rfl, resolvable, rfl⟩⟩

end Resolution

/-! ## The next frontier -/

section Successor

variable {graph : CompiledGraph τ} {relation : FrontierRelation} {declared : JoinDeclarations}
  {state next : GraphRunState} {arrivals : JoinArrivals} {control : RoutingFacts}

theorem activations_nodeId (causes : List (GraphNodeId × RoutedActivationCause)) :
    ((nextActivations causes).map (·.nodeId)).Perm (causes.map Prod.fst) := by
  rw [nextActivations]
  refine ((List.perm_insertionSort _ _).map _).trans ?_
  rw [List.map_map]
  exact List.Perm.refl _

theorem opened_nodeIds {nodes : List GraphFrontierNode}
    {activations : List GraphFrontierActivation}
    (opens : nodes.map GraphFrontierNode.activation = activations) :
    nodes.map (·.nodeId) = activations.map (·.nodeId) := by
  rw [← opens, List.map_map]
  rfl

/-- The first frontier has the shape of a run. -/
theorem Starts.shape (wellFormed : relation.WellFormed) (carries : Carries graph relation)
    (starts : Starts graph state) (settles : SettlesAll graph state) :
    RunShape graph declared state := by
  have nodes : state.frontier.nodes.map (·.nodeId) = relation.entries := by
    rw [opened_nodeIds starts.opens, List.map_map, carries.entries]
    exact List.map_id _
  refine ⟨?_, ?_, settles, fun reference member => (starts.ledger reference).mpr member, ?_, ?_, ?_⟩
  · rw [nodes]
    exact wellFormed.once
  · intro node member
    rw [carries.nodes]
    apply wellFormed.entries
    rw [← nodes]
    exact List.mem_map.mpr ⟨node, member, rfl⟩
  · intro reference member
    rw [superstep_of_success ((starts.ledger reference).mp member)]
  · rw [starts.progress]
    simp
  · rw [starts.progress]
    exact List.nodup_nil

variable (runs : RunsOn graph relation declared state arrivals)
include runs

theorem gathered_sources_nodup (resolvable : Resolvable graph state arrivals)
    (occurrence : GraphJoinOccurrenceIdentity) :
    (sourceIds ((gatheredArrivals graph state arrivals).getItem occurrence)).Nodup := by
  obtain ⟨fresh, apart⟩ := resolvable.fresh
  rw [getItem_eq_getD, gatheredArrivals, Dict.getD_pushAll, sourceIds, List.map_append]
  refine List.nodup_append.mpr ⟨?_, ?_, ?_⟩
  · rw [pendingJoinArrivals_getD runs.pending, arrivalsAt]
    cases found : progressOf state.joinProgress occurrence with
    | none => exact List.nodup_nil
    | some progress =>
        obtain ⟨inside, -⟩ := (progressOf_eq_some runs.shape.once).mp found
        exact (runs.shape.records progress inside).once
  · rw [Dict.valuesAt, List.map_map, List.Nodup, List.pairwise_map]
    refine (apart.filter _).imp_of_mem ?_
    intro a b memberA memberB different same
    have keyA : a.1 = occurrence := by simpa using (List.mem_filter.mp memberA).2
    have keyB : b.1 = occurrence := by simpa using (List.mem_filter.mp memberB).2
    exact different (keyA.trans keyB.symm) same
  · intro a memberA b memberB same
    obtain ⟨old, recorded, rfl⟩ := List.mem_map.mp memberA
    obtain ⟨new, arrived, rfl⟩ := List.mem_map.mp memberB
    exact fresh (occurrence, new) ((Dict.mem_valuesAt _ _ _).mp arrived) old recorded same

/-- The progress a resolved control leaves is explained by the compiled Joins. -/
theorem Follows.records (resolvable : Resolvable graph state arrivals)
    (remaining : control.remainingJoinProgress =
      (controlOutcomes graph state arrivals).filterMap JoinOutcome.progress)
    (follows : Follows state control next) :
    ∀ progress ∈ next.joinProgress, PendingRecord next declared progress := by
  have kept : ∀ reference ∈ state.settledReferences, reference ∈ next.settledReferences :=
    fun reference member => (follows.ledger reference).mpr (.inl member)
  intro progress member
  rw [follows.progress, remaining, mem_remainingProgress] at member
  obtain ⟨occurrence, key, partially, rfl⟩ := member
  obtain ⟨plan, distance, gathered⟩ := gatheredAt runs key
  have identity := ((runs.carries.declared runs.declares).mp gathered.declares).1
  refine ⟨⟨plan, gathered.declares, ?_⟩, ?_, ?_, ?_, ?_, ?_, ?_, ?_⟩
  · intro reference arrived
    obtain ⟨source, same, -⟩ := gathered.references reference (mem_sorted.mp arrived)
    exact ⟨source, same⟩
  · rw [follows.run, gathered.place]
  · rw [follows.superstep]
    exact (resolvable.timely occurrence key).partially partially
  · intro (none : sorted ((gatheredArrivals graph state arrivals).getItem occurrence) = [])
    have perm := perm_sorted ((gatheredArrivals graph state arrivals).getItem occurrence)
    rw [none] at perm
    exact gathered.nonempty perm.nil_eq.symm
  · intro source member
    obtain ⟨reference, arrived, rfl⟩ := mem_sourceIds.mp member
    have inside := (gathered.references reference (mem_sorted.mp arrived)).1
    rwa [identity] at inside
  · intro whole
    apply partially
    apply sameSources_sorted.mp
    refine ⟨?_, whole⟩
    intro source member
    obtain ⟨reference, arrived, rfl⟩ := mem_sourceIds.mp member
    have inside := (gathered.references reference (mem_sorted.mp arrived)).1
    rwa [identity] at inside
  · have perm := (perm_sorted ((gatheredArrivals graph state arrivals).getItem occurrence)).map
      (·.activation.nodeId)
    exact perm.nodup_iff.mpr (gathered_sources_nodup runs resolvable occurrence)
  · intro reference arrived
    exact kept reference (gathered.references reference (mem_sorted.mp arrived)).2.2

/-- The frontier a resolved control opens has the shape of a run. -/
theorem Follows.shape (resolvable : Resolvable graph state arrivals)
    (remaining : control.remainingJoinProgress =
      (controlOutcomes graph state arrivals).filterMap JoinOutcome.progress)
    (activations : control.activations = nextActivations (nextCauses graph state arrivals))
    (follows : Follows state control next) (settles : SettlesAll graph next) :
    RunShape graph declared next := by
  have nodes := opened_nodeIds follows.opens
  rw [activations] at nodes
  have perm := activations_nodeId (nextCauses graph state arrivals)
  have due := dueCauses_eq_nextCauses resolvable.timely
  refine ⟨?_, ?_, settles, fun reference member => (follows.ledger reference).mpr (.inr member), ?_,
    follows.records runs resolvable remaining, ?_⟩
  · rw [nodes, perm.nodup_iff]
    exact resolvable.once
  · intro node member
    have target : node.nodeId ∈ (nextCauses graph state arrivals).map Prod.fst := by
      rw [← perm.mem_iff, ← nodes]
      exact List.mem_map.mpr ⟨node, member, rfl⟩
    rw [← due, (dueCauses_perm runs).mem_iff] at target
    obtain ⟨⟨_, cause⟩, fires, rfl⟩ := List.mem_map.mp target
    rw [runs.carries.nodes]
    exact FrontierRelation.mem_nodes.mp
      (target_known runs ((mem_firing runs _ cause).mp fires).1)
  · intro reference member
    rw [follows.superstep]
    rcases (follows.ledger reference).mp member with old | new
    · exact (runs.shape.past reference old).trans (Nat.le_succ _)
    · rw [superstep_of_success new, follows.superstep]
  · rw [follows.progress, remaining]
    exact remainingProgress_nodup graph state arrivals

/-- The frontier a resolved control opens has the marking the step determines. -/
theorem Follows.marking (resolvable : Resolvable graph state arrivals)
    (remaining : control.remainingJoinProgress =
      (controlOutcomes graph state arrivals).filterMap JoinOutcome.progress)
    (activations : control.activations = nextActivations (nextCauses graph state arrivals))
    (follows : Follows state control next) :
    relation.Agree (stateMarking next)
      (relation.after (stateMarking state) (stateChoice state)) := by
  refine ⟨?_, ?_⟩
  · intro target _
    show target ∈ next.frontier.nodes.map (·.nodeId) ↔ ∃ cause ∈ relation.successorCauses target, _
    rw [opened_nodeIds follows.opens, activations,
      (activations_nodeId (nextCauses graph state arrivals)).mem_iff,
      ← dueCauses_eq_nextCauses resolvable.timely, (dueCauses_perm runs).mem_iff, List.mem_map]
    constructor
    · rintro ⟨⟨_, cause⟩, fires, rfl⟩
      exact ⟨cause, (mem_firing runs _ cause).mp fires⟩
    · rintro ⟨cause, fires⟩
      exact ⟨(target, cause), (mem_firing runs target cause).mpr fires, rfl⟩
  · rintro ⟨join, distance, source⟩ known
    obtain ⟨member, low, high, inside⟩ := FrontierRelation.mem_joinKeys.mp known
    simp only at member low high inside
    have place : next.superstep + distance = state.superstep + (distance + 1) := by
      rw [follows.superstep]
      omega
    show source ∈ sourceIds (arrivalsAt next.joinProgress
        ⟨join.identity, next.runId, next.superstep + distance⟩) ↔
      distance < FrontierRelation.maximum join ∧
        (stateMarking state).Arrives join (distance + 1) source
    rw [follows.progress, remaining, follows.run, place,
      ← arrives_iff runs member inside (distance + 1)]
    constructor
    · intro pending
      unfold arrivalsAt at pending
      cases found : progressOf ((controlOutcomes graph state arrivals).filterMap
          JoinOutcome.progress) ⟨join.identity, state.runId, state.superstep + (distance + 1)⟩ with
      | none => rw [found] at pending; cases pending
      | some progress =>
          rw [found] at pending
          obtain ⟨listed, same⟩ :=
            (progressOf_eq_some (remainingProgress_nodup graph state arrivals)).mp found
          obtain ⟨occurrence, key, -, rfl⟩ := mem_remainingProgress.mp listed
          simp only at same pending
          rw [same] at key pending
          obtain ⟨plan, distance', gathered⟩ := gatheredAt runs key
          have samePlan : plan.identity = join.identity :=
            (congrArg GraphJoinOccurrenceIdentity.join gathered.place).symm
          obtain rfl := runs.carries.agree runs.wellFormed gathered.join member samePlan
          have sameDistance := congrArg GraphJoinOccurrenceIdentity.targetSuperstep gathered.place
          simp only at sameDistance
          have far := gathered.far
          refine ⟨by omega, ?_⟩
          obtain ⟨reference, arrived, named⟩ := mem_sourceIds.mp pending
          exact mem_sourceIds.mpr ⟨reference, mem_sorted.mp arrived, named⟩
    · rintro ⟨less, arrived⟩
      have arrives := (arrives_iff runs member inside (distance + 1)).mp arrived
      have key := (mem_gathered_keys runs member (distance + 1)).mpr ⟨source, inside, arrives⟩
      have partially : ¬ SameSources ((gatheredArrivals graph state arrivals).getItem
          ⟨join.identity, state.runId, state.superstep + (distance + 1)⟩) join.identity.sources := by
        intro complete
        have due := (resolvable.timely _ key).complete complete
        simp only at due
        omega
      have record := (progressOf_eq_some (remainingProgress_nodup graph state arrivals)).mpr
        ⟨mem_remainingProgress.mpr ⟨_, key, partially, rfl⟩, rfl⟩
      unfold arrivalsAt
      rw [record]
      obtain ⟨reference, inGathered, named⟩ := mem_sourceIds.mp arrived
      exact mem_sourceIds.mpr ⟨reference, mem_sorted.mpr inGathered, named⟩

end Successor

/-! ## Settled frontiers -/

/-- The contribution that selects a route. -/
def contributionOf : Route → GraphRoutingContribution
  | none => .continueGraphRouting
  | some route => .selectGraphRoute route

@[simp] theorem route_contributionOf (route : Route) : (contributionOf route).route = route := by
  cases route <;> rfl

/-- The state of a run after all activations of a new frontier succeeded. -/
def succeededState (base : GraphRunState) (superstep : Nat)
    (activations : List GraphFrontierActivation) (progress : List GraphJoinProgress)
    (choice : GraphNodeId → Route) : GraphRunState :=
  { base with
    superstep := superstep
    frontier := ⟨activations.map (fun activation => ⟨activation.nodeId,
      .succeeded (contributionOf (choice activation.nodeId)), activation.cause⟩)⟩
    joinProgress := progress
    settledPublications := base.settledPublications ++ activations.map (fun activation =>
      ⟨activationReference base.runId superstep activation.nodeId (choice activation.nodeId),
        1, ⟨1, "attempt"⟩, none⟩) }

section Settled

variable {base : GraphRunState} {superstep : Nat} {activations : List GraphFrontierActivation}
  {progress : List GraphJoinProgress} {choice : GraphNodeId → Route}

theorem succeededState_opens :
    (succeededState base superstep activations progress choice).frontier.nodes.map
      GraphFrontierNode.activation = activations := by
  simp [succeededState, GraphFrontierNode.activation, Function.comp_def]

theorem succeededState_contributions :
    routingContributions (succeededState base superstep activations progress choice).frontier =
      activations.map (fun activation =>
        (activation.nodeId, contributionOf (choice activation.nodeId))) := by
  simp [routingContributions, succeededState, List.filterMap_map]

theorem succeededState_ledger (reference : ActivationReference) :
    reference ∈ (succeededState base superstep activations progress choice).settledReferences ↔
      reference ∈ base.settledReferences ∨ reference ∈ frontierPublications
        (succeededState base superstep activations progress choice) := by
  rw [frontierPublications, succeededState_contributions]
  simp [succeededState, GraphRunState.settledReferences, Function.comp_def]

theorem succeededState_settles {graph : CompiledGraph τ}
    (declared : ∀ activation ∈ activations,
      choice activation.nodeId ∈ graph.routeOptions activation.nodeId) :
    SettlesAll graph (succeededState base superstep activations progress choice) := by
  intro node member
  obtain ⟨activation, inside, rfl⟩ := List.mem_map.mp member
  exact ⟨_, rfl, by rw [route_contributionOf]; exact declared activation inside⟩

theorem succeededState_choice {nodeId : GraphNodeId}
    (active : nodeId ∈ activations.map (·.nodeId)) :
    stateChoice (succeededState base superstep activations progress choice) nodeId =
      choice nodeId := by
  rw [stateChoice, succeededState_contributions]
  cases found : (activations.map (fun activation => (activation.nodeId,
      contributionOf (choice activation.nodeId)))).find? (fun settled => settled.1 = nodeId) with
  | none =>
      obtain ⟨activation, inside, rfl⟩ := List.mem_map.mp active
      exact absurd (List.find?_eq_none.mp found _ (List.mem_map.mpr ⟨activation, inside, rfl⟩))
        (by simp)
  | some settled =>
      obtain ⟨activation, -, rfl⟩ := List.mem_map.mp (List.mem_of_find?_eq_some found)
      have same : activation.nodeId = nodeId := by simpa using List.find?_some found
      simp [same]

/-- The frontier a control opens can settle with any routes. -/
theorem succeededState_follows (base : GraphRunState) (control : RoutingFacts)
    (choice : GraphNodeId → Route) :
    Follows base control (succeededState base (base.superstep + 1) control.activations
      control.remainingJoinProgress choice) :=
  ⟨rfl, rfl, succeededState_opens, rfl, succeededState_ledger⟩

end Settled

/-! ## Runs and markings -/

section Simulation

variable {graph : CompiledGraph τ} {relation : FrontierRelation} {declared : JoinDeclarations}
  {state : GraphRunState} {arrivals : JoinArrivals}

/-- Every frontier of an all-success run has the shape of one, and a reachable marking. -/
theorem ControlRun.marked (wellFormed : relation.WellFormed) (carries : Carries graph relation)
    (declares : declaredJoins graph = .ok declared) (run : ControlRun graph state) :
    RunShape graph declared state ∧ relation.Marked (stateMarking state) := by
  induction run with
  | @start state starts settles =>
      refine ⟨starts.shape wellFormed carries settles, .start ?_ ?_⟩
      · intro node _
        show node ∈ state.frontier.nodes.map (·.nodeId) ↔ _
        rw [opened_nodeIds starts.opens, List.map_map, carries.entries]
        exact iff_of_eq (congrArg _ (List.map_id _))
      · intro key _ pending
        obtain ⟨reference, arrived, -⟩ := mem_sourceIds.mp pending
        rw [starts.progress] at arrived
        cases arrived
  | @advance state next control before resolves follows settles ih =>
      obtain ⟨shape, marked⟩ := ih
      obtain ⟨arrivals, pending⟩ := shape.pending
      have runs : RunsOn graph relation declared state arrivals :=
        ⟨wellFormed, carries, declares, shape, pending⟩
      obtain ⟨resolvable, rfl⟩ := (resolvesTo_iff declares pending control).mp resolves
      have moves := (resolvable_iff runs).mp resolvable
      have agree := follows.marking runs resolvable rfl rfl
      exact ⟨follows.shape runs resolvable rfl rfl settles, marked.step
        (moves.congr wellFormed (.refl _) agree.symm (fun _ _ _ => rfl))⟩

/-- Every frontier of an all-success run is resolved from its own pending arrivals. -/
theorem ControlRun.runsOn (wellFormed : relation.WellFormed) (carries : Carries graph relation)
    (run : ControlRun graph state) :
    ∃ declared arrivals, RunsOn graph relation declared state arrivals := by
  obtain ⟨declared, declares⟩ := declaredJoins_exists (carries.declarable wellFormed)
  obtain ⟨shape, -⟩ := run.marked wellFormed carries declares
  obtain ⟨arrivals, pending⟩ := shape.pending
  exact ⟨declared, arrivals, wellFormed, carries, declares, shape, pending⟩

/-- Every reachable marking, with every choice of declared routes, comes from a run. -/
theorem Marked.run (wellFormed : relation.WellFormed) (carries : Carries graph relation)
    {m : Marking} (marked : relation.Marked m) : ∀ choice, relation.Routes m choice →
    ∃ state, ControlRun graph state ∧ relation.Agree (stateMarking state) m ∧
      ∀ node ∈ relation.nodes, m.active node → stateChoice state node = choice node := by
  obtain ⟨declared, declares⟩ := declaredJoins_exists (carries.declarable wellFormed)
  induction marked with
  | @start m active idle =>
      intro choice routes
      let activations : List GraphFrontierActivation :=
        graph.transition.entries.map (fun nodeId => ⟨nodeId, .start⟩)
      let base : GraphRunState :=
        { runId := "run", definitionId := graph.definitionId, definitionVersion := graph.version,
          status := .running, superstep := 0, frontier := ⟨[]⟩ }
      have nodes : activations.map (·.nodeId) = relation.entries := by
        rw [List.map_map, carries.entries]
        exact List.map_id _
      have known : ∀ node ∈ relation.entries, node ∈ relation.nodes :=
        fun node entry => FrontierRelation.mem_nodes.mpr (wellFormed.entries entry)
      have starts : Starts graph (succeededState base 0 activations [] choice) := by
        refine ⟨rfl, succeededState_opens, rfl, fun reference => ?_⟩
        rw [succeededState_ledger]
        exact or_iff_right (by simp [base, GraphRunState.settledReferences])
      refine ⟨succeededState base 0 activations [] choice, .start starts (succeededState_settles ?_),
        ⟨?_, ?_⟩, ?_⟩
      · intro activation member
        have entry : activation.nodeId ∈ relation.entries := by
          rw [← nodes]
          exact List.mem_map.mpr ⟨activation, member, rfl⟩
        rw [carries.options]
        exact routes _ (known _ entry) ((active _ (known _ entry)).mpr entry)
      · intro node inside
        show node ∈ (succeededState base 0 activations [] choice).frontier.nodes.map (·.nodeId) ↔ _
        rw [opened_nodeIds succeededState_opens, nodes, active node inside]
      · intro key inside
        refine iff_of_false ?_ (idle key inside)
        intro pending
        obtain ⟨_, arrived, -⟩ := mem_sourceIds.mp pending
        cases arrived
      · intro node inside isActive
        apply succeededState_choice
        rw [nodes]
        exact (active node inside).mp isActive
  | @step m next chosen before moves ih =>
      intro choice routes
      obtain ⟨state, run, agree, same⟩ := ih chosen moves.selects
      obtain ⟨shape, -⟩ := run.marked wellFormed carries declares
      obtain ⟨arrivals, pending⟩ := shape.pending
      have runs : RunsOn graph relation declared state arrivals :=
        ⟨wellFormed, carries, declares, shape, pending⟩
      have here := moves.congr wellFormed agree.symm (.refl next)
        (fun node known active => (same node known active).symm)
      have resolvable := (resolvable_iff runs).mpr
        (here.congr wellFormed (.refl _) here.agree_after (fun _ _ _ => rfl))
      obtain ⟨control, resolves⟩ : ∃ control, ResolvesTo graph state control :=
        ⟨_, (resolvesTo_iff declares pending _).mpr ⟨resolvable, rfl⟩⟩
      obtain ⟨-, fields⟩ := (resolvesTo_iff declares pending control).mp resolves
      have follows := succeededState_follows state control choice
      have marking := (follows.marking runs resolvable (by rw [fields]) (by rw [fields])).active
      have whole := follows.marking runs resolvable (by rw [fields]) (by rw [fields])
      have nextActive : ∀ node ∈ relation.nodes,
          node ∈ control.activations.map (·.nodeId) ↔ next.active node := by
        intro node known
        rw [here.agree_after.active node known, ← marking node known]
        show _ ↔ node ∈ (succeededState state _ _ _ choice).frontier.nodes.map (·.nodeId)
        rw [opened_nodeIds succeededState_opens]
      have opened : ∀ activation ∈ control.activations, activation.nodeId ∈ relation.nodes := by
        intro activation member
        have target : activation.nodeId ∈ (nextCauses graph state arrivals).map Prod.fst := by
          rw [← (activations_nodeId _).mem_iff]
          rw [fields] at member
          exact List.mem_map.mpr ⟨activation, member, rfl⟩
        rw [← dueCauses_eq_nextCauses resolvable.timely, (dueCauses_perm runs).mem_iff] at target
        obtain ⟨⟨_, cause⟩, fires, same⟩ := List.mem_map.mp target
        rw [← same]
        exact target_known runs ((mem_firing runs _ cause).mp fires).1
      refine ⟨_, .advance run resolves follows (succeededState_settles ?_), ⟨?_, ?_⟩, ?_⟩
      · intro activation member
        rw [carries.options]
        exact routes _ (opened activation member) ((nextActive _ (opened activation member)).mp
          (List.mem_map.mpr ⟨activation, member, rfl⟩))
      · intro node known
        rw [whole.active node known, here.agree_after.active node known]
      · intro key known
        rw [whole.pending key known, here.agree_after.pending key known]
      · intro node known active
        exact succeededState_choice ((nextActive node known).mpr active)

end Simulation

/-! ## Completion -/

section Completion

variable {graph : CompiledGraph τ} {relation : FrontierRelation} {declared : JoinDeclarations}
  {state : GraphRunState} {arrivals : JoinArrivals}
  (runs : RunsOn graph relation declared state arrivals)
include runs

/-- The completion route of a frontier is the route that all its nodes selected. -/
theorem completionRoute_eq_ok (route : Route) : completionRoute graph state = .ok route ↔
    state.frontier.nodes ≠ [] ∧
      ∀ nodeId, (stateMarking state).active nodeId → stateChoice state nodeId = route := by
  have valid : ∀ settled ∈ routingContributions state.frontier,
      validateRoutingContribution graph settled.1 settled.2 = .ok () := by
    rintro ⟨nodeId, routing⟩ member
    obtain ⟨node, inside, rfl, settled⟩ := mem_routingContributions.mp member
    obtain ⟨other, settled', declares⟩ := runs.shape.settles node inside
    rw [settled] at settled'
    obtain rfl := GraphNodeSettlement.succeeded.inj settled'
    exact (runs.carries.contributes runs.wellFormed state (runs.shape.known node inside)
      declares).route
  have chosen : ∀ nodeId, (stateMarking state).active nodeId ↔
      ∃ routing, (nodeId, routing) ∈ routingContributions state.frontier ∧
        stateChoice state nodeId = routing.route := by
    intro nodeId
    constructor
    · intro active
      obtain ⟨node, inside, rfl⟩ := List.mem_map.mp active
      obtain ⟨routing, settled, -⟩ := runs.shape.settles node inside
      have member := mem_routingContributions.mpr ⟨node, inside, rfl, settled⟩
      exact ⟨routing, member, runs.shape.choice member⟩
    · rintro ⟨routing, member, -⟩
      obtain ⟨node, inside, rfl, -⟩ := mem_routingContributions.mp member
      exact List.mem_map.mpr ⟨node, inside, rfl⟩
  have routes : ∀ other, other ∈ (routingContributions state.frontier).map
      (fun settled => settled.2.route) ↔
      ∃ nodeId, (stateMarking state).active nodeId ∧ stateChoice state nodeId = other := by
    intro other
    constructor
    · intro member
      obtain ⟨⟨nodeId, routing⟩, inside, rfl⟩ := List.mem_map.mp member
      exact ⟨nodeId, (chosen nodeId).mpr ⟨routing, inside, runs.shape.choice inside⟩,
        runs.shape.choice inside⟩
    · rintro ⟨nodeId, active, rfl⟩
      obtain ⟨routing, inside, same⟩ := (chosen nodeId).mp active
      exact List.mem_map.mpr ⟨(nodeId, routing), inside, same.symm⟩
  have some : state.frontier.nodes ≠ [] ↔ ∃ nodeId, (stateMarking state).active nodeId := by
    constructor
    · intro nonempty
      obtain ⟨node, inside⟩ := List.exists_mem_of_ne_nil _ nonempty
      exact ⟨node.nodeId, List.mem_map.mpr ⟨node, inside, rfl⟩⟩
    · rintro ⟨nodeId, active⟩ none
      rw [stateMarking, none] at active
      cases active
  simp only [completionRoute, bind_unit_eq_ok, checkAll_eq_ok]
  rw [and_iff_right valid, some]
  cases found : (routingContributions state.frontier).map (fun settled => settled.2.route) with
  | nil =>
      rw [found] at routes
      refine iff_of_false (by simp) ?_
      rintro ⟨⟨nodeId, active⟩, -⟩
      exact absurd ((routes _).mpr ⟨nodeId, active, rfl⟩) List.not_mem_nil
  | cons first rest =>
      rw [found] at routes
      simp only [bind_unit_eq_ok, raiseIf_eq_ok, pure_eq_ok, Except.ok.injEq, not_exists, not_and,
        ne_eq, not_not]
      constructor
      · rintro ⟨same, rfl⟩
        obtain ⟨nodeId, active, -⟩ := (routes first).mp List.mem_cons_self
        refine ⟨⟨nodeId, active⟩, ?_⟩
        intro other otherActive
        rcases List.mem_cons.mp ((routes _).mpr ⟨other, otherActive, rfl⟩) with here | later
        · exact here
        · exact same _ later
      · rintro ⟨-, same⟩
        have all : ∀ other ∈ first :: rest, other = route := by
          intro other member
          obtain ⟨nodeId, active, rfl⟩ := (routes other).mp member
          exact same nodeId active
        refine ⟨?_, all first List.mem_cons_self⟩
        intro other later
        rw [all other (List.mem_cons_of_mem _ later), all first List.mem_cons_self]

/-- Nothing is activated exactly when no cause holds. -/
theorem activations_eq_nil (resolvable : Resolvable graph state arrivals) :
    nextActivations (nextCauses graph state arrivals) = [] ↔
      firing relation graph state arrivals = [] := by
  have perm := (activations_nodeId (nextCauses graph state arrivals)).trans
    ((dueCauses_eq_nextCauses resolvable.timely) ▸ dueCauses_perm runs)
  have lengths := perm.length_eq
  rw [List.length_map, List.length_map] at lengths
  rw [← List.length_eq_zero_iff, lengths, List.length_eq_zero_iff]

/-- Control ends exactly when the step leaves nothing active and nothing pending. -/
theorem quiet_iff (resolvable : Resolvable graph state arrivals) :
    (nextActivations (nextCauses graph state arrivals) = [] ∧
      (controlOutcomes graph state arrivals).filterMap JoinOutcome.progress = []) ↔
    relation.Agree (relation.after (stateMarking state) (stateChoice state))
      ⟨fun _ => False, fun _ => False⟩ := by
  rw [activations_eq_nil runs resolvable]
  constructor
  · rintro ⟨none, idle⟩
    refine ⟨fun target _ => iff_of_false ?_ id, fun key known => iff_of_false ?_ id⟩
    · rintro ⟨cause, fires⟩
      have member := (mem_firing runs target cause).mpr fires
      rw [none] at member
      cases member
    · rintro ⟨-, arrives⟩
      obtain ⟨join, low, -, inside⟩ := FrontierRelation.mem_joinKeys.mp known
      have gathered := (mem_gathered_keys runs join (key.remaining + 1)).mpr
        ⟨key.source, inside, arrives⟩
      have partially : ¬ SameSources ((gatheredArrivals graph state arrivals).getItem
          ⟨key.join.identity, state.runId, state.superstep + (key.remaining + 1)⟩)
          key.join.identity.sources := by
        intro complete
        have due := (resolvable.timely _ gathered).complete complete
        simp only at due
        omega
      have recorded := mem_remainingProgress.mpr ⟨_, gathered, partially, rfl⟩
      rw [idle] at recorded
      cases recorded
  · intro agree
    refine ⟨List.eq_nil_iff_forall_not_mem.mpr ?_, List.eq_nil_iff_forall_not_mem.mpr ?_⟩
    · rintro ⟨target, cause⟩ fires
      have held := (mem_firing runs target cause).mp fires
      exact (agree.active target (target_known runs held.1)).mp ⟨cause, held⟩
    · intro progress member
      obtain ⟨occurrence, key, partially, -⟩ := mem_remainingProgress.mp member
      have late := (resolvable.timely occurrence key).partially partially
      obtain ⟨plan, distance, gathered⟩ := gatheredAt runs key
      have place := gathered.place
      rw [place] at key late
      obtain ⟨source, inside, arrives⟩ := (mem_gathered_keys runs gathered.join distance).mp key
      simp only at late
      have far := gathered.far
      have back : distance - 1 + 1 = distance := by omega
      refine (agree.pending ⟨plan, distance - 1, source⟩ (FrontierRelation.mem_joinKeys.mpr
        ⟨gathered.join, by simp only; omega, by simp only; omega, inside⟩)).mp ⟨?_, ?_⟩
      · simp only
        omega
      · simp only [back]
        exact arrives

end Completion

/-! ## Exactness -/

section Exactness

variable {graph : CompiledGraph τ} {relation : FrontierRelation}

/-- The terminal frontiers of the runs are the ends of the reachable markings. -/
theorem terminal_iff (wellFormed : relation.WellFormed) (carries : Carries graph relation)
    (route : Route) :
    (∃ state control, ControlRun graph state ∧ ResolvesTo graph state control ∧
      control.activations = [] ∧ control.remainingJoinProgress = [] ∧
      completionRoute graph state = .ok route) ↔
    ∃ m choice, relation.Ends m choice ∧
      ∀ node ∈ relation.nodes, m.active node → choice node = route := by
  constructor
  · rintro ⟨state, control, run, resolves, closed, finished, completes⟩
    obtain ⟨declared, arrivals, runs⟩ := run.runsOn wellFormed carries
    obtain ⟨resolvable, rfl⟩ := (resolvesTo_iff runs.declares runs.pending control).mp resolves
    obtain ⟨nonempty, chosen⟩ := (completionRoute_eq_ok runs route).mp completes
    obtain ⟨node, inside⟩ := List.exists_mem_of_ne_nil _ nonempty
    have active : (stateMarking state).active node.nodeId := List.mem_map.mpr ⟨node, inside, rfl⟩
    refine ⟨stateMarking state, stateChoice state, ⟨(run.marked wellFormed carries runs.declares).2,
      ⟨node.nodeId, ?_, active⟩, ?_⟩, fun node _ active => chosen node active⟩
    · exact FrontierRelation.mem_nodes.mpr ((carries.nodes _).mp (runs.shape.active_known active))
    · exact ((resolvable_iff runs).mp resolvable).congr wellFormed (.refl _)
        ((quiet_iff runs resolvable).mp ⟨closed, finished⟩) (fun _ _ _ => rfl)
  · rintro ⟨m, choice, ends, chosen⟩
    obtain ⟨state, run, agree, same⟩ := Marked.run wellFormed carries ends.marked choice
      ends.moves.selects
    obtain ⟨declared, arrivals, runs⟩ := run.runsOn wellFormed carries
    have moves := ends.moves.congr wellFormed agree.symm (.refl _)
      (fun node known active => (same node known active).symm)
    have resolvable := (resolvable_iff runs).mpr
      (moves.congr wellFormed (.refl _) moves.agree_after (fun _ _ _ => rfl))
    obtain ⟨closed, finished⟩ := (quiet_iff runs resolvable).mpr moves.agree_after.symm
    refine ⟨state, _, run, (resolvesTo_iff runs.declares runs.pending _).mpr ⟨resolvable, rfl⟩,
      closed, finished, (completionRoute_eq_ok runs route).mpr ⟨?_, ?_⟩⟩
    · obtain ⟨node, known, active⟩ := ends.active
      have here := (agree.active node known).mpr active
      intro none
      rw [stateMarking, none] at here
      cases here
    · intro nodeId active
      have known := FrontierRelation.mem_nodes.mpr
        ((carries.nodes _).mp (runs.shape.active_known active))
      have held := (agree.active nodeId known).mp active
      rw [same nodeId known held]
      exact chosen nodeId known held

/-- The duplicated targets of the runs are those of the reachable markings. -/
theorem duplicated_iff (wellFormed : relation.WellFormed) (carries : Carries graph relation) :
    (∃ state declared arrivals target, ControlRun graph state ∧
      declaredJoins graph = .ok declared ∧ pendingJoinArrivals state declared = .ok arrivals ∧
      2 ≤ ((dueCauses graph state arrivals).map Prod.fst).count target) ↔
    ∃ target ∈ relation.nodes, ∃ m choice, relation.Marked m ∧ relation.Routes m choice ∧
      relation.Duplicates m choice target := by
  constructor
  · rintro ⟨state, declared, arrivals, target, run, declares, pending, twice⟩
    obtain ⟨shape, marked⟩ := run.marked wellFormed carries declares
    have runs : RunsOn graph relation declared state arrivals :=
      ⟨wellFormed, carries, declares, shape, pending⟩
    by_contra none
    have once := (dueCauses_once runs).mpr (by
      intro other known duplicates
      refine none ⟨other, known, stateMarking state, stateChoice state, marked, ?_, duplicates⟩
      intro node _ active
      rw [← carries.options]
      exact shape.selects active)
    have single := List.nodup_iff_count_le_one.mp once target
    omega
  · rintro ⟨target, known, m, choice, marked, routes, duplicates⟩
    obtain ⟨state, run, agree, same⟩ := Marked.run wellFormed carries marked choice routes
    obtain ⟨declared, arrivals, runs⟩ := run.runsOn wellFormed carries
    have twice : ¬ ((dueCauses graph state arrivals).map Prod.fst).Nodup := by
      rw [dueCauses_once runs]
      intro single
      apply duplicates
      refine (not_not.mp (single target known)).imp_of_mem ?_
      intro a b memberA memberB apart both
      apply apart
      have back : ∀ {cause}, cause ∈ relation.successorCauses target →
          (m.Causes choice cause ↔ (stateMarking state).Causes (stateChoice state) cause) :=
        fun member => agree.symm.causes wellFormed
          (fun node inside active => (same node inside active).symm) member
      exact ⟨(back memberA).mp both.1, (back memberB).mp both.2⟩
    rw [List.nodup_iff_count_le_one, not_forall] at twice
    obtain ⟨other, more⟩ := twice
    exact ⟨state, declared, arrivals, other, run, runs.declares, runs.pending, by omega⟩

/-- Exactness of the frontier proof. From every frontier of an all-success run the symbolic
relation takes the steps of `_resolve_control`; the reachable diagram holds exactly at the active
nodes and pending arrivals of those runs; the returned routes are the completion routes of their
terminal frontiers; and the duplicate-activation error is raised exactly when one of their
frontiers gives a target two causes. -/
theorem frontierProof_exact (wellFormed : relation.WellFormed) (carries : Carries graph relation) :
    (∀ state, ControlRun graph state → ∀ next : Marking,
      (∃ f, relation.transition.eval f = true ∧ relation.Selects f (stateChoice state) ∧
        relation.Agree (relation.marking f) (stateMarking state) ∧
        relation.Agree (relation.nextMarking f) next) ↔
      ∃ control successor, ResolvesTo graph state control ∧ Follows state control successor ∧
        relation.Agree (stateMarking successor) next) ∧
    (∀ f : Nat → Bool, relation.reachable.eval f = true ↔
      ∃ state, ControlRun graph state ∧ relation.Agree (stateMarking state) (relation.marking f)) ∧
    (∀ routes, proveCompletionRoutes relation.entries relation.routeOptions relation.directTargets
        relation.conditionalTargets relation.joinsBySource = .ok routes →
      ∀ route, route ∈ routes ↔
        ∃ state control, ControlRun graph state ∧ ResolvesTo graph state control ∧
          control.activations = [] ∧ control.remainingJoinProgress = [] ∧
          completionRoute graph state = .ok route) ∧
    ((∃ target sources, proveCompletionRoutes relation.entries relation.routeOptions
        relation.directTargets relation.conditionalTargets relation.joinsBySource =
          .error (FrontierRelation.duplicateActivation target sources)) ↔
      ∃ state declared arrivals target, ControlRun graph state ∧
        declaredJoins graph = .ok declared ∧ pendingJoinArrivals state declared = .ok arrivals ∧
        2 ≤ ((dueCauses graph state arrivals).map Prod.fst).count target) := by
  refine ⟨?_, ?_, ?_, ?_⟩
  · intro state run next
    obtain ⟨declared, arrivals, runs⟩ := run.runsOn wellFormed carries
    constructor
    · rintro ⟨f, holds, selects, here, there⟩
      obtain ⟨choice, selected, moves⟩ := (FrontierRelation.transition_iff wellFormed f).mp holds
      have same : ∀ node ∈ relation.nodes, (relation.marking f).active node →
          choice node = stateChoice state node := by
        intro node known active
        have literal := fun {c} (chosen : relation.Selects f c) =>
          FrontierRelation.eval_choiceLiteral wellFormed chosen known active (choice node)
        exact ((literal selects).mp ((literal selected).mpr rfl)).symm
      have moved := moves.congr wellFormed here there same
      have resolvable := (resolvable_iff runs).mpr
        (moved.congr wellFormed (.refl _) moved.agree_after (fun _ _ _ => rfl))
      obtain ⟨control, resolves⟩ : ∃ control, ResolvesTo graph state control :=
        ⟨_, (resolvesTo_iff runs.declares runs.pending _).mpr ⟨resolvable, rfl⟩⟩
      obtain ⟨-, fields⟩ := (resolvesTo_iff runs.declares runs.pending control).mp resolves
      have follows := succeededState_follows state control (fun _ => none)
      have marking := follows.marking runs resolvable (by rw [fields]) (by rw [fields])
      refine ⟨control, _, resolves, follows, ⟨?_, ?_⟩⟩
      · intro node known
        rw [marking.active node known, moved.agree_after.active node known]
      · intro key known
        rw [marking.pending key known, moved.agree_after.pending key known]
    · rintro ⟨control, successor, resolves, follows, agree⟩
      obtain ⟨resolvable, rfl⟩ := (resolvesTo_iff runs.declares runs.pending control).mp resolves
      have marking := follows.marking runs resolvable rfl rfl
      have moves := ((resolvable_iff runs).mp resolvable).congr wellFormed (.refl _) marking.symm
        (fun _ _ _ => rfl)
      have stepped := moves.congr wellFormed (.refl _) agree (fun _ _ _ => rfl)
      exact ⟨relation.encoded (stateMarking state) (stateChoice state) next,
        FrontierRelation.transition_encoded wellFormed stepped,
        FrontierRelation.selects_encoded stepped.selects next,
        FrontierRelation.marking_encoded relation _ _ next,
        FrontierRelation.nextMarking_encoded relation _ _ next⟩
  · intro f
    rw [FrontierRelation.reachable_iff_marked wellFormed]
    constructor
    · intro marked
      have options : ∀ node, ∃ route, node ∈ relation.nodes → route ∈ relation.options node := by
        intro node
        by_cases known : node ∈ relation.nodes
        · obtain ⟨route, member⟩ := List.exists_mem_of_ne_nil _
            (wellFormed.declared node (FrontierRelation.mem_nodes.mp known)).1
          exact ⟨route, fun _ => member⟩
        · exact ⟨none, fun inside => absurd inside known⟩
      choose choice declared using options
      obtain ⟨state, run, agree, -⟩ := Marked.run wellFormed carries marked choice
        (fun node known _ => declared node known)
      exact ⟨state, run, agree⟩
    · rintro ⟨state, run, agree⟩
      obtain ⟨declared, arrivals, runs⟩ := run.runsOn wellFormed carries
      exact (run.marked wellFormed carries runs.declares).2.congr wellFormed agree
  · intro routes proved route
    obtain ⟨-, agreed, -, rfl⟩ := (FrontierRelation.completionRoutes_eq_ok wellFormed routes).mp proved
    rw [FrontierRelation.mem_exposedRoutes wellFormed, terminal_iff wellFormed carries]
    constructor
    · rintro ⟨m, choice, ends, node, known, active, rfl⟩
      exact ⟨m, choice, ends, fun other otherKnown otherActive =>
        agreed m choice ends other otherKnown node known otherActive active⟩
    · rintro ⟨m, choice, ends, chosen⟩
      obtain ⟨node, known, active⟩ := ends.active
      exact ⟨m, choice, ends, node, known, active, chosen node known active⟩
  · rw [duplicated_iff wellFormed carries]
    exact FrontierRelation.duplicateError_iff wellFormed

end Exactness

/-- The control tables of the pair. -/
def pairRelation : FrontierRelation where
  entries := ["a", "b"]
  routeOptions := Dict.build ["a", "b", "t"] (fun _ => [none])
  directTargets := Dict.empty
  conditionalTargets := Dict.empty
  joinsBySource := Dict.build ["a", "b"] (fun _ => [pairJoin])

theorem pairRelation_wellFormed : pairRelation.WellFormed := by
  have listed : ∀ node, ∀ join ∈ pairRelation.joinsBySource.getItem node,
      join = pairJoin ∧ node ∈ ["a", "b"] := by
    intro node join member
    simp only [pairRelation, Dict.getItem, Dict.get?_build] at member
    split at member
    · exact ⟨List.mem_singleton.mp member, by assumption⟩
    · cases member
  refine ⟨by decide, by decide, by decide, fun node => ⟨List.nodup_nil, List.nil_subset _⟩, ?_,
    by decide, ?_, ?_, ?_, ?_, ?_, ?_⟩
  · intro node item member
    cases member
  · intro node _ conditional
    exact absurd rfl conditional
  · intro node member _ _
    have all : ∀ node ∈ pairRelation.routeOptions.keys, pairRelation.options node = [none] := by
      decide
    exact all node member
  · intro node
    refine ⟨?_, fun join member => ?_⟩
    · simp only [pairRelation, Dict.getItem, Dict.get?_build]
      split
      · exact List.nodup_singleton _
      · exact List.nodup_nil
    · obtain ⟨rfl, inside⟩ := listed node join member
      exact inside
  · intro node join member other join' member' _
    rw [(listed node join member).1, (listed other join' member').1]
  · intro node join member source inside
    obtain ⟨rfl, -⟩ := listed node join member
    have all : ∀ source ∈ pairJoin.identity.sources,
        pairJoin ∈ pairRelation.joinsBySource.getItem source := by decide
    exact all source inside
  · intro node join member
    obtain ⟨rfl, -⟩ := listed node join member
    decide

theorem pairRelation_carries : Carries pairGraph pairRelation :=
  ⟨rfl, fun _ => Iff.rfl, fun _ => rfl, fun _ _ => rfl, fun _ => rfl, fun _ => .refl _⟩

/-- The proof of the pair's tables returns its only route, and a run completes with it. -/
theorem pairRelation_exact : pairRelation.completionRoutes = .ok [none] ∧
    ∃ state control, ControlRun pairGraph state ∧ ResolvesTo pairGraph state control ∧
      control.activations = [] ∧ control.remainingJoinProgress = [] ∧
      completionRoute pairGraph state = .ok none := by
  have proved : pairRelation.completionRoutes = .ok [none] := rfl
  refine ⟨proved, ?_⟩
  have returned := (frontierProof_exact pairRelation_wellFormed pairRelation_carries).2.2.1
  exact (returned [none] proved none).mp (by decide)

end MoteKernel
