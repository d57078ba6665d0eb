import MoteKernel.Execution.EngineRuns

/-!
# Progress of the engine

The command that `resolve_routing` plans for a settled frontier of a run is an
advance or a completion, and `reduce_graph_run` and the admission of
`prepare_transition` accept it. No run of an accepted definition is stuck between
two frontiers.
-/

namespace MoteKernel
open Checked Canonical Digraph

variable {τ : Type}

/-! ## The resolved causes -/

section Causes

variable {graph : CompiledGraph τ} {relation : FrontierRelation} {declared : JoinDeclarations}
  {state : GraphRunState} {arrivals : JoinArrivals}

/-- A resolved cause is one success or a complete Join occurrence. -/
theorem nextCauses_cases {target : GraphNodeId} {cause : RoutedActivationCause}
    (member : (target, cause) ∈ nextCauses graph state arrivals) :
    (∃ reference ∈ frontierPublications state, cause = ⟨[reference], none⟩) ∨
    ∃ occurrence ∈ (gatheredArrivals graph state arrivals).keys,
      SameSources ((gatheredArrivals graph state arrivals).getItem occurrence)
        occurrence.join.sources ∧ occurrence.join.target ≠ END ∧
      target = occurrence.join.target ∧
      cause = ⟨sorted ((gatheredArrivals graph state arrivals).getItem occurrence),
        some occurrence⟩ := by
  rcases List.mem_append.mp member with direct | joined
  · obtain ⟨reference, success, routed⟩ := List.mem_flatMap.mp direct
    obtain ⟨_, -, same⟩ := List.mem_map.mp routed
    exact .inl ⟨reference, success, (congrArg Prod.snd same).symm⟩
  · obtain ⟨outcome, listed, found⟩ := List.mem_filterMap.mp joined
    obtain ⟨occurrence, key, rfl⟩ := mem_controlOutcomes.mp listed
    rw [candidate_occurrenceOutcome] at found
    by_cases both : SameSources ((gatheredArrivals graph state arrivals).getItem occurrence)
        occurrence.join.sources ∧ occurrence.join.target ≠ END
    · rw [if_pos both] at found
      have same := Option.some.inj found
      exact .inr ⟨occurrence, key, both.1, both.2, (congrArg Prod.fst same).symm,
        (congrArg Prod.snd same).symm⟩
    · rw [if_neg both] at found
      cases found

/-- A complete occurrence with an inner target is a resolved cause. -/
theorem mem_nextCauses_of_complete {occurrence : GraphJoinOccurrenceIdentity}
    (key : occurrence ∈ (gatheredArrivals graph state arrivals).keys)
    (complete : SameSources ((gatheredArrivals graph state arrivals).getItem occurrence)
      occurrence.join.sources) (inner : occurrence.join.target ≠ END) :
    (occurrence.join.target, ⟨sorted ((gatheredArrivals graph state arrivals).getItem occurrence),
      some occurrence⟩) ∈ nextCauses graph state arrivals := by
  refine List.mem_append_right _ (List.mem_filterMap.mpr ⟨_, mem_controlOutcomes.mpr
    ⟨occurrence, key, rfl⟩, ?_⟩)
  rw [candidate_occurrenceOutcome, if_pos ⟨complete, inner⟩]

/-- The consumed occurrences are the complete ones into the end that were pending. -/
theorem mem_consumed {occurrence : GraphJoinOccurrenceIdentity} :
    occurrence ∈ (controlOutcomes graph state arrivals).filterMap JoinOutcome.consumed ↔
      occurrence ∈ (gatheredArrivals graph state arrivals).keys ∧
      SameSources ((gatheredArrivals graph state arrivals).getItem occurrence)
        occurrence.join.sources ∧ occurrence.join.target = END ∧
      occurrence ∈ state.joinProgress.map (·.occurrence) := by
  have outcome : ∀ key, (occurrenceOutcome state (gatheredArrivals graph state arrivals)
      key).consumed = some occurrence ↔ key = occurrence ∧
      SameSources ((gatheredArrivals graph state arrivals).getItem occurrence)
        occurrence.join.sources ∧ occurrence.join.target = END ∧
      occurrence ∈ state.joinProgress.map (·.occurrence) := by
    intro key
    unfold occurrenceOutcome
    by_cases complete : SameSources ((gatheredArrivals graph state arrivals).getItem key)
        key.join.sources
    · simp only [if_pos (sameSources_sorted.mpr complete)]
      by_cases inner : key.join.target ≠ END
      · rw [if_pos inner]
        refine iff_of_false (Option.some_ne_none _).symm ?_
        intro all
        obtain ⟨rfl, -, ends, -⟩ := all
        exact inner ends
      · rw [if_neg inner]
        by_cases recorded : key ∈ state.joinProgress.map (·.occurrence)
        · rw [if_pos recorded, JoinOutcome.consumed, Option.some.injEq]
          constructor
          · intro same
            subst same
            exact ⟨rfl, complete, not_not.mp inner, recorded⟩
          · exact fun all => all.1
        · rw [if_neg recorded]
          refine iff_of_false (Option.some_ne_none _).symm ?_
          intro all
          obtain ⟨rfl, -, -, pending⟩ := all
          exact recorded pending
    · simp only [if_neg (mt sameSources_sorted.mp complete)]
      refine iff_of_false (Option.some_ne_none _).symm ?_
      intro all
      obtain ⟨rfl, whole, -⟩ := all
      exact complete whole
  simp only [List.mem_filterMap, mem_controlOutcomes]
  constructor
  · intro found
    obtain ⟨_, ⟨key, listed, rfl⟩, consumed⟩ := found
    obtain ⟨rfl, rest⟩ := (outcome key).mp consumed
    exact ⟨listed, rest⟩
  · intro found
    obtain ⟨key, rest⟩ := found
    exact ⟨_, ⟨occurrence, key, rfl⟩, (outcome occurrence).mpr ⟨rfl, rest⟩⟩

/-- The consumed occurrences come in order. -/
theorem consumed_strict (graph : CompiledGraph τ) (state : GraphRunState) (arrivals : JoinArrivals) :
    (sorted ((controlOutcomes graph state arrivals).filterMap
      JoinOutcome.consumed)).Pairwise (· < ·) := by
  refine sorted_strict ?_
  rw [controlOutcomes, List.filterMap_map]
  refine List.Nodup.filterMap ?_ ((perm_sorted _).nodup_iff.mpr
    (gatheredArrivals graph state arrivals).distinct)
  intro a b occurrence fromA fromB
  have named : ∀ key, (occurrenceOutcome state (gatheredArrivals graph state arrivals)
      key).consumed = some occurrence → key = occurrence := by
    intro key found
    unfold occurrenceOutcome at found
    simp only at found
    split_ifs at found <;> simp only [JoinOutcome.consumed, Option.some.injEq, reduceCtorEq] at found
    exact found
  exact (named a fromA).trans (named b fromB).symm

end Causes

/-! ## References -/

section References

variable {state : GraphRunState} (valid : ValidRun state) (live : state.status ≠ .completed)
include valid

theorem ValidRun.settled_canonical {reference : ActivationReference}
    (settled : reference ∈ state.settledReferences) : CanonicalReference reference := by
  obtain ⟨item, member, rfl⟩ := List.mem_map.mp settled
  exact (valid.ledger.records item member).reference

theorem ValidRun.settled_run {reference : ActivationReference}
    (settled : reference ∈ state.settledReferences) : reference.activation.runId = state.runId := by
  obtain ⟨item, member, rfl⟩ := List.mem_map.mp settled
  exact valid.ledger.run item member

theorem ValidRun.settled_place {reference : ActivationReference}
    (settled : reference ∈ state.settledReferences) :
    reference.activation.superstep ≤ state.superstep := by
  obtain ⟨item, member, rfl⟩ := List.mem_map.mp settled
  exact valid.ledger.superstep item member

include live

/-- A settled reference may be named by the next superstep. -/
theorem ValidRun.nextReference {reference : ActivationReference}
    (settled : reference ∈ state.settledReferences) : NextReference state reference :=
  ⟨valid.settled_run settled, valid.settled_place settled,
    fun here => (valid.ledger.current live reference).mp ⟨settled, here⟩⟩

end References

/-! ## The command of an advance -/

section Guards

variable {graph : CompiledGraph τ} {relation : FrontierRelation} {declared : JoinDeclarations}
  {state : GraphRunState} {arrivals : JoinArrivals}
  (runs : RunsOn graph relation declared state arrivals)
  (resolvable : Resolvable graph state arrivals) (valid : ValidRun state)
  (live : state.status ≠ .completed)

/-- The pending arrivals of an occurrence are in order and of earlier supersteps. -/
theorem ValidRun.pending_arrivals {state : GraphRunState} (valid : ValidRun state)
    (occurrence : GraphJoinOccurrenceIdentity) :
    (arrivalsAt state.joinProgress occurrence).Pairwise (· < ·) ∧
      ∀ reference ∈ arrivalsAt state.joinProgress occurrence,
        reference.activation.superstep < state.superstep := by
  unfold arrivalsAt
  cases found : progressOf state.joinProgress occurrence with
  | none => exact ⟨List.Pairwise.nil, fun reference none => absurd none List.not_mem_nil⟩
  | some progress =>
      obtain ⟨inside, -⟩ := (progressOf_eq_some valid.joins.distinct).mp found
      have record := valid.joins.records progress inside
      exact ⟨record.canonical, fun reference arrived => (record.arrivals reference arrived).past⟩

include runs

/-- A gathered arrival is pending or of a current success. -/
theorem gathered_cases {occurrence : GraphJoinOccurrenceIdentity} {reference : ActivationReference}
    (member : reference ∈ (gatheredArrivals graph state arrivals).getItem occurrence) :
    reference ∈ arrivalsAt state.joinProgress occurrence ∨
      reference ∈ frontierPublications state := by
  rw [getItem_eq_getD, mem_gatheredArrivals runs.pending, mem_joinArrivals] at member
  exact member.imp id And.left

/-- Nothing pending is lost when the current arrivals join. -/
theorem pending_gathered {occurrence : GraphJoinOccurrenceIdentity} {reference : ActivationReference}
    (member : reference ∈ arrivalsAt state.joinProgress occurrence) :
    reference ∈ (gatheredArrivals graph state arrivals).getItem occurrence := by
  rw [getItem_eq_getD, mem_gatheredArrivals runs.pending]
  exact .inl member

/-- A pending occurrence is a gathered one. -/
theorem pending_key {progress : GraphJoinProgress} (inside : progress ∈ state.joinProgress) :
    progress.occurrence ∈ (gatheredArrivals graph state arrivals).keys := by
  obtain ⟨-, -, items⟩ := (pendingJoinArrivals_eq_ok _ _ _).mp runs.pending
  rw [gatheredArrivals, Dict.mem_keys_pushAll, Dict.keys, items, List.map_map]
  exact .inl (List.mem_map.mpr ⟨progress, inside, rfl⟩)

/-- A complete occurrence has an arrival of the current superstep. -/
theorem current_gathered {occurrence : GraphJoinOccurrenceIdentity}
    (key : occurrence ∈ (gatheredArrivals graph state arrivals).keys)
    (complete : SameSources ((gatheredArrivals graph state arrivals).getItem occurrence)
      occurrence.join.sources) :
    currentReferences state
      (sorted ((gatheredArrivals graph state arrivals).getItem occurrence)) ≠ [] := by
  intro none
  -- without one the pending arrivals alone would be complete
  have all : ∀ reference ∈ (gatheredArrivals graph state arrivals).getItem occurrence,
      reference ∈ arrivalsAt state.joinProgress occurrence := by
    intro reference gathered
    rcases gathered_cases runs gathered with pending | success
    · exact pending
    · have here := superstep_of_success success
      have inside : reference ∈ currentReferences state
          (sorted ((gatheredArrivals graph state arrivals).getItem occurrence)) :=
        List.mem_filter.mpr ⟨mem_sorted.mpr gathered, decide_eq_true (by omega)⟩
      rw [none] at inside
      cases inside
  obtain ⟨first, gathered⟩ := List.exists_mem_of_ne_nil _ (gathered_key runs key)
  obtain ⟨progress, inside, rfl, -⟩ := runs.shape.arrivalsAt (all first gathered)
  have record := runs.shape.records progress inside
  apply record.incomplete
  intro source member
  obtain ⟨reference, arrived, rfl⟩ := mem_sourceIds.mp ((complete source).mpr member)
  have pending := all reference arrived
  rw [arrivalsAt, (progressOf_eq_some runs.shape.once).mpr ⟨inside, rfl⟩] at pending
  exact mem_sourceIds.mpr ⟨reference, pending, rfl⟩

include resolvable

theorem gathered_strict (occurrence : GraphJoinOccurrenceIdentity) :
    (sorted ((gatheredArrivals graph state arrivals).getItem occurrence)).Pairwise (· < ·) :=
  sorted_strict (List.Nodup.of_map _ (gathered_sources_nodup runs resolvable occurrence))

theorem gathered_sources_once (occurrence : GraphJoinOccurrenceIdentity) :
    (sourceIds (sorted ((gatheredArrivals graph state arrivals).getItem occurrence))).Nodup := by
  have perm := (perm_sorted ((gatheredArrivals graph state arrivals).getItem occurrence)).map
    (·.activation.nodeId)
  exact perm.nodup_iff.mpr (gathered_sources_nodup runs resolvable occurrence)

include valid

/-- The earlier arrivals of an occurrence are those that were pending. -/
theorem historical_gathered (occurrence : GraphJoinOccurrenceIdentity) :
    historicalReferences state (sorted ((gatheredArrivals graph state arrivals).getItem occurrence)) =
      arrivalsAt state.joinProgress occurrence := by
  obtain ⟨strict, past⟩ := valid.pending_arrivals occurrence
  refine strict_ext ((gathered_strict runs resolvable occurrence).filter _) strict ?_
  intro reference
  rw [historicalReferences, List.mem_filter, mem_sorted, decide_eq_true_eq]
  constructor
  · intro both
    obtain ⟨gathered, before⟩ := both
    rcases gathered_cases runs gathered with pending | success
    · exact pending
    · rw [superstep_of_success success] at before
      exact absurd before (lt_irrefl _)
  · intro pending
    exact ⟨pending_gathered runs pending, past reference pending⟩

/-- The pending occurrence that an activation consumes. -/
def consumedBy (state : GraphRunState) (activation : GraphFrontierActivation) :
    Option GraphJoinOccurrenceIdentity :=
  match activation.cause with
  | .start => none
  | .routed cause => cause.joinOccurrence.bind (fun occurrence =>
      (progressOf state.joinProgress occurrence).map (fun _ => occurrence))

include live

/-- A resolved cause passes the guards of the next superstep. -/
theorem next_cause {target : GraphNodeId} {cause : RoutedActivationCause}
    (member : (target, cause) ∈ nextCauses graph state arrivals) :
    NextCause state target cause (consumedBy state ⟨target, .routed cause⟩) := by
  have named : ∀ reference ∈ state.settledReferences, NextReference state reference :=
    fun reference settled => valid.nextReference live settled
  rcases nextCauses_cases member with ⟨reference, success, rfl⟩ |
    ⟨occurrence, key, complete, inner, rfl, rfl⟩
  · have here := superstep_of_success success
    refine ⟨?_, ?_, ?_, ?_, ?_⟩
    · exact List.nodup_singleton _
    · intro other listed
      rw [List.mem_singleton.mp listed]
      exact named reference (runs.shape.evidence success)
    · simp [currentReferences, here]
    · intro _
      exact ⟨by simp [historicalReferences, here], rfl, rfl⟩
    · exact fun occurrence wrong => absurd wrong (Option.some_ne_none _).symm
  · have place := (resolvable.timely occurrence key).complete complete
    obtain ⟨plan, distance, gathered⟩ := gatheredAt runs key
    refine ⟨gathered_sources_once runs resolvable occurrence, ?_, current_gathered runs key complete,
      (fun wrong => absurd wrong (Option.some_ne_none _)), ?_⟩
    · intro reference listed
      exact named reference (gathered.references reference (mem_sorted.mp listed)).2.2
    · intro other same
      obtain rfl := Option.some.inj same
      refine ⟨congrArg GraphJoinOccurrenceIdentity.runId gathered.place, rfl, place,
        sameSources_iff.mp (sameSources_sorted.mpr complete),
        historical_gathered runs resolvable valid occurrence, rfl⟩

omit resolvable valid live

/-- The pending occurrences that activations consume are the complete ones with an inner target. -/
theorem mem_consumedBy {occurrence : GraphJoinOccurrenceIdentity} :
    occurrence ∈ ((nextActivations (nextCauses graph state arrivals)).map
        (consumedBy state)).filterMap id ↔
      occurrence ∈ (gatheredArrivals graph state arrivals).keys ∧
      SameSources ((gatheredArrivals graph state arrivals).getItem occurrence)
        occurrence.join.sources ∧ occurrence.join.target ≠ END ∧
      occurrence ∈ state.joinProgress.map (·.occurrence) := by
  have pending : ∀ key, (progressOf state.joinProgress key).map (fun _ => key) = some occurrence ↔
      key = occurrence ∧ occurrence ∈ state.joinProgress.map (·.occurrence) := by
    intro key
    rw [Option.map_eq_some_iff]
    constructor
    · intro found
      obtain ⟨progress, found, rfl⟩ := found
      obtain ⟨inside, same⟩ := (progressOf_eq_some runs.shape.once).mp found
      exact ⟨rfl, List.mem_map.mpr ⟨progress, inside, same⟩⟩
    · intro both
      obtain ⟨rfl, listed⟩ := both
      obtain ⟨progress, inside, same⟩ := List.mem_map.mp listed
      exact ⟨progress, (progressOf_eq_some runs.shape.once).mpr ⟨inside, same⟩, rfl⟩
  simp only [List.mem_filterMap, List.mem_map, id_eq, exists_eq_right, mem_nextActivations]
  constructor
  · intro found
    obtain ⟨activation, ⟨cause, caused, member⟩, consumes⟩ := found
    rw [consumedBy, caused] at consumes
    rcases nextCauses_cases member with ⟨reference, -, rfl⟩ |
      ⟨key, listed, complete, inner, -, rfl⟩
    · cases consumes
    · obtain ⟨rfl, recorded⟩ := (pending key).mp consumes
      exact ⟨listed, complete, inner, List.mem_map.mp recorded⟩
  · intro found
    obtain ⟨key, complete, inner, recorded⟩ := found
    refine ⟨⟨occurrence.join.target, .routed ⟨sorted ((gatheredArrivals graph state
      arrivals).getItem occurrence), some occurrence⟩⟩, ⟨_, rfl,
      mem_nextCauses_of_complete key complete inner⟩, ?_⟩
    exact (pending occurrence).mpr ⟨rfl, List.mem_map.mpr recorded⟩

variable (meets : ∀ progress ∈ state.joinProgress, ∀ reference ∈ frontierPublications state,
  reference.activation.nodeId ∈ progress.occurrence.join.sources →
    reference ∈ (gatheredArrivals graph state arrivals).getItem progress.occurrence)
include resolvable valid meets

/-- A complete pending occurrence passes the guards of its consumption. -/
theorem consumed_occurrence {progress : GraphJoinProgress} (inside : progress ∈ state.joinProgress)
    (complete : SameSources ((gatheredArrivals graph state arrivals).getItem progress.occurrence)
      progress.occurrence.join.sources) :
    ConsumedOccurrence state progress.occurrence progress := by
  have key := pending_key runs inside
  obtain ⟨plan, distance, gathered⟩ := gatheredAt runs key
  have record := runs.shape.records progress inside
  have recorded : arrivalsAt state.joinProgress progress.occurrence = progress.arrived := by
    rw [arrivalsAt, (progressOf_eq_some runs.shape.once).mpr ⟨inside, rfl⟩]
  have past := (valid.pending_arrivals progress.occurrence).2
  rw [recorded] at past
  -- what the consumption counts is what was gathered
  have counted : ∀ reference, reference ∈ consumptionArrivals (frontierPublications state) progress ↔
      reference ∈ (gatheredArrivals graph state arrivals).getItem progress.occurrence := by
    intro reference
    rw [consumptionArrivals, List.mem_append, List.mem_filter, decide_eq_true_eq, ← recorded]
    constructor
    · intro either
      rcases either with pending | ⟨success, source⟩
      · exact pending_gathered runs pending
      · exact meets progress inside reference success source
    · intro arrived
      rcases gathered_cases runs arrived with pending | success
      · exact .inl pending
      · exact .inr ⟨success, (complete _).mp (mem_sourceIds.mpr ⟨reference, arrived, rfl⟩)⟩
  have once := gathered_sources_nodup runs resolvable progress.occurrence
  have distinct : (consumptionArrivals (frontierPublications state) progress).Nodup := by
    refine List.nodup_append.mpr ⟨List.Nodup.of_map _ record.once,
      (List.Nodup.of_map _ runs.shape.publications_nodup).filter _, ?_⟩
    intro a old b new equal
    have before := past a old
    have here := superstep_of_success (List.mem_filter.mp new).1
    rw [equal] at before
    omega
  have perm : (consumptionArrivals (frontierPublications state) progress).Perm
      ((gatheredArrivals graph state arrivals).getItem progress.occurrence) :=
    (List.perm_ext_iff_of_nodup distinct (List.Nodup.of_map _ once)).mpr counted
  have sources : (sourceIds (consumptionArrivals (frontierPublications state) progress)).Perm
      (sourceIds ((gatheredArrivals graph state arrivals).getItem progress.occurrence)) := perm.map _
  refine ⟨congrArg GraphJoinOccurrenceIdentity.runId gathered.place,
    (resolvable.timely _ key).complete complete,
    (progressOf_eq_some runs.shape.once).mpr ⟨inside, rfl⟩, sources.nodup_iff.mpr once, ?_⟩
  intro source
  rw [← complete source]
  exact sources.mem_iff

/-- The occurrences that control consumes pass the guards of their consumption. -/
theorem join_consumption : JoinConsumption state (sorted ((controlOutcomes graph state
    arrivals).filterMap JoinOutcome.consumed)) := by
  refine ⟨valid.joins.distinct, ?_, consumed_strict graph state arrivals⟩
  intro occurrence member
  obtain ⟨-, complete, -, recorded⟩ := mem_consumed.mp (mem_sorted.mp member)
  obtain ⟨progress, inside, rfl⟩ := List.mem_map.mp recorded
  exact ⟨progress, consumed_occurrence runs resolvable valid meets inside complete⟩

/-- The progress that control leaves passes the guards of an advance. -/
theorem join_delta : JoinDelta state
    ((controlOutcomes graph state arrivals).filterMap JoinOutcome.progress)
    (((nextActivations (nextCauses graph state arrivals)).map (consumedBy state)).filterMap id)
    (sorted ((controlOutcomes graph state arrivals).filterMap JoinOutcome.consumed)) := by
  have consumable : ∀ occurrence, occurrence ∈ ((nextActivations (nextCauses graph state
      arrivals)).map (consumedBy state)).filterMap id ++ sorted ((controlOutcomes graph state
        arrivals).filterMap JoinOutcome.consumed) ↔
      occurrence ∈ (gatheredArrivals graph state arrivals).keys ∧
      SameSources ((gatheredArrivals graph state arrivals).getItem occurrence)
        occurrence.join.sources ∧ occurrence ∈ state.joinProgress.map (·.occurrence) := by
    intro occurrence
    rw [List.mem_append, mem_consumedBy runs, mem_sorted, mem_consumed]
    tauto
  refine ⟨remainingProgress_nodup graph state arrivals,
    join_consumption runs resolvable valid meets, ?_, ?_, ?_, ?_⟩
  · intro occurrence inner ends
    obtain ⟨-, -, goes, -⟩ := (mem_consumedBy runs).mp inner
    obtain ⟨-, -, stops, -⟩ := mem_consumed.mp (mem_sorted.mp ends)
    exact goes stops
  · intro progress member unknown reference arrived
    obtain ⟨occurrence, -, -, rfl⟩ := mem_remainingProgress.mp member
    rcases gathered_cases runs (mem_sorted.mp arrived) with pending | success
    · rw [arrivalsAt, unknown] at pending
      cases pending
    · exact success
  · intro progress member prior found
    obtain ⟨occurrence, key, partially, rfl⟩ := mem_remainingProgress.mp member
    obtain ⟨inside, same⟩ := (progressOf_eq_some runs.shape.once).mp found
    have recorded : arrivalsAt state.joinProgress occurrence = prior.arrived := by
      rw [arrivalsAt, found]
    refine ⟨?_, ?_, ?_⟩
    · intro consumed
      exact partially ((consumable occurrence).mp consumed).2.1
    · intro reference arrived
      rw [← recorded] at arrived
      exact mem_sorted.mpr (pending_gathered runs arrived)
    · intro reference arrived
      rw [← recorded]
      exact gathered_cases runs (mem_sorted.mp arrived)
  · intro prior inside
    have key := pending_key runs inside
    by_cases complete : SameSources ((gatheredArrivals graph state arrivals).getItem
        prior.occurrence) prior.occurrence.join.sources
    · exact .inr ((consumable _).mpr ⟨key, complete, List.mem_map.mpr ⟨prior, inside, rfl⟩⟩)
    · exact .inl (List.mem_map.mpr
        ⟨_, mem_remainingProgress.mpr ⟨prior.occurrence, key, complete, rfl⟩, rfl⟩)

end Guards

/-! ## The state after a resolution -/

/-- The state that an advance builds. -/
def advancedState (state : GraphRunState) (activations : List GraphFrontierActivation)
    (progress : List GraphJoinProgress) : GraphRunState :=
  { state with
    superstep := state.superstep + 1
    frontier := pendingFrontier activations
    joinProgress := progress
    completionRoute := none
    revision := state.revision + 1 }

/-- The state that a completion builds. -/
def completedState (state : GraphRunState) (route : Option GraphRouteId) : GraphRunState :=
  { state with
    status := .completed
    frontier := ⟨[]⟩
    joinProgress := []
    completionRoute := route
    revision := state.revision + 1 }

/-- The advance that control resolves to. -/
def resolvedAdvance (graph : CompiledGraph τ) (state : GraphRunState) (arrivals : JoinArrivals) :
    AdvanceGraphFrontier where
  expectedRevision := state.revision
  activations := nextActivations (nextCauses graph state arrivals)
  joinProgress := (controlOutcomes graph state arrivals).filterMap JoinOutcome.progress
  consumedJoinProgress :=
    sorted ((controlOutcomes graph state arrivals).filterMap JoinOutcome.consumed)

/-- The completion that control resolves to. -/
def resolvedCompletion (graph : CompiledGraph τ) (state : GraphRunState) (arrivals : JoinArrivals)
    (route : Option GraphRouteId) : CompleteGraphFrontier where
  expectedRevision := state.revision
  consumedJoinProgress :=
    sorted ((controlOutcomes graph state arrivals).filterMap JoinOutcome.consumed)
  completionRoute := route

theorem advancedState_publications (state : GraphRunState)
    (activations : List GraphFrontierActivation) (progress : List GraphJoinProgress) :
    frontierPublications (advancedState state activations progress) = [] := by
  rw [List.eq_nil_iff_forall_not_mem]
  intro reference success
  obtain ⟨node, inside, routing, settled, -⟩ := mem_frontierPublications.mp success
  obtain ⟨activation, -, rfl⟩ := List.mem_map.mp inside
  cases settled

/-- The ledger of the successor is the old one. -/
theorem ValidRun.advanced_ledger {state : GraphRunState} (valid : ValidRun state)
    (activations : List GraphFrontierActivation) (progress : List GraphJoinProgress) :
    ValidLedger (advancedState state activations progress) := by
  have none := advancedState_publications state activations progress
  have same : (advancedState state activations progress).settledReferences =
      state.settledReferences := rfl
  refine { valid.ledger with
    superstep := ?_
    revision := ?_
    current := ?_
    canonicalSuccesses := ?_ }
  · exact fun item member => (valid.ledger.superstep item member).trans (Nat.le_succ _)
  · exact fun item member => (valid.ledger.revision item member).trans (Nat.le_succ _)
  · intro _ reference
    rw [none, same]
    refine iff_of_false ?_ List.not_mem_nil
    intro both
    have place := valid.settled_place both.1
    have later : reference.activation.superstep = state.superstep + 1 := both.2
    omega
  · intro _ reference success
    rw [none] at success
    cases success

/-- The state that a completion builds is valid when every success selected its route. -/
theorem ValidRun.completed {state : GraphRunState} (valid : ValidRun state)
    (resolves : Resolves state) {route : Option GraphRouteId}
    (some : frontierPublications state ≠ [])
    (same : ∀ reference ∈ frontierPublications state, reference.route = route) :
    ValidRun (completedState state route) := by
  have live : state.status ≠ .completed := by
    rw [resolves.running]
    exact fun wrong => nomatch wrong
  obtain ⟨-, -, unaborted, -⟩ := (ValidStatus.running_iff resolves.running).mp valid.status
  obtain ⟨first, success⟩ := List.exists_mem_of_ne_nil _ some
  have terminal : ∀ item, item ∈ (completedState state route).settledPublications.filter
      (fun item => item.reference.activation.superstep = state.superstep) ↔
      item ∈ state.settledPublications ∧ item.reference ∈ frontierPublications state := by
    intro item
    rw [List.mem_filter, decide_eq_true_eq]
    refine and_congr_right (fun member => ?_)
    rw [← valid.ledger.current live]
    exact (and_iff_right (List.mem_map.mpr ⟨item, member, rfl⟩)).symm
  refine { valid with
    ledger := { valid.ledger with
      revision := fun item member => (valid.ledger.revision item member).trans (Nat.le_succ _)
      current := fun wrong => absurd rfl wrong
      canonicalSuccesses := fun wrong => absurd rfl wrong }
    route := ?_
    parent := ?_
    joins := ?_
    frontier := ?_
    resources := ?_
    lease := ?_
    status := ?_ }
  · show canonicalRoute route
    rw [← same first success]
    exact (valid.ledger.canonicalSuccesses live first success).route
  · intro parent held
    have kept := valid.parent parent held
    exact ⟨kept.run, kept.node, kept.apart, kept.child⟩
  · exact ⟨fun progress none => absurd none List.not_mem_nil, List.Pairwise.nil,
      fun progress none => absurd none List.not_mem_nil⟩
  · exact ⟨List.Pairwise.nil, fun node none => absurd none List.not_mem_nil,
      fun node none => absurd none List.not_mem_nil, fun node none => absurd none List.not_mem_nil,
      fun node none => absurd none List.not_mem_nil, valid.frontier.codecIdentity⟩
  · intro resources held
    have held : resources ∈ state.resources := held
    rw [resolves.free] at held
    cases held
  · intro lease held
    have held : lease ∈ state.execution := held
    rw [resolves.unleased] at held
    cases held
  · refine ⟨⟨rfl, rfl, resolves.free⟩, unaborted, fun _ => ?_⟩
    obtain ⟨last, member, named⟩ := List.mem_map.mp
      ((valid.ledger.current live first).mpr success).1
    have inside := (terminal last).mpr ⟨member, named ▸ success⟩
    have routes : ∀ other ∈ ((completedState state route).settledPublications.filter (fun item =>
        item.reference.activation.superstep = state.superstep)).map (·.reference.route),
        other = route := by
      intro other listed
      obtain ⟨item, held, rfl⟩ := List.mem_map.mp listed
      exact same _ ((terminal item).mp held).2
    simp only [validateCompletedGraphProvenance, bind_unit_eq_ok, raiseIf_eq_ok, not_exists, not_and,
      not_le, ge_iff_le, ne_eq, not_not]
    refine ⟨List.ne_nil_of_mem inside, ?_, ?_⟩
    · intro item held
      exact Nat.lt_succ_of_le (valid.ledger.revision item ((terminal item).mp held).1)
    · show (List.map (·.reference.route) ((completedState state route).settledPublications.filter
        (fun item => item.reference.activation.superstep = state.superstep))).dedup = [route]
      rw [List.eq_replicate_of_mem routes]
      refine List.replicate_dedup ?_
      rw [List.length_map]
      exact Nat.pos_iff_ne_zero.mp (List.length_pos_of_mem inside)

section Successor

variable {graph : CompiledGraph τ} {nodeIds entries : List GraphNodeId} {edges : List Edge}
  {routeOptions : Dict GraphNodeId (List Route)} {dataDependencies : DataDependencies}
  {requirements : Dict GraphNodeId RouteRequirementProof}
  {guarantees : Dict GraphNodeId (List GraphNodeId)} {plan : ControlPlan}
  (accepted : Accepted graph nodeIds entries edges routeOptions dataDependencies requirements
    guarantees plan)
  (canonical : ∀ node ∈ nodeIds, isCanonicalIdentity node = true)
  {declared : JoinDeclarations} {state : GraphRunState} {arrivals : JoinArrivals}
  (runs : RunsOn graph (edgeRelation nodeIds entries edges routeOptions plan.joins) declared state
    arrivals)
  (resolvable : Resolvable graph state arrivals) (valid : ValidRun state)

include accepted canonical runs valid

/-- A gathered occurrence is one that a valid state may record. -/
theorem Accepted.gathered_occurrence {next : GraphRunState} (run : next.runId = state.runId)
    {occurrence : GraphJoinOccurrenceIdentity}
    (key : occurrence ∈ (gatheredArrivals graph state arrivals).keys) :
    ValidOccurrence next occurrence := by
  obtain ⟨join, distance, gathered⟩ := gatheredAt runs key
  obtain ⟨sources, edge, same⟩ :=
    accepted.runs.join_edge (accepted.runs.mem_joins.mp gathered.join)
  obtain ⟨several, distinct, known, target, apart⟩ := accepted.runs.valid.known _ edge
  rw [gathered.place]
  refine ⟨?_, ?_, ?_, ?_, ?_, run.symm, valid.run, ?_⟩
  · rw [same, (perm_sorted sources).length_eq]
    exact several
  · intro source inside
    rw [same, mem_sorted] at inside
    exact canonical source (known inside)
  · rw [same]
    exact sorted_strict distinct
  · rcases target with ends | inner
    · rw [ends]
      decide
    · exact canonical _ inner
  · rw [same, mem_sorted]
    exact apart
  · have near := gathered.near
    show 1 ≤ state.superstep + distance
    omega

include resolvable

/-- The progress that control leaves is valid in the next superstep. -/
theorem Accepted.advanced_joins (activations : List GraphFrontierActivation) :
    ValidJoinProgress (advancedState state activations
      ((controlOutcomes graph state arrivals).filterMap JoinOutcome.progress)) := by
  have key : ∀ progress ∈ (controlOutcomes graph state arrivals).filterMap JoinOutcome.progress,
      progress.occurrence ∈ (gatheredArrivals graph state arrivals).keys := by
    intro progress member
    obtain ⟨occurrence, key, -, rfl⟩ := mem_remainingProgress.mp member
    exact key
  refine ⟨?_, ?_, ?_⟩
  · intro progress member
    have run : (advancedState state activations ((controlOutcomes graph state arrivals).filterMap
        JoinOutcome.progress)).runId = state.runId := rfl
    exact accepted.gathered_occurrence canonical runs valid run (key progress member)
  · have ordered := remainingProgress_sorted graph state arrivals
    have distinct := remainingProgress_nodup graph state arrivals
    exact (ordered.and distinct).imp (fun both => lt_of_le_of_ne both.1 both.2)
  · intro progress member
    obtain ⟨occurrence, key, partially, rfl⟩ := mem_remainingProgress.mp member
    obtain ⟨join, distance, gathered⟩ := gatheredAt runs key
    have identity : occurrence.join = join.identity :=
      congrArg GraphJoinOccurrenceIdentity.join gathered.place
    have sources : ∀ reference ∈ (gatheredArrivals graph state arrivals).getItem occurrence,
        reference.activation.nodeId ∈ occurrence.join.sources := by
      intro reference arrived
      rw [identity]
      exact (gathered.references reference arrived).1
    refine ⟨(resolvable.timely occurrence key).partially partially, ?_,
      gathered_strict runs resolvable occurrence, gathered_sources_once runs resolvable occurrence,
      ?_, ?_⟩
    · intro (none : sorted ((gatheredArrivals graph state arrivals).getItem occurrence) = [])
      have perm := perm_sorted ((gatheredArrivals graph state arrivals).getItem occurrence)
      rw [none] at perm
      exact gathered.nonempty perm.nil_eq.symm
    · intro whole
      apply partially
      apply sameSources_sorted.mp
      refine ⟨?_, whole⟩
      intro source inside
      obtain ⟨reference, arrived, rfl⟩ := mem_sourceIds.mp inside
      exact sources reference (mem_sorted.mp arrived)
    · intro reference arrived
      have arrived := mem_sorted.mp arrived
      obtain ⟨source, place, settled⟩ := gathered.references reference arrived
      have before := valid.settled_place settled
      have target : reference.activation.superstep + join.offset reference.activation.nodeId =
          occurrence.targetSuperstep := congrArg GraphJoinOccurrenceIdentity.targetSuperstep place
      have positive := join.offset_positive source
      refine ⟨valid.settled_canonical settled, ?_, ?_, ?_, sources reference arrived, settled⟩
      · rw [valid.settled_run settled, gathered.place]
      · show reference.activation.superstep < state.superstep + 1
        omega
      · show reference.activation.superstep < occurrence.targetSuperstep
        omega

/-- A resolved cause is valid in the next superstep. -/
theorem Accepted.advanced_cause {next : GraphRunState} (run : next.runId = state.runId)
    (superstep : next.superstep = state.superstep + 1)
    (ledger : next.settledReferences = state.settledReferences) {target : GraphNodeId}
    {cause : RoutedActivationCause} (member : (target, cause) ∈ nextCauses graph state arrivals) :
    ValidRoutedCause next target cause := by
  have named : ∀ reference ∈ state.settledReferences, CanonicalReference reference ∧
      reference.activation.runId = next.runId ∧ reference.activation.superstep < next.superstep ∧
      reference ∈ next.settledReferences := by
    intro reference settled
    have place := valid.settled_place settled
    refine ⟨valid.settled_canonical settled, (valid.settled_run settled).trans run.symm, by omega, ?_⟩
    rw [ledger]
    exact settled
  have recorded : ∀ reference ∈ cause.references, reference ∈ state.settledReferences := by
    intro reference listed
    rcases nextCauses_cases member with ⟨other, success, rfl⟩ | ⟨occurrence, key, -, -, -, rfl⟩
    · rw [List.mem_singleton.mp listed]
      exact runs.shape.evidence success
    · obtain ⟨join, distance, gathered⟩ := gatheredAt runs key
      exact (gathered.references reference (mem_sorted.mp listed)).2.2
  refine ⟨by omega, ?_, ?_, fun r m => (named r (recorded r m)).1,
    fun r m => (named r (recorded r m)).2.1, fun r m => (named r (recorded r m)).2.2.1,
    fun r m => (named r (recorded r m)).2.2.2, ?_, ?_⟩
  · rcases nextCauses_cases member with ⟨reference, -, rfl⟩ | ⟨occurrence, key, -, -, -, rfl⟩
    · exact List.cons_ne_nil _ _
    · obtain ⟨first, arrived⟩ := List.exists_mem_of_ne_nil _ (gathered_key runs key)
      exact List.ne_nil_of_mem (mem_sorted.mpr arrived)
  · rcases nextCauses_cases member with ⟨reference, -, rfl⟩ | ⟨occurrence, -, -, -, -, rfl⟩
    · exact List.pairwise_singleton _ _
    · exact gathered_strict runs resolvable occurrence
  · intro single
    rcases nextCauses_cases member with ⟨reference, -, rfl⟩ | ⟨occurrence, -, -, -, -, rfl⟩
    · rfl
    · cases single
  · intro occurrence joined
    rcases nextCauses_cases member with ⟨reference, -, rfl⟩ |
      ⟨other, key, complete, -, rfl, rfl⟩
    · cases joined
    · obtain rfl := Option.some.inj joined
      refine ⟨accepted.gathered_occurrence canonical runs valid run key, rfl, ?_,
        gathered_sources_once runs resolvable _, sameSources_iff.mp (sameSources_sorted.mpr complete)⟩
      rw [superstep]
      exact (resolvable.timely _ key).complete complete

/-- The frontier that control opens is valid. -/
theorem Accepted.advanced_frontier {next : GraphRunState} (run : next.runId = state.runId)
    (superstep : next.superstep = state.superstep + 1)
    (ledger : next.settledReferences = state.settledReferences)
    (codec : next.resumeInputCodec = state.resumeInputCodec) :
    ValidFrontier next (pendingFrontier (nextActivations (nextCauses graph state arrivals))) := by
  have names : (pendingFrontier (nextActivations (nextCauses graph state arrivals))).nodes.map
      (·.nodeId) = (nextActivations (nextCauses graph state arrivals)).map (·.nodeId) := by
    rw [pendingFrontier, List.map_map]
    rfl
  refine ⟨?_, ?_, ?_, ?_, ?_, ?_⟩
  · rw [names]
    have ordered : ((nextActivations (nextCauses graph state arrivals)).map
        (·.nodeId)).Pairwise (· ≤ ·) := by
      rw [List.pairwise_map]
      exact List.pairwise_insertionSort _ _
    have distinct : ((nextActivations (nextCauses graph state arrivals)).map (·.nodeId)).Nodup := by
      rw [(activations_nodeId _).nodup_iff]
      exact resolvable.once
    exact (ordered.and distinct).imp (fun both => lt_of_le_of_ne both.1 both.2)
  · intro node inside
    obtain ⟨activation, member, rfl⟩ := List.mem_map.mp inside
    obtain ⟨cause, -, resolved⟩ := mem_nextActivations.mp member
    obtain ⟨source, listed, holds, -⟩ := nextCauses_recorded runs resolvable resolved
    exact canonical _ (accepted.runs.mem_nodes.mp (target_known runs listed))
  · intro node inside
    obtain ⟨activation, member, rfl⟩ := List.mem_map.mp inside
    obtain ⟨cause, routed, resolved⟩ := mem_nextActivations.mp member
    show ValidCause next activation.nodeId activation.cause
    rw [routed]
    exact accepted.advanced_cause canonical runs resolvable valid run superstep ledger resolved
  · intro node inside
    obtain ⟨activation, -, rfl⟩ := List.mem_map.mp inside
    trivial
  · intro node inside needs
    obtain ⟨activation, -, rfl⟩ := List.mem_map.mp inside
    cases needs
  · rw [codec]
    exact valid.frontier.codecIdentity

/-- The state that the resolved advance builds is valid. -/
theorem Accepted.advanced_valid (resolves : Resolves state)
    (more : nextActivations (nextCauses graph state arrivals) ≠ []) :
    ValidRun (advancedState state (nextActivations (nextCauses graph state arrivals))
      ((controlOutcomes graph state arrivals).filterMap JoinOutcome.progress)) := by
  obtain ⟨-, -, unaborted, -⟩ := (ValidStatus.running_iff resolves.running).mp valid.status
  obtain ⟨activation, listed⟩ := List.exists_mem_of_ne_nil _ more
  have opened : ∃ node ∈ (pendingFrontier (nextActivations (nextCauses graph state
      arrivals))).nodes, node.settlement.isPending = true :=
    ⟨_, List.mem_map.mpr ⟨activation, listed, rfl⟩, rfl⟩
  refine { valid with
    ledger := valid.advanced_ledger _ _
    route := fun route none => nomatch none
    parent := ?_
    joins := accepted.advanced_joins canonical runs resolvable valid _
    frontier := accepted.advanced_frontier canonical runs resolvable valid rfl rfl rfl rfl
    resources := ?_
    lease := ?_
    status := ?_ }
  · intro parent held
    have kept := valid.parent parent held
    exact ⟨kept.run, kept.node, kept.apart, kept.child⟩
  · intro resources held
    have held : resources ∈ state.resources := held
    rw [resolves.free] at held
    cases held
  · intro lease held
    have held : lease ∈ state.execution := held
    rw [resolves.unleased] at held
    cases held
  · rw [ValidStatus.running_iff (by exact resolves.running)]
    obtain ⟨node, inside, pending⟩ := opened
    exact ⟨List.ne_nil_of_mem inside, frontierStatus_ne_failed ⟨node, inside, pending⟩, unaborted,
      rfl⟩

end Successor

/-- A settled running frontier holds no lease and no resources. -/
theorem ValidRun.resolves {state : GraphRunState} (valid : ValidRun state)
    (running : state.status = .running) (settled : frontierStatus state.frontier = some .settled) :
    Resolves state := by
  have unleased : state.execution = none := by
    cases held : state.execution with
    | none => rfl
    | some lease =>
        have pending := (valid.lease lease held).pending
        rw [pendingNodeIds_ne_nil, settled] at pending
        cases pending
  refine ⟨running, settled, unleased, ?_⟩
  cases held : state.resources with
  | none => rfl
  | some resources => exact absurd unleased (valid.resources resources held).leased

/-! ## Commits without writes -/

/-- A command that writes no value and is reduced and admitted is prepared, whatever the scope. -/
theorem prepareTransition_bare {graph : CompiledGraph τ} {state next : GraphRunState}
    {command : GraphRunCommand} (ν σ : Type) (scopeRun : ScopeRunCoordinate)
    (start : ∀ c, command ≠ .start c) (settle : ∀ c, command ≠ .settle c)
    (reduced : reduceGraphRun (some state) command = .ok next)
    (admitted : transitionAdmissionError graph (some state) command next = .ok none) :
    ∃ transition : GraphTransition ν σ,
      prepareTransition graph scopeRun (some state) command none none none none = .ok transition ∧
      transition.previousState = some state ∧ transition.command = command ∧
      transition.candidateState = next := by
  have bare : requireSessionConfig command next (none : Option (AgentSession σ)) = .ok () ∧
      inputEvidence graph scopeRun command (none : Option (Frame ν)) = .ok [] ∧
      settlementEvidence graph scopeRun next command (none : Option (CompletedTask ν σ)) = .ok none ∧
      (⟨scopeRun.scope, some state, command, next, ⟨⟨next.runId, next.revision⟩, [], none⟩,
        none⟩ : GraphTransition ν σ).postInit = .ok () := by
    cases command with
    | start command => exact absurd rfl (start command)
    | settle command => exact absurd rfl (settle command)
    | claim command => exact ⟨rfl, rfl, rfl, by simp [GraphTransition.postInit]⟩
    | fence command => exact ⟨rfl, rfl, rfl, by simp [GraphTransition.postInit]⟩
    | resume command => exact ⟨rfl, rfl, rfl, by simp [GraphTransition.postInit]⟩
    | advance command => exact ⟨rfl, rfl, rfl, by simp [GraphTransition.postInit]⟩
    | complete command => exact ⟨rfl, rfl, rfl, by simp [GraphTransition.postInit]⟩
    | abort command => exact ⟨rfl, rfl, rfl, by simp [GraphTransition.postInit]⟩
  obtain ⟨session, inputs, settlement, bound⟩ := bare
  refine ⟨⟨scopeRun.scope, some state, command, next, ⟨⟨next.runId, next.revision⟩, [], none⟩, none⟩,
    ?_, rfl, rfl, rfl⟩
  simp only [prepareTransition, bind_eq_ok, exists_unit, rethrow_eq_ok, pure_eq_ok, Except.ok.injEq]
  refine ⟨next, reduced, ⟨none, admitted, rfl⟩, session, ?_, [], inputs, none, settlement, bound, rfl⟩
  simp

/-- A command that writes no value is committed once it is reduced and admitted. -/
theorem commits_bare {graph : CompiledGraph τ} {state next : GraphRunState}
    {command : GraphRunCommand} (start : ∀ c, command ≠ .start c) (settle : ∀ c, command ≠ .settle c)
    (reduced : reduceGraphRun (some state) command = .ok next)
    (admitted : transitionAdmissionError graph (some state) command next = .ok none) :
    Commits graph (some state) command next := by
  obtain ⟨transition, prepared, samePrevious, sameCommand, sameCandidate⟩ :=
    prepareTransition_bare Unit Unit ⟨[], state.runId⟩ start settle reduced admitted
  have confirmed : confirmTransition transition (some next) = .ok next := by
    simp only [confirmTransition, rethrow_eq_ok, bind_eq_ok, exists_unit, validateGraphRunState_eq_ok,
      admitGraphRunConfirmation_eq_ok, samePrevious, sameCommand, true_and]
    exact ⟨reduced_valid reduced, next, reduced, .exact⟩
  exact .prepared prepared confirmed

/-- A resolution that is reduced and admitted is committed. -/
theorem commits_of_resolution {graph : CompiledGraph τ} {state next : GraphRunState}
    {command : ResolutionCommand}
    (reduced : reduceGraphRun (some state) command.toCommand = .ok next)
    (admitted : transitionAdmissionError graph (some state) command.toCommand next = .ok none) :
    Commits graph (some state) command.toCommand next := by
  refine commits_bare ?_ ?_ reduced admitted
  · intro c same
    cases command <;> cases same
  · intro c same
    cases command <;> cases same

/-! ## Progress of runs -/

/-- A settled frontier of a run has been opened. -/
theorem ControlRun.opened {graph : CompiledGraph τ} {state : GraphRunState}
    (run : ControlRun graph state) : Opened graph state := by
  cases run with
  | start starts settles => exact .start starts
  | advance before resolves follows settles => exact .advance before resolves follows

/-- The nodes of a settled frontier selected declared routes. -/
theorem ControlRun.declares {graph : CompiledGraph τ} {state : GraphRunState}
    (run : ControlRun graph state) : DeclaresRoutes graph state := by
  have settles : SettlesAll graph state := by
    cases run with
    | start starts settles => exact settles
    | advance before resolves follows settles => exact settles
  intro node inside routing settled
  obtain ⟨other, success, declared⟩ := settles node inside
  rw [settled] at success
  obtain rfl := GraphNodeSettlement.succeeded.inj success
  exact declared

theorem frontierAdmissionError_completed {graph : CompiledGraph τ} {state : GraphRunState}
    (completed : state.status = .completed) :
    frontierAdmissionError graph state = .ok (settledActivationAdmissionError graph state) := by
  rw [frontierAdmissionError, routingEvaluation, if_pos (.inr completed)]
  rfl

section Progress

variable {graph : CompiledGraph τ} {nodeIds entries : List GraphNodeId} {edges : List Edge}
  {routeOptions : Dict GraphNodeId (List Route)} {dataDependencies : DataDependencies}
  {requirements : Dict GraphNodeId RouteRequirementProof}
  {guarantees : Dict GraphNodeId (List GraphNodeId)} {plan : ControlPlan}
  (accepted : Accepted graph nodeIds entries edges routeOptions dataDependencies requirements
    guarantees plan)
  {state : GraphRunState}
include accepted

/-- A source that is active now arrives at every occurrence of its Join that is pending. -/
theorem Accepted.pending_meets (run : ControlRun graph state) (valid : ValidRun state)
    {declared : JoinDeclarations} {arrivals : JoinArrivals}
    (runs : RunsOn graph (edgeRelation nodeIds entries edges routeOptions plan.joins) declared state
      arrivals) {progress : GraphJoinProgress} (inside : progress ∈ state.joinProgress)
    {reference : ActivationReference} (success : reference ∈ frontierPublications state)
    (source : reference.activation.nodeId ∈ progress.occurrence.join.sources) :
    reference ∈ (gatheredArrivals graph state arrivals).getItem progress.occurrence := by
  obtain ⟨active, choice, recorded⟩ := run.recorded accepted.runs.wellFormed accepted.runs.carries
  have record := runs.shape.records progress inside
  obtain ⟨join, found, projected⟩ := record.plan
  obtain ⟨identity, listed⟩ := (runs.carries.declared runs.declares).mp found
  rw [← identity] at source
  -- the first arrival fixes the target of the occurrence
  obtain ⟨first, arrived⟩ := List.exists_mem_of_ne_nil _ record.nonempty
  obtain ⟨firstSource, place⟩ := projected first arrived
  obtain ⟨superstep, firstNode, there, rfl⟩ :=
    (recorded.ledger first).mp (record.settled first arrived)
  have target : superstep + join.offset firstNode = progress.occurrence.targetSuperstep :=
    congrArg GraphJoinOccurrenceIdentity.targetSuperstep place
  have before : superstep < state.superstep :=
    ((valid.joins.records progress inside).arrivals _ arrived).past
  have future := record.future
  obtain ⟨nodeId, here, rfl⟩ := runs.shape.publication.mp success
  have now : active state.superstep nodeId := (recorded.current nodeId).mpr here
  have meets : state.superstep + join.offset nodeId = progress.occurrence.targetSuperstep := by
    obtain ⟨repeatable, -, cases⟩ := accepted.join_cases
    rcases cases join (accepted.runs.mem_joins.mp listed) with repeated | ⟨level, single⟩
    · rw [repeated.offsets firstNode firstSource] at target
      omega
    · obtain ⟨firstLevel, firstLeveled, firstPlace⟩ := single.leveled firstNode firstSource
      obtain ⟨nowLevel, nowLeveled, nowPlace⟩ := single.leveled nodeId source
      obtain rfl := accepted.active_absolute recorded.trail firstLeveled there
      have same := accepted.active_absolute recorded.trail nowLeveled now
      omega
  rw [getItem_eq_getD, mem_gatheredArrivals runs.pending, mem_joinArrivals]
  refine .inr ⟨success, join, (runs.carries.mem_joinsBySource runs.wellFormed).mpr
    ⟨listed, source⟩, ?_⟩
  rw [← place]
  show join.occurrenceAt ⟨state.runId, superstep, firstNode⟩ = join.occurrenceAt
    ⟨state.runId, state.superstep, nodeId⟩
  rw [CompiledJoin.occurrenceAt, CompiledJoin.occurrenceAt, target, meets]

variable (values : PlansValues graph nodeIds entries edges dataDependencies plan)
  (canonical : ∀ node ∈ nodeIds, isCanonicalIdentity node = true)
  (run : ControlRun graph state) (valid : ValidRun state) (resolves : Resolves state)
  {declared : JoinDeclarations} {arrivals : JoinArrivals}
  (runs : RunsOn graph (edgeRelation nodeIds entries edges routeOptions plan.joins) declared state
    arrivals) (resolvable : Resolvable graph state arrivals)
include run valid resolves runs resolvable

omit resolves resolvable

/-- The evaluation of a settled frontier of a run is admitted and reads its pending arrivals. -/
theorem Accepted.evaluates
    (values : PlansValues graph nodeIds entries edges dataDependencies plan)
    (live : state.status ≠ .completed) : ∃ evaluation,
    routingEvaluation graph state = .ok evaluation ∧ evaluation.admissionError = none ∧
      evaluation.pendingError = none ∧ evaluation.pendingJoinArrivals = arrivals := by
  obtain ⟨declared', arrivals', admits⟩ := accepted.frontier_admitted values run.opened run.declares
    (nodup_of_strict valid.ledger.canonical) (valid.nonempty live)
  obtain rfl : declared = declared' := Except.ok.inj (runs.declares.symm.trans admits.declares)
  obtain rfl : arrivals = arrivals' := Except.ok.inj (runs.pending.symm.trans admits.pending)
  exact (routingEvaluation_admitted live arrivals).mpr ⟨declared, admits⟩

include resolves resolvable

/-- The resolved advance is reduced and admitted. -/
theorem Accepted.advance_accepted
    (values : PlansValues graph nodeIds entries edges dataDependencies plan)
    (canonical : ∀ node ∈ nodeIds, isCanonicalIdentity node = true)
    (more : nextActivations (nextCauses graph state arrivals) ≠ []) :
    ∃ next, reduceGraphRun (some state) (.advance (resolvedAdvance graph state arrivals)) =
        .ok next ∧
      transitionAdmissionError graph (some state)
        (.advance (resolvedAdvance graph state arrivals)) next = .ok none ∧
      next.status = .running ∧ next.superstep = state.superstep + 1 := by
  have live : state.status ≠ .completed := by
    rw [resolves.running]
    exact fun wrong => nomatch wrong
  have nextValid := accepted.advanced_valid canonical runs resolvable valid resolves more
  -- every activation passes its guards, and so does the Join progress
  have ordered : ((nextActivations (nextCauses graph state arrivals)).map
      (·.nodeId)).Pairwise (· < ·) := by
    have frontier := nextValid.frontier.ordered
    rw [advancedState, pendingFrontier, List.map_map] at frontier
    exact frontier
  have causes : List.Forall₂ (fun (activation : GraphFrontierActivation) consumed =>
      ∃ cause, activation.cause = .routed cause ∧ NextCause state activation.nodeId cause consumed)
      (nextActivations (nextCauses graph state arrivals))
      ((nextActivations (nextCauses graph state arrivals)).map (consumedBy state)) := by
    rw [List.forall₂_map_right_iff, List.forall₂_same]
    intro activation member
    obtain ⟨cause, routed, resolved⟩ := mem_nextActivations.mp member
    have passes := next_cause runs resolvable valid live resolved
    rw [show (⟨activation.nodeId, .routed cause⟩ : GraphFrontierActivation) = activation by
      rw [← routed]] at passes
    exact ⟨cause, routed, passes⟩
  have delta := join_delta runs resolvable valid (fun _ inside _ success source =>
    accepted.pending_meets run valid runs inside success source)
  have advances : Advances state (resolvedAdvance graph state arrivals)
      ((nextActivations (nextCauses graph state arrivals)).map (consumedBy state)) :=
    ⟨resolves, more, ordered, causes, delta⟩
  refine ⟨_, (reduceGraphRun_some_eq_ok _ _ _).mpr ⟨_, ⟨valid, rfl,
    (advanceGraphFrontier_eq_ok valid.frontier.distinct _ _).mpr ⟨⟨_, advances⟩, rfl⟩,
    nextValid⟩, rfl⟩, transitionAdmissionError_eq_none.mpr ⟨?_, fun wrong => absurd wrong live⟩,
    resolves.running, rfl⟩
  obtain ⟨control, controls, opens, remains⟩ : ∃ control, ResolvesTo graph state control ∧
      control.activations = nextActivations (nextCauses graph state arrivals) ∧
      control.remainingJoinProgress =
        (controlOutcomes graph state arrivals).filterMap JoinOutcome.progress :=
    ⟨_, (resolvesTo_iff runs.declares runs.pending _).mpr ⟨resolvable, rfl⟩, rfl, rfl⟩
  have follows : Follows state control
      (advancedState state (nextActivations (nextCauses graph state arrivals))
        ((controlOutcomes graph state arrivals).filterMap JoinOutcome.progress)) := by
    refine ⟨rfl, rfl, ?_, remains.symm, ?_⟩
    · rw [opens, advancedState, pendingFrontier, List.map_map]
      exact List.map_id _
    · intro reference
      rw [advancedState_publications]
      simp only [List.not_mem_nil, or_false]
      exact Iff.rfl
  have opened := Opened.advance run controls follows
  refine accepted.opened_admitted values opened nextValid live ?_
  intro node inside routing settled
  obtain ⟨activation, -, rfl⟩ := List.mem_map.mp inside
  cases settled

/-- The resolved completion is reduced and admitted. -/
theorem Accepted.completion_accepted
    (values : PlansValues graph nodeIds entries edges dataDependencies plan)
    (ends : nextActivations (nextCauses graph state arrivals) = [])
    {route : Option GraphRouteId} (exposed : completionRoute graph state = .ok route) :
    ∃ next, reduceGraphRun (some state)
        (.complete (resolvedCompletion graph state arrivals route)) = .ok next ∧
      transitionAdmissionError graph (some state)
        (.complete (resolvedCompletion graph state arrivals route)) next = .ok none ∧
      next.status = .completed := by
  have live : state.status ≠ .completed := by
    rw [resolves.running]
    exact fun wrong => nomatch wrong
  obtain ⟨nonempty, same⟩ := (completionRoute_eq_ok runs route).mp exposed
  have selected : ∀ reference ∈ frontierPublications state, reference.route = route := by
    intro reference success
    obtain ⟨nodeId, here, rfl⟩ := runs.shape.publication.mp success
    exact same nodeId here
  have published : frontierPublications state ≠ [] := by
    obtain ⟨node, inside⟩ := List.exists_mem_of_ne_nil _ nonempty
    exact List.ne_nil_of_mem (runs.shape.publication.mpr
      ⟨node.nodeId, List.mem_map.mpr ⟨node, inside, rfl⟩, rfl⟩)
  have nextValid := valid.completed resolves published selected
  -- nothing pending is left, so every record is consumed
  have closed : (controlOutcomes graph state arrivals).filterMap JoinOutcome.progress = [] := by
    obtain ⟨declared', arrivals', runs', -, closes⟩ := accepted.resolves run
    obtain rfl : declared' = declared := Except.ok.inj (runs'.declares.symm.trans runs.declares)
    obtain rfl : arrivals' = arrivals := Except.ok.inj (runs'.pending.symm.trans runs.pending)
    exact (closes ends).1
  have consumption := join_consumption runs resolvable valid (fun _ inside _ success source =>
    accepted.pending_meets run valid runs inside success source)
  have all : (sorted ((controlOutcomes graph state arrivals).filterMap
      JoinOutcome.consumed)).length = state.joinProgress.length := by
    have perm : (sorted ((controlOutcomes graph state arrivals).filterMap
        JoinOutcome.consumed)).Perm (state.joinProgress.map (·.occurrence)) := by
      refine (List.perm_ext_iff_of_nodup (nodup_of_strict consumption.ordered)
        valid.joins.distinct).mpr ?_
      intro occurrence
      rw [mem_sorted, mem_consumed]
      refine ⟨fun consumed => consumed.2.2.2, ?_⟩
      intro recorded
      obtain ⟨progress, inside, rfl⟩ := List.mem_map.mp recorded
      have key := pending_key runs inside
      have complete : SameSources ((gatheredArrivals graph state arrivals).getItem
          progress.occurrence) progress.occurrence.join.sources := by
        by_contra partially
        have left := mem_remainingProgress.mpr ⟨_, key, partially, rfl⟩
        rw [closed] at left
        cases left
      refine ⟨key, complete, ?_, recorded⟩
      by_contra inner
      have caused := mem_nextCauses_of_complete key complete inner
      have activated : (⟨progress.occurrence.join.target, .routed ⟨sorted ((gatheredArrivals graph
          state arrivals).getItem progress.occurrence), some progress.occurrence⟩⟩ :
            GraphFrontierActivation) ∈ nextActivations (nextCauses graph state arrivals) :=
        mem_nextActivations.mpr ⟨_, rfl, caused⟩
      rw [ends] at activated
      cases activated
    rw [perm.length_eq, List.length_map]
  refine ⟨_, (reduceGraphRun_some_eq_ok _ _ _).mpr ⟨_, ⟨valid, rfl,
    (completeGraphFrontier_eq_ok _ _ _).mpr ⟨⟨resolves, consumption, all⟩, rfl⟩, nextValid⟩, rfl⟩,
    transitionAdmissionError_eq_none.mpr ⟨?_, fun _ => ?_⟩, rfl⟩
  · have ledger := accepted.opened_declared run.opened run.declares
    have clear : settledActivationAdmissionError graph (completedState state route) = none :=
      accepted.ledger_clear ledger
    exact (frontierAdmissionError_completed rfl).trans (congrArg Except.ok clear)
  · obtain ⟨evaluation, evaluated, clear, clean, rfl⟩ :=
      accepted.evaluates run valid runs values live
    refine ⟨state, _, evaluation, _, rfl, rfl, evaluated, clear,
      (resolveControl_eq_ok graph state evaluation _).mpr ⟨clean, resolvable, rfl⟩, ?_⟩
    exact completionAdmissionError_eq_none.mpr ⟨ends, closed, rfl, exposed⟩

omit resolves

/-- Routing plans the resolved advance, or the resolved completion when nothing is activated. -/
theorem Accepted.routes_to
    (values : PlansValues graph nodeIds entries edges dataDependencies plan)
    (live : state.status ≠ .completed) (settled : frontierStatus state.frontier = some .settled)
    {scopeRun : ScopeRunCoordinate} {frames : ScopedFrameAvailability}
    (held : HoldsValues graph state scopeRun frames (state.superstep + 1)) :
    (nextActivations (nextCauses graph state arrivals) ≠ [] →
      resolveRouting graph state scopeRun frames =
        .ok (.advance (resolvedAdvance graph state arrivals))) ∧
    (nextActivations (nextCauses graph state arrivals) = [] → ∃ route ∈ graph.completionRoutes,
      completionRoute graph state = .ok route ∧ resolveRouting graph state scopeRun frames =
        .ok (.complete (resolvedCompletion graph state arrivals route))) := by
  obtain ⟨evaluation, evaluated, clear, clean, rfl⟩ := accepted.evaluates run valid runs values live
  have control := (resolveControl_eq_ok graph state evaluation _).mpr ⟨clean, resolvable, rfl⟩
  have resolved := (resolvesTo_iff runs.declares runs.pending _).mpr ⟨resolvable, rfl⟩
  have nonempty := (frontierStatus_settled settled).1
  have required : (nextActivations (nextCauses graph state evaluation.pendingJoinArrivals)).mapM
      (fun activation => requiredTarget graph activation state scopeRun (state.superstep + 1)
        frames) = .ok ((nextActivations (nextCauses graph state
          evaluation.pendingJoinArrivals)).map (fun activation => ⟨activation.nodeId, []⟩)) := by
    rw [mapM_eq_ok, List.forall₂_map_right_iff, List.forall₂_same]
    exact fun activation opens => accepted.required_target values run resolved held opens
  obtain ⟨unavailable, outputs, complete⟩ :=
    accepted.graph_outputs values run resolved held nonempty
  constructor
  · intro more
    simp [resolveRouting, resolveRoutingFacts, settled, evaluated, clear, control, required, outputs,
      resolvedCompletionRoute, more, projectRoutingFacts, resolvedAdvance]
  · intro ends
    obtain ⟨declared', arrivals', runs', -, closes⟩ := accepted.resolves run
    obtain rfl : declared' = declared := Except.ok.inj (runs'.declares.symm.trans runs.declares)
    obtain rfl : arrivals' = _ := Except.ok.inj (runs'.pending.symm.trans runs.pending)
    obtain ⟨closed, agree⟩ := closes ends
    obtain ⟨route, declares, exposed⟩ := accepted.completes run runs agree nonempty
    refine ⟨route, declares, exposed, ?_⟩
    simp [resolveRouting, resolveRoutingFacts, settled, evaluated, clear, control, outputs,
      resolvedCompletionRoute, ends, closed, complete ends, exposed, projectRoutingFacts,
      resolvedCompletion]

end Progress

/-! ## Admission of the other commands -/

/-- The routes that a settlement selects are declared. -/
def SettlesDeclared (graph : CompiledGraph τ) (command : GraphRunCommand) : Prop :=
  ∀ settle nodeId routing, command = .settle settle → settle.outcome = .succeeded nodeId routing →
    routing.route ∈ graph.routeOptions nodeId

/-- A command that keeps the frontier open declares its routes when its settlement does. -/
theorem transition_declares {graph : CompiledGraph τ} {state updated : GraphRunState}
    {command : GraphRunCommand} (moved : transition state command = .ok updated)
    (wellFormed : WellFormedCommand command) (settles : SettlesDeclared graph command)
    (declares : DeclaresRoutes graph state) : DeclaresRoutes graph updated := by
  cases command with
  | start command => cases wellFormed
  | claim command =>
      obtain ⟨-, rfl⟩ := (claimGraphExecution_eq_ok _ _ _).mp moved
      exact declares
  | fence command =>
      obtain ⟨-, -, rfl⟩ := (fenceGraphExecution_eq_ok _ _ _).mp moved
      exact declares
  | settle command =>
      obtain ⟨settlement, ledger, cursor, resources, passes, rfl⟩ :=
        (settleGraphNode_eq_ok _ _ _).mp moved
      intro updated inside routing success
      obtain ⟨node, member, rfl⟩ := mem_settleFrontier.mp inside
      by_cases named : node.nodeId = command.outcome.nodeId
      · simp only [named, if_true] at success ⊢
        have outcome := passes.outcome
        subst success
        cases outcome with
        | succeeded nodeId routing outcome =>
            rw [outcome]
            exact settles command nodeId routing rfl outcome
      · simp only [named, if_false] at success
        exact declares node member routing success
  | resume command =>
      obtain ⟨nodes, resumes, rfl⟩ := (resumeGraphNodes_eq_ok _ _ _).mp moved
      intro updated inside routing success
      obtain ⟨node, member, resumed⟩ := forall₂_mem_right resumes.nodes inside
      rcases resumeNode_eq_ok resumed with ⟨rfl, -⟩ | ⟨_, _, -, rfl⟩
      · exact declares updated member routing success
      · cases success
  | advance command => cases wellFormed
  | complete command => cases wellFormed
  | abort command =>
      obtain ⟨-, -, rfl⟩ := (abortGraphRun_eq_ok _ _ _).mp moved
      exact declares

section Guarded

variable {graph : CompiledGraph τ} {nodeIds entries : List GraphNodeId} {edges : List Edge}
  {routeOptions : Dict GraphNodeId (List Route)} {dataDependencies : DataDependencies}
  {requirements : Dict GraphNodeId RouteRequirementProof}
  {guarantees : Dict GraphNodeId (List GraphNodeId)} {plan : ControlPlan}
  (accepted : Accepted graph nodeIds entries edges routeOptions dataDependencies requirements
    guarantees plan)
  (values : PlansValues graph nodeIds entries edges dataDependencies plan)
include accepted values

/-- A claim, fence, settlement, resume or abort that passes its own guards is reduced and admitted. -/
theorem Accepted.transition_admitted {state updated : GraphRunState} {command : GraphRunCommand}
    (invariant : RunInvariant graph state) (live : state.status ≠ .completed)
    (wellFormed : WellFormedCommand command) (settles : SettlesDeclared graph command)
    (expected : command.expectedRevision = some state.revision)
    (moved : transition state command = .ok updated) :
    reduceGraphRun (some state) command = .ok { updated with revision := state.revision + 1 } ∧
      transitionAdmissionError graph (some state) command
        { updated with revision := state.revision + 1 } = .ok none := by
  have valid := transition_preserves invariant.valid wellFormed expected moved
  have reduced : reduceGraphRun (some state) command =
      .ok { updated with revision := state.revision + 1 } :=
    (reduceGraphRun_some_eq_ok _ _ _).mpr ⟨updated, ⟨invariant.valid, expected, moved, valid⟩, rfl⟩
  have stays : Stays state { updated with revision := state.revision + 1 } := by
    refine transition_stays moved ?_ ?_
    · intro c same
      rw [same] at wellFormed
      cases wellFormed
    · intro c same
      rw [same] at wellFormed
      cases wellFormed
  have nextLive : ({ updated with revision := state.revision + 1 } : GraphRunState).status ≠
      .completed := fun wrong => live (stays.status wrong)
  have declares := transition_declares moved wellFormed settles invariant.declares
  refine ⟨reduced, transitionAdmissionError_eq_none.mpr ⟨?_, fun wrong => absurd wrong nextLive⟩⟩
  exact accepted.opened_admitted values ((invariant.opened live).stays stays valid nextLive) valid
    nextLive declares

end Guarded

/-! ## Accepted definitions -/

/-- The nodes of a valid definition have canonical identities. -/
theorem validateDefinition_canonical {definition : GraphDefinition τ}
    (valid : validateDefinition definition = .ok ()) :
    ∀ nodeId ∈ definition.nodes.map GraphNode.nodeId, isCanonicalIdentity nodeId = true := by
  simp only [validateDefinition, bind_unit_eq_ok, checkAll_eq_ok, raiseIf_eq_ok, not_not,
    validateNodeIdentity, requireGraphIdentity, not_or, Bool.not_eq_false] at valid
  obtain ⟨-, -, identities, -⟩ := valid
  exact fun nodeId member => (identities nodeId member).1

/-- A settled frontier with its values at hand resolves to a command that is committed. -/
theorem Compiles.routing_commits [DecidableEq τ] {definition : GraphDefinition τ}
    {nestedGraphs : Dict GraphNodeId (CompiledGraph τ)} {graph : CompiledGraph τ}
    (compiles : Compiles definition nestedGraphs graph) {state : GraphRunState}
    (run : EngineRun graph state) (running : state.status = .running)
    {scopeRun : ScopeRunCoordinate} {frames : ScopedFrameAvailability}
    (settled : frontierStatus state.frontier = some .settled)
    (held : HoldsValues graph state scopeRun frames (state.superstep + 1)) :
    ∃ command next, resolveRouting graph state scopeRun frames = .ok command ∧
      Commits graph (some state) command.toCommand next ∧ EngineRun graph next ∧
      ((∃ advance, command = .advance advance ∧ next.status = .running ∧
          next.superstep = state.superstep + 1) ∨
        ∃ complete, command = .complete complete ∧ next.status = .completed) := by
  obtain ⟨entries, routes, dataDependencies, plan, planned, values⟩ := compiles.planned_values
  obtain ⟨requirements, guarantees, accepted⟩ := compiles.accepted_plan planned
  have canonical : ∀ node ∈ nodeIdsOf definition, isCanonicalIdentity node = true :=
    fun node member => validateDefinition_canonical compiles.valid node (mem_nodeIdsOf.mp member)
  have invariant := accepted.invariant run
  have live : state.status ≠ .completed := by
    rw [running]
    exact fun wrong => nomatch wrong
  have control := (invariant.opened live).settles settled invariant.declares
  have resolves := invariant.valid.resolves running settled
  obtain ⟨declared, arrivals, runs, resolvable, -⟩ := accepted.resolves control
  obtain ⟨advances, completes⟩ :=
    accepted.routes_to control invariant.valid runs resolvable values live settled held
  by_cases more : nextActivations (nextCauses graph state arrivals) ≠ []
  · obtain ⟨next, reduced, admitted, goes, later⟩ := accepted.advance_accepted control
      invariant.valid resolves runs resolvable values canonical more
    have commits : Commits graph (some state)
        (ResolutionCommand.advance (resolvedAdvance graph state arrivals)).toCommand next :=
      commits_of_resolution reduced admitted
    exact ⟨_, next, advances more, commits, run.commit commits, .inl ⟨_, rfl, goes, later⟩⟩
  · rw [not_not] at more
    obtain ⟨route, -, exposed, planned⟩ := completes more
    obtain ⟨next, reduced, admitted, done⟩ := accepted.completion_accepted control
      invariant.valid resolves runs resolvable values more exposed
    have commits : Commits graph (some state)
        (ResolutionCommand.complete (resolvedCompletion graph state arrivals route)).toCommand
        next := commits_of_resolution reduced admitted
    exact ⟨_, next, planned, commits, run.commit commits, .inr ⟨_, rfl, done⟩⟩

/-- No run of an accepted definition is stuck, and none is refused by its admission. When the frontier
has settled and the frames hold what the ledger published, `resolve_routing` plans an advance or a
completion, never an abort, and the command is committed. A claim, fence, settlement, resume or abort
that passes its own guards, and selects a declared route where it settles a success, is reduced and
admitted. -/
theorem engine_progress [DecidableEq τ] {definition : GraphDefinition τ}
    {nestedGraphs : Dict GraphNodeId (CompiledGraph τ)} {graph : CompiledGraph τ}
    (compiles : Compiles definition nestedGraphs graph) {state : GraphRunState}
    (run : EngineRun graph state) (running : state.status = .running) :
    (∀ scopeRun frames, frontierStatus state.frontier = some .settled →
      HoldsValues graph state scopeRun frames (state.superstep + 1) →
      ∃ command next, resolveRouting graph state scopeRun frames = .ok command ∧
        Commits graph (some state) command.toCommand next ∧ EngineRun graph next ∧
        ((∃ advance, command = .advance advance ∧ next.status = .running ∧
            next.superstep = state.superstep + 1) ∨
          ∃ complete, command = .complete complete ∧ next.status = .completed)) ∧
    ∀ command updated, WellFormedCommand command → SettlesDeclared graph command →
      command.expectedRevision = some state.revision → transition state command = .ok updated →
      reduceGraphRun (some state) command = .ok { updated with revision := state.revision + 1 } ∧
      transitionAdmissionError graph (some state) command
        { updated with revision := state.revision + 1 } = .ok none := by
  obtain ⟨entries, routes, dataDependencies, plan, planned, values⟩ := compiles.planned_values
  obtain ⟨requirements, guarantees, accepted⟩ := compiles.accepted_plan planned
  have live : state.status ≠ .completed := by
    rw [running]
    exact fun wrong => nomatch wrong
  constructor
  · intro scopeRun frames settled held
    exact compiles.routing_commits run running settled held
  · exact fun command updated => accepted.transition_admitted values (accepted.invariant run) live

/-- The first frontier, aborted. -/
def valueAborted : GraphRunState :=
  { valueFirst with
    status := .aborted
    abort := some ⟨"stop"⟩ }

/-- The run in which the producer has settled goes on, and could be aborted instead. -/
theorem valueFirst_progresses :
    (∃ command next, resolveRouting (compiledGraph valueDefinition) valueFirst ⟨[], "run"⟩
        valueFrames.toScopedFrameAvailability = .ok command ∧
      EngineRun (compiledGraph valueDefinition) next) ∧
    transitionAdmissionError (compiledGraph valueDefinition) (some valueFirst) (.abort ⟨2, "stop"⟩)
      { valueAborted with revision := valueFirst.revision + 1 } = .ok none := by
  have progress := engine_progress valueDefinition_compiles valueFirst_reached rfl
  constructor
  · obtain ⟨command, next, planned, -, reached, -⟩ := progress.1 ⟨[], "run"⟩
      valueFrames.toScopedFrameAvailability (by decide) (valueFrames_hold rfl (List.Subset.refl _) _)
    exact ⟨command, next, planned, reached⟩
  · have wellFormed : WellFormedCommand (.abort ⟨2, "stop"⟩) :=
      show isCanonicalIdentity "stop" = true by decide
    have settles : SettlesDeclared (compiledGraph valueDefinition) (.abort ⟨2, "stop"⟩) :=
      fun settle nodeId routing wrong => nomatch wrong
    have moved : transition valueFirst (.abort ⟨2, "stop"⟩) = .ok valueAborted := by decide
    exact (progress.2 _ _ wellFormed settles rfl moved).2

end MoteKernel
