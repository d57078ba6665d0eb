import MoteKernel.Execution.DataFlow

/-!
# The history rebuilt from the ledger

`_historical_join_arrivals` and `_post_advance_error` as the facts they accept,
and that they accept the frontier which control opened: the ledger explains each
of its activations and each pending arrival.
-/

namespace MoteKernel
open Checked Canonical Digraph

variable {τ : Type} {graph : CompiledGraph τ} {state : GraphRunState}

/-! ## Rebuilt arrivals -/

/-- The references settled before the current superstep. -/
def pastReferences (state : GraphRunState) : List ActivationReference :=
  state.settledReferences.filter (fun reference => reference.activation.superstep < state.superstep)

theorem mem_pastReferences {reference : ActivationReference} :
    reference ∈ pastReferences state ↔
      reference ∈ state.settledReferences ∧ reference.activation.superstep < state.superstep := by
  rw [pastReferences, List.mem_filter, decide_eq_true_eq]

theorem historicalArrival_eq_ok (reference : ActivationReference) (arrivals updated : JoinArrivals)
    (join : CompiledJoin) :
    historicalArrival reference arrivals join = .ok updated ↔
      reference.activation.nodeId ∈ join.identity.sources ∧
      (∀ item ∈ (arrivals.get? (join.occurrenceAt reference.activation)).getD [],
        ¬ SameSource item reference) ∧
      updated = arrivals.push (join.occurrenceAt reference.activation) reference := by
  simp only [historicalArrival, bind_eq_ok, CompiledJoin.occurrenceFor_eq_ok]
  constructor
  · intro rebuilt
    obtain ⟨occurrence, ⟨source, rfl⟩, step⟩ := rebuilt
    cases found : ((arrivals.get? (join.occurrenceAt reference.activation)).getD []).find?
        (fun other => other.activation.nodeId = reference.activation.nodeId) with
    | some existing =>
        rw [found] at step
        by_cases different : existing ≠ reference
        · simp only [if_pos different] at step
          cases step
        · simp only [if_neg different] at step
          cases step
    | none =>
        rw [found] at step
        refine ⟨source, ?_, (Except.ok.inj step).symm⟩
        intro item inside same
        exact List.find?_eq_none.mp found item inside
          (decide_eq_true (show item.activation.nodeId = reference.activation.nodeId from same))
  · intro rebuilt
    obtain ⟨source, apart, rfl⟩ := rebuilt
    refine ⟨_, ⟨source, rfl⟩, ?_⟩
    have absent : ((arrivals.get? (join.occurrenceAt reference.activation)).getD []).find?
        (fun other => other.activation.nodeId = reference.activation.nodeId) = none := by
      rw [List.find?_eq_none]
      intro item inside same
      exact apart item inside
        (show item.activation.nodeId = reference.activation.nodeId from of_decide_eq_true same)
    rw [absent]
    rfl

/-- The loop of `_historical_join_arrivals` over some settlements. -/
theorem historicalSettlements_eq_ok (settlements : List GraphPublicationSettlement)
    (arrivals result : JoinArrivals) :
    settlements.foldlM (historicalSettlement graph state) arrivals = .ok result ↔
      (∀ reference ∈ (settlements.map (·.reference)).filter (fun reference =>
          reference.activation.superstep < state.superstep),
        reference.activation.nodeId ∈ graph.nodes.keys ∧
          Indexed graph reference.activation.nodeId) ∧
      Dict.Fresh SameSource arrivals (joinArrivals graph ((settlements.map (·.reference)).filter
        (fun reference => reference.activation.superstep < state.superstep))) ∧
      result = arrivals.pushAll (joinArrivals graph ((settlements.map (·.reference)).filter
        (fun reference => reference.activation.superstep < state.superstep))) := by
  induction settlements generalizing arrivals with
  | nil => simp [joinArrivals, Dict.Fresh, Dict.pushAll, eq_comm]
  | cons settlement settlements ih =>
      have pairs : ∀ (d e : JoinArrivals) (joins : List CompiledJoin),
          joins.foldlM (historicalArrival settlement.reference) d = .ok e ↔
            (∀ join ∈ joins, settlement.reference.activation.nodeId ∈ join.identity.sources) ∧
            Dict.Fresh SameSource d (joins.map (fun join =>
              (join.occurrenceAt settlement.reference.activation, settlement.reference))) ∧
            e = d.pushAll (joins.map (fun join =>
              (join.occurrenceAt settlement.reference.activation, settlement.reference))) :=
        fun d e joins => Dict.foldlM_push_eq_ok
          (fun d join e => historicalArrival_eq_ok settlement.reference d e join) d e joins
      rw [List.foldlM_cons, List.map_cons, List.filter_cons]
      by_cases current : settlement.reference.activation.superstep ≥ state.superstep
      · have later : ¬ settlement.reference.activation.superstep < state.superstep := by omega
        simp only [historicalSettlement, if_pos current, later, decide_false, Bool.false_eq_true,
          if_false, pure_eq_ok, ok_bind, ih]
      · have past : settlement.reference.activation.superstep < state.superstep := by omega
        simp only [historicalSettlement, if_neg current, past, decide_true, if_true, bind_eq_ok,
          exists_unit, raiseIf_eq_ok, not_not, pairs, ih, List.forall_mem_cons]
        simp only [joinArrivals, List.flatMap_cons, Dict.fresh_append, Dict.pushAll_append]
        constructor
        · intro rebuilt
          obtain ⟨_, ⟨known, indexed, fresh, rfl⟩, all, freshRest, rfl⟩ := rebuilt
          exact ⟨⟨⟨known, indexed⟩, all⟩, ⟨fresh, freshRest⟩, rfl⟩
        · intro rebuilt
          obtain ⟨⟨⟨known, indexed⟩, all⟩, ⟨fresh, freshRest⟩, rfl⟩ := rebuilt
          exact ⟨_, ⟨known, indexed, fresh, rfl⟩, all, freshRest, rfl⟩

/-- The arrivals of all earlier successes, by occurrence. -/
def rebuiltArrivals (graph : CompiledGraph τ) (state : GraphRunState) : JoinArrivals :=
  Dict.empty.pushAll (joinArrivals graph (pastReferences state))

theorem historicalJoinArrivals_eq_ok (historical : JoinArrivals) :
    historicalJoinArrivals graph state = .ok historical ↔
      (∀ reference ∈ pastReferences state, reference.activation.nodeId ∈ graph.nodes.keys ∧
        Indexed graph reference.activation.nodeId) ∧
      Dict.Fresh SameSource Dict.empty (joinArrivals graph (pastReferences state)) ∧
      historical = Dict.build (rebuiltArrivals graph state).keys
        (fun occurrence => sorted ((rebuiltArrivals graph state).getItem occurrence)) := by
  simp only [historicalJoinArrivals, bind_eq_ok, historicalSettlements_eq_ok, pure_eq_ok,
    Except.ok.injEq]
  constructor
  · intro rebuilt
    obtain ⟨_, ⟨known, fresh, rfl⟩, rfl⟩ := rebuilt
    exact ⟨known, fresh, rfl⟩
  · intro rebuilt
    obtain ⟨known, fresh, rfl⟩ := rebuilt
    exact ⟨_, ⟨known, fresh, rfl⟩, rfl⟩

/-- A rebuilt occurrence has the earlier successes of its sources. -/
theorem mem_rebuiltArrivals {occurrence : GraphJoinOccurrenceIdentity}
    {reference : ActivationReference} :
    reference ∈ (rebuiltArrivals graph state).getItem occurrence ↔
      reference ∈ pastReferences state ∧
      ∃ join ∈ graph.joinsBySource reference.activation.nodeId,
        occurrence = join.occurrenceAt reference.activation := by
  have grouped : (rebuiltArrivals graph state).getItem occurrence =
      Dict.valuesAt (joinArrivals graph (pastReferences state)) occurrence :=
    Dict.getD_pushAll Dict.empty _ occurrence
  rw [grouped, Dict.mem_valuesAt, mem_joinArrivals]

theorem mem_rebuiltArrivals_keys {occurrence : GraphJoinOccurrenceIdentity} :
    occurrence ∈ (rebuiltArrivals graph state).keys ↔
      ∃ reference, reference ∈ (rebuiltArrivals graph state).getItem occurrence := by
  have grouped : (rebuiltArrivals graph state).getItem occurrence =
      Dict.valuesAt (joinArrivals graph (pastReferences state)) occurrence :=
    Dict.getD_pushAll Dict.empty _ occurrence
  have none : occurrence ∉ (Dict.empty : JoinArrivals).keys := List.not_mem_nil
  rw [grouped, rebuiltArrivals, Dict.mem_keys_pushAll, or_iff_right none, List.mem_map]
  simp only [Dict.mem_valuesAt]
  constructor
  · intro listed
    obtain ⟨⟨_, reference⟩, member, rfl⟩ := listed
    exact ⟨reference, member⟩
  · intro listed
    obtain ⟨reference, member⟩ := listed
    exact ⟨_, member, rfl⟩

theorem mem_rebuilt_items
    {item : GraphJoinOccurrenceIdentity × List ActivationReference} :
    item ∈ (Dict.build (rebuiltArrivals graph state).keys
        (fun occurrence => sorted ((rebuiltArrivals graph state).getItem occurrence))).items ↔
      item.1 ∈ (rebuiltArrivals graph state).keys ∧
        item.2 = sorted ((rebuiltArrivals graph state).getItem item.1) := by
  obtain ⟨occurrence, references⟩ := item
  rw [← Dict.get?_eq_some, Dict.get?_build]
  by_cases key : occurrence ∈ (rebuiltArrivals graph state).keys
  · simp [key, eq_comm]
  · simp [key]

/-! ## The successor check -/

/-- What an occurrence means for the frontier when it is complete exactly if its target is reached. -/
def expectedOutcome (state : GraphRunState)
    (item : GraphJoinOccurrenceIdentity × List ActivationReference) : HistoricalOutcome :=
  if item.1.targetSuperstep < state.superstep then .passed
  else if item.1.targetSuperstep = state.superstep then
    if item.1.join.target ≠ END then .activates item.1.join.target ⟨item.2, some item.1⟩ else .ends
  else .pending item.1 item.2

/-- The occurrence is complete exactly if its target is reached. -/
def Punctual (state : GraphRunState)
    (item : GraphJoinOccurrenceIdentity × List ActivationReference) : Prop :=
  SameSources item.2 item.1.join.sources ↔ item.1.targetSuperstep ≤ state.superstep

theorem historicalOutcome_eq_ok (item : GraphJoinOccurrenceIdentity × List ActivationReference)
    (result : HistoricalOutcome) :
    historicalOutcome state item = .ok result ↔
      Punctual state item ∧ result = expectedOutcome state item := by
  have whole : (sourceIds item.2 ⊆ item.1.join.sources ∧ item.1.join.sources ⊆ sourceIds item.2) ↔
      SameSources item.2 item.1.join.sources := sameSources_iff
  simp only [historicalOutcome, expectedOutcome, whole, Punctual]
  by_cases passed : item.1.targetSuperstep < state.superstep
  · have reached : item.1.targetSuperstep ≤ state.superstep := by omega
    simp only [if_pos passed, bind_unit_eq_ok, raiseIf_eq_ok, not_not, pure_eq_ok, Except.ok.injEq,
      reached, iff_true, eq_comm (a := result)]
  · by_cases complete : SameSources item.2 item.1.join.sources
    · rw [if_neg passed, if_pos complete, if_neg passed, bind_unit_eq_ok, raiseIf_eq_ok,
        iff_true_left complete, pure_eq_ok, Except.ok.injEq, ne_eq, not_not]
      constructor
      · intro both
        obtain ⟨now, same⟩ := both
        exact ⟨by omega, by rw [if_pos now]; exact same.symm⟩
      · intro both
        obtain ⟨reached, same⟩ := both
        have now : item.1.targetSuperstep = state.superstep := by omega
        rw [if_pos now] at same
        exact ⟨now, same.symm⟩
    · rw [if_neg passed, if_neg complete, if_neg passed, bind_unit_eq_ok, raiseIf_eq_ok,
        iff_false_left complete, pure_eq_ok, Except.ok.injEq]
      constructor
      · intro both
        obtain ⟨later, same⟩ := both
        exact ⟨by omega, by rw [if_neg later]; exact same.symm⟩
      · intro both
        obtain ⟨later, same⟩ := both
        have other : item.1.targetSuperstep ≠ state.superstep := by omega
        rw [if_neg other] at same
        exact ⟨other, same.symm⟩

theorem expectedOutcome_candidate
    {item : GraphJoinOccurrenceIdentity × List ActivationReference}
    {pair : GraphNodeId × RoutedActivationCause} :
    (expectedOutcome state item).candidate = some pair ↔
      item.1.targetSuperstep = state.superstep ∧ item.1.join.target ≠ END ∧
        pair = (item.1.join.target, ⟨item.2, some item.1⟩) := by
  unfold expectedOutcome
  by_cases passed : item.1.targetSuperstep < state.superstep
  · have other : item.1.targetSuperstep ≠ state.superstep := by omega
    simp [passed, other, HistoricalOutcome.candidate]
  · by_cases now : item.1.targetSuperstep = state.superstep
    · by_cases inner : item.1.join.target ≠ END
      · simp [now, inner, HistoricalOutcome.candidate, eq_comm]
      · rw [not_not] at inner
        simp [now, inner, HistoricalOutcome.candidate]
    · simp [passed, now, HistoricalOutcome.candidate]

theorem expectedOutcome_progress
    {item pair : GraphJoinOccurrenceIdentity × List ActivationReference} :
    (expectedOutcome state item).progress = some pair ↔
      state.superstep < item.1.targetSuperstep ∧ pair = item := by
  unfold expectedOutcome
  by_cases passed : item.1.targetSuperstep < state.superstep
  · have other : ¬ state.superstep < item.1.targetSuperstep := by omega
    simp [passed, other, HistoricalOutcome.progress]
  · by_cases now : item.1.targetSuperstep = state.superstep
    · by_cases inner : item.1.join.target ≠ END
      · simp [now, inner, HistoricalOutcome.progress]
      · rw [not_not] at inner
        simp [now, inner, HistoricalOutcome.progress]
    · have later : state.superstep < item.1.targetSuperstep := by omega
      simp [passed, now, later, HistoricalOutcome.progress, eq_comm]

/-- The causes the ledger shows for the frontier, with their targets. -/
def compiledCauses (graph : CompiledGraph τ) (state : GraphRunState) (historical : JoinArrivals) :
    List (GraphNodeId × RoutedActivationCause) :=
  directCauses graph (previousReferences state) ++
    (historical.items.map (expectedOutcome state)).filterMap HistoricalOutcome.candidate

/-- The Join progress that the ledger shows. -/
def pendingArrivals (state : GraphRunState) (historical : JoinArrivals) :
    List (GraphJoinOccurrenceIdentity × List ActivationReference) :=
  (historical.items.map (expectedOutcome state)).filterMap HistoricalOutcome.progress

/-- A frontier and its Join progress that the ledger explains. -/
structure Explained (graph : CompiledGraph τ) (state : GraphRunState) (historical : JoinArrivals) :
    Prop where
  previous : previousReferences state ≠ []
  routable : ∀ reference ∈ previousReferences state, Routable graph reference
  punctual : ∀ item ∈ historical.items, Punctual state item
  known : ∀ occurrence, occurrence ∈ state.joinProgress.map (·.occurrence) ↔
    occurrence ∈ (pendingArrivals state historical).map Prod.fst
  arrived : ∀ item ∈ pendingArrivals state historical,
    (progressOf state.joinProgress item.1).map (·.arrived) = some item.2
  once : ((compiledCauses graph state historical).map Prod.fst).Nodup
  causes : ∀ target cause, routedCause state target = some cause ↔
    (target, cause) ∈ compiledCauses graph state historical

theorem progressError_eq_ok
    (expected : List (GraphJoinOccurrenceIdentity × List ActivationReference)) :
    progressError state expected = .ok () ↔
      (∀ occurrence, occurrence ∈ state.joinProgress.map (·.occurrence) ↔
        occurrence ∈ expected.map Prod.fst) ∧
      ∀ item ∈ expected, (progressOf state.joinProgress item.1).map (·.arrived) = some item.2 := by
  simp only [progressError, bind_unit_eq_ok, raiseIf_eq_ok]
  refine and_congr ?_ ?_
  · rw [not_not]
    constructor
    · intro both occurrence
      exact ⟨fun inside => both.1 inside, fun inside => both.2 inside⟩
    · intro same
      exact ⟨fun occurrence inside => (same occurrence).mp inside,
        fun occurrence inside => (same occurrence).mpr inside⟩
  · constructor
    · intro clear item member
      by_contra wrong
      exact clear ⟨item, member, wrong⟩
    · intro every found
      obtain ⟨item, member, wrong⟩ := found
      exact wrong (every item member)

/-- Grouped by target, every list of causes is a single one when no target is named twice. -/
theorem successorCauseError_eq_none (causes : List (GraphNodeId × RoutedActivationCause)) :
    ((Dict.empty : Dict GraphNodeId (List RoutedActivationCause)).pushAll causes).items.findSome?
        (successorCauseError state) = none ↔
      (causes.map Prod.fst).Nodup ∧
      ∀ pair ∈ causes, routedCause state pair.1 = some pair.2 := by
  have single : ∀ item, successorCauseError state item = none ↔
      ∃ cause, item.2 = [cause] ∧ routedCause state item.1 = some cause := by
    intro item
    obtain ⟨target, values⟩ := item
    unfold successorCauseError
    cases values with
    | nil => simp
    | cons cause others =>
        cases others with
        | cons other others => simp
        | nil => simp
  rw [List.findSome?_eq_none_iff]
  simp only [single]
  constructor
  · intro each
    have alone : ∀ target, (causes.map Prod.fst).count target ≤ 1 := by
      intro target
      by_cases named : target ∈ causes.map Prod.fst
      · obtain ⟨cause, values, -⟩ := each (target, Dict.valuesAt causes target)
          ((Dict.mem_items_pushAll causes target _).mpr ⟨named, rfl⟩)
        have counted : (Dict.valuesAt causes target).length = (causes.map Prod.fst).count target := by
          rw [Dict.valuesAt, List.length_map, List.count, List.countP_map, List.countP_eq_length_filter]
          congr 1
        rw [← counted, show Dict.valuesAt causes target = [cause] from values]
        exact le_rfl
      · rw [List.count_eq_zero.mpr named]
        exact Nat.zero_le 1
    refine ⟨List.nodup_iff_count_le_one.mpr alone, ?_⟩
    intro pair inside
    obtain ⟨cause, values, routed⟩ := each (pair.1, Dict.valuesAt causes pair.1)
      ((Dict.mem_items_pushAll causes pair.1 _).mpr ⟨List.mem_map.mpr ⟨pair, inside, rfl⟩, rfl⟩)
    have listed := (Dict.mem_valuesAt causes pair.1 pair.2).mpr inside
    rw [show Dict.valuesAt causes pair.1 = [cause] from values, List.mem_singleton] at listed
    rw [listed]
    exact routed
  · intro both item member
    have items := Dict.items_pushAll_of_nodup Dict.empty causes (by simpa [Dict.keys, Dict.empty]
      using both.1)
    rw [items, show (Dict.empty : Dict GraphNodeId (List RoutedActivationCause)).items = [] from rfl,
      List.nil_append] at member
    obtain ⟨pair, inside, rfl⟩ := List.mem_map.mp member
    exact ⟨pair.2, rfl, both.2 pair inside⟩

theorem flatten_directCauses (references : List ActivationReference) :
    (references.map (fun reference => directCauses graph [reference])).flatten =
      directCauses graph references := by
  rw [directCauses, List.flatMap_def]
  congr 1
  refine List.map_congr_left (fun reference _ => ?_)
  rw [directCauses, List.flatMap_singleton]

theorem mem_routedCauses {target : GraphNodeId} (named : target ∈ (routedCauses state).map Prod.fst) :
    ∃ cause, routedCause state target = some cause := by
  obtain ⟨pair, inside, rfl⟩ := List.mem_map.mp named
  have found : ((routedCauses state).find? (fun other => other.1 = pair.1)).isSome := by
    rw [List.find?_isSome]
    exact ⟨pair, inside, decide_eq_true rfl⟩
  obtain ⟨first, located⟩ := Option.isSome_iff_exists.mp found
  exact ⟨first.2, by rw [routedCause, located]; rfl⟩

theorem routedCause_mem {target : GraphNodeId} {cause : RoutedActivationCause}
    (routed : routedCause state target = some cause) : (target, cause) ∈ routedCauses state := by
  obtain ⟨pair, found, rfl⟩ := Option.map_eq_some_iff.mp routed
  obtain rfl : pair.1 = target := by simpa using List.find?_some found
  exact List.mem_of_find?_eq_some found

/-- The check accepts a frontier exactly if the ledger explains it. -/
theorem checkPostAdvance_eq_ok (historical : JoinArrivals) :
    checkPostAdvance graph state historical = .ok () ↔ Explained graph state historical := by
  have grouped : compiledSuccessors (directCauses graph (previousReferences state))
      (historical.items.map (expectedOutcome state)) =
        Dict.empty.pushAll (compiledCauses graph state historical) := by
    rw [compiledSuccessors, ← Dict.pushAll_append]
    rfl
  have keys : ∀ target, target ∈ ((Dict.empty : Dict GraphNodeId (List RoutedActivationCause)).pushAll
      (compiledCauses graph state historical)).keys ↔
        target ∈ (compiledCauses graph state historical).map Prod.fst := by
    intro target
    rw [Dict.mem_keys_pushAll]
    exact or_iff_right List.not_mem_nil
  have unexpected : sortedSet (((routedCauses state).map Prod.fst).filter (fun target => target ∉
      ((Dict.empty : Dict GraphNodeId (List RoutedActivationCause)).pushAll
        (compiledCauses graph state historical)).keys)) = [] ↔
      ∀ target ∈ (routedCauses state).map Prod.fst,
        target ∈ (compiledCauses graph state historical).map Prod.fst := by
    rw [List.eq_nil_iff_forall_not_mem]
    simp only [mem_sortedSet, List.mem_filter, decide_eq_true_eq, not_and, not_not, keys]
  have spec : checkPostAdvance graph state historical = .ok () ↔
      previousReferences state ≠ [] ∧ (∀ reference ∈ previousReferences state,
        Routable graph reference) ∧ (∀ item ∈ historical.items, Punctual state item) ∧
      progressError state (pendingArrivals state historical) = .ok () ∧
      ((Dict.empty : Dict GraphNodeId (List RoutedActivationCause)).pushAll
        (compiledCauses graph state historical)).items.findSome? (successorCauseError state) = none ∧
      ∀ target ∈ (routedCauses state).map Prod.fst,
        target ∈ (compiledCauses graph state historical).map Prod.fst := by
    rw [← unexpected]
    simp only [checkPostAdvance, bind_eq_ok, exists_unit, raiseIf_eq_ok, rethrow_eq_ok,
      mapM_eq_ok_map (referenceCandidates_eq_ok graph), mapM_eq_ok_map historicalOutcome_eq_ok]
    constructor
    · intro checked
      obtain ⟨previous, direct, ⟨routable, rfl⟩, outcomes, ⟨punctual, rfl⟩, progress, rest⟩ := checked
      rw [flatten_directCauses, grouped] at rest
      cases found : ((Dict.empty : Dict GraphNodeId (List RoutedActivationCause)).pushAll
          (compiledCauses graph state historical)).items.findSome? (successorCauseError state) with
      | some text =>
          rw [found] at rest
          cases rest
      | none =>
          rw [found, raiseIf_eq_ok, not_not] at rest
          exact ⟨previous, routable, punctual, progress, rfl, rest⟩
    · intro checked
      obtain ⟨previous, routable, punctual, progress, found, rest⟩ := checked
      refine ⟨previous, _, ⟨routable, rfl⟩, _, ⟨punctual, rfl⟩, progress, ?_⟩
      rw [flatten_directCauses, grouped, found, raiseIf_eq_ok, not_not]
      exact rest
  rw [spec, progressError_eq_ok, successorCauseError_eq_none]
  constructor
  · intro checked
    obtain ⟨previous, routable, punctual, ⟨known, arrived⟩, ⟨once, causes⟩, expected⟩ := checked
    refine ⟨previous, routable, punctual, known, arrived, once, ?_⟩
    intro target cause
    constructor
    · intro routed
      obtain ⟨⟨_, other⟩, inside, rfl⟩ := List.mem_map.mp
        (expected target (List.mem_map.mpr ⟨_, routedCause_mem routed, rfl⟩))
      rw [causes _ inside] at routed
      rw [← Option.some.inj routed]
      exact inside
    · intro inside
      exact causes _ inside
  · intro explained
    refine ⟨explained.previous, explained.routable, explained.punctual,
      ⟨explained.known, explained.arrived⟩, ⟨explained.once, ?_⟩, ?_⟩
    · intro pair inside
      exact (explained.causes _ _).mpr inside
    · intro target named
      obtain ⟨cause, routed⟩ := mem_routedCauses named
      exact List.mem_map.mpr ⟨_, (explained.causes _ _).mp routed, rfl⟩

/-! ## The frontier that control opens -/

/-- A frontier without repeated nodes has the causes of its routed activations. -/
theorem routedCause_eq_some (distinct : (state.frontier.nodes.map (·.nodeId)).Nodup)
    {target : GraphNodeId} {cause : RoutedActivationCause} :
    routedCause state target = some cause ↔ (⟨target, .routed cause⟩ : GraphFrontierActivation) ∈
      state.frontier.nodes.map GraphFrontierNode.activation := by
  have single : ((routedCauses state).map Prod.fst).Nodup := by
    refine List.Nodup.sublist ?_ distinct
    rw [routedCauses]
    induction state.frontier.nodes with
    | nil => exact List.Sublist.slnil
    | cons node nodes ih =>
        cases caused : node.cause with
        | start => simpa [caused] using ih.cons _
        | routed cause => simpa [caused] using ih
  have carried : (target, cause) ∈ routedCauses state ↔
      (⟨target, .routed cause⟩ : GraphFrontierActivation) ∈
        state.frontier.nodes.map GraphFrontierNode.activation := by
    rw [List.mem_map, routedCauses, List.mem_filterMap]
    constructor
    · intro routed
      obtain ⟨node, member, found⟩ := routed
      refine ⟨node, member, ?_⟩
      cases caused : node.cause with
      | start =>
          rw [caused] at found
          cases found
      | routed other =>
          rw [caused] at found
          obtain ⟨rfl, rfl⟩ := Prod.mk.inj (Option.some.inj found)
          rw [GraphFrontierNode.activation, caused]
    · intro carried
      obtain ⟨node, member, same⟩ := carried
      have named : node.nodeId = target := congrArg GraphFrontierActivation.nodeId same
      have caused : node.cause = .routed cause := congrArg GraphFrontierActivation.cause same
      exact ⟨node, member, by rw [caused, named]⟩
  rw [← carried, routedCause]
  constructor
  · intro found
    obtain ⟨pair, located, rfl⟩ := Option.map_eq_some_iff.mp found
    obtain ⟨member, rfl⟩ := (find_key_eq_some Prod.fst single).mp located
    exact member
  · intro member
    rw [(find_key_eq_some Prod.fst single).mpr ⟨member, rfl⟩]
    rfl

theorem mem_routed_activations {causes : List (GraphNodeId × RoutedActivationCause)}
    {target : GraphNodeId} {cause : RoutedActivationCause} :
    (⟨target, .routed cause⟩ : GraphFrontierActivation) ∈ nextActivations causes ↔
      (target, cause) ∈ causes := by
  rw [mem_nextActivations]
  constructor
  · intro found
    obtain ⟨other, same, member⟩ := found
    cases same
    exact member
  · intro member
    exact ⟨cause, rfl, member⟩

/-- A state of the next superstep of a run, with the ledger of the settled frontier before it. -/
structure NextLedger (previous next : GraphRunState) : Prop where
  run : next.runId = previous.runId
  superstep : next.superstep = previous.superstep + 1
  ledger : ∀ reference, reference ∈ next.settledReferences ↔
    reference ∈ previous.settledReferences ∨ reference ∈ frontierPublications next

theorem Follows.nextLedger {previous next : GraphRunState} {control : RoutingFacts}
    (follows : Follows previous control next) : NextLedger previous next :=
  ⟨follows.run, follows.superstep, follows.ledger⟩

/-- A settled frontier of a run with its history, and a state that continues it. -/
structure OpensNext (graph : CompiledGraph τ) (relation : FrontierRelation)
    (declared : JoinDeclarations) (previous : GraphRunState) (arrivals : JoinArrivals)
    (active : Nat → GraphNodeId → Prop) (choice : Nat → GraphNodeId → Route)
    (next : GraphRunState) : Prop where
  runs : RunsOn graph relation declared previous arrivals
  resolvable : Resolvable graph previous arrivals
  recorded : Recorded relation previous active choice
  follows : NextLedger previous next

/-- The frontier and the Join progress of a state are those that control resolved. -/
structure Resolved (graph : CompiledGraph τ) (previous : GraphRunState) (arrivals : JoinArrivals)
    (next : GraphRunState) : Prop where
  activations : next.frontier.nodes.map GraphFrontierNode.activation =
    nextActivations (nextCauses graph previous arrivals)
  progress : next.joinProgress =
    (controlOutcomes graph previous arrivals).filterMap JoinOutcome.progress

section Opening

variable {relation : FrontierRelation} {declared : JoinDeclarations} {previous next : GraphRunState}
  {arrivals : JoinArrivals} {active : Nat → GraphNodeId → Prop} {choice : Nat → GraphNodeId → Route}
  (opens : OpensNext graph relation declared previous arrivals active choice next)

/-- An activation has one reference in the ledger. -/
theorem Recorded.unique (recorded : Recorded relation previous active choice)
    {a b : ActivationReference} (memberA : a ∈ previous.settledReferences)
    (memberB : b ∈ previous.settledReferences) (same : a.activation = b.activation) : a = b := by
  obtain ⟨superstep, node, -, rfl⟩ := (recorded.ledger a).mp memberA
  obtain ⟨superstep', node', -, rfl⟩ := (recorded.ledger b).mp memberB
  have steps : superstep = superstep' := congrArg GraphActivationIdentity.superstep same
  have nodes : node = node' := congrArg GraphActivationIdentity.nodeId same
  rw [steps, nodes]

/-- Two arrivals of one source at one occurrence are of one activation. -/
theorem same_activation {join : CompiledJoin} {a b : GraphActivationIdentity}
    (place : join.occurrenceAt a = join.occurrenceAt b) (source : a.nodeId = b.nodeId) : a = b := by
  have run : a.runId = b.runId := congrArg GraphJoinOccurrenceIdentity.runId place
  have target : a.superstep + join.offset a.nodeId = b.superstep + join.offset b.nodeId :=
    congrArg GraphJoinOccurrenceIdentity.targetSuperstep place
  obtain ⟨runA, stepA, nodeA⟩ := a
  obtain ⟨runB, stepB, nodeB⟩ := b
  simp only at run target source ⊢
  subst run source
  congr 1
  omega

include opens

theorem OpensNext.mem_past {reference : ActivationReference} :
    reference ∈ pastReferences next ↔ reference ∈ previous.settledReferences := by
  rw [mem_pastReferences, opens.follows.ledger, opens.follows.superstep]
  constructor
  · intro both
    obtain ⟨old | new, before⟩ := both
    · exact old
    · rw [superstep_of_success new, opens.follows.superstep] at before
      exact absurd before (lt_irrefl _)
  · intro old
    exact ⟨.inl old, Nat.lt_succ_of_le (opens.runs.shape.past reference old)⟩

theorem OpensNext.mem_previous {reference : ActivationReference} :
    reference ∈ previousReferences next ↔ reference ∈ frontierPublications previous := by
  rw [previousReferences, List.mem_filter, decide_eq_true_eq, opens.follows.superstep,
    Nat.add_right_cancel_iff, opens.follows.ledger, opens.runs.shape.publication]
  constructor
  · intro both
    obtain ⟨old | new, place⟩ := both
    · obtain ⟨superstep, node, here, rfl⟩ := (opens.recorded.ledger reference).mp old
      obtain rfl : superstep = previous.superstep := place
      exact ⟨node, (opens.recorded.current node).mp here, by rw [opens.recorded.chosen node here]⟩
    · rw [superstep_of_success new, opens.follows.superstep] at place
      omega
  · intro success
    refine ⟨.inl (opens.runs.shape.evidence (opens.runs.shape.publication.mpr success)), ?_⟩
    exact superstep_of_success (opens.runs.shape.publication.mpr success)

/-- An occurrence that is still to come is rebuilt with the arrivals that control gathered for it. -/
theorem OpensNext.mem_rebuilt {occurrence : GraphJoinOccurrenceIdentity}
    (future : previous.superstep < occurrence.targetSuperstep) {reference : ActivationReference} :
    reference ∈ (rebuiltArrivals graph next).getItem occurrence ↔
      reference ∈ (gatheredArrivals graph previous arrivals).getItem occurrence := by
  have runs := opens.runs
  rw [mem_rebuiltArrivals, opens.mem_past]
  constructor
  · intro rebuilt
    obtain ⟨settled, join, listed, rfl⟩ := rebuilt
    obtain ⟨superstep, node, here, rfl⟩ := (opens.recorded.ledger reference).mp settled
    obtain ⟨member, inside⟩ := (runs.carries.mem_joinsBySource runs.wellFormed).mp listed
    rw [getItem_eq_getD, mem_gatheredArrivals runs.pending]
    have bound := (opens.recorded.trail.known superstep node here).2
    by_cases now : superstep = previous.superstep
    · subst now
      refine .inr (mem_joinArrivals.mpr ⟨runs.shape.publication.mpr ⟨node,
        (opens.recorded.current node).mp here, ?_⟩, join, listed, rfl⟩)
      rw [opens.recorded.chosen node here]
    · -- the arrival is older, so the marking has it pending
      left
      have far := FrontierRelation.offset_le_maximum join node
      have place : superstep + join.offset node = previous.superstep +
          (superstep + join.offset node - previous.superstep) := by
        have later : previous.superstep < superstep + join.offset node := future
        omega
      have key : (⟨join, superstep + join.offset node - previous.superstep, node⟩ : JoinKey) ∈
          relation.joinKeys := by
        have later : previous.superstep < superstep + join.offset node := future
        exact FrontierRelation.mem_joinKeys.mpr ⟨member, by simp only; omega, by simp only; omega,
          inside⟩
      have pending := (opens.recorded.pending _ key).mpr ⟨superstep, by omega, here, place⟩
      obtain ⟨other, recordedThere, source⟩ := mem_sourceIds.mp pending
      simp only at recordedThere source
      rw [← place] at recordedThere
      have record := runs.shape.arrivalsAt recordedThere
      obtain ⟨progress, listedProgress, named, arrived⟩ := record
      obtain ⟨plan, found, projected⟩ := (runs.shape.records progress listedProgress).plan
      have planned := (runs.carries.declared runs.declares).mp found
      have identity : plan.identity = join.identity := by
        rw [planned.1, named]
      have sameJoin := runs.carries.agree runs.wellFormed planned.2 member identity
      rw [sameJoin] at projected
      have placed : join.occurrenceAt other.activation =
          join.occurrenceAt ⟨previous.runId, superstep, node⟩ :=
        (projected other arrived).2.trans named
      have same := opens.recorded.unique
        ((runs.shape.records progress listedProgress).settled other arrived) settled
        (same_activation placed source)
      rw [same] at recordedThere
      exact recordedThere
  · intro gathered
    obtain ⟨join, member, -, inside, place, -, -, settled⟩ := gathered_reference runs gathered
    exact ⟨settled, join, (runs.carries.mem_joinsBySource runs.wellFormed).mpr ⟨member, inside⟩,
      place.symm⟩

/-- The earlier successes arrive at most once at each occurrence. -/
theorem OpensNext.rebuilt_fresh (distinct : next.settledReferences.Nodup) :
    Dict.Fresh SameSource Dict.empty (joinArrivals graph (pastReferences next)) := by
  have runs := opens.runs
  have once : (pastReferences next).Nodup := distinct.filter _
  refine ⟨fun pair _ item none => absurd none List.not_mem_nil, List.pairwise_flatMap.mpr ⟨?_, ?_⟩⟩
  · intro reference _
    rw [List.pairwise_map]
    have listed : (graph.joinsBySource reference.activation.nodeId).Nodup := by
      rw [(runs.carries.joins _).nodup_iff]
      exact (runs.wellFormed.listed _).1
    refine listed.imp_of_mem ?_
    intro a b memberA memberB different same _
    exact different ((runs.carries.declarable runs.wellFormed).agree _ a memberA _ b memberB
      (congrArg GraphJoinOccurrenceIdentity.join same))
  · refine once.imp_of_mem ?_
    intro a b memberA memberB different p memberP q memberQ place source
    obtain ⟨joinA, listedA, rfl⟩ := List.mem_map.mp memberP
    obtain ⟨joinB, listedB, rfl⟩ := List.mem_map.mp memberQ
    have identity : joinA.identity = joinB.identity := congrArg GraphJoinOccurrenceIdentity.join place
    have same := (runs.carries.declarable runs.wellFormed).agree _ joinA listedA _ joinB listedB identity
    rw [same] at place
    exact different (opens.recorded.unique (opens.mem_past.mp memberA) (opens.mem_past.mp memberB)
      (same_activation place source))

theorem OpensNext.rebuilt_nodup (distinct : next.settledReferences.Nodup)
    (occurrence : GraphJoinOccurrenceIdentity) :
    ((rebuiltArrivals graph next).getItem occurrence).Nodup := by
  obtain ⟨-, apart⟩ := opens.rebuilt_fresh distinct
  have grouped : (rebuiltArrivals graph next).getItem occurrence =
      Dict.valuesAt (joinArrivals graph (pastReferences next)) occurrence :=
    Dict.getD_pushAll Dict.empty _ occurrence
  rw [grouped, Dict.valuesAt, List.Nodup, List.pairwise_map]
  refine (apart.filter _).imp_of_mem ?_
  intro a b memberA memberB different same
  have keyA : a.1 = occurrence := by simpa using (List.mem_filter.mp memberA).2
  have keyB : b.1 = occurrence := by simpa using (List.mem_filter.mp memberB).2
  exact different (keyA.trans keyB.symm)
    (congrArg (fun reference : ActivationReference => reference.activation.nodeId) same)

/-- A rebuilt occurrence of a later target is gathered, with the same arrivals in order. -/
theorem OpensNext.sorted_rebuilt (distinct : next.settledReferences.Nodup)
    {occurrence : GraphJoinOccurrenceIdentity}
    (future : previous.superstep < occurrence.targetSuperstep) :
    sorted ((rebuiltArrivals graph next).getItem occurrence) =
      sorted ((gatheredArrivals graph previous arrivals).getItem occurrence) := by
  have once : ((rebuiltArrivals graph next).getItem occurrence).Nodup :=
    opens.rebuilt_nodup distinct occurrence
  have sources := gathered_sources_nodup opens.runs opens.resolvable occurrence
  refine strict_ext (sorted_strict once) (sorted_strict (List.Nodup.of_map _ sources)) ?_
  intro reference
  rw [mem_sorted, mem_sorted]
  exact opens.mem_rebuilt future

theorem OpensNext.mem_keys {occurrence : GraphJoinOccurrenceIdentity}
    (future : previous.superstep < occurrence.targetSuperstep) :
    occurrence ∈ (rebuiltArrivals graph next).keys ↔
      occurrence ∈ (gatheredArrivals graph previous arrivals).keys := by
  rw [mem_rebuiltArrivals_keys]
  simp only [opens.mem_rebuilt future]
  constructor
  · intro gathered
    obtain ⟨reference, inside⟩ := gathered
    by_contra absent
    rw [getItem_eq_getD, (Dict.get?_eq_none _ _).mpr absent] at inside
    cases inside
  · intro key
    exact List.exists_mem_of_ne_nil _ (gathered_key opens.runs key)

/-- Every rebuilt occurrence whose target is passed has all its sources. -/
theorem OpensNext.passed {occurrence : GraphJoinOccurrenceIdentity}
    (key : occurrence ∈ (rebuiltArrivals graph next).keys)
    (past : occurrence.targetSuperstep ≤ previous.superstep) :
    SameSources ((rebuiltArrivals graph next).getItem occurrence) occurrence.join.sources := by
  have runs := opens.runs
  obtain ⟨first, inside⟩ := mem_rebuiltArrivals_keys.mp key
  rw [mem_rebuiltArrivals, opens.mem_past] at inside
  obtain ⟨settled, join, listed, rfl⟩ := inside
  obtain ⟨superstep, node, here, rfl⟩ := (opens.recorded.ledger first).mp settled
  obtain ⟨member, source⟩ := (runs.carries.mem_joinsBySource runs.wellFormed).mp listed
  have target : superstep + join.offset node ≤ previous.superstep := past
  have positive : 1 ≤ join.offset node := join.offset_positive source
  -- the Join fired when the target was opened, so all its sources had arrived
  have complete : ∀ other ∈ join.identity.sources, ∃ earlier ≤ superstep + join.offset node - 1,
      active earlier other ∧
        earlier + join.offset other = superstep + join.offset node - 1 + 1 :=
    opens.recorded.trail.arrived (by omega) member source here
      (show superstep + join.offset node = superstep + join.offset node - 1 + 1 by omega)
  intro other
  rw [mem_sourceIds]
  constructor
  · intro arrived
    obtain ⟨reference, inside, rfl⟩ := arrived
    rw [mem_rebuiltArrivals] at inside
    obtain ⟨-, plan, planListed, same⟩ := inside
    obtain ⟨planMember, planSource⟩ := (runs.carries.mem_joinsBySource runs.wellFormed).mp planListed
    have identity : join.identity = plan.identity := congrArg GraphJoinOccurrenceIdentity.join same
    show reference.activation.nodeId ∈ join.identity.sources
    rw [identity]
    exact planSource
  · intro otherSource
    obtain ⟨earlier, before, there, place⟩ := complete other otherSource
    refine ⟨activationReference previous.runId earlier other (choice earlier other), ?_, rfl⟩
    rw [mem_rebuiltArrivals, opens.mem_past]
    refine ⟨(opens.recorded.ledger _).mpr ⟨earlier, other, there, rfl⟩, join,
      (runs.carries.mem_joinsBySource runs.wellFormed).mpr ⟨member, otherSource⟩, ?_⟩
    have sameTarget : superstep + join.offset node = earlier + join.offset other := by omega
    show GraphJoinOccurrenceIdentity.mk join.identity previous.runId (superstep + join.offset node) =
      ⟨join.identity, previous.runId, earlier + join.offset other⟩
    rw [sameTarget]

/-- The resolved frontier names no node twice. -/
theorem OpensNext.distinct_nodes (resolved : Resolved graph previous arrivals next) :
    (next.frontier.nodes.map (·.nodeId)).Nodup := by
  rw [opened_nodeIds resolved.activations, (activations_nodeId _).nodup_iff]
  exact opens.resolvable.once

/-- The frontier carries the causes that control resolved. -/
theorem OpensNext.routed (resolved : Resolved graph previous arrivals next) {target : GraphNodeId}
    {cause : RoutedActivationCause} :
    routedCause next target = some cause ↔ (target, cause) ∈ nextCauses graph previous arrivals := by
  rw [routedCause_eq_some (opens.distinct_nodes resolved), resolved.activations,
    mem_routed_activations]

theorem OpensNext.punctual (distinct : next.settledReferences.Nodup)
    {item : GraphJoinOccurrenceIdentity × List ActivationReference}
    (key : item.1 ∈ (rebuiltArrivals graph next).keys)
    (arrived : item.2 = sorted ((rebuiltArrivals graph next).getItem item.1)) :
    Punctual next item := by
  have whole : SameSources item.2 item.1.join.sources ↔
      SameSources ((rebuiltArrivals graph next).getItem item.1) item.1.join.sources := by
    rw [arrived, ← sameSources_iff, sameSources_sorted]
  rw [Punctual, whole, opens.follows.superstep]
  by_cases past : item.1.targetSuperstep ≤ previous.superstep
  · exact iff_of_true (opens.passed key past) (by omega)
  · have future : previous.superstep < item.1.targetSuperstep := by omega
    have timely := opens.resolvable.timely item.1 ((opens.mem_keys future).mp key)
    have gathered : SameSources ((rebuiltArrivals graph next).getItem item.1) item.1.join.sources ↔
        SameSources ((gatheredArrivals graph previous arrivals).getItem item.1)
          item.1.join.sources := by
      rw [← sameSources_sorted, opens.sorted_rebuilt distinct future, sameSources_sorted]
    rw [gathered]
    constructor
    · intro complete
      rw [timely.complete complete]
    · intro due
      by_contra partially
      have later := timely.partially partially
      omega

/-- The causes of the rebuilt history are those that control resolved. -/
theorem OpensNext.mem_causes (distinct : next.settledReferences.Nodup)
    {pair : GraphNodeId × RoutedActivationCause} :
    pair ∈ compiledCauses graph next (Dict.build (rebuiltArrivals graph next).keys
        (fun occurrence => sorted ((rebuiltArrivals graph next).getItem occurrence))) ↔
      pair ∈ nextCauses graph previous arrivals := by
  rw [compiledCauses, nextCauses, List.mem_append, List.mem_append]
  refine or_congr ?_ ?_
  · simp only [directCauses, List.mem_flatMap, opens.mem_previous]
  · simp only [List.mem_filterMap, List.mem_map, exists_exists_and_eq_and, mem_controlOutcomes,
      expectedOutcome_candidate, mem_rebuilt_items, opens.follows.superstep]
    constructor
    · intro rebuilt
      obtain ⟨⟨occurrence, references⟩, ⟨key, same⟩, due, inner, rfl⟩ := rebuilt
      simp only at key same due inner ⊢
      have future : previous.superstep < occurrence.targetSuperstep := by omega
      have gathered := (opens.mem_keys future).mp key
      have complete : SameSources ((gatheredArrivals graph previous arrivals).getItem occurrence)
          occurrence.join.sources := by
        by_contra partially
        have later := (opens.resolvable.timely occurrence gathered).partially partially
        omega
      refine ⟨_, ⟨occurrence, gathered, rfl⟩, ?_⟩
      rw [candidate_occurrenceOutcome, if_pos ⟨complete, inner⟩, same,
        opens.sorted_rebuilt distinct future]
    · intro resolved
      obtain ⟨_, ⟨occurrence, gathered, rfl⟩, found⟩ := resolved
      rw [candidate_occurrenceOutcome] at found
      by_cases both : SameSources ((gatheredArrivals graph previous arrivals).getItem occurrence)
          occurrence.join.sources ∧ occurrence.join.target ≠ END
      · rw [if_pos both] at found
        have due := (opens.resolvable.timely occurrence gathered).complete both.1
        have future : previous.superstep < occurrence.targetSuperstep := by omega
        refine ⟨(occurrence, sorted ((rebuiltArrivals graph next).getItem occurrence)),
          ⟨(opens.mem_keys future).mpr gathered, rfl⟩, due, both.2, ?_⟩
        rw [opens.sorted_rebuilt distinct future]
        exact (Option.some.inj found).symm
      · rw [if_neg both] at found
        cases found

theorem OpensNext.causes_nodup (distinct : next.settledReferences.Nodup) (historical : JoinArrivals) :
    (compiledCauses graph next historical).Nodup := by
  have once : (nextCauses graph previous arrivals).Nodup := List.Nodup.of_map _ opens.resolvable.once
  have same : (previousReferences next).Perm (frontierPublications previous) := by
    refine (List.perm_ext_iff_of_nodup (distinct.filter _) ?_).mpr (fun _ => opens.mem_previous)
    exact List.Nodup.of_map _ opens.runs.shape.publications_nodup
  have direct : (directCauses graph (previousReferences next)).Perm
      (directCauses graph (frontierPublications previous)) := same.flatMap_right _
  refine List.nodup_append.mpr ⟨?_, ?_, ?_⟩
  · rw [direct.nodup_iff]
    exact (List.nodup_append.mp once).1
  · rw [List.filterMap_map]
    refine List.Nodup.filterMap ?_ (List.Nodup.of_map _ historical.distinct)
    intro a b pair fromA fromB
    obtain ⟨-, -, sameA⟩ := expectedOutcome_candidate.mp fromA
    obtain ⟨-, -, sameB⟩ := expectedOutcome_candidate.mp fromB
    have cause := congrArg Prod.snd (sameA.symm.trans sameB)
    exact Prod.ext (Option.some.inj (congrArg RoutedActivationCause.joinOccurrence cause))
      (congrArg RoutedActivationCause.references cause)
  · intro a memberA b memberB equal
    obtain ⟨outcome, listed, joined⟩ := List.mem_filterMap.mp memberB
    obtain ⟨item, -, rfl⟩ := List.mem_map.mp listed
    obtain ⟨-, -, pair⟩ := expectedOutcome_candidate.mp joined
    have single := directCauses_joinOccurrence (show (a.1, a.2) ∈ _ from memberA)
    rw [equal, pair] at single
    cases single

/-- The pending arrivals of the rebuilt history are the progress that control left. -/
theorem OpensNext.mem_pending (distinct : next.settledReferences.Nodup)
    {item : GraphJoinOccurrenceIdentity × List ActivationReference} :
    item ∈ pendingArrivals next (Dict.build (rebuiltArrivals graph next).keys
        (fun occurrence => sorted ((rebuiltArrivals graph next).getItem occurrence))) ↔
      ∃ progress ∈ (controlOutcomes graph previous arrivals).filterMap JoinOutcome.progress,
        item = (progress.occurrence, progress.arrived) := by
  simp only [pendingArrivals, List.mem_filterMap, List.mem_map, exists_exists_and_eq_and,
    expectedOutcome_progress, mem_rebuilt_items, opens.follows.superstep]
  constructor
  · intro rebuilt
    obtain ⟨⟨occurrence, references⟩, ⟨key, same⟩, later, rfl⟩ := rebuilt
    simp only at key same later
    have future : previous.superstep < occurrence.targetSuperstep := by omega
    have gathered := (opens.mem_keys future).mp key
    refine ⟨⟨occurrence, references⟩, ?_, rfl⟩
    rw [← List.mem_filterMap, mem_remainingProgress]
    refine ⟨occurrence, gathered, ?_, ?_⟩
    · intro complete
      have due := (opens.resolvable.timely occurrence gathered).complete complete
      omega
    · rw [same, opens.sorted_rebuilt distinct future]
  · intro recorded
    obtain ⟨progress, member, rfl⟩ := recorded
    rw [← List.mem_filterMap, mem_remainingProgress] at member
    obtain ⟨occurrence, gathered, partially, rfl⟩ := member
    have later := (opens.resolvable.timely occurrence gathered).partially partially
    have future : previous.superstep < occurrence.targetSuperstep := by omega
    refine ⟨_, ⟨(opens.mem_keys future).mpr gathered, ?_⟩, later, rfl⟩
    rw [opens.sorted_rebuilt distinct future]

/-- The ledger explains the frontier that control opened. -/
theorem OpensNext.explained (resolved : Resolved graph previous arrivals next)
    (distinct : next.settledReferences.Nodup) (nonempty : frontierPublications previous ≠ []) :
    Explained graph next (Dict.build (rebuiltArrivals graph next).keys
      (fun occurrence => sorted ((rebuiltArrivals graph next).getItem occurrence))) := by
  have pending : ∀ item, item ∈ pendingArrivals next (Dict.build (rebuiltArrivals graph next).keys
      (fun occurrence => sorted ((rebuiltArrivals graph next).getItem occurrence))) ↔
      ∃ progress ∈ next.joinProgress, item = (progress.occurrence, progress.arrived) := by
    intro item
    rw [resolved.progress]
    exact opens.mem_pending distinct
  have once : (next.joinProgress.map (·.occurrence)).Nodup := by
    rw [resolved.progress]
    exact remainingProgress_nodup graph previous arrivals
  refine ⟨?_, ?_, ?_, ?_, ?_, ?_, ?_⟩
  · obtain ⟨reference, member⟩ := List.exists_mem_of_ne_nil _ nonempty
    exact List.ne_nil_of_mem (opens.mem_previous.mpr member)
  · intro reference member
    obtain ⟨settled, inside, rfl⟩ := List.mem_map.mp (opens.mem_previous.mp member)
    exact (opens.resolvable.contributes settled inside).routable
  · intro item member
    obtain ⟨key, arrived⟩ := mem_rebuilt_items.mp member
    exact opens.punctual distinct key arrived
  · intro occurrence
    constructor
    · intro listed
      obtain ⟨progress, member, rfl⟩ := List.mem_map.mp listed
      exact List.mem_map.mpr ⟨_, (pending _).mpr ⟨progress, member, rfl⟩, rfl⟩
    · intro listed
      obtain ⟨item, member, rfl⟩ := List.mem_map.mp listed
      obtain ⟨progress, inside, rfl⟩ := (pending item).mp member
      exact List.mem_map.mpr ⟨progress, inside, rfl⟩
  · intro item member
    obtain ⟨progress, inside, rfl⟩ := (pending item).mp member
    rw [(progressOf_eq_some once).mpr ⟨inside, rfl⟩]
    rfl
  · have perm : (compiledCauses graph next (Dict.build (rebuiltArrivals graph next).keys
        (fun occurrence => sorted ((rebuiltArrivals graph next).getItem occurrence)))).Perm
        (nextCauses graph previous arrivals) :=
      (List.perm_ext_iff_of_nodup (opens.causes_nodup distinct _)
        (List.Nodup.of_map _ opens.resolvable.once)).mpr (fun _ => opens.mem_causes distinct)
    rw [(perm.map Prod.fst).nodup_iff]
    exact opens.resolvable.once
  · intro target cause
    rw [opens.routed resolved, opens.mem_causes distinct]

/-- A frontier in order that the ledger explains is the one that control resolved. -/
theorem OpensNext.resolved (distinct : next.settledReferences.Nodup)
    (explained : Explained graph next (Dict.build (rebuiltArrivals graph next).keys
      (fun occurrence => sorted ((rebuiltArrivals graph next).getItem occurrence))))
    (causes : ∀ node ∈ next.frontier.nodes, ∃ cause, node.cause = .routed cause)
    (nodes : (next.frontier.nodes.map (·.nodeId)).Pairwise (· < ·))
    (joins : (next.joinProgress.map (·.occurrence)).Pairwise (· < ·)) :
    Resolved graph previous arrivals next := by
  constructor
  · have once : ((nextActivations (nextCauses graph previous arrivals)).map
        (·.nodeId)).Nodup := by
      rw [(activations_nodeId _).nodup_iff]
      exact opens.resolvable.once
    have same : ∀ activation, activation ∈ next.frontier.nodes.map GraphFrontierNode.activation ↔
        activation ∈ nextActivations (nextCauses graph previous arrivals) := by
      intro activation
      obtain ⟨target, caused⟩ := activation
      cases caused with
      | start =>
          refine iff_of_false ?_ ?_
          · intro listed
            obtain ⟨node, member, same⟩ := List.mem_map.mp listed
            obtain ⟨cause, routed⟩ := causes node member
            have start : node.cause = .start := congrArg GraphFrontierActivation.cause same
            rw [routed] at start
            cases start
          · intro listed
            obtain ⟨cause, routed, -⟩ := mem_nextActivations.mp listed
            cases routed
      | routed cause =>
          rw [← routedCause_eq_some (nodup_of_strict nodes), explained.causes,
            opens.mem_causes distinct, mem_routed_activations]
    have named : (next.frontier.nodes.map GraphFrontierNode.activation).map (·.nodeId) =
        next.frontier.nodes.map (·.nodeId) := by
      rw [List.map_map]
      rfl
    have strict := nodes
    rw [← named, List.pairwise_map] at strict
    have sorted := List.pairwise_insertionSort
      (fun a b : GraphFrontierActivation => a.nodeId ≤ b.nodeId)
      ((nextCauses graph previous arrivals).map (fun cause => ⟨cause.1, .routed cause.2⟩))
    have distinctNodes : (next.frontier.nodes.map GraphFrontierNode.activation).Nodup := by
      refine List.Nodup.of_map (·.nodeId) ?_
      rw [named]
      exact nodup_of_strict nodes
    refine List.Perm.eq_of_pairwise ?_ (strict.imp le_of_lt) sorted
      ((List.perm_ext_iff_of_nodup distinctNodes (List.Nodup.of_map _ once)).mpr same)
    intro a b memberA memberB below above
    exact List.inj_on_of_nodup_map once ((same a).mp memberA) memberB (le_antisymm below above)
  · have once := remainingProgress_nodup graph previous arrivals
    have single := nodup_of_strict joins
    have same : ∀ progress, progress ∈ next.joinProgress ↔
        progress ∈ (controlOutcomes graph previous arrivals).filterMap JoinOutcome.progress := by
      have recorded : ∀ progress ∈ (controlOutcomes graph previous arrivals).filterMap
          JoinOutcome.progress, progress ∈ next.joinProgress := by
        intro progress member
        have arrived := explained.arrived _ ((opens.mem_pending distinct).mpr ⟨progress, member, rfl⟩)
        obtain ⟨other, found, same⟩ := Option.map_eq_some_iff.mp arrived
        obtain ⟨inside, place⟩ := (progressOf_eq_some single).mp found
        have equal : other = progress := by
          cases other
          cases progress
          simp only at place same
          rw [place, same]
        rw [← equal]
        exact inside
      intro progress
      refine ⟨?_, recorded progress⟩
      intro member
      obtain ⟨item, pending, place⟩ := List.mem_map.mp
        ((explained.known _).mp (List.mem_map.mpr ⟨progress, member, rfl⟩))
      obtain ⟨other, left, rfl⟩ := (opens.mem_pending distinct).mp pending
      rw [← List.inj_on_of_nodup_map single (recorded other left) member place]
      exact left
    have ordered := joins
    rw [List.pairwise_map] at ordered
    have left := remainingProgress_sorted graph previous arrivals
    rw [List.pairwise_map] at left
    refine List.Perm.eq_of_pairwise ?_ (ordered.imp le_of_lt) left
      ((List.perm_ext_iff_of_nodup (List.Nodup.of_map _ single) (List.Nodup.of_map _ once)).mpr same)
    intro a b memberA memberB below above
    exact List.inj_on_of_nodup_map once ((same a).mp memberA) memberB (le_antisymm below above)

end Opening

end MoteKernel
