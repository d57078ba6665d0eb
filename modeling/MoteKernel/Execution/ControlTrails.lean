import MoteKernel.Execution.FrontierExact

/-!
# The history of a run of control

The active nodes and the selected routes of every superstep of an all-success
run. The pending arrivals of a frontier are the earlier activations whose Join
occurrence is still to come, so the history alone determines every step, and the
ledger of a state lists exactly the activations of its history.
-/

namespace MoteKernel
open Checked Canonical

variable {τ : Type}

/-! ## Trails -/

/-- The marking of one superstep of a history: an arrival is pending when its source was active
before and its occurrence is not reached yet. -/
def historyMarking (active : Nat → GraphNodeId → Prop) (superstep : Nat) : Marking where
  active := active superstep
  pending key := ∃ earlier < superstep, active earlier key.source ∧
    earlier + key.join.offset key.source = superstep + key.remaining

/-- A source has arrived at an occurrence: it was active at the superstep its offset asks for. -/
theorem historyMarking_arrives {active : Nat → GraphNodeId → Prop} {superstep remaining : Nat}
    {join : CompiledJoin} {source : GraphNodeId} :
    (historyMarking active superstep).Arrives join remaining source ↔
      ∃ earlier ≤ superstep, active earlier source ∧
        earlier + join.offset source = superstep + remaining := by
  constructor
  · rintro (⟨earlier, before, here, place⟩ | ⟨offset, here⟩)
    · exact ⟨earlier, by omega, here, place⟩
    · exact ⟨superstep, le_rfl, here, by omega⟩
  · rintro ⟨earlier, before, here, place⟩
    by_cases now : earlier = superstep
    · subst now
      exact .inr ⟨by omega, here⟩
    · exact .inl ⟨earlier, by omega, here, place⟩

theorem historyMarking_congr {active active' : Nat → GraphNodeId → Prop} {superstep : Nat}
    (same : ∀ earlier ≤ superstep, active' earlier = active earlier) :
    historyMarking active' superstep = historyMarking active superstep := by
  unfold historyMarking
  rw [same superstep le_rfl]
  congr 1
  funext key
  rw [eq_iff_iff]
  constructor
  · rintro ⟨earlier, before, here, place⟩
    exact ⟨earlier, before, by rw [← same earlier (by omega)]; exact here, place⟩
  · rintro ⟨earlier, before, here, place⟩
    exact ⟨earlier, before, by rw [same earlier (by omega)]; exact here, place⟩

/-- The active nodes and selected routes of the supersteps of a run, up to the last. -/
structure Trail (relation : FrontierRelation) (last : Nat) (active : Nat → GraphNodeId → Prop)
    (choice : Nat → GraphNodeId → Route) : Prop where
  known : ∀ superstep node, active superstep node → node ∈ relation.nodes ∧ superstep ≤ last
  start : ∀ node, active 0 node ↔ node ∈ relation.entries
  moves : ∀ superstep < last, relation.Moves (historyMarking active superstep) (choice superstep)
    (historyMarking active (superstep + 1))
  selects : ∀ superstep node, active superstep node →
    choice superstep node ∈ relation.options node

/-- What activates a node: the cause holds in the history. -/
def CausedAt (active : Nat → GraphNodeId → Prop) (choice : Nat → GraphNodeId → Route)
    (superstep : Nat) : SuccessorCause → Prop
  | .direct source => active superstep source
  | .routed source route => active superstep source ∧ choice superstep source = some route
  | .joined join => ∀ source ∈ join.identity.sources, ∃ earlier ≤ superstep, active earlier source ∧
      earlier + join.offset source = superstep + 1

section Trails

variable {relation : FrontierRelation} {last : Nat} {active : Nat → GraphNodeId → Prop}
  {choice : Nat → GraphNodeId → Route}

theorem historyMarking_causes {superstep : Nat} {cause : SuccessorCause} :
    (historyMarking active superstep).Causes (choice superstep) cause ↔
      CausedAt active choice superstep cause := by
  cases cause with
  | direct source => exact Iff.rfl
  | routed source route => exact Iff.rfl
  | joined join => exact forall₂_congr (fun source _ => historyMarking_arrives)

/-- A node is active after a superstep exactly when one of its causes holds there. -/
theorem Trail.active_succ (trail : Trail relation last active choice) {superstep : Nat}
    (before : superstep < last) {target : GraphNodeId} (known : target ∈ relation.nodes) :
    active (superstep + 1) target ↔
      ∃ cause ∈ relation.successorCauses target, CausedAt active choice superstep cause := by
  have moved := (trail.moves superstep before).active target known
  rw [show active (superstep + 1) target ↔
    (historyMarking active (superstep + 1)).active target from Iff.rfl, moved]
  exact exists_congr (fun cause => and_congr_right (fun _ => historyMarking_causes))

/-- Every activation after the first superstep has a cause. -/
theorem Trail.caused (trail : Trail relation last active choice) {superstep : Nat}
    {target : GraphNodeId} (here : active (superstep + 1) target) :
    ∃ cause ∈ relation.successorCauses target, CausedAt active choice superstep cause := by
  obtain ⟨known, bound⟩ := trail.known _ _ here
  exact (trail.active_succ (by omega) known).mp here

/-- When one source of a Join arrives for the next superstep, all of them have arrived. -/
theorem Trail.arrived (trail : Trail relation last active choice) {superstep : Nat}
    (before : superstep < last) {join : CompiledJoin} (member : join ∈ relation.joins)
    {source : GraphNodeId} (inside : source ∈ join.identity.sources) {earlier : Nat}
    (here : active earlier source) (place : earlier + join.offset source = superstep + 1) :
    ∀ other ∈ join.identity.sources, ∃ earlier ≤ superstep, active earlier other ∧
      earlier + join.offset other = superstep + 1 := by
  have positive := join.offset_positive inside
  have complete := (trail.moves superstep before).due join member source inside
    (historyMarking_arrives.mpr ⟨earlier, by omega, here, place⟩)
  intro other otherInside
  exact historyMarking_arrives.mp (complete other otherInside)

end Trails

/-! ## The history of a state -/

/-- The state is the last one of the history, and its ledger lists the activations. -/
structure Recorded (relation : FrontierRelation) (state : GraphRunState)
    (active : Nat → GraphNodeId → Prop) (choice : Nat → GraphNodeId → Route) : Prop where
  trail : Trail relation state.superstep active choice
  current : ∀ node, active state.superstep node ↔ (stateMarking state).active node
  chosen : ∀ node, active state.superstep node →
    choice state.superstep node = stateChoice state node
  ledger : ∀ reference, reference ∈ state.settledReferences ↔ ∃ superstep node,
    active superstep node ∧
      reference = activationReference state.runId superstep node (choice superstep node)
  pending : ∀ key ∈ relation.joinKeys, (stateMarking state).pending key ↔
    (historyMarking active state.superstep).pending key

section Recorded

variable {graph : CompiledGraph τ} {relation : FrontierRelation} {declared : JoinDeclarations}
  {state next : GraphRunState} {arrivals : JoinArrivals} {active : Nat → GraphNodeId → Prop}
  {choice : Nat → GraphNodeId → Route}

theorem Recorded.agree (recorded : Recorded relation state active choice) :
    relation.Agree (stateMarking state) (historyMarking active state.superstep) :=
  ⟨fun node _ => (recorded.current node).symm, recorded.pending⟩

/-- An activation is one of the ledger. -/
theorem Recorded.settled (recorded : Recorded relation state active choice) {superstep : Nat}
    {node : GraphNodeId} (here : active superstep node) :
    ∃ reference ∈ state.settledReferences, reference.activation = ⟨state.runId, superstep, node⟩ :=
  ⟨_, (recorded.ledger _).mpr ⟨superstep, node, here, rfl⟩, rfl⟩

/-- The run activated the node. -/
def ActivatedBy (state : GraphRunState) (node : GraphNodeId) : Prop :=
  ∃ reference ∈ state.settledReferences, reference.activation.nodeId = node

/-- The run activated the node, which selected the route. -/
def SelectedBy (state : GraphRunState) (node : GraphNodeId) (route : GraphRouteId) : Prop :=
  ∃ reference ∈ state.settledReferences, reference.activation.nodeId = node ∧
    reference.route = some route

theorem Recorded.activatedBy (recorded : Recorded relation state active choice)
    {node : GraphNodeId} : ActivatedBy state node ↔ ∃ superstep, active superstep node := by
  constructor
  · rintro ⟨reference, member, rfl⟩
    obtain ⟨superstep, node, here, rfl⟩ := (recorded.ledger _).mp member
    exact ⟨superstep, here⟩
  · rintro ⟨superstep, here⟩
    exact ⟨_, (recorded.ledger _).mpr ⟨superstep, node, here, rfl⟩, rfl⟩

theorem Recorded.selectedBy (recorded : Recorded relation state active choice)
    {node : GraphNodeId} {route : GraphRouteId} : SelectedBy state node route ↔
      ∃ superstep, active superstep node ∧ choice superstep node = some route := by
  constructor
  · rintro ⟨reference, member, rfl, selects⟩
    obtain ⟨superstep, node, here, rfl⟩ := (recorded.ledger _).mp member
    exact ⟨superstep, here, selects⟩
  · rintro ⟨superstep, here, chosen⟩
    exact ⟨_, (recorded.ledger _).mpr ⟨superstep, node, here, rfl⟩, rfl, chosen⟩

/-- The activation of a source of the Join that arrived at the occurrence of a target superstep. -/
def ArrivesAt (state : GraphRunState) (join : CompiledJoin) (target : Nat) (source : GraphNodeId)
    (reference : ActivationReference) : Prop :=
  reference ∈ state.settledReferences ∧ reference.activation.nodeId = source ∧
    join.occurrenceFor reference.activation = .ok ⟨join.identity, state.runId, target⟩

theorem Recorded.arrivesAt (recorded : Recorded relation state active choice) {join : CompiledJoin}
    {target : Nat} {source : GraphNodeId} (inside : source ∈ join.identity.sources)
    {reference : ActivationReference} : ArrivesAt state join target source reference ↔
      ∃ superstep, active superstep source ∧ superstep + join.offset source = target ∧
        reference = activationReference state.runId superstep source (choice superstep source) := by
  rw [ArrivesAt, CompiledJoin.occurrenceFor_eq_ok]
  constructor
  · rintro ⟨member, rfl, -, same⟩
    obtain ⟨superstep, node, here, rfl⟩ := (recorded.ledger _).mp member
    exact ⟨superstep, here, (congrArg GraphJoinOccurrenceIdentity.targetSuperstep same).symm, rfl⟩
  · rintro ⟨superstep, here, rfl, rfl⟩
    exact ⟨(recorded.ledger _).mpr ⟨superstep, source, here, rfl⟩, rfl, inside, rfl⟩

theorem Starts.recorded (carries : Carries graph relation)
    (starts : Starts graph state) (shape : RunShape graph declared state) :
    ∃ active choice, Recorded relation state active choice := by
  refine ⟨fun superstep node => superstep = 0 ∧ (stateMarking state).active node,
    fun _ => stateChoice state, ⟨?_, ?_, ?_, ?_⟩, ?_, ?_, ?_, ?_⟩
  · rintro superstep node ⟨rfl, here⟩
    exact ⟨FrontierRelation.mem_nodes.mpr ((carries.nodes node).mp (shape.active_known here)),
      Nat.zero_le _⟩
  · intro node
    show 0 = 0 ∧ node ∈ state.frontier.nodes.map (·.nodeId) ↔ _
    rw [opened_nodeIds starts.opens, List.map_map, carries.entries, and_iff_right rfl]
    exact iff_of_eq (congrArg _ (List.map_id _))
  · intro superstep before
    rw [starts.superstep] at before
    cases before
  · rintro superstep node ⟨-, here⟩
    rw [← carries.options]
    exact shape.selects here
  · intro node
    rw [and_iff_right starts.superstep]
  · intro node _
    rfl
  · intro reference
    rw [starts.ledger, shape.publication]
    constructor
    · rintro ⟨node, here, rfl⟩
      exact ⟨0, node, ⟨rfl, here⟩, by rw [starts.superstep]⟩
    · rintro ⟨superstep, node, ⟨rfl, here⟩, rfl⟩
      exact ⟨node, here, by rw [starts.superstep]⟩
  · intro key _
    refine iff_of_false ?_ ?_
    · intro pending
      obtain ⟨reference, arrived, -⟩ := mem_sourceIds.mp pending
      rw [starts.progress] at arrived
      cases arrived
    · rintro ⟨earlier, before, -⟩
      rw [starts.superstep] at before
      cases before

/-- The next frontier continues the history. -/
theorem Recorded.advance (runs : RunsOn graph relation declared state arrivals)
    (recorded : Recorded relation state active choice)
    (moves : relation.Moves (stateMarking state) (stateChoice state)
      (relation.after (stateMarking state) (stateChoice state)))
    (marked : relation.Agree (stateMarking next)
      (relation.after (stateMarking state) (stateChoice state)))
    (shape : RunShape graph declared next) (run : next.runId = state.runId)
    (later : next.superstep = state.superstep + 1)
    (ledger : ∀ reference, reference ∈ next.settledReferences ↔
      reference ∈ state.settledReferences ∨ reference ∈ frontierPublications next) :
    ∃ active choice, Recorded relation next active choice := by
  have wellFormed := runs.wellFormed
  have trail := recorded.trail
  let active' : Nat → GraphNodeId → Prop := fun superstep node =>
    if superstep = next.superstep then (stateMarking next).active node else active superstep node
  let choice' : Nat → GraphNodeId → Route := fun superstep node =>
    if superstep = next.superstep then stateChoice next node else choice superstep node
  have past : ∀ earlier ≤ state.superstep, active' earlier = active earlier := by
    intro earlier before
    funext node
    exact if_neg (by omega)
  have routes : ∀ earlier ≤ state.superstep, choice' earlier = choice earlier := by
    intro earlier before
    funext node
    exact if_neg (by omega)
  have present : active' next.superstep = (stateMarking next).active := by
    funext node
    exact if_pos rfl
  have selected : choice' next.superstep = stateChoice next := by
    funext node
    exact if_pos rfl
  -- the pending arrivals that the step determines are those of the longer history
  have pending : ∀ key ∈ relation.joinKeys, (stateMarking next).pending key ↔
      (historyMarking active' next.superstep).pending key := by
    intro key member
    obtain ⟨join, low, high, inside⟩ := FrontierRelation.mem_joinKeys.mp member
    rw [marked.pending key member]
    show key.remaining < FrontierRelation.maximum key.join ∧ _ ↔ _
    have arrives : key.remaining < FrontierRelation.maximum key.join →
        ((stateMarking state).Arrives key.join (key.remaining + 1) key.source ↔
          ∃ earlier ≤ state.superstep, active earlier key.source ∧
            earlier + key.join.offset key.source = state.superstep + (key.remaining + 1)) := by
      intro less
      rw [recorded.agree.arrives wellFormed join inside (by omega) (by omega)]
      exact historyMarking_arrives
    constructor
    · rintro ⟨less, arrived⟩
      obtain ⟨earlier, before, here, place⟩ := (arrives less).mp arrived
      refine ⟨earlier, by omega, ?_, by omega⟩
      rw [past earlier before]
      exact here
    · rintro ⟨earlier, before, here, place⟩
      rw [past earlier (by omega)] at here
      have bound := FrontierRelation.offset_le_maximum key.join key.source
      have less : key.remaining < FrontierRelation.maximum key.join := by omega
      exact ⟨less, (arrives less).mpr ⟨earlier, by omega, here, by omega⟩⟩
  refine ⟨active', choice', ⟨?_, ?_, ?_, ?_⟩, ?_, ?_, ?_, pending⟩
  · intro superstep node here
    by_cases now : superstep = next.superstep
    · rw [now, present] at here
      exact ⟨FrontierRelation.mem_nodes.mpr ((runs.carries.nodes node).mp
        (shape.active_known here)), now.le⟩
    · have old : active superstep node := by rwa [show active' superstep node ↔ _ from
        iff_of_eq (if_neg now)] at here
      obtain ⟨known, bound⟩ := trail.known superstep node old
      exact ⟨known, by omega⟩
  · intro node
    rw [past 0 (Nat.zero_le _)]
    exact trail.start node
  · intro superstep before
    by_cases final : superstep = state.superstep
    · subst final
      rw [historyMarking_congr past, routes _ le_rfl, ← later]
      refine moves.congr wellFormed recorded.agree ?_ ?_
      · refine ⟨fun node known => ?_, fun key member => ?_⟩
        · rw [← marked.active node known]
          exact iff_of_eq (congrFun present node).symm
        · rw [← marked.pending key member]
          exact pending key member
      · intro node _ here
        exact (recorded.chosen node ((recorded.current node).mpr here)).symm
    · rw [historyMarking_congr (fun earlier early => past earlier (by omega)),
        historyMarking_congr (fun earlier early => past earlier (by omega)),
        routes _ (by omega)]
      exact trail.moves superstep (by omega)
  · intro superstep node here
    by_cases now : superstep = next.superstep
    · rw [now, present] at here
      rw [now, selected, ← runs.carries.options]
      exact shape.selects here
    · have old : active superstep node := by rwa [show active' superstep node ↔ _ from
        iff_of_eq (if_neg now)] at here
      rw [show choice' superstep node = choice superstep node from if_neg now]
      exact trail.selects superstep node old
  · intro node
    rw [present]
  · intro node _
    rw [selected]
  · intro reference
    rw [ledger, recorded.ledger, shape.publication, run]
    constructor
    · rintro (⟨superstep, node, here, rfl⟩ | ⟨node, here, rfl⟩)
      · have bound := (trail.known superstep node here).2
        refine ⟨superstep, node, ?_, ?_⟩
        · rw [past superstep bound]
          exact here
        · rw [routes superstep bound]
      · refine ⟨next.superstep, node, ?_, ?_⟩
        · rw [present]
          exact here
        · rw [selected]
    · rintro ⟨superstep, node, here, rfl⟩
      by_cases now : superstep = next.superstep
      · rw [now, present] at here
        exact .inr ⟨node, here, by rw [now, selected]⟩
      · have old : active superstep node := by rwa [show active' superstep node ↔ _ from
          iff_of_eq (if_neg now)] at here
        exact .inl ⟨superstep, node, old, by
          rw [show choice' superstep node = choice superstep node from if_neg now]⟩

/-- Every frontier of an all-success run has a history. -/
theorem ControlRun.recorded (wellFormed : relation.WellFormed) (carries : Carries graph relation)
    (run : ControlRun graph state) : ∃ active choice, Recorded relation state active choice := by
  obtain ⟨declared, declares⟩ := declaredJoins_exists (carries.declarable wellFormed)
  induction run with
  | start starts settles =>
      have shape : RunShape graph declared _ := starts.shape wellFormed carries settles
      exact starts.recorded carries shape
  | @advance state next control before resolves follows settles ih =>
      obtain ⟨active, choice, recorded⟩ := ih
      obtain ⟨shape, -⟩ := before.marked wellFormed carries declares
      obtain ⟨arrivals, pending⟩ := shape.pending
      have runs : RunsOn graph relation declared state arrivals :=
        ⟨wellFormed, carries, declares, shape, pending⟩
      obtain ⟨resolvable, rfl⟩ := (resolvesTo_iff declares pending control).mp resolves
      exact recorded.advance runs ((resolvable_iff runs).mp resolvable)
        (follows.marking runs resolvable rfl rfl) (follows.shape runs resolvable rfl rfl settles)
        follows.run follows.superstep follows.ledger

end Recorded

end MoteKernel
