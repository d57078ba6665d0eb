import Mathlib.Data.List.Perm.Subperm
import MoteKernel.State.History

/-!
# Join progress over a history

A Join occurrence gathers the arrivals of its sources over several supersteps and
is consumed once, by the command that leaves the superstep before its target. An
advance carries, extends and consumes the records at once; this module says what
one command does to them and what follows for a whole history.
-/

namespace MoteKernel
open Checked Canonical Trace

/-- The pending records of a run, none before the start. -/
def joinsOf (state : Option GraphRunState) : List GraphJoinProgress :=
  (state.map (·.joinProgress)).getD []

/-- The occurrences that have a pending record. -/
def occurrencesOf (state : Option GraphRunState) : List GraphJoinOccurrenceIdentity :=
  (joinsOf state).map (·.occurrence)

/-- The recorded arrivals, each with its occurrence. -/
def arrivalsOf (state : Option GraphRunState) :
    List (GraphJoinOccurrenceIdentity × ActivationReference) :=
  (joinsOf state).flatMap (fun progress =>
    progress.arrived.map (fun reference => (progress.occurrence, reference)))

/-- The Join occurrence that admits one activation. -/
def GraphFrontierActivation.joinOccurrence (activation : GraphFrontierActivation) :
    Option GraphJoinOccurrenceIdentity :=
  match activation.cause with
  | .start => none
  | .routed cause => cause.joinOccurrence

/-- The occurrences whose target one command activates. -/
def GraphRunCommand.activatedJoins : GraphRunCommand → List GraphJoinOccurrenceIdentity
  | .advance command => command.activations.filterMap (·.joinOccurrence)
  | _ => []

/-- The occurrences one command consumes explicitly. -/
def GraphRunCommand.consumedJoins : GraphRunCommand → List GraphJoinOccurrenceIdentity
  | .advance command => command.consumedJoinProgress
  | .complete command => command.consumedJoinProgress
  | _ => []

/-- Every occurrence one command consumes, by activating its target or explicitly. -/
def GraphRunCommand.consumptions (command : GraphRunCommand) : List GraphJoinOccurrenceIdentity :=
  command.activatedJoins ++ command.consumedJoins

/-- The references name every source once and nothing else. -/
def CoversOnce (references : List ActivationReference) (sources : List GraphNodeId) : Prop :=
  (sourceIds references).Nodup ∧ SameSources references sources

/-! ## What one advance does -/

section Advance

variable {state : GraphRunState} {command : AdvanceGraphFrontier}
  {consumes : List (Option GraphJoinOccurrenceIdentity)}

/-- The cause of an activation that a Join admits. -/
theorem Advances.joined (advances : Advances state command consumes)
    {activation : GraphFrontierActivation} (member : activation ∈ command.activations)
    {occurrence : GraphJoinOccurrenceIdentity}
    (join : activation.joinOccurrence = some occurrence) :
    ∃ cause consumed, activation.cause = .routed cause ∧
      cause.joinOccurrence = some occurrence ∧ consumed ∈ consumes ∧
      NextCause state activation.nodeId cause consumed := by
  obtain ⟨consumed, consumedMember, cause, routed, next⟩ :=
    forall₂_mem_left advances.activations member
  refine ⟨cause, consumed, routed, ?_, consumedMember, next⟩
  rw [GraphFrontierActivation.joinOccurrence, routed] at join
  exact join

/-- An activation that consumes a pending record names its occurrence. -/
theorem Advances.consumed_activated (advances : Advances state command consumes)
    {occurrence : GraphJoinOccurrenceIdentity} (member : occurrence ∈ consumes.filterMap id) :
    occurrence ∈ (GraphRunCommand.advance command).activatedJoins := by
  obtain ⟨consumed, consumedMember, same⟩ := List.mem_filterMap.mp member
  rw [id_eq] at same
  subst same
  obtain ⟨activation, activationMember, cause, routed, next⟩ :=
    forall₂_mem_right advances.activations consumedMember
  refine List.mem_filterMap.mpr ⟨activation, activationMember, ?_⟩
  rw [GraphFrontierActivation.joinOccurrence, routed]
  show cause.joinOccurrence = some occurrence
  cases join : cause.joinOccurrence with
  | none => exact absurd (next.direct join).2.2 (by simp)
  | some other =>
      obtain ⟨item, -, same⟩ := Option.map_eq_some_iff.mp (next.joined other join).2.2.2.2.2.symm
      rw [same]

/-- An occurrence that is both activated and pending is among the consumed records. -/
theorem Advances.activated_consumed (advances : Advances state command consumes)
    {occurrence : GraphJoinOccurrenceIdentity}
    (activated : occurrence ∈ (GraphRunCommand.advance command).activatedJoins)
    {progress : GraphJoinProgress}
    (pending : progressOf state.joinProgress occurrence = some progress) :
    occurrence ∈ consumes.filterMap id := by
  obtain ⟨activation, member, join⟩ := List.mem_filterMap.mp activated
  obtain ⟨cause, consumed, -, joins, consumedMember, next⟩ := advances.joined member join
  have consumedHere := (next.joined occurrence joins).2.2.2.2.2
  rw [pending, Option.map_some] at consumedHere
  exact List.mem_filterMap.mpr ⟨consumed, consumedMember, consumedHere⟩

/-- Every occurrence an advance consumes has the next superstep as its target. -/
theorem Advances.target (advances : Advances state command consumes)
    {occurrence : GraphJoinOccurrenceIdentity}
    (member : occurrence ∈ (GraphRunCommand.advance command).consumptions) :
    occurrence.targetSuperstep = state.superstep + 1 := by
  rcases List.mem_append.mp member with activated | explicit
  · obtain ⟨activation, activationMember, join⟩ := List.mem_filterMap.mp activated
    obtain ⟨cause, consumed, -, joins, -, next⟩ := advances.joined activationMember join
    exact (next.joined occurrence joins).2.2.1
  · obtain ⟨progress, consumed⟩ := advances.delta.consumption.consumed occurrence explicit
    exact consumed.step

/-- An advance consumes no occurrence twice: distinct activations have distinct targets, and an
explicitly consumed record is not one that an activation consumes. -/
theorem Advances.consumptions_nodup (advances : Advances state command consumes) :
    (GraphRunCommand.advance command).consumptions.Nodup := by
  refine List.nodup_append.mpr ⟨?_, ?_, ?_⟩
  · have targets : command.activations.Pairwise (fun a b => a.nodeId ≠ b.nodeId) :=
      (List.pairwise_map.mp advances.ordered).imp (fun h => h.ne)
    refine List.Pairwise.filterMap _ ?_ (List.pairwise_iff_forall_sublist.mpr
      (fun {a b} sub => (⟨(List.pairwise_iff_forall_sublist.mp targets) sub,
        sub.subset (by simp), sub.subset (by simp)⟩ :
          a.nodeId ≠ b.nodeId ∧ a ∈ command.activations ∧ b ∈ command.activations)))
    intro a b apart occurrence joinA other joinB same
    subst same
    obtain ⟨different, memberA, memberB⟩ := apart
    obtain ⟨causeA, _, -, joinsA, -, nextA⟩ := advances.joined memberA joinA
    obtain ⟨causeB, _, -, joinsB, -, nextB⟩ := advances.joined memberB joinB
    rw [← (nextA.joined _ joinsA).2.1, ← (nextB.joined _ joinsB).2.1] at different
    exact different rfl
  · exact nodup_of_strict advances.delta.consumption.ordered
  · intro occurrence activated other explicit same
    subst same
    obtain ⟨progress, consumed⟩ := advances.delta.consumption.consumed occurrence explicit
    exact advances.delta.once occurrence (advances.activated_consumed activated consumed.found)
      explicit

/-- A record an advance declares contains only what was recorded and current successes. -/
theorem Advances.recorded (advances : Advances state command consumes)
    {progress : GraphJoinProgress} (member : progress ∈ command.joinProgress)
    {reference : ActivationReference} (arrived : reference ∈ progress.arrived) :
    reference ∈ arrivalsAt state.joinProgress progress.occurrence ∨
      reference ∈ frontierPublications state := by
  cases found : progressOf state.joinProgress progress.occurrence with
  | none => exact .inr (advances.delta.fresh progress member found arrived)
  | some prior =>
      rw [arrivalsAt, found]
      exact (advances.delta.kept progress member prior found).2.2 reference arrived

/-- An advance keeps every arrival of an occurrence it does not consume. -/
theorem Advances.kept (advances : Advances state command consumes)
    {progress : GraphJoinProgress} (member : progress ∈ state.joinProgress)
    (unconsumed : progress.occurrence ∉ (GraphRunCommand.advance command).consumptions) :
    ∃ updated ∈ command.joinProgress, updated.occurrence = progress.occurrence ∧
      progress.arrived ⊆ updated.arrived := by
  have distinct := advances.delta.consumption.distinct
  rcases advances.delta.retained progress member with carried | consumed
  · obtain ⟨updated, updatedMember, same⟩ := List.mem_map.mp carried
    have found : progressOf state.joinProgress updated.occurrence = some progress :=
      (progressOf_eq_some distinct).mpr ⟨member, same.symm⟩
    exact ⟨updated, updatedMember, same,
      (advances.delta.kept updated updatedMember progress found).2.1⟩
  · rw [List.mem_append] at consumed
    exfalso
    apply unconsumed
    apply List.mem_append.mpr
    rcases consumed with activated | explicit
    · exact .inl (advances.consumed_activated activated)
    · exact .inr explicit

end Advance

/-! ## What one command does -/

theorem mem_joinsOf_some {state : GraphRunState} {progress : GraphJoinProgress} :
    progress ∈ joinsOf (some state) ↔ progress ∈ state.joinProgress := Iff.rfl

theorem mem_arrivalsOf {state : Option GraphRunState}
    {arrival : GraphJoinOccurrenceIdentity × ActivationReference} :
    arrival ∈ arrivalsOf state ↔
      ∃ progress ∈ joinsOf state, progress.occurrence = arrival.1 ∧
        arrival.2 ∈ progress.arrived := by
  obtain ⟨occurrence, reference⟩ := arrival
  simp only [arrivalsOf, List.mem_flatMap, List.mem_map, Prod.mk.injEq]
  constructor
  · rintro ⟨progress, member, item, arrived, rfl, rfl⟩
    exact ⟨progress, member, rfl, arrived⟩
  · rintro ⟨progress, member, rfl, arrived⟩
    exact ⟨progress, member, reference, arrived, rfl, rfl⟩

theorem mem_arrivalsAt {state : GraphRunState} (valid : ValidRun state)
    {occurrence : GraphJoinOccurrenceIdentity} {reference : ActivationReference} :
    reference ∈ arrivalsAt state.joinProgress occurrence ↔
      (occurrence, reference) ∈ arrivalsOf (some state) := by
  rw [mem_arrivalsOf, arrivalsAt]
  cases found : progressOf state.joinProgress occurrence with
  | none =>
      rw [progressOf_eq_none] at found
      simp only [List.not_mem_nil, false_iff, not_exists, not_and]
      intro progress member same _
      exact found (List.mem_map.mpr ⟨progress, member, same⟩)
  | some item =>
      obtain ⟨member, same⟩ := (progressOf_eq_some valid.joins.distinct).mp found
      constructor
      · intro arrived
        exact ⟨item, member, same, arrived⟩
      · rintro ⟨progress, progressMember, sameProgress, arrived⟩
        have here : progress = item := List.inj_on_of_nodup_map valid.joins.distinct
          progressMember member (sameProgress.trans same.symm)
        exact here ▸ arrived

/-- The advance of this event recorded this arrival, from a success of the superstep it leaves. -/
def RecordsArrival (event : RunEvent)
    (arrival : GraphJoinOccurrenceIdentity × ActivationReference) : Prop :=
  ∃ state command, event.before = some state ∧ event.command = .advance command ∧
    arrival.2 ∈ frontierPublications state ∧
    ∃ progress ∈ command.joinProgress, progress.occurrence = arrival.1 ∧
      arrival.2 ∈ progress.arrived

/-- What an accepted command does to the Join records of a run. -/
structure JoinStep (event : RunEvent) : Prop where
  records : ∀ arrival ∈ arrivalsOf event.after,
    arrival ∈ arrivalsOf event.before ∨ RecordsArrival event arrival
  keeps : ∀ arrival ∈ arrivalsOf event.before,
    arrival ∈ arrivalsOf event.after ∨ arrival.1 ∈ event.command.consumptions
  keepsOccurrence : ∀ occurrence ∈ occurrencesOf event.before,
    occurrence ∈ occurrencesOf event.after ∨ occurrence ∈ event.command.consumptions
  once : event.command.consumptions.Nodup
  target : ∀ occurrence ∈ event.command.consumptions, ∃ state ∈ event.before,
    occurrence.targetSuperstep = state.superstep + 1
  passes : event.command.consumptions ≠ [] → ∃ state ∈ event.before, ∃ updated ∈ event.after,
    updated.superstep = state.superstep + 1 ∨ updated.status = .completed

/-- A command that neither advances nor completes leaves the records alone. -/
theorem transition_joinProgress {state updated : GraphRunState} {command : GraphRunCommand}
    (moved : transition state command = .ok updated)
    (advance : ∀ c, command ≠ .advance c) (complete : ∀ c, command ≠ .complete c) :
    updated.joinProgress = state.joinProgress ∧ command.consumptions = [] := by
  cases command with
  | start command => simp [transition] at moved
  | claim command =>
      obtain ⟨-, rfl⟩ := (claimGraphExecution_eq_ok _ _ _).mp moved
      exact ⟨rfl, rfl⟩
  | fence command =>
      obtain ⟨-, -, rfl⟩ := (fenceGraphExecution_eq_ok _ _ _).mp moved
      exact ⟨rfl, rfl⟩
  | settle command =>
      obtain ⟨settlement, ledger, cursor, resources, -, rfl⟩ :=
        (settleGraphNode_eq_ok _ _ _).mp moved
      exact ⟨rfl, rfl⟩
  | resume command =>
      obtain ⟨nodes, -, rfl⟩ := (resumeGraphNodes_eq_ok _ _ _).mp moved
      exact ⟨rfl, rfl⟩
  | advance command => exact absurd rfl (advance command)
  | complete command => exact absurd rfl (complete command)
  | abort command =>
      obtain ⟨-, -, rfl⟩ := (abortGraphRun_eq_ok _ _ _).mp moved
      exact ⟨rfl, rfl⟩

/-- A completion consumes every pending record: as many as there are, all pending, all
different. -/
theorem Completes.consumes_all {state : GraphRunState} {command : CompleteGraphFrontier}
    (completes : Completes state command) {occurrence : GraphJoinOccurrenceIdentity}
    (pending : occurrence ∈ state.joinProgress.map (·.occurrence)) :
    occurrence ∈ command.consumedJoinProgress := by
  have consumption := completes.consumption
  have known : command.consumedJoinProgress ⊆ state.joinProgress.map (·.occurrence) := by
    intro consumed member
    obtain ⟨progress, here⟩ := consumption.consumed consumed member
    obtain ⟨inside, same⟩ := (progressOf_eq_some consumption.distinct).mp here.found
    exact List.mem_map.mpr ⟨progress, inside, same⟩
  have once : command.consumedJoinProgress.Nodup := nodup_of_strict consumption.ordered
  have perm := (List.subperm_of_subset once known).perm_of_length_le
    (by rw [List.length_map, completes.all])
  exact perm.mem_iff.mpr pending

theorem advance_joinStep {event : RunEvent} {state : GraphRunState}
    {command : AdvanceGraphFrontier} {consumes : List (Option GraphJoinOccurrenceIdentity)}
    (advances : Advances state command consumes) (valid : ValidRun state)
    (before : event.before = some state) (isAdvance : event.command = .advance command)
    (after : event.after = some { state with
      superstep := state.superstep + 1
      frontier := pendingFrontier command.activations
      joinProgress := command.joinProgress
      completionRoute := none
      revision := state.revision + 1 }) : JoinStep event := by
  have joins : joinsOf event.after = command.joinProgress := by rw [after]; rfl
  have joinsBefore : joinsOf event.before = state.joinProgress := by rw [before]; rfl
  refine ⟨?_, ?_, ?_, ?_, ?_, ?_⟩
  · intro arrival inside
    obtain ⟨progress, member, same, arrived⟩ := mem_arrivalsOf.mp inside
    rw [joins] at member
    rcases advances.recorded member arrived with old | current
    · rw [mem_arrivalsAt valid, same] at old
      exact .inl (before ▸ old)
    · exact .inr ⟨state, command, before, isAdvance, current, progress, member, same, arrived⟩
  · intro arrival inside
    obtain ⟨progress, member, same, arrived⟩ := mem_arrivalsOf.mp inside
    rw [joinsBefore] at member
    by_cases consumed : arrival.1 ∈ event.command.consumptions
    · exact .inr consumed
    · rw [← same, isAdvance] at consumed
      obtain ⟨updated, updatedMember, sameUpdated, kept⟩ := advances.kept member consumed
      rw [← joins] at updatedMember
      exact .inl (mem_arrivalsOf.mpr
        ⟨updated, updatedMember, sameUpdated.trans same, kept arrived⟩)
  · intro occurrence inside
    obtain ⟨progress, member, same⟩ := List.mem_map.mp inside
    rw [joinsBefore] at member
    by_cases consumed : occurrence ∈ event.command.consumptions
    · exact .inr consumed
    · rw [← same, isAdvance] at consumed
      obtain ⟨updated, updatedMember, sameUpdated, -⟩ := advances.kept member consumed
      rw [← joins] at updatedMember
      exact .inl (List.mem_map.mpr ⟨updated, updatedMember, sameUpdated.trans same⟩)
  · rw [isAdvance]
    exact advances.consumptions_nodup
  · intro occurrence member
    rw [isAdvance] at member
    exact ⟨state, before, advances.target member⟩
  · intro _
    exact ⟨state, before, _, after, .inl rfl⟩

theorem complete_joinStep {event : RunEvent} {state : GraphRunState}
    {command : CompleteGraphFrontier} (completes : Completes state command)
    (before : event.before = some state) (isComplete : event.command = .complete command)
    (after : event.after = some { state with
      status := .completed
      frontier := ⟨[]⟩
      joinProgress := []
      completionRoute := command.completionRoute
      revision := state.revision + 1 }) : JoinStep event := by
  have joins : joinsOf event.after = [] := by rw [after]; rfl
  have consumptions : event.command.consumptions = command.consumedJoinProgress := by
    rw [isComplete]; rfl
  have consumed : ∀ occurrence ∈ occurrencesOf event.before,
      occurrence ∈ event.command.consumptions := by
    intro occurrence pending
    rw [consumptions]
    rw [before] at pending
    exact completes.consumes_all pending
  refine ⟨?_, ?_, ?_, ?_, ?_, ?_⟩
  · intro arrival inside
    obtain ⟨progress, member, -⟩ := mem_arrivalsOf.mp inside
    rw [joins] at member
    cases member
  · intro arrival inside
    obtain ⟨progress, member, same, -⟩ := mem_arrivalsOf.mp inside
    exact .inr (consumed arrival.1 (List.mem_map.mpr ⟨progress, member, same⟩))
  · intro occurrence pending
    exact .inr (consumed occurrence pending)
  · rw [consumptions]
    exact nodup_of_strict completes.consumption.ordered
  · intro occurrence member
    rw [consumptions] at member
    obtain ⟨progress, here⟩ := completes.consumption.consumed occurrence member
    exact ⟨state, before, here.step⟩
  · intro _
    exact ⟨state, before, _, after, .inr rfl⟩

theorem Accepted.joinStep {event : RunEvent} (accepted : Accepted reduceStep event) :
    JoinStep event := by
  have quiet : joinsOf event.after = joinsOf event.before ∧ event.command.consumptions = [] →
      JoinStep event := by
    rintro ⟨same, none⟩
    have arrivals : arrivalsOf event.after = arrivalsOf event.before := by
      rw [arrivalsOf, same, arrivalsOf]
    have occurrences : occurrencesOf event.after = occurrencesOf event.before := by
      rw [occurrencesOf, same, occurrencesOf]
    refine ⟨?_, ?_, ?_, ?_, ?_, ?_⟩
    · intro arrival inside
      exact .inl (arrivals ▸ inside)
    · intro arrival inside
      exact .inl (arrivals ▸ inside)
    · intro occurrence inside
      exact .inl (occurrences ▸ inside)
    · rw [none]
      exact List.nodup_nil
    · intro occurrence member
      rw [none] at member
      cases member
    · intro some
      exact absurd none some
  rcases accepted_cases accepted with ⟨start, t, rfl, started⟩ |
    ⟨state, updated, before, reduces, after⟩
  · have empty : t.joinProgress = [] := (startGraphRun_ok started).2.2.2.2.2.2.2.1
    exact quiet ⟨empty, rfl⟩
  · have moved := reduces.transition
    cases isCommand : event.command with
    | advance command =>
        rw [isCommand] at moved
        obtain ⟨⟨consumes, advances⟩, rfl⟩ :=
          (advanceGraphFrontier_eq_ok reduces.valid.frontier.distinct _ _).mp moved
        exact advance_joinStep advances reduces.valid before isCommand after
    | complete command =>
        rw [isCommand] at moved
        obtain ⟨completes, rfl⟩ := (completeGraphFrontier_eq_ok _ _ _).mp moved
        exact complete_joinStep completes before isCommand after
    | start | claim | fence | settle | resume | abort =>
        obtain ⟨same, none⟩ := transition_joinProgress moved (by simp [isCommand])
          (by simp [isCommand])
        refine quiet ⟨?_, none⟩
        rw [before, after]
        exact same

/-! ## What a whole history does -/

/-- The run is past the target of an occurrence, or completed. -/
def PastTarget (occurrence : GraphJoinOccurrenceIdentity) (state : Option GraphRunState) : Prop :=
  ∃ s ∈ state, occurrence.targetSuperstep ≤ s.superstep ∨ s.status = .completed

/-- The command that consumes an occurrence passes its target. -/
theorem Accepted.consumed_past {event : RunEvent} (accepted : Accepted reduceStep event)
    {occurrence : GraphJoinOccurrenceIdentity}
    (consumed : occurrence ∈ event.command.consumptions) :
    PastTarget occurrence event.after := by
  have step := Accepted.joinStep accepted
  obtain ⟨state, before, target⟩ := step.target occurrence consumed
  obtain ⟨state', before', updated, after, passed⟩ :=
    step.passes (List.ne_nil_of_mem consumed)
  obtain rfl : state = state' := Option.some.inj (before.symm.trans before')
  refine ⟨updated, after, ?_⟩
  rcases passed with next | completed
  · exact .inl (by omega)
  · exact .inr completed

theorem Accepted.past {event : RunEvent} (accepted : Accepted reduceStep event)
    {occurrence : GraphJoinOccurrenceIdentity} (past : PastTarget occurrence event.before) :
    PastTarget occurrence event.after := by
  obtain ⟨s, before, passed⟩ := past
  have running := Accepted.running accepted before
  obtain ⟨t, after, -, grows⟩ := Accepted.continues accepted s before
  rcases passed with passed | completed
  · exact ⟨t, after, .inl (passed.trans grows.superstep)⟩
  · rw [running] at completed
    cases completed

theorem Reaches.past {s t : Option GraphRunState} (reaches : Reaches reduceStep s t)
    {occurrence : GraphJoinOccurrenceIdentity} (past : PastTarget occurrence s) :
    PastTarget occurrence t :=
  Reaches.preserves (fun s command t accepted => @Accepted.past ⟨s, command, t⟩ accepted _)
    reaches past

/-- An occurrence whose target is past has no pending record. -/
theorem PastTarget.not_pending {occurrence : GraphJoinOccurrenceIdentity}
    {state : Option GraphRunState} (past : PastTarget occurrence state)
    (valid : ∀ s ∈ state, ValidRun s) : occurrence ∉ occurrencesOf state := by
  obtain ⟨s, rfl, passed⟩ := past
  intro pending
  obtain ⟨progress, member, rfl⟩ := List.mem_map.mp pending
  rw [mem_joinsOf_some] at member
  rcases passed with passed | completed
  · have future := ((valid s rfl).joins.records progress member).future
    omega
  · have status := (valid s rfl).status
    rw [ValidStatus, completed] at status
    rw [status.1.2.1] at member
    cases member

/-- A command cannot consume an occurrence whose target is past. -/
theorem PastTarget.not_consumed {occurrence : GraphJoinOccurrenceIdentity} {event : RunEvent}
    (past : PastTarget occurrence event.before) (accepted : Accepted reduceStep event) :
    occurrence ∉ event.command.consumptions := by
  intro consumed
  obtain ⟨s, before, passed⟩ := past
  obtain ⟨s', before', target⟩ := (Accepted.joinStep accepted).target occurrence consumed
  obtain rfl : s = s' := Option.some.inj (before.symm.trans before')
  rcases passed with passed | completed
  · omega
  · rw [Accepted.running accepted before] at completed
    cases completed

theorem history_consumptions_nodup (initial : Option GraphRunState)
    (commands : List GraphRunCommand) :
    ((history reduceStep initial commands).flatMap (·.command.consumptions)).Nodup := by
  refine List.nodup_flatMap.mpr ⟨?_, ?_⟩
  · intro event member
    exact (Accepted.joinStep (mem_history member).2).once
  · refine (history_pairwise initial commands).imp ?_
    rintro e f ⟨acceptedE, reaches, acceptedF⟩ occurrence consumedE consumedF
    have past := Reaches.past reaches (Accepted.consumed_past acceptedE consumedE)
    exact past.not_consumed acceptedF consumedF

/-- A consumed occurrence never has a pending record again. -/
theorem history_consumed_gone (initial : Option GraphRunState) (commands : List GraphRunCommand) :
    (∀ e ∈ history reduceStep initial commands, ∀ occurrence ∈ e.command.consumptions,
      occurrence ∉ occurrencesOf e.after) ∧
    (history reduceStep initial commands).Pairwise (fun e f =>
      ∀ occurrence ∈ e.command.consumptions, occurrence ∉ occurrencesOf f.after) := by
  constructor
  · intro e member occurrence consumed
    have accepted := (mem_history member).2
    exact (Accepted.consumed_past accepted consumed).not_pending
      (fun t after => Accepted.valid_after accepted after)
  · refine (history_pairwise initial commands).imp ?_
    rintro e f ⟨acceptedE, reaches, acceptedF⟩ occurrence consumed
    have past := Reaches.past reaches (Accepted.consumed_past acceptedE consumed)
    exact (Accepted.past acceptedF past).not_pending
      (fun t after => Accepted.valid_after acceptedF after)

/-- Every arrival a run ever records was recorded by an advance, from a success of the superstep
that the advance left. -/
theorem history_records (commands : List GraphRunCommand) {state : Option GraphRunState}
    (member : state ∈ visited reduceStep none commands)
    {arrival : GraphJoinOccurrenceIdentity × ActivationReference}
    (inside : arrival ∈ arrivalsOf state) :
    ∃ event ∈ history reduceStep none commands, RecordsArrival event arrival := by
  have births := visited_births (fun event accepted => (Accepted.joinStep accepted).records)
    member inside
  rcases births with initially | born
  · cases initially
  · exact born

theorem visited_valid (commands : List GraphRunCommand) {state : Option GraphRunState}
    (member : state ∈ visited reduceStep none commands) : ∀ s ∈ state, ValidRun s := by
  intro s here
  rcases List.mem_cons.mp member with rfl | later
  · cases here
  · obtain ⟨event, inside, rfl⟩ := List.mem_map.mp later
    exact Accepted.valid_after (mem_history inside).2 here

/-- A completed run has consumed every occurrence it ever recorded. -/
theorem completed_consumed (commands : List GraphRunCommand) {final : GraphRunState}
    (ends : outcome reduceStep none commands = some final) (completed : final.status = .completed)
    {state : Option GraphRunState} (member : state ∈ visited reduceStep none commands)
    {occurrence : GraphJoinOccurrenceIdentity} (recorded : occurrence ∈ occurrencesOf state) :
    ∃ event ∈ history reduceStep none commands, occurrence ∈ event.command.consumptions := by
  have kept := visited_kept (fun event accepted => (Accepted.joinStep accepted).keepsOccurrence)
    member recorded
  rcases kept with still | consumed
  · have past : PastTarget occurrence (outcome reduceStep none commands) :=
      ⟨final, ends, .inr completed⟩
    exact absurd still (past.not_pending
      (visited_valid commands (outcome_mem_visited none commands)))
  · exact consumed

end MoteKernel
