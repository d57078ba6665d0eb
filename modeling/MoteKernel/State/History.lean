import Mathlib.Data.List.Pairwise
import MoteKernel.Lib.Trace
import MoteKernel.State.Preservation

/-!
# Histories of one graph run

Any number of drivers send commands to one run; the reducer accepts or rejects
each. This module says what an accepted command changes, and derives what holds
between any two moments of a history: fencing of stale tokens and the
append-only publication ledger.
-/

namespace MoteKernel
open Checked Canonical Trace

/-- `reduce_graph_run` as a step on the run that may not have started yet. -/
def reduceStep (state : Option GraphRunState) (command : GraphRunCommand) :
    Except GraphStateError (Option GraphRunState) :=
  (reduceGraphRun state command).map some

abbrev RunEvent := Event (Option GraphRunState) GraphRunCommand

theorem reduceStep_eq_ok (state t : Option GraphRunState) (command : GraphRunCommand) :
    reduceStep state command = .ok t ↔ ∃ s, t = some s ∧ reduceGraphRun state command = .ok s := by
  unfold reduceStep
  cases reduceGraphRun state command with
  | error e => simp [Except.map]
  | ok s => simp [Except.map, eq_comm]

/-! ## What one command changes -/

/-- What every accepted command may do to the counters, the ledger and the identity. -/
structure Grows (state updated : GraphRunState) : Prop where
  run : updated.runId = state.runId
  superstep : state.superstep ≤ updated.superstep
  sequence : state.executionSequence ≤ updated.executionSequence
  config : state.configRevision ≤ updated.configRevision
  ledger : state.settledPublications ⊆ updated.settledPublications

theorem OutcomeSettles.ledger {state : GraphRunState} {command : SettleGraphNode}
    {settlement : GraphNodeSettlement} {ledger : List GraphPublicationSettlement}
    (settles : OutcomeSettles state command settlement ledger) :
    state.settledPublications ⊆ ledger := by
  cases settles with
  | succeeded => exact fun item member => mem_recordPublication.mpr (.inl member)
  | failed => exact fun item member => member
  | interrupted => exact fun item member => member

theorem settleConfigCursor_revision {state : GraphRunState} {command : SettleGraphNode}
    {cursor : GraphConfigCursor} (settled : settleConfigCursor state command = .ok cursor) :
    state.configRevision ≤ cursor.revision := by
  unfold settleConfigCursor at settled
  split at settled
  · simp only [pure_eq_ok, Except.ok.injEq] at settled
    exact settled ▸ le_refl _
  · simp only [rethrow_eq_ok, transitionTo_eq_ok] at settled
    obtain ⟨-, -, -, ⟨same, -, chosen⟩ | ⟨next, rfl⟩⟩ := settled
    · have kept : cursor.revision = state.configCursor.revision := by
        rw [chosen]
        split
        · exact same
        · rfl
      exact kept.symm.le
    · exact next ▸ Nat.le_succ _

theorem transition_grows {state updated : GraphRunState} {command : GraphRunCommand}
    (valid : ValidRun state) (moved : transition state command = .ok updated) :
    Grows state updated := by
  cases command with
  | start command => simp [transition] at moved
  | claim command =>
      obtain ⟨-, rfl⟩ := (claimGraphExecution_eq_ok _ _ _).mp moved
      exact ⟨rfl, le_refl _, Nat.le_succ _, le_refl _, List.Subset.refl _⟩
  | fence command =>
      obtain ⟨-, -, rfl⟩ := (fenceGraphExecution_eq_ok _ _ _).mp moved
      exact ⟨rfl, le_refl _, le_refl _, le_refl _, List.Subset.refl _⟩
  | settle command =>
      obtain ⟨settlement, ledger, cursor, resources, settles, rfl⟩ :=
        (settleGraphNode_eq_ok _ _ _).mp moved
      exact ⟨rfl, le_refl _, le_refl _, settleConfigCursor_revision settles.cursor,
        settles.outcome.ledger⟩
  | resume command =>
      obtain ⟨nodes, -, rfl⟩ := (resumeGraphNodes_eq_ok _ _ _).mp moved
      exact ⟨rfl, le_refl _, le_refl _, le_refl _, List.Subset.refl _⟩
  | advance command =>
      obtain ⟨-, rfl⟩ := (advanceGraphFrontier_eq_ok valid.frontier.distinct _ _).mp moved
      exact ⟨rfl, Nat.le_succ _, le_refl _, le_refl _, List.Subset.refl _⟩
  | complete command =>
      obtain ⟨-, rfl⟩ := (completeGraphFrontier_eq_ok _ _ _).mp moved
      exact ⟨rfl, le_refl _, le_refl _, le_refl _, List.Subset.refl _⟩
  | abort command =>
      obtain ⟨-, -, rfl⟩ := (abortGraphRun_eq_ok _ _ _).mp moved
      exact ⟨rfl, le_refl _, le_refl _, le_refl _, List.Subset.refl _⟩

/-- The token a command carries. -/
def GraphRunCommand.carriedToken : GraphRunCommand → Option GraphExecutionToken
  | .fence command => some command.execution
  | .settle command => some command.execution
  | _ => none

/-- What a command does to the lease: a claim issues the next generation, every other command
keeps the lease or clears it, and a command that carries a token carries the current one. -/
structure LeaseStep (state : GraphRunState) (command : GraphRunCommand)
    (updated : GraphRunState) : Prop where
  running : state.status = .running
  carried : ∀ token ∈ command.carriedToken, state.execution = some ⟨token⟩
  issued : ∀ claim, command = .claim claim → state.execution = none ∧
    updated.execution = some ⟨claimToken state claim⟩ ∧
    updated.executionSequence = state.executionSequence + 1
  otherwise : (∀ claim, command ≠ .claim claim) →
    (updated.execution = none ∨ updated.execution = state.execution) ∧
    updated.executionSequence = state.executionSequence

theorem transition_lease {state updated : GraphRunState} {command : GraphRunCommand}
    (valid : ValidRun state) (moved : transition state command = .ok updated) :
    LeaseStep state command updated := by
  cases command with
  | start command => simp [transition] at moved
  | claim command =>
      obtain ⟨claims, rfl⟩ := (claimGraphExecution_eq_ok _ _ _).mp moved
      refine ⟨claims.running, by simp [GraphRunCommand.carriedToken], ?_, by simp⟩
      rintro claim ⟨⟩
      exact ⟨claims.unleased, rfl, rfl⟩
  | fence command =>
      obtain ⟨running, leased, rfl⟩ := (fenceGraphExecution_eq_ok _ _ _).mp moved
      exact ⟨running, by simp [GraphRunCommand.carriedToken, leased], by simp, by simp⟩
  | settle command =>
      obtain ⟨settlement, ledger, cursor, resources, settles, rfl⟩ :=
        (settleGraphNode_eq_ok _ _ _).mp moved
      refine ⟨settles.running, by simp [GraphRunCommand.carriedToken, settles.leased], by simp, ?_⟩
      intro _
      refine ⟨?_, rfl⟩
      simp only [settledState]
      split
      · exact .inr rfl
      · exact .inl rfl
  | resume command =>
      obtain ⟨nodes, resumes, rfl⟩ := (resumeGraphNodes_eq_ok _ _ _).mp moved
      exact ⟨resumes.running, by simp [GraphRunCommand.carriedToken], by simp, by simp⟩
  | advance command =>
      obtain ⟨⟨_, advances⟩, rfl⟩ :=
        (advanceGraphFrontier_eq_ok valid.frontier.distinct _ _).mp moved
      exact ⟨advances.resolves.running, by simp [GraphRunCommand.carriedToken], by simp, by simp⟩
  | complete command =>
      obtain ⟨completes, rfl⟩ := (completeGraphFrontier_eq_ok _ _ _).mp moved
      exact ⟨completes.resolves.running, by simp [GraphRunCommand.carriedToken], by simp, by simp⟩
  | abort command =>
      obtain ⟨running, -, rfl⟩ := (abortGraphRun_eq_ok _ _ _).mp moved
      exact ⟨running, by simp [GraphRunCommand.carriedToken], by simp, by simp⟩

/-! ## Two moments of one history -/

/-- One accepted command of a history: the start of a run, or a reduction of it. -/
theorem accepted_cases {event : RunEvent} (accepted : Accepted reduceStep event) :
    (∃ start t, event = ⟨none, .start start, some t⟩ ∧ startGraphRun start = .ok t) ∨
    (∃ state updated, event.before = some state ∧ Reduces state event.command updated ∧
      event.after = some { updated with revision := state.revision + 1 }) := by
  obtain ⟨before, command, after⟩ := event
  obtain ⟨t, rfl, reduced⟩ := (reduceStep_eq_ok _ _ _).mp accepted
  cases before with
  | none =>
      obtain ⟨start, rfl, started⟩ := (reduceGraphRun_none_eq_ok _ _).mp reduced
      exact .inl ⟨start, t, rfl, started⟩
  | some state =>
      obtain ⟨updated, reduces, rfl⟩ := (reduceGraphRun_some_eq_ok _ _ _).mp reduced
      exact .inr ⟨state, updated, rfl, reduces, rfl⟩

/-- The second state continues the run of the first: nothing that counts goes back, and the
ledger keeps its records. -/
def Continues (before after : Option GraphRunState) : Prop :=
  ∀ s ∈ before, ∃ t ∈ after, s.revision ≤ t.revision ∧ Grows s t

theorem Continues.refl (s : Option GraphRunState) : Continues s s :=
  fun a member => ⟨a, member, le_refl _, rfl, le_refl _, le_refl _, le_refl _, List.Subset.refl _⟩

theorem Continues.trans {a b c : Option GraphRunState} (hab : Continues a b)
    (hbc : Continues b c) : Continues a c := by
  intro s member
  obtain ⟨t, tMember, revision, grows⟩ := hab s member
  obtain ⟨u, uMember, revision', grows'⟩ := hbc t tMember
  exact ⟨u, uMember, revision.trans revision', grows'.run.trans grows.run,
    grows.superstep.trans grows'.superstep, grows.sequence.trans grows'.sequence,
    grows.config.trans grows'.config, List.Subset.trans grows.ledger grows'.ledger⟩

theorem Accepted.continues {event : RunEvent} (accepted : Accepted reduceStep event) :
    Continues event.before event.after := by
  rcases accepted_cases accepted with ⟨start, t, rfl, -⟩ | ⟨state, updated, before, reduces, after⟩
  · intro s none
    cases none
  · intro s same
    obtain rfl : state = s := Option.some.inj (before.symm.trans same)
    have grows := transition_grows reduces.valid reduces.transition
    exact ⟨_, after, Nat.le_succ _, grows.run, grows.superstep, grows.sequence, grows.config,
      grows.ledger⟩

theorem Reaches.continues {s t : Option GraphRunState} (reaches : Reaches reduceStep s t) :
    Continues s t :=
  Reaches.lift Continues.refl (fun _ _ _ => Continues.trans)
    (fun s command t accepted => @Accepted.continues ⟨s, command, t⟩ accepted) reaches

/-! ## Fencing -/

/-- The token of the lease a run holds. -/
def leaseToken (state : Option GraphRunState) : Option GraphExecutionToken :=
  state.bind (fun s => s.execution.map (·.token))

/-- The token an accepted claim issues. -/
def issuedToken (event : RunEvent) : Option GraphExecutionToken :=
  match event.command with
  | .claim _ => leaseToken event.after
  | _ => none

/-- The lifecycle statuses that end a run. -/
def terminal (state : GraphRunState) : Prop :=
  state.status = .completed ∨ state.status = .failed ∨ state.status = .aborted

/-- A token of an earlier generation, or of a lease that is gone. -/
def Stale (token : GraphExecutionToken) (state : Option GraphRunState) : Prop :=
  ∃ s ∈ state, token.generation ≤ s.executionSequence ∧ s.execution ≠ some ⟨token⟩

theorem leaseToken_eq_some {state : Option GraphRunState} {token : GraphExecutionToken} :
    leaseToken state = some token ↔ ∃ s ∈ state, s.execution = some ⟨token⟩ := by
  cases state with
  | none => simp [leaseToken]
  | some s =>
      cases execution : s.execution with
      | none => simp [leaseToken, execution]
      | some lease =>
          obtain ⟨own⟩ := lease
          simp [leaseToken, execution]

theorem Accepted.stale {event : RunEvent} (accepted : Accepted reduceStep event)
    {token : GraphExecutionToken} (stale : Stale token event.before) :
    Stale token event.after := by
  obtain ⟨s, member, generation, gone⟩ := stale
  rcases accepted_cases accepted with ⟨start, t, rfl, -⟩ | ⟨state, updated, before, reduces, after⟩
  · cases member
  · obtain rfl : state = s := Option.some.inj (before.symm.trans member)
    have lease := transition_lease reduces.valid reduces.transition
    refine ⟨_, after, ?_, ?_⟩
    · exact generation.trans (transition_grows reduces.valid reduces.transition).sequence
    · by_cases claim : ∃ claim, event.command = .claim claim
      · obtain ⟨claim, isClaim⟩ := claim
        obtain ⟨-, issued, -⟩ := lease.issued claim isClaim
        intro same
        rw [show updated.execution = some ⟨token⟩ from same, Option.some.injEq,
          GraphExecutionLease.mk.injEq] at issued
        rw [issued, claimToken] at generation
        exact absurd generation (by simp)
      · obtain ⟨cleared | kept, -⟩ :=
          lease.otherwise (fun c isClaim => claim ⟨c, isClaim⟩)
        · simp [cleared]
        · simpa [kept] using gone

theorem Reaches.stale {s t : Option GraphRunState} {token : GraphExecutionToken}
    (reaches : Reaches reduceStep s t) (stale : Stale token s) : Stale token t :=
  Reaches.preserves (fun s command t accepted => @Accepted.stale ⟨s, command, t⟩ accepted token)
    reaches stale

/-- A command that carries a token carries the token of the current lease. -/
theorem Accepted.carried {event : RunEvent} (accepted : Accepted reduceStep event)
    {token : GraphExecutionToken} (carried : event.command.carriedToken = some token) :
    leaseToken event.before = some token := by
  rcases accepted_cases accepted with ⟨start, t, rfl, -⟩ | ⟨state, updated, before, reduces, -⟩
  · cases carried
  · have lease := transition_lease reduces.valid reduces.transition
    exact leaseToken_eq_some.mpr ⟨state, before, lease.carried token carried⟩

/-- An issued token has the generation after the one its claim found. -/
theorem Accepted.issued {event : RunEvent} (accepted : Accepted reduceStep event)
    {token : GraphExecutionToken} (issued : issuedToken event = some token) :
    ∃ s ∈ event.before, token.generation = s.executionSequence + 1 ∧
      ∃ t ∈ event.after, t.executionSequence = token.generation := by
  rcases accepted_cases accepted with ⟨start, t, rfl, -⟩ | ⟨state, updated, before, reduces, after⟩
  · simp [issuedToken] at issued
  · cases command : event.command with
    | claim claim =>
        obtain ⟨-, execution, sequence⟩ :=
          (transition_lease reduces.valid reduces.transition).issued claim command
        have same : token = claimToken state claim := by
          simp only [issuedToken, command, leaseToken_eq_some, after] at issued
          obtain ⟨t, ⟨⟩, held⟩ := issued
          simpa [execution] using held.symm
        subst same
        exact ⟨state, before, rfl, _, after, sequence⟩
    | start | fence | settle | resume | advance | complete | abort =>
        simp [issuedToken, command] at issued

theorem Accepted.running {event : RunEvent} (accepted : Accepted reduceStep event)
    {s : GraphRunState} (before : event.before = some s) : s.status = .running := by
  rcases accepted_cases accepted with ⟨start, t, rfl, -⟩ | ⟨state, updated, same, reduces, -⟩
  · cases before
  · obtain rfl : state = s := Option.some.inj (same.symm.trans before)
    exact (transition_lease reduces.valid reduces.transition).running

/-- Losing a lease makes its token stale. -/
theorem Accepted.fenced {event : RunEvent} (accepted : Accepted reduceStep event)
    {token : GraphExecutionToken} (held : leaseToken event.before = some token)
    (lost : leaseToken event.after ≠ some token) : Stale token event.after := by
  obtain ⟨s, before, execution⟩ := leaseToken_eq_some.mp held
  rcases accepted_cases accepted with ⟨start, t, rfl, -⟩ | ⟨state, updated, same, reduces, after⟩
  · cases before
  · obtain rfl : state = s := Option.some.inj (same.symm.trans before)
    have grows := transition_grows reduces.valid reduces.transition
    have generation := (reduces.valid.lease _ execution).generation
    refine ⟨_, after, generation.le.trans grows.sequence, ?_⟩
    intro still
    exact lost (leaseToken_eq_some.mpr ⟨_, after, still⟩)

theorem Accepted.valid {event : RunEvent} (accepted : Accepted reduceStep event)
    {s : GraphRunState} (before : event.before = some s) : ValidRun s := by
  rcases accepted_cases accepted with ⟨start, t, rfl, -⟩ | ⟨state, updated, same, reduces, -⟩
  · cases before
  · obtain rfl : state = s := Option.some.inj (same.symm.trans before)
    exact reduces.valid

theorem Accepted.valid_after {event : RunEvent} (accepted : Accepted reduceStep event)
    {t : GraphRunState} (after : event.after = some t) : ValidRun t := by
  rcases accepted_cases accepted with ⟨start, u, rfl, started⟩ | ⟨state, updated, -, reduces, same⟩
  · obtain rfl : u = t := Option.some.inj after
    exact (startGraphRun_ok started).1
  · obtain rfl := Option.some.inj (same.symm.trans after)
    exact reduces.result

/-- A run in which something is accepted starts from a valid state. -/
theorem Reaches.valid_start {s : Option GraphRunState} {event : RunEvent}
    (reaches : Reaches reduceStep s event.before) (accepted : Accepted reduceStep event)
    {a : GraphRunState} (member : s = some a) : ValidRun a := by
  rcases Relation.ReflTransGen.cases_head reaches with rfl | ⟨t, ⟨command, first⟩, -⟩
  · exact Accepted.valid accepted member
  · exact @Accepted.valid ⟨s, command, t⟩ first a member

/-- A terminal state stays as it is. -/
theorem Reaches.of_terminal {s t : Option GraphRunState} (reaches : Reaches reduceStep s t)
    (ended : ∃ a ∈ s, terminal a) : ∃ a ∈ t, terminal a := by
  refine Reaches.preserves (P := fun s => ∃ a ∈ s, terminal a) ?_ reaches ended
  rintro s command t accepted ⟨a, member, ended⟩
  have running := @Accepted.running ⟨s, command, t⟩ accepted a member
  simp [terminal, running] at ended

/-- The state after an accepted command has the next revision. -/
theorem Accepted.revision {event : RunEvent} (accepted : Accepted reduceStep event) :
    (event.before = none ∧ ∃ t ∈ event.after, t.revision = 0) ∨
    ∃ s ∈ event.before, ∃ t ∈ event.after, t.revision = s.revision + 1 := by
  rcases accepted_cases accepted with ⟨start, t, rfl, started⟩ | ⟨state, _, before, -, after⟩
  · exact .inl ⟨rfl, t, rfl, (startGraphRun_ok started).2.2.2.1⟩
  · exact .inr ⟨state, before, _, after, rfl⟩

/-- Fencing safety: whatever commands reach a run and in whatever order, no token is issued
twice, at most one command is accepted at each revision, a token whose lease was lost is never
accepted again, and nothing is accepted in a terminal state. -/
theorem history_fencing (initial : Option GraphRunState) (commands : List GraphRunCommand) :
    let events := history reduceStep initial commands
    ((leaseToken initial).toList ++ events.filterMap issuedToken).Nodup ∧
    (events.map (fun e => e.before.map (·.revision))).Nodup ∧
    events.Pairwise (fun e f => ∀ token, leaseToken e.before = some token →
      leaseToken e.after ≠ some token → f.command.carriedToken ≠ some token) ∧
    (∀ s ∈ initial, terminal s → events = []) ∧
    events.Pairwise (fun e _ => ∀ s ∈ e.after, ¬ terminal s) := by
  intro events
  have pairs : events.Pairwise _ := history_pairwise initial commands
  refine ⟨?_, ?_, ?_, ?_, ?_⟩
  · refine List.nodup_append.mpr ⟨?_, ?_, ?_⟩
    · cases leaseToken initial <;> simp
    · refine List.Pairwise.filterMap issuedToken ?_ pairs
      rintro e f ⟨acceptedE, reaches, acceptedF⟩ token issuedE token' issuedF rfl
      obtain ⟨-, -, -, t, after, generation⟩ := Accepted.issued acceptedE issuedE
      obtain ⟨s, before, next, -⟩ := Accepted.issued acceptedF issuedF
      obtain ⟨s', before', -, grows⟩ := Reaches.continues reaches t after
      obtain rfl : s = s' := Option.some.inj (before.symm.trans before')
      have := grows.sequence
      omega
    · intro token held token' issued rfl
      obtain ⟨event, member, issued⟩ := List.mem_filterMap.mp issued
      obtain ⟨reaches, accepted⟩ := mem_history member
      obtain ⟨s, initially, execution⟩ := leaseToken_eq_some.mp (Option.mem_toList.mp held)
      obtain ⟨t, before, next, -⟩ := Accepted.issued accepted issued
      obtain ⟨t', before', -, grows⟩ := Reaches.continues reaches s initially
      obtain rfl : t = t' := Option.some.inj (before.symm.trans before')
      have generation := ((Reaches.valid_start reaches accepted initially).lease _ execution).generation
      have sequence := grows.sequence
      simp only at generation
      omega
  · rw [List.nodup_iff_pairwise_ne, List.pairwise_map]
    refine pairs.imp ?_
    rintro e f ⟨acceptedE, reaches, -⟩ same
    rcases Accepted.revision acceptedE with ⟨none, t, after, zero⟩ | ⟨s, before, t, after, next⟩
    · obtain ⟨t', before', -⟩ := Reaches.continues reaches t after
      simp [none, Option.mem_def.mp before'] at same
    · obtain ⟨t', before', later, -⟩ := Reaches.continues reaches t after
      simp only [Option.mem_def.mp before, Option.mem_def.mp before', Option.map_some,
        Option.some.injEq] at same
      omega
  · refine pairs.imp ?_
    rintro e f ⟨acceptedE, reaches, acceptedF⟩ token held lost carried
    obtain ⟨s, before, -, gone⟩ := Reaches.stale reaches (Accepted.fenced acceptedE held lost)
    obtain ⟨s', before', execution⟩ := leaseToken_eq_some.mp (Accepted.carried acceptedF carried)
    obtain rfl : s = s' := Option.some.inj (before.symm.trans before')
    exact gone execution
  · intro s initially ended
    refine List.eq_nil_iff_forall_not_mem.mpr (fun event member => ?_)
    obtain ⟨reaches, accepted⟩ := mem_history member
    obtain ⟨t, before, still⟩ := Reaches.of_terminal reaches ⟨s, initially, ended⟩
    simp [terminal, Accepted.running accepted before] at still
  · refine pairs.imp ?_
    rintro e f ⟨-, reaches, acceptedF⟩ s after ended
    obtain ⟨t, before, still⟩ := Reaches.of_terminal reaches ⟨s, after, ended⟩
    simp [terminal, Accepted.running acceptedF before] at still

/-! ## The publication ledger -/

/-- The ledger of a run, empty before the start. -/
def ledgerOf (state : Option GraphRunState) : List GraphPublicationSettlement :=
  (state.map (·.settledPublications)).getD []

/-- The command of this event settled a successful node and wrote this record, and the record
names the revision of the state it produced. -/
def Births (event : RunEvent) (item : GraphPublicationSettlement) : Prop :=
  ∃ state command nodeId routing updated, event.before = some state ∧
    event.command = .settle command ∧ command.outcome = .succeeded nodeId routing ∧
    event.after = some updated ∧ item ∉ state.settledPublications ∧
    item = ⟨activationReference state.runId state.superstep nodeId routing.route,
      updated.revision, command.execution, command.publicationEvidence⟩

/-- Only the success of a node adds to the ledger, and it adds its own record. -/
theorem transition_ledger {state updated : GraphRunState} {command : GraphRunCommand}
    (valid : ValidRun state) (moved : transition state command = .ok updated)
    {item : GraphPublicationSettlement} (member : item ∈ updated.settledPublications)
    (absent : item ∉ state.settledPublications) :
    ∃ settle nodeId routing, command = .settle settle ∧
      settle.outcome = .succeeded nodeId routing ∧
      item = ⟨activationReference state.runId state.superstep nodeId routing.route,
        settle.expectedRevision + 1, settle.execution, settle.publicationEvidence⟩ := by
  cases command with
  | start command => simp [transition] at moved
  | claim command =>
      obtain ⟨-, rfl⟩ := (claimGraphExecution_eq_ok _ _ _).mp moved
      exact absurd member absent
  | fence command =>
      obtain ⟨-, -, rfl⟩ := (fenceGraphExecution_eq_ok _ _ _).mp moved
      exact absurd member absent
  | settle command =>
      obtain ⟨settlement, ledger, cursor, resources, settles, rfl⟩ :=
        (settleGraphNode_eq_ok _ _ _).mp moved
      cases settles.outcome with
      | succeeded nodeId routing outcome =>
          rcases mem_recordPublication.mp member with old | rfl
          · exact absurd old absent
          · exact ⟨command, nodeId, routing, rfl, outcome, rfl⟩
      | failed => exact absurd member absent
      | interrupted => exact absurd member absent
  | resume command =>
      obtain ⟨nodes, -, rfl⟩ := (resumeGraphNodes_eq_ok _ _ _).mp moved
      exact absurd member absent
  | advance command =>
      obtain ⟨-, rfl⟩ := (advanceGraphFrontier_eq_ok valid.frontier.distinct _ _).mp moved
      exact absurd member absent
  | complete command =>
      obtain ⟨-, rfl⟩ := (completeGraphFrontier_eq_ok _ _ _).mp moved
      exact absurd member absent
  | abort command =>
      obtain ⟨-, -, rfl⟩ := (abortGraphRun_eq_ok _ _ _).mp moved
      exact absurd member absent

theorem Accepted.births {event : RunEvent} (accepted : Accepted reduceStep event)
    {item : GraphPublicationSettlement} (member : item ∈ ledgerOf event.after) :
    item ∈ ledgerOf event.before ∨ Births event item := by
  rcases accepted_cases accepted with ⟨start, t, rfl, started⟩ |
    ⟨state, updated, before, reduces, after⟩
  · have empty : t.settledPublications = [] := (startGraphRun_ok started).2.2.2.2.2.2.1
    simp [ledgerOf, empty] at member
  · rw [after] at member
    rw [before]
    by_cases old : item ∈ state.settledPublications
    · exact .inl old
    · obtain ⟨settle, nodeId, routing, isSettle, outcome, rfl⟩ :=
        transition_ledger reduces.valid reduces.transition member old
      have expected : settle.expectedRevision = state.revision := by
        simpa [isSettle, GraphRunCommand.expectedRevision] using reduces.expected
      rw [expected] at old ⊢
      exact .inr ⟨state, settle, nodeId, routing, _, before, isSettle, outcome, after, old, rfl⟩

/-- No two states of a run share a revision. -/
theorem visited_revisions (initial : Option GraphRunState) (commands : List GraphRunCommand) :
    (visited reduceStep initial commands).Pairwise
      (fun a b => ∀ s ∈ a, ∀ t ∈ b, s.revision ≠ t.revision) := by
  have later : ∀ (a : Option GraphRunState) (event : RunEvent),
      Reaches reduceStep a event.before → Accepted reduceStep event →
      ∀ s ∈ a, ∀ t ∈ event.after, s.revision ≠ t.revision := by
    intro a event reaches accepted s member t after
    obtain ⟨s', before, le, -⟩ := Reaches.continues reaches s member
    rcases Accepted.revision accepted with ⟨none, -⟩ | ⟨s'', before', t', after', next⟩
    · simp [none] at before
    · obtain rfl : s' = s'' := Option.some.inj (before.symm.trans before')
      obtain rfl : t = t' := Option.some.inj (after.symm.trans after')
      omega
  refine List.pairwise_cons.mpr ⟨?_, ?_⟩
  · intro b member
    obtain ⟨event, inside, rfl⟩ := List.mem_map.mp member
    obtain ⟨reaches, accepted⟩ := mem_history inside
    exact later initial event reaches accepted
  · rw [List.pairwise_map]
    exact (history_pairwise initial commands).imp (fun h => later _ _ h.2.1 h.2.2)

/-- The state a record names by its revision is the one its settlement produced. -/
theorem Births.unique {initial : Option GraphRunState} {commands : List GraphRunCommand}
    {event : RunEvent} {item : GraphPublicationSettlement} (born : Births event item)
    (inside : event ∈ history reduceStep initial commands) :
    ∀ state ∈ visited reduceStep initial commands, ∀ t ∈ state,
      t.revision = item.commitRevision → event.after = state := by
  intro state member t here sameRevision
  obtain ⟨_, _, _, _, updated, -, -, -, after, -, rfl⟩ := born
  have eventMember : event.after ∈ visited reduceStep initial commands :=
    List.mem_cons_of_mem _ (List.mem_map_of_mem inside)
  by_contra different
  have : Std.Symm (fun a b : Option GraphRunState =>
      ∀ s ∈ a, ∀ t ∈ b, s.revision ≠ t.revision) :=
    ⟨fun _ _ h t ht s hs => (h s hs t ht).symm⟩
  have apart := (visited_revisions initial commands).forall eventMember member different
  exact apart updated after t here sameRevision.symm

/-- The ledger of a run is append-only: each command raises the revision by one, no counter
goes back, records stay as they were written, no activation has two, and each was written by
the settlement whose resulting state has its commit revision. -/
theorem history_ledger (initial : Option GraphRunState) (commands : List GraphRunCommand) :
    let events := history reduceStep initial commands
    let states := visited reduceStep initial commands
    (∀ e ∈ events, ∀ s ∈ e.before, ∀ t ∈ e.after, t.revision = s.revision + 1) ∧
    states.Pairwise (fun a b => ∀ s ∈ a, ∃ t ∈ b, s.superstep ≤ t.superstep ∧
      s.executionSequence ≤ t.executionSequence ∧ s.configRevision ≤ t.configRevision ∧
      s.settledPublications ⊆ t.settledPublications) ∧
    (∀ e ∈ events, ∀ t ∈ e.after,
      (t.settledPublications.map (·.reference.activation)).Nodup) ∧
    (∀ state ∈ states, ∀ item ∈ ledgerOf state, item ∈ ledgerOf initial ∨
      ∃ e ∈ events, Births e item ∧
        ∀ other ∈ states, ∀ t ∈ other, t.revision = item.commitRevision → e.after = other) := by
  intro events states
  refine ⟨?_, ?_, ?_, ?_⟩
  · intro e member s before t after
    rcases Accepted.revision (mem_history member).2 with
      ⟨none, -⟩ | ⟨s', before', t', after', next⟩
    · simp [none] at before
    · obtain rfl : s = s' := Option.some.inj (before.symm.trans before')
      obtain rfl : t = t' := Option.some.inj (after.symm.trans after')
      exact next
  · refine (visited_pairwise initial commands).imp ?_
    intro a b reaches s member
    obtain ⟨t, tMember, -, grows⟩ := Reaches.continues reaches s member
    exact ⟨t, tMember, grows.superstep, grows.sequence, grows.config, grows.ledger⟩
  · intro e member t after
    exact (Accepted.valid_after (mem_history member).2 after).ledger.activations
  · intro state member item inside
    rcases visited_births (fun _ accepted _ => Accepted.births accepted) member inside with
      initially | ⟨e, eMember, born⟩
    · exact .inl initially
    · exact .inr ⟨e, eMember, born, born.unique eMember⟩

end MoteKernel
