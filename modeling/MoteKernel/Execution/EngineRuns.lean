import MoteKernel.Execution.FrontierAdmission
import MoteKernel.Execution.FamilyDriver

/-!
# Runs of the engine

The states that committed transitions lead through, in any order of claims,
fences, settlements, resumes, aborts and resolutions that the reducer and the
admission of `prepare_transition` let pass. Such a run is an all-success run of
control whose frontiers open, settle and move on: every other command leaves the
open frontier in place.
-/

namespace MoteKernel
open Checked Canonical Digraph

variable {τ : Type} {graph : CompiledGraph τ}

/-! ## Commands that keep the frontier open -/

/-- The second state has the activations and the Join progress of the first one, and its ledger has
grown at most by the current superstep. -/
structure Stays (state next : GraphRunState) : Prop where
  run : next.runId = state.runId
  superstep : next.superstep = state.superstep
  definition : next.definitionId = state.definitionId
  version : next.definitionVersion = state.definitionVersion
  codec : next.resumeInputCodec = state.resumeInputCodec
  status : next.status = .completed → state.status = .completed
  opens : next.frontier.nodes.map GraphFrontierNode.activation =
    state.frontier.nodes.map GraphFrontierNode.activation
  progress : next.joinProgress = state.joinProgress
  kept : state.settledReferences ⊆ next.settledReferences
  added : ∀ reference ∈ next.settledReferences, reference ∈ state.settledReferences ∨
    reference.activation.superstep = state.superstep

theorem resumed_activations {actions : List ResumeInterruptedNode}
    {nodes updated : List GraphFrontierNode}
    (resumed : List.Forall₂ (fun node node' => resumeNode actions node = .ok node') nodes updated) :
    updated.map GraphFrontierNode.activation = nodes.map GraphFrontierNode.activation := by
  induction resumed with
  | nil => rfl
  | cons head tail ih =>
      rw [List.map_cons, List.map_cons, ih]
      rcases resumeNode_eq_ok head with ⟨rfl, -⟩ | ⟨_, _, -, rfl⟩ <;> rfl

/-- A command that neither advances nor completes keeps the frontier open. -/
theorem transition_stays {state updated : GraphRunState} {command : GraphRunCommand}
    (moved : transition state command = .ok updated) (advance : ∀ c, command ≠ .advance c)
    (complete : ∀ c, command ≠ .complete c) :
    Stays state { updated with revision := state.revision + 1 } := by
  cases command with
  | start command => simp [transition] at moved
  | claim command =>
      obtain ⟨-, rfl⟩ := (claimGraphExecution_eq_ok _ _ _).mp moved
      exact ⟨rfl, rfl, rfl, rfl, rfl, id, rfl, rfl, List.Subset.refl _, fun _ old => .inl old⟩
  | fence command =>
      obtain ⟨-, -, rfl⟩ := (fenceGraphExecution_eq_ok _ _ _).mp moved
      exact ⟨rfl, rfl, rfl, rfl, rfl, id, rfl, rfl, List.Subset.refl _, fun _ old => .inl old⟩
  | settle command =>
      obtain ⟨settlement, ledger, cursor, resources, settles, rfl⟩ :=
        (settleGraphNode_eq_ok _ _ _).mp moved
      have same : (settleFrontier state.frontier command.outcome.nodeId settlement).nodes.map
          GraphFrontierNode.activation = state.frontier.nodes.map GraphFrontierNode.activation := by
        simp [settleFrontier, GraphFrontierNode.activation]
      have grown : ∀ reference, reference ∈ ledger.map (·.reference) →
          reference ∈ state.settledReferences ∨
            reference.activation.superstep = state.superstep := by
        intro reference listed
        obtain ⟨record, member, rfl⟩ := List.mem_map.mp listed
        cases settles.outcome with
        | succeeded nodeId routing outcome =>
            rcases mem_recordPublication.mp member with old | rfl
            · exact .inl (List.mem_map.mpr ⟨record, old, rfl⟩)
            · exact .inr rfl
        | failed => exact .inl (List.mem_map.mpr ⟨record, member, rfl⟩)
        | interrupted => exact .inl (List.mem_map.mpr ⟨record, member, rfl⟩)
      have live : (if frontierStatus (settleFrontier state.frontier command.outcome.nodeId settlement) =
          some .failed then GraphRunStatus.failed else .running) = .completed →
            state.status = .completed := by
        intro completed
        split at completed <;> cases completed
      exact ⟨rfl, rfl, rfl, rfl, rfl, live, same, rfl, List.map_subset _ settles.outcome.ledger,
        grown⟩
  | resume command =>
      obtain ⟨nodes, resumes, rfl⟩ := (resumeGraphNodes_eq_ok _ _ _).mp moved
      exact ⟨rfl, rfl, rfl, rfl, rfl, id, resumed_activations resumes.nodes, rfl,
        List.Subset.refl _, fun _ old => .inl old⟩
  | advance command => exact absurd rfl (advance command)
  | complete command => exact absurd rfl (complete command)
  | abort command =>
      obtain ⟨-, -, rfl⟩ := (abortGraphRun_eq_ok _ _ _).mp moved
      exact ⟨rfl, rfl, rfl, rfl, rfl, (by intro completed; cases completed), rfl, rfl,
        List.Subset.refl _, fun _ old => .inl old⟩

/-- The ledger of a valid live state is its past and its current publications. -/
theorem ValidLedger.split {state : GraphRunState} (valid : ValidLedger state)
    (live : state.status ≠ .completed) {reference : ActivationReference} :
    reference ∈ state.settledReferences ↔ reference ∈ pastReferences state ∨
      reference ∈ frontierPublications state := by
  rw [mem_pastReferences, ← valid.current live, ← and_or_left, iff_self_and]
  intro settled
  obtain ⟨record, member, rfl⟩ := List.mem_map.mp settled
  have place := valid.superstep record member
  omega

/-- A frontier that stays is still open. -/
theorem Opened.stays {state next : GraphRunState} (opened : Opened graph state)
    (stays : Stays state next) (valid : ValidRun next) (live : next.status ≠ .completed) :
    Opened graph next := by
  cases opened with
  | start starts =>
      refine .start ⟨stays.superstep.trans starts.superstep, stays.opens.trans starts.opens,
        stays.progress.trans starts.progress, ?_⟩
      intro reference
      rw [valid.ledger.split live, mem_pastReferences, stays.superstep, starts.superstep]
      simp
  | advance before resolves follows =>
      refine .advance before resolves ⟨stays.run.trans follows.run,
        stays.superstep.trans follows.superstep, stays.opens.trans follows.opens,
        stays.progress.trans follows.progress, ?_⟩
      intro reference
      have kept : ∀ reference, reference ∈ state.settledReferences →
          reference ∈ next.settledReferences := fun _ settled => stays.kept settled
      constructor
      · intro settled
        rcases (valid.ledger.split live).mp settled with past | current
        · rw [mem_pastReferences, stays.superstep] at past
          rcases stays.added reference settled with old | now
          · rcases (follows.ledger reference).mp old with earlier | success
            · exact .inl earlier
            · have here := superstep_of_success success
              omega
          · omega
        · exact .inr current
      · intro either
        rcases either with earlier | current
        · exact kept _ ((follows.ledger reference).mpr (.inl earlier))
        · exact (valid.ledger.split live).mpr (.inr current)

/-! ## Evidence -/

/-- The states differ in their evidence commitments only. -/
structure SameButEvidence (a b : GraphRunState) : Prop where
  state : b = { a with
    graphInputEvidence := b.graphInputEvidence
    settledPublications := b.settledPublications }
  references : b.settledReferences = a.settledReferences

theorem SameButEvidence.refl (a : GraphRunState) : SameButEvidence a a := ⟨rfl, rfl⟩

theorem SameButEvidence.trans {a b c : GraphRunState} (first : SameButEvidence a b)
    (second : SameButEvidence b c) : SameButEvidence a c := by
  refine ⟨?_, second.references.trans first.references⟩
  have state := second.state
  rw [first.state] at state
  exact state

theorem sameButEvidence_annotate (state : GraphRunState) (evidence : Option GraphEvidenceCommitment)
    (place : EvidencePlace) : SameButEvidence state (state.annotate evidence place) := by
  cases place with
  | graphInput => exact ⟨rfl, rfl⟩
  | publication activation =>
      refine ⟨rfl, ?_⟩
      simp [GraphRunState.annotate, GraphRunState.settledReferences, Function.comp_def]

theorem Confirms.sameButEvidence {command : GraphRunCommand} {successor confirmed : GraphRunState}
    (confirms : Confirms command successor confirmed) : SameButEvidence successor confirmed := by
  cases confirms with
  | exact => exact .refl successor
  | annotated place commitment => exact sameButEvidence_annotate successor (some commitment) place

/-- What `bind_transition_evidence` makes of a command: itself, or the command with a commitment. -/
theorem bindCommand_cases {command bound : GraphRunCommand}
    {graphInput publication : Option GraphEvidenceCommitment}
    (binds : bindCommand command graphInput publication = .ok bound) :
    bound = command ∨ ∃ commitment, ValidEvidence (some commitment) ∧
      ((∃ start, command = .start start ∧
          bound = .start { start with graphInputEvidence := some commitment }) ∨
        ∃ settle nodeId routing, command = .settle settle ∧
          settle.outcome = .succeeded nodeId routing ∧
          bound = .settle { settle with publicationEvidence := some commitment }) := by
  unfold bindCommand at binds
  split at binds
  · simp only [bind_unit_eq_ok, rethrow_eq_ok, raiseIf_eq_ok, pure_eq_ok, Except.ok.injEq,
      GraphEvidenceCommitment.admitted] at binds
    obtain ⟨digest, -, rfl⟩ := binds
    exact .inr ⟨_, by simpa [ValidEvidence] using digest, .inl ⟨_, rfl, rfl⟩⟩
  · cases binds
  · simp only [bind_unit_eq_ok, rethrow_eq_ok, raiseIf_eq_ok, pure_eq_ok, Except.ok.injEq,
      GraphEvidenceCommitment.admitted] at binds
    obtain ⟨digest, -, rfl⟩ := binds
    exact .inr ⟨_, by simpa [ValidEvidence] using digest, .inr ⟨_, _, _, rfl, rfl, rfl⟩⟩
  · cases binds
  · exact .inl (Except.ok.inj binds).symm
  · cases binds

/-- A command with its evidence bound leads to the same state but for the evidence. -/
theorem bindCommand_same {previous : Option GraphRunState} {command bound : GraphRunCommand}
    {graphInput publication : Option GraphEvidenceCommitment} {candidate successor : GraphRunState}
    (binds : bindCommand command graphInput publication = .ok bound)
    (reduced : reduceGraphRun previous command = .ok candidate)
    (rebound : reduceGraphRun previous bound = .ok successor) :
    SameButEvidence candidate successor := by
  rcases bindCommand_cases binds with rfl | ⟨commitment, digest, source⟩
  · rw [Except.ok.inj (rebound.symm.trans reduced)]
    exact .refl candidate
  · rcases source with ⟨start, rfl, rfl⟩ | ⟨settle, nodeId, routing, rfl, outcome, rfl⟩
    · cases previous with
      | some previous => cases reduced
      | none =>
          rw [Except.ok.inj (rebound.symm.trans (start_bound digest reduced))]
          exact sameButEvidence_annotate candidate (some commitment) .graphInput
    · cases previous with
      | none => cases reduced
      | some previous =>
          rw [Except.ok.inj (rebound.symm.trans (settle_bound outcome digest reduced))]
          exact sameButEvidence_annotate candidate (some commitment) _

/-! ## Commits -/

/-- The confirmed state of a prepared transition, its evidence bound by the writer or not. -/
inductive Commits (graph : CompiledGraph τ) (previous : Option GraphRunState)
    (command : GraphRunCommand) : GraphRunState → Prop
  | prepared {ν σ : Type} {scopeRun : ScopeRunCoordinate} {result : Option (CompletedTask ν σ)}
      {successor : Option GraphRunState} {input : Option (Frame ν)}
      {session : Option (AgentSession σ)} {transition : GraphTransition ν σ}
      {answer : Option GraphRunState} {confirmed : GraphRunState}
      (prepares : prepareTransition graph scopeRun previous command result successor input session =
        .ok transition)
      (confirms : confirmTransition transition answer = .ok confirmed) :
      Commits graph previous command confirmed
  | bound {ν σ : Type} {scopeRun : ScopeRunCoordinate} {result : Option (CompletedTask ν σ)}
      {successor : Option GraphRunState} {input : Option (Frame ν)}
      {session : Option (AgentSession σ)} {transition bound : GraphTransition ν σ}
      {graphInput publication : Option GraphEvidenceCommitment} {answer : Option GraphRunState}
      {confirmed : GraphRunState}
      (prepares : prepareTransition graph scopeRun previous command result successor input session =
        .ok transition)
      (binds : bindTransitionEvidence transition graphInput publication = .ok bound)
      (confirms : confirmTransition bound answer = .ok confirmed) :
      Commits graph previous command confirmed

/-- What is prepared is reduced, admitted and built from its own command. -/
theorem prepareTransition_admitted {ν σ : Type} {scopeRun : ScopeRunCoordinate}
    {previous : Option GraphRunState} {command : GraphRunCommand}
    {result : Option (CompletedTask ν σ)} {successor : Option GraphRunState}
    {input : Option (Frame ν)} {session : Option (AgentSession σ)} {transition : GraphTransition ν σ}
    (prepares : prepareTransition graph scopeRun previous command result successor input session =
      .ok transition) :
    reduceGraphRun previous command = .ok transition.candidateState ∧
      transitionAdmissionError graph previous command transition.candidateState = .ok none ∧
      transition.previousState = previous ∧ transition.command = command := by
  simp only [prepareTransition, bind_eq_ok, exists_unit, rethrow_eq_ok, pure_eq_ok,
    Except.ok.injEq] at prepares
  obtain ⟨candidate, reduced, ⟨text, admitted, clear⟩, -, -, inputs, -, settlement, -, -, rfl⟩ :=
    prepares
  cases text with
  | some text => cases clear
  | none => exact ⟨reduced, admitted, rfl, rfl⟩

/-- A confirmed answer is the candidate, with one commitment more at most. -/
theorem confirmTransition_ok {ν σ : Type} {transition : GraphTransition ν σ}
    {answer : Option GraphRunState} {confirmed : GraphRunState}
    (confirms : confirmTransition transition answer = .ok confirmed) :
    ∃ successor, reduceGraphRun transition.previousState transition.command = .ok successor ∧
      SameButEvidence successor confirmed ∧ ValidRun confirmed := by
  cases answer with
  | none => cases confirms
  | some answer =>
      simp only [confirmTransition, rethrow_eq_ok, bind_eq_ok, exists_unit,
        validateGraphRunState_eq_ok, admitGraphRunConfirmation_eq_ok] at confirms
      obtain ⟨valid, rfl, successor, reduced, confirms⟩ := confirms
      exact ⟨successor, reduced, confirms.sameButEvidence, valid⟩

theorem bindTransitionEvidence_ok {ν σ : Type} {transition bound : GraphTransition ν σ}
    {graphInput publication : Option GraphEvidenceCommitment}
    (binds : bindTransitionEvidence transition graphInput publication = .ok bound) :
    bound.previousState = transition.previousState ∧
      (bound.command = transition.command ∨
        bindCommand transition.command graphInput publication = .ok bound.command) := by
  simp only [bindTransitionEvidence, bind_eq_ok, rethrow_eq_ok] at binds
  obtain ⟨command, bindsCommand, rest⟩ := binds
  by_cases none : graphInput = none ∧ publication = none
  · rw [if_pos none] at rest
    rw [← Except.ok.inj rest]
    exact ⟨rfl, .inl rfl⟩
  · rw [if_neg none] at rest
    simp only [bind_eq_ok, exists_unit, rethrow_eq_ok, pure_eq_ok, Except.ok.injEq] at rest
    obtain ⟨candidate, -, -, rfl⟩ := rest
    exact ⟨rfl, .inr bindsCommand⟩

/-- A committed state is the admitted successor of its command, but for the evidence. -/
theorem Commits.admitted {previous : Option GraphRunState} {command : GraphRunCommand}
    {next : GraphRunState} (commits : Commits graph previous command next) :
    ∃ candidate, reduceGraphRun previous command = .ok candidate ∧
      transitionAdmissionError graph previous command candidate = .ok none ∧
      SameButEvidence candidate next ∧ ValidRun next := by
  cases commits with
  | prepared prepares confirms =>
      obtain ⟨reduced, admitted, samePrevious, sameCommand⟩ := prepareTransition_admitted prepares
      obtain ⟨successor, again, same, valid⟩ := confirmTransition_ok confirms
      rw [samePrevious, sameCommand, reduced] at again
      rw [← Except.ok.inj again] at same
      exact ⟨_, reduced, admitted, same, valid⟩
  | bound prepares binds confirms =>
      obtain ⟨reduced, admitted, samePrevious, sameCommand⟩ := prepareTransition_admitted prepares
      obtain ⟨boundPrevious, boundCommand⟩ := bindTransitionEvidence_ok binds
      obtain ⟨successor, rebound, same, valid⟩ := confirmTransition_ok confirms
      rw [boundPrevious, samePrevious] at rebound
      rw [sameCommand] at boundCommand
      refine ⟨_, reduced, admitted, ?_, valid⟩
      rcases boundCommand with itself | changed
      · rw [itself, reduced] at rebound
        rw [← Except.ok.inj rebound] at same
        exact same
      · exact (bindCommand_same changed reduced rebound).trans same

/-- The states of the runs of one compiled graph. -/
inductive EngineRun (graph : CompiledGraph τ) : GraphRunState → Prop
  | start {runId : GraphRunId} {parent : Option GraphActivationIdentity}
      {cursor : Option GraphConfigCursor} {command : StartGraphRun} {state : GraphRunState}
      (projects : projectStartGraphCommand graph runId parent cursor = .ok command)
      (commits : Commits graph none (.start command) state) : EngineRun graph state
  | commit {state next : GraphRunState} {command : GraphRunCommand} (run : EngineRun graph state)
      (commits : Commits graph (some state) command next) : EngineRun graph next

/-! ## Admission of one transition -/

theorem routingEvaluation_ledger {state : GraphRunState} {evaluation : RoutingFacts}
    (evaluated : routingEvaluation graph state = .ok evaluation)
    (clear : evaluation.admissionError = none) :
    settledActivationAdmissionError graph state = none := by
  unfold routingEvaluation at evaluated
  by_contra wrong
  rw [if_pos (.inl wrong)] at evaluated
  rw [← Except.ok.inj evaluated] at clear
  exact wrong clear

theorem completionAdmissionError_eq_none {previous : GraphRunState}
    {command : CompleteGraphFrontier} {control : RoutingFacts} :
    completionAdmissionError graph previous command control = .ok none ↔
      control.activations = [] ∧ control.remainingJoinProgress = [] ∧
      control.consumedJoinProgress = command.consumedJoinProgress ∧
      completionRoute graph previous = .ok command.completionRoute := by
  unfold completionAdmissionError
  by_cases more : control.activations ≠ [] ∨ control.remainingJoinProgress ≠ []
  · rw [if_pos more]
    refine iff_of_false (fun wrong => nomatch wrong) ?_
    intro all
    rcases more with more | more
    · exact more all.1
    · exact more all.2.1
  · have idle := more
    rw [not_or, not_not, not_not] at idle
    rw [if_neg more]
    by_cases consumed : control.consumedJoinProgress ≠ command.consumedJoinProgress
    · rw [if_pos consumed]
      exact iff_of_false (fun wrong => nomatch wrong) (fun all => consumed all.2.2.1)
    · rw [if_neg consumed]
      cases exposed : completionRoute graph previous with
      | error error =>
          refine iff_of_false ?_ (fun all => nomatch all.2.2.2)
          by_cases caught : error.kind = .invalidRoutingCommand ∨ error.kind = .routingDeadlock
          · simp [caught]
          · simp [caught]
      | ok route =>
          by_cases different : command.completionRoute ≠ route
          · simp only [if_pos different]
            refine iff_of_false (fun wrong => nomatch wrong) ?_
            intro all
            exact different (Except.ok.inj all.2.2.2).symm
          · rw [not_not] at different
            simp [different, idle, not_not.mp consumed]

/-- What the admission of a transition requires of its candidate. -/
theorem transitionAdmissionError_eq_none {previous : Option GraphRunState}
    {command : GraphRunCommand} {candidate : GraphRunState} :
    transitionAdmissionError graph previous command candidate = .ok none ↔
      frontierAdmissionError graph candidate = .ok none ∧
      (candidate.status = .completed → ∃ state complete evaluation control,
        previous = some state ∧ command = .complete complete ∧
        routingEvaluation graph state = .ok evaluation ∧ evaluation.admissionError = none ∧
        resolveControl graph state evaluation = .ok control ∧
        completionAdmissionError graph state complete control = .ok none) := by
  have admitted : frontierAdmissionError graph candidate = .ok none ↔ ∃ evaluation,
      routingEvaluation graph candidate = .ok evaluation ∧ evaluation.admissionError = none := by
    simp only [frontierAdmissionError, bind_eq_ok, pure_eq_ok, Except.ok.injEq]
  rw [admitted, transitionAdmissionError.eq_def, bind_eq_ok, ← exists_and_right]
  refine exists_congr (fun evaluation => ?_)
  rw [and_assoc]
  refine and_congr_right (fun _ => ?_)
  by_cases clear : evaluation.admissionError = none
  · by_cases completed : candidate.status = .completed
    · rw [if_neg (not_or.mpr ⟨not_not.mpr clear, not_not.mpr completed⟩)]
      simp only [clear, completed, true_and, true_implies]
      have unsupported : (Except.ok (some
          "completed graph state lacks its admitted completion transition") :
            Except ExecutionError (Option String)) ≠ .ok none := fun wrong => nomatch wrong
      cases previous with
      | none =>
          refine iff_of_false unsupported ?_
          intro found
          obtain ⟨state, complete, prior, control, same, -⟩ := found
          cases same
      | some state =>
          cases command with
          | complete complete =>
              simp only [bind_eq_ok, Option.some.injEq, GraphRunCommand.complete.injEq,
                exists_and_left, exists_eq_left']
              refine exists_congr (fun prior => and_congr_right (fun _ => ?_))
              by_cases priorClear : prior.admissionError = none
              · simp only [priorClear, ne_eq, not_true_eq_false, if_false, true_and]
                cases resolved : resolveControl graph state prior with
                | ok control => simp
                | error error =>
                    refine iff_of_false ?_ (fun found => nomatch found)
                    by_cases caught : error.kind = .invalidRoutingCommand ∨
                        error.kind = .joinProgress ∨ error.kind = .snapshotMismatch
                    · simp [caught]
                    · simp [caught]
              · simp only [priorClear, ne_eq, not_false_eq_true, if_true, false_and, iff_false]
                intro same
                exact priorClear (Except.ok.inj same)
          | start | claim | fence | settle | resume | advance | abort =>
              refine iff_of_false unsupported ?_
              intro found
              obtain ⟨_, complete, prior, control, -, same, -⟩ := found
              cases same
    · rw [if_pos (.inr completed)]
      simp [clear, completed]
  · rw [if_pos (.inl clear)]
    simp [clear]

/-! ## The invariant -/

/-- A completed state: control resolved a settled frontier of a run to nothing, and the state keeps
its ledger and the route it exposes. -/
structure Ended (graph : CompiledGraph τ) (state previous : GraphRunState) (control : RoutingFacts) :
    Prop where
  run : ControlRun graph previous
  resolves : ResolvesTo graph previous control
  ends : control.activations = []
  closed : control.remainingJoinProgress = []
  ledger : state.settledReferences = previous.settledReferences
  exposes : completionRoute graph previous = .ok state.completionRoute

/-- What every state of an engine run satisfies. -/
structure RunInvariant (graph : CompiledGraph τ) (state : GraphRunState) : Prop where
  valid : ValidRun state
  definition : state.definitionId = graph.definitionId
  version : state.definitionVersion = graph.version
  codec : state.resumeInputCodec =
    graph.resumeInput.map (fun codec => ⟨codec.codecId, codec.version⟩)
  declares : DeclaresRoutes graph state
  opened : state.status ≠ .completed → Opened graph state
  ended : state.status = .completed → ∃ previous control, Ended graph state previous control

theorem SameButEvidence.stays {a b : GraphRunState} (same : SameButEvidence a b) : Stays a b := by
  have kept : b.settledReferences = a.settledReferences := same.references
  refine ⟨?_, ?_, ?_, ?_, ?_, ?_, ?_, ?_, ?_, ?_⟩
  · rw [same.state]
  · rw [same.state]
  · rw [same.state]
  · rw [same.state]
  · rw [same.state]
  · rw [same.state]
    exact id
  · rw [same.state]
  · rw [same.state]
  · rw [kept]
    exact List.Subset.refl _
  · intro reference settled
    rw [kept] at settled
    exact .inl settled

/-- Evidence is read by no part of the invariant. -/
theorem RunInvariant.sameButEvidence {a b : GraphRunState} (invariant : RunInvariant graph a)
    (same : SameButEvidence a b) (valid : ValidRun b) : RunInvariant graph b := by
  have status : b.status = a.status := by rw [same.state]
  have frontier : b.frontier = a.frontier := by rw [same.state]
  have route : b.completionRoute = a.completionRoute := by rw [same.state]
  have stays := same.stays
  refine ⟨valid, stays.definition.trans invariant.definition,
    stays.version.trans invariant.version, stays.codec.trans invariant.codec, ?_, ?_, ?_⟩
  · intro node inside
    rw [frontier] at inside
    exact invariant.declares node inside
  · intro live
    exact (invariant.opened (status ▸ live)).stays stays valid live
  · intro completed
    obtain ⟨previous, control, ended⟩ := invariant.ended (status.symm.trans completed)
    exact ⟨previous, control, { ended with
      ledger := same.references.trans ended.ledger
      exposes := by rw [route]; exact ended.exposes }⟩

/-- The admission of a live state declares the routes of its frontier. -/
theorem declaresRoutes_of_admitted {state : GraphRunState} (valid : ValidLedger state)
    (live : state.status ≠ .completed) (admitted : frontierAdmissionError graph state = .ok none) :
    DeclaresRoutes graph state := by
  obtain ⟨evaluation, evaluated, clear⟩ := (bind_eq_ok _ _ _).mp admitted
  exact declaresRoutes_of_ledger (routingEvaluation_ledger evaluated (Except.ok.inj clear)) valid live

/-- A start opens the entries. -/
theorem RunInvariant.start {runId : GraphRunId} {parent : Option GraphActivationIdentity}
    {cursor : Option GraphConfigCursor} {command : StartGraphRun} {state : GraphRunState}
    (projects : projectStartGraphCommand graph runId parent cursor = .ok command)
    (started : startGraphRun command = .ok state) : RunInvariant graph state := by
  simp only [projectStartGraphCommand, bind_eq_ok, exists_unit, pure_eq_ok, Except.ok.injEq]
    at projects
  obtain ⟨-, projected⟩ := projects
  obtain ⟨valid, running, superstep, -, -, -, -, progress, frontier⟩ := startGraphRun_ok started
  obtain ⟨-, -, -, -, built⟩ := (startGraphRun_eq_ok _ _).mp started
  have live : state.status ≠ .completed := by
    rw [running]
    exact fun wrong => nomatch wrong
  refine ⟨valid, ?_, ?_, ?_, ?_, ?_, fun completed => absurd completed live⟩
  · rw [built, ← projected]
    rfl
  · rw [built, ← projected]
    rfl
  · rw [built, ← projected]
    rfl
  · intro node inside routing settled
    rw [frontier] at inside
    obtain ⟨activation, -, rfl⟩ := List.mem_map.mp inside
    cases settled
  · intro _
    refine .start ⟨superstep, ?_, progress, ?_⟩
    · rw [frontier, ← projected]
      simp [pendingFrontier, GraphFrontierNode.activation]
    · intro reference
      rw [valid.ledger.split live, mem_pastReferences, superstep]
      simp

theorem frontierStatus_settled {frontier : GraphFrontierState}
    (settled : frontierStatus frontier = some .settled) :
    frontier.nodes ≠ [] ∧
      ∀ node ∈ frontier.nodes, ∃ routing, node.settlement = .succeeded routing := by
  unfold frontierStatus at settled
  simp only at settled
  split_ifs at settled with pending failed interrupted all
  · cases settled
  · cases settled
  · cases settled
  · obtain ⟨nonempty, succeeded⟩ := all
    refine ⟨fun none => nonempty (by rw [none]; rfl), ?_⟩
    intro node inside
    have success := List.all_eq_true.mp succeeded node.settlement
      (List.mem_map.mpr ⟨node, inside, rfl⟩)
    cases held : node.settlement with
    | succeeded routing => exact ⟨routing, rfl⟩
    | pending input =>
        rw [held] at success
        cases success
    | failed failure =>
        rw [held] at success
        cases success
    | interrupted interrupt =>
        rw [held] at success
        cases success

/-- An open frontier that has settled is one of an all-success run. -/
theorem Opened.settles {state : GraphRunState} (opened : Opened graph state)
    (settled : frontierStatus state.frontier = some .settled) (declares : DeclaresRoutes graph state) :
    ControlRun graph state := by
  have all : SettlesAll graph state := by
    intro node inside
    obtain ⟨routing, success⟩ := (frontierStatus_settled settled).2 node inside
    exact ⟨routing, success, declares node inside routing success⟩
  cases opened with
  | start starts => exact .start starts all
  | advance before resolves follows => exact .advance before resolves follows all

/-- An admitted completion ends a run of control. -/
theorem RunInvariant.completed {state candidate : GraphRunState} {command : CompleteGraphFrontier}
    (invariant : RunInvariant graph state)
    (reduced : reduceGraphRun (some state) (.complete command) = .ok candidate)
    (admitted : transitionAdmissionError graph (some state) (.complete command) candidate =
      .ok none) : RunInvariant graph candidate := by
  have valid := reduced_valid reduced
  obtain ⟨updated, reduces, rfl⟩ := (reduceGraphRun_some_eq_ok _ _ _).mp reduced
  obtain ⟨completes, rfl⟩ := (completeGraphFrontier_eq_ok _ _ _).mp reduces.transition
  have running : state.status = .running := completes.resolves.running
  have live : state.status ≠ .completed := by
    rw [running]
    exact fun wrong => nomatch wrong
  have run := (invariant.opened live).settles completes.resolves.settled invariant.declares
  obtain ⟨-, ends⟩ := transitionAdmissionError_eq_none.mp admitted
  obtain ⟨previous, complete, evaluation, control, same, named, evaluated, clear, resolved, admits⟩ :=
    ends rfl
  obtain rfl := Option.some.inj same
  obtain rfl := GraphRunCommand.complete.inj named
  obtain ⟨none, remaining, consumed, exposed⟩ := completionAdmissionError_eq_none.mp admits
  refine ⟨valid, invariant.definition, invariant.version, invariant.codec, ?_, ?_, ?_⟩
  · exact fun node inside => nomatch inside
  · exact fun wrong => absurd rfl wrong
  · intro _
    obtain ⟨clean, resolvable, fields⟩ :=
      (resolveControl_eq_ok graph state evaluation control).mp resolved
    obtain ⟨declared, prior⟩ := (routingEvaluation_admitted live _).mp
      ⟨evaluation, evaluated, clear, clean, rfl⟩
    have resolves := (resolvesTo_iff prior.declares prior.pending _).mpr ⟨resolvable, rfl⟩
    rw [fields] at none remaining
    exact ⟨state, _, run, resolves, none, remaining, rfl, exposed⟩

/-- A start that is committed satisfies the invariant. -/
theorem RunInvariant.started {runId : GraphRunId} {parent : Option GraphActivationIdentity}
    {cursor : Option GraphConfigCursor} {command : StartGraphRun} {state : GraphRunState}
    (projects : projectStartGraphCommand graph runId parent cursor = .ok command)
    (commits : Commits graph none (.start command) state) : RunInvariant graph state := by
  obtain ⟨candidate, reduced, -, same, valid⟩ := commits.admitted
  have started : startGraphRun command = .ok candidate := reduced
  exact (RunInvariant.start projects started).sameButEvidence same valid

section Steps

variable {nodeIds entries : List GraphNodeId} {edges : List Edge}
  {routeOptions : Dict GraphNodeId (List Route)} {dataDependencies : DataDependencies}
  {requirements : Dict GraphNodeId RouteRequirementProof}
  {guarantees : Dict GraphNodeId (List GraphNodeId)} {plan : ControlPlan}
  (accepted : Accepted graph nodeIds entries edges routeOptions dataDependencies requirements
    guarantees plan)
include accepted

/-- A settled frontier of a run has a resolved control. -/
theorem Accepted.resolvesTo {state : GraphRunState} (run : ControlRun graph state) :
    ∃ control, ResolvesTo graph state control := by
  obtain ⟨declared, arrivals, runsOn, resolvable, -⟩ := accepted.resolves run
  exact ⟨_, (resolvesTo_iff runsOn.declares runsOn.pending _).mpr ⟨resolvable, rfl⟩⟩

/-- An admitted advance opens the frontier that control resolved. -/
theorem Accepted.advances {state candidate : GraphRunState} {command : AdvanceGraphFrontier}
    (invariant : RunInvariant graph state)
    (reduced : reduceGraphRun (some state) (.advance command) = .ok candidate)
    (admitted : frontierAdmissionError graph candidate = .ok none) :
    RunInvariant graph candidate := by
  have valid := reduced_valid reduced
  obtain ⟨updated, reduces, rfl⟩ := (reduceGraphRun_some_eq_ok _ _ _).mp reduced
  obtain ⟨⟨consumes, advances⟩, rfl⟩ :=
    (advanceGraphFrontier_eq_ok reduces.valid.frontier.distinct _ _).mp reduces.transition
  have running : state.status = .running := advances.resolves.running
  have live : state.status ≠ .completed := by
    rw [running]
    exact fun wrong => nomatch wrong
  have run := (invariant.opened live).settles advances.resolves.settled invariant.declares
  obtain ⟨control, resolves⟩ := accepted.resolvesTo run
  have ledger : NextLedger state { state with
      superstep := state.superstep + 1
      frontier := pendingFrontier command.activations
      joinProgress := command.joinProgress
      completionRoute := none
      revision := state.revision + 1 } := by
    refine ⟨rfl, rfl, ?_⟩
    intro reference
    rw [mem_frontierPublications]
    constructor
    · exact fun settled => .inl settled
    · intro either
      rcases either with settled | ⟨node, inside, routing, settled, -⟩
      · exact settled
      · obtain ⟨activation, -, rfl⟩ := List.mem_map.mp inside
        cases settled
  obtain ⟨declared, arrivals, admits⟩ :=
    (frontierAdmissionError_eq_none (by exact live) (Nat.succ_ne_zero _)).mp admitted
  have follows := accepted.admitted_follows run resolves ledger valid admits
  exact ⟨valid, invariant.definition, invariant.version, invariant.codec,
    declaresRoutes_of_ledger admits.ledger valid.ledger live, fun _ => .advance run resolves follows,
    fun completed => absurd completed live⟩

/-- Every commit keeps the invariant. -/
theorem Accepted.commits {state next : GraphRunState} {command : GraphRunCommand}
    (invariant : RunInvariant graph state) (commits : Commits graph (some state) command next) :
    RunInvariant graph next := by
  obtain ⟨candidate, reduced, admitted, same, valid⟩ := commits.admitted
  refine RunInvariant.sameButEvidence ?_ same valid
  have frontierAdmitted := (transitionAdmissionError_eq_none.mp admitted).1
  by_cases advance : ∃ c, command = .advance c
  · obtain ⟨command, rfl⟩ := advance
    exact accepted.advances invariant reduced frontierAdmitted
  · by_cases complete : ∃ c, command = .complete c
    · obtain ⟨command, rfl⟩ := complete
      exact invariant.completed reduced admitted
    · have validCandidate := reduced_valid reduced
      obtain ⟨updated, reduces, rfl⟩ := (reduceGraphRun_some_eq_ok _ _ _).mp reduced
      have stays := transition_stays reduces.transition (fun c same => advance ⟨c, same⟩)
        (fun c same => complete ⟨c, same⟩)
      have running := (transition_lease reduces.valid reduces.transition).running
      have live : ({ updated with revision := state.revision + 1 } : GraphRunState).status ≠
          .completed := by
        intro completed
        rw [stays.status completed] at running
        cases running
      refine ⟨validCandidate, stays.definition.trans invariant.definition,
        stays.version.trans invariant.version, stays.codec.trans invariant.codec,
        declaresRoutes_of_admitted validCandidate.ledger live frontierAdmitted, ?_,
        fun completed => absurd completed live⟩
      intro _
      refine (invariant.opened ?_).stays stays validCandidate live
      rw [running]
      exact fun wrong => nomatch wrong

/-- Every state of an engine run satisfies the invariant. -/
theorem Accepted.invariant {state : GraphRunState} (run : EngineRun graph state) :
    RunInvariant graph state := by
  induction run with
  | start projects commits => exact .started projects commits
  | commit run commits ih => exact accepted.commits ih commits

/-- The ledger of every state is one of declared routes. -/
theorem Accepted.settled_declared {state : GraphRunState} (invariant : RunInvariant graph state) :
    ∀ reference ∈ state.settledReferences, reference.activation.nodeId ∈ nodeIds ∧
      reference.route ∈ graph.routeOptions reference.activation.nodeId := by
  by_cases completed : state.status = .completed
  · obtain ⟨previous, control, ended⟩ := invariant.ended completed
    obtain ⟨active, choice, recorded⟩ :=
      ended.run.recorded accepted.runs.wellFormed accepted.runs.carries
    intro reference settled
    rw [ended.ledger] at settled
    rw [accepted.runs.carries.options]
    exact accepted.recorded_declared recorded reference settled
  · exact accepted.opened_declared (invariant.opened completed) invariant.declares

/-- A completed state exposes a completion route of the graph. -/
theorem Accepted.exposes {state previous : GraphRunState} {control : RoutingFacts}
    (ended : Ended graph state previous control) : state.completionRoute ∈ graph.completionRoutes := by
  obtain ⟨declared, arrivals, runsOn, resolvable, closes⟩ := accepted.resolves ended.run
  obtain ⟨-, fields⟩ := (resolvesTo_iff runsOn.declares runsOn.pending _).mp ended.resolves
  have none : nextActivations (nextCauses graph previous arrivals) = [] := by
    have ends := ended.ends
    rw [fields] at ends
    exact ends
  have nonempty : previous.frontier.nodes ≠ [] := by
    intro empty
    have exposed := ended.exposes
    rw [completionRoute, routingContributions, empty] at exposed
    cases exposed
  obtain ⟨route, member, exposed⟩ :=
    accepted.completes ended.run runsOn (closes none).2 nonempty
  rw [← Except.ok.inj (exposed.symm.trans ended.exposes)]
  exact member

variable (values : PlansValues graph nodeIds entries edges dataDependencies plan)
include values

/-- The running checks of the snapshot guard pass but for the acquisitions of a lease. -/
theorem Accepted.running_guard {state : GraphRunState} (invariant : RunInvariant graph state)
    (running : state.status = .running) :
    requireRunningSnapshot graph state = .ok () ↔
      (state.execution ≠ none → requireResourceSnapshot graph state = .ok ()) := by
  have live : state.status ≠ .completed := by
    rw [running]
    exact fun wrong => nomatch wrong
  have opened := invariant.opened live
  obtain ⟨declared, arrivals, admits⟩ := accepted.frontier_admitted values opened invariant.declares
    (nodup_of_strict invariant.valid.ledger.canonical) (invariant.valid.nonempty live)
  have admitted := accepted.opened_admitted values opened invariant.valid live invariant.declares
  have entered : ¬ (state.superstep = 0 ∧
      state.frontier.nodes.map (·.nodeId) ≠ graph.transition.entries) := by
    intro both
    obtain ⟨first, other⟩ := both
    cases opened with
    | start starts =>
        apply other
        have named := congrArg (List.map GraphFrontierActivation.nodeId) starts.opens
        rw [List.map_map, List.map_map] at named
        exact named.trans (List.map_id _)
    | advance before resolves follows =>
        have superstep := follows.superstep
        omega
  have joins : ¬ ∃ progress ∈ state.joinProgress, progress.occurrence.join ∉ declared.keys := by
    intro found
    obtain ⟨progress, member, unknown⟩ := found
    obtain ⟨records, -⟩ := (pendingJoinArrivals_eq_ok _ _ _).mp admits.pending
    obtain ⟨plan, located, -⟩ := (records progress member).plan
    exact unknown ((Dict.mem_keys _ _).mpr ⟨plan, located⟩)
  have codec : requireResumeInputBinding graph state = .ok () := by
    rw [requireResumeInputBinding, invariant.codec]
    cases graph.resumeInput with
    | none => rfl
    | some binding => simp
  have contributions : checkAll (fun settled => validateRoutingContribution graph settled.1 settled.2)
      (routingContributions state.frontier) = .ok () := by
    rw [checkAll_eq_ok]
    intro settled member
    obtain ⟨node, inside, named, success⟩ := mem_routingContributions.mp member
    refine (accepted.runs.carries.contributes accepted.runs.wellFormed state ?_ ?_).route
    · rw [← named]
      exact (accepted.runs.carries.nodes _).mpr
        ((accepted.runs.nodes _).mpr (accepted.opened_known opened node inside))
    · rw [← named]
      exact invariant.declares node inside settled.2 success
  rw [requireRunningSnapshot, raiseIf, if_neg entered]
  simp only [admits.declares, ok_bind, raiseIf, if_neg joins, admitted, raiseText, pure_bind, codec,
    contributions]
  cases state.execution with
  | none => simp
  | some lease => simp

/-- The snapshot guard passes every state of a run but for the acquisitions of a lease. -/
theorem Accepted.guard {state : GraphRunState} (invariant : RunInvariant graph state) :
    requireSnapshotMatchesGraph graph state = .ok () ↔
      (state.execution ≠ none → requireResourceSnapshot graph state = .ok ()) := by
  have known : (state.frontier.nodes.map (·.nodeId)).filter (fun nodeId =>
      nodeId ∉ graph.nodes.keys) = [] := by
    rw [List.filter_eq_nil_iff]
    intro nodeId member
    obtain ⟨node, inside, rfl⟩ := List.mem_map.mp member
    have live : state.status ≠ .completed := by
      intro completed
      have status := invariant.valid.status
      unfold ValidStatus at status
      rw [completed] at status
      rw [status.1.1] at inside
      cases inside
    have compiled : node.nodeId ∈ graph.nodes.keys := (accepted.runs.carries.nodes _).mpr
      ((accepted.runs.nodes _).mpr (accepted.opened_known (invariant.opened live) node inside))
    simpa using compiled
  have valid : validateGraphRunState state = .ok () :=
    (validateGraphRunState_eq_ok _ ()).mpr invariant.valid
  rw [requireSnapshotMatchesGraph, valid]
  simp only [rethrow, raiseIf, invariant.definition, invariant.version, known]
  simp only [ne_eq, not_true_eq_false, or_self, if_false]
  by_cases running : state.status = .running
  · rw [if_neg (not_not.mpr running)]
    exact accepted.running_guard values invariant running
  · rw [if_pos running, accepted.ledger_clear (accepted.settled_declared invariant)]
    refine iff_of_true rfl ?_
    intro leased
    obtain ⟨lease, held⟩ := Option.ne_none_iff_exists'.mp leased
    exact absurd (invariant.valid.lease lease held).running running

end Steps

/-- Whatever the order of the committed commands, every state of a run of an accepted definition that is
not completed is an open frontier of an all-success run with declared routes, and a completed one
exposes a compiled route of a run whose last frontier activates nothing. The snapshot guard passes each
of them, so that any of them is a state to recover from; on a lease it is decided by the acquisitions
alone. -/
theorem engine_run_safe [DecidableEq τ] {definition : GraphDefinition τ}
    {nestedGraphs : Dict GraphNodeId (CompiledGraph τ)}
    (compiles : Compiles definition nestedGraphs graph) {state : GraphRunState}
    (run : EngineRun graph state) :
    (state.status ≠ .completed → Opened graph state ∧ DeclaresRoutes graph state) ∧
    (state.status = .completed → state.completionRoute ∈ graph.completionRoutes ∧
      ∃ previous control, ControlRun graph previous ∧ ResolvesTo graph previous control ∧
        control.activations = [] ∧ control.remainingJoinProgress = [] ∧
        state.settledReferences = previous.settledReferences ∧
        completionRoute graph previous = .ok state.completionRoute) ∧
    (requireSnapshotMatchesGraph graph state = .ok () ↔
      (state.execution ≠ none → requireResourceSnapshot graph state = .ok ())) := by
  obtain ⟨entries, routes, dataDependencies, plan, planned, values⟩ := compiles.planned_values
  obtain ⟨requirements, guarantees, accepted⟩ := compiles.accepted_plan planned
  have invariant := accepted.invariant run
  refine ⟨fun live => ⟨invariant.opened live, invariant.declares⟩, ?_,
    accepted.guard values invariant⟩
  intro completed
  obtain ⟨previous, control, ended⟩ := invariant.ended completed
  exact ⟨accepted.exposes ended, previous, control, ended.run, ended.resolves, ended.ends,
    ended.closed, ended.ledger, ended.exposes⟩

/-! ## A run -/

/-- The state after a prepared transition whose writer answers with the candidate. -/
def committedState (graph : CompiledGraph τ) (scopeRun : ScopeRunCoordinate)
    (previous : Option GraphRunState) (command : GraphRunCommand)
    (result : Option (CompletedTask Unit Unit)) (input : Option (Frame Unit)) :
    Option GraphRunState :=
  match prepareTransition graph scopeRun previous command result none input none with
  | .ok transition => (confirmTransition transition (some transition.candidateState)).toOption
  | .error _ => none

theorem commits_of_committedState {previous : Option GraphRunState} {command : GraphRunCommand}
    (scopeRun : ScopeRunCoordinate) (result : Option (CompletedTask Unit Unit))
    (input : Option (Frame Unit)) {next : GraphRunState}
    (committed : committedState graph scopeRun previous command result input = some next) :
    Commits graph previous command next := by
  unfold committedState at committed
  split at committed
  · rename_i transition prepared
    cases confirmed : confirmTransition transition (some transition.candidateState) with
    | error error =>
        rw [confirmed] at committed
        cases committed
    | ok answer =>
        rw [confirmed] at committed
        rw [← Option.some.inj committed]
        exact .prepared prepared confirmed
  · cases committed

/-- The producer is pending. -/
def valueStarted : GraphRunState where
  runId := "run"
  definitionId := "values"
  definitionVersion := 1
  status := .running
  superstep := 0
  frontier := ⟨[⟨"a", .pending .useStepRequestInput, .start⟩]⟩

/-- The producer is claimed. -/
def valueClaimed : GraphRunState :=
  { valueStarted with
    executionSequence := 1
    execution := some ⟨⟨1, "attempt"⟩⟩
    revision := 1 }

/-- A run that claims and settles the producer. -/
theorem valueFirst_reached : EngineRun (compiledGraph valueDefinition) valueFirst := by
  have start : Commits (compiledGraph valueDefinition) none
      (.start ⟨"run", "values", 1, [⟨"a", .start⟩], none, none, none, none⟩) valueStarted :=
    commits_of_committedState ⟨[], "run"⟩ none (some ⟨[], none⟩) (by decide +kernel)
  have claim : Commits (compiledGraph valueDefinition) (some valueStarted)
      (.claim ⟨0, "attempt", none⟩) valueClaimed :=
    commits_of_committedState ⟨[], "run"⟩ none none (by decide +kernel)
  have settle : Commits (compiledGraph valueDefinition) (some valueClaimed)
      (.settle ⟨1, ⟨1, "attempt"⟩, .succeeded "a" .continueGraphRouting, none, none⟩) valueFirst :=
    commits_of_committedState ⟨[], "run"⟩
      (some (.success ⟨taskIdentity "run" 0 "a", "run", 0, "a"⟩ ⟨[], none⟩ none none)) none
      (by decide +kernel)
  have projects : projectStartGraphCommand (compiledGraph valueDefinition) "run" none none =
      .ok ⟨"run", "values", 1, [⟨"a", .start⟩], none, none, none, none⟩ := by decide +kernel
  exact ((EngineRun.start projects start).commit claim).commit settle

/-- A run that opens the consumer. -/
theorem valueSecond_reached : EngineRun (compiledGraph valueDefinition) valueSecond := by
  have advance : Commits (compiledGraph valueDefinition) (some valueFirst)
      (.advance ⟨2, valueControl.activations, [], []⟩) valueSecond :=
    commits_of_committedState ⟨[], "run"⟩ none none (by decide +kernel)
  exact valueFirst_reached.commit advance

/-- The state that the run reaches can be recovered from. -/
theorem valueSecond_safe : Opened (compiledGraph valueDefinition) valueSecond ∧
    requireSnapshotMatchesGraph (compiledGraph valueDefinition) valueSecond = .ok () := by
  have safe := engine_run_safe valueDefinition_compiles valueSecond_reached
  exact ⟨(safe.1 (fun completed => nomatch completed)).1,
    safe.2.2.mpr (fun leased => absurd rfl leased)⟩

end MoteKernel
