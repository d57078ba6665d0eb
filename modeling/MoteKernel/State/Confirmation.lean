import MoteKernel.State.Preservation

/-!
# Confirmation

`admit_graph_run_confirmation` of `state/graph_state/reducer.py`. A store may
answer a command with the reducer's successor, or with that successor and one
evidence commitment at the place the command created.
-/

namespace MoteKernel
open Checked Canonical

/-! ## The admission -/

/-- The error of every answer that is not the exact successor. -/
def notExactSuccessor : GraphStateError :=
  .transition "confirmed graph state is not the exact reducer successor"

/-- `matches` of `admit_graph_run_confirmation`. -/
def confirmedMatches (confirmed : GraphRunState) (nodeId : GraphNodeId) :
    List GraphPublicationSettlement :=
  confirmed.settledPublications.filter (fun item =>
    item.reference.activation.runId = confirmed.runId ∧
    item.reference.activation.superstep = confirmed.superstep ∧
    item.reference.activation.nodeId = nodeId)

/-- `bound` of `admit_graph_run_confirmation`: the command with the evidence of the answer. -/
def boundCommand (confirmed : GraphRunState) :
    GraphRunCommand → Except GraphStateError GraphRunCommand
  | .start command =>
      match confirmed.graphInputEvidence with
      | none => throw notExactSuccessor
      | some commitment => do
          raiseIf (command.graphInputEvidence ≠ none) notExactSuccessor
          rethrow GraphStateError.value commitment.admitted
          return .start { command with graphInputEvidence := some commitment }
  | .settle command =>
      match command.outcome with
      | .succeeded nodeId _ =>
          match confirmedMatches confirmed nodeId with
          | [⟨_, _, _, some commitment⟩] => do
              raiseIf (command.publicationEvidence ≠ none) notExactSuccessor
              rethrow GraphStateError.value commitment.admitted
              return .settle { command with publicationEvidence := some commitment }
          | _ => throw notExactSuccessor
      | _ => throw notExactSuccessor
  | _ => throw notExactSuccessor

/-- `admit_graph_run_confirmation`. -/
def admitGraphRunConfirmation (state : Option GraphRunState) (command : GraphRunCommand)
    (confirmed : GraphRunState) : Except GraphStateError GraphRunState := do
  validateGraphRunState confirmed
  let expected ← reduceGraphRun state command
  if confirmed = expected then
    return confirmed
  let bound ← boundCommand confirmed command
  let successor ← reduceGraphRun state bound
  raiseIf (confirmed ≠ successor) notExactSuccessor
  return confirmed

/-! ## Places -/

/-- A place of a graph-run state that may hold one evidence commitment. -/
inductive EvidencePlace where
  | graphInput
  | publication (activation : GraphActivationIdentity)
  deriving DecidableEq, Repr

/-- The place a command creates in the successor it leads to. -/
def GraphRunCommand.createdPlace (successor : GraphRunState) :
    GraphRunCommand → Option EvidencePlace
  | .start _ => some .graphInput
  | .settle ⟨_, _, .succeeded nodeId _, _, _⟩ =>
      some (.publication ⟨successor.runId, successor.superstep, nodeId⟩)
  | _ => none

/-- One record, with its evidence replaced when it stands at the activation. -/
def GraphPublicationSettlement.annotate (activation : GraphActivationIdentity)
    (evidence : Option GraphEvidenceCommitment) (record : GraphPublicationSettlement) :
    GraphPublicationSettlement :=
  if record.reference.activation = activation then { record with evidence := evidence } else record

/-- The state with the evidence at one place replaced, and nothing else. -/
def GraphRunState.annotate (state : GraphRunState) (evidence : Option GraphEvidenceCommitment) :
    EvidencePlace → GraphRunState
  | .graphInput => { state with graphInputEvidence := evidence }
  | .publication activation => { state with
      settledPublications := state.settledPublications.map (·.annotate activation evidence) }

/-- The place is there exactly once, and holds no commitment yet. -/
def GraphRunState.Vacant (state : GraphRunState) : EvidencePlace → Prop
  | .graphInput => state.graphInputEvidence = none
  | .publication activation => ∃ record,
      state.settledPublications.filter (·.reference.activation = activation) = [record] ∧
      record.evidence = none

/-! ## Erasing -/

namespace GraphPublicationSettlement

variable {activation : GraphActivationIdentity} {record : GraphPublicationSettlement}

theorem annotate_here (evidence : Option GraphEvidenceCommitment)
    (here : record.reference.activation = activation) :
    record.annotate activation evidence = { record with evidence := evidence } :=
  if_pos here

theorem annotate_elsewhere (evidence : Option GraphEvidenceCommitment)
    (elsewhere : record.reference.activation ≠ activation) :
    record.annotate activation evidence = record :=
  if_neg elsewhere

@[simp] theorem annotate_reference (evidence : Option GraphEvidenceCommitment) :
    (record.annotate activation evidence).reference = record.reference := by
  unfold annotate
  split <;> rfl

end GraphPublicationSettlement

theorem filter_map_annotate (ledger : List GraphPublicationSettlement)
    (activation : GraphActivationIdentity) (evidence : Option GraphEvidenceCommitment) :
    (ledger.map (·.annotate activation evidence)).filter (·.reference.activation = activation) =
      (ledger.filter (·.reference.activation = activation)).map
        (fun record => { record with evidence := evidence }) := by
  induction ledger with
  | nil => rfl
  | cons record ledger ih =>
      by_cases here : record.reference.activation = activation
      · rw [List.map_cons, List.filter_cons_of_pos (by simp [here]),
          List.filter_cons_of_pos (by simp [here]), List.map_cons, ih,
          GraphPublicationSettlement.annotate_here evidence here]
      · rw [List.map_cons, List.filter_cons_of_neg (by simp [here]),
          List.filter_cons_of_neg (by simp [here]), ih]

/-- Erasing the commitment at a vacant place gives the state back. -/
theorem GraphRunState.Vacant.erase {state : GraphRunState} {place : EvidencePlace}
    (vacant : state.Vacant place) (evidence : Option GraphEvidenceCommitment) :
    (state.annotate evidence place).annotate none place = state := by
  cases place with
  | graphInput =>
      have none : state.graphInputEvidence = none := vacant
      simp only [GraphRunState.annotate, ← none]
  | publication activation =>
      obtain ⟨record, only, none⟩ := vacant
      have same : (state.settledPublications.map (·.annotate activation evidence)).map
          (·.annotate activation .none) = state.settledPublications := by
        rw [List.map_map]
        conv_rhs => rw [← List.map_id state.settledPublications]
        apply List.map_congr_left
        intro item member
        show (item.annotate activation evidence).annotate activation .none = item
        by_cases here : item.reference.activation = activation
        · have itemOnly : item ∈ state.settledPublications.filter
              (·.reference.activation = activation) := by simp [member, here]
          rw [only, List.mem_singleton] at itemOnly
          subst itemOnly
          simp only [GraphPublicationSettlement.annotate, here, if_true, ← none]
        · simp only [GraphPublicationSettlement.annotate, here, if_false]
      simp only [GraphRunState.annotate, same]

/-! ## A start -/

/-- The state `start_graph_run` builds. -/
def startedState (command : StartGraphRun) : GraphRunState :=
  { runId := command.runId
    definitionId := command.definitionId
    definitionVersion := command.definitionVersion
    status := .running
    superstep := 0
    frontier := pendingFrontier command.activations
    parent := command.parent
    resumeInputCodec := command.resumeInputCodec
    configRevision := (startConfigCursor command).revision
    configDefinitionId := (startConfigCursor command).definitionId
    configDefinitionVersion := (startConfigCursor command).definitionVersion
    configDigest := (startConfigCursor command).digest
    graphInputEvidence := command.graphInputEvidence }

theorem startGraphRun_eq_ok (command : StartGraphRun) (t : GraphRunState) :
    startGraphRun command = .ok t ↔ startActivations command.activations = .ok () ∧
      (startConfigCursor command).postInit = .ok () ∧
      ValidEvidence command.graphInputEvidence ∧ ValidRun (startedState command) ∧
      t = startedState command := by
  simp only [startGraphRun, bind_unit_eq_ok, rethrow_eq_ok, admitEvidence_eq_ok,
    validatedGraphRunState_eq_ok]
  rfl

/-- The graph-input evidence of a running state is read by no check. -/
theorem ValidRun.annotate_graphInput {state : GraphRunState} (valid : ValidRun state)
    (running : state.status = .running) (evidence : Option GraphEvidenceCommitment) :
    ValidRun (state.annotate evidence .graphInput) := by
  have place : SamePlace state (state.annotate evidence .graphInput) :=
    ⟨rfl, rfl, rfl, le_refl _, List.Subset.refl _⟩
  have live : state.status ≠ .completed := by simp [running]
  exact { valid with
    ledger := valid.ledger.keep place rfl (le_refl _) live (fun _ => Iff.rfl)
    parent := fun parent member => { valid.parent parent member with }
    joins := valid.joins.keep place rfl
    frontier := valid.frontier.keep place
    resources := fun resources member => { valid.resources resources member with }
    lease := fun lease member => { valid.lease lease member with }
    status := valid.status.keep_running running running rfl rfl rfl }

/-- A start that names its evidence leads to the annotated successor. -/
theorem start_bound {command : StartGraphRun} {successor : GraphRunState}
    {commitment : GraphEvidenceCommitment} (digest : ValidEvidence (some commitment))
    (started : reduceGraphRun none (.start command) = .ok successor) :
    reduceGraphRun none (.start { command with graphInputEvidence := some commitment }) =
      .ok (successor.annotate (some commitment) .graphInput) := by
  obtain ⟨activations, cursor, -, valid, rfl⟩ := (startGraphRun_eq_ok _ _).mp started
  apply (startGraphRun_eq_ok _ _).mpr
  exact ⟨activations, cursor, digest, valid.annotate_graphInput rfl (some commitment), rfl⟩

/-! ## A settlement -/

theorem recordPublication_annotate {ledger : List GraphPublicationSettlement}
    (record : GraphPublicationSettlement) (evidence : Option GraphEvidenceCommitment)
    (unrecorded : ∀ item ∈ ledger, item.reference.activation ≠ record.reference.activation) :
    (recordPublication ledger record).map (·.annotate record.reference.activation evidence) =
      recordPublication ledger { record with evidence := evidence } := by
  have old : ledger.map (·.annotate record.reference.activation evidence) = ledger := by
    conv_rhs => rw [← List.map_id ledger]
    apply List.map_congr_left
    intro item member
    exact GraphPublicationSettlement.annotate_elsewhere evidence (unrecorded item member)
  unfold recordPublication
  rw [List.map_insertionSort _ (fun a b : GraphPublicationSettlement => a.reference ≤ b.reference)
    _ _ (fun a _ b _ => by simp only [GraphPublicationSettlement.annotate_reference]),
    List.map_append, old, List.map_singleton,
    GraphPublicationSettlement.annotate_here evidence rfl]

/-- The record a successful settlement adds. -/
def settledRecord (state : GraphRunState) (command : SettleGraphNode) (nodeId : GraphNodeId)
    (routing : GraphRoutingContribution) : GraphPublicationSettlement :=
  ⟨activationReference state.runId state.superstep nodeId routing.route,
    command.expectedRevision + 1, command.execution, command.publicationEvidence⟩

section Settlement

variable {state successor : GraphRunState} {command : SettleGraphNode} {nodeId : GraphNodeId}
  {routing : GraphRoutingContribution}

/-- A successful settlement, opened: its successor's ledger has one more record. -/
theorem settled_success (outcome : command.outcome = .succeeded nodeId routing)
    (reduced : reduceGraphRun (some state) (.settle command) = .ok successor) :
    ValidRun state ∧ command.expectedRevision = state.revision ∧
    CanonicalReference (activationReference state.runId state.superstep nodeId routing.route) ∧
    activationReference state.runId state.superstep nodeId routing.route ∉
      state.settledReferences ∧
    ∃ cursor resources,
      Settles state command (.succeeded routing) (recordPublication state.settledPublications
        (settledRecord state command nodeId routing)) cursor resources ∧
      successor = settledResult state command (.succeeded routing)
        (recordPublication state.settledPublications (settledRecord state command nodeId routing))
        cursor resources := by
  obtain ⟨updated, reduces, rfl⟩ := (reduceGraphRun_some_eq_ok _ _ _).mp reduced
  obtain ⟨settlement, ledger, cursor, resources, settles, rfl⟩ :=
    (settleGraphNode_eq_ok _ _ _).mp reduces.transition
  refine ⟨reduces.valid, Option.some.inj reduces.expected, ?_⟩
  have settled := settles.outcome
  cases settled with
  | succeeded nodeId' routing' outcome' canonical fresh =>
      rw [outcome] at outcome'
      cases outcome'
      exact ⟨canonical, fresh, cursor, resources, settles, rfl⟩
  | failed nodeId' failure outcome' => rw [outcome] at outcome'; cases outcome'
  | interrupted nodeId' payload outcome' => rw [outcome] at outcome'; cases outcome'

/-- No earlier record stands at the activation a success settles. -/
theorem settled_unrecorded (outcome : command.outcome = .succeeded nodeId routing)
    (reduced : reduceGraphRun (some state) (.settle command) = .ok successor) :
    ∀ item ∈ state.settledPublications,
      item.reference.activation ≠ ⟨state.runId, state.superstep, nodeId⟩ := by
  obtain ⟨valid, -, -, -, cursor, resources, settles, -⟩ := settled_success outcome reduced
  have own : command.outcome.nodeId = nodeId := by rw [outcome]; rfl
  rw [← own]
  exact settles.unrecorded valid

/-- A settlement that names its evidence leads to the annotated successor. -/
theorem settle_bound (outcome : command.outcome = .succeeded nodeId routing)
    {commitment : GraphEvidenceCommitment} (digest : ValidEvidence (some commitment))
    (reduced : reduceGraphRun (some state) (.settle command) = .ok successor) :
    reduceGraphRun (some state) (.settle { command with publicationEvidence := some commitment }) =
      .ok (successor.annotate (some commitment)
        (.publication ⟨state.runId, state.superstep, nodeId⟩)) := by
  obtain ⟨valid, expected, canonical, fresh, cursor, resources, settles, rfl⟩ :=
    settled_success outcome reduced
  have unrecorded := settled_unrecorded outcome reduced
  have bound : Settles state { command with publicationEvidence := some commitment }
      (.succeeded routing) (recordPublication state.settledPublications
        { settledRecord state command nodeId routing with evidence := some commitment })
      cursor resources :=
    ⟨settles.running, settles.leased, settles.pending,
      .succeeded nodeId routing outcome canonical fresh, settles.cursor, settles.resources⟩
  have moved := (settleGraphNode_eq_ok state _ _).mpr ⟨_, _, _, _, bound, rfl⟩
  have wellFormed : WellFormedCommand
      (.settle { command with publicationEvidence := some commitment }) := by
    refine ⟨(valid.lease _ settles.leased).token, digest, ?_⟩
    intro failedId failure failed
    rw [outcome] at failed
    cases failed
  have result := transition_preserves valid wellFormed (congrArg some expected) moved
  apply (reduceGraphRun_some_eq_ok _ _ _).mpr
  refine ⟨_, ⟨valid, congrArg some expected, moved, result⟩, ?_⟩
  have ledger : (recordPublication state.settledPublications
      (settledRecord state command nodeId routing)).map
        (·.annotate ⟨state.runId, state.superstep, nodeId⟩ (some commitment)) =
      recordPublication state.settledPublications
        { settledRecord state command nodeId routing with evidence := some commitment } :=
    recordPublication_annotate (settledRecord state command nodeId routing) (some commitment)
      unrecorded
  simp only [GraphRunState.annotate, settledResult, settledState]
  rw [← ledger]

/-- The record a success adds is the only one at its activation. -/
theorem settled_only (outcome : command.outcome = .succeeded nodeId routing)
    (reduced : reduceGraphRun (some state) (.settle command) = .ok successor) :
    successor.settledPublications.filter
        (·.reference.activation = ⟨state.runId, state.superstep, nodeId⟩) =
      [settledRecord state command nodeId routing] := by
  have unrecorded := settled_unrecorded outcome reduced
  obtain ⟨-, -, -, -, cursor, resources, -, rfl⟩ := settled_success outcome reduced
  have old : state.settledPublications.filter
      (·.reference.activation = ⟨state.runId, state.superstep, nodeId⟩) = [] := by
    apply List.filter_eq_nil_iff.mpr
    intro item member
    simp [unrecorded item member]
  have perm := (recordPublication_perm state.settledPublications
    (settledRecord state command nodeId routing)).filter
      (·.reference.activation = ⟨state.runId, state.superstep, nodeId⟩)
  rw [List.filter_append, old, List.nil_append, List.filter_cons_of_pos (by simp [settledRecord,
    activationReference]), List.filter_nil] at perm
  exact List.perm_singleton.mp perm

theorem settled_vacant (outcome : command.outcome = .succeeded nodeId routing)
    (reduced : reduceGraphRun (some state) (.settle command) = .ok successor) :
    successor.Vacant (.publication ⟨state.runId, state.superstep, nodeId⟩) ↔
      command.publicationEvidence = none := by
  simp only [GraphRunState.Vacant, settled_only outcome reduced, List.cons.injEq, and_true,
    exists_eq_left']
  rfl

end Settlement

/-! ## The accepted answers -/

/-- The answers a store may give for a command whose reducer successor is known. -/
inductive Confirms (command : GraphRunCommand) (successor : GraphRunState) : GraphRunState → Prop
  | exact : Confirms command successor successor
  | annotated (place : EvidencePlace) (commitment : GraphEvidenceCommitment)
      (created : command.createdPlace successor = some place) (vacant : successor.Vacant place)
      (digest : commitment.digest.length = 32) :
      Confirms command successor (successor.annotate (some commitment) place)

/-- The commands `bound` can be made of, and what each of them was bound to. -/
theorem boundCommand_eq_ok {confirmed : GraphRunState} {command bound : GraphRunCommand}
    (ok : boundCommand confirmed command = .ok bound) :
    ∃ commitment : GraphEvidenceCommitment, commitment.digest.length = 32 ∧
      ((∃ start, command = .start start ∧ start.graphInputEvidence = none ∧
          bound = .start { start with graphInputEvidence := some commitment }) ∨
        ∃ settle nodeId routing, command = .settle settle ∧
          settle.outcome = .succeeded nodeId routing ∧ settle.publicationEvidence = none ∧
          bound = .settle { settle with publicationEvidence := some commitment }) := by
  cases command with
  | start start =>
      simp only [boundCommand] at ok
      split at ok
      · cases ok
      · rename_i commitment found
        simp only [bind_unit_eq_ok, raiseIf_eq_ok, ne_eq, not_not, rethrow_eq_ok,
          GraphEvidenceCommitment.admitted, pure_eq_ok, Except.ok.injEq] at ok
        obtain ⟨bare, digest, rfl⟩ := ok
        exact ⟨commitment, digest, .inl ⟨start, rfl, bare, rfl⟩⟩
  | settle settle =>
      simp only [boundCommand] at ok
      split at ok
      · rename_i nodeId routing outcome
        split at ok
        · rename_i commitment found
          simp only [bind_unit_eq_ok, raiseIf_eq_ok, ne_eq, not_not, rethrow_eq_ok,
            GraphEvidenceCommitment.admitted, pure_eq_ok, Except.ok.injEq] at ok
          obtain ⟨bare, digest, rfl⟩ := ok
          exact ⟨commitment, digest, .inr ⟨settle, nodeId, routing, rfl, outcome, bare, rfl⟩⟩
        · cases ok
      · cases ok
  | claim => cases ok
  | fence => cases ok
  | resume => cases ok
  | advance => cases ok
  | complete => cases ok
  | abort => cases ok

theorem confirmedMatches_eq (confirmed : GraphRunState) (nodeId : GraphNodeId) :
    confirmedMatches confirmed nodeId = confirmed.settledPublications.filter
      (·.reference.activation = ⟨confirmed.runId, confirmed.superstep, nodeId⟩) := by
  apply List.filter_congr
  intro item member
  rw [decide_eq_decide, GraphActivationIdentity.mk.injEq]

/-- The place a settlement creates stands at the coordinate of its predecessor. -/
theorem createdPlace_settle {state successor : GraphRunState} {command : SettleGraphNode}
    {nodeId : GraphNodeId} {routing : GraphRoutingContribution}
    (outcome : command.outcome = .succeeded nodeId routing)
    (reduced : reduceGraphRun (some state) (.settle command) = .ok successor) :
    (GraphRunCommand.settle command).createdPlace successor =
      some (.publication ⟨state.runId, state.superstep, nodeId⟩) := by
  obtain ⟨-, -, -, -, cursor, resources, -, rfl⟩ := settled_success outcome reduced
  obtain ⟨expectedRevision, execution, _, configCursor, evidence⟩ := command
  cases outcome
  rfl

/-- A bound command that is reduced leads to an annotated successor. -/
theorem Confirms.of_bound {state : Option GraphRunState} {command bound : GraphRunCommand}
    {successor confirmed : GraphRunState} (reduced : reduceGraphRun state command = .ok successor)
    (made : boundCommand confirmed command = .ok bound)
    (rebound : reduceGraphRun state bound = .ok confirmed) :
    Confirms command successor confirmed := by
  obtain ⟨commitment, digest, source⟩ := boundCommand_eq_ok made
  have valid : ValidEvidence (some commitment) := by simpa [ValidEvidence] using digest
  rcases source with ⟨start, rfl, bare, rfl⟩ | ⟨settle, nodeId, routing, rfl, outcome, bare, rfl⟩
  · cases state with
    | some state => simp [reduceGraphRun] at reduced
    | none =>
        rw [start_bound valid reduced, Except.ok.injEq] at rebound
        subst rebound
        obtain ⟨-, -, -, -, rfl⟩ := (startGraphRun_eq_ok _ _).mp reduced
        exact .annotated .graphInput commitment rfl bare digest
  · cases state with
    | none => simp [reduceGraphRun] at reduced
    | some state =>
        rw [settle_bound outcome valid reduced, Except.ok.injEq] at rebound
        subst rebound
        exact .annotated _ commitment (createdPlace_settle outcome reduced)
          ((settled_vacant outcome reduced).mpr bare) digest

theorem reduced_valid {state : Option GraphRunState} {command : GraphRunCommand}
    {successor : GraphRunState} (reduced : reduceGraphRun state command = .ok successor) :
    ValidRun successor := by
  cases state with
  | none =>
      obtain ⟨start, rfl, started⟩ := (reduceGraphRun_none_eq_ok _ _).mp reduced
      exact (startGraphRun_ok started).1
  | some state =>
      obtain ⟨updated, reduces, rfl⟩ := (reduceGraphRun_some_eq_ok _ _ _).mp reduced
      exact reduces.result

/-- The command that names the evidence of an annotated successor is reduced to it. -/
theorem Confirms.bound {state : Option GraphRunState} {command : GraphRunCommand}
    {successor : GraphRunState} {place : EvidencePlace} {commitment : GraphEvidenceCommitment}
    (reduced : reduceGraphRun state command = .ok successor)
    (created : command.createdPlace successor = some place) (vacant : successor.Vacant place)
    (digest : commitment.digest.length = 32) :
    ∃ bound, boundCommand (successor.annotate (some commitment) place) command = .ok bound ∧
      reduceGraphRun state bound = .ok (successor.annotate (some commitment) place) := by
  have valid : ValidEvidence (some commitment) := by simpa [ValidEvidence] using digest
  cases command with
  | start start =>
      cases created
      cases state with
      | some state => simp [reduceGraphRun] at reduced
      | none =>
          obtain ⟨-, -, -, -, started⟩ := (startGraphRun_eq_ok _ _).mp reduced
          have bare : start.graphInputEvidence = none := by
            have none : successor.graphInputEvidence = none := vacant
            rwa [started] at none
          refine ⟨.start { start with graphInputEvidence := some commitment }, ?_,
            start_bound valid reduced⟩
          simp [boundCommand, GraphRunState.annotate, bare, GraphEvidenceCommitment.admitted,
            digest]
  | settle settle =>
      cases state with
      | none => simp [reduceGraphRun] at reduced
      | some state =>
          cases outcome : settle.outcome with
          | succeeded nodeId routing =>
              rw [createdPlace_settle outcome reduced, Option.some.injEq] at created
              subst created
              have bare := (settled_vacant outcome reduced).mp vacant
              refine ⟨.settle { settle with publicationEvidence := some commitment }, ?_,
                settle_bound outcome valid reduced⟩
              -- The answer's only record there is the settled one, with the commitment.
              have only : confirmedMatches (successor.annotate (some commitment)
                  (.publication ⟨state.runId, state.superstep, nodeId⟩)) nodeId =
                  [{ settledRecord state settle nodeId routing with
                    evidence := some commitment }] := by
                have found := settled_only outcome reduced
                obtain ⟨-, -, -, -, cursor, resources, -, rfl⟩ := settled_success outcome reduced
                rw [confirmedMatches_eq]
                apply (filter_map_annotate _ ⟨state.runId, state.superstep, nodeId⟩ _).trans
                rw [found, List.map_singleton]
              simp [boundCommand, outcome, only, bare, GraphEvidenceCommitment.admitted, digest]
          | failed nodeId failure =>
              obtain ⟨_, _, _, _, _⟩ := settle
              cases outcome
              cases created
          | interrupted nodeId identity payload =>
              obtain ⟨_, _, _, _, _⟩ := settle
              cases outcome
              cases created
  | claim => cases created
  | fence => cases created
  | resume => cases created
  | advance => cases created
  | complete => cases created
  | abort => cases created

/-- `admit_graph_run_confirmation` accepts exactly the answers `Confirms` lists. -/
theorem admitGraphRunConfirmation_eq_ok (state : Option GraphRunState) (command : GraphRunCommand)
    (confirmed result : GraphRunState) :
    admitGraphRunConfirmation state command confirmed = .ok result ↔
      result = confirmed ∧ ∃ successor, reduceGraphRun state command = .ok successor ∧
        Confirms command successor confirmed := by
  simp only [admitGraphRunConfirmation, bind_eq_ok, exists_unit, validateGraphRunState_eq_ok]
  constructor
  · rintro ⟨-, successor, reduced, accepted⟩
    split at accepted
    · rename_i same
      subst same
      exact ⟨(Except.ok.inj accepted).symm, confirmed, reduced, .exact⟩
    · simp only [bind_eq_ok, exists_unit, raiseIf_eq_ok, ne_eq, not_not, pure_eq_ok,
        Except.ok.injEq] at accepted
      obtain ⟨bound, made, rebound, reducedBound, rfl, rfl⟩ := accepted
      exact ⟨rfl, successor, reduced, .of_bound reduced made reducedBound⟩
  · rintro ⟨rfl, successor, reduced, confirms⟩
    cases confirms with
    | exact => exact ⟨reduced_valid reduced, _, reduced, by simp⟩
    | annotated place commitment created vacant digest =>
        obtain ⟨bound, made, reducedBound⟩ := Confirms.bound reduced created vacant digest
        refine ⟨reduced_valid reducedBound, successor, reduced, ?_⟩
        split
        · rfl
        · simp [made, reducedBound]

/-- Confirmation admits exactly one annotation: an answer is accepted when it is the reducer's
successor, or that successor with one commitment at the single place this command created.
Erasing the commitment gives the successor back. -/
theorem confirmation_exact (state : Option GraphRunState) (command : GraphRunCommand)
    (confirmed : GraphRunState) :
    ((∃ result, admitGraphRunConfirmation state command confirmed = .ok result) ↔
      ∃ successor, reduceGraphRun state command = .ok successor ∧
        Confirms command successor confirmed) ∧
    (∀ result, admitGraphRunConfirmation state command confirmed = .ok result →
      result = confirmed ∧ ∃ successor, reduceGraphRun state command = .ok successor ∧
        (confirmed = successor ∨ ∃ place, command.createdPlace successor = some place ∧
          confirmed.annotate none place = successor)) := by
  refine ⟨?_, ?_⟩
  · simp only [admitGraphRunConfirmation_eq_ok, exists_eq_left]
  · intro result accepted
    obtain ⟨rfl, successor, reduced, confirms⟩ :=
      (admitGraphRunConfirmation_eq_ok state command confirmed result).mp accepted
    refine ⟨rfl, successor, reduced, ?_⟩
    cases confirms with
    | exact => exact .inl rfl
    | annotated place commitment created vacant digest =>
        exact .inr ⟨place, created, vacant.erase (some commitment)⟩

end MoteKernel
