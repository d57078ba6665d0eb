import MoteKernel.Execution.Settlement
import MoteKernel.State.Preservation
import MoteKernel.State.ResourceOrder

/-!
# Settlements in either order

Two results of one claimed frontier settle different nodes. Each part of the
state a settlement touches (frontier, ledger, Config cursor, resources) merges
in both orders; the ledger keeps the order only in the commit revisions.
-/

namespace MoteKernel
open Checked Canonical

/-! ## The parts of a settlement -/

/-- The record a settlement adds to the ledger. -/
def recordOf (state : GraphRunState) (command : SettleGraphNode) :
    Option GraphPublicationSettlement :=
  match command.outcome with
  | .succeeded nodeId routing => some
      ⟨activationReference state.runId state.superstep nodeId routing.route,
        command.expectedRevision + 1, command.execution, command.publicationEvidence⟩
  | _ => none

/-- The ledger with the record of a settlement, if it has one. -/
def addRecord (ledger : List GraphPublicationSettlement) :
    Option GraphPublicationSettlement → List GraphPublicationSettlement
  | none => ledger
  | some record => recordPublication ledger record

theorem mem_addRecord {ledger : List GraphPublicationSettlement}
    {record : Option GraphPublicationSettlement} {item : GraphPublicationSettlement} :
    item ∈ addRecord ledger record ↔ item ∈ ledger ∨ item ∈ record := by
  cases record with
  | none => simp [addRecord]
  | some record => simp [addRecord, mem_recordPublication, eq_comm]

/-- The record of a settlement names the settled node. -/
theorem recordOf_activation {state : GraphRunState} {command : SettleGraphNode}
    {record : GraphPublicationSettlement} (member : record ∈ recordOf state command) :
    record.reference.activation = ⟨state.runId, state.superstep, command.outcome.nodeId⟩ ∧
      record.commitRevision = command.expectedRevision + 1 := by
  unfold recordOf at member
  split at member
  · rename_i nodeId routing outcome
    obtain rfl := Option.some.inj member
    simp [activationReference, outcome, GraphNodeOutcome.nodeId]
  · cases member

/-- The same command based on another revision. -/
def SettleGraphNode.basedOn (command : SettleGraphNode) (revision : Nat) : SettleGraphNode :=
  { command with expectedRevision := revision }

theorem OutcomeSettles.ledger_eq {state : GraphRunState} {command : SettleGraphNode}
    {settlement : GraphNodeSettlement} {ledger : List GraphPublicationSettlement}
    (settles : OutcomeSettles state command settlement ledger) :
    ledger = addRecord state.settledPublications (recordOf state command) := by
  cases settles with
  | succeeded nodeId routing outcome canonical fresh => simp [recordOf, outcome, addRecord]
  | failed nodeId failure outcome noEvidence => simp [recordOf, outcome, addRecord]
  | interrupted nodeId payload outcome noEvidence codec => simp [recordOf, outcome, addRecord]

/-- An outcome settles in the same way in a later state of the same superstep that has no record
of it. -/
theorem OutcomeSettles.later {state later : GraphRunState} {command : SettleGraphNode}
    {settlement : GraphNodeSettlement} {ledger : List GraphPublicationSettlement}
    (settles : OutcomeSettles state command settlement ledger) (revision : Nat)
    (run : later.runId = state.runId) (superstep : later.superstep = state.superstep)
    (codec : later.resumeInputCodec = state.resumeInputCodec)
    (fresh : ∀ record ∈ recordOf state command, record.reference ∉ later.settledReferences) :
    OutcomeSettles later (command.basedOn revision) settlement
      (addRecord later.settledPublications (recordOf later (command.basedOn revision))) := by
  cases settles with
  | succeeded nodeId routing outcome canonical _ =>
      have absent : activationReference state.runId state.superstep nodeId routing.route ∉
          later.settledReferences := by
        simpa [recordOf, outcome] using fresh
      rw [← run, ← superstep] at canonical absent
      have settled : OutcomeSettles later (command.basedOn revision) _ _ :=
        .succeeded nodeId routing outcome canonical absent
      simpa [recordOf, SettleGraphNode.basedOn, outcome, addRecord] using settled
  | failed nodeId failure outcome noEvidence =>
      have settled : OutcomeSettles later (command.basedOn revision) _ _ :=
        .failed nodeId failure outcome noEvidence
      simpa [recordOf, SettleGraphNode.basedOn, outcome, addRecord] using settled
  | interrupted nodeId payload outcome noEvidence hasCodec =>
      rw [← codec] at hasCodec
      have laterOutcome := outcome
      rw [← run, ← superstep] at laterOutcome
      have settled : OutcomeSettles later (command.basedOn revision) _ _ :=
        .interrupted nodeId payload laterOutcome noEvidence hasCodec
      simpa [recordOf, SettleGraphNode.basedOn, outcome, addRecord, run, superstep] using settled

/-- Settlements of different nodes touch different places of the frontier. -/
theorem settleFrontier_comm (frontier : GraphFrontierState) {a b : GraphNodeId}
    (different : a ≠ b) (first second : GraphNodeSettlement) :
    settleFrontier (settleFrontier frontier a first) b second =
      settleFrontier (settleFrontier frontier b second) a first := by
  simp only [settleFrontier, List.map_map]
  refine congrArg GraphFrontierState.mk (List.map_congr_left (fun node _ => ?_))
  simp only [Function.comp_apply]
  by_cases isA : node.nodeId = a
  · simp [isA, different]
  · by_cases isB : node.nodeId = b
    · simp [isB, different.symm]
    · simp [isA, isB]

/-- A settlement that names a Config with a digest leaves exactly that cursor. -/
theorem transitionTo_eq {self candidate cursor : GraphConfigCursor} {digest : String}
    (known : candidate.digest = some digest) (moved : self.transitionTo candidate = .ok cursor) :
    cursor = candidate := by
  obtain ⟨-, sameId, sameVersion, ⟨sameRevision, compatible, rfl⟩ | ⟨-, rfl⟩⟩ :=
    (transitionTo_eq_ok _ _ _).mp moved
  · split
    · rfl
    · rename_i present
      have sameDigest : candidate.digest = self.digest := by
        rcases compatible with missing | absent | same
        · simp [missing, known] at present
        · simp [known] at absent
        · exact same
      obtain ⟨id, version, revision, _⟩ := self
      obtain ⟨id', version', revision', _⟩ := candidate
      simp_all
  · rfl

theorem transitionTo_self {cursor : GraphConfigCursor} (valid : cursor.postInit = .ok ()) :
    cursor.transitionTo cursor = .ok cursor := by
  refine (transitionTo_eq_ok _ _ _).mpr ⟨valid, rfl, rfl, .inl ⟨rfl, .inr (.inr rfl), ?_⟩⟩
  split <;> rfl

/-- The cursor after two settlements that name no two different Configs. -/
theorem settleConfigCursor_comm {state first second : GraphRunState} {a b : SettleGraphNode}
    {cursorA cursorB : GraphConfigCursor} (revisionA revisionB : Nat)
    (digestA : ∀ x ∈ a.configCursor, x.digest ≠ none)
    (settledA : settleConfigCursor state a = .ok cursorA)
    (settledB : settleConfigCursor state b = .ok cursorB)
    (afterA : first.configCursor = cursorA) (afterB : second.configCursor = cursorB)
    (agree : ∀ x ∈ a.configCursor, ∀ y ∈ b.configCursor, x = y) :
    ∃ cursor, settleConfigCursor first (b.basedOn revisionB) = .ok cursor ∧
      settleConfigCursor second (a.basedOn revisionA) = .ok cursor := by
  unfold settleConfigCursor at settledA settledB
  simp only [settleConfigCursor, SettleGraphNode.basedOn, afterA, afterB]
  cases hasA : a.configCursor with
  | none =>
      simp only [hasA, pure_eq_ok, Except.ok.injEq] at settledA
      subst settledA
      refine ⟨cursorB, ?_, by simp⟩
      cases hasB : b.configCursor <;> simpa [hasB] using settledB
  | some x =>
      obtain ⟨digest, digestEq⟩ := Option.ne_none_iff_exists'.mp (digestA x hasA)
      simp only [hasA, rethrow_eq_ok] at settledA
      obtain rfl := transitionTo_eq digestEq settledA
      cases hasB : b.configCursor with
      | none =>
          simp only [hasB, pure_eq_ok, Except.ok.injEq] at settledB
          subst settledB
          exact ⟨cursorA, by simp, by simpa using settledA⟩
      | some y =>
          obtain rfl := agree cursorA hasA y hasB
          simp only [hasB, rethrow_eq_ok] at settledB
          obtain rfl := transitionTo_eq digestEq settledB
          have valid := ((transitionTo_eq_ok _ _ _).mp settledA).1
          exact ⟨cursorB, by simpa using transitionTo_self valid,
            by simpa using transitionTo_self valid⟩

/-! ## Resources -/

/-- The snapshot a settlement keeps after a release. -/
def keptSnapshot (released : ResourceSnapshot) : Option ResourceSnapshot :=
  if released.acquisitions = [] then none else some released

theorem settleResources_participant {snapshot : ResourceSnapshot} {nodeId : GraphNodeId}
    (member : nodeId ∈ ResourceReducer.participants snapshot) (after : Option ResourceSnapshot) :
    settleResources (some snapshot) nodeId = .ok after ↔ ∃ released,
      ResourceReducer.reduceResources snapshot (.releaseResources nodeId) = .ok released ∧
      after = keptSnapshot released := by
  have inside : nodeId ∈ snapshot.acquisitions.map (·.nodeId) := member
  simp only [settleResources, if_pos inside, bind_eq_ok, rethrow_eq_ok, pure_eq_ok,
    Except.ok.injEq, keptSnapshot, eq_comm (a := after)]

theorem settleResources_other {resources : Option ResourceSnapshot} {nodeId : GraphNodeId}
    (absent : ∀ snapshot ∈ resources, nodeId ∉ ResourceReducer.participants snapshot) :
    settleResources resources nodeId = .ok resources := by
  cases resources with
  | none => rfl
  | some snapshot =>
      have outside : nodeId ∉ snapshot.acquisitions.map (·.nodeId) := absent snapshot rfl
      simp only [settleResources, if_neg outside, pure_eq_ok]

/-- A release keeps the others out of the snapshot they were not in. -/
theorem absent_keptSnapshot {snapshot released : ResourceSnapshot} {nodeId other : GraphNodeId}
    (reduced : ResourceReducer.reduceResources snapshot (.releaseResources nodeId) = .ok released)
    (absent : other ∉ ResourceReducer.participants snapshot) :
    ∀ kept ∈ keptSnapshot released, other ∉ ResourceReducer.participants kept := by
  intro kept member inside
  unfold keptSnapshot at member
  split at member
  · cases member
  · obtain rfl := Option.some.inj member
    have ids := (ResourceReducer.reduceResources_release reduced).2
    rw [ResourceReducer.participants, ids] at inside
    exact absent (List.mem_filter.mp inside).1

/-- Both releases leave the same resources, whichever comes first. -/
theorem settleResources_comm {resources resourcesA resourcesB : Option ResourceSnapshot}
    {a b : GraphNodeId} (different : a ≠ b)
    (settledA : settleResources resources a = .ok resourcesA)
    (settledB : settleResources resources b = .ok resourcesB)
    (inOrder : ∀ snapshot ∈ resources, a ∈ ResourceReducer.participants snapshot →
      b ∈ ResourceReducer.participants snapshot →
      ResourceReducer.PromotionsInOrder (ResourceReducer.withoutParticipant snapshot a) b ∧
      ResourceReducer.PromotionsInOrder (ResourceReducer.withoutParticipant snapshot b) a) :
    ∃ both, settleResources resourcesA b = .ok both ∧ settleResources resourcesB a = .ok both := by
  cases resources with
  | none =>
      obtain rfl : none = resourcesA := by simpa [settleResources] using settledA
      obtain rfl : none = resourcesB := by simpa [settleResources] using settledB
      exact ⟨none, rfl, rfl⟩
  | some snapshot =>
      by_cases insideA : a ∈ ResourceReducer.participants snapshot
      · obtain ⟨left, releaseA, rfl⟩ := (settleResources_participant insideA _).mp settledA
        by_cases insideB : b ∈ ResourceReducer.participants snapshot
        · obtain ⟨right, releaseB, rfl⟩ := (settleResources_participant insideB _).mp settledB
          obtain ⟨orderA, orderB⟩ := inOrder snapshot rfl insideA insideB
          obtain ⟨both, first, second⟩ :=
            ResourceReducer.releases_commute different releaseA releaseB orderA orderB
          have stillB : b ∈ ResourceReducer.participants left := by
            rw [ResourceReducer.participants,
              (ResourceReducer.reduceResources_release releaseA).2]
            exact List.mem_filter.mpr ⟨insideB, by simpa using different.symm⟩
          have stillA : a ∈ ResourceReducer.participants right := by
            rw [ResourceReducer.participants,
              (ResourceReducer.reduceResources_release releaseB).2]
            exact List.mem_filter.mpr ⟨insideA, by simpa using different⟩
          have someLeft : keptSnapshot left = some left := by
            refine if_neg (fun empty => ?_)
            simp [ResourceReducer.participants, empty] at stillB
          have someRight : keptSnapshot right = some right := by
            refine if_neg (fun empty => ?_)
            simp [ResourceReducer.participants, empty] at stillA
          rw [someLeft, someRight]
          exact ⟨keptSnapshot both, (settleResources_participant stillB _).mpr ⟨both, first, rfl⟩,
            (settleResources_participant stillA _).mpr ⟨both, second, rfl⟩⟩
        · have unchanged : settleResources (some snapshot) b = .ok (some snapshot) :=
            settleResources_other
            (fun kept same => Option.some.inj same ▸ insideB)
          obtain rfl := Except.ok.inj (unchanged.symm.trans settledB)
          exact ⟨keptSnapshot left, settleResources_other (absent_keptSnapshot releaseA insideB),
            settledA⟩
      · have unchanged : settleResources (some snapshot) a = .ok (some snapshot) :=
          settleResources_other
          (fun kept same => Option.some.inj same ▸ insideA)
        obtain rfl := Except.ok.inj (unchanged.symm.trans settledA)
        by_cases insideB : b ∈ ResourceReducer.participants snapshot
        · obtain ⟨right, releaseB, rfl⟩ := (settleResources_participant insideB _).mp settledB
          exact ⟨keptSnapshot right, settledB,
            settleResources_other (absent_keptSnapshot releaseB insideA)⟩
        · have unchangedB : settleResources (some snapshot) b = .ok (some snapshot) :=
            settleResources_other
            (fun kept same => Option.some.inj same ▸ insideB)
          obtain rfl := Except.ok.inj (unchangedB.symm.trans settledB)
          exact ⟨some snapshot, settledB, settledA⟩

/-! ## The second settlement -/

section Both

variable {state : GraphRunState} {a b : SettleGraphNode}
  {settlementA settlementB : GraphNodeSettlement}
  {ledgerA ledgerB : List GraphPublicationSettlement} {cursorA cursorB : GraphConfigCursor}
  {resourcesA resourcesB : Option ResourceSnapshot}

/-- While another node is pending, a settlement keeps the frontier executable. -/
theorem Settles.executable (settlesA : Settles state a settlementA ledgerA cursorA resourcesA)
    (settlesB : Settles state b settlementB ledgerB cursorB resourcesB)
    (different : a.outcome.nodeId ≠ b.outcome.nodeId) :
    frontierStatus (settleFrontier state.frontier a.outcome.nodeId settlementA) =
      some .executable := by
  obtain ⟨node, member, same, pending⟩ := settlesB.pendingNode
  have stillPending : b.outcome.nodeId ∈
      pendingNodeIds (settleFrontier state.frontier a.outcome.nodeId settlementA) :=
    (mem_pendingNodeIds_settleFrontier settlesA.outcome.not_pending).mpr
      ⟨mem_pendingNodeIds.mpr ⟨node, member, pending, same⟩, different.symm⟩
  exact pendingNodeIds_ne_nil.mp (List.ne_nil_of_mem stillPending)

/-- The second of two settlements, in the state the first one left. -/
theorem Settles.second (valid : ValidRun state)
    (settlesA : Settles state a settlementA ledgerA cursorA resourcesA)
    (settlesB : Settles state b settlementB ledgerB cursorB resourcesB)
    (different : a.outcome.nodeId ≠ b.outcome.nodeId) (revision : Nat)
    {cursor : GraphConfigCursor} {resources : Option ResourceSnapshot}
    (cursorOk : settleConfigCursor
      (settledResult state a settlementA ledgerA cursorA resourcesA) (b.basedOn revision) =
        .ok cursor)
    (resourcesOk : settleResources resourcesA b.outcome.nodeId = .ok resources) :
    Settles (settledResult state a settlementA ledgerA cursorA resourcesA) (b.basedOn revision)
      settlementB (addRecord ledgerA (recordOf state (b.basedOn revision))) cursor resources := by
  have executable := settlesA.executable settlesB different
  obtain ⟨node, member, same, pending⟩ := settlesB.pendingNode
  have fresh : ∀ record ∈ recordOf state b, record.reference ∉
      (settledResult state a settlementA ledgerA cursorA resourcesA).settledReferences := by
    intro record recordMember inside
    obtain ⟨item, itemMember, sameReference⟩ := List.mem_map.mp inside
    have activation := (recordOf_activation recordMember).1
    have ledger : item ∈ addRecord state.settledPublications (recordOf state a) :=
      settlesA.outcome.ledger_eq ▸ itemMember
    rcases mem_addRecord.mp ledger with old | new
    · exact settlesB.unrecorded valid item old (sameReference ▸ activation)
    · have other := (recordOf_activation new).1
      rw [sameReference, activation] at other
      simp only [GraphActivationIdentity.mk.injEq, true_and] at other
      exact different other.symm
  have outcome : OutcomeSettles (settledResult state a settlementA ledgerA cursorA resourcesA)
      (b.basedOn revision) settlementB _ := settlesB.outcome.later revision rfl rfl rfl fresh
  refine ⟨?_, ?_, ?_, outcome, cursorOk, ?_⟩
  · simp [settledResult, settledState, executable]
  · simpa [settledResult, settledState, executable, SettleGraphNode.basedOn] using settlesB.leased
  · have kept : b.outcome.nodeId ∈ pendingNodeIds
        (settledResult state a settlementA ledgerA cursorA resourcesA).frontier :=
      (mem_pendingNodeIds_settleFrontier settlesA.outcome.not_pending).mpr
        ⟨mem_pendingNodeIds.mpr ⟨node, member, pending, same⟩, different.symm⟩
    refine pending_found ?_ kept
    rw [settledResult, settledState, settleFrontier_nodeIds]
    exact valid.frontier.distinct
  · simpa [settledResult, settledState, executable, SettleGraphNode.basedOn] using resourcesOk

/-- The outcome of an accepted settlement is well formed. -/
theorem Settles.wellFormed (settlesA : Settles state a settlementA ledgerA cursorA resourcesA)
    (result : ValidRun (settledResult state a settlementA ledgerA cursorA resourcesA))
    (noEvidence : a.publicationEvidence = none) (revision : Nat) :
    WellFormedOutcome (a.basedOn revision) := by
  refine ⟨by simp [SettleGraphNode.basedOn, noEvidence, ValidEvidence], ?_⟩
  intro nodeId failure outcome
  obtain ⟨node, member, same, -⟩ := settlesA.pendingNode
  have settled : (⟨node.nodeId, settlementA, node.cause⟩ : GraphFrontierNode) ∈
      (settledResult state a settlementA ledgerA cursorA resourcesA).frontier.nodes :=
    mem_settleFrontier.mpr ⟨node, member, by simp [same]⟩
  have own := result.frontier.settlements _ settled
  have outcomeA : a.outcome = .failed nodeId failure := outcome
  cases settlesA.outcome with
  | succeeded _ _ other => simp [outcomeA] at other
  | failed _ _ other =>
      obtain ⟨-, rfl⟩ := GraphNodeOutcome.failed.inj (outcomeA.symm.trans other)
      exact own
  | interrupted _ _ other => simp [outcomeA] at other

/-- The exchange of two commit revisions. -/
def exchangeRevisions (first second : Nat) (record : GraphPublicationSettlement) :
    GraphPublicationSettlement :=
  { record with commitRevision := Equiv.swap first second record.commitRevision }

/-- Ledgers in canonical order with the same records are equal. -/
theorem ledger_ext {xs ys : List GraphPublicationSettlement}
    (orderedX : (xs.map (·.reference)).Pairwise (· < ·))
    (orderedY : (ys.map (·.reference)).Pairwise (· < ·)) (same : ∀ item, item ∈ xs ↔ item ∈ ys) :
    xs = ys := by
  have distinctX := List.Nodup.of_map _ (nodup_of_strict orderedX)
  have distinctY := List.Nodup.of_map _ (nodup_of_strict orderedY)
  have perm : xs.Perm ys := (List.perm_ext_iff_of_nodup distinctX distinctY).mpr same
  rw [List.pairwise_map] at orderedX orderedY
  exact perm.eq_of_pairwise (fun _ _ _ _ less more => absurd more (not_lt_of_gt less))
    orderedX orderedY

theorem recordOf_basedOn (revision : Nat) :
    recordOf state (a.basedOn revision) =
      (recordOf state a).map (fun record => { record with commitRevision := revision + 1 }) := by
  unfold recordOf
  cases outcome : a.outcome <;> simp [SettleGraphNode.basedOn, outcome]

/-- The exchange moves a record from one place of the order to the other. -/
theorem exchange_recordOf (expected : a.expectedRevision = state.revision) :
    (recordOf state a).map (exchangeRevisions (state.revision + 1) (state.revision + 2)) =
        recordOf state (a.basedOn (state.revision + 1)) ∧
    (recordOf state (a.basedOn (state.revision + 1))).map
        (exchangeRevisions (state.revision + 1) (state.revision + 2)) = recordOf state a := by
  rw [recordOf_basedOn]
  cases found : recordOf state a with
  | none => simp
  | some record =>
      have commit := (recordOf_activation (Option.mem_def.mpr found)).2
      rw [expected] at commit
      obtain ⟨reference, _, execution, evidence⟩ := record
      subst commit
      simp [exchangeRevisions]

/-- The two ledgers have the same records with the commit revisions exchanged. -/
theorem addRecord_exchange (valid : ValidRun state)
    (expectedA : a.expectedRevision = state.revision)
    (expectedB : b.expectedRevision = state.revision) (item : GraphPublicationSettlement) :
    item ∈ addRecord (addRecord state.settledPublications (recordOf state b))
        (recordOf state (a.basedOn (state.revision + 1))) ↔
      item ∈ (addRecord (addRecord state.settledPublications (recordOf state a))
        (recordOf state (b.basedOn (state.revision + 1)))).map
          (exchangeRevisions (state.revision + 1) (state.revision + 2)) := by
  have old : ∀ record ∈ state.settledPublications,
      exchangeRevisions (state.revision + 1) (state.revision + 2) record = record := by
    intro record member
    have early := valid.ledger.revision record member
    have stays : Equiv.swap (state.revision + 1) (state.revision + 2) record.commitRevision =
        record.commitRevision := Equiv.swap_apply_of_ne_of_ne (by omega) (by omega)
    rw [exchangeRevisions, stays]
  have movesA := (exchange_recordOf expectedA).1
  have movesB := (exchange_recordOf expectedB).2
  simp only [List.mem_map, mem_addRecord]
  rw [← movesA]
  constructor
  · rintro ((ledger | own) | moved)
    · exact ⟨item, .inl (.inl ledger), old item ledger⟩
    · rw [← movesB] at own
      obtain ⟨record, member, same⟩ := Option.map_eq_some_iff.mp own
      exact ⟨record, .inr member, same⟩
    · obtain ⟨record, member, same⟩ := Option.map_eq_some_iff.mp moved
      exact ⟨record, .inl (.inr member), same⟩
  · rintro ⟨record, (ledger | own) | moved, rfl⟩
    · rw [old record ledger]
      exact .inl (.inl ledger)
    · exact .inr (Option.map_eq_some_iff.mpr ⟨record, own, rfl⟩)
    · refine .inl (.inr ?_)
      rw [← movesB]
      exact Option.map_eq_some_iff.mpr ⟨record, moved, rfl⟩

/-- The state two settlements leave, but for its ledger, does not depend on their order. -/
theorem settledResult_comm (settlesA : Settles state a settlementA ledgerA cursorA resourcesA)
    (settlesB : Settles state b settlementB ledgerB cursorB resourcesB)
    (different : a.outcome.nodeId ≠ b.outcome.nodeId) (revision : Nat)
    (cursor : GraphConfigCursor) (resources : Option ResourceSnapshot)
    (ledger ledger' : List GraphPublicationSettlement) :
    settledResult (settledResult state b settlementB ledgerB cursorB resourcesB)
        (a.basedOn revision) settlementA ledger' cursor resources =
      { settledResult (settledResult state a settlementA ledgerA cursorA resourcesA)
        (b.basedOn revision) settlementB ledger cursor resources with
          settledPublications := ledger' } := by
  have executableA := settlesA.executable settlesB different
  have executableB := settlesB.executable settlesA different.symm
  simp only [settledResult, settledState, SettleGraphNode.basedOn, executableA, executableB,
    settleFrontier_comm state.frontier different, if_true]

end Both

/-! ## Order independence -/

/-- What `settle_result` puts into its command. -/
theorem settleResult_ok {τ : Type} {graph : CompiledGraph τ} {state : GraphRunState}
    {result : TaskResult} {command : SettleGraphNode}
    (projected : settleResult graph state result = .ok command) :
    command.expectedRevision = state.revision ∧ command.publicationEvidence = none ∧
      command.outcome.nodeId = result.task.nodeId ∧
      ∀ cursor ∈ command.configCursor, cursor.digest ≠ none := by
  simp only [settleResult, bind_eq_ok, exists_unit] at projected
  obtain ⟨-, _, -, -, -, settled⟩ := projected
  cases result with
  | success task config route =>
      simp only [projectSettlement, projectSuccessSettlement, bind_eq_ok, exists_unit,
        pure_eq_ok, Except.ok.injEq] at settled
      obtain ⟨-, token, -, rfl⟩ := settled
      refine ⟨rfl, rfl, rfl, ?_⟩
      intro cursor member
      obtain ⟨config, -, rfl⟩ := Option.map_eq_some_iff.mp member
      simp [ActivationConfig.configCursor]
  | failure task failure =>
      simp only [projectSettlement, projectFailureSettlement, bind_eq_ok, pure_eq_ok,
        Except.ok.injEq] at settled
      obtain ⟨token, -, rfl⟩ := settled
      exact ⟨rfl, rfl, rfl, by simp⟩
  | interrupt task payload =>
      simp only [projectSettlement, projectInterruptSettlement, bind_eq_ok, exists_unit,
        pure_eq_ok, Except.ok.injEq] at settled
      obtain ⟨-, token, -, rfl⟩ := settled
      exact ⟨rfl, rfl, rfl, by simp⟩

/-- What an accepted settlement does. -/
theorem reduceGraphRun_settle {state t : GraphRunState} {command : SettleGraphNode} :
    reduceGraphRun (some state) (.settle command) = .ok t ↔
      ValidRun state ∧ command.expectedRevision = state.revision ∧
      ∃ settlement ledger cursor resources,
        Settles state command settlement ledger cursor resources ∧
        ValidRun (settledResult state command settlement ledger cursor resources) ∧
        t = settledResult state command settlement ledger cursor resources := by
  rw [reduceGraphRun_some_eq_ok]
  constructor
  · rintro ⟨updated, ⟨valid, expected, moved, result⟩, rfl⟩
    obtain ⟨settlement, ledger, cursor, resources, settles, rfl⟩ :=
      (settleGraphNode_eq_ok _ _ _).mp moved
    exact ⟨valid, Option.some.inj expected, settlement, ledger, cursor, resources, settles,
      result, rfl⟩
  · rintro ⟨valid, expected, settlement, ledger, cursor, resources, settles, result, rfl⟩
    exact ⟨_, ⟨valid, congrArg some expected,
      (settleGraphNode_eq_ok _ _ _).mpr ⟨_, _, _, _, settles, rfl⟩, result⟩, rfl⟩

/-- Two results of one claimed state settle in either order, if they name no two different
Configs and each release is in order after the other: both second settlements are accepted, and
the states differ in the exchanged commit revisions of the two records. -/
theorem settlement_order_independent {τ : Type} (graph : CompiledGraph τ) (state : GraphRunState)
    (first second : TaskResult) (a b : SettleGraphNode) (afterA afterB : GraphRunState)
    (different : first.task.nodeId ≠ second.task.nodeId)
    (projectedA : settleResult graph state first = .ok a)
    (projectedB : settleResult graph state second = .ok b)
    (acceptedA : reduceGraphRun (some state) (.settle a) = .ok afterA)
    (acceptedB : reduceGraphRun (some state) (.settle b) = .ok afterB)
    (configs : ∀ x ∈ a.configCursor, ∀ y ∈ b.configCursor, x = y)
    (releases : ∀ snapshot ∈ state.resources,
      a.outcome.nodeId ∈ ResourceReducer.participants snapshot →
      b.outcome.nodeId ∈ ResourceReducer.participants snapshot →
      ResourceReducer.PromotionsInOrder
        (ResourceReducer.withoutParticipant snapshot a.outcome.nodeId) b.outcome.nodeId ∧
      ResourceReducer.PromotionsInOrder
        (ResourceReducer.withoutParticipant snapshot b.outcome.nodeId) a.outcome.nodeId) :
    ∃ bothAB bothBA,
      reduceGraphRun (some afterA)
        (.settle { b with expectedRevision := b.expectedRevision + 1 }) = .ok bothAB ∧
      reduceGraphRun (some afterB)
        (.settle { a with expectedRevision := a.expectedRevision + 1 }) = .ok bothBA ∧
      bothBA = { bothAB with
        settledPublications := bothAB.settledPublications.map
          (exchangeRevisions (state.revision + 1) (state.revision + 2)) } ∧
      ∀ record ∈ bothAB.settledPublications,
        record.commitRevision = state.revision + 1 ∨ record.commitRevision = state.revision + 2 →
        record.reference.activation = ⟨state.runId, state.superstep, first.task.nodeId⟩ ∨
        record.reference.activation = ⟨state.runId, state.superstep, second.task.nodeId⟩ := by
  obtain ⟨-, evidenceA, nodeA, digestA⟩ := settleResult_ok projectedA
  obtain ⟨-, evidenceB, nodeB, -⟩ := settleResult_ok projectedB
  obtain ⟨valid, expectedA, settlementA, ledgerA, cursorA, resourcesA, settlesA, validA, rfl⟩ :=
    reduceGraphRun_settle.mp acceptedA
  obtain ⟨-, expectedB, settlementB, ledgerB, cursorB, resourcesB, settlesB, validB, rfl⟩ :=
    reduceGraphRun_settle.mp acceptedB
  rw [← nodeA, ← nodeB] at different
  have cursorOfA : (settledResult state a settlementA ledgerA cursorA resourcesA).configCursor =
      cursorA := rfl
  have cursorOfB : (settledResult state b settlementB ledgerB cursorB resourcesB).configCursor =
      cursorB := rfl
  obtain ⟨cursor, cursorAB, cursorBA⟩ := settleConfigCursor_comm (state.revision + 1)
    (state.revision + 1) digestA settlesA.cursor settlesB.cursor cursorOfA cursorOfB configs
  obtain ⟨resources, resourcesAB, resourcesBA⟩ := settleResources_comm different
    settlesA.resources settlesB.resources releases
  have settlesAB := settlesA.second valid settlesB different _ cursorAB resourcesAB
  have settlesBA := settlesB.second valid settlesA different.symm _ cursorBA resourcesBA
  have validAB := settle_preserves validA settlesAB (settlesB.wellFormed validB evidenceB _) rfl
  have validBA := settle_preserves validB settlesBA (settlesA.wellFormed validA evidenceA _) rfl
  have raiseA : { a with expectedRevision := a.expectedRevision + 1 } =
      a.basedOn (state.revision + 1) := by rw [expectedA]; rfl
  have raiseB : { b with expectedRevision := b.expectedRevision + 1 } =
      b.basedOn (state.revision + 1) := by rw [expectedB]; rfl
  have ledgerEqA := settlesA.outcome.ledger_eq
  have ledgerEqB := settlesB.outcome.ledger_eq
  rw [raiseA, raiseB]
  refine ⟨_, _, reduceGraphRun_settle.mpr ⟨validA, rfl, _, _, _, _, settlesAB, validAB, rfl⟩,
    reduceGraphRun_settle.mpr ⟨validB, rfl, _, _, _, _, settlesBA, validBA, rfl⟩, ?_, ?_⟩
  · have ledgers : addRecord ledgerB (recordOf state (a.basedOn (state.revision + 1))) =
        (addRecord ledgerA (recordOf state (b.basedOn (state.revision + 1)))).map
          (exchangeRevisions (state.revision + 1) (state.revision + 2)) := by
      refine ledger_ext validBA.ledger.canonical ?_ ?_
      · rw [List.map_map]
        exact validAB.ledger.canonical
      · rw [ledgerEqA, ledgerEqB]
        exact addRecord_exchange valid expectedA expectedB
    rw [ledgers]
    exact settledResult_comm settlesA settlesB different _ _ _ _ _
  · intro record member recent
    have inside : record ∈ addRecord ledgerA (recordOf state (b.basedOn (state.revision + 1))) :=
      member
    rw [ledgerEqA, mem_addRecord, mem_addRecord] at inside
    rcases inside with (old | own) | other
    · have early := valid.ledger.revision record old
      omega
    · exact .inl (nodeA ▸ (recordOf_activation own).1)
    · exact .inr (nodeB ▸ (recordOf_activation other).1)

/-! ## Two frontiers -/

/-- The plan of a graph whose nodes are all entries and have no edges. -/
def entryGraph (nodeIds : List GraphNodeId) (resourceOrder : List ResourceId)
    (resources : GraphNodeId → List ResourceId) : CompiledGraph Unit where
  definitionId := "graph"
  version := 1
  nodes := Dict.build nodeIds (fun nodeId => .callable ⟨nodeId, [], [], resources nodeId, []⟩)
  nestedGraphs := []
  graphInputDescriptor := ⟨⟨"graph", 1, .graphInput, 0⟩, []⟩
  graphOutputDescriptor := ⟨⟨"graph", 1, .graphOutput, 0⟩, []⟩
  transition :=
    { entries := nodeIds
      directTargets := Dict.build nodeIds (fun _ => [])
      conditionalTargets := Dict.build nodeIds (fun _ => Dict.empty)
      routeOptions := Dict.build nodeIds (fun _ => [none])
      joinsBySource := Dict.build nodeIds (fun _ => [])
      materializations := Dict.build nodeIds (fun _ => default)
      publications := Dict.build nodeIds (fun _ => default)
      graphOutputs := []
      resourceOrder := resourceOrder
      activationGates := Dict.build nodeIds (fun _ => []) }
  resources := resourceOrder
  resumeInput := none
  completionRoutes := [none]

/-- A claimed run of such a graph at its first frontier. -/
def claimedEntries (nodeIds : List GraphNodeId) (resources : Option ResourceSnapshot) :
    GraphRunState :=
  { runId := "run"
    definitionId := "graph"
    definitionVersion := 1
    status := .running
    superstep := 0
    frontier := ⟨nodeIds.map (fun nodeId => ⟨nodeId, .pending .useStepRequestInput, .start⟩)⟩
    executionSequence := 1
    resources := resources
    execution := some ⟨⟨1, "attempt"⟩⟩
    revision := 1
    configDigest := some "d1" }

/-- The success of one entry, with the Config its output carries. -/
def entrySuccess (nodeId : GraphNodeId) (config : Option ActivationConfig) : TaskResult :=
  .success ⟨taskIdentity "run" 0 nodeId, "run", 0, nodeId⟩ config none

/-- The command such a success projects to. -/
def entrySettlement (nodeId : GraphNodeId) (config : Option ActivationConfig) : SettleGraphNode :=
  ⟨1, ⟨1, "attempt"⟩, .succeeded nodeId .continueGraphRouting,
    config.map ActivationConfig.configCursor, none⟩

/-- Two entries that hold one resource each, and two nodes that wait for them and share a third. -/
def sharedSnapshot : ResourceSnapshot :=
  { resources := [⟨"ra", some "a", ["c"]⟩, ⟨"rb", some "b", ["d"]⟩, ⟨"rc", none, []⟩]
    acquisitions := [⟨"a", ["ra"], ["ra"], none⟩, ⟨"b", ["rb"], ["rb"], none⟩,
      ⟨"c", ["ra", "rc"], [], some "ra"⟩, ⟨"d", ["rb", "rc"], [], some "rb"⟩] }

def sharedResources (nodeId : GraphNodeId) : List ResourceId :=
  ((sharedSnapshot.acquisitions.find? (fun item => item.nodeId = nodeId)).map (·.required)).getD []

/-- One node advances Config, the other carries none. -/
theorem settlement_order_independent_pair :
    ∃ afterA afterB bothAB bothBA,
      reduceGraphRun (some (claimedEntries ["a", "b"] none))
        (.settle (entrySettlement "a" (some ⟨"graph", 1, 2, "d2"⟩))) = .ok afterA ∧
      reduceGraphRun (some (claimedEntries ["a", "b"] none)) (.settle (entrySettlement "b" none)) =
        .ok afterB ∧
      reduceGraphRun (some afterA)
        (.settle { entrySettlement "b" none with expectedRevision := 2 }) = .ok bothAB ∧
      reduceGraphRun (some afterB)
        (.settle { entrySettlement "a" (some ⟨"graph", 1, 2, "d2"⟩) with
          expectedRevision := 2 }) = .ok bothBA ∧
      bothBA = { bothAB with
        settledPublications := bothAB.settledPublications.map (exchangeRevisions 2 3) } := by
  obtain ⟨bothAB, bothBA, acceptedAB, acceptedBA, exchanged, -⟩ :=
    settlement_order_independent (entryGraph ["a", "b"] [] (fun _ => []))
      (claimedEntries ["a", "b"] none) (entrySuccess "a" (some ⟨"graph", 1, 2, "d2"⟩))
      (entrySuccess "b" none) (entrySettlement "a" (some ⟨"graph", 1, 2, "d2"⟩))
      (entrySettlement "b" none) _ _ (by decide) rfl rfl rfl rfl
      (by simp [entrySettlement]) (by simp [claimedEntries])
  exact ⟨_, _, bothAB, bothBA, rfl, rfl, acceptedAB, acceptedBA, exchanged⟩

/-- Two settlements that are each accepted need not be accepted in both orders: after one node
advanced Config, another that carries the earlier revision is refused; and a release can be out of
order after the other. -/
theorem settlement_order_dependent :
    (settleResult (entryGraph ["a", "b"] [] (fun _ => [])) (claimedEntries ["a", "b"] none)
        (entrySuccess "a" (some ⟨"graph", 1, 2, "d2"⟩)) =
          .ok (entrySettlement "a" (some ⟨"graph", 1, 2, "d2"⟩)) ∧
      settleResult (entryGraph ["a", "b"] [] (fun _ => [])) (claimedEntries ["a", "b"] none)
        (entrySuccess "b" (some ⟨"graph", 1, 1, "d1"⟩)) =
          .ok (entrySettlement "b" (some ⟨"graph", 1, 1, "d1"⟩)) ∧
      ∃ afterA afterB,
        reduceGraphRun (some (claimedEntries ["a", "b"] none))
          (.settle (entrySettlement "a" (some ⟨"graph", 1, 2, "d2"⟩))) = .ok afterA ∧
        reduceGraphRun (some (claimedEntries ["a", "b"] none))
          (.settle (entrySettlement "b" (some ⟨"graph", 1, 1, "d1"⟩))) = .ok afterB ∧
        reduceGraphRun (some afterA)
          (.settle { entrySettlement "b" (some ⟨"graph", 1, 1, "d1"⟩) with
            expectedRevision := 2 }) =
          .error (.transition "node settlement Config revision cannot move backwards")) ∧
    (settleResult (entryGraph ["a", "b", "c", "d"] ["ra", "rb", "rc"] sharedResources)
        (claimedEntries ["a", "b", "c", "d"] (some sharedSnapshot)) (entrySuccess "a" none) =
          .ok (entrySettlement "a" none) ∧
      settleResult (entryGraph ["a", "b", "c", "d"] ["ra", "rb", "rc"] sharedResources)
        (claimedEntries ["a", "b", "c", "d"] (some sharedSnapshot)) (entrySuccess "b" none) =
          .ok (entrySettlement "b" none) ∧
      ∃ afterA afterB,
        reduceGraphRun (some (claimedEntries ["a", "b", "c", "d"] (some sharedSnapshot)))
          (.settle (entrySettlement "a" none)) = .ok afterA ∧
        reduceGraphRun (some (claimedEntries ["a", "b", "c", "d"] (some sharedSnapshot)))
          (.settle (entrySettlement "b" none)) = .ok afterB ∧
        reduceGraphRun (some afterB)
          (.settle { entrySettlement "a" none with expectedRevision := 2 }) =
          .error (.transition "completed node cannot release its resource acquisition")) :=
  ⟨⟨rfl, rfl, _, _, rfl, rfl, rfl⟩, rfl, rfl, _, _, rfl, rfl, rfl⟩

end MoteKernel
