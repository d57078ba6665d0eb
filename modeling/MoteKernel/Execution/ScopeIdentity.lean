import MoteKernel.Execution.Routing
import MoteKernel.State.ComposedIdentity

/-!
# Scoped run identities

`execution/identity.py` and `events/identity.py`: the coordinate of a nested run
in its family, the way back to the activation that opened it, and the
idempotency key of one settlement.
-/

namespace MoteKernel
open Checked LengthPrefix

/-! ## Scopes -/

/-- `ScopeRunCoordinate.__post_init__`. -/
def ScopeRunCoordinate.postInit (coordinate : ScopeRunCoordinate) : Except ExecutionError Unit :=
  raiseIf ((∃ segment ∈ coordinate.scope, isCanonicalIdentity segment = false) ∨
      isCanonicalIdentity coordinate.graphRunId = false)
    ⟨.snapshotMismatch, "scope-run coordinate requires canonical scope and run identity"⟩

/-- `StableActivation.__post_init__`. -/
def StableActivation.postInit (activation : StableActivation) : Except ExecutionError Unit :=
  raiseIf (isCanonicalIdentity activation.nodeId = false)
    ⟨.snapshotMismatch, "stable activation requires a valid superstep and node identity"⟩

/-- `child_scope_run`. -/
def childScopeRun (parentScopeRun : ScopeRunCoordinate) (parentSuperstep : Nat)
    (nestedNodeId : GraphNodeId) : Except ExecutionError ScopeRunCoordinate := do
  let runId := childGraphRunId parentScopeRun.graphRunId parentSuperstep nestedNodeId
  let coordinate : ScopeRunCoordinate := ⟨parentScopeRun.scope ++ [nestedNodeId], runId⟩
  coordinate.postInit
  return coordinate

/-- `child_scope_run_for_activation`. -/
def childScopeRunForActivation (parentScopeRun : ScopeRunCoordinate)
    (parent : GraphActivationIdentity) : Except ExecutionError ScopeRunCoordinate := do
  raiseIf (parent.runId ≠ parentScopeRun.graphRunId)
    ⟨.snapshotMismatch, "parent activation does not belong to its scope-run coordinate"⟩
  childScopeRun parentScopeRun parent.superstep parent.nodeId

/-- `parent_activation_for_child`. -/
def parentActivationForChild (childScopeRun : ScopeRunCoordinate)
    (parent : GraphActivationIdentity) : Except ExecutionError StableActivation := do
  let inconsistent : ExecutionError :=
    ⟨.snapshotMismatch, "child lineage binding has inconsistent parent coordinates"⟩
  raiseIf (childScopeRun.scope.getLast? ≠ some parent.nodeId) inconsistent
  let parentScopeRun : ScopeRunCoordinate := ⟨childScopeRun.scope.dropLast, parent.runId⟩
  parentScopeRun.postInit
  let derived ← childScopeRunForActivation parentScopeRun parent
  raiseIf (derived ≠ childScopeRun) inconsistent
  let activation ← stableActivation parentScopeRun parent
  activation.postInit
  return activation

/-! ## Events -/

/-- `node_settlement_event_id`. -/
def nodeSettlementEventId (runId : GraphRunId) (scope : List String) (superstep : Nat)
    (nodeId : GraphNodeId) (executionGeneration settlementRevision : Nat) : String :=
  String.join ((["mote.node-settlement-event.v1", runId, toString scope.length] ++ scope ++
    [toString superstep, nodeId, toString executionGeneration,
      toString settlementRevision]).map identityField)

/-- `node_settlement_event_id` names all six coordinates, whatever the depth of the scope. -/
theorem nodeSettlementEventId_inj {runId otherRun : GraphRunId} {scope otherScope : List String}
    {superstep otherStep : Nat} {nodeId otherNode : GraphNodeId}
    {generation otherGeneration revision otherRevision : Nat} :
    nodeSettlementEventId runId scope superstep nodeId generation revision =
        nodeSettlementEventId otherRun otherScope otherStep otherNode otherGeneration
          otherRevision ↔
      runId = otherRun ∧ scope = otherScope ∧ superstep = otherStep ∧ nodeId = otherNode ∧
        generation = otherGeneration ∧ revision = otherRevision := by
  constructor
  · intro same
    have values := join_injective same
    simp only [List.cons_append, List.nil_append, List.cons.injEq, true_and] at values
    obtain ⟨run, depth, rest⟩ := values
    obtain ⟨scopes, tails⟩ := List.append_inj rest (toString_injective depth)
    simp only [List.cons.injEq, and_true] at tails
    obtain ⟨step, node, sequence, settled⟩ := tails
    exact ⟨run, scopes, toString_injective step, node, toString_injective sequence,
      toString_injective settled⟩
  · rintro ⟨rfl, rfl, rfl, rfl, rfl, rfl⟩
    rfl

/-! ## Down and back up -/

theorem ScopeRunCoordinate.postInit_eq_ok (coordinate : ScopeRunCoordinate) (u : Unit) :
    coordinate.postInit = .ok u ↔ (∀ segment ∈ coordinate.scope, isCanonicalIdentity segment = true) ∧
      isCanonicalIdentity coordinate.graphRunId = true := by
  simp [ScopeRunCoordinate.postInit]

theorem childScopeRun_eq_ok {parentScopeRun : ScopeRunCoordinate}
    (valid : parentScopeRun.postInit = .ok ()) {nodeId : GraphNodeId}
    (node : isCanonicalIdentity nodeId = true) (superstep : Nat) :
    childScopeRun parentScopeRun superstep nodeId =
      .ok ⟨parentScopeRun.scope ++ [nodeId],
        childGraphRunId parentScopeRun.graphRunId superstep nodeId⟩ := by
  obtain ⟨scope, run⟩ := (parentScopeRun.postInit_eq_ok ()).mp valid
  have admitted : ScopeRunCoordinate.postInit ⟨parentScopeRun.scope ++ [nodeId],
      childGraphRunId parentScopeRun.graphRunId superstep nodeId⟩ = .ok () := by
    rw [ScopeRunCoordinate.postInit_eq_ok]
    refine ⟨?_, childGraphRunId_canonical run node superstep⟩
    intro segment member
    rcases List.mem_append.mp member with inside | last
    · exact scope segment inside
    · rw [List.mem_singleton.mp last]
      exact node
  simp [childScopeRun, admitted]

/-- The way back from a nested run leads to the activation that opened it, and to no other. -/
theorem parentActivationForChild_eq_ok {parentScopeRun : ScopeRunCoordinate}
    (valid : parentScopeRun.postInit = .ok ()) {nodeId : GraphNodeId}
    (node : isCanonicalIdentity nodeId = true) (superstep : Nat)
    {child : ScopeRunCoordinate} (opened : childScopeRun parentScopeRun superstep nodeId = .ok child)
    (parent : GraphActivationIdentity) (activation : StableActivation) :
    parentActivationForChild child parent = .ok activation ↔
      parent = ⟨parentScopeRun.graphRunId, superstep, nodeId⟩ ∧
      activation = ⟨parentScopeRun, superstep, nodeId⟩ := by
  rw [childScopeRun_eq_ok valid node, Except.ok.injEq] at opened
  subst opened
  obtain ⟨scope, run⟩ := (parentScopeRun.postInit_eq_ok ()).mp valid
  obtain ⟨parentRun, parentStep, parentNode⟩ := parent
  simp only [parentActivationForChild, bind_eq_ok, exists_unit, raiseIf_eq_ok, ne_eq, not_not,
    List.getLast?_concat, Option.some.injEq, List.dropLast_concat, childScopeRunForActivation,
    stableActivation, pure_eq_ok, Except.ok.injEq]
  constructor
  · rintro ⟨rfl, parentValid, derived, ⟨-, again⟩, rfl, _, ⟨-, rfl⟩, -, rfl⟩
    rw [childScopeRun_eq_ok parentValid node, Except.ok.injEq, ScopeRunCoordinate.mk.injEq] at again
    obtain ⟨rfl, rfl, -⟩ := childGraphRunId_inj.mp again.2
    exact ⟨rfl, rfl⟩
  · rintro ⟨same, rfl⟩
    cases same
    refine ⟨rfl, valid, _, ⟨trivial, childScopeRun_eq_ok valid node superstep⟩, rfl, _,
      ⟨trivial, rfl⟩, ?_, rfl⟩
    simp [StableActivation.postInit, node]

/-- Composed identities name their parts: child runs, interrupts and settlement events are
injective in all their coordinates, the first two never coincide, both are canonical again, no
run has the name of a run above it, and the way back from a nested run is unique. -/
theorem composedIdentities_injective :
    (∀ runId otherRun superstep otherStep nodeId otherNode,
      childGraphRunId runId superstep nodeId = childGraphRunId otherRun otherStep otherNode →
      runId = otherRun ∧ superstep = otherStep ∧ nodeId = otherNode) ∧
    (∀ runId otherRun superstep otherStep nodeId otherNode generation otherGeneration,
      graphInterruptId runId superstep nodeId generation =
        graphInterruptId otherRun otherStep otherNode otherGeneration →
      runId = otherRun ∧ superstep = otherStep ∧ nodeId = otherNode ∧
        generation = otherGeneration) ∧
    (∀ runId otherRun superstep otherStep nodeId otherNode generation,
      childGraphRunId runId superstep nodeId ≠
        graphInterruptId otherRun otherStep otherNode generation) ∧
    (∀ runId nodeId, isCanonicalIdentity runId = true → isCanonicalIdentity nodeId = true →
      ∀ superstep generation, isCanonicalIdentity (childGraphRunId runId superstep nodeId) = true ∧
        isCanonicalIdentity (graphInterruptId runId superstep nodeId generation) = true) ∧
    (∀ ancestor run, Relation.TransGen ChildRun ancestor run → run ≠ ancestor) ∧
    (∀ (parentScopeRun : ScopeRunCoordinate) superstep nodeId,
      parentScopeRun.postInit = .ok () → isCanonicalIdentity nodeId = true →
      ∃ child, childScopeRun parentScopeRun superstep nodeId = .ok child ∧
        ∀ parent activation, parentActivationForChild child parent = .ok activation ↔
          parent = ⟨parentScopeRun.graphRunId, superstep, nodeId⟩ ∧
          activation = ⟨parentScopeRun, superstep, nodeId⟩) ∧
    (∀ runId otherRun scope otherScope superstep otherStep nodeId otherNode generation
        otherGeneration revision otherRevision,
      nodeSettlementEventId runId scope superstep nodeId generation revision =
        nodeSettlementEventId otherRun otherScope otherStep otherNode otherGeneration
          otherRevision →
      runId = otherRun ∧ scope = otherScope ∧ superstep = otherStep ∧ nodeId = otherNode ∧
        generation = otherGeneration ∧ revision = otherRevision) := by
  refine ⟨?_, ?_, childGraphRunId_ne_graphInterruptId, ?_, ?_, ?_, ?_⟩
  · intro _ _ _ _ _ _ same
    exact childGraphRunId_inj.mp same
  · intro _ _ _ _ _ _ _ _ same
    exact graphInterruptId_inj.mp same
  · intro runId nodeId run node superstep generation
    exact ⟨childGraphRunId_canonical run node superstep,
      graphInterruptId_canonical run node superstep generation⟩
  · intro ancestor run nested same
    have longer := descendant_longer nested
    rw [same] at longer
    omega
  · intro parentScopeRun superstep nodeId valid node
    have opened := childScopeRun_eq_ok valid node superstep
    exact ⟨_, opened, parentActivationForChild_eq_ok valid node superstep opened⟩
  · intro _ _ _ _ _ _ _ _ _ _ _ _ same
    exact nodeSettlementEventId_inj.mp same

/-- The way back from a run nested in its root. -/
example : parentActivationForChild
    ⟨["outer"], childGraphRunId "run" 3 "outer"⟩ ⟨"run", 3, "outer"⟩ =
      .ok ⟨⟨[], "run"⟩, 3, "outer"⟩ := by
  rfl

end MoteKernel
