import Mathlib.Data.Prod.Lex
import Mathlib.Data.List.Lex
import Mathlib.Data.String.Basic

/-!
# Graph identities

Scalar identities and activation coordinates of
`state/graph_state/identity.py`. Identities are Python strings; counters are
Python integers that every boundary rejects below zero, so they are natural
numbers here. `__post_init__` checks are stated as `wellFormed` predicates next
to each coordinate.
-/

namespace MoteKernel

abbrev GraphRunId := String
abbrev GraphDefinitionId := String
abbrev GraphDefinitionVersion := Nat
abbrev GraphNodeId := String
abbrev GraphRouteId := String
abbrev GraphExecutionAttemptId := String
abbrev GraphInterruptId := String

/-- The code points `str.strip()` removes. -/
def isPythonSpace (c : Char) : Bool :=
  let n := c.toNat
  (9 ≤ n && n ≤ 13) || (28 ≤ n && n ≤ 32) || n == 0x85 || n == 0xA0 || n == 0x1680 ||
    (0x2000 ≤ n && n ≤ 0x200A) || n == 0x2028 || n == 0x2029 || n == 0x202F || n == 0x205F ||
    n == 0x3000

/-- `value.strip()`. -/
def strip (value : String) : String :=
  String.ofList ((value.toList.dropWhile isPythonSpace).reverse.dropWhile isPythonSpace).reverse

/-- `is_canonical_identity`. -/
def isCanonicalIdentity (value : String) : Bool :=
  value != "" && value == strip value && !value.toList.contains '\n' && !value.toList.contains '\r'

/-- The durable identity of one node activation in one graph run. -/
structure GraphActivationIdentity where
  runId : GraphRunId
  superstep : Nat
  nodeId : GraphNodeId
  deriving DecidableEq, Repr

/-- The checks of `GraphActivationIdentity.__post_init__`. -/
def GraphActivationIdentity.wellFormed (identity : GraphActivationIdentity) : Bool :=
  isCanonicalIdentity identity.runId && isCanonicalIdentity identity.nodeId

/-- A durable reference to a settled source activation and its route. -/
structure ActivationReference where
  activation : GraphActivationIdentity
  route : Option GraphRouteId := none
  deriving DecidableEq, Repr

/-- The checks of `ActivationReference.__post_init__`, on a well-formed activation. -/
def ActivationReference.wellFormed (reference : ActivationReference) : Bool :=
  reference.activation.wellFormed && reference.route.all isCanonicalIdentity

/-- The canonical identity of one declared control Join. -/
structure GraphJoinIdentity where
  sources : List GraphNodeId
  target : GraphNodeId
  deriving DecidableEq, Repr

/-- One Join definition at one compiler-projected target coordinate. -/
structure GraphJoinOccurrenceIdentity where
  join : GraphJoinIdentity
  runId : GraphRunId
  targetSuperstep : Nat
  deriving DecidableEq, Repr

/-- `ActivationReference.canonical_key`: the one ordering used by every durable
reference collection. -/
def ActivationReference.canonicalKey (reference : ActivationReference) :
    String ×ₗ Nat ×ₗ String ×ₗ Bool ×ₗ String :=
  toLex (reference.activation.runId, toLex (reference.activation.superstep,
    toLex (reference.activation.nodeId, toLex (reference.route.isSome,
      reference.route.getD ""))))

theorem ActivationReference.canonicalKey_injective :
    Function.Injective ActivationReference.canonicalKey := by
  rintro ⟨⟨run, step, node⟩, route⟩ ⟨⟨run', step', node'⟩, route'⟩ same
  simp only [canonicalKey, toLex_inj, Prod.mk.injEq] at same
  obtain ⟨rfl, rfl, rfl, present, value⟩ := same
  cases route <;> cases route' <;> simp_all

/-- References compare by their canonical key. -/
instance : LinearOrder ActivationReference :=
  LinearOrder.lift' ActivationReference.canonicalKey ActivationReference.canonicalKey_injective

/-- The field-by-field order of `@dataclass(order=True)` on Join occurrences. -/
def GraphJoinOccurrenceIdentity.orderKey (occurrence : GraphJoinOccurrenceIdentity) :
    List String ×ₗ String ×ₗ String ×ₗ Nat :=
  toLex (occurrence.join.sources, toLex (occurrence.join.target,
    toLex (occurrence.runId, occurrence.targetSuperstep)))

theorem GraphJoinOccurrenceIdentity.orderKey_injective :
    Function.Injective GraphJoinOccurrenceIdentity.orderKey := by
  rintro ⟨⟨sources, target⟩, run, step⟩ ⟨⟨sources', target'⟩, run', step'⟩ same
  simp only [orderKey, toLex_inj, Prod.mk.injEq] at same
  obtain ⟨rfl, rfl, rfl, rfl⟩ := same
  rfl

instance : LinearOrder GraphJoinOccurrenceIdentity :=
  LinearOrder.lift' GraphJoinOccurrenceIdentity.orderKey
    GraphJoinOccurrenceIdentity.orderKey_injective

/-- `_identity_field`. -/
def identityField (value : String) : String :=
  toString value.length ++ ":" ++ value

/-- `graph_interrupt_id`: one node-interrupt coordinate as its stable comparison ID. -/
def graphInterruptId (runId : GraphRunId) (superstep : Nat) (nodeId : GraphNodeId)
    (executionGeneration : Nat) : GraphInterruptId :=
  String.join (["mote.graph-node-interrupt.v1", runId, toString superstep, nodeId,
    toString executionGeneration].map identityField)

/-- `child_graph_run_id`: one parent activation as its deterministic child run ID. -/
def childGraphRunId (parentRunId : GraphRunId) (parentSuperstep : Nat)
    (parentNodeId : GraphNodeId) : GraphRunId :=
  String.join (["mote.child-graph-run.v1", parentRunId, toString parentSuperstep,
    parentNodeId].map identityField)

end MoteKernel
