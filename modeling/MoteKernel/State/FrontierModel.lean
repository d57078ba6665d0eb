import MoteKernel.State.Identity

/-!
# Frontier activation and settlement

`state/graph_state/routing.py` and `state/graph_state/frontier_model.py`. Opaque
byte strings are lists of bytes.
-/

namespace MoteKernel

abbrev Bytes := List UInt8
abbrev GraphFailure := String

/-- State-owned graph routing contributions. -/
inductive GraphRoutingContribution where
  | continueGraphRouting
  | selectGraphRoute (route : GraphRouteId)
  deriving DecidableEq, Repr

/-- `contribution.route if isinstance(contribution, SelectGraphRoute) else None`. -/
def GraphRoutingContribution.route : GraphRoutingContribution → Option GraphRouteId
  | .continueGraphRouting => none
  | .selectGraphRoute route => some route

/-- The settled routing facts that admitted a new activation. -/
structure RoutedActivationCause where
  references : List ActivationReference
  joinOccurrence : Option GraphJoinOccurrenceIdentity := none
  deriving DecidableEq, Repr

inductive GraphActivationCause where
  | start
  | routed (cause : RoutedActivationCause)
  deriving DecidableEq, Repr

/-- A frontier node identity together with its durable activation cause. -/
structure GraphFrontierActivation where
  nodeId : GraphNodeId
  cause : GraphActivationCause
  deriving DecidableEq, Repr

/-- Derived execution disposition of one durable frontier. -/
inductive GraphFrontierStatus where
  | executable
  | failed
  | awaitingResume
  | settled
  deriving DecidableEq, Repr

structure GraphResumeInputCodec where
  codecId : String
  version : Nat
  deriving DecidableEq, Repr

inductive GraphNodeInputBinding where
  | useStepRequestInput
  | overrideGraphNodeInput (payload : Bytes)
  deriving DecidableEq, Repr

structure GraphNodeInterruptIdentity where
  runId : GraphRunId
  superstep : Nat
  nodeId : GraphNodeId
  executionGeneration : Nat
  deriving DecidableEq, Repr

structure GraphNodeInterrupt where
  identity : GraphNodeInterruptIdentity
  requestPayload : Bytes
  deriving DecidableEq, Repr

inductive GraphNodeSettlement where
  | pending (input : GraphNodeInputBinding)
  | succeeded (routing : GraphRoutingContribution)
  | failed (failure : GraphFailure)
  | interrupted (interrupt : GraphNodeInterrupt)
  deriving DecidableEq, Repr

namespace GraphNodeSettlement

def isPending : GraphNodeSettlement → Bool
  | .pending _ => true
  | _ => false

def isSucceeded : GraphNodeSettlement → Bool
  | .succeeded _ => true
  | _ => false

def isFailed : GraphNodeSettlement → Bool
  | .failed _ => true
  | _ => false

def isInterrupted : GraphNodeSettlement → Bool
  | .interrupted _ => true
  | _ => false

end GraphNodeSettlement

structure GraphFrontierNode where
  nodeId : GraphNodeId
  settlement : GraphNodeSettlement
  cause : GraphActivationCause
  deriving DecidableEq, Repr

/-- `GraphFrontierNode.activation`. -/
def GraphFrontierNode.activation (node : GraphFrontierNode) : GraphFrontierActivation :=
  ⟨node.nodeId, node.cause⟩

structure GraphFrontierState where
  nodes : List GraphFrontierNode
  deriving DecidableEq, Repr

/-- `frontier_status`: the disposition in the kernel's fixed priority order. `none` is the
`ValueError` of a frontier without a derived status, which only the empty one lacks. -/
def frontierStatus (frontier : GraphFrontierState) : Option GraphFrontierStatus :=
  let settlements := frontier.nodes.map (·.settlement)
  if settlements.any (·.isPending) then some .executable
  else if settlements.any (·.isFailed) then some .failed
  else if settlements.any (·.isInterrupted) then some .awaitingResume
  else if settlements ≠ [] ∧ settlements.all (·.isSucceeded) then some .settled
  else none

/-- `frontier_node`. -/
def frontierNode (frontier : GraphFrontierState) (nodeId : GraphNodeId) :
    Option GraphFrontierNode :=
  frontier.nodes.find? (fun node => node.nodeId = nodeId)

/-- `pending_node_ids`. -/
def pendingNodeIds (frontier : GraphFrontierState) : List GraphNodeId :=
  (frontier.nodes.filter (·.settlement.isPending)).map (·.nodeId)

/-- `interrupted_node_ids`. -/
def interruptedNodeIds (frontier : GraphFrontierState) : List GraphNodeId :=
  (frontier.nodes.filter (·.settlement.isInterrupted)).map (·.nodeId)

/-- `routing_contributions`. -/
def routingContributions (frontier : GraphFrontierState) :
    List (GraphNodeId × GraphRoutingContribution) :=
  frontier.nodes.filterMap (fun node =>
    match node.settlement with
    | .succeeded routing => some (node.nodeId, routing)
    | _ => none)

end MoteKernel
