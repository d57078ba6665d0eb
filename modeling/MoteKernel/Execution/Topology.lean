import MoteKernel.Lib.Dict
import MoteKernel.State.Model

/-!
# Graph definitions and compiled plans

`execution/graph/constants.py`, `edge.py`, `ports.py`, `node.py`,
`definition.py`, `topology.py`, and the error classes of `execution/errors.py`.

`τ` is the type of the nominal classes a port can declare. A descriptor object
is compared by `is` in one place of the compiler, so it carries its address.
Node programs and the encoder and decoder of a codec are left out: nothing
modelled here calls them.
-/

namespace MoteKernel
open Checked

/-! ## Errors -/

/-- The error classes of `execution/errors.py` that the modelled functions raise, and the
built-in `ValueError`. -/
inductive ExecutionErrorKind where
  | value
  | snapshotMismatch
  | invalidExecutionSnapshot
  | resultCollection
  | unknownRoute
  | invalidRoutingCommand
  | joinProgress
  | routingDeadlock
  | graphValidation
  | graphValueAdmission
  | graphValueUnavailable
  | graphValuePublication
  | frameInstallationInvariant
  | nodeExecutionContract
  | executionLimit
  | resourceTransition
  | duplicateNode
  | duplicateBoundary
  | duplicateEdge
  | duplicateGraphDefinition
  | recursiveGraphDefinition
  | unknownNode
  | missingEntry
  | unreachableNode
  | invalidJoin
  | invalidGraphIdentity
  | invalidResourceDefinition
  deriving DecidableEq, Repr

/-- A raised error: its class and its text. -/
structure ExecutionError where
  kind : ExecutionErrorKind
  message : String
  deriving DecidableEq, Repr

/-- `repr(value)` of an identity: quoted, with the quote, the backslash and the line controls
escaped. -/
def reprIdentity (value : String) : String :=
  let quote := if value.toList.contains '\'' && !value.toList.contains '"' then '"' else '\''
  let escape (c : Char) : List Char :=
    if c = quote || c = '\\' then ['\\', c]
    else if c = '\n' then ['\\', 'n']
    else if c = '\r' then ['\\', 'r']
    else if c = '\t' then ['\\', 't']
    else [c]
  String.ofList (quote :: value.toList.flatMap escape ++ [quote])

/-- `repr(values)` of a tuple of identities. -/
def reprTuple : List String → String
  | [] => "()"
  | [value] => "(" ++ reprIdentity value ++ ",)"
  | values => "(" ++ ", ".intercalate (values.map reprIdentity) ++ ")"

instance : LawfulBEq (Option GraphRouteId) := inferInstance

/-- `repr(route)` of an optional route. -/
def reprRoute : Option GraphRouteId → String
  | none => "None"
  | some route => reprIdentity route

/-! ## Boundaries and edges -/

/-- Virtual source that enters a graph path without scheduling a task. -/
def START : GraphNodeId := "__start__"

/-- Virtual target that terminates a graph path without scheduling a task. -/
def END : GraphNodeId := "__end__"

inductive Edge where
  | direct (source target : GraphNodeId)
  | conditional (source : GraphNodeId) (route : GraphRouteId) (target : GraphNodeId)
  | join (sources : List GraphNodeId) (target : GraphNodeId)
  deriving DecidableEq, Repr

/-! ## Ports -/

structure NominalTypeDescriptor (τ : Type) where
  address : Nat
  valueType : τ
  deriving DecidableEq, Repr

structure GraphInputPort where
  name : String
  deriving DecidableEq, Repr

structure NodeInputPort where
  nodeId : GraphNodeId
  localName : String
  deriving DecidableEq, Repr

structure NodeOutputPort where
  nodeId : GraphNodeId
  outputName : String
  deriving DecidableEq, Repr

structure GraphOutputPort where
  boundaryName : String
  deriving DecidableEq, Repr

/-- `InputBindingSource`: what a declared node input is bound to. -/
inductive InputBindingSource (τ : Type) where
  | graphInput (name : String) (descriptor : NominalTypeDescriptor τ)
  | nodeOutput (nodeId : GraphNodeId) (outputName : String)
      (descriptor : Option (NominalTypeDescriptor τ))
  | predecessor (outputName : String) (descriptor : Option (NominalTypeDescriptor τ))
  deriving DecidableEq, Repr

/-- `ValueSourceRef`: what a declared graph output is bound to. -/
inductive ValueSourceRef (τ : Type) where
  | graphInput (name : String) (descriptor : NominalTypeDescriptor τ)
  | nodeOutput (nodeId : GraphNodeId) (outputName : String)
      (descriptor : Option (NominalTypeDescriptor τ))
  deriving DecidableEq, Repr

structure InputBinding (τ : Type) where
  localName : String
  source : InputBindingSource τ
  deriving DecidableEq, Repr

structure OutputDeclaration (τ : Type) where
  name : String
  descriptor : NominalTypeDescriptor τ
  deriving DecidableEq, Repr

structure GraphOutputDeclaration (τ : Type) where
  boundaryName : String
  source : ValueSourceRef τ
  deriving DecidableEq, Repr

/-- `ResolvedValueSource`. -/
inductive ResolvedValueSource where
  | graphInput (port : GraphInputPort)
  | nodeOutput (port : NodeOutputPort)
  deriving DecidableEq, Repr

/-- A tuple of source nodes and the route domain each source may contribute. -/
abbrev ActivationGate := List (GraphNodeId × List (Option GraphRouteId))

inductive PublicationSelectionKind where
  | absolute
  | relative
  deriving DecidableEq, Repr

structure PublicationSelection where
  kind : PublicationSelectionKind
  superstep : Nat
  deriving DecidableEq, Repr

/-- `PublicationSelection.resolve`. -/
def PublicationSelection.resolve (selection : PublicationSelection) (anchorSuperstep : Nat) :
    Except ExecutionError Nat :=
  match selection.kind with
  | .absolute => return selection.superstep
  | .relative => do
      raiseIf (anchorSuperstep < selection.superstep)
        ⟨.graphValidation, "publication selection precedes the graph run"⟩
      return anchorSuperstep - selection.superstep

/-- Compiler-proved cases for one control-causal input. -/
structure CompiledPredecessorInput where
  target : GraphNodeId
  inputName : String
  sources : List NodeOutputPort
  startInput : Option GraphInputPort := none
  deriving DecidableEq, Repr

/-- `ResolvedInputSource`. -/
inductive ResolvedInputSource where
  | graphInput (port : GraphInputPort)
  | nodeOutput (port : NodeOutputPort)
  | predecessor (input : CompiledPredecessorInput)
  deriving DecidableEq, Repr

structure ResolvedInputBinding (τ : Type) where
  destination : NodeInputPort
  source : ResolvedInputSource
  descriptor : NominalTypeDescriptor τ
  publication : Option PublicationSelection
  deriving DecidableEq, Repr

structure GraphOutputBinding (τ : Type) where
  destination : GraphOutputPort
  source : ResolvedValueSource
  descriptor : NominalTypeDescriptor τ
  publication : Option PublicationSelection
  deriving DecidableEq, Repr

inductive FrameKind where
  | graphInput
  | nodeInput
  | nodeOutput
  | graphOutput
  deriving DecidableEq, Repr

structure FrameDescriptorIdentity where
  definitionId : GraphDefinitionId
  definitionVersion : GraphDefinitionVersion
  frameKind : FrameKind
  ownerOrdinal : Nat
  deriving DecidableEq, Repr

structure FrameDescriptor (τ : Type) where
  identity : FrameDescriptorIdentity
  declarations : List (OutputDeclaration τ)
  deriving DecidableEq, Repr

instance {τ : Type} : Inhabited (FrameDescriptor τ) := ⟨⟨⟨"", 0, .graphInput, 0⟩, []⟩⟩

structure MaterializationPlan (τ : Type) where
  bindings : List (ResolvedInputBinding τ)
  descriptor : FrameDescriptor τ
  deriving DecidableEq, Repr

instance {τ : Type} : Inhabited (MaterializationPlan τ) := ⟨⟨[], default⟩⟩

/-! ## Definitions -/

/-- The identity of one `FrameCodec`. -/
structure FrameCodec where
  codecId : String
  version : Nat
  deriving DecidableEq, Repr

/-- Immutable topology entry for one already-assembled Kernel node. -/
structure CallableNodeDefinition (τ : Type) where
  nodeId : GraphNodeId
  inputs : List (InputBinding τ)
  outputs : List (OutputDeclaration τ)
  resources : List ResourceId := []
  exportedRoutes : List GraphRouteId := []
  deriving DecidableEq, Repr

/-- `GraphNode`; `γ` is the type of the nested definitions. -/
inductive GraphNode (τ γ : Type) where
  | callable (definition : CallableNodeDefinition τ)
  | nested (nodeId : GraphNodeId) (graph : γ) (inputs : List (InputBinding τ))

namespace GraphNode

variable {τ γ : Type}

def nodeId : GraphNode τ γ → GraphNodeId
  | callable definition => definition.nodeId
  | nested nodeId _ _ => nodeId

def inputs : GraphNode τ γ → List (InputBinding τ)
  | callable definition => definition.inputs
  | nested _ _ inputs => inputs

/-- `definition.resources` of a callable node; a nested node has none. -/
def resources : GraphNode τ γ → List ResourceId
  | callable definition => definition.resources
  | nested _ _ _ => []

end GraphNode

structure GraphDefinition (τ : Type) where
  definitionId : GraphDefinitionId
  version : GraphDefinitionVersion
  nodes : List (GraphNode τ (GraphDefinition τ))
  edges : List Edge
  entries : List GraphNodeId
  outputs : List (GraphOutputDeclaration τ)
  resources : List ResourceId := []
  resumeInput : Option FrameCodec := none

/-! ## Compiled plans -/

/-- One Join definition and its source-to-target occurrence projection. The two proofs are the
checks of `__post_init__`. -/
structure CompiledJoin where
  identity : GraphJoinIdentity
  sourceTargetOffsets : List (GraphNodeId × Nat)
  covers : sourceTargetOffsets.map Prod.fst = identity.sources
  positive : ∀ pair ∈ sourceTargetOffsets, 1 ≤ pair.2
  deriving DecidableEq

namespace CompiledJoin

/-- `CompiledJoin.target_offset`. -/
def targetOffset (join : CompiledJoin) (source : GraphNodeId) : Except ExecutionError Nat :=
  orRaise ⟨.snapshotMismatch, "compiled Join does not contain the arrival source"⟩
    ((join.sourceTargetOffsets.find? (fun pair => pair.1 = source)).map Prod.snd)

/-- `CompiledJoin.occurrence_for`. -/
def occurrenceFor (join : CompiledJoin) (activation : GraphActivationIdentity) :
    Except ExecutionError GraphJoinOccurrenceIdentity := do
  let offset ← join.targetOffset activation.nodeId
  return ⟨join.identity, activation.runId, activation.superstep + offset⟩

end CompiledJoin

/-- `FrozenMap`: the items of a mapping in key order. -/
abbrev FrozenMap (κ ν : Type) := Dict κ ν

structure FrontierTransitionPlan (τ : Type) where
  entries : List GraphNodeId
  directTargets : FrozenMap GraphNodeId (List GraphNodeId)
  conditionalTargets : FrozenMap GraphNodeId (FrozenMap GraphRouteId GraphNodeId)
  routeOptions : FrozenMap GraphNodeId (List (Option GraphRouteId))
  joinsBySource : FrozenMap GraphNodeId (List CompiledJoin)
  materializations : FrozenMap GraphNodeId (MaterializationPlan τ)
  publications : FrozenMap GraphNodeId (FrameDescriptor τ)
  graphOutputs : List (GraphOutputBinding τ)
  resourceOrder : List ResourceId
  activationGates : FrozenMap GraphNodeId (List ActivationGate)

/-- `CompiledGraph`. The compiled plans of the nested nodes are its `nestedGraphs`. -/
structure CompiledGraph (τ : Type) where
  definitionId : GraphDefinitionId
  version : GraphDefinitionVersion
  nodes : FrozenMap GraphNodeId (GraphNode τ (GraphDefinition τ))
  nestedGraphs : List (GraphNodeId × CompiledGraph τ)
  graphInputDescriptor : FrameDescriptor τ
  graphOutputDescriptor : FrameDescriptor τ
  transition : FrontierTransitionPlan τ
  resources : List ResourceId
  resumeInput : Option FrameCodec
  completionRoutes : List (Option GraphRouteId)

instance {κ ν : Type} : Inhabited (Dict κ ν) := ⟨Dict.empty⟩

namespace CompiledGraph

variable {τ : Type}

/-- `graph.transition.direct_targets[node_id]`. -/
def directTargets (graph : CompiledGraph τ) (nodeId : GraphNodeId) : List GraphNodeId :=
  graph.transition.directTargets.getItem nodeId

/-- `graph.transition.conditional_targets[node_id]`. -/
def conditionalTargets (graph : CompiledGraph τ) (nodeId : GraphNodeId) :
    FrozenMap GraphRouteId GraphNodeId :=
  graph.transition.conditionalTargets.getItem nodeId

/-- `graph.transition.route_options[node_id]`. -/
def routeOptions (graph : CompiledGraph τ) (nodeId : GraphNodeId) : List (Option GraphRouteId) :=
  graph.transition.routeOptions.getItem nodeId

/-- `graph.transition.joins_by_source[node_id]`. -/
def joinsBySource (graph : CompiledGraph τ) (nodeId : GraphNodeId) : List CompiledJoin :=
  graph.transition.joinsBySource.getItem nodeId

/-- `graph.transition.activation_gates[node_id]`. -/
def activationGates (graph : CompiledGraph τ) (nodeId : GraphNodeId) : List ActivationGate :=
  graph.transition.activationGates.getItem nodeId

/-- `graph.transition.materializations[node_id].bindings.entries`. -/
def bindings (graph : CompiledGraph τ) (nodeId : GraphNodeId) : List (ResolvedInputBinding τ) :=
  (graph.transition.materializations.getItem nodeId).bindings

end CompiledGraph

end MoteKernel
