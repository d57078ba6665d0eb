import MoteKernel.Execution.ControlAnalysis
import MoteKernel.Execution.FrontierProof

/-!
# The graph compiler

`_compile_definition` of `execution/graph/compiler.py`: the value bindings, the
control topology, and the compiled plan.
-/

namespace MoteKernel
open Checked Canonical

variable {τ : Type}

/-! ## Value bindings -/

/-- `PredecessorOutputRef`. -/
structure PredecessorOutputRef (τ : Type) where
  outputName : String
  descriptor : Option (NominalTypeDescriptor τ)

/-- The outputs of every known node. -/
abbrev NodeOutputs (τ : Type) := GraphNodeId → Option (List (OutputDeclaration τ))

/-- A table with one computed value for each key. -/
def tableM {κ ν ε : Type} [DecidableEq κ] (keys : List κ) (value : κ → Except ε ν) :
    Except ε (Dict κ ν) := do
  let pairs ← keys.mapM (fun key => (value key).map (fun found => (key, found)))
  return dictOf pairs

/-- `_declaration`. -/
def declarationOf (declarations : List (OutputDeclaration τ)) (name owner : String) :
    Except CompileError (OutputDeclaration τ) :=
  orRaise (invalidGraph (owner ++ " references unknown output port " ++ reprIdentity name))
    (declarations.find? (fun declaration => declaration.name = name))

/-- `_nested_outputs`. -/
def nestedOutputs (graph : CompiledGraph τ) : List (OutputDeclaration τ) :=
  graph.transition.graphOutputs.map (fun binding =>
    ⟨binding.destination.boundaryName, binding.descriptor⟩)

/-- `_frame_descriptor`. -/
def frameDescriptor (definition : GraphDefinition τ) (kind : FrameKind) (ordinal : Nat)
    (declarations : List (OutputDeclaration τ)) : FrameDescriptor τ :=
  ⟨⟨definition.definitionId, definition.version, kind, ordinal⟩, declarations⟩

/-- The graph inputs that nodes and outputs refer to, in the order of the declarations. -/
def graphInputRefs (definition : GraphDefinition τ) : List (String × NominalTypeDescriptor τ) :=
  definition.nodes.flatMap (fun node => node.inputs.filterMap (fun binding =>
    match binding.source with
    | .graphInput name descriptor => some (name, descriptor)
    | _ => none)) ++
  definition.outputs.filterMap (fun output =>
    match output.source with
    | .graphInput name descriptor => some (name, descriptor)
    | .nodeOutput _ _ _ => none)

/-- The declarations of a table of descriptors, in the order of their names. -/
def declarationsOf (descriptors : Dict String (NominalTypeDescriptor τ)) :
    List (OutputDeclaration τ) :=
  descriptors.frozen.items.map (fun item => ⟨item.1, item.2⟩)

/-- `_resolve_source`. -/
def resolveSource (graphInputs : List (OutputDeclaration τ)) (nodeOutputs : NodeOutputs τ)
    (consumer : Option GraphNodeId) :
    ValueSourceRef τ → Except CompileError (ResolvedValueSource × NominalTypeDescriptor τ)
  | .graphInput name _ => do
      let declaration ← declarationOf graphInputs name "graph input binding"
      return (.graphInput ⟨name⟩, declaration.descriptor)
  | .nodeOutput nodeId outputName descriptor => do
      raiseIf (consumer = some nodeId)
        (invalidGraph ("node " ++ reprIdentity nodeId ++ " cannot bind its own output"))
      let outputs ← orRaise (.raised ⟨.unknownNode,
        "value source references unknown node " ++ reprIdentity nodeId⟩) (nodeOutputs nodeId)
      let declaration ← declarationOf outputs outputName ("node " ++ reprIdentity nodeId)
      raiseIf (∃ typed ∈ descriptor, typed.address ≠ declaration.descriptor.address)
        (invalidGraph ("typed node output " ++ reprIdentity nodeId ++ "." ++
          reprIdentity outputName ++ " does not match its declared exact type/descriptor"))
      return (.nodeOutput ⟨nodeId, outputName⟩, declaration.descriptor)

section Typed
variable [DecidableEq τ]

/-- One graph input of `_collect_graph_inputs`. -/
def collectGraphInput (descriptors : Dict String (NominalTypeDescriptor τ))
    (ref : String × NominalTypeDescriptor τ) :
    Except CompileError (Dict String (NominalTypeDescriptor τ)) := do
  raiseIf (∃ existing ∈ descriptors.get? ref.1, existing.valueType ≠ ref.2.valueType)
    (invalidGraph ("graph input " ++ reprIdentity ref.1 ++
      " has conflicting exact type declarations"))
  return descriptors.set ref.1 ref.2

/-- `_collect_graph_inputs`. -/
def collectGraphInputs (definition : GraphDefinition τ) :
    Except CompileError (List (OutputDeclaration τ)) := do
  let descriptors ← (graphInputRefs definition).foldlM collectGraphInput Dict.empty
  return declarationsOf descriptors

/-- `_resolve_predecessor_output`. -/
def resolvePredecessorOutput (nodeOutputs : NodeOutputs τ) (gates : List RawActivationGate)
    (target : GraphNodeId) (inputName : String) (startInput : Option GraphInputPort)
    (source : PredecessorOutputRef τ) :
    Except CompileError (CompiledPredecessorInput × NominalTypeDescriptor τ) := do
  raiseIf (∃ gate ∈ gates, gate.length ≠ 1)
    (invalidGraph ("predecessor-bound node " ++ reprIdentity target ++
      " cannot be activated by a Join"))
  let sourceIds := sortedSet (gates.filterMap (fun gate => gate.head?.map Prod.fst))
  let descriptors ← sourceIds.mapM (fun sourceId =>
    (declarationOf ((nodeOutputs sourceId).getD []) source.outputName
      ("predecessor node " ++ reprIdentity sourceId)).map OutputDeclaration.descriptor)
  let descriptor ← orRaise (invalidGraph ("predecessor input " ++ reprIdentity inputName ++
    " on node " ++ reprIdentity target ++ " has no routed predecessor type source"))
    descriptors.head?
  raiseIf (∃ candidate ∈ descriptors.tail, candidate.valueType ≠ descriptor.valueType)
    (invalidGraph ("predecessor input " ++ reprIdentity inputName ++ " on node " ++
      reprIdentity target ++ " has conflicting exact output types"))
  raiseIf (∃ typed ∈ source.descriptor, typed.valueType ≠ descriptor.valueType)
    (invalidGraph ("typed predecessor input " ++ reprIdentity inputName ++ " on node " ++
      reprIdentity target ++ " does not match its declared exact type"))
  return (⟨target, inputName, sourceIds.map (fun sourceId => ⟨sourceId, source.outputName⟩),
    startInput⟩, descriptor)

end Typed

/-- A resolved value source as the source of a node input. -/
def ResolvedValueSource.toInput : ResolvedValueSource → ResolvedInputSource
  | .graphInput port => .graphInput port
  | .nodeOutput port => .nodeOutput port

/-- The inputs of one node: its resolved bindings, and the ones that wait for the gates. -/
structure NodeBindings (τ : Type) where
  resolved : List (ResolvedInputBinding τ)
  predecessors : List (String × PredecessorOutputRef τ)

instance : Inhabited (NodeBindings τ) := ⟨⟨[], []⟩⟩

/-- One binding of `_resolve_input_bindings`. -/
def resolveInputBinding (graphInputs : List (OutputDeclaration τ)) (nodeOutputs : NodeOutputs τ)
    (node : GraphNodeId) (bindings : NodeBindings τ) (binding : InputBinding τ) :
    Except CompileError (NodeBindings τ) :=
  match binding.source with
  | .predecessor outputName descriptor => return { bindings with
      predecessors := bindings.predecessors ++ [(binding.localName, ⟨outputName, descriptor⟩)] }
  | .graphInput name descriptor => resolve (.graphInput name descriptor)
  | .nodeOutput nodeId outputName descriptor => resolve (.nodeOutput nodeId outputName descriptor)
where
  resolve (source : ValueSourceRef τ) : Except CompileError (NodeBindings τ) := do
    let found ← resolveSource graphInputs nodeOutputs (some node) source
    return { bindings with resolved := bindings.resolved ++
      [⟨⟨node, binding.localName⟩, found.1.toInput, found.2, none⟩] }

/-- `data_dependencies[node]`. -/
def NodeBindings.dependencies (bindings : NodeBindings τ) : List GraphNodeId :=
  sortedSet (bindings.resolved.filterMap (fun binding =>
    match binding.source with
    | .nodeOutput port => some port.nodeId
    | _ => none))

/-- `_resolve_input_bindings`. -/
def resolveInputBindings (nodes : Dict GraphNodeId (GraphNode τ (GraphDefinition τ)))
    (nodeIds : List GraphNodeId) (graphInputs : List (OutputDeclaration τ))
    (nodeOutputs : NodeOutputs τ) : Except CompileError (Dict GraphNodeId (NodeBindings τ)) := do
  let bindings ← tableM nodeIds (fun node =>
    (((nodes.get? node).map GraphNode.inputs).getD []).foldlM
      (resolveInputBinding graphInputs nodeOutputs node) ⟨[], []⟩)
  raiseIf (dataCycle nodeIds (fun node => (bindings.getItem node).dependencies) = true)
    (invalidGraph "ordinary node value bindings contain a data cycle")
  return bindings

/-! ## Control topology -/

/-- The relations `_collect_control_topology` lowers the edges into. -/
structure ControlTopology where
  directTargets : GraphNodeId → List GraphNodeId
  conditionalTargets : ConditionalTargets
  activationGates : ActivationGates
  gatesToEnd : List (List GraphNodeId)
  joins : List JoinEdge
  routeOptions : Dict GraphNodeId (List Route)

/-- `direct_targets[node]`. -/
def collectDirectTargets (edges : List Edge) (node : GraphNodeId) : List GraphNodeId :=
  sortedSet (edges.filterMap (fun edge =>
    match edge with
    | .direct source target => if source = node ∧ target ≠ END then some target else none
    | _ => none))

/-- `conditional_targets[node]`. -/
def collectConditionalTargets (edges : List Edge) (node : GraphNodeId) :
    Dict GraphRouteId GraphNodeId :=
  dictOf (edges.filterMap (fun edge =>
    match edge with
    | .conditional source route target => if source = node then some (route, target) else none
    | _ => none))

/-- The gate of an edge: its sources and the route each must select. -/
def Edge.gate : Edge → RawActivationGate
  | .direct source _ => [(source, none)]
  | .conditional source route _ => [(source, some route)]
  | .join sources _ => (sorted sources).map (fun source => (source, none))

def Edge.target : Edge → GraphNodeId
  | .direct _ target => target
  | .conditional _ _ target => target
  | .join _ target => target

/-- `activation_gates[node]`. -/
def collectActivationGates (edges : List Edge) (node : GraphNodeId) : List RawActivationGate :=
  (edges.filter (fun edge => edge.target = node ∧ node ≠ END)).map Edge.gate

/-- `gates_to_end`. -/
def collectGatesToEnd (edges : List Edge) : List (List GraphNodeId) :=
  (edges.filter (fun edge => edge.target = END)).map (fun edge =>
    sortedSet (edge.gate.map Prod.fst))

/-- `joins`, with their sources in order. -/
def collectJoins (edges : List Edge) : List JoinEdge :=
  edges.filterMap (fun edge =>
    match edge with
    | .join sources target => some ⟨sorted sources, target⟩
    | _ => none)

/-- `terminal_domain` of a node. -/
def terminalDomain (nestedGraphs : Dict GraphNodeId (CompiledGraph τ)) :
    GraphNode τ (GraphDefinition τ) → List Route
  | .callable definition =>
      if definition.exportedRoutes = [] then [none] else definition.exportedRoutes.map some
  | .nested nodeId _ _ => ((nestedGraphs.get? nodeId).map CompiledGraph.completionRoutes).getD []

/-- `tuple(sorted(repr(route) for route in routes))!r`. -/
def reprRoutes (routes : List Route) : String := reprTuple (sorted (routes.map reprRoute))

/-- `route_options[node]`. -/
def routeOptionsOf (conditional : List GraphRouteId) (hasControlSuccessor : Bool)
    (terminal : List Route) : List Route :=
  if conditional ≠ [] then (sorted conditional).map some
  else if hasControlSuccessor then [none]
  else terminal.dedup.insertionSort (fun a b => routeSortKey a ≤ routeSortKey b)

/-- The checks of one node of `_collect_control_topology`. -/
def checkRouteOptions (node : GraphNodeId) (definition : GraphNode τ (GraphDefinition τ))
    (conditional : List GraphRouteId) (hasControlSuccessor : Bool) (terminal options : List Route) :
    Except CompileError Unit :=
  match definition with
  | .callable callable =>
      raiseIf (callable.exportedRoutes ≠ [] ∧ (conditional ≠ [] ∨ hasControlSuccessor = true))
        (invalidGraph ("node " ++ reprIdentity node ++
          " exports terminal routes but is not a terminal callable"))
  | .nested _ _ _ => do
      let missing := terminal.filter (· ∉ options)
      let extra := options.filter (· ∉ terminal)
      raiseIf (conditional ≠ [] ∧ missing ≠ [])
        (invalidGraph ("nested node " ++ reprIdentity node ++
          " may complete with routes not declared by its conditional edges: " ++
          reprRoutes missing))
      raiseIf (conditional ≠ [] ∧ extra ≠ [])
        (invalidGraph ("nested node " ++ reprIdentity node ++
          " declares conditional routes the child cannot expose: " ++ reprRoutes extra))
      raiseIf (hasControlSuccessor = true ∧ missing ≠ [])
        (invalidGraph ("nested node " ++ reprIdentity node ++
          " may export routes before its control successors complete: " ++ reprRoutes missing))

/-- The route options of one node. -/
def collectRouteOptions (nestedGraphs : Dict GraphNodeId (CompiledGraph τ)) (edges : List Edge)
    (item : GraphNodeId × GraphNode τ (GraphDefinition τ)) :
    Except CompileError (GraphNodeId × List Route) := do
  let conditional := (collectConditionalTargets edges item.1).keys
  let hasControlSuccessor := decide (collectDirectTargets edges item.1 ≠ [] ∨
    ∃ join ∈ collectJoins edges, item.1 ∈ join.sources)
  let terminal := terminalDomain nestedGraphs item.2
  let options := routeOptionsOf conditional hasControlSuccessor terminal
  checkRouteOptions item.1 item.2 conditional hasControlSuccessor terminal options
  return (item.1, options)

/-- `_collect_control_topology`. -/
def collectControlTopology (nodes : Dict GraphNodeId (GraphNode τ (GraphDefinition τ)))
    (nestedGraphs : Dict GraphNodeId (CompiledGraph τ)) (edges : List Edge) :
    Except CompileError ControlTopology := do
  let routeOptions ← nodes.items.mapM (collectRouteOptions nestedGraphs edges)
  return ⟨collectDirectTargets edges, collectConditionalTargets edges,
    collectActivationGates edges, collectGatesToEnd edges, collectJoins edges,
    dictOf routeOptions⟩

/-! ## Entries -/

/-- `_resolve_entries`. -/
def resolveEntries (nodeIds declaredEntries : List GraphNodeId)
    (dataDependencies : DataDependencies) (gates : ActivationGates) :
    Except CompileError (List GraphNodeId) := do
  let explicitEntries := sorted declaredEntries
  raiseIf (∃ node ∈ explicitEntries, dataDependencies node ≠ [])
    (invalidGraph "an explicit START target cannot require a node output")
  checkAll (fun target => raiseIf (dataDependencies target ≠ [] ∧ gates target = [])
    (invalidGraph ("node " ++ reprIdentity target ++ " consumes node outputs from " ++
      reprTuple (dataDependencies target) ++ " but has no incoming control edge"))) nodeIds
  let automaticEntries := nodeIds.filter (fun node =>
    node ∉ explicitEntries ∧ dataDependencies node = [] ∧ gates node = [])
  let entries := sorted (explicitEntries ++ automaticEntries)
  raiseIf (entries = []) (.raised ⟨.missingEntry,
    "graph definition requires at least one automatic or explicit entry"⟩)
  return entries

/-! ## Control-causal inputs -/

section Typed
variable [DecidableEq τ]

/-- The bindings completed so far, and the graph inputs they declare. -/
structure CompletedInputs (τ : Type) where
  bindings : Dict GraphNodeId (List (ResolvedInputBinding τ))
  graphInputs : Dict String (NominalTypeDescriptor τ)

/-- One predecessor input of `_complete_input_bindings`: the resolved bindings of its node and the
graph-input descriptors. -/
def completePredecessor (nodeOutputs : NodeOutputs τ) (entries : List GraphNodeId)
    (gates : ActivationGates) (node : GraphNodeId)
    (state : List (ResolvedInputBinding τ) × Dict String (NominalTypeDescriptor τ))
    (input : String × PredecessorOutputRef τ) :
    Except CompileError
      (List (ResolvedInputBinding τ) × Dict String (NominalTypeDescriptor τ)) := do
  let startInput := if node ∈ entries then some (GraphInputPort.mk input.1) else none
  let found ← resolvePredecessorOutput nodeOutputs (gates node) node input.1 startInput input.2
  let entryDescriptor := state.2.get? input.1
  raiseIf (startInput ≠ none ∧
      ∃ existing ∈ entryDescriptor, existing.valueType ≠ found.2.valueType)
    (invalidGraph ("graph input " ++ reprIdentity input.1 ++
      " conflicts with its START causal input exact type"))
  let descriptor := if startInput = none then found.2 else entryDescriptor.getD found.2
  let graphInputs := if startInput = none ∨ entryDescriptor ≠ none then state.2
    else state.2.set input.1 found.2
  return (state.1 ++ [⟨⟨node, input.1⟩, .predecessor found.1, descriptor, none⟩], graphInputs)

/-- The inputs of a nested node are exactly its child's boundary. -/
def matchesBoundary (bindings : List (ResolvedInputBinding τ))
    (expected : List (OutputDeclaration τ)) : Bool :=
  bindings.map (fun binding => (binding.destination.localName, binding.descriptor.valueType)) =
    expected.map (fun declaration => (declaration.name, declaration.descriptor.valueType))

/-- One node of `_complete_input_bindings`. -/
def completeNodeInputs (nodes : Dict GraphNodeId (GraphNode τ (GraphDefinition τ)))
    (nestedGraphs : Dict GraphNodeId (CompiledGraph τ))
    (declared : Dict GraphNodeId (NodeBindings τ)) (nodeOutputs : NodeOutputs τ)
    (entries : List GraphNodeId) (gates : ActivationGates) (completed : CompletedInputs τ)
    (node : GraphNodeId) : Except CompileError (CompletedInputs τ) := do
  let bindings := declared.getItem node
  let result ← bindings.predecessors.foldlM (completePredecessor nodeOutputs entries gates node)
    (bindings.resolved, completed.graphInputs)
  let resolved := result.1.insertionSort (fun a b =>
    a.destination.localName ≤ b.destination.localName)
  raiseIf (∃ nested ∈ nodes.get? node, ∃ child ∈ nestedChild nested,
      matchesBoundary resolved child.graphInputDescriptor.declarations = false)
    (invalidGraph ("nested node " ++ reprIdentity node ++
      " inputs do not exactly match child boundary"))
  return ⟨completed.bindings.set node resolved, result.2⟩
where
  nestedChild : GraphNode τ (GraphDefinition τ) → Option (CompiledGraph τ)
    | .callable _ => none
    | .nested nodeId _ _ => nestedGraphs.get? nodeId

/-- `_complete_input_bindings`. -/
def completeInputBindings (nodes : Dict GraphNodeId (GraphNode τ (GraphDefinition τ)))
    (nestedGraphs : Dict GraphNodeId (CompiledGraph τ)) (nodeIds : List GraphNodeId)
    (graphInputs : List (OutputDeclaration τ)) (declared : Dict GraphNodeId (NodeBindings τ))
    (nodeOutputs : NodeOutputs τ) (entries : List GraphNodeId) (gates : ActivationGates) :
    Except CompileError (CompletedInputs τ) :=
  nodeIds.foldlM (completeNodeInputs nodes nestedGraphs declared nodeOutputs entries gates)
    ⟨Dict.empty, dictOf (graphInputs.map (fun declaration =>
      (declaration.name, declaration.descriptor)))⟩

end Typed

/-! ## The control plan -/

/-- What the control analyses leave for the compiled plan. -/
structure ControlPlan where
  successors : Successors
  terminalGates : List (List GraphNodeId)
  terminalGuarantees : List GraphNodeId
  absoluteLevels : GraphNodeId → Option Nat
  joins : List CompiledJoin
  completionRoutes : List Route

/-- `joins_by_source[node]`. -/
def joinsFrom (joins : List CompiledJoin) (node : GraphNodeId) : List CompiledJoin :=
  joins.filter (fun join => node ∈ join.identity.sources)

/-- `joins_by_target[node]`. -/
def joinsInto (joins : List CompiledJoin) (node : GraphNodeId) : List CompiledJoin :=
  joins.filter (fun join => join.identity.target = node ∧ node ≠ END)

/-- A value is produced before every activation of its consumer can ask for it. -/
def checkProducer (nodeIds : List GraphNodeId) (successors : Successors) (gates : ActivationGates)
    (target source : GraphNodeId) : Except CompileError Unit :=
  raiseIf (target = source ∨ (canReach nodeIds successors target source = true ∧
      allActivationGatesInclude source (gates target) = false))
    (invalidGraph ("node output " ++ reprIdentity source ++
      " is not guaranteed before controlled node " ++ reprIdentity target))

/-- The producers of a node are among its guaranteed predecessors. -/
def checkGuarantees (guarantees : Dict GraphNodeId (List GraphNodeId))
    (dataDependencies : DataDependencies) (target : GraphNodeId) : Except CompileError Unit :=
  let missing := (dataDependencies target).filter (· ∉ guarantees.getItem target)
  raiseIf (missing ≠ [])
    (invalidGraph ("controlled node " ++ reprIdentity target ++
      " can activate before required producers " ++ reprTuple missing))

/-- The control tables that the frontier proof reads. -/
def frontierRelation (nodeIds entries : List GraphNodeId) (topology : ControlTopology)
    (joins : List CompiledJoin) : FrontierRelation where
  entries := entries
  routeOptions := topology.routeOptions
  directTargets := Dict.build nodeIds topology.directTargets
  conditionalTargets := Dict.build nodeIds topology.conditionalTargets
  joinsBySource := Dict.build nodeIds (joinsFrom joins)

/-- The control half of `_compile_definition`, from the reachability check to the completion
routes. -/
def planControl (nodeIds entries : List GraphNodeId) (topology : ControlTopology)
    (dataDependencies : DataDependencies) : Except CompileError ControlPlan := do
  let static := staticSuccessors topology.directTargets topology.conditionalTargets
  let reached ← reachable nodeIds entries static topology.joins
  let unreachable := nodeIds.filter (· ∉ reached)
  raiseIf (unreachable ≠ []) (.raised ⟨.unreachableNode,
    "unreachable nodes: " ++ ", ".intercalate unreachable⟩)
  let successors := joinedSuccessors static topology.joins
  let gates := terminalGates nodeIds topology.gatesToEnd successors
  checkAll (fun target => checkAll
    (checkProducer nodeIds successors topology.activationGates target)
    (dataDependencies target)) nodeIds
  let requirements ← validateJointActivationPaths nodeIds entries topology.activationGates
    dataDependencies topology.conditionalTargets successors
  let guarantees ← guaranteedSets nodeIds entries topology.activationGates
  checkAll (checkGuarantees guarantees dataDependencies) nodeIds
  validateCycleExits nodeIds successors gates
  let completionGuarantees ← terminalGuarantees guarantees gates
  let absoluteLevels ← absoluteActivationLevels nodeIds entries successors
  let joins ← compileJoinOccurrencePlans nodeIds entries topology.joins topology.activationGates
    successors requirements topology.conditionalTargets absoluteLevels
  let relation := frontierRelation nodeIds entries topology joins
  let completionRoutes ← rethrow .raised (proveCompletionRoutes relation.entries
    relation.routeOptions relation.directTargets relation.conditionalTargets relation.joinsBySource)
  return ⟨successors, gates, completionGuarantees, absoluteLevels, joins, completionRoutes⟩

/-! ## The compiled plan -/

/-- One graph output. -/
def compileGraphOutput (graphInputs : List (OutputDeclaration τ)) (nodeOutputs : NodeOutputs τ)
    (plan : ControlPlan) (output : GraphOutputDeclaration τ) :
    Except CompileError (GraphOutputBinding τ) := do
  let found ← resolveSource graphInputs nodeOutputs none output.source
  let publication ← match found.1 with
    | .graphInput _ => pure none
    | .nodeOutput port => do
        raiseIf (port.nodeId ∉ plan.terminalGuarantees)
          (invalidGraph ("graph output " ++ reprIdentity output.boundaryName ++
            " is not guaranteed before every successful completion"))
        let selection ← outputPublicationSelection plan.absoluteLevels plan.terminalGates port
        pure (some selection)
  return ⟨⟨output.boundaryName⟩, found.1, found.2, publication⟩

/-- One input binding with the publication it reads. -/
def publishBinding (plan : ControlPlan) (gates : ActivationGates) (node : GraphNodeId)
    (binding : ResolvedInputBinding τ) : Except CompileError (ResolvedInputBinding τ) :=
  match binding.source with
  | .nodeOutput port => do
      let selection ← inputPublicationSelection plan.absoluteLevels gates (joinsInto plan.joins)
        port node
      return { binding with publication := some selection }
  | _ => return binding

/-- The materialization plan of one node. -/
def materializationOf (definition : GraphDefinition τ) (plan : ControlPlan)
    (gates : ActivationGates) (completed : CompletedInputs τ) (nodeIds : List GraphNodeId)
    (node : GraphNodeId) : Except CompileError (MaterializationPlan τ) := do
  let bindings ← (completed.bindings.getItem node).mapM (publishBinding plan gates node)
  return ⟨bindings, frameDescriptor definition .nodeInput (nodeIds.idxOf node)
    (bindings.map (fun binding => ⟨binding.destination.localName, binding.descriptor⟩))⟩

/-- The order of the Joins of one source. -/
def joinSortKey (join : CompiledJoin) : String ×ₗ List String :=
  toLex (join.identity.target, join.identity.sources)

/-- `FrontierTransitionPlan(...)`. -/
def transitionPlan (definition : GraphDefinition τ) (nodeIds entries : List GraphNodeId)
    (topology : ControlTopology) (plan : ControlPlan) (nodeOutputs : NodeOutputs τ)
    (materializations : Dict GraphNodeId (MaterializationPlan τ))
    (graphOutputs : List (GraphOutputBinding τ)) : FrontierTransitionPlan τ where
  entries := entries
  directTargets := Dict.build nodeIds topology.directTargets
  conditionalTargets := Dict.build nodeIds (fun node => (topology.conditionalTargets node).frozen)
  routeOptions := topology.routeOptions.frozen
  joinsBySource := Dict.build nodeIds (fun node => (joinsFrom plan.joins node).insertionSort
    (fun a b => joinSortKey a ≤ joinSortKey b))
  materializations := materializations
  publications := Dict.build nodeIds (fun node => frameDescriptor definition .nodeOutput
    (nodeIds.idxOf node) ((nodeOutputs node).getD []))
  graphOutputs := graphOutputs
  resourceOrder := definition.resources
  activationGates := Dict.build nodeIds (fun node => ((topology.activationGates node).map
    (fun gate => compiledActivationGate gate topology.conditionalTargets)).insertionSort
      (fun a b => activationGateSortKey a ≤ activationGateSortKey b))

/-- A node with its resources in the order of the graph. -/
def orderResources (resourceOrder : List ResourceId) :
    GraphNode τ (GraphDefinition τ) → GraphNode τ (GraphDefinition τ)
  | .callable definition => .callable { definition with
      resources := definition.resources.insertionSort (fun a b =>
        resourceOrder.idxOf a ≤ resourceOrder.idxOf b) }
  | .nested nodeId graph inputs => .nested nodeId graph inputs

/-- `nodes`. -/
def compiledNodes (definition : GraphDefinition τ) :
    Dict GraphNodeId (GraphNode τ (GraphDefinition τ)) :=
  dictOf (definition.nodes.map (fun node =>
    (node.nodeId, orderResources definition.resources node)))

/-- `node_outputs`. -/
def nodeOutputsOf (nodes : Dict GraphNodeId (GraphNode τ (GraphDefinition τ)))
    (nestedGraphs : Dict GraphNodeId (CompiledGraph τ)) : NodeOutputs τ :=
  fun node => (nodes.get? node).map (fun definition =>
    match definition with
    | .callable callable => callable.outputs
    | .nested nodeId _ _ => ((nestedGraphs.get? nodeId).map nestedOutputs).getD [])

/-- `_compile_definition`. -/
def compileDefinition [DecidableEq τ] (definition : GraphDefinition τ)
    (nestedGraphs : Dict GraphNodeId (CompiledGraph τ)) :
    Except CompileError (CompiledGraph τ) := do
  let nodes := compiledNodes definition
  let nodeIds := sorted nodes.keys
  let graphInputs ← collectGraphInputs definition
  let nodeOutputs := nodeOutputsOf nodes nestedGraphs
  let declared ← resolveInputBindings nodes nodeIds graphInputs nodeOutputs
  let dataDependencies : DataDependencies := fun node => (declared.getItem node).dependencies
  let topology ← collectControlTopology nodes nestedGraphs definition.edges
  let entries ← resolveEntries nodeIds definition.entries dataDependencies topology.activationGates
  let completed ← completeInputBindings nodes nestedGraphs nodeIds graphInputs declared nodeOutputs
    entries topology.activationGates
  let completedInputs := declarationsOf completed.graphInputs
  let plan ← planControl nodeIds entries topology dataDependencies
  let graphOutputs ← definition.outputs.mapM (compileGraphOutput completedInputs nodeOutputs plan)
  let materializations ← tableM nodeIds
    (materializationOf definition plan topology.activationGates completed nodeIds)
  return {
    definitionId := definition.definitionId
    version := definition.version
    nodes := nodes.frozen
    nestedGraphs := nestedGraphs.frozen.items
    graphInputDescriptor := frameDescriptor definition .graphInput 0 completedInputs
    graphOutputDescriptor := frameDescriptor definition .graphOutput 0
      (graphOutputs.map (fun binding => ⟨binding.destination.boundaryName, binding.descriptor⟩))
    transition := transitionPlan definition nodeIds entries topology plan nodeOutputs
      materializations graphOutputs
    resources := sorted definition.resources
    resumeInput := definition.resumeInput
    completionRoutes := plan.completionRoutes }

end MoteKernel
