import MoteKernel.Execution.Topology
import MoteKernel.State.Transitions

/-!
# Control resolution and snapshot admission

`execution/engine/routing.py`, with the coordinates of `execution/identity.py`
and `execution/run_context.py` that it uses. A function that returns an error
text or `None` returns `Option String`; one that raises returns `Except`.
-/

namespace MoteKernel
open Checked Canonical

variable {τ : Type}

/-! ## Coordinates -/

structure ScopeRunCoordinate where
  scope : List GraphNodeId
  graphRunId : GraphRunId
  deriving DecidableEq, Repr

structure StableActivation where
  scopeRun : ScopeRunCoordinate
  superstep : Nat
  nodeId : GraphNodeId
  deriving DecidableEq, Repr

/-- `stable_activation`. -/
def stableActivation (scopeRun : ScopeRunCoordinate) (activation : GraphActivationIdentity) :
    Except ExecutionError StableActivation := do
  raiseIf (activation.runId ≠ scopeRun.graphRunId)
    ⟨.snapshotMismatch, "activation does not belong to its scope-run coordinate"⟩
  return ⟨scopeRun, activation.superstep, activation.nodeId⟩

structure GraphInputAvailabilityCoordinate where
  scopeRun : ScopeRunCoordinate
  descriptor : FrameDescriptorIdentity
  deriving DecidableEq, Repr

structure PublicationAvailabilityCoordinate where
  activation : StableActivation
  descriptor : FrameDescriptorIdentity
  deriving DecidableEq, Repr

/-- The coordinate of the frame that holds one value. -/
inductive SourceCoordinate where
  | graphInput (coordinate : GraphInputAvailabilityCoordinate)
  | publication (coordinate : PublicationAvailabilityCoordinate)
  deriving DecidableEq, Repr

/-- `ScopedFrameAvailability`: which frames are present. -/
structure ScopedFrameAvailability where
  hasGraphInput : GraphInputAvailabilityCoordinate → Bool
  hasPublication : PublicationAvailabilityCoordinate → Bool

/-- `frame_coordinate_available`. -/
def frameCoordinateAvailable (frames : ScopedFrameAvailability) : SourceCoordinate → Bool
  | .graphInput coordinate => frames.hasGraphInput coordinate
  | .publication coordinate => frames.hasPublication coordinate

/-- `graph_input_availability_coordinate`. -/
def graphInputAvailabilityCoordinate (graph : CompiledGraph τ) (scopeRun : ScopeRunCoordinate) :
    GraphInputAvailabilityCoordinate :=
  ⟨scopeRun, graph.graphInputDescriptor.identity⟩

/-- `publication_availability_coordinate`. -/
def publicationAvailabilityCoordinate (graph : CompiledGraph τ) (scopeRun : ScopeRunCoordinate)
    (activation : GraphActivationIdentity) :
    Except ExecutionError PublicationAvailabilityCoordinate := do
  let stable ← stableActivation scopeRun activation
  return ⟨stable, (graph.transition.publications.getItem activation.nodeId).identity⟩

/-- `source_availability_coordinate`. -/
def sourceAvailabilityCoordinate (graph : CompiledGraph τ) (scopeRun : ScopeRunCoordinate)
    (source : ResolvedValueSource) (publication : Option PublicationSelection)
    (activationSuperstep : Nat) (missingSelection : ExecutionError) :
    Except ExecutionError SourceCoordinate :=
  match source with
  | .graphInput _ => return .graphInput (graphInputAvailabilityCoordinate graph scopeRun)
  | .nodeOutput port => do
      let selection ← orRaise missingSelection publication
      let superstep ← selection.resolve activationSuperstep
      let coordinate ← publicationAvailabilityCoordinate graph scopeRun
        ⟨scopeRun.graphRunId, superstep, port.nodeId⟩
      return .publication coordinate

/-! ## Contributions and settled references -/

/-- `validate_routing_contribution`. -/
def validateRoutingContribution (graph : CompiledGraph τ) (nodeId : GraphNodeId)
    (contribution : GraphRoutingContribution) : Except ExecutionError Unit := do
  raiseIf (nodeId ∉ graph.nodes.keys)
    ⟨.invalidRoutingCommand, "routing contribution references an unknown node"⟩
  let conditional := graph.conditionalTargets nodeId
  let options := graph.routeOptions nodeId
  match contribution with
  | .continueGraphRouting => do
      raiseIf (conditional.items ≠ [])
        ⟨.invalidRoutingCommand, "a conditional node must select one declared route"⟩
      raiseIf (none ∉ options)
        ⟨.invalidRoutingCommand, "a terminal node must select one declared exported route"⟩
  | .selectGraphRoute route => do
      raiseIf (conditional.items = [] ∧
          (graph.directTargets nodeId ≠ [] ∨ graph.joinsBySource nodeId ≠ []))
        ⟨.invalidRoutingCommand,
          "a route may be returned without conditional edges only by a terminal node"⟩
      raiseIf (some route ∉ options)
        ⟨.unknownRoute,
          if conditional.items ≠ [] then "node selected an unknown conditional route"
          else "node selected an undeclared exported route"⟩

/-- The loop body of `settled_activation_admission_error`. -/
def settledReferenceError (graph : CompiledGraph τ) (reference : ActivationReference) :
    Option String :=
  let nodeId := reference.activation.nodeId
  let conditional := graph.conditionalTargets nodeId
  let route := reference.route
  if nodeId ∉ graph.nodes.keys then
    some ("settled activation references unknown node " ++ reprIdentity nodeId)
  else if route = none ∧ conditional.items ≠ [] then
    some ("conditional settled activation " ++ reprIdentity nodeId ++ " lacks its selected route")
  else if route ∈ graph.routeOptions nodeId then none
  else if conditional.items ≠ [] then
    some ("settled activation " ++ reprIdentity nodeId ++ " selected an unknown route " ++
      reprRoute route)
  else if graph.directTargets nodeId ≠ [] ∨ graph.joinsBySource nodeId ≠ [] then
    some ("non-terminal settled activation " ++ reprIdentity nodeId ++ " selected route " ++
      reprRoute route)
  else
    some ("settled activation " ++ reprIdentity nodeId ++
      " selected an undeclared exported route " ++ reprRoute route)

/-- `settled_activation_admission_error`. -/
def settledActivationAdmissionError (graph : CompiledGraph τ) (state : GraphRunState) :
    Option String :=
  state.settledPublications.findSome? (fun settlement =>
    settledReferenceError graph settlement.reference)

/-- The target a selected route leads to, if it is not the end of the graph. -/
def selectedTarget (routes : FrozenMap GraphRouteId GraphNodeId) (route : Option GraphRouteId) :
    List GraphNodeId :=
  ((route.bind routes.get?).filter (fun target => target ≠ END)).toList

/-- `_successor_targets_for_reference`. -/
def successorTargetsForReference (graph : CompiledGraph τ) (reference : ActivationReference) :
    Except ExecutionError (List GraphNodeId) := do
  let source := reference.activation.nodeId
  let routes := graph.conditionalTargets source
  raiseIf (routes.items ≠ [] ∧ reference.route = none)
    ⟨.invalidRoutingCommand, "conditional predecessor settlement lacks its selected route"⟩
  raiseIf (∃ route ∈ reference.route, routes.items ≠ [] ∧ route ∉ routes.keys)
    ⟨.invalidRoutingCommand, "predecessor settlement selected an unknown route"⟩
  return graph.directTargets source ++ selectedTarget routes reference.route

/-- The order of a source and its route in a gate. -/
def gateKey (pair : GraphNodeId × Option GraphRouteId) : String ×ₗ Bool ×ₗ String :=
  toLex (pair.1, toLex (pair.2.isSome, pair.2.getD ""))

/-- `_gate_matches_cause`. -/
def gateMatchesCause (gate : ActivationGate) (cause : RoutedActivationCause) : Bool :=
  let actual := (cause.references.map (fun reference =>
    (reference.activation.nodeId, reference.route))).insertionSort
      (fun a b => gateKey a ≤ gateKey b)
  decide (actual.length = gate.length) &&
    (gate.zip actual).all (fun pair => pair.1.1 = pair.2.1 && pair.1.2.contains pair.2.2)

/-- The exact publication source selected by one admitted activation cause. -/
inductive CausalSource where
  | graphInput (port : GraphInputPort)
  | predecessor (source : NodeOutputPort) (predecessor : GraphActivationIdentity)
  deriving DecidableEq, Repr

/-- The START case of `causal_input_source_for_cause`. -/
def causalStartSource (graph : CompiledGraph τ) (targetSuperstep : Nat) (nodeId : GraphNodeId)
    (inputName : String) (source : CompiledPredecessorInput) :
    Except ExecutionError CausalSource := do
  raiseIf (targetSuperstep ≠ 0)
    ⟨.invalidRoutingCommand, "predecessor-bound activation cannot carry the START cause"⟩
  let startInput ← orRaise
    ⟨.invalidRoutingCommand, "predecessor-bound activation has an invalid target coordinate"⟩
    source.startInput
  raiseIf (nodeId ∉ graph.transition.entries ∨ startInput.name ≠ inputName)
    ⟨.invalidRoutingCommand, "causal START input does not belong to an initial graph activation"⟩
  return .graphInput startInput

/-- The routed case of `causal_input_source_for_cause`. -/
def causalRoutedSource (state : GraphRunState) (targetSuperstep : Nat)
    (cause : RoutedActivationCause) (source : CompiledPredecessorInput) :
    Except ExecutionError CausalSource := do
  raiseIf (targetSuperstep < 1)
    ⟨.invalidRoutingCommand, "predecessor-bound activation has an invalid target coordinate"⟩
  match cause.joinOccurrence, cause.references with
  | none, [reference] => do
      raiseIf (reference.activation ≠
            ⟨state.runId, targetSuperstep - 1, reference.activation.nodeId⟩ ∨
          reference ∉ state.settledReferences)
        ⟨.invalidRoutingCommand,
          "predecessor activation lacks immediate committed settlement evidence"⟩
      match source.sources.filter (fun port => port.nodeId = reference.activation.nodeId) with
      | [port] => return .predecessor port reference.activation
      | _ => throw ⟨.invalidRoutingCommand,
          "activation cause is not an allowed predecessor source"⟩
  | _, _ => throw ⟨.invalidRoutingCommand,
      "predecessor-bound activation requires one non-Join predecessor"⟩

/-- `causal_input_source_for_cause`. -/
def causalInputSourceForCause (graph : CompiledGraph τ) (state : GraphRunState)
    (targetSuperstep : Nat) (cause : GraphActivationCause) (binding : ResolvedInputBinding τ) :
    Except ExecutionError CausalSource :=
  match binding.source with
  | .predecessor source => do
      let nodeId := binding.destination.nodeId
      let inputName := binding.destination.localName
      raiseIf (source.target ≠ nodeId ∨ source.inputName ≠ inputName)
        ⟨.invalidRoutingCommand, "predecessor binding does not match its target input"⟩
      match cause with
      | .start => causalStartSource graph targetSuperstep nodeId inputName source
      | .routed cause => causalRoutedSource state targetSuperstep cause source
  | _ => throw ⟨.invalidRoutingCommand,
      "causal source selection requires a predecessor-bound input"⟩

/-- `binding_source_coordinate`. -/
def bindingSourceCoordinate (graph : CompiledGraph τ) (state : Option GraphRunState)
    (scopeRun : ScopeRunCoordinate) (activationSuperstep : Nat)
    (binding : ResolvedInputBinding τ) (cause : Option GraphActivationCause) :
    Except ExecutionError (ResolvedValueSource × SourceCoordinate) :=
  match binding.source with
  | .predecessor _ =>
      match state, cause with
      | some state, some cause => do
          let selected ← causalInputSourceForCause graph state activationSuperstep cause binding
          match selected with
          | .graphInput port => return (.graphInput port,
              .graphInput (graphInputAvailabilityCoordinate graph scopeRun))
          | .predecessor source predecessor => do
              let coordinate ← publicationAvailabilityCoordinate graph scopeRun predecessor
              return (.nodeOutput source, .publication coordinate)
      | _, _ => throw ⟨.invalidRoutingCommand,
          "predecessor input availability requires authoritative graph state"⟩
  | .graphInput port => return (.graphInput port,
      .graphInput (graphInputAvailabilityCoordinate graph scopeRun))
  | .nodeOutput port => do
      let coordinate ← sourceAvailabilityCoordinate graph scopeRun (.nodeOutput port)
        binding.publication activationSuperstep
        ⟨.invalidRoutingCommand, "compiled node-output binding lacks its activation selection"⟩
      return (.nodeOutput port, coordinate)

/-! ## Join declarations and arrivals -/

abbrev JoinDeclarations := Dict GraphJoinIdentity CompiledJoin
abbrev JoinArrivals := Dict GraphJoinOccurrenceIdentity (List ActivationReference)

/-- Every compiled Join with each source it is indexed under, in the order of the table. -/
def indexedJoins (graph : CompiledGraph τ) : List (GraphNodeId × CompiledJoin) :=
  graph.transition.joinsBySource.items.flatMap (fun item => item.2.map (fun join => (item.1, join)))

/-- One step of `_declared_joins`. -/
def declareJoin (declared : JoinDeclarations) (indexed : GraphNodeId × CompiledJoin) :
    Except ExecutionError JoinDeclarations := do
  raiseIf (indexed.1 ∉ indexed.2.identity.sources)
    ⟨.snapshotMismatch, "compiled Join is indexed under a non-source node"⟩
  match declared.get? indexed.2.identity with
  | none => return declared.set indexed.2.identity indexed.2
  | some existing => do
      raiseIf (existing ≠ indexed.2)
        ⟨.snapshotMismatch, "compiled Join identity has conflicting occurrence projections"⟩
      return declared

/-- `_declared_joins`. -/
def declaredJoins (graph : CompiledGraph τ) : Except ExecutionError JoinDeclarations := do
  let declared ← (indexedJoins graph).foldlM declareJoin Dict.empty
  raiseIf (∃ identity ∈ declared.keys, ∃ source ∈ identity.sources,
      ∀ indexed ∈ indexedJoins graph, indexed.2.identity = identity → indexed.1 ≠ source)
    ⟨.snapshotMismatch, "compiled Join source index is incomplete"⟩
  return declared

/-- One record of `_pending_join_arrivals`. -/
def pendingJoinArrival (state : GraphRunState) (declared : JoinDeclarations)
    (arrivals : JoinArrivals) (progress : GraphJoinProgress) :
    Except ExecutionError JoinArrivals := do
  let occurrence := progress.occurrence
  let sources := sourceIds progress.arrived
  let plan ← orRaise ⟨.joinProgress, "snapshot contains invalid Join progress"⟩
    (declared.get? occurrence.join)
  raiseIf (occurrence ∈ arrivals.keys ∨ occurrence.runId ≠ state.runId ∨
      occurrence.targetSuperstep ≤ state.superstep ∨ progress.arrived = [] ∨
      ¬ (sources ⊆ occurrence.join.sources ∧ ¬ occurrence.join.sources ⊆ sources))
    ⟨.joinProgress, "snapshot contains invalid Join progress"⟩
  raiseIf (¬ sources.Nodup)
    ⟨.joinProgress, "snapshot Join progress repeats one source activation"⟩
  raiseIf (∃ reference ∈ progress.arrived, reference ∉ state.settledReferences)
    ⟨.joinProgress, "snapshot Join progress lacks committed settlement evidence"⟩
  checkAll (fun reference => do
    let projected ← plan.occurrenceFor reference.activation
    raiseIf (projected ≠ occurrence)
      ⟨.joinProgress, "snapshot Join progress has misprojected arrival evidence"⟩) progress.arrived
  return arrivals.set occurrence progress.arrived

/-- `_pending_join_arrivals`. -/
def pendingJoinArrivals (state : GraphRunState) (declared : JoinDeclarations) :
    Except ExecutionError JoinArrivals :=
  state.joinProgress.foldlM (pendingJoinArrival state declared) Dict.empty

/-! ## Frontier provenance -/

/-- The first error text of a loop that returns early. -/
def firstError {α : Type} (check : α → Except ExecutionError (Option String)) :
    List α → Except ExecutionError (Option String)
  | [] => return none
  | x :: xs => do
      match ← check x with
      | some text => return some text
      | none => firstError check xs

/-- `try: check; except InvalidRoutingCommandError as error: return str(error)`. -/
def routingErrorText (check : Except ExecutionError Unit) : Except ExecutionError (Option String) :=
  match check with
  | .ok () => return none
  | .error error =>
      if error.kind = .invalidRoutingCommand then return some error.message else throw error

/-- The Join part of `_frontier_gate_error`. -/
def frontierOccurrenceError (state : GraphRunState) (declared : JoinDeclarations)
    (nodeId : GraphNodeId) (cause : RoutedActivationCause) (gate : ActivationGate) :
    Except ExecutionError (Option String) :=
  match cause.joinOccurrence with
  | none => pure (
      if gate.length ≠ 1 then some ("frontier activation " ++ reprIdentity nodeId ++
        " lacks its compiled Join occurrence")
      else none)
  | some occurrence =>
      let unknown := "frontier activation " ++ reprIdentity nodeId ++
        " has an unknown Join occurrence"
      match declared.get? occurrence.join with
      | none => return some unknown
      | some plan =>
          if occurrence.join.target ≠ nodeId ∨ occurrence.runId ≠ state.runId ∨
              occurrence.targetSuperstep ≠ state.superstep then return some unknown
          else firstError (fun reference => do
            let projected ← plan.occurrenceFor reference.activation
            return (
              if projected ≠ occurrence then some ("frontier activation " ++
                reprIdentity nodeId ++ " has misprojected Join evidence")
              else none)) cause.references

/-- The routed part of `_frontier_gate_error`. -/
def frontierCauseError (graph : CompiledGraph τ) (state : GraphRunState)
    (declared : JoinDeclarations) (nodeId : GraphNodeId) (cause : RoutedActivationCause) :
    Except ExecutionError (Option String) :=
  match (graph.activationGates nodeId).filter (fun gate => gateMatchesCause gate cause) with
  | [gate] => do
      match ← frontierOccurrenceError state declared nodeId cause gate with
      | some text => return some text
      | none => return (
          if ∃ reference ∈ cause.references, reference ∉ state.settledReferences then
            some ("frontier activation " ++ reprIdentity nodeId ++
              " lacks committed predecessor settlement evidence")
          else none)
  | _ => return some ("frontier activation " ++ reprIdentity nodeId ++
      " does not match exactly one compiled activation gate")

/-- Every causal input of a node resolves to its source. -/
def checkCausalInputs (graph : CompiledGraph τ) (state : GraphRunState)
    (node : GraphFrontierNode) : Except ExecutionError Unit :=
  checkAll (fun binding =>
    match binding.source with
    | .predecessor _ => do
        let _ ← causalInputSourceForCause graph state state.superstep node.cause binding
        return ()
    | _ => return ()) (graph.bindings node.nodeId)

/-- The loop body of `_frontier_gate_error`. -/
def frontierNodeError (graph : CompiledGraph τ) (state : GraphRunState)
    (declared : JoinDeclarations) (node : GraphFrontierNode) :
    Except ExecutionError (Option String) :=
  if node.nodeId ∉ graph.nodes.keys then
    return some ("frontier activation references unknown node " ++ reprIdentity node.nodeId)
  else do
    match ← routingErrorText (checkCausalInputs graph state node) with
    | some text => return some text
    | none =>
        match node.cause with
        | .start => return (
            if node.nodeId ∉ graph.transition.entries then some ("START activation " ++
              reprIdentity node.nodeId ++ " is not a compiled graph entry")
            else none)
        | .routed cause => frontierCauseError graph state declared node.nodeId cause

/-- `_frontier_gate_error`. -/
def frontierGateError (graph : CompiledGraph τ) (state : GraphRunState)
    (declared : JoinDeclarations) : Except ExecutionError (Option String) :=
  firstError (frontierNodeError graph state declared) state.frontier.nodes

/-! ## Historical arrivals and the successor check -/

/-- One plan of one settled source in `_historical_join_arrivals`. -/
def historicalArrival (reference : ActivationReference) (arrivals : JoinArrivals)
    (plan : CompiledJoin) : Except ExecutionError JoinArrivals := do
  let occurrence ← plan.occurrenceFor reference.activation
  match ((arrivals.get? occurrence).getD []).find? (fun other =>
      other.activation.nodeId = reference.activation.nodeId) with
  | some existing =>
      if existing ≠ reference then
        throw ⟨.joinProgress, "Join source activation occurrence selected two routes"⟩
      else throw ⟨.joinProgress, "Join source activation occurrence repeated"⟩
  | none => return arrivals.push occurrence reference

/-- One settlement of `_historical_join_arrivals`. -/
def historicalSettlement (graph : CompiledGraph τ) (state : GraphRunState)
    (arrivals : JoinArrivals) (settlement : GraphPublicationSettlement) :
    Except ExecutionError JoinArrivals :=
  let reference := settlement.reference
  if reference.activation.superstep ≥ state.superstep then return arrivals
  else do
    raiseIf (reference.activation.nodeId ∉ graph.nodes.keys)
      ⟨.joinProgress, "settled activation references unknown node " ++
        reprIdentity reference.activation.nodeId⟩
    (graph.joinsBySource reference.activation.nodeId).foldlM (historicalArrival reference) arrivals

/-- `_historical_join_arrivals`: every live Join occurrence rebuilt from the ledger. -/
def historicalJoinArrivals (graph : CompiledGraph τ) (state : GraphRunState) :
    Except ExecutionError JoinArrivals := do
  let arrivals ← state.settledPublications.foldlM (historicalSettlement graph state) Dict.empty
  return Dict.build arrivals.keys (fun occurrence => sorted (arrivals.getItem occurrence))

/-- What one historical occurrence means for the frontier it precedes. -/
inductive HistoricalOutcome where
  | passed
  | activates (target : GraphNodeId) (cause : RoutedActivationCause)
  | ends
  | pending (occurrence : GraphJoinOccurrenceIdentity) (arrivals : List ActivationReference)
  deriving DecidableEq, Repr

/-- The Join loop body of `_post_advance_error`. -/
def historicalOutcome (state : GraphRunState)
    (item : GraphJoinOccurrenceIdentity × List ActivationReference) :
    Except String HistoricalOutcome :=
  let occurrence := item.1
  let sources := sourceIds item.2
  let complete := sources ⊆ occurrence.join.sources ∧ occurrence.join.sources ⊆ sources
  if occurrence.targetSuperstep < state.superstep then do
    raiseIf (¬ complete) "historical Join occurrence passed its target without every source"
    return .passed
  else if complete then do
    raiseIf (occurrence.targetSuperstep ≠ state.superstep)
      "Join occurrence completed before its target coordinate"
    return if occurrence.join.target ≠ END then
      .activates occurrence.join.target ⟨item.2, some occurrence⟩ else .ends
  else do
    raiseIf (occurrence.targetSuperstep = state.superstep)
      "Join occurrence reached its target coordinate without every source"
    return .pending occurrence item.2

/-- The causes one settled predecessor contributes. -/
def referenceCandidates (graph : CompiledGraph τ) (reference : ActivationReference) :
    Except ExecutionError (List (GraphNodeId × RoutedActivationCause)) := do
  let targets ← successorTargetsForReference graph reference
  return targets.map (fun target => (target, ⟨[reference], none⟩))

/-- The routed causes of the current frontier. -/
def routedCauses (state : GraphRunState) : List (GraphNodeId × RoutedActivationCause) :=
  state.frontier.nodes.filterMap (fun node =>
    match node.cause with
    | .start => none
    | .routed cause => some (node.nodeId, cause))

/-- The routed cause of one node of the current frontier. -/
def routedCause (state : GraphRunState) (nodeId : GraphNodeId) : Option RoutedActivationCause :=
  ((routedCauses state).find? (fun pair => pair.1 = nodeId)).map Prod.snd

/-- The comparison of one target with its compiled causes. -/
def successorCauseError (state : GraphRunState)
    (item : GraphNodeId × List RoutedActivationCause) : Option String :=
  match item.2 with
  | [cause] => if routedCause state item.1 ≠ some cause then
      some ("frontier target " ++ reprIdentity item.1 ++
        " does not match its compiled successor cause")
      else none
  | causes => some ("target " ++ reprIdentity item.1 ++ " has " ++ toString causes.length ++
      " compiled activation causes")

/-- The comparison of the carried Join progress with the rebuilt one. -/
def progressError (state : GraphRunState)
    (expected : List (GraphJoinOccurrenceIdentity × List ActivationReference)) : Except String Unit := do
  raiseIf (¬ (state.joinProgress.map (·.occurrence) ⊆ expected.map Prod.fst ∧
      expected.map Prod.fst ⊆ state.joinProgress.map (·.occurrence)))
    "frontier transition lost or invented Join progress"
  raiseIf (∃ item ∈ expected,
      (progressOf state.joinProgress item.1).map (·.arrived) ≠ some item.2)
    "frontier transition changed Join progress without a proven arrival"

/-- The references settled in the previous superstep. -/
def previousReferences (state : GraphRunState) : List ActivationReference :=
  state.settledReferences.filter (fun reference =>
    reference.activation.superstep + 1 = state.superstep)

def HistoricalOutcome.candidate : HistoricalOutcome → Option (GraphNodeId × RoutedActivationCause)
  | .activates target cause => some (target, cause)
  | _ => none

def HistoricalOutcome.progress :
    HistoricalOutcome → Option (GraphJoinOccurrenceIdentity × List ActivationReference)
  | .pending occurrence arrivals => some (occurrence, arrivals)
  | _ => none

/-- The causes that must open the frontier, by target. -/
def compiledSuccessors (direct : List (GraphNodeId × RoutedActivationCause))
    (outcomes : List HistoricalOutcome) : Dict GraphNodeId (List RoutedActivationCause) :=
  (Dict.empty.pushAll direct).pushAll (outcomes.filterMap HistoricalOutcome.candidate)

/-- `_post_advance_error`, as the check whose error is the returned text. -/
def checkPostAdvance (graph : CompiledGraph τ) (state : GraphRunState)
    (historical : JoinArrivals) : Except String Unit := do
  let previous := previousReferences state
  raiseIf (previous = []) "non-initial frontier has no committed predecessor settlements"
  let direct ← rethrow ExecutionError.message (previous.mapM (referenceCandidates graph))
  let outcomes ← historical.items.mapM (historicalOutcome state)
  progressError state (outcomes.filterMap HistoricalOutcome.progress)
  let candidates := compiledSuccessors direct.flatten outcomes
  match candidates.items.findSome? (successorCauseError state) with
  | some text => throw text
  | none => do
      let unexpected := sortedSet ((routedCauses state).map Prod.fst |>.filter
        (fun target => target ∉ candidates.keys))
      raiseIf (unexpected ≠ [])
        ("frontier contains an unproved successor target: " ++ reprTuple unexpected)

/-- `_post_advance_error`. -/
def postAdvanceError (graph : CompiledGraph τ) (state : GraphRunState)
    (historical : JoinArrivals) : Option String :=
  match checkPostAdvance graph state historical with
  | .ok () => none
  | .error text => some text

/-! ## Evaluation -/

structure RequiredTarget where
  nodeId : GraphNodeId
  unavailableInputs : List String
  deriving DecidableEq, Repr

/-- Immutable derived facts for one exact graph/state routing input. -/
structure RoutingFacts where
  declaredJoins : JoinDeclarations := Dict.empty
  pendingJoinArrivals : JoinArrivals := Dict.empty
  historicalJoinArrivals : JoinArrivals := Dict.empty
  remainingJoinProgress : List GraphJoinProgress := []
  activations : List GraphFrontierActivation := []
  consumedJoinProgress : List GraphJoinOccurrenceIdentity := []
  requiredTargets : List RequiredTarget := []
  unavailableGraphOutputs : List String := []
  completionRoute : Option GraphRouteId := none
  admissionError : Option String := none
  pendingError : Option ExecutionError := none
  deriving DecidableEq

/-- The part of `_routing_evaluation` after the pending arrivals are known. -/
def historicalEvaluation (graph : CompiledGraph τ) (state : GraphRunState)
    (evaluation : RoutingFacts) : RoutingFacts :=
  if state.superstep = 0 then evaluation
  else
    match historicalJoinArrivals graph state with
    | .error error => { evaluation with admissionError := some error.message }
    | .ok historical => { evaluation with
        historicalJoinArrivals := historical
        admissionError := postAdvanceError graph state historical }

/-- `_routing_evaluation`. -/
def routingEvaluation (graph : CompiledGraph τ) (state : GraphRunState) :
    Except ExecutionError RoutingFacts :=
  let ledgerError := settledActivationAdmissionError graph state
  if ledgerError ≠ none ∨ state.status = .completed then
    return { admissionError := ledgerError }
  else
    match declaredJoins graph with
    | .error error => return { admissionError := some error.message }
    | .ok declared => do
        match ← frontierGateError graph state declared with
        | some text => return { declaredJoins := declared, admissionError := some text }
        | none =>
            match pendingJoinArrivals state declared with
            | .error error => return {
                declaredJoins := declared
                pendingError := some error
                admissionError := (if state.superstep > 0 then some error.message else none) }
            | .ok arrivals => return (historicalEvaluation graph state
                { declaredJoins := declared, pendingJoinArrivals := arrivals })

/-- `frontier_admission_error`. -/
def frontierAdmissionError (graph : CompiledGraph τ) (state : GraphRunState) :
    Except ExecutionError (Option String) := do
  let evaluation ← routingEvaluation graph state
  return evaluation.admissionError

/-! ## Control resolution -/

/-- The causes and arrivals gathered from the settled frontier. -/
structure ControlContributions where
  candidates : List (GraphNodeId × RoutedActivationCause)
  arrivals : JoinArrivals

/-- The arrival of one source at one of its Joins. -/
def contributeArrival (reference : ActivationReference) (arrivals : JoinArrivals)
    (plan : CompiledJoin) : Except ExecutionError JoinArrivals := do
  let occurrence ← plan.occurrenceFor reference.activation
  raiseIf (∃ item ∈ (arrivals.get? occurrence).getD [],
      item.activation.nodeId = reference.activation.nodeId)
    ⟨.joinProgress, "join source activation occurrence repeated"⟩
  return arrivals.push occurrence reference

/-- One settled node in the first loop of `_resolve_control`. -/
def contribute (graph : CompiledGraph τ) (state : GraphRunState) (gathered : ControlContributions)
    (settled : GraphNodeId × GraphRoutingContribution) :
    Except ExecutionError ControlContributions := do
  validateRoutingContribution graph settled.1 settled.2
  let reference := activationReference state.runId state.superstep settled.1 settled.2.route
  let candidates ← referenceCandidates graph reference
  let arrivals ← (graph.joinsBySource settled.1).foldlM (contributeArrival reference)
    gathered.arrivals
  return ⟨gathered.candidates ++ candidates, arrivals⟩

/-- What one Join occurrence does when the frontier settles. -/
inductive JoinOutcome where
  | activates (target : GraphNodeId) (cause : RoutedActivationCause)
  | consumes (occurrence : GraphJoinOccurrenceIdentity)
  | ends
  | remains (progress : GraphJoinProgress)
  deriving DecidableEq, Repr

/-- The second loop body of `_resolve_control`. -/
def resolveOccurrence (state : GraphRunState) (arrivals : JoinArrivals)
    (occurrence : GraphJoinOccurrenceIdentity) : Except ExecutionError JoinOutcome :=
  let arrived := sorted (arrivals.getItem occurrence)
  let sources := sourceIds arrived
  if sources ⊆ occurrence.join.sources ∧ occurrence.join.sources ⊆ sources then do
    raiseIf (occurrence.targetSuperstep ≠ state.superstep + 1)
      ⟨.joinProgress, "completed Join occurrence has the wrong target coordinate"⟩
    return if occurrence.join.target ≠ END then
        .activates occurrence.join.target ⟨arrived, some occurrence⟩
      else if occurrence ∈ state.joinProgress.map (·.occurrence) then .consumes occurrence
      else .ends
  else do
    raiseIf (occurrence.targetSuperstep ≤ state.superstep + 1)
      ⟨.joinProgress, "partial Join occurrence cannot reach its target coordinate"⟩
    return .remains ⟨occurrence, arrived⟩

def JoinOutcome.candidate : JoinOutcome → Option (GraphNodeId × RoutedActivationCause)
  | .activates target cause => some (target, cause)
  | _ => none

def JoinOutcome.progress : JoinOutcome → Option GraphJoinProgress
  | .remains progress => some progress
  | _ => none

def JoinOutcome.consumed : JoinOutcome → Option GraphJoinOccurrenceIdentity
  | .consumes occurrence => some occurrence
  | _ => none

/-- The sole activation of one target. -/
def uniqueActivation (item : GraphNodeId × List RoutedActivationCause) :
    Except ExecutionError GraphFrontierActivation :=
  match item.2 with
  | [cause] => return ⟨item.1, .routed cause⟩
  | causes => throw ⟨.invalidRoutingCommand, "target " ++ reprIdentity item.1 ++ " has " ++
      toString causes.length ++ " activation causes in one frontier"⟩

/-- The causes gathered for the next frontier, by target. -/
def nextCandidates (gathered : ControlContributions) (outcomes : List JoinOutcome) :
    Dict GraphNodeId (List RoutedActivationCause) :=
  (Dict.empty.pushAll gathered.candidates).pushAll (outcomes.filterMap JoinOutcome.candidate)

/-- `_resolve_control`. -/
def resolveControl (graph : CompiledGraph τ) (state : GraphRunState)
    (evaluation : RoutingFacts) : Except ExecutionError RoutingFacts :=
  match evaluation.pendingError with
  | some error => throw error
  | none => do
      let gathered ← (routingContributions state.frontier).foldlM (contribute graph state)
        ⟨[], evaluation.pendingJoinArrivals⟩
      let outcomes ← (sorted gathered.arrivals.keys).mapM
        (resolveOccurrence state gathered.arrivals)
      let activations ← (nextCandidates gathered outcomes).items.mapM uniqueActivation
      return { evaluation with
        remainingJoinProgress := outcomes.filterMap JoinOutcome.progress
        activations := activations.insertionSort (fun a b => a.nodeId ≤ b.nodeId)
        consumedJoinProgress := sorted (outcomes.filterMap JoinOutcome.consumed) }

/-- `_completion_route`. -/
def completionRoute (graph : CompiledGraph τ) (state : GraphRunState) :
    Except ExecutionError (Option GraphRouteId) := do
  checkAll (fun settled => validateRoutingContribution graph settled.1 settled.2)
    (routingContributions state.frontier)
  match (routingContributions state.frontier).map (fun settled => settled.2.route) with
  | [] => throw ⟨.routingDeadlock, "a terminal frontier has no settled routing contribution"⟩
  | route :: routes => do
      raiseIf (∃ other ∈ routes, other ≠ route)
        ⟨.routingDeadlock, "terminal frontier exposes conflicting completion routes"⟩
      return route

/-! ## Availability -/

/-- `_source_label`. -/
def sourceLabel : ResolvedValueSource → String
  | .graphInput port => "graph-input:" ++ port.name
  | .nodeOutput port => port.nodeId ++ "." ++ port.outputName

/-- One binding of `unavailable_graph_outputs`. -/
def unavailableGraphOutput (graph : CompiledGraph τ) (scopeRun : ScopeRunCoordinate)
    (completionSuperstep : Nat) (frames : ScopedFrameAvailability)
    (binding : GraphOutputBinding τ) : Except ExecutionError (Option String) := do
  let coordinate ← sourceAvailabilityCoordinate graph scopeRun binding.source binding.publication
    completionSuperstep
    ⟨.invalidRoutingCommand, "compiled value binding lacks its activation selection"⟩
  return if frameCoordinateAvailable frames coordinate then none
    else some (binding.destination.boundaryName ++ "<-" ++ sourceLabel binding.source)

/-- `unavailable_graph_outputs`. -/
def unavailableGraphOutputs (graph : CompiledGraph τ) (scopeRun : ScopeRunCoordinate)
    (completionSuperstep : Nat) (frames : ScopedFrameAvailability) :
    Except ExecutionError (List String) := do
  let unavailable ← graph.transition.graphOutputs.mapM
    (unavailableGraphOutput graph scopeRun completionSuperstep frames)
  return unavailable.filterMap id

/-- One binding of `_required_target`. -/
def unavailableInput (graph : CompiledGraph τ) (activation : GraphFrontierActivation)
    (state : GraphRunState) (scopeRun : ScopeRunCoordinate) (activationSuperstep : Nat)
    (frames : ScopedFrameAvailability) (binding : ResolvedInputBinding τ) :
    Except ExecutionError (Option String) := do
  let resolved ← bindingSourceCoordinate graph (some state) scopeRun activationSuperstep binding
    (some activation.cause)
  return if frameCoordinateAvailable frames resolved.2 then none
    else some (binding.destination.localName ++ "<-" ++ sourceLabel resolved.1)

/-- `_required_target`, called for the target the activation names. -/
def requiredTarget (graph : CompiledGraph τ) (activation : GraphFrontierActivation)
    (state : GraphRunState) (scopeRun : ScopeRunCoordinate) (activationSuperstep : Nat)
    (frames : ScopedFrameAvailability) : Except ExecutionError RequiredTarget := do
  let unavailable ← (graph.bindings activation.nodeId).mapM
    (unavailableInput graph activation state scopeRun activationSuperstep frames)
  return ⟨activation.nodeId, unavailable.filterMap id⟩

/-! ## Resolution -/

/-- `ResolutionCommand`. -/
inductive ResolutionCommand where
  | advance (command : AdvanceGraphFrontier)
  | complete (command : CompleteGraphFrontier)
  | abort (command : AbortGraphRun)
  deriving DecidableEq, Repr

def ResolutionCommand.toCommand : ResolutionCommand → GraphRunCommand
  | .advance command => .advance command
  | .complete command => .complete command
  | .abort command => .abort command

/-- The completion route of `resolve_routing_facts`: none while control goes on. -/
def resolvedCompletionRoute (graph : CompiledGraph τ) (state : GraphRunState)
    (control : RoutingFacts) : Except ExecutionError (Option GraphRouteId) :=
  if control.activations ≠ [] ∨ control.remainingJoinProgress ≠ [] then return none
  else completionRoute graph state

/-- `resolve_routing_facts`. A frontier without a derived status raises as well. -/
def resolveRoutingFacts (graph : CompiledGraph τ) (state : GraphRunState)
    (scopeRun : ScopeRunCoordinate) (frames : ScopedFrameAvailability) :
    Except ExecutionError RoutingFacts := do
  raiseIf (frontierStatus state.frontier ≠ some .settled)
    ⟨.invalidRoutingCommand, "routing requires a settled frontier without failures or interrupts"⟩
  let evaluation ← routingEvaluation graph state
  raiseIf (evaluation.admissionError ≠ none)
    ⟨.invalidRoutingCommand, evaluation.admissionError.getD ""⟩
  let control ← resolveControl graph state evaluation
  let required ← control.activations.mapM (fun activation =>
    requiredTarget graph activation state scopeRun (state.superstep + 1) frames)
  let unavailable ← unavailableGraphOutputs graph scopeRun state.superstep frames
  let route ← resolvedCompletionRoute graph state control
  return { control with
    requiredTargets := required
    unavailableGraphOutputs := unavailable
    completionRoute := route }

/-- `project_routing_facts`. -/
def projectRoutingFacts (state : GraphRunState) (facts : RoutingFacts) :
    Except ExecutionError ResolutionCommand :=
  let unavailableControl :=
    (facts.requiredTargets.filter (fun target => target.unavailableInputs ≠ [])).map (·.nodeId)
  if unavailableControl ≠ [] then
    return .abort ⟨state.revision, "required values unavailable for controlled nodes " ++
      reprTuple unavailableControl⟩
  else if facts.requiredTargets ≠ [] then
    return .advance ⟨state.revision, facts.activations, facts.remainingJoinProgress,
      facts.consumedJoinProgress⟩
  else do
    raiseIf (facts.remainingJoinProgress ≠ [])
      ⟨.routingDeadlock, "partial join progress has no next task able to complete it"⟩
    return if facts.unavailableGraphOutputs ≠ [] then
        .abort ⟨state.revision, "required graph output values are unavailable at completion"⟩
      else .complete ⟨state.revision, facts.consumedJoinProgress, facts.completionRoute⟩

/-- `resolve_routing`. -/
def resolveRouting (graph : CompiledGraph τ) (state : GraphRunState)
    (scopeRun : ScopeRunCoordinate) (frames : ScopedFrameAvailability) :
    Except ExecutionError ResolutionCommand := do
  let facts ← resolveRoutingFacts graph state scopeRun frames
  projectRoutingFacts state facts

/-- The completion checks of `transition_admission_error`. -/
def completionAdmissionError (graph : CompiledGraph τ) (previous : GraphRunState)
    (command : CompleteGraphFrontier) (control : RoutingFacts) :
    Except ExecutionError (Option String) :=
  if control.activations ≠ [] ∨ control.remainingJoinProgress ≠ [] then
    return some "graph completion discarded a compiled successor or partial Join occurrence"
  else if control.consumedJoinProgress ≠ command.consumedJoinProgress then
    return some "graph completion consumed the wrong Join occurrences"
  else
    match completionRoute graph previous with
    | .error error =>
        if error.kind = .invalidRoutingCommand ∨ error.kind = .routingDeadlock then
          return some error.message
        else throw error
    | .ok expected => pure (
        if command.completionRoute ≠ expected then
          some "graph completion route does not match the terminal frontier"
        else none)

/-- `transition_admission_error`. -/
def transitionAdmissionError (graph : CompiledGraph τ) (previous : Option GraphRunState)
    (command : GraphRunCommand) (candidate : GraphRunState) :
    Except ExecutionError (Option String) := do
  let evaluation ← routingEvaluation graph candidate
  if evaluation.admissionError ≠ none ∨ candidate.status ≠ .completed then
    return evaluation.admissionError
  match previous, command with
  | some previous, .complete command => do
      let prior ← routingEvaluation graph previous
      if prior.admissionError ≠ none then return prior.admissionError
      match resolveControl graph previous prior with
      | .error error =>
          if error.kind = .invalidRoutingCommand ∨ error.kind = .joinProgress ∨
              error.kind = .snapshotMismatch then return some error.message
          else throw error
      | .ok control => completionAdmissionError graph previous command control
  | _, _ => return some "completed graph state lacks its admitted completion transition"

end MoteKernel
