import MoteKernel.Lib.Loop
import MoteKernel.Execution.Topology

/-!
# Control analyses of the compiler

The static analyses of `execution/graph/compiler.py`: reachability, cycles,
guaranteed predecessors, activation levels, route requirements, and the
occurrence plans of the Joins.

A set is the sorted list of its elements, and a table with an entry for every
node is a function of the node. A stack is kept with its top first. Every loop
has a bound on its turns.
-/

namespace MoteKernel
open Checked Canonical

/-! ## Tables -/

/-- What the compiler can end with instead of a graph: an error it raises, the `IndexError` of an
empty list, or a loop that has not returned within its bound. -/
inductive CompileError where
  | raised (error : ExecutionError)
  | indexError
  | unfinished
  deriving DecidableEq

/-- `raise GraphValidationError(message)`. -/
def invalidGraph (message : String) : CompileError := .raised ⟨.graphValidation, message⟩

/-- `JoinEdge`. -/
structure JoinEdge where
  sources : List GraphNodeId
  target : GraphNodeId
  deriving DecidableEq, Repr

/-- `_RawActivationGate`: sources and the route each must select, if any. -/
abbrev RawActivationGate := List (GraphNodeId × Option GraphRouteId)

/-- `RouteRequirements`: the routes left open at each source, in the order of the sources. -/
abbrev RouteRequirements := List (GraphNodeId × List GraphRouteId)

/-- The successors of every node. -/
abbrev Successors := GraphNodeId → List GraphNodeId

/-- The activation gates of every node, in the order of the declared edges. -/
abbrev ActivationGates := GraphNodeId → List RawActivationGate

/-- The conditional targets of every node. -/
abbrev ConditionalTargets := GraphNodeId → Dict GraphRouteId GraphNodeId

/-- The values of every node that a node consumes. -/
abbrev DataDependencies := GraphNodeId → List GraphNodeId

/-- The result of a loop, or the report that it is still going. -/
def finished {α : Type} (result : Option α) : Except CompileError α :=
  orRaise .unfinished result

/-- `dict(pairs)`. -/
def dictOf {κ ν : Type} [DecidableEq κ] (pairs : List (κ × ν)) : Dict κ ν :=
  pairs.foldl (fun d pair => d.set pair.1 pair.2) Dict.empty

/-! ## Gates -/

/-- The order of `_activation_gate_sort_key`. -/
def routeSortKey (route : Option GraphRouteId) : Bool ×ₗ String :=
  toLex (route.isSome, route.getD "")

/-- `_activation_gate_sort_key`. -/
def activationGateSortKey (gate : ActivationGate) : List (String ×ₗ List (Bool ×ₗ String)) :=
  gate.map (fun pair => toLex (pair.1, sorted (pair.2.map routeSortKey)))

/-- The key of one source of a raw gate. -/
def gateSourceKey (pair : GraphNodeId × Option GraphRouteId) : String ×ₗ Bool ×ₗ String :=
  toLex (pair.1, routeSortKey pair.2)

/-- `_compiled_activation_gate`. -/
def compiledActivationGate (gate : RawActivationGate) (conditionalTargets : ConditionalTargets) :
    ActivationGate :=
  (gate.insertionSort (fun a b => gateSourceKey a ≤ gateSourceKey b)).map (fun pair =>
    (pair.1, if pair.2 = none ∧ (conditionalTargets pair.1).items ≠ [] then
        (sorted (conditionalTargets pair.1).keys).map some
      else [pair.2]))

/-- `_all_single_source_gates`. -/
def allSingleSourceGates (source : GraphNodeId) (gates : List RawActivationGate) : Bool :=
  gates ≠ [] && gates.all (fun gate => gate.length = 1 && gate.head?.map Prod.fst = some source)

/-- `_all_activation_gates_include`. -/
def allActivationGatesInclude (source : GraphNodeId) (gates : List RawActivationGate) : Bool :=
  gates ≠ [] && gates.all (fun gate => gate.any (fun pair => pair.1 = source))

/-! ## Reachability and cycles -/

/-- One Join of a pass of `_reachable`. -/
def reachJoin (reached : List GraphNodeId) (join : JoinEdge) : List GraphNodeId :=
  if join.target ≠ END ∧ (∀ source ∈ join.sources, source ∈ reached) ∧ join.target ∉ reached then
    sortedSet (join.target :: reached)
  else reached

/-- One pass of `_reachable`. -/
def reachablePass (successors : Successors) (joins : List JoinEdge) (reached : List GraphNodeId) :
    List GraphNodeId :=
  joins.foldl reachJoin (sortedSet (reached ++ reached.flatMap successors))

/-- `_reachable`. -/
def reachable (nodeIds entries : List GraphNodeId) (successors : Successors)
    (joins : List JoinEdge) : Except CompileError (List GraphNodeId) :=
  finished (Loop.run (Loop.untilStable (reachablePass successors joins)) (nodeIds.length + 1)
    (sortedSet entries))

/-- One turn of `_can_reach`, on the stack and the visited nodes. -/
def canReachTurn (successors : Successors) (target : GraphNodeId) :
    List GraphNodeId × List GraphNodeId → (List GraphNodeId × List GraphNodeId) ⊕ Bool
  | ([], _) => .inr false
  | (current :: pending, visited) =>
      if current = target then .inr true
      else if current ∈ visited then .inl (pending, visited)
      else .inl (successors current ++ pending, current :: visited)

/-- `_can_reach`. -/
def canReach (nodeIds : List GraphNodeId) (successors : Successors) (source target : GraphNodeId) :
    Bool :=
  if source ∈ nodeIds ∧ target ∈ nodeIds then
    (Loop.run (canReachTurn successors target) ((nodeIds.flatMap successors).length + 2)
      ([source], [])).getD false
  else false

/-- `_cycle_nodes`. -/
def cycleNodes (nodeIds : List GraphNodeId) (successors : Successors) : List GraphNodeId :=
  nodeIds.filter (fun node =>
    (successors node).any (fun successor => canReach nodeIds successors successor node))

/-- One turn of `_cycle_reachable_nodes`, on the reached nodes and the stack. -/
def cycleReachTurn (successors : Successors) :
    List GraphNodeId × List GraphNodeId → (List GraphNodeId × List GraphNodeId) ⊕ List GraphNodeId
  | (reached, []) => .inr reached
  | (reached, source :: pending) =>
      .inl ((successors source).foldl (fun state target =>
        if target ∈ state.1 then state else (sortedSet (target :: state.1), target :: state.2))
        (reached, pending))

/-- `_cycle_reachable_nodes`. -/
def cycleReachableNodes (nodeIds : List GraphNodeId) (successors : Successors) :
    List GraphNodeId :=
  let cyclic := sorted (cycleNodes nodeIds successors)
  (Loop.run (cycleReachTurn successors) (nodeIds.length + 1) (cyclic, cyclic.reverse)).getD []

/-- `_static_successors`. -/
def staticSuccessors (directTargets : GraphNodeId → List GraphNodeId)
    (conditionalTargets : ConditionalTargets) : Successors :=
  fun node => sortedSet (directTargets node ++
    (conditionalTargets node).values.filter (fun target => target ≠ END))

/-- The successors with the targets of the Joins added. -/
def joinedSuccessors (successors : Successors) (joins : List JoinEdge) : Successors :=
  fun node => sortedSet (successors node ++ (joins.filter (fun join =>
    join.target ≠ END ∧ node ∈ join.sources)).map JoinEdge.target)

/-- One call of the recursive `visit` of `_data_cycle`: whether a cycle is found, and the visiting
and visited nodes. The path of visiting nodes has no repetitions, so `fuel` bounds the recursion
when it exceeds the number of nodes. -/
def visitData (dependencies : DataDependencies) :
    Nat → List GraphNodeId → List GraphNodeId → GraphNodeId → Bool × List GraphNodeId
  | 0, _, visited, _ => (false, visited)
  | fuel + 1, visiting, visited, node =>
      if node ∈ visiting then (true, visited)
      else if node ∈ visited then (false, visited)
      else
        let below := (dependencies node).foldl (fun state source =>
          if state.1 then state else visitData dependencies fuel (node :: visiting) state.2 source)
          (false, visited)
        if below.1 then below else (false, node :: below.2)

/-- `_data_cycle`. -/
def dataCycle (nodeIds : List GraphNodeId) (dependencies : DataDependencies) : Bool :=
  (nodeIds.foldl (fun state node =>
    if state.1 then state else visitData dependencies (nodeIds.length + 1) [] state.2 node)
    (false, [])).1

/-! ## Guaranteed predecessors -/

/-- The sets one node may be activated after, in the order in which a pass lists them. -/
def guaranteeAlternatives (entries : List GraphNodeId) (gates : ActivationGates)
    (guarantees : Dict GraphNodeId (List GraphNodeId)) (node : GraphNodeId) :
    List (List GraphNodeId) :=
  (if node ∈ entries then [[]] else []) ++
    (gates node).map (fun gate => sortedSet (gate.flatMap (fun pair => guarantees.getItem pair.1)))

/-- The nodes in all of some sets. -/
def common : List (List GraphNodeId) → List GraphNodeId
  | [] => []
  | first :: rest => rest.foldl (fun kept alternative => kept.filter (· ∈ alternative)) first

/-- One pass of `_guaranteed_sets`. -/
def guaranteedPass (nodeIds entries : List GraphNodeId) (gates : ActivationGates)
    (guarantees : Dict GraphNodeId (List GraphNodeId)) : Dict GraphNodeId (List GraphNodeId) :=
  Dict.build nodeIds (fun node =>
    sortedSet (node :: common (guaranteeAlternatives entries gates guarantees node)))

/-- `_guaranteed_sets`. -/
def guaranteedSets (nodeIds entries : List GraphNodeId) (gates : ActivationGates) :
    Except CompileError (Dict GraphNodeId (List GraphNodeId)) :=
  finished (Loop.run (Loop.untilStable (guaranteedPass nodeIds entries gates))
    (nodeIds.length * nodeIds.length + 1) (Dict.build nodeIds (fun node => [node])))

/-- `_terminal_gates`. -/
def terminalGates (nodeIds : List GraphNodeId) (controlGatesToEnd : List (List GraphNodeId))
    (successors : Successors) : List (List GraphNodeId) :=
  let explicit := sortedSet controlGatesToEnd
  let natural := (nodeIds.filter (fun node => successors node = [] ∧ node ∉ explicit.flatten)).map
    (fun node => [node])
  sorted (explicit ++ natural)

/-- `_terminal_guarantees`. -/
def terminalGuarantees (guarantees : Dict GraphNodeId (List GraphNodeId))
    (gates : List (List GraphNodeId)) : Except CompileError (List GraphNodeId) := do
  raiseIf (gates = []) .indexError
  return common (gates.map (fun gate => sortedSet (gate.flatMap guarantees.getItem)))

/-- `_validate_cycle_exits`. -/
def validateCycleExits (nodeIds : List GraphNodeId) (successors : Successors)
    (gates : List (List GraphNodeId)) : Except CompileError Unit :=
  let cyclic := cycleNodes nodeIds successors
  raiseIf (cyclic ≠ [] ∧ (gates.flatten = [] ∨ ∃ node ∈ cyclic,
      ¬ ∃ terminal ∈ gates.flatten, canReach nodeIds successors node terminal = true))
    (invalidGraph ("control cycle " ++ reprTuple (sorted cyclic) ++
      " has no statically reachable successful exit"))

/-! ## Repeatable nodes and activation levels -/

/-- One node of a pass of `_repeatable_nodes`. -/
def repeatNode (gates : ActivationGates) (repeatable : List GraphNodeId) (node : GraphNodeId) :
    List GraphNodeId :=
  if node ∉ repeatable ∧ ∃ gate ∈ gates node, ∃ pair ∈ gate, pair.1 ∈ repeatable then
    sortedSet (node :: repeatable)
  else repeatable

/-- `_repeatable_nodes`. -/
def repeatableNodes (nodeIds entries : List GraphNodeId) (gates : ActivationGates)
    (successors : Successors) : Except CompileError (List GraphNodeId) :=
  finished (Loop.run (Loop.untilStable (fun repeatable => nodeIds.foldl (repeatNode gates) repeatable))
    (nodeIds.length + 1)
    (sortedSet (cycleReachableNodes nodeIds successors ++
      entries.filter (fun node => gates node ≠ []))))

/-- One edge of a pass of `_absolute_activation_levels`. -/
def levelEdge (variableNodes : List GraphNodeId) (levels : Dict GraphNodeId (List Nat))
    (edge : GraphNodeId × GraphNodeId) : Dict GraphNodeId (List Nat) :=
  if edge.2 ∈ variableNodes then levels
  else levels.set edge.2
    (sortedSet (levels.getItem edge.2 ++ (levels.getItem edge.1).map (· + 1)))

/-- The level sets of `_absolute_activation_levels`. -/
def activationLevels (nodeIds entries : List GraphNodeId) (successors : Successors) :
    Except CompileError (Dict GraphNodeId (List Nat)) :=
  let variableNodes := cycleReachableNodes nodeIds successors
  let edges := nodeIds.flatMap (fun source =>
    (successors source).map (fun target => (source, target)))
  finished (Loop.run (Loop.untilStable (fun levels => edges.foldl (levelEdge variableNodes) levels))
    (nodeIds.length * nodeIds.length + 1)
    (Dict.build nodeIds (fun node => if node ∈ entries ∧ node ∉ variableNodes then [0] else [])))

/-- The one level of a node that has a single one. -/
def uniqueLevel (levels : Dict GraphNodeId (List Nat)) (node : GraphNodeId) : Option Nat :=
  match levels.getItem node with
  | [level] => some level
  | _ => none

/-- `_absolute_activation_levels`. -/
def absoluteActivationLevels (nodeIds entries : List GraphNodeId) (successors : Successors) :
    Except CompileError (GraphNodeId → Option Nat) := do
  let levels ← activationLevels nodeIds entries successors
  return uniqueLevel levels

/-! ## Route requirements -/

/-- `_RouteRequirementProof`. -/
structure RouteRequirementProof where
  requirements : RouteRequirements
  exact : Bool
  deriving DecidableEq, Repr

/-- One entry of `_merge_route_requirements`. -/
def mergeRoutes (merged : Dict GraphNodeId (List GraphRouteId))
    (entry : GraphNodeId × List GraphRouteId) : Option (Dict GraphNodeId (List GraphRouteId)) :=
  let compatible := match merged.get? entry.1 with
    | none => entry.2
    | some existing => existing.filter (· ∈ entry.2)
  if compatible = [] then none else some (merged.set entry.1 compatible)

/-- `_merge_route_requirements`. -/
def mergeRouteRequirements (requirements : List RouteRequirements) : Option RouteRequirements :=
  (requirements.flatten.foldlM mergeRoutes Dict.empty).map (fun merged => merged.frozen.items)

/-- `_merge_route_requirement_proofs`. -/
def mergeRouteRequirementProofs (proofs : List RouteRequirementProof) :
    Option RouteRequirementProof :=
  (mergeRouteRequirements (proofs.map RouteRequirementProof.requirements)).map (fun merged =>
    ⟨merged, proofs.all RouteRequirementProof.exact⟩)

/-- `_source_route_requirements`. -/
def sourceRouteRequirements (requirements : Dict GraphNodeId RouteRequirementProof)
    (conditionalTargets : ConditionalTargets) (source : GraphNodeId)
    (selectedRoute : Option GraphRouteId) : RouteRequirementProof :=
  let proof := (requirements.get? source).getD ⟨[], false⟩
  let declaredRoutes := sorted (conditionalTargets source).keys
  if selectedRoute = none ∧ declaredRoutes = [] then proof
  else
    let selected := match selectedRoute with
      | some route => [route]
      | none => declaredRoutes
    let sourceRequirements := dictOf proof.requirements
    let updated := sourceRequirements.set source (match sourceRequirements.get? source with
      | none => selected
      | some existing => existing.filter (· ∈ selected))
    ⟨updated.frozen.items, proof.exact⟩

/-- `_gate_route_requirements`. -/
def gateRouteRequirements (requirements : Dict GraphNodeId RouteRequirementProof)
    (conditionalTargets : ConditionalTargets) (gate : RawActivationGate) :
    Option RouteRequirementProof :=
  mergeRouteRequirementProofs (gate.map (fun pair =>
    sourceRouteRequirements requirements conditionalTargets pair.1 pair.2))

/-- The sources that every alternative mentions. -/
def commonSources : List (Dict GraphNodeId (List GraphRouteId)) → List GraphNodeId
  | [] => []
  | first :: rest => sorted (first.keys.filter (fun source =>
      rest.all (fun alternative => source ∈ alternative.keys)))

/-- `_alternative_route_requirements`. -/
def alternativeRouteRequirements (conditionalTargets : ConditionalTargets)
    (alternatives : List (Option RouteRequirementProof)) : Option RouteRequirementProof :=
  let satisfiable := alternatives.filterMap id
  let byAlternative := satisfiable.map (fun alternative => dictOf alternative.requirements)
  match byAlternative with
  | [] => none
  | first :: rest =>
      let shared := commonSources byAlternative
      let combined := shared.map (fun source =>
        (source, sortedSet (byAlternative.flatMap (fun alternative => alternative.getItem source))))
      let droppedRequirementsAreExhaustive := byAlternative.all (fun alternative =>
        alternative.items.all (fun entry =>
          entry.1 ∈ shared || entry.2 = sorted (conditionalTargets entry.1).keys))
      let varyingSources := shared.countP (fun source =>
        rest.any (fun alternative => alternative.getItem source ≠ first.getItem source))
      some ⟨combined, satisfiable.all RouteRequirementProof.exact &&
        droppedRequirementsAreExhaustive && decide (varyingSources ≤ 1)⟩

/-- The control and value predecessors of a node among the fixed nodes. -/
def fixedDependencies (fixed : List GraphNodeId) (gates : ActivationGates)
    (dataDependencies : DataDependencies) (node : GraphNodeId) : List GraphNodeId :=
  ((gates node).flatten.map Prod.fst).filter (· ∈ fixed) ++
    (dataDependencies node).filter (· ∈ fixed)

/-- One turn of the `while pending` loop of `_validate_joint_activation_paths`, on the pending and
the ordered nodes. -/
def orderTurn (dependencies : GraphNodeId → List GraphNodeId) :
    List GraphNodeId × List GraphNodeId → (List GraphNodeId × List GraphNodeId) ⊕ List GraphNodeId
  | ([], ordered) => .inr ordered
  | (pending, ordered) =>
      let ready := sorted (pending.filter (fun node =>
        (dependencies node).all (fun source => source ∈ ordered)))
      .inl (pending.filter (· ∉ ready), ordered ++ ready)

/-- The nodes that no cycle of control and value dependencies reaches, in dependency order. -/
def activationOrder (nodeIds : List GraphNodeId) (gates : ActivationGates)
    (dataDependencies : DataDependencies) (successors : Successors) :
    Except CompileError (List GraphNodeId) :=
  let dependencySuccessors : Successors := fun node => sortedSet (successors node ++
    nodeIds.filter (fun target => node ∈ dataDependencies target))
  let variableNodes := cycleReachableNodes nodeIds dependencySuccessors
  let fixed := nodeIds.filter (· ∉ variableNodes)
  finished (Loop.run (orderTurn (fixedDependencies fixed gates dataDependencies))
    (fixed.length + 1) (fixed, []))

/-- The requirement of the entries: every declared route of each of them. -/
def entryRequirements (entries : List GraphNodeId) (conditionalTargets : ConditionalTargets) :
    RouteRequirementProof :=
  ⟨(entries.filter (fun entry => (conditionalTargets entry).items ≠ [])).map (fun entry =>
    (entry, sorted (conditionalTargets entry).keys)), true⟩

/-- The alternatives of one node: as an entry, and through each of its gates. -/
def activationAlternatives (entries : List GraphNodeId) (gates : ActivationGates)
    (dataDependencies : DataDependencies) (conditionalTargets : ConditionalTargets)
    (requirements : Dict GraphNodeId RouteRequirementProof) (node : GraphNodeId) :
    List (Option RouteRequirementProof) :=
  let alternatives :=
    (if node ∈ entries then [some (entryRequirements entries conditionalTargets)] else []) ++
    (gates node).map (gateRouteRequirements requirements conditionalTargets)
  let dataRequirement := gateRouteRequirements requirements conditionalTargets
    ((dataDependencies node).map (fun source => (source, none)))
  if dataDependencies node ≠ [] ∧ alternatives ≠ [] then
    alternatives.map (fun alternative => alternative.bind (fun proof =>
      dataRequirement.bind (fun data => mergeRouteRequirementProofs [proof, data])))
  else alternatives

/-- One node of `_validate_joint_activation_paths`. -/
def requireActivationPath (entries : List GraphNodeId) (gates : ActivationGates)
    (dataDependencies : DataDependencies) (conditionalTargets : ConditionalTargets)
    (requirements : Dict GraphNodeId RouteRequirementProof) (node : GraphNodeId) :
    Except CompileError (Dict GraphNodeId RouteRequirementProof) := do
  let requirement ← orRaise
    (invalidGraph ("node " ++ reprIdentity node ++ " has no jointly satisfiable activation path"))
    (alternativeRouteRequirements conditionalTargets
      (activationAlternatives entries gates dataDependencies conditionalTargets requirements node))
  return requirements.set node requirement

/-- `_validate_joint_activation_paths`. -/
def validateJointActivationPaths (nodeIds entries : List GraphNodeId) (gates : ActivationGates)
    (dataDependencies : DataDependencies) (conditionalTargets : ConditionalTargets)
    (successors : Successors) : Except CompileError (Dict GraphNodeId RouteRequirementProof) := do
  let ordered ← activationOrder nodeIds gates dataDependencies successors
  ordered.foldlM (requireActivationPath entries gates dataDependencies conditionalTargets)
    Dict.empty

/-! ## Join occurrence plans -/

/-- `_activation_cohort_signature`. -/
def activationCohortSignature (entries : List GraphNodeId) (gates : ActivationGates)
    (node : GraphNodeId) : Bool × List RawActivationGate :=
  (decide (node ∈ entries), (gates node).insertionSort (fun a b =>
    a.map gateSourceKey ≤ b.map gateSourceKey))

/-- `CompiledJoin(identity, offsets)`, with the checks of its `__post_init__`. -/
def makeCompiledJoin (identity : GraphJoinIdentity) (offsets : List (GraphNodeId × Nat)) :
    Except CompileError CompiledJoin :=
  if covers : offsets.map Prod.fst = identity.sources then
    if positive : ∀ pair ∈ offsets, 1 ≤ pair.2 then return ⟨identity, offsets, covers, positive⟩
    else throw (.raised ⟨.value, "compiled Join source offsets must be positive integers"⟩)
  else throw (.raised ⟨.value, "compiled Join offsets must exactly cover its canonical sources"⟩)

/-- `join {sources!r} -> {target!r}`. -/
def JoinEdge.text (edge : JoinEdge) : String :=
  "join " ++ reprTuple edge.sources ++ " -> " ++ reprIdentity edge.target

/-- The offsets of a Join whose sources repeat. -/
def repeatedOffsets (entries : List GraphNodeId) (gates : ActivationGates)
    (repeatable : List GraphNodeId) (edge : JoinEdge) :
    Except CompileError (List (GraphNodeId × Nat)) := do
  let repeatedSources := edge.sources.filter (· ∈ repeatable)
  let cohortSignatures := (edge.sources.map (activationCohortSignature entries gates)).dedup
  raiseIf (repeatedSources.length ≠ edge.sources.length ∨ cohortSignatures.length ≠ 1)
    (invalidGraph (edge.text ++ " has no provable occurrence identity; " ++
      "multiple activation gates cannot supply its sources"))
  return edge.sources.map (fun source => (source, 1))

/-- The offsets of a Join whose sources are activated once. -/
def singleOffsets (requirements : Dict GraphNodeId RouteRequirementProof)
    (conditionalTargets : ConditionalTargets) (absoluteLevels : GraphNodeId → Option Nat)
    (edge : JoinEdge) : Except CompileError (List (GraphNodeId × Nat)) := do
  let sourceRequirements := edge.sources.map (fun source =>
    sourceRouteRequirements requirements conditionalTargets source none)
  raiseIf (sourceRequirements.all RouteRequirementProof.exact = false ∨
      sourceRequirements.dedup.length ≠ 1)
    (invalidGraph (edge.text ++ " can receive only a partial source set on a route"))
  let levels ← edge.sources.mapM (fun source => orRaise
    (invalidGraph (edge.text ++ " has no unique occurrence coordinate; " ++
      "multiple activation gates create repeatable source paths")) (absoluteLevels source))
  let targetLevel := levels.foldr max 0 + 1
  return (edge.sources.zip levels).map (fun pair => (pair.1, targetLevel - pair.2))

/-- The offsets of a Join. -/
def joinOffsets (entries : List GraphNodeId) (gates : ActivationGates)
    (requirements : Dict GraphNodeId RouteRequirementProof)
    (conditionalTargets : ConditionalTargets) (absoluteLevels : GraphNodeId → Option Nat)
    (repeatable : List GraphNodeId) (edge : JoinEdge) :
    Except CompileError (List (GraphNodeId × Nat)) :=
  if ∃ source ∈ edge.sources, source ∈ repeatable then
    repeatedOffsets entries gates repeatable edge
  else singleOffsets requirements conditionalTargets absoluteLevels edge

/-- The occurrence plan of one Join. -/
def compileJoin (entries : List GraphNodeId) (gates : ActivationGates)
    (requirements : Dict GraphNodeId RouteRequirementProof)
    (conditionalTargets : ConditionalTargets) (absoluteLevels : GraphNodeId → Option Nat)
    (repeatable : List GraphNodeId) (edge : JoinEdge) : Except CompileError CompiledJoin := do
  raiseIf (gateRouteRequirements requirements conditionalTargets
      (edge.sources.map (fun source => (source, none))) = none)
    (invalidGraph (edge.text ++ " has mutually exclusive activation sources"))
  let offsets ← joinOffsets entries gates requirements conditionalTargets absoluteLevels repeatable
    edge
  makeCompiledJoin ⟨edge.sources, edge.target⟩ offsets

/-- `_compile_join_occurrence_plans`. -/
def compileJoinOccurrencePlans (nodeIds entries : List GraphNodeId) (joins : List JoinEdge)
    (gates : ActivationGates) (successors : Successors)
    (requirements : Dict GraphNodeId RouteRequirementProof)
    (conditionalTargets : ConditionalTargets) (absoluteLevels : GraphNodeId → Option Nat) :
    Except CompileError (List CompiledJoin) := do
  let repeatable ← repeatableNodes nodeIds entries gates successors
  joins.mapM (compileJoin entries gates requirements conditionalTargets absoluteLevels repeatable)

/-! ## Publication selections -/

/-- `_input_publication_selection`. -/
def inputPublicationSelection (absoluteLevels : GraphNodeId → Option Nat) (gates : ActivationGates)
    (joinsByTarget : GraphNodeId → List CompiledJoin) (source : NodeOutputPort)
    (target : GraphNodeId) : Except CompileError PublicationSelection :=
  match absoluteLevels source.nodeId with
  | some level => return ⟨.absolute, level⟩
  | none =>
      if allSingleSourceGates source.nodeId (gates target) then return ⟨.relative, 1⟩
      else
        match joinsByTarget target with
        | [join] =>
            if (gates target).length = 1 ∧ source.nodeId ∈ join.identity.sources then do
              let offset ← rethrow .raised (join.targetOffset source.nodeId)
              return ⟨.relative, offset⟩
            else noCoordinate
        | _ => noCoordinate
where
  noCoordinate : Except CompileError PublicationSelection :=
    throw (invalidGraph ("node output " ++ reprIdentity source.nodeId ++
      " has no unique activation coordinate for consumer " ++ reprIdentity target))

/-- `_output_publication_selection`. -/
def outputPublicationSelection (absoluteLevels : GraphNodeId → Option Nat)
    (terminalGates : List (List GraphNodeId)) (source : NodeOutputPort) :
    Except CompileError PublicationSelection :=
  match absoluteLevels source.nodeId with
  | some level => return ⟨.absolute, level⟩
  | none =>
      if terminalGates ≠ [] ∧ ∀ gate ∈ terminalGates, gate = [source.nodeId] then
        return ⟨.relative, 0⟩
      else throw (invalidGraph ("graph output source " ++ reprIdentity source.nodeId ++
        " has no unique completion activation coordinate"))

end MoteKernel
