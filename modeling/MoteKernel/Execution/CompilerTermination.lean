import MoteKernel.Execution.CompiledControl

/-!
# The compiler returns

Every loop of the compiler is left on every valid definition, the list of
terminal gates is never indexed when it is empty, and no node is ordered before
its dependencies. The compiler ends with a graph or with an error it raises.
-/

namespace MoteKernel
open Checked Canonical Digraph

variable {τ : Type}

/-- The compiler raised the error itself. -/
def CompileError.Raised (error : CompileError) : Prop := ∃ execution, error = .raised execution

theorem raised_raised (error : ExecutionError) : (CompileError.raised error).Raised := ⟨error, rfl⟩

theorem raised_invalidGraph (message : String) : (invalidGraph message).Raised := ⟨_, rfl⟩

/-! ## The value bindings -/

section Values

theorem declarationOf_raises (declarations : List (OutputDeclaration τ)) (name owner : String) :
    RaisesOnly CompileError.Raised (declarationOf declarations name owner) :=
  .orRaise (raised_invalidGraph _)

theorem resolveSource_raises (graphInputs : List (OutputDeclaration τ)) (nodeOutputs : NodeOutputs τ)
    (consumer : Option GraphNodeId) (source : ValueSourceRef τ) :
    RaisesOnly CompileError.Raised (resolveSource graphInputs nodeOutputs consumer source) := by
  cases source with
  | graphInput name descriptor =>
      exact (declarationOf_raises _ _ _).bind (fun _ _ => .ok _)
  | nodeOutput nodeId outputName descriptor =>
      refine .bind (.raiseIf (raised_invalidGraph _)) (fun _ _ => ?_)
      refine .bind (.orRaise (raised_raised _)) (fun _ _ => ?_)
      refine .bind (declarationOf_raises _ _ _) (fun _ _ => ?_)
      exact .bind (.raiseIf (raised_invalidGraph _)) (fun _ _ => .ok _)

theorem tableM_raises {κ ν : Type} [DecidableEq κ] {keys : List κ}
    {value : κ → Except CompileError ν}
    (each : ∀ key ∈ keys, RaisesOnly CompileError.Raised (value key)) :
    RaisesOnly CompileError.Raised (tableM keys value) :=
  .bind (.mapM (fun key member => (each key member).map _)) (fun _ _ => .ok _)

theorem resolveInputBinding_raises (graphInputs : List (OutputDeclaration τ))
    (nodeOutputs : NodeOutputs τ) (node : GraphNodeId) (bindings : NodeBindings τ)
    (binding : InputBinding τ) :
    RaisesOnly CompileError.Raised
      (resolveInputBinding graphInputs nodeOutputs node bindings binding) := by
  have resolves : ∀ source, RaisesOnly CompileError.Raised
      (resolveInputBinding.resolve graphInputs nodeOutputs node bindings binding source) :=
    fun source => (resolveSource_raises _ _ _ source).bind (fun _ _ => .ok _)
  unfold resolveInputBinding
  split
  · exact .ok _
  · exact resolves _
  · exact resolves _

theorem resolveInputBindings_raises (nodes : Dict GraphNodeId (GraphNode τ (GraphDefinition τ)))
    (nodeIds : List GraphNodeId) (graphInputs : List (OutputDeclaration τ))
    (nodeOutputs : NodeOutputs τ) :
    RaisesOnly CompileError.Raised (resolveInputBindings nodes nodeIds graphInputs nodeOutputs) := by
  refine .bind (tableM_raises (fun node _ => ?_)) (fun _ _ => ?_)
  · exact .foldlM (fun bindings binding => resolveInputBinding_raises _ _ _ bindings binding) _ _
  · exact .bind (.raiseIf (raised_invalidGraph _)) (fun _ _ => .ok _)

theorem checkRouteOptions_raises (node : GraphNodeId)
    (definition : GraphNode τ (GraphDefinition τ)) (conditional : List GraphRouteId)
    (hasControlSuccessor : Bool) (terminal options : List Route) :
    RaisesOnly CompileError.Raised
      (checkRouteOptions node definition conditional hasControlSuccessor terminal options) := by
  cases definition with
  | callable callable => exact .raiseIf (raised_invalidGraph _)
  | nested nodeId graph inputs =>
      refine .bind (.raiseIf (raised_invalidGraph _)) (fun _ _ => ?_)
      refine .bind (.raiseIf (raised_invalidGraph _)) (fun _ _ => ?_)
      exact .raiseIf (raised_invalidGraph _)

theorem collectControlTopology_raises
    (nodes : Dict GraphNodeId (GraphNode τ (GraphDefinition τ)))
    (nestedGraphs : Dict GraphNodeId (CompiledGraph τ)) (edges : List Edge) :
    RaisesOnly CompileError.Raised (collectControlTopology nodes nestedGraphs edges) := by
  refine .bind (.mapM (fun item _ => ?_)) (fun _ _ => .ok _)
  exact (checkRouteOptions_raises _ _ _ _ _ _).bind (fun _ _ => .ok _)

theorem resolveEntries_raises (nodeIds declaredEntries : List GraphNodeId)
    (dataDependencies : DataDependencies) (gates : ActivationGates) :
    RaisesOnly CompileError.Raised
      (resolveEntries nodeIds declaredEntries dataDependencies gates) := by
  refine .bind (.raiseIf (raised_invalidGraph _)) (fun _ _ => ?_)
  refine .bind (.checkAll (fun _ _ => .raiseIf (raised_invalidGraph _))) (fun _ _ => ?_)
  exact .bind (.raiseIf (raised_raised _)) (fun _ _ => .ok _)

variable [DecidableEq τ]

theorem collectGraphInputs_raises (definition : GraphDefinition τ) :
    RaisesOnly CompileError.Raised (collectGraphInputs definition) := by
  refine .bind (.foldlM (fun descriptors ref => ?_) _ _) (fun _ _ => .ok _)
  exact .bind (.raiseIf (raised_invalidGraph _)) (fun _ _ => .ok _)

theorem resolvePredecessorOutput_raises (nodeOutputs : NodeOutputs τ)
    (gates : List RawActivationGate) (target : GraphNodeId) (inputName : String)
    (startInput : Option GraphInputPort) (source : PredecessorOutputRef τ) :
    RaisesOnly CompileError.Raised
      (resolvePredecessorOutput nodeOutputs gates target inputName startInput source) := by
  refine .bind (.raiseIf (raised_invalidGraph _)) (fun _ _ => ?_)
  refine .bind (.mapM (fun sourceId _ => (declarationOf_raises _ _ _).map _)) (fun _ _ => ?_)
  refine .bind (.orRaise (raised_invalidGraph _)) (fun _ _ => ?_)
  refine .bind (.raiseIf (raised_invalidGraph _)) (fun _ _ => ?_)
  exact .bind (.raiseIf (raised_invalidGraph _)) (fun _ _ => .ok _)

theorem completeInputBindings_raises
    (nodes : Dict GraphNodeId (GraphNode τ (GraphDefinition τ)))
    (nestedGraphs : Dict GraphNodeId (CompiledGraph τ)) (nodeIds : List GraphNodeId)
    (graphInputs : List (OutputDeclaration τ)) (declared : Dict GraphNodeId (NodeBindings τ))
    (nodeOutputs : NodeOutputs τ) (entries : List GraphNodeId) (gates : ActivationGates) :
    RaisesOnly CompileError.Raised (completeInputBindings nodes nestedGraphs nodeIds graphInputs
      declared nodeOutputs entries gates) := by
  refine .foldlM (fun completed node => ?_) _ _
  refine .bind (.foldlM (fun state input => ?_) _ _) (fun _ _ => ?_)
  · refine (resolvePredecessorOutput_raises _ _ _ _ _ _).bind (fun _ _ => ?_)
    exact .bind (.raiseIf (raised_invalidGraph _)) (fun _ _ => .ok _)
  · exact .bind (.raiseIf (raised_invalidGraph _)) (fun _ _ => .ok _)

end Values

/-! ## The control analyses -/

section Control

variable {nodeIds entries : List GraphNodeId} {edges : List Edge}
  {routeOptions : Dict GraphNodeId (List Route)} {dataDependencies : DataDependencies}

theorem staticSuccessors_closed (valid : ValidEdges nodeIds edges) : ClosedOn nodeIds
    (staticSuccessors (collectDirectTargets edges) (collectConditionalTargets edges)) := by
  intro node known target member
  apply edgeSuccessors_closed valid node known
  rw [edgeSuccessors, joinedSuccessors, mem_sortedSet]
  exact List.mem_append_left _ member

theorem joinTargets_known (valid : ValidEdges nodeIds edges) :
    ∀ join ∈ collectJoins edges, join.target ≠ END → join.target ∈ nodeIds := by
  intro join member inner
  obtain ⟨sources, target, edge, rfl⟩ := mem_collectJoins.mp member
  exact (valid.target_known edge).resolve_left inner

theorem gateSources_known (valid : ValidEdges nodeIds edges) : ∀ node ∈ nodeIds,
    ∀ gate ∈ collectActivationGates edges node, ∀ pair ∈ gate, pair.1 ∈ nodeIds :=
  fun _ _ _ member _ inside => (gate_edges valid member inside).1

theorem gateEdges_known (valid : ValidEdges nodeIds edges) : ∀ node ∈ nodeIds,
    ∀ gate ∈ collectActivationGates edges node, ∀ pair ∈ gate, node ∈ edgeSuccessors edges pair.1 :=
  fun _ _ _ member _ inside => (gate_edges valid member inside).2

/-- Without terminal gates every node has a successor, so there is a cycle and it has no exit. -/
theorem terminalGates_ne_nil (valid : ValidEdges nodeIds edges) (nonempty : nodeIds ≠ [])
    (checked : validateCycleExits nodeIds (edgeSuccessors edges)
      (terminalGates nodeIds (collectGatesToEnd edges) (edgeSuccessors edges)) = .ok ()) :
    terminalGates nodeIds (collectGatesToEnd edges) (edgeSuccessors edges) ≠ [] := by
  intro none
  have closed := edgeSuccessors_closed valid
  have continues : ∀ node ∈ nodeIds, ∃ next ∈ nodeIds, Adjacent (edgeSuccessors edges) node next := by
    intro node known
    by_contra ends
    have last : edgeSuccessors edges node = [] := by
      rw [List.eq_nil_iff_forall_not_mem]
      intro next edge
      exact ends ⟨next, closed node known edge, edge⟩
    have perm := perm_sorted (sortedSet (collectGatesToEnd edges) ++ (nodeIds.filter (fun node =>
      edgeSuccessors edges node = [] ∧ node ∉ (sortedSet (collectGatesToEnd edges)).flatten)).map
        (fun node => [node]))
    rw [show sorted _ = [] from none] at perm
    obtain ⟨explicit, natural⟩ := List.append_eq_nil_iff.mp perm.nil_eq.symm
    rw [List.map_eq_nil_iff, List.filter_eq_nil_iff] at natural
    apply natural node known
    rw [explicit]
    simp [last]
  obtain ⟨node, known, cyclic⟩ := exists_onCycle nonempty continues
  simp only [validateCycleExits, none, List.flatten_nil, raiseIf_eq_ok, true_or, and_true,
    not_not] at checked
  have member := (mem_cycleNodes closed).mpr ⟨known, cyclic⟩
  rw [checked] at member
  cases member

theorem validateJointActivationPaths_raises (valid : ValidEdges nodeIds edges)
    (distinct : nodeIds.Nodup) : RaisesOnly CompileError.Raised
      (validateJointActivationPaths nodeIds entries (collectActivationGates edges) dataDependencies
        (collectConditionalTargets edges) (edgeSuccessors edges)) := by
  refine .bind (.of_ok (activationOrder_terminates (edgeSuccessors_closed valid) distinct
    (gateEdges_known valid))) (fun _ _ => ?_)
  refine .foldlM (fun requirements node => ?_) _ _
  exact .bind (.orRaise (raised_invalidGraph _)) (fun _ _ => .ok _)

theorem makeCompiledJoin_raises (identity : GraphJoinIdentity) (offsets : List (GraphNodeId × Nat)) :
    RaisesOnly CompileError.Raised (makeCompiledJoin identity offsets) := by
  unfold makeCompiledJoin
  split
  · split
    · exact .ok _
    · exact .error (raised_raised _)
  · exact .error (raised_raised _)

theorem joinOffsets_raises (gates : ActivationGates)
    (requirements : Dict GraphNodeId RouteRequirementProof)
    (conditionalTargets : ConditionalTargets) (absoluteLevels : GraphNodeId → Option Nat)
    (repeatable : List GraphNodeId) (edge : JoinEdge) :
    RaisesOnly CompileError.Raised (joinOffsets entries gates requirements conditionalTargets
      absoluteLevels repeatable edge) := by
  unfold joinOffsets
  split
  · exact .bind (.raiseIf (raised_invalidGraph _)) (fun _ _ => .ok _)
  · refine .bind (.raiseIf (raised_invalidGraph _)) (fun _ _ => ?_)
    exact .bind (.mapM (fun _ _ => .orRaise (raised_invalidGraph _))) (fun _ _ => .ok _)

theorem compileJoinOccurrencePlans_raises (valid : ValidEdges nodeIds edges)
    (distinct : nodeIds.Nodup) (known : entries ⊆ nodeIds)
    (requirements : Dict GraphNodeId RouteRequirementProof)
    (absoluteLevels : GraphNodeId → Option Nat) : RaisesOnly CompileError.Raised
      (compileJoinOccurrencePlans nodeIds entries (collectJoins edges) (collectActivationGates edges)
        (edgeSuccessors edges) requirements (collectConditionalTargets edges) absoluteLevels) := by
  refine .bind (.of_ok (repeatableNodes_terminates (edgeSuccessors_closed valid) distinct known))
    (fun repeatable _ => .mapM (fun edge _ => ?_))
  refine .bind (.raiseIf (raised_invalidGraph _)) (fun _ _ => ?_)
  exact (joinOffsets_raises _ _ _ _ _ _).bind (fun _ _ => makeCompiledJoin_raises _ _)

/-- The control half of the compiler returns a plan or raises an error. -/
theorem planControl_raises (valid : ValidEdges nodeIds edges) (distinct : nodeIds.Nodup)
    (known : entries ⊆ nodeIds) (nonempty : entries ≠ []) :
    RaisesOnly CompileError.Raised (planControl nodeIds entries (controlTopology edges routeOptions)
      dataDependencies) := by
  have closed := edgeSuccessors_closed valid
  have some : nodeIds ≠ [] := by
    obtain ⟨entry, member⟩ := List.exists_mem_of_ne_nil _ nonempty
    exact List.ne_nil_of_mem (known member)
  refine .bind (.of_ok (reachable_terminates (staticSuccessors_closed valid) known
    (joinTargets_known valid))) (fun _ _ => ?_)
  refine .bind (.raiseIf (raised_raised _)) (fun _ _ => ?_)
  refine .bind (.checkAll (fun _ _ => .checkAll (fun _ _ => .raiseIf (raised_invalidGraph _))))
    (fun _ _ => ?_)
  refine .bind (validateJointActivationPaths_raises valid distinct) (fun requirements _ => ?_)
  refine .bind (.of_ok (guaranteedSets_terminates distinct (gateSources_known valid)))
    (fun guarantees _ => ?_)
  refine .bind (.checkAll (fun _ _ => .raiseIf (raised_invalidGraph _))) (fun _ _ => ?_)
  refine .bind (.raiseIf (raised_invalidGraph _)) (fun _ checked => ?_)
  refine .bind ?_ (fun _ _ => ?_)
  · refine .bind (.of_ok ⟨(), ?_⟩) (fun _ _ => .ok _)
    exact (raiseIf_eq_ok _ _ _).mpr (terminalGates_ne_nil valid some checked)
  refine .bind (.bind (.of_ok (activationLevels_terminates closed distinct)) (fun _ _ => .ok _))
    (fun absoluteLevels _ => ?_)
  refine .bind (compileJoinOccurrencePlans_raises valid distinct known _ _) (fun _ _ => ?_)
  exact .bind (.rethrow raised_raised) (fun _ _ => .ok _)

end Control

/-! ## The compiled plan -/

theorem outputPublicationSelection_raises (absoluteLevels : GraphNodeId → Option Nat)
    (terminalGates : List (List GraphNodeId)) (source : NodeOutputPort) :
    RaisesOnly CompileError.Raised
      (outputPublicationSelection absoluteLevels terminalGates source) := by
  unfold outputPublicationSelection
  split
  · exact .ok _
  · split
    · exact .ok _
    · exact .error (raised_invalidGraph _)

theorem inputPublicationSelection_raises (absoluteLevels : GraphNodeId → Option Nat)
    (gates : ActivationGates) (joinsByTarget : GraphNodeId → List CompiledJoin)
    (source : NodeOutputPort) (target : GraphNodeId) :
    RaisesOnly CompileError.Raised
      (inputPublicationSelection absoluteLevels gates joinsByTarget source target) := by
  have fails : RaisesOnly CompileError.Raised
      (inputPublicationSelection.noCoordinate source target) := .error (raised_invalidGraph _)
  unfold inputPublicationSelection
  split
  · exact .ok _
  · split
    · exact .ok _
    · split
      · split
        · exact .bind (.rethrow raised_raised) (fun _ _ => .ok _)
        · exact fails
      · exact fails

theorem compileGraphOutput_raises (graphInputs : List (OutputDeclaration τ))
    (nodeOutputs : NodeOutputs τ) (plan : ControlPlan) (output : GraphOutputDeclaration τ) :
    RaisesOnly CompileError.Raised (compileGraphOutput graphInputs nodeOutputs plan output) := by
  refine (resolveSource_raises _ _ _ _).bind (fun found _ => ?_)
  dsimp only
  split
  · exact .ok _
  · refine .bind (.raiseIf (raised_invalidGraph _)) (fun _ _ => ?_)
    exact (outputPublicationSelection_raises _ _ _).bind (fun _ _ => .ok _)

theorem publishBinding_raises (plan : ControlPlan) (gates : ActivationGates) (node : GraphNodeId)
    (binding : ResolvedInputBinding τ) :
    RaisesOnly CompileError.Raised (publishBinding plan gates node binding) := by
  unfold publishBinding
  split
  · exact (inputPublicationSelection_raises _ _ _ _ _).bind (fun _ _ => .ok _)
  · exact .ok _

/-- The compiler returns a graph or raises an error. -/
theorem compileDefinition_raises [DecidableEq τ] {definition : GraphDefinition τ}
    (valid : ValidDefinition definition) (nestedGraphs : Dict GraphNodeId (CompiledGraph τ)) :
    RaisesOnly CompileError.Raised (compileDefinition definition nestedGraphs) := by
  have distinct := nodeIdsOf_nodup definition
  refine (collectGraphInputs_raises _).bind (fun _ _ => ?_)
  refine (resolveInputBindings_raises _ _ _ _).bind (fun _ _ => ?_)
  refine (collectControlTopology_raises _ _ _).bind (fun topology collected => ?_)
  simp only [collectControlTopology, bind_eq_ok, pure_eq_ok, Except.ok.injEq] at collected
  obtain ⟨routes, -, rfl⟩ := collected
  refine (resolveEntries_raises _ _ _ _).bind (fun entries resolved => ?_)
  have known : entries ⊆ nodeIdsOf definition := entries_known
    (fun _ inside => mem_nodeIdsOf.mpr (valid.entriesKnown inside)) resolved
  refine (completeInputBindings_raises _ _ _ _ _ _ _ _).bind (fun _ _ => ?_)
  refine (planControl_raises valid.sorted_edges distinct known
    (resolveEntries_eq_ok resolved).1).bind (fun plan _ => ?_)
  refine .bind (.mapM (fun output _ => compileGraphOutput_raises _ _ _ _)) (fun _ _ => ?_)
  refine .bind (tableM_raises (fun node _ => ?_)) (fun _ _ => .ok _)
  exact .bind (.mapM (fun binding _ => publishBinding_raises _ _ _ _)) (fun _ _ => .ok _)

/-! ## Every loop is left -/

/-- The relations in which the compiler looks for paths: the control successors, and these together
with the consumers of values. -/
def pathRelations (definition : GraphDefinition τ) (dataDependencies : DataDependencies) :
    List Successors :=
  [edgeSuccessors definition.edges, dependencySuccessors (nodeIdsOf definition) dataDependencies
    (edgeSuccessors definition.edges)]

/-- The loops of the compiler on the tables of a definition, each left within its bound. -/
structure LoopsReturn [DecidableEq τ] (definition : GraphDefinition τ)
    (nestedGraphs : Dict GraphNodeId (CompiledGraph τ)) (entries : List GraphNodeId)
    (dataDependencies : DataDependencies) : Prop where
  reachable : ∃ reached, reachable (nodeIdsOf definition) entries
    (staticSuccessors (collectDirectTargets definition.edges)
      (collectConditionalTargets definition.edges)) (collectJoins definition.edges) = .ok reached
  searches : ∀ successors ∈ pathRelations definition dataDependencies,
    ∀ source ∈ nodeIdsOf definition, ∀ target, ∃ found,
      Loop.run (canReachTurn successors target)
        (((nodeIdsOf definition).flatMap successors).length + 2) ([source], []) = some found
  spreads : ∀ successors ∈ pathRelations definition dataDependencies, ∃ reached,
    Loop.run (cycleReachTurn successors) ((nodeIdsOf definition).length + 1)
      (sorted (cycleNodes (nodeIdsOf definition) successors),
        (sorted (cycleNodes (nodeIdsOf definition) successors)).reverse) = some reached
  guaranteed : ∃ guarantees, guaranteedSets (nodeIdsOf definition) entries
    (collectActivationGates definition.edges) = .ok guarantees
  repeatable : ∃ repeatable, repeatableNodes (nodeIdsOf definition) entries
    (collectActivationGates definition.edges) (edgeSuccessors definition.edges) = .ok repeatable
  ordered : ∃ ordered, activationOrder (nodeIdsOf definition)
    (collectActivationGates definition.edges) dataDependencies (edgeSuccessors definition.edges) =
      .ok ordered ∧
    Ordered (fixedDependencies (fixedNodes (nodeIdsOf definition) dataDependencies
      (edgeSuccessors definition.edges)) (collectActivationGates definition.edges) dataDependencies)
      ordered
  leveled : ∃ levels, absoluteActivationLevels (nodeIdsOf definition) entries
    (edgeSuccessors definition.edges) = .ok levels
  terminal : validateCycleExits (nodeIdsOf definition) (edgeSuccessors definition.edges)
    (terminalGates (nodeIdsOf definition) (collectGatesToEnd definition.edges)
      (edgeSuccessors definition.edges)) = .ok () →
    terminalGates (nodeIdsOf definition) (collectGatesToEnd definition.edges)
      (edgeSuccessors definition.edges) ≠ []
  symbolic : ∀ routes joins, (compiledNodes definition).items.mapM
      (collectRouteOptions nestedGraphs definition.edges) = .ok routes →
    PlansJoins (nodeIdsOf definition) entries definition.edges joins →
    ∃ turns, Loop.run (Loop.untilStable (planRelation definition entries routes joins).system.expand)
      turns (planRelation definition entries routes joins).initial =
        some (planRelation definition entries routes joins).reachable

/-- On a valid definition whose nested graphs have plans every loop of the compiler is left, and the
compiler ends with a graph or with an error it raises: it neither indexes an empty list of gates nor
runs on. -/
theorem compiler_terminates [DecidableEq τ] {definition : GraphDefinition τ}
    {nestedGraphs : Dict GraphNodeId (CompiledGraph τ)}
    (valid : validateDefinition definition = .ok ())
    (nested : ∀ nodeId child inputs, .nested nodeId child inputs ∈ definition.nodes →
      ∃ plans plan, nestedGraphs.get? nodeId = some plan ∧ compileDefinition child plans = .ok plan) :
    (∀ error, compileDefinition definition nestedGraphs = .error error → error.Raised) ∧
    ∀ dataDependencies entries, resolveEntries (nodeIdsOf definition) definition.entries
      dataDependencies (collectActivationGates definition.edges) = .ok entries →
      LoopsReturn definition nestedGraphs entries dataDependencies := by
  have checked := validateDefinition_eq_ok valid
  refine ⟨compileDefinition_raises checked nestedGraphs, ?_⟩
  intro dataDependencies entries resolved
  have edges := checked.sorted_edges
  have closed := edgeSuccessors_closed edges
  have distinct := nodeIdsOf_nodup definition
  have known : entries ⊆ nodeIdsOf definition := entries_known
    (fun _ inside => mem_nodeIdsOf.mpr (checked.entriesKnown inside)) resolved
  have paths : ∀ successors ∈ pathRelations definition dataDependencies,
      ClosedOn (nodeIdsOf definition) successors :=
    List.forall_mem_cons.mpr ⟨closed, List.forall_mem_singleton.mpr
      (dependencySuccessors_closed closed)⟩
  obtain ⟨entry, member⟩ := List.exists_mem_of_ne_nil _ (resolveEntries_eq_ok resolved).1
  obtain ⟨ordered, computed⟩ : ∃ ordered, activationOrder (nodeIdsOf definition)
      (collectActivationGates definition.edges) dataDependencies
      (edgeSuccessors definition.edges) = .ok ordered :=
    activationOrder_terminates closed distinct (gateEdges_known edges)
  obtain ⟨levels, leveled⟩ : ∃ levels, activationLevels (nodeIdsOf definition) entries
      (edgeSuccessors definition.edges) = .ok levels :=
    activationLevels_terminates closed distinct
  constructor
  · exact reachable_terminates (staticSuccessors_closed edges) known (joinTargets_known edges)
  · intro successors relation source sourceKnown target
    exact canReach_terminates (paths successors relation) sourceKnown target
  · intro successors relation
    exact cycleReach_terminates (paths successors relation) distinct
  · exact guaranteedSets_terminates distinct (gateSources_known edges)
  · exact repeatableNodes_terminates closed distinct known
  · exact ⟨ordered, computed,
      (activationOrder_spec closed distinct (gateEdges_known edges) computed).2⟩
  · exact ⟨uniqueLevel levels, by rw [absoluteActivationLevels, leveled]; rfl⟩
  · exact terminalGates_ne_nil edges (List.ne_nil_of_mem (known member))
  · intro routes joins collected plans
    have wellFormed := planRelation_wellFormed ⟨checked, nested, collected, resolved⟩ plans
    exact ⟨_, SymbolicSystem.reachable_leaves (FrontierRelation.system_valid wellFormed)⟩

/-- A node that is repeated until it selects the route to the last one. -/
def retryDefinition : GraphDefinition Unit where
  definitionId := "retry"
  version := 1
  nodes := [.callable ⟨"try", [], [], [], []⟩, .callable ⟨"last", [], [], [], []⟩]
  edges := [.conditional "try" "again" "try", .conditional "try" "done" "last"]
  entries := ["try"]
  outputs := []

theorem retryDefinition_loops_return : validateDefinition retryDefinition = .ok () ∧
    (∀ error, compileDefinition retryDefinition Dict.empty = .error error → error.Raised) ∧
    LoopsReturn retryDefinition Dict.empty ["try"] (fun _ => []) := by
  have valid : validateDefinition retryDefinition = .ok () := by decide
  have nested : ∀ nodeId child inputs, .nested nodeId child inputs ∈ retryDefinition.nodes →
      ∃ plans plan, (Dict.empty : Dict GraphNodeId (CompiledGraph Unit)).get? nodeId = some plan ∧
        compileDefinition child plans = .ok plan := by
    intro nodeId child inputs member
    simp [retryDefinition] at member
  have terminates := compiler_terminates valid nested
  exact ⟨valid, terminates.1, terminates.2 _ _ (by decide)⟩

end MoteKernel
