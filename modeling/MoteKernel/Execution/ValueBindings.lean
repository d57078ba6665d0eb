import MoteKernel.Execution.EdgeRuns

/-!
# The value bindings of an accepted definition

What the compiler leaves in the materialization plans and the graph outputs: a
node output is read from a guaranteed producer at the selected superstep, and a
control-causal input from the gates of its node.
-/

namespace MoteKernel
open Checked Canonical

variable {τ : Type}

/-! ## Compiled bindings -/

/-- A control-causal input of a node: every gate has one source, and each source publishes it. -/
structure PlansCausal (entries : List GraphNodeId) (gates : ActivationGates) (node : GraphNodeId)
    (inputName : String) (input : CompiledPredecessorInput) : Prop where
  target : input.target = node
  named : input.inputName = inputName
  single : ∀ gate ∈ gates node, gate.length = 1
  sources : ∃ outputName, input.sources = (sortedSet ((gates node).filterMap (fun gate =>
    gate.head?.map Prod.fst))).map (fun source => ⟨source, outputName⟩)
  start : node ∈ entries → input.startInput = some ⟨inputName⟩

/-- A compiled input binding of a node. -/
structure PlansInput (entries : List GraphNodeId) (gates : ActivationGates)
    (dataDependencies : DataDependencies) (plan : ControlPlan) (node : GraphNodeId)
    (binding : ResolvedInputBinding τ) : Prop where
  destination : binding.destination.nodeId = node
  published : ∀ port, binding.source = .nodeOutput port →
    port.nodeId ∈ dataDependencies node ∧ port.nodeId ≠ node ∧ ∃ selection,
      binding.publication = some selection ∧ inputPublicationSelection plan.absoluteLevels gates
        (joinsInto plan.joins) port node = .ok selection
  causal : ∀ input, binding.source = .predecessor input →
    PlansCausal entries gates node binding.destination.localName input

/-- A compiled graph output. -/
def PlansOutput (plan : ControlPlan) (binding : GraphOutputBinding τ) : Prop :=
  ∀ port, binding.source = .nodeOutput port → port.nodeId ∈ plan.terminalGuarantees ∧
    ∃ selection, binding.publication = some selection ∧
      outputPublicationSelection plan.absoluteLevels plan.terminalGates port = .ok selection

/-- The value half of a planned definition. -/
structure PlansValues (graph : CompiledGraph τ) (nodeIds entries : List GraphNodeId)
    (edges : List Edge) (dataDependencies : DataDependencies) (plan : ControlPlan) : Prop where
  inputs : ∀ node ∈ nodeIds, ∀ binding ∈ graph.bindings node,
    PlansInput entries (collectActivationGates edges) dataDependencies plan node binding
  outputs : ∀ binding ∈ graph.transition.graphOutputs, PlansOutput plan binding
  materialized : ∀ node ∈ nodeIds, node ∈ graph.transition.materializations.keys
  gates : graph.transition.activationGates = Dict.build nodeIds (fun node =>
    ((collectActivationGates edges node).map (fun gate =>
      compiledActivationGate gate (collectConditionalTargets edges))).insertionSort
        (fun a b => activationGateSortKey a ≤ activationGateSortKey b))

/-! ## Tables of computed values -/

theorem tableM_getItem {κ ν ε : Type} [DecidableEq κ] [Inhabited ν] {keys : List κ}
    {value : κ → Except ε ν} {table : Dict κ ν} (built : tableM keys value = .ok table) {key : κ}
    (known : key ∈ keys) : key ∈ table.keys ∧ value key = .ok (table.getItem key) := by
  simp only [tableM, bind_eq_ok, pure_eq_ok, Except.ok.injEq] at built
  obtain ⟨pairs, mapped, rfl⟩ := built
  have related := (mapM_eq_ok _ _ _).mp mapped
  have computed : ∀ pair ∈ pairs, value pair.1 = .ok pair.2 := by
    intro pair member
    obtain ⟨other, -, found⟩ := forall₂_mem_right related member
    cases result : value other with
    | error error =>
        rw [result] at found
        cases found
    | ok computed =>
        rw [result] at found
        obtain rfl := Except.ok.inj found
        exact result
  obtain ⟨pair, member, found⟩ := forall₂_mem_left related known
  have named : pair.1 = key := by
    cases result : value key with
    | error error =>
        rw [result] at found
        cases found
    | ok computed =>
        rw [result] at found
        obtain rfl := Except.ok.inj found
        rfl
  have inside : key ∈ (dictOf pairs).keys :=
    mem_dictOf_keys.mpr (List.mem_map.mpr ⟨pair, member, named⟩)
  obtain ⟨stored, lookup⟩ := (Dict.mem_keys _ _).mp inside
  refine ⟨inside, ?_⟩
  rw [Dict.getItem, lookup, Option.getD_some]
  exact computed _ (dictOf_eq_some lookup)

/-! ## Resolved bindings -/

theorem ResolvedValueSource.toInput_nodeOutput {source : ResolvedValueSource}
    {port : NodeOutputPort} : source.toInput = .nodeOutput port ↔ source = .nodeOutput port := by
  cases source <;> simp [toInput]

theorem ResolvedValueSource.toInput_ordinary (source : ResolvedValueSource)
    (input : CompiledPredecessorInput) : source.toInput ≠ .predecessor input := by
  cases source <;> simp [toInput]

/-- A resolved binding of a node: it reads the graph input or another node. -/
structure ResolvesInput (node : GraphNodeId) (binding : ResolvedInputBinding τ) : Prop where
  destination : binding.destination.nodeId = node
  other : ∀ port, binding.source = .nodeOutput port → port.nodeId ≠ node
  ordinary : ∀ input, binding.source ≠ .predecessor input

theorem resolveSource_other {graphInputs : List (OutputDeclaration τ)}
    {nodeOutputs : NodeOutputs τ} {node : GraphNodeId} {source : ValueSourceRef τ}
    {found : ResolvedValueSource × NominalTypeDescriptor τ}
    (resolved : resolveSource graphInputs nodeOutputs (some node) source = .ok found) :
    ∀ port, found.1 = .nodeOutput port → port.nodeId ≠ node := by
  intro port reads
  cases source with
  | graphInput name descriptor =>
      simp only [resolveSource, bind_eq_ok, pure_eq_ok, Except.ok.injEq] at resolved
      obtain ⟨declaration, -, rfl⟩ := resolved
      cases reads
  | nodeOutput nodeId outputName descriptor =>
      simp only [resolveSource, bind_eq_ok, exists_unit, raiseIf_eq_ok, Option.some.injEq,
        pure_eq_ok, Except.ok.injEq] at resolved
      obtain ⟨different, outputs, -, declaration, -, -, rfl⟩ := resolved
      cases reads
      exact fun same => different same.symm

theorem resolveInputBinding_resolves {graphInputs : List (OutputDeclaration τ)}
    {nodeOutputs : NodeOutputs τ} {node : GraphNodeId} {bindings updated : NodeBindings τ}
    {binding : InputBinding τ}
    (done : resolveInputBinding graphInputs nodeOutputs node bindings binding = .ok updated)
    (before : ∀ item ∈ bindings.resolved, ResolvesInput node item) :
    ∀ item ∈ updated.resolved, ResolvesInput node item := by
  have ordinary : ∀ source, resolveInputBinding.resolve graphInputs nodeOutputs node bindings binding
      source = .ok updated → ∀ item ∈ updated.resolved, ResolvesInput node item := by
    intro source resolved item member
    simp only [resolveInputBinding.resolve, bind_eq_ok, pure_eq_ok, Except.ok.injEq] at resolved
    obtain ⟨found, here, rfl⟩ := resolved
    rcases List.mem_append.mp member with old | new
    · exact before item old
    · obtain rfl := List.mem_singleton.mp new
      have different := resolveSource_other here
      exact ⟨rfl, fun port reads => different port (ResolvedValueSource.toInput_nodeOutput.mp reads),
        fun input => ResolvedValueSource.toInput_ordinary found.1 input⟩
  unfold resolveInputBinding at done
  cases reads : binding.source with
  | predecessor outputName descriptor =>
      rw [reads] at done
      obtain rfl := Except.ok.inj done
      exact before
  | graphInput name descriptor =>
      rw [reads] at done
      exact ordinary _ done
  | nodeOutput nodeId outputName descriptor =>
      rw [reads] at done
      exact ordinary _ done

/-- Every resolved binding of a node is an ordinary one of the node. -/
theorem resolveInputBindings_resolves {nodes : Dict GraphNodeId (GraphNode τ (GraphDefinition τ))}
    {nodeIds : List GraphNodeId} {graphInputs : List (OutputDeclaration τ)}
    {nodeOutputs : NodeOutputs τ} {declared : Dict GraphNodeId (NodeBindings τ)}
    (done : resolveInputBindings nodes nodeIds graphInputs nodeOutputs = .ok declared)
    {node : GraphNodeId} (known : node ∈ nodeIds) :
    ∀ item ∈ (declared.getItem node).resolved, ResolvesInput node item := by
  simp only [resolveInputBindings, bind_eq_ok, exists_unit, raiseIf_eq_ok, pure_eq_ok,
    Except.ok.injEq] at done
  obtain ⟨table, built, -, rfl⟩ := done
  obtain ⟨-, folded⟩ := tableM_getItem built known
  refine foldlM_preserves (P := fun bindings => ∀ item ∈ bindings.resolved, ResolvesInput node item)
    ?_ folded (fun item none => absurd none List.not_mem_nil)
  intro bindings binding updated _ taken before
  exact resolveInputBinding_resolves taken before

theorem NodeBindings.mem_dependencies {bindings : NodeBindings τ}
    {binding : ResolvedInputBinding τ} (member : binding ∈ bindings.resolved)
    {port : NodeOutputPort} (reads : binding.source = .nodeOutput port) :
    port.nodeId ∈ bindings.dependencies := by
  rw [NodeBindings.dependencies, mem_sortedSet, List.mem_filterMap]
  exact ⟨binding, member, by rw [reads]⟩

/-! ## Completed bindings -/

section Completed

variable [DecidableEq τ]

/-- A completed binding of a node: a resolved one, or a control-causal one. -/
def CompletesInput (entries : List GraphNodeId) (gates : ActivationGates) (node : GraphNodeId)
    (resolved : List (ResolvedInputBinding τ)) (binding : ResolvedInputBinding τ) : Prop :=
  binding ∈ resolved ∨ binding.destination.nodeId = node ∧
    ∃ input, binding.source = .predecessor input ∧
      PlansCausal entries gates node binding.destination.localName input

theorem resolvePredecessorOutput_plans {nodeOutputs : NodeOutputs τ}
    {gates : List RawActivationGate} {target : GraphNodeId} {inputName : String}
    {startInput : Option GraphInputPort} {source : PredecessorOutputRef τ}
    {found : CompiledPredecessorInput × NominalTypeDescriptor τ}
    (resolved : resolvePredecessorOutput nodeOutputs gates target inputName startInput source =
      .ok found) :
    (∀ gate ∈ gates, gate.length = 1) ∧ found.1 = ⟨target, inputName,
      (sortedSet (gates.filterMap (fun gate => gate.head?.map Prod.fst))).map
        (fun sourceId => ⟨sourceId, source.outputName⟩), startInput⟩ := by
  simp only [resolvePredecessorOutput, bind_eq_ok, exists_unit, raiseIf_eq_ok, pure_eq_ok,
    Except.ok.injEq] at resolved
  obtain ⟨single, descriptors, -, descriptor, -, -, -, rfl⟩ := resolved
  refine ⟨?_, rfl⟩
  intro gate member
  by_contra several
  exact single ⟨gate, member, several⟩

theorem completePredecessor_completes {nodeOutputs : NodeOutputs τ} {entries : List GraphNodeId}
    {gates : ActivationGates} {node : GraphNodeId} {resolved : List (ResolvedInputBinding τ)}
    {state updated : List (ResolvedInputBinding τ) × Dict String (NominalTypeDescriptor τ)}
    {input : String × PredecessorOutputRef τ}
    (done : completePredecessor nodeOutputs entries gates node state input = .ok updated)
    (before : ∀ item ∈ state.1, CompletesInput entries gates node resolved item) :
    ∀ item ∈ updated.1, CompletesInput entries gates node resolved item := by
  simp only [completePredecessor, bind_eq_ok, exists_unit, raiseIf_eq_ok, pure_eq_ok,
    Except.ok.injEq] at done
  obtain ⟨found, here, -, rfl⟩ := done
  intro item member
  rcases List.mem_append.mp member with old | new
  · exact before item old
  · obtain rfl := List.mem_singleton.mp new
    obtain ⟨single, same⟩ := resolvePredecessorOutput_plans here
    refine .inr ⟨rfl, found.1, rfl, ?_⟩
    rw [same]
    refine ⟨rfl, rfl, single, ⟨_, rfl⟩, ?_⟩
    intro entry
    exact if_pos entry

/-- Every completed binding of a node is resolved or control-causal. -/
theorem completeInputBindings_completes
    {nodes : Dict GraphNodeId (GraphNode τ (GraphDefinition τ))}
    {nestedGraphs : Dict GraphNodeId (CompiledGraph τ)} {nodeIds : List GraphNodeId}
    {graphInputs : List (OutputDeclaration τ)} {declared : Dict GraphNodeId (NodeBindings τ)}
    {nodeOutputs : NodeOutputs τ} {entries : List GraphNodeId} {gates : ActivationGates}
    {completed : CompletedInputs τ}
    (done : completeInputBindings nodes nestedGraphs nodeIds graphInputs declared nodeOutputs
      entries gates = .ok completed) (node : GraphNodeId) :
    ∀ item ∈ completed.bindings.getItem node,
      CompletesInput entries gates node (declared.getItem node).resolved item := by
  refine foldlM_preserves (P := fun state : CompletedInputs τ => ∀ node,
    ∀ item ∈ state.bindings.getItem node,
      CompletesInput entries gates node (declared.getItem node).resolved item) ?_ done
    (fun node item none => absurd none List.not_mem_nil) node
  intro state visited updated _ taken before node item member
  simp only [completeNodeInputs, bind_eq_ok, exists_unit, raiseIf_eq_ok, pure_eq_ok,
    Except.ok.injEq] at taken
  obtain ⟨result, folded, -, rfl⟩ := taken
  rw [Dict.getItem_set] at member
  by_cases here : node = visited
  · subst here
    rw [if_pos rfl, List.mem_insertionSort] at member
    refine foldlM_preserves (P := fun state : List (ResolvedInputBinding τ) ×
        Dict String (NominalTypeDescriptor τ) => ∀ item ∈ state.1,
        CompletesInput entries gates node (declared.getItem node).resolved item) ?_ folded
      (fun item inside => .inl inside) item member
    intro state input updated _ taken before
    exact completePredecessor_completes taken before
  · rw [if_neg here] at member
    exact before node item member

end Completed

/-! ## The compiled plan -/

theorem publishBinding_plans {plan : ControlPlan} {gates : ActivationGates} {node : GraphNodeId}
    {entries : List GraphNodeId} {bindings : NodeBindings τ}
    {binding published : ResolvedInputBinding τ}
    (resolves : ∀ item ∈ bindings.resolved, ResolvesInput node item)
    (completes : CompletesInput entries gates node bindings.resolved binding)
    (done : publishBinding plan gates node binding = .ok published) :
    ∀ dataDependencies : DataDependencies, dataDependencies node = bindings.dependencies →
      PlansInput entries gates dataDependencies plan node published := by
  intro dataDependencies same
  unfold publishBinding at done
  cases reads : binding.source with
  | graphInput port =>
      rw [reads] at done
      obtain rfl := Except.ok.inj done
      refine ⟨?_, fun port other => ?_, fun input other => ?_⟩
      · rcases completes with member | ⟨named, -⟩
        · exact (resolves _ member).destination
        · exact named
      · rw [reads] at other
        cases other
      · rw [reads] at other
        cases other
  | nodeOutput port =>
      rw [reads] at done
      simp only [bind_eq_ok, pure_eq_ok, Except.ok.injEq] at done
      obtain ⟨selection, selected, rfl⟩ := done
      rcases completes with member | ⟨-, input, other, -⟩
      · have ordinary := resolves _ member
        refine ⟨ordinary.destination, fun other otherReads => ?_, fun input otherReads => ?_⟩
        · cases otherReads
          rw [same]
          exact ⟨NodeBindings.mem_dependencies member reads, ordinary.other port reads, selection, rfl,
            selected⟩
        · cases otherReads
      · rw [reads] at other
        cases other
  | predecessor input =>
      rw [reads] at done
      obtain rfl := Except.ok.inj done
      rcases completes with member | ⟨named, other, otherReads, plans⟩
      · exact absurd reads ((resolves _ member).ordinary input)
      · rw [reads] at otherReads
        cases otherReads
        refine ⟨named, fun port wrong => ?_, fun other otherReads => ?_⟩
        · rw [reads] at wrong
          cases wrong
        · rw [reads] at otherReads
          cases otherReads
          exact plans

theorem compileGraphOutput_plans {graphInputs : List (OutputDeclaration τ)}
    {nodeOutputs : NodeOutputs τ} {plan : ControlPlan} {output : GraphOutputDeclaration τ}
    {binding : GraphOutputBinding τ}
    (done : compileGraphOutput graphInputs nodeOutputs plan output = .ok binding) :
    PlansOutput plan binding := by
  simp only [compileGraphOutput, bind_eq_ok] at done
  obtain ⟨found, -, done⟩ := done
  intro port reads
  cases source : found.1 with
  | graphInput other =>
      rw [source] at done
      simp only [pure_eq_ok, ok_bind, Except.ok.injEq] at done
      subst done
      cases reads
  | nodeOutput other =>
      rw [source] at done
      simp only [bind_eq_ok, exists_unit, raiseIf_eq_ok, not_not, pure_eq_ok, Except.ok.injEq] at done
      obtain ⟨guaranteed, selection, selected, publication, rfl, rfl⟩ := done
      cases reads
      exact ⟨guaranteed, selection, rfl, selected⟩

/-- An accepted definition is planned together with its values. -/
theorem Compiles.planned_values [DecidableEq τ] {definition : GraphDefinition τ}
    {nestedGraphs : Dict GraphNodeId (CompiledGraph τ)} {graph : CompiledGraph τ}
    (compiles : Compiles definition nestedGraphs graph) :
    ∃ entries routes dataDependencies plan,
      Planned definition nestedGraphs graph entries routes dataDependencies plan ∧
      PlansValues graph (nodeIdsOf definition) entries definition.edges dataDependencies plan := by
  have compiled := compiles.compiled
  simp only [compileDefinition, collectControlTopology, bind_eq_ok, pure_eq_ok, Except.ok.injEq,
    exists_exists_and_eq_and] at compiled
  obtain ⟨graphInputs, -, declared, resolvedInputs, routes, collected, entries, resolved, completed,
    completes, plan, planned, graphOutputs, outputs, materializations, materialized, rfl⟩ := compiled
  refine ⟨entries, routes, _, plan,
    { nodes := rfl, collected := collected, resolved := resolved, planned := planned
      graphEntries := rfl, direct := rfl, conditional := rfl, options := rfl, joins := rfl
      completionRoutes := rfl }, ?_, ?_, ?_, rfl⟩
  · intro node known binding member
    obtain ⟨-, computed⟩ := tableM_getItem materialized known
    simp only [materializationOf, bind_eq_ok, pure_eq_ok, Except.ok.injEq] at computed
    obtain ⟨bindings, mapped, same⟩ := computed
    have listed : binding ∈ bindings := by
      rw [CompiledGraph.bindings] at member
      simp only [transitionPlan] at member
      rw [← same] at member
      exact member
    obtain ⟨source, inside, published⟩ := forall₂_mem_right ((mapM_eq_ok _ _ _).mp mapped) listed
    exact publishBinding_plans (resolveInputBindings_resolves resolvedInputs known)
      (completeInputBindings_completes completes node source inside) published _ rfl
  · intro binding member
    obtain ⟨output, -, done⟩ := forall₂_mem_right ((mapM_eq_ok _ _ _).mp outputs) member
    exact compileGraphOutput_plans done
  · intro node known
    exact (tableM_getItem materialized known).1

end MoteKernel
