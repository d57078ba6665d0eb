import MoteKernel.Execution.Topology
import MoteKernel.Lib.Checked

/-!
# Validation of definitions

`execution/graph/validation.py`: the identities, resources and edges of one
definition, and what they establish for the compiler. The visits that find a
family's repeated definitions are left out; the nested definitions are validated
one by one.
-/

namespace MoteKernel
open Checked Canonical

variable {τ : Type}

/-! ## Checks -/

/-- `require_graph_identity`. -/
def requireGraphIdentity (kind value : String) : Except ExecutionError Unit :=
  raiseIf (isCanonicalIdentity value = false)
    ⟨.invalidGraphIdentity, kind ++ " identity must be a non-empty trimmed string"⟩

/-- The declarations of one callable node. -/
def validateCallable (resourceIds : List ResourceId) (node : CallableNodeDefinition τ) :
    Except ExecutionError Unit := do
  raiseIf (¬ node.resources.Nodup) ⟨.invalidResourceDefinition,
    "node " ++ reprIdentity node.nodeId ++ " repeats a resource requirement"⟩
  raiseIf (∃ resource ∈ node.resources, resource ∉ resourceIds) ⟨.invalidResourceDefinition,
    "node " ++ reprIdentity node.nodeId ++ " references an unknown resource"⟩
  checkAll (requireGraphIdentity "exported route") node.exportedRoutes

/-- `_validate_callable_declarations`. -/
def validateCallableDeclarations (definition : GraphDefinition τ) : Except ExecutionError Unit := do
  raiseIf (¬ definition.resources.Nodup)
    ⟨.invalidResourceDefinition, "graph resources require unique resource IDs"⟩
  checkAll (fun resource => rethrow (fun error => ⟨.invalidResourceDefinition, error.message⟩)
    (requireGraphIdentity "resource" resource)) definition.resources
  checkAll (fun node =>
    match node with
    | .callable callable => validateCallable definition.resources callable
    | .nested _ _ _ => return ()) definition.nodes

/-- The edges `_validate_edges` has seen. -/
structure SeenEdges where
  direct : List (GraphNodeId × GraphNodeId) := []
  conditional : List (GraphNodeId × GraphRouteId) := []
  joins : List (List GraphNodeId × GraphNodeId) := []

/-- A target that is a node or the end. -/
def KnownTarget (nodeIds : List GraphNodeId) (target : GraphNodeId) : Prop :=
  target = END ∨ target ∈ nodeIds

instance (nodeIds : List GraphNodeId) (target : GraphNodeId) :
    Decidable (KnownTarget nodeIds target) := inferInstanceAs (Decidable (_ ∨ _))

/-- One edge of `_validate_edges`. -/
def validateEdge (nodeIds : List GraphNodeId) (seen : SeenEdges) :
    Edge → Except ExecutionError SeenEdges
  | .direct source target => do
      raiseIf (source ∉ nodeIds ∨ ¬ KnownTarget nodeIds target)
        ⟨.unknownNode, "direct edge references an unknown node"⟩
      raiseIf ((source, target) ∈ seen.direct)
        ⟨.duplicateEdge, "duplicate direct edge: " ++ source ++ " -> " ++ target⟩
      return { seen with direct := (source, target) :: seen.direct }
  | .conditional source route target => do
      requireGraphIdentity "route" route
      raiseIf (source ∉ nodeIds ∨ ¬ KnownTarget nodeIds target)
        ⟨.unknownNode, "conditional edge references an unknown node"⟩
      raiseIf ((source, route) ∈ seen.conditional)
        ⟨.duplicateEdge, "duplicate conditional route " ++ reprIdentity route ++ " from " ++
          reprIdentity source⟩
      return { seen with conditional := (source, route) :: seen.conditional }
  | .join sources target => do
      raiseIf (sources.length < 2 ∨ ¬ sources.Nodup ∨ (∃ source ∈ sources, source ∉ nodeIds) ∨
          ¬ KnownTarget nodeIds target ∨ target ∈ sources)
        ⟨.invalidJoin, "invalid join into node: " ++ target⟩
      raiseIf ((sortedSet sources, target) ∈ seen.joins)
        ⟨.invalidJoin, "duplicate join into node: " ++ target⟩
      return { seen with joins := (sortedSet sources, target) :: seen.joins }

/-- `_validate_edges`. -/
def validateEdges (nodeIds entries : List GraphNodeId) (edges : List Edge) :
    Except ExecutionError Unit := do
  raiseIf (¬ entries.Nodup)
    ⟨.duplicateBoundary, "graph definition contains duplicate explicit START entries"⟩
  raiseIf (∃ entry ∈ entries, entry ∉ nodeIds)
    ⟨.unknownNode, "START edge references an unknown node"⟩
  let _ ← edges.foldlM (validateEdge nodeIds) {}
  return ()

/-- `FrameCodec.validate`. -/
def FrameCodec.validate (codec : FrameCodec) : Except ExecutionError Unit := do
  raiseIf (isCanonicalIdentity codec.codecId = false)
    ⟨.invalidGraphIdentity, "frame codec identity must be canonical"⟩
  raiseIf (codec.version < 1)
    ⟨.invalidGraphIdentity, "frame codec version must be an exact positive integer"⟩

/-- One node of `_validate_definition`. -/
def validateNodeIdentity (nodeId : GraphNodeId) : Except ExecutionError Unit := do
  requireGraphIdentity "node" nodeId
  raiseIf (nodeId = START ∨ nodeId = END)
    ⟨.invalidGraphIdentity, "START and END cannot be concrete graph nodes"⟩

/-- `_validate_definition` of one definition of a family. -/
def validateDefinition (definition : GraphDefinition τ) : Except ExecutionError Unit := do
  let nodeIds := definition.nodes.map GraphNode.nodeId
  requireGraphIdentity "graph" definition.definitionId
  raiseIf (definition.version < 1)
    ⟨.invalidGraphIdentity, "graph definition version must be a positive integer"⟩
  checkAll validateNodeIdentity nodeIds
  raiseIf (¬ nodeIds.Nodup)
    ⟨.duplicateNode, "graph definition contains duplicate node identities"⟩
  validateCallableDeclarations definition
  validateEdges nodeIds definition.entries definition.edges
  match definition.resumeInput with
  | none => return ()
  | some codec => codec.validate

/-! ## Valid edges -/

/-- The nodes an edge names are known. -/
def Edge.Known (nodeIds : List GraphNodeId) : Edge → Prop
  | .direct source target => source ∈ nodeIds ∧ KnownTarget nodeIds target
  | .conditional source _ target => source ∈ nodeIds ∧ KnownTarget nodeIds target
  | .join sources target => 2 ≤ sources.length ∧ sources.Nodup ∧ sources ⊆ nodeIds ∧
      KnownTarget nodeIds target ∧ target ∉ sources

/-- Two edges that may not stand together: the same direct edge, two targets for one route, the
same sources joined twice into one target. -/
def Edge.Clashes : Edge → Edge → Prop
  | .direct source target, .direct source' target' => source' = source ∧ target' = target
  | .conditional source route _, .conditional source' route' _ => source' = source ∧ route' = route
  | .join sources target, .join sources' target' =>
      sortedSet sources' = sortedSet sources ∧ target' = target
  | _, _ => False

/-- What `_validate_edges` establishes. -/
structure ValidEdges (nodeIds : List GraphNodeId) (edges : List Edge) : Prop where
  known : ∀ edge ∈ edges, edge.Known nodeIds
  apart : edges.Pairwise (fun a b => ¬ a.Clashes b)

/-- The edges a scan has seen. -/
def SeenEdges.Clashes (seen : SeenEdges) : Edge → Prop
  | .direct source target => (source, target) ∈ seen.direct
  | .conditional source route _ => (source, route) ∈ seen.conditional
  | .join sources target => (sortedSet sources, target) ∈ seen.joins

theorem validateEdge_eq_ok {nodeIds : List GraphNodeId} {seen next : SeenEdges} {edge : Edge}
    (accepted : validateEdge nodeIds seen edge = .ok next) :
    edge.Known nodeIds ∧ ¬ seen.Clashes edge ∧
      ∀ other, ¬ next.Clashes other → ¬ seen.Clashes other ∧ ¬ edge.Clashes other := by
  cases edge with
  | direct source target =>
      simp only [validateEdge, bind_unit_eq_ok, raiseIf_eq_ok, pure_eq_ok, Except.ok.injEq, not_or,
        not_not] at accepted
      obtain ⟨known, fresh, rfl⟩ := accepted
      refine ⟨known, fresh, ?_⟩
      intro other clear
      cases other <;> simp_all [SeenEdges.Clashes, Edge.Clashes]
  | conditional source route target =>
      simp only [validateEdge, bind_unit_eq_ok, raiseIf_eq_ok, pure_eq_ok, Except.ok.injEq, not_or,
        not_not] at accepted
      obtain ⟨-, known, fresh, rfl⟩ := accepted
      refine ⟨known, fresh, ?_⟩
      intro other clear
      cases other <;> simp_all [SeenEdges.Clashes, Edge.Clashes]
  | join sources target =>
      simp only [validateEdge, bind_unit_eq_ok, raiseIf_eq_ok, pure_eq_ok, Except.ok.injEq, not_or,
        not_not, not_lt, not_exists, not_and] at accepted
      obtain ⟨⟨several, distinct, inside, targeted, outside⟩, fresh, rfl⟩ := accepted
      refine ⟨⟨several, distinct, inside, targeted, outside⟩, fresh, ?_⟩
      intro other clear
      cases other <;> simp_all [SeenEdges.Clashes, Edge.Clashes]

theorem foldlM_validateEdge {nodeIds : List GraphNodeId} {edges : List Edge} {seen last : SeenEdges}
    (accepted : edges.foldlM (validateEdge nodeIds) seen = .ok last) :
    ValidEdges nodeIds edges ∧ ∀ edge ∈ edges, ¬ seen.Clashes edge := by
  induction edges generalizing seen with
  | nil => exact ⟨⟨by simp, .nil⟩, by simp⟩
  | cons edge edges ih =>
      rw [List.foldlM_cons, bind_eq_ok] at accepted
      obtain ⟨next, first, rest⟩ := accepted
      obtain ⟨known, fresh, separate⟩ := validateEdge_eq_ok first
      obtain ⟨valid, clear⟩ := ih rest
      refine ⟨⟨?_, ?_⟩, ?_⟩
      · exact List.forall_mem_cons.mpr ⟨known, valid.known⟩
      · exact List.pairwise_cons.mpr
          ⟨fun other member => (separate other (clear other member)).2, valid.apart⟩
      · exact List.forall_mem_cons.mpr
          ⟨fresh, fun other member => (separate other (clear other member)).1⟩

/-- What `_validate_definition` establishes for the compiler. -/
structure ValidDefinition (definition : GraphDefinition τ) : Prop where
  distinct : (definition.nodes.map GraphNode.nodeId).Nodup
  inner : ∀ nodeId ∈ definition.nodes.map GraphNode.nodeId, nodeId ≠ END
  entries : definition.entries.Nodup
  entriesKnown : definition.entries ⊆ definition.nodes.map GraphNode.nodeId
  edges : ValidEdges (definition.nodes.map GraphNode.nodeId) definition.edges

theorem validateDefinition_eq_ok {definition : GraphDefinition τ} {u : Unit}
    (accepted : validateDefinition definition = .ok u) : ValidDefinition definition := by
  simp only [validateDefinition, bind_unit_eq_ok, checkAll_eq_ok, raiseIf_eq_ok, not_not,
    validateNodeIdentity, not_or] at accepted
  obtain ⟨-, -, identities, distinct, -, edges, -⟩ := accepted
  simp only [validateEdges, bind_eq_ok, raiseIf_eq_ok, not_not, not_exists, not_and] at edges
  obtain ⟨_, entries, _, entriesKnown, last, folded, -⟩ := edges
  exact ⟨distinct, fun nodeId member => (identities nodeId member).2.2, entries, entriesKnown,
    (foldlM_validateEdge folded).1⟩

end MoteKernel
