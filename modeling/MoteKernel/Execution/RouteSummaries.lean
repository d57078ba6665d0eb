import MoteKernel.Execution.RouteRequirements

/-!
# The table of route requirements

What holds of every summary of `_validate_joint_activation_paths`, by induction
along the order of the nodes: a requirement restricts earlier nodes or leaves an
entry open, every gate has a satisfiable requirement, the values a node consumes
add nothing to the requirement of its gates, and an exact summary rests on exact
summaries.
-/

namespace MoteKernel
open Checked Canonical Rectangle

/-- The requirement of a node in the table. -/
abbrev requirementOf (requirements : Dict GraphNodeId RouteRequirementProof) (node : GraphNodeId) :
    RouteRequirements :=
  (summaryOf requirements node).requirements

/-! ## Sides -/

/-- The sides of a requirement list each source once, leave some declared route open at it, and
restrict only sources below the bound; an entry may stay open. -/
structure Sided (entries : List GraphNodeId) (conditionalTargets : ConditionalTargets)
    (rank : GraphNodeId → Nat) (bound : Nat) (rectangle : RouteRequirements) : Prop where
  distinct : Distinct rectangle
  filled : ∀ side ∈ rectangle, side.2 ≠ []
  declared : ∀ side ∈ rectangle, side.2 ⊆ (conditionalTargets side.1).keys
  earlier : ∀ side ∈ rectangle, (side.1 ∈ entries ∧ (conditionalTargets side.1).keys ⊆ side.2) ∨
    rank side.1 < bound

section Sides

variable {entries : List GraphNodeId} {conditionalTargets : ConditionalTargets}
  {rank : GraphNodeId → Nat} {bound : Nat} {requirements : Dict GraphNodeId RouteRequirementProof}
  {parts : List RouteRequirements} {whole : RouteRequirements}

theorem Sided.weaken {lower : Nat} (sided : Sided entries conditionalTargets rank lower whole)
    (below : lower ≤ bound) : Sided entries conditionalTargets rank bound whole := by
  refine ⟨sided.distinct, sided.filled, sided.declared, ?_⟩
  intro side member
  exact (sided.earlier side member).imp_right (fun before => by omega)

theorem sided_entryRequirements (once : entries.Nodup) :
    Sided entries conditionalTargets rank bound
      (entryRequirements entries conditionalTargets).requirements := by
  have listed : ∀ side ∈ (entryRequirements entries conditionalTargets).requirements,
      side.1 ∈ entries ∧ (conditionalTargets side.1).items ≠ [] ∧
        side.2 = sorted (conditionalTargets side.1).keys := by
    intro side member
    obtain ⟨entry, inside, rfl⟩ := List.mem_map.mp member
    rw [List.mem_filter, decide_eq_true_eq] at inside
    exact ⟨inside.1, inside.2, rfl⟩
  refine ⟨?_, ?_, ?_, ?_⟩
  · show (List.map Prod.fst (List.map _ _)).Nodup
    rw [List.map_map, show Prod.fst ∘ _ = id from rfl, List.map_id]
    exact once.filter _
  · intro side member none
    obtain ⟨-, several, same⟩ := listed side member
    rw [same] at none
    have perm := perm_sorted (conditionalTargets side.1).keys
    rw [none] at perm
    exact several (List.map_eq_nil_iff.mp perm.nil_eq.symm)
  · intro side member route inside
    rwa [(listed side member).2.2, mem_sorted] at inside
  · intro side member
    obtain ⟨entry, -, same⟩ := listed side member
    refine .inl ⟨entry, ?_⟩
    intro route inside
    rwa [same, mem_sorted]

/-- The requirement of a source restricts the source itself and what its summary restricts. -/
theorem mem_sourceRouteRequirements {source : GraphNodeId} {route : Option GraphRouteId}
    (distinct : Distinct (requirementOf requirements source)) {side : GraphNodeId × List GraphRouteId}
    (member : side ∈ (sourceRouteRequirements requirements conditionalTargets source
      route).requirements) :
    side.1 = source ∨ side ∈ requirementOf requirements source := by
  by_cases routed : route ≠ none ∨ (conditionalTargets source).items ≠ []
  · by_cases same : side.1 = source
    · exact .inl same
    · exact .inr ((sourceRouteRequirements_restricts routed distinct).others side member same)
  · rw [not_or, not_not, not_not] at routed
    obtain ⟨rfl, plain⟩ := routed
    rw [sourceRouteRequirements_plain plain] at member
    exact .inr member

/-- A gate can ask its source for this route. -/
def Selectable (conditionalTargets : ConditionalTargets) (source : GraphNodeId)
    (route : Option GraphRouteId) : Prop :=
  ∀ name, route = some name → name ∈ (conditionalTargets source).keys

theorem selectable_none (source : GraphNodeId) : Selectable conditionalTargets source none := by
  intro name wrong
  cases wrong

theorem selectedRoutes_declared {source : GraphNodeId} {route : Option GraphRouteId}
    (selectable : Selectable conditionalTargets source route) {name : GraphRouteId}
    (selected : name ∈ selectedRoutes conditionalTargets source route) :
    name ∈ (conditionalTargets source).keys := by
  cases route with
  | none => exact mem_sorted.mp selected
  | some other =>
      rw [List.mem_singleton.mp selected]
      exact selectable other rfl

theorem selectedRoutes_nonempty {source : GraphNodeId} {route : Option GraphRouteId}
    (routed : route ≠ none ∨ (conditionalTargets source).items ≠ []) :
    ∃ name, name ∈ selectedRoutes conditionalTargets source route := by
  cases route with
  | some other => exact ⟨other, List.mem_singleton.mpr rfl⟩
  | none =>
      obtain ⟨item, member⟩ := List.exists_mem_of_ne_nil _ (routed.resolve_left (fun wrong => wrong rfl))
      exact ⟨item.1, mem_sorted.mpr (List.mem_map.mpr ⟨item, member, rfl⟩)⟩

/-- A node restricts its own routes only as an open entry. -/
theorem Sided.own {source : GraphNodeId}
    (sided : Sided entries conditionalTargets rank (rank source) (requirementOf requirements source))
    {routes : List GraphRouteId} (listed : (source, routes) ∈ requirementOf requirements source) :
    (conditionalTargets source).keys ⊆ routes :=
  ((sided.earlier _ listed).resolve_right (lt_irrefl _)).2

theorem Sided.source {source : GraphNodeId} {route : Option GraphRouteId}
    (sided : Sided entries conditionalTargets rank (rank source) (requirementOf requirements source))
    (selectable : Selectable conditionalTargets source route) (below : rank source < bound) :
    Sided entries conditionalTargets rank bound
      (sourceRouteRequirements requirements conditionalTargets source route).requirements := by
  by_cases routed : route ≠ none ∨ (conditionalTargets source).items ≠ []
  · have restricts := sourceRouteRequirements_restricts routed sided.distinct
    refine ⟨restricts.distinct, ?_, ?_, ?_⟩
    · rintro ⟨key, routes⟩ member
      by_cases same : key = source
      · subst same
        obtain ⟨name, selected⟩ := selectedRoutes_nonempty routed
        refine List.ne_nil_of_mem ((restricts.allowed routes member name).mpr ⟨selected, ?_⟩)
        intro existing listed
        exact sided.own listed (selectedRoutes_declared selectable selected)
      · exact sided.filled _ (restricts.others _ member same)
    · rintro ⟨key, routes⟩ member
      by_cases same : key = source
      · subst same
        intro name inside
        exact selectedRoutes_declared selectable ((restricts.allowed routes member name).mp inside).1
      · exact sided.declared _ (restricts.others _ member same)
    · rintro ⟨key, routes⟩ member
      by_cases same : key = source
      · subst same
        exact .inr below
      · exact (sided.earlier _ (restricts.others _ member same)).imp_right (fun before => by omega)
  · rw [not_or, not_not, not_not] at routed
    obtain ⟨rfl, plain⟩ := routed
    rw [sourceRouteRequirements_plain plain]
    exact sided.weaken below.le

theorem Sided.merged (merged : Merged parts whole)
    (sided : ∀ part ∈ parts, Sided entries conditionalTargets rank bound part) :
    Sided entries conditionalTargets rank bound whole := by
  refine ⟨merged.distinct, fun side member => (merged.sides side member).1, ?_, ?_⟩
  · intro side member route inside
    obtain ⟨-, ⟨part, partMember, values, listed⟩, allowed⟩ := merged.sides side member
    exact (sided part partMember).declared _ listed
      ((allowed route).mp inside part partMember values listed)
  · intro side member
    obtain ⟨-, ⟨part, partMember, values, listed⟩, allowed⟩ := merged.sides side member
    by_cases before : rank side.1 < bound
    · exact .inr before
    · -- every part that mentions the entry leaves it open
      refine .inl ⟨(((sided part partMember).earlier _ listed).resolve_right before).1, ?_⟩
      intro route declared
      rw [allowed]
      intro other otherMember others otherListed
      exact (((sided other otherMember).earlier _ otherListed).resolve_right before).2 declared

theorem Sided.bounding (bounding : Bounding parts whole) (nonempty : parts ≠ [])
    (sided : ∀ part ∈ parts, Sided entries conditionalTargets rank bound part) :
    Sided entries conditionalTargets rank bound whole := by
  obtain ⟨part, partMember⟩ := List.exists_mem_of_ne_nil _ nonempty
  have part_side : ∀ side ∈ whole, ∃ values, (side.1, values) ∈ part ∧ values ⊆ side.2 :=
    bounding.refined partMember
  refine ⟨bounding.distinct, ?_, ?_, ?_⟩
  · intro side member
    obtain ⟨values, listed, narrower⟩ := part_side side member
    intro none
    rw [none] at narrower
    exact (sided part partMember).filled _ listed (List.subset_nil.mp narrower)
  · intro side member route inside
    obtain ⟨other, otherMember, values, listed, allowed⟩ :=
      ((bounding.sides side member).2 route).mp inside
    exact (sided other otherMember).declared _ listed allowed
  · intro side member
    obtain ⟨values, listed, narrower⟩ := part_side side member
    refine ((sided part partMember).earlier _ listed).imp_left (fun entry => ⟨entry.1, ?_⟩)
    intro route declared
    exact narrower (entry.2 declared)

theorem Sided.equivalent {other : RouteRequirements}
    (sided : Sided entries conditionalTargets rank bound whole) (same : Equivalent other whole)
    (distinct : Distinct other) : Sided entries conditionalTargets rank bound other := by
  -- a side of one is a side of the other with the same routes
  have matched : ∀ side ∈ other, ∃ values, (side.1, values) ∈ whole ∧ values ⊆ side.2 ∧
      side.2 ⊆ values := by
    intro side member
    obtain ⟨values, listed, narrower⟩ := same.2 side member
    obtain ⟨back, backListed, wider⟩ := same.1 _ listed
    rw [distinct.unique backListed member] at wider
    exact ⟨values, listed, narrower, wider⟩
  refine ⟨distinct, ?_, ?_, ?_⟩
  · intro side member none
    obtain ⟨values, listed, narrower, -⟩ := matched side member
    rw [none] at narrower
    exact sided.filled _ listed (List.subset_nil.mp narrower)
  · intro side member route inside
    obtain ⟨values, listed, -, wider⟩ := matched side member
    exact sided.declared _ listed (wider inside)
  · intro side member
    obtain ⟨values, listed, narrower, -⟩ := matched side member
    refine (sided.earlier _ listed).imp_left (fun entry => ⟨entry.1, ?_⟩)
    intro route declared
    exact narrower (entry.2 declared)

/-- Asking a source for one route asks at least for an activation of it. -/
theorem sourceRouteRequirements_narrower {source : GraphNodeId} {route : Option GraphRouteId}
    (distinct : Distinct (requirementOf requirements source))
    (selectable : Selectable conditionalTargets source route) :
    Refines (sourceRouteRequirements requirements conditionalTargets source route).requirements
      (sourceRouteRequirements requirements conditionalTargets source none).requirements := by
  by_cases several : (conditionalTargets source).items ≠ []
  · have narrow := sourceRouteRequirements_restricts (show route ≠ none ∨ _ from .inr several)
      distinct
    have wide := sourceRouteRequirements_restricts
      (show (none : Option GraphRouteId) ≠ none ∨ _ from .inr several) distinct
    rintro ⟨key, routes⟩ member
    by_cases same : key = source
    · subst same
      obtain ⟨own, listed⟩ := narrow.restricted
      refine ⟨own, listed, ?_⟩
      intro name inside
      obtain ⟨selected, allowed⟩ := (narrow.allowed own listed name).mp inside
      exact (wide.allowed routes member name).mpr
        ⟨mem_sorted.mpr (selectedRoutes_declared selectable selected), allowed⟩
    · exact ⟨routes, narrow.kept _ (wide.others _ member same) same, fun _ inside => inside⟩
  · rw [not_not] at several
    rw [sourceRouteRequirements_plain several]
    exact sourceRouteRequirements_refines route distinct

end Sides

/-! ## Alternatives -/

/-- A way to activate a node: as an entry, or through one of its gates. -/
def Alternative (entries : List GraphNodeId) (gates : ActivationGates)
    (conditionalTargets : ConditionalTargets)
    (requirements : Dict GraphNodeId RouteRequirementProof) (node : GraphNodeId)
    (base : RouteRequirementProof) : Prop :=
  (node ∈ entries ∧ base = entryRequirements entries conditionalTargets) ∨
    ∃ gate ∈ gates node, gateRouteRequirements requirements conditionalTargets gate = some base

/-- The gate that asks for the values of some nodes. -/
def valueGate (sources : List GraphNodeId) : RawActivationGate :=
  sources.map (fun source => (source, none))

section Alternatives

variable {entries : List GraphNodeId} {gates : ActivationGates}
  {dataDependencies : DataDependencies} {conditionalTargets : ConditionalTargets}
  {requirements : Dict GraphNodeId RouteRequirementProof} {node : GraphNodeId}

theorem mem_alternatives {part : RouteRequirementProof} :
    some part ∈ (if node ∈ entries then [some (entryRequirements entries conditionalTargets)] else []) ++
        (gates node).map (gateRouteRequirements requirements conditionalTargets) ↔
      Alternative entries gates conditionalTargets requirements node part := by
  rw [List.mem_append, List.mem_map, Alternative]
  refine or_congr_left ?_
  by_cases entry : node ∈ entries
  · rw [if_pos entry, List.mem_singleton, Option.some.injEq, and_iff_right entry]
  · rw [if_neg entry]
    exact iff_of_false List.not_mem_nil (fun both => entry both.1)

/-- A node without values to consume has the requirements of its alternatives. -/
theorem mem_activationAlternatives_control (none : dataDependencies node = [])
    {part : RouteRequirementProof} :
    some part ∈ activationAlternatives entries gates dataDependencies conditionalTargets
        requirements node ↔
      Alternative entries gates conditionalTargets requirements node part := by
  unfold activationAlternatives
  rw [if_neg (fun both => both.1 none)]
  exact mem_alternatives

/-- A node that consumes values merges their requirement into each alternative. -/
theorem mem_activationAlternatives_valued (several : dataDependencies node ≠ [])
    {part : RouteRequirementProof} :
    some part ∈ activationAlternatives entries gates dataDependencies conditionalTargets
        requirements node ↔
      ∃ base data, Alternative entries gates conditionalTargets requirements node base ∧
        gateRouteRequirements requirements conditionalTargets
          (valueGate (dataDependencies node)) = some data ∧
        mergeRouteRequirementProofs [base, data] = some part := by
  unfold activationAlternatives
  simp only
  generalize listed : (if node ∈ entries then
    [some (entryRequirements entries conditionalTargets)] else []) ++
      (gates node).map (gateRouteRequirements requirements conditionalTargets) = alternatives
  have members : ∀ base, some base ∈ alternatives ↔
      Alternative entries gates conditionalTargets requirements node base := by
    intro base
    rw [← listed]
    exact mem_alternatives
  simp only [← members]
  by_cases nonempty : alternatives ≠ []
  · rw [if_pos ⟨several, nonempty⟩, List.mem_map]
    constructor
    · rintro ⟨alternative, member, merged⟩
      obtain ⟨base, rfl, bound⟩ := Option.bind_eq_some_iff.mp merged
      obtain ⟨data, found, whole⟩ := Option.bind_eq_some_iff.mp bound
      exact ⟨base, data, member, found, whole⟩
    · rintro ⟨base, data, member, found, merged⟩
      refine ⟨some base, member, ?_⟩
      rw [Option.bind_some, show gateRouteRequirements requirements conditionalTargets
        ((dataDependencies node).map (fun source => (source, none))) = some data from found]
      exact merged
  · rw [not_not] at nonempty
    subst nonempty
    rw [if_neg (fun both => both.2 rfl)]
    refine iff_of_false List.not_mem_nil ?_
    rintro ⟨base, data, member, -⟩
    cases member

end Alternatives

/-! ## The table -/

/-- The table of `_validate_joint_activation_paths` of an accepted definition: each entry is the
summary of its node's alternatives over the table itself, whose gates and values come from nodes of
lower rank; a gate of several sources is satisfiable, and the values are produced by guaranteed
predecessors. -/
structure RouteTable (entries : List GraphNodeId) (gates : ActivationGates)
    (dataDependencies : DataDependencies) (conditionalTargets : ConditionalTargets)
    (guarantees : GraphNodeId → List GraphNodeId)
    (requirements : Dict GraphNodeId RouteRequirementProof) (rank : GraphNodeId → Nat) : Prop where
  once : entries.Nodup
  summary : ∀ node ∈ requirements.keys, alternativeRouteRequirements conditionalTargets
    (activationAlternatives entries gates dataDependencies conditionalTargets requirements node) =
      some (summaryOf requirements node)
  gated : ∀ node ∈ requirements.keys, ∀ gate ∈ gates node, ∀ pair ∈ gate,
    pair.1 ∈ requirements.keys ∧ rank pair.1 < rank node ∧
      Selectable conditionalTargets pair.1 pair.2
  joint : ∀ node ∈ requirements.keys, ∀ gate ∈ gates node, (∃ pair, gate = [pair]) ∨
    gateRouteRequirements requirements conditionalTargets gate ≠ none
  valued : ∀ node ∈ requirements.keys, ∀ source ∈ dataDependencies node,
    rank source < rank node ∧ source ∈ guarantees node
  guaranteed : ∀ node ∈ requirements.keys, ∀ other ∈ guarantees node, other = node ∨
    node ∉ entries ∧ ∀ gate ∈ gates node, ∃ pair ∈ gate, other ∈ guarantees pair.1

/-- What the table says about one node. -/
structure Grounded (entries : List GraphNodeId) (gates : ActivationGates)
    (conditionalTargets : ConditionalTargets) (guarantees : GraphNodeId → List GraphNodeId)
    (requirements : Dict GraphNodeId RouteRequirementProof) (rank : GraphNodeId → Nat)
    (node : GraphNodeId) : Prop where
  sided : Sided entries conditionalTargets rank (rank node) (requirementOf requirements node)
  satisfiable : ∀ gate ∈ gates node, ∃ base,
    gateRouteRequirements requirements conditionalTargets gate = some base
  refines : ∀ other ∈ guarantees node, other ≠ node → Refines (requirementOf requirements node)
    (sourceRouteRequirements requirements conditionalTargets other none).requirements
  summarises : ∃ parts, Summarises conditionalTargets parts (summaryOf requirements node) ∧
    (∀ part ∈ parts, ∃ base, Alternative entries gates conditionalTargets requirements node base ∧
      Equivalent part.requirements base.requirements ∧ (part.exact = true → base.exact = true) ∧
      Distinct part.requirements) ∧
    ∀ base, Alternative entries gates conditionalTargets requirements node base →
      ∃ part ∈ parts, Equivalent part.requirements base.requirements

section Table

variable {entries : List GraphNodeId} {gates : ActivationGates}
  {dataDependencies : DataDependencies} {conditionalTargets : ConditionalTargets}
  {guarantees : GraphNodeId → List GraphNodeId}
  {requirements : Dict GraphNodeId RouteRequirementProof} {rank : GraphNodeId → Nat}
  {node : GraphNodeId}

/-- The parts of a gate's requirement. -/
theorem gateRouteRequirements_eq_some {gate : RawActivationGate} {base : RouteRequirementProof}
    (computed : gateRouteRequirements requirements conditionalTargets gate = some base) :
    Merged (gate.map (fun pair =>
      (sourceRouteRequirements requirements conditionalTargets pair.1 pair.2).requirements))
        base.requirements ∧
      (base.exact = true ↔ ∀ pair ∈ gate, (summaryOf requirements pair.1).exact = true) := by
  obtain ⟨merged, exact⟩ := mergeRouteRequirementProofs_eq_some computed
  rw [List.map_map] at merged
  refine ⟨merged, exact.trans ?_⟩
  rw [List.forall_mem_map]
  refine forall₂_congr (fun pair _ => ?_)
  rw [sourceRouteRequirements_exact]

theorem gateRouteRequirements_exists {gate : RawActivationGate} {finer : RouteRequirements}
    (distinct : Distinct finer) (filled : ∀ side ∈ finer, side.2 ≠ [])
    (refines : ∀ pair ∈ gate, Refines finer
      (sourceRouteRequirements requirements conditionalTargets pair.1 pair.2).requirements) :
    ∃ base, gateRouteRequirements requirements conditionalTargets gate = some base := by
  have parts : ∀ part ∈ (gate.map (fun pair => sourceRouteRequirements requirements
      conditionalTargets pair.1 pair.2)).map RouteRequirementProof.requirements,
      Refines finer part := by
    rw [List.map_map, List.forall_mem_map]
    exact refines
  obtain ⟨whole, merged⟩ := mergeRouteRequirements_exists distinct filled parts
  exact ⟨_, by rw [gateRouteRequirements, mergeRouteRequirementProofs, merged]; rfl⟩

variable (table : RouteTable entries gates dataDependencies conditionalTargets guarantees
  requirements rank)
include table

section Step

variable (known : node ∈ requirements.keys)
  (before : ∀ other ∈ requirements.keys, rank other < rank node →
    Grounded entries gates conditionalTargets guarantees requirements rank other)
  {base : RouteRequirementProof}
include known before

theorem RouteTable.source_sided {gate : RawActivationGate} (member : gate ∈ gates node)
    {pair : GraphNodeId × Option GraphRouteId} (inside : pair ∈ gate) :
    Sided entries conditionalTargets rank (rank node)
      (sourceRouteRequirements requirements conditionalTargets pair.1 pair.2).requirements := by
  obtain ⟨sourceKnown, below, selectable⟩ := table.gated node known gate member pair inside
  exact (before pair.1 sourceKnown below).sided.source selectable below

theorem RouteTable.base_sided
    (alternative : Alternative entries gates conditionalTargets requirements node base) :
    Sided entries conditionalTargets rank (rank node) base.requirements := by
  rcases alternative with ⟨-, rfl⟩ | ⟨gate, member, computed⟩
  · exact sided_entryRequirements table.once
  · refine .merged (gateRouteRequirements_eq_some computed).1 ?_
    rw [List.forall_mem_map]
    intro pair inside
    exact table.source_sided known before member inside

theorem RouteTable.gate_satisfiable {gate : RawActivationGate} (member : gate ∈ gates node) :
    ∃ base, gateRouteRequirements requirements conditionalTargets gate = some base := by
  rcases table.joint node known gate member with ⟨pair, rfl⟩ | satisfiable
  · have sided := table.source_sided known before member (List.mem_singleton.mpr rfl)
    refine gateRouteRequirements_exists sided.distinct sided.filled ?_
    intro other inside
    rw [List.mem_singleton.mp inside]
    exact .refl _
  · exact Option.ne_none_iff_exists'.mp satisfiable

/-- Every alternative requires what activates the guaranteed predecessors. -/
theorem RouteTable.base_refines
    (alternative : Alternative entries gates conditionalTargets requirements node base)
    {other : GraphNodeId} (guaranteed : other ∈ guarantees node) (different : other ≠ node) :
    Refines base.requirements
      (sourceRouteRequirements requirements conditionalTargets other none).requirements := by
  obtain ⟨outside, every⟩ := (table.guaranteed node known other guaranteed).resolve_left different
  obtain ⟨gate, member, computed⟩ := alternative.resolve_left (fun entry => outside entry.1)
  obtain ⟨pair, inside, below⟩ := every gate member
  obtain ⟨sourceKnown, lower, selectable⟩ := table.gated node known gate member pair inside
  have grounded := before pair.1 sourceKnown lower
  have narrower := (gateRouteRequirements_eq_some computed).1.refines
    (List.mem_map.mpr ⟨pair, inside, rfl⟩)
  by_cases same : other = pair.1
  · subst same
    exact narrower.trans (sourceRouteRequirements_narrower grounded.sided.distinct selectable)
  · have summary := narrower.trans (sourceRouteRequirements_refines pair.2 grounded.sided.distinct)
    exact summary.trans (grounded.refines other below same)

/-- Every alternative requires what activates the producers of the consumed values. -/
theorem RouteTable.base_values
    (alternative : Alternative entries gates conditionalTargets requirements node base) :
    ∀ pair ∈ valueGate (dataDependencies node), Refines base.requirements
      (sourceRouteRequirements requirements conditionalTargets pair.1 pair.2).requirements := by
  intro pair inside
  obtain ⟨source, value, rfl⟩ := List.mem_map.mp inside
  obtain ⟨lower, guaranteed⟩ := table.valued node known source value
  refine table.base_refines known before alternative guaranteed ?_
  rintro rfl
  exact lt_irrefl _ lower

/-- The values a node consumes leave the requirement of an alternative as it is. -/
theorem RouteTable.merged_values
    (alternative : Alternative entries gates conditionalTargets requirements node base)
    {data : RouteRequirementProof} (found : gateRouteRequirements requirements conditionalTargets
      (valueGate (dataDependencies node)) = some data) :
    ∃ part, mergeRouteRequirementProofs [base, data] = some part ∧
      Equivalent part.requirements base.requirements ∧ (part.exact = true → base.exact = true) := by
  have sided := table.base_sided known before alternative
  have refined : Refines base.requirements data.requirements := by
    refine (gateRouteRequirements_eq_some found).1.refined sided.distinct ?_
    rw [List.forall_mem_map]
    exact table.base_values known before alternative
  have both : ∀ part ∈ [base.requirements, data.requirements], Refines base.requirements part := by
    intro part member
    rcases List.mem_pair.mp member with rfl | rfl
    · exact .refl _
    · exact refined
  obtain ⟨whole, merges⟩ := mergeRouteRequirements_exists sided.distinct sided.filled both
  have computed : mergeRouteRequirementProofs [base, data] =
      some ⟨whole, [base, data].all RouteRequirementProof.exact⟩ := by
    rw [mergeRouteRequirementProofs, show [base, data].map RouteRequirementProof.requirements =
      [base.requirements, data.requirements] from rfl, merges]
    rfl
  obtain ⟨merged, exact⟩ := mergeRouteRequirementProofs_eq_some computed
  exact ⟨_, computed, ⟨merged.refines List.mem_cons_self, merged.refined sided.distinct both⟩,
    fun all => exact.mp all base List.mem_cons_self⟩

/-- The alternatives of the table are those of the entries and the gates. -/
theorem RouteTable.parts :
    (∀ part, some part ∈ activationAlternatives entries gates dataDependencies conditionalTargets
        requirements node →
      ∃ base, Alternative entries gates conditionalTargets requirements node base ∧
        Equivalent part.requirements base.requirements ∧
        (part.exact = true → base.exact = true) ∧ Distinct part.requirements) ∧
    ∀ base, Alternative entries gates conditionalTargets requirements node base →
      ∃ part, some part ∈ activationAlternatives entries gates dataDependencies conditionalTargets
        requirements node ∧ Equivalent part.requirements base.requirements := by
  by_cases none : dataDependencies node = []
  · simp only [mem_activationAlternatives_control none]
    constructor
    · intro part alternative
      exact ⟨part, alternative, .refl _, id, (table.base_sided known before alternative).distinct⟩
    · intro base alternative
      exact ⟨base, alternative, .refl _⟩
  · simp only [mem_activationAlternatives_valued none]
    constructor
    · rintro part ⟨base, data, alternative, found, merges⟩
      obtain ⟨whole, computed, same, exact⟩ :=
        table.merged_values known before alternative found
      obtain rfl := Option.some.inj (computed.symm.trans merges)
      exact ⟨base, alternative, same, exact,
        (mergeRouteRequirementProofs_eq_some merges).1.distinct⟩
    · intro base alternative
      have sided := table.base_sided known before alternative
      obtain ⟨data, found⟩ := gateRouteRequirements_exists sided.distinct sided.filled
        (table.base_values known before alternative)
      obtain ⟨part, computed, same, -⟩ := table.merged_values known before alternative found
      exact ⟨part, ⟨base, data, alternative, found, computed⟩, same⟩

end Step

/-- Every summary of the table is grounded in the summaries before it. -/
theorem RouteTable.grounded (known : node ∈ requirements.keys) :
    Grounded entries gates conditionalTargets guarantees requirements rank node := by
  induction place : rank node using Nat.strong_induction_on generalizing node with
  | _ _ ih =>
      have before : ∀ other ∈ requirements.keys, rank other < rank node →
          Grounded entries gates conditionalTargets guarantees requirements rank other := by
        intro other otherKnown lower
        exact ih (rank other) (place ▸ lower) otherKnown rfl
      obtain ⟨sound, complete⟩ := table.parts known before
      have member : ∀ part, part ∈ (activationAlternatives entries gates dataDependencies
          conditionalTargets requirements node).filterMap id ↔ some part ∈ activationAlternatives
            entries gates dataDependencies conditionalTargets requirements node := by
        intro part
        simp [List.mem_filterMap]
      have summarises := alternativeRouteRequirements_eq_some (by
        intro part inside
        obtain ⟨-, -, -, -, distinct⟩ := sound part ((member part).mp inside)
        exact distinct) (table.summary node known)
      have parted : ∀ part ∈ ((activationAlternatives entries gates dataDependencies
          conditionalTargets requirements node).filterMap id).map RouteRequirementProof.requirements,
          ∃ base, Alternative entries gates conditionalTargets requirements node base ∧
            Equivalent part base.requirements ∧ Distinct part := by
        rw [List.forall_mem_map]
        intro part inside
        obtain ⟨base, alternative, same, -, distinct⟩ := sound part ((member part).mp inside)
        exact ⟨base, alternative, same, distinct⟩
      refine ⟨?_, ?_, ?_, _, summarises, ?_, ?_⟩
      · refine .bounding summarises.bounding (fun none => summarises.nonempty
          (List.map_eq_nil_iff.mp none)) ?_
        intro part inside
        obtain ⟨base, alternative, same, distinct⟩ := parted part inside
        exact (table.base_sided known before alternative).equivalent same distinct
      · intro gate inside
        exact table.gate_satisfiable known before inside
      · intro other guaranteed different
        refine summarises.bounding.refines (fun part inside => ?_) ?_
        · obtain ⟨-, -, -, distinct⟩ := parted part inside
          exact distinct
        · intro part inside
          obtain ⟨base, alternative, same, -⟩ := parted part inside
          exact same.1.trans (table.base_refines known before alternative guaranteed different)
      · intro part inside
        exact sound part ((member part).mp inside)
      · intro base alternative
        obtain ⟨part, listed, same⟩ := complete base alternative
        exact ⟨part, (member part).mpr listed, same⟩

/-- A predicate that the sources of a node's gates inherit. -/
def Inherited (gates : ActivationGates) (requirements : Dict GraphNodeId RouteRequirementProof)
    (P : GraphNodeId → Prop) : Prop :=
  ∀ node ∈ requirements.keys, P node → ∀ gate ∈ gates node, ∀ pair ∈ gate, P pair.1

/-- The sides of an exact requirement are entries or have exact summaries that it implies. -/
def ExactSides (entries : List GraphNodeId) (requirements : Dict GraphNodeId RouteRequirementProof)
    (P : GraphNodeId → Prop) (rectangle : RouteRequirements) : Prop :=
  ∀ side ∈ rectangle, side.1 ∈ entries ∨ ((summaryOf requirements side.1).exact = true ∧
    P side.1 ∧ Refines rectangle (requirementOf requirements side.1))

omit table in
theorem mem_keys_of_exact (exact : (summaryOf requirements node).exact = true) :
    node ∈ requirements.keys := by
  by_contra missing
  rw [summaryOf, (requirements.get?_eq_none node).mpr missing] at exact
  cases exact

omit table in
/-- Finer rectangles with the same sources inherit exact sides. -/
theorem ExactSides.finer {P : GraphNodeId → Prop} {finer coarser : RouteRequirements}
    (exact : ExactSides entries requirements P coarser) (refines : Refines finer coarser)
    (sources : ∀ side ∈ finer, ∃ values, (side.1, values) ∈ coarser) :
    ExactSides entries requirements P finer := by
  intro side member
  obtain ⟨values, listed⟩ := sources side member
  refine (exact _ listed).imp_right ?_
  rintro ⟨summary, inherits, narrower⟩
  exact ⟨summary, inherits, refines.trans narrower⟩

theorem RouteTable.exact_sides {P : GraphNodeId → Prop} (inherited : Inherited gates requirements P)
    (exact : (summaryOf requirements node).exact = true) (holds : P node) :
    ExactSides entries requirements P (requirementOf requirements node) ∧
      ∀ base, Alternative entries gates conditionalTargets requirements node base →
        base.exact = true → ExactSides entries requirements P base.requirements := by
  induction place : rank node using Nat.strong_induction_on generalizing node with
  | _ _ ih =>
      have known := mem_keys_of_exact exact
      have grounded := table.grounded known
      -- the requirement of an exact alternative
      have bases : ∀ base, Alternative entries gates conditionalTargets requirements node base →
          base.exact = true → ExactSides entries requirements P base.requirements := by
        rintro base (⟨-, rfl⟩ | ⟨gate, member, computed⟩) baseExact side inside
        · obtain ⟨entry, listed, rfl⟩ := List.mem_map.mp inside
          exact .inl (List.mem_filter.mp listed).1
        · obtain ⟨merged, exactness⟩ := gateRouteRequirements_eq_some computed
          obtain ⟨-, ⟨part, partMember, values, listed⟩, -⟩ := merged.sides side inside
          obtain ⟨pair, pairInside, rfl⟩ := List.mem_map.mp partMember
          obtain ⟨sourceKnown, lower, -⟩ := table.gated node known gate member pair pairInside
          have sourceExact := exactness.mp baseExact pair pairInside
          have sourceHolds := inherited node known holds gate member pair pairInside
          have distinct := (table.grounded sourceKnown).sided.distinct
          have narrower := (merged.refines partMember).trans
            (sourceRouteRequirements_refines pair.2 distinct)
          rcases mem_sourceRouteRequirements distinct listed with same | own
          · rw [same]
            exact .inr ⟨sourceExact, sourceHolds, narrower⟩
          · refine ((ih (rank pair.1) (place ▸ lower) sourceExact sourceHolds rfl).1 _ own).imp_right ?_
            rintro ⟨summary, inherits, further⟩
            exact ⟨summary, inherits, narrower.trans further⟩
      refine ⟨?_, bases⟩
      obtain ⟨parts, summarises, sound, -⟩ := grounded.summarises
      intro side member
      by_cases entry : side.1 ∈ entries
      · exact .inl entry
      · -- every alternative restricts the source, and implies its exact summary
        have every : ∀ part ∈ parts, (summaryOf requirements side.1).exact = true ∧ P side.1 ∧
            Refines part.requirements (requirementOf requirements side.1) := by
          intro part inside
          obtain ⟨base, alternative, same, exactness, -⟩ := sound part inside
          have baseSides := bases base alternative
            (exactness (summarises.exact exact part inside))
          obtain ⟨values, listed⟩ := (summarises.bounding.sides side member).1 part.requirements
            (List.mem_map.mpr ⟨part, inside, rfl⟩)
          obtain ⟨baseValues, baseListed, -⟩ := same.2 _ listed
          obtain ⟨summary, inherits, narrower⟩ := (baseSides _ baseListed).resolve_left entry
          exact ⟨summary, inherits, same.1.trans narrower⟩
        obtain ⟨first, firstMember⟩ := List.exists_mem_of_ne_nil _ summarises.nonempty
        obtain ⟨summary, inherits, -⟩ := every first firstMember
        refine .inr ⟨summary, inherits, summarises.bounding.refines ?_ ?_⟩
        · rw [List.forall_mem_map]
          intro part inside
          obtain ⟨-, -, -, -, distinct⟩ := sound part inside
          exact distinct
        · rw [List.forall_mem_map]
          intro part inside
          exact (every part inside).2.2

end Table

end MoteKernel
