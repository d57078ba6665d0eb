import MoteKernel.Execution.RouteSummaries
import MoteKernel.Execution.JoinSchedule

/-!
# Route requirements in a run

What the summaries say about a run: an activated node has its requirement met by
the routes the run selected, and a node whose summary is exact is activated when
its requirement is met. Both go by induction along the order of the nodes; the
second needs that a node is activated as soon as one of its gates is passed.
-/

namespace MoteKernel
open Checked Canonical Rectangle

/-! ## Outcomes -/

/-- What a run did: the nodes it activated, with the routes they selected. -/
structure Outcome (entries : List GraphNodeId) (conditionalTargets : ConditionalTargets)
    (activated : GraphNodeId → Prop) (selected : GraphNodeId → GraphRouteId → Prop) : Prop where
  entered : ∀ entry ∈ entries, activated entry
  selects : ∀ node, activated node → (conditionalTargets node).items ≠ [] →
    ∃ route ∈ (conditionalTargets node).keys, selected node route
  active : ∀ node route, selected node route → activated node

/-- The run passed one source of a gate. -/
def Passed (activated : GraphNodeId → Prop) (selected : GraphNodeId → GraphRouteId → Prop)
    (pair : GraphNodeId × Option GraphRouteId) : Prop :=
  activated pair.1 ∧ ∀ route, pair.2 = some route → selected pair.1 route

theorem passed_none {activated : GraphNodeId → Prop} {selected : GraphNodeId → GraphRouteId → Prop}
    {source : GraphNodeId} (here : activated source) :
    Passed activated selected (source, none) := by
  refine ⟨here, ?_⟩
  intro route wrong
  cases wrong

/-- The parts of a gate agree on the sources they share. -/
def Coherent (requirements : Dict GraphNodeId RouteRequirementProof)
    (conditionalTargets : ConditionalTargets) (gate : RawActivationGate) : Prop :=
  ∀ base, gateRouteRequirements requirements conditionalTargets gate = some base →
    ∀ side ∈ base.requirements, ∃ pair ∈ gate, ∃ values, (side.1, values) ∈
      (sourceRouteRequirements requirements conditionalTargets pair.1 pair.2).requirements ∧
        values ⊆ side.2

section Outcomes

variable {entries : List GraphNodeId} {gates : ActivationGates}
  {dataDependencies : DataDependencies} {conditionalTargets : ConditionalTargets}
  {guarantees : GraphNodeId → List GraphNodeId}
  {requirements : Dict GraphNodeId RouteRequirementProof} {rank : GraphNodeId → Nat}
  {node : GraphNodeId} {activated : GraphNodeId → Prop}
  {selected : GraphNodeId → GraphRouteId → Prop}
  (outcome : Outcome entries conditionalTargets activated selected)
include outcome

theorem Outcome.source_meets {source : GraphNodeId} {route : Option GraphRouteId}
    (sided : Sided entries conditionalTargets rank (rank source) (requirementOf requirements source))
    (selectable : Selectable conditionalTargets source route)
    (passed : Passed activated selected (source, route))
    (meets : Meets selected (requirementOf requirements source)) :
    Meets selected
      (sourceRouteRequirements requirements conditionalTargets source route).requirements := by
  by_cases routed : route ≠ none ∨ (conditionalTargets source).items ≠ []
  · have restricts := sourceRouteRequirements_restricts routed sided.distinct
    rintro ⟨key, routes⟩ member
    by_cases same : key = source
    · subst same
      -- the route the source selected is open
      have open_route : ∃ name ∈ selectedRoutes conditionalTargets key route, selected key name := by
        cases route with
        | some name => exact ⟨name, List.mem_singleton.mpr rfl, passed.2 name rfl⟩
        | none =>
            obtain ⟨name, declared, chosen⟩ := outcome.selects key passed.1
              (routed.resolve_left (fun wrong => wrong rfl))
            exact ⟨name, mem_sorted.mpr declared, chosen⟩
      obtain ⟨name, allowed, chosen⟩ := open_route
      refine ⟨name, (restricts.allowed routes member name).mpr ⟨allowed, ?_⟩, chosen⟩
      intro existing listed
      exact sided.own listed (selectedRoutes_declared selectable allowed)
    · exact meets _ (restricts.others _ member same)
  · rw [not_or, not_not, not_not] at routed
    obtain ⟨rfl, plain⟩ := routed
    rw [sourceRouteRequirements_plain plain]
    exact meets

omit outcome in
/-- A met requirement of a source selects the route it asks for. -/
theorem selected_of_meets {source : GraphNodeId} {route : GraphRouteId}
    (distinct : Distinct (requirementOf requirements source))
    (meets : Meets selected
      (sourceRouteRequirements requirements conditionalTargets source (some route)).requirements) :
    selected source route := by
  have restricts := sourceRouteRequirements_restricts
    (show some route ≠ none ∨ (conditionalTargets source).items ≠ [] from .inl (by simp)) distinct
  obtain ⟨routes, listed⟩ := restricts.restricted
  obtain ⟨name, inside, chosen⟩ := meets _ listed
  obtain rfl := List.mem_singleton.mp ((restricts.allowed routes listed name).mp inside).1
  exact chosen

theorem Outcome.entries_meet :
    Meets selected (entryRequirements entries conditionalTargets).requirements := by
  intro side member
  obtain ⟨entry, inside, rfl⟩ := List.mem_map.mp member
  rw [List.mem_filter, decide_eq_true_eq] at inside
  obtain ⟨route, declared, chosen⟩ := outcome.selects entry (outcome.entered entry inside.1) inside.2
  exact ⟨route, mem_sorted.mpr declared, chosen⟩

/-- An active node selects a route of a side that leaves all its routes open. -/
theorem Outcome.selects_side {side : GraphNodeId × List GraphRouteId} (here : activated side.1)
    (filled : side.2 ≠ []) (declared : side.2 ⊆ (conditionalTargets side.1).keys)
    (covers : (conditionalTargets side.1).keys ⊆ side.2) :
    ∃ route ∈ side.2, selected side.1 route := by
  have several : (conditionalTargets side.1).items ≠ [] := by
    intro none
    rw [Dict.keys, none] at declared
    exact filled (List.subset_nil.mp declared)
  obtain ⟨route, inside, chosen⟩ := outcome.selects side.1 here several
  exact ⟨route, covers inside, chosen⟩

variable (table : RouteTable entries gates dataDependencies conditionalTargets guarantees
  requirements rank)
include table

/-- An activated node has its requirement met. -/
theorem Outcome.meets
    (caused : ∀ node ∈ requirements.keys, activated node → node ∈ entries ∨
      ∃ gate ∈ gates node, ∀ pair ∈ gate, Passed activated selected pair)
    (coherent : ∀ node ∈ requirements.keys, ∀ gate ∈ gates node,
      Coherent requirements conditionalTargets gate)
    (known : node ∈ requirements.keys) (here : activated node) :
    Meets selected (requirementOf requirements node) := by
  induction place : rank node using Nat.strong_induction_on generalizing node with
  | _ _ ih =>
      have grounded := table.grounded known
      -- the requirement of the way the node was activated
      have way : ∃ base, Alternative entries gates conditionalTargets requirements node base ∧
          Meets selected base.requirements := by
        rcases caused node known here with entry | ⟨gate, member, passed⟩
        · exact ⟨_, .inl ⟨entry, rfl⟩, outcome.entries_meet⟩
        · obtain ⟨base, computed⟩ := grounded.satisfiable gate member
          refine ⟨base, .inr ⟨gate, member, computed⟩, ?_⟩
          intro side inside
          obtain ⟨pair, pairInside, values, listed, narrower⟩ :=
            coherent node known gate member base computed side inside
          obtain ⟨sourceKnown, lower, selectable⟩ := table.gated node known gate member pair pairInside
          have source := outcome.source_meets (table.grounded sourceKnown).sided selectable
            (passed pair pairInside)
            (ih (rank pair.1) (place ▸ lower) sourceKnown (passed pair pairInside).1 rfl)
          obtain ⟨route, allowed, chosen⟩ := source _ listed
          exact ⟨route, narrower allowed, chosen⟩
      obtain ⟨base, alternative, meets⟩ := way
      obtain ⟨parts, summarises, -, complete⟩ := grounded.summarises
      obtain ⟨part, inside, same⟩ := complete base alternative
      have refined := summarises.bounding.refined (List.mem_map.mpr ⟨part, inside, rfl⟩)
      exact (meets.coarser same.2).coarser refined

/-- What meets the kept sides of one alternative of an exact summary meets all its sides: a dropped
side leaves every route open at a source that its own exact summary activates. -/
theorem Outcome.meets_dropped {P : GraphNodeId → Prop} {part : RouteRequirements} {bound : Nat}
    (sided : Sided entries conditionalTargets rank bound part)
    (exact : ExactSides entries requirements P part)
    (before : ∀ other, rank other < bound → (summaryOf requirements other).exact = true → P other →
      Meets selected (requirementOf requirements other) → activated other)
    (kept : ∀ side ∈ part, (∃ route ∈ side.2, selected side.1 route) ∨
      side.2 = sorted (conditionalTargets side.1).keys) : Meets selected part := by
  intro side member
  induction place : rank side.1 using Nat.strong_induction_on generalizing side with
  | _ _ ih =>
      rcases kept side member with held | exhaustive
      · exact held
      · refine outcome.selects_side ?_ (sided.filled side member) (sided.declared side member) ?_
        · rcases exact side member with entry | ⟨summary, inherits, narrower⟩
          · exact outcome.entered side.1 entry
          · rcases sided.earlier side member with ⟨entry, -⟩ | lower
            · exact outcome.entered side.1 entry
            · -- the source's own requirement is met by earlier sides of the alternative
              have own := (table.grounded (mem_keys_of_exact summary)).sided
              refine before side.1 lower summary inherits ?_
              intro inner innerMember
              rcases own.earlier inner innerMember with ⟨entry, covers⟩ | earlier
              · exact outcome.selects_side (outcome.entered inner.1 entry)
                  (own.filled inner innerMember) (own.declared inner innerMember) covers
              · obtain ⟨values, listed, wider⟩ := narrower inner innerMember
                obtain ⟨route, inside, chosen⟩ := ih (rank inner.1) (place ▸ earlier) _ listed rfl
                exact ⟨route, wider inside, chosen⟩
        · intro route declared
          rw [exhaustive]
          exact mem_sorted.mpr declared

/-- A node whose requirement is exact and met is activated. -/
theorem Outcome.activated_of_meets {P : GraphNodeId → Prop}
    (inherited : Inherited gates requirements P)
    (fires : ∀ node ∈ requirements.keys, P node → ∀ gate ∈ gates node,
      (∀ pair ∈ gate, Passed activated selected pair) → activated node)
    (exact : (summaryOf requirements node).exact = true) (holds : P node)
    (meets : Meets selected (requirementOf requirements node)) : activated node := by
  induction place : rank node using Nat.strong_induction_on generalizing node with
  | _ _ ih =>
      have known := mem_keys_of_exact exact
      have grounded := table.grounded known
      obtain ⟨parts, summarises, sound, -⟩ := grounded.summarises
      have distinct : ∀ part ∈ parts.map RouteRequirementProof.requirements, Distinct part := by
        rw [List.forall_mem_map]
        intro part inside
        obtain ⟨-, -, -, -, distinct⟩ := sound part inside
        exact distinct
      -- one alternative whose kept sides are met
      obtain ⟨_, member, kept⟩ := summarises.bounding.choose
        (fun none => summarises.nonempty (List.map_eq_nil_iff.mp none)) distinct
        (summarises.rigid exact) meets
      obtain ⟨part, inside, rfl⟩ := List.mem_map.mp member
      obtain ⟨base, alternative, same, exactness, partDistinct⟩ := sound part inside
      have baseExact := exactness (summarises.exact exact part inside)
      have sided := (table.base_sided known (fun other otherKnown _ => table.grounded otherKnown)
        alternative).equivalent same partDistinct
      have sides : ExactSides entries requirements P part.requirements := by
        refine ((table.exact_sides inherited exact holds).2 base alternative baseExact).finer same.1 ?_
        intro side listed
        obtain ⟨values, baseListed, -⟩ := same.2 side listed
        exact ⟨values, baseListed⟩
      have partMeets : Meets selected part.requirements := by
        refine outcome.meets_dropped table sided sides ?_ ?_
        · intro other lower otherExact otherHolds otherMeets
          exact ih (rank other) (place ▸ lower) otherExact otherHolds otherMeets rfl
        · intro side listed
          exact (summarises.dropped exact part inside side listed).imp_left (kept side listed)
      have baseMeets := partMeets.coarser same.1
      rcases alternative with ⟨entry, -⟩ | ⟨gate, gateMember, computed⟩
      · exact outcome.entered node entry
      · obtain ⟨merged, sources⟩ := gateRouteRequirements_eq_some computed
        refine fires node known holds gate gateMember ?_
        intro pair pairInside
        obtain ⟨sourceKnown, lower, -⟩ := table.gated node known gate gateMember pair pairInside
        have sourceDistinct := (table.grounded sourceKnown).sided.distinct
        have sourceMeets := baseMeets.coarser
          (merged.refines (List.mem_map.mpr ⟨pair, pairInside, rfl⟩))
        constructor
        · exact ih (rank pair.1) (place ▸ lower) (sources.mp baseExact pair pairInside)
            (inherited node known holds gate gateMember pair pairInside)
            (sourceMeets.coarser (sourceRouteRequirements_refines pair.2 sourceDistinct)) rfl
        · intro route asked
          rw [asked] at sourceMeets
          exact selected_of_meets sourceDistinct sourceMeets

end Outcomes

/-! ## Coherent gates -/

section Coherence

variable {entries : List GraphNodeId} {gates : ActivationGates}
  {dataDependencies : DataDependencies} {conditionalTargets : ConditionalTargets}
  {guarantees : GraphNodeId → List GraphNodeId}
  {requirements : Dict GraphNodeId RouteRequirementProof} {rank : GraphNodeId → Nat}
  {gate : RawActivationGate}

/-- A gate is coherent when one of its parts is the narrowest at each source. -/
theorem coherent_of_narrowest
    (narrowest : ∀ key, (∃ pair ∈ gate, ∃ values, (key, values) ∈
        (sourceRouteRequirements requirements conditionalTargets pair.1 pair.2).requirements) →
      ∃ pair ∈ gate, ∃ values, (key, values) ∈
        (sourceRouteRequirements requirements conditionalTargets pair.1 pair.2).requirements ∧
        ∀ other ∈ gate, ∀ wider, (key, wider) ∈
          (sourceRouteRequirements requirements conditionalTargets other.1 other.2).requirements →
          values ⊆ wider) : Coherent requirements conditionalTargets gate := by
  intro base computed side member
  obtain ⟨-, ⟨part, partMember, values, listed⟩, allowed⟩ :=
    (gateRouteRequirements_eq_some computed).1.sides side member
  obtain ⟨pair, inside, rfl⟩ := List.mem_map.mp partMember
  obtain ⟨narrow, narrowInside, least, leastListed, below⟩ :=
    narrowest side.1 ⟨pair, inside, values, listed⟩
  refine ⟨narrow, narrowInside, least, leastListed, ?_⟩
  intro route here
  rw [allowed, List.forall_mem_map]
  intro other otherInside wider otherListed
  exact below other otherInside wider otherListed here

/-- A gate whose sources have one requirement is coherent. -/
theorem coherent_of_same (distinct : ∀ pair ∈ gate, Distinct
      (sourceRouteRequirements requirements conditionalTargets pair.1 pair.2).requirements)
    (same : ∀ pair ∈ gate, ∀ other ∈ gate,
      sourceRouteRequirements requirements conditionalTargets pair.1 pair.2 =
        sourceRouteRequirements requirements conditionalTargets other.1 other.2) :
    Coherent requirements conditionalTargets gate := by
  apply coherent_of_narrowest
  rintro key ⟨pair, inside, values, listed⟩
  refine ⟨pair, inside, values, listed, ?_⟩
  intro other otherInside wider otherListed
  rw [← same pair inside other otherInside] at otherListed
  rw [(distinct pair inside).unique listed otherListed]
  exact fun _ here => here

/-- The nodes of one cohort have the same alternatives. -/
theorem alternative_cohort {a b : GraphNodeId}
    (cohort : activationCohortSignature entries gates a = activationCohortSignature entries gates b)
    {base : RouteRequirementProof}
    (alternative : Alternative entries gates conditionalTargets requirements a base) :
    Alternative entries gates conditionalTargets requirements b base := by
  obtain ⟨flag, sorts⟩ := Prod.mk.inj cohort
  rw [decide_eq_decide] at flag
  rcases alternative with ⟨entry, rfl⟩ | ⟨gate, member, computed⟩
  · exact .inl ⟨flag.mp entry, rfl⟩
  · refine .inr ⟨gate, ?_, computed⟩
    rw [← List.mem_insertionSort (r := fun a b => a.map gateSourceKey ≤ b.map gateSourceKey)] at member ⊢
    rwa [← sorts]

variable (table : RouteTable entries gates dataDependencies conditionalTargets guarantees
  requirements rank)
include table

/-- The nodes of one cohort have the same requirement. -/
theorem RouteTable.cohort_refines {a b : GraphNodeId} (knownA : a ∈ requirements.keys)
    (knownB : b ∈ requirements.keys)
    (cohort : activationCohortSignature entries gates a = activationCohortSignature entries gates b) :
    Refines (requirementOf requirements a) (requirementOf requirements b) := by
  obtain ⟨partsA, summarisesA, soundA, -⟩ := (table.grounded knownA).summarises
  obtain ⟨partsB, summarisesB, -, completeB⟩ := (table.grounded knownB).summarises
  refine summarisesA.bounding.refines ?_ ?_
  · rw [List.forall_mem_map]
    intro part inside
    obtain ⟨-, -, -, -, distinct⟩ := soundA part inside
    exact distinct
  · rw [List.forall_mem_map]
    intro part inside
    obtain ⟨base, alternative, same, -⟩ := soundA part inside
    obtain ⟨other, otherInside, otherSame⟩ := completeB base (alternative_cohort cohort alternative)
    exact (same.1.trans otherSame.2).trans
      (summarisesB.bounding.refined (List.mem_map.mpr ⟨other, otherInside, rfl⟩))

/-- A gate of one cohort is coherent. -/
theorem RouteTable.cohort_coherent {sources : List GraphNodeId}
    (known : ∀ source ∈ sources, source ∈ requirements.keys)
    (cohort : ∀ a ∈ sources, ∀ b ∈ sources,
      activationCohortSignature entries gates a = activationCohortSignature entries gates b) :
    Coherent requirements conditionalTargets (valueGate sources) := by
  have sided : ∀ source ∈ sources, Sided entries conditionalTargets rank (rank source + 1)
      (sourceRouteRequirements requirements conditionalTargets source none).requirements := by
    intro source inside
    exact (table.grounded (known source inside)).sided.source (selectable_none source)
      (Nat.lt_succ_self _)
  have parts : ∀ pair ∈ valueGate sources, pair.1 ∈ sources ∧ pair.2 = none := by
    intro pair inside
    obtain ⟨source, member, rfl⟩ := List.mem_map.mp inside
    exact ⟨member, rfl⟩
  apply coherent_of_narrowest
  rintro key ⟨pair, inside, values, listed⟩
  obtain ⟨member, continues⟩ := parts pair inside
  rw [continues] at listed
  by_cases own : key ∈ sources
  · -- a source of the gate itself: the other sources leave it open
    have distinct := (table.grounded (known key own)).sided.distinct
    have several : (conditionalTargets key).items ≠ [] := by
      intro none
      have declared := (sided pair.1 member).declared _ listed
      rw [Dict.keys, none] at declared
      exact (sided pair.1 member).filled _ listed (List.subset_nil.mp declared)
    have restricts := sourceRouteRequirements_restricts
      (show (none : Option GraphRouteId) ≠ none ∨ _ from .inr several) distinct
    obtain ⟨routes, here⟩ := restricts.restricted
    refine ⟨(key, none), List.mem_map.mpr ⟨key, own, rfl⟩, routes, here, ?_⟩
    intro other otherInside wider otherListed name allowed
    obtain ⟨otherMember, otherContinues⟩ := parts other otherInside
    rw [otherContinues] at otherListed
    by_cases same : other.1 = key
    · rw [same] at otherListed
      rwa [restricts.distinct.unique otherListed here]
    · have otherDistinct := (table.grounded (known other.1 otherMember)).sided.distinct
      have inner := (mem_sourceRouteRequirements otherDistinct otherListed).resolve_left
        (fun wrong => same wrong.symm)
      obtain ⟨existing, existingListed, below⟩ := table.cohort_refines (known key own)
        (known other.1 otherMember) (cohort key own other.1 otherMember) _ inner
      exact below (((restricts.allowed routes here name).mp allowed).2 existing existingListed)
  · have inner : ∀ source ∈ sources, ∀ wider, (key, wider) ∈
        (sourceRouteRequirements requirements conditionalTargets source none).requirements →
        (key, wider) ∈ requirementOf requirements source := by
      intro source sourceMember wider sourceListed
      refine (mem_sourceRouteRequirements
        (table.grounded (known source sourceMember)).sided.distinct sourceListed).resolve_left ?_
      rintro rfl
      exact own sourceMember
    refine ⟨pair, inside, values, continues ▸ listed, ?_⟩
    intro other otherInside wider otherListed
    obtain ⟨otherMember, otherContinues⟩ := parts other otherInside
    rw [otherContinues] at otherListed
    obtain ⟨existing, existingListed, below⟩ := table.cohort_refines (known pair.1 member)
      (known other.1 otherMember) (cohort pair.1 member other.1 otherMember) _
      (inner other.1 otherMember wider otherListed)
    have distinct := (table.grounded (known pair.1 member)).sided.distinct
    rw [distinct.unique existingListed (inner pair.1 member values listed)] at below
    exact below

end Coherence

end MoteKernel
