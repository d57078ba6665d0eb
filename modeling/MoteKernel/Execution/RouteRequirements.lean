import MoteKernel.Lib.Rectangle
import MoteKernel.Execution.CompiledControl

/-!
# Route requirements

What the functions of the route requirements compute: a merge is the intersection
of its parts, a summary of alternatives is their bounding rectangle, and it is
exact only when the alternatives are exact, vary in at most one kept source, and
drop no real restriction.
-/

namespace MoteKernel
open Checked Canonical Rectangle

/-! ## Merges -/

section Merge

variable {entries : List (GraphNodeId × List GraphRouteId)}
  {d merged : Dict GraphNodeId (List GraphRouteId)}

theorem mergeRoutes_eq_some {entry : GraphNodeId × List GraphRouteId}
    (added : mergeRoutes d entry = some merged) : ∃ compatible, compatible ≠ [] ∧
      merged = d.set entry.1 compatible ∧ ∀ route, route ∈ compatible ↔
        (∀ existing, d.get? entry.1 = some existing → route ∈ existing) ∧ route ∈ entry.2 := by
  unfold mergeRoutes at added
  cases found : d.get? entry.1 with
  | none =>
      rw [found] at added
      simp only [Option.ite_none_left_eq_some, Option.some.injEq] at added
      obtain ⟨nonempty, rfl⟩ := added
      exact ⟨entry.2, nonempty, rfl, by simp⟩
  | some existing =>
      rw [found] at added
      simp only [Option.ite_none_left_eq_some, Option.some.injEq] at added
      obtain ⟨nonempty, rfl⟩ := added
      exact ⟨_, nonempty, rfl, by simp⟩

theorem foldlM_mergeRoutes (folded : entries.foldlM mergeRoutes d = some merged)
    (filled : ∀ key values, d.get? key = some values → values ≠ []) :
    (∀ key, (∃ values, merged.get? key = some values) ↔
      (∃ values, d.get? key = some values) ∨ ∃ values, (key, values) ∈ entries) ∧
    ∀ key values, merged.get? key = some values → values ≠ [] ∧ ∀ route, route ∈ values ↔
      (∀ existing, d.get? key = some existing → route ∈ existing) ∧
        ∀ other, (key, other) ∈ entries → route ∈ other := by
  induction entries generalizing d with
  | nil =>
      obtain rfl := Option.some.inj folded
      refine ⟨by simp, ?_⟩
      intro key values found
      refine ⟨filled key values found, fun route => ?_⟩
      simp [found]
  | cons entry entries ih =>
      rw [List.foldlM_cons, Option.bind_eq_bind, Option.bind_eq_some_iff] at folded
      obtain ⟨next, added, rest⟩ := folded
      obtain ⟨compatible, nonempty, rfl, allowed⟩ := mergeRoutes_eq_some added
      have here : ∀ key values, (d.set entry.1 compatible).get? key = some values →
          values ≠ [] := by
        intro key values found
        rw [Dict.get?_set] at found
        split at found
        · cases found
          exact nonempty
        · exact filled key values found
      obtain ⟨keys, sides⟩ := ih rest here
      constructor
      · intro key
        rw [keys, Dict.get?_set]
        obtain ⟨entryKey, entryValues⟩ := entry
        by_cases same : key = entryKey
        · subst same
          simp only [if_true]
          exact iff_of_true (.inl ⟨_, rfl⟩) (.inr ⟨entryValues, List.mem_cons_self⟩)
        · rw [if_neg same]
          simp only [List.mem_cons, Prod.mk.injEq, same, false_and, false_or]
      · intro key values found
        obtain ⟨nonempty', values'⟩ := sides key values found
        refine ⟨nonempty', fun route => ?_⟩
        rw [values', Dict.get?_set]
        obtain ⟨entryKey, entryValues⟩ := entry
        by_cases same : key = entryKey
        · subst same
          simp only [if_true, Option.some.injEq, forall_eq', allowed, List.mem_cons, Prod.mk.injEq,
            true_and, forall_eq_or_imp]
          exact and_assoc
        · rw [if_neg same]
          simp only [List.mem_cons, Prod.mk.injEq, same, false_and, false_or]

/-- Parts with a common refinement can be merged. -/
theorem foldlM_mergeRoutes_exists (finer : GraphNodeId → List GraphRouteId)
    (below : ∀ entry ∈ entries, finer entry.1 ≠ [] ∧ finer entry.1 ⊆ entry.2)
    (start : ∀ key values, d.get? key = some values → finer key ⊆ values) :
    ∃ merged, entries.foldlM mergeRoutes d = some merged := by
  induction entries generalizing d with
  | nil => exact ⟨d, rfl⟩
  | cons entry entries ih =>
      obtain ⟨nonempty, narrower⟩ := below entry List.mem_cons_self
      have added : ∃ compatible, mergeRoutes d entry = some (d.set entry.1 compatible) ∧
          finer entry.1 ⊆ compatible := by
        unfold mergeRoutes
        cases found : d.get? entry.1 with
        | none =>
            refine ⟨entry.2, ?_, narrower⟩
            simp only [Option.ite_none_left_eq_some, and_true]
            exact fun none => nonempty (List.subset_nil.mp (none ▸ narrower))
        | some existing =>
            have kept : finer entry.1 ⊆ existing.filter (· ∈ entry.2) := by
              intro route inside
              exact List.mem_filter.mpr ⟨start entry.1 existing found inside,
                decide_eq_true (narrower inside)⟩
            refine ⟨_, ?_, kept⟩
            simp only [Option.ite_none_left_eq_some, and_true]
            exact fun none => nonempty (List.subset_nil.mp (none ▸ kept))
      obtain ⟨compatible, added, kept⟩ := added
      have next : ∀ key values, (d.set entry.1 compatible).get? key = some values →
          finer key ⊆ values := by
        intro key values found
        rw [Dict.get?_set] at found
        split at found
        · rename_i same
          cases found
          rw [same]
          exact kept
        · exact start key values found
      obtain ⟨merged, folded⟩ :=
        ih (fun other member => below other (List.mem_cons_of_mem _ member)) next
      refine ⟨merged, ?_⟩
      rw [List.foldlM_cons, added]
      exact folded

end Merge

/-- A merge is the intersection of its parts. -/
theorem mergeRouteRequirements_eq_some {parts : List RouteRequirements} {whole : RouteRequirements}
    (merges : mergeRouteRequirements parts = some whole) : Merged parts whole := by
  simp only [mergeRouteRequirements, Option.map_eq_some_iff] at merges
  obtain ⟨merged, folded, rfl⟩ := merges
  have listed : ∀ key values, (key, values) ∈ merged.frozen.items ↔
      merged.get? key = some values := by
    intro key values
    rw [← Dict.get?_eq_some, Dict.get?_frozen]
  obtain ⟨keys, sides⟩ := foldlM_mergeRoutes folded (by
    intro key values found
    cases found)
  have empty : ∀ key, (Dict.empty : Dict GraphNodeId (List GraphRouteId)).get? key = none :=
    fun _ => rfl
  simp only [empty, reduceCtorEq, exists_false, false_or, false_imp_iff, implies_true, true_and,
    List.mem_flatten] at keys sides
  refine ⟨merged.frozen.distinct, ?_, ?_⟩
  · intro part member side inside
    obtain ⟨values, found⟩ := (keys side.1).mpr ⟨side.2, part, member, inside⟩
    exact ⟨values, (listed _ _).mpr found⟩
  · rintro ⟨key, values⟩ member
    have found := (listed key values).mp member
    obtain ⟨nonempty, allowed⟩ := sides key values found
    obtain ⟨other, part, partMember, inside⟩ := (keys key).mp ⟨values, found⟩
    refine ⟨nonempty, ⟨part, partMember, other, inside⟩, fun route => ?_⟩
    rw [allowed]
    constructor
    · intro every part partMember values inside
      exact every values ⟨part, partMember, inside⟩
    · rintro every values ⟨part, partMember, inside⟩
      exact every part partMember values inside

/-- Requirements with a common refinement can be merged. -/
theorem mergeRouteRequirements_exists {parts : List RouteRequirements} {finer : RouteRequirements}
    (distinct : Distinct finer) (filled : ∀ side ∈ finer, side.2 ≠ [])
    (refines : ∀ part ∈ parts, Refines finer part) :
    ∃ whole, mergeRouteRequirements parts = some whole := by
  have below : ∀ entry ∈ parts.flatten, ((dictOf finer).get? entry.1).getD [] ≠ [] ∧
      ((dictOf finer).get? entry.1).getD [] ⊆ entry.2 := by
    intro entry member
    obtain ⟨part, partMember, inside⟩ := List.mem_flatten.mp member
    obtain ⟨values, listed, narrower⟩ := refines part partMember entry inside
    rw [(dictOf_get? distinct).mpr listed, Option.getD_some]
    exact ⟨filled _ listed, narrower⟩
  have start : ∀ key values, (Dict.empty : Dict GraphNodeId (List GraphRouteId)).get? key =
      some values → ((dictOf finer).get? key).getD [] ⊆ values := by
    intro key values found
    cases found
  obtain ⟨merged, folded⟩ := foldlM_mergeRoutes_exists
    (fun key => ((dictOf finer).get? key).getD []) below start
  exact ⟨_, by rw [mergeRouteRequirements, folded]; rfl⟩

theorem mergeRouteRequirementProofs_eq_some {proofs : List RouteRequirementProof}
    {proof : RouteRequirementProof} (merges : mergeRouteRequirementProofs proofs = some proof) :
    Merged (proofs.map RouteRequirementProof.requirements) proof.requirements ∧
      (proof.exact = true ↔ ∀ part ∈ proofs, part.exact = true) := by
  simp only [mergeRouteRequirementProofs, Option.map_eq_some_iff] at merges
  obtain ⟨whole, merged, rfl⟩ := merges
  exact ⟨mergeRouteRequirements_eq_some merged, List.all_eq_true⟩

/-! ## The requirement of a source -/

section Source

variable {requirements : Dict GraphNodeId RouteRequirementProof}
  {conditionalTargets : ConditionalTargets} {source : GraphNodeId}

/-- The routes a gate leaves open at its source. -/
def selectedRoutes (conditionalTargets : ConditionalTargets) (source : GraphNodeId) :
    Option GraphRouteId → List GraphRouteId
  | some route => [route]
  | none => sorted (conditionalTargets source).keys

/-- The summary of a node, empty and inexact for a node without one. -/
def summaryOf (requirements : Dict GraphNodeId RouteRequirementProof) (node : GraphNodeId) :
    RouteRequirementProof :=
  (requirements.get? node).getD ⟨[], false⟩

/-- A requirement with one source restricted further. -/
structure Restricts (own : RouteRequirements) (source : GraphNodeId) (selected : List GraphRouteId)
    (result : RouteRequirements) : Prop where
  distinct : Distinct result
  others : ∀ side ∈ result, side.1 ≠ source → side ∈ own
  kept : ∀ side ∈ own, side.1 ≠ source → side ∈ result
  restricted : ∃ routes, (source, routes) ∈ result
  allowed : ∀ routes, (source, routes) ∈ result → ∀ route, route ∈ routes ↔
    route ∈ selected ∧ ∀ existing, (source, existing) ∈ own → route ∈ existing

theorem sourceRouteRequirements_exact (route : Option GraphRouteId) :
    (sourceRouteRequirements requirements conditionalTargets source route).exact =
      (summaryOf requirements source).exact := by
  by_cases plain : route = none ∧ sorted (conditionalTargets source).keys = []
  · rw [sourceRouteRequirements.eq_def, if_pos plain]
    rfl
  · rw [sourceRouteRequirements.eq_def, if_neg plain]
    rfl

/-- A source without conditional edges adds nothing to its summary. -/
theorem sourceRouteRequirements_plain (plain : (conditionalTargets source).items = []) :
    sourceRouteRequirements requirements conditionalTargets source none =
      summaryOf requirements source := by
  unfold sourceRouteRequirements
  rw [if_pos]
  · rfl
  · refine ⟨rfl, ?_⟩
    rw [Dict.keys, plain]
    rfl

/-- The routes left open at a source, given those of its summary. -/
def openRoutes (selected : List GraphRouteId) : Option (List GraphRouteId) → List GraphRouteId
  | none => selected
  | some existing => existing.filter (· ∈ selected)

theorem sourceRouteRequirements_routed {route : Option GraphRouteId}
    (branch : ¬ (route = none ∧ sorted (conditionalTargets source).keys = [])) :
    (sourceRouteRequirements requirements conditionalTargets source route).requirements =
      ((dictOf (summaryOf requirements source).requirements).set source
        (openRoutes (selectedRoutes conditionalTargets source route)
          ((dictOf (summaryOf requirements source).requirements).get? source))).frozen.items := by
  rw [sourceRouteRequirements.eq_def, if_neg branch]
  cases route <;> rfl

theorem sourceRouteRequirements_restricts {route : Option GraphRouteId}
    (routed : route ≠ none ∨ (conditionalTargets source).items ≠ [])
    (distinct : Distinct (summaryOf requirements source).requirements) :
    Restricts (summaryOf requirements source).requirements source
      (selectedRoutes conditionalTargets source route)
      (sourceRouteRequirements requirements conditionalTargets source route).requirements := by
  have branch : ¬ (route = none ∧ sorted (conditionalTargets source).keys = []) := by
    rintro ⟨continues, none⟩
    refine routed.elim (fun wrong => wrong continues) (fun several => several ?_)
    have keys : (conditionalTargets source).keys = [] := by
      have perm := perm_sorted (conditionalTargets source).keys
      rw [none] at perm
      exact perm.nil_eq.symm
    exact List.map_eq_nil_iff.mp keys
  have own : ∀ key values, (dictOf (summaryOf requirements source).requirements).get? key =
      some values ↔ (key, values) ∈ (summaryOf requirements source).requirements :=
    fun _ _ => dictOf_get? distinct
  rw [sourceRouteRequirements_routed branch]
  refine ⟨Dict.distinct _, ?_, ?_, ?_, ?_⟩
  · rintro ⟨key, values⟩ member different
    rw [Dict.mem_items_frozen, ← Dict.get?_eq_some, Dict.get?_set, if_neg different, own] at member
    exact member
  · rintro ⟨key, values⟩ member different
    rw [Dict.mem_items_frozen, ← Dict.get?_eq_some, Dict.get?_set, if_neg different, own]
    exact member
  · refine ⟨openRoutes (selectedRoutes conditionalTargets source route)
      ((dictOf (summaryOf requirements source).requirements).get? source), ?_⟩
    rw [Dict.mem_items_frozen, ← Dict.get?_eq_some, Dict.get?_set, if_pos rfl]
  · intro routes member name
    rw [Dict.mem_items_frozen, ← Dict.get?_eq_some, Dict.get?_set, if_pos rfl,
      Option.some.injEq] at member
    rw [← member]
    cases found : (dictOf (summaryOf requirements source).requirements).get? source with
    | none =>
        have absent : ∀ existing, (source, existing) ∉
            (summaryOf requirements source).requirements := by
          intro existing listed
          rw [(own _ _).mpr listed] at found
          cases found
        exact ⟨fun inside => ⟨inside, fun existing listed => absurd listed (absent existing)⟩,
          fun both => both.1⟩
    | some existing =>
        have listed := (own _ _).mp found
        simp only [openRoutes, List.mem_filter, decide_eq_true_eq]
        constructor
        · rintro ⟨old, new⟩
          refine ⟨new, ?_⟩
          intro other otherListed
          rwa [distinct.unique otherListed listed]
        · rintro ⟨new, every⟩
          exact ⟨every existing listed, new⟩

/-- The requirement of a source refines its summary. -/
theorem sourceRouteRequirements_refines (route : Option GraphRouteId)
    (distinct : Distinct (summaryOf requirements source).requirements) :
    Refines (sourceRouteRequirements requirements conditionalTargets source route).requirements
      (summaryOf requirements source).requirements := by
  by_cases routed : route ≠ none ∨ (conditionalTargets source).items ≠ []
  · have restricts := sourceRouteRequirements_restricts routed distinct
    rintro ⟨key, values⟩ member
    by_cases same : key = source
    · subst same
      obtain ⟨routes, listed⟩ := restricts.restricted
      refine ⟨routes, listed, fun name inside => ?_⟩
      exact ((restricts.allowed routes listed name).mp inside).2 values member
    · exact ⟨values, restricts.kept _ member same, fun _ inside => inside⟩
  · rw [not_or, not_not, not_not] at routed
    obtain ⟨rfl, plain⟩ := routed
    rw [sourceRouteRequirements_plain plain]
    exact .refl _

end Source

/-! ## Alternatives -/

section Alternatives

variable {conditionalTargets : ConditionalTargets} {summary : RouteRequirementProof}

/-- The summary of alternatives: their bounding rectangle, exact only when nothing is lost. -/
structure Summarises (conditionalTargets : ConditionalTargets) (parts : List RouteRequirementProof)
    (summary : RouteRequirementProof) : Prop where
  nonempty : parts ≠ []
  bounding : Bounding (parts.map RouteRequirementProof.requirements) summary.requirements
  exact : summary.exact = true → ∀ part ∈ parts, part.exact = true
  dropped : summary.exact = true → ∀ part ∈ parts, ∀ side ∈ part.requirements,
    (∃ values, (side.1, values) ∈ summary.requirements) ∨
      side.2 = sorted (conditionalTargets side.1).keys
  rigid : summary.exact = true → ∀ side ∈ summary.requirements, ∀ other ∈ summary.requirements,
    Varies (parts.map RouteRequirementProof.requirements) side.1 →
    Varies (parts.map RouteRequirementProof.requirements) other.1 → side.1 = other.1

theorem mem_commonSources {first : Dict GraphNodeId (List GraphRouteId)}
    {rest : List (Dict GraphNodeId (List GraphRouteId))} {source : GraphNodeId} :
    source ∈ commonSources (first :: rest) ↔ ∀ table ∈ first :: rest, source ∈ table.keys := by
  simp [commonSources]

theorem commonSources_nodup (tables : List (Dict GraphNodeId (List GraphRouteId))) :
    (commonSources tables).Nodup := by
  cases tables with
  | nil => exact List.nodup_nil
  | cons first rest =>
      rw [commonSources, (perm_sorted _).nodup_iff]
      exact first.distinct.filter _

theorem eq_of_countP_le_one {α : Type} {p : α → Bool} {xs : List α} (few : xs.countP p ≤ 1) {a b : α}
    (memberA : a ∈ xs) (holdsA : p a = true) (memberB : b ∈ xs) (holdsB : p b = true) : a = b := by
  rw [List.countP_eq_length_filter] at few
  have insideA := List.mem_filter.mpr ⟨memberA, holdsA⟩
  have insideB := List.mem_filter.mpr ⟨memberB, holdsB⟩
  cases kept : xs.filter p with
  | nil =>
      rw [kept] at insideA
      cases insideA
  | cons x rest =>
      rw [kept, List.length_cons] at few
      have alone : rest = [] := List.eq_nil_of_length_eq_zero (by omega)
      rw [kept, alone, List.mem_singleton] at insideA insideB
      rw [insideA, insideB]

/-- A source in which two parts differ differs from the first part somewhere. -/
theorem varying_counted {first : RouteRequirementProof} {rest : List RouteRequirementProof}
    (item : ∀ part ∈ first :: rest, ∀ key values, (key, values) ∈ part.requirements →
      (dictOf part.requirements).getItem key = values) {key : GraphNodeId}
    (varies : Varies ((first :: rest).map RouteRequirementProof.requirements) key) :
    (rest.map (fun part => dictOf part.requirements)).any (fun table =>
      table.getItem key ≠ (dictOf first.requirements).getItem key) = true := by
  by_contra same
  rw [Bool.not_eq_true, List.any_eq_false] at same
  have agrees : ∀ part ∈ first :: rest, ∀ values, (key, values) ∈ part.requirements →
      values = (dictOf first.requirements).getItem key := by
    intro part member values inside
    rw [← item part member key values inside]
    rcases List.mem_cons.mp member with rfl | later
    · rfl
    · have here := same _ (List.mem_map.mpr ⟨part, later, rfl⟩)
      simpa using here
  obtain ⟨_, memberA, _, memberB, values, values', insideA, insideB, different⟩ := varies
  obtain ⟨partA, listedA, rfl⟩ := List.mem_map.mp memberA
  obtain ⟨partB, listedB, rfl⟩ := List.mem_map.mp memberB
  exact different ((agrees partA listedA values insideA).trans
    (agrees partB listedB values' insideB).symm)

theorem alternativeRouteRequirements_eq_some {alternatives : List (Option RouteRequirementProof)}
    (distinct : ∀ part ∈ alternatives.filterMap id, Distinct part.requirements)
    (summarised : alternativeRouteRequirements conditionalTargets alternatives = some summary) :
    Summarises conditionalTargets (alternatives.filterMap id) summary := by
  unfold alternativeRouteRequirements at summarised
  generalize parted : alternatives.filterMap id = parts at distinct summarised ⊢
  cases parts with
  | nil => cases summarised
  | cons first rest =>
      simp only [List.map_cons, Option.some.injEq] at summarised
      obtain rfl := summarised
      have listed : ∀ part ∈ first :: rest, ∀ key values,
          (dictOf part.requirements).get? key = some values ↔ (key, values) ∈ part.requirements :=
        fun part member _ _ => dictOf_get? (distinct part member)
      have shared : ∀ key, key ∈ commonSources (dictOf first.requirements ::
          rest.map (fun part => dictOf part.requirements)) ↔
          ∀ part ∈ first :: rest, ∃ values, (key, values) ∈ part.requirements := by
        intro key
        rw [mem_commonSources]
        show (∀ table ∈ (first :: rest).map (fun part => dictOf part.requirements),
          key ∈ table.keys) ↔ _
        rw [List.forall_mem_map]
        refine forall₂_congr (fun part member => ?_)
        rw [Dict.mem_keys]
        exact exists_congr (fun values => listed part member key values)
      have item : ∀ part ∈ first :: rest, ∀ key values, (key, values) ∈ part.requirements →
          (dictOf part.requirements).getItem key = values := by
        intro part member key values inside
        rw [Dict.getItem, (listed part member key values).mpr inside, Option.getD_some]
      have kept : ∀ key, (∃ values, (key, values) ∈ (commonSources (dictOf first.requirements ::
          rest.map (fun part => dictOf part.requirements))).map (fun source => (source,
            sortedSet ((dictOf first.requirements :: rest.map (fun part =>
              dictOf part.requirements)).flatMap (fun table => table.getItem source))))) ↔
          ∀ part ∈ first :: rest, ∃ values, (key, values) ∈ part.requirements := by
        intro key
        rw [← shared]
        simp
      refine ⟨List.cons_ne_nil _ _, ⟨?_, ?_, ?_⟩, ?_, ?_, ?_⟩
      · rw [Distinct, List.map_map, show Prod.fst ∘ _ = id from rfl, List.map_id]
        exact commonSources_nodup _
      · intro key every
        rw [kept]
        rwa [List.forall_mem_map] at every
      · intro side member
        obtain ⟨key, inside, rfl⟩ := List.mem_map.mp member
        have every := (shared key).mp inside
        rw [List.forall_mem_map]
        refine ⟨every, fun route => ?_⟩
        rw [mem_sortedSet]
        show route ∈ ((first :: rest).map (fun part => dictOf part.requirements)).flatMap _ ↔ _
        rw [List.mem_flatMap]
        constructor
        · rintro ⟨table, tableMember, allowed⟩
          obtain ⟨part, partMember, rfl⟩ := List.mem_map.mp tableMember
          obtain ⟨values, here⟩ := every part partMember
          rw [item part partMember key values here] at allowed
          exact ⟨_, List.mem_map.mpr ⟨part, partMember, rfl⟩, values, here, allowed⟩
        · rintro ⟨requirements, member, values, here, allowed⟩
          obtain ⟨part, partMember, rfl⟩ := List.mem_map.mp member
          refine ⟨_, List.mem_map.mpr ⟨part, partMember, rfl⟩, ?_⟩
          rwa [item part partMember key values here]
      · intro exact
        simp only [Bool.and_eq_true] at exact
        exact List.all_eq_true.mp exact.1.1
      · intro exact part member side inside
        simp only [Bool.and_eq_true] at exact
        have table : dictOf part.requirements ∈
            (first :: rest).map (fun part => dictOf part.requirements) :=
          List.mem_map.mpr ⟨part, member, rfl⟩
        have tables := List.all_eq_true.mp exact.1.2 _ table
        have entry := List.all_eq_true.mp tables side
          (((dictOf part.requirements).get?_eq_some side.1 side.2).mp
            ((listed part member side.1 side.2).mpr inside))
        rw [Bool.or_eq_true, decide_eq_true_eq, decide_eq_true_eq] at entry
        refine entry.imp_left (fun common => ?_)
        rw [kept]
        exact (shared _).mp common
      · intro exact side member other otherMember varies otherVaries
        simp only [Bool.and_eq_true, decide_eq_true_eq] at exact
        exact eq_of_countP_le_one exact.2 ((shared _).mpr ((kept _).mp ⟨_, member⟩))
          (varying_counted item varies) ((shared _).mpr ((kept _).mp ⟨_, otherMember⟩))
          (varying_counted item otherVaries)

end Alternatives

end MoteKernel
