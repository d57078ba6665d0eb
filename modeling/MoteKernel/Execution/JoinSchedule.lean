import MoteKernel.Execution.EdgeRuns

/-!
# When nodes and Joins are due

The static coordinates of the compiler hold in every run: a node is activated at
its levels only, and the occurrence of a Join has every source exactly once, the
last of them one superstep before the target.
-/

namespace MoteKernel
open Checked Canonical Digraph

variable {τ : Type}

/-! ## The offsets of a Join -/

/-- The sources share one cohort: the same entry flag and the same gates. -/
structure RepeatedJoin (entries : List GraphNodeId) (gates : ActivationGates)
    (repeatable : List GraphNodeId) (join : CompiledJoin) : Prop where
  offsets : ∀ source ∈ join.identity.sources, join.offset source = 1
  repeats : ∀ source ∈ join.identity.sources, source ∈ repeatable
  cohort : ∀ a ∈ join.identity.sources, ∀ b ∈ join.identity.sources,
    activationCohortSignature entries gates a = activationCohortSignature entries gates b

/-- The sources are activated once, at their own levels, under the same exact requirement. -/
structure SingleJoin (requirements : Dict GraphNodeId RouteRequirementProof)
    (conditionalTargets : ConditionalTargets) (absoluteLevels : GraphNodeId → Option Nat)
    (repeatable : List GraphNodeId) (join : CompiledJoin) (targetLevel : Nat) : Prop where
  leveled : ∀ source ∈ join.identity.sources, ∃ level, absoluteLevels source = some level ∧
    level + join.offset source = targetLevel
  last : ∃ source ∈ join.identity.sources, join.offset source = 1
  single : ∀ source ∈ join.identity.sources, source ∉ repeatable
  exact : ∀ source ∈ join.identity.sources,
    (sourceRouteRequirements requirements conditionalTargets source none).exact = true
  same : ∀ a ∈ join.identity.sources, ∀ b ∈ join.identity.sources,
    sourceRouteRequirements requirements conditionalTargets a none =
      sourceRouteRequirements requirements conditionalTargets b none

section Offsets

variable {entries : List GraphNodeId} {gates : ActivationGates}
  {requirements : Dict GraphNodeId RouteRequirementProof} {conditionalTargets : ConditionalTargets}
  {absoluteLevels : GraphNodeId → Option Nat} {repeatable : List GraphNodeId} {edge : JoinEdge}
  {join : CompiledJoin}

theorem offset_of_map {f : GraphNodeId → Nat}
    (computed : join.sourceTargetOffsets = join.identity.sources.map (fun source => (source, f source)))
    {source : GraphNodeId} (inside : source ∈ join.identity.sources) :
    join.offset source = f source := by
  unfold CompiledJoin.offset
  cases found : join.sourceTargetOffsets.find? (fun pair => pair.1 = source) with
  | none =>
      have absent := List.find?_eq_none.mp found (source, f source) (by
        rw [computed]
        exact List.mem_map.mpr ⟨source, inside, rfl⟩)
      simp at absent
  | some pair =>
      have same : pair.1 = source := by simpa using List.find?_some found
      have member := List.mem_of_find?_eq_some found
      rw [computed] at member
      obtain ⟨other, -, rfl⟩ := List.mem_map.mp member
      simp only at same
      rw [same]
      rfl

/-- Values with one distinct element are all the same. -/
theorem eq_of_dedup_length {α β : Type} [DecidableEq β] {f : α → β} {xs : List α}
    (one : (xs.map f).dedup.length = 1) {a b : α} (memberA : a ∈ xs) (memberB : b ∈ xs) :
    f a = f b := by
  obtain ⟨value, single⟩ := List.length_eq_one_iff.mp one
  have every : ∀ x ∈ xs, f x = value := by
    intro x member
    have inside : f x ∈ (xs.map f).dedup := List.mem_dedup.mpr (List.mem_map.mpr ⟨x, member, rfl⟩)
    rw [single] at inside
    exact List.mem_singleton.mp inside
  rw [every a memberA, every b memberB]

theorem repeatedOffsets_eq_ok {offsets : List (GraphNodeId × Nat)}
    (computed : repeatedOffsets entries gates repeatable edge = .ok offsets) :
    (∀ source ∈ edge.sources, source ∈ repeatable) ∧
      (∀ a ∈ edge.sources, ∀ b ∈ edge.sources, activationCohortSignature entries gates a =
        activationCohortSignature entries gates b) ∧
      offsets = edge.sources.map (fun source => (source, 1)) := by
  simp only [repeatedOffsets, bind_unit_eq_ok, raiseIf_eq_ok, pure_eq_ok, Except.ok.injEq, not_or,
    ne_eq, not_not] at computed
  obtain ⟨⟨every, one⟩, rfl⟩ := computed
  refine ⟨?_, fun a memberA b memberB => eq_of_dedup_length one memberA memberB, rfl⟩
  intro source member
  have all := List.length_filter_eq_length_iff.mp every source member
  rwa [decide_eq_true_eq] at all

theorem singleOffsets_eq_ok {offsets : List (GraphNodeId × Nat)}
    (computed : singleOffsets requirements conditionalTargets absoluteLevels edge = .ok offsets) :
    (∀ source ∈ edge.sources,
      (sourceRouteRequirements requirements conditionalTargets source none).exact = true) ∧
    (∀ a ∈ edge.sources, ∀ b ∈ edge.sources,
      sourceRouteRequirements requirements conditionalTargets a none =
        sourceRouteRequirements requirements conditionalTargets b none) ∧
    ∃ level : GraphNodeId → Nat, (∀ source ∈ edge.sources,
        absoluteLevels source = some (level source)) ∧
      offsets = edge.sources.map (fun source =>
        (source, (edge.sources.map level).foldr max 0 + 1 - level source)) := by
  simp only [singleOffsets, bind_eq_ok, raiseIf_eq_ok, pure_eq_ok, Except.ok.injEq, not_or, ne_eq,
    not_not, Bool.not_eq_false] at computed
  obtain ⟨_, ⟨exact, one⟩, levels, leveled, rfl⟩ := computed
  have related := (mapM_eq_ok _ _ _).mp leveled
  simp only [orRaise_eq_ok] at related
  have found : levels = edge.sources.map (fun source => (absoluteLevels source).getD 0) := by
    have each : List.Forall₂ Eq (edge.sources.map (fun source => (absoluteLevels source).getD 0))
        levels := by
      rw [List.forall₂_map_left_iff]
      refine related.imp ?_
      intro source level here
      rw [here, Option.getD_some]
    exact (List.forall₂_eq_eq_eq ▸ each).symm
  refine ⟨?_, fun a memberA b memberB => eq_of_dedup_length one memberA memberB,
    fun source => (absoluteLevels source).getD 0, ?_, ?_⟩
  · intro source member
    have all := List.all_eq_true.mp exact
    exact all _ (List.mem_map.mpr ⟨source, member, rfl⟩)
  · intro source member
    obtain ⟨level, -, here⟩ := forall₂_mem_left related member
    simp only [here, Option.getD_some]
  · subst found
    have zipped : edge.sources.zip (edge.sources.map (fun source => (absoluteLevels source).getD 0)) =
        edge.sources.map (fun source => (source, (absoluteLevels source).getD 0)) := by
      rw [← List.zip_map', List.map_id']
    rw [zipped, List.map_map]
    rfl

/-- The largest level is one of the levels. -/
theorem exists_foldr_max {α : Type} (f : α → Nat) {xs : List α} (nonempty : xs ≠ []) :
    ∃ x ∈ xs, (xs.map f).foldr max 0 = f x := by
  induction xs with
  | nil => exact absurd rfl nonempty
  | cons x xs ih =>
      rw [List.map_cons, List.foldr_cons]
      by_cases rest : xs = []
      · subst rest
        exact ⟨x, List.mem_cons_self, by simp⟩
      · obtain ⟨y, member, largest⟩ := ih rest
        rcases Nat.le_total (f x) ((xs.map f).foldr max 0) with less | more
        · exact ⟨y, List.mem_cons_of_mem _ member, by rw [max_eq_right less, largest]⟩
        · exact ⟨x, List.mem_cons_self, max_eq_left more⟩

theorem le_foldr_max {α : Type} (f : α → Nat) {xs : List α} {x : α} (member : x ∈ xs) :
    f x ≤ (xs.map f).foldr max 0 := by
  induction xs with
  | nil => cases member
  | cons y ys ih =>
      rw [List.map_cons, List.foldr_cons]
      rcases List.mem_cons.mp member with rfl | later
      · exact le_max_left _ _
      · exact (ih later).trans (le_max_right _ _)

/-- The plan of a Join: one cohort with offset one, or single activations at their levels. -/
theorem compileJoin_cases (several : edge.sources ≠ [])
    (compiled : compileJoin entries gates requirements conditionalTargets absoluteLevels repeatable
      edge = .ok join) :
    RepeatedJoin entries gates repeatable join ∨ ∃ targetLevel,
      SingleJoin requirements conditionalTargets absoluteLevels repeatable join targetLevel := by
  obtain ⟨identity, -, computed⟩ := compileJoin_eq_ok compiled
  have sources : join.identity.sources = edge.sources := by rw [identity]
  rw [joinOffsets] at computed
  split at computed
  · obtain ⟨repeats, cohort, offsets⟩ := repeatedOffsets_eq_ok computed
    rw [← sources] at repeats cohort offsets
    exact .inl ⟨fun source inside => offset_of_map offsets inside, repeats, cohort⟩
  · rename_i none
    obtain ⟨exact, same, level, leveled, offsets⟩ := singleOffsets_eq_ok computed
    rw [← sources] at exact same leveled offsets several none
    have offset : ∀ source ∈ join.identity.sources, join.offset source =
        (join.identity.sources.map level).foldr max 0 + 1 - level source :=
      fun source inside => offset_of_map offsets inside
    refine .inr ⟨(join.identity.sources.map level).foldr max 0 + 1, ?_, ?_, ?_, exact, same⟩
    · intro source inside
      have bound := le_foldr_max level inside
      exact ⟨level source, leveled source inside, by rw [offset source inside]; omega⟩
    · obtain ⟨source, inside, largest⟩ := exists_foldr_max level several
      exact ⟨source, inside, by rw [offset source inside, largest]; omega⟩
    · intro source inside repeated
      exact none ⟨source, inside, repeated⟩

end Offsets

/-! ## Levels and occurrences in a run -/

section Accepted

variable {graph : CompiledGraph τ} {nodeIds entries : List GraphNodeId} {edges : List Edge}
  {routeOptions : Dict GraphNodeId (List Route)} {dataDependencies : DataDependencies}
  {requirements : Dict GraphNodeId RouteRequirementProof}
  {guarantees : Dict GraphNodeId (List GraphNodeId)} {plan : ControlPlan}
  (accepted : Accepted graph nodeIds entries edges routeOptions dataDependencies requirements
    guarantees plan)
include accepted

/-- The plan of every Join, by the repeatable nodes. -/
theorem Accepted.join_cases : ∃ repeatable, repeatableNodes nodeIds entries
      (collectActivationGates edges) (edgeSuccessors edges) = .ok repeatable ∧
    ∀ join ∈ plan.joins, RepeatedJoin entries (collectActivationGates edges) repeatable join ∨
      ∃ targetLevel, SingleJoin requirements (collectConditionalTargets edges) plan.absoluteLevels
        repeatable join targetLevel := by
  obtain ⟨repeatable, repeats, related⟩ :=
    compileJoinOccurrencePlans_eq_ok accepted.analysed.joins
  refine ⟨repeatable, repeats, ?_⟩
  intro join member
  obtain ⟨edge, listed, compiled⟩ := forall₂_mem_right related member
  refine compileJoin_cases ?_ compiled
  obtain ⟨sources, target, inside, rfl⟩ := mem_collectJoins.mp listed
  intro none
  have several := (accepted.runs.valid.known _ inside).1
  rw [← (perm_sorted sources).length_eq, show sorted sources = [] from none] at several
  cases several

/-- Some source of a Join arrives one superstep before the target. -/
theorem Accepted.last_source {join : CompiledJoin} (member : join ∈ plan.joins) :
    ∃ source ∈ join.identity.sources, join.offset source = 1 := by
  obtain ⟨repeatable, -, cases⟩ := accepted.join_cases
  rcases cases join member with repeated | ⟨targetLevel, single⟩
  · obtain ⟨sources, edge, same⟩ := accepted.runs.join_edge member
    obtain ⟨several, -⟩ := accepted.runs.valid.known _ edge
    obtain ⟨source, inside⟩ := List.exists_mem_of_ne_nil sources (by
      intro none
      rw [none] at several
      cases several)
    have listed : source ∈ join.identity.sources := by
      rw [same]
      exact mem_sorted.mpr inside
    exact ⟨source, listed, repeated.offsets source listed⟩
  · exact single.last

/-- Some source of a cause was active in the superstep of the cause. -/
theorem Accepted.recent_source {target : GraphNodeId} {cause : SuccessorCause}
    (member : cause ∈ (edgeRelation nodeIds entries edges routeOptions plan.joins).successorCauses
      target) {active : Nat → GraphNodeId → Prop} {choice : Nat → GraphNodeId → Route}
    {superstep : Nat} (caused : CausedAt active choice superstep cause) :
    ∃ source, active superstep source ∧ target ∈ edgeSuccessors edges source := by
  have successor : ∀ source route, (source, route) ∈ cause.gate →
      target ∈ edgeSuccessors edges source := by
    intro source route inside
    exact (gate_edges accepted.runs.valid (accepted.runs.mem_gates.mpr ⟨cause, member, rfl⟩)
      inside).2
  cases cause with
  | direct source => exact ⟨source, caused, successor source none (List.mem_singleton.mpr rfl)⟩
  | routed source route =>
      exact ⟨source, caused.1, successor source (some route) (List.mem_singleton.mpr rfl)⟩
  | joined join =>
      obtain ⟨inner, ⟨_, _, wrong⟩ | ⟨_, _, _, wrong⟩ | ⟨other, listed, -, same⟩⟩ :=
        accepted.runs.mem_successorCauses.mp member
      · cases wrong
      · cases wrong
      · cases same
        obtain ⟨source, inside, one⟩ := accepted.last_source listed
        obtain ⟨earlier, -, here, place⟩ := caused source inside
        have now : earlier = superstep := by omega
        subst now
        exact ⟨source, here, successor source none (List.mem_map.mpr ⟨source, inside, rfl⟩)⟩

/-- A single level is the only one of its node, which no cycle reaches. -/
theorem Accepted.absolute_level {node : GraphNodeId} {level : Nat}
    (single : plan.absoluteLevels node = some level) :
    ∃ levels, activationLevels nodeIds entries (edgeSuccessors edges) = .ok levels ∧
      levels.getItem node = [level] ∧
      node ∉ cycleReachableNodes nodeIds (edgeSuccessors edges) := by
  have leveled := accepted.analysed.levels
  simp only [absoluteActivationLevels, bind_eq_ok, pure_eq_ok, Except.ok.injEq] at leveled
  obtain ⟨levels, computed, same⟩ := leveled
  rw [← same, uniqueLevel] at single
  cases found : levels.getItem node with
  | nil => rw [found] at single; cases single
  | cons first rest =>
      cases rest with
      | cons second others => rw [found] at single; cases single
      | nil =>
          rw [found] at single
          cases single
          have leveling := activationLevels_leveling (edgeSuccessors_closed accepted.runs.valid)
            accepted.distinct computed
          refine ⟨levels, computed, found, (leveling.fixed (show level ∈ levels.getItem node by
            rw [found]
            exact List.mem_singleton.mpr rfl)).2⟩

variable {last : Nat} {active : Nat → GraphNodeId → Prop} {choice : Nat → GraphNodeId → Route}
  (trail : Trail (edgeRelation nodeIds entries edges routeOptions plan.joins) last active choice)
include trail

/-- A node that no cycle reaches is activated at its levels only. -/
theorem Accepted.active_level {levels : Dict GraphNodeId (List Nat)}
    (computed : activationLevels nodeIds entries (edgeSuccessors edges) = .ok levels)
    {superstep : Nat} {node : GraphNodeId} (here : active superstep node)
    (fixed : node ∉ cycleReachableNodes nodeIds (edgeSuccessors edges)) :
    superstep ∈ levels.getItem node := by
  have closed := edgeSuccessors_closed accepted.runs.valid
  obtain ⟨starts, follows⟩ := activationLevels_spec accepted.entriesKnown computed
  induction superstep generalizing node with
  | zero => exact starts node ((trail.start node).mp here) fixed
  | succ superstep ih =>
      obtain ⟨cause, member, caused⟩ := trail.caused here
      obtain ⟨source, there, adjacent⟩ := accepted.recent_source member caused
      have known := accepted.runs.mem_nodes.mp (trail.known superstep source there).1
      have before : source ∉ cycleReachableNodes nodeIds (edgeSuccessors edges) := by
        intro varies
        apply fixed
        rw [mem_cycleReachableNodes closed accepted.distinct] at varies ⊢
        exact varies.step adjacent
      exact follows source known node adjacent fixed superstep (ih there before)

/-- A node with a single level is activated there and nowhere else. -/
theorem Accepted.active_absolute {node : GraphNodeId} {level : Nat}
    (single : plan.absoluteLevels node = some level) {superstep : Nat}
    (here : active superstep node) : superstep = level := by
  obtain ⟨levels, computed, alone, fixed⟩ := accepted.absolute_level single
  have member := accepted.active_level trail computed here fixed
  rw [alone] at member
  exact List.mem_singleton.mp member

end Accepted

end MoteKernel
