import Mathlib.Algebra.Order.BigOperators.Group.List
import Mathlib.Algebra.Order.Group.Nat
import Mathlib.Algebra.GroupWithZero.Nat
import MoteKernel.Lib.Digraph
import MoteKernel.Execution.Compiler

/-!
# The loops of the compiler

What the loops of the control analyses compute and that each of them is left:
paths and cycles, reachability, the guaranteed predecessors, the repeatable
nodes, the activation order and the activation levels.
-/

namespace MoteKernel
open Checked Canonical Digraph

/-- The successors of known nodes are known. -/
def ClosedOn (nodeIds : List GraphNodeId) (successors : Successors) : Prop :=
  ∀ node ∈ nodeIds, successors node ⊆ nodeIds

/-! ## Paths -/

section Paths

variable {nodeIds : List GraphNodeId} {successors : Successors} {source target : GraphNodeId}

theorem ClosedOn.path (closed : ClosedOn nodeIds successors) (known : source ∈ nodeIds)
    (path : Relation.ReflTransGen (Adjacent successors) source target) : target ∈ nodeIds := by
  induction path with
  | refl => exact known
  | tail _ edge ih => exact closed _ ih edge

/-- The states of `_can_reach`: what was visited is done with, and leads to nothing unseen. -/
structure Searching (nodeIds : List GraphNodeId) (successors : Successors)
    (source target : GraphNodeId) (state : List GraphNodeId × List GraphNodeId) : Prop where
  known : ∀ node ∈ state.1, node ∈ nodeIds
  begun : source ∈ state.1 ∨ source ∈ state.2
  reached : ∀ node, node ∈ state.1 ∨ node ∈ state.2 →
    Relation.ReflTransGen (Adjacent successors) source node
  passed : target ∉ state.2
  explored : ∀ node ∈ state.2, ∀ next ∈ successors node, next ∈ state.1 ∨ next ∈ state.2

/-- The stack and the edges of the nodes that are not visited yet. -/
def searchMeasure (nodeIds : List GraphNodeId) (successors : Successors)
    (state : List GraphNodeId × List GraphNodeId) : Nat :=
  state.1.length + ((nodeIds.filter (· ∉ state.2)).flatMap successors).length

theorem flatMap_filter_length {α β : Type} (f : α → List β) {p q : α → Bool} {x : α}
    (narrower : ∀ y, q y = true → p y = true) (inside : p x = true) (outside : q x = false)
    {xs : List α} (member : x ∈ xs) :
    ((xs.filter q).flatMap f).length + (f x).length ≤ ((xs.filter p).flatMap f).length := by
  have weaker : ∀ ys : List α,
      ((ys.filter q).flatMap f).length ≤ ((ys.filter p).flatMap f).length := by
    intro ys
    induction ys with
    | nil => simp
    | cons y ys ih =>
        simp only [List.filter_cons]
        by_cases kept : q y = true
        · rw [if_pos kept, if_pos (narrower y kept)]
          simp only [List.flatMap_cons, List.length_append]
          omega
        · rw [if_neg kept]
          split
          · simp only [List.flatMap_cons, List.length_append]
            omega
          · exact ih
  induction xs with
  | nil => cases member
  | cons y ys ih =>
      rcases List.mem_cons.mp member with rfl | later
      · have rest := weaker ys
        simp only [List.filter_cons, inside, outside, if_true, Bool.false_eq_true, if_false,
          List.flatMap_cons, List.length_append]
        omega
      · have rest := ih later
        simp only [List.filter_cons]
        by_cases kept : q y = true
        · rw [if_pos kept, if_pos (narrower y kept)]
          simp only [List.flatMap_cons, List.length_append]
          omega
        · rw [if_neg kept]
          split
          · simp only [List.flatMap_cons, List.length_append]
            omega
          · exact rest

theorem Searching.turn (closed : ClosedOn nodeIds successors)
    {state next : List GraphNodeId × List GraphNodeId}
    (searching : Searching nodeIds successors source target state)
    (taken : canReachTurn successors target state = .inl next) :
    Searching nodeIds successors source target next ∧
      searchMeasure nodeIds successors next < searchMeasure nodeIds successors state := by
  obtain ⟨pending, visited⟩ := state
  cases pending with
  | nil => cases taken
  | cons current pending =>
      have currentKnown := searching.known current List.mem_cons_self
      have currentReached := searching.reached current (.inl List.mem_cons_self)
      simp only [canReachTurn] at taken
      split at taken
      · cases taken
      · rename_i other
        split at taken
        · rename_i seen
          cases taken
          constructor
          · constructor
            · exact fun node member => searching.known node (List.mem_cons_of_mem _ member)
            · rcases searching.begun with stacked | done
              · rcases List.mem_cons.mp stacked with rfl | later
                · exact .inr seen
                · exact .inl later
              · exact .inr done
            · intro node either
              exact searching.reached node (either.imp (List.mem_cons_of_mem _) id)
            · exact searching.passed
            · intro node member step edge
              rcases searching.explored node member step edge with stacked | done
              · rcases List.mem_cons.mp stacked with rfl | later
                · exact .inr seen
                · exact .inl later
              · exact .inr done
          · simp only [searchMeasure, List.length_cons]
            omega
        · rename_i fresh
          cases taken
          constructor
          · constructor
            · intro node member
              rcases List.mem_append.mp member with opened | later
              · exact closed current currentKnown opened
              · exact searching.known node (List.mem_cons_of_mem _ later)
            · rcases searching.begun with stacked | done
              · rcases List.mem_cons.mp stacked with rfl | later
                · exact .inr List.mem_cons_self
                · exact .inl (List.mem_append_right _ later)
              · exact .inr (List.mem_cons_of_mem _ done)
            · intro node either
              rcases either with stacked | done
              · rcases List.mem_append.mp stacked with opened | later
                · exact currentReached.tail opened
                · exact searching.reached node (.inl (List.mem_cons_of_mem _ later))
              · rcases List.mem_cons.mp done with rfl | earlier
                · exact currentReached
                · exact searching.reached node (.inr earlier)
            · rw [List.mem_cons, not_or]
              exact ⟨fun same => other same.symm, searching.passed⟩
            · intro node member step edge
              rcases List.mem_cons.mp member with rfl | earlier
              · exact .inl (List.mem_append_left _ edge)
              · rcases searching.explored node earlier step edge with stacked | done
                · rcases List.mem_cons.mp stacked with rfl | later
                  · exact .inr List.mem_cons_self
                  · exact .inl (List.mem_append_right _ later)
                · exact .inr (List.mem_cons_of_mem _ done)
          · have fewer := flatMap_filter_length successors
              (p := fun node => decide (node ∉ visited))
              (q := fun node => decide (node ∉ current :: visited)) (x := current)
              (by simp) (by simpa using fresh) (by simp) currentKnown
            simp only [searchMeasure, List.length_append, List.length_cons]
            omega

theorem searching_start (known : source ∈ nodeIds) :
    Searching nodeIds successors source target ([source], []) := by
  refine ⟨?_, .inl List.mem_cons_self, ?_, List.not_mem_nil, ?_⟩
  · intro node member
    rw [List.mem_singleton.mp member]
    exact known
  · intro node either
    rcases either with stacked | done
    · rw [List.mem_singleton.mp stacked]
    · cases done
  · intro node member
    cases member

/-- The loop of `_can_reach` is left. -/
theorem canReach_terminates (closed : ClosedOn nodeIds successors) (known : source ∈ nodeIds)
    (target : GraphNodeId) : ∃ found, Loop.run (canReachTurn successors target)
      ((nodeIds.flatMap successors).length + 2) ([source], []) = some found := by
  refine Loop.run_terminates (Searching nodeIds successors source target)
    (searchMeasure nodeIds successors) (fun _ _ searching taken => searching.turn closed taken)
    (searching_start known) ?_
  have all : nodeIds.filter (fun node => decide (node ∉ ([] : List GraphNodeId))) = nodeIds := by
    simp
  simp only [searchMeasure, all, List.length_singleton]
  omega

/-- `_can_reach` decides whether there is a path. -/
theorem canReach_iff (closed : ClosedOn nodeIds successors) (sourceKnown : source ∈ nodeIds)
    (targetKnown : target ∈ nodeIds) : canReach nodeIds successors source target = true ↔
      Relation.ReflTransGen (Adjacent successors) source target := by
  obtain ⟨found, left⟩ := canReach_terminates closed sourceKnown target
  have decided : found = true ↔ Relation.ReflTransGen (Adjacent successors) source target := by
    refine Loop.run_spec (Searching nodeIds successors source target)
      (fun found => found = true ↔ Relation.ReflTransGen (Adjacent successors) source target)
      (fun _ _ searching taken => (searching.turn closed taken).1) ?_ (searching_start sourceKnown)
      left
    rintro ⟨pending, visited⟩ result searching taken
    cases pending with
    | nil =>
        cases taken
        -- everything reachable has been visited, and the target has not
        have saturated : ∀ node, Relation.ReflTransGen (Adjacent successors) source node →
            node ∈ visited := by
          intro node path
          induction path with
          | refl => exact searching.begun.resolve_left List.not_mem_nil
          | tail _ edge ih =>
              exact (searching.explored _ ih _ edge).resolve_left List.not_mem_nil
        simp only [Bool.false_eq_true, false_iff]
        exact fun path => searching.passed (saturated target path)
    | cons current pending =>
        simp only [canReachTurn] at taken
        split at taken
        · rename_i same
          cases taken
          simp only [true_iff]
          rw [← same]
          exact searching.reached current (.inl List.mem_cons_self)
        · split at taken <;> cases taken
  rw [canReach, if_pos ⟨sourceKnown, targetKnown⟩, left, Option.getD_some]
  exact decided

theorem mem_cycleNodes (closed : ClosedOn nodeIds successors) {node : GraphNodeId} :
    node ∈ cycleNodes nodeIds successors ↔ node ∈ nodeIds ∧ OnCycle successors node := by
  rw [cycleNodes, List.mem_filter, List.any_eq_true]
  refine and_congr_right (fun known => ?_)
  rw [OnCycle, Relation.TransGen.head'_iff]
  refine exists_congr (fun next => and_congr_right (fun edge => ?_))
  exact canReach_iff closed (closed node known edge) known

/-- What one node of the stack adds to the reached nodes and to the stack. -/
theorem cycleReach_fold (targets : List GraphNodeId)
    (state : List GraphNodeId × List GraphNodeId) (distinct : state.1.Nodup) :
    let result := targets.foldl (fun state target =>
      if target ∈ state.1 then state else (sortedSet (target :: state.1), target :: state.2)) state
    (∀ node, node ∈ result.1 ↔ node ∈ state.1 ∨ node ∈ targets) ∧
      (∀ node, node ∈ result.2 ↔ node ∈ state.2 ∨ node ∈ targets ∧ node ∉ state.1) ∧
      result.1.length + state.2.length = state.1.length + result.2.length ∧ result.1.Nodup := by
  induction targets generalizing state with
  | nil => simp [distinct]
  | cons target targets ih =>
      simp only [List.foldl_cons]
      by_cases seen : target ∈ state.1
      · rw [if_pos seen]
        obtain ⟨reached, stacked, balance, once⟩ := ih state distinct
        refine ⟨?_, ?_, balance, once⟩
        · intro node
          rw [reached, List.mem_cons]
          constructor
          · exact Or.imp_right .inr
          · rintro (old | rfl | new)
            · exact .inl old
            · exact .inl seen
            · exact .inr new
        · intro node
          rw [stacked, List.mem_cons]
          refine or_congr_right (and_congr_left (fun fresh => ?_))
          constructor
          · exact .inr
          · rintro (rfl | new)
            · exact absurd seen fresh
            · exact new
      · rw [if_neg seen]
        have single : sortedSet (target :: state.1) = sorted (target :: state.1) := by
          rw [sortedSet, List.dedup_eq_self.mpr (List.nodup_cons.mpr ⟨seen, distinct⟩)]
        have size : (sortedSet (target :: state.1)).length = state.1.length + 1 := by
          rw [single, (perm_sorted _).length_eq, List.length_cons]
        obtain ⟨reached, stacked, balance, once⟩ :=
          ih (sortedSet (target :: state.1), target :: state.2)
            (nodup_of_strict (sortedSet_strict _))
        refine ⟨?_, ?_, ?_, once⟩
        · intro node
          rw [reached, mem_sortedSet, List.mem_cons, List.mem_cons, or_assoc, or_left_comm]
        · intro node
          rw [stacked, mem_sortedSet, List.mem_cons, List.mem_cons, List.mem_cons, not_or]
          constructor
          · rintro ((rfl | old) | ⟨new, -, fresh⟩)
            · exact .inr ⟨.inl rfl, seen⟩
            · exact .inl old
            · exact .inr ⟨.inr new, fresh⟩
          · rintro (old | ⟨rfl | new, fresh⟩)
            · exact .inl (.inr old)
            · exact .inl (.inl rfl)
            · by_cases same : node = target
              · exact .inl (.inl same)
              · exact .inr ⟨new, same, fresh⟩
        · simp only [List.length_cons] at balance
          omega

/-- The states of `_cycle_reachable_nodes`: what is off the stack leads to nothing unseen. -/
structure Spreading (nodeIds : List GraphNodeId) (successors : Successors)
    (state : List GraphNodeId × List GraphNodeId) : Prop where
  distinct : state.1.Nodup
  known : state.1 ⊆ nodeIds
  stacked : state.2 ⊆ state.1
  cycles : ∀ node ∈ nodeIds, OnCycle successors node → node ∈ state.1
  after : ∀ node ∈ state.1, AfterCycle nodeIds successors node
  explored : ∀ node ∈ state.1, node ∉ state.2 → successors node ⊆ state.1

theorem Spreading.turn (closed : ClosedOn nodeIds successors)
    {state next : List GraphNodeId × List GraphNodeId}
    (spreading : Spreading nodeIds successors state)
    (taken : cycleReachTurn successors state = .inl next) :
    Spreading nodeIds successors next ∧
      nodeIds.length - next.1.length + next.2.length <
        nodeIds.length - state.1.length + state.2.length := by
  obtain ⟨reached, pending⟩ := state
  cases pending with
  | nil => cases taken
  | cons source pending =>
      have sourceReached : source ∈ reached := spreading.stacked List.mem_cons_self
      obtain ⟨members, stack, balance, once⟩ :=
        cycleReach_fold (successors source) (reached, pending) spreading.distinct
      cases taken
      refine ⟨⟨once, ?_, ?_, ?_, ?_, ?_⟩, ?_⟩
      · intro node member
        rcases (members node).mp member with old | new
        · exact spreading.known old
        · exact closed source (spreading.known sourceReached) new
      · intro node member
        rcases (stack node).mp member with old | ⟨new, -⟩
        · exact (members node).mpr (.inl (spreading.stacked (List.mem_cons_of_mem _ old)))
        · exact (members node).mpr (.inr new)
      · intro node inside cyclic
        exact (members node).mpr (.inl (spreading.cycles node inside cyclic))
      · intro node member
        rcases (members node).mp member with old | new
        · exact spreading.after node old
        · exact (spreading.after source sourceReached).step new
      · intro node member off following edge
        rw [stack, not_or] at off
        by_cases old : node ∈ reached
        · by_cases same : node = source
          · rw [same] at edge
            exact (members following).mpr (.inr edge)
          · have inner : node ∉ source :: pending := by
              rw [List.mem_cons, not_or]
              exact ⟨same, off.1⟩
            exact (members following).mpr (.inl (spreading.explored node old inner edge))
        · exact absurd ⟨((members node).mp member).resolve_left old, old⟩ off.2
      · have inside : ∀ node ∈ _, node ∈ nodeIds := fun node member =>
          ((members node).mp member).elim (fun old => spreading.known old)
            (fun new => closed source (spreading.known sourceReached) new)
        have bounded := once.length_le_of_subset inside
        simp only [List.length_cons]
        simp only at balance
        omega

theorem spreading_start (closed : ClosedOn nodeIds successors) (distinct : nodeIds.Nodup) :
    Spreading nodeIds successors (sorted (cycleNodes nodeIds successors),
      (sorted (cycleNodes nodeIds successors)).reverse) := by
  refine ⟨(perm_sorted _).nodup_iff.mpr (distinct.filter _), ?_, ?_, ?_, ?_, ?_⟩
  · intro node member
    exact ((mem_cycleNodes closed).mp (mem_sorted.mp member)).1
  · intro node member
    exact List.mem_reverse.mp member
  · intro node known cyclic
    exact mem_sorted.mpr ((mem_cycleNodes closed).mpr ⟨known, cyclic⟩)
  · intro node member
    obtain ⟨known, cyclic⟩ := (mem_cycleNodes closed).mp (mem_sorted.mp member)
    exact ⟨node, known, cyclic, .refl⟩
  · intro node member off
    exact absurd (List.mem_reverse.mpr member) off

/-- The loop of `_cycle_reachable_nodes` is left. -/
theorem cycleReach_terminates (closed : ClosedOn nodeIds successors) (distinct : nodeIds.Nodup) :
    ∃ reached, Loop.run (cycleReachTurn successors) (nodeIds.length + 1)
      (sorted (cycleNodes nodeIds successors),
        (sorted (cycleNodes nodeIds successors)).reverse) = some reached := by
  refine Loop.run_terminates (Spreading nodeIds successors)
    (fun state => nodeIds.length - state.1.length + state.2.length)
    (fun _ _ spreading taken => spreading.turn closed taken) (spreading_start closed distinct) ?_
  have start := spreading_start closed distinct
  have bounded := start.distinct.length_le_of_subset start.known
  simp only [List.length_reverse]
  simp only at bounded
  omega

/-- `_cycle_reachable_nodes` computes the nodes some cycle leads to. -/
theorem mem_cycleReachableNodes (closed : ClosedOn nodeIds successors) (distinct : nodeIds.Nodup)
    {node : GraphNodeId} :
    node ∈ cycleReachableNodes nodeIds successors ↔ AfterCycle nodeIds successors node := by
  obtain ⟨reached, left⟩ := cycleReach_terminates closed distinct
  have result : cycleReachableNodes nodeIds successors = reached := by
    simp only [cycleReachableNodes, left, Option.getD_some]
  have final : Spreading nodeIds successors (reached, []) := by
    refine Loop.run_spec (Spreading nodeIds successors)
      (fun reached => Spreading nodeIds successors (reached, []))
      (fun _ _ spreading taken => (spreading.turn closed taken).1) ?_
      (spreading_start closed distinct) left
    rintro ⟨reached, pending⟩ result spreading taken
    cases pending with
    | nil =>
        cases taken
        exact spreading
    | cons source pending => cases taken
  rw [result]
  constructor
  · exact final.after node
  · rintro ⟨start, known, cyclic, path⟩
    induction path with
    | refl => exact final.cycles start known cyclic
    | tail _ edge ih => exact final.explored _ ih List.not_mem_nil edge

end Paths

/-! ## Growing sets -/

/-- A pass that adds known nodes to a set is repeated at most once for each node. -/
theorem growing_terminates {nodeIds start : List GraphNodeId}
    {pass : List GraphNodeId → List GraphNodeId}
    (strict : ∀ set : List GraphNodeId, set.Pairwise (· < ·) → (pass set).Pairwise (· < ·))
    (grows : ∀ set, set ⊆ pass set) (bounded : ∀ set, set ⊆ nodeIds → pass set ⊆ nodeIds)
    (ordered : start.Pairwise (· < ·)) (known : start ⊆ nodeIds) :
    ∃ result, Loop.run (Loop.untilStable pass) (nodeIds.length + 1) start = some result := by
  refine Loop.run_untilStable_terminates
    (fun set : List GraphNodeId => set.Pairwise (· < ·) ∧ set ⊆ nodeIds) List.length nodeIds.length
    ?_ ?_ ?_ ⟨ordered, known⟩ (by omega)
  · rintro set ⟨increasing, inside⟩
    exact ⟨strict set increasing, bounded set inside⟩
  · rintro set ⟨increasing, -⟩ changes
    exact length_lt_of_strict increasing (strict set increasing) (grows set)
      (fun same => changes same.symm)
  · rintro set ⟨increasing, inside⟩
    exact (nodup_of_strict increasing).length_le_of_subset inside

section Growing

variable {nodeIds entries : List GraphNodeId} {successors : Successors} {joins : List JoinEdge}
  {gates : ActivationGates}

theorem mem_reachJoin (reached : List GraphNodeId) (join : JoinEdge) (node : GraphNodeId) :
    node ∈ reachJoin reached join ↔ node ∈ reached ∨ node = join.target ∧ join.target ≠ END ∧
      ∀ source ∈ join.sources, source ∈ reached := by
  unfold reachJoin
  split
  · rename_i fires
    rw [mem_sortedSet, List.mem_cons]
    constructor
    · rintro (rfl | old)
      · exact .inr ⟨rfl, fires.1, fires.2.1⟩
      · exact .inl old
    · rintro (old | ⟨rfl, -⟩)
      · exact .inr old
      · exact .inl rfl
  · rename_i idle
    constructor
    · exact .inl
    · rintro (old | ⟨rfl, inner, all⟩)
      · exact old
      · by_contra absent
        exact idle ⟨inner, all, absent⟩

theorem reachJoin_strict {reached : List GraphNodeId} (strict : reached.Pairwise (· < ·))
    (join : JoinEdge) : (reachJoin reached join).Pairwise (· < ·) := by
  unfold reachJoin
  split
  · exact sortedSet_strict _
  · exact strict

/-- What every Join of a pass keeps holds after them. -/
theorem foldl_preserves {α β : Type} {P : β → Prop} {step : β → α → β} {xs : List α}
    (keeps : ∀ state, P state → ∀ x ∈ xs, P (step state x)) {start : β} (holds : P start) :
    P (xs.foldl step start) := by
  induction xs generalizing start with
  | nil => exact holds
  | cons x xs ih =>
      apply ih
      · exact fun state kept y member => keeps state kept y (List.mem_cons_of_mem _ member)
      · exact keeps start holds x List.mem_cons_self

/-- A fold of growing steps is above what each of its steps made of a state above the start. -/
theorem foldl_visits {α β : Type} (below : β → β → Prop) (step : β → α → β)
    (refl : ∀ state, below state state)
    (trans : ∀ {a b c}, below a b → below b c → below a c)
    (grows : ∀ state x, below state (step state x)) {xs : List α} {x : α} (member : x ∈ xs)
    (start : β) : ∃ state, below start state ∧ below (step state x) (xs.foldl step start) := by
  have above : ∀ (ys : List α) (first : β), below first (ys.foldl step first) := by
    intro ys first
    refine foldl_preserves (P := below first) ?_ (refl first)
    exact fun state kept y _ => trans kept (grows state y)
  induction xs generalizing start with
  | nil => cases member
  | cons y ys ih =>
      rcases List.mem_cons.mp member with rfl | later
      · exact ⟨start, refl start, above ys _⟩
      · obtain ⟨state, kept, visited⟩ := ih later (step start y)
        exact ⟨state, trans (grows start y) kept, visited⟩

/-- The loop of `_reachable` is left. -/
theorem reachable_terminates (closed : ClosedOn nodeIds successors) (known : entries ⊆ nodeIds)
    (targets : ∀ join ∈ joins, join.target ≠ END → join.target ∈ nodeIds) :
    ∃ reached, reachable nodeIds entries successors joins = .ok reached := by
  have left : ∃ reached, Loop.run (Loop.untilStable (reachablePass successors joins))
      (nodeIds.length + 1) (sortedSet entries) = some reached := by
    apply growing_terminates
    · intro set _
      refine foldl_preserves (P := List.Pairwise (· < ·)) ?_ (sortedSet_strict _)
      exact fun state strict join _ => reachJoin_strict strict join
    · intro set
      refine foldl_preserves (P := fun state => set ⊆ state) ?_ ?_
      · intro state kept join _ node member
        exact (mem_reachJoin state join node).mpr (.inl (kept member))
      · intro node member
        exact mem_sortedSet.mpr (List.mem_append_left _ member)
    · intro set inside
      refine foldl_preserves (P := fun state => state ⊆ nodeIds) ?_ ?_
      · intro state kept join member node reached
        rcases (mem_reachJoin state join node).mp reached with old | ⟨rfl, inner, -⟩
        · exact kept old
        · exact targets join member inner
      · intro node member
        rcases List.mem_append.mp (mem_sortedSet.mp member) with old | new
        · exact inside old
        · obtain ⟨source, sourceMember, edge⟩ := List.mem_flatMap.mp new
          exact closed source (inside sourceMember) edge
    · exact sortedSet_strict _
    · intro node member
      exact known (mem_sortedSet.mp member)
  obtain ⟨reached, left⟩ := left
  exact ⟨reached, by rw [reachable, left]; rfl⟩

theorem mem_repeatNode (repeatable : List GraphNodeId) (node other : GraphNodeId) :
    other ∈ repeatNode gates repeatable node ↔ other ∈ repeatable ∨
      other = node ∧ ∃ gate ∈ gates node, ∃ pair ∈ gate, pair.1 ∈ repeatable := by
  unfold repeatNode
  split
  · rename_i fires
    rw [mem_sortedSet, List.mem_cons]
    constructor
    · rintro (rfl | old)
      · exact .inr ⟨rfl, fires.2⟩
      · exact .inl old
    · rintro (old | ⟨rfl, -⟩)
      · exact .inr old
      · exact .inl rfl
  · rename_i idle
    constructor
    · exact .inl
    · rintro (old | ⟨rfl, gated⟩)
      · exact old
      · by_contra absent
        exact idle ⟨absent, gated⟩

/-- The loop of `_repeatable_nodes` is left. -/
theorem repeatableNodes_terminates (closed : ClosedOn nodeIds successors)
    (distinct : nodeIds.Nodup) (known : entries ⊆ nodeIds) :
    ∃ repeatable, repeatableNodes nodeIds entries gates successors = .ok repeatable := by
  have left : ∃ repeatable,
      Loop.run (Loop.untilStable (fun set => nodeIds.foldl (repeatNode gates) set))
      (nodeIds.length + 1) (sortedSet (cycleReachableNodes nodeIds successors ++
        entries.filter (fun node => gates node ≠ []))) = some repeatable := by
    apply growing_terminates
    · intro set strict
      refine foldl_preserves (fun state ordered node _ => ?_) strict
      unfold repeatNode
      split
      · exact sortedSet_strict _
      · exact ordered
    · intro set
      refine foldl_preserves (P := fun state => set ⊆ state) ?_ (fun _ member => member)
      intro state kept node _ other member
      exact (mem_repeatNode state node other).mpr (.inl (kept member))
    · intro set inside
      refine foldl_preserves (P := fun state => state ⊆ nodeIds) ?_ inside
      intro state kept node member other added
      rcases (mem_repeatNode state node other).mp added with old | ⟨rfl, -⟩
      · exact kept old
      · exact member
    · exact sortedSet_strict _
    · intro node member
      rcases List.mem_append.mp (mem_sortedSet.mp member) with cyclic | entry
      · obtain ⟨start, startKnown, -, path⟩ := (mem_cycleReachableNodes closed distinct).mp cyclic
        exact closed.path startKnown path
      · exact known (List.mem_filter.mp entry).1
  obtain ⟨repeatable, left⟩ := left
  exact ⟨repeatable, by rw [repeatableNodes, left]; rfl⟩

end Growing

/-! ## Growing tables -/

section Tables

variable {α : Type} [LinearOrder α] {nodeIds : List GraphNodeId}

/-- The size of all sets of a table. -/
def tableSize (nodeIds : List GraphNodeId) (table : Dict GraphNodeId (List α)) : Nat :=
  (nodeIds.map (fun node => (table.getItem node).length)).sum

/-- The tables of a loop: one set of bounded size for every node. -/
structure Tabled (nodeIds : List GraphNodeId) (table : Dict GraphNodeId (List α)) : Prop where
  keys : table.keys = nodeIds
  strict : ∀ node ∈ nodeIds, (table.getItem node).Pairwise (· < ·)

/-- A pass that only adds to the sets of a table, and never more than a bound to each, is repeated
finitely often. -/
theorem tables_terminate {bound : Nat} {start : Dict GraphNodeId (List α)}
    (pass : Dict GraphNodeId (List α) → Dict GraphNodeId (List α))
    (Inv : Dict GraphNodeId (List α) → Prop) (tabled : ∀ table, Inv table → Tabled nodeIds table)
    (keeps : ∀ table, Inv table → Inv (pass table))
    (grows : ∀ table, Inv table → ∀ node ∈ nodeIds,
      table.getItem node ⊆ (pass table).getItem node)
    (bounded : ∀ table, Inv table → ∀ node ∈ nodeIds, (table.getItem node).length ≤ bound)
    (holds : Inv start) :
    ∃ result, Loop.run (Loop.untilStable pass) (nodeIds.length * bound + 1) start = some result := by
  refine Loop.run_untilStable_terminates Inv (tableSize nodeIds) (nodeIds.length * bound) keeps
    ?_ ?_ holds (by omega)
  · intro table inv changes
    have before := tabled table inv
    have after := tabled (pass table) (keeps table inv)
    have longer : ∀ node ∈ nodeIds,
        (table.getItem node).length ≤ ((pass table).getItem node).length := fun node known =>
      (nodup_of_strict (before.strict node known)).length_le_of_subset (grows table inv node known)
    apply List.sum_lt_sum _ _ longer
    by_contra none
    apply changes
    apply Dict.ext_getItem (after.keys.trans before.keys.symm)
    intro node member
    rw [after.keys] at member
    by_contra different
    apply none
    exact ⟨node, member, length_lt_of_strict (before.strict node member) (after.strict node member)
      (grows table inv node member) (fun same => different same.symm)⟩
  · intro table inv
    have each : ∀ size ∈ nodeIds.map (fun node => (table.getItem node).length), size ≤ bound := by
      intro size member
      obtain ⟨node, known, rfl⟩ := List.mem_map.mp member
      exact bounded table inv node known
    have total := List.sum_le_card_nsmul _ bound each
    simpa [tableSize] using total

end Tables

/-! ## Guaranteed predecessors -/

section Guaranteed

variable {nodeIds entries : List GraphNodeId} {gates : ActivationGates}
  {guarantees : Dict GraphNodeId (List GraphNodeId)}

theorem mem_common {alternatives : List (List GraphNodeId)} {node : GraphNodeId} :
    node ∈ common alternatives ↔ alternatives ≠ [] ∧ ∀ set ∈ alternatives, node ∈ set := by
  cases alternatives with
  | nil => simp [common]
  | cons first rest =>
      have kept : ∀ set : List GraphNodeId, node ∈ rest.foldl
          (fun kept alternative => kept.filter (· ∈ alternative)) set ↔
            node ∈ set ∧ ∀ other ∈ rest, node ∈ other := by
        induction rest with
        | nil => simp
        | cons second rest ih =>
            intro set
            rw [List.foldl_cons, ih, List.mem_filter, List.forall_mem_cons, decide_eq_true_eq,
              and_assoc]
      rw [common, kept, List.forall_mem_cons]
      simp

theorem mem_guaranteeAlternatives {set : List GraphNodeId} {node : GraphNodeId} :
    set ∈ guaranteeAlternatives entries gates guarantees node ↔
      (node ∈ entries ∧ set = []) ∨ ∃ gate ∈ gates node,
        set = sortedSet (gate.flatMap (fun pair => guarantees.getItem pair.1)) := by
  rw [guaranteeAlternatives, List.mem_append, List.mem_map]
  refine or_congr ?_ (exists_congr (fun gate => and_congr_right (fun _ => eq_comm)))
  split
  · simp [*]
  · simp [*]

/-- What is guaranteed before a node: itself, or a node that every way to activate it brings. -/
theorem mem_guaranteedPass {node : GraphNodeId} (known : node ∈ nodeIds) {other : GraphNodeId} :
    other ∈ (guaranteedPass nodeIds entries gates guarantees).getItem node ↔ other = node ∨
      node ∉ entries ∧ gates node ≠ [] ∧ ∀ gate ∈ gates node, ∃ pair ∈ gate,
        other ∈ guarantees.getItem pair.1 := by
  rw [guaranteedPass, Dict.getItem_build known, mem_sortedSet, List.mem_cons, mem_common]
  refine or_congr_right ?_
  simp only [mem_guaranteeAlternatives]
  constructor
  · rintro ⟨nonempty, all⟩
    have outside : node ∉ entries := by
      intro entry
      exact List.not_mem_nil (all [] (.inl ⟨entry, rfl⟩))
    refine ⟨outside, ?_, ?_⟩
    · intro none
      apply nonempty
      simp [guaranteeAlternatives, outside, none]
    · intro gate member
      have inside := all _ (.inr ⟨gate, member, rfl⟩)
      rwa [mem_sortedSet, List.mem_flatMap] at inside
  · rintro ⟨outside, gated, all⟩
    constructor
    · simp [guaranteeAlternatives, outside, gated]
    · rintro set (⟨entry, -⟩ | ⟨gate, member, rfl⟩)
      · exact absurd entry outside
      · rw [mem_sortedSet, List.mem_flatMap]
        exact all gate member

/-- The tables of `_guaranteed_sets`: known nodes, and a pass only adds to them. -/
structure Guaranteeing (nodeIds entries : List GraphNodeId) (gates : ActivationGates)
    (guarantees : Dict GraphNodeId (List GraphNodeId)) : Prop extends
    Tabled nodeIds guarantees where
  known : ∀ node ∈ nodeIds, guarantees.getItem node ⊆ nodeIds
  grows : ∀ node ∈ nodeIds, guarantees.getItem node ⊆
    (guaranteedPass nodeIds entries gates guarantees).getItem node

theorem Guaranteeing.pass (distinct : nodeIds.Nodup)
    (sources : ∀ node ∈ nodeIds, ∀ gate ∈ gates node, ∀ pair ∈ gate, pair.1 ∈ nodeIds)
    (holds : Guaranteeing nodeIds entries gates guarantees) :
    Guaranteeing nodeIds entries gates (guaranteedPass nodeIds entries gates guarantees) := by
  constructor
  · constructor
    · exact Dict.keys_build distinct _
    · intro node member
      rw [guaranteedPass, Dict.getItem_build member]
      exact sortedSet_strict _
  · intro node member other inside
    rcases (mem_guaranteedPass member).mp inside with rfl | ⟨-, gated, all⟩
    · exact member
    · obtain ⟨gate, gateMember⟩ := List.exists_mem_of_ne_nil _ gated
      obtain ⟨pair, pairMember, below⟩ := all gate gateMember
      exact holds.known pair.1 (sources node member gate gateMember pair pairMember) below
  · intro node member other inside
    rcases (mem_guaranteedPass member).mp inside with rfl | ⟨outside, gated, all⟩
    · exact (mem_guaranteedPass member).mpr (.inl rfl)
    · refine (mem_guaranteedPass member).mpr (.inr ⟨outside, gated, ?_⟩)
      intro gate gateMember
      obtain ⟨pair, pairMember, below⟩ := all gate gateMember
      exact ⟨pair, pairMember,
        holds.grows pair.1 (sources node member gate gateMember pair pairMember) below⟩

theorem guaranteeing_start (distinct : nodeIds.Nodup) :
    Guaranteeing nodeIds entries gates (Dict.build nodeIds (fun node => [node])) := by
  constructor
  · constructor
    · exact Dict.keys_build distinct _
    · intro node member
      rw [Dict.getItem_build member]
      exact List.pairwise_singleton _ _
  · intro node member other inside
    rw [Dict.getItem_build member, List.mem_singleton] at inside
    rw [inside]
    exact member
  · intro node member other inside
    rw [Dict.getItem_build member, List.mem_singleton] at inside
    exact (mem_guaranteedPass member).mpr (.inl inside)

/-- The loop of `_guaranteed_sets` is left. -/
theorem guaranteedSets_terminates (distinct : nodeIds.Nodup)
    (sources : ∀ node ∈ nodeIds, ∀ gate ∈ gates node, ∀ pair ∈ gate, pair.1 ∈ nodeIds) :
    ∃ guarantees, guaranteedSets nodeIds entries gates = .ok guarantees := by
  obtain ⟨guarantees, left⟩ := tables_terminate _ (Guaranteeing nodeIds entries gates)
    (fun _ holds => holds.toTabled) (fun _ holds => holds.pass distinct sources)
    (fun _ holds => holds.grows)
    (fun _ holds node member => (nodup_of_strict (holds.strict node member)).length_le_of_subset
      (holds.known node member))
    (guaranteeing_start distinct)
  exact ⟨guarantees, by rw [guaranteedSets, left]; rfl⟩

/-- `_guaranteed_sets` returns a table that a pass does not change. -/
theorem guaranteedSets_stable
    (computed : guaranteedSets nodeIds entries gates = .ok guarantees) :
    guaranteedPass nodeIds entries gates guarantees = guarantees :=
  (Loop.run_untilStable (fun _ => True) (fun _ _ => trivial) trivial
    ((orRaise_eq_ok _ _ _).mp computed)).2

/-- The guaranteed predecessors of known nodes are known. -/
theorem guaranteedSets_known (distinct : nodeIds.Nodup)
    (sources : ∀ node ∈ nodeIds, ∀ gate ∈ gates node, ∀ pair ∈ gate, pair.1 ∈ nodeIds)
    (computed : guaranteedSets nodeIds entries gates = .ok guarantees) :
    ∀ node ∈ nodeIds, guarantees.getItem node ⊆ nodeIds :=
  (Loop.run_untilStable (Guaranteeing nodeIds entries gates)
    (fun _ holds => holds.pass distinct sources) (guaranteeing_start distinct)
    ((orRaise_eq_ok _ _ _).mp computed)).1.known

end Guaranteed

/-! ## Activation levels -/

section Levels

variable {nodeIds entries variableNodes : List GraphNodeId} {successors : Successors}
  {levels : Dict GraphNodeId (List Nat)}

/-- The level sets of `_absolute_activation_levels`: every level is the length of a walk that
avoids the cycles. -/
structure Leveling (nodeIds variableNodes : List GraphNodeId) (successors : Successors)
    (levels : Dict GraphNodeId (List Nat)) : Prop extends Tabled nodeIds levels where
  walks : ∀ node ∈ nodeIds, ∀ level ∈ levels.getItem node, ∃ walk : List GraphNodeId,
    walk.IsChain (Adjacent successors) ∧ walk.length = level + 1 ∧ walk.getLast? = some node ∧
      ∀ passed ∈ walk, passed ∈ nodeIds ∧ passed ∉ variableNodes

theorem getItem_levelEdge (edge : GraphNodeId × GraphNodeId) (node : GraphNodeId) :
    (levelEdge variableNodes levels edge).getItem node =
      if node = edge.2 ∧ edge.2 ∉ variableNodes then
        sortedSet (levels.getItem edge.2 ++ (levels.getItem edge.1).map (· + 1))
      else levels.getItem node := by
  unfold levelEdge
  by_cases varies : edge.2 ∈ variableNodes
  · simp [varies]
  · simp [varies, Dict.getItem_set]

theorem levelEdge_grows (edge : GraphNodeId × GraphNodeId) (node : GraphNodeId) :
    levels.getItem node ⊆ (levelEdge variableNodes levels edge).getItem node := by
  intro level member
  rw [getItem_levelEdge]
  split
  · rename_i target
    rw [mem_sortedSet, ← target.1]
    exact List.mem_append_left _ member
  · exact member

theorem Leveling.edge (closed : ClosedOn nodeIds successors)
    (leveling : Leveling nodeIds variableNodes successors levels)
    {edge : GraphNodeId × GraphNodeId} (known : edge.1 ∈ nodeIds)
    (adjacent : edge.2 ∈ successors edge.1) :
    Leveling nodeIds variableNodes successors (levelEdge variableNodes levels edge) := by
  have target : edge.2 ∈ nodeIds := closed edge.1 known adjacent
  constructor
  · constructor
    · unfold levelEdge
      split
      · exact leveling.keys
      · rw [Dict.keys_set_of_mem _ _ _ (by rw [leveling.keys]; exact target), leveling.keys]
    · intro node member
      rw [getItem_levelEdge]
      split
      · exact sortedSet_strict _
      · exact leveling.strict node member
  · intro node member level inside
    rw [getItem_levelEdge] at inside
    split at inside
    · rename_i fixed
      obtain ⟨rfl, fixed⟩ := fixed
      rcases List.mem_append.mp (mem_sortedSet.mp inside) with old | new
      · exact leveling.walks _ member level old
      · obtain ⟨before, beforeMember, rfl⟩ := List.mem_map.mp new
        obtain ⟨walk, chain, length, last, passes⟩ :=
          leveling.walks edge.1 known before beforeMember
        refine ⟨walk ++ [edge.2], ?_, by simp [length], by simp, ?_⟩
        · refine List.isChain_append.mpr ⟨chain, List.isChain_singleton _, ?_⟩
          rintro x final y next
          rw [last] at final
          cases final
          cases next
          exact adjacent
        · intro passed passedMember
          rcases List.mem_append.mp passedMember with earlier | final
          · exact passes passed earlier
          · rw [List.mem_singleton.mp final]
            exact ⟨member, fixed⟩
    · exact leveling.walks node member level inside

theorem Leveling.bounded (closed : ClosedOn nodeIds successors) (distinct : nodeIds.Nodup)
    (leveling : Leveling nodeIds (cycleReachableNodes nodeIds successors) successors levels)
    {node : GraphNodeId} (known : node ∈ nodeIds) :
    (levels.getItem node).length ≤ nodeIds.length := by
  have inside : levels.getItem node ⊆ List.range nodeIds.length := by
    intro level member
    obtain ⟨walk, chain, length, -, passes⟩ := leveling.walks node known level member
    have short := walk_length chain (fun passed passedMember cyclic =>
      (passes passed passedMember).2 ((mem_cycleReachableNodes closed distinct).mpr
        ⟨passed, (passes passed passedMember).1, cyclic, .refl⟩))
      (fun passed passedMember => (passes passed passedMember).1)
    rw [List.mem_range]
    omega
  have bound := (nodup_of_strict (leveling.strict node known)).length_le_of_subset inside
  rwa [List.length_range] at bound

theorem leveling_start (entries : List GraphNodeId) (distinct : nodeIds.Nodup) :
    Leveling nodeIds variableNodes successors (Dict.build nodeIds (fun node =>
      if node ∈ entries ∧ node ∉ variableNodes then [0] else [])) := by
  constructor
  · constructor
    · exact Dict.keys_build distinct _
    · intro node member
      rw [Dict.getItem_build member]
      split
      · exact List.pairwise_singleton _ _
      · exact List.Pairwise.nil
  · intro node member level inside
    rw [Dict.getItem_build member] at inside
    split at inside
    · rename_i fixed
      rw [List.mem_singleton.mp inside]
      refine ⟨[node], List.isChain_singleton _, rfl, rfl, ?_⟩
      intro passed passedMember
      rw [List.mem_singleton.mp passedMember]
      exact ⟨member, fixed.2⟩
    · cases inside

/-- The edges between the nodes, in the order of the loop. -/
theorem mem_edges {edge : GraphNodeId × GraphNodeId} :
    edge ∈ nodeIds.flatMap (fun source => (successors source).map (fun target => (source, target))) ↔
      edge.1 ∈ nodeIds ∧ edge.2 ∈ successors edge.1 := by
  obtain ⟨source, target⟩ := edge
  simp only [List.mem_flatMap, List.mem_map, Prod.mk.injEq]
  constructor
  · rintro ⟨_, known, _, adjacent, rfl, rfl⟩
    exact ⟨known, adjacent⟩
  · rintro ⟨known, adjacent⟩
    exact ⟨source, known, target, adjacent, rfl, rfl⟩

/-- The loop of `_absolute_activation_levels` is left. -/
theorem activationLevels_terminates (closed : ClosedOn nodeIds successors)
    (distinct : nodeIds.Nodup) :
    ∃ levels, activationLevels nodeIds entries successors = .ok levels := by
  obtain ⟨levels, left⟩ := tables_terminate
    (fun levels => (nodeIds.flatMap (fun source => (successors source).map
      (fun target => (source, target)))).foldl
        (levelEdge (cycleReachableNodes nodeIds successors)) levels)
    (Leveling nodeIds (cycleReachableNodes nodeIds successors) successors)
    (fun _ holds => holds.toTabled)
    (fun _ holds => foldl_preserves (fun _ leveling edge member =>
      leveling.edge closed (mem_edges.mp member).1 (mem_edges.mp member).2) holds)
    (fun table _ node _ => foldl_preserves
      (P := fun after : Dict GraphNodeId (List Nat) => table.getItem node ⊆ after.getItem node)
      (fun _ kept edge _ _ member => levelEdge_grows edge node (kept member))
      (fun _ member => member))
    (fun _ holds node known => holds.bounded closed distinct known)
    (leveling_start entries distinct)
  exact ⟨levels, by rw [activationLevels, left]; rfl⟩

/-- Every level the loop leaves is the length of a walk that avoids the cycles. -/
theorem activationLevels_leveling (closed : ClosedOn nodeIds successors) (distinct : nodeIds.Nodup)
    (computed : activationLevels nodeIds entries successors = .ok levels) :
    Leveling nodeIds (cycleReachableNodes nodeIds successors) successors levels :=
  (Loop.run_untilStable (Leveling nodeIds (cycleReachableNodes nodeIds successors) successors)
    (fun _ holds => foldl_preserves (fun _ leveling _ member =>
      leveling.edge closed (mem_edges.mp member).1 (mem_edges.mp member).2) holds)
    (leveling_start entries distinct) ((orRaise_eq_ok _ _ _).mp computed)).1

/-- A node with a level is not after a cycle. -/
theorem Leveling.fixed (leveling : Leveling nodeIds variableNodes successors levels)
    {node : GraphNodeId} {level : Nat} (member : level ∈ levels.getItem node) :
    node ∈ nodeIds ∧ node ∉ variableNodes := by
  have known : node ∈ nodeIds := by
    rw [← leveling.keys]
    by_contra absent
    rw [Dict.getItem, (Dict.get?_eq_none _ _).mpr absent] at member
    cases member
  obtain ⟨walk, -, -, last, passes⟩ := leveling.walks node known level member
  exact passes node (List.mem_of_getLast? last)

/-- The levels start at the entries and follow the edges outside the nodes after a cycle. -/
theorem activationLevels_spec (entriesKnown : entries ⊆ nodeIds)
    (computed : activationLevels nodeIds entries successors = .ok levels) :
    (∀ entry ∈ entries, entry ∉ cycleReachableNodes nodeIds successors →
      0 ∈ levels.getItem entry) ∧
    ∀ source ∈ nodeIds, ∀ target ∈ successors source,
      target ∉ cycleReachableNodes nodeIds successors → ∀ level ∈ levels.getItem source,
        level + 1 ∈ levels.getItem target := by
  have left := (orRaise_eq_ok _ _ _).mp computed
  obtain ⟨contains, stable⟩ := Loop.run_untilStable
    (fun table : Dict GraphNodeId (List Nat) => ∀ entry ∈ entries,
      entry ∉ cycleReachableNodes nodeIds successors → 0 ∈ table.getItem entry)
    (fun table holds => foldl_preserves
      (P := fun after : Dict GraphNodeId (List Nat) => ∀ entry ∈ entries,
        entry ∉ cycleReachableNodes nodeIds successors → 0 ∈ after.getItem entry)
      (fun _ kept edge _ entry member fixed => levelEdge_grows edge entry (kept entry member fixed))
      holds)
    (by
      intro entry member fixed
      rw [Dict.getItem_build (entriesKnown member), if_pos ⟨member, fixed⟩]
      exact List.mem_singleton.mpr rfl) left
  refine ⟨contains, ?_⟩
  intro source known target adjacent fixed level member
  obtain ⟨state, kept, visited⟩ := foldl_visits
    (fun s t : Dict GraphNodeId (List Nat) => ∀ node, s.getItem node ⊆ t.getItem node)
    (levelEdge (cycleReachableNodes nodeIds successors))
    (fun _ _ _ inner => inner) (fun first second node _ inner => second node (first node inner))
    (fun _ edge node => levelEdge_grows edge node)
    (mem_edges.mpr (show (source, target).1 ∈ nodeIds ∧ _ from ⟨known, adjacent⟩)) levels
  rw [stable] at visited
  apply visited target
  rw [getItem_levelEdge, if_pos ⟨rfl, fixed⟩, mem_sortedSet]
  exact List.mem_append_right _ (List.mem_map.mpr ⟨level, kept source member, rfl⟩)

end Levels

/-! ## Activation order -/

section Order

variable {nodeIds fixed : List GraphNodeId} {dependencies : GraphNodeId → List GraphNodeId}

/-- Every node comes after its dependencies. -/
def Ordered (dependencies : GraphNodeId → List GraphNodeId) (order : List GraphNodeId) : Prop :=
  ∀ before node after, order = before ++ node :: after → dependencies node ⊆ before

theorem Ordered.append {order more : List GraphNodeId} (ordered : Ordered dependencies order)
    (ready : ∀ node ∈ more, dependencies node ⊆ order) : Ordered dependencies (order ++ more) := by
  intro before node after split
  rcases List.append_eq_append_iff.mp split with ⟨part, rfl, rest⟩ | ⟨part, rest, tail⟩
  · intro source member
    refine List.mem_append_left _ (ready node ?_ member)
    rw [rest]
    exact List.mem_append_right _ List.mem_cons_self
  · cases part with
    | nil =>
        rw [List.append_nil] at rest
        subst rest
        refine ready node ?_
        rw [List.nil_append] at tail
        rw [← tail]
        exact List.mem_cons_self
    | cons first part =>
        rw [List.cons_append, List.cons.injEq] at tail
        obtain ⟨rfl, -⟩ := tail
        exact ordered before node part rest

/-- A dependency stands before its node. -/
theorem Ordered.idxOf_lt {order : List GraphNodeId} (ordered : Ordered dependencies order)
    {node source : GraphNodeId} (member : node ∈ order) (once : order.Nodup)
    (needed : source ∈ dependencies node) :
    source ∈ order ∧ order.idxOf source < order.idxOf node := by
  obtain ⟨before, after, rfl⟩ := List.append_of_mem member
  have inside := ordered before node after rfl needed
  have fresh : node ∉ before := by
    intro early
    exact List.disjoint_of_nodup_append once early List.mem_cons_self
  refine ⟨List.mem_append_left _ inside, ?_⟩
  rw [List.idxOf_append_of_mem inside, List.idxOf_append_of_notMem fresh]
  exact lt_of_lt_of_le (List.idxOf_lt_length_of_mem inside) (Nat.le_add_right _ _)

/-- The states of the `while pending` loop of `_validate_joint_activation_paths`. -/
structure Sorting (fixed : List GraphNodeId) (dependencies : GraphNodeId → List GraphNodeId)
    (state : List GraphNodeId × List GraphNodeId) : Prop where
  parts : (state.1 ++ state.2).Perm fixed
  ordered : Ordered dependencies state.2

/-- One of the pending nodes has all its dependencies. -/
theorem exists_ready {pending ordered : List GraphNodeId}
    (acyclic : ∀ node ∈ fixed, ¬ OnCycle dependencies node)
    (inside : ∀ node ∈ fixed, dependencies node ⊆ fixed)
    (parts : (pending ++ ordered).Perm fixed) (nonempty : pending ≠ []) :
    ∃ node ∈ pending, dependencies node ⊆ ordered := by
  by_contra none
  obtain ⟨node, member, cyclic⟩ : ∃ node ∈ pending, OnCycle dependencies node := by
    apply exists_onCycle nonempty
    intro node member
    by_contra alone
    apply none
    refine ⟨node, member, ?_⟩
    intro source sourceMember
    have known : node ∈ fixed := parts.mem_iff.mp (List.mem_append_left _ member)
    have source' : source ∈ pending ++ ordered :=
      parts.mem_iff.mpr (inside node known sourceMember)
    rcases List.mem_append.mp source' with waiting | done
    · exact absurd ⟨source, waiting, sourceMember⟩ alone
    · exact done
  exact acyclic node (parts.mem_iff.mp (List.mem_append_left _ member)) cyclic

theorem Sorting.turn (distinct : fixed.Nodup)
    (acyclic : ∀ node ∈ fixed, ¬ OnCycle dependencies node)
    (inside : ∀ node ∈ fixed, dependencies node ⊆ fixed)
    {state next : List GraphNodeId × List GraphNodeId} (sorting : Sorting fixed dependencies state)
    (taken : orderTurn dependencies state = .inl next) :
    Sorting fixed dependencies next ∧ next.1.length < state.1.length := by
  obtain ⟨pending, ordered⟩ := state
  cases pending with
  | nil => cases taken
  | cons first pending =>
      cases taken
      set ready := sorted ((first :: pending).filter (fun node =>
        (dependencies node).all (fun source => source ∈ ordered))) with readyDef
      have mem_ready : ∀ node, node ∈ ready ↔
          node ∈ first :: pending ∧ dependencies node ⊆ ordered := by
        intro node
        rw [readyDef, mem_sorted, List.mem_filter, List.all_eq_true]
        refine and_congr_right (fun _ => forall_congr' (fun source => ?_))
        rw [decide_eq_true_eq]
      have once : (first :: pending).Nodup := by
        have both := sorting.parts.nodup_iff.mpr distinct
        exact (List.nodup_append.mp both).1
      have readyPerm : ready.Perm ((first :: pending).filter (· ∈ ready)) := by
        refine (List.perm_ext_iff_of_nodup ?_ (once.filter _)).mpr ?_
        · rw [readyDef]
          exact (perm_sorted _).nodup_iff.mpr (once.filter _)
        · intro node
          rw [List.mem_filter, decide_eq_true_eq]
          exact ⟨fun member => ⟨((mem_ready node).mp member).1, member⟩, And.right⟩
      refine ⟨⟨?_, ?_⟩, ?_⟩
      · refine List.Perm.trans ?_ sorting.parts
        have split := List.filter_append_perm (fun node => decide (node ∉ ready)) (first :: pending)
        have rest : (first :: pending).filter (fun node => !decide (node ∉ ready)) =
            (first :: pending).filter (· ∈ ready) := by
          refine List.filter_congr (fun node _ => ?_)
          simp
        rw [rest] at split
        have moved : ((first :: pending).filter (fun node => decide (node ∉ ready)) ++ ready).Perm
            (first :: pending) := (readyPerm.append_left _).trans split
        refine List.Perm.trans ?_ (moved.append_right ordered)
        rw [List.append_assoc]
        exact List.perm_append_comm.append_left _
      · apply sorting.ordered.append
        intro node member
        exact ((mem_ready node).mp member).2
      · obtain ⟨node, member, done⟩ := exists_ready acyclic inside sorting.parts (by simp)
        apply List.length_filter_lt_length_iff_exists.mpr
        refine ⟨node, member, ?_⟩
        simp [(mem_ready node).mpr ⟨member, done⟩]

theorem sorting_start : Sorting fixed dependencies (fixed, []) := by
  refine ⟨by rw [List.append_nil], ?_⟩
  intro before node after split
  cases before <;> cases split

/-- The `while pending` loop is left with an order of all nodes. -/
theorem order_terminates (distinct : fixed.Nodup)
    (acyclic : ∀ node ∈ fixed, ¬ OnCycle dependencies node)
    (inside : ∀ node ∈ fixed, dependencies node ⊆ fixed) :
    ∃ ordered, Loop.run (orderTurn dependencies) (fixed.length + 1) (fixed, []) = some ordered := by
  refine Loop.run_terminates (Sorting fixed dependencies) (fun state => state.1.length)
    (fun _ _ sorting taken => sorting.turn distinct acyclic inside taken) sorting_start ?_
  simp

theorem order_spec {fuel : Nat} {ordered : List GraphNodeId} (distinct : fixed.Nodup)
    (acyclic : ∀ node ∈ fixed, ¬ OnCycle dependencies node)
    (inside : ∀ node ∈ fixed, dependencies node ⊆ fixed)
    (left : Loop.run (orderTurn dependencies) fuel (fixed, []) = some ordered) :
    ordered.Perm fixed ∧ Ordered dependencies ordered := by
  refine Loop.run_spec (Sorting fixed dependencies)
    (fun ordered => ordered.Perm fixed ∧ Ordered dependencies ordered)
    (fun _ _ sorting taken => (sorting.turn distinct acyclic inside taken).1) ?_ sorting_start left
  rintro ⟨pending, ordered⟩ result sorting taken
  cases pending with
  | nil =>
      cases taken
      exact ⟨sorting.parts, sorting.ordered⟩
  | cons first pending => cases taken

/-- The successors in the relation whose cycles `_validate_joint_activation_paths` leaves out. -/
def dependencySuccessors (nodeIds : List GraphNodeId) (dataDependencies : DataDependencies)
    (successors : Successors) : Successors :=
  fun node => sortedSet (successors node ++
    nodeIds.filter (fun target => node ∈ dataDependencies target))

/-- The nodes with a fixed activation. -/
def fixedNodes (nodeIds : List GraphNodeId) (dataDependencies : DataDependencies)
    (successors : Successors) : List GraphNodeId :=
  nodeIds.filter (· ∉ cycleReachableNodes nodeIds
    (dependencySuccessors nodeIds dataDependencies successors))

variable {gates : ActivationGates} {dataDependencies : DataDependencies} {successors : Successors}

theorem dependencySuccessors_closed (closed : ClosedOn nodeIds successors) :
    ClosedOn nodeIds (dependencySuccessors nodeIds dataDependencies successors) := by
  intro node known next member
  rcases List.mem_append.mp (mem_sortedSet.mp member) with control | value
  · exact closed node known control
  · exact (List.mem_filter.mp value).1

theorem mem_fixedNodes (closed : ClosedOn nodeIds successors) (distinct : nodeIds.Nodup)
    {node : GraphNodeId} : node ∈ fixedNodes nodeIds dataDependencies successors ↔
      node ∈ nodeIds ∧ ¬ AfterCycle nodeIds
        (dependencySuccessors nodeIds dataDependencies successors) node := by
  rw [fixedNodes, List.mem_filter, decide_eq_true_eq,
    mem_cycleReachableNodes (dependencySuccessors_closed closed) distinct]

theorem mem_fixedDependencies {node source : GraphNodeId} :
    source ∈ fixedDependencies fixed gates dataDependencies node ↔ source ∈ fixed ∧
      ((∃ gate ∈ gates node, ∃ pair ∈ gate, pair.1 = source) ∨ source ∈ dataDependencies node) := by
  simp only [fixedDependencies, List.mem_append, List.mem_filter, List.mem_map, List.mem_flatten,
    decide_eq_true_eq]
  constructor
  · rintro (⟨⟨pair, ⟨gate, member, inside⟩, rfl⟩, known⟩ | ⟨value, known⟩)
    · exact ⟨known, .inl ⟨gate, member, pair, inside, rfl⟩⟩
    · exact ⟨known, .inr value⟩
  · rintro ⟨known, ⟨gate, member, pair, inside, rfl⟩ | value⟩
    · exact .inl ⟨⟨pair, ⟨gate, member, inside⟩, rfl⟩, known⟩
    · exact .inr ⟨value, known⟩

/-- A path of dependencies among fixed nodes is a path of successors backwards. -/
theorem dependency_path (gateEdges : ∀ node ∈ nodeIds, ∀ gate ∈ gates node, ∀ pair ∈ gate,
      node ∈ successors pair.1)
    (known : fixed ⊆ nodeIds) {a b : GraphNodeId} (start : a ∈ fixed)
    (path : Relation.TransGen (Adjacent (fixedDependencies fixed gates dataDependencies)) a b) :
    b ∈ fixed ∧ Relation.TransGen
      (Adjacent (dependencySuccessors nodeIds dataDependencies successors)) b a := by
  have edge : ∀ {a b : GraphNodeId}, a ∈ fixed →
      Adjacent (fixedDependencies fixed gates dataDependencies) a b →
      b ∈ fixed ∧ Adjacent (dependencySuccessors nodeIds dataDependencies successors) b a := by
    intro a b member adjacent
    obtain ⟨inside, ⟨gate, gateMember, pair, pairMember, rfl⟩ | value⟩ :=
      mem_fixedDependencies.mp adjacent
    · exact ⟨inside, mem_sortedSet.mpr (List.mem_append_left _
        (gateEdges a (known member) gate gateMember pair pairMember))⟩
    · exact ⟨inside, mem_sortedSet.mpr (List.mem_append_right _
        (List.mem_filter.mpr ⟨known member, decide_eq_true value⟩))⟩
  induction path with
  | single adjacent => exact ⟨(edge start adjacent).1, .single (edge start adjacent).2⟩
  | tail _ adjacent ih =>
      have step := edge ih.1 adjacent
      exact ⟨step.1, .head step.2 ih.2⟩

theorem fixed_acyclic (dataDependencies : DataDependencies) (closed : ClosedOn nodeIds successors)
    (distinct : nodeIds.Nodup)
    (gateEdges : ∀ node ∈ nodeIds, ∀ gate ∈ gates node, ∀ pair ∈ gate, node ∈ successors pair.1) :
    ∀ node ∈ fixedNodes nodeIds dataDependencies successors,
      ¬ OnCycle (fixedDependencies (fixedNodes nodeIds dataDependencies successors) gates
        dataDependencies) node := by
  intro node member cyclic
  obtain ⟨known, outside⟩ := (mem_fixedNodes closed distinct).mp member
  have back := (dependency_path gateEdges
    (fun _ inside => ((mem_fixedNodes closed distinct).mp inside).1) member cyclic).2
  exact outside ⟨node, known, back, .refl⟩

/-- The `while pending` loop of `_validate_joint_activation_paths` is left. -/
theorem activationOrder_terminates (closed : ClosedOn nodeIds successors) (distinct : nodeIds.Nodup)
    (gateEdges : ∀ node ∈ nodeIds, ∀ gate ∈ gates node, ∀ pair ∈ gate, node ∈ successors pair.1) :
    ∃ ordered, activationOrder nodeIds gates dataDependencies successors = .ok ordered := by
  obtain ⟨ordered, left⟩ := order_terminates (distinct.filter _)
    (fixed_acyclic dataDependencies closed distinct gateEdges)
    (fun node _ source member => (mem_fixedDependencies.mp member).1)
  exact ⟨ordered, congrArg finished left⟩

/-- The order lists the fixed nodes, each after its fixed dependencies. -/
theorem activationOrder_spec (closed : ClosedOn nodeIds successors) (distinct : nodeIds.Nodup)
    (gateEdges : ∀ node ∈ nodeIds, ∀ gate ∈ gates node, ∀ pair ∈ gate, node ∈ successors pair.1)
    {ordered : List GraphNodeId}
    (computed : activationOrder nodeIds gates dataDependencies successors = .ok ordered) :
    ordered.Perm (fixedNodes nodeIds dataDependencies successors) ∧
      Ordered (fixedDependencies (fixedNodes nodeIds dataDependencies successors) gates
        dataDependencies) ordered :=
  order_spec (distinct.filter _)
    (fixed_acyclic dataDependencies closed distinct gateEdges)
    (fun _ _ _ member => (mem_fixedDependencies.mp member).1) ((orRaise_eq_ok _ _ _).mp computed)

end Order

end MoteKernel
