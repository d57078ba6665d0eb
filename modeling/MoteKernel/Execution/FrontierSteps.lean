import MoteKernel.Execution.FrontierProof

/-!
# What the symbolic transition relation means

The diagrams of `_FrontierRelation` read back as a step between markings: the
active nodes, and the pending arrivals at each distance from a Join's target.
`transition_iff` states the whole relation, and `step_iff` and `reachable_iff_marked` carry
it over to the fixed point.
-/

namespace MoteKernel
open Checked Canonical

/-! ## The allocated bits -/

theorem forall_laterPairs {α : Type} (R : α → α → Prop) (xs : List α) :
    (∀ pair ∈ laterPairs xs, R pair.1 pair.2) ↔ xs.Pairwise R := by
  induction xs with
  | nil => simp [laterPairs]
  | cons x xs ih =>
      simp only [laterPairs, List.mem_append, List.mem_map, or_imp, forall_and, ih,
        List.pairwise_cons]
      refine and_congr_left (fun _ => ?_)
      constructor
      · intro all y member
        exact all (x, y) ⟨y, member, rfl⟩
      · rintro all _ ⟨y, member, rfl⟩
        exact all y member

theorem laterPairs_map {α β : Type} (f : α → β) (xs : List α) :
    laterPairs (xs.map f) = (laterPairs xs).map (fun pair => (f pair.1, f pair.2)) := by
  induction xs with
  | nil => rfl
  | cons x xs ih => simp [laterPairs, ih]

theorem mem_of_mem_laterPairs {α : Type} {xs : List α} {pair : α × α}
    (member : pair ∈ laterPairs xs) : pair.1 ∈ xs ∧ pair.2 ∈ xs := by
  induction xs with
  | nil => cases member
  | cons x xs ih =>
      rcases List.mem_append.mp member with first | later
      · obtain ⟨y, inside, rfl⟩ := List.mem_map.mp first
        exact ⟨List.mem_cons_self, List.mem_cons_of_mem _ inside⟩
      · obtain ⟨insideA, insideB⟩ := ih later
        exact ⟨List.mem_cons_of_mem _ insideA, List.mem_cons_of_mem _ insideB⟩

namespace ComponentSearch

/-- The nodes of a search, found or not. -/
def known (search : ComponentSearch) : List GraphNodeId := search.component ++ search.unseen

theorem visit_spec (search : ComponentSearch) (target : GraphNodeId) :
    (search.visit target).known.Perm search.known ∧
    (search.visit target).unseen.length ≤ search.unseen.length := by
  unfold visit
  by_cases member : target ∈ search.unseen
  · rw [if_pos member]
    refine ⟨?_, ?_⟩
    · rw [known, known, List.append_assoc]
      exact (List.perm_cons_erase member).symm.append_left _
    · rw [List.length_erase_of_mem member]
      omega
  · rw [if_neg member]
    exact ⟨List.Perm.refl _, le_rfl⟩

theorem visits_spec (targets : List GraphNodeId) (search : ComponentSearch) :
    (targets.foldl visit search).known.Perm search.known ∧
    (targets.foldl visit search).unseen.length ≤ search.unseen.length := by
  induction targets generalizing search with
  | nil => exact ⟨List.Perm.refl _, le_rfl⟩
  | cons target targets ih =>
      obtain ⟨perm, shorter⟩ := visit_spec search target
      obtain ⟨perms, shorters⟩ := ih (search.visit target)
      exact ⟨perms.trans perm, shorters.trans shorter⟩

theorem explore_spec (neighbours : GraphNodeId → List GraphNodeId) (fuel : Nat)
    (search : ComponentSearch) :
    (explore neighbours fuel search).known.Perm search.known ∧
    (explore neighbours fuel search).unseen.length ≤ search.unseen.length := by
  induction fuel generalizing search with
  | zero => exact ⟨List.Perm.refl _, le_rfl⟩
  | succ fuel ih =>
      rw [explore]
      split
      · exact ⟨List.Perm.refl _, le_rfl⟩
      · rename_i source _
        obtain ⟨perm, shorter⟩ := visits_spec (neighbours source)
          { search with pending := search.pending.dropLast }
        obtain ⟨perms, shorters⟩ := ih ((neighbours source).foldl visit
          { search with pending := search.pending.dropLast })
        exact ⟨perms.trans perm, shorters.trans shorter⟩

end ComponentSearch

/-- Grouping by components only reorders the nodes. -/
theorem orderComponents_perm (neighbours : GraphNodeId → List GraphNodeId) (fuel : Nat)
    (unseen : List GraphNodeId) (enough : unseen.length ≤ fuel) :
    (orderComponents neighbours fuel unseen).Perm unseen := by
  induction fuel generalizing unseen with
  | zero =>
      obtain rfl : unseen = [] := List.length_eq_zero_iff.mp (by omega)
      exact List.Perm.refl _
  | succ fuel ih =>
      cases unseen with
      | nil => exact List.Perm.refl _
      | cons root rest =>
          obtain ⟨perm, shorter⟩ := ComponentSearch.explore_spec neighbours (rest.length + 1)
            ⟨rest, [root], [root]⟩
          rw [orderComponents]
          refine List.Perm.trans ?_ perm
          apply (perm_sorted _).append
          apply ih
          exact shorter.trans (by simpa using enough)

namespace FrontierRelation

variable {relation : FrontierRelation}

theorem nodes_perm (relation : FrontierRelation) :
    relation.nodes.Perm relation.routeOptions.keys := by
  refine (orderComponents_perm _ _ _ ?_).trans (perm_sorted _)
  rw [(perm_sorted relation.routeOptions.keys).length_eq]

theorem mem_nodes {node : GraphNodeId} :
    node ∈ relation.nodes ↔ node ∈ relation.routeOptions.keys :=
  (nodes_perm relation).mem_iff

theorem nodes_nodup (relation : FrontierRelation) : relation.nodes.Nodup :=
  (nodes_perm relation).nodup_iff.mpr relation.routeOptions.distinct

/-- What `_compile_definition` promises of the tables: known targets, Joins listed for each of
their sources, and a canonical route domain for every node. -/
structure WellFormed (relation : FrontierRelation) : Prop where
  entries : relation.entries ⊆ relation.routeOptions.keys
  once : relation.entries.Nodup
  inner : END ∉ relation.routeOptions.keys
  direct : ∀ node, (relation.direct node).Nodup ∧
    relation.direct node ⊆ relation.routeOptions.keys
  conditional : ∀ node, ∀ item ∈ (relation.conditional node).items, item.2 = END ∨
    item.2 ∈ relation.routeOptions.keys
  declared : ∀ node ∈ relation.routeOptions.keys, relation.options node ≠ [] ∧
    (relation.options node).Nodup
  selective : ∀ node ∈ relation.routeOptions.keys, (relation.conditional node).items ≠ [] →
    relation.options node = (sorted (relation.conditional node).keys).map some
  continuing : ∀ node ∈ relation.routeOptions.keys, (relation.conditional node).items = [] →
    (relation.direct node ≠ [] ∨ relation.joinsBySource.getItem node ≠ []) →
    relation.options node = [none]
  listed : ∀ node, (relation.joinsBySource.getItem node).Nodup ∧
    ∀ join ∈ relation.joinsBySource.getItem node, node ∈ join.identity.sources
  agree : ∀ node, ∀ join ∈ relation.joinsBySource.getItem node, ∀ other,
    ∀ join' ∈ relation.joinsBySource.getItem other, join.identity = join'.identity → join = join'
  complete : ∀ node, ∀ join ∈ relation.joinsBySource.getItem node,
    ∀ source ∈ join.identity.sources, join ∈ relation.joinsBySource.getItem source
  joined : ∀ node, ∀ join ∈ relation.joinsBySource.getItem node,
    join.identity.sources.Nodup ∧ join.identity.sources ⊆ relation.routeOptions.keys ∧
    (join.identity.target = END ∨ join.identity.target ∈ relation.routeOptions.keys)

theorem mem_values_flatten {κ ν : Type} [DecidableEq κ] {d : Dict κ (List ν)} {value : ν} :
    value ∈ d.values.flatten ↔ ∃ key, value ∈ d.getItem key := by
  simp only [List.mem_flatten, Dict.values, List.mem_map, Dict.getItem]
  constructor
  · rintro ⟨_, ⟨⟨key, values⟩, member, rfl⟩, inside⟩
    exact ⟨key, by rw [(Dict.get?_eq_some d key values).mpr member]; exact inside⟩
  · rintro ⟨key, inside⟩
    cases found : d.get? key with
    | none => rw [found] at inside; cases inside
    | some values =>
        rw [found] at inside
        exact ⟨values, ⟨(key, values), (Dict.get?_eq_some d key values).mp found, rfl⟩, inside⟩

theorem mem_joins {join : CompiledJoin} :
    join ∈ relation.joins ↔ ∃ node, join ∈ relation.joinsBySource.getItem node := by
  rw [joins, List.mem_insertionSort, List.mem_dedup, mem_values_flatten]

theorem joins_nodup (relation : FrontierRelation) : relation.joins.Nodup :=
  (List.perm_insertionSort _ _).nodup_iff.mpr (List.nodup_dedup _)

theorem offset_le_maximum (join : CompiledJoin) (source : GraphNodeId) :
    join.offset source ≤ maximum join := by
  have bound : ∀ offsets : List Nat, ∀ n ∈ offsets, n ≤ offsets.foldr max 0 := by
    intro offsets
    induction offsets with
    | nil => simp
    | cons first rest ih =>
        intro n member
        rcases List.mem_cons.mp member with rfl | later
        · exact le_max_left _ _
        · exact (ih n later).trans (le_max_right _ _)
  unfold CompiledJoin.offset
  cases found : join.sourceTargetOffsets.find? (fun pair => pair.1 = source) with
  | none => exact Nat.zero_le _
  | some pair =>
      exact bound _ _ (List.mem_map.mpr ⟨pair, List.mem_of_find?_eq_some found, rfl⟩)

theorem mem_remainings {join : CompiledJoin} {remaining : Nat} :
    remaining ∈ remainings join ↔ 1 ≤ remaining ∧ remaining ≤ maximum join := by
  rw [remainings, List.mem_range'_1]
  omega

theorem mem_joinKeys {key : JoinKey} : key ∈ relation.joinKeys ↔
    key.join ∈ relation.joins ∧ 1 ≤ key.remaining ∧ key.remaining ≤ maximum key.join ∧
      key.source ∈ key.join.identity.sources := by
  simp only [joinKeys, List.mem_flatMap, mem_remainings, List.mem_map]
  constructor
  · rintro ⟨join, member, remaining, ⟨low, high⟩, source, inside, rfl⟩
    exact ⟨member, low, high, inside⟩
  · rintro ⟨member, low, high, inside⟩
    exact ⟨_, member, _, ⟨low, high⟩, _, inside, rfl⟩

theorem joinKeys_nodup (wellFormed : relation.WellFormed) : relation.joinKeys.Nodup := by
  unfold joinKeys
  refine List.nodup_flatMap.mpr ⟨?_, ?_⟩
  · intro join member
    obtain ⟨node, listed⟩ := mem_joins.mp member
    refine List.nodup_flatMap.mpr ⟨?_, ?_⟩
    · intro remaining _
      apply (wellFormed.joined node join listed).1.map
      intro a b same
      exact (JoinKey.mk.inj same).2.2
    · refine (List.nodup_range' (s := 1) (n := maximum join)).imp ?_
      intro a b different
      simp only [Function.onFun, List.disjoint_left, List.mem_map]
      rintro _ ⟨x, -, rfl⟩ ⟨y, -, same⟩
      exact different (JoinKey.mk.inj same).2.1.symm
  · refine (joins_nodup relation).imp ?_
    intro a b different
    simp only [Function.onFun, List.disjoint_left, List.mem_flatMap, List.mem_map]
    rintro _ ⟨_, -, x, -, rfl⟩ ⟨_, -, y, -, same⟩
    exact different (JoinKey.mk.inj same).1.symm

/-- The choice of a node ranges over its declared routes. -/
theorem choices_eq (wellFormed : relation.WellFormed) {node : GraphNodeId}
    (known : node ∈ relation.routeOptions.keys) :
    relation.choices node =
      if (relation.options node).length > 1 then relation.options node else [] := by
  unfold choices
  by_cases selective : (relation.conditional node).items ≠ []
  · simp only [if_pos selective, wellFormed.selective node known selective]
  · simp only [if_neg selective]

theorem choices_nodup (wellFormed : relation.WellFormed) {node : GraphNodeId}
    (known : node ∈ relation.routeOptions.keys) : (relation.choices node).Nodup := by
  rw [choices_eq wellFormed known]
  split
  · exact (wellFormed.declared node known).2
  · exact List.nodup_nil

theorem choices_eq_options (wellFormed : relation.WellFormed) {node : GraphNodeId}
    (known : node ∈ relation.routeOptions.keys) (several : relation.choices node ≠ []) :
    relation.choices node = relation.options node := by
  have choices := choices_eq wellFormed known
  rw [choices] at several ⊢
  split at several
  · rw [if_pos ‹_›]
  · exact absurd rfl several

/-- The bits of the symbolic system. -/
def bits (relation : FrontierRelation) : List FrontierVariable :=
  relation.currentVariables ++ relation.choiceVariables ++ relation.followingVariables

theorem mem_currentVariables {bit : FrontierVariable} : bit ∈ relation.currentVariables ↔
    (∃ node ∈ relation.nodes, bit = .current node) ∨
      ∃ key ∈ relation.joinKeys, bit = .joinCurrent key := by
  simp [currentVariables, eq_comm]

theorem mem_followingVariables {bit : FrontierVariable} : bit ∈ relation.followingVariables ↔
    (∃ node ∈ relation.nodes, bit = .following node) ∨
      ∃ key ∈ relation.joinKeys, bit = .joinFollowing key := by
  simp [followingVariables, eq_comm]

theorem mem_choiceVariables {bit : FrontierVariable} : bit ∈ relation.choiceVariables ↔
    ∃ node ∈ relation.nodes, ∃ route ∈ relation.choices node, bit = .choice node route := by
  simp [choiceVariables, eq_comm]

theorem bits_subset_allocation : relation.bits ⊆ relation.allocation := by
  intro bit member
  rw [bits, List.mem_append, List.mem_append, mem_currentVariables, mem_choiceVariables,
    mem_followingVariables] at member
  rw [allocation, List.mem_append, List.mem_append, List.mem_flatMap, List.mem_map, List.mem_map]
  rcases member with ((⟨node, known, rfl⟩ | ⟨key, known, rfl⟩) | ⟨node, known, route, inside, rfl⟩) |
    ⟨node, known, rfl⟩ | ⟨key, known, rfl⟩
  · exact .inl ⟨node, known, by simp⟩
  · exact .inr (.inl ⟨key, known, rfl⟩)
  · exact .inl ⟨node, known, by simp [inside]⟩
  · exact .inl ⟨node, known, by simp⟩
  · exact .inr (.inr ⟨key, known, rfl⟩)

theorem bits_nodup (wellFormed : relation.WellFormed) : relation.bits.Nodup := by
  have nodes := nodes_nodup relation
  have keys := joinKeys_nodup wellFormed
  have current : relation.currentVariables.Nodup := by
    refine List.nodup_append.mpr ⟨nodes.map (fun _ _ => FrontierVariable.current.inj),
      keys.map (fun _ _ => FrontierVariable.joinCurrent.inj), ?_⟩
    simp
  have following : relation.followingVariables.Nodup := by
    refine List.nodup_append.mpr ⟨nodes.map (fun _ _ => FrontierVariable.following.inj),
      keys.map (fun _ _ => FrontierVariable.joinFollowing.inj), ?_⟩
    simp
  have choice : relation.choiceVariables.Nodup := by
    refine List.nodup_flatMap.mpr ⟨?_, ?_⟩
    · intro node known
      exact (choices_nodup wellFormed (mem_nodes.mp known)).map
        (fun _ _ same => (FrontierVariable.choice.inj same).2)
    · refine nodes.imp ?_
      intro a b different
      simp only [Function.onFun, List.disjoint_left, List.mem_map]
      rintro _ ⟨x, -, rfl⟩ ⟨y, -, same⟩
      exact different (FrontierVariable.choice.inj same).1.symm
  refine List.nodup_append.mpr ⟨List.nodup_append.mpr ⟨current, choice, ?_⟩, following, ?_⟩
  · intro a memberA b memberB same
    subst same
    obtain ⟨_, -, _, -, rfl⟩ := mem_choiceVariables.mp memberB
    simp [mem_currentVariables] at memberA
  · intro a memberA b memberB same
    subst same
    rw [List.mem_append, mem_currentVariables, mem_choiceVariables] at memberA
    rcases mem_followingVariables.mp memberB with ⟨_, -, rfl⟩ | ⟨_, -, rfl⟩ <;> simp at memberA

theorem index_inj {a b : FrontierVariable} (known : a ∈ relation.bits)
    (same : relation.index a = relation.index b) : a = b :=
  (List.idxOf_inj (bits_subset_allocation known)).mp same

/-- The assignment that gives every allocated bit its value. -/
def assign (relation : FrontierRelation) (value : FrontierVariable → Bool) (index : Nat) : Bool :=
  (relation.allocation[index]?).elim false value

theorem assign_index {bit : FrontierVariable} (known : bit ∈ relation.bits)
    (value : FrontierVariable → Bool) : relation.assign value (relation.index bit) = value bit := by
  have inside := List.idxOf_lt_length_iff.mpr (bits_subset_allocation known)
  rw [assign, index, List.getElem?_eq_getElem inside, List.getElem_idxOf inside]
  rfl

@[simp] theorem eval_bit (bit : FrontierVariable) (f : Nat → Bool) :
    (relation.literal bit).eval f = f (relation.index bit) := Bdd.eval_literal _ _

/-! ## Markings -/

end FrontierRelation

/-- The active nodes and the pending arrivals of a frontier. -/
structure Marking where
  active : GraphNodeId → Prop
  pending : JoinKey → Prop

/-- What can activate a target. -/
inductive SuccessorCause where
  | direct (source : GraphNodeId)
  | routed (source : GraphNodeId) (route : GraphRouteId)
  | joined (join : CompiledJoin)

namespace Marking

/-- A source has arrived, earlier or in this frontier. -/
def Arrives (marking : Marking) (join : CompiledJoin) (remaining : Nat) (source : GraphNodeId) :
    Prop :=
  marking.pending ⟨join, remaining, source⟩ ∨ join.offset source = remaining ∧ marking.active source

/-- Every source has arrived. -/
def Complete (marking : Marking) (join : CompiledJoin) (remaining : Nat) : Prop :=
  ∀ source ∈ join.identity.sources, marking.Arrives join remaining source

/-- A cause that activates its target under the selected routes. -/
def Causes (marking : Marking) (choice : GraphNodeId → Route) : SuccessorCause → Prop
  | .direct source => marking.active source
  | .routed source route => marking.active source ∧ choice source = some route
  | .joined join => marking.Complete join 1

end Marking

namespace FrontierRelation

variable {relation : FrontierRelation}

/-- The causes of one target, in the order of `causes`. -/
def successorCauses (relation : FrontierRelation) (target : GraphNodeId) : List SuccessorCause :=
  relation.nodes.flatMap (fun source =>
    ((relation.direct source).filter (· = target)).map (fun _ => .direct source) ++
    ((relation.conditional source).items.filter (fun item => item.2 = target ∧ target ≠ END)).map
      (fun item => .routed source item.1)) ++
  (relation.joins.filter (fun join => join.identity.target = target ∧ target ≠ END)).map .joined

/-- One step of the frontier under the selected routes. -/
structure Moves (relation : FrontierRelation) (marking : Marking) (choice : GraphNodeId → Route)
    (next : Marking) : Prop where
  selects : ∀ node ∈ relation.nodes, marking.active node → choice node ∈ relation.options node
  due : ∀ join ∈ relation.joins, ∀ source ∈ join.identity.sources,
    marking.Arrives join 1 source → marking.Complete join 1
  early : ∀ join ∈ relation.joins, ∀ remaining, 1 < remaining → remaining ≤ maximum join →
    ¬ marking.Complete join remaining
  fresh : ∀ join ∈ relation.joins, ∀ source ∈ join.identity.sources,
    ¬ (marking.pending ⟨join, join.offset source, source⟩ ∧ marking.active source)
  once : ∀ target ∈ relation.nodes, (relation.successorCauses target).Pairwise
    (fun a b => ¬ (marking.Causes choice a ∧ marking.Causes choice b))
  active : ∀ target ∈ relation.nodes, next.active target ↔
    ∃ cause ∈ relation.successorCauses target, marking.Causes choice cause
  pending : ∀ key ∈ relation.joinKeys, next.pending key ↔ key.remaining < maximum key.join ∧
    marking.Arrives key.join (key.remaining + 1) key.source

/-- The marking of the current bits. -/
def marking (relation : FrontierRelation) (f : Nat → Bool) : Marking where
  active node := f (relation.index (.current node)) = true
  pending key := f (relation.index (.joinCurrent key)) = true

/-- The marking of the following bits. -/
def nextMarking (relation : FrontierRelation) (f : Nat → Bool) : Marking where
  active node := f (relation.index (.following node)) = true
  pending key := f (relation.index (.joinFollowing key)) = true

theorem active_marking (f : Nat → Bool) (node : GraphNodeId) :
    (relation.marking f).active node ↔ f (relation.index (.current node)) = true := Iff.rfl

theorem pending_marking (f : Nat → Bool) (key : JoinKey) :
    (relation.marking f).pending key ↔ f (relation.index (.joinCurrent key)) = true := Iff.rfl

theorem active_nextMarking (f : Nat → Bool) (node : GraphNodeId) :
    (relation.nextMarking f).active node ↔ f (relation.index (.following node)) = true := Iff.rfl

theorem pending_nextMarking (f : Nat → Bool) (key : JoinKey) :
    (relation.nextMarking f).pending key ↔ f (relation.index (.joinFollowing key)) = true := Iff.rfl

/-- The choice bits select the routes of the active nodes. -/
def Selects (relation : FrontierRelation) (f : Nat → Bool) (choice : GraphNodeId → Route) : Prop :=
  ∀ node ∈ relation.nodes, (relation.marking f).active node →
    choice node ∈ relation.options node ∧
    ∀ route ∈ relation.choices node, f (relation.index (.choice node route)) = true ↔
      choice node = route

theorem eval_choiceLiteral (wellFormed : relation.WellFormed) {f : Nat → Bool}
    {choice : GraphNodeId → Route} (selects : relation.Selects f choice) {node : GraphNodeId}
    (known : node ∈ relation.nodes) (active : (relation.marking f).active node) (route : Route) :
    (relation.choiceLiteral node route).eval f = true ↔ choice node = route := by
  obtain ⟨option, chosen⟩ := selects node known active
  have choices := choices_eq wellFormed (mem_nodes.mp known)
  unfold choiceLiteral
  by_cases many : (relation.options node).length > 1
  · rw [if_pos many] at choices
    rw [choices] at chosen ⊢
    rw [if_pos (List.ne_nil_of_mem option)]
    by_cases declared : route ∈ relation.options node
    · rw [if_pos (List.contains_iff_mem.mpr declared), eval_bit]
      exact chosen route declared
    · rw [if_neg (mt List.contains_iff_mem.mp declared)]
      refine iff_of_false (by simp) ?_
      rintro rfl
      exact declared option
  · rw [if_neg many] at choices
    have single : ∀ other, other ∈ relation.options node ↔ choice node = other := by
      obtain ⟨only, list⟩ : ∃ only, relation.options node = [only] := by
        match relation.options node, option, many with
        | [only], _, _ => exact ⟨only, rfl⟩
        | _ :: _ :: _, _, many => simp at many
      intro other
      rw [list, List.mem_singleton] at option
      rw [list, List.mem_singleton, option, eq_comm]
    rw [choices, if_neg (not_not.mpr rfl), ← single]
    by_cases selective : (relation.conditional node).items ≠ []
    · have named : (∃ name ∈ route, name ∈ (relation.conditional node).keys) ↔
          route ∈ relation.options node := by
        rw [wellFormed.selective node (mem_nodes.mp known) selective]
        cases route <;> simp
      rw [if_pos selective, Bdd.eval_constant, named]
    · rw [if_neg selective, Bdd.eval_constant, List.contains_iff_mem]

/-- The choice constraints hold exactly when every active node selects one declared route. -/
theorem eval_choiceConstraints (wellFormed : relation.WellFormed) (f : Nat → Bool) :
    relation.choiceConstraints.eval f = true ↔ ∃ choice, relation.Selects f choice := by
  have exactlyOne : ∀ node, (relation.exactlyOneWhenActive node
      (relation.literal (.current node))).eval f = true ↔
      ((relation.marking f).active node →
        (∃ route ∈ relation.choices node, f (relation.index (.choice node route)) = true) ∧
        (relation.choices node).Pairwise (fun a b =>
          ¬ (f (relation.index (.choice node a)) = true ∧
            f (relation.index (.choice node b)) = true))) := by
    intro node
    have pairs : (∀ pair ∈ laterPairs ((relation.choices node).map (fun route =>
        relation.literal (.choice node route))), ¬ (pair.1.eval f = true ∧ pair.2.eval f = true)) ↔
        (relation.choices node).Pairwise (fun a b =>
          ¬ (f (relation.index (.choice node a)) = true ∧
            f (relation.index (.choice node b)) = true)) := by
      rw [forall_laterPairs (fun a b : Bdd => ¬ (a.eval f = true ∧ b.eval f = true)),
        List.pairwise_map]
      simp only [eval_bit]
    rw [← pairs]
    by_cases active : f (relation.index (.current node)) = true
    · have holds : (relation.marking f).active node := active
      simp [exactlyOneWhenActive, marking, active, DecisionTree.Operation.table,
        imp_iff_not_or (a := _ = true)]
    · simp [exactlyOneWhenActive, marking, active]
  simp only [choiceConstraints, Bdd.eval_conjunction, List.all_map, List.all_eq_true,
    List.mem_filter, decide_eq_true_eq, Function.comp_apply, and_imp, exactlyOne]
  constructor
  · intro all
    have chosen : ∀ node, ∃ route, node ∈ relation.nodes → (relation.marking f).active node →
        route ∈ relation.options node ∧ ∀ other ∈ relation.choices node,
          f (relation.index (.choice node other)) = true ↔ route = other := by
      intro node
      by_cases holds : node ∈ relation.nodes ∧ (relation.marking f).active node
      · obtain ⟨known, active⟩ := holds
        by_cases unique : relation.choices node = []
        · obtain ⟨only, rest, list⟩ := List.exists_cons_of_ne_nil
            (wellFormed.declared node (mem_nodes.mp known)).1
          refine ⟨only, fun _ _ => ⟨by rw [list]; exact List.mem_cons_self, ?_⟩⟩
          simp [unique]
        · obtain ⟨⟨route, inside, taken⟩, apart⟩ := all node known unique active
          refine ⟨route, fun _ _ => ⟨?_, ?_⟩⟩
          · rw [← choices_eq_options wellFormed (mem_nodes.mp known) unique]
            exact inside
          · intro other otherInside
            refine ⟨fun otherTaken => ?_, fun same => by rw [← same]; exact taken⟩
            by_contra different
            have symmetric : Std.Symm (fun a b => ¬ (f (relation.index (.choice node a)) = true ∧
                f (relation.index (.choice node b)) = true)) := ⟨fun a b h both => h both.symm⟩
            exact apart.forall inside otherInside different ⟨taken, otherTaken⟩
      · exact ⟨none, fun known active => absurd ⟨known, active⟩ holds⟩
    choose choice spec using chosen
    exact ⟨choice, fun node known active => spec node known active⟩
  · rintro ⟨choice, selects⟩ node known several active
    obtain ⟨option, chosen⟩ := selects node known active
    rw [← choices_eq_options wellFormed (mem_nodes.mp known) several] at option
    refine ⟨⟨choice node, option, (chosen _ option).mpr rfl⟩, ?_⟩
    have distinct := choices_nodup wellFormed (mem_nodes.mp known)
    refine distinct.imp_of_mem ?_
    intro a b insideA insideB different both
    exact different (((chosen a insideA).mp both.1).symm.trans ((chosen b insideB).mp both.2))

theorem eval_joinArrival (join : CompiledJoin) (remaining : Nat) (source : GraphNodeId)
    (f : Nat → Bool) : (relation.joinArrival join remaining source).eval f = true ↔
      (relation.marking f).Arrives join remaining source := by
  unfold joinArrival Marking.Arrives marking
  by_cases here : join.offset source = remaining
  · simp [here]
  · simp [here]

theorem eval_complete (join : CompiledJoin) (remaining : Nat) (f : Nat → Bool) :
    (Bdd.conjunction (relation.joinArrivals join remaining)).eval f = true ↔
      (relation.marking f).Complete join remaining := by
  simp only [joinArrivals, Bdd.eval_conjunction, List.all_map, List.all_eq_true,
    Function.comp_apply, eval_joinArrival]
  exact Iff.rfl

/-- The diagram of a cause. -/
def causeDiagram (relation : FrontierRelation) : SuccessorCause → Bdd
  | .direct source => relation.literal (.current source)
  | .routed source route => Bdd.apply .and (relation.literal (.current source))
      (relation.choiceLiteral source (some route))
  | .joined join => Bdd.conjunction (relation.joinArrivals join 1)

/-- The sources of a cause. -/
def causeSources : SuccessorCause → List GraphNodeId
  | .direct source => [source]
  | .routed source _ => [source]
  | .joined join => join.identity.sources

theorem causes_eq (target : GraphNodeId) : relation.causes target =
    (relation.successorCauses target).map (fun cause =>
      (relation.causeDiagram cause, causeSources cause)) := by
  simp only [causes, successorCauses, List.map_append, List.map_flatMap, List.map_map]
  rfl

theorem mem_successorCauses {target : GraphNodeId} {cause : SuccessorCause} :
    cause ∈ relation.successorCauses target ↔
      (∃ source ∈ relation.nodes, target ∈ relation.direct source ∧ cause = .direct source) ∨
      (∃ source ∈ relation.nodes, ∃ route, (route, target) ∈ (relation.conditional source).items ∧
        target ≠ END ∧ cause = .routed source route) ∨
      ∃ join ∈ relation.joins, join.identity.target = target ∧ target ≠ END ∧
        cause = .joined join := by
  simp only [successorCauses, List.mem_append, List.mem_flatMap, List.mem_map, List.mem_filter,
    decide_eq_true_eq]
  constructor
  · rintro (⟨source, known, ⟨_, ⟨member, rfl⟩, rfl⟩ | ⟨⟨route, _⟩, ⟨member, rfl, inner⟩, rfl⟩⟩ |
      ⟨join, ⟨member, rfl, inner⟩, rfl⟩)
    · exact .inl ⟨source, known, member, rfl⟩
    · exact .inr (.inl ⟨source, known, route, member, inner, rfl⟩)
    · exact .inr (.inr ⟨join, member, rfl, inner, rfl⟩)
  · rintro (⟨source, known, member, rfl⟩ | ⟨source, known, route, member, inner, rfl⟩ |
      ⟨join, member, rfl, inner, rfl⟩)
    · exact .inl ⟨source, known, .inl ⟨_, ⟨member, rfl⟩, rfl⟩⟩
    · exact .inl ⟨source, known, .inr ⟨_, ⟨member, rfl, inner⟩, rfl⟩⟩
    · exact .inr ⟨join, ⟨member, rfl, inner⟩, rfl⟩

theorem eval_causeDiagram (wellFormed : relation.WellFormed) {f : Nat → Bool}
    {choice : GraphNodeId → Route} (selects : relation.Selects f choice) {target : GraphNodeId}
    {cause : SuccessorCause} (member : cause ∈ relation.successorCauses target) :
    (relation.causeDiagram cause).eval f = true ↔ (relation.marking f).Causes choice cause := by
  rcases mem_successorCauses.mp member with ⟨source, known, -, rfl⟩ |
    ⟨source, known, route, -, -, rfl⟩ | ⟨join, -, -, -, rfl⟩
  · rw [causeDiagram, eval_bit]
    exact Iff.rfl
  · rw [causeDiagram, Bdd.eval_apply, DecisionTree.Operation.table, Bool.and_eq_true, eval_bit]
    exact and_congr_right (fun active => eval_choiceLiteral wellFormed selects known active _)
  · exact eval_complete join 1 f

/-- The constraints on one Join at one distance. -/
theorem eval_joinConstraints (join : CompiledJoin) (remaining : Nat) (f : Nat → Bool) :
    (∀ b ∈ relation.joinConstraints join remaining, b.eval f = true) ↔
      (if remaining = 1 then (∃ source ∈ join.identity.sources,
          (relation.marking f).Arrives join 1 source) → (relation.marking f).Complete join 1
        else ¬ (relation.marking f).Complete join remaining) ∧
      ∀ source ∈ join.identity.sources,
        (join.offset source = remaining → ¬ ((relation.marking f).pending ⟨join, remaining, source⟩ ∧
          (relation.marking f).active source)) ∧
        (1 < remaining → ((relation.nextMarking f).pending ⟨join, remaining - 1, source⟩ ↔
          (relation.marking f).Arrives join remaining source)) := by
  unfold joinConstraints
  simp only [List.forall_mem_cons, List.forall_mem_flatMap, List.forall_mem_append]
  refine and_congr ?_ (forall₂_congr (fun source _ => and_congr ?_ ?_))
  · by_cases one : remaining = 1
    · subst one
      have any : (Bdd.disjunction (relation.joinArrivals join 1)).eval f = true ↔
          ∃ source ∈ join.identity.sources, (relation.marking f).Arrives join 1 source := by
        simp only [joinArrivals, Bdd.eval_disjunction, List.any_map, List.any_eq_true,
          Function.comp_apply, eval_joinArrival]
      rw [if_pos rfl, if_pos rfl, Bdd.eval_ite, ← any, ← eval_complete]
      cases (Bdd.disjunction (relation.joinArrivals join 1)).eval f <;> simp
    · rw [if_neg one, if_neg one, Bdd.eval_negate, ← eval_complete]
      simp
  · by_cases here : join.offset source = remaining
    · simp [here, marking, DecisionTree.Operation.table, imp_iff_not_or (a := _ = true)]
    · simp [here]
  · by_cases later : 1 < remaining
    · simp only [later, if_true, List.forall_mem_singleton, Bdd.eval_equivalence,
        beq_iff_eq, eval_bit, forall_const, ← eval_joinArrival, nextMarking]
      exact Bool.eq_iff_iff
    · simp [later]

/-- The constraints on one target. -/
theorem eval_targetConstraints (wellFormed : relation.WellFormed) {f : Nat → Bool}
    {choice : GraphNodeId → Route} (selects : relation.Selects f choice) (target : GraphNodeId) :
    (∀ b ∈ relation.targetConstraints target, b.eval f = true) ↔
      (relation.successorCauses target).Pairwise (fun a b =>
        ¬ ((relation.marking f).Causes choice a ∧ (relation.marking f).Causes choice b)) ∧
      ((relation.nextMarking f).active target ↔
        ∃ cause ∈ relation.successorCauses target, (relation.marking f).Causes choice cause) := by
  simp only [targetConstraints, List.forall_mem_append, List.forall_mem_singleton]
  refine and_congr ?_ ?_
  · rw [List.forall_mem_map, duplicatesAt, List.forall_mem_map,
      forall_laterPairs (fun a b : Bdd × List GraphNodeId =>
        ((Bdd.apply .and a.1 b.1).negate).eval f = true), causes_eq, List.pairwise_map]
    apply List.Pairwise.iff_of_mem
    intro a b memberA memberB
    rw [← eval_causeDiagram wellFormed selects memberA, ← eval_causeDiagram wellFormed selects memberB,
      Bdd.eval_negate, Bdd.eval_apply, DecisionTree.Operation.table, Bool.not_eq_true',
      Bool.and_eq_false_iff]
    simp [imp_iff_not_or (a := _ = true)]
  · rw [Bdd.eval_equivalence, beq_iff_eq, eval_bit, Bool.eq_iff_iff, Bdd.eval_disjunction,
      List.any_eq_true, causes_eq, List.map_map]
    refine iff_congr Iff.rfl ?_
    constructor
    · rintro ⟨_, inside, holds⟩
      obtain ⟨cause, member, rfl⟩ := List.mem_map.mp inside
      exact ⟨cause, member, (eval_causeDiagram wellFormed selects member).mp holds⟩
    · rintro ⟨cause, member, holds⟩
      exact ⟨_, List.mem_map.mpr ⟨cause, member, rfl⟩,
        (eval_causeDiagram wellFormed selects member).mpr holds⟩

/-- The transition relation is a step of the marking under the selected routes. -/
theorem transition_iff (wellFormed : relation.WellFormed) (f : Nat → Bool) :
    relation.transition.eval f = true ↔ ∃ choice, relation.Selects f choice ∧
      relation.Moves (relation.marking f) choice (relation.nextMarking f) := by
  rw [transition, Bdd.eval_conjunction, List.all_eq_true, List.forall_mem_cons,
    eval_choiceConstraints wellFormed, List.forall_mem_append, List.forall_mem_append]
  rw [← exists_and_right]
  refine exists_congr (fun choice => and_congr_right (fun selects => ?_))
  simp only [List.forall_mem_flatMap, eval_joinConstraints,
    eval_targetConstraints wellFormed selects, List.forall_mem_map, Bdd.eval_negate, eval_bit,
    Bool.not_eq_true']
  constructor
  · rintro ⟨⟨joins, targets⟩, last⟩
    have near : ∀ join ∈ relation.joins, ∀ source ∈ join.identity.sources, 1 ∈ remainings join := by
      intro join _ source inside
      exact mem_remainings.mpr ⟨le_rfl, (join.offset_positive inside).trans (offset_le_maximum _ _)⟩
    refine ⟨fun node known active => (selects node known active).1, ?_, ?_, ?_,
      fun target known => (targets target known).1, fun target known => (targets target known).2, ?_⟩
    · intro join member source inside arrives
      have first := (joins join member 1 (near join member source inside)).1
      rw [if_pos rfl] at first
      exact first ⟨source, inside, arrives⟩
    · intro join member remaining low high
      have here := (joins join member remaining (mem_remainings.mpr ⟨by omega, high⟩)).1
      rwa [if_neg (by omega)] at here
    · intro join member source inside
      have here := (joins join member (join.offset source)
        (mem_remainings.mpr ⟨join.offset_positive inside, offset_le_maximum _ _⟩)).2 source inside
      exact here.1 rfl
    · rintro ⟨join, remaining, source⟩ known
      obtain ⟨member, low, high, inside⟩ := mem_joinKeys.mp known
      rcases Nat.lt_or_eq_of_le high with less | same
      · have here := ((joins join member (remaining + 1)
          (mem_remainings.mpr ⟨Nat.le_add_left _ _, less⟩)).2 source inside).2
          (Nat.lt_add_of_pos_left low)
        rw [Nat.add_sub_cancel] at here
        rw [here]
        exact (and_iff_right less).symm
      · have absent := last join member source inside
        have last : remaining = maximum join := same
        refine iff_of_false ?_ (fun both => absurd both.1 (Nat.not_lt.mpr last.ge))
        rw [last]
        simp [nextMarking, absent]
  · intro moves
    refine ⟨⟨?_, fun target known => ⟨moves.once target known, moves.active target known⟩⟩, ?_⟩
    · intro join member remaining range
      obtain ⟨low, high⟩ := mem_remainings.mp range
      refine ⟨?_, ?_⟩
      · by_cases one : remaining = 1
        · rw [if_pos one]
          rintro ⟨source, inside, arrives⟩
          exact moves.due join member source inside arrives
        · rw [if_neg one]
          exact moves.early join member remaining (by omega) high
      · intro source inside
        refine ⟨?_, ?_⟩
        · rintro rfl
          exact moves.fresh join member source inside
        · intro later
          have here := moves.pending ⟨join, remaining - 1, source⟩
            (mem_joinKeys.mpr ⟨member, by simp only; omega, by simp only; omega, inside⟩)
          have back : remaining - 1 + 1 = remaining := by omega
          simp only [back] at here
          rw [here]
          exact and_iff_right (by omega)
    · intro join member source inside
      have bound := (join.offset_positive inside).trans (offset_le_maximum join source)
      have here := moves.pending ⟨join, maximum join, source⟩
        (mem_joinKeys.mpr ⟨member, bound, le_rfl, inside⟩)
      simpa [nextMarking] using here

/-! ## Reachable markings -/

/-- Two markings that agree on the nodes and arrivals of the tables. -/
structure Agree (relation : FrontierRelation) (m m' : Marking) : Prop where
  active : ∀ node ∈ relation.nodes, m.active node ↔ m'.active node
  pending : ∀ key ∈ relation.joinKeys, m.pending key ↔ m'.pending key

theorem Agree.refl (m : Marking) : relation.Agree m m :=
  ⟨fun _ _ => Iff.rfl, fun _ _ => Iff.rfl⟩

theorem Agree.symm {m m' : Marking} (agree : relation.Agree m m') : relation.Agree m' m :=
  ⟨fun node known => (agree.active node known).symm, fun key known => (agree.pending key known).symm⟩

theorem Agree.arrives (wellFormed : relation.WellFormed) {m m' : Marking}
    (agree : relation.Agree m m') {join : CompiledJoin} (member : join ∈ relation.joins)
    {source : GraphNodeId} (inside : source ∈ join.identity.sources) {remaining : Nat}
    (low : 1 ≤ remaining) (high : remaining ≤ maximum join) :
    m.Arrives join remaining source ↔ m'.Arrives join remaining source := by
  obtain ⟨node, listed⟩ := mem_joins.mp member
  have known := mem_nodes.mpr ((wellFormed.joined node join listed).2.1 inside)
  unfold Marking.Arrives
  rw [agree.active source known,
    agree.pending ⟨join, remaining, source⟩ (mem_joinKeys.mpr ⟨member, low, high, inside⟩)]

theorem Agree.complete (wellFormed : relation.WellFormed) {m m' : Marking}
    (agree : relation.Agree m m') {join : CompiledJoin} (member : join ∈ relation.joins)
    {remaining : Nat} (low : 1 ≤ remaining) (high : remaining ≤ maximum join) :
    m.Complete join remaining ↔ m'.Complete join remaining :=
  forall₂_congr (fun _ inside => agree.arrives wellFormed member inside low high)

theorem maximum_positive {join : CompiledJoin} {source : GraphNodeId}
    (inside : source ∈ join.identity.sources) : 1 ≤ maximum join :=
  (join.offset_positive inside).trans (offset_le_maximum join source)

theorem Agree.causes (wellFormed : relation.WellFormed) {m m' : Marking}
    (agree : relation.Agree m m') {choice choice' : GraphNodeId → Route}
    (same : ∀ node ∈ relation.nodes, m.active node → choice node = choice' node)
    {target : GraphNodeId} {cause : SuccessorCause}
    (member : cause ∈ relation.successorCauses target) :
    m.Causes choice cause ↔ m'.Causes choice' cause := by
  rcases mem_successorCauses.mp member with ⟨source, known, -, rfl⟩ |
    ⟨source, known, route, -, -, rfl⟩ | ⟨join, listed, -, -, rfl⟩
  · exact agree.active source known
  · show m.active source ∧ _ ↔ m'.active source ∧ _
    rw [← agree.active source known]
    exact and_congr_right (fun active => by rw [same source known active])
  · show m.Complete join 1 ↔ m'.Complete join 1
    cases sources : join.identity.sources with
    | nil => simp [Marking.Complete, sources]
    | cons first rest =>
        have inside : first ∈ join.identity.sources := by rw [sources]; exact List.mem_cons_self
        exact agree.complete wellFormed listed le_rfl (maximum_positive inside)

/-- A step reads and writes the tables' nodes and arrivals only. -/
theorem Moves.congr (wellFormed : relation.WellFormed) {m m' next next' : Marking}
    {choice choice' : GraphNodeId → Route} (before : relation.Agree m m')
    (after : relation.Agree next next')
    (same : ∀ node ∈ relation.nodes, m.active node → choice node = choice' node)
    (moves : relation.Moves m choice next) : relation.Moves m' choice' next' := by
  have causes : ∀ {target cause}, cause ∈ relation.successorCauses target →
      (m.Causes choice cause ↔ m'.Causes choice' cause) := before.causes wellFormed same
  refine ⟨?_, ?_, ?_, ?_, ?_, ?_, ?_⟩
  · intro node known active
    have here := (before.active node known).mpr active
    rw [← same node known here]
    exact moves.selects node known here
  · intro join member source inside arrives
    have bound := maximum_positive inside
    rw [← before.complete wellFormed member le_rfl bound]
    exact moves.due join member source inside
      ((before.arrives wellFormed member inside le_rfl bound).mpr arrives)
  · intro join member remaining low high
    rw [← before.complete wellFormed member (by omega) high]
    exact moves.early join member remaining low high
  · intro join member source inside
    obtain ⟨node, listed⟩ := mem_joins.mp member
    have known := mem_nodes.mpr ((wellFormed.joined node join listed).2.1 inside)
    rw [← before.active source known, ← before.pending _ (mem_joinKeys.mpr
      ⟨member, join.offset_positive inside, offset_le_maximum join source, inside⟩)]
    exact moves.fresh join member source inside
  · intro target known
    refine (moves.once target known).imp_of_mem ?_
    intro a b memberA memberB apart
    rwa [← causes memberA, ← causes memberB]
  · intro target known
    rw [← after.active target known, moves.active target known]
    exact exists_congr (fun cause => and_congr_right (fun member => causes member))
  · intro key known
    obtain ⟨member, low, high, inside⟩ := mem_joinKeys.mp known
    rw [← after.pending key known, moves.pending key known]
    exact and_congr_right (fun less =>
      before.arrives wellFormed member inside (by omega) (by omega))

/-- The markings a run of the tables can reach. -/
inductive Marked (relation : FrontierRelation) : Marking → Prop
  | start {m : Marking} (active : ∀ node ∈ relation.nodes, m.active node ↔ node ∈ relation.entries)
      (idle : ∀ key ∈ relation.joinKeys, ¬ m.pending key) : Marked relation m
  | step {m next : Marking} {choice : GraphNodeId → Route} (before : Marked relation m)
      (moves : relation.Moves m choice next) : Marked relation next

theorem Marked.congr (wellFormed : relation.WellFormed) {m m' : Marking}
    (marked : relation.Marked m) (agree : relation.Agree m m') : relation.Marked m' := by
  cases marked with
  | start active idle =>
      refine .start (fun node known => ?_) (fun key known => ?_)
      · rw [← agree.active node known, active node known]
      · rw [← agree.pending key known]
        exact idle key known
  | step before moves =>
      exact .step before (moves.congr wellFormed (Agree.refl _) agree (fun _ _ _ => rfl))

theorem eval_initial (f : Nat → Bool) : relation.initial.eval f = true ↔
    (∀ node ∈ relation.nodes, (relation.marking f).active node ↔ node ∈ relation.entries) ∧
    ∀ key ∈ relation.joinKeys, ¬ (relation.marking f).pending key := by
  simp only [initial, Bdd.eval_conjunction, List.all_eq_true, List.forall_mem_append,
    List.forall_mem_map, marking]
  refine and_congr (forall₂_congr (fun node _ => ?_)) (forall₂_congr (fun key _ => ?_))
  · by_cases entry : node ∈ relation.entries
    · simp [entry]
    · simp [entry]
  · simp

theorem current_mem_bits {node : GraphNodeId} (known : node ∈ relation.nodes) :
    FrontierVariable.current node ∈ relation.bits := by
  simp [bits, mem_currentVariables, known]

theorem joinCurrent_mem_bits {key : JoinKey} (known : key ∈ relation.joinKeys) :
    FrontierVariable.joinCurrent key ∈ relation.bits := by
  simp [bits, mem_currentVariables, known]

theorem following_mem_bits {node : GraphNodeId} (known : node ∈ relation.nodes) :
    FrontierVariable.following node ∈ relation.bits := by
  simp [bits, mem_followingVariables, known]

theorem joinFollowing_mem_bits {key : JoinKey} (known : key ∈ relation.joinKeys) :
    FrontierVariable.joinFollowing key ∈ relation.bits := by
  simp [bits, mem_followingVariables, known]

theorem choice_mem_bits {node : GraphNodeId} (known : node ∈ relation.nodes) {route : Route}
    (inside : route ∈ relation.choices node) :
    FrontierVariable.choice node route ∈ relation.bits := by
  simp [bits, mem_choiceVariables, known, inside]

/-- Assignments that agree on the current bits have the same marking. -/
theorem agree_marking {f g : Nat → Bool}
    (same : ∀ v ∈ relation.system.current, f v = g v) :
    relation.Agree (relation.marking f) (relation.marking g) := by
  have bit : ∀ bit ∈ relation.currentVariables, f (relation.index bit) = g (relation.index bit) :=
    fun bit member => same _ (List.mem_map.mpr ⟨bit, member, rfl⟩)
  refine ⟨fun node known => ?_, fun key known => ?_⟩
  · rw [active_marking, active_marking, bit _ (mem_currentVariables.mpr (.inl ⟨node, known, rfl⟩))]
  · rw [pending_marking, pending_marking, bit _ (mem_currentVariables.mpr (.inr ⟨key, known, rfl⟩))]

theorem Selects.congr {f g : Nat → Bool} (same : ∀ bit ∈ relation.bits,
    f (relation.index bit) = g (relation.index bit)) {choice : GraphNodeId → Route}
    (selects : relation.Selects f choice) : relation.Selects g choice := by
  intro node known active
  have here : (relation.marking f).active node := by
    rw [active_marking, same _ (current_mem_bits known)]
    exact active
  obtain ⟨option, chosen⟩ := selects node known here
  refine ⟨option, ?_⟩
  intro route inside
  rw [← same _ (choice_mem_bits known inside)]
  exact chosen route inside

theorem system_valid (wellFormed : relation.WellFormed) : relation.system.Valid := by
  have listed : relation.system.current ++ relation.system.choice ++ relation.system.following =
      relation.bits.map relation.index := by
    simp only [system, bits, List.map_append]
  refine ⟨?_, ?_, ?_, ?_⟩
  · simp [system, followingVariables, currentVariables]
  · rw [listed]
    refine List.Nodup.map_on ?_ (bits_nodup wellFormed)
    intro a memberA b _ same
    exact index_inj memberA same
  · intro f g same
    have agree := agree_marking same
    show relation.initial.eval f = relation.initial.eval g
    rw [Bool.eq_iff_iff, eval_initial, eval_initial]
    refine and_congr (forall₂_congr (fun node known => ?_)) (forall₂_congr (fun key known => ?_))
    · rw [agree.active node known]
    · rw [agree.pending key known]
  · rw [listed]
    have oneWay : ∀ f g : Nat → Bool, (∀ v ∈ relation.bits.map relation.index, f v = g v) →
        relation.transition.eval f = true → relation.transition.eval g = true := by
      intro f g same
      have bit : ∀ bit ∈ relation.bits, f (relation.index bit) = g (relation.index bit) :=
        fun bit member => same _ (List.mem_map.mpr ⟨bit, member, rfl⟩)
      rw [transition_iff wellFormed, transition_iff wellFormed]
      rintro ⟨choice, selects, moves⟩
      refine ⟨choice, selects.congr bit, moves.congr wellFormed ⟨?_, ?_⟩ ⟨?_, ?_⟩
        (fun _ _ _ => rfl)⟩
      · intro node known
        rw [active_marking, active_marking, bit _ (current_mem_bits known)]
      · intro key known
        rw [pending_marking, pending_marking, bit _ (joinCurrent_mem_bits known)]
      · intro node known
        rw [active_nextMarking, active_nextMarking, bit _ (following_mem_bits known)]
      · intro key known
        rw [pending_nextMarking, pending_nextMarking, bit _ (joinFollowing_mem_bits known)]
    intro f g same
    rw [Bool.eq_iff_iff]
    exact ⟨oneWay f g same, oneWay g f (fun v member => (same v member).symm)⟩

/-- The bits of a marking, of the routes it selects and of its successor. -/
noncomputable def encode (m : Marking) (choice : GraphNodeId → Route) (next : Marking) :
    FrontierVariable → Bool
  | .current node => open Classical in decide (m.active node)
  | .choice node route => decide (choice node = route)
  | .following node => open Classical in decide (next.active node)
  | .joinCurrent key => open Classical in decide (m.pending key)
  | .joinFollowing key => open Classical in decide (next.pending key)

/-- The assignment of a marking, of the routes it selects and of its successor. -/
noncomputable def encoded (relation : FrontierRelation) (m : Marking)
    (choice : GraphNodeId → Route) (next : Marking) : Nat → Bool :=
  relation.assign (encode m choice next)

theorem marking_encoded (relation : FrontierRelation) (m : Marking) (choice : GraphNodeId → Route)
    (next : Marking) : relation.Agree (relation.marking (relation.encoded m choice next)) m := by
  refine ⟨fun node known => ?_, fun key known => ?_⟩
  · rw [active_marking, encoded, assign_index (current_mem_bits known)]
    simp [encode]
  · rw [pending_marking, encoded, assign_index (joinCurrent_mem_bits known)]
    simp [encode]

theorem nextMarking_encoded (relation : FrontierRelation) (m : Marking)
    (choice : GraphNodeId → Route) (next : Marking) :
    relation.Agree (relation.nextMarking (relation.encoded m choice next)) next := by
  refine ⟨fun node known => ?_, fun key known => ?_⟩
  · rw [active_nextMarking, encoded, assign_index (following_mem_bits known)]
    simp [encode]
  · rw [pending_nextMarking, encoded, assign_index (joinFollowing_mem_bits known)]
    simp [encode]

theorem selects_encoded {m : Marking} {choice : GraphNodeId → Route}
    (options : ∀ node ∈ relation.nodes, m.active node → choice node ∈ relation.options node)
    (next : Marking) : relation.Selects (relation.encoded m choice next) choice := by
  intro node known active
  have here := ((marking_encoded relation m choice next).active node known).mp active
  refine ⟨options node known here, ?_⟩
  intro route inside
  rw [encoded, assign_index (choice_mem_bits known inside)]
  simp [encode]

/-- The encoded step satisfies the transition relation. -/
theorem transition_encoded (wellFormed : relation.WellFormed) {m next : Marking}
    {choice : GraphNodeId → Route} (moves : relation.Moves m choice next) :
    relation.transition.eval (relation.encoded m choice next) = true := by
  rw [transition_iff wellFormed]
  exact ⟨choice, selects_encoded moves.selects next, moves.congr wellFormed
    (marking_encoded relation m choice next).symm (nextMarking_encoded relation m choice next).symm
    (fun _ _ _ => rfl)⟩

/-- A symbolic step is a step of the markings. -/
theorem step_iff (wellFormed : relation.WellFormed) (f g : Nat → Bool) :
    relation.system.Step f g ↔
      ∃ choice, relation.Moves (relation.marking f) choice (relation.marking g) := by
  have zipped : relation.system.following.zip relation.system.current =
      (relation.followingVariables.zip relation.currentVariables).map
        (Prod.map relation.index relation.index) := by
    simp only [system, List.zip_map]
  have pairs : relation.followingVariables.zip relation.currentVariables =
      relation.nodes.map (fun node => (.following node, .current node)) ++
        relation.joinKeys.map (fun key => (.joinFollowing key, .joinCurrent key)) := by
    rw [followingVariables, currentVariables, List.zip_append (by simp), List.zip_map', List.zip_map']
  unfold SymbolicSystem.Step
  rw [zipped, pairs]
  simp only [List.forall_mem_map, List.forall_mem_append, Prod.map]
  constructor
  · rintro ⟨h, here, ⟨nodes, keys⟩, holds⟩
    obtain ⟨choice, -, moves⟩ := (transition_iff wellFormed h).mp holds
    refine ⟨choice, moves.congr wellFormed (agree_marking here) ⟨?_, ?_⟩ (fun _ _ _ => rfl)⟩
    · intro node known
      rw [active_nextMarking, active_marking, nodes node known]
    · intro key known
      rw [pending_nextMarking, pending_marking, keys key known]
  · rintro ⟨choice, moves⟩
    refine ⟨relation.encoded (relation.marking f) choice (relation.marking g), ?_, ⟨?_, ?_⟩,
      transition_encoded wellFormed moves⟩
    · intro v member
      obtain ⟨bit, current, rfl⟩ := List.mem_map.mp member
      rcases mem_currentVariables.mp current with ⟨node, known, rfl⟩ | ⟨key, known, rfl⟩
      · rw [encoded, assign_index (current_mem_bits known), Bool.eq_iff_iff]
        exact @decide_eq_true_iff _ (Classical.propDecidable _)
      · rw [encoded, assign_index (joinCurrent_mem_bits known), Bool.eq_iff_iff]
        exact @decide_eq_true_iff _ (Classical.propDecidable _)
    · intro node known
      rw [encoded, assign_index (following_mem_bits known), Bool.eq_iff_iff]
      exact @decide_eq_true_iff _ (Classical.propDecidable _)
    · intro key known
      rw [encoded, assign_index (joinFollowing_mem_bits known), Bool.eq_iff_iff]
      exact @decide_eq_true_iff _ (Classical.propDecidable _)

/-- The computed fixed point holds exactly at the reachable markings. -/
theorem reachable_iff_marked (wellFormed : relation.WellFormed) (f : Nat → Bool) :
    relation.reachable.eval f = true ↔ relation.Marked (relation.marking f) := by
  rw [reachable, SymbolicSystem.reachable_iff (system_valid wellFormed)]
  constructor
  · intro reached
    induction reached with
    | start holds =>
        obtain ⟨active, idle⟩ := (eval_initial _).mp holds
        exact .start active idle
    | step before taken ih =>
        obtain ⟨choice, moves⟩ := (step_iff wellFormed _ _).mp taken
        exact ih.step moves
  · have back : ∀ m, relation.Marked m → ∀ g, relation.Agree m (relation.marking g) →
        relation.system.Reached g := by
      intro m marked
      induction marked with
      | @start m active idle =>
          intro g agree
          refine .start ((eval_initial g).mpr ⟨?_, ?_⟩)
          · intro node known
            rw [← agree.active node known, active node known]
          · intro key known
            rw [← agree.pending key known]
            exact idle key known
      | @step m next choice before moves ih =>
          intro g agree
          have earlier := marking_encoded relation m choice next
          refine (ih _ earlier.symm).step ((step_iff wellFormed _ _).mpr ⟨choice, ?_⟩)
          exact moves.congr wellFormed earlier.symm agree (fun _ _ _ => rfl)
    intro marked
    exact back _ marked f (Agree.refl _)

/-! ## What the proof returns -/

/-- Two causes of one target hold together. -/
def Duplicates (relation : FrontierRelation) (m : Marking) (choice : GraphNodeId → Route)
    (target : GraphNodeId) : Prop :=
  ¬ (relation.successorCauses target).Pairwise
    (fun a b => ¬ (m.Causes choice a ∧ m.Causes choice b))

/-- The active nodes select declared routes. -/
def Routes (relation : FrontierRelation) (m : Marking) (choice : GraphNodeId → Route) : Prop :=
  ∀ node ∈ relation.nodes, m.active node → choice node ∈ relation.options node

/-- A frontier whose step leaves nothing active and nothing pending. -/
structure Ends (relation : FrontierRelation) (m : Marking) (choice : GraphNodeId → Route) :
    Prop where
  marked : relation.Marked m
  active : ∃ node ∈ relation.nodes, m.active node
  moves : relation.Moves m choice ⟨fun _ => False, fun _ => False⟩

theorem satisfiable_duplicate (wellFormed : relation.WellFormed) {target : GraphNodeId}
    {a b : SuccessorCause} (memberA : a ∈ relation.successorCauses target)
    (memberB : b ∈ relation.successorCauses target) :
    (Bdd.conjunction [relation.reachable, relation.choiceConstraints,
        Bdd.apply .and (relation.causeDiagram a) (relation.causeDiagram b)]).satisfiable = true ↔
      ∃ m choice, relation.Marked m ∧ relation.Routes m choice ∧ m.Causes choice a ∧
        m.Causes choice b := by
  simp only [Bdd.satisfiable_iff, Bdd.eval_conjunction, List.all_cons, List.all_nil, Bool.and_true,
    Bool.and_eq_true, reachable_iff_marked wellFormed, eval_choiceConstraints wellFormed,
    Bdd.eval_apply, DecisionTree.Operation.table]
  constructor
  · rintro ⟨f, marked, ⟨choice, selects⟩, holdsA, holdsB⟩
    refine ⟨relation.marking f, choice, marked, fun node known active =>
      (selects node known active).1, ?_, ?_⟩
    · exact (eval_causeDiagram wellFormed selects memberA).mp holdsA
    · exact (eval_causeDiagram wellFormed selects memberB).mp holdsB
  · rintro ⟨m, choice, marked, options, holdsA, holdsB⟩
    have agree := marking_encoded relation m choice m
    have selects := selects_encoded options m
    have causes : ∀ {cause}, cause ∈ relation.successorCauses target → m.Causes choice cause →
        (relation.causeDiagram cause).eval (relation.encoded m choice m) = true := by
      intro cause member holds
      rw [eval_causeDiagram wellFormed selects member]
      exact (agree.symm.causes wellFormed (fun _ _ _ => rfl) member).mp holds
    exact ⟨relation.encoded m choice m, marked.congr wellFormed agree.symm, ⟨choice, selects⟩,
      causes memberA holdsA, causes memberB holdsB⟩

/-- The terminal transitions are the ends of reachable frontiers. -/
theorem eval_terminalTransition (wellFormed : relation.WellFormed) (f : Nat → Bool) :
    relation.terminalTransition.eval f = true ↔ (∃ choice, relation.Selects f choice ∧
      relation.Ends (relation.marking f) choice) ∧ relation.followingEmpty.eval f = true := by
  have active : (Bdd.disjunction (relation.nodes.map (fun node =>
      relation.literal (.current node)))).eval f = true ↔
      ∃ node ∈ relation.nodes, (relation.marking f).active node := by
    simp [marking]
  have empty : relation.followingEmpty.eval f = true →
      relation.Agree (relation.nextMarking f) ⟨fun _ => False, fun _ => False⟩ := by
    intro holds
    simp only [followingEmpty, Bdd.eval_conjunction, List.all_map, List.all_eq_true,
      Function.comp_apply, Bdd.eval_negate, eval_bit, Bool.not_eq_true'] at holds
    refine ⟨fun node known => ?_, fun key known => ?_⟩
    · rw [active_nextMarking, holds _ (mem_followingVariables.mpr (.inl ⟨node, known, rfl⟩))]
      simp
    · rw [pending_nextMarking, holds _ (mem_followingVariables.mpr (.inr ⟨key, known, rfl⟩))]
      simp
  simp only [terminalTransition, Bdd.eval_conjunction, List.all_cons, List.all_nil, Bool.and_true,
    Bool.and_eq_true, reachable_iff_marked wellFormed, active, transition_iff wellFormed]
  constructor
  · rintro ⟨marked, some, ⟨choice, selects, moves⟩, following⟩
    exact ⟨⟨choice, selects, marked, some, moves.congr wellFormed (Agree.refl _) (empty following)
      (fun _ _ _ => rfl)⟩, following⟩
  · rintro ⟨⟨choice, selects, ends⟩, following⟩
    exact ⟨ends.marked, ends.active, ⟨choice, selects, ends.moves.congr wellFormed (Agree.refl _)
      (empty following).symm (fun _ _ _ => rfl)⟩, following⟩

theorem eval_terminalRoutePresence (wellFormed : relation.WellFormed) {f : Nat → Bool}
    {choice : GraphNodeId → Route} (selects : relation.Selects f choice) (route : Route) :
    (relation.terminalRoutePresence route).eval f = true ↔
      ∃ node ∈ relation.nodes, (relation.marking f).active node ∧ choice node = route := by
  simp only [terminalRoutePresence, Bdd.eval_disjunction, List.any_map, List.any_eq_true,
    Function.comp_apply, List.mem_filter, decide_eq_true_eq, Bdd.eval_apply,
    DecisionTree.Operation.table, Bool.and_eq_true, eval_bit]
  constructor
  · rintro ⟨node, ⟨known, -⟩, active, chosen⟩
    exact ⟨node, known, active, (eval_choiceLiteral wellFormed selects known active route).mp chosen⟩
  · rintro ⟨node, known, active, rfl⟩
    exact ⟨node, ⟨known, .inr (List.contains_iff_mem.mpr (selects node known active).1)⟩, active,
      (eval_choiceLiteral wellFormed selects known active _).mpr rfl⟩

/-- A terminal transition that exposes the listed routes. -/
theorem satisfiable_terminal (wellFormed : relation.WellFormed) (exposed : List Route) :
    (∃ f, relation.terminalTransition.eval f = true ∧
      ∀ route ∈ exposed, (relation.terminalRoutePresence route).eval f = true) ↔
      ∃ m choice, relation.Ends m choice ∧ ∀ route ∈ exposed, ∃ node ∈ relation.nodes,
        m.active node ∧ choice node = route := by
  constructor
  · rintro ⟨f, holds, all⟩
    obtain ⟨⟨choice, selects, ends⟩, -⟩ := (eval_terminalTransition wellFormed f).mp holds
    refine ⟨relation.marking f, choice, ends, ?_⟩
    intro route member
    exact (eval_terminalRoutePresence wellFormed selects route).mp (all route member)
  · rintro ⟨m, choice, ends, all⟩
    have agree := marking_encoded relation m choice ⟨fun _ => False, fun _ => False⟩
    have selects := selects_encoded ends.moves.selects ⟨fun _ => False, fun _ => False⟩
    refine ⟨relation.encoded m choice ⟨fun _ => False, fun _ => False⟩, ?_, ?_⟩
    · rw [eval_terminalTransition wellFormed]
      obtain ⟨node, known, active⟩ := ends.active
      refine ⟨⟨choice, selects, ends.marked.congr wellFormed agree.symm,
        ⟨node, known, (agree.active node known).mpr active⟩,
        ends.moves.congr wellFormed agree.symm (Agree.refl _) (fun _ _ _ => rfl)⟩, ?_⟩
      simp only [followingEmpty, Bdd.eval_conjunction, List.all_map, List.all_eq_true,
        Function.comp_apply, Bdd.eval_negate, eval_bit, Bool.not_eq_true']
      intro bit member
      rw [encoded, assign_index (List.mem_append_right _ member)]
      rcases mem_followingVariables.mp member with ⟨node, known, rfl⟩ | ⟨key, known, rfl⟩
      · simp [encode]
      · simp [encode]
    · intro route member
      obtain ⟨node, known, active, chosen⟩ := all route member
      rw [eval_terminalRoutePresence wellFormed selects]
      exact ⟨node, known, (agree.active node known).mpr active, chosen⟩

theorem mem_routes {route : Route} :
    route ∈ relation.routes ↔ ∃ node, route ∈ relation.options node := by
  rw [routes, List.mem_insertionSort, List.mem_dedup, mem_values_flatten]
  exact Iff.rfl

/-- A route is exposed when some reachable terminal frontier selects it. -/
theorem mem_exposedRoutes (wellFormed : relation.WellFormed) (route : Route) :
    route ∈ relation.exposedRoutes ↔ ∃ m choice, relation.Ends m choice ∧
      ∃ node ∈ relation.nodes, m.active node ∧ choice node = route := by
  have terminal := satisfiable_terminal wellFormed [route]
  simp only [List.forall_mem_singleton] at terminal
  simp only [exposedRoutes, List.mem_filter, Bdd.satisfiable_iff, Bdd.eval_apply,
    DecisionTree.Operation.table, Bool.and_eq_true, terminal, mem_routes]
  constructor
  · exact fun both => both.2
  · rintro ⟨m, choice, ends, node, known, active, rfl⟩
    exact ⟨⟨node, ends.moves.selects node known active⟩, m, choice, ends, node, known, active, rfl⟩

theorem exists_laterPairs {α : Type} {R : α → α → Prop} (symmetric : ∀ a b, R a b → R b a)
    {xs : List α} (distinct : xs.Nodup) :
    (∃ pair ∈ laterPairs xs, R pair.1 pair.2) ↔ ∃ a ∈ xs, ∃ b ∈ xs, a ≠ b ∧ R a b := by
  have symm : Std.Symm (fun a b => ¬ R a b) := ⟨fun a b absent holds => absent (symmetric b a holds)⟩
  have pairs := forall_laterPairs (fun a b => ¬ R a b) xs
  constructor
  · intro ⟨pair, member, holds⟩
    by_contra none
    refine absurd holds (pairs.mpr ?_ pair member)
    refine distinct.imp_of_mem ?_
    intro a b insideA insideB different both
    exact none ⟨a, insideA, b, insideB, different, both⟩
  · rintro ⟨a, insideA, b, insideB, different, holds⟩
    by_contra none
    have apart := pairs.mp (fun pair member both => none ⟨pair, member, both⟩)
    exact apart.forall insideA insideB different holds

/-- Two routes conflict when one reachable terminal frontier exposes both. -/
theorem conflict_iff (wellFormed : relation.WellFormed) :
    (∃ pair ∈ laterPairs relation.routes, (Bdd.conjunction [relation.terminalTransition,
        relation.terminalRoutePresence pair.1,
        relation.terminalRoutePresence pair.2]).satisfiable = true) ↔
      ∃ m choice, relation.Ends m choice ∧ ∃ a ∈ relation.nodes, ∃ b ∈ relation.nodes,
        m.active a ∧ m.active b ∧ choice a ≠ choice b := by
  have both : ∀ a b : Route, (Bdd.conjunction [relation.terminalTransition,
      relation.terminalRoutePresence a, relation.terminalRoutePresence b]).satisfiable = true ↔
      ∃ m choice, relation.Ends m choice ∧ ∀ route ∈ [a, b], ∃ node ∈ relation.nodes,
        m.active node ∧ choice node = route := by
    intro a b
    rw [← satisfiable_terminal wellFormed, Bdd.satisfiable_iff]
    simp
  have distinct : relation.routes.Nodup :=
    (List.perm_insertionSort _ _).nodup_iff.mpr (List.nodup_dedup _)
  simp only [both]
  rw [exists_laterPairs (R := fun a b => ∃ m choice, relation.Ends m choice ∧
    ∀ route ∈ [a, b], ∃ node ∈ relation.nodes, m.active node ∧ choice node = route) ?_ distinct]
  · constructor
    · rintro ⟨a, -, b, -, different, m, choice, ends, all⟩
      obtain ⟨x, knownX, activeX, rfl⟩ := all a (by simp)
      obtain ⟨y, knownY, activeY, rfl⟩ := all b (by simp)
      exact ⟨m, choice, ends, x, knownX, y, knownY, activeX, activeY, different⟩
    · rintro ⟨m, choice, ends, x, knownX, y, knownY, activeX, activeY, different⟩
      refine ⟨choice x, mem_routes.mpr ⟨x, ends.moves.selects x knownX activeX⟩, choice y,
        mem_routes.mpr ⟨y, ends.moves.selects y knownY activeY⟩, different, m, choice, ends, ?_⟩
      intro route member
      rcases List.mem_pair.mp member with rfl | rfl
      · exact ⟨x, knownX, activeX, rfl⟩
      · exact ⟨y, knownY, activeY, rfl⟩
  · rintro a b ⟨m, choice, ends, all⟩
    refine ⟨m, choice, ends, ?_⟩
    intro route member
    exact all route (by simpa [or_comm] using member)

/-- A satisfiable entry of `duplicate_causes` is a reachable frontier that gives its target two
causes. -/
theorem duplicateCauses_iff (wellFormed : relation.WellFormed) :
    (∃ duplicate ∈ relation.duplicateCauses, (Bdd.conjunction [relation.reachable,
        relation.choiceConstraints, duplicate.1]).satisfiable = true) ↔
      ∃ target ∈ relation.nodes, ∃ m choice, relation.Marked m ∧ relation.Routes m choice ∧
        relation.Duplicates m choice target := by
  have pairs : ∀ target, (∃ duplicate ∈ relation.duplicatesAt target, (Bdd.conjunction
      [relation.reachable, relation.choiceConstraints, duplicate.1]).satisfiable = true) ↔
      ∃ pair ∈ laterPairs (relation.successorCauses target), ∃ m choice, relation.Marked m ∧
        relation.Routes m choice ∧ m.Causes choice pair.1 ∧ m.Causes choice pair.2 := by
    intro target
    have mapped := laterPairs_map (fun cause => (relation.causeDiagram cause, causeSources cause))
      (relation.successorCauses target)
    simp only [duplicatesAt, causes_eq, mapped, List.map_map, List.mem_map,
      Function.comp_apply]
    constructor
    · rintro ⟨_, ⟨pair, member, rfl⟩, holds⟩
      obtain ⟨insideA, insideB⟩ := mem_of_mem_laterPairs member
      exact ⟨pair, member, (satisfiable_duplicate wellFormed insideA insideB).mp holds⟩
    · rintro ⟨pair, member, holds⟩
      obtain ⟨insideA, insideB⟩ := mem_of_mem_laterPairs member
      exact ⟨_, ⟨pair, member, rfl⟩, (satisfiable_duplicate wellFormed insideA insideB).mpr holds⟩
  have duplicates : ∀ target m choice, relation.Duplicates m choice target ↔
      ∃ pair ∈ laterPairs (relation.successorCauses target),
        m.Causes choice pair.1 ∧ m.Causes choice pair.2 := by
    intro target m choice
    rw [Duplicates, ← forall_laterPairs (fun a b => ¬ (m.Causes choice a ∧ m.Causes choice b))]
    simp only [not_forall, not_not, exists_prop]
  simp only [duplicateCauses, List.mem_flatMap, duplicates]
  constructor
  · rintro ⟨duplicate, ⟨target, known, member⟩, holds⟩
    obtain ⟨pair, inside, m, choice, marked, options, both⟩ :=
      (pairs target).mp ⟨duplicate, member, holds⟩
    exact ⟨target, known, m, choice, marked, options, pair, inside, both⟩
  · rintro ⟨target, known, m, choice, marked, options, pair, inside, both⟩
    obtain ⟨duplicate, member, holds⟩ :=
      (pairs target).mpr ⟨pair, inside, m, choice, marked, options, both⟩
    exact ⟨duplicate, ⟨target, known, member⟩, holds⟩

theorem duplicateActivation_ne (target : GraphNodeId) (sources : List GraphNodeId) :
    duplicateActivation target sources ≠ conflictingRoutes ∧
    duplicateActivation target sources ≠ noCompletion := by
  have second : (duplicateActivation target sources).message.toList[1]? = some 'a' := by
    simp only [duplicateActivation, String.toList_append]
    rfl
  refine ⟨fun same => ?_, fun same => ?_⟩
  · rw [same] at second
    exact absurd second (by decide)
  · rw [same] at second
    exact absurd second (by decide)

/-- The duplicate-activation error is raised exactly when a reachable frontier gives one target
two causes. -/
theorem duplicateError_iff (wellFormed : relation.WellFormed) :
    (∃ target sources, relation.completionRoutes = .error (duplicateActivation target sources)) ↔
      ∃ target ∈ relation.nodes, ∃ m choice, relation.Marked m ∧ relation.Routes m choice ∧
        relation.Duplicates m choice target := by
  rw [← duplicateCauses_iff wellFormed]
  constructor
  · rintro ⟨target, sources, raised⟩
    simp only [completionRoutes, bind_unit_eq_error, raiseIf_eq_error] at raised
    rcases raised with duplicate | ⟨-, ⟨-, same⟩ | ⟨-, ⟨-, same⟩ | ⟨-, none⟩⟩⟩
    · obtain ⟨found, member, here⟩ := checkAll_eq_error duplicate
      exact ⟨found, member, ((raiseIf_eq_error _ _ _).mp here).1⟩
    · exact absurd same.symm (duplicateActivation_ne target sources).1
    · exact absurd same.symm (duplicateActivation_ne target sources).2
    · cases none
  · rintro ⟨duplicate, member, holds⟩
    have raises : ∃ e, checkAll (fun duplicate : Bdd × GraphNodeId × List GraphNodeId =>
        raiseIf ((Bdd.conjunction [relation.reachable, relation.choiceConstraints,
          duplicate.1]).satisfiable = true) (duplicateActivation duplicate.2.1 duplicate.2.2))
        relation.duplicateCauses = .error e := by
      cases result : checkAll (fun duplicate : Bdd × GraphNodeId × List GraphNodeId =>
        raiseIf ((Bdd.conjunction [relation.reachable, relation.choiceConstraints,
          duplicate.1]).satisfiable = true) (duplicateActivation duplicate.2.1 duplicate.2.2))
        relation.duplicateCauses with
      | error e => exact ⟨e, rfl⟩
      | ok u =>
          have clean := (checkAll_eq_ok _ _ _).mp result duplicate member
          exact absurd holds ((raiseIf_eq_ok _ _ _).mp clean)
    obtain ⟨e, raised⟩ := raises
    obtain ⟨found, -, here⟩ := checkAll_eq_error raised
    obtain ⟨-, rfl⟩ := (raiseIf_eq_error _ _ _).mp here
    refine ⟨found.2.1, found.2.2, ?_⟩
    rw [completionRoutes, raised]
    rfl

/-- The proof succeeds exactly when no reachable frontier gives a target two causes, no reachable
terminal frontier exposes two routes, and some route is exposed. -/
theorem completionRoutes_eq_ok (wellFormed : relation.WellFormed) (routes : List Route) :
    relation.completionRoutes = .ok routes ↔
      (∀ target ∈ relation.nodes, ∀ m choice, relation.Marked m → relation.Routes m choice →
        ¬ relation.Duplicates m choice target) ∧
      (∀ m choice, relation.Ends m choice → ∀ a ∈ relation.nodes, ∀ b ∈ relation.nodes,
        m.active a → m.active b → choice a = choice b) ∧
      relation.exposedRoutes ≠ [] ∧ routes = relation.exposedRoutes := by
  have duplicates := not_congr (duplicateCauses_iff wellFormed)
  have conflicts := not_congr (conflict_iff wellFormed)
  simp only [completionRoutes, bind_unit_eq_ok, checkAll_eq_ok, raiseIf_eq_ok, pure_eq_ok,
    Except.ok.injEq]
  rw [conflicts]
  simp only [not_exists, not_and] at duplicates
  rw [duplicates]
  simp only [not_exists, not_and, ne_eq, not_not, eq_comm (a := routes)]

end FrontierRelation

end MoteKernel
