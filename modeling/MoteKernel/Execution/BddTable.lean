import MoteKernel.Execution.BddManager

/-!
# The node table

A reference stands for the decision tree below it. In a table that is reduced and
ordered the tree is ordered too, and no two references stand for the same tree:
this is what makes comparing references comparing functions. `Consistent` adds
what the dictionaries of a manager say about the table, and `mk` keeps it.
-/

namespace MoteKernel.BddManager
open DecisionTree (Operation)

abbrev Table := List (Option BddNode)

/-- The tree a reference stands for. -/
inductive Denotes (nodes : Table) : Nat → DecisionTree → Prop where
  | zero : Denotes nodes 0 .zero
  | one : Denotes nodes 1 .one
  | node {reference : Nat} {entry : BddNode} {low high : DecisionTree}
      (found : nodes[reference]? = some (some entry)) (onLow : Denotes nodes entry.low low)
      (onHigh : Denotes nodes entry.high high) :
      Denotes nodes reference (.node entry.index low high)

/-- The table has the two leaves and then nodes: each below its own branches, testing an earlier
variable than they do, with two different branches, and no two alike. -/
structure Reduced (nodes : Table) : Prop where
  zero : nodes[0]? = some none
  one : nodes[1]? = some none
  inner : ∀ reference, 2 ≤ reference → reference < nodes.length →
    ∃ entry, nodes[reference]? = some (some entry)
  earlier : ∀ (reference : Nat) (entry : BddNode), nodes[reference]? = some (some entry) →
    entry.low < reference ∧ entry.high < reference
  apart : ∀ (reference : Nat) (entry : BddNode), nodes[reference]? = some (some entry) →
    entry.low ≠ entry.high
  ordered : ∀ (reference : Nat) (entry branch : BddNode), nodes[reference]? = some (some entry) →
    nodes[entry.low]? = some (some branch) ∨ nodes[entry.high]? = some (some branch) →
      entry.index < branch.index
  unique : ∀ (reference other : Nat) (entry : BddNode), nodes[reference]? = some (some entry) →
    nodes[other]? = some (some entry) → reference = other

/-- The leaves are the references of no node. -/
theorem Reduced.inner_ge {nodes : Table} (reduced : Reduced nodes) {reference : Nat}
    {entry : BddNode} (found : nodes[reference]? = some (some entry)) : 2 ≤ reference := by
  by_contra small
  have cases : reference = 0 ∨ reference = 1 := by omega
  rcases cases with rfl | rfl
  · rw [reduced.zero] at found
    cases found
  · rw [reduced.one] at found
    cases found

theorem lt_of_found {nodes : Table} {reference : Nat} {entry : Option BddNode}
    (found : nodes[reference]? = some entry) : reference < nodes.length :=
  (List.getElem?_eq_some_iff.mp found).1

namespace Denotes

variable {nodes : Table} {reference other : Nat} {tree tree' : DecisionTree}

theorem lt (reduced : Reduced nodes) (denotes : Denotes nodes reference tree) :
    reference < nodes.length := by
  cases denotes with
  | zero => exact lt_of_found reduced.zero
  | one => exact lt_of_found reduced.one
  | node found onLow onHigh => exact lt_of_found found

/-- A table that grows keeps every tree. -/
theorem grow {more : Table} (denotes : Denotes nodes reference tree) :
    Denotes (nodes ++ more) reference tree := by
  induction denotes with
  | zero => exact .zero
  | one => exact .one
  | node found onLow onHigh ihLow ihHigh =>
      apply Denotes.node _ ihLow ihHigh
      rw [List.getElem?_append_left (lt_of_found found)]
      exact found

/-- A reference stands for one tree. -/
theorem functional (reduced : Reduced nodes) (here : Denotes nodes reference tree)
    (there : Denotes nodes reference tree') : tree = tree' := by
  induction here generalizing tree' with
  | zero =>
      cases there with
      | zero => rfl
      | node found onLow onHigh =>
          rw [reduced.zero] at found
          cases found
  | one =>
      cases there with
      | one => rfl
      | node found onLow onHigh =>
          rw [reduced.one] at found
          cases found
  | node found onLow onHigh ihLow ihHigh =>
      cases there with
      | zero =>
          rw [reduced.zero] at found
          cases found
      | one =>
          rw [reduced.one] at found
          cases found
      | node found' onLow' onHigh' =>
          rw [found] at found'
          cases found'
          rw [ihLow onLow', ihHigh onHigh']

/-- A tree has one reference. -/
theorem injective (reduced : Reduced nodes) (here : Denotes nodes reference tree)
    (there : Denotes nodes other tree) : reference = other := by
  induction here generalizing other with
  | zero => cases there; rfl
  | one => cases there; rfl
  | node found onLow onHigh ihLow ihHigh =>
      rename_i entry low high
      generalize shape : DecisionTree.node entry.index low high = whole at there
      cases there with
      | zero => cases shape
      | one => cases shape
      | node found' onLow' onHigh' =>
          rename_i entry' low' high'
          simp only [DecisionTree.node.injEq] at shape
          obtain ⟨index, rfl, rfl⟩ := shape
          have same : entry = entry' := by
            cases entry
            cases entry'
            simp only at index ihLow ihHigh onLow' onHigh'
            rw [index, ihLow onLow', ihHigh onHigh']
          subst same
          exact reduced.unique _ _ _ found found'

/-- The tree tests its variables in order from the one at its root on. -/
theorem ordered (reduced : Reduced nodes) (denotes : Denotes nodes reference tree) :
    ∀ bound, (∀ entry : BddNode, nodes[reference]? = some (some entry) → bound ≤ entry.index) →
      tree.Ordered bound := by
  induction denotes with
  | zero => exact fun _ _ => trivial
  | one => exact fun _ _ => trivial
  | node found onLow onHigh ihLow ihHigh =>
      intro bound root
      refine ⟨root _ found, ?_, ?_, ?_⟩
      · intro same
        apply reduced.apart _ _ found
        rw [same] at onLow
        exact onLow.injective reduced onHigh
      · apply ihLow
        intro branch here
        exact reduced.ordered _ _ branch found (.inl here)
      · apply ihHigh
        intro branch here
        exact reduced.ordered _ _ branch found (.inr here)

theorem ordered_zero (reduced : Reduced nodes) (denotes : Denotes nodes reference tree) :
    tree.Ordered 0 :=
  denotes.ordered reduced 0 fun _ _ => Nat.zero_le _

end Denotes

/-- Every position of the table stands for a tree. The induction is on the position: branches are
earlier in the table. -/
theorem Reduced.denotes {nodes : Table} (reduced : Reduced nodes) (reference : Nat)
    (inside : reference < nodes.length) : ∃ tree, Denotes nodes reference tree := by
  induction reference using Nat.strongRecOn with
  | ind reference ih =>
      by_cases leaf : reference < 2
      · have cases : reference = 0 ∨ reference = 1 := by omega
        rcases cases with rfl | rfl
        · exact ⟨_, .zero⟩
        · exact ⟨_, .one⟩
      · obtain ⟨entry, found⟩ := reduced.inner reference (by omega) inside
        obtain ⟨lowEarlier, highEarlier⟩ := reduced.earlier reference entry found
        obtain ⟨low, onLow⟩ := ih entry.low lowEarlier (by omega)
        obtain ⟨high, onHigh⟩ := ih entry.high highEarlier (by omega)
        exact ⟨_, .node found onLow onHigh⟩

/-! ## The function of a reference -/

/-- The value at a reference: from each node on to the branch its variable chooses, for at most
`fuel` nodes. -/
def follow (nodes : Table) (assignment : Nat → Bool) : Nat → Nat → Bool
  | 0, reference => reference = 1
  | fuel + 1, reference =>
      match nodes[reference]? with
      | some (some entry) =>
          follow nodes assignment fuel (if assignment entry.index then entry.high else entry.low)
      | _ => reference = 1

/-- The Boolean function a reference of the manager denotes. -/
def Manager.value (manager : Manager) (reference : Nat) (assignment : Nat → Bool) : Bool :=
  follow manager.nodes assignment manager.nodes.length reference

theorem follow_eq_eval {nodes : Table} (reduced : Reduced nodes) (assignment : Nat → Bool)
    {reference : Nat} {tree : DecisionTree} (denotes : Denotes nodes reference tree) (fuel : Nat)
    (enough : reference ≤ fuel) : follow nodes assignment fuel reference = tree.eval assignment := by
  induction denotes generalizing fuel with
  | zero =>
      cases fuel with
      | zero => rfl
      | succ fuel => simp [follow, reduced.zero, DecisionTree.eval]
  | one =>
      cases fuel with
      | zero => rfl
      | succ fuel => simp [follow, reduced.one, DecisionTree.eval]
  | node found onLow onHigh ihLow ihHigh =>
      rename_i reference entry low high
      obtain ⟨lowEarlier, highEarlier⟩ := reduced.earlier _ _ found
      obtain ⟨rest, rfl⟩ : ∃ rest, fuel = rest + 1 := ⟨fuel - 1, by omega⟩
      rw [follow, found]
      show follow nodes assignment rest _ = _
      rw [DecisionTree.eval]
      by_cases chosen : assignment entry.index = true
      · rw [if_pos chosen, if_pos chosen]
        exact ihHigh rest (by omega)
      · rw [if_neg chosen, if_neg chosen]
        exact ihLow rest (by omega)

theorem value_eq_eval {manager : Manager} (reduced : Reduced manager.nodes) {reference : Nat}
    {tree : DecisionTree} (denotes : Denotes manager.nodes reference tree) :
    manager.value reference = fun assignment => tree.eval assignment := by
  funext assignment
  exact follow_eq_eval reduced assignment denotes _ (Nat.le_of_lt (denotes.lt reduced))

/-- References are equal exactly when they denote the same function. -/
theorem reference_eq_iff {manager : Manager} (reduced : Reduced manager.nodes)
    {reference other : Nat} (inside : reference < manager.nodes.length)
    (inside' : other < manager.nodes.length) :
    reference = other ↔ manager.value reference = manager.value other := by
  constructor
  · intro same
    rw [same]
  · intro same
    obtain ⟨tree, denotes⟩ := reduced.denotes reference inside
    obtain ⟨tree', denotes'⟩ := reduced.denotes other inside'
    rw [value_eq_eval reduced denotes, value_eq_eval reduced denotes'] at same
    have alike : tree = tree' := DecisionTree.ext_of_ordered _ tree tree' le_rfl
      (denotes.ordered_zero reduced) (denotes'.ordered_zero reduced) (congrFun same)
    rw [← alike] at denotes'
    exact denotes.injective reduced denotes'

/-! ## Managers -/

/-- The dictionaries of a manager agree with its table: `unique` is its index, and a cached
reference is the result of the cached call. -/
structure Consistent (manager : Manager) : Prop where
  reduced : Reduced manager.nodes
  unique : ∀ index low high reference, manager.unique.get? (index, low, high) = some reference ↔
    manager.nodes[reference]? = some (some ⟨index, low, high⟩)
  applied : ∀ operation a b reference, manager.applyCache.get? (operation, a, b) = some reference →
    ∃ first second, Denotes manager.nodes a first ∧ Denotes manager.nodes b second ∧
      Denotes manager.nodes reference (.apply operation first second)
  negated : ∀ a reference, manager.notCache.get? a = some reference →
    ∃ tree, Denotes manager.nodes a tree ∧ Denotes manager.nodes reference tree.negate
  quantified : ∀ a hidden reference, manager.existsCache.get? (a, hidden) = some reference →
    ∃ tree, Denotes manager.nodes a tree ∧
      Denotes manager.nodes reference (tree.project (hidden.sort (· ≤ ·)))
  substituted : ∀ a (mapping : Dict Nat Nat) reference,
    manager.renameCache.get? (a, mapping.frozen.items) = some reference →
      ∃ tree, Denotes manager.nodes a tree ∧
        Denotes manager.nodes reference (tree.rename (Manager.renamed mapping))

/-- The later manager has all references of the earlier one, for the same trees. -/
structure Grows (before after : Manager) : Prop where
  nodes : ∃ more, after.nodes = before.nodes ++ more
  nextVariable : after.nextVariable = before.nextVariable

theorem Grows.refl (manager : Manager) : Grows manager manager :=
  ⟨⟨[], (List.append_nil _).symm⟩, rfl⟩

theorem Grows.trans {a b c : Manager} (first : Grows a b) (second : Grows b c) : Grows a c := by
  obtain ⟨⟨more, nodes⟩, next⟩ := first
  obtain ⟨⟨more', nodes'⟩, next'⟩ := second
  refine ⟨⟨more ++ more', ?_⟩, next'.trans next⟩
  rw [nodes', nodes, List.append_assoc]

theorem Grows.denotes {before after : Manager} (grows : Grows before after) {reference : Nat}
    {tree : DecisionTree} (denotes : Denotes before.nodes reference tree) :
    Denotes after.nodes reference tree := by
  obtain ⟨more, nodes⟩ := grows.nodes
  rw [nodes]
  exact denotes.grow

theorem consistent_fresh : Consistent {} where
  reduced :=
    { zero := rfl
      one := rfl
      inner := by
        intro reference large inside
        simp at inside
        omega
      earlier := by
        intro reference entry found
        match reference with
        | 0 | 1 | _ + 2 => simp at found
      apart := by
        intro reference entry found
        match reference with
        | 0 | 1 | _ + 2 => simp at found
      ordered := by
        intro reference entry branch found
        match reference with
        | 0 | 1 | _ + 2 => simp at found
      unique := by
        intro reference other entry found
        match reference with
        | 0 | 1 | _ + 2 => simp at found }
  unique := by
    intro index low high reference
    match reference with
    | 0 | 1 | _ + 2 => simp [Dict.get?, Dict.empty]
  applied := by
    intro operation a b reference found
    simp [Dict.get?, Dict.empty] at found
  negated := by
    intro a reference found
    simp [Dict.get?, Dict.empty] at found
  quantified := by
    intro a hidden reference found
    simp [Dict.get?, Dict.empty] at found
  substituted := by
    intro a mapping reference found
    simp [Dict.get?, Dict.empty] at found

/-! ## `mk` -/

section Append

variable {nodes : Table} {entry : BddNode}

theorem found_append (reference : Nat) (other : BddNode) :
    (nodes ++ [some entry])[reference]? = some (some other) ↔
      nodes[reference]? = some (some other) ∨ reference = nodes.length ∧ entry = other := by
  by_cases inside : reference < nodes.length
  · rw [List.getElem?_append_left inside]
    constructor
    · exact .inl
    · rintro (found | ⟨rfl, -⟩)
      · exact found
      · omega
  · have absent : nodes[reference]? = none := List.getElem?_eq_none (by omega)
    rw [List.getElem?_append_right (by omega), absent]
    by_cases last : reference = nodes.length
    · subst last
      simp
    · have beyond : [some entry][reference - nodes.length]? = none := by
        apply List.getElem?_eq_none
        rw [List.length_singleton]
        omega
      rw [beyond]
      simp [last]

theorem root_of_ordered {reference bound : Nat} {tree : DecisionTree} {branch : BddNode}
    (reduced : Reduced nodes) (denotes : Denotes nodes reference tree)
    (ordered : tree.Ordered bound) (found : nodes[reference]? = some (some branch)) :
    bound ≤ branch.index := by
  cases denotes with
  | zero =>
      rw [reduced.zero] at found
      cases found
  | one =>
      rw [reduced.one] at found
      cases found
  | node found' onLow onHigh =>
      rw [found] at found'
      cases found'
      exact ordered.1

/-- A new node over two different earlier trees of later variables keeps the table reduced. -/
theorem Reduced.append (reduced : Reduced nodes) {low high : DecisionTree}
    (onLow : Denotes nodes entry.low low) (onHigh : Denotes nodes entry.high high)
    (orderedLow : low.Ordered (entry.index + 1)) (orderedHigh : high.Ordered (entry.index + 1))
    (apart : entry.low ≠ entry.high)
    (fresh : ∀ reference : Nat, nodes[reference]? ≠ some (some entry)) :
    Reduced (nodes ++ [some entry]) := by
  have lowInside := onLow.lt reduced
  have highInside := onHigh.lt reduced
  refine ⟨?_, ?_, ?_, ?_, ?_, ?_, ?_⟩
  · rw [List.getElem?_append_left (lt_of_found reduced.zero)]
    exact reduced.zero
  · rw [List.getElem?_append_left (lt_of_found reduced.one)]
    exact reduced.one
  · intro reference large inside
    by_cases old : reference < nodes.length
    · obtain ⟨other, found⟩ := reduced.inner reference large old
      exact ⟨other, (found_append reference other).mpr (.inl found)⟩
    · refine ⟨entry, (found_append reference entry).mpr (.inr ⟨?_, rfl⟩)⟩
      simp at inside
      omega
  · intro reference other found
    rcases (found_append reference other).mp found with old | ⟨rfl, rfl⟩
    · exact reduced.earlier reference other old
    · exact ⟨lowInside, highInside⟩
  · intro reference other found
    rcases (found_append reference other).mp found with old | ⟨rfl, rfl⟩
    · exact reduced.apart reference other old
    · exact apart
  · intro reference other branch found below
    rw [found_append, found_append] at below
    rcases (found_append reference other).mp found with old | ⟨rfl, rfl⟩
    · obtain ⟨lowEarlier, highEarlier⟩ := reduced.earlier reference other old
      have inside := lt_of_found old
      apply reduced.ordered reference other branch old
      rcases below with (here | ⟨last, -⟩) | (here | ⟨last, -⟩)
      · exact .inl here
      · omega
      · exact .inr here
      · omega
    · rcases below with (here | ⟨last, -⟩) | (here | ⟨last, -⟩)
      · exact root_of_ordered reduced onLow orderedLow here
      · omega
      · exact root_of_ordered reduced onHigh orderedHigh here
      · omega
  · intro reference other entry' found found'
    rcases (found_append reference entry').mp found with old | ⟨rfl, rfl⟩
    · rcases (found_append other entry').mp found' with old' | ⟨rfl, rfl⟩
      · exact reduced.unique reference other entry' old old'
      · exact absurd old (fresh reference)
    · rcases (found_append other entry).mp found' with old' | ⟨rfl, -⟩
      · exact absurd old' (fresh other)
      · rfl

end Append

/-- The dictionaries other than `unique` still describe a table that grew. -/
theorem Consistent.grow {manager : Manager} (consistent : Consistent manager) {nodes : Table}
    {unique : Dict (Nat × Nat × Nat) Nat} (more : Table) (grown : nodes = manager.nodes ++ more)
    (reduced : Reduced nodes)
    (indexed : ∀ index low high reference, unique.get? (index, low, high) = some reference ↔
      nodes[reference]? = some (some ⟨index, low, high⟩)) :
    Consistent { manager with nodes, unique } := by
  subst grown
  refine ⟨reduced, indexed, ?_, ?_, ?_, ?_⟩
  · intro operation a b reference found
    obtain ⟨first, second, onA, onB, result⟩ := consistent.applied operation a b reference found
    exact ⟨first, second, onA.grow, onB.grow, result.grow⟩
  · intro a reference found
    obtain ⟨tree, onA, result⟩ := consistent.negated a reference found
    exact ⟨tree, onA.grow, result.grow⟩
  · intro a hidden reference found
    obtain ⟨tree, onA, result⟩ := consistent.quantified a hidden reference found
    exact ⟨tree, onA.grow, result.grow⟩
  · intro a mapping reference found
    obtain ⟨tree, onA, result⟩ := consistent.substituted a mapping reference found
    exact ⟨tree, onA.grow, result.grow⟩

/-- What every operation promises: the manager stays consistent and only grows, and the result
stands for the tree. -/
structure Returns (before : Manager) (result : Manager × Nat) (tree : DecisionTree) : Prop where
  consistent : Consistent result.1
  grows : Grows before result.1
  denotes : Denotes result.1.nodes result.2 tree

theorem mk_returns {manager : Manager} (consistent : Consistent manager) {index low high : Nat}
    {onLow onHigh : DecisionTree} (lows : Denotes manager.nodes low onLow)
    (highs : Denotes manager.nodes high onHigh) (orderedLow : onLow.Ordered (index + 1))
    (orderedHigh : onHigh.Ordered (index + 1)) :
    Returns manager (manager.mk index low high) (.mk index onLow onHigh) := by
  have reduced := consistent.reduced
  unfold Manager.mk DecisionTree.mk
  by_cases same : low = high
  · subst same
    rw [if_pos rfl, if_pos (lows.functional reduced highs)]
    exact ⟨consistent, .refl manager, lows⟩
  · have different : onLow ≠ onHigh := by
      intro alike
      rw [alike] at lows
      exact same (lows.injective reduced highs)
    rw [if_neg same, if_neg different]
    cases known : manager.unique.get? (index, low, high) with
    | some existing =>
        have found := (consistent.unique index low high existing).mp known
        exact ⟨consistent, .refl manager, .node found lows highs⟩
    | none =>
        have fresh : ∀ reference : Nat, manager.nodes[reference]? ≠ some (some ⟨index, low, high⟩) := by
          intro reference found
          rw [(consistent.unique index low high reference).mpr found] at known
          cases known
        have table : Reduced (manager.nodes ++ [some ⟨index, low, high⟩]) :=
          reduced.append lows highs orderedLow orderedHigh same fresh
        refine ⟨consistent.grow _ rfl table ?_, ⟨⟨_, rfl⟩, rfl⟩, ?_⟩
        · intro index' low' high' reference
          rw [Dict.get?_set, found_append]
          by_cases key : (index', low', high') = (index, low, high)
          · rw [if_pos key]
            simp only [Prod.mk.injEq] at key
            obtain ⟨rfl, rfl, rfl⟩ := key
            constructor
            · intro last
              exact .inr ⟨(Option.some.inj last).symm, rfl⟩
            · rintro (old | ⟨last, -⟩)
              · exact absurd old (fresh reference)
              · rw [last]
          · rw [if_neg key, consistent.unique]
            constructor
            · exact .inl
            · rintro (old | ⟨-, alike⟩)
              · exact old
              · simp only [BddNode.mk.injEq] at alike
                obtain ⟨rfl, rfl, rfl⟩ := alike
                exact absurd rfl key
        · have found : (manager.nodes ++ [some ⟨index, low, high⟩])[manager.nodes.length]? =
              some (some ⟨index, low, high⟩) := (found_append _ _).mpr (.inr ⟨rfl, rfl⟩)
          exact .node found lows.grow highs.grow

end MoteKernel.BddManager
