import MoteKernel.Execution.BddTable

/-!
# Correctness of the diagram manager

Each loop takes the item on top of its stack to a result in the cache, in so many
turns and with the rest of the stack untouched; the induction is on the trees of
the item, which the stack does not know about. From this every operation returns,
for the tree that the same operation on trees gives, and a sequence of operations
returns references that denote what the operations mean.
-/

namespace MoteKernel.BddManager
open DecisionTree (Operation)

variable {manager : Manager} {operation : Operation} {a b : Nat} {first second : DecisionTree}

/-! ## Reading the table -/

theorem node_eq_some {reference : Nat} {entry : BddNode} :
    manager.node reference = some entry ↔ manager.nodes[reference]? = some (some entry) := by
  unfold Manager.node
  cases manager.nodes[reference]? with
  | none => simp
  | some slot => simp

theorem node_zero (reduced : Reduced manager.nodes) : manager.node 0 = none := by
  simp [Manager.node, reduced.zero]

theorem node_one (reduced : Reduced manager.nodes) : manager.node 1 = none := by
  simp [Manager.node, reduced.one]

theorem Grows.node {before after : Manager} (grows : Grows before after) {reference : Nat}
    (inside : reference < before.nodes.length) : after.node reference = before.node reference := by
  obtain ⟨more, nodes⟩ := grows.nodes
  rw [Manager.node, nodes, List.getElem?_append_left inside, ← Manager.node]

theorem Grows.cofactor {before after : Manager} (grows : Grows before after) {reference : Nat}
    (inside : reference < before.nodes.length) (index : Nat) :
    after.cofactor reference index = before.cofactor reference index := by
  rw [Manager.cofactor, grows.node inside, ← Manager.cofactor]

theorem Grows.topIndex {before after : Manager} (grows : Grows before after) {a b : Nat}
    (insideA : a < before.nodes.length) (insideB : b < before.nodes.length) :
    after.topIndex a b = before.topIndex a b := by
  rw [Manager.topIndex, grows.node insideA, grows.node insideB, ← Manager.topIndex]

theorem cofactor_denotes {nodes : Table} (same : manager.nodes = nodes) (reduced : Reduced nodes)
    (denotes : Denotes nodes a first) (index : Nat) :
    Denotes nodes (manager.cofactor a index).1 (first.cofactor index false) ∧
      Denotes nodes (manager.cofactor a index).2 (first.cofactor index true) := by
  subst same
  unfold Manager.cofactor
  cases denotes with
  | zero =>
      rw [node_zero reduced]
      exact ⟨.zero, .zero⟩
  | one =>
      rw [node_one reduced]
      exact ⟨.one, .one⟩
  | node found onLow onHigh =>
      rw [node_eq_some.mpr found]
      simp only [DecisionTree.cofactor]
      split
      · exact ⟨onLow, onHigh⟩
      · exact ⟨.node found onLow onHigh, .node found onLow onHigh⟩

theorem Denotes.eq_zero {nodes : Table} (reduced : Reduced nodes) {tree : DecisionTree}
    (denotes : Denotes nodes 0 tree) : tree = .zero :=
  denotes.functional reduced .zero

theorem Denotes.eq_one {nodes : Table} (reduced : Reduced nodes) {tree : DecisionTree}
    (denotes : Denotes nodes 1 tree) : tree = .one :=
  denotes.functional reduced .one

theorem Denotes.of_eval {nodes : Table} (reduced : Reduced nodes) {reference : Nat}
    {tree tree' : DecisionTree} (denotes : Denotes nodes reference tree) (ordered : tree'.Ordered 0)
    (same : ∀ f, tree.eval f = tree'.eval f) : Denotes nodes reference tree' := by
  rw [← DecisionTree.ext_of_ordered _ tree tree' le_rfl (denotes.ordered_zero reduced) ordered same]
  exact denotes

theorem Denotes.size_cofactor_lt {nodes : Table} (reduced : Reduced nodes) {reference : Nat}
    {tree : DecisionTree} (denotes : Denotes nodes reference tree) {entry : BddNode}
    (found : nodes[reference]? = some (some entry)) (value : Bool) :
    (tree.cofactor entry.index value).size < tree.size := by
  cases denotes with
  | zero =>
      rw [reduced.zero] at found
      cases found
  | one =>
      rw [reduced.one] at found
      cases found
  | node found' onLow onHigh =>
      rw [found] at found'
      cases found'
      exact DecisionTree.size_cofactor_lt _ value _ _

theorem topIndex_eq_some {index : Nat} (top : manager.topIndex a b = some index) :
    (∀ entry, manager.node a = some entry → index ≤ entry.index) ∧
    (∀ entry, manager.node b = some entry → index ≤ entry.index) ∧
    ((∃ entry, manager.node a = some entry ∧ entry.index = index) ∨
      ∃ entry, manager.node b = some entry ∧ entry.index = index) := by
  unfold Manager.topIndex at top
  cases atA : manager.node a with
  | none =>
      cases atB : manager.node b with
      | none => simp [atA, atB] at top
      | some entry =>
          simp only [atA, atB, Option.some.injEq] at top
          simp [top]
  | some entry =>
      cases atB : manager.node b with
      | none =>
          simp only [atA, atB, Option.some.injEq] at top
          simp [top]
      | some other =>
          simp only [atA, atB, Option.some.injEq] at top
          simp only [Option.some.injEq, forall_eq', exists_eq_left']
          omega

/-- The smallest variable at the two roots: both trees start there or later, and at least one of
them gets smaller once it is known. -/
theorem topIndex_spec (reduced : Reduced manager.nodes) (onA : Denotes manager.nodes a first)
    (onB : Denotes manager.nodes b second) {index : Nat}
    (top : manager.topIndex a b = some index) :
    first.Ordered index ∧ second.Ordered index ∧
      ∀ value, (first.cofactor index value).size + (second.cofactor index value).size <
        first.size + second.size := by
  obtain ⟨belowA, belowB, reached⟩ := topIndex_eq_some top
  refine ⟨?_, ?_, ?_⟩
  · apply onA.ordered reduced
    intro entry found
    exact belowA entry (node_eq_some.mpr found)
  · apply onB.ordered reduced
    intro entry found
    exact belowB entry (node_eq_some.mpr found)
  · intro value
    have shrinksA := DecisionTree.size_cofactor_le index value first
    have shrinksB := DecisionTree.size_cofactor_le index value second
    rcases reached with ⟨entry, found, rfl⟩ | ⟨entry, found, rfl⟩
    · have lower := onA.size_cofactor_lt reduced (node_eq_some.mp found) value
      omega
    · have lower := onB.size_cofactor_lt reduced (node_eq_some.mp found) value
      omega

/-! ## `apply` -/

/-- A sorted pair without a terminal result has an inner node. -/
theorem topIndex_of_no_terminal (reduced : Reduced manager.nodes) (sorted : a ≤ b)
    (inside : b < manager.nodes.length) (open_ : Manager.applyTerminal operation a b = none) :
    ∃ index, manager.topIndex a b = some index := by
  have inner : 2 ≤ b := by
    by_contra small
    have casesB : b = 0 ∨ b = 1 := by omega
    have casesA : a = 0 ∨ a = 1 := by omega
    cases operation <;> rcases casesA with rfl | rfl <;> rcases casesB with rfl | rfl <;>
      simp [Manager.applyTerminal] at open_
    omega
  obtain ⟨entry, found⟩ := reduced.inner b inner inside
  unfold Manager.topIndex
  rw [node_eq_some.mpr found]
  cases manager.node a with
  | none => exact ⟨_, rfl⟩
  | some other => exact ⟨_, rfl⟩

theorem applyTerminal_denotes {nodes : Table} (reduced : Reduced nodes)
    (onA : Denotes nodes a first) (onB : Denotes nodes b second) {result : Nat}
    (found : Manager.applyTerminal operation a b = some result) :
    Denotes nodes result (.apply operation first second) := by
  have ordered := DecisionTree.ordered_apply operation first second 0 (onA.ordered_zero reduced)
    (onB.ordered_zero reduced)
  have alike : a = b → first = second := by
    rintro rfl
    exact onA.functional reduced onB
  have zeroA : a = 0 → first = .zero := by
    rintro rfl
    exact onA.eq_zero reduced
  have zeroB : b = 0 → second = .zero := by
    rintro rfl
    exact onB.eq_zero reduced
  have oneA : a = 1 → first = .one := by
    rintro rfl
    exact onA.eq_one reduced
  have oneB : b = 1 → second = .one := by
    rintro rfl
    exact onB.eq_one reduced
  have leafZero : Denotes nodes 0 .zero := .zero
  have leafOne : Denotes nodes 1 .one := .one
  cases operation with
  | and =>
      simp only [Manager.applyTerminal] at found
      split_ifs at found with zero one other <;> obtain rfl := Option.some.inj found
      · refine leafZero.of_eval reduced ordered fun f => ?_
        rcases zero with zero | zero
        · simp [DecisionTree.eval_apply, zeroA zero, DecisionTree.eval, Operation.table]
        · simp [DecisionTree.eval_apply, zeroB zero, DecisionTree.eval, Operation.table]
      · refine onB.of_eval reduced ordered fun f => ?_
        simp [DecisionTree.eval_apply, oneA one, DecisionTree.eval, Operation.table]
      · refine onA.of_eval reduced ordered fun f => ?_
        rcases other with one | same
        · simp [DecisionTree.eval_apply, oneB one, DecisionTree.eval, Operation.table]
        · simp [DecisionTree.eval_apply, alike same, Operation.table]
  | or =>
      simp only [Manager.applyTerminal] at found
      split_ifs at found with one zero other <;> obtain rfl := Option.some.inj found
      · refine leafOne.of_eval reduced ordered fun f => ?_
        rcases one with one | one
        · simp [DecisionTree.eval_apply, oneA one, DecisionTree.eval, Operation.table]
        · simp [DecisionTree.eval_apply, oneB one, DecisionTree.eval, Operation.table]
      · refine onB.of_eval reduced ordered fun f => ?_
        simp [DecisionTree.eval_apply, zeroA zero, DecisionTree.eval, Operation.table]
      · refine onA.of_eval reduced ordered fun f => ?_
        rcases other with zero | same
        · simp [DecisionTree.eval_apply, zeroB zero, DecisionTree.eval, Operation.table]
        · simp [DecisionTree.eval_apply, alike same, Operation.table]
  | xor =>
      simp only [Manager.applyTerminal] at found
      split_ifs at found with zero same <;> obtain rfl := Option.some.inj found
      · refine onB.of_eval reduced ordered fun f => ?_
        simp [DecisionTree.eval_apply, zeroA zero, DecisionTree.eval, Operation.table]
      · refine leafZero.of_eval reduced ordered fun f => ?_
        simp [DecisionTree.eval_apply, alike same, DecisionTree.eval, Operation.table]

@[simp] theorem applyKey_sorted (operation : Operation) (a b : Nat) :
    Manager.applyKey operation (min a b) (max a b) = Manager.applyKey operation a b := by
  simp [Manager.applyKey]

/-- The trees of a pair, in the order of its key. -/
theorem sorted_denotes {nodes : Table} (reduced : Reduced nodes) (onA : Denotes nodes a first)
    (onB : Denotes nodes b second) :
    ∃ lower upper, Denotes nodes (min a b) lower ∧ Denotes nodes (max a b) upper ∧
      lower.size + upper.size = first.size + second.size ∧
      ∀ operation, DecisionTree.apply operation lower upper =
        DecisionTree.apply operation first second := by
  rcases Nat.le_total a b with le | le
  · rw [Nat.min_eq_left le, Nat.max_eq_right le]
    exact ⟨first, second, onA, onB, rfl, fun _ => rfl⟩
  · rw [Nat.min_eq_right le, Nat.max_eq_left le]
    refine ⟨second, first, onB, onA, Nat.add_comm _ _, fun operation => ?_⟩
    exact DecisionTree.apply_comm operation (onB.ordered_zero reduced) (onA.ordered_zero reduced)

theorem Consistent.cached_apply (consistent : Consistent manager)
    (onA : Denotes manager.nodes a first) (onB : Denotes manager.nodes b second) {result : Nat}
    (cached : manager.applyCache.get? (Manager.applyKey operation a b) = some result) :
    Denotes manager.nodes result (.apply operation first second) := by
  have reduced := consistent.reduced
  obtain ⟨lower, upper, onMin, onMax, -, same⟩ := sorted_denotes reduced onA onB
  obtain ⟨lower', upper', onMin', onMax', denotes⟩ := consistent.applied _ _ _ _ cached
  rw [← same operation, onMin.functional reduced onMin', onMax.functional reduced onMax']
  exact denotes

theorem Consistent.cache_apply (consistent : Consistent manager)
    (onA : Denotes manager.nodes a first) (onB : Denotes manager.nodes b second) {result : Nat}
    (denotes : Denotes manager.nodes result (.apply operation first second)) :
    Consistent { manager with
      applyCache := manager.applyCache.set (Manager.applyKey operation a b) result } := by
  refine ⟨consistent.reduced, consistent.unique, ?_, consistent.negated, consistent.quantified,
    consistent.substituted⟩
  intro operation' a' b' reference found
  rw [Dict.get?_set] at found
  by_cases here : (operation', a', b') = Manager.applyKey operation a b
  · rw [if_pos here] at found
    obtain rfl := Option.some.inj found
    simp only [Manager.applyKey, Prod.mk.injEq] at here
    obtain ⟨rfl, rfl, rfl⟩ := here
    obtain ⟨lower, upper, onMin, onMax, -, same⟩ := sorted_denotes consistent.reduced onA onB
    refine ⟨lower, upper, onMin, onMax, ?_⟩
    rw [same]
    exact denotes
  · rw [if_neg here] at found
    exact consistent.applied _ _ _ _ found

/-- The item on top of the stack of `apply` has been dealt with. -/
structure Applied (operation : Operation) (before : Manager) (a b : Nat) (expanded : Bool)
    (pending : List (Nat × Nat × Bool)) (after : Manager) : Prop where
  consistent : Consistent after
  grows : Grows before after
  keeps : ∀ key ∈ before.applyCache.keys, key ∈ after.applyCache.keys
  cached : Manager.applyKey operation a b ∈ after.applyCache.keys
  goes : ∃ turns, Loop.Goes (Manager.applyTurn operation) turns
    (before, (a, b, expanded) :: pending) (after, pending)

theorem applied_of_cached (consistent : Consistent manager)
    (known : Manager.applyKey operation a b ∈ manager.applyCache.keys) (expanded : Bool)
    (pending : List (Nat × Nat × Bool)) :
    Applied operation manager a b expanded pending manager := by
  refine ⟨consistent, .refl manager, fun _ member => member, known, 1, .step ?_⟩
  simp only [Manager.applyTurn, applyKey_sorted, if_pos known]

theorem applied_of_result {result : Manager × Nat} (onA : Denotes manager.nodes a first)
    (onB : Denotes manager.nodes b second) {expanded : Bool} {pending : List (Nat × Nat × Bool)}
    (returns : Returns manager result (.apply operation first second))
    (keeps : result.1.applyCache = manager.applyCache)
    (taken : Manager.applyTurn operation (manager, (a, b, expanded) :: pending) =
      .inl ({ result.1 with
        applyCache := result.1.applyCache.set (Manager.applyKey operation a b) result.2 },
        pending)) :
    ∃ after, Applied operation manager a b expanded pending after := by
  have grows : Grows manager { result.1 with
      applyCache := result.1.applyCache.set (Manager.applyKey operation a b) result.2 } :=
    ⟨returns.grows.nodes, returns.grows.nextVariable⟩
  refine ⟨_, ?_, grows, ?_, ?_, 1, .step taken⟩
  · exact returns.consistent.cache_apply (returns.grows.denotes onA) (returns.grows.denotes onB)
      returns.denotes
  · intro key member
    rw [Dict.mem_keys_set, keeps]
    exact .inr member
  · rw [Dict.mem_keys_set]
    exact .inl rfl

theorem mk_applyCache (manager : Manager) (index low high : Nat) :
    (manager.mk index low high).1.applyCache = manager.applyCache := by
  unfold Manager.mk
  split
  · rfl
  · split <;> rfl

/-- An expanded item whose branches are in the cache. -/
theorem applied_of_branches (consistent : Consistent manager) (sorted : a ≤ b)
    (onA : Denotes manager.nodes a first) (onB : Denotes manager.nodes b second)
    {index : Nat} (top : manager.topIndex a b = some index)
    (unsettled : Manager.applyTerminal operation a b = none)
    (lows : Manager.applyKey operation (manager.cofactor a index).1 (manager.cofactor b index).1 ∈
      manager.applyCache.keys)
    (highs : Manager.applyKey operation (manager.cofactor a index).2 (manager.cofactor b index).2 ∈
      manager.applyCache.keys)
    (pending : List (Nat × Nat × Bool)) :
    ∃ after, Applied operation manager a b true pending after := by
  by_cases known : Manager.applyKey operation a b ∈ manager.applyCache.keys
  · exact ⟨manager, applied_of_cached consistent known true pending⟩
  · have reduced := consistent.reduced
    obtain ⟨orderedA, orderedB, -⟩ := topIndex_spec reduced onA onB top
    obtain ⟨lowA, highA⟩ := cofactor_denotes rfl reduced onA index
    obtain ⟨lowB, highB⟩ := cofactor_denotes rfl reduced onB index
    obtain ⟨low, cachedLow⟩ := (Dict.mem_keys _ _).mp lows
    obtain ⟨high, cachedHigh⟩ := (Dict.mem_keys _ _).mp highs
    have later : ∀ value, (DecisionTree.apply operation (first.cofactor index value)
        (second.cofactor index value)).Ordered (index + 1) := by
      intro value
      exact DecisionTree.ordered_apply _ _ _ _ (DecisionTree.ordered_cofactor orderedA value)
        (DecisionTree.ordered_cofactor orderedB value)
    have made := mk_returns consistent (consistent.cached_apply lowA lowB cachedLow)
      (consistent.cached_apply highA highB cachedHigh) (later false) (later true)
    rw [DecisionTree.apply_expand operation orderedA orderedB] at made
    apply applied_of_result onA onB made (mk_applyCache manager index low high)
    simp only [Manager.applyTurn, Nat.min_eq_left sorted, Nat.max_eq_right sorted, if_neg known,
      unsettled, top, cachedLow, cachedHigh, if_true]

/-- The item on top of the stack is dealt with. The induction is on the size of its two trees: an
item that is expanded leaves items for smaller trees on the stack, and then itself again. -/
theorem apply_item (operation : Operation) (n : Nat) :
    ∀ (manager : Manager) (a b : Nat) (first second : DecisionTree)
      (pending : List (Nat × Nat × Bool)), Consistent manager → Denotes manager.nodes a first →
      Denotes manager.nodes b second → first.size + second.size < n →
      ∃ after, Applied operation manager a b false pending after := by
  induction n with
  | zero => intro _ _ _ _ _ _ _ _ _ small; omega
  | succ n ih =>
      intro manager a b first second pending consistent onA onB small
      by_cases known : Manager.applyKey operation a b ∈ manager.applyCache.keys
      · exact ⟨manager, applied_of_cached consistent known false pending⟩
      · have reduced := consistent.reduced
        obtain ⟨lower, upper, onMin, onMax, sizes, same⟩ := sorted_denotes reduced onA onB
        cases unsettled : Manager.applyTerminal operation (min a b) (max a b) with
        | some terminal =>
            have denotes := applyTerminal_denotes reduced onMin onMax unsettled
            rw [same] at denotes
            have returns : Returns manager (manager, terminal) (.apply operation first second) :=
              ⟨consistent, .refl manager, denotes⟩
            apply applied_of_result onA onB returns rfl
            simp only [Manager.applyTurn, applyKey_sorted, if_neg known, unsettled]
        | none =>
            have sorted : min a b ≤ max a b := min_le_max
            obtain ⟨index, top⟩ :=
              topIndex_of_no_terminal reduced sorted (onMax.lt reduced) unsettled
            obtain ⟨orderedA, orderedB, shrinks⟩ := topIndex_spec reduced onMin onMax top
            obtain ⟨lowA, highA⟩ := cofactor_denotes rfl reduced onMin index
            obtain ⟨lowB, highB⟩ := cofactor_denotes rfl reduced onMax index
            have opened : Loop.Goes (Manager.applyTurn operation) 1
                (manager, (a, b, false) :: pending)
                (manager, ((manager.cofactor (min a b) index).1,
                    (manager.cofactor (max a b) index).1, false) ::
                  ((manager.cofactor (min a b) index).2,
                    (manager.cofactor (max a b) index).2, false) ::
                  (min a b, max a b, true) :: pending) := by
              apply Loop.Goes.step
              simp [Manager.applyTurn, known, unsettled, top]
            have smaller := shrinks false
            have smaller' := shrinks true
            obtain ⟨middle, left⟩ := ih manager _ _ _ _
              (((manager.cofactor (min a b) index).2, (manager.cofactor (max a b) index).2, false) ::
                (min a b, max a b, true) :: pending) consistent lowA lowB (by omega)
            obtain ⟨last, right⟩ := ih middle _ _ _ _ ((min a b, max a b, true) :: pending)
              left.consistent (left.grows.denotes highA) (left.grows.denotes highB) (by omega)
            have grows := left.grows.trans right.grows
            have insideA := onMin.lt reduced
            have insideB := onMax.lt reduced
            have lows := right.keeps _ left.cached
            have highs := right.cached
            rw [← grows.cofactor insideA, ← grows.cofactor insideB] at lows highs
            rw [← grows.topIndex insideA insideB] at top
            obtain ⟨after, done⟩ := applied_of_branches right.consistent sorted
              (grows.denotes onMin) (grows.denotes onMax) top unsettled lows highs pending
            obtain ⟨turnsLow, goesLow⟩ := left.goes
            obtain ⟨turnsHigh, goesHigh⟩ := right.goes
            obtain ⟨turns, goes⟩ := done.goes
            refine ⟨after, done.consistent, grows.trans done.grows, ?_, ?_, _,
              ((opened.trans goesLow).trans goesHigh).trans goes⟩
            · intro key member
              exact done.keeps key (right.keeps key (left.keeps key member))
            · rw [← applyKey_sorted]
              exact done.cached

theorem apply_returns (consistent : Consistent manager) (operation : Operation)
    (onA : Denotes manager.nodes a first) (onB : Denotes manager.nodes b second) :
    ∃ result enough, Returns manager result (.apply operation first second) ∧
      ∀ fuel, enough ≤ fuel → manager.apply fuel operation a b = some result := by
  cases known : manager.applyCache.get? (Manager.applyKey operation a b) with
  | some cached =>
      refine ⟨(manager, cached), 0, ⟨consistent, .refl manager, ?_⟩, ?_⟩
      · exact consistent.cached_apply onA onB known
      · intro fuel _
        simp only [Manager.apply, known]
  | none =>
      obtain ⟨lower, upper, onMin, onMax, -, -⟩ := sorted_denotes consistent.reduced onA onB
      obtain ⟨after, applied⟩ := apply_item operation _ manager _ _ lower upper [] consistent
        onMin onMax (Nat.lt_succ_self _)
      obtain ⟨turns, goes⟩ := applied.goes
      obtain ⟨reference, cached⟩ := (Dict.mem_keys _ _).mp applied.cached
      rw [applyKey_sorted] at cached
      refine ⟨(after, reference), turns + 1, ⟨applied.consistent, applied.grows, ?_⟩, ?_⟩
      · exact applied.consistent.cached_apply (applied.grows.denotes onA)
          (applied.grows.denotes onB) cached
      · intro fuel enough
        have left : Manager.applyTurn operation (after, []) = .inr (some after) := rfl
        simp only [Manager.apply, known, goes.leaves left enough, Option.bind_eq_bind,
          Option.bind_some, cached, Option.pure_def]

/-! ## Traversals -/

/-- A traversal gives a function of trees: its cache, the values of its leaves and what it makes
of a node agree with that function. -/
structure Computes (traversal : Manager.Traversal) (image : DecisionTree → DecisionTree) :
    Prop where
  cached : ∀ manager reference result, Consistent manager →
    traversal.cached manager reference = some result →
      ∃ tree, Denotes manager.nodes reference tree ∧ Denotes manager.nodes result (image tree)
  record : ∀ manager reference result tree, Consistent manager →
    Denotes manager.nodes reference tree → Denotes manager.nodes result (image tree) →
      Consistent (traversal.record manager reference result) ∧
        Grows manager (traversal.record manager reference result)
  zero : ∃ result, traversal.leaves.get? 0 = some result ∧ ∀ nodes, Denotes nodes result (image .zero)
  one : ∃ result, traversal.leaves.get? 1 = some result ∧ ∀ nodes, Denotes nodes result (image .one)
  leaves : ∀ reference ∈ traversal.leaves.keys, reference = 0 ∨ reference = 1
  combine : ∀ manager (entry : BddNode) low high lowTree highTree, Consistent manager →
    Denotes manager.nodes low (image lowTree) → Denotes manager.nodes high (image highTree) →
    (DecisionTree.node entry.index lowTree highTree).Ordered 0 →
      ∃ result enough,
        Returns manager result (image (.node entry.index lowTree highTree)) ∧
          ∀ fuel, enough ≤ fuel → traversal.combine fuel manager entry low high = some result

/-- The values of a call are those of the function it computes. -/
def Sound (image : DecisionTree → DecisionTree) (manager : Manager) (values : Dict Nat Nat) :
    Prop :=
  ∀ reference result, values.get? reference = some result →
    ∃ tree, Denotes manager.nodes reference tree ∧ Denotes manager.nodes result (image tree)

theorem Sound.grow {image : DecisionTree → DecisionTree} {before after : Manager}
    {values : Dict Nat Nat} (sound : Sound image before values) (grows : Grows before after) :
    Sound image after values := by
  intro reference result found
  obtain ⟨tree, onReference, onResult⟩ := sound reference result found
  exact ⟨tree, grows.denotes onReference, grows.denotes onResult⟩

theorem Sound.set {image : DecisionTree → DecisionTree} {values : Dict Nat Nat}
    (sound : Sound image manager values) {reference result : Nat} {tree : DecisionTree}
    (onReference : Denotes manager.nodes reference tree)
    (onResult : Denotes manager.nodes result (image tree)) :
    Sound image manager (values.set reference result) := by
  intro other value found
  rw [Dict.get?_set] at found
  by_cases here : other = reference
  · rw [if_pos here] at found
    obtain rfl := Option.some.inj found
    rw [here]
    exact ⟨tree, onReference, onResult⟩
  · rw [if_neg here] at found
    exact sound other value found

/-- The item on top of the stack of a traversal has been dealt with. -/
structure Traversed (traversal : Manager.Traversal) (image : DecisionTree → DecisionTree)
    (before : Manager) (values : Dict Nat Nat) (reference : Nat) (expanded : Bool)
    (pending : List (Nat × Bool)) (after : Manager) (values' : Dict Nat Nat) : Prop where
  consistent : Consistent after
  grows : Grows before after
  sound : Sound image after values'
  keeps : ∀ key ∈ values.keys, key ∈ values'.keys
  valued : reference ∈ values'.keys
  goes : ∃ turns enough, ∀ fuel, enough ≤ fuel →
    Loop.Goes (Manager.traverseTurn fuel traversal) turns
      ⟨before, values, (reference, expanded) :: pending⟩ ⟨after, values', pending⟩

variable {traversal : Manager.Traversal} {image : DecisionTree → DecisionTree}
  {values : Dict Nat Nat}

theorem traversed_of_known (consistent : Consistent manager) (sound : Sound image manager values)
    {reference : Nat} (known : reference ∈ values.keys) (expanded : Bool)
    (pending : List (Nat × Bool)) :
    Traversed traversal image manager values reference expanded pending manager values := by
  refine ⟨consistent, .refl manager, sound, fun _ member => member, known, 1, 0, ?_⟩
  intro fuel _
  apply Loop.Goes.step
  simp only [Manager.traverseTurn, if_pos known]

theorem traversed_of_cached (computes : Computes traversal image) (consistent : Consistent manager)
    (sound : Sound image manager values) {reference result : Nat}
    (cached : traversal.cached manager reference = some result)
    (unknown : reference ∉ values.keys) (expanded : Bool) (pending : List (Nat × Bool)) :
    Traversed traversal image manager values reference expanded pending manager
      (values.set reference result) := by
  obtain ⟨tree, onReference, onResult⟩ := computes.cached manager reference result consistent cached
  refine ⟨consistent, .refl manager, sound.set onReference onResult, ?_, ?_, 1, 0, ?_⟩
  · intro key member
    rw [Dict.mem_keys_set]
    exact .inr member
  · rw [Dict.mem_keys_set]
    exact .inl rfl
  · intro fuel _
    apply Loop.Goes.step
    simp only [Manager.traverseTurn, if_neg unknown, cached]

/-- An expanded item whose branches have their values. -/
theorem traversed_of_branches (computes : Computes traversal image)
    (consistent : Consistent manager) (sound : Sound image manager values) {reference : Nat}
    {entry : BddNode} {low high : DecisionTree}
    (found : manager.nodes[reference]? = some (some entry))
    (onLow : Denotes manager.nodes entry.low low) (onHigh : Denotes manager.nodes entry.high high)
    (lows : entry.low ∈ values.keys) (highs : entry.high ∈ values.keys)
    (pending : List (Nat × Bool)) :
    ∃ after values', Traversed traversal image manager values reference true pending after
      values' := by
  by_cases known : reference ∈ values.keys
  · exact ⟨manager, values, traversed_of_known consistent sound known true pending⟩
  · cases cached : traversal.cached manager reference with
    | some result =>
        exact ⟨_, _, traversed_of_cached computes consistent sound cached known true pending⟩
    | none =>
        have reduced := consistent.reduced
        have denotes : Denotes manager.nodes reference (.node entry.index low high) :=
          .node found onLow onHigh
        obtain ⟨lowResult, lowFound⟩ := (Dict.mem_keys _ _).mp lows
        obtain ⟨highResult, highFound⟩ := (Dict.mem_keys _ _).mp highs
        obtain ⟨lowTree, atLow, lowImage⟩ := sound _ _ lowFound
        obtain ⟨highTree, atHigh, highImage⟩ := sound _ _ highFound
        rw [atLow.functional reduced onLow] at lowImage
        rw [atHigh.functional reduced onHigh] at highImage
        obtain ⟨result, enough, returns, combined⟩ := computes.combine manager entry lowResult
          highResult low high consistent lowImage highImage (denotes.ordered_zero reduced)
        have denotes' := returns.grows.denotes denotes
        obtain ⟨kept, grown⟩ := computes.record result.1 reference result.2 _ returns.consistent
          denotes' returns.denotes
        have sound' := (sound.grow returns.grows).set denotes' returns.denotes
        refine ⟨_, _, kept, returns.grows.trans grown, sound'.grow grown, ?_, ?_, 1, enough, ?_⟩
        · intro key member
          rw [Dict.mem_keys_set]
          exact .inr member
        · rw [Dict.mem_keys_set]
          exact .inl rfl
        · intro fuel more
          apply Loop.Goes.step
          simp only [Manager.traverseTurn, if_neg known, cached, node_eq_some.mpr found, if_true,
            lowFound, highFound, Option.bind_eq_bind, Option.bind_some, combined fuel more]

/-- The item on top of the stack is dealt with; the induction is on its tree. -/
theorem traverse_item (computes : Computes traversal image) (tree : DecisionTree) :
    ∀ (manager : Manager) (values : Dict Nat Nat) (reference : Nat) (pending : List (Nat × Bool)),
      Consistent manager → Sound image manager values → 0 ∈ values.keys → 1 ∈ values.keys →
      Denotes manager.nodes reference tree →
      ∃ after values', Traversed traversal image manager values reference false pending after
        values' := by
  induction tree with
  | zero =>
      intro manager values reference pending consistent sound zero one denotes
      cases denotes
      exact ⟨manager, values, traversed_of_known consistent sound zero false pending⟩
  | one =>
      intro manager values reference pending consistent sound zero one denotes
      cases denotes
      exact ⟨manager, values, traversed_of_known consistent sound one false pending⟩
  | node index low high ihLow ihHigh =>
      intro manager values reference pending consistent sound zero one denotes
      by_cases known : reference ∈ values.keys
      · exact ⟨manager, values, traversed_of_known consistent sound known false pending⟩
      · cases cached : traversal.cached manager reference with
        | some result =>
            exact ⟨_, _, traversed_of_cached computes consistent sound cached known false pending⟩
        | none =>
            obtain ⟨entry, found, onLow, onHigh⟩ : ∃ entry,
                manager.nodes[reference]? = some (some entry) ∧
                  Denotes manager.nodes entry.low low ∧ Denotes manager.nodes entry.high high := by
              cases denotes with
              | node found onLow onHigh => exact ⟨_, found, onLow, onHigh⟩
            obtain ⟨middle, values₁, left⟩ := ihLow manager values entry.low
              ((entry.high, false) :: (reference, true) :: pending) consistent sound zero one onLow
            obtain ⟨last, values₂, right⟩ := ihHigh middle values₁ entry.high
              ((reference, true) :: pending) left.consistent left.sound (left.keeps _ zero)
              (left.keeps _ one) (left.grows.denotes onHigh)
            have grows := left.grows.trans right.grows
            have found' : last.nodes[reference]? = some (some entry) := by
              rw [← node_eq_some, grows.node (lt_of_found found), node_eq_some]
              exact found
            obtain ⟨after, values₃, done⟩ := traversed_of_branches computes right.consistent
              right.sound found' (grows.denotes onLow) (grows.denotes onHigh)
              (right.keeps _ left.valued) right.valued pending
            obtain ⟨turnsLow, enoughLow, goesLow⟩ := left.goes
            obtain ⟨turnsHigh, enoughHigh, goesHigh⟩ := right.goes
            obtain ⟨turns, enough, goes⟩ := done.goes
            refine ⟨after, values₃, done.consistent, grows.trans done.grows, done.sound, ?_,
              done.valued, turns + (turnsHigh + (turnsLow + 1)),
              max enough (max enoughHigh enoughLow), ?_⟩
            · intro key member
              exact done.keeps key (right.keeps key (left.keeps key member))
            · intro fuel more
              have opened : Loop.Goes (Manager.traverseTurn fuel traversal) 1
                  ⟨manager, values, (reference, false) :: pending⟩
                  ⟨manager, values,
                    (entry.low, false) :: (entry.high, false) :: (reference, true) :: pending⟩ := by
                apply Loop.Goes.step
                simp [Manager.traverseTurn, known, cached, node_eq_some.mpr found]
              exact ((opened.trans (goesLow fuel (by omega))).trans
                (goesHigh fuel (by omega))).trans (goes fuel (by omega))

theorem traverse_returns (computes : Computes traversal image) (consistent : Consistent manager)
    (onA : Denotes manager.nodes a first) :
    ∃ result enough, Returns manager result (image first) ∧
      ∀ fuel, enough ≤ fuel → Manager.traverse fuel traversal manager a = some result := by
  have reduced := consistent.reduced
  cases cached : traversal.cached manager a with
  | some known =>
      obtain ⟨tree, onReference, onResult⟩ := computes.cached manager a known consistent cached
      rw [onReference.functional reduced onA] at onResult
      refine ⟨(manager, known), 0, ⟨consistent, .refl manager, onResult⟩, ?_⟩
      intro fuel _
      simp only [Manager.traverse, cached]
  | none =>
      obtain ⟨onZero, zeroFound, zeroImage⟩ := computes.zero
      obtain ⟨onOne, oneFound, oneImage⟩ := computes.one
      have sound : Sound image manager traversal.leaves := by
        intro reference result found
        have member := (Dict.mem_keys traversal.leaves reference).mpr ⟨result, found⟩
        rcases computes.leaves reference member with rfl | rfl
        · obtain rfl := Option.some.inj (zeroFound.symm.trans found)
          exact ⟨.zero, .zero, zeroImage _⟩
        · obtain rfl := Option.some.inj (oneFound.symm.trans found)
          exact ⟨.one, .one, oneImage _⟩
      obtain ⟨after, values, done⟩ := traverse_item computes first manager traversal.leaves a []
        consistent sound ((Dict.mem_keys _ _).mpr ⟨_, zeroFound⟩)
        ((Dict.mem_keys _ _).mpr ⟨_, oneFound⟩) onA
      obtain ⟨turns, enough, goes⟩ := done.goes
      obtain ⟨result, found⟩ := (Dict.mem_keys _ _).mp done.valued
      obtain ⟨tree, onReference, onResult⟩ := done.sound a result found
      rw [onReference.functional done.consistent.reduced (done.grows.denotes onA)] at onResult
      refine ⟨(after, result), max enough (turns + 1), ⟨done.consistent, done.grows, onResult⟩, ?_⟩
      intro fuel more
      have left : Manager.traverseTurn fuel traversal ⟨after, values, []⟩ =
          .inr (some (after, values)) := rfl
      have ended := (goes fuel (by omega)).leaves left (by omega : turns < fuel)
      simp only [Manager.traverse, cached, ended, Option.bind_eq_bind, Option.bind_some, found,
        Option.pure_def]

theorem leaves_get? (onZero onOne reference : Nat) :
    ((Dict.empty.set 0 onZero).set 1 onOne : Dict Nat Nat).get? reference =
      if reference = 1 then some onOne else if reference = 0 then some onZero else none := by
  rw [Dict.get?_set, Dict.get?_set]
  rfl

theorem leaves_keys {onZero onOne reference : Nat}
    (member : reference ∈ ((Dict.empty.set 0 onZero).set 1 onOne : Dict Nat Nat).keys) :
    reference = 0 ∨ reference = 1 := by
  obtain ⟨result, found⟩ := (Dict.mem_keys _ _).mp member
  rw [leaves_get?] at found
  by_cases one : reference = 1
  · exact .inr one
  · by_cases zero : reference = 0
    · exact .inl zero
    · simp [one, zero] at found

theorem negation_computes : Computes Manager.negation DecisionTree.negate where
  cached _ _ _ consistent found := consistent.negated _ _ found
  record := by
    intro manager reference result tree consistent onReference onResult
    refine ⟨⟨consistent.reduced, consistent.unique, consistent.applied, ?_, consistent.quantified,
      consistent.substituted⟩, ⟨⟨[], (List.append_nil _).symm⟩, rfl⟩⟩
    exact Sound.set consistent.negated onReference onResult
  zero := ⟨1, rfl, fun _ => .one⟩
  one := ⟨0, rfl, fun _ => .zero⟩
  leaves _ member := leaves_keys member
  combine := by
    intro manager entry low high lowTree highTree consistent onLow onHigh ordered
    obtain ⟨-, -, orderedLow, orderedHigh⟩ := ordered
    refine ⟨_, 0, ?_, fun _ _ => rfl⟩
    exact mk_returns consistent onLow onHigh (DecisionTree.ordered_negate _ _ orderedLow)
      (DecisionTree.ordered_negate _ _ orderedHigh)

theorem negate_returns (consistent : Consistent manager) (onA : Denotes manager.nodes a first) :
    ∃ result enough, Returns manager result first.negate ∧
      ∀ fuel, enough ≤ fuel → manager.negate fuel a = some result :=
  traverse_returns negation_computes consistent onA

theorem quantification_computes (hidden : Finset Nat) :
    Computes (Manager.quantification hidden) (·.project (hidden.sort (· ≤ ·))) where
  cached _ _ _ consistent found := consistent.quantified _ _ _ found
  record := by
    intro manager reference result tree consistent onReference onResult
    refine ⟨⟨consistent.reduced, consistent.unique, consistent.applied, consistent.negated, ?_,
      consistent.substituted⟩, ⟨⟨[], (List.append_nil _).symm⟩, rfl⟩⟩
    intro other hidden' value found
    simp only [Manager.quantification, Dict.get?_set] at found
    by_cases here : (other, hidden') = (reference, hidden)
    · rw [if_pos here] at found
      obtain rfl := Option.some.inj found
      obtain ⟨rfl, rfl⟩ := Prod.mk.inj here
      exact ⟨tree, onReference, onResult⟩
    · rw [if_neg here] at found
      exact consistent.quantified other hidden' value found
  zero := ⟨0, rfl, fun _ => .zero⟩
  one := ⟨1, rfl, fun _ => .one⟩
  leaves _ member := leaves_keys member
  combine := by
    intro manager entry low high lowTree highTree consistent onLow onHigh ordered
    obtain ⟨-, -, orderedLow, orderedHigh⟩ := ordered
    have chosen : entry.index ∈ hidden.sort (· ≤ ·) ↔ entry.index ∈ hidden := Finset.mem_sort _
    simp only [Manager.quantification, DecisionTree.project, chosen]
    by_cases member : entry.index ∈ hidden
    · simp only [if_pos member]
      exact apply_returns consistent .or onLow onHigh
    · simp only [if_neg member]
      refine ⟨_, 0, ?_, fun _ _ => rfl⟩
      exact mk_returns consistent onLow onHigh (DecisionTree.ordered_project _ _ _ orderedLow)
        (DecisionTree.ordered_project _ _ _ orderedHigh)

theorem ite_returns (consistent : Consistent manager) {condition whenTrue whenFalse : Nat}
    {onCondition onTrue onFalse : DecisionTree}
    (conditions : Denotes manager.nodes condition onCondition)
    (trues : Denotes manager.nodes whenTrue onTrue)
    (falses : Denotes manager.nodes whenFalse onFalse) :
    ∃ result enough, Returns manager result (.ite onCondition onTrue onFalse) ∧
      ∀ fuel, enough ≤ fuel → manager.ite fuel condition whenTrue whenFalse = some result := by
  obtain ⟨positive, enough₁, first, applied₁⟩ := apply_returns consistent .and conditions trues
  obtain ⟨negated, enough₂, second, applied₂⟩ :=
    negate_returns first.consistent (first.grows.denotes conditions)
  have grows := first.grows.trans second.grows
  obtain ⟨negative, enough₃, third, applied₃⟩ :=
    apply_returns second.consistent .and second.denotes (grows.denotes falses)
  obtain ⟨result, enough₄, fourth, applied₄⟩ := apply_returns third.consistent .or
    ((second.grows.trans third.grows).denotes first.denotes) third.denotes
  refine ⟨result, max (max enough₁ enough₂) (max enough₃ enough₄),
    ⟨fourth.consistent, (grows.trans third.grows).trans fourth.grows, fourth.denotes⟩, ?_⟩
  intro fuel enough
  simp only [Manager.ite, applied₁ fuel (by omega), applied₂ fuel (by omega),
    applied₃ fuel (by omega), applied₄ fuel (by omega), Option.bind_eq_bind, Option.bind_some]

theorem renamed_congr {mapping other : Dict Nat Nat}
    (same : mapping.frozen.items = other.frozen.items) :
    Manager.renamed mapping = Manager.renamed other := by
  funext index
  rw [Manager.renamed, Manager.renamed, ← Dict.get?_frozen mapping, ← Dict.get?_frozen other,
    Dict.ext_items same]

theorem literal_returns (consistent : Consistent manager) (index : Nat) :
    Returns manager (manager.mk index 0 1) (.node index .zero .one) := by
  have made : Returns manager (manager.mk index 0 1) (.mk index .zero .one) :=
    mk_returns consistent .zero .one trivial trivial
  rw [DecisionTree.mk, if_neg (by simp)] at made
  exact made

theorem substitution_computes (mapping : Dict Nat Nat) :
    Computes (Manager.substitution mapping) (·.rename (Manager.renamed mapping)) where
  cached _ _ _ consistent found := consistent.substituted _ _ _ found
  record := by
    intro manager reference result tree consistent onReference onResult
    refine ⟨⟨consistent.reduced, consistent.unique, consistent.applied, consistent.negated,
      consistent.quantified, ?_⟩, ⟨⟨[], (List.append_nil _).symm⟩, rfl⟩⟩
    intro other mapping' value found
    simp only [Manager.substitution, Dict.get?_set] at found
    by_cases here : (other, mapping'.frozen.items) = (reference, mapping.frozen.items)
    · rw [if_pos here] at found
      obtain rfl := Option.some.inj found
      obtain ⟨rfl, same⟩ := Prod.mk.inj here
      refine ⟨tree, onReference, ?_⟩
      rw [renamed_congr same]
      exact onResult
    · rw [if_neg here] at found
      exact consistent.substituted other mapping' value found
  zero := ⟨0, rfl, fun _ => .zero⟩
  one := ⟨1, rfl, fun _ => .one⟩
  leaves _ member := leaves_keys member
  combine := by
    intro manager entry low high lowTree highTree consistent onLow onHigh _
    have literal := literal_returns consistent (Manager.renamed mapping entry.index)
    obtain ⟨result, enough, returns, chosen⟩ := ite_returns literal.consistent literal.denotes
      (literal.grows.denotes onHigh) (literal.grows.denotes onLow)
    refine ⟨result, enough, ⟨returns.consistent, literal.grows.trans returns.grows,
      returns.denotes⟩, ?_⟩
    intro fuel more
    simp only [Manager.substitution, chosen fuel more]

/-- A leaf of the table, as a tree. -/
theorem Denotes.leaf {nodes : Table} {reference : Nat} {tree : DecisionTree}
    (reduced : Reduced nodes) (denotes : Denotes nodes reference tree) (small : reference < 2) :
    tree = .zero ∨ tree = .one := by
  cases denotes with
  | zero => exact .inl rfl
  | one => exact .inr rfl
  | node found onLow onHigh =>
      have inner := reduced.inner_ge found
      omega

theorem exists_returns (consistent : Consistent manager) (onA : Denotes manager.nodes a first)
    (hidden : Finset Nat) :
    ∃ result enough, Returns manager result (first.project (hidden.sort (· ≤ ·))) ∧
      ∀ fuel, enough ≤ fuel → manager.exists_ fuel a hidden = some result := by
  have reduced := consistent.reduced
  by_cases trivially : a < 2 ∨ hidden = ∅
  · have unchanged : first.project (hidden.sort (· ≤ ·)) = first := by
      rcases trivially with small | rfl
      · rcases onA.leaf reduced small with rfl | rfl
        · rfl
        · rfl
      · apply DecisionTree.ext_of_ordered _ _ _ le_rfl
          (DecisionTree.ordered_project _ _ _ (onA.ordered_zero reduced)) (onA.ordered_zero reduced)
        intro f
        rw [Bool.eq_iff_iff, DecisionTree.eval_project _ _ 0 (onA.ordered_zero reduced)]
        constructor
        · rintro ⟨g, same, holds⟩
          have alike : g = f := funext fun v => same v (by simp)
          rw [← alike]
          exact holds
        · intro holds
          exact ⟨f, fun _ _ => rfl, holds⟩
    rw [unchanged]
    refine ⟨(manager, a), 0, ⟨consistent, .refl manager, onA⟩, ?_⟩
    intro fuel _
    rw [Manager.exists_, if_pos trivially]
  · simp only [Manager.exists_, if_neg trivially]
    exact traverse_returns (quantification_computes hidden) consistent onA

theorem rename_returns (consistent : Consistent manager) (onA : Denotes manager.nodes a first)
    (mapping : Dict Nat Nat) :
    ∃ result enough, Returns manager result (first.rename (Manager.renamed mapping)) ∧
      ∀ fuel, enough ≤ fuel → manager.rename fuel a mapping = some result := by
  have reduced := consistent.reduced
  by_cases trivially : a < 2 ∨ mapping.items = []
  · have unchanged : first.rename (Manager.renamed mapping) = first := by
      rcases trivially with small | none
      · rcases onA.leaf reduced small with rfl | rfl
        · rfl
        · rfl
      · apply DecisionTree.ext_of_ordered _ _ _ le_rfl (DecisionTree.ordered_rename _ _)
          (onA.ordered_zero reduced)
        intro f
        have same : Manager.renamed mapping = id := by
          funext index
          simp [Manager.renamed, Dict.get?, none]
        rw [DecisionTree.eval_rename, same]
        rfl
    rw [unchanged]
    refine ⟨(manager, a), 0, ⟨consistent, .refl manager, onA⟩, ?_⟩
    intro fuel _
    rw [Manager.rename, if_pos trivially]
  · simp only [Manager.rename, if_neg trivially]
    exact traverse_returns (substitution_computes mapping) consistent onA

/-! ## Sequences of operations -/

/-- An argument of an operation: a leaf, or what an earlier operation returned. -/
inductive Argument where
  | false
  | true
  | result (position : Nat)

inductive Command where
  | variable_
  | apply (operation : Operation) (a b : Argument)
  | negate (a : Argument)
  | exists_ (a : Argument) (hidden : Finset Nat)
  | rename (a : Argument) (mapping : Dict Nat Nat)
  | ite (condition whenTrue whenFalse : Argument)

/-- A manager and the references it has returned. -/
structure Session where
  manager : Manager := {}
  returned : List Nat := []

def Argument.reference (returned : List Nat) : Argument → Nat
  | .false => 0
  | .true => 1
  | .result position => returned.getD position 0

def perform (fuel : Nat) (session : Session) : Command → Option (Manager × Nat)
  | .variable_ => some session.manager.variable_
  | .apply operation a b => session.manager.apply fuel operation (a.reference session.returned)
      (b.reference session.returned)
  | .negate a => session.manager.negate fuel (a.reference session.returned)
  | .exists_ a hidden => session.manager.exists_ fuel (a.reference session.returned) hidden
  | .rename a mapping => session.manager.rename fuel (a.reference session.returned) mapping
  | .ite condition whenTrue whenFalse => session.manager.ite fuel
      (condition.reference session.returned) (whenTrue.reference session.returned)
      (whenFalse.reference session.returned)

def performAll (fuel : Nat) : Session → List Command → Option Session
  | session, [] => some session
  | session, command :: commands => do
      let (manager, reference) ← perform fuel session command
      performAll fuel ⟨manager, session.returned ++ [reference]⟩ commands

/-- A Boolean function of the variables. -/
abbrev BooleanFunction := (Nat → Bool) → Prop

/-- What a sequence of operations means: how many variables it has made, and the functions of its
results. -/
structure Meaning where
  made : Nat := 0
  functions : List BooleanFunction := []

def Argument.function (functions : List BooleanFunction) : Argument → BooleanFunction
  | .false => fun _ => False
  | .true => fun _ => True
  | .result position => functions.getD position fun _ => False

def connective : Operation → Prop → Prop → Prop
  | .and => And
  | .or => Or
  | .xor => Xor

def Command.function (meaning : Meaning) : Command → BooleanFunction
  | .variable_ => fun f => f meaning.made = true
  | .apply operation a b => fun f =>
      connective operation (a.function meaning.functions f) (b.function meaning.functions f)
  | .negate a => fun f => ¬ a.function meaning.functions f
  | .exists_ a hidden => fun f =>
      ∃ g, (∀ v, v ∉ hidden → g v = f v) ∧ a.function meaning.functions g
  | .rename a mapping => fun f =>
      a.function meaning.functions fun v => f (Manager.renamed mapping v)
  | .ite condition whenTrue whenFalse => fun f =>
      (condition.function meaning.functions f ∧ whenTrue.function meaning.functions f) ∨
        (¬ condition.function meaning.functions f ∧ whenFalse.function meaning.functions f)

def Meaning.extend (meaning : Meaning) (command : Command) : Meaning where
  made := match command with
    | .variable_ => meaning.made + 1
    | _ => meaning.made
  functions := meaning.functions ++ [command.function meaning]

/-- The reference stands for a tree that computes the function. -/
def Expresses (manager : Manager) (reference : Nat) (function : BooleanFunction) : Prop :=
  ∃ tree, Denotes manager.nodes reference tree ∧ ∀ f, tree.eval f = true ↔ function f

structure Session.Sound (session : Session) (meaning : Meaning) : Prop where
  consistent : Consistent session.manager
  nextVariable : session.manager.nextVariable = meaning.made
  expresses : List.Forall₂ (Expresses session.manager) session.returned meaning.functions

theorem Expresses.grow {before after : Manager} {reference : Nat} {function : BooleanFunction}
    (expresses : Expresses before reference function)
    (grows : ∃ more, after.nodes = before.nodes ++ more) : Expresses after reference function := by
  obtain ⟨tree, denotes, same⟩ := expresses
  obtain ⟨more, nodes⟩ := grows
  refine ⟨tree, ?_, same⟩
  rw [nodes]
  exact denotes.grow

theorem forall₂_getD {relation : Nat → BooleanFunction → Prop} {references : List Nat}
    {functions : List BooleanFunction} (all : List.Forall₂ relation references functions)
    {reference : Nat} {function : BooleanFunction} (default : relation reference function)
    (position : Nat) :
    relation (references.getD position reference) (functions.getD position function) := by
  induction all generalizing position with
  | nil => exact default
  | cons head tail ih =>
      cases position with
      | zero => exact head
      | succ position => exact ih position

theorem Session.Sound.argument {session : Session} {meaning : Meaning}
    (sound : session.Sound meaning) (argument : Argument) :
    Expresses session.manager (argument.reference session.returned)
      (argument.function meaning.functions) := by
  have never : Expresses session.manager 0 fun _ => False :=
    ⟨.zero, .zero, fun f => by simp [DecisionTree.eval]⟩
  cases argument with
  | false => exact never
  | true => exact ⟨.one, .one, fun f => iff_of_true rfl trivial⟩
  | result position => exact forall₂_getD sound.expresses never position

theorem table_iff_connective (operation : Operation) (a b : Bool) :
    operation.table a b = true ↔ connective operation (a = true) (b = true) := by
  cases operation <;> cases a <;> cases b <;> simp [Operation.table, connective]

/-- One operation returns, for the function it means. -/
theorem perform_returns {session : Session} {meaning : Meaning} (sound : session.Sound meaning)
    (command : Command) :
    ∃ result enough, Consistent result.1 ∧
      (∃ more, result.1.nodes = session.manager.nodes ++ more) ∧
      result.1.nextVariable = (meaning.extend command).made ∧
      Expresses result.1 result.2 (command.function meaning) ∧
      ∀ fuel, enough ≤ fuel → perform fuel session command = some result := by
  have consistent := sound.consistent
  have reduced := consistent.reduced
  -- the operations other than a new variable, from what they return for the trees of their arguments
  have settle : ∀ {tree : DecisionTree} {function : BooleanFunction}
      {call : Nat → Option (Manager × Nat)},
      (∃ result enough, Returns session.manager result tree ∧
        ∀ fuel, enough ≤ fuel → call fuel = some result) →
      (∀ f, tree.eval f = true ↔ function f) →
      ∃ result enough, Consistent result.1 ∧
        (∃ more, result.1.nodes = session.manager.nodes ++ more) ∧
        result.1.nextVariable = meaning.made ∧
        Expresses result.1 result.2 function ∧
        ∀ fuel, enough ≤ fuel → call fuel = some result := by
    intro tree function call returned same
    obtain ⟨result, enough, returns, called⟩ := returned
    exact ⟨result, enough, returns.consistent, returns.grows.nodes,
      returns.grows.nextVariable.trans sound.nextVariable, ⟨tree, returns.denotes, same⟩, called⟩
  cases command with
  | variable_ =>
      have later : Consistent { session.manager with
          nextVariable := session.manager.nextVariable + 1 } :=
        ⟨reduced, consistent.unique, consistent.applied, consistent.negated,
          consistent.quantified, consistent.substituted⟩
      have literal := literal_returns later session.manager.nextVariable
      refine ⟨session.manager.variable_, 0, literal.consistent, literal.grows.nodes, ?_, ?_,
        fun _ _ => rfl⟩
      · rw [Meaning.extend, ← sound.nextVariable]
        exact literal.grows.nextVariable
      · refine ⟨_, literal.denotes, fun f => ?_⟩
        rw [sound.nextVariable]
        simp [DecisionTree.eval, Command.function]
  | apply operation a b =>
      obtain ⟨first, onA, sameA⟩ := sound.argument a
      obtain ⟨second, onB, sameB⟩ := sound.argument b
      apply settle (apply_returns consistent operation onA onB)
      intro f
      rw [DecisionTree.eval_apply, table_iff_connective]
      simp only [sameA f, sameB f, Command.function]
  | negate a =>
      obtain ⟨tree, onA, same⟩ := sound.argument a
      apply settle (negate_returns consistent onA)
      intro f
      rw [DecisionTree.eval_negate, Bool.not_eq_true', ← Bool.not_eq_true, same f]
      rfl
  | exists_ a hidden =>
      obtain ⟨tree, onA, same⟩ := sound.argument a
      apply settle (exists_returns consistent onA hidden)
      intro f
      rw [DecisionTree.eval_project _ _ 0 (onA.ordered_zero reduced)]
      simp only [Finset.mem_sort, same, Command.function]
  | rename a mapping =>
      obtain ⟨tree, onA, same⟩ := sound.argument a
      apply settle (rename_returns consistent onA mapping)
      intro f
      rw [DecisionTree.eval_rename, same]
      rfl
  | ite condition whenTrue whenFalse =>
      obtain ⟨onCondition, conditions, sameC⟩ := sound.argument condition
      obtain ⟨onTrue, trues, sameT⟩ := sound.argument whenTrue
      obtain ⟨onFalse, falses, sameF⟩ := sound.argument whenFalse
      apply settle (ite_returns consistent conditions trues falses)
      intro f
      simp only [DecisionTree.eval_ite, Command.function, ← sameC f, ← sameT f, ← sameF f]
      by_cases holds : onCondition.eval f = true
      · simp [holds]
      · simp [holds]

theorem performAll_returns {session : Session} {meaning : Meaning} (sound : session.Sound meaning)
    (commands : List Command) :
    ∃ later enough, later.Sound (commands.foldl Meaning.extend meaning) ∧
      (∃ more, later.manager.nodes = session.manager.nodes ++ more) ∧
      session.returned <+: later.returned ∧
      ∀ fuel, enough ≤ fuel → performAll fuel session commands = some later := by
  induction commands generalizing session meaning with
  | nil => exact ⟨session, 0, sound, ⟨[], (List.append_nil _).symm⟩, List.prefix_rfl, fun _ _ => rfl⟩
  | cons command commands ih =>
      obtain ⟨result, enough, consistent, grows, made, expresses, performed⟩ :=
        perform_returns sound command
      have next : Session.Sound ⟨result.1, session.returned ++ [result.2]⟩
          (meaning.extend command) := by
        refine ⟨consistent, made, ?_⟩
        apply List.rel_append
        · exact sound.expresses.imp fun _ _ earlier => earlier.grow grows
        · exact .cons expresses .nil
      obtain ⟨later, enough', sound', ⟨more', nodes'⟩, extends', performed'⟩ := ih next
      obtain ⟨more, nodes⟩ := grows
      refine ⟨later, max enough enough', sound', ⟨more ++ more', ?_⟩, ?_, ?_⟩
      · rw [nodes', nodes, List.append_assoc]
      · exact (List.prefix_append _ _).trans extends'
      · intro fuel large
        simp only [performAll, performed fuel (by omega), Option.bind_eq_bind, Option.bind_some]
        exact performed' fuel (by omega)

theorem performAll_append (fuel : Nat) (session : Session) (commands more : List Command) :
    performAll fuel session (commands ++ more) =
      (performAll fuel session commands).bind fun later => performAll fuel later more := by
  induction commands generalizing session with
  | nil => rfl
  | cons command commands ih =>
      simp only [List.cons_append, performAll, Option.bind_eq_bind]
      cases perform fuel session command with
      | none => rfl
      | some result => exact ih _

theorem value_grow {before after : Manager} (reduced : Reduced before.nodes)
    (reduced' : Reduced after.nodes) (grows : ∃ more, after.nodes = before.nodes ++ more)
    {reference : Nat} (inside : reference < before.nodes.length) :
    after.value reference = before.value reference := by
  obtain ⟨tree, denotes⟩ := reduced.denotes reference inside
  obtain ⟨more, nodes⟩ := grows
  have kept : Denotes after.nodes reference tree := by
    rw [nodes]
    exact denotes.grow
  rw [value_eq_eval reduced denotes, value_eq_eval reduced' kept]

/-- The manager is correct and canonical: any sequence of operations returns, given enough turns
for its loops, and leaves a reduced and ordered table. Every returned reference denotes the
function its operation means, references are equal exactly when they denote the same function,
and whatever operations follow, they return too and every reference keeps what it denotes. -/
theorem bdd_manager_canonical (commands : List Command) :
    ∃ session enough,
      (∀ fuel, enough ≤ fuel → performAll fuel {} commands = some session) ∧
      Reduced session.manager.nodes ∧
      List.Forall₂ (fun reference function =>
          reference < session.manager.nodes.length ∧
            ∀ f, session.manager.value reference f = true ↔ function f)
        session.returned (commands.foldl Meaning.extend {}).functions ∧
      (∀ reference other, reference < session.manager.nodes.length →
        other < session.manager.nodes.length →
          (reference = other ↔
            ∀ f, session.manager.value reference f = session.manager.value other f)) ∧
      ∀ more, ∃ later enough',
        (∀ fuel, enough' ≤ fuel → performAll fuel {} (commands ++ more) = some later) ∧
        session.returned <+: later.returned ∧
        ∀ reference, reference < session.manager.nodes.length →
          later.manager.value reference = session.manager.value reference := by
  have fresh : Session.Sound {} {} := ⟨consistent_fresh, rfl, .nil⟩
  obtain ⟨session, enough, sound, -, -, performed⟩ := performAll_returns fresh commands
  have reduced := sound.consistent.reduced
  refine ⟨session, enough, performed, reduced, ?_, ?_, ?_⟩
  · apply sound.expresses.imp
    rintro reference function ⟨tree, denotes, same⟩
    refine ⟨denotes.lt reduced, fun f => ?_⟩
    rw [value_eq_eval reduced denotes]
    exact same f
  · intro reference other inside inside'
    rw [reference_eq_iff reduced inside inside', funext_iff]
  · intro more
    obtain ⟨later, enough', sound', grows, extends_, performed'⟩ := performAll_returns sound more
    refine ⟨later, max enough enough', ?_, extends_, ?_⟩
    · intro fuel large
      have first := performed fuel (by omega)
      have second := performed' fuel (by omega)
      rw [performAll_append, first]
      exact second
    · intro reference inside
      exact value_grow reduced sound'.consistent.reduced grows inside

end MoteKernel.BddManager
