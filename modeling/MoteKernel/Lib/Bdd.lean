import Mathlib.Logic.Function.Basic
import Mathlib.Data.Nat.Basic
import Mathlib.Tactic.Conv
import Mathlib.Tactic.SplitIfs

/-!
# Reduced ordered binary decision diagrams

A manager that shares equal nodes gives two diagrams the same reference exactly
when they are the same tree, so a diagram is its tree here. A tree that tests its
variables in increasing order and never tests one in vain is determined by the
function it computes; `Bdd.ext_eval` states this, and every operation is specified
by the function its result computes.
-/

/-- A decision tree over numbered variables. -/
inductive DecisionTree where
  | zero
  | one
  | node (index : Nat) (low high : DecisionTree)
  deriving DecidableEq, Repr

namespace DecisionTree

/-- The value under an assignment of the variables. -/
def eval (f : Nat → Bool) : DecisionTree → Bool
  | zero => false
  | one => true
  | node v low high => if f v then high.eval f else low.eval f

/-- Variables increase from `bound` on, and no test is redundant. -/
def Ordered : Nat → DecisionTree → Prop
  | _, zero => True
  | _, one => True
  | bound, node v low high =>
      bound ≤ v ∧ low ≠ high ∧ low.Ordered (v + 1) ∧ high.Ordered (v + 1)

def size : DecisionTree → Nat
  | zero => 0
  | one => 0
  | node _ low high => low.size + high.size + 1

theorem Ordered.mono {a b : Nat} (le : a ≤ b) {t : DecisionTree} (ordered : t.Ordered b) :
    t.Ordered a := by
  cases t with
  | zero => trivial
  | one => trivial
  | node v low high => exact And.intro (Nat.le_trans le ordered.1) ordered.2

/-- A tree does not read variables below its bound. -/
theorem eval_congr {bound : Nat} {t : DecisionTree} (ordered : t.Ordered bound)
    {f g : Nat → Bool} (same : ∀ v, bound ≤ v → f v = g v) : t.eval f = t.eval g := by
  induction t generalizing bound with
  | zero => rfl
  | one => rfl
  | node v low high ihLow ihHigh =>
      obtain ⟨le, -, orderedLow, orderedHigh⟩ := ordered
      have above : ∀ w, v + 1 ≤ w → f w = g w := fun w h => same w (by omega)
      rw [eval, eval, same v le, ihLow orderedLow above, ihHigh orderedHigh above]

theorem eval_update {v : Nat} {t : DecisionTree} (ordered : t.Ordered (v + 1)) (f : Nat → Bool)
    (b : Bool) : t.eval (Function.update f v b) = t.eval f := by
  apply eval_congr ordered
  intro w above
  exact Function.update_of_ne (by omega) _ _

/-- If a node computes a function that does not read its variable, both branches compute it. -/
theorem branches_of_independent {v : Nat} {low high t : DecisionTree}
    (orderedLow : low.Ordered (v + 1)) (orderedHigh : high.Ordered (v + 1))
    (ordered : t.Ordered (v + 1)) (same : ∀ f, (node v low high).eval f = t.eval f) :
    ∀ f, low.eval f = high.eval f := by
  intro f
  have atFalse := same (Function.update f v false)
  have atTrue := same (Function.update f v true)
  rw [eval, Function.update_self, eval_update orderedLow, eval_update orderedHigh,
    eval_update ordered] at atFalse atTrue
  rw [if_neg Bool.false_ne_true] at atFalse
  rw [if_pos rfl] at atTrue
  rw [atFalse, atTrue]

/-- Two ordered trees that compute the same function are equal. The induction is on the sizes of
both, since the smaller variable may be at either root. -/
theorem ext_of_ordered (n : Nat) : ∀ (a b : DecisionTree), a.size + b.size ≤ n → a.Ordered 0 →
    b.Ordered 0 → (∀ f, a.eval f = b.eval f) → a = b := by
  induction n with
  | zero =>
      intro a b small _ _ same
      have here := same (fun _ => false)
      cases a <;> cases b <;> simp_all [size, eval]
  | succ n ih =>
      have contradicts : ∀ (v : Nat) (low high t : DecisionTree),
          (node v low high).size ≤ n + 1 → (node v low high).Ordered 0 → t.Ordered (v + 1) →
          (∀ f, (node v low high).eval f = t.eval f) → False := by
        intro v low high t small ordered orderedT same
        obtain ⟨-, different, orderedLow, orderedHigh⟩ := ordered
        apply different
        apply ih low high (by simp only [size] at small; omega) (orderedLow.mono (Nat.zero_le _))
          (orderedHigh.mono (Nat.zero_le _))
        exact branches_of_independent orderedLow orderedHigh orderedT same
      intro a b small orderedA orderedB same
      cases a with
      | zero =>
          cases b with
          | zero => rfl
          | one => exact absurd (same (fun _ => false)) (by simp [eval])
          | node v low high =>
              exact (contradicts v low high zero (by simpa [size] using small) orderedB trivial
                (fun f => (same f).symm)).elim
      | one =>
          cases b with
          | zero => exact absurd (same (fun _ => false)) (by simp [eval])
          | one => rfl
          | node v low high =>
              exact (contradicts v low high one (by simpa [size] using small) orderedB trivial
                (fun f => (same f).symm)).elim
      | node v low high =>
          cases b with
          | zero =>
              exact (contradicts v low high zero (by simpa [size] using small) orderedA trivial
                same).elim
          | one =>
              exact (contradicts v low high one (by simpa [size] using small) orderedA trivial
                same).elim
          | node w low' high' =>
              have smallA : (node v low high).size ≤ n + 1 := by simp only [size] at *; omega
              have smallB : (node w low' high').size ≤ n + 1 := by simp only [size] at *; omega
              rcases Nat.lt_trichotomy v w with less | rfl | more
              · have later : (node w low' high').Ordered (v + 1) := And.intro less orderedB.2
                exact (contradicts v low high _ smallA orderedA later same).elim
              · obtain ⟨-, -, orderedLow, orderedHigh⟩ := orderedA
                obtain ⟨-, -, orderedLow', orderedHigh'⟩ := orderedB
                have branch : ∀ (f : Nat → Bool) (b : Bool), (if b then high.eval f else low.eval f) =
                    if b then high'.eval f else low'.eval f := by
                  intro f b
                  have here := same (Function.update f v b)
                  rw [eval, eval, Function.update_self, eval_update orderedLow,
                    eval_update orderedHigh, eval_update orderedLow', eval_update orderedHigh'] at here
                  exact here
                have lows : low = low' := by
                  apply ih low low' (by simp only [size] at small; omega)
                    (orderedLow.mono (Nat.zero_le _)) (orderedLow'.mono (Nat.zero_le _))
                  exact fun f => branch f false
                have highs : high = high' := by
                  apply ih high high' (by simp only [size] at small; omega)
                    (orderedHigh.mono (Nat.zero_le _)) (orderedHigh'.mono (Nat.zero_le _))
                  exact fun f => branch f true
                rw [lows, highs]
              · have later : (node v low high).Ordered (w + 1) := And.intro more orderedA.2
                exact (contradicts w low' high' _ smallB orderedB later
                  (fun f => (same f).symm)).elim

/-! ## Operations on trees -/

/-- The node of a test, or the common branch when the test is redundant. -/
def mk (v : Nat) (low high : DecisionTree) : DecisionTree :=
  if low = high then low else node v low high

theorem eval_mk (v : Nat) (low high : DecisionTree) (f : Nat → Bool) :
    (mk v low high).eval f = if f v then high.eval f else low.eval f := by
  unfold mk
  by_cases same : low = high
  · rw [if_pos same, same, ite_self]
  · rw [if_neg same, eval]

theorem ordered_mk {bound v : Nat} {low high : DecisionTree} (le : bound ≤ v)
    (orderedLow : low.Ordered (v + 1)) (orderedHigh : high.Ordered (v + 1)) :
    (mk v low high).Ordered bound := by
  unfold mk
  by_cases same : low = high
  · rw [if_pos same]
    exact orderedLow.mono (by omega)
  · rw [if_neg same]
    exact ⟨le, same, orderedLow, orderedHigh⟩

inductive Operation where
  | and
  | or
  | xor
  deriving DecidableEq, Repr

/-- The truth function of an operation. -/
def Operation.table : Operation → Bool → Bool → Bool
  | and => Bool.and
  | or => Bool.or
  | xor => Bool.xor

/-- The results that need no expansion. -/
def applyTerminal (operation : Operation) (a b : DecisionTree) : Option DecisionTree :=
  match operation with
  | .and => if a = zero ∨ b = zero then some zero else if a = one then some b
      else if b = one ∨ a = b then some a else none
  | .or => if a = one ∨ b = one then some one else if a = zero then some b
      else if b = zero ∨ a = b then some a else none
  | .xor => if a = zero then some b else if b = zero then some a
      else if a = b then some zero else none

theorem eval_applyTerminal {operation : Operation} {a b t : DecisionTree}
    (found : applyTerminal operation a b = some t) (f : Nat → Bool) :
    t.eval f = operation.table (a.eval f) (b.eval f) := by
  unfold applyTerminal at found
  cases operation <;> simp only at found <;> split_ifs at found <;>
    simp_all only [Option.some.injEq, reduceCtorEq] <;> subst found <;>
    (try rcases ‹_ ∨ _› with rfl | rfl) <;> (try subst_vars) <;>
    simp [eval, Operation.table]

/-- The operation on a leaf and a tree. -/
def applyLeaf (operation : Operation) (leaf : DecisionTree) : DecisionTree → DecisionTree
  | zero => (applyTerminal operation leaf zero).getD zero
  | one => (applyTerminal operation leaf one).getD zero
  | node w low high => (applyTerminal operation leaf (node w low high)).getD
      (mk w (applyLeaf operation leaf low) (applyLeaf operation leaf high))

/-- The operation on a node and a tree: both are expanded at the smaller variable. `onLow` and
`onHigh` are the operation on the branches of the node. -/
def applyNode (operation : Operation) (v : Nat) (low high : DecisionTree)
    (onLow onHigh : DecisionTree → DecisionTree) : DecisionTree → DecisionTree
  | zero => (applyTerminal operation (node v low high) zero).getD (mk v (onLow zero) (onHigh zero))
  | one => (applyTerminal operation (node v low high) one).getD (mk v (onLow one) (onHigh one))
  | node w low' high' =>
      (applyTerminal operation (node v low high) (node w low' high')).getD
        (if v < w then mk v (onLow (node w low' high')) (onHigh (node w low' high'))
        else if w < v then mk w (applyNode operation v low high onLow onHigh low')
          (applyNode operation v low high onLow onHigh high')
        else mk v (onLow low') (onHigh high'))

/-- The operation on two trees. -/
def apply (operation : Operation) : DecisionTree → DecisionTree → DecisionTree
  | zero => applyLeaf operation zero
  | one => applyLeaf operation one
  | node v low high => applyNode operation v low high (apply operation low) (apply operation high)

/-- What an operation computes, wherever it stops. -/
theorem getD_terminal {operation : Operation} {a b t : DecisionTree} {f : Nat → Bool}
    (expanded : applyTerminal operation a b = none →
      t.eval f = operation.table (a.eval f) (b.eval f)) :
    ((applyTerminal operation a b).getD t).eval f = operation.table (a.eval f) (b.eval f) := by
  cases found : applyTerminal operation a b with
  | none => exact expanded found
  | some result => exact eval_applyTerminal found f

theorem applyTerminal_leaves {operation : Operation} {a b : DecisionTree}
    (leafA : a = zero ∨ a = one) (leafB : b = zero ∨ b = one) :
    applyTerminal operation a b ≠ none := by
  cases operation <;> rcases leafA with rfl | rfl <;> rcases leafB with rfl | rfl <;>
    simp [applyTerminal]

theorem eval_applyLeaf (operation : Operation) {leaf : DecisionTree}
    (isLeaf : leaf = zero ∨ leaf = one) (b : DecisionTree) (f : Nat → Bool) :
    (applyLeaf operation leaf b).eval f = operation.table (leaf.eval f) (b.eval f) := by
  induction b with
  | zero =>
      apply getD_terminal
      intro none
      exact absurd none (applyTerminal_leaves isLeaf (.inl rfl))
  | one =>
      apply getD_terminal
      intro none
      exact absurd none (applyTerminal_leaves isLeaf (.inr rfl))
  | node w low high ihLow ihHigh =>
      apply getD_terminal
      intro _
      rw [eval_mk, ihLow, ihHigh, eval]
      split <;> rfl

theorem eval_applyNode (operation : Operation) (v : Nat) (low high : DecisionTree)
    {onLow onHigh : DecisionTree → DecisionTree} (f : Nat → Bool)
    (evalLow : ∀ b, (onLow b).eval f = operation.table (low.eval f) (b.eval f))
    (evalHigh : ∀ b, (onHigh b).eval f = operation.table (high.eval f) (b.eval f))
    (b : DecisionTree) :
    (applyNode operation v low high onLow onHigh b).eval f =
      operation.table ((node v low high).eval f) (b.eval f) := by
  have whole : ∀ b, (mk v (onLow b) (onHigh b)).eval f =
      operation.table ((node v low high).eval f) (b.eval f) := by
    intro b
    rw [eval_mk, evalLow, evalHigh, eval]
    split <;> rfl
  induction b with
  | zero => exact getD_terminal (fun _ => whole zero)
  | one => exact getD_terminal (fun _ => whole one)
  | node w low' high' ihLow ihHigh =>
      apply getD_terminal
      intro _
      by_cases less : v < w
      · rw [if_pos less]
        exact whole _
      · rw [if_neg less]
        by_cases more : w < v
        · rw [if_pos more, eval_mk, ihLow, ihHigh]
          conv_rhs => rw [eval, eval]
          by_cases here : f w = true
          · simp only [here, if_true, eval]
          · simp only [here, eval]
            rfl
        · have same : v = w := by omega
          subst same
          rw [if_neg more, eval_mk, evalLow, evalHigh, eval, eval]
          split <;> rfl

theorem eval_apply (operation : Operation) (a b : DecisionTree) (f : Nat → Bool) :
    (apply operation a b).eval f = operation.table (a.eval f) (b.eval f) := by
  induction a generalizing b with
  | zero => exact eval_applyLeaf operation (.inl rfl) b f
  | one => exact eval_applyLeaf operation (.inr rfl) b f
  | node v low high ihLow ihHigh => exact eval_applyNode operation v low high f ihLow ihHigh b

theorem ordered_applyTerminal {operation : Operation} {bound : Nat} {a b t : DecisionTree}
    (orderedA : a.Ordered bound) (orderedB : b.Ordered bound)
    (found : applyTerminal operation a b = some t) : t.Ordered bound := by
  have cases : t = a ∨ t = b ∨ t = zero ∨ t = one := by
    unfold applyTerminal at found
    cases operation <;> simp only at found <;> split_ifs at found <;> simp_all
  rcases cases with rfl | rfl | rfl | rfl
  · exact orderedA
  · exact orderedB
  · trivial
  · trivial

theorem ordered_getD {operation : Operation} {bound : Nat} {a b t : DecisionTree}
    (orderedA : a.Ordered bound) (orderedB : b.Ordered bound) (ordered : t.Ordered bound) :
    ((applyTerminal operation a b).getD t).Ordered bound := by
  cases found : applyTerminal operation a b with
  | none => exact ordered
  | some result => exact ordered_applyTerminal orderedA orderedB found

theorem ordered_applyLeaf (operation : Operation) {leaf : DecisionTree}
    (isLeaf : ∀ bound, leaf.Ordered bound) (b : DecisionTree) (bound : Nat)
    (ordered : b.Ordered bound) : (applyLeaf operation leaf b).Ordered bound := by
  induction b generalizing bound with
  | zero => exact ordered_getD (isLeaf _) ordered trivial
  | one => exact ordered_getD (isLeaf _) ordered trivial
  | node w low high ihLow ihHigh =>
      obtain ⟨le, -, orderedLow, orderedHigh⟩ := id ordered
      apply ordered_getD (isLeaf _) ordered
      exact ordered_mk le (ihLow _ orderedLow) (ihHigh _ orderedHigh)

theorem ordered_applyNode (operation : Operation) (v : Nat) (low high : DecisionTree)
    {onLow onHigh : DecisionTree → DecisionTree}
    (lows : ∀ b, b.Ordered (v + 1) → (onLow b).Ordered (v + 1))
    (highs : ∀ b, b.Ordered (v + 1) → (onHigh b).Ordered (v + 1)) (b : DecisionTree) (bound : Nat)
    (orderedA : (node v low high).Ordered bound) (orderedB : b.Ordered bound) :
    (applyNode operation v low high onLow onHigh b).Ordered bound := by
  induction b generalizing bound with
  | zero =>
      exact ordered_getD orderedA orderedB (ordered_mk orderedA.1 (lows _ trivial) (highs _ trivial))
  | one =>
      exact ordered_getD orderedA orderedB (ordered_mk orderedA.1 (lows _ trivial) (highs _ trivial))
  | node w low' high' ihLow ihHigh =>
      obtain ⟨le, different, orderedLow, orderedHigh⟩ := id orderedB
      apply ordered_getD orderedA orderedB
      by_cases less : v < w
      · have later : (node w low' high').Ordered (v + 1) := And.intro less orderedB.2
        rw [if_pos less]
        exact ordered_mk orderedA.1 (lows _ later) (highs _ later)
      · rw [if_neg less]
        by_cases more : w < v
        · have later : (node v low high).Ordered (w + 1) := And.intro more orderedA.2
          rw [if_pos more]
          exact ordered_mk le (ihLow _ later orderedLow) (ihHigh _ later orderedHigh)
        · have same : v = w := by omega
          subst same
          rw [if_neg more]
          exact ordered_mk orderedA.1 (lows _ orderedLow) (highs _ orderedHigh)

theorem ordered_apply (operation : Operation) (a b : DecisionTree) (bound : Nat)
    (orderedA : a.Ordered bound) (orderedB : b.Ordered bound) :
    (apply operation a b).Ordered bound := by
  induction a generalizing b bound with
  | zero =>
      have leaf : ∀ bound, zero.Ordered bound := fun _ => trivial
      exact ordered_applyLeaf operation leaf b bound orderedB
  | one =>
      have leaf : ∀ bound, one.Ordered bound := fun _ => trivial
      exact ordered_applyLeaf operation leaf b bound orderedB
  | node v low high ihLow ihHigh =>
      obtain ⟨-, -, orderedLow, orderedHigh⟩ := id orderedA
      exact ordered_applyNode operation v low high (fun b ordered => ihLow b _ orderedLow ordered)
        (fun b ordered => ihHigh b _ orderedHigh ordered) b bound orderedA orderedB

theorem Operation.table_comm (operation : Operation) (a b : Bool) :
    operation.table a b = operation.table b a := by
  cases operation <;> cases a <;> cases b <;> rfl

theorem apply_comm (operation : Operation) {a b : DecisionTree} (orderedA : a.Ordered 0)
    (orderedB : b.Ordered 0) : apply operation a b = apply operation b a := by
  apply ext_of_ordered _ _ _ le_rfl
  · exact ordered_apply operation a b 0 orderedA orderedB
  · exact ordered_apply operation b a 0 orderedB orderedA
  · intro f
    rw [eval_apply, eval_apply, operation.table_comm]

/-- The tree once a variable is known: a branch of a tree that tests it first, and otherwise the
tree itself. -/
def cofactor (v : Nat) (b : Bool) : DecisionTree → DecisionTree
  | zero => zero
  | one => one
  | node w low high => if w = v then (if b then high else low) else node w low high

theorem eval_cofactor (v : Nat) (t : DecisionTree) (f : Nat → Bool) :
    (t.cofactor v (f v)).eval f = t.eval f := by
  cases t with
  | zero => rfl
  | one => rfl
  | node w low high =>
      rw [cofactor]
      by_cases here : w = v
      · subst here
        rw [if_pos rfl, eval]
        split <;> rfl
      · rw [if_neg here]

theorem ordered_cofactor {v : Nat} {t : DecisionTree} (ordered : t.Ordered v) (b : Bool) :
    (t.cofactor v b).Ordered (v + 1) := by
  cases t with
  | zero => trivial
  | one => trivial
  | node w low high =>
      obtain ⟨le, different, orderedLow, orderedHigh⟩ := ordered
      rw [cofactor]
      by_cases here : w = v
      · subst here
        rw [if_pos rfl]
        cases b
        · exact orderedLow
        · exact orderedHigh
      · rw [if_neg here]
        exact ⟨by omega, different, orderedLow, orderedHigh⟩

theorem size_cofactor_le (v : Nat) (b : Bool) (t : DecisionTree) :
    (t.cofactor v b).size ≤ t.size := by
  cases t with
  | zero => exact le_rfl
  | one => exact le_rfl
  | node w low high =>
      rw [cofactor]
      by_cases here : w = v
      · rw [if_pos here, size]
        split <;> omega
      · rw [if_neg here]

theorem size_cofactor_lt (v : Nat) (b : Bool) (low high : DecisionTree) :
    ((node v low high).cofactor v b).size < (node v low high).size := by
  rw [cofactor, if_pos rfl, size]
  split <;> omega

/-- An operation on two trees is the test of a variable that neither tests later, over the
operation on what they become. -/
theorem apply_expand (operation : Operation) {v : Nat} {a b : DecisionTree}
    (orderedA : a.Ordered v) (orderedB : b.Ordered v) :
    mk v (apply operation (a.cofactor v .false) (b.cofactor v .false))
        (apply operation (a.cofactor v .true) (b.cofactor v .true)) =
      apply operation a b := by
  apply ext_of_ordered _ _ _ le_rfl
  · apply ordered_mk (Nat.zero_le v)
    · exact ordered_apply _ _ _ _ (ordered_cofactor orderedA _) (ordered_cofactor orderedB _)
    · exact ordered_apply _ _ _ _ (ordered_cofactor orderedA _) (ordered_cofactor orderedB _)
  · exact ordered_apply _ _ _ _ (orderedA.mono (Nat.zero_le v)) (orderedB.mono (Nat.zero_le v))
  · intro f
    have known := fun t : DecisionTree => eval_cofactor v t f
    rw [eval_mk, eval_apply, eval_apply, eval_apply, ← known a, ← known b]
    cases f v <;> simp

def negate : DecisionTree → DecisionTree
  | zero => one
  | one => zero
  | node v low high => mk v low.negate high.negate

theorem eval_negate (t : DecisionTree) (f : Nat → Bool) : t.negate.eval f = !t.eval f := by
  induction t with
  | zero => rfl
  | one => rfl
  | node v low high ihLow ihHigh =>
      rw [negate, eval_mk, ihLow, ihHigh, eval]
      split <;> rfl

theorem ordered_negate (t : DecisionTree) (bound : Nat) (ordered : t.Ordered bound) :
    t.negate.Ordered bound := by
  induction t generalizing bound with
  | zero => trivial
  | one => trivial
  | node v low high ihLow ihHigh =>
      obtain ⟨le, -, orderedLow, orderedHigh⟩ := ordered
      exact ordered_mk le (ihLow _ orderedLow) (ihHigh _ orderedHigh)

/-- The tree with the listed variables quantified away. -/
def project (hidden : List Nat) : DecisionTree → DecisionTree
  | zero => zero
  | one => one
  | node v low high =>
      if v ∈ hidden then apply .or (low.project hidden) (high.project hidden)
      else mk v (low.project hidden) (high.project hidden)

theorem ordered_project (hidden : List Nat) (t : DecisionTree) (bound : Nat)
    (ordered : t.Ordered bound) : (t.project hidden).Ordered bound := by
  induction t generalizing bound with
  | zero => trivial
  | one => trivial
  | node v low high ihLow ihHigh =>
      obtain ⟨le, -, orderedLow, orderedHigh⟩ := ordered
      rw [project]
      by_cases member : v ∈ hidden
      · rw [if_pos member]
        apply ordered_apply
        · exact (ihLow _ orderedLow).mono (by omega)
        · exact (ihHigh _ orderedHigh).mono (by omega)
      · rw [if_neg member]
        exact ordered_mk le (ihLow _ orderedLow) (ihHigh _ orderedHigh)

/-- Quantified variables take any value. A quantified root is set to the branch that holds, which
the branch itself does not notice. -/
theorem eval_project (hidden : List Nat) (t : DecisionTree) (bound : Nat)
    (ordered : t.Ordered bound) (f : Nat → Bool) :
    (t.project hidden).eval f = true ↔
      ∃ g, (∀ v, v ∉ hidden → g v = f v) ∧ t.eval g = true := by
  induction t generalizing bound with
  | zero => simp [project, eval]
  | one => exact ⟨fun _ => ⟨f, fun _ _ => rfl, rfl⟩, fun _ => rfl⟩
  | node v low high ihLow ihHigh =>
      obtain ⟨le, -, orderedLow, orderedHigh⟩ := ordered
      rw [project]
      by_cases member : v ∈ hidden
      · rw [if_pos member, eval_apply, Operation.table, Bool.or_eq_true, ihLow _ orderedLow,
          ihHigh _ orderedHigh]
        have outside : ∀ (g : Nat → Bool) (b : Bool), (∀ w, w ∉ hidden → g w = f w) →
            ∀ w, w ∉ hidden → Function.update g v b w = f w := by
          intro g b same w absent
          have apart : w ≠ v := fun here => absent (by rw [here]; exact member)
          rw [Function.update_of_ne apart, same w absent]
        constructor
        · rintro (⟨g, same, holds⟩ | ⟨g, same, holds⟩)
          · refine ⟨Function.update g v false, outside g false same, ?_⟩
            rw [eval, Function.update_self, if_neg Bool.false_ne_true, eval_update orderedLow]
            exact holds
          · refine ⟨Function.update g v true, outside g true same, ?_⟩
            rw [eval, Function.update_self, if_pos rfl, eval_update orderedHigh]
            exact holds
        · rintro ⟨g, same, holds⟩
          rw [eval] at holds
          by_cases here : g v = true
          · rw [if_pos here] at holds
            exact .inr ⟨g, same, holds⟩
          · rw [if_neg here] at holds
            exact .inl ⟨g, same, holds⟩
      · rw [if_neg member, eval_mk]
        by_cases here : f v = true
        · rw [if_pos here, ihHigh _ orderedHigh]
          refine exists_congr (fun g => and_congr_right (fun same => ?_))
          rw [eval, same v member, if_pos here]
        · rw [if_neg here, ihLow _ orderedLow]
          refine exists_congr (fun g => and_congr_right (fun same => ?_))
          rw [eval, same v member, if_neg here]

/-- The choice between two trees. -/
def ite (condition whenTrue whenFalse : DecisionTree) : DecisionTree :=
  apply .or (apply .and condition whenTrue) (apply .and condition.negate whenFalse)

theorem eval_ite (condition whenTrue whenFalse : DecisionTree) (f : Nat → Bool) :
    (ite condition whenTrue whenFalse).eval f =
      if condition.eval f then whenTrue.eval f else whenFalse.eval f := by
  simp only [ite, eval_apply, eval_negate, Operation.table]
  cases condition.eval f <;> simp

theorem ordered_ite {condition whenTrue whenFalse : DecisionTree} {bound : Nat}
    (orderedC : condition.Ordered bound) (orderedT : whenTrue.Ordered bound)
    (orderedF : whenFalse.Ordered bound) : (ite condition whenTrue whenFalse).Ordered bound := by
  apply ordered_apply
  · exact ordered_apply _ _ _ _ orderedC orderedT
  · exact ordered_apply _ _ _ _ (ordered_negate _ _ orderedC) orderedF

/-- The tree with every variable replaced. The choice at each node restores the variable order. -/
def rename (mapping : Nat → Nat) : DecisionTree → DecisionTree
  | zero => zero
  | one => one
  | node v low high => ite (node (mapping v) zero one) (high.rename mapping) (low.rename mapping)

theorem eval_rename (mapping : Nat → Nat) (t : DecisionTree) (f : Nat → Bool) :
    (t.rename mapping).eval f = t.eval (fun v => f (mapping v)) := by
  induction t with
  | zero => rfl
  | one => rfl
  | node v low high ihLow ihHigh =>
      rw [rename, eval_ite, ihLow, ihHigh, eval, eval]
      by_cases here : f (mapping v) = true
      · simp only [here, if_true, eval]
      · simp only [here, eval, Bool.false_eq_true, if_false]

theorem ordered_rename (mapping : Nat → Nat) (t : DecisionTree) : (t.rename mapping).Ordered 0 := by
  induction t with
  | zero => trivial
  | one => trivial
  | node v low high ihLow ihHigh =>
      apply ordered_ite _ ihHigh ihLow
      exact And.intro (Nat.zero_le _) ⟨by simp, trivial, trivial⟩

end DecisionTree

/-! ## Diagrams -/

/-- A reduced ordered diagram. -/
structure Bdd where
  tree : DecisionTree
  ordered : tree.Ordered 0
  deriving DecidableEq

namespace Bdd
open DecisionTree (Operation)

def eval (b : Bdd) (f : Nat → Bool) : Bool := b.tree.eval f

/-- A diagram is determined by the function it computes. -/
theorem ext_eval {a b : Bdd} (same : ∀ f, a.eval f = b.eval f) : a = b := by
  obtain ⟨treeA, orderedA⟩ := a
  obtain ⟨treeB, orderedB⟩ := b
  obtain rfl := DecisionTree.ext_of_ordered _ treeA treeB le_rfl orderedA orderedB same
  rfl

def false : Bdd := ⟨.zero, trivial⟩

def true : Bdd := ⟨.one, trivial⟩

/-- The diagram of one variable. -/
def literal (v : Nat) : Bdd := ⟨.node v .zero .one, Nat.zero_le _, by simp, trivial, trivial⟩

def apply (operation : Operation) (a b : Bdd) : Bdd :=
  ⟨DecisionTree.apply operation a.tree b.tree,
    DecisionTree.ordered_apply operation _ _ _ a.ordered b.ordered⟩

def negate (b : Bdd) : Bdd := ⟨b.tree.negate, DecisionTree.ordered_negate _ _ b.ordered⟩

def equivalence (a b : Bdd) : Bdd := (apply .xor a b).negate

def ite (condition whenTrue whenFalse : Bdd) : Bdd :=
  ⟨DecisionTree.ite condition.tree whenTrue.tree whenFalse.tree,
    DecisionTree.ordered_ite condition.ordered whenTrue.ordered whenFalse.ordered⟩

/-- Existential quantification over the listed variables. -/
def project (b : Bdd) (hidden : List Nat) : Bdd :=
  ⟨b.tree.project hidden, DecisionTree.ordered_project hidden _ _ b.ordered⟩

def rename (b : Bdd) (mapping : Nat → Nat) : Bdd :=
  ⟨b.tree.rename mapping, DecisionTree.ordered_rename mapping _⟩

def satisfiable (b : Bdd) : Bool := b ≠ false

/-- Neighbours combined pairwise; the last one of an odd number stays. -/
def pairUp (operation : Operation) : List Bdd → List Bdd
  | a :: b :: rest => apply operation a b :: pairUp operation rest
  | rest => rest

/-- Neighbours combined until one is left; `fuel` bounds the rounds. -/
def combine (operation : Operation) : Nat → List Bdd → List Bdd
  | 0, pending => pending
  | fuel + 1, pending =>
      if 1 < pending.length then combine operation fuel (pairUp operation pending) else pending

def conjunction (values : List Bdd) : Bdd := (combine .and values.length values).headD true

def disjunction (values : List Bdd) : Bdd := (combine .or values.length values).headD false

@[simp] theorem eval_false (f : Nat → Bool) : false.eval f = .false := rfl

@[simp] theorem eval_true (f : Nat → Bool) : true.eval f = .true := rfl

theorem eval_constant (p : Prop) [Decidable p] (f : Nat → Bool) :
    (if p then true else false : Bdd).eval f = .true ↔ p := by
  by_cases holds : p
  · simp [holds]
  · simp [holds]

@[simp] theorem eval_literal (v : Nat) (f : Nat → Bool) : (literal v).eval f = f v := by
  simp only [literal, eval, DecisionTree.eval]
  cases f v <;> rfl

@[simp] theorem eval_apply (operation : Operation) (a b : Bdd) (f : Nat → Bool) :
    (apply operation a b).eval f = operation.table (a.eval f) (b.eval f) :=
  DecisionTree.eval_apply operation a.tree b.tree f

@[simp] theorem eval_negate (b : Bdd) (f : Nat → Bool) : b.negate.eval f = !b.eval f :=
  DecisionTree.eval_negate b.tree f

@[simp] theorem eval_equivalence (a b : Bdd) (f : Nat → Bool) :
    (equivalence a b).eval f = (a.eval f == b.eval f) := by
  simp only [equivalence, eval_negate, eval_apply, Operation.table]
  cases a.eval f <;> cases b.eval f <;> rfl

@[simp] theorem eval_ite (condition whenTrue whenFalse : Bdd) (f : Nat → Bool) :
    (ite condition whenTrue whenFalse).eval f =
      if condition.eval f then whenTrue.eval f else whenFalse.eval f :=
  DecisionTree.eval_ite condition.tree whenTrue.tree whenFalse.tree f

theorem eval_project (b : Bdd) (hidden : List Nat) (f : Nat → Bool) :
    (b.project hidden).eval f = .true ↔
      ∃ g, (∀ v, v ∉ hidden → g v = f v) ∧ b.eval g = .true :=
  DecisionTree.eval_project hidden b.tree 0 b.ordered f

@[simp] theorem eval_rename (b : Bdd) (mapping : Nat → Nat) (f : Nat → Bool) :
    (b.rename mapping).eval f = b.eval (fun v => f (mapping v)) :=
  DecisionTree.eval_rename mapping b.tree f

theorem satisfiable_iff (b : Bdd) : b.satisfiable = .true ↔ ∃ f, b.eval f = .true := by
  rw [satisfiable, decide_eq_true_eq]
  constructor
  · intro different
    by_contra none
    apply different
    apply ext_eval
    intro f
    simpa using fun holds => none ⟨f, holds⟩
  · rintro ⟨f, holds⟩ rfl
    cases holds

/-! ### Balanced combinations -/

theorem length_pairUp (operation : Operation) (values : List Bdd) (many : 1 < values.length) :
    (pairUp operation values).length < values.length := by
  have bound : ∀ values : List Bdd, (pairUp operation values).length ≤ values.length := by
    intro values
    fun_induction pairUp operation values with
    | case1 a b rest ih => simp only [List.length_cons]; omega
    | case2 rest _ => exact le_rfl
  match values with
  | [] => simp at many
  | [_] => simp at many
  | a :: b :: rest =>
      have := bound rest
      simp only [pairUp, List.length_cons]
      omega

/-- Pairwise combination keeps whatever an associative reading of the values computes. -/
theorem eval_pairUp (operation : Operation) (unit : Bool) (f : Nat → Bool)
    (assoc : ∀ a b c, operation.table (operation.table a b) c =
      operation.table a (operation.table b c)) (values : List Bdd) :
    (pairUp operation values).foldr (fun b rest => operation.table (b.eval f) rest) unit =
      values.foldr (fun b rest => operation.table (b.eval f) rest) unit := by
  fun_induction pairUp operation values with
  | case1 a b rest ih => rw [List.foldr_cons, List.foldr_cons, List.foldr_cons, ih, eval_apply, assoc]
  | case2 rest _ => rfl

theorem eval_combine (operation : Operation) (unit : Bdd) (f : Nat → Bool)
    (assoc : ∀ a b c, operation.table (operation.table a b) c =
      operation.table a (operation.table b c))
    (right : ∀ a, operation.table a (unit.eval f) = a) (fuel : Nat) (values : List Bdd)
    (enough : values.length ≤ fuel) :
    ((combine operation fuel values).headD unit).eval f =
      values.foldr (fun b rest => operation.table (b.eval f) rest) (unit.eval f) := by
  induction fuel generalizing values with
  | zero =>
      obtain rfl : values = [] := List.length_eq_zero_iff.mp (by omega)
      rfl
  | succ fuel ih =>
      rw [combine]
      by_cases many : 1 < values.length
      · have shorter := length_pairUp operation values many
        rw [if_pos many, ih _ (by omega), eval_pairUp operation _ f assoc]
      · rw [if_neg many]
        match values with
        | [] => rfl
        | [b] => exact (right _).symm
        | _ :: _ :: _ => simp at many

@[simp] theorem eval_conjunction (values : List Bdd) (f : Nat → Bool) :
    (conjunction values).eval f = values.all (fun b => b.eval f) := by
  rw [conjunction, eval_combine .and true f Bool.and_assoc Bool.and_true _ values le_rfl]
  induction values with
  | nil => rfl
  | cons b rest ih => rw [List.foldr_cons, List.all_cons, ih]; rfl

@[simp] theorem eval_disjunction (values : List Bdd) (f : Nat → Bool) :
    (disjunction values).eval f = values.any (fun b => b.eval f) := by
  rw [disjunction, eval_combine .or false f Bool.or_assoc Bool.or_false _ values le_rfl]
  induction values with
  | nil => rfl
  | cons b rest ih => rw [List.foldr_cons, List.any_cons, ih]; rfl

end Bdd
