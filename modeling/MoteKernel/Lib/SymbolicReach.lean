import Mathlib.Data.Fintype.Pi
import Mathlib.Data.Fintype.Card
import Mathlib.Data.Fintype.BigOperators
import Mathlib.Data.List.Nodup
import MoteKernel.Lib.Bdd
import MoteKernel.Lib.Loop

/-!
# Symbolic reachability

A transition system over numbered Boolean variables: the current variables hold
a state, the following variables hold its successor, and the choice variables are
free in every step. `reachable` computes the diagram of the reachable states by
images of a growing diagram; the number of states bounds the rounds, so the loop
stops, and it stops at exactly the reachable states.
-/

/-- A diagram reads no variable outside the list. -/
def Bdd.Reads (support : List Nat) (b : Bdd) : Prop :=
  ∀ f g : Nat → Bool, (∀ v ∈ support, f v = g v) → b.eval f = b.eval g

/-- The function of a list of replacements. -/
def Bdd.renaming (pairs : List (Nat × Nat)) (v : Nat) : Nat :=
  ((pairs.find? (fun pair => pair.1 = v)).map Prod.snd).getD v

structure SymbolicSystem where
  current : List Nat
  choice : List Nat
  following : List Nat
  initial : Bdd
  relation : Bdd

namespace SymbolicSystem

/-- The successors of the states of a diagram. -/
def image (system : SymbolicSystem) (reached : Bdd) : Bdd :=
  ((Bdd.apply .and reached system.relation).project (system.current ++ system.choice)).rename
    (Bdd.renaming (system.following.zip system.current))

/-- One round of the reachability loop. -/
def expand (system : SymbolicSystem) (reached : Bdd) : Bdd :=
  Bdd.apply .or reached (system.image reached)

/-- The reachability loop; `fuel` bounds the rounds. -/
def saturate (system : SymbolicSystem) : Nat → Bdd → Bdd
  | 0, reached => reached
  | fuel + 1, reached =>
      if system.expand reached = reached then reached else system.saturate fuel (system.expand reached)

/-- The diagram of the reachable states. -/
def reachable (system : SymbolicSystem) : Bdd :=
  system.saturate (2 ^ system.current.length) system.initial

/-- The variables are distinct, and every diagram reads its own. -/
structure Valid (system : SymbolicSystem) : Prop where
  paired : system.following.length = system.current.length
  distinct : (system.current ++ system.choice ++ system.following).Nodup
  initial : system.initial.Reads system.current
  relation : system.relation.Reads (system.current ++ system.choice ++ system.following)

/-- One step between the states two assignments give to the current variables. -/
def Step (system : SymbolicSystem) (f g : Nat → Bool) : Prop :=
  ∃ h : Nat → Bool, (∀ v ∈ system.current, h v = f v) ∧
    (∀ pair ∈ system.following.zip system.current, h pair.1 = g pair.2) ∧
    system.relation.eval h = true

inductive Reached (system : SymbolicSystem) : (Nat → Bool) → Prop
  | start {f : Nat → Bool} (holds : system.initial.eval f = true) : Reached system f
  | step {f g : Nat → Bool} (before : Reached system f) (taken : system.Step f g) :
      Reached system g

variable {system : SymbolicSystem}

theorem renaming_of_mem (valid : system.Valid) {pair : Nat × Nat}
    (member : pair ∈ system.following.zip system.current) :
    Bdd.renaming (system.following.zip system.current) pair.1 = pair.2 := by
  have firsts : ((system.following.zip system.current).map Prod.fst).Nodup := by
    rw [List.map_fst_zip valid.paired.le]
    exact (List.nodup_append.mp valid.distinct).2.1
  unfold Bdd.renaming
  cases found : (system.following.zip system.current).find? (fun other => other.1 = pair.1) with
  | none => exact absurd (List.find?_eq_none.mp found pair member) (by simp)
  | some other =>
      have same : other.1 = pair.1 := by simpa using List.find?_some found
      have inside := List.mem_of_find?_eq_some found
      rw [List.inj_on_of_nodup_map firsts inside member same]
      rfl

theorem eval_image (valid : system.Valid) {reached : Bdd} (reads : reached.Reads system.current)
    (g : Nat → Bool) :
    (system.image reached).eval g = true ↔ ∃ f, reached.eval f = true ∧ system.Step f g := by
  obtain ⟨-, -, apart⟩ := List.nodup_append.mp valid.distinct
  rw [image, Bdd.eval_rename, Bdd.eval_project]
  constructor
  · rintro ⟨h, outside, both⟩
    rw [Bdd.eval_apply, DecisionTree.Operation.table, Bool.and_eq_true] at both
    refine ⟨h, both.1, h, fun _ _ => rfl, ?_, both.2⟩
    intro pair member
    have following : pair.1 ∈ system.following := (List.of_mem_zip member).1
    rw [outside pair.1 (fun hidden => apart _ hidden _ following rfl), renaming_of_mem valid member]
  · rintro ⟨f, holds, h, here, next, taken⟩
    -- outside the system the projection fixes the values, inside it the step does
    refine ⟨fun v => if v ∈ system.current ++ system.choice ++ system.following then h v
      else g (Bdd.renaming (system.following.zip system.current) v), ?_, ?_⟩
    · intro v visible
      by_cases member : v ∈ system.following
      · obtain ⟨w, paired⟩ : ∃ w, (v, w) ∈ system.following.zip system.current := by
          have mapped : v ∈ (system.following.zip system.current).map Prod.fst := by
            rwa [List.map_fst_zip valid.paired.le]
          obtain ⟨⟨_, w⟩, inside, rfl⟩ := List.mem_map.mp mapped
          exact ⟨w, inside⟩
        refine (if_pos (List.mem_append_right _ member)).trans ?_
        exact (next _ paired).trans (congrArg g (renaming_of_mem valid paired).symm)
      · refine if_neg ?_
        rw [List.mem_append, not_or]
        exact ⟨visible, member⟩
    · rw [Bdd.eval_apply, DecisionTree.Operation.table, Bool.and_eq_true]
      constructor
      · rw [reads _ f, holds]
        intro v member
        refine (if_pos (List.mem_append_left _ (List.mem_append_left _ member))).trans ?_
        exact here v member
      · rw [valid.relation _ h, taken]
        intro v member
        exact if_pos member

theorem Step.congr {f g g' : Nat → Bool} (same : ∀ v ∈ system.current, g v = g' v)
    (taken : system.Step f g) : system.Step f g' := by
  obtain ⟨h, here, next, holds⟩ := taken
  refine ⟨h, here, ?_, holds⟩
  intro pair member
  rw [next pair member, same _ (List.of_mem_zip member).2]

theorem reads_image (valid : system.Valid) {reached : Bdd} (reads : reached.Reads system.current) :
    (system.image reached).Reads system.current := by
  intro f g same
  rw [Bool.eq_iff_iff, eval_image valid reads, eval_image valid reads]
  constructor
  · rintro ⟨before, holds, taken⟩
    exact ⟨before, holds, taken.congr same⟩
  · rintro ⟨before, holds, taken⟩
    exact ⟨before, holds, taken.congr (fun v member => (same v member).symm)⟩

theorem eval_expand (valid : system.Valid) {reached : Bdd} (reads : reached.Reads system.current)
    (g : Nat → Bool) :
    (system.expand reached).eval g = true ↔
      reached.eval g = true ∨ ∃ f, reached.eval f = true ∧ system.Step f g := by
  rw [expand, Bdd.eval_apply, DecisionTree.Operation.table, Bool.or_eq_true,
    eval_image valid reads]

theorem reads_expand (valid : system.Valid) {reached : Bdd} (reads : reached.Reads system.current) :
    (system.expand reached).Reads system.current := by
  intro f g same
  rw [expand, Bdd.eval_apply, Bdd.eval_apply, reads f g same, reads_image valid reads f g same]

/-! ## The bound on the rounds -/

/-- The assignment that gives the current variables the values of a state. -/
def assignment (system : SymbolicSystem) (x : Fin system.current.length → Bool) (v : Nat) : Bool :=
  if inside : system.current.idxOf v < system.current.length then x ⟨_, inside⟩ else false

/-- The states of a diagram. -/
def states (system : SymbolicSystem) (b : Bdd) : Finset (Fin system.current.length → Bool) :=
  Finset.univ.filter (fun x => b.eval (system.assignment x) = true)

theorem assignment_of (f : Nat → Bool) {v : Nat} (member : v ∈ system.current) :
    system.assignment (fun i => f (system.current.get i)) v = f v := by
  rw [assignment, dif_pos (List.idxOf_lt_length_iff.mpr member)]
  simp

/-- A round that adds a state adds it to the finite set of states. -/
theorem card_states_lt {a b : Bdd} (readsA : a.Reads system.current)
    (readsB : b.Reads system.current) (grows : ∀ f, a.eval f = true → b.eval f = true)
    (different : b ≠ a) : (system.states a).card < (system.states b).card := by
  apply Finset.card_lt_card
  rw [Finset.ssubset_iff_of_subset]
  · by_contra none
    apply different
    apply Bdd.ext_eval
    intro f
    rw [Bool.eq_iff_iff]
    refine ⟨fun holds => ?_, grows f⟩
    by_contra missing
    apply none
    refine ⟨fun i => f (system.current.get i), ?_, ?_⟩
    · rw [states, Finset.mem_filter]
      refine ⟨Finset.mem_univ _, ?_⟩
      rw [readsB _ f (fun v member => assignment_of f member), holds]
    · rw [states, Finset.mem_filter]
      rintro ⟨-, inside⟩
      rw [readsA _ f (fun v member => assignment_of f member)] at inside
      exact missing inside
  · intro x
    simp only [states, Finset.mem_filter, Finset.mem_univ, true_and]
    exact grows _

theorem card_states_le (system : SymbolicSystem) (b : Bdd) :
    (system.states b).card ≤ 2 ^ system.current.length := by
  have bound := Finset.card_le_univ (system.states b)
  rwa [Fintype.card_fun, Fintype.card_bool, Fintype.card_fin] at bound

/-- A loop that has not stopped has seen a new state in every round. -/
theorem saturate_stops (valid : system.Valid) (fuel : Nat) (reached : Bdd)
    (reads : reached.Reads system.current)
    (enough : 2 ^ system.current.length ≤ fuel + (system.states reached).card) :
    system.expand (system.saturate fuel reached) = system.saturate fuel reached := by
  have grows : ∀ reached : Bdd, reached.Reads system.current →
      ∀ f, reached.eval f = true → (system.expand reached).eval f = true := by
    intro reached reads f holds
    exact (eval_expand valid reads f).mpr (.inl holds)
  induction fuel generalizing reached with
  | zero =>
      rw [saturate]
      by_contra different
      have more := card_states_lt reads (reads_expand valid reads) (grows reached reads) different
      have bound := card_states_le system (system.expand reached)
      omega
  | succ fuel ih =>
      rw [saturate]
      by_cases stable : system.expand reached = reached
      · rw [if_pos stable, stable]
      · have more := card_states_lt reads (reads_expand valid reads) (grows reached reads) stable
        rw [if_neg stable]
        exact ih _ (reads_expand valid reads) (by omega)

/-- The reachability loop is left with the diagram of the reachable states. -/
theorem reachable_leaves (valid : system.Valid) :
    Loop.run (Loop.untilStable system.expand) (2 ^ system.current.length + 1) system.initial =
      some system.reachable := by
  have left : ∀ fuel reached, system.expand (system.saturate fuel reached) =
      system.saturate fuel reached → Loop.run (Loop.untilStable system.expand) (fuel + 1) reached =
        some (system.saturate fuel reached) := by
    intro fuel
    induction fuel with
    | zero =>
        intro reached stable
        rw [saturate] at stable ⊢
        rw [Loop.run, Loop.untilStable, if_pos stable]
    | succ fuel ih =>
        intro reached stable
        rw [saturate] at stable ⊢
        rw [Loop.run, Loop.untilStable]
        by_cases done : system.expand reached = reached
        · rw [if_pos done, if_pos done]
        · rw [if_neg done] at stable ⊢
          rw [if_neg done]
          exact ih _ stable
  exact left _ _ (saturate_stops valid _ _ valid.initial (by omega))

/-- What one round keeps, the loop keeps. -/
theorem saturate_induction (system : SymbolicSystem) {P : Bdd → Prop}
    (kept : ∀ b, P b → P (system.expand b)) (fuel : Nat)
    (reached : Bdd) (start : P reached) : P (system.saturate fuel reached) := by
  induction fuel generalizing reached with
  | zero => exact start
  | succ fuel ih =>
      rw [saturate]
      split
      · exact start
      · exact ih _ (kept _ start)

theorem reads_reachable (valid : system.Valid) : system.reachable.Reads system.current :=
  saturate_induction system (P := Bdd.Reads system.current) (fun _ => reads_expand valid) _ _
    valid.initial

/-- The computed diagram holds exactly in the reachable states. -/
theorem reachable_iff (valid : system.Valid) (f : Nat → Bool) :
    system.reachable.eval f = true ↔ system.Reached f := by
  constructor
  · have sound := saturate_induction system
      (P := fun b => b.Reads system.current ∧ ∀ f, b.eval f = true → system.Reached f)
      (fun b ⟨reads, reached⟩ => ⟨reads_expand valid reads, fun g holds => by
        rcases (eval_expand valid reads g).mp holds with old | ⟨before, held, taken⟩
        · exact reached g old
        · exact (reached before held).step taken⟩)
      (2 ^ system.current.length) system.initial ⟨valid.initial, fun _ => .start⟩
    exact sound.2 f
  · intro reached
    induction reached with
    | @start f holds =>
        have contains := saturate_induction system
          (P := fun b => b.Reads system.current ∧ b.eval f = true)
          (fun b ⟨reads, held⟩ =>
            ⟨reads_expand valid reads, (eval_expand valid reads f).mpr (.inl held)⟩)
          (2 ^ system.current.length) system.initial ⟨valid.initial, holds⟩
        exact contains.2
    | @step f g _ taken ih =>
        have stable := saturate_stops valid (2 ^ system.current.length) system.initial
          valid.initial (by omega)
        have next := (eval_expand valid (reads_reachable valid) g).mpr (.inr ⟨f, ih, taken⟩)
        rw [reachable, stable] at next
        exact next

end SymbolicSystem
