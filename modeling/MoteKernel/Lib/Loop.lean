import Mathlib.Logic.Basic

/-!
# Loops

A `while` loop is its body, which either goes on with a new state or leaves with
a result. `run` takes at most `fuel` turns and has no result when the loop is
still going. What the body preserves holds of the result, and a measure that
every turn lowers bounds the turns.
-/

namespace Loop

variable {σ ρ : Type}

/-- The result of the loop, when it is left within `fuel` turns. -/
def run (turn : σ → σ ⊕ ρ) : Nat → σ → Option ρ
  | 0, _ => none
  | fuel + 1, state =>
      match turn state with
      | .inl next => run turn fuel next
      | .inr result => some result

/-- One pass of a loop that is repeated until it changes nothing. -/
def untilStable [DecidableEq σ] (pass : σ → σ) (state : σ) : σ ⊕ σ :=
  if pass state = state then .inr state else .inl (pass state)

/-- So many turns lead from one state to the other. -/
def Goes (turn : σ → σ ⊕ ρ) (turns : Nat) (state next : σ) : Prop :=
  ∀ fuel, run turn (fuel + turns) state = run turn fuel next

theorem Goes.step {turn : σ → σ ⊕ ρ} {state next : σ} (taken : turn state = .inl next) :
    Goes turn 1 state next := by
  intro fuel
  rw [run, taken]

theorem Goes.trans {turn : σ → σ ⊕ ρ} {m n : Nat} {a b c : σ} (first : Goes turn m a b)
    (second : Goes turn n b c) : Goes turn (n + m) a c := by
  intro fuel
  rw [← Nat.add_assoc, first, second]

theorem Goes.leaves {turn : σ → σ ⊕ ρ} {turns : Nat} {state last : σ} {result : ρ}
    (goes : Goes turn turns state last) (left : turn last = .inr result) {fuel : Nat}
    (enough : turns < fuel) : run turn fuel state = some result := by
  obtain ⟨rest, rfl⟩ : ∃ rest, fuel = (rest + 1) + turns := ⟨fuel - turns - 1, by omega⟩
  rw [goes, run, left]

/-- What every turn preserves, and every exit turns into a postcondition, holds of the result. -/
theorem run_spec {turn : σ → σ ⊕ ρ} (Inv : σ → Prop) (Post : ρ → Prop)
    (goesOn : ∀ state next, Inv state → turn state = .inl next → Inv next)
    (leaves : ∀ state result, Inv state → turn state = .inr result → Post result)
    {fuel : Nat} {state : σ} {result : ρ} (holds : Inv state)
    (left : run turn fuel state = some result) : Post result := by
  induction fuel generalizing state with
  | zero => cases left
  | succ fuel ih =>
      rw [run] at left
      cases step : turn state with
      | inl next =>
          rw [step] at left
          exact ih (goesOn state next holds step) left
      | inr done =>
          rw [step] at left
          rw [← Option.some.inj left]
          exact leaves state done holds step

/-- A loop whose turns lower a measure is left before the measure is used up. -/
theorem run_terminates {turn : σ → σ ⊕ ρ} (Inv : σ → Prop) (measure : σ → Nat)
    (goesOn : ∀ state next, Inv state → turn state = .inl next →
      Inv next ∧ measure next < measure state)
    {fuel : Nat} {state : σ} (holds : Inv state) (enough : measure state < fuel) :
    ∃ result, run turn fuel state = some result := by
  induction fuel generalizing state with
  | zero => omega
  | succ fuel ih =>
      rw [run]
      cases step : turn state with
      | inl next =>
          obtain ⟨kept, lower⟩ := goesOn state next holds step
          exact ih kept (by omega)
      | inr done => exact ⟨done, rfl⟩

/-- A stable loop is left in a state that its pass does not change. -/
theorem run_untilStable [DecidableEq σ] {pass : σ → σ} (Inv : σ → Prop)
    (keeps : ∀ state, Inv state → Inv (pass state)) {fuel : Nat} {state result : σ}
    (holds : Inv state) (left : run (untilStable pass) fuel state = some result) :
    Inv result ∧ pass result = result := by
  refine run_spec Inv (fun r => Inv r ∧ pass r = r) ?_ ?_ holds left
  · intro s next inv step
    unfold untilStable at step
    split at step
    · cases step
    · obtain rfl := Sum.inl.inj step
      exact keeps s inv
  · intro s r inv step
    unfold untilStable at step
    split at step
    · rename_i stable
      obtain rfl := Sum.inr.inj step
      exact ⟨inv, stable⟩
    · cases step

/-- A stable loop whose changing passes raise a bounded measure is left. -/
theorem run_untilStable_terminates [DecidableEq σ] {pass : σ → σ} (Inv : σ → Prop)
    (measure : σ → Nat) (bound : Nat) (keeps : ∀ state, Inv state → Inv (pass state))
    (grows : ∀ state, Inv state → pass state ≠ state → measure state < measure (pass state))
    (bounded : ∀ state, Inv state → measure state ≤ bound) {fuel : Nat} {state : σ}
    (holds : Inv state) (enough : bound < fuel + measure state) :
    ∃ result, run (untilStable pass) fuel state = some result := by
  refine run_terminates Inv (fun s => bound - measure s) ?_ holds ?_
  · intro s next inv step
    unfold untilStable at step
    split at step
    · cases step
    · rename_i changes
      obtain rfl := Sum.inl.inj step
      have more := grows s inv changes
      have most := bounded (pass s) (keeps s inv)
      exact ⟨keeps s inv, by omega⟩
  · have most := bounded state holds
    omega

end Loop
