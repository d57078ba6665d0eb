import Mathlib.Logic.Basic
import Mathlib.Data.List.Forall2

/-!
# Checked computations

A validator is a sequence of guards, each of which raises an error when its
condition fails. The lemmas below turn the successful result of such a sequence
into the conjunction of the negated conditions, so that a proof about a
validator never opens its `do` block more than once.
-/

namespace Checked

variable {ε ε' α β : Type}

/-- `if bad: raise error`. -/
def raiseIf (bad : Prop) [Decidable bad] (error : ε) : Except ε Unit :=
  if bad then .error error else .ok ()

/-- Run a check over every element, in order; the first failure is raised. -/
def checkAll (check : α → Except ε Unit) : List α → Except ε Unit
  | [] => .ok ()
  | x :: xs => do
      check x
      checkAll check xs

/-- `try: x; except E as error: raise handler(error)`. -/
def rethrow (handler : ε → ε') (x : Except ε α) : Except ε' α :=
  x.mapError handler

/-- The present value of an option, or the error raised for its absence. -/
def orRaise (error : ε) : Option α → Except ε α
  | some value => .ok value
  | none => .error error

@[simp] theorem pure_eq_ok (a : α) : (pure a : Except ε α) = .ok a := rfl

@[simp] theorem throw_eq_error (e : ε) : (throw e : Except ε α) = .error e := rfl

@[simp] theorem raiseIf_eq_ok (bad : Prop) [Decidable bad] (error : ε) (u : Unit) :
    raiseIf bad error = .ok u ↔ ¬ bad := by
  unfold raiseIf
  split <;> simp_all

@[simp] theorem raiseIf_eq_error (bad : Prop) [Decidable bad] (error error' : ε) :
    raiseIf bad error = .error error' ↔ bad ∧ error = error' := by
  unfold raiseIf
  split <;> simp_all

@[simp] theorem bind_eq_ok (x : Except ε α) (f : α → Except ε β) (b : β) :
    (x >>= f) = .ok b ↔ ∃ a, x = .ok a ∧ f a = .ok b := by
  cases x with
  | error e => simp [bind, Except.bind]
  | ok a => simp [bind, Except.bind]

/-- A guard returns nothing worth naming. -/
theorem exists_unit {p : Unit → Prop} : (∃ u, p u) ↔ p () :=
  ⟨fun ⟨(), h⟩ => h, fun h => ⟨(), h⟩⟩

@[simp high] theorem bind_unit_eq_ok (x : Except ε Unit) (f : Unit → Except ε β) (b : β) :
    (x >>= f) = .ok b ↔ x = .ok () ∧ f () = .ok b := by
  cases x with
  | error e => simp [bind, Except.bind]
  | ok a => simp [bind, Except.bind]

@[simp high] theorem bind_unit_eq_error (x : Except ε Unit) (f : Unit → Except ε β) (e : ε) :
    (x >>= f) = .error e ↔ x = .error e ∨ x = .ok () ∧ f () = .error e := by
  cases x with
  | error e => simp [bind, Except.bind]
  | ok a => simp [bind, Except.bind]

@[simp] theorem bind_eq_error (x : Except ε α) (f : α → Except ε β) (e : ε) :
    (x >>= f) = .error e ↔ x = .error e ∨ ∃ a, x = .ok a ∧ f a = .error e := by
  cases x with
  | error e => simp [bind, Except.bind]
  | ok a => simp [bind, Except.bind]

@[simp] theorem ok_bind (a : α) (f : α → Except ε β) : ((.ok a : Except ε α) >>= f) = f a := rfl

@[simp] theorem error_bind (e : ε) (f : α → Except ε β) :
    ((.error e : Except ε α) >>= f) = .error e := rfl

@[simp] theorem checkAll_eq_ok (check : α → Except ε Unit) (xs : List α) (u : Unit) :
    checkAll check xs = .ok u ↔ ∀ x ∈ xs, check x = .ok () := by
  induction xs with
  | nil => simp [checkAll]
  | cons x xs ih => simp [checkAll, ih]

theorem checkAll_eq_error {check : α → Except ε Unit} {xs : List α} {e : ε}
    (raised : checkAll check xs = .error e) : ∃ x ∈ xs, check x = .error e := by
  induction xs with
  | nil => cases raised
  | cons x xs ih =>
      simp only [checkAll, bind_unit_eq_error] at raised
      rcases raised with here | ⟨-, later⟩
      · exact ⟨x, List.mem_cons_self, here⟩
      · obtain ⟨y, member, found⟩ := ih later
        exact ⟨y, List.mem_cons_of_mem _ member, found⟩

@[simp] theorem rethrow_ok (handler : ε → ε') (a : α) :
    rethrow handler (.ok a) = .ok a := rfl

@[simp] theorem rethrow_error (handler : ε → ε') (e : ε) :
    rethrow handler (.error e : Except ε α) = .error (handler e) := rfl

@[simp] theorem rethrow_eq_ok (handler : ε → ε') (x : Except ε α) (a : α) :
    rethrow handler x = .ok a ↔ x = .ok a := by
  cases x <;> simp

@[simp] theorem rethrow_eq_error (handler : ε → ε') (x : Except ε α) (e : ε') :
    rethrow handler x = .error e ↔ ∃ e₀, x = .error e₀ ∧ handler e₀ = e := by
  cases x <;> simp

@[simp] theorem orRaise_eq_ok (error : ε) (o : Option α) (a : α) :
    orRaise error o = .ok a ↔ o = some a := by
  cases o <;> simp [orRaise]

@[simp] theorem orRaise_eq_error (error e : ε) (o : Option α) :
    orRaise error o = .error e ↔ o = none ∧ error = e := by
  cases o <;> simp [orRaise]

theorem toOption_eq_some {result : Except ε α} {value : α} :
    result.toOption = some value ↔ result = .ok value := by
  cases result with
  | error error => exact iff_of_false (by simp [Except.toOption]) (by simp)
  | ok other => simp [Except.toOption]

/-- What every step of a successful fold preserves holds of its result. -/
theorem foldlM_preserves {P : β → Prop} {f : β → α → Except ε β} {xs : List α} {b c : β}
    (respects : ∀ b x c, x ∈ xs → f b x = .ok c → P b → P c) (folded : xs.foldlM f b = .ok c)
    (start : P b) : P c := by
  induction xs generalizing b with
  | nil =>
      obtain rfl := Except.ok.inj folded
      exact start
  | cons x xs ih =>
      rw [List.foldlM_cons, bind_eq_ok] at folded
      obtain ⟨next, taken, rest⟩ := folded
      refine ih ?_ rest (respects b x next List.mem_cons_self taken start)
      intro b' y c' later
      exact respects b' y c' (List.mem_cons_of_mem _ later)

/-- A list computation succeeds with one result for each element. -/
theorem mapM_eq_ok (f : α → Except ε β) (xs : List α) (ys : List β) :
    xs.mapM f = .ok ys ↔ List.Forall₂ (fun x y => f x = .ok y) xs ys := by
  induction xs generalizing ys with
  | nil => simp [eq_comm]
  | cons x xs ih =>
      simp only [List.mapM_cons, bind_eq_ok, pure_eq_ok, Except.ok.injEq, ih]
      constructor
      · rintro ⟨y, head, ys, tail, rfl⟩
        exact .cons head tail
      · rintro (_ | ⟨head, tail⟩)
        exact ⟨_, head, _, tail, rfl⟩

/-- A list computation whose results are known succeeds with their list. -/
theorem mapM_eq_ok_map {f : α → Except ε β} {g : α → β} {valid : α → Prop}
    (spec : ∀ x y, f x = .ok y ↔ valid x ∧ y = g x) (xs : List α) (ys : List β) :
    xs.mapM f = .ok ys ↔ (∀ x ∈ xs, valid x) ∧ ys = xs.map g := by
  induction xs generalizing ys with
  | nil => simp [eq_comm]
  | cons x xs ih =>
      simp only [List.mapM_cons, bind_eq_ok, pure_eq_ok, Except.ok.injEq, spec, ih,
        List.forall_mem_cons, List.map_cons]
      constructor
      · rintro ⟨_, ⟨validX, rfl⟩, _, ⟨validXs, rfl⟩, rfl⟩
        exact ⟨⟨validX, validXs⟩, rfl⟩
      · rintro ⟨⟨validX, validXs⟩, rfl⟩
        exact ⟨_, ⟨validX, rfl⟩, _, ⟨validXs, rfl⟩, rfl⟩

theorem mapM_const {f : α → Except ε β} {xs : List α} {b : β}
    (each : ∀ x ∈ xs, f x = .ok b) : xs.mapM f = .ok (List.replicate xs.length b) := by
  induction xs with
  | nil => rfl
  | cons x xs ih =>
      rw [List.mapM_cons, each x List.mem_cons_self,
        ih (fun y member => each y (List.mem_cons_of_mem _ member))]
      rfl

/-- A list computation succeeds when it succeeds for every element. -/
theorem mapM_eq_ok_of_forall {f : α → Except ε β} {xs : List α}
    (each : ∀ x ∈ xs, ∃ y, f x = .ok y) : ∃ ys, xs.mapM f = .ok ys := by
  induction xs with
  | nil => exact ⟨[], rfl⟩
  | cons x xs ih =>
      obtain ⟨y, first⟩ := each x List.mem_cons_self
      obtain ⟨ys, rest⟩ := ih (fun z member => each z (List.mem_cons_of_mem _ member))
      refine ⟨y :: ys, ?_⟩
      rw [List.mapM_cons, first, rest]
      rfl

/-- A conjunction with an early exit is true when every part is. -/
theorem allM_eq_ok_true (check : α → Except ε Bool) (xs : List α) :
    xs.allM check = .ok true ↔ ∀ x ∈ xs, check x = .ok true := by
  induction xs with
  | nil => simp [List.allM]
  | cons x xs ih =>
      rw [List.forall_mem_cons, ← ih, List.allM, bind_eq_ok]
      constructor
      · intro done
        obtain ⟨holds, first, rest⟩ := done
        cases holds with
        | false => cases rest
        | true => exact ⟨first, rest⟩
      · intro each
        exact ⟨true, each.1, each.2⟩

/-- Every result of an elementwise computation has its argument. -/
theorem forall₂_mem_right {R : α → β → Prop} {xs : List α} {ys : List β}
    (related : List.Forall₂ R xs ys) {y : β} (member : y ∈ ys) : ∃ x ∈ xs, R x y := by
  induction related with
  | nil => cases member
  | cons head tail ih =>
      rcases List.mem_cons.mp member with rfl | later
      · exact ⟨_, List.mem_cons_self, head⟩
      · obtain ⟨x, inside, holds⟩ := ih later
        exact ⟨x, List.mem_cons_of_mem _ inside, holds⟩

/-- Every argument of an elementwise computation has its result. -/
theorem forall₂_mem_left {R : α → β → Prop} {xs : List α} {ys : List β}
    (related : List.Forall₂ R xs ys) {x : α} (member : x ∈ xs) : ∃ y ∈ ys, R x y :=
  forall₂_mem_right related.flip member

/-! ## Which errors a computation raises -/

/-- Every error a computation raises satisfies `P`. -/
def RaisesOnly (P : ε → Prop) (x : Except ε α) : Prop :=
  ∀ e, x = .error e → P e

namespace RaisesOnly

variable {P : ε → Prop}

theorem ok (a : α) : RaisesOnly P (.ok a : Except ε α) := by
  intro e raised
  cases raised

theorem error {e : ε} (holds : P e) : RaisesOnly P (.error e : Except ε α) := by
  intro e' raised
  cases raised
  exact holds

theorem bind {x : Except ε α} {f : α → Except ε β} (first : RaisesOnly P x)
    (later : ∀ a, x = .ok a → RaisesOnly P (f a)) : RaisesOnly P (x >>= f) := by
  intro e raised
  cases x with
  | error e' =>
      cases raised
      exact first e rfl
  | ok a => exact later a rfl e raised

theorem of_ok {x : Except ε α} (returns : ∃ a, x = .ok a) : RaisesOnly P x := by
  obtain ⟨a, rfl⟩ := returns
  exact ok a

theorem map {x : Except ε α} (f : α → β) (first : RaisesOnly P x) : RaisesOnly P (x.map f) := by
  intro e raised
  cases x with
  | error e' =>
      cases raised
      exact first e rfl
  | ok a => cases raised

theorem rethrow {handler : ε' → ε} {x : Except ε' α} (handled : ∀ e, P (handler e)) :
    RaisesOnly P (rethrow handler x) := by
  intro e raised
  obtain ⟨e', -, rfl⟩ := (rethrow_eq_error _ _ _).mp raised
  exact handled e'

theorem raiseIf {bad : Prop} [Decidable bad] {error : ε} (holds : P error) :
    RaisesOnly P (raiseIf bad error) := by
  intro e raised
  obtain ⟨-, rfl⟩ := (raiseIf_eq_error _ _ _).mp raised
  exact holds

theorem orRaise {error : ε} {o : Option α} (holds : P error) : RaisesOnly P (orRaise error o) := by
  intro e raised
  obtain ⟨-, rfl⟩ := (orRaise_eq_error _ _ _).mp raised
  exact holds

theorem checkAll {check : α → Except ε Unit} {xs : List α}
    (each : ∀ x ∈ xs, RaisesOnly P (check x)) : RaisesOnly P (checkAll check xs) := by
  intro e raised
  obtain ⟨x, member, here⟩ := checkAll_eq_error raised
  exact each x member e here

theorem mapM {f : α → Except ε β} {xs : List α} (each : ∀ x ∈ xs, RaisesOnly P (f x)) :
    RaisesOnly P (xs.mapM f) := by
  induction xs with
  | nil => exact ok []
  | cons x xs ih =>
      rw [List.mapM_cons]
      apply bind (each x List.mem_cons_self)
      intro y _
      apply bind (ih (fun z member => each z (List.mem_cons_of_mem _ member)))
      intro ys _
      exact ok _

theorem foldlM {f : β → α → Except ε β} (each : ∀ b x, RaisesOnly P (f b x)) (xs : List α)
    (b : β) : RaisesOnly P (xs.foldlM f b) := by
  induction xs generalizing b with
  | nil => exact ok b
  | cons x xs ih =>
      rw [List.foldlM_cons]
      exact bind (each b x) (fun c _ => ih c)

end RaisesOnly

end Checked
