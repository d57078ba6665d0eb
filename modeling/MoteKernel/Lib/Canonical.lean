import Mathlib.Data.List.Sort
import Mathlib.Data.List.Dedup

/-!
# Canonical collections

A collection is kept in canonical form when it is the sorted list of its
distinct elements. `sortedSet` computes that form, and a list is its own
canonical form exactly when it is strictly increasing.
-/

namespace Canonical

variable {α : Type} [LinearOrder α]

/-- `tuple(sorted(xs))`. -/
def sorted (xs : List α) : List α := xs.insertionSort (· ≤ ·)

/-- `tuple(sorted(set(xs)))`. -/
def sortedSet (xs : List α) : List α := sorted xs.dedup

@[simp] theorem mem_sorted {xs : List α} {x : α} : x ∈ sorted xs ↔ x ∈ xs := by
  simp [sorted]

@[simp] theorem mem_sortedSet {xs : List α} {x : α} : x ∈ sortedSet xs ↔ x ∈ xs := by
  simp [sortedSet]

theorem perm_sorted (xs : List α) : (sorted xs).Perm xs :=
  List.perm_insertionSort _ xs

theorem sorted_pairwise (xs : List α) : (sorted xs).Pairwise (· ≤ ·) :=
  List.pairwise_insertionSort (· ≤ ·) xs

theorem sorted_eq_self {xs : List α} : sorted xs = xs ↔ xs.Pairwise (· ≤ ·) := by
  constructor
  · intro same
    rw [← same]
    exact sorted_pairwise xs
  · intro ordered
    exact ordered.insertionSort_eq

/-- A sorted list without repetitions is strictly increasing. -/
theorem sorted_strict {xs : List α} (distinct : xs.Nodup) : (sorted xs).Pairwise (· < ·) := by
  have nodup : (sorted xs).Nodup := (perm_sorted xs).nodup_iff.mpr distinct
  have ordered := sorted_pairwise xs
  exact (ordered.and nodup).imp (fun h => lt_of_le_of_ne h.1 h.2)

theorem sortedSet_strict (xs : List α) : (sortedSet xs).Pairwise (· < ·) :=
  sorted_strict xs.nodup_dedup

theorem nodup_of_strict {xs : List α} (strict : xs.Pairwise (· < ·)) : xs.Nodup :=
  strict.imp (fun h => h.ne)

/-- A list is canonical exactly when it is strictly increasing. -/
theorem eq_sortedSet_iff {xs : List α} : xs = sortedSet xs ↔ xs.Pairwise (· < ·) := by
  constructor
  · intro same
    rw [same]
    exact sortedSet_strict xs
  · intro strict
    have distinct := nodup_of_strict strict
    rw [sortedSet, distinct.dedup]
    exact (sorted_eq_self.mpr (strict.imp le_of_lt)).symm

/-- Two strictly increasing lists with the same elements are equal. -/
theorem strict_ext {xs ys : List α} (hx : xs.Pairwise (· < ·)) (hy : ys.Pairwise (· < ·))
    (same : ∀ x, x ∈ xs ↔ x ∈ ys) : xs = ys := by
  have perm : xs.Perm ys :=
    (List.perm_ext_iff_of_nodup (nodup_of_strict hx) (nodup_of_strict hy)).mpr same
  exact perm.eq_of_pairwise (fun a b _ _ hab hba => absurd hba (not_lt_of_gt hab)) hx hy

/-- A strictly increasing list with more elements is longer. -/
theorem length_lt_of_strict {xs ys : List α} (hx : xs.Pairwise (· < ·)) (hy : ys.Pairwise (· < ·))
    (inside : xs ⊆ ys) (different : xs ≠ ys) : xs.length < ys.length := by
  have subperm := List.subperm_of_subset (nodup_of_strict hx) inside
  by_contra short
  apply different
  apply strict_ext hx hy
  intro x
  exact (subperm.perm_of_length_le (not_lt.mp short)).mem_iff

/-! ## Lookup by key -/

/-- In a list without repeated keys, the lookup finds exactly the members. -/
theorem find_key_eq_some {β κ : Type} [DecidableEq κ] (key : β → κ) {xs : List β}
    (distinct : (xs.map key).Nodup) {k : κ} {x : β} :
    xs.find? (fun other => key other = k) = some x ↔ x ∈ xs ∧ key x = k := by
  constructor
  · intro found
    exact ⟨List.mem_of_find?_eq_some found, by simpa using List.find?_some found⟩
  · rintro ⟨member, rfl⟩
    cases found : xs.find? (fun other => key other = key x) with
    | none =>
        have absent := List.find?_eq_none.mp found x member
        simp at absent
    | some other =>
        have sameKey : key other = key x := by simpa using List.find?_some found
        rw [List.inj_on_of_nodup_map distinct (List.mem_of_find?_eq_some found) member sameKey]

/-! ## Partition by an owner -/

/-- The parts of a list by owner make up the elements that one of the owners has. -/
theorem flatMap_filter_perm {β κ : Type} [DecidableEq κ] (owner : β → κ) {owners : List κ}
    (distinct : owners.Nodup) (xs : List β) :
    (owners.flatMap (fun o => xs.filter (fun x => owner x = o))).Perm
      (xs.filter (fun x => owner x ∈ owners)) := by
  induction owners with
  | nil => simp
  | cons o owners ih =>
      obtain ⟨fresh, distinct⟩ := List.nodup_cons.mp distinct
      have first : (xs.filter (fun x => owner x ∈ o :: owners)).filter (fun x => owner x = o) =
          xs.filter (fun x => owner x = o) := by
        rw [List.filter_filter]
        apply List.filter_congr
        intro x _
        by_cases own : owner x = o <;> simp [own]
      have rest : (xs.filter (fun x => owner x ∈ o :: owners)).filter (fun x => !(owner x = o)) =
          xs.filter (fun x => owner x ∈ owners) := by
        rw [List.filter_filter]
        apply List.filter_congr
        intro x _
        by_cases own : owner x = o
        · simp [own, fresh]
        · simp [own]
      have split := List.filter_append_perm (fun x => decide (owner x = o))
        (xs.filter (fun x => owner x ∈ o :: owners))
      rw [first, rest] at split
      rw [List.flatMap_cons]
      exact ((ih distinct).append_left _).trans split

/-- When every element has one of the owners, the parts make up the whole list. -/
theorem parts_perm {β κ : Type} [DecidableEq κ] (owner : β → κ) {owners : List κ}
    (distinct : owners.Nodup) {xs : List β} (owned : ∀ x ∈ xs, owner x ∈ owners) :
    (owners.flatMap (fun o => xs.filter (fun x => owner x = o))).Perm xs := by
  have parts := flatMap_filter_perm owner distinct xs
  rwa [List.filter_eq_self.mpr (fun x member => decide_eq_true (owned x member))] at parts

/-! ## Position in a list -/

section Position

variable {β : Type} [DecidableEq β]

/-- The elements of a list without repetitions come in the order of their positions. -/
theorem pairwise_idxOf {xs : List β} (distinct : xs.Nodup) :
    xs.Pairwise (fun a b => xs.idxOf a < xs.idxOf b) := by
  refine List.pairwise_iff_getElem.mpr (fun i j hi hj less => ?_)
  rw [distinct.idxOf_getElem i hi, distinct.idxOf_getElem j hj]
  exact less

/-- A list whose elements come in the order of their positions is a part of the list. -/
theorem sublist_of_idxOf {xs ys : List β} (distinct : ys.Nodup) (once : xs.Nodup)
    (known : xs ⊆ ys) (ordered : xs.Pairwise (fun a b => ys.idxOf a < ys.idxOf b)) :
    xs.Sublist ys := by
  have : Std.Antisymm (fun a b : β => ys.idxOf a < ys.idxOf b) :=
    ⟨fun a b hab hba => absurd hba (Nat.lt_asymm hab)⟩
  exact List.sublist_of_subperm_of_pairwise (List.subperm_of_subset once known) ordered
    (pairwise_idxOf distinct)

/-- Sorting by position leaves exactly the lists in the order of their positions as they are. -/
theorem insertionSort_idxOf {xs ys : List β} (once : xs.Nodup) (known : xs ⊆ ys) :
    xs.insertionSort (fun a b => ys.idxOf a ≤ ys.idxOf b) = xs ↔
      xs.Pairwise (fun a b => ys.idxOf a < ys.idxOf b) := by
  have : Std.Total (fun a b : β => ys.idxOf a ≤ ys.idxOf b) := ⟨fun a b => Nat.le_total _ _⟩
  have : IsTrans β (fun a b : β => ys.idxOf a ≤ ys.idxOf b) := ⟨fun a b c => Nat.le_trans⟩
  constructor
  · intro same
    have ordered := List.pairwise_insertionSort (fun a b => ys.idxOf a ≤ ys.idxOf b) xs
    rw [same] at ordered
    refine (ordered.and once).imp_of_mem (fun {a b} ha _ both => ?_)
    refine Nat.lt_of_le_of_ne both.1 (fun samePosition => both.2 ?_)
    exact (List.idxOf_inj (known ha)).mp samePosition
  · intro ordered
    exact (ordered.imp Nat.le_of_lt).insertionSort_eq

end Position

end Canonical
