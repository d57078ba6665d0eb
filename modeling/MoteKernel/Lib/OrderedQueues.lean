import Mathlib.Data.Finset.Max
import Mathlib.Data.List.Induction
import Mathlib.Data.List.Nodup
import Mathlib.Data.List.Perm.Basic
import Mathlib.Data.List.TakeWhile
import Mathlib.Order.Defs.Unbundled

/-!
# Queues of participants that take resources in one global order

Every resource has a queue whose head owns it. A participant that needs a list
of resources joins the queues of a prefix of that list: it goes on past a
resource only while it heads the queue there. `stand` lets a list of
participants join one after another.

A family of queues in which everyone has gone as far as it can, and in which
every queue is in the order of the participants, is the one `stand` builds
(`Settled.unique`). A participant that leaves lets the first waiters of its
resources go on; the family they then form is settled again, and it is in order
exactly when none of them joins a queue behind a participant that comes after it
(`ordered_foldl_visit`).
-/

namespace OrderedQueues

variable {ν ρ : Type}

/-- One queue for each resource. -/
abbrev Queues (ν ρ : Type) := ρ → List ν

/-! ## Reaching -/

/-- The resources a participant reaches: it goes on past a resource only when nobody is there. -/
def reach (queues : Queues ν ρ) : List ρ → List ρ
  | [] => []
  | r :: rest => r :: if queues r = [] then reach queues rest else []

variable {queues : Queues ν ρ} {required : List ρ} {r : ρ}

theorem mem_of_mem_reach (member : r ∈ reach queues required) : r ∈ required := by
  induction required with
  | nil => simp [reach] at member
  | cons head rest ih =>
      unfold reach at member
      rcases List.mem_cons.mp member with rfl | later
      · exact List.mem_cons_self
      · split at later
        · exact List.mem_cons_of_mem _ (ih later)
        · cases later

/-- A resource is reached exactly when nobody is at the earlier ones. -/
theorem mem_reach_iff {before after : List ρ} (distinct : (before ++ r :: after).Nodup) :
    r ∈ reach queues (before ++ r :: after) ↔ ∀ x ∈ before, queues x = [] := by
  induction before with
  | nil => simp [reach]
  | cons head rest ih =>
      rw [List.cons_append, List.nodup_cons] at distinct
      have different : r ≠ head := by
        rintro rfl
        exact distinct.1 (by simp)
      simp only [List.cons_append, reach, List.mem_cons, different, false_or]
      by_cases empty : queues head = []
      · simp [empty, ih distinct.2]
      · simp [empty]

theorem reach_congr {queues' : Queues ν ρ}
    (same : ∀ x ∈ required, queues x = [] ↔ queues' x = []) :
    reach queues required = reach queues' required := by
  induction required with
  | nil => rfl
  | cons head rest ih =>
      simp only [reach, same head List.mem_cons_self,
        ih (fun x member => same x (List.mem_cons_of_mem _ member))]

/-! ## Visiting -/

variable [DecidableEq ρ] {n m : ν}

/-- A participant joins the queue of every resource it reaches. -/
def visit (queues : Queues ν ρ) (n : ν) (required : List ρ) : Queues ν ρ :=
  fun r => if r ∈ reach queues required then queues r ++ [n] else queues r

/-- Participants join one after another. -/
def stand (need : ν → List ρ) (nodes : List ν) : Queues ν ρ :=
  nodes.foldl (fun queues n => visit queues n (need n)) (fun _ => [])

@[simp] theorem mem_visit : m ∈ visit queues n required r ↔
    m ∈ queues r ∨ m = n ∧ r ∈ reach queues required := by
  unfold visit
  split <;> simp_all

/-- The head of a queue is the one that was there, or the newcomer of an empty queue. -/
theorem head_visit : (visit queues n required r).head? =
    if queues r = [] ∧ r ∈ reach queues required then some n else (queues r).head? := by
  unfold visit
  by_cases reached : r ∈ reach queues required
  · cases queues r <;> simp [reached]
  · simp [reached]

theorem head_visit_of_ne (different : m ≠ n) :
    (visit queues n required r).head? = some m ↔ (queues r).head? = some m := by
  rw [head_visit]
  split
  · rename_i empty
    simp [empty.1, different.symm]
  · rfl

theorem head_visit_of_head (here : (queues r).head? = some m) :
    (visit queues n required r).head? = some m := by
  rw [head_visit, if_neg]
  · exact here
  · rintro ⟨empty, -⟩
    simp [empty] at here

theorem visit_nil : visit queues n [] = queues := by
  funext x
  simp [visit, reach]

theorem visit_singleton : visit queues n [r] =
    fun x => if x = r then queues x ++ [n] else queues x := by
  funext x
  simp [visit, reach]

/-- A free resource is taken, and the rest is visited from there. -/
theorem visit_cons_of_empty {rest : List ρ} (empty : queues r = []) (once : r ∉ rest) :
    visit queues n (r :: rest) = visit (visit queues n [r]) n rest := by
  have elsewhere : ∀ x, x ≠ r → visit queues n [r] x = queues x := by
    intro x different
    simp [visit_singleton, different]
  have sameReach : reach (visit queues n [r]) rest = reach queues rest := by
    refine reach_congr (fun x member => ?_)
    rw [elsewhere x (fun same => once (same ▸ member))]
  funext x
  change _ = if x ∈ reach (visit queues n [r]) rest then visit queues n [r] x ++ [n]
    else visit queues n [r] x
  rw [sameReach]
  by_cases here : x = r
  · subst here
    have notReached : x ∉ reach queues rest := fun member => once (mem_of_mem_reach member)
    simp [visit, reach, notReached]
  · simp [visit, reach, empty, here]

/-- At an occupied resource the visit ends. -/
theorem visit_cons_of_occupied {rest : List ρ} (occupied : queues r ≠ []) :
    visit queues n (r :: rest) = visit queues n [r] := by
  funext x
  simp [visit, reach, occupied]

/-! ## Going as far as possible -/

/-- A participant heads the queue of a resource that is not open. An open resource has lost its
owner and has not been taken by its first waiter yet. -/
def holds (queues : Queues ν ρ) (opened : List ρ) (n : ν) (r : ρ) : Prop :=
  (queues r).head? = some n ∧ r ∉ opened

/-- A participant has gone as far as it can: it stands at a resource exactly when it holds every
earlier one. -/
def Arrived (queues : Queues ν ρ) (opened : List ρ) (n : ν) (required : List ρ) : Prop :=
  ∀ before r after, required = before ++ r :: after →
    (n ∈ queues r ↔ ∀ x ∈ before, holds queues opened n x)

variable {opened : List ρ}

/-- Another participant's place does not depend on a newcomer. The open resources may change
where the other one does not head the queue. -/
theorem Arrived.visit_other {opened' : List ρ} (arrived : Arrived queues opened m required)
    (different : m ≠ n) (rest : List ρ)
    (same : ∀ r, (queues r).head? = some m → (r ∈ opened' ↔ r ∈ opened)) :
    Arrived (visit queues n rest) opened' m required := by
  intro before r after split
  have holdsIff : ∀ x, holds (visit queues n rest) opened' m x ↔ holds queues opened m x := by
    intro x
    unfold holds
    rw [head_visit_of_ne different]
    exact and_congr_right (fun head => not_congr (same x head))
  simp only [mem_visit, different, false_and, or_false, holdsIff]
  exact arrived before r after split

/-- A participant that holds the first part of its needs and stands nowhere in the rest goes on
as far as it can. -/
theorem Arrived.visit_self {first rest : List ρ} (distinct : (first ++ rest).Nodup)
    (holding : ∀ x ∈ first, holds queues opened n x) (absent : ∀ x ∈ rest, n ∉ queues x)
    (occupied : ∀ x ∈ opened, queues x ≠ []) :
    Arrived (visit queues n rest) opened n (first ++ rest) := by
  have restDistinct := distinct.of_append_right
  have stillHolding : ∀ x ∈ first, holds (visit queues n rest) opened n x := fun x member =>
    ⟨head_visit_of_head (holding x member).1, (holding x member).2⟩
  intro before r after split
  rcases List.append_eq_append_iff.mp split with ⟨middle, rfl, rfl⟩ | ⟨tail, rfl, tailSplit⟩
  · -- the resource is in the rest, after `middle`
    rw [mem_visit, mem_reach_iff restDistinct]
    have missing : n ∉ queues r := absent r (by simp)
    simp only [missing, false_or, true_and, List.mem_append]
    constructor
    · rintro empty x (early | late)
      · exact stillHolding x early
      · refine ⟨?_, fun isOpen => occupied x isOpen (empty x late)⟩
        obtain ⟨l, k, rfl⟩ := List.append_of_mem late
        have reached : x ∈ reach queues (l ++ x :: k ++ r :: after) := by
          rw [List.append_assoc, List.cons_append] at restDistinct ⊢
          exact (mem_reach_iff restDistinct).mpr (fun y member => empty y (by simp [member]))
        rw [head_visit, if_pos ⟨empty x late, reached⟩]
    · intro holding x late
      have head := (holding x (.inr late)).1
      rw [head_visit] at head
      split at head
      · rename_i empty
        exact empty.1
      · exact absurd (List.mem_of_head? head) (absent x (by simp [late]))
  · -- the resource is in the first part, or is the first of the rest
    cases tail with
    | nil =>
        simp only [List.nil_append] at tailSplit
        simp only [List.append_nil] at stillHolding
        refine iff_of_true ?_ stillHolding
        rw [← tailSplit, mem_visit]
        exact .inr ⟨rfl, by simp [reach]⟩
    | cons x tail =>
        rw [List.cons_append, List.cons.injEq] at tailSplit
        obtain ⟨rfl, -⟩ := tailSplit
        refine iff_of_true ?_ (fun y member => stillHolding y (by simp [member]))
        exact mem_visit.mpr (.inl (List.mem_of_head? (holding r (by simp)).1))

/-! ## Settled families -/

/-- A family of queues in which every participant has gone as far as it can. -/
structure Settled (need : ν → List ρ) (nodes : List ν) (opened : List ρ)
    (queues : Queues ν ρ) : Prop where
  within : ∀ r, ∀ n ∈ queues r, n ∈ nodes ∧ r ∈ need n
  arrived : ∀ n ∈ nodes, Arrived queues opened n (need n)

variable {need : ν → List ρ} {nodes : List ν}

/-- A new participant joins a settled family. -/
theorem Settled.join (settled : Settled need nodes [] queues) (fresh : n ∉ nodes)
    (distinct : (need n).Nodup) :
    Settled need (nodes ++ [n]) [] (visit queues n (need n)) := by
  constructor
  · intro r m member
    rcases mem_visit.mp member with old | ⟨rfl, reached⟩
    · exact ⟨List.mem_append_left _ (settled.within r m old).1, (settled.within r m old).2⟩
    · exact ⟨by simp, mem_of_mem_reach reached⟩
  · intro m member
    rcases List.mem_append.mp member with old | new
    · have different : m ≠ n := fun same => fresh (same ▸ old)
      exact (settled.arrived m old).visit_other different _ (fun _ _ => Iff.rfl)
    · obtain rfl := List.mem_singleton.mp new
      have early : ([] ++ need m).Nodup := distinct
      refine Arrived.visit_self early (by simp) ?_ (by simp)
      exact fun x _ inside => fresh (settled.within x m inside).1

omit [DecidableEq ρ] in
theorem settled_empty : Settled need [] [] (fun _ => []) :=
  ⟨fun _ _ member => absurd member List.not_mem_nil, fun _ member => absurd member List.not_mem_nil⟩

theorem stand_append_singleton (need : ν → List ρ) (nodes : List ν) (n : ν) :
    stand need (nodes ++ [n]) = visit (stand need nodes) n (need n) := by
  simp [stand]

/-- Nobody is in the way of the first participant, and nobody overtakes it. -/
theorem head_stand_first {rest : List ν} (needed : r ∈ need n) :
    (stand need (n :: rest) r).head? = some n := by
  have reached : ∀ required : List ρ, r ∈ required → r ∈ reach (fun _ => ([] : List ν)) required := by
    intro required member
    induction required with
    | nil => cases member
    | cons x xs ih =>
        rcases List.mem_cons.mp member with rfl | later
        · simp [reach]
        · exact List.mem_cons_of_mem _ (by simpa [reach] using ih later)
  have kept : ∀ (queues : Queues ν ρ), (queues r).head? = some n →
      ((rest.foldl (fun queues n => visit queues n (need n)) queues) r).head? = some n := by
    induction rest with
    | nil => exact fun queues here => here
    | cons m rest ih => exact fun queues here => ih _ (head_visit_of_head here)
  apply kept
  rw [head_visit, if_pos ⟨rfl, reached _ needed⟩]

theorem stand_settled (distinct : nodes.Nodup) (needs : ∀ n ∈ nodes, (need n).Nodup) :
    Settled need nodes [] (stand need nodes) := by
  induction nodes using List.reverseRecOn with
  | nil => exact settled_empty
  | append_singleton nodes n ih =>
      obtain ⟨earlier, -, apart⟩ := List.nodup_append.mp distinct
      rw [stand_append_singleton]
      refine (ih earlier (fun m member => needs m (by simp [member]))).join ?_ (needs n (by simp))
      exact fun member => apart n member n (by simp) rfl

/-! ## Order -/

variable {lt : ν → ν → Prop}

/-- Every queue is in the order of the participants. -/
def Ordered (lt : ν → ν → Prop) (queues : Queues ν ρ) : Prop :=
  ∀ r, (queues r).Pairwise lt

/-- The participants of a list go on in turn, and none joins a queue behind one that comes after
it. -/
def InOrder (lt : ν → ν → Prop) : Queues ν ρ → List (ν × List ρ) → Prop
  | _, [] => True
  | queues, (n, rest) :: later =>
      (∀ r ∈ reach queues rest, ∀ m ∈ queues r, lt m n) ∧ InOrder lt (visit queues n rest) later

theorem ordered_visit : Ordered lt (visit queues n required) ↔
    Ordered lt queues ∧ ∀ r ∈ reach queues required, ∀ m ∈ queues r, lt m n := by
  constructor
  · intro ordered
    refine ⟨fun r => ?_, fun r reached m member => ?_⟩
    · have whole := ordered r
      unfold visit at whole
      split at whole
      · exact (List.pairwise_append.mp whole).1
      · exact whole
    · have whole := ordered r
      rw [visit, if_pos reached] at whole
      exact (List.pairwise_append.mp whole).2.2 m member n (by simp)
  · rintro ⟨ordered, behind⟩ r
    unfold visit
    split
    · rename_i reached
      refine List.pairwise_append.mpr ⟨ordered r, List.pairwise_singleton _ _, ?_⟩
      intro m member last isLast
      rw [List.mem_singleton.mp isLast]
      exact behind r reached m member
    · exact ordered r

/-- Going on in turn keeps the order exactly when nobody joins behind one that comes after it. -/
theorem ordered_foldl_visit (moves : List (ν × List ρ)) :
    Ordered lt (moves.foldl (fun queues move => visit queues move.1 move.2) queues) ↔
      Ordered lt queues ∧ InOrder lt queues moves := by
  induction moves generalizing queues with
  | nil => simp [InOrder]
  | cons move moves ih => rw [List.foldl_cons, ih, ordered_visit, InOrder, and_assoc]

theorem stand_ordered (ordered : nodes.Pairwise lt) (distinct : nodes.Nodup)
    (needs : ∀ n ∈ nodes, (need n).Nodup) : Ordered lt (stand need nodes) := by
  induction nodes using List.reverseRecOn with
  | nil => exact fun _ => List.Pairwise.nil
  | append_singleton nodes n ih =>
      obtain ⟨earlier, -, before⟩ := List.pairwise_append.mp ordered
      have earlierDistinct := distinct.of_append_left
      have earlierNeeds : ∀ m ∈ nodes, (need m).Nodup := fun m member => needs m (by simp [member])
      rw [stand_append_singleton, ordered_visit]
      refine ⟨ih earlier earlierDistinct earlierNeeds, fun r _ m member => ?_⟩
      exact before m ((stand_settled earlierDistinct earlierNeeds).within r m member).1 n (by simp)

/-- A settled family in order is determined by the participants: where one stands depends only
on the heads of the queues of earlier resources. -/
theorem Settled.unique {rank : ρ → Nat} {queues' : Queues ν ρ} [IsStrictOrder ν lt]
    (ranked : ∀ n ∈ nodes, (need n).Pairwise (fun a b => rank a < rank b))
    (settled : Settled need nodes [] queues) (ordered : Ordered lt queues)
    (settled' : Settled need nodes [] queues') (ordered' : Ordered lt queues') :
    queues = queues' := by
  have agree : ∀ k r, rank r = k → queues r = queues' r := by
    intro k
    induction k using Nat.strongRecOn with
    | _ k ih =>
        rintro r rfl
        have same : ∀ n, n ∈ queues r ↔ n ∈ queues' r := by
          intro n
          by_cases inside : n ∈ nodes ∧ r ∈ need n
          · obtain ⟨before, after, split⟩ := List.append_of_mem inside.2
            rw [settled.arrived n inside.1 before r after split,
              settled'.arrived n inside.1 before r after split]
            have earlier : ∀ x ∈ before, queues x = queues' x := by
              intro x member
              have order := ranked n inside.1
              rw [split] at order
              exact ih (rank x) ((List.pairwise_append.mp order).2.2 x member r (by simp)) x rfl
            refine forall₂_congr (fun x member => ?_)
            unfold holds
            rw [earlier x member]
          · exact iff_of_false (fun member => inside (settled.within r n member))
              (fun member => inside (settled'.within r n member))
        have distinct : (queues r).Nodup := (ordered r).imp (fun h => ne_of_irrefl h)
        have distinct' : (queues' r).Nodup := (ordered' r).imp (fun h => ne_of_irrefl h)
        refine List.Perm.eq_of_pairwise ?_ (ordered r) (ordered' r)
          ((List.perm_ext_iff_of_nodup distinct distinct').mpr same)
        intro a b _ _ hab hba
        exact absurd hba (asymm hab)
  funext r
  exact agree _ r rfl

/-! ## Leaving and being promoted -/

/-- The first waiter of an open resource takes it and goes on. -/
theorem Settled.promote {rest : List ρ} (settled : Settled need nodes (r :: opened) queues)
    (waiter : (queues r).head? = some n) (distinct : (need n).Nodup)
    (once : r ∉ opened) (occupied : ∀ x ∈ opened, queues x ≠ [])
    {first : List ρ} (split : need n = first ++ r :: rest) :
    Settled need nodes opened (visit queues n rest) := by
  have member : n ∈ queues r := List.mem_of_head? waiter
  have inside := (settled.within r n member).1
  have holding := (settled.arrived n inside first r rest split).mp member
  constructor
  · intro x m here
    rcases mem_visit.mp here with old | ⟨rfl, reached⟩
    · exact settled.within x m old
    · exact ⟨inside, by rw [split]; simp [mem_of_mem_reach reached]⟩
  · intro m other
    by_cases different : m = n
    · subst different
      rw [split] at distinct ⊢
      have regroup : first ++ r :: rest = (first ++ [r]) ++ rest := by simp
      rw [regroup] at distinct ⊢
      refine Arrived.visit_self distinct ?_ ?_ occupied
      · intro x early
        rcases List.mem_append.mp early with before | last
        · exact ⟨(holding x before).1, fun isOpen =>
            (holding x before).2 (List.mem_cons_of_mem _ isOpen)⟩
        · obtain rfl := List.mem_singleton.mp last
          exact ⟨waiter, once⟩
      · -- the resource is open, so the waiter holds nothing beyond it
        intro x late here
        obtain ⟨middle, after, restSplit⟩ := List.append_of_mem late
        have beyond := (settled.arrived m inside (first ++ r :: middle) x after
          (by rw [split, restSplit]; simp)).mp here r (by simp)
        exact beyond.2 List.mem_cons_self
    · refine (settled.arrived m other).visit_other different rest ?_
      intro x head
      have elsewhere : x ≠ r := by
        rintro rfl
        exact different (Option.some.inj (head.symm.trans waiter))
      simp [elsewhere]

variable [DecidableEq ν]

instance (queues : Queues ν ρ) (opened : List ρ) (n : ν) (r : ρ) :
    Decidable (holds queues opened n r) :=
  inferInstanceAs (Decidable (_ ∧ _))

/-- The resources a participant holds: the longest prefix of its needs it heads. -/
def held (queues : Queues ν ρ) (opened : List ρ) (n : ν) (required : List ρ) : List ρ :=
  required.takeWhile (fun r => decide (holds queues opened n r))

theorem held_cons_of_holds {rest : List ρ} (here : holds queues opened n r) :
    held queues opened n (r :: rest) = r :: held queues opened n rest := by
  simp [held, here]

theorem held_cons_of_not_holds {rest : List ρ} (elsewhere : ¬ holds queues opened n r) :
    held queues opened n (r :: rest) = [] := by
  simp [held, elsewhere]

theorem held_append {first rest : List ρ} (holding : ∀ x ∈ first, holds queues opened n x) :
    held queues opened n (first ++ rest) = first ++ held queues opened n rest := by
  induction first with
  | nil => rfl
  | cons head first ih =>
      rw [List.cons_append, held_cons_of_holds (holding head List.mem_cons_self),
        ih (fun x member => holding x (List.mem_cons_of_mem _ member)), List.cons_append]

theorem held_congr {queues' : Queues ν ρ} {opened' : List ρ}
    (same : ∀ x, holds queues opened n x ↔ holds queues' opened' n x) :
    held queues opened n required = held queues' opened' n required := by
  simp only [held, same]

/-- What is held ends before the first resource that is not. -/
theorem held_split {before after : List ρ} (holding : ∀ x ∈ before, holds queues opened n x)
    (elsewhere : ¬ holds queues opened n r) :
    held queues opened n (before ++ r :: after) = before := by
  rw [held_append holding, held_cons_of_not_holds elsewhere, List.append_nil]

theorem holds_of_mem_held (member : r ∈ held queues opened n required) :
    holds queues opened n r := by
  simpa using List.mem_takeWhile_imp member

theorem held_prefix : held queues opened n required <+: required :=
  List.takeWhile_prefix _

/-- A participant that has gone as far as it can stands, without holding it, at the first
resource it does not hold. -/
theorem Arrived.waiting (arrived : Arrived queues opened n required)
    (next : required[(held queues opened n required).length]? = some r) :
    n ∈ queues r ∧ ¬ holds queues opened n r := by
  obtain ⟨rest, split⟩ : held queues opened n required <+: required := held_prefix
  have here : required = held queues opened n required ++ r :: rest.tail := by
    have first : rest[0]? = some r := by
      generalize held queues opened n required = taken at next split
      rwa [← split, List.getElem?_append_right (le_refl _), Nat.sub_self] at next
    cases rest with
    | nil => simp at first
    | cons head rest =>
        obtain rfl : head = r := by simpa using first
        exact split.symm
  refine ⟨(arrived _ r _ here).mpr (fun x member => holds_of_mem_held member), ?_⟩
  intro holding
  have longer : held queues opened n required = held queues opened n required ++ r ::
      held queues opened n rest.tail := by
    conv_lhs => rw [here]
    rw [held_append (fun x member => holds_of_mem_held member), held_cons_of_holds holding]
  have lengths := congrArg List.length longer
  simp at lengths

/-- A participant that stands at a resource without holding it waits there. -/
theorem Arrived.waits (arrived : Arrived queues opened n required) (needed : r ∈ required)
    (here : n ∈ queues r) (elsewhere : ¬ holds queues opened n r) :
    required[(held queues opened n required).length]? = some r := by
  obtain ⟨before, after, split⟩ := List.append_of_mem needed
  have holding := (arrived before r after split).mp here
  rw [split, held_split holding elsewhere]
  simp

/-- The queues without one participant. -/
def leave (queues : Queues ν ρ) (k : ν) : Queues ν ρ :=
  fun r => (queues r).filter (· ≠ k)

/-- The resources a leaving participant opens: those where somebody waits. -/
def openedBy (queues : Queues ν ρ) (k : ν) (required : List ρ) : List ρ :=
  required.filter (fun r => leave queues k r ≠ [])

section Departure

variable {k : ν} (settled : Settled need nodes [] queues)
  (owns : ∀ r ∈ need k, (queues r).head? = some k)

include settled

omit [DecidableEq ρ] in
theorem leave_of_not_needed (outside : r ∉ need k) : leave queues k r = queues r := by
  refine List.filter_eq_self.mpr (fun m member => ?_)
  have different : m ≠ k := fun same => outside (same ▸ (settled.within r m member).2)
  simpa using different

include owns

/-- What the others hold does not depend on the one who leaves. -/
theorem holds_leave (other : m ≠ k) :
    holds (leave queues k) (openedBy queues k (need k)) m r ↔ holds queues [] m r := by
  by_cases released : r ∈ need k
  · refine iff_of_false ?_ ?_
    · rintro ⟨head, closed⟩
      refine closed (List.mem_filter.mpr ⟨released, ?_⟩)
      simpa using List.ne_nil_of_mem (List.mem_of_head? head)
    · rintro ⟨head, -⟩
      exact other (Option.some.inj (head.symm.trans (owns r released)))
  · have closed : r ∉ openedBy queues k (need k) := fun isOpen =>
      released (List.mem_filter.mp isOpen).1
    unfold holds
    rw [leave_of_not_needed settled released]
    simp [closed]

/-- When a participant leaves everything it needs, the others are where they were, and its
resources are open. -/
theorem Settled.departure :
    Settled need (nodes.filter (· ≠ k)) (openedBy queues k (need k)) (leave queues k) := by
  constructor
  · intro r m member
    obtain ⟨here, different⟩ := List.mem_filter.mp member
    have old := settled.within r m here
    exact ⟨List.mem_filter.mpr ⟨old.1, different⟩, old.2⟩
  · intro m member
    obtain ⟨inside, different⟩ := List.mem_filter.mp member
    have other : m ≠ k := by simpa using different
    intro before r after split
    have stays : m ∈ leave queues k r ↔ m ∈ queues r := by
      simp [leave, other]
    rw [stays, settled.arrived m inside before r after split]
    exact forall₂_congr (fun x _ => (holds_leave settled owns other).symm)

end Departure

/-- What comes after a resource in a list of needs. -/
def needsAfter (r : ρ) (required : List ρ) : List ρ :=
  (required.dropWhile (· ≠ r)).tail

theorem needsAfter_split {before after : List ρ} (absent : r ∉ before) :
    needsAfter r (before ++ r :: after) = after := by
  have dropped : (before ++ r :: after).dropWhile (· ≠ r) = r :: after := by
    rw [List.dropWhile_append_of_pos]
    · simp
    · intro x member
      simpa using fun same : x = r => absent (same ▸ member)
  rw [needsAfter, dropped, List.tail_cons]

/-- The first waiters of open resources, with what they need beyond. -/
def promotions (need : ν → List ρ) (queues : Queues ν ρ) (opened : List ρ) : List (ν × List ρ) :=
  opened.filterMap (fun r => (queues r).head?.map (fun n => (n, needsAfter r (need n))))

omit [DecidableEq ν] in
theorem promotions_congr {queues' : Queues ν ρ}
    (same : ∀ r ∈ opened, (queues r).head? = (queues' r).head?) :
    promotions need queues opened = promotions need queues' opened := by
  refine List.filterMap_congr (fun r member => ?_)
  rw [same r member]

/-! ## Everybody stands once in a queue -/

omit [DecidableEq ν] in
theorem nodup_visit (once : ∀ r, (queues r).Nodup) (absent : ∀ x ∈ required, n ∉ queues x)
    (r : ρ) : (visit queues n required r).Nodup := by
  unfold visit
  split
  · rename_i reached
    rw [List.nodup_append]
    refine ⟨once r, List.nodup_singleton n, ?_⟩
    intro m member last isLast
    rw [List.mem_singleton.mp isLast]
    intro same
    exact absent r (mem_of_mem_reach reached) (same ▸ member)
  · exact once r

omit [DecidableEq ρ] [DecidableEq ν] in
/-- The first waiter of an open resource stands nowhere beyond it. -/
theorem Settled.absent_beyond {first rest : List ρ}
    (settled : Settled need nodes (r :: opened) queues) (inside : n ∈ nodes)
    (split : need n = first ++ r :: rest) : ∀ x ∈ rest, n ∉ queues x := by
  intro x late here
  obtain ⟨middle, after, restSplit⟩ := List.append_of_mem late
  have beyond := (settled.arrived n inside (first ++ r :: middle) x after
    (by rw [split, restSplit]; simp)).mp here r (by simp)
  exact beyond.2 List.mem_cons_self

omit [DecidableEq ν] in
/-- Promoting the first waiters leaves everybody at most once in a queue. -/
theorem nodup_promotions (needs : ∀ n ∈ nodes, (need n).Nodup) (openedOnce : opened.Nodup)
    (occupied : ∀ x ∈ opened, queues x ≠ []) (settled : Settled need nodes opened queues)
    (once : ∀ r, (queues r).Nodup) (r : ρ) :
    ((promotions need queues opened).foldl (fun queues move => visit queues move.1 move.2)
      queues r).Nodup := by
  induction opened generalizing queues with
  | nil => exact once r
  | cons x opened ih =>
      obtain ⟨apart, later⟩ := List.nodup_cons.mp openedOnce
      have laterOccupied : ∀ y ∈ opened, queues y ≠ [] := fun y member =>
        occupied y (List.mem_cons_of_mem _ member)
      obtain ⟨waiter, head⟩ : ∃ waiter, (queues x).head? = some waiter := by
        cases queue : queues x with
        | nil => exact absurd queue (occupied x List.mem_cons_self)
        | cons first others => exact ⟨first, rfl⟩
      obtain ⟨inside, needed⟩ := settled.within x waiter (List.mem_of_head? head)
      have distinct := needs waiter inside
      obtain ⟨first, rest, split⟩ := List.append_of_mem needed
      have beyond : needsAfter x (need waiter) = rest := by
        rw [split] at distinct ⊢
        apply needsAfter_split
        intro early
        exact (List.nodup_append.mp distinct).2.2 x early x (by simp) rfl
      have heads : ∀ y ∈ opened, (queues y).head? = (visit queues waiter rest y).head? := by
        intro y isOpen
        rw [head_visit, if_neg (fun both => laterOccupied y isOpen both.1)]
      have moves : promotions need queues (x :: opened) =
          (waiter, rest) :: promotions need (visit queues waiter rest) opened := by
        rw [← promotions_congr heads]
        simp [promotions, head, beyond]
      rw [moves, List.foldl_cons]
      apply ih later
      · intro y isOpen empty
        have keeps := heads y isOpen
        rw [empty] at keeps
        exact laterOccupied y isOpen (List.head?_eq_none_iff.mp keeps)
      · exact settled.promote head distinct apart laterOccupied split
      · exact nodup_visit once (settled.absent_beyond inside split)

omit [DecidableEq ν] in
/-- Going on in turn only adds participants at the ends of the queues. -/
theorem prefix_foldl_visit (moves : List (ν × List ρ)) (r : ρ) :
    queues r <+: moves.foldl (fun queues move => visit queues move.1 move.2) queues r := by
  induction moves generalizing queues with
  | nil => exact List.prefix_rfl
  | cons move moves ih =>
      have first : queues r <+: visit queues move.1 move.2 r := by
        unfold visit
        split
        · exact List.prefix_append _ _
        · exact List.prefix_rfl
      exact first.trans ih

/-! ## Somebody has everything it needs -/

omit [DecidableEq ρ] [DecidableEq ν] in
/-- The owner of a resource that somebody waits for waits only for later resources. -/
theorem Arrived.later_than_held {rank : ρ → Nat} (arrived : Arrived queues opened n required)
    (ranked : required.Pairwise (fun a b => rank a < rank b)) {x y : ρ} (needed : x ∈ required)
    (neededY : y ∈ required) (held : holds queues opened n x) (elsewhere : ¬ holds queues opened n y) :
    rank x < rank y := by
  obtain ⟨before, after, split⟩ := List.append_of_mem needed
  have earlier := (arrived before x after split).mp (List.mem_of_head? held.1)
  rw [split] at neededY ranked
  rcases List.mem_append.mp neededY with early | late
  · exact absurd (earlier y early) elsewhere
  · rcases List.mem_cons.mp late with rfl | behind
    · exact absurd held elsewhere
    · have tail := (List.pairwise_append.mp ranked).2.1
      exact (List.pairwise_cons.mp tail).1 y behind

/-- In a settled family not everybody waits: the owner of the last resource somebody waits for has
everything it needs. -/
theorem Settled.exists_holding_all {rank : ρ → Nat} (settled : Settled need nodes [] queues)
    (ranked : ∀ n ∈ nodes, (need n).Pairwise (fun a b => rank a < rank b)) (some_ : nodes ≠ []) :
    ∃ n ∈ nodes, ∀ r ∈ need n, holds queues [] n r := by
  by_contra everybodyWaits
  push Not at everybodyWaits
  -- where each participant waits
  have waits : ∀ n ∈ nodes, ∃ r, (need n)[(held queues [] n (need n)).length]? = some r := by
    intro n inside
    obtain ⟨r, needed, elsewhere⟩ := everybodyWaits n inside
    have shorter : (held queues [] n (need n)).length < (need n).length := by
      by_contra whole
      have all : held queues [] n (need n) = need n :=
        held_prefix.eq_of_length (Nat.le_antisymm held_prefix.length_le (by omega))
      exact elsewhere (holds_of_mem_held (all.symm ▸ needed))
    exact ⟨_, List.getElem?_eq_getElem shorter⟩
  let place (n : ν) : Nat := ((need n)[(held queues [] n (need n)).length]?).elim 0 rank
  have nonempty : nodes.toFinset.Nonempty := by
    obtain ⟨n, inside⟩ := List.exists_mem_of_ne_nil nodes some_
    exact ⟨n, List.mem_toFinset.mpr inside⟩
  obtain ⟨last, member, largest⟩ := nodes.toFinset.exists_max_image place nonempty
  have inside := List.mem_toFinset.mp member
  obtain ⟨r, waiting⟩ := waits last inside
  obtain ⟨here, -⟩ := (settled.arrived last inside).waiting waiting
  obtain ⟨owner, head⟩ : ∃ owner, (queues r).head? = some owner := by
    cases queue : queues r with
    | nil => simp [queue] at here
    | cons first others => exact ⟨first, rfl⟩
  obtain ⟨ownerInside, ownerNeeds⟩ := settled.within r owner (List.mem_of_head? head)
  obtain ⟨s, ownerWaiting⟩ := waits owner ownerInside
  have further : rank r < rank s :=
    (settled.arrived owner ownerInside).later_than_held (ranked owner ownerInside) ownerNeeds
      (List.mem_of_getElem? ownerWaiting) ⟨head, List.not_mem_nil⟩
      ((settled.arrived owner ownerInside).waiting ownerWaiting).2
  have bound := largest owner (List.mem_toFinset.mpr ownerInside)
  simp only [place, waiting, ownerWaiting, Option.elim_some] at bound
  omega

end OrderedQueues
