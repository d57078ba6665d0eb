import Mathlib.Data.Fintype.Card
import Mathlib.Data.List.Chain
import Mathlib.Data.List.Nodup
import Mathlib.Logic.Relation
import Mathlib.Order.WellFounded
import Mathlib.Data.Set.Finite.Basic

/-!
# Finite directed graphs

A graph is given by the successors of every node. A finite set of nodes that each
have a successor inside the set contains a cycle, and a walk that avoids every
cycle visits no node twice, so it is shorter than the number of nodes.
-/

namespace Digraph

variable {α : Type} {successors : α → List α}

/-- There is an edge between the nodes. -/
def Adjacent (successors : α → List α) (source target : α) : Prop := target ∈ successors source

/-- The node lies on a cycle. -/
def OnCycle (successors : α → List α) (node : α) : Prop :=
  Relation.TransGen (Adjacent successors) node node

/-- A cycle through one of the nodes leads to the node. -/
def AfterCycle (nodes : List α) (successors : α → List α) (node : α) : Prop :=
  ∃ start ∈ nodes, OnCycle successors start ∧
    Relation.ReflTransGen (Adjacent successors) start node

theorem AfterCycle.step {nodes : List α} {source target : α}
    (after : AfterCycle nodes successors source) (edge : Adjacent successors source target) :
    AfterCycle nodes successors target := by
  obtain ⟨start, known, cyclic, path⟩ := after
  exact ⟨start, known, cyclic, path.tail edge⟩

/-- A nonempty finite set whose nodes all have a successor inside it contains a cycle. -/
theorem exists_onCycle {nodes : List α} (nonempty : nodes ≠ [])
    (continues : ∀ node ∈ nodes, ∃ next ∈ nodes, Adjacent successors node next) :
    ∃ node ∈ nodes, OnCycle successors node := by
  by_contra acyclic
  let inside : {x // x ∈ nodes} → {x // x ∈ nodes} → Prop :=
    fun a b => Relation.TransGen (Adjacent successors) b.1 a.1
  have transitive : IsTrans _ inside := ⟨fun _ _ _ first second => second.trans first⟩
  have irreflexive : Std.Irrefl inside := ⟨fun a cyclic => acyclic ⟨a.1, a.2, cyclic⟩⟩
  have finite : Finite {x // x ∈ nodes} := Set.Finite.to_subtype (List.finite_toSet nodes)
  have wellFounded : WellFounded inside := Finite.wellFounded_of_trans_of_irrefl inside
  obtain ⟨first, member⟩ := List.exists_mem_of_ne_nil nodes nonempty
  obtain ⟨last, -, least⟩ := wellFounded.has_min Set.univ ⟨⟨first, member⟩, trivial⟩
  obtain ⟨next, known, edge⟩ := continues last.1 last.2
  exact least ⟨next, known⟩ trivial (.single edge)

/-- A walk that meets no cycle visits no node twice. -/
theorem walk_nodup {walk : List α} (chain : walk.IsChain (Adjacent successors))
    (acyclic : ∀ node ∈ walk, ¬ OnCycle successors node) : walk.Nodup := by
  have ordered : walk.Pairwise (Relation.TransGen (Adjacent successors)) :=
    (chain.imp (fun _ _ edge => Relation.TransGen.single edge)).pairwise
  refine ordered.imp_of_mem ?_
  intro a b memberA _ path same
  subst same
  exact acyclic a memberA path

/-- A walk among finitely many nodes that meets no cycle is no longer than their number. -/
theorem walk_length {walk nodes : List α} (chain : walk.IsChain (Adjacent successors))
    (acyclic : ∀ node ∈ walk, ¬ OnCycle successors node) (known : walk ⊆ nodes) :
    walk.length ≤ nodes.length :=
  (walk_nodup chain acyclic).length_le_of_subset known

end Digraph
