import Mathlib.Data.Finset.Sort
import MoteKernel.Lib.Bdd
import MoteKernel.Lib.Dict
import MoteKernel.Lib.Loop

/-!
# The diagram manager

`_Bdd` of `execution/graph/frontier_proof.py`: a table of shared nodes, the dictionary that
keeps them unique, one cache for each operation, and the operations as the loops
over explicit work stacks that the source has. A reference is a position in the
table; 0 and 1 are the two leaves.

A loop is given `fuel` turns. A call is `none` when some loop is still going
after them, or when the source would raise for a missing key. The top of a work
stack is the head of its list.
-/

namespace MoteKernel.BddManager
open DecisionTree (Operation)

structure BddNode where
  index : Nat
  low : Nat
  high : Nat
  deriving DecidableEq, Repr

/-- The state of a `_Bdd`. -/
structure Manager where create ::
  nodes : List (Option BddNode) := [none, none]
  unique : Dict (Nat × Nat × Nat) Nat := .empty
  applyCache : Dict (Operation × Nat × Nat) Nat := .empty
  notCache : Dict Nat Nat := .empty
  existsCache : Dict (Nat × Finset Nat) Nat := .empty
  renameCache : Dict (Nat × List (Nat × Nat)) Nat := .empty
  nextVariable : Nat := 0

namespace Manager

def node (manager : Manager) (reference : Nat) : Option BddNode :=
  (manager.nodes[reference]?).join

/-- `_mk`. -/
def mk (manager : Manager) (index low high : Nat) : Manager × Nat :=
  if low = high then
    (manager, low)
  else
    match manager.unique.get? (index, low, high) with
    | some existing => (manager, existing)
    | none =>
        let reference := manager.nodes.length
        ({ manager with
            nodes := manager.nodes ++ [some ⟨index, low, high⟩]
            unique := manager.unique.set (index, low, high) reference },
          reference)

def variable_ (manager : Manager) : Manager × Nat :=
  mk { manager with nextVariable := manager.nextVariable + 1 } manager.nextVariable 0 1

/-- `_cofactor`. -/
def cofactor (manager : Manager) (reference index : Nat) : Nat × Nat :=
  match manager.node reference with
  | some node => if node.index = index then (node.low, node.high) else (reference, reference)
  | none => (reference, reference)

/-! ## `apply` -/

/-- `_apply_terminal`. -/
def applyTerminal (operation : Operation) (first second : Nat) : Option Nat :=
  match operation with
  | .and => if first = 0 ∨ second = 0 then some 0 else if first = 1 then some second
      else if second = 1 ∨ first = second then some first else none
  | .or => if first = 1 ∨ second = 1 then some 1 else if first = 0 then some second
      else if second = 0 ∨ first = second then some first else none
  | .xor => if first = 0 then some second else if first = second then some 0 else none

/-- `min(variables)` over the nodes that are not leaves, and nothing for two leaves. -/
def topIndex (manager : Manager) (first second : Nat) : Option Nat :=
  match manager.node first, manager.node second with
  | some a, some b => some (min a.index b.index)
  | some a, none => some a.index
  | none, some b => some b.index
  | none, none => none

/-- The key of a pair: the operations are commutative. -/
def applyKey (operation : Operation) (first second : Nat) : Operation × Nat × Nat :=
  (operation, min first second, max first second)

abbrev ApplyState := Manager × List (Nat × Nat × Bool)

/-- One turn of the loop of `apply`. -/
def applyTurn (operation : Operation) : ApplyState → ApplyState ⊕ Option Manager
  | (manager, []) => .inr (some manager)
  | (manager, (a, b, expanded) :: pending) =>
      let first := min a b
      let second := max a b
      let key := applyKey operation first second
      if key ∈ manager.applyCache.keys then
        .inl (manager, pending)
      else
        match applyTerminal operation first second with
        | some terminal =>
            .inl ({ manager with applyCache := manager.applyCache.set key terminal }, pending)
        | none =>
            match manager.topIndex first second with
            | none => .inr none
            | some index =>
                let (firstLow, firstHigh) := manager.cofactor first index
                let (secondLow, secondHigh) := manager.cofactor second index
                if expanded then
                  match manager.applyCache.get? (applyKey operation firstLow secondLow),
                      manager.applyCache.get? (applyKey operation firstHigh secondHigh) with
                  | some low, some high =>
                      let (made, reference) := manager.mk index low high
                      .inl ({ made with applyCache := made.applyCache.set key reference }, pending)
                  | _, _ => .inr none
                else
                  .inl (manager, (firstLow, secondLow, false) :: (firstHigh, secondHigh, false) ::
                    (first, second, true) :: pending)

def apply (fuel : Nat) (manager : Manager) (operation : Operation) (a b : Nat) :
    Option (Manager × Nat) :=
  let key := applyKey operation a b
  match manager.applyCache.get? key with
  | some cached => some (manager, cached)
  | none => do
      let done ← Loop.run (applyTurn operation) fuel (manager, [(min a b, max a b, false)])
      let manager ← done
      let reference ← manager.applyCache.get? key
      pure (manager, reference)

/-! ## Traversals

`negate`, `exists` and `rename` visit the nodes below a reference, children
first, with the results of this call in `values`. They differ in their cache, in
the values of the leaves and in what they make of a node. -/

structure Traversal where
  cached : Manager → Nat → Option Nat
  record : Manager → Nat → Nat → Manager
  leaves : Dict Nat Nat
  /-- The result at a node from the results at its branches. -/
  combine : Nat → Manager → BddNode → Nat → Nat → Option (Manager × Nat)

structure TraversalState where
  manager : Manager
  values : Dict Nat Nat
  pending : List (Nat × Bool)

def traverseTurn (fuel : Nat) (traversal : Traversal) (state : TraversalState) :
    TraversalState ⊕ Option (Manager × Dict Nat Nat) :=
  match state.pending with
  | [] => .inr (some (state.manager, state.values))
  | (current, expanded) :: pending =>
      if current ∈ state.values.keys then
        .inl { state with pending }
      else
        match traversal.cached state.manager current with
        | some cached =>
            .inl { state with values := state.values.set current cached, pending }
        | none =>
            match state.manager.node current with
            | none => .inr none
            | some node =>
                if expanded then
                  let made := do
                    let low ← state.values.get? node.low
                    let high ← state.values.get? node.high
                    traversal.combine fuel state.manager node low high
                  match made with
                  | none => .inr none
                  | some (manager, result) =>
                      .inl
                        { manager := traversal.record manager current result
                          values := state.values.set current result
                          pending }
                else
                  .inl { state with
                    pending := (node.low, false) :: (node.high, false) :: (current, true) :: pending }

def traverse (fuel : Nat) (traversal : Traversal) (manager : Manager) (reference : Nat) :
    Option (Manager × Nat) :=
  match traversal.cached manager reference with
  | some cached => some (manager, cached)
  | none => do
      let done ← Loop.run (traverseTurn fuel traversal) fuel
        ⟨manager, traversal.leaves, [(reference, false)]⟩
      let (manager, values) ← done
      let result ← values.get? reference
      pure (manager, result)

def negation : Traversal where
  cached manager reference := manager.notCache.get? reference
  record manager reference result :=
    { manager with notCache := manager.notCache.set reference result }
  leaves := (Dict.empty.set 0 1).set 1 0
  combine _ manager node low high := some (manager.mk node.index low high)

def negate (fuel : Nat) (manager : Manager) (reference : Nat) : Option (Manager × Nat) :=
  traverse fuel negation manager reference

def quantification (hidden : Finset Nat) : Traversal where
  cached manager reference := manager.existsCache.get? (reference, hidden)
  record manager reference result :=
    { manager with existsCache := manager.existsCache.set (reference, hidden) result }
  leaves := (Dict.empty.set 0 0).set 1 1
  combine fuel manager node low high :=
    if node.index ∈ hidden then
      manager.apply fuel .or low high
    else
      some (manager.mk node.index low high)

def exists_ (fuel : Nat) (manager : Manager) (reference : Nat) (hidden : Finset Nat) :
    Option (Manager × Nat) :=
  if reference < 2 ∨ hidden = ∅ then
    some (manager, reference)
  else
    traverse fuel (quantification hidden) manager reference

def ite (fuel : Nat) (manager : Manager) (condition whenTrue whenFalse : Nat) :
    Option (Manager × Nat) := do
  let (manager, positive) ← manager.apply fuel .and condition whenTrue
  let (manager, negated) ← manager.negate fuel condition
  let (manager, negative) ← manager.apply fuel .and negated whenFalse
  manager.apply fuel .or positive negative

/-- `mapping.get(index, index)`. -/
def renamed (mapping : Dict Nat Nat) (index : Nat) : Nat := (mapping.get? index).getD index

def substitution (mapping : Dict Nat Nat) : Traversal where
  cached manager reference := manager.renameCache.get? (reference, mapping.frozen.items)
  record manager reference result :=
    { manager with
      renameCache := manager.renameCache.set (reference, mapping.frozen.items) result }
  leaves := (Dict.empty.set 0 0).set 1 1
  combine fuel manager node low high :=
    let (manager, literal) := manager.mk (renamed mapping node.index) 0 1
    manager.ite fuel literal high low

def rename (fuel : Nat) (manager : Manager) (reference : Nat) (mapping : Dict Nat Nat) :
    Option (Manager × Nat) :=
  if reference < 2 ∨ mapping.items = [] then
    some (manager, reference)
  else
    traverse fuel (substitution mapping) manager reference

end Manager

end MoteKernel.BddManager
