import MoteKernel.State.Text

/-!
# Composed identities

The identities of `state/graph_state/identity.py` that are built from others:
each is a concatenation of length-prefixed fields, so it names its parts.
-/

namespace MoteKernel
open LengthPrefix

/-! ## Decimal numerals -/

theorem toString_toList (n : Nat) : (toString n).toList = Nat.toDigits 10 n := by
  rw [Nat.toString_eq_repr, Nat.toList_repr]

theorem toString_injective : Function.Injective (fun n : Nat => toString n) := by
  intro m n same
  apply toDigits_injective
  rw [← toString_toList, ← toString_toList]
  exact congrArg String.toList same

/-- Decimal numerals, ended by a colon. -/
def decimals : Numerals Char where
  numeral := Nat.toDigits 10
  separator := ':'
  injective := toDigits_injective
  separated := by
    intro n member
    exact absurd (digit_of_mem_toDigits member) (by decide)

/-! ## Fields -/

theorem identityField_toList (value : String) :
    (identityField value).toList = field decimals value.toList := by
  simp [identityField, field, decimals, String.length_toList]

theorem join_toList (values : List String) :
    (String.join (values.map identityField)).toList = encode decimals (values.map String.toList) := by
  induction values with
  | nil => rfl
  | cons value values ih =>
      simp only [List.map_cons, String.join_cons, String.toList_append, encode, ih,
        identityField_toList]

/-- A concatenation of fields names the list of its values. -/
theorem join_injective {values others : List String}
    (same : String.join (values.map identityField) = String.join (others.map identityField)) :
    values = others := by
  have lists := encode_injective decimals
    ((join_toList values).symm.trans ((congrArg String.toList same).trans (join_toList others)))
  exact (List.map_injective_iff.mpr (fun _ _ h => String.toList_inj.mp h)) lists

/-! ## Canonical texts -/

/-- `value == value.strip()`: no space at either end. -/
theorem eq_strip_iff (value : String) :
    value = strip value ↔ (∀ c ∈ value.toList.head?, isPythonSpace c = false) ∧
      ∀ c ∈ value.toList.getLast?, isPythonSpace c = false := by
  rw [← String.toList_inj, strip, String.toList_ofList]
  exact eq_trim_iff isPythonSpace value.toList

theorem isCanonicalIdentity_iff (value : String) :
    isCanonicalIdentity value = true ↔ value.toList ≠ [] ∧
      (∀ c ∈ value.toList.head?, isPythonSpace c = false) ∧
      (∀ c ∈ value.toList.getLast?, isPythonSpace c = false) ∧
      '\n' ∉ value.toList ∧ '\r' ∉ value.toList := by
  simp only [isCanonicalIdentity, Bool.and_eq_true, bne_iff_ne, beq_iff_eq, Bool.not_eq_true',
    List.contains_eq_mem, decide_eq_false_iff_not, eq_strip_iff, and_assoc, ne_eq,
    ← String.toList_eq_nil_iff]

theorem digit_not_space {c : Char} (digit : c.isDigit = true) : isPythonSpace c = false := by
  simp only [Char.isDigit, Bool.and_eq_true, decide_eq_true_eq] at digit
  exact digit_not_isSpace (c := codePoint c) digit

/-- The code points of a Lean string are canonical when the string is. -/
theorem isCanonical_ofString (value : String) :
    isCanonical (ofString value) = isCanonicalIdentity value := by
  rw [Bool.eq_iff_iff, isCanonical_iff, isCanonicalIdentity_iff]
  have breaks : (∀ c ∈ ofString value, c.val ≠ 10 ∧ c.val ≠ 13) ↔
      '\n' ∉ value.toList ∧ '\r' ∉ value.toList := by
    refine ⟨fun lines => ⟨?_, ?_⟩, lines_of_ofString⟩
    · intro newline
      exact (lines _ (List.mem_map_of_mem newline)).1 rfl
    · intro carriageReturn
      exact (lines _ (List.mem_map_of_mem carriageReturn)).2 rfl
  rw [breaks, ofString, List.head?_map, List.getLast?_map]
  simp only [ne_eq, List.map_eq_nil_iff, Option.mem_def, Option.map_eq_some_iff,
    forall_exists_index, and_imp, forall_apply_eq_imp_iff₂]
  rfl

theorem ofString_toString (n : Nat) : ofString (toString n) = decimal n := by
  rw [ofString, toString_toList, decimal]

theorem ofString_join (values : List String) :
    ofString (String.join (values.map identityField)) = joinFields (values.map ofString) := by
  induction values with
  | nil => rfl
  | cons value values ih =>
      have head : ofString (identityField value) = Text.identityField (ofString value) := by
        simp only [identityField, ofString_append, ofString_toString, Text.identityField,
          length_ofString]
        rw [List.append_assoc]
        rfl
      rw [List.map_cons, String.join_cons, ofString_append, ih, head]
      rfl

/-! ## Interrupts and child runs -/

/-- `graph_interrupt_id` names all four coordinates. -/
theorem graphInterruptId_inj {runId otherRun : GraphRunId} {superstep otherStep : Nat}
    {nodeId otherNode : GraphNodeId} {generation otherGeneration : Nat} :
    graphInterruptId runId superstep nodeId generation =
        graphInterruptId otherRun otherStep otherNode otherGeneration ↔
      runId = otherRun ∧ superstep = otherStep ∧ nodeId = otherNode ∧
        generation = otherGeneration := by
  constructor
  · intro same
    have values := join_injective same
    simp only [List.cons.injEq, and_true, true_and] at values
    obtain ⟨run, step, node, sequence⟩ := values
    exact ⟨run, toString_injective step, node, toString_injective sequence⟩
  · rintro ⟨rfl, rfl, rfl, rfl⟩
    rfl

/-- `child_graph_run_id` names the parent activation. -/
theorem childGraphRunId_inj {runId otherRun : GraphRunId} {superstep otherStep : Nat}
    {nodeId otherNode : GraphNodeId} :
    childGraphRunId runId superstep nodeId = childGraphRunId otherRun otherStep otherNode ↔
      runId = otherRun ∧ superstep = otherStep ∧ nodeId = otherNode := by
  constructor
  · intro same
    have values := join_injective same
    simp only [List.cons.injEq, and_true, true_and] at values
    obtain ⟨run, step, node⟩ := values
    exact ⟨run, toString_injective step, node⟩
  · rintro ⟨rfl, rfl, rfl⟩
    rfl

/-- No child run is named like an interrupt. -/
theorem childGraphRunId_ne_graphInterruptId (runId otherRun : GraphRunId)
    (superstep otherStep : Nat) (nodeId otherNode : GraphNodeId) (generation : Nat) :
    childGraphRunId runId superstep nodeId ≠
      graphInterruptId otherRun otherStep otherNode generation := by
  intro same
  have values := join_injective same
  simp at values

theorem ofString_graphInterruptId (runId : GraphRunId) (superstep : Nat) (nodeId : GraphNodeId)
    (generation : Nat) : ofString (graphInterruptId runId superstep nodeId generation) =
      Text.graphInterruptId (ofString runId) superstep (ofString nodeId) generation := by
  rw [graphInterruptId, ofString_join]
  simp only [List.map_cons, List.map_nil, ofString_toString]
  rfl

theorem ofString_childGraphRunId (runId : GraphRunId) (superstep : Nat) (nodeId : GraphNodeId) :
    ofString (childGraphRunId runId superstep nodeId) =
      Text.childGraphRunId (ofString runId) superstep (ofString nodeId) := by
  rw [childGraphRunId, ofString_join]
  simp only [List.map_cons, List.map_nil, ofString_toString]
  rfl

theorem graphInterruptId_canonical {runId : GraphRunId} {nodeId : GraphNodeId}
    (run : isCanonicalIdentity runId = true) (node : isCanonicalIdentity nodeId = true)
    (superstep generation : Nat) :
    isCanonicalIdentity (graphInterruptId runId superstep nodeId generation) = true := by
  rw [← isCanonical_ofString] at run node ⊢
  rw [ofString_graphInterruptId]
  exact Text.graphInterruptId_canonical run node superstep generation

theorem childGraphRunId_canonical {runId : GraphRunId} {nodeId : GraphNodeId}
    (run : isCanonicalIdentity runId = true) (node : isCanonicalIdentity nodeId = true)
    (superstep : Nat) :
    isCanonicalIdentity (childGraphRunId runId superstep nodeId) = true := by
  rw [← isCanonical_ofString] at run node ⊢
  rw [ofString_childGraphRunId]
  exact Text.childGraphRunId_canonical run node superstep

/-- One run is the child of another, at some activation. -/
def ChildRun (parent child : GraphRunId) : Prop :=
  ∃ superstep nodeId, child = childGraphRunId parent superstep nodeId

theorem ChildRun.longer {parent child : GraphRunId} (nested : ChildRun parent child) :
    parent.toList.length < child.toList.length := by
  obtain ⟨superstep, nodeId, rfl⟩ := nested
  unfold childGraphRunId
  rw [join_toList]
  apply length_encode
  simp

/-- A run at any depth below another is longer than it, so it has another name. -/
theorem descendant_longer {ancestor run : GraphRunId}
    (nested : Relation.TransGen ChildRun ancestor run) :
    ancestor.toList.length < run.toList.length := by
  induction nested with
  | single child => exact child.longer
  | tail _ child ih => exact ih.trans child.longer

end MoteKernel
