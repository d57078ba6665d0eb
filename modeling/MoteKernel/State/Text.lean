import MoteKernel.Lib.LengthPrefix
import MoteKernel.Lib.Utf16
import MoteKernel.State.Identity

/-!
# Texts

A Python string is a list of code points, and a surrogate may stand in it on its
own: `is_canonical_identity` accepts such a string, but it has no UTF-8 encoding.
`Char` leaves the surrogates out, so what depends on them is stated here over
lists of code points, with the composed identities of
`state/graph_state/identity.py`: each is a concatenation of length-prefixed fields.
-/

namespace MoteKernel
open LengthPrefix Utf16

/-- A Python string. -/
abbrev Text := List CodePoint

/-- The code points `str.strip()` removes. -/
def isSpace (n : Nat) : Bool :=
  (9 ≤ n && n ≤ 13) || (28 ≤ n && n ≤ 32) || n == 0x85 || n == 0xA0 || n == 0x1680 ||
    (0x2000 ≤ n && n ≤ 0x200A) || n == 0x2028 || n == 0x2029 || n == 0x202F || n == 0x205F ||
    n == 0x3000

/-- `value.strip()`. -/
def stripText (text : Text) : Text :=
  ((text.dropWhile (isSpace ·.val)).reverse.dropWhile (isSpace ·.val)).reverse

/-- `value and value == value.strip()`. -/
def isTrimmed (text : Text) : Bool :=
  text != [] && text == stripText text

/-- `is_canonical_identity`. -/
def isCanonical (text : Text) : Bool :=
  isTrimmed text && !text.any (·.val == 10) && !text.any (·.val == 13)

/-! ## UTF-8 -/

def isSurrogate (c : CodePoint) : Bool := isHigh c.val || isLow c.val

/-- The text has a UTF-8 encoding. -/
def encodable (text : Text) : Bool := !text.any isSurrogate

/-- The bytes a code point takes. -/
def utf8Width (c : CodePoint) : Nat :=
  if c.val < 0x80 then 1 else if c.val < 0x800 then 2 else if c.val < 0x10000 then 3 else 4

def utf8Size (text : Text) : Nat := (text.map utf8Width).sum

/-- `len(text.encode("utf-8"))`; `none` is the `UnicodeEncodeError`. -/
def utf8Length (text : Text) : Option Nat :=
  if encodable text then some (utf8Size text) else none

@[simp] theorem encodable_nil : encodable [] = true := rfl

@[simp] theorem encodable_cons (c : CodePoint) (text : Text) :
    encodable (c :: text) = (!isSurrogate c && encodable text) := by
  rw [encodable, List.any_cons, Bool.not_or, encodable]

@[simp] theorem encodable_append (text other : Text) :
    encodable (text ++ other) = (encodable text && encodable other) := by
  rw [encodable, List.any_append, Bool.not_or, encodable, encodable]

@[simp] theorem utf8Size_nil : utf8Size [] = 0 := rfl

@[simp] theorem utf8Size_cons (c : CodePoint) (text : Text) :
    utf8Size (c :: text) = utf8Width c + utf8Size text := by
  rw [utf8Size, List.map_cons, List.sum_cons, utf8Size]

@[simp] theorem utf8Size_append (text other : Text) :
    utf8Size (text ++ other) = utf8Size text + utf8Size other := by
  rw [utf8Size, List.map_append, List.sum_append, utf8Size, utf8Size]

theorem utf8Length_eq_some (text : Text) (length : Nat) :
    utf8Length text = some length ↔ encodable text = true ∧ utf8Size text = length := by
  unfold utf8Length
  cases encodable text <;> simp

/-! ## Texts without surrogates -/

/-- The code point of a character. -/
def codePoint (c : Char) : CodePoint :=
  ⟨c.toNat, by
    rcases c.valid with low | ⟨-, high⟩
    · exact Nat.lt_trans low (by decide)
    · exact high⟩

theorem codePoint_injective : Function.Injective codePoint := by
  intro c d same
  have values : (codePoint c).val = (codePoint d).val := by rw [same]
  exact Char.toNat_inj.mp values

/-- A Lean string as a text. -/
def ofString (value : String) : Text := value.toList.map codePoint

theorem ofString_injective : Function.Injective ofString := by
  intro value other same
  exact String.toList_inj.mp (List.map_injective_iff.mpr codePoint_injective same)

@[simp] theorem ofString_append (value other : String) :
    ofString (value ++ other) = ofString value ++ ofString other := by
  rw [ofString, String.toList_append, List.map_append, ofString, ofString]

@[simp] theorem length_ofString (value : String) : (ofString value).length = value.length := by
  rw [ofString, List.length_map, String.length_toList]

/-- `str(n)`. -/
def decimal (n : Nat) : Text := (Nat.toDigits 10 n).map codePoint

theorem decimal_injective : Function.Injective decimal := by
  intro m n same
  exact toDigits_injective (List.map_injective_iff.mpr codePoint_injective same)

theorem digit_of_mem_decimal {n : Nat} {c : CodePoint} (member : c ∈ decimal n) :
    48 ≤ c.val ∧ c.val ≤ 57 := by
  obtain ⟨digit, inside, rfl⟩ := List.mem_map.mp member
  have isDigit := digit_of_mem_toDigits inside
  simp only [Char.isDigit, Bool.and_eq_true, decide_eq_true_eq] at isDigit
  exact isDigit

/-- A decimal numeral takes one byte for each digit. -/
theorem utf8Size_decimal (n : Nat) : utf8Size (decimal n) = (decimal n).length := by
  have ascii : ∀ digits : Text, (∀ c ∈ digits, 48 ≤ c.val ∧ c.val ≤ 57) →
      utf8Size digits = digits.length := by
    intro digits
    induction digits with
    | nil => exact fun _ => rfl
    | cons c digits ih =>
        intro each
        have digit := each c List.mem_cons_self
        have one : utf8Width c = 1 := if_pos (by omega)
        rw [utf8Size_cons, one, ih (fun d member => each d (List.mem_cons_of_mem _ member)),
          List.length_cons, Nat.add_comm]
  exact ascii _ (fun c member => digit_of_mem_decimal member)

theorem decimal_ne_nil (n : Nat) : decimal n ≠ [] := by
  rw [decimal, ne_eq, List.map_eq_nil_iff]
  exact Nat.toDigits_ne_nil

/-- Decimal numerals, ended by a colon. -/
def textDecimals : Numerals CodePoint where
  numeral := decimal
  separator := codePoint ':'
  injective := decimal_injective
  separated := by
    intro n member
    exact absurd (digit_of_mem_decimal member).2 (by decide)

/-! ## Composed identities -/

/-- `_identity_field`. -/
def Text.identityField (value : Text) : Text :=
  decimal value.length ++ codePoint ':' :: value

/-- `"".join(_identity_field(value) for value in values)`. -/
def joinFields (values : List Text) : Text := values.flatMap Text.identityField

/-- `graph_interrupt_id`. -/
def Text.graphInterruptId (runId : Text) (superstep : Nat) (nodeId : Text)
    (executionGeneration : Nat) : Text :=
  joinFields [ofString "mote.graph-node-interrupt.v1", runId, decimal superstep, nodeId,
    decimal executionGeneration]

/-- `child_graph_run_id`. -/
def Text.childGraphRunId (parentRunId : Text) (parentSuperstep : Nat) (parentNodeId : Text) :
    Text :=
  joinFields [ofString "mote.child-graph-run.v1", parentRunId, decimal parentSuperstep,
    parentNodeId]

theorem encodable_decimal (n : Nat) : encodable (decimal n) = true := by
  rw [encodable, Bool.not_eq_true', List.any_eq_false]
  intro c member
  have digit := digit_of_mem_decimal member
  simp only [isSurrogate, isHigh, isLow, Bool.or_eq_true, Bool.and_eq_true, decide_eq_true_eq]
  omega

@[simp] theorem encodable_ofString (value : String) : encodable (ofString value) = true := by
  rw [encodable, Bool.not_eq_true', List.any_eq_false]
  intro c member
  obtain ⟨d, -, rfl⟩ := List.mem_map.mp member
  have scalar : d.toNat < 0xD800 ∨ 0xDFFF < d.toNat := d.valid.imp_right And.left
  have value : (codePoint d).val = d.toNat := rfl
  simp only [isSurrogate, isHigh, isLow, value, Bool.or_eq_true, Bool.and_eq_true,
    decide_eq_true_eq]
  omega

/-- A concatenation of fields can be encoded when every value can. -/
theorem encodable_joinFields (values : List Text) :
    encodable (joinFields values) = values.all encodable := by
  have colon : isSurrogate (codePoint ':') = false := by decide
  induction values with
  | nil => rfl
  | cons value values ih =>
      rw [joinFields, List.flatMap_cons, encodable_append, ← joinFields, ih, List.all_cons,
        Text.identityField, encodable_append, encodable_decimal, encodable_cons, colon]
      rfl

theorem joinFields_eq (values : List Text) : joinFields values = encode textDecimals values := by
  induction values with
  | nil => rfl
  | cons value values ih => rw [joinFields, List.flatMap_cons, encode, ← ih]; rfl

/-- A concatenation of fields names the list of its values. -/
theorem joinFields_injective : Function.Injective joinFields := by
  intro values others same
  rw [joinFields_eq, joinFields_eq] at same
  exact encode_injective textDecimals same

theorem Text.graphInterruptId_inj {runId otherRun nodeId otherNode : Text}
    {superstep otherStep generation otherGeneration : Nat} :
    Text.graphInterruptId runId superstep nodeId generation =
        Text.graphInterruptId otherRun otherStep otherNode otherGeneration ↔
      runId = otherRun ∧ superstep = otherStep ∧ nodeId = otherNode ∧
        generation = otherGeneration := by
  rw [Text.graphInterruptId, Text.graphInterruptId, joinFields_injective.eq_iff]
  simp only [List.cons.injEq, decimal_injective.eq_iff, and_true, true_and]

/-! ## Canonical texts -/

theorem dropWhile_eq_self_iff_head {α : Type} {p : α → Bool} {text : List α} :
    text.dropWhile p = text ↔ ∀ c ∈ text.head?, p c = false := by
  cases text with
  | nil => simp
  | cons c text =>
      simp only [List.dropWhile_cons, List.head?_cons, Option.mem_def, Option.some.injEq,
        forall_eq']
      cases hit : p c with
      | false => simp
      | true =>
          simp only [if_true, reduceCtorEq, iff_false]
          intro same
          have shorter := (List.dropWhile_suffix (l := text) p).length_le
          rw [same, List.length_cons] at shorter
          omega

/-- A list trimmed at both ends is itself when neither end has anything to trim. -/
theorem eq_trim_iff {α : Type} (p : α → Bool) (xs : List α) :
    xs = ((xs.dropWhile p).reverse.dropWhile p).reverse ↔ (∀ x ∈ xs.head?, p x = false) ∧
      ∀ x ∈ xs.getLast?, p x = false := by
  rw [← dropWhile_eq_self_iff_head, ← List.head?_reverse, ← dropWhile_eq_self_iff_head]
  constructor
  · intro same
    have shorter := (List.dropWhile_suffix (l := xs) p).length_le
    have again := (List.dropWhile_suffix (l := (xs.dropWhile p).reverse) p).length_le
    have lengths := congrArg List.length same
    simp only [List.length_reverse] at lengths again
    have front : xs.dropWhile p = xs := (List.dropWhile_suffix p).eq_of_length (by omega)
    rw [front] at same
    exact ⟨front, List.reverse_inj.mp (by rw [List.reverse_reverse]; exact same.symm)⟩
  · intro ⟨front, back⟩
    rw [front, back, List.reverse_reverse]

theorem isCanonical_iff (text : Text) : isCanonical text = true ↔ text ≠ [] ∧
    (∀ c ∈ text.head?, isSpace c.val = false) ∧ (∀ c ∈ text.getLast?, isSpace c.val = false) ∧
    ∀ c ∈ text, c.val ≠ 10 ∧ c.val ≠ 13 := by
  simp only [isCanonical, isTrimmed, stripText, Bool.and_eq_true, bne_iff_ne, beq_iff_eq,
    eq_trim_iff, Bool.not_eq_true', List.any_eq_false, and_assoc, ne_eq, forall_and]

theorem digit_not_isSpace {c : CodePoint} (digit : 48 ≤ c.val ∧ c.val ≤ 57) :
    isSpace c.val = false := by
  simp only [isSpace, Bool.or_eq_false_iff, Bool.and_eq_false_iff, decide_eq_false_iff_not,
    beq_eq_false_iff_ne]
  omega

/-- Fields of texts without line breaks form a canonical identity when the last of them does
not end in a space. -/
theorem joinFields_canonical {values : List Text} {last : Text}
    (lines : ∀ value ∈ values ++ [last], ∀ c ∈ value, c.val ≠ 10 ∧ c.val ≠ 13)
    (nonempty : last ≠ []) (ends : ∀ c ∈ last.getLast?, isSpace c.val = false) :
    isCanonical (joinFields (values ++ [last])) = true := by
  rw [isCanonical_iff, joinFields_eq]
  refine ⟨?_, ?_, ?_, ?_⟩
  · intro empty
    have same := getLast_encode textDecimals values nonempty
    rw [empty, List.getLast?_nil, eq_comm, List.getLast?_eq_none_iff] at same
    exact nonempty same
  · -- The text starts with a digit of the first length.
    have first : ∀ texts : List Text, ∀ c ∈ (encode textDecimals texts).head?,
        48 ≤ c.val ∧ c.val ≤ 57 := by
      intro texts c head
      cases texts with
      | nil => simp [encode] at head
      | cons text texts =>
          obtain ⟨digit, digits, numeral⟩ := List.exists_cons_of_ne_nil (decimal_ne_nil text.length)
          have shape : textDecimals.numeral text.length = digit :: digits := numeral
          have found : c = digit := by
            rw [encode, field, shape] at head
            simpa [eq_comm] using head
          rw [found]
          exact digit_of_mem_decimal (numeral ▸ List.mem_cons_self)
    intro c head
    exact digit_not_isSpace (first _ c head)
  · intro c end'
    rw [getLast_encode textDecimals _ nonempty] at end'
    exact ends c end'
  · intro c member
    rcases mem_encode textDecimals member with ⟨n, digit⟩ | separator | ⟨value, inside, here⟩
    · have isDigit := digit_of_mem_decimal digit
      omega
    · rw [separator]
      decide
    · exact lines value inside c here

theorem lines_of_isCanonical {text : Text} (canonical : isCanonical text = true) :
    ∀ c ∈ text, c.val ≠ 10 ∧ c.val ≠ 13 := by
  obtain ⟨-, -, -, lines⟩ := (isCanonical_iff text).mp canonical
  exact lines

theorem lines_of_ofString {value : String}
    (lines : '\n' ∉ value.toList ∧ '\r' ∉ value.toList) :
    ∀ c ∈ ofString value, c.val ≠ 10 ∧ c.val ≠ 13 := by
  intro c member
  obtain ⟨d, inside, rfl⟩ := List.mem_map.mp member
  refine ⟨?_, ?_⟩
  · intro newline
    have same : d = '\n' := Char.toNat_inj.mp newline
    exact lines.1 (same ▸ inside)
  · intro carriageReturn
    have same : d = '\r' := Char.toNat_inj.mp carriageReturn
    exact lines.2 (same ▸ inside)

theorem lines_of_decimal (n : Nat) : ∀ c ∈ decimal n, c.val ≠ 10 ∧ c.val ≠ 13 := by
  intro c member
  have digit := digit_of_mem_decimal member
  omega

theorem Text.graphInterruptId_canonical {runId nodeId : Text} (run : isCanonical runId = true)
    (node : isCanonical nodeId = true) (superstep generation : Nat) :
    isCanonical (Text.graphInterruptId runId superstep nodeId generation) = true := by
  have clean : ∀ value ∈ [ofString "mote.graph-node-interrupt.v1", runId, decimal superstep,
      nodeId] ++ [decimal generation], ∀ c ∈ value, c.val ≠ 10 ∧ c.val ≠ 13 := by
    simp only [List.cons_append, List.nil_append, List.forall_mem_cons]
    exact ⟨lines_of_ofString (by decide), lines_of_isCanonical run, lines_of_decimal superstep,
      lines_of_isCanonical node, lines_of_decimal generation, by simp⟩
  exact joinFields_canonical clean (decimal_ne_nil generation) (fun c last =>
    digit_not_isSpace (digit_of_mem_decimal (List.mem_of_getLast? last)))

theorem Text.childGraphRunId_canonical {runId nodeId : Text} (run : isCanonical runId = true)
    (node : isCanonical nodeId = true) (superstep : Nat) :
    isCanonical (Text.childGraphRunId runId superstep nodeId) = true := by
  have clean : ∀ value ∈ [ofString "mote.child-graph-run.v1", runId, decimal superstep] ++
      [nodeId], ∀ c ∈ value, c.val ≠ 10 ∧ c.val ≠ 13 := by
    simp only [List.cons_append, List.nil_append, List.forall_mem_cons]
    exact ⟨lines_of_ofString (by decide), lines_of_isCanonical run, lines_of_decimal superstep,
      lines_of_isCanonical node, by simp⟩
  obtain ⟨nonempty, -, ends, -⟩ := (isCanonical_iff nodeId).mp node
  exact joinFields_canonical clean nonempty ends

end MoteKernel
