import Mathlib.Data.List.Basic
import Mathlib.Data.List.Induction
import Mathlib.Tactic.IntervalCases

/-!
# Length-prefixed fields

A field is its length as a numeral, a separator, and the value. When numerals
are injective and never contain the separator, a concatenation of fields can be
read in one way only, whatever the values contain.
-/

namespace LengthPrefix

/-- A text is cut at the first occurrence of a separator in one way only. -/
theorem separator_split {α : Type} {separator : α} {front other : List α} {rest tail : List α}
    (absent : separator ∉ front) (absentOther : separator ∉ other)
    (same : front ++ separator :: rest = other ++ separator :: tail) :
    front = other ∧ rest = tail := by
  induction front generalizing other with
  | nil =>
      cases other with
      | nil => exact ⟨rfl, (List.cons.inj same).2⟩
      | cons c other =>
          have head : separator = c := (List.cons.inj same).1
          exact absurd (head ▸ List.mem_cons_self) absentOther
  | cons c front ih =>
      cases other with
      | nil =>
          have head : c = separator := (List.cons.inj same).1
          exact absurd (head ▸ List.mem_cons_self) absent
      | cons d other =>
          obtain ⟨rfl, tails⟩ := List.cons.inj same
          obtain ⟨rfl, rests⟩ := ih (fun h => absent (List.mem_cons_of_mem _ h))
            (fun h => absentOther (List.mem_cons_of_mem _ h)) tails
          exact ⟨rfl, rests⟩

theorem toDigits_injective : Function.Injective (Nat.toDigits 10) := by
  intro m n same
  have read := congrArg (fun digits => Nat.ofDigitChars 10 digits 0) same
  simpa only [Nat.ofDigitChars_ten_toDigits] using read

theorem digit_of_mem_toDigits {n : Nat} {c : Char} (member : c ∈ Nat.toDigits 10 n) :
    c.isDigit = true :=
  Nat.isDigit_of_mem_toDigits (by decide) (by decide) member

theorem digitChar_of_isDigit {c : Char} (digit : c.isDigit = true) :
    c.toNat - 48 < 10 ∧ (c.toNat - 48).digitChar = c := by
  simp only [Char.isDigit, Bool.and_eq_true, decide_eq_true_eq] at digit
  have low : 48 ≤ c.toNat := digit.1
  have high : c.toNat ≤ 57 := digit.2
  refine ⟨by omega, ?_⟩
  have back : Char.ofNat c.toNat = c := Char.ofNat_toNat c
  generalize c.toNat = n at low high back
  subst back
  interval_cases n <;> rfl

/-- The numeral of a positive number does not start with a zero. -/
theorem head_toDigits {n : Nat} (positive : 0 < n) : (Nat.toDigits 10 n).head? ≠ some '0' := by
  induction n using Nat.strongRecOn with
  | ind n ih =>
      by_cases small : n < 10
      · rw [Nat.toDigits_of_lt_base small]
        intro zero
        have : n = 0 := Nat.digitChar_eq_zero.mp (Option.some.inj zero)
        omega
      · rw [Nat.toDigits_of_base_le (by decide) (by omega),
          List.head?_append_of_ne_nil _ Nat.toDigits_ne_nil]
        exact ih (n / 10) (by omega) (by omega)

/-- Digits without a superfluous zero in front are the numeral of the number they denote. -/
theorem toDigits_ofDigitChars {digits : List Char} (each : ∀ c ∈ digits, c.isDigit = true)
    (nonempty : digits ≠ []) (canonical : digits.length = 1 ∨ digits.head? ≠ some '0') :
    Nat.toDigits 10 (Nat.ofDigitChars 10 digits 0) = digits := by
  induction digits using List.reverseRecOn with
  | nil => exact absurd rfl nonempty
  | append_singleton front c ih =>
      obtain ⟨small, same⟩ := digitChar_of_isDigit (each c (by simp))
      have value : Nat.ofDigitChars 10 (front ++ [c]) 0 =
          10 * Nat.ofDigitChars 10 front 0 + (c.toNat - 48) := by
        rw [Nat.ofDigitChars_append, Nat.ofDigitChars_cons, Nat.ofDigitChars_nil]
        rfl
      by_cases empty : front = []
      · subst empty
        rw [value, Nat.ofDigitChars_nil, Nat.mul_zero, Nat.zero_add,
          Nat.toDigits_of_lt_base small, same]
        rfl
      · have leading : front.head? ≠ some '0' := by
          rcases canonical with short | leading
          · have longer := List.length_pos_of_ne_nil empty
            rw [List.length_append, List.length_singleton] at short
            omega
          · rwa [List.head?_append_of_ne_nil _ empty] at leading
        have front' := ih (fun d member => each d (List.mem_append_left _ member)) empty
          (.inr leading)
        have positive : 0 < Nat.ofDigitChars 10 front 0 := by
          apply Nat.pos_of_ne_zero
          intro zero
          rw [zero] at front'
          exact leading (by rw [← front']; rfl)
        rw [value, ← Nat.toDigits_append_toDigits (by decide) positive small, front',
          Nat.toDigits_of_lt_base small, same]

/-- A number is below the power of ten with as many zeros as it has digits. -/
theorem ofDigitChars_lt {digits : List Char} (each : ∀ c ∈ digits, c.isDigit = true) :
    Nat.ofDigitChars 10 digits 0 < 10 ^ digits.length := by
  induction digits using List.reverseRecOn with
  | nil => simp
  | append_singleton front c ih =>
      obtain ⟨small, -⟩ := digitChar_of_isDigit (each c (by simp))
      have before := ih (fun d member => each d (List.mem_append_left _ member))
      rw [Nat.ofDigitChars_append, Nat.ofDigitChars_cons, Nat.ofDigitChars_nil, List.length_append,
        List.length_singleton, Nat.pow_succ]
      show 10 * Nat.ofDigitChars 10 front 0 + (c.toNat - 48) < _
      omega

/-- A numeral system in which the separator ends a numeral. -/
structure Numerals (α : Type) where
  numeral : Nat → List α
  separator : α
  injective : Function.Injective numeral
  separated : ∀ n, separator ∉ numeral n

variable {α : Type} (system : Numerals α)

/-- One value behind its length. -/
def field (value : List α) : List α :=
  system.numeral value.length ++ system.separator :: value

/-- The concatenation of the fields. -/
def encode : List (List α) → List α
  | [] => []
  | value :: values => field system value ++ encode values

theorem length_field (value : List α) : value.length < (field system value).length := by
  simp only [field, List.length_append, List.length_cons]
  omega

/-- A field at the front of a text is determined by the text. -/
theorem field_append_inj {value other : List α} {rest tail : List α}
    (same : field system value ++ rest = field system other ++ tail) :
    value = other ∧ rest = tail := by
  simp only [field, List.append_assoc, List.cons_append] at same
  obtain ⟨numerals, texts⟩ := separator_split (system.separated _) (system.separated _) same
  have lengths : value.length = other.length := system.injective numerals
  exact List.append_inj texts lengths

/-- A concatenation of fields is read in one way only. -/
theorem encode_injective : Function.Injective (encode system) := by
  intro values others
  induction values generalizing others with
  | nil =>
      intro same
      cases others with
      | nil => rfl
      | cons other others => simp [encode, field] at same
  | cons value values ih =>
      intro same
      cases others with
      | nil => simp [encode, field] at same
      | cons other others =>
          obtain ⟨rfl, tails⟩ := field_append_inj system same
          rw [ih tails]

/-- Every value is shorter than an encoding it occurs in. -/
theorem length_encode {values : List (List α)} {value : List α} (member : value ∈ values) :
    value.length < (encode system values).length := by
  induction values with
  | nil => cases member
  | cons first values ih =>
      rw [encode, List.length_append]
      rcases List.mem_cons.mp member with rfl | later
      · have longer := length_field system value
        omega
      · have longer := ih later
        omega

/-- What an encoding consists of: numerals, separators and the values. -/
theorem mem_encode {values : List (List α)} {c : α} (member : c ∈ encode system values) :
    (∃ n, c ∈ system.numeral n) ∨ c = system.separator ∨ ∃ value ∈ values, c ∈ value := by
  induction values with
  | nil => cases member
  | cons value values ih =>
      rw [encode, field, List.append_assoc, List.mem_append, List.cons_append, List.mem_cons,
        List.mem_append] at member
      rcases member with digit | rfl | here | later
      · exact .inl ⟨_, digit⟩
      · exact .inr (.inl rfl)
      · exact .inr (.inr ⟨value, List.mem_cons_self, here⟩)
      · rcases ih later with digit | separator | ⟨other, inside, here⟩
        · exact .inl digit
        · exact .inr (.inl separator)
        · exact .inr (.inr ⟨other, List.mem_cons_of_mem _ inside, here⟩)

/-- An encoding ends like its last value. -/
theorem getLast_encode (values : List (List α)) {value : List α} (nonempty : value ≠ []) :
    (encode system (values ++ [value])).getLast? = value.getLast? := by
  induction values with
  | nil =>
      obtain ⟨front, last, rfl⟩ := List.eq_nil_or_concat value |>.resolve_left nonempty
      simp only [List.nil_append, encode, field, List.append_nil, List.concat_eq_append]
      rw [← List.cons_append, ← List.append_assoc, List.getLast?_concat, List.getLast?_concat]
  | cons first values ih =>
      rw [List.cons_append, encode, List.getLast?_append, ih]
      obtain ⟨front, last, rfl⟩ := List.eq_nil_or_concat value |>.resolve_left nonempty
      simp

end LengthPrefix
