import MoteKernel.Lib.LengthPrefix

/-!
# Compact ASCII JSON

The text `json.dumps` writes for null, natural numbers, strings and arrays, with
every code unit outside the printable ASCII range escaped and no blanks between
the tokens. A string is the list of its UTF-16 code units, which is what the
escapes name. The text determines the value.
-/

namespace AsciiJson

/-- A UTF-16 code unit. -/
abbrev CodeUnit := Fin 0x10000

inductive Json where
  | null
  | number (value : Nat)
  | text (units : List CodeUnit)
  | array (items : List Json)

/-! ## Strings -/

/-- A lower-case hexadecimal digit. -/
def hexDigit (n : Nat) : Char :=
  if n < 10 then Char.ofNat (48 + n) else Char.ofNat (87 + n)

/-- The two-character escapes. -/
def shortEscapes : List (Nat × Char) :=
  [(0x22, '"'), (0x5c, '\\'), (0x08, 'b'), (0x0c, 'f'), (0x0a, 'n'), (0x0d, 'r'), (0x09, 't')]

/-- `\uXXXX`. -/
def longEscape (n : Nat) : List Char :=
  ['\\', 'u', hexDigit (n / 0x1000 % 0x10), hexDigit (n / 0x100 % 0x10), hexDigit (n / 0x10 % 0x10),
    hexDigit (n % 0x10)]

/-- One code unit of a string. -/
def escape (unit : CodeUnit) : List Char :=
  match shortEscapes.lookup unit.val with
  | some short => ['\\', short]
  | none => if 0x20 ≤ unit.val ∧ unit.val ≤ 0x7e then [Char.ofNat unit.val] else longEscape unit.val

def hexValue (c : Char) : Nat :=
  if c.toNat < 58 then c.toNat - 48 else c.toNat - 87

/-- The code unit at the front of a text. -/
def unescape : List Char → Option (Nat × List Char)
  | '\\' :: 'u' :: a :: b :: c :: d :: rest =>
      some (((hexValue a * 0x10 + hexValue b) * 0x10 + hexValue c) * 0x10 + hexValue d, rest)
  | '\\' :: short :: rest =>
      (shortEscapes.find? (fun pair => pair.2 = short)).map (fun pair => (pair.1, rest))
  | c :: rest => some (c.toNat, rest)
  | [] => none

theorem hexValue_hexDigit : ∀ n < 0x10, hexValue (hexDigit n) = n := by decide

theorem unescape_longEscape {n : Nat} (small : n < 0x10000) (rest : List Char) :
    unescape (longEscape n ++ rest) = some (n, rest) := by
  simp only [longEscape, List.cons_append, List.nil_append, unescape]
  rw [hexValue_hexDigit _ (by omega), hexValue_hexDigit _ (by omega),
    hexValue_hexDigit _ (by omega), hexValue_hexDigit _ (by omega)]
  congr 2
  omega

theorem lookup_shortEscapes {n : Nat} {short : Char} (found : shortEscapes.lookup n = some short) :
    (n, short) ∈ shortEscapes := by
  obtain ⟨front, back, split, -⟩ := List.lookup_eq_some_iff.mp found
  rw [split]
  simp

/-- Every printable character but the quote and the backslash stands for itself. -/
theorem printable_ofNat : ∀ n < 0x7f, 0x20 ≤ n → shortEscapes.lookup n = none →
    (Char.ofNat n).toNat = n ∧ Char.ofNat n ≠ '\\' ∧ Char.ofNat n ≠ '"' := by
  decide

theorem unescape_ordinary {c : Char} (other : c ≠ '\\') (rest : List Char) :
    unescape (c :: rest) = some (c.toNat, rest) := by
  unfold unescape
  split
  · rename_i same
    exact absurd (List.cons.inj same).1 other
  · rename_i same
    exact absurd (List.cons.inj same).1 other
  · rename_i same
    obtain ⟨rfl, rfl⟩ := List.cons.inj same
    rfl
  · rename_i same
    cases same

theorem unescape_short : ∀ pair ∈ shortEscapes, ∀ rest,
    unescape ('\\' :: pair.2 :: rest) = some (pair.1, rest) := by
  intro pair member rest
  simp only [shortEscapes, List.mem_cons, List.not_mem_nil, or_false] at member
  rcases member with rfl | rfl | rfl | rfl | rfl | rfl | rfl <;> rfl

/-- An escape can be read back, whatever follows it. -/
theorem unescape_escape (unit : CodeUnit) (rest : List Char) :
    unescape (escape unit ++ rest) = some (unit.val, rest) := by
  unfold escape
  split
  · rename_i short found
    exact unescape_short _ (lookup_shortEscapes found) rest
  · rename_i absent
    split
    · rename_i range
      obtain ⟨value, other, -⟩ := printable_ofNat unit.val (by omega) range.1 absent
      rw [List.singleton_append, unescape_ordinary other, value]
    · exact unescape_longEscape unit.isLt rest

theorem escape_append_inj {unit other : CodeUnit} {rest tail : List Char}
    (same : escape unit ++ rest = escape other ++ tail) : unit = other ∧ rest = tail := by
  have read := congrArg unescape same
  rw [unescape_escape, unescape_escape, Option.some.injEq, Prod.mk.injEq] at read
  exact ⟨Fin.ext read.1, read.2⟩

/-- An escape does not begin with the quote that ends a string. -/
theorem escape_head (unit : CodeUnit) : ∃ c rest, escape unit = c :: rest ∧ c ≠ '"' := by
  unfold escape
  split
  · exact ⟨'\\', _, rfl, by decide⟩
  · rename_i absent
    split
    · rename_i range
      obtain ⟨-, -, other⟩ := printable_ofNat unit.val (by omega) range.1 absent
      exact ⟨_, _, rfl, other⟩
    · exact ⟨'\\', _, rfl, by decide⟩

/-- A string is read to its closing quote in one way only. -/
theorem escapes_append_inj {units others : List CodeUnit} {rest tail : List Char}
    (same : units.flatMap escape ++ '"' :: rest = others.flatMap escape ++ '"' :: tail) :
    units = others ∧ rest = tail := by
  induction units generalizing others with
  | nil =>
      cases others with
      | nil => exact ⟨rfl, (List.cons.inj same).2⟩
      | cons other others =>
          obtain ⟨c, front, form, different⟩ := escape_head other
          simp only [List.flatMap_nil, List.nil_append, List.flatMap_cons, form, List.cons_append,
            List.cons.injEq] at same
          exact absurd same.1.symm different
  | cons unit units ih =>
      cases others with
      | nil =>
          obtain ⟨c, front, form, different⟩ := escape_head unit
          simp only [List.flatMap_nil, List.nil_append, List.flatMap_cons, form, List.cons_append,
            List.cons.injEq] at same
          exact absurd same.1 different
      | cons other others =>
          simp only [List.flatMap_cons, List.append_assoc] at same
          obtain ⟨rfl, rests⟩ := escape_append_inj same
          obtain ⟨rfl, tails⟩ := ih rests
          exact ⟨rfl, tails⟩

/-! ## Values -/

mutual

/-- `json.dumps(value, ensure_ascii=True, separators=(",", ":"))`. -/
def dumps : Json → List Char
  | .null => ['n', 'u', 'l', 'l']
  | .number value => Nat.toDigits 10 value
  | .text units => '"' :: units.flatMap escape ++ ['"']
  | .array items => '[' :: dumpsItems items ++ [']']

/-- The items of an array, with commas between them. -/
def dumpsItems : List Json → List Char
  | [] => []
  | [item] => dumps item
  | item :: next :: items => dumps item ++ ',' :: dumpsItems (next :: items)

end

/-- What the first character of a value says about it. -/
def kindOf (c : Char) : Nat :=
  if c.isDigit then 1 else if c = '"' then 2 else if c = '[' then 3 else if c = 'n' then 0 else 4

def Json.kind : Json → Nat
  | null => 0
  | number _ => 1
  | text _ => 2
  | array _ => 3

theorem dumps_head (value : Json) : ∃ c rest, dumps value = c :: rest ∧ kindOf c = value.kind := by
  cases value with
  | null => exact ⟨'n', _, by rw [dumps], rfl⟩
  | number value =>
      cases digits : Nat.toDigits 10 value with
      | nil => exact absurd digits (Nat.toDigits_ne_nil)
      | cons c rest =>
          have digit := LengthPrefix.digit_of_mem_toDigits (n := value) (c := c) (by simp [digits])
          exact ⟨c, rest, by rw [dumps, digits], by simp [kindOf, digit, Json.kind]⟩
  | text units => exact ⟨'"', _, by rw [dumps, List.cons_append], rfl⟩
  | array items => exact ⟨'[', _, by rw [dumps, List.cons_append], rfl⟩

/-- A numeral ends where the digits end. -/
theorem digits_append_inj {m n : Nat} {rest tail : List Char}
    (ends : ∀ c ∈ rest.head?, c.isDigit = false) (endsTail : ∀ c ∈ tail.head?, c.isDigit = false)
    (same : Nat.toDigits 10 m ++ rest = Nat.toDigits 10 n ++ tail) : m = n ∧ rest = tail := by
  have front : ∀ (k : Nat) (after : List Char), (∀ c ∈ after.head?, c.isDigit = false) →
      (Nat.toDigits 10 k ++ after).takeWhile Char.isDigit = Nat.toDigits 10 k := by
    intro k after stops
    rw [List.takeWhile_append_of_pos (fun c member => LengthPrefix.digit_of_mem_toDigits member)]
    cases after with
    | nil => simp
    | cons c after => simp [stops c rfl]
  have numerals : Nat.toDigits 10 m = Nat.toDigits 10 n := by
    rw [← front m rest ends, same, front n tail endsTail]
  rw [numerals] at same
  exact ⟨LengthPrefix.toDigits_injective numerals, List.append_cancel_left same⟩

mutual

/-- A value at the front of a text is determined by the text, unless it is a number that goes
on. -/
theorem dumps_append_inj (value other : Json) {rest tail : List Char}
    (ends : ∀ c ∈ rest.head?, c.isDigit = false) (endsTail : ∀ c ∈ tail.head?, c.isDigit = false)
    (same : dumps value ++ rest = dumps other ++ tail) : value = other ∧ rest = tail := by
  obtain ⟨c, front, form, kind⟩ := dumps_head value
  obtain ⟨d, back, otherForm, otherKind⟩ := dumps_head other
  have kinds : value.kind = other.kind := by
    rw [form, otherForm, List.cons_append, List.cons_append] at same
    rw [← kind, ← otherKind, (List.cons.inj same).1]
  match value, other with
  | .null, .null => exact ⟨rfl, List.append_cancel_left same⟩
  | .number m, .number n =>
      rw [dumps, dumps] at same
      obtain ⟨rfl, rests⟩ := digits_append_inj ends endsTail same
      exact ⟨rfl, rests⟩
  | .text units, .text others =>
      rw [dumps, dumps] at same
      simp only [List.cons_append, List.append_assoc, List.nil_append, List.cons.injEq,
        true_and] at same
      obtain ⟨rfl, rests⟩ := escapes_append_inj same
      exact ⟨rfl, rests⟩
  | .array items, .array others =>
      rw [dumps, dumps] at same
      simp only [List.cons_append, List.append_assoc, List.nil_append, List.cons.injEq,
        true_and] at same
      obtain ⟨rfl, rests⟩ := dumpsItems_append_inj items others same
      exact ⟨rfl, rests⟩
  | .null, .number _ => cases kinds
  | .null, .text _ => cases kinds
  | .null, .array _ => cases kinds
  | .number _, .null => cases kinds
  | .number _, .text _ => cases kinds
  | .number _, .array _ => cases kinds
  | .text _, .null => cases kinds
  | .text _, .number _ => cases kinds
  | .text _, .array _ => cases kinds
  | .array _, .null => cases kinds
  | .array _, .number _ => cases kinds
  | .array _, .text _ => cases kinds

/-- The items of an array are read to its closing bracket in one way only. -/
theorem dumpsItems_append_inj (items others : List Json) {rest tail : List Char}
    (same : dumpsItems items ++ ']' :: rest = dumpsItems others ++ ']' :: tail) :
    items = others ∧ rest = tail := by
  have unopened : ∀ (value : Json) (after more : List Char), dumps value ++ after ≠ ']' :: more := by
    intro value after more bracket
    obtain ⟨c, front, form, kind⟩ := dumps_head value
    rw [form, List.cons_append] at bracket
    rw [(List.cons.inj bracket).1] at kind
    cases value <;> cases kind
  match items, others with
  | [], [] => exact ⟨rfl, (List.cons.inj same).2⟩
  | [], [value] => exact absurd same.symm (unopened value _ _)
  | [], value :: next :: more =>
      rw [dumpsItems, dumpsItems, List.append_assoc] at same
      exact absurd same.symm (unopened value _ _)
  | [value], [] => exact absurd same (unopened value _ _)
  | value :: next :: more, [] =>
      rw [dumpsItems, dumpsItems, List.append_assoc] at same
      exact absurd same (unopened value _ _)
  | [value], [other] =>
      rw [dumpsItems, dumpsItems] at same
      obtain ⟨rfl, rests⟩ := dumps_append_inj value other (by simp) (by simp) same
      exact ⟨rfl, (List.cons.inj rests).2⟩
  | [value], other :: next :: more =>
      rw [dumpsItems, dumpsItems, List.append_assoc] at same
      obtain ⟨-, rests⟩ := dumps_append_inj value other (by simp) (by simp) same
      exact absurd (List.cons.inj rests).1 (by decide)
  | value :: next :: more, [other] =>
      rw [dumpsItems, dumpsItems, List.append_assoc] at same
      obtain ⟨-, rests⟩ := dumps_append_inj value other (by simp) (by simp) same
      exact absurd (List.cons.inj rests).1 (by decide)
  | value :: next :: more, other :: following :: others =>
      rw [dumpsItems, dumpsItems, List.append_assoc, List.append_assoc] at same
      obtain ⟨rfl, rests⟩ := dumps_append_inj value other (by simp) (by simp) same
      obtain ⟨items, tails⟩ := dumpsItems_append_inj (next :: more) (following :: others)
        (List.cons.inj rests).2
      exact ⟨by rw [items], tails⟩

end

theorem dumps_injective : Function.Injective dumps := by
  intro value other same
  have texts : dumps value ++ [] = dumps other ++ [] := by rw [same]
  exact (dumps_append_inj value other (by simp) (by simp) texts).1

/-! ## ASCII -/

/-- A printable ASCII character. -/
def Printable (c : Char) : Prop := 0x20 ≤ c.toNat ∧ c.toNat ≤ 0x7e

theorem printable_of_all {t : List Char}
    (all : t.all (fun c => decide (0x20 ≤ c.toNat) && decide (c.toNat ≤ 0x7e)) = true) :
    ∀ c ∈ t, Printable c := by
  intro c member
  simpa [Printable] using List.all_eq_true.mp all c member

theorem printable_hexDigit : ∀ n < 0x10, Printable (hexDigit n) := by
  unfold Printable
  decide

theorem escape_printable (unit : CodeUnit) : ∀ c ∈ escape unit, Printable c := by
  unfold escape
  split
  · rename_i short found
    have known : ∀ pair ∈ shortEscapes, Printable pair.2 := by
      unfold Printable
      decide
    intro c member
    rcases List.mem_pair.mp member with rfl | rfl
    · unfold Printable
      decide
    · exact known _ (lookup_shortEscapes found)
  · rename_i absent
    split
    · rename_i range
      obtain ⟨value, -, -⟩ := printable_ofNat unit.val (by omega) range.1 absent
      intro c member
      rw [List.mem_singleton.mp member, Printable, value]
      exact range
    · intro c member
      simp only [longEscape, List.mem_cons, List.not_mem_nil, or_false] at member
      rcases member with rfl | rfl | rfl | rfl | rfl | rfl
      · unfold Printable
        decide
      · unfold Printable
        decide
      all_goals exact printable_hexDigit _ (by omega)

mutual

theorem dumps_printable : ∀ value : Json, ∀ c ∈ dumps value, Printable c
  | .null => by
      rw [dumps]
      exact printable_of_all rfl
  | .number value => by
      intro c member
      rw [dumps] at member
      have digit := LengthPrefix.digit_of_mem_toDigits member
      simp only [Char.isDigit, Bool.and_eq_true, decide_eq_true_eq, ge_iff_le] at digit
      have low : 48 ≤ c.toNat := digit.1
      have high : c.toNat ≤ 57 := digit.2
      unfold Printable
      omega
  | .text units => by
      intro c member
      rw [dumps] at member
      simp only [List.cons_append, List.mem_cons, List.mem_append, List.mem_flatMap,
        List.not_mem_nil, or_false] at member
      rcases member with rfl | ⟨unit, -, inside⟩ | rfl
      · unfold Printable
        decide
      · exact escape_printable unit c inside
      · unfold Printable
        decide
  | .array items => by
      intro c member
      rw [dumps] at member
      simp only [List.cons_append, List.mem_cons, List.mem_append, List.not_mem_nil,
        or_false] at member
      rcases member with rfl | inside | rfl
      · unfold Printable
        decide
      · exact dumpsItems_printable items c inside
      · unfold Printable
        decide

theorem dumpsItems_printable : ∀ items : List Json, ∀ c ∈ dumpsItems items, Printable c
  | [] => by
      rw [dumpsItems]
      exact fun c member => absurd member List.not_mem_nil
  | [item] => by
      rw [dumpsItems]
      exact dumps_printable item
  | item :: next :: items => by
      intro c member
      rw [dumpsItems] at member
      rcases List.mem_append.mp member with inside | later
      · exact dumps_printable item c inside
      · rcases List.mem_cons.mp later with rfl | rest
        · unfold Printable
          decide
        · exact dumpsItems_printable (next :: items) c rest

end

end AsciiJson
