import MoteKernel.Lib.AsciiJson

/-!
# Code points and UTF-16 code units

A string is a list of code points, and surrogates may stand in it on their own.
Its code units do not determine it: a code point above U+FFFF has the units of
the two surrogates that spell it. They do determine a plain string, in which
neither of the two occurs.
-/

namespace Utf16
open AsciiJson

abbrev CodePoint := Fin 0x110000

/-- The units of one code point. -/
def codeUnits (c : CodePoint) : List CodeUnit :=
  if small : c.val < 0x10000 then [⟨c.val, small⟩]
  else [⟨0xD800 + (c.val - 0x10000) / 0x400, by omega⟩, ⟨0xDC00 + c.val % 0x400, by omega⟩]

def units (text : List CodePoint) : List CodeUnit :=
  text.flatMap codeUnits

def isHigh (n : Nat) : Bool := 0xD800 ≤ n && n ≤ 0xDBFF

def isLow (n : Nat) : Bool := 0xDC00 ≤ n && n ≤ 0xDFFF

/-- No code point above U+FFFF, and no high surrogate directly before a low one. -/
structure Plain (text : List CodePoint) : Prop where
  basic : ∀ c ∈ text, c.val < 0x10000
  unpaired : text.IsChain (fun a b => ¬ (isHigh a.val ∧ isLow b.val))

instance (text : List CodePoint) : Decidable (Plain text) :=
  decidable_of_iff ((∀ c ∈ text, c.val < 0x10000) ∧
    text.IsChain (fun a b => ¬ (isHigh a.val ∧ isLow b.val)))
    ⟨fun h => ⟨h.1, h.2⟩, fun h => ⟨h.basic, h.unpaired⟩⟩

@[simp] theorem units_nil : units [] = [] := rfl

@[simp] theorem units_cons (c : CodePoint) (text : List CodePoint) :
    units (c :: text) = codeUnits c ++ units text := List.flatMap_cons ..

theorem codeUnits_of_small {c : CodePoint} (small : c.val < 0x10000) :
    codeUnits c = [⟨c.val, small⟩] := dif_pos small

theorem codeUnits_of_large {c : CodePoint} (large : ¬ c.val < 0x10000) :
    ∃ high low : CodeUnit, codeUnits c = [high, low] ∧ isHigh high.val = true ∧
      isLow low.val = true := by
  refine ⟨_, _, dif_neg large, ?_, ?_⟩
  · simp only [isHigh, Bool.and_eq_true, decide_eq_true_eq]
    omega
  · simp only [isLow, Bool.and_eq_true, decide_eq_true_eq]
    omega

theorem codeUnits_ne_nil (c : CodePoint) : codeUnits c ≠ [] := by
  unfold codeUnits
  split <;> simp

theorem units_eq_nil_iff (text : List CodePoint) : units text = [] ↔ text = [] := by
  cases text with
  | nil => simp
  | cons c text => simp [codeUnits_ne_nil]

/-- A plain string is the only one with its units. -/
theorem Plain.eq_of_units {text other : List CodePoint} (plain : Plain text)
    (same : units text = units other) : text = other := by
  induction other generalizing text with
  | nil =>
      cases text with
      | nil => rfl
      | cons c text =>
          rw [units_cons, units_nil, List.append_eq_nil_iff] at same
          exact absurd same.1 (codeUnits_ne_nil c)
  | cons d other ih =>
      cases text with
      | nil =>
          rw [units_cons, units_nil, eq_comm, List.append_eq_nil_iff] at same
          exact absurd same.1 (codeUnits_ne_nil d)
      | cons c text =>
          have small := plain.basic c List.mem_cons_self
          have rest : Plain text :=
            ⟨fun x member => plain.basic x (List.mem_cons_of_mem _ member), plain.unpaired.of_cons⟩
          rw [units_cons, units_cons, codeUnits_of_small small] at same
          by_cases smallOther : d.val < 0x10000
          · rw [codeUnits_of_small smallOther] at same
            obtain ⟨head, tail⟩ := List.cons.inj same
            have value : c.val = d.val := Fin.mk.inj head
            rw [Fin.ext value, ih rest tail]
          · -- the units of `d` are a pair, which a plain text does not spell
            exfalso
            obtain ⟨high, low, form, isHigh, isLow⟩ := codeUnits_of_large smallOther
            rw [form] at same
            obtain ⟨head, tail⟩ := List.cons.inj same
            cases text with
            | nil => cases tail
            | cons b text =>
                have smallNext := plain.basic b (by simp)
                rw [units_cons, codeUnits_of_small smallNext] at tail
                obtain ⟨next, -⟩ := List.cons.inj tail
                apply (List.isChain_cons_cons.mp plain.unpaired).1
                have first : c.val = high.val := congrArg Fin.val head
                have second : b.val = low.val := congrArg Fin.val next
                rw [first, second]
                exact ⟨isHigh, isLow⟩

/-! ## Other spellings -/

/-- A code unit as a code point. -/
def ofUnit (unit : CodeUnit) : CodePoint := ⟨unit.val, by omega⟩

/-- Every large code point as its two surrogates. -/
def split (text : List CodePoint) : List CodePoint :=
  (units text).map ofUnit

/-- The code point two surrogates spell. -/
def pair (high low : CodePoint) : CodePoint :=
  ⟨0x10000 + (high.val - 0xD800) % 0x400 * 0x400 + (low.val - 0xDC00) % 0x400, by omega⟩

/-- Every two surrogates as the code point they spell. -/
def merge : List CodePoint → List CodePoint
  | high :: low :: text =>
      if isHigh high.val && isLow low.val then pair high low :: merge text
      else high :: merge (low :: text)
  | text => text

theorem codeUnits_ofUnit (unit : CodeUnit) : codeUnits (ofUnit unit) = [unit] :=
  codeUnits_of_small unit.isLt

@[simp] theorem units_split (text : List CodePoint) : units (split text) = units text := by
  unfold split
  induction units text with
  | nil => rfl
  | cons unit rest ih => rw [List.map_cons, units_cons, codeUnits_ofUnit, ih, List.singleton_append]

theorem codeUnits_pair {high low : CodePoint} (isHigh : isHigh high.val = true)
    (isLow : isLow low.val = true) : codeUnits (pair high low) = codeUnits high ++ codeUnits low := by
  simp only [Utf16.isHigh, Utf16.isLow, Bool.and_eq_true, decide_eq_true_eq] at isHigh isLow
  rw [codeUnits_of_small (c := high) (by omega), codeUnits_of_small (c := low) (by omega)]
  have value : (pair high low).val =
      0x10000 + (high.val - 0xD800) % 0x400 * 0x400 + (low.val - 0xDC00) % 0x400 := rfl
  have large : ¬ (pair high low).val < 0x10000 := by omega
  rw [codeUnits, dif_neg large]
  refine congrArg₂ (fun a b => [a, b]) (Fin.ext ?_) (Fin.ext ?_)
  · show 0xD800 + ((pair high low).val - 0x10000) / 0x400 = high.val
    omega
  · show 0xDC00 + (pair high low).val % 0x400 = low.val
    omega

@[simp] theorem units_merge (text : List CodePoint) : units (merge text) = units text := by
  fun_induction merge text with
  | case1 high low text both ih =>
      rw [Bool.and_eq_true] at both
      rw [units_cons, codeUnits_pair both.1 both.2, ih, units_cons, units_cons, List.append_assoc]
  | case2 high low text both ih =>
      rw [units_cons, ih]
      rfl
  | case3 text => rfl

theorem length_merge (text : List CodePoint) : (merge text).length ≤ text.length := by
  fun_induction merge text with
  | case1 high low text both ih =>
      simp only [List.length_cons]
      omega
  | case2 high low text both ih =>
      simp only [List.length_cons] at ih ⊢
      omega
  | case3 text => exact Nat.le_refl _

theorem unpaired_of_merge {text : List CodePoint} (same : merge text = text) :
    text.IsChain (fun a b => ¬ (isHigh a.val ∧ isLow b.val)) := by
  fun_induction merge text with
  | case1 high low text both ih =>
      have lengths := congrArg List.length same
      have short := length_merge text
      simp only [List.length_cons] at lengths
      omega
  | case2 high low text both ih =>
      have rest := ih (List.cons.inj same).2
      refine List.isChain_cons_cons.mpr ⟨?_, rest⟩
      simpa using both
  | case3 text shape =>
      match text, shape with
      | [], _ => exact .nil
      | [c], _ => exact .singleton _
      | high :: low :: rest, shape => exact absurd rfl (shape high low rest)

theorem basic_of_split {text : List CodePoint} (same : split text = text) :
    ∀ c ∈ text, c.val < 0x10000 := by
  intro c member
  rw [← same] at member
  obtain ⟨unit, -, rfl⟩ := List.mem_map.mp member
  exact unit.isLt

/-- A string that both respellings leave alone is plain. -/
theorem plain_of_respellings {text : List CodePoint} (splits : split text = text)
    (merges : merge text = text) : Plain text :=
  ⟨basic_of_split splits, unpaired_of_merge merges⟩

end Utf16
