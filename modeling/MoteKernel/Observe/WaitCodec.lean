import Mathlib
import MoteKernel.State.ComposedIdentity
import MoteKernel.State.FrontierModel
import MoteKernel.Observe.Contract

/-!
# The wire form of an observation wait

`ObservationWait.encode` and `ObservationWait.decode` of `observe/identity.py`.
Texts that reach the encoder are valid UTF-8, so they are Lean strings; a payload
is a list of bytes and its decoder reads it by offsets as the source does.
-/

namespace MoteKernel.Observe
open Checked LengthPrefix

/-! ## Conversions of the standard library -/

/-- `ObserveIdentityError`, or the `ValueError` of a conversion between `int` and `str`. -/
inductive WaitCodecError where
  | observe (error : ObserveError)
  | value
  deriving DecidableEq, Repr

/-- `raise ObserveIdentityError(message)`. -/
def WaitCodecError.identity (message : String) : WaitCodecError :=
  .observe ⟨.identity, message⟩

/-- The longest decimal text that `int` and `str` convert. -/
def maxStrDigits : Nat := 4300

/-- `str(value)`. -/
def strOfInt (value : Nat) : Except WaitCodecError String := do
  let text := toString value
  raiseIf (maxStrDigits < text.length) .value
  return text

/-- `int(text)` of a text of ASCII digits. -/
def intOfDigits (digits : List Char) : Except WaitCodecError Nat := do
  raiseIf (maxStrDigits < digits.length) .value
  return Nat.ofDigitChars 10 digits 0

/-- `text.encode("utf-8")`. -/
def utf8 (text : String) : Bytes := text.toByteArray.data.toList

/-- `data.decode("utf-8")`; `none` is the `UnicodeDecodeError`. -/
def utf8Decode (data : Bytes) : Option String := String.fromUTF8? ⟨data.toArray⟩

/-- `text.encode("ascii")` of an ASCII text. -/
def asciiBytes (text : List Char) : Bytes := text.map (fun c => UInt8.ofNat c.toNat)

/-- The characters of ASCII bytes. -/
def asciiChars (data : Bytes) : List Char := data.map (fun byte => Char.ofNat byte.toNat)

/-- The byte `:`. -/
def colon : UInt8 := 58

theorem asciiChars_asciiBytes {text : List Char} (digits : ∀ c ∈ text, c.isDigit = true) :
    asciiChars (asciiBytes text) = text := by
  unfold asciiChars asciiBytes
  rw [List.map_map]
  refine (List.map_congr_left (fun c member => ?_)).trans (List.map_id text)
  have digit := digits c member
  simp only [Char.isDigit, Bool.and_eq_true, decide_eq_true_eq] at digit
  have high : c.toNat ≤ 57 := digit.2
  have byte : (UInt8.ofNat c.toNat).toNat = c.toNat := by
    rw [UInt8.toNat_ofNat']
    omega
  show Char.ofNat (UInt8.ofNat c.toNat).toNat = c
  rw [byte, Char.ofNat_toNat]

theorem mem_asciiBytes_digit {n : Nat} {byte : UInt8}
    (member : byte ∈ asciiBytes (Nat.toDigits 10 n)) : 48 ≤ byte ∧ byte ≤ 57 := by
  obtain ⟨c, inside, rfl⟩ := List.mem_map.mp member
  have digit := digit_of_mem_toDigits inside
  simp only [Char.isDigit, Bool.and_eq_true, decide_eq_true_eq] at digit
  have low : 48 ≤ c.toNat := digit.1
  have high : c.toNat ≤ 57 := digit.2
  simp only [UInt8.le_iff_toNat_le, UInt8.toNat_ofNat']
  have small : c.toNat % 2 ^ 8 = c.toNat := by omega
  rw [small]
  exact ⟨low, high⟩

/-- The ASCII decimal numerals, ended by a colon. -/
def decimalBytes : Numerals UInt8 where
  numeral n := asciiBytes (Nat.toDigits 10 n)
  separator := colon
  injective := by
    intro m n same
    apply toDigits_injective
    rw [← asciiChars_asciiBytes (fun c => digit_of_mem_toDigits (n := m)),
      ← asciiChars_asciiBytes (fun c => digit_of_mem_toDigits (n := n))]
    exact congrArg asciiChars same
  separated := by
    intro n member
    exact absurd (mem_asciiBytes_digit member) (by decide)

@[simp] theorem utf8Decode_utf8 (text : String) : utf8Decode (utf8 text) = some text := by
  have bytes : (⟨(utf8 text).toArray⟩ : ByteArray) = text.toByteArray := by simp [utf8]
  unfold utf8Decode String.fromUTF8?
  rw [bytes, dif_pos text.isValidUTF8]
  rfl

theorem utf8Decode_eq_some {data : Bytes} {text : String} :
    utf8Decode data = some text ↔ data = utf8 text := by
  constructor
  · intro decoded
    unfold utf8Decode String.fromUTF8? at decoded
    split at decoded
    · rw [← Option.some.inj decoded]
      rfl
    · cases decoded
  · rintro rfl
    exact utf8Decode_utf8 text

/-- A text has at most as many characters as bytes. -/
theorem length_le_utf8 (text : String) : text.length ≤ (utf8 text).length := by
  have chars : ∀ chars : List Char, chars.length ≤ chars.utf8Encode.size := by
    intro chars
    induction chars with
    | nil => simp
    | cons c chars ih =>
        have positive := c.utf8Size_pos
        rw [List.utf8Encode_cons, ByteArray.size_append, List.length_cons,
          List.utf8Encode_singleton]
        simp only [List.size_toByteArray, String.length_utf8EncodeChar]
        omega
  have bytes : (utf8 text).length = text.toByteArray.size := by simp [utf8]
  rw [bytes, ← String.length_toList, ← String.utf8Encode_toList]
  exact chars text.toList

/-! ## Waits -/

/-- A durable wait coordinate. -/
structure ObservationWait where
  streamId : String
  afterCursor : ObservationCursor
  observationRevision : Nat
  wakeCondition : String
  deriving DecidableEq, Repr

namespace ObservationWait

/-- `ObservationWait.__post_init__`. -/
def validate (wait : ObservationWait) : Except ObserveError Unit := do
  requireText wait.streamId "observation wait stream_id"
  identityIf (wait.afterCursor.streamId ≠ wait.streamId)
    "observation wait cursor must use its stream_id"
  requireText wait.wakeCondition "observation wait wake_condition"

/-- A wait whose constructor and whose cursor's constructor have run. -/
def Valid (wait : ObservationWait) : Prop :=
  wait.afterCursor.validate = .ok () ∧ wait.validate = .ok ()

/-- `ObservationWait.MAX_ENCODED_BYTES`. -/
def maxEncodedBytes : Nat := 4096

/-- The codec marker. -/
def marker : String := "mote.observe.wait.v1"

/-- `b"".join(f"{len(field)}:".encode("ascii") + field for field in encoded_fields)`. -/
def joinFields (fields : List String) : Bytes :=
  LengthPrefix.encode decimalBytes (fields.map utf8)

/-- `ObservationWait.encode`. -/
def encode (wait : ObservationWait) : Except WaitCodecError Bytes := do
  let sequence ← strOfInt wait.afterCursor.sequence
  let revision ← strOfInt wait.observationRevision
  let encoded := joinFields [marker, wait.streamId, sequence, revision, wait.wakeCondition]
  raiseIf (maxEncodedBytes < encoded.length)
    (.identity "observation wait encoding exceeds its size limit")
  return encoded

/-- `payload.find(b":", offset)`; `none` is the result `-1`. -/
def findColon (payload : Bytes) (offset : Nat) : Option Nat :=
  ((payload.drop offset).findIdx? (· = colon)).map (offset + ·)

/-- One turn of the field loop of `decode`: the field and the offset behind it. -/
def decodeField (payload : Bytes) (offset : Nat) : Except WaitCodecError (String × Nat) := do
  let separator ← orRaise
    (.identity "observation wait payload has an invalid length prefix") (findColon payload offset)
  raiseIf (separator ≤ offset)
    (.identity "observation wait payload has an invalid length prefix")
  let lengthBytes := (payload.drop offset).take (separator - offset)
  raiseIf (lengthBytes = [] ∨ ∃ byte ∈ lengthBytes, byte < 48 ∨ byte > 57)
    (.identity "observation wait payload has a non-numeric length prefix")
  let length ← intOfDigits (asciiChars lengthBytes)
  let canonical ← strOfInt length
  raiseIf (asciiBytes canonical.toList ≠ lengthBytes)
    (.identity "observation wait payload has a non-canonical length prefix")
  let start := separator + 1
  let stop := start + length
  raiseIf (stop > payload.length) (.identity "observation wait payload is truncated")
  let text ← orRaise (.identity "observation wait payload is not valid UTF-8")
    (utf8Decode ((payload.drop start).take length))
  return (text, stop)

/-- The field loop of `decode` for a number of turns. -/
def decodeFields (payload : Bytes) : Nat → Nat → Except WaitCodecError (List String × Nat)
  | 0, offset => return ([], offset)
  | turns + 1, offset => do
      let (text, next) ← decodeField payload offset
      let (texts, last) ← decodeFields payload turns next
      return (text :: texts, last)

/-- `_parse_canonical_ascii_integer`. -/
def parseCanonicalAsciiInteger (value errorMessage : String) : Except WaitCodecError Nat := do
  raiseIf (value = "" ∨ ∃ character ∈ value.toList, character < '0' ∨ character > '9')
    (.identity errorMessage)
  raiseIf (value.length > 1 ∧ value.toList.head? = some '0') (.identity errorMessage)
  intOfDigits value.toList

/-- The tail of `decode`: the five fields make a wait. -/
def ofFields (fields : List String) : Except WaitCodecError ObservationWait :=
  match fields with
  | [codecMarker, streamId, sequenceText, revisionText, wakeCondition] => do
      raiseIf (codecMarker ≠ marker)
        (.identity "observation wait payload has an unknown codec marker")
      let sequence ← parseCanonicalAsciiInteger sequenceText
        "observation wait payload has an invalid cursor sequence"
      let revision ← parseCanonicalAsciiInteger revisionText
        "observation wait payload has an invalid observation revision"
      let cursor : ObservationCursor := ⟨streamId, sequence⟩
      rethrow WaitCodecError.observe cursor.validate
      let wait : ObservationWait := ⟨streamId, cursor, revision, wakeCondition⟩
      rethrow WaitCodecError.observe wait.validate
      return wait
  | _ => throw .value

/-- `ObservationWait.decode`. -/
def decode (payload : Bytes) : Except WaitCodecError ObservationWait := do
  raiseIf (payload.length > maxEncodedBytes)
    (.identity "observation wait payload exceeds its size limit")
  let (fields, offset) ← decodeFields payload 5 0
  raiseIf (offset ≠ payload.length) (.identity "observation wait payload has trailing bytes")
  ofFields fields

/-! ## One field -/

theorem strOfInt_eq_ok (value : Nat) (text : String) :
    strOfInt value = .ok text ↔ (toString value).length ≤ maxStrDigits ∧ text = toString value := by
  simp only [strOfInt, bind_unit_eq_ok, raiseIf_eq_ok, not_lt, pure_eq_ok, Except.ok.injEq]
  exact and_congr_right (fun _ => eq_comm)

theorem intOfDigits_eq_ok (digits : List Char) (value : Nat) :
    intOfDigits digits = .ok value ↔
      digits.length ≤ maxStrDigits ∧ value = Nat.ofDigitChars 10 digits 0 := by
  simp only [intOfDigits, bind_unit_eq_ok, raiseIf_eq_ok, not_lt, pure_eq_ok, Except.ok.injEq]
  exact and_congr_right (fun _ => eq_comm)

/-- The separator that is found ends the first part of the rest that has none. -/
theorem findColon_eq_some {payload : Bytes} {offset separator : Nat} :
    findColon payload offset = some separator ↔ ∃ front back,
      payload.drop offset = front ++ colon :: back ∧ colon ∉ front ∧
      separator = offset + front.length := by
  unfold findColon
  rw [Option.map_eq_some_iff]
  constructor
  · rintro ⟨index, found, rfl⟩
    obtain ⟨bound, hit, before⟩ := List.findIdx?_eq_some_iff_getElem.mp found
    have split := List.take_append_drop index (payload.drop offset)
    rw [List.drop_eq_getElem_cons bound, of_decide_eq_true hit] at split
    refine ⟨_, _, split.symm, ?_, ?_⟩
    · intro member
      obtain ⟨j, less, here⟩ := List.getElem_of_mem member
      rw [List.getElem_take] at here
      exact before j (by rw [List.length_take] at less; omega) (decide_eq_true here)
    · rw [List.length_take]
      omega
  · rintro ⟨front, back, rest, absent, rfl⟩
    refine ⟨front.length, ?_, rfl⟩
    have none : front.findIdx? (· = colon) = none := by
      rw [List.findIdx?_eq_none_iff]
      intro byte member
      exact decide_eq_false (fun same => absent (same ▸ member))
    rw [rest, List.findIdx?_append, none]
    simp [List.findIdx?_cons]

/-- The part of the payload behind a prefix and its separator. -/
theorem drop_behind {payload front back : Bytes} {offset : Nat}
    (rest : payload.drop offset = front ++ colon :: back) :
    payload.drop (offset + front.length + 1) = back := by
  rw [Nat.add_assoc, ← List.drop_drop, rest, ← List.drop_drop, List.drop_left]
  rfl

/-- The prefix itself. -/
theorem take_front {payload front back : Bytes} {offset : Nat}
    (rest : payload.drop offset = front ++ colon :: back) :
    (payload.drop offset).take (offset + front.length - offset) = front := by
  rw [rest, Nat.add_sub_cancel_left, List.take_left]

/-- A field that is read is a length-prefixed text at the offset. -/
theorem decodeField_sound {payload : Bytes} {offset last : Nat} {text : String}
    (read : decodeField payload offset = .ok (text, last)) :
    payload.drop offset = field decimalBytes (utf8 text) ++ payload.drop last ∧
      last = offset + (field decimalBytes (utf8 text)).length := by
  simp only [decodeField, bind_eq_ok, exists_unit, raiseIf_eq_ok, orRaise_eq_ok, pure_eq_ok,
    Except.ok.injEq, Prod.mk.injEq, findColon_eq_some, strOfInt_eq_ok, utf8Decode_eq_some,
    not_lt, ne_eq, not_not] at read
  obtain ⟨_, ⟨front, back, rest, -, rfl⟩, -, -, length, -, canonical, ⟨-, rfl⟩, same, inside,
    decoded, value, rfl, rfl⟩ := read
  rw [take_front rest, toString_toList] at same
  have behind := drop_behind rest
  rw [behind] at value
  have room : payload.length - offset = front.length + (back.length + 1) := by
    rw [← List.length_drop, rest, List.length_append, List.length_cons]
  have taken : (utf8 decoded).length = length := by
    rw [← value, List.length_take]
    omega
  have written : field decimalBytes (utf8 decoded) = front ++ colon :: utf8 decoded := by
    unfold field
    rw [taken]
    exact congrArg (· ++ colon :: utf8 decoded) same
  constructor
  · have tail : payload.drop (offset + front.length + 1 + length) = back.drop length := by
      rw [← List.drop_drop, behind]
    rw [written, rest, List.append_assoc, List.cons_append, tail, ← value, List.take_append_drop]
  · rw [written, List.length_append, List.length_cons, taken]
    omega

/-- Every length-prefixed text within the size limit is read. -/
theorem decodeField_complete {payload : Bytes} (short : payload.length ≤ maxEncodedBytes)
    {offset : Nat} {text : String}
    (rest : payload.drop offset = field decimalBytes (utf8 text) ++
      payload.drop (offset + (field decimalBytes (utf8 text)).length)) :
    decodeField payload offset =
      .ok (text, offset + (field decimalBytes (utf8 text)).length) := by
  set value := utf8 text
  set front := decimalBytes.numeral value.length with frontDef
  have split : field decimalBytes value = front ++ colon :: value := rfl
  have chars : asciiChars front = Nat.toDigits 10 value.length :=
    asciiChars_asciiBytes (fun c => digit_of_mem_toDigits)
  have numeral : (toString value.length).length = front.length := by
    rw [frontDef, ← String.length_toList, toString_toList]
    exact (List.length_map _).symm
  have positive : 0 < front.length := by
    rw [← numeral, ← String.length_toList, toString_toList]
    exact Nat.length_toDigits_pos
  have fieldLength : (field decimalBytes value).length = front.length + (value.length + 1) := by
    rw [split, List.length_append, List.length_cons]
  have room : payload.length - offset = front.length + (value.length + 1) +
      (payload.length - (offset + (front.length + (value.length + 1)))) := by
    have lengths := congrArg List.length rest
    rwa [List.length_drop, List.length_append, List.length_drop, fieldLength] at lengths
  have digitLimit : front.length ≤ maxStrDigits := by
    have limit : maxEncodedBytes ≤ maxStrDigits := by decide
    omega
  rw [fieldLength] at rest ⊢
  rw [split, List.append_assoc, List.cons_append] at rest
  have behind := drop_behind rest
  have lengthBytes := take_front rest
  simp only [decodeField, bind_eq_ok, exists_unit, raiseIf_eq_ok, orRaise_eq_ok, pure_eq_ok,
    Except.ok.injEq, Prod.mk.injEq, findColon_eq_some, strOfInt_eq_ok, intOfDigits_eq_ok,
    utf8Decode_eq_some, not_le, not_lt, ne_eq, not_not]
  refine ⟨offset + front.length, ⟨front, _, rest, decimalBytes.separated _, rfl⟩, by omega, ?_,
    value.length, ?_, _, ⟨?_, rfl⟩, ?_, ?_, text, ?_, rfl, by omega⟩
  · rw [lengthBytes, not_or]
    refine ⟨List.ne_nil_of_length_pos positive, ?_⟩
    rintro ⟨byte, member, bad⟩
    have digit := mem_asciiBytes_digit member
    rcases bad with low | high
    · exact absurd digit.1 (UInt8.not_le.mpr low)
    · exact absurd digit.2 (UInt8.not_le.mpr high)
  · rw [lengthBytes, chars, Nat.ofDigitChars_ten_toDigits]
    refine ⟨?_, rfl⟩
    rw [← toString_toList, String.length_toList, numeral]
    exact digitLimit
  · rw [numeral]
    exact digitLimit
  · rw [lengthBytes, toString_toList]
    rfl
  · omega
  · rw [behind, List.take_left]

theorem decodeField_eq_ok {payload : Bytes} (short : payload.length ≤ maxEncodedBytes)
    {offset last : Nat} {text : String} :
    decodeField payload offset = .ok (text, last) ↔
      payload.drop offset = field decimalBytes (utf8 text) ++ payload.drop last ∧
      last = offset + (field decimalBytes (utf8 text)).length := by
  constructor
  · exact decodeField_sound
  · rintro ⟨rest, rfl⟩
    exact decodeField_complete short rest

/-! ## All fields -/

theorem joinFields_cons (text : String) (texts : List String) :
    joinFields (text :: texts) = field decimalBytes (utf8 text) ++ joinFields texts := rfl

theorem decodeFields_eq_ok {payload : Bytes} (short : payload.length ≤ maxEncodedBytes)
    {turns offset last : Nat} {texts : List String} :
    decodeFields payload turns offset = .ok (texts, last) ↔ texts.length = turns ∧
      payload.drop offset = joinFields texts ++ payload.drop last ∧
      last = offset + (joinFields texts).length := by
  induction turns generalizing offset last texts with
  | zero =>
      simp only [decodeFields, pure_eq_ok, Except.ok.injEq, Prod.mk.injEq,
        List.length_eq_zero_iff]
      constructor
      · rintro ⟨rfl, rfl⟩
        exact ⟨rfl, rfl, rfl⟩
      · rintro ⟨rfl, -, rfl⟩
        exact ⟨rfl, rfl⟩
  | succ turns ih =>
      simp only [decodeFields, bind_eq_ok, Prod.exists, pure_eq_ok, Except.ok.injEq,
        Prod.mk.injEq, decodeField_eq_ok short, ih]
      constructor
      · rintro ⟨text, next, ⟨head, rfl⟩, rest, final, ⟨count, tail, rfl⟩, rfl, rfl⟩
        refine ⟨congrArg (· + 1) count, ?_, ?_⟩
        · rw [head, tail, joinFields_cons, List.append_assoc]
        · rw [joinFields_cons, List.length_append, Nat.add_assoc]
      · rintro ⟨count, whole, rfl⟩
        cases texts with
        | nil => cases count
        | cons text rest =>
            simp only [joinFields_cons, List.append_assoc, List.length_append, ← Nat.add_assoc]
              at whole ⊢
            have tail : payload.drop (offset + (field decimalBytes (utf8 text)).length) =
                joinFields rest ++ payload.drop (offset +
                  (field decimalBytes (utf8 text)).length + (joinFields rest).length) := by
              rw [← List.drop_drop, whole, List.drop_left]
            refine ⟨text, _, ⟨?_, rfl⟩, rest, _, ⟨Nat.succ.inj count, tail, rfl⟩, rfl, rfl⟩
            rw [tail, whole]

/-- The integers of the format are the texts that `str` writes. -/
theorem parseCanonicalAsciiInteger_eq_ok {value : String} (short : value.length ≤ maxStrDigits)
    (errorMessage : String) (n : Nat) :
    parseCanonicalAsciiInteger value errorMessage = .ok n ↔ value = toString n := by
  simp only [parseCanonicalAsciiInteger, bind_unit_eq_ok, raiseIf_eq_ok, intOfDigits_eq_ok]
  constructor
  · rintro ⟨digits, leading, -, rfl⟩
    rw [not_or] at digits
    have each : ∀ c ∈ value.toList, c.isDigit = true := by
      intro c member
      have low : ¬ c < '0' := fun low => digits.2 ⟨c, member, .inl low⟩
      have high : ¬ c > '9' := fun high => digits.2 ⟨c, member, .inr high⟩
      simp only [Char.isDigit, Bool.and_eq_true, decide_eq_true_eq]
      exact ⟨not_lt.mp low, not_lt.mp high⟩
    have nonempty : value.toList ≠ [] := fun empty => digits.1 (String.toList_eq_nil_iff.mp empty)
    have canonical : value.toList.length = 1 ∨ value.toList.head? ≠ some '0' := by
      have positive := List.length_pos_of_ne_nil nonempty
      by_cases zero : value.toList.head? = some '0'
      · left
        have notLonger : ¬ value.length > 1 := fun longer => leading ⟨longer, zero⟩
        rw [← String.length_toList] at notLonger
        omega
      · exact .inr zero
    rw [← String.toList_inj, toString_toList]
    exact (toDigits_ofDigitChars each nonempty canonical).symm
  · rintro rfl
    rw [toString_toList, ← String.length_toList, toString_toList]
    refine ⟨?_, ?_, ?_, ?_⟩
    · rw [not_or]
      constructor
      · intro empty
        have digits := congrArg String.toList empty
        rw [toString_toList] at digits
        exact List.ne_nil_of_length_pos Nat.length_toDigits_pos digits
      · rintro ⟨c, member, bad⟩
        have digit := digit_of_mem_toDigits member
        simp only [Char.isDigit, Bool.and_eq_true, decide_eq_true_eq] at digit
        rcases bad with low | high
        · exact absurd digit.1 (not_le.mpr low)
        · exact absurd digit.2 (not_le.mpr high)
    · rintro ⟨longer, zero⟩
      refine head_toDigits (n := n) (Nat.pos_of_ne_zero ?_) zero
      rintro rfl
      exact absurd longer (by decide)
    · rwa [← toString_toList, String.length_toList]
    · exact Nat.ofDigitChars_ten_toDigits.symm

/-- The five texts a wait is written as. -/
def fields (wait : ObservationWait) : List String :=
  [marker, wait.streamId, toString wait.afterCursor.sequence, toString wait.observationRevision,
    wait.wakeCondition]

/-- Five short texts make a wait exactly when they are the texts of a valid one. -/
theorem ofFields_eq_ok {texts : List String} (short : ∀ text ∈ texts, text.length ≤ maxStrDigits)
    (wait : ObservationWait) : ofFields texts = .ok wait ↔ wait.Valid ∧ texts = wait.fields := by
  constructor
  · intro made
    unfold ofFields at made
    split at made
    · rename_i codecMarker streamId sequenceText revisionText wakeCondition
      simp only [bind_eq_ok, exists_unit, raiseIf_eq_ok, ne_eq, not_not, rethrow_eq_ok, pure_eq_ok,
        Except.ok.injEq] at made
      obtain ⟨rfl, sequence, sequenceOk, revision, revisionOk, cursorOk, waitOk, rfl⟩ := made
      rw [parseCanonicalAsciiInteger_eq_ok (short _ (by simp))] at sequenceOk revisionOk
      subst sequenceOk revisionOk
      exact ⟨⟨cursorOk, waitOk⟩, rfl⟩
    · cases made
  · rintro ⟨⟨cursorOk, waitOk⟩, rfl⟩
    have sameStream : wait.afterCursor.streamId = wait.streamId := by
      simp only [validate, bind_unit_eq_ok, identityIf, raiseIf_eq_ok, ne_eq, not_not] at waitOk
      exact waitOk.2.1
    simp only [ofFields, fields, bind_eq_ok, exists_unit, raiseIf_eq_ok, ne_eq, not_not,
      rethrow_eq_ok, pure_eq_ok, Except.ok.injEq]
    have sequenceOk := (parseCanonicalAsciiInteger_eq_ok (short (toString wait.afterCursor.sequence)
      (by simp [fields])) "observation wait payload has an invalid cursor sequence" _).mpr rfl
    have revisionOk := (parseCanonicalAsciiInteger_eq_ok (short (toString wait.observationRevision)
      (by simp [fields])) "observation wait payload has an invalid observation revision" _).mpr rfl
    have cursor : (⟨wait.streamId, wait.afterCursor.sequence⟩ : ObservationCursor) =
        wait.afterCursor := by
      rw [← sameStream]
    refine ⟨trivial, _, sequenceOk, _, revisionOk, ?_⟩
    rw [cursor]
    exact ⟨cursorOk, waitOk, rfl⟩

/-- A text of a joined payload is no longer than the payload. -/
theorem length_of_mem_fields {texts : List String} {text : String} (member : text ∈ texts) :
    text.length ≤ (joinFields texts).length := by
  have bytes := length_encode decimalBytes (List.mem_map_of_mem (f := utf8) member)
  have chars := length_le_utf8 text
  unfold joinFields
  omega

theorem decode_eq_ok (payload : Bytes) (wait : ObservationWait) :
    decode payload = .ok wait ↔
      wait.Valid ∧ payload = joinFields wait.fields ∧ payload.length ≤ maxEncodedBytes := by
  have limit : maxEncodedBytes ≤ maxStrDigits := by decide
  simp only [decode, bind_eq_ok, exists_unit, raiseIf_eq_ok, Prod.exists, ne_eq, not_not, not_lt,
    gt_iff_lt]
  constructor
  · rintro ⟨short, texts, last, read, rfl, made⟩
    obtain ⟨-, whole, lengths⟩ := (decodeFields_eq_ok short).mp read
    rw [List.drop_zero, List.drop_length, List.append_nil] at whole
    have shortTexts : ∀ text ∈ texts, text.length ≤ maxStrDigits := by
      intro text member
      have bound := length_of_mem_fields member
      rw [← whole] at bound
      omega
    obtain ⟨valid, rfl⟩ := (ofFields_eq_ok shortTexts wait).mp made
    exact ⟨valid, whole, short⟩
  · rintro ⟨valid, rfl, short⟩
    have shortTexts : ∀ text ∈ wait.fields, text.length ≤ maxStrDigits := by
      intro text member
      have bound := length_of_mem_fields member
      omega
    refine ⟨short, wait.fields, (joinFields wait.fields).length, ?_, rfl, ?_⟩
    · refine (decodeFields_eq_ok short).mpr ⟨rfl, ?_, ?_⟩
      · rw [List.drop_zero, List.drop_length, List.append_nil]
      · rw [Nat.zero_add]
    · exact (ofFields_eq_ok shortTexts wait).mpr ⟨valid, rfl⟩

theorem encode_eq_ok (wait : ObservationWait) (payload : Bytes) :
    wait.encode = .ok payload ↔
      payload = joinFields wait.fields ∧ payload.length ≤ maxEncodedBytes := by
  have limit : maxEncodedBytes ≤ maxStrDigits := by decide
  simp only [encode, bind_eq_ok, exists_unit, raiseIf_eq_ok, strOfInt_eq_ok, pure_eq_ok,
    Except.ok.injEq, not_lt]
  constructor
  · rintro ⟨_, ⟨-, rfl⟩, _, ⟨-, rfl⟩, short, rfl⟩
    exact ⟨rfl, short⟩
  · rintro ⟨rfl, short⟩
    have digits : ∀ text ∈ wait.fields, text.length ≤ maxStrDigits := by
      intro text member
      have bound := length_of_mem_fields member
      omega
    exact ⟨_, ⟨digits _ (by simp [fields]), rfl⟩, _, ⟨digits _ (by simp [fields]), rfl⟩, short,
      rfl⟩

/-! ## Errors -/

/-- The error is an `ObserveIdentityError`. -/
def IsIdentityError (error : WaitCodecError) : Prop := ∃ message, error = .identity message

theorem isIdentityError (message : String) : IsIdentityError (.identity message) :=
  ⟨message, rfl⟩

theorem requireText_raises (value field : String) :
    RaisesOnly IsIdentityError (rethrow WaitCodecError.observe (requireText value field)) := by
  intro error raised
  obtain ⟨inner, failed, rfl⟩ := (rethrow_eq_error _ _ _).mp raised
  simp only [requireText, bind_unit_eq_error, identityIf, raiseIf_eq_error] at failed
  rcases failed with ⟨-, rfl⟩ | ⟨-, -, rfl⟩ <;> exact isIdentityError _

theorem validate_raises (wait : ObservationWait) :
    RaisesOnly IsIdentityError (rethrow WaitCodecError.observe wait.validate) := by
  intro error raised
  obtain ⟨inner, failed, rfl⟩ := (rethrow_eq_error _ _ _).mp raised
  simp only [validate, bind_unit_eq_error, identityIf, raiseIf_eq_error] at failed
  rcases failed with text | ⟨-, ⟨-, rfl⟩ | ⟨-, text⟩⟩
  · exact requireText_raises _ _ _ ((rethrow_eq_error _ _ _).mpr ⟨_, text, rfl⟩)
  · exact isIdentityError _
  · exact requireText_raises _ _ _ ((rethrow_eq_error _ _ _).mpr ⟨_, text, rfl⟩)

theorem intOfDigits_raises {digits : List Char} (short : digits.length ≤ maxStrDigits) :
    RaisesOnly IsIdentityError (intOfDigits digits) := by
  intro error raised
  rw [(intOfDigits_eq_ok digits _).mpr ⟨short, rfl⟩] at raised
  cases raised

theorem strOfInt_raises {digits : List Char} (each : ∀ c ∈ digits, c.isDigit = true)
    (positive : 0 < digits.length) (short : digits.length ≤ maxStrDigits) :
    RaisesOnly IsIdentityError (strOfInt (Nat.ofDigitChars 10 digits 0)) := by
  intro error raised
  have small := (Nat.length_toDigits_le_iff (by decide) positive).mpr (ofDigitChars_lt each)
  rw [← toString_toList, String.length_toList] at small
  rw [(strOfInt_eq_ok _ _).mpr ⟨small.trans short, rfl⟩] at raised
  cases raised

theorem isDigit_ofNat {byte : UInt8} (low : 48 ≤ byte) (high : byte ≤ 57) :
    (Char.ofNat byte.toNat).isDigit = true := by
  rw [UInt8.le_iff_toNat_le] at low high
  have low' : 48 ≤ byte.toNat := low
  have high' : byte.toNat ≤ 57 := high
  generalize byte.toNat = n at low' high'
  interval_cases n <;> rfl

/-- Within the size limit a prefix never has more digits than the conversions accept. -/
theorem decodeField_raises {payload : Bytes} (short : payload.length ≤ maxEncodedBytes)
    (offset : Nat) : RaisesOnly IsIdentityError (decodeField payload offset) := by
  have limit : maxEncodedBytes ≤ maxStrDigits := by decide
  unfold decodeField
  refine RaisesOnly.bind (.orRaise (isIdentityError _)) (fun separator _ => ?_)
  refine RaisesOnly.bind (.raiseIf (isIdentityError _)) (fun _ _ => ?_)
  refine RaisesOnly.bind (.raiseIf (isIdentityError _)) (fun _ digits => ?_)
  rw [raiseIf_eq_ok, not_or] at digits
  obtain ⟨nonempty, digits⟩ := digits
  set lengthBytes := (payload.drop offset).take (separator - offset)
  have each : ∀ c ∈ asciiChars lengthBytes, c.isDigit = true := by
    intro c member
    obtain ⟨byte, inside, rfl⟩ := List.mem_map.mp member
    refine isDigit_ofNat ?_ ?_
    · exact UInt8.not_lt.mp (fun low => digits ⟨byte, inside, .inl low⟩)
    · exact UInt8.not_lt.mp (fun high => digits ⟨byte, inside, .inr high⟩)
  have length : (asciiChars lengthBytes).length = lengthBytes.length := List.length_map _
  have few : lengthBytes.length ≤ payload.length := by
    rw [List.length_take, List.length_drop]
    omega
  have positive : 0 < lengthBytes.length := List.length_pos_of_ne_nil nonempty
  refine RaisesOnly.bind (intOfDigits_raises (by omega)) (fun value read => ?_)
  obtain ⟨-, rfl⟩ := (intOfDigits_eq_ok _ _).mp read
  refine RaisesOnly.bind (strOfInt_raises each (by omega) (by omega)) (fun _ _ => ?_)
  refine RaisesOnly.bind (.raiseIf (isIdentityError _)) (fun _ _ => ?_)
  refine RaisesOnly.bind (.raiseIf (isIdentityError _)) (fun _ _ => ?_)
  refine RaisesOnly.bind (.orRaise (isIdentityError _)) (fun _ _ => ?_)
  exact .ok _

theorem decodeFields_raises {payload : Bytes} (short : payload.length ≤ maxEncodedBytes)
    (turns offset : Nat) : RaisesOnly IsIdentityError (decodeFields payload turns offset) := by
  induction turns generalizing offset with
  | zero => exact .ok _
  | succ turns ih =>
      unfold decodeFields
      refine RaisesOnly.bind (decodeField_raises short offset) (fun read _ => ?_)
      refine RaisesOnly.bind (ih read.2) (fun _ _ => ?_)
      exact .ok _

theorem parseCanonicalAsciiInteger_raises {value : String} (short : value.length ≤ maxStrDigits)
    (errorMessage : String) :
    RaisesOnly IsIdentityError (parseCanonicalAsciiInteger value errorMessage) := by
  unfold parseCanonicalAsciiInteger
  refine RaisesOnly.bind (.raiseIf (isIdentityError _)) (fun _ _ => ?_)
  refine RaisesOnly.bind (.raiseIf (isIdentityError _)) (fun _ _ => ?_)
  exact intOfDigits_raises (by rwa [String.length_toList])

theorem ofFields_raises {texts : List String} (five : texts.length = 5)
    (short : ∀ text ∈ texts, text.length ≤ maxStrDigits) :
    RaisesOnly IsIdentityError (ofFields texts) := by
  unfold ofFields
  split
  · refine RaisesOnly.bind (.raiseIf (isIdentityError _)) (fun _ _ => ?_)
    refine RaisesOnly.bind (parseCanonicalAsciiInteger_raises (short _ (by simp)) _)
      (fun _ _ => ?_)
    refine RaisesOnly.bind (parseCanonicalAsciiInteger_raises (short _ (by simp)) _)
      (fun _ _ => ?_)
    refine RaisesOnly.bind (requireText_raises _ _) (fun _ _ => ?_)
    refine RaisesOnly.bind (validate_raises _) (fun _ _ => ?_)
    exact .ok _
  · rename_i other
    rcases texts with _ | ⟨a, _ | ⟨b, _ | ⟨c, _ | ⟨d, _ | ⟨e, _ | ⟨f, rest⟩⟩⟩⟩⟩⟩
    all_goals try (simp only [List.length_nil, List.length_cons] at five; omega)
    exact absurd rfl (other a b c d e)

theorem decode_raises (payload : Bytes) : RaisesOnly IsIdentityError (decode payload) := by
  have limit : maxEncodedBytes ≤ maxStrDigits := by decide
  unfold decode
  refine RaisesOnly.bind (.raiseIf (isIdentityError _)) (fun _ within => ?_)
  have short : payload.length ≤ maxEncodedBytes := not_lt.mp ((raiseIf_eq_ok _ _ _).mp within)
  refine RaisesOnly.bind (decodeFields_raises short 5 0) (fun read ok => ?_)
  obtain ⟨five, whole, -⟩ := (decodeFields_eq_ok short).mp ok
  refine RaisesOnly.bind (.raiseIf (isIdentityError _)) (fun _ _ => ?_)
  refine ofFields_raises five (fun text member => ?_)
  have bound := length_of_mem_fields member
  have lengths := congrArg List.length whole
  rw [List.drop_zero, List.length_append] at lengths
  omega

/-! ## The codec -/

/-- The codec is a bijection onto its image: a valid wait within the size limit is encoded and
read back, an accepted payload is the encoding of what it is read as, and every other payload
raises `ObserveIdentityError`. -/
theorem wait_codec_bijective :
    (∀ wait : ObservationWait, wait.Valid →
      (joinFields wait.fields).length ≤ maxEncodedBytes →
      ∃ payload, wait.encode = .ok payload ∧ decode payload = .ok wait) ∧
    (∀ payload wait, decode payload = .ok wait → wait.encode = .ok payload) ∧
    (∀ payload, (∃ wait, decode payload = .ok wait ∧ wait.Valid) ∨
      ∃ message, decode payload = .error (.identity message)) := by
  refine ⟨?_, ?_, ?_⟩
  · intro wait valid short
    exact ⟨joinFields wait.fields, (encode_eq_ok _ _).mpr ⟨rfl, short⟩,
      (decode_eq_ok _ _).mpr ⟨valid, rfl, short⟩⟩
  · intro payload wait read
    obtain ⟨-, whole, short⟩ := (decode_eq_ok payload wait).mp read
    exact (encode_eq_ok wait payload).mpr ⟨whole, short⟩
  · intro payload
    cases read : decode payload with
    | ok wait => exact .inl ⟨wait, rfl, ((decode_eq_ok payload wait).mp read).1⟩
    | error error =>
        obtain ⟨message, rfl⟩ := decode_raises payload error read
        exact .inr ⟨message, rfl⟩

/-- A wait whose texts contain separators, digits and a two-byte character. -/
def accentedWait : ObservationWait := ⟨"é:12", ⟨"é:12", 10⟩, 0, "3:x"⟩

theorem accentedWait_round_trip :
    ∃ payload, accentedWait.encode = .ok payload ∧ decode payload = .ok accentedWait :=
  wait_codec_bijective.1 accentedWait ⟨by decide, by decide⟩ (by decide)

end ObservationWait

end MoteKernel.Observe
