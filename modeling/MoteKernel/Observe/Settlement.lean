import Mathlib.Data.List.Chain
import MoteKernel.Observe.Write
import MoteKernel.State.ComposedIdentity

/-!
# A settled observation

The checks `WriteObservationNode` makes after its Ports have answered follow
from the admission of the frame and of the receipts, except for the length of
the settlement identity it composes.
-/

namespace MoteKernel.Observe
open Checked

variable {π η κ γ : Type}

/-! ## Guards -/

@[simp] theorem contractIf_eq_ok (bad : Prop) [Decidable bad] (message : String) (u : Unit) :
    contractIf bad message = .ok u ↔ ¬ bad :=
  raiseIf_eq_ok bad _ u

@[simp] theorem identityIf_eq_ok (bad : Prop) [Decidable bad] (message : String) (u : Unit) :
    identityIf bad message = .ok u ↔ ¬ bad :=
  raiseIf_eq_ok bad _ u

@[simp] theorem revalidate_eq_ok {α : Type} (fieldName : String) (x : Except ObserveError α)
    (a : α) : revalidate fieldName x = .ok a ↔ x = .ok a :=
  rethrow_eq_ok _ x a

theorem requireText_eq_ok (value field : String) (u : Unit) :
    requireText value field = .ok u ↔
      isCanonicalIdentity value = true ∧ value.utf8ByteSize ≤ identityMaxBytes := by
  simp [requireText]

/-! ## Windows -/

theorem neighbours_map_snd {α : Type} (first : α) (rest : List α) :
    (neighbours (first :: rest)).map Prod.snd = rest := by
  rw [neighbours, List.tail_cons]
  apply List.map_snd_zip
  simp

theorem forall_neighbours_iff {α : Type} (R : α → α → Prop) (items : List α) :
    (∀ pair ∈ neighbours items, R pair.1 pair.2) ↔ items.IsChain R := by
  induction items with
  | nil => simp [neighbours]
  | cons first rest ih =>
      cases rest with
      | nil => simp [neighbours]
      | cons second rest =>
          have step : neighbours (first :: second :: rest) =
              (first, second) :: neighbours (second :: rest) := rfl
          rw [step, List.forall_mem_cons, ih, List.isChain_cons_cons]

/-- What every projection of a queue window keeps: one stream, one revision, cursors in FIFO
order and distinct deliveries. -/
structure Window (deliveries : List (ObservationDelivery π)) : Prop where
  stream : ∀ a ∈ deliveries, ∀ b ∈ deliveries, a.streamId = b.streamId
  revision : ∀ a ∈ deliveries, ∀ b ∈ deliveries, a.observationRevision = b.observationRevision
  ordered : deliveries.Pairwise (fun a b => a.cursorAfter.sequence ≤ b.cursorBefore.sequence)
  distinct : (deliveries.map (·.deliveryId)).Nodup

theorem Window.sublist {deliveries kept : List (ObservationDelivery π)} (window : Window deliveries)
    (sub : kept.Sublist deliveries) : Window kept where
  stream a inA b inB := window.stream a (sub.subset inA) b (sub.subset inB)
  revision a inA b inB := window.revision a (sub.subset inA) b (sub.subset inB)
  ordered := window.ordered.sublist sub
  distinct := window.distinct.sublist (sub.map _)

/-- Contiguous deliveries that advance are in FIFO order. -/
theorem ordered_of_contiguous {deliveries : List (ObservationDelivery π)}
    (advances : ∀ d ∈ deliveries, d.cursorBefore.sequence < d.cursorAfter.sequence)
    (contiguous : deliveries.IsChain (fun a b => b.cursorBefore = a.cursorAfter)) :
    deliveries.Pairwise (fun a b => a.cursorAfter.sequence ≤ b.cursorBefore.sequence) := by
  induction deliveries with
  | nil => exact .nil
  | cons first rest ih =>
      have later := ih (fun d member => advances d (List.mem_cons_of_mem _ member))
        contiguous.of_cons
      apply List.Pairwise.cons _ later
      intro d member
      cases rest with
      | nil => cases member
      | cons second rest =>
          have joined : second.cursorBefore = first.cursorAfter :=
            (List.isChain_cons_cons.mp contiguous).1
          have moves := advances second (by simp)
          rcases List.mem_cons.mp member with rfl | further
          · rw [joined]
          · have after := (List.pairwise_cons.mp later).1 d further
            rw [← joined]
            omega

/-- The complete window of an admitted batch. -/
theorem window_of_sequence {deliveries : List (ObservationDelivery π)} {fieldName : String}
    (valid : validateDeliverySequence fieldName deliveries = .ok ())
    (advances : ∀ d ∈ deliveries, d.cursorBefore.sequence < d.cursorAfter.sequence)
    (distinct : (deliveries.map (·.deliveryId)).Nodup) : Window deliveries := by
  cases deliveries with
  | nil => cases valid
  | cons first rest =>
      simp only [validateDeliverySequence, checkAll_eq_ok, validateNeighbours, bind_unit_eq_ok,
        contractIf_eq_ok, ne_eq, not_not, decide_eq_true_eq] at valid
      have same : ∀ d ∈ first :: rest, d.streamId = first.streamId ∧
          d.observationRevision = first.observationRevision := by
        intro d member
        rcases List.mem_cons.mp member with rfl | later
        · exact ⟨rfl, rfl⟩
        · rw [← neighbours_map_snd first rest] at later
          obtain ⟨pair, inside, rfl⟩ := List.mem_map.mp later
          exact ⟨(valid pair inside).1, (valid pair inside).2.1⟩
      constructor
      · intro a inA b inB
        rw [(same a inA).1, (same b inB).1]
      · intro a inA b inB
        rw [(same a inA).2, (same b inB).2]
      · apply ordered_of_contiguous advances
        rw [← forall_neighbours_iff (fun a b : ObservationDelivery π =>
          b.cursorBefore = a.cursorAfter)]
        intro pair inside
        exact (valid pair inside).2.2
      · exact distinct

/-- A part of a window in one class is a valid batch of that class. -/
theorem FamilyBatch.validate_of_window {batch : FamilyBatch π} (window : Window batch.deliveries)
    (nonempty : batch.deliveries ≠ [])
    (sameFamily : ∀ d ∈ batch.deliveries, d.payload.family = batch.family) :
    batch.validate = .ok () := by
  obtain ⟨family, deliveries⟩ := batch
  cases deliveries with
  | nil => exact absurd rfl nonempty
  | cons first rest =>
      simp only [FamilyBatch.validate, Observe.deliveryIds, bind_eq_ok, exists_unit,
        contractIf_eq_ok, checkAll_eq_ok, pure_eq_ok]
      refine ⟨?_, _, ⟨by simpa using window.distinct, rfl⟩, ?_⟩
      · intro pair inside
        have second : pair.2 ∈ first :: rest := by
          apply List.mem_cons_of_mem
          rw [← neighbours_map_snd first rest]
          exact List.mem_map_of_mem inside
        have placed := (forall_neighbours_iff _ _).mpr window.ordered.isChain pair inside
        simp only [validateNeighbours, bind_unit_eq_ok, contractIf_eq_ok, ne_eq, not_not,
          decide_eq_true_eq, not_lt]
        exact ⟨window.stream _ second _ List.mem_cons_self,
          window.revision _ second _ List.mem_cons_self, placed⟩
      · rintro ⟨d, member, other⟩
        exact other (sameFamily d member)

/-! ## Families -/

/-- The class of a non-Config family. -/
def NonConfigObservationFamily.observation : NonConfigObservationFamily → ObservationFamily
  | tool => .tool
  | user => .user
  | assistant => .assistant

theorem nonConfig_eq_some {family : ObservationFamily} {other : NonConfigObservationFamily} :
    family.nonConfig = some other ↔ family = other.observation := by
  cases family <;> cases other <;> simp [ObservationFamily.nonConfig,
    NonConfigObservationFamily.observation]

theorem nonConfig_eq_none {family : ObservationFamily} :
    family.nonConfig = none ↔ family = .config := by
  cases family <;> simp [ObservationFamily.nonConfig]

theorem mem_familiesForDeliveries {deliveries : List (ObservationDelivery π)}
    {family : NonConfigObservationFamily} :
    family ∈ familiesForDeliveries deliveries ↔
      ∃ d ∈ deliveries, d.payload.family = family.observation := by
  induction deliveries using List.reverseRecOn with
  | nil => simp [familiesForDeliveries]
  | append_singleton rest last ih =>
      have fold : familiesForDeliveries rest = rest.foldl _ [] := rfl
      simp only [List.mem_append, List.mem_singleton, or_and_right, exists_or, exists_eq_left, ← ih]
      rw [familiesForDeliveries, List.foldl_append, List.foldl_cons, List.foldl_nil, ← fold]
      split
      · rename_i seen found
        have same : last.payload.family = family.observation ↔ seen = family := by
          rw [← nonConfig_eq_some, found, Option.some.injEq]
        rw [same]
        by_cases known : seen ∈ familiesForDeliveries rest
        · rw [if_neg (not_not.mpr known)]
          constructor
          · exact .inl
          · intro either
            rcases either with here | same
            · exact here
            · rw [← same]
              exact known
        · rw [if_pos known, List.mem_append, List.mem_singleton, eq_comm (a := family)]
      · rename_i found
        have isConfig := nonConfig_eq_none.mp found
        have other : last.payload.family ≠ family.observation := by
          rw [isConfig]
          cases family <;> simp [NonConfigObservationFamily.observation]
        simp [other]

/-- In a batch without conflict every delivery is Config or of the one other family. -/
theorem family_of_mem {batch : ObservationBatch π} {families : List NonConfigObservationFamily}
    (known : batch.nonConfigFamilies = families) {d : ObservationDelivery π}
    (member : d ∈ batch.deliveries) :
    d.payload.family = .config ∨ ∃ family ∈ families, d.payload.family = family.observation := by
  cases found : d.payload.family.nonConfig with
  | none => exact .inl (nonConfig_eq_none.mp found)
  | some family =>
      have same := nonConfig_eq_some.mp found
      refine .inr ⟨family, ?_, same⟩
      rw [← known]
      exact mem_familiesForDeliveries.mpr ⟨d, member, same⟩

/-- `ObservationBatch.config`, `tool`, `user` and `assistant` never raise on a window. -/
theorem project_eq {batch : ObservationBatch π} (window : Window batch.deliveries)
    (family : ObservationFamily) :
    batch.project family = .ok (if batch.ofFamily family = [] then none
      else some ⟨family, batch.ofFamily family⟩) := by
  unfold ObservationBatch.project
  split
  · rename_i empty
    rw [if_pos empty]
    rfl
  · rename_i deliveries nonempty
    have valid : (FamilyBatch.mk family (batch.ofFamily family)).validate = .ok () := by
      apply FamilyBatch.validate_of_window (window.sublist List.filter_sublist) nonempty
      intro d member
      simpa using (List.mem_filter.mp member).2
    rw [if_neg nonempty]
    dsimp only
    rw [valid]
    rfl

theorem ofFamily_eq_nil {batch : ObservationBatch π} {family : ObservationFamily} :
    batch.ofFamily family = [] ↔ ∀ d ∈ batch.deliveries, d.payload.family ≠ family := by
  simp [ObservationBatch.ofFamily, List.filter_eq_nil_iff]

/-- Without a non-Config family there is nothing to append to Context. -/
theorem contextBatch_none {batch : ObservationBatch π} (window : Window batch.deliveries)
    (families : batch.nonConfigFamilies = []) : contextBatch batch = .ok none := by
  have empty : ∀ family : NonConfigObservationFamily, batch.ofFamily family.observation = [] := by
    intro family
    rw [ofFamily_eq_nil]
    intro d member same
    have listed := mem_familiesForDeliveries.mpr ⟨d, member, same⟩
    rw [ObservationBatch.nonConfigFamilies] at families
    rw [families] at listed
    cases listed
  have tool := empty .tool
  have user := empty .user
  have assistant := empty .assistant
  simp only [NonConfigObservationFamily.observation] at tool user assistant
  simp [contextBatch, ObservationBatch.tool, ObservationBatch.user, ObservationBatch.assistant,
    project_eq window, tool, user, assistant]

/-- The Context batch holds the deliveries of the one non-Config family. -/
theorem contextBatch_some {batch : ObservationBatch π} (window : Window batch.deliveries)
    {family : NonConfigObservationFamily} (families : batch.nonConfigFamilies = [family]) :
    contextBatch batch = .ok (some ⟨family.observation, batch.ofFamily family.observation⟩) ∧
      batch.ofFamily family.observation ≠ [] := by
  have present : batch.ofFamily family.observation ≠ [] := by
    rw [ne_eq, ofFamily_eq_nil]
    intro absent
    have listed : family ∈ familiesForDeliveries batch.deliveries := by
      rw [← ObservationBatch.nonConfigFamilies, families]
      exact List.mem_singleton_self family
    obtain ⟨d, member, same⟩ := mem_familiesForDeliveries.mp listed
    exact absent d member same
  have others : ∀ other : NonConfigObservationFamily, other ≠ family →
      batch.ofFamily other.observation = [] := by
    intro other different
    rw [ofFamily_eq_nil]
    intro d member same
    have listed := mem_familiesForDeliveries.mpr ⟨d, member, same⟩
    rw [← ObservationBatch.nonConfigFamilies, families, List.mem_singleton] at listed
    exact different listed
  refine ⟨?_, present⟩
  cases family with
  | tool =>
      simp only [NonConfigObservationFamily.observation] at present ⊢
      simp [contextBatch, ObservationBatch.tool, project_eq window, present]
  | user =>
      have tool := others .tool (by decide)
      simp only [NonConfigObservationFamily.observation] at present tool ⊢
      simp [contextBatch, ObservationBatch.tool, ObservationBatch.user, project_eq window,
        present, tool]
  | assistant =>
      have tool := others .tool (by decide)
      have user := others .user (by decide)
      simp only [NonConfigObservationFamily.observation] at present tool user ⊢
      simp [contextBatch, ObservationBatch.tool, ObservationBatch.user,
        ObservationBatch.assistant, project_eq window, present, tool, user]

/-! ## FIFO order -/

/-- A subsequence is found by taking each element at its first occurrence. -/
theorem isFifoSubsequence_of_sublist {α : Type} [DecidableEq α] {subset sequence : List α}
    (kept : subset.Sublist sequence) : isFifoSubsequence subset sequence = true := by
  induction sequence generalizing subset with
  | nil =>
      rw [List.sublist_nil.mp kept]
      rfl
  | cons head sequence ih =>
      cases subset with
      | nil => rfl
      | cons expected subset =>
          unfold isFifoSubsequence
          by_cases here : head = expected
          · subst here
            rw [List.dropWhile_cons_of_neg (by simp)]
            exact ih (List.cons_sublist_cons.mp kept)
          · rw [List.dropWhile_cons_of_pos (by simpa using here)]
            have later : (expected :: subset).Sublist sequence := by
              cases kept with
              | cons _ rest => exact rest
              | cons_cons _ rest => exact absurd rfl here
            have found := ih later
            unfold isFifoSubsequence at found
            exact found

/-! ## Settlement identities -/

theorem settlementField_toList (part : String) :
    (settlementField part).toList = Nat.toDigits 10 part.utf8ByteSize ++ ':' :: part.toList := by
  simp [settlementField]

theorem join_settlementField_toList (parts : List String) :
    (String.join (parts.map settlementField)).toList =
      parts.flatMap (fun part => Nat.toDigits 10 part.utf8ByteSize ++ ':' :: part.toList) := by
  induction parts with
  | nil => rfl
  | cons part parts ih =>
      simp only [List.map_cons, String.join_cons, String.toList_append, ih,
        settlementField_toList, List.flatMap_cons]

/-- Parts without line breaks compose to a canonical text when the last is canonical. -/
theorem join_settlementField_canonical {parts : List String} {last : String}
    (lines : ∀ part ∈ parts, '\n' ∉ part.toList ∧ '\r' ∉ part.toList)
    (canonical : isCanonicalIdentity last = true) :
    isCanonicalIdentity (String.join ((parts ++ [last]).map settlementField)) = true := by
  obtain ⟨nonempty, -, ends, newline, carriage⟩ := (isCanonicalIdentity_iff last).mp canonical
  have clean : ∀ c, c = '\n' ∨ c = '\r' → c ∉ (parts ++ [last]).flatMap
      (fun part => Nat.toDigits 10 part.utf8ByteSize ++ ':' :: part.toList) := by
    intro c broken member
    obtain ⟨part, inside, here⟩ := List.mem_flatMap.mp member
    rcases List.mem_append.mp here with digit | here
    · have isDigit := LengthPrefix.digit_of_mem_toDigits digit
      rcases broken with rfl | rfl <;> exact absurd isDigit (by decide)
    rcases List.mem_cons.mp here with rfl | here
    · rcases broken with broken | broken <;> exact absurd broken (by decide)
    rcases List.mem_append.mp inside with early | late
    · rcases broken with rfl | rfl
      · exact (lines part early).1 here
      · exact (lines part early).2 here
    · rw [List.mem_singleton.mp late] at here
      rcases broken with rfl | rfl
      · exact newline here
      · exact carriage here
  rw [isCanonicalIdentity_iff, join_settlementField_toList]
  refine ⟨?_, ?_, ?_, clean _ (.inl rfl), clean _ (.inr rfl)⟩
  · simp
  · -- the text starts with a digit of the first length
    have first : ∀ texts : List String, texts ≠ [] → ∀ c ∈ (texts.flatMap (fun part =>
        Nat.toDigits 10 part.utf8ByteSize ++ ':' :: part.toList)).head?, c.isDigit = true := by
      intro texts some c head
      obtain ⟨text, texts, rfl⟩ := List.exists_cons_of_ne_nil some
      obtain ⟨digit, digits, numeral⟩ :=
        List.exists_cons_of_ne_nil (Nat.toDigits_ne_nil (n := text.utf8ByteSize) (b := 10))
      have found : c = digit := by
        rw [List.flatMap_cons, numeral] at head
        simpa [eq_comm] using head
      subst found
      exact LengthPrefix.digit_of_mem_toDigits (numeral ▸ List.mem_cons_self)
    intro c head
    exact digit_not_space (first _ (by simp) c head)
  · intro c final
    rw [List.flatMap_append, List.flatMap_singleton, List.getLast?_append_of_ne_nil _ (by simp),
      List.getLast?_append_of_ne_nil _ (by simp), List.getLast?_cons] at final
    apply ends c
    rw [Option.mem_def] at final ⊢
    rw [← final, List.getLast?_eq_some_getLast nonempty]
    rfl

/-- The composed identity of admitted receipts is canonical. -/
theorem composedSettlementId_canonical {boundary : ObservationBoundary}
    {configReceipt : Option SettlementReceipt} {contextReceipt : Option ContextAppendReceipt}
    (stream : isCanonicalIdentity boundary.streamId = true)
    (config : ∀ receipt ∈ configReceipt, isCanonicalIdentity receipt.settlementId = true)
    (context : ∀ receipt ∈ contextReceipt, isCanonicalIdentity receipt.settlementId = true)
    (some : configReceipt ≠ none ∨ contextReceipt ≠ none) :
    isCanonicalIdentity (composedSettlementId boundary configReceipt contextReceipt) = true := by
  have line : ∀ text, isCanonicalIdentity text = true →
      '\n' ∉ text.toList ∧ '\r' ∉ text.toList := by
    intro text canonical
    exact ((isCanonicalIdentity_iff text).mp canonical).2.2.2
  have numeral : ∀ n : Nat, '\n' ∉ (toString n).toList ∧ '\r' ∉ (toString n).toList := by
    intro n
    rw [toString_toList]
    constructor <;> intro member <;>
      exact absurd (LengthPrefix.digit_of_mem_toDigits member) (by decide)
  have opening : ∀ part ∈ ["mote.observe.settlement.v1", boundary.streamId,
      toString boundary.cursorAfter.sequence], '\n' ∉ part.toList ∧ '\r' ∉ part.toList := by
    intro part member
    simp only [List.mem_cons, List.not_mem_nil, or_false] at member
    rcases member with rfl | rfl | rfl
    · decide
    · exact line _ stream
    · exact numeral _
  have config_part : '\n' ∉ "config".toList ∧ '\r' ∉ "config".toList := by decide
  have context_part : '\n' ∉ "context".toList ∧ '\r' ∉ "context".toList := by decide
  unfold composedSettlementId settlementParts
  cases contextReceipt with
  | some receipt =>
      have last := context receipt rfl
      simp only
      rw [show (["context", receipt.settlementId] : List String) =
        ["context"] ++ [receipt.settlementId] from rfl, ← List.append_assoc]
      apply join_settlementField_canonical _ last
      intro part member
      simp only [List.mem_append, List.mem_singleton] at member
      rcases member with (early | middle) | rfl
      · exact opening part early
      · cases configReceipt with
        | none => cases middle
        | some other =>
            simp only [List.mem_cons, List.not_mem_nil, or_false] at middle
            rcases middle with rfl | rfl
            · exact config_part
            · exact line _ (config other rfl)
      · exact context_part
  | none =>
      cases configReceipt with
      | none => simp at some
      | some receipt =>
          have last := config receipt rfl
          simp only [List.append_nil]
          rw [show (["config", receipt.settlementId] : List String) =
            ["config"] ++ [receipt.settlementId] from rfl, ← List.append_assoc]
          apply join_settlementField_canonical _ last
          intro part member
          rcases List.mem_append.mp member with early | late
          · exact opening part early
          · rw [List.mem_singleton.mp late]
            exact config_part

/-! ## Admitted frames -/

/-- What the admission of a frame establishes. -/
structure AdmittedFrame (admission : ObservePayloadAdmission π η κ) (frame : ObserveFrame π) :
    Prop where
  window : Window frame.batch.deliveries
  nonempty : frame.batch.deliveries ≠ []
  count : frame.batch.deliveries.length ≤ deliveryMaxCount
  deliveries : ∀ d ∈ frame.batch.deliveries, admission.admitDelivery d = .ok ()
  boundary : admitBoundary frame.boundary = .ok ()
  families : frame.batch.nonConfigFamilies.length ≤ 1
  snapshot : admitTaskSnapshot frame.backgroundTaskSnapshot = .ok ()
  revision : frame.backgroundTaskSnapshot.observationRevision =
    frame.boundary.observationRevision

theorem admittedFrame_of_admitFrame {admission : ObservePayloadAdmission π η κ}
    {frame : ObserveFrame π} (admitted : admission.admitFrame frame = .ok ()) :
    AdmittedFrame admission frame := by
  simp only [ObservePayloadAdmission.admitFrame, ObservePayloadAdmission.admitBatch,
    ObserveFrame.validate, ObservationBatch.validate, Observe.deliveryIds, bind_eq_ok, exists_unit,
    revalidate_eq_ok, contractIf_eq_ok, checkAll_eq_ok, pure_eq_ok, ne_eq, not_not, not_lt]
    at admitted
  obtain ⟨⟨-, families, revision⟩, ⟨⟨sequence, ids, ⟨distinct, -⟩, -⟩, count, deliveries⟩,
    boundary, snapshot⟩ := admitted
  have advances : ∀ d ∈ frame.batch.deliveries,
      d.cursorBefore.sequence < d.cursorAfter.sequence := by
    intro d member
    have here := deliveries d member
    simp only [ObservePayloadAdmission.admitDelivery, ObservationDelivery.validate, bind_eq_ok,
      exists_unit, revalidate_eq_ok, contractIf_eq_ok, not_le] at here
    exact here.1.2
  refine ⟨window_of_sequence sequence advances distinct, ?_, count, deliveries, boundary,
    families, snapshot, revision⟩
  intro empty
  rw [empty] at sequence
  cases sequence

namespace AdmittedFrame

variable {admission : ObservePayloadAdmission π η κ} {frame : ObserveFrame π}

/-- Every class of an admitted window passes the admission of its own batch. -/
theorem admitBatchSubset (frameFacts : AdmittedFrame admission frame) {family : ObservationFamily}
    (present : frame.batch.ofFamily family ≠ []) (fieldName : String) :
    (FamilyBatch.mk family (frame.batch.ofFamily family)).validate = .ok () ∧
      admission.admitBatchSubset ⟨family, frame.batch.ofFamily family⟩ fieldName = .ok () := by
  have sub : (frame.batch.ofFamily family).Sublist frame.batch.deliveries := List.filter_sublist
  have valid : (FamilyBatch.mk family (frame.batch.ofFamily family)).validate = .ok () := by
    apply FamilyBatch.validate_of_window (frameFacts.window.sublist sub) present
    intro d member
    simpa using (List.mem_filter.mp member).2
  refine ⟨valid, ?_⟩
  simp only [ObservePayloadAdmission.admitBatchSubset, bind_unit_eq_ok, contractIf_eq_ok,
    revalidate_eq_ok, checkAll_eq_ok, not_lt]
  refine ⟨present, sub.length_le.trans frameFacts.count, valid, ?_⟩
  intro d member
  exact frameFacts.deliveries d (sub.subset member)

theorem deliveryIds_eq (frameFacts : AdmittedFrame admission frame) :
    frame.batch.deliveryIds = .ok (frame.batch.deliveries.map (·.deliveryId)) := by
  simp [ObservationBatch.deliveryIds, Observe.deliveryIds, contractIf, raiseIf,
    frameFacts.window.distinct]

theorem familyIds_eq (frameFacts : AdmittedFrame admission frame) (family : ObservationFamily) :
    (FamilyBatch.mk family (frame.batch.ofFamily family)).deliveryIds =
      .ok ((frame.batch.ofFamily family).map (·.deliveryId)) := by
  have kept := (frameFacts.window.sublist
    (List.filter_sublist (p := fun d => d.payload.family = family))).distinct
  have distinct : ((frame.batch.ofFamily family).map (·.deliveryId)).Nodup := kept
  simp [FamilyBatch.deliveryIds, Observe.deliveryIds, contractIf, raiseIf, distinct]

end AdmittedFrame

/-! ## Admitted receipts -/

/-- The two legal relations of a settlement boundary to its read boundary. -/
def Succeeds (read settlement : ObservationBoundary) : Prop :=
  read.streamId = settlement.streamId ∧
    (settlement = read ∨ read.observationRevision < settlement.observationRevision ∧
      settlement.cursorBefore = read.cursorAfter ∧ settlement.cursorAfter = read.cursorAfter)

theorem validateSettlementBoundary_eq_ok (read settlement : ObservationBoundary)
    (fieldName : String) (u : Unit) :
    validateSettlementBoundary read settlement fieldName = .ok u ↔ Succeeds read settlement := by
  simp only [validateSettlementBoundary, bind_unit_eq_ok, contractIf_eq_ok, ne_eq, not_not, not_lt,
    Succeeds]
  constructor
  · intro valid
    obtain ⟨stream, forward, rest⟩ := valid
    refine ⟨stream, ?_⟩
    by_cases same : settlement.observationRevision = read.observationRevision
    · rw [if_pos same, contractIf_eq_ok, not_not] at rest
      exact .inl rest
    · rw [if_neg same, contractIf_eq_ok, not_or, not_not, not_not] at rest
      exact .inr ⟨by omega, rest⟩
  · intro succeeds
    obtain ⟨stream, relation⟩ := succeeds
    rcases relation with rfl | ⟨forward, ends⟩
    · exact ⟨rfl, le_rfl, by simp⟩
    · refine ⟨stream, forward.le, ?_⟩
      rw [if_neg (by omega), contractIf_eq_ok, not_or, not_not, not_not]
      exact ends

/-- What the admission of a receipt establishes. -/
structure AdmittedReceipt (receipt : SettlementReceipt) : Prop where
  succeeds : Succeeds receipt.readBoundary receipt.settlementBoundary
  canonical : isCanonicalIdentity receipt.settlementId = true
  required : receipt.readBoundary.observationRevision <
    receipt.settlementBoundary.observationRevision → receipt.backgroundTaskSnapshot ≠ none
  revision : ∀ snapshot ∈ receipt.backgroundTaskSnapshot,
    snapshot.observationRevision = receipt.settlementBoundary.observationRevision
  boundary : admitBoundary receipt.settlementBoundary = .ok ()
  snapshot : ∀ snapshot ∈ receipt.backgroundTaskSnapshot, admitTaskSnapshot snapshot = .ok ()

theorem admittedReceipt_of_admitReceipt {receipt : SettlementReceipt}
    {idsField fieldName validField : String}
    (admitted : admitReceipt receipt idsField (receipt.validate validField) fieldName = .ok ()) :
    AdmittedReceipt receipt := by
  simp only [admitReceipt, SettlementReceipt.validate, validateSettlementSnapshot,
    requireIdentifier, validateSettlementBoundary_eq_ok, bind_unit_eq_ok, revalidate_eq_ok,
    contractIf_eq_ok, checkAll_eq_ok, Option.mem_toList, Bool.not_eq_false, not_exists, not_and,
    ne_eq, not_not] at admitted
  obtain ⟨⟨-, succeeds, ⟨canonical, -⟩, required, revision⟩, -, -, boundary, snapshot⟩ := admitted
  exact ⟨succeeds, canonical, required, revision, boundary, snapshot⟩

/-! ## The answers of the Ports -/

/-- What the Config Port answers to a frame's Config batch, if there is one. -/
def configAnswer (ports : ObservePorts π γ) (frame : ObserveFrame π) :
    Option (ConfigApplyResult γ) :=
  match frame.batch.config with
  | .ok (some batch) => some (ports.apply batch)
  | _ => none

/-- What the Context Port answers to a frame's Context batch, if there is one. -/
def contextAnswer (ports : ObservePorts π γ) (frame : ObserveFrame π) :
    Option ContextAppendReceipt :=
  match contextBatch frame.batch with
  | .ok (some batch) => some (ports.append batch)
  | _ => none

/-- The receipts of both answers, Config first. -/
def receipts (applied : Option (ConfigApplyResult γ)) (appended : Option ContextAppendReceipt) :
    List SettlementReceipt :=
  (applied.map ConfigApplyResult.receipt).toList ++
    (appended.map ContextAppendReceipt.toSettlementReceipt).toList

/-- The deliveries a frame hands to Context. -/
def contextDeliveries (frame : ObserveFrame π) : List (ObservationDelivery π) :=
  frame.batch.deliveries.filter (fun delivery => delivery.payload.family ≠ .config)

/-- Answers that settle a frame: both are admitted, carry its read boundary, cover their batch,
agree on the settlement boundary and leave the task snapshot consistent, and a successor Config
is the next revision of the activation's. -/
structure Settles (current : Option (Config γ)) (frame : ObserveFrame π)
    (applied : Option (ConfigApplyResult γ)) (appended : Option ContextAppendReceipt) : Prop where
  configAdmitted : ∀ result ∈ applied, admitConfigApplyResult result = .ok ()
  contextAdmitted : ∀ receipt ∈ appended, admitContextReceipt receipt = .ok ()
  read : ∀ receipt ∈ receipts applied appended, receipt.readBoundary = frame.boundary
  configCovers : ∀ result ∈ applied,
    result.receipt.deliveryIds = (frame.batch.ofFamily .config).map (·.deliveryId)
  contextCovers : ∀ receipt ∈ appended,
    receipt.deliveryIds = (contextDeliveries frame).map (·.deliveryId)
  contextFamily : ∀ receipt ∈ appended,
    frame.batch.nonConfigFamilies.head? = some receipt.family
  agree : ∀ receipt ∈ receipts applied appended, ∀ other ∈ receipts applied appended,
    receipt.settlementBoundary = other.settlementBoundary
  oneSnapshot : ∀ receipt ∈ receipts applied appended, ∀ other ∈ receipts applied appended,
    ∀ snapshot ∈ receipt.backgroundTaskSnapshot, ∀ second ∈ other.backgroundTaskSnapshot,
      snapshot = second
  keptSnapshot : ∀ receipt ∈ receipts applied appended,
    receipt.settlementBoundary = frame.boundary →
      ∀ snapshot ∈ receipt.backgroundTaskSnapshot, snapshot = frame.backgroundTaskSnapshot
  advances : ∀ result ∈ applied, ∀ candidate ∈ result.successorConfig, ∀ config ∈ current,
    config.Advances candidate

/-- The settlement boundary of the answers. -/
def settledBoundary (frame : ObserveFrame π) (applied : Option (ConfigApplyResult γ))
    (appended : Option ContextAppendReceipt) : ObservationBoundary :=
  ((receipts applied appended).head?.map SettlementReceipt.settlementBoundary).getD frame.boundary

/-- The settlement identity of the answers. -/
def settledId (frame : ObserveFrame π) (applied : Option (ConfigApplyResult γ))
    (appended : Option ContextAppendReceipt) : String :=
  composedSettlementId (settledBoundary frame applied appended)
    (applied.map ConfigApplyResult.receipt) appended

/-- The task snapshot of the answers. -/
def settledSnapshot (frame : ObserveFrame π) (applied : Option (ConfigApplyResult γ))
    (appended : Option ContextAppendReceipt) : BackgroundTaskSnapshot :=
  ((receipts applied appended).filterMap (·.backgroundTaskSnapshot)).head?.getD
    frame.backgroundTaskSnapshot

theorem configAnswer_eq {admission : ObservePayloadAdmission π η κ} {frame : ObserveFrame π}
    (frameFacts : AdmittedFrame admission frame) (ports : ObservePorts π γ) :
    configAnswer ports frame = if frame.batch.ofFamily .config = [] then none
      else some (ports.apply ⟨.config, frame.batch.ofFamily .config⟩) := by
  unfold configAnswer
  rw [ObservationBatch.config, project_eq frameFacts.window]
  by_cases empty : frame.batch.ofFamily .config = []
  · simp [empty]
  · simp [empty]

/-- The deliveries of the one non-Config family are those that are not Config. -/
theorem ofFamily_eq_contextDeliveries {frame : ObserveFrame π} {family : NonConfigObservationFamily}
    (families : frame.batch.nonConfigFamilies = [family]) :
    frame.batch.ofFamily family.observation = contextDeliveries frame := by
  apply List.filter_congr
  intro d member
  rcases family_of_mem families member with config | ⟨other, listed, same⟩
  · rw [config]
    cases family <;> rfl
  · rw [List.mem_singleton.mp listed] at same
    rw [same]
    cases family <;> rfl

theorem families_cases {admission : ObservePayloadAdmission π η κ} {frame : ObserveFrame π}
    (frameFacts : AdmittedFrame admission frame) :
    frame.batch.nonConfigFamilies = [] ∨ ∃ family, frame.batch.nonConfigFamilies = [family] := by
  have short := frameFacts.families
  cases listed : frame.batch.nonConfigFamilies with
  | nil => exact .inl rfl
  | cons family rest =>
      rw [listed] at short
      cases rest with
      | nil => exact .inr ⟨family, rfl⟩
      | cons other rest => simp at short

/-! ## Up to the receipts -/

section Settled

variable {admission : ObservePayloadAdmission π η κ} {frame : ObserveFrame π}
  {ports : ObservePorts π γ} {current : Option (Config γ)}

theorem mem_receipts_of_config {applied : Option (ConfigApplyResult γ)}
    {appended : Option ContextAppendReceipt} {result : ConfigApplyResult γ}
    (given : result ∈ applied) : result.receipt ∈ receipts applied appended := by
  rw [Option.mem_def] at given
  subst given
  exact List.mem_append_left _ List.mem_cons_self

theorem mem_receipts_of_context {applied : Option (ConfigApplyResult γ)}
    {appended : Option ContextAppendReceipt} {receipt : ContextAppendReceipt}
    (given : receipt ∈ appended) :
    receipt.toSettlementReceipt ∈ receipts applied appended := by
  rw [Option.mem_def] at given
  subst given
  exact List.mem_append_right _ List.mem_cons_self

theorem settleConfig_eq (frameFacts : AdmittedFrame admission frame)
    {appended : Option ContextAppendReceipt}
    (settles : Settles current frame (configAnswer ports frame) appended) :
    settleConfig admission ports frame = .ok (configAnswer ports frame) := by
  have answer := configAnswer_eq frameFacts ports
  unfold settleConfig
  rw [ObservationBatch.config, project_eq frameFacts.window]
  by_cases empty : frame.batch.ofFamily .config = []
  · rw [if_pos empty] at answer ⊢
    rw [answer]
    rfl
  · rw [if_neg empty] at answer ⊢
    obtain ⟨valid, subset⟩ := frameFacts.admitBatchSubset empty "config batch"
    have admitted := settles.configAdmitted _ answer
    have read := settles.read _ (mem_receipts_of_config answer)
    have covers := settles.configCovers _ answer
    simp only [ok_bind, bind_eq_ok, exists_unit, ObservePayloadAdmission.admitConfigBatch, valid,
      subset, revalidate_eq_ok, admitted, contractIf_eq_ok, ne_eq, not_not, read, covers,
      frameFacts.familyIds_eq, pure_eq_ok, answer, and_true]

theorem settleContext_eq (frameFacts : AdmittedFrame admission frame)
    {applied : Option (ConfigApplyResult γ)}
    (settles : Settles current frame applied (contextAnswer ports frame)) :
    settleContext admission ports frame = .ok (contextAnswer ports frame) := by
  rcases families_cases frameFacts with none | ⟨family, families⟩
  · have empty := contextBatch_none frameFacts.window none
    have answer : contextAnswer ports frame = Option.none := by
      unfold contextAnswer
      rw [empty]
    unfold settleContext
    rw [empty, answer]
    rfl
  · obtain ⟨found, present⟩ := contextBatch_some frameFacts.window families
    have answer : contextAnswer ports frame =
        some (ports.append ⟨family.observation, frame.batch.ofFamily family.observation⟩) := by
      unfold contextAnswer
      rw [found]
    obtain ⟨valid, subset⟩ := frameFacts.admitBatchSubset present "context batch"
    have admitted := settles.contextAdmitted _ answer
    have read := settles.read _ (mem_receipts_of_context answer)
    have covers := settles.contextCovers _ answer
    have sameFamily := settles.contextFamily _ answer
    rw [← ofFamily_eq_contextDeliveries families] at covers
    unfold settleContext
    simp only [found, ok_bind, bind_eq_ok, exists_unit, ObservePayloadAdmission.admitContextBatch,
      valid, subset, revalidate_eq_ok, admitted, contractIf_eq_ok, ne_eq, not_not, read, covers,
      frameFacts.familyIds_eq, pure_eq_ok, answer, sameFamily, and_true]

/-! ## From the receipts on -/

variable {applied : Option (ConfigApplyResult γ)} {appended : Option ContextAppendReceipt}

theorem admittedReceipt_of_mem (settles : Settles current frame applied appended)
    {receipt : SettlementReceipt} (member : receipt ∈ receipts applied appended) :
    AdmittedReceipt receipt := by
  rcases List.mem_append.mp member with config | context
  · obtain ⟨result, given, rfl⟩ := Option.mem_map.mp (Option.mem_toList.mp config)
    exact admittedReceipt_of_admitReceipt (settles.configAdmitted result given)
  · obtain ⟨given, here, rfl⟩ := Option.mem_map.mp (Option.mem_toList.mp context)
    exact admittedReceipt_of_admitReceipt (settles.contextAdmitted given here)

theorem settledBoundary_eq (settles : Settles current frame applied appended)
    {receipt : SettlementReceipt} (member : receipt ∈ receipts applied appended) :
    receipt.settlementBoundary = settledBoundary frame applied appended := by
  unfold settledBoundary
  cases listed : receipts applied appended with
  | nil =>
      rw [listed] at member
      cases member
  | cons first rest =>
      have head : first ∈ receipts applied appended := by
        rw [listed]
        exact List.mem_cons_self
      exact settles.agree receipt member first head

theorem settlementBoundaryOf_eq (settles : Settles current frame applied appended) :
    settlementBoundaryOf frame (applied.map ConfigApplyResult.receipt) appended =
      .ok (settledBoundary frame applied appended) := by
  have boundaries : ((applied.map ConfigApplyResult.receipt).map
        SettlementReceipt.settlementBoundary).toList ++
      (appended.map (fun receipt => receipt.settlementBoundary)).toList =
      (receipts applied appended).map SettlementReceipt.settlementBoundary := by
    cases applied <;> cases appended <;> rfl
  unfold settlementBoundaryOf
  simp only [boundaries, List.head?_map, bind_unit_eq_ok, contractIf_eq_ok, pure_eq_ok,
    settledBoundary, and_true]
  rintro ⟨candidate, member, other⟩
  obtain ⟨receipt, inside, rfl⟩ := List.mem_map.mp member
  exact other (settledBoundary_eq settles inside)

/-- The task snapshots of the answers are the selected one. -/
theorem settledSnapshot_eq (settles : Settles current frame applied appended)
    {receipt : SettlementReceipt} (member : receipt ∈ receipts applied appended)
    {snapshot : BackgroundTaskSnapshot} (given : snapshot ∈ receipt.backgroundTaskSnapshot) :
    snapshot = settledSnapshot frame applied appended := by
  unfold settledSnapshot
  cases listed : (receipts applied appended).filterMap (·.backgroundTaskSnapshot) with
  | nil =>
      have inside : snapshot ∈ (receipts applied appended).filterMap (·.backgroundTaskSnapshot) :=
        List.mem_filterMap.mpr ⟨receipt, member, given⟩
      rw [listed] at inside
      cases inside
  | cons first rest =>
      have head : first ∈ (receipts applied appended).filterMap (·.backgroundTaskSnapshot) := by
        rw [listed]
        exact List.mem_cons_self
      obtain ⟨other, inside, found⟩ := List.mem_filterMap.mp head
      exact settles.oneSnapshot receipt member other inside snapshot given first found

/-- The selected snapshot comes from an answer or is the frame's. -/
theorem settledSnapshot_source (frame : ObserveFrame π) (applied : Option (ConfigApplyResult γ))
    (appended : Option ContextAppendReceipt) :
    (∃ receipt ∈ receipts applied appended,
      settledSnapshot frame applied appended ∈ receipt.backgroundTaskSnapshot) ∨
    (settledSnapshot frame applied appended = frame.backgroundTaskSnapshot ∧
      ∀ receipt ∈ receipts applied appended, receipt.backgroundTaskSnapshot = none) := by
  unfold settledSnapshot
  cases listed : (receipts applied appended).filterMap (·.backgroundTaskSnapshot) with
  | nil => exact .inr ⟨rfl, List.filterMap_eq_nil_iff.mp listed⟩
  | cons first rest =>
      have head : first ∈ (receipts applied appended).filterMap (·.backgroundTaskSnapshot) := by
        rw [listed]
        exact List.mem_cons_self
      obtain ⟨receipt, inside, found⟩ := List.mem_filterMap.mp head
      exact .inl ⟨receipt, inside, found⟩

theorem suppliedSnapshots_eq (applied : Option (ConfigApplyResult γ))
    (appended : Option ContextAppendReceipt) :
    suppliedSnapshots (applied.map ConfigApplyResult.receipt) appended =
      (receipts applied appended).filterMap (·.backgroundTaskSnapshot) := by
  cases applied with
  | none =>
      cases appended with
      | none => rfl
      | some receipt =>
          cases found : receipt.backgroundTaskSnapshot <;>
            simp [suppliedSnapshots, receipts, found]
  | some result =>
      cases config : result.receipt.backgroundTaskSnapshot <;> cases appended with
      | none => simp [suppliedSnapshots, receipts, config]
      | some receipt =>
          cases found : receipt.backgroundTaskSnapshot <;>
            simp [suppliedSnapshots, receipts, config, found]

theorem snapshotForSettlement_eq (settles : Settles current frame applied appended) :
    snapshotForSettlement frame (settledBoundary frame applied appended)
        (applied.map ConfigApplyResult.receipt) appended =
      .ok (settledSnapshot frame applied appended) := by
  unfold snapshotForSettlement
  rw [suppliedSnapshots_eq]
  simp only [bind_unit_eq_ok, contractIf_eq_ok, pure_eq_ok]
  refine ⟨?_, ?_, rfl⟩
  · rintro ⟨candidate, member, other⟩
    obtain ⟨receipt, inside, found⟩ := List.mem_filterMap.mp member
    exact other (settledSnapshot_eq settles inside found)
  · rintro ⟨unchanged, other⟩
    rcases settledSnapshot_source frame applied appended with ⟨receipt, inside, found⟩ | ⟨same, -⟩
    · exact other (settles.keptSnapshot receipt inside
        ((settledBoundary_eq settles inside).trans unchanged) _ found)
    · exact other same

/-- The selected boundary succeeds the frame's and is admitted. -/
theorem settledBoundary_succeeds (settles : Settles current frame applied appended)
    (some : receipts applied appended ≠ []) :
    Succeeds frame.boundary (settledBoundary frame applied appended) ∧
      admitBoundary (settledBoundary frame applied appended) = .ok () := by
  obtain ⟨receipt, member⟩ := List.exists_mem_of_ne_nil _ some
  have facts := admittedReceipt_of_mem settles member
  rw [← settles.read receipt member, ← settledBoundary_eq settles member]
  exact ⟨facts.succeeds, facts.boundary⟩

/-- The selected snapshot has the revision of the selected boundary and is admitted. -/
theorem settledSnapshot_admitted (frameFacts : AdmittedFrame admission frame)
    (settles : Settles current frame applied appended) (some : receipts applied appended ≠ []) :
    (settledSnapshot frame applied appended).observationRevision =
        (settledBoundary frame applied appended).observationRevision ∧
      admitTaskSnapshot (settledSnapshot frame applied appended) = .ok () := by
  rcases settledSnapshot_source frame applied appended with ⟨receipt, inside, found⟩ | ⟨same, none⟩
  · have facts := admittedReceipt_of_mem settles inside
    rw [← settledBoundary_eq settles inside]
    exact ⟨facts.revision _ found, facts.snapshot _ found⟩
  · obtain ⟨receipt, member⟩ := List.exists_mem_of_ne_nil _ some
    have facts := admittedReceipt_of_mem settles member
    have unchanged : receipt.settlementBoundary = receipt.readBoundary := by
      rcases facts.succeeds.2 with same | ⟨later, -⟩
      · exact same
      · exact absurd (none receipt member) (facts.required later)
    rw [same, ← settledBoundary_eq settles member, unchanged, settles.read receipt member]
    exact ⟨frameFacts.revision, frameFacts.snapshot⟩

/-- A Port that was not asked had nothing to settle. -/
structure Answered (frame : ObserveFrame π) (applied : Option (ConfigApplyResult γ))
    (appended : Option ContextAppendReceipt) : Prop where
  config : applied = none → frame.batch.ofFamily .config = []
  context : appended = none → contextDeliveries frame = []

theorem answers (frameFacts : AdmittedFrame admission frame) (ports : ObservePorts π γ) :
    Answered frame (configAnswer ports frame) (contextAnswer ports frame) := by
  constructor
  · intro none
    rw [configAnswer_eq frameFacts] at none
    by_contra present
    rw [if_neg present] at none
    cases none
  · intro none
    rcases families_cases frameFacts with empty | ⟨family, families⟩
    · rw [contextDeliveries, List.filter_eq_nil_iff]
      intro d member
      rcases family_of_mem empty member with config | ⟨family, listed, -⟩
      · simp [config]
      · cases listed
    · unfold contextAnswer at none
      rw [(contextBatch_some frameFacts.window families).1] at none
      cases none

theorem receipts_ne_nil (frameFacts : AdmittedFrame admission frame)
    (answered : Answered frame applied appended) : receipts applied appended ≠ [] := by
  intro empty
  have none : applied = none ∧ appended = none := by
    cases applied <;> cases appended <;> simp [receipts] at empty ⊢
  obtain ⟨d, member⟩ := List.exists_mem_of_ne_nil _ frameFacts.nonempty
  by_cases config : d.payload.family = .config
  · exact ofFamily_eq_nil.mp (answered.config none.1) d member config
  · have inside : d ∈ contextDeliveries frame :=
      List.mem_filter.mpr ⟨member, by simpa using config⟩
    rw [answered.context none.2] at inside
    cases inside

/-- The answers cover the Config deliveries and then the others. -/
theorem coveredIds_eq (settles : Settles current frame applied appended)
    (answered : Answered frame applied appended) :
    (receipts applied appended).flatMap (·.deliveryIds) =
      (frame.batch.ofFamily .config).map (·.deliveryId) ++
        (contextDeliveries frame).map (·.deliveryId) := by
  unfold receipts
  rw [List.flatMap_append]
  congr 1
  · cases applied with
    | none => simp [answered.config rfl]
    | some result => simp [settles.configCovers result rfl]
  · cases appended with
    | none => simp [answered.context rfl]
    | some receipt => simp [settles.contextCovers receipt rfl]

/-- Config and Context partition the window. -/
theorem families_partition (frame : ObserveFrame π) :
    ((frame.batch.ofFamily .config).map (·.deliveryId) ++
      (contextDeliveries frame).map (·.deliveryId)).Perm
        (frame.batch.deliveries.map (·.deliveryId)) := by
  rw [← List.map_append]
  apply List.Perm.map
  have split := List.filter_append_perm
    (fun d : ObservationDelivery π => decide (d.payload.family = .config)) frame.batch.deliveries
  have others : contextDeliveries frame = frame.batch.deliveries.filter
      (fun d => !decide (d.payload.family = .config)) := by
    apply List.filter_congr
    intro d _
    simp
  rw [others]
  exact split

/-- Every receipt keeps the FIFO order of the window. -/
theorem deliveryIds_sublist (settles : Settles current frame applied appended)
    {receipt : SettlementReceipt} (member : receipt ∈ receipts applied appended) :
    receipt.deliveryIds.Sublist (frame.batch.deliveries.map (·.deliveryId)) := by
  rcases List.mem_append.mp member with config | context
  · obtain ⟨result, given, rfl⟩ := Option.mem_map.mp (Option.mem_toList.mp config)
    rw [settles.configCovers result given]
    exact List.filter_sublist.map _
  · obtain ⟨given, here, rfl⟩ := Option.mem_map.mp (Option.mem_toList.mp context)
    rw [settles.contextCovers given here]
    exact List.filter_sublist.map _

/-- The result of a frame settled by its answers. -/
def settledResult (frame : ObserveFrame π) (applied : Option (ConfigApplyResult γ))
    (appended : Option ContextAppendReceipt) : ObserveResult :=
  observeResultOf frame (applied.map ConfigApplyResult.receipt) appended
    (settledBoundary frame applied appended) (settledSnapshot frame applied appended)
    (settledId frame applied appended) (frame.batch.deliveries.map (·.deliveryId))

theorem settledAck_valid (frameFacts : AdmittedFrame admission frame)
    (settles : Settles current frame applied appended) (some : receipts applied appended ≠ [])
    (fits : (settledId frame applied appended).utf8ByteSize ≤ identityMaxBytes) :
    (settledResult frame applied appended).observationReceipt.ackReference.validate = .ok () := by
  have stream := frameFacts.boundary
  have settled := (settledBoundary_succeeds settles some).2
  simp only [admitBoundary, ObservationBoundary.validate, bind_unit_eq_ok, revalidate_eq_ok,
    requireText_eq_ok] at stream settled
  have canonical : isCanonicalIdentity (settledId frame applied appended) = true := by
    apply composedSettlementId_canonical settled.1.1.1
    · intro receipt given
      obtain ⟨result, here, rfl⟩ := Option.mem_map.mp given
      exact (admittedReceipt_of_mem settles (mem_receipts_of_config here)).canonical
    · intro receipt given
      exact (admittedReceipt_of_mem settles (mem_receipts_of_context given)).canonical
    · by_contra absent
      rw [not_or, not_not, not_not, Option.map_eq_none_iff] at absent
      obtain ⟨rfl, rfl⟩ := absent
      exact some rfl
  simp only [DeliveryAckReference.validate, settledResult, observeResultOf, bind_unit_eq_ok,
    requireText_eq_ok, identityIf_eq_ok, List.map_eq_nil_iff]
  exact ⟨stream.1.1, frameFacts.nonempty,
    (identityIf_eq_ok _ _ ()).mpr (not_not.mpr frameFacts.window.distinct), canonical, fits⟩

theorem settledReceipt_valid (frameFacts : AdmittedFrame admission frame)
    (settles : Settles current frame applied appended)
    (answered : Answered frame applied appended) :
    (settledResult frame applied appended).observationReceipt.validate = .ok () := by
  have some := receipts_ne_nil frameFacts answered
  have covered := coveredIds_eq settles answered
  have partition := families_partition frame
  have children : (settledResult frame applied appended).observationReceipt.children =
      receipts applied appended := rfl
  simp only [ObservationBatchReceipt.validate, ObservationBatchReceipt.childIds, bind_unit_eq_ok,
    validateSettlementBoundary_eq_ok, checkAll_eq_ok, contractIf_eq_ok, children, covered]
  refine ⟨(settledBoundary_succeeds settles some).1, ?_, ?_, ?_, ?_⟩
  · intro absent
    obtain ⟨config, context⟩ := absent
    have noConfig : applied = none := by
      simpa [settledResult, observeResultOf] using config
    have noContext : appended = none := context
    rw [noConfig, noContext] at some
    exact some rfl
  · intro receipt member
    rw [not_or, not_not, not_not]
    exact ⟨settles.read receipt member, settledBoundary_eq settles member⟩
  · rw [not_or, not_or, not_not, not_not, not_not]
    exact ⟨rfl, partition.nodup_iff.mpr frameFacts.window.distinct, partition.symm.subset,
      partition.subset⟩
  · intro receipt member
    rw [Bool.not_eq_false]
    exact isFifoSubsequence_of_sublist (deliveryIds_sublist settles member)

theorem cursorRange_eq {boundary : ObservationBoundary}
    (admitted : admitBoundary boundary = .ok ()) :
    boundary.cursorRange = .ok ⟨boundary.cursorBefore, boundary.cursorAfter⟩ ∧
      admitCursorRange ⟨boundary.cursorBefore, boundary.cursorAfter⟩ = .ok () := by
  simp only [admitBoundary, ObservationBoundary.validate, bind_unit_eq_ok, revalidate_eq_ok,
    identityIf_eq_ok, not_or, ne_eq, not_not] at admitted
  obtain ⟨⟨-, ⟨before, after⟩, forward⟩, first, last⟩ := admitted
  have valid : CursorRange.validate ⟨boundary.cursorBefore, boundary.cursorAfter⟩ = .ok () := by
    simp only [CursorRange.validate, bind_unit_eq_ok, identityIf_eq_ok, ne_eq, not_not]
    exact ⟨before.trans after.symm, forward⟩
  constructor
  · simp [ObservationBoundary.cursorRange, valid]
  · simp only [admitCursorRange, bind_unit_eq_ok, revalidate_eq_ok]
    exact ⟨valid, first, last⟩

theorem settledResult_valid (frameFacts : AdmittedFrame admission frame)
    (settles : Settles current frame applied appended) (some : receipts applied appended ≠ []) :
    (settledResult frame applied appended).validate = .ok () := by
  have range := (cursorRange_eq (settledBoundary_succeeds settles some).2).1
  have boundary : (settledResult frame applied appended).observationReceipt.settlementBoundary =
      settledBoundary frame applied appended := rfl
  simp only [ObserveResult.validate, validateDeliveryIds, bind_eq_ok, exists_unit,
    contractIf_eq_ok, boundary, range, Except.ok.injEq, exists_eq_left', ne_eq, not_not]
  refine ⟨⟨?_, frameFacts.window.distinct⟩, rfl, rfl, rfl,
    (settledSnapshot_admitted frameFacts settles some).1, ?_⟩
  · simpa [settledResult, observeResultOf] using frameFacts.nonempty
  · rintro ⟨snapshot, member, other⟩
    obtain ⟨receipt, inside, found⟩ := List.mem_filterMap.mp member
    exact other (settledSnapshot_eq settles inside found)

/-- The result passes the admission of the after-write Hook. -/
theorem settledResult_admitted (frameFacts : AdmittedFrame admission frame)
    (settles : Settles current frame applied appended)
    (answered : Answered frame applied appended)
    (fits : (settledId frame applied appended).utf8ByteSize ≤ identityMaxBytes) :
    admitResult (settledResult frame applied appended) = .ok () := by
  have some := receipts_ne_nil frameFacts answered
  have boundary := (settledBoundary_succeeds settles some).2
  simp only [admitResult, admitBatchReceipt, admitAckReference, bind_unit_eq_ok, revalidate_eq_ok,
    checkAll_eq_ok, contractIf_eq_ok, Option.mem_toList, not_lt]
  refine ⟨settledResult_valid frameFacts settles some, (cursorRange_eq boundary).2,
    ⟨settledReceipt_valid frameFacts settles answered, ?_, ?_, frameFacts.boundary, boundary,
      settledAck_valid frameFacts settles some fits, ?_, ?_⟩,
    (settledSnapshot_admitted frameFacts settles some).2⟩
  · intro receipt given
    obtain ⟨result, here, rfl⟩ := Option.mem_map.mp given
    exact settles.configAdmitted result here
  · intro receipt given
    exact settles.contextAdmitted receipt given
  · simpa [settledResult, observeResultOf] using frameFacts.count
  · intro deliveryId member
    obtain ⟨d, inside, rfl⟩ := List.mem_map.mp member
    have here := frameFacts.deliveries d inside
    simp only [ObservePayloadAdmission.admitDelivery, bind_unit_eq_ok] at here
    exact here.2.1

/-- The state of the result is that of the batch. -/
theorem settledState_eq (frameFacts : AdmittedFrame admission frame)
    (settles : Settles current frame applied appended)
    (answered : Answered frame applied appended) :
    observationKind frame.batch = .ok (settledResult frame applied appended).currentState := by
  unfold observationKind
  cases appended with
  | none =>
      have empty : frame.batch.nonConfigFamilies = [] := by
        apply List.eq_nil_iff_forall_not_mem.mpr
        intro family listed
        obtain ⟨d, member, same⟩ := mem_familiesForDeliveries.mp listed
        have inside : d ∈ contextDeliveries frame := by
          apply List.mem_filter.mpr ⟨member, _⟩
          rw [same]
          cases family <;> rfl
        rw [answered.context rfl] at inside
        cases inside
      rw [empty]
      rfl
  | some receipt =>
      have head := settles.contextFamily receipt rfl
      rcases families_cases frameFacts with empty | ⟨family, families⟩
      · rw [empty] at head
        cases head
      · rw [families] at head ⊢
        cases head
        rfl

/-! ## The node -/

/-- What the node publishes for a settled frame. -/
structure Published (frame : ObserveFrame π) (applied : Option (ConfigApplyResult γ))
    (appended : Option ContextAppendReceipt)
    (outcome : ConfigActivation (HookActivationRequest π η) γ) (result : ObserveResult) : Prop where
  payload : outcome.value.value.payload = .writeObservationStageValue result
  acknowledged : result.observationReceipt.ackReference.deliveryIds =
    frame.batch.deliveries.map (·.deliveryId)
  deliveryIds : result.deliveryIds = frame.batch.deliveries.map (·.deliveryId)
  configReceipt : result.observationReceipt.configReceipt = applied.map ConfigApplyResult.receipt
  contextReceipt : result.observationReceipt.contextReceipt = appended
  inOrder : ∀ receipt ∈ receipts applied appended,
    receipt.deliveryIds.Sublist (frame.batch.deliveries.map (·.deliveryId))
  partition : ((receipts applied appended).flatMap (·.deliveryIds)).Perm
    (frame.batch.deliveries.map (·.deliveryId))
  state : observationKind frame.batch = .ok result.currentState
  range : ∀ receipt ∈ receipts applied appended, result.cursorRange =
    ⟨receipt.settlementBoundary.cursorBefore, receipt.settlementBoundary.cursorAfter⟩

theorem settled_published (frameFacts : AdmittedFrame admission frame)
    (settles : Settles current frame applied appended)
    (answered : Answered frame applied appended) (hookState : η) (successor : Option (Config γ)) :
    Published frame applied appended
      ⟨⟨⟨.afterWriteObservation,
        .writeObservationStageValue (settledResult frame applied appended), hookState⟩,
        hookState, some "write_observation"⟩, successor⟩
      (settledResult frame applied appended) where
  payload := rfl
  acknowledged := rfl
  deliveryIds := rfl
  configReceipt := rfl
  contextReceipt := rfl
  inOrder _ member := deliveryIds_sublist settles member
  partition := by
    rw [coveredIds_eq settles answered]
    exact families_partition frame
  state := settledState_eq frameFacts settles answered
  range _ member := by
    rw [settledBoundary_eq settles member]
    rfl

theorem successorConfigOf_eq (settles : Settles current frame applied appended) :
    ∃ successor, successorConfigOf current (applied.bind ConfigApplyResult.successorConfig) =
      .ok successor := by
  cases found : applied.bind ConfigApplyResult.successorConfig with
  | none => exact ⟨current, rfl⟩
  | some candidate =>
      obtain ⟨result, given, successor⟩ := Option.bind_eq_some_iff.mp found
      refine ⟨some candidate, ?_⟩
      simp only [successorConfigOf, bind_unit_eq_ok, contractIf_eq_ok, pure_eq_ok, and_true]
      rintro ⟨config, present, behind⟩
      exact behind (settles.advances result given candidate successor config present)

variable [DecidableEq η]

/-- With an identity that fits, the node publishes the settled result. -/
theorem publishSettlement_eq (frameFacts : AdmittedFrame admission frame)
    (settles : Settles current frame applied appended)
    (answered : Answered frame applied appended) {hookState : η}
    (concrete : admission.isHookState hookState = true)
    (fits : (settledId frame applied appended).utf8ByteSize ≤ identityMaxBytes) :
    ∃ successor, publishSettlement admission current frame hookState applied appended =
      .ok ⟨⟨⟨.afterWriteObservation,
        .writeObservationStageValue (settledResult frame applied appended), hookState⟩,
        hookState, some "write_observation"⟩, successor⟩ := by
  have some := receipts_ne_nil frameFacts answered
  have range := (cursorRange_eq (settledBoundary_succeeds settles some).2).1
  obtain ⟨successor, advanced⟩ := successorConfigOf_eq settles
  refine ⟨successor, ?_⟩
  have identity : settlementIdOf (settledBoundary frame applied appended)
      (applied.map ConfigApplyResult.receipt) appended = .ok (settledId frame applied appended) := by
    simp only [settlementIdOf, bind_unit_eq_ok, contractIf_eq_ok, pure_eq_ok, not_lt]
    exact ⟨fits, rfl⟩
  have node : admitNodeId (Option.some "write_observation")
      "hook activation request node_id" = .ok () := by decide
  have result : observeResultOf frame (applied.map ConfigApplyResult.receipt) appended
      (settledBoundary frame applied appended) (settledSnapshot frame applied appended)
      (settledId frame applied appended) (frame.batch.deliveries.map (·.deliveryId)) =
      settledResult frame applied appended := rfl
  unfold publishSettlement
  simp only [settlementBoundaryOf_eq settles, ok_bind, snapshotForSettlement_eq settles,
    frameFacts.deliveryIds_eq, identity, result, settledAck_valid frameFacts settles some fits,
    settledReceipt_valid frameFacts settles answered, advanced, range,
    settledResult_valid frameFacts settles some]
  have admitted := settledResult_admitted frameFacts settles answered fits
  simp only [ObserveHookEnvelope.validate, HookActivationRequest.validate, node,
    ObservePayloadAdmission.admitHookRequest, ObservePayloadAdmission.admitHookEnvelope,
    ObservePayloadAdmission.admitStageValue, ObservePayloadAdmission.concreteState, bind_eq_ok,
    exists_unit, pure_eq_ok, revalidate_eq_ok, contractIf_eq_ok, concrete, admitted,
    expectedHookNode, Bool.true_eq_false, not_false_eq_true, ne_eq, not_true_eq_false, and_true]

/-- With an identity that does not fit, the node raises after the Ports have answered. -/
theorem publishSettlement_raises (frameFacts : AdmittedFrame admission frame)
    (settles : Settles current frame applied appended) (hookState : η)
    (exceeds : identityMaxBytes < (settledId frame applied appended).utf8ByteSize) :
    publishSettlement admission current frame hookState applied appended =
      .error ⟨.contract, "observation settlement identity exceeds its 256-byte limit"⟩ := by
  have raised : settlementIdOf (settledBoundary frame applied appended)
      (applied.map ConfigApplyResult.receipt) appended =
      .error ⟨.contract, "observation settlement identity exceeds its 256-byte limit"⟩ := by
    have long : 256 < (composedSettlementId (settledBoundary frame applied appended)
      (applied.map ConfigApplyResult.receipt) appended).utf8ByteSize := exceeds
    simp [settlementIdOf, contractIf, raiseIf, long]
  unfold publishSettlement
  simp only [settlementBoundaryOf_eq settles, ok_bind, snapshotForSettlement_eq settles,
    frameFacts.deliveryIds_eq, raised, error_bind]

/-- Settling answers bring the node to the composition of its result. -/
theorem writeObservation_eq {activation : ConfigActivation (HookResult π η κ) γ} {hookState : η}
    (admitted : admission.admitHookResult activation.value = .ok ())
    (carries : activation.value.value =
      ⟨.afterGetObservation, .getObservationStageValue frame, hookState⟩)
    (settles : Settles activation.activationConfig frame (configAnswer ports frame)
      (contextAnswer ports frame)) :
    AdmittedFrame admission frame ∧ admission.isHookState hookState = true ∧
      writeObservation admission ports activation =
        publishSettlement admission activation.activationConfig frame hookState
          (configAnswer ports frame) (contextAnswer ports frame) := by
  have envelope := admitted
  simp only [ObservePayloadAdmission.admitHookResult, bind_unit_eq_ok, carries,
    ObservePayloadAdmission.admitHookEnvelope, ObservePayloadAdmission.admitStageValue,
    ObservePayloadAdmission.concreteState, contractIf_eq_ok, Bool.not_eq_false] at envelope
  obtain ⟨-, ⟨-, admittedFrame, concrete⟩, -⟩ := envelope
  have frameFacts := admittedFrame_of_admitFrame admittedFrame
  refine ⟨frameFacts, concrete, ?_⟩
  unfold writeObservation
  rw [admitted, ok_bind, carries]
  simp only [settleConfig_eq frameFacts settles, settleContext_eq frameFacts settles, ok_bind]

end Settled

/-- Whatever admitted window and whatever settling answers, the family projections never raise;
the node then publishes the settled result if the composed settlement identity fits its limit,
and otherwise raises that one error. -/
theorem observation_settlement_completes [DecidableEq η]
    (admission : ObservePayloadAdmission π η κ) (ports : ObservePorts π γ)
    (activation : ConfigActivation (HookResult π η κ) γ) (frame : ObserveFrame π) (hookState : η)
    (admitted : admission.admitHookResult activation.value = .ok ())
    (carries : activation.value.value =
      ⟨.afterGetObservation, .getObservationStageValue frame, hookState⟩)
    (settles : Settles activation.activationConfig frame (configAnswer ports frame)
      (contextAnswer ports frame)) :
    (∀ family, ∃ projected, frame.batch.project family = .ok projected) ∧
    ((settledId frame (configAnswer ports frame) (contextAnswer ports frame)).utf8ByteSize ≤ 256 →
      ∃ outcome result, writeObservation admission ports activation = .ok outcome ∧
        Published frame (configAnswer ports frame) (contextAnswer ports frame) outcome result) ∧
    (256 < (settledId frame (configAnswer ports frame) (contextAnswer ports frame)).utf8ByteSize →
      writeObservation admission ports activation =
        .error ⟨.contract, "observation settlement identity exceeds its 256-byte limit"⟩) := by
  obtain ⟨frameFacts, concrete, reached⟩ := writeObservation_eq admitted carries settles
  have answered := answers frameFacts ports
  rw [reached]
  refine ⟨?_, ?_, ?_⟩
  · intro family
    exact ⟨_, project_eq frameFacts.window family⟩
  · intro fits
    obtain ⟨successor, published⟩ :=
      publishSettlement_eq frameFacts settles answered concrete fits
    exact ⟨_, _, published, settled_published frameFacts settles answered hookState successor⟩
  · intro exceeds
    exact publishSettlement_raises frameFacts settles hookState exceeds

/-! ## A mixed window -/

def openAdmission : ObservePayloadAdmission Unit Unit Unit where
  isHookState _ := true
  isHookCommand _ := true
  isPayload _ _ := true

/-- A Config delivery and a user delivery behind it. -/
def mixedFrame : ObserveFrame Unit where
  batch := ⟨[⟨⟨"config"⟩, ⟨"stream", 0⟩, ⟨"stream", 1⟩, ⟨.config, ()⟩, 0⟩,
    ⟨⟨"user"⟩, ⟨"stream", 1⟩, ⟨"stream", 2⟩, ⟨.user, ()⟩, 0⟩]⟩
  boundary := ⟨"stream", ⟨"stream", 0⟩, ⟨"stream", 2⟩, 0⟩
  backgroundTaskSnapshot := ⟨0, []⟩

def mixedActivation : ConfigActivation (HookResult Unit Unit Unit) Unit where
  value := ⟨⟨.afterGetObservation, .getObservationStageValue mixedFrame, ()⟩, [],
    some "get_observation"⟩
  activationConfig := some ⟨⟨"agent", 1, 1⟩, ()⟩

/-- The receipt of a batch of the window, at the boundary behind it. -/
def mixedReceipt (batch : FamilyBatch Unit) (settlementId : String) : SettlementReceipt :=
  ⟨batch.deliveries.map (·.deliveryId), mixedFrame.boundary,
    ⟨"stream", ⟨"stream", 2⟩, ⟨"stream", 2⟩, 1⟩, settlementId, some ⟨1, []⟩⟩

/-- Ports that both settle there; the Config Port returns the next revision. -/
def advancingPorts : ObservePorts Unit Unit where
  apply batch := ⟨mixedReceipt batch "apply-1", some ⟨⟨"agent", 1, 2⟩, ()⟩⟩
  append batch := ⟨mixedReceipt batch "append-1", .user⟩

theorem advancingPorts_settle : Settles mixedActivation.activationConfig mixedFrame
    (configAnswer advancingPorts mixedFrame) (contextAnswer advancingPorts mixedFrame) := by
  constructor <;> decide +kernel

/-- The window is settled. -/
theorem observation_settlement_completes_mixed :
    openAdmission.admitHookResult mixedActivation.value = .ok () ∧
    ∃ outcome result, writeObservation openAdmission advancingPorts mixedActivation = .ok outcome ∧
      Published mixedFrame (configAnswer advancingPorts mixedFrame)
        (contextAnswer advancingPorts mixedFrame) outcome result := by
  have admitted : openAdmission.admitHookResult mixedActivation.value = .ok () := by decide +kernel
  obtain ⟨-, completes, -⟩ := observation_settlement_completes openAdmission advancingPorts
    mixedActivation mixedFrame () admitted rfl advancingPorts_settle
  exact ⟨admitted, completes (by decide +kernel)⟩

/-! ## Answers that settle and raise -/

section ConfigWindow

def configBoundary : ObservationBoundary := ⟨"stream", ⟨"stream", 0⟩, ⟨"stream", 1⟩, 0⟩

/-- A window of one Config delivery. -/
def configFrame : ObserveFrame Unit where
  batch := ⟨[⟨⟨"config"⟩, ⟨"stream", 0⟩, ⟨"stream", 1⟩, ⟨.config, ()⟩, 0⟩]⟩
  boundary := configBoundary
  backgroundTaskSnapshot := ⟨0, []⟩

def configActivation : ConfigActivation (HookResult Unit Unit Unit) Unit where
  value := ⟨⟨.afterGetObservation, .getObservationStageValue configFrame, ()⟩, [],
    some "get_observation"⟩

/-- Ports that settle at the read boundary, under a given identity. -/
def settlingPorts (settlementId : String) : ObservePorts Unit Unit where
  apply batch := ⟨⟨batch.deliveries.map (·.deliveryId), configBoundary, configBoundary,
    settlementId, none⟩, none⟩
  append batch := ⟨⟨batch.deliveries.map (·.deliveryId), configBoundary, configBoundary,
    settlementId, none⟩, .user⟩

theorem configAnswer_settlingPorts (settlementId : String) :
    configAnswer (settlingPorts settlementId) configFrame =
      some ⟨⟨[⟨"config"⟩], configBoundary, configBoundary, settlementId, none⟩, none⟩ :=
  rfl

theorem contextAnswer_settlingPorts (settlementId : String) :
    contextAnswer (settlingPorts settlementId) configFrame = none :=
  rfl

/-- Such Ports settle the window under every identity that is admitted. -/
theorem settlingPorts_settles (settlementId : String)
    (admitted : admitConfigReceipt ⟨[⟨"config"⟩], configBoundary, configBoundary, settlementId,
      none⟩ = .ok ()) :
    Settles none configFrame (configAnswer (settlingPorts settlementId) configFrame)
      (contextAnswer (settlingPorts settlementId) configFrame) := by
  rw [configAnswer_settlingPorts, contextAnswer_settlingPorts]
  constructor
  case configAdmitted =>
    intro result given
    cases given
    exact admitted
  case configCovers =>
    intro result given
    cases given
    rfl
  all_goals simp [receipts, configFrame]

/-- An identity of 256 bytes, which the admission of the receipt accepts. -/
def longSettlementId : String := String.ofList (List.replicate 256 'x')

/-- Ports that also return the next revision of another graph's Config. -/
def renamingPorts : ObservePorts Unit Unit where
  apply batch := ⟨⟨batch.deliveries.map (·.deliveryId), configBoundary, configBoundary,
    "apply-1", none⟩, some ⟨⟨"other", 1, 2⟩, ()⟩⟩
  append := (settlingPorts "apply-1").append

/-- An accepted receipt can leave the node without room for the composed identity, and a successor
can be the next revision of another graph: both raise after the Config Port has applied the
batch. -/
theorem settlement_raises_after_apply :
    openAdmission.admitHookResult configActivation.value = .ok () ∧
    Settles none configFrame (configAnswer (settlingPorts longSettlementId) configFrame)
      (contextAnswer (settlingPorts longSettlementId) configFrame) ∧
    writeObservation openAdmission (settlingPorts longSettlementId) configActivation =
      .error ⟨.contract, "observation settlement identity exceeds its 256-byte limit"⟩ ∧
    writeObservation openAdmission renamingPorts
        { configActivation with activationConfig := some ⟨⟨"agent", 1, 1⟩, ()⟩ } =
      .error ⟨.contract,
        "Config successor must preserve graph identity and advance its snapshot revision"⟩ := by
  have admitted : openAdmission.admitHookResult configActivation.value = .ok () := by decide +kernel
  have carries : configActivation.value.value =
      ⟨.afterGetObservation, .getObservationStageValue configFrame, ()⟩ := rfl
  have settles := settlingPorts_settles longSettlementId (by decide +kernel)
  obtain ⟨frameFacts, -, reached⟩ := writeObservation_eq admitted carries settles
  refine ⟨admitted, settles, ?_, by decide +kernel⟩
  rw [reached]
  apply publishSettlement_raises frameFacts settles
  decide +kernel

end ConfigWindow

end MoteKernel.Observe
