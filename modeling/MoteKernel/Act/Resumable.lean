import Mathlib
import MoteKernel.Act.Authorization
import MoteKernel.State.ComposedIdentity
import MoteKernel.State.Invariant

/-!
# Which authorization interrupts can be resumed

An interrupt id embeds the id of its run, and the id of a nested run embeds the
id of its parent. `AuthorizationInterruptView` bounds the id by 256 bytes of
UTF-8, so whether an awaiting interrupt can be resumed depends on the root run id,
the path to the Act graph and the two counters: the id has to fit, and none of the
identities it embeds may hold a surrogate. The limits on the scope never matter: an
id that fits has a scope that fits.
-/

namespace MoteKernel.Act
open Checked

/-! ## Sizes of composed identities -/

/-- The code points and the UTF-8 bytes of a text. -/
structure TextSize where
  chars : Nat
  bytes : Nat
  deriving DecidableEq, Repr

def textSize (text : Text) : TextSize := ⟨text.length, utf8Size text⟩

/-- The size of a decimal numeral. -/
def numeralSize (n : Nat) : TextSize :=
  ⟨(Nat.toDigits 10 n).length, (Nat.toDigits 10 n).length⟩

/-- The size of a length-prefixed field. -/
def fieldSize (value : TextSize) : TextSize :=
  ⟨(numeralSize value.chars).chars + 1 + value.chars,
    (numeralSize value.chars).bytes + 1 + value.bytes⟩

/-- The size of a concatenation of fields. -/
def joinedSize : List TextSize → TextSize
  | [] => ⟨0, 0⟩
  | value :: values => ⟨(fieldSize value).chars + (joinedSize values).chars,
      (fieldSize value).bytes + (joinedSize values).bytes⟩

/-- A parent activation on the way from the root to a nested graph. -/
structure PathStep where
  superstep : Nat
  nodeId : Text
  deriving DecidableEq

/-- The run id of the graph at the end of a path. -/
def nestedRunId (root : Text) (path : List PathStep) : Text :=
  path.foldl (fun runId step => Text.childGraphRunId runId step.superstep step.nodeId) root

/-- The size of that run id, from the sizes of its parts. -/
def nestedRunSize (root : TextSize) (path : List PathStep) : TextSize :=
  path.foldl (fun size step =>
    joinedSize [⟨23, 23⟩, size, numeralSize step.superstep, textSize step.nodeId]) root

/-- The size of the interrupt id of the Authorize node there. -/
def interruptSize (root : Text) (path : List PathStep) (superstep generation : Nat) : TextSize :=
  joinedSize [⟨28, 28⟩, nestedRunSize (textSize root) path, numeralSize superstep, ⟨9, 9⟩,
    numeralSize generation]

theorem textSize_decimal (n : Nat) : textSize (decimal n) = numeralSize n := by
  rw [textSize, utf8Size_decimal, decimal, List.length_map, numeralSize]

theorem textSize_identityField (value : Text) :
    textSize (Text.identityField value) = fieldSize (textSize value) := by
  have numeral := textSize_decimal value.length
  have chars : (decimal value.length).length = _ := congrArg TextSize.chars numeral
  have bytes : utf8Size (decimal value.length) = _ := congrArg TextSize.bytes numeral
  have colon : utf8Width (codePoint ':') = 1 := by decide
  simp only [Text.identityField, textSize, fieldSize, List.length_append, List.length_cons,
    utf8Size_append, utf8Size_cons, chars, bytes, colon]
  refine TextSize.mk.injEq .. |>.mpr ⟨?_, ?_⟩
  · omega
  · omega

theorem textSize_joinFields (values : List Text) :
    textSize (joinFields values) = joinedSize (values.map textSize) := by
  induction values with
  | nil => rfl
  | cons value values ih =>
      have field := textSize_identityField value
      have chars : (Text.identityField value).length = _ := congrArg TextSize.chars field
      have bytes : utf8Size (Text.identityField value) = _ := congrArg TextSize.bytes field
      rw [joinFields, List.flatMap_cons, ← joinFields, List.map_cons, joinedSize, ← ih, textSize,
        List.length_append, utf8Size_append, chars, bytes]
      rfl

theorem textSize_nestedRunId (root : Text) (path : List PathStep) :
    textSize (nestedRunId root path) = nestedRunSize (textSize root) path := by
  have label : textSize (ofString "mote.child-graph-run.v1") = ⟨23, 23⟩ := by decide +kernel
  induction path generalizing root with
  | nil => rfl
  | cons step path ih =>
      show textSize (nestedRunId (Text.childGraphRunId root step.superstep step.nodeId) path) =
        nestedRunSize (joinedSize [⟨23, 23⟩, textSize root, numeralSize step.superstep,
          textSize step.nodeId]) path
      rw [ih, Text.childGraphRunId, textSize_joinFields]
      simp only [List.map_cons, List.map_nil, textSize_decimal, label]

theorem textSize_graphInterruptId (root : Text) (path : List PathStep)
    (superstep generation : Nat) :
    textSize (Text.graphInterruptId (nestedRunId root path) superstep (ofString "authorize")
      generation) = interruptSize root path superstep generation := by
  have label : textSize (ofString "mote.graph-node-interrupt.v1") = ⟨28, 28⟩ := by decide +kernel
  have node : textSize (ofString "authorize") = ⟨9, 9⟩ := by decide +kernel
  rw [Text.graphInterruptId, textSize_joinFields]
  simp only [List.map_cons, List.map_nil, textSize_decimal, textSize_nestedRunId, label, node]
  rfl

/-! ## Encodable identities -/

/-- A nested run id can be encoded when its root and every name on the way can. -/
theorem encodable_nestedRunId (root : Text) (path : List PathStep) :
    encodable (nestedRunId root path) =
      (encodable root && path.all (fun step => encodable step.nodeId)) := by
  induction path generalizing root with
  | nil => simp [nestedRunId]
  | cons step path ih =>
      show encodable (nestedRunId (Text.childGraphRunId root step.superstep step.nodeId) path) = _
      rw [ih, Text.childGraphRunId, encodable_joinFields]
      simp [encodable_decimal, Bool.and_assoc]

theorem encodable_graphInterruptId (root : Text) (path : List PathStep)
    (superstep generation : Nat) :
    encodable (Text.graphInterruptId (nestedRunId root path) superstep (ofString "authorize")
      generation) = (encodable root && path.all (fun step => encodable step.nodeId)) := by
  rw [Text.graphInterruptId, encodable_joinFields]
  simp [encodable_decimal, encodable_nestedRunId]

/-! ## Growth -/

theorem numeralSize_pos (n : Nat) : 1 ≤ (numeralSize n).bytes :=
  List.length_pos_iff.mpr Nat.toDigits_ne_nil

/-- The names along a path. -/
def pathScope (path : List PathStep) : List Text := path.map (·.nodeId)

/-- How many bytes the names along a path take. -/
def pathBytes (path : List PathStep) : Nat :=
  (path.map (fun step => (textSize step.nodeId).bytes)).sum

/-- A nested run id holds its root and every name on the way, and thirty-two more bytes a level. -/
theorem nestedRunSize_grows (root : TextSize) (path : List PathStep) :
    root.bytes + pathBytes path + 32 * path.length ≤ (nestedRunSize root path).bytes := by
  induction path generalizing root with
  | nil => exact Nat.le_refl _
  | cons step path ih =>
      have later := ih (joinedSize [⟨23, 23⟩, root, numeralSize step.superstep,
        textSize step.nodeId])
      have superstep := numeralSize_pos step.superstep
      have rootDigits := numeralSize_pos root.chars
      have stepDigits := numeralSize_pos (numeralSize step.superstep).chars
      have nodeDigits := numeralSize_pos (textSize step.nodeId).chars
      have label : (numeralSize 23).bytes = 2 := by decide
      simp only [joinedSize, fieldSize, label] at later
      simp only [pathBytes, List.map_cons, List.sum_cons, List.length_cons]
      show _ ≤ (nestedRunSize (joinedSize [⟨23, 23⟩, root, numeralSize step.superstep,
        textSize step.nodeId]) path).bytes
      simp only [joinedSize, fieldSize, label]
      simp only [pathBytes] at later
      omega

theorem interruptSize_grows (root : Text) (path : List PathStep)
    (superstep generation : Nat) :
    (textSize root).bytes + pathBytes path + 32 * path.length ≤
      (interruptSize root path superstep generation).bytes := by
  have run := nestedRunSize_grows (textSize root) path
  simp only [interruptSize, joinedSize, fieldSize]
  omega

/-! ## Acceptance -/

theorem encodedLength_eq_ok (text : Text) (message : String) (length : Nat) :
    encodedLength text message = .ok length ↔ encodable text = true ∧ utf8Size text = length := by
  rw [← utf8Length_eq_some]
  unfold encodedLength
  cases utf8Length text <;> simp

theorem requireSegments_eq_ok (scope : List Text) (total : Nat) (u : Unit) :
    requireSegments total scope = .ok u ↔ (∀ segment ∈ scope, isCanonical segment = true ∧
      encodable segment = true ∧ utf8Size segment ≤ 256) ∧
      (scope = [] ∨ total + (scope.map utf8Size).sum ≤ scopeMaxBytes) := by
  induction scope generalizing total with
  | nil => simp [requireSegments]
  | cons segment rest ih =>
      simp only [requireSegments, bind_eq_ok, exists_unit, encodedLength_eq_ok, raiseIf_eq_ok,
        Bool.not_eq_false, not_lt, ih, List.forall_mem_cons, List.map_cons, List.sum_cons,
        reduceCtorEq, false_or]
      constructor
      · rintro ⟨canonical, length, ⟨encoded, rfl⟩, here, size, each, bound⟩
        refine ⟨⟨⟨canonical, encoded, size⟩, each⟩, ?_⟩
        rcases bound with rfl | bound
        · simpa using here
        · omega
      · rintro ⟨⟨⟨canonical, encoded, size⟩, each⟩, bound⟩
        exact ⟨canonical, _, ⟨encoded, rfl⟩, by omega, size, each, .inr (by omega)⟩

theorem nestedRunId_concat (root : Text) (path : List PathStep) (step : PathStep) :
    nestedRunId root (path ++ [step]) =
      Text.childGraphRunId (nestedRunId root path) step.superstep step.nodeId := by
  simp [nestedRunId]

theorem nestedRunId_canonical {root : Text} {path : List PathStep}
    (canonicalRoot : isCanonical root = true)
    (canonicalPath : ∀ step ∈ path, isCanonical step.nodeId = true) :
    isCanonical (nestedRunId root path) = true := by
  induction path generalizing root with
  | nil => exact canonicalRoot
  | cons step path ih =>
      apply ih
      · exact Text.childGraphRunId_canonical canonicalRoot
          (canonicalPath step List.mem_cons_self) _
      · exact fun later member => canonicalPath later (List.mem_cons_of_mem _ member)

/-- The interrupt id of an Authorize node fits its view: no identity it embeds holds a surrogate,
and it takes at most 256 bytes. -/
structure Fits (root : Text) (path : List PathStep) (superstep generation : Nat) : Prop where
  rootEncodes : encodable root = true
  pathEncodes : ∀ step ∈ path, encodable step.nodeId = true
  bytes : (interruptSize root path superstep generation).bytes ≤ 256

instance (root : Text) (path : List PathStep) (superstep generation : Nat) :
    Decidable (Fits root path superstep generation) :=
  decidable_of_iff (encodable root = true ∧ (∀ step ∈ path, encodable step.nodeId = true) ∧
    (interruptSize root path superstep generation).bytes ≤ 256)
    ⟨fun h => ⟨h.1, h.2.1, h.2.2⟩, fun h => ⟨h.rootEncodes, h.pathEncodes, h.bytes⟩⟩

/-- The view of an Authorize interrupt is accepted exactly when its id fits. -/
theorem postInit_eq_ok_iff {root : Text} {path : List PathStep}
    (canonicalRoot : isCanonical root = true)
    (canonicalPath : ∀ step ∈ path, isCanonical step.nodeId = true)
    (superstep generation : Nat) {payload : Bytes}
    (admitted : admitInterruptPayload payload = .ok payload) :
    (AuthorizationInterruptView.postInit ⟨pathScope path, ofString "authorize",
      Text.graphInterruptId (nestedRunId root path) superstep (ofString "authorize") generation,
      payload⟩) = .ok () ↔ Fits root path superstep generation := by
  have authorize : isCanonical (ofString "authorize") = true := by decide +kernel
  have identity := Text.graphInterruptId_canonical
    (nestedRunId_canonical canonicalRoot canonicalPath) authorize superstep generation
  have sizes := textSize_graphInterruptId root path superstep generation
  have encoded := encodable_graphInterruptId root path superstep generation
  have total : ((pathScope path).map utf8Size).sum = pathBytes path := by
    simp only [pathScope, pathBytes, List.map_map]
    rfl
  have grows := interruptSize_grows root path superstep generation
  generalize Text.graphInterruptId (nestedRunId root path) superstep (ofString "authorize")
    generation = interruptId at identity sizes encoded ⊢
  have size : utf8Size interruptId = (interruptSize root path superstep generation).bytes :=
    congrArg TextSize.bytes sizes
  simp only [AuthorizationInterruptView.postInit, requireScope, bind_eq_ok, exists_unit,
    raiseIf_eq_ok, not_lt, requireSegments_eq_ok, encodedLength_eq_ok, ne_eq, not_not,
    Bool.not_eq_false, admitted, pure_eq_ok, Except.ok.injEq, identity, encoded, Bool.and_eq_true,
    List.all_eq_true]
  constructor
  · rintro ⟨-, -, -, length, ⟨⟨rootEncodes, pathEncodes⟩, rfl⟩, fits, -⟩
    exact ⟨rootEncodes, pathEncodes, size ▸ fits⟩
  · intro fits
    have bound := fits.bytes
    have member : ∀ segment ∈ pathScope path, utf8Size segment ≤ pathBytes path := by
      intro segment inside
      rw [← total]
      exact List.le_sum_of_mem (List.mem_map_of_mem inside)
    refine ⟨⟨?_, ?_, .inr ?_⟩, trivial, trivial, _, ⟨⟨fits.rootEncodes, fits.pathEncodes⟩, rfl⟩,
      ?_, payload,
      rfl, trivial⟩
    · simp only [pathScope, List.length_map, scopeMaxSegments]
      omega
    · intro segment inside
      obtain ⟨step, stepInside, rfl⟩ := List.mem_map.mp inside
      have small := member step.nodeId inside
      exact ⟨canonicalPath step stepInside, fits.pathEncodes step stepInside, by omega⟩
    · rw [total, scopeMaxBytes]
      omega
    · exact size ▸ bound

/-! ## Awaiting interrupts -/

/-- `GraphNodeInterruptIdentity`, over texts. -/
structure InterruptIdentity where
  runId : Text
  superstep : Nat
  nodeId : Text
  executionGeneration : Nat
  deriving DecidableEq

/-- An interrupted frontier node. -/
structure InterruptedNode where
  nodeId : Text
  identity : InterruptIdentity
  requestPayload : Bytes
  deriving DecidableEq

/-- What the interrupt views read of one run of a family. -/
structure AwaitingRun where
  scope : List Text
  runId : Text
  interrupted : List InterruptedNode
  deriving DecidableEq

/-- The interrupt view of one frontier node. -/
def InterruptedNode.view (node : InterruptedNode) (scope : List Text) : GraphInterruptView :=
  ⟨scope, node.nodeId, Text.graphInterruptId node.identity.runId node.identity.superstep
    node.identity.nodeId node.identity.executionGeneration, node.requestPayload⟩

/-- The interrupts of `_project_result_views`. -/
def projectResultInterrupts (runs : List AwaitingRun) : List GraphInterruptView :=
  runs.flatMap fun run => run.interrupted.map (·.view run.scope)

/-- The runs of a family: an interrupt is of its node and run, and no node and no run is there
twice. -/
structure FamilyRuns (runs : List AwaitingRun) : Prop where
  own : ∀ run ∈ runs, ∀ node ∈ run.interrupted,
    node.identity.runId = run.runId ∧ node.identity.nodeId = node.nodeId
  nodes : ∀ run ∈ runs, (run.interrupted.map (·.nodeId)).Nodup
  distinct : (runs.map (·.runId)).Nodup

/-- No two awaiting interrupts of a family have one id. -/
theorem FamilyRuns.interrupts {runs : List AwaitingRun} (family : FamilyRuns runs) :
    ((projectResultInterrupts runs).map (·.interruptId)).Nodup := by
  rw [projectResultInterrupts, List.map_flatMap, List.nodup_flatMap]
  refine ⟨?_, ?_⟩
  · -- within one run the node identities differ
    intro run member
    rw [List.map_map]
    refine List.pairwise_map.mpr ?_
    refine (List.pairwise_map.mp (family.nodes run member)).imp_of_mem ?_
    intro a b inA inB different same
    obtain ⟨-, -, node, -⟩ := Text.graphInterruptId_inj.mp same
    rw [(family.own run member a inA).2, (family.own run member b inB).2] at node
    exact different node
  · refine (List.pairwise_map.mp family.distinct).imp_of_mem ?_
    intro one other oneMember otherMember different id inOne inOther
    obtain ⟨view, projected, rfl⟩ := List.mem_map.mp inOne
    obtain ⟨otherView, otherProjected, same⟩ := List.mem_map.mp inOther
    obtain ⟨node, nodeMember, rfl⟩ := List.mem_map.mp projected
    obtain ⟨otherNode, otherNodeMember, rfl⟩ := List.mem_map.mp otherProjected
    obtain ⟨run, -⟩ := Text.graphInterruptId_inj.mp same
    rw [(family.own one oneMember node nodeMember).1,
      (family.own other otherMember otherNode otherNodeMember).1] at run
    exact different run.symm

/-! ## States -/

/-- The interrupt of a frontier node. -/
def interruptedNode (node : GraphFrontierNode) : Option InterruptedNode :=
  match node.settlement with
  | .interrupted interrupt => some ⟨ofString node.nodeId, ⟨ofString interrupt.identity.runId,
      interrupt.identity.superstep, ofString interrupt.identity.nodeId,
      interrupt.identity.executionGeneration⟩, interrupt.requestPayload⟩
  | _ => none

/-- A scoped state as the interrupt views read it. -/
def awaitingRun (scope : List GraphNodeId) (state : GraphRunState) : AwaitingRun :=
  ⟨scope.map ofString, ofString state.runId, state.frontier.nodes.filterMap interruptedNode⟩

theorem interruptedNode_eq_some {node : GraphFrontierNode} {interrupted : InterruptedNode}
    (projected : interruptedNode node = some interrupted) : ∃ interrupt,
      node.settlement = .interrupted interrupt ∧ interrupted.nodeId = ofString node.nodeId ∧
      interrupted.identity.runId = ofString interrupt.identity.runId ∧
      interrupted.identity.nodeId = ofString interrupt.identity.nodeId := by
  unfold interruptedNode at projected
  cases settlement : node.settlement with
  | interrupted interrupt =>
      rw [settlement] at projected
      rw [← Option.some.inj projected]
      exact ⟨interrupt, rfl, rfl, rfl, rfl⟩
  | pending input => simp [settlement] at projected
  | succeeded routing => simp [settlement] at projected
  | failed failure => simp [settlement] at projected

/-- The states of a family make the runs of one when each passes its validation and no run is
there twice. -/
theorem familyRuns_of_states {states : List (List GraphNodeId × GraphRunState)}
    (valid : ∀ entry ∈ states, validateGraphRunState entry.2 = .ok ())
    (runs : (states.map (fun entry => entry.2.runId)).Nodup) :
    FamilyRuns (states.map fun entry => awaitingRun entry.1 entry.2) := by
  have frontier : ∀ entry ∈ states, ValidFrontier entry.2 entry.2.frontier := fun entry member =>
    ((validateGraphRunState_eq_ok _ _).mp (valid entry member)).frontier
  refine ⟨?_, ?_, ?_⟩
  · intro run member interrupted inside
    obtain ⟨entry, entryMember, rfl⟩ := List.mem_map.mp member
    obtain ⟨node, nodeMember, projected⟩ := List.mem_filterMap.mp inside
    obtain ⟨interrupt, settlement, id, run, own⟩ := interruptedNode_eq_some projected
    have settled := (frontier entry entryMember).settlements node nodeMember
    rw [settlement] at settled
    obtain ⟨sameNode, sameRun, -, -, -⟩ := settled
    rw [run, own, id, sameRun, sameNode]
    exact ⟨rfl, rfl⟩
  · intro run member
    obtain ⟨entry, entryMember, rfl⟩ := List.mem_map.mp member
    have distinct := List.pairwise_map.mp (frontier entry entryMember).distinct
    refine List.pairwise_map.mpr (distinct.filterMap _ ?_)
    intro a b different viewA shownA viewB shownB same
    obtain ⟨-, -, idA, -, -⟩ := interruptedNode_eq_some shownA
    obtain ⟨-, -, idB, -, -⟩ := interruptedNode_eq_some shownB
    rw [idA, idB] at same
    exact different (ofString_injective same)
  · have texts := runs.map ofString_injective
    rw [List.map_map] at texts ⊢
    exact texts

/-! ## Resuming -/

/-- An awaiting interrupt is the only one its id names. -/
theorem matchInterrupt_eq_ok {interrupts : List GraphInterruptView} {view : GraphInterruptView}
    (distinct : (interrupts.map (·.interruptId)).Nodup) (member : view ∈ interrupts) :
    matchInterrupt interrupts view.interruptId = .ok view := by
  have single : interrupts.filter (fun other => other.interruptId = view.interruptId) = [view] := by
    induction interrupts with
    | nil => cases member
    | cons first rest ih =>
        rw [List.map_cons, List.nodup_cons] at distinct
        rcases List.mem_cons.mp member with rfl | later
        · rw [List.filter_cons_of_pos (by simp), List.filter_eq_nil_iff.mpr]
          intro other inside same
          have sameId : other.interruptId = view.interruptId := by simpa using same
          exact distinct.1 (sameId ▸ List.mem_map_of_mem inside)
        · have different : first.interruptId ≠ view.interruptId := by
            intro same
            exact distinct.1 (same ▸ List.mem_map_of_mem later)
          rw [List.filter_cons_of_neg (by simpa using different), ih distinct.2 later]
  rw [matchInterrupt, single]

variable {σ κ : Type}

/-- The rest of `resume_authorization`, once the interrupt is found. -/
theorem resumeAuthorization_eq_ok_iff {admission : ActPayloadAdmission σ κ} {ports : ActPorts σ κ}
    {interrupts : List GraphInterruptView} {view : GraphInterruptView}
    {decision : AuthorizationDecision} {resumed : ResumedAuthorization σ}
    (found : matchInterrupt interrupts view.interruptId = .ok view)
    (answers : ports.buildResumeInput ⟨view.scope, view.nodeId, view.interruptId,
      view.requestPayload⟩ decision = .ok ⟨.resumedAuthorization resumed⟩)
    (state : admission.hookStateType resumed.resolved.request.hookState = true) :
    (∃ action, resumeAuthorization admission ports interrupts view.interruptId decision =
      .ok action) ↔ AuthorizationInterruptView.postInit ⟨view.scope, view.nodeId,
        view.interruptId, view.requestPayload⟩ = .ok () := by
  have admitted : admission.admitHookResult (resumedHookResult resumed) = .ok () := by
    simp [ActPayloadAdmission.admitHookResult, ActPayloadAdmission.admitHookEnvelope,
      resumedHookResult, stagePayload, state, stageNodeId, raiseIf]
  simp only [resumeAuthorization, bind_eq_ok, exists_unit, rethrow_eq_ok, found, Except.ok.injEq,
    exists_eq_left', answers, requireResumed, admitted, pure_eq_ok, true_and]
  constructor
  · rintro ⟨action, accepted, -⟩
    exact accepted
  · intro accepted
    exact ⟨_, accepted, rfl⟩

/-- Only an accepted view is resumed. -/
theorem postInit_of_resumed {admission : ActPayloadAdmission σ κ} {ports : ActPorts σ κ}
    {interrupts : List GraphInterruptView} {view : GraphInterruptView}
    {decision : AuthorizationDecision} {action : ResumeAction σ κ}
    (found : matchInterrupt interrupts view.interruptId = .ok view)
    (resumed : resumeAuthorization admission ports interrupts view.interruptId decision =
      .ok action) :
    AuthorizationInterruptView.postInit ⟨view.scope, view.nodeId, view.interruptId,
      view.requestPayload⟩ = .ok () := by
  simp only [resumeAuthorization, bind_eq_ok, exists_unit, rethrow_eq_ok, found, Except.ok.injEq,
    exists_eq_left'] at resumed
  exact resumed.1

/-- An awaiting Authorize interrupt whose Port answers the resume is accepted, and can be resumed
with Allow or Deny, exactly when its id can be encoded and takes at most 256 bytes. -/
theorem authorize_interrupt_resumable_iff (admission : ActPayloadAdmission σ κ)
    (ports : ActPorts σ κ) (decision : AuthorizationDecision) (root : Text)
    (path : List PathStep) (canonicalRoot : isCanonical root = true)
    (canonicalPath : ∀ step ∈ path, isCanonical step.nodeId = true)
    (superstep generation : Nat) (payload : Bytes)
    (admitted : admitInterruptPayload payload = .ok payload)
    (runs : List AwaitingRun) (family : FamilyRuns runs) {run : AwaitingRun} (member : run ∈ runs)
    (placed : run.scope = pathScope path)
    (awaits : ⟨ofString "authorize", ⟨nestedRunId root path, superstep, ofString "authorize",
      generation⟩, payload⟩ ∈ run.interrupted)
    {resumed : ResumedAuthorization σ}
    (answers : ports.buildResumeInput ⟨pathScope path, ofString "authorize",
      Text.graphInterruptId (nestedRunId root path) superstep (ofString "authorize") generation,
      payload⟩ decision = .ok ⟨.resumedAuthorization resumed⟩)
    (hookState : admission.hookStateType resumed.resolved.request.hookState = true) :
    let interruptId :=
      Text.graphInterruptId (nestedRunId root path) superstep (ofString "authorize") generation
    (AuthorizationInterruptView.postInit
      ⟨pathScope path, ofString "authorize", interruptId, payload⟩ = .ok () ↔
      Fits root path superstep generation) ∧
    ((∃ action, resumeAuthorization admission ports (projectResultInterrupts runs) interruptId
      decision = .ok action) ↔ Fits root path superstep generation) := by
  intro interruptId
  have accepted := postInit_eq_ok_iff canonicalRoot canonicalPath superstep generation admitted
  refine ⟨accepted, ?_⟩
  have awaiting : (⟨pathScope path, ofString "authorize", interruptId, payload⟩ :
      GraphInterruptView) ∈ projectResultInterrupts runs := by
    refine List.mem_flatMap.mpr ⟨run, member, List.mem_map.mpr ⟨_, awaits, ?_⟩⟩
    rw [← placed]
    rfl
  have found := matchInterrupt_eq_ok family.interrupts awaiting
  rw [resumeAuthorization_eq_ok_iff found answers hookState]
  exact accepted

/-! ## Two awaiting runs -/

/-- The state of an Act run that awaits its first authorization. -/
def awaitingState (runId : GraphRunId) (parent : GraphActivationIdentity) : GraphRunState :=
  { runId := runId
    definitionId := "act"
    definitionVersion := 1
    status := .running
    superstep := 2
    frontier := ⟨[⟨"authorize", .interrupted ⟨⟨runId, 2, "authorize", 3⟩, [9]⟩,
      .routed ⟨[⟨⟨runId, 1, "hook"⟩, some "resolve"⟩], none⟩⟩]⟩
    executionSequence := 3
    resumeInputCodec := some ⟨"codec", 1⟩
    settledPublications := [⟨⟨⟨runId, 0, "resolve"⟩, none⟩, 3, ⟨1, "a1"⟩, none⟩,
      ⟨⟨⟨runId, 1, "hook"⟩, some "resolve"⟩, 6, ⟨2, "a2"⟩, none⟩]
    parent := some parent
    revision := 8 }

theorem awaitingRun_awaitingState (scope : List GraphNodeId) (runId : GraphRunId)
    (parent : GraphActivationIdentity) : awaitingRun scope (awaitingState runId parent) =
      ⟨scope.map ofString, ofString runId, [⟨ofString "authorize",
        ⟨ofString runId, 2, ofString "authorize", 3⟩, [9]⟩]⟩ := rfl

/-- Such a state passes its validation, whatever the run is called. -/
theorem awaitingState_valid {runId parentRun : GraphRunId} {superstep : Nat} {nodeId : GraphNodeId}
    (identity : runId = childGraphRunId parentRun superstep nodeId)
    (run : isCanonicalIdentity parentRun = true) (node : isCanonicalIdentity nodeId = true) :
    validateGraphRunState (awaitingState runId ⟨parentRun, superstep, nodeId⟩) = .ok () := by
  have child : isCanonicalIdentity runId = true :=
    identity ▸ childGraphRunId_canonical run node superstep
  have longer := ChildRun.longer ⟨superstep, nodeId, identity⟩
  have authorize : isCanonicalIdentity "authorize" = true := by decide +kernel
  have resolve : isCanonicalIdentity "resolve" = true := by decide +kernel
  have hook : isCanonicalIdentity "hook" = true := by decide +kernel
  have attempts : ∀ attempt ∈ ["act", "a1", "a2"], isCanonicalIdentity attempt = true := by
    decide +kernel
  have cursor : GraphConfigCursor.postInit ⟨"act", 1, 1, none⟩ = .ok () := by decide +kernel
  have published : CanonicalReference ⟨⟨runId, 1, "hook"⟩, some "resolve"⟩ :=
    ⟨child, hook, by simpa [canonicalRoute] using resolve⟩
  have earlier : (⟨⟨runId, 0, "resolve"⟩, none⟩ : ActivationReference) <
      ⟨⟨runId, 1, "hook"⟩, some "resolve"⟩ := by
    show ActivationReference.canonicalKey _ < ActivationReference.canonicalKey _
    simp [ActivationReference.canonicalKey, Prod.Lex.lt_iff]
  rw [validateGraphRunState_eq_ok]
  refine ⟨child, attempts "act" (by simp), Nat.le_refl 1, cursor, ?_,
    by simp [awaitingState, canonicalRoute], ?_, ?_, ?_, by simp [awaitingState],
    by simp [awaitingState], ?_⟩
  · refine ⟨?_, ?_, ?_, ?_, ?_, ?_, ?_, ?_, ?_, ?_⟩
    · simp only [awaitingState, List.forall_mem_cons]
      refine ⟨⟨⟨child, resolve, by simp [canonicalRoute]⟩, ?_, ⟨?_, attempts "a1" (by simp)⟩,
        by simp [ValidEvidence]⟩, ⟨published, ?_, ⟨?_, attempts "a2" (by simp)⟩,
        by simp [ValidEvidence]⟩, by simp⟩
      all_goals simp
    · simpa [awaitingState, GraphRunState.settledReferences] using earlier
    all_goals simp [awaitingState, GraphRunState.settledReferences, frontierPublications,
      routingContributions]
  · intro other present
    obtain rfl : ⟨parentRun, superstep, nodeId⟩ = other := by simpa [awaitingState] using present
    refine ⟨run, node, ?_, identity⟩
    intro same
    have equal : parentRun = runId := same
    rw [equal] at longer
    exact absurd longer (Nat.lt_irrefl _)
  · exact ⟨by simp [awaitingState], by simp [awaitingState], by simp [awaitingState]⟩
  · refine ⟨by simp [awaitingState], by simpa [awaitingState] using authorize, ?_, ?_,
      by simp [awaitingState], ?_⟩
    · simp only [awaitingState, List.forall_mem_singleton]
      exact ⟨by simp, by simp, by simp, by simpa using published, by simp, by simp,
        by simp [GraphRunState.settledReferences], by simp, by simp⟩
    · simp [awaitingState, ValidSettlement]
    · simp only [awaitingState, Option.mem_def, Option.some.injEq, forall_eq']
      exact ⟨by decide +kernel, by decide⟩
  · simp [ValidStatus, awaitingState, frontierStatus, GraphNodeSettlement.isPending,
      GraphNodeSettlement.isFailed, GraphNodeSettlement.isInterrupted]

/-- Such a run cannot be resumed when the view of its interrupt is not accepted. -/
theorem awaitingState_rejected {runId : GraphRunId} {parent : GraphActivationIdentity}
    {scope : List GraphNodeId} {interruptId : Text}
    (minted : interruptId =
      Text.graphInterruptId (ofString runId) 2 (ofString "authorize") 3)
    (rejected : AuthorizationInterruptView.postInit
      ⟨scope.map ofString, ofString "authorize", interruptId, [9]⟩ ≠ .ok ())
    (ports : ActPorts Unit Unit) (decision : AuthorizationDecision) :
    ¬ ∃ action, resumeAuthorization sampleAdmission ports
      (projectResultInterrupts [awaitingRun scope (awaitingState runId parent)]) interruptId
      decision = .ok action := by
  rintro ⟨action, resumed⟩
  let view : GraphInterruptView := ⟨scope.map ofString, ofString "authorize", interruptId, [9]⟩
  have views : projectResultInterrupts [awaitingRun scope (awaitingState runId parent)] =
      [view] := by
    rw [awaitingRun_awaitingState]
    simp only [projectResultInterrupts, List.flatMap_cons, List.flatMap_nil, List.map_cons,
      List.map_nil, List.append_nil, InterruptedNode.view, ← minted, view]
  rw [views] at resumed
  have once : ([view].map (·.interruptId)).Nodup := List.nodup_singleton interruptId
  have found : matchInterrupt [view] view.interruptId = .ok view :=
    matchInterrupt_eq_ok once (List.mem_singleton_self view)
  exact rejected (postInit_of_resumed found resumed)

/-- The run id some levels below a root, with one-letter names throughout. -/
def deepRunId : Nat → GraphRunId
  | 0 => "r"
  | depth + 1 => childGraphRunId (deepRunId depth) 1 "a"

def deepPath (depth : Nat) : List PathStep := List.replicate depth ⟨1, ofString "a"⟩

theorem ofString_deepRunId (depth : Nat) :
    ofString (deepRunId depth) = nestedRunId (ofString "r") (deepPath depth) := by
  induction depth with
  | zero => rfl
  | succ depth ih =>
      rw [deepPath, List.replicate_succ', nestedRunId_concat, ← deepPath, ← ih, deepRunId,
        ofString_childGraphRunId]

theorem deepRunId_canonical (depth : Nat) : isCanonicalIdentity (deepRunId depth) = true := by
  induction depth with
  | zero => decide +kernel
  | succ depth ih => exact childGraphRunId_canonical ih (by decide +kernel) 1

theorem awaitingState_deep (depth : Nat) : validateGraphRunState
    (awaitingState (deepRunId (depth + 1)) ⟨deepRunId depth, 1, "a"⟩) = .ok () :=
  awaitingState_valid rfl (deepRunId_canonical depth) (by decide +kernel)

theorem nestedRun_family :
    FamilyRuns [awaitingRun ["a"] (awaitingState (deepRunId 1) ⟨deepRunId 0, 1, "a"⟩)] := by
  have states : FamilyRuns ([(["a"], awaitingState (deepRunId 1) ⟨deepRunId 0, 1, "a"⟩)].map
      fun entry => awaitingRun entry.1 entry.2) := by
    apply familyRuns_of_states
    · simpa using awaitingState_deep 0
    · simp
  exact states

/-- An Act graph one level below its root is resumed. -/
theorem authorize_interrupt_resumable_nested :
    let runs := [awaitingRun ["a"] (awaitingState (deepRunId 1) ⟨deepRunId 0, 1, "a"⟩)]
    let interruptId :=
      Text.graphInterruptId (nestedRunId (ofString "r") (deepPath 1)) 2 (ofString "authorize") 3
    utf8Size interruptId = 86 ∧
    ∃ action, resumeAuthorization sampleAdmission (samplePorts sampleResolved .allow rfl)
      (projectResultInterrupts runs) interruptId .allow = .ok action :=
  ⟨by decide +kernel, (authorize_interrupt_resumable_iff sampleAdmission
    (samplePorts sampleResolved .allow rfl) .allow (ofString "r") (deepPath 1) (by decide +kernel)
    (by decide +kernel) 2 3 [9] rfl
    [awaitingRun ["a"] (awaitingState (deepRunId 1) ⟨deepRunId 0, 1, "a"⟩)]
    nestedRun_family
    (List.mem_singleton_self _) rfl
    (by rw [awaitingRun_awaitingState, ofString_deepRunId]; exact List.mem_singleton_self _)
    rfl rfl).2.mpr (by decide +kernel)⟩

/-- Nobody can allow or deny the authorization that a run six levels below its root awaits. -/
theorem deep_authorize_interrupt_rejected :
    let scope := List.replicate 6 "a"
    let state := awaitingState (deepRunId 6) ⟨deepRunId 5, 1, "a"⟩
    let interruptId := Text.graphInterruptId (ofString (deepRunId 6)) 2 (ofString "authorize") 3
    validateGraphRunState state = .ok () ∧
    AuthorizationInterruptView.postInit
      ⟨scope.map ofString, ofString "authorize", interruptId, [9]⟩ ≠ .ok () ∧
    ∀ (ports : ActPorts Unit Unit) (decision : AuthorizationDecision),
      ¬ ∃ action, resumeAuthorization sampleAdmission ports
        (projectResultInterrupts [awaitingRun scope state]) interruptId decision = .ok action := by
  intro scope state interruptId
  have names : ∀ step ∈ deepPath 6, isCanonical step.nodeId = true := by decide +kernel
  have rejected : AuthorizationInterruptView.postInit
      ⟨scope.map ofString, ofString "authorize", interruptId, [9]⟩ ≠ .ok () := by
    intro accepted
    have small : admitInterruptPayload [9] = .ok [9] := rfl
    have root : isCanonical (ofString "r") = true := by decide +kernel
    have fits := (postInit_eq_ok_iff root names 2 3 small).mp (by
      rw [← ofString_deepRunId]
      exact accepted)
    exact absurd fits.bytes (by decide +kernel)
  exact ⟨awaitingState_deep 5, rejected, awaitingState_rejected rfl rejected⟩

/-- A surrogate is a canonical run id, and no interrupt of its run can be resumed. -/
example :
    let root : Text := [⟨0xD800, by decide⟩]
    isCanonical root = true ∧ (interruptSize root [] 2 3).bytes = 53 ∧
      AuthorizationInterruptView.postInit ⟨[], ofString "authorize",
        Text.graphInterruptId root 2 (ofString "authorize") 3, [9]⟩ =
          .error ⟨"authorization interrupt_id must be valid UTF-8"⟩ := by
  decide +kernel

end MoteKernel.Act
