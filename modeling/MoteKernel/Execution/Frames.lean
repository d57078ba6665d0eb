import MoteKernel.Execution.ScopeIdentity
import MoteKernel.Execution.Settlement

/-!
# Scoped frames

`execution/run_context.py`, with the frame classes of
`execution/graph/values.py`. `ν` is the type of the values of a graph and `σ`
that of the caller's part of a Session. A partition of the index is kept in
coordinate order, so `bisect_left` finds the first coordinate that is not
smaller.
-/

namespace MoteKernel
open Checked Canonical

variable {τ ν σ : Type}

/-! ## Frames and Sessions -/

structure NamedValue (ν : Type) where
  name : String
  value : ν
  deriving DecidableEq, Repr

/-- `GraphInputFrame`, `NodeOutputFrame` and `GraphOutputView`: named values and the Config they
were produced under. -/
structure Frame (ν : Type) where
  entries : List (NamedValue ν)
  activationConfig : Option ActivationConfig := none
  deriving DecidableEq, Repr

/-- `AgentSession`; `content` is what the kernel carries and never reads. -/
structure AgentSession (σ : Type) where
  content : σ
  config : Option ActivationConfig := none
  deriving DecidableEq, Repr

/-- `AgentSessionCarrier.config_cursor`. -/
def AgentSession.configCursor (session : AgentSession σ) : Option GraphConfigCursor :=
  session.config.map ActivationConfig.configCursor

structure NodeInputFrame (ν σ : Type) where
  entries : List (NamedValue ν)
  activationConfig : Option ActivationConfig := none
  session : Option (AgentSession σ) := none
  deriving DecidableEq, Repr

/-! ## Coordinates -/

structure ResumeInputAvailabilityCoordinate where
  activation : StableActivation
  descriptor : FrameDescriptorIdentity
  deriving DecidableEq, Repr

structure ChildBoundaryAvailabilityCoordinate where
  childScopeRun : ScopeRunCoordinate
  descriptor : FrameDescriptorIdentity
  deriving DecidableEq, Repr

/-- The value of a `FrameKind`. -/
def FrameKind.value : FrameKind → Nat
  | .graphInput => 1
  | .nodeInput => 2
  | .nodeOutput => 3
  | .graphOutput => 4

theorem FrameKind.value_injective : Function.Injective FrameKind.value := by
  intro a b same
  cases a <;> cases b <;> first | rfl | cases same

abbrev ScopeRunKey := List String ×ₗ String
abbrev DescriptorKey := String ×ₗ Nat ×ₗ Nat ×ₗ Nat

/-- The field-by-field order of `ScopeRunCoordinate`. -/
def ScopeRunCoordinate.orderKey (coordinate : ScopeRunCoordinate) : ScopeRunKey :=
  toLex (coordinate.scope, coordinate.graphRunId)

/-- The field-by-field order of `FrameDescriptorIdentity`. -/
def FrameDescriptorIdentity.orderKey (identity : FrameDescriptorIdentity) : DescriptorKey :=
  toLex (identity.definitionId, toLex (identity.definitionVersion,
    toLex (identity.frameKind.value, identity.ownerOrdinal)))

/-- The field-by-field order of `StableActivation`. -/
def StableActivation.orderKey (activation : StableActivation) : ScopeRunKey ×ₗ Nat ×ₗ String :=
  toLex (activation.scopeRun.orderKey, toLex (activation.superstep, activation.nodeId))

theorem ScopeRunCoordinate.orderKey_injective :
    Function.Injective ScopeRunCoordinate.orderKey := by
  intro ⟨scope, run⟩ ⟨scope', run'⟩ same
  simp only [orderKey, toLex_inj, Prod.mk.injEq] at same
  obtain ⟨rfl, rfl⟩ := same
  rfl

theorem FrameDescriptorIdentity.orderKey_injective :
    Function.Injective FrameDescriptorIdentity.orderKey := by
  intro ⟨id, version, kind, ordinal⟩ ⟨id', version', kind', ordinal'⟩ same
  simp only [orderKey, toLex_inj, Prod.mk.injEq] at same
  obtain ⟨rfl, rfl, kinds, rfl⟩ := same
  rw [FrameKind.value_injective kinds]

theorem StableActivation.orderKey_injective : Function.Injective StableActivation.orderKey := by
  intro ⟨scopeRun, step, node⟩ ⟨scopeRun', step', node'⟩ same
  simp only [orderKey, toLex_inj, Prod.mk.injEq] at same
  obtain ⟨scopes, rfl, rfl⟩ := same
  rw [ScopeRunCoordinate.orderKey_injective scopes]

instance : LinearOrder ScopeRunCoordinate :=
  LinearOrder.lift' ScopeRunCoordinate.orderKey ScopeRunCoordinate.orderKey_injective

instance : LinearOrder FrameDescriptorIdentity :=
  LinearOrder.lift' FrameDescriptorIdentity.orderKey FrameDescriptorIdentity.orderKey_injective

instance : LinearOrder StableActivation :=
  LinearOrder.lift' StableActivation.orderKey StableActivation.orderKey_injective

instance : LinearOrder GraphInputAvailabilityCoordinate :=
  LinearOrder.lift' (fun c => toLex (c.scopeRun, c.descriptor)) (by
    intro ⟨_, _⟩ ⟨_, _⟩ same
    simpa using same)

instance : LinearOrder PublicationAvailabilityCoordinate :=
  LinearOrder.lift' (fun c => toLex (c.activation, c.descriptor)) (by
    intro ⟨_, _⟩ ⟨_, _⟩ same
    simpa using same)

instance : LinearOrder ResumeInputAvailabilityCoordinate :=
  LinearOrder.lift' (fun c => toLex (c.activation, c.descriptor)) (by
    intro ⟨_, _⟩ ⟨_, _⟩ same
    simpa using same)

instance : LinearOrder ChildBoundaryAvailabilityCoordinate :=
  LinearOrder.lift' (fun c => toLex (c.childScopeRun, c.descriptor)) (by
    intro ⟨_, _⟩ ⟨_, _⟩ same
    simpa using same)

/-! ## Records -/

structure AdmittedGraphInput (ν : Type) where
  coordinate : GraphInputAvailabilityCoordinate
  frame : Frame ν
  deriving DecidableEq, Repr

structure ExecutionPublicationProvenance where
  executionToken : GraphExecutionToken
  deriving DecidableEq, Repr

structure ConfirmedPublication (ν : Type) where
  coordinate : PublicationAvailabilityCoordinate
  frame : Frame ν
  acknowledgedRevision : Nat
  provenance : ExecutionPublicationProvenance
  deriving DecidableEq, Repr

structure AdmittedResumeInput (ν σ : Type) where
  coordinate : ResumeInputAvailabilityCoordinate
  frame : NodeInputFrame ν σ
  deriving DecidableEq, Repr

structure ConfirmedChildBoundary (ν : Type) where
  coordinate : ChildBoundaryAvailabilityCoordinate
  frame : Frame ν
  deriving DecidableEq, Repr

/-- `_insert_frame_record`. -/
def insertFrameRecord {ρ κ : Type} [LinearOrder κ] (coordinate : ρ → κ) (message : String)
    (records : List ρ) (record : ρ) : Except ExecutionError (List ρ) := do
  raiseIf (∃ existing ∈ records, coordinate existing = coordinate record)
    ⟨.graphValuePublication, message⟩
  return records.orderedInsert (fun a b => coordinate a ≤ coordinate b) record

/-- `ScopedFrameIndex`. -/
structure ScopedFrameIndex (ν σ : Type) where
  graphInputs : List (AdmittedGraphInput ν) := []
  publications : List (ConfirmedPublication ν) := []
  resumeInputs : List (AdmittedResumeInput ν σ) := []
  childBoundaries : List (ConfirmedChildBoundary ν) := []
  deriving DecidableEq, Repr

namespace ScopedFrameIndex

/-- The graph-input case of `ScopedFrameIndex.lookup`. -/
def lookupGraphInput (index : ScopedFrameIndex ν σ)
    (coordinate : GraphInputAvailabilityCoordinate) : Option (AdmittedGraphInput ν) :=
  index.graphInputs.find? (fun record => record.coordinate = coordinate)

/-- The publication case of `ScopedFrameIndex.lookup`. -/
def lookupPublication (index : ScopedFrameIndex ν σ)
    (coordinate : PublicationAvailabilityCoordinate) : Option (ConfirmedPublication ν) :=
  index.publications.find? (fun record => record.coordinate = coordinate)

/-- `ScopedFrameIndex.add_graph_input`. -/
def addGraphInput (index : ScopedFrameIndex ν σ) (record : AdmittedGraphInput ν) :
    Except ExecutionError (ScopedFrameIndex ν σ) := do
  let graphInputs ← insertFrameRecord (·.coordinate)
    "graph input coordinate was admitted more than once" index.graphInputs record
  return { index with graphInputs := graphInputs }

/-- `ScopedFrameIndex.add_publication`. -/
def addPublication (index : ScopedFrameIndex ν σ) (record : ConfirmedPublication ν) :
    Except ExecutionError (ScopedFrameIndex ν σ) := do
  let publications ← insertFrameRecord (·.coordinate)
    "stable activation was published more than once" index.publications record
  return { index with publications := publications }

/-- `ScopedFrameIndex.add_resume_input`. -/
def addResumeInput (index : ScopedFrameIndex ν σ) (record : AdmittedResumeInput ν σ) :
    Except ExecutionError (ScopedFrameIndex ν σ) := do
  let resumeInputs ← insertFrameRecord (·.coordinate)
    "resume input coordinate was admitted more than once" index.resumeInputs record
  return { index with resumeInputs := resumeInputs }

/-- `ScopedFrameIndex.add_child_boundary`. -/
def addChildBoundary (index : ScopedFrameIndex ν σ) (record : ConfirmedChildBoundary ν) :
    Except ExecutionError (ScopedFrameIndex ν σ) := do
  let childBoundaries ← insertFrameRecord (·.coordinate)
    "child boundary coordinate was confirmed more than once" index.childBoundaries record
  return { index with childBoundaries := childBoundaries }

end ScopedFrameIndex

/-! ## Insertion -/

section Insertion

variable {ρ κ : Type} [LinearOrder κ] {coordinate : ρ → κ} {message : String}

theorem insertFrameRecord_eq_ok (records updated : List ρ) (record : ρ) :
    insertFrameRecord coordinate message records record = .ok updated ↔
      (∀ existing ∈ records, coordinate existing ≠ coordinate record) ∧
      updated = records.orderedInsert (fun a b => coordinate a ≤ coordinate b) record := by
  simp only [insertFrameRecord, bind_unit_eq_ok, raiseIf_eq_ok, not_exists, not_and, pure_eq_ok,
    Except.ok.injEq, ne_eq, eq_comm (a := updated)]

theorem mem_insertFrameRecord {records updated : List ρ} {record : ρ}
    (inserted : insertFrameRecord coordinate message records record = .ok updated) {item : ρ} :
    item ∈ updated ↔ item = record ∨ item ∈ records := by
  obtain ⟨-, rfl⟩ := (insertFrameRecord_eq_ok _ _ _).mp inserted
  exact List.mem_orderedInsert _

theorem insertFrameRecord_perm {records updated : List ρ} {record : ρ}
    (inserted : insertFrameRecord coordinate message records record = .ok updated) :
    updated.Perm (records ++ [record]) := by
  obtain ⟨-, rfl⟩ := (insertFrameRecord_eq_ok _ _ _).mp inserted
  exact (List.perm_orderedInsert _ _ _).trans (List.perm_append_singleton _ _).symm

end Insertion

end MoteKernel
