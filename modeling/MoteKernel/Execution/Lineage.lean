import MoteKernel.Execution.FamilyDriver
import MoteKernel.Execution.ResumeInput

/-!
# Lineage of a graph family

The run evidence of `execution/run_context.py` and the planned lineage of
`execution/invocation.py`: the root state and the evidence of its nested runs,
in canonical scoped order.
-/

namespace MoteKernel
open Checked Canonical

/-! ## Run evidence -/

/-- `ScopedStateBinding`. -/
structure ScopedStateBinding where
  scopeRun : ScopeRunCoordinate
  state : GraphRunState
  deriving DecidableEq, Repr

/-- `ScopedStateBinding.parent_activation`. -/
def ScopedStateBinding.parentActivation (binding : ScopedStateBinding) :
    Except ExecutionError (Option StableActivation) :=
  scopedParentActivation binding.scopeRun binding.state

/-- `ScopedRunEvidence`: the state of a run, or the explicit proof that it was never created. -/
inductive ScopedRunEvidence where
  | bound (binding : ScopedStateBinding)
  | uncreated (scopeRun : ScopeRunCoordinate)
  deriving DecidableEq, Repr

namespace ScopedRunEvidence

def scopeRun : ScopedRunEvidence → ScopeRunCoordinate
  | bound binding => binding.scopeRun
  | uncreated scopeRun => scopeRun

/-- The record if it is a `ScopedStateBinding`. -/
def binding? : ScopedRunEvidence → Option ScopedStateBinding
  | bound binding => some binding
  | uncreated _ => none

/-- The coordinate if it is an `UncreatedGraphRun`. -/
def uncreated? : ScopedRunEvidence → Option ScopeRunCoordinate
  | bound _ => none
  | uncreated scopeRun => some scopeRun

end ScopedRunEvidence

/-- The state bindings among the evidence. -/
def stateBindings (childRuns : List ScopedRunEvidence) : List ScopedStateBinding :=
  childRuns.filterMap ScopedRunEvidence.binding?

theorem mem_stateBindings {childRuns : List ScopedRunEvidence} {binding : ScopedStateBinding} :
    binding ∈ stateBindings childRuns ↔ .bound binding ∈ childRuns := by
  simp only [stateBindings, List.mem_filterMap]
  constructor
  · rintro ⟨evidence, member, found⟩
    cases evidence with
    | bound other =>
        cases found
        exact member
    | uncreated scopeRun => cases found
  · intro member
    exact ⟨_, member, rfl⟩

/-! ## The planned lineage -/

/-- `root_scope_run`. -/
def rootScopeRun (runId : GraphRunId) : ScopeRunCoordinate := ⟨[], runId⟩

/-- `_PlannedLineage`. -/
structure PlannedLineage where
  bindings : List ScopedStateBinding
  uncreated : List ScopeRunCoordinate := []
  deriving DecidableEq, Repr

/-- One record of the second loop of `lineage_states`. -/
def requireChildRun (evidence : ScopedRunEvidence) : Except ExecutionError Unit := do
  evidence.scopeRun.postInit
  raiseIf (evidence.scopeRun.scope = [])
    ⟨.snapshotMismatch, "child state binding requires a nested scope"⟩
  match evidence with
  | .bound binding => do
      let _ ← binding.parentActivation
      return ()
  | .uncreated _ => return ()

/-- `lineage_states`. -/
def lineageStates (rootState : GraphRunState) (childRuns : List ScopedRunEvidence) :
    Except ExecutionError PlannedLineage := do
  raiseIf (childRuns ≠ childRuns.insertionSort (fun a b => a.scopeRun ≤ b.scopeRun))
    ⟨.snapshotMismatch, "continuation child bindings are not in canonical scoped order"⟩
  raiseIf (¬ (childRuns.map (·.scopeRun)).Nodup)
    ⟨.snapshotMismatch, "lineage repeats one scoped graph run"⟩
  checkAll requireChildRun childRuns
  let root : ScopedStateBinding := ⟨rootScopeRun rootState.runId, rootState⟩
  return ⟨(root :: stateBindings childRuns).insertionSort (fun a b => a.scopeRun ≤ b.scopeRun),
    childRuns.filterMap ScopedRunEvidence.uncreated?⟩

/-! ## Admitted lineages -/

/-- A nested run of an admitted lineage, with the activation that opened it. -/
theorem requireChildRun_bound {binding : ScopedStateBinding} {u : Unit}
    (admitted : requireChildRun (.bound binding) = .ok u) :
    binding.scopeRun.scope ≠ [] ∧ ∃ activation, binding.parentActivation = .ok (some activation) := by
  simp only [requireChildRun, bind_eq_ok, exists_unit, raiseIf_eq_ok, pure_eq_ok] at admitted
  obtain ⟨-, nested, parent, read, -⟩ := admitted
  refine ⟨nested, ?_⟩
  unfold ScopedStateBinding.parentActivation scopedParentActivation at read ⊢
  simp only [bind_eq_ok, exists_unit, raiseIf_eq_ok] at read
  obtain ⟨sameRun, found⟩ := read
  cases parentState : binding.state.parent with
  | none =>
      simp only [parentState, bind_eq_ok, exists_unit, raiseIf_eq_ok] at found
      exact absurd nested found.1
  | some opener =>
      simp only [parentState, bind_eq_ok, exists_unit, raiseIf_eq_ok, pure_eq_ok,
        Except.ok.injEq] at found
      obtain ⟨-, activation, opened, -⟩ := found
      refine ⟨activation, ?_⟩
      simp only [bind_eq_ok, exists_unit, raiseIf_eq_ok, pure_eq_ok, Except.ok.injEq]
      exact ⟨sameRun, nested, activation, opened, rfl⟩

/-- What `lineage_states` guarantees of the runs it admits. -/
structure AdmittedLineage (rootState : GraphRunState) (childRuns : List ScopedRunEvidence)
    (lineage : PlannedLineage) : Prop where
  distinct : (lineage.bindings.map (·.scopeRun)).Nodup
  root : ⟨rootScopeRun rootState.runId, rootState⟩ ∈ lineage.bindings
  bindings : ∀ binding, binding ∈ lineage.bindings ↔
    binding = ⟨rootScopeRun rootState.runId, rootState⟩ ∨ .bound binding ∈ childRuns
  nested : ∀ binding, .bound binding ∈ childRuns →
    ∃ activation, binding.parentActivation = .ok (some activation)
  evidence : (childRuns.map (·.scopeRun)).Nodup

theorem lineageStates_admitted {rootState : GraphRunState} {childRuns : List ScopedRunEvidence}
    {lineage : PlannedLineage} (admitted : lineageStates rootState childRuns = .ok lineage) :
    AdmittedLineage rootState childRuns lineage := by
  simp only [lineageStates, bind_eq_ok, exists_unit, raiseIf_eq_ok, not_not, checkAll_eq_ok,
    pure_eq_ok, Except.ok.injEq] at admitted
  obtain ⟨-, distinct, each, rfl⟩ := admitted
  have nestedRuns : ∀ binding, .bound binding ∈ childRuns → binding.scopeRun.scope ≠ [] ∧
      ∃ activation, binding.parentActivation = .ok (some activation) :=
    fun binding member => requireChildRun_bound (each _ member)
  have members : ∀ binding, binding ∈ List.insertionSort
      (fun a b : ScopedStateBinding => a.scopeRun ≤ b.scopeRun)
      (⟨rootScopeRun rootState.runId, rootState⟩ :: stateBindings childRuns) ↔
        binding = ⟨rootScopeRun rootState.runId, rootState⟩ ∨ .bound binding ∈ childRuns := by
    intro binding
    rw [List.mem_insertionSort, List.mem_cons, mem_stateBindings]
  have states : ((stateBindings childRuns).map (·.scopeRun)).Nodup := by
    have sub : ((stateBindings childRuns).map (·.scopeRun)).Sublist
        (childRuns.map (·.scopeRun)) := by
      unfold stateBindings
      clear distinct each nestedRuns members
      induction childRuns with
      | nil => exact .slnil
      | cons evidence rest ih =>
          cases evidence with
          | bound binding =>
              simp only [List.filterMap_cons, ScopedRunEvidence.binding?, List.map_cons]
              exact ih.cons_cons _
          | uncreated scopeRun =>
              simp only [List.filterMap_cons, ScopedRunEvidence.binding?, List.map_cons]
              exact ih.cons _
    exact distinct.sublist sub
  refine ⟨?_, (members _).mpr (.inl rfl), members, fun binding member => (nestedRuns _ member).2,
    distinct⟩
  have same := (List.perm_insertionSort (fun a b : ScopedStateBinding => a.scopeRun ≤ b.scopeRun)
    (⟨rootScopeRun rootState.runId, rootState⟩ :: stateBindings childRuns)).map (·.scopeRun)
  refine same.nodup_iff.mpr (List.nodup_cons.mpr ⟨?_, states⟩)
  intro member
  obtain ⟨binding, inside, sameScope⟩ := List.mem_map.mp member
  refine (nestedRuns binding (mem_stateBindings.mp inside)).1 ?_
  rw [sameScope]
  rfl

end MoteKernel
