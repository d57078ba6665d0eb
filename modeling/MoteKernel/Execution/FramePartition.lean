import MoteKernel.Execution.Lineage

/-!
# The partition of the frames of a family

`_frames_for_owner` and `_merge_frames` of `execution/family_driver.py`. A
continuation keeps one index for the whole family; its runs each own the part of
their scope, and a child boundary belongs to the run that opened the child.
-/

namespace MoteKernel
open Checked Canonical

variable {ν σ : Type}

/-! ## Splitting and merging -/

/-- `bindings_by_scope.get(scope_run)`: the first binding of a scope. -/
def bindingForScope (bindings : List ScopedRunEvidence) (scopeRun : ScopeRunCoordinate) :
    Option ScopedStateBinding :=
  (stateBindings bindings).find? (fun binding => binding.scopeRun = scopeRun)

/-- The loop over `frames.child_boundaries` of `_frames_for_owner`. -/
def ownedBoundaries (bindings : List ScopedRunEvidence) (owner : ScopeRunCoordinate) :
    List (ConfirmedChildBoundary ν) → Except ExecutionError (List (ConfirmedChildBoundary ν))
  | [] => return []
  | record :: records => do
      let binding ← orRaise ⟨.snapshotMismatch, "continuation has no child binding at " ++
        record.coordinate.childScopeRun.repr⟩
        (bindingForScope bindings record.coordinate.childScopeRun)
      let parentActivation ← binding.parentActivation
      let owned ← ownedBoundaries bindings owner records
      return if parentActivation.map (·.scopeRun) = some owner then record :: owned else owned

/-- `_frames_for_owner`. -/
def framesForOwner (frames : ScopedFrameIndex ν σ) (bindings : List ScopedRunEvidence)
    (owner : ScopeRunCoordinate) : Except ExecutionError (ScopedFrameIndex ν σ) := do
  let childBoundaries ← ownedBoundaries bindings owner frames.childBoundaries
  return { graphInputs := frames.graphInputs.filter
             (fun record => record.coordinate.scopeRun = owner)
           publications := frames.publications.filter
             (fun record => record.coordinate.activation.scopeRun = owner)
           resumeInputs := frames.resumeInputs.filter
             (fun record => record.coordinate.activation.scopeRun = owner)
           childBoundaries := childBoundaries }

/-- One index of `_merge_frames`. -/
def mergeIndex (merged index : ScopedFrameIndex ν σ) :
    Except ExecutionError (ScopedFrameIndex ν σ) := do
  let merged ← index.graphInputs.foldlM ScopedFrameIndex.addGraphInput merged
  let merged ← index.publications.foldlM ScopedFrameIndex.addPublication merged
  let merged ← index.resumeInputs.foldlM ScopedFrameIndex.addResumeInput merged
  index.childBoundaries.foldlM ScopedFrameIndex.addChildBoundary merged

/-- `_merge_frames`. -/
def mergeFrames (indexes : List (ScopedFrameIndex ν σ)) :
    Except ExecutionError (ScopedFrameIndex ν σ) :=
  indexes.foldlM mergeIndex {}

/-! ## Records of an index -/

/-- `FrameRecord`. -/
inductive FrameRecord (ν σ : Type) where
  | graphInput (record : AdmittedGraphInput ν)
  | publication (record : ConfirmedPublication ν)
  | resumeInput (record : AdmittedResumeInput ν σ)
  | childBoundary (record : ConfirmedChildBoundary ν)
  deriving DecidableEq, Repr

namespace ScopedFrameIndex

/-- Every record of an index. -/
def records (index : ScopedFrameIndex ν σ) : List (FrameRecord ν σ) :=
  index.graphInputs.map .graphInput ++ index.publications.map .publication ++
    index.resumeInputs.map .resumeInput ++ index.childBoundaries.map .childBoundary

/-- The insertion of one record in its own partition. -/
def add (index : ScopedFrameIndex ν σ) :
    FrameRecord ν σ → Except ExecutionError (ScopedFrameIndex ν σ)
  | .graphInput record => index.addGraphInput record
  | .publication record => index.addPublication record
  | .resumeInput record => index.addResumeInput record
  | .childBoundary record => index.addChildBoundary record

/-- Every partition is strictly increasing in its coordinate. -/
structure Ordered (index : ScopedFrameIndex ν σ) : Prop where
  graphInputs : (index.graphInputs.map (·.coordinate)).Pairwise (· < ·)
  publications : (index.publications.map (·.coordinate)).Pairwise (· < ·)
  resumeInputs : (index.resumeInputs.map (·.coordinate)).Pairwise (· < ·)
  childBoundaries : (index.childBoundaries.map (·.coordinate)).Pairwise (· < ·)

end ScopedFrameIndex

/-- The record belongs to a run of the family: a frame of a bound scope, or the boundary of a
bound child. -/
def FrameRecord.BoundIn (lineage : PlannedLineage) (childRuns : List ScopedRunEvidence) :
    FrameRecord ν σ → Prop
  | .graphInput record => record.coordinate.scopeRun ∈ lineage.bindings.map (·.scopeRun)
  | .publication record =>
      record.coordinate.activation.scopeRun ∈ lineage.bindings.map (·.scopeRun)
  | .resumeInput record =>
      record.coordinate.activation.scopeRun ∈ lineage.bindings.map (·.scopeRun)
  | .childBoundary record =>
      record.coordinate.childScopeRun ∈ (stateBindings childRuns).map (·.scopeRun)

/-- The indexes that insertions of records of the family build. -/
inductive BuiltOver (lineage : PlannedLineage) (childRuns : List ScopedRunEvidence) :
    ScopedFrameIndex ν σ → Prop where
  | empty : BuiltOver lineage childRuns {}
  | add {index next : ScopedFrameIndex ν σ} {record : FrameRecord ν σ}
      (built : BuiltOver lineage childRuns index) (bound : record.BoundIn lineage childRuns)
      (added : index.add record = .ok next) : BuiltOver lineage childRuns next

/-- The run that opened each nested run is itself bound: `plan_fences` looks its state up. -/
def ParentsBound (lineage : PlannedLineage) : Prop :=
  ∀ binding ∈ lineage.bindings, ∀ activation,
    binding.parentActivation = .ok (some activation) →
    activation.scopeRun ∈ lineage.bindings.map (·.scopeRun)

/-! ## Insertion in order -/

section Insertion

variable {ρ κ : Type} [LinearOrder κ] {coordinate : ρ → κ} {message : String}

theorem insertFrameRecord_ordered {records updated : List ρ} {record : ρ}
    (ordered : (records.map coordinate).Pairwise (· < ·))
    (inserted : insertFrameRecord coordinate message records record = .ok updated) :
    (updated.map coordinate).Pairwise (· < ·) := by
  obtain ⟨fresh, rfl⟩ := (insertFrameRecord_eq_ok _ _ _).mp inserted
  have : Std.Total (fun a b : ρ => coordinate a ≤ coordinate b) :=
    ⟨fun a b => le_total (coordinate a) (coordinate b)⟩
  have : IsTrans ρ (fun a b => coordinate a ≤ coordinate b) := ⟨fun a b c => le_trans⟩
  have weak : records.Pairwise (fun a b => coordinate a ≤ coordinate b) :=
    (List.pairwise_map.mp ordered).imp le_of_lt
  have sortedAfter := weak.orderedInsert record
  have distinct : ((records.orderedInsert (fun a b => coordinate a ≤ coordinate b) record).map
      coordinate).Nodup := by
    refine ((List.perm_orderedInsert _ record records).map coordinate).nodup_iff.mpr ?_
    rw [List.map_cons, List.nodup_cons]
    refine ⟨?_, nodup_of_strict ordered⟩
    intro member
    obtain ⟨existing, inside, same⟩ := List.mem_map.mp member
    exact fresh existing inside same
  have le : ((records.orderedInsert (fun a b => coordinate a ≤ coordinate b) record).map
      coordinate).Pairwise (· ≤ ·) := List.pairwise_map.mpr sortedAfter
  exact (le.and distinct).imp (fun h => lt_of_le_of_ne h.1 h.2)

/-- Records with distinct coordinates are all inserted, in whatever order they come. -/
theorem foldlM_insertFrameRecord {records acc : List ρ}
    (distinct : ((acc ++ records).map coordinate).Nodup)
    (ordered : (acc.map coordinate).Pairwise (· < ·)) :
    ∃ merged, records.foldlM (insertFrameRecord coordinate message) acc = .ok merged ∧
      merged.Perm (acc ++ records) ∧ (merged.map coordinate).Pairwise (· < ·) := by
  induction records generalizing acc with
  | nil => exact ⟨acc, rfl, by rw [List.append_nil], ordered⟩
  | cons record records ih =>
      have fresh : ∀ existing ∈ acc, coordinate existing ≠ coordinate record := by
        rw [List.map_append, List.map_cons] at distinct
        intro existing inside same
        refine List.disjoint_of_nodup_append distinct (List.mem_map_of_mem inside) ?_
        rw [same]
        exact List.mem_cons_self
      set next := acc.orderedInsert (fun a b => coordinate a ≤ coordinate b) record
      have inserted : insertFrameRecord coordinate message acc record = .ok next :=
        (insertFrameRecord_eq_ok acc _ record).mpr ⟨fresh, rfl⟩
      have shuffled : (next ++ records).Perm (acc ++ record :: records) := by
        have moved := (insertFrameRecord_perm inserted).append_right records
        rwa [List.append_assoc, List.singleton_append] at moved
      obtain ⟨merged, folded, perm, strict⟩ := ih
        ((shuffled.map coordinate).nodup_iff.mpr distinct)
        (insertFrameRecord_ordered ordered inserted)
      refine ⟨merged, ?_, perm.trans shuffled, strict⟩
      rw [List.foldlM_cons, inserted]
      exact folded

/-- A partition in order is the only result of inserting its records in another order. -/
theorem foldlM_insertFrameRecord_eq {records target : List ρ} (perm : records.Perm target)
    (ordered : (target.map coordinate).Pairwise (· < ·)) :
    records.foldlM (insertFrameRecord coordinate message) [] = .ok target := by
  have distinct : (([] ++ records).map coordinate).Nodup :=
    (perm.map coordinate).nodup_iff.mpr (nodup_of_strict ordered)
  obtain ⟨merged, folded, same, strict⟩ :
      ∃ merged, records.foldlM (insertFrameRecord coordinate message) [] = .ok merged ∧
        merged.Perm ([] ++ records) ∧ (merged.map coordinate).Pairwise (· < ·) :=
    foldlM_insertFrameRecord distinct List.Pairwise.nil
  have equal : merged = target := by
    refine (same.trans perm).eq_of_pairwise ?_ (List.pairwise_map.mp strict)
      (List.pairwise_map.mp ordered)
    intro a b _ _ less greater
    exact absurd greater (lt_asymm less)
  rw [folded, equal]

end Insertion

/-! ## Merging by partition -/

/-- Insertions into one partition of an index are insertions into a list. -/
theorem foldlM_add {ρ κ : Type} [LinearOrder κ] (coordinate : ρ → κ) (message : String)
    (put : ScopedFrameIndex ν σ → List ρ → ScopedFrameIndex ν σ)
    (part : ScopedFrameIndex ν σ → List ρ)
    (add : ScopedFrameIndex ν σ → ρ → Except ExecutionError (ScopedFrameIndex ν σ))
    (addEq : ∀ index record, add index record =
      (insertFrameRecord coordinate message (part index) record).map (put index))
    (partPut : ∀ index list, part (put index list) = list)
    (putPut : ∀ index list list', put (put index list) list' = put index list')
    (putPart : ∀ index, put index (part index) = index)
    (records : List ρ) (index : ScopedFrameIndex ν σ) {merged : List ρ}
    (folded : records.foldlM (insertFrameRecord coordinate message) (part index) = .ok merged) :
    records.foldlM add index = .ok (put index merged) := by
  induction records generalizing index with
  | nil =>
      cases folded
      rw [List.foldlM_nil, putPart]
      rfl
  | cons record records ih =>
      rw [List.foldlM_cons, bind_eq_ok] at folded
      obtain ⟨next, inserted, rest⟩ := folded
      rw [List.foldlM_cons, addEq, inserted]
      have tail := ih (put index next) (by rwa [partPut])
      rwa [putPut] at tail

/-- What each partition of an index becomes when the records of another are inserted. -/
structure MergesTo (merged index result : ScopedFrameIndex ν σ) : Prop where
  graphInputs : index.graphInputs.foldlM (insertFrameRecord (·.coordinate)
    "graph input coordinate was admitted more than once") merged.graphInputs =
      .ok result.graphInputs
  publications : index.publications.foldlM (insertFrameRecord (·.coordinate)
    "stable activation was published more than once") merged.publications =
      .ok result.publications
  resumeInputs : index.resumeInputs.foldlM (insertFrameRecord (·.coordinate)
    "resume input coordinate was admitted more than once") merged.resumeInputs =
      .ok result.resumeInputs
  childBoundaries : index.childBoundaries.foldlM (insertFrameRecord (·.coordinate)
    "child boundary coordinate was confirmed more than once") merged.childBoundaries =
      .ok result.childBoundaries

theorem ScopedFrameIndex.ext_iff {index other : ScopedFrameIndex ν σ} :
    index = other ↔ index.graphInputs = other.graphInputs ∧
      index.publications = other.publications ∧ index.resumeInputs = other.resumeInputs ∧
      index.childBoundaries = other.childBoundaries := by
  cases index
  cases other
  simp

theorem mergeIndex_eq_ok {merged index result : ScopedFrameIndex ν σ}
    (merges : MergesTo merged index result) : mergeIndex merged index = .ok result := by
  have inputs := foldlM_add (AdmittedGraphInput.coordinate (ν := ν)) _
    (fun frames list => { frames with graphInputs := list }) (·.graphInputs)
    ScopedFrameIndex.addGraphInput (fun _ _ => rfl) (fun _ _ => rfl) (fun _ _ _ => rfl)
    (fun _ => rfl) _ merged merges.graphInputs
  have publications := foldlM_add (ConfirmedPublication.coordinate (ν := ν)) _
    (fun frames list => { frames with publications := list }) (·.publications)
    ScopedFrameIndex.addPublication (fun _ _ => rfl) (fun _ _ => rfl) (fun _ _ _ => rfl)
    (fun _ => rfl) _ { merged with graphInputs := result.graphInputs } merges.publications
  have resumes := foldlM_add (AdmittedResumeInput.coordinate (ν := ν) (σ := σ)) _
    (fun frames list => { frames with resumeInputs := list }) (·.resumeInputs)
    ScopedFrameIndex.addResumeInput (fun _ _ => rfl) (fun _ _ => rfl) (fun _ _ _ => rfl)
    (fun _ => rfl) _ { merged with
      graphInputs := result.graphInputs
      publications := result.publications } merges.resumeInputs
  have boundaries := foldlM_add (ConfirmedChildBoundary.coordinate (ν := ν)) _
    (fun frames list => { frames with childBoundaries := list }) (·.childBoundaries)
    ScopedFrameIndex.addChildBoundary (fun _ _ => rfl) (fun _ _ => rfl) (fun _ _ _ => rfl)
    (fun _ => rfl) _ { merged with
      graphInputs := result.graphInputs
      publications := result.publications
      resumeInputs := result.resumeInputs } merges.childBoundaries
  unfold mergeIndex
  rw [inputs, ok_bind, publications, ok_bind, resumes, ok_bind, boundaries]

/-- All records of several indexes, partition by partition. -/
def gather (indexes : List (ScopedFrameIndex ν σ)) : ScopedFrameIndex ν σ where
  graphInputs := indexes.flatMap (·.graphInputs)
  publications := indexes.flatMap (·.publications)
  resumeInputs := indexes.flatMap (·.resumeInputs)
  childBoundaries := indexes.flatMap (·.childBoundaries)

/-- A merge inserts the records of all indexes, partition by partition. -/
theorem mergeFrames_eq_ok {indexes : List (ScopedFrameIndex ν σ)}
    {merged result : ScopedFrameIndex ν σ} (merges : MergesTo merged (gather indexes) result) :
    indexes.foldlM mergeIndex merged = .ok result := by
  induction indexes generalizing merged with
  | nil =>
      obtain ⟨inputs, publications, resumes, boundaries⟩ := merges
      simp only [gather, List.flatMap_nil, List.foldlM_nil, pure_eq_ok, Except.ok.injEq]
        at inputs publications resumes boundaries
      rw [List.foldlM_nil, pure_eq_ok, Except.ok.injEq, ScopedFrameIndex.ext_iff]
      exact ⟨inputs, publications, resumes, boundaries⟩
  | cons index indexes ih =>
      obtain ⟨inputs, publications, resumes, boundaries⟩ := merges
      simp only [gather, List.flatMap_cons, List.foldlM_append, bind_eq_ok]
        at inputs publications resumes boundaries
      obtain ⟨inputs', inputsFirst, inputsRest⟩ := inputs
      obtain ⟨publications', publicationsFirst, publicationsRest⟩ := publications
      obtain ⟨resumes', resumesFirst, resumesRest⟩ := resumes
      obtain ⟨boundaries', boundariesFirst, boundariesRest⟩ := boundaries
      have first : mergeIndex merged index =
          .ok ⟨inputs', publications', resumes', boundaries'⟩ :=
        mergeIndex_eq_ok ⟨inputsFirst, publicationsFirst, resumesFirst, boundariesFirst⟩
      rw [List.foldlM_cons, first]
      exact ih ⟨inputsRest, publicationsRest, resumesRest, boundariesRest⟩

/-! ## Indexes over a family -/

section Family

variable {rootState : GraphRunState} {childRuns : List ScopedRunEvidence}
  {lineage : PlannedLineage}

/-- An insertion keeps the order of every partition. -/
theorem ScopedFrameIndex.Ordered.add {index next : ScopedFrameIndex ν σ}
    {record : FrameRecord ν σ} (ordered : index.Ordered) (added : index.add record = .ok next) :
    next.Ordered := by
  cases record with
  | graphInput record =>
      obtain ⟨updated, inserted, same⟩ := (bind_eq_ok _ _ _).mp added
      cases same
      exact { ordered with graphInputs := insertFrameRecord_ordered ordered.graphInputs inserted }
  | publication record =>
      obtain ⟨updated, inserted, same⟩ := (bind_eq_ok _ _ _).mp added
      cases same
      exact { ordered with
        publications := insertFrameRecord_ordered ordered.publications inserted }
  | resumeInput record =>
      obtain ⟨updated, inserted, same⟩ := (bind_eq_ok _ _ _).mp added
      cases same
      exact { ordered with
        resumeInputs := insertFrameRecord_ordered ordered.resumeInputs inserted }
  | childBoundary record =>
      obtain ⟨updated, inserted, same⟩ := (bind_eq_ok _ _ _).mp added
      cases same
      exact { ordered with
        childBoundaries := insertFrameRecord_ordered ordered.childBoundaries inserted }

theorem BuiltOver.ordered {index : ScopedFrameIndex ν σ} (built : BuiltOver lineage childRuns index) :
    index.Ordered := by
  induction built with
  | empty => exact ⟨.nil, .nil, .nil, .nil⟩
  | add built bound added ih => exact ih.add added

/-- The records of an index that grew by one. -/
theorem records_add {index next : ScopedFrameIndex ν σ} {record : FrameRecord ν σ}
    (added : index.add record = .ok next) : next.records.Perm (record :: index.records) := by
  cases record with
  | graphInput record =>
      obtain ⟨updated, inserted, same⟩ := (bind_eq_ok _ _ _).mp added
      cases same
      have grown := ((insertFrameRecord_perm inserted).trans (List.perm_append_singleton _ _)).map
        (FrameRecord.graphInput (ν := ν) (σ := σ))
      have whole := ((grown.append_right (index.publications.map .publication)).append_right
        (index.resumeInputs.map .resumeInput)).append_right
        (index.childBoundaries.map .childBoundary)
      exact whole
  | publication record =>
      obtain ⟨updated, inserted, same⟩ := (bind_eq_ok _ _ _).mp added
      cases same
      have grown := ((insertFrameRecord_perm inserted).trans (List.perm_append_singleton _ _)).map
        (FrameRecord.publication (ν := ν) (σ := σ))
      have front := (grown.append_left (index.graphInputs.map .graphInput)).trans List.perm_middle
      have whole := (front.append_right (index.resumeInputs.map .resumeInput)).append_right
        (index.childBoundaries.map .childBoundary)
      exact whole
  | resumeInput record =>
      obtain ⟨updated, inserted, same⟩ := (bind_eq_ok _ _ _).mp added
      cases same
      have grown := ((insertFrameRecord_perm inserted).trans (List.perm_append_singleton _ _)).map
        (FrameRecord.resumeInput (ν := ν) (σ := σ))
      have front := (grown.append_left (index.graphInputs.map .graphInput ++
        index.publications.map .publication)).trans List.perm_middle
      have whole := front.append_right (index.childBoundaries.map .childBoundary)
      exact whole
  | childBoundary record =>
      obtain ⟨updated, inserted, same⟩ := (bind_eq_ok _ _ _).mp added
      cases same
      have grown := ((insertFrameRecord_perm inserted).trans (List.perm_append_singleton _ _)).map
        (FrameRecord.childBoundary (ν := ν) (σ := σ))
      have whole := (grown.append_left (index.graphInputs.map .graphInput ++
        index.publications.map .publication ++ index.resumeInputs.map .resumeInput)).trans
        List.perm_middle
      exact whole

theorem BuiltOver.bound {index : ScopedFrameIndex ν σ} (built : BuiltOver lineage childRuns index) :
    ∀ record ∈ index.records, record.BoundIn lineage childRuns := by
  induction built with
  | empty =>
      intro record member
      cases member
  | add built bound added ih =>
      intro record member
      rcases List.mem_cons.mp ((records_add added).mem_iff.mp member) with rfl | earlier
      · exact bound
      · exact ih record earlier

/-! ## The owner of a record -/

/-- The scope a child boundary belongs to: that of the activation that opened the child. -/
def boundaryOwner (bindings : List ScopedRunEvidence) (record : ConfirmedChildBoundary ν) :
    Option ScopeRunCoordinate :=
  match bindingForScope bindings record.coordinate.childScopeRun with
  | none => none
  | some binding =>
      match binding.parentActivation with
      | .ok (some activation) => some activation.scopeRun
      | _ => none

/-- The scope that owns a record. -/
def FrameRecord.owner (bindings : List ScopedRunEvidence) :
    FrameRecord ν σ → Option ScopeRunCoordinate
  | .graphInput record => some record.coordinate.scopeRun
  | .publication record => some record.coordinate.activation.scopeRun
  | .resumeInput record => some record.coordinate.activation.scopeRun
  | .childBoundary record => boundaryOwner bindings record

/-- The boundary of a bound child has its binding and the activation that opened it. -/
theorem boundary_bound (admitted : AdmittedLineage rootState childRuns lineage)
    {record : ConfirmedChildBoundary ν}
    (bound : record.coordinate.childScopeRun ∈ (stateBindings childRuns).map (·.scopeRun)) :
    ∃ binding activation, bindingForScope childRuns record.coordinate.childScopeRun = some binding ∧
      .bound binding ∈ childRuns ∧ binding.parentActivation = .ok (some activation) ∧
      boundaryOwner childRuns record = some activation.scopeRun := by
  obtain ⟨other, otherMember, sameScope⟩ := List.mem_map.mp bound
  cases found : bindingForScope childRuns record.coordinate.childScopeRun with
  | none =>
      have absent := List.find?_eq_none.mp found other otherMember
      simp [sameScope] at absent
  | some binding =>
      have member := mem_stateBindings.mp (List.mem_of_find?_eq_some found)
      obtain ⟨activation, opened⟩ := admitted.nested binding member
      refine ⟨binding, activation, rfl, member, opened, ?_⟩
      simp only [boundaryOwner, found, opened]

/-- The boundary loop keeps the boundaries of the owner's children, in order. -/
theorem ownedBoundaries_eq_ok (admitted : AdmittedLineage rootState childRuns lineage)
    (owner : ScopeRunCoordinate) {records : List (ConfirmedChildBoundary ν)}
    (bound : ∀ record ∈ records,
      record.coordinate.childScopeRun ∈ (stateBindings childRuns).map (·.scopeRun)) :
    ownedBoundaries childRuns owner records =
      .ok (records.filter (fun record => boundaryOwner childRuns record = some owner)) := by
  induction records with
  | nil => rfl
  | cons record records ih =>
      obtain ⟨binding, activation, found, -, opened, owned⟩ :=
        boundary_bound admitted (bound record List.mem_cons_self)
      have rest := ih (fun other member => bound other (List.mem_cons_of_mem _ member))
      unfold ownedBoundaries
      rw [found, rest, List.filter_cons, owned]
      simp only [orRaise, opened, ok_bind, pure_eq_ok, Option.map_some]
      by_cases own : activation.scopeRun = owner
      · simp [own]
      · simp [own]

/-- The part of an index that a scope owns. -/
def partOf (frames : ScopedFrameIndex ν σ) (bindings : List ScopedRunEvidence)
    (owner : ScopeRunCoordinate) : ScopedFrameIndex ν σ where
  graphInputs := frames.graphInputs.filter (fun record => record.coordinate.scopeRun = owner)
  publications := frames.publications.filter
    (fun record => record.coordinate.activation.scopeRun = owner)
  resumeInputs := frames.resumeInputs.filter
    (fun record => record.coordinate.activation.scopeRun = owner)
  childBoundaries := frames.childBoundaries.filter
    (fun record => boundaryOwner bindings record = some owner)

theorem mem_records {index : ScopedFrameIndex ν σ} {record : FrameRecord ν σ} :
    record ∈ index.records ↔ match record with
      | .graphInput record => record ∈ index.graphInputs
      | .publication record => record ∈ index.publications
      | .resumeInput record => record ∈ index.resumeInputs
      | .childBoundary record => record ∈ index.childBoundaries := by
  cases record <;> simp [ScopedFrameIndex.records]

theorem mem_records_partOf {frames : ScopedFrameIndex ν σ} {bindings : List ScopedRunEvidence}
    {owner : ScopeRunCoordinate} {record : FrameRecord ν σ} :
    record ∈ (partOf frames bindings owner).records ↔
      record ∈ frames.records ∧ record.owner bindings = some owner := by
  cases record <;> simp [mem_records, partOf, FrameRecord.owner]

theorem framesForOwner_eq_ok (admitted : AdmittedLineage rootState childRuns lineage)
    {frames : ScopedFrameIndex ν σ} (built : BuiltOver lineage childRuns frames)
    (owner : ScopeRunCoordinate) :
    framesForOwner frames childRuns owner = .ok (partOf frames childRuns owner) := by
  have bound : ∀ record ∈ frames.childBoundaries,
      record.coordinate.childScopeRun ∈ (stateBindings childRuns).map (·.scopeRun) :=
    fun record member => built.bound (.childBoundary record) (mem_records.mpr member)
  have boundaries := ownedBoundaries_eq_ok admitted owner bound
  unfold framesForOwner
  rw [boundaries]
  rfl

/-- Every record of an index over a family is owned by a bound scope. -/
theorem BuiltOver.owned (admitted : AdmittedLineage rootState childRuns lineage)
    (parents : ParentsBound lineage) {frames : ScopedFrameIndex ν σ}
    (built : BuiltOver lineage childRuns frames) {record : FrameRecord ν σ}
    (member : record ∈ frames.records) :
    ∃ owner ∈ lineage.bindings.map (·.scopeRun), record.owner childRuns = some owner := by
  have bound := built.bound record member
  cases record with
  | graphInput record => exact ⟨_, bound, rfl⟩
  | publication record => exact ⟨_, bound, rfl⟩
  | resumeInput record => exact ⟨_, bound, rfl⟩
  | childBoundary record =>
      obtain ⟨binding, activation, -, inside, opened, owned⟩ := boundary_bound admitted bound
      exact ⟨_, parents binding ((admitted.bindings binding).mpr (.inr inside)) activation opened,
        owned⟩

/-- The parts of the owners, in any order, merge to the index. -/
theorem mergeFrames_parts (admitted : AdmittedLineage rootState childRuns lineage)
    (parents : ParentsBound lineage) {frames : ScopedFrameIndex ν σ}
    (built : BuiltOver lineage childRuns frames) {owners : List ScopeRunCoordinate}
    (all : owners.Perm (lineage.bindings.map (·.scopeRun))) :
    mergeFrames (owners.map (partOf frames childRuns)) = .ok frames := by
  have distinct : owners.Nodup := all.nodup_iff.mpr admitted.distinct
  have ordered := built.ordered
  have bound : ∀ record ∈ frames.records, ∃ owner ∈ owners,
      record.owner childRuns = some owner := by
    intro record member
    obtain ⟨owner, inside, own⟩ := built.owned admitted parents member
    exact ⟨owner, all.mem_iff.mpr inside, own⟩
  apply mergeFrames_eq_ok
  refine ⟨?_, ?_, ?_, ?_⟩
  · refine foldlM_insertFrameRecord_eq ?_ ordered.graphInputs
    simp only [gather, List.flatMap_map]
    refine parts_perm (fun record : AdmittedGraphInput ν => record.coordinate.scopeRun) distinct
      (fun record member => ?_)
    obtain ⟨owner, inside, own⟩ := bound (.graphInput record) (mem_records.mpr member)
    exact Option.some.inj own ▸ inside
  · refine foldlM_insertFrameRecord_eq ?_ ordered.publications
    simp only [gather, List.flatMap_map]
    refine parts_perm (fun record : ConfirmedPublication ν =>
      record.coordinate.activation.scopeRun) distinct (fun record member => ?_)
    obtain ⟨owner, inside, own⟩ := bound (.publication record) (mem_records.mpr member)
    exact Option.some.inj own ▸ inside
  · refine foldlM_insertFrameRecord_eq ?_ ordered.resumeInputs
    simp only [gather, List.flatMap_map]
    refine parts_perm (fun record : AdmittedResumeInput ν σ =>
      record.coordinate.activation.scopeRun) distinct (fun record member => ?_)
    obtain ⟨owner, inside, own⟩ := bound (.resumeInput record) (mem_records.mpr member)
    exact Option.some.inj own ▸ inside
  · refine foldlM_insertFrameRecord_eq ?_ ordered.childBoundaries
    have owned : ∀ record ∈ frames.childBoundaries,
        boundaryOwner childRuns record ∈ owners.map some := by
      intro record member
      obtain ⟨owner, inside, own⟩ := bound (.childBoundary record) (mem_records.mpr member)
      exact List.mem_map.mpr ⟨owner, inside, own.symm⟩
    have parts := parts_perm (boundaryOwner childRuns)
      (distinct.map (Option.some_injective _)) owned
    simp only [List.flatMap_map] at parts
    simp only [gather, List.flatMap_map]
    exact parts

end Family

/-- An index of inserted records. -/
theorem BuiltOver.addAll {lineage : PlannedLineage} {childRuns : List ScopedRunEvidence}
    {records : List (FrameRecord ν σ)} {next : ScopedFrameIndex ν σ}
    (bound : ∀ record ∈ records, record.BoundIn lineage childRuns)
    (added : records.foldlM ScopedFrameIndex.add {} = .ok next) :
    BuiltOver lineage childRuns next :=
  foldlM_preserves
    (fun _ record _ member inserted built => .add built (bound record member) inserted) added .empty

/-! ## The result -/

/-- The partition of a family's frames loses nothing. Every scope has its part, every record is in
the part of exactly one bound scope, the parts merge back to the same index in whatever order
they are folded, the index is strictly ordered, and inserting a record keeps every earlier one:
a coordinate that is present is refused. -/
theorem frame_partition_lossless (rootState : GraphRunState) (childRuns : List ScopedRunEvidence)
    (lineage : PlannedLineage) (admitted : lineageStates rootState childRuns = .ok lineage)
    (parents : ParentsBound lineage) (frames : ScopedFrameIndex ν σ)
    (built : BuiltOver lineage childRuns frames) :
    (∀ owners : List ScopeRunCoordinate, owners.Perm (lineage.bindings.map (·.scopeRun)) →
      ∃ parts, owners.mapM (framesForOwner frames childRuns) = .ok parts ∧
        mergeFrames parts = .ok frames) ∧
    (∀ record ∈ frames.records, ∃! owner, owner ∈ lineage.bindings.map (·.scopeRun) ∧
      ∃ part, framesForOwner frames childRuns owner = .ok part ∧ record ∈ part.records) ∧
    (∀ owner part, framesForOwner frames childRuns owner = .ok part →
      part.records ⊆ frames.records) ∧
    frames.Ordered ∧
    (∀ (record : FrameRecord ν σ) (next : ScopedFrameIndex ν σ), frames.add record = .ok next →
      next.records.Perm (record :: frames.records) ∧ next.Ordered) ∧
    (∀ {ρ κ : Type} [LinearOrder κ] (coordinate : ρ → κ) (message : String) (records : List ρ)
      (record existing : ρ), existing ∈ records → coordinate existing = coordinate record →
      insertFrameRecord coordinate message records record =
        .error ⟨.graphValuePublication, message⟩) := by
  have lineageFacts := lineageStates_admitted admitted
  have parts := framesForOwner_eq_ok lineageFacts built
  refine ⟨?_, ?_, ?_, built.ordered, ?_, ?_⟩
  · intro owners all
    refine ⟨owners.map (partOf frames childRuns), ?_,
      mergeFrames_parts lineageFacts parents built all⟩
    refine (mapM_eq_ok _ _ _).mpr (List.forall₂_map_right_iff.mpr ?_)
    exact List.forall₂_same.mpr (fun owner _ => parts owner)
  · intro record member
    obtain ⟨owner, inside, own⟩ := built.owned lineageFacts parents member
    refine ⟨owner, ⟨inside, _, parts owner, mem_records_partOf.mpr ⟨member, own⟩⟩, ?_⟩
    rintro other ⟨-, part, split, inPart⟩
    rw [parts other] at split
    cases split
    have owned := (mem_records_partOf.mp inPart).2
    exact Option.some.inj (owned.symm.trans own)
  · intro owner part split record inPart
    rw [parts owner] at split
    cases split
    exact (mem_records_partOf.mp inPart).1
  · intro record next added
    exact ⟨records_add added, built.ordered.add added⟩
  · intro ρ κ _ coordinate message records record existing member same
    unfold insertFrameRecord
    rw [(raiseIf_eq_error _ _ _).mpr ⟨⟨existing, member, same⟩, rfl⟩]
    rfl

/-- The nested run that `startedRun` opens at its node. -/
def nestedRun : ScopedStateBinding :=
  ⟨⟨["node"], childGraphRunId "run" 0 "node"⟩,
    { startedRun with
      runId := childGraphRunId "run" 0 "node"
      parent := some ⟨"run", 0, "node"⟩ }⟩

/-- The boundary of the nested run, which its parent owns. -/
def nestedBoundary : ConfirmedChildBoundary Nat :=
  ⟨⟨nestedRun.scopeRun, ⟨"graph", 1, .graphOutput, 0⟩⟩, ⟨[⟨"out", 7⟩], none⟩⟩

/-- The lineage of both. -/
def nestedLineage : PlannedLineage := ⟨[⟨rootScopeRun "run", startedRun⟩, nestedRun], []⟩

/-- The input of a run, the publication and the resume input of its node. -/
def runInput (scopeRun : ScopeRunCoordinate) : AdmittedGraphInput Nat :=
  ⟨⟨scopeRun, ⟨"graph", 1, .graphInput, 0⟩⟩, ⟨[⟨"in", 1⟩], none⟩⟩

def runPublication (scopeRun : ScopeRunCoordinate) : ConfirmedPublication Nat :=
  ⟨⟨⟨scopeRun, 0, "node"⟩, ⟨"graph", 1, .nodeOutput, 0⟩⟩, ⟨[⟨"out", 2⟩], none⟩, 2, ⟨⟨1, "attempt"⟩⟩⟩

def runResumeInput (scopeRun : ScopeRunCoordinate) : AdmittedResumeInput Nat Unit :=
  ⟨⟨⟨scopeRun, 0, "node"⟩, ⟨"graph", 1, .nodeInput, 0⟩⟩, ⟨[⟨"in", 3⟩], none, none⟩⟩

/-- The parts of the two runs. -/
def rootPart : ScopedFrameIndex Nat Unit :=
  ⟨[runInput (rootScopeRun "run")], [runPublication (rootScopeRun "run")], [], [nestedBoundary]⟩

def nestedPart : ScopedFrameIndex Nat Unit :=
  ⟨[runInput nestedRun.scopeRun], [runPublication nestedRun.scopeRun],
    [runResumeInput nestedRun.scopeRun], []⟩

/-- The index of the family. -/
def familyFrames : ScopedFrameIndex Nat Unit :=
  ⟨rootPart.graphInputs ++ nestedPart.graphInputs, rootPart.publications ++ nestedPart.publications,
    nestedPart.resumeInputs, rootPart.childBoundaries⟩

/-- Records of each kind split into the parts of the two runs, which merge back in either order. -/
theorem nestedBoundary_partition :
    lineageStates startedRun [.bound nestedRun] = .ok nestedLineage ∧
    framesForOwner familyFrames [.bound nestedRun] (rootScopeRun "run") = .ok rootPart ∧
    framesForOwner familyFrames [.bound nestedRun] nestedRun.scopeRun = .ok nestedPart ∧
    mergeFrames [rootPart, nestedPart] = .ok familyFrames ∧
    mergeFrames [nestedPart, rootPart] = .ok familyFrames ∧ familyFrames.Ordered := by
  have parents : ParentsBound nestedLineage := by
    intro binding member activation opened
    rcases List.mem_cons.mp member with rfl | nested
    · cases opened
    · obtain rfl := List.mem_singleton.mp nested
      have parent : nestedRun.parentActivation = .ok (some ⟨rootScopeRun "run", 0, "node"⟩) := rfl
      rw [parent] at opened
      cases opened
      exact List.mem_cons_self
  have built : BuiltOver nestedLineage [.bound nestedRun] familyFrames := by
    have root : rootScopeRun "run" ∈ nestedLineage.bindings.map (·.scopeRun) := by decide
    have child : nestedRun.scopeRun ∈ nestedLineage.bindings.map (·.scopeRun) := by decide
    have opened : nestedRun.scopeRun ∈ (stateBindings [.bound nestedRun]).map (·.scopeRun) := by
      decide
    have added : (nestedPart.records ++ rootPart.records).foldlM ScopedFrameIndex.add {} =
        .ok familyFrames := by decide +kernel
    refine .addAll ?_ added
    simp only [ScopedFrameIndex.records, nestedPart, rootPart, List.map_cons, List.map_nil,
      List.nil_append, List.cons_append, List.forall_mem_cons]
    exact ⟨child, child, child, root, root, opened, fun _ none => absurd none List.not_mem_nil⟩
  obtain ⟨merge, -, -, ordered, -⟩ :=
    frame_partition_lossless startedRun [.bound nestedRun] nestedLineage rfl parents _ built
  have root : framesForOwner familyFrames [.bound nestedRun] (rootScopeRun "run") =
      .ok rootPart := by
    decide +kernel
  have nested : framesForOwner familyFrames [.bound nestedRun] nestedRun.scopeRun =
      .ok nestedPart := by
    decide +kernel
  refine ⟨rfl, root, nested, ?_, ?_, ordered⟩
  · obtain ⟨parts, split, merged⟩ := merge [rootScopeRun "run", nestedRun.scopeRun] (.refl _)
    simp only [List.mapM_cons, List.mapM_nil, root, nested, ok_bind, pure_eq_ok] at split
    exact Except.ok.inj split ▸ merged
  · obtain ⟨parts, split, merged⟩ := merge [nestedRun.scopeRun, rootScopeRun "run"] (.swap ..)
    simp only [List.mapM_cons, List.mapM_nil, root, nested, ok_bind, pure_eq_ok] at split
    exact Except.ok.inj split ▸ merged
end MoteKernel
