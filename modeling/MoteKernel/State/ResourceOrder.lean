import MoteKernel.State.ResourceRelease

/-!
# Two releases

The snapshot a release leaves is the one in which the remaining participants
acquire in their order, so two accepted releases leave the same snapshot
whichever comes first.
-/

namespace MoteKernel
namespace ResourceReducer
open Checked OrderedQueues

/-- The snapshot the other participants of a snapshot build on their own. -/
def withoutParticipant (snapshot : ResourceSnapshot) (nodeId : GraphNodeId) : ResourceSnapshot :=
  let remaining := (participants snapshot).filter (· ≠ nodeId)
  snapshotOf (snapshot.resources.map (·.resourceId)) (needOf snapshot) remaining
    (stand (needOf snapshot) remaining) []

/-- Who acquires what, in order. -/
def requestPairs (snapshot : ResourceSnapshot) : List (GraphNodeId × List ResourceId) :=
  snapshot.acquisitions.map (fun item => (item.nodeId, item.required))

/-- A validated snapshot is determined by its resources and by who acquires what. -/
theorem validated_unique {s t : ResourceSnapshot}
    (validS : validateResourceSnapshot s = .ok ()) (validT : validateResourceSnapshot t = .ok ())
    (resources : s.resources.map (·.resourceId) = t.resources.map (·.resourceId))
    (pairs : requestPairs s = requestPairs t) : s = t := by
  obtain ⟨requests, shape⟩ := validated_snapshot validS
  obtain ⟨-, replayed⟩ := (validateResourceSnapshot_eq_ok _ _).mp validT
  obtain ⟨shapeS, -⟩ := (validateResourceSnapshot_eq_ok _ _).mp validS
  have own : t.acquisitions.map (fun item => (item.nodeId, item.required)) =
      (participants s).map (fun n => (n, needOf s n)) := by
    have standing : requestPairs s = (participants s).map (fun n => (n, needOf s n)) := by
      simp only [requestPairs, participants, List.map_map]
      refine List.map_congr_left (fun item member => ?_)
      simp [needOf_acquisition shapeS.participants member]
    rw [← standing, pairs]
    rfl
  have stood := replay_snapshotOf requests t.acquisitions own
  rw [resources, replayed] at stood
  rw [Except.ok.inj stood, ← resources]
  exact shape

/-- Someone who heads every queue it needs has been admitted. -/
theorem admitted_of_owns {need : GraphNodeId → List ResourceId}
    {queues : Queues GraphNodeId ResourceId} {nodeId : GraphNodeId}
    (owns : ∀ r ∈ need nodeId, (queues r).head? = some nodeId) :
    (acquisitionOf need queues [] nodeId).admitted = true := by
  have all : held queues [] nodeId (need nodeId) = need nodeId := by
    unfold held
    rw [List.takeWhile_eq_self_iff]
    intro r member
    simpa [holds] using owns r member
  simp [ResourceAcquisition.admitted, acquisitionOf, all]

/-- The first participant of a validated snapshot has everything it needs: no set of participants
waits for one another. -/
theorem first_admitted {snapshot : ResourceSnapshot} {first : ResourceAcquisition}
    {rest : List ResourceAcquisition} (valid : validateResourceSnapshot snapshot = .ok ())
    (acquisitions : snapshot.acquisitions = first :: rest) : first.admitted = true := by
  obtain ⟨-, shape⟩ := validated_snapshot valid
  have standing := congrArg ResourceSnapshot.acquisitions shape
  have order : participants snapshot = first.nodeId :: rest.map (·.nodeId) := by
    rw [participants, acquisitions, List.map_cons]
  simp only [snapshotOf, order, acquisitions, List.map_cons, List.cons.injEq] at standing
  rw [standing.1]
  apply admitted_of_owns
  intro r needed
  exact head_stand_first needed

/-- Two admitted participants share no resource. -/
theorem admitted_disjoint {snapshot : ResourceSnapshot} {a b : ResourceAcquisition}
    (valid : validateResourceSnapshot snapshot = .ok ()) (memberA : a ∈ snapshot.acquisitions)
    (memberB : b ∈ snapshot.acquisitions) (admittedA : a.admitted = true)
    (admittedB : b.admitted = true) {r : ResourceId} (neededA : r ∈ a.required)
    (neededB : r ∈ b.required) : a.nodeId = b.nodeId := by
  obtain ⟨shape, -⟩ := (validateResourceSnapshot_eq_ok _ _).mp valid
  rw [← needOf_acquisition shape.participants memberA] at neededA
  rw [← needOf_acquisition shape.participants memberB] at neededB
  have headA := admitted_heads valid memberA admittedA r neededA
  have headB := admitted_heads valid memberB admittedB r neededB
  exact Option.some.inj (headA.symm.trans headB)

/-- A departure and the promotions it causes leave every other head in place. -/
theorem head_releasedQueues {need : GraphNodeId → List ResourceId}
    {queues : Queues GraphNodeId ResourceId} {nodeId other : GraphNodeId} {r : ResourceId}
    (different : other ≠ nodeId) (head : (queues r).head? = some other) :
    (releasedQueues need queues nodeId r).head? = some other := by
  have left : (leave queues nodeId r).head? = some other := by
    cases queue : queues r with
    | nil => simp [queue] at head
    | cons first rest =>
        obtain rfl : first = other := by simpa [queue] using head
        simp [leave, queue, different]
  have visits : ∀ (moves : List (GraphNodeId × List ResourceId))
      (start : Queues GraphNodeId ResourceId), (start r).head? = some other →
      ((moves.foldl (fun queues move => visit queues move.1 move.2) start) r).head? =
        some other := by
    intro moves
    induction moves with
    | nil => exact fun _ here => here
    | cons move moves ih => exact fun start here => ih _ (head_visit_of_head here)
  exact visits _ _ left

section Release

variable {snapshot result : ResourceSnapshot} {nodeId : GraphNodeId}

/-- What an accepted release returns. -/
theorem release_result
    (reduced : reduceResources snapshot (.releaseResources nodeId) = .ok result) :
    ∃ acquisition ∈ snapshot.acquisitions, acquisition.nodeId = nodeId ∧
      acquisition.admitted = true ∧ validateResourceSnapshot snapshot = .ok () ∧
      validateResourceSnapshot result = .ok () ∧
      result = withoutParticipant snapshot nodeId ∧
      result.resources.map (·.resourceId) = snapshot.resources.map (·.resourceId) ∧
      requestPairs result =
        (snapshot.acquisitions.filter (fun item => item.nodeId ≠ nodeId)).map
          (fun item => (item.nodeId, item.required)) := by
  obtain ⟨valid, applied, resultValid⟩ := (reduceResources_eq_ok _ _ _).mp reduced
  have released := applied
  simp only [applyCommand, bind_unit_eq_ok, release_eq_ok] at released
  obtain ⟨-, acquisition, found, admitted, -⟩ := released
  have member := List.mem_of_find?_eq_some found
  obtain rfl : acquisition.nodeId = nodeId := by simpa using List.find?_some found
  obtain ⟨requests, -⟩ := validated_snapshot valid
  obtain ⟨standing, settled⟩ := release_standing valid member admitted
  obtain ⟨other, otherApplied, pairs, -⟩ := release_admitted valid member admitted
  obtain rfl := Except.ok.inj (applied.symm.trans otherApplied)
  have shape := Except.ok.inj (applied.symm.trans standing)
  have remaining := requests.sublist
    (List.filter_sublist (l := participants snapshot) (p := (· ≠ acquisition.nodeId)))
  have stood : releasedQueues (needOf snapshot)
      (stand (needOf snapshot) (participants snapshot)) acquisition.nodeId =
      stand (needOf snapshot) ((participants snapshot).filter (· ≠ acquisition.nodeId)) := by
    rw [shape, validateResourceSnapshot_snapshotOf remaining settled] at resultValid
    exact resultValid
  refine ⟨acquisition, member, rfl, admitted, valid, resultValid, ?_, ?_, pairs⟩
  · rw [shape, stood]
    rfl
  · rw [shape, snapshotOf_resourceIds]

/-- Another admitted participant is still admitted after the release. -/
theorem release_keeps_admitted
    (reduced : reduceResources snapshot (.releaseResources nodeId) = .ok result)
    {other : ResourceAcquisition} (member : other ∈ snapshot.acquisitions)
    (admitted : other.admitted = true) (different : other.nodeId ≠ nodeId) :
    ∃ kept ∈ result.acquisitions, kept.nodeId = other.nodeId ∧ kept.admitted = true := by
  obtain ⟨acquisition, own, rfl, ownAdmitted, valid, -, -, -, -⟩ := release_result reduced
  obtain ⟨-, applied, -⟩ := (reduceResources_eq_ok _ _ _).mp reduced
  obtain ⟨standing, -⟩ := release_standing valid own ownAdmitted
  rw [Except.ok.inj (applied.symm.trans standing)]
  have inside : other.nodeId ∈ (participants snapshot).filter (· ≠ acquisition.nodeId) :=
    List.mem_filter.mpr ⟨List.mem_map_of_mem member, by simpa using different⟩
  refine ⟨_, List.mem_map_of_mem inside, rfl, admitted_of_owns (fun r needed => ?_)⟩
  exact head_releasedQueues different (admitted_heads valid member admitted r needed)

end Release

/-- Two accepted releases, each in order after the other, leave the same snapshot. -/
theorem releases_commute {snapshot left right : ResourceSnapshot} {a b : GraphNodeId}
    (different : a ≠ b)
    (releaseA : reduceResources snapshot (.releaseResources a) = .ok left)
    (releaseB : reduceResources snapshot (.releaseResources b) = .ok right)
    (orderA : PromotionsInOrder (withoutParticipant snapshot a) b)
    (orderB : PromotionsInOrder (withoutParticipant snapshot b) a) :
    ∃ both, reduceResources left (.releaseResources b) = .ok both ∧
      reduceResources right (.releaseResources a) = .ok both := by
  obtain ⟨itemA, memberA, rfl, admittedA, -, validLeft, leftEq, leftIds, leftPairs⟩ :=
    release_result releaseA
  obtain ⟨itemB, memberB, rfl, admittedB, -, validRight, rightEq, rightIds, rightPairs⟩ :=
    release_result releaseB
  obtain ⟨keptB, keptBMember, sameB, keptBAdmitted⟩ :=
    release_keeps_admitted releaseA memberB admittedB different.symm
  obtain ⟨keptA, keptAMember, sameA, keptAAdmitted⟩ :=
    release_keeps_admitted releaseB memberA admittedA different
  rw [← leftEq, ← sameB] at orderA
  rw [← rightEq, ← sameA] at orderB
  obtain ⟨first, firstOk⟩ :=
    (reduceResources_release_ok_iff validLeft keptBMember keptBAdmitted).mpr orderA
  obtain ⟨second, secondOk⟩ :=
    (reduceResources_release_ok_iff validRight keptAMember keptAAdmitted).mpr orderB
  obtain ⟨-, -, -, -, -, validFirst, -, firstIds, firstPairs⟩ := release_result firstOk
  obtain ⟨-, -, -, -, -, validSecond, -, secondIds, secondPairs⟩ := release_result secondOk
  have pairsOf : ∀ (items : List ResourceAcquisition) (n : GraphNodeId),
      (items.filter (fun item => item.nodeId ≠ n)).map (fun item => (item.nodeId, item.required)) =
        (items.map (fun item => (item.nodeId, item.required))).filter (fun pair => pair.1 ≠ n) := by
    intro items n
    rw [List.filter_map]
    rfl
  have same : first = second := by
    refine validated_unique validFirst validSecond ?_ ?_
    · rw [firstIds, leftIds, secondIds, rightIds]
    · simp only [requestPairs] at leftPairs rightPairs firstPairs secondPairs ⊢
      rw [firstPairs, secondPairs, pairsOf, pairsOf, leftPairs, rightPairs, pairsOf, pairsOf,
        List.filter_filter, List.filter_filter, sameA, sameB]
      simp only [Bool.and_comm]
  rw [sameB] at firstOk
  rw [sameA, ← same] at secondOk
  exact ⟨first, firstOk, secondOk⟩

end ResourceReducer
end MoteKernel
