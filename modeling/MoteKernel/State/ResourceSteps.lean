import MoteKernel.State.ResourceReducer

/-!
# What each resource transition does

The guards and the result of every function of the resource reducer, in the form
the proofs use.
-/

namespace MoteKernel
open Checked

namespace ResourceReducer

@[simp] theorem requireIdentity_eq_ok (value kind : String) (u : Unit) :
    requireIdentity value kind = .ok u ↔ isCanonicalIdentity value = true := by
  simp [requireIdentity]

/-! ## Snapshot validation -/

/-- The shape of one lock. -/
structure ValidLock (lock : ResourceLock) : Prop where
  identity : isCanonicalIdentity lock.resourceId = true
  distinct : lock.waiters.Nodup
  owner : ∀ owner ∈ lock.owner, isCanonicalIdentity owner = true ∧ owner ∉ lock.waiters
  waiters : ∀ waiter ∈ lock.waiters, isCanonicalIdentity waiter = true

theorem validateLock_eq_ok (lock : ResourceLock) (u : Unit) :
    validateLock lock = .ok u ↔ ValidLock lock := by
  have owner : validateOwner lock = .ok () ↔
      ∀ owner ∈ lock.owner, isCanonicalIdentity owner = true ∧ owner ∉ lock.waiters := by
    unfold validateOwner
    cases lock.owner <;> simp
  simp only [validateLock, bind_unit_eq_ok, requireIdentity_eq_ok, raiseIf_eq_ok, not_not, owner,
    checkAll_eq_ok]
  exact ⟨fun h => ⟨h.1, h.2.1, h.2.2.1, h.2.2.2⟩,
    fun h => ⟨h.identity, h.distinct, h.owner, h.waiters⟩⟩

/-- The request of one acquisition. -/
structure ValidRequest (resourceIds : List ResourceId) (acquisition : ResourceAcquisition) :
    Prop where
  identity : isCanonicalIdentity acquisition.nodeId = true
  nonempty : acquisition.required ≠ []
  distinct : acquisition.required.Nodup
  known : acquisition.required ⊆ resourceIds
  ordered : inPositionOrder resourceIds acquisition.required = acquisition.required

/-- What an acquisition has taken and waits for, and its locks. -/
structure ValidProgress (resources : List ResourceLock) (acquisition : ResourceAcquisition) :
    Prop where
  taken : acquisition.acquired = acquisition.required.take acquisition.acquired.length
  waiting : acquisition.waitingFor = expectedWaiting acquisition
  owned : ∀ resourceId ∈ acquisition.acquired,
    (lockAt resources resourceId).owner = some acquisition.nodeId
  queued : ∀ resourceId ∈ acquisition.waitingFor,
    acquisition.nodeId ∈ (lockAt resources resourceId).waiters

theorem validateAcquisition_eq_ok (snapshot : ResourceSnapshot)
    (acquisition : ResourceAcquisition) (u : Unit) :
    validateAcquisition snapshot acquisition = .ok u ↔
      ValidRequest (snapshot.resources.map (·.resourceId)) acquisition ∧
      ValidProgress snapshot.resources acquisition := by
  have queued : validateQueued snapshot acquisition = .ok u ↔
      ∀ resourceId ∈ acquisition.waitingFor,
        acquisition.nodeId ∈ (lockAt snapshot.resources resourceId).waiters := by
    unfold validateQueued
    cases acquisition.waitingFor <;> simp
  simp only [validateAcquisition, bind_unit_eq_ok, requireIdentity_eq_ok, raiseIf_eq_ok, ne_eq,
    not_not, checkAll_eq_ok, queued]
  constructor
  · rintro ⟨identity, nonempty, distinct, known, ordered, taken, waiting, owned, queued⟩
    exact ⟨⟨identity, nonempty, distinct, known, ordered⟩, ⟨taken, waiting, owned, queued⟩⟩
  · rintro ⟨request, progress⟩
    exact ⟨request.identity, request.nonempty, request.distinct, request.known, request.ordered,
      progress.taken, progress.waiting, progress.owned, progress.queued⟩

/-- The links from one lock back to the acquisitions. -/
structure ValidLinks (acquisitions : List ResourceAcquisition) (lock : ResourceLock) : Prop where
  owner : ∀ owner ∈ lock.owner, owner ∈ acquisitions.map (·.nodeId)
  waiters : lock.waiters ⊆ acquisitions.map (·.nodeId)
  waiting : ∀ waiter ∈ lock.waiters, waitingForOf acquisitions waiter = some lock.resourceId

theorem validateLinks_eq_ok (snapshot : ResourceSnapshot) (lock : ResourceLock) (u : Unit) :
    validateLinks snapshot lock = .ok u ↔ ValidLinks snapshot.acquisitions lock := by
  simp only [validateLinks, bind_unit_eq_ok, raiseIf_eq_ok, not_exists, not_and, not_not, ne_eq]
  exact ⟨fun h => ⟨h.1, h.2.1, h.2.2⟩, fun h => ⟨h.owner, h.waiters, h.waiting⟩⟩

/-- The facts `_validate_snapshot` checks. -/
structure ValidSnapshot (snapshot : ResourceSnapshot) : Prop where
  resources : (snapshot.resources.map (·.resourceId)).Nodup
  locks : ∀ lock ∈ snapshot.resources, ValidLock lock
  participants : (snapshot.acquisitions.map (·.nodeId)).Nodup
  requests : ∀ acquisition ∈ snapshot.acquisitions,
    ValidRequest (snapshot.resources.map (·.resourceId)) acquisition
  progress : ∀ acquisition ∈ snapshot.acquisitions, ValidProgress snapshot.resources acquisition
  links : ∀ lock ∈ snapshot.resources, ValidLinks snapshot.acquisitions lock

theorem validateSnapshot_eq_ok (snapshot : ResourceSnapshot) (u : Unit) :
    validateSnapshot snapshot = .ok u ↔ ValidSnapshot snapshot := by
  simp only [validateSnapshot, bind_unit_eq_ok, raiseIf_eq_ok, not_not, checkAll_eq_ok,
    validateLock_eq_ok, validateAcquisition_eq_ok, validateLinks_eq_ok]
  constructor
  · rintro ⟨resources, locks, participants, acquisitions, links⟩
    exact ⟨resources, locks, participants, fun a m => (acquisitions a m).1,
      fun a m => (acquisitions a m).2, links⟩
  · intro h
    exact ⟨h.resources, h.locks, h.participants, fun a m => ⟨h.requests a m, h.progress a m⟩,
      h.links⟩

theorem validateResourceSnapshot_eq_ok (snapshot : ResourceSnapshot) (u : Unit) :
    validateResourceSnapshot snapshot = .ok u ↔ ValidSnapshot snapshot ∧
      replay (snapshot.resources.map (·.resourceId)) snapshot.acquisitions = .ok snapshot := by
  simp only [validateResourceSnapshot, bind_eq_ok, exists_unit, validateSnapshot_eq_ok,
    raiseIf_eq_ok, ne_eq, not_not, exists_eq_right]

/-! ## Commands -/

theorem reduceResources_eq_ok (snapshot result : ResourceSnapshot) (command : ResourceCommand) :
    reduceResources snapshot command = .ok result ↔
      validateResourceSnapshot snapshot = .ok () ∧ applyCommand snapshot command = .ok result ∧
      validateResourceSnapshot result = .ok () := by
  simp only [reduceResources, bind_eq_ok, exists_unit, pure_eq_ok, Except.ok.injEq]
  constructor
  · rintro ⟨valid, _, applied, validResult, rfl⟩
    exact ⟨valid, applied, validResult⟩
  · rintro ⟨valid, applied, validResult⟩
    exact ⟨valid, result, applied, validResult, rfl⟩

/-- The snapshot a release returns. -/
def released (snapshot : ResourceSnapshot) (nodeId : GraphNodeId)
    (acquired : List ResourceId) : ResourceSnapshot :=
  let resources := clearOwners snapshot.resources acquired
  let woken := (List.range resources.length).foldl wake
    (resources, snapshot.acquisitions.filter (fun item => item.nodeId ≠ nodeId))
  ⟨woken.1, woken.2⟩

theorem release_eq_ok (snapshot result : ResourceSnapshot) (nodeId : GraphNodeId) :
    release snapshot nodeId = .ok result ↔ ∃ acquisition,
      snapshot.acquisitions.find? (fun item => item.nodeId = nodeId) = some acquisition ∧
      acquisition.admitted = true ∧ result = released snapshot nodeId acquisition.acquired := by
  simp only [release, bind_eq_ok, exists_unit, orRaise_eq_ok, raiseIf_eq_ok, Bool.not_eq_false,
    pure_eq_ok, Except.ok.injEq, eq_comm (b := result)]
  rfl

@[simp] theorem advance_nodeId (resources : List ResourceLock)
    (acquisition : ResourceAcquisition) :
    (advance resources acquisition).2.nodeId = acquisition.nodeId := rfl

@[simp] theorem advance_required (resources : List ResourceLock)
    (acquisition : ResourceAcquisition) :
    (advance resources acquisition).2.required = acquisition.required := rfl

/-- Waking a waiter keeps every participant and its place. -/
theorem wake_nodeIds (state : List ResourceLock × List ResourceAcquisition) (here : Nat) :
    (wake state here).2.map (·.nodeId) = state.2.map (·.nodeId) := by
  unfold wake
  split
  · rename_i resourceId waiter waiters lock
    split
    · rename_i acquisition found
      have sameId : acquisition.nodeId = waiter := by simpa using List.find?_some found
      simp only [List.map_map]
      refine List.map_congr_left (fun item _ => ?_)
      simp only [Function.comp_apply]
      split
      · rename_i same
        rw [advance_nodeId, sameId, same]
      · rfl
    · rfl
  · rfl

theorem released_nodeIds (snapshot : ResourceSnapshot) (nodeId : GraphNodeId)
    (acquired : List ResourceId) :
    (released snapshot nodeId acquired).acquisitions.map (·.nodeId) =
      (snapshot.acquisitions.map (·.nodeId)).filter (· ≠ nodeId) := by
  have keeps : ∀ (positions : List Nat) (state : List ResourceLock × List ResourceAcquisition),
      ((positions.foldl wake state).2).map (·.nodeId) = state.2.map (·.nodeId) := by
    intro positions
    induction positions with
    | nil => exact fun _ => rfl
    | cons here positions ih =>
        intro state
        rw [List.foldl_cons, ih, wake_nodeIds]
  simp only [released, keeps, List.filter_map]
  rfl

/-- A release that `reduce_resources` accepts. -/
theorem reduceResources_release {snapshot result : ResourceSnapshot} {nodeId : GraphNodeId}
    (reduced : reduceResources snapshot (.releaseResources nodeId) = .ok result) :
    validateResourceSnapshot result = .ok () ∧
      result.acquisitions.map (·.nodeId) =
        (snapshot.acquisitions.map (·.nodeId)).filter (· ≠ nodeId) := by
  obtain ⟨-, applied, valid⟩ := (reduceResources_eq_ok _ _ _).mp reduced
  simp only [applyCommand, bind_unit_eq_ok, release_eq_ok] at applied
  obtain ⟨-, acquisition, -, -, rfl⟩ := applied
  exact ⟨valid, released_nodeIds _ _ _⟩

end ResourceReducer
end MoteKernel
