import MoteKernel.Lib.Checked
import MoteKernel.Lib.Canonical
import MoteKernel.State.Identity

/-!
# Ordered exclusive-resource acquisition

The snapshots of `state/graph_state/resource_model.py`, the commands of
`resource_command.py` and the transitions of `resource_reducer.py`. A Python
`dict` from resource to position is the position of the first lock with that
identity: the snapshots the transitions work on repeat no resource.
-/

namespace MoteKernel
open Checked

abbrev ResourceId := String

structure ResourceLock where
  resourceId : ResourceId
  owner : Option GraphNodeId := none
  waiters : List GraphNodeId := []
  deriving DecidableEq, Repr

structure ResourceAcquisition where
  nodeId : GraphNodeId
  required : List ResourceId
  acquired : List ResourceId
  waitingFor : Option ResourceId := none
  deriving DecidableEq, Repr

/-- `ResourceAcquisition.admitted`. -/
def ResourceAcquisition.admitted (acquisition : ResourceAcquisition) : Bool :=
  acquisition.acquired == acquisition.required && acquisition.waitingFor == none

structure ResourceSnapshot where
  resources : List ResourceLock
  acquisitions : List ResourceAcquisition := []
  deriving DecidableEq, Repr

inductive ResourceCommand where
  | acquireResources (nodeId : GraphNodeId) (resources : List ResourceId)
  | releaseResources (nodeId : GraphNodeId)
  deriving DecidableEq, Repr

/-- A resource command is invalid for the supplied snapshot. -/
structure ResourceTransitionError where
  message : String
  deriving DecidableEq, Repr

namespace ResourceReducer

/-- `_require_identity` of the resource reducer. -/
def requireIdentity (value kind : String) : Except ResourceTransitionError Unit :=
  raiseIf (isCanonicalIdentity value = false)
    ⟨kind ++ " identity must be non-empty and trimmed"⟩

/-- `positions[resource_id]`. -/
def position (resourceIds : List ResourceId) (resourceId : ResourceId) : Nat :=
  resourceIds.idxOf resourceId

/-- `snapshot.resources[positions[resource_id]]`. -/
def lockAt (resources : List ResourceLock) (resourceId : ResourceId) : ResourceLock :=
  resources.getD (position (resources.map (·.resourceId)) resourceId) ⟨resourceId, none, []⟩

/-- `tuple(sorted(required, key=positions.__getitem__))`. -/
def inPositionOrder (resourceIds required : List ResourceId) : List ResourceId :=
  required.insertionSort (fun a b => position resourceIds a ≤ position resourceIds b)

/-- The owner of one lock. -/
def validateOwner (resource : ResourceLock) : Except ResourceTransitionError Unit :=
  match resource.owner with
  | none => pure ()
  | some owner => do
      requireIdentity owner "node"
      raiseIf (owner ∈ resource.waiters) ⟨"resource owner cannot also be waiting"⟩

/-- The shape of one lock. -/
def validateLock (resource : ResourceLock) : Except ResourceTransitionError Unit := do
  requireIdentity resource.resourceId "resource"
  raiseIf (¬ resource.waiters.Nodup) ⟨"resource waiters must be unique"⟩
  validateOwner resource
  checkAll (fun waiter => requireIdentity waiter "node") resource.waiters

/-- `required[len(acquired)] if len(acquired) < len(required) else None`. -/
def expectedWaiting (acquisition : ResourceAcquisition) : Option ResourceId :=
  acquisition.required[acquisition.acquired.length]?

/-- A waiting acquisition is in the queue of the resource it waits for. -/
def validateQueued (snapshot : ResourceSnapshot) (acquisition : ResourceAcquisition) :
    Except ResourceTransitionError Unit :=
  match acquisition.waitingFor with
  | none => pure ()
  | some resourceId =>
      raiseIf (acquisition.nodeId ∉ (lockAt snapshot.resources resourceId).waiters)
        ⟨"waiting acquisition is absent from the resource queue"⟩

/-- The shape of one acquisition and its ownership links. -/
def validateAcquisition (snapshot : ResourceSnapshot) (acquisition : ResourceAcquisition) :
    Except ResourceTransitionError Unit := do
  let resourceIds := snapshot.resources.map (·.resourceId)
  requireIdentity acquisition.nodeId "node"
  raiseIf (acquisition.required = []) ⟨"an acquisition requires at least one resource"⟩
  raiseIf (¬ acquisition.required.Nodup) ⟨"an acquisition repeats a resource"⟩
  raiseIf (¬ acquisition.required ⊆ resourceIds) ⟨"an acquisition references an unknown resource"⟩
  raiseIf (inPositionOrder resourceIds acquisition.required ≠ acquisition.required)
    ⟨"resources must be acquired in snapshot order"⟩
  raiseIf (acquisition.acquired ≠ acquisition.required.take acquisition.acquired.length)
    ⟨"acquired resources must be a required-resource prefix"⟩
  raiseIf (acquisition.waitingFor ≠ expectedWaiting acquisition)
    ⟨"an acquisition can only wait for its next resource"⟩
  checkAll (fun resourceId =>
      raiseIf ((lockAt snapshot.resources resourceId).owner ≠ some acquisition.nodeId)
        ⟨"acquired resource ownership does not match its acquisition"⟩)
    acquisition.acquired
  validateQueued snapshot acquisition

/-- `acquisitions[waiter].waiting_for`. -/
def waitingForOf (acquisitions : List ResourceAcquisition) (nodeId : GraphNodeId) :
    Option ResourceId :=
  (acquisitions.find? (fun acquisition => acquisition.nodeId = nodeId)).bind (·.waitingFor)

/-- The links from one lock back to the acquisitions. -/
def validateLinks (snapshot : ResourceSnapshot) (resource : ResourceLock) :
    Except ResourceTransitionError Unit := do
  let participants := snapshot.acquisitions.map (·.nodeId)
  raiseIf (∃ owner ∈ resource.owner, owner ∉ participants) ⟨"resource owner has no acquisition"⟩
  raiseIf (¬ resource.waiters ⊆ participants) ⟨"resource waiter has no acquisition"⟩
  raiseIf (∃ waiter ∈ resource.waiters,
      waitingForOf snapshot.acquisitions waiter ≠ some resource.resourceId)
    ⟨"resource queue contains a participant waiting elsewhere"⟩

/-- `_validate_snapshot`: one snapshot's shape and its bidirectional ownership links. -/
def validateSnapshot (snapshot : ResourceSnapshot) : Except ResourceTransitionError Unit := do
  raiseIf (¬ (snapshot.resources.map (·.resourceId)).Nodup)
    ⟨"resources snapshot repeats a resource"⟩
  checkAll validateLock snapshot.resources
  raiseIf (¬ (snapshot.acquisitions.map (·.nodeId)).Nodup)
    ⟨"resources snapshot repeats an acquisition"⟩
  checkAll (validateAcquisition snapshot) snapshot.acquisitions
  checkAll (validateLinks snapshot) snapshot.resources

/-- `can_acquire` of `_advance`. -/
def canAcquire (resource : ResourceLock) (nodeId : GraphNodeId) : Bool :=
  resource.owner == none && (resource.waiters == [] || resource.waiters.head? == some nodeId)

/-- The `while` loop of `_advance`. The first argument is `required[len(acquired):]`, the
resources still to take; the result is the locks, what was acquired, and the resource the
participant now waits for. -/
def advanceLoop (nodeId : GraphNodeId) :
    List ResourceId → List ResourceLock → List ResourceId →
      List ResourceLock × List ResourceId × Option ResourceId
  | [], resources, acquired => (resources, acquired, none)
  | next :: rest, resources, acquired =>
      let here := position (resources.map (·.resourceId)) next
      let resource := lockAt resources next
      if canAcquire resource nodeId then
        advanceLoop nodeId rest
          (resources.set here { resource with owner := some nodeId, waiters := resource.waiters.tail })
          (acquired ++ [next])
      else
        (resources.set here { resource with waiters := resource.waiters ++ [nodeId] },
          acquired, some next)

/-- `_advance`: take every required resource in order until one is not available. -/
def advance (resources : List ResourceLock) (acquisition : ResourceAcquisition) :
    List ResourceLock × ResourceAcquisition :=
  let (locks, acquired, waitingFor) := advanceLoop acquisition.nodeId
    (acquisition.required.drop acquisition.acquired.length) resources acquisition.acquired
  (locks, { acquisition with acquired := acquired, waitingFor := waitingFor })

/-- `_acquire`. -/
def acquire (snapshot : ResourceSnapshot) (nodeId : GraphNodeId) (requested : List ResourceId) :
    Except ResourceTransitionError ResourceSnapshot := do
  requireIdentity nodeId "node"
  if requested = [] then
    return snapshot
  raiseIf (nodeId ∈ snapshot.acquisitions.map (·.nodeId)) ⟨"node already has an acquisition"⟩
  let resourceIds := snapshot.resources.map (·.resourceId)
  raiseIf (¬ requested.Nodup) ⟨"resource request contains duplicates"⟩
  raiseIf (¬ requested ⊆ resourceIds) ⟨"resource request references an unknown resource"⟩
  raiseIf (inPositionOrder resourceIds requested ≠ requested)
    ⟨"resource request violates the global resource order"⟩
  let (resources, acquisition) := advance snapshot.resources ⟨nodeId, requested, [], none⟩
  return ⟨resources, snapshot.acquisitions ++ [acquisition]⟩

/-- The loop of `_release` that gives up every acquired resource. -/
def clearOwners (resources : List ResourceLock) (acquired : List ResourceId) : List ResourceLock :=
  acquired.reverse.foldl (fun locks resourceId =>
    locks.set (position (locks.map (·.resourceId)) resourceId)
      { lockAt locks resourceId with owner := none }) resources

/-- One position of the waking loop of `_release`: a free resource goes to its first waiter,
which then advances as far as it can. -/
def wake (state : List ResourceLock × List ResourceAcquisition) (here : Nat) :
    List ResourceLock × List ResourceAcquisition :=
  match state.1[here]? with
  | some ⟨_, none, waiter :: _⟩ =>
      match state.2.find? (fun item => item.nodeId = waiter) with
      | some acquisition =>
          let (locks, advanced) := advance state.1 acquisition
          (locks, state.2.map (fun item => if item.nodeId = waiter then advanced else item))
      | none => state
  | _ => state

/-- `_release`. -/
def release (snapshot : ResourceSnapshot) (nodeId : GraphNodeId) :
    Except ResourceTransitionError ResourceSnapshot := do
  let acquisition ← orRaise ⟨"node has no acquisition to release"⟩
    (snapshot.acquisitions.find? (fun item => item.nodeId = nodeId))
  raiseIf (acquisition.admitted = false) ⟨"only an admitted participant can release resources"⟩
  let resources := clearOwners snapshot.resources acquisition.acquired
  let acquisitions := snapshot.acquisitions.filter (fun item => item.nodeId ≠ nodeId)
  let (locks, byNode) := (List.range resources.length).foldl wake (resources, acquisitions)
  return ⟨locks, byNode⟩

/-- `_apply_command`: apply one command without re-validating the snapshot. -/
def applyCommand (snapshot : ResourceSnapshot) :
    ResourceCommand → Except ResourceTransitionError ResourceSnapshot
  | .acquireResources nodeId resources => acquire snapshot nodeId resources
  | .releaseResources nodeId => do
      requireIdentity nodeId "node"
      release snapshot nodeId

/-- The snapshot with every resource free. -/
def freeSnapshot (resourceIds : List ResourceId) : ResourceSnapshot :=
  ⟨resourceIds.map (fun resourceId => ⟨resourceId, none, []⟩), []⟩

/-- The replay loop of `validate_resource_snapshot`. -/
def replay (resourceIds : List ResourceId) (acquisitions : List ResourceAcquisition) :
    Except ResourceTransitionError ResourceSnapshot :=
  acquisitions.foldlM (fun replayed acquisition =>
    applyCommand replayed (.acquireResources acquisition.nodeId acquisition.required))
    (freeSnapshot resourceIds)

/-- `validate_resource_snapshot`: reject a corrupt snapshot or one that cannot be replayed. -/
def validateResourceSnapshot (snapshot : ResourceSnapshot) :
    Except ResourceTransitionError Unit := do
  validateSnapshot snapshot
  let replayed ← replay (snapshot.resources.map (·.resourceId)) snapshot.acquisitions
  raiseIf (replayed ≠ snapshot)
    ⟨"resources snapshot does not match its replayed acquisition sequence"⟩

/-- `reduce_resources`. -/
def reduceResources (snapshot : ResourceSnapshot) (command : ResourceCommand) :
    Except ResourceTransitionError ResourceSnapshot := do
  validateResourceSnapshot snapshot
  let result ← applyCommand snapshot command
  validateResourceSnapshot result
  return result

end ResourceReducer
end MoteKernel
