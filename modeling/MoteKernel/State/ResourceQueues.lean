import MoteKernel.Lib.OrderedQueues
import MoteKernel.State.ResourceSteps

/-!
# Resource snapshots are queue families

A lock is a queue whose head is the owner, and an acquisition is the prefix of
its requirements a participant heads. In these terms `_advance` is one visit,
`_acquire` lets a newcomer join, and the replay of `validate_resource_snapshot`
is `stand`.
-/

namespace MoteKernel
open Checked OrderedQueues

namespace ResourceReducer

/-- The lock of one queue. An open resource has no owner although somebody waits for it. -/
def lockOf (queues : Queues GraphNodeId ResourceId) (opened : List ResourceId)
    (resourceId : ResourceId) : ResourceLock :=
  if resourceId ∈ opened then ⟨resourceId, none, queues resourceId⟩
  else ⟨resourceId, (queues resourceId).head?, (queues resourceId).tail⟩

/-- The acquisition of one participant. -/
def acquisitionOf (need : GraphNodeId → List ResourceId)
    (queues : Queues GraphNodeId ResourceId) (opened : List ResourceId)
    (nodeId : GraphNodeId) : ResourceAcquisition :=
  let acquired := held queues opened nodeId (need nodeId)
  ⟨nodeId, need nodeId, acquired, (need nodeId)[acquired.length]?⟩

/-- The snapshot of a family of queues. -/
def snapshotOf (resourceIds : List ResourceId) (need : GraphNodeId → List ResourceId)
    (nodes : List GraphNodeId) (queues : Queues GraphNodeId ResourceId)
    (opened : List ResourceId) : ResourceSnapshot :=
  ⟨resourceIds.map (lockOf queues opened), nodes.map (acquisitionOf need queues opened)⟩

variable {resourceIds opened : List ResourceId} {need : GraphNodeId → List ResourceId}
  {nodes : List GraphNodeId} {queues : Queues GraphNodeId ResourceId} {nodeId : GraphNodeId}

/-! ## Locks by position -/

@[simp] theorem lockOf_resourceId (resourceId : ResourceId) :
    (lockOf queues opened resourceId).resourceId = resourceId := by
  unfold lockOf
  split <;> rfl

@[simp] theorem lockOf_resourceIds :
    (resourceIds.map (lockOf queues opened)).map (·.resourceId) = resourceIds := by
  simp [Function.comp_def]

theorem lockAt_map {f : ResourceId → ResourceLock} (own : ∀ x, (f x).resourceId = x)
    {resourceId : ResourceId} (known : resourceId ∈ resourceIds) :
    lockAt (resourceIds.map f) resourceId = f resourceId := by
  have bound := List.idxOf_lt_length_of_mem known
  have ids : (resourceIds.map f).map (·.resourceId) = resourceIds := by
    simp [Function.comp_def, own]
  unfold lockAt position
  rw [ids, List.getD_eq_getElem?_getD, List.getElem?_map, List.getElem?_eq_getElem bound,
    List.getElem_idxOf bound]
  rfl

theorem lockAt_lockOf {resourceId : ResourceId} (known : resourceId ∈ resourceIds) :
    lockAt (resourceIds.map (lockOf queues opened)) resourceId = lockOf queues opened resourceId :=
  lockAt_map lockOf_resourceId known

/-- Writing one lock of a list of locks. -/
theorem set_position {f : ResourceId → ResourceLock} {resourceId : ResourceId}
    {lock : ResourceLock} (distinct : resourceIds.Nodup) (known : resourceId ∈ resourceIds) :
    (resourceIds.map f).set (position resourceIds resourceId) lock =
      resourceIds.map (fun x => if x = resourceId then lock else f x) := by
  unfold position
  refine List.ext_getElem (by simp) (fun i h h' => ?_)
  have bound : i < resourceIds.length := by simpa using h
  rw [List.getElem_set]
  simp only [List.getElem_map]
  by_cases here : resourceIds.idxOf resourceId = i
  · subst here
    simp
  · have different : resourceIds[i] ≠ resourceId := by
      rintro rfl
      exact here (distinct.idxOf_getElem i bound)
    simp [here, different]

/-! ## Advancing is visiting -/

/-- What `_advance` does to a participant that stands at none of the resources still to take. -/
theorem advanceLoop_eq_visit {rest acquired : List ResourceId} (distinct : resourceIds.Nodup)
    (known : rest ⊆ resourceIds) (once : rest.Nodup) (absent : ∀ x ∈ rest, nodeId ∉ queues x)
    (occupied : ∀ x ∈ opened, queues x ≠ []) :
    advanceLoop nodeId rest (resourceIds.map (lockOf queues opened)) acquired =
      (resourceIds.map (lockOf (visit queues nodeId rest) opened),
        acquired ++ held (visit queues nodeId rest) opened nodeId rest,
        rest[(held (visit queues nodeId rest) opened nodeId rest).length]?) := by
  induction rest generalizing queues acquired with
  | nil => simp [advanceLoop, held, visit_nil]
  | cons next rest ih =>
      have here : next ∈ resourceIds := known List.mem_cons_self
      have later : rest ⊆ resourceIds := fun x member => known (List.mem_cons_of_mem _ member)
      obtain ⟨notLater, restOnce⟩ := List.nodup_cons.mp once
      have missing : nodeId ∉ queues next := absent next List.mem_cons_self
      unfold advanceLoop
      simp only [lockAt_lockOf here, lockOf_resourceIds, set_position distinct here]
      by_cases empty : queues next = []
      · -- nobody is there: the participant takes the resource
        have closed : next ∉ opened := fun isOpen => occupied next isOpen empty
        have free : canAcquire (lockOf queues opened next) nodeId = true := by
          simp [canAcquire, lockOf, closed, empty]
        have taken : resourceIds.map (fun x => if x = next then
              { lockOf queues opened next with
                owner := some nodeId, waiters := (lockOf queues opened next).waiters.tail }
            else lockOf queues opened x) =
            resourceIds.map (lockOf (visit queues nodeId [next]) opened) := by
          refine List.map_congr_left (fun x _ => ?_)
          by_cases same : x = next
          · subst same
            simp [lockOf, closed, empty, visit_singleton]
          · simp [lockOf, same, visit_singleton]
        have holding : holds (visit queues nodeId (next :: rest)) opened nodeId next := by
          refine ⟨?_, closed⟩
          rw [head_visit, if_pos ⟨empty, by simp [reach]⟩]
        rw [if_pos free, taken, ih later restOnce, ← visit_cons_of_empty empty notLater,
          held_cons_of_holds holding]
        · simp
        · intro x member
          have different : x ≠ next := fun same => notLater (same ▸ member)
          simpa [visit_singleton, different] using absent x (List.mem_cons_of_mem _ member)
        · intro x isOpen
          have different : x ≠ next := fun same => closed (same ▸ isOpen)
          simpa [visit_singleton, different] using occupied x isOpen
      · -- somebody is there: the participant waits
        have refused : canAcquire (lockOf queues opened next) nodeId = false := by
          cases queue : queues next with
          | nil => exact absurd queue empty
          | cons first others =>
              have different : first ≠ nodeId := by
                rintro rfl
                exact missing (by simp [queue])
              by_cases isOpen : next ∈ opened <;>
                simp [canAcquire, lockOf, isOpen, queue, different]
        have waits : resourceIds.map (fun x => if x = next then
              { lockOf queues opened next with
                waiters := (lockOf queues opened next).waiters ++ [nodeId] }
            else lockOf queues opened x) =
            resourceIds.map (lockOf (visit queues nodeId (next :: rest)) opened) := by
          rw [visit_cons_of_occupied empty]
          refine List.map_congr_left (fun x _ => ?_)
          by_cases same : x = next
          · subst same
            cases queue : queues x with
            | nil => exact absurd queue empty
            | cons first others =>
                by_cases isOpen : x ∈ opened <;> simp [lockOf, isOpen, queue, visit_singleton]
          · simp [lockOf, same, visit_singleton]
        have notHolding : ¬ holds (visit queues nodeId (next :: rest)) opened nodeId next := by
          rintro ⟨head, -⟩
          rw [head_visit, if_neg (fun both => empty both.1)] at head
          exact missing (List.mem_of_head? head)
        rw [if_neg (by simp [refused]), waits, held_cons_of_not_holds notHolding]
        simp

/-! ## Replaying is standing -/

/-- The requests the reducer accepts: known resources, each once, in snapshot order. -/
structure Requests (resourceIds : List ResourceId) (need : GraphNodeId → List ResourceId)
    (nodes : List GraphNodeId) : Prop where
  resources : resourceIds.Nodup
  resourceIdentities : ∀ r ∈ resourceIds, isCanonicalIdentity r = true
  participants : nodes.Nodup
  nodeIdentities : ∀ n ∈ nodes, isCanonicalIdentity n = true
  nonempty : ∀ n ∈ nodes, need n ≠ []
  distinct : ∀ n ∈ nodes, (need n).Nodup
  known : ∀ n ∈ nodes, need n ⊆ resourceIds
  ordered : ∀ n ∈ nodes, inPositionOrder resourceIds (need n) = need n

theorem Requests.sublist {nodes' : List GraphNodeId} (requests : Requests resourceIds need nodes)
    (sublist : nodes'.Sublist nodes) : Requests resourceIds need nodes' :=
  { resources := requests.resources
    resourceIdentities := requests.resourceIdentities
    participants := requests.participants.sublist sublist
    nodeIdentities := fun n member => requests.nodeIdentities n (sublist.subset member)
    nonempty := fun n member => requests.nonempty n (sublist.subset member)
    distinct := fun n member => requests.distinct n (sublist.subset member)
    known := fun n member => requests.known n (sublist.subset member)
    ordered := fun n member => requests.ordered n (sublist.subset member) }

theorem Requests.settled (requests : Requests resourceIds need nodes) :
    Settled need nodes [] (stand need nodes) :=
  stand_settled requests.participants requests.distinct

/-- Another participant's acquisition does not depend on a newcomer. -/
theorem acquisitionOf_visit {other : GraphNodeId} (different : other ≠ nodeId)
    (rest : List ResourceId) {opened' : List ResourceId}
    (same : ∀ r, (queues r).head? = some other → (r ∈ opened' ↔ r ∈ opened)) :
    acquisitionOf need (visit queues nodeId rest) opened' other =
      acquisitionOf need queues opened other := by
  have sameHeld : held (visit queues nodeId rest) opened' other (need other) =
      held queues opened other (need other) := by
    refine held_congr (fun x => ?_)
    unfold holds
    rw [head_visit_of_ne different]
    exact and_congr_right (fun head => not_congr (same x head))
  simp only [acquisitionOf, sameHeld]

theorem acquire_snapshotOf (settled : Settled need nodes [] queues)
    (requests : Requests resourceIds need (nodes ++ [nodeId])) :
    acquire (snapshotOf resourceIds need nodes queues []) nodeId (need nodeId) =
      .ok (snapshotOf resourceIds need (nodes ++ [nodeId])
        (visit queues nodeId (need nodeId)) []) := by
  have inside : nodeId ∈ nodes ++ [nodeId] := by simp
  have fresh : nodeId ∉ nodes := by
    have distinct := requests.participants
    simp only [List.nodup_append, List.mem_singleton] at distinct
    exact fun member => distinct.2.2 nodeId member nodeId rfl rfl
  have others : nodes.map (acquisitionOf need queues []) =
      nodes.map (acquisitionOf need (visit queues nodeId (need nodeId)) []) := by
    refine List.map_congr_left (fun other member => ?_)
    have different : other ≠ nodeId := fun same => fresh (same ▸ member)
    exact (acquisitionOf_visit different _ (fun _ _ => Iff.rfl)).symm
  have advanced : advanceLoop nodeId (need nodeId) (resourceIds.map (lockOf queues [])) [] = _ :=
    advanceLoop_eq_visit requests.resources (requests.known nodeId inside)
      (requests.distinct nodeId inside)
      (fun x _ member => fresh (settled.within x nodeId member).1) (by simp)
  unfold acquire
  simp only [requireIdentity, requests.nodeIdentities nodeId inside, raiseIf,
    requests.nonempty nodeId inside, requests.distinct nodeId inside, snapshotOf,
    lockOf_resourceIds, requests.known nodeId inside, requests.ordered nodeId inside, advance,
    List.length_nil, List.drop_zero, advanced]
  simp [others, acquisitionOf, fresh]

theorem replay_snapshotOf (requests : Requests resourceIds need nodes)
    (acquisitions : List ResourceAcquisition)
    (same : acquisitions.map (fun item => (item.nodeId, item.required)) =
      nodes.map (fun n => (n, need n))) :
    replay resourceIds acquisitions =
      .ok (snapshotOf resourceIds need nodes (stand need nodes) []) := by
  unfold replay
  have perNode : acquisitions.foldlM (fun replayed (acquisition : ResourceAcquisition) =>
        applyCommand replayed (.acquireResources acquisition.nodeId acquisition.required))
        (freeSnapshot resourceIds) =
      nodes.foldlM (fun replayed n => acquire replayed n (need n)) (freeSnapshot resourceIds) := by
    let acquirePair (replayed : ResourceSnapshot) (pair : GraphNodeId × List ResourceId) :=
      acquire replayed pair.1 pair.2
    have left : (acquisitions.map fun item => (item.nodeId, item.required)).foldlM acquirePair
        (freeSnapshot resourceIds) = _ := List.foldlM_map
    have right : (nodes.map fun n => (n, need n)).foldlM acquirePair
        (freeSnapshot resourceIds) = _ := List.foldlM_map
    rw [same] at left
    exact left.symm.trans right
  rw [perNode]
  clear perNode same
  induction nodes using List.reverseRecOn with
  | nil => simp [stand, snapshotOf, freeSnapshot, lockOf]
  | append_singleton nodes n ih =>
      have earlier := requests.sublist (List.sublist_append_left nodes [n])
      rw [List.foldlM_append, ih earlier, ok_bind, List.foldlM_cons,
        acquire_snapshotOf earlier.settled requests, stand_append_singleton]
      rfl

/-! ## Validation -/

theorem snapshotOf_nodeIds :
    (snapshotOf resourceIds need nodes queues opened).acquisitions.map (·.nodeId) = nodes := by
  simp [snapshotOf, acquisitionOf, Function.comp_def]

theorem snapshotOf_resourceIds :
    (snapshotOf resourceIds need nodes queues opened).resources.map (·.resourceId) =
      resourceIds := lockOf_resourceIds

theorem find_acquisitionOf (inside : nodeId ∈ nodes) :
    (nodes.map (acquisitionOf need queues opened)).find? (fun item => item.nodeId = nodeId) =
      some (acquisitionOf need queues opened nodeId) := by
  rw [List.find?_map]
  have found : nodes.find? ((fun item : ResourceAcquisition => decide (item.nodeId = nodeId)) ∘
      acquisitionOf need queues opened) = some nodeId := by
    cases first : nodes.find? ((fun item : ResourceAcquisition => decide (item.nodeId = nodeId)) ∘
        acquisitionOf need queues opened) with
    | none => simpa [acquisitionOf] using List.find?_eq_none.mp first nodeId inside
    | some other =>
        have selected := List.find?_some first
        have same : other = nodeId := of_decide_eq_true selected
        rw [same]
  rw [found]
  rfl

/-- A settled family of queues passes the structural validation. -/
theorem validSnapshot_snapshotOf (requests : Requests resourceIds need nodes)
    (settled : Settled need nodes [] queues) (once : ∀ r, (queues r).Nodup) :
    ValidSnapshot (snapshotOf resourceIds need nodes queues []) := by
  have lock : ∀ r, lockOf queues [] r = ⟨r, (queues r).head?, (queues r).tail⟩ := by
    intro r
    simp [lockOf]
  -- a waiter is in the queue without heading it
  have waiter : ∀ r n, n ∈ (queues r).tail → n ∈ queues r ∧ ¬ holds queues [] n r := by
    intro r n member
    have distinct := once r
    cases queue : queues r with
    | nil => simp [queue] at member
    | cons first others =>
        rw [queue] at member distinct
        refine ⟨List.mem_cons_of_mem _ member, ?_⟩
        rintro ⟨head, -⟩
        rw [queue, List.head?_cons, Option.some.injEq] at head
        exact (List.nodup_cons.mp distinct).1 (head ▸ member)
  have identity : ∀ r n, n ∈ queues r → isCanonicalIdentity n = true := fun r n member =>
    requests.nodeIdentities n (settled.within r n member).1
  refine ⟨?_, ?_, ?_, ?_, ?_, ?_⟩
  · rw [snapshotOf_resourceIds]
    exact requests.resources
  · intro item member
    obtain ⟨r, known, rfl⟩ := List.mem_map.mp member
    rw [lock]
    refine ⟨requests.resourceIdentities r known, (once r).tail, ?_, ?_⟩
    · intro owner head
      refine ⟨identity r owner (List.mem_of_head? head), fun behind => ?_⟩
      exact (waiter r owner behind).2 ⟨head, by simp⟩
    · exact fun n behind => identity r n (waiter r n behind).1
  · rw [snapshotOf_nodeIds]
    exact requests.participants
  · intro item member
    obtain ⟨n, inside, rfl⟩ := List.mem_map.mp member
    rw [snapshotOf_resourceIds]
    exact ⟨requests.nodeIdentities n inside, requests.nonempty n inside,
      requests.distinct n inside, requests.known n inside, requests.ordered n inside⟩
  · intro item member
    obtain ⟨n, inside, rfl⟩ := List.mem_map.mp member
    refine ⟨?_, rfl, ?_, ?_⟩
    · exact List.prefix_iff_eq_take.mp held_prefix
    · intro r taken
      have needed : r ∈ need n := held_prefix.subset taken
      rw [snapshotOf, lockAt_lockOf (requests.known n inside needed), lock]
      exact (holds_of_mem_held taken).1
    · intro r next
      have here := (settled.arrived n inside).waiting next
      have needed := (settled.within r n here.1).2
      rw [snapshotOf, lockAt_lockOf (requests.known n inside needed), lock]
      cases queue : queues r with
      | nil => simp [queue] at here
      | cons first others =>
          rcases List.mem_cons.mp (queue ▸ here.1) with rfl | behind
          · exact absurd ⟨by rw [queue]; rfl, by simp⟩ here.2
          · exact behind
  · intro item member
    obtain ⟨r, known, rfl⟩ := List.mem_map.mp member
    rw [lock]
    refine ⟨?_, ?_, ?_⟩
    · intro owner head
      rw [snapshotOf_nodeIds]
      exact (settled.within r owner (List.mem_of_head? head)).1
    · intro n behind
      rw [snapshotOf_nodeIds]
      exact (settled.within r n (waiter r n behind).1).1
    · intro n behind
      obtain ⟨here, elsewhere⟩ := waiter r n behind
      obtain ⟨inside, needed⟩ := settled.within r n here
      rw [waitingForOf, snapshotOf, find_acquisitionOf inside]
      exact (settled.arrived n inside).waits needed here elsewhere

end ResourceReducer
end MoteKernel
