import MoteKernel.State.ResourceQueues

/-!
# Releasing resources

A release takes a participant out of the queues and promotes the first waiter of
each resource it owned. The result is always a settled family of queues, but the
replay that validates it lets the remaining participants stand in acquisition
order. The two agree exactly when no promoted waiter joins a queue behind a
participant that acquired after it.
-/

namespace MoteKernel
open Checked OrderedQueues

namespace ResourceReducer

variable {resourceIds opened : List ResourceId} {need : GraphNodeId → List ResourceId}
  {nodes : List GraphNodeId} {queues : Queues GraphNodeId ResourceId} {nodeId : GraphNodeId}

/-! ## Giving up the owned resources -/

theorem clearOwners_map {f : ResourceId → ResourceLock} (own : ∀ x, (f x).resourceId = x)
    (distinct : resourceIds.Nodup) {acquired : List ResourceId}
    (known : acquired ⊆ resourceIds) :
    clearOwners (resourceIds.map f) acquired =
      resourceIds.map (fun x => if x ∈ acquired then { f x with owner := none } else f x) := by
  have step : ∀ (ids : List ResourceId) (f : ResourceId → ResourceLock),
      (∀ x, (f x).resourceId = x) → ids ⊆ resourceIds →
      ids.foldl (fun locks resourceId =>
        locks.set (position (locks.map (·.resourceId)) resourceId)
          { lockAt locks resourceId with owner := none }) (resourceIds.map f) =
        resourceIds.map (fun x => if x ∈ ids then { f x with owner := none } else f x) := by
    intro ids
    induction ids with
    | nil => simp
    | cons head ids ih =>
        intro f own known
        have here : head ∈ resourceIds := known List.mem_cons_self
        have sameIds : (resourceIds.map f).map (·.resourceId) = resourceIds := by
          simp [Function.comp_def, own]
        rw [List.foldl_cons, sameIds, lockAt_map own here, set_position distinct here, ih]
        · refine List.map_congr_left (fun x _ => ?_)
          by_cases same : x = head
          · subst same
            by_cases again : x ∈ ids <;> simp [again]
          · simp [same]
        · intro x
          split
          · rename_i same
            exact (own head).trans same.symm
          · exact own x
        · exact fun x member => known (List.mem_cons_of_mem _ member)
  have reversed := step acquired.reverse f own (fun x member => known (List.mem_reverse.mp member))
  simpa [clearOwners] using reversed

/-- A queue whose head leaves. -/
theorem leave_of_head {r : ResourceId} (once : (queues r).Nodup)
    (head : (queues r).head? = some nodeId) : leave queues nodeId r = (queues r).tail := by
  unfold leave
  cases queue : queues r with
  | nil => rfl
  | cons first others =>
      rw [queue] at once head
      obtain rfl : first = nodeId := by simpa using head
      have apart := (List.nodup_cons.mp once).1
      rw [List.filter_cons_of_neg (by simp), List.tail_cons]
      refine List.filter_eq_self.mpr (fun m member => ?_)
      simpa using fun same : m = first => apart (same ▸ member)

section Release

variable (requests : Requests resourceIds need nodes) (settled : Settled need nodes [] queues)
  (once : ∀ r, (queues r).Nodup) (inside : nodeId ∈ nodes)
  (owns : ∀ r ∈ need nodeId, (queues r).head? = some nodeId)

include requests settled once inside owns

theorem clearOwners_snapshotOf :
    clearOwners (resourceIds.map (lockOf queues [])) (need nodeId) =
      resourceIds.map (lockOf (leave queues nodeId)
        (openedBy queues nodeId (need nodeId))) := by
  rw [clearOwners_map lockOf_resourceId requests.resources (requests.known nodeId inside)]
  refine List.map_congr_left (fun r _ => ?_)
  by_cases released : r ∈ need nodeId
  · have rest := leave_of_head (once r) (owns r released)
    by_cases isOpen : r ∈ openedBy queues nodeId (need nodeId)
    · simp [lockOf, released, isOpen, rest]
    · have empty : leave queues nodeId r = [] := by
        by_contra waiting
        exact isOpen (List.mem_filter.mpr ⟨released, by simpa using waiting⟩)
      rw [rest] at empty
      simp [lockOf, released, isOpen, rest, empty]
  · have closed : r ∉ openedBy queues nodeId (need nodeId) := fun isOpen =>
      released (List.mem_filter.mp isOpen).1
    simp [lockOf, released, closed, leave_of_not_needed settled released]

omit requests once inside in
theorem remaining_acquisitions :
    (nodes.map (acquisitionOf need queues [])).filter (fun item => item.nodeId ≠ nodeId) =
      (nodes.filter (· ≠ nodeId)).map (acquisitionOf need (leave queues nodeId)
        (openedBy queues nodeId (need nodeId))) := by
  rw [List.filter_map]
  refine List.map_congr_left (fun m member => ?_)
  have selected := (List.mem_filter.mp member).2
  have other : m ≠ nodeId := of_decide_eq_true selected
  have sameHeld : held queues [] m (need m) = _ :=
    held_congr (fun r => (holds_leave settled owns (r := r) other).symm)
  simp only [acquisitionOf, sameHeld]

end Release

/-! ## Waking the first waiters -/

/-- Where nobody has to be promoted, waking does nothing. -/
theorem wake_closed {here : Nat} {r : ResourceId} (at_ : resourceIds[here]? = some r)
    (closed : r ∉ opened) (acquisitions : List ResourceAcquisition) :
    wake (resourceIds.map (lockOf queues opened), acquisitions) here =
      (resourceIds.map (lockOf queues opened), acquisitions) := by
  unfold wake
  have lock : (resourceIds.map (lockOf queues opened))[here]? =
      some ⟨r, (queues r).head?, (queues r).tail⟩ := by
    rw [List.getElem?_map, at_]
    simp [lockOf, closed]
  rw [lock]
  cases queue : queues r with
  | nil => rfl
  | cons first others => rfl

/-- Waking at an open resource promotes its first waiter. -/
theorem wake_open (requests : Requests resourceIds need nodes) {here : Nat} {r : ResourceId}
    {opened : List ResourceId} (at_ : resourceIds[here]? = some r) (once : r ∉ opened)
    (settled : Settled need nodes (r :: opened) queues)
    (occupied : ∀ x ∈ opened, queues x ≠ []) {waiter : GraphNodeId}
    (head : (queues r).head? = some waiter) {first rest : List ResourceId}
    (split : need waiter = first ++ r :: rest) :
    wake (resourceIds.map (lockOf queues (r :: opened)),
        nodes.map (acquisitionOf need queues (r :: opened))) here =
      (resourceIds.map (lockOf (visit queues waiter rest) opened),
        nodes.map (acquisitionOf need (visit queues waiter rest) opened)) := by
  have known : r ∈ resourceIds := List.mem_of_getElem? at_
  have member : waiter ∈ queues r := List.mem_of_head? head
  have participant : waiter ∈ nodes := (settled.within r waiter member).1
  have distinct := requests.distinct waiter participant
  have holding := (settled.arrived waiter participant first r rest split).mp member
  -- what the waiter has taken so far, and that it stands nowhere beyond the open resource
  have taken : held queues (r :: opened) waiter (need waiter) = first := by
    rw [split]
    exact held_split holding (fun both => both.2 List.mem_cons_self)
  have absent : ∀ x ∈ rest, waiter ∉ queues x := by
    intro x late here
    obtain ⟨middle, after, restSplit⟩ := List.append_of_mem late
    have beyond := (settled.arrived waiter participant (first ++ r :: middle) x after
      (by rw [split, restSplit]; simp)).mp here r (by simp)
    exact beyond.2 List.mem_cons_self
  obtain ⟨others, queue⟩ : ∃ others, queues r = waiter :: others := by
    cases shape : queues r with
    | nil => simp [shape] at head
    | cons first others =>
        rw [shape, List.head?_cons, Option.some.injEq] at head
        exact ⟨others, by rw [head]⟩
  have lock : (resourceIds.map (lockOf queues (r :: opened)))[here]? =
      some ⟨r, none, waiter :: others⟩ := by
    rw [List.getElem?_map, at_]
    simp [lockOf, queue]
  have advanced : advance (resourceIds.map (lockOf queues (r :: opened)))
      (acquisitionOf need queues (r :: opened) waiter) =
      (resourceIds.map (lockOf (visit queues waiter rest) opened),
        acquisitionOf need (visit queues waiter rest) opened waiter) := by
    have remaining : (need waiter).drop first.length = r :: rest := by
      rw [split, List.drop_left]
    have restKnown : rest ⊆ resourceIds := fun x late =>
      requests.known waiter participant (by rw [split]; simp [late])
    have restOnce : rest.Nodup := by
      rw [split] at distinct
      exact (List.nodup_cons.mp distinct.of_append_right).2
    have takes : advanceLoop waiter (r :: rest) (resourceIds.map (lockOf queues (r :: opened)))
        first = advanceLoop waiter rest (resourceIds.map (lockOf queues opened))
          (first ++ [r]) := by
      have free : canAcquire (lockOf queues (r :: opened) r) waiter = true := by
        simp [canAcquire, lockOf, queue]
      conv_lhs => unfold advanceLoop
      simp only [lockAt_lockOf known, lockOf_resourceIds, set_position requests.resources known,
        free, if_true]
      refine congrArg (fun locks => advanceLoop waiter rest locks (first ++ [r])) ?_
      refine List.map_congr_left (fun x _ => ?_)
      by_cases same : x = r
      · subst same
        simp [lockOf, queue, once]
      · simp [lockOf, same]
    have visited : advanceLoop waiter rest (resourceIds.map (lockOf queues opened))
        (first ++ [r]) = _ :=
      advanceLoop_eq_visit requests.resources restKnown restOnce absent occupied
    have nowHeld : held (visit queues waiter rest) opened waiter (need waiter) =
        (first ++ [r]) ++ held (visit queues waiter rest) opened waiter rest := by
      have regroup : need waiter = (first ++ [r]) ++ rest := by simp [split]
      rw [regroup, held_append]
      intro x early
      rcases List.mem_append.mp early with before | last
      · exact ⟨head_visit_of_head (holding x before).1, fun isOpen =>
          (holding x before).2 (List.mem_cons_of_mem _ isOpen)⟩
      · obtain rfl := List.mem_singleton.mp last
        exact ⟨head_visit_of_head head, once⟩
    have next : (need waiter)[((first ++ [r]) ++
          held (visit queues waiter rest) opened waiter rest).length]? =
        rest[(held (visit queues waiter rest) opened waiter rest).length]? := by
      have regroup : need waiter = (first ++ [r]) ++ rest := by simp [split]
      rw [regroup, List.length_append, List.getElem?_append_right (by omega)]
      congr 1
      omega
    simp only [advance, acquisitionOf, taken, remaining, takes, visited, nowHeld, next]
  unfold wake
  simp only [lock, find_acquisitionOf participant, advanced, List.map_map]
  refine Prod.ext rfl (List.map_congr_left (fun other _ => ?_))
  by_cases same : other = waiter
  · subst same
    simp [acquisitionOf]
  · have different : (acquisitionOf need queues (r :: opened) other).nodeId ≠ waiter := same
    simp only [Function.comp_apply, different, if_false]
    refine (acquisitionOf_visit same rest (fun x otherHead => ?_)).symm
    have elsewhere : x ≠ r := by
      rintro rfl
      exact same (Option.some.inj (otherHead.symm.trans head))
    simp [elsewhere]

/-- The whole waking loop of `_release`: every open resource is closed by its first waiter, in
resource order. `done` is what the loop has passed. -/
theorem wake_range (requests : Requests resourceIds need nodes) (done todo : List ResourceId)
    (split : resourceIds = done ++ todo) (pending : opened.Sublist todo)
    (occupied : ∀ x ∈ opened, queues x ≠ []) (settled : Settled need nodes opened queues) :
    let result := (promotions need queues opened).foldl
      (fun queues move => visit queues move.1 move.2) queues
    (List.range' done.length todo.length).foldl wake
        (resourceIds.map (lockOf queues opened), nodes.map (acquisitionOf need queues opened)) =
      (resourceIds.map (lockOf result []), nodes.map (acquisitionOf need result [])) ∧
    Settled need nodes [] result := by
  induction todo generalizing done queues opened with
  | nil =>
      obtain rfl := List.sublist_nil.mp pending
      exact ⟨rfl, settled⟩
  | cons r todo ih =>
      have at_ : resourceIds[done.length]? = some r := by simp [split]
      have next : resourceIds = (done ++ [r]) ++ todo := by simp [split]
      have shifted : (done ++ [r]).length = done.length + 1 := by simp
      have rOnce : r ∉ todo := by
        have distinct := requests.resources
        rw [split] at distinct
        exact (List.nodup_cons.mp distinct.of_append_right).1
      intro result
      rw [List.length_cons, List.range'_succ, List.foldl_cons]
      cases pending with
      | cons _ pending =>
          have closed : r ∉ opened := fun isOpen => rOnce (pending.subset isOpen)
          rw [wake_closed at_ closed, ← shifted]
          exact ih (done ++ [r]) next pending occupied settled
      | @cons_cons opened' _ _ pending =>
          have once : r ∉ opened' := fun isOpen => rOnce (pending.subset isOpen)
          have occupied' : ∀ x ∈ opened', queues x ≠ [] := fun x member =>
            occupied x (List.mem_cons_of_mem _ member)
          obtain ⟨waiter, head⟩ : ∃ waiter, (queues r).head? = some waiter := by
            cases queue : queues r with
            | nil => exact absurd queue (occupied r List.mem_cons_self)
            | cons first others => exact ⟨first, rfl⟩
          obtain ⟨inside, needed⟩ := settled.within r waiter (List.mem_of_head? head)
          have distinct := requests.distinct waiter inside
          obtain ⟨first, rest, needs⟩ := List.append_of_mem needed
          have beyond : needsAfter r (need waiter) = rest := by
            rw [needs] at distinct ⊢
            exact needsAfter_split
              (fun early => (List.nodup_append.mp distinct).2.2 r early r (by simp) rfl)
          -- later resources keep their first waiters
          have rest_heads : ∀ x ∈ opened', (queues x).head? = (visit queues waiter rest x).head? := by
            intro x isOpen
            rw [head_visit, if_neg (fun both => occupied' x isOpen both.1)]
          have moves : promotions need queues (r :: opened') =
              (waiter, rest) :: promotions need (visit queues waiter rest) opened' := by
            rw [← promotions_congr rest_heads]
            simp [promotions, head, beyond]
          have resultEq : result = (promotions need (visit queues waiter rest) opened').foldl
              (fun queues move => visit queues move.1 move.2) (visit queues waiter rest) := by
            simp only [result, moves, List.foldl_cons]
          rw [wake_open requests at_ once settled occupied' head needs, ← shifted, resultEq]
          refine ih (done ++ [r]) next pending ?_
            (settled.promote head distinct once occupied' needs)
          intro x isOpen empty
          have keeps := rest_heads x isOpen
          rw [empty] at keeps
          exact occupied' x isOpen (List.head?_eq_none_iff.mp keeps)

/-! ## The released snapshot -/

theorem Requests.positions (requests : Requests resourceIds need nodes) (inside : nodeId ∈ nodes) :
    (need nodeId).Pairwise (fun a b => position resourceIds a < position resourceIds b) :=
  (Canonical.insertionSort_idxOf (requests.distinct nodeId inside)
    (requests.known nodeId inside)).mp (requests.ordered nodeId inside)

theorem Requests.sublist_resources (requests : Requests resourceIds need nodes)
    (inside : nodeId ∈ nodes) : (need nodeId).Sublist resourceIds :=
  Canonical.sublist_of_idxOf requests.resources (requests.distinct nodeId inside)
    (requests.known nodeId inside) (requests.positions inside)

/-- The queues after a release: the participant is out, and the first waiters have gone on. -/
def releasedQueues (need : GraphNodeId → List ResourceId)
    (queues : Queues GraphNodeId ResourceId) (nodeId : GraphNodeId) :
    Queues GraphNodeId ResourceId :=
  (promotions need (leave queues nodeId) (openedBy queues nodeId (need nodeId))).foldl
    (fun queues move => visit queues move.1 move.2) (leave queues nodeId)

theorem released_snapshotOf (requests : Requests resourceIds need nodes)
    (settled : Settled need nodes [] queues) (once : ∀ r, (queues r).Nodup)
    (inside : nodeId ∈ nodes) (owns : ∀ r ∈ need nodeId, (queues r).head? = some nodeId) :
    released (snapshotOf resourceIds need nodes queues []) nodeId (need nodeId) =
      snapshotOf resourceIds need (nodes.filter (· ≠ nodeId))
        (releasedQueues need queues nodeId) [] ∧
    Settled need (nodes.filter (· ≠ nodeId)) [] (releasedQueues need queues nodeId) := by
  have remaining := requests.sublist (List.filter_sublist (l := nodes) (p := (· ≠ nodeId)))
  have pending : (openedBy queues nodeId (need nodeId)).Sublist resourceIds :=
    List.filter_sublist.trans (requests.sublist_resources inside)
  have occupied : ∀ x ∈ openedBy queues nodeId (need nodeId), leave queues nodeId x ≠ [] :=
    fun x isOpen => by simpa using (List.mem_filter.mp isOpen).2
  obtain ⟨woken, result⟩ := wake_range remaining [] resourceIds rfl pending occupied
    (settled.departure owns)
  refine ⟨?_, result⟩
  have cleared := clearOwners_snapshotOf requests settled once inside owns
  have others := remaining_acquisitions settled owns
  simp only [List.length_nil, ← List.range_eq_range'] at woken
  simp only [released, snapshotOf, cleared, others, List.length_map, woken]
  rfl

/-! ## Validation of the result -/

theorem nodup_of_ordered {lt : GraphNodeId → GraphNodeId → Prop} [IsStrictOrder GraphNodeId lt]
    (ordered : Ordered lt queues) (r : ResourceId) : (queues r).Nodup :=
  (ordered r).imp (fun h => ne_of_irrefl h)

/-- The order of acquisition. -/
def acquiredBefore (nodes : List GraphNodeId) (a b : GraphNodeId) : Prop :=
  nodes.idxOf a < nodes.idxOf b

instance (nodes : List GraphNodeId) : IsStrictOrder GraphNodeId (acquiredBefore nodes) where
  irrefl _ := Nat.lt_irrefl _
  trans _ _ _ := Nat.lt_trans

theorem lockOf_injective {queues' : Queues GraphNodeId ResourceId} {r : ResourceId}
    (same : lockOf queues [] r = lockOf queues' [] r) : queues r = queues' r := by
  simp only [lockOf, List.not_mem_nil, if_false, ResourceLock.mk.injEq, true_and] at same
  cases queue : queues r <;> cases queue' : queues' r <;> simp_all

/-- Every queue of the family that participants build is in their order. -/
theorem Requests.stand_ordered {order : List GraphNodeId} (requests : Requests resourceIds need nodes)
    (inOrder : nodes.Pairwise (acquiredBefore order)) :
    Ordered (acquiredBefore order) (stand need nodes) :=
  OrderedQueues.stand_ordered inOrder requests.participants requests.distinct

theorem Requests.stand_nodup (requests : Requests resourceIds need nodes) (r : ResourceId) :
    (stand need nodes r).Nodup :=
  nodup_of_ordered (requests.stand_ordered (Canonical.pairwise_idxOf requests.participants)) r

/-- A settled family is a valid snapshot exactly when it is the one its participants build when
they stand in order. -/
theorem validateResourceSnapshot_snapshotOf (requests : Requests resourceIds need nodes)
    (settled : Settled need nodes [] queues) (u : Unit) :
    validateResourceSnapshot (snapshotOf resourceIds need nodes queues []) = .ok u ↔
      queues = stand need nodes := by
  have replayed := replay_snapshotOf requests
    (snapshotOf resourceIds need nodes queues []).acquisitions
    (by simp [snapshotOf, acquisitionOf])
  rw [validateResourceSnapshot_eq_ok, snapshotOf_resourceIds, replayed, Except.ok.injEq]
  constructor
  · rintro ⟨-, same⟩
    have locks : ∀ r ∈ resourceIds, stand need nodes r = queues r := by
      intro r known
      have sameLocks := congrArg ResourceSnapshot.resources same
      simp only [snapshotOf, List.map_inj_left] at sameLocks
      exact lockOf_injective (sameLocks r known)
    funext r
    by_cases known : r ∈ resourceIds
    · exact (locks r known).symm
    · -- nobody needs an unknown resource
      have empty : ∀ (family : Queues GraphNodeId ResourceId), Settled need nodes [] family →
          family r = [] := by
        intro family familySettled
        refine List.eq_nil_iff_forall_not_mem.mpr (fun n member => ?_)
        obtain ⟨inside, needed⟩ := familySettled.within r n member
        exact known (requests.known n inside needed)
      rw [empty _ settled, empty _ requests.settled]
  · rintro rfl
    exact ⟨validSnapshot_snapshotOf requests settled requests.stand_nodup, rfl⟩

/-- A settled family is in the order of its participants exactly when it is the one they build. -/
theorem ordered_iff_stand {order : List GraphNodeId} (requests : Requests resourceIds need nodes)
    (inOrder : nodes.Pairwise (acquiredBefore order)) (settled : Settled need nodes [] queues) :
    Ordered (acquiredBefore order) queues ↔ queues = stand need nodes := by
  constructor
  · intro ordered
    exact Settled.unique (fun n member => requests.positions member) settled ordered
      requests.settled (requests.stand_ordered inOrder)
  · rintro rfl
    exact requests.stand_ordered inOrder

/-! ## Snapshots as they are stored -/

/-- The resources a participant of a snapshot needs. -/
def needOf (snapshot : ResourceSnapshot) (nodeId : GraphNodeId) : List ResourceId :=
  match snapshot.acquisitions.find? (fun item => item.nodeId = nodeId) with
  | some acquisition => acquisition.required
  | none => []

/-- Everyone at a resource, its owner first. -/
def queueAt (snapshot : ResourceSnapshot) (resourceId : ResourceId) : List GraphNodeId :=
  let lock := lockAt snapshot.resources resourceId
  lock.owner.toList ++ lock.waiters

/-- The participants of a snapshot, in the order in which they acquired. -/
def participants (snapshot : ResourceSnapshot) : List GraphNodeId :=
  snapshot.acquisitions.map (·.nodeId)

/-- When a participant leaves, the first waiter of each of its resources goes on, in resource
order, and at every resource it then reaches it finds only participants that acquired before it. -/
def PromotionsInOrder (snapshot : ResourceSnapshot) (nodeId : GraphNodeId) : Prop :=
  let queues := queueAt snapshot
  InOrder (acquiredBefore (participants snapshot)) (leave queues nodeId)
    (promotions (needOf snapshot) (leave queues nodeId)
      (openedBy queues nodeId (needOf snapshot nodeId)))

theorem find_acquisition {snapshot : ResourceSnapshot} {acquisition : ResourceAcquisition}
    (distinct : (participants snapshot).Nodup) (member : acquisition ∈ snapshot.acquisitions) :
    snapshot.acquisitions.find? (fun item => item.nodeId = acquisition.nodeId) =
      some acquisition := by
  cases found : snapshot.acquisitions.find? (fun item => item.nodeId = acquisition.nodeId) with
  | none => simpa using List.find?_eq_none.mp found acquisition member
  | some other =>
      have same : other.nodeId = acquisition.nodeId := by simpa using List.find?_some found
      rw [List.inj_on_of_nodup_map distinct (List.mem_of_find?_eq_some found) member same]

theorem needOf_acquisition {snapshot : ResourceSnapshot} {acquisition : ResourceAcquisition}
    (distinct : (participants snapshot).Nodup) (member : acquisition ∈ snapshot.acquisitions) :
    needOf snapshot acquisition.nodeId = acquisition.required := by
  rw [needOf, find_acquisition distinct member]

/-- A validated snapshot is the family of queues its participants build. -/
theorem validated_snapshot {snapshot : ResourceSnapshot}
    (valid : validateResourceSnapshot snapshot = .ok ()) :
    Requests (snapshot.resources.map (·.resourceId)) (needOf snapshot) (participants snapshot) ∧
    snapshot = snapshotOf (snapshot.resources.map (·.resourceId)) (needOf snapshot)
      (participants snapshot) (stand (needOf snapshot) (participants snapshot)) [] := by
  obtain ⟨shape, replayed⟩ := (validateResourceSnapshot_eq_ok _ _).mp valid
  have each : ∀ n ∈ participants snapshot, ∃ acquisition ∈ snapshot.acquisitions,
      acquisition.nodeId = n ∧ needOf snapshot n = acquisition.required := by
    intro n member
    obtain ⟨acquisition, inside, rfl⟩ := List.mem_map.mp member
    exact ⟨acquisition, inside, rfl, needOf_acquisition shape.participants inside⟩
  have request : ∀ n ∈ participants snapshot, isCanonicalIdentity n = true ∧
      needOf snapshot n ≠ [] ∧ (needOf snapshot n).Nodup ∧
      needOf snapshot n ⊆ snapshot.resources.map (·.resourceId) ∧
      inPositionOrder (snapshot.resources.map (·.resourceId)) (needOf snapshot n) =
        needOf snapshot n := by
    intro n member
    obtain ⟨acquisition, inside, rfl, same⟩ := each n member
    have own := shape.requests acquisition inside
    rw [same]
    exact ⟨own.identity, own.nonempty, own.distinct, own.known, own.ordered⟩
  have requests : Requests (snapshot.resources.map (·.resourceId)) (needOf snapshot)
      (participants snapshot) :=
    { resources := shape.resources
      resourceIdentities := by
        intro r member
        obtain ⟨lock, inside, rfl⟩ := List.mem_map.mp member
        exact (shape.locks lock inside).identity
      participants := shape.participants
      nodeIdentities := fun n member => (request n member).1
      nonempty := fun n member => (request n member).2.1
      distinct := fun n member => (request n member).2.2.1
      known := fun n member => (request n member).2.2.2.1
      ordered := fun n member => (request n member).2.2.2.2 }
  refine ⟨requests, ?_⟩
  have stood := replay_snapshotOf requests snapshot.acquisitions (by
    simp only [participants, List.map_map]
    refine List.map_congr_left (fun acquisition inside => ?_)
    simp [needOf_acquisition shape.participants inside])
  rw [replayed] at stood
  exact Except.ok.inj stood

theorem queueAt_snapshotOf (requests : Requests resourceIds need nodes)
    (settled : Settled need nodes [] queues) :
    queueAt (snapshotOf resourceIds need nodes queues []) = queues := by
  funext r
  by_cases known : r ∈ resourceIds
  · rw [queueAt, snapshotOf, lockAt_lockOf known]
    cases queue : queues r <;> simp [lockOf, queue]
  · have empty : queues r = [] := by
      refine List.eq_nil_iff_forall_not_mem.mpr (fun n member => ?_)
      obtain ⟨inside, needed⟩ := settled.within r n member
      exact known (requests.known n inside needed)
    have missing : resourceIds.length ≤ resourceIds.idxOf r := by
      rw [List.idxOf_eq_length known]
    rw [queueAt, lockAt, position, snapshotOf_resourceIds, snapshotOf, empty,
      List.getD_eq_getElem?_getD, List.getElem?_eq_none (by simpa using missing)]
    rfl

/-- An admitted participant heads the queue of everything it needs. -/
theorem admitted_owns (admitted : (acquisitionOf need queues [] nodeId).admitted = true) :
    ∀ r ∈ need nodeId, (queues r).head? = some nodeId := by
  intro r needed
  have all : held queues [] nodeId (need nodeId) = need nodeId := by
    simp only [ResourceAcquisition.admitted, acquisitionOf, Bool.and_eq_true, beq_iff_eq] at admitted
    exact admitted.1
  rw [← all] at needed
  exact (holds_of_mem_held needed).1

section Snapshot

variable {snapshot : ResourceSnapshot} {acquisition : ResourceAcquisition}
  (valid : validateResourceSnapshot snapshot = .ok ())
  (member : acquisition ∈ snapshot.acquisitions) (admitted : acquisition.admitted = true)

include valid member admitted

/-- An admitted participant of a validated snapshot heads every queue it needs. -/
theorem admitted_heads :
    ∀ r ∈ needOf snapshot acquisition.nodeId,
      (stand (needOf snapshot) (participants snapshot) r).head? = some acquisition.nodeId := by
  obtain ⟨requests, shape⟩ := validated_snapshot valid
  have inside : acquisition.nodeId ∈ participants snapshot := List.mem_map_of_mem member
  have own : acquisition = acquisitionOf (needOf snapshot)
      (stand (needOf snapshot) (participants snapshot)) [] acquisition.nodeId := by
    have other : ((participants snapshot).map (acquisitionOf (needOf snapshot)
        (stand (needOf snapshot) (participants snapshot)) [])).find? _ = _ :=
      find_acquisitionOf inside
    have acquisitions := congrArg ResourceSnapshot.acquisitions shape
    simp only [snapshotOf] at acquisitions
    rw [← acquisitions, find_acquisition requests.participants member] at other
    exact Option.some.inj other
  exact admitted_owns (own ▸ admitted)

/-- What `_release` returns for an admitted participant: the queues of the others, with the
promotions the departure causes. -/
theorem release_standing :
    applyCommand snapshot (.releaseResources acquisition.nodeId) =
      .ok (snapshotOf (snapshot.resources.map (·.resourceId)) (needOf snapshot)
        ((participants snapshot).filter (· ≠ acquisition.nodeId))
        (releasedQueues (needOf snapshot) (stand (needOf snapshot) (participants snapshot))
          acquisition.nodeId) []) ∧
    Settled (needOf snapshot) ((participants snapshot).filter (· ≠ acquisition.nodeId)) []
      (releasedQueues (needOf snapshot) (stand (needOf snapshot) (participants snapshot))
        acquisition.nodeId) := by
  obtain ⟨requests, shape⟩ := validated_snapshot valid
  have inside : acquisition.nodeId ∈ participants snapshot := List.mem_map_of_mem member
  have acquired : acquisition.acquired = needOf snapshot acquisition.nodeId := by
    rw [needOf_acquisition requests.participants member]
    simp only [ResourceAcquisition.admitted, Bool.and_eq_true, beq_iff_eq] at admitted
    exact admitted.1
  obtain ⟨result, settled⟩ := released_snapshotOf requests requests.settled requests.stand_nodup
    inside (admitted_heads valid member admitted)
  rw [← shape] at result
  refine ⟨?_, settled⟩
  simp only [applyCommand, bind_unit_eq_ok, requireIdentity_eq_ok, release_eq_ok]
  refine ⟨requests.nodeIdentities _ inside, acquisition,
    find_acquisition requests.participants member, admitted, ?_⟩
  rw [acquired, result]

/-- The release of an admitted participant, and when its result passes the validation. -/
theorem release_admitted :
    ∃ result, applyCommand snapshot (.releaseResources acquisition.nodeId) = .ok result ∧
      result.acquisitions.map (fun item => (item.nodeId, item.required)) =
        (snapshot.acquisitions.filter (fun item => item.nodeId ≠ acquisition.nodeId)).map
          (fun item => (item.nodeId, item.required)) ∧
      (validateResourceSnapshot result = .ok () ↔
        PromotionsInOrder snapshot acquisition.nodeId) := by
  obtain ⟨requests, shape⟩ := validated_snapshot valid
  obtain ⟨applied, settled⟩ := release_standing valid member admitted
  have order := Canonical.pairwise_idxOf requests.participants
  have queuesEq := queueAt_snapshotOf requests requests.settled
  rw [← shape] at queuesEq
  have remaining := requests.sublist
    (List.filter_sublist (l := participants snapshot) (p := (· ≠ acquisition.nodeId)))
  refine ⟨_, applied, ?_, ?_⟩
  · simp only [snapshotOf, participants, List.map_map, List.filter_map]
    refine List.map_congr_left (fun item kept => ?_)
    have itemMember := (List.mem_filter.mp kept).1
    simp [acquisitionOf, needOf_acquisition requests.participants itemMember]
  · rw [validateResourceSnapshot_snapshotOf remaining settled,
      ← ordered_iff_stand remaining (order.sublist List.filter_sublist) settled,
      releasedQueues, ordered_foldl_visit, PromotionsInOrder, queuesEq]
    refine and_iff_right (fun r => ?_)
    exact (requests.stand_ordered order r).sublist List.filter_sublist

/-- `reduce_resources` releases an admitted participant exactly when its promotions are in
order. -/
theorem reduceResources_release_iff :
    (∃ result, reduceResources snapshot (.releaseResources acquisition.nodeId) = .ok result ∧
      validateResourceSnapshot result = .ok () ∧
      result.acquisitions.map (fun item => (item.nodeId, item.required)) =
        (snapshot.acquisitions.filter (fun item => item.nodeId ≠ acquisition.nodeId)).map
          (fun item => (item.nodeId, item.required))) ↔
      PromotionsInOrder snapshot acquisition.nodeId := by
  obtain ⟨result, applied, remaining, validIff⟩ := release_admitted valid member admitted
  rw [← validIff]
  constructor
  · rintro ⟨other, reduced, -, -⟩
    obtain ⟨-, otherApplied, otherValid⟩ := (reduceResources_eq_ok _ _ _).mp reduced
    obtain rfl : result = other := Except.ok.inj (applied.symm.trans otherApplied)
    exact otherValid
  · intro resultValid
    exact ⟨result, (reduceResources_eq_ok _ _ _).mpr ⟨valid, applied, resultValid⟩, resultValid,
      remaining⟩

/-- The release raises nothing exactly when its promotions are in order. -/
theorem reduceResources_release_ok_iff :
    (∃ result, reduceResources snapshot (.releaseResources acquisition.nodeId) = .ok result) ↔
      PromotionsInOrder snapshot acquisition.nodeId := by
  rw [← reduceResources_release_iff valid member admitted]
  constructor
  · rintro ⟨result, reduced⟩
    obtain ⟨other, applied, remaining, -⟩ := release_admitted valid member admitted
    obtain ⟨-, resultApplied, resultValid⟩ := (reduceResources_eq_ok _ _ _).mp reduced
    obtain rfl : other = result := Except.ok.inj (applied.symm.trans resultApplied)
    exact ⟨other, reduced, resultValid, remaining⟩
  · rintro ⟨result, reduced, -, -⟩
    exact ⟨result, reduced⟩

end Snapshot

end ResourceReducer
end MoteKernel
