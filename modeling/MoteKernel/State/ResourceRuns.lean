import MoteKernel.State.ResourceOrder

/-!
# Runs of resource commands

What holds of the snapshot after any sequence of `_acquire` and `_release`, without
the replay that `validate_resource_snapshot` adds: every snapshot is a settled family
of queues, so it passes the structural validation, no free resource has a waiter, every
queue is served from its head, and somebody is always admitted.
-/

namespace MoteKernel
namespace ResourceReducer
open Checked OrderedQueues

variable {resourceIds : List ResourceId} {need : GraphNodeId → List ResourceId}
  {nodes : List GraphNodeId} {queues : Queues GraphNodeId ResourceId} {nodeId : GraphNodeId}

/-- The snapshot a caller has after one command: a command that raises changes nothing. -/
def attempt (snapshot : ResourceSnapshot) (command : ResourceCommand) : ResourceSnapshot :=
  match applyCommand snapshot command with
  | .ok result => result
  | .error _ => snapshot

/-- The snapshot after a sequence of commands. -/
def attempts (snapshot : ResourceSnapshot) (commands : List ResourceCommand) :
    ResourceSnapshot :=
  commands.foldl attempt snapshot

/-! ## The invariant -/

/-- A snapshot is a settled family of queues in which everybody stands at most once in a queue. -/
structure Standing (snapshot : ResourceSnapshot) (resourceIds : List ResourceId)
    (need : GraphNodeId → List ResourceId) (nodes : List GraphNodeId)
    (queues : Queues GraphNodeId ResourceId) : Prop where
  shape : snapshot = snapshotOf resourceIds need nodes queues []
  requests : Requests resourceIds need nodes
  settled : Settled need nodes [] queues
  once : ∀ r, (queues r).Nodup

theorem standing_free (valid : validateSnapshot (freeSnapshot resourceIds) = .ok ()) :
    Standing (freeSnapshot resourceIds) resourceIds (fun _ => []) [] (fun _ => []) := by
  have shape := (validateSnapshot_eq_ok _ _).mp valid
  have ids : (freeSnapshot resourceIds).resources.map (·.resourceId) = resourceIds := by
    simp [freeSnapshot, Function.comp_def]
  refine ⟨by simp [freeSnapshot, snapshotOf, lockOf], ?_, settled_empty, fun _ => List.nodup_nil⟩
  refine ⟨ids ▸ shape.resources, ?_, List.nodup_nil, by simp, by simp, by simp, by simp, by simp⟩
  intro r member
  exact (shape.locks ⟨r, none, []⟩ (List.mem_map.mpr ⟨r, member, rfl⟩)).identity

/-- What a snapshot says does not depend on what outsiders would need. -/
theorem Standing.congr {snapshot : ResourceSnapshot} {need' : GraphNodeId → List ResourceId}
    (standing : Standing snapshot resourceIds need nodes queues)
    (same : ∀ n ∈ nodes, need' n = need n) : Standing snapshot resourceIds need' nodes queues := by
  obtain ⟨shape, requests, settled, once⟩ := standing
  refine ⟨?_, ?_, ?_, once⟩
  · rw [shape]
    simp only [snapshotOf, ResourceSnapshot.mk.injEq, true_and]
    refine List.map_congr_left (fun n member => ?_)
    simp only [acquisitionOf, same n member]
  · refine ⟨requests.resources, requests.resourceIdentities, requests.participants,
      requests.nodeIdentities, ?_, ?_, ?_, ?_⟩
    all_goals
      intro n member
      rw [same n member]
    · exact requests.nonempty n member
    · exact requests.distinct n member
    · exact requests.known n member
    · exact requests.ordered n member
  · refine ⟨fun r n member => ?_, fun n member => ?_⟩
    · have inside := settled.within r n member
      rw [same n inside.1]
      exact inside
    · rw [same n member]
      exact settled.arrived n member

/-! ## Steps -/

/-- The guards of `_acquire` for a request that is not empty. -/
theorem acquire_guards {snapshot result : ResourceSnapshot} {requested : List ResourceId}
    (nonempty : requested ≠ []) (acquired : acquire snapshot nodeId requested = .ok result) :
    isCanonicalIdentity nodeId = true ∧ nodeId ∉ snapshot.acquisitions.map (·.nodeId) ∧
      requested.Nodup ∧ requested ⊆ snapshot.resources.map (·.resourceId) ∧
      inPositionOrder (snapshot.resources.map (·.resourceId)) requested = requested := by
  unfold acquire at acquired
  simp only [bind_eq_ok, exists_unit, requireIdentity_eq_ok, if_neg nonempty, raiseIf_eq_ok,
    not_not, ne_eq] at acquired
  obtain ⟨identity, fresh, distinct, known, ordered, -⟩ := acquired
  exact ⟨identity, fresh, distinct, known, ordered⟩

/-- Nothing is asked for, so nothing changes. -/
theorem acquire_nothing {snapshot result : ResourceSnapshot}
    (acquired : acquire snapshot nodeId [] = .ok result) : result = snapshot := by
  simp only [acquire, bind_eq_ok, exists_unit, if_true, pure_eq_ok, Except.ok.injEq] at acquired
  exact acquired.2.symm

theorem Standing.acquire {snapshot result : ResourceSnapshot} {requested : List ResourceId}
    (standing : Standing snapshot resourceIds need nodes queues) (nonempty : requested ≠ [])
    (acquired : acquire snapshot nodeId requested = .ok result) :
    Standing result resourceIds (Function.update need nodeId requested) (nodes ++ [nodeId])
      (visit queues nodeId requested) := by
  obtain ⟨identity, fresh, distinct, known, ordered⟩ := acquire_guards nonempty acquired
  rw [standing.shape, snapshotOf_nodeIds] at fresh
  rw [standing.shape, snapshotOf_resourceIds] at known ordered
  have other : ∀ n ∈ nodes, Function.update need nodeId requested n = need n := by
    intro n member
    have different : n ≠ nodeId := fun same => fresh (same ▸ member)
    exact Function.update_of_ne different requested need
  have own : Function.update need nodeId requested nodeId = requested :=
    Function.update_self nodeId requested need
  obtain ⟨shape, requests, settled, once⟩ := standing.congr other
  have joined : Requests resourceIds (Function.update need nodeId requested)
      (nodes ++ [nodeId]) := by
    have each : ∀ {p : GraphNodeId → Prop}, (∀ n ∈ nodes, p n) → p nodeId →
        ∀ n ∈ nodes ++ [nodeId], p n := by
      intro p old new n member
      rcases List.mem_append.mp member with inside | isLast
      · exact old n inside
      · rw [List.mem_singleton.mp isLast]
        exact new
    refine ⟨requests.resources, requests.resourceIdentities, ?_, ?_, ?_, ?_, ?_, ?_⟩
    · rw [List.nodup_append]
      refine ⟨requests.participants, List.nodup_singleton _, ?_⟩
      intro n member last isLast same
      rw [List.mem_singleton.mp isLast] at same
      exact fresh (same ▸ member)
    · exact each requests.nodeIdentities identity
    · exact each requests.nonempty (own.symm ▸ nonempty)
    · exact each requests.distinct (own.symm ▸ distinct)
    · exact each requests.known (own.symm ▸ known)
    · exact each requests.ordered (own.symm ▸ ordered)
  have step := acquire_snapshotOf settled joined
  rw [own, ← shape, acquired, Except.ok.injEq] at step
  have settledJoined := settled.join fresh (own.symm ▸ distinct)
  rw [own] at settledJoined
  refine ⟨step, joined, settledJoined, ?_⟩
  apply nodup_visit once
  intro x _ member
  exact fresh (settled.within x nodeId member).1

theorem Standing.release {snapshot result : ResourceSnapshot}
    (standing : Standing snapshot resourceIds need nodes queues)
    (released : release snapshot nodeId = .ok result) :
    Standing result resourceIds need (nodes.filter (· ≠ nodeId))
        (releasedQueues need queues nodeId) ∧
      ∀ r ∈ need nodeId, (queues r).head? = some nodeId := by
  obtain ⟨shape, requests, settled, once⟩ := standing
  obtain ⟨acquisition, found, admitted, rfl⟩ := (release_eq_ok _ _ _).mp released
  have inside : nodeId ∈ nodes := by
    have member := List.mem_of_find?_eq_some found
    have same : acquisition.nodeId = nodeId := by simpa using List.find?_some found
    have ids : snapshot.acquisitions.map (·.nodeId) = nodes := by
      rw [shape, snapshotOf_nodeIds]
    rw [← ids, ← same]
    exact List.mem_map_of_mem member
  rw [shape, snapshotOf, find_acquisitionOf inside, Option.some.injEq] at found
  subst found
  have owns := admitted_owns admitted
  have acquired : (acquisitionOf need queues [] nodeId).acquired = need nodeId := by
    simp only [ResourceAcquisition.admitted, Bool.and_eq_true, beq_iff_eq] at admitted
    exact admitted.1
  obtain ⟨step, settledAfter⟩ := released_snapshotOf requests settled once inside owns
  refine ⟨⟨?_, requests.sublist List.filter_sublist, settledAfter, ?_⟩, owns⟩
  · rw [acquired, shape]
    exact step
  · intro r
    have remaining := requests.sublist (List.filter_sublist (l := nodes) (p := (· ≠ nodeId)))
    apply nodup_promotions remaining.distinct
    · exact (requests.distinct nodeId inside).sublist List.filter_sublist
    · intro x isOpen
      simpa using (List.mem_filter.mp isOpen).2
    · exact settled.departure owns
    · intro x
      exact (once x).sublist List.filter_sublist

/-- A queue, its owner first, goes on: at most the owner has left, and newcomers stand behind
everybody else. -/
def QueueGoesOn (before after : List GraphNodeId) : Prop :=
  ∃ newcomers, after = before ++ newcomers ∨ after = before.tail ++ newcomers

theorem QueueGoesOn.refl (queue : List GraphNodeId) : QueueGoesOn queue queue :=
  ⟨[], .inl (List.append_nil queue).symm⟩

theorem Standing.queueAt {snapshot : ResourceSnapshot}
    (standing : Standing snapshot resourceIds need nodes queues) :
    queueAt snapshot = queues := by
  rw [standing.shape]
  exact queueAt_snapshotOf standing.requests standing.settled

/-- Every command keeps the invariant, and every queue goes on. -/
theorem Standing.applyCommand {snapshot result : ResourceSnapshot} {command : ResourceCommand}
    (standing : Standing snapshot resourceIds need nodes queues)
    (applied : applyCommand snapshot command = .ok result) :
    ∃ need' nodes' queues', Standing result resourceIds need' nodes' queues' ∧
      ∀ r, QueueGoesOn (queues r) (queues' r) := by
  cases command with
  | acquireResources newNode requested =>
      by_cases nothing : requested = []
      · subst nothing
        rw [acquire_nothing applied]
        exact ⟨need, nodes, queues, standing, fun r => .refl (queues r)⟩
      · refine ⟨_, _, _, standing.acquire nothing applied, fun r => ?_⟩
        unfold visit
        split
        · exact ⟨[newNode], .inl rfl⟩
        · exact .refl (queues r)
  | releaseResources leaving =>
      simp only [ResourceReducer.applyCommand, bind_unit_eq_ok] at applied
      obtain ⟨kept, owns⟩ := standing.release applied.2
      refine ⟨_, _, _, kept, fun r => ?_⟩
      obtain ⟨newcomers, grown⟩ : leave queues leaving r <+: releasedQueues need queues leaving r :=
        prefix_foldl_visit _ r
      refine ⟨newcomers, ?_⟩
      rw [← grown]
      by_cases released : r ∈ need leaving
      · rw [leave_of_head (standing.once r) (owns r released)]
        exact .inr rfl
      · rw [leave_of_not_needed standing.settled released]
        exact .inl rfl

theorem Standing.attempt {snapshot : ResourceSnapshot}
    (standing : Standing snapshot resourceIds need nodes queues) (command : ResourceCommand) :
    ∃ need' nodes' queues', Standing (attempt snapshot command) resourceIds need' nodes' queues' ∧
      ∀ r, QueueGoesOn (queues r) (queues' r) := by
  unfold ResourceReducer.attempt
  cases applied : ResourceReducer.applyCommand snapshot command with
  | ok result => exact standing.applyCommand applied
  | error failure => exact ⟨need, nodes, queues, standing, fun r => .refl (queues r)⟩

/-! ## Runs -/

/-- After any commands, the invariant holds again, and what is left of a queue is a rest of it with
newcomers behind. -/
theorem Standing.attempts {snapshot : ResourceSnapshot}
    (standing : Standing snapshot resourceIds need nodes queues)
    (commands : List ResourceCommand) :
    ∃ need' nodes' queues',
      Standing (attempts snapshot commands) resourceIds need' nodes' queues' ∧
      ∀ r, ∃ served newcomers, queues' r = (queues r).drop served ++ newcomers := by
  induction commands generalizing snapshot need nodes queues with
  | nil => exact ⟨need, nodes, queues, standing, fun r => ⟨0, [], by simp⟩⟩
  | cons command commands ih =>
      obtain ⟨need₁, nodes₁, queues₁, standing₁, first⟩ := standing.attempt command
      obtain ⟨need₂, nodes₂, queues₂, standing₂, later⟩ := ih standing₁
      refine ⟨need₂, nodes₂, queues₂, standing₂, fun r => ?_⟩
      obtain ⟨joined, step⟩ := first r
      obtain ⟨served, newcomers, rest⟩ := later r
      rcases step with stays | leaves
      · refine ⟨served, joined.drop (served - (queues r).length) ++ newcomers, ?_⟩
        rw [rest, stays, List.drop_append, List.append_assoc]
      · refine ⟨served + 1, joined.drop (served - (queues r).tail.length) ++ newcomers, ?_⟩
        rw [rest, leaves, List.drop_append, List.append_assoc, List.drop_tail]

/-- What is true of a snapshot at any moment of the protocol. -/
structure SafeSnapshot (snapshot : ResourceSnapshot) : Prop where
  valid : validateSnapshot snapshot = .ok ()
  oneOwner : ∀ a ∈ snapshot.acquisitions, ∀ b ∈ snapshot.acquisitions,
    ∀ r ∈ a.acquired, r ∈ b.acquired → a = b
  noLostWakeup : ∀ lock ∈ snapshot.resources, lock.owner = none → lock.waiters = []
  noDeadlock : snapshot.acquisitions ≠ [] →
    ∃ acquisition ∈ snapshot.acquisitions, acquisition.admitted = true

theorem Standing.safe {snapshot : ResourceSnapshot}
    (standing : Standing snapshot resourceIds need nodes queues) : SafeSnapshot snapshot := by
  obtain ⟨rfl, requests, settled, once⟩ := standing
  refine ⟨?_, ?_, ?_, ?_⟩
  · rw [validateSnapshot_eq_ok]
    exact validSnapshot_snapshotOf requests settled once
  · intro a memberA b memberB r takenA takenB
    obtain ⟨n, -, rfl⟩ := List.mem_map.mp memberA
    obtain ⟨m, -, rfl⟩ := List.mem_map.mp memberB
    have headA := (holds_of_mem_held takenA).1
    have headB := (holds_of_mem_held takenB).1
    rw [Option.some.inj (headA.symm.trans headB)]
  · intro lock member free
    obtain ⟨r, -, rfl⟩ := List.mem_map.mp member
    simp only [lockOf, List.not_mem_nil, if_false, List.head?_eq_none_iff] at free ⊢
    rw [free, List.tail_nil]
  · intro outstanding
    have some_ : nodes ≠ [] := by
      rintro rfl
      exact outstanding rfl
    obtain ⟨n, inside, holding⟩ :=
      settled.exists_holding_all (fun n member => requests.positions member) some_
    exact ⟨_, List.mem_map_of_mem inside, admitted_of_owns (fun r needed => (holding r needed).1)⟩

/-- From the all-free snapshot, any sequence of acquisitions and releases leaves a valid snapshot
in which no resource has two owners, no free resource has a waiter and somebody is admitted while
anybody is there. The next command serves every queue from its head, and so does any later run. -/
theorem resource_runs_safe (resourceIds : List ResourceId)
    (free : validateSnapshot (freeSnapshot resourceIds) = .ok ())
    (commands : List ResourceCommand) :
    let snapshot := attempts (freeSnapshot resourceIds) commands
    SafeSnapshot snapshot ∧
    (∀ command r, QueueGoesOn (queueAt snapshot r) (queueAt (attempt snapshot command) r)) ∧
    (∀ later r, ∃ served newcomers, queueAt (attempts snapshot later) r =
      (queueAt snapshot r).drop served ++ newcomers) := by
  intro snapshot
  obtain ⟨need, nodes, queues, standing, -⟩ := (standing_free free).attempts commands
  refine ⟨standing.safe, ?_, ?_⟩
  · intro command r
    obtain ⟨_, _, queues', next, goesOn⟩ := standing.attempt command
    rw [standing.queueAt, next.queueAt]
    exact goesOn r
  · intro later r
    obtain ⟨_, _, queues', next, rest⟩ := standing.attempts later
    rw [standing.queueAt, next.queueAt]
    exact rest r

/-- A release that cascades: `n2` is woken at `a`, goes on and queues at `c`. -/
theorem resource_runs_safe_cascade :
    let snapshot := attempts (freeSnapshot ["a", "b", "c"])
      [.acquireResources "n1" ["a", "b"], .acquireResources "n2" ["a", "c"],
        .acquireResources "n3" ["c"], .releaseResources "n1"]
    snapshot.resources = [⟨"a", some "n2", []⟩, ⟨"b", none, []⟩, ⟨"c", some "n3", ["n2"]⟩] ∧
    SafeSnapshot snapshot :=
  ⟨by decide +kernel, (resource_runs_safe ["a", "b", "c"] (by decide +kernel) _).1⟩

end ResourceReducer
end MoteKernel
