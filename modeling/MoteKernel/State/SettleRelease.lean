import MoteKernel.State.Preservation
import MoteKernel.State.ResourceRelease

/-!
# Settlement and the release of resources

`settle_graph_node` releases the acquisition of the node it settles. It fails
there exactly when the release promotes a waiter into a queue behind a
participant that acquired after it: the validation then replays another order
than the one the waiters took.
-/

namespace MoteKernel
open Checked Canonical

/-- What `settle_graph_node` raises when the release of its node fails. -/
def releaseError : GraphStateError :=
  .transition "completed node cannot release its resource acquisition"

theorem settleOutcome_ne_releaseError (state : GraphRunState) (command : SettleGraphNode) :
    settleOutcome state command ≠ .error releaseError := by
  intro failed
  unfold settleOutcome at failed
  split at failed
  · simp only [bind_eq_error, raiseIf_eq_error, pure_eq_ok, releaseError, makeActivationReference]
      at failed
    simp at failed
  · simp [releaseError] at failed
  · simp [releaseError] at failed

theorem settleConfigCursor_ne_releaseError (state : GraphRunState) (command : SettleGraphNode) :
    settleConfigCursor state command ≠ .error releaseError := by
  intro failed
  unfold settleConfigCursor at failed
  split at failed
  · simp at failed
  · simp only [rethrow_eq_error, releaseError] at failed
    obtain ⟨error, raised, message⟩ := failed
    cases error with
    | malformed => simp at message
    | value text =>
        simp only [GraphStateError.transition.injEq] at message
        subst message
        unfold GraphConfigCursor.transitionTo GraphConfigCursor.admitted at raised
        split_ifs at raised <;> simp at raised

theorem requireExecutionLease_ne_releaseError (state : GraphRunState)
    (token : GraphExecutionToken) : requireExecutionLease state token ≠ .error releaseError := by
  simp [requireExecutionLease, releaseError]

/-- The release error comes from the release alone. -/
theorem settleGraphNode_eq_releaseError (state : GraphRunState) (command : SettleGraphNode) :
    settleGraphNode state command = .error releaseError ↔
      state.status = .running ∧ state.execution = some ⟨command.execution⟩ ∧
      (∃ node ∈ frontierNode state.frontier command.outcome.nodeId,
        node.settlement.isPending = true) ∧
      (∃ settlement ledger, settleOutcome state command = .ok (settlement, ledger)) ∧
      (∃ cursor, settleConfigCursor state command = .ok cursor) ∧
      settleResources state.resources command.outcome.nodeId = .error releaseError := by
  have running : GraphStateError.transition "only a running graph execution can settle a node" ≠
      releaseError := by simp [releaseError]
  have pending : GraphStateError.transition "node settlement requires a current pending node" ≠
      releaseError := by simp [releaseError]
  simp only [settleGraphNode, bind_eq_error, exists_unit, raiseIf_eq_ok, raiseIf_eq_error, running,
    pending, and_false, false_or, requireExecutionLease_ne_releaseError,
    requireExecutionLease_eq_ok, settleOutcome_ne_releaseError, settleConfigCursor_ne_releaseError,
    Prod.exists, pure_eq_ok, reduceCtorEq, exists_false, or_false, ne_eq, not_not]
  constructor
  · rintro ⟨a, b, c, settlement, ledger, outcome, cursor, cursorOk, raised⟩
    exact ⟨a, b, c, ⟨settlement, ledger, outcome⟩, ⟨cursor, cursorOk⟩, raised⟩
  · rintro ⟨a, b, c, ⟨settlement, ledger, outcome⟩, ⟨cursor, cursorOk⟩, raised⟩
    exact ⟨a, b, c, settlement, ledger, outcome, cursor, cursorOk, raised⟩

section Release

variable {state : GraphRunState} {snapshot : ResourceSnapshot} {acquisition : ResourceAcquisition}
  (valid : ValidRun state) (resources : state.resources = some snapshot)
  (member : acquisition ∈ snapshot.acquisitions) (admitted : acquisition.admitted = true)

include valid resources member admitted

/-- Settling an admitted node fails with the release error for some command exactly when its
promotions are out of order, and then it does so for a plain failure of the node too. -/
theorem settle_release_iff :
    (∀ command : SettleGraphNode, command.outcome.nodeId = acquisition.nodeId →
      settleGraphNode state command ≠ .error releaseError) ↔
    ResourceReducer.PromotionsInOrder snapshot acquisition.nodeId := by
  have run := valid.resources snapshot resources
  have participant : acquisition.nodeId ∈ snapshot.acquisitions.map (·.nodeId) :=
    List.mem_map_of_mem member
  have released : settleResources state.resources acquisition.nodeId = .error releaseError ↔
      ¬ ResourceReducer.PromotionsInOrder snapshot acquisition.nodeId := by
    rw [← ResourceReducer.reduceResources_release_ok_iff run.snapshot member admitted]
    cases reduced : ResourceReducer.reduceResources snapshot
        (.releaseResources acquisition.nodeId) with
    | error error =>
        simp [settleResources, resources, participant, reduced,
          releaseError]
    | ok result =>
        simp [settleResources, resources, participant, reduced]
  obtain ⟨lease, leased⟩ := Option.ne_none_iff_exists'.mp run.leased
  have running := (valid.lease lease leased).running
  have pending := pending_found valid.frontier.distinct (run.pending participant)
  constructor
  · intro never
    by_contra stuck
    refine never ⟨state.revision, lease.token, .failed acquisition.nodeId "failure", none, none⟩
      rfl ?_
    refine (settleGraphNode_eq_releaseError _ _).mpr ⟨running, leased, pending,
      ⟨.failed "failure", state.settledPublications, ?_⟩, ⟨state.configCursor, rfl⟩,
      released.mpr stuck⟩
    exact (settleOutcome_eq_ok _ _ _ _).mpr (.failed acquisition.nodeId "failure" rfl rfl)
  · intro inOrder command sameNode failed
    obtain ⟨-, -, -, -, -, raised⟩ := (settleGraphNode_eq_releaseError _ _).mp failed
    exact released.mp (sameNode ▸ raised) inOrder

end Release

/-- When the release of an admitted participant goes through: `reduce_resources` returns a valid
successor for the remaining participants, and no settlement of the node is rejected for its
resources, exactly when the promotions it causes are in order. -/
theorem resourceRelease_iff (snapshot : ResourceSnapshot) (acquisition : ResourceAcquisition)
    (valid : ResourceReducer.validateResourceSnapshot snapshot = .ok ())
    (member : acquisition ∈ snapshot.acquisitions) (admitted : acquisition.admitted = true) :
    ((∃ result, ResourceReducer.reduceResources snapshot
          (.releaseResources acquisition.nodeId) = .ok result ∧
        ResourceReducer.validateResourceSnapshot result = .ok () ∧
        result.acquisitions.map (fun item => (item.nodeId, item.required)) =
          (snapshot.acquisitions.filter (fun item => item.nodeId ≠ acquisition.nodeId)).map
            (fun item => (item.nodeId, item.required))) ↔
      ResourceReducer.PromotionsInOrder snapshot acquisition.nodeId) ∧
    (∀ state, validateGraphRunState state = .ok () → state.resources = some snapshot →
      ((∀ command : SettleGraphNode, command.outcome.nodeId = acquisition.nodeId →
          settleGraphNode state command ≠
            .error (.transition "completed node cannot release its resource acquisition")) ↔
        ResourceReducer.PromotionsInOrder snapshot acquisition.nodeId)) := by
  refine ⟨ResourceReducer.reduceResources_release_iff valid member admitted, ?_⟩
  intro state stateValid resources
  exact settle_release_iff ((validateGraphRunState_eq_ok _ _).mp stateValid) resources member
    admitted

/-- Four participants of which the third waits for what the first owns. -/
def overtakenSnapshot : ResourceSnapshot :=
  { resources := [⟨"r1", some "a", ["c"]⟩, ⟨"r2", some "b", ["d"]⟩]
    acquisitions := [⟨"a", ["r1"], ["r1"], none⟩, ⟨"b", ["r2"], ["r2"], none⟩,
      ⟨"c", ["r1", "r2"], [], some "r1"⟩, ⟨"d", ["r2"], [], some "r2"⟩] }

/-- Releasing the first participant sends the third one behind the fourth. -/
theorem overtakenSnapshot_release :
    ResourceReducer.validateResourceSnapshot overtakenSnapshot = .ok () ∧
    (∃ acquisition ∈ overtakenSnapshot.acquisitions, acquisition.nodeId = "a" ∧
      acquisition.admitted = true) ∧
    ResourceReducer.reduceResources overtakenSnapshot (.releaseResources "a") =
      .error ⟨"resources snapshot does not match its replayed acquisition sequence"⟩ := by
  refine ⟨by rfl, ⟨⟨"a", ["r1"], ["r1"], none⟩, by simp [overtakenSnapshot], rfl, by decide⟩, ?_⟩
  rfl

/-- Two participants at one resource: the waiter is promoted in order. -/
def handedOverSnapshot : ResourceSnapshot :=
  { resources := [⟨"r1", some "a", ["b"]⟩]
    acquisitions := [⟨"a", ["r1"], ["r1"], none⟩, ⟨"b", ["r1"], [], some "r1"⟩] }

theorem handedOverSnapshot_release :
    ResourceReducer.PromotionsInOrder handedOverSnapshot "a" :=
  (resourceRelease_iff handedOverSnapshot ⟨"a", ["r1"], ["r1"], none⟩ rfl
    (by simp [handedOverSnapshot]) (by decide)).1.mp
    ⟨⟨[⟨"r1", some "b", []⟩], [⟨"b", ["r1"], ["r1"], none⟩]⟩, rfl, rfl, rfl⟩

end MoteKernel
