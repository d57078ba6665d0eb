import MoteKernel.State.InterruptHistory

/-!
# Resuming interrupted nodes

`resume_graph_nodes` as a whole: which lists of actions it accepts, the one state
it can produce, and how two resumes of disjoint nodes compose.
-/

namespace MoteKernel
open Checked Canonical

/-! ## The accepted lists -/

/-- The action names a node of the frontier that waits on exactly the interrupt it carries. -/
def NamesInterrupted (state : GraphRunState) (action : ResumeInterruptedNode) : Prop :=
  ∃ node ∈ state.frontier.nodes, node.nodeId = action.nodeId ∧
    ∃ interrupt, node.settlement = .interrupted interrupt ∧
      action.interruptId = interrupt.identity.interruptId

/-- A list of actions that the run can resume. -/
structure Resumable (state : GraphRunState) (actions : List ResumeInterruptedNode) : Prop where
  running : state.status = .running
  unleased : state.execution = none
  free : state.resources = none
  nonempty : actions ≠ []
  canonical : (actions.map (·.nodeId)).Pairwise (· < ·)
  named : ∀ action ∈ actions, NamesInterrupted state action

/-- The node after the actions: pending with the input of its own action, or as it was. -/
def resumedNode (actions : List ResumeInterruptedNode) (node : GraphFrontierNode) :
    GraphFrontierNode :=
  match actions.find? (fun action => action.nodeId = node.nodeId) with
  | none => node
  | some action =>
      { node with settlement := .pending (.overrideGraphNodeInput action.payload) }

/-- The run after the actions, one revision later. -/
def resumedState (state : GraphRunState) (actions : List ResumeInterruptedNode) : GraphRunState :=
  { state with
    frontier := ⟨state.frontier.nodes.map (resumedNode actions)⟩
    revision := state.revision + 1 }

theorem find_action_eq_none {actions : List ResumeInterruptedNode} {nodeId : GraphNodeId} :
    actions.find? (fun other => other.nodeId = nodeId) = none ↔
      nodeId ∉ actions.map (·.nodeId) := by
  simp [List.find?_eq_none]

@[simp] theorem resumedNode_nodeId (actions : List ResumeInterruptedNode)
    (node : GraphFrontierNode) : (resumedNode actions node).nodeId = node.nodeId := by
  unfold resumedNode
  split <;> rfl

theorem resumedNode_of_notMem {actions : List ResumeInterruptedNode} {node : GraphFrontierNode}
    (absent : node.nodeId ∉ actions.map (·.nodeId)) : resumedNode actions node = node := by
  unfold resumedNode
  rw [find_action_eq_none.mpr absent]

theorem resumedNode_of_mem {actions : List ResumeInterruptedNode}
    (distinct : (actions.map (·.nodeId)).Nodup) {node : GraphFrontierNode}
    {action : ResumeInterruptedNode} (member : action ∈ actions)
    (sameId : action.nodeId = node.nodeId) :
    resumedNode actions node =
      { node with settlement := .pending (.overrideGraphNodeInput action.payload) } := by
  unfold resumedNode
  rw [(find_key_eq_some ResumeInterruptedNode.nodeId distinct).mpr ⟨member, sameId⟩]

/-- One node of the source's loop, against the node it should become. -/
theorem resumeNode_eq_ok_iff {actions : List ResumeInterruptedNode}
    (distinct : (actions.map (·.nodeId)).Nodup) (node updated : GraphFrontierNode) :
    resumeNode actions node = .ok updated ↔ updated = resumedNode actions node ∧
      ∀ action ∈ actions, action.nodeId = node.nodeId → ∃ interrupt,
        node.settlement = .interrupted interrupt ∧
        action.interruptId = interrupt.identity.interruptId := by
  by_cases present : node.nodeId ∈ actions.map (·.nodeId)
  · obtain ⟨action, member, sameId⟩ := List.mem_map.mp present
    have found := (find_key_eq_some ResumeInterruptedNode.nodeId distinct).mpr ⟨member, sameId⟩
    have only : ∀ other ∈ actions, other.nodeId = node.nodeId → other = action :=
      fun other inside otherId =>
        List.inj_on_of_nodup_map distinct inside member (otherId.trans sameId.symm)
    rw [resumedNode_of_mem distinct member sameId]
    simp only [resumeNode, found]
    cases settlement : node.settlement with
    | interrupted interrupt =>
        simp only [bind_unit_eq_ok, raiseIf_eq_ok, ne_eq, not_not, pure_eq_ok, Except.ok.injEq]
        constructor
        · rintro ⟨named, result⟩
          refine ⟨result.symm, fun other inside otherId => ⟨interrupt, rfl, ?_⟩⟩
          rw [only other inside otherId]
          exact named
        · rintro ⟨result, named⟩
          obtain ⟨same, sameInterrupt, exact'⟩ := named action member sameId
          cases sameInterrupt
          exact ⟨exact', result.symm⟩
    | pending input =>
        refine iff_of_false (by simp) (fun h => ?_)
        obtain ⟨_, impossible, -⟩ := h.2 action member sameId
        cases impossible
    | succeeded routing =>
        refine iff_of_false (by simp) (fun h => ?_)
        obtain ⟨_, impossible, -⟩ := h.2 action member sameId
        cases impossible
    | failed failure =>
        refine iff_of_false (by simp) (fun h => ?_)
        obtain ⟨_, impossible, -⟩ := h.2 action member sameId
        cases impossible
  · rw [resumedNode_of_notMem present]
    simp only [resumeNode, find_action_eq_none.mpr present, pure_eq_ok, Except.ok.injEq]
    constructor
    · intro same
      refine ⟨same.symm, fun action member sameId => absurd ?_ present⟩
      exact List.mem_map.mpr ⟨action, member, sameId⟩
    · intro h
      exact h.1.symm

/-- On a valid run, the guards of the source hold exactly for the resumable lists, and they
determine the nodes. -/
theorem resumes_iff {state : GraphRunState} (valid : ValidRun state) (command : ResumeGraphNodes)
    (nodes : List GraphFrontierNode) :
    Resumes state command nodes ↔ Resumable state command.actions ∧
      nodes = state.frontier.nodes.map (resumedNode command.actions) := by
  constructor
  · intro resumes
    have distinct := nodup_of_strict resumes.canonical
    refine ⟨⟨resumes.running, resumes.unleased, resumes.free, resumes.nonempty,
      resumes.canonical, fun action member => ?_⟩, ?_⟩
    · obtain ⟨node, inside, interrupt, sameId, settlement, named, -⟩ := resumes.names member
      exact ⟨node, inside, sameId, interrupt, settlement, named⟩
    · have each := resumes.nodes.imp
        (fun node updated ok => ((resumeNode_eq_ok_iff distinct node updated).mp ok).1.symm)
      have mapped : List.Forall₂ (· = ·)
          (state.frontier.nodes.map (resumedNode command.actions)) nodes :=
        List.forall₂_map_left_iff.mpr each
      exact (List.forall₂_eq_eq_eq ▸ mapped : _ = nodes).symm
  · rintro ⟨resumable, rfl⟩
    have distinct := nodup_of_strict resumable.canonical
    have unique := valid.frontier.distinct
    refine ⟨resumable.running, resumable.unleased, resumable.free, resumable.nonempty,
      resumable.canonical, ?_, ?_⟩
    · refine List.forall₂_map_right_iff.mpr (List.forall₂_same.mpr (fun node inside => ?_))
      refine (resumeNode_eq_ok_iff distinct node _).mpr ⟨rfl, fun action member sameId => ?_⟩
      obtain ⟨target, targetInside, targetId, waits⟩ := resumable.named action member
      have same : target = node :=
        List.inj_on_of_nodup_map unique targetInside inside (targetId.trans sameId)
      rwa [← same]
    · intro nodeId known
      obtain ⟨action, member, rfl⟩ := List.mem_map.mp known
      obtain ⟨node, inside, sameId, -⟩ := resumable.named action member
      exact List.mem_map.mpr ⟨node, inside, sameId⟩

/-- Resuming opens the frontier again, whatever else it holds. -/
theorem Resumable.executable {state : GraphRunState} {actions : List ResumeInterruptedNode}
    (resumable : Resumable state actions) :
    frontierStatus (resumedState state actions).frontier = some .executable := by
  obtain ⟨action, rest, split⟩ := List.exists_cons_of_ne_nil resumable.nonempty
  have member : action ∈ actions := by simp [split]
  obtain ⟨node, inside, sameId, -⟩ := resumable.named action member
  have resumed := resumedNode_of_mem (nodup_of_strict resumable.canonical) member sameId.symm
  have pending : ((resumedState state actions).frontier.nodes.map (·.settlement)).any
      (·.isPending) = true := by
    refine List.any_eq_true.mpr ⟨_, List.mem_map_of_mem (List.mem_map_of_mem inside), ?_⟩
    rw [resumed]
    rfl
  unfold frontierStatus
  exact if_pos pending

/-- `reduce_graph_run` on a resume: the accepted commands and the one state they lead to. -/
theorem reduce_resume_iff {state : GraphRunState} (valid : ValidRun state)
    (command : ResumeGraphNodes) (t : GraphRunState) :
    reduceGraphRun (some state) (.resume command) = .ok t ↔
      command.expectedRevision = state.revision ∧ Resumable state command.actions ∧
      t = resumedState state command.actions := by
  rw [reduceGraphRun_some_eq_ok]
  constructor
  · rintro ⟨updated, reduces, rfl⟩
    obtain ⟨nodes, resumes, rfl⟩ :=
      (resumeGraphNodes_eq_ok state updated command).mp reduces.transition
    obtain ⟨resumable, rfl⟩ := (resumes_iff valid command nodes).mp resumes
    exact ⟨Option.some.inj reduces.expected, resumable, rfl⟩
  · rintro ⟨expected, resumable, rfl⟩
    have resumes := (resumes_iff valid command _).mpr ⟨resumable, rfl⟩
    have result : ValidRun (resumedState state command.actions) := resume_preserves valid resumes
    refine ⟨{ state with frontier := ⟨state.frontier.nodes.map (resumedNode command.actions)⟩ },
      ⟨valid, congrArg some expected, ?_, result⟩, rfl⟩
    exact (resumeGraphNodes_eq_ok _ _ _).mpr ⟨_, resumes, rfl⟩

/-! ## Two resumes -/

/-- The actions of both lists, in canonical node order. -/
def sortedUnion (first second : List ResumeInterruptedNode) : List ResumeInterruptedNode :=
  (first ++ second).insertionSort (fun a b => a.nodeId ≤ b.nodeId)

/-- No node is named by both lists. -/
def DisjointNodes (first second : List ResumeInterruptedNode) : Prop :=
  ∀ action ∈ first, ∀ other ∈ second, action.nodeId ≠ other.nodeId

theorem mem_sortedUnion {first second : List ResumeInterruptedNode}
    {action : ResumeInterruptedNode} :
    action ∈ sortedUnion first second ↔ action ∈ first ∨ action ∈ second := by
  simp [sortedUnion]

/-- The union of two canonical lists without a common node is canonical. -/
theorem sortedUnion_canonical {first second : List ResumeInterruptedNode}
    (canonical : (first.map (·.nodeId)).Pairwise (· < ·))
    (canonical' : (second.map (·.nodeId)).Pairwise (· < ·))
    (disjoint : DisjointNodes first second) :
    ((sortedUnion first second).map (·.nodeId)).Pairwise (· < ·) := by
  have : Std.Total (fun a b : ResumeInterruptedNode => a.nodeId ≤ b.nodeId) :=
    ⟨fun a b => le_total a.nodeId b.nodeId⟩
  have : IsTrans ResumeInterruptedNode (fun a b => a.nodeId ≤ b.nodeId) :=
    ⟨fun a b c => le_trans⟩
  have ordered : ((sortedUnion first second).map (·.nodeId)).Pairwise (· ≤ ·) :=
    List.pairwise_map.mpr (List.pairwise_insertionSort _ (first ++ second))
  have apart : ((first ++ second).map (·.nodeId)).Nodup := by
    rw [List.map_append]
    refine List.Nodup.append (nodup_of_strict canonical) (nodup_of_strict canonical') ?_
    intro nodeId inFirst inSecond
    obtain ⟨action, member, rfl⟩ := List.mem_map.mp inFirst
    obtain ⟨other, otherMember, sameId⟩ := List.mem_map.mp inSecond
    exact disjoint action member other otherMember sameId.symm
  have distinct : ((sortedUnion first second).map (·.nodeId)).Nodup :=
    ((List.perm_insertionSort _ (first ++ second)).map _).nodup_iff.mpr apart
  exact (ordered.and distinct).imp (fun h => lt_of_le_of_ne h.1 h.2)

/-- The nodes after both lists are the nodes after their union. -/
theorem resumedNode_sortedUnion {first second : List ResumeInterruptedNode}
    (canonical : (first.map (·.nodeId)).Pairwise (· < ·))
    (canonical' : (second.map (·.nodeId)).Pairwise (· < ·))
    (disjoint : DisjointNodes first second) (node : GraphFrontierNode) :
    resumedNode second (resumedNode first node) = resumedNode (sortedUnion first second) node := by
  have distinct := nodup_of_strict (sortedUnion_canonical canonical canonical' disjoint)
  by_cases inFirst : node.nodeId ∈ first.map (·.nodeId)
  · obtain ⟨action, member, sameId⟩ := List.mem_map.mp inFirst
    have afterwards : (resumedNode first node).nodeId ∉ second.map (·.nodeId) := by
      rw [resumedNode_nodeId, ← sameId]
      intro inSecond
      obtain ⟨other, otherMember, otherId⟩ := List.mem_map.mp inSecond
      exact disjoint action member other otherMember otherId.symm
    rw [resumedNode_of_notMem afterwards,
      resumedNode_of_mem (nodup_of_strict canonical) member sameId,
      resumedNode_of_mem distinct (mem_sortedUnion.mpr (.inl member)) sameId]
  · rw [resumedNode_of_notMem inFirst]
    by_cases inSecond : node.nodeId ∈ second.map (·.nodeId)
    · obtain ⟨action, member, sameId⟩ := List.mem_map.mp inSecond
      rw [resumedNode_of_mem (nodup_of_strict canonical') member sameId,
        resumedNode_of_mem distinct (mem_sortedUnion.mpr (.inr member)) sameId]
    · have inNeither : node.nodeId ∉ (sortedUnion first second).map (·.nodeId) := by
        intro inUnion
        obtain ⟨action, member, sameId⟩ := List.mem_map.mp inUnion
        rcases mem_sortedUnion.mp member with member | member
        · exact inFirst (List.mem_map.mpr ⟨action, member, sameId⟩)
        · exact inSecond (List.mem_map.mpr ⟨action, member, sameId⟩)
      rw [resumedNode_of_notMem inSecond, resumedNode_of_notMem inNeither]

/-- A node the first list does not name waits after it exactly as before. -/
theorem NamesInterrupted.after {state : GraphRunState} {first : List ResumeInterruptedNode}
    {action : ResumeInterruptedNode} (apart : action.nodeId ∉ first.map (·.nodeId)) :
    NamesInterrupted (resumedState state first) action ↔ NamesInterrupted state action := by
  constructor
  · rintro ⟨updated, inside, sameId, waits⟩
    obtain ⟨node, nodeInside, rfl⟩ := List.mem_map.mp inside
    rw [resumedNode_nodeId] at sameId
    rw [resumedNode_of_notMem (sameId ▸ apart)] at waits
    exact ⟨node, nodeInside, sameId, waits⟩
  · rintro ⟨node, inside, sameId, waits⟩
    refine ⟨resumedNode first node, List.mem_map_of_mem inside, ?_, ?_⟩
    · rw [resumedNode_nodeId, sameId]
    · rwa [resumedNode_of_notMem (sameId ▸ apart)]

/-- Two canonical lists without a common node are resumable one after the other exactly when
their union is. -/
theorem resumable_sortedUnion {state : GraphRunState} {first second : List ResumeInterruptedNode}
    (someFirst : first ≠ []) (someSecond : second ≠ [])
    (canonical : (first.map (·.nodeId)).Pairwise (· < ·))
    (canonical' : (second.map (·.nodeId)).Pairwise (· < ·))
    (disjoint : DisjointNodes first second) :
    (Resumable state first ∧ Resumable (resumedState state first) second) ↔
      Resumable state (sortedUnion first second) := by
  have apart : ∀ action ∈ second, action.nodeId ∉ first.map (·.nodeId) := by
    intro action member inFirst
    obtain ⟨other, otherMember, sameId⟩ := List.mem_map.mp inFirst
    exact disjoint other otherMember action member sameId
  constructor
  · rintro ⟨before, after⟩
    refine ⟨before.running, before.unleased, before.free, ?_,
      sortedUnion_canonical canonical canonical' disjoint, fun action member => ?_⟩
    · obtain ⟨action, rest, split⟩ := List.exists_cons_of_ne_nil someFirst
      exact List.ne_nil_of_mem (mem_sortedUnion.mpr (.inl (split ▸ List.mem_cons_self)))
    · rcases mem_sortedUnion.mp member with member | member
      · exact before.named action member
      · exact (NamesInterrupted.after (apart action member)).mp (after.named action member)
  · intro union
    have named : ∀ action, action ∈ first ∨ action ∈ second → NamesInterrupted state action :=
      fun action member => union.named action (mem_sortedUnion.mpr member)
    refine ⟨⟨union.running, union.unleased, union.free, someFirst, canonical,
      fun action member => named action (.inl member)⟩,
      ⟨union.running, union.unleased, union.free, someSecond, canonical',
        fun action member => ?_⟩⟩
    exact (NamesInterrupted.after (apart action member)).mpr (named action (.inr member))

/-- The run after both lists is the run after their union, up to the revision. -/
theorem resumedState_sortedUnion {state : GraphRunState} {first second : List ResumeInterruptedNode}
    (canonical : (first.map (·.nodeId)).Pairwise (· < ·))
    (canonical' : (second.map (·.nodeId)).Pairwise (· < ·))
    (disjoint : DisjointNodes first second) :
    resumedState (resumedState state first) second =
      { resumedState state (sortedUnion first second) with revision := state.revision + 2 } := by
  have nodes : (state.frontier.nodes.map (resumedNode first)).map (resumedNode second) =
      state.frontier.nodes.map (resumedNode (sortedUnion first second)) := by
    rw [List.map_map]
    apply List.map_congr_left
    intro node _
    exact resumedNode_sortedUnion canonical canonical' disjoint node
  simp only [resumedState, nodes]

/-! ## The result -/

/-- The frontier lookup after a resume is the resumed node of the lookup before it. -/
theorem frontierNode_resumedState {state : GraphRunState} (valid : ValidRun state)
    {actions : List ResumeInterruptedNode} {node : GraphFrontierNode}
    (inside : node ∈ state.frontier.nodes) :
    frontierNode (resumedState state actions).frontier node.nodeId =
      some (resumedNode actions node) := by
  have sameIds : ((resumedState state actions).frontier.nodes.map (·.nodeId)) =
      state.frontier.nodes.map (·.nodeId) := by
    show (state.frontier.nodes.map (resumedNode actions)).map (·.nodeId) = _
    rw [List.map_map]
    apply List.map_congr_left
    intro other _
    exact resumedNode_nodeId actions other
  refine (frontierNode_eq_some (sameIds ▸ valid.frontier.distinct)).mpr ⟨?_, ?_⟩
  · exact List.mem_map_of_mem inside
  · exact resumedNode_nodeId actions node

/-- Resuming is all-or-nothing and local. A list is accepted exactly when the run is running
and quiescent, the list is non-empty and canonical, and each action names the interrupt its
node waits on. The reducer then changes only the settlements of the named nodes and the
revision, and two lists without a common node compose to their union. -/
theorem resume_all_or_nothing (state : GraphRunState) (valid : validateGraphRunState state = .ok ())
    (command : ResumeGraphNodes) :
    ((∃ t, resumeGraphNodes state command = .ok t) ↔ Resumable state command.actions) ∧
    (∀ t, reduceGraphRun (some state) (.resume command) = .ok t ↔
      command.expectedRevision = state.revision ∧ Resumable state command.actions ∧
      t = resumedState state command.actions) ∧
    (∀ t, reduceGraphRun (some state) (.resume command) = .ok t →
      t = { state with frontier := t.frontier, revision := state.revision + 1 } ∧
      t.frontier.nodes.map (·.activation) = state.frontier.nodes.map (·.activation) ∧
      frontierStatus t.frontier = some .executable ∧
      (∀ node ∈ state.frontier.nodes, node.nodeId ∉ command.actions.map (·.nodeId) →
        frontierNode t.frontier node.nodeId = some node) ∧
      (∀ action ∈ command.actions, ∃ node, frontierNode state.frontier action.nodeId = some node ∧
        frontierNode t.frontier action.nodeId =
          some { node with settlement := .pending (.overrideGraphNodeInput action.payload) })) ∧
    (∀ first second, DisjointNodes first second →
      (∀ t₁ t₂, reduceGraphRun (some state) (.resume ⟨state.revision, first⟩) = .ok t₁ →
        reduceGraphRun (some t₁) (.resume ⟨t₁.revision, second⟩) = .ok t₂ →
        reduceGraphRun (some state) (.resume ⟨state.revision, sortedUnion first second⟩) =
          .ok { t₂ with revision := state.revision + 1 }) ∧
      (first ≠ [] → second ≠ [] →
        (first.map (·.nodeId)).Pairwise (· < ·) → (second.map (·.nodeId)).Pairwise (· < ·) →
        ∀ t, reduceGraphRun (some state) (.resume ⟨state.revision, sortedUnion first second⟩) =
          .ok t → ∃ t₁, reduceGraphRun (some state) (.resume ⟨state.revision, first⟩) = .ok t₁ ∧
          reduceGraphRun (some t₁) (.resume ⟨t₁.revision, second⟩) =
            .ok { t with revision := state.revision + 2 })) := by
  have run := (validateGraphRunState_eq_ok state ()).mp valid
  have stays : ∀ actions, Resumable state actions → ValidRun (resumedState state actions) := by
    intro actions resumable
    exact resume_preserves run ((resumes_iff run ⟨0, actions⟩ _).mpr ⟨resumable, rfl⟩)
  refine ⟨?_, reduce_resume_iff run command, ?_, ?_⟩
  · constructor
    · rintro ⟨t, accepted⟩
      obtain ⟨nodes, resumes, -⟩ := (resumeGraphNodes_eq_ok state t command).mp accepted
      exact ((resumes_iff run command nodes).mp resumes).1
    · intro resumable
      have resumes := (resumes_iff run command _).mpr ⟨resumable, rfl⟩
      exact ⟨_, (resumeGraphNodes_eq_ok _ _ _).mpr ⟨_, resumes, rfl⟩⟩
  · intro t reduced
    obtain ⟨-, resumable, rfl⟩ := (reduce_resume_iff run command t).mp reduced
    refine ⟨rfl, ?_, resumable.executable, ?_, ?_⟩
    · show (state.frontier.nodes.map (resumedNode command.actions)).map (·.activation) = _
      rw [List.map_map]
      apply List.map_congr_left
      intro node _
      show (resumedNode command.actions node).activation = node.activation
      unfold resumedNode
      split <;> rfl
    · intro node inside absent
      rw [frontierNode_resumedState run inside, resumedNode_of_notMem absent]
    · intro action member
      obtain ⟨node, inside, sameId, -⟩ := resumable.named action member
      refine ⟨node, (frontierNode_eq_some run.frontier.distinct).mpr ⟨inside, sameId⟩, ?_⟩
      rw [← sameId, frontierNode_resumedState run inside,
        resumedNode_of_mem (nodup_of_strict resumable.canonical) member sameId.symm]
  · intro first second disjoint
    constructor
    · intro t₁ t₂ reduced reduced'
      obtain ⟨-, before, rfl⟩ := (reduce_resume_iff run _ t₁).mp reduced
      obtain ⟨-, after, rfl⟩ := (reduce_resume_iff (stays first before) _ t₂).mp reduced'
      refine (reduce_resume_iff run _ _).mpr ⟨rfl, ?_, ?_⟩
      · exact (resumable_sortedUnion before.nonempty after.nonempty before.canonical
          after.canonical disjoint).mp ⟨before, after⟩
      · rw [resumedState_sortedUnion before.canonical after.canonical disjoint]
        rfl
    · intro someFirst someSecond canonical canonical' t reduced
      obtain ⟨-, union, rfl⟩ := (reduce_resume_iff run _ t).mp reduced
      obtain ⟨before, after⟩ := (resumable_sortedUnion someFirst someSecond canonical canonical'
        disjoint).mpr union
      refine ⟨resumedState state first, (reduce_resume_iff run _ _).mpr ⟨rfl, before, rfl⟩, ?_⟩
      refine (reduce_resume_iff (stays first before) _ _).mpr ⟨rfl, after, ?_⟩
      exact (resumedState_sortedUnion canonical canonical' disjoint).symm

/-- Two nodes that wait on their interrupts beside a node that is still pending. -/
def waitingRun : GraphRunState :=
  { startedRun with
    frontier := ⟨[⟨"a", .interrupted ⟨⟨"run", 0, "a", 1⟩, []⟩, .start⟩,
      ⟨"b", .interrupted ⟨⟨"run", 0, "b", 1⟩, []⟩, .start⟩,
      ⟨"c", .pending .useStepRequestInput, .start⟩]⟩
    executionSequence := 1
    resumeInputCodec := some ⟨"codec", 1⟩ }

theorem waitingRun_resumes_b :
    validateGraphRunState waitingRun = .ok () ∧
      reduceGraphRun (some waitingRun)
        (.resume ⟨0, [⟨"b", graphInterruptId "run" 0 "b" 1, [7]⟩]⟩) =
        .ok (resumedState waitingRun [⟨"b", graphInterruptId "run" 0 "b" 1, [7]⟩]) := by
  refine ⟨rfl, ?_⟩
  refine ((resume_all_or_nothing waitingRun rfl _).2.1 _).mpr ⟨rfl, ?_, rfl⟩
  refine ⟨rfl, rfl, rfl, by simp, by simp, ?_⟩
  intro action member
  obtain rfl := List.mem_singleton.mp member
  exact ⟨⟨"b", .interrupted ⟨⟨"run", 0, "b", 1⟩, []⟩, .start⟩, by simp [waitingRun], rfl, _, rfl,
    rfl⟩

end MoteKernel
