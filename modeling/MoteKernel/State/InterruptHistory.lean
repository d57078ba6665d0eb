import MoteKernel.State.ComposedIdentity
import MoteKernel.State.History

/-!
# Interrupts of one graph run

An activation may be interrupted and resumed any number of times. Each
interruption happens under the lease of its own generation, so its identity is
new, and a resume that names an interrupt which was resumed before is rejected.
-/

namespace MoteKernel
open Checked Canonical Trace

/-- The `graph_interrupt_id` of one interrupt. -/
def GraphNodeInterruptIdentity.interruptId (identity : GraphNodeInterruptIdentity) :
    GraphInterruptId :=
  graphInterruptId identity.runId identity.superstep identity.nodeId identity.executionGeneration

theorem interruptId_inj {identity other : GraphNodeInterruptIdentity}
    (same : identity.interruptId = other.interruptId) : identity = other := by
  obtain ⟨run, step, node, generation⟩ := identity
  obtain ⟨run', step', node', generation'⟩ := other
  obtain ⟨rfl, rfl, rfl, rfl⟩ := graphInterruptId_inj.mp same
  rfl

/-- The interrupt a settlement reports. -/
def GraphRunCommand.raisedInterrupt : GraphRunCommand → Option GraphNodeInterruptIdentity
  | .settle ⟨_, _, .interrupted _ identity _, _, _⟩ => some identity
  | _ => none

/-- The interrupts the frontier is waiting on. -/
def frontierInterrupts (frontier : GraphFrontierState) : List GraphNodeInterruptIdentity :=
  frontier.nodes.filterMap (fun node =>
    match node.settlement with
    | .interrupted interrupt => some interrupt.identity
    | _ => none)

theorem mem_frontierInterrupts {frontier : GraphFrontierState}
    {identity : GraphNodeInterruptIdentity} :
    identity ∈ frontierInterrupts frontier ↔ ∃ node ∈ frontier.nodes, ∃ interrupt,
      node.settlement = .interrupted interrupt ∧ interrupt.identity = identity := by
  unfold frontierInterrupts
  rw [List.mem_filterMap]
  constructor
  · rintro ⟨node, member, found⟩
    split at found
    · rename_i interrupt settlement
      exact ⟨node, member, interrupt, settlement, Option.some.inj found⟩
    · cases found
  · rintro ⟨node, member, interrupt, settlement, rfl⟩
    exact ⟨node, member, by rw [settlement]⟩

/-! ## What one command does to interrupts -/

/-- An accepted interruption is about a pending node of the current superstep, under the lease of
its generation. -/
structure Raises (state : GraphRunState) (identity : GraphNodeInterruptIdentity) : Prop where
  run : identity.runId = state.runId
  superstep : identity.superstep = state.superstep
  pending : identity.nodeId ∈ pendingNodeIds state.frontier
  lease : ∃ lease ∈ state.execution, lease.token.generation = identity.executionGeneration

/-- The effect of one command on the pending nodes and on the interrupts. -/
structure InterruptStep (state : GraphRunState) (command : GraphRunCommand)
    (updated : GraphRunState) : Prop where
  raises : ∀ identity ∈ command.raisedInterrupt, Raises state identity ∧
    identity.nodeId ∉ pendingNodeIds updated.frontier
  leased : updated.execution ≠ none → (∀ claim, command ≠ .claim claim) →
    pendingNodeIds updated.frontier ⊆ pendingNodeIds state.frontier
  waiting : ∀ identity ∈ frontierInterrupts updated.frontier,
    identity ∈ frontierInterrupts state.frontier ∨ identity ∈ command.raisedInterrupt

theorem pendingFrontier_interrupts (activations : List GraphFrontierActivation) :
    frontierInterrupts (pendingFrontier activations) = [] := by
  apply List.eq_nil_iff_forall_not_mem.mpr
  intro identity member
  obtain ⟨node, nodeMember, interrupt, settlement, -⟩ := mem_frontierInterrupts.mp member
  obtain ⟨activation, -, rfl⟩ := List.mem_map.mp nodeMember
  cases settlement

theorem raisedInterrupt_settle {command : SettleGraphNode}
    {identity : GraphNodeInterruptIdentity} :
    (GraphRunCommand.settle command).raisedInterrupt = some identity ↔
      ∃ nodeId payload, command.outcome = .interrupted nodeId identity payload := by
  obtain ⟨_, _, outcome, _, _⟩ := command
  cases outcome <;> simp [GraphRunCommand.raisedInterrupt]

/-- A settlement raises at most the interrupt it reports, and makes no node pending. -/
theorem settle_interruptStep {state : GraphRunState} {command : SettleGraphNode}
    {settlement : GraphNodeSettlement} {ledger : List GraphPublicationSettlement}
    {cursor : GraphConfigCursor} {resources : Option ResourceSnapshot}
    (settles : Settles state command settlement ledger cursor resources) :
    InterruptStep state (.settle command)
      (settledState state command.outcome.nodeId settlement ledger cursor resources) := by
  have stays : ∀ nodeId, nodeId ∈ pendingNodeIds
      (settleFrontier state.frontier command.outcome.nodeId settlement) ↔
        nodeId ∈ pendingNodeIds state.frontier ∧ nodeId ≠ command.outcome.nodeId :=
    fun nodeId => mem_pendingNodeIds_settleFrontier settles.outcome.not_pending
  refine ⟨?_, ?_, ?_⟩
  · intro identity raised
    obtain ⟨nodeId, payload, outcome⟩ := raisedInterrupt_settle.mp raised
    have settled := settles.outcome
    cases settled with
    | succeeded _ _ other => rw [outcome] at other; cases other
    | failed _ _ other => rw [outcome] at other; cases other
    | interrupted nodeId' payload' same =>
        rw [outcome] at same
        cases same
        obtain ⟨node, member, sameNode, pending⟩ := settles.pendingNode
        have own : command.outcome.nodeId = nodeId := by rw [outcome]; rfl
        refine ⟨⟨rfl, rfl, ?_, ⟨_, settles.leased, rfl⟩⟩, ?_⟩
        · exact mem_pendingNodeIds.mpr ⟨node, member, pending, sameNode.trans own⟩
        · intro still
          exact ((stays _).mp still).2 own.symm
  · intro _ _ nodeId member
    exact ((stays nodeId).mp member).1
  · intro identity member
    obtain ⟨updated, updatedMember, interrupt, waits, rfl⟩ := mem_frontierInterrupts.mp member
    obtain ⟨node, nodeMember, rfl⟩ := mem_settleFrontier.mp updatedMember
    by_cases here : node.nodeId = command.outcome.nodeId
    · -- The settled node waits only when the outcome is this interrupt.
      simp only [here, if_true] at waits
      subst waits
      have settled := settles.outcome
      cases settled with
      | interrupted nodeId payload outcome =>
          exact .inr (raisedInterrupt_settle.mpr ⟨nodeId, payload, outcome⟩)
    · simp only [here, if_false] at waits
      exact .inl (mem_frontierInterrupts.mpr ⟨node, nodeMember, interrupt, waits, rfl⟩)

theorem transition_interruptStep {state updated : GraphRunState} {command : GraphRunCommand}
    (valid : ValidRun state) (moved : transition state command = .ok updated) :
    InterruptStep state command updated := by
  cases command with
  | start command => simp [transition] at moved
  | claim command =>
      obtain ⟨-, rfl⟩ := (claimGraphExecution_eq_ok _ _ _).mp moved
      exact ⟨by simp [GraphRunCommand.raisedInterrupt], fun _ _ => List.Subset.refl _,
        fun _ waits => .inl waits⟩
  | fence command =>
      obtain ⟨-, -, rfl⟩ := (fenceGraphExecution_eq_ok _ _ _).mp moved
      exact ⟨by simp [GraphRunCommand.raisedInterrupt], fun _ _ => List.Subset.refl _,
        fun _ waits => .inl waits⟩
  | settle command =>
      obtain ⟨settlement, ledger, cursor, resources, settles, rfl⟩ :=
        (settleGraphNode_eq_ok _ _ _).mp moved
      exact settle_interruptStep settles
  | resume command =>
      obtain ⟨nodes, resumes, rfl⟩ := (resumeGraphNodes_eq_ok _ _ _).mp moved
      refine ⟨by simp [GraphRunCommand.raisedInterrupt],
        fun held => absurd resumes.unleased held, ?_⟩
      intro identity member
      obtain ⟨updated, updatedMember, interrupt, waits, rfl⟩ := mem_frontierInterrupts.mp member
      obtain ⟨node, nodeMember, resumed⟩ := forall₂_mem_right resumes.nodes updatedMember
      rcases resumeNode_eq_ok resumed with ⟨rfl, -⟩ | ⟨_, _, -, rfl⟩
      · exact .inl (mem_frontierInterrupts.mpr ⟨updated, nodeMember, interrupt, waits, rfl⟩)
      · cases waits
  | advance command =>
      obtain ⟨⟨_, advances⟩, rfl⟩ :=
        (advanceGraphFrontier_eq_ok valid.frontier.distinct _ _).mp moved
      refine ⟨by simp [GraphRunCommand.raisedInterrupt],
        fun held => absurd advances.resolves.unleased held, ?_⟩
      intro identity member
      rw [show frontierInterrupts (pendingFrontier command.activations) = [] from
        pendingFrontier_interrupts _] at member
      cases member
  | complete command =>
      obtain ⟨completes, rfl⟩ := (completeGraphFrontier_eq_ok _ _ _).mp moved
      exact ⟨by simp [GraphRunCommand.raisedInterrupt],
        fun held => absurd completes.resolves.unleased held, by simp [frontierInterrupts]⟩
  | abort command =>
      obtain ⟨-, unleased, rfl⟩ := (abortGraphRun_eq_ok _ _ _).mp moved
      exact ⟨by simp [GraphRunCommand.raisedInterrupt], fun _ _ => List.Subset.refl _,
        fun _ waits => .inl waits⟩

/-! ## Spent interrupts -/

/-- No lease is held under which this interrupt could be raised again. -/
structure Spent (identity : GraphNodeInterruptIdentity) (state : GraphRunState) : Prop where
  generation : identity.executionGeneration ≤ state.executionSequence
  settled : ∀ lease ∈ state.execution, lease.token.generation = identity.executionGeneration →
    identity.nodeId ∉ pendingNodeIds state.frontier

theorem Spent.not_raised {identity : GraphNodeInterruptIdentity} {state : GraphRunState}
    (spent : Spent identity state) : ¬ Raises state identity := by
  intro raises
  obtain ⟨lease, held, generation⟩ := raises.lease
  exact spent.settled lease held generation raises.pending

/-- What is spent stays spent: only a claim issues a lease, of a later generation. -/
theorem Spent.kept {identity : GraphNodeInterruptIdentity} {state updated : GraphRunState}
    {command : GraphRunCommand} (valid : ValidRun state)
    (moved : transition state command = .ok updated) (spent : Spent identity state) :
    Spent identity updated := by
  have grows := transition_grows valid moved
  have lease := transition_lease valid moved
  refine ⟨spent.generation.trans grows.sequence, ?_⟩
  intro held member generation
  by_cases claims : ∃ claim, command = .claim claim
  · obtain ⟨claim, isClaim⟩ := claims
    obtain ⟨-, issued, -⟩ := lease.issued claim isClaim
    obtain rfl : held = ⟨claimToken state claim⟩ := Option.some.inj (member.symm.trans issued)
    have bounded := spent.generation
    simp only [claimToken] at generation
    omega
  · have other : ∀ claim, command ≠ .claim claim := fun claim same => claims ⟨claim, same⟩
    obtain ⟨cleared | kept, -⟩ := lease.otherwise other
    · rw [cleared] at member
      cases member
    · intro pending
      have before := (transition_interruptStep valid moved).leased
        (by rw [Option.mem_def.mp member]; exact Option.some_ne_none _) other pending
      exact spent.settled held (kept ▸ member) generation before

/-- A raised interrupt is spent from then on. -/
theorem Raises.spent {identity : GraphNodeInterruptIdentity} {state updated : GraphRunState}
    {command : GraphRunCommand} (valid : ValidRun state)
    (moved : transition state command = .ok updated)
    (raised : command.raisedInterrupt = some identity) : Spent identity updated := by
  obtain ⟨raises, gone⟩ := (transition_interruptStep valid moved).raises identity raised
  obtain ⟨lease, held, generation⟩ := raises.lease
  refine ⟨?_, fun _ _ _ => gone⟩
  have current := (valid.lease lease held).generation
  have grows := (transition_grows valid moved).sequence
  omega

/-- The interrupt is spent, and no node waits on it. -/
def Retired (identity : GraphNodeInterruptIdentity) (state : Option GraphRunState) : Prop :=
  ∃ s ∈ state, Spent identity s ∧ identity ∉ frontierInterrupts s.frontier

theorem Accepted.retired {event : RunEvent} (accepted : Accepted reduceStep event)
    {identity : GraphNodeInterruptIdentity} (retired : Retired identity event.before) :
    Retired identity event.after := by
  obtain ⟨s, member, spent, gone⟩ := retired
  rcases accepted_cases accepted with ⟨start, t, rfl, -⟩ | ⟨state, updated, before, reduces, after⟩
  · cases member
  · obtain rfl : state = s := Option.some.inj (before.symm.trans member)
    have kept := spent.kept reduces.valid reduces.transition
    have step := transition_interruptStep reduces.valid reduces.transition
    refine ⟨_, after, ⟨kept.generation, kept.settled⟩, ?_⟩
    intro waits
    rcases step.waiting identity waits with before | raised
    · exact gone before
    · exact spent.not_raised (step.raises identity raised).1

theorem Reaches.retired {s t : Option GraphRunState} {identity : GraphNodeInterruptIdentity}
    (reaches : Reaches reduceStep s t) (retired : Retired identity s) : Retired identity t :=
  Reaches.preserves
    (fun s command t accepted => @Accepted.retired ⟨s, command, t⟩ accepted identity)
    reaches retired

/-- The run has come to a state in which the interrupt is spent. -/
def SpentIn (identity : GraphNodeInterruptIdentity) (state : Option GraphRunState) : Prop :=
  ∃ s ∈ state, Spent identity s

theorem Accepted.spentIn {event : RunEvent} (accepted : Accepted reduceStep event)
    {identity : GraphNodeInterruptIdentity} (spent : SpentIn identity event.before) :
    SpentIn identity event.after := by
  obtain ⟨s, member, spent⟩ := spent
  rcases accepted_cases accepted with ⟨start, t, rfl, -⟩ | ⟨state, updated, before, reduces, after⟩
  · cases member
  · obtain rfl : state = s := Option.some.inj (before.symm.trans member)
    have kept := spent.kept reduces.valid reduces.transition
    exact ⟨_, after, kept.generation, kept.settled⟩

theorem Reaches.spentIn {s t : Option GraphRunState} {identity : GraphNodeInterruptIdentity}
    (reaches : Reaches reduceStep s t) (spent : SpentIn identity s) : SpentIn identity t :=
  Reaches.preserves
    (fun s command t accepted => @Accepted.spentIn ⟨s, command, t⟩ accepted identity)
    reaches spent

/-- An accepted interruption names its run and the state it happened in, and spends itself. -/
theorem Accepted.raises {event : RunEvent} (accepted : Accepted reduceStep event)
    {identity : GraphNodeInterruptIdentity}
    (raised : event.command.raisedInterrupt = some identity) :
    (∃ s ∈ event.before, Raises s identity) ∧ SpentIn identity event.after := by
  rcases accepted_cases accepted with ⟨start, t, rfl, -⟩ | ⟨state, updated, before, reduces, after⟩
  · cases raised
  · have step := transition_interruptStep reduces.valid reduces.transition
    have spent := Raises.spent reduces.valid reduces.transition raised
    exact ⟨⟨state, before, (step.raises identity raised).1⟩, _, after, spent.generation,
      spent.settled⟩

/-! ## Resuming -/

/-- Every action of an accepted resume names the interrupt its node waits on; the node is then
pending. -/
theorem Resumes.names {state : GraphRunState} {command : ResumeGraphNodes}
    {nodes : List GraphFrontierNode} (resumes : Resumes state command nodes)
    {action : ResumeInterruptedNode} (member : action ∈ command.actions) :
    ∃ node ∈ state.frontier.nodes, ∃ interrupt, node.nodeId = action.nodeId ∧
      node.settlement = .interrupted interrupt ∧
      action.interruptId = interrupt.identity.interruptId ∧
      ∃ updated ∈ nodes, updated.nodeId = action.nodeId ∧ updated.settlement.isPending = true := by
  have named : action.nodeId ∈ command.actions.map (·.nodeId) := List.mem_map_of_mem member
  obtain ⟨node, nodeMember, sameNode⟩ := List.mem_map.mp (resumes.known named)
  obtain ⟨updated, updatedMember, resumed⟩ := forall₂_mem_left resumes.nodes nodeMember
  have found : command.actions.find? (fun other => other.nodeId = node.nodeId) = some action :=
    (find_key_eq_some ResumeInterruptedNode.nodeId (nodup_of_strict resumes.canonical)).mpr
      ⟨member, sameNode.symm⟩
  simp only [resumeNode, found] at resumed
  cases settlement : node.settlement with
  | interrupted interrupt =>
      simp only [settlement, bind_unit_eq_ok, raiseIf_eq_ok, ne_eq, not_not, pure_eq_ok,
        Except.ok.injEq] at resumed
      obtain ⟨named, rfl⟩ := resumed
      exact ⟨node, nodeMember, interrupt, sameNode, settlement, named, _, updatedMember, sameNode,
        rfl⟩
  | pending input => simp [settlement] at resumed
  | succeeded routing => simp [settlement] at resumed
  | failed failure => simp [settlement] at resumed

/-- The interrupt an accepted resume names is retired by it. -/
theorem Resumes.retires {state : GraphRunState} {command : ResumeGraphNodes}
    {nodes : List GraphFrontierNode} (valid : ValidRun state)
    (resumes : Resumes state command nodes) {action : ResumeInterruptedNode}
    (member : action ∈ command.actions) :
    ∃ identity, action.interruptId = identity.interruptId ∧
      identity.executionGeneration ≤ state.executionSequence ∧
      identity ∉ frontierInterrupts ⟨nodes⟩ := by
  obtain ⟨node, nodeMember, interrupt, sameNode, settlement, named, updated, updatedMember,
    updatedNode, pending⟩ := resumes.names member
  have checked := valid.frontier.settlements node nodeMember
  rw [settlement] at checked
  obtain ⟨ownNode, -, -, -, bounded⟩ := checked
  refine ⟨interrupt.identity, named, bounded, ?_⟩
  intro waits
  obtain ⟨other, otherMember, otherInterrupt, otherSettlement, same⟩ :=
    mem_frontierInterrupts.mp waits
  -- A node that still waits on it would be the resumed node itself.
  have distinct : (nodes.map (·.nodeId)).Nodup := by
    rw [resumed_nodeIds resumes.nodes]
    exact valid.frontier.distinct
  obtain ⟨source, sourceMember, resumed⟩ := forall₂_mem_right resumes.nodes otherMember
  rcases resumeNode_eq_ok resumed with ⟨rfl, -⟩ | ⟨_, _, -, rfl⟩
  · have otherChecked := valid.frontier.settlements other sourceMember
    rw [otherSettlement] at otherChecked
    have sameId : other.nodeId = updated.nodeId := by
      rw [← otherChecked.1, same, ownNode, updatedNode, sameNode]
    rw [← List.inj_on_of_nodup_map distinct otherMember updatedMember sameId,
      otherSettlement] at pending
    cases pending
  · cases otherSettlement

/-- The interrupts an accepted command resumed. -/
def GraphRunCommand.resumedInterrupts : GraphRunCommand → List GraphInterruptId
  | .resume command => command.actions.map (·.interruptId)
  | _ => []

theorem Accepted.retires {event : RunEvent} (accepted : Accepted reduceStep event)
    {id : GraphInterruptId} (resumed : id ∈ event.command.resumedInterrupts) :
    ∃ identity, id = identity.interruptId ∧ Retired identity event.after := by
  rcases accepted_cases accepted with ⟨start, t, rfl, -⟩ | ⟨state, updated, before, reduces, after⟩
  · cases resumed
  · cases command : event.command with
    | resume resume =>
        rw [command] at resumed reduces
        obtain ⟨action, member, rfl⟩ := List.mem_map.mp resumed
        obtain ⟨nodes, resumes, rfl⟩ := (resumeGraphNodes_eq_ok _ _ _).mp reduces.transition
        obtain ⟨identity, named, bounded, gone⟩ := resumes.retires reduces.valid member
        refine ⟨identity, named, _, after, ⟨bounded, ?_⟩, gone⟩
        intro lease held
        have leased : state.execution = some lease := held
        rw [resumes.unleased] at leased
        cases leased
    | start | claim | fence | settle | advance | complete | abort =>
        rw [command] at resumed
        cases resumed

/-- Interrupt freshness. In every history the identities of settled interruptions are distinct;
an identity names its run, so another run never produces it; and once an interrupt was resumed,
a resume that names it is rejected in every later state. -/
theorem interrupt_freshness (initial : Option GraphRunState) (commands : List GraphRunCommand) :
    let events := history reduceStep initial commands
    (events.filterMap (fun e => e.command.raisedInterrupt.map (·.interruptId))).Nodup ∧
    (∀ (otherInitial : Option GraphRunState) (otherCommands : List GraphRunCommand),
      ∀ e ∈ events, ∀ f ∈ history reduceStep otherInitial otherCommands,
      ∀ identity ∈ e.command.raisedInterrupt, ∀ other ∈ f.command.raisedInterrupt,
      e.before.map (·.runId) ≠ f.before.map (·.runId) →
      identity.interruptId ≠ other.interruptId) ∧
    (∀ e ∈ events, ∀ id ∈ e.command.resumedInterrupts, ∀ t, Reaches reduceStep e.after (some t) →
      ∀ command : ResumeGraphNodes, id ∈ command.actions.map (·.interruptId) →
      ∃ error, resumeGraphNodes t command = .error error) := by
  intro events
  refine ⟨?_, ?_, ?_⟩
  · refine List.Pairwise.filterMap _ ?_ (history_pairwise initial commands)
    intro e f ⟨acceptedE, reaches, acceptedF⟩ id producedE id' producedF same
    obtain ⟨identity, raisedE, rfl⟩ := Option.map_eq_some_iff.mp producedE
    obtain ⟨other, raisedF, rfl⟩ := Option.map_eq_some_iff.mp producedF
    obtain rfl := interruptId_inj same
    obtain ⟨s, before, spent⟩ := Reaches.spentIn reaches (Accepted.raises acceptedE raisedE).2
    obtain ⟨⟨s', before', raises⟩, -⟩ := Accepted.raises acceptedF raisedF
    obtain rfl : s = s' := Option.some.inj (before.symm.trans before')
    exact spent.not_raised raises
  · intro otherInitial otherCommands e eMember f fMember identity raisedE other raisedF apart same
    obtain rfl := interruptId_inj same
    obtain ⟨⟨s, before, raises⟩, -⟩ := Accepted.raises (mem_history eMember).2 raisedE
    obtain ⟨⟨s', before', raises'⟩, -⟩ := Accepted.raises (mem_history fMember).2 raisedF
    apply apart
    rw [Option.mem_def.mp before, Option.mem_def.mp before', Option.map_some, Option.map_some,
      ← raises.run, ← raises'.run]
  · intro e member id resumed t reaches command names
    obtain ⟨identity, rfl, retired⟩ := Accepted.retires (mem_history member).2 resumed
    obtain ⟨s, ⟨⟩, -, gone⟩ := Reaches.retired reaches retired
    cases attempt : resumeGraphNodes t command with
    | error error => exact ⟨error, rfl⟩
    | ok u =>
        obtain ⟨nodes, resumes, -⟩ := (resumeGraphNodes_eq_ok _ _ _).mp attempt
        obtain ⟨action, actionMember, sameId⟩ := List.mem_map.mp names
        obtain ⟨node, nodeMember, interrupt, -, settlement, named, -⟩ := resumes.names actionMember
        obtain rfl := interruptId_inj (named.symm.trans sameId)
        exact absurd (mem_frontierInterrupts.mpr ⟨node, nodeMember, interrupt, settlement, rfl⟩) gone

end MoteKernel
