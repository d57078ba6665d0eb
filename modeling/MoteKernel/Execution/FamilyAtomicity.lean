import MoteKernel.Execution.FamilyDriver

/-!
# Atomicity of family commits

What the transitions of one invocation leave behind, for every order in which
its scopes prepare, confirm and install them and every reply of the store.
-/

namespace MoteKernel
open Checked Trace

variable {τ ν σ : Type}

/-! ## Frame indexes -/

/-- `new` is `old` with exactly these records added. -/
structure ScopedFrameIndex.Extends (old : ScopedFrameIndex ν σ)
    (graphInputs : List (AdmittedGraphInput ν)) (publications : List (ConfirmedPublication ν))
    (resumeInputs : List (AdmittedResumeInput ν σ)) (new : ScopedFrameIndex ν σ) : Prop where
  graphInputs : new.graphInputs.Perm (old.graphInputs ++ graphInputs)
  publications : new.publications.Perm (old.publications ++ publications)
  resumeInputs : new.resumeInputs.Perm (old.resumeInputs ++ resumeInputs)
  childBoundaries : new.childBoundaries = old.childBoundaries

/-- The records of one partition added in turn, with the rest of the index left alone. -/
theorem foldlM_insert {α ρ : Type} {add : ScopedFrameIndex ν σ → α → Except ExecutionError
      (ScopedFrameIndex ν σ)} (record : α → ρ) (partition : ScopedFrameIndex ν σ → List ρ)
    (Same : ScopedFrameIndex ν σ → ScopedFrameIndex ν σ → Prop) (refl : ∀ index, Same index index)
    (trans : ∀ a b c, Same a b → Same b c → Same a c)
    (adds : ∀ index item next, add index item = .ok next →
      (partition next).Perm (partition index ++ [record item]) ∧ Same index next)
    {items : List α} {index final : ScopedFrameIndex ν σ}
    (folded : items.foldlM add index = .ok final) :
    (partition final).Perm (partition index ++ items.map record) ∧ Same index final := by
  induction items generalizing index with
  | nil =>
      obtain rfl : index = final := Except.ok.inj folded
      exact ⟨by simp, refl _⟩
  | cons item items ih =>
      rw [List.foldlM_cons, bind_eq_ok] at folded
      obtain ⟨next, added, rest⟩ := folded
      obtain ⟨here, same⟩ := adds index item next added
      obtain ⟨there, kept⟩ := ih rest
      refine ⟨there.trans ?_, trans _ _ _ same kept⟩
      have moved := here.append_right (items.map record)
      rwa [List.append_assoc] at moved

theorem addGraphInputs_extends {items : List (GraphInputEvidence ν)}
    {index final : ScopedFrameIndex ν σ}
    (folded : items.foldlM (fun index evidence => index.addGraphInput evidence.record) index =
      .ok final) :
    final.graphInputs.Perm (index.graphInputs ++ items.map GraphInputEvidence.record) ∧
      final.publications = index.publications ∧ final.resumeInputs = index.resumeInputs ∧
      final.childBoundaries = index.childBoundaries := by
  refine foldlM_insert GraphInputEvidence.record ScopedFrameIndex.graphInputs
    (fun a b => b.publications = a.publications ∧
      b.resumeInputs = a.resumeInputs ∧ b.childBoundaries = a.childBoundaries)
    (fun _ => ⟨rfl, rfl, rfl⟩) ?_ ?_ folded
  · intro a b c first second
    exact ⟨second.1.trans first.1, second.2.1.trans first.2.1, second.2.2.trans first.2.2⟩
  · intro index item next added
    simp only [ScopedFrameIndex.addGraphInput, bind_eq_ok, pure_eq_ok, Except.ok.injEq] at added
    obtain ⟨graphInputs, inserted, rfl⟩ := added
    exact ⟨insertFrameRecord_perm inserted, rfl, rfl, rfl⟩

theorem addPublications_extends {items : List (GraphPublicationEvidence ν)} {revision : Nat}
    {index final : ScopedFrameIndex ν σ}
    (folded : items.foldlM (fun index evidence => index.addPublication
      (evidence.record revision)) index = .ok final) :
    final.publications.Perm (index.publications ++ items.map (·.record revision)) ∧
      final.graphInputs = index.graphInputs ∧ final.resumeInputs = index.resumeInputs ∧
      final.childBoundaries = index.childBoundaries := by
  refine foldlM_insert (·.record revision) ScopedFrameIndex.publications
    (fun a b => b.graphInputs = a.graphInputs ∧
      b.resumeInputs = a.resumeInputs ∧ b.childBoundaries = a.childBoundaries)
    (fun _ => ⟨rfl, rfl, rfl⟩) ?_ ?_ folded
  · intro a b c first second
    exact ⟨second.1.trans first.1, second.2.1.trans first.2.1, second.2.2.trans first.2.2⟩
  · intro index item next added
    simp only [ScopedFrameIndex.addPublication, bind_eq_ok, pure_eq_ok, Except.ok.injEq] at added
    obtain ⟨publications, inserted, rfl⟩ := added
    exact ⟨insertFrameRecord_perm inserted, rfl, rfl, rfl⟩

/-- `project_resume_frames` adds the admitted inputs and nothing else. -/
theorem projectResumeFrames_extends {inputs : List (AdmittedResumeInput ν σ)}
    {frames installed : ScopedFrameIndex ν σ}
    (projected : projectResumeFrames frames inputs = .ok installed) :
    frames.Extends [] [] inputs installed := by
  rw [projectResumeFrames, rethrow_eq_ok] at projected
  have added := foldlM_insert id ScopedFrameIndex.resumeInputs
    (fun a b => b.graphInputs = a.graphInputs ∧ b.publications = a.publications ∧
      b.childBoundaries = a.childBoundaries)
    (fun _ => ⟨rfl, rfl, rfl⟩)
    (fun a b c first second => ⟨second.1.trans first.1, second.2.1.trans first.2.1,
      second.2.2.trans first.2.2⟩) (by
      intro index item next inserted
      simp only [ScopedFrameIndex.addResumeInput, bind_eq_ok, pure_eq_ok, Except.ok.injEq]
        at inserted
      obtain ⟨resumeInputs, inserted, rfl⟩ := inserted
      exact ⟨insertFrameRecord_perm inserted, rfl, rfl, rfl⟩) projected
  obtain ⟨inputsAdded, graphInputs, publications, boundaries⟩ := added
  exact ⟨by simp [graphInputs], by simp [publications], by simpa using inputsAdded, boundaries⟩

/-- The records a write set adds to a frame index. -/
def GraphCommitWriteSet.inputRecords (writes : GraphCommitWriteSet ν) :
    List (AdmittedGraphInput ν) :=
  writes.graphInputs.map GraphInputEvidence.record

/-- The publications a write set adds to a frame index, at the revision it commits. -/
def GraphCommitWriteSet.publicationRecords (writes : GraphCommitWriteSet ν) :
    List (ConfirmedPublication ν) :=
  writes.publications.map (·.record writes.commitKey.revision)

/-- `apply_commit_writes` adds the records of the write set and nothing else. -/
theorem applyCommitWrites_extends {frames staged : ScopedFrameIndex ν σ}
    {writes : GraphCommitWriteSet ν} (applied : applyCommitWrites frames writes = .ok staged) :
    frames.Extends writes.inputRecords writes.publicationRecords [] staged := by
  simp only [applyCommitWrites, bind_eq_ok] at applied
  obtain ⟨middle, first, second⟩ := applied
  obtain ⟨inputs, publications, resumes, boundaries⟩ := addGraphInputs_extends first
  obtain ⟨published, inputs', resumes', boundaries'⟩ := addPublications_extends second
  refine ⟨?_, ?_, ?_, boundaries'.trans boundaries⟩
  · rw [inputs']
    exact inputs
  · rw [← publications]
    exact published
  · rw [resumes', resumes, List.append_nil]

/-! ## Preparation -/

/-- A prepared transition starts from the given state and carries the given Session. -/
theorem prepareTransition_ok {graph : CompiledGraph τ} {scopeRun : ScopeRunCoordinate}
    {previous : Option GraphRunState} {command : GraphRunCommand}
    {result : Option (CompletedTask ν σ)} {admittedSuccessor : Option GraphRunState}
    {graphInput : Option (Frame ν)} {session : Option (AgentSession σ)}
    {transition : GraphTransition ν σ}
    (prepared : prepareTransition graph scopeRun previous command result admittedSuccessor
      graphInput session = .ok transition) :
    transition.previousState = previous ∧ transition.agentSession = session := by
  simp only [prepareTransition, bind_eq_ok, exists_unit, pure_eq_ok, Except.ok.injEq]
    at prepared
  obtain ⟨candidate, -, -, -, -, inputs, -, settlement, -, -, rfl⟩ := prepared
  exact ⟨rfl, rfl⟩

/-- The frames an installation puts in place, if it makes an owner. -/
def Installation.frames : Installation τ ν σ → Option (ScopedFrameIndex ν σ)
  | construct _ frames => some frames
  | replace _ frames => some frames
  | discard _ => none

/-- The staged frames are those of the scope with exactly the frames of the transition. -/
def StagedTransition.Exact (staged : StagedTransition τ ν σ) (frames : ScopedFrameIndex ν σ) :
    Prop :=
  ∀ new ∈ staged.installation.frames, frames.Extends staged.transition.writes.inputRecords
    staged.transition.writes.publicationRecords staged.request.resumeInputs new

/-- What a prepared request has to do with the scope it is for. -/
theorem prepareRequest_ok {scopeRun : ScopeRunCoordinate} {phase : ScopePhase τ ν σ}
    {request : TransitionRequest τ ν σ} {selected : Option (AgentSession σ)}
    {transition : GraphTransition ν σ} {installation : Installation τ ν σ}
    (prepared : prepareRequest scopeRun phase request selected = .ok (transition, installation)) :
    transition.previousState = phase.state ∧ transition.agentSession = selected ∧
      StagedTransition.Exact ⟨request, selected, transition, installation⟩ phase.frames := by
  unfold prepareRequest at prepared
  split at prepared
  · -- a start stages its input over an empty index
    simp only [rethrow_eq_ok, prepareStart, bind_eq_ok, pure_eq_ok, Except.ok.injEq,
      Prod.mk.injEq] at prepared
    obtain ⟨command, -, transition, made, frames, applied, rfl, rfl⟩ := prepared
    obtain ⟨previous, session⟩ := prepareTransition_ok made
    refine ⟨previous, session, ?_⟩
    intro new member
    obtain rfl : frames = new := Option.some.inj member
    exact applyCommitWrites_extends applied
  · simp only [rethrow_eq_ok, prepareCleanup, bind_eq_ok, pure_eq_ok, Except.ok.injEq,
      Prod.mk.injEq] at prepared
    obtain ⟨transition, made, rfl, rfl⟩ := prepared
    obtain ⟨previous, session⟩ := prepareTransition_ok made
    exact ⟨previous, session, fun new member => absurd member (Option.not_mem_none new)⟩
  · simp only [rethrow_eq_ok, prepareScoped, bind_eq_ok, pure_eq_ok, Except.ok.injEq,
      Prod.mk.injEq] at prepared
    obtain ⟨transition, made, frames, applied, rfl, rfl⟩ := prepared
    obtain ⟨previous, session⟩ := prepareTransition_ok made
    refine ⟨previous, session, ?_⟩
    intro new member
    obtain rfl : frames = new := Option.some.inj member
    exact applyCommitWrites_extends applied
  · -- an admitted resume writes no frames of its own
    simp only [rethrow_eq_ok, prepareResume, bind_eq_ok, exists_unit, raiseIf_eq_ok,
      pure_eq_ok, Except.ok.injEq, Prod.mk.injEq, not_or, Bool.not_eq_false,
      List.isEmpty_iff] at prepared
    obtain ⟨frames, projected, transition, made, ⟨inputs, publications⟩, rfl, rfl⟩ := prepared
    obtain ⟨previous, session⟩ := prepareTransition_ok made
    refine ⟨previous, session, ?_⟩
    intro new member
    obtain rfl : frames = new := Option.some.inj member
    simp only [GraphCommitWriteSet.inputRecords, GraphCommitWriteSet.publicationRecords, inputs,
      publications, List.map_nil]
    exact projectResumeFrames_extends projected
  · cases prepared

/-- What the store confirms is an answer to the command of the transition. -/
theorem confirmScoped_ok {scopeRun : ScopeRunCoordinate} {transition : GraphTransition ν σ}
    {reply : Option GraphRunState} {state : GraphRunState}
    (confirmed : Family.confirmScoped scopeRun transition reply = .ok state) :
    ∃ successor, reduceGraphRun transition.previousState transition.command = .ok successor ∧
      Confirms transition.command successor state := by
  simp only [Family.confirmScoped, bind_eq_ok, exists_unit, rethrow_eq_ok] at confirmed
  obtain ⟨-, accepted⟩ := confirmed
  unfold confirmTransition at accepted
  split at accepted
  · cases accepted
  · simp only [rethrow_eq_ok, bind_eq_ok, exists_unit, admitGraphRunConfirmation_eq_ok] at accepted
    obtain ⟨-, rfl, successor, reduced, confirms⟩ := accepted
    exact ⟨successor, reduced, confirms⟩

/-! ## Chains -/

/-- Each confirmed state answers a command applied to the one before it. -/
def ConfirmedChain (previous : Option GraphRunState) :
    List (ConfirmedTransition τ ν σ) → Prop
  | [] => True
  | confirmed :: later =>
      (∃ successor, reduceGraphRun previous confirmed.staged.transition.command = .ok successor ∧
        Confirms confirmed.staged.transition.command successor confirmed.state) ∧
      ConfirmedChain (some confirmed.state) later

/-- The state a chain ends in. -/
def chainEnd (previous : Option GraphRunState) :
    List (ConfirmedTransition τ ν σ) → Option GraphRunState
  | [] => previous
  | confirmed :: later => chainEnd (some confirmed.state) later

theorem chainEnd_concat (previous : Option GraphRunState)
    (chain : List (ConfirmedTransition τ ν σ)) (confirmed : ConfirmedTransition τ ν σ) :
    chainEnd previous (chain ++ [confirmed]) = some confirmed.state := by
  induction chain generalizing previous with
  | nil => rfl
  | cons head chain ih => exact ih (some head.state)

theorem ConfirmedChain.concat {previous : Option GraphRunState}
    {chain : List (ConfirmedTransition τ ν σ)} {confirmed : ConfirmedTransition τ ν σ}
    (linked : ConfirmedChain previous chain)
    (last : ∃ successor, reduceGraphRun (chainEnd previous chain)
        confirmed.staged.transition.command = .ok successor ∧
      Confirms confirmed.staged.transition.command successor confirmed.state) :
    ConfirmedChain previous (chain ++ [confirmed]) := by
  induction chain generalizing previous with
  | nil => exact ⟨last, trivial⟩
  | cons head chain ih => exact ⟨linked.1, ih linked.2 last⟩

/-! ## Steps -/

namespace Family

/-- The confirmed transitions of one scope, in order. -/
def journalOf (family : Family τ ν σ) (scopeRun : ScopeRunCoordinate) :
    List (ConfirmedTransition τ ν σ) :=
  family.journal.filter (fun confirmed => confirmed.scopeRun = scopeRun)

theorem prepare_eq_ok {family next : Family τ ν σ} {scopeRun : ScopeRunCoordinate}
    {request : TransitionRequest τ ν σ} (taken : family.prepare scopeRun request = .ok next) :
    family.held = none ∧ family.awaiting scopeRun = none ∧ ∃ staged,
      staged.transition.previousState = (family.phases scopeRun).state ∧
      staged.transition.agentSession = staged.selected ∧
      staged.Exact (family.phases scopeRun).frames ∧
      next = { family with held := some (scopeRun, staged) } := by
  simp only [Family.prepare, bind_eq_ok, exists_unit, raiseIf_eq_ok, pure_eq_ok,
    Except.ok.injEq, not_or, Bool.not_eq_true, Option.isSome_eq_false_iff, Option.isNone_iff_eq_none]
    at taken
  obtain ⟨⟨free, idle⟩, ⟨transition, installation⟩, prepared, rfl⟩ := taken
  obtain ⟨previous, session, exact⟩ := prepareRequest_ok prepared
  exact ⟨free, idle, _, previous, session, exact, rfl⟩

theorem answer_eq_ok {family next : Family τ ν σ} {reply : Option GraphRunState}
    (taken : family.answer reply = .ok next) :
    ∃ scopeRun staged, family.held = some (scopeRun, staged) ∧
      ((∃ error, confirmScoped scopeRun staged.transition reply = .error error ∧
          next = { family with held := none }) ∨
        ∃ state, confirmScoped scopeRun staged.transition reply = .ok state ∧
          next = { family with
            session := staged.selected
            held := none
            awaiting := Function.update family.awaiting scopeRun (some ⟨scopeRun, staged, state⟩)
            journal := family.journal ++ [⟨scopeRun, staged, state⟩] }) := by
  unfold Family.answer at taken
  split at taken
  · cases taken
  · rename_i scopeRun staged held
    refine ⟨scopeRun, staged, held, ?_⟩
    split at taken
    · rename_i error refused
      exact .inl ⟨error, refused, (Except.ok.inj taken).symm⟩
    · rename_i state confirmed
      exact .inr ⟨state, confirmed, (Except.ok.inj taken).symm⟩

theorem install_eq_ok {family next : Family τ ν σ} {scopeRun : ScopeRunCoordinate}
    (taken : family.install scopeRun = .ok next) :
    ∃ confirmed, family.awaiting scopeRun = some confirmed ∧ next = { family with
      phases := Function.update family.phases scopeRun (installed confirmed)
      awaiting := Function.update family.awaiting scopeRun none } := by
  unfold Family.install at taken
  split at taken
  · cases taken
  · rename_i confirmed awaited
    exact ⟨confirmed, awaited, (Except.ok.inj taken).symm⟩

/-- A handoff changes nothing, or adds the boundary of a completed child to the parent. -/
theorem handoff_eq_ok [DecidableEq τ] {typeOf : ν → τ} {family next : Family τ ν σ}
    {scopeRun childScopeRun : ScopeRunCoordinate}
    (taken : family.handoff typeOf scopeRun childScopeRun = .ok next) :
    next = family ∨ ∃ owner child frames, family.phases scopeRun = .owned owner ∧
      family.phases childScopeRun = .owned child ∧ child.state.status = .completed ∧
      next = { family with
        phases := Function.update family.phases scopeRun
          (.owned ⟨owner.graph, owner.state, frames⟩) } := by
  unfold Family.handoff at taken
  split at taken
  · rename_i owner child parentPhase childPhase idle
    simp only [rethrow_eq_ok, bind_eq_ok, exists_unit, orRaise_eq_ok] at taken
    obtain ⟨parent, -, coordinate, -, -, terminal, projected, boundary, bounded, taken⟩ := taken
    cases boundary with
    | none => exact .inl (Except.ok.inj taken).symm
    | some record =>
        simp only [bind_eq_ok, pure_eq_ok, Except.ok.injEq] at taken
        obtain ⟨frames, -, rfl⟩ := taken
        refine .inr ⟨owner, child, frames, parentPhase, childPhase, ?_, rfl⟩
        -- only a completed child has a boundary
        unfold terminalProjection at projected
        split at projected
        · assumption
        all_goals
          simp only [bind_eq_ok, pure_eq_ok, throw_eq_error, Except.ok.injEq, reduceCtorEq]
            at projected
        · obtain ⟨reason, -, rfl⟩ := projected
          simp [terminalBoundary] at bounded
        · subst projected
          simp [terminalBoundary] at bounded
  · cases taken

/-! ## What every run keeps -/

/-- The last confirmed state of a scope, installed or not. -/
def current (family : Family τ ν σ) (scopeRun : ScopeRunCoordinate) : Option GraphRunState :=
  ((family.awaiting scopeRun).map ConfirmedTransition.state).or (family.phases scopeRun).state

/-- The Session of the last confirmed transition, or the one given at the start. -/
def confirmedSession (initial : Option (AgentSession σ))
    (journal : List (ConfirmedTransition τ ν σ)) : Option (AgentSession σ) :=
  (journal.getLast?.map (fun confirmed => confirmed.staged.transition.agentSession)).getD initial

/-- A state of an invocation and the journal that led to it agree. -/
structure Consistent (initial family : Family τ ν σ) : Prop where
  chain : ∀ scopeRun, ConfirmedChain (initial.phases scopeRun).state (family.journalOf scopeRun)
  current : ∀ scopeRun, family.current scopeRun =
    chainEnd (initial.phases scopeRun).state (family.journalOf scopeRun)
  held : ∀ scopeRun staged, family.held = some (scopeRun, staged) →
    family.awaiting scopeRun = none ∧
    staged.transition.previousState = (family.phases scopeRun).state ∧
    staged.transition.agentSession = staged.selected
  awaiting : ∀ scopeRun confirmed, family.awaiting scopeRun = some confirmed →
    confirmed.scopeRun = scopeRun ∧ (family.journalOf scopeRun).getLast? = some confirmed
  session : family.session = confirmedSession initial.session family.journal

theorem journalOf_concat (family : Family τ ν σ) (confirmed : ConfirmedTransition τ ν σ)
    (scopeRun : ScopeRunCoordinate) :
    (family.journal ++ [confirmed]).filter (fun item => item.scopeRun = scopeRun) =
      if confirmed.scopeRun = scopeRun then family.journalOf scopeRun ++ [confirmed]
      else family.journalOf scopeRun := by
  rw [List.filter_append, List.filter_singleton]
  by_cases here : confirmed.scopeRun = scopeRun
  · simp [here, journalOf]
  · simp [here, journalOf]

theorem installed_state (confirmed : ConfirmedTransition τ ν σ) :
    (installed confirmed).state = some confirmed.state := by
  unfold installed
  split
  · split <;> rfl
  · rfl
  · rfl

/-- A handoff changes no state. -/
theorem handoff_state [DecidableEq τ] {typeOf : ν → τ} {family next : Family τ ν σ}
    {scopeRun childScopeRun : ScopeRunCoordinate}
    (taken : family.handoff typeOf scopeRun childScopeRun = .ok next) :
    (∀ other, (next.phases other).state = (family.phases other).state) ∧
      next.session = family.session ∧ next.held = family.held ∧
      next.awaiting = family.awaiting ∧ next.journal = family.journal := by
  rcases handoff_eq_ok taken with rfl | ⟨owner, child, frames, parentPhase, -, -, rfl⟩
  · exact ⟨fun _ => rfl, rfl, rfl, rfl, rfl⟩
  · refine ⟨?_, rfl, rfl, rfl, rfl⟩
    intro other
    by_cases here : other = scopeRun
    · subst here
      simp [parentPhase, ScopePhase.state]
    · simp [Function.update_of_ne here]

namespace Consistent

variable {initial family next : Family τ ν σ}

theorem prepare {scopeRun : ScopeRunCoordinate} {request : TransitionRequest τ ν σ}
    (consistent : Consistent initial family)
    (taken : family.prepare scopeRun request = .ok next) : Consistent initial next := by
  obtain ⟨-, idle, staged, previous, session, -, rfl⟩ := prepare_eq_ok taken
  refine ⟨consistent.chain, consistent.current, ?_, consistent.awaiting, consistent.session⟩
  intro other item held
  obtain ⟨rfl, rfl⟩ : scopeRun = other ∧ staged = item := by simpa using held
  exact ⟨idle, previous, session⟩

theorem answer {reply : Option GraphRunState} (consistent : Consistent initial family)
    (taken : family.answer reply = .ok next) : Consistent initial next := by
  obtain ⟨scopeRun, staged, held, refused | confirmed⟩ := answer_eq_ok taken
  · obtain ⟨error, -, rfl⟩ := refused
    exact ⟨consistent.chain, consistent.current, (fun _ _ free => nomatch free),
      consistent.awaiting, consistent.session⟩
  · obtain ⟨state, confirmed, rfl⟩ := confirmed
    obtain ⟨idle, previous, session⟩ := consistent.held scopeRun staged held
    have here : family.current scopeRun = (family.phases scopeRun).state := by
      simp [Family.current, idle]
    obtain ⟨successor, reduced, confirms⟩ := confirmScoped_ok confirmed
    rw [previous, ← here, consistent.current scopeRun] at reduced
    refine ⟨?_, ?_, (fun _ _ free => nomatch free), ?_, ?_⟩
    · intro other
      show ConfirmedChain _ ((family.journal ++ [_]).filter _)
      rw [journalOf_concat]
      split
      · rename_i same
        subst same
        exact (consistent.chain scopeRun).concat ⟨successor, reduced, confirms⟩
      · exact consistent.chain other
    · intro other
      show _ = chainEnd _ ((family.journal ++ [_]).filter _)
      rw [journalOf_concat]
      split
      · rename_i same
        subst same
        simp [chainEnd_concat, Family.current]
      · rename_i different
        have kept := consistent.current other
        simpa [Family.current, Function.update_of_ne (Ne.symm different)] using kept
    · intro other item awaited
      show item.scopeRun = other ∧ ((family.journal ++ [_]).filter _).getLast? = some item
      rw [journalOf_concat]
      split
      · rename_i same
        subst same
        obtain rfl : _ = item := by simpa using awaited
        simp
      · rename_i different
        simp only [Function.update_of_ne (Ne.symm different)] at awaited
        exact consistent.awaiting other item awaited
    · simp [confirmedSession, session]

theorem install {scopeRun : ScopeRunCoordinate} (consistent : Consistent initial family)
    (taken : family.install scopeRun = .ok next) : Consistent initial next := by
  obtain ⟨confirmed, awaited, rfl⟩ := install_eq_ok taken
  refine ⟨consistent.chain, ?_, ?_, ?_, consistent.session⟩
  · intro other
    refine Eq.trans ?_ (consistent.current other)
    by_cases here : other = scopeRun
    · subst here
      simp [Family.current, awaited, installed_state]
    · simp [Family.current, Function.update_of_ne here]
  · intro other item held
    obtain ⟨idle, previous, session⟩ := consistent.held other item held
    have different : other ≠ scopeRun := by
      rintro rfl
      simp [awaited] at idle
    simpa [Function.update_of_ne different] using ⟨idle, previous, session⟩
  · intro other item waiting
    by_cases here : other = scopeRun
    · subst here
      simp at waiting
    · simp only [Function.update_of_ne here] at waiting
      exact consistent.awaiting other item waiting

theorem handoff [DecidableEq τ] {typeOf : ν → τ} {scopeRun childScopeRun : ScopeRunCoordinate}
    (consistent : Consistent initial family)
    (taken : family.handoff typeOf scopeRun childScopeRun = .ok next) :
    Consistent initial next := by
  obtain ⟨states, session, held, awaiting, journal⟩ := handoff_state taken
  have journals : next.journalOf = family.journalOf := by
    funext other
    simp only [journalOf, journal]
  refine ⟨?_, ?_, ?_, ?_, ?_⟩
  · intro other
    rw [journals]
    exact consistent.chain other
  · intro other
    rw [journals, ← consistent.current other, Family.current, Family.current, awaiting, states]
  · intro other item prepared
    rw [awaiting, states]
    exact consistent.held other item (held ▸ prepared)
  · intro other item waiting
    rw [journals]
    exact consistent.awaiting other item (awaiting ▸ waiting)
  · rw [session, journal]
    exact consistent.session

end Consistent

/-- Every step keeps an invocation and its journal in agreement. -/
theorem Consistent.step [DecidableEq τ] {typeOf : ν → τ} {initial family next : Family τ ν σ}
    {command : FamilyStep τ ν σ} (consistent : Consistent initial family)
    (taken : family.step typeOf command = .ok next) : Consistent initial next := by
  cases command with
  | prepare scopeRun request => exact consistent.prepare taken
  | answer reply => exact consistent.answer taken
  | install scopeRun => exact consistent.install taken
  | handoff scopeRun childScopeRun => exact consistent.handoff taken

/-! ## What undisturbed runs keep -/

/-- The scopes to which a completed child has handed its boundary since they last prepared a
transition. -/
def handedSince (handed : ScopeRunCoordinate → Bool)
    (event : Event (Family τ ν σ) (FamilyStep τ ν σ)) : ScopeRunCoordinate → Bool :=
  match event.command with
  | .prepare scopeRun _ => Function.update handed scopeRun false
  | .handoff scopeRun childScopeRun =>
      if (event.before.phases childScopeRun).state.map (·.status) = some .completed then
        Function.update handed scopeRun true
      else handed
  | .answer _ => handed
  | .install _ => handed

/-- A step that installs does so in a scope that was handed nothing since the preparation. -/
def Undisturbed (handed : ScopeRunCoordinate → Bool) : FamilyStep τ ν σ → Prop
  | .install scopeRun => handed scopeRun = false
  | _ => True

instance (handed : ScopeRunCoordinate → Bool) : (command : FamilyStep τ ν σ) →
    Decidable (Undisturbed handed command)
  | .install _ => inferInstanceAs (Decidable (_ = _))
  | .prepare _ _ => isTrue trivial
  | .answer _ => isTrue trivial
  | .handoff _ _ => isTrue trivial

/-- A transition that is not installed yet stages what its scope holds now, unless the scope was
handed a boundary since. -/
structure StagesExactly (handed : ScopeRunCoordinate → Bool) (family : Family τ ν σ) : Prop where
  held : ∀ scopeRun staged, handed scopeRun = false → family.held = some (scopeRun, staged) →
    staged.Exact (family.phases scopeRun).frames
  awaiting : ∀ scopeRun confirmed, handed scopeRun = false →
    family.awaiting scopeRun = some confirmed →
    confirmed.staged.Exact (family.phases scopeRun).frames

namespace StagesExactly

variable {initial family next : Family τ ν σ} {handed : ScopeRunCoordinate → Bool}

theorem prepare {scopeRun : ScopeRunCoordinate} {request : TransitionRequest τ ν σ}
    (stages : StagesExactly handed family) (taken : family.prepare scopeRun request = .ok next) :
    StagesExactly (Function.update handed scopeRun false) next := by
  obtain ⟨-, idle, staged, -, -, exact, rfl⟩ := prepare_eq_ok taken
  refine ⟨?_, ?_⟩
  · intro other item _ held
    obtain ⟨rfl, rfl⟩ : scopeRun = other ∧ staged = item := by simpa using held
    exact exact
  · intro other item clean waiting
    have different : other ≠ scopeRun := by
      rintro rfl
      simp [idle] at waiting
    rw [Function.update_of_ne different] at clean
    exact stages.awaiting other item clean waiting

theorem answer {reply : Option GraphRunState} (stages : StagesExactly handed family)
    (taken : family.answer reply = .ok next) : StagesExactly handed next := by
  obtain ⟨scopeRun, staged, held, refused | confirmed⟩ := answer_eq_ok taken
  · obtain ⟨error, -, rfl⟩ := refused
    exact ⟨(fun _ _ _ free => nomatch free), stages.awaiting⟩
  · obtain ⟨state, -, rfl⟩ := confirmed
    refine ⟨(fun _ _ _ free => nomatch free), ?_⟩
    intro other item clean waiting
    by_cases here : other = scopeRun
    · subst here
      obtain rfl : _ = item := by simpa using waiting
      exact stages.held other staged clean held
    · simp only [Function.update_of_ne here] at waiting
      exact stages.awaiting other item clean waiting

theorem install {scopeRun : ScopeRunCoordinate} (consistent : Consistent initial family)
    (stages : StagesExactly handed family) (taken : family.install scopeRun = .ok next) :
    StagesExactly handed next := by
  obtain ⟨confirmed, awaited, rfl⟩ := install_eq_ok taken
  refine ⟨?_, ?_⟩
  · intro other item clean held
    -- the scope that installs has no transition of its own in flight
    have different : other ≠ scopeRun := by
      rintro rfl
      have idle := (consistent.held other item held).1
      simp [awaited] at idle
    show item.Exact (Function.update family.phases scopeRun _ other).frames
    rw [Function.update_of_ne different]
    exact stages.held other item clean held
  · intro other item clean waiting
    have different : other ≠ scopeRun := by
      rintro rfl
      simp at waiting
    show item.staged.Exact (Function.update family.phases scopeRun _ other).frames
    rw [Function.update_of_ne different]
    simp only [Function.update_of_ne different] at waiting
    exact stages.awaiting other item clean waiting

/-- A step that moves no transition and leaves the phases of what it does not mark keeps this. -/
theorem marks {later : ScopeRunCoordinate → Bool} (stages : StagesExactly handed family)
    (held : next.held = family.held) (awaiting : next.awaiting = family.awaiting)
    (kept : ∀ scopeRun, later scopeRun = false →
      handed scopeRun = false ∧ next.phases scopeRun = family.phases scopeRun) :
    StagesExactly later next := by
  refine ⟨?_, ?_⟩
  · intro other item clean moving
    obtain ⟨before, same⟩ := kept other clean
    rw [same]
    exact stages.held other item before (held ▸ moving)
  · intro other item clean waiting
    obtain ⟨before, same⟩ := kept other clean
    rw [same]
    exact stages.awaiting other item before (awaiting ▸ waiting)

theorem handoff [DecidableEq τ] {typeOf : ν → τ} {scopeRun childScopeRun : ScopeRunCoordinate}
    (stages : StagesExactly handed family)
    (taken : family.handoff typeOf scopeRun childScopeRun = .ok next) :
    StagesExactly (handedSince handed ⟨family, .handoff scopeRun childScopeRun, next⟩) next := by
  have marked : ∀ other, Function.update handed scopeRun true other = false →
      other ≠ scopeRun ∧ handed other = false := by
    intro other clean
    have different : other ≠ scopeRun := by
      rintro rfl
      simp at clean
    exact ⟨different, Function.update_of_ne different true handed ▸ clean⟩
  simp only [handedSince]
  rcases handoff_eq_ok taken with rfl | ⟨owner, child, frames, -, childPhase, completed, rfl⟩
  · split
    · exact stages.marks rfl rfl (fun other clean => ⟨(marked other clean).2, rfl⟩)
    · exact stages
  · rw [if_pos (by simp [childPhase, ScopePhase.state, completed])]
    refine stages.marks rfl rfl ?_
    intro other clean
    obtain ⟨different, before⟩ := marked other clean
    exact ⟨before, Function.update_of_ne different _ _⟩

theorem step [DecidableEq τ] {typeOf : ν → τ} {command : FamilyStep τ ν σ}
    (consistent : Consistent initial family) (stages : StagesExactly handed family)
    (taken : family.step typeOf command = .ok next) :
    StagesExactly (handedSince handed ⟨family, command, next⟩) next := by
  cases command with
  | prepare scopeRun request => exact stages.prepare taken
  | answer reply => exact stages.answer taken
  | install scopeRun => exact stages.install consistent taken
  | handoff scopeRun childScopeRun => exact stages.handoff taken

end StagesExactly

/-! ## Atomic runs -/

/-- An invocation before its first transition: restored owners, if any, and nothing in flight. -/
structure Quiescent (family : Family τ ν σ) : Prop where
  held : family.held = none
  awaiting : ∀ scopeRun, family.awaiting scopeRun = none
  journal : family.journal = []

theorem Quiescent.consistent {initial : Family τ ν σ} (quiescent : Quiescent initial) :
    Consistent initial initial := by
  obtain ⟨held, awaiting, journal⟩ := quiescent
  have journals : ∀ scopeRun, initial.journalOf scopeRun = [] := by
    intro scopeRun
    simp [journalOf, journal]
  refine ⟨?_, ?_, ?_, ?_, ?_⟩
  · intro scopeRun
    rw [journals]
    trivial
  · intro scopeRun
    simp [Family.current, awaiting, journals, chainEnd]
  · simp [held]
  · simp [awaiting]
  · simp [confirmedSession, journal]

theorem Quiescent.stagesExactly {initial : Family τ ν σ} (quiescent : Quiescent initial)
    (handed : ScopeRunCoordinate → Bool) : StagesExactly handed initial := by
  refine ⟨?_, ?_⟩
  · simp [quiescent.held]
  · simp [quiescent.awaiting]

/-- The owner an installation leaves holds the confirmed state and, over the frames the scope held,
exactly the frames of the transition. -/
def Installs (confirmed : ConfirmedTransition τ ν σ) (before after : ScopePhase τ ν σ) : Prop :=
  after.state = some confirmed.state ∧ ∀ owner, after = .owned owner →
    before.frames.Extends confirmed.staged.transition.writes.inputRecords
      confirmed.staged.transition.writes.publicationRecords
      confirmed.staged.request.resumeInputs owner.frames

theorem installed_frames {confirmed : ConfirmedTransition τ ν σ} {owner : GraphRunOwner τ ν σ}
    (owned : Family.installed confirmed = .owned owner) :
    confirmed.staged.installation.frames = some owner.frames := by
  unfold Family.installed at owned
  cases installation : confirmed.staged.installation with
  | construct graph frames =>
      simp only [installation] at owned
      split at owned
      · cases owned
        rfl
      · cases owned
  | replace graph frames =>
      simp only [installation] at owned
      cases owned
      rfl
  | discard graph =>
      simp only [installation] at owned
      cases owned

theorem install_installs {initial family next : Family τ ν σ} {scopeRun : ScopeRunCoordinate}
    {handed : ScopeRunCoordinate → Bool} (consistent : Consistent initial family)
    (stages : StagesExactly handed family) (undisturbed : handed scopeRun = false)
    (taken : family.install scopeRun = .ok next) :
    ∃ confirmed, (family.journalOf scopeRun).getLast? = some confirmed ∧
      Installs confirmed (family.phases scopeRun) (next.phases scopeRun) ∧
      ∀ other, other ≠ scopeRun → next.phases other = family.phases other := by
  obtain ⟨confirmed, awaited, rfl⟩ := install_eq_ok taken
  refine ⟨confirmed, (consistent.awaiting scopeRun confirmed awaited).2, ⟨?_, ?_⟩, ?_⟩
  · simp [installed_state]
  · intro owner owned
    simp only [Function.update_self] at owned
    exact stages.awaiting scopeRun confirmed undisturbed awaited owner.frames
      (installed_frames owned)
  · intro other different
    exact Function.update_of_ne different _ _

variable [DecidableEq τ] (typeOf : ν → τ)

/-- Every commit of a run takes effect as a whole or not at all. -/
structure AtomicRun (initial : Family τ ν σ) (steps : List (FamilyStep τ ν σ)) : Prop where
  /-- The confirmed states of one run form a chain of reducer successors. -/
  chain : ∀ family ∈ visited (step typeOf) initial steps, ∀ scopeRun,
    ConfirmedChain (initial.phases scopeRun).state (family.journalOf scopeRun)
  /-- Preparing a transition changes nothing but the lock. -/
  prepared : ∀ event ∈ history (step typeOf) initial steps, ∀ scopeRun request,
    event.command = .prepare scopeRun request → event.after.phases = event.before.phases ∧
      event.after.session = event.before.session
  /-- A failed commit changes nothing but the lock. -/
  failed : ∀ event ∈ history (step typeOf) initial steps, ∀ reply scopeRun staged,
    event.command = .answer reply → event.before.held = some (scopeRun, staged) →
    (∀ state, confirmScoped scopeRun staged.transition reply ≠ .ok state) →
    event.after.phases = event.before.phases ∧ event.after.session = event.before.session ∧
      event.after.journal = event.before.journal
  /-- A confirmed transition installs its own state and frames in its own scope. -/
  installed : ∀ event ∈ history (step typeOf) initial steps, ∀ scopeRun,
    event.command = .install scopeRun → ∃ confirmed,
      (event.before.journalOf scopeRun).getLast? = some confirmed ∧
      Installs confirmed (event.before.phases scopeRun) (event.after.phases scopeRun) ∧
      ∀ other, other ≠ scopeRun → event.after.phases other = event.before.phases other
  /-- The current Session is that of the last confirmed transition. -/
  session : ∀ family ∈ visited (step typeOf) initial steps,
    family.session = confirmedSession initial.session family.journal

/-- Commits are atomic in every run of a family, for all orders of its scopes' steps and all
replies of the store, as long as no transition is installed whose scope was handed the boundary of a
completed child since the preparation. -/
theorem family_commits_atomic (initial : Family τ ν σ) (steps : List (FamilyStep τ ν σ))
    (quiescent : Quiescent initial)
    (undisturbed : ∀ observed ∈ tracked handedSince (fun _ => false)
      (history (step typeOf) initial steps), Undisturbed observed.1 observed.2.command) :
    AtomicRun typeOf initial steps := by
  have invariant : ∀ observed ∈ tracked handedSince (fun _ => false)
      (history (step typeOf) initial steps),
      Consistent initial observed.2.before ∧ StagesExactly observed.1 observed.2.before := by
    apply tracked_invariant
      (P := fun handed family => Consistent initial family ∧ StagesExactly handed family)
    · exact ⟨quiescent.consistent, quiescent.stagesExactly _⟩
    · intro handed event accepted held
      exact ⟨held.1.step accepted, held.2.step held.1 accepted⟩
  have consistent : ∀ family ∈ visited (step typeOf) initial steps,
      Consistent initial family := by
    intro family member
    exact (mem_visited member).preserves (fun _ _ _ taken held => held.step taken)
      quiescent.consistent
  refine ⟨?_, ?_, ?_, ?_, ?_⟩
  · intro family member
    exact (consistent family member).chain
  · intro event member scopeRun request command
    have taken := (mem_history member).2
    rw [Accepted, command] at taken
    obtain ⟨-, -, staged, -, -, -, after⟩ := prepare_eq_ok taken
    exact ⟨by rw [after], by rw [after]⟩
  · intro event member reply scopeRun staged command held fails
    have taken := (mem_history member).2
    rw [Accepted, command] at taken
    obtain ⟨other, item, held', refused | ⟨state, confirmed, -⟩⟩ := answer_eq_ok taken
    · obtain ⟨error, -, after⟩ := refused
      exact ⟨by rw [after], by rw [after], by rw [after]⟩
    · obtain ⟨rfl, rfl⟩ : scopeRun = other ∧ staged = item := by simpa [held] using held'
      exact absurd confirmed (fails state)
  · intro event member scopeRun command
    have taken := (mem_history member).2
    rw [Accepted, command] at taken
    obtain ⟨handed, observed⟩ := mem_tracked handedSince (fun _ => false) member
    obtain ⟨consistent, stages⟩ := invariant _ observed
    have clean := undisturbed _ observed
    rw [command] at clean
    exact install_installs consistent stages clean taken
  · intro family member
    exact (consistent family member).session

end Family

/-! ## A lost boundary -/

section LostBoundary

/-- The plan of a graph whose nodes are all entries and all lead to `END`. -/
def parallelPlan (definitionId : GraphDefinitionId) (nodeIds : List GraphNodeId) :
    FrontierTransitionPlan Unit where
  entries := nodeIds
  directTargets := Dict.build nodeIds (fun _ => [])
  conditionalTargets := Dict.build nodeIds (fun _ => Dict.empty)
  routeOptions := Dict.build nodeIds (fun _ => [none])
  joinsBySource := Dict.build nodeIds (fun _ => [])
  materializations := Dict.build nodeIds (fun _ => default)
  publications := Dict.build nodeIds (fun _ => ⟨⟨definitionId, 1, .nodeOutput, 0⟩, []⟩)
  graphOutputs := []
  resourceOrder := []
  activationGates := Dict.build nodeIds (fun _ => [])

/-- A graph of such a plan. -/
def parallelGraph (definitionId : GraphDefinitionId) (nodeIds : List GraphNodeId)
    (node : GraphNodeId → GraphNode Unit (GraphDefinition Unit))
    (nestedGraphs : List (GraphNodeId × CompiledGraph Unit)) : CompiledGraph Unit where
  definitionId := definitionId
  version := 1
  nodes := Dict.build nodeIds node
  nestedGraphs := nestedGraphs
  graphInputDescriptor := ⟨⟨definitionId, 1, .graphInput, 0⟩, []⟩
  graphOutputDescriptor := ⟨⟨definitionId, 1, .graphOutput, 0⟩, []⟩
  transition := parallelPlan definitionId nodeIds
  resources := []
  resumeInput := none
  completionRoutes := [none]

def leafDefinition : GraphDefinition Unit where
  definitionId := "leaf"
  version := 1
  nodes := [.callable ⟨"b", [], [], [], []⟩]
  edges := [.direct START "b", .direct "b" END]
  entries := ["b"]
  outputs := []

/-- One node `b`. -/
def leafGraph : CompiledGraph Unit :=
  parallelGraph "leaf" ["b"] (fun nodeId => .callable ⟨nodeId, [], [], [], []⟩) []

/-- A node `a` next to a nested node `n`. -/
def rootGraph : CompiledGraph Unit :=
  parallelGraph "root" ["a", "n"]
    (fun nodeId => if nodeId = "n" then .nested "n" leafDefinition []
      else .callable ⟨nodeId, [], [], [], []⟩)
    [("n", leafGraph)]

def rootScope : ScopeRunCoordinate := ⟨[], "run"⟩

def leafScope : ScopeRunCoordinate := ⟨["n"], childGraphRunId "run" 0 "n"⟩

/-- The state a list of commands leads to, as a store that accepts them all would return it. -/
def replay : List GraphRunCommand → Option GraphRunState :=
  List.foldl (fun state command => (reduceGraphRun state command).toOption) none

/-- Start, claim, the success of one node, and completion. -/
def leafCommands : List GraphRunCommand :=
  [.start ⟨leafScope.graphRunId, "leaf", 1, [⟨"b", .start⟩], some ⟨"run", 0, "n"⟩, none, none, none⟩,
    .claim ⟨0, "attempt", none⟩,
    .settle ⟨1, ⟨1, "attempt"⟩, .succeeded "b" .continueGraphRouting, none, none⟩,
    .complete ⟨2, [], none⟩]

/-- Start, claim, and the success of the ordinary node. -/
def rootCommands : List GraphRunCommand :=
  [.start ⟨"run", "root", 1, [⟨"a", .start⟩, ⟨"n", .start⟩], none, none, none, none⟩,
    .claim ⟨0, "attempt", none⟩,
    .settle ⟨1, ⟨1, "attempt"⟩, .succeeded "a" .continueGraphRouting, none, none⟩]

/-- One transaction of a scope, from its preparation to its installation. -/
def transact (scopeRun : ScopeRunCoordinate) (request : TransitionRequest Unit Unit Unit)
    (commands : List GraphRunCommand) : List (FamilyStep Unit Unit Unit) :=
  [.prepare scopeRun request, .answer (replay commands), .install scopeRun]

/-- The success of one node, without output values. -/
def succeeds (scopeRun : ScopeRunCoordinate) (nodeId : GraphNodeId) :
    TransitionRequest Unit Unit Unit :=
  .transition (.settle ⟨1, ⟨1, "attempt"⟩, .succeeded nodeId .continueGraphRouting, none, none⟩)
    (some (.success ⟨taskIdentity scopeRun.graphRunId 0 nodeId, scopeRun.graphRunId, 0, nodeId⟩
      ⟨[], none⟩ none none))

/-- Both scopes are claimed, the child has settled its node and is about to complete, and the
parent waits for the lock to settle its own node. -/
def approach : List (FamilyStep Unit Unit Unit) :=
  transact rootScope (.start rootGraph none ⟨[], none⟩) (rootCommands.take 1) ++
  transact leafScope (.start leafGraph (some ⟨"run", 0, "n"⟩) ⟨[], none⟩) (leafCommands.take 1) ++
  transact rootScope (.transition (.claim ⟨0, "attempt", none⟩) none) (rootCommands.take 2) ++
  transact leafScope (.transition (.claim ⟨0, "attempt", none⟩) none) (leafCommands.take 2) ++
  transact leafScope (succeeds leafScope "b") (leafCommands.take 3) ++
  [.prepare leafScope (.transition (.complete ⟨2, [], none⟩) none), .answer (replay leafCommands),
    .prepare rootScope (succeeds rootScope "a"), .install leafScope]

/-- The child hands its boundary over while the parent's commit is under way. -/
def overlapping : List (FamilyStep Unit Unit Unit) :=
  approach ++ [.handoff rootScope leafScope, .answer (replay rootCommands), .install rootScope]

/-- The child hands its boundary over after the parent's installation. -/
def separate : List (FamilyStep Unit Unit Unit) :=
  approach ++ [.answer (replay rootCommands), .install rootScope, .handoff rootScope leafScope]

/-- The parent's commit fails after the handoff, and the parent settles its node again. -/
def retried : List (FamilyStep Unit Unit Unit) :=
  approach ++ [.handoff rootScope leafScope, .answer none,
    .prepare rootScope (succeeds rootScope "a"), .answer (replay rootCommands), .install rootScope]

/-- An invocation before its root is started. -/
def freshFamily : Family Unit Unit Unit where
  session := none
  phases := fun _ => .absent

theorem freshFamily_quiescent : Family.Quiescent freshFamily :=
  ⟨rfl, fun _ => rfl, rfl⟩

/-- The scope the last event of a run installs, with the number of boundaries its parent scope
holds before and after it. -/
def lastInstalled (steps : List (FamilyStep Unit Unit Unit)) :
    Option (ScopeRunCoordinate × Nat × Nat) :=
  (history (Family.step (fun _ : Unit => ())) freshFamily steps).getLast?.bind fun event =>
    match event.command, event.after.phases rootScope with
    | .install scopeRun, .owned owner => some (scopeRun,
        (event.before.phases rootScope).frames.childBoundaries.length,
        owner.frames.childBoundaries.length)
    | _, _ => none

set_option maxRecDepth 4000 in
theorem lastInstalled_overlapping : lastInstalled overlapping = some (rootScope, 1, 0) := by
  decide +kernel

/-- The frames staged before the child's handoff replace the index that holds its boundary. -/
theorem overlapping_not_atomic :
    Family.Quiescent freshFamily ∧
      ¬ Family.AtomicRun (fun _ : Unit => ()) freshFamily overlapping := by
  refine ⟨freshFamily_quiescent, ?_⟩
  intro atomic
  obtain ⟨event, last, measured⟩ := Option.bind_eq_some_iff.mp lastInstalled_overlapping
  have member := List.mem_of_getLast? last
  split at measured
  · rename_i scopeRun owner command after
    simp only [Option.some.injEq, Prod.mk.injEq] at measured
    obtain ⟨rfl, before, afterwards⟩ := measured
    obtain ⟨confirmed, -, ⟨-, installs⟩, -⟩ := atomic.installed event member rootScope command
    have kept := (installs owner after).childBoundaries
    rw [kept] at afterwards
    omega
  · cases measured

set_option maxRecDepth 4000 in
theorem separate_undisturbed :
    ∀ observed ∈ tracked Family.handedSince (fun _ => false)
      (history (Family.step (fun _ : Unit => ())) freshFamily separate),
      Family.Undisturbed observed.1 observed.2.command := by
  decide +kernel

set_option maxRecDepth 4000 in
theorem retried_undisturbed :
    ∀ observed ∈ tracked Family.handedSince (fun _ => false)
      (history (Family.step (fun _ : Unit => ())) freshFamily retried),
      Family.Undisturbed observed.1 observed.2.command := by
  decide +kernel

set_option maxRecDepth 4000 in
theorem lastInstalled_retried : lastInstalled retried = some (rootScope, 1, 1) := by
  decide +kernel

/-- With the handoff after the installation, or during a commit that fails, the transitions are
atomic. -/
theorem separate_atomic :
    Family.AtomicRun (fun _ : Unit => ()) freshFamily separate ∧
      Family.AtomicRun (fun _ : Unit => ()) freshFamily retried ∧
      lastInstalled retried = some (rootScope, 1, 1) :=
  ⟨Family.family_commits_atomic _ freshFamily separate freshFamily_quiescent separate_undisturbed,
    Family.family_commits_atomic _ freshFamily retried freshFamily_quiescent retried_undisturbed,
    lastInstalled_retried⟩

end LostBoundary

end MoteKernel
