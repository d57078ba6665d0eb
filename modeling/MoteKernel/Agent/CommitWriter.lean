import Mathlib.Logic.Basic

/-!
# The authorized graph writer

`_AuthorizedGraphWriter` of `agent.py` over the `PersistencePort` of
`persistence.py`. The port is a state machine of its own: an answer leaves it in
a new state, and may leave the request changed. `ρ` is the type of the requests,
`σ` of the states of the port, and `ε` of the errors the port raises itself.
-/

namespace MoteKernel

variable {ρ σ ε : Type}

/-- `CommitOutcome`, and any other value a port may return. -/
inductive CommitOutcome (ρ : Type) where
  | applied (confirmed : ρ)
  | notApplied
  | unknown
  | unsupported
  deriving DecidableEq

/-- What the writer raises; `port` is an error of the port that passes through it. -/
inductive WriterError (ε : Type) where
  | persistenceContract (message : String)
  | commitUnresolved (message : String)
  | commitAttemptsExhausted (message : String)
  | port (error : ε)
  deriving DecidableEq

/-- One answer of the port: its outcome or the error it raises, the request as it leaves it, and
its next state. -/
structure PortReply (ρ σ ε : Type) where
  outcome : Except ε (CommitOutcome ρ)
  request : ρ
  store : σ

/-- `PersistencePort`, under the authority of one invocation. -/
structure PersistencePort (ρ σ ε : Type) where
  commit : σ → ρ → PortReply ρ σ ε
  reconcile : σ → ρ → PortReply ρ σ ε

/-- A call the writer has made, with its answer. -/
inductive PortCall (ρ ε : Type) where
  | commit (outcome : Except ε (CommitOutcome ρ))
  | reconcile (outcome : Except ε (CommitOutcome ρ))

namespace PortCall

def isCommit : PortCall ρ ε → Bool
  | commit _ => true
  | reconcile _ => false

end PortCall

/-- The request, the state of the port and the calls made so far. -/
structure WriterState (ρ σ ε : Type) where
  request : ρ
  store : σ
  calls : List (PortCall ρ ε)

section Writer

variable [DecidableEq ρ] (admits : ρ → Bool)

/-- The `finally` of a call: a changed request is raised instead of the outcome. -/
def requireUnchanged (baseline : ρ) (message : String) (reply : PortReply ρ σ ε) :
    Except (WriterError ε) (CommitOutcome ρ) :=
  if admits reply.request = true ∧ reply.request = baseline then
    reply.outcome.mapError WriterError.port
  else .error (.persistenceContract message)

/-- `CommitApplied.admit().confirmed`. -/
def admitApplied (confirmed : ρ) : Except (WriterError ε) ρ :=
  if admits confirmed = true then .ok confirmed
  else .error (.persistenceContract "persistence returned a malformed Applied outcome")

/-- What an outcome ends the call with; a proven `NotApplied` goes on with the next attempt. -/
def outcomeResult : CommitOutcome ρ → Option (Except (WriterError ε) ρ)
  | .applied confirmed => some (admitApplied admits confirmed)
  | .unknown => some (.error (.commitUnresolved
      "the exact Graph commit remains unknown after reconciliation"))
  | .unsupported => some (.error (.persistenceContract
      "persistence returned an unsupported commit outcome"))
  | .notApplied => none

/-- `commit` and its check. -/
def commitOnce (port : PersistencePort ρ σ ε) (baseline : ρ) (state : WriterState ρ σ ε) :
    Except (WriterError ε) (CommitOutcome ρ) × WriterState ρ σ ε :=
  let reply := port.commit state.store state.request
  (requireUnchanged admits baseline "persistence mutated the Graph commit request" reply,
    ⟨reply.request, reply.store, state.calls ++ [.commit reply.outcome]⟩)

/-- `reconcile` and its check. -/
def reconcileOnce (port : PersistencePort ρ σ ε) (baseline : ρ) (state : WriterState ρ σ ε) :
    Except (WriterError ε) (CommitOutcome ρ) × WriterState ρ σ ε :=
  let reply := port.reconcile state.store state.request
  (requireUnchanged admits baseline "persistence mutated the reconciled Graph commit request" reply,
    ⟨reply.request, reply.store, state.calls ++ [.reconcile reply.outcome]⟩)

/-- One turn of the attempt loop. -/
def attempt (port : PersistencePort ρ σ ε) (baseline : ρ) (state : WriterState ρ σ ε) :
    Option (Except (WriterError ε) ρ) × WriterState ρ σ ε :=
  match commitOnce admits port baseline state with
  | (.error error, next) => (some (.error error), next)
  | (.ok .unknown, next) =>
      match reconcileOnce admits port baseline next with
      | (.error error, last) => (some (.error error), last)
      | (.ok outcome, last) => (outcomeResult admits outcome, last)
  | (.ok outcome, next) => (outcomeResult admits outcome, next)

/-- The attempt loop. -/
def attempts (port : PersistencePort ρ σ ε) (baseline : ρ) :
    Nat → WriterState ρ σ ε → Except (WriterError ε) ρ × WriterState ρ σ ε
  | 0, state => (.error (.commitAttemptsExhausted
      "the exact Graph commit exhausted its NotApplied attempt budget"), state)
  | remaining + 1, state =>
      match attempt admits port baseline state with
      | (some result, next) => (result, next)
      | (none, next) => attempts port baseline remaining next

/-- `_AuthorizedGraphWriter.__call__`. -/
def authorizedWrite (port : PersistencePort ρ σ ε) (maxAttempts : Nat) (request : ρ) (store : σ) :
    Except (WriterError ε) ρ × WriterState ρ σ ε :=
  if admits request = true then attempts admits port request maxAttempts ⟨request, store, []⟩
  else (.error (.persistenceContract "Agent received a malformed Graph commit request"),
    ⟨request, store, []⟩)

end Writer

/-! ## What one turn does -/

section Turn

variable [DecidableEq ρ] {admits : ρ → Bool} {port : PersistencePort ρ σ ε} {baseline : ρ}

theorem requireUnchanged_ok {message : String} {reply : PortReply ρ σ ε} {outcome : CommitOutcome ρ}
    (accepted : requireUnchanged admits baseline message reply = .ok outcome) :
    reply.request = baseline ∧ reply.outcome = .ok outcome := by
  unfold requireUnchanged at accepted
  split at accepted
  · rename_i unchanged
    refine ⟨unchanged.2, ?_⟩
    cases answer : reply.outcome with
    | error error => rw [answer] at accepted; cases accepted
    | ok value => rw [answer] at accepted; exact congrArg _ (Except.ok.inj accepted)
  · cases accepted

theorem requireUnchanged_error {message : String} {reply : PortReply ρ σ ε}
    {error : WriterError ε} (raised : requireUnchanged admits baseline message reply = .error error) :
    error = .persistenceContract message ∨
      reply.request = baseline ∧ ∃ e, reply.outcome = .error e ∧ error = .port e := by
  unfold requireUnchanged at raised
  split at raised
  · rename_i unchanged
    right
    cases answer : reply.outcome with
    | error e =>
        rw [answer] at raised
        exact ⟨unchanged.2, e, rfl, (Except.error.inj raised).symm⟩
    | ok value => rw [answer] at raised; cases raised
  · exact .inl (Except.error.inj raised).symm

omit [DecidableEq ρ] in
/-- An outcome that ends the call with a confirmation is `Applied`, and only an unknown one is
unresolved. -/
theorem outcomeResult_spec (admits : ρ → Bool) (outcome : CommitOutcome ρ) :
    (outcomeResult (ε := ε) admits outcome = none ↔ outcome = .notApplied) ∧
    (∀ c, outcomeResult (ε := ε) admits outcome = some (.ok c) → outcome = .applied c) ∧
    ((∃ m, outcomeResult (ε := ε) admits outcome = some (.error (.commitUnresolved m))) ↔
      outcome = .unknown) ∧
    ∀ m, outcomeResult (ε := ε) admits outcome ≠ some (.error (.commitAttemptsExhausted m)) := by
  cases outcome with
  | applied confirmed =>
      unfold outcomeResult admitApplied
      by_cases admitted : admits confirmed = true
      · simp [admitted]
      · simp [admitted]
  | notApplied => simp [outcomeResult]
  | unknown => simp [outcomeResult]
  | unsupported => simp [outcomeResult]

/-- The calls of one turn and what it ends with: a commit, and a reconciliation when its answer is
unknown. Another error is raised for a changed request, or by the port. -/
inductive TurnCalls (admits : ρ → Bool) (baseline : ρ) (request : ρ) :
    Option (Except (WriterError ε) ρ) → List (PortCall ρ ε) → Prop where
  | committed (outcome : CommitOutcome ρ) (known : outcome ≠ .unknown)
      (kept : request = baseline) :
      TurnCalls admits baseline request (outcomeResult admits outcome) [.commit (.ok outcome)]
  | reconciled (outcome : CommitOutcome ρ) (kept : request = baseline) :
      TurnCalls admits baseline request (outcomeResult admits outcome)
        [.commit (.ok .unknown), .reconcile (.ok outcome)]
  | mutated (message : String) (first : Except ε (CommitOutcome ρ))
      (rest : List (PortCall ρ ε))
      (shape : rest = [] ∨ ∃ outcome, first = .ok .unknown ∧ rest = [.reconcile outcome]) :
      TurnCalls admits baseline request (some (.error (.persistenceContract message)))
        (.commit first :: rest)
  | raised (error : ε) (calls : List (PortCall ρ ε)) (kept : request = baseline)
      (shape : calls = [.commit (.error error)] ∨
        calls = [.commit (.ok .unknown), .reconcile (.error error)]) :
      TurnCalls admits baseline request (some (.error (.port error))) calls

/-- One turn of the loop: its calls, and the states of the port they lead through. -/
theorem attempt_calls {state next : WriterState ρ σ ε} {result : Option (Except (WriterError ε) ρ)}
    (taken : attempt admits port baseline state = (result, next)) :
    ∃ calls, next.calls = state.calls ++ calls ∧
      TurnCalls admits baseline next.request result calls := by
  unfold attempt at taken
  cases first : commitOnce admits port baseline state with
  | mk answer committed =>
      have store : committed = ⟨_, _, _⟩ := (congrArg Prod.snd first).symm
      have check := congrArg Prod.fst first
      rw [first] at taken
      cases answer with
      | error error =>
          obtain ⟨rfl, rfl⟩ := Prod.mk.inj taken
          refine ⟨[.commit (port.commit state.store state.request).outcome], by rw [store], ?_⟩
          rcases requireUnchanged_error check with rfl | ⟨kept, e, raised, rfl⟩
          · exact .mutated _ _ _ (.inl rfl)
          · rw [raised, store]
            exact .raised e _ kept (.inl rfl)
      | ok outcome =>
          obtain ⟨kept, answered⟩ := requireUnchanged_ok check
          by_cases unknown : outcome = .unknown
          · subst unknown
            dsimp only at taken
            cases second : reconcileOnce admits port baseline committed with
            | mk answer reconciled =>
                have later : reconciled = ⟨_, _, _⟩ := (congrArg Prod.snd second).symm
                have checkAgain := congrArg Prod.fst second
                rw [second] at taken
                have appended : reconciled.calls = state.calls ++ [.commit (.ok .unknown),
                    .reconcile (port.reconcile committed.store committed.request).outcome] := by
                  rw [later, store, answered]
                  simp
                cases answer with
                | error error =>
                    obtain ⟨rfl, rfl⟩ := Prod.mk.inj taken
                    refine ⟨_, appended, ?_⟩
                    rcases requireUnchanged_error checkAgain with rfl | ⟨keptAgain, e, raised, rfl⟩
                    · exact .mutated _ _ _ (.inr ⟨_, rfl, rfl⟩)
                    · rw [raised, later]
                      exact .raised e _ keptAgain (.inr rfl)
                | ok outcome =>
                    obtain ⟨keptAgain, answeredAgain⟩ := requireUnchanged_ok checkAgain
                    obtain ⟨rfl, rfl⟩ := Prod.mk.inj taken
                    refine ⟨_, appended, ?_⟩
                    rw [answeredAgain, later]
                    exact .reconciled outcome keptAgain
          · have ends : (outcomeResult admits outcome, committed) = (result, next) := by
              cases outcome with
              | unknown => exact absurd rfl unknown
              | applied confirmed => exact taken
              | notApplied => exact taken
              | unsupported => exact taken
            obtain ⟨rfl, rfl⟩ := Prod.mk.inj ends
            refine ⟨[.commit (.ok outcome)], by rw [store, answered], ?_⟩
            rw [store]
            exact .committed outcome unknown kept

end Turn

/-! ## Every call sequence -/

/-- A commit whose answer is unknown is followed by another one only after the reconciliation
right behind it has answered `NotApplied`. -/
def Cautious (calls : List (PortCall ρ ε)) : Prop :=
  ∀ before after, calls = before ++ .commit (.ok .unknown) :: after →
    (∃ call ∈ after, call.isCommit = true) →
    ∃ rest, after = .reconcile (.ok .notApplied) :: rest

theorem Cautious.cons {call : PortCall ρ ε} {calls : List (PortCall ρ ε)}
    (known : call = .commit (.ok .unknown) → (∃ c ∈ calls, c.isCommit = true) →
      ∃ rest, calls = .reconcile (.ok .notApplied) :: rest)
    (cautious : Cautious calls) : Cautious (call :: calls) := by
  intro before after split again
  cases before with
  | nil =>
      obtain ⟨rfl, rfl⟩ := List.cons.inj split
      exact known rfl again
  | cons first before =>
      obtain ⟨-, rest⟩ := List.cons.inj split
      exact cautious before after rest again

theorem Cautious.nil : Cautious ([] : List (PortCall ρ ε)) := by
  intro before after split
  exact absurd split.symm (by simp)

theorem Cautious.reconcile {outcome : Except ε (CommitOutcome ρ)} {calls : List (PortCall ρ ε)}
    (cautious : Cautious calls) : Cautious (.reconcile outcome :: calls) :=
  Cautious.cons (fun same => by cases same) cautious

section Run

variable [DecidableEq ρ] {admits : ρ → Bool} {port : PersistencePort ρ σ ε} {baseline : ρ}

omit [DecidableEq ρ] in
/-- A turn after which the loop goes on ends with a `NotApplied`. -/
theorem TurnCalls.goesOn {request : ρ} {calls : List (PortCall ρ ε)}
    (turn : TurnCalls admits baseline request none calls) : request = baseline ∧
      (calls = [.commit (.ok .notApplied)] ∨
        calls = [.commit (.ok .unknown), .reconcile (.ok .notApplied)]) := by
  generalize goes : (none : Option (Except (WriterError ε) ρ)) = result at turn
  cases turn with
  | committed outcome known kept =>
      rw [(outcomeResult_spec admits outcome).1.mp goes.symm]
      exact ⟨kept, .inl rfl⟩
  | reconciled outcome kept =>
      rw [(outcomeResult_spec admits outcome).1.mp goes.symm]
      exact ⟨kept, .inr rfl⟩
  | mutated message first rest shape => cases goes
  | raised error calls kept shape => cases goes

omit [DecidableEq ρ] in
theorem TurnCalls.cautious {request : ρ} {result : Option (Except (WriterError ε) ρ)}
    {calls : List (PortCall ρ ε)} (turn : TurnCalls admits baseline request result calls) :
    calls.countP PortCall.isCommit = 1 ∧ Cautious calls := by
  have alone : ∀ outcome : Except ε (CommitOutcome ρ), Cautious [.commit outcome] := by
    intro outcome
    apply Cautious.cons _ Cautious.nil
    intro _ again
    simp at again
  have pair : ∀ outcome : Except ε (CommitOutcome ρ),
      Cautious [.commit (.ok .unknown), .reconcile outcome] := by
    intro outcome
    apply Cautious.cons _ Cautious.nil.reconcile
    intro _ again
    simp [PortCall.isCommit] at again
  cases turn with
  | committed outcome known kept => exact ⟨rfl, alone _⟩
  | reconciled outcome kept => exact ⟨rfl, pair _⟩
  | mutated message first rest shape =>
      rcases shape with rfl | ⟨outcome, rfl, rfl⟩
      · exact ⟨rfl, alone _⟩
      · exact ⟨rfl, pair _⟩
  | raised error calls kept shape =>
      rcases shape with rfl | rfl
      · exact ⟨rfl, alone _⟩
      · exact ⟨rfl, pair _⟩

omit [DecidableEq ρ] in
theorem TurnCalls.unchanged {request : ρ} {result : Except (WriterError ε) ρ}
    {calls : List (PortCall ρ ε)} (turn : TurnCalls admits baseline request (some result) calls) :
    request = baseline ∨ ∃ m, result = .error (.persistenceContract m) := by
  generalize ended : some result = ending at turn
  cases turn with
  | committed outcome known kept => exact .inl kept
  | reconciled outcome kept => exact .inl kept
  | mutated message first rest shape => exact .inr ⟨message, Option.some.inj ended⟩
  | raised error calls kept shape => exact .inl kept

/-- The calls of a whole run. -/
theorem attempts_calls {remaining : Nat} {state final : WriterState ρ σ ε}
    {result : Except (WriterError ε) ρ} (kept : state.request = baseline)
    (ran : attempts admits port baseline remaining state = (result, final)) :
    ∃ calls, final.calls = state.calls ++ calls ∧
      calls.countP PortCall.isCommit ≤ remaining ∧ Cautious calls ∧
      (final.request = baseline ∨ ∃ m, result = .error (.persistenceContract m)) := by
  induction remaining generalizing state with
  | zero =>
      obtain ⟨rfl, rfl⟩ := Prod.mk.inj ran
      exact ⟨[], by simp, by simp, Cautious.nil, .inl kept⟩
  | succ remaining ih =>
      rw [attempts] at ran
      cases taken : attempt admits port baseline state with
      | mk ending next =>
          rw [taken] at ran
          obtain ⟨calls, appended, turn⟩ := attempt_calls taken
          cases ending with
          | some ended =>
              obtain ⟨rfl, rfl⟩ := Prod.mk.inj ran
              obtain ⟨once, cautious⟩ := turn.cautious
              exact ⟨calls, appended, by omega, cautious, turn.unchanged⟩
          | none =>
              obtain ⟨keptNext, shape⟩ := turn.goesOn
              obtain ⟨rest, more, bound, cautious, last⟩ := ih keptNext ran
              refine ⟨calls ++ rest, ?_, ?_, ?_, last⟩
              · rw [more, appended, List.append_assoc]
              · have once := turn.cautious.1
                rw [List.countP_append]
                omega
              · rcases shape with rfl | rfl
                · exact Cautious.cons (fun same => by cases same) cautious
                · exact Cautious.cons (fun _ _ => ⟨rest, rfl⟩) cautious.reconcile

end Run

/-! ## Honest ports -/

/-- What the contract says of one answer: the request is kept, the write is applied at most once
and a replay changes nothing, and the two definite outcomes are truthful. An unknown outcome says
nothing. `applications` counts how often the logical write has been applied. -/
structure Truthful (applications : σ → Nat) (request : ρ) (store : σ) (reply : PortReply ρ σ ε) :
    Prop where
  kept : reply.request = request
  once : applications reply.store = applications store ∨
    applications store = 0 ∧ applications reply.store = 1
  applied : ∀ c, reply.outcome = .ok (.applied c) → applications reply.store ≠ 0
  notApplied : reply.outcome = .ok .notApplied → applications reply.store = 0

/-- A port that obeys its contract on one request, from every state. -/
structure Honest (port : PersistencePort ρ σ ε) (applications : σ → Nat) (request : ρ) : Prop where
  commit : ∀ store, Truthful applications request store (port.commit store request)
  reconcile : ∀ store, Truthful applications request store (port.reconcile store request)

/-- The write is applied at most once between two states. -/
def AtMostOnce (applications : σ → Nat) (before after : σ) : Prop :=
  applications after = applications before ∨
    applications before = 0 ∧ applications after = 1

theorem AtMostOnce.trans {applications : σ → Nat} {a b c : σ}
    (first : AtMostOnce applications a b) (second : AtMostOnce applications b c) :
    AtMostOnce applications a c := by
  unfold AtMostOnce at *
  omega

section HonestRun

variable [DecidableEq ρ] {admits : ρ → Bool} {port : PersistencePort ρ σ ε} {baseline : ρ}
  {applications : σ → Nat}

/-- The check of a call passes the outcome of an unchanged request on. -/
theorem requireUnchanged_kept (admitted : admits baseline = true) {reply : PortReply ρ σ ε}
    (kept : reply.request = baseline) (message : String) :
    requireUnchanged admits baseline message reply = reply.outcome.mapError .port := by
  rw [requireUnchanged, if_pos]
  exact ⟨by rw [kept]; exact admitted, kept⟩

/-- What a turn and its end tell of the store of an honest port. -/
structure HonestTurn (applications : σ → Nat) (before after : σ)
    (result : Option (Except (WriterError ε) ρ)) (calls : List (PortCall ρ ε)) : Prop where
  once : AtMostOnce applications before after
  confirmed : ∀ c, result = some (.ok c) → applications after ≠ 0
  unapplied : result = none → applications after = 0
  unresolved : (∃ m, result = some (.error (.commitUnresolved m))) ↔
    PortCall.reconcile (.ok .unknown) ∈ calls
  attempting : ∀ m, result ≠ some (.error (.commitAttemptsExhausted m))

omit [DecidableEq ρ] in
/-- A definite outcome of a truthful answer, after a call that changed the store at most once. -/
theorem HonestTurn.ofOutcome {before middle : σ} {reply : PortReply ρ σ ε}
    {outcome : CommitOutcome ρ} {calls : List (PortCall ρ ε)}
    (earlier : AtMostOnce applications before middle)
    (truthful : Truthful applications baseline middle reply)
    (answered : reply.outcome = .ok outcome)
    (unknown : outcome = .unknown ↔ PortCall.reconcile (.ok .unknown) ∈ calls) :
    HonestTurn applications before reply.store (outcomeResult admits outcome) calls := by
  obtain ⟨ends, confirms, unresolved, attempting⟩ := outcomeResult_spec (ε := ε) admits outcome
  refine ⟨earlier.trans truthful.once, ?_, ?_, unresolved.trans unknown, attempting⟩
  · intro c confirmed
    apply truthful.applied c
    rw [answered, confirms c confirmed]
  · intro goesOn
    apply truthful.notApplied
    rw [answered, ends.mp goesOn]

theorem attempt_honest (admitted : admits baseline = true)
    (honest : Honest port applications baseline) {state next : WriterState ρ σ ε}
    {result : Option (Except (WriterError ε) ρ)} (kept : state.request = baseline)
    (taken : attempt admits port baseline state = (result, next)) :
    next.request = baseline ∧ ∃ calls, next.calls = state.calls ++ calls ∧
      HonestTurn applications state.store next.store result calls := by
  obtain ⟨request, store, calls⟩ := state
  obtain rfl : request = baseline := kept
  have first := honest.commit store
  simp only [attempt, commitOnce, requireUnchanged_kept admitted first.kept] at taken
  cases committed : (port.commit store request).outcome with
  | error error =>
      rw [committed] at taken
      obtain ⟨rfl, rfl⟩ := Prod.mk.inj taken
      refine ⟨first.kept, _, rfl, first.once, ?_, ?_, ?_, ?_⟩ <;> simp
  | ok outcome =>
      rw [committed] at taken
      by_cases unknown : outcome = .unknown
      · subst unknown
        have second := honest.reconcile (port.commit store request).store
        have mapped : (Except.ok .unknown : Except ε (CommitOutcome ρ)).mapError .port =
            (.ok .unknown : Except (WriterError ε) (CommitOutcome ρ)) := rfl
        simp only [mapped, reconcileOnce, first.kept,
          requireUnchanged_kept admitted second.kept] at taken
        cases reconciled : (port.reconcile (port.commit store request).store request).outcome with
        | error error =>
            rw [reconciled] at taken
            obtain ⟨rfl, rfl⟩ := Prod.mk.inj taken
            refine ⟨second.kept, [.commit (.ok .unknown), .reconcile (.error error)], by simp, ?_⟩
            refine ⟨AtMostOnce.trans first.once second.once, ?_, ?_, ?_, ?_⟩ <;>
              simp
        | ok outcome =>
            rw [reconciled] at taken
            obtain ⟨rfl, rfl⟩ := Prod.mk.inj taken
            refine ⟨second.kept, [.commit (.ok .unknown), .reconcile (.ok outcome)], by simp, ?_⟩
            apply HonestTurn.ofOutcome first.once second reconciled
            simp [eq_comm]
      · have ends : (outcomeResult admits outcome, (⟨(port.commit store request).request,
            (port.commit store request).store, calls ++ [.commit (.ok outcome)]⟩ :
            WriterState ρ σ ε)) = (result, next) := by
          cases outcome with
          | unknown => exact absurd rfl unknown
          | applied confirmed => exact taken
          | notApplied => exact taken
          | unsupported => exact taken
        obtain ⟨rfl, rfl⟩ := Prod.mk.inj ends
        refine ⟨first.kept, _, rfl, ?_⟩
        apply HonestTurn.ofOutcome (Or.inl rfl) first committed
        simp [unknown]

/-- What a whole run tells of the store of an honest port. -/
theorem attempts_honest (admitted : admits baseline = true)
    (honest : Honest port applications baseline) {remaining : Nat} {state final : WriterState ρ σ ε}
    {result : Except (WriterError ε) ρ} (kept : state.request = baseline)
    (ran : attempts admits port baseline remaining state = (result, final)) :
    final.request = baseline ∧ AtMostOnce applications state.store final.store ∧
      (∀ c, result = .ok c → applications final.store ≠ 0) ∧
      (∀ m, result = .error (.commitAttemptsExhausted m) →
        remaining = 0 ∨ applications final.store = 0) ∧
      ∃ calls, final.calls = state.calls ++ calls ∧
        ((∃ m, result = .error (.commitUnresolved m)) ↔
          PortCall.reconcile (.ok .unknown) ∈ calls) := by
  induction remaining generalizing state with
  | zero =>
      obtain ⟨rfl, rfl⟩ := Prod.mk.inj ran
      refine ⟨kept, .inl rfl, ?_, ?_, [], ?_, ?_⟩ <;> simp
  | succ remaining ih =>
      rw [attempts] at ran
      cases taken : attempt admits port baseline state with
      | mk ending next =>
          rw [taken] at ran
          obtain ⟨keptNext, calls, appended, turn⟩ := attempt_honest admitted honest kept taken
          cases ending with
          | some ended =>
              obtain ⟨rfl, rfl⟩ := Prod.mk.inj ran
              refine ⟨keptNext, turn.once, ?_, ?_, calls, appended, ?_⟩
              · intro c confirmed
                exact turn.confirmed c (congrArg some confirmed)
              · intro m exhausted
                exact absurd (congrArg some exhausted) (turn.attempting m)
              · rw [← turn.unresolved]
                simp
          | none =>
              obtain ⟨keptLast, once, confirmed, exhausted, rest, more, unresolved⟩ :=
                ih keptNext ran
              refine ⟨keptLast, turn.once.trans once, confirmed, ?_, calls ++ rest, ?_, ?_⟩
              · intro m ended
                right
                rcases exhausted m ended with rfl | unapplied
                · -- no attempt is left after this turn, which ended with a `NotApplied`
                  obtain ⟨-, rfl⟩ := Prod.mk.inj ran
                  exact turn.unapplied rfl
                · exact unapplied
              · rw [more, appended, List.append_assoc]
              · have absent : PortCall.reconcile (.ok .unknown) ∉ calls := by
                  rw [← turn.unresolved]
                  simp
                rw [unresolved, List.mem_append, or_iff_right absent]

end HonestRun

/-- The writer commits at most `maxAttempts` times and never again behind an unresolved unknown
answer, keeps the request or reports the port, and over an honest port tells the truth: a
confirmation is of an applied write, an exhausted budget of an unapplied one, `unresolved` is
raised exactly for an unknown reconciliation, and the write is applied at most once. -/
theorem authorized_commit_at_most_once [DecidableEq ρ] (admits : ρ → Bool)
    (port : PersistencePort ρ σ ε) (maxAttempts : Nat) (positive : 1 ≤ maxAttempts) (request : ρ)
    (store : σ) (result : Except (WriterError ε) ρ) (final : WriterState ρ σ ε)
    (ran : authorizedWrite admits port maxAttempts request store = (result, final)) :
    final.calls.countP PortCall.isCommit ≤ maxAttempts ∧ Cautious final.calls ∧
    (final.request = request ∨ ∃ m, result = .error (.persistenceContract m)) ∧
    ∀ applications : σ → Nat, Honest port applications request →
      (∀ c, result = .ok c → applications final.store ≠ 0) ∧
      (∀ m, result = .error (.commitAttemptsExhausted m) → applications final.store = 0) ∧
      ((∃ m, result = .error (.commitUnresolved m)) ↔
        PortCall.reconcile (.ok .unknown) ∈ final.calls) ∧
      applications final.store ≤ max 1 (applications store) ∧
      (applications store ≠ 0 → applications final.store = applications store) := by
  unfold authorizedWrite at ran
  split at ran
  · rename_i admitted
    have start : (⟨request, store, []⟩ : WriterState ρ σ ε).request = request := rfl
    obtain ⟨calls, made, bound, cautious, kept⟩ := attempts_calls start ran
    rw [List.nil_append] at made
    rw [made]
    refine ⟨bound, cautious, kept, ?_⟩
    intro applications honest
    obtain ⟨-, once, confirmed, exhausted, calls', same, unresolved⟩ :=
      attempts_honest admitted honest start ran
    rw [List.nil_append, made] at same
    refine ⟨confirmed, ?_, by rw [same]; exact unresolved, ?_, ?_⟩
    · intro m ended
      rcases exhausted m ended with none | unapplied
      · omega
      · exact unapplied
    · unfold AtMostOnce at once
      dsimp only at once
      omega
    · intro already
      unfold AtMostOnce at once
      dsimp only at once
      omega
  · obtain ⟨rfl, rfl⟩ := Prod.mk.inj ran
    refine ⟨by simp, Cautious.nil, .inl rfl, ?_⟩
    intro applications honest
    exact ⟨by simp, by simp, by simp, Nat.le_max_right _ _, fun _ => rfl⟩

/-- A port over the number of its calls and of the applied writes: the first commit is lost and
unknown, the second one is applied and unknown, and a reconciliation reads the store. -/
def flakyPort : PersistencePort Unit (Nat × Nat) Unit where
  commit store request := ⟨.ok .unknown, request,
    (store.1 + 1, if store.1 = 0 then store.2 else max 1 store.2)⟩
  reconcile store request := ⟨.ok (if store.2 = 0 then .notApplied else .applied request), request,
    store⟩

theorem flakyPort_honest : Honest flakyPort Prod.snd () := by
  refine ⟨?_, ?_⟩
  · intro store
    refine ⟨rfl, ?_, by simp [flakyPort], by simp [flakyPort]⟩
    show (if store.1 = 0 then store.2 else max 1 store.2) = store.2 ∨
      store.2 = 0 ∧ (if store.1 = 0 then store.2 else max 1 store.2) = 1
    split <;> omega
  · intro store
    refine ⟨rfl, .inl rfl, ?_, ?_⟩
    · intro c answered
      by_cases empty : store.2 = 0
      · simp [flakyPort, empty] at answered
      · exact empty
    · intro answered
      by_cases empty : store.2 = 0
      · exact empty
      · simp [flakyPort, empty] at answered

theorem flakyPort_confirms_applied :
    (authorizedWrite (fun _ => true) flakyPort 3 () (0, 0)).1 = .ok () ∧
      (authorizedWrite (fun _ => true) flakyPort 3 () (0, 0)).2.store.2 ≠ 0 := by
  have confirmed : (authorizedWrite (fun _ => true) flakyPort 3 () (0, 0)).1 = .ok () := rfl
  refine ⟨confirmed, ?_⟩
  exact ((authorized_commit_at_most_once (fun _ => true) flakyPort 3 (by decide) () (0, 0) _ _
    rfl).2.2.2 Prod.snd flakyPort_honest).1 () confirmed

end MoteKernel
