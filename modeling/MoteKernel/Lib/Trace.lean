import Mathlib.Logic.Relation
import Mathlib.Data.List.Basic
import MoteKernel.Lib.Checked

/-!
# Histories of a checked step function

Commands reach a step function in an arbitrary order. A rejected command leaves
the state as it is, so the history of a command list is the list of its accepted
commands, each with the state before and after it. What one step preserves is
lifted here to any two moments of such a history.
-/

namespace Trace

variable {σ κ ε : Type}

/-- One accepted command with the states around it. -/
structure Event (σ κ : Type) where
  before : σ
  command : κ
  after : σ

/-- The step function takes this event's command from `before` to `after`. -/
def Accepted (step : σ → κ → Except ε σ) (event : Event σ κ) : Prop :=
  step event.before event.command = .ok event.after

/-- Some accepted command leads from one state to the other. -/
def Moves (step : σ → κ → Except ε σ) (s t : σ) : Prop :=
  ∃ command, step s command = .ok t

/-- Accepted commands lead from one state to the other. -/
def Reaches (step : σ → κ → Except ε σ) : σ → σ → Prop :=
  Relation.ReflTransGen (Moves step)

/-- The accepted commands of a command list. -/
def history (step : σ → κ → Except ε σ) : σ → List κ → List (Event σ κ)
  | _, [] => []
  | s, command :: commands =>
      match step s command with
      | .ok t => ⟨s, command, t⟩ :: history step t commands
      | .error _ => history step s commands

/-- The state a command list ends in. -/
def outcome (step : σ → κ → Except ε σ) : σ → List κ → σ
  | s, [] => s
  | s, command :: commands =>
      match step s command with
      | .ok t => outcome step t commands
      | .error _ => outcome step s commands

/-- The states a command list goes through, the initial one first. -/
def visited (step : σ → κ → Except ε σ) (initial : σ) (commands : List κ) : List σ :=
  initial :: (history step initial commands).map (·.after)

variable {step : σ → κ → Except ε σ}

theorem Accepted.moves {event : Event σ κ} (accepted : Accepted step event) :
    Moves step event.before event.after :=
  ⟨event.command, accepted⟩

/-- A reflexive and transitive relation that every accepted command respects holds between any
two states of a run. -/
theorem Reaches.lift {R : σ → σ → Prop} (refl : ∀ s, R s s)
    (trans : ∀ a b c, R a b → R b c → R a c)
    (respects : ∀ s command t, step s command = .ok t → R s t) {s t : σ}
    (reaches : Reaches step s t) : R s t := by
  induction reaches with
  | refl => exact refl s
  | tail _ move ih =>
      obtain ⟨command, accepted⟩ := move
      exact trans _ _ _ ih (respects _ command _ accepted)

/-- A property that every accepted command preserves holds at the end of a run. -/
theorem Reaches.preserves {P : σ → Prop}
    (respects : ∀ s command t, step s command = .ok t → P s → P t) {s t : σ}
    (reaches : Reaches step s t) (start : P s) : P t :=
  Reaches.lift (R := fun a b => P a → P b) (fun _ h => h) (fun _ _ _ f g h => g (f h))
    respects reaches start

/-- Every event of a history is accepted in a state the run reaches. -/
theorem mem_history {initial : σ} {commands : List κ} {event : Event σ κ}
    (member : event ∈ history step initial commands) :
    Reaches step initial event.before ∧ Accepted step event := by
  induction commands generalizing initial with
  | nil => simp [history] at member
  | cons command commands ih =>
      unfold history at member
      split at member
      · rename_i t accepted
        rcases List.mem_cons.mp member with rfl | later
        · exact ⟨.refl, accepted⟩
        · obtain ⟨reaches, eventAccepted⟩ := ih later
          exact ⟨.head ⟨command, accepted⟩ reaches, eventAccepted⟩
      · exact ih member

/-- The events of a run, each with what an observer of the events before it has noted. -/
def tracked {γ : Type} (note : γ → Event σ κ → γ) : γ → List (Event σ κ) → List (γ × Event σ κ)
  | _, [] => []
  | noted, event :: events => (noted, event) :: tracked note (note noted event) events

theorem mem_tracked {γ : Type} (note : γ → Event σ κ → γ) (noted : γ) {events : List (Event σ κ)}
    {event : Event σ κ} (member : event ∈ events) :
    ∃ earlier, (earlier, event) ∈ tracked note noted events := by
  induction events generalizing noted with
  | nil => cases member
  | cons head events ih =>
      rcases List.mem_cons.mp member with rfl | later
      · exact ⟨noted, List.mem_cons_self⟩
      · obtain ⟨earlier, inside⟩ := ih (note noted head) later
        exact ⟨earlier, List.mem_cons_of_mem _ inside⟩

/-- What every event preserves of the state and the observer's note holds before all of them. -/
theorem tracked_invariant {γ : Type} {note : γ → Event σ κ → γ} {P : γ → σ → Prop} {noted : γ}
    {initial : σ} {commands : List κ} (start : P noted initial)
    (respects : ∀ noted event, Accepted step event → P noted event.before →
      P (note noted event) event.after) :
    ∀ pair ∈ tracked note noted (history step initial commands), P pair.1 pair.2.before := by
  induction commands generalizing initial noted with
  | nil => simp [history, tracked]
  | cons command commands ih =>
      cases taken : step initial command with
      | error e =>
          simp only [history, taken]
          exact ih start
      | ok next =>
          simp only [history, taken, tracked, List.forall_mem_cons]
          exact ⟨start, ih (respects noted ⟨initial, command, next⟩ taken start)⟩

/-- Of two events, the later one starts from a state that the earlier one leads to. -/
theorem history_pairwise (initial : σ) (commands : List κ) :
    (history step initial commands).Pairwise
      (fun e f => Accepted step e ∧ Reaches step e.after f.before ∧ Accepted step f) := by
  induction commands generalizing initial with
  | nil => simp [history]
  | cons command commands ih =>
      unfold history
      split
      · rename_i t accepted
        refine List.pairwise_cons.mpr ⟨?_, ih t⟩
        intro event member
        exact ⟨accepted, mem_history member⟩
      · exact ih initial

theorem mem_visited {initial t : σ} {commands : List κ}
    (member : t ∈ visited step initial commands) : Reaches step initial t := by
  rcases List.mem_cons.mp member with rfl | later
  · exact .refl
  · obtain ⟨event, inside, rfl⟩ := List.mem_map.mp later
    obtain ⟨reaches, accepted⟩ := mem_history inside
    exact reaches.tail accepted.moves

theorem before_mem_visited {initial : σ} {commands : List κ} {event : Event σ κ}
    (member : event ∈ history step initial commands) :
    event.before ∈ visited step initial commands := by
  induction commands generalizing initial with
  | nil => simp [history] at member
  | cons command commands ih =>
      cases taken : step initial command with
      | error e =>
          simp only [visited, history, taken] at member ⊢
          exact ih member
      | ok s =>
          simp only [visited, history, taken, List.map_cons] at member ⊢
          rcases List.mem_cons.mp member with rfl | later
          · exact List.mem_cons_self
          · exact List.mem_cons_of_mem _ (ih later)

theorem visited_pairwise (initial : σ) (commands : List κ) :
    (visited step initial commands).Pairwise (Reaches step) := by
  refine List.pairwise_cons.mpr ⟨?_, ?_⟩
  · intro t later
    exact mem_visited (List.mem_cons_of_mem _ later)
  · rw [List.pairwise_map]
    exact (history_pairwise initial commands).imp (fun h => h.2.1.tail h.2.2.moves)

/-- Where the contents of a state come from. If a step adds only what it gives birth to, then
whatever a visited state contains was there initially or was born in an event of the run. -/
theorem visited_births {α : Type} {contents : σ → List α} {births : Event σ κ → α → Prop}
    (adds : ∀ event, Accepted step event → ∀ x ∈ contents event.after,
      x ∈ contents event.before ∨ births event x)
    {initial t : σ} {commands : List κ} (member : t ∈ visited step initial commands) {x : α}
    (inside : x ∈ contents t) :
    x ∈ contents initial ∨ ∃ event ∈ history step initial commands, births event x := by
  induction commands generalizing initial with
  | nil =>
      simp only [visited, history, List.map_nil, List.mem_singleton] at member
      exact .inl (member ▸ inside)
  | cons command commands ih =>
      rcases List.mem_cons.mp member with rfl | later
      · exact .inl inside
      · unfold history at later ⊢
        split at later
        · rename_i s accepted
          rw [List.map_cons] at later
          rcases ih later with early | ⟨event, eventMember, born⟩
          · rcases adds ⟨initial, command, s⟩ accepted x early with initially | born
            · exact .inl initially
            · exact .inr ⟨_, List.mem_cons_self, born⟩
          · exact .inr ⟨event, List.mem_cons_of_mem _ eventMember, born⟩
        · exact ih (List.mem_cons_of_mem _ later)

/-- What leaves a state. If a step removes only what it consumes, then whatever a visited state
contains is still there at the end or was consumed by an event of the run. -/
theorem visited_kept {α : Type} {contents : σ → List α} {consumes : Event σ κ → α → Prop}
    (keeps : ∀ event, Accepted step event → ∀ x ∈ contents event.before,
      x ∈ contents event.after ∨ consumes event x)
    {initial t : σ} {commands : List κ} (member : t ∈ visited step initial commands) {x : α}
    (inside : x ∈ contents t) :
    x ∈ contents (outcome step initial commands) ∨
      ∃ event ∈ history step initial commands, consumes event x := by
  induction commands generalizing initial t with
  | nil =>
      simp only [visited, history, List.map_nil, List.mem_singleton] at member
      exact .inl (member ▸ inside)
  | cons command commands ih =>
      cases taken : step initial command with
      | error e =>
          simp only [visited, history, outcome, taken] at member ⊢
          exact ih member inside
      | ok s =>
          simp only [visited, history, outcome, taken, List.map_cons] at member ⊢
          have rest : ∀ u ∈ visited step s commands, x ∈ contents u →
              x ∈ contents (outcome step s commands) ∨
                ∃ event ∈ ⟨initial, command, s⟩ :: history step s commands,
                  consumes event x := by
            intro u visits here
            rcases ih visits here with still | ⟨event, eventMember, consumed⟩
            · exact .inl still
            · exact .inr ⟨event, List.mem_cons_of_mem _ eventMember, consumed⟩
          rcases List.mem_cons.mp member with rfl | later
          · rcases keeps ⟨t, command, s⟩ taken x inside with still | consumed
            · exact rest s List.mem_cons_self still
            · exact .inr ⟨_, List.mem_cons_self, consumed⟩
          · exact rest t later inside

theorem outcome_append (initial : σ) (earlier later : List κ) :
    outcome step initial (earlier ++ later) = outcome step (outcome step initial earlier) later := by
  induction earlier generalizing initial with
  | nil => rfl
  | cons command earlier ih =>
      cases taken : step initial command with
      | error e => simp only [List.cons_append, outcome, taken, ih]
      | ok s => simp only [List.cons_append, outcome, taken, ih]

theorem outcome_mem_visited (initial : σ) (commands : List κ) :
    outcome step initial commands ∈ visited step initial commands := by
  induction commands generalizing initial with
  | nil => simp [outcome, visited]
  | cons command commands ih =>
      cases taken : step initial command with
      | error e => simpa only [visited, history, outcome, taken] using ih initial
      | ok s =>
          simp only [visited, history, outcome, taken, List.map_cons]
          exact List.mem_cons_of_mem _ (ih s)

end Trace
