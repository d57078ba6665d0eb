import MoteKernel.Gateway.Generation

/-!
# Reasoning preferences

`ResolveReasoning` of `capability.go`: the thinking mode and the effort of a
request to one model. A preference is served when exactly one declared mode fits
it, and what is answered is itself a preference with the same answer.
-/

namespace MoteKernel.Gateway
open Checked

/-! ## Resolution -/

/-- `ReasoningConfig`; an omitted preference is empty. -/
structure ReasoningConfig where
  thinking : ThinkingMode := ""
  effort : ReasoningEffort := ""
  deriving DecidableEq, Repr

/-- `ReasoningConfig.Validate`. -/
def ReasoningConfig.validate (config : ReasoningConfig) : Except String Unit := do
  raiseIf (config.thinking ≠ "" ∧ ThinkingMode.isValid config.thinking = false)
    ("unsupported thinking mode " ++ quoted config.thinking)
  raiseIf (config.effort ≠ "" ∧ ReasoningEffort.isValid config.effort = false)
    ("unsupported reasoning effort " ++ quoted config.effort)
  raiseIf (config.thinking = ThinkingMode.disabled ∧ config.effort ≠ "")
    "reasoning effort cannot be set when thinking is disabled"
  raiseIf (config.thinking = "" ∧ config.effort = "")
    "reasoning config must set thinking or effort"

/-- `ReasoningRequestError` and `ReasoningUnsupportedError`. -/
inductive ReasoningError where
  | request (baseModel reason : String)
  | unsupported (baseModel : String) (thinking : ThinkingMode) (effort : ReasoningEffort)
      (reason : String)
  deriving DecidableEq, Repr

/-- `validateReasoningRequest`. -/
def validateReasoningRequest (baseModel : String) (requested : Option ReasoningConfig) :
    Except ReasoningError Unit :=
  match requested with
  | none => return ()
  | some request => rethrow (fun reason => .request baseModel reason) request.validate

/-- `resolveUndeclaredReasoning`. -/
def resolveUndeclaredReasoning (baseModel : String) (requested : Option ReasoningConfig) :
    Except ReasoningError (Option ReasoningConfig) :=
  match requested with
  | none => return none
  | some request => throw (.unsupported baseModel request.thinking request.effort
      "no reasoning capability is declared")

/-- `defaultThinking`. -/
def defaultThinking (policy : ReasoningPolicy) (requested : Option ReasoningConfig) :
    ThinkingMode :=
  let thinking := (requested.map (·.thinking)).getD ""
  if thinking ≠ "" then thinking else policy.defaultThinking.getD ""

/-- `modeForEffort`: the last mode with the effort, and how many have it. -/
def modeForEffort (policy : ReasoningPolicy) (effort : ReasoningEffort) :
    Option ThinkingModePolicy × Nat :=
  policy.thinkingModes.foldl
    (fun found mode => if effort ∈ mode.efforts then (some mode, found.2 + 1) else found) (none, 0)

/-- `modeForThinking`. -/
def modeForThinking (policy : ReasoningPolicy) (thinking : ThinkingMode) :
    Option ThinkingModePolicy :=
  policy.thinkingModes.find? (fun mode => mode.thinking = thinking)

/-- The branch of `selectReasoningMode` that selects a mode by its effort. -/
def selectByEffort (baseModel : String) (policy : ReasoningPolicy) (effort : ReasoningEffort) :
    Except ReasoningError (ThinkingMode × Option ThinkingModePolicy) := do
  let found := modeForEffort policy effort
  raiseIf (found.2 = 0)
    (.unsupported baseModel "" effort "a thinking mode is required to select this effort")
  raiseIf (found.2 > 1) (.request baseModel
    ("effort " ++ quoted effort ++ " belongs to multiple thinking modes; specify thinking"))
  return ((found.1.map (·.thinking)).getD "", found.1)

/-- `selectReasoningMode`. -/
def selectReasoningMode (baseModel : String) (policy : ReasoningPolicy)
    (requested : Option ReasoningConfig) :
    Except ReasoningError (ThinkingMode × Option ThinkingModePolicy) := do
  let thinking := defaultThinking policy requested
  let effort := (requested.map (·.effort)).getD ""
  let selected ←
    if thinking = "" ∧ effort ≠ "" then selectByEffort baseModel policy effort
    else pure (thinking, none)
  if selected.1 = "" then return ("", none)
  else if selected.2.isSome then return selected
  else do
    let mode ← orRaise (.unsupported baseModel selected.1 "" "thinking mode is not declared")
      (modeForThinking policy selected.1)
    return (selected.1, some mode)

/-- `resolveRequestedEffort`. -/
def resolveRequestedEffort (mode : Option ThinkingModePolicy)
    (requested : Option ReasoningConfig) : ReasoningEffort :=
  let effort := (requested.map (·.effort)).getD ""
  if effort ≠ "" then effort else (mode.bind (·.defaultEffort)).getD ""

/-- `validateResolvedReasoning`. There is an effort only beside a selected mode. -/
def validateResolvedReasoning (baseModel : String) (mode : Option ThinkingModePolicy)
    (thinking : ThinkingMode) (effort : ReasoningEffort) : Except ReasoningError Unit :=
  raiseIf (effort ≠ "" ∧ ¬ ∃ selected ∈ mode, effort ∈ selected.efforts)
    (.unsupported baseModel thinking effort "effort is not declared for this thinking mode")

/-- `resolveReasoningPolicy`. -/
def resolveReasoningPolicy (baseModel : String) (policy : Option ReasoningPolicy)
    (requested : Option ReasoningConfig) : Except ReasoningError (Option ReasoningConfig) := do
  validateReasoningRequest baseModel requested
  match policy with
  | none => resolveUndeclaredReasoning baseModel requested
  | some policy => do
      let selected ← selectReasoningMode baseModel policy requested
      let effort := resolveRequestedEffort selected.2 requested
      validateResolvedReasoning baseModel selected.2 selected.1 effort
      if selected.1 = "" ∧ effort = "" then return none
      else return some { thinking := selected.1, effort := effort }

/-! ## Accepted policies -/

/-- What the model catalog guarantees of a declared thinking mode. -/
structure ThinkingModePolicy.Admitted (mode : ThinkingModePolicy) : Prop where
  thinking : ThinkingMode.isValid mode.thinking = true
  efforts : ∀ effort ∈ mode.efforts, ReasoningEffort.isValid effort = true
  disabled : mode.thinking = ThinkingMode.disabled → mode.efforts = []
  defaulted : ∀ effort ∈ mode.defaultEffort, effort ∈ mode.efforts

/-- What it guarantees of a reasoning policy: a mode is told apart by its name. -/
structure ReasoningPolicy.Admitted (policy : ReasoningPolicy) : Prop where
  modes : ∀ mode ∈ policy.thinkingModes, mode.Admitted
  distinct : (policy.thinkingModes.map (·.thinking)).Nodup
  defaulted : ∀ thinking ∈ policy.defaultThinking, thinking ∈ policy.thinkingModes.map (·.thinking)

theorem requireSet_valid {valid : String → Bool} {previous : Option String} {values : List String}
    (accepted : requireSet valid previous values = .ok ()) : ∀ value ∈ values, valid value = true := by
  induction values generalizing previous with
  | nil => simp
  | cons value values ih =>
      simp only [requireSet, bind_unit_eq_ok, raiseIf_eq_ok] at accepted
      obtain ⟨here, -, later⟩ := accepted
      intro other member
      rcases List.mem_cons.mp member with rfl | member
      · exact Bool.eq_true_of_not_eq_false here
      · exact ih later other member

theorem normalizeSet_valid {valid : String → Bool} {values normalized : List String}
    (accepted : normalizeSet values valid = .ok normalized) :
    ∀ value ∈ normalized, valid value = true := by
  simp only [normalizeSet, bind_unit_eq_ok, pure_eq_ok, Except.ok.injEq] at accepted
  obtain ⟨checked, rfl⟩ := accepted
  exact requireSet_valid checked

theorem validateDefaultEffort_declared {field : String} {mode : ThinkingModePolicy}
    (accepted : validateDefaultEffort field mode = .ok ()) :
    ∀ effort ∈ mode.defaultEffort, effort ∈ mode.efforts := by
  intro effort chosen
  rw [Option.mem_def] at chosen
  simp only [validateDefaultEffort, chosen, bind_unit_eq_ok, raiseIf_eq_ok, not_not] at accepted
  exact accepted.2

theorem normalizeThinkingMode_admitted {index : Nat} {mode normalized : ThinkingModePolicy}
    (accepted : normalizeThinkingMode index mode = .ok normalized)
    (thinking : ThinkingMode.isValid mode.thinking = true) :
    normalized.thinking = mode.thinking ∧ normalized.Admitted := by
  simp only [normalizeThinkingMode, bind_eq_ok, rethrow_eq_ok, raiseIf_eq_ok, pure_eq_ok,
    Except.ok.injEq] at accepted
  obtain ⟨efforts, sorted, _, disabled, _, defaulted, rfl⟩ := accepted
  refine ⟨rfl, thinking, normalizeSet_valid sorted, ?_, validateDefaultEffort_declared defaulted⟩
  intro off
  by_contra declared
  exact disabled ⟨off, declared⟩

/-- The loop keeps the modes it has seen apart from the ones to come. -/
theorem normalizeModes_admitted {modes normalized : List ThinkingModePolicy}
    {seen : List ThinkingMode} {index : Nat}
    (accepted : normalizeModes seen index modes = .ok normalized) :
    (∀ mode ∈ normalized, mode.Admitted ∧ mode.thinking ∉ seen) ∧
      (normalized.map (·.thinking)).Nodup := by
  induction modes generalizing seen index normalized with
  | nil =>
      obtain rfl := Except.ok.inj accepted
      simp
  | cons mode modes ih =>
      simp only [normalizeModes, bind_eq_ok, raiseIf_eq_ok, pure_eq_ok, Except.ok.injEq] at accepted
      obtain ⟨_, valid, _, fresh, first, here, rest, later, rfl⟩ := accepted
      obtain ⟨named, admitted⟩ :=
        normalizeThinkingMode_admitted here (Bool.eq_true_of_not_eq_false valid)
      obtain ⟨each, distinct⟩ := ih later
      constructor
      · intro other member
        rcases List.mem_cons.mp member with rfl | member
        · exact ⟨admitted, named ▸ fresh⟩
        · obtain ⟨sound, unseen⟩ := each other member
          exact ⟨sound, fun before => unseen (List.mem_cons_of_mem _ before)⟩
      · rw [List.map_cons, List.nodup_cons, named]
        refine ⟨?_, distinct⟩
        intro again
        obtain ⟨other, member, same⟩ := List.mem_map.mp again
        exact (each other member).2 (same ▸ List.mem_cons_self)

/-- The sorted modes of an accepted policy are the normalized ones. -/
theorem sortedModes_admitted {modes : List ThinkingModePolicy} {chosen : Option ThinkingMode}
    (each : ∀ mode ∈ modes, mode.Admitted) (distinct : (modes.map (·.thinking)).Nodup)
    (defaulted : ∀ thinking ∈ chosen, thinking ∈ modes.map (·.thinking)) :
    ReasoningPolicy.Admitted
      { thinkingModes := modes.insertionSort (fun a b => a.thinking ≤ b.thinking)
        defaultThinking := chosen } := by
  have sorted := List.perm_insertionSort
    (fun a b : ThinkingModePolicy => a.thinking ≤ b.thinking) modes
  exact
    { modes := fun mode member => each mode (sorted.mem_iff.mp member)
      distinct := (sorted.map _).nodup_iff.mpr distinct
      defaulted := fun thinking member =>
        (sorted.map _).mem_iff.mpr (defaulted thinking member) }

theorem normalizeReasoningPolicy_admitted {policy : Option ReasoningPolicy}
    {normalized : ReasoningPolicy}
    (accepted : normalizeReasoningPolicy policy = .ok (some normalized)) :
    normalized.Admitted := by
  cases policy with
  | none => cases accepted
  | some policy =>
      simp only [normalizeReasoningPolicy, bind_eq_ok] at accepted
      obtain ⟨_, -, modes, checked, accepted⟩ := accepted
      obtain ⟨each, distinct⟩ := normalizeModes_admitted checked
      have sound : ∀ mode ∈ modes, mode.Admitted := fun mode member => (each mode member).1
      cases chosen : policy.defaultThinking with
      | none =>
          simp only [chosen, pure_eq_ok, Except.ok.injEq, Option.some.injEq] at accepted
          subst accepted
          exact sortedModes_admitted sound distinct (by simp)
      | some thinking =>
          simp only [chosen, bind_eq_ok, raiseIf_eq_ok, pure_eq_ok, Except.ok.injEq,
            Option.some.injEq, not_not] at accepted
          obtain ⟨_, -, _, declared, rfl⟩ := accepted
          refine sortedModes_admitted sound distinct ?_
          intro other member
          cases member
          exact declared

theorem normalizeConfig_reasoning {R : Type} [Ring R] [LinearOrder R]
    {config normalized : Config R} (accepted : normalizeConfig config = .ok normalized) :
    ∀ policy ∈ normalized.capability.reasoning, policy.Admitted := by
  simp only [normalizeConfig, normalizeCapabilityConfig, bind_eq_ok, rethrow_eq_ok, pure_eq_ok,
    Except.ok.injEq] at accepted
  obtain ⟨_, -, _, -, _, -, capability, ⟨_, -, _, -, inputs, -, outputs, -, features, -, _, -,
    generation, -, embedding, -, reasoning, resolved, rfl⟩, rfl⟩ := accepted
  intro policy member
  have declared : reasoning = some policy := member
  rw [declared] at resolved
  exact normalizeReasoningPolicy_admitted resolved

/-! ## The selected mode -/

/-- The preference a mode answers a request with. -/
def ThinkingModePolicy.answer (mode : ThinkingModePolicy) (request : ReasoningConfig) :
    ReasoningConfig :=
  { thinking := mode.thinking, effort := resolveRequestedEffort (some mode) (some request) }

/-- A declared mode that fits a request: the one it names, else the one the model defaults to, and
with the effort it asks for. -/
structure Serves (policy : ReasoningPolicy) (request : ReasoningConfig)
    (mode : ThinkingModePolicy) : Prop where
  declared : mode ∈ policy.thinkingModes
  named : request.thinking ≠ "" → mode.thinking = request.thinking
  defaulted : request.thinking = "" → ∀ thinking ∈ policy.defaultThinking, mode.thinking = thinking
  effort : request.effort ≠ "" → request.effort ∈ mode.efforts

/-- The one mode that fits a request. -/
def ServedBy (policy : ReasoningPolicy) (request : ReasoningConfig) (mode : ThinkingModePolicy) :
    Prop :=
  Serves policy request mode ∧ ∀ other, Serves policy request other → other = mode

namespace ThinkingModePolicy.Admitted

variable {mode : ThinkingModePolicy}

theorem thinking_ne (admitted : mode.Admitted) : mode.thinking ≠ "" := by
  intro empty
  have valid := admitted.thinking
  rw [empty] at valid
  exact absurd valid (by decide)

/-- A mode never refuses its own default. -/
theorem fits_iff (admitted : mode.Admitted) (baseModel : String) (request : ReasoningConfig) :
    validateResolvedReasoning baseModel (some mode) mode.thinking
        (resolveRequestedEffort (some mode) (some request)) = .ok () ↔
      (request.effort ≠ "" → request.effort ∈ mode.efforts) := by
  by_cases asked : request.effort = ""
  · cases chosen : mode.defaultEffort with
    | none => simp [validateResolvedReasoning, resolveRequestedEffort, asked, chosen]
    | some effort =>
        have declared := admitted.defaulted effort chosen
        simp [validateResolvedReasoning, resolveRequestedEffort, asked, chosen, declared]
  · simp [validateResolvedReasoning, resolveRequestedEffort, asked]

end ThinkingModePolicy.Admitted

theorem modeForEffort_fold (effort : ReasoningEffort) (modes : List ThinkingModePolicy)
    (found : Option ThinkingModePolicy × Nat) :
    modes.foldl (fun found mode =>
        if effort ∈ mode.efforts then (some mode, found.2 + 1) else found) found =
      ((modes.filter (effort ∈ ·.efforts)).getLast?.or found.1,
        found.2 + (modes.filter (effort ∈ ·.efforts)).length) := by
  induction modes generalizing found with
  | nil => simp
  | cons mode modes ih =>
      rw [List.foldl_cons, ih]
      by_cases has : effort ∈ mode.efforts
      · have added (n : Nat) : found.2 + 1 + n = found.2 + (n + 1) := by omega
        simp [has, List.getLast?_cons, added]
      · simp [has]

theorem modeForEffort_eq (policy : ReasoningPolicy) (effort : ReasoningEffort) :
    modeForEffort policy effort = ((policy.thinkingModes.filter (effort ∈ ·.efforts)).getLast?,
      (policy.thinkingModes.filter (effort ∈ ·.efforts)).length) := by
  rw [modeForEffort, modeForEffort_fold]
  simp

theorem selectByEffort_eq_ok (baseModel : String) (policy : ReasoningPolicy)
    (effort : ReasoningEffort) (selected : ThinkingMode × Option ThinkingModePolicy) :
    selectByEffort baseModel policy effort = .ok selected ↔
      ∃ mode, policy.thinkingModes.filter (effort ∈ ·.efforts) = [mode] ∧
        selected = (mode.thinking, some mode) := by
  simp only [selectByEffort, modeForEffort_eq]
  generalize policy.thinkingModes.filter (effort ∈ ·.efforts) = fitting
  rcases fitting with _ | ⟨mode, _ | ⟨second, modes⟩⟩
  · simp
  · simp [raiseIf, eq_comm]
  · simp

/-- A list without repetitions has one element when all its elements are the same. -/
theorem eq_singleton_iff {α : Type} {xs : List α} (distinct : xs.Nodup) (a : α) :
    xs = [a] ↔ a ∈ xs ∧ ∀ b ∈ xs, b = a := by
  rw [← List.perm_singleton, List.perm_ext_iff_of_nodup distinct (List.nodup_singleton a)]
  constructor
  · intro same
    exact ⟨(same a).mpr (by simp), fun b member => by simpa using (same b).mp member⟩
  · intro unique b
    obtain ⟨member, only⟩ := unique
    rw [List.mem_singleton]
    exact ⟨only b, fun same => same ▸ member⟩

/-- The name a request or the model gives narrows the modes to those that bear it. -/
theorem serves_named_iff {policy : ReasoningPolicy} {request : ReasoningConfig}
    (named : defaultThinking policy (some request) ≠ "") (mode : ThinkingModePolicy) :
    Serves policy request mode ↔ mode ∈ policy.thinkingModes ∧
      mode.thinking = defaultThinking policy (some request) ∧
      (request.effort ≠ "" → request.effort ∈ mode.efforts) := by
  by_cases omitted : request.thinking = ""
  · cases chosen : policy.defaultThinking with
    | none => simp [defaultThinking, omitted, chosen] at named
    | some thinking =>
        have same : defaultThinking policy (some request) = thinking := by
          simp [defaultThinking, omitted, chosen]
        rw [same]
        constructor
        · intro serves
          exact ⟨serves.declared, serves.defaulted omitted thinking chosen, serves.effort⟩
        · intro fits
          obtain ⟨declared, bears, effort⟩ := fits
          refine ⟨declared, fun given => absurd omitted given, ?_, effort⟩
          intro _ other member
          rw [chosen] at member
          cases member
          exact bears
  · have same : defaultThinking policy (some request) = request.thinking := by
      simp [defaultThinking, omitted]
    rw [same]
    constructor
    · intro serves
      exact ⟨serves.declared, serves.named omitted, serves.effort⟩
    · intro fits
      obtain ⟨declared, bears, effort⟩ := fits
      exact ⟨declared, fun _ => bears, fun given => absurd given omitted, effort⟩

section Admitted

variable {policy : ReasoningPolicy} (admitted : policy.Admitted)

include admitted

theorem ReasoningPolicy.Admitted.mode_unique {mode other : ThinkingModePolicy}
    (here : mode ∈ policy.thinkingModes)
    (there : other ∈ policy.thinkingModes) (same : mode.thinking = other.thinking) :
    mode = other :=
  List.inj_on_of_nodup_map admitted.distinct here there same

theorem modeForThinking_eq_some (thinking : ThinkingMode) (mode : ThinkingModePolicy) :
    modeForThinking policy thinking = some mode ↔
      mode ∈ policy.thinkingModes ∧ mode.thinking = thinking := by
  constructor
  · intro found
    exact ⟨List.mem_of_find?_eq_some found, by simpa using List.find?_some found⟩
  · intro bearing
    obtain ⟨declared, named⟩ := bearing
    cases found : modeForThinking policy thinking with
    | none =>
        have absent := List.find?_eq_none.mp found mode declared
        simp [named] at absent
    | some other =>
        have same : other.thinking = thinking := by simpa using List.find?_some found
        rw [admitted.mode_unique (List.mem_of_find?_eq_some found) declared (same.trans named.symm)]

/-- A named mode, or the default one, is looked up by its name. -/
theorem selectReasoningMode_named (baseModel : String) {requested : Option ReasoningConfig}
    (named : defaultThinking policy requested ≠ "")
    (selected : ThinkingMode × Option ThinkingModePolicy) :
    selectReasoningMode baseModel policy requested = .ok selected ↔
      ∃ mode ∈ policy.thinkingModes, mode.thinking = defaultThinking policy requested ∧
        selected = (mode.thinking, some mode) := by
  simp only [selectReasoningMode, named, false_and, if_false, pure_eq_ok, ok_bind, Option.isSome_none,
    Bool.false_eq_true, bind_eq_ok, orRaise_eq_ok, modeForThinking_eq_some admitted,
    Except.ok.injEq]
  constructor
  · intro looked
    obtain ⟨mode, ⟨declared, same⟩, chosen⟩ := looked
    exact ⟨mode, declared, same, by rw [← chosen, same]⟩
  · intro bearing
    obtain ⟨mode, declared, same, chosen⟩ := bearing
    exact ⟨mode, ⟨declared, same⟩, by rw [chosen, same]⟩

/-- Without a name the effort has to tell the mode. -/
theorem selectReasoningMode_unnamed (baseModel : String) {request : ReasoningConfig}
    (unnamed : defaultThinking policy (some request) = "") (asked : request.effort ≠ "")
    (selected : ThinkingMode × Option ThinkingModePolicy) :
    selectReasoningMode baseModel policy (some request) = .ok selected ↔
      ∃ mode, (mode ∈ policy.thinkingModes ∧ request.effort ∈ mode.efforts) ∧
        (∀ other ∈ policy.thinkingModes, request.effort ∈ other.efforts → other = mode) ∧
        selected = (mode.thinking, some mode) := by
  have distinct := (List.Nodup.of_map _ admitted.distinct).filter
    (fun mode => decide (request.effort ∈ mode.efforts))
  have chosen : selectReasoningMode baseModel policy (some request) = .ok selected ↔
      selectByEffort baseModel policy request.effort = .ok selected := by
    simp only [selectReasoningMode, unnamed, Option.map_some, Option.getD_some, asked, ne_eq,
      not_false_eq_true, and_self, if_true, bind_eq_ok, selectByEffort_eq_ok]
    constructor
    · intro searched
      obtain ⟨found, ⟨mode, only, same⟩, result⟩ := searched
      have declared : mode ∈ policy.thinkingModes :=
        List.mem_of_mem_filter (only ▸ List.mem_singleton_self mode)
      subst same
      simp only [(admitted.modes mode declared).thinking_ne, if_false, Option.isSome_some, if_true,
        pure_eq_ok, Except.ok.injEq] at result
      exact ⟨mode, only, result.symm⟩
    · intro fitting
      obtain ⟨mode, only, same⟩ := fitting
      have declared : mode ∈ policy.thinkingModes :=
        List.mem_of_mem_filter (only ▸ List.mem_singleton_self mode)
      subst same
      refine ⟨_, ⟨mode, only, rfl⟩, ?_⟩
      simp [(admitted.modes mode declared).thinking_ne]
  rw [chosen, selectByEffort_eq_ok]
  simp only [eq_singleton_iff distinct, List.mem_filter, decide_eq_true_eq, and_imp, and_assoc]

theorem defaultThinking_unnamed {request : ReasoningConfig}
    (unnamed : defaultThinking policy (some request) = "") :
    request.thinking = "" ∧ policy.defaultThinking = none := by
  by_cases omitted : request.thinking = ""
  · refine ⟨omitted, ?_⟩
    cases chosen : policy.defaultThinking with
    | none => rfl
    | some thinking =>
        obtain ⟨mode, declared, bears⟩ := List.mem_map.mp (admitted.defaulted thinking chosen)
        have named := (admitted.modes mode declared).thinking_ne
        simp [defaultThinking, omitted, chosen, ← bears, named] at unnamed
  · simp [defaultThinking, omitted] at unnamed

theorem serves_unnamed_iff {request : ReasoningConfig}
    (unnamed : defaultThinking policy (some request) = "") (asked : request.effort ≠ "")
    (mode : ThinkingModePolicy) :
    Serves policy request mode ↔ mode ∈ policy.thinkingModes ∧ request.effort ∈ mode.efforts := by
  obtain ⟨omitted, undefaulted⟩ := defaultThinking_unnamed admitted unnamed
  constructor
  · intro serves
    exact ⟨serves.declared, serves.effort asked⟩
  · intro fits
    obtain ⟨declared, effort⟩ := fits
    exact ⟨declared, fun given => absurd omitted given, by simp [undefaulted], fun _ => effort⟩

/-- The mode that a valid request selects, and whose efforts admit it, is the one that serves it. -/
theorem select_iff_servedBy (baseModel : String) {request : ReasoningConfig}
    (preference : request.thinking ≠ "" ∨ request.effort ≠ "")
    (selected : ThinkingMode × Option ThinkingModePolicy) :
    (selectReasoningMode baseModel policy (some request) = .ok selected ∧
      validateResolvedReasoning baseModel selected.2 selected.1
        (resolveRequestedEffort selected.2 (some request)) = .ok ()) ↔
      ∃ mode, ServedBy policy request mode ∧ selected = (mode.thinking, some mode) := by
  by_cases unnamed : defaultThinking policy (some request) = ""
  · have asked : request.effort ≠ "" :=
      preference.resolve_left fun given => given (defaultThinking_unnamed admitted unnamed).1
    rw [selectReasoningMode_unnamed admitted baseModel unnamed asked]
    simp only [ServedBy, serves_unnamed_iff admitted unnamed asked, and_imp]
    constructor
    · intro accepted
      obtain ⟨⟨mode, fits, only, chosen⟩, _⟩ := accepted
      exact ⟨mode, ⟨fits, only⟩, chosen⟩
    · intro served
      obtain ⟨mode, ⟨fits, only⟩, chosen⟩ := served
      refine ⟨⟨mode, fits, only, chosen⟩, ?_⟩
      rw [chosen]
      exact ((admitted.modes mode fits.1).fits_iff baseModel request).mpr fun _ => fits.2
  · rw [selectReasoningMode_named admitted baseModel unnamed]
    simp only [ServedBy, serves_named_iff unnamed]
    constructor
    · intro accepted
      obtain ⟨⟨mode, declared, bears, chosen⟩, valid⟩ := accepted
      rw [chosen] at valid
      have effort := ((admitted.modes mode declared).fits_iff baseModel request).mp valid
      refine ⟨mode, ⟨⟨declared, bears, effort⟩, ?_⟩, chosen⟩
      intro other fits
      obtain ⟨there, same, _⟩ := fits
      exact admitted.mode_unique there declared (same.trans bears.symm)
    · intro served
      obtain ⟨mode, ⟨⟨declared, bears, effort⟩, _⟩, chosen⟩ := served
      refine ⟨⟨mode, declared, bears, chosen⟩, ?_⟩
      rw [chosen]
      exact ((admitted.modes mode declared).fits_iff baseModel request).mpr effort

end Admitted

/-! ## Exactness -/

theorem ReasoningConfig.preference {request : ReasoningConfig} (valid : request.validate = .ok ()) :
    request.thinking ≠ "" ∨ request.effort ≠ "" := by
  simp only [ReasoningConfig.validate, bind_unit_eq_ok, raiseIf_eq_ok] at valid
  exact not_and_or.mp valid.2.2.2

/-- A request is answered exactly by the one mode that serves it. -/
theorem resolveReasoningPolicy_iff {policy : ReasoningPolicy} (admitted : policy.Admitted)
    (baseModel : String) (request : ReasoningConfig) (answer : Option ReasoningConfig) :
    resolveReasoningPolicy baseModel (some policy) (some request) = .ok answer ↔
      request.validate = .ok () ∧ ∃ mode, ServedBy policy request mode ∧
        answer = some (mode.answer request) := by
  simp only [resolveReasoningPolicy, validateReasoningRequest, bind_eq_ok, rethrow_eq_ok,
    exists_unit]
  refine and_congr_right fun valid => ?_
  have selects := select_iff_servedBy admitted baseModel (ReasoningConfig.preference valid)
  constructor
  · intro resolved
    obtain ⟨selected, chosen, fits, result⟩ := resolved
    obtain ⟨mode, served, rfl⟩ := (selects selected).mp ⟨chosen, fits⟩
    simp only [(admitted.modes mode served.1.declared).thinking_ne, false_and, if_false,
      pure_eq_ok, Except.ok.injEq] at result
    exact ⟨mode, served, result.symm⟩
  · intro answering
    obtain ⟨mode, served, answered⟩ := answering
    obtain ⟨chosen, fits⟩ := (selects (mode.thinking, some mode)).mpr ⟨mode, served, rfl⟩
    refine ⟨_, chosen, fits, ?_⟩
    simp only [(admitted.modes mode served.1.declared).thinking_ne, false_and, if_false,
      pure_eq_ok, answered, ThinkingModePolicy.answer]

/-- The effort of an answer is one its mode declares. -/
theorem answer_effort {policy : ReasoningPolicy} {request : ReasoningConfig}
    {mode : ThinkingModePolicy} (admitted : mode.Admitted) (serves : Serves policy request mode)
    (given : (mode.answer request).effort ≠ "") : (mode.answer request).effort ∈ mode.efforts := by
  by_cases asked : request.effort = ""
  · cases chosen : mode.defaultEffort with
    | none => simp [ThinkingModePolicy.answer, resolveRequestedEffort, asked, chosen] at given
    | some effort =>
        have declared := admitted.defaulted effort chosen
        simpa [ThinkingModePolicy.answer, resolveRequestedEffort, asked, chosen] using declared
  · have declared := serves.effort asked
    simpa [ThinkingModePolicy.answer, resolveRequestedEffort, asked] using declared

/-- An answer is a well-formed request. -/
theorem answer_valid {policy : ReasoningPolicy} {request : ReasoningConfig}
    {mode : ThinkingModePolicy} (admitted : mode.Admitted) (serves : Serves policy request mode) :
    (mode.answer request).validate = .ok () := by
  have effort := answer_effort admitted serves
  have bears : (mode.answer request).thinking = mode.thinking := rfl
  simp only [ReasoningConfig.validate, bind_unit_eq_ok, raiseIf_eq_ok, bears]
  refine ⟨?_, ?_, ?_, ?_⟩
  · simp [admitted.thinking]
  · intro refused
    obtain ⟨given, unknown⟩ := refused
    rw [admitted.efforts _ (effort given)] at unknown
    cases unknown
  · intro refused
    obtain ⟨off, given⟩ := refused
    have declared := effort given
    rw [admitted.disabled off] at declared
    cases declared
  · simp [admitted.thinking_ne]

/-- An answer selects its own mode, which repeats it. -/
theorem answer_stable {policy : ReasoningPolicy} (admitted : policy.Admitted)
    {request : ReasoningConfig} {mode : ThinkingModePolicy} (serves : Serves policy request mode)
    (baseModel : String) :
    resolveReasoningPolicy baseModel (some policy) (some (mode.answer request)) =
      .ok (some (mode.answer request)) := by
  have sound := admitted.modes mode serves.declared
  have named : (mode.answer request).thinking ≠ "" := sound.thinking_ne
  refine (resolveReasoningPolicy_iff admitted baseModel _ _).mpr
    ⟨answer_valid sound serves, mode, ⟨?_, ?_⟩, ?_⟩
  · exact ⟨serves.declared, fun _ => rfl, fun omitted => absurd omitted named,
      answer_effort sound serves⟩
  · intro other fits
    exact admitted.mode_unique fits.declared serves.declared (fits.named named)
  · by_cases asked : request.effort = ""
    · simp [ThinkingModePolicy.answer, resolveRequestedEffort, asked]
    · simp [ThinkingModePolicy.answer, resolveRequestedEffort, asked]

/-- An omitted preference takes the default mode, if the model has one. -/
theorem resolveReasoningPolicy_omitted {policy : ReasoningPolicy} (admitted : policy.Admitted)
    (baseModel : String) :
    (policy.defaultThinking = none ∧
      resolveReasoningPolicy baseModel (some policy) none = .ok none) ∨
    ∃ mode, policy.defaultThinking = some mode.thinking ∧ Serves policy {} mode ∧
      resolveReasoningPolicy baseModel (some policy) none = .ok (some (mode.answer {})) := by
  cases chosen : policy.defaultThinking with
  | none =>
      refine .inl ⟨rfl, ?_⟩
      simp [resolveReasoningPolicy, validateReasoningRequest, selectReasoningMode, defaultThinking,
        chosen, resolveRequestedEffort, validateResolvedReasoning, raiseIf]
  | some thinking =>
      obtain ⟨mode, declared, bears⟩ := List.mem_map.mp (admitted.defaulted thinking chosen)
      have sound := admitted.modes mode declared
      have same : defaultThinking policy none = mode.thinking := by
        simp [defaultThinking, chosen, bears]
      have selected : selectReasoningMode baseModel policy none =
          .ok (mode.thinking, some mode) :=
        (selectReasoningMode_named admitted baseModel (same ▸ sound.thinking_ne) _).mpr
          ⟨mode, declared, same.symm, rfl⟩
      have fits := (sound.fits_iff baseModel {}).mpr fun asked => absurd rfl asked
      refine .inr ⟨mode, by rw [bears], ⟨declared, fun given => absurd rfl given, ?_,
        fun asked => absurd rfl asked⟩, ?_⟩
      · intro _ other member
        rw [chosen] at member
        cases member
        exact bears
      · have unset : resolveRequestedEffort (some mode) none =
            resolveRequestedEffort (some mode) (some {}) := rfl
        simp only [resolveReasoningPolicy, validateReasoningRequest, pure_eq_ok, ok_bind, selected,
          unset, fits, sound.thinking_ne, false_and, if_false, ThinkingModePolicy.answer]

/-- A malformed request is refused whatever the model declares. -/
theorem resolveReasoningPolicy_malformed {request : ReasoningConfig} {reason : String}
    (malformed : request.validate = .error reason) (baseModel : String)
    (policy : Option ReasoningPolicy) :
    resolveReasoningPolicy baseModel policy (some request) = .error (.request baseModel reason) := by
  have refused : validateReasoningRequest baseModel (some request) =
      .error (.request baseModel reason) := (rethrow_eq_error _ _ _).mpr ⟨reason, malformed, rfl⟩
  unfold resolveReasoningPolicy
  rw [refused]
  rfl

/-- A model that declares no reasoning answers an omitted request with none, and refuses an
explicit one. -/
theorem resolveReasoningPolicy_undeclared (baseModel : String) :
    resolveReasoningPolicy baseModel none none = .ok none ∧
    ∀ request : ReasoningConfig, request.validate = .ok () →
      resolveReasoningPolicy baseModel none (some request) =
        .error (.unsupported baseModel request.thinking request.effort
          "no reasoning capability is declared") := by
  refine ⟨rfl, ?_⟩
  intro request valid
  have admitted : validateReasoningRequest baseModel (some request) = .ok () :=
    (rethrow_eq_ok _ _ _).mpr valid
  rw [resolveReasoningPolicy, admitted]
  rfl

/-- Every answer is a well-formed request that is answered by itself. -/
theorem resolveReasoningPolicy_stable {policy : ReasoningPolicy} (admitted : policy.Admitted)
    {baseModel : String} {requested : Option ReasoningConfig} {answer : ReasoningConfig}
    (resolved : resolveReasoningPolicy baseModel (some policy) requested = .ok (some answer)) :
    answer.validate = .ok () ∧
      resolveReasoningPolicy baseModel (some policy) (some answer) = .ok (some answer) := by
  have served : ∃ request mode, Serves policy request mode ∧ answer = mode.answer request := by
    cases requested with
    | none =>
        rcases resolveReasoningPolicy_omitted admitted baseModel with
          ⟨-, omitted⟩ | ⟨mode, -, serves, omitted⟩
        · rw [omitted] at resolved
          cases resolved
        · rw [omitted] at resolved
          cases resolved
          exact ⟨_, mode, serves, rfl⟩
    | some request =>
        obtain ⟨-, mode, served, answered⟩ :=
          (resolveReasoningPolicy_iff admitted baseModel request _).mp resolved
        exact ⟨request, mode, served.1, Option.some.inj answered⟩
  obtain ⟨request, mode, serves, rfl⟩ := served
  exact ⟨answer_valid (admitted.modes mode serves.declared) serves,
    answer_stable admitted serves baseModel⟩

/-- Under the configuration of any accepted model a malformed reasoning request is refused. A model
that declares no reasoning refuses every explicit request and answers an omitted one with none. Where
reasoning is declared, a request is answered exactly when it is well formed and one declared mode
alone serves it; an omitted request is never refused, and is answered exactly when the model has a
default mode; and every answer is itself a well-formed request with the same answer. -/
theorem reasoning_exact {R : Type} [Ring R] [LinearOrder R] {configured config : Config R}
    (accepted : normalizeConfig configured = .ok config) :
    (∀ request reason, request.validate = .error reason →
      resolveReasoningPolicy config.baseModel config.capability.reasoning (some request) =
        .error (.request config.baseModel reason)) ∧
    (config.capability.reasoning = none →
      resolveReasoningPolicy config.baseModel config.capability.reasoning none = .ok none ∧
      ∀ request, request.validate = .ok () →
        resolveReasoningPolicy config.baseModel config.capability.reasoning (some request) =
          .error (.unsupported config.baseModel request.thinking request.effort
            "no reasoning capability is declared")) ∧
    ∀ policy, config.capability.reasoning = some policy →
      (∀ request answer,
        resolveReasoningPolicy config.baseModel config.capability.reasoning (some request) =
            .ok answer ↔
          request.validate = .ok () ∧ ∃ mode, ServedBy policy request mode ∧
            answer = some (mode.answer request)) ∧
      (∃ answer,
        resolveReasoningPolicy config.baseModel config.capability.reasoning none = .ok answer ∧
          (answer.isSome ↔ policy.defaultThinking.isSome)) ∧
      ∀ requested answer,
        resolveReasoningPolicy config.baseModel config.capability.reasoning requested =
            .ok (some answer) →
          answer.validate = .ok () ∧
            resolveReasoningPolicy config.baseModel config.capability.reasoning (some answer) =
              .ok (some answer) := by
  refine ⟨?_, ?_, ?_⟩
  · intro request reason malformed
    exact resolveReasoningPolicy_malformed malformed _ _
  · intro undeclared
    rw [undeclared]
    exact resolveReasoningPolicy_undeclared config.baseModel
  · intro policy declares
    have admitted := normalizeConfig_reasoning accepted policy declares
    rw [declares]
    refine ⟨resolveReasoningPolicy_iff admitted config.baseModel, ?_,
      fun _ _ resolved => resolveReasoningPolicy_stable admitted resolved⟩
    rcases resolveReasoningPolicy_omitted admitted config.baseModel with
      ⟨undeclared, omitted⟩ | ⟨mode, declared, -, omitted⟩
    · exact ⟨none, omitted, by simp [undeclared]⟩
    · exact ⟨_, omitted, by simp [declared]⟩

/-- Two thinking modes that share an effort, and no default. -/
def sharedEffort : ReasoningPolicy where
  thinkingModes :=
    [{ thinking := ThinkingMode.adaptive, efforts := ["high"] },
      { thinking := ThinkingMode.enabled, efforts := ["high", "low"] }]

def thinkingModel : Config Int where
  baseModel := "thinking-model"
  lifecycle := "active"
  capability :=
    { operation := Operation.generate
      inputModalities := [Modality.text], outputModalities := [Modality.text]
      reasoning := some sharedEffort }

theorem thinkingModel_accepted : normalizeConfig thinkingModel = .ok thinkingModel := by
  decide

/-- The same model without its reasoning capability. -/
def plainModel : Config Int :=
  { thinkingModel with
    baseModel := "plain-model"
    capability := { thinkingModel.capability with reasoning := none } }

theorem plainModel_accepted : normalizeConfig plainModel = .ok plainModel := by
  decide

/-- The effort that one mode declares selects it; the shared one is served by neither, and a model
without reasoning refuses both. -/
theorem thinkingModel_exact :
    normalizeConfig thinkingModel = .ok thinkingModel ∧
      thinkingModel.capability.reasoning = some sharedEffort ∧
      resolveReasoningPolicy thinkingModel.baseModel thinkingModel.capability.reasoning
        (some { thinking := ThinkingMode.enabled, effort := "low" }) =
          .ok (some { thinking := ThinkingMode.enabled, effort := "low" }) ∧
      (∀ mode, ¬ ServedBy sharedEffort { effort := "high" } mode) ∧
      resolveReasoningPolicy plainModel.baseModel plainModel.capability.reasoning
        (some { effort := "low" }) =
          .error (.unsupported "plain-model" "" "low" "no reasoning capability is declared") := by
  have low : resolveReasoningPolicy thinkingModel.baseModel thinkingModel.capability.reasoning
      (some { effort := "low" }) =
        .ok (some { thinking := ThinkingMode.enabled, effort := "low" }) := by
    decide
  have high : resolveReasoningPolicy thinkingModel.baseModel thinkingModel.capability.reasoning
      (some { effort := "high" }) = .error (.request "thinking-model"
        ("effort " ++ quoted "high" ++ " belongs to multiple thinking modes; specify thinking")) := by
    decide
  obtain ⟨-, -, declared⟩ := reasoning_exact thinkingModel_accepted
  obtain ⟨exactly, -, stable⟩ := declared sharedEffort rfl
  refine ⟨thinkingModel_accepted, rfl, (stable _ _ low).2, ?_,
    ((reasoning_exact plainModel_accepted).2.1 rfl).2 { effort := "low" } (by decide)⟩
  intro mode served
  have answered := (exactly { effort := "high" } _).mpr ⟨by decide, mode, served, rfl⟩
  rw [high] at answered
  cases answered

end MoteKernel.Gateway
