import Mathlib.Data.Real.Basic
import MoteKernel.Gateway.Catalog

/-!
# Resolved generation parameters

What `resolveGenerationPolicy` guarantees for a model whose configuration
`normalizeConfig` accepts and a request that satisfies `Validate`.
-/

namespace MoteKernel.Gateway
open Checked

/-! ## One numeric control -/

section Numeric

variable {T : Type} [LinearOrder T]

namespace NumericParameter

/-- The value lies within every known bound. -/
def Admits (policy : NumericParameter T) (value : T) : Prop :=
  (∀ minimum ∈ policy.minimum, minimum ≤ value) ∧ (∀ maximum ∈ policy.maximum, value ≤ maximum)

/-- What `validateNumericParameter` establishes. -/
structure Consistent (policy : NumericParameter T) : Prop where
  bounds : ∀ minimum ∈ policy.minimum, ∀ maximum ∈ policy.maximum, minimum ≤ maximum
  default : ∀ value ∈ policy.default, policy.Admits value

/-- The value raised to the minimum and then lowered to the maximum. -/
def clamp (policy : NumericParameter T) (value : T) : T :=
  let raised := match policy.minimum with
    | some minimum => max minimum value
    | none => value
  match policy.maximum with
  | some maximum => min maximum raised
  | none => raised

theorem clamp_admits {policy : NumericParameter T}
    (ordered : ∀ minimum ∈ policy.minimum, ∀ maximum ∈ policy.maximum, minimum ≤ maximum)
    (value : T) : policy.Admits (policy.clamp value) := by
  unfold clamp Admits
  cases low : policy.minimum with
  | none =>
      cases high : policy.maximum with
      | none => simp
      | some maximum => simp
  | some minimum =>
      cases high : policy.maximum with
      | none => simp
      | some maximum =>
          have below := ordered minimum low maximum high
          simp [below]

theorem clamp_eq_self {policy : NumericParameter T} {value : T} (within : policy.Admits value) :
    policy.clamp value = value := by
  obtain ⟨low, high⟩ := within
  unfold clamp
  cases minimumEq : policy.minimum with
  | none =>
      cases maximumEq : policy.maximum with
      | none => rfl
      | some maximum => exact min_eq_right (high maximum maximumEq)
  | some minimum =>
      have raised : max minimum value = value := max_eq_right (low minimum minimumEq)
      cases maximumEq : policy.maximum with
      | none => exact raised
      | some maximum =>
          simp only [raised]
          exact min_eq_right (high maximum maximumEq)

theorem clamp_eq_iff {policy : NumericParameter T}
    (ordered : ∀ minimum ∈ policy.minimum, ∀ maximum ∈ policy.maximum, minimum ≤ maximum)
    (value : T) : policy.clamp value = value ↔ policy.Admits value := by
  constructor
  · intro same
    rw [← same]
    exact clamp_admits ordered value
  · exact clamp_eq_self

/-- A clamped value is the value itself or one of the bounds. -/
theorem clamp_cases (policy : NumericParameter T) (value : T) :
    policy.clamp value = value ∨ some (policy.clamp value) = policy.minimum ∨
      some (policy.clamp value) = policy.maximum := by
  unfold clamp
  cases low : policy.minimum with
  | none =>
      cases high : policy.maximum with
      | none => exact .inl rfl
      | some maximum =>
          rcases min_choice maximum value with same | same
          · exact .inr (.inr (congrArg some same))
          · exact .inl same
  | some minimum =>
      cases high : policy.maximum with
      | none =>
          rcases max_choice minimum value with same | same
          · exact .inr (.inl (congrArg some same))
          · exact .inl same
      | some maximum =>
          rcases min_choice maximum (max minimum value) with same | same
          · exact .inr (.inr (congrArg some same))
          · rcases max_choice minimum value with raised | raised
            · exact .inr (.inl (congrArg some (same.trans raised)))
            · exact .inl (same.trans raised)

end NumericParameter

theorem resolveNumeric_some (policy : NumericParameter T) (requested : Option T) :
    resolveNumeric (some policy) requested = (requested.or policy.default).map policy.clamp := by
  unfold resolveNumeric NumericParameter.clamp
  cases chosen : requested.or policy.default with
  | none => simp [chosen]
  | some value =>
      simp only [chosen, Option.map_some]
      have raise : ∀ minimum, (if value < minimum then minimum else value) = max minimum value := by
        intro minimum
        split
        · rw [max_eq_left (le_of_lt ‹_›)]
        · rw [max_eq_right (not_lt.mp ‹_›)]
      have lower : ∀ maximum raised : T, (if raised > maximum then maximum else raised) =
          min maximum raised := by
        intro maximum raised
        split
        · rw [min_eq_left (le_of_lt ‹_›)]
        · rw [min_eq_right (not_lt.mp ‹_›)]
      cases policy.minimum <;> cases policy.maximum <;> simp only [raise, lower]

theorem validateNumericParameter_some {policy : NumericParameter T} {u : Unit}
    (valid : validateNumericParameter (some policy) = .ok u) : policy.Consistent := by
  simp only [validateNumericParameter, bind_unit_eq_ok, raiseIf_eq_ok, not_exists, not_and,
    not_lt, gt_iff_lt] at valid
  obtain ⟨bounds, low, high⟩ := valid
  refine ⟨fun minimum lower maximum upper => bounds minimum lower maximum upper, ?_⟩
  intro value member
  exact ⟨fun minimum lower => low value member minimum lower,
    fun maximum upper => high value member maximum upper⟩

/-- Every bound and the default have a property. -/
structure NumericParameter.All (P : T → Prop) (policy : NumericParameter T) : Prop where
  minimum : ∀ value ∈ policy.minimum, P value
  maximum : ∀ value ∈ policy.maximum, P value
  default : ∀ value ∈ policy.default, P value

omit [LinearOrder T] in
theorem NumericParameter.All.imp {P Q : T → Prop} {policy : NumericParameter T}
    (all : policy.All P) (implies : ∀ value, P value → Q value) : policy.All Q where
  minimum value member := implies value (all.minimum value member)
  maximum value member := implies value (all.maximum value member)
  default value member := implies value (all.default value member)

theorem validateFloatParameter_some {policy : NumericParameter T} {validate : T → Except String Unit}
    {u : Unit} (valid : validateFloatParameter (some policy) validate = .ok u) :
    policy.Consistent ∧ policy.All (fun value => validate value = .ok ()) := by
  simp only [validateFloatParameter, bind_unit_eq_ok] at valid
  obtain ⟨minimum, maximum, default, consistent⟩ := valid
  have candidate : ∀ {field : String} {value : Option T},
      validateCandidate validate field value = .ok () → ∀ v ∈ value, validate v = .ok () := by
    intro field value accepted v member
    rw [Option.mem_def.mp member] at accepted
    simpa only [validateCandidate, rethrow_eq_ok] using accepted
  exact ⟨validateNumericParameter_some consistent,
    candidate minimum, candidate maximum, candidate default⟩

/-- What a resolved control owes to the policy of its model and to the request. -/
structure NumericResolved (policy : Option (NumericParameter T)) (requested resolved : Option T) :
    Prop where
  declared : policy = none → resolved = none
  within : ∀ p ∈ policy, ∀ value ∈ resolved, p.Admits value
  kept : ∀ p ∈ policy, ∀ value ∈ requested, (resolved = some value ↔ p.Admits value)

theorem resolveNumeric_resolved {policy : Option (NumericParameter T)}
    (consistent : ∀ p ∈ policy, p.Consistent) (requested : Option T) :
    NumericResolved policy requested (resolveNumeric policy requested) := by
  cases policy with
  | none => exact ⟨fun _ => rfl, by simp, by simp⟩
  | some p =>
      have agrees := consistent p rfl
      rw [resolveNumeric_some]
      refine ⟨by simp, ?_, ?_⟩
      · rintro q ⟨⟩ value member
        obtain ⟨original, -, rfl⟩ := Option.mem_map.mp member
        exact NumericParameter.clamp_admits agrees.bounds original
      · rintro q ⟨⟩ value member
        rw [Option.mem_def.mp member, Option.some_or, Option.map_some, Option.some.injEq]
        exact NumericParameter.clamp_eq_iff agrees.bounds value

/-- A resolved control resolves to itself. -/
theorem resolveNumeric_idempotent {policy : Option (NumericParameter T)}
    (consistent : ∀ p ∈ policy, p.Consistent) (requested : Option T) :
    resolveNumeric policy (resolveNumeric policy requested) = resolveNumeric policy requested := by
  cases policy with
  | none => rfl
  | some p =>
      rw [resolveNumeric_some, resolveNumeric_some]
      cases chosen : requested.or p.default with
      | none =>
          have noDefault : p.default = none := (Option.or_eq_none_iff.mp chosen).2
          simp [noDefault]
      | some value =>
          have admitted := NumericParameter.clamp_admits (consistent p rfl).bounds value
          simp [NumericParameter.clamp_eq_self admitted]

/-- A property of the request, the default and the bounds holds of the resolved value. -/
theorem resolveNumeric_preserves {P : T → Prop} {policy : Option (NumericParameter T)}
    {requested : Option T} (all : ∀ p ∈ policy, p.All P) (request : ∀ value ∈ requested, P value) :
    ∀ value ∈ resolveNumeric policy requested, P value := by
  cases policy with
  | none => simp [resolveNumeric]
  | some p =>
      rw [resolveNumeric_some]
      intro value member
      obtain ⟨original, chosen, rfl⟩ := Option.mem_map.mp member
      have originalHolds : P original := by
        rcases Option.or_eq_some_iff.mp chosen with fromRequest | ⟨-, fromDefault⟩
        · exact request original fromRequest
        · exact (all p rfl).default original fromDefault
      rcases p.clamp_cases original with same | low | high
      · rw [same]
        exact originalHolds
      · exact (all p rfl).minimum _ low.symm
      · exact (all p rfl).maximum _ high.symm

end Numeric

/-! ## Output tokens -/

namespace TokenLimits

/-- What `validationError` establishes. -/
structure Valid (limits : TokenLimits) : Prop where
  contextWindow : 0 ≤ limits.contextWindowTokens
  minOutput : 0 ≤ limits.minOutputTokens
  maxOutput : 0 ≤ limits.maxOutputTokens
  ordered : 0 < limits.maxOutputTokens → limits.minOutputTokens ≤ limits.maxOutputTokens
  inWindow : 0 < limits.contextWindowTokens →
    limits.minOutputTokens ≤ limits.contextWindowTokens ∧
      limits.maxOutputTokens ≤ limits.contextWindowTokens

theorem valid_of_validationError {limits : TokenLimits} {u : Unit}
    (accepted : limits.validationError = .ok u) : limits.Valid := by
  simp only [validationError, bind_unit_eq_ok, raiseIf_eq_ok] at accepted
  obtain ⟨nonneg, ordered, inWindow⟩ := accepted
  refine ⟨?_, ?_, ?_, ?_, ?_⟩
  · omega
  · omega
  · omega
  · omega
  · omega

/-- A token limit as a bound; zero is unknown. -/
def known (limit : Int) : Option Int := if 0 < limit then some limit else none

@[simp] theorem mem_known {limit value : Int} : value ∈ known limit ↔ 0 < limit ∧ limit = value := by
  unfold known
  split <;> simp [*]

/-- The bounds of the output tokens. -/
def outputPolicy (limits : TokenLimits) : NumericParameter Int :=
  { minimum := known limits.minOutputTokens, maximum := known limits.maxOutputTokens }

theorem Valid.outputPolicy_ordered {limits : TokenLimits} (valid : limits.Valid) :
    ∀ minimum ∈ limits.outputPolicy.minimum, ∀ maximum ∈ limits.outputPolicy.maximum,
      minimum ≤ maximum := by
  intro minimum low maximum high
  obtain ⟨-, rfl⟩ := mem_known.mp low
  obtain ⟨positive, rfl⟩ := mem_known.mp high
  exact valid.ordered positive

end TokenLimits

theorem resolveOutputTokens_eq (policy : Option OutputTokenParameter) (requested : Option Int)
    (limits : TokenLimits) :
    resolveOutputTokens policy requested limits.minOutputTokens limits.maxOutputTokens =
      policy.map fun _ =>
        limits.outputPolicy.clamp (requested.getD gatewayDefaultMaxOutputTokens) := by
  cases policy with
  | none => rfl
  | some marker =>
      unfold resolveOutputTokens NumericParameter.clamp TokenLimits.outputPolicy TokenLimits.known
      generalize requested.getD gatewayDefaultMaxOutputTokens = value
      by_cases low : 0 < limits.minOutputTokens
      · by_cases high : 0 < limits.maxOutputTokens
        · simp only [low, high, if_true, true_and, gt_iff_lt, Option.map_some, Option.some.injEq]
          omega
        · simp only [low, high, if_true, if_false, true_and, false_and, gt_iff_lt,
            Option.map_some, Option.some.injEq]
          omega
      · by_cases high : 0 < limits.maxOutputTokens
        · simp only [low, high, if_true, if_false, true_and, false_and, gt_iff_lt,
            Option.map_some, Option.some.injEq]
          omega
        · simp [low, high]

theorem resolveOutputTokens_resolved {limits : TokenLimits} (valid : limits.Valid)
    (policy : Option OutputTokenParameter) (requested : Option Int) :
    NumericResolved (policy.map fun _ => limits.outputPolicy) requested
      (resolveOutputTokens policy requested limits.minOutputTokens limits.maxOutputTokens) := by
  rw [resolveOutputTokens_eq]
  cases policy with
  | none => exact ⟨fun _ => rfl, by simp, by simp⟩
  | some marker =>
      refine ⟨by simp, ?_, ?_⟩
      · rintro p ⟨⟩ value ⟨⟩
        exact NumericParameter.clamp_admits valid.outputPolicy_ordered _
      · rintro p ⟨⟩ value member
        rw [Option.mem_def.mp member, Option.getD_some, Option.map_some, Option.some.injEq]
        exact NumericParameter.clamp_eq_iff valid.outputPolicy_ordered value

theorem resolveOutputTokens_idempotent {limits : TokenLimits} (valid : limits.Valid)
    (policy : Option OutputTokenParameter) (requested : Option Int) :
    resolveOutputTokens policy
        (resolveOutputTokens policy requested limits.minOutputTokens limits.maxOutputTokens)
        limits.minOutputTokens limits.maxOutputTokens =
      resolveOutputTokens policy requested limits.minOutputTokens limits.maxOutputTokens := by
  cases policy with
  | none => rfl
  | some marker =>
      have admitted := NumericParameter.clamp_admits valid.outputPolicy_ordered
        (requested.getD gatewayDefaultMaxOutputTokens)
      simp only [resolveOutputTokens_eq, Option.map_some, Option.getD_some,
        NumericParameter.clamp_eq_self admitted]

theorem resolveOutputTokens_pos {limits : TokenLimits} {policy : Option OutputTokenParameter}
    {requested : Option Int} (positive : ∀ value ∈ requested, 1 ≤ value) :
    ∀ value ∈ resolveOutputTokens policy requested limits.minOutputTokens limits.maxOutputTokens,
      1 ≤ value := by
  intro value member
  rw [resolveOutputTokens_eq] at member
  obtain ⟨marker, -, rfl⟩ := Option.mem_map.mp member
  have chosen : 1 ≤ requested.getD gatewayDefaultMaxOutputTokens := by
    cases requested with
    | none => decide
    | some value => exact positive value rfl
  rcases limits.outputPolicy.clamp_cases (requested.getD gatewayDefaultMaxOutputTokens)
    with same | low | high
  · rw [same]
    exact chosen
  · obtain ⟨known, same⟩ := TokenLimits.mem_known.mp low.symm
    omega
  · obtain ⟨known, same⟩ := TokenLimits.mem_known.mp high.symm
    omega

theorem resolveOutputTokens_le_maximum {limits : TokenLimits}
    {policy : Option OutputTokenParameter} {requested : Option Int} {value : Int}
    (resolved : value ∈
      resolveOutputTokens policy requested limits.minOutputTokens limits.maxOutputTokens)
    (known : 0 < limits.maxOutputTokens) : value ≤ limits.maxOutputTokens := by
  rw [resolveOutputTokens_eq] at resolved
  obtain ⟨marker, -, rfl⟩ := Option.mem_map.mp resolved
  simp only [NumericParameter.clamp, TokenLimits.outputPolicy, TokenLimits.known, if_pos known]
  exact min_le_left _ _

/-- The context window is kept exactly when the output maximum is known or the value that was
asked for already fits. -/
theorem resolveOutputTokens_le_contextWindow {limits : TokenLimits} (valid : limits.Valid)
    {policy : Option OutputTokenParameter} {requested : Option Int} {value : Int}
    (resolved : value ∈
      resolveOutputTokens policy requested limits.minOutputTokens limits.maxOutputTokens)
    (known : 0 < limits.contextWindowTokens) :
    value ≤ limits.contextWindowTokens ↔ 0 < limits.maxOutputTokens ∨
      requested.getD gatewayDefaultMaxOutputTokens ≤ limits.contextWindowTokens := by
  cases policy with
  | none => cases resolved
  | some marker =>
      obtain ⟨lowInWindow, highInWindow⟩ := valid.inWindow known
      have ordered := valid.ordered
      simp only [resolveOutputTokens, Option.mem_def, Option.some.injEq] at resolved
      generalize requested.getD gatewayDefaultMaxOutputTokens = chosen at resolved ⊢
      subst resolved
      by_cases high : 0 < limits.maxOutputTokens
      · simp only [high, gt_iff_lt, true_and, true_or, iff_true]
        split <;> omega
      · simp only [high, gt_iff_lt, false_and, if_false, false_or]
        split <;> omega

/-! ## Accepted configurations -/

section Accepted

variable {R : Type} [Ring R] [LinearOrder R]

/-- The domain of each parameter. -/
theorem GenerationParameters.validate_eq_ok {parameters : GenerationParameters R} {u : Unit} :
    parameters.validate = .ok u ↔
      (∀ value ∈ parameters.temperature, 0 ≤ value ∧ value ≤ 2) ∧
      (∀ value ∈ parameters.topP, 0 < value ∧ value ≤ 1) ∧
      (∀ value ∈ parameters.maxOutputTokens, 1 ≤ value) ∧
      validateStopSequences (parameters.stop.getD []) = .ok () := by
  simp only [validate, bind_unit_eq_ok, raiseIf_eq_ok, not_exists, not_and, Classical.not_imp,
    not_not, ge_iff_le, gt_iff_lt, not_lt]

/-- What `normalizeGenerationPolicy` establishes. -/
structure GenerationPolicy.Admitted (policy : GenerationPolicy R) : Prop where
  temperature : ∀ p ∈ policy.temperature, p.Consistent
  temperatures : ∀ p ∈ policy.temperature, p.All (fun value => 0 ≤ value ∧ value ≤ 2)
  topP : ∀ p ∈ policy.topP, p.Consistent
  topPs : ∀ p ∈ policy.topP, p.All (fun value => 0 < value ∧ value ≤ 1)
  seed : ∀ p ∈ policy.seed, p.Consistent
  stop : ∀ p ∈ policy.stop, validateStopSequences (p.default.getD []) = .ok ()

theorem normalizeGenerationPolicy_some {policy : GenerationPolicy R}
    {normalized : Option (GenerationPolicy R)}
    (accepted : normalizeGenerationPolicy (some policy) = .ok normalized) :
    normalized = some policy ∧ policy.Admitted := by
  simp only [normalizeGenerationPolicy, bind_unit_eq_ok, rethrow_eq_ok] at accepted
  obtain ⟨temperature, topP, seed, rest⟩ := accepted
  have stop : normalized = some policy ∧
      ∀ p ∈ policy.stop, validateStopSequences (p.default.getD []) = .ok () := by
    cases declared : policy.stop with
    | none =>
        simp only [declared, pure_eq_ok, Except.ok.injEq] at rest
        exact ⟨rest.symm, by simp⟩
    | some p =>
        simp only [declared, bind_unit_eq_ok, rethrow_eq_ok, pure_eq_ok, Except.ok.injEq] at rest
        refine ⟨rest.2.symm, ?_⟩
        rintro q ⟨⟩
        exact (GenerationParameters.validate_eq_ok.mp rest.1).2.2.2
  have float : ∀ {control : Option (NumericParameter R)} {validate : R → Except String Unit},
      validateFloatParameter control validate = .ok () →
      ∀ p ∈ control, p.Consistent ∧ p.All (fun value => validate value = .ok ()) := by
    rintro control validate valid p ⟨⟩
    exact validateFloatParameter_some valid
  refine ⟨stop.1, fun p member => (float temperature p member).1, ?_,
    fun p member => (float topP p member).1, ?_, ?_, stop.2⟩
  · intro p member
    apply (float temperature p member).2.imp
    intro value valid
    exact (GenerationParameters.validate_eq_ok.mp valid).1 value rfl
  · intro p member
    apply (float topP p member).2.imp
    intro value valid
    exact (GenerationParameters.validate_eq_ok.mp valid).2.1 value rfl
  · intro p member
    rw [Option.mem_def.mp member] at seed
    exact validateNumericParameter_some seed

theorem normalizeCapabilityConfig_generation {config normalized : CapabilityConfig R}
    (accepted : normalizeCapabilityConfig config = .ok normalized) :
    ∀ policy ∈ normalized.generation, policy.Admitted := by
  simp only [normalizeCapabilityConfig, bind_eq_ok, rethrow_eq_ok, pure_eq_ok, Except.ok.injEq]
    at accepted
  obtain ⟨_, -, _, -, inputs, -, outputs, -, features, -, _, -, generation, resolved, embedding, -,
    reasoning, -, rfl⟩ := accepted
  intro policy member
  cases declared : config.generation with
  | none =>
      simp only [declared, normalizeGenerationPolicy, pure_eq_ok, Except.ok.injEq] at resolved
      rw [← resolved] at member
      cases member
  | some original =>
      rw [declared] at resolved
      obtain ⟨rfl, admitted⟩ := normalizeGenerationPolicy_some resolved
      cases member
      exact admitted

theorem normalizeConfig_spec {config normalized : Config R}
    (accepted : normalizeConfig config = .ok normalized) :
    normalized.tokenLimits.Valid ∧
      ∀ policy ∈ normalized.capability.generation, policy.Admitted := by
  simp only [normalizeConfig, bind_eq_ok, rethrow_eq_ok, pure_eq_ok, Except.ok.injEq] at accepted
  obtain ⟨_, -, _, -, _, limits, capability, resolved, rfl⟩ := accepted
  exact ⟨TokenLimits.valid_of_validationError limits,
    normalizeCapabilityConfig_generation resolved⟩

/-! ## The resolved parameters -/

/-- What the resolved parameters owe to the model and to the request. -/
structure GenerationResolved (config : Config R) (requested resolved : GenerationParameters R) :
    Prop where
  valid : resolved.validate = .ok ()
  temperature : NumericResolved (config.capability.generation.bind (·.temperature))
    requested.temperature resolved.temperature
  topP : NumericResolved (config.capability.generation.bind (·.topP)) requested.topP resolved.topP
  maxOutputTokens : NumericResolved
    ((config.capability.generation.bind (·.maxOutputTokens)).map
      fun _ => config.tokenLimits.outputPolicy)
    requested.maxOutputTokens resolved.maxOutputTokens
  seed : NumericResolved (config.capability.generation.bind (·.seed)) requested.seed resolved.seed
  stopDeclared : config.capability.generation.bind (·.stop) = none → resolved.stop = none
  stopKept : (config.capability.generation.bind (·.stop)).isSome → ∀ sequences ∈ requested.stop,
    resolved.stop = some sequences
  stable : resolveGenerationPolicy config.capability.generation resolved config.tokenLimits =
    resolved
  outputMaximum : 0 < config.tokenLimits.maxOutputTokens → ∀ tokens ∈ resolved.maxOutputTokens,
    tokens ≤ config.tokenLimits.maxOutputTokens
  contextWindow : 0 < config.tokenLimits.contextWindowTokens →
    ∀ tokens ∈ resolved.maxOutputTokens,
      (tokens ≤ config.tokenLimits.contextWindowTokens ↔
        0 < config.tokenLimits.maxOutputTokens ∨
          requested.maxOutputTokens.getD gatewayDefaultMaxOutputTokens ≤
            config.tokenLimits.contextWindowTokens)

section Fields

variable (policy : Option (GenerationPolicy R)) (requested : GenerationParameters R)
  (limits : TokenLimits)

omit [Ring R] in
theorem resolveGenerationPolicy_temperature :
    (resolveGenerationPolicy policy requested limits).temperature =
      resolveNumeric (policy.bind (·.temperature)) requested.temperature := by
  cases policy <;> rfl

omit [Ring R] in
theorem resolveGenerationPolicy_topP : (resolveGenerationPolicy policy requested limits).topP =
    resolveNumeric (policy.bind (·.topP)) requested.topP := by
  cases policy <;> rfl

omit [Ring R] in
theorem resolveGenerationPolicy_maxOutputTokens :
    (resolveGenerationPolicy policy requested limits).maxOutputTokens =
      resolveOutputTokens (policy.bind (·.maxOutputTokens)) requested.maxOutputTokens
        limits.minOutputTokens limits.maxOutputTokens := by
  cases policy <;> rfl

omit [Ring R] in
theorem resolveGenerationPolicy_stop : (resolveGenerationPolicy policy requested limits).stop =
    resolveStop (policy.bind (·.stop)) requested.stop := by
  cases policy <;> rfl

omit [Ring R] in
theorem resolveGenerationPolicy_seed : (resolveGenerationPolicy policy requested limits).seed =
    resolveNumeric (policy.bind (·.seed)) requested.seed := by
  cases policy <;> rfl

end Fields

/-- The parameters stay in the domain of `Validate`. -/
theorem resolveGenerationPolicy_valid {policy : Option (GenerationPolicy R)}
    {requested : GenerationParameters R} (limits : TokenLimits)
    (admitted : ∀ p ∈ policy, p.Admitted) (valid : requested.validate = .ok ()) :
    (resolveGenerationPolicy policy requested limits).validate = .ok () := by
  obtain ⟨temperature, topP, tokens, stop⟩ := GenerationParameters.validate_eq_ok.mp valid
  apply GenerationParameters.validate_eq_ok.mpr
  cases policy with
  | none => exact ⟨nofun, nofun, nofun, rfl⟩
  | some p =>
      have policyAdmitted := admitted p rfl
      refine ⟨resolveNumeric_preserves policyAdmitted.temperatures temperature,
        resolveNumeric_preserves policyAdmitted.topPs topP, resolveOutputTokens_pos tokens, ?_⟩
      show validateStopSequences ((resolveStop p.stop requested.stop).getD []) = .ok ()
      cases declared : p.stop with
      | none => rfl
      | some control =>
          cases chosen : requested.stop with
          | none => exact policyAdmitted.stop control declared
          | some sequences =>
              rw [chosen] at stop
              exact stop

theorem resolveStop_idempotent (policy : Option StopParameter)
    (requested : Option (List GoString)) :
    resolveStop policy (resolveStop policy requested) = resolveStop policy requested := by
  cases policy with
  | none => rfl
  | some control => cases requested <;> simp [resolveStop]

theorem resolveGenerationPolicy_idempotent {policy : Option (GenerationPolicy R)}
    {limits : TokenLimits} (admitted : ∀ p ∈ policy, p.Admitted) (valid : limits.Valid)
    (requested : GenerationParameters R) :
    resolveGenerationPolicy policy (resolveGenerationPolicy policy requested limits) limits =
      resolveGenerationPolicy policy requested limits := by
  cases policy with
  | none => rfl
  | some p =>
      have policyAdmitted := admitted p rfl
      simp only [resolveGenerationPolicy, resolveNumeric_idempotent policyAdmitted.temperature,
        resolveNumeric_idempotent policyAdmitted.topP, resolveStop_idempotent,
        resolveNumeric_idempotent policyAdmitted.seed, resolveOutputTokens_idempotent valid]

/-- Generation parameters are resolved within the bounds of the model. The context window bounds
the output tokens through a known output maximum, never by itself. -/
theorem generation_resolved_within_bounds {config normalized : Config R}
    (accepted : normalizeConfig config = .ok normalized) {requested : GenerationParameters R}
    (valid : requested.validate = .ok ()) :
    GenerationResolved normalized requested
      (resolveGenerationPolicy normalized.capability.generation requested
        normalized.tokenLimits) := by
  obtain ⟨limits, admitted⟩ := normalizeConfig_spec accepted
  have consistent : ∀ {T : Type} [LinearOrder T]
      {control : GenerationPolicy R → Option (NumericParameter T)},
      (∀ policy : GenerationPolicy R, policy.Admitted → ∀ p ∈ control policy, p.Consistent) →
      ∀ p ∈ normalized.capability.generation.bind control, p.Consistent := by
    intro T _ control each p member
    obtain ⟨policy, declared, below⟩ := Option.mem_bind_iff.mp member
    exact each policy (admitted policy declared) p below
  refine
    { valid := resolveGenerationPolicy_valid _ admitted valid
      stable := resolveGenerationPolicy_idempotent admitted limits requested
      temperature := ?_, topP := ?_, maxOutputTokens := ?_, seed := ?_, stopDeclared := ?_
      stopKept := ?_, outputMaximum := ?_, contextWindow := ?_ }
  · rw [resolveGenerationPolicy_temperature]
    exact resolveNumeric_resolved (consistent fun policy holds => holds.temperature) _
  · rw [resolveGenerationPolicy_topP]
    exact resolveNumeric_resolved (consistent fun policy holds => holds.topP) _
  · rw [resolveGenerationPolicy_maxOutputTokens]
    exact resolveOutputTokens_resolved limits _ _
  · rw [resolveGenerationPolicy_seed]
    exact resolveNumeric_resolved (consistent fun policy holds => holds.seed) _
  · intro undeclared
    rw [resolveGenerationPolicy_stop, undeclared]
    rfl
  · intro declared sequences chosen
    obtain ⟨control, stop⟩ := Option.isSome_iff_exists.mp declared
    rw [resolveGenerationPolicy_stop, stop, Option.mem_def.mp chosen]
    rfl
  · intro known tokens member
    rw [resolveGenerationPolicy_maxOutputTokens] at member
    exact resolveOutputTokens_le_maximum member known
  · intro known tokens member
    rw [resolveGenerationPolicy_maxOutputTokens] at member
    exact resolveOutputTokens_le_contextWindow limits member known

end Accepted

/-- A model with known bounds for its temperature and its output tokens. -/
def boundedModel : Config ℝ where
  baseModel := "bounded-model"
  lifecycle := "active"
  tokenLimits := { contextWindowTokens := 8192, minOutputTokens := 16, maxOutputTokens := 2048 }
  capability :=
    { operation := Operation.generate
      inputModalities := [Modality.text], outputModalities := [Modality.text]
      generation := some
        { temperature := some { minimum := some 0, maximum := some 1 }
          maxOutputTokens := some .declared } }

section Request

local instance numeralTwo : Nat.AtLeastTwo 2 := ⟨le_rfl⟩

/-- A request above both maxima. -/
def eagerRequest : GenerationParameters ℝ := { temperature := some 2, maxOutputTokens := some 9999 }

end Request

theorem boundedModel_accepted : normalizeConfig boundedModel = .ok boundedModel := by
  have temperature : validateFloatParameter
      (some { minimum := some (0 : ℝ), maximum := some 1 })
      (fun value => GenerationParameters.validate { temperature := some value }) = .ok () := by
    simp [validateFloatParameter, validateCandidate, validateNumericParameter,
      GenerationParameters.validate_eq_ok, validateStopSequences]
  have generation : normalizeGenerationPolicy boundedModel.capability.generation =
      .ok boundedModel.capability.generation := by
    simp only [boundedModel, normalizeGenerationPolicy, temperature]
    rfl
  simp only [normalizeConfig, normalizeCapabilityConfig, bind_eq_ok, rethrow_eq_ok, pure_eq_ok,
    Except.ok.injEq]
  exact ⟨(), rfl, (), rfl, (), rfl, _, ⟨_, rfl, (), rfl, _, rfl, _, rfl, _, rfl, (), rfl, _,
    generation, _, rfl, _, rfl, rfl⟩, rfl⟩

theorem eagerRequest_valid : eagerRequest.validate = .ok () := by
  apply GenerationParameters.validate_eq_ok.mpr
  simp [eagerRequest, validateStopSequences]

theorem boundedModel_resolves_eagerRequest :
    normalizeConfig boundedModel = .ok boundedModel ∧ eagerRequest.validate = .ok () ∧
      GenerationResolved boundedModel eagerRequest
        (resolveGenerationPolicy boundedModel.capability.generation eagerRequest
          boundedModel.tokenLimits) :=
  ⟨boundedModel_accepted, eagerRequest_valid,
    generation_resolved_within_bounds boundedModel_accepted eagerRequest_valid⟩

/-- A model whose context window is known and whose output bounds are not. -/
def unknownOutput : Config ℝ where
  baseModel := "unknown-bounds"
  lifecycle := "active"
  tokenLimits := { contextWindowTokens := 8192 }
  capability :=
    { operation := Operation.generate
      inputModalities := [Modality.text], outputModalities := [Modality.text]
      generation := some { maxOutputTokens := some .declared, stop := some {} } }

/-- The request of 999999 output tokens for it. -/
def unboundedRequest : GenerationParameters ℝ :=
  { maxOutputTokens := some 999999, stop := some [] }

/-- The output maximum is unknown, so nothing keeps the value below the context window. -/
theorem unknownOutput_exceeds_contextWindow :
    normalizeConfig unknownOutput = .ok unknownOutput ∧ unboundedRequest.validate = .ok () ∧
      0 < unknownOutput.tokenLimits.contextWindowTokens ∧
      ¬ ∀ tokens ∈ (resolveGenerationPolicy unknownOutput.capability.generation unboundedRequest
        unknownOutput.tokenLimits).maxOutputTokens,
          tokens ≤ unknownOutput.tokenLimits.contextWindowTokens := by
  refine ⟨rfl, rfl, by decide, ?_⟩
  intro bounded
  have within : (999999 : Int) ≤ 8192 := bounded 999999 rfl
  omega

end MoteKernel.Gateway
