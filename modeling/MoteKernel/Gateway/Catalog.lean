import Mathlib.Data.List.Sort
import MoteKernel.Gateway.Api

/-!
# Model configuration

`internal/model`: the configuration of one model, its normalization
(`definition.go`, `shape.go`, `capability.go`) and the resolution of generation
parameters. Clones are the values themselves.
-/

namespace MoteKernel.Gateway
open Checked

/-! ## Configuration -/

/-- `TokenLimits`; zero is an unknown bound. -/
structure TokenLimits where
  contextWindowTokens : Int := 0
  maxInputTokens : Int := 0
  minOutputTokens : Int := 0
  maxOutputTokens : Int := 0
  deriving DecidableEq, Repr

/-- `NumericParameter`. -/
structure NumericParameter (T : Type) where
  minimum : Option T := none
  maximum : Option T := none
  default : Option T := none
  deriving DecidableEq, Repr

/-- `OutputTokenParameter`, a presence marker. -/
inductive OutputTokenParameter where
  | declared
  deriving DecidableEq, Repr

/-- `StopParameter`. -/
structure StopParameter where
  default : Option (List GoString) := none
  deriving DecidableEq, Repr

/-- `GenerationPolicy`. -/
structure GenerationPolicy (R : Type) where
  temperature : Option (NumericParameter R) := none
  topP : Option (NumericParameter R) := none
  maxOutputTokens : Option OutputTokenParameter := none
  stop : Option StopParameter := none
  seed : Option (NumericParameter Int) := none
  deriving DecidableEq, Repr

/-- `ThinkingModePolicy`. -/
structure ThinkingModePolicy where
  thinking : ThinkingMode
  efforts : List ReasoningEffort := []
  defaultEffort : Option ReasoningEffort := none
  deriving DecidableEq, Repr

/-- `ReasoningPolicy`. -/
structure ReasoningPolicy where
  thinkingModes : List ThinkingModePolicy
  defaultThinking : Option ThinkingMode := none
  deriving DecidableEq, Repr

/-- `EmbeddingPolicy`. -/
structure EmbeddingPolicy where
  fixedDimensions : Option Int := none
  dimensions : Option (NumericParameter Int) := none
  deriving DecidableEq, Repr

/-- `CapabilityConfig`. -/
structure CapabilityConfig (R : Type) where
  operation : Operation
  inputModalities : List Modality
  outputModalities : List Modality
  features : List Feature := []
  generation : Option (GenerationPolicy R) := none
  embedding : Option EmbeddingPolicy := none
  reasoning : Option ReasoningPolicy := none
  deriving DecidableEq, Repr

/-- `Config`. -/
structure Config (R : Type) where
  baseModel : String
  lifecycle : String
  tokenLimits : TokenLimits := {}
  capability : CapabilityConfig R
  deriving DecidableEq, Repr

/-- `ConfigError`. -/
structure ConfigError where
  baseModel : String
  field : String
  reason : String
  deriving DecidableEq, Repr

/-! ## Resolution -/

/-- `gatewayDefaultMaxOutputTokens`. -/
def gatewayDefaultMaxOutputTokens : Int := 4096

/-- `resolveNumeric`. -/
def resolveNumeric {T : Type} [LinearOrder T] (policy : Option (NumericParameter T))
    (requested : Option T) : Option T :=
  match policy with
  | none => none
  | some policy =>
      match requested.or policy.default with
      | none => none
      | some value =>
          let resolved := match policy.minimum with
            | some minimum => if value < minimum then minimum else value
            | none => value
          match policy.maximum with
          | some maximum => some (if resolved > maximum then maximum else resolved)
          | none => some resolved

/-- `resolveOutputTokens`. -/
def resolveOutputTokens (policy : Option OutputTokenParameter) (requested : Option Int)
    (minimum maximum : Int) : Option Int :=
  match policy with
  | none => none
  | some _ =>
      let resolved := requested.getD gatewayDefaultMaxOutputTokens
      let resolved := if minimum > 0 ∧ resolved < minimum then minimum else resolved
      some (if maximum > 0 ∧ resolved > maximum then maximum else resolved)

/-- `resolveStop`. -/
def resolveStop (policy : Option StopParameter) (requested : Option (List GoString)) :
    Option (List GoString) :=
  match policy with
  | none => none
  | some policy => requested.or policy.default

variable {R : Type}

/-- `resolveGenerationPolicy`. -/
def resolveGenerationPolicy [LinearOrder R] (policy : Option (GenerationPolicy R))
    (requested : GenerationParameters R) (limits : TokenLimits) : GenerationParameters R :=
  match policy with
  | none => {}
  | some policy =>
      { temperature := resolveNumeric policy.temperature requested.temperature
        topP := resolveNumeric policy.topP requested.topP
        maxOutputTokens := resolveOutputTokens policy.maxOutputTokens requested.maxOutputTokens
          limits.minOutputTokens limits.maxOutputTokens
        stop := resolveStop policy.stop requested.stop
        seed := resolveNumeric policy.seed requested.seed }

/-! ## Policy checks

A check that returns a field and a reason in Go raises the pair here. -/

/-- `TokenLimits.validationError`. -/
def TokenLimits.validationError (limits : TokenLimits) : Except String Unit := do
  raiseIf (min (min limits.contextWindowTokens limits.maxInputTokens)
      (min limits.minOutputTokens limits.maxOutputTokens) < 0)
    "values must be non-negative"
  raiseIf (limits.maxOutputTokens > 0 ∧ limits.minOutputTokens > limits.maxOutputTokens)
    "output minimum must not exceed output maximum"
  raiseIf (limits.contextWindowTokens > 0 ∧
      max (max limits.maxInputTokens limits.minOutputTokens) limits.maxOutputTokens >
        limits.contextWindowTokens)
    "input and output maxima must not exceed the context window"

/-- `validateNumericParameter`. -/
def validateNumericParameter {T : Type} [LinearOrder T] (policy : Option (NumericParameter T)) :
    Except (String × String) Unit :=
  match policy with
  | none => return ()
  | some policy => do
      raiseIf (∃ minimum ∈ policy.minimum, ∃ maximum ∈ policy.maximum, minimum > maximum)
        ("bounds", "minimum must not exceed maximum")
      raiseIf (∃ value ∈ policy.default, ∃ minimum ∈ policy.minimum, value < minimum)
        ("default", "must not be below the configured minimum")
      raiseIf (∃ value ∈ policy.default, ∃ maximum ∈ policy.maximum, value > maximum)
        ("default", "must not exceed the configured maximum")

/-- One candidate of `validateFloatParameter`. -/
def validateCandidate {T : Type} (validate : T → Except String Unit) (field : String)
    (candidate : Option T) : Except (String × String) Unit :=
  match candidate with
  | none => return ()
  | some value => rethrow (fun reason => (field, reason)) (validate value)

/-- `validateFloatParameter`. -/
def validateFloatParameter [LinearOrder R] (policy : Option (NumericParameter R))
    (validate : R → Except String Unit) : Except (String × String) Unit :=
  match policy with
  | none => return ()
  | some policy => do
      validateCandidate validate "minimum" policy.minimum
      validateCandidate validate "maximum" policy.maximum
      validateCandidate validate "default" policy.default
      validateNumericParameter (some policy)

/-- A field path below a parameter. -/
def below (parameter : String) (error : String × String) : String × String :=
  (parameter ++ "." ++ error.1, error.2)

/-- `normalizeGenerationPolicy`. -/
def normalizeGenerationPolicy [Ring R] [LinearOrder R] (policy : Option (GenerationPolicy R)) :
    Except (String × String) (Option (GenerationPolicy R)) :=
  match policy with
  | none => return none
  | some policy => do
      rethrow (below "temperature") (validateFloatParameter policy.temperature
        (fun value => GenerationParameters.validate { temperature := some value }))
      rethrow (below "top_p") (validateFloatParameter policy.topP
        (fun value => GenerationParameters.validate { topP := some value }))
      rethrow (below "seed") (validateNumericParameter policy.seed)
      match policy.stop with
      | none => pure ()
      | some stop =>
          rethrow (fun reason => ("stop.default", reason))
            (GenerationParameters.validate (R := R) { stop := stop.default })
      return some policy

/-- One candidate of the last loop of `normalizeEmbeddingPolicy`. -/
def requirePositive (field : String) (candidate : Option Int) : Except (String × String) Unit :=
  raiseIf (∃ value ∈ candidate, value < 1) (field, "must be positive")

/-- `normalizeEmbeddingPolicy`. -/
def normalizeEmbeddingPolicy (policy : Option EmbeddingPolicy) :
    Except (String × String) (Option EmbeddingPolicy) :=
  match policy with
  | none => return none
  | some policy => do
      raiseIf (policy.fixedDimensions.isSome ∧ policy.dimensions.isSome)
        ("dimensions", "fixed and configurable dimensions are mutually exclusive")
      requirePositive "fixed_dimensions" policy.fixedDimensions
      rethrow (below "dimensions") (validateNumericParameter policy.dimensions)
      let dimensions := policy.dimensions.getD {}
      requirePositive "fixed_dimensions" policy.fixedDimensions
      requirePositive "dimensions.minimum" dimensions.minimum
      requirePositive "dimensions.maximum" dimensions.maximum
      requirePositive "dimensions.default" dimensions.default
      return some policy

/-! ## Sets and reasoning -/

/-- The loop of `normalizeSet` over the sorted values; `previous` is the value before. -/
def requireSet (valid : String → Bool) : Option String → List String → Except String Unit
  | _, [] => return ()
  | previous, value :: values => do
      raiseIf (valid value = false) ("contains unsupported value " ++ quoted value)
      raiseIf (previous = some value) ("contains duplicate value " ++ quoted value)
      requireSet valid (some value) values

/-- `normalizeSet`. -/
def normalizeSet (values : List String) (valid : String → Bool) : Except String (List String) := do
  let normalized := values.insertionSort (· ≤ ·)
  requireSet valid none normalized
  return normalized

/-- `validateDefaultEffort`. -/
def validateDefaultEffort (field : String) (mode : ThinkingModePolicy) :
    Except (String × String) Unit :=
  match mode.defaultEffort with
  | none => return ()
  | some effort => do
      raiseIf (mode.thinking = ThinkingMode.disabled)
        (field ++ ".default_effort", "disabled thinking must not declare a default effort")
      raiseIf (effort ∉ mode.efforts)
        (field ++ ".default_effort", "must be one of the declared efforts")

/-- `normalizeThinkingMode`. -/
def normalizeThinkingMode (index : Nat) (mode : ThinkingModePolicy) :
    Except (String × String) ThinkingModePolicy := do
  let field := "thinking_modes[" ++ toString index ++ "]"
  let efforts ← rethrow (fun reason => (field ++ ".efforts", reason))
    (normalizeSet mode.efforts ReasoningEffort.isValid)
  let mode := { mode with efforts := efforts }
  raiseIf (mode.thinking = ThinkingMode.disabled ∧ mode.efforts ≠ [])
    (field ++ ".efforts", "disabled thinking must not declare efforts")
  validateDefaultEffort field mode
  return mode

/-- The loop of `normalizeThinkingModes`; `seen` holds the modes before. -/
def normalizeModes (seen : List ThinkingMode) :
    Nat → List ThinkingModePolicy → Except (String × String) (List ThinkingModePolicy)
  | _, [] => return []
  | index, mode :: modes => do
      raiseIf (ThinkingMode.isValid mode.thinking = false)
        ("thinking_modes[" ++ toString index ++ "].thinking",
          "unsupported value " ++ quoted mode.thinking)
      raiseIf (mode.thinking ∈ seen)
        ("thinking_modes", "duplicate thinking mode " ++ quoted mode.thinking)
      let normalized ← normalizeThinkingMode index mode
      let rest ← normalizeModes (mode.thinking :: seen) (index + 1) modes
      return normalized :: rest

/-- `normalizeReasoningPolicy`, with `normalizeThinkingModes`. -/
def normalizeReasoningPolicy (policy : Option ReasoningPolicy) :
    Except (String × String) (Option ReasoningPolicy) :=
  match policy with
  | none => return none
  | some policy => do
      raiseIf (policy.thinkingModes = []) ("thinking_modes", "must not be empty")
      let modes ← normalizeModes [] 0 policy.thinkingModes
      match policy.defaultThinking with
      | none => pure ()
      | some thinking => do
          raiseIf (ThinkingMode.isValid thinking = false)
            ("default_thinking", "unsupported value " ++ quoted thinking)
          raiseIf (thinking ∉ modes.map (·.thinking))
            ("default_thinking", "must refer to a declared thinking mode")
      return some { policy with
        thinkingModes := modes.insertionSort (fun a b => a.thinking ≤ b.thinking) }

/-! ## Shapes -/

/-- `operationShapePolicy`; an empty required output is `none`. -/
structure OperationShapePolicy where
  allowedInputs : List Modality
  allowedOutputs : List Modality
  requiredOutput : Option Modality := none
  embedding : Bool := false
  allowsGeneration : Bool := false
  deriving DecidableEq, Repr

/-- Text, image, audio and video. -/
def everyMedium : List Modality :=
  [Modality.text, Modality.image, Modality.audio, Modality.video]

/-- `operationShapePolicies`. -/
def operationShapePolicy (operation : Operation) : Option OperationShapePolicy :=
  if operation = Operation.generate then
    some { allowedInputs := everyMedium, allowedOutputs := everyMedium, allowsGeneration := true }
  else if operation = Operation.embedding then
    some { allowedInputs := everyMedium, allowedOutputs := [Modality.embedding]
           requiredOutput := some Modality.embedding, embedding := true }
  else if operation = Operation.rerank then
    some { allowedInputs := [Modality.text], allowedOutputs := [Modality.text]
           requiredOutput := some Modality.text }
  else if operation = Operation.imageGeneration then
    some { allowedInputs := everyMedium, allowedOutputs := [Modality.text, Modality.image]
           requiredOutput := some Modality.image, allowsGeneration := true }
  else if operation = Operation.audioGeneration then
    some { allowedInputs := [Modality.text, Modality.audio]
           allowedOutputs := [Modality.text, Modality.audio]
           requiredOutput := some Modality.audio, allowsGeneration := true }
  else if operation = Operation.audioTranscription then
    some { allowedInputs := everyMedium, allowedOutputs := [Modality.text]
           requiredOutput := some Modality.text, allowsGeneration := true }
  else if operation = Operation.musicGeneration then
    some { allowedInputs := [Modality.text, Modality.audio]
           allowedOutputs := [Modality.text, Modality.audio, Modality.music]
           requiredOutput := some Modality.music, allowsGeneration := true }
  else if operation = Operation.videoGeneration then
    some { allowedInputs := everyMedium, allowedOutputs := [Modality.text, Modality.video]
           requiredOutput := some Modality.video, allowsGeneration := true }
  else if operation = Operation.realtime then
    some { allowedInputs := everyMedium, allowedOutputs := [Modality.text, Modality.audio]
           allowsGeneration := true }
  else none

/-- `validateShapeSet`. -/
def validateShapeSet (name : String) (values allowed : List Modality) : Except String Unit :=
  checkAll (fun value => raiseIf (value ∉ allowed)
    (name ++ " " ++ quoted value ++ " is not allowed for this operation")) values

/-- `validateOperationShape`. -/
def validateOperationShape (config : CapabilityConfig R) (policy : OperationShapePolicy) :
    Except String Unit := do
  raiseIf (config.operation = Operation.realtime ∧ Modality.text ∉ config.inputModalities ∧
      Modality.audio ∉ config.inputModalities)
    "realtime must accept text or audio input"
  match policy.requiredOutput with
  | none => return ()
  | some output =>
      raiseIf (output ∉ config.outputModalities) (config.operation ++ " must produce " ++ output)

/-- `validatePolicyShape`. -/
def validatePolicyShape (config : CapabilityConfig R) (policy : OperationShapePolicy) :
    Except String Unit := do
  raiseIf (policy.embedding = true ∧ config.embedding.isNone)
    "embedding must declare its embedding capability"
  raiseIf (policy.embedding = false ∧ config.embedding.isSome)
    "non-embedding operation must not declare embedding parameters"
  raiseIf (config.generation.isSome ∧ policy.allowsGeneration = false)
    (config.operation ++ " must not declare generation parameters")
  raiseIf (config.reasoning.isSome ∧ Operation.isLLM config.operation = false)
    (config.operation ++ " must not declare reasoning parameters")

/-- `validateCapabilityShape`. -/
def validateCapabilityShape (config : CapabilityConfig R) (policy : OperationShapePolicy) :
    Except String Unit := do
  validateShapeSet "input modality" config.inputModalities policy.allowedInputs
  validateShapeSet "output modality" config.outputModalities policy.allowedOutputs
  validateOperationShape config policy
  validatePolicyShape config policy

/-! ## Normalization -/

/-- `isModelFeature`. -/
def isModelFeature (feature : Feature) : Bool :=
  feature == Feature.toolCalls || feature == Feature.structured

/-- `normalizeCapabilityConfig`; the error is the field and the reason. -/
def normalizeCapabilityConfig [Ring R] [LinearOrder R] (config : CapabilityConfig R) :
    Except (String × String) (CapabilityConfig R) := do
  let shapePolicy ← orRaise
    ("capability.operation", "unsupported value " ++ quoted config.operation)
    (operationShapePolicy config.operation)
  raiseIf (config.inputModalities = [] ∨ config.outputModalities = [])
    ("capability", "input/output modalities must not be empty")
  let inputs ← rethrow (fun reason => ("capability.input_modalities", reason))
    (normalizeSet config.inputModalities Modality.isValid)
  let outputs ← rethrow (fun reason => ("capability.output_modalities", reason))
    (normalizeSet config.outputModalities Modality.isValid)
  let features ← rethrow (fun reason => ("capability.features", reason))
    (normalizeSet config.features isModelFeature)
  let config := { config with
    inputModalities := inputs, outputModalities := outputs, features := features }
  rethrow (fun reason => ("capability", reason)) (validateCapabilityShape config shapePolicy)
  let generation ← rethrow (below "capability.generation")
    (normalizeGenerationPolicy config.generation)
  let embedding ← rethrow (below "capability.embedding")
    (normalizeEmbeddingPolicy config.embedding)
  let reasoning ← rethrow (below "capability.reasoning")
    (normalizeReasoningPolicy config.reasoning)
  return { config with generation := generation, embedding := embedding, reasoning := reasoning }

/-- `normalizeConfig`. -/
def normalizeConfig [Ring R] [LinearOrder R] (config : Config R) :
    Except ConfigError (Config R) := do
  rethrow (fun reason => ⟨config.baseModel, "base_model", reason⟩)
    (validateBaseModel config.baseModel)
  raiseIf (config.lifecycle ∉ ["active", "deprecated", "retired"])
    ⟨config.baseModel, "lifecycle", "unsupported value " ++ quoted config.lifecycle⟩
  rethrow (fun reason => ⟨config.baseModel, "token_limits", reason⟩)
    config.tokenLimits.validationError
  let capability ← rethrow (fun error => ⟨config.baseModel, error.1, error.2⟩)
    (normalizeCapabilityConfig config.capability)
  return { config with capability := capability }

end MoteKernel.Gateway
