import Mathlib.Algebra.Order.Ring.Defs
import MoteKernel.Lib.Checked

/-!
# Gateway vocabulary

The values of the gateway's `api` package that the model catalog and admission
read. A Go `type Operation string` may hold any text, so each vocabulary is a
text with named constants and its own `IsValid`. A nil slice or pointer is
`none`; `int64` values are only compared, never computed with. `R` stands in the
place of `float64`.
-/

namespace MoteKernel.Gateway
open Checked

/-! ## Vocabularies -/

abbrev Operation := String
abbrev Modality := String
abbrev DeliveryMode := String
abbrev Feature := String
abbrev ThinkingMode := String
abbrev ReasoningEffort := String

namespace Operation

def generate : Operation := "generate"
def embedding : Operation := "embedding"
def rerank : Operation := "rerank"
def imageGeneration : Operation := "image_generation"
def audioGeneration : Operation := "audio_generation"
def audioTranscription : Operation := "audio_transcription"
def musicGeneration : Operation := "music_generation"
def videoGeneration : Operation := "video_generation"
def realtime : Operation := "realtime"

/-- `Operation.IsLLM`. -/
def isLLM (value : Operation) : Bool := value == generate || value == realtime

end Operation

namespace Modality

def text : Modality := "text"
def image : Modality := "image"
def audio : Modality := "audio"
def music : Modality := "music"
def video : Modality := "video"
def embedding : Modality := "embedding"

/-- `Modality.IsValid`. -/
def isValid (value : Modality) : Bool :=
  [text, image, audio, music, video, embedding].contains value

end Modality

namespace Feature

def toolCalls : Feature := "tool_calls"
def structured : Feature := "structured_output"
def promptCache : Feature := "prompt_cache"
def usage : Feature := "usage"

end Feature

namespace ThinkingMode

def disabled : ThinkingMode := "disabled"
def enabled : ThinkingMode := "enabled"
def adaptive : ThinkingMode := "adaptive"

/-- `ThinkingMode.IsValid`. -/
def isValid (value : ThinkingMode) : Bool := [disabled, enabled, adaptive].contains value

end ThinkingMode

/-- `ReasoningEffort.IsValid`. -/
def ReasoningEffort.isValid (value : ReasoningEffort) : Bool :=
  ["minimal", "low", "medium", "high", "xhigh", "max"].contains value

/-- The `%q` form of a printable text. -/
def quoted (value : String) : String :=
  let escape (c : Char) : List Char := if c = '"' || c = '\\' then ['\\', c] else [c]
  String.ofList ('"' :: value.toList.flatMap escape ++ ['"'])

/-! ## Identities -/

/-- A character of `[A-Za-z0-9_.:-]`. -/
def isModelChar (c : Char) : Bool :=
  c.isAlphanum || c == '_' || c == '.' || c == ':' || c == '-'

/-- `baseModelPattern.MatchString`. -/
def matchesBaseModel (value : String) : Bool :=
  match value.toList with
  | [] => false
  | c :: rest => c.isAlphanum && rest.all isModelChar && decide (rest.length ≤ 255)

/-- `ValidateBaseModel`. -/
def validateBaseModel (value : String) : Except String Unit :=
  raiseIf (matchesBaseModel value = false)
    ("base_model must be 1-256 bytes and use a bare model name with letters, digits, '_', '.', " ++
      "':', or '-'")

/-! ## Generation parameters -/

/-- A Go string, which may hold any bytes. -/
abbrev GoString := List UInt8

/-- `utf8.RuneCountInString` of a valid string; `none` when `utf8.ValidString` is false. -/
def runeCount (value : GoString) : Option Nat :=
  (String.fromUTF8? ⟨value.toArray⟩).map String.length

/-- `GenerationParameters`. -/
structure GenerationParameters (R : Type) where
  temperature : Option R := none
  topP : Option R := none
  maxOutputTokens : Option Int := none
  stop : Option (List GoString) := none
  seed : Option Int := none
  deriving DecidableEq

/-- One sequence of `validateStopSequences`. -/
def validateStopSequence (index : Nat) (sequence : GoString) : Except String Unit :=
  raiseIf (¬ ∃ length ∈ runeCount sequence, 1 ≤ length ∧ length ≤ 256)
    ("stop[" ++ toString index ++ "] must be valid UTF-8 with 1-256 characters")

/-- `validateStopSequences`. -/
def validateStopSequences (sequences : List GoString) : Except String Unit := do
  raiseIf (sequences.length > 16) "stop must contain at most 16 sequences"
  checkAll (fun indexed => validateStopSequence indexed.2 indexed.1) sequences.zipIdx

namespace GenerationParameters

variable {R : Type} [Ring R] [LinearOrder R]

/-- `GenerationParameters.Validate`. -/
def validate (parameters : GenerationParameters R) : Except String Unit := do
  raiseIf (∃ value ∈ parameters.temperature, ¬ (value ≥ 0 ∧ value ≤ 2))
    "temperature must be finite and between 0 and 2"
  raiseIf (∃ value ∈ parameters.topP, ¬ (value > 0 ∧ value ≤ 1))
    "top_p must be finite, greater than 0, and at most 1"
  raiseIf (∃ value ∈ parameters.maxOutputTokens, value < 1) "max_output_tokens must be positive"
  validateStopSequences (parameters.stop.getD [])

end GenerationParameters

end MoteKernel.Gateway
