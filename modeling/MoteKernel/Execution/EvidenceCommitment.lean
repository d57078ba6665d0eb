import MoteKernel.Lib.Utf16
import MoteKernel.State.ComposedIdentity
import MoteKernel.Execution.Frames

/-!
# Evidence commitments

`_commitment` of `execution/persistence.py` and the checks that read it: the
`__post_init__` of the persisted records and the binding tests of
`restore_checkpoint`. A Python string may hold surrogates, which `Char` leaves
out and the JSON of a commitment does not keep apart from the code point they
spell, so the texts here are lists of code points. `sha256` is a parameter.
-/

namespace MoteKernel.Evidence
open Checked AsciiJson Utf16

/-! ## Facts

The identity type is a parameter: facts over texts are what the source holds, facts over code
units are what a commitment sees of them. -/

variable {α β : Type}

/-- `GraphCommitKey`. -/
structure CommitKey (α : Type) where
  runId : α
  revision : Nat
  deriving DecidableEq

/-- `ScopeRunCoordinate`. -/
structure ScopeRun (α : Type) where
  scope : List α
  graphRunId : α
  deriving DecidableEq

/-- `FrameDescriptorIdentity`. -/
structure Descriptor (α : Type) where
  definitionId : α
  definitionVersion : Nat
  frameKind : FrameKind
  ownerOrdinal : Nat
  deriving DecidableEq

/-- `GraphConfigCursor`. -/
structure Cursor (α : Type) where
  definitionId : α
  definitionVersion : Nat
  revision : Nat
  digest : Option α
  deriving DecidableEq

structure EncodedFrame (α : Type) where
  codecId : α
  codecVersion : Nat
  payload : Bytes
  configCursor : Option (Cursor α)
  deriving DecidableEq

/-- `GraphExecutionToken`. -/
structure Token (α : Type) where
  generation : Nat
  attemptId : α
  deriving DecidableEq

/-- `GraphActivationIdentity`. -/
structure Activation (α : Type) where
  runId : α
  superstep : Nat
  nodeId : α
  deriving DecidableEq

/-- `ActivationReference`. -/
structure Reference (α : Type) where
  activation : Activation α
  route : Option α
  deriving DecidableEq

/-- The arguments of `_graph_input_commitment`. -/
structure GraphInputFacts (α : Type) where
  scopeRun : ScopeRun α
  descriptor : Descriptor α
  frame : EncodedFrame α
  birth : CommitKey α
  deriving DecidableEq

/-- The arguments of `_publication_commitment`. -/
structure PublicationFacts (α : Type) where
  scopeRun : ScopeRun α
  superstep : Nat
  nodeId : α
  descriptor : Descriptor α
  frame : EncodedFrame α
  birth : CommitKey α
  provenance : Token α
  reference : Reference α
  deriving DecidableEq

/-- One evidence: its domain and its facts. -/
inductive Facts (α : Type) where
  | graphInput (facts : GraphInputFacts α)
  | publication (facts : PublicationFacts α)
  deriving DecidableEq

/-- The activation of a publication's coordinate. -/
def PublicationFacts.activation (facts : PublicationFacts α) : Activation α :=
  ⟨facts.scopeRun.graphRunId, facts.superstep, facts.nodeId⟩

/-! ## The hashed bytes -/

def CommitKey.map (f : α → β) (key : CommitKey α) : CommitKey β :=
  ⟨f key.runId, key.revision⟩

def ScopeRun.map (f : α → β) (scopeRun : ScopeRun α) : ScopeRun β :=
  ⟨scopeRun.scope.map f, f scopeRun.graphRunId⟩

def Descriptor.map (f : α → β) (descriptor : Descriptor α) : Descriptor β :=
  ⟨f descriptor.definitionId, descriptor.definitionVersion, descriptor.frameKind,
    descriptor.ownerOrdinal⟩

def Cursor.map (f : α → β) (cursor : Cursor α) : Cursor β :=
  ⟨f cursor.definitionId, cursor.definitionVersion, cursor.revision, cursor.digest.map f⟩

def EncodedFrame.map (f : α → β) (frame : EncodedFrame α) : EncodedFrame β :=
  ⟨f frame.codecId, frame.codecVersion, frame.payload, frame.configCursor.map (Cursor.map f)⟩

def Token.map (f : α → β) (token : Token α) : Token β :=
  ⟨token.generation, f token.attemptId⟩

def Activation.map (f : α → β) (activation : Activation α) : Activation β :=
  ⟨f activation.runId, activation.superstep, f activation.nodeId⟩

def Reference.map (f : α → β) (reference : Reference α) : Reference β :=
  ⟨reference.activation.map f, reference.route.map f⟩

/-- The same facts, with every identity replaced. -/
def Facts.map (f : α → β) : Facts α → Facts β
  | graphInput facts => graphInput ⟨facts.scopeRun.map f, facts.descriptor.map f, facts.frame.map f,
      facts.birth.map f⟩
  | publication facts => publication ⟨facts.scopeRun.map f, facts.superstep, f facts.nodeId,
      facts.descriptor.map f, facts.frame.map f, facts.birth.map f, facts.provenance.map f,
      facts.reference.map f⟩

/-- `_descriptor_parts`. -/
def descriptorParts (descriptor : Descriptor (List CodeUnit)) : Json :=
  .array [.text descriptor.definitionId, .number descriptor.definitionVersion,
    .number descriptor.frameKind.value, .number descriptor.ownerOrdinal]

/-- `_config_parts`. -/
def configParts : Option (Cursor (List CodeUnit)) → Json
  | none => .null
  | some cursor => .array [.text cursor.definitionId, .number cursor.definitionVersion,
      .number cursor.revision, .text (cursor.digest.getD [])]

/-- A route, which may be absent. -/
def routePart : Option (List CodeUnit) → Json
  | none => .null
  | some route => .text route

/-- The metadata tuple of one evidence. -/
def metadata : Facts (List CodeUnit) → Json
  | .graphInput facts => .array [.text facts.birth.runId, .number facts.birth.revision,
      .array (facts.scopeRun.scope.map .text), .text facts.scopeRun.graphRunId,
      descriptorParts facts.descriptor, .text facts.frame.codecId, .number facts.frame.codecVersion,
      configParts facts.frame.configCursor]
  | .publication facts => .array [.text facts.birth.runId, .number facts.birth.revision,
      .array (facts.scopeRun.scope.map .text), .text facts.scopeRun.graphRunId,
      .number facts.superstep, .text facts.nodeId, descriptorParts facts.descriptor,
      .number facts.provenance.generation, .text facts.provenance.attemptId,
      .text facts.frame.codecId, .number facts.frame.codecVersion,
      configParts facts.frame.configCursor, routePart facts.reference.route]

/-- The domain tag of one evidence. -/
def domain : Facts α → String
  | .graphInput _ => "mote.graph-input-evidence.v1"
  | .publication _ => "mote.graph-publication-evidence.v1"

def payload : Facts α → Bytes
  | .graphInput facts => facts.frame.payload
  | .publication facts => facts.frame.payload

/-- `text.encode("ascii")`. -/
def asciiBytes (text : List Char) : Bytes :=
  text.map (fun c => UInt8.ofNat c.toNat)

/-- What `_commitment` feeds to SHA-256. -/
def preimage (facts : Facts Text) : Bytes :=
  asciiBytes (domain facts).toList ++ 0 :: asciiBytes (dumps (metadata (facts.map units))) ++
    0 :: payload facts

/-! ## Records -/

/-- `EncodedFrame.__post_init__`. -/
def EncodedFrame.postInit (frame : EncodedFrame Text) : Except ExecutionError Unit := do
  raiseIf (isCanonical frame.codecId = false ∨ frame.codecVersion < 1)
    ⟨.snapshotMismatch, "persistent frame codec identity and version must be canonical"⟩
  match frame.configCursor with
  | none => return ()
  | some cursor =>
      raiseIf (isCanonical cursor.definitionId = false ∨ cursor.definitionVersion < 1 ∨
          cursor.revision < 1 ∨ cursor.digest.any (fun digest => !isTrimmed digest) = true ∨
          (1 < cursor.revision ∧ cursor.digest = none))
        ⟨.snapshotMismatch, "persistent frame Config cursor is malformed"⟩
      raiseIf (cursor.digest = none)
        ⟨.snapshotMismatch, "persistent frame Config requires an exact snapshot digest"⟩

/-- The checks of `ScopeRunCoordinate.__post_init__`. -/
def ScopeRun.canonical (scopeRun : ScopeRun Text) : Bool :=
  scopeRun.scope.all isCanonical && isCanonical scopeRun.graphRunId

/-- The checks of `FrameDescriptorIdentity.__post_init__`. -/
def Descriptor.canonical (descriptor : Descriptor Text) : Bool :=
  isCanonical descriptor.definitionId && decide (1 ≤ descriptor.definitionVersion)

/-- `_admit_commit_key`. -/
def CommitKey.postInit (key : CommitKey Text) : Except ExecutionError Unit :=
  raiseIf (isCanonical key.runId = false)
    ⟨.snapshotMismatch, "commit key requires a canonical run identity"⟩

/-- The checks of `GraphExecutionToken.admit`. -/
def Token.canonical (token : Token Text) : Bool :=
  decide (1 ≤ token.generation) && isCanonical token.attemptId

/-- The checks of `ActivationReference.__post_init__` and of its activation. -/
def Reference.canonical (reference : Reference Text) : Bool :=
  isCanonical reference.activation.runId && isCanonical reference.activation.nodeId &&
    reference.route.all isCanonical

/-- `_graph_input_commitment` and `_publication_commitment`. -/
def commitment (sha256 : Bytes → Bytes) : Facts Text → Except ExecutionError Bytes
  | .graphInput facts => return sha256 (preimage (.graphInput facts))
  | .publication facts => do
      raiseIf (facts.birth.revision < 1)
        ⟨.snapshotMismatch, "publication has inconsistent coordinates"⟩
      raiseIf (facts.provenance.canonical = false)
        ⟨.snapshotMismatch, "publication has inconsistent execution provenance"⟩
      raiseIf (facts.reference.activation ≠ facts.activation)
        ⟨.snapshotMismatch, "publication settlement reference does not match its coordinate"⟩
      return sha256 (preimage (.publication facts))

/-- `PersistedGraphInput` or `PersistedPublication`. -/
structure Persisted where
  facts : Facts Text
  evidence : Bytes
  deriving DecidableEq

/-- `PersistedGraphInput.__post_init__`. -/
def postInitGraphInput (sha256 : Bytes → Bytes) (facts : GraphInputFacts Text) (evidence : Bytes) :
    Except ExecutionError Unit := do
  raiseIf (facts.scopeRun.canonical = false ∨ facts.descriptor.canonical = false)
    ⟨.snapshotMismatch, "persistent graph input coordinate is malformed"⟩
  facts.frame.postInit
  facts.birth.postInit
  raiseIf (evidence.length ≠ 32)
    ⟨.snapshotMismatch, "persistent graph input commitment is malformed"⟩
  raiseIf (facts.birth.runId ≠ facts.scopeRun.graphRunId ∨ facts.birth.revision ≠ 0)
    ⟨.snapshotMismatch, "persistent graph input birth commit is inconsistent"⟩
  let expected ← commitment sha256 (.graphInput facts)
  raiseIf (evidence ≠ expected)
    ⟨.snapshotMismatch, "persistent graph input commitment does not match its complete evidence"⟩

/-- `PersistedPublication.__post_init__`. -/
def postInitPublication (sha256 : Bytes → Bytes) (facts : PublicationFacts Text)
    (evidence : Bytes) : Except ExecutionError Unit := do
  raiseIf (facts.scopeRun.canonical = false ∨ isCanonical facts.nodeId = false ∨
      facts.descriptor.canonical = false)
    ⟨.snapshotMismatch, "persistent publication coordinate is malformed"⟩
  facts.frame.postInit
  facts.birth.postInit
  raiseIf (facts.provenance.canonical = false ∨ facts.reference.canonical = false ∨
      evidence.length ≠ 32)
    ⟨.snapshotMismatch, "persistent publication confirmation is malformed"⟩
  raiseIf (facts.birth.runId ≠ facts.scopeRun.graphRunId ∨ facts.birth.revision < 1)
    ⟨.snapshotMismatch, "persistent publication birth commit is inconsistent"⟩
  let expected ← commitment sha256 (.publication facts)
  raiseIf (evidence ≠ expected)
    ⟨.snapshotMismatch, "persistent publication commitment does not match its complete evidence"⟩

/-- The `__post_init__` of a record, which `admit` runs again. -/
def Persisted.postInit (sha256 : Bytes → Bytes) (record : Persisted) :
    Except ExecutionError Unit :=
  match record.facts with
  | .graphInput facts => postInitGraphInput sha256 facts record.evidence
  | .publication facts => postInitPublication sha256 facts record.evidence

/-! ## Binding on restore -/

/-- `GraphPublicationSettlement`. -/
structure Settlement where
  reference : Reference Text
  commitRevision : Nat
  execution : Token Text
  evidence : Option Bytes
  deriving DecidableEq

/-- What `restore_checkpoint` reads of an authoritative state to bind a record. -/
structure BoundState where
  graphInputEvidence : Option Bytes
  settledPublications : List Settlement

/-- The binding test of one record, against the states by scoped run. -/
def requireBound (bindings : ScopeRun Text → Option BoundState) (record : Persisted) :
    Except ExecutionError Unit :=
  match record.facts with
  | .graphInput facts =>
      raiseIf ((bindings facts.scopeRun).bind BoundState.graphInputEvidence ≠ some record.evidence)
        ⟨.snapshotMismatch, "persistent graph input is not bound to its authoritative state"⟩
  | .publication facts =>
      let settled := ((bindings facts.scopeRun).map BoundState.settledPublications).getD []
      raiseIf (settled.filter (·.reference.activation = facts.activation) ≠
          [⟨facts.reference, facts.birth.revision, facts.provenance, some record.evidence⟩])
        ⟨.snapshotMismatch,
          "persistent publication is not bound to its authoritative settlement"⟩

/-- What `restore_checkpoint` requires of one record before its frame is decoded. -/
def restoreRecord (sha256 : Bytes → Bytes) (bindings : ScopeRun Text → Option BoundState)
    (record : Persisted) : Except ExecutionError Unit := do
  record.postInit sha256
  requireBound bindings record

/-! ## The hashed bytes name the code units -/

theorem asciiBytes_inj {text other : List Char} (ascii : ∀ c ∈ text, Printable c)
    (asciiOther : ∀ c ∈ other, Printable c) (same : asciiBytes text = asciiBytes other) :
    text = other := by
  induction text generalizing other with
  | nil =>
      cases other with
      | nil => rfl
      | cons d other => cases same
  | cons c text ih =>
      cases other with
      | nil => cases same
      | cons d other =>
          obtain ⟨head, tail⟩ := List.cons.inj same
          have first := ascii c List.mem_cons_self
          have second := asciiOther d List.mem_cons_self
          have value : c.toNat = d.toNat := by
            have bytes := congrArg UInt8.toNat head
            simp only [UInt8.toNat_ofNat'] at bytes
            unfold Printable at first second
            omega
          rw [Char.toNat_inj.mp value,
            ih (fun x member => ascii x (List.mem_cons_of_mem _ member))
              (fun x member => asciiOther x (List.mem_cons_of_mem _ member)) tail]

/-- The separator byte does not occur in printable text. -/
theorem zero_not_mem_asciiBytes {text : List Char} (ascii : ∀ c ∈ text, Printable c) :
    (0 : UInt8) ∉ asciiBytes text := by
  intro member
  obtain ⟨c, inside, zero⟩ := List.mem_map.mp member
  have range := ascii c inside
  have value := congrArg UInt8.toNat zero
  simp only [UInt8.toNat_ofNat'] at value
  unfold Printable at range
  have : (0 : UInt8).toNat = 0 := rfl
  omega

theorem domain_printable (facts : Facts α) : ∀ c ∈ (domain facts).toList, Printable c := by
  cases facts with
  | graphInput facts => exact printable_of_all (t := "mote.graph-input-evidence.v1".toList) rfl
  | publication facts =>
      exact printable_of_all (t := "mote.graph-publication-evidence.v1".toList) rfl

theorem domain_map (f : α → β) (facts : Facts α) : domain (facts.map f) = domain facts := by
  cases facts <;> rfl

theorem payload_map (f : α → β) (facts : Facts α) : payload (facts.map f) = payload facts := by
  cases facts <;> rfl

/-- Equal bytes have equal domains, metadata and payloads, whatever the payloads contain. -/
theorem preimage_eq_iff {facts other : Facts Text} : preimage facts = preimage other ↔
    domain facts = domain other ∧ metadata (facts.map units) = metadata (other.map units) ∧
      payload facts = payload other := by
  constructor
  · intro same
    simp only [preimage, List.append_assoc, List.cons_append] at same
    obtain ⟨domains, rest⟩ := LengthPrefix.separator_split
      (zero_not_mem_asciiBytes (domain_printable facts))
      (zero_not_mem_asciiBytes (domain_printable other)) same
    obtain ⟨texts, payloads⟩ := LengthPrefix.separator_split
      (zero_not_mem_asciiBytes (dumps_printable _)) (zero_not_mem_asciiBytes (dumps_printable _))
      rest
    refine ⟨?_, ?_, payloads⟩
    · exact String.toList_inj.mp
        (asciiBytes_inj (domain_printable facts) (domain_printable other) domains)
    · exact dumps_injective (asciiBytes_inj (dumps_printable _) (dumps_printable _) texts)
  · rintro ⟨domains, texts, payloads⟩
    rw [preimage, preimage, domains, texts, payloads]

/-! ## Admission -/

/-- A frame that `EncodedFrame` admits. -/
structure EncodedFrame.Admitted (frame : EncodedFrame Text) : Prop where
  codec : isCanonical frame.codecId = true
  codecVersion : 1 ≤ frame.codecVersion
  cursor : ∀ cursor ∈ frame.configCursor, isCanonical cursor.definitionId = true ∧
    1 ≤ cursor.definitionVersion ∧ 1 ≤ cursor.revision ∧
    ∃ digest ∈ cursor.digest, isTrimmed digest = true

theorem EncodedFrame.postInit_eq_ok (frame : EncodedFrame Text) (u : Unit) :
    frame.postInit = .ok u ↔ frame.Admitted := by
  obtain ⟨codecId, codecVersion, payload, configCursor⟩ := frame
  unfold postInit
  simp only [bind_unit_eq_ok, raiseIf_eq_ok, not_or, Bool.not_eq_false, Nat.not_lt]
  cases configCursor with
  | none =>
      constructor
      · rintro ⟨⟨codec, version⟩, -⟩
        exact ⟨codec, version, by simp⟩
      · intro admitted
        exact ⟨⟨admitted.codec, admitted.codecVersion⟩, rfl⟩
  | some cursor =>
      obtain ⟨definitionId, definitionVersion, revision, digest⟩ := cursor
      simp only [bind_unit_eq_ok, raiseIf_eq_ok, not_or, Bool.not_eq_false, Nat.not_lt]
      constructor
      · rintro ⟨⟨codec, version⟩, ⟨definition, positive, revised, trimmed, -⟩, present⟩
        refine ⟨codec, version, ?_⟩
        intro other same
        obtain rfl := Option.some.inj same
        obtain ⟨text, rfl⟩ := Option.ne_none_iff_exists'.mp present
        exact ⟨definition, positive, revised, text, rfl, by simpa using trimmed⟩
      · intro admitted
        obtain ⟨definition, positive, revised, text, present, trimmed⟩ := admitted.cursor _ rfl
        have found : digest = some text := present
        subst found
        exact ⟨⟨admitted.codec, admitted.codecVersion⟩,
          ⟨definition, positive, revised, by simpa using trimmed, by simp⟩, by simp⟩

/-- The facts a record can be built of: every identity canonical, born in their own run. -/
def Facts.Admitted : Facts Text → Prop
  | .graphInput facts => facts.scopeRun.canonical = true ∧ facts.descriptor.canonical = true ∧
      facts.frame.Admitted ∧ facts.birth.runId = facts.scopeRun.graphRunId ∧
      facts.birth.revision = 0
  | .publication facts => facts.scopeRun.canonical = true ∧ isCanonical facts.nodeId = true ∧
      facts.descriptor.canonical = true ∧ facts.frame.Admitted ∧
      facts.provenance.canonical = true ∧ facts.reference.canonical = true ∧
      facts.birth.runId = facts.scopeRun.graphRunId ∧ 1 ≤ facts.birth.revision ∧
      facts.reference.activation = facts.activation

theorem ScopeRun.canonical_run {scopeRun : ScopeRun Text} (canonical : scopeRun.canonical = true) :
    isCanonical scopeRun.graphRunId = true := by
  rw [ScopeRun.canonical, Bool.and_eq_true] at canonical
  exact canonical.2

/-- A record is admitted when its facts are and it carries their commitment. -/
theorem Persisted.postInit_eq_ok (sha256 : Bytes → Bytes) (record : Persisted) (u : Unit) :
    record.postInit sha256 = .ok u ↔ record.facts.Admitted ∧ record.evidence.length = 32 ∧
      record.evidence = sha256 (preimage record.facts) := by
  obtain ⟨facts, evidence⟩ := record
  cases facts with
  | graphInput facts =>
      simp only [postInit, postInitGraphInput, CommitKey.postInit, commitment, bind_eq_ok,
        exists_unit, pure_eq_ok, Except.ok.injEq, exists_eq_left', raiseIf_eq_ok,
        EncodedFrame.postInit_eq_ok, not_or, ne_eq, not_not, Bool.not_eq_false, Facts.Admitted]
      constructor
      · rintro ⟨⟨scope, descriptor⟩, frame, -, length, ⟨run, revision⟩, same⟩
        exact ⟨⟨scope, descriptor, frame, run, revision⟩, length, same⟩
      · rintro ⟨⟨scope, descriptor, frame, run, revision⟩, length, same⟩
        exact ⟨⟨scope, descriptor⟩, frame, run ▸ ScopeRun.canonical_run scope, length,
          ⟨run, revision⟩, same⟩
  | publication facts =>
      simp only [postInit, postInitPublication, CommitKey.postInit, commitment, bind_eq_ok,
        exists_unit, pure_eq_ok, Except.ok.injEq, raiseIf_eq_ok, EncodedFrame.postInit_eq_ok,
        not_or, ne_eq, not_not, Bool.not_eq_false, Nat.not_lt,
        Facts.Admitted]
      constructor
      · rintro ⟨⟨scope, node, descriptor⟩, frame, -, ⟨token, reference, length⟩, ⟨run, revision⟩,
          _, ⟨-, -, activation, rfl⟩, same⟩
        exact ⟨⟨scope, node, descriptor, frame, token, reference, run, revision, activation⟩,
          length, same⟩
      · rintro ⟨⟨scope, node, descriptor, frame, token, reference, run, revision, activation⟩,
          length, same⟩
        exact ⟨⟨scope, node, descriptor⟩, frame, run ▸ ScopeRun.canonical_run scope,
          ⟨token, reference, length⟩, ⟨run, revision⟩, _, ⟨revision, token, activation, rfl⟩, same⟩

/-! ## The metadata names the facts -/

/-- The parts of the facts that the metadata leaves out or writes in two ways: a Config without a
digest, and the activation of the reference. -/
def Facts.Determined : Facts α → Prop
  | .graphInput facts => ∀ cursor ∈ facts.frame.configCursor, cursor.digest ≠ none
  | .publication facts => (∀ cursor ∈ facts.frame.configCursor, cursor.digest ≠ none) ∧
      facts.reference.activation = facts.activation

theorem Facts.Admitted.determined {facts : Facts Text} (admitted : facts.Admitted) :
    facts.Determined := by
  have digested : ∀ frame : EncodedFrame Text, frame.Admitted →
      ∀ cursor ∈ frame.configCursor, cursor.digest ≠ none := by
    intro frame admits cursor member
    obtain ⟨-, -, -, digest, present, -⟩ := admits.cursor cursor member
    rw [Option.mem_def.mp present]
    simp
  cases facts with
  | graphInput facts =>
      obtain ⟨-, -, frame, -, -⟩ := admitted
      exact digested _ frame
  | publication facts =>
      obtain ⟨-, -, -, frame, -, -, -, -, activation⟩ := admitted
      exact ⟨digested _ frame, activation⟩

theorem Facts.Determined.map {facts : Facts α} (determined : facts.Determined) (f : α → β) :
    (facts.map f).Determined := by
  have digested : ∀ frame : EncodedFrame α, (∀ cursor ∈ frame.configCursor, cursor.digest ≠ none) →
      ∀ cursor ∈ (frame.map f).configCursor, cursor.digest ≠ none := by
    intro frame present cursor member
    obtain ⟨original, inside, rfl⟩ := Option.map_eq_some_iff.mp member
    simpa [Cursor.map] using present original inside
  cases facts with
  | graphInput facts => exact digested _ determined
  | publication facts =>
      obtain ⟨present, activation⟩ := determined
      exact ⟨digested _ present, congrArg (Activation.map f) activation⟩

theorem configParts_inj {cursor other : Option (Cursor (List CodeUnit))}
    (digested : ∀ c ∈ cursor, c.digest ≠ none) (digestedOther : ∀ c ∈ other, c.digest ≠ none)
    (same : configParts cursor = configParts other) : cursor = other := by
  cases cursor with
  | none =>
      cases other with
      | none => rfl
      | some other => cases same
  | some cursor =>
      cases other with
      | none => cases same
      | some other =>
          obtain ⟨definition, version, revision, digest⟩ := cursor
          obtain ⟨definition', version', revision', digest'⟩ := other
          obtain ⟨text, rfl⟩ := Option.ne_none_iff_exists'.mp (digested _ rfl)
          obtain ⟨text', rfl⟩ := Option.ne_none_iff_exists'.mp (digestedOther _ rfl)
          simp only [configParts, Json.array.injEq, List.cons.injEq, Json.text.injEq,
            Json.number.injEq, Option.getD_some, and_true] at same
          obtain ⟨rfl, rfl, rfl, rfl⟩ := same
          rfl

theorem routePart_inj {route other : Option (List CodeUnit)}
    (same : routePart route = routePart other) : route = other := by
  cases route <;> cases other <;> simp_all [routePart]

theorem descriptorParts_inj {descriptor other : Descriptor (List CodeUnit)}
    (same : descriptorParts descriptor = descriptorParts other) : descriptor = other := by
  obtain ⟨definition, version, kind, ordinal⟩ := descriptor
  obtain ⟨definition', version', kind', ordinal'⟩ := other
  simp only [descriptorParts, Json.array.injEq, List.cons.injEq, Json.text.injEq,
    Json.number.injEq, and_true] at same
  obtain ⟨rfl, rfl, kinds, rfl⟩ := same
  rw [FrameKind.value_injective kinds]

theorem scopeParts_inj {scope other : List (List CodeUnit)}
    (same : scope.map Json.text = other.map Json.text) : scope = other :=
  List.map_injective_iff.mpr (fun _ _ equal => Json.text.inj equal) same

/-- Facts with the same domain, metadata and payload are the same facts. -/
theorem metadata_inj {facts other : Facts (List CodeUnit)} (determined : facts.Determined)
    (determinedOther : other.Determined) (domains : domain facts = domain other)
    (same : metadata facts = metadata other) (payloads : payload facts = payload other) :
    facts = other := by
  cases facts with
  | graphInput facts =>
      cases other with
      | publication other =>
          have tags : "mote.graph-input-evidence.v1" = "mote.graph-publication-evidence.v1" :=
            domains
          exact absurd tags (by decide)
      | graphInput other =>
          obtain ⟨⟨scope, run⟩, descriptor, ⟨codec, version, bytes, cursor⟩, ⟨birth, revision⟩⟩ :=
            facts
          obtain ⟨⟨scope', run'⟩, descriptor', ⟨codec', version', bytes', cursor'⟩,
            ⟨birth', revision'⟩⟩ := other
          simp only [metadata, Json.array.injEq, List.cons.injEq, Json.text.injEq,
            Json.number.injEq, and_true] at same
          obtain ⟨rfl, rfl, scopes, rfl, descriptors, rfl, rfl, cursors⟩ := same
          obtain rfl := scopeParts_inj scopes
          obtain rfl := descriptorParts_inj descriptors
          obtain rfl := configParts_inj determined determinedOther cursors
          have bytesSame : bytes = bytes' := payloads
          rw [bytesSame]
  | publication facts =>
      cases other with
      | graphInput other =>
          have tags : "mote.graph-publication-evidence.v1" = "mote.graph-input-evidence.v1" :=
            domains
          exact absurd tags (by decide)
      | publication other =>
          obtain ⟨digested, activation⟩ := determined
          obtain ⟨digestedOther, activationOther⟩ := determinedOther
          obtain ⟨⟨scope, run⟩, superstep, node, descriptor, ⟨codec, version, bytes, cursor⟩,
            ⟨birth, revision⟩, ⟨generation, attempt⟩, ⟨source, route⟩⟩ := facts
          obtain ⟨⟨scope', run'⟩, superstep', node', descriptor',
            ⟨codec', version', bytes', cursor'⟩, ⟨birth', revision'⟩, ⟨generation', attempt'⟩,
            ⟨source', route'⟩⟩ := other
          simp only [metadata, Json.array.injEq, List.cons.injEq, Json.text.injEq,
            Json.number.injEq, and_true] at same
          obtain ⟨rfl, rfl, scopes, rfl, rfl, rfl, descriptors, rfl, rfl, rfl, rfl, cursors,
            routes⟩ := same
          obtain rfl := scopeParts_inj scopes
          obtain rfl := descriptorParts_inj descriptors
          obtain rfl := configParts_inj digested digestedOther cursors
          obtain rfl := routePart_inj routes
          have bytesSame : bytes = bytes' := payloads
          have sourceSame : source = source' := activation.trans activationOther.symm
          rw [bytesSame, sourceSame]

/-- Two admitted evidences are hashed alike exactly when their identities have the same code units
and everything else is equal. -/
theorem preimage_eq_iff_units {facts other : Facts Text} (admitted : facts.Admitted)
    (admittedOther : other.Admitted) :
    preimage facts = preimage other ↔ facts.map units = other.map units := by
  rw [preimage_eq_iff]
  constructor
  · rintro ⟨domains, texts, payloads⟩
    apply metadata_inj (admitted.determined.map units) (admittedOther.determined.map units)
    · rwa [domain_map, domain_map]
    · exact texts
    · rwa [payload_map, payload_map]
  · intro same
    refine ⟨?_, by rw [same], ?_⟩
    · rw [← domain_map units facts, same, domain_map]
    · rw [← payload_map units facts, same, payload_map]

/-! ## Respelled facts

A respelling replaces every identity by one with the same code units. -/

theorem EncodedFrame.map_map {γ : Type} (f : α → β) (g : β → γ) (frame : EncodedFrame α) :
    (frame.map f).map g = frame.map (g ∘ f) := by
  obtain ⟨codec, version, payload, cursor⟩ := frame
  cases cursor with
  | none => rfl
  | some cursor => simp only [EncodedFrame.map, Cursor.map, Option.map_some, Option.map_map,
      Function.comp_apply]

theorem Facts.map_map {γ : Type} (f : α → β) (g : β → γ) (facts : Facts α) :
    (facts.map f).map g = facts.map (g ∘ f) := by
  cases facts <;>
    simp only [Facts.map, CommitKey.map, ScopeRun.map, Descriptor.map, EncodedFrame.map_map,
      Token.map, Activation.map, Reference.map, List.map_map, Option.map_map, Function.comp_apply]

theorem units_map_respell {f : Text → Text} (respell : ∀ text, units (f text) = units text)
    (facts : Facts Text) : (facts.map f).map units = facts.map units := by
  rw [Facts.map_map]
  exact congrArg (Facts.map · facts) (funext respell)

theorem preimage_respell {f : Text → Text} (respell : ∀ text, units (f text) = units text)
    (facts : Facts Text) : preimage (facts.map f) = preimage facts := by
  rw [preimage_eq_iff]
  refine ⟨domain_map f facts, ?_, payload_map f facts⟩
  rw [units_map_respell respell]

/-- Above the last space, a code point and its units are no spaces. -/
theorem isSpace_of_large {n : Nat} (large : 0x3000 < n) : isSpace n = false := by
  simp only [isSpace, Bool.or_eq_false_iff, Bool.and_eq_false_iff, decide_eq_false_iff_not,
    beq_eq_false_iff_ne]
  omega

/-- The first and the last unit of a code point below the surrogates are the code point, and
those of any other code point are not below them. -/
theorem codeUnits_ends (c : CodePoint) : ∃ first last : CodeUnit,
    (codeUnits c).head? = some first ∧ (codeUnits c).getLast? = some last ∧
      isSpace first.val = isSpace c.val ∧ isSpace last.val = isSpace c.val := by
  by_cases small : c.val < 0x10000
  · rw [codeUnits_of_small small]
    exact ⟨_, _, rfl, rfl, rfl, rfl⟩
  · obtain ⟨high, low, form, isHigh, isLow⟩ := codeUnits_of_large small
    simp only [Utf16.isHigh, Utf16.isLow, Bool.and_eq_true, decide_eq_true_eq] at isHigh isLow
    rw [form]
    refine ⟨high, low, rfl, rfl, ?_, ?_⟩
    · rw [isSpace_of_large (by omega), isSpace_of_large (by omega)]
    · rw [isSpace_of_large (by omega), isSpace_of_large (by omega)]

theorem head_units (text : Text) :
    (units text).head?.map (isSpace ·.val) = text.head?.map (isSpace ·.val) := by
  cases text with
  | nil => rfl
  | cons c text =>
      obtain ⟨first, -, head, -, same, -⟩ := codeUnits_ends c
      rw [units_cons, List.head?_append, head]
      simp [same]

theorem getLast_units (text : Text) :
    (units text).getLast?.map (isSpace ·.val) = text.getLast?.map (isSpace ·.val) := by
  induction text with
  | nil => rfl
  | cons c text ih =>
      rw [units_cons, List.getLast?_append]
      cases text with
      | nil =>
          obtain ⟨-, last, -, tail, -, same⟩ := codeUnits_ends c
          simp [tail, same]
      | cons d text =>
          rw [List.getLast?_cons_cons, ← ih]
          have some : (units (d :: text)).getLast? ≠ none := by
            rw [ne_eq, List.getLast?_eq_none_iff, units_eq_nil_iff]
            simp
          obtain ⟨last, found⟩ := Option.ne_none_iff_exists'.mp some
          rw [found, Option.some_or]

theorem mem_units_iff {n : Nat} (small : n < 0xD800) (text : Text) :
    (∃ unit ∈ units text, unit.val = n) ↔ ∃ c ∈ text, c.val = n := by
  induction text with
  | nil => simp
  | cons c text ih =>
      simp only [units_cons, List.mem_append, or_and_right, exists_or, List.mem_cons,
        exists_eq_left, ih]
      apply or_congr_left
      by_cases basic : c.val < 0x10000
      · simp [codeUnits_of_small basic]
      · obtain ⟨high, low, form, isHigh, isLow⟩ := codeUnits_of_large basic
        simp only [Utf16.isHigh, Utf16.isLow, Bool.and_eq_true, decide_eq_true_eq] at isHigh isLow
        simp only [form, List.mem_cons, List.not_mem_nil, or_false, exists_eq_or_imp,
          exists_eq_left]
        omega

theorem isTrimmed_iff (text : Text) : isTrimmed text = true ↔ text ≠ [] ∧
    text.head?.map (isSpace ·.val) ≠ some true ∧ text.getLast?.map (isSpace ·.val) ≠ some true := by
  rw [isTrimmed, Bool.and_eq_true, bne_iff_ne, beq_iff_eq, stripText, eq_trim_iff]
  simp [Option.map_eq_some_iff]

theorem isTrimmed_respell {text other : Text} (same : units text = units other) :
    isTrimmed text = isTrimmed other := by
  rw [Bool.eq_iff_iff, isTrimmed_iff, isTrimmed_iff, ← head_units, ← head_units, ← getLast_units,
    ← getLast_units, same]
  have empty : text = [] ↔ other = [] := by rw [← units_eq_nil_iff, same, units_eq_nil_iff]
  rw [ne_eq, empty]

theorem isCanonical_respell {text other : Text} (same : units text = units other) :
    isCanonical text = isCanonical other := by
  have absent : ∀ n < 0xD800, text.any (·.val == n) = other.any (·.val == n) := by
    intro n small
    rw [Bool.eq_iff_iff]
    simp only [List.any_eq_true, beq_iff_eq, ← mem_units_iff small, same]
  rw [isCanonical, isCanonical, isTrimmed_respell same, absent 10 (by decide),
    absent 13 (by decide)]

section Respell
variable {f : Text → Text} (respell : ∀ text, units (f text) = units text)
include respell

theorem ScopeRun.canonical_respell (scopeRun : ScopeRun Text) :
    (scopeRun.map f).canonical = scopeRun.canonical := by
  simp only [ScopeRun.canonical, ScopeRun.map, List.all_map, Function.comp_def,
    isCanonical_respell (respell _)]

theorem Descriptor.canonical_respell (descriptor : Descriptor Text) :
    (descriptor.map f).canonical = descriptor.canonical := by
  show (isCanonical (f _) && _) = _
  rw [isCanonical_respell (respell _)]
  rfl

theorem Token.canonical_respell (token : Token Text) :
    (token.map f).canonical = token.canonical := by
  show (_ && isCanonical (f _)) = _
  rw [isCanonical_respell (respell _)]
  rfl

theorem Reference.canonical_respell (reference : Reference Text) :
    (reference.map f).canonical = reference.canonical := by
  simp only [Reference.canonical, Reference.map, Activation.map, isCanonical_respell (respell _),
    Option.all_map]

theorem EncodedFrame.Admitted.respelled {frame : EncodedFrame Text} (admitted : frame.Admitted) :
    (frame.map f).Admitted := by
  refine ⟨?_, admitted.codecVersion, ?_⟩
  · rw [EncodedFrame.map, isCanonical_respell (respell _)]
    exact admitted.codec
  · intro cursor member
    obtain ⟨original, inside, rfl⟩ := Option.map_eq_some_iff.mp member
    obtain ⟨definition, version, revision, digest, present, trimmed⟩ :=
      admitted.cursor original inside
    refine ⟨?_, version, revision, f digest, ?_, ?_⟩
    · rw [Cursor.map, isCanonical_respell (respell _)]
      exact definition
    · show original.digest.map f = some (f digest)
      rw [Option.mem_def.mp present, Option.map_some]
    · rwa [isTrimmed_respell (respell _)]

/-- Respelled facts are admitted when the facts are. -/
theorem Facts.Admitted.respelled {facts : Facts Text} (admitted : facts.Admitted) :
    (facts.map f).Admitted := by
  cases facts with
  | graphInput facts =>
      obtain ⟨scope, descriptor, frame, run, revision⟩ := admitted
      refine ⟨?_, ?_, frame.respelled respell, congrArg f run, revision⟩
      · exact (ScopeRun.canonical_respell respell _).trans scope
      · exact (Descriptor.canonical_respell respell _).trans descriptor
  | publication facts =>
      obtain ⟨scope, node, descriptor, frame, token, reference, run, revision, activation⟩ :=
        admitted
      refine ⟨?_, ?_, ?_, frame.respelled respell, ?_, ?_, congrArg f run, revision,
        congrArg (Activation.map f) activation⟩
      · exact (ScopeRun.canonical_respell respell _).trans scope
      · exact (isCanonical_respell (respell _)).trans node
      · exact (Descriptor.canonical_respell respell _).trans descriptor
      · exact (Token.canonical_respell respell _).trans token
      · exact (Reference.canonical_respell respell _).trans reference

end Respell

/-! ## Which evidences are bound -/

def Cursor.texts (cursor : Cursor α) : List α :=
  cursor.definitionId :: cursor.digest.toList

def EncodedFrame.texts (frame : EncodedFrame α) : List α :=
  frame.codecId :: frame.configCursor.toList.flatMap Cursor.texts

def Reference.texts (reference : Reference α) : List α :=
  reference.activation.runId :: reference.activation.nodeId :: reference.route.toList

/-- Every identity of the facts. -/
def Facts.texts : Facts α → List α
  | .graphInput facts => facts.scopeRun.scope ++ [facts.scopeRun.graphRunId,
      facts.descriptor.definitionId, facts.birth.runId] ++ facts.frame.texts
  | .publication facts => facts.scopeRun.scope ++ [facts.scopeRun.graphRunId, facts.nodeId,
      facts.descriptor.definitionId, facts.birth.runId, facts.provenance.attemptId] ++
      facts.frame.texts ++ facts.reference.texts

theorem map_option_eq_self {f : α → α} {value : Option α} (same : value.map f = value) :
    ∀ x ∈ value, f x = x := by
  cases value with
  | none => simp
  | some x => simpa using same

theorem map_list_eq_self {f : α → α} {values : List α} (same : values.map f = values) :
    ∀ x ∈ values, f x = x :=
  List.map_inj_left.mp (same.trans (List.map_id values).symm)

theorem EncodedFrame.texts_of_map {f : α → α} {frame : EncodedFrame α}
    (same : frame.map f = frame) : ∀ text ∈ frame.texts, f text = text := by
  intro text member
  rcases List.mem_cons.mp member with rfl | inside
  · exact congrArg EncodedFrame.codecId same
  · obtain ⟨cursor, present, inside⟩ := List.mem_flatMap.mp inside
    have cursorSame : cursor.map f = cursor :=
      map_option_eq_self (f := Cursor.map f) (congrArg EncodedFrame.configCursor same) cursor
        (Option.mem_toList.mp present)
    rcases List.mem_cons.mp inside with rfl | inside
    · exact congrArg Cursor.definitionId cursorSame
    · exact map_option_eq_self (congrArg Cursor.digest cursorSame) text (Option.mem_toList.mp inside)

theorem Reference.texts_of_map {f : α → α} {reference : Reference α}
    (same : reference.map f = reference) : ∀ text ∈ reference.texts, f text = text := by
  intro text member
  simp only [Reference.texts, List.mem_cons] at member
  rcases member with rfl | rfl | inside
  · exact congrArg (·.activation.runId) same
  · exact congrArg (·.activation.nodeId) same
  · exact map_option_eq_self (congrArg Reference.route same) text (Option.mem_toList.mp inside)

/-- Replacing identities changes the facts unless it leaves every one of them alone. -/
theorem Facts.texts_of_map {f : α → α} {facts : Facts α} (same : facts.map f = facts) :
    ∀ text ∈ facts.texts, f text = text := by
  intro text member
  cases facts with
  | graphInput facts =>
      have fields := Facts.graphInput.inj same
      simp only [Facts.texts, List.mem_append, List.mem_cons, List.not_mem_nil, or_false] at member
      rcases member with (inside | rfl | rfl | rfl) | inside
      · have scopes : facts.scopeRun.scope.map f = facts.scopeRun.scope :=
          congrArg (·.scopeRun.scope) fields
        exact map_list_eq_self scopes text inside
      · exact congrArg (·.scopeRun.graphRunId) fields
      · exact congrArg (·.descriptor.definitionId) fields
      · exact congrArg (·.birth.runId) fields
      · exact EncodedFrame.texts_of_map (congrArg GraphInputFacts.frame fields) text inside
  | publication facts =>
      have fields := Facts.publication.inj same
      simp only [Facts.texts, List.mem_append, List.mem_cons, List.not_mem_nil, or_false] at member
      rcases member with ((inside | rfl | rfl | rfl | rfl | rfl) | inside) | inside
      · have scopes : facts.scopeRun.scope.map f = facts.scopeRun.scope :=
          congrArg (·.scopeRun.scope) fields
        exact map_list_eq_self scopes text inside
      · exact congrArg (·.scopeRun.graphRunId) fields
      · exact congrArg PublicationFacts.nodeId fields
      · exact congrArg (·.descriptor.definitionId) fields
      · exact congrArg (·.birth.runId) fields
      · exact congrArg (·.provenance.attemptId) fields
      · exact EncodedFrame.texts_of_map (congrArg PublicationFacts.frame fields) text inside
      · exact Reference.texts_of_map (congrArg PublicationFacts.reference fields) text inside

theorem option_eq_of_map {f : α → β} {value other : Option α}
    (named : ∀ x ∈ value, ∀ y, f y = f x → y = x) (same : other.map f = value.map f) :
    other = value := by
  cases value with
  | none => simpa using same
  | some x =>
      obtain ⟨y, rfl, equal⟩ := Option.map_eq_some_iff.mp same
      rw [named x rfl y equal]

theorem list_eq_of_map {f : α → β} {values others : List α}
    (named : ∀ x ∈ values, ∀ y, f y = f x → y = x) (same : others.map f = values.map f) :
    others = values := by
  induction values generalizing others with
  | nil => simpa using same
  | cons x values ih =>
      obtain ⟨y, rest, rfl, head, tail⟩ := List.map_eq_cons_iff.mp same
      rw [named x List.mem_cons_self y head,
        ih (fun z member => named z (List.mem_cons_of_mem x member)) tail]

theorem EncodedFrame.eq_of_map {f : α → β} {frame other : EncodedFrame α}
    (named : ∀ text ∈ frame.texts, ∀ y, f y = f text → y = text)
    (same : other.map f = frame.map f) : other = frame := by
  obtain ⟨codec, version, payload, cursor⟩ := frame
  obtain ⟨codec', version', payload', cursor'⟩ := other
  simp only [EncodedFrame.map, EncodedFrame.mk.injEq] at same
  obtain ⟨codecs, rfl, rfl, cursors⟩ := same
  have codecSame := named codec List.mem_cons_self codec' codecs
  have cursorSame : cursor' = cursor := by
    apply option_eq_of_map (f := Cursor.map f) _ cursors
    intro original present other same
    obtain ⟨definition, number, revision, digest⟩ := original
    obtain ⟨definition', number', revision', digest'⟩ := other
    simp only [Cursor.map, Cursor.mk.injEq] at same
    obtain ⟨definitions, rfl, rfl, digests⟩ := same
    have inside : ∀ text ∈ definition :: digest.toList, ∀ y, f y = f text → y = text := by
      intro text member
      apply named text
      exact List.mem_cons_of_mem _
        (List.mem_flatMap.mpr ⟨_, Option.mem_toList.mpr present, member⟩)
    rw [inside definition List.mem_cons_self definition' definitions,
      option_eq_of_map (fun text member => inside text
        (List.mem_cons_of_mem _ (Option.mem_toList.mpr member))) digests]
  rw [codecSame, cursorSame]

theorem Reference.eq_of_map {f : α → β} {reference other : Reference α}
    (named : ∀ text ∈ reference.texts, ∀ y, f y = f text → y = text)
    (same : other.map f = reference.map f) : other = reference := by
  obtain ⟨⟨run, superstep, node⟩, route⟩ := reference
  obtain ⟨⟨run', superstep', node'⟩, route'⟩ := other
  simp only [Reference.map, Activation.map, Reference.mk.injEq, Activation.mk.injEq] at same
  obtain ⟨⟨runs, rfl, nodes⟩, routes⟩ := same
  simp only [Reference.texts, List.mem_cons, forall_eq_or_imp, Option.mem_toList] at named
  obtain ⟨nameRun, nameNode, nameRoute⟩ := named
  rw [nameRun run' runs, nameNode node' nodes, option_eq_of_map nameRoute routes]

/-- Facts whose identities `f` does not confuse with others are the only ones with their image. -/
theorem Facts.eq_of_map {f : α → β} {facts other : Facts α}
    (named : ∀ text ∈ facts.texts, ∀ y, f y = f text → y = text)
    (same : other.map f = facts.map f) : other = facts := by
  cases facts with
  | graphInput facts =>
      cases other with
      | publication other => cases same
      | graphInput other =>
          obtain ⟨⟨scope, run⟩, ⟨definition, number, kind, ordinal⟩, frame, ⟨birth, revision⟩⟩ :=
            facts
          obtain ⟨⟨scope', run'⟩, ⟨definition', number', kind', ordinal'⟩, frame',
            ⟨birth', revision'⟩⟩ := other
          simp only [Facts.map, ScopeRun.map, Descriptor.map, CommitKey.map,
            Facts.graphInput.injEq, GraphInputFacts.mk.injEq, ScopeRun.mk.injEq,
            Descriptor.mk.injEq, CommitKey.mk.injEq] at same
          obtain ⟨⟨scopes, runs⟩, ⟨definitions, rfl, rfl, rfl⟩, frames, births, rfl⟩ := same
          simp only [Facts.texts, List.mem_append, or_imp, forall_and, List.mem_cons, forall_eq,
            List.not_mem_nil] at named
          obtain ⟨⟨nameScope, nameRun, nameDefinition, nameBirth, -⟩, nameFrame⟩ := named
          rw [list_eq_of_map nameScope scopes, nameRun run' runs,
            nameDefinition definition' definitions, nameBirth birth' births,
            EncodedFrame.eq_of_map nameFrame frames]
  | publication facts =>
      cases other with
      | graphInput other => cases same
      | publication other =>
          obtain ⟨⟨scope, run⟩, superstep, node, ⟨definition, number, kind, ordinal⟩, frame,
            ⟨birth, revision⟩, ⟨generation, attempt⟩, reference⟩ := facts
          obtain ⟨⟨scope', run'⟩, superstep', node', ⟨definition', number', kind', ordinal'⟩,
            frame', ⟨birth', revision'⟩, ⟨generation', attempt'⟩, reference'⟩ := other
          simp only [Facts.map, ScopeRun.map, Descriptor.map, CommitKey.map, Token.map,
            Facts.publication.injEq, PublicationFacts.mk.injEq, ScopeRun.mk.injEq,
            Descriptor.mk.injEq, CommitKey.mk.injEq, Token.mk.injEq] at same
          obtain ⟨⟨scopes, runs⟩, rfl, nodes, ⟨definitions, rfl, rfl, rfl⟩, frames,
            ⟨births, rfl⟩, ⟨rfl, attempts⟩, references⟩ := same
          simp only [Facts.texts, List.mem_append, or_imp, forall_and, List.mem_cons, forall_eq,
            List.not_mem_nil] at named
          obtain ⟨⟨⟨nameScope, nameRun, nameNode, nameDefinition, nameBirth, nameAttempt, -⟩,
            nameFrame⟩, nameReference⟩ := named
          rw [list_eq_of_map nameScope scopes, nameRun run' runs, nameNode node' nodes,
            nameDefinition definition' definitions, nameBirth birth' births,
            nameAttempt attempt' attempts, EncodedFrame.eq_of_map nameFrame frames,
            Reference.eq_of_map nameReference references]

/-- Every identity of the facts is a plain string: none has a code point above U+FFFF or a high
surrogate directly before a low one. -/
def Facts.Plain (facts : Facts Text) : Prop :=
  ∀ text ∈ facts.texts, Utf16.Plain text

instance (facts : Facts Text) : Decidable facts.Plain :=
  inferInstanceAs (Decidable (∀ text ∈ facts.texts, Utf16.Plain text))

/-- Evidence binding: no other facts are hashed alike, and a record that carries the commitment
of these facts with other ones is rejected, unless SHA-256 itself collides on the two. -/
def Facts.Bound (facts : Facts Text) : Prop :=
  (∀ other : Facts Text, other.Admitted → preimage other = preimage facts → other = facts) ∧
    ∀ (sha256 : Bytes → Bytes) (bindings : ScopeRun Text → Option BoundState)
      (record : Persisted), record.evidence = sha256 (preimage facts) →
      (sha256 (preimage record.facts) = sha256 (preimage facts) →
        preimage record.facts = preimage facts) →
      record.facts ≠ facts → restoreRecord sha256 bindings record ≠ .ok ()

theorem restoreRecord_postInit {sha256 : Bytes → Bytes} {bindings : ScopeRun Text → Option BoundState}
    {record : Persisted} (restored : restoreRecord sha256 bindings record = .ok ()) :
    record.facts.Admitted ∧ record.evidence = sha256 (preimage record.facts) := by
  simp only [restoreRecord, bind_eq_ok, exists_unit, Persisted.postInit_eq_ok] at restored
  obtain ⟨⟨admitted, -, evidence⟩, -⟩ := restored
  exact ⟨admitted, evidence⟩

/-- Facts that no others are hashed like are bound. -/
theorem Facts.bound_of_unique {facts : Facts Text}
    (unique : ∀ other : Facts Text, other.Admitted → preimage other = preimage facts →
      other = facts) : facts.Bound := by
  refine ⟨unique, ?_⟩
  intro sha256 bindings record evidence noCollision moved restored
  obtain ⟨admitted, own⟩ := restoreRecord_postInit restored
  exact moved (unique record.facts admitted (noCollision (own.symm.trans evidence)))

theorem Facts.Plain.unique {facts other : Facts Text} (plain : facts.Plain)
    (admitted : facts.Admitted) (admittedOther : other.Admitted)
    (same : preimage other = preimage facts) : other = facts := by
  apply Facts.eq_of_map (f := units)
  · intro text member y equal
    exact ((plain text member).eq_of_units equal.symm).symm
  · exact (preimage_eq_iff_units admittedOther admitted).mp same

/-- Facts that are the only ones hashed so are plain: splitting or merging the surrogates of an
identity that is not would give others. -/
theorem Facts.plain_of_unique {facts : Facts Text} (admitted : facts.Admitted)
    (unique : ∀ other : Facts Text, other.Admitted → preimage other = preimage facts →
      other = facts) : facts.Plain := by
  intro text member
  have split := unique (facts.map Utf16.split) (admitted.respelled units_split)
    (preimage_respell units_split facts)
  have merge := unique (facts.map Utf16.merge) (admitted.respelled units_merge)
    (preimage_respell units_merge facts)
  exact plain_of_respellings (Facts.texts_of_map split text member)
    (Facts.texts_of_map merge text member)

/-- The evidences that are bound are exactly those whose identities are plain. -/
theorem evidence_bound_iff (facts : Facts Text) (admitted : facts.Admitted) :
    facts.Bound ↔ facts.Plain := by
  constructor
  · intro bound
    exact Facts.plain_of_unique admitted bound.1
  · intro plain
    apply Facts.bound_of_unique
    intro other admittedOther same
    exact plain.unique admitted admittedOther same

/-- A publication of the node with the given identity, in the run `r` of the graph `g`. -/
def publishedBy (nodeId : Text) : Facts Text :=
  .publication ⟨⟨[], [114]⟩, 1, nodeId, ⟨[103], 1, .nodeOutput, 0⟩, ⟨[99], 1, [7], none⟩,
    ⟨[114], 2⟩, ⟨1, [116]⟩, ⟨⟨[114], 1, nodeId⟩, none⟩⟩

theorem publishedBy_admitted (nodeId : Text) (canonical : isCanonical nodeId = true) :
    (publishedBy nodeId).Admitted := by
  refine ⟨rfl, canonical, rfl, ?_, rfl, ?_, rfl, Nat.le_succ 1, rfl⟩
  · exact (EncodedFrame.postInit_eq_ok _ ()).mp rfl
  · show (_ && isCanonical nodeId && _) = true
    rw [canonical]
    rfl

theorem published_by_a_bound :
    (publishedBy [97]).Admitted ∧ (publishedBy [97]).Plain ∧ (publishedBy [97]).Bound := by
  have admitted := publishedBy_admitted [97] (by decide)
  have plain : (publishedBy [97]).Plain := by
    have letter : ∀ c : CodePoint, c.val < 0x10000 → Utf16.Plain [c] := by
      intro c small
      exact ⟨by simpa using small, .singleton c⟩
    intro text member
    simp only [publishedBy, Facts.texts, EncodedFrame.texts, Reference.texts, Option.toList_none,
      List.flatMap_nil, List.nil_append, List.cons_append, List.mem_cons, List.not_mem_nil,
      or_false] at member
    rcases member with rfl | rfl | rfl | rfl | rfl | rfl | rfl | rfl <;>
      exact letter _ (by decide)
  exact ⟨admitted, plain, (evidence_bound_iff _ admitted).mpr plain⟩

/-- The settlement of `publishedBy nodeId` in the state of its run. -/
def settledBy (nodeId : Text) (evidence : Bytes) : ScopeRun Text → Option BoundState :=
  fun scopeRun => if scopeRun = ⟨[], [114]⟩ then
    some ⟨none, [⟨⟨⟨[114], 1, nodeId⟩, none⟩, 2, ⟨1, [116]⟩, some evidence⟩]⟩ else none

/-- The node U+1F600 and the node of its two surrogates are hashed alike, and the record of one
is restored as the record of the other. -/
theorem surrogates_hashed_alike :
    (publishedBy [0xD83D, 0xDE00]).Admitted ∧ (publishedBy [0x1F600]).Admitted ∧
      publishedBy [0xD83D, 0xDE00] ≠ publishedBy [0x1F600] ∧
      preimage (publishedBy [0xD83D, 0xDE00]) = preimage (publishedBy [0x1F600]) ∧
      ¬ (publishedBy [0xD83D, 0xDE00]).Bound ∧
      ∀ sha256 : Bytes → Bytes, (∀ bytes, (sha256 bytes).length = 32) →
        restoreRecord sha256
          (settledBy [0x1F600] (sha256 (preimage (publishedBy [0x1F600]))))
          ⟨publishedBy [0x1F600], sha256 (preimage (publishedBy [0xD83D, 0xDE00]))⟩ = .ok () := by
  have admitted := publishedBy_admitted [0xD83D, 0xDE00] (by decide)
  have admittedOther := publishedBy_admitted [0x1F600] (by decide)
  have distinct : publishedBy [0xD83D, 0xDE00] ≠ publishedBy [0x1F600] := by decide
  have alike : preimage (publishedBy [0xD83D, 0xDE00]) = preimage (publishedBy [0x1F600]) := by
    decide +kernel
  refine ⟨admitted, admittedOther, distinct, alike, ?_, ?_⟩
  · intro bound
    exact distinct (bound.1 _ admittedOther alike.symm).symm
  · intro sha256 lengths
    have built : (⟨publishedBy [0x1F600], sha256 (preimage (publishedBy [0xD83D, 0xDE00]))⟩ :
        Persisted).postInit sha256 = .ok () := by
      rw [Persisted.postInit_eq_ok]
      exact ⟨admittedOther, lengths _, by rw [alike]⟩
    rw [restoreRecord, built, alike]
    simp [requireBound, publishedBy, settledBy, raiseIf, PublicationFacts.activation]

end MoteKernel.Evidence
