import SystemPilot.Configuration.Codec
import SystemPilot.Evidence.Store
import SystemPilot.Json.Declared

/-!
# Evidence bundles as text

The derived serializer of `EvidenceBundleV1` and its deserializer, as one codec of the case
store: every bundle is printed, and what was printed is read back, its doubles reread.
-/

set_option autoImplicit false

namespace SystemPilot.Evidence

open SystemPilot.Text
open SystemPilot.Json
open SystemPilot.Configuration (readField asList asObject ofNat readField_members readField_cons
  asU64_ofNat)

/-! ## Records -/

structure NodeMetadataV1 where
  hostname : String
  kernelRelease : String
  architecture : String
  deriving DecidableEq

structure CapabilityRecordV1 where
  name : String
  state : String
  deriving DecidableEq

structure MissingEvidenceV1 where
  name : String
  reason : String
  deriving DecidableEq

structure RelationshipV1 where
  fromId : String
  toId : String
  relationship : String
  deriving DecidableEq

structure RedactionRecordV1 where
  fieldsRemoved : List String := []
  deriving DecidableEq

structure AiAnalysisV1 where
  provider : String
  model : String
  text : String
  deriving DecidableEq

/-- A value that fits into a bundle that can be read: keys sorted, numbers in their types,
no deeper than the parser goes. -/
structure Observation where
  value : Value
  fits : value.canonical 125 = true
  deriving DecidableEq

/-- The members of a bundle that the store does not look at. -/
structure DetailsV1 where
  node : NodeMetadataV1
  capabilities : List CapabilityRecordV1
  observations : List Observation
  missingEvidence : List MissingEvidenceV1
  relationships : List RelationshipV1
  alertReferences : List String
  redaction : RedactionRecordV1
  aiAnalysis : Option AiAnalysisV1
  deriving DecidableEq

abbrev Bundle := EvidenceBundleV1 DetailsV1

/-! ## Writing -/

def ofTexts (texts : List String) : Value := .array (texts.map .string)

def TimeRangeV1.toValue (range : TimeRangeV1) : Value := .object [
  ("started_at_unix_nanos", ofNat range.startedAtUnixNanos.toNat),
  ("ended_at_unix_nanos", ofNat range.endedAtUnixNanos.toNat)]

def NodeMetadataV1.toValue (node : NodeMetadataV1) : Value := .object [
  ("hostname", .string node.hostname),
  ("kernel_release", .string node.kernelRelease),
  ("architecture", .string node.architecture)]

def CapabilityRecordV1.toValue (record : CapabilityRecordV1) : Value := .object [
  ("name", .string record.name),
  ("state", .string record.state)]

def FindingV1.toValue (finding : FindingV1) : Value := .object [
  ("id", .string finding.id),
  ("severity", .string finding.severity),
  ("summary", .string finding.summary),
  ("evidence_refs", ofTexts finding.evidenceRefs)]

def MissingEvidenceV1.toValue (missing : MissingEvidenceV1) : Value := .object [
  ("name", .string missing.name),
  ("reason", .string missing.reason)]

def RelationshipV1.toValue (relationship : RelationshipV1) : Value := .object [
  ("from", .string relationship.fromId),
  ("to", .string relationship.toId),
  ("relationship", .string relationship.relationship)]

def RedactionRecordV1.toValue (record : RedactionRecordV1) : Value := .object [
  ("fields_removed", ofTexts record.fieldsRemoved)]

def AiAnalysisV1.toValue (analysis : AiAnalysisV1) : Value := .object [
  ("provider", .string analysis.provider),
  ("model", .string analysis.model),
  ("text", .string analysis.text)]

def ofAnalysis : Option AiAnalysisV1 → Value
  | some analysis => analysis.toValue
  | none => .null

/-- A bundle with its members as they are declared. -/
def EvidenceBundleV1.toValue (bundle : Bundle) : Value := .object [
  ("schema_version", ofNat bundle.schemaVersion.toNat),
  ("bundle_version", .string bundle.bundleVersion),
  ("case_id", .string bundle.caseId),
  ("time_range", bundle.timeRange.toValue),
  ("node", bundle.details.node.toValue),
  ("capabilities", .array (bundle.details.capabilities.map CapabilityRecordV1.toValue)),
  ("observations", .array (bundle.details.observations.map Observation.value)),
  ("findings", .array (bundle.findings.map FindingV1.toValue)),
  ("missing_evidence", .array (bundle.details.missingEvidence.map MissingEvidenceV1.toValue)),
  ("relationships", .array (bundle.details.relationships.map RelationshipV1.toValue)),
  ("alert_references", ofTexts bundle.details.alertReferences),
  ("redaction", bundle.details.redaction.toValue),
  ("ai_analysis", ofAnalysis bundle.details.aiAnalysis)]

/-! ## Reading -/

def asUInt16 (value : Value) : Option UInt16 :=
  match value.asU64 with
  | some number => if number < 2 ^ 16 then some (UInt16.ofNat number) else none
  | none => none

def asUInt64 (value : Value) : Option UInt64 := value.asU64.map UInt64.ofNat

def asTexts (value : Value) : Option (List String) := asList Value.asString value

def readTimeRange (fields : Fields) : Option TimeRangeV1 := do
  pure {
    startedAtUnixNanos := ← readField fields "started_at_unix_nanos" none asUInt64
    endedAtUnixNanos := ← readField fields "ended_at_unix_nanos" none asUInt64 }

def readNode (fields : Fields) : Option NodeMetadataV1 := do
  pure {
    hostname := ← readField fields "hostname" none Value.asString
    kernelRelease := ← readField fields "kernel_release" none Value.asString
    architecture := ← readField fields "architecture" none Value.asString }

def readCapability (fields : Fields) : Option CapabilityRecordV1 := do
  pure {
    name := ← readField fields "name" none Value.asString
    state := ← readField fields "state" none Value.asString }

def readFinding (fields : Fields) : Option FindingV1 := do
  pure {
    id := ← readField fields "id" none Value.asString
    severity := ← readField fields "severity" none Value.asString
    summary := ← readField fields "summary" none Value.asString
    evidenceRefs := ← readField fields "evidence_refs" none asTexts }

def readMissing (fields : Fields) : Option MissingEvidenceV1 := do
  pure {
    name := ← readField fields "name" none Value.asString
    reason := ← readField fields "reason" none Value.asString }

def readRelationship (fields : Fields) : Option RelationshipV1 := do
  pure {
    fromId := ← readField fields "from" none Value.asString
    toId := ← readField fields "to" none Value.asString
    relationship := ← readField fields "relationship" none Value.asString }

def readRedactionRecord (fields : Fields) : Option RedactionRecordV1 := do
  pure { fieldsRemoved := ← readField fields "fields_removed" none asTexts }

def readAnalysis (fields : Fields) : Option AiAnalysisV1 := do
  pure {
    provider := ← readField fields "provider" none Value.asString
    model := ← readField fields "model" none Value.asString
    text := ← readField fields "text" none Value.asString }

/-- `Option<AiAnalysisV1>`. -/
def asAnalysis : Value → Option (Option AiAnalysisV1)
  | .null => some none
  | value => (asObject readAnalysis value).map some

/-- What the parser returns inside of a bundle always fits. -/
def asObservation (value : Value) : Option Observation :=
  if fits : value.canonical 125 = true then some ⟨value, fits⟩ else none

def readDetails (fields : Fields) : Option DetailsV1 := do
  pure {
    node := ← readField fields "node" none (asObject readNode)
    capabilities := ← readField fields "capabilities" none (asList (asObject readCapability))
    observations := ← readField fields "observations" none (asList asObservation)
    missingEvidence := ← readField fields "missing_evidence" none (asList (asObject readMissing))
    relationships := ← readField fields "relationships" none (asList (asObject readRelationship))
    alertReferences := ← readField fields "alert_references" none asTexts
    redaction := ← readField fields "redaction" none (asObject readRedactionRecord)
    aiAnalysis := ← readField fields "ai_analysis" (some none) asAnalysis }

/-- The derived deserializer of `EvidenceBundleV1`.  Of a member that stands twice in a
foreign file the last one is read. -/
def readBundle (fields : Fields) : Option Bundle := do
  pure {
    schemaVersion := ← readField fields "schema_version" none asUInt16
    bundleVersion := ← readField fields "bundle_version" none Value.asString
    caseId := ← readField fields "case_id" none Value.asString
    timeRange := ← readField fields "time_range" none (asObject readTimeRange)
    findings := ← readField fields "findings" none (asList (asObject readFinding))
    details := ← readDetails fields }

section Codec

variable (floats : FloatText)

/-- `serde_json::to_vec_pretty`. -/
def encodeBundle (bundle : Bundle) : List UInt8 :=
  bytesOf (String.ofList (pretty floats 0 bundle.toValue))

/-- `serde_json` on the bytes; `explain` is what it says about those it refuses. -/
def decodeBundle (explain : List UInt8 → String) (bytes : List UInt8) : Except String Bundle :=
  match ((fromUtf8 bytes).bind fun text => parseText floats text.toList).bind
      (asObject readBundle) with
  | some bundle => .ok bundle
  | none => .error (explain bytes)

end Codec

/-! ## Doubles -/

section Doubles

variable {change : UInt64 → UInt64}

mutual

/-- Doubles that stay finite leave a document as well formed as it was. -/
theorem canonical_mapFloats (finite : ∀ bits, isFinite bits = true → isFinite (change bits) = true)
    {depth : Nat} {value : Value} (canonical : value.canonical depth = true) :
    (value.mapFloats change).canonical depth = true := by
  cases value with
  | null | bool _ | string _ => exact canonical
  | number number =>
      cases number with
      | posInt value => exact canonical
      | negInt value => exact canonical
      | float bits =>
          rw [Value.mapFloats]
          cases depth <;> exact finite bits canonical
  | array items =>
      cases depth with
      | zero => simp [Value.canonical] at canonical
      | succ depth =>
          exact canonical_array_iff.mpr
            (canonical_mapFloatsItems finite (canonical_array_iff.mp canonical))
  | object fields =>
      cases depth with
      | zero => simp [Value.canonical] at canonical
      | succ depth =>
          obtain ⟨sorted, each⟩ := canonical_object_iff.mp canonical
          exact canonical_object_iff.mpr
            ⟨sorted.mapFloats change, canonical_mapFloatsFields finite each⟩

theorem canonical_mapFloatsItems
    (finite : ∀ bits, isFinite bits = true → isFinite (change bits) = true) {depth : Nat}
    {items : List Value} (canonical : ∀ item ∈ items, item.canonical depth = true) :
    ∀ item ∈ mapFloatsItems change items, item.canonical depth = true := by
  cases items with
  | nil => simp [mapFloatsItems]
  | cons item rest =>
      intro entry member
      rw [mapFloatsItems] at member
      rcases List.mem_cons.mp member with rfl | behind
      · exact canonical_mapFloats finite (canonical item (by simp))
      · exact canonical_mapFloatsItems finite
          (fun other there => canonical other (List.mem_cons_of_mem item there)) entry behind

theorem canonical_mapFloatsFields
    (finite : ∀ bits, isFinite bits = true → isFinite (change bits) = true) {depth : Nat}
    {fields : Fields} (canonical : ∀ field ∈ fields, field.2.canonical depth = true) :
    ∀ field ∈ mapFloatsFields change fields, field.2.canonical depth = true := by
  cases fields with
  | nil => simp [mapFloatsFields]
  | cons field rest =>
      obtain ⟨key, value⟩ := field
      intro entry member
      rw [mapFloatsFields] at member
      rcases List.mem_cons.mp member with rfl | behind
      · exact canonical_mapFloats finite (canonical (key, value) (by simp))
      · exact canonical_mapFloatsFields finite
          (fun other there => canonical other (List.mem_cons_of_mem (key, value) there)) entry behind

end

theorem finite_reread (floats : FloatText) (bits : UInt64) (finite : isFinite bits = true) :
    isFinite (floats.reread bits) = true :=
  floats.parse_finite _ _ (floats.parse_print bits finite)

end Doubles

/-- What a bundle's observation is read back as. -/
def Observation.reread (floats : FloatText) (observation : Observation) : Observation :=
  ⟨observation.value.mapFloats floats.reread,
    canonical_mapFloats (finite_reread floats) observation.fits⟩

/-- The bundle with the doubles of its observations read back. -/
def EvidenceBundleV1.reread (floats : FloatText) (bundle : Bundle) : Bundle :=
  { bundle with
    details := { bundle.details with
      observations := bundle.details.observations.map (Observation.reread floats) } }

/-! ## Reading what was written -/

section RoundTrip

variable {change : UInt64 → UInt64}

/-- The members of a record, as they are read. -/
theorem readBack_object (members : Fields) :
    (Value.object members).readBack change =
      .object (fieldsOfMembers (members.map fun member => (member.1, member.2.readBack change))) := by
  rw [Value.readBack, readBackFields_eq_map]

theorem readBack_array {Record : Type} (write : Record → Value) (records : List Record) :
    (Value.array (records.map write)).readBack change =
      .array (records.map fun record => (write record).readBack change) := by
  rw [Value.readBack, readBackItems_eq_map, List.map_map]
  rfl

/-- A list of records that are each read back is read back. -/
theorem asList_readBack {Record : Type} {write : Record → Value} {read : Value → Option Record}
    {again : Record → Record} (back : ∀ record, read ((write record).readBack change) =
      some (again record)) (records : List Record) :
    asList read ((Value.array (records.map write)).readBack change) =
      some (records.map again) := by
  rw [readBack_array, asList]
  induction records with
  | nil => rfl
  | cons record records inductionHypothesis =>
      rw [List.map_cons, List.mapM_cons, back, inductionHypothesis]
      rfl

theorem asTexts_ofTexts (texts : List String) :
    asTexts ((ofTexts texts).readBack change) = some texts := by
  have back := @asList_readBack change String .string Value.asString id (fun _ => rfl) texts
  rwa [List.map_id] at back

theorem readBack_string (text : String) : (Value.string text).readBack change = .string text := rfl

theorem readBack_ofNat (value : Nat) : (ofNat value).readBack change = ofNat value := rfl

theorem asUInt64_ofNat (value : UInt64) : asUInt64 (ofNat value.toNat) = some value := by
  rw [asUInt64, asU64_ofNat value.toNat_lt, Option.map_some, UInt64.ofNat_toNat]

theorem asUInt16_ofNat (value : UInt16) : asUInt16 (ofNat value.toNat) = some value := by
  have small : value.toNat < 2 ^ 16 := value.toNat_lt
  rw [asUInt16, asU64_ofNat (small.trans (by decide))]
  simp only [if_pos small, UInt16.ofNat_toNat]

theorem read_timeRange (range : TimeRangeV1) :
    asObject readTimeRange (range.toValue.readBack change) = some range := by
  rw [TimeRangeV1.toValue, readBack_object, asObject, readTimeRange]
  simp (disch := simp) only [readField_members]
  simp [readField_cons, readBack_ofNat, asUInt64_ofNat]

theorem read_node (node : NodeMetadataV1) :
    asObject readNode (node.toValue.readBack change) = some node := by
  rw [NodeMetadataV1.toValue, readBack_object, asObject, readNode]
  simp (disch := simp) only [readField_members]
  simp [readField_cons, readBack_string, Value.asString]

theorem read_capability (record : CapabilityRecordV1) :
    asObject readCapability (record.toValue.readBack change) = some record := by
  rw [CapabilityRecordV1.toValue, readBack_object, asObject, readCapability]
  simp (disch := simp) only [readField_members]
  simp [readField_cons, readBack_string, Value.asString]

theorem read_finding (finding : FindingV1) :
    asObject readFinding (finding.toValue.readBack change) = some finding := by
  rw [FindingV1.toValue, readBack_object, asObject, readFinding]
  simp (disch := simp) only [readField_members]
  simp [readField_cons, readBack_string, Value.asString, asTexts_ofTexts]

theorem read_missing (missing : MissingEvidenceV1) :
    asObject readMissing (missing.toValue.readBack change) = some missing := by
  rw [MissingEvidenceV1.toValue, readBack_object, asObject, readMissing]
  simp (disch := simp) only [readField_members]
  simp [readField_cons, readBack_string, Value.asString]

theorem read_relationship (relationship : RelationshipV1) :
    asObject readRelationship (relationship.toValue.readBack change) = some relationship := by
  rw [RelationshipV1.toValue, readBack_object, asObject, readRelationship]
  simp (disch := simp) only [readField_members]
  simp [readField_cons, readBack_string, Value.asString]

theorem read_redactionRecord (record : RedactionRecordV1) :
    asObject readRedactionRecord (record.toValue.readBack change) = some record := by
  rw [RedactionRecordV1.toValue, readBack_object, asObject, readRedactionRecord]
  simp (disch := simp) only [readField_members]
  simp [readField_cons, asTexts_ofTexts]

theorem read_analysis (analysis : Option AiAnalysisV1) :
    asAnalysis ((ofAnalysis analysis).readBack change) = some analysis := by
  cases analysis with
  | none => rfl
  | some analysis =>
      have record : asObject readAnalysis (analysis.toValue.readBack change) = some analysis := by
        rw [AiAnalysisV1.toValue, readBack_object, asObject, readAnalysis]
        simp (disch := simp) only [readField_members]
        simp [readField_cons, readBack_string, Value.asString]
      rw [ofAnalysis, AiAnalysisV1.toValue, readBack_object] at *
      rw [asAnalysis, record]
      · rfl
      · intro impossible
        cases impossible

theorem read_observation (floats : FloatText) (observation : Observation) :
    asObservation (observation.value.readBack floats.reread) =
      some (observation.reread floats) := by
  have same := (@readBack_canonical floats.reread _ _ observation.fits).2
  have fits : (observation.value.mapFloats floats.reread).canonical 125 = true :=
    (observation.reread floats).fits
  rw [same, asObservation, dif_pos fits]
  rfl

theorem read_bundle (floats : FloatText) (bundle : Bundle) :
    asObject readBundle (bundle.toValue.readBack floats.reread) = some (bundle.reread floats) := by
  have observations := asList_readBack (read_observation floats) bundle.details.observations
  have capabilities := asList_readBack (@read_capability floats.reread) bundle.details.capabilities
  have findings := asList_readBack (@read_finding floats.reread) bundle.findings
  have missing := asList_readBack (@read_missing floats.reread) bundle.details.missingEvidence
  have relationships :=
    asList_readBack (@read_relationship floats.reread) bundle.details.relationships
  rw [EvidenceBundleV1.toValue, readBack_object, asObject, readBundle]
  simp (disch := simp) only [readDetails, readField_members]
  simp [readField_cons, readBack_string, readBack_ofNat, Value.asString, asUInt16_ofNat,
    read_timeRange, read_node, observations, capabilities, findings, missing, relationships,
    asTexts_ofTexts, read_redactionRecord, read_analysis, EvidenceBundleV1.reread]

end RoundTrip

/-! ## The codec -/

section Depth

theorem declared_string (depth : Nat) (text : String) :
    (Value.string text).declared depth = true := by
  cases depth <;> rfl

theorem declared_ofNat (depth : Nat) {value : Nat} (fits : value < 2 ^ 64) :
    (ofNat value).declared depth = true := by
  cases depth <;> exact decide_eq_true fits

theorem declared_list {Record : Type} {depth : Nat} {write : Record → Value}
    (each : ∀ record, (write record).declared depth = true) (records : List Record) :
    (Value.array (records.map write)).declared (depth + 1) = true :=
  declared_array_iff.mpr fun item member => by
    obtain ⟨record, -, rfl⟩ := List.mem_map.mp member
    exact each record

theorem declared_ofTexts (depth : Nat) (texts : List String) :
    (ofTexts texts).declared (depth + 1) = true :=
  declared_list (declared_string depth) texts

theorem declared_timeRange (depth : Nat) (range : TimeRangeV1) :
    range.toValue.declared (depth + 1) = true := by
  have started := declared_ofNat depth range.startedAtUnixNanos.toNat_lt
  have ended := declared_ofNat depth range.endedAtUnixNanos.toNat_lt
  exact declared_object_iff.mpr (by simp [started, ended])

theorem declared_finding (depth : Nat) (finding : FindingV1) :
    finding.toValue.declared (depth + 2) = true :=
  declared_object_iff.mpr (by simp [declared_string, declared_ofTexts])

theorem declared_analysis (depth : Nat) (analysis : Option AiAnalysisV1) :
    (ofAnalysis analysis).declared (depth + 1) = true := by
  cases analysis with
  | none => rfl
  | some analysis => exact declared_object_iff.mpr (by simp [declared_string])

theorem declared_bundle (bundle : Bundle) : bundle.toValue.declared 127 = true := by
  have version := declared_ofNat 126
    (bundle.schemaVersion.toNat_lt.trans (show 2 ^ 16 < 2 ^ 64 by decide))
  have node : bundle.details.node.toValue.declared 126 = true :=
    declared_object_iff.mpr (by simp [declared_string])
  have capability (record : CapabilityRecordV1) : record.toValue.declared 125 = true :=
    declared_object_iff.mpr (by simp [declared_string])
  have missing (record : MissingEvidenceV1) : record.toValue.declared 125 = true :=
    declared_object_iff.mpr (by simp [declared_string])
  have relationship (record : RelationshipV1) : record.toValue.declared 125 = true :=
    declared_object_iff.mpr (by simp [declared_string])
  have observation (record : Observation) : record.value.declared 125 = true :=
    (@readBack_canonical id _ _ record.fits).1
  have redaction : bundle.details.redaction.toValue.declared 126 = true :=
    declared_object_iff.mpr (by simp [declared_ofTexts])
  refine declared_object_iff.mpr ?_
  simp [version, declared_string, declared_timeRange, node, declared_list capability,
    declared_list missing, declared_list relationship, declared_list observation,
    declared_list (declared_finding 123), redaction, declared_ofTexts, declared_analysis]

end Depth

section Serde

variable (floats : FloatText) (explain : List UInt8 → String)

theorem decode_encodeBundle (bundle : Bundle) :
    decodeBundle floats explain (encodeBundle floats bundle) = .ok (bundle.reread floats) := by
  rw [decodeBundle, encodeBundle, fromUtf8_bytesOf, Option.bind_some, String.toList_ofList,
    parseText_declared floats _ (declared_bundle bundle), Option.bind_some, read_bundle]

theorem encodes_bundle (bundle : Bundle) :
    ∃ bytes, (Except.ok (encodeBundle floats bundle) : Except String (List UInt8)) = .ok bytes :=
  ⟨_, rfl⟩

theorem rereads_bundle (bundle : Bundle) (bytes : List UInt8) (again : Bundle)
    (encoded : (Except.ok (encodeBundle floats bundle) : Except String (List UInt8)) = .ok bytes)
    (decoded : decodeBundle floats explain bytes = .ok again) :
    ∃ details, again = { bundle with details := details } := by
  cases encoded
  rw [decode_encodeBundle] at decoded
  cases decoded
  exact ⟨_, rfl⟩

/-- The serializer of the case store. -/
def bundleCodec : BundleCodec DetailsV1 where
  encode bundle := .ok (encodeBundle floats bundle)
  decode := decodeBundle floats explain
  encodes := encodes_bundle floats
  rereads := rereads_bundle floats explain

end Serde

end SystemPilot.Evidence
