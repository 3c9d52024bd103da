import SystemPilot.Causal.Graph
import SystemPilot.Json.Compact

/-!
# Reports of a causal chain

`serialize_chain_to_json` and `export_graph_to_html`: the nodes of a path and the
edges between them as JSON.  What goes into the page is rewritten first, so that
no character of a name can end the script element.
-/

set_option autoImplicit false

namespace SystemPilot.Causal

open SystemPilot.Json

/-! ## Values -/

section Values

variable {Rate : Type} (bits : Rate → UInt64) (graph : CausalGraph Rate) (path : List String)

/-- `json!` of a double, given its bit pattern. -/
def doubleValue (pattern : UInt64) : Value :=
  if isFinite pattern then .number (.float pattern) else .null

def int32Value (value : Int32) : Value :=
  if 0 ≤ value.toInt then .number (.posInt value.toInt.toNat) else .number (.negInt value.toInt)

def NodeType.text : NodeType → String
  | .process => "process"
  | .resource => "resource"

/-- The fields of a node, in the order of the keys. -/
def nodeFields (node : GraphNode Rate) : Fields :=
  let fields := [
    ("anomaly_reason", .string node.anomalyReason),
    ("id", .string node.id),
    ("is_anomalous", .bool node.isAnomalous),
    ("name", .string node.name),
    ("read_rate_kb", doubleValue (bits node.readRateKb)),
    ("type", .string node.nodeType.text),
    ("write_rate_kb", doubleValue (bits node.writeRateKb))]
  if node.nodeType = .process then
    Fields.insert "cpu_usage_pct" (doubleValue (bits node.cpuUsagePct))
      (Fields.insert "state" (.string node.state)
        (Fields.insert "pid" (int32Value node.pid) fields))
  else fields

/-- The nodes of a path that exist. -/
def pathNodes : List (GraphNode Rate) := path.filterMap graph.node

/-- Both ends of an edge are on the path. -/
def onPath (edge : GraphEdge) : Bool := path.contains edge.fromId && path.contains edge.toId

def chainEdge (edge : GraphEdge) : Fields := [
  ("details", .string edge.details),
  ("from", .string edge.fromId),
  ("to", .string edge.toId),
  ("type", .string edge.edgeType.asStr)]

/-- `serialize_chain_to_json`, before it is printed. -/
def serializeChain : Fields := [
  ("edges", .array ((graph.edges.filter (onPath path)).map fun edge => .object (chainEdge edge))),
  ("nodes", .array ((pathNodes graph path).map fun node => .object (nodeFields bits node))),
  ("symptom_node", .string (path.head?.getD ""))]

/-- `serialize_chain_to_json`. -/
def serializeChainToJson (floats : FloatText) : List Char :=
  compact floats escapeChar (.object (serializeChain bits graph path))

def elementEdge (index : Nat) (edge : GraphEdge) : Fields := [
  ("details", .string edge.details),
  ("id", .string ("edge_" ++ toString index)),
  ("source", .string edge.fromId),
  ("target", .string edge.toId),
  ("type", .string edge.edgeType.asStr)]

/-- `json!({ "data": .. })`. -/
def element (data : Fields) : Value := .object [("data", .object data)]

/-- `elements`: the nodes of the path and the edges between them, each edge under
its position in the graph. -/
def elements : List Value :=
  (pathNodes graph path).map (fun node => element (nodeFields bits node)) ++
    (graph.edges.zipIdx.filter fun entry => onPath path entry.1).map fun entry =>
      element (elementEdge entry.2 entry.1)

def symptom : String :=
  match path.head?.bind graph.node with
  | some node =>
      if node.nodeType = .process then
        node.name ++ " (PID " ++ toString node.pid.toInt ++ ")"
      else node.name
  | none => "Unknown"

end Values

/-! ## The page -/

/-- `str::replace` of a character. -/
def replaceChar (character : Char) (replacement : String) (text : List Char) : List Char :=
  text.flatMap fun other => if other = character then replacement.toList else [other]

def scriptSafeJson (value : List Char) : List Char :=
  replaceChar (Char.ofNat 0x2029) "\\u2029" (replaceChar (Char.ofNat 0x2028) "\\u2028"
    (replaceChar '&' "\\u0026" (replaceChar '>' "\\u003e" (replaceChar '<' "\\u003c" value))))

section Page

variable {Rate : Type} (floats : FloatText) (bits : Rate → UInt64)
variable (graph : CausalGraph Rate) (path : List String)

/-- `serde_json::to_string(&elements)`. -/
def elementsText : List Char :=
  compact floats escapeChar (.array (elements bits graph path))

/-- `serde_json::to_string(&symptom)`. -/
def symptomText : List Char := compact floats escapeChar (.string (symptom graph path))

/-- The template around the two texts. -/
structure Template where
  head : List Char
  middle : List Char
  tail : List Char

def exportGraphToHtml (template : Template) : List Char :=
  template.head ++ scriptSafeJson (elementsText floats bits graph path) ++ template.middle ++
    scriptSafeJson (symptomText floats graph path) ++ template.tail

end Page

/-! ## Rewriting -/

/-- The characters that are rewritten. -/
def Unsafe (character : Char) : Prop :=
  character = '<' ∨ character = '>' ∨ character = '&' ∨ character = Char.ofNat 0x2028 ∨
    character = Char.ofNat 0x2029

instance : DecidablePred Unsafe := fun character =>
  inferInstanceAs (Decidable (character = '<' ∨ character = '>' ∨ character = '&' ∨
    character = Char.ofNat 0x2028 ∨ character = Char.ofNat 0x2029))

/-- What one character becomes. -/
def safeChar (character : Char) : List Char :=
  if character = '<' then "\\u003c".toList
  else if character = '>' then "\\u003e".toList
  else if character = '&' then "\\u0026".toList
  else if character = Char.ofNat 0x2028 then "\\u2028".toList
  else if character = Char.ofNat 0x2029 then "\\u2029".toList
  else [character]

theorem safeChar_of_safe {character : Char} (safe : ¬ Unsafe character) :
    safeChar character = [character] := by
  simp only [Unsafe, not_or] at safe
  obtain ⟨less, greater, ampersand, line, paragraph⟩ := safe
  rw [safeChar, if_neg less, if_neg greater, if_neg ampersand, if_neg line, if_neg paragraph]

theorem replaceChar_append (character : Char) (replacement : String) (first second : List Char) :
    replaceChar character replacement (first ++ second) =
      replaceChar character replacement first ++ replaceChar character replacement second :=
  List.flatMap_append

theorem replaceChar_other {character other : Char} (replacement : String)
    (apart : other ≠ character) : replaceChar character replacement [other] = [other] := by
  rw [replaceChar, List.flatMap_singleton, if_neg apart]

theorem scriptSafeJson_singleton (character : Char) :
    scriptSafeJson [character] = safeChar character := by
  by_cases dangerous : Unsafe character
  · rcases dangerous with rfl | rfl | rfl | rfl | rfl <;> decide
  · rw [safeChar_of_safe dangerous]
    simp only [Unsafe, not_or] at dangerous
    obtain ⟨less, greater, ampersand, line, paragraph⟩ := dangerous
    rw [scriptSafeJson, replaceChar_other _ less, replaceChar_other _ greater,
      replaceChar_other _ ampersand, replaceChar_other _ line, replaceChar_other _ paragraph]

/-- The replacements one after another rewrite each character by itself. -/
theorem scriptSafeJson_eq (text : List Char) : scriptSafeJson text = text.flatMap safeChar := by
  induction text with
  | nil => rfl
  | cons character text inductionHypothesis =>
      have split : scriptSafeJson ([character] ++ text) =
          scriptSafeJson [character] ++ scriptSafeJson text := by
        unfold scriptSafeJson
        rw [replaceChar_append, replaceChar_append, replaceChar_append, replaceChar_append,
          replaceChar_append]
      rw [List.flatMap_cons, ← inductionHypothesis, ← scriptSafeJson_singleton]
      exact split

theorem safe_safeChar (original : Char) : ∀ character ∈ safeChar original, ¬ Unsafe character := by
  by_cases dangerous : Unsafe original
  · refine List.all_iff_forall_prop.mp ?_
    rcases dangerous with rfl | rfl | rfl | rfl | rfl <;> decide
  · rw [safeChar_of_safe dangerous]
    intro character member
    rw [List.mem_singleton.mp member]
    exact dangerous

theorem safe_scriptSafeJson (text : List Char) :
    ∀ character ∈ scriptSafeJson text, ¬ Unsafe character := by
  rw [scriptSafeJson_eq]
  intro character member
  obtain ⟨original, _, written⟩ := List.mem_flatMap.mp member
  exact safe_safeChar original character written

theorem safe_of_isSyntax {character : Char} (plain : IsSyntax character) : ¬ Unsafe character := by
  intro dangerous
  rcases dangerous with rfl | rfl | rfl | rfl | rfl <;>
    · simp only [IsSyntax, IsNumeric] at plain
      revert plain
      decide

/-- A character of a string, escaped and then rewritten. -/
def safeEscape (character : Char) : List Char := (escapeChar character).flatMap safeChar

theorem flatMap_safeChar {text : List Char} (safe : ∀ character ∈ text, ¬ Unsafe character) :
    text.flatMap safeChar = text := by
  induction text with
  | nil => rfl
  | cons character text inductionHypothesis =>
      rw [List.flatMap_cons, safeChar_of_safe (safe character (by simp)),
        inductionHypothesis fun other member => safe other (by simp [member]),
        List.singleton_append]

theorem safe_hexOf {digit : Nat} (small : digit < 16) : ¬ Unsafe (hexOf digit) := by
  have all : ∀ digit < 16, ¬ Unsafe (hexOf digit) := by decide
  exact all digit small

/-- The encoder leaves the characters that are rewritten as they are and writes
none of them into an escape. -/
theorem safe_escapeChar {original : Char} (safe : ¬ Unsafe original) :
    ∀ character ∈ escapeChar original, ¬ Unsafe character := by
  unfold escapeChar
  dsimp only
  split_ifs with quote backslash backspace tab newline formFeed carriage control
  · exact List.all_iff_forall_prop.mp (by decide)
  · exact List.all_iff_forall_prop.mp (by decide)
  · exact List.all_iff_forall_prop.mp (by decide)
  · exact List.all_iff_forall_prop.mp (by decide)
  · exact List.all_iff_forall_prop.mp (by decide)
  · exact List.all_iff_forall_prop.mp (by decide)
  · exact List.all_iff_forall_prop.mp (by decide)
  · have high := @safe_hexOf (original.toNat / 16) (by omega)
    have low := @safe_hexOf (original.toNat % 16) (by omega)
    have fixed : ∀ character ∈ "\\u00".toList, ¬ Unsafe character :=
      List.all_iff_forall_prop.mp (by decide)
    intro character member
    have placed : character ∈ "\\u00".toList ∨ character = hexOf (original.toNat / 16) ∨
        character = hexOf (original.toNat % 16) := by
      simpa [or_assoc] using member
    rcases placed with inEscape | rfl | rfl
    · exact fixed character inEscape
    · exact high
    · exact low
  · intro character member
    rw [List.mem_singleton.mp member]
    exact safe

theorem safeEscape_of_safe {character : Char} (safe : ¬ Unsafe character) :
    safeEscape character = escapeChar character :=
  flatMap_safeChar (safe_escapeChar safe)

theorem escapes_safeEscape : Escapes safeEscape where
  parsed := by
    intro fuel character rest
    by_cases dangerous : Unsafe character
    · rcases dangerous with rfl | rfl | rfl | rfl | rfl
      · exact parseString_escaped fuel "u003c".toList rest rest '<' rfl
      · exact parseString_escaped fuel "u003e".toList rest rest '>' rfl
      · exact parseString_escaped fuel "u0026".toList rest rest '&' rfl
      · exact parseString_escaped fuel "u2028".toList rest rest _ rfl
      · exact parseString_escaped fuel "u2029".toList rest rest _ rfl
    · rw [safeEscape_of_safe dangerous]
      exact parseString_escapeChar fuel character rest
  nonempty := by
    intro character
    by_cases dangerous : Unsafe character
    · rcases dangerous with rfl | rfl | rfl | rfl | rfl <;> decide
    · rw [safeEscape_of_safe dangerous]
      exact escapes_escapeChar.nonempty character

theorem scriptSafeJson_compact (floats : FloatText) {depth : Nat} {value : Value}
    (canonical : value.canonical depth = true) :
    scriptSafeJson (compact floats escapeChar value) = compact floats safeEscape value := by
  rw [scriptSafeJson_eq]
  exact flatMap_compact (fun _ plain => safeChar_of_safe (safe_of_isSyntax plain)) depth value
    canonical

/-- A rewritten document parses to the value the document itself parses to. -/
theorem parseText_scriptSafeJson (floats : FloatText) {value : Value}
    (canonical : value.canonical 127 = true) :
    parseText floats (scriptSafeJson (compact floats escapeChar value)) =
      parseText floats (compact floats escapeChar value) := by
  rw [scriptSafeJson_compact floats canonical, parseText_compact escapes_safeEscape value canonical,
    parseText_compact escapes_escapeChar value canonical]

/-! ## The embedded values -/

section Embedded

variable {Rate : Type} (floats : FloatText) (bits : Rate → UInt64)
variable (graph : CausalGraph Rate) (path : List String)

theorem canonical_doubleValue (depth : Nat) (pattern : UInt64) :
    (doubleValue pattern).canonical depth = true := by
  unfold doubleValue
  split_ifs with finite
  · cases depth <;> exact finite
  · exact canonical_null depth

theorem canonical_int32Value (depth : Nat) (value : Int32) :
    (int32Value value).canonical depth = true := by
  have upper := value.toInt_lt
  have lower := value.le_toInt
  unfold int32Value
  split_ifs with natural
  · have fits : value.toInt.toNat < 2 ^ 64 := by omega
    cases depth <;> exact decide_eq_true fits
  · have fits : -(2 ^ 63) ≤ value.toInt ∧ value.toInt < 0 := by omega
    cases depth <;> exact decide_eq_true fits

theorem canonical_nodeFields (depth : Nat) (node : GraphNode Rate) :
    (Value.object (nodeFields bits node)).canonical (depth + 1) = true := by
  have common : (Value.object [
      ("anomaly_reason", .string node.anomalyReason),
      ("id", .string node.id),
      ("is_anomalous", .bool node.isAnomalous),
      ("name", .string node.name),
      ("read_rate_kb", doubleValue (bits node.readRateKb)),
      ("type", .string node.nodeType.text),
      ("write_rate_kb", doubleValue (bits node.writeRateKb))]).canonical (depth + 1) = true := by
    rw [canonical_object_iff]
    refine ⟨Fields.sorted_of_keys ["anomaly_reason", "id", "is_anomalous", "name", "read_rate_kb",
      "type", "write_rate_kb"] rfl (by decide), by simp [canonical_doubleValue]⟩
  unfold nodeFields
  dsimp only
  split_ifs
  · exact canonical_insert (canonical_insert (canonical_insert common _ _
      (canonical_int32Value depth node.pid)) _ _ (canonical_string depth _)) _ _
      (canonical_doubleValue depth _)
  · exact common

theorem canonical_elementEdge (depth index : Nat) (edge : GraphEdge) :
    (Value.object (elementEdge index edge)).canonical (depth + 1) = true := by
  rw [canonical_object_iff]
  exact ⟨Fields.sorted_of_keys ["details", "id", "source", "target", "type"] rfl (by decide),
    by simp [elementEdge]⟩

theorem canonical_element {depth : Nat} {data : Fields}
    (canonical : (Value.object data).canonical (depth + 1) = true) :
    (element data).canonical (depth + 2) = true := by
  rw [element, canonical_object_iff]
  exact ⟨Fields.sorted_of_keys ["data"] rfl (by decide), by simpa using canonical⟩

theorem canonical_elements :
    (Value.array (elements bits graph path)).canonical 127 = true := by
  rw [canonical_array_iff]
  intro entry member
  rcases List.mem_append.mp member with node | edge
  · obtain ⟨source, _, rfl⟩ := List.mem_map.mp node
    exact canonical_element (canonical_nodeFields bits 124 source)
  · obtain ⟨source, _, rfl⟩ := List.mem_map.mp edge
    exact canonical_element (canonical_elementEdge 124 source.2 source.1)

theorem canonical_chainEdge (depth : Nat) (edge : GraphEdge) :
    (Value.object (chainEdge edge)).canonical (depth + 1) = true := by
  rw [canonical_object_iff]
  exact ⟨Fields.sorted_of_keys ["details", "from", "to", "type"] rfl (by decide), by simp [chainEdge]⟩

theorem canonical_serializeChain :
    (Value.object (serializeChain bits graph path)).canonical 127 = true := by
  have edges : (Value.array ((graph.edges.filter (onPath path)).map fun edge =>
      .object (chainEdge edge))).canonical 126 = true := by
    rw [canonical_array_iff, List.forall_mem_map]
    exact fun edge _ => canonical_chainEdge 124 edge
  have nodes : (Value.array ((pathNodes graph path).map fun node =>
      .object (nodeFields bits node))).canonical 126 = true := by
    rw [canonical_array_iff, List.forall_mem_map]
    exact fun node _ => canonical_nodeFields bits 124 node
  rw [serializeChain, canonical_object_iff]
  refine ⟨Fields.sorted_of_keys ["edges", "nodes", "symptom_node"] rfl (by decide), ?_⟩
  simp only [List.forall_mem_cons]
  exact ⟨edges, nodes, canonical_string 126 _, by simp⟩

theorem parseText_serializeChainToJson :
    parseText floats (serializeChainToJson bits graph path floats) =
      some ((Value.object (serializeChain bits graph path)).mapFloats floats.reread) :=
  parseText_compact escapes_escapeChar _ (canonical_serializeChain bits graph path)

/-- What the page embeds cannot leave the script element and holds the values that
were serialised. -/
theorem exportGraphToHtml_contained (template : Template) :
    ∃ embeddedElements embeddedSymptom : List Char,
      exportGraphToHtml floats bits graph path template =
          template.head ++ embeddedElements ++ template.middle ++ embeddedSymptom ++
            template.tail ∧
        (∀ character ∈ embeddedElements ++ embeddedSymptom, ¬ Unsafe character) ∧
        parseText floats embeddedElements = parseText floats (elementsText floats bits graph path) ∧
        parseText floats embeddedElements =
          some ((Value.array (elements bits graph path)).mapFloats floats.reread) ∧
        parseText floats embeddedSymptom = parseText floats (symptomText floats graph path) ∧
        parseText floats embeddedSymptom = some (.string (symptom graph path)) := by
  have elementsFit := canonical_elements bits graph path
  have symptomFits := canonical_string 127 (symptom graph path)
  have elementsKept := parseText_scriptSafeJson floats elementsFit
  have symptomKept := parseText_scriptSafeJson floats symptomFits
  refine ⟨scriptSafeJson (elementsText floats bits graph path),
    scriptSafeJson (symptomText floats graph path), rfl, ?_, elementsKept, ?_, symptomKept, ?_⟩
  · intro character member
    rcases List.mem_append.mp member with inElements | inSymptom
    · exact safe_scriptSafeJson _ character inElements
    · exact safe_scriptSafeJson _ character inSymptom
  · exact elementsKept.trans (parseText_compact escapes_escapeChar _ elementsFit)
  · exact symptomKept.trans (parseText_compact escapes_escapeChar _ symptomFits)

end Embedded

end SystemPilot.Causal
