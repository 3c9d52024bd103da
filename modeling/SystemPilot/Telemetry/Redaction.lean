import Mathlib.Tactic
import SystemPilot.Text
import SystemPilot.Json
import SystemPilot.Library.SortedMap
import SystemPilot.Telemetry.Envelope

/-!
# The privacy boundary

`sensitive_key` and `redact_value` over whole documents, with the address
parser they consult.  Two facts carry the later comparisons: redaction is
idempotent, and on a map of strings it acts entry by entry.
-/

set_option autoImplicit false

namespace SystemPilot.Telemetry

open SystemPilot.Json
open SystemPilot.Text
open SystemPilot.Library

/-! ## `std::net::IpAddr` parsing

Each reader returns the unread input, or nothing when it fails; a failed reader
consumes no input. -/

def toDigit (radix : Nat) (character : Char) : Option Nat :=
  let value :=
    if '0' ≤ character ∧ character ≤ '9' then character.toNat - 48
    else if 'a' ≤ character ∧ character ≤ 'z' then character.toNat - 87
    else if 'A' ≤ character ∧ character ≤ 'Z' then character.toNat - 55
    else radix
  if value < radix then some value else none

/-- `read_number` for a type whose values stay below `bound`. -/
def readNumber (radix maxDigits bound : Nat) (allowZeroPrefix : Bool)
    (input : List Char) : Option (List Char) :=
  let isDigit := fun character => (toDigit radix character).isSome
  let digits := input.takeWhile isDigit
  let value := digits.foldl
    (fun result character => result * radix + (toDigit radix character).getD 0) 0
  if digits.length = 0 ∨ maxDigits < digits.length then none
  else if allowZeroPrefix = false ∧ input.head? = some '0' ∧ 1 < digits.length then none
  else if value < bound then some (input.dropWhile isDigit)
  else none

/-- `read_separator`: the separator is expected before every part but the first. -/
def readSeparator (separator : Char) (index : Nat)
    (inner : List Char → Option (List Char)) (input : List Char) : Option (List Char) :=
  if index = 0 then inner input
  else match input with
    | head :: rest => if head = separator then inner rest else none
    | [] => none

def readIpv4Addr (input : List Char) : Option (List Char) := do
  let octet := readNumber 10 3 256 false
  let rest ← readSeparator '.' 0 octet input
  let rest ← readSeparator '.' 1 octet rest
  let rest ← readSeparator '.' 2 octet rest
  readSeparator '.' 3 octet rest

/-- `read_groups` with `slots` of the `limit` groups left: the groups read,
whether they end in an embedded IPv4 address, and the unread input. -/
def readGroups (limit : Nat) : Nat → Nat → List Char → Nat × Bool × List Char
  | 0, index, input => (index, false, input)
  | slots + 1, index, input =>
      let embedded :=
        if index < limit - 1 then readSeparator ':' index readIpv4Addr input else none
      match embedded with
      | some rest => (index + 2, true, rest)
      | none =>
          match readSeparator ':' index (readNumber 16 4 65536 true) input with
          | some rest => readGroups limit slots (index + 1) rest
          | none => (index, false, input)

def readIpv6Addr (input : List Char) : Option (List Char) :=
  match readGroups 8 8 0 input with
  | (headSize, headIpv4, rest) =>
      if headSize = 8 then some rest
      else if headIpv4 then none
      else match rest with
        | ':' :: ':' :: tail =>
            let limit := 8 - (headSize + 1)
            some (readGroups limit limit 0 tail).2.2
        | _ => none

/-- `text.parse::<IpAddr>().is_ok()`: an address with no input left over. -/
def isIpAddr (text : List Char) : Bool :=
  match readIpv4Addr text with
  | some rest => rest.isEmpty
  | none =>
      match readIpv6Addr text with
      | some rest => rest.isEmpty
      | none => false

/-! ## Redaction -/

structure RedactionPolicy where
  commandArguments : Bool := true
  environmentVariables : Bool := true
  paths : Bool := true
  usernames : Bool := true
  ipAddresses : Bool := true
  sourceSnippets : Bool := true
  deriving DecidableEq, Repr

def sensitiveKey (key : String) (policy : RedactionPolicy) : Bool :=
  let key := toAsciiLowercase key
  (policy.commandArguments &&
      ["args", "argv", "command", "command_line", "cmdline"].contains key) ||
    (policy.environmentVariables &&
      ["env", "environ", "environment_variables"].contains key) ||
    (policy.paths && (key == "path" || endsWith key "_path" || endsWith key "_paths")) ||
    (policy.usernames && ["user", "username", "user_name", "login"].contains key) ||
    (policy.ipAddresses &&
      (["ip", "address", "remote_addr", "local_addr"].contains key || endsWith key "_ip")) ||
    (policy.sourceSnippets &&
      ["source", "snippet", "source_code", "code_snippet"].contains key)

/-- The text every redacted value is replaced by. -/
def redacted : String := "[REDACTED]"

/-- The punctuation trimmed from a word before it is inspected. -/
def isEnclosing (character : Char) : Bool :=
  [',', ';', '(', ')', '[', ']'].contains character

def containsPath (policy : RedactionPolicy) (text : String) : Bool :=
  policy.paths && (splitWhitespace text.toList).any fun part =>
    (trimMatches isEnclosing part).head? == some '/'

def containsIp (policy : RedactionPolicy) (text : String) : Bool :=
  policy.ipAddresses && (splitWhitespace text.toList).any fun part =>
    let candidate := trimMatches isEnclosing part
    isIpAddr candidate ||
      match rsplitOnce ':' candidate with
      | some (host, port) => (parseUnsigned (2 ^ 16) port).isSome && isIpAddr host
      | none => false

/-- The `Value::String` arm of `redact_value`. -/
def redactText (policy : RedactionPolicy) (text : String) : String :=
  if containsPath policy text || containsIp policy text then redacted else text

mutual

def redactValue (policy : RedactionPolicy) : Value → Value
  | .object fields => .object (redactFields policy fields)
  | .array items => .array (redactItems policy items)
  | .string text => .string (redactText policy text)
  | .null => .null
  | .bool value => .bool value
  | .number value => .number value

def redactItems (policy : RedactionPolicy) : List Value → List Value
  | [] => []
  | item :: rest => redactValue policy item :: redactItems policy rest

def redactFields (policy : RedactionPolicy) : List (String × Value) → List (String × Value)
  | [] => []
  | (key, child) :: rest =>
      (key, if sensitiveKey key policy then .string redacted else redactValue policy child) ::
        redactFields policy rest

end

theorem redactText_redacted (policy : RedactionPolicy) : redactText policy redacted = redacted := by
  unfold redactText
  split <;> rfl

theorem redactText_idempotent (policy : RedactionPolicy) (text : String) :
    redactText policy (redactText policy text) = redactText policy text := by
  by_cases hidden : (containsPath policy text || containsIp policy text) = true
  · have shown : redactText policy text = redacted := if_pos hidden
    rw [shown, redactText_redacted]
  · have shown : redactText policy text = text := if_neg hidden
    rw [shown, shown]

mutual

/-- A document that was redacted once has nothing left to redact. -/
theorem redactValue_idempotent (policy : RedactionPolicy) :
    ∀ value, redactValue policy (redactValue policy value) = redactValue policy value
  | .object fields => by
      simp only [redactValue, redactFields_idempotent policy fields]
  | .array items => by
      simp only [redactValue, redactItems_idempotent policy items]
  | .string text => by
      simp only [redactValue, redactText_idempotent]
  | .null => rfl
  | .bool _ => rfl
  | .number _ => rfl

theorem redactItems_idempotent (policy : RedactionPolicy) :
    ∀ items, redactItems policy (redactItems policy items) = redactItems policy items
  | [] => rfl
  | item :: rest => by
      simp only [redactItems, redactValue_idempotent policy item,
        redactItems_idempotent policy rest]

theorem redactFields_idempotent (policy : RedactionPolicy) :
    ∀ fields, redactFields policy (redactFields policy fields) = redactFields policy fields
  | [] => rfl
  | (key, child) :: rest => by
      by_cases sensitive : sensitiveKey key policy = true
      · simp only [redactFields, if_pos sensitive, redactFields_idempotent policy rest]
      · simp only [redactFields, if_neg sensitive, redactValue_idempotent policy child,
          redactFields_idempotent policy rest]

end

/-! ## Redaction of a string map -/

/-- What `redact_value` makes of one entry of a string map. -/
def redactAttribute (policy : RedactionPolicy) (key value : String) : String :=
  if sensitiveKey key policy then redacted else redactText policy value

/-- `serde_json::from_value::<BTreeMap<String, String>>`. -/
def stringMapOfValue : Value → Option StringMap
  | .object fields => do
      let entries ← fields.mapM fun field => field.2.asString.map fun text => (field.1, text)
      return Std.ExtTreeMap.ofList entries
  | _ => none

theorem redactFields_strings (policy : RedactionPolicy) (entries : List (String × String)) :
    redactFields policy (entries.map fun entry => (entry.1, .string entry.2)) =
      entries.map fun entry => (entry.1, .string (redactAttribute policy entry.1 entry.2)) := by
  induction entries with
  | nil => rfl
  | cons entry rest inductionHypothesis =>
      simp only [List.map_cons, redactFields, redactValue, inductionHypothesis, redactAttribute]
      split <;> rfl

theorem mapM_asString_strings (entries : List (String × String)) :
    (entries.map fun entry => (entry.1, Value.string entry.2)).mapM
        (fun field => field.2.asString.map fun text => (field.1, text)) =
      some entries := by
  induction entries with
  | nil => rfl
  | cons entry rest inductionHypothesis =>
      rw [List.map_cons, List.mapM_cons, inductionHypothesis]
      rfl

/-- Redacting the document of a string map and reading it back redacts each
entry by its own key and value. -/
theorem stringMapOfValue_redactValue (policy : RedactionPolicy) (entries : StringMap) :
    stringMapOfValue (redactValue policy (stringMapValue entries)) =
      some (entries.map (redactAttribute policy)) := by
  have fields :
      redactFields policy (entries.toList.map fun entry => (entry.1, .string entry.2)) =
        (entries.map (redactAttribute policy)).toList.map
          fun entry => (entry.1, .string entry.2) := by
    rw [redactFields_strings, Std.ExtTreeMap.toList_map, List.map_map]
    rfl
  simp only [stringMapValue, redactValue, fields, stringMapOfValue, mapM_asString_strings,
    Option.bind_eq_bind, Option.bind_some, SortedMap.ofList_toList, Option.pure_def]

example : redactValue {} (.object [("remote_ip", .string "10.0.0.7"),
      ("peer", .string "at [::1]:80"), ("safe", .string "kept")]) =
    .object [("remote_ip", .string redacted), ("peer", .string "at [::1]:80"),
      ("safe", .string "kept")] := by decide

end SystemPilot.Telemetry
