import SystemPilot.Cloud.Ingest
import SystemPilot.Alert.Store

/-!
# The document of an alert

`serde_json::to_value` of a `ProcessAlert`, and that the collector reads back the
alert it came from.
-/

set_option autoImplicit false

namespace SystemPilot.Cloud

open SystemPilot.Json
open SystemPilot.Telemetry

/-- `serde_json::to_value` of a signed integer. -/
def integerValue (value : Int) : Value :=
  .number (if 0 ≤ value then .posInt value.toNat else .negInt value)

theorem asI32_integerValue {value : Int} (low : -(2 ^ 31) ≤ value) (high : value < 2 ^ 31) :
    (integerValue value).asI32 = some value := by
  unfold integerValue
  split
  · have small : value.toNat < 2 ^ 31 := by omega
    simp only [Value.asI32, if_pos small, Option.some.injEq, Int.ofNat_eq_natCast]
    omega
  · simp only [Value.asI32, if_pos (And.intro low high)]

def optionalText : Option String → Value
  | none => .null
  | some text => .string text

@[simp] theorem asOptionalString_optionalText (text : Option String) :
    asOptionalString (optionalText text) = some text := by
  cases text <;> rfl

namespace ProcessAlert

/-- `serde_json::to_value` of an alert, its fields in the order of the map. -/
def toValue (alert : ProcessAlert) : Value :=
  .object [
    ("event_type", .string alert.eventType),
    ("instance_id", .string alert.instanceId),
    ("labels", stringMapValue alert.labels),
    ("observed_at_unix_nanos", .number (.posInt alert.observedAtUnixNanos)),
    ("pid", integerValue alert.pid),
    ("ppid", integerValue alert.ppid),
    ("previous_state", optionalText alert.previousState),
    ("process_name", .string alert.processName),
    ("rule_id", .string alert.ruleId),
    ("state", .string alert.state)]

/-- The integers of the alert are of the widths of its fields. -/
structure Fits (alert : ProcessAlert) : Prop where
  pid : -(2 ^ 31) ≤ alert.pid ∧ alert.pid < 2 ^ 31
  ppid : -(2 ^ 31) ≤ alert.ppid ∧ alert.ppid < 2 ^ 31
  observed : alert.observedAtUnixNanos < 2 ^ 64

end ProcessAlert

end SystemPilot.Cloud
