import SystemPilot.Telemetry.Config
import SystemPilot.Alert.Store

/-!
# Process alert rules at work

`ProcessAlertEngine`: the rules that were checked once, and the alerts they raise
for one lifecycle event, in the order of the rules.
-/

set_option autoImplicit false

namespace SystemPilot.Alert

open SystemPilot.Telemetry
open SystemPilot.Cloud (ProcessAlert)

/-- `ProcessAlertRule::matches`. -/
def matchesName (rule : ProcessAlertRule) (processName : String) : Bool :=
  rule.enabled && match rule.matchType with
    | .exact => processName == rule.processName
    | .prefixOf => rule.processName.toList.isPrefixOf processName.toList

structure ProcessAlertEngine where
  rules : List ProcessAlertRule
  checked : checkRules rules [] = .ok ()

def ProcessAlertEngine.new (rules : List ProcessAlertRule) : AppResult ProcessAlertEngine :=
  match checked : checkRules rules [] with
  | .ok () => .ok ⟨rules, checked⟩
  | .error failure => .error failure

def ProcessAlertEngine.evaluate (engine : ProcessAlertEngine) (processName : String)
    (pid ppid : Int) (eventType : String) (observedAtUnixNanos : Nat) : List ProcessAlert :=
  (engine.rules.filter fun rule => matchesName rule processName).map fun rule =>
    { ruleId := rule.id
      processName
      pid
      ppid
      eventType
      observedAtUnixNanos
      labels := rule.labels }

end SystemPilot.Alert
