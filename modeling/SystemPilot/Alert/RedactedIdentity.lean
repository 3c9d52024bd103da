import SystemPilot.Alert.Document
import SystemPilot.Alert.Identity
import SystemPilot.Telemetry.Projection

/-!
# The identity of a redacted alert

Redaction looks at texts and not at what they are for.  The published document
always decodes; its rule id and its instance id are the agent's exactly when
neither holds a word the policy redacts.
-/

set_option autoImplicit false

namespace SystemPilot.Alert

open SystemPilot.Json
open SystemPilot.Library
open SystemPilot.Telemetry
open SystemPilot.Text
open SystemPilot.Cloud

/-! ## The document after redaction -/

theorem le_default (policy : RedactionPolicy) : policy ≤ {} :=
  ⟨Bool.le_true _, Bool.le_true _, Bool.le_true _, Bool.le_true _, Bool.le_true _, Bool.le_true _⟩

/-- No policy hides a key the default shows. -/
theorem sensitiveKey_of_default {key : String} (shown : sensitiveKey key {} = false)
    (policy : RedactionPolicy) : sensitiveKey key policy = false := by
  cases sensitive : sensitiveKey key policy with
  | false => rfl
  | true =>
      rw [sensitiveKey_mono (le_default policy) sensitive] at shown
      cases shown

/-- What the collector reads of a redacted alert. -/
def redactAlert (policy : RedactionPolicy) (alert : ProcessAlert) : ProcessAlert where
  instanceId := redactText policy alert.instanceId
  state := redactText policy alert.state
  previousState := alert.previousState.map (redactText policy)
  ruleId := redactText policy alert.ruleId
  processName := redactText policy alert.processName
  pid := alert.pid
  ppid := alert.ppid
  eventType := redactText policy alert.eventType
  observedAtUnixNanos := alert.observedAtUnixNanos
  labels := alert.labels.map (redactAttribute policy)

theorem redactValue_optionalText (policy : RedactionPolicy) (text : Option String) :
    redactValue policy (optionalText text) = optionalText (text.map (redactText policy)) := by
  cases text <;> rfl

theorem redactValue_integerValue (policy : RedactionPolicy) (value : Int) :
    redactValue policy (integerValue value) = integerValue value := rfl

/-- The redacted document of an alert decodes. -/
theorem fromValue_redactValue (policy : RedactionPolicy) {alert : ProcessAlert}
    (fits : alert.Fits) :
    ProcessAlert.fromValue (redactValue policy alert.toValue) = some (redactAlert policy alert) := by
  have shown : ∀ key ∈ ["event_type", "instance_id", "labels", "observed_at_unix_nanos", "pid",
      "ppid", "previous_state", "process_name", "rule_id", "state"],
      sensitiveKey key policy = false := by
    intro key known
    have every : ∀ key ∈ ["event_type", "instance_id", "labels", "observed_at_unix_nanos", "pid",
        "ppid", "previous_state", "process_name", "rule_id", "state"],
        sensitiveKey key {} = false := by decide
    exact sensitiveKey_of_default (every key known) policy
  simp only [List.forall_mem_cons, List.not_mem_nil, false_imp_iff, implies_true, and_true] at shown
  obtain ⟨event, identity, labels, observed, pid, ppid, previous, name, rule, state⟩ := shown
  have observedReads : (Value.number (.posInt alert.observedAtUnixNanos)).asU64 =
      some alert.observedAtUnixNanos := if_pos fits.observed
  simp only [ProcessAlert.toValue, redactValue, redactFields, event, identity, labels, observed,
    pid, ppid, previous, name, rule, state, Bool.false_eq_true, if_false,
    redactValue_optionalText, redactValue_integerValue]
  simp [ProcessAlert.fromValue, optionalField, requiredField, List.lookup_cons, Value.asString,
    stringMapOfValue_redactValue, asI32_integerValue fits.pid.1 fits.pid.2,
    asI32_integerValue fits.ppid.1 fits.ppid.2, observedReads, redactAlert]

/-! ## Emitted alerts -/

/-- The alert is applied after these commands, and this is what `apply` returns. -/
def Emits (path : String) (commands before : List Command) (alert emitted : ProcessAlert) : Prop :=
  (∃ after, commands = before ++ .apply alert :: after) ∧
    ∃ fault file store written,
      (Machine.run advance (emptyStore path) before).apply alert fault file =
        (store, written, .ok (some emitted))

/-- What `apply` fills in. -/
structure FilledIn (before : List Command) (alert emitted : ProcessAlert) : Prop where
  rule : emitted.ruleId = alert.ruleId
  state : emitted.state = "firing" ∨ emitted.state = "resolved"
  identity : ∃ opening,
    openingOf (before ++ [.apply alert]) (alertKey alert.ruleId alert.processName) = some opening ∧
      emitted.instanceId = instanceText opening
  fits : alert.Fits → emitted.Fits

theorem Emits.filledIn {path : String} {commands before : List Command}
    {alert emitted : ProcessAlert} (emits : Emits path commands before alert emitted) :
    FilledIn before alert emitted := by
  obtain ⟨-, fault, file, store, written, applied⟩ := emits
  have opened := instanceId_eq path (before ++ [.apply alert])
    (alertKey alert.ruleId alert.processName)
  rw [run_concat, advance_apply_self] at opened
  generalize Machine.run advance (emptyStore path) before = held at applied opened
  unfold AlertStore.apply at applied
  dsimp only at applied
  split at applied
  · cases applied
  · rename_i moves
    rw [if_neg moves, Option.map_some] at opened
    obtain ⟨opening, found, text⟩ := Option.map_eq_some_iff.mp opened.symm
    cases fault with
    | some fault => cases applied
    | none =>
        cases applied
        refine ⟨rfl, ?_, ⟨opening, found, text.symm⟩, fun fits => ⟨fits.pid, fits.ppid, fits.observed⟩⟩
        rcases desiredStatus_cases alert with ⟨-, desired⟩ | ⟨-, desired⟩ <;> rw [desired]
        · exact .inr rfl
        · exact .inl rfl

/-! ## Identities in the cloud -/

/-- The published document passes the checks of `materialize_alert` with the
identity and the state of the emitted alert. -/
def IdentitySurvives (policy : RedactionPolicy) (emitted : ProcessAlert) : Prop :=
  ∃ decoded, ProcessAlert.fromValue (redactValue policy emitted.toValue) = some decoded ∧
    decoded.instanceId = emitted.instanceId ∧ decoded.ruleId = emitted.ruleId ∧
    decoded.state = emitted.state ∧
    ∀ record : TelemetryEnvelope, record.payload = redactValue policy emitted.toValue →
      checkAlert record = (UnixTimestamp.fromNanos decoded.observedAtUnixNanos).map
        fun observed => (decoded, observed)

/-- Every emitted alert keeps its identity, and different instances stay different. -/
structure IdentitiesSurvive (policy : RedactionPolicy) (path : String) (commands : List Command) :
    Prop where
  each : ∀ before alert emitted, Emits path commands before alert emitted →
    IdentitySurvives policy emitted
  apart : ∀ before alert emitted otherBefore other otherEmitted,
    Emits path commands before alert emitted →
    Emits path commands otherBefore other otherEmitted →
    emitted.instanceId ≠ otherEmitted.instanceId →
    ∀ decoded otherDecoded,
      ProcessAlert.fromValue (redactValue policy emitted.toValue) = some decoded →
      ProcessAlert.fromValue (redactValue policy otherEmitted.toValue) = some otherDecoded →
      decoded.instanceId ≠ otherDecoded.instanceId

/-- No word of the text is one the policy redacts it for. -/
def PlainText (policy : RedactionPolicy) (text : String) : Prop :=
  ∀ word ∈ splitWhitespace text.toList, ¬ WordSeen policy word

/-- The rule of every emitted alert, and the rule and time that opened its
record, are plain texts. -/
def PlainIdentities (policy : RedactionPolicy) (path : String) (commands : List Command) : Prop :=
  ∀ before alert emitted, Emits path commands before alert emitted →
    PlainText policy alert.ruleId ∧
      ∀ opening, openingOf (before ++ [.apply alert]) (alertKey alert.ruleId alert.processName) =
        some opening → PlainText policy (instanceText opening)

/-- The alert comes from a rule `validate` accepts. -/
def FromAcceptedRule (alert : ProcessAlert) : Prop :=
  ∃ rule : ProcessAlertRule, rule.validate = .ok () ∧ alert.ruleId = rule.id

theorem FromAcceptedRule.not_blank {alert : ProcessAlert} (accepted : FromAcceptedRule alert) :
    isBlank alert.ruleId = false := by
  obtain ⟨rule, valid, same⟩ := accepted
  rw [same]
  unfold ProcessAlertRule.validate at valid
  split at valid
  · cases valid
  · rename_i filled
    simp only [Bool.or_eq_true, not_or, Bool.not_eq_true] at filled
    exact filled.1

theorem plainText_iff (policy : RedactionPolicy) (text : String) :
    PlainText policy text ↔ ¬ HasToken policy text := by
  rw [hasToken_iff]
  simp only [PlainText, not_exists, not_and]

theorem plainText_of_default {text : String} (plain : ¬ HasToken {} text)
    (policy : RedactionPolicy) : PlainText policy text := by
  rw [plainText_iff]
  exact fun token => plain (token.mono (le_default policy))

theorem redactText_eq_self_iff (policy : RedactionPolicy) (text : String) :
    redactText policy text = text ↔ PlainText policy text := by
  constructor
  · intro same
    by_cases token : HasToken policy text
    · -- Only the replacement is left when there was a token, and it holds none.
      rw [redactText_of_token token] at same
      rw [← same]
      exact plainText_of_default (by decide) policy
    · exact (plainText_iff policy text).mpr token
  · intro plain
    exact redactText_of_no_token ((plainText_iff policy text).mp plain)

theorem instanceText_not_blank (alert : ProcessAlert) : isBlank (instanceText alert) = false := by
  rw [← Bool.not_eq_true, isBlank_iff]
  intro blank
  have hyphen : '-' ∈ (instanceText alert).toList := by simp [instanceText]
  exact absurd (blank '-' hyphen) (by decide)

/-- An emitted alert keeps its identity exactly when redaction leaves both texts. -/
theorem identitySurvives_iff (policy : RedactionPolicy) {path : String}
    {commands before : List Command} {alert emitted : ProcessAlert}
    (emits : Emits path commands before alert emitted) (fits : alert.Fits)
    (accepted : FromAcceptedRule alert) :
    IdentitySurvives policy emitted ↔
      redactText policy emitted.ruleId = emitted.ruleId ∧
        redactText policy emitted.instanceId = emitted.instanceId := by
  have filled := emits.filledIn
  have decodes := fromValue_redactValue policy (filled.fits fits)
  have state : redactText policy emitted.state = emitted.state := by
    rw [redactText_eq_self_iff]
    rcases filled.state with firing | resolved
    · rw [firing]
      exact plainText_of_default (by decide) policy
    · rw [resolved]
      exact plainText_of_default (by decide) policy
  constructor
  · rintro ⟨decoded, found, identity, rule, -, -⟩
    rw [decodes] at found
    cases found
    exact ⟨rule, identity⟩
  · rintro ⟨rule, identity⟩
    refine ⟨redactAlert policy emitted, decodes, identity, rule, state, ?_⟩
    intro record payload
    have identityFilled : isBlank (redactAlert policy emitted).instanceId = false := by
      obtain ⟨opening, -, text⟩ := filled.identity
      change isBlank (redactText policy emitted.instanceId) = false
      rw [identity, text, instanceText_not_blank]
    have ruleFilled : isBlank (redactAlert policy emitted).ruleId = false := by
      change isBlank (redactText policy emitted.ruleId) = false
      rw [rule, filled.rule, accepted.not_blank]
    have known : isAlertState (redactAlert policy emitted).state = true := by
      change isAlertState (redactText policy emitted.state) = true
      rw [state]
      rcases filled.state with firing | resolved
      · rw [firing]
        rfl
      · rw [resolved]
        rfl
    rw [checkAlert, payload, decodes]
    simp only [identityFilled, ruleFilled, known, Bool.or_self, Bool.not_true,
      Bool.false_eq_true, if_false]
    cases UnixTimestamp.fromNanos (redactAlert policy emitted).observedAtUnixNanos <;> rfl

/-- Alerts keep their identities in the cloud exactly when the identities hold
nothing that looks like a path or an address. -/
theorem identities_survive_iff (policy : RedactionPolicy) (path : String)
    (commands : List Command)
    (accepted : ∀ alert, .apply alert ∈ commands → FromAcceptedRule alert ∧ alert.Fits) :
    IdentitiesSurvive policy path commands ↔ PlainIdentities policy path commands := by
  have applied : ∀ {before alert emitted}, Emits path commands before alert emitted →
      FromAcceptedRule alert ∧ alert.Fits := by
    rintro before alert emitted ⟨⟨after, rfl⟩, -⟩
    exact accepted alert (by simp)
  constructor
  · intro survive before alert emitted emits
    obtain ⟨rule, identity⟩ := (identitySurvives_iff policy emits (applied emits).2
      (applied emits).1).mp (survive.each before alert emitted emits)
    obtain ⟨opening, found, text⟩ := emits.filledIn.identity
    rw [emits.filledIn.rule, redactText_eq_self_iff] at rule
    rw [text, redactText_eq_self_iff] at identity
    refine ⟨rule, fun other same => ?_⟩
    rw [found] at same
    cases same
    exact identity
  · intro plain
    have kept : ∀ before alert emitted, Emits path commands before alert emitted →
        redactText policy emitted.ruleId = emitted.ruleId ∧
          redactText policy emitted.instanceId = emitted.instanceId := by
      intro before alert emitted emits
      obtain ⟨rule, identity⟩ := plain before alert emitted emits
      obtain ⟨opening, found, text⟩ := emits.filledIn.identity
      rw [redactText_eq_self_iff, redactText_eq_self_iff, emits.filledIn.rule, text]
      exact ⟨rule, identity opening found⟩
    refine ⟨?each, ?apart⟩
    case each =>
      intro before alert emitted emits
      exact (identitySurvives_iff policy emits (applied emits).2 (applied emits).1).mpr
        (kept before alert emitted emits)
    case apart =>
      intro before alert emitted otherBefore other otherEmitted emits otherEmits different
        decoded otherDecoded found otherFound
      rw [fromValue_redactValue policy (emits.filledIn.fits (applied emits).2)] at found
      rw [fromValue_redactValue policy (otherEmits.filledIn.fits (applied otherEmits).2)]
        at otherFound
      cases found
      cases otherFound
      have first := (kept before alert emitted emits).2
      have second := (kept otherBefore other otherEmitted otherEmits).2
      intro same
      apply different
      rw [← first, ← second]
      exact same

/-! ## Rules named after paths -/

def fileRule (name : String) : ProcessAlertRule where
  id := "/etc/" ++ name
  processName := name

def fileAlert (name : String) : ProcessAlert where
  ruleId := "/etc/" ++ name
  processName := name
  pid := 10
  ppid := 1
  eventType := "EXEC"
  observedAtUnixNanos := 5
  labels := ∅

/-- Two rules named after files have one instance in the cloud. -/
theorem file_rules_merge :
    (fileRule "a").validate = .ok () ∧ (fileRule "b").validate = .ok () ∧
      ¬ IdentitiesSurvive {} "alerts-v1.json" [.apply (fileAlert "a"), .apply (fileAlert "b")] := by
  refine ⟨rfl, rfl, fun survive => ?_⟩
  have first : Emits "alerts-v1.json" [.apply (fileAlert "a"), .apply (fileAlert "b")] []
      (fileAlert "a") { fileAlert "a" with instanceId := "/etc/a-5", state := "firing" } :=
    ⟨⟨_, rfl⟩, none, .absent, _, _, rfl⟩
  have second : Emits "alerts-v1.json" [.apply (fileAlert "a"), .apply (fileAlert "b")]
      [.apply (fileAlert "a")] (fileAlert "b")
      { fileAlert "b" with instanceId := "/etc/b-5", state := "firing" } :=
    ⟨⟨[], rfl⟩, none, .absent, _, _, rfl⟩
  have fits : ∀ name identity, ProcessAlert.Fits
      { fileAlert name with instanceId := identity, state := "firing" } := by
    intro name identity
    refine ⟨?_, ?_, ?_⟩ <;> norm_num [fileAlert]
  refine survive.apart _ _ _ _ _ _ first second (by decide) _ _
    (fromValue_redactValue {} (fits "a" "/etc/a-5")) (fromValue_redactValue {} (fits "b" "/etc/b-5")) ?_
  decide

/-- A rule with a plain name keeps its identity. -/
theorem plain_rule_survives :
    IdentitiesSurvive {} "alerts-v1.json" [.apply (workerStarts "worker")] := by
  refine (identities_survive_iff {} "alerts-v1.json" [.apply (workerStarts "worker")] ?_).mpr ?_
  · intro alert member
    cases List.mem_singleton.mp member
    exact ⟨⟨{ id := "rule", processName := "worker" }, rfl, rfl⟩,
      ⟨by decide, by decide⟩, ⟨by decide, by decide⟩, by decide⟩
  · rintro before alert emitted ⟨⟨after, split⟩, -⟩
    cases before with
    | nil =>
        cases split
        refine ⟨plainText_of_default (by decide) {}, fun opening found => ?_⟩
        have opens : openingOf [.apply (workerStarts "worker")] (alertKey "rule" "worker") =
            some (workerStarts "worker") := rfl
        cases opens.symm.trans found
        exact plainText_of_default (by decide) {}
    | cons command before => simp at split

end SystemPilot.Alert
