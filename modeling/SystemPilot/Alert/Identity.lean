import SystemPilot.Alert.Engine
import SystemPilot.Alert.Lifecycle

/-!
# The identity of an alert

A record is stored under its rule and process name with a colon between them, and
its instance id is its rule and the time it was opened at with a hyphen between
them.  Neither text is escaped, so different alerts can share either.
-/

set_option autoImplicit false

namespace SystemPilot.Alert

open SystemPilot.Library
open SystemPilot.Telemetry
open SystemPilot.Cloud (ProcessAlert)

/-- The map in memory after a command, however its write ends. -/
def advance (store : AlertStore) (command : Command) : AlertStore :=
  match command.plan store with
  | .insert key record _ => store.insert key record
  | _ => store

theorem perform_store {Bytes : Type} (codec : StateCodec Bytes) (processId : Nat)
    (stop : Option (PersistStop Bytes)) (store : AlertStore) (files : AlertFiles Bytes)
    (command : Command) :
    (perform codec processId stop store files command).1 = advance store command := by
  unfold perform advance
  cases command.plan store <;> rfl

def emptyStore (path : String) : AlertStore where
  path
  state := { schemaVersion := alertStateSchemaVersion, records := ∅ }

/-- The alert that opens a key: the first that is no EXIT. -/
def openingOf (commands : List Command) (key : String) : Option ProcessAlert :=
  (commands.filterMap fun command => match command with
    | .apply alert => some alert
    | .setStatus _ _ _ _ => none).find? fun alert =>
      decide (alert.eventType ≠ "EXIT" ∧ alertKey alert.ruleId alert.processName = key)

/-- `format!("{}-{}", alert.rule_id, alert.observed_at_unix_nanos)`. -/
def instanceText (alert : ProcessAlert) : String :=
  alert.ruleId ++ "-" ++ toString alert.observedAtUnixNanos

def InstancesDistinct (store : AlertStore) : Prop :=
  ∀ (key other : String) (record otherRecord : AlertRecord),
    store.state.records[key]? = some record → store.state.records[other]? = some otherRecord →
    record.instanceId = otherRecord.instanceId → key = other

/-- The command meets no record of another alert, leaves instance ids that tell
the records apart, and changes the record it names. -/
structure Identified (store : AlertStore) (command : Command) : Prop where
  own : ∀ alert, command = .apply alert → ∀ record : AlertRecord,
    store.state.records[alertKey alert.ruleId alert.processName]? = some record →
      record.ruleId = alert.ruleId ∧ record.processName = alert.processName
  distinct : InstancesDistinct (advance store command)
  named : ∀ instanceId status detail observedAt,
    command = .setStatus instanceId status detail observedAt →
    ∀ (key : String) (record : AlertRecord), store.state.records[key]? = some record →
      record.instanceId = instanceId → store.findInstance instanceId = some (key, record)

/-- An alert whose key was opened before has the rule and the name that opened it. -/
def KeysTellApart (commands : List Command) : Prop :=
  ∀ before alert after, commands = before ++ .apply alert :: after →
    ∀ opening, openingOf before (alertKey alert.ruleId alert.processName) = some opening →
      opening.ruleId = alert.ruleId ∧ opening.processName = alert.processName

/-- No two keys were opened by alerts with one text of rule and time. -/
def TimesTellApart (commands : List Command) : Prop :=
  ∀ key other opening otherOpening, openingOf commands key = some opening →
    openingOf commands other = some otherOpening →
    instanceText opening = instanceText otherOpening → key = other

/-! ## Openings -/

theorem openingOf_append (first second : List Command) (key : String) :
    openingOf (first ++ second) key = (openingOf first key).or (openingOf second key) := by
  rw [openingOf, List.filterMap_append, List.find?_append]
  rfl

theorem openingOf_prefix {commands rest : List Command} {key : String} {opening : ProcessAlert}
    (found : openingOf commands key = some opening) :
    openingOf (commands ++ rest) key = some opening := by
  rw [openingOf_append, found]
  rfl

theorem openingOf_apply (alert : ProcessAlert) (key : String) :
    openingOf [.apply alert] key =
      if alert.eventType ≠ "EXIT" ∧ alertKey alert.ruleId alert.processName = key then some alert
      else none := by
  simp only [openingOf, List.filterMap_cons, List.filterMap_nil, List.find?_cons, List.find?_nil]
  split <;> simp_all

theorem run_concat (store : AlertStore) (commands : List Command) (command : Command) :
    Machine.run advance store (commands ++ [command]) =
      advance (Machine.run advance store commands) command := by
  rw [Machine.run_append]
  rfl

/-! ## What a command does to the map -/

/-- The record under the key of an applied alert. -/
theorem advance_apply_self (store : AlertStore) (alert : ProcessAlert) :
    let key := alertKey alert.ruleId alert.processName
    let existing := store.state.records[key]?
    (advance store (.apply alert)).state.records[key]? =
      if holdsStill existing (desiredStatus alert) then existing
      else some (nextRecord existing (desiredStatus alert) alert) := by
  dsimp only
  unfold advance Command.plan
  dsimp only
  split
  · rename_i key record answer planned
    split at planned
    · cases planned
    · rename_i moves
      cases planned
      rw [if_neg moves]
      exact Std.ExtTreeMap.getElem?_insert_self
  · rename_i still
    split at still
    · rename_i held
      rw [if_pos held]
    · exact absurd rfl (still _ _ _)

theorem advance_apply_other (store : AlertStore) (alert : ProcessAlert) {key : String}
    (other : alertKey alert.ruleId alert.processName ≠ key) :
    (advance store (.apply alert)).state.records[key]? = store.state.records[key]? := by
  unfold advance
  cases planned : Command.plan store (.apply alert) with
  | refused failure => rfl
  | unchanged => rfl
  | insert placed record answer =>
      obtain ⟨_, same, rfl, _⟩ | ⟨_, _, _, _, _, impossible, _⟩ := plan_cases planned
      · cases same
        exact records_insert_of_ne store record other
      · cases impossible

/-- A decision keeps what a record is about. -/
theorem advance_setStatus (store : AlertStore) (instanceId : String) (status : AlertStatus)
    (detail : String) (observedAt : Nat) (key : String) :
    let after := advance store (.setStatus instanceId status detail observedAt)
    (after.state.records[key]?).map (fun record =>
        (record.instanceId, record.ruleId, record.processName)) =
      (store.state.records[key]?).map fun record =>
        (record.instanceId, record.ruleId, record.processName) := by
  dsimp only
  unfold advance
  cases planned : Command.plan store (.setStatus instanceId status detail observedAt) with
  | refused failure => rfl
  | unchanged => rfl
  | insert placed record answer =>
      obtain ⟨_, impossible, _⟩ | ⟨_, _, _, _, old, _, found, _, rfl, _⟩ := plan_cases planned
      · cases impossible
      · obtain ⟨held, _⟩ := findInstance_some found
        dsimp only
        by_cases same : placed = key
        · subst same
          rw [AlertStore.insert, Std.ExtTreeMap.getElem?_insert_self, held]
          rfl
        · rw [records_insert_of_ne store _ same]

/-- The instance id of every record is the text of the alert that opened its key. -/
theorem instanceId_eq (path : String) (commands : List Command) (key : String) :
    ((Machine.run advance (emptyStore path) commands).state.records[key]?).map
        AlertRecord.instanceId =
      (openingOf commands key).map instanceText := by
  induction commands using List.reverseRecOn with
  | nil => simp [emptyStore, openingOf]
  | append_singleton commands command before =>
      rw [run_concat, openingOf_append]
      generalize Machine.run advance (emptyStore path) commands = store at before ⊢
      cases command with
      | setStatus instanceId status detail observedAt =>
          have kept := congrArg (Option.map Prod.fst)
            (advance_setStatus store instanceId status detail observedAt key)
          rw [Option.map_map, Option.map_map] at kept
          have none' : openingOf [.setStatus instanceId status detail observedAt] key = none := rfl
          rw [none', Option.or_none, ← before]
          exact kept
      | apply alert =>
          rw [openingOf_apply]
          by_cases same : alertKey alert.ruleId alert.processName = key
          · subst same
            rw [advance_apply_self]
            cases existing : store.state.records[alertKey alert.ruleId alert.processName]? with
            | some record =>
                rw [existing] at before
                obtain ⟨opening, found⟩ : ∃ opening, openingOf commands
                    (alertKey alert.ruleId alert.processName) = some opening := by
                  rw [← Option.isSome_iff_exists, ← Option.isSome_map (f := instanceText), ← before]
                  rfl
                rw [found] at before ⊢
                rw [Option.some_or, ← before]
                split <;> rfl
            | none =>
                rw [existing] at before
                have unopened : openingOf commands
                    (alertKey alert.ruleId alert.processName) = none := by
                  rw [← Option.map_eq_none_iff (f := instanceText), ← before]
                  rfl
                rw [unopened, Option.none_or]
                rcases desiredStatus_cases alert with ⟨exits, desired⟩ | ⟨lives, desired⟩
                · have shut : ¬(alert.eventType ≠ "EXIT" ∧
                      alertKey alert.ruleId alert.processName =
                        alertKey alert.ruleId alert.processName) := fun both => both.1 exits
                  rw [desired, if_neg shut]
                  rfl
                · have opens : alert.eventType ≠ "EXIT" ∧
                      alertKey alert.ruleId alert.processName =
                        alertKey alert.ruleId alert.processName := ⟨lives, rfl⟩
                  rw [desired, if_pos opens]
                  rfl
          · rw [advance_apply_other store alert same, if_neg (by simp [same]), Option.or_none,
              before]

/-- While the keys tell the alerts apart, a record has the rule and the name that
opened its key. -/
theorem record_opening (path : String) (commands : List Command) (apart : KeysTellApart commands)
    (key : String) (record : AlertRecord)
    (held : (Machine.run advance (emptyStore path) commands).state.records[key]? = some record) :
    ∃ opening, openingOf commands key = some opening ∧ opening.ruleId = record.ruleId ∧
      opening.processName = record.processName := by
  induction commands using List.reverseRecOn generalizing record with
  | nil => simp [emptyStore] at held
  | append_singleton commands command inductionHypothesis =>
      have earlier : KeysTellApart commands := by
        intro before alert after split
        exact apart before alert (after ++ [command]) (by rw [split]; simp)
      replace inductionHypothesis := inductionHypothesis earlier
      have opened := instanceId_eq path commands
      rw [run_concat] at held
      generalize Machine.run advance (emptyStore path) commands = store at *
      cases command with
      | setStatus instanceId status detail observedAt =>
          have kept := advance_setStatus store instanceId status detail observedAt key
          dsimp only at kept
          rw [held] at kept
          cases existing : store.state.records[key]? with
          | none =>
              rw [existing] at kept
              cases kept
          | some old =>
              rw [existing] at kept
              simp only [Option.map_some, Option.some.injEq, Prod.mk.injEq] at kept
              obtain ⟨opening, found, rule, name⟩ := inductionHypothesis old existing
              exact ⟨opening, openingOf_prefix found, rule.trans kept.2.1.symm,
                name.trans kept.2.2.symm⟩
      | apply alert =>
          by_cases same : alertKey alert.ruleId alert.processName = key
          · subst same
            rw [advance_apply_self] at held
            split at held
            · obtain ⟨opening, found, pair⟩ := inductionHypothesis record held
              exact ⟨opening, openingOf_prefix found, pair⟩
            · rename_i moves
              cases held
              cases found : openingOf commands (alertKey alert.ruleId alert.processName) with
              | some opening =>
                  refine ⟨opening, openingOf_prefix found, ?_⟩
                  exact apart commands alert [] rfl opening found
              | none =>
                  have absent := opened (alertKey alert.ruleId alert.processName)
                  rw [found, Option.map_none, Option.map_eq_none_iff] at absent
                  rw [absent] at moves
                  have lives : alert.eventType ≠ "EXIT" := by
                    rcases desiredStatus_cases alert with ⟨_, desired⟩ | ⟨lives, _⟩
                    · rw [desired] at moves
                      exact absurd rfl moves
                    · exact lives
                  refine ⟨alert, ?_, rfl, rfl⟩
                  rw [openingOf_append, found, openingOf_apply, if_pos ⟨lives, rfl⟩]
                  rfl
          · rw [advance_apply_other store alert same] at held
            obtain ⟨opening, found, pair⟩ := inductionHypothesis record held
            exact ⟨opening, openingOf_prefix found, pair⟩

/-! ## Runs that tell their alerts apart -/

theorem findInstance_of_distinct {store : AlertStore} (distinct : InstancesDistinct store)
    {key : String} {record : AlertRecord} (held : store.state.records[key]? = some record) :
    store.findInstance record.instanceId = some (key, record) := by
  cases found : store.findInstance record.instanceId with
  | none =>
      have none' := List.find?_eq_none.mp found (key, record)
        (Std.ExtTreeMap.mem_toList_iff_getElem?_eq_some.mpr held)
      simp at none'
  | some entry =>
      obtain ⟨other, otherRecord⟩ := entry
      obtain ⟨otherHeld, same⟩ := findInstance_some found
      obtain rfl := distinct other key otherRecord record otherHeld held same
      rw [held] at otherHeld
      cases otherHeld
      rfl

/-- The instance ids after some commands are distinct exactly when their keys
were opened by alerts of different texts. -/
theorem instancesDistinct_iff (path : String) (commands : List Command) :
    InstancesDistinct (Machine.run advance (emptyStore path) commands) ↔
      TimesTellApart commands := by
  have opened := instanceId_eq path commands
  constructor
  · intro distinct key other opening otherOpening found otherFound same
    have held := opened key
    have otherHeld := opened other
    rw [found, Option.map_some] at held
    rw [otherFound, Option.map_some] at otherHeld
    obtain ⟨record, atKey, first⟩ := Option.map_eq_some_iff.mp held
    obtain ⟨otherRecord, atOther, second⟩ := Option.map_eq_some_iff.mp otherHeld
    exact distinct key other record otherRecord atKey atOther (by rw [first, second, same])
  · intro apart key other record otherRecord held otherHeld same
    have first := opened key
    have second := opened other
    rw [held, Option.map_some] at first
    rw [otherHeld, Option.map_some] at second
    obtain ⟨opening, found, text⟩ := Option.map_eq_some_iff.mp first.symm
    obtain ⟨otherOpening, otherFound, otherText⟩ := Option.map_eq_some_iff.mp second.symm
    exact apart key other opening otherOpening found otherFound (by rw [text, otherText, same])

theorem timesTellApart_prefix {commands rest : List Command}
    (apart : TimesTellApart (commands ++ rest)) : TimesTellApart commands :=
  fun key other opening otherOpening found otherFound same =>
    apart key other opening otherOpening ( openingOf_prefix found) ( openingOf_prefix otherFound) same

/-- A run of commands tells its alerts apart exactly when no alert comes to a key
another alert opened, and no two keys were opened by one text of rule and time. -/
theorem alerts_identified_iff (path : String) (commands : List Command) :
    Machine.EveryStep advance Identified (emptyStore path) commands ↔
      KeysTellApart commands ∧ TimesTellApart commands := by
  have steps : Machine.EveryStep advance Identified (emptyStore path) commands ↔
      ∀ before command after, commands = before ++ command :: after →
        Identified (Machine.run advance (emptyStore path) before) command := by
    constructor
    · intro every before command after split
      exact every (_, command) ((Machine.mem_visited_iff _ _ _ _).mpr ⟨before, after, split, rfl⟩)
    · rintro each ⟨store, command⟩ visited
      obtain ⟨before, after, split, rfl⟩ := (Machine.mem_visited_iff _ _ _ _).mp visited
      exact each before command after split
  rw [steps]
  constructor
  · intro each
    have keys : KeysTellApart commands := by
      -- the commands before an alert are shorter, so their records have their openings' rules
      suffices shorter : ∀ taken rest, commands = taken ++ rest → KeysTellApart taken from
        shorter commands [] (by simp)
      intro taken
      induction taken using List.reverseRecOn with
      | nil =>
          intro _ _ before alert after split
          simp at split
      | append_singleton taken last inductionHypothesis =>
          intro rest whole before alert after split opening found
          have earlier := inductionHypothesis (last :: rest) (by rw [whole]; simp)
          rcases List.eq_nil_or_concat after with rfl | ⟨others, final, rfl⟩
          · obtain ⟨rfl, ends⟩ := List.append_inj' split rfl
            cases ends
            have identified := each taken (.apply alert) rest (by rw [whole]; simp)
            have held := instanceId_eq path taken (alertKey alert.ruleId alert.processName)
            rw [found, Option.map_some] at held
            obtain ⟨record, atKey, _⟩ := Option.map_eq_some_iff.mp held
            obtain ⟨other, same, rule, name⟩ := record_opening path taken earlier _ record atKey
            rw [found] at same
            cases same
            obtain ⟨ownRule, ownName⟩ := identified.own alert rfl record atKey
            exact ⟨rule.trans ownRule, name.trans ownName⟩
          · have inner : taken = before ++ .apply alert :: others := by
              have shape : taken ++ [last] = (before ++ .apply alert :: others) ++ [final] := by
                rw [split]
                simp
              exact (List.append_inj' shape rfl).1
            exact earlier before alert others inner opening found
    refine ⟨keys, ?_⟩
    rcases List.eq_nil_or_concat commands with rfl | ⟨before, last, rfl⟩
    · intro key other opening otherOpening found
      cases found
    · have identified := each before last [] (by simp)
      rw [List.concat_eq_append]
      refine (instancesDistinct_iff path _).mp ?_
      rw [run_concat]
      exact identified.distinct
  · rintro ⟨keys, times⟩ before command after split
    subst split
    have whole : before ++ command :: after = (before ++ [command]) ++ after := by simp
    constructor
    · rintro alert rfl record held
      have earlier : KeysTellApart before := by
        intro first other later shape
        exact keys first other (later ++ .apply alert :: after) (by rw [shape]; simp)
      obtain ⟨opening, found, rule, name⟩ := record_opening path before earlier _ record held
      obtain ⟨ownRule, ownName⟩ := keys before alert after rfl opening found
      exact ⟨rule.symm.trans ownRule, name.symm.trans ownName⟩
    · rw [← run_concat]
      rw [whole] at times
      exact (instancesDistinct_iff path _).mpr ( timesTellApart_prefix times)
    · rintro instanceId status detail observedAt _ key record held rfl
      exact findInstance_of_distinct
        ((instancesDistinct_iff path before).mpr ( timesTellApart_prefix times)) held

/-! ## Two workers of one rule -/

def prefixEngine : ProcessAlertEngine where
  rules := [{ id := "rule", processName := "worker", matchType := .prefixOf, enabled := true }]
  checked := rfl

def workerStarts (name : String) : ProcessAlert where
  ruleId := "rule"
  processName := name
  pid := 10
  ppid := 1
  eventType := "EXEC"
  observedAtUnixNanos := 5
  labels := ∅

/-- Two names a prefix rule matches at one time get one instance id. -/
theorem prefix_rule_shares_instance :
    prefixEngine.evaluate "worker-a" 10 1 "EXEC" 5 = [workerStarts "worker-a"] ∧
      prefixEngine.evaluate "worker-b" 10 1 "EXEC" 5 = [workerStarts "worker-b"] ∧
      ¬ Machine.EveryStep advance Identified (emptyStore "alerts-v1.json")
        [.apply (workerStarts "worker-a"), .apply (workerStarts "worker-b")] := by
  refine ⟨by decide +kernel, by decide +kernel, fun every => ?_⟩
  have last := every (_, .apply (workerStarts "worker-b")) (List.mem_cons_of_mem _ List.mem_cons_self)
  have apart := (instancesDistinct_iff "alerts-v1.json"
    [.apply (workerStarts "worker-a"), .apply (workerStarts "worker-b")]).mp last.distinct
  have same := apart "rule:worker-a" "rule:worker-b" _ _ rfl rfl rfl
  exact absurd same (by decide)

end SystemPilot.Alert
