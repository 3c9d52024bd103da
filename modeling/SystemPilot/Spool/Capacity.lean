import Mathlib.Tactic
import SystemPilot.Library.Machine
import SystemPilot.Spool.PendingOrder

/-!
# The capacity of the spool

Every call on one spool with every file operation that can fail.  The size of
the records stays within the limit, and `append` adds one record or none, unless
the existence check of a record that is there fails or the sizes do not fit the
counter they are added up in.
-/

set_option autoImplicit false

namespace SystemPilot.Spool

open SystemPilot.Library
open SystemPilot.Telemetry

/-! ## Appending with every fault -/

/-- The operations of `append` that can fail.  A record without a readable
modification time is not checked for its age, and `exists` answers no when it
cannot look. -/
structure AppendFaults where
  spool : Faults := {}
  clock : Bool := false
  inspectRecord : String → Bool := fun _ => false
  undated : String → Bool := fun _ => false
  listQuarantine : Bool := false
  lookup : Bool := false

section Append

variable {Bytes : Type} (codec : Codec Bytes) (spool : DiskSpool)

/-- The loop of `stats_unlocked` where each record can fail to be inspected. -/
def inspectLoop (faults : AppendFaults) (clock : Nat) (records : Directory Bytes) :
    List String → SpoolStats → AppResult SpoolStats
  | [], stats => .ok stats
  | path :: rest, stats =>
      match records[path]?, faults.inspectRecord path with
      | none, _ | some _, true => .error (.io "could not inspect spool record")
      | some file, false =>
          if faults.undated path = false ∧ clock - file.modified > spool.maxAgeSecs then
            .error (.protocol ("telemetry spool contains expired record " ++ path ++
              "; operator action required"))
          else
            inspectLoop faults clock records rest
              { stats with
                records := stats.records + 1
                bytes := saturatingAdd stats.bytes (codec.len file.content) }

/-- `stats_unlocked`. -/
def inspect (faults : AppendFaults) (clock : Nat) (files : SpoolFiles Bytes) :
    AppResult SpoolStats :=
  if faults.clock then
    .error (.validation
      "system clock precedes Unix epoch: second time provided was later than self")
  else if faults.spool.listRecords then .error (.io "could not read telemetry spool")
  else do
    let counted ←
      inspectLoop codec spool faults clock files.records (recordPaths files.records) ⟨0, 0, 0⟩
    if faults.listQuarantine then throw (.io "could not read spool quarantine")
    return { counted with quarantined := files.quarantine.size }

def appendUnder (faults : AppendFaults) (clock : Nat) (files : SpoolFiles Bytes)
    (envelope : TelemetryEnvelope) : SpoolFiles Bytes × Outcome Unit :=
  match encodeJson codec envelope with
  | .error failure => (files, .error failure)
  | .ok bytes =>
      match inspect codec spool faults clock files with
      | .error failure => (files, .error failure)
      | .ok current =>
          if spool.maxBytes < saturatingAdd current.bytes (codec.len bytes) then
            (files, .error (.protocol ("telemetry spool is full (" ++
              toString spool.maxBytes ++ " byte limit)")))
          else
            let path := recordName envelope.sequence
            if faults.lookup = false ∧ path ∈ files.records then
              (files, .error (.protocol ("telemetry sequence " ++
                toString envelope.sequence ++ " already exists in spool")))
            else
              match atomicWrite spool.processId clock faults.spool.write files.records path bytes with
              | (records, outcome) => ({ files with records }, outcome)

theorem inspectLoop_plain (faults : Faults) (clock : Nat) (records : Directory Bytes)
    (paths : List String) (counted : SpoolStats) :
    inspectLoop codec spool { spool := faults } clock records paths counted =
      statsLoop codec spool clock records paths counted := by
  induction paths generalizing counted with
  | nil => rfl
  | cons path rest inductionHypothesis =>
      rw [inspectLoop, statsLoop]
      cases records[path]? with
      | none => rfl
      | some file => simp only [true_and, inductionHypothesis]

theorem inspect_plain (faults : Faults) (clock : Nat) (files : SpoolFiles Bytes) :
    inspect codec spool { spool := faults } clock files = stats codec spool faults clock files := by
  simp only [inspect, stats, Bool.false_eq_true, if_false, inspectLoop_plain]

/-- Without the further faults this is `append`. -/
theorem appendUnder_plain (faults : Faults) (clock : Nat) (files : SpoolFiles Bytes)
    (envelope : TelemetryEnvelope) :
    appendUnder codec spool { spool := faults } clock files envelope =
      append codec spool faults clock files envelope := by
  simp only [appendUnder, append, inspect_plain, true_and]
  all_goals rfl

end Append

/-! ## The size of the records -/

section Size

variable {Bytes : Type} (codec : Codec Bytes)

/-- The size of one file, as `stats_unlocked` adds it. -/
def sizeAt (records : Directory Bytes) (path : String) : Nat :=
  (records[path]?).elim 0 fun file => codec.len file.content

def totalBytes (records : Directory Bytes) : Nat :=
  ((recordPaths records).map (sizeAt codec records)).sum

/-- Fewer records are no larger. -/
theorem totalBytes_le {before after : Directory Bytes}
    (kept : ∀ (path : String) (file : StoredFile Bytes), isRecordName path = true →
      after[path]? = some file → before[path]? = some file) :
    totalBytes codec after ≤ totalBytes codec before := by
  have sizes : (recordPaths after).map (sizeAt codec after) =
      (recordPaths after).map (sizeAt codec before) := by
    apply List.map_congr_left
    intro path listed
    obtain ⟨named, file, found⟩ := (mem_recordPaths after path).mp listed
    rw [sizeAt, sizeAt, found, kept path file named found]
  have part : (recordPaths after).Subperm (recordPaths before) := by
    apply (recordPaths_nodup after).subperm
    intro path listed
    obtain ⟨named, file, found⟩ := (mem_recordPaths after path).mp listed
    exact (mem_recordPaths before path).mpr ⟨named, file, kept path file named found⟩
  obtain ⟨shuffled, same, sublist⟩ := part
  rw [totalBytes, totalBytes, sizes, ← (same.map (sizeAt codec before)).sum_eq]
  exact (sublist.map (sizeAt codec before)).sum_le_sum fun _ _ => Nat.zero_le _

theorem totalBytes_insert_fresh {records : Directory Bytes} {name : String}
    (file : StoredFile Bytes) (named : isRecordName name = true) (fresh : records[name]? = none) :
    totalBytes codec (records.insert name file) = codec.len file.content + totalBytes codec records := by
  have shuffled : (recordPaths (records.insert name file)).Perm (name :: recordPaths records) := by
    apply (List.perm_ext_iff_of_nodup (recordPaths_nodup _) ?_).mpr
    · intro path
      rw [List.mem_cons, mem_recordPaths, mem_recordPaths, SortedMap.getElem?_insert]
      by_cases same : name = path
      · subst same
        simp [named]
      · simp [same, Ne.symm same]
    · rw [List.nodup_cons]
      refine ⟨fun listed => ?_, recordPaths_nodup records⟩
      obtain ⟨-, held, found⟩ := (mem_recordPaths records name).mp listed
      rw [fresh] at found
      cases found
  have others : (recordPaths records).map (sizeAt codec (records.insert name file)) =
      (recordPaths records).map (sizeAt codec records) := by
    apply List.map_congr_left
    intro path listed
    obtain ⟨-, held, found⟩ := (mem_recordPaths records path).mp listed
    have apart : name ≠ path := by
      rintro rfl
      rw [fresh] at found
      cases found
    rw [sizeAt, sizeAt, SortedMap.getElem?_insert_of_ne _ _ apart]
  have own : sizeAt codec (records.insert name file) name = codec.len file.content := by
    rw [sizeAt, SortedMap.getElem?_insert, if_pos rfl]
    rfl
  rw [totalBytes, (shuffled.map _).sum_eq, List.map_cons, List.sum_cons, others, own, totalBytes]

variable (spool : DiskSpool)

/-- The largest value of the counter. -/
def counterLimit : Nat := 2 ^ 64 - 1

theorem saturatingAdd_saturated (sum size : Nat) :
    saturatingAdd (min sum counterLimit) size = min (sum + size) counterLimit := by
  rw [saturatingAdd, counterLimit]
  omega

/-- The counted bytes are the size of the records, as far as the counter reaches. -/
theorem inspectLoop_bytes (faults : AppendFaults) (clock : Nat) (records : Directory Bytes)
    (paths : List String) (sum : Nat) (counted result : SpoolStats)
    (bytes : counted.bytes = min sum counterLimit)
    (inspected : inspectLoop codec spool faults clock records paths counted = .ok result) :
    result.bytes = min (sum + (paths.map (sizeAt codec records)).sum) counterLimit := by
  induction paths generalizing sum counted with
  | nil =>
      cases inspected
      exact bytes
  | cons path rest inductionHypothesis =>
      rw [inspectLoop] at inspected
      split at inspected
      · cases inspected
      · cases inspected
      · rename_i file found readable
        split at inspected
        · cases inspected
        · have size : sizeAt codec records path = codec.len file.content := by
            rw [sizeAt, found]
            rfl
          have later := inductionHypothesis (sum + codec.len file.content) _ ?_ inspected
          · rw [later, List.map_cons, List.sum_cons, size, Nat.add_assoc]
          · simp only [bytes]
            exact saturatingAdd_saturated sum (codec.len file.content)

theorem inspect_bytes {faults : AppendFaults} {clock : Nat} {files : SpoolFiles Bytes}
    {counted : SpoolStats} (inspected : inspect codec spool faults clock files = .ok counted) :
    counted.bytes = min (totalBytes codec files.records) counterLimit := by
  rw [inspect] at inspected
  split at inspected
  · cases inspected
  · split at inspected
    · cases inspected
    · cases loop : inspectLoop codec spool faults clock files.records (recordPaths files.records)
          ⟨0, 0, 0⟩ with
      | error failure =>
          rw [loop] at inspected
          cases inspected
      | ok result =>
          have bytes := inspectLoop_bytes codec spool faults clock files.records _ 0 _ result
            rfl loop
          rw [loop] at inspected
          simp only [bind, Except.bind] at inspected
          split at inspected
          · cases inspected
          · cases inspected
            simpa [totalBytes] using bytes

end Size

/-! ## Runs -/

inductive SpoolCall where
  | append (faults : AppendFaults) (clock : Nat) (envelope : TelemetryEnvelope)
  | pending (faults : Faults) (limit : Nat)
  | acknowledge (faults : Faults) (records : List TelemetryEnvelope)

section Runs

variable {Bytes : Type} (codec : Codec Bytes) (spool : DiskSpool)

/-- The files after a call. -/
def callStep (files : SpoolFiles Bytes) : SpoolCall → SpoolFiles Bytes
  | .append faults clock envelope => (appendUnder codec spool faults clock files envelope).1
  | .pending faults limit => (Spool.pending codec faults limit files).1
  | .acknowledge faults records => (Spool.acknowledge faults records files).1

/-- A call keeps the limit; an append adds one record for `Ok` and changes no
record for an error. -/
structure CapacityKept (files : SpoolFiles Bytes) (call : SpoolCall) : Prop where
  bounded : totalBytes codec (callStep codec spool files call).records ≤ spool.maxBytes
  added : ∀ faults clock envelope, call = .append faults clock envelope →
    (appendUnder codec spool faults clock files envelope).2 = .ok () →
      encodeJson codec envelope = .ok (codec.toVec envelope) ∧
      files.records[recordName envelope.sequence]? = none ∧
      (appendUnder codec spool faults clock files envelope).1 =
        { files with records :=
            files.records.insert (recordName envelope.sequence) ⟨codec.toVec envelope, clock⟩ }
  unchanged : ∀ faults clock envelope failure, call = .append faults clock envelope →
    (appendUnder codec spool faults clock files envelope).2 = .error failure →
      ∀ path, isRecordName path = true →
        (appendUnder codec spool faults clock files envelope).1.records[path]? =
          files.records[path]?

/-- The append passes every check but the one for an existing record, and its
write succeeds. -/
def ReachesDisk (files : SpoolFiles Bytes) (faults : AppendFaults) (clock : Nat)
    (envelope : TelemetryEnvelope) : Prop :=
  envelope.Valid ∧
    (∃ counted, inspect codec spool faults clock files = .ok counted ∧
      saturatingAdd counted.bytes (codec.len (codec.toVec envelope)) ≤ spool.maxBytes) ∧
    faults.spool.write = none ∧
    temporaryName spool.processId (recordName envelope.sequence) ∉ files.records

/-- An append that reaches the disk is not one whose existence check failed on a
record that is there, and its record fits the limit where the limit is the
largest value of the counter. -/
def ChecksHold (files : SpoolFiles Bytes) (call : SpoolCall) : Prop :=
  ∀ faults clock envelope, call = .append faults clock envelope →
    ReachesDisk codec spool files faults clock envelope →
      ¬ (faults.lookup = true ∧ recordName envelope.sequence ∈ files.records) ∧
      (recordName envelope.sequence ∉ files.records → spool.maxBytes = counterLimit →
        totalBytes codec files.records + codec.len (codec.toVec envelope) ≤ counterLimit)

/-- An append commits its record, or leaves at most a temporary file. -/
theorem appendUnder_cases (faults : AppendFaults) (clock : Nat) (files : SpoolFiles Bytes)
    (envelope : TelemetryEnvelope) :
    let appended := appendUnder codec spool faults clock files envelope
    (ReachesDisk codec spool files faults clock envelope ∧
      (faults.lookup = true ∨ recordName envelope.sequence ∉ files.records) ∧
      appended =
        ({ files with records :=
            files.records.insert (recordName envelope.sequence) ⟨codec.toVec envelope, clock⟩ },
          .ok ())) ∨
    (¬ (ReachesDisk codec spool files faults clock envelope ∧
        (faults.lookup = true ∨ recordName envelope.sequence ∉ files.records)) ∧
      appended.2 ≠ .ok () ∧
      (appended.1 = files ∨ ∃ name content, isRecordName name = false ∧
        appended.1 = { files with records := files.records.insert name content })) := by
  unfold appendUnder ReachesDisk
  cases encoded : encodeJson codec envelope with
  | error failure =>
      have invalid : ¬ envelope.Valid := by
        intro valid
        rw [(encodeJson_ok_iff codec envelope _).mpr ⟨valid, rfl⟩] at encoded
        cases encoded
      simp [invalid]
  | ok bytes =>
      obtain ⟨valid, rfl⟩ := (encodeJson_ok_iff codec envelope bytes).mp encoded
      cases inspected : inspect codec spool faults clock files with
      | error failure => simp
      | ok current =>
          by_cases full : spool.maxBytes < saturatingAdd current.bytes
              (codec.len (codec.toVec envelope))
          · simp [full]
          · by_cases found : faults.lookup = false ∧ recordName envelope.sequence ∈ files.records
            · simp [full, found]
            · have open' : faults.lookup = true ∨ recordName envelope.sequence ∉ files.records := by
                rw [not_and_or, Bool.not_eq_false] at found
                exact found
              simp only [if_neg full, if_neg found]
              have write := atomicWrite_ok_iff spool.processId clock faults.spool.write
                files.records (recordName envelope.sequence) (codec.toVec envelope)
              rcases atomicWrite_cases spool.processId clock faults.spool.write files.records
                  (recordName envelope.sequence) (codec.toVec envelope) with
                written | ⟨failed, left⟩
              · obtain ⟨whole, clear⟩ := write.mp (by rw [written])
                rw [written]
                exact .inl ⟨⟨valid, ⟨current, rfl, Nat.not_lt.mp full⟩, whole, clear⟩, open', rfl⟩
              · refine .inr ⟨fun reached => failed (write.mpr reached.1.2.2), failed, ?_⟩
                rcases left with kept | temporary
                · exact .inl (by rw [kept])
                · exact .inr ⟨_, _, isRecordName_temporaryName_recordName _ _, by rw [temporary]⟩

/-- The room `append` checks is the room there is, below the counter's limit. -/
theorem reachesDisk_room {files : SpoolFiles Bytes} {faults : AppendFaults} {clock : Nat}
    {envelope : TelemetryEnvelope} (reached : ReachesDisk codec spool files faults clock envelope) :
    totalBytes codec files.records + codec.len (codec.toVec envelope) ≤ spool.maxBytes ∨
      counterLimit ≤ spool.maxBytes := by
  obtain ⟨-, ⟨counted, inspected, room⟩, -⟩ := reached
  rw [inspect_bytes codec spool inspected, saturatingAdd_saturated] at room
  omega

/-- Calls other than `append` add no record. -/
theorem totalBytes_shrinks (files : SpoolFiles Bytes) (call : SpoolCall)
    (other : ∀ faults clock envelope, call ≠ .append faults clock envelope) :
    totalBytes codec (callStep codec spool files call).records ≤ totalBytes codec files.records := by
  apply totalBytes_le
  intro path file _ found
  cases call with
  | append faults clock envelope => exact absurd rfl (other faults clock envelope)
  | pending faults limit =>
      exact (pending_quarantines codec faults limit files).records_subset path file found
  | acknowledge faults records =>
      rw [callStep, (acknowledge_removes faults records files).lookup path] at found
      split at found
      · cases found
      · exact found

/-- An append that does not commit leaves the records as they were. -/
theorem records_unchanged {files after : SpoolFiles Bytes}
    (left : after = files ∨ ∃ name content, isRecordName name = false ∧
      after = { files with records := files.records.insert name content })
    {path : String} (named : isRecordName path = true) :
    after.records[path]? = files.records[path]? := by
  rcases left with rfl | ⟨name, content, temporary, rfl⟩
  · rfl
  · have apart : name ≠ path := by
      rintro rfl
      rw [named] at temporary
      cases temporary
    exact SortedMap.getElem?_insert_of_ne _ _ apart

variable {codec spool}

theorem capacityKept_other {files : SpoolFiles Bytes}
    (within : totalBytes codec files.records ≤ spool.maxBytes) (call : SpoolCall)
    (other : ∀ faults clock envelope, call ≠ .append faults clock envelope) :
    CapacityKept codec spool files call where
  bounded := (totalBytes_shrinks codec spool files call other).trans within
  added faults clock envelope same := absurd same (other faults clock envelope)
  unchanged faults clock envelope _ same := absurd same (other faults clock envelope)

/-- One call within the limit. -/
theorem capacityKept_iff {files : SpoolFiles Bytes} (counted : spool.maxBytes ≤ counterLimit)
    (within : totalBytes codec files.records ≤ spool.maxBytes) (call : SpoolCall) :
    CapacityKept codec spool files call ↔ ChecksHold codec spool files call := by
  constructor
  · rintro kept faults clock envelope rfl reached
    have cases' := appendUnder_cases codec spool faults clock files envelope
    constructor
    · rintro ⟨blind, present⟩
      rcases cases' with ⟨-, -, appended⟩ | ⟨stopped, -⟩
      · have fresh := (kept.added faults clock envelope rfl (by rw [appended])).2.1
        rw [Std.ExtTreeMap.mem_iff_isSome_getElem?, fresh] at present
        cases present
      · exact stopped ⟨reached, .inl blind⟩
    · intro absent largest
      rcases cases' with ⟨-, -, appended⟩ | ⟨stopped, -⟩
      · have bound := kept.bounded
        have fresh : files.records[recordName envelope.sequence]? = none := by simpa using absent
        rw [callStep, appended, totalBytes_insert_fresh codec _ (isRecordName_recordName _) fresh]
          at bound
        dsimp only at bound
        omega
      · exact absurd ⟨reached, .inr absent⟩ stopped
  · intro checks
    cases call with
    | append faults clock envelope =>
        rcases appendUnder_cases codec spool faults clock files envelope with
          ⟨reached, looked, appended⟩ | ⟨-, failed, left⟩
        · obtain ⟨notBlind, fits⟩ := checks faults clock envelope rfl reached
          have absent : recordName envelope.sequence ∉ files.records := by
            intro present
            rcases looked with blind | absent
            · exact notBlind ⟨blind, present⟩
            · exact absent present
          have fresh : files.records[recordName envelope.sequence]? = none := by simpa using absent
          refine ⟨?bounded, ?added, ?unchanged⟩
          case bounded =>
            rw [callStep, appended, totalBytes_insert_fresh codec _ (isRecordName_recordName _) fresh]
            dsimp only
            rcases reachesDisk_room codec spool reached with room | largest
            · omega
            · have same : spool.maxBytes = counterLimit := Nat.le_antisymm counted largest
              have room := fits absent same
              omega
          case added =>
            rintro _ _ _ ⟨⟩ -
            exact ⟨(encodeJson_ok_iff codec envelope _).mpr ⟨reached.1, rfl⟩, fresh, by
              rw [appended]⟩
          case unchanged =>
            rintro _ _ _ failure ⟨⟩ refused
            rw [appended] at refused
            cases refused
        · refine ⟨?bounded, ?added, ?unchanged⟩
          case bounded =>
            refine (totalBytes_le codec fun path file named found => ?_).trans within
            rw [callStep, records_unchanged left named] at found
            exact found
          case added =>
            rintro _ _ _ ⟨⟩ done
            exact absurd done failed
          case unchanged =>
            rintro _ _ _ failure ⟨⟩ _ path named
            exact records_unchanged left named
    | pending faults limit => exact capacityKept_other within _ fun _ _ _ => by simp
    | acknowledge faults records => exact capacityKept_other within _ fun _ _ _ => by simp

/-- Every run from a spool within its limit keeps the limit and appends whole
records, exactly when the checks of every append that reaches the disk hold. -/
theorem capacity_kept_iff (counted : spool.maxBytes < 2 ^ 64) (files : SpoolFiles Bytes)
    (within : totalBytes codec files.records ≤ spool.maxBytes) (calls : List SpoolCall) :
    Machine.EveryStep (callStep codec spool) (CapacityKept codec spool) files calls ↔
      Machine.EveryStep (callStep codec spool) (ChecksHold codec spool) files calls := by
  have limit : spool.maxBytes ≤ counterLimit := Nat.le_sub_one_of_lt counted
  induction calls generalizing files with
  | nil => exact iff_of_true (fun _ visited => nomatch visited) fun _ visited => nomatch visited
  | cons call rest inductionHypothesis =>
      rw [Machine.everyStep_cons, Machine.everyStep_cons]
      have step := capacityKept_iff limit within call
      constructor
      · rintro ⟨kept, later⟩
        exact ⟨step.mp kept, (inductionHypothesis _ kept.bounded).mp later⟩
      · rintro ⟨checks, later⟩
        have kept := step.mpr checks
        exact ⟨kept, (inductionHypothesis _ kept.bounded).mpr later⟩

end Runs

/-! ## Two appends of one sequence -/

def recordOne (payload : Bool) : TelemetryEnvelope where
  schemaVersion := 1
  messageId := "n1-1"
  nodeId := "n1"
  sequence := 1
  observedAtUnixNanos := 1700000000000000000
  kind := .health
  payload := .bool payload
  attributes := ∅

/-- A spool with room for two records of one byte. -/
def smallSpool : DiskSpool where
  maxBytes := 2
  maxAgeSecs := 60
  processId := 7

/-- A second append of a sequence is refused and nothing is lost. -/
theorem repeated_append_kept :
    Machine.EveryStep (callStep plainCodec smallSpool) (CapacityKept plainCodec smallSpool) {}
      [.append {} 0 (recordOne true), .append {} 0 (recordOne false)] := by
  refine (capacity_kept_iff (by decide) {} (by decide +kernel) _).mpr ?_
  have sighted : ∀ files payload,
      ChecksHold plainCodec smallSpool files (.append {} 0 (recordOne payload)) := by
    rintro files payload _ _ _ ⟨⟩ -
    exact ⟨fun blind => Bool.false_ne_true blind.1, fun _ largest => absurd largest (by decide)⟩
  rw [Machine.everyStep_cons, Machine.everyStep_cons]
  exact ⟨sighted _ true, sighted _ false, fun _ visited => nomatch visited⟩

/-- When the existence check of the second append fails, the record is replaced. -/
theorem blind_append_replaces :
    ¬ Machine.EveryStep (callStep plainCodec smallSpool) (CapacityKept plainCodec smallSpool) {}
      [.append {} 0 (recordOne true), .append { lookup := true } 0 (recordOne false)] := by
  intro every
  rw [Machine.everyStep_cons, Machine.everyStep_cons] at every
  have commits : (appendUnder plainCodec smallSpool { lookup := true } 0
      (callStep plainCodec smallSpool {} (.append {} 0 (recordOne true)))
      (recordOne false)).2 = .ok () := by decide +kernel
  have fresh := (every.2.1.added _ _ _ rfl commits).2.1
  revert fresh
  decide +kernel

end SystemPilot.Spool
