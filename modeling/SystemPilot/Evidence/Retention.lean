import SystemPilot.Evidence.Alone
import SystemPilot.Evidence.Steps

/-!
# The newest cases stay

What `save` leaves of a directory that was written by `save`: the newest cases, as
many of those that are not too old as fit.
-/

set_option autoImplicit false

namespace SystemPilot.Evidence

open SystemPilot.Library

variable {Details : Type} {codec : BundleCodec Details}

/-! ## Directories that saves have written -/

variable (codec) in
/-- The directories that calls of `save`, each of which may be cut short, leave of an
empty one. -/
inductive Saved : Disk → Prop where
  | empty (disk : Disk) (vacant : ∀ name, name ∉ disk.files) : Saved disk
  | save (store : CaseStore) (bundle : EvidenceBundleV1 Details) (disk last : Disk)
      (before : Saved disk) (passes : fileEffects.Passes (store.save codec bundle) disk last) :
      Saved last

variable (codec) in
/-- Apart from temporary files there are only cases, each under the name of its ID. -/
def Written (disk : Disk) : Prop :=
  ∀ name bytes, disk.find name = some bytes → extension name = some "tmp" ∨
    ∃ bundle, CaseStore.path bundle.caseId = .ok name ∧ codec.encode bundle = .ok bytes

theorem Written.remove {disk : Disk} (written : Written codec disk) (name : String) :
    Written codec (disk.remove name) := by
  intro other bytes there
  rw [Disk.find_remove] at there
  split at there
  · cases there
  · exact written other bytes there

/-- A change to one name. -/
theorem Written.update {disk changed : Disk} (written : Written codec disk) {name : String}
    {content : List UInt8}
    (found : ∀ other, changed.find other = if other = name then some content else disk.find other)
    (new : extension name = some "tmp" ∨
      ∃ bundle, CaseStore.path bundle.caseId = .ok name ∧ codec.encode bundle = .ok content) :
    Written codec changed := by
  intro other bytes there
  rw [found] at there
  split at there
  · rename_i same
    cases there
    rwa [same]
  · exact written other bytes there

theorem Written.harmless {disk : Disk} (written : Written codec disk) {op : FileOp}
    (harmless : Harmless op) (surroundings : Surroundings) :
    Written codec (Disk.perform op surroundings disk).2 := by
  cases op with
  | readDir => exact written
  | remove name => exact written.remove name
  | createNew name => exact harmless.elim
  | write file bytes => exact harmless.elim
  | rename source target => exact harmless.elim
  | read name => exact written
  | metadata name => exact written
  | now => exact written

theorem always_written {Value : Type} {ending : Value → Prop} {action : Action Value} {disk : Disk}
    (goes : Action.Goes codec False ending action) (written : Written codec disk) :
    fileEffects.Always (Written codec) (fun _ disk => Written codec disk) action disk :=
  Effects.always_of_keeps goes (fun _ _ impossible => impossible.elim)
    (fun _ surroundings _ harmless before => before.harmless harmless surroundings) written

theorem always_call {Value : Type} {property : Disk → Prop}
    {ending : Except Stop Value → Disk → Prop} {op : FileOp}
    {following : op.Result → Action Value} {disk : Disk} (here : property disk)
    (rest : ∀ surroundings, fileEffects.Always property ending
      (following (Disk.perform op surroundings disk).1) (Disk.perform op surroundings disk).2) :
    fileEffects.Always property ending (Action.call op >>= following : Action Value) disk :=
  ⟨here, rest⟩

/-- A temporary file belongs to no case until it is renamed, when it has the whole
case. -/
theorem commit_written {store : CaseStore} {bundle : EvidenceBundleV1 Details} {bytes : List UInt8}
    (located : CaseStore.path bundle.caseId = .ok (fileName bundle.caseId))
    (encoded : codec.encode bundle = .ok bytes) {disk : Disk} (written : Written codec disk) :
    fileEffects.Always (Written codec) (fun _ disk => Written codec disk)
      (store.commit codec (temporaryName bundle.caseId) (fileName bundle.caseId) bytes) disk := by
  have nonempty := (path_ok_iff.mp located).1
  have temporary := extension_temporaryName nonempty
  refine always_call written fun surroundings => ?_
  by_cases there : temporaryName bundle.caseId ∈ disk.files
  · rw [Disk.perform, if_pos there]
    exact ⟨written, written⟩
  · rw [Disk.perform_createNew there]
    refine always_call (written.update (Disk.find_create _) (Or.inl temporary)) fun _ => ?_
    refine always_call (written.update (Disk.find_written _ bytes) (Or.inl temporary)) fun _ => ?_
    have placed : Written codec
        (disk.place (temporaryName bundle.caseId) (fileName bundle.caseId) bytes) := by
      refine (written.remove (temporaryName bundle.caseId)).update (fun other => ?_)
        (Or.inr ⟨bundle, located, encoded⟩)
      rw [Disk.find_place, Disk.find_remove]
    let filled := (disk.create (temporaryName bundle.caseId)).write disk.next bytes
    change fileEffects.Always _ _
      (if (filled.move (temporaryName bundle.caseId) (fileName bundle.caseId)).1 then
        store.enforceRetention codec
      else Action.fail _) (filled.move (temporaryName bundle.caseId) (fileName bundle.caseId)).2
    rw [Disk.move_written]
    exact always_written enforceRetention_goes placed

theorem always_ofResult {Value Other : Type} {result : AppResult Value}
    {following : Value → Action Other} {disk : Disk} (written : Written codec disk)
    (rest : ∀ value, result = .ok value →
      fileEffects.Always (Written codec) (fun _ disk => Written codec disk) (following value) disk) :
    fileEffects.Always (Written codec) (fun _ disk => Written codec disk)
      (Action.ofResult result >>= following : Action Other) disk := by
  cases result with
  | ok value => exact rest value rfl
  | error error => exact ⟨written, written⟩

theorem save_written {store : CaseStore} {bundle : EvidenceBundleV1 Details} {disk : Disk}
    (written : Written codec disk) :
    fileEffects.Always (Written codec) (fun _ disk => Written codec disk)
      (store.save codec bundle) disk := by
  refine always_ofResult written fun _ _ => ?_
  refine Effects.always_bind (always_written prepare_goes written) fun prepared disk written => ?_
  cases prepared with
  | error stop => exact ⟨written, written⟩
  | ok _ =>
      refine always_ofResult written fun path located => ?_
      obtain ⟨-, -, rfl⟩ := path_ok_iff.mp located
      split
      · exact ⟨written, written⟩
      · rename_i bytes encoded
        exact commit_written located encoded written

theorem written_of_saved {disk : Disk} (saved : Saved codec disk) : Written codec disk := by
  induction saved with
  | empty disk vacant =>
      intro name bytes there
      have present : name ∈ disk.files := Disk.find_isSome.mp (by rw [there]; rfl)
      exact absurd present (vacant name)
  | save store bundle disk last _ passes written => exact (save_written written).passes passes

/-! ## The cases of a directory -/

variable {store : CaseStore} {bundle : EvidenceBundleV1 Details} {surroundings : Surroundings}
variable {disk last : Disk}

theorem fileName_of_caseAt (written : Written codec disk) {name : String} {case : CaseSummary}
    (found : caseAt codec disk name = some case) : fileName case.caseId = name := by
  obtain ⟨permanent, bytes, bundle, there, decoded, rfl⟩ := caseAt_eq_some_iff.mp found
  rcases written name bytes there with temporary | ⟨stored, located, encoded⟩
  · rw [permanent] at temporary
    exact absurd temporary (by decide)
  · obtain ⟨details, rfl⟩ := codec.rereads stored bytes bundle encoded decoded
    exact (path_ok_iff.mp located).2.2.symm

/-- The files of the listed cases are those of the listed names that have a case. -/
theorem map_fileName_filterMap (written : Written codec disk) (names : List String) :
    (names.filterMap (caseAt codec disk)).map (fun case => fileName case.caseId) =
      names.filter fun name => (caseAt codec disk name).isSome := by
  induction names with
  | nil => rfl
  | cons name names inductionHypothesis =>
      cases found : caseAt codec disk name with
      | none => rw [List.filterMap_cons_none found, List.filter_cons_of_neg (by simp [found]),
          inductionHypothesis]
      | some case =>
          rw [List.filterMap_cons_some found, List.filter_cons_of_pos (by simp [found]),
            List.map_cons, inductionHypothesis, fileName_of_caseAt written found]

theorem nodup_fileName_listed (written : Written codec disk) :
    ((listed codec surroundings disk).map fun case => fileName case.caseId).Nodup := by
  rw [listed, map_fileName_filterMap written]
  refine List.Nodup.filter _ ?_
  rw [(surroundings.perm disk.files.keys).nodup_iff]
  exact disk.files.keys_nodup

theorem mem_listed_iff {case : CaseSummary} :
    case ∈ listed codec surroundings disk ↔ ∃ name, caseAt codec disk name = some case := by
  rw [listed, List.mem_filterMap]
  constructor
  · rintro ⟨name, -, found⟩
    exact ⟨name, found⟩
  · rintro ⟨name, found⟩
    obtain ⟨-, bytes, _, there, -, -⟩ := caseAt_eq_some_iff.mp found
    refine ⟨name, ?_, found⟩
    rw [Disk.mem_order_keys, ← Disk.find_isSome, there]
    rfl

/-- A case that is listed is one that was written. -/
theorem mem_listed_written (written : Written codec disk)
    (every : ∀ name ∈ disk.files, extension name = some "json" → (caseAt codec disk name).isSome)
    {case : CaseSummary} :
    case ∈ listed codec surroundings disk ↔ ∃ name stored content,
      CaseStore.path stored.caseId = .ok name ∧ disk.find name = some content ∧
        codec.encode stored = .ok content ∧ case = stored.summary content := by
  rw [mem_listed_iff]
  constructor
  · rintro ⟨name, found⟩
    obtain ⟨permanent, content, again, there, decoded, rfl⟩ := caseAt_eq_some_iff.mp found
    rcases written name content there with temporary | ⟨stored, located, encoded⟩
    · rw [permanent] at temporary
      exact absurd temporary (by decide)
    · obtain ⟨details, rfl⟩ := codec.rereads stored content again encoded decoded
      exact ⟨name, stored, content, located, there, encoded, rfl⟩
  · rintro ⟨name, stored, content, located, there, encoded, rfl⟩
    have present : name ∈ disk.files := Disk.find_isSome.mp (by rw [there]; rfl)
    obtain ⟨nonempty, -, named⟩ := path_ok_iff.mp located
    obtain ⟨case, found⟩ := Option.isSome_iff_exists.mp
      (every name present (by rw [named, extension_fileName nonempty]))
    obtain ⟨-, bytes, again, same, decoded, rfl⟩ := caseAt_eq_some_iff.mp found
    obtain rfl : content = bytes := Option.some.inj (there.symm.trans same)
    obtain ⟨details, rfl⟩ := codec.rereads stored content again encoded decoded
    exact ⟨name, found⟩

/-! ## Retention -/

theorem oldFirst_ascending (cutoff : Nat) (cases : List CaseSummary) :
    Retention.OldFirst (Old cutoff) (Ranking.ascending capturedAt cases) :=
  (Ranking.pairwise_ascending capturedAt cases).imp fun earlier later => earlier.trans_lt later

/-- Every file of the directory is that of a case, and the loop leaves those of the
cases that are retained. -/
theorem find_evicted (written : Written codec disk)
    (every : ∀ name ∈ disk.files, extension name = some "json" → (caseAt codec disk name).isSome)
    (permanent : ∀ name ∈ disk.files, extension name ≠ some "tmp") {cases : List CaseSummary}
    (same : cases.Perm (listed codec surroundings disk)) {cutoff total : Nat}
    (ok : (store.evict cutoff cases total).run surroundings disk = (.ok (), last)) (name : String) :
    last.find name =
      if name ∈ (Retention.retained (Old cutoff) CaseSummary.bytes store.retentionBytes.toNat
        cases total).map (fun case => fileName case.caseId) then disk.find name else none := by
  have parts := (Retention.perm_discarded_retained (Old cutoff) CaseSummary.bytes
    store.retentionBytes.toNat cases total).trans same
  have names := parts.map fun case => fileName case.caseId
  rw [List.map_append] at names
  have apart := (List.nodup_append.mp (names.nodup_iff.mpr (nodup_fileName_listed written))).2.2
  rw [evict_ok ok]
  split
  · rename_i gone
    rw [if_neg]
    exact fun stays => apart name gone name stays rfl
  · rename_i kept
    split
    · rfl
    · rename_i missing
      -- a file that is not discarded is the file of a case that is retained
      by_contra there
      have present : name ∈ disk.files :=
        Disk.find_isSome.mp (Option.isSome_iff_ne_none.mpr there)
      obtain ⟨bytes, content⟩ := Option.ne_none_iff_exists'.mp there
      rcases written name bytes content with temporary | ⟨stored, located, -⟩
      · exact permanent name present temporary
      · obtain ⟨nonempty, -, named⟩ := path_ok_iff.mp located
        obtain ⟨case, found⟩ := Option.isSome_iff_exists.mp
          (every name present (by rw [named, extension_fileName nonempty]))
        have listed : case ∈ listed codec surroundings disk := mem_listed_iff.mpr ⟨name, found⟩
        have somewhere := names.mem_iff.mpr (List.mem_map_of_mem listed)
        rw [fileName_of_caseAt written found, List.mem_append] at somewhere
        exact somewhere.elim kept missing

variable (codec) in
/-- The cases of a directory by the time they were captured, and those of one time as
they are listed. -/
def inOrder (surroundings : Surroundings) (disk : Disk) : List CaseSummary :=
  Ranking.ascending capturedAt (listed codec surroundings disk)

/-- The cases that are not older than the cutoff. -/
def fresh (store : CaseStore) (surroundings : Surroundings) (cases : List CaseSummary) :
    List CaseSummary :=
  cases.filter fun case => store.cutoff surroundings.clock ≤ capturedAt case

/-- The second preparation finds no temporary file, nor did the first leave one. -/
theorem find_committed {id : String} {bytes : List UInt8} {cleared committed : Disk}
    (nonempty : id ≠ "") (prepared : CaseStore.prepare.run surroundings disk = (.ok (), cleared))
    (again : CaseStore.prepare.run surroundings
      (cleared.place (temporaryName id) (fileName id) bytes) = (.ok (), committed))
    (name : String) :
    committed.find name =
      if name = fileName id then some bytes
      else if extension name = some "tmp" then none else disk.find name := by
  rw [prepare_ok again, Disk.find_place, prepare_ok prepared]
  by_cases own : name = fileName id
  · rw [own, extension_fileName nonempty]
    simp
  · by_cases temporary : extension name = some "tmp"
    · rw [if_pos temporary, if_neg own, if_pos temporary]
    · have apart : name ≠ temporaryName id := by
        rintro rfl
        exact temporary (extension_temporaryName nonempty)
      rw [if_neg temporary, if_neg own, if_neg apart, if_neg own, if_neg temporary]

/-- A new case keeps a directory one of cases. -/
theorem Written.committed {bytes : List UInt8} {committed : Disk} (written : Written codec disk)
    (located : CaseStore.path bundle.caseId = .ok (fileName bundle.caseId))
    (encoded : codec.encode bundle = .ok bytes)
    (found : ∀ name, committed.find name =
      if name = fileName bundle.caseId then some bytes
      else if extension name = some "tmp" then none else disk.find name) :
    Written codec committed := by
  intro name content there
  rw [found] at there
  split at there
  · rename_i own
    obtain rfl : bytes = content := Option.some.inj there
    exact Or.inr ⟨bundle, own ▸ located, encoded⟩
  · split at there
    · cases there
    · exact written name content there

theorem permanent_of_prepared {prepared : Disk}
    (ok : CaseStore.prepare.run surroundings disk = (.ok (), prepared)) :
    ∀ name ∈ prepared.files, extension name ≠ some "tmp" := by
  intro name present temporary
  have there := Disk.find_isSome.mpr present
  rw [prepare_ok ok, if_pos temporary] at there
  cases there

section Order

variable (codec) (store : CaseStore) (surroundings : Surroundings) (disk : Disk)

theorem inOrder_oldFirst : Retention.OldFirst (Old (store.cutoff surroundings.clock))
    (inOrder codec surroundings disk) :=
  oldFirst_ascending _ _

theorem filter_inOrder : (inOrder codec surroundings disk).filter
      (fun case => ¬ Old (store.cutoff surroundings.clock) case) =
    fresh store surroundings (inOrder codec surroundings disk) :=
  List.filter_congr fun case _ => by simp [Old]

theorem fresh_suffix : fresh store surroundings (inOrder codec surroundings disk) <:+
    inOrder codec surroundings disk := by
  rw [← filter_inOrder]
  exact (inOrder_oldFirst codec store surroundings disk).filter_suffix

/-- What the loop retains: the fresh cases without the fewest of the oldest that make the
rest fit. -/
theorem retained_inOrder : ∃ count,
    Retention.retained (Old (store.cutoff surroundings.clock)) CaseSummary.bytes
        store.retentionBytes.toNat (inOrder codec surroundings disk)
        (Retention.total CaseSummary.bytes (inOrder codec surroundings disk)) =
      (fresh store surroundings (inOrder codec surroundings disk)).drop count ∧
    Retention.total CaseSummary.bytes
        ((fresh store surroundings (inOrder codec surroundings disk)).drop count) ≤
      store.retentionBytes.toNat ∧
    ∀ fewer < count, store.retentionBytes.toNat < Retention.total CaseSummary.bytes
      ((fresh store surroundings (inOrder codec surroundings disk)).drop fewer) := by
  rw [← filter_inOrder]
  exact Retention.retained_total CaseSummary.bytes store.retentionBytes.toNat
    (inOrder_oldFirst codec store surroundings disk)

end Order

/-- What is in front of a suffix is not newer. -/
theorem captured_before {kept : List CaseSummary}
    (suffix : kept <:+ inOrder codec surroundings disk) {removed case : CaseSummary}
    (listed : removed ∈ inOrder codec surroundings disk) (gone : removed ∉ kept)
    (stays : case ∈ kept) : capturedAt removed ≤ capturedAt case := by
  obtain ⟨front, split⟩ := suffix
  have sorted : (inOrder codec surroundings disk).Pairwise
      fun earlier later => capturedAt earlier ≤ capturedAt later :=
    Ranking.pairwise_ascending capturedAt _
  rw [← split] at sorted listed
  have before := (List.mem_append.mp listed).resolve_right gone
  exact (List.pairwise_append.mp sorted).2.2 removed before case stays

/-- After a save the newest cases are left: those that are not older than the cutoff
without the fewest of the oldest that make the rest fit. -/
theorem save_keeps_newest (saved : Saved codec disk)
    (ok : (store.save codec bundle).run surroundings disk = (.ok (), last)) :
    ∃ committed bytes count, codec.encode bundle = .ok bytes ∧
      (∀ name, committed.find name =
        if name = fileName bundle.caseId then some bytes
        else if extension name = some "tmp" then none else disk.find name) ∧
      (∀ case, case ∈ inOrder codec surroundings committed ↔ ∃ name stored content,
        CaseStore.path stored.caseId = .ok name ∧ committed.find name = some content ∧
          codec.encode stored = .ok content ∧ case = stored.summary content) ∧
      (fresh store surroundings (inOrder codec surroundings committed)).drop count <:+
        inOrder codec surroundings committed ∧
      (∀ name, last.find name =
        if name ∈ ((fresh store surroundings (inOrder codec surroundings committed)).drop count).map
          (fun case => fileName case.caseId) then committed.find name else none) ∧
      Retention.total CaseSummary.bytes
          ((fresh store surroundings (inOrder codec surroundings committed)).drop count) ≤
        store.retentionBytes.toNat ∧
      (∀ fewer < count, store.retentionBytes.toNat < Retention.total CaseSummary.bytes
        ((fresh store surroundings (inOrder codec surroundings committed)).drop fewer)) ∧
      ∀ removed ∈ inOrder codec surroundings committed,
        removed ∉ (fresh store surroundings (inOrder codec surroundings committed)).drop count →
        ∀ kept ∈ (fresh store surroundings (inOrder codec surroundings committed)).drop count,
          capturedAt removed ≤ capturedAt kept := by
  have written := written_of_saved saved
  obtain ⟨-, located, bytes, cleared, encoded, prepared, renamed⟩ := save_ok ok
  obtain ⟨committed, again, every, swept⟩ := enforceRetention_ok (commit_ok renamed)
  have found := find_committed (path_ok_iff.mp located).1 prepared again
  have still := written.committed located encoded found
  have ordered : (inOrder codec surroundings committed).Perm
      (listed codec surroundings committed) := Ranking.perm_ascending capturedAt _
  obtain ⟨count, same, fits, fewest⟩ := retained_inOrder codec store surroundings committed
  have kept := (List.drop_suffix count _).trans (fresh_suffix codec store surroundings committed)
  refine ⟨committed, bytes, count, encoded, found, ?_, kept, ?_, fits, fewest, ?_⟩
  · intro case
    rw [ordered.mem_iff]
    exact mem_listed_written still every
  · intro name
    rw [← same]
    exact find_evicted still every (permanent_of_prepared again) ordered swept name
  · intro removed member gone case stays
    exact captured_before kept member gone stays

/-! ## Two cases -/

/-- A bundle of a host on which nothing was found. -/
def quietBundle (id : String) (time : UInt64) : EvidenceBundleV1 Unit where
  schemaVersion := 1
  bundleVersion := "EvidenceBundleV1"
  caseId := id
  timeRange := ⟨time, time⟩
  findings := []
  details := ()

/-- What `to_vec_pretty` prints of it. -/
def quietText (id time : String) : List UInt8 := Text.bytesOf (
  "\x7b\n  \"schema_version\": 1,\n  \"bundle_version\": \"EvidenceBundleV1\",\n" ++
  "  \"case_id\": \"" ++ id ++ "\",\n  \"time_range\": \x7b\n    \"started_at_unix_nanos\": " ++ time ++
  ",\n    \"ended_at_unix_nanos\": " ++ time ++ "\n  \x7d,\n  \"node\": \x7b\n" ++
  "    \"hostname\": \"node\",\n    \"kernel_release\": \"6.1\",\n    \"architecture\": \"x86_64\"\n" ++
  "  \x7d,\n  \"capabilities\": [],\n  \"observations\": [],\n  \"findings\": [],\n" ++
  "  \"missing_evidence\": [],\n  \"relationships\": [],\n  \"alert_references\": [],\n" ++
  "  \"redaction\": \x7b\n    \"fields_removed\": []\n  \x7d,\n  \"ai_analysis\": null\n\x7d")

/-- The bundles whose texts are known. -/
def quietTexts : List (EvidenceBundleV1 Unit × List UInt8) :=
  [(quietBundle "a" 1, quietText "a" "1"), (quietBundle "b" 2, quietText "b" "2")]

def encodeQuiet (bundle : EvidenceBundleV1 Unit) : Except String (List UInt8) :=
  .ok (((quietTexts.find? fun entry => entry.1 = bundle).map Prod.snd).getD [])

def decodeQuiet (bytes : List UInt8) : Except String (EvidenceBundleV1 Unit) :=
  match quietTexts.find? fun entry => entry.2 = bytes with
  | some entry => .ok entry.1
  | none => .error "EOF while parsing a value at line 1 column 0"

theorem encodes_quiet (bundle : EvidenceBundleV1 Unit) : ∃ bytes, encodeQuiet bundle = .ok bytes :=
  ⟨_, rfl⟩

theorem decode_quietTexts : ∀ entry ∈ quietTexts, decodeQuiet entry.2 = .ok entry.1 := by
  decide +kernel

theorem rereads_quiet (bundle : EvidenceBundleV1 Unit) (bytes : List UInt8)
    (again : EvidenceBundleV1 Unit) (encoded : encodeQuiet bundle = .ok bytes)
    (decoded : decodeQuiet bytes = .ok again) :
    ∃ details, again = { bundle with details := details } := by
  have text := Except.ok.inj encoded
  cases known : quietTexts.find? fun entry => entry.1 = bundle with
  | none =>
      rw [known] at text
      subst text
      have refused : decodeQuiet [] = .error "EOF while parsing a value at line 1 column 0" := by
        decide +kernel
      exact absurd (refused.symm.trans decoded) (by simp)
  | some entry =>
      rw [known] at text
      subst text
      have same : entry.1 = bundle := by simpa using List.find?_some known
      have read := decode_quietTexts entry (List.mem_of_find?_eq_some known)
      refine ⟨(), ?_⟩
      rw [← Except.ok.inj (read.symm.trans decoded), ← same]

def quietCodec : BundleCodec Unit where
  encode := encodeQuiet
  decode := decodeQuiet
  encodes := encodes_quiet
  rereads := rereads_quiet

theorem perm_asListed (names : List String) : names.Perm names := List.Perm.refl names

/-- A listing in the order of the directory. -/
def asListed (clock : Int) : Surroundings where
  order := fun names => names
  perm := perm_asListed
  clock := clock

theorem bound_vacant (name : String) (file : Nat)
    (there : (∅ : AList fun _ : String => Nat).lookup name = some file) : file < 0 := by
  rw [AList.lookup_empty] at there
  cases there

def vacant : Disk where
  files := ∅
  contents := fun _ => []
  next := 0
  bound := bound_vacant

theorem saved_vacant : Saved quietCodec vacant :=
  .empty vacant fun name present => AList.notMem_empty name present

/-- Room for one case. -/
def smallStore : CaseStore := ⟨"cases", 30, 600⟩

def oneCase : Disk := ((smallStore.save quietCodec (quietBundle "a" 1)).run (asListed 5) vacant).2

theorem saved_oneCase : Saved quietCodec oneCase :=
  .save smallStore (quietBundle "a" 1) vacant oneCase saved_vacant
    (Effects.passes_run _ _ _ _)

def latestCase : Disk := ((smallStore.save quietCodec (quietBundle "b" 2)).run (asListed 5) oneCase).2

theorem saves_latestCase :
    ((smallStore.save quietCodec (quietBundle "b" 2)).run (asListed 5) oneCase).1 = .ok () := by
  decide +kernel

theorem save_latestCase :
    (smallStore.save quietCodec (quietBundle "b" 2)).run (asListed 5) oneCase = (.ok (), latestCase) :=
  Prod.mk.eta.symm.trans (congrArg (fun result => (result, latestCase)) saves_latestCase)

/-- The second case leaves no room for the first. -/
theorem save_keeps_newest_quiet : ∃ committed count,
    (∀ name, latestCase.find name =
      if name ∈ ((fresh smallStore (asListed 5) (inOrder quietCodec (asListed 5) committed)).drop
        count).map (fun case => fileName case.caseId) then committed.find name else none) ∧
      latestCase.find (fileName "a") = none ∧ (latestCase.find (fileName "b")).isSome := by
  obtain ⟨committed, _, count, _, _, _, _, left, _⟩ := save_keeps_newest saved_oneCase save_latestCase
  exact ⟨committed, count, left, by decide +kernel, by decide +kernel⟩

end SystemPilot.Evidence
