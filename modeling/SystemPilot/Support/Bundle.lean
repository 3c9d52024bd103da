import Mathlib
import SystemPilot.Support.Sanitize
import SystemPilot.Setup.Install

/-!
# Support bundles

`support::create` reads the configuration and the daemon's report, sanitizes both and
writes one document.  Two machines that differ only in what sanitizing hides write the
same bytes, whatever fails on the way.
-/

set_option autoImplicit false

namespace SystemPilot.Support

open SystemPilot.Json
open SystemPilot.Text
open SystemPilot.Telemetry
open SystemPilot.Library
open SystemPilot.Library.CrashFiles (File Files)
open SystemPilot.Configuration (joinPath configFile parseBytes ConfigError ConfigResult ownerOnly
  Diverge)
open SystemPilot.Setup (Script Fault Agree perform effects call step tidied atomicWriteAt
  atomicWriteAt_always documentTemporary perform_agree perform_other Replacing Replaced Ended)

/-! ## The components -/

inductive ComponentState where
  | available
  | unavailable
  | failed
  deriving DecidableEq, Repr

def ComponentState.text : ComponentState → String
  | .available => "available"
  | .unavailable => "unavailable"
  | .failed => "failed"

structure ComponentRecord where
  name : String
  state : ComponentState
  detail : String
  deriving DecidableEq, Repr

def ComponentRecord.toValue (record : ComponentRecord) : Value := .object [
  ("name", .string record.name),
  ("state", .string record.state.text),
  ("detail", .string record.detail)]

/-- What `fs::read` finds. -/
inductive Source where
  | missing
  | failed (error : String)
  | bytes (content : List UInt8)
  deriving DecidableEq, Repr

/-- The records and the redacted places so far. -/
structure Collected where
  components : List ComponentRecord := []
  removed : List String := []
  deriving DecidableEq, Repr

def Collected.note (collected : Collected) (name : String) (state : ComponentState)
    (detail : String) : Collected :=
  { collected with components := collected.components ++ [⟨name, state, detail⟩] }

section Read

variable (floats : FloatText) (explain : List UInt8 → String)

def readJsonComponent (name : String) (source : Source) (collected : Collected) :
    Option Value × Collected :=
  match source with
  | .missing => (none, collected.note name .unavailable "source file does not exist")
  | .failed error =>
      (none, collected.note name .failed ("could not read source file: " ++ error))
  | .bytes content =>
      match parseBytes floats content with
      | none =>
          (none, collected.note name .failed
            ("source file contains malformed JSON: " ++ explain content))
      | some value =>
          let (value, removed) := sanitize value collected.removed
          (some value,
            { collected.note name .available "included after mandatory redaction" with removed })

end Read

/-! ## The bundle -/

structure SupportBundleV1 where
  schemaVersion : Nat := 1
  bundleVersion : String := "SupportBundleV1"
  createdAtUnixNanos : Nat
  syspilotVersion : String
  buildCommit : String
  complete : Bool
  components : List ComponentRecord
  data : Value
  redaction : List String
  deriving DecidableEq

def SupportBundleV1.toValue (bundle : SupportBundleV1) : Value := .object [
  ("schema_version", .number (.posInt bundle.schemaVersion)),
  ("bundle_version", .string bundle.bundleVersion),
  ("created_at_unix_nanos", .number (.posInt bundle.createdAtUnixNanos)),
  ("syspilot_version", .string bundle.syspilotVersion),
  ("build_commit", .string bundle.buildCommit),
  ("complete", .bool bundle.complete),
  ("components", .array (bundle.components.map ComponentRecord.toValue)),
  ("data", bundle.data),
  ("redaction", .array (bundle.redaction.map Value.string))]

/-- Where a bundle goes: a path and its parent. -/
structure Destination where
  directory : String
  path : String
  deriving DecidableEq, Repr

/-- What a run of `create` is told: its arguments, its clock, which is none before the
epoch, its process and the constants of its build. -/
structure Request where
  syspilotHome : String
  daemonHealthPath : String
  destination : Option Destination
  clock : Option Nat
  pid : Nat
  version : String
  commit : String
  architecture : String
  operatingSystem : String

/-- `support/support-{created_at}.json` below the home. -/
def defaultDestination (home : String) (createdAt : Nat) : Destination where
  directory := joinPath home "support"
  path := joinPath (joinPath home "support") ("support-" ++ Nat.repr createdAt ++ ".json")

def Request.target (request : Request) (createdAt : Nat) : Destination :=
  request.destination.getD (defaultDestination request.syspilotHome createdAt)

/-- The files a bundle is made of. -/
def Request.sources (request : Request) : List String :=
  [configFile request.syspilotHome, request.daemonHealthPath]

section Create

variable (floats : FloatText) (explain : List UInt8 → String)

/-- What `create` makes of its sources. -/
def bundleOf (request : Request) (createdAt : Nat) (read : String → Source) : SupportBundleV1 :=
  let (configuration, collected) := readJsonComponent floats explain "configuration"
    (read (configFile request.syspilotHome)) {}
  let (daemonHealth, collected) := readJsonComponent floats explain "daemon_health"
    (read request.daemonHealthPath) collected
  let collected := collected.note "system" .available
    "included without process arguments, environment, usernames, paths, or addresses"
  { createdAtUnixNanos := createdAt
    syspilotVersion := request.version
    buildCommit := request.commit
    complete := collected.components.all fun component => component.state == .available
    components := collected.components
    data := .object [
      ("configuration", configuration.getD .null),
      ("daemon_health", daemonHealth.getD .null),
      ("system", .object [
        ("architecture", .string request.architecture),
        ("operating_system", .string request.operatingSystem)])]
    redaction := (collected.removed.insertionSort (· ≤ ·)).destutter (· ≠ ·) }

def encodeBundle (bundle : SupportBundleV1) : List UInt8 :=
  bytesOf (String.ofList (pretty floats 0 bundle.toValue))

/-- `support::create`, with the path it returns. -/
def create (request : Request) (read : String → Source) :
    Script (ConfigResult (String × SupportBundleV1)) :=
  match request.clock with
  | none => pure (.error (.validation "system clock precedes Unix epoch"))
  | some createdAt => do
      let bundle := bundleOf floats explain request createdAt read
      let target := request.target createdAt
      match ← atomicWriteAt target.directory target.path (encodeBundle floats bundle) request.pid with
      | .error failure => pure (.error failure)
      | .ok () => pure (.ok (target.path, bundle))

/-- How `create_support_bundle_or_exit` ends the process. -/
def exitCode : ConfigResult (String × SupportBundleV1) → Nat
  | .ok (_, bundle) => if bundle.complete then 0 else 2
  | .error _ => 1

/-- The files as `fs::read` finds them, with the paths that cannot be read. -/
def sourcesOf (unreadable : String → Option String) (files : Files) (path : String) : Source :=
  match unreadable path with
  | some error => .failed error
  | none =>
      match files[path]? with
      | none => .missing
      | some file => .bytes file.content

end Create

/-! ## What sanitizing does not tell apart -/

mutual

theorem secretPlaces_masked : ∀ value, secretPlaces (secretMask.apply value) = secretPlaces value
  | .object fields => by rw [Mask.apply, secretPlaces, secretPlaces, secretFieldPlaces_masked]
  | .array items => by rw [Mask.apply, secretPlaces, secretPlaces, secretItemPlaces_masked]
  | .string _ => rfl
  | .null => rfl
  | .bool _ => rfl
  | .number _ => rfl

theorem secretItemPlaces_masked (index : Nat) : ∀ items,
    secretItemPlaces index (secretMask.applyItems items) = secretItemPlaces index items
  | [] => rfl
  | child :: rest => by
      rw [Mask.applyItems, secretItemPlaces, secretItemPlaces, secretPlaces_masked child,
        secretItemPlaces_masked (index + 1) rest]

theorem secretFieldPlaces_masked : ∀ fields,
    secretFieldPlaces (secretMask.applyFields fields) = secretFieldPlaces fields
  | [] => rfl
  | (key, child) :: rest => by
      rw [Mask.applyFields, secretFieldPlaces, secretFieldPlaces, secretFieldPlaces_masked rest]
      cases secret : secretKey key with
      | true => rfl
      | false =>
          simp only [secretMask, secret, Bool.false_eq_true, if_false]
          rw [← secretMask, secretPlaces_masked child]

end

/-- Two documents that sanitizing makes one, with the same places recorded. -/
def Alike (left right : Value) : Prop :=
  sanitizeMask.apply left = sanitizeMask.apply right ∧ secretPlaces left = secretPlaces right

theorem Alike.sanitized {left right : Value} (alike : Alike left right) (removed : List String) :
    sanitize left removed = sanitize right removed :=
  Prod.ext (by rw [sanitize_fst, sanitize_fst, alike.1])
    (by rw [sanitize_snd, sanitize_snd, alike.2])

/-- Documents that differ in the values of secret members only. -/
theorem alike_of_secrets {left right : Value}
    (same : secretMask.apply left = secretMask.apply right) : Alike left right := by
  have twice : ∀ value, sanitizeMask.apply value =
      (RedactionPolicy.mask {}).apply (secretMask.apply value) := by
    intro value
    rw [← sanitize_fst value [], sanitize, redactSecrets_eq, redactValue_eq_mask]
  constructor
  · rw [twice, twice, same]
  · rw [← secretPlaces_masked left, same, secretPlaces_masked]

/-- Two sources that a bundle does not tell apart: the same one, or two documents alike. -/
inductive SourcesAlike (floats : FloatText) : Source → Source → Prop where
  | same (source : Source) : SourcesAlike floats source source
  | documents {left right : List UInt8} {value other : Value}
      (first : parseBytes floats left = some value) (second : parseBytes floats right = some other)
      (alike : Alike value other) : SourcesAlike floats (.bytes left) (.bytes right)

section Alike

variable {floats : FloatText} {explain : List UInt8 → String} {request : Request}

theorem readJsonComponent_alike {left right : Source} (alike : SourcesAlike floats left right)
    (name : String) (collected : Collected) :
    readJsonComponent floats explain name left collected =
      readJsonComponent floats explain name right collected := by
  cases alike with
  | same source => rfl
  | documents first second alike =>
      simp only [readJsonComponent, first, second, alike.sanitized]

theorem create_alike {left right : String → Source}
    (alike : ∀ path ∈ request.sources, SourcesAlike floats (left path) (right path)) :
    create floats explain request left = create floats explain request right := by
  have configuration := alike (configFile request.syspilotHome) (by simp [Request.sources])
  have daemonHealth := alike request.daemonHealthPath (by simp [Request.sources])
  have same : ∀ createdAt, bundleOf floats explain request createdAt left =
      bundleOf floats explain request createdAt right := by
    intro createdAt
    simp only [bundleOf, readJsonComponent_alike configuration, readJsonComponent_alike daemonHealth]
  simp only [create, same]

end Alike

/-! ## What writing touches -/

section Touched

variable {allowed : Setup.FileOp → Prop} {next : Script (ConfigResult Unit)} {op : Setup.FileOp}
  {context temporary : String}

theorem step_keeps (own : allowed op)
    (rest : next.Keeps allowed (fun _ _ => True) fun _ => True) :
    (step op context next).Keeps allowed (fun _ _ => True) fun _ => True := by
  refine ⟨own, fun succeeded _ => ?_⟩
  cases succeeded with
  | true => exact rest
  | false => exact trivial

theorem tidied_keeps (own : allowed op) (removal : allowed (.remove temporary))
    (rest : next.Keeps allowed (fun _ _ => True) fun _ => True) :
    (tidied op temporary context next).Keeps allowed (fun _ _ => True) fun _ => True := by
  refine ⟨own, fun succeeded _ => ?_⟩
  cases succeeded with
  | true => exact rest
  | false => exact ⟨removal, fun _ _ => trivial⟩

theorem atomicWriteAt_keeps {within : String → Prop} {directory path : String} {pid : Nat}
    (target : within path) (temporary : within (documentTemporary directory pid))
    (bytes : List UInt8) :
    (atomicWriteAt directory path bytes pid).Keeps (fun op => ∀ path ∈ op.named, within path)
      (fun _ _ => True) fun _ => True := by
  have one : ∀ {path}, within path → ∀ other ∈ [path], within other := by
    intro path inside other member
    rw [List.mem_singleton.mp member]
    exact inside
  have both : ∀ other ∈ [documentTemporary directory pid, path], within other := by
    intro other member
    rcases List.mem_cons.mp member with rfl | last
    · exact temporary
    · exact one target other last
  refine step_keeps ?_ (step_keeps ?_ (step_keeps (one temporary) (tidied_keeps (one temporary)
    (one temporary) (tidied_keeps both (one temporary) (step_keeps (one target) (step_keeps ?_
      (step_keeps ?_ trivial)))))))
  all_goals
    intro other member
    cases member

end Touched

/-! ## Two machines -/

section Machines

variable {floats : FloatText} {explain : List UInt8 → String} {request : Request}

/-- The bundle of this request is not written over its own sources. -/
def Request.Apart (request : Request) : Prop :=
  ∀ createdAt, request.clock = some createdAt → ∀ path ∈ request.sources,
    (request.target createdAt).path ≠ path ∧
      documentTemporary (request.target createdAt).directory request.pid ≠ path

theorem create_keeps (apart : request.Apart) (read : String → Source) :
    (create floats explain request read).Keeps
      (fun op => ∀ path ∈ op.named, path ∉ request.sources) (fun _ _ => True) fun _ => True := by
  unfold create
  cases clock : request.clock with
  | none => exact trivial
  | some createdAt =>
      have elsewhere := apart createdAt clock
      refine Program.keeps_bind (atomicWriteAt_keeps (fun member => ?_) (fun member => ?_) _) ?_
      · exact (elsewhere _ member).1 rfl
      · exact (elsewhere _ member).2 rfl
      · intro written _
        cases written with
        | error failure => exact trivial
        | ok done => exact trivial

/-- A bundle of "/home" that goes to "/out". -/
def plainRequest : Request where
  syspilotHome := "/home"
  daemonHealthPath := "/run/health.json"
  destination := some ⟨"/out", "/out/bundle.json"⟩
  clock := some 1
  pid := 7
  version := "1"
  commit := "c"
  architecture := "x"
  operatingSystem := "linux"

theorem plainRequest_apart : plainRequest.Apart := by
  intro createdAt clock path source
  cases clock
  revert path
  decide

/-- A configuration with this key. -/
def keyDocument (key : String) : Value := .object [("gemini_api_key", .string key)]

def keyFiles (key : String) : Files :=
  (∅ : Files).insert "/home/config.json"
    ⟨bytesOf (String.ofList (pretty bitFloats 0 (keyDocument key))), ownerOnly⟩

theorem parseBytes_keyDocument (key : String) :
    parseBytes bitFloats (bytesOf (String.ofList (pretty bitFloats 0 (keyDocument key)))) =
      some (keyDocument key) := by
  have canonical : (keyDocument key).canonical 127 = true := rfl
  rw [parseBytes, fromUtf8_bytesOf, Option.bind_some, String.toList_ofList,
    parseText_pretty bitFloats (keyDocument key) canonical]
  rfl

theorem keyDocument_alike (key other : String) : Alike (keyDocument key) (keyDocument other) :=
  alike_of_secrets rfl

theorem sourcesOf_keyFiles (key : String) : ∀ path ∈ plainRequest.sources,
    sourcesOf (fun _ => none) (keyFiles key) path = if path = "/home/config.json" then
      .bytes (bytesOf (String.ofList (pretty bitFloats 0 (keyDocument key)))) else .missing := by
  intro path source
  simp only [Request.sources, List.mem_cons, List.not_mem_nil, or_false] at source
  rcases source with rfl | rfl
  · rfl
  · rfl

/-- The source holds a JSON document. -/
def Source.Parsed (floats : FloatText) (source : Source) : Prop :=
  ∃ content value, source = .bytes content ∧ parseBytes floats content = some value

/-- Every record so far is of a component that is there. -/
def Collected.Available (collected : Collected) : Prop :=
  (collected.components.all fun component => component.state == .available) = true

theorem note_available (collected : Collected) (name : String) (state : ComponentState)
    (detail : String) :
    (collected.note name state detail).Available ↔ collected.Available ∧ state = .available := by
  simp only [Collected.Available, Collected.note, List.all_append, List.all_cons, List.all_nil,
    Bool.and_true, Bool.and_eq_true, beq_iff_eq]

theorem readJsonComponent_available (name : String) (source : Source) (collected : Collected) :
    (readJsonComponent floats explain name source collected).2.Available ↔
      collected.Available ∧ source.Parsed floats := by
  cases source with
  | missing =>
      simp only [readJsonComponent, note_available, Source.Parsed, reduceCtorEq, false_and,
        exists_false]
  | failed error =>
      simp only [readJsonComponent, note_available, Source.Parsed, reduceCtorEq, false_and,
        exists_false]
  | bytes content =>
      cases parsed : parseBytes floats content with
      | none =>
          have unparsed : ¬ (Source.bytes content).Parsed floats := by
            rintro ⟨other, value, same, found⟩
            cases same
            rw [parsed] at found
            cases found
          simp only [readJsonComponent, parsed, note_available, reduceCtorEq, unparsed]
      | some value =>
          have there : (Source.bytes content).Parsed floats := ⟨content, value, rfl, parsed⟩
          simp only [readJsonComponent, parsed, there, and_true]
          exact (note_available collected name .available _).trans (and_iff_left rfl)

theorem complete_iff (createdAt : Nat) (read : String → Source) :
    (bundleOf floats explain request createdAt read).complete = true ↔
      ∀ path ∈ request.sources, (read path).Parsed floats := by
  have first := @readJsonComponent_available floats explain "configuration"
    (read (configFile request.syspilotHome)) {}
  have second := @readJsonComponent_available floats explain "daemon_health"
    (read request.daemonHealthPath) (readJsonComponent floats explain "configuration"
      (read (configFile request.syspilotHome)) {}).2
  have third := note_available (readJsonComponent floats explain "daemon_health"
    (read request.daemonHealthPath) (readJsonComponent floats explain "configuration"
      (read (configFile request.syspilotHome)) {}).2).2 "system" .available
    "included without process arguments, environment, usernames, paths, or addresses"
  have whole : (bundleOf floats explain request createdAt read).complete = true ↔ _ := third
  rw [whole, second, first]
  simp only [Request.sources, List.forall_mem_cons, List.not_mem_nil, false_implies, implies_true,
    and_true]
  constructor
  · intro both
    exact ⟨both.1.2, both.2⟩
  · intro both
    exact ⟨⟨rfl, both.1⟩, both.2⟩

/-- The temporary file of a bundle is not the bundle. -/
def Request.Distinct (request : Request) : Prop :=
  ∀ createdAt, request.clock = some createdAt →
    documentTemporary (request.target createdAt).directory request.pid ≠
      (request.target createdAt).path

/-- What a run leaves of a bundle that was begun. -/
structure Written (floats : FloatText) (explain : List UInt8 → String) (request : Request)
    (read : String → Source) (createdAt : Nat) (start files : Files) (code : Option Nat) : Prop where
  others : ∀ path, path ≠ (request.target createdAt).path →
    path ≠ documentTemporary (request.target createdAt).directory request.pid →
      files[path]? = start[path]?
  whole : files[(request.target createdAt).path]? = start[(request.target createdAt).path]? ∨
    files[(request.target createdAt).path]? =
      some ⟨encodeBundle floats (bundleOf floats explain request createdAt read), ownerOnly⟩
  written : code = some 0 ∨ code = some 2 →
    files[(request.target createdAt).path]? =
        some ⟨encodeBundle floats (bundleOf floats explain request createdAt read), ownerOnly⟩ ∧
      files[documentTemporary (request.target createdAt).directory request.pid]? = none
  complete : code = some 0 ∨ code = some 2 →
    (code = some 0 ↔ ∀ path ∈ request.sources, (read path).Parsed floats)

/-- The files of a run, and what it returns once the bundle is whole. -/
theorem create_always (distinct : request.Distinct) (read : String → Source) (start : Files)
    {createdAt : Nat} (clock : request.clock = some createdAt) :
    effects.Always
      (Replacing (request.target createdAt).directory (request.target createdAt).path request.pid
        (encodeBundle floats (bundleOf floats explain request createdAt read)) start)
      (fun result files => ∀ returned, result = .ok returned →
        returned.2 = bundleOf floats explain request createdAt read ∧
          Replaced (request.target createdAt).directory (request.target createdAt).path request.pid
            (encodeBundle floats (bundleOf floats explain request createdAt read)) files)
      (create floats explain request read) start := by
  unfold create
  rw [clock]
  refine Effects.always_bind (atomicWriteAt_always _ _ _ _ (distinct createdAt clock) start) ?_
  intro written files ended
  obtain ⟨replacing, replaced⟩ : Ended _ _ _ _ start written files := ended
  cases written with
  | error failure =>
      refine ⟨replacing, fun returned impossible => ?_⟩
      cases impossible
  | ok done =>
      refine ⟨replacing, fun returned same => ?_⟩
      cases same
      exact ⟨rfl, replaced rfl⟩

theorem exitCode_written {result : ConfigResult (String × SupportBundleV1)}
    (code : exitCode result = 0 ∨ exitCode result = 2) :
    ∃ returned, result = .ok returned ∧ (exitCode result = 0 ↔ returned.2.complete = true) := by
  cases result with
  | error failure =>
      rcases code with impossible | impossible <;> cases impossible
  | ok returned =>
      refine ⟨returned, rfl, ?_⟩
      simp only [exitCode]
      cases returned.2.complete <;> simp

/-- Wherever a call fails or the process ends: no file but the bundle and its temporary one
changes, the bundle is the one from before or whole, it is whole once the command says so,
and the command says that it is complete exactly when both sources hold a document. -/
theorem bundle_whole (distinct : request.Distinct) (read : String → Source) (start : Files)
    (faults : List Fault) {createdAt : Nat} (clock : request.clock = some createdAt) :
    Written floats explain request read createdAt start
      (effects.during faults (create floats explain request read) start).2
      ((effects.during faults (create floats explain request read) start).1.map exitCode) := by
  obtain ⟨replacing, ended⟩ :=
    (@create_always floats explain request distinct read start createdAt clock).during faults
  have returns : ∀ {code}, (effects.during faults (create floats explain request read)
      start).1.map exitCode = some code → code = 0 ∨ code = 2 →
        Replaced (request.target createdAt).directory (request.target createdAt).path request.pid
            (encodeBundle floats (bundleOf floats explain request createdAt read))
            (effects.during faults (create floats explain request read) start).2 ∧
          (code = 0 ↔ ∀ path ∈ request.sources, (read path).Parsed floats) := by
    intro code found ends
    obtain ⟨result, ran, rfl⟩ := Option.map_eq_some_iff.mp found
    obtain ⟨returned, rfl, complete⟩ := exitCode_written ends
    obtain ⟨same, replaced⟩ := ended _ ran returned rfl
    rw [same, complete_iff] at complete
    exact ⟨replaced, complete⟩
  refine ⟨replacing.others, replacing.document, ?_, ?_⟩
  · rintro (zero | two)
    · obtain ⟨replaced, -⟩ := returns zero (.inl rfl)
      exact ⟨replaced.document, replaced.tidy⟩
    · obtain ⟨replaced, -⟩ := returns two (.inr rfl)
      exact ⟨replaced.document, replaced.tidy⟩
  · rintro (zero | two)
    · rw [zero]
      exact iff_of_true rfl ((returns zero (.inl rfl)).2.mp rfl)
    · rw [two]
      refine iff_of_false (by decide) fun parsed => ?_
      cases (returns two (.inr rfl)).2.mpr parsed

/-- A bundle of two missing sources, with a working disk. -/
theorem bundle_whole_missing :
    Written bitFloats (fun _ => "") plainRequest (fun _ => .missing) 1 ∅
      (effects.during (List.replicate 8 ⟨false, none⟩)
        (create bitFloats (fun _ => "") plainRequest fun _ => .missing) ∅).2
      ((effects.during (List.replicate 8 ⟨false, none⟩)
        (create bitFloats (fun _ => "") plainRequest fun _ => .missing) ∅).1.map exitCode) := by
  have distinct : plainRequest.Distinct := by
    intro createdAt clock
    cases clock
    decide
  exact bundle_whole distinct (fun _ => .missing) ∅ (List.replicate 8 ⟨false, none⟩) rfl

end Machines

end SystemPilot.Support
