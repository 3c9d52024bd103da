import Mathlib.Tactic
import SystemPilot.Json.Mask
import SystemPilot.Telemetry.Projection

/-!
# Sanitized support bundles

`redact_secrets` walks the document with the path of each member and records the
members it replaces; the default redaction policy follows.
-/

set_option autoImplicit false

namespace SystemPilot.Support

open SystemPilot.Json
open SystemPilot.Text
open SystemPilot.Telemetry

def secretKey (key : String) : Bool :=
  let key := toAsciiLowercase key
  ["authorization", "cookie", "set_cookie", "password", "passwd", "secret", "credential",
      "credentials"].contains key ||
    endsWith key "_api_key" || endsWith key "_token" || endsWith key "_secret" ||
    endsWith key "_password" || endsWith key "_credential"

/-- The text of a path one step further. -/
def placeText (path : String) : Place → String
  | .key name => if path = "" then name else path ++ "." ++ name
  | .index position => path ++ "[" ++ toString position ++ "]"

mutual

def redactSecrets (removed : List String) (path : String) : Value → Value × List String
  | .object fields =>
      let walked := redactSecretFields removed path fields
      (.object walked.1, walked.2)
  | .array items =>
      let walked := redactSecretItems removed path 0 items
      (.array walked.1, walked.2)
  | .string text => (.string text, removed)
  | .null => (.null, removed)
  | .bool value => (.bool value, removed)
  | .number value => (.number value, removed)

def redactSecretItems (removed : List String) (path : String) (index : Nat) :
    List Value → List Value × List String
  | [] => ([], removed)
  | child :: rest =>
      let walked := redactSecrets removed (placeText path (.index index)) child
      let others := redactSecretItems walked.2 path (index + 1) rest
      (walked.1 :: others.1, others.2)

def redactSecretFields (removed : List String) (path : String) :
    List (String × Value) → List (String × Value) × List String
  | [] => ([], removed)
  | (key, child) :: rest =>
      let field := placeText path (.key key)
      let walked :=
        if secretKey key then (.string redacted, removed ++ [field])
        else redactSecrets removed field child
      let others := redactSecretFields walked.2 path rest
      ((key, walked.1) :: others.1, others.2)

end

def sanitize (value : Value) (removed : List String) : Value × List String :=
  let walked := redactSecrets removed "" value
  (redactValue {} walked.1, walked.2)

/-! ## The mask of the secret rule -/

def secretMask : Mask where
  hides := secretKey
  replacement := redacted
  rewrite text := text

mutual

/-- The places of the members the secret rule replaces, in the order of the document. -/
def secretPlaces : Value → List (List Place)
  | .object fields => secretFieldPlaces fields
  | .array items => secretItemPlaces 0 items
  | .string _ => []
  | .null => []
  | .bool _ => []
  | .number _ => []

def secretItemPlaces (index : Nat) : List Value → List (List Place)
  | [] => []
  | child :: rest =>
      (secretPlaces child).map (Place.index index :: ·) ++ secretItemPlaces (index + 1) rest

def secretFieldPlaces : List (String × Value) → List (List Place)
  | [] => []
  | (key, child) :: rest =>
      (if secretKey key then [[Place.key key]] else (secretPlaces child).map (Place.key key :: ·)) ++
        secretFieldPlaces rest

end

/-- The recorded text of a path. -/
def pathText (path : String) (places : List Place) : String := places.foldl placeText path

theorem map_pathText_cons (path : String) (place : Place) (below : List (List Place)) :
    (below.map (place :: ·)).map (pathText path) = below.map (pathText (placeText path place)) := by
  rw [List.map_map]
  rfl

mutual

/-- The walk masks the document and records the text of every place it replaces. -/
theorem redactSecrets_eq (removed : List String) (path : String) : ∀ value,
    redactSecrets removed path value =
      (secretMask.apply value, removed ++ (secretPlaces value).map (pathText path))
  | .object fields => by
      simp only [redactSecrets, redactSecretFields_eq removed path fields, Mask.apply, secretPlaces]
  | .array items => by
      simp only [redactSecrets, redactSecretItems_eq removed path 0 items, Mask.apply, secretPlaces]
  | .string text => by
      simp only [redactSecrets, Mask.apply, secretMask, secretPlaces, List.map_nil, List.append_nil]
  | .null => by simp only [redactSecrets, Mask.apply, secretPlaces, List.map_nil, List.append_nil]
  | .bool _ => by simp only [redactSecrets, Mask.apply, secretPlaces, List.map_nil, List.append_nil]
  | .number _ => by simp only [redactSecrets, Mask.apply, secretPlaces, List.map_nil, List.append_nil]

theorem redactSecretItems_eq (removed : List String) (path : String) (index : Nat) : ∀ items,
    redactSecretItems removed path index items =
      (secretMask.applyItems items,
        removed ++ (secretItemPlaces index items).map (pathText path))
  | [] => by
      simp only [redactSecretItems, Mask.applyItems, secretItemPlaces, List.map_nil, List.append_nil]
  | child :: rest => by
      simp only [redactSecretItems, redactSecrets_eq _ _ child, redactSecretItems_eq _ _ _ rest,
        Mask.applyItems, secretItemPlaces, List.map_append, map_pathText_cons, List.append_assoc]

theorem redactSecretFields_eq (removed : List String) (path : String) : ∀ fields,
    redactSecretFields removed path fields =
      (secretMask.applyFields fields,
        removed ++ (secretFieldPlaces fields).map (pathText path))
  | [] => by
      simp only [redactSecretFields, Mask.applyFields, secretFieldPlaces, List.map_nil,
        List.append_nil]
  | (key, child) :: rest => by
      cases secret : secretKey key with
      | true =>
          simp only [redactSecretFields, secret, if_true, redactSecretFields_eq _ _ rest,
            Mask.applyFields, secretMask, secretFieldPlaces, List.map_append, List.map_cons,
            List.map_nil, pathText, List.foldl_cons, List.foldl_nil, List.append_assoc]
      | false =>
          simp only [redactSecretFields, secret, Bool.false_eq_true, if_false,
            redactSecrets_eq _ _ child, redactSecretFields_eq _ _ rest, Mask.applyFields,
            secretFieldPlaces, List.map_append, map_pathText_cons, List.append_assoc]
          simp only [secretMask, secret, Bool.false_eq_true, if_false]

end

/-! ## The recorded places -/

theorem mem_secretFieldPlaces (fields : List (String × Value)) (path : List Place) :
    path ∈ secretFieldPlaces fields ↔
      ∃ name child below, path = Place.key name :: below ∧ (name, child) ∈ fields ∧
        ((secretKey name = true ∧ below = []) ∨
          (secretKey name = false ∧ below ∈ secretPlaces child)) := by
  induction fields with
  | nil => simp [secretFieldPlaces]
  | cons field rest inductionHypothesis =>
      obtain ⟨key, child⟩ := field
      rw [secretFieldPlaces, List.mem_append, inductionHypothesis]
      cases secret : secretKey key <;> grind

theorem mem_secretItemPlaces (items : List Value) (index : Nat) (path : List Place) :
    path ∈ secretItemPlaces index items ↔
      ∃ position child below, path = Place.index (index + position) :: below ∧
        items[position]? = some child ∧ below ∈ secretPlaces child := by
  induction items generalizing index with
  | nil => simp [secretItemPlaces]
  | cons item rest inductionHypothesis =>
      rw [secretItemPlaces, List.mem_append, inductionHypothesis, List.mem_map]
      constructor
      · rintro (⟨below, member, rfl⟩ | ⟨position, child, below, rfl, found, member⟩)
        · exact ⟨0, item, below, rfl, rfl, member⟩
        · refine ⟨position + 1, child, below, ?_, found, member⟩
          rw [Nat.add_right_comm, Nat.add_assoc]
      · rintro ⟨position, child, below, rfl, found, member⟩
        cases position with
        | zero =>
            cases found
            exact .inl ⟨below, member, rfl⟩
        | succ position =>
            refine .inr ⟨position, child, below, ?_, found, member⟩
            rw [Nat.add_right_comm, Nat.add_assoc]

theorem nil_not_mem_secretPlaces (value : Value) : [] ∉ secretPlaces value := by
  cases value with
  | object fields => simp [secretPlaces, mem_secretFieldPlaces]
  | array items => simp [secretPlaces, mem_secretItemPlaces]
  | _ => exact List.not_mem_nil

theorem key_mem_secretPlaces (name : String) (path : List Place) (value : Value) :
    Place.key name :: path ∈ secretPlaces value ↔
      ∃ fields child, value = .object fields ∧ (name, child) ∈ fields ∧
        ((secretKey name = true ∧ path = []) ∨
          (secretKey name = false ∧ path ∈ secretPlaces child)) := by
  constructor
  · intro member
    cases value with
    | object fields =>
        obtain ⟨key, child, below, shape, found, rule⟩ := (mem_secretFieldPlaces fields _).mp member
        cases shape
        exact ⟨fields, child, rfl, found, rule⟩
    | array items =>
        obtain ⟨position, child, below, shape, -⟩ := (mem_secretItemPlaces items 0 _).mp member
        cases shape
    | _ => exact absurd member List.not_mem_nil
  · rintro ⟨fields, child, rfl, found, rule⟩
    exact (mem_secretFieldPlaces fields _).mpr ⟨name, child, path, rfl, found, rule⟩

theorem index_mem_secretPlaces (position : Nat) (path : List Place) (value : Value) :
    Place.index position :: path ∈ secretPlaces value ↔
      ∃ items child, value = .array items ∧ items[position]? = some child ∧
        path ∈ secretPlaces child := by
  constructor
  · intro member
    cases value with
    | object fields =>
        obtain ⟨key, child, below, shape, -⟩ := (mem_secretFieldPlaces fields _).mp member
        cases shape
    | array items =>
        obtain ⟨index, child, below, shape, found, deeper⟩ :=
          (mem_secretItemPlaces items 0 _).mp member
        rw [Nat.zero_add] at shape
        cases shape
        exact ⟨items, child, rfl, found, deeper⟩
    | _ => exact absurd member List.not_mem_nil
  · rintro ⟨items, child, rfl, found, deeper⟩
    exact (mem_secretItemPlaces items 0 _).mpr
      ⟨position, child, path, by rw [Nat.zero_add], found, deeper⟩

/-- The places recorded are those of the members the secret rule replaces. -/
theorem mem_secretPlaces_iff (path : List Place) (value : Value) :
    path ∈ secretPlaces value ↔ secretMask.Hidden value path := by
  induction path generalizing value with
  | nil => exact iff_of_false (nil_not_mem_secretPlaces value) (Mask.not_hidden_nil secretMask value)
  | cons place path inductionHypothesis =>
      cases place with
      | key name =>
          rw [key_mem_secretPlaces, Mask.hidden_key_iff]
          simp only [inductionHypothesis]
          rfl
      | index position =>
          rw [index_mem_secretPlaces, Mask.hidden_index_iff]
          simp only [inductionHypothesis]

/-! ## What sanitizing hides -/

def sanitizeMask : Mask := secretMask.andThen (RedactionPolicy.mask {})

theorem sanitize_fst (value : Value) (removed : List String) :
    (sanitize value removed).1 = sanitizeMask.apply value := by
  have oneText : (RedactionPolicy.mask {}).replacement = secretMask.replacement := rfl
  have steps : (sanitize value removed).1 =
      (RedactionPolicy.mask {}).apply (secretMask.apply value) := by
    rw [← redactValue_eq_mask, sanitize, redactSecrets_eq]
  rw [steps, Mask.apply_apply oneText (redactText_redacted {}), sanitizeMask]

theorem sanitize_snd (value : Value) (removed : List String) :
    (sanitize value removed).2 = removed ++ (secretPlaces value).map (pathText "") := by
  rw [sanitize, redactSecrets_eq]

theorem sanitize_idempotent (value : Value) (removed again : List String) :
    (sanitize (sanitize value removed).1 again).1 = (sanitize value removed).1 := by
  have stable : sanitizeMask.rewrite sanitizeMask.replacement = sanitizeMask.replacement := by
    simp only [sanitizeMask, Mask.andThen, secretMask, RedactionPolicy.mask, Function.comp,
      redactText_redacted]
  have twice : sanitizeMask.andThen sanitizeMask = sanitizeMask := by
    simp only [sanitizeMask, Mask.andThen, secretMask, RedactionPolicy.mask, Bool.or_self,
      Mask.mk.injEq, true_and]
    funext text
    simp only [Function.comp, redactText_idempotent]
  rw [sanitize_fst, sanitize_fst, Mask.apply_apply rfl stable, twice]

/-- The names a secret goes by, alone or behind an underscore. -/
def secretWords : List String := ["api_key", "token", "secret", "password", "credential"]

def NamesSecret (key : String) : Prop :=
  ∃ word ∈ secretWords, toAsciiLowercase key = word ∨
    endsWith (toAsciiLowercase key) ("_" ++ word) = true

/-- The two names the rule knows only behind an underscore. -/
def BareSecret (key : String) : Prop :=
  toAsciiLowercase key = "api_key" ∨ toAsciiLowercase key = "token"

theorem secretKey_or_bare {key : String} (names : NamesSecret key) :
    secretKey key = true ∨ BareSecret key := by
  obtain ⟨word, known, names⟩ := names
  simp only [secretWords, List.mem_cons, List.not_mem_nil, or_false] at known
  rcases names with bare | behind
  · rcases known with rfl | rfl | rfl | rfl | rfl
    · exact .inr (.inl bare)
    · exact .inr (.inr bare)
    all_goals
      simp only [secretKey, bare]
      exact .inl (by decide)
  · left
    rcases known with rfl | rfl | rfl | rfl | rfl <;>
      simp only [secretKey, Bool.or_eq_true] <;> grind

theorem BareSecret.namesSecret {key : String} (bare : BareSecret key) : NamesSecret key := by
  rcases bare with apiKey | token
  · exact ⟨"api_key", by decide, .inl apiKey⟩
  · exact ⟨"token", by decide, .inl token⟩

/-- Neither rule hides a bare name. -/
theorem BareSecret.shown {key : String} (bare : BareSecret key) : sanitizeMask.hides key = false := by
  have rules : sanitizeMask.hides key = (secretKey key || sensitiveKey key {}) := rfl
  rw [rules]
  rcases bare with name | name <;> simp only [secretKey, sensitiveKey, name] <;> decide

/-- What a support bundle promises of one sanitized document. -/
structure CarriesNoSecrets (value : Value) (removed : List String) : Prop where
  members : ∀ path fields name child,
    Inside (sanitize value removed).1 path (.object fields) → (name, child) ∈ fields →
      NamesSecret name → child = .string redacted
  nothingBelow : ∀ path inner, Inside (sanitize value removed).1 path inner →
    (∃ name, Place.key name ∈ path ∧ NamesSecret name) → inner = .string redacted
  idempotent : ∀ again, (sanitize (sanitize value removed).1 again).1 = (sanitize value removed).1
  recorded : ∃ places : List (List Place),
    (sanitize value removed).2 = removed ++ places.map (pathText "") ∧
      ∀ path, path ∈ places ↔ secretMask.Hidden value path

/-- Every member with a bare name that no rule reaches above holds a text that is
the replacement, or one redacted for a word in it. -/
def BareSecretsCovered (value : Value) : Prop :=
  ∀ above name child, Inside value (above ++ [Place.key name]) child →
    (∀ other, Place.key other ∈ above → secretKey other = false ∧ sensitiveKey other {} = false) →
      BareSecret name →
        ∃ text, child = .string text ∧
          (text = redacted ∨ ∃ word ∈ splitWhitespace text.toList, WordSeen {} word)

theorem sanitizeMask_clear_iff (path : List Place) :
    sanitizeMask.Clear path ↔ ∀ other, Place.key other ∈ path →
      secretKey other = false ∧ sensitiveKey other {} = false := by
  have rules : ∀ key, sanitizeMask.hides key = (secretKey key || sensitiveKey key {}) := fun _ => rfl
  simp only [Mask.Clear, rules, Bool.or_eq_false_iff]

theorem sanitizeMask_apply_eq_redacted (value : Value) :
    sanitizeMask.apply value = .string redacted ↔
      ∃ text, value = .string text ∧
        (text = redacted ∨ ∃ word ∈ splitWhitespace text.toList, WordSeen {} word) := by
  have rewrites : ∀ text, sanitizeMask.apply (.string text) = .string (redactText {} text) :=
    fun text => rfl
  constructor
  · intro same
    cases value with
    | string text =>
        rw [rewrites, Value.string.injEq] at same
        refine ⟨text, rfl, ?_⟩
        by_cases token : HasToken {} text
        · exact .inr ((hasToken_iff {} text).mp token)
        · rw [redactText_of_no_token token] at same
          exact .inl same
    | _ => simp only [Mask.apply, reduceCtorEq] at same
  · rintro ⟨text, rfl, rfl | seen⟩
    · rw [rewrites, redactText_redacted]
    · rw [rewrites, redactText_of_token ((hasToken_iff {} text).mpr seen)]

/-- Nothing below a secret name survives where the bare names are covered. -/
theorem nothing_below {value : Value} (covered : BareSecretsCovered value) {path : List Place}
    {inner : Value} (inside : Inside (sanitizeMask.apply value) path inner) {name : String}
    (named : Place.key name ∈ path) (names : NamesSecret name) : inner = .string redacted := by
  rcases Mask.inside_apply sanitizeMask inside with ⟨clear, original, found, rfl⟩ | ⟨-, same⟩
  · obtain ⟨above, below, rfl⟩ := List.append_of_mem named
    have bare : BareSecret name := by
      have shown := ((sanitizeMask_clear_iff _).mp clear name named).1
      exact (secretKey_or_bare names).resolve_left (by simp [shown])
    have shape : above ++ Place.key name :: below = (above ++ [Place.key name]) ++ below := by simp
    rw [shape] at found
    obtain ⟨child, upper, lower⟩ := Inside.split _ _ found
    have clearAbove := (sanitizeMask_clear_iff _).mp fun other named =>
      clear other (List.mem_append_left _ named)
    obtain ⟨text, rfl, replaced⟩ := covered above name child upper clearAbove bare
    cases lower
    exact (sanitizeMask_apply_eq_redacted _).mpr ⟨text, rfl, replaced⟩
  · exact same

/-- A sanitized document carries no secrets exactly when its members named
`api_key` or `token` are covered by another rule. -/
theorem carries_no_secrets_iff (value : Value) (removed : List String) :
    CarriesNoSecrets value removed ↔ BareSecretsCovered value := by
  constructor
  · intro promise above name child inside clear bare
    obtain ⟨parent, upper, lower⟩ := Inside.split _ _ inside
    have clearPath : sanitizeMask.Clear (above ++ [Place.key name]) :=
      ((sanitizeMask_clear_iff _).mpr clear).append
        ((Mask.clear_key_iff _ _ _).mpr ⟨bare.shown, Mask.clear_nil _⟩)
    have place := Mask.inside_apply_of_clear sanitizeMask inside clearPath
    rw [← sanitize_fst value removed] at place
    have replaced := promise.nothingBelow _ _ place
      ⟨name, List.mem_append_right _ List.mem_cons_self, bare.namesSecret⟩
    exact (sanitizeMask_apply_eq_redacted child).mp replaced
  · intro covered
    refine ⟨?members, ?nothingBelow, ?idempotent, ?recorded⟩
    case members =>
      intro path fields name child inside found names
      rw [sanitize_fst] at inside
      have below : Inside (sanitizeMask.apply value) (path ++ [Place.key name]) child :=
        inside.trans (.member found (.here child))
      exact nothing_below covered below (List.mem_append_right _ List.mem_cons_self) names
    case nothingBelow =>
      rintro path inner inside ⟨name, named, names⟩
      rw [sanitize_fst] at inside
      exact nothing_below covered inside named names
    case idempotent => exact sanitize_idempotent value removed
    case recorded =>
      exact ⟨secretPlaces value, sanitize_snd value removed, fun path =>
        mem_secretPlaces_iff path value⟩

/-- The value of a member named `token` reaches the bundle. -/
theorem bare_token_survives : ¬ CarriesNoSecrets (.object [("token", .string "abc")]) [] := by
  intro promise
  have kept : (sanitize (.object [("token", .string "abc")]) []).1 =
      .object [("token", .string "abc")] := by decide
  have inside : Inside (sanitize (.object [("token", .string "abc")]) []).1 []
      (.object [("token", .string "abc")]) := by
    rw [kept]
    exact .here _
  have replaced := promise.members [] _ "token" _ inside List.mem_cons_self
    ⟨"token", by decide, .inl (by decide)⟩
  revert replaced
  decide

end SystemPilot.Support
