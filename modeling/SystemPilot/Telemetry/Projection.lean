import Mathlib.Tactic
import SystemPilot.Json.Mask
import SystemPilot.Telemetry.Redaction

/-!
# Redaction as a projection

`redact_value` is a mask.  Policies are ordered by what they hide, and what a
smaller policy left is redacted by a larger one as if it had come first.
-/

set_option autoImplicit false

namespace SystemPilot.Telemetry

open SystemPilot.Json
open SystemPilot.Text

/-! ## The mask of a policy -/

def RedactionPolicy.mask (policy : RedactionPolicy) : Mask where
  hides key := sensitiveKey key policy
  replacement := redacted
  rewrite := redactText policy

mutual

theorem redactValue_eq_mask (policy : RedactionPolicy) :
    ∀ value, redactValue policy value = policy.mask.apply value
  | .object fields => by simp only [redactValue, Mask.apply, redactFields_eq_mask policy fields]
  | .array items => by simp only [redactValue, Mask.apply, redactItems_eq_mask policy items]
  | .string _ => rfl
  | .null => rfl
  | .bool _ => rfl
  | .number _ => rfl

theorem redactItems_eq_mask (policy : RedactionPolicy) :
    ∀ items, redactItems policy items = policy.mask.applyItems items
  | [] => rfl
  | item :: rest => by
      simp only [redactItems, Mask.applyItems, redactValue_eq_mask policy item,
        redactItems_eq_mask policy rest]

theorem redactFields_eq_mask (policy : RedactionPolicy) :
    ∀ fields, redactFields policy fields = policy.mask.applyFields fields
  | [] => rfl
  | (key, child) :: rest => by
      simp only [redactFields, Mask.applyFields, redactValue_eq_mask policy child,
        redactFields_eq_mask policy rest]
      rfl

end

/-! ## Larger policies -/

/-- Every flag of the first policy is set in the second. -/
instance : LE RedactionPolicy where
  le smaller larger :=
    smaller.commandArguments ≤ larger.commandArguments ∧
      smaller.environmentVariables ≤ larger.environmentVariables ∧
      smaller.paths ≤ larger.paths ∧ smaller.usernames ≤ larger.usernames ∧
      smaller.ipAddresses ≤ larger.ipAddresses ∧
      smaller.sourceSnippets ≤ larger.sourceSnippets

instance (smaller larger : RedactionPolicy) : Decidable (smaller ≤ larger) :=
  inferInstanceAs (Decidable (_ ∧ _))

/-- A rule behind a flag hides more when the flag is set. -/
theorem and_flag_le {smaller larger : Bool} (covers : smaller ≤ larger) {rule : Bool}
    (applies : (smaller && rule) = true) : (larger && rule) = true := by
  rw [Bool.and_eq_true] at applies ⊢
  exact ⟨covers applies.1, applies.2⟩

theorem sensitiveKey_mono {smaller larger : RedactionPolicy} (covers : smaller ≤ larger)
    {key : String} (sensitive : sensitiveKey key smaller = true) :
    sensitiveKey key larger = true := by
  obtain ⟨arguments, environment, paths, users, addresses, snippets⟩ := covers
  simp only [sensitiveKey, Bool.or_eq_true] at sensitive ⊢
  rcases sensitive with ((((rule | rule) | rule) | rule) | rule) | rule
  · exact .inl (.inl (.inl (.inl (.inl (and_flag_le arguments rule)))))
  · exact .inl (.inl (.inl (.inl (.inr (and_flag_le environment rule)))))
  · exact .inl (.inl (.inl (.inr (and_flag_le paths rule))))
  · exact .inl (.inl (.inr (and_flag_le users rule)))
  · exact .inl (.inr (and_flag_le addresses rule))
  · exact .inr (and_flag_le snippets rule)

/-- The text holds a word the policy redacts it for. -/
def HasToken (policy : RedactionPolicy) (text : String) : Prop :=
  containsPath policy text = true ∨ containsIp policy text = true

instance (policy : RedactionPolicy) (text : String) : Decidable (HasToken policy text) :=
  inferInstanceAs (Decidable (_ ∨ _))

theorem HasToken.mono {smaller larger : RedactionPolicy} (covers : smaller ≤ larger)
    {text : String} (token : HasToken smaller text) : HasToken larger text := by
  obtain ⟨_, _, paths, _, addresses, _⟩ := covers
  rcases token with path | address
  · exact .inl (and_flag_le paths path)
  · exact .inr (and_flag_le addresses address)

theorem redactText_of_token {policy : RedactionPolicy} {text : String}
    (token : HasToken policy text) : redactText policy text = redacted := by
  rw [redactText, if_pos]
  rwa [Bool.or_eq_true]

theorem redactText_of_no_token {policy : RedactionPolicy} {text : String}
    (plain : ¬ HasToken policy text) : redactText policy text = text := by
  rw [redactText, if_neg]
  rwa [Bool.or_eq_true]

theorem redactText_redactText {smaller larger : RedactionPolicy} (covers : smaller ≤ larger)
    (text : String) : redactText larger (redactText smaller text) = redactText larger text := by
  by_cases token : HasToken smaller text
  · rw [redactText_of_token token, redactText_redacted, redactText_of_token (token.mono covers)]
  · rw [redactText_of_no_token token]

theorem mask_andThen {smaller larger : RedactionPolicy} (covers : smaller ≤ larger) :
    smaller.mask.andThen larger.mask = larger.mask := by
  have hides : ∀ key, (sensitiveKey key smaller || sensitiveKey key larger) =
      sensitiveKey key larger := by
    intro key
    cases sensitive : sensitiveKey key smaller with
    | true => rw [sensitiveKey_mono covers sensitive, Bool.or_self]
    | false => rw [Bool.false_or]
  simp only [Mask.andThen, RedactionPolicy.mask, hides, Mask.mk.injEq, true_and]
  funext text
  exact redactText_redactText covers text

/-- A larger policy redacts what a smaller one left as it would the document itself. -/
theorem redactValue_redactValue {smaller larger : RedactionPolicy} (covers : smaller ≤ larger)
    (value : Value) :
    redactValue larger (redactValue smaller value) = redactValue larger value := by
  have oneText : larger.mask.replacement = smaller.mask.replacement := rfl
  rw [redactValue_eq_mask, redactValue_eq_mask, redactValue_eq_mask,
    Mask.apply_apply oneText (redactText_redacted larger), mask_andThen covers]

/-! ## Words -/

/-- The text parses as an address, or as an address and a port. -/
def NamesAddress (text : List Char) : Prop :=
  isIpAddr text = true ∨
    ∃ host port, text = host ++ ':' :: port ∧ ':' ∉ port ∧
      (parseUnsigned (2 ^ 16) port).isSome = true ∧ isIpAddr host = true

/-- The word, trimmed, is one the policy redacts its text for. -/
def WordSeen (policy : RedactionPolicy) (word : List Char) : Prop :=
  (policy.paths = true ∧ (trimMatches isEnclosing word).head? = some '/') ∨
    (policy.ipAddresses = true ∧ NamesAddress (trimMatches isEnclosing word))

/-- A text is redacted exactly for a word that is seen. -/
theorem hasToken_iff (policy : RedactionPolicy) (text : String) :
    HasToken policy text ↔ ∃ word ∈ splitWhitespace text.toList, WordSeen policy word := by
  have path : containsPath policy text = true ↔ ∃ word ∈ splitWhitespace text.toList,
      policy.paths = true ∧ (trimMatches isEnclosing word).head? = some '/' := by
    simp only [containsPath, Bool.and_eq_true, List.any_eq_true, beq_iff_eq]
    grind
  have address : containsIp policy text = true ↔ ∃ word ∈ splitWhitespace text.toList,
      policy.ipAddresses = true ∧ NamesAddress (trimMatches isEnclosing word) := by
    simp only [containsIp, Bool.and_eq_true, List.any_eq_true, Bool.or_eq_true, NamesAddress]
    constructor
    · rintro ⟨asked, word, member, seen | seen⟩
      · exact ⟨word, member, asked, .inl seen⟩
      · split at seen
        · rename_i host port cut
          rw [Bool.and_eq_true] at seen
          obtain ⟨shape, absent⟩ := (rsplitOnce_iff _ _ _ _).mp cut
          exact ⟨word, member, asked, .inr ⟨host, port, shape, absent, seen⟩⟩
        · cases seen
    · rintro ⟨word, member, asked, seen | ⟨host, port, shape, absent, parses⟩⟩
      · exact ⟨asked, word, member, .inl seen⟩
      · refine ⟨asked, word, member, .inr ?_⟩
        rw [(rsplitOnce_iff _ _ _ _).mpr ⟨shape, absent⟩]
        simp only [parses, Bool.and_self]
  rw [HasToken, path, address]
  simp only [WordSeen, and_or_left, exists_or]

/-! ## What redaction keeps -/

/-- How a value outside every sensitive member may differ after redaction: an
object keeps its keys, an array its length, a text is kept unless it holds a
token, and everything else is kept. -/
def KeptShape (policy : RedactionPolicy) : Value → Value → Prop
  | .object fields, .object left => left.map Prod.fst = fields.map Prod.fst
  | .array items, .array left => left.length = items.length
  | .string text, .string left =>
      (left = text ∧ ¬ HasToken policy text) ∨ (left = redacted ∧ HasToken policy text)
  | before, after => after = before

theorem keptShape_redactValue (policy : RedactionPolicy) (value : Value) :
    KeptShape policy value (redactValue policy value) := by
  cases value with
  | object fields =>
      simp only [redactValue, KeptShape, redactFields_eq_mask, Mask.keys_applyFields]
  | array items =>
      simp only [redactValue, KeptShape, redactItems_eq_mask, Mask.applyItems_eq_map,
        List.length_map]
  | string text =>
      by_cases token : HasToken policy text
      · exact .inr ⟨redactText_of_token token, token⟩
      · exact .inl ⟨redactText_of_no_token token, token⟩
  | null => rfl
  | bool _ => rfl
  | number _ => rfl

/-- No member on the path is sensitive. -/
def Unhidden (policy : RedactionPolicy) (path : List Place) : Prop :=
  ∀ name, Place.key name ∈ path → sensitiveKey name policy = false

/-- Redaction is a projection that larger policies absorb.  Sensitive members are
replaced at every depth; every other value stays where it is, altered only in
texts that hold a token. -/
theorem redaction_projects (smaller larger : RedactionPolicy) (covers : smaller ≤ larger)
    (value : Value) :
    redactValue smaller (redactValue smaller value) = redactValue smaller value ∧
    redactValue larger (redactValue smaller value) = redactValue larger value ∧
    (∀ path fields name child, Inside (redactValue smaller value) path (.object fields) →
      (name, child) ∈ fields → sensitiveKey name smaller = true → child = .string redacted) ∧
    (∀ path before, Inside value path before → Unhidden smaller path →
      ∃ after, Inside (redactValue smaller value) path after ∧ KeptShape smaller before after) ∧
    (∀ path after, Inside (redactValue smaller value) path after → Unhidden smaller path →
      ∃ before, Inside value path before ∧ KeptShape smaller before after) ∧
    (∀ path after, Inside (redactValue smaller value) path after → ¬ Unhidden smaller path →
      after = .string redacted) := by
  refine ⟨redactValue_idempotent smaller value, redactValue_redactValue covers value,
    ?sensitive, ?kept, ?nothingNew, ?hidden⟩
  case sensitive =>
    intro path fields name child inside found sensitive
    rw [redactValue_eq_mask] at inside
    exact Mask.hidden_member smaller.mask inside found sensitive
  case kept =>
    intro path before inside unhidden
    refine ⟨redactValue smaller before, ?_, keptShape_redactValue smaller before⟩
    rw [redactValue_eq_mask, redactValue_eq_mask]
    exact Mask.inside_apply_of_clear smaller.mask inside unhidden
  case nothingNew =>
    intro path after inside unhidden
    rw [redactValue_eq_mask] at inside
    rcases Mask.inside_apply smaller.mask inside with ⟨_, before, found, rfl⟩ | ⟨hidden, _⟩
    · rw [← redactValue_eq_mask]
      exact ⟨before, found, keptShape_redactValue smaller before⟩
    · obtain ⟨above, name, rfl, _, hides, _⟩ := hidden
      have shown := unhidden name (List.mem_append_right _ List.mem_cons_self)
      rw [RedactionPolicy.mask] at hides
      simp [shown] at hides
  case hidden =>
    intro path after inside sensitive
    rw [redactValue_eq_mask] at inside
    rcases Mask.inside_apply smaller.mask inside with ⟨clear, _⟩ | ⟨_, same⟩
    · exact absurd clear sensitive
    · exact same

/-- Paths alone, then everything: a member below an array, and a text with a path. -/
theorem redaction_projects_paths :
    ({ commandArguments := false, environmentVariables := false, usernames := false,
       ipAddresses := false, sourceSnippets := false } : RedactionPolicy) ≤ {} ∧
    redactValue {} (redactValue
        { commandArguments := false, environmentVariables := false, usernames := false,
          ipAddresses := false, sourceSnippets := false }
        (.array [.object [("exe_path", .string "x"), ("user", .string "u")], .string "at /etc"])) =
      redactValue {}
        (.array [.object [("exe_path", .string "x"), ("user", .string "u")], .string "at /etc"]) :=
  ⟨by decide, (redaction_projects _ {} (by decide) _).2.1⟩

end SystemPilot.Telemetry
