import Mathlib.Tactic
import SystemPilot.Telemetry.Addresses
import SystemPilot.Telemetry.Projection

/-!
# Which addresses redaction finds

A word is inspected without the punctuation around it.  The bracket that closes
the address of an IPv6 socket is inside the word, where it is not trimmed and no
address parses with it.
-/

set_option autoImplicit false

namespace SystemPilot.Telemetry

open SystemPilot.Json
open SystemPilot.Text

/-! ## Words -/

/-- The word is this text, possibly in punctuation. -/
def Spells (word core : List Char) : Prop :=
  ∃ before after, word = before ++ core ++ after ∧
    ∀ character ∈ before ++ after, isEnclosing character = true

/-- Some word of the text spells an address or a socket address. -/
def HasAddress (text : String) : Prop :=
  ∃ word ∈ splitWhitespace text.toList, ∃ core, Spells word core ∧ AddressText core

def SpellsBracketed (word : List Char) : Prop :=
  ∃ address port, Spells word (bracketedText address port)

/-! ## The words of addresses -/

theorem not_isEnclosing_of_isAddressChar {character : Char}
    (spells : isAddressChar character = true) : isEnclosing character = false := by
  cases enclosing : isEnclosing character with
  | false => rfl
  | true =>
      simp only [isEnclosing, List.contains_eq_mem, List.mem_cons, List.not_mem_nil, or_false,
        decide_eq_true_eq] at enclosing
      rcases enclosing with rfl | rfl | rfl | rfl | rfl | rfl <;> revert spells <;> decide

theorem trimMatches_spelled {word core : List Char} (spelled : Spells word core)
    (nonempty : core ≠ []) (first : ∀ character ∈ core.head?, isEnclosing character = false)
    (last : ∀ character ∈ core.getLast?, isEnclosing character = false) :
    trimMatches isEnclosing word = core := by
  obtain ⟨before, after, rfl, outside⟩ := spelled
  exact trimMatches_between isEnclosing outside nonempty first last

theorem trimMatches_address {word core : List Char} (spelled : Spells word core)
    (nonempty : core ≠ []) (characters : core.all isAddressChar = true) :
    trimMatches isEnclosing word = core := by
  rw [List.all_eq_true] at characters
  apply trimMatches_spelled spelled nonempty
  · intro character head
    exact not_isEnclosing_of_isAddressChar (characters _ (List.mem_of_mem_head? head))
  · intro character last
    exact not_isEnclosing_of_isAddressChar (characters _ (List.mem_of_mem_getLast? last))

theorem ne_nil_of_isIpAddr {text : List Char} (address : isIpAddr text = true) : text ≠ [] := by
  rintro rfl
  revert address
  decide

theorem colon_not_mem_port (port : Fin 65536) : ':' ∉ Nat.toDigits 10 port :=
  not_mem_toDigits (.inl rfl) port (by decide)

/-- Every address and IPv4 socket address is seen. -/
theorem wordSeen_of_addressText {policy : RedactionPolicy}
    (enabled : policy.ipAddresses = true) {word core : List Char} (spelled : Spells word core) (address : AddressText core) (plain : ¬ SpellsBracketed word) :
    WordSeen policy word := by
  have bare : ∀ text, isIpAddr text = true → Spells word text → WordSeen policy word := by
    intro text parses spelled
    refine .inr ⟨enabled, .inl ?_⟩
    rw [trimMatches_address spelled (ne_nil_of_isIpAddr parses) (all_of_isIpAddr parses)]
    exact parses
  cases address with
  | v4 address => exact bare _ (isIpAddr_v4 address) spelled
  | v6 address => exact bare _ (isIpAddr_v6 address) spelled
  | v4Socket address port =>
      have parses := isIpAddr_v4 address
      have characters : (address.text ++ ':' :: Nat.toDigits 10 port).all isAddressChar = true := by
        rw [List.all_append, all_of_isIpAddr parses, List.all_cons, all_toDigits (.inl rfl)]
        rfl
      refine .inr ⟨enabled, .inr ⟨address.text, Nat.toDigits 10 port, ?_,
        colon_not_mem_port port, ?_, parses⟩⟩
      · exact trimMatches_address spelled (by simp) characters
      · rw [parseUnsigned_toDigits (2 ^ 16) port port.isLt]
        rfl
  | v6Socket address port => exact absurd ⟨address, port, spelled⟩ plain

/-- What is left of a bracketed address: the opening bracket is trimmed, the
closing one is not. -/
theorem trimMatches_bracketed {word : List Char} {address : Ipv6Addr} {port : Fin 65536}
    (spelled : Spells word (bracketedText address port)) :
    trimMatches isEnclosing word = address.text ++ ']' :: ':' :: Nat.toDigits 10 port := by
  have parses := isIpAddr_v6 address
  have nonempty := ne_nil_of_isIpAddr parses
  have characters := List.all_eq_true.mp (all_of_isIpAddr parses)
  have unbracketed : Spells word (address.text ++ ']' :: ':' :: Nat.toDigits 10 port) := by
    obtain ⟨before, after, shape, outside⟩ := spelled
    refine ⟨before ++ ['['], after, by simp [shape, bracketedText], ?_⟩
    intro character member
    simp only [List.mem_append, List.mem_singleton] at member
    rcases member with (inBefore | rfl) | inAfter
    · exact outside character (List.mem_append_left _ inBefore)
    · decide
    · exact outside character (List.mem_append_right _ inAfter)
  have digits := List.all_eq_true.mp (all_toDigits (.inl rfl) port.val)
  apply trimMatches_spelled unbracketed (by simp)
  · intro character head
    rw [List.head?_append_of_ne_nil _ nonempty] at head
    exact not_isEnclosing_of_isAddressChar (characters _ (List.mem_of_mem_head? head))
  · intro character last
    have portNonempty : Nat.toDigits 10 port.val ≠ [] := Nat.toDigits_ne_nil
    have ending : address.text ++ ']' :: ':' :: Nat.toDigits 10 port =
        (address.text ++ [']', ':']) ++ Nat.toDigits 10 port := by simp
    rw [ending, List.getLast?_append_of_ne_nil _ portNonempty] at last
    exact not_isEnclosing_of_isAddressChar (digits _ (List.mem_of_mem_getLast? last))

/-- No policy sees a bracketed address. -/
theorem not_wordSeen_bracketed (policy : RedactionPolicy) {word : List Char}
    (bracketed : SpellsBracketed word) : ¬ WordSeen policy word := by
  obtain ⟨address, port, spelled⟩ := bracketed
  have parses := isIpAddr_v6 address
  have characters := List.all_eq_true.mp (all_of_isIpAddr parses)
  have noBracket : ∀ text : List Char, ']' ∈ text → isIpAddr text ≠ true := by
    intro text member address
    have bracket := List.all_eq_true.mp (all_of_isIpAddr address) _ member
    revert bracket
    decide
  rw [WordSeen, NamesAddress, trimMatches_bracketed spelled]
  rintro (⟨-, slash⟩ | ⟨-, whole | ⟨host, digits, shape, absent, -, hostParses⟩⟩)
  · rw [List.head?_append_of_ne_nil _ (ne_nil_of_isIpAddr parses)] at slash
    have character := characters _ (List.mem_of_mem_head? slash)
    revert character
    decide
  · exact noBracket _ (by simp) whole
  · -- The last colon is the one before the port, so the host ends in the bracket.
    have cut : rsplitOnce ':' (address.text ++ ']' :: ':' :: Nat.toDigits 10 port) =
        some (address.text ++ [']'], Nat.toDigits 10 port) := by
      have shape : address.text ++ ']' :: ':' :: Nat.toDigits 10 port =
          (address.text ++ [']']) ++ ':' :: Nat.toDigits 10 port := by simp
      rw [shape]
      exact rsplitOnce_append ':' _ _ (colon_not_mem_port port)
    rw [(rsplitOnce_iff _ _ _ _).mpr ⟨shape, absent⟩] at cut
    cases cut
    exact noBracket _ (by simp) hostParses

/-! ## Documents -/

/-- Every text of the redacted document is the replacement, or stands there in
the document and holds no address. -/
def AddressesRedacted (policy : RedactionPolicy) (value : Value) : Prop :=
  ∀ path text, Inside (redactValue policy value) path (.string text) →
    text = redacted ∨ (Inside value path (.string text) ∧ ¬ HasAddress text)

/-- A text outside sensitive members that holds the bracketed address of an IPv6
socket holds another word that is seen. -/
def BracketsSeen (policy : RedactionPolicy) (value : Value) : Prop :=
  ∀ path text, Inside value path (.string text) → Unhidden policy path →
    (∃ word ∈ splitWhitespace text.toList, SpellsBracketed word) →
      ∃ word ∈ splitWhitespace text.toList, ¬ SpellsBracketed word ∧ WordSeen policy word

theorem redacted_not_bracketed {word : List Char} (word_of : word ∈ splitWhitespace redacted.toList) :
    ¬ SpellsBracketed word := by
  rintro ⟨address, port, before, after, shape, -⟩
  have letters : ':' ∈ redacted.toList := by
    have whole : splitWhitespace redacted.toList = [redacted.toList] := by decide
    rw [whole, List.mem_singleton] at word_of
    rw [← word_of, shape]
    simp [bracketedText]
  revert letters
  decide

/-- Redaction finds every address of a document exactly when no text rests on an
IPv6 socket address alone. -/
theorem addresses_redacted_iff (policy : RedactionPolicy) (enabled : policy.ipAddresses = true)
    (value : Value) : AddressesRedacted policy value ↔ BracketsSeen policy value := by
  constructor
  · intro covered path text inside unhidden ⟨word, member, bracketed⟩
    have place : Inside (redactValue policy value) path (.string (redactText policy text)) := by
      rw [redactValue_eq_mask]
      exact Mask.inside_apply_of_clear policy.mask inside unhidden
    by_cases token : HasToken policy text
    · obtain ⟨other, otherMember, seen⟩ := (hasToken_iff policy text).mp token
      exact ⟨other, otherMember, fun bracketed => not_wordSeen_bracketed policy bracketed seen, seen⟩
    · rw [redactText_of_no_token token] at place
      rcases covered path text place with rfl | ⟨-, free⟩
      · exact absurd bracketed (redacted_not_bracketed member)
      · obtain ⟨address, port, spelled⟩ := bracketed
        exact absurd ⟨word, member, _, spelled, .v6Socket address port⟩ free
  · intro seen path text inside
    rw [redactValue_eq_mask] at inside
    rcases Mask.inside_apply policy.mask inside with ⟨clear, before, original, same⟩ | ⟨-, same⟩
    · cases before with
      | string before =>
          have out : text = redactText policy before := Value.string.inj same
          by_cases token : HasToken policy before
          · rw [redactText_of_token token] at out
            exact .inl out
          · rw [redactText_of_no_token token] at out
            subst out
            refine .inr ⟨original, ?_⟩
            rintro ⟨word, member, core, spelled, address⟩
            apply token
            rw [hasToken_iff]
            by_cases bracketed : SpellsBracketed word
            · obtain ⟨other, otherMember, -, otherSeen⟩ :=
                seen path text original clear ⟨word, member, bracketed⟩
              exact ⟨other, otherMember, otherSeen⟩
            · exact ⟨word, member, wordSeen_of_addressText enabled spelled address bracketed⟩
      | _ => cases same
    · exact .inl (Value.string.inj same)

/-- An IPv4 socket address is found by itself. -/
theorem addresses_redacted_v4 : AddressesRedacted {} (.string "from 10.0.0.7:80") := by
  refine (addresses_redacted_iff {} rfl _).mpr ?_
  intro path text inside _ bracketed
  obtain ⟨word, member, address, port, before, after, shape, -⟩ := bracketed
  cases inside
  have words : splitWhitespace "from 10.0.0.7:80".toList =
      ["from".toList, "10.0.0.7:80".toList] := by decide
  rw [words] at member
  have bracket : '[' ∈ word := by simp [shape, bracketedText]
  rcases List.mem_cons.mp member with rfl | member
  · exact absurd bracket (by decide)
  · rw [List.mem_singleton.mp member] at bracket
    exact absurd bracket (by decide)

theorem loopback_bounds : 0 < 65536 ∧ 1 < 65536 := by decide

theorem loopback_eight :
    (List.replicate 7 (Fin.mk 0 loopback_bounds.1) ++ [Fin.mk 1 loopback_bounds.2]).length = 8 := rfl

def loopback : Ipv6Addr where
  segments := List.replicate 7 (Fin.mk 0 loopback_bounds.1) ++ [Fin.mk 1 loopback_bounds.2]
  eight := loopback_eight

/-- The socket address of port 80 on the IPv6 loopback is left in the text. -/
theorem bracketed_address_survives : ¬ AddressesRedacted {} (.string "at [::1]:80") := by
  intro covered
  have kept : redactValue {} (.string "at [::1]:80") = .string "at [::1]:80" := by decide
  have place : Inside (redactValue {} (.string "at [::1]:80")) [] (.string "at [::1]:80") := by
    rw [kept]
    exact .here _
  rcases covered [] _ place with same | ⟨-, free⟩
  · revert same
    decide
  · refine free ⟨"[::1]:80".toList, by decide, bracketedText loopback 80, ⟨[], [], by decide, ?_⟩,
      .v6Socket loopback 80⟩
    intro character member
    cases member

end SystemPilot.Telemetry
