import Mathlib.Tactic
import SystemPilot.Json.Printer

/-!
# What no continuation saves

The fuel of the parser only bounds its recursion: a text that is read with some
fuel is read alike with any fuel of its length.  `Refuses` is the counterpart of
`Reads`: a text that is read as no value, whatever follows it and whatever the
fuel.  Its rules carry a refused token up through arrays and objects.
-/

set_option autoImplicit false

namespace SystemPilot.Json

/-! ## Tokens get shorter -/

theorem skipSpace_length (text : List Char) : (skipSpace text).length ≤ text.length :=
  (List.dropWhile_sublist _).length_le

theorem length_of_skipSpace {text rest : List Char} {character : Char}
    (shape : skipSpace text = character :: rest) : rest.length < text.length := by
  have bounded := skipSpace_length text
  rw [shape, List.length_cons] at bounded
  omega

theorem hexEscape_length {text rest : List Char} {code : Nat}
    (found : hexEscape text = some (code, rest)) : rest.length < text.length := by
  unfold hexEscape at found
  split at found
  · simp only [Option.bind_eq_bind, Option.bind_eq_some_iff, Option.some.injEq,
      Prod.mk.injEq] at found
    obtain ⟨_, _, _, _, _, _, _, _, _, rfl⟩ := found
    simp only [List.length_cons]
    omega
  · cases found

theorem parseEscape_length {text rest : List Char} {character : Char}
    (found : parseEscape text = some (character, rest)) : rest.length < text.length := by
  unfold parseEscape at found
  split at found
  case h_9 =>
    split at found
    · cases found
    · rename_i after code later high
      have first := hexEscape_length high
      split at found
      · cases found
      · split at found
        · split at found
          · split at found
            · rename_i paired
              have second := hexEscape_length paired
              split at found
              · rw [Option.some.injEq, Prod.mk.injEq] at found
                rw [← found.2]
                simp only [List.length_cons] at first second ⊢
                omega
              · cases found
            · cases found
          · cases found
        · cases found
          simp only [List.length_cons]
          omega
  case h_10 => cases found
  all_goals
    cases found
    simp

theorem parseString_length (fuel : Nat) {text characters rest : List Char}
    (found : parseString fuel text = some (characters, rest)) : rest.length < text.length := by
  induction fuel generalizing text characters with
  | zero =>
      rw [parseString] at found
      cases found
  | succ fuel inductionHypothesis =>
      cases text with
      | nil =>
          rw [parseString] at found
          · cases found
          · simp
      | cons character others =>
          rw [parseString] at found
          split at found
          · cases found
            simp
          · split at found
            · split at found
              · cases found
              · rename_i escaped
                obtain ⟨inner, parsed, same⟩ := Option.map_eq_some_iff.mp found
                cases same
                have shorter := parseEscape_length escaped
                have tail := inductionHypothesis parsed
                rw [List.length_cons]
                omega
            · split at found
              · cases found
              · obtain ⟨inner, parsed, same⟩ := Option.map_eq_some_iff.mp found
                cases same
                have tail := inductionHypothesis parsed
                rw [List.length_cons]
                omega

theorem lexWhole_length {text digits rest : List Char}
    (found : lexWhole text = some (digits, rest)) : rest.length < text.length := by
  unfold lexWhole at found
  dsimp only at found
  split at found
  · cases found
  · rename_i begins
    cases found
    have whole := congrArg List.length (List.takeWhile_append_dropWhile (p := Char.isDigit) (l := text))
    rw [List.length_append] at whole
    have nonempty : (text.takeWhile Char.isDigit).length ≠ 0 := by
      intro empty
      exact begins (Or.inl (by rw [List.length_eq_zero_iff.mp empty]; rfl))
    omega

theorem lexFraction_length {text digits rest : List Char}
    (found : lexFraction text = some (digits, rest)) : rest.length ≤ text.length := by
  unfold lexFraction at found
  dsimp only at found
  split at found
  · rename_i after
    split at found
    · cases found
    · cases found
      have shorter := (List.dropWhile_sublist (l := after) Char.isDigit).length_le
      rw [List.length_cons]
      omega
  · cases found
    exact le_rfl

theorem lexExponent_length {text digits rest : List Char}
    (found : lexExponent text = some (digits, rest)) : rest.length ≤ text.length := by
  unfold lexExponent at found
  dsimp only at found
  split at found
  · rename_i mark after
    split at found
    · split at found
      · cases found
      · cases found
        have shorter := (List.dropWhile_sublist (l := after.drop (after.takeWhile fun character =>
          character == '+' || character == '-').length) Char.isDigit).length_le
        rw [List.length_drop] at shorter
        rw [List.length_cons]
        omega
    · cases found
      exact le_rfl
  · cases found
    exact le_rfl

theorem lexNumber_length {text rest : List Char} {number : NumberText}
    (found : lexNumber text = some (number, rest)) : rest.length < text.length := by
  unfold lexNumber at found
  dsimp only at found
  split at found
  · cases found
  · rename_i whole
    split at found
    · cases found
    · rename_i fraction
      split at found
      · cases found
      · rename_i exponent
        cases found
        have first := lexWhole_length whole
        have second := lexFraction_length fraction
        have third := lexExponent_length exponent
        split at first
        · rw [List.length_tail] at first
          omega
        · omega

/-! ## The fuel is enough -/

section Fuel

variable {floats : FloatText}

/-- A text that is read with this fuel is read alike with any fuel of what it takes, and
never to its start. -/
def Enough {Result : Type} (parse : Nat → Nat → List Char → Option (Result × List Char))
    (fuel : Nat) : Prop :=
  ∀ depth text result rest, parse fuel depth text = some (result, rest) →
    rest.length < text.length ∧ ∀ more, text.length ≤ more + rest.length →
      parse more depth text = some (result, rest)

/-- What takes something of a text needs some fuel. -/
theorem enough_of_succ {Result : Type} {parse : Nat → Option (Result × List Char)}
    {result : Result} {text rest : List Char} (shorter : rest.length < text.length)
    (reads : ∀ more, text.length ≤ more + 1 + rest.length →
      parse (more + 1) = some (result, rest)) :
    rest.length < text.length ∧ ∀ more, text.length ≤ more + rest.length →
      parse more = some (result, rest) := by
  refine ⟨shorter, ?_⟩
  intro more enough
  cases more with
  | zero => omega
  | succ more => exact reads more enough

theorem parseValue_enough {fuel : Nat} (items : Enough (parseItems floats) fuel)
    (members : Enough (parseMembers floats) fuel) : Enough (parseValue floats) (fuel + 1) := by
  intro depth text value rest parsed
  have spaces := skipSpace_length
  rw [parseValue] at parsed
  split at parsed
  case h_1 shape =>
    cases parsed
    have shorter := length_of_skipSpace shape
    simp only [List.length_cons] at shorter
    refine enough_of_succ (by omega) ?_
    intro more _
    rw [parseValue, shape]
    rfl
  case h_2 shape =>
    cases parsed
    have shorter := length_of_skipSpace shape
    simp only [List.length_cons] at shorter
    refine enough_of_succ (by omega) ?_
    intro more _
    rw [parseValue, shape]
    rfl
  case h_3 shape =>
    cases parsed
    have shorter := length_of_skipSpace shape
    simp only [List.length_cons] at shorter
    refine enough_of_succ (by omega) ?_
    intro more _
    rw [parseValue, shape]
    rfl
  case h_4 shape =>
    obtain ⟨token, found, same⟩ := Option.map_eq_some_iff.mp parsed
    cases same
    have shorter := length_of_skipSpace shape
    have tail := parseString_length _ found
    refine enough_of_succ (by omega) ?_
    intro more _
    rw [parseValue, shape]
    simp only [found, Option.map_some]
  case h_5 shape =>
    have shorter := length_of_skipSpace shape
    split at parsed
    · cases parsed
    · rename_i room
      split at parsed
      · rename_i inside
        cases parsed
        have tail := length_of_skipSpace inside
        refine enough_of_succ (by omega) ?_
        intro more _
        rw [parseValue, shape]
        simp only [if_neg room, inside]
      · rename_i unclosed
        obtain ⟨inner, found, same⟩ := Option.map_eq_some_iff.mp parsed
        cases same
        obtain ⟨tail, again⟩ := items _ _ _ _ found
        refine enough_of_succ (by grind) ?_
        intro more enough
        rw [parseValue, shape]
        simp only [if_neg room, again more (by grind)]
        rfl
  case h_6 shape =>
    have shorter := length_of_skipSpace shape
    split at parsed
    · cases parsed
    · rename_i room
      split at parsed
      · rename_i inside
        cases parsed
        have tail := length_of_skipSpace inside
        refine enough_of_succ (by omega) ?_
        intro more _
        rw [parseValue, shape]
        simp only [if_neg room, inside]
      · rename_i unclosed
        obtain ⟨inner, found, same⟩ := Option.map_eq_some_iff.mp parsed
        cases same
        obtain ⟨tail, again⟩ := members _ _ _ _ found
        refine enough_of_succ (by grind) ?_
        intro more enough
        rw [parseValue, shape]
        simp only [if_neg room, again more (by grind)]
        rfl
  case h_7 =>
    have shorter : rest.length < text.length := by
      unfold parseNumber at parsed
      split at parsed
      · cases parsed
      · rename_i lexed
        obtain ⟨number, _, same⟩ := Option.map_eq_some_iff.mp parsed
        cases same
        exact (lexNumber_length lexed).trans_le (skipSpace_length text)
    refine enough_of_succ shorter ?_
    intro more _
    rw [parseValue]
    split
    all_goals simp_all

theorem parseItems_enough {fuel : Nat} (values : Enough (parseValue floats) fuel)
    (items : Enough (parseItems floats) fuel) : Enough (parseItems floats) (fuel + 1) := by
  intro depth text parsedItems rest parsed
  rw [parseItems] at parsed
  split at parsed
  · cases parsed
  · rename_i item after first
    obtain ⟨shorter, again⟩ := values _ _ _ _ first
    split at parsed
    · rename_i comma
      have separated := length_of_skipSpace comma
      obtain ⟨inner, found, same⟩ := Option.map_eq_some_iff.mp parsed
      cases same
      obtain ⟨tail, againItems⟩ := items _ _ _ _ found
      refine enough_of_succ (by omega) ?_
      intro more enough
      rw [parseItems, again more (by omega)]
      simp only [comma, againItems more (by omega), Option.map_some]
    · rename_i bracket
      have closed := length_of_skipSpace bracket
      cases parsed
      refine enough_of_succ (by omega) ?_
      intro more enough
      rw [parseItems, again more (by omega)]
      simp only [bracket]
    · cases parsed

theorem parseMembers_enough {fuel : Nat} (values : Enough (parseValue floats) fuel)
    (members : Enough (parseMembers floats) fuel) : Enough (parseMembers floats) (fuel + 1) := by
  intro depth text parsedMembers rest parsed
  rw [parseMembers] at parsed
  split at parsed
  case h_2 => cases parsed
  case h_1 quote =>
    have opened := length_of_skipSpace quote
    split at parsed
    · cases parsed
    · rename_i key afterKey named
      have keyed := parseString_length _ named
      split at parsed
      case h_2 => cases parsed
      case h_1 colon =>
        have separated := length_of_skipSpace colon
        split at parsed
        · cases parsed
        · rename_i result after first
          obtain ⟨shorter, again⟩ := values _ _ _ _ first
          split at parsed
          · rename_i comma
            have continued := length_of_skipSpace comma
            obtain ⟨inner, found, same⟩ := Option.map_eq_some_iff.mp parsed
            cases same
            obtain ⟨tail, againMembers⟩ := members _ _ _ _ found
            refine enough_of_succ (by omega) ?_
            intro more enough
            rw [parseMembers, quote]
            simp only [named, colon, again more (by omega), comma,
              againMembers more (by omega), Option.map_some]
          · rename_i brace
            have closed := length_of_skipSpace brace
            cases parsed
            refine enough_of_succ (by omega) ?_
            intro more enough
            rw [parseMembers, quote]
            simp only [named, colon, again more (by omega), brace]
          · cases parsed

theorem parsed_enough (fuel : Nat) :
    Enough (parseValue floats) fuel ∧ Enough (parseItems floats) fuel ∧
      Enough (parseMembers floats) fuel := by
  induction fuel with
  | zero =>
      refine ⟨?_, ?_, ?_⟩
      · intro depth text value rest parsed
        rw [parseValue] at parsed
        cases parsed
      · intro depth text items rest parsed
        rw [parseItems] at parsed
        cases parsed
      · intro depth text members rest parsed
        rw [parseMembers] at parsed
        cases parsed
  | succ fuel inductionHypothesis =>
      obtain ⟨values, items, members⟩ := inductionHypothesis
      exact ⟨parseValue_enough items members, parseItems_enough values items,
        parseMembers_enough values members⟩

/-- What reads as a value is read as nothing else. -/
theorem Reads.unique {depth : Nat} {text rest after : List Char} {value other : Value}
    (reads : Reads floats depth text value) (ends : Ends rest) (fuel : Nat)
    (parsed : parseValue floats fuel depth (text ++ rest) = some (other, after)) :
    other = value ∧ after = rest := by
  have again := ((parsed_enough fuel).1 _ _ _ _ parsed).2 (text ++ rest).length (by omega)
  rw [reads _ rest (by simp) ends] at again
  cases again
  exact ⟨rfl, rfl⟩

end Fuel

/-! ## Refused texts -/

section Refuses

variable (floats : FloatText)

/-- The text, whatever follows it, is the start of no value. -/
def Refuses (depth : Nat) (text : List Char) : Prop :=
  ∀ fuel rest, parseValue floats fuel depth (text ++ rest) = none

/-- The text after an opening quote goes on to no string. -/
def RefusesString (body : List Char) : Prop :=
  ∀ fuel rest, parseString fuel (body ++ rest) = none

/-- The text goes on to no items of an array. -/
def RefusesItems (depth : Nat) (text : List Char) : Prop :=
  ∀ fuel rest, parseItems floats fuel depth (text ++ rest) = none

/-- The text goes on to no members of an object. -/
def RefusesMembers (depth : Nat) (text : List Char) : Prop :=
  ∀ fuel rest, parseMembers floats fuel depth (text ++ rest) = none

variable {floats}

theorem RefusesItems.append {depth : Nat} {text : List Char}
    (refuses : RefusesItems floats depth text) (more : List Char) :
    RefusesItems floats depth (text ++ more) := by
  intro fuel rest
  rw [List.append_assoc]
  exact refuses fuel (more ++ rest)

theorem RefusesMembers.append {depth : Nat} {text : List Char}
    (refuses : RefusesMembers floats depth text) (more : List Char) :
    RefusesMembers floats depth (text ++ more) := by
  intro fuel rest
  rw [List.append_assoc]
  exact refuses fuel (more ++ rest)

theorem refuses_string (depth : Nat) {body : List Char} (refuses : RefusesString body) :
    Refuses floats depth ('"' :: body) := by
  intro fuel rest
  cases fuel with
  | zero => rw [parseValue]
  | succ fuel =>
      have quoted : skipSpace ('"' :: body ++ rest) = '"' :: (body ++ rest) := rfl
      rw [parseValue, quoted]
      simp only [refuses _ rest, Option.map_none]

/-- An array whose items are refused, unless they start with its bracket. -/
theorem refuses_array {depth : Nat} {text : List Char} (refuses : RefusesItems floats depth text)
    (opened : ∀ rest others, skipSpace (text ++ rest) ≠ ']' :: others) :
    Refuses floats (depth + 1) ('[' :: text) := by
  intro fuel rest
  cases fuel with
  | zero => rw [parseValue]
  | succ fuel =>
      have bracket : skipSpace ('[' :: text ++ rest) = '[' :: (text ++ rest) := rfl
      have unread := refuses fuel rest
      rw [← parseItems_skipSpace] at unread
      have unclosed := opened rest
      rw [parseValue, bracket]
      simp only [Nat.add_one_ne_zero, if_false, Nat.add_sub_cancel, unread, Option.map_none]

theorem refuses_object {depth : Nat} {text : List Char}
    (refuses : RefusesMembers floats depth ('"' :: text)) :
    Refuses floats (depth + 1) ('{' :: '"' :: text) := by
  intro fuel rest
  cases fuel with
  | zero => rw [parseValue]
  | succ fuel =>
      have brace : skipSpace ('{' :: '"' :: text ++ rest) = '{' :: '"' :: (text ++ rest) := rfl
      have quote : skipSpace ('"' :: (text ++ rest)) = '"' :: (text ++ rest) := rfl
      have unread := refuses fuel rest
      rw [List.cons_append] at unread
      rw [parseValue, brace]
      simp only [Nat.add_one_ne_zero, if_false, Nat.add_sub_cancel, quote]
      change (parseMembers floats fuel depth ('"' :: (text ++ rest))).map _ = _
      rw [unread, Option.map_none]

theorem refusesItems_first {depth : Nat} {text : List Char} (refuses : Refuses floats depth text) :
    RefusesItems floats depth text := by
  intro fuel rest
  cases fuel with
  | zero => rw [parseItems]
  | succ fuel => rw [parseItems, refuses fuel rest]

theorem refusesItems_later {depth : Nat} {text later : List Char} {value : Value}
    (reads : Reads floats depth text value) (refuses : RefusesItems floats depth later) :
    RefusesItems floats depth (text ++ ',' :: later) := by
  intro fuel rest
  cases fuel with
  | zero => rw [parseItems]
  | succ fuel =>
      rw [parseItems, List.append_assoc]
      have ends : Ends (',' :: later ++ rest) := ends_of_spaces spaces_nil (Or.inl rfl) _
      cases found : parseValue floats fuel depth (text ++ (',' :: later ++ rest)) with
      | none => rfl
      | some parsed =>
          obtain ⟨rfl, same⟩ := reads.unique ends fuel found
          have comma : skipSpace parsed.2 = ',' :: (later ++ rest) := by
            rw [same]
            rfl
          simp only [comma, refuses fuel rest, Option.map_none]

theorem refusesMembers_value {depth : Nat} {body characters value : List Char}
    (named : ReadsString body characters) (refuses : Refuses floats depth value) :
    RefusesMembers floats depth ('"' :: (body ++ ':' :: value)) := by
  intro fuel rest
  cases fuel with
  | zero => rw [parseMembers]
  | succ fuel =>
      have quoted : skipSpace ('"' :: (body ++ ':' :: value) ++ rest) =
          '"' :: (body ++ (':' :: (value ++ rest))) := by simp [skipSpace, isSpace]
      have key : parseString ((body ++ (':' :: (value ++ rest))).length + 1)
          (body ++ (':' :: (value ++ rest))) = some (characters, ':' :: (value ++ rest)) :=
        named _ _ (by rw [List.length_append]; omega)
      have colon : skipSpace (':' :: (value ++ rest)) = ':' :: (value ++ rest) := rfl
      rw [parseMembers, quoted]
      simp only [key, colon, refuses fuel rest]

theorem refusesMembers_later {depth : Nat} {text later : List Char} {member : String × Value}
    (reads : ReadsMember floats depth text member)
    (refuses : RefusesMembers floats depth later) :
    RefusesMembers floats depth (text ++ ',' :: later) := by
  intro fuel rest
  rw [List.append_assoc]
  have ends : Ends (',' :: later ++ rest) := ends_of_spaces spaces_nil (Or.inl rfl) _
  -- whatever is read is read with enough fuel for the first member too
  have room : text.length ≤ (text ++ (',' :: later ++ rest)).length + 1 := by
    rw [List.length_append]
    omega
  have long := (parseMembers_first reads room ends).1 (later ++ rest) rfl
  rw [refuses, Option.map_none] at long
  cases found : parseMembers floats fuel depth (text ++ (',' :: later ++ rest)) with
  | none => rfl
  | some parsed =>
      have again := ((parsed_enough fuel).2.2 _ _ _ _ found).2
        ((text ++ (',' :: later ++ rest)).length + 1) (by omega)
      rw [long] at again
      cases again

/-- A list of texts of which one is refused and the others are read. -/
theorem refused_join (reads refuses refusesList : List Char → Prop)
    (first : ∀ text, refuses text → refusesList text)
    (append : ∀ text more, refusesList text → refusesList (text ++ more))
    (later : ∀ text tail, reads text → refusesList tail → refusesList (text ++ ',' :: tail))
    {texts : List (List Char)} (each : ∀ text ∈ texts, reads text ∨ refuses text)
    (refused : ∃ text ∈ texts, refuses text) : refusesList (joinComma texts) := by
  induction texts with
  | nil =>
      obtain ⟨_, member, _⟩ := refused
      contradiction
  | cons text rest inductionHypothesis =>
      by_cases own : refuses text
      · cases rest with
        | nil => exact first text own
        | cons next others => exact append text _ (first text own)
      · obtain ⟨bad, present, refusesBad⟩ := refused
        have tail : bad ∈ rest := by
          rcases List.mem_cons.mp present with rfl | tail
          · exact absurd refusesBad own
          · exact tail
        have remaining := inductionHypothesis (fun other member => each other (by simp [member]))
          ⟨bad, tail, refusesBad⟩
        cases rest with
        | nil => contradiction
        | cons next others =>
            exact later text _ ((each text (by simp)).resolve_right own) remaining

theorem refusesItems_join {depth : Nat} {texts : List (List Char)}
    (each : ∀ text ∈ texts, (∃ value, Reads floats depth text value) ∨ Refuses floats depth text)
    (refused : ∃ text ∈ texts, Refuses floats depth text) :
    RefusesItems floats depth (joinComma texts) := by
  refine refused_join (fun text => ∃ value, Reads floats depth text value) (Refuses floats depth)
    (RefusesItems floats depth) ?_ ?_ ?_ each refused
  · exact fun _ => refusesItems_first
  · exact fun _ more refuses => refuses.append more
  · rintro text tail ⟨value, reads⟩ refuses
    exact refusesItems_later reads refuses

theorem refusesMembers_join {depth : Nat} {texts : List (List Char)}
    (each : ∀ text ∈ texts,
      (∃ member, ReadsMember floats depth text member) ∨ RefusesMembers floats depth text)
    (refused : ∃ text ∈ texts, RefusesMembers floats depth text) :
    RefusesMembers floats depth (joinComma texts) := by
  refine refused_join (fun text => ∃ member, ReadsMember floats depth text member)
    (RefusesMembers floats depth) (RefusesMembers floats depth) ?_ ?_ ?_ each refused
  · exact fun _ refuses => refuses
  · exact fun _ more refuses => refuses.append more
  · rintro text tail ⟨member, reads⟩ refuses
    exact refusesMembers_later reads refuses

theorem parseText_of_refuses {text : List Char} (refuses : Refuses floats 127 text) :
    parseText floats text = none := by
  have parsed := refuses (text.length + 1) []
  rw [List.append_nil] at parsed
  rw [parseText, parsed]

/-! ## Texts without spaces -/

/-- A text no character of which the parser reads as anything else. -/
def PlainText (text : String) : Prop :=
  ∀ character ∈ text.toList,
    character ≠ '"' ∧ character ≠ '\\' ∧ 0x20 ≤ character.toNat

instance (text : String) : Decidable (PlainText text) :=
  List.decidableBAll _ _

theorem parseString_of_plain {text : String} (plain : PlainText text) (fuel : Nat)
    (rest : List Char) :
    parseString (fuel + text.toList.length) (text.toList ++ rest) =
      (parseString fuel rest).map fun parsed => (text.toList ++ parsed.1, parsed.2) := by
  unfold PlainText at plain
  generalize text.toList = characters at plain
  induction characters with
  | nil => simp
  | cons character characters inductionHypothesis =>
      obtain ⟨quote, backslash, printable⟩ := plain character (by simp)
      have later := inductionHypothesis fun other member => plain other (by simp [member])
      rw [List.length_cons, ← Nat.add_assoc, List.cons_append,
        parseString_plain _ _ _ quote backslash printable, later, Option.map_map]
      rfl

theorem readsString_of_plain {text : String} (plain : PlainText text) :
    ReadsString (text.toList ++ ['"']) text.toList := by
  intro fuel rest enough
  rw [List.length_append, List.length_singleton] at enough
  obtain ⟨more, rfl⟩ := Nat.exists_eq_add_of_le enough
  have closed : parseString (more + 1) ('"' :: rest) = some ([], rest) := rfl
  have room : text.toList.length + 1 + more = more + 1 + text.toList.length := by omega
  rw [room, List.append_assoc, parseString_of_plain plain, List.singleton_append, closed,
    Option.map_some, List.append_nil]

/-- A member: its quoted name, a colon and its value. -/
def memberText (name : String) (value : List Char) : List Char :=
  '"' :: (name.toList ++ ['"'] ++ ':' :: value)

theorem readsMember_text {depth : Nat} {name : String} {text : List Char} {value : Value}
    (plain : PlainText name) (reads : Reads floats depth text value) :
    ReadsMember floats depth (memberText name text) (name, value) :=
  ⟨[], _, text, rfl, spaces_nil, readsString_of_plain plain, reads⟩

theorem refusesMember_text {depth : Nat} {name : String} {text : List Char} (plain : PlainText name)
    (refuses : Refuses floats depth text) :
    RefusesMembers floats depth (memberText name text) :=
  refusesMembers_value (readsString_of_plain plain) refuses

theorem joinComma_singleton (text : List Char) : joinComma [text] = text := rfl

theorem joinComma_cons_cons (text next : List Char) (rest : List (List Char)) :
    joinComma (text :: next :: rest) = text ++ ',' :: joinComma (next :: rest) := rfl

/-- The object of some members, without spaces. -/
def objectText (members : List (List Char)) : List Char :=
  '{' :: (joinComma members ++ ['}'])

theorem reads_objectText {depth : Nat} {texts : List (List Char)} {members : Fields}
    (reads : List.Forall₂ (ReadsMember floats depth) texts members) (nonempty : texts ≠ []) :
    Reads floats (depth + 1) (objectText texts) (.object (fieldsOfMembers members)) :=
  reads_object reads nonempty spaces_nil

theorem refuses_objectText {depth : Nat} {name : String} {text : List Char}
    {texts : List (List Char)}
    (each : ∀ other ∈ memberText name text :: texts,
      (∃ field, ReadsMember floats depth other field) ∨ RefusesMembers floats depth other)
    (refused : ∃ other ∈ memberText name text :: texts, RefusesMembers floats depth other) :
    Refuses floats (depth + 1) (objectText (memberText name text :: texts)) := by
  have refuses := (refusesMembers_join each refused).append ['}']
  cases texts with
  | nil => exact refuses_object refuses
  | cons next others => exact refuses_object refuses

/-- The array of some items, without spaces. -/
def arrayText (items : List (List Char)) : List Char :=
  '[' :: (joinComma items ++ [']'])

theorem reads_arrayText {depth : Nat} {texts : List (List Char)} {values : List Value}
    (reads : List.Forall₂ (Reads floats depth) texts values) :
    Reads floats (depth + 1) (arrayText texts) (.array values) := by
  cases reads with
  | nil => exact reads_array_nil depth
  | cons first later => exact reads_array (.cons first later) (by simp) spaces_nil

theorem refuses_arrayText {depth : Nat} {texts : List (List Char)}
    (each : ∀ text ∈ texts, (∃ value, Reads floats depth text value) ∨ Refuses floats depth text)
    (refused : ∃ text ∈ texts, Refuses floats depth text)
    (opened : ∀ text ∈ texts, ∃ tail, text = '{' :: tail) :
    Refuses floats (depth + 1) (arrayText texts) := by
  have refuses := (refusesItems_join each refused).append [']']
  refine refuses_array refuses ?_
  intro rest others
  cases texts with
  | nil =>
      obtain ⟨_, present, _⟩ := refused
      contradiction
  | cons text texts =>
      obtain ⟨tail, rfl⟩ := opened text (by simp)
      cases texts with
      | nil => simp [joinComma, skipSpace, isSpace]
      | cons next later => simp [joinComma, skipSpace, isSpace]

end Refuses

end SystemPilot.Json
