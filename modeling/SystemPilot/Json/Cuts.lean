import SystemPilot.Json.Printer

/-!
# Texts that are cut

A value that was read is read the same when the text goes on, unless it is a number at its
end.  So a document that was cut off is not read as another one.
-/

set_option autoImplicit false

namespace SystemPilot.Json

/-! ## Characters that are skipped or taken -/

theorem span_append {keeps : Char → Bool} {text : List Char} (more : List Char)
    (stops : text.dropWhile keeps ≠ []) :
    (text ++ more).takeWhile keeps = text.takeWhile keeps ∧
      (text ++ more).dropWhile keeps = text.dropWhile keeps ++ more := by
  induction text with
  | nil => exact absurd rfl stops
  | cons character text inductionHypothesis =>
      by_cases kept : keeps character = true
      · rw [List.dropWhile_cons_of_pos kept] at stops
        obtain ⟨taken, dropped⟩ := inductionHypothesis stops
        rw [List.cons_append, List.takeWhile_cons_of_pos kept, List.takeWhile_cons_of_pos kept,
          List.dropWhile_cons_of_pos kept, List.dropWhile_cons_of_pos kept, taken, dropped]
        exact ⟨rfl, rfl⟩
      · rw [List.cons_append, List.takeWhile_cons_of_neg kept, List.takeWhile_cons_of_neg kept,
          List.dropWhile_cons_of_neg kept, List.dropWhile_cons_of_neg kept]
        exact ⟨rfl, rfl⟩

theorem drop_length_takeWhile (keeps : Char → Bool) (text : List Char) :
    text.drop (text.takeWhile keeps).length = text.dropWhile keeps := by
  have parts : text.takeWhile keeps ++ text.dropWhile keeps = text := List.takeWhile_append_dropWhile
  have dropped := @List.drop_left _ (text.takeWhile keeps) (text.dropWhile keeps)
  rwa [parts] at dropped

theorem skipSpace_append_of_cons {text rest : List Char} {character : Char}
    (skipped : skipSpace text = character :: rest) (more : List Char) :
    skipSpace (text ++ more) = character :: (rest ++ more) := by
  have stops : text.dropWhile isSpace ≠ [] := by
    intro none
    rw [skipSpace, none] at skipped
    cases skipped
  have kept : skipSpace (text ++ more) = skipSpace text ++ more := (span_append more stops).2
  rw [kept, skipped, List.cons_append]

/-! ## Strings -/

theorem hexEscape_append {text rest : List Char} {code : Nat}
    (read : hexEscape text = some (code, rest)) (more : List Char) :
    hexEscape (text ++ more) = some (code, rest ++ more) := by
  unfold hexEscape at read
  split at read
  · rename_i first second third fourth tail
    obtain ⟨one, firstRead, read⟩ := Option.bind_eq_some_iff.mp read
    obtain ⟨two, secondRead, read⟩ := Option.bind_eq_some_iff.mp read
    obtain ⟨three, thirdRead, read⟩ := Option.bind_eq_some_iff.mp read
    obtain ⟨four, fourthRead, read⟩ := Option.bind_eq_some_iff.mp read
    cases read
    simp only [List.cons_append, hexEscape, firstRead, secondRead, thirdRead, fourthRead,
      Option.bind_eq_bind, Option.bind_some]
  · cases read

theorem parseEscape_append {text rest : List Char} {character : Char}
    (read : parseEscape text = some (character, rest)) (more : List Char) :
    parseEscape (text ++ more) = some (character, rest ++ more) := by
  unfold parseEscape at read
  split at read
  case h_9 =>
    split at read
    · cases read
    · rename_i code tail hex
      have longer := hexEscape_append hex more
      split at read
      · cases read
      · rename_i leading
        split at read
        · rename_i surrogate
          split at read
          · rename_i low
            split at read
            · rename_i code tail second
              have further := hexEscape_append second more
              split at read
              · rename_i trailing
                obtain ⟨rfl, rfl⟩ := Prod.mk.inj (Option.some.inj read)
                rw [List.cons_append, parseEscape, longer]
                dsimp only
                rw [if_neg leading, if_pos surrogate]
                simp only [List.cons_append, further, if_pos trailing]
              · cases read
            · cases read
          · cases read
        · rename_i plain
          obtain ⟨rfl, rfl⟩ := Prod.mk.inj (Option.some.inj read)
          rw [List.cons_append, parseEscape, longer]
          dsimp only
          rw [if_neg leading, if_neg plain]
  case h_10 => cases read
  all_goals
    cases read
    rfl

theorem parseString_append {fuel : Nat} {text characters rest : List Char}
    (read : parseString fuel text = some (characters, rest)) (more : List Char) {larger : Nat}
    (enough : fuel ≤ larger) :
    parseString larger (text ++ more) = some (characters, rest ++ more) := by
  induction fuel generalizing text characters larger with
  | zero =>
      rw [parseString] at read
      cases read
  | succ fuel inductionHypothesis =>
      obtain ⟨larger, rfl⟩ := Nat.exists_eq_succ_of_ne_zero (Nat.ne_of_gt (Nat.lt_of_lt_of_le
        (Nat.succ_pos fuel) enough))
      have less := Nat.le_of_succ_le_succ enough
      cases text with
      | nil =>
          rw [parseString] at read
          · cases read
          · intro impossible
            cases impossible
      | cons character text =>
          rw [parseString] at read
          rw [List.cons_append, parseString]
          split at read
          · rename_i quote
            cases read
            rw [if_pos quote]
          · rename_i open_
            rw [if_neg open_]
            split at read
            · rename_i backslash
              rw [if_pos backslash]
              split at read
              · cases read
              · rename_i escaped tail meaning
                obtain ⟨inner, found, same⟩ := Option.map_eq_some_iff.mp read
                cases same
                rw [parseEscape_append meaning more]
                dsimp only
                rw [inductionHypothesis found less, Option.map_some]
            · rename_i plain
              rw [if_neg plain]
              split at read
              · cases read
              · rename_i printable
                obtain ⟨inner, found, same⟩ := Option.map_eq_some_iff.mp read
                cases same
                rw [if_neg printable, inductionHypothesis found less, Option.map_some]

/-! ## Numbers -/

theorem lexWhole_append {text whole rest : List Char} (read : lexWhole text = some (whole, rest))
    (stops : rest ≠ []) (more : List Char) :
    lexWhole (text ++ more) = some (whole, rest ++ more) := by
  simp only [lexWhole] at read ⊢
  split at read
  · cases read
  · rename_i digits
    cases read
    obtain ⟨taken, dropped⟩ := span_append more stops
    rw [taken, dropped, if_neg digits]

theorem lexFraction_append {text fraction rest : List Char}
    (read : lexFraction text = some (fraction, rest)) (stops : rest ≠ []) (more : List Char) :
    lexFraction (text ++ more) = some (fraction, rest ++ more) := by
  unfold lexFraction at read
  split at read
  · rename_i tail
    dsimp only at read
    split at read
    · cases read
    · rename_i digits
      cases read
      obtain ⟨taken, dropped⟩ := span_append more stops
      rw [List.cons_append, lexFraction]
      simp only [taken, dropped, if_neg digits]
  · rename_i whole
    cases read
    cases text with
    | nil => exact absurd rfl stops
    | cons character text =>
        rw [List.cons_append, lexFraction]
        intro tail same
        cases same
        exact whole text rfl

theorem lexExponent_append {text exponent rest : List Char}
    (read : lexExponent text = some (exponent, rest)) (stops : rest ≠ []) (more : List Char) :
    lexExponent (text ++ more) = some (exponent, rest ++ more) := by
  cases text with
  | nil =>
      cases read
      exact absurd rfl stops
  | cons mark text =>
      rw [lexExponent] at read
      rw [List.cons_append, lexExponent]
      split at read
      · rename_i marked
        rw [if_pos marked]
        dsimp only at read ⊢
        split at read
        · cases read
        · rename_i digits
          cases read
          obtain ⟨some, -⟩ := not_or.mp digits
          rw [drop_length_takeWhile] at some stops
          have signed : text.dropWhile (fun character => character == '+' || character == '-') ≠ [] := by
            intro none
            rw [none] at some
            exact some rfl
          obtain ⟨sign, unsigned⟩ := span_append more signed
          obtain ⟨taken, dropped⟩ := span_append more stops
          rw [drop_length_takeWhile] at digits
          have behind := drop_length_takeWhile (fun character => character == '+' || character == '-')
            (text ++ more)
          rw [sign, unsigned] at behind
          simp only [sign, behind, drop_length_takeWhile, taken, dropped, if_neg digits]
      · rename_i unmarked
        cases read
        rw [if_neg unmarked]
        rfl

theorem lexNumber_append {text rest : List Char} {number : NumberText}
    (read : lexNumber text = some (number, rest)) (stops : rest ≠ []) (more : List Char) :
    lexNumber (text ++ more) = some (number, rest ++ more) := by
  simp only [lexNumber] at read
  split at read
  · cases read
  · rename_i whole afterWhole wholeRead
    split at read
    · cases read
    · rename_i fraction afterFraction fractionRead
      split at read
      · cases read
      · rename_i exponent afterExponent exponentRead
        cases read
        have fractionStops : afterFraction ≠ [] := by
          rintro rfl
          cases exponentRead
          exact stops rfl
        have wholeStops : afterWhole ≠ [] := by
          rintro rfl
          cases fractionRead
          exact fractionStops rfl
        have start : text ≠ [] := by
          rintro rfl
          cases wholeRead
        have signs : (text ++ more).head? = text.head? := List.head?_append_of_ne_nil _ start
        have tails : (if (text.head? == some '-') = true then (text ++ more).tail else text ++ more) =
            (if (text.head? == some '-') = true then text.tail else text) ++ more := by
          split
          · exact List.tail_append_of_ne_nil start
          · rfl
        simp only [lexNumber, signs, tails, lexWhole_append wholeRead wholeStops more,
          lexFraction_append fractionRead fractionStops more,
          lexExponent_append exponentRead stops more]

/-! ## Values -/

section Values

variable {floats : FloatText}

/-- With this fuel, what a reader is sure of it reads the same when the text goes on. -/
def Extends {Result : Type} (parse : Nat → Nat → List Char → Option (Result × List Char))
    (sure : Result → List Char → Prop) (fuel : Nat) : Prop :=
  ∀ depth text result rest, parse fuel depth text = some (result, rest) → sure result rest →
    ∀ more larger, fuel ≤ larger → parse larger depth (text ++ more) = some (result, rest ++ more)

/-- A number may go on where the text ends. -/
def Sure (value : Value) (rest : List Char) : Prop :=
  rest ≠ [] ∨ ∀ number, value ≠ .number number

theorem parseValue_nil (fuel depth : Nat) : parseValue floats fuel depth [] = none := by
  cases fuel with
  | zero => rw [parseValue]
  | succ fuel => rw [parseValue]; rfl

theorem parseItems_nil (fuel depth : Nat) : parseItems floats fuel depth [] = none := by
  cases fuel with
  | zero => rw [parseItems]
  | succ fuel => rw [parseItems, parseValue_nil]

theorem parseMembers_nil (fuel depth : Nat) : parseMembers floats fuel depth [] = none := by
  cases fuel with
  | zero => rw [parseMembers]
  | succ fuel => rw [parseMembers]; rfl

/-- What stands behind an opening bracket does not close it when the text goes on. -/
theorem open_append {tail : List Char} {mark : Char} (some : skipSpace tail ≠ [])
    (open_ : ∀ rest, skipSpace tail = mark :: rest → False) (more : List Char) :
    skipSpace (tail ++ more) = skipSpace tail ++ more ∧
      ∀ rest, skipSpace (tail ++ more) = mark :: rest → False := by
  obtain ⟨first, behind, split⟩ := List.exists_cons_of_ne_nil some
  have longer := skipSpace_append_of_cons split more
  refine ⟨by rw [longer, split, List.cons_append], fun rest same => ?_⟩
  rw [longer] at same
  cases same
  exact open_ behind split

theorem parseValue_append {fuel : Nat}
    (items : Extends (parseItems floats) (fun _ _ => True) fuel)
    (members : Extends (parseMembers floats) (fun _ _ => True) fuel) :
    Extends (parseValue floats) Sure (fuel + 1) := by
  intro depth text value rest parsed sure more larger enough
  obtain ⟨larger, rfl⟩ := Nat.exists_eq_succ_of_ne_zero (Nat.ne_of_gt (Nat.lt_of_lt_of_le
    (Nat.succ_pos fuel) enough))
  have less := Nat.le_of_succ_le_succ enough
  rw [parseValue] at parsed
  rw [parseValue]
  split at parsed
  · rename_i tail start
    cases parsed
    rw [skipSpace_append_of_cons start more]
    rfl
  · rename_i tail start
    cases parsed
    rw [skipSpace_append_of_cons start more]
    rfl
  · rename_i tail start
    cases parsed
    rw [skipSpace_append_of_cons start more]
    rfl
  · rename_i tail start
    obtain ⟨token, found, same⟩ := Option.map_eq_some_iff.mp parsed
    cases same
    have longer : parseString ((tail ++ more).length + 1) (tail ++ more) =
        some (token.1, token.2 ++ more) :=
      parseString_append found more (by rw [List.length_append]; omega)
    rw [skipSpace_append_of_cons start more]
    simp only [longer, Option.map_some]
  · rename_i tail start
    rw [skipSpace_append_of_cons start more]
    split at parsed
    · cases parsed
    · rename_i room
      simp only [if_neg room]
      split at parsed
      · rename_i behind closed
        cases parsed
        rw [skipSpace_append_of_cons closed more]
        rfl
      · rename_i behind open_
        obtain ⟨inner, found, same⟩ := Option.map_eq_some_iff.mp parsed
        cases same
        have some : skipSpace tail ≠ [] := by
          intro none
          rw [none, parseItems_nil] at found
          cases found
        obtain ⟨longer, unclosed⟩ := open_append some open_ more
        split
        · rename_i rest closed
          exact absurd closed (unclosed rest)
        · rw [longer, items _ _ inner.1 inner.2 found trivial more larger less, Option.map_some]
  · rename_i tail start
    rw [skipSpace_append_of_cons start more]
    split at parsed
    · cases parsed
    · rename_i room
      simp only [if_neg room]
      split at parsed
      · rename_i behind closed
        cases parsed
        rw [skipSpace_append_of_cons closed more]
        rfl
      · rename_i behind open_
        obtain ⟨inner, found, same⟩ := Option.map_eq_some_iff.mp parsed
        cases same
        have some : skipSpace tail ≠ [] := by
          intro none
          rw [none, parseMembers_nil] at found
          cases found
        obtain ⟨longer, unclosed⟩ := open_append some open_ more
        split
        · rename_i rest closed
          exact absurd closed (unclosed rest)
        · rw [longer, members _ _ inner.1 inner.2 found trivial more larger less, Option.map_some]
  · rename_i other
    unfold parseNumber at parsed
    split at parsed
    · cases parsed
    · rename_i number behind lexed
      obtain ⟨denoted, denotes, same⟩ := Option.map_eq_some_iff.mp parsed
      cases same
      obtain ⟨first, others, split_, start⟩ := lexNumber_head lexed
      have stops : rest ≠ [] := sure.resolve_right fun never => never denoted rfl
      have longer : parseNumber floats (first :: (others ++ more)) =
          some (.number denoted, rest ++ more) := by
        have lexedMore := lexNumber_append lexed stops more
        rw [split_, List.cons_append] at lexedMore
        rw [parseNumber, lexedMore]
        simp only [denotes, Option.map_some]
      rw [skipSpace_append_of_cons split_ more]
      -- a number starts as no other value does
      split
      case h_7 => exact longer
      all_goals
        rename_i same
        obtain ⟨rfl, -⟩ := List.cons.inj same
        rcases start with impossible | impossible
        · cases impossible
        · cases impossible

theorem parseItems_append {fuel : Nat} (values : Extends (parseValue floats) Sure fuel)
    (items : Extends (parseItems floats) (fun _ _ => True) fuel) :
    Extends (parseItems floats) (fun _ _ => True) (fuel + 1) := by
  intro depth text parsedItems rest parsed _ more larger enough
  obtain ⟨larger, rfl⟩ := Nat.exists_eq_succ_of_ne_zero (Nat.ne_of_gt (Nat.lt_of_lt_of_le
    (Nat.succ_pos fuel) enough))
  have less := Nat.le_of_succ_le_succ enough
  rw [parseItems] at parsed
  rw [parseItems]
  split at parsed
  · cases parsed
  · rename_i item after first
    have goesOn : after ≠ [] → parseValue floats larger depth (text ++ more) =
        some (item, after ++ more) := fun stops =>
      values depth text item after first (.inl stops) more larger less
    split at parsed
    · rename_i tail comma
      obtain ⟨inner, found, same⟩ := Option.map_eq_some_iff.mp parsed
      cases same
      rw [goesOn (by rintro rfl; cases comma)]
      simp only [skipSpace_append_of_cons comma more,
        items depth _ inner.1 inner.2 found trivial more larger less, Option.map_some]
    · rename_i tail closed
      cases parsed
      rw [goesOn (by rintro rfl; cases closed)]
      simp only [skipSpace_append_of_cons closed more]
    · cases parsed

theorem parseMembers_append {fuel : Nat} (values : Extends (parseValue floats) Sure fuel)
    (members : Extends (parseMembers floats) (fun _ _ => True) fuel) :
    Extends (parseMembers floats) (fun _ _ => True) (fuel + 1) := by
  intro depth text parsedMembers rest parsed _ more larger enough
  obtain ⟨larger, rfl⟩ := Nat.exists_eq_succ_of_ne_zero (Nat.ne_of_gt (Nat.lt_of_lt_of_le
    (Nat.succ_pos fuel) enough))
  have less := Nat.le_of_succ_le_succ enough
  rw [parseMembers] at parsed
  rw [parseMembers]
  split at parsed
  case h_2 => cases parsed
  case h_1 =>
    rename_i tail quote
    rw [skipSpace_append_of_cons quote more]
    split at parsed
    · cases parsed
    · rename_i key afterKey named
      have longerKey : parseString ((tail ++ more).length + 1) (tail ++ more) =
          some (key, afterKey ++ more) :=
        parseString_append named more (by rw [List.length_append]; omega)
      simp only [longerKey]
      split at parsed
      case h_2 => cases parsed
      case h_1 =>
        rename_i behindColon colon
        simp only [skipSpace_append_of_cons colon more]
        split at parsed
        · cases parsed
        · rename_i value after first
          have goesOn : after ≠ [] → parseValue floats larger depth (behindColon ++ more) =
              some (value, after ++ more) := fun stops =>
            values depth behindColon value after first (.inl stops) more larger less
          split at parsed
          · rename_i behind comma
            obtain ⟨inner, found, same⟩ := Option.map_eq_some_iff.mp parsed
            cases same
            rw [goesOn (by rintro rfl; cases comma)]
            simp only [skipSpace_append_of_cons comma more,
              members depth _ inner.1 inner.2 found trivial more larger less, Option.map_some]
          · rename_i behind closed
            cases parsed
            rw [goesOn (by rintro rfl; cases closed)]
            simp only [skipSpace_append_of_cons closed more]
          · cases parsed

theorem parsed_append (fuel : Nat) :
    Extends (parseValue floats) Sure fuel ∧
      Extends (parseItems floats) (fun _ _ => True) fuel ∧
      Extends (parseMembers floats) (fun _ _ => True) fuel := by
  induction fuel with
  | zero =>
      refine ⟨?_, ?_, ?_⟩
      · intro depth text value rest parsed
        rw [parseValue] at parsed
        cases parsed
      · intro depth text items rest parsed
        rw [parseItems] at parsed
        cases parsed
      · intro depth text members rest parsed
        rw [parseMembers] at parsed
        cases parsed
  | succ fuel inductionHypothesis =>
      obtain ⟨values, items, members⟩ := inductionHypothesis
      exact ⟨parseValue_append items members, parseItems_append values items,
        parseMembers_append values members⟩

/-- A document that is not a number is not read in a text that goes on behind it, unless by
spaces, and then it is the document of the whole. -/
theorem parseText_cut {text more : List Char} {value whole : Value}
    (cut : parseText floats text = some value) (notNumber : ∀ number, value ≠ .number number)
    (complete : parseText floats (text ++ more) = some whole) : whole = value := by
  unfold parseText at cut complete
  split at cut
  · rename_i read rest found
    split at cut
    · cases cut
      have longer := (parsed_append _).1 127 text value rest found (.inr notNumber) more
        ((text ++ more).length + 1) (by rw [List.length_append]; omega)
      rw [longer] at complete
      dsimp only at complete
      split at complete
      · exact (Option.some.inj complete).symm
      · cases complete
    · cases cut
  · cases cut

end Values

end SystemPilot.Json
