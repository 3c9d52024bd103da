import SystemPilot.Ui.Streamer

/-!
# Chunks and the text they make

A token has up to four bytes and the look-ahead three, so the text decides what
is rendered but for one cut: behind a level-three heading's hashes, in front of
their blank.
-/

set_option autoImplicit false

namespace SystemPilot.Ui

/-- The hashes of a level-three heading. -/
def hashes : List Char := ['#', '#', '#']

/-- The text ends where a line starts. -/
def LineStart (text : List Char) : Prop :=
  text = [] ∨ text.getLast? = some '\n'

/-- Some cut of the chunks falls behind hashes at a line's start and in front of a
blank. -/
def HeadingCut (chunks : List (List Char)) : Prop :=
  ∃ before after line, chunks = before ++ after ∧ before.flatten = line ++ hashes ∧
    LineStart line ∧ after.flatten.head? = some ' '

/-! ## Bytes -/

section Bytes

theorem byteLength_append (first second : List Char) :
    byteLength (first ++ second) = byteLength first + byteLength second := by
  unfold byteLength
  rw [List.map_append, List.sum_append]

theorem length_le_byteLength (text : List Char) : text.length ≤ byteLength text := by
  induction text with
  | nil => exact le_rfl
  | cons character rest inductionHypothesis =>
      have positive := character.utf8Size_pos
      unfold byteLength at *
      rw [List.length_cons, List.map_cons, List.sum_cons]
      omega

theorem byteLength_pos {text : List Char} (some : text ≠ []) : 0 < byteLength text :=
  (List.length_pos_iff.mpr some).trans_le (length_le_byteLength text)

/-- A prefix as long in bytes is the whole. -/
theorem eq_of_starts {start text : List Char} (starts : start <+: text)
    (bytes : byteLength text ≤ byteLength start) : start = text := by
  obtain ⟨rest, split⟩ := starts
  have size := congrArg byteLength split
  rw [byteLength_append] at size
  have short := length_le_byteLength rest
  have empty : rest = [] := List.length_eq_zero_iff.mp (by omega)
  rw [← split, empty, List.append_nil]

end Bytes

/-! ## More text behind the buffer -/

section More

variable {modes : Modes} {buf more : List Char}

/-- The buffer holds just the hashes of a heading whose blank comes next. -/
def Cut (modes : Modes) (buf more : List Char) : Prop :=
  modes.isNewline = true ∧ buf = hashes ∧ more.head? = some ' '

theorem startsWith_append {token : String} (bytes : byteLength token.toList ≤ byteLength buf) :
    startsWith (buf ++ more) token = startsWith buf token := by
  unfold startsWith
  rw [Bool.eq_iff_iff, List.isPrefixOf_iff_prefix, List.isPrefixOf_iff_prefix]
  constructor
  · intro starts
    rcases List.prefix_or_prefix_of_prefix starts (List.prefix_append buf more) with own | cut
    · exact own
    · rw [eq_of_starts cut bytes]
  · intro starts
    exact starts.trans (List.prefix_append buf more)

/-- Three bytes tell every token from a longer one but the heading with four. -/
theorem startsWith_heading (room : 2 < byteLength buf)
    (uncut : ¬(buf = hashes ∧ more.head? = some ' ')) :
    startsWith (buf ++ more) "### " = startsWith buf "### " := by
  by_cases whole : 4 ≤ byteLength buf
  · exact startsWith_append (by exact whole)
  unfold startsWith
  rw [Bool.eq_iff_iff, List.isPrefixOf_iff_prefix, List.isPrefixOf_iff_prefix]
  constructor
  · intro starts
    rcases List.prefix_or_prefix_of_prefix starts (List.prefix_append buf more) with own | cut
    · exact own
    · exfalso
      obtain ⟨rest, split⟩ := cut
      have size : byteLength (buf ++ rest) = 4 := congrArg byteLength split
      rw [byteLength_append] at size
      have short := length_le_byteLength rest
      have single : rest.length = 1 := by
        have some : rest ≠ [] := by
          rintro rfl
          have none : byteLength [] = 0 := rfl
          omega
        have positive := List.length_pos_iff.mpr some
        omega
      obtain ⟨blank, only⟩ := List.length_eq_one_iff.mp single
      rw [only] at split
      have whole : buf ++ [blank] = hashes ++ [' '] := split
      obtain ⟨own, -⟩ := List.append_inj' whole rfl
      obtain ⟨later, all⟩ := starts
      rw [own] at all
      have same : hashes ++ (' ' :: later) = hashes ++ more := all
      have behind := List.append_cancel_left same
      exact uncut ⟨own, by rw [← behind]; rfl⟩
  · intro starts
    exact starts.trans (List.prefix_append buf more)

theorem blockToken_append (room : 2 < byteLength buf) :
    modes.blockToken (buf ++ more) = modes.blockToken buf := by
  have same : ∀ token : String, byteLength token.toList ≤ 3 →
      startsWith (buf ++ more) token = startsWith buf token :=
    fun token bytes => startsWith_append (by omega)
  unfold Modes.blockToken
  rw [same "```" (by decide), same "$$" (by decide), same "\\[" (by decide),
    same "\\]" (by decide), same "\\(" (by decide), same "\\)" (by decide),
    same "**" (by decide)]

theorem lineToken_append (room : 2 < byteLength buf)
    (uncut : ¬(buf = hashes ∧ more.head? = some ' ')) :
    modes.lineToken (buf ++ more) = modes.lineToken buf := by
  have same : ∀ token : String, byteLength token.toList ≤ 3 →
      startsWith (buf ++ more) token = startsWith buf token :=
    fun token bytes => startsWith_append (by omega)
  unfold Modes.lineToken
  rw [startsWith_heading room uncut, same "## " (by decide), same "# " (by decide),
    same "- " (by decide), same "* " (by decide)]

theorem inlineToken_append (room : 2 < byteLength buf) :
    modes.inlineToken (buf ++ more) = modes.inlineToken buf := by
  have same : ∀ token : String, byteLength token.toList ≤ 3 →
      startsWith (buf ++ more) token = startsWith buf token :=
    fun token bytes => startsWith_append (by omega)
  unfold Modes.inlineToken
  rw [same "`" (by decide), same "$" (by decide)]

theorem processToken_append (room : 2 < byteLength buf) (uncut : ¬Cut modes buf more) :
    modes.processToken (buf ++ more) = modes.processToken buf := by
  unfold Modes.processToken
  rw [blockToken_append room, inlineToken_append room]
  by_cases line : modes.isNewline = true
  · rw [if_pos line, if_pos line, lineToken_append room fun cut => uncut ⟨line, cut⟩]
  · rw [if_neg line, if_neg line]

/-- More text behind the buffer changes a step only in front of a heading that it
completes. -/
theorem step_append (room : 2 < byteLength buf) (uncut : ¬Cut modes buf more) :
    modes.step (buf ++ more) =
      ⟨(modes.step buf).modes, (modes.step buf).out, (modes.step buf).rest ++ more⟩ := by
  unfold Modes.step
  rw [processToken_append room uncut]
  cases matched : modes.processToken buf with
  | some found =>
      obtain ⟨⟨token, -, starts, consumed⟩, -⟩ := processToken_of matched
      dsimp only
      rw [List.drop_append_of_le_length (by rw [← consumed]; exact starts.length_le)]
  | none =>
      cases buf with
      | nil => exact absurd room (by decide)
      | cons character rest => rfl

end More

/-! ## The loops -/

/-- All that comes of a buffer, without the reset at the end. -/
def rendered (modes : Modes) (buf : List Char) : List Char :=
  (drain 0 modes buf).out

section Loops

variable {modes : Modes} {buf : List Char}

theorem drain_more {kept : Nat} (more : kept < byteLength buf) :
    drain kept modes buf =
      ⟨(drain kept (modes.step buf).modes (modes.step buf).rest).modes,
        (modes.step buf).out ++ (drain kept (modes.step buf).modes (modes.step buf).rest).out,
        (drain kept (modes.step buf).modes (modes.step buf).rest).rest⟩ := by
  rw [drain, dif_pos more]

theorem drain_done {kept : Nat} (done : byteLength buf ≤ kept) :
    drain kept modes buf = ⟨modes, [], buf⟩ := by
  rw [drain, dif_neg (by omega)]

theorem rendered_more (more : 0 < byteLength buf) :
    rendered modes buf =
      (modes.step buf).out ++ rendered (modes.step buf).modes (modes.step buf).rest := by
  unfold rendered
  rw [drain_more more]

/-- A character of a heading outside a line's start is plain. -/
theorem step_plain {character : Char} (plain : character = '#' ∨ character = ' ')
    (midLine : modes.isNewline = false) (rest : List Char) :
    modes.step (character :: rest) = ⟨modes, [character], rest⟩ := by
  have same : { modes with isNewline := false } = modes := by
    cases modes
    rw [← midLine]
  have block : modes.blockToken (character :: rest) = none := by
    rcases plain with rfl | rfl <;> rfl
  have inline : modes.inlineToken (character :: rest) = none := by
    rcases plain with rfl | rfl <;> rfl
  have notLine : character ≠ '\n' := by
    rcases plain with rfl | rfl <;> decide
  have plainly : modes.plain character = (modes, [character]) := by
    unfold Modes.plain
    rw [if_neg notLine, same]
  unfold Modes.step Modes.processToken
  rw [block, inline, midLine]
  change (⟨(modes.plain character).1, (modes.plain character).2, rest⟩ : Pass) = _
  rw [plainly]

variable (modes) in
/-- The modes behind a heading's marks. -/
def Modes.midLine : Modes :=
  { modes with isNewline := false }

theorem rendered_plain {character : Char} (plain : character = '#' ∨ character = ' ')
    (midLine : modes.isNewline = false) (rest : List Char) :
    rendered modes (character :: rest) = character :: rendered modes rest := by
  have more : 0 < byteLength (character :: rest) :=
    byteLength_pos (List.cons_ne_nil _ _)
  rw [rendered_more more, step_plain plain midLine]
  rfl

/-- The whole heading makes its code, -/
theorem rendered_heading (line : modes.isNewline = true) (rest : List Char) :
    rendered modes (hashes ++ ' ' :: rest) =
      "\x1b[1;96m### ".toList ++ rendered modes.midLine rest := by
  have more : 0 < byteLength (hashes ++ ' ' :: rest) :=
    byteLength_pos (List.cons_ne_nil _ _)
  have block : modes.blockToken (hashes ++ ' ' :: rest) = none := rfl
  have step : modes.step (hashes ++ ' ' :: rest) =
      ⟨modes.midLine, "\x1b[1;96m### ".toList, rest⟩ := by
    unfold Modes.step Modes.processToken
    rw [block, line]
    rfl
  rw [rendered_more more, step]

/-- and its hashes alone do not. -/
theorem drain_hashes (line : modes.isNewline = true) :
    drain 2 modes hashes = ⟨modes.midLine, ['#'], ['#', '#']⟩ := by
  have step : modes.step hashes = ⟨modes.midLine, ['#'], ['#', '#']⟩ := by
    have block : modes.blockToken hashes = none := rfl
    unfold Modes.step Modes.processToken
    rw [block, line]
    rfl
  rw [drain_more (by decide), step, drain_done (by exact Nat.le_refl 2)]
  rfl

end Loops

/-! ## One chunk -/

/-- The loop of `render_chunk` comes to stand in front of just the hashes of a
heading. -/
inductive Reaches : Modes → List Char → Prop where
  | here {modes : Modes} (line : modes.isNewline = true) : Reaches modes hashes
  | next {modes : Modes} {buf : List Char} (room : 2 < byteLength buf)
      (later : Reaches (modes.step buf).modes (modes.step buf).rest) : Reaches modes buf

section Chunk

variable {modes : Modes} {buf more : List Char}

/-- The loop never stops at a heading, which it goes on from. -/
theorem Reaches.room (reaches : Reaches modes buf) : 2 < byteLength buf := by
  cases reaches with
  | here => decide
  | next room later => exact room

/-- At a cut the chunk alone lacks the heading's code. -/
theorem rendered_cut (line : modes.isNewline = true) (blank : more.head? = some ' ') :
    rendered modes (hashes ++ more) = "\x1b[1;96m".toList ++
      ((drain 2 modes hashes).out ++
        rendered (drain 2 modes hashes).modes ((drain 2 modes hashes).rest ++ more)) := by
  obtain ⟨rest, split⟩ : ∃ rest, more = ' ' :: rest := by
    cases more with
    | nil => contradiction
    | cons first rest =>
        injection blank with same
        exact ⟨rest, by rw [same]⟩
  have midLine : modes.midLine.isNewline = false := rfl
  rw [drain_hashes line, split, rendered_heading line]
  change _ = _ ++ (['#'] ++ rendered modes.midLine ('#' :: '#' :: ' ' :: rest))
  rw [rendered_plain (Or.inl rfl) midLine, rendered_plain (Or.inl rfl) midLine,
    rendered_plain (Or.inr rfl) midLine]
  rfl

/-- The loop of `render_chunk` on a buffer, and the rest with more text. -/
def continued (modes : Modes) (buf more : List Char) : List Char :=
  (drain 2 modes buf).out ++
    rendered (drain 2 modes buf).modes ((drain 2 modes buf).rest ++ more)

theorem continued_more (room : 2 < byteLength buf) :
    continued modes buf more =
      (modes.step buf).out ++ continued (modes.step buf).modes (modes.step buf).rest more := by
  unfold continued
  rw [drain_more room, List.append_assoc]

/-- A step that is not in front of a cut heading is the same with more text. -/
theorem rendered_step (room : 2 < byteLength buf) (uncut : ¬Cut modes buf more) :
    rendered modes (buf ++ more) =
      (modes.step buf).out ++
        rendered (modes.step buf).modes ((modes.step buf).rest ++ more) := by
  have some : 0 < byteLength (buf ++ more) := by
    rw [byteLength_append]
    omega
  rw [rendered_more some, step_append room uncut]

/-- The chunk makes no difference without a cut heading. -/
theorem rendered_uncut (modes : Modes) (buf : List Char)
    (uncut : ¬(Reaches modes buf ∧ more.head? = some ' ')) :
    rendered modes (buf ++ more) = continued modes buf more := by
  fun_induction drain 2 modes buf with
  | case1 modes buf room pass later inductionHypothesis =>
      have notCut : ¬Cut modes buf more := by
        rintro ⟨line, rfl, blank⟩
        exact uncut ⟨.here line, blank⟩
      rw [rendered_step room notCut, continued_more room]
      congr 1
      apply inductionHypothesis
      rintro ⟨reaches, blank⟩
      exact uncut ⟨.next room reaches, blank⟩
  | case2 modes buf done =>
      unfold continued
      rw [drain_done (by omega)]
      rfl

/-- At a cut heading the chunk makes less. -/
theorem continued_shorter (reaches : Reaches modes buf) (blank : more.head? = some ' ') :
    (continued modes buf more).length < (rendered modes (buf ++ more)).length := by
  induction reaches with
  | here line =>
      rw [rendered_cut line blank, List.length_append]
      exact Nat.lt_add_of_pos_left (by decide)
  | @next modes buf room later inductionHypothesis =>
      by_cases cut : Cut modes buf more
      · obtain ⟨line, rfl, -⟩ := cut
        rw [rendered_cut line blank, List.length_append]
        exact Nat.lt_add_of_pos_left (by decide)
      · rw [rendered_step room cut, continued_more room, List.length_append, List.length_append]
        exact Nat.add_lt_add_left inductionHypothesis _

end Chunk

/-! ## All chunks -/

/-- The chunks, and `finish` behind them. -/
def chunked (modes : Modes) (buf : List Char) : List (List Char) → List Char
  | [] => rendered modes buf
  | input :: inputs =>
      (drain 2 modes (buf ++ input)).out ++
        chunked (drain 2 modes (buf ++ input)).modes (drain 2 modes (buf ++ input)).rest inputs

/-- At the end of some chunk the loop has come to a heading that it cuts. -/
def MeetsCut (modes : Modes) (buf : List Char) : List (List Char) → Prop
  | [] => False
  | input :: inputs =>
      Reaches modes (buf ++ input) ∧ inputs.flatten.head? = some ' ' ∨
        MeetsCut (drain 2 modes (buf ++ input)).modes (drain 2 modes (buf ++ input)).rest inputs

section Chunks

theorem chunked_eq_continued (modes : Modes) (buf input : List Char) (inputs : List (List Char))
    (same : chunked (drain 2 modes (buf ++ input)).modes (drain 2 modes (buf ++ input)).rest
      inputs = rendered (drain 2 modes (buf ++ input)).modes
        ((drain 2 modes (buf ++ input)).rest ++ inputs.flatten)) :
    chunked modes buf (input :: inputs) = continued modes (buf ++ input) inputs.flatten := by
  rw [chunked, same]
  rfl

/-- Without a cut heading the chunks make what their text makes. -/
theorem chunked_uncut (modes : Modes) (buf : List Char) (inputs : List (List Char))
    (uncut : ¬MeetsCut modes buf inputs) :
    chunked modes buf inputs = rendered modes (buf ++ inputs.flatten) := by
  induction inputs generalizing modes buf with
  | nil => rw [chunked, List.flatten_nil, List.append_nil]
  | cons input inputs inductionHypothesis =>
      obtain ⟨here, later⟩ := not_or.mp uncut
      rw [chunked_eq_continued _ _ _ _ (inductionHypothesis _ _ later), ← rendered_uncut _ _ here,
        List.flatten_cons, List.append_assoc]

theorem chunked_le (modes : Modes) (buf : List Char) (inputs : List (List Char)) :
    (chunked modes buf inputs).length ≤ (rendered modes (buf ++ inputs.flatten)).length ∧
      (MeetsCut modes buf inputs →
        (chunked modes buf inputs).length < (rendered modes (buf ++ inputs.flatten)).length) := by
  induction inputs generalizing modes buf with
  | nil =>
      rw [chunked, List.flatten_nil, List.append_nil]
      exact ⟨le_rfl, fun meets => absurd meets id⟩
  | cons input inputs inductionHypothesis =>
      obtain ⟨later, laterCut⟩ := inductionHypothesis (drain 2 modes (buf ++ input)).modes
        (drain 2 modes (buf ++ input)).rest
      have whole : (continued modes (buf ++ input) inputs.flatten).length ≤
          (rendered modes (buf ++ input ++ inputs.flatten)).length := by
        by_cases here : Reaches modes (buf ++ input) ∧ inputs.flatten.head? = some ' '
        · exact (continued_shorter here.1 here.2).le
        · exact le_of_eq (congrArg List.length (rendered_uncut _ _ here).symm)
      rw [chunked, List.flatten_cons, ← List.append_assoc, List.length_append]
      rw [continued, List.length_append] at whole
      refine ⟨by omega, ?_⟩
      rintro (⟨reaches, blank⟩ | meets)
      · have shorter := continued_shorter reaches blank
        rw [continued, List.length_append] at shorter
        omega
      · have shorter := laterCut meets
        omega

theorem chunked_eq_iff (modes : Modes) (buf : List Char) (inputs : List (List Char)) :
    chunked modes buf inputs = rendered modes (buf ++ inputs.flatten) ↔
      ¬MeetsCut modes buf inputs := by
  constructor
  · intro same meets
    have shorter := (chunked_le modes buf inputs).2 meets
    rw [same] at shorter
    exact absurd shorter (lt_irrefl _)
  · exact chunked_uncut modes buf inputs

end Chunks

/-! ## Where the loop stands -/

/-- The loop stands behind `consumed` with a buffer: at a line's start as its mode
says, and never behind one that it had less than three bytes of. -/
structure Stands (consumed : List Char) (modes : Modes) (buf : List Char) : Prop where
  line : modes.isNewline = true ↔ LineStart consumed
  behind : ∀ line rest : List Char, consumed ++ buf = line ++ rest → LineStart line →
    line.length < consumed.length → 2 < byteLength rest

section Stands

variable {consumed buf : List Char} {modes : Modes}

theorem getLast_of_lineStart {line : List Char} (start : LineStart line)
    (nonempty : line ≠ []) : line.getLast? = some '\n' :=
  start.resolve_left nonempty

/-- No step passes over the start of a line. -/
theorem no_line_inside {piece rest line other : List Char}
    (alone : '\n' ∈ piece → piece = ['\n']) (split : consumed ++ (piece ++ rest) = line ++ other)
    (start : LineStart line) (inside : consumed.length < line.length) :
    consumed.length + piece.length ≤ line.length := by
  by_contra beyond
  rcases List.append_eq_append_iff.mp split with ⟨part, ofLine, ofRest⟩ | ⟨part, ofLine, -⟩
  · rw [ofLine, List.length_append] at inside beyond
    have nonempty : part ≠ [] := by
      rintro rfl
      exact absurd inside (by simp)
    have last : part.getLast? = some '\n' := by
      have ends := getLast_of_lineStart start (by
        rw [ofLine]
        exact List.append_ne_nil_of_right_ne_nil consumed nonempty)
      rw [ofLine, List.getLast?_append_of_ne_nil consumed nonempty] at ends
      exact ends
    have own : part <+: piece := by
      rcases List.append_eq_append_iff.mp ofRest with ⟨more, longer, -⟩ | ⟨more, shorter, -⟩
      · rw [longer, List.length_append] at beyond
        omega
      · exact ⟨more, shorter.symm⟩
    have single := alone (own.subset (List.mem_of_getLast? last))
    rw [single] at beyond
    have positive := List.length_pos_iff.mpr nonempty
    rw [List.length_singleton] at beyond
    omega
  · rw [ofLine, List.length_append] at inside
    omega

theorem stands_step (stands : Stands consumed modes buf) (room : 2 < byteLength buf) :
    ∃ piece, buf = piece ++ (modes.step buf).rest ∧ ('\n' ∈ piece → piece = ['\n']) ∧
      Stands (consumed ++ piece) (modes.step buf).modes (modes.step buf).rest := by
  obtain ⟨piece, split, nonempty, line, alone⟩ := @step_spec modes buf (ne_nil_of_byteLength room)
  refine ⟨piece, split, alone, ⟨?_, ?_⟩⟩
  · rw [line]
    unfold LineStart
    rw [List.getLast?_append_of_ne_nil consumed nonempty]
    constructor
    · rintro rfl
      exact Or.inr rfl
    · rintro (empty | last)
      · exact absurd (List.append_eq_nil_iff.mp empty).2 nonempty
      · exact alone (List.mem_of_getLast? last)
  · intro start rest whole isStart before
    rw [List.append_assoc, ← split] at whole
    by_cases own : start.length < consumed.length
    · exact stands.behind start rest whole isStart own
    · have same : start.length = consumed.length := by
        by_contra differs
        rw [split] at whole
        have passed := no_line_inside alone whole isStart (by omega)
        rw [List.length_append] at before
        omega
      obtain ⟨-, ownRest⟩ := List.append_inj whole same.symm
      rw [← ownRest]
      exact room

theorem stands_more (stands : Stands consumed modes buf) (more : List Char) :
    Stands consumed modes (buf ++ more) := by
  refine ⟨stands.line, ?_⟩
  intro line rest whole start before
  rw [← List.append_assoc] at whole
  rcases List.append_eq_append_iff.mp whole with ⟨part, ofLine, -⟩ | ⟨part, ofLine, ofRest⟩
  · rw [ofLine, List.length_append, List.length_append] at before
    omega
  · have enough := stands.behind line part ofLine start before
    rw [ofRest, byteLength_append]
    omega

/-- The run lemma: behind a chunk's loop less than three bytes are left. -/
theorem stands_drain (stands : Stands consumed modes buf) :
    ∃ passed, passed ++ (drain 2 modes buf).rest = consumed ++ buf ∧
      Stands passed (drain 2 modes buf).modes (drain 2 modes buf).rest ∧
        byteLength (drain 2 modes buf).rest ≤ 2 := by
  fun_induction drain 2 modes buf generalizing consumed with
  | case1 modes buf room pass later =>
      rename_i inductionHypothesis
      obtain ⟨piece, split, -, next⟩ := stands_step stands room
      obtain ⟨passed, whole, last, small⟩ := inductionHypothesis next
      refine ⟨passed, ?_, last, small⟩
      rw [List.append_assoc, ← split] at whole
      exact whole
  | case2 modes buf done => exact ⟨consumed, rfl, stands, not_lt.mp done⟩

/-- The loop reaches the hashes of a heading exactly when the text up to the end of
the buffer ends with some that it has not begun to pass. -/
theorem reaches_iff (stands : Stands consumed modes buf) :
    Reaches modes buf ↔ ∃ line, LineStart line ∧ consumed ++ buf = line ++ hashes ∧
      consumed.length ≤ line.length := by
  constructor
  · intro reaches
    induction reaches generalizing consumed with
    | here line => exact ⟨consumed, stands.line.mp line, rfl, le_rfl⟩
    | @next modes buf room later inductionHypothesis =>
        obtain ⟨piece, split, -, next⟩ := stands_step stands room
        obtain ⟨line, start, whole, before⟩ := inductionHypothesis next
        rw [List.append_assoc, ← split] at whole
        rw [List.length_append] at before
        exact ⟨line, start, whole, by omega⟩
  · rintro ⟨line, start, whole, before⟩
    fun_induction drain 2 modes buf generalizing consumed with
    | case1 modes buf room pass later =>
        rename_i inductionHypothesis
        by_cases here : consumed.length = line.length
        · obtain ⟨same, own⟩ := List.append_inj whole here
          rw [own]
          rw [← same] at start
          exact .here (stands.line.mpr start)
        · obtain ⟨piece, split, alone, next⟩ := stands_step stands room
          rw [split] at whole
          have passed := no_line_inside alone whole start (by omega)
          rw [← List.append_assoc] at whole
          exact .next room (inductionHypothesis next whole (by rw [List.length_append]; omega))
    | case2 modes buf done =>
        exfalso
        rcases List.append_eq_append_iff.mp whole with ⟨part, -, ofBuf⟩ | ⟨part, longer, -⟩
        · rw [ofBuf, byteLength_append] at done
          exact done ((by decide : 2 < byteLength hashes).trans_le (Nat.le_add_left _ _))
        · have none : part = [] := by
            rw [longer, List.length_append] at before
            exact List.length_eq_zero_iff.mp (by omega)
          rw [none, List.append_nil] at longer
          rw [longer] at whole
          rw [List.append_cancel_left whole] at done
          exact done (by decide)

/-- The loop has begun to pass no hashes that the text has only begun. -/
theorem not_begun {line input : List Char} (stands : Stands consumed modes buf)
    (start : LineStart line) (own : consumed ++ buf ++ input = line ++ hashes)
    (new : (consumed ++ buf).length < line.length + 3) : consumed.length ≤ line.length := by
  by_contra begun
  rcases List.append_eq_append_iff.mp own with ⟨part, longer, -⟩ | ⟨part, ofLine, ofHashes⟩
  · rw [longer, List.length_append, List.length_append] at begun
    omega
  · have enough := stands.behind line part ofLine start (by omega)
    have size := congrArg byteLength ofHashes
    have count := congrArg List.length ofHashes
    rw [byteLength_append, show byteLength hashes = 3 from rfl] at size
    rw [List.length_append, show hashes.length = 3 from rfl] at count
    rw [ofLine, List.length_append] at new
    have more : input ≠ [] := by
      rintro rfl
      rw [List.length_nil] at count
      omega
    have positive := byteLength_pos more
    omega

/-- A cut is met exactly where one falls among the chunks, behind what the loop has
seen so far. -/
theorem meetsCut_iff (stands : Stands consumed modes buf) (small : byteLength buf ≤ 2)
    (inputs : List (List Char)) :
    MeetsCut modes buf inputs ↔ ∃ before after line, inputs = before ++ after ∧ LineStart line ∧
      consumed ++ buf ++ before.flatten = line ++ hashes ∧
        (consumed ++ buf).length < line.length + 3 ∧ after.flatten.head? = some ' ' := by
  induction inputs generalizing consumed modes buf with
  | nil =>
      constructor
      · intro meets
        exact absurd meets id
      · rintro ⟨before, after, line, split, -, -, -, blank⟩
        obtain ⟨-, rfl⟩ := List.append_eq_nil_iff.mp split.symm
        contradiction
  | cons input inputs inductionHypothesis =>
      have longer := stands_more stands input
      obtain ⟨passed, whole, next, left⟩ := stands_drain longer
      have later := inductionHypothesis next left
      rw [whole, ← List.append_assoc] at later
      rw [MeetsCut, reaches_iff longer, later]
      constructor
      · rintro (⟨⟨line, start, own, before⟩, blank⟩ |
          ⟨before, after, line, split, start, own, new, blank⟩)
        · have short := length_le_byteLength buf
          refine ⟨[input], inputs, line, rfl, start, ?_, ?_, blank⟩
          · rw [List.flatten_singleton, List.append_assoc]
            exact own
          · rw [List.length_append]
            omega
        · refine ⟨input :: before, after, line, by rw [split]; rfl, start, ?_, ?_, blank⟩
          · rw [List.flatten_cons, ← List.append_assoc]
            exact own
          · rw [List.length_append] at new
            omega
      · rintro ⟨before, after, line, split, start, own, new, blank⟩
        have size := congrArg List.length own
        have ofHeading : (line ++ hashes).length = line.length + 3 := List.length_append
        rw [ofHeading, List.length_append] at size
        cases before with
        | nil =>
            rw [List.flatten_nil, List.length_nil] at size
            omega
        | cons first others =>
            rw [List.cons_append] at split
            obtain ⟨same, split⟩ := List.cons.inj split
            rw [← same, List.flatten_cons] at own size
            rw [@List.length_append _ input] at size
            have ofInput : (consumed ++ buf ++ input).length =
                (consumed ++ buf).length + input.length := List.length_append
            by_cases far : (consumed ++ buf ++ input).length < line.length + 3
            · refine Or.inr ⟨others, after, line, split, start, ?_, far, blank⟩
              rw [← own, List.append_assoc]
            · have none : others.flatten = [] := List.length_eq_zero_iff.mp (by omega)
              rw [none, List.append_nil] at own
              refine Or.inl ⟨⟨line, start, ?_, not_begun stands start own new⟩, ?_⟩
              · rw [← List.append_assoc]
                exact own
              · rw [split, List.flatten_append, none]
                exact blank

end Stands

/-! ## Whole texts -/

theorem stands_new : Stands [] MdStreamer.new.modes [] := by
  refine ⟨⟨fun _ => Or.inl rfl, fun _ => rfl⟩, ?_⟩
  intro line rest whole start before
  exact absurd before (Nat.not_lt_zero _)

/-- The chunks of a run are met with a cut exactly where one falls among them. -/
theorem meetsCut_new (chunks : List (List Char)) :
    MeetsCut MdStreamer.new.modes [] chunks ↔ HeadingCut chunks := by
  rw [meetsCut_iff stands_new (Nat.zero_le 2)]
  constructor
  · rintro ⟨before, after, line, split, start, own, -, blank⟩
    exact ⟨before, after, line, split, own, start, blank⟩
  · rintro ⟨before, after, line, split, own, start, blank⟩
    exact ⟨before, after, line, split, start, own, Nat.succ_pos _, blank⟩

theorem not_meetsCut_single (modes : Modes) (buf text : List Char) :
    ¬MeetsCut modes buf [text] := by
  rintro (⟨-, blank⟩ | later)
  · contradiction
  · exact later

theorem renderFrom_chunked (streamer : MdStreamer) (chunks : List (List Char)) :
    (streamer.renderFrom chunks).2 ++ (streamer.renderFrom chunks).1.finish.2 =
      chunked streamer.modes streamer.buffer chunks ++ "\x1b[0m".toList := by
  induction chunks generalizing streamer with
  | nil => rfl
  | cons chunk chunks inductionHypothesis =>
      have later := inductionHypothesis (streamer.renderChunk chunk).1
      have step : streamer.renderFrom (chunk :: chunks) =
          (((streamer.renderChunk chunk).1.renderFrom chunks).1,
            (streamer.renderChunk chunk).2 ++
              ((streamer.renderChunk chunk).1.renderFrom chunks).2) := rfl
      rw [step, List.append_assoc, later, chunked, List.append_assoc]
      rfl

theorem renderChunks_chunked (chunks : List (List Char)) :
    MdStreamer.renderChunks chunks =
      chunked MdStreamer.new.modes [] chunks ++ "\x1b[0m".toList :=
  renderFrom_chunked MdStreamer.new chunks

/-- What is rendered depends on the text alone exactly where no chunk ends behind
the hashes of a level-three heading whose blank comes next. -/
theorem render_chunks_eq_iff (chunks : List (List Char)) :
    MdStreamer.renderChunks chunks = MdStreamer.renderChunks [chunks.flatten] ↔
      ¬HeadingCut chunks := by
  have single : chunked MdStreamer.new.modes [] [chunks.flatten] =
      rendered MdStreamer.new.modes ([] ++ chunks.flatten) := by
    rw [chunked_uncut _ _ _ (not_meetsCut_single _ _ _), List.flatten_singleton]
  rw [renderChunks_chunked, renderChunks_chunked, List.append_cancel_right_eq, single,
    chunked_eq_iff, meetsCut_new]

/-- A heading that is cut behind its hashes loses its code. -/
theorem cut_heading_is_plain :
    MdStreamer.renderChunks [hashes, [' ', 'x']] = "### x\x1b[0m".toList ∧
      MdStreamer.renderChunks [hashes ++ [' ', 'x']] = "\x1b[1;96m### x\x1b[0m".toList ∧
        MdStreamer.renderChunks [hashes, [' ', 'x']] ≠
          MdStreamer.renderChunks [[hashes, [' ', 'x']].flatten] := by
  refine ⟨?_, ?_, ?_⟩
  · decide +kernel
  · decide +kernel
  · decide +kernel

end SystemPilot.Ui
