import Mathlib.Tactic

/-!
# The Markdown streamer

`MdStreamer`: Markdown in, a terminal's escape codes out, one chunk at a time.  A
text is its characters, and the buffer is what it holds from `pos` on.
-/

set_option autoImplicit false

namespace SystemPilot.Ui

structure Modes where
  bold : Bool
  codeBlock : Bool
  inlineCode : Bool
  mathBlock : Bool
  mathInline : Bool
  isNewline : Bool
  deriving DecidableEq, Repr

structure MdStreamer where
  buffer : List Char
  modes : Modes
  deriving DecidableEq, Repr

def MdStreamer.new : MdStreamer :=
  ⟨[], ⟨false, false, false, false, false, true⟩⟩

def startsWith (buf : List Char) (token : String) : Bool :=
  token.toList.isPrefixOf buf

/-- A token that was matched: the modes after it, what it emits and its bytes, as
many as its characters. -/
structure Match where
  modes : Modes
  out : String
  consumed : Nat
  deriving DecidableEq, Repr

/-- The tokens that are matched everywhere, before those of a line's start. -/
def Modes.blockToken (modes : Modes) (buf : List Char) : Option Match :=
  if startsWith buf "```" then
    some ⟨{ modes with codeBlock := !modes.codeBlock, isNewline := false },
      if !modes.codeBlock then "\x1b[36m" else "\x1b[0m", 3⟩
  else if startsWith buf "$$" || startsWith buf "\\[" || startsWith buf "\\]" then
    some ⟨{ modes with mathBlock := !modes.mathBlock, isNewline := false },
      if !modes.mathBlock then "\x1b[35m" else "\x1b[0m", 2⟩
  else if startsWith buf "\\(" || startsWith buf "\\)" then
    some ⟨{ modes with mathInline := !modes.mathInline, isNewline := false },
      if !modes.mathInline then "\x1b[35m" else "\x1b[0m", 2⟩
  else if startsWith buf "**" then
    some ⟨{ modes with bold := !modes.bold, isNewline := false },
      if !modes.bold then "\x1b[1m" else "\x1b[22m", 2⟩
  else none

/-- The tokens of a line's start. -/
def Modes.lineToken (modes : Modes) (buf : List Char) : Option Match :=
  let modes := { modes with isNewline := false }
  if startsWith buf "### " then some ⟨modes, "\x1b[1;96m### ", 4⟩
  else if startsWith buf "## " then some ⟨modes, "\x1b[1;96m## ", 3⟩
  else if startsWith buf "# " then some ⟨modes, "\x1b[1;96m# ", 2⟩
  else if startsWith buf "- " || startsWith buf "* " then
    some ⟨modes, "\x1b[33m\u2022 \x1b[0m", 2⟩
  else none

/-- The tokens of one character. -/
def Modes.inlineToken (modes : Modes) (buf : List Char) : Option Match :=
  if startsWith buf "`" then
    some ⟨{ modes with inlineCode := !modes.inlineCode, isNewline := false },
      if !modes.inlineCode then "\x1b[36m" else "\x1b[0m", 1⟩
  else if startsWith buf "$" then
    some ⟨{ modes with mathInline := !modes.mathInline, isNewline := false },
      if !modes.mathInline then "\x1b[35m" else "\x1b[0m", 1⟩
  else none

def Modes.processToken (modes : Modes) (buf : List Char) : Option Match :=
  (modes.blockToken buf).or <|
    (if modes.isNewline then modes.lineToken buf else none).or (modes.inlineToken buf)

/-- A character that starts no token; a new line restores the modes that last. -/
def Modes.plain (modes : Modes) (character : Char) : Modes × List Char :=
  if character = '\n' then
    ({ modes with isNewline := true },
      "\x1b[0m".toList ++ (if modes.codeBlock then "\x1b[36m".toList else []) ++
        (if modes.mathBlock then "\x1b[35m".toList else []) ++
          (if modes.bold then "\x1b[1m".toList else []) ++ [character])
  else ({ modes with isNewline := false }, [character])

/-- What the body of both loops leaves: the modes, its output and the rest. -/
structure Pass where
  modes : Modes
  out : List Char
  rest : List Char
  deriving DecidableEq, Repr

def Modes.step (modes : Modes) (buf : List Char) : Pass :=
  match modes.processToken buf with
  | some found => ⟨found.modes, found.out.toList, buf.drop found.consumed⟩
  | none =>
      match buf with
      | [] => ⟨modes, [], []⟩
      | character :: rest => ⟨(modes.plain character).1, (modes.plain character).2, rest⟩

/-- `String::len`. -/
def byteLength (text : List Char) : Nat :=
  (text.map Char.utf8Size).sum

/-! ## A step consumes -/

section Consumed

variable {modes : Modes} {buf : List Char}

/-- Every token. -/
def tokens : List String :=
  ["```", "$$", "\\[", "\\]", "\\(", "\\)", "**", "### ", "## ", "# ", "- ", "* ", "`", "$"]

/-- The match is of a token that the buffer starts with, and leaves the line's
start behind. -/
structure Match.Of (buf : List Char) (found : Match) : Prop where
  token : ∃ token ∈ tokens, token.toList <+: buf ∧ token.toList.length = found.consumed
  midLine : found.modes.isNewline = false

theorem of_token {token : String} {made found : Match} (starts : startsWith buf token = true)
    (known : token ∈ tokens) (consumed : token.toList.length = made.consumed)
    (midLine : made.modes.isNewline = false) (matched : some made = some found) :
    found.Of buf := by
  injection matched with same
  rw [← same]
  exact ⟨⟨token, known, List.isPrefixOf_iff_prefix.mp starts, consumed⟩, midLine⟩

theorem blockToken_of {found : Match} (matched : modes.blockToken buf = some found) :
    found.Of buf := by
  unfold Modes.blockToken at matched
  split at matched
  · rename_i starts
    exact of_token starts (by decide) rfl rfl matched
  · split at matched
    · rename_i starts
      rw [Bool.or_eq_true, Bool.or_eq_true] at starts
      rcases starts with (starts | starts) | starts
      · exact of_token starts (by decide) rfl rfl matched
      · exact of_token starts (by decide) rfl rfl matched
      · exact of_token starts (by decide) rfl rfl matched
    · split at matched
      · rename_i starts
        rw [Bool.or_eq_true] at starts
        rcases starts with starts | starts
        · exact of_token starts (by decide) rfl rfl matched
        · exact of_token starts (by decide) rfl rfl matched
      · split at matched
        · rename_i starts
          exact of_token starts (by decide) rfl rfl matched
        · contradiction

theorem lineToken_of {found : Match} (matched : modes.lineToken buf = some found) :
    found.Of buf := by
  unfold Modes.lineToken at matched
  dsimp only at matched
  split at matched
  · rename_i starts
    exact of_token starts (by decide) rfl rfl matched
  · split at matched
    · rename_i starts
      exact of_token starts (by decide) rfl rfl matched
    · split at matched
      · rename_i starts
        exact of_token starts (by decide) rfl rfl matched
      · split at matched
        · rename_i starts
          rw [Bool.or_eq_true] at starts
          rcases starts with starts | starts
          · exact of_token starts (by decide) rfl rfl matched
          · exact of_token starts (by decide) rfl rfl matched
        · contradiction

theorem inlineToken_of {found : Match} (matched : modes.inlineToken buf = some found) :
    found.Of buf := by
  unfold Modes.inlineToken at matched
  split at matched
  · rename_i starts
    exact of_token starts (by decide) rfl rfl matched
  · split at matched
    · rename_i starts
      exact of_token starts (by decide) rfl rfl matched
    · contradiction

theorem processToken_of {found : Match} (matched : modes.processToken buf = some found) :
    found.Of buf := by
  unfold Modes.processToken at matched
  rcases Option.or_eq_some_iff.mp matched with block | ⟨-, rest⟩
  · exact blockToken_of block
  · rcases Option.or_eq_some_iff.mp rest with line | ⟨-, inline⟩
    · split at line
      · exact lineToken_of line
      · contradiction
    · exact inlineToken_of inline

theorem tokens_nonempty : ∀ token ∈ tokens, 1 ≤ token.toList.length ∧ '\n' ∉ token.toList := by
  decide

/-- The step lemma: some characters are consumed, and the modes are those of a
line's start exactly behind a line feed, which is consumed alone. -/
theorem step_spec (some : buf ≠ []) :
    ∃ piece, buf = piece ++ (modes.step buf).rest ∧ piece ≠ [] ∧
      ((modes.step buf).modes.isNewline = true ↔ piece = ['\n']) ∧
        ('\n' ∈ piece → piece = ['\n']) := by
  unfold Modes.step
  cases matched : modes.processToken buf with
  | some found =>
      obtain ⟨⟨token, known, starts, consumed⟩, midLine⟩ := processToken_of matched
      obtain ⟨nonempty, noLine⟩ := tokens_nonempty token known
      obtain ⟨rest, split⟩ := starts
      refine ⟨token.toList, ?_, ?_, ?_, fun line => absurd line noLine⟩
      · dsimp only
        rw [← consumed, ← split, List.drop_left]
      · intro empty
        rw [empty] at nonempty
        exact absurd nonempty (by decide)
      · dsimp only
        rw [midLine]
        constructor
        · intro impossible
          exact absurd impossible Bool.false_ne_true
        · intro line
          rw [line] at noLine
          exact absurd (List.mem_singleton_self '\n') noLine
  | none =>
      cases buf with
      | nil => exact absurd rfl some
      | cons character rest =>
          refine ⟨[character], rfl, by simp, ?_, ?_⟩
          · dsimp only
            unfold Modes.plain
            split
            · rename_i line
              simp [line]
            · rename_i other
              simp [other]
          · intro line
            rw [List.mem_singleton.mp line]

end Consumed

/-! ## The loops -/

theorem rest_shorter {modes : Modes} {buf : List Char} (some : buf ≠ []) :
    (modes.step buf).rest.length < buf.length := by
  obtain ⟨piece, split, nonempty, -⟩ := @step_spec modes buf some
  have size := congrArg List.length split
  rw [List.length_append] at size
  have positive := List.length_pos_iff.mpr nonempty
  omega

theorem ne_nil_of_byteLength {buf : List Char} {kept : Nat} (more : kept < byteLength buf) :
    buf ≠ [] := by
  rintro rfl
  exact absurd more (Nat.not_lt_zero kept)

/-- The loop while more than `kept` bytes are left: two in `render_chunk`, whose
look-ahead is three bytes, and none in `finish`. -/
def drain (kept : Nat) (modes : Modes) (buf : List Char) : Pass :=
  if _more : kept < byteLength buf then
    let pass := modes.step buf
    let later := drain kept pass.modes pass.rest
    ⟨later.modes, pass.out ++ later.out, later.rest⟩
  else ⟨modes, [], buf⟩
termination_by buf.length
decreasing_by exact rest_shorter (ne_nil_of_byteLength _more)

namespace MdStreamer

def renderChunk (streamer : MdStreamer) (text : List Char) : MdStreamer × List Char :=
  let pass := drain 2 streamer.modes (streamer.buffer ++ text)
  (⟨pass.rest, pass.modes⟩, pass.out)

/-- Everything left is rendered, and the terminal reset. -/
def finish (streamer : MdStreamer) : MdStreamer × List Char :=
  let pass := drain 0 streamer.modes streamer.buffer
  (⟨[], pass.modes⟩, pass.out ++ "\x1b[0m".toList)

def renderFrom (streamer : MdStreamer) : List (List Char) → MdStreamer × List Char
  | [] => (streamer, [])
  | input :: inputs =>
      let (next, out) := streamer.renderChunk input
      let (last, later) := next.renderFrom inputs
      (last, out ++ later)

def renderChunks (inputs : List (List Char)) : List Char :=
  let (streamer, out) := MdStreamer.new.renderFrom inputs
  out ++ streamer.finish.2

end MdStreamer

end SystemPilot.Ui
