import SystemPilot.Codebase.Chunks

/-!
# What the chunks cover

A covering is a list of exact chunks, one after the other, from some line of a file
to its last.  The scanners cut so, and `post_process` merges neighbours without
changing what is covered; the windows are the same with ten lines shared.
-/

set_option autoImplicit false

namespace SystemPilot.Codebase

open SystemPilot.Text

/-! ## Coverings -/

/-- The chunk is exactly its lines, counted from one. -/
structure RawChunk.Exact (lines : List String) (chunk : RawChunk) : Prop where
  start : 1 ≤ chunk.startLine
  ordered : chunk.startLine ≤ chunk.endLine
  inside : chunk.endLine ≤ lines.length
  content : chunk.content =
    joinLines ((lines.take chunk.endLine).drop (chunk.startLine - 1))

/-- The chunks are exact, begin behind the line `start`, end at the last line, cover
every line between, and each joins the next one as asked. -/
structure Covering (lines : List String) (joint : RawChunk → RawChunk → Prop) (start : Nat)
    (chunks : List RawChunk) : Prop where
  exact : ∀ chunk ∈ chunks, chunk.Exact lines
  first : chunks.head?.map RawChunk.startLine = some (start + 1)
  last : chunks.getLast?.map RawChunk.endLine = some lines.length
  joined : chunks.IsChain joint
  covered : ∀ line, start < line → line ≤ lines.length →
    ∃ chunk ∈ chunks, chunk.startLine ≤ line ∧ line ≤ chunk.endLine

/-- The next chunk begins behind this one. -/
def Adjacent (chunk next : RawChunk) : Prop := next.startLine = chunk.endLine + 1

/-- The next chunk begins and ends later, and the two share ten lines. -/
def SharesTen (chunk next : RawChunk) : Prop :=
  chunk.startLine < next.startLine ∧ chunk.endLine < next.endLine ∧
    chunk.endLine + 1 = next.startLine + 10

section Coverings

variable {lines : List String} {joint : RawChunk → RawChunk → Prop} {start : Nat}

theorem Covering.single {chunk : RawChunk} (exact : chunk.Exact lines)
    (first : chunk.startLine = start + 1) (last : chunk.endLine = lines.length) :
    Covering lines joint start [chunk] where
  exact := by
    intro other member
    rw [List.mem_singleton.mp member]
    exact exact
  first := congrArg some first
  last := congrArg some last
  joined := List.isChain_singleton chunk
  covered := by
    intro line above below
    exact ⟨chunk, List.mem_singleton_self chunk, by omega, by omega⟩

theorem Covering.cons {chunk second : RawChunk} {rest : List RawChunk} {later : Nat}
    (exact : chunk.Exact lines) (first : chunk.startLine = start + 1)
    (joined : joint chunk second) (near : later ≤ chunk.endLine)
    (covering : Covering lines joint later (second :: rest)) :
    Covering lines joint start (chunk :: second :: rest) where
  exact := by
    intro other member
    rcases List.mem_cons.mp member with rfl | member
    · exact exact
    · exact covering.exact other member
  first := congrArg some first
  last := by
    rw [List.getLast?_cons_cons]
    exact covering.last
  joined := List.IsChain.cons_cons joined covering.joined
  covered := by
    intro line above below
    by_cases here : line ≤ chunk.endLine
    · exact ⟨chunk, List.mem_cons_self, by omega, here⟩
    · obtain ⟨other, member, bounds⟩ := covering.covered line (by omega) below
      exact ⟨other, List.mem_cons_of_mem chunk member, bounds⟩

theorem Covering.ne_nil {chunks : List RawChunk} (covering : Covering lines joint start chunks) :
    chunks ≠ [] := by
  rintro rfl
  cases covering.first

theorem Covering.startLine_eq {chunk : RawChunk} {rest : List RawChunk}
    (covering : Covering lines joint start (chunk :: rest)) : chunk.startLine = start + 1 :=
  Option.some.inj covering.first

/-- What follows a chunk covers the lines behind it. -/
theorem Covering.tail {chunk second : RawChunk} {rest : List RawChunk}
    (covering : Covering lines Adjacent start (chunk :: second :: rest)) :
    Covering lines Adjacent chunk.endLine (second :: rest) where
  exact := fun other member => covering.exact other (List.mem_cons_of_mem chunk member)
  first := by
    have behind : Adjacent chunk second := covering.joined.rel
    exact congrArg some behind
  last := by
    have last := covering.last
    rw [List.getLast?_cons_cons] at last
    exact last
  joined := covering.joined.tail
  covered := by
    intro line above below
    have bounds := covering.startLine_eq
    have ordered := (covering.exact chunk List.mem_cons_self).ordered
    obtain ⟨other, member, from_, to_⟩ := covering.covered line (by omega) below
    rcases List.mem_cons.mp member with rfl | member
    · omega
    · exact ⟨other, member, from_, to_⟩

theorem Covering.endLine_eq {chunk : RawChunk} (covering : Covering lines joint start [chunk]) :
    chunk.endLine = lines.length :=
  Option.some.inj covering.last

/-- The chunks behind the first one may be cut anew. -/
theorem Covering.recut {chunk : RawChunk} {rest after : List RawChunk}
    (covering : Covering lines Adjacent start (chunk :: rest)) (none : rest = [] → after = [])
    (some : Covering lines Adjacent chunk.endLine rest →
      Covering lines Adjacent chunk.endLine after) :
    Covering lines Adjacent start (chunk :: after) := by
  cases rest with
  | nil =>
      rw [none rfl]
      exact covering
  | cons second rest =>
      have later := some covering.tail
      cases after with
      | nil => exact absurd rfl later.ne_nil
      | cons next after =>
          exact .cons (covering.exact chunk List.mem_cons_self) covering.startLine_eq
            later.startLine_eq (Nat.le_refl _) later

end Coverings

/-! ## The scanners -/

/-- The lines of a file from the one behind `start` to the one numbered `stop`. -/
theorem exact_of_range {lines : List String} {start stop : Nat} (below : start < stop)
    (inside : stop ≤ lines.length) {content : String}
    (same : content = joinLines ((lines.take stop).drop start)) :
    RawChunk.Exact lines ⟨content, start + 1, stop⟩ where
  start := Nat.le_add_left 1 start
  ordered := below
  inside := inside
  content := same

/-- The loop has read `before`, of which the lines behind `start` wait to be cut. -/
theorem cutFrom_covers (starts : Int → String → Bool) (rest before : List String) (start : Nat)
    (depth : Int) (within : start ≤ before.length) (some : start < (before ++ rest).length) :
    Covering (before ++ rest) Adjacent start
      (cutFrom starts rest before.length (before.drop start) (start + 1) depth) := by
  induction rest generalizing before start depth with
  | nil =>
      rw [List.append_nil] at some ⊢
      have left : (before.drop start).isEmpty = false := by
        rw [List.isEmpty_eq_false_iff, ne_eq, List.drop_eq_nil_iff]
        omega
      rw [cutFrom, left, if_neg Bool.false_ne_true]
      refine .single (exact_of_range some (Nat.le_refl _) ?_) rfl rfl
      rw [List.take_length]
  | cons line rest inductionHypothesis =>
      have regrouped : before ++ line :: rest = (before ++ [line]) ++ rest := by simp
      have grown : (before ++ [line]).length = before.length + 1 := by simp
      have bound : before.length < (before ++ line :: rest).length := by simp
      rw [cutFrom]
      by_cases cuts : (starts depth line && !(before.drop start).isEmpty) = true
      · rw [if_pos cuts]
        rw [Bool.and_eq_true, Bool.not_eq_true', List.isEmpty_eq_false_iff, ne_eq,
          List.drop_eq_nil_iff] at cuts
        have later := inductionHypothesis (before ++ [line]) before.length
          (max (depth + line.toList.count '{' - line.toList.count '}') 0) (by omega)
          (by rw [← regrouped]; exact bound)
        rw [List.drop_left, grown, ← regrouped] at later
        have exact : RawChunk.Exact (before ++ line :: rest)
            ⟨joinLines (before.drop start), start + 1, before.length⟩ := by
          refine exact_of_range (by omega) (by omega) ?_
          rw [List.take_left]
        cases shape : cutFrom starts rest (before.length + 1) [line] (before.length + 1)
            (max (depth + line.toList.count '{' - line.toList.count '}') 0) with
        | nil => exact absurd shape later.ne_nil
        | cons second chunks =>
            rw [shape] at later
            exact .cons exact rfl later.startLine_eq (Nat.le_refl _) later
      · rw [if_neg cuts]
        have later := inductionHypothesis (before ++ [line]) start
          (max (depth + line.toList.count '{' - line.toList.count '}') 0) (by omega)
          (by rw [← regrouped]; exact some)
        rw [List.drop_append_of_le_length within, grown, ← regrouped] at later
        exact later

/-! ## Merging -/

theorem range_split {lines : List String} {start middle stop : Nat} (front : start ≤ middle)
    (back : middle ≤ stop) (inside : middle ≤ lines.length) :
    (lines.take stop).drop start =
      (lines.take middle).drop start ++ (lines.take stop).drop middle := by
  have whole : lines.take stop = lines.take middle ++ (lines.take stop).drop middle := by
    rw [← List.take_append_drop middle (lines.take stop), List.take_take, Nat.min_eq_left back,
      List.drop_left' (by rw [List.length_take]; omega)]
  conv_lhs => rw [whole]
  exact List.drop_append_of_le_length (by rw [List.length_take]; omega)

/-- Two neighbours merge into one chunk of the lines of both. -/
theorem Covering.merge {lines : List String} {start : Nat} {acc chunk : RawChunk}
    {rest : List RawChunk} (covering : Covering lines Adjacent start (acc :: chunk :: rest)) :
    Covering lines Adjacent start
      (⟨acc.content ++ "\n" ++ chunk.content, acc.startLine, chunk.endLine⟩ :: rest) := by
  have front := covering.exact acc List.mem_cons_self
  have back := covering.tail.exact chunk List.mem_cons_self
  have first := covering.startLine_eq
  have behind := covering.tail.startLine_eq
  have orders := And.intro front.ordered back.ordered
  have exact : RawChunk.Exact lines
      ⟨acc.content ++ "\n" ++ chunk.content, acc.startLine, chunk.endLine⟩ := by
    refine ⟨front.start, ?_, back.inside, ?_⟩
    · change acc.startLine ≤ chunk.endLine
      omega
    · have frontLines : (lines.take acc.endLine).drop (acc.startLine - 1) ≠ [] := by
        rw [ne_eq, List.drop_eq_nil_iff, List.length_take]
        have inside := front.inside
        omega
      have backLines : (lines.take chunk.endLine).drop (chunk.startLine - 1) ≠ [] := by
        rw [ne_eq, List.drop_eq_nil_iff, List.length_take]
        have inside := back.inside
        omega
      have joined : (lines.take chunk.endLine).drop (acc.startLine - 1) =
          (lines.take acc.endLine).drop (acc.startLine - 1) ++
            (lines.take chunk.endLine).drop (chunk.startLine - 1) := by
        rw [behind, Nat.add_sub_cancel]
        exact range_split (by omega) (by omega) front.inside
      change acc.content ++ "\n" ++ chunk.content = joinLines _
      rw [front.content, back.content, joined]
      exact (String.intercalate_append_of_ne_nil frontLines backLines).symm
  cases rest with
  | nil => exact .single exact first covering.tail.endLine_eq
  | cons second rest =>
      have later := covering.tail.tail
      exact .cons exact first later.startLine_eq (Nat.le_refl _) later

/-- Merging covers what was covered, and only the last chunk may stay short. -/
theorem postProcessFrom_covers {lines : List String} (chunks : List RawChunk)
    (acc : Option RawChunk) (start : Nat)
    (covering : Covering lines Adjacent start (acc.toList ++ chunks)) :
    Covering lines Adjacent start (postProcessFrom chunks acc) ∧
      ∀ chunk ∈ (postProcessFrom chunks acc).dropLast, 8 ≤ chunk.span := by
  -- a chunk that is long enough is put in front of what the rest becomes
  have push : ∀ (chunk : RawChunk) (rest : List RawChunk) (start : Nat), 8 ≤ chunk.span →
      Covering lines Adjacent start (chunk :: rest) →
      (∀ start, Covering lines Adjacent start rest →
        Covering lines Adjacent start (postProcessFrom rest none) ∧
          ∀ later ∈ (postProcessFrom rest none).dropLast, 8 ≤ later.span) →
      Covering lines Adjacent start (chunk :: postProcessFrom rest none) ∧
        ∀ later ∈ (chunk :: postProcessFrom rest none).dropLast, 8 ≤ later.span := by
    intro chunk rest start long covering recursive
    cases rest with
    | nil =>
        refine ⟨covering, ?_⟩
        intro later member
        cases member
    | cons second rest =>
        obtain ⟨covers, spans⟩ := recursive _ covering.tail
        refine ⟨covering.recut (fun empty => by cases empty) fun _ => covers, ?_⟩
        intro later member
        rw [List.dropLast_cons_of_ne_nil covers.ne_nil] at member
        rcases List.mem_cons.mp member with rfl | member
        · exact long
        · exact spans later member
  induction chunks generalizing acc start with
  | nil =>
      refine ⟨by simpa [postProcessFrom] using covering, ?_⟩
      intro chunk member
      cases acc with
      | none => cases member
      | some acc => cases member
  | cons chunk rest inductionHypothesis =>
      have recursive := fun start covering => inductionHypothesis none start covering
      cases acc with
      | none =>
          rw [postProcessFrom]
          by_cases short : chunk.span < 8
          · rw [if_pos short]
            exact inductionHypothesis (some chunk) start covering
          · rw [if_neg short]
            exact push chunk rest start (Nat.le_of_not_lt short) covering recursive
      | some acc =>
          rw [postProcessFrom]
          split
          · rename_i long
            exact push _ rest start long covering.merge recursive
          · exact inductionHypothesis (some _) start covering.merge

/-- A scanner partitions the lines. -/
theorem cut_covers (starts : Int → String → Bool) {lines : List String} (some : lines ≠ []) :
    Covering lines Adjacent 0 (cut starts lines) ∧
      ∀ chunk ∈ (cut starts lines).dropLast, 8 ≤ chunk.span := by
  have scanned := cutFrom_covers starts lines [] 0 0 (Nat.le_refl _)
    (List.length_pos_iff.mpr some)
  exact postProcessFrom_covers _ none 0 scanned

/-! ## Windows -/

/-- The first window begins at `start` and ends forty lines later, or with the file. -/
theorem windows_head {lines : List String} {start : Nat} (more : start < lines.length) :
    ∃ window rest, windows lines start = window :: rest ∧ window.Exact lines ∧
      window.startLine = start + 1 ∧ window.endLine = min (start + 40) lines.length := by
  have exact : RawChunk.Exact lines ⟨joinLines
      ((lines.take (min (start + chunkSize) lines.length)).drop start), start + 1,
      min (start + chunkSize) lines.length⟩ :=
    exact_of_range (by rw [chunkSize]; omega) (Nat.min_le_right _ _) rfl
  rw [windows, dif_pos more]
  dsimp only
  split
  · exact ⟨_, [], rfl, exact, rfl, rfl⟩
  · exact ⟨_, _, rfl, exact, rfl, rfl⟩

/-- The windows from one line on cover the rest of the lines. -/
theorem windows_cover {lines : List String} (start : Nat) (more : start < lines.length) :
    Covering lines SharesTen start (windows lines start) ∧
      ∀ chunk ∈ windows lines start, chunk.span ≤ 40 := by
  induction start using windows.induct lines with
  | case1 start _ stop ends =>
      obtain ⟨window, rest, whole, exact, first, last⟩ := windows_head more
      have alone : rest = [] := by
        rw [windows, dif_pos more] at whole
        dsimp only at whole
        rw [if_pos ends] at whole
        exact (List.cons.inj whole).2.symm
      subst alone
      rw [whole]
      have total : min (start + 40) lines.length = lines.length := ends
      refine ⟨.single exact first (last.trans total), ?_⟩
      intro chunk member
      rw [List.mem_singleton.mp member, RawChunk.span, first, last]
      omega
  | case2 start _ stop ends inductionHypothesis =>
      obtain ⟨window, rest, whole, exact, first, last⟩ := windows_head more
      have partly : min (start + 40) lines.length ≠ lines.length := ends
      have next : start + 30 < lines.length := by omega
      have remaining : rest = windows lines (start + 30) := by
        rw [windows, dif_pos more] at whole
        dsimp only at whole
        rw [if_neg ends] at whole
        exact (List.cons.inj whole).2.symm
      obtain ⟨covering, spans⟩ := inductionHypothesis next
      obtain ⟨second, later, tail, _, secondFirst, secondLast⟩ := windows_head next
      change Covering lines SharesTen (start + 30) (windows lines (start + 30)) at covering
      change ∀ chunk ∈ windows lines (start + 30), chunk.span ≤ 40 at spans
      rw [whole, remaining]
      rw [tail] at covering spans ⊢
      refine ⟨.cons exact first ⟨by omega, by omega, by omega⟩ (by omega) covering, ?_⟩
      intro chunk member
      rcases List.mem_cons.mp member with rfl | member
      · rw [RawChunk.span, first, last]
        omega
      · exact spans chunk member
  | case3 start stopped => exact absurd more stopped

/-! ## `chunk_file` -/

/-- The strategy scans the file for definitions or headings. -/
def Scanned (path strategy : String) : Prop :=
  strategy = "syntactic" ∧ extension path ∈
    ["rs", "js", "ts", "go", "c", "cpp", "h", "hpp", "java", "py", "md"]

/-- `chunk_file` partitions the lines of a text file, each chunk but the last at
least eight lines long, or covers them by windows of at most forty lines. -/
theorem chunk_file_covers (path strategy content : String) (size : Nat)
    (small : size ≤ 1024 * 1024) (text : '\x00' ∉ content.toList)
    (some : lines content ≠ []) :
    let chunks := chunkFile path size (.some content) strategy
    (Scanned path strategy →
      Covering (lines content) Adjacent 0 chunks ∧
        ∀ chunk ∈ chunks.dropLast, 8 ≤ chunk.span) ∧
    (¬Scanned path strategy →
      Covering (lines content) SharesTen 0 chunks ∧ ∀ chunk ∈ chunks, chunk.span ≤ 40) := by
  have filled : (lines content).isEmpty = false := List.isEmpty_eq_false_iff.mpr some
  have windowed := windows_cover 0 (List.length_pos_iff.mpr some)
  have plain : content.toList.contains '\x00' = false := by
    rw [← Bool.not_eq_true, List.contains_iff_mem]
    exact text
  intro chunks
  have unfolded : chunks = if strategy = "syntactic" ∧
        extension path ∈ ["rs", "js", "ts", "go", "c", "cpp", "h", "hpp", "java"] then
        cut braceStarts (lines content)
      else if strategy = "syntactic" ∧ extension path = "py" then
        cut pythonStarts (lines content)
      else if strategy = "syntactic" ∧ extension path = "md" then
        cut markdownStarts (lines content)
      else windows (lines content) 0 := by
    change chunkFile path size (.some content) strategy = _
    rw [chunkFile, if_neg (Nat.not_lt.mpr small)]
    dsimp only
    rw [plain, if_neg Bool.false_ne_true, filled, if_neg Bool.false_ne_true]
  rw [unfolded]
  by_cases brace : strategy = "syntactic" ∧
      extension path ∈ ["rs", "js", "ts", "go", "c", "cpp", "h", "hpp", "java"]
  · rw [if_pos brace]
    refine ⟨fun _ => cut_covers braceStarts some, fun unscanned => absurd ⟨brace.1, ?_⟩ unscanned⟩
    exact List.mem_append_left ["py", "md"] brace.2
  · rw [if_neg brace]
    by_cases python : strategy = "syntactic" ∧ extension path = "py"
    · rw [if_pos python]
      refine ⟨fun _ => cut_covers pythonStarts some,
        fun unscanned => absurd ⟨python.1, ?_⟩ unscanned⟩
      simp [python.2]
    · rw [if_neg python]
      by_cases markdown : strategy = "syntactic" ∧ extension path = "md"
      · rw [if_pos markdown]
        refine ⟨fun _ => cut_covers markdownStarts some,
          fun unscanned => absurd ⟨markdown.1, ?_⟩ unscanned⟩
        simp [markdown.2]
      · rw [if_neg markdown]
        refine ⟨fun scanned => ?_, fun _ => windowed⟩
        obtain ⟨syntactic, member⟩ := scanned
        have split : extension path ∈
            ["rs", "js", "ts", "go", "c", "cpp", "h", "hpp", "java"] ++ ["py", "md"] := member
        rcases List.mem_append.mp split with known | known
        · exact absurd ⟨syntactic, known⟩ brace
        · rcases List.mem_cons.mp known with python' | known
          · exact absurd ⟨syntactic, python'⟩ python
          · exact absurd ⟨syntactic, List.mem_singleton.mp known⟩ markdown

theorem chunk_file_covers_rust :
    Covering (lines "fn a() \x7b\x7d\nfn b() \x7b\x7d") Adjacent 0
      (chunkFile "src/a.rs" 19 (some "fn a() \x7b\x7d\nfn b() \x7b\x7d") "syntactic") :=
  ((chunk_file_covers "src/a.rs" "syntactic" "fn a() \x7b\x7d\nfn b() \x7b\x7d" 19 (by decide)
    (by decide +kernel) (by decide +kernel)).1 ⟨rfl, by decide +kernel⟩).1

example : (chunkFile "a.md" 9 (some "# A\n# B\n") "syntactic").map RawChunk.endLine = [2] := by
  decide +kernel

end SystemPilot.Codebase
