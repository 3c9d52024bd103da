import Mathlib.Data.List.Sort
import SystemPilot.Codebase.Incremental

/-!
# Workspaces

The index files of all workspaces, each under a name made of the path of its
workspace, and runs of `update_index` and `query_context` that go on at the same
time.  A run takes one operation on its index file after the other; what else it
finds (its files, the embedding service, how a load or a save ends) is part of the
call.  Vectors and similarities are whatever `f32` makes of them.
-/

set_option autoImplicit false

namespace SystemPilot.Codebase

open SystemPilot.Library
open SystemPilot.Text

/-! ## The file of a workspace -/

/-- `char::is_alphanumeric`: letters and digits of ASCII, and those of a table. -/
def isAlphanumeric (table : Char → Bool) (character : Char) : Bool :=
  if character.val < 128 then character.isAlphanum else table character

def safeCharacter (table : Char → Bool) (character : Char) : Char :=
  if isAlphanumeric table character then character else '_'

/-- `get_db_path`, in the directory of the vector indexes. -/
def getDbPath (table : Char → Bool) (directory workspace : String) : String :=
  directory ++ "/" ++ String.ofList (workspace.toList.map (safeCharacter table)) ++ ".bin"

/-- Two paths that differ only where neither has a letter or a digit. -/
def SameName (table : Char → Bool) (first second : String) : Prop :=
  List.Forall₂ (fun a b => a = b ∨ isAlphanumeric table a = false ∧ isAlphanumeric table b = false)
    first.toList second.toList

/-! ## Queries -/

/-- What the code computes with `f32`: `len`, `normalize_vec`, `cosine_similarity`,
`partial_cmp`, `< 0.2` and `{:.2}`. -/
structure Vectors (Embedding Similarity : Type) where
  length : Embedding → Nat
  normalize : Embedding → Embedding
  cosine : Embedding → Embedding → Similarity
  partialCmp : Similarity → Similarity → Option Ordering
  weak : Similarity → Bool
  twoPlaces : Similarity → String

/-- A query, and whether the index it loads can be decoded and is quarantined
otherwise. -/
structure Query where
  text : String
  corrupt : Bool := false
  error : String := ""
  quarantinedTo : Option String := none
  deriving DecidableEq, Repr

/-- One part of an answer: a chunk under its number. -/
structure Entry (Embedding Similarity : Type) where
  number : Nat
  chunk : DbChunk Embedding
  similarity : Similarity

inductive Answer (Embedding Similarity : Type) where
  | message (text : String)
  | context (entries : List (Entry Embedding Similarity))

section Queries

variable {Embedding Similarity : Type} (vectors : Vectors Embedding Similarity)

def Entry.text (entry : Entry Embedding Similarity) : String :=
  "--- Chunk " ++ toString entry.number ++ " from '" ++ entry.chunk.filePath ++ "' (Lines " ++
    toString entry.chunk.startLine ++ "-" ++ toString entry.chunk.endLine ++ ", Sim: " ++
    vectors.twoPlaces entry.similarity ++ ") ---\n" ++ entry.chunk.content ++ "\n\n"

def Answer.entries : Answer Embedding Similarity → List (Entry Embedding Similarity)
  | .message _ => []
  | .context entries => entries

/-- What `query_context` returns. -/
def Answer.text : Answer Embedding Similarity → String
  | .message text => text
  | .context entries =>
      if entries.isEmpty then "No matching context found."
      else String.join (entries.map (Entry.text vectors))

/-- The chunks that can be compared, the most similar ones first. -/
def scores (db : VectorDb Embedding) (wanted : Embedding) :
    List (DbChunk Embedding × Similarity) :=
  ((db.chunks.filter fun chunk => vectors.length chunk.embedding == vectors.length wanted).map
    fun chunk => (chunk, vectors.cosine chunk.embedding wanted)).insertionSort
      fun a b => ((vectors.partialCmp b.2 a.2).getD .eq).isLE = true

def budget : Nat := 8000

/-- The entries up to the first that is weak or over the budget. -/
def fill : Nat → Nat → List (DbChunk Embedding × Similarity) → List (Entry Embedding Similarity)
  | _, _, [] => []
  | length, number, (chunk, similarity) :: rest =>
      let entry : Entry Embedding Similarity := ⟨number, chunk, similarity⟩
      if vectors.weak similarity then []
      else if budget < length + (entry.text vectors).utf8ByteSize then []
      else entry :: fill (length + (entry.text vectors).utf8ByteSize) (number + 1) rest

/-- `query_context` on the index it loaded, with the embeddings of the query. -/
def answerQuery (load : VectorIndexLoad Embedding) (query : Query) (embeds : List Embedding) :
    Answer Embedding Similarity :=
  match load with
  | .missing => .message "No indexed files found."
  | .corrupt =>
      .message ("Vector index is corrupt: " ++ query.error ++ "; evidence: " ++
        query.quarantinedTo.getD "quarantine failed" ++ ". Run `syspilot index --force`.")
  | .loaded db =>
      if db.chunks.isEmpty then .message "No indexed files found."
      else
        match embeds with
        | [] => .message "Failed to embed search query."
        | first :: _ =>
            .context (fill vectors 0 1 ((scores vectors db (vectors.normalize first)).take 8))

end Queries

/-! ## Runs side by side -/

/-- A call of `update_index`, or of `query_context` with its query. -/
structure Call (Embedding : Type) where
  workspace : String
  run : Run Embedding
  query : Option Query := none

/-- The `update_index` of a call; that of `query_context` is not forced. -/
def Call.update {Embedding : Type} (call : Call Embedding) : Run Embedding :=
  match call.query with
  | none => call.run
  | some _ => { call.run with force := false }

/-- How far a run is. -/
inductive Phase (Embedding Similarity : Type) where
  | opening
  | opened (load : VectorIndexLoad Embedding)
  | updated
  | finished (answer : Option (Answer Embedding Similarity))

structure Caller (Embedding Similarity : Type) where
  call : Call Embedding
  phase : Phase Embedding Similarity := .opening

structure World (Embedding Similarity : Type) where
  files : String → Option (VectorDb Embedding) := fun _ => none
  callers : List (Caller Embedding Similarity) := []

/-- A run is started, or takes its next operation on its index file. -/
inductive Event (Embedding : Type) where
  | start (call : Call Embedding)
  | advance (caller : Nat)

/-- What an operation does to an index file. -/
inductive Access where
  | read (path : String)
  | quarantined (path : String)
  | written (path : String)
  deriving DecidableEq, Repr

def Access.path : Access → String
  | .read path => path
  | .quarantined path => path
  | .written path => path

section Steps

variable {Embedding Similarity : Type}

/-- What a load leaves of the file. -/
def remaining (file : Option (VectorDb Embedding)) (load : VectorIndexLoad Embedding)
    (quarantined : Bool) : Option (VectorDb Embedding) :=
  match load with
  | .corrupt => if quarantined then none else file
  | _ => file

/-- What a load does to the file. -/
def loadAccesses (path : String) (load : VectorIndexLoad Embedding) (quarantined : Bool) :
    List Access :=
  match load with
  | .missing => []
  | .loaded _ => [.read path]
  | .corrupt => if quarantined then [.read path, .quarantined path] else [.read path]

/-- `load_outcome` in `update_index`. -/
def Call.load (call : Call Embedding) (file : Option (VectorDb Embedding)) :
    VectorIndexLoad Embedding :=
  loadOutcome { index := file } call.run

/-- `load_outcome` in `query_context`. -/
def Call.reload (call : Call Embedding) (query : Query) (file : Option (VectorDb Embedding)) :
    VectorIndexLoad Embedding :=
  loadOutcome { index := file } { call.run with corrupt := query.corrupt }

variable (table : Char → Bool) (directory : String) (vectors : Vectors Embedding Similarity)

def Call.path (call : Call Embedding) : String := getDbPath table directory call.workspace

/-- The index a run puts into place. -/
def Call.saves (call : Call Embedding) (load : VectorIndexLoad Embedding) :
    Option (VectorDb Embedding) :=
  (updateIndex call.workspace vectors.normalize call.update load).2

/-- The next operation of a run: the file and the phase it leaves. -/
def Caller.advance (caller : Caller Embedding Similarity) (file : Option (VectorDb Embedding)) :
    Option (VectorDb Embedding) × Phase Embedding Similarity :=
  match caller.phase with
  | .opening =>
      if caller.call.update.force then (file, .opened .missing)
      else
        let load := caller.call.load file
        (remaining file load caller.call.run.quarantined, .opened load)
  | .opened load =>
      match caller.call.saves vectors load with
      | some db => (some db, .updated)
      | none => (file, .updated)
  | .updated =>
      match caller.call.query with
      | none => (file, .finished none)
      | some query =>
          let load := caller.call.reload query file
          (remaining file load query.quarantinedTo.isSome,
            .finished (some (answerQuery vectors load query
              (caller.call.run.fetchEmbeddings [query.text]))))
  | .finished answer => (file, .finished answer)

/-- What the next operation of a run does to its file. -/
def Caller.accesses (caller : Caller Embedding Similarity)
    (file : Option (VectorDb Embedding)) : List Access :=
  let path := caller.call.path table directory
  match caller.phase with
  | .opening =>
      if caller.call.update.force then []
      else loadAccesses path (caller.call.load file) caller.call.run.quarantined
  | .opened load =>
      match caller.call.saves vectors load with
      | some _ => [.written path]
      | none => []
  | .updated =>
      match caller.call.query with
      | none => []
      | some query =>
          loadAccesses path (caller.call.reload query file) query.quarantinedTo.isSome
  | .finished _ => []

def World.step (world : World Embedding Similarity) :
    Event Embedding → World Embedding Similarity
  | .start call => { world with callers := world.callers ++ [{ call }] }
  | .advance index =>
      match world.callers[index]? with
      | none => world
      | some caller =>
          let path := caller.call.path table directory
          let after := caller.advance vectors (world.files path)
          { files := Function.update world.files path after.1
            callers := world.callers.set index { caller with phase := after.2 } }

end Steps

/-! ## Names -/

section Names

variable (table : Char → Bool)

theorem safeCharacter_eq_iff (a b : Char) :
    safeCharacter table a = safeCharacter table b ↔
      a = b ∨ isAlphanumeric table a = false ∧ isAlphanumeric table b = false := by
  have underscore : isAlphanumeric table '_' = false := rfl
  unfold safeCharacter
  cases first : isAlphanumeric table a with
  | true =>
      cases second : isAlphanumeric table b with
      | true => simp
      | false =>
          have apart : a ≠ '_' := by
            rintro rfl
            exact Bool.false_ne_true (underscore.symm.trans first)
          have different : a ≠ b := by
            rintro rfl
            exact Bool.false_ne_true (second.symm.trans first)
          simp [apart, different]
  | false =>
      cases second : isAlphanumeric table b with
      | true =>
          have apart : '_' ≠ b := by
            rintro rfl
            exact Bool.false_ne_true (underscore.symm.trans second)
          have different : a ≠ b := by
            rintro rfl
            exact Bool.false_ne_true (first.symm.trans second)
          simp [apart, different]
      | false => simp

/-- Two workspaces share their file exactly when their paths are alike. -/
theorem getDbPath_eq_iff {directory first second : String} :
    getDbPath table directory first = getDbPath table directory second ↔
      SameName table first second := by
  have names : SameName table first second ↔
      first.toList.map (safeCharacter table) = second.toList.map (safeCharacter table) := by
    rw [← List.forall₂_eq_eq_eq, List.forall₂_map_left_iff, List.forall₂_map_right_iff]
    simp only [safeCharacter_eq_iff]
    rfl
  rw [names]
  constructor
  · intro same
    have texts := congrArg String.toList same
    simp only [getDbPath, String.toList_append, String.toList_ofList] at texts
    exact List.append_cancel_left (List.append_cancel_right texts)
  · intro same
    rw [getDbPath, getDbPath, same]

end Names

/-! ## Isolation -/

section Isolation

variable {Embedding Similarity : Type}

/-- A chunk of a file below a workspace, as a run found the file. -/
def Run.Cuts (run : Run Embedding) (workspace : String) (chunk : DbChunk Embedding) : Prop :=
  ∃ path ∈ listDirectory workspace run, relative workspace path = chunk.filePath ∧
    chunk.toRawChunk ∈ chunkFile path (run.size path) (run.read path) run.config.chunkStrategy

/-- A chunk that one of the calls for a workspace found below it. -/
def Below (workspace : String) (calls : List (Call Embedding)) (chunk : DbChunk Embedding) :
    Prop :=
  ∃ call ∈ calls, call.workspace = workspace ∧ call.run.Cuts workspace chunk

/-- What a query was answered with. -/
def Caller.replied (caller : Caller Embedding Similarity) :
    List (Entry Embedding Similarity) :=
  match caller.phase with
  | .finished (some answer) => answer.entries
  | _ => []

/-- All calls so far. -/
def World.calls (world : World Embedding Similarity) : List (Call Embedding) :=
  world.callers.map Caller.call

variable (table : Char → Bool) (directory : String) (vectors : Vectors Embedding Similarity)

/-- A workspace keeps its index for itself: no run for the other one is about to read or
to replace it, and its queries are answered with chunks of its own files. -/
structure Isolated (own foreign : String) (world : World Embedding Similarity) : Prop where
  untouched : ∀ caller ∈ world.callers, caller.call.workspace = foreign →
    ∀ access ∈ caller.accesses table directory vectors
        (world.files (caller.call.path table directory)),
      access.path ≠ getDbPath table directory own
  unchanged : ∀ index caller, world.callers[index]? = some caller →
    caller.call.workspace = foreign →
      (world.step table directory vectors (.advance index)).files
          (getDbPath table directory own) =
        world.files (getDbPath table directory own)
  answered : ∀ caller ∈ world.callers, caller.call.workspace = own →
    ∀ entry ∈ caller.replied, Below own world.calls entry.chunk

/-! ### Chunks of a run -/

/-- The chunks in a file. -/
def heldIn (file : Option (VectorDb Embedding)) : List (DbChunk Embedding) :=
  match file with
  | none => []
  | some db => db.chunks

/-- The chunks a run has loaded, or answers with. -/
def Phase.chunks : Phase Embedding Similarity → List (DbChunk Embedding)
  | .opened (.loaded db) => db.chunks
  | .finished (some answer) => answer.entries.map Entry.chunk
  | _ => []

theorem mem_chunks_of_replied {caller : Caller Embedding Similarity}
    {entry : Entry Embedding Similarity} (replied : entry ∈ caller.replied) :
    entry.chunk ∈ caller.phase.chunks := by
  unfold Caller.replied at replied
  split at replied
  · next answer finished =>
      rw [finished]
      exact List.mem_map_of_mem replied
  · cases replied

theorem heldIn_remaining {file : Option (VectorDb Embedding)} {load : VectorIndexLoad Embedding}
    {quarantined : Bool} {chunk : DbChunk Embedding}
    (held : chunk ∈ heldIn (remaining file load quarantined)) : chunk ∈ heldIn file := by
  cases load with
  | missing => exact held
  | loaded db => exact held
  | corrupt =>
      cases quarantined with
      | true => cases held
      | false => exact held

/-- What is loaded is in the file. -/
theorem heldIn_of_loaded {file : Option (VectorDb Embedding)} {run : Run Embedding}
    {db : VectorDb Embedding} (loaded : loadOutcome { index := file } run = .loaded db)
    {chunk : DbChunk Embedding} (held : chunk ∈ db.chunks) : chunk ∈ heldIn file := by
  have found : file = some db := loadOutcome_loaded loaded
  rw [found]
  exact held

theorem mem_fill {length number : Nat} {scored : List (DbChunk Embedding × Similarity)}
    {entry : Entry Embedding Similarity} (member : entry ∈ fill vectors length number scored) :
    ∃ pair ∈ scored, pair.1 = entry.chunk := by
  induction scored generalizing length number with
  | nil => cases member
  | cons pair rest inductionHypothesis =>
      unfold fill at member
      dsimp only at member
      split at member
      · cases member
      · split at member
        · cases member
        · rcases List.mem_cons.mp member with rfl | later
          · exact ⟨pair, List.mem_cons_self, rfl⟩
          · obtain ⟨other, held, same⟩ := inductionHypothesis later
            exact ⟨other, List.mem_cons_of_mem _ held, same⟩

theorem mem_scores {db : VectorDb Embedding} {wanted : Embedding}
    {pair : DbChunk Embedding × Similarity} (member : pair ∈ scores vectors db wanted) :
    pair.1 ∈ db.chunks := by
  rw [scores, List.mem_insertionSort, List.mem_map] at member
  obtain ⟨chunk, filtered, rfl⟩ := member
  exact (List.mem_filter.mp filtered).1

/-- An answer is made of chunks of the index that was loaded for it. -/
theorem mem_answerQuery {load : VectorIndexLoad Embedding} {query : Query}
    {embeds : List Embedding} {entry : Entry Embedding Similarity}
    (member : entry ∈ (answerQuery vectors load query embeds).entries) :
    ∃ db, load = .loaded db ∧ entry.chunk ∈ db.chunks := by
  cases load with
  | missing => cases member
  | corrupt => cases member
  | loaded db =>
      refine ⟨db, rfl, ?_⟩
      unfold answerQuery at member
      dsimp only at member
      split at member
      · cases member
      · cases embeds with
        | nil => cases member
        | cons first others =>
            obtain ⟨pair, taken, same⟩ := mem_fill vectors member
            rw [← same]
            exact mem_scores vectors (List.mem_of_mem_take taken)

/-- A saved index holds what was loaded for it and what the run cut. -/
theorem mem_saves {call : Call Embedding} {load : VectorIndexLoad Embedding}
    {db : VectorDb Embedding} (saved : call.saves vectors load = some db)
    {chunk : DbChunk Embedding} (held : chunk ∈ db.chunks) :
    (∃ old, load = .loaded old ∧ chunk ∈ old.chunks) ∨
      call.run.Cuts call.workspace chunk := by
  cases done : updateIndex call.workspace vectors.normalize call.update load with
  | mk report result =>
      rw [Call.saves, done] at saved
      cases saved
      obtain ⟨base, embedded, opened, embed, _, _, chunks⟩ :=
        updateIndex_saved call.workspace vectors.normalize done
      rw [chunks, List.mem_append] at held
      rcases held with kept | fresh
      · have based : chunk ∈ base.chunks := (List.mem_filter.mp (List.mem_filter.mp kept).1).1
        obtain ⟨_, ⟨_, empty⟩ | ⟨old, loaded, _, _, _, same⟩⟩ :=
          openIndex_cases call.workspace opened
        · rw [empty] at based
          cases based
        · rw [same] at based
          exact .inl ⟨old, loaded, based⟩
      · have new : (chunk.filePath, chunk.toRawChunk) ∈
            newChunks call.workspace call.update (toIndex call.workspace call.update base) := by
          rw [← map_embedChunks vectors.normalize embed]
          exact List.mem_map_of_mem fresh
        obtain ⟨path, indexed, named, cut⟩ := (mem_newChunks call.workspace).mp new
        have listed := (List.mem_filter.mp indexed).1
        right
        cases asked : call.query with
        | none =>
            rw [Call.update, asked] at listed cut
            exact ⟨path, listed, named, cut⟩
        | some query =>
            rw [Call.update, asked] at listed cut
            exact ⟨path, listed, named, cut⟩

theorem Below.mono {workspace : String} {calls more : List (Call Embedding)}
    (grown : ∀ call ∈ calls, call ∈ more) {chunk : DbChunk Embedding}
    (below : Below workspace calls chunk) : Below workspace more chunk := by
  obtain ⟨call, member, same, cut⟩ := below
  exact ⟨call, grown call member, same, cut⟩

/-- An operation of a run leaves only chunks of its workspace in the file and in the run,
when there were no others. -/
theorem advance_below {calls : List (Call Embedding)} {caller : Caller Embedding Similarity}
    (member : caller.call ∈ calls) {file : Option (VectorDb Embedding)}
    (inFile : ∀ chunk ∈ heldIn file, Below caller.call.workspace calls chunk)
    (inRun : ∀ chunk ∈ caller.phase.chunks, Below caller.call.workspace calls chunk) :
    (∀ chunk ∈ heldIn (caller.advance vectors file).1,
        Below caller.call.workspace calls chunk) ∧
      ∀ chunk ∈ (caller.advance vectors file).2.chunks,
        Below caller.call.workspace calls chunk := by
  obtain ⟨call, phase⟩ := caller
  cases phase with
  | opening =>
      unfold Caller.advance
      dsimp only
      split
      · exact ⟨inFile, fun _ held => by cases held⟩
      · refine ⟨fun chunk held => inFile chunk (heldIn_remaining held), ?_⟩
        intro chunk held
        cases load : call.load file with
        | missing => rw [load] at held; cases held
        | corrupt => rw [load] at held; cases held
        | loaded db =>
            rw [load] at held
            exact inFile chunk (heldIn_of_loaded load held)
  | opened load =>
      unfold Caller.advance
      dsimp only
      cases saved : call.saves vectors load with
      | none => exact ⟨inFile, fun _ held => by cases held⟩
      | some db =>
          refine ⟨?_, fun _ held => by cases held⟩
          intro chunk held
          obtain ⟨old, rfl, loaded⟩ | cut := mem_saves vectors saved held
          · exact inRun chunk loaded
          · exact ⟨call, member, rfl, cut⟩
  | updated =>
      unfold Caller.advance
      dsimp only
      cases asked : call.query with
      | none => exact ⟨inFile, fun _ held => by cases held⟩
      | some query =>
          refine ⟨fun chunk held => inFile chunk (heldIn_remaining held), ?_⟩
          intro chunk held
          obtain ⟨entry, answered, rfl⟩ := List.mem_map.mp held
          obtain ⟨db, loaded, found⟩ := mem_answerQuery vectors answered
          exact inFile _ (heldIn_of_loaded loaded found)
  | finished answer => exact ⟨inFile, inRun⟩

/-! ### Two workspaces -/

theorem mem_loadAccesses {path : String} {load : VectorIndexLoad Embedding} {quarantined : Bool}
    {access : Access} (member : access ∈ loadAccesses path load quarantined) :
    access.path = path := by
  cases load with
  | missing => cases member
  | loaded db =>
      obtain rfl := List.mem_singleton.mp member
      rfl
  | corrupt =>
      cases quarantined with
      | true =>
          rcases List.mem_cons.mp member with rfl | other
          · rfl
          · obtain rfl := List.mem_singleton.mp other
            rfl
      | false =>
          obtain rfl := List.mem_singleton.mp member
          rfl

/-- A run works on the file of its workspace only. -/
theorem mem_accesses {caller : Caller Embedding Similarity} {file : Option (VectorDb Embedding)}
    {access : Access} (member : access ∈ caller.accesses table directory vectors file) :
    access.path = caller.call.path table directory := by
  unfold Caller.accesses at member
  dsimp only at member
  split at member
  · split at member
    · cases member
    · exact mem_loadAccesses member
  · split at member
    · obtain rfl := List.mem_singleton.mp member
      rfl
    · cases member
  · split at member
    · cases member
    · exact mem_loadAccesses member
  · cases member

theorem step_advance {world : World Embedding Similarity} {index : Nat}
    {caller : Caller Embedding Similarity} (found : world.callers[index]? = some caller) :
    world.step table directory vectors (.advance index) =
      { files := Function.update world.files (caller.call.path table directory)
          (caller.advance vectors (world.files (caller.call.path table directory))).1
        callers := world.callers.set index { caller with
          phase := (caller.advance vectors
            (world.files (caller.call.path table directory))).2 } } := by
  rw [World.step, found]

/-- Going on starts no run. -/
theorem calls_advance (world : World Embedding Similarity) (index : Nat) :
    (world.step table directory vectors (.advance index)).calls = world.calls := by
  cases found : world.callers[index]? with
  | none => rw [World.step, found]
  | some caller =>
      obtain ⟨inRange, same⟩ := List.getElem?_eq_some_iff.mp found
      rw [step_advance table directory vectors found, World.calls, World.calls, List.map_set]
      have mapped : index < (world.callers.map Caller.call).length := by simpa using inRange
      have unchanged := List.set_getElem_self mapped
      rw [List.getElem_map, same] at unchanged
      exact unchanged

/-- Two workspaces that run side by side, the chunks of one kept to its own file and its
own runs. -/
structure Separate (own foreign : String) (world : World Embedding Similarity) : Prop where
  workspaces : ∀ caller ∈ world.callers,
    caller.call.workspace = own ∨ caller.call.workspace = foreign
  file : ∀ chunk ∈ heldIn (world.files (getDbPath table directory own)),
    Below own world.calls chunk
  runs : ∀ caller ∈ world.callers, caller.call.workspace = own →
    ∀ chunk ∈ caller.phase.chunks, Below own world.calls chunk

section Apart

variable {own foreign : String} {world : World Embedding Similarity}

theorem separate_start (separate : Separate table directory own foreign world)
    {call : Call Embedding} (either : call.workspace = own ∨ call.workspace = foreign) :
    Separate table directory own foreign
      (world.step table directory vectors (.start call)) := by
  have grown : ∀ earlier ∈ world.calls,
      earlier ∈ (world.step table directory vectors (.start call)).calls := by
    intro earlier member
    simp only [World.calls, World.step, List.map_append, List.mem_append]
    exact .inl member
  constructor
  · intro caller member
    rcases List.mem_append.mp member with earlier | new
    · exact separate.workspaces caller earlier
    · obtain rfl := List.mem_singleton.mp new
      exact either
  · intro chunk held
    exact (separate.file chunk held).mono grown
  · intro caller member same chunk held
    rcases List.mem_append.mp member with earlier | new
    · exact (separate.runs caller earlier same chunk held).mono grown
    · obtain rfl := List.mem_singleton.mp new
      cases held

theorem separate_advance
    (apart : getDbPath table directory own ≠ getDbPath table directory foreign)
    (separate : Separate table directory own foreign world) (index : Nat) :
    Separate table directory own foreign
      (world.step table directory vectors (.advance index)) := by
  have calls := calls_advance table directory vectors world index
  cases found : world.callers[index]? with
  | none =>
      rw [World.step, found]
      exact separate
  | some caller =>
      have member := List.mem_of_getElem? found
      have called : caller.call ∈ world.calls := List.mem_map_of_mem member
      have mine : caller.call.workspace = own →
          (∀ chunk ∈ heldIn (caller.advance vectors
              (world.files (getDbPath table directory own))).1, Below own world.calls chunk) ∧
            ∀ chunk ∈ (caller.advance vectors
              (world.files (getDbPath table directory own))).2.chunks,
                Below own world.calls chunk := by
        rintro rfl
        exact advance_below vectors called separate.file (separate.runs caller member rfl)
      rw [step_advance table directory vectors found] at calls ⊢
      constructor
      · intro other held
        rcases List.mem_or_eq_of_mem_set held with earlier | rfl
        · exact separate.workspaces other earlier
        · exact separate.workspaces caller member
      · rw [calls]
        rcases separate.workspaces caller member with same | other
        · dsimp only
          rw [Call.path, same, Function.update_self]
          exact (mine same).1
        · dsimp only
          rw [Call.path, other, Function.update_of_ne apart]
          exact separate.file
      · rw [calls]
        intro other held same
        rcases List.mem_or_eq_of_mem_set held with earlier | rfl
        · exact separate.runs other earlier same
        · rw [Call.path, same]
          exact (mine same).2

/-- Two files are enough for isolation. -/
theorem isolated_of_separate
    (apart : getDbPath table directory own ≠ getDbPath table directory foreign)
    (separate : Separate table directory own foreign world) :
    Isolated table directory vectors own foreign world := by
  constructor
  · intro caller member other access accessed
    rw [mem_accesses table directory vectors accessed, Call.path, other]
    exact apart.symm
  · intro index caller found other
    rw [step_advance table directory vectors found, Call.path, other]
    exact Function.update_of_ne apart _ _
  · intro caller member same entry replied
    exact separate.runs caller member same entry.chunk (mem_chunks_of_replied replied)

theorem separate_empty :
    Separate table directory own foreign ({} : World Embedding Similarity) := by
  constructor
  · intro caller member
    cases member
  · intro chunk held
    cases held
  · intro caller member
    cases member

theorem separate_run
    (apart : getDbPath table directory own ≠ getDbPath table directory foreign)
    (events : List (Event Embedding))
    (either : ∀ call, Event.start call ∈ events →
      call.workspace = own ∨ call.workspace = foreign) :
    Separate table directory own foreign
      (Machine.run (World.step table directory vectors) {} events) := by
  refine Machine.run_invariant _ (Separate table directory own foreign)
    (fun _ event => ∀ call, event = .start call →
      call.workspace = own ∨ call.workspace = foreign) ?_ {} events
    (separate_empty table directory) ?_
  · intro state event separate admitted
    cases event with
    | start call => exact separate_start table directory vectors separate (admitted call rfl)
    | advance index => exact separate_advance table directory vectors apart separate index
  · intro pair visited call started
    obtain ⟨before, after, split, _⟩ := (Machine.mem_visited_iff _ _ _ _).mp visited
    exact either call (by simp [split, started])

end Apart

/-! ### One file for two workspaces -/

/-- A run that finds one file it cannot read. -/
def unreadable : Run Embedding where
  files := ["a.rs"]
  inside := by decide
  modified := fun _ => 0
  size := fun _ => 0
  read := fun _ => none
  config := {
    embeddingProvider := "ollama"
    activeProvider := "ollama"
    ollamaUrl := "local"
    embeddingModel := "nomic"
    chunkStrategy := "syntactic" }
  fetchEmbeddings := fun _ => []

/-- The index it saves. -/
def unreadIndex (workspace : String) : VectorDb Embedding where
  workspacePath := workspace
  embeddingSource := embeddingSource (unreadable : Run Embedding).config
  files := [registryEntry workspace (unreadable : Run Embedding) (absolute workspace "a.rs")]

/-- One workspace is indexed, then a run for the other one starts. -/
def colliding (own foreign : String) : List (Event Embedding) :=
  [.start ⟨own, unreadable, none⟩, .advance 0, .advance 0, .start ⟨foreign, unreadable, none⟩]

theorem run_colliding (own foreign : String) :
    Machine.run (World.step table directory vectors) {} (colliding own foreign) =
      { files := Function.update (Function.update (fun _ => none)
          (getDbPath table directory own) none) (getDbPath table directory own)
            (some (unreadIndex own))
        callers := [⟨⟨own, unreadable, none⟩, .updated⟩,
          ⟨⟨foreign, unreadable, none⟩, .opening⟩] } := rfl

/-- With one file for both, a run for the other workspace is about to read the index. -/
theorem not_isolated_of_same {own foreign : String}
    (same : getDbPath table directory own = getDbPath table directory foreign) :
    ¬ Isolated table directory vectors own foreign
      (Machine.run (World.step table directory vectors) {} (colliding own foreign)) := by
  intro isolated
  rw [run_colliding] at isolated
  refine isolated.untouched ⟨⟨foreign, unreadable, none⟩, .opening⟩ (by simp) rfl
    (.read (getDbPath table directory foreign)) ?_ same.symm
  dsimp only [Call.path]
  rw [← same, Function.update_self]
  exact List.mem_singleton.mpr (by rw [same]; rfl)

/-- Workspaces keep their indexes apart, in every interleaving of runs for the two,
exactly when their paths differ in a letter, a digit or the length. -/
theorem workspaces_isolated_iff (own foreign : String) :
    (∀ events : List (Event Embedding),
        (∀ call, Event.start call ∈ events → call.workspace = own ∨ call.workspace = foreign) →
          Isolated table directory vectors own foreign
            (Machine.run (World.step table directory vectors) {} events)) ↔
      ¬ SameName table own foreign := by
  have names : getDbPath table directory own = getDbPath table directory foreign ↔
      SameName table own foreign := getDbPath_eq_iff table
  rw [← names]
  constructor
  · intro isolated same
    refine not_isolated_of_same table directory vectors same (isolated _ ?_)
    intro call started
    simp only [colliding, List.mem_cons, Event.start.injEq, reduceCtorEq, List.not_mem_nil,
      or_false, false_or] at started
    rcases started with rfl | rfl
    · exact .inl rfl
    · exact .inr rfl
  · intro apart events either
    exact isolated_of_separate table directory vectors apart
      (separate_run table directory vectors apart events either)

end Isolation

/-! ### A leak -/

/-- Embeddings that are all the one vector of length one. -/
def oneVector : Vectors Unit Unit where
  length := fun _ => 1
  normalize := id
  cosine := fun _ _ => ()
  partialCmp := fun _ _ => some .eq
  weak := fun _ => false
  twoPlaces := fun _ => "1.00"

/-- One workspace is indexed, then the other one, which has no files, is asked. -/
def leaking : List (Event Unit) :=
  [.start ⟨"/a_b", lineRun ["secret.rs"] (by decide), none⟩, .advance 0, .advance 0,
    .start ⟨"/a/b", lineRun [] (by decide), some { text := "x" }⟩, .advance 1, .advance 1,
    .advance 1]

/-- The calls and answers behind them. -/
def leaked : World Unit Unit :=
  Machine.run (World.step (fun _ => false) "/vector_dbs" oneVector) {} leaking

example : leaked.callers.map (fun caller => caller.replied.map (Entry.text oneVector)) =
    [[], ["--- Chunk 1 from 'secret.rs' (Lines 1-1, Sim: 1.00) ---\nx\n\n"]] := by
  decide +kernel

/-- A workspace without a file is answered with a file of another one. -/
theorem other_workspace_answers :
    ¬ ∀ own foreign : String, startsWith own "/" = true → startsWith foreign "/" = true →
      own ≠ foreign → ∀ events : List (Event Unit),
        (∀ call, Event.start call ∈ events → call.workspace = own ∨ call.workspace = foreign) →
          Isolated (fun _ => false) "/vector_dbs" oneVector own foreign
            (Machine.run (World.step (fun _ => false) "/vector_dbs" oneVector) {} events) := by
  intro apart
  have isolated : Isolated (fun _ => false) "/vector_dbs" oneVector "/a/b" "/a_b" leaked := by
    refine apart "/a/b" "/a_b" (by decide) (by decide) (by decide) leaking ?_
    intro call started
    simp only [leaking, List.mem_cons, Event.start.injEq, reduceCtorEq, List.not_mem_nil,
      or_false, false_or] at started
    rcases started with rfl | rfl
    · exact .inr rfl
    · exact .inl rfl
  have replies : leaked.callers.flatMap (fun caller =>
      caller.replied.map fun entry => (caller.call.workspace, entry.chunk.filePath)) =
        [("/a/b", "secret.rs")] := by
    decide +kernel
  have lists : leaked.calls.map (fun call => (call.workspace, call.run.files)) =
      [("/a_b", ["secret.rs"]), ("/a/b", [])] := by
    decide +kernel
  obtain ⟨caller, member, reply⟩ := List.mem_flatMap.mp (replies ▸ List.mem_cons_self)
  obtain ⟨entry, replied, same⟩ := List.mem_map.mp reply
  obtain ⟨call, called, workspace, path, listed, _⟩ :=
    isolated.answered caller member (Prod.mk.inj same).1 entry replied
  have found := List.mem_map_of_mem (f := fun call : Call Unit => (call.workspace, call.run.files))
    called
  rw [lists, workspace] at found
  have noFiles : call.run.files = [] := by simpa using found
  rw [listDirectory, noFiles] at listed
  exact List.not_mem_nil listed

end SystemPilot.Codebase
