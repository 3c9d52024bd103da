import SystemPilot.Codebase.Index

/-!
# Incremental indexing and rebuilding

An index holds, for each of its files, the chunks of the contents the file had
when it was indexed, under the strategy of that time.  A run that reports success
leaves what a rebuild would leave exactly when the kept files chunk alike under
the strategy of now and, where it found nothing to chunk, the persisted index
names no file that is gone.
-/

set_option autoImplicit false

namespace SystemPilot.Codebase

open SystemPilot.Library
open SystemPilot.Text

section Incremental

variable {Embedding : Type} (workspace : String) (normalize : Embedding → Embedding)
variable (content : String → Nat → Nat → Option String)

/-- What a file holds is determined by its path, modification time and size. -/
def Run.Stable (run : Run Embedding) : Prop :=
  ∀ path, run.read path = content path (run.modified path) (run.size path)

/-- The chunks of a file under a strategy. -/
def fileChunks (entry : FileRegistry) (strategy : String) : List RawChunk :=
  let path := absolute workspace entry.filePath
  chunkFile path entry.size (content path entry.lastModified entry.size) strategy

/-- The entry of a listed file as a rebuild would make it. -/
def currentEntry (run : Run Embedding) (file : String) : FileRegistry where
  filePath := file
  lastModified := run.modified (absolute workspace file)
  size := run.size (absolute workspace file)

/-- The index holds a chunk of a file. -/
def VectorDb.HoldsChunk (db : VectorDb Embedding) (file : String) (raw : RawChunk) : Prop :=
  ∃ chunk ∈ db.chunks, chunk.filePath = file ∧ chunk.toRawChunk = raw

/-! ## Paths -/

theorem relative_absolute {file : String} (inside : file.toList.head? ≠ some '/') :
    relative workspace (absolute workspace file) = file := by
  have started : startsWith (absolute workspace file) workspace = true := by
    simp [startsWith, absolute]
  have rest : (absolute workspace file).toList.drop workspace.toList.length =
      '/' :: file.toList := by
    simp [absolute]
  unfold relative
  simp only [started, if_true, rest, List.dropWhile_cons, beq_self_eq_true]
  cases shape : file.toList with
  | nil =>
      rw [List.dropWhile_nil, ← shape, String.ofList_toList]
  | cons first others =>
      have apart : (first == '/') = false := by
        rw [beq_eq_false_iff_ne]
        rintro rfl
        exact inside (by rw [shape]; rfl)
      rw [List.dropWhile_cons, apart, if_neg (by simp), ← shape, String.ofList_toList]

theorem mem_listDirectory {run : Run Embedding} {path : String}
    (listed : path ∈ listDirectory workspace run) :
    ∃ file ∈ run.files, path = absolute workspace file ∧ relative workspace path = file := by
  obtain ⟨file, member, rfl⟩ := List.mem_map.mp listed
  exact ⟨file, member, rfl, relative_absolute workspace (run.inside file member)⟩

theorem registryEntry_absolute {run : Run Embedding} {file : String} (member : file ∈ run.files) :
    registryEntry workspace run (absolute workspace file) = currentEntry workspace run file := by
  rw [registryEntry, relative_absolute workspace (run.inside file member)]
  rfl

/-! ## The registry -/

/-- No path has two entries. -/
def VectorDb.UniqueFiles (db : VectorDb Embedding) : Prop :=
  ∀ first ∈ db.files, ∀ second ∈ db.files, first.filePath = second.filePath → first = second

theorem registered_iff {db : VectorDb Embedding} (unique : db.UniqueFiles) (file : String)
    (entry : FileRegistry) :
    registered db file = some entry ↔ entry ∈ db.files ∧ entry.filePath = file := by
  constructor
  · intro found
    have member := List.mem_of_find?_eq_some found
    have named := List.find?_some found
    exact ⟨List.mem_reverse.mp member, by simpa using named⟩
  · rintro ⟨member, rfl⟩
    cases found : registered db entry.filePath with
    | none =>
        have absent := List.find?_eq_none.mp found entry (List.mem_reverse.mpr member)
        simp at absent
    | some other =>
        have otherMember := List.mem_reverse.mp (List.mem_of_find?_eq_some found)
        have named := List.find?_some found
        rw [unique other otherMember entry member (by simpa using named)]

/-- A listed file is indexed unless its entry is the one a rebuild would make. -/
theorem mem_toIndex_iff {db : VectorDb Embedding} (unique : db.UniqueFiles)
    {run : Run Embedding} {file : String} (member : file ∈ run.files) :
    absolute workspace file ∈ toIndex workspace run db ↔
      currentEntry workspace run file ∉ db.files := by
  have listed : absolute workspace file ∈ listDirectory workspace run :=
    List.mem_map_of_mem member
  have named := relative_absolute workspace (run.inside file member)
  rw [toIndex, List.mem_filter, named]
  simp only [listed, true_and]
  constructor
  · intro changed current
    rw [(registered_iff unique file _).mpr ⟨current, rfl⟩] at changed
    simp [currentEntry] at changed
  · intro absent
    cases found : registered db file with
    | none => rfl
    | some entry =>
        obtain ⟨held, path⟩ := (registered_iff unique file entry).mp found
        simp only [Bool.or_eq_true, bne_iff_ne]
        by_contra neither
        rw [not_or, not_not, not_not] at neither
        obtain ⟨entryPath, entryTime, entrySize⟩ := entry
        obtain ⟨time, size⟩ := neither
        simp only at path time size
        subst path time size
        exact absent held

/-! ## Opening -/

/-- A run starts from nothing, or from the files and chunks of the persisted index
when that has the embedding source of the run. -/
theorem openIndex_cases {run : Run Embedding} {load : VectorIndexLoad Embedding}
    {db : VectorDb Embedding} (opened : openIndex workspace run load = some db) :
    db.embeddingSource = embeddingSource run.config ∧
      ((db.files = [] ∧ db.chunks = []) ∨
        ∃ old, load = .loaded old ∧ run.force = false ∧
          (old.embeddingSource = "" ∨ old.embeddingSource = embeddingSource run.config) ∧
          db.files = old.files ∧ db.chunks = old.chunks) := by
  obtain ⟨base, based, rfl⟩ := Option.map_eq_some_iff.mp opened
  refine ⟨rfl, ?_⟩
  by_cases force : run.force = true
  · rw [if_pos force] at based
    cases based
    exact .inl ⟨rfl, rfl⟩
  · rw [if_neg force] at based
    cases load with
    | missing =>
        cases based
        exact .inl ⟨rfl, rfl⟩
    | corrupt => cases based
    | loaded old =>
        obtain rfl : old = base := Option.some.inj based
        by_cases usable : old.embeddingSource ≠ "" ∧
            old.embeddingSource ≠ embeddingSource run.config
        · rw [if_pos usable]
          exact .inl ⟨rfl, rfl⟩
        · rw [if_neg usable]
          refine .inr ⟨old, rfl, by simpa using force, ?_, rfl, rfl⟩
          rw [not_and_or, not_not, not_not] at usable
          exact usable

/-! ## New chunks -/

theorem mem_newChunks {run : Run Embedding} {paths : List String} {file : String}
    {raw : RawChunk} :
    (file, raw) ∈ newChunks workspace run paths ↔
      ∃ path ∈ paths, relative workspace path = file ∧
        raw ∈ chunkFile path (run.size path) (run.read path) run.config.chunkStrategy := by
  simp only [newChunks, List.mem_flatMap, List.mem_map, Prod.mk.injEq]
  constructor
  · rintro ⟨path, member, chunk, held, named, rfl⟩
    exact ⟨path, member, named, held⟩
  · rintro ⟨path, member, named, held⟩
    exact ⟨path, member, raw, held, named, rfl⟩

theorem map_zipWith_chunks (chunks : List (String × RawChunk)) (embeddings : List Embedding)
    (lengths : embeddings.length = chunks.length) :
    (List.zipWith (fun chunk embedding => ({
      chunk.2 with
      filePath := chunk.1
      embedding := normalize embedding } : DbChunk Embedding)) chunks embeddings).map
        (fun chunk => (chunk.filePath, chunk.toRawChunk)) = chunks := by
  induction chunks generalizing embeddings with
  | nil => rfl
  | cons chunk rest inductionHypothesis =>
      cases embeddings with
      | nil => contradiction
      | cons embedding others =>
          rw [List.zipWith_cons_cons, List.map_cons,
            inductionHypothesis others (Nat.succ.inj lengths)]

/-- The embedded chunks are the new chunks. -/
theorem map_embedChunks {run : Run Embedding} {chunks : List (String × RawChunk)}
    {embedded : List (DbChunk Embedding)}
    (done : embedChunks normalize run chunks = some embedded) :
    embedded.map (fun chunk => (chunk.filePath, chunk.toRawChunk)) = chunks := by
  unfold embedChunks at done
  dsimp only at done
  split at done
  · rename_i empty
    cases done
    exact (List.isEmpty_iff.mp empty).symm
  · split at done
    · rename_i lengths
      cases done
      exact map_zipWith_chunks normalize chunks _ lengths
    · cases done

/-! ## What a run saves -/

/-- The entries are those of the files of some time, and the chunks are those of the
entries, each under the strategy its file was chunked with. -/
structure VectorDb.Held (chunkedWith : String → String) (db : VectorDb Embedding) : Prop where
  unique : db.UniqueFiles
  entered : ∀ chunk ∈ db.chunks, ∃ entry ∈ db.files, entry.filePath = chunk.filePath
  chunked : ∀ entry ∈ db.files, ∀ raw, db.HoldsChunk entry.filePath raw ↔
    raw ∈ fileChunks workspace content entry (chunkedWith entry.filePath)

/-- The index has the listed files and their chunks, each under its own strategy. -/
structure VectorDb.Mirrors (run : Run Embedding) (chunkedWith : String → String)
    (db : VectorDb Embedding) : Prop where
  files : ∀ entry, entry ∈ db.files ↔ ∃ file ∈ run.files, entry = currentEntry workspace run file
  chunks : ∀ file raw, db.HoldsChunk file raw ↔ file ∈ run.files ∧
    raw ∈ fileChunks workspace content (currentEntry workspace run file) (chunkedWith file)

theorem VectorDb.Mirrors.held {run : Run Embedding} {chunkedWith : String → String}
    {db : VectorDb Embedding} (mirrors : db.Mirrors workspace content run chunkedWith) :
    db.Held workspace content chunkedWith where
  unique := by
    intro first firstHeld second secondHeld same
    obtain ⟨file, _, rfl⟩ := (mirrors.files first).mp firstHeld
    obtain ⟨other, _, rfl⟩ := (mirrors.files second).mp secondHeld
    obtain rfl : file = other := same
    rfl
  entered := by
    intro chunk held
    obtain ⟨member, _⟩ := (mirrors.chunks chunk.filePath chunk.toRawChunk).mp
      ⟨chunk, held, rfl, rfl⟩
    exact ⟨_, (mirrors.files _).mpr ⟨_, member, rfl⟩, rfl⟩
  chunked := by
    intro entry held raw
    obtain ⟨file, member, rfl⟩ := (mirrors.files entry).mp held
    rw [mirrors.chunks]
    exact and_iff_right member

/-- What an index holds depends on its files and chunks only. -/
theorem VectorDb.Held.of_same {chunkedWith : String → String} {old db : VectorDb Embedding}
    (held : old.Held workspace content chunkedWith) (files : db.files = old.files)
    (chunks : db.chunks = old.chunks) : db.Held workspace content chunkedWith where
  unique := by
    rw [VectorDb.UniqueFiles, files]
    exact held.unique
  entered := by
    rw [files, chunks]
    exact held.entered
  chunked := by
    simp only [VectorDb.HoldsChunk, files, chunks]
    exact held.chunked

theorem VectorDb.Held.of_empty {chunkedWith : String → String} {db : VectorDb Embedding}
    (files : db.files = []) (chunks : db.chunks = []) :
    db.Held workspace content chunkedWith where
  unique := by
    intro first member
    rw [files] at member
    cases member
  entered := by
    intro chunk member
    rw [chunks] at member
    cases member
  chunked := by
    intro entry member
    rw [files] at member
    cases member

/-- The strategies of the files once a run has saved. -/
def chunkedAfter (run : Run Embedding) (db : VectorDb Embedding) (chunkedWith : String → String)
    (file : String) : String :=
  if ((toIndex workspace run db).map (relative workspace)).contains file then
    run.config.chunkStrategy
  else chunkedWith file

theorem mem_indexed_iff {run : Run Embedding} {db : VectorDb Embedding} {file : String} :
    file ∈ (toIndex workspace run db).map (relative workspace) ↔
      file ∈ run.files ∧ absolute workspace file ∈ toIndex workspace run db := by
  rw [List.mem_map]
  constructor
  · rintro ⟨path, indexed, named⟩
    obtain ⟨other, member, rfl, rest⟩ :=
      mem_listDirectory workspace (List.mem_filter.mp indexed).1
    obtain rfl : other = file := rest.symm.trans named
    exact ⟨member, indexed⟩
  · rintro ⟨member, indexed⟩
    exact ⟨_, indexed, relative_absolute workspace (run.inside file member)⟩

theorem mem_active_iff {run : Run Embedding} {file : String} :
    file ∈ (listDirectory workspace run).map (relative workspace) ↔ file ∈ run.files := by
  rw [List.mem_map]
  constructor
  · rintro ⟨path, listed, named⟩
    obtain ⟨other, member, rfl, rest⟩ := mem_listDirectory workspace listed
    obtain rfl : other = file := rest.symm.trans named
    exact member
  · intro member
    exact ⟨_, List.mem_map_of_mem member, relative_absolute workspace (run.inside file member)⟩

/-- A path to index is that of the listed file it is named by. -/
theorem toIndex_path {run : Run Embedding} {db : VectorDb Embedding} {path file : String}
    (indexed : path ∈ toIndex workspace run db) (named : relative workspace path = file) :
    file ∈ run.files ∧ path = absolute workspace file := by
  obtain ⟨other, member, rfl, rest⟩ :=
    mem_listDirectory workspace (List.mem_filter.mp indexed).1
  obtain rfl : other = file := rest.symm.trans named
  exact ⟨member, rfl⟩

/-- The files and chunks a run keeps: of listed files that are not indexed again. -/
def keptIndex (run : Run Embedding) (db : VectorDb Embedding) : VectorDb Embedding :=
  (db.retain fun file =>
    ((listDirectory workspace run).map (relative workspace)).contains file).retain fun file =>
      !((toIndex workspace run db).map (relative workspace)).contains file

/-- What a run puts into place, in terms of the index it opened. -/
theorem updateIndex_saved {run : Run Embedding} {load : VectorIndexLoad Embedding}
    {report : Bool} {saved : VectorDb Embedding}
    (done : updateIndex workspace normalize run load = (report, some saved)) :
    ∃ db embedded, openIndex workspace run load = some db ∧
      embedChunks normalize run (newChunks workspace run (toIndex workspace run db)) =
        some embedded ∧
      saved.embeddingSource = db.embeddingSource ∧
      saved.files = (keptIndex workspace run db).files ++ (toIndex workspace run db).map (registryEntry workspace run) ∧
      saved.chunks = (keptIndex workspace run db).chunks ++ embedded := by
  unfold updateIndex at done
  cases opened : openIndex workspace run load with
  | none =>
      rw [opened] at done
      cases done
  | some db =>
      rw [opened] at done
      dsimp only at done
      split at done
      · cases done
      · cases embed : embedChunks normalize run
            (newChunks workspace run (toIndex workspace run db)) with
        | none =>
            rw [embed] at done
            cases done
        | some embedded =>
            rw [embed] at done
            refine ⟨db, embedded, rfl, embed, ?_⟩
            cases save : run.save with
            | saved =>
                rw [save] at done
                cases done
                exact ⟨rfl, rfl, rfl⟩
            | failed renamed =>
                rw [save] at done
                cases renamed with
                | false => cases done
                | true =>
                    cases done
                    exact ⟨rfl, rfl, rfl⟩

theorem mem_retain_chunks {db : VectorDb Embedding} {keep : String → Bool} {file : String}
    {raw : RawChunk} :
    (db.retain keep).HoldsChunk file raw ↔ keep file = true ∧ db.HoldsChunk file raw := by
  constructor
  · rintro ⟨chunk, member, rfl, rfl⟩
    obtain ⟨held, kept⟩ := List.mem_filter.mp member
    exact ⟨kept, chunk, held, rfl, rfl⟩
  · rintro ⟨kept, chunk, held, rfl, rfl⟩
    exact ⟨chunk, List.mem_filter.mpr ⟨held, kept⟩, rfl, rfl⟩

/-- What a run puts into place mirrors its files. -/
theorem mirrors_of_saved {run : Run Embedding} (stable : run.Stable content)
    {chunkedWith : String → String} {db saved : VectorDb Embedding}
    {embedded : List (DbChunk Embedding)} (held : db.Held workspace content chunkedWith)
    (embed : embedChunks normalize run (newChunks workspace run (toIndex workspace run db)) =
      some embedded)
    (files : saved.files = (keptIndex workspace run db).files ++ (toIndex workspace run db).map (registryEntry workspace run))
    (chunks : saved.chunks = (keptIndex workspace run db).chunks ++ embedded) :
    saved.Mirrors workspace content run (chunkedAfter workspace run db chunkedWith) where
  files := by
    intro entry
    rw [files, List.mem_append]
    simp only [keptIndex, VectorDb.retain, List.mem_filter, List.contains_iff_mem, Bool.not_eq_true',
      List.mem_map]
    constructor
    · rintro (⟨⟨old, listed⟩, unchanged⟩ | ⟨path, indexed, rfl⟩)
      · have member := (mem_active_iff workspace).mp (List.mem_map.mpr listed)
        refine ⟨entry.filePath, member, ?_⟩
        have current : currentEntry workspace run entry.filePath ∈ db.files := by
          by_contra absent
          have indexed := (mem_indexed_iff workspace).mpr
            ⟨member, (mem_toIndex_iff workspace held.unique member).mpr absent⟩
          rw [← List.contains_iff_mem, unchanged] at indexed
          cases indexed
        exact held.unique entry old _ current rfl
      · obtain ⟨file, member, rfl, _⟩ :=
          mem_listDirectory workspace (List.mem_filter.mp indexed).1
        exact ⟨file, member, registryEntry_absolute workspace member⟩
    · rintro ⟨file, member, rfl⟩
      by_cases indexed : absolute workspace file ∈ toIndex workspace run db
      · exact .inr ⟨_, indexed, registryEntry_absolute workspace member⟩
      · refine .inl ⟨⟨?_, List.mem_map.mp ((mem_active_iff workspace).mpr member)⟩, ?_⟩
        · by_contra absent
          exact indexed ((mem_toIndex_iff workspace held.unique member).mpr absent)
        · rw [← Bool.not_eq_true, List.contains_iff_mem, mem_indexed_iff]
          exact fun both => indexed both.2
  chunks := by
    intro file raw
    have split : saved.HoldsChunk file raw ↔
        (keptIndex workspace run db).HoldsChunk file raw ∨
          (file, raw) ∈ newChunks workspace run (toIndex workspace run db) := by
      rw [← map_embedChunks normalize embed, List.mem_map]
      simp only [VectorDb.HoldsChunk, chunks, List.mem_append, Prod.mk.injEq, or_and_right,
        exists_or]
    rw [split, keptIndex, mem_retain_chunks, mem_retain_chunks, mem_newChunks, List.contains_iff_mem,
      mem_active_iff, Bool.not_eq_true', ← Bool.not_eq_true, List.contains_iff_mem,
      mem_indexed_iff]
    have reading : ∀ path, chunkFile path (run.size path) (run.read path) =
        chunkFile path (run.size path) (content path (run.modified path) (run.size path)) :=
      fun path => by rw [stable path]
    by_cases member : file ∈ run.files
    · by_cases indexed : absolute workspace file ∈ toIndex workspace run db
      · have strategy : chunkedAfter workspace run db chunkedWith file =
            run.config.chunkStrategy := by
          rw [chunkedAfter, if_pos]
          exact List.contains_iff_mem.mpr ((mem_indexed_iff workspace).mpr ⟨member, indexed⟩)
        rw [strategy]
        constructor
        · rintro (⟨unindexed, _⟩ | ⟨path, pathIndexed, named, chunked⟩)
          · exact absurd ⟨member, indexed⟩ unindexed
          · obtain ⟨_, rfl⟩ := toIndex_path workspace pathIndexed named
            rw [reading] at chunked
            exact ⟨member, chunked⟩
        · rintro ⟨_, chunked⟩
          refine .inr ⟨_, indexed, relative_absolute workspace (run.inside file member), ?_⟩
          rw [reading]
          exact chunked
      · have current : currentEntry workspace run file ∈ db.files := by
          by_contra absent
          exact indexed ((mem_toIndex_iff workspace held.unique member).mpr absent)
        have strategy : chunkedAfter workspace run db chunkedWith file = chunkedWith file := by
          rw [chunkedAfter, if_neg]
          rw [List.contains_iff_mem, mem_indexed_iff]
          exact fun both => indexed both.2
        have before : db.HoldsChunk file raw ↔ _ := held.chunked _ current raw
        rw [strategy, before]
        constructor
        · rintro (⟨_, _, chunked⟩ | ⟨path, pathIndexed, named, _⟩)
          · exact ⟨member, chunked⟩
          · obtain ⟨_, rfl⟩ := toIndex_path workspace pathIndexed named
            exact absurd pathIndexed indexed
        · rintro ⟨_, chunked⟩
          exact .inl ⟨fun both => indexed both.2, member, chunked⟩
    · constructor
      · rintro (⟨_, listed, _⟩ | ⟨path, pathIndexed, named, _⟩)
        · exact absurd listed member
        · exact absurd (toIndex_path workspace pathIndexed named).1 member
      · rintro ⟨listed, _⟩
        exact absurd listed member

/-- A run that reports success and saves nothing found nothing to index. -/
theorem updateIndex_unsaved {run : Run Embedding} {load : VectorIndexLoad Embedding}
    (done : updateIndex workspace normalize run load = (true, none)) :
    ∃ db, openIndex workspace run load = some db ∧ toIndex workspace run db = [] := by
  unfold updateIndex at done
  cases opened : openIndex workspace run load with
  | none =>
      rw [opened] at done
      cases done
  | some db =>
      rw [opened] at done
      dsimp only at done
      split at done
      · rename_i nothing
        exact ⟨db, rfl, List.isEmpty_iff.mp nothing⟩
      · cases embed : embedChunks normalize run
            (newChunks workspace run (toIndex workspace run db)) with
        | none =>
            rw [embed] at done
            cases done
        | some embedded =>
            rw [embed] at done
            cases save : run.save with
            | saved =>
                rw [save] at done
                cases done
            | failed renamed =>
                rw [save] at done
                cases done

theorem updateIndex_nothing {run : Run Embedding} {load : VectorIndexLoad Embedding}
    {db : VectorDb Embedding} (opened : openIndex workspace run load = some db)
    (nothing : toIndex workspace run db = []) :
    updateIndex workspace normalize run load = (true, none) := by
  unfold updateIndex
  rw [opened]
  dsimp only
  rw [nothing]
  rfl

/-! ## Runs -/

theorem embeddingSource_ne (config : IndexConfig) : embeddingSource config ≠ "" := by
  intro empty
  have characters := congrArg String.toList empty
  unfold embeddingSource at characters
  dsimp only at characters
  split at characters
  · simp at characters
  · simp at characters

/-- What is persisted holds its files, and has an embedding source. -/
def Persisted.Held (state : Persisted Embedding) : Prop :=
  ∀ db, state.index = some db →
    db.embeddingSource ≠ "" ∧ db.Held workspace content state.chunkedWith

theorem loadOutcome_loaded {state : Persisted Embedding} {run : Run Embedding}
    {old : VectorDb Embedding} (loaded : loadOutcome state run = .loaded old) :
    state.index = some old := by
  unfold loadOutcome at loaded
  cases persisted : state.index with
  | none =>
      rw [persisted] at loaded
      cases loaded
  | some db =>
      rw [persisted] at loaded
      dsimp only at loaded
      split at loaded
      · cases loaded
      · cases loaded
        rfl

theorem Persisted.Held.opened {state : Persisted Embedding}
    (held : state.Held workspace content) {run : Run Embedding} {db : VectorDb Embedding}
    (opened : openIndex workspace run (loadOutcome state run) = some db) :
    db.Held workspace content state.chunkedWith := by
  obtain ⟨_, ⟨files, chunks⟩ | ⟨old, loaded, _, _, files, chunks⟩⟩ := openIndex_cases workspace opened
  · exact .of_empty workspace content files chunks
  · exact (held old (loadOutcome_loaded loaded)).2.of_same workspace content files chunks

/-- What a run that saves leaves. -/
theorem mirrors_runStep {state : Persisted Embedding} (held : state.Held workspace content)
    {run : Run Embedding} (stable : run.Stable content) {report : Bool}
    {saved : VectorDb Embedding}
    (done : updateIndex workspace normalize run (loadOutcome state run) = (report, some saved)) :
    ∃ db, openIndex workspace run (loadOutcome state run) = some db ∧
      (runStep workspace normalize state run).index = some saved ∧
      saved.embeddingSource = embeddingSource run.config ∧
      (runStep workspace normalize state run).chunkedWith =
        chunkedAfter workspace run db state.chunkedWith ∧
      saved.Mirrors workspace content run (chunkedAfter workspace run db state.chunkedWith) := by
  obtain ⟨db, embedded, opened, embed, source, files, chunks⟩ :=
    updateIndex_saved workspace normalize done
  refine ⟨db, opened, ?_, ?_, ?_, ?_⟩
  · rw [runStep, done]
  · rw [source, (openIndex_cases workspace opened).1]
  · rw [runStep, done]
    simp only [reindexed, opened]
    rfl
  · exact mirrors_of_saved workspace normalize content stable
      (held.opened workspace content opened) embed files chunks

theorem runStep_unsaved {state : Persisted Embedding} {run : Run Embedding} {report : Bool}
    (done : updateIndex workspace normalize run (loadOutcome state run) = (report, none)) :
    (runStep workspace normalize state run).chunkedWith = state.chunkedWith ∧
      ((runStep workspace normalize state run).index = state.index ∨
        run.force = false ∧ run.corrupt = true ∧
          (runStep workspace normalize state run).index = none) := by
  rw [runStep, done]
  dsimp only
  split
  · rename_i quarantined
    rw [Bool.and_eq_true, Bool.and_eq_true, Bool.not_eq_true'] at quarantined
    exact ⟨rfl, .inr ⟨quarantined.1.1, quarantined.1.2, rfl⟩⟩
  · exact ⟨rfl, .inl rfl⟩

theorem held_runStep {state : Persisted Embedding} (held : state.Held workspace content)
    {run : Run Embedding} (stable : run.Stable content) :
    (runStep workspace normalize state run).Held workspace content := by
  intro db persisted
  cases done : updateIndex workspace normalize run (loadOutcome state run) with
  | mk report saved =>
      cases saved with
      | some index =>
          obtain ⟨_, _, after, source, strategies, mirrors⟩ :=
            mirrors_runStep workspace normalize content held stable done
          obtain rfl : index = db := Option.some.inj (after.symm.trans persisted)
          rw [source, strategies]
          exact ⟨embeddingSource_ne run.config, mirrors.held⟩
      | none =>
          obtain ⟨strategies, same | ⟨_, _, gone⟩⟩ := runStep_unsaved workspace normalize done
          · rw [strategies]
            exact held db (same.symm.trans persisted)
          · rw [gone] at persisted
            cases persisted

theorem held_run (runs : List (Run Embedding)) (stable : ∀ run ∈ runs, run.Stable content) :
    (Machine.run (runStep workspace normalize) {} runs).Held workspace content := by
  refine Machine.run_invariant _ (Persisted.Held workspace content)
    (fun _ run => run.Stable content)
    (fun _ _ held stable => held_runStep workspace normalize content held stable) {} runs ?_ ?_
  · intro db persisted
    cases persisted
  · intro pair visited
    obtain ⟨before, after, split, _⟩ := (Machine.mem_visited_iff _ _ _ _).mp visited
    exact stable pair.2 (by simp [split])

/-! ## Rebuilding -/

/-- The persisted index is the one a rebuild would persist: the listed files, their
chunks under the strategy of the run, and its embedding source. -/
structure Exact (run : Run Embedding) (index : Option (VectorDb Embedding)) : Prop where
  source : ∀ db, index = some db → db.embeddingSource = embeddingSource run.config
  mirrors : (index.getD {}).Mirrors workspace content run fun _ => run.config.chunkStrategy

/-- The files that are kept chunk alike under the strategy of now, and where no file
has to be indexed the persisted index has the embedding source of now and no file
that is gone. -/
def Unoutdated (state : Persisted Embedding) (run : Run Embedding) : Prop :=
  ∀ db, openIndex workspace run (loadOutcome state run) = some db →
    (∀ file ∈ run.files, absolute workspace file ∉ toIndex workspace run db → ∀ raw,
      (raw ∈ fileChunks workspace content (currentEntry workspace run file)
          (state.chunkedWith file) ↔
        raw ∈ fileChunks workspace content (currentEntry workspace run file)
          run.config.chunkStrategy)) ∧
    (toIndex workspace run db = [] → ∀ old, state.index = some old →
      old.embeddingSource = embeddingSource run.config ∧
        ∀ entry ∈ old.files, entry.filePath ∈ run.files)

/-- Of no files a rebuild persists nothing. -/
theorem exact_none {run : Run Embedding} (noFiles : ∀ file, file ∉ run.files) :
    Exact workspace content run none where
  source := by
    intro db persisted
    cases persisted
  mirrors := {
    files := by
      intro entry
      constructor
      · intro entered
        cases entered
      · rintro ⟨file, member, _⟩
        exact absurd member (noFiles file)
    chunks := by
      intro file raw
      constructor
      · rintro ⟨chunk, chunkHeld, _⟩
        cases chunkHeld
      · rintro ⟨member, _⟩
        exact absurd member (noFiles file) }

/-- A run that saves leaves what a rebuild would when the kept files chunk alike. -/
theorem exact_saved_iff {run : Run Embedding} {db saved : VectorDb Embedding}
    {chunkedWith : String → String} (source : saved.embeddingSource = embeddingSource run.config)
    (mirrors : saved.Mirrors workspace content run
      (chunkedAfter workspace run db chunkedWith)) :
    Exact workspace content run (some saved) ↔
      ∀ file ∈ run.files, absolute workspace file ∉ toIndex workspace run db → ∀ raw,
        (raw ∈ fileChunks workspace content (currentEntry workspace run file)
            (chunkedWith file) ↔
          raw ∈ fileChunks workspace content (currentEntry workspace run file)
            run.config.chunkStrategy) := by
  have strategy : ∀ file, chunkedAfter workspace run db chunkedWith file =
      if file ∈ run.files ∧ absolute workspace file ∈ toIndex workspace run db then
        run.config.chunkStrategy
      else chunkedWith file := by
    intro file
    rw [chunkedAfter]
    simp only [List.contains_iff_mem, mem_indexed_iff]
  constructor
  · intro rebuilt file member kept raw
    have before := mirrors.chunks file raw
    rw [strategy, if_neg (fun both => kept both.2), and_iff_right member] at before
    have after := rebuilt.mirrors.chunks file raw
    rw [and_iff_right member] at after
    exact before.symm.trans after
  · intro alike
    refine ⟨?_, mirrors.files, ?_⟩
    · rintro db' persisted
      cases persisted
      exact source
    · intro file raw
      refine (mirrors.chunks file raw).trans (and_congr_right fun member => ?_)
      rw [strategy]
      split
      · exact Iff.rfl
      · rename_i kept
        exact alike file member (fun indexed => kept ⟨member, indexed⟩) raw

/-- An index that is left as it is is what a rebuild would persist when it has the
embedding source of now, no file that is gone, and chunks alike. -/
theorem exact_unsaved_iff {run : Run Embedding} {old : VectorDb Embedding}
    {chunkedWith : String → String} (held : old.Held workspace content chunkedWith)
    (current : ∀ file ∈ run.files, currentEntry workspace run file ∈ old.files) :
    Exact workspace content run (some old) ↔
      (∀ file ∈ run.files, ∀ raw,
        (raw ∈ fileChunks workspace content (currentEntry workspace run file)
            (chunkedWith file) ↔
          raw ∈ fileChunks workspace content (currentEntry workspace run file)
            run.config.chunkStrategy)) ∧
      old.embeddingSource = embeddingSource run.config ∧
        ∀ entry ∈ old.files, entry.filePath ∈ run.files := by
  constructor
  · intro rebuilt
    refine ⟨?_, rebuilt.source old rfl, ?_⟩
    · intro file member raw
      have before : old.HoldsChunk file raw ↔ _ := held.chunked _ (current file member) raw
      have after := rebuilt.mirrors.chunks file raw
      rw [and_iff_right member] at after
      exact before.symm.trans after
    · intro entry entered
      obtain ⟨file, member, rfl⟩ := (rebuilt.mirrors.files entry).mp entered
      exact member
  · rintro ⟨alike, source, listed⟩
    refine ⟨?_, ?_, ?_⟩
    · rintro db persisted
      cases persisted
      exact source
    · intro entry
      constructor
      · intro entered
        have member := listed entry entered
        exact ⟨_, member, held.unique entry entered _ (current _ member) rfl⟩
      · rintro ⟨file, member, rfl⟩
        exact current file member
    · intro file raw
      constructor
      · rintro ⟨chunk, chunkHeld, rfl, rfl⟩
        obtain ⟨entry, entered, named⟩ := held.entered chunk chunkHeld
        have member := named ▸ listed entry entered
        have before : old.HoldsChunk chunk.filePath chunk.toRawChunk ↔ _ :=
          held.chunked _ (current _ member) chunk.toRawChunk
        exact ⟨member, (alike _ member _).mp (before.mp ⟨chunk, chunkHeld, rfl, rfl⟩)⟩
      · rintro ⟨member, chunked⟩
        have before : old.HoldsChunk file raw ↔ _ := held.chunked _ (current file member) raw
        exact before.mpr ((alike file member raw).mpr chunked)

/-- After any history, a run that reports success leaves what a rebuild would
persist if and only if nothing it keeps is outdated. -/
theorem rebuilt_iff (runs : List (Run Embedding)) (run : Run Embedding)
    (stable : ∀ other ∈ run :: runs, other.Stable content)
    (success : reports workspace normalize
      (Machine.run (runStep workspace normalize) {} runs) run = true) :
    Exact workspace content run
        (Machine.run (runStep workspace normalize) {} (runs ++ [run])).index ↔
      Unoutdated workspace content (Machine.run (runStep workspace normalize) {} runs) run := by
  have held := held_run workspace normalize content runs
    fun other member => stable other (List.mem_cons_of_mem run member)
  have runStable := stable run List.mem_cons_self
  rw [Machine.run_append, Machine.run_cons, Machine.run_nil]
  generalize Machine.run (runStep workspace normalize) {} runs = state at held success ⊢
  cases done : updateIndex workspace normalize run (loadOutcome state run) with
  | mk report saved =>
      rw [reports, done] at success
      obtain rfl : report = true := success
      cases saved with
      | some saved =>
          obtain ⟨db, opened, after, source, _, mirrors⟩ :=
            mirrors_runStep workspace normalize content held runStable done
          have indexing : toIndex workspace run db ≠ [] := by
            intro nothing
            rw [updateIndex_nothing workspace normalize opened nothing] at done
            cases done
          rw [after, exact_saved_iff workspace content source mirrors, Unoutdated]
          constructor
          · rintro alike other otherOpened
            obtain rfl : db = other := Option.some.inj (opened.symm.trans otherOpened)
            exact ⟨alike, fun nothing => absurd nothing indexing⟩
          · intro unoutdated
            exact (unoutdated db opened).1
      | none =>
          obtain ⟨db, opened, nothing⟩ := updateIndex_unsaved workspace normalize done
          have unchanged : (runStep workspace normalize state run).index = state.index := by
            obtain ⟨_, same | ⟨unforced, corrupt, gone⟩⟩ :=
              runStep_unsaved workspace normalize done
            · exact same
            · cases persisted : state.index with
              | none => exact gone
              | some old =>
                  simp [openIndex, loadOutcome, persisted, unforced, corrupt] at opened
          have current : ∀ file ∈ run.files, currentEntry workspace run file ∈ db.files := by
            intro file member
            by_contra absent
            have indexed := (mem_toIndex_iff workspace
              (held.opened workspace content opened).unique member).mpr absent
            rw [nothing] at indexed
            cases indexed
          rw [unchanged]
          cases persisted : state.index with
          | none =>
              have noFiles : ∀ file, file ∉ run.files := by
                intro file member
                obtain ⟨_, ⟨files, _⟩ | ⟨old, loaded, _⟩⟩ := openIndex_cases workspace opened
                · have absurdity := current file member
                  rw [files] at absurdity
                  cases absurdity
                · have found := loadOutcome_loaded loaded
                  rw [persisted] at found
                  cases found
              constructor
              · intro _ _ _
                refine ⟨fun file member => absurd member (noFiles file), ?_⟩
                intro _ old found
                rw [persisted] at found
                cases found
              · intro _
                exact exact_none workspace content noFiles
          | some old =>
              have currentOld : ∀ file ∈ run.files,
                  currentEntry workspace run file ∈ old.files := by
                intro file member
                obtain ⟨_, ⟨files, _⟩ | ⟨other, loaded, _, _, files, _⟩⟩ :=
                  openIndex_cases workspace opened
                · have absurdity := current file member
                  rw [files] at absurdity
                  cases absurdity
                · obtain rfl : old = other :=
                    Option.some.inj (persisted.symm.trans (loadOutcome_loaded loaded))
                  rw [← files]
                  exact current file member
              rw [exact_unsaved_iff workspace content (held old persisted).2 currentOld,
                Unoutdated]
              constructor
              · rintro ⟨alike, rest⟩ other otherOpened
                refine ⟨fun file member _ => alike file member, ?_⟩
                intro _ found foundOld
                obtain rfl : old = found := Option.some.inj (persisted.symm.trans foundOld)
                exact rest
              · intro unoutdated
                obtain ⟨alike, rest⟩ := unoutdated db opened
                refine ⟨fun file member => alike file member ?_, rest nothing old persisted⟩
                rw [nothing]
                exact List.not_mem_nil

end Incremental

/-! ## Deletions only -/

/-- Runs of one workspace whose files all hold one line. -/
def lineRun (files : List String) (inside : ∀ file ∈ files, file.toList.head? ≠ some '/') :
    Run Unit where
  files := files
  inside := inside
  modified := fun _ => 1
  size := fun _ => 1
  read := fun _ => some "x"
  config := {
    embeddingProvider := "ollama"
    activeProvider := "ollama"
    ollamaUrl := "local"
    embeddingModel := "nomic"
    chunkStrategy := "syntactic" }
  fetchEmbeddings := fun texts => texts.map fun _ => ()

def oneLine (_path : String) (_modified _size : Nat) : Option String := some "x"

theorem lineRun_stable (files : List String)
    (inside : ∀ file ∈ files, file.toList.head? ≠ some '/') :
    (lineRun files inside).Stable oneLine := fun _ => rfl

theorem rebuilt_after_addition :
    Exact "/w" oneLine (lineRun ["a.rs", "b.rs"] (by decide))
        (Machine.run (runStep "/w" id) {} ([lineRun ["a.rs"] (by decide)] ++
          [lineRun ["a.rs", "b.rs"] (by decide)])).index ↔
      Unoutdated "/w" oneLine (Machine.run (runStep "/w" id) {} [lineRun ["a.rs"] (by decide)])
        (lineRun ["a.rs", "b.rs"] (by decide)) := by
  refine rebuilt_iff "/w" id oneLine [lineRun ["a.rs"] (by decide)]
    (lineRun ["a.rs", "b.rs"] (by decide)) ?_ (by decide +kernel)
  intro run member
  rcases List.mem_cons.mp member with rfl | member
  · exact lineRun_stable _ _
  · obtain rfl := List.mem_singleton.mp member
    exact lineRun_stable _ _

/-- A run that finds only deletions reports success and leaves the deleted file in
the persisted index. -/
theorem deleted_file_stays :
    ¬ ∀ (runs : List (Run Unit)) (run : Run Unit),
      (∀ other ∈ run :: runs, other.Stable oneLine) →
      reports "/w" id (Machine.run (runStep "/w" id) {} runs) run = true →
      Exact "/w" oneLine run (Machine.run (runStep "/w" id) {} (runs ++ [run])).index := by
  intro rebuilt
  have exact := rebuilt [lineRun ["a.rs"] (by decide)] (lineRun [] (by decide))
    (by
      intro run member
      rcases List.mem_cons.mp member with rfl | member
      · exact lineRun_stable _ _
      · obtain rfl := List.mem_singleton.mp member
        exact lineRun_stable _ _)
    (by decide +kernel)
  obtain ⟨file, member, _⟩ := (exact.mirrors.files ⟨"a.rs", 1, 1⟩).mp (by decide +kernel)
  exact List.not_mem_nil member

end SystemPilot.Codebase
