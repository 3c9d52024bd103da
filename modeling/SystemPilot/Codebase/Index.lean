import SystemPilot.Library.Machine
import SystemPilot.Codebase.Chunks

/-!
# The vector index

`update_index` on the persisted index: the files whose modification time or size
changed are chunked and embedded again, those that are gone are purged, and the
result is saved, unless there was nothing to chunk.
-/

set_option autoImplicit false

namespace SystemPilot.Codebase

open SystemPilot.Library
open SystemPilot.Text

structure FileRegistry where
  filePath : String
  lastModified : Nat
  size : Nat
  deriving DecidableEq, Repr

structure DbChunk (Embedding : Type) extends RawChunk where
  filePath : String
  embedding : Embedding

structure VectorDb (Embedding : Type) where
  workspacePath : String := ""
  embeddingSource : String := ""
  files : List FileRegistry := []
  chunks : List (DbChunk Embedding) := []

inductive VectorIndexLoad (Embedding : Type) where
  | missing
  | loaded (db : VectorDb Embedding)
  | corrupt

/-- What `update_index` reads of the configuration. -/
structure IndexConfig where
  embeddingProvider : String
  activeProvider : String
  ollamaUrl : String
  embeddingModel : String
  chunkStrategy : String
  deriving DecidableEq, Repr

def resolvedEmbeddingProvider (config : IndexConfig) : String :=
  if config.embeddingProvider = "active" then config.activeProvider else config.embeddingProvider

def embeddingSource (config : IndexConfig) : String :=
  let provider := resolvedEmbeddingProvider config
  if provider = "ollama" then "ollama:" ++ config.ollamaUrl ++ ":" ++ config.embeddingModel
  else provider ++ ":" ++ config.embeddingModel

/-- How `save_to_binary` ends; it can fail after the rename. -/
inductive SaveOutcome where
  | saved
  | failed (renamed : Bool)
  deriving DecidableEq, Repr

/-- One call of `update_index` with what it finds: the listed files by their paths
in the workspace, their metadata and contents, whether the persisted index can be
decoded and is quarantined otherwise, what the embedding service answers to a
batch, and how the save ends. -/
structure Run (Embedding : Type) where
  files : List String
  inside : ∀ file ∈ files, file.toList.head? ≠ some '/'
  modified : String → Nat
  size : String → Nat
  read : String → Option String
  config : IndexConfig
  force : Bool := false
  corrupt : Bool := false
  quarantined : Bool := true
  fetchEmbeddings : List String → List Embedding
  save : SaveOutcome := .saved

/-- The path of a file as `list_directory` gives it. -/
def absolute (workspace file : String) : String := workspace ++ "/" ++ file

/-- `strip_prefix(workspace).unwrap_or(path).trim_start_matches('/')`. -/
def relative (workspace path : String) : String :=
  let rest :=
    if startsWith path workspace then path.toList.drop workspace.toList.length else path.toList
  String.ofList (rest.dropWhile (· == '/'))

section Update

variable {Embedding : Type} (workspace : String) (normalize : Embedding → Embedding)
variable (run : Run Embedding)

/-- `list_directory`. -/
def listDirectory : List String := run.files.map (absolute workspace)

/-- The registry entry a file gets. -/
def registryEntry (path : String) : FileRegistry where
  filePath := relative workspace path
  lastModified := run.modified path
  size := run.size path

/-- The index a run starts from: none when the persisted one is corrupt. -/
def openIndex (load : VectorIndexLoad Embedding) : Option (VectorDb Embedding) :=
  let opened :=
    if run.force then some {}
    else
      match load with
      | .missing => some {}
      | .loaded db => some db
      | .corrupt => none
  opened.map fun db =>
    let db :=
      if db.embeddingSource ≠ "" ∧ db.embeddingSource ≠ embeddingSource run.config then {} else db
    { db with workspacePath := workspace, embeddingSource := embeddingSource run.config }

/-- `registry.get`; of two entries of one path the map holds the later one. -/
def registered (db : VectorDb Embedding) (file : String) : Option FileRegistry :=
  db.files.reverse.find? fun entry => entry.filePath == file

/-- The listed files whose entry is missing or has another time or size. -/
def toIndex (db : VectorDb Embedding) : List String :=
  (listDirectory workspace run).filter fun path =>
    match registered db (relative workspace path) with
    | some entry => entry.lastModified != run.modified path || entry.size != run.size path
    | none => true

/-- The entries and chunks of the files in a list. -/
def VectorDb.retain (db : VectorDb Embedding) (keep : String → Bool) : VectorDb Embedding :=
  { db with
    files := db.files.filter fun entry => keep entry.filePath
    chunks := db.chunks.filter fun chunk => keep chunk.filePath }

/-- The new chunks with the path of their file, before they are embedded. -/
def newChunks (paths : List String) : List (String × RawChunk) :=
  paths.flatMap fun path =>
    (chunkFile path (run.size path) (run.read path) run.config.chunkStrategy).map fun raw =>
      (relative workspace path, raw)

/-- The embeddings of the chunks, fifty a batch, if there are as many. -/
def embedChunks (chunks : List (String × RawChunk)) : Option (List (DbChunk Embedding)) :=
  let embeddings := ((chunks.map fun chunk => chunk.2.content).toChunks 50).flatMap
    run.fetchEmbeddings
  if chunks.isEmpty then some []
  else if embeddings.length = chunks.length then
    some (List.zipWith (fun chunk embedding => {
      chunk.2 with
      filePath := chunk.1
      embedding := normalize embedding }) chunks embeddings)
  else none

/-- `update_index`: what it reports, and the index it put into place. -/
def updateIndex (load : VectorIndexLoad Embedding) : Bool × Option (VectorDb Embedding) :=
  match openIndex workspace run load with
  | none => (false, none)
  | some db =>
      let changed := toIndex workspace run db
      let active := (listDirectory workspace run).map (relative workspace)
      let purged := db.retain fun file => active.contains file
      if changed.isEmpty then (true, none)
      else
        let indexed := changed.map (relative workspace)
        let kept := purged.retain fun file => !indexed.contains file
        match embedChunks normalize run (newChunks workspace run changed) with
        | none => (false, none)
        | some chunks =>
            let db := { kept with
              files := kept.files ++ changed.map (registryEntry workspace run)
              chunks := kept.chunks ++ chunks }
            match run.save with
            | .saved => (true, some db)
            | .failed renamed => (false, if renamed then some db else none)

end Update

/-! ## Runs -/

/-- The persisted index.  `chunkedWith` remembers with which strategy the entry of
a file was chunked; no run reads it. -/
structure Persisted (Embedding : Type) where
  index : Option (VectorDb Embedding) := none
  chunkedWith : String → String := fun _ => ""

section Runs

variable {Embedding : Type} (workspace : String) (normalize : Embedding → Embedding)

/-- `load_outcome`. -/
def loadOutcome (state : Persisted Embedding) (run : Run Embedding) : VectorIndexLoad Embedding :=
  match state.index with
  | none => .missing
  | some db => if run.corrupt then .corrupt else .loaded db

/-- The files a run chunks. -/
def reindexed (state : Persisted Embedding) (run : Run Embedding) : List String :=
  match openIndex workspace run (loadOutcome state run) with
  | some db => (toIndex workspace run db).map (relative workspace)
  | none => []

/-- What a run leaves: the index it saved, or the old one, unless that was
quarantined. -/
def runStep (state : Persisted Embedding) (run : Run Embedding) : Persisted Embedding :=
  match updateIndex workspace normalize run (loadOutcome state run) with
  | (_, some db) => {
      index := some db
      chunkedWith := fun file =>
        if (reindexed workspace state run).contains file then run.config.chunkStrategy
        else state.chunkedWith file }
  | (_, none) =>
      if !run.force && run.corrupt && run.quarantined then { state with index := none } else state

/-- Whether a run reports success. -/
def reports (state : Persisted Embedding) (run : Run Embedding) : Bool :=
  (updateIndex workspace normalize run (loadOutcome state run)).1

end Runs

end SystemPilot.Codebase
