import SystemPilot.Codebase.Index
import SystemPilot.Library.Decoder
import SystemPilot.Library.LittleEndian
import SystemPilot.Library.Replacement
import SystemPilot.Text.Lossy

/-!
# The vector index on disk

`save_to_binary` and `load_outcome`: the index is written behind length prefixes
of 32 bits, put into place through a temporary file, and read back under limits
on strings, counts and embeddings that the writer does not know.  An index that
does not decode is renamed out of the way.
-/

set_option autoImplicit false

namespace SystemPilot.Codebase.Binary

open SystemPilot.Library
open SystemPilot.Library.LittleEndian
open SystemPilot.Text

/-! ## The writer -/

abbrev Bytes := List UInt8

/-- A `VectorDb`, its embeddings as bit patterns; the numbers are machine integers. -/
structure Stored extends VectorDb (List UInt32) where
  registered : ∀ file ∈ files, file.lastModified < 256 ^ 8 ∧ file.size < 256 ^ 8
  numbered : ∀ chunk ∈ chunks, chunk.startLine < 256 ^ 4 ∧ chunk.endLine < 256 ^ 4

/-- The length is narrowed to 32 bits. -/
def writeStr (text : String) : Bytes :=
  encode 4 (bytesOf text).length ++ bytesOf text

def writeRegistry (entry : FileRegistry) : Bytes :=
  writeStr entry.filePath ++ (encode 8 entry.lastModified ++ encode 8 entry.size)

def writeEmbedding (embedding : List UInt32) : Bytes :=
  encode 4 embedding.length ++ embedding.flatMap fun value => encode 4 value.toNat

def writeChunk (chunk : DbChunk (List UInt32)) : Bytes :=
  writeStr chunk.filePath ++ (writeStr chunk.content ++
    (encode 4 chunk.startLine ++ (encode 4 chunk.endLine ++ writeEmbedding chunk.embedding)))

/-- `b"SYSPILOT_VDB_3"`. -/
def magic : Bytes :=
  [0x53, 0x59, 0x53, 0x50, 0x49, 0x4C, 0x4F, 0x54, 0x5F, 0x56, 0x44, 0x42, 0x5F, 0x33]

/-- What `save_to_binary` writes. -/
def encodeBinary (db : VectorDb (List UInt32)) : Bytes :=
  magic ++ (writeStr db.workspacePath ++ (writeStr db.embeddingSource ++
    ((encode 4 db.files.length ++ db.files.flatMap writeRegistry) ++
      (encode 4 db.chunks.length ++ db.chunks.flatMap writeChunk))))

/-! ## The reader -/

inductive DecodeError where
  | unexpectedEof
  | invalidData (message : String)
  deriving DecidableEq, Repr

def DecodeError.text : DecodeError → String
  | .unexpectedEof => "failed to fill whole buffer"
  | .invalidData message => message

abbrev Input := Decoder UInt8 DecodeError

def readExact (count : Nat) : Input Bytes := Decoder.exactly .unexpectedEof count

/-- A little-endian integer of `count` bytes. -/
def readNumber (count : Nat) : Input Nat := do
  let bytes ← readExact count
  pure (number bytes)

def readStr : Input String := do
  let len ← readNumber 4
  if 10 * 1024 * 1024 < len then throw (.invalidData "string too long")
  else do
    let buffer ← readExact len
    pure (fromUtf8Lossy buffer)

/-- The next count, as `checked_count` lets it pass. -/
def checkedCount (kind : String) (limit : Nat) : Input Nat := do
  let count ← readNumber 4
  if limit < count then throw (.invalidData (kind ++ " count exceeds safety limit"))
  else pure count

def readRegistry : Input FileRegistry := do
  let filePath ← readStr
  let lastModified ← readNumber 8
  let size ← readNumber 8
  pure { filePath, lastModified, size }

/-- `bytes.as_chunks::<4>()`, each as a bit pattern. -/
def words : Bytes → List UInt32
  | first :: second :: third :: fourth :: rest =>
      UInt32.ofNat (number [first, second, third, fourth]) :: words rest
  | _ => []

def readEmbedding : Input (List UInt32) := do
  let len ← readNumber 4
  if 8192 < len then throw (.invalidData "embedding dimension exceeds safety limit")
  else do
    let bytes ← readExact (len * 4)
    pure (words bytes)

def readChunk : Input (DbChunk (List UInt32)) := do
  let filePath ← readStr
  let content ← readStr
  let startLine ← readNumber 4
  let endLine ← readNumber 4
  let embedding ← readEmbedding
  pure { filePath, content, startLine, endLine, embedding }

def readRegistries : Input (List FileRegistry) := do
  let count ← checkedCount "file" 1000000
  Decoder.many readRegistry count

def readChunks : Input (List (DbChunk (List UInt32))) := do
  let count ← checkedCount "chunk" 1000000
  Decoder.many readChunk count

def readIndex : Input (VectorDb (List UInt32)) := do
  let found ← readExact 14
  if found ≠ magic then throw (.invalidData "unrecognized vector-index format")
  else do
    let workspacePath ← readStr
    let embeddingSource ← readStr
    let files ← readRegistries
    let chunks ← readChunks
    pure { workspacePath, embeddingSource, files, chunks }

/-- `decode_binary`; what follows the last chunk is not read. -/
def decodeBinary (bytes : Bytes) : Except DecodeError (VectorDb (List UInt32)) :=
  (readIndex.run bytes).map Prod.fst

/-! ## Files -/

abbrev Files := Std.ExtTreeMap String Bytes

/-- `save_to_binary`, told where it is stopped before the rename and whether what
follows the rename succeeds; the flag tells whether it returns `Ok`. -/
def saveToBinary (temporary path : String) (db : VectorDb (List UInt32))
    (stop : Option (Replacement.Stop Bytes)) (synced : Bool) (files : Files) : Files × Bool :=
  let (files, result) := Replacement.replace temporary path (encodeBinary db) stop files
  (files, result = .done && synced)

inductive VectorIndexLoad where
  | missing
  | loaded (db : VectorDb (List UInt32))
  | corrupt (error : String) (quarantinedTo : Option String)

/-- `Path::with_extension`. -/
def withExtension (path extension : String) : String :=
  let (directory, name) := ((rsplitOnce '/' path.toList).map fun (before, after) =>
    (before ++ ['/'], after)).getD ([], path.toList)
  let stem := ((rsplitOnce '.' name).map fun (before, _) =>
    if before.isEmpty then name else before).getD name
  String.ofList (directory ++ stem) ++ "." ++ extension

/-- `load_outcome`; `refused` is the error of the rename, if it fails. -/
def loadOutcome (path : String) (stamp : Nat) (refused : Option String) (files : Files) :
    VectorIndexLoad × Files :=
  match files[path]? with
  | none => (.missing, files)
  | some bytes =>
      match decodeBinary bytes with
      | .ok db => (.loaded db, files)
      | .error error =>
          let quarantine := withExtension path ("corrupt-" ++ toString stamp)
          match refused with
          | some reason =>
              (.corrupt ("invalid vector-index data (" ++ error.text ++
                "); quarantine failed: " ++ reason) none, files)
          | none =>
              (.corrupt ("invalid vector-index data: " ++ error.text) (some quarantine),
                (files.erase path).insert quarantine bytes)

/-! ## Tokens -/

open Decoder in
theorem run_readNumber (count value : Nat) (more : Bytes) :
    (readNumber count).run (encode count value ++ more) = .ok (value % 256 ^ count, more) := by
  refine run_bind_ok.mpr ⟨encode count value, more, ?_, ?_⟩
  · have taken : (exactly DecodeError.unexpectedEof (encode count value).length).run
        (encode count value ++ more) = .ok (encode count value, more) := run_exactly more
    rwa [length_encode] at taken
  · rw [run_pure, number_encode]

theorem recovers_readNumber (count value : Nat) :
    Decoder.Recovers (readNumber count) (encode count value) value (value < 256 ^ count) := by
  constructor
  · intro small more
    rw [run_readNumber, Nat.mod_eq_of_lt small]
  · intro more rest decoded
    rw [run_readNumber] at decoded
    rw [← (Prod.mk.inj (Except.ok.inj decoded)).1]
    exact Nat.mod_lt _ (Nat.pow_pos (by decide))

theorem recovers_checkedCount (kind : String) {limit : Nat} (small : limit < 256 ^ 4)
    (count : Nat) :
    Decoder.Recovers (checkedCount kind limit) (encode 4 count) count (count ≤ limit) := by
  constructor
  · intro within more
    refine Decoder.run_bind_ok.mpr ⟨count, more, ?_, ?_⟩
    · exact (recovers_readNumber 4 count).returns (within.trans_lt small) more
    · rw [if_neg (by omega), Decoder.run_pure]
  · intro more rest decoded
    obtain ⟨read, between, _, checked⟩ := Decoder.run_bind_ok.mp decoded
    split at checked
    · cases checked
    · cases checked
      omega

/-- A wrapped length is that of a shorter string: no replacement makes up for it. -/
theorem recovers_readStr (text : String) :
    Decoder.Recovers readStr (writeStr text) text
      ((bytesOf text).length ≤ 10 * 1024 * 1024) := by
  constructor
  · intro within more
    rw [writeStr, List.append_assoc]
    refine Decoder.run_bind_ok.mpr ⟨(bytesOf text).length, bytesOf text ++ more, ?_, ?_⟩
    · exact (recovers_readNumber 4 _).returns (by omega) _
    · rw [if_neg (by omega)]
      refine Decoder.run_bind_ok.mpr ⟨bytesOf text, more, Decoder.run_exactly more, ?_⟩
      rw [fromUtf8Lossy_bytesOf, Decoder.run_pure]
  · intro more rest decoded
    rw [writeStr, List.append_assoc] at decoded
    obtain ⟨len, between, read, later⟩ := Decoder.run_bind_ok.mp decoded
    rw [run_readNumber] at read
    have narrowed := (Prod.mk.inj (Except.ok.inj read)).1
    split at later
    · cases later
    · obtain ⟨buffer, left, taken, last⟩ := Decoder.run_bind_ok.mp later
      have size := (Decoder.run_exactly_ok.mp taken).1
      have bound := length_bytesOf_fromUtf8Lossy buffer
      rw [Decoder.run_pure] at last
      rw [(Prod.mk.inj (Except.ok.inj last)).1] at bound
      omega

theorem length_words (bytes : Bytes) : (words bytes).length = bytes.length / 4 := by
  fun_induction words bytes with
  | case1 first second third fourth rest inductionHypothesis =>
      rw [List.length_cons, inductionHypothesis]
      simp only [List.length_cons]
      omega
  | case2 bytes short =>
      have few : bytes.length < 4 := by
        by_contra many
        obtain ⟨first, second, third, fourth, rest, rfl⟩ :
            ∃ first second third fourth rest,
              bytes = first :: second :: third :: fourth :: rest := by
          rcases bytes with _ | ⟨first, _ | ⟨second, _ | ⟨third, _ | ⟨fourth, rest⟩⟩⟩⟩
          all_goals simp at many ⊢
        exact short first second third fourth rest rfl
      rw [List.length_nil]
      omega

theorem words_flatMap (values : List UInt32) :
    words (values.flatMap fun value => encode 4 value.toNat) = values := by
  induction values with
  | nil => rfl
  | cons value values inductionHypothesis =>
      have small := value.toNat_lt
      have read : number (encode 4 value.toNat) = value.toNat := by
        rw [number_encode, Nat.mod_eq_of_lt (by omega)]
      simp only [encode] at read inductionHypothesis
      rw [List.flatMap_cons]
      simp only [encode, List.cons_append, List.nil_append, words]
      rw [read, inductionHypothesis, UInt32.ofNat_toNat]

theorem length_flatMap_encode (count : Nat) (values : List UInt32) :
    (values.flatMap fun value => encode count value.toNat).length = values.length * count := by
  simp [List.length_flatMap]

theorem recovers_readEmbedding (embedding : List UInt32) :
    Decoder.Recovers readEmbedding (writeEmbedding embedding) embedding
      (embedding.length ≤ 8192) := by
  constructor
  · intro within more
    rw [writeEmbedding, List.append_assoc]
    refine Decoder.run_bind_ok.mpr ⟨embedding.length,
      (embedding.flatMap fun value => encode 4 value.toNat) ++ more, ?_, ?_⟩
    · exact (recovers_readNumber 4 _).returns (by omega) _
    · rw [if_neg (by omega)]
      refine Decoder.run_bind_ok.mpr
        ⟨embedding.flatMap fun value => encode 4 value.toNat, more, ?_, ?_⟩
      · rw [← length_flatMap_encode]
        exact Decoder.run_exactly more
      · rw [words_flatMap, Decoder.run_pure]
  · intro more rest decoded
    rw [writeEmbedding, List.append_assoc] at decoded
    obtain ⟨len, between, read, later⟩ := Decoder.run_bind_ok.mp decoded
    split at later
    · cases later
    · obtain ⟨bytes, left, taken, last⟩ := Decoder.run_bind_ok.mp later
      have size := (Decoder.run_exactly_ok.mp taken).1
      have dimension := length_words bytes
      rw [Decoder.run_pure] at last
      rw [(Prod.mk.inj (Except.ok.inj last)).1] at dimension
      omega

/-! ## Records -/

/-- The registry entries the reader returns. -/
def RegistryFits (entry : FileRegistry) : Prop :=
  (bytesOf entry.filePath).length ≤ 10 * 1024 * 1024 ∧
    entry.lastModified < 256 ^ 8 ∧ entry.size < 256 ^ 8

/-- The chunks the reader returns. -/
def ChunkFits (chunk : DbChunk (List UInt32)) : Prop :=
  (bytesOf chunk.filePath).length ≤ 10 * 1024 * 1024 ∧
    (bytesOf chunk.content).length ≤ 10 * 1024 * 1024 ∧
    chunk.startLine < 256 ^ 4 ∧ chunk.endLine < 256 ^ 4 ∧ chunk.embedding.length ≤ 8192

section Records

open Decoder

theorem recovers_readRegistry (entry : FileRegistry) :
    Recovers readRegistry (writeRegistry entry) entry (RegistryFits entry) := by
  refine (recovers_readStr _).field FileRegistry.filePath ?_ fun filePath =>
    returns_bind fun lastModified => returns_bind fun size => returns_pure rfl
  refine (recovers_readNumber 8 _).field FileRegistry.lastModified ?_ fun lastModified =>
    returns_bind fun size => returns_pure rfl
  exact (recovers_readNumber 8 _).last FileRegistry.size rfl fun size => rfl

theorem recovers_readChunk (chunk : DbChunk (List UInt32)) :
    Recovers readChunk (writeChunk chunk) chunk (ChunkFits chunk) := by
  refine (recovers_readStr _).field DbChunk.filePath ?_ fun filePath =>
    returns_bind fun content => returns_bind fun startLine => returns_bind fun endLine =>
      returns_bind fun embedding => returns_pure rfl
  refine (recovers_readStr _).field (fun chunk => chunk.content) ?_ fun content =>
    returns_bind fun startLine => returns_bind fun endLine =>
      returns_bind fun embedding => returns_pure rfl
  refine (recovers_readNumber 4 _).field (fun chunk => chunk.startLine) ?_ fun startLine =>
    returns_bind fun endLine => returns_bind fun embedding => returns_pure rfl
  refine (recovers_readNumber 4 _).field (fun chunk => chunk.endLine) ?_ fun endLine =>
    returns_bind fun embedding => returns_pure rfl
  exact (recovers_readEmbedding _).last DbChunk.embedding rfl fun embedding => rfl

theorem recovers_readRegistries (files : List FileRegistry) :
    Recovers readRegistries (encode 4 files.length ++ files.flatMap writeRegistry) files
      (files.length ≤ 1000000 ∧ ∀ entry ∈ files, RegistryFits entry) :=
  (recovers_checkedCount "file" (by decide) files.length).field List.length
    (recovers_many files fun entry _ => recovers_readRegistry entry)
    fun count => length_of_many readRegistry count

theorem recovers_readChunks (chunks : List (DbChunk (List UInt32))) :
    Recovers readChunks (encode 4 chunks.length ++ chunks.flatMap writeChunk) chunks
      (chunks.length ≤ 1000000 ∧ ∀ chunk ∈ chunks, ChunkFits chunk) :=
  (recovers_checkedCount "chunk" (by decide) chunks.length).field List.length
    (recovers_many chunks fun chunk _ => recovers_readChunk chunk)
    fun count => length_of_many readChunk count

/-- What the reader lets pass. -/
structure WithinLimits (db : VectorDb (List UInt32)) : Prop where
  workspacePath : (bytesOf db.workspacePath).length ≤ 10 * 1024 * 1024
  embeddingSource : (bytesOf db.embeddingSource).length ≤ 10 * 1024 * 1024
  files : db.files.length ≤ 1000000
  filePaths : ∀ entry ∈ db.files, (bytesOf entry.filePath).length ≤ 10 * 1024 * 1024
  chunks : db.chunks.length ≤ 1000000
  chunkPaths : ∀ chunk ∈ db.chunks, (bytesOf chunk.filePath).length ≤ 10 * 1024 * 1024
  contents : ∀ chunk ∈ db.chunks, (bytesOf chunk.content).length ≤ 10 * 1024 * 1024
  embeddings : ∀ chunk ∈ db.chunks, chunk.embedding.length ≤ 8192

theorem recovers_parts (db : VectorDb (List UInt32)) :
    Recovers readIndex (encodeBinary db) db
      (True ∧ (bytesOf db.workspacePath).length ≤ 10 * 1024 * 1024 ∧
        (bytesOf db.embeddingSource).length ≤ 10 * 1024 * 1024 ∧
        (db.files.length ≤ 1000000 ∧ ∀ entry ∈ db.files, RegistryFits entry) ∧
        (db.chunks.length ≤ 1000000 ∧ ∀ chunk ∈ db.chunks, ChunkFits chunk)) := by
  refine (recovers_exactly DecodeError.unexpectedEof magic).field (fun _ => magic) ?_ ?_
  · refine (recovers_readStr _).field VectorDb.workspacePath ?_ fun workspacePath =>
      returns_bind fun embeddingSource => returns_bind fun files => returns_bind fun chunks =>
        returns_pure rfl
    refine (recovers_readStr _).field VectorDb.embeddingSource ?_ fun embeddingSource =>
      returns_bind fun files => returns_bind fun chunks => returns_pure rfl
    refine (recovers_readRegistries _).field VectorDb.files ?_ fun files =>
      returns_bind fun chunks => returns_pure rfl
    exact (recovers_readChunks _).last VectorDb.chunks rfl fun chunks => rfl
  · -- another magic is refused
    intro found input result rest decoded
    split at decoded
    · cases decoded
    · rename_i recognized
      exact (not_not.mp recognized).symm

theorem recovers_readIndex (db : Stored) :
    Recovers readIndex (encodeBinary db.toVectorDb) db.toVectorDb
      (WithinLimits db.toVectorDb) := by
  refine (recovers_parts db.toVectorDb).congr ?_
  constructor
  · rintro ⟨-, workspace, source, ⟨files, entries⟩, chunkCount, each⟩
    exact ⟨workspace, source, files, fun entry member => (entries entry member).1, chunkCount,
      fun chunk member => (each chunk member).1, fun chunk member => (each chunk member).2.1,
      fun chunk member => (each chunk member).2.2.2.2⟩
  · intro limits
    refine ⟨trivial, limits.workspacePath, limits.embeddingSource, ⟨limits.files, ?_⟩,
      limits.chunks, ?_⟩
    · intro entry member
      exact ⟨limits.filePaths entry member, db.registered entry member⟩
    · intro chunk member
      obtain ⟨first, last⟩ := db.numbered chunk member
      exact ⟨limits.chunkPaths chunk member, limits.contents chunk member, first, last,
        limits.embeddings chunk member⟩

/-! ## Locality -/

theorem local_readNumber (count : Nat) : Local (readNumber count) :=
  (local_exactly _ count).bind fun _ => local_pure _

theorem local_readStr : Local readStr :=
  (local_readNumber 4).bind fun len =>
    (local_throw _).ite ((local_exactly _ len).bind fun _ => local_pure _)

theorem local_checkedCount (kind : String) (limit : Nat) : Local (checkedCount kind limit) :=
  (local_readNumber 4).bind fun count => (local_throw _).ite (local_pure count)

theorem local_readRegistry : Local readRegistry :=
  local_readStr.bind fun _ => (local_readNumber 8).bind fun _ =>
    (local_readNumber 8).bind fun _ => local_pure _

theorem local_readEmbedding : Local readEmbedding :=
  (local_readNumber 4).bind fun len =>
    (local_throw _).ite ((local_exactly _ (len * 4)).bind fun _ => local_pure _)

theorem local_readChunk : Local readChunk :=
  local_readStr.bind fun _ => local_readStr.bind fun _ =>
    (local_readNumber 4).bind fun _ => (local_readNumber 4).bind fun _ =>
      local_readEmbedding.bind fun _ => local_pure _

theorem local_readIndex : Local readIndex :=
  (local_exactly _ 14).bind fun _ => (local_throw _).ite
    (local_readStr.bind fun _ => local_readStr.bind fun _ =>
      ((local_checkedCount _ _).bind fun count => local_readRegistry.many count).bind fun _ =>
        ((local_checkedCount _ _).bind fun count => local_readChunk.many count).bind fun _ =>
          local_pure _)

end Records

theorem decodeBinary_encodeBinary_iff (db : Stored) :
    decodeBinary (encodeBinary db.toVectorDb) = .ok db.toVectorDb ↔
      WithinLimits db.toVectorDb := by
  have recovers := recovers_readIndex db
  constructor
  · intro decoded
    unfold decodeBinary at decoded
    cases run : readIndex.run (encodeBinary db.toVectorDb) with
    | error error => rw [run] at decoded; cases decoded
    | ok taken =>
        rw [run] at decoded
        obtain ⟨result, rest⟩ := taken
        cases decoded
        exact recovers.fitting [] rest (by rw [List.append_nil]; exact run)
  · intro limits
    have run := recovers.returns limits []
    rw [List.append_nil] at run
    rw [decodeBinary, run]
    rfl

theorem decodeBinary_take (db : Stored) (limits : WithinLimits db.toVectorDb) {cut : Nat}
    (short : cut < (encodeBinary db.toVectorDb).length) :
    ∃ error, decodeBinary ((encodeBinary db.toVectorDb).take cut) = .error error := by
  have whole := (recovers_readIndex db).returns limits []
  rw [List.append_nil] at whole
  obtain ⟨error, failed⟩ := local_readIndex.error_of_take whole short
  exact ⟨error, by rw [decodeBinary, failed]; rfl⟩

/-! ## Saving and loading -/

theorem getElem?_saveToBinary {temporary path : String} {db : VectorDb (List UInt32)}
    {stop : Option (Replacement.Stop Bytes)} {synced : Bool} {files : Files}
    (saved : (saveToBinary temporary path db stop synced files).2 = true) :
    (saveToBinary temporary path db stop synced files).1[path]? = some (encodeBinary db) := by
  have done : (Replacement.replace temporary path (encodeBinary db) stop files).2 = .done := by
    unfold saveToBinary at saved
    rw [Bool.and_eq_true, decide_eq_true_eq] at saved
    exact saved.1
  have after : (saveToBinary temporary path db stop synced files).1 =
      files.insert path (encodeBinary db) := Replacement.replace_done done
  rw [after, Std.ExtTreeMap.getElem?_insert_self]

theorem loadOutcome_decoded {path : String} {files : Files} {bytes : Bytes}
    {db : VectorDb (List UInt32)} (present : files[path]? = some bytes)
    (decoded : decodeBinary bytes = .ok db) (stamp : Nat) (refused : Option String) :
    loadOutcome path stamp refused files = (.loaded db, files) := by
  unfold loadOutcome
  rw [present]
  dsimp only
  rw [decoded]

theorem loadOutcome_undecoded {path : String} {files : Files} {bytes : Bytes}
    {error : DecodeError} (present : files[path]? = some bytes)
    (failed : decodeBinary bytes = .error error) (stamp : Nat) (refused : Option String) :
    ∃ text aside, (loadOutcome path stamp refused files).1 = .corrupt text aside := by
  unfold loadOutcome
  rw [present]
  dsimp only
  rw [failed]
  cases refused with
  | none => exact ⟨_, _, rfl⟩
  | some reason => exact ⟨_, _, rfl⟩

theorem saveToBinary_empty (temporary path : String) (db : VectorDb (List UInt32)) :
    (saveToBinary temporary path db none true ∅).2 = true := by
  have done : (Replacement.replace temporary path (encodeBinary db) none ∅).2 = .done := by
    rw [Replacement.replace_clear Std.ExtTreeMap.not_mem_empty]
  rw [saveToBinary]
  dsimp only
  rw [done]
  rfl

theorem loaded_of_saved {db : Stored} {temporary path : String}
    {stop : Option (Replacement.Stop Bytes)} {synced : Bool} {files : Files}
    (saved : (saveToBinary temporary path db.toVectorDb stop synced files).2 = true)
    {stamp : Nat} {refused : Option String} :
    (loadOutcome path stamp refused
        (saveToBinary temporary path db.toVectorDb stop synced files).1).1 =
      .loaded db.toVectorDb ↔ WithinLimits db.toVectorDb := by
  have present := getElem?_saveToBinary saved
  rw [← decodeBinary_encodeBinary_iff]
  cases decoded : decodeBinary (encodeBinary db.toVectorDb) with
  | ok result =>
      rw [loadOutcome_decoded present decoded stamp refused]
      simp
  | error error =>
      obtain ⟨text, aside, outcome⟩ := loadOutcome_undecoded present decoded stamp refused
      rw [outcome]
      simp

/-- An index that was saved is loaded as it was if and only if it is within the
limits of the reader. -/
theorem loadOutcome_saved_iff (db : Stored) (temporary path : String)
    (stop : Option (Replacement.Stop Bytes)) (synced : Bool) (files : Files)
    (saved : (saveToBinary temporary path db.toVectorDb stop synced files).2 = true)
    (stamp : Nat) (refused : Option String) :
    (loadOutcome path stamp refused
        (saveToBinary temporary path db.toVectorDb stop synced files).1).1 =
      .loaded db.toVectorDb ↔ WithinLimits db.toVectorDb :=
  loaded_of_saved saved

/-- The only chunk of the index below. -/
def singleChunk (embedding : List UInt32) : DbChunk (List UInt32) where
  filePath := "src/main.rs"
  content := "fn main();"
  startLine := 1
  endLine := 1
  embedding := embedding

theorem single_registered : ∀ file ∈ ([] : List FileRegistry),
    file.lastModified < 256 ^ 8 ∧ file.size < 256 ^ 8 := by
  simp

theorem single_numbered (embedding : List UInt32) :
    ∀ chunk ∈ [singleChunk embedding], chunk.startLine < 256 ^ 4 ∧ chunk.endLine < 256 ^ 4 := by
  intro chunk member
  obtain rfl := List.mem_singleton.mp member
  exact ⟨Nat.one_lt_pow (by decide) (by decide), Nat.one_lt_pow (by decide) (by decide)⟩

/-- An index without files whose only chunk has this embedding. -/
def single (embedding : List UInt32) : Stored where
  chunks := [singleChunk embedding]
  registered := single_registered
  numbered := single_numbered embedding

theorem loadOutcome_saved_single :
    (loadOutcome "index.bin" 7 none
        (saveToBinary "index.tmp" "index.bin" (single [1, 2]).toVectorDb none true ∅).1).1 =
      .loaded (single [1, 2]).toVectorDb ↔ WithinLimits (single [1, 2]).toVectorDb :=
  loadOutcome_saved_iff (single [1, 2]) "index.tmp" "index.bin" none true ∅
    (saveToBinary_empty "index.tmp" "index.bin" (single [1, 2]).toVectorDb) 7 none

/-- An embedding of one value more than the reader takes is saved and then refused. -/
theorem oversized_embedding_quarantined :
    (saveToBinary "index.tmp" "index.bin" (single (List.replicate 8193 0)).toVectorDb
        none true ∅).2 = true ∧
      ¬ (loadOutcome "index.bin" 7 none
          (saveToBinary "index.tmp" "index.bin" (single (List.replicate 8193 0)).toVectorDb
            none true ∅).1).1 = .loaded (single (List.replicate 8193 0)).toVectorDb := by
  have saved := saveToBinary_empty "index.tmp" "index.bin"
    (single (List.replicate 8193 0)).toVectorDb
  refine ⟨saved, ?_⟩
  intro loaded
  have limits := (loaded_of_saved saved).mp loaded
  have dimension := limits.embeddings _ (List.mem_singleton_self _)
  rw [singleChunk, List.length_replicate] at dimension
  exact absurd dimension (by decide)

/-- No strict beginning of a saved index decodes; it is moved out of the way whole. -/
theorem loadOutcome_truncated (db : Stored) (limits : WithinLimits db.toVectorDb) (cut : Nat)
    (short : cut < (encodeBinary db.toVectorDb).length) (path : String) (stamp : Nat)
    (files : Files) (present : files[path]? = some ((encodeBinary db.toVectorDb).take cut)) :
    ∃ error : DecodeError,
      decodeBinary ((encodeBinary db.toVectorDb).take cut) = .error error ∧
        loadOutcome path stamp none files =
          (.corrupt ("invalid vector-index data: " ++ error.text)
              (some (withExtension path ("corrupt-" ++ toString stamp))),
            (files.erase path).insert (withExtension path ("corrupt-" ++ toString stamp))
              ((encodeBinary db.toVectorDb).take cut)) ∧
        ∀ reason, loadOutcome path stamp (some reason) files =
          (.corrupt ("invalid vector-index data (" ++ error.text ++ "); quarantine failed: " ++
            reason) none, files) := by
  obtain ⟨error, failed⟩ := decodeBinary_take db limits short
  refine ⟨error, failed, ?_, ?_⟩
  · unfold loadOutcome
    rw [present]
    dsimp only
    rw [failed]
  · intro reason
    unfold loadOutcome
    rw [present]
    dsimp only
    rw [failed]

theorem single_limits : WithinLimits (single []).toVectorDb where
  workspacePath := by decide
  embeddingSource := by decide
  files := by decide
  filePaths := by simp [single]
  chunks := by decide
  chunkPaths := by
    intro chunk member
    obtain rfl := List.mem_singleton.mp member
    decide
  contents := by
    intro chunk member
    obtain rfl := List.mem_singleton.mp member
    decide
  embeddings := by
    intro chunk member
    obtain rfl := List.mem_singleton.mp member
    decide

theorem loadOutcome_truncated_single :
    ∃ error : DecodeError,
      decodeBinary ((encodeBinary (single []).toVectorDb).take 20) = .error error ∧
        loadOutcome "index.bin" 7 none
            ((∅ : Files).insert "index.bin" ((encodeBinary (single []).toVectorDb).take 20)) =
          (.corrupt ("invalid vector-index data: " ++ error.text)
              (some (withExtension "index.bin" ("corrupt-" ++ toString 7))),
            (((∅ : Files).insert "index.bin"
                ((encodeBinary (single []).toVectorDb).take 20)).erase "index.bin").insert
              (withExtension "index.bin" ("corrupt-" ++ toString 7))
              ((encodeBinary (single []).toVectorDb).take 20)) ∧
        ∀ reason, loadOutcome "index.bin" 7 (some reason)
            ((∅ : Files).insert "index.bin" ((encodeBinary (single []).toVectorDb).take 20)) =
          (.corrupt ("invalid vector-index data (" ++ error.text ++ "); quarantine failed: " ++
            reason) none,
            (∅ : Files).insert "index.bin" ((encodeBinary (single []).toVectorDb).take 20)) :=
  loadOutcome_truncated (single []) single_limits 20 (by decide) "index.bin" 7 _
    Std.ExtTreeMap.getElem?_insert_self

example : withExtension "/var/lib/index.bin" "corrupt-7" = "/var/lib/index.corrupt-7" := by decide

end SystemPilot.Codebase.Binary
