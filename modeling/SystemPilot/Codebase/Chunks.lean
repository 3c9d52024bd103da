import Mathlib.Tactic
import SystemPilot.Text

/-!
# Chunks of a file

`chunk_file`: the lines of a text file, cut before definitions or headings and
merged until a chunk spans eight lines, or in windows of forty lines that overlap
in ten.
-/

set_option autoImplicit false

namespace SystemPilot.Codebase

open SystemPilot.Text

structure RawChunk where
  content : String
  startLine : Nat
  endLine : Nat
  deriving DecidableEq, Repr

/-- `str::lines`, with the characters of the line read so far. -/
def linesFrom : List Char → List Char → List String
  | [], line => if line.isEmpty then [] else [String.ofList line]
  | character :: rest, line =>
      if character = '\n' then
        String.ofList (if line.getLast? = some '\r' then line.dropLast else line) ::
          linesFrom rest []
      else linesFrom rest (line ++ [character])

def lines (content : String) : List String := linesFrom content.toList []

/-- `Path::extension`, empty when there is none. -/
def extension (path : String) : String :=
  let name := ((rsplitOnce '/' path.toList).map Prod.snd).getD path.toList
  if name = ['.', '.'] then ""
  else
    match rsplitOnce '.' name with
    | some (before, after) => if before.isEmpty then "" else String.ofList after
    | none => ""

/-- `lines.join("\n")`. -/
def joinLines (lines : List String) : String := "\n".intercalate lines

/-! ## Syntactic chunks -/

/-- The lines of a chunk, both ends counted. -/
def RawChunk.span (chunk : RawChunk) : Nat := chunk.endLine - chunk.startLine + 1

/-- `post_process`, with the short chunk that waits for more. -/
def postProcessFrom : List RawChunk → Option RawChunk → List RawChunk
  | [], acc => acc.toList
  | chunk :: rest, some acc =>
      let merged : RawChunk := {
        content := acc.content ++ "\n" ++ chunk.content
        startLine := acc.startLine
        endLine := chunk.endLine }
      if 8 ≤ merged.span then merged :: postProcessFrom rest none
      else postProcessFrom rest (some merged)
  | chunk :: rest, none =>
      if chunk.span < 8 then postProcessFrom rest (some chunk)
      else chunk :: postProcessFrom rest none

def postProcess (raw : List RawChunk) : List RawChunk := postProcessFrom raw none

/-- The loop that cuts before every line that starts a chunk.  `starts` is asked
with the depth of the braces before the line. -/
def cutFrom (starts : Int → String → Bool) :
    List String → Nat → List String → Nat → Int → List RawChunk
  | [], index, current, start, _ =>
      if current.isEmpty then [] else [⟨joinLines current, start, index⟩]
  | line :: rest, index, current, start, depth =>
      let opens : Int := line.toList.count '{'
      let closes : Int := line.toList.count '}'
      let next := max (depth + opens - closes) 0
      if starts depth line && !current.isEmpty then
        ⟨joinLines current, start, index⟩ ::
          cutFrom starts rest (index + 1) [line] (index + 1) next
      else cutFrom starts rest (index + 1) (current ++ [line]) start next

def cut (starts : Int → String → Bool) (lines : List String) : List RawChunk :=
  postProcess (cutFrom starts lines 0 [] 1 0)

/-- `line.trim()` starts with one of the texts. -/
def trimmedStarts (starts : List String) (line : String) : Bool :=
  starts.any fun start => start.toList.isPrefixOf (trim line)

/-- A definition outside of more than one pair of braces. -/
def braceStarts (depth : Int) (line : String) : Bool :=
  decide (depth ≤ 1) &&
    trimmedStarts ["fn ", "pub fn ", "struct ", "pub struct ", "enum ", "pub enum ", "impl ",
      "class ", "function ", "async function "] line

def pythonStarts (_depth : Int) (line : String) : Bool :=
  trimmedStarts ["def ", "class "] line && !startsWith line " " && !startsWith line "\t"

def markdownStarts (_depth : Int) (line : String) : Bool :=
  startsWith line "#"

/-! ## Windows -/

def chunkSize : Nat := 40

def overlap : Nat := 10

def windows (lines : List String) (start : Nat) : List RawChunk :=
  if _more : start < lines.length then
    let stop := min (start + chunkSize) lines.length
    let chunk : RawChunk := ⟨joinLines ((lines.take stop).drop start), start + 1, stop⟩
    if stop = lines.length then [chunk] else chunk :: windows lines (start + (chunkSize - overlap))
  else []
termination_by lines.length - start
decreasing_by
  simp only [chunkSize, overlap]
  omega

/-! ## `chunk_file` -/

/-- `chunk_file` on the size of the file and what reading it gives. -/
def chunkFile (path : String) (size : Nat) (content : Option String) (strategy : String) :
    List RawChunk :=
  if 1024 * 1024 < size then []
  else
    match content with
    | none => []
    | some content =>
        if content.toList.contains '\x00' then []
        else
          let lines := lines content
          let ext := extension path
          if lines.isEmpty then []
          else if strategy = "syntactic" ∧
              ext ∈ ["rs", "js", "ts", "go", "c", "cpp", "h", "hpp", "java"] then
            cut braceStarts lines
          else if strategy = "syntactic" ∧ ext = "py" then cut pythonStarts lines
          else if strategy = "syntactic" ∧ ext = "md" then cut markdownStarts lines
          else windows lines 0

end SystemPilot.Codebase
