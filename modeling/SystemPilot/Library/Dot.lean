import Mathlib.Tactic
import SystemPilot.Library.Transducer

/-!
# The DOT language

Documents of statements that end in semicolons: node and edge statements and
defaults, with attribute lists.  In a quoted string a backslash escapes a quote and
joins lines, any other backslash stands for itself; in a label it then introduces
the escapes of the layout.  Comments, subgraphs, ports and concatenated strings are
not read.
-/

set_option autoImplicit false

namespace SystemPilot.Library.Dot

/-! ## Tokens -/

inductive Token where
  | word (text : List Char)
  | quoted (text : List Char)
  | arrow
  | mark (character : Char)
  deriving DecidableEq, Repr

/-- An id, bare or quoted. -/
def Token.id? : Token → Option (List Char)
  | .word text | .quoted text => some text
  | .arrow | .mark _ => none

/-- What has been read of a token. -/
inductive Reading where
  | between
  | word (text : List Char)
  | quoted (text : List Char)
  | escaped (text : List Char)
  | dash
  deriving DecidableEq, Repr

def isSpace (character : Char) : Bool := " \t\n\r".toList.contains character

def isWord (character : Char) : Bool := character.isAlphanum || character == '_'

def isMark (character : Char) : Bool := "\x7b\x7d[]=,;".toList.contains character

/-- A character outside of tokens. -/
def startToken (character : Char) : Option (List Token × Reading) :=
  if isSpace character then some ([], .between)
  else if isMark character then some ([.mark character], .between)
  else if isWord character then some ([], .word [character])
  else if character = '"' then some ([], .quoted [])
  else if character = '-' then some ([], .dash)
  else none

def readChar : Reading → Char → Option (List Token × Reading)
  | .between, character => startToken character
  | .word text, character =>
      if isWord character then some ([], .word (text ++ [character]))
      else (startToken character).map fun started => (.word text :: started.1, started.2)
  | .quoted text, character =>
      if character = '"' then some ([.quoted text], .between)
      else if character = '\\' then some ([], .escaped text)
      else some ([], .quoted (text ++ [character]))
  | .escaped text, character =>
      if character = '"' then some ([], .quoted (text ++ ['"']))
      else if character = '\n' then some ([], .quoted text)
      else some ([], .quoted (text ++ ['\\', character]))
  | .dash, character => if character = '>' then some ([.arrow], .between) else none

def lexer : Transducer Reading Char Token where
  step := readChar

/-! ## Statements -/

inductive Subject where
  | defaults (keyword : List Char)
  | node (id : List Char)
  | edge (source target : List Char)
  deriving DecidableEq, Repr

abbrev Attributes := List (List Char × List Char)

structure Statement where
  subject : Subject
  attributes : Attributes
  deriving DecidableEq, Repr

/-- What is expected next. -/
inductive Place where
  | start
  | title
  | opening
  | statements
  | named (subject : Subject)
  | target (source : List Char)
  | attributes (subject : Subject) (read : Attributes)
  | equals (subject : Subject) (read : Attributes) (key : List Char)
  | value (subject : Subject) (read : Attributes) (key : List Char)
  | separator (subject : Subject) (read : Attributes)
  | ended
  deriving DecidableEq, Repr

def isKeyword (text : List Char) : Bool :=
  ["graph".toList, "node".toList, "edge".toList].contains text

/-- A token where a key of an attribute or the end of the list is expected. -/
def readAttribute (subject : Subject) (read : Attributes) (token : Token) :
    Option (List Statement × Place) :=
  if token = .mark ']' then some ([⟨subject, read⟩], .statements)
  else token.id?.map fun key => ([], .equals subject read key)

def readToken : Place → Token → Option (List Statement × Place)
  | .start, token => if token = .word "digraph".toList then some ([], .title) else none
  | .title, token => token.id?.map fun _ => ([], .opening)
  | .opening, token => if token = .mark '{' then some ([], .statements) else none
  | .statements, .mark character =>
      if character = ';' then some ([], .statements)
      else if character = '}' then some ([], .ended)
      else none
  | .statements, .word text =>
      some ([], .named (if isKeyword text then .defaults text else .node text))
  | .statements, .quoted text => some ([], .named (.node text))
  | .statements, .arrow => none
  | .named (.node source), .arrow => some ([], .target source)
  | .named subject, token =>
      if token = .mark '[' then some ([], .attributes subject [])
      else if token = .mark ';' then some ([⟨subject, []⟩], .statements)
      else none
  | .target source, token => token.id?.map fun target => ([], .named (.edge source target))
  | .attributes subject read, token => readAttribute subject read token
  | .equals subject read key, token =>
      if token = .mark '=' then some ([], .value subject read key) else none
  | .value subject read key, token =>
      token.id?.map fun value => ([], .separator subject (read ++ [(key, value)]))
  | .separator subject read, token =>
      if token = .mark ',' ∨ token = .mark ';' then some ([], .attributes subject read)
      else readAttribute subject read token
  | .ended, _ => none

def parser : Transducer Place Token Statement where
  step := readToken

/-- Characters to statements. -/
def reader : Transducer (Reading × Place) Char Statement := lexer.andThen parser

/-- The statements of a document. -/
def parse (text : List Char) : Option (List Statement) :=
  match reader.run (.between, .start) text with
  | some (statements, .between, .ended) => some statements
  | _ => none

theorem parse_eq_some_iff {text : List Char} {statements : List Statement} :
    parse text = some statements ↔
      reader.run (.between, .start) text = some (statements, .between, .ended) := by
  unfold parse
  split
  · rename_i found read
    rw [read]
    simp
  · rename_i others
    refine iff_of_false (by simp) ?_
    exact others statements

example : parse "digraph G \x7b node [shape=box]; \"a\\\"b\" -> c [label=\"x\\n\"]; \x7d".toList =
    some [⟨.defaults "node".toList, [("shape".toList, "box".toList)]⟩,
      ⟨.edge "a\"b".toList "c".toList, [("label".toList, "x\\n".toList)]⟩] := by
  decide +kernel

/-! ## Labels -/

/-- A piece of a label as the layout shows it: `\N` and the like are replaced by the
name of an object. -/
inductive Piece where
  | character (character : Char)
  | object (letter : Char)
  deriving DecidableEq, Repr

def escapePiece (character : Char) : Piece :=
  if "nlr".toList.contains character then .character '\n'
  else if "NGETHL".toList.contains character then .object character
  else .character character

/-- The escapes of a label. -/
def shown : List Char → List Piece
  | [] => []
  | ['\\'] => [.character '\\']
  | '\\' :: character :: rest => escapePiece character :: shown rest
  | character :: rest => .character character :: shown rest

def plainPieces (text : List Char) : List Piece := text.map .character

def Statement.label (statement : Statement) : Option (List Piece) :=
  ((statement.attributes.find? fun entry => entry.1 = "label".toList).map Prod.snd).map shown

/-! ## Quoted strings -/

/-- What a quoted string denotes, from behind its opening quote, and what is left
behind its closing quote. -/
def closing : List Char → Option (List Char × List Char)
  | [] => none
  | ['\\'] => none
  | '\\' :: character :: rest =>
      (closing rest).map fun read =>
        (if character = '"' then '"' :: read.1
          else if character = '\n' then read.1
          else '\\' :: character :: read.1, read.2)
  | character :: rest =>
      if character = '"' then some ([], rest)
      else (closing rest).map fun read => (character :: read.1, read.2)

theorem closing_quote (rest : List Char) : closing ('"' :: rest) = some ([], rest) := rfl

theorem closing_plain {character : Char} (quote : character ≠ '"') (backslash : character ≠ '\\')
    (rest : List Char) :
    closing (character :: rest) =
      (closing rest).map fun read => (character :: read.1, read.2) := by
  rw [closing, if_neg quote]
  · rintro rfl
    exact absurd rfl backslash
  · rintro other others rfl
    exact absurd rfl backslash

/-- No backslash stands alone before a line end or at the end of the text. -/
def settled : List Char → Bool
  | [] => true
  | ['\\'] => false
  | '\\' :: character :: rest => character != '\n' && settled rest
  | _ :: rest => settled rest

theorem settled_plain {character : Char} (backslash : character ≠ '\\') (text : List Char) :
    settled (character :: text) = settled text := by
  rw [settled]
  · rintro rfl
    exact absurd rfl backslash
  · rintro other others rfl
    exact absurd rfl backslash

theorem backslash_ne {character : Char} {text : List Char}
    (alone : character = '\\' → text = [] → False)
    (escaped : ∀ next rest, character = '\\' → text = next :: rest → False) :
    character ≠ '\\' := by
  intro backslash
  cases text with
  | nil => exact alone backslash rfl
  | cons next rest => exact escaped next rest backslash rfl

/-- A string is no longer than what it is read from, and as long only if it is
read as it is written. -/
theorem closing_length {text value rest : List Char} (read : closing text = some (value, rest)) :
    ∃ consumed, text = consumed ++ '"' :: rest ∧ value.length ≤ consumed.length ∧
      (value.length = consumed.length → '"' ∉ consumed ∧ settled consumed = true) := by
  induction text using closing.induct generalizing value with
  | case1 => cases read
  | case2 => cases read
  | case3 character text inductionHypothesis =>
      rw [closing, Option.map_eq_some_iff] at read
      obtain ⟨⟨inner, after⟩, found, same⟩ := read
      cases same
      obtain ⟨consumed, rfl, shorter, equal⟩ := inductionHypothesis found
      refine ⟨'\\' :: character :: consumed, rfl, ?_, ?_⟩
      · split_ifs <;> simp <;> omega
      · split_ifs with quote newline
        · intro long
          simp at long
          omega
        · intro long
          simp at long
          omega
        · intro long
          obtain ⟨noQuote, isSettled⟩ := equal (by simpa using long)
          simp [noQuote, Ne.symm quote, settled, newline, isSettled]
  | case4 text _ _ =>
      cases read
      exact ⟨[], rfl, by simp, fun _ => ⟨by simp, rfl⟩⟩
  | case5 character text alone escaped quote inductionHypothesis =>
      have plain : character ≠ '\\' := backslash_ne alone escaped
      rw [closing_plain quote plain, Option.map_eq_some_iff] at read
      obtain ⟨⟨inner, after⟩, found, same⟩ := read
      cases same
      obtain ⟨consumed, rfl, shorter, equal⟩ := inductionHypothesis found
      refine ⟨character :: consumed, rfl, by simpa using shorter, ?_⟩
      intro long
      obtain ⟨noQuote, isSettled⟩ := equal (by simpa using long)
      rw [settled_plain plain]
      exact ⟨by simp [noQuote, Ne.symm quote], isSettled⟩

theorem shown_plain {character : Char} (backslash : character ≠ '\\') (text : List Char) :
    shown (character :: text) = .character character :: shown text := by
  rw [shown]
  · rintro rfl
    exact absurd rfl backslash
  · rintro other others rfl
    exact absurd rfl backslash

/-- A label shows no more pieces than it is read from, and as many only if no quote
and no backslash is in them. -/
theorem shown_length {text value rest : List Char} (read : closing text = some (value, rest)) :
    ∃ consumed, text = consumed ++ '"' :: rest ∧ (shown value).length ≤ consumed.length ∧
      ((shown value).length = consumed.length → '"' ∉ consumed ∧ '\\' ∉ consumed) := by
  induction text using closing.induct generalizing value with
  | case1 => cases read
  | case2 => cases read
  | case3 character text inductionHypothesis =>
      rw [closing, Option.map_eq_some_iff] at read
      obtain ⟨⟨inner, after⟩, found, same⟩ := read
      cases same
      dsimp only
      obtain ⟨consumed, rfl, shorter, _⟩ := inductionHypothesis found
      have fewer : (shown (if character = '"' then '"' :: inner
          else if character = '\n' then inner else '\\' :: character :: inner)).length ≤
          (shown inner).length + 1 := by
        split_ifs
        · rw [shown_plain (by decide), List.length_cons]
        · exact Nat.le_succ _
        · simp [shown]
      refine ⟨'\\' :: character :: consumed, rfl, ?_, ?_⟩
      · rw [List.length_cons, List.length_cons]
        omega
      · rw [List.length_cons, List.length_cons]
        omega
  | case4 text _ _ =>
      cases read
      exact ⟨[], rfl, by simp [shown], fun _ => by simp⟩
  | case5 character text alone escaped quote inductionHypothesis =>
      have plain : character ≠ '\\' := backslash_ne alone escaped
      rw [closing_plain quote plain, Option.map_eq_some_iff] at read
      obtain ⟨⟨inner, after⟩, found, same⟩ := read
      cases same
      dsimp only
      obtain ⟨consumed, rfl, shorter, equal⟩ := inductionHypothesis found
      refine ⟨character :: consumed, rfl, ?_, ?_⟩
      · rw [shown_plain plain, List.length_cons, List.length_cons]
        omega
      · rw [shown_plain plain, List.length_cons, List.length_cons]
        intro long
        obtain ⟨noQuote, noBackslash⟩ := equal (by omega)
        simp [noQuote, noBackslash, Ne.symm quote, Ne.symm plain]

/-- Where a string ends that is written between two quotes: inside of it, at its
closing quote, or behind that one, which a backslash escapes. -/
theorem closing_cases {text after value rest : List Char}
    (read : closing (text ++ '"' :: after) = some (value, rest)) :
    (∃ inside, rest = inside ++ '"' :: after ∧ inside.length < text.length) ∨ rest = after ∨
      (∃ before, text = before ++ ['\\']) ∧
        ∃ tail, closing after = some (tail, rest) ∧ ∃ start, value = start ++ '"' :: tail := by
  induction text using closing.induct generalizing value with
  | case1 =>
      cases read
      exact Or.inr (Or.inl rfl)
  | case2 =>
      have escaped : closing ('\\' :: '"' :: after) = some (value, rest) := read
      rw [closing, Option.map_eq_some_iff] at escaped
      obtain ⟨⟨tail, ending⟩, found, same⟩ := escaped
      cases same
      exact Or.inr (Or.inr ⟨⟨[], rfl⟩, tail, found, [], rfl⟩)
  | case3 character text inductionHypothesis =>
      have escaped : closing ('\\' :: character :: (text ++ '"' :: after)) = some (value, rest) :=
        read
      rw [closing, Option.map_eq_some_iff] at escaped
      obtain ⟨⟨inner, ending⟩, found, same⟩ := escaped
      cases same
      rcases inductionHypothesis found with
        ⟨inside, ends, shorter⟩ | ends | ⟨⟨before, rfl⟩, tail, read, start, rfl⟩
      · exact Or.inl ⟨inside, ends, by simp; omega⟩
      · exact Or.inr (Or.inl ends)
      · refine Or.inr (Or.inr ⟨⟨'\\' :: character :: before, rfl⟩, tail, read, ?_⟩)
        dsimp only
        split_ifs
        · exact ⟨'"' :: start, rfl⟩
        · exact ⟨start, rfl⟩
        · exact ⟨'\\' :: character :: start, rfl⟩
  | case4 text _ _ =>
      rw [List.cons_append, closing_quote, Option.some.injEq, Prod.mk.injEq] at read
      exact Or.inl ⟨text, read.2.symm, by simp⟩
  | case5 character text alone escaped quote inductionHypothesis =>
      rw [List.cons_append, closing_plain quote (backslash_ne alone escaped),
        Option.map_eq_some_iff] at read
      obtain ⟨⟨inner, ending⟩, found, same⟩ := read
      cases same
      rcases inductionHypothesis found with
        ⟨inside, ends, shorter⟩ | ends | ⟨⟨before, rfl⟩, tail, read, start, rfl⟩
      · exact Or.inl ⟨inside, ends, by simp; omega⟩
      · exact Or.inr (Or.inl ends)
      · exact Or.inr (Or.inr ⟨⟨character :: before, rfl⟩, tail, read, character :: start, rfl⟩)

/-- What stands for itself stays in front of what is read behind it. -/
theorem closing_append {start : List Char} (quote : '"' ∉ start) (isSettled : settled start = true)
    (text : List Char) :
    closing (start ++ text) = (closing text).map fun read => (start ++ read.1, read.2) := by
  induction start using closing.induct with
  | case1 => simp
  | case2 => cases isSettled
  | case3 character start inductionHypothesis =>
      rw [settled, Bool.and_eq_true, bne_iff_ne] at isSettled
      rw [List.mem_cons, List.mem_cons, not_or, not_or] at quote
      rw [List.cons_append, List.cons_append, closing,
        inductionHypothesis quote.2.2 isSettled.2, Option.map_map]
      simp [Function.comp_def, Ne.symm quote.2.1, isSettled.1]
  | case4 start _ _ => exact absurd List.mem_cons_self quote
  | case5 character start alone escaped notQuote inductionHypothesis =>
      have plain : character ≠ '\\' := backslash_ne alone escaped
      rw [settled_plain plain] at isSettled
      rw [List.cons_append, closing_plain notQuote plain,
        inductionHypothesis (fun member => quote (by simp [member])) isSettled, Option.map_map]
      rfl

theorem closing_verbatim {text : List Char} (quote : '"' ∉ text) (isSettled : settled text = true)
    (after : List Char) : closing (text ++ '"' :: after) = some (text, after) := by
  rw [closing_append quote isSettled, closing_quote, Option.map_some, List.append_nil]

/-- A string is read back only if it stands for itself. -/
theorem verbatim_of_closing {text after rest : List Char}
    (read : closing (text ++ '"' :: after) = some (text, rest))
    (behind : ∀ tail, closing after = some (tail, rest) → ∃ before last,
      tail = before ++ [last] ∧ last ≠ '\\') :
    ('"' ∉ text ∧ settled text = true) ∧ rest = after := by
  obtain ⟨consumed, split, shorter, equal⟩ := closing_length read
  have lengths := congrArg List.length split
  rw [List.length_append, List.length_append, List.length_cons, List.length_cons] at lengths
  rcases closing_cases read with ⟨inside, rfl, less⟩ | rfl | ⟨⟨before, escaped⟩, tail, found, start, same⟩
  · rw [List.length_append, List.length_cons] at lengths
    omega
  · obtain rfl := List.append_cancel_right split
    exact ⟨equal rfl, rfl⟩
  · obtain ⟨middle, last, rfl, apart⟩ := behind tail found
    have last_eq := escaped.symm.trans same
    rw [← List.cons_append, ← List.append_assoc] at last_eq
    exact absurd (List.cons.inj (List.append_inj' last_eq rfl).2).1.symm apart

/-- A label shows what is written only if there is no quote and no backslash in it. -/
theorem plain_of_closing {text after value rest : List Char}
    (read : closing (text ++ '"' :: after) = some (value, rest))
    (same : shown value = plainPieces text) :
    (('"' ∉ text ∧ '\\' ∉ text) ∧ rest = after) ∨ ∃ tail, closing after = some (tail, rest) := by
  obtain ⟨consumed, split, shorter, equal⟩ := shown_length read
  have lengths := congrArg List.length split
  rw [List.length_append, List.length_append, List.length_cons, List.length_cons] at lengths
  rw [same, plainPieces, List.length_map] at shorter equal
  rcases closing_cases read with ⟨inside, rfl, less⟩ | rfl | ⟨_, tail, found, _⟩
  · rw [List.length_append, List.length_cons] at lengths
    omega
  · obtain rfl := List.append_cancel_right split
    exact Or.inl ⟨equal rfl, rfl⟩
  · exact Or.inr ⟨tail, found⟩

theorem settled_of_plain {text : List Char} (backslash : '\\' ∉ text) : settled text = true := by
  induction text with
  | nil => rfl
  | cons character text inductionHypothesis =>
      rw [List.mem_cons, not_or] at backslash
      rw [settled_plain (Ne.symm backslash.1), inductionHypothesis backslash.2]

theorem shown_of_plain {text : List Char} (backslash : '\\' ∉ text) :
    shown text = plainPieces text := by
  induction text with
  | nil => rfl
  | cons character text inductionHypothesis =>
      rw [List.mem_cons, not_or] at backslash
      rw [shown_plain (Ne.symm backslash.1), inductionHypothesis backslash.2]
      rfl

/-! ## Reading a quoted string -/

theorem run_silent {reading next : Reading} {character : Char}
    (read : readChar reading character = some ([], next)) (place : Place) (rest : List Char) :
    reader.run (reading, place) (character :: rest) = reader.run (next, place) rest := by
  refine Transducer.run_cons_of_silent ?_ rest
  change (readChar reading character).bind _ = _
  rw [read]
  rfl

theorem run_escape (read : List Char) (place : Place) (character : Char) (rest : List Char) :
    reader.run (.quoted read, place) ('\\' :: character :: rest) =
      reader.run (.quoted (read ++
        if character = '"' then ['"'] else if character = '\n' then [] else ['\\', character]), place)
        rest := by
  have backslash : readChar (.quoted read) '\\' = some ([], .escaped read) := rfl
  rw [run_silent backslash]
  refine run_silent ?_ place rest
  simp only [readChar]
  split_ifs
  · rfl
  · rw [List.append_nil]
  · rfl

theorem run_plain {character : Char} (quote : character ≠ '"') (backslash : character ≠ '\\')
    (read : List Char) (place : Place) (rest : List Char) :
    reader.run (.quoted read, place) (character :: rest) =
      reader.run (.quoted (read ++ [character]), place) rest := by
  refine run_silent ?_ place rest
  rw [readChar, if_neg quote, if_neg backslash]

theorem run_closing_quote (read : List Char) (place : Place) (rest : List Char) :
    reader.run (.quoted read, place) ('"' :: rest) =
      (readToken place (.quoted read)).bind fun stepped =>
        (reader.run (.between, stepped.2) rest).map fun later =>
          (stepped.1 ++ later.1, later.2) := by
  have step : reader.step (.quoted read, place) '"' =
      (parser.run place [.quoted read]).map fun later => (later.1, .between, later.2) := rfl
  rw [Transducer.run_cons, step, Transducer.run_cons]
  change ((readToken place (.quoted read)).bind _ |>.map _).bind _ = _
  cases readToken place (.quoted read) with
  | none => rfl
  | some stepped => simp [Transducer.run_nil]

/-- A quoted string is one token. -/
theorem run_quoted {text value rest : List Char} (closed : closing text = some (value, rest))
    (read : List Char) (place : Place) :
    reader.run (.quoted read, place) text =
      (readToken place (.quoted (read ++ value))).bind fun stepped =>
        (reader.run (.between, stepped.2) rest).map fun later =>
          (stepped.1 ++ later.1, later.2) := by
  induction text using closing.induct generalizing read value with
  | case1 => cases closed
  | case2 => cases closed
  | case3 character text inductionHypothesis =>
      rw [closing, Option.map_eq_some_iff] at closed
      obtain ⟨⟨inner, after⟩, found, same⟩ := closed
      cases same
      dsimp only
      rw [run_escape, inductionHypothesis found, List.append_assoc]
      congr 4
      split_ifs <;> rfl
  | case4 text _ _ =>
      cases closed
      rw [run_closing_quote, List.append_nil]
  | case5 character text alone escaped quote inductionHypothesis =>
      have plain : character ≠ '\\' := backslash_ne alone escaped
      rw [closing_plain quote plain, Option.map_eq_some_iff] at closed
      obtain ⟨⟨inner, after⟩, found, same⟩ := closed
      cases same
      rw [run_plain quote plain, inductionHypothesis found, List.append_assoc, List.singleton_append]

/-- A document does not end within a quoted string. -/
theorem closing_of_run {text read : List Char} {place ending : Place} {outputs : List Statement}
    (whole : reader.run (.quoted read, place) text = some (outputs, .between, ending)) :
    ∃ value rest, closing text = some (value, rest) := by
  induction text using closing.induct generalizing read with
  | case1 => cases whole
  | case2 =>
      have backslash : readChar (.quoted read) '\\' = some ([], .escaped read) := rfl
      rw [run_silent backslash] at whole
      cases whole
  | case3 character text inductionHypothesis =>
      rw [run_escape] at whole
      obtain ⟨value, rest, found⟩ := inductionHypothesis whole
      rw [closing, found]
      exact ⟨_, _, rfl⟩
  | case4 text _ _ => exact ⟨_, _, rfl⟩
  | case5 character text alone escaped quote inductionHypothesis =>
      have plain : character ≠ '\\' := backslash_ne alone escaped
      rw [run_plain quote plain] at whole
      obtain ⟨value, rest, found⟩ := inductionHypothesis whole
      rw [closing_plain quote plain, found]
      exact ⟨_, _, rfl⟩

/-- What a run that starts within a quoted string reads. -/
theorem of_run_quoted {text : List Char} {place ending : Place} {outputs : List Statement}
    (whole : reader.run (.quoted [], place) text = some (outputs, .between, ending)) :
    ∃ value rest, closing text = some (value, rest) ∧
      ∃ first next, readToken place (.quoted value) = some (first, next) ∧
        ∃ later, reader.run (.between, next) rest = some (later, .between, ending) ∧
          outputs = first ++ later := by
  obtain ⟨value, rest, closed⟩ := closing_of_run whole
  rw [run_quoted closed, List.nil_append, Option.bind_eq_some_iff] at whole
  obtain ⟨⟨first, next⟩, token, others⟩ := whole
  rw [Option.map_eq_some_iff] at others
  obtain ⟨⟨later, final⟩, behind, same⟩ := others
  cases same
  exact ⟨value, rest, closed, first, next, token, later, behind, rfl⟩

/-- A quoted string where an id is expected. -/
theorem run_token {text value rest : List Char} {place next : Place}
    (closed : closing text = some (value, rest))
    (token : readToken place (.quoted value) = some ([], next)) :
    reader.run (.quoted [], place) text = reader.run (.between, next) rest := by
  rw [run_quoted closed, List.nil_append, token, Option.bind_some]
  simp

/-! ## The statement that is being read -/

section First

variable {property : Subject → Attributes → Prop}

/-- The statement that is being read has a property so far. -/
def Place.within (property : Subject → Attributes → Prop) : Place → Prop
  | .named subject => property subject []
  | .target source => ∀ target, property (.edge source target) []
  | .attributes subject read | .equals subject read _ | .value subject read _
  | .separator subject read => property subject read
  | .start | .title | .opening | .statements | .ended => False

/-- More attributes and the target of an edge do not change the property. -/
structure Lasting (property : Subject → Attributes → Prop) : Prop where
  extend : ∀ subject read entry, property subject read → property subject (read ++ [entry])
  link : ∀ source target, property (.node source) [] → property (.edge source target) []

/-- The first id of a statement. -/
def Subject.source : Subject → Option (List Char)
  | .defaults _ => none
  | .node id => some id
  | .edge source _ => some source

theorem lasting_source (id : List Char) : Lasting fun subject _ => subject.source = some id where
  extend _ _ _ here := here
  link _ _ here := here

theorem lasting_edge (source target : List Char) :
    Lasting fun subject _ => subject = .edge source target where
  extend _ _ _ here := here
  link _ _ here := by cases here

theorem lasting_attribute (entry : List Char × List Char) :
    Lasting fun _ read => read.head? = some entry where
  extend _ read _ here := by
    cases read with
    | nil => cases here
    | cons first read => exact here
  link _ _ here := by cases here

theorem within_readAttribute {subject : Subject} {read : Attributes} {token : Token}
    {written : List Statement} {next : Place} (here : property subject read)
    (step : readAttribute subject read token = some (written, next)) :
    (written = [] ∧ next.within property) ∨
      ∃ statement others, written = statement :: others ∧
        property statement.subject statement.attributes := by
  unfold readAttribute at step
  split_ifs at step with close
  · cases step
    exact Or.inr ⟨_, _, rfl, here⟩
  · obtain ⟨key, _, same⟩ := Option.map_eq_some_iff.mp step
    cases same
    exact Or.inl ⟨rfl, here⟩

/-- A subject is followed by an arrow, a list of attributes or the end. -/
theorem readToken_named {subject : Subject} {token : Token} {written : List Statement}
    {next : Place} (step : readToken (.named subject) token = some (written, next)) :
    (∃ source, subject = .node source ∧ written = [] ∧ next = .target source) ∨
      (written = [] ∧ next = .attributes subject []) ∨
      (written = [⟨subject, []⟩] ∧ next = .statements) := by
  by_cases link : token = .arrow
  · subst link
    cases subject with
    | node source =>
        cases step
        exact Or.inl ⟨source, rfl, rfl, rfl⟩
    | defaults keyword => cases step
    | edge source target => cases step
  · have list : readToken (.named subject) token =
        if token = .mark '[' then some ([], .attributes subject [])
        else if token = .mark ';' then some ([⟨subject, []⟩], .statements)
        else none := by
      cases subject <;> cases token <;> first | rfl | exact absurd rfl link
    rw [list] at step
    split_ifs at step
    · cases step
      exact Or.inr (Or.inl ⟨rfl, rfl⟩)
    · cases step
      exact Or.inr (Or.inr ⟨rfl, rfl⟩)

theorem within_readToken (lasting : Lasting property) (place : Place) (token : Token)
    (written : List Statement) (next : Place) (here : place.within property)
    (step : readToken place token = some (written, next)) :
    (written = [] ∧ next.within property) ∨
      ∃ statement others, written = statement :: others ∧
        property statement.subject statement.attributes := by
  cases place with
  | start => cases here
  | title => cases here
  | opening => cases here
  | statements => cases here
  | ended => cases here
  | named subject =>
      rcases readToken_named step with ⟨source, rfl, rfl, rfl⟩ | ⟨rfl, rfl⟩ | ⟨rfl, rfl⟩
      · exact Or.inl ⟨rfl, fun target => lasting.link source target here⟩
      · exact Or.inl ⟨rfl, here⟩
      · exact Or.inr ⟨_, _, rfl, here⟩
  | target source =>
      obtain ⟨target, _, same⟩ := Option.map_eq_some_iff.mp step
      cases same
      exact Or.inl ⟨rfl, here target⟩
  | attributes subject read => exact within_readAttribute here step
  | equals subject read key =>
      rw [readToken] at step
      split_ifs at step
      cases step
      exact Or.inl ⟨rfl, here⟩
  | value subject read key =>
      obtain ⟨value, _, same⟩ := Option.map_eq_some_iff.mp step
      cases same
      exact Or.inl ⟨rfl, lasting.extend subject read _ here⟩
  | separator subject read =>
      rw [readToken] at step
      split_ifs at step
      · cases step
        exact Or.inl ⟨rfl, here⟩
      · exact within_readAttribute here step

/-- The first statement of the rest of a document is the one that is being read. -/
theorem first_statement (lasting : Lasting property) {reading : Reading} {place : Place}
    {text : List Char} {all : List Statement} (here : place.within property)
    (whole : reader.run (reading, place) text = some (all, .between, .ended)) :
    ∃ statement others, all = statement :: others ∧
      property statement.subject statement.attributes := by
  rcases Transducer.andThen_first (within_readToken lasting) here whole with ⟨_, nothing⟩ | first
  · cases nothing
  · exact first

end First

end SystemPilot.Library.Dot
