import SystemPilot.Causal.Report
import SystemPilot.Library.Dot

/-!
# The DOT export

`export_graph_to_dot` writes ids and names between quotes as they are.  A reader of
the language finds the nodes and edges of the path in it exactly when none of these
strings ends its quotes or starts an escape.
-/

set_option autoImplicit false

namespace SystemPilot.Causal

open SystemPilot.Library SystemPilot.Library.Dot

/-! ## The text -/

section Text

variable {Rate : Type} (graph : CausalGraph Rate) (path : List String)

def label (node : GraphNode Rate) : String :=
  if node.nodeType = .process then
    node.name ++ " (PID: " ++ toString node.pid.toInt ++ ")"
  else "[Resource]\\n" ++ node.name

def fill (node : GraphNode Rate) : String :=
  if node.isAnomalous then "#7f1d1d"
  else if node.nodeType = .resource then "#0f172a"
  else "#0284c7"

def stroke (node : GraphNode Rate) : String :=
  if node.isAnomalous then "#ef4444"
  else if node.nodeType = .resource then "#334155"
  else "#38bdf8"

def color : EdgeType → String
  | .writesTo => "#f97316"
  | .readsFrom => "#38bdf8"
  | .blockedOn => "#ef4444"
  | .contendsWith => "#eab308"
  | .spawnedBy => "#475569"

def nodeLine (id : String) (node : GraphNode Rate) : List Char :=
  "    \"".toList ++ (id.toList ++ ("\" [label=\"".toList ++ ((label node).toList ++
    ("\", fillcolor=\"".toList ++ (fill node).toList ++ "\", color=\"".toList ++
      (stroke node).toList ++ "\", fontcolor=\"#f8fafc\"];\n".toList))))

def edgeLine (edge : GraphEdge) : List Char :=
  "    \"".toList ++ (edge.fromId.toList ++ ("\" -> \"".toList ++ (edge.toId.toList ++
    ("\" [label=\"".toList ++ edge.edgeType.asStr.toList ++ "\", color=\"".toList ++
      (color edge.edgeType).toList ++ "\"];\n".toList))))

/-- The ids of a path that name a node, with their nodes. -/
def presentNodes : List (String × GraphNode Rate) :=
  path.filterMap fun id => (graph.node id).map fun node => (id, node)

def chainEdges : List GraphEdge := graph.edges.filter (onPath path)

def dotHeader : List Char :=
  "digraph CausalTrace \x7b\n    node [style=\"filled,rounded\", shape=box];\n    edge [color=\"#94a3b8\"];\n\n".toList

/-- `export_graph_to_dot`. -/
def exportGraphToDot : List Char :=
  dotHeader ++ ((presentNodes graph path).flatMap fun entry => nodeLine entry.1 entry.2) ++
    '\n' :: ((chainEdges graph path).flatMap edgeLine ++ "\x7d\n".toList)

end Text

/-! ## The drawing -/

/-- A statement as it is drawn. -/
inductive Drawn where
  | defaults
  | node (id : List Char) (label : Option (List Piece))
  | edge (source target : List Char) (label : Option (List Piece))
  deriving DecidableEq

def drawn (statement : Statement) : Drawn :=
  match statement.subject with
  | .defaults _ => .defaults
  | .node id => .node id statement.label
  | .edge source target => .edge source target statement.label

section Drawing

variable {Rate : Type} (graph : CausalGraph Rate) (path : List String)

/-- The label of a node as it is to be shown. -/
def shownLabel (node : GraphNode Rate) : String :=
  if node.nodeType = .process then
    node.name ++ " (PID: " ++ toString node.pid.toInt ++ ")"
  else "[Resource]\n" ++ node.name

def drawnNode (entry : String × GraphNode Rate) : Drawn :=
  .node entry.1.toList (some (plainPieces (shownLabel entry.2).toList))

def drawnEdge (edge : GraphEdge) : Drawn :=
  .edge edge.fromId.toList edge.toId.toList (some (plainPieces edge.edgeType.asStr.toList))

/-- What the text of a path is to be read as. -/
def drawing : List Drawn :=
  [.defaults, .defaults] ++ (presentNodes graph path).map drawnNode ++
    (chainEdges graph path).map drawnEdge

/-- The text is a document with one statement for each node of the path and for each
edge between them. -/
def WellFormed : Prop :=
  ∃ statements, parse (exportGraphToDot graph path) = some statements ∧
    statements.map drawn = drawing graph path

end Drawing

/-- The text stands for itself between quotes. -/
def Verbatim (text : String) : Prop := '"' ∉ text.toList ∧ settled text.toList = true

/-- No character of a name ends its quotes or starts an escape. -/
def Unescaped (name : String) : Prop := '"' ∉ name.toList ∧ '\\' ∉ name.toList

/-! ## Reading on -/

/-- What is left of a document reads as the rest of a drawing. -/
def Reads (text : List Char) (others : List Drawn) : Prop :=
  ∃ statements, reader.run (.between, .statements) text = some (statements, .between, .ended) ∧
    statements.map drawn = others

theorem reads_cons_iff {text after : List Char} {statement : Statement} {others : List Drawn}
    (read : reader.run (.between, .statements) text =
      (reader.run (.between, .statements) after).map fun later =>
        (statement :: later.1, later.2)) :
    Reads text (drawn statement :: others) ↔ Reads after others := by
  unfold Reads
  rw [read]
  constructor
  · rintro ⟨statements, whole, same⟩
    obtain ⟨⟨later, ending⟩, behind, equal⟩ := Option.map_eq_some_iff.mp whole
    cases equal
    exact ⟨later, behind, (List.cons.inj same).2⟩
  · rintro ⟨statements, whole, rfl⟩
    exact ⟨statement :: statements, by rw [whole, Option.map_some], rfl⟩

/-! ## Nodes -/

section Nodes

variable {Rate : Type}

def nodeStatement (id : String) (node : GraphNode Rate) : Statement where
  subject := .node id.toList
  attributes := [
    ("label".toList, (label node).toList),
    ("fillcolor".toList, (fill node).toList),
    ("color".toList, (stroke node).toList),
    ("fontcolor".toList, "#f8fafc".toList)]

set_option maxRecDepth 2000 in
/-- Behind the label there is nothing of the node any more. -/
theorem run_colors (node : GraphNode Rate) (id text after : List Char) :
    reader.run (.between, .separator (.node id) [("label".toList, text)])
        (", fillcolor=\"".toList ++ (fill node).toList ++ "\", color=\"".toList ++
          (stroke node).toList ++ "\", fontcolor=\"#f8fafc\"];\n".toList ++ after) =
      (reader.run (.between, .statements) after).map fun later =>
        (⟨.node id, [("label".toList, text), ("fillcolor".toList, (fill node).toList),
          ("color".toList, (stroke node).toList), ("fontcolor".toList, "#f8fafc".toList)]⟩ ::
          later.1, later.2) := by
  have colors : reader.run (.between, .separator (.node id) [("label".toList, text)])
      (", fillcolor=\"".toList ++ (fill node).toList ++ "\", color=\"".toList ++
        (stroke node).toList ++ "\", fontcolor=\"#f8fafc\"];\n".toList) =
      some ([⟨.node id, [("label".toList, text), ("fillcolor".toList, (fill node).toList),
        ("color".toList, (stroke node).toList), ("fontcolor".toList, "#f8fafc".toList)]⟩],
        .between, .statements) := by
    unfold fill stroke
    split_ifs <;> rfl
  exact Transducer.run_append colors after

/-- The line of a node, cut at its id and its label. -/
theorem nodeLine_append (id : String) (node : GraphNode Rate) (after : List Char) :
    nodeLine id node ++ after =
      "    \"".toList ++ (id.toList ++ '"' :: (" [label=\"".toList ++ ((label node).toList ++
        '"' :: (", fillcolor=\"".toList ++ (fill node).toList ++ "\", color=\"".toList ++
          (stroke node).toList ++ "\", fontcolor=\"#f8fafc\"];\n".toList ++ after)))) := by
  simp [nodeLine]

theorem plain_pid (pid : Int32) :
    '"' ∉ pid.toInt.repr.toList ∧ '\\' ∉ pid.toInt.repr.toList := by
  have digits : ∀ (value : Nat) (character : Char), character.isDigit = false →
      character ∉ Nat.toDigits 10 value := by
    intro value character other member
    rw [Nat.isDigit_of_mem_toDigits (by omega) (by omega) member] at other
    cases other
  cases pid.toInt with
  | ofNat value =>
      simp [Int.repr, digits value '"' (by decide), digits value '\\' (by decide)]
  | negSucc value =>
      simp [Int.repr, digits (value + 1) '"' (by decide), digits (value + 1) '\\' (by decide)]

theorem verbatim_label {node : GraphNode Rate} (plain : Unescaped node.name) :
    Verbatim (label node) := by
  obtain ⟨quote, backslash⟩ := plain
  obtain ⟨pidQuote, pidBackslash⟩ := plain_pid node.pid
  unfold label
  split_ifs with process
  · have noBackslash : '\\' ∉
        (node.name ++ " (PID: " ++ toString node.pid.toInt ++ ")").toList := by
      simp [backslash, pidBackslash]
    exact ⟨by simp [quote, pidQuote], settled_of_plain noBackslash⟩
  · refine ⟨by simp [quote], ?_⟩
    rw [String.toList_append]
    change settled node.name.toList = true
    exact settled_of_plain backslash

theorem shown_label {node : GraphNode Rate} (plain : Unescaped node.name) :
    shown (label node).toList = plainPieces (shownLabel node).toList := by
  unfold label shownLabel
  split_ifs with process
  · refine shown_of_plain ?_
    simp [plain.2, (plain_pid node.pid).2]
  · rw [String.toList_append, String.toList_append]
    change plainPieces "[Resource]\n".toList ++ shown node.name.toList = _
    rw [shown_of_plain plain.2]
    simp [plainPieces]

theorem run_indent : reader.run (.between, .statements) "    \"".toList =
    some ([], .quoted [], .statements) := rfl

theorem run_list (subject : Subject) : reader.run (.between, .named subject) " [label=\"".toList =
    some ([], .quoted [], .value subject [] "label".toList) := by
  cases subject <;> rfl

theorem run_nodeLine {id : String} {node : GraphNode Rate} (verbatim : Verbatim id)
    (plain : Unescaped node.name) (after : List Char) :
    reader.run (.between, .statements) (nodeLine id node ++ after) =
      (reader.run (.between, .statements) after).map fun later =>
        (nodeStatement id node :: later.1, later.2) := by
  have text := verbatim_label plain
  rw [nodeLine_append, Transducer.run_append_of_silent run_indent,
    run_token (closing_verbatim verbatim.1 verbatim.2 _) rfl, Transducer.run_append_of_silent (run_list _),
    run_token (closing_verbatim text.1 text.2 _) rfl]
  exact run_colors node id.toList (label node).toList after

theorem drawn_eq_node {statement : Statement} {id : List Char} {text : Option (List Piece)}
    (same : drawn statement = .node id text) :
    statement.subject = .node id ∧ statement.label = text := by
  obtain ⟨subject, attributes⟩ := statement
  cases subject with
  | defaults keyword => cases same
  | edge source target => cases same
  | node other =>
      cases same
      exact ⟨rfl, rfl⟩

theorem label_of_head {statement : Statement} {text : List Char}
    (here : statement.attributes.head? = some ("label".toList, text)) :
    statement.label = some (shown text) := by
  obtain ⟨subject, attributes⟩ := statement
  cases attributes with
  | nil => cases here
  | cons first attributes =>
      obtain rfl := Option.some.inj here
      rfl

theorem name_of_shown {node : GraphNode Rate} {value rest after : List Char}
    (closed : closing ((label node).toList ++ '"' :: after) = some (value, rest))
    (same : shown value = plainPieces (shownLabel node).toList) :
    Unescaped node.name ∨ ∃ tail, closing after = some (tail, rest) := by
  unfold label at closed
  unfold shownLabel at same
  split_ifs at closed same with process
  · rcases plain_of_closing closed same with ⟨⟨quote, backslash⟩, _⟩ | behind
    · simp only [String.toList_append, List.mem_append, not_or] at quote backslash
      exact Or.inl ⟨quote.1.1.1, backslash.1.1.1⟩
    · exact Or.inr behind
  · rw [String.toList_append, List.append_assoc, closing_append (by decide) (by decide),
      Option.map_eq_some_iff] at closed
    obtain ⟨⟨inner, ending⟩, found, cut⟩ := closed
    cases cut
    have rest_same : plainPieces "[Resource]\n".toList ++ shown inner =
        plainPieces "[Resource]\n".toList ++ plainPieces node.name.toList := by
      rw [String.toList_append, plainPieces, List.map_append] at same
      exact same
    rcases plain_of_closing found (List.append_cancel_left rest_same) with ⟨plain, _⟩ | behind
    · exact Or.inl plain
    · exact Or.inr behind

/-- The line of a node is read as that node only if its id and its name allow it. -/
theorem node_of_reads {id : String} {node : GraphNode Rate} {after : List Char}
    {others : List Drawn}
    (reads : Reads (nodeLine id node ++ after) (drawnNode (id, node) :: others)) :
    Verbatim id ∧ Unescaped node.name := by
  obtain ⟨statements, whole, same⟩ := reads
  rw [nodeLine_append, Transducer.run_append_of_silent run_indent] at whole
  obtain ⟨value, rest, closed, first, next, token, later, behind, rfl⟩ := of_run_quoted whole
  cases token
  have beginning : Place.within (fun subject _ => subject.source = some value)
      (.named (.node value)) := rfl
  obtain ⟨statement, others', rfl, source⟩ :=
    first_statement (lasting_source value) beginning behind
  obtain ⟨subject, text⟩ := drawn_eq_node (List.cons.inj same).1
  rw [subject] at source
  obtain rfl := Option.some.inj source
  have list_end : ∀ tail, closing (" [label=\"".toList ++ ((label node).toList ++
      '"' :: (", fillcolor=\"".toList ++ (fill node).toList ++ "\", color=\"".toList ++
        (stroke node).toList ++ "\", fontcolor=\"#f8fafc\"];\n".toList ++ after))) =
      some (tail, rest) → ∃ before last, tail = before ++ [last] ∧ last ≠ '\\' := by
    intro tail found
    cases found
    exact ⟨" [label".toList, '=', rfl, by decide⟩
  obtain ⟨verbatim, rfl⟩ := verbatim_of_closing closed list_end
  refine ⟨verbatim, ?_⟩
  rw [Transducer.run_append_of_silent (run_list _)] at behind
  obtain ⟨value, rest, labelClosed, first, next, token, later, colors, split⟩ :=
    of_run_quoted behind
  cases token
  have labelled : Place.within (fun _ read => read.head? = some ("label".toList, value))
      (.separator (.node id.toList) [("label".toList, value)]) := rfl
  obtain ⟨current, others', rfl, leading⟩ :=
    first_statement (lasting_attribute ("label".toList, value)) labelled colors
  obtain ⟨rfl, _⟩ := List.cons.inj split
  have shownSame : shown value = plainPieces (shownLabel node).toList :=
    Option.some.inj ((label_of_head leading).symm.trans text)
  rcases name_of_shown labelClosed shownSame with plain | ⟨tail, ending⟩
  · exact plain
  · -- a label that goes on behind its quote ends before a color, which is no token
    obtain ⟨color, hash⟩ : ∃ color, rest = '#' :: color := by
      cases ending
      unfold fill
      split_ifs <;> exact ⟨_, rfl⟩
    rw [hash] at colors
    cases colors

theorem reads_nodeLine_iff {id : String} {node : GraphNode Rate} {after : List Char}
    {others : List Drawn} :
    Reads (nodeLine id node ++ after) (drawnNode (id, node) :: others) ↔
      (Verbatim id ∧ Unescaped node.name) ∧ Reads after others := by
  have read : Verbatim id ∧ Unescaped node.name →
      (Reads (nodeLine id node ++ after) (drawnNode (id, node) :: others) ↔
        Reads after others) := by
    rintro ⟨verbatim, plain⟩
    have view : drawn (nodeStatement id node) = drawnNode (id, node) := by
      change Drawn.node id.toList (some (shown (label node).toList)) = _
      rw [shown_label plain]
      rfl
    rw [← view]
    exact reads_cons_iff (run_nodeLine verbatim plain after)
  constructor
  · intro reads
    have good := node_of_reads reads
    exact ⟨good, (read good).mp reads⟩
  · rintro ⟨good, reads⟩
    exact (read good).mpr reads

end Nodes

/-! ## Edges -/

def edgeStatement (edge : GraphEdge) : Statement where
  subject := .edge edge.fromId.toList edge.toId.toList
  attributes := [
    ("label".toList, edge.edgeType.asStr.toList),
    ("color".toList, (color edge.edgeType).toList)]

theorem edgeLine_append (edge : GraphEdge) (after : List Char) :
    edgeLine edge ++ after =
      "    \"".toList ++ (edge.fromId.toList ++ '"' :: (" -> \"".toList ++ (edge.toId.toList ++
        '"' :: (" [label=\"".toList ++ edge.edgeType.asStr.toList ++ "\", color=\"".toList ++
          (color edge.edgeType).toList ++ "\"];\n".toList ++ after)))) := by
  simp [edgeLine]

theorem run_arrow (source : List Char) :
    reader.run (.between, .named (.node source)) " -> \"".toList =
      some ([], .quoted [], .target source) := rfl

theorem run_edgeEnd (source target after : List Char) (kind : EdgeType) :
    reader.run (.between, .named (.edge source target))
        (" [label=\"".toList ++ kind.asStr.toList ++ "\", color=\"".toList ++
          (color kind).toList ++ "\"];\n".toList ++ after) =
      (reader.run (.between, .statements) after).map fun later =>
        (⟨.edge source target, [("label".toList, kind.asStr.toList),
          ("color".toList, (color kind).toList)]⟩ :: later.1, later.2) := by
  have ending : reader.run (.between, .named (.edge source target))
      (" [label=\"".toList ++ kind.asStr.toList ++ "\", color=\"".toList ++
        (color kind).toList ++ "\"];\n".toList) =
      some ([⟨.edge source target, [("label".toList, kind.asStr.toList),
        ("color".toList, (color kind).toList)]⟩], .between, .statements) := by
    cases kind <;> rfl
  exact Transducer.run_append ending after

theorem run_edgeLine {edge : GraphEdge} (source : Verbatim edge.fromId)
    (target : Verbatim edge.toId) (after : List Char) :
    reader.run (.between, .statements) (edgeLine edge ++ after) =
      (reader.run (.between, .statements) after).map fun later =>
        (edgeStatement edge :: later.1, later.2) := by
  rw [edgeLine_append, Transducer.run_append_of_silent run_indent,
    run_token (closing_verbatim source.1 source.2 _) rfl,
    Transducer.run_append_of_silent (run_arrow _),
    run_token (closing_verbatim target.1 target.2 _) rfl]
  exact run_edgeEnd edge.fromId.toList edge.toId.toList after edge.edgeType

theorem drawn_eq_edge {statement : Statement} {source target : List Char}
    {text : Option (List Piece)} (same : drawn statement = .edge source target text) :
    statement.subject = .edge source target := by
  obtain ⟨subject, attributes⟩ := statement
  cases subject with
  | defaults keyword => cases same
  | node id => cases same
  | edge first last =>
      cases same
      rfl

theorem edge_of_reads {edge : GraphEdge} {after : List Char} {others : List Drawn}
    (reads : Reads (edgeLine edge ++ after) (drawnEdge edge :: others)) :
    Verbatim edge.fromId ∧ Verbatim edge.toId := by
  obtain ⟨statements, whole, same⟩ := reads
  rw [edgeLine_append, Transducer.run_append_of_silent run_indent] at whole
  obtain ⟨value, rest, closed, first, next, token, later, behind, rfl⟩ := of_run_quoted whole
  cases token
  have beginning : Place.within (fun subject _ => subject.source = some value)
      (.named (.node value)) := rfl
  obtain ⟨statement, others', rfl, source⟩ :=
    first_statement (lasting_source value) beginning behind
  have subject := drawn_eq_edge (List.cons.inj same).1
  rw [subject] at source
  obtain rfl := Option.some.inj source
  have arrow_end : ∀ tail, closing (" -> \"".toList ++ (edge.toId.toList ++
      '"' :: (" [label=\"".toList ++ edge.edgeType.asStr.toList ++ "\", color=\"".toList ++
        (color edge.edgeType).toList ++ "\"];\n".toList ++ after))) =
      some (tail, rest) → ∃ before last, tail = before ++ [last] ∧ last ≠ '\\' := by
    intro tail found
    cases found
    exact ⟨" ->".toList, ' ', rfl, by decide⟩
  obtain ⟨verbatim, rfl⟩ := verbatim_of_closing closed arrow_end
  refine ⟨verbatim, ?_⟩
  rw [Transducer.run_append_of_silent (run_arrow _)] at behind
  obtain ⟨value, rest, targetClosed, first, next, token, later, ending, split⟩ :=
    of_run_quoted behind
  cases token
  have linked : Place.within (fun subject _ => subject = .edge edge.fromId.toList value)
      (.named (.edge edge.fromId.toList value)) := rfl
  obtain ⟨current, others', rfl, named⟩ :=
    first_statement (lasting_edge edge.fromId.toList value) linked ending
  obtain ⟨rfl, _⟩ := List.cons.inj split
  rw [subject] at named
  obtain rfl := (Subject.edge.inj named).2
  refine (verbatim_of_closing targetClosed fun tail found => ?_).1
  cases found
  exact ⟨" [label".toList, '=', rfl, by decide⟩

theorem reads_edgeLine_iff {edge : GraphEdge} {after : List Char} {others : List Drawn} :
    Reads (edgeLine edge ++ after) (drawnEdge edge :: others) ↔
      (Verbatim edge.fromId ∧ Verbatim edge.toId) ∧ Reads after others := by
  have view : drawn (edgeStatement edge) = drawnEdge edge := by
    have plain : '\\' ∉ edge.edgeType.asStr.toList := by cases edge.edgeType <;> decide
    change Drawn.edge edge.fromId.toList edge.toId.toList
      (some (shown edge.edgeType.asStr.toList)) = _
    rw [shown_of_plain plain]
    rfl
  have read : Verbatim edge.fromId ∧ Verbatim edge.toId →
      (Reads (edgeLine edge ++ after) (drawnEdge edge :: others) ↔ Reads after others) := by
    rintro ⟨source, target⟩
    rw [← view]
    exact reads_cons_iff (run_edgeLine source target after)
  constructor
  · intro reads
    have good := edge_of_reads reads
    exact ⟨good, (read good).mp reads⟩
  · rintro ⟨good, reads⟩
    exact (read good).mpr reads

/-! ## The document -/

theorem reads_nodes_iff {Rate : Type} {nodes : List (String × GraphNode Rate)} {after : List Char}
    {others : List Drawn} :
    Reads ((nodes.flatMap fun entry => nodeLine entry.1 entry.2) ++ after)
        (nodes.map drawnNode ++ others) ↔
      (∀ entry ∈ nodes, Verbatim entry.1 ∧ Unescaped entry.2.name) ∧ Reads after others := by
  induction nodes with
  | nil => simp
  | cons entry nodes inductionHypothesis =>
      rw [List.flatMap_cons, List.append_assoc, List.map_cons, List.cons_append,
        reads_nodeLine_iff, inductionHypothesis, List.forall_mem_cons]
      exact and_assoc.symm

theorem reads_edges_iff {edges : List GraphEdge} {after : List Char} {others : List Drawn} :
    Reads (edges.flatMap edgeLine ++ after) (edges.map drawnEdge ++ others) ↔
      (∀ edge ∈ edges, Verbatim edge.fromId ∧ Verbatim edge.toId) ∧ Reads after others := by
  induction edges with
  | nil => simp
  | cons edge edges inductionHypothesis =>
      rw [List.flatMap_cons, List.append_assoc, List.map_cons, List.cons_append,
        reads_edgeLine_iff, inductionHypothesis, List.forall_mem_cons]
      exact and_assoc.symm

theorem reads_end : Reads "\x7d\n".toList [] := ⟨[], rfl, rfl⟩

theorem run_header :
    reader.run (.between, .start) dotHeader =
      some ([⟨.defaults "node".toList,
          [("style".toList, "filled,rounded".toList), ("shape".toList, "box".toList)]⟩,
        ⟨.defaults "edge".toList, [("color".toList, "#94a3b8".toList)]⟩],
        .between, .statements) := by
  decide +kernel

theorem wellFormed_iff_reads {Rate : Type} (graph : CausalGraph Rate) (path : List String) :
    WellFormed graph path ↔
      Reads (((presentNodes graph path).flatMap fun entry => nodeLine entry.1 entry.2) ++
          '\n' :: ((chainEdges graph path).flatMap edgeLine ++ "\x7d\n".toList))
        ((presentNodes graph path).map drawnNode ++ (chainEdges graph path).map drawnEdge) := by
  simp only [WellFormed, Reads, parse_eq_some_iff, exportGraphToDot, List.append_assoc,
    Transducer.run_append run_header, drawing]
  constructor
  · rintro ⟨statements, whole, same⟩
    obtain ⟨⟨later, ending⟩, behind, equal⟩ := Option.map_eq_some_iff.mp whole
    cases equal
    exact ⟨later, behind, (List.cons.inj (List.cons.inj same).2).2⟩
  · rintro ⟨statements, whole, same⟩
    refine ⟨_, by rw [whole, Option.map_some], ?_⟩
    rw [List.map_append, same]
    rfl

/-- The text is well formed if and only if every id of the path can stand between
quotes as it is, and no name has a quote or a backslash in it. -/
theorem exportGraphToDot_wellFormed_iff {Rate : Type} (graph : CausalGraph Rate)
    (path : List String) :
    WellFormed graph path ↔
      (∀ entry ∈ presentNodes graph path, Verbatim entry.1 ∧ Unescaped entry.2.name) ∧
        ∀ edge ∈ chainEdges graph path, Verbatim edge.fromId ∧ Verbatim edge.toId := by
  have edges : Reads ('\n' :: ((chainEdges graph path).flatMap edgeLine ++ "\x7d\n".toList))
      ((chainEdges graph path).map drawnEdge) ↔
        ∀ edge ∈ chainEdges graph path, Verbatim edge.fromId ∧ Verbatim edge.toId := by
    have newline : readChar .between '\n' = some ([], .between) := rfl
    have all := @reads_edges_iff (chainEdges graph path) "\x7d\n".toList []
    rw [List.append_nil, and_iff_left reads_end] at all
    rw [← all, Reads, run_silent newline]
    rfl
  rw [wellFormed_iff_reads, reads_nodes_iff, edges]

/-- A process whose name has a quote in it. -/
def quotedName : CausalGraph Nat where
  nodes := (∅ : AList fun _ : String => GraphNode Nat).insert "pid:7" process
  edges := []
where
  process : GraphNode Nat := {
    id := "pid:7", nodeType := .process, name := "a\"b", pid := 7, state := "S"
    readBytes := 0, writeBytes := 0, readRateKb := 0, writeRateKb := 0, cpuUsagePct := 0
    isAnomalous := false, anomalyReason := "" }

theorem quoted_name_unreadable :
    parse (exportGraphToDot quotedName ["pid:7"]) = none ∧ ¬ WellFormed quotedName ["pid:7"] := by
  have unreadable : parse (exportGraphToDot quotedName ["pid:7"]) = none := by decide +kernel
  refine ⟨unreadable, ?_⟩
  rintro ⟨statements, read, _⟩
  rw [unreadable] at read
  cases read

end SystemPilot.Causal
