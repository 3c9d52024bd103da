import SystemPilot.Causal.Graph
import SystemPilot.Library.BreadthFirst
import SystemPilot.Library.Ranking

/-!
# The root cause tracer

`trace_root_cause`: a breadth-first search from a symptom.  A process leads to
what it waits for and to the resources it may suffer from, a resource to those of
its accessors with the highest rates.
-/

set_option autoImplicit false

namespace SystemPilot.Causal

open SystemPilot.Library

/-- An entry of `writers`. -/
structure Accessor (Rate : Type) where
  id : String
  io : Rate
  deriving DecidableEq

section Steps

variable {Rate : Type} [LinearOrder Rate] [Add Rate] (graph : CausalGraph Rate)

/-- `n.write_rate_kb + n.read_rate_kb`. -/
def GraphNode.io (node : GraphNode Rate) : Rate := node.writeRateKb + node.readRateKb

/-- `matches!(e.edge_type, EdgeType::WritesTo | EdgeType::ReadsFrom)`. -/
def EdgeType.moves : EdgeType → Bool
  | .writesTo | .readsFrom => true
  | .spawnedBy | .blockedOn | .contendsWith => false

/-- The resource is anomalous, or an anomalous node other than `current` has an
edge to it. -/
def suspect (current : String) (edge : GraphEdge) : Bool :=
  match graph.node edge.toId with
  | none => false
  | some resource =>
      resource.isAnomalous || graph.edges.any fun other =>
        other.toId = edge.toId && other.fromId ≠ current &&
          ((graph.node other.fromId).map GraphNode.isAnomalous).getD false

/-- The entries for the accessors of a resource, one for each edge. -/
def accessors (resource : String) : List (Accessor Rate) :=
  (graph.edges.filter fun edge => edge.toId = resource && edge.edgeType.moves).filterMap
    fun edge => (graph.node edge.fromId).map fun node => { id := edge.fromId, io := node.io }

/-- `writers`, sorted, of which three are taken. -/
def topAccessors (resource : String) : List (Accessor Rate) :=
  (Ranking.descending Accessor.io (accessors graph resource)).take 3

/-- What one round of the loop visits, in this order. -/
def successors (current : String) : List String :=
  match graph.node current with
  | none => []
  | some node =>
      match node.nodeType with
      | .process =>
          (graph.edges.filter fun edge => edge.fromId = current &&
            (!edge.edgeType.moves || suspect graph current edge)).map GraphEdge.toId
      | .resource => (topAccessors graph current).map Accessor.id

/-- As many rounds as there can be nodes. -/
def rounds : Nat := 2 * graph.edges.length + 1

/-- `trace_root_cause`. -/
def traceRootCause (start : String) : List String :=
  if start ∈ graph.nodes then
    (BreadthFirst.search (successors graph) start (rounds graph)).path
  else []

/-! ## The steps -/

/-- What a node leads to. -/
inductive Leads : String → String → Prop where
  | waits {current : String} {node : GraphNode Rate} {edge : GraphEdge}
      (here : graph.node current = some node) (process : node.nodeType = .process)
      (member : edge ∈ graph.edges) (source : edge.fromId = current)
      (kind : edge.edgeType = .blockedOn ∨ edge.edgeType = .spawnedBy ∨
        edge.edgeType = .contendsWith) : Leads current edge.toId
  | shares {current : String} {node resource : GraphNode Rate} {edge : GraphEdge}
      (here : graph.node current = some node) (process : node.nodeType = .process)
      (member : edge ∈ graph.edges) (source : edge.fromId = current)
      (kind : edge.edgeType = .readsFrom ∨ edge.edgeType = .writesTo)
      (there : graph.node edge.toId = some resource)
      (reason : resource.isAnomalous = true ∨ ∃ other ∈ graph.edges,
        other.toId = edge.toId ∧ other.fromId ≠ current ∧
          ∃ culprit, graph.node other.fromId = some culprit ∧ culprit.isAnomalous = true) :
      Leads current edge.toId
  | used {current : String} {node : GraphNode Rate} {entry : Accessor Rate}
      (here : graph.node current = some node) (resource : node.nodeType = .resource)
      (top : entry ∈ topAccessors graph current) : Leads current entry.id

variable {graph}

omit [LinearOrder Rate] [Add Rate] in
theorem suspect_iff {current : String} {edge : GraphEdge} :
    suspect graph current edge = true ↔ ∃ resource, graph.node edge.toId = some resource ∧
      (resource.isAnomalous = true ∨ ∃ other ∈ graph.edges,
        other.toId = edge.toId ∧ other.fromId ≠ current ∧
          ∃ culprit, graph.node other.fromId = some culprit ∧ culprit.isAnomalous = true) := by
  unfold suspect
  cases there : graph.node edge.toId with
  | none => simp
  | some resource =>
      simp only [Bool.or_eq_true, List.any_eq_true, Bool.and_eq_true, decide_eq_true_eq,
        Option.some.injEq, exists_eq_left', and_assoc]
      refine or_congr_right (exists_congr fun other => and_congr_right fun _ =>
        and_congr_right fun _ => and_congr_right fun _ => ?_)
      cases graph.node other.fromId <;> simp

theorem mem_successors_iff (current next : String) :
    next ∈ successors graph current ↔ Leads graph current next := by
  constructor
  · intro member
    unfold successors at member
    cases here : graph.node current with
    | none => simp [here] at member
    | some node =>
        cases kind : node.nodeType with
        | resource =>
            simp only [here, kind, List.mem_map] at member
            obtain ⟨entry, top, rfl⟩ := member
            exact .used here kind top
        | process =>
            simp only [here, kind, List.mem_map, List.mem_filter, Bool.and_eq_true,
              decide_eq_true_eq, Bool.or_eq_true, Bool.not_eq_true'] at member
            obtain ⟨edge, ⟨present, source, follows⟩, rfl⟩ := member
            cases edgeKind : edge.edgeType with
            | spawnedBy => exact .waits here kind present source (by simp [edgeKind])
            | blockedOn => exact .waits here kind present source (by simp [edgeKind])
            | contendsWith => exact .waits here kind present source (by simp [edgeKind])
            | readsFrom =>
                obtain ⟨resource, there, reason⟩ :=
                  suspect_iff.mp (follows.resolve_left (by simp [edgeKind, EdgeType.moves]))
                exact .shares here kind present source (by simp [edgeKind]) there reason
            | writesTo =>
                obtain ⟨resource, there, reason⟩ :=
                  suspect_iff.mp (follows.resolve_left (by simp [edgeKind, EdgeType.moves]))
                exact .shares here kind present source (by simp [edgeKind]) there reason
  · intro leads
    cases leads with
    | waits here process member source kind =>
        simp only [successors, here, process, List.mem_map, List.mem_filter, Bool.and_eq_true,
          decide_eq_true_eq, Bool.or_eq_true, Bool.not_eq_true']
        refine ⟨_, ⟨member, source, Or.inl ?_⟩, rfl⟩
        rcases kind with kind | kind | kind <;> rw [kind] <;> rfl
    | shares here process member source kind there reason =>
        simp only [successors, here, process, List.mem_map, List.mem_filter, Bool.and_eq_true,
          decide_eq_true_eq, Bool.or_eq_true, Bool.not_eq_true']
        exact ⟨_, ⟨member, source, Or.inr (suspect_iff.mpr ⟨_, there, reason⟩)⟩, rfl⟩
    | used here resource top =>
        simp only [successors, here, resource, List.mem_map]
        exact ⟨_, top, rfl⟩

/-! ## The search -/

/-- What can be reached is the start or an end of an edge. -/
theorem mem_of_reachable {start node : String}
    (reachable : Relation.ReflTransGen (Leads graph) start node) :
    node ∈ start :: (graph.edges.map GraphEdge.fromId ++ graph.edges.map GraphEdge.toId) := by
  cases reachable with
  | refl => simp
  | tail _ step =>
      refine List.mem_cons_of_mem _ (List.mem_append.mpr ?_)
      cases step with
      | waits _ _ member _ _ => exact Or.inr (List.mem_map_of_mem member)
      | shares _ _ member _ _ _ _ => exact Or.inr (List.mem_map_of_mem member)
      | used _ _ top =>
          have entered := (Ranking.perm_descending _ _).mem_iff.mp (List.mem_of_mem_take top)
          obtain ⟨edge, chosen, entry⟩ := List.mem_filterMap.mp entered
          obtain ⟨_, _, rfl⟩ := Option.map_eq_some_iff.mp entry
          exact Or.inl (List.mem_map_of_mem (List.mem_of_mem_filter chosen))

theorem queue_traceRootCause (start : String) :
    (BreadthFirst.search (successors graph) start (rounds graph)).queue = [] := by
  refine BreadthFirst.queue_search mem_successors_iff (fun node => mem_of_reachable) ?_
  simp only [List.length_cons, List.length_append, List.length_map, rounds]
  omega

theorem closure_traceRootCause {start : String} (present : start ∈ graph.nodes) :
    BreadthFirst.Closure (Leads graph) start (traceRootCause graph start) := by
  rw [traceRootCause, if_pos present]
  exact BreadthFirst.closure_search mem_successors_iff (queue_traceRootCause start)

end Steps

/-- The loop of `trace_root_cause` ends, and its path is a breadth-first closure. -/
theorem traceRootCause_breadthFirst {Rate : Type} [LinearOrder Rate] [Add Rate]
    (graph : CausalGraph Rate) (start : String) (present : start ∈ graph.nodes) :
    (BreadthFirst.search (successors graph) start (rounds graph)).queue = [] ∧
      BreadthFirst.Closure (Leads graph) start (traceRootCause graph start) :=
  ⟨queue_traceRootCause start, closure_traceRootCause present⟩

/-- Three processes with four edges to one file. -/
def crowded : CausalGraph Nat where
  nodes := (((((∅ : AList fun _ : String => GraphNode Nat).insert "pid:1" (process 1 30)).insert
    "pid:2" (process 2 20)).insert "pid:3" (process 3 10)).insert "resource:/tmp/log" file)
  edges := [access 1, access 1, access 2, access 3]
where
  process (pid : Nat) (rate : Nat) : GraphNode Nat := {
    id := "pid:" ++ toString pid, nodeType := .process, name := "writer", pid := .ofNat pid, state := "S"
    readBytes := 0, writeBytes := 0, readRateKb := 0, writeRateKb := rate, cpuUsagePct := 0
    isAnomalous := false, anomalyReason := "" }
  file : GraphNode Nat := {
    id := "resource:/tmp/log", nodeType := .resource, name := "/tmp/log", pid := 0, state := ""
    readBytes := 0, writeBytes := 0, readRateKb := 0, writeRateKb := 0, cpuUsagePct := 0
    isAnomalous := false, anomalyReason := "" }
  access (pid : Nat) : GraphEdge := {
    fromId := "pid:" ++ toString pid, toId := "resource:/tmp/log", edgeType := .readsFrom
    details := "eBPF: open" }

theorem traceRootCause_breadthFirst_crowded :
    (BreadthFirst.search (successors crowded) "resource:/tmp/log" (rounds crowded)).queue = [] ∧
      BreadthFirst.Closure (Leads crowded) "resource:/tmp/log"
        (traceRootCause crowded "resource:/tmp/log") :=
  traceRootCause_breadthFirst crowded "resource:/tmp/log" (by decide)

example : traceRootCause crowded "resource:/tmp/log" =
    ["resource:/tmp/log", "pid:1", "pid:2"] := by decide +kernel

/-! ## The accessors of a resource -/

section Busiest

variable {Rate : Type} [LinearOrder Rate] [Add Rate] (graph : CausalGraph Rate)
variable (resource : String)

/-- The nodes with a `ReadsFrom` or `WritesTo` edge to a resource. -/
def existingAccessors : Finset String :=
  ((graph.edges.filter fun edge => edge.toId = resource && edge.edgeType.moves).map
    GraphEdge.fromId).toFinset.filter fun id => (graph.node id).isSome

/-- The accessor entries that go before the first one of `name`: those of a higher
rate, and those of the same rate with an earlier edge. -/
def entriesAhead (name : String) (io : Rate) : List (Accessor Rate) :=
  Ranking.ahead Accessor.io Accessor.id name io (accessors graph resource)

variable {graph resource}

omit [LinearOrder Rate] in
theorem mem_accessors {entry : Accessor Rate} :
    entry ∈ accessors graph resource ↔ ∃ edge ∈ graph.edges, edge.toId = resource ∧
      edge.edgeType.moves = true ∧ edge.fromId = entry.id ∧
        (graph.node entry.id).map GraphNode.io = some entry.io := by
  simp only [accessors, List.mem_filterMap, List.mem_filter, Bool.and_eq_true, decide_eq_true_eq]
  refine exists_congr fun edge => ?_
  constructor
  · rintro ⟨⟨member, target, moves⟩, found⟩
    obtain ⟨node, there, rfl⟩ := Option.map_eq_some_iff.mp found
    exact ⟨member, target, moves, rfl, by simp [there]⟩
  · rintro ⟨member, target, moves, source, rate⟩
    refine ⟨⟨member, target, moves⟩, ?_⟩
    rw [source]
    obtain ⟨node, there, same⟩ := Option.map_eq_some_iff.mp rate
    rw [there, Option.map_some, same]

omit [LinearOrder Rate] in
theorem mem_existingAccessors {id : String} :
    id ∈ existingAccessors graph resource ↔ id ∈ (accessors graph resource).map Accessor.id := by
  simp only [existingAccessors, Finset.mem_filter, List.mem_toFinset, List.mem_map,
    List.mem_filter, Bool.and_eq_true, decide_eq_true_eq, mem_accessors]
  constructor
  · rintro ⟨⟨edge, ⟨member, target, moves⟩, rfl⟩, found⟩
    obtain ⟨node, there⟩ := Option.isSome_iff_exists.mp found
    exact ⟨⟨edge.fromId, node.io⟩, ⟨edge, member, target, moves, rfl, by simp [there]⟩, rfl⟩
  · rintro ⟨entry, ⟨edge, member, target, moves, source, rate⟩, rfl⟩
    obtain ⟨node, there, _⟩ := Option.map_eq_some_iff.mp rate
    exact ⟨⟨edge, ⟨member, target, moves⟩, source⟩, by simp [there]⟩

omit [LinearOrder Rate] in
theorem card_existingAccessors :
    (existingAccessors graph resource).card =
      Ranking.owners Accessor.id (accessors graph resource) := by
  rw [Ranking.owners]
  congr 1
  ext id
  rw [mem_existingAccessors, List.mem_toFinset]

/-- No entry of the ranking that is left out has a higher rate. -/
theorem io_le_of_topAccessors {left kept : Accessor Rate}
    (member : left ∈ accessors graph resource) (out : left ∉ topAccessors graph resource)
    (top : kept ∈ topAccessors graph resource) : left.io ≤ kept.io := by
  have sorted := Ranking.pairwise_descending Accessor.io (accessors graph resource)
  rw [← List.take_append_drop 3 (Ranking.descending Accessor.io (accessors graph resource))]
    at sorted
  have ranked := (Ranking.perm_descending Accessor.io (accessors graph resource)).mem_iff.mpr member
  rw [← List.take_append_drop 3 (Ranking.descending Accessor.io (accessors graph resource))]
    at ranked
  rcases List.mem_append.mp ranked with inside | behind
  · exact absurd inside out
  · exact (List.pairwise_append.mp sorted).2.2 kept top left behind

theorem successors_resource {node : GraphNode Rate} (here : graph.node resource = some node)
    (kind : node.nodeType = .resource) :
    successors graph resource = (topAccessors graph resource).map Accessor.id := by
  unfold successors
  rw [here]
  dsimp only
  rw [kind]

/-- An accessor that is left out has no higher rate than one that is considered. -/
theorem io_le_of_successors {node left kept : GraphNode Rate} {leftId keptId : String}
    (here : graph.node resource = some node) (kind : node.nodeType = .resource)
    (member : leftId ∈ existingAccessors graph resource)
    (out : leftId ∉ successors graph resource) (considered : keptId ∈ successors graph resource)
    (leftNode : graph.node leftId = some left) (keptNode : graph.node keptId = some kept) :
    left.io ≤ kept.io := by
  rw [successors_resource here kind] at out considered
  obtain ⟨leftEntry, present, rfl⟩ := List.mem_map.mp (mem_existingAccessors.mp member)
  obtain ⟨keptEntry, top, rfl⟩ := List.mem_map.mp considered
  have entered := (Ranking.perm_descending _ _).mem_iff.mp (List.mem_of_mem_take top)
  obtain ⟨_, _, _, _, _, leftRate⟩ := mem_accessors.mp present
  obtain ⟨_, _, _, _, _, keptRate⟩ := mem_accessors.mp entered
  rw [leftNode, Option.map_some, Option.some.injEq] at leftRate
  rw [keptNode, Option.map_some, Option.some.injEq] at keptRate
  rw [leftRate, keptRate]
  exact io_le_of_topAccessors present (fun inside => out (List.mem_map_of_mem inside)) top

theorem card_successors_iff {node : GraphNode Rate} (here : graph.node resource = some node)
    (kind : node.nodeType = .resource) :
    (successors graph resource).toFinset.card = min 3 (existingAccessors graph resource).card ↔
      ∀ entry ∈ accessors graph resource,
        3 ≤ (entriesAhead graph resource entry.id entry.io).length →
          3 ≤ Ranking.owners Accessor.id (entriesAhead graph resource entry.id entry.io) := by
  let rank : String → Rate := fun id => ((graph.node id).map GraphNode.io).getD node.io
  have ranked : ∀ entry ∈ accessors graph resource, entry.io = rank entry.id := by
    intro entry member
    obtain ⟨_, _, _, _, _, rate⟩ := mem_accessors.mp member
    change entry.io = ((graph.node entry.id).map GraphNode.io).getD node.io
    rw [rate, Option.getD_some]
  have spread := Ranking.owners_take_descending_iff Accessor.io 3 (accessors graph resource) rank
    ranked
  rw [successors_resource here kind, card_existingAccessors]
  refine spread.trans ?_
  constructor
  · intro each entry member
    rw [entriesAhead, ranked entry member]
    exact each entry.id (List.mem_map_of_mem member)
  · intro each name present
    obtain ⟨entry, member, rfl⟩ := List.mem_map.mp present
    have here := each entry member
    rwa [entriesAhead, ranked entry member] at here

end Busiest

/-- A resource leads to as many distinct accessors as it can, and to the busiest
ones, if and only if none is kept back by three or more entries of fewer than three
others. -/
theorem considered_busiest_iff {Rate : Type} [LinearOrder Rate] [Add Rate]
    (graph : CausalGraph Rate) (resource : String) (node : GraphNode Rate)
    (here : graph.node resource = some node) (kind : node.nodeType = .resource) :
    ((successors graph resource).toFinset.card = min 3 (existingAccessors graph resource).card ∧
      ∀ leftId ∈ existingAccessors graph resource, leftId ∉ successors graph resource →
        ∀ keptId ∈ successors graph resource, ∀ left kept,
          graph.node leftId = some left → graph.node keptId = some kept →
            ¬ kept.io < left.io) ↔
      ∀ entry ∈ accessors graph resource,
        3 ≤ (entriesAhead graph resource entry.id entry.io).length →
          3 ≤ Ranking.owners Accessor.id (entriesAhead graph resource entry.id entry.io) := by
  rw [← card_successors_iff here kind, and_iff_left_iff_imp]
  intro _ leftId member out keptId considered left kept leftNode keptNode
  exact not_lt.mpr (io_le_of_successors here kind member out considered leftNode keptNode)

theorem considered_busiest_crowded :
    ((successors crowded "resource:/tmp/log").toFinset.card =
        min 3 (existingAccessors crowded "resource:/tmp/log").card ∧
      ∀ leftId ∈ existingAccessors crowded "resource:/tmp/log",
        leftId ∉ successors crowded "resource:/tmp/log" →
        ∀ keptId ∈ successors crowded "resource:/tmp/log", ∀ left kept,
          crowded.node leftId = some left → crowded.node keptId = some kept →
            ¬ kept.io < left.io) ↔
      ∀ entry ∈ accessors crowded "resource:/tmp/log",
        3 ≤ (entriesAhead crowded "resource:/tmp/log" entry.id entry.io).length →
          3 ≤ Ranking.owners Accessor.id
            (entriesAhead crowded "resource:/tmp/log" entry.id entry.io) :=
  considered_busiest_iff crowded "resource:/tmp/log" crowded.file (by decide) rfl

/-- One process with two entries keeps the third accessor out. -/
theorem crowded_accessor_left_out :
    crowded.node "resource:/tmp/log" = some crowded.file ∧
      ¬ (successors crowded "resource:/tmp/log").toFinset.card =
        min 3 (existingAccessors crowded "resource:/tmp/log").card := by
  decide +kernel

end SystemPilot.Causal
