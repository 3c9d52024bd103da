import SystemPilot.Causal.Build

/-!
# The connections of a process

Every node stands under its own id, so that each process is connected by itself:
the loop over the processes is the concatenation of what it adds for one of them.
-/

set_option autoImplicit false

namespace SystemPilot.Causal

variable {Rate : Type}

/-! ## Nodes under their ids -/

/-- Every node is stored under its id. -/
def Keyed (graph : CausalGraph Rate) : Prop :=
  ∀ id node, graph.node id = some node → node.id = id

theorem mem_nodes_iff {graph : CausalGraph Rate} {id : String} :
    id ∈ graph.nodes ↔ ∃ node, graph.node id = some node := by
  rw [CausalGraph.node, ← Option.isSome_iff_exists, AList.lookup_isSome]

theorem node_addNode (graph : CausalGraph Rate) (node : GraphNode Rate) (id : String) :
    (graph.addNode node).node id = if id = node.id then some node else graph.node id := by
  unfold CausalGraph.addNode CausalGraph.node
  dsimp only
  by_cases same : id = node.id
  · rw [if_pos same, same, AList.lookup_insert]
  · rw [if_neg same, AList.lookup_insert_ne same]

theorem keyed_empty (edges : List GraphEdge) : Keyed ({ nodes := ∅, edges } : CausalGraph Rate) := by
  intro id node found
  cases found

theorem Keyed.addNode {graph : CausalGraph Rate} (keyed : Keyed graph) (node : GraphNode Rate) :
    Keyed (graph.addNode node) := by
  intro id other found
  rw [node_addNode] at found
  split at found
  · rename_i same
    cases found
    exact same.symm
  · exact keyed id other found

theorem Keyed.addNew {graph : CausalGraph Rate} (keyed : Keyed graph) (node : GraphNode Rate) :
    Keyed (addNew graph node) := by
  unfold Causal.addNew
  split
  · exact keyed
  · exact keyed.addNode node

/-- A node that is there is not replaced. -/
theorem node_addNew (graph : CausalGraph Rate) (node : GraphNode Rate) (id : String) :
    (addNew graph node).node id =
      (graph.node id).or (if id = node.id then some node else none) := by
  unfold addNew
  split
  · rename_i present
    obtain ⟨old, there⟩ := mem_nodes_iff.mp present
    by_cases same : id = node.id
    · rw [same, there, Option.some_or]
    · rw [if_neg same, Option.or_none]
  · rename_i absent
    rw [node_addNode]
    by_cases same : id = node.id
    · have missing : graph.node id = none := by
        cases found : graph.node id with
        | none => rfl
        | some old => exact absurd (mem_nodes_iff.mpr ⟨old, found⟩) (same ▸ absent)
      rw [if_pos same, if_pos same, missing, Option.none_or]
    · rw [if_neg same, if_neg same, Option.or_none]

theorem mem_addNew {graph : CausalGraph Rate} {node : GraphNode Rate} {id : String} :
    id ∈ (addNew graph node).nodes ↔ id ∈ graph.nodes ∨ id = node.id := by
  rw [mem_nodes_iff, mem_nodes_iff, node_addNew]
  cases found : graph.node id with
  | some old => simp
  | none => simp

theorem node_foldl_addNew {nodes : List (GraphNode Rate)} {graph : CausalGraph Rate} {id : String}
    {node : GraphNode Rate} (found : graph.node id = some node) :
    (nodes.foldl addNew graph).node id = some node := by
  induction nodes generalizing graph with
  | nil => exact found
  | cons first nodes inductionHypothesis =>
      refine inductionHypothesis ?_
      rw [node_addNew, found, Option.some_or]

theorem mem_foldl_addNew {nodes : List (GraphNode Rate)} {graph : CausalGraph Rate} {id : String} :
    id ∈ (nodes.foldl addNew graph).nodes ↔
      id ∈ graph.nodes ∨ ∃ node ∈ nodes, id = node.id := by
  induction nodes generalizing graph with
  | nil => simp
  | cons first nodes inductionHypothesis =>
      rw [List.foldl_cons, inductionHypothesis, mem_addNew]
      simp [or_assoc]

theorem edges_addNew (graph : CausalGraph Rate) (node : GraphNode Rate) :
    (addNew graph node).edges = graph.edges := by
  unfold addNew
  split
  · rfl
  · rfl

theorem edges_foldl_addNew (nodes : List (GraphNode Rate)) (graph : CausalGraph Rate) :
    (nodes.foldl addNew graph).edges = graph.edges := by
  induction nodes generalizing graph with
  | nil => rfl
  | cons first nodes inductionHypothesis =>
      rw [List.foldl_cons, inductionHypothesis, edges_addNew]

/-- Adding the nodes of a list, each made from an entry. -/
theorem foldl_addNode_induction {Entry : Type} (property : CausalGraph Rate → Prop)
    (make : Entry → GraphNode Rate)
    (kept : ∀ graph entry, property graph → property (graph.addNode (make entry)))
    (entries : List Entry) (graph : CausalGraph Rate) (initial : property graph) :
    property (entries.foldl (fun graph entry => graph.addNode (make entry)) graph) := by
  induction entries generalizing graph with
  | nil => exact initial
  | cons entry entries inductionHypothesis =>
      exact inductionHypothesis _ (kept graph entry initial)

section Observed

variable [LinearOrder Rate] (doubles : Doubles Rate) (observation : Observation)

theorem keyed_observedGraph : Keyed (observedGraph doubles observation) := by
  refine foldl_addNode_induction Keyed _ (fun graph entry keyed => keyed.addNode _) _ _ ?_
  exact foldl_addNode_induction Keyed _ (fun graph entry keyed => keyed.addNode _) _ _
    (keyed_empty [])

theorem edges_observedGraph : (observedGraph doubles observation).edges = [] := by
  refine foldl_addNode_induction (fun graph => graph.edges = []) _ (fun _ _ none => none) _ _ ?_
  exact foldl_addNode_induction (fun graph => graph.edges = []) _ (fun _ _ none => none) _ _ rfl

end Observed

/-! ## Processes -/

theorem mem_processes {graph : CausalGraph Rate} {node : GraphNode Rate} (keyed : Keyed graph) :
    node ∈ processes graph ↔ graph.node node.id = some node ∧ node.nodeType = .process := by
  simp only [processes, List.mem_filter, List.mem_filterMap, decide_eq_true_eq]
  refine and_congr_left fun _ => ?_
  constructor
  · rintro ⟨id, _, found⟩
    rwa [keyed id node found]
  · intro found
    exact ⟨node.id, AList.mem_keys.mpr (mem_nodes_iff.mpr ⟨node, found⟩), found⟩

theorem map_id_filterMap_node {graph : CausalGraph Rate} (keyed : Keyed graph) (keys : List String)
    (present : ∀ key ∈ keys, key ∈ graph.nodes) :
    (keys.filterMap graph.node).map GraphNode.id = keys := by
  induction keys with
  | nil => rfl
  | cons key keys inductionHypothesis =>
      obtain ⟨node, found⟩ := mem_nodes_iff.mp (present key (by simp))
      rw [List.filterMap_cons_some found, List.map_cons, keyed key node found,
        inductionHypothesis fun other member => present other (by simp [member])]

/-- No two processes have one id. -/
theorem nodup_processes {graph : CausalGraph Rate} (keyed : Keyed graph) :
    ((processes graph).map GraphNode.id).Nodup := by
  refine List.Nodup.sublist (List.filter_sublist.map GraphNode.id) ?_
  rw [map_id_filterMap_node keyed _ fun key member => AList.mem_keys.mp member]
  exact graph.nodes.keys_nodup

/-! ## One process after another -/

section Connect

variable [LinearOrder Rate] [Add Rate] (doubles : Doubles Rate) (graph : CausalGraph Rate)
variable (observation : Observation)

def blockedOnDisk (node : GraphNode Rate) : GraphEdge where
  fromId := node.id
  toId := targetDisk graph
  edgeType := .blockedOn
  details := "Process blocked on primary disk device"

/-- The edge of a process in state D that has no mapped resource. -/
def fallbackEdges (node : GraphNode Rate) : List GraphEdge :=
  if node.state = "D" ∧ mappedOpen doubles graph observation node = [] then
    [blockedOnDisk graph node]
  else []

/-- The edges that start at a process. -/
def ownEdges (node : GraphNode Rate) : List GraphEdge :=
  parentEdges graph observation node ++
    ((mappedOpen doubles graph observation node).flatMap (resourceEdges doubles node) ++
      fallbackEdges doubles graph observation node)

/-- The resources a process is the first to map, as far as the graph knows them. -/
def ownResources (node : GraphNode Rate) : List (GraphNode Rate) :=
  ((mappedOpen doubles graph observation node).filter fun resource =>
    resourceNode resource.2 ∉ graph.nodes).map fun resource =>
      bareResource doubles (resourceNode resource.2) resource.2

variable {doubles graph observation}

omit [Add Rate] in
theorem blocked_resourceEdges (node : GraphNode Rate) (resource : OpenResource) :
    ((resourceEdges doubles node resource).any fun edge =>
      edge.fromId = node.id && edge.edgeType = .blockedOn) = decide (node.state = "D") := by
  unfold resourceEdges
  have kind : (if node.isWriting doubles then EdgeType.writesTo else .readsFrom) ≠ .blockedOn := by
    split <;> simp
  by_cases sleeping : node.state = "D"
  · simp [sleeping]
  · simp [sleeping, kind]

omit [LinearOrder Rate] [Add Rate] in
theorem blocked_parentEdges (node : GraphNode Rate) :
    ((parentEdges graph observation node).any fun edge =>
      edge.fromId = node.id && edge.edgeType = .blockedOn) = false := by
  unfold parentEdges
  dsimp only
  split <;> simp

theorem connect_eq {found : List (GraphNode Rate) × List GraphEdge} {node : GraphNode Rate}
    (others : ∀ edge ∈ found.2, edge.fromId ≠ node.id) :
    connect doubles graph observation found node =
      (found.1 ++ ownResources doubles graph observation node,
        found.2 ++ ownEdges doubles graph observation node) := by
  have foreign : (found.2.any fun edge =>
      edge.fromId = node.id && edge.edgeType = .blockedOn) = false := by
    rw [List.any_eq_false]
    intro edge member
    simp [others edge member]
  unfold connect ownEdges fallbackEdges ownResources
  dsimp only
  rw [List.any_append, List.any_append, foreign, blocked_parentEdges, Bool.false_or, Bool.false_or,
    List.any_flatMap]
  simp only [blocked_resourceEdges]
  cases mapped : mappedOpen doubles graph observation node with
  | nil =>
      by_cases sleeping : node.state = "D"
      · simp [sleeping, blockedOnDisk]
      · simp [sleeping]
  | cons first rest =>
      by_cases sleeping : node.state = "D"
      · simp [sleeping]
      · simp [sleeping]

theorem fromId_ownEdges {node : GraphNode Rate} {edge : GraphEdge}
    (member : edge ∈ ownEdges doubles graph observation node) : edge.fromId = node.id := by
  rcases List.mem_append.mp member with parent | later
  · unfold parentEdges at parent
    dsimp only at parent
    split at parent
    · obtain rfl := List.mem_singleton.mp parent
      rfl
    · cases parent
  · rcases List.mem_append.mp later with mapped | fallback
    · obtain ⟨resource, _, inside⟩ := List.mem_flatMap.mp mapped
      unfold resourceEdges at inside
      rcases List.mem_cons.mp inside with rfl | blocked
      · rfl
      · split at blocked
        · obtain rfl := List.mem_singleton.mp blocked
          rfl
        · cases blocked
    · unfold fallbackEdges at fallback
      split at fallback
      · obtain rfl := List.mem_singleton.mp fallback
        rfl
      · cases fallback

theorem foldl_connect {nodes : List (GraphNode Rate)} {found : List (GraphNode Rate) × List GraphEdge}
    (distinct : (nodes.map GraphNode.id).Nodup)
    (others : ∀ edge ∈ found.2, ∀ node ∈ nodes, edge.fromId ≠ node.id) :
    nodes.foldl (connect doubles graph observation) found =
      (found.1 ++ nodes.flatMap (ownResources doubles graph observation),
        found.2 ++ nodes.flatMap (ownEdges doubles graph observation)) := by
  induction nodes generalizing found with
  | nil => simp
  | cons node nodes inductionHypothesis =>
      rw [List.map_cons, List.nodup_cons] at distinct
      rw [List.foldl_cons, connect_eq fun edge member => others edge member node (by simp),
        inductionHypothesis distinct.2]
      · simp [List.append_assoc]
      · intro edge member other later
        rcases List.mem_append.mp member with old | own
        · exact others edge old other (by simp [later])
        · rw [fromId_ownEdges own]
          intro same
          exact distinct.1 (same ▸ List.mem_map_of_mem later)

theorem connections_eq (keyed : Keyed graph) :
    connections doubles graph observation =
      ((processes graph).flatMap (ownResources doubles graph observation),
        (processes graph).flatMap (ownEdges doubles graph observation)) := by
  rw [connections, foldl_connect (nodup_processes keyed) (by simp)]
  simp

theorem edges_connectedGraph (doubles : Doubles Rate) (observation : Observation) :
    (connectedGraph doubles observation).edges =
      (processes (observedGraph doubles observation)).flatMap
        (ownEdges doubles (observedGraph doubles observation) observation) := by
  unfold connectedGraph
  dsimp only
  rw [edges_foldl_addNew, edges_observedGraph, List.nil_append,
    connections_eq (keyed_observedGraph doubles observation)]

/-- Connecting leaves the nodes that were observed. -/
theorem node_connectedGraph {id : String} {node : GraphNode Rate}
    (found : (observedGraph doubles observation).node id = some node) :
    (connectedGraph doubles observation).node id = some node := node_foldl_addNew found

end Connect

end SystemPilot.Causal
