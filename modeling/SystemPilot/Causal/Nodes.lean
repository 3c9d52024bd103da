import SystemPilot.Causal.Connections

/-!
# The nodes of the causal graph

Processes stand under their pids and resources under their paths, and no process
has the id of a resource.  Which nodes there are after each phase follows from
what was observed.
-/

set_option autoImplicit false

namespace SystemPilot.Causal

/-! ## Ids -/

theorem int_repr_injective : Function.Injective Int.repr := by
  intro left right same
  have minus : ∀ value : Nat, '-' ∉ value.repr.toList := by
    intro value member
    rw [Nat.toList_repr] at member
    have digit := Nat.isDigit_of_mem_toDigits (by omega) (by omega) member
    exact absurd digit (by decide)
  cases left with
  | ofNat left =>
      cases right with
      | ofNat right => exact congrArg Int.ofNat (Text.repr_injective same)
      | negSucc right =>
          have signed : '-' ∈ (Int.negSucc right).repr.toList := by
            simp [Int.repr]
          rw [← same] at signed
          exact absurd signed (minus left)
  | negSucc left =>
      cases right with
      | ofNat right =>
          have signed : '-' ∈ (Int.negSucc left).repr.toList := by
            simp [Int.repr]
          rw [same] at signed
          exact absurd signed (minus right)
      | negSucc right =>
          simp only [Int.repr] at same
          have := Text.repr_injective (by simpa using same)
          omega

theorem pidNode_injective : Function.Injective pidNode := by
  intro left right same
  have printed : toString left.toInt = toString right.toInt := by
    simpa [pidNode] using same
  exact Int32.toInt_inj.mp (int_repr_injective printed)

theorem pidNode_ne_resourceNode (pid : Int32) (path : String) : pidNode pid ≠ resourceNode path := by
  intro same
  have characters := congrArg String.toList same
  simp [pidNode, resourceNode] at characters

/-! ## Adding nodes -/

section Adding

variable {Rate : Type}

theorem mem_foldl_addNode {nodes : List (GraphNode Rate)} {graph : CausalGraph Rate} {id : String} :
    id ∈ (nodes.foldl CausalGraph.addNode graph).nodes ↔
      id ∈ graph.nodes ∨ ∃ node ∈ nodes, id = node.id := by
  induction nodes generalizing graph with
  | nil => simp
  | cons first nodes inductionHypothesis =>
      rw [List.foldl_cons, inductionHypothesis, CausalGraph.addNode, AList.mem_insert]
      simp [or_assoc, or_left_comm]

/-- A node of the result was added or was there and has not been replaced. -/
theorem node_foldl_addNode {nodes : List (GraphNode Rate)} {graph : CausalGraph Rate} {id : String}
    {node : GraphNode Rate} (found : (nodes.foldl CausalGraph.addNode graph).node id = some node) :
    (node ∈ nodes ∧ node.id = id) ∨ graph.node id = some node := by
  induction nodes generalizing graph with
  | nil => exact Or.inr found
  | cons first nodes inductionHypothesis =>
      rcases inductionHypothesis found with ⟨later, named⟩ | earlier
      · exact Or.inl ⟨List.mem_cons_of_mem _ later, named⟩
      · rw [node_addNode] at earlier
        split at earlier
        · rename_i same
          cases earlier
          exact Or.inl ⟨List.mem_cons_self, same.symm⟩
        · exact Or.inr earlier

theorem node_foldl_addNode_of_ne {nodes : List (GraphNode Rate)} {graph : CausalGraph Rate}
    {id : String} (others : ∀ node ∈ nodes, id ≠ node.id) :
    (nodes.foldl CausalGraph.addNode graph).node id = graph.node id := by
  induction nodes generalizing graph with
  | nil => rfl
  | cons first nodes inductionHypothesis =>
      rw [List.foldl_cons, inductionHypothesis fun node later => others node (by simp [later]),
        node_addNode, if_neg (others first (by simp))]

/-- Of nodes with distinct ids none is replaced. -/
theorem node_foldl_addNode_of_mem {nodes : List (GraphNode Rate)} {graph : CausalGraph Rate}
    {node : GraphNode Rate} (distinct : (nodes.map GraphNode.id).Nodup) (member : node ∈ nodes) :
    (nodes.foldl CausalGraph.addNode graph).node node.id = some node := by
  induction nodes generalizing graph with
  | nil => cases member
  | cons first nodes inductionHypothesis =>
      rw [List.map_cons, List.nodup_cons] at distinct
      rcases List.mem_cons.mp member with rfl | later
      · have others : ∀ other ∈ nodes, node.id ≠ other.id := by
          intro other later same
          exact distinct.1 (same ▸ List.mem_map_of_mem later)
        rw [List.foldl_cons, node_foldl_addNode_of_ne others, node_addNode, if_pos rfl]
      · exact inductionHypothesis distinct.2 later

end Adding

/-! ## What is observed -/

section Observed

variable {Rate : Type} [LinearOrder Rate] (doubles : Doubles Rate) (observation : Observation)

/-- The processes of the second snapshot, with their rates. -/
def observedProcesses : List (GraphNode Rate) :=
  (snapshot doubles observation.second).entries.map fun entry =>
    measured doubles observation entry.1 entry.2

/-- The devices of the second statistics. -/
def observedDevices : List (GraphNode Rate) :=
  (deviceKeys observation).map fun entry => deviceNode doubles observation entry.1 entry.2

theorem observedGraph_eq :
    observedGraph doubles observation =
      (observedDevices doubles observation).foldl CausalGraph.addNode
        ((observedProcesses doubles observation).foldl CausalGraph.addNode
          { nodes := ∅, edges := [] }) := by
  rw [observedDevices, observedProcesses, List.foldl_map, List.foldl_map]
  rfl

omit [LinearOrder Rate] in
theorem lookup_snapshot {processes : List ProcessTelemetry} {pid : Int32} {node : GraphNode Rate}
    (found : (snapshot doubles processes).lookup pid = some node) :
    ∃ telemetry ∈ processes, telemetry.pid = pid ∧ node = snapshotNode doubles telemetry := by
  induction processes using List.reverseRecOn with
  | nil => cases found
  | append_singleton processes last inductionHypothesis =>
      rw [snapshot, List.foldl_append, List.foldl_cons, List.foldl_nil, ← snapshot] at found
      by_cases same : pid = last.pid
      · rw [same, AList.lookup_insert, Option.some.injEq] at found
        exact ⟨last, by simp, same.symm, found.symm⟩
      · rw [AList.lookup_insert_ne same] at found
        obtain ⟨telemetry, member, named, taken⟩ := inductionHypothesis found
        exact ⟨telemetry, by simp [member], named, taken⟩

omit [LinearOrder Rate] in
theorem withRates_fields (previous : Option (GraphNode Rate)) (node : GraphNode Rate) :
    (withRates doubles previous node).id = node.id ∧
      (withRates doubles previous node).nodeType = node.nodeType ∧
      (withRates doubles previous node).pid = node.pid := by
  cases previous <;> exact ⟨rfl, rfl, rfl⟩

theorem withAnomaly_fields (node : GraphNode Rate) :
    (withAnomaly doubles node).id = node.id ∧
      (withAnomaly doubles node).nodeType = node.nodeType ∧
      (withAnomaly doubles node).pid = node.pid := by
  unfold withAnomaly
  split_ifs <;> exact ⟨rfl, rfl, rfl⟩

/-- The rates of a process leave its id, its type and its pid. -/
theorem measured_fields (pid : Int32) (node : GraphNode Rate) :
    (measured doubles observation pid node).id = node.id ∧
      (measured doubles observation pid node).nodeType = node.nodeType ∧
      (measured doubles observation pid node).pid = node.pid := by
  obtain ⟨id, kind, number⟩ := withAnomaly_fields doubles
    (withRates doubles ((snapshot doubles observation.first).lookup pid) node)
  obtain ⟨idBefore, kindBefore, numberBefore⟩ := withRates_fields doubles
    ((snapshot doubles observation.first).lookup pid) node
  exact ⟨id.trans idBefore, kind.trans kindBefore, number.trans numberBefore⟩

variable {doubles observation}

theorem of_mem_entries_snapshot {entry : Sigma fun _ : Int32 => GraphNode Rate}
    (member : entry ∈ (snapshot doubles observation.second).entries) :
    (measured doubles observation entry.1 entry.2).id = pidNode entry.1 ∧
      (measured doubles observation entry.1 entry.2).nodeType = .process ∧
      (measured doubles observation entry.1 entry.2).pid = entry.1 := by
  obtain ⟨pid, node⟩ := entry
  have found : (snapshot doubles observation.second).lookup pid = some node :=
    AList.mem_lookup_iff.mpr member
  obtain ⟨telemetry, _, rfl, rfl⟩ := lookup_snapshot doubles found
  exact measured_fields doubles observation telemetry.pid (snapshotNode doubles telemetry)

theorem of_mem_observedProcesses {node : GraphNode Rate}
    (member : node ∈ observedProcesses doubles observation) :
    node.id = pidNode node.pid ∧ node.nodeType = .process := by
  obtain ⟨entry, present, rfl⟩ := List.mem_map.mp member
  obtain ⟨id, kind, number⟩ := of_mem_entries_snapshot present
  exact ⟨id.trans (congrArg pidNode number.symm), kind⟩

theorem of_mem_observedDevices {node : GraphNode Rate}
    (member : node ∈ observedDevices doubles observation) :
    (∃ device, node.id = resourceNode ("/dev/" ++ device)) ∧ node.nodeType = .resource := by
  obtain ⟨entry, _, rfl⟩ := List.mem_map.mp member
  exact ⟨⟨deviceName entry.1, rfl⟩, rfl⟩

theorem nodup_observedProcesses :
    ((observedProcesses doubles observation).map GraphNode.id).Nodup := by
  have ids : (observedProcesses doubles observation).map GraphNode.id =
      ((snapshot doubles observation.second).entries.map Sigma.fst).map pidNode := by
    rw [observedProcesses, List.map_map, List.map_map]
    exact List.map_congr_left fun entry member => (of_mem_entries_snapshot member).1
  rw [ids]
  exact (snapshot doubles observation.second).keys_nodup.map pidNode_injective

/-- The process nodes are the processes of the second snapshot. -/
theorem mem_processes_observedGraph {node : GraphNode Rate} :
    node ∈ processes (observedGraph doubles observation) ↔
      node ∈ observedProcesses doubles observation := by
  rw [mem_processes (keyed_observedGraph doubles observation), observedGraph_eq]
  constructor
  · rintro ⟨found, kind⟩
    rcases node_foldl_addNode found with ⟨device, _⟩ | earlier
    · rw [(of_mem_observedDevices device).2] at kind
      cases kind
    · rcases node_foldl_addNode earlier with ⟨process, _⟩ | nothing
      · exact process
      · cases nothing
  · intro member
    obtain ⟨named, kind⟩ := of_mem_observedProcesses member
    refine ⟨?_, kind⟩
    rw [node_foldl_addNode_of_ne]
    · exact node_foldl_addNode_of_mem nodup_observedProcesses member
    · intro device isDevice same
      obtain ⟨path, resource⟩ := (of_mem_observedDevices isDevice).1
      rw [named, resource] at same
      exact pidNode_ne_resourceNode _ _ same

theorem mem_nodes_observedGraph {id : String} :
    id ∈ (observedGraph doubles observation).nodes ↔
      (∃ node ∈ observedProcesses doubles observation, id = node.id) ∨
        ∃ node ∈ observedDevices doubles observation, id = node.id := by
  have empty : id ∉ (∅ : AList fun _ : String => GraphNode Rate) := AList.notMem_empty id
  rw [observedGraph_eq, mem_foldl_addNode, mem_foldl_addNode, or_iff_right empty]

/-- A resource of the observed graph is a device. -/
theorem resource_observedGraph {id : String} {node : GraphNode Rate}
    (found : (observedGraph doubles observation).node id = some node)
    (kind : node.nodeType = .resource) : node ∈ observedDevices doubles observation := by
  rw [observedGraph_eq] at found
  rcases node_foldl_addNode found with ⟨device, _⟩ | earlier
  · exact device
  · rcases node_foldl_addNode earlier with ⟨process, _⟩ | nothing
    · rw [(of_mem_observedProcesses process).2] at kind
      cases kind
    · cases nothing

/-- Where a device was added there is a device. -/
theorem device_observedGraph {device : GraphNode Rate}
    (member : device ∈ observedDevices doubles observation) :
    ∃ node ∈ observedDevices doubles observation,
      (observedGraph doubles observation).node device.id = some node := by
  obtain ⟨node, found⟩ := mem_nodes_iff.mp
    (mem_nodes_observedGraph.mpr (Or.inr ⟨device, member, rfl⟩))
  refine ⟨node, ?_, found⟩
  have named := keyed_observedGraph doubles observation device.id node found
  obtain ⟨path, resource⟩ := (of_mem_observedDevices member).1
  rw [observedGraph_eq] at found
  rcases node_foldl_addNode found with ⟨present, _⟩ | earlier
  · exact present
  · rcases node_foldl_addNode earlier with ⟨process, _⟩ | nothing
    · rw [(of_mem_observedProcesses process).1, resource] at named
      exact absurd named (pidNode_ne_resourceNode _ _)
    · cases nothing

end Observed

end SystemPilot.Causal
