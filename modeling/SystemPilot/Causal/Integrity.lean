import SystemPilot.Causal.Contention
import SystemPilot.Causal.Nodes
import SystemPilot.Causal.Report
import SystemPilot.Causal.Trace

/-!
# Referential integrity

Every phase of `build_graph` adds the nodes its edges need, except for the disk
that a blocked process is linked to when no device is known.
-/

set_option autoImplicit false

namespace SystemPilot.Causal

open SystemPilot.Json

section Fallback

variable {Rate : Type} [LinearOrder Rate] [Add Rate] {doubles : Doubles Rate}
variable {observation : Observation}

/-! ## The fallback disk -/

theorem busiest_concat (nodes : List (Sigma fun _ : String => GraphNode Rate))
    (last : Sigma fun _ : String => GraphNode Rate) :
    ∃ best ∈ nodes ++ [last], busiest (nodes ++ [last]) = some best := by
  induction nodes using List.reverseRecOn generalizing last with
  | nil => exact ⟨last, by simp, rfl⟩
  | append_singleton nodes middle inductionHypothesis =>
      obtain ⟨best, member, found⟩ := inductionHypothesis middle
      rw [busiest, List.foldl_append, ← busiest, found, List.foldl_cons, List.foldl_nil]
      dsimp only
      split
      · exact ⟨best, List.mem_append_left _ member, rfl⟩
      · exact ⟨last, by simp, rfl⟩

theorem busiest_mem {nodes : List (Sigma fun _ : String => GraphNode Rate)} (nonempty : nodes ≠ []) :
    ∃ best ∈ nodes, busiest nodes = some best := by
  obtain ⟨before, last, rfl⟩ := (List.eq_nil_or_concat' nodes).resolve_left nonempty
  exact busiest_concat before last

omit [Add Rate] in
/-- The disks of the observed graph are its devices. -/
theorem disk_observedGraph {entry : Sigma fun _ : String => GraphNode Rate}
    (member : entry ∈ (observedGraph doubles observation).nodes.entries)
    (kind : entry.2.nodeType = .resource) : deviceKeys observation ≠ [] := by
  have found : (observedGraph doubles observation).node entry.1 = some entry.2 :=
    AList.mem_lookup_iff.mpr member
  have device := resource_observedGraph found kind
  intro nothing
  rw [observedDevices, nothing] at device
  cases device

theorem targetDisk_of_none (nothing : deviceKeys observation = []) :
    targetDisk (observedGraph doubles observation) = "resource:/dev/sda" := by
  have disks : ((observedGraph doubles observation).nodes.entries.filter fun entry =>
      entry.2.nodeType = .resource && Text.startsWith entry.2.id "resource:/dev/") = [] := by
    rw [List.filter_eq_nil_iff]
    intro entry member chosen
    rw [Bool.and_eq_true, decide_eq_true_eq] at chosen
    exact disk_observedGraph member chosen.1 nothing
  rw [targetDisk, disks]
  rfl

theorem targetDisk_mem (known : deviceKeys observation ≠ []) :
    targetDisk (observedGraph doubles observation) ∈
      (observedGraph doubles observation).nodes := by
  obtain ⟨key, member⟩ := List.exists_mem_of_ne_nil _ known
  have device : deviceNode doubles observation key.1 key.2 ∈ observedDevices doubles observation :=
    List.mem_map_of_mem member
  obtain ⟨node, isDevice, found⟩ := device_observedGraph device
  have disk : (⟨(deviceNode doubles observation key.1 key.2).id, node⟩ : Sigma fun _ : String => GraphNode Rate) ∈
      (observedGraph doubles observation).nodes.entries.filter fun entry =>
        entry.2.nodeType = .resource && Text.startsWith entry.2.id "resource:/dev/" := by
    obtain ⟨⟨path, named⟩, kind⟩ := of_mem_observedDevices isDevice
    refine List.mem_filter.mpr ⟨AList.mem_lookup_iff.mp found, ?_⟩
    rw [Bool.and_eq_true, decide_eq_true_eq]
    refine ⟨kind, ?_⟩
    rw [named, resourceNode, Text.startsWith]
    simp
  obtain ⟨best, chosen, busiest⟩ := busiest_mem (List.ne_nil_of_mem disk)
  rw [targetDisk, busiest, Option.map_some, Option.getD_some]
  exact AList.mem_keys.mpr (List.mem_map_of_mem (List.mem_of_mem_filter chosen))

end Fallback

/-! ## Mapped resources -/

section Mapped

variable {Rate : Type} [LinearOrder Rate] {doubles : Doubles Rate} {observation : Observation}

theorem exists_mem_mapOpen {maps : String → Bool} {path : String} {mapped : List String}
    {resources : List OpenResource} :
    (∃ resource ∈ mapOpen maps mapped resources, resource.2 = path) ↔
      maps path = true ∧ path ∉ mapped ∧ ∃ resource ∈ resources, resource.2 = path := by
  induction resources generalizing mapped with
  | nil => simp [mapOpen]
  | cons first resources inductionHypothesis =>
      obtain ⟨name, opened⟩ := first
      rw [mapOpen]
      split
      · rename_i new
        rw [Bool.and_eq_true, Bool.not_eq_true', List.contains_eq_mem, decide_eq_false_iff_not] at new
        rw [List.exists_mem_cons_iff, inductionHypothesis, List.exists_mem_cons_iff, List.mem_cons]
        by_cases same : opened = path
        · subst same
          simp [new]
        · simp [same, Ne.symm same]
      · rename_i old
        rw [Bool.and_eq_true, Bool.not_eq_true', List.contains_eq_mem, decide_eq_false_iff_not] at old
        rw [inductionHypothesis, List.exists_mem_cons_iff]
        refine and_congr_right fun isMapped => and_congr_right fun fresh => ?_
        rw [or_iff_right]
        rintro rfl
        exact old ⟨isMapped, fresh⟩

theorem exists_mem_mappedOpen {graph : CausalGraph Rate} {node : GraphNode Rate} {path : String} :
    (∃ resource ∈ mappedOpen doubles graph observation node, resource.2 = path) ↔
      mapsPath (node.isWriting doubles) (activeFiles doubles graph observation) path = true ∧
        path ∈ (observation.opened node.pid).map Prod.snd := by
  rw [mappedOpen, exists_mem_mapOpen, List.mem_map]
  simp

/-- A process has nothing open that the graph maps. -/
def Unmapped (doubles : Doubles Rate) (observation : Observation) (node : GraphNode Rate) : Prop :=
  ∀ path ∈ (observation.opened node.pid).map Prod.snd,
    mapsPath (node.isWriting doubles)
      (activeFiles doubles (observedGraph doubles observation) observation) path = false

theorem mappedOpen_eq_nil_iff {node : GraphNode Rate} :
    mappedOpen doubles (observedGraph doubles observation) observation node = [] ↔
      Unmapped doubles observation node := by
  rw [List.eq_nil_iff_forall_not_mem]
  constructor
  · intro nothing path opened
    by_contra maps
    obtain ⟨resource, member, _⟩ := exists_mem_mappedOpen.mpr ⟨by simpa using maps, opened⟩
    exact nothing resource member
  · intro unmapped resource member
    obtain ⟨maps, opened⟩ := exists_mem_mappedOpen.mp ⟨resource, member, rfl⟩
    rw [unmapped resource.2 opened] at maps
    cases maps

end Mapped

/-! ## Events -/

section Events

variable {Rate : Type} {doubles : Doubles Rate}

theorem mem_nodes_applyEvent {graph : CausalGraph Rate} {event : TraceEvent} {id : String} :
    id ∈ (applyEvent doubles graph event).nodes ↔
      id ∈ graph.nodes ∨ id = pidNode event.pid ∨
        ∃ resource, event.resource = some resource ∧ id = resource.1 := by
  unfold applyEvent
  dsimp only
  cases event.resource with
  | none => simp [mem_addNew, tracedProcess]
  | some resource =>
      simp [CausalGraph.addEdge, mem_addNew, tracedProcess, bareResource, or_assoc]

/-- The edge of an event. -/
def eventEdges (event : TraceEvent) : List GraphEdge :=
  (event.resource.map fun resource => {
    fromId := pidNode event.pid, toId := resource.1, edgeType := .readsFrom
    details := "eBPF: " ++ Text.toAsciiLowercase event.eventType }).toList

theorem edges_applyEvent (graph : CausalGraph Rate) (event : TraceEvent) :
    (applyEvent doubles graph event).edges = graph.edges ++ eventEdges event := by
  unfold applyEvent eventEdges
  dsimp only
  cases event.resource with
  | none => simp [edges_addNew]
  | some resource => simp [CausalGraph.addEdge, edges_addNew]

theorem mem_nodes_foldl_applyEvent {events : List TraceEvent} {graph : CausalGraph Rate}
    {id : String} :
    id ∈ (events.foldl (applyEvent doubles) graph).nodes ↔
      id ∈ graph.nodes ∨ ∃ event ∈ events, id = pidNode event.pid ∨
        ∃ resource, event.resource = some resource ∧ id = resource.1 := by
  induction events generalizing graph with
  | nil => simp
  | cons event events inductionHypothesis =>
      rw [List.foldl_cons, inductionHypothesis, mem_nodes_applyEvent,
        List.exists_mem_cons_iff, or_assoc]

theorem edges_foldl_applyEvent (events : List TraceEvent) (graph : CausalGraph Rate) :
    (events.foldl (applyEvent doubles) graph).edges = graph.edges ++ events.flatMap eventEdges := by
  induction events generalizing graph with
  | nil => simp
  | cons event events inductionHypothesis =>
      rw [List.foldl_cons, inductionHypothesis, edges_applyEvent, List.flatMap_cons,
        List.append_assoc]

theorem Keyed.foldl_addNew {graph : CausalGraph Rate} (keyed : Keyed graph)
    (nodes : List (GraphNode Rate)) : Keyed (nodes.foldl Causal.addNew graph) := by
  induction nodes generalizing graph with
  | nil => exact keyed
  | cons node nodes inductionHypothesis => exact inductionHypothesis (keyed.addNew node)

theorem Keyed.applyEvent {graph : CausalGraph Rate} (keyed : Keyed graph) (event : TraceEvent) :
    Keyed (applyEvent doubles graph event) := by
  have process := keyed.addNew (tracedProcess doubles event)
  unfold Causal.applyEvent
  dsimp only
  cases event.resource with
  | none => exact process
  | some resource => exact process.addNew (bareResource doubles resource.1 resource.2)

theorem Keyed.foldl_applyEvent {graph : CausalGraph Rate} (keyed : Keyed graph)
    (events : List TraceEvent) : Keyed (events.foldl (Causal.applyEvent doubles) graph) := by
  induction events generalizing graph with
  | nil => exact keyed
  | cons event events inductionHypothesis => exact inductionHypothesis (keyed.applyEvent event)

end Events

/-! ## The final graph -/

section Final

variable {Rate : Type} [LinearOrder Rate] [Add Rate] {doubles : Doubles Rate}
variable {observation : Observation}

theorem mem_nodes_connectedGraph {id : String} :
    id ∈ (connectedGraph doubles observation).nodes ↔
      id ∈ (observedGraph doubles observation).nodes ∨
        ∃ node ∈ observedProcesses doubles observation,
          ∃ resource ∈ mappedOpen doubles (observedGraph doubles observation) observation node,
            id = resourceNode resource.2 := by
  unfold connectedGraph
  dsimp only
  rw [mem_foldl_addNew, connections_eq (keyed_observedGraph doubles observation)]
  constructor
  · rintro (old | ⟨node, new, rfl⟩)
    · exact Or.inl old
    · obtain ⟨process, isProcess, own⟩ := List.mem_flatMap.mp new
      obtain ⟨resource, mapped, rfl⟩ := List.mem_map.mp own
      exact Or.inr ⟨process, mem_processes_observedGraph.mp isProcess, resource,
        List.mem_of_mem_filter mapped, rfl⟩
  · rintro (old | ⟨process, isProcess, resource, mapped, rfl⟩)
    · exact Or.inl old
    · by_cases present : resourceNode resource.2 ∈ (observedGraph doubles observation).nodes
      · exact Or.inl present
      · refine Or.inr ⟨bareResource doubles (resourceNode resource.2) resource.2,
          List.mem_flatMap.mpr ⟨process, mem_processes_observedGraph.mpr isProcess, ?_⟩, rfl⟩
        exact List.mem_map.mpr ⟨resource, List.mem_filter.mpr ⟨mapped, by simpa using present⟩, rfl⟩

theorem mem_nodes_buildGraph {id : String} :
    id ∈ (buildGraph doubles observation).nodes ↔
      id ∈ (connectedGraph doubles observation).nodes ∨
        ∃ event ∈ traceEvents observation, id = pidNode event.pid ∨
          ∃ resource, event.resource = some resource ∧ id = resource.1 :=
  mem_nodes_foldl_applyEvent

theorem edges_buildGraph (doubles : Doubles Rate) (observation : Observation) :
    (buildGraph doubles observation).edges =
      (connectedGraph doubles observation).edges ++
        contendEdges doubles (connectedGraph doubles observation) ++
        (traceEvents observation).flatMap eventEdges :=
  edges_foldl_applyEvent _ _

theorem keyed_buildGraph : Keyed (buildGraph doubles observation) := by
  have observed := keyed_observedGraph doubles observation
  have connected : Keyed { connectedGraph doubles observation with
      edges := (connectedGraph doubles observation).edges ++
        contendEdges doubles (connectedGraph doubles observation) } :=
    Keyed.foldl_addNew observed _
  exact connected.foldl_applyEvent (traceEvents observation)

/-! ## The ends of edges -/

theorem mem_nodes_of_process {node : GraphNode Rate}
    (process : node ∈ observedProcesses doubles observation) :
    node.id ∈ (buildGraph doubles observation).nodes :=
  mem_nodes_buildGraph.mpr (Or.inl (mem_nodes_connectedGraph.mpr (Or.inl
    (mem_nodes_observedGraph.mpr (Or.inl ⟨node, process, rfl⟩)))))

/-- What a process is connected to exists, the fallback disk apart. -/
theorem toId_ownEdges {node : GraphNode Rate} {edge : GraphEdge}
    (process : node ∈ observedProcesses doubles observation)
    (own : edge ∈ ownEdges doubles (observedGraph doubles observation) observation node) :
    edge.toId ∈ (connectedGraph doubles observation).nodes ∨
      edge ∈ fallbackEdges doubles (observedGraph doubles observation) observation node := by
  rcases List.mem_append.mp own with parent | later
  · unfold parentEdges at parent
    dsimp only at parent
    split at parent
    · rename_i present
      obtain rfl := List.mem_singleton.mp parent
      exact Or.inl (mem_nodes_connectedGraph.mpr (Or.inl present.2))
    · cases parent
  · rcases List.mem_append.mp later with mapped | fallback
    · obtain ⟨resource, isMapped, inside⟩ := List.mem_flatMap.mp mapped
      have target : edge.toId = resourceNode resource.2 := by
        unfold resourceEdges at inside
        rcases List.mem_cons.mp inside with rfl | blocked
        · rfl
        · split at blocked
          · obtain rfl := List.mem_singleton.mp blocked
            rfl
          · cases blocked
      exact Or.inl (mem_nodes_connectedGraph.mpr
        (Or.inr ⟨node, process, resource, isMapped, target⟩))
    · exact Or.inr fallback

/-- Contention is between nodes that exist. -/
theorem ends_contendEdges {graph : CausalGraph Rate} {edge : GraphEdge}
    (member : edge ∈ contendEdges doubles graph) :
    edge.fromId ∈ graph.nodes ∧ edge.toId ∈ graph.nodes := by
  have active : ∀ resource name, name ∈ activeAccessors doubles graph resource →
      name ∈ graph.nodes := by
    intro resource name isActive
    obtain ⟨entry, chosen, rfl⟩ := List.mem_map.mp isActive
    obtain ⟨edge, _, found⟩ := List.mem_filterMap.mp (List.mem_of_mem_filter chosen)
    obtain ⟨node, there, rfl⟩ := Option.map_eq_some_iff.mp found
    exact mem_nodes_iff.mpr ⟨node, there⟩
  obtain ⟨resource, _, inside⟩ := List.mem_flatMap.mp member
  obtain ⟨first, second, sub, rfl | rfl⟩ := mem_contention.mp inside
  · exact ⟨active resource first (sub.subset (by simp)), active resource second (sub.subset (by simp))⟩
  · exact ⟨active resource second (sub.subset (by simp)), active resource first (sub.subset (by simp))⟩

theorem ends_eventEdges {event : TraceEvent} {edge : GraphEdge}
    (member : event ∈ traceEvents observation) (own : edge ∈ eventEdges event) :
    edge.fromId ∈ (buildGraph doubles observation).nodes ∧
      edge.toId ∈ (buildGraph doubles observation).nodes := by
  rw [eventEdges, Option.mem_toList, Option.map_eq_some_iff] at own
  obtain ⟨resource, found, rfl⟩ := own
  exact ⟨mem_nodes_buildGraph.mpr (Or.inr ⟨event, member, Or.inl rfl⟩),
    mem_nodes_buildGraph.mpr (Or.inr ⟨event, member, Or.inr ⟨resource, found, rfl⟩⟩)⟩

/-- Every edge has its ends if and only if the fallback disk exists where a process
is linked to it. -/
theorem closed_buildGraph_iff :
    (∀ edge ∈ (buildGraph doubles observation).edges,
      edge.fromId ∈ (buildGraph doubles observation).nodes ∧
        edge.toId ∈ (buildGraph doubles observation).nodes) ↔
      ∀ node ∈ observedProcesses doubles observation, node.state = "D" →
        Unmapped doubles observation node →
          targetDisk (observedGraph doubles observation) ∈
            (buildGraph doubles observation).nodes := by
  constructor
  · intro closed node process sleeping unmapped
    refine (closed (blockedOnDisk (observedGraph doubles observation) node) ?_).2
    rw [edges_buildGraph, edges_connectedGraph]
    refine List.mem_append_left _ (List.mem_append_left _ (List.mem_flatMap.mpr
      ⟨node, mem_processes_observedGraph.mpr process, ?_⟩))
    refine List.mem_append_right _ (List.mem_append_right _ ?_)
    rw [fallbackEdges, if_pos ⟨sleeping, mappedOpen_eq_nil_iff.mpr unmapped⟩]
    exact List.mem_singleton.mpr rfl
  · intro known edge member
    rw [edges_buildGraph, edges_connectedGraph] at member
    rcases List.mem_append.mp member with connected | event
    · rcases List.mem_append.mp connected with own | contend
      · obtain ⟨node, isProcess, inside⟩ := List.mem_flatMap.mp own
        have process := mem_processes_observedGraph.mp isProcess
        refine ⟨fromId_ownEdges inside ▸ mem_nodes_of_process process, ?_⟩
        rcases toId_ownEdges process inside with present | fallback
        · exact mem_nodes_buildGraph.mpr (Or.inl present)
        · unfold fallbackEdges at fallback
          split at fallback
          · rename_i needed
            obtain rfl := List.mem_singleton.mp fallback
            exact known node process needed.1 (mappedOpen_eq_nil_iff.mp needed.2)
          · cases fallback
      · have ends := ends_contendEdges contend
        exact ⟨mem_nodes_buildGraph.mpr (Or.inl ends.1), mem_nodes_buildGraph.mpr (Or.inl ends.2)⟩
    · obtain ⟨source, isEvent, own⟩ := List.mem_flatMap.mp event
      exact ends_eventEdges isEvent own

/-! ## The name of the fallback disk -/

/-- An event is about the file of a path. -/
def TraceEvent.opens (event : TraceEvent) (path : String) : Prop :=
  (event.eventType = "OPEN" ∨ event.eventType = "OPENAT" ∨ event.eventType = "EXEC") ∧
    event.details = path

theorem resource_disk_iff (event : TraceEvent) :
    (∃ resource, event.resource = some resource ∧ resourceNode "/dev/sda" = resource.1) ↔
      event.opens "/dev/sda" := by
  have socket : ∀ details, resourceNode "/dev/sda" ≠ resourceNode ("socket_" ++ details) := by
    intro details same
    have characters := congrArg String.toList (resourceNode_injective same)
    simp at characters
  have file : ∀ details, resourceNode "/dev/sda" = resourceNode details ↔ details = "/dev/sda" :=
    fun details => resourceNode_injective.eq_iff.trans eq_comm
  unfold TraceEvent.resource TraceEvent.opens
  split_ifs with opened connected executed
  · rcases opened with kind | kind <;> simp [kind, file]
  · simp [connected, socket]
  · simp [executed, file]
  · simp only [not_or] at opened
    simp [opened, executed]

/-- What makes the fallback disk a node. -/
def DiskKnown (doubles : Doubles Rate) (observation : Observation) : Prop :=
  deviceKeys observation ≠ [] ∨
    (∃ node ∈ observedProcesses doubles observation,
      "/dev/sda" ∈ (observation.opened node.pid).map Prod.snd) ∨
    ∃ event ∈ traceEvents observation, event.opens "/dev/sda"

theorem mem_nodes_disk (nothing : deviceKeys observation = []) :
    resourceNode "/dev/sda" ∈ (buildGraph doubles observation).nodes ↔
      DiskKnown doubles observation := by
  have observed : resourceNode "/dev/sda" ∉ (observedGraph doubles observation).nodes := by
    rw [mem_nodes_observedGraph, observedDevices, nothing]
    rintro (⟨node, process, same⟩ | ⟨node, device, _⟩)
    · rw [(of_mem_observedProcesses process).1] at same
      exact pidNode_ne_resourceNode _ _ same.symm
    · cases device
  have mapped : ∀ node : GraphNode Rate,
      (∃ resource ∈ mappedOpen doubles (observedGraph doubles observation) observation node,
        resourceNode "/dev/sda" = resourceNode resource.2) ↔
      "/dev/sda" ∈ (observation.opened node.pid).map Prod.snd := by
    intro node
    have device : mapsPath (node.isWriting doubles)
        (activeFiles doubles (observedGraph doubles observation) observation) "/dev/sda" = true := by
      rw [mapsPath, if_pos (by decide)]
    have opened : (∃ resource ∈ mappedOpen doubles (observedGraph doubles observation) observation
        node, resource.2 = "/dev/sda") ↔
        "/dev/sda" ∈ (observation.opened node.pid).map Prod.snd :=
      exists_mem_mappedOpen.trans (and_iff_right device)
    rw [← opened]
    refine exists_congr fun resource => and_congr_right fun _ => ?_
    exact resourceNode_injective.eq_iff.trans eq_comm
  rw [mem_nodes_buildGraph, mem_nodes_connectedGraph, or_iff_right observed, DiskKnown,
    or_iff_right (not_not_intro nothing)]
  refine or_congr ?_ ?_
  · exact exists_congr fun node => and_congr_right fun _ => mapped node
  · refine exists_congr fun event => and_congr_right fun _ => ?_
    rw [resource_disk_iff, or_iff_right (pidNode_ne_resourceNode _ _).symm]

theorem targetDisk_known_iff :
    targetDisk (observedGraph doubles observation) ∈ (buildGraph doubles observation).nodes ↔
      DiskKnown doubles observation := by
  by_cases nothing : deviceKeys observation = []
  · rw [targetDisk_of_none nothing]
    exact mem_nodes_disk nothing
  · have present : targetDisk (observedGraph doubles observation) ∈
        (buildGraph doubles observation).nodes :=
      mem_nodes_buildGraph.mpr (Or.inl (mem_nodes_connectedGraph.mpr
        (Or.inl (targetDisk_mem nothing))))
    exact iff_of_true present (Or.inl nothing)

/-! ## What follows for a path -/

section Paths

variable {graph : CausalGraph Rate}

/-- A trace stays among the nodes. -/
theorem traceRootCause_mem (closed : ∀ edge ∈ graph.edges,
    edge.fromId ∈ graph.nodes ∧ edge.toId ∈ graph.nodes) {start id : String}
    (member : id ∈ traceRootCause graph start) : id ∈ graph.nodes := by
  by_cases present : start ∈ graph.nodes
  · have reachable := ((closure_traceRootCause present).members id).mp member
    rcases List.mem_cons.mp (mem_of_reachable reachable) with rfl | ending
    · exact present
    · rcases List.mem_append.mp ending with source | target
      · obtain ⟨edge, isEdge, rfl⟩ := List.mem_map.mp source
        exact (closed edge isEdge).1
      · obtain ⟨edge, isEdge, rfl⟩ := List.mem_map.mp target
        exact (closed edge isEdge).2
  · rw [traceRootCause, if_neg present] at member
    cases member

end Paths

end Final

/-! ## Serialised chains -/

/-- The value under a key of an object. -/
def valueAt (key : String) : Value → Option Value
  | .object fields => Fields.get fields key
  | _ => none

/-- The ends of the edges of a chain are ids of its nodes. -/
def EndsListed (chain : Value) : Prop :=
  ∃ edges nodes, valueAt "edges" chain = some (.array edges) ∧
    valueAt "nodes" chain = some (.array nodes) ∧
    ∀ edge ∈ edges, ∀ key ∈ ["from", "to"], ∃ id, valueAt key edge = some (.string id) ∧
      ∃ node ∈ nodes, valueAt "id" node = some (.string id)

theorem valueAt_mapFloats (change : UInt64 → UInt64) (key : String) (value : Value) :
    valueAt key (value.mapFloats change) = (valueAt key value).map (Value.mapFloats change) := by
  cases value with
  | object fields => exact get_mapFloatsFields change fields key
  | number number => cases number <;> rfl
  | _ => rfl

theorem mapFloatsItems_eq_map (change : UInt64 → UInt64) (items : List Value) :
    mapFloatsItems change items = items.map (Value.mapFloats change) := by
  induction items with
  | nil => rfl
  | cons item items inductionHypothesis => rw [mapFloatsItems, inductionHypothesis, List.map_cons]

theorem EndsListed.mapFloats {chain : Value} (listed : EndsListed chain)
    (change : UInt64 → UInt64) : EndsListed (chain.mapFloats change) := by
  obtain ⟨edges, nodes, atEdges, atNodes, ends⟩ := listed
  refine ⟨edges.map (Value.mapFloats change), nodes.map (Value.mapFloats change), ?_, ?_, ?_⟩
  · rw [valueAt_mapFloats, atEdges, ← mapFloatsItems_eq_map]
    rfl
  · rw [valueAt_mapFloats, atNodes, ← mapFloatsItems_eq_map]
    rfl
  · intro edge member key isEnd
    obtain ⟨original, isEdge, rfl⟩ := List.mem_map.mp member
    obtain ⟨id, atKey, node, isNode, atId⟩ := ends original isEdge key isEnd
    refine ⟨id, ?_, node.mapFloats change, List.mem_map_of_mem isNode, ?_⟩
    · rw [valueAt_mapFloats, atKey]
      rfl
    · rw [valueAt_mapFloats, atId]
      rfl

section Serialized

variable {Rate : Type} (bits : Rate → UInt64) {graph : CausalGraph Rate} {path : List String}

theorem valueAt_id (node : GraphNode Rate) :
    valueAt "id" (.object (nodeFields bits node)) = some (.string node.id) := by
  unfold nodeFields
  dsimp only
  split_ifs
  · rw [valueAt, Fields.get_insert_of_ne _ _ (by decide), Fields.get_insert_of_ne _ _ (by decide),
      Fields.get_insert_of_ne _ _ (by decide)]
    rfl
  · rfl

theorem endsListed_serializeChain (keyed : Keyed graph) (nodes : ∀ id ∈ path, id ∈ graph.nodes) :
    EndsListed (.object (serializeChain bits graph path)) := by
  refine ⟨_, _, rfl, rfl, ?_⟩
  have listed : ∀ id ∈ path, ∃ node ∈ (pathNodes graph path).map fun node =>
      Value.object (nodeFields bits node), valueAt "id" node = some (.string id) := by
    intro id onPath
    obtain ⟨node, found⟩ := mem_nodes_iff.mp (nodes id onPath)
    refine ⟨_, List.mem_map_of_mem (List.mem_filterMap.mpr ⟨id, onPath, found⟩), ?_⟩
    rw [valueAt_id, keyed id node found]
  intro edge member key isEnd
  obtain ⟨source, chosen, rfl⟩ := List.mem_map.mp member
  have ends := (List.mem_filter.mp chosen).2
  rw [onPath, Bool.and_eq_true, List.contains_iff_mem, List.contains_iff_mem] at ends
  rcases List.mem_cons.mp isEnd with rfl | later
  · exact ⟨source.fromId, rfl, listed source.fromId ends.1⟩
  · obtain rfl := List.mem_singleton.mp later
    exact ⟨source.toId, rfl, listed source.toId ends.2⟩

end Serialized

/-- The edges of a graph, its traces and its serialised chains refer to nodes that
exist. -/
structure Intact {Rate : Type} [LinearOrder Rate] [Add Rate] (floats : FloatText)
    (bits : Rate → UInt64) (graph : CausalGraph Rate) : Prop where
  closed : ∀ edge ∈ graph.edges, edge.fromId ∈ graph.nodes ∧ edge.toId ∈ graph.nodes
  traced : ∀ start, ∀ id ∈ traceRootCause graph start, id ∈ graph.nodes
  serialized : ∀ start, ∃ chain,
    parseText floats (serializeChainToJson bits graph (traceRootCause graph start) floats) =
      some chain ∧ EndsListed chain

/-- The graph has referential integrity if and only if the fallback disk is known
wherever a process in state D has nothing open that the graph maps. -/
theorem buildGraph_intact_iff {Rate : Type} [LinearOrder Rate] [Add Rate] (doubles : Doubles Rate)
    (floats : FloatText) (bits : Rate → UInt64) (observation : Observation) :
    Intact floats bits (buildGraph doubles observation) ↔
      ((∃ node ∈ observedProcesses doubles observation, node.state = "D" ∧
        Unmapped doubles observation node) → DiskKnown doubles observation) := by
  have closed_iff := @closed_buildGraph_iff Rate _ _ doubles observation
  rw [targetDisk_known_iff] at closed_iff
  constructor
  · rintro ⟨closed, -, -⟩ ⟨node, process, sleeping, unmapped⟩
    exact closed_iff.mp closed node process sleeping unmapped
  · intro known
    have closed := closed_iff.mpr fun node process sleeping unmapped =>
      known ⟨node, process, sleeping, unmapped⟩
    have traced : ∀ start, ∀ id ∈ traceRootCause (buildGraph doubles observation) start,
        id ∈ (buildGraph doubles observation).nodes := fun start id => traceRootCause_mem closed
    refine ⟨closed, traced, fun start => ⟨_, parseText_serializeChainToJson floats bits _ _, ?_⟩⟩
    exact (endsListed_serializeChain bits keyed_buildGraph (traced start)).mapFloats floats.reread

/-- A process is blocked on a machine without disk statistics, and nothing of it is
open. -/
def blockedAlone : Observation where
  first := []
  second := [{
    pid := 7, name := "writer", state := "D", readBytes := 0, writeBytes := 0
    utime := 0, stime := 0 }]
  disk1 := ∅
  disk2 := ∅
  openedBefore _ := []
  opened _ := []
  parent _ := 1
  trace := none

theorem blocked_process_on_missing_disk :
    traceRootCause (buildGraph wholeNumbers blockedAlone) "pid:7" = ["pid:7", "resource:/dev/sda"] ∧
      "resource:/dev/sda" ∉ (buildGraph wholeNumbers blockedAlone).nodes ∧
      ∀ floats bits, ¬ Intact floats bits (buildGraph wholeNumbers blockedAlone) := by
  have path : traceRootCause (buildGraph wholeNumbers blockedAlone) "pid:7" =
      ["pid:7", "resource:/dev/sda"] := by decide +kernel
  have missing : "resource:/dev/sda" ∉ (buildGraph wholeNumbers blockedAlone).nodes := by
    decide +kernel
  refine ⟨path, missing, ?_⟩
  rintro floats bits ⟨-, traced, -⟩
  exact missing (traced "pid:7" "resource:/dev/sda" (by rw [path]; simp))

end SystemPilot.Causal
