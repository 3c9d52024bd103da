import SystemPilot.Causal.Connections

/-!
# Contention

The `CONTENDS_WITH` edges are drawn between the entries of a resource, one for each
access edge.  They relate distinct processes exactly when no busy process has two
entries for one resource, and a process has two where it is in state D and has the
resource open.
-/

set_option autoImplicit false

namespace SystemPilot.Causal

/-! ## Pairs -/

theorem mem_orderedPairs {first second : String} {names : List String} :
    (first, second) ∈ orderedPairs names ↔ List.Sublist [first, second] names := by
  induction names with
  | nil => simp [orderedPairs]
  | cons name names inductionHypothesis =>
      rw [orderedPairs, List.mem_append, inductionHypothesis, List.mem_map]
      constructor
      · rintro (⟨other, member, same⟩ | later)
        · cases same
          exact (List.singleton_sublist.mpr member).cons_cons first
        · exact later.cons name
      · intro sub
        cases sub with
        | cons _ later => exact Or.inr later
        | cons_cons _ later =>
            exact Or.inl ⟨second, List.singleton_sublist.mp later, rfl⟩

theorem sublist_of_mem_of_ne {first second : String} {names : List String}
    (apart : first ≠ second) (firstMember : first ∈ names) (secondMember : second ∈ names) :
    List.Sublist [first, second] names ∨ List.Sublist [second, first] names := by
  induction names with
  | nil => cases firstMember
  | cons name names inductionHypothesis =>
      rcases List.mem_cons.mp firstMember with rfl | firstLater
      · have later := (List.mem_cons.mp secondMember).resolve_left apart.symm
        exact Or.inl ((List.singleton_sublist.mpr later).cons_cons first)
      · rcases List.mem_cons.mp secondMember with rfl | secondLater
        · exact Or.inr ((List.singleton_sublist.mpr firstLater).cons_cons second)
        · exact (inductionHypothesis firstLater secondLater).imp (List.Sublist.cons name)
            (List.Sublist.cons name)

/-! ## Links -/

section Links

variable {Rate : Type} [LinearOrder Rate] [Add Rate] (doubles : Doubles Rate)
variable (graph : CausalGraph Rate)

/-- A `CONTENDS_WITH` edge. -/
def Linked (source target : String) : Prop :=
  ∃ edge ∈ contendEdges doubles graph, edge.fromId = source ∧ edge.toId = target

def Accesses (process resource : String) : Prop :=
  ∃ edge ∈ graph.edges, edge.fromId = process ∧ edge.toId = resource ∧
    edge.edgeType.accesses = true

/-- The process moves more than 500 KB/s. -/
def Busy (process : String) : Prop :=
  ∃ node, graph.node process = some node ∧ node.nodeType = .process ∧
    doubles.fiveHundred < node.readRateKb + node.writeRateKb

variable {doubles graph}

theorem mem_contention {resource : String} {edge : GraphEdge} :
    edge ∈ contention doubles graph resource ↔
      ∃ first second, List.Sublist [first, second] (activeAccessors doubles graph resource) ∧
        (edge = contendEdge ("Shared access to " ++ resource) first second ∨
          edge = contendEdge ("Shared access to " ++ resource) second first) := by
  unfold contention
  dsimp only
  constructor
  · intro member
    split at member
    · obtain ⟨⟨first, second⟩, pair, inside⟩ := List.mem_flatMap.mp member
      exact ⟨first, second, mem_orderedPairs.mp pair, by simpa using inside⟩
    · cases member
  · rintro ⟨first, second, sub, shape⟩
    have long : 1 < (activeAccessors doubles graph resource).length := sub.length_le
    rw [if_pos long]
    exact List.mem_flatMap.mpr ⟨(first, second), mem_orderedPairs.mpr sub, by simpa using shape⟩

/-- A resource with an active accessor is one of those that are looked at. -/
theorem mem_resources {resource name : String}
    (active : name ∈ activeAccessors doubles graph resource) :
    resource ∈ ((accessEntries graph).map Prod.fst).dedup := by
  obtain ⟨entry, member, _⟩ := List.mem_map.mp active
  obtain ⟨inside, chosen⟩ := List.mem_filter.mp member
  rw [Bool.and_eq_true, decide_eq_true_eq] at chosen
  rw [List.mem_dedup, ← chosen.1]
  exact List.mem_map_of_mem inside

theorem linked_iff {source target : String} :
    Linked doubles graph source target ↔
      ∃ resource, List.Sublist [source, target] (activeAccessors doubles graph resource) ∨
        List.Sublist [target, source] (activeAccessors doubles graph resource) := by
  constructor
  · rintro ⟨edge, member, rfl, rfl⟩
    obtain ⟨resource, _, inside⟩ := List.mem_flatMap.mp member
    obtain ⟨first, second, sub, rfl | rfl⟩ := mem_contention.mp inside
    · exact ⟨resource, Or.inl sub⟩
    · exact ⟨resource, Or.inr sub⟩
  · rintro ⟨resource, sub | sub⟩
    · refine ⟨_, List.mem_flatMap.mpr ⟨resource,
        mem_resources (sub.subset List.mem_cons_self),
        mem_contention.mpr ⟨source, target, sub, Or.inl rfl⟩⟩, rfl, rfl⟩
    · refine ⟨_, List.mem_flatMap.mpr ⟨resource,
        mem_resources (sub.subset List.mem_cons_self),
        mem_contention.mpr ⟨target, source, sub, Or.inr rfl⟩⟩, rfl, rfl⟩

theorem linked_symm {source target : String} (linked : Linked doubles graph source target) :
    Linked doubles graph target source := by
  obtain ⟨resource, either⟩ := linked_iff.mp linked
  exact linked_iff.mpr ⟨resource, either.symm⟩

/-- No process is linked to itself if and only if none has two entries. -/
theorem linked_irrefl_iff :
    (∀ name, ¬ Linked doubles graph name name) ↔
      ∀ resource, (activeAccessors doubles graph resource).Nodup := by
  simp only [linked_iff, or_self, not_exists, List.nodup_iff_sublist]
  exact forall_comm

theorem linked_iff_of_ne {source target : String} (apart : source ≠ target) :
    Linked doubles graph source target ↔
      ∃ resource, source ∈ activeAccessors doubles graph resource ∧
        target ∈ activeAccessors doubles graph resource := by
  rw [linked_iff]
  refine exists_congr fun resource => ?_
  constructor
  · rintro (sub | sub)
    · exact ⟨sub.subset (by simp), sub.subset (by simp)⟩
    · exact ⟨sub.subset (by simp), sub.subset (by simp)⟩
  · rintro ⟨first, second⟩
    exact sublist_of_mem_of_ne apart first second

end Links

/-! ## Entries of a process -/

section Entries

theorem nodup_mapOpen (maps : String → Bool) (mapped : List String) (resources : List OpenResource) :
    ((mapOpen maps mapped resources).map Prod.snd).Nodup ∧
      ∀ resource ∈ mapOpen maps mapped resources, resource.2 ∉ mapped := by
  induction resources generalizing mapped with
  | nil => exact ⟨List.nodup_nil, by simp [mapOpen]⟩
  | cons resource resources inductionHypothesis =>
      obtain ⟨fdName, path⟩ := resource
      rw [mapOpen]
      split
      · rename_i new
        obtain ⟨distinct, fresh⟩ := inductionHypothesis (path :: mapped)
        rw [Bool.and_eq_true] at new
        have unseen : path ∉ mapped := by simpa using new.2
        refine ⟨List.nodup_cons.mpr ⟨?_, distinct⟩, ?_⟩
        · intro again
          obtain ⟨other, member, same⟩ := List.mem_map.mp again
          exact fresh other member (by simp [same])
        · intro other member
          rcases List.mem_cons.mp member with rfl | later
          · exact unseen
          · exact fun seen => fresh other later (by simp [seen])
      · exact inductionHypothesis mapped

theorem resourceNode_injective : Function.Injective resourceNode := by
  intro left right same
  have texts := congrArg String.toList same
  simp only [resourceNode, String.toList_append] at texts
  exact String.toList_injective (List.append_cancel_left texts)

variable {Rate : Type} [LinearOrder Rate] [Add Rate] {doubles : Doubles Rate}
variable {graph : CausalGraph Rate} {observation : Observation}

/-- The edges from a process that make it an accessor of a resource. -/
def touches (doubles : Doubles Rate) (graph : CausalGraph Rate) (observation : Observation)
    (node : GraphNode Rate) (resource : String) : List GraphEdge :=
  (ownEdges doubles graph observation node).filter fun edge =>
    edge.edgeType.accesses && edge.toId = resource

omit [LinearOrder Rate] [Add Rate] in
theorem filter_parentEdges (node : GraphNode Rate) (resource : String) :
    (parentEdges graph observation node).filter (fun edge =>
      edge.edgeType.accesses && edge.toId = resource) = [] := by
  unfold parentEdges
  dsimp only
  split <;> simp [EdgeType.accesses]

/-- A process that is blocked on a resource it has open touches it twice. -/
theorem two_touches {node : GraphNode Rate} {first : OpenResource} {rest : List OpenResource}
    (sleeping : node.state = "D")
    (mapped : mappedOpen doubles graph observation node = first :: rest) :
    2 ≤ (touches doubles graph observation node (resourceNode first.2)).length := by
  unfold touches ownEdges
  rw [List.filter_append, filter_parentEdges, List.nil_append, mapped, List.flatMap_cons,
    List.append_assoc, List.filter_append, List.length_append]
  have both : (resourceEdges doubles node first).filter (fun edge =>
      edge.edgeType.accesses && edge.toId = resourceNode first.2) =
        resourceEdges doubles node first := by
    rw [List.filter_eq_self]
    intro edge member
    unfold resourceEdges at member
    rw [if_pos sleeping] at member
    rcases List.mem_cons.mp member with rfl | member
    · dsimp only
      split <;> simp [EdgeType.accesses]
    · obtain rfl := List.mem_singleton.mp member
      simp [EdgeType.accesses]
  have length : (resourceEdges doubles node first).length = 2 := by
    unfold resourceEdges
    rw [if_pos sleeping]
    rfl
  rw [both, length]
  omega

/-- Otherwise it touches a resource at most once. -/
theorem touches_le_one {node : GraphNode Rate} (resource : String)
    (single : node.state = "D" → mappedOpen doubles graph observation node = []) :
    (touches doubles graph observation node resource).length ≤ 1 := by
  unfold touches ownEdges
  rw [List.filter_append, filter_parentEdges, List.nil_append]
  by_cases sleeping : node.state = "D"
  · rw [single sleeping, List.flatMap_nil, List.nil_append]
    refine (List.length_filter_le _ _).trans ?_
    unfold fallbackEdges
    split <;> simp
  · have none : fallbackEdges doubles graph observation node = [] := if_neg fun both =>
      sleeping both.1
    rw [none, List.append_nil]
    let access : OpenResource → GraphEdge := fun resource => {
      fromId := node.id
      toId := resourceNode resource.2
      edgeType := if node.isWriting doubles then .writesTo else .readsFrom
      details := "FD: " ++ resource.1 }
    have shape : resourceEdges doubles node = fun resource => [access resource] := by
      funext resource
      unfold resourceEdges
      rw [if_neg sleeping]
    have distinct := (nodup_mapOpen (mapsPath (node.isWriting doubles)
      (activeFiles doubles graph observation)) [] (observation.opened node.pid)).1
    have targets : ((mappedOpen doubles graph observation node).map fun resource =>
        resourceNode resource.2).Nodup := by
      have mapped := distinct.map resourceNode_injective
      rwa [List.map_map] at mapped
    have once := List.nodup_iff_count_le_one.mp targets resource
    rw [shape, ← List.map_eq_flatMap, ← List.countP_eq_length_filter, List.countP_map]
    rw [List.count, List.countP_map] at once
    refine le_trans (List.countP_mono_left ?_) once
    intro other _ counted
    have chosen : ((access other).edgeType.accesses &&
        decide ((access other).toId = resource)) = true := counted
    rw [Bool.and_eq_true, decide_eq_true_eq] at chosen
    exact beq_iff_eq.mpr chosen.2

/-- A process is an accessor of any resource at most once if and only if it is not
blocked with a resource open. -/
theorem touches_le_one_iff (node : GraphNode Rate) :
    (∀ resource, (touches doubles graph observation node resource).length ≤ 1) ↔
      (node.state = "D" → mappedOpen doubles graph observation node = []) := by
  constructor
  · intro once sleeping
    cases mapped : mappedOpen doubles graph observation node with
    | nil => rfl
    | cons first rest =>
        have twice := two_touches sleeping mapped
        have limit := once (resourceNode first.2)
        omega
  · intro single resource
    exact touches_le_one resource single

end Entries

/-! ## Entries of a resource -/

section Connected

variable {Rate : Type} [LinearOrder Rate] [Add Rate] (doubles : Doubles Rate)
variable (observation : Observation)

/-- The names a process puts into the list of a resource's active accessors. -/
def activeEntries (node : GraphNode Rate) (resource : String) : List String :=
  if doubles.fiveHundred < node.readRateKb + node.writeRateKb then
    (touches doubles (observedGraph doubles observation) observation node resource).map
      fun _ => node.id
  else []

theorem node_of_process {node : GraphNode Rate}
    (process : node ∈ processes (observedGraph doubles observation)) :
    (connectedGraph doubles observation).node node.id = some node ∧
      node.nodeType = .process := by
  obtain ⟨found, kind⟩ := (mem_processes (keyed_observedGraph doubles observation)).mp process
  exact ⟨node_connectedGraph found, kind⟩

theorem activeAccessors_connectedGraph (resource : String) :
    activeAccessors doubles (connectedGraph doubles observation) resource =
      (processes (observedGraph doubles observation)).flatMap fun node =>
        activeEntries doubles observation node resource := by
  unfold activeAccessors accessEntries
  rw [edges_connectedGraph, List.filter_flatMap, List.filterMap_flatMap, List.filter_flatMap,
    List.map_flatMap]
  refine List.flatMap_congr fun node process => ?_
  have entries : ((ownEdges doubles (observedGraph doubles observation) observation node).filter
      fun edge => edge.edgeType.accesses).filterMap (fun edge =>
        ((connectedGraph doubles observation).node edge.fromId).map fun node =>
          (edge.toId, edge.fromId, node.readRateKb + node.writeRateKb)) =
      ((ownEdges doubles (observedGraph doubles observation) observation node).filter
        fun edge => edge.edgeType.accesses).map fun edge =>
          (edge.toId, node.id, node.readRateKb + node.writeRateKb) := by
    rw [← List.filterMap_eq_map]
    refine List.filterMap_congr fun edge member => ?_
    have source := fromId_ownEdges (List.mem_of_mem_filter member)
    rw [source, (node_of_process doubles observation process).1]
    rfl
  rw [entries, List.filter_map, List.map_map, List.filter_filter, activeEntries, touches]
  by_cases busy : doubles.fiveHundred < node.readRateKb + node.writeRateKb
  · rw [if_pos busy]
    simp only [Function.comp_def, busy, decide_true, Bool.and_true]
    congr 1
    refine List.filter_congr fun edge _ => ?_
    exact Bool.and_comm _ _
  · rw [if_neg busy]
    simp [Function.comp_def, busy]

variable {doubles observation}

theorem nodup_activeEntries_iff (node : GraphNode Rate) (resource : String) :
    (activeEntries doubles observation node resource).Nodup ↔
      (doubles.fiveHundred < node.readRateKb + node.writeRateKb →
        (touches doubles (observedGraph doubles observation) observation node resource).length ≤
          1) := by
  unfold activeEntries
  split
  · rename_i busy
    rw [List.map_const', List.nodup_replicate]
    exact ⟨fun once _ => once, fun once => once busy⟩
  · rename_i idle
    exact ⟨fun _ busy => absurd busy idle, fun _ => List.nodup_nil⟩

theorem of_mem_activeEntries {node : GraphNode Rate} {resource name : String}
    (entry : name ∈ activeEntries doubles observation node resource) :
    name = node.id ∧ doubles.fiveHundred < node.readRateKb + node.writeRateKb ∧
      touches doubles (observedGraph doubles observation) observation node resource ≠ [] := by
  unfold activeEntries at entry
  split at entry
  · rename_i busy
    obtain ⟨edge, touching, rfl⟩ := List.mem_map.mp entry
    exact ⟨rfl, busy, List.ne_nil_of_mem touching⟩
  · cases entry

/-- Each process has entries of its own. -/
theorem nodup_activeAccessors_iff (resource : String) :
    (activeAccessors doubles (connectedGraph doubles observation) resource).Nodup ↔
      ∀ node ∈ processes (observedGraph doubles observation),
        doubles.fiveHundred < node.readRateKb + node.writeRateKb →
          (touches doubles (observedGraph doubles observation) observation node resource).length ≤
            1 := by
  have distinct := nodup_processes (keyed_observedGraph doubles observation)
  have apart : (processes (observedGraph doubles observation)).Pairwise
      (Function.onFun List.Disjoint fun node =>
        activeEntries doubles observation node resource) := by
    refine (List.pairwise_map.mp distinct).imp ?_
    intro first second differ name inFirst inSecond
    exact differ ((of_mem_activeEntries inFirst).1.symm.trans (of_mem_activeEntries inSecond).1)
  rw [activeAccessors_connectedGraph, List.nodup_flatMap, and_iff_left apart]
  simp only [nodup_activeEntries_iff]

theorem accesses_connectedGraph {name resource : String} :
    Accesses (connectedGraph doubles observation) name resource ↔
      ∃ node ∈ processes (observedGraph doubles observation), node.id = name ∧
        touches doubles (observedGraph doubles observation) observation node resource ≠ [] := by
  unfold Accesses
  rw [edges_connectedGraph]
  constructor
  · rintro ⟨edge, member, rfl, target, kind⟩
    obtain ⟨node, process, own⟩ := List.mem_flatMap.mp member
    refine ⟨node, process, (fromId_ownEdges own).symm, ?_⟩
    exact List.ne_nil_of_mem (List.mem_filter.mpr ⟨own, by simp [kind, target]⟩)
  · rintro ⟨node, process, rfl, edges⟩
    obtain ⟨edge, touching⟩ := List.exists_mem_of_ne_nil _ edges
    obtain ⟨own, chosen⟩ := List.mem_filter.mp touching
    rw [Bool.and_eq_true, decide_eq_true_eq] at chosen
    exact ⟨edge, List.mem_flatMap.mpr ⟨node, process, own⟩, fromId_ownEdges own, chosen.2,
      chosen.1⟩

theorem mem_activeAccessors {name resource : String} :
    name ∈ activeAccessors doubles (connectedGraph doubles observation) resource ↔
      Accesses (connectedGraph doubles observation) name resource ∧
        Busy doubles (connectedGraph doubles observation) name := by
  rw [activeAccessors_connectedGraph, List.mem_flatMap, accesses_connectedGraph]
  constructor
  · rintro ⟨node, process, entry⟩
    obtain ⟨rfl, busy, touching⟩ := of_mem_activeEntries entry
    obtain ⟨found, kind⟩ := node_of_process doubles observation process
    exact ⟨⟨node, process, rfl, touching⟩, node, found, kind, busy⟩
  · rintro ⟨⟨node, process, rfl, edges⟩, other, found, _, busy⟩
    rw [(node_of_process doubles observation process).1, Option.some.injEq] at found
    subst found
    obtain ⟨edge, touching⟩ := List.exists_mem_of_ne_nil _ edges
    refine ⟨node, process, ?_⟩
    rw [activeEntries, if_pos busy]
    exact List.mem_map.mpr ⟨edge, touching, rfl⟩

theorem linked_irrefl_connectedGraph_iff :
    (∀ name, ¬ Linked doubles (connectedGraph doubles observation) name name) ↔
      ∀ node ∈ processes (observedGraph doubles observation), node.state = "D" →
        doubles.fiveHundred < node.readRateKb + node.writeRateKb →
          mappedOpen doubles (observedGraph doubles observation) observation node = [] := by
  rw [linked_irrefl_iff]
  simp only [nodup_activeAccessors_iff]
  constructor
  · intro once node process sleeping busy
    exact (touches_le_one_iff node).mp (fun resource => once resource node process busy) sleeping
  · intro single resource node process busy
    exact (touches_le_one_iff node).mpr (fun sleeping => single node process sleeping busy) resource

end Connected

/-- Contention edges relate the distinct busy accessors of a resource, and only
these, if and only if no busy process in state D has a mapped resource. -/
theorem contention_iff {Rate : Type} [LinearOrder Rate] [Add Rate] (doubles : Doubles Rate)
    (observation : Observation) :
    ((∀ name, ¬ Linked doubles (connectedGraph doubles observation) name name) ∧
      (∀ first second, Linked doubles (connectedGraph doubles observation) first second →
        Linked doubles (connectedGraph doubles observation) second first) ∧
      ∀ first second, Linked doubles (connectedGraph doubles observation) first second ↔
        first ≠ second ∧
          (∃ resource, Accesses (connectedGraph doubles observation) first resource ∧
            Accesses (connectedGraph doubles observation) second resource) ∧
          Busy doubles (connectedGraph doubles observation) first ∧
          Busy doubles (connectedGraph doubles observation) second) ↔
      ∀ node ∈ processes (observedGraph doubles observation), node.state = "D" →
        doubles.fiveHundred < node.readRateKb + node.writeRateKb →
          mappedOpen doubles (observedGraph doubles observation) observation node = [] := by
  rw [← linked_irrefl_connectedGraph_iff]
  constructor
  · rintro ⟨irreflexive, -⟩
    exact irreflexive
  · intro irreflexive
    refine ⟨irreflexive, fun first second => linked_symm, fun first second => ?_⟩
    constructor
    · intro linked
      have apart : first ≠ second := by
        rintro rfl
        exact irreflexive first linked
      obtain ⟨resource, one, other⟩ := (linked_iff_of_ne apart).mp linked
      obtain ⟨firstAccess, firstBusy⟩ := mem_activeAccessors.mp one
      obtain ⟨secondAccess, secondBusy⟩ := mem_activeAccessors.mp other
      exact ⟨apart, ⟨resource, firstAccess, secondAccess⟩, firstBusy, secondBusy⟩
    · rintro ⟨apart, ⟨resource, firstAccess, secondAccess⟩, firstBusy, secondBusy⟩
      exact (linked_iff_of_ne apart).mpr ⟨resource,
        mem_activeAccessors.mpr ⟨firstAccess, firstBusy⟩,
        mem_activeAccessors.mpr ⟨secondAccess, secondBusy⟩⟩

/-- Rates in whole KB/s over an interval of one second. -/
def wholeNumbers : Doubles Nat where
  zero := 0
  ofTicks ticks := ticks
  cpuUsage now previous := now - previous
  rateKb bytes := bytes / 1024
  ioUtil milliseconds := milliseconds / 10
  tenth := 0
  eighty := 80
  fiveHundred := 500
  fiveThousand := 5000
  format rate := toString rate

/-- A process that wrote 1000 KB is blocked with a disk open. -/
def blockedWriter : Observation where
  first := [{
    pid := 7, name := "writer", state := "S", readBytes := 0, writeBytes := 0
    utime := 0, stime := 0 }]
  second := [{
    pid := 7, name := "writer", state := "D", readBytes := 0, writeBytes := 1024000
    utime := 0, stime := 0 }]
  disk1 := ∅
  disk2 := ∅
  openedBefore _ := []
  opened _ := [("3", "/dev/sda")]
  parent _ := 1
  trace := none

theorem blocked_writer_contends_with_itself :
    Linked wholeNumbers (connectedGraph wholeNumbers blockedWriter) "pid:7" "pid:7" := by
  refine ⟨contendEdge "Shared access to resource:/dev/sda" "pid:7" "pid:7", ?_, rfl, rfl⟩
  decide +kernel

end SystemPilot.Causal
