import Mathlib.Tactic
import SystemPilot.Causal.Graph
import SystemPilot.Codebase.Chunks
import SystemPilot.Text

/-!
# Building the causal graph

`build_graph` on what it observes: two snapshots of the processes and of the disk
statistics, the open files and the parents of the processes, and the log of an
eBPF trace.  Nodes and edges are added in five phases.
-/

set_option autoImplicit false

namespace SystemPilot.Causal

open SystemPilot.Text

/-! ## What is observed -/

/-- The fields of `ProcessTelemetry` a snapshot keeps. -/
structure ProcessTelemetry where
  pid : Int32
  name : String
  state : String
  readBytes : Nat
  writeBytes : Nat
  utime : Nat
  stime : Nat
  deriving DecidableEq, Repr

/-- The arithmetic on doubles: how counters become rates over the interval, the
bounds they are compared with, and `{:.0}`. -/
structure Doubles (Rate : Type) where
  zero : Rate
  ofTicks : Nat → Rate
  cpuUsage : Rate → Rate → Rate
  rateKb : Nat → Rate
  ioUtil : Nat → Rate
  tenth : Rate
  eighty : Rate
  fiveHundred : Rate
  fiveThousand : Rate
  format : Rate → String

/-- A file descriptor and what it is open on. -/
abbrev OpenResource := String × String

/-- The open resources of a process are read twice, first to find the active
files and then to connect it; the trace log is there if a trace was running. -/
structure Observation where
  first : List ProcessTelemetry
  second : List ProcessTelemetry
  disk1 : AList fun _ : String => Nat
  disk2 : AList fun _ : String => Nat
  openedBefore : Int32 → List OpenResource
  opened : Int32 → List OpenResource
  parent : Int32 → Int32
  trace : Option String

def pidNode (pid : Int32) : String := "pid:" ++ toString pid.toInt

def resourceNode (path : String) : String := "resource:" ++ path

section Build

variable {Rate : Type} [LinearOrder Rate] [Add Rate] (doubles : Doubles Rate)

/-! ## Processes and devices -/

/-- A process in `take_proc_snapshot`. -/
def snapshotNode (telemetry : ProcessTelemetry) : GraphNode Rate where
  id := pidNode telemetry.pid
  nodeType := .process
  name := telemetry.name
  pid := telemetry.pid
  state := telemetry.state
  readBytes := telemetry.readBytes
  writeBytes := telemetry.writeBytes
  readRateKb := doubles.zero
  writeRateKb := doubles.zero
  cpuUsagePct := doubles.ofTicks (telemetry.utime + telemetry.stime)
  isAnomalous := false
  anomalyReason := ""

/-- `take_proc_snapshot`; of two processes with one pid the later one is kept. -/
def snapshot (processes : List ProcessTelemetry) : AList fun _ : Int32 => GraphNode Rate :=
  processes.foldl (fun snap telemetry => snap.insert telemetry.pid (snapshotNode doubles telemetry)) ∅

/-- The rates of a process since the first snapshot. -/
def withRates (previous : Option (GraphNode Rate)) (node : GraphNode Rate) : GraphNode Rate :=
  match previous with
  | some previous => { node with
      cpuUsagePct := doubles.cpuUsage node.cpuUsagePct previous.cpuUsagePct
      readRateKb := doubles.rateKb (node.readBytes - previous.readBytes)
      writeRateKb := doubles.rateKb (node.writeBytes - previous.writeBytes) }
  | none => { node with
      cpuUsagePct := doubles.zero
      readRateKb := doubles.zero
      writeRateKb := doubles.zero }

/-- Anomaly detection. -/
def withAnomaly (node : GraphNode Rate) : GraphNode Rate :=
  if node.state = "D" then { node with
    isAnomalous := true
    anomalyReason :=
      "Process is in uninterruptible sleep (D-state), likely blocked on disk I/O" }
  else if doubles.eighty < node.cpuUsagePct then { node with
    isAnomalous := true
    anomalyReason := "High CPU utilization (" ++ doubles.format node.cpuUsagePct ++ "%)" }
  else if doubles.fiveThousand < node.writeRateKb then { node with
    isAnomalous := true
    anomalyReason := "High disk write rate (" ++ doubles.format node.writeRateKb ++ " KB/s)" }
  else if doubles.fiveThousand < node.readRateKb then { node with
    isAnomalous := true
    anomalyReason := "High disk read rate (" ++ doubles.format node.readRateKb ++ " KB/s)" }
  else node

def measured (observation : Observation) (pid : Int32) (node : GraphNode Rate) : GraphNode Rate :=
  withAnomaly doubles (withRates doubles ((snapshot doubles observation.first).lookup pid) node)

def processGraph (observation : Observation) : CausalGraph Rate :=
  (snapshot doubles observation.second).entries.foldl
    (fun graph entry => graph.addNode (measured doubles observation entry.1 entry.2))
    { nodes := ∅, edges := [] }

/-- `disk.get(..).copied().unwrap_or(0)`. -/
def statistic (disk : AList fun _ : String => Nat) (key : String) : Nat :=
  (disk.lookup key).getD 0

def ioTimeSuffix : String := "_io_time_ms"

/-- The device of a key that ends in the suffix. -/
def deviceName (key : String) : String :=
  String.ofList (key.toList.take (key.toList.length - ioTimeSuffix.toList.length))

def deviceNode (observation : Observation) (key : String) (ioTime2 : Nat) : GraphNode Rate :=
  let device := deviceName key
  let difference := fun key =>
    statistic observation.disk2 key - statistic observation.disk1 key
  let ioUtil := doubles.ioUtil (ioTime2 - statistic observation.disk1 key)
  { id := resourceNode ("/dev/" ++ device)
    nodeType := .resource
    name := "/dev/" ++ device
    pid := 0
    state := ""
    readBytes := 0
    writeBytes := 0
    readRateKb := doubles.rateKb (difference (device ++ "_read_bytes"))
    writeRateKb := doubles.rateKb (difference (device ++ "_write_bytes"))
    cpuUsagePct := doubles.zero
    isAnomalous := doubles.eighty < ioUtil
    anomalyReason :=
      if doubles.eighty < ioUtil then
        "Device utilization is high (" ++ doubles.format ioUtil ++ "% time active)"
      else "" }

/-- The keys of the second statistics that name a device. -/
def deviceKeys (observation : Observation) : List (Sigma fun _ : String => Nat) :=
  observation.disk2.entries.filter fun entry => endsWith entry.1 ioTimeSuffix

/-- The processes and devices, before anything is connected. -/
def observedGraph (observation : Observation) : CausalGraph Rate :=
  (deviceKeys observation).foldl
    (fun graph entry => graph.addNode (deviceNode doubles observation entry.1 entry.2))
    (processGraph doubles observation)

/-! ## Resources -/

def contains (text part : String) : Bool :=
  text.toList.tails.any fun rest => part.toList.isPrefixOf rest

variable (graph : CausalGraph Rate)

/-- The processes among the nodes, as the loops over `node_ids` find them. -/
def processes : List (GraphNode Rate) :=
  (graph.nodes.keys.filterMap graph.node).filter fun node => node.nodeType = .process

def activeFiles (observation : Observation) : List String :=
  (processes graph).flatMap fun node =>
    if doubles.tenth < node.readRateKb ∨ doubles.tenth < node.writeRateKb then
      ((observation.openedBefore node.pid).map Prod.snd).filter fun path =>
        contains path "/var/lib/" || contains path "/tmp/" || contains path "/home/"
    else []

/-- Whether the graph maps an open path. -/
def mapsPath (isWriting : Bool) (activeFiles : List String) (path : String) : Bool :=
  if startsWith path "/dev/" then true
  else if startsWith path "socket:[" then isWriting
  else activeFiles.contains path

/-- The open resources that are mapped, the first descriptor of each; `mapped`
holds the paths that were. -/
def mapOpen (maps : String → Bool) : List String → List OpenResource → List OpenResource
  | _, [] => []
  | mapped, (fdName, path) :: rest =>
      if maps path && !mapped.contains path then
        (fdName, path) :: mapOpen maps (path :: mapped) rest
      else mapOpen maps mapped rest

def GraphNode.isWriting (node : GraphNode Rate) : Bool := doubles.tenth < node.writeRateKb

/-- The resources a process is connected to. -/
def mappedOpen (observation : Observation) (node : GraphNode Rate) : List OpenResource :=
  mapOpen (mapsPath (node.isWriting doubles) (activeFiles doubles graph observation)) []
    (observation.opened node.pid)

/-- A resource found in an open descriptor or in the trace. -/
def bareResource (id name : String) : GraphNode Rate where
  id := id
  nodeType := .resource
  name := name
  pid := 0
  state := ""
  readBytes := 0
  writeBytes := 0
  readRateKb := doubles.zero
  writeRateKb := doubles.zero
  cpuUsagePct := doubles.zero
  isAnomalous := false
  anomalyReason := ""

/-! ## Connections -/

def parentEdges (observation : Observation) (node : GraphNode Rate) : List GraphEdge :=
  let parent := observation.parent node.pid
  if parent ≠ 0 ∧ pidNode parent ∈ graph.nodes then
    [{ fromId := node.id, toId := pidNode parent, edgeType := .spawnedBy, details := "" }]
  else []

/-- The edges to one mapped resource. -/
def resourceEdges (node : GraphNode Rate) (resource : OpenResource) : List GraphEdge :=
  { fromId := node.id
    toId := resourceNode resource.2
    edgeType := if node.isWriting doubles then .writesTo else .readsFrom
    details := "FD: " ++ resource.1 } ::
  if node.state = "D" then
    [{ fromId := node.id
       toId := resourceNode resource.2
       edgeType := .blockedOn
       details := "Process blocked in I/O wait on resource" }]
  else []

/-- `max_by` on the rates: of equal ones the last. -/
def busiest (nodes : List (Sigma fun _ : String => GraphNode Rate)) :
    Option (Sigma fun _ : String => GraphNode Rate) :=
  nodes.foldl (fun best entry =>
    match best with
    | some best =>
        if entry.2.readRateKb + entry.2.writeRateKb < best.2.readRateKb + best.2.writeRateKb then
          some best
        else some entry
    | none => some entry) none

/-- The disk a process in state D is linked to when nothing else is. -/
def targetDisk : String :=
  let disks := graph.nodes.entries.filter fun entry =>
    entry.2.nodeType = .resource && startsWith entry.2.id "resource:/dev/"
  ((busiest disks).map Sigma.fst).getD "resource:/dev/sda"

/-- One process of the connecting loop, with the new resources and edges so far. -/
def connect (observation : Observation) (found : List (GraphNode Rate) × List GraphEdge)
    (node : GraphNode Rate) : List (GraphNode Rate) × List GraphEdge :=
  let mapped := mappedOpen doubles graph observation node
  let resources := (mapped.filter fun resource => resourceNode resource.2 ∉ graph.nodes).map
    fun resource => bareResource doubles (resourceNode resource.2) resource.2
  let edges := found.2 ++ parentEdges graph observation node ++
    mapped.flatMap (resourceEdges doubles node)
  let hasBlocked := edges.any fun edge => edge.fromId = node.id && edge.edgeType = .blockedOn
  (found.1 ++ resources,
    if node.state = "D" && !hasBlocked then
      edges ++ [{
        fromId := node.id
        toId := targetDisk graph
        edgeType := .blockedOn
        details := "Process blocked on primary disk device" }]
    else edges)

def connections (observation : Observation) : List (GraphNode Rate) × List GraphEdge :=
  (processes graph).foldl (connect doubles graph observation) ([], [])

/-- `if !self.nodes.contains_key(..) { self.add_node(..) }`. -/
def addNew (graph : CausalGraph Rate) (node : GraphNode Rate) : CausalGraph Rate :=
  if node.id ∈ graph.nodes then graph else graph.addNode node

/-- The graph once its processes are connected. -/
def connectedGraph (observation : Observation) : CausalGraph Rate :=
  let observed := observedGraph doubles observation
  let found := connections doubles observed observation
  let graph := found.1.foldl addNew observed
  { graph with edges := graph.edges ++ found.2 }

/-! ## Contention -/

/-- `EdgeType::ReadsFrom | EdgeType::WritesTo | EdgeType::BlockedOn`. -/
def EdgeType.accesses : EdgeType → Bool
  | .readsFrom | .writesTo | .blockedOn => true
  | .spawnedBy | .contendsWith => false

/-- An entry of `resource_accessors` for each access edge of a node that exists. -/
def accessEntries : List (String × String × Rate) :=
  (graph.edges.filter fun edge => edge.edgeType.accesses).filterMap fun edge =>
    (graph.node edge.fromId).map fun node =>
      (edge.toId, edge.fromId, node.readRateKb + node.writeRateKb)

/-- The accessors of a resource that move more than 500 KB/s, in the order of
their edges. -/
def activeAccessors (resource : String) : List String :=
  ((accessEntries graph).filter fun entry =>
    entry.1 = resource && decide (doubles.fiveHundred < entry.2.2)).map fun entry => entry.2.1

/-- The pairs of positions `i < j`. -/
def orderedPairs : List String → List (String × String)
  | [] => []
  | first :: rest => rest.map (fun second => (first, second)) ++ orderedPairs rest

def contendEdge (details : String) (source target : String) : GraphEdge where
  fromId := source
  toId := target
  edgeType := .contendsWith
  details := details

def contention (resource : String) : List GraphEdge :=
  let active := activeAccessors doubles graph resource
  if 1 < active.length then
    (orderedPairs active).flatMap fun pair => [
      contendEdge ("Shared access to " ++ resource) pair.1 pair.2,
      contendEdge ("Shared access to " ++ resource) pair.2 pair.1]
  else []

/-- The edges between processes that share a resource. -/
def contendEdges : List GraphEdge :=
  ((accessEntries graph).map Prod.fst).dedup.flatMap (contention doubles graph)

/-! ## The trace -/

/-- The text before and after the first separator. -/
def splitOnce (separator : List Char) : List Char → Option (List Char × List Char)
  | [] => none
  | character :: rest =>
      if separator.isPrefixOf (character :: rest) then
        some ([], (character :: rest).drop separator.length)
      else (splitOnce separator rest).map fun (before, after) => (character :: before, after)

/-- `str::parse` for an `i32`. -/
def parseI32 (text : List Char) : Option Int32 :=
  let (negative, digits) := match text with
    | '-' :: rest => (true, rest)
    | '+' :: rest => (false, rest)
    | other => (false, other)
  let magnitude := Nat.ofDigitChars 10 digits 0
  if digits.isEmpty || !digits.all Char.isDigit then none
  else if negative then if magnitude ≤ 2 ^ 31 then some (Int32.ofInt (-magnitude)) else none
  else if magnitude < 2 ^ 31 then some (Int32.ofNat magnitude) else none

structure TraceEvent where
  eventType : String
  pid : Int32
  comm : String
  details : String
  deriving DecidableEq, Repr

/-- A line with four fields, their ends trimmed. -/
def traceEvent (line : String) : Option TraceEvent := do
  let separator := " | ".toList
  let (eventType, rest) ← splitOnce separator line.toList
  let (pid, rest) ← splitOnce separator rest
  let (comm, details) ← splitOnce separator rest
  let pid ← parseI32 (trimMatches isWhitespace pid)
  some {
    eventType := String.ofList (trimMatches isWhitespace eventType)
    pid
    comm := String.ofList (trimMatches isWhitespace comm)
    details := String.ofList (trimMatches isWhitespace details) }

/-- The id and the name of the resource an event is about. -/
def TraceEvent.resource (event : TraceEvent) : Option (String × String) :=
  if event.eventType = "OPEN" ∨ event.eventType = "OPENAT" then
    some (resourceNode event.details, event.details)
  else if event.eventType = "CONNECT" then
    some (resourceNode ("socket_" ++ event.details), "Socket (" ++ event.details ++ ")")
  else if event.eventType = "EXEC" then some (resourceNode event.details, event.details)
  else none

def tracedProcess (event : TraceEvent) : GraphNode Rate where
  id := pidNode event.pid
  nodeType := .process
  name := event.comm
  pid := event.pid
  state := "S"
  readBytes := 0
  writeBytes := 0
  readRateKb := doubles.zero
  writeRateKb := doubles.zero
  cpuUsagePct := doubles.zero
  isAnomalous := false
  anomalyReason := ""

/-- One event of the log; its process is added even when the event is of no use. -/
def applyEvent (graph : CausalGraph Rate) (event : TraceEvent) : CausalGraph Rate :=
  let graph := addNew graph (tracedProcess doubles event)
  match event.resource with
  | none => graph
  | some (id, name) => (addNew graph (bareResource doubles id name)).addEdge {
      fromId := pidNode event.pid
      toId := id
      edgeType := .readsFrom
      details := "eBPF: " ++ toAsciiLowercase event.eventType }

def traceEvents (observation : Observation) : List TraceEvent :=
  match observation.trace with
  | none => []
  | some content => (Codebase.lines content).filterMap traceEvent

/-- `build_graph`. -/
def buildGraph (observation : Observation) : CausalGraph Rate :=
  let graph := connectedGraph doubles observation
  let graph := { graph with edges := graph.edges ++ contendEdges doubles graph }
  (traceEvents observation).foldl (applyEvent doubles) graph

end Build

end SystemPilot.Causal
