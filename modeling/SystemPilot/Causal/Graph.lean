import Mathlib.Data.List.AList

/-!
# The causal graph

Processes and resources with the edges between them.  The rates are doubles; what
is proved about them needs their order only, so their type is a parameter.
-/

set_option autoImplicit false

namespace SystemPilot.Causal

inductive NodeType where
  | process
  | resource
  deriving DecidableEq, Repr

inductive EdgeType where
  | spawnedBy
  | readsFrom
  | writesTo
  | blockedOn
  | contendsWith
  deriving DecidableEq, Repr

def EdgeType.asStr : EdgeType → String
  | .spawnedBy => "SPAWNED_BY"
  | .readsFrom => "READS_FROM"
  | .writesTo => "WRITES_TO"
  | .blockedOn => "BLOCKED_ON"
  | .contendsWith => "CONTENDS_WITH"

structure GraphNode (Rate : Type) where
  id : String
  nodeType : NodeType
  name : String
  pid : Int32
  state : String
  readBytes : Nat
  writeBytes : Nat
  readRateKb : Rate
  writeRateKb : Rate
  cpuUsagePct : Rate
  isAnomalous : Bool
  anomalyReason : String
  deriving DecidableEq

structure GraphEdge where
  fromId : String
  toId : String
  edgeType : EdgeType
  details : String
  deriving DecidableEq, Repr

/-- The order of the nodes is the one the hash map is iterated in. -/
structure CausalGraph (Rate : Type) where
  nodes : AList fun _ : String => GraphNode Rate
  edges : List GraphEdge

variable {Rate : Type}

/-- `self.nodes.get`. -/
def CausalGraph.node (graph : CausalGraph Rate) (id : String) : Option (GraphNode Rate) :=
  graph.nodes.lookup id

/-- `self.add_node`. -/
def CausalGraph.addNode (graph : CausalGraph Rate) (node : GraphNode Rate) : CausalGraph Rate :=
  { graph with nodes := graph.nodes.insert node.id node }

/-- `self.add_edge`. -/
def CausalGraph.addEdge (graph : CausalGraph Rate) (edge : GraphEdge) : CausalGraph Rate :=
  { graph with edges := graph.edges ++ [edge] }

end SystemPilot.Causal
