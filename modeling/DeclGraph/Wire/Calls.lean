import DeclGraph.Calls.Graph
import DeclGraph.Calls.Tree
import DeclGraph.Wire.Entity

/-! The JSON form of neighbours, call trees and call graphs. -/
namespace DeclGraph

def Neighbor.toJson (neighbor : Neighbor) : Json :=
  .obj [
    ("entity_id", .ofOption .int neighbor.entityId),
    ("symbol", .str neighbor.symbol),
    ("line", .ofWord neighbor.line)]

def NeighborGroup.toJson (group : NeighborGroup) : Json :=
  .obj [
    ("entity_id", .ofOption .int group.entityId),
    ("symbol", .str group.symbol),
    ("lines", .ofList .ofWord group.lines)]

namespace Direction

def name : Direction → String
  | .callers => "callers"
  | .callees => "callees"

def ofName? (text : String) : Option Direction :=
  [.callers, .callees].find? (·.name == text)

end Direction

def flag (value : Bool) : Option Json :=
  if value then some (.bool true) else none

def nonempty (lines : List UInt32) : Option Json :=
  if lines.isEmpty then none else some (.ofList .ofWord lines)

mutual

def CallNode.toJson : CallNode → Json
  | .known entity lines ending children =>
    .ofFields [
      ("entityId", some (.int entity.id)),
      ("symbol", some (.str entity.symbol)),
      ("kind", some entity.kind.toJson),
      ("filename", some (.str entity.filename)),
      ("startLine", some (.ofWord entity.startLine)),
      ("callLines", nonempty lines),
      ("children", some (.arr (CallNode.listToJson children))),
      ("loop", flag (ending = .loop)),
      ("truncated", flag (ending = .truncated))]
  | .unknown symbol lines =>
    .ofFields [
      ("symbol", some (.str symbol)),
      ("callLines", nonempty lines),
      ("children", some (.arr [])),
      ("notFound", some (.bool true))]

def CallNode.listToJson : List CallNode → List Json
  | [] => []
  | node :: rest => node.toJson :: CallNode.listToJson rest

end

def CallTree.fields (tree : CallTree) : List (String × Json) :=
  [("direction", .str tree.direction.name),
    ("depth", .ofNat tree.depth),
    ("root", tree.root.toJson),
    ("nodeCount", .ofNat tree.nodeCount)]

def Labels.fields (labels : Labels) : List (String × Option Json) :=
  [("callerDepth", labels.caller.map .ofNat), ("calleeDepth", labels.callee.map .ofNat)]

def GraphNode.toJson (node : GraphNode) : Json :=
  .ofFields ([
    ("id", some (.int node.entity.id)),
    ("symbol", some (.str node.entity.symbol)),
    ("kind", some node.entity.kind.toJson),
    ("filename", some (.str node.entity.filename)),
    ("startLine", some (.ofWord node.entity.startLine))] ++ node.labels.fields)

def GraphEdge.toJson (edge : GraphEdge) : Json :=
  .ofFields ([
    ("callerId", some (.int edge.callerId)),
    ("calleeId", some (.int edge.calleeId)),
    ("callLines", some (.ofList .ofWord edge.lines))] ++ edge.labels.fields)

def CallGraph.fields (graph : CallGraph) : List (String × Json) :=
  [("root", .int graph.root),
    ("maxDepth", .ofNat graph.maxDepth),
    ("nodes", .ofList GraphNode.toJson graph.nodes),
    ("edges", .ofList GraphEdge.toJson graph.edges),
    ("truncated", .bool graph.truncated)]

def Outcome.toJson {α : Type} (fields : α → List (String × Json)) : Outcome α → Json
  | .found value => .obj (("status", .str "found") :: fields value)
  | .rootNotFound symbol =>
    .obj [("status", .str "rootNotFound"), ("symbol", .str symbol)]

end DeclGraph
