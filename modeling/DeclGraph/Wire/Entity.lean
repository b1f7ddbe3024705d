import DeclGraph.Entity
import DeclGraph.Wire.Record

/-! The JSON form of the rows of the graph. Reading accepts whatever writing produces. -/
namespace DeclGraph

open Wire

namespace Language

def toJson (language : Language) : Json :=
  .str language.name

def ofJson? : Json → Option Language :=
  constant? ofName?

end Language

namespace EntityKind

def toJson (kind : EntityKind) : Json :=
  .str kind.name

def ofJson? : Json → Option EntityKind :=
  constant? ofName?

end EntityKind

namespace Heritage

def toJson (heritage : Heritage) : Json :=
  .str heritage.name

def ofJson? : Json → Option Heritage :=
  constant? ofName?

end Heritage

namespace Entity

def toJson (entity : Entity) : Json :=
  .ofFields [
    ("id", some (.int entity.id)),
    ("project_id", some (.int entity.projectId)),
    ("language", some entity.language.toJson),
    ("symbol", some (.str entity.symbol)),
    ("kind", some entity.kind.toJson),
    ("filename", some (.str entity.filename)),
    ("start_line", some (.ofWord entity.startLine)),
    ("end_line", some (.ofWord entity.endLine)),
    ("source", entity.source.map .str)]

def fieldNames : List String :=
  ["id", "project_id", "language", "symbol", "kind", "filename", "start_line", "end_line", "source"]

def ofJson? (value : Json) : Option Entity := do
  let record ← record? fieldNames value
  let id ← record.required int? "id"
  let projectId ← record.required int? "project_id"
  let language ← record.required Language.ofJson? "language"
  let symbol ← record.required string? "symbol"
  let kind ← record.required EntityKind.ofJson? "kind"
  let filename ← record.required string? "filename"
  let startLine ← record.required word32? "start_line"
  let endLine ← record.required word32? "end_line"
  let source ← record.optional string? "source"
  some { id, projectId, language, symbol, kind, filename, startLine, endLine, source }

end Entity

namespace EntityDraft

def ofJson? (value : Json) : Option EntityDraft := do
  let record ← record? [] value
  let language ← record.required Language.ofJson? "language"
  let symbol ← record.required string? "symbol"
  let kind ← record.required EntityKind.ofJson? "kind"
  let filename ← record.required string? "filename"
  let startLine ← record.required word32? "start_line"
  let endLine ← record.required word32? "end_line"
  let source ← record.optional string? "source"
  some { language, symbol, kind, filename, startLine, endLine, source }

end EntityDraft

namespace Call

def toJson (call : Call) : Json :=
  .ofFields [
    ("id", some (.int call.id)),
    ("caller_id", some (.int call.callerId)),
    ("callee_id", call.calleeId.map .int),
    ("callee_symbol", some (.str call.calleeSymbol)),
    ("line", some (.ofWord call.line)),
    ("comment", call.comment.map .str)]

def fieldNames : List String :=
  ["id", "caller_id", "callee_id", "callee_symbol", "line", "comment"]

def ofJson? (value : Json) : Option Call := do
  let record ← record? fieldNames value
  let id ← record.required int? "id"
  let callerId ← record.required int? "caller_id"
  let calleeId ← record.optional int? "callee_id"
  let calleeSymbol ← record.required string? "callee_symbol"
  let line ← record.required word32? "line"
  let comment ← record.optional string? "comment"
  some { id, callerId, calleeId, calleeSymbol, line, comment }

end Call

namespace CallDraft

def ofJson? (value : Json) : Option CallDraft := do
  let record ← record? [] value
  let callerId ← record.required int? "caller_id"
  let calleeId ← record.optional int? "callee_id"
  let calleeSymbol ← record.required string? "callee_symbol"
  let line ← record.required word32? "line"
  let comment ← record.optional string? "comment"
  some { callerId, calleeId, calleeSymbol, line, comment }

end CallDraft

namespace Parent

def toJson (parent : Parent) : Json :=
  .obj [
    ("parent_symbol", .str parent.symbol),
    ("relationship_type", parent.heritage.toJson)]

def fieldNames : List String :=
  ["parent_symbol", "relationship_type"]

def ofJson? (value : Json) : Option Parent := do
  let record ← record? fieldNames value
  let symbol ← record.required string? "parent_symbol"
  let heritage ← record.required Heritage.ofJson? "relationship_type"
  some { symbol, heritage }

end Parent

namespace ParentDraft

def ofJson? (value : Json) : Option ParentDraft := do
  let record ← record? [] value
  let childId ← record.optional int? "child_entity_id"
  let symbol ← record.optional string? "parent_symbol"
  let heritage ← record.optional Heritage.ofJson? "relationship_type"
  some { childId, symbol, heritage }

end ParentDraft

namespace ParentEdge

def toJson (edge : ParentEdge) : Json :=
  .obj [
    ("id", .int edge.id),
    ("child_entity_id", .int edge.childId),
    ("parent_entity_id", .ofOption .int edge.parentId),
    ("parent_symbol", .str edge.symbol),
    ("relationship_type", edge.heritage.toJson)]

def fieldNames : List String :=
  ["id", "child_entity_id", "parent_entity_id", "parent_symbol", "relationship_type"]

def ofJson? (value : Json) : Option ParentEdge := do
  let record ← record? fieldNames value
  let id ← record.required int? "id"
  let childId ← record.required int? "child_entity_id"
  let parentId ← record.optional int? "parent_entity_id"
  let symbol ← record.required string? "parent_symbol"
  let heritage ← record.required Heritage.ofJson? "relationship_type"
  some { id, childId, parentId, symbol, heritage }

end ParentEdge

namespace Project

def toJson (project : Project) : Json :=
  .obj [
    ("id", .int project.id),
    ("name", .str project.name),
    ("root_path", .str project.rootPath),
    ("generation", .int project.generation)]

def fieldNames : List String :=
  ["id", "name", "root_path", "generation"]

def ofJson? (value : Json) : Option Project := do
  let record ← record? fieldNames value
  let id ← record.required int? "id"
  let name ← record.required string? "name"
  let rootPath ← record.required string? "root_path"
  let generation ← record.required int? "generation"
  some { id, name, rootPath, generation }

end Project

end DeclGraph
