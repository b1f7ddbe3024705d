import DeclGraph.Config.Basic
import DeclGraph.Wire.Record

/-! The JSON form of the settings. A setting that is left out takes its default. -/
namespace DeclGraph

open Wire

namespace Limits

def toJson (limits : Limits) : Json :=
  .obj [
    ("default_depth", .ofWord limits.defaultDepth),
    ("max_tree_depth", .ofWord limits.maxTreeDepth),
    ("max_graph_depth", .ofWord limits.maxGraphDepth),
    ("reverse_graph_max_depth", .ofWord limits.reverseGraphMaxDepth),
    ("max_nodes", .ofNat limits.maxNodes.toNat)]

def fieldNames : List String :=
  ["default_depth", "max_tree_depth", "max_graph_depth", "reverse_graph_max_depth", "max_nodes"]

def ofJson? (value : Json) : Option Limits := do
  let usual : Limits := {}
  let record ← record? fieldNames value
  let defaultDepth ← record.withDefault word32? "default_depth" usual.defaultDepth
  let maxTreeDepth ← record.withDefault word32? "max_tree_depth" usual.maxTreeDepth
  let maxGraphDepth ← record.withDefault word32? "max_graph_depth" usual.maxGraphDepth
  let reverseGraphMaxDepth ←
    record.withDefault word32? "reverse_graph_max_depth" usual.reverseGraphMaxDepth
  let maxNodes ← record.withDefault word64? "max_nodes" usual.maxNodes
  some { defaultDepth, maxTreeDepth, maxGraphDepth, reverseGraphMaxDepth, maxNodes }

end Limits

namespace Indexing

def toJson (indexing : Indexing) : Json :=
  .obj [
    ("max_file_bytes", .ofNat indexing.maxFileBytes.toNat),
    ("exclude_tests", .bool indexing.excludeTests),
    ("store_source", .bool indexing.storeSource)]

def fieldNames : List String :=
  ["max_file_bytes", "exclude_tests", "store_source"]

def ofJson? (value : Json) : Option Indexing := do
  let usual : Indexing := {}
  let record ← record? fieldNames value
  let maxFileBytes ← record.withDefault word64? "max_file_bytes" usual.maxFileBytes
  let excludeTests ← record.withDefault bool? "exclude_tests" usual.excludeTests
  let storeSource ← record.withDefault bool? "store_source" usual.storeSource
  some { maxFileBytes, excludeTests, storeSource }

end Indexing

namespace Config

def toJson (config : Config) : Json :=
  .ofFields [
    ("version", some (.str config.version)),
    ("database", config.database.map .str),
    ("traversal", some config.traversal.toJson),
    ("indexing", some config.indexing.toJson)]

def fieldNames : List String :=
  ["version", "database", "traversal", "indexing"]

def ofJson? (value : Json) : Option Config := do
  let usual : Config := {}
  let record ← record? fieldNames value
  let version ← record.withDefault string? "version" usual.version
  let database ← record.withDefault (nullable? string?) "database" usual.database
  let traversal ← record.withDefault Limits.ofJson? "traversal" usual.traversal
  let indexing ← record.withDefault Indexing.ofJson? "indexing" usual.indexing
  some { version, database, traversal, indexing }

end Config

end DeclGraph
