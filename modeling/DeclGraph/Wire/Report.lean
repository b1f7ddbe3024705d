import DeclGraph.Hierarchy.Queries
import DeclGraph.Json.Basic
import DeclGraph.Refresh
import DeclGraph.Store.Stats
import DeclGraph.Wire.Entity

/-! The JSON form of counts, links and reports. -/
namespace DeclGraph

def GraphStats.toJson (stats : GraphStats) : Json :=
  .obj [
    ("entities", .ofNat stats.entities),
    ("files", .ofNat stats.files),
    ("relationships", .ofNat stats.calls),
    ("inheritance_edges", .ofNat stats.parentEdges),
    ("unresolved_parents", .ofNat stats.unresolvedParents)]

def InsertReport.toJson (report : InsertReport) : Json :=
  .obj [
    ("inserted", .ofNat report.inserted),
    ("dropped", .ofNat report.dropped),
    ("duplicates", .ofNat report.duplicates)]

def LinkReport.toJson (report : LinkReport) : Json :=
  .obj [
    ("resolved", .ofNat report.resolved),
    ("unresolved", .ofNat report.unresolved)]

def ParentLink.toJson (link : ParentLink) : Json :=
  .obj [
    ("relationship_type", link.heritage.toJson),
    ("parent_symbol", .str link.symbol),
    ("parent_entity_id", .ofOption .int link.parentId)]

def ChildLink.toJson (link : ChildLink) : Json :=
  .obj [
    ("child_entity_id", .int link.childId),
    ("child_symbol", .str link.symbol),
    ("relationship_type", link.heritage.toJson)]

def HierarchyStats.toJson (stats : HierarchyStats) : Json :=
  .obj [
    ("by_type", .obj (stats.byHeritage.map fun (text, count) => (text, .ofNat count))),
    ("root_class_count", .ofNat stats.roots),
    ("max_hierarchy_depth", .ofNat stats.maxDepth),
    ("total_edges", .ofNat stats.totalEdges),
    ("unresolved_edges", .ofNat stats.unresolvedEdges)]

def RefreshReport.toJson (report : RefreshReport) : Json :=
  .obj [
    ("project_id", .int report.projectId),
    ("generation", .int report.generation),
    ("files_scanned", .ofNat report.filesScanned),
    ("files_indexed", .ofNat report.filesIndexed),
    ("files_failed", .ofNat report.filesFailed),
    ("entities", .ofNat report.entities),
    ("stale_entities_removed", .ofNat report.staleEntitiesRemoved),
    ("relationships", .ofNat report.calls),
    ("unresolved_calls", .ofNat report.unresolvedCalls),
    ("inheritance", report.parents.toJson),
    ("resolution", report.linking.toJson)]

end DeclGraph
