import DeclGraph.Calls.Graph
import DeclGraph.Calls.Tree
import DeclGraph.Calls.Walk
import DeclGraph.Config.Basic
import DeclGraph.Config.Load
import DeclGraph.Entity
import DeclGraph.Error
import DeclGraph.Extract.File
import DeclGraph.Extract.Parents
import DeclGraph.Files.Discovery
import DeclGraph.Files.Folder
import DeclGraph.Files.Glob
import DeclGraph.Files.Ignore
import DeclGraph.Files.Path
import DeclGraph.Hierarchy.Depth
import DeclGraph.Hierarchy.Heights
import DeclGraph.Hierarchy.Queries
import DeclGraph.Json.Basic
import DeclGraph.Json.Reader
import DeclGraph.Json.Writer
import DeclGraph.Kind
import DeclGraph.Language
import DeclGraph.Limits
import DeclGraph.Proofs.AmendedObjects
import DeclGraph.Proofs.AnsweredQueries
import DeclGraph.Proofs.Ascents
import DeclGraph.Proofs.BatchedDrafts
import DeclGraph.Proofs.BatchedParents
import DeclGraph.Proofs.BudgetedGraphs
import DeclGraph.Proofs.BudgetedTrees
import DeclGraph.Proofs.CallLines
import DeclGraph.Proofs.Depth
import DeclGraph.Proofs.Distance
import DeclGraph.Proofs.ExtractedNames
import DeclGraph.Proofs.GraphLabels
import DeclGraph.Proofs.GrownTrees
import DeclGraph.Proofs.Heights
import DeclGraph.Proofs.HierarchyCounts
import DeclGraph.Proofs.History
import DeclGraph.Proofs.Identity
import DeclGraph.Proofs.Indexed
import DeclGraph.Proofs.LastingIdentity
import DeclGraph.Proofs.Levels
import DeclGraph.Proofs.LinkedParents
import DeclGraph.Proofs.LinkingPass
import DeclGraph.Proofs.LinkingTime
import DeclGraph.Proofs.ListedChildren
import DeclGraph.Proofs.NearestOfKind
import DeclGraph.Proofs.Places
import DeclGraph.Proofs.ProjectIsolation
import DeclGraph.Proofs.PurgedRows
import DeclGraph.Proofs.Reading
import DeclGraph.Proofs.RefreshBalance
import DeclGraph.Proofs.RefreshedCalls
import DeclGraph.Proofs.RefreshedEntities
import DeclGraph.Proofs.RefreshedParents
import DeclGraph.Proofs.Refreshes
import DeclGraph.Proofs.RepeatedRefresh
import DeclGraph.Proofs.SameContent
import DeclGraph.Proofs.SettlingOrder
import DeclGraph.Proofs.ShallowTrees
import DeclGraph.Proofs.ShrunkGraphs
import DeclGraph.Proofs.SourceOrder
import DeclGraph.Proofs.SpelledCalls
import DeclGraph.Proofs.StableGroups
import DeclGraph.Proofs.StorableSymbols
import DeclGraph.Proofs.StoredDrafts
import DeclGraph.Proofs.StoredParents
import DeclGraph.Proofs.TraversalBounds
import DeclGraph.Proofs.TraversalScope
import DeclGraph.Proofs.TreeAnnotations
import DeclGraph.Proofs.TreeLevels
import DeclGraph.Proofs.VisibleLeaves
import DeclGraph.Proofs.WireForms
import DeclGraph.Proofs.WrittenJson
import DeclGraph.Refresh
import DeclGraph.Store.Address
import DeclGraph.Store.Basic
import DeclGraph.Store.Calls
import DeclGraph.Store.Entities
import DeclGraph.Store.Parents
import DeclGraph.Store.Projects
import DeclGraph.Store.Stats
import DeclGraph.Store.Table
import DeclGraph.Syntax.Names
import DeclGraph.Syntax.Node
import DeclGraph.Syntax.Rows
import DeclGraph.Text.Blank
import DeclGraph.Text.CharRanges
import DeclGraph.Text.Identifier
import DeclGraph.Wire.Calls
import DeclGraph.Wire.Config
import DeclGraph.Wire.Entity
import DeclGraph.Wire.Facts
import DeclGraph.Wire.Record
import DeclGraph.Wire.Report
import DeclGraph.Workspace
import DeclGraph.Yaml.Basic
import DeclGraph.Yaml.Cursor
import DeclGraph.Yaml.Node
import DeclGraph.Yaml.Scalar
import DeclGraph.Yaml.Tag
import DeclGraph.Yaml.Token
