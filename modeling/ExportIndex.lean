import ExportIndex.Json.Config
import ExportIndex.Json.Snapshot
import ExportIndex.Proofs.Resolution.Completeness
import ExportIndex.Proofs.Resolution.Storage
import ExportIndex.Proofs.Resolution.Extension
import ExportIndex.Proofs.Resolution.FileOrder
import ExportIndex.Proofs.Graph.Extension
import ExportIndex.Proofs.Snapshot.Provenance
import ExportIndex.Proofs.Snapshot.Union
import ExportIndex.Proofs.Session.Runs
import ExportIndex.Proofs.Key.LibrarySpecifier
import ExportIndex.Proofs.Key.ImportPath
import ExportIndex.Proofs.Key.ProjectSpecifier
import ExportIndex.Proofs.Json.Resource
import ExportIndex.Proofs.Extraction.Usages
import ExportIndex.Proofs.Comments.Resources
import ExportIndex.Proofs.Snapshot.Repetition
import ExportIndex.Proofs.Snapshot.Hoisting
import ExportIndex.Proofs.Resolution.Shape
import ExportIndex.Proofs.Resolution.Unresolved
import ExportIndex.Proofs.Extraction.ExportFlags
import ExportIndex.Proofs.Extraction.SourceOrder
import ExportIndex.Proofs.Key.Normalization
import ExportIndex.Proofs.Extraction.ClassMembers
import ExportIndex.Proofs.Extraction.AssignedExports
import ExportIndex.Proofs.Extraction.Locals
