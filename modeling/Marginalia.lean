import Marginalia.Annotation
import Marginalia.AnnotationBlock
import Marginalia.Budget
import Marginalia.CallGraph
import Marginalia.CodeUnit
import Marginalia.CommandLine
import Marginalia.Digest
import Marginalia.Enrichment
import Marginalia.Glob
import Marginalia.Header
import Marginalia.Index
import Marginalia.IndexId
import Marginalia.Json
import Marginalia.LinePattern
import Marginalia.LineRange
import Marginalia.LocalRules
import Marginalia.Main
import Marginalia.Model
import Marginalia.Path
import Marginalia.Program
import Marginalia.Project.Crew
import Marginalia.Proofs.Json.Layout
import Marginalia.RunConfig
import Marginalia.RunManifest
import Marginalia.RunReport
import Marginalia.Segment
import Marginalia.Segment.CalledNames
import Marginalia.Service
import Marginalia.Settings
import Marginalia.SourceLanguage
import Marginalia.Synchronize
import Marginalia.Task
import Marginalia.Toml.Parse
import Marginalia.Tree
import Marginalia.Tree.Snapshot
import Marginalia.Url
import Marginalia.Verdict
import Marginalia.Walk
import Marginalia.World
import Marginalia.Proofs.Header
import Marginalia.Proofs.AnnotationBlock.Pieces
import Marginalia.Proofs.AnnotationBlock.Removal
import Marginalia.Proofs.AnnotationBlock.Written
import Marginalia.Proofs.Synchronize.Weave
import Marginalia.Proofs.Synchronize.Placement
import Marginalia.Proofs.Segment
import Marginalia.Proofs.Synchronize.Anchoring
import Marginalia.Proofs.Segment.Asides
import Marginalia.Proofs.Synchronize.Resegmenting
import Marginalia.Proofs.Synchronize.Idempotence
import Marginalia.Proofs.Ordered
import Marginalia.Proofs.Project.Code
import Marginalia.Proofs.Project.Records
import Marginalia.Proofs.Project.Advances
import Marginalia.Proofs.Project.Outcomes
import Marginalia.Proofs.Project.Changes
import Marginalia.Proofs.Tree.Thinning
import Marginalia.Proofs.Project.Completion
import Marginalia.Proofs.Project.Stripping
import Marginalia.Proofs.Project.Spending
import Marginalia.Proofs.UnitId
import Marginalia.Proofs.Project.Cancellation
import Marginalia.Proofs.Project.Schedule
import Marginalia.Proofs.Segment.Coverage
import Marginalia.Proofs.Synchronize.Accounting
import Marginalia.Proofs.RunManifest.ReadBack
import Marginalia.Proofs.AnnotationBlock.Slices
import Marginalia.Proofs.AnnotationBlock.Extent
import Marginalia.Proofs.Synchronize.AddedLines
import Marginalia.Proofs.Synchronize.LineEndings
import Marginalia.Proofs.Synchronize.File
import Marginalia.Proofs.Segment.Braces
import Marginalia.Proofs.Segment.Borrowing
import Marginalia.Proofs.Segment.Appending
import Marginalia.Proofs.Segment.Scopes
import Marginalia.Proofs.Header.Methods
import Marginalia.Proofs.Header.Parameters
import Marginalia.Proofs.Segment.Calls
import Marginalia.Proofs.CallGraph.Indexes
import Marginalia.Proofs.CallGraph.Search
import Marginalia.Proofs.Enrichment
import Marginalia.Proofs.Enrichment.Reply
import Marginalia.Proofs.Walk.Listing
import Marginalia.Proofs.AnnotationBlock.Shifting
import Marginalia.Proofs.Segment.Literals
import Marginalia.Proofs.LocalRules
