import CallAudit.Classifier.Listed
import CallAudit.Files.Tree
import CallAudit.Main
import CallAudit.Pattern.Size
import CallAudit.Proofs.Search.Trace
import CallAudit.Proofs.Search.Route
import CallAudit.Proofs.Search.Level
import CallAudit.Proofs.Closure
import CallAudit.Proofs.Dependency.Consistent
import CallAudit.Proofs.Search.Shortest
import CallAudit.Proofs.Classifier.Faithful
import CallAudit.Proofs.Snapshot
import CallAudit.Proofs.Reachability
import CallAudit.Proofs.Analysis.Reduction
import CallAudit.Proofs.Report.Entries
import CallAudit.Proofs.Analysis.Outcome
import CallAudit.Proofs.Analysis.Chains
import CallAudit.Proofs.Analysis.Pruning
import CallAudit.Proofs.Search.Embedding
import CallAudit.Proofs.Analysis.Constraints
import CallAudit.Proofs.Analysis.Agreement
import CallAudit.Proofs.Dependency.Edges
import CallAudit.Proofs.Analysis.Justification
import CallAudit.Proofs.Dependency.Resolution
import CallAudit.Proofs.Keyed
import CallAudit.Proofs.Json.Text
import CallAudit.Proofs.Json.Reading
import CallAudit.Proofs.Report.Writing
import CallAudit.Proofs.Report.Gathering
import CallAudit.Proofs.Report.Groups
import CallAudit.Proofs.Report.Total
import CallAudit.Proofs.Report.Agreement
import CallAudit.Proofs.Report.Delivery
import CallAudit.Proofs.Program.Interning
import CallAudit.Proofs.Facts.Recording
import CallAudit.Proofs.Report.Ends
import CallAudit.Proofs.Search.Matching
import CallAudit.Proofs.Analysis.Spans
import CallAudit.Proofs.Renaming.Program
import CallAudit.Proofs.Renaming.Document
import CallAudit.Proofs.Renaming.Graph
import CallAudit.Proofs.Renaming.Prepared
import CallAudit.Proofs.Renaming.Search
import CallAudit.Proofs.Renaming.Run
import CallAudit.Proofs.Dependency.Operations
import CallAudit.Proofs.Analysis.Pruned
import CallAudit.Proofs.Report.Document
import CallAudit.Proofs.Classifier.Reasons
import CallAudit.Proofs.Report.Tallies
import CallAudit.Proofs.Analysis.Balance
import CallAudit.Proofs.Search.ParentChain
import CallAudit.Proofs.Search.Stopping
import CallAudit.Proofs.Report.Routes
import CallAudit.Proofs.Classifier.Matching
import CallAudit.Proofs.Pattern.Stem
import CallAudit.Proofs.Rules.Outline
import CallAudit.Proofs.Rules.Builtin
import CallAudit.Proofs.Search.FirstDestination
import CallAudit.Proofs.Snapshot.Retaking
import CallAudit.Proofs.Dependency.Construction
import CallAudit.Proofs.Facts.Meaning
import CallAudit.Proofs.Facts.Skipped
import CallAudit.Proofs.Program.Requests
import CallAudit.Proofs.Text.Cut
import CallAudit.Proofs.Program.Enclosing
import CallAudit.Proofs.Program.Outermost
import CallAudit.Proofs.Program.Placeholder
import CallAudit.Proofs.Report.Namespaces
import CallAudit.Proofs.Report.Categories
import CallAudit.Proofs.Report.Wording
import CallAudit.Proofs.Report.Limited
import CallAudit.Proofs.Classifier.Remembering
import CallAudit.Proofs.Json.Record
import CallAudit.Proofs.Facts.Document
import CallAudit.Proofs.Dependency.Simple
import CallAudit.Proofs.Drawing.Reading
import CallAudit.Proofs.Rules.Configured
import CallAudit.Proofs.Drawing.Shown
import CallAudit.Proofs.Drawing.Label
