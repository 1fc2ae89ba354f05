import SpdxHeaders.Main
import SpdxHeaders.Proofs.Conversion.DryRun
import SpdxHeaders.Proofs.Conversion.Footprint
import SpdxHeaders.Proofs.Rewriting.Surroundings
import SpdxHeaders.Proofs.Attribution.Grammar
import SpdxHeaders.Proofs.Attribution.Conservation
import SpdxHeaders.Proofs.Rewriting.LineComments
import SpdxHeaders.Proofs.Authors
import SpdxHeaders.Proofs.Conversion.AuthorList
import SpdxHeaders.Proofs.Conversion.Preparation
import SpdxHeaders.Proofs.Program
import SpdxHeaders.Proofs.Conversion.Resuming
import SpdxHeaders.Proofs.Conversion.Mending
import SpdxHeaders.Proofs.Collector.Members
import SpdxHeaders.Proofs.FileTree.Growth
import SpdxHeaders.Proofs.Conversion.Rerun
import SpdxHeaders.Proofs.Report
import SpdxHeaders.Proofs.Conversion.Accounting
import SpdxHeaders.Proofs.Rewriting.Refusal
import SpdxHeaders.Proofs.Attribution.BareYear
import SpdxHeaders.Proofs.Attribution.Declarations
import SpdxHeaders.Proofs.HeaderBlock.Extent
import SpdxHeaders.Proofs.Rewriting.Substitution
import SpdxHeaders.Proofs.HeaderBlock.Wrapped
import SpdxHeaders.Proofs.Text.Lines
import SpdxHeaders.Proofs.Attribution.EndToken
import SpdxHeaders.Proofs.Rewriting.Closing
import SpdxHeaders.Proofs.Rewriting.Suffix
import SpdxHeaders.Proofs.Routing
import SpdxHeaders.Proofs.Collector.Pruning
import SpdxHeaders.Proofs.Manifest.Entries
import SpdxHeaders.Proofs.Attribution.Preserving
import SpdxHeaders.Proofs.Collector.Spelling
import SpdxHeaders.Proofs.Authors.Registry
import SpdxHeaders.Proofs.Attribution.Entries
import SpdxHeaders.Proofs.Authors.Markdown
import SpdxHeaders.Proofs.Collector.Passage
import SpdxHeaders.Proofs.Program.Shown
