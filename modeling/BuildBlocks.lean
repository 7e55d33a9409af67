import BuildBlocks.Block.Key
import BuildBlocks.Block.Segment
import BuildBlocks.Block.Table
import BuildBlocks.CommandLine.Arguments
import BuildBlocks.CommandLine.Run
import BuildBlocks.Comment
import BuildBlocks.ConditionalComment
import BuildBlocks.Config.Basic
import BuildBlocks.Config.Document
import BuildBlocks.Config.Load
import BuildBlocks.Directive
import BuildBlocks.FileTree
import BuildBlocks.Handler
import BuildBlocks.Host
import BuildBlocks.Json.Printer
import BuildBlocks.Json.Reader
import BuildBlocks.Json.Value
import BuildBlocks.Line
import BuildBlocks.Log.Event
import BuildBlocks.Log.Filter
import BuildBlocks.Log.Pattern
import BuildBlocks.Log.Pattern.Atom
import BuildBlocks.Log.Pattern.Class
import BuildBlocks.Log.Pattern.Mode
import BuildBlocks.Main
import BuildBlocks.Manifest
import BuildBlocks.Manifest.Written
import BuildBlocks.Options
import BuildBlocks.Proofs.Block.Attempts
import BuildBlocks.Proofs.Block.Extraction
import BuildBlocks.Proofs.Block.Grouping
import BuildBlocks.Proofs.Block.Growth
import BuildBlocks.Proofs.Block.Naming
import BuildBlocks.Proofs.Block.Numbering
import BuildBlocks.Proofs.Block.Ordinals
import BuildBlocks.Proofs.Block.Placement
import BuildBlocks.Proofs.Block.Silencing
import BuildBlocks.Proofs.Block.Spans
import BuildBlocks.Proofs.CommandLine.Agreement
import BuildBlocks.Proofs.CommandLine.Effects
import BuildBlocks.Proofs.CommandLine.Refusal
import BuildBlocks.Proofs.Comment.Conditional
import BuildBlocks.Proofs.Comment.Locality
import BuildBlocks.Proofs.Comment.Outside
import BuildBlocks.Proofs.Comment.Parts
import BuildBlocks.Proofs.Comment.Wording
import BuildBlocks.Proofs.ConditionalComment.Recognition
import BuildBlocks.Proofs.Config.Discovery
import BuildBlocks.Proofs.Config.Loading
import BuildBlocks.Proofs.Config.Validation
import BuildBlocks.Proofs.Directive.Classification
import BuildBlocks.Proofs.Directive.Fields
import BuildBlocks.Proofs.Directive.Recognition
import BuildBlocks.Proofs.Directive.Target
import BuildBlocks.Proofs.Directive.Writing
import BuildBlocks.Proofs.Document.Concatenation
import BuildBlocks.Proofs.Document.Division
import BuildBlocks.Proofs.Document.Lines
import BuildBlocks.Proofs.Document.Returns
import BuildBlocks.Proofs.Document.Uniform
import BuildBlocks.Proofs.Files.Paths
import BuildBlocks.Proofs.Files.Writing
import BuildBlocks.Proofs.Json.Reading
import BuildBlocks.Proofs.Manifest.Assets
import BuildBlocks.Proofs.Manifest.Deletion
import BuildBlocks.Proofs.Manifest.Entries
import BuildBlocks.Proofs.Manifest.Influence
import BuildBlocks.Proofs.Manifest.References
import BuildBlocks.Proofs.Manifest.Removals
import BuildBlocks.Proofs.Manifest.Sharing
import BuildBlocks.Proofs.Manifest.Uncommented
import BuildBlocks.Proofs.Manifest.Views
import BuildBlocks.Proofs.Manifest.Writing
import BuildBlocks.Proofs.Matching
import BuildBlocks.Proofs.Options.Registry
import BuildBlocks.Proofs.Reference.Elements
import BuildBlocks.Proofs.Rewrite.Commented
import BuildBlocks.Proofs.Rewrite.Concatenation
import BuildBlocks.Proofs.Rewrite.Copying
import BuildBlocks.Proofs.Rewrite.Frame
import BuildBlocks.Proofs.Rewrite.Handlers
import BuildBlocks.Proofs.Rewrite.Preview
import BuildBlocks.Proofs.Rewrite.Removal
import BuildBlocks.Proofs.Rewrite.Repetition
import BuildBlocks.Proofs.Rewrite.Returns
import BuildBlocks.Proofs.Rewrite.Synthesis
import BuildBlocks.Proofs.Rewrite.Wrapping
import BuildBlocks.Proofs.SortedMap
import BuildBlocks.Proofs.Splice.Cuts
import BuildBlocks.Proofs.Splice.Insertion
import BuildBlocks.Proofs.Splice.Overlap
import BuildBlocks.Proofs.Template.Placeholders
import BuildBlocks.Proofs.Template.Substitution
import BuildBlocks.Proofs.Text.ByteOrder
import BuildBlocks.Proofs.Text.Mark
import BuildBlocks.Proofs.Text.Returns
import BuildBlocks.Proofs.Text.Search
import BuildBlocks.Reference
import BuildBlocks.SortedMap
import BuildBlocks.Splice
import BuildBlocks.Template
import BuildBlocks.Text.Alphanumeric
import BuildBlocks.Text.Basic
import BuildBlocks.Text.Blank
import BuildBlocks.Text.Digits
import BuildBlocks.Text.Letters
import BuildBlocks.Text.Order
import BuildBlocks.Text.Word
import BuildBlocks.Toml.Quoted
import BuildBlocks.Toml.Reader
import BuildBlocks.Toml.Scalar
import BuildBlocks.Toml.Table
import BuildBlocks.Toml.Value
import BuildBlocks.Transform
