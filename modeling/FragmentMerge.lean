import FragmentMerge.Catalog.Basic
import FragmentMerge.Catalog.Conflict
import FragmentMerge.Catalog.FullText
import FragmentMerge.Catalog.Load
import FragmentMerge.Command.Arguments
import FragmentMerge.Command.Generate
import FragmentMerge.Command.Listing
import FragmentMerge.Command.Merge
import FragmentMerge.Command.Patch
import FragmentMerge.Command.Program
import FragmentMerge.Command.Reach
import FragmentMerge.Command.Shell
import FragmentMerge.Command.Work
import FragmentMerge.Config.Basic
import FragmentMerge.Config.Coding
import FragmentMerge.Config.File
import FragmentMerge.Data.Decode
import FragmentMerge.Data.Digest
import FragmentMerge.Data.Json
import FragmentMerge.Data.Table
import FragmentMerge.Data.Tree
import FragmentMerge.Document
import FragmentMerge.Features.Code
import FragmentMerge.Features.Field
import FragmentMerge.Features.Plan
import FragmentMerge.Features.Registry
import FragmentMerge.Files.Disk
import FragmentMerge.Files.Path
import FragmentMerge.Main
import FragmentMerge.Patch.Batch
import FragmentMerge.Patch.Edit
import FragmentMerge.Patch.Section
import FragmentMerge.Pattern.ByteRow
import FragmentMerge.Pattern.Folding
import FragmentMerge.Pattern.GroupName
import FragmentMerge.Pattern.Parser
import FragmentMerge.Pattern.Program
import FragmentMerge.Pattern.Property.Age
import FragmentMerge.Pattern.Property.Binary
import FragmentMerge.Pattern.Property.Break
import FragmentMerge.Pattern.Property.Category
import FragmentMerge.Pattern.Property.Composite
import FragmentMerge.Pattern.Property.Name
import FragmentMerge.Pattern.Property.Writing
import FragmentMerge.Pattern.Property.WritingExtension
import FragmentMerge.Pattern.Ranges
import FragmentMerge.Pattern.Search
import FragmentMerge.Pattern.Size
import FragmentMerge.Pattern.Syntax
import FragmentMerge.Pattern.Template
import FragmentMerge.Project.Sources
import FragmentMerge.Proofs.Catalog.Conflict
import FragmentMerge.Proofs.Catalog.Declared
import FragmentMerge.Proofs.Catalog.Distinct
import FragmentMerge.Proofs.Catalog.FullText
import FragmentMerge.Proofs.Catalog.Items
import FragmentMerge.Proofs.Catalog.Keys
import FragmentMerge.Proofs.Catalog.Load
import FragmentMerge.Proofs.Catalog.Namesakes
import FragmentMerge.Proofs.Catalog.Pairs
import FragmentMerge.Proofs.Catalog.Readable
import FragmentMerge.Proofs.Command.Ending
import FragmentMerge.Proofs.Command.Merged
import FragmentMerge.Proofs.Command.Work
import FragmentMerge.Proofs.Config.Saved
import FragmentMerge.Proofs.Data.Aligned
import FragmentMerge.Proofs.Data.Firsts
import FragmentMerge.Proofs.Data.Table
import FragmentMerge.Proofs.Data.Tree
import FragmentMerge.Proofs.Data.Within
import FragmentMerge.Proofs.Document.Copied
import FragmentMerge.Proofs.Document.Declarations
import FragmentMerge.Proofs.Document.Redirect
import FragmentMerge.Proofs.Document.Reload
import FragmentMerge.Proofs.Document.Remapped
import FragmentMerge.Proofs.Features.Brought
import FragmentMerge.Proofs.Features.Built
import FragmentMerge.Proofs.Features.Calls
import FragmentMerge.Proofs.Features.Gate
import FragmentMerge.Proofs.Features.InStep
import FragmentMerge.Proofs.Features.Materialize
import FragmentMerge.Proofs.Features.Notes
import FragmentMerge.Proofs.Features.Overrides
import FragmentMerge.Proofs.Features.Packages
import FragmentMerge.Proofs.Features.Ready
import FragmentMerge.Proofs.Features.Rerun
import FragmentMerge.Proofs.Features.Retype
import FragmentMerge.Proofs.Features.Scan
import FragmentMerge.Proofs.Features.Search
import FragmentMerge.Proofs.Features.Settled
import FragmentMerge.Proofs.Files.Directories
import FragmentMerge.Proofs.Files.Folder
import FragmentMerge.Proofs.Files.Making
import FragmentMerge.Proofs.Files.Route
import FragmentMerge.Proofs.Files.Tree
import FragmentMerge.Proofs.Patch.Edit
import FragmentMerge.Proofs.Patch.ExtensionMode
import FragmentMerge.Proofs.Patch.OneByOne
import FragmentMerge.Proofs.Patch.Rerun
import FragmentMerge.Proofs.Patch.Section
import FragmentMerge.Proofs.Replay.Attributes
import FragmentMerge.Proofs.Replay.Cases
import FragmentMerge.Proofs.Replay.Descent
import FragmentMerge.Proofs.Replay.Effect
import FragmentMerge.Proofs.Replay.Faithful
import FragmentMerge.Proofs.Replay.Fate
import FragmentMerge.Proofs.Replay.Independent
import FragmentMerge.Proofs.Replay.Links
import FragmentMerge.Proofs.Replay.References
import FragmentMerge.Proofs.Replay.Remaps
import FragmentMerge.Proofs.Replay.Repeated
import FragmentMerge.Proofs.Replay.Scope
import FragmentMerge.Proofs.Replay.Visibility
import FragmentMerge.Proofs.Schema.Column
import FragmentMerge.Proofs.Schema.Extract
import FragmentMerge.Proofs.Schema.Header
import FragmentMerge.Proofs.Schema.Key
import FragmentMerge.Proofs.Schema.Layout
import FragmentMerge.Proofs.Schema.Tokens
import FragmentMerge.Proofs.Session.Again
import FragmentMerge.Proofs.Session.Answer
import FragmentMerge.Proofs.Session.Circle
import FragmentMerge.Proofs.Session.Dismissal
import FragmentMerge.Proofs.Session.FixedPoint
import FragmentMerge.Proofs.Session.Grows
import FragmentMerge.Proofs.Session.Guard
import FragmentMerge.Proofs.Session.Keys
import FragmentMerge.Proofs.Session.Log
import FragmentMerge.Proofs.Session.Looks
import FragmentMerge.Proofs.Session.Mappings
import FragmentMerge.Proofs.Session.Offers
import FragmentMerge.Proofs.Session.Outcome
import FragmentMerge.Proofs.Session.Passes
import FragmentMerge.Proofs.Session.Ranks
import FragmentMerge.Proofs.Session.Repair
import FragmentMerge.Proofs.Session.Revealed
import FragmentMerge.Proofs.Session.Rounds
import FragmentMerge.Proofs.Session.Step
import FragmentMerge.Proofs.Session.Termination
import FragmentMerge.Proofs.Text.Find
import FragmentMerge.Proofs.Text.Lines
import FragmentMerge.Proofs.Toml.Document
import FragmentMerge.Proofs.Toml.Scalar
import FragmentMerge.Proofs.Toml.Value
import FragmentMerge.Report.Basic
import FragmentMerge.Report.Diagnostic
import FragmentMerge.Report.Timestamp
import FragmentMerge.Schema.Action
import FragmentMerge.Schema.ActionCoding
import FragmentMerge.Schema.Block
import FragmentMerge.Schema.Column
import FragmentMerge.Schema.Key
import FragmentMerge.Script.Arithmetic
import FragmentMerge.Script.Builtin
import FragmentMerge.Script.Condition
import FragmentMerge.Script.Expand
import FragmentMerge.Script.Format
import FragmentMerge.Script.Number
import FragmentMerge.Script.Octet
import FragmentMerge.Script.Reader
import FragmentMerge.Script.Run
import FragmentMerge.Script.Shell
import FragmentMerge.Script.Streams
import FragmentMerge.Script.Syntax
import FragmentMerge.Script.Tool.Basic
import FragmentMerge.Script.Tool.Files
import FragmentMerge.Script.Tool.Grep
import FragmentMerge.Script.Tool.Lines
import FragmentMerge.Script.Tool.Listing
import FragmentMerge.Script.Tool.Node
import FragmentMerge.Script.Tool.Regular
import FragmentMerge.Script.Tool.Sed
import FragmentMerge.Script.Tool.Table
import FragmentMerge.Script.Tool.Values
import FragmentMerge.Script.Tool.Words
import FragmentMerge.Script.Wildcard
import FragmentMerge.Session.Basic
import FragmentMerge.Session.Replay
import FragmentMerge.Session.Resolve
import FragmentMerge.Session.Rules
import FragmentMerge.Session.Step
import FragmentMerge.Text.Basic
import FragmentMerge.Text.Finder
import FragmentMerge.Text.Matching
import FragmentMerge.Text.Utf8
import FragmentMerge.Toml.Reader
import FragmentMerge.Toml.Scalar
import FragmentMerge.Toml.Writer
