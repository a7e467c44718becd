import LayeredConfig.Binary64.Basic
import LayeredConfig.Binary64.Layout
import LayeredConfig.Binary64.Nearest
import LayeredConfig.Binary64.Shortest
import LayeredConfig.Characters.Blank
import LayeredConfig.Characters.Hex
import LayeredConfig.Characters.Printable
import LayeredConfig.Code.Artifact
import LayeredConfig.Code.Assignment
import LayeredConfig.Code.Flat
import LayeredConfig.Code.Generator
import LayeredConfig.Code.Quoting
import LayeredConfig.Code.Segment
import LayeredConfig.Code.Structured
import LayeredConfig.CommandLine.Arguments
import LayeredConfig.CommandLine.Flag
import LayeredConfig.CommandLine.Reach
import LayeredConfig.CommandLine.Run
import LayeredConfig.Compiler
import LayeredConfig.Document.Conversion
import LayeredConfig.Document.Loading
import LayeredConfig.Document.Parse
import LayeredConfig.Document.Reference
import LayeredConfig.Entries
import LayeredConfig.Failure
import LayeredConfig.FileSystem.Basic
import LayeredConfig.FileSystem.Change
import LayeredConfig.FileSystem.Lookup
import LayeredConfig.Json
import LayeredConfig.Main
import LayeredConfig.Options
import LayeredConfig.Path
import LayeredConfig.Settings
import LayeredConfig.SettingsFile
import LayeredConfig.Sha256
import LayeredConfig.Signature
import LayeredConfig.Store
import LayeredConfig.Text
import LayeredConfig.Toml.Document
import LayeredConfig.Toml.Lexical
import LayeredConfig.Toml.Value
import LayeredConfig.Tree.Filter
import LayeredConfig.Tree.Flatten
import LayeredConfig.Tree.Merge
import LayeredConfig.Value.Basic
import LayeredConfig.Value.View
import LayeredConfig.Yaml.Composition
import LayeredConfig.Yaml.Cursor
import LayeredConfig.Yaml.Expansion
import LayeredConfig.Yaml.Fault
import LayeredConfig.Yaml.Lexer
import LayeredConfig.Yaml.Load
import LayeredConfig.Yaml.MergeKey
import LayeredConfig.Yaml.Node
import LayeredConfig.Yaml.PlainScalar
import LayeredConfig.Yaml.ScalarText
import LayeredConfig.Yaml.TagText
import LayeredConfig.Yaml.Token
import LayeredConfig.Yaml.Value
import LayeredConfig.Proofs.Entries.Alteration
import LayeredConfig.Proofs.Tree.Shape
import LayeredConfig.Proofs.Tree.Place
import LayeredConfig.Proofs.Tree.Overlay
import LayeredConfig.Proofs.Tree.DotPath
import LayeredConfig.Proofs.Tree.Flattening
import LayeredConfig.Proofs.Tree.Lookup
import LayeredConfig.Proofs.Tree.FlatMerge
import LayeredConfig.Proofs.Tree.Conflict
import LayeredConfig.Proofs.Code.Literal
import LayeredConfig.Proofs.Code.Constant
import LayeredConfig.Proofs.Code.Statement
import LayeredConfig.Proofs.Code.AccessPath
import LayeredConfig.Proofs.Code.Structured
import LayeredConfig.Proofs.Tree.Replay
import LayeredConfig.Proofs.Results
import LayeredConfig.Proofs.FirstFailure
import LayeredConfig.Proofs.FileSystem.Directories
import LayeredConfig.Proofs.FileSystem.Writing
import LayeredConfig.Proofs.Document.Resolution
import LayeredConfig.Proofs.Document.Merging
import LayeredConfig.Proofs.Store.Writing
import LayeredConfig.Proofs.Code.Unsupported
import LayeredConfig.Proofs.Compilation.Request
import LayeredConfig.Proofs.Compilation.Failing
import LayeredConfig.Proofs.Compilation.Stored
import LayeredConfig.Proofs.Yaml.NumberText
import LayeredConfig.Proofs.Document.Settled
import LayeredConfig.Proofs.Document.Reconversion
import LayeredConfig.Proofs.FileSystem.Naming
import LayeredConfig.Proofs.FileSystem.Steadiness
import LayeredConfig.Proofs.Compilation.Stages
import LayeredConfig.Proofs.Compilation.Outcome
import LayeredConfig.Proofs.Compilation.AppendOnly
import LayeredConfig.Proofs.Signature.PathMaterial
import LayeredConfig.Proofs.FileSystem.Removal
import LayeredConfig.Proofs.Store.Clearing
import LayeredConfig.Proofs.Document.Spelling
import LayeredConfig.Proofs.Document.SigilChoice
import LayeredConfig.Proofs.Code.Agreement
import LayeredConfig.Proofs.Entries.Building
import LayeredConfig.Proofs.Tree.FlatForm
import LayeredConfig.Proofs.Code.Stripping
import LayeredConfig.Proofs.Code.FlatReading
import LayeredConfig.Proofs.Code.MainKey
import LayeredConfig.Proofs.Tree.MergedValues
import LayeredConfig.Proofs.Tree.MergeAlgebra
import LayeredConfig.Proofs.Document.Mirroring
import LayeredConfig.Proofs.Tree.Filtering
import LayeredConfig.Proofs.Yaml.SilentText
import LayeredConfig.Proofs.Document.BlankText
import LayeredConfig.Proofs.Document.Tags
import LayeredConfig.Proofs.Signature.ContentMaterial
import LayeredConfig.Proofs.FileSystem.SlashFree
import LayeredConfig.Proofs.Store.ClearedFiles
import LayeredConfig.Proofs.Code.Header
import LayeredConfig.Proofs.Document.Identifier
import LayeredConfig.Proofs.Document.Fallback
import LayeredConfig.Proofs.CommandLine.Line
import LayeredConfig.Proofs.CommandLine.Reloading
import LayeredConfig.Proofs.CommandLine.Display
import LayeredConfig.Proofs.Code.LiteralPieces
import LayeredConfig.Proofs.CommandLine.Handle
