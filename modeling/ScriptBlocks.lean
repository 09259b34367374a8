import ScriptBlocks.Arguments.Grammar
import ScriptBlocks.Arguments.Invocation
import ScriptBlocks.Arguments.Reading
import ScriptBlocks.Command
import ScriptBlocks.Comment
import ScriptBlocks.Entries
import ScriptBlocks.EnvFile
import ScriptBlocks.Environment
import ScriptBlocks.Extract
import ScriptBlocks.FileSystem
import ScriptBlocks.Json
import ScriptBlocks.Log
import ScriptBlocks.Main
import ScriptBlocks.Path
import ScriptBlocks.Scan
import ScriptBlocks.Script
import ScriptBlocks.Service
import ScriptBlocks.Session
import ScriptBlocks.Settings
import ScriptBlocks.SourceType
import ScriptBlocks.Tag
import ScriptBlocks.Text.Blank
import ScriptBlocks.Text.DecimalDigit
import ScriptBlocks.Text.Lines
import ScriptBlocks.Text.LowerCase
import ScriptBlocks.Text.Numeral
import ScriptBlocks.Text.Printable
import ScriptBlocks.Text.Quoted
import ScriptBlocks.Text.Search
import ScriptBlocks.Text.Utf8
import ScriptBlocks.TextFile
import ScriptBlocks.Walk
import ScriptBlocks.Proofs.Text.Blank
import ScriptBlocks.Proofs.Text.Numeral
import ScriptBlocks.Proofs.Text.Search
import ScriptBlocks.Proofs.Text.Utf8
import ScriptBlocks.Proofs.Text.Quoted
import ScriptBlocks.Proofs.Text.Decoding
import ScriptBlocks.Proofs.Text.Newlines
import ScriptBlocks.Proofs.Comment
import ScriptBlocks.Proofs.Fate
import ScriptBlocks.Proofs.Offsets
import ScriptBlocks.Proofs.Coverage
import ScriptBlocks.Proofs.Composition
import ScriptBlocks.Proofs.Document
import ScriptBlocks.Proofs.Rendering
import ScriptBlocks.Proofs.Extension
import ScriptBlocks.Proofs.Ranges
import ScriptBlocks.Proofs.Bodies
import ScriptBlocks.Proofs.Iteration
import ScriptBlocks.Proofs.Acceptance
import ScriptBlocks.Proofs.Account
import ScriptBlocks.Proofs.Naming
import ScriptBlocks.Proofs.Walk
import ScriptBlocks.Proofs.Findings
import ScriptBlocks.Proofs.FileRanges
import ScriptBlocks.Proofs.Completion
import ScriptBlocks.Proofs.Tree
import ScriptBlocks.Proofs.WalkOrder
import ScriptBlocks.Proofs.Entries
import ScriptBlocks.Proofs.PathLists
import ScriptBlocks.Proofs.Listing
import ScriptBlocks.Proofs.Suffixes
import ScriptBlocks.Proofs.EntryPoints
import ScriptBlocks.Proofs.Text.LowerCase
import ScriptBlocks.Proofs.Arguments.Reading
import ScriptBlocks.Proofs.Arguments.Words
import ScriptBlocks.Proofs.Arguments.EnvFileOption
import ScriptBlocks.Proofs.Arguments.Invocation
import ScriptBlocks.Proofs.TagInside
import ScriptBlocks.Proofs.LanguageAttribute
import ScriptBlocks.Proofs.Exporting
import ScriptBlocks.Proofs.Overriding
import ScriptBlocks.Proofs.EnvFileChoice
import ScriptBlocks.Proofs.EnvFileFailure
import ScriptBlocks.Proofs.EnvFileWriting
import ScriptBlocks.Proofs.Termination
