import SiteSettings.CommandLine.Arguments
import SiteSettings.CommandLine.Reports
import SiteSettings.CommandLine.Run
import SiteSettings.Config.Environment
import SiteSettings.Config.Fields
import SiteSettings.Config.Merge
import SiteSettings.Config.Overrides
import SiteSettings.Config.Resolve
import SiteSettings.Config.Search
import SiteSettings.Config.Strict
import SiteSettings.DotEnv
import SiteSettings.Entries
import SiteSettings.Error
import SiteSettings.Files.Access
import SiteSettings.Files.Tree
import SiteSettings.Generator
import SiteSettings.Json.Document
import SiteSettings.Json.Pointer
import SiteSettings.Json.Value
import SiteSettings.Main
import SiteSettings.Number.Binary64
import SiteSettings.Number.Layout
import SiteSettings.Number.Shortest
import SiteSettings.Path
import SiteSettings.Php.Form
import SiteSettings.Php.Grammar
import SiteSettings.Php.Lexeme
import SiteSettings.Php.LiteralText
import SiteSettings.Php.Printer
import SiteSettings.Php.Stack
import SiteSettings.Php.Syntax
import SiteSettings.Php.Template
import SiteSettings.Project.Action
import SiteSettings.Project.Basic
import SiteSettings.Proofs.Assignments
import SiteSettings.Proofs.Declared
import SiteSettings.Proofs.Effect
import SiteSettings.Proofs.Entries
import SiteSettings.Proofs.IntegerKeys
import SiteSettings.Proofs.Meaning
import SiteSettings.Proofs.Php.CodeReader
import SiteSettings.Proofs.Php.Execution
import SiteSettings.Proofs.Php.Numerals
import SiteSettings.Proofs.Php.Reading
import SiteSettings.Proofs.ReadBack
import SiteSettings.Proofs.Rendering
import SiteSettings.Proofs.SettingsFile
import SiteSettings.Proofs.SettingsTemplate
import SiteSettings.Report
import SiteSettings.Settings.Declared
import SiteSettings.Settings.Map
import SiteSettings.Settings.Spec
import SiteSettings.SettingsFile
import SiteSettings.Text.Alphanumeric
import SiteSettings.Text.Blank
import SiteSettings.Text.Ending
import SiteSettings.Text.Escaped
import SiteSettings.Text.Lowercase
import SiteSettings.Text.Pieces
import SiteSettings.Toml.Datetime
import SiteSettings.Toml.Document
import SiteSettings.Toml.Lexeme
import SiteSettings.Toml.Section
import SiteSettings.Toml.Value
import SiteSettings.Proofs.Toml.Paths
import SiteSettings.Proofs.Config.Layers
import SiteSettings.Proofs.Config.Overrides
import SiteSettings.Proofs.Toml.DistinctNames
import SiteSettings.Proofs.Config.Environment
import SiteSettings.Proofs.Config.Fields
import SiteSettings.Proofs.Files.Runs
import SiteSettings.Proofs.Config.Search
import SiteSettings.Proofs.Project.Loading
import SiteSettings.Proofs.Config.Precedence
import SiteSettings.Proofs.Files.Tree
import SiteSettings.Proofs.Project.Effects
import SiteSettings.Proofs.Variables
import SiteSettings.Proofs.Toml.Reordering
import SiteSettings.Proofs.Config.VariableOrder
import SiteSettings.Proofs.Json.DistinctNames
import SiteSettings.Proofs.SafeSettings
import SiteSettings.Proofs.Project.InPlace
import SiteSettings.Proofs.Php.Derivation
import SiteSettings.Proofs.Php.Recognition
import SiteSettings.Proofs.Php.Pieces
import SiteSettings.Proofs.Php.Statements
import SiteSettings.Proofs.Collapsing
import SiteSettings.Proofs.DotEnv
import SiteSettings.Proofs.Config.UnknownKeys
import SiteSettings.Proofs.Files.Spelling
import SiteSettings.Proofs.Project.RelativeRoot
import SiteSettings.Proofs.Insertions
import SiteSettings.Proofs.EmptyComposites
import SiteSettings.Proofs.Formats
import SiteSettings.Proofs.Config.MergedOrder
import SiteSettings.Proofs.Config.FoundFiles
import SiteSettings.Proofs.Pushing
import SiteSettings.Proofs.Text.Trimming
import SiteSettings.Proofs.Toml.Remainders
import SiteSettings.Proofs.Toml.BareKeys
import SiteSettings.Proofs.Toml.Blocks
import SiteSettings.Proofs.Config.KeyLines
import SiteSettings.Proofs.Php.Margins
import SiteSettings.Proofs.Widths
import SiteSettings.Proofs.Php.Continuing
