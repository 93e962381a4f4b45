import TailwindUpgrade.Cli.Options
import TailwindUpgrade.Cli.Run
import TailwindUpgrade.Config.Anchor
import TailwindUpgrade.Config.Binding
import TailwindUpgrade.Config.Notice
import TailwindUpgrade.Config.Part
import TailwindUpgrade.Config.Plugin
import TailwindUpgrade.Config.Read
import TailwindUpgrade.Config.Reader
import TailwindUpgrade.Config.Theme
import TailwindUpgrade.Css.Lexeme
import TailwindUpgrade.Css.Nesting
import TailwindUpgrade.Css.Node
import TailwindUpgrade.Css.Rule
import TailwindUpgrade.Css.Write
import TailwindUpgrade.Literal.Cursor
import TailwindUpgrade.Literal.Display
import TailwindUpgrade.Literal.Entry
import TailwindUpgrade.Literal.Expression
import TailwindUpgrade.Literal.Fault
import TailwindUpgrade.Literal.Key
import TailwindUpgrade.Literal.Layout
import TailwindUpgrade.Literal.Print
import TailwindUpgrade.Literal.Quote
import TailwindUpgrade.Literal.Read
import TailwindUpgrade.Literal.Record
import TailwindUpgrade.Literal.Value
import TailwindUpgrade.Main
import TailwindUpgrade.Migration.Convert
import TailwindUpgrade.Migration.Merge
import TailwindUpgrade.Migration.Notice
import TailwindUpgrade.Number.Binary64
import TailwindUpgrade.Number.Layout
import TailwindUpgrade.Number.Numeral
import TailwindUpgrade.Number.Shortest
import TailwindUpgrade.Plugin.Block
import TailwindUpgrade.Plugin.Daisy
import TailwindUpgrade.Plugin.Setting
import TailwindUpgrade.Plugin.Typography
import TailwindUpgrade.Project.Disk
import TailwindUpgrade.Project.Lookup
import TailwindUpgrade.Project.Path
import TailwindUpgrade.Proofs.Cli.Frame
import TailwindUpgrade.Proofs.Config.Anchor
import TailwindUpgrade.Proofs.Config.Behind
import TailwindUpgrade.Proofs.Config.Binding
import TailwindUpgrade.Proofs.Config.BrokenOff
import TailwindUpgrade.Proofs.Config.Conformance
import TailwindUpgrade.Proofs.Config.Cut
import TailwindUpgrade.Proofs.Config.Entries
import TailwindUpgrade.Proofs.Config.FunctionForm
import TailwindUpgrade.Proofs.Config.History
import TailwindUpgrade.Proofs.Config.Isolation
import TailwindUpgrade.Proofs.Config.Naming
import TailwindUpgrade.Proofs.Config.Presence
import TailwindUpgrade.Proofs.Config.RoundTrip
import TailwindUpgrade.Proofs.Config.Schema
import TailwindUpgrade.Proofs.Literal.Absorption
import TailwindUpgrade.Proofs.Literal.Agreement
import TailwindUpgrade.Proofs.Literal.Balance
import TailwindUpgrade.Proofs.Literal.Completeness
import TailwindUpgrade.Proofs.Literal.Excerpt
import TailwindUpgrade.Proofs.Literal.Extent
import TailwindUpgrade.Proofs.Literal.Gap
import TailwindUpgrade.Proofs.Literal.Grammar
import TailwindUpgrade.Proofs.Literal.Heading
import TailwindUpgrade.Proofs.Literal.Listed
import TailwindUpgrade.Proofs.Literal.LongNumeral
import TailwindUpgrade.Proofs.Literal.Loop
import TailwindUpgrade.Proofs.Literal.Path
import TailwindUpgrade.Proofs.Literal.Place
import TailwindUpgrade.Proofs.Literal.Printed
import TailwindUpgrade.Proofs.Literal.Progress
import TailwindUpgrade.Proofs.Literal.Quotation
import TailwindUpgrade.Proofs.Literal.Range
import TailwindUpgrade.Proofs.Literal.Record
import TailwindUpgrade.Proofs.Literal.Rendering
import TailwindUpgrade.Proofs.Literal.SelfContained
import TailwindUpgrade.Proofs.Literal.Sentence
import TailwindUpgrade.Proofs.Literal.Soundness
import TailwindUpgrade.Proofs.Literal.Utf16
import TailwindUpgrade.Proofs.Migration.Carried
import TailwindUpgrade.Proofs.Migration.ColorLine
import TailwindUpgrade.Proofs.Migration.Outcome
import TailwindUpgrade.Proofs.Migration.Reconversion
import TailwindUpgrade.Proofs.Number.Numeral
import TailwindUpgrade.Proofs.Plugin.Block
import TailwindUpgrade.Proofs.Plugin.Daisy
import TailwindUpgrade.Proofs.Plugin.Nesting
import TailwindUpgrade.Proofs.Plugin.Property
import TailwindUpgrade.Proofs.Plugin.ThemeList
import TailwindUpgrade.Proofs.Plugin.Typography
import TailwindUpgrade.Proofs.Project.Discovery
import TailwindUpgrade.Proofs.Project.Tree
import TailwindUpgrade.Proofs.Sheet.Component
import TailwindUpgrade.Proofs.Sheet.Section
import TailwindUpgrade.Proofs.Text.Keyword
import TailwindUpgrade.Proofs.Text.Line
import TailwindUpgrade.Proofs.Text.Match
import TailwindUpgrade.Proofs.Text.Replace
import TailwindUpgrade.Proofs.Text.Run
import TailwindUpgrade.Proofs.Text.Trim
import TailwindUpgrade.Proofs.Theme.ColorReference
import TailwindUpgrade.Proofs.Theme.Merge
import TailwindUpgrade.Proofs.Theme.MergeLaws
import TailwindUpgrade.Proofs.Theme.Palette
import TailwindUpgrade.Reported
import TailwindUpgrade.Sheet.Layer
import TailwindUpgrade.Sheet.Section
import TailwindUpgrade.Text.Blank
import TailwindUpgrade.Text.CodePoint
import TailwindUpgrade.Text.Digit
import TailwindUpgrade.Text.Line
import TailwindUpgrade.Text.Printable
import TailwindUpgrade.Text.Quoted
import TailwindUpgrade.Text.Search
import TailwindUpgrade.Text.Word
import TailwindUpgrade.Theme.Block
import TailwindUpgrade.Theme.ColorReference
