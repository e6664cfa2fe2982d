import EnumLabels.Case
import EnumLabels.Data.Basic
import EnumLabels.Data.Fault
import EnumLabels.Data.Moment
import EnumLabels.Data.Order
import EnumLabels.Data.Runs
import EnumLabels.Decimal.Binary
import EnumLabels.Decimal.Layout
import EnumLabels.Decimal.Reading
import EnumLabels.Decimal.Shortest
import EnumLabels.Decimal.Whole
import EnumLabels.Demo
import EnumLabels.Directory
import EnumLabels.Error
import EnumLabels.Json.Reader
import EnumLabels.Json.Writer
import EnumLabels.Main
import EnumLabels.Proofs.Data.Equality
import EnumLabels.Proofs.Data.Plain
import EnumLabels.Proofs.Data.Sorted
import EnumLabels.Proofs.Decimal.Whole
import EnumLabels.Proofs.Json.Number
import EnumLabels.Proofs.Json.String
import EnumLabels.Proofs.Json.Value
import EnumLabels.Proofs.Report.Accounts
import EnumLabels.Proofs.Report.Agreement
import EnumLabels.Proofs.Report.AlikeLines
import EnumLabels.Proofs.Report.Groups
import EnumLabels.Proofs.Report.Prediction
import EnumLabels.Proofs.Report.SeveralCases
import EnumLabels.Proofs.Report.TrailingComment
import EnumLabels.Proofs.Report.Warnings
import EnumLabels.Proofs.Samples.MarkerLine
import EnumLabels.Proofs.Scan.BlockLabels
import EnumLabels.Proofs.Scan.ClosureBody
import EnumLabels.Proofs.Scan.CommentedCase
import EnumLabels.Proofs.Scan.Declaration
import EnumLabels.Proofs.Scan.FirstBlock
import EnumLabels.Proofs.Scan.FirstReturn
import EnumLabels.Proofs.Scan.InsertedFiller
import EnumLabels.Proofs.Scan.KeywordWords
import EnumLabels.Proofs.Scan.LineKind
import EnumLabels.Proofs.Scan.Locality
import EnumLabels.Proofs.Scan.LocatedBlock
import EnumLabels.Proofs.Scan.MarkerOverlap
import EnumLabels.Proofs.Scan.MatchingBrace
import EnumLabels.Proofs.Scan.Nesting
import EnumLabels.Proofs.Scan.SkippedClosure
import EnumLabels.Proofs.Scan.Trimmed
import EnumLabels.Proofs.Settings.Checks
import EnumLabels.Proofs.Settings.Given
import EnumLabels.Proofs.Settings.Markers
import EnumLabels.Proofs.Settings.Stored
import EnumLabels.Proofs.Settings.Use
import EnumLabels.Proofs.Source
import EnumLabels.Proofs.Source.Readable
import EnumLabels.Proofs.Stages
import EnumLabels.Proofs.Steps
import EnumLabels.Proofs.Steps.Trace
import EnumLabels.Proofs.Table.Building
import EnumLabels.Proofs.Table.Consistent
import EnumLabels.Proofs.Table.Lookup
import EnumLabels.Proofs.Table.OwnLabels
import EnumLabels.Proofs.Table.Pairs
import EnumLabels.Proofs.Table.Stored
import EnumLabels.Proofs.Table.Yaml
import EnumLabels.Proofs.Text.CarriageReturn
import EnumLabels.Proofs.Text.CodeString
import EnumLabels.Proofs.Text.Division
import EnumLabels.Proofs.Text.Hex
import EnumLabels.Proofs.Text.Lines
import EnumLabels.Proofs.Text.Marker
import EnumLabels.Proofs.Text.Trim
import EnumLabels.Proofs.Text.Utf8
import EnumLabels.Proofs.Text.Words
import EnumLabels.Proofs.Yaml.Block
import EnumLabels.Proofs.Yaml.Cursor
import EnumLabels.Proofs.Yaml.Denotes
import EnumLabels.Proofs.Yaml.DoubleQuoted
import EnumLabels.Proofs.Yaml.Key
import EnumLabels.Proofs.Yaml.Lexer
import EnumLabels.Proofs.Yaml.Ordinary
import EnumLabels.Proofs.Yaml.PlainData
import EnumLabels.Proofs.Yaml.PlainText
import EnumLabels.Proofs.Yaml.Reread
import EnumLabels.Proofs.Yaml.SafePlain
import EnumLabels.Proofs.Yaml.ScalarToken
import EnumLabels.Proofs.Yaml.SingleQuoted
import EnumLabels.Proofs.Yaml.Tree
import EnumLabels.Proofs.Yaml.Value
import EnumLabels.Report
import EnumLabels.Samples
import EnumLabels.Scan
import EnumLabels.Scan.Block
import EnumLabels.Scan.Closure
import EnumLabels.Scan.Labels
import EnumLabels.Scan.Line
import EnumLabels.Settings
import EnumLabels.Settings.Stored
import EnumLabels.Settings.Use
import EnumLabels.Source
import EnumLabels.Steps
import EnumLabels.Table.Basic
import EnumLabels.Table.Source
import EnumLabels.Table.Stored
import EnumLabels.Text.Blank
import EnumLabels.Text.CodeString
import EnumLabels.Text.Hex
import EnumLabels.Text.Printable
import EnumLabels.Text.Quoted
import EnumLabels.Text.Split
import EnumLabels.Text.Utf8
import EnumLabels.Text.Word
import EnumLabels.Yaml.Fault
import EnumLabels.Yaml.Node
import EnumLabels.Yaml.Plain
import EnumLabels.Yaml.Reader
import EnumLabels.Yaml.Scalar
import EnumLabels.Yaml.ScalarReader
import EnumLabels.Yaml.Text
import EnumLabels.Yaml.Token
import EnumLabels.Yaml.Value
import EnumLabels.Yaml.Writer
