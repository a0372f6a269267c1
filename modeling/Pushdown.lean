import Pushdown.CommandLine.Options
import Pushdown.CommandLine.Run
import Pushdown.Dialect.Builtin
import Pushdown.Dialect.CapabilitySet
import Pushdown.Dialect.Dialect
import Pushdown.Dialect.Notes
import Pushdown.Dialect.Profile
import Pushdown.Dialect.Registry
import Pushdown.Dialect.Version
import Pushdown.Dictionary
import Pushdown.Failure
import Pushdown.Json.Scalar
import Pushdown.Json.Source
import Pushdown.Json.Stream
import Pushdown.Json.Text
import Pushdown.Log
import Pushdown.Main
import Pushdown.Proofs.Dialect.Completeness
import Pushdown.Proofs.Dialect.Readable
import Pushdown.Proofs.Dialect.Report
import Pushdown.Proofs.Dialect.Versions
import Pushdown.Proofs.Dictionary
import Pushdown.Proofs.Json.Grammar
import Pushdown.Proofs.Json.Stream
import Pushdown.Proofs.Json.Strings
import Pushdown.Proofs.Json.Writing
import Pushdown.Proofs.Outcome
import Pushdown.Proofs.Request.Blame
import Pushdown.Proofs.Request.Counter
import Pushdown.Proofs.Request.JoinConditions
import Pushdown.Proofs.Request.Lookup
import Pushdown.Proofs.Request.Meaning
import Pushdown.Proofs.Request.NumericLiterals
import Pushdown.Proofs.Request.Qualification
import Pushdown.Proofs.Request.Sources
import Pushdown.Proofs.Request.Unchecked
import Pushdown.Proofs.Request.WellFormed
import Pushdown.Proofs.Service.Answer
import Pushdown.Proofs.Service.Batch
import Pushdown.Proofs.Service.Capabilities
import Pushdown.Proofs.Service.Reply
import Pushdown.Proofs.Service.Schedule
import Pushdown.Proofs.Sql.ClauseWords
import Pushdown.Proofs.Sql.Composition
import Pushdown.Proofs.Sql.Conditions
import Pushdown.Proofs.Sql.Erasure
import Pushdown.Proofs.Sql.EscapedNames
import Pushdown.Proofs.Sql.Expressible
import Pushdown.Proofs.Sql.Growth
import Pushdown.Proofs.Sql.Injection
import Pushdown.Proofs.Sql.Joins
import Pushdown.Proofs.Sql.Names
import Pushdown.Proofs.Sql.Ordering
import Pushdown.Proofs.Sql.Outside
import Pushdown.Proofs.Sql.Overrides
import Pushdown.Proofs.Sql.Precedence
import Pushdown.Proofs.Sql.QuotedNames
import Pushdown.Proofs.Sql.QuotedTexts
import Pushdown.Proofs.Sql.Rendering
import Pushdown.Proofs.Sql.SearchConditions
import Pushdown.Proofs.Sql.SearchedCase
import Pushdown.Proofs.Sql.SelfDelimiting
import Pushdown.Proofs.Sql.Shown
import Pushdown.Proofs.Sql.Evaluation
import Pushdown.Proofs.Sql.TruthValues
import Pushdown.Proofs.Syntax.Clauses
import Pushdown.Proofs.Syntax.Frames
import Pushdown.Proofs.Syntax.Pruning
import Pushdown.Proofs.Syntax.WellFormed
import Pushdown.Proofs.Text.Decimal
import Pushdown.Request.Catalog
import Pushdown.Request.Expression
import Pushdown.Request.Malformed
import Pushdown.Request.Object
import Pushdown.Request.ReadError
import Pushdown.Request.Readers
import Pushdown.Request.Request
import Pushdown.Request.Scope
import Pushdown.Request.StatementReader
import Pushdown.Request.TypeReader
import Pushdown.Service.Reply
import Pushdown.Service.Service
import Pushdown.Settings.EnvFile
import Pushdown.Settings.Load
import Pushdown.Settings.Settings
import Pushdown.Settings.Yaml.BlockText
import Pushdown.Settings.Yaml.Cursor
import Pushdown.Settings.Yaml.Fields
import Pushdown.Settings.Yaml.Node
import Pushdown.Settings.Yaml.ScalarText
import Pushdown.Settings.Yaml.Token
import Pushdown.Settings.Yaml.TokenStream
import Pushdown.Settings.Yaml.Value
import Pushdown.Sql.Call
import Pushdown.Sql.Clause
import Pushdown.Sql.Fragment
import Pushdown.Sql.Leaf
import Pushdown.Sql.Position
import Pushdown.Sql.Predicate
import Pushdown.Sql.Quoting
import Pushdown.Sql.Render
import Pushdown.Sql.Unsupported
import Pushdown.Syntax.Build
import Pushdown.Syntax.DataType
import Pushdown.Syntax.Fault
import Pushdown.Syntax.Kind
import Pushdown.Syntax.LiteralFormat
import Pushdown.Syntax.Node
import Pushdown.Syntax.Walk
import Pushdown.Text.Blank
import Pushdown.Text.Bytes
import Pushdown.Text.Case
import Pushdown.Text.CaseTable
import Pushdown.Text.Number
import Pushdown.Text.PrintableTable
import Pushdown.Text.Quoted
import Pushdown.Text.Template
import Pushdown.Proofs.Text.Integer
import Pushdown.Proofs.Request.Integers
import Pushdown.Proofs.Sql.Gaps
import Pushdown.Proofs.Dialect.Vocabulary
import Pushdown.Proofs.Sql.Operands
import Pushdown.Proofs.Sql.CompleteStatements
import Pushdown.Proofs.CommandLine.Exit
import Pushdown.Proofs.Dialect.CapabilitySet
import Pushdown.Proofs.Settings.NoteVariables
