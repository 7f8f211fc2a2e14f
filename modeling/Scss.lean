import Scss.AtRule.AtRoot
import Scss.AtRule.Conditional
import Scss.AtRule.Generic
import Scss.AtRule.Keyframes
import Scss.AtRule.Services
import Scss.AtRule.Strategy
import Scss.Builtin.Arguments
import Scss.Builtin.Color
import Scss.Builtin.List
import Scss.Builtin.Map
import Scss.Builtin.Math
import Scss.Builtin.Native
import Scss.Builtin.Registry
import Scss.Color
import Scss.Color.Named
import Scss.Color.Rgba
import Scss.CommandLine
import Scss.Compiler
import Scss.Decimal.Binary
import Scss.Decimal.Shortest
import Scss.Decimal.Text
import Scss.Dialect
import Scss.Document
import Scss.Eval
import Scss.Eval.Calc
import Scss.Eval.Call
import Scss.Eval.Control
import Scss.Eval.Expression
import Scss.Eval.Intrinsic
import Scss.Eval.Job
import Scss.Eval.Module
import Scss.Eval.Operator
import Scss.Eval.Sheet
import Scss.Eval.Statement
import Scss.Fault
import Scss.FileTree
import Scss.Grammar.Expression
import Scss.Grammar.Parser
import Scss.Grammar.Quoted
import Scss.Grammar.Raw
import Scss.Grammar.Statement
import Scss.Loader
import Scss.Machine
import Scss.Machine.Scope
import Scss.Main
import Scss.Number
import Scss.Options
import Scss.Options.Read
import Scss.Path
import Scss.Position
import Scss.Proofs.Braces
import Scss.Proofs.Braces.AtRules
import Scss.Proofs.Braces.Evaluation
import Scss.Proofs.Braces.Jobs
import Scss.Proofs.Braces.Layout
import Scss.Proofs.Braces.Library
import Scss.Proofs.Braces.Machine
import Scss.Proofs.Braces.Marks
import Scss.Proofs.Braces.Reading
import Scss.Proofs.Braces.Tree
import Scss.Proofs.Braces.Twins
import Scss.Proofs.Braces.Values
import Scss.Proofs.Evolution
import Scss.Proofs.FlatRules
import Scss.Proofs.Grammar.Levels
import Scss.Proofs.Grammar.Printed
import Scss.Proofs.Grammar.Reading
import Scss.Proofs.Grammar.RoundTrip
import Scss.Proofs.Logic
import Scss.Proofs.Logic.Statements
import Scss.Proofs.Logic.Values
import Scss.Proofs.Lookup
import Scss.Proofs.Moves
import Scss.Proofs.Moves.Steady
import Scss.Proofs.Run
import Scss.Proofs.Surroundings
import Scss.Proofs.Tiling
import Scss.Reflow.Compress
import Scss.Reflow.Gradient
import Scss.Reflow.SelectorList
import Scss.Selector
import Scss.Separator
import Scss.SourceMap
import Scss.Text.Ascii
import Scss.Text.Blank
import Scss.Text.Cut
import Scss.Text.Lines
import Scss.Text.TopLevel
import Scss.Text.Word
import Scss.Token
import Scss.Token.Cursor
import Scss.Token.Lexer
import Scss.Tree.Address
import Scss.Tree.Expr
import Scss.Tree.Statement
import Scss.Unit
import Scss.Value
import Scss.Value.Map
import Scss.Proofs.Moves.Jobs
import Scss.Proofs.Moves.Watch
import Scss.Proofs.LexicalScope
import Scss.Proofs.ContentScope
import Scss.Proofs.Modules.Loading
import Scss.Proofs.Modules.Links
import Scss.Proofs.Modules.Isolation
import Scss.Proofs.Conduct.Runs
import Scss.Proofs.Dressing
import Scss.Proofs.Modules.Forwards
import Scss.Proofs.Placeholders
import Scss.Proofs.Sites
import Scss.Proofs.SourceMaps.Rows
import Scss.Proofs.SourceMaps.Tagged
import Scss.Proofs.Effects
import Scss.Proofs.Grammar.Progress
import Scss.Proofs.Grammar.Termination
import Scss.Proofs.Indentation
import Scss.Proofs.Spelling
import Scss.Proofs.SourceMaps.Handlers
import Scss.Proofs.SourceMaps.Mappings
import Scss.Proofs.Concur
import Scss.Proofs.Grammar.Twins
import Scss.Proofs.Grammar.Trivia
import Scss.Proofs.Grammar.Boundaries
import Scss.Proofs.Grammar.CustomProperties
import Scss.Proofs.Grammar.RawText
import Scss.Proofs.Configuration
import Scss.Proofs.Grammar.Numbers
import Scss.Proofs.Grammar.Embedded
import Scss.Proofs.Quoting
import Scss.Proofs.PlainValues
import Scss.Proofs.Imports
import Scss.Proofs.Grammar.Strings
import Scss.Proofs.NestedProperties
import Scss.Proofs.Queries
import Scss.Proofs.KeyframeBlocks
import Scss.Proofs.Arguments
import Scss.Proofs.Modules.Variables
import Scss.Proofs.Scopes
import Scss.Proofs.Maps.Entries
import Scss.Proofs.Maps.History
import Scss.Proofs.Maps.Paths
import Scss.Proofs.Equality
import Scss.Proofs.Texts
import Scss.Proofs.Cutting
import Scss.Proofs.Cutting.Parts
import Scss.Proofs.Units
import Scss.Proofs.Selectors
import Scss.Proofs.Selectors.Strings
import Scss.Proofs.AtRoot
import Scss.Proofs.SelectorLists
import Scss.Proofs.Pairs
import Scss.Proofs.Compression.Comments
import Scss.Proofs.Compression.Rows
import Scss.Proofs.Compression.Sheets
import Scss.Proofs.Grammar.Lookahead
import Scss.Proofs.Grammar.Dropping
import Scss.Proofs.Compression.Strings
import Scss.Proofs.SourceMaps.Resolution
import Scss.Proofs.Indentation.Blocks
import Scss.Proofs.Indentation.Comments
import Scss.Proofs.NativeColors
import Scss.Proofs.Seams.Rows
import Scss.Proofs.Seams.Expressions
import Scss.Proofs.Seams.Statements
import Scss.Proofs.Seams.Sheets
import Scss.Proofs.Seams.Comments
import Scss.Proofs.Gradients
import Scss.Proofs.Deferral
import Scss.Proofs.Grammar.Urls
import Scss.Proofs.Grammar.Backtracking
import Scss.Proofs.SourceMaps.Sources
