import Relex.Text.Offset
import Relex.Text.Search
import Relex.Text.Quoted
import Relex.Unicode.CharClass
import Relex.Token.Kind
import Relex.Token.Basic
import Relex.Stack.Basic
import Relex.Stack.Shelf
import Relex.Stream.Tape
import Relex.Stream.Reader
import Relex.Stream.Grouping
import Relex.Stream.Replay
import Relex.Script.Grammar
import Relex.Markup.Grammar
import Relex.Document
import Relex.Session
import Relex.Dump
import Relex.Restart
import Relex.CommandLine
import Relex.Main
import Relex.Proofs.Boundary
import Relex.Proofs.Run
import Relex.Proofs.Coverage
import Relex.Proofs.Resumption
import Relex.Proofs.Nesting
import Relex.Proofs.CharClasses
import Relex.Proofs.Moves
import Relex.Proofs.Coherence
import Relex.Proofs.Braces
import Relex.Proofs.Kinds
import Relex.Proofs.Order
import Relex.Proofs.RestartPoint
import Relex.Proofs.Frontmatter
import Relex.Proofs.Flag
import Relex.Proofs.Turns
import Relex.Proofs.GroupSnapshot
import Relex.Proofs.Lookahead
import Relex.Proofs.Tree
import Relex.Proofs.Balance
import Relex.Proofs.EmptyTokens
import Relex.Proofs.Shift
import Relex.Proofs.Reuse
import Relex.Proofs.Fences
import Relex.Proofs.Arrival
import Relex.Proofs.LexemeText
import Relex.Proofs.TokenText
import Relex.Proofs.Wording
import Relex.Proofs.EntryPoint
import Relex.Proofs.Fragment
import Relex.Proofs.WrittenScript
import Relex.Proofs.Printing
import Relex.Proofs.Phases
import Relex.Proofs.Folds
import Relex.Proofs.Regrouping
import Relex.Proofs.Highlighting
import Relex.Proofs.LineEnds
import Relex.Proofs.LineEndRules
import Relex.Proofs.LineEndReading
import Relex.Proofs.LineEndStyle
import Relex.Proofs.OperatorRuns
import Relex.Proofs.Listing
import Relex.Proofs.JsonReading
import Relex.Proofs.Dumps
import Relex.Proofs.Slices
import Relex.Proofs.Bytes
import Relex.Proofs.SlicedScript
import Relex.Proofs.SlicedLookahead
import Relex.Proofs.SlicedMarkup
import Relex.Proofs.Pulling
import Relex.Proofs.Scanning
import Relex.Proofs.Delegation
import Relex.Proofs.BadRanges
import Relex.Proofs.Histories
import Relex.Proofs.RawText
import Relex.Proofs.Lingering
import Relex.Proofs.DepthLimit
import Relex.Proofs.CommentOpeners
import Relex.Proofs.DelimitedText
import Relex.Proofs.WholeComments
import Relex.Proofs.QuotedValues
import Relex.Proofs.TemplateLiterals
import Relex.Proofs.ElementNames
import Relex.Proofs.ShorterRegions
import Relex.Proofs.ReferencePattern
import Relex.Proofs.PlainScript
import Relex.Proofs.SharedNodes
import Relex.Proofs.SharedStacks
