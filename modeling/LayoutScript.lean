import LayoutScript.Builtin
import LayoutScript.Command.Arguments
import LayoutScript.Command.Run
import LayoutScript.Diagnostic.Basic
import LayoutScript.Diagnostic.Cause
import LayoutScript.Limits
import LayoutScript.Machine.Basic
import LayoutScript.Machine.Binding
import LayoutScript.Machine.Evaluator
import LayoutScript.Main
import LayoutScript.Number.Binary64
import LayoutScript.Number.Numeral
import LayoutScript.Number.Power
import LayoutScript.Number.Shortest
import LayoutScript.Proofs.Machine.Composition
import LayoutScript.Proofs.Machine.Correspondence
import LayoutScript.Proofs.Tree.Nodes
import LayoutScript.Session
import LayoutScript.Settings.Basic
import LayoutScript.Settings.Document
import LayoutScript.Settings.Load
import LayoutScript.Settings.Node
import LayoutScript.Settings.Path
import LayoutScript.Settings.Quotation
import LayoutScript.Settings.Scalar
import LayoutScript.Source.Span
import LayoutScript.Store
import LayoutScript.Text.Letter
import LayoutScript.Text.Lines
import LayoutScript.Text.Numeric
import LayoutScript.Text.Printable
import LayoutScript.Text.Quoted
import LayoutScript.Text.Ranges
import LayoutScript.Token.Basic
import LayoutScript.Token.Cursor
import LayoutScript.Token.Lexer
import LayoutScript.Token.Scan
import LayoutScript.Tree.Basic
import LayoutScript.Tree.Feed
import LayoutScript.Tree.Operator
import LayoutScript.Tree.Outline
import LayoutScript.Tree.Parser
import LayoutScript.Tree.Visitor
import LayoutScript.Value.Basic
import LayoutScript.Value.Display
import LayoutScript.Value.Kind
import LayoutScript.Value.Operators
import LayoutScript.Value.Order
import LayoutScript.Proofs.Machine.Fuel
import LayoutScript.Proofs.Value.Operators
import LayoutScript.Proofs.Machine.Budget
import LayoutScript.Proofs.Limits
import LayoutScript.Proofs.Machine.Interruption
import LayoutScript.Proofs.Tree.Derivation
import LayoutScript.Proofs.Tree.Soundness
import LayoutScript.Proofs.Token.Margin
import LayoutScript.Proofs.Tree.Bodies
import LayoutScript.Proofs.Machine.Names
import LayoutScript.Proofs.Machine.Resolution
import LayoutScript.Proofs.Machine.Destructuring
import LayoutScript.Proofs.Machine.Scoping
import LayoutScript.Proofs.Tree.Spelling
import LayoutScript.Proofs.Tree.Reading
import LayoutScript.Proofs.Tree.ExpressionRoundTrip
import LayoutScript.Proofs.Tree.Layout
import LayoutScript.Proofs.Tree.LayoutRoundTrip
import LayoutScript.Proofs.Tree.Yield
import LayoutScript.Proofs.Value.Faults
import LayoutScript.Proofs.Machine.Blame
import LayoutScript.Proofs.Number.Numeral
import LayoutScript.Proofs.Token.Delivery
import LayoutScript.Proofs.Value.ReadBack
import LayoutScript.Proofs.Token.Trailing
import LayoutScript.Proofs.Token.Lockstep
import LayoutScript.Proofs.Tree.Parallel
import LayoutScript.Proofs.Tree.Agreement
import LayoutScript.Proofs.Tree.Continuation
import LayoutScript.Proofs.Token.Endings
import LayoutScript.Proofs.Token.Junction
import LayoutScript.Proofs.Tree.Concatenation
import LayoutScript.Proofs.Number.Range
import LayoutScript.Proofs.Token.Origin
import LayoutScript.Proofs.Value.Finite
import LayoutScript.Proofs.Machine.Moments
import LayoutScript.Proofs.Tree.Origin
import LayoutScript.Proofs.Machine.Finite
import LayoutScript.Proofs.Tree.Lookahead
import LayoutScript.Proofs.Tree.OnDemand
import LayoutScript.Proofs.Text.Lines
import LayoutScript.Proofs.Tree.Quotation
import LayoutScript.Proofs.Session.Quotation
import LayoutScript.Proofs.Token.Extent
import LayoutScript.Proofs.Tree.Nesting
import LayoutScript.Proofs.Token.Indentation
import LayoutScript.Proofs.Token.Completion
import LayoutScript.Proofs.Token.SameLine
import LayoutScript.Proofs.Token.EmptyLines
import LayoutScript.Proofs.Tree.Settling
import LayoutScript.Proofs.Tree.Brackets
import LayoutScript.Proofs.Tree.TargetReaders
import LayoutScript.Proofs.Tree.Declarations
import LayoutScript.Proofs.Tree.Buffer
import LayoutScript.Proofs.Tree.Refinement
import LayoutScript.Proofs.Tree.CallDepth
import LayoutScript.Proofs.Number.Canonical
import LayoutScript.Proofs.Value.Comparison
import LayoutScript.Proofs.Value.Sizes
import LayoutScript.Proofs.Number.Rounding
import LayoutScript.Proofs.Number.Decimal
import LayoutScript.Proofs.Text.Quoted
import LayoutScript.Proofs.Number.FloatText
import LayoutScript.Proofs.Tree.Rendering
import LayoutScript.Proofs.Tree.OutlineText
import LayoutScript.Proofs.Machine.Outward
import LayoutScript.Proofs.Machine.Slots
import LayoutScript.Proofs.Machine.Growth
import LayoutScript.Proofs.Machine.Evolution
import LayoutScript.Proofs.Machine.Ledger
import LayoutScript.Proofs.Machine.Timeline
import LayoutScript.Proofs.Machine.History
