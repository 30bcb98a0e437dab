import SExprLang.Batch
import SExprLang.Compilation
import SExprLang.Decimal
import SExprLang.Decimal.Layout
import SExprLang.Decimal.Numeral
import SExprLang.Decimal.Shortest
import SExprLang.Demo.Factorial
import SExprLang.Demo.Features
import SExprLang.Demo.Index
import SExprLang.Demo.Page
import SExprLang.Diagnostic
import SExprLang.Double
import SExprLang.Environment
import SExprLang.Environment.Lemmas
import SExprLang.Evaluation
import SExprLang.Evaluation.Argument
import SExprLang.Evaluation.Evaluate
import SExprLang.Evaluation.Feature
import SExprLang.Evaluation.Lemmas
import SExprLang.Evaluation.Query
import SExprLang.Evaluation.Reflective
import SExprLang.Evaluation.Run
import SExprLang.Evaluation.Standard
import SExprLang.Event
import SExprLang.Expression
import SExprLang.Expression.OfTokens
import SExprLang.Host.Literal
import SExprLang.Host.Session
import SExprLang.Main
import SExprLang.Operation
import SExprLang.Position
import SExprLang.Record
import SExprLang.Text.Blank
import SExprLang.Text.DefaultIgnorable
import SExprLang.Text.ExtendingMark
import SExprLang.Text.Quoted
import SExprLang.Text.Ranges
import SExprLang.Text.Unprintable
import SExprLang.Token
import SExprLang.Token.Scan
import SExprLang.Value
import SExprLang.Vocabulary
import SExprLang.Proofs.Lexical.Grammar
import SExprLang.Proofs.Lexical.Reading
import SExprLang.Proofs.Lexical.Fault
import SExprLang.Proofs.Lexical.Exact
import SExprLang.Proofs.Syntax.Grammar
import SExprLang.Proofs.Syntax.Parsing
import SExprLang.Proofs.RoundTrip
import SExprLang.Proofs.Evaluation.InStep
import SExprLang.Proofs.Evaluation.Likeness
import SExprLang.Proofs.Evaluation.Agreement
import SExprLang.Vocabulary.Lemmas
import SExprLang.Proofs.Evaluation.Positions
import SExprLang.Proofs.Batch
import SExprLang.Proofs.Batch.FirstFailure
import SExprLang.Proofs.Batch.FailFast
import SExprLang.Proofs.Evaluation.Culprit
import SExprLang.Proofs.Lexical.Displacement
import SExprLang.Proofs.Lexical.Growth
import SExprLang.Proofs.Lexical.Lines
import SExprLang.Proofs.Lexical.Refusal
import SExprLang.Proofs.Prospect
import SExprLang.Proofs.TextOrder
import SExprLang.Proofs.Evaluation.Lexicon
import SExprLang.Proofs.Evaluation.Unmentioned
import SExprLang.Proofs.Evaluation.Isolation
import SExprLang.Proofs.Environment.Collection
import SExprLang.Proofs.Evaluation.Depth
import SExprLang.Proofs.Evaluation.Guarantee
import SExprLang.Proofs.Evaluation.Termination
import SExprLang.Proofs.Evaluation.Reading
import SExprLang.Proofs.Evaluation.HeadChain
import SExprLang.Proofs.Evaluation.Effect
import SExprLang.Proofs.Evaluation.Features
import SExprLang.Proofs.Double.Rounding
import SExprLang.Proofs.Double.Arithmetic
import SExprLang.Proofs.Evaluation.Factorial
import SExprLang.Proofs.Decimal.Shortest
import SExprLang.Proofs.Decimal.Numeral
import SExprLang.Proofs.Decimal.ReadBack
import SExprLang.Proofs.Text.Quoted
import SExprLang.Proofs.Value.Equality
import SExprLang.Proofs.Comparison
import SExprLang.Proofs.Evaluation.QueryText
import SExprLang.Proofs.Lexical.Words
import SExprLang.Proofs.Lexical.Registers
