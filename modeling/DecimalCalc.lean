import DecimalCalc.Binary64.Basic
import DecimalCalc.Binary64.Text
import DecimalCalc.CommandLine.Console
import DecimalCalc.CommandLine.Options
import DecimalCalc.CommandLine.Program
import DecimalCalc.Decimal.Basic
import DecimalCalc.Decimal.Conversion
import DecimalCalc.Decimal.Division
import DecimalCalc.Decimal.Literal
import DecimalCalc.Decimal.Power
import DecimalCalc.Decimal.Text
import DecimalCalc.Error
import DecimalCalc.Expression.Evaluation
import DecimalCalc.Expression.Lexer
import DecimalCalc.Expression.Parser
import DecimalCalc.Expression.Tree
import DecimalCalc.Expression.Unchecked
import DecimalCalc.Log.Event
import DecimalCalc.Log.Moment
import DecimalCalc.Log.Record
import DecimalCalc.Main
import DecimalCalc.Numeral.Digits
import DecimalCalc.Numeral.Integer
import DecimalCalc.Proofs.Binary64.NearestNumber
import DecimalCalc.Proofs.Binary64.NearestQuotient
import DecimalCalc.Proofs.CommandLine.ConsoleRuns
import DecimalCalc.Proofs.Decimal.ArithmeticFailures
import DecimalCalc.Proofs.Decimal.BitLength
import DecimalCalc.Proofs.Decimal.CanonicalText
import DecimalCalc.Proofs.Decimal.DistinctNumbers
import DecimalCalc.Proofs.Decimal.ExponentForms
import DecimalCalc.Proofs.Decimal.ExponentSearch
import DecimalCalc.Proofs.Decimal.FloatRoundTrip
import DecimalCalc.Proofs.Decimal.FractionExpansion
import DecimalCalc.Proofs.Decimal.IntegerPart
import DecimalCalc.Proofs.Decimal.IntegralPower
import DecimalCalc.Proofs.Decimal.NearestFloat
import DecimalCalc.Proofs.Decimal.NormalForm
import DecimalCalc.Proofs.Decimal.NumericOrder
import DecimalCalc.Proofs.Decimal.PlaceRounding
import DecimalCalc.Proofs.Decimal.PlainText
import DecimalCalc.Proofs.Decimal.PowerAccuracy
import DecimalCalc.Proofs.Decimal.PowerDomain
import DecimalCalc.Proofs.Decimal.PowerEnds
import DecimalCalc.Proofs.Decimal.PowerFailures
import DecimalCalc.Proofs.Decimal.PowerFaults
import DecimalCalc.Proofs.Decimal.PowerRoots
import DecimalCalc.Proofs.Decimal.PowerSize
import DecimalCalc.Proofs.Decimal.PowerSteps
import DecimalCalc.Proofs.Decimal.QuotientRounding
import DecimalCalc.Proofs.Decimal.RadixLiteral
import DecimalCalc.Proofs.Decimal.RadixText
import DecimalCalc.Proofs.Decimal.RationalValue
import DecimalCalc.Proofs.Decimal.RootBounds
import DecimalCalc.Proofs.Decimal.RootConvergence
import DecimalCalc.Proofs.Decimal.Truncation
import DecimalCalc.Proofs.Expression.BracketPartners
import DecimalCalc.Proofs.Expression.CanonicalTree
import DecimalCalc.Proofs.Expression.Comparisons
import DecimalCalc.Proofs.Expression.ExactValue
import DecimalCalc.Proofs.Expression.Faults
import DecimalCalc.Proofs.Expression.Grammar
import DecimalCalc.Proofs.Expression.Lexing
import DecimalCalc.Proofs.Expression.LiteralReading
import DecimalCalc.Proofs.Expression.Lookahead
import DecimalCalc.Proofs.Expression.NegativePower
import DecimalCalc.Proofs.Expression.NumberTokens
import DecimalCalc.Proofs.Expression.Operations
import DecimalCalc.Proofs.Expression.Reading
import DecimalCalc.Proofs.Expression.Recursion
import DecimalCalc.Proofs.Expression.Rendering
import DecimalCalc.Proofs.Expression.ResultReading
import DecimalCalc.Proofs.Expression.SourceErrors
import DecimalCalc.Proofs.Expression.StackDiscipline
import DecimalCalc.Proofs.Expression.TokenLayout
import DecimalCalc.Proofs.Expression.UncheckedReading
import DecimalCalc.Proofs.Expression.ViablePrefix
import DecimalCalc.Proofs.Numeral.BoundedReading
import DecimalCalc.Proofs.Numeral.Digits
import DecimalCalc.Proofs.Numeral.LeadingDigit
import DecimalCalc.Proofs.Numeral.RadixNumeral
import DecimalCalc.Proofs.Numeral.RadixReading
import DecimalCalc.Proofs.Outcome
import DecimalCalc.Proofs.Precision
import DecimalCalc.Proofs.Report.Calculations
import DecimalCalc.Proofs.Session.GivenPrecision
import DecimalCalc.Proofs.Session.InternalErrors
import DecimalCalc.Proofs.Session.Runs
import DecimalCalc.Report.Basic
import DecimalCalc.Report.Calculation
import DecimalCalc.Session.Basic
import DecimalCalc.Settings
import DecimalCalc.Text.Character
import DecimalCalc.Text.Quoted
import DecimalCalc.Traced
import DecimalCalc.Value.Basic
import DecimalCalc.Value.Comparison
