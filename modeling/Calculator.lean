import Calculator.Grammar
import Calculator.Session
import Calculator.Walk
import Calculator.Proofs.CompactText
import Calculator.Proofs.Conversion
import Calculator.Proofs.Parentheses
import Calculator.Proofs.Evaluation
import Calculator.Proofs.Conservation
import Calculator.Proofs.Derivation
import Calculator.Proofs.Acceptance
import Calculator.Proofs.DetailedErrors
import Calculator.Proofs.ListingValue
import Calculator.Proofs.Iteration
import Calculator.Proofs.ExactText
import Calculator.Proofs.Agreement
import Calculator.Proofs.Grouping
import Calculator.Proofs.Composition
import Calculator.Proofs.Congruence
import Calculator.Proofs.Workings
import Calculator.Proofs.Respacing
import Calculator.Proofs.DecimalReading
import Calculator.Proofs.FirstDefect
import Calculator.Proofs.LastWrites
import Calculator.Proofs.LengthLimit
import Calculator.Proofs.StageErrors
import Calculator.Proofs.FirstViolation
import Calculator.Proofs.Release
import Calculator.Proofs.ReleaseOrder
import Calculator.Proofs.Lexemes
import Calculator.Token.Cursor
import Calculator.Proofs.Calls
import Calculator.Proofs.CallJournal
import Calculator.Proofs.Filtering
import Calculator.Proofs.LiteralAgreement
import Calculator.Proofs.Remainder
import Calculator.Postorder.StackYard
import Calculator.Proofs.OperatorStack
import Calculator.Proofs.Ranks
import Calculator.Proofs.Midpoints
import Calculator.Proofs.Pattern
import Calculator.Proofs.LiteralRounding
