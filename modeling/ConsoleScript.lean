import ConsoleScript.Main
import ConsoleScript.Proofs.Evaluation.Evolution
import ConsoleScript.Proofs.Evaluation.StoreTyping
import ConsoleScript.Proofs.Syntax.Derivation
import ConsoleScript.Proofs.Syntax.Stream
import ConsoleScript.Proofs.Syntax.Soundness
import ConsoleScript.Proofs.Token.Progress
import ConsoleScript.Proofs.Syntax.Acceptance
import ConsoleScript.Proofs.Syntax.Reading
import ConsoleScript.Proofs.Syntax.Completeness
import ConsoleScript.Proofs.Printing.Printer
import ConsoleScript.Proofs.Printing.Spelling
import ConsoleScript.Proofs.Printing.Lexing
import ConsoleScript.Proofs.Printing.Expressions
import ConsoleScript.Proofs.Printing.Statements
import ConsoleScript.Proofs.Printing.RoundTrip
import ConsoleScript.Proofs.Printing.Tower
import ConsoleScript.Proofs.Evaluation.Machine
import ConsoleScript.Proofs.Evaluation.CallDepth
import ConsoleScript.Proofs.Evaluation.Account
import ConsoleScript.Proofs.Evaluation.Isolation
import ConsoleScript.Proofs.Evaluation.Untouched
import ConsoleScript.Proofs.Token.Shifting
import ConsoleScript.Proofs.Token.Joining
import ConsoleScript.Proofs.Syntax.Splicing
import ConsoleScript.Proofs.Console.Concatenation
import ConsoleScript.Proofs.Source.Movement
import ConsoleScript.Proofs.Token.Lookahead
import ConsoleScript.Proofs.Token.Accounting
import ConsoleScript.Proofs.Evaluation.Failures
import ConsoleScript.Proofs.Evaluation.Regular
import ConsoleScript.Proofs.Console.Unreachable
import ConsoleScript.Proofs.Syntax.Simulation
import ConsoleScript.Proofs.Syntax.Buffering
import ConsoleScript.Proofs.Evaluation.Overloads
import ConsoleScript.Proofs.Evaluation.Strings
import ConsoleScript.Proofs.Evaluation.StringSizes
import ConsoleScript.Proofs.Console.Rejected
import ConsoleScript.Proofs.Evaluation.Operators
import ConsoleScript.Proofs.Evaluation.Arithmetic
import ConsoleScript.Proofs.Evaluation.ReturnTypes
import ConsoleScript.Proofs.Syntax.Following
import ConsoleScript.Proofs.Syntax.Nesting
import ConsoleScript.Proofs.Syntax.Rereading
import ConsoleScript.Proofs.Token.Selection
import ConsoleScript.Proofs.Token.Words
import ConsoleScript.Proofs.Decimal.Rounding
import ConsoleScript.Proofs.Decimal.Floats
import ConsoleScript.Proofs.Source.NumberLiterals
import ConsoleScript.Proofs.Source.StringLiterals
import ConsoleScript.Proofs.Console.Integers
import ConsoleScript.Proofs.Evaluation.Declarations
import ConsoleScript.Proofs.Source.Walks
