import LetLang.Command.Arguments
import LetLang.Command.Path
import LetLang.Command.Run
import LetLang.Diagnostic
import LetLang.Machine.Emit
import LetLang.Machine.Error
import LetLang.Machine.Instr
import LetLang.Machine.Names
import LetLang.Main
import LetLang.Number.Binary64
import LetLang.Number.Int64
import LetLang.Number.Number
import LetLang.Number.Reading
import LetLang.Number.Shortest
import LetLang.Proofs.Command.Agreement
import LetLang.Proofs.Grammar.Backtracking
import LetLang.Proofs.Grammar.Coherence
import LetLang.Proofs.Grammar.Completeness
import LetLang.Proofs.Grammar.Counting
import LetLang.Proofs.Grammar.Derivation
import LetLang.Proofs.Grammar.Discipline
import LetLang.Proofs.Grammar.Ending
import LetLang.Proofs.Grammar.Following
import LetLang.Proofs.Grammar.Formation
import LetLang.Proofs.Grammar.Limit
import LetLang.Proofs.Grammar.Locality
import LetLang.Proofs.Grammar.Lookahead
import LetLang.Proofs.Grammar.Nesting
import LetLang.Proofs.Grammar.Phrases
import LetLang.Proofs.Grammar.Placement
import LetLang.Proofs.Grammar.Prediction
import LetLang.Proofs.Grammar.Progress
import LetLang.Proofs.Grammar.Remembering
import LetLang.Proofs.Grammar.Soundness
import LetLang.Proofs.Grammar.Viability
import LetLang.Proofs.Machine.Acceptance
import LetLang.Proofs.Machine.Compilation
import LetLang.Proofs.Machine.Execution
import LetLang.Proofs.Machine.Legibility
import LetLang.Proofs.Machine.Names
import LetLang.Proofs.Machine.Simulation
import LetLang.Proofs.Machine.Typing
import LetLang.Proofs.Meaning.Expectation
import LetLang.Proofs.Meaning.Failures
import LetLang.Proofs.Meaning.Forms
import LetLang.Proofs.Meaning.Interpreter
import LetLang.Proofs.Meaning.Literals
import LetLang.Proofs.Meaning.NormalForm
import LetLang.Proofs.Meaning.Parentheses
import LetLang.Proofs.Meaning.Reduction
import LetLang.Proofs.Meaning.Repetition
import LetLang.Proofs.Meaning.Strictness
import LetLang.Proofs.Meaning.Words
import LetLang.Proofs.Run
import LetLang.Proofs.Scope.Consistency
import LetLang.Proofs.Scope.Context
import LetLang.Proofs.Scope.Declarations
import LetLang.Proofs.Source.Joining
import LetLang.Proofs.Source.Layout
import LetLang.Proofs.Source.Lines
import LetLang.Proofs.Source.Pieces
import LetLang.Proofs.Source.Places
import LetLang.Proofs.Source.Tokens
import LetLang.Proofs.Source.TypeText
import LetLang.Proofs.Syntax.Distinction
import LetLang.Proofs.Syntax.NodeLines
import LetLang.Proofs.Syntax.Outline
import LetLang.Proofs.Text.Classes
import LetLang.Proofs.Text.Printing
import LetLang.Reduction.Error
import LetLang.Reduction.Fold
import LetLang.Reduction.Literal
import LetLang.Reduction.Reduce
import LetLang.Scope.Table
import LetLang.Source.Lexing
import LetLang.Source.Piece
import LetLang.Source.Reading
import LetLang.Syntax.Cursor
import LetLang.Syntax.Error
import LetLang.Syntax.Field
import LetLang.Syntax.Grammar
import LetLang.Syntax.Printer
import LetLang.Syntax.Session
import LetLang.Syntax.Tree
import LetLang.Syntax.Vocabulary
import LetLang.Text.Blank
import LetLang.Text.Colour
import LetLang.Text.Letter
import LetLang.Text.Likeness
import LetLang.Text.Numeral
import LetLang.Text.Padding
import LetLang.Text.Printable
import LetLang.Text.Quoted
import LetLang.Text.Ranges
import LetLang.Text.Uppercase
import LetLang.Token
import LetLang.Trace
