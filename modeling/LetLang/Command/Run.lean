import LetLang.Command.Arguments
import LetLang.Machine.Emit
import LetLang.Reduction.Reduce
import LetLang.Source.Lexing
import LetLang.Source.Reading
import LetLang.Syntax.Grammar
import LetLang.Syntax.Printer
import LetLang.Text.Blank
import LetLang.Text.Colour

/-!
# Running a command

Running a command. A command takes a file through the stages it needs: `tokens` lexes it, `parse`
also parses it, `check` also reduces it, and `emit` also compiles it. What it then prints or writes,
its diagnostics and its exit code make up a `Report`; nothing is printed or written when a stage
fails.
-/

set_option autoImplicit false

namespace LetLang

/-- A failure that no diagnostic covers. -/
inductive Uncaught
  /-- The source is not UTF-8. -/
  | undecodable
  /-- The parser stopped for another reason than a syntax error. -/
  | parsing (failure : ParseFailure)
  /-- The reduction stopped for another reason than a semantic error. -/
  | reduction (failure : ReductionFailure)
  /-- The compilation stopped for another reason than an emission error. -/
  | emission (failure : EmissionFailure)
  /-- The compiled code refers to a variable that has no name. -/
  | unnamed
  /-- The output cannot be written. -/
  | unwritable (fault : WriteFault) (path : String)

/-- What a command leaves behind. -/
structure Report where
  exit : Nat := 0
  output : String := ""
  errors : String := ""
  written : List (String × String) := []
  uncaught? : Option Uncaught := none

/-! ### Results of the stages -/

/-- Why a stage did not let a program pass. -/
inductive StageFailure
  | diagnosed (reports : List Diagnostic)
  | uncaught (failure : Uncaught)

/-- The stages of a run: a value or a failure, and in both cases the events so far. -/
abbrev Stages (α : Type) : Type := EStateM StageFailure (List Event) α

namespace Stages

/-- Adds events in the order in which they happened. -/
def record (events : List Event) : Stages Unit := modify (· ++ events)

/-- Lexes a source, reporting all errors at once. -/
def lexed (invocation : Invocation) : Stages (List Token) := do
  match decodeSource? invocation.content with
  | none => throw (.uncaught .undecodable)
  | some source =>
    let lexed := lex source invocation.source
    record [lexed.event invocation.source]
    if lexed.errors.isEmpty then return lexed.tokens
    else throw (.diagnosed (lexed.errors.map LexError.diagnostic))

/-- Parses a source. -/
def parsed (invocation : Invocation) : Stages Tree := do
  let tokens ← lexed invocation
  match parseFrom tokens.toArray {} with
  | .ok tree cursor =>
    record cursor.trace.reverse
    return tree
  | .error (.syntaxError error) cursor =>
    record cursor.trace.reverse
    throw (.diagnosed [error.diagnostic])
  | .error failure cursor =>
    record cursor.trace.reverse
    throw (.uncaught (.parsing failure))

/-- Reduces a source, and gives the table of names too. -/
def reduced (invocation : Invocation) : Stages (Tree × Table) := do
  let tree ← parsed invocation
  let outcome := validate (!invocation.lenient) tree
  record outcome.trace.reverse
  match outcome.result with
  | .ok tree => return (tree, outcome.reducer.table)
  | .error (.semantic error) => throw (.diagnosed [error.diagnostic])
  | .error failure => throw (.uncaught (.reduction failure))

/-- Compiles a source to the text of a module named after its file. -/
def emitted (invocation : Invocation) : Stages String := do
  let (tree, _) ← reduced invocation
  let outcome := emit tree
  match outcome.result with
  | .ok code =>
    record [outcome.state.event]
    match moduleText? (Path.stem invocation.source) code with
    | some text => return text
    | none => throw (.uncaught .unnamed)
  | .error (.emission error) => throw (.diagnosed [error.diagnostic])
  | .error failure => throw (.uncaught (.emission failure))

end Stages

/-! ### Printing -/

/-- A token as a line of a listing. -/
def Token.line (token : Token) : String :=
  Text.trimRight (Text.padRight ' ' 16 token.kind.name ++ " " ++ token.lexeme.getD "")

/-- What a command prints and writes, and what it says at the end, when all stages let the program
pass. -/
structure Product where
  output : String := ""
  remark : String := ""
  written : List (String × String) := []

/-- The listing of tokens. -/
def tokenListing (tokens : List Token) : String :=
  String.join (tokens.map fun token => token.line ++ "\n")

/-- The printed tree, and the table of names after an empty line unless it is empty. -/
def checkListing (tree : Tree) (table : Table) : String :=
  tree.text 0 ++ "\n" ++ (if table.text.isEmpty then "" else "\n" ++ table.text ++ "\n")

/-- Carries out a command. -/
def carryOut (invocation : Invocation) : Stages Product := do
  match invocation.command with
  | .tokens => return { output := tokenListing (← Stages.lexed invocation) }
  | .parse => return { output := (← Stages.parsed invocation).text 0 ++ "\n" }
  | .check =>
    let (tree, table) ← Stages.reduced invocation
    return { output := checkListing tree table, remark := Text.coloured .green "ok" ++ "\n" }
  | .emit =>
    let text ← Stages.emitted invocation
    match invocation.output? with
    | none => return { output := text ++ "\n" }
    | some ⟨path, some fault⟩ => throw (.uncaught (.unwritable fault path))
    | some ⟨path, none⟩ =>
      Stages.record [.wrote path]
      return { written := [(path, text)] }

/-- The lines of a trace, if they are wanted. -/
def traceLines (verbose : Bool) (events : List Event) : String :=
  if verbose then String.join (events.map Event.line) else ""

/-- A diagnostic as it is shown to the user, in colour. -/
def shownDiagnostic (report : Diagnostic) : String :=
  Text.coloured .red (Text.trimRight report.text) ++ "\n"

/-- Runs a command on its file. -/
def runInvocation (colours : Bool) (invocation : Invocation) : Report :=
  match carryOut invocation [] with
  | .ok product events =>
    { output := Text.inColours colours product.output, written := product.written
      errors := traceLines invocation.verbose events ++ Text.inColours colours product.remark }
  | .error (.diagnosed reports) events =>
    { exit := 1
      errors := traceLines invocation.verbose events
        ++ Text.inColours colours (String.join (reports.map shownDiagnostic)) }
  | .error (.uncaught failure) events =>
    { exit := 1, errors := traceLines invocation.verbose events, uncaught? := some failure }

/-! ### The command line as a whole -/

/-- The version of the program. -/
def versionText : String := "functor, version 0.1.0-alpha\n"

/-- How the program, or one command of it, is called from the command line. -/
def invocationName : Option CommandName → String
  | none => "functor"
  | some command => "functor " ++ command.text

/-- The line that shows how to call the program or one command of it. -/
def usageLine (command? : Option CommandName) : String :=
  "Usage: " ++ invocationName command? ++
    (match command? with
    | none => " [OPTIONS] COMMAND [ARGS]...\n"
    | some _ => " [OPTIONS] SOURCE\n")

/-- How to call the program or one command of it, and how to learn more. -/
def usageText (command? : Option CommandName) : String :=
  usageLine command? ++ "Try '" ++ invocationName command? ++ " --help' for help.\n\n"

/-- What is shown for a faulty command line. -/
def faultText (command? : Option CommandName) (fault : UsageFault) : String :=
  (if fault.showsUsage then usageText command? else "") ++ "Error: " ++ fault.message ++ "\n"

/-- Runs a command line, given what the paths on it name. -/
def runCommandLine (look : String → Entry) (colours : Bool) (arguments : List String) : Report :=
  match readArguments look arguments with
  | .run invocation => runInvocation colours invocation
  | .version => { output := versionText }
  | .help command? => { output := usageLine command? }
  | .faulty command? fault =>
    { exit := 2, errors := Text.inColours colours (faultText command? fault) }

end LetLang
