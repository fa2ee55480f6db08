import LetLang.Syntax.Grammar

/-!
# Parsing step by step

Parsing step by step. A session is a cursor into a token array that any rule of the grammar can be
run on, one after the other; what earlier steps remembered about expressions stays known to later
ones. A rule that fails leaves the cursor where it failed. The levels of nesting that a rule opens
are closed when it ends, however it ends, so every step starts with as many levels as the first.
-/

set_option autoImplicit false

namespace LetLang

/-- The rules that a session can run. -/
inductive RuleName
  | program
  | statement
  | declaration
  | assignment
  | type
  | parameter
  | parameterList
  | expression
  | additive
  | term
  | factor
  | arguments
  | block
  | conditional
  deriving DecidableEq

/-- The rule of a given name. -/
def RuleName.ofText? (text : String) : Option RuleName :=
  [("program", program), ("statement", statement), ("declaration", declaration),
   ("assignment", assignment), ("type", type), ("parameter", parameter),
   ("parameter_list", parameterList), ("expression", expression), ("additive", additive),
   ("term", term), ("factor", factor), ("arguments", arguments), ("block", block),
   ("if", conditional)].lookup text

/-- What a rule yields: a tree, or several for a list of parameters or arguments. -/
inductive Yield
  | tree (tree : Tree)
  | trees (trees : List Tree)

/-- The rule of a name, with the given number of levels still to open. -/
def RuleName.rule (tokens : Array Token) (levels : Nat) : RuleName → Rule Yield
  | program => do return .tree (← Rule.program tokens (Rule.level tokens levels))
  | statement => do return .tree (← Rule.statement tokens (Rule.level tokens levels))
  | declaration => do return .tree (← Rule.declaration tokens (Rule.level tokens levels))
  | assignment => do return .tree (← Rule.assignment tokens (Rule.level tokens levels))
  | type => do return .tree (← Rule.typeRule tokens levels)
  | parameter => do return .tree (← Rule.parameter tokens (Rule.typeRule tokens levels))
  | parameterList => do
    return .trees (← Rule.listed tokens (Rule.parameter tokens (Rule.typeRule tokens levels)))
  | expression => do return .tree (← Rule.expression tokens levels)
  | additive => do return .tree (← Rule.additive tokens (Rule.level tokens levels))
  | term => do return .tree (← Rule.term tokens (Rule.level tokens levels))
  | factor => do return .tree (← Rule.factor tokens (Rule.level tokens levels))
  | arguments => do return .trees (← Rule.listed tokens (Rule.expression tokens levels))
  | block => do return .tree (← Rule.block tokens (Rule.level tokens levels))
  | conditional => do return .tree (← Rule.conditional tokens (Rule.level tokens levels))

/-- A token array, a cursor into it, and how many levels of nesting may still be opened. -/
structure Session where
  tokens : Array Token
  cursor : Cursor := {}
  levels : Nat := nestingLimit

/-- One step of a session. -/
inductive Step
  /-- Runs a rule. -/
  | run (name : RuleName)
  /-- Tries a rule, moving back if it meets a syntax error. -/
  | speculate (name : RuleName)
  /-- Sets the cursor to an index. -/
  | rewind (target : Nat)
  /-- Moves past one token. -/
  | advance
  /-- Reads the expression that ends a block, after a statement failed with a reported error. -/
  | trailing (message : String) (position : Int)

/-- What a step comes to. -/
inductive StepResult
  | yield (value : Yield)
  | failure (failure : ParseFailure)
  | token (token? : Option Token)
  | done

namespace Session

/-- The number of levels of nesting that are open. -/
def depth (session : Session) : Nat := nestingLimit - session.levels

/-- Runs a rule and turns its outcome into the result of a step. -/
def finish {α : Type} (session : Session) (rule : Rule α) (result : α → StepResult) :
    StepResult × Session :=
  match rule session.cursor with
  | .ok value cursor => (result value, { session with cursor := cursor })
  | .error failure cursor => (.failure failure, { session with cursor := cursor })

/-- The result of an attempt at a rule. -/
def attempted : Except SyntaxError Yield → StepResult
  | .ok value => .yield value
  | .error error => .failure (.syntaxError error)

/-- Carries out one step. -/
def step (session : Session) : Step → StepResult × Session
  | .run name => session.finish (name.rule session.tokens session.levels) .yield
  | .speculate name =>
    session.finish (Rule.speculate (name.rule session.tokens session.levels)) attempted
  | .rewind target =>
    (.done, { session with cursor := { session.cursor with index := target } })
  | .advance => session.finish (Rule.advance session.tokens) .token
  | .trailing message position =>
    session.finish
      (Rule.trailing session.tokens (Rule.level session.tokens session.levels)
        ⟨.reported message, position, none⟩)
      fun tree => .yield (.tree tree)

end Session

end LetLang
