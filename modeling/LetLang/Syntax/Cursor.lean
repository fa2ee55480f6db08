import LetLang.Syntax.Error
import LetLang.Syntax.Tree
import LetLang.Trace
import Std.Data.TreeMap

/-!
# The cursor of the parser

The cursor of the parser. A rule of the grammar is a program on a cursor into a fixed array of
tokens: it yields a value or a failure, and in both cases a cursor (`Rule`). Besides the index of
the next token, a cursor carries what was already found out about the expressions that start at an
index (`Cursor.memo`) and a trace.

This module has the moves that rules are made of: looking at the next token, moving past it,
demanding a token of a kind, moving back after a failure (`speculate`), and remembering the outcome
of a rule by the index where it started (`remembered`).
-/

set_option autoImplicit false

namespace LetLang

/-- What is known about the expression that starts at an index. -/
inductive Remembered
  /-- It is a tree that ends before the given index. -/
  | parsed (tree : Tree) (stop : Nat)
  /-- There is none, for the given reason. -/
  | failed (error : SyntaxError)

/-- The state of a parse: the index of the next token, the expressions already looked for, and the
trace, its latest event first. -/
structure Cursor where
  index : Nat := 0
  memo : Std.TreeMap Nat Remembered := ∅
  trace : List Event := []

/-- Why a rule did not succeed. Only syntax errors can be recovered from. -/
inductive ParseFailure
  /-- The tokens do not fit the grammar. -/
  | syntaxError (error : SyntaxError)
  /-- A token of the kind of data types does not name one. -/
  | unknownDataType (lexeme : Lexeme)
  /-- A declaration was asked for at a token that is no keyword of declarations. -/
  | unknownKeyword (lexeme : Lexeme)
  /-- A declaration was asked for where there is no token at all. -/
  | noToken
  /-- The kind of the token before the cursor was asked for although the cursor is at the first. -/
  | noPrevious
  /-- A token of a kind of comparison does not stand for an operator. -/
  | noOperator (kind : TokenKind)
  /-- The token before the cursor was asked for although the cursor is beyond the last one. -/
  | outOfRange
  deriving DecidableEq

/-- A rule of the grammar, as a program on a cursor. -/
abbrev Rule (α : Type) : Type := EStateM ParseFailure Cursor α

/-! ### Looking -/

section

variable (tokens : Array Token)

namespace Cursor

/-- The next token. -/
def next? (cursor : Cursor) : Option Token := tokens[cursor.index]?

/-- The token before the next one. -/
def previous? (cursor : Cursor) : Option Token :=
  if cursor.index = 0 then none else tokens[cursor.index - 1]?

/-- Whether the next token is of a kind. -/
def nextIs (kind : TokenKind) (cursor : Cursor) : Bool :=
  (cursor.next? tokens).any (·.kind == kind)

/-- Whether the next token is a keyword. -/
def nextIsKeyword (word : String) (cursor : Cursor) : Bool :=
  (cursor.next? tokens).any (·.isKeyword word)

/-- Whether the token after the next is of a kind. -/
def secondIs (kind : TokenKind) (cursor : Cursor) : Bool :=
  tokens[cursor.index + 1]?.any (·.kind == kind)

/-- Whether the token after the next is a keyword. -/
def secondIsKeyword (word : String) (cursor : Cursor) : Bool :=
  tokens[cursor.index + 1]?.any (·.isKeyword word)

/-- Whether the input ends at the cursor: no token is left, or an `endOfStream` token is next. -/
def atEnd (cursor : Cursor) : Bool := (cursor.next? tokens).all (·.kind == .endOfStream)

end Cursor

/-! ### Moving -/

namespace Rule

/-- Moves past the next token. -/
def skip : Rule Unit := modify fun cursor => { cursor with index := cursor.index + 1 }

/-- Moves past the next token unless the input ends here, and yields the token before the cursor. -/
def advance : Rule (Option Token) := do
  if !(← get).atEnd tokens then skip
  let cursor ← get
  if tokens.size < cursor.index then throw .outOfRange
  return cursor.previous? tokens

/-- Fails because something else than the next token was expected. -/
def fail {α : Type} (what : Expected) : Rule α := do
  let cursor ← get
  throw (.syntaxError ⟨.expected what, cursor.index, cursor.next? tokens⟩)

/-- Moves past the next token if it is of a kind, and says whether it was. -/
def accept (kind : TokenKind) : Rule Bool := do
  if (← get).nextIs tokens kind then
    skip
    return true
  else return false

/-- Moves past the next token, which has to be of a kind, and yields its lexeme. -/
def expect (kind : TokenKind) : Rule Lexeme := do
  match (← get).next? tokens with
  | some token =>
    if token.kind == kind then
      skip
      return token.lexeme
    else fail tokens (.token kind)
  | none => fail tokens (.token kind)

/-- Moves past the next token, which has to be a keyword. -/
def expectKeyword (word : String) : Rule Unit := do
  if (← get).nextIsKeyword tokens word then skip else fail tokens (.keyword word)

end Rule

end

/-! ### Moving back and remembering -/

namespace Rule

/-- Tries a rule. A syntax error of the rule is yielded as a value, with the cursor back where the
rule started; every other failure stands. -/
def speculate {α : Type} (rule : Rule α) : Rule (Except SyntaxError α) := fun cursor =>
  match rule cursor with
  | .ok value after => .ok (.ok value) after
  | .error (.syntaxError error) after =>
    let event := Event.rewound after.index cursor.index error.diagnostic.message
    .ok (.error error) { after with index := cursor.index, trace := event :: after.trace }
  | .error failure after => .error failure after

/-- Runs a rule unless its outcome at this index is known already, and remembers the outcome if it
is a tree or a syntax error. A remembered tree moves the cursor to its end; a remembered error
leaves it where it is. -/
def remembered (rule : Rule Tree) : Rule Tree := fun cursor =>
  match cursor.memo[cursor.index]? with
  | some (.parsed tree stop) => .ok tree { cursor with index := stop }
  | some (.failed error) => .error (.syntaxError error) cursor
  | none =>
    match rule cursor with
    | .ok tree after =>
      .ok tree { after with memo := after.memo.insert cursor.index (.parsed tree after.index) }
    | .error (.syntaxError error) after =>
      .error (.syntaxError error)
        { after with memo := after.memo.insert cursor.index (.failed error) }
    | .error failure after => .error failure after

/-- Adds an event to the trace. -/
def record (event : Event) : Rule Unit :=
  modify fun cursor => { cursor with trace := event :: cursor.trace }

end Rule

end LetLang
