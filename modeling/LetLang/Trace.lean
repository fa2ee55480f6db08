/-!
# The trace of a run

The trace of a run: what each stage did, in order. Stages add events; a run that was asked to be
verbose shows them as lines that name the part of the program they come from.
-/

set_option autoImplicit false

namespace LetLang

/-- One thing that a stage did. Values are kept as the text in which they are shown. -/
inductive Event
  /-- A source was lexed into a number of tokens, with a number of errors. -/
  | lexed (file : String) (tokens errors : Nat)
  /-- The cursor was moved back from one token to an earlier one because of a syntax error. -/
  | rewound (source target : Nat) (message : String)
  /-- A program of a number of statements was parsed. -/
  | parsed (statements : Nat)
  /-- A scope was entered; the scopes are numbered from one. -/
  | entered (depth : Nat)
  /-- A scope is about to be left. -/
  | leaving (depth : Nat)
  /-- A name was declared in a scope. -/
  | declared (name binding : String) (depth : Nat)
  /-- An operation on two constants was carried out. -/
  | folded (operation left right result : String)
  /-- A function with a number of variables was emitted. -/
  | emitted (count : Nat)
  /-- A file was written. -/
  | wrote (file : String)
  deriving DecidableEq

namespace Event

/-- The part of the program that an event comes from. -/
def origin : Event → String
  | lexed .. => "functor.lexer.lexer"
  | rewound .. => "functor.parser.parser"
  | parsed .. => "functor.parser.parser"
  | entered .. => "functor.analyzer.symbol_table"
  | leaving .. => "functor.analyzer.symbol_table"
  | declared .. => "functor.analyzer.symbol_table"
  | folded .. => "functor.analyzer.reducer"
  | emitted .. => "functor.backend.llvm_backend"
  | wrote .. => "functor.cli"

/-- What an event says. -/
def message : Event → String
  | lexed file tokens errors =>
    "lexed " ++ file ++ ": " ++ toString tokens ++ " tokens, " ++ toString errors ++ " errors"
  | rewound source target message =>
    "rewinding from token " ++ toString source ++ " to " ++ toString target ++ ": " ++ message
  | parsed statements => "parsed program with " ++ toString statements ++ " statements"
  | entered depth => "entered scope " ++ toString depth
  | leaving depth => "leaving scope " ++ toString depth
  | declared name binding depth =>
    "declared " ++ name ++ " (" ++ binding ++ ") in scope " ++ toString depth
  | folded operation left right result =>
    "folded " ++ operation ++ " of " ++ left ++ " and " ++ right ++ " to " ++ result
  | emitted count => "emitted @main with " ++ toString count ++ " variables"
  | wrote file => "wrote " ++ file

/-- An event as a line of a verbose run. -/
def line (event : Event) : String := "DEBUG " ++ event.origin ++ ": " ++ event.message ++ "\n"

end Event

end LetLang
