import LetLang.Machine.Instr
import LetLang.Proofs.Grammar.Placement
import Mathlib.Logic.Function.Basic

/-!
# The types of straight-line programs

Which programs are well typed. Expressions are built from numbers, names, parentheses, changes of
sign and operations on two values of one type (`HasType`); a statement may change the types of the
variables (`Admits`), and a program is checked statement by statement (`IsTyped`).

Beside these stand the rules for what is wrong with a program: which rule is the first that an
expression, a statement or a program breaks, in the order in which the nodes are visited, given by
the code under which it is reported (`Breaks`, `BreaksStatement`, `IsMistyped`). A program whose
nodes stand where they belong is well typed or breaks a rule (`isTyped_or_isMistyped`).
-/

set_option autoImplicit false

namespace LetLang

/-! ### Rules -/

/-- The types of the variables, by their names. -/
abbrev Types := Lexeme → Option ValueType

/-- The types of expressions. -/
inductive HasType (types : Types) : Tree → ValueType → Prop
  | integer (value : Int) : HasType types (.integer value) .int
  | float (value : Binary64) : HasType types (.float value) .float
  | identifier {name : Lexeme} {type : ValueType} (hname : types name = some type) :
    HasType types (.identifier name) type
  | parenthesized {expression : Tree} {type : ValueType} (hinner : HasType types expression type) :
    HasType types (.parenthesized expression) type
  | negation {factor : Tree} {type : ValueType} (hfactor : HasType types factor type) :
    HasType types (.negation factor) type
  | arith {op : ArithOp} {left right : Tree} {type : ValueType} (hleft : HasType types left type)
    (hright : HasType types right type) : HasType types (.arith op left right) type

/-- Whether there are slots for the values of a declared type. -/
def Tree.isStorable : Tree → Bool
  | .basicType name => name != .unit
  | _ => false

/-- Whether a declared type takes the values of a type: the type of all numbers takes both. -/
inductive Takes : Tree → ValueType → Prop
  | number (type : ValueType) : Takes (.basicType .number) type
  | int : Takes (.basicType .int) .int
  | float : Takes (.basicType .float) .float

/-- The statements that are well typed, and the types of the variables after them. -/
inductive Admits (types : Types) : Tree → Types → Prop
  | declaration {keyword : DeclKeyword} {name : Lexeme} {declared value : Tree} {type : ValueType}
    (hvalue : HasType types value type) (htakes : Takes declared type) :
    Admits types (.declaration keyword name declared value) (Function.update types name type)
  | assignment {name : Lexeme} {value : Tree} {type : ValueType} (hname : types name = some type)
    (hvalue : HasType types value type) : Admits types (.assignment name value) types
  | statement {expression : Tree} {type : ValueType} (hexpression : HasType types expression type) :
    Admits types (.statement expression) types

/-- The same of statements one after the other. -/
inductive AdmitsAll : Types → List Tree → Types → Prop
  | nil (types : Types) : AdmitsAll types [] types
  | cons {types middle after : Types} {statement : Tree} {rest : List Tree}
    (hfirst : Admits types statement middle) (hrest : AdmitsAll middle rest after) :
    AdmitsAll types (statement :: rest) after

/-- The programs that are well typed, and the types of their variables in the end. -/
inductive IsTyped : Tree → Types → Prop
  | program {statements : List Tree} {types : Types}
    (hstatements : AdmitsAll (fun _ ↦ none) statements types) : IsTyped (.program statements) types

/-! ### Broken rules -/

/-- Whether an expression is of a kind that is not compiled. -/
def Tree.isUncompiled : Tree → Bool
  | .block .. | .conditional .. | .branch .. | .comparison .. | .call .. | .literal _ => true
  | .basicType _ | .functionType .. | .parameter .. => true
  | _ => false

/-- The code of the first rule that an expression breaks: operands come before their operation, and
the left one before the right one. -/
inductive Breaks (types : Types) : Tree → String → Prop
  | uncompiled {tree : Tree} (htree : tree.isUncompiled = true) : Breaks types tree "C001"
  | unknown {name : Lexeme} (hname : types name = none) : Breaks types (.identifier name) "C004"
  | parenthesized {expression : Tree} {code : String} (hinner : Breaks types expression code) :
    Breaks types (.parenthesized expression) code
  | negation {factor : Tree} {code : String} (hfactor : Breaks types factor code) :
    Breaks types (.negation factor) code
  | left {op : ArithOp} {left right : Tree} {code : String} (hleft : Breaks types left code) :
    Breaks types (.arith op left right) code
  | right {op : ArithOp} {left right : Tree} {type : ValueType} {code : String}
    (hleft : HasType types left type) (hright : Breaks types right code) :
    Breaks types (.arith op left right) code
  | operands {op : ArithOp} {left right : Tree} {leftType rightType : ValueType}
    (hleft : HasType types left leftType) (hright : HasType types right rightType)
    (hne : leftType ≠ rightType) : Breaks types (.arith op left right) "C003"

/-- The code of the first rule that a statement breaks: the value of a declaration comes before its
type, and the name of an assignment before its value. -/
inductive BreaksStatement (types : Types) : Tree → String → Prop
  | declaredValue {keyword : DeclKeyword} {name : Lexeme} {declared value : Tree} {code : String}
    (hvalue : Breaks types value code) :
    BreaksStatement types (.declaration keyword name declared value) code
  | unstorable {keyword : DeclKeyword} {name : Lexeme} {declared value : Tree} {type : ValueType}
    (hvalue : HasType types value type) (hdeclared : declared.isStorable = false) :
    BreaksStatement types (.declaration keyword name declared value) "C002"
  | untaken {keyword : DeclKeyword} {name : Lexeme} {declared value : Tree} {type : ValueType}
    (hvalue : HasType types value type) (hdeclared : declared.isStorable = true)
    (htakes : ¬ Takes declared type) :
    BreaksStatement types (.declaration keyword name declared value) "C003"
  | unknown {name : Lexeme} {value : Tree} (hname : types name = none) :
    BreaksStatement types (.assignment name value) "C004"
  | assignedValue {name : Lexeme} {value : Tree} {type : ValueType} {code : String}
    (hname : types name = some type) (hvalue : Breaks types value code) :
    BreaksStatement types (.assignment name value) code
  | mismatched {name : Lexeme} {value : Tree} {type found : ValueType}
    (hname : types name = some type) (hvalue : HasType types value found) (hne : found ≠ type) :
    BreaksStatement types (.assignment name value) "C003"
  | statement {expression : Tree} {code : String} (hexpression : Breaks types expression code) :
    BreaksStatement types (.statement expression) code

/-- The code of the first rule that one of several statements breaks. -/
inductive BreaksOne : Types → List Tree → String → Prop
  | here {types : Types} {statement : Tree} {rest : List Tree} {code : String}
    (hfirst : BreaksStatement types statement code) : BreaksOne types (statement :: rest) code
  | later {types middle : Types} {statement : Tree} {rest : List Tree} {code : String}
    (hfirst : Admits types statement middle) (hrest : BreaksOne middle rest code) :
    BreaksOne types (statement :: rest) code

/-- The code of the first rule that a program breaks. -/
inductive IsMistyped : Tree → String → Prop
  | program {statements : List Tree} {code : String}
    (hstatements : BreaksOne (fun _ ↦ none) statements code) : IsMistyped (.program statements) code

/-! ### One or the other -/

/-- An expression has a type or breaks a rule. -/
theorem hasType_or_breaks (types : Types) :
    ∀ tree : Tree, tree.placedExpression = true →
      (∃ type, HasType types tree type) ∨ ∃ code, Breaks types tree code
  | .absent, hplaced | .program _, hplaced | .declaration .., hplaced | .assignment .., hplaced
  | .statement _, hplaced => by cases hplaced
  | .block .., _ | .conditional .., _ | .branch .., _ | .comparison .., _ | .call .., _
  | .literal _, _ | .basicType _, _ | .functionType .., _ | .parameter .., _ =>
    .inr ⟨_, .uncompiled rfl⟩
  | .integer value, _ => .inl ⟨_, .integer value⟩
  | .float value, _ => .inl ⟨_, .float value⟩
  | .identifier name, _ => by
    cases hname : types name with
    | none => exact .inr ⟨_, .unknown hname⟩
    | some type => exact .inl ⟨type, .identifier hname⟩
  | .parenthesized expression, hplaced => by
    obtain ⟨type, hinner⟩ | ⟨code, hinner⟩ := hasType_or_breaks types expression hplaced
    · exact .inl ⟨type, .parenthesized hinner⟩
    · exact .inr ⟨code, .parenthesized hinner⟩
  | .negation factor, hplaced => by
    obtain ⟨type, hfactor⟩ | ⟨code, hfactor⟩ := hasType_or_breaks types factor hplaced
    · exact .inl ⟨type, .negation hfactor⟩
    · exact .inr ⟨code, .negation hfactor⟩
  | .arith op left right, hplaced => by
    obtain ⟨hleftPlaced, hrightPlaced⟩ := Bool.and_eq_true_iff.mp hplaced
    obtain ⟨leftType, hleft⟩ | ⟨code, hleft⟩ := hasType_or_breaks types left hleftPlaced
    · obtain ⟨rightType, hright⟩ | ⟨code, hright⟩ := hasType_or_breaks types right hrightPlaced
      · by_cases htype : leftType = rightType
        · exact .inl ⟨rightType, .arith (htype ▸ hleft) hright⟩
        · exact .inr ⟨_, .operands hleft hright htype⟩
      · exact .inr ⟨code, .right hleft hright⟩
    · exact .inr ⟨code, .left hleft⟩

theorem admits_or_breaks (types : Types) {statement : Tree}
    (hplaced : statement.placedStatement = true) :
    (∃ after, Admits types statement after) ∨ ∃ code, BreaksStatement types statement code := by
  cases statement with
  | declaration keyword name declared value =>
    obtain ⟨type, hvalue⟩ | ⟨code, hvalue⟩ := hasType_or_breaks types value hplaced
    · cases hdeclared : declared.isStorable with
      | false => exact .inr ⟨_, .unstorable hvalue hdeclared⟩
      | true =>
        by_cases htakes : Takes declared type
        · exact .inl ⟨_, .declaration hvalue htakes⟩
        · exact .inr ⟨_, .untaken hvalue hdeclared htakes⟩
    · exact .inr ⟨code, .declaredValue hvalue⟩
  | assignment name value =>
    cases hname : types name with
    | none => exact .inr ⟨_, .unknown hname⟩
    | some type =>
      obtain ⟨found, hvalue⟩ | ⟨code, hvalue⟩ := hasType_or_breaks types value hplaced
      · by_cases htype : found = type
        · exact .inl ⟨types, .assignment hname (htype ▸ hvalue)⟩
        · exact .inr ⟨_, .mismatched hname hvalue htype⟩
      · exact .inr ⟨code, .assignedValue hname hvalue⟩
  | statement expression =>
    obtain ⟨type, hexpression⟩ | ⟨code, hexpression⟩ := hasType_or_breaks types expression hplaced
    · exact .inl ⟨types, .statement hexpression⟩
    · exact .inr ⟨code, .statement hexpression⟩
  | _ => cases hplaced

theorem admitsAll_or_breaks {statements : List Tree}
    (hplaced : Tree.placedStatements statements = true) (types : Types) :
    (∃ after, AdmitsAll types statements after) ∨ ∃ code, BreaksOne types statements code := by
  induction statements generalizing types with
  | nil => exact .inl ⟨types, .nil types⟩
  | cons statement rest ih =>
    obtain ⟨hfirstPlaced, hrestPlaced⟩ := Bool.and_eq_true_iff.mp hplaced
    obtain ⟨middle, hfirst⟩ | ⟨code, hfirst⟩ := admits_or_breaks types hfirstPlaced
    · obtain ⟨after, hrest⟩ | ⟨code, hrest⟩ := ih hrestPlaced middle
      · exact .inl ⟨after, .cons hfirst hrest⟩
      · exact .inr ⟨code, .later hfirst hrest⟩
    · exact .inr ⟨code, .here hfirst⟩

theorem isTyped_or_isMistyped {program : Tree} (hplaced : program.placedProgram = true) :
    (∃ types, IsTyped program types) ∨ ∃ code, IsMistyped program code := by
  cases program with
  | program statements =>
    obtain ⟨types, htyped⟩ | ⟨code, hbroken⟩ := admitsAll_or_breaks hplaced fun _ ↦ none
    · exact .inl ⟨types, .program htyped⟩
    · exact .inr ⟨code, .program hbroken⟩
  | _ => cases hplaced

end LetLang
