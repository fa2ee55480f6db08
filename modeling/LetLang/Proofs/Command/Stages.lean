import LetLang.Proofs.Command.Listings
import LetLang.Proofs.Machine.Legibility

/-!
# The stages of a command are the functions of the library

A command is carried out in stages that record events as they go, and that stop with diagnostics or
with a failure that no diagnostic covers. The library has a function for each stage, and they are put
together here without events or diagnostics (`Library.rendering`). A stage parallels such a function
if it returns what the function returns, and stops with the reports of its failure where the function
fails (`Parallels`); all stages do, one after the other (`parallels_rendered`). What a command does
besides is to deliver the text that it rendered (`carryOut_eq`).

No rendering holds an escape character, unless the name of a module does
(`Library.escapeless_rendering`).
-/

set_option autoImplicit false

namespace LetLang

open Text

/-! ### What the library makes of a source -/

namespace Library

/-- Why there is no result for a source. -/
inductive Failure
  /-- The source stands for no program. -/
  | source (failure : SourceFailure)
  /-- The program could not be reduced. -/
  | reduction (failure : ReductionFailure)
  /-- The reduced program could not be compiled. -/
  | emission (failure : EmissionFailure)
  /-- The compiled code has no text. -/
  | unnamed

/-- What is reported of a failure, if it is an error of the source: all lexical errors of the source
if it has any, and otherwise the one error that was found. -/
def Failure.reports? (source file : String) : Failure → Option (List Diagnostic)
  | .source (.lexical _) => some ((lex source file).errors.map LexError.diagnostic)
  | .source (.parsing (.syntaxError error)) => some [error.diagnostic]
  | .reduction (.semantic error) => some [error.diagnostic]
  | .emission (.emission error) => some [error.diagnostic]
  | _ => none

/-- The tokens of a source. -/
def tokens (source file : String) : Except Failure (List Token) :=
  (tokenize source file).mapError fun error => .source (.lexical error)

/-- The program of a source. -/
def program (source file : String) : Except Failure Tree :=
  (parseSource source file).mapError .source

/-- The reduced program of a source, and its table of names. -/
def reduced (strict : Bool) (source file : String) : Except Failure (Tree × Table) := do
  let tree ← program source file
  let found ← (validate strict tree).result.mapError .reduction
  return (found, (validate strict tree).reducer.table)

/-- The text of the module that a source is compiled to, named after its file. -/
def assembly (strict : Bool) (source file : String) : Except Failure String := do
  let (tree, _) ← reduced strict source file
  let code ← (emit tree).result.mapError .emission
  match moduleText? (Path.stem file) code with
  | some text => return text
  | none => throw .unnamed

/-- The text in which the result of a command is given. -/
def rendering (strict : Bool) (source file : String) : CommandName → Except Failure String
  | .tokens => return tokenListing (← tokens source file)
  | .parse => return (← program source file).text 0 ++ "\n"
  | .check => do
    let (tree, table) ← reduced strict source file
    return checkListing tree table
  | .emit => assembly strict source file

end Library

/-! ### The stages -/

/-- The text in which a command gives its result. -/
def Stages.rendered (invocation : Invocation) : Stages String := do
  match invocation.command with
  | .tokens => return tokenListing (← Stages.lexed invocation)
  | .parse => return (← Stages.parsed invocation).text 0 ++ "\n"
  | .check =>
    let (tree, table) ← Stages.reduced invocation
    return checkListing tree table
  | .emit => Stages.emitted invocation

/-- What a command does with this text. -/
def Stages.delivered (invocation : Invocation) (text : String) : Stages Product := do
  match invocation.command with
  | .tokens | .parse => return { output := text }
  | .check => return { output := text, remark := Text.coloured .green "ok" ++ "\n" }
  | .emit =>
    match invocation.output? with
    | none => return { output := text ++ "\n" }
    | some ⟨path, some fault⟩ => throw (.uncaught (.unwritable fault path))
    | some ⟨path, none⟩ =>
      Stages.record [.wrote path]
      return { written := [(path, text)] }

/-- The reports of a failed stage, if it has any. -/
def StageFailure.reports? : StageFailure → Option (List Diagnostic)
  | diagnosed reports => some reports
  | uncaught _ => none

/-- A stage comes to the same as the library: it returns what the library returns, and where the
library fails it stops with the reports of the failure. -/
inductive Parallels {α : Type} (source file : String) (stage : Stages α) :
    Except Library.Failure α → Prop
  | returns {value : α} (hruns : ∀ before, ∃ after, stage before = .ok value after) :
      Parallels source file stage (.ok value)
  | stops {failure : Library.Failure}
      (hruns : ∀ before, ∃ stopped after, stage before = .error stopped after ∧
        stopped.reports? = failure.reports? source file) :
      Parallels source file stage (.error failure)

namespace Parallels

variable {α β : Type} {source file : String}

theorem pure (value : α) : Parallels source file (Pure.pure value) (.ok value) :=
  .returns fun before ↦ ⟨before, rfl⟩

theorem throw {stopped : StageFailure} {failure : Library.Failure}
    (hreports : stopped.reports? = failure.reports? source file) :
    Parallels source file (throwThe StageFailure stopped : Stages α) (.error failure) :=
  .stops fun before ↦ ⟨stopped, before, rfl, hreports⟩

/-- Recording events makes no difference. -/
theorem record (events : List Event) {next : Stages α} {result : Except Library.Failure α}
    (hnext : Parallels source file next result) :
    Parallels source file (do Stages.record events; next) result := by
  cases hnext with
  | returns hruns => exact .returns fun before ↦ hruns (before ++ events)
  | stops hruns => exact .stops fun before ↦ hruns (before ++ events)

theorem bind {first : Stages α} {next : α → Stages β} {result : Except Library.Failure α}
    {more : α → Except Library.Failure β} (hfirst : Parallels source file first result)
    (hnext : ∀ value, Parallels source file (next value) (more value)) :
    Parallels source file (first >>= next) (result >>= more) := by
  cases hfirst with
  | @returns value hruns =>
    change Parallels source file (first >>= next) (more value)
    -- how the second stage ends does not depend on the events that the first has recorded
    have hlater := hnext value
    generalize more value = final at hlater
    cases hlater with
    | returns hlater =>
      refine .returns fun before ↦ ?_
      obtain ⟨middle, hmiddle⟩ := hruns before
      obtain ⟨after, hafter⟩ := hlater middle
      exact ⟨after, (Run.bind_of_ok hmiddle).trans hafter⟩
    | stops hlater =>
      refine .stops fun before ↦ ?_
      obtain ⟨middle, hmiddle⟩ := hruns before
      obtain ⟨stopped, after, hafter, hreports⟩ := hlater middle
      exact ⟨stopped, after, (Run.bind_of_ok hmiddle).trans hafter, hreports⟩
  | stops hruns =>
    refine .stops fun before ↦ ?_
    obtain ⟨stopped, after, hstopped, hreports⟩ := hruns before
    exact ⟨stopped, after, Run.bind_of_error hstopped, hreports⟩

end Parallels

section

variable {source : String} {invocation : Invocation}

theorem parallels_lexed (hsource : decodeSource? invocation.content = some source) :
    Parallels source invocation.source (Stages.lexed invocation)
      (Library.tokens source invocation.source) := by
  unfold Stages.lexed Library.tokens tokenize
  rw [hsource]
  refine .record _ ?_
  dsimp only
  cases herrors : (lex source invocation.source).errors with
  | nil => exact .pure _
  | cons error errors =>
    refine .throw ?_
    rw [← herrors]
    rfl

theorem Library.program_eq (source file : String) :
    Library.program source file = (do
      let tokens ← Library.tokens source file
      (parse tokens).mapError fun failure => .source (.parsing failure)) := by
  unfold Library.program Library.tokens parseSource
  cases tokenize source file with
  | error error => rfl
  | ok tokens =>
    change ((parse tokens).mapError SourceFailure.parsing).mapError Failure.source =
      (parse tokens).mapError fun failure => Failure.source (.parsing failure)
    cases parse tokens with
    | error failure => rfl
    | ok tree => rfl

theorem parallels_parsed (hsource : decodeSource? invocation.content = some source) :
    Parallels source invocation.source (Stages.parsed invocation)
      (Library.program source invocation.source) := by
  rw [Library.program_eq]
  refine (parallels_lexed hsource).bind fun tokens ↦ ?_
  unfold parse
  cases parseFrom tokens.toArray {} with
  | ok tree cursor => exact .record _ (.pure tree)
  | error failure cursor =>
    cases failure with
    | syntaxError error => exact .record _ (.throw rfl)
    | _ => exact .record _ (.throw rfl)

theorem parallels_reduced (hsource : decodeSource? invocation.content = some source) :
    Parallels source invocation.source (Stages.reduced invocation)
      (Library.reduced (!invocation.lenient) source invocation.source) := by
  refine (parallels_parsed hsource).bind fun program ↦ .record _ ?_
  cases (validate (!invocation.lenient) program).result with
  | ok tree => exact .pure _
  | error failure =>
    cases failure with
    | semantic error => exact .throw rfl
    | _ => exact .throw rfl

theorem parallels_emitted (hsource : decodeSource? invocation.content = some source) :
    Parallels source invocation.source (Stages.emitted invocation)
      (Library.assembly (!invocation.lenient) source invocation.source) := by
  refine (parallels_reduced hsource).bind fun found ↦ ?_
  obtain ⟨tree, table⟩ := found
  dsimp only
  cases (emit tree).result with
  | error failure =>
    cases failure with
    | emission error => exact .throw rfl
    | _ => exact .throw rfl
  | ok code =>
    refine .record _ ?_
    simp only [Except.mapError, bind, Except.bind]
    cases moduleText? (Path.stem invocation.source) code with
    | some text => exact .pure text
    | none => exact .throw rfl

theorem parallels_rendered (hsource : decodeSource? invocation.content = some source) :
    Parallels source invocation.source (Stages.rendered invocation)
      (Library.rendering (!invocation.lenient) source invocation.source invocation.command) := by
  unfold Stages.rendered Library.rendering
  cases invocation.command with
  | tokens => exact (parallels_lexed hsource).bind fun tokens ↦ .pure _
  | parse => exact (parallels_parsed hsource).bind fun tree ↦ .pure _
  | check => exact (parallels_reduced hsource).bind fun found ↦ .pure _
  | emit => exact parallels_emitted hsource

end

theorem carryOut_eq (invocation : Invocation) :
    carryOut invocation = Stages.rendered invocation >>= Stages.delivered invocation := by
  unfold carryOut Stages.rendered Stages.delivered
  cases invocation.command with
  | tokens => simp
  | parse => simp
  | check => simp
  | emit => rfl

/-! ### Renderings are shown as they are -/

namespace Library

theorem exists_of_bind_eq_ok {ε α β : Type} {first : Except ε α} {next : α → Except ε β} {result : β}
    (hresult : (first >>= next) = .ok result) :
    ∃ value, first = .ok value ∧ next value = .ok result := by
  cases first with
  | error failure => cases hresult
  | ok value => exact ⟨value, rfl, hresult⟩

theorem eq_ok_of_mapError_eq_ok {ε ε' α : Type} {first : Except ε α} {wrap : ε → ε'} {value : α}
    (hvalue : first.mapError wrap = .ok value) : first = .ok value := by
  cases first with
  | error failure => cases hvalue
  | ok found => exact congrArg Except.ok (Except.ok.inj hvalue)

variable {strict : Bool} {source file : String}

theorem eq_of_tokens_eq_ok {found : List Token} (htokens : tokens source file = .ok found) :
    found = (lex source file).tokens :=
  (lex_of_tokenize (eq_ok_of_mapError_eq_ok htokens)).symm

theorem parse_of_program_eq_ok {tree : Tree} (hprogram : program source file = .ok tree) :
    parse (lex source file).tokens = .ok tree := by
  rw [program_eq] at hprogram
  obtain ⟨found, htokens, hparse⟩ := exists_of_bind_eq_ok hprogram
  rw [← eq_of_tokens_eq_ok htokens]
  exact eq_ok_of_mapError_eq_ok hparse

theorem exists_of_reduced_eq_ok {found : Tree × Table}
    (hreduced : reduced strict source file = .ok found) :
    ∃ tree, parse (lex source file).tokens = .ok tree ∧
      (validate strict tree).result = .ok found.1 ∧ found.2 = (validate strict tree).reducer.table := by
  obtain ⟨tree, hprogram, hrest⟩ := exists_of_bind_eq_ok hreduced
  obtain ⟨result, hresult, hpure⟩ := exists_of_bind_eq_ok hrest
  cases hpure
  exact ⟨tree, parse_of_program_eq_ok hprogram, eq_ok_of_mapError_eq_ok hresult, rfl⟩

theorem escapeless_assembly {text : String} (hstem : Escapeless (Path.stem file))
    (hassembly : assembly strict source file = .ok text) : Escapeless text := by
  obtain ⟨found, hreduced, hrest⟩ := exists_of_bind_eq_ok hassembly
  obtain ⟨code, hcode, hnamed⟩ := exists_of_bind_eq_ok hrest
  obtain ⟨tree, hparse, hresult, -⟩ := exists_of_reduced_eq_ok hreduced
  have hformed := formed_validate (formed_of_parse hparse) hresult
  obtain ⟨written, hwritten, hescapeless⟩ :=
    exists_moduleText? hformed (eq_ok_of_mapError_eq_ok hcode) (Path.stem file)
  rw [hwritten] at hnamed
  cases hnamed
  exact hescapeless hstem

/-- No rendering holds an escape character, besides those in the name of a module. -/
theorem escapeless_rendering {command : CommandName} {text : String}
    (hstem : command = .emit → Escapeless (Path.stem file))
    (htext : rendering strict source file command = .ok text) : Escapeless text := by
  cases command with
  | tokens =>
    obtain ⟨found, htokens, hpure⟩ := exists_of_bind_eq_ok htext
    cases hpure
    rw [eq_of_tokens_eq_ok htokens]
    exact escapeless_tokenListing source file
  | parse =>
    obtain ⟨tree, hprogram, hpure⟩ := exists_of_bind_eq_ok htext
    cases hpure
    exact (formed_of_parse (parse_of_program_eq_ok hprogram)).escapeless_text
  | check =>
    obtain ⟨found, hreduced, hpure⟩ := exists_of_bind_eq_ok htext
    cases hpure
    obtain ⟨tree, hparse, hresult, htable⟩ := exists_of_reduced_eq_ok hreduced
    rw [htable]
    exact escapeless_checkListing (formed_of_parse hparse) (placed_of_parse hparse) hresult
  | emit => exact escapeless_assembly (hstem rfl) htext

end Library

end LetLang
