import LetLang.Proofs.Command.Stages

/-!
# The command line agrees with the library

A task is a command with its options, to be carried out on the file at a path. It can be spelled on
the command line whatever the path is (`Task.spells_commandLine`), and however it is spelled, it is read
as what the task asks for (`Task.Spells.readArguments`). So the report follows from what the library
makes of the source in the file: the text of the result, in the place where the task wants it, or the
reports of the failure and nothing besides (`runCommandLine_rendering`).

A text is not delivered where it cannot be written, and it is not printed as it is if the module is
named with an escape sequence and no colours are wanted (`runCommandLine_undelivered`).
-/

set_option autoImplicit false

namespace LetLang

open Text

/-! ### Tasks -/

/-- What is to be done with a source file. -/
inductive Task
  | tokens
  | parse
  | check
  /-- Its module is to be printed, or to be written to the file at a path. -/
  | emit (output? : Option String)

namespace Task

/-- The command for a task. -/
def command : Task → CommandName
  | tokens => .tokens
  | parse => .parse
  | check => .check
  | emit _ => .emit

/-- The path of the file to write, if there is one. -/
def output? : Task → Option String
  | emit output? => output?
  | _ => none

/-- The arguments ask for a task on the file at a path: behind the name of the command there are just
the file and the output, in any order and spelling. -/
def Spells (task : Task) (lenient : Bool) (path : String) (arguments : List String) : Prop :=
  ∃ rest, arguments = (if lenient then ["--lenient"] else []) ++ task.command.text :: rest ∧
    sortArguments task.command rest = .ok { files := [path], output? := task.output? }

/-- The file to write is not a directory. -/
def Admitted (task : Task) (look : String → Entry) : Prop :=
  ∀ output, task.output? = some output → look output ≠ .directory

/-- The file to write can be written. -/
def Writable (task : Task) (look : String → Entry) : Prop :=
  ∀ output, task.output? = some output → writeFault? look (Path.simplify output) = none

/-- What is printed, said and written when the result of a task has the given text. -/
def product (text : String) : Task → Product
  | tokens | parse => { output := text }
  | check => { output := text, remark := coloured .green "ok" ++ "\n" }
  | emit none => { output := text ++ "\n" }
  | emit (some path) => { written := [(Path.simplify path, text)] }

theorem escapeless_product {text : String} (htext : Escapeless text) (task : Task) :
    Escapeless (task.product text).output := by
  cases task with
  | emit output? =>
    cases output? with
    | none => exact over_append.mpr ⟨htext, by decide⟩
    | some output => exact (by decide : Escapeless "")
  | tokens => exact htext
  | parse => exact htext
  | check => exact htext

/-- What the command line for a task asks for. -/
def invocation (task : Task) (look : String → Entry) (lenient : Bool) (path : String)
    (content : ByteArray) : Invocation :=
  { lenient := lenient, command := task.command, source := Path.simplify path, content := content
    output? := task.output?.map (Output.atPath look) }

/-! ### Spelling a task -/

/-- A path as an argument: one that looks like an option stands behind the mark that ends the
options. -/
def operand (path : String) : List String :=
  match path.toList with
  | '-' :: _ :: _ => ["--", path]
  | _ => [path]

theorem sortArguments_operand (command : CommandName) (path : String) :
    sortArguments command (operand path) = .ok { files := [path] } := by
  unfold operand
  split
  · rfl
  · next hplain =>
    have hfile : classify command path = .file := by
      unfold classify
      split
      · next hmark => exact absurd hmark (hplain _ _)
      · next hlong => exact absurd hlong (hplain _ _)
      · next hshort => exact absurd hshort (hplain _ _)
      · rfl
    rw [sortArguments, hfile]
    rfl

theorem sortArguments_output (path output : String) :
    sortArguments .emit ("-o" :: output :: operand path) =
      .ok { files := [path], output? := some output } := by
  have hclass : classify .emit "-o" = .output "-o" none := by rfl
  rw [sortArguments, hclass]
  simp only [sortArguments_operand]
  rfl

/-- The command line for a task, with the output before the file. -/
def commandLine (task : Task) (lenient : Bool) (path : String) : List String :=
  (if lenient then ["--lenient"] else []) ++ task.command.text ::
    ((task.output?.toList.flatMap fun output => ["-o", output]) ++ operand path)

theorem spells_commandLine (task : Task) (lenient : Bool) (path : String) :
    task.Spells lenient path (task.commandLine lenient path) := by
  refine ⟨_, rfl, ?_⟩
  cases task with
  | emit output? =>
    cases output? with
    | none => exact sortArguments_operand .emit path
    | some output => exact sortArguments_output path output
  | tokens => exact sortArguments_operand .tokens path
  | parse => exact sortArguments_operand .parse path
  | check => exact sortArguments_operand .check path

/-! ### Reading a task -/

theorem readLeading_lenient (lenient : Bool) (command : CommandName) (rest : List String) :
    readLeading {} ((if lenient then ["--lenient"] else []) ++ command.text :: rest) =
      .ok { lenient := lenient, rest := command.text :: rest } := by
  have hcommand : ∀ leading : Leading, readLeading leading (command.text :: rest) =
      .ok { leading with rest := command.text :: rest } := by
    intro leading
    -- the name of a command is no option, so the leading options end here
    have hword : command.text ≠ "--" ∧ isOption command.text = false := by
      cases command <;> decide +kernel
    rw [readLeading, hword.2]
    · rfl
    · exact hword.1
  cases lenient with
  | false => exact hcommand {}
  | true =>
    have hlenient : readLeading {} ("--lenient" :: command.text :: rest) =
        readLeading { lenient := true } (command.text :: rest) := by
      have hoption : isOption "--lenient" = true := by decide +kernel
      have hlong : "--lenient".startsWith "--" = true := by decide +kernel
      have hsplit : splitValue "--lenient" = ("--lenient", none) := by decide +kernel
      rw [readLeading, hoption, hlong, hsplit]
      · rfl
      · decide
    exact hlenient.trans (hcommand _)

theorem Spells.readArguments {task : Task} {look : String → Entry} {lenient : Bool} {path : String}
    {arguments : List String} {content : ByteArray} (hspells : task.Spells lenient path arguments)
    (hfile : look path = .file content) (hadmitted : task.Admitted look) :
    readArguments look arguments = .run (task.invocation look lenient path content) := by
  obtain ⟨rest, rfl, hsorted⟩ := hspells
  have hsome : ((if lenient then ["--lenient"] else []) ++ task.command.text :: rest).isEmpty =
      false := by
    cases lenient <;> rfl
  have hname : CommandName.ofText? task.command.text = some task.command := by
    cases task.command <;> decide
  rw [LetLang.readArguments, hsome, withLeading, readLeading_lenient]
  simp only [hname]
  change readCommand look lenient false task.command rest = _
  rw [readCommand, hsorted]
  simp only [hfile]
  -- no help is asked for, and the output is no directory
  rw [if_neg (by decide), if_neg ?_]
  · rfl
  · intro hdirectory
    split at hdirectory
    · next hfound =>
      obtain ⟨output, houtput, hlook⟩ := Option.map_eq_some_iff.mp hfound
      exact hadmitted output houtput hlook
    · cases hdirectory

end Task

/-! ### Reports -/

section

variable {invocation : Invocation} {events : List Event}

theorem runInvocation_of_ok {product : Product} (hquiet : invocation.verbose = false)
    (hrun : carryOut invocation [] = .ok product events) (colours : Bool) :
    runInvocation colours invocation =
      { output := inColours colours product.output, written := product.written
        errors := inColours colours product.remark } := by
  rw [runInvocation, hrun, hquiet]
  simp [traceLines]

theorem runInvocation_of_diagnosed {reports : List Diagnostic} (hquiet : invocation.verbose = false)
    (hrun : carryOut invocation [] = .error (.diagnosed reports) events) (colours : Bool) :
    runInvocation colours invocation =
      { exit := 1, errors := inColours colours (String.join (reports.map shownDiagnostic)) } := by
  rw [runInvocation, hrun, hquiet]
  simp [traceLines]

theorem runInvocation_of_uncaught {failure : Uncaught} (hquiet : invocation.verbose = false)
    (hrun : carryOut invocation [] = .error (.uncaught failure) events) (colours : Bool) :
    runInvocation colours invocation = { exit := 1, uncaught? := some failure } := by
  rw [runInvocation, hrun, hquiet]
  simp [traceLines]

end

theorem runInvocation_of_exit_ne_zero {colours : Bool} {invocation : Invocation}
    (hexit : (runInvocation colours invocation).exit ≠ 0) :
    (runInvocation colours invocation).output = "" ∧
      (runInvocation colours invocation).written = [] := by
  revert hexit
  unfold runInvocation
  cases carryOut invocation [] with
  | ok product events => exact fun hexit ↦ absurd rfl hexit
  | error stopped events =>
    cases stopped with
    | diagnosed reports => exact fun _ ↦ ⟨rfl, rfl⟩
    | uncaught failure => exact fun _ ↦ ⟨rfl, rfl⟩

/-- A command line that fails prints no result and writes no file. -/
theorem runCommandLine_of_exit_ne_zero {look : String → Entry} {colours : Bool}
    {arguments : List String} (hexit : (runCommandLine look colours arguments).exit ≠ 0) :
    (runCommandLine look colours arguments).output = "" ∧
      (runCommandLine look colours arguments).written = [] := by
  revert hexit
  unfold runCommandLine
  cases readArguments look arguments with
  | run invocation => exact runInvocation_of_exit_ne_zero
  | version => exact fun hexit ↦ absurd rfl hexit
  | help command? => exact fun hexit ↦ absurd rfl hexit
  | faulty command? fault => exact fun _ ↦ ⟨rfl, rfl⟩

namespace Task

variable {task : Task} {look : String → Entry} {lenient : Bool} {path source text : String}
  {content : ByteArray}

/-- The text that a task renders is that of the library. -/
theorem parallels_rendered (task : Task) (look : String → Entry) (lenient : Bool) (path : String)
    (hsource : decodeSource? content = some source) :
    Parallels source (Path.simplify path)
      (Stages.rendered (task.invocation look lenient path content))
      (Library.rendering (!lenient) source (Path.simplify path) task.command) :=
  @LetLang.parallels_rendered source (task.invocation look lenient path content) hsource

theorem exists_rendered (task : Task) (look : String → Entry)
    (hsource : decodeSource? content = some source)
    (htext : Library.rendering (!lenient) source (Path.simplify path) task.command = .ok text) :
    ∃ after, Stages.rendered (task.invocation look lenient path content) [] = .ok text after := by
  have hrendered := task.parallels_rendered look lenient path hsource
  rw [htext] at hrendered
  cases hrendered with
  | returns hruns => exact hruns []

theorem exists_carryOut (hsource : decodeSource? content = some source)
    (htext : Library.rendering (!lenient) source (Path.simplify path) task.command = .ok text)
    (hwritable : task.Writable look) :
    ∃ after, carryOut (task.invocation look lenient path content) [] =
      .ok (task.product text) after := by
  obtain ⟨middle, hmiddle⟩ := task.exists_rendered look hsource htext
  -- the text is there, and only an output file can still get in the way
  rw [carryOut_eq, Run.bind_of_ok hmiddle]
  cases task with
  | emit output? =>
    cases output? with
    | none => exact ⟨middle, rfl⟩
    | some output =>
      refine ⟨middle ++ [.wrote (Path.simplify output)], ?_⟩
      simp only [Stages.delivered, invocation, command, Task.output?, Option.map_some,
        Output.atPath, hwritable output rfl]
      rfl
  | tokens => exact ⟨middle, rfl⟩
  | parse => exact ⟨middle, rfl⟩
  | check => exact ⟨middle, rfl⟩

/-- The output file is opened only when its text is there, so all that is left of a run on a file
that cannot be written is the fault. -/
theorem exists_carryOut_of_fault {output : String} {fault : WriteFault}
    (hsource : decodeSource? content = some source)
    (htext : Library.rendering (!lenient) source (Path.simplify path) .emit = .ok text)
    (hfault : writeFault? look (Path.simplify output) = some fault) :
    ∃ after, carryOut ((emit (some output)).invocation look lenient path content) [] =
      .error (.uncaught (.unwritable fault (Path.simplify output))) after := by
  obtain ⟨middle, hmiddle⟩ := exists_rendered (emit (some output)) look hsource htext
  refine ⟨middle, ?_⟩
  rw [carryOut_eq, Run.bind_of_ok hmiddle]
  simp only [Stages.delivered, invocation, command, Task.output?, Option.map_some, Output.atPath, hfault]
  rfl

theorem exists_carryOut_of_error {failure : Library.Failure} {reports : List Diagnostic}
    (hsource : decodeSource? content = some source)
    (hfailure : Library.rendering (!lenient) source (Path.simplify path) task.command =
      .error failure)
    (hreports : failure.reports? source (Path.simplify path) = some reports) :
    ∃ after, carryOut (task.invocation look lenient path content) [] =
      .error (.diagnosed reports) after := by
  have hrendered := task.parallels_rendered look lenient path hsource
  rw [hfailure] at hrendered
  cases hrendered with
  | stops hruns =>
    obtain ⟨stopped, after, hstopped, hsame⟩ := hruns []
    refine ⟨after, ?_⟩
    rw [carryOut_eq, Run.bind_of_error hstopped]
    have hdiagnosed : stopped.reports? = some reports := hsame.trans hreports
    cases stopped with
    | diagnosed found =>
      cases hdiagnosed
      rfl
    | uncaught failure => cases hdiagnosed

/-! ### Agreement -/

section

variable {arguments : List String} (hspells : task.Spells lenient path arguments)
  (hfile : look path = .file content) (hsource : decodeSource? content = some source)

include hspells hfile hsource

theorem runCommandLine_of_ok (hadmitted : task.Admitted look) (hwritable : task.Writable look)
    (htext : Library.rendering (!lenient) source (Path.simplify path) task.command = .ok text)
    (colours : Bool) :
    runCommandLine look colours arguments =
      { output := inColours colours (task.product text).output
        written := (task.product text).written
        errors := inColours colours (task.product text).remark } := by
  obtain ⟨after, hafter⟩ := exists_carryOut hsource htext hwritable
  rw [runCommandLine, hspells.readArguments hfile hadmitted]
  exact runInvocation_of_ok rfl hafter colours

theorem runCommandLine_of_error {failure : Library.Failure} {reports : List Diagnostic}
    (hadmitted : task.Admitted look)
    (hfailure : Library.rendering (!lenient) source (Path.simplify path) task.command =
      .error failure)
    (hreports : failure.reports? source (Path.simplify path) = some reports) (colours : Bool) :
    runCommandLine look colours arguments =
      { exit := 1, errors := inColours colours (String.join (reports.map shownDiagnostic)) } := by
  obtain ⟨after, hafter⟩ := exists_carryOut_of_error hsource hfailure hreports
  rw [runCommandLine, hspells.readArguments hfile hadmitted]
  exact runInvocation_of_diagnosed rfl hafter colours

end

theorem runCommandLine_of_fault {arguments : List String} {output : String} {fault : WriteFault}
    (hspells : (emit (some output)).Spells lenient path arguments)
    (hfile : look path = .file content) (hsource : decodeSource? content = some source)
    (hadmitted : (emit (some output)).Admitted look)
    (htext : Library.rendering (!lenient) source (Path.simplify path) .emit = .ok text)
    (hfault : writeFault? look (Path.simplify output) = some fault) (colours : Bool) :
    runCommandLine look colours arguments =
      { exit := 1, uncaught? := some (.unwritable fault (Path.simplify output)) } := by
  obtain ⟨after, hafter⟩ := exists_carryOut_of_fault hsource htext hfault
  rw [runCommandLine, hspells.readArguments hfile hadmitted]
  exact runInvocation_of_uncaught rfl hafter colours

end Task

/-- If the library has a text for a task, the command line for the task exits with zero, prints or
writes this text, which is shown as it is unless the module is named with an escape character, and says
no more. If the library fails with an error of the source, the command line exits with one and shows
the reports of the failure alone. Whenever it fails, nothing is printed or written. -/
theorem runCommandLine_rendering {look : String → Entry} {path source : String} {content : ByteArray}
    {task : Task} {lenient : Bool} {arguments : List String}
    (hfile : look path = .file content) (hsource : decodeSource? content = some source)
    (hspells : task.Spells lenient path arguments) (hadmitted : task.Admitted look)
    (colours : Bool) :
    (∀ text, Library.rendering (!lenient) source (Path.simplify path) task.command = .ok text →
      (task.Writable look →
        runCommandLine look colours arguments =
          { exit := 0
            output := inColours colours (task.product text).output
            written := (task.product text).written
            errors := inColours colours (task.product text).remark }) ∧
      ((task.command = .emit → Escapeless (Path.stem (Path.simplify path))) →
        inColours colours (task.product text).output = (task.product text).output)) ∧
    (∀ failure reports,
      Library.rendering (!lenient) source (Path.simplify path) task.command = .error failure →
      failure.reports? source (Path.simplify path) = some reports →
        runCommandLine look colours arguments =
          { exit := 1
            errors := inColours colours (String.join (reports.map shownDiagnostic)) }) ∧
    ((runCommandLine look colours arguments).exit ≠ 0 →
      (runCommandLine look colours arguments).output = "" ∧
        (runCommandLine look colours arguments).written = []) := by
  refine ⟨fun text htext ↦ ⟨fun hwritable ↦ ?_, fun hstem ↦ ?_⟩, ?_, runCommandLine_of_exit_ne_zero⟩
  · exact Task.runCommandLine_of_ok hspells hfile hsource hadmitted hwritable htext colours
  · have htextEscapeless := Library.escapeless_rendering hstem htext
    exact inColours_eq (Task.escapeless_product htextEscapeless task) colours
  · intro failure reports hfailure hreports
    exact Task.runCommandLine_of_error hspells hfile hsource hadmitted hfailure hreports colours

/-- What the paths name in a directory that holds one file. -/
def folder (name text : String) (path : String) : Entry :=
  if path = name then .file text.toUTF8 else if path = "." then .directory else .missing

theorem folder_self (name text : String) : folder name text name = .file text.toUTF8 := if_pos rfl

theorem Library.rendering_one (file : String) :
    rendering true "1;" file .emit = .ok (moduleFrame (Path.stem file) ["ret i64 1"]) := by
  have htokens : tokenize "1;" file =
      .ok [⟨.numberLiteral, some "1"⟩, ⟨.semicolon, some ";"⟩, Token.endOfStream] := by
    rfl
  have hprogram : program "1;" file = .ok (.program [.statement (.literal (some "1"))]) := by
    rw [program, parseSource_of_tokenize htokens, parse_eq_predict]
    rfl
  have hreduced : reduced true "1;" file = .ok (.program [.statement (.integer 1)], {}) := by
    rw [reduced, hprogram]
    rfl
  rw [rendering, assembly, hreduced]
  rfl

theorem decodeSource?_one : decodeSource? "1;".toUTF8 = some "1;" := by decide +kernel

/-- A module is written to its file, and nothing is printed or said; of a source with two lexical
errors both are shown, and nothing else. -/
theorem runCommandLine_rendering_written :
    runCommandLine (folder "prog.fn" "1;") false ["emit", "prog.fn", "--output=out.ll"] =
        { exit := 0, written := [("out.ll", moduleFrame "prog" ["ret i64 1"])] } ∧
      (lex "$?" "prog.fn").errors.length = 2 ∧
      runCommandLine (folder "prog.fn" "$?") true ["--lenient", "tokens", "prog.fn"] =
        { exit := 1
          errors := String.join (((lex "$?" "prog.fn").errors.map LexError.diagnostic).map
            shownDiagnostic) } := by
  refine ⟨?_, by decide +kernel, ?_⟩
  · have hspells : (Task.emit (some "out.ll")).Spells false "prog.fn"
        ["emit", "prog.fn", "--output=out.ll"] :=
      ⟨["prog.fn", "--output=out.ll"], rfl, rfl⟩
    have hadmitted : (Task.emit (some "out.ll")).Admitted (folder "prog.fn" "1;") := by
      rintro _ ⟨⟩ hdirectory
      cases hdirectory
    have hwritable : (Task.emit (some "out.ll")).Writable (folder "prog.fn" "1;") := by
      rintro _ ⟨⟩
      decide +kernel
    obtain ⟨hok, -⟩ := runCommandLine_rendering (folder_self "prog.fn" "1;") decodeSource?_one hspells
      hadmitted false
    exact (hok _ (Library.rendering_one _)).1 hwritable
  · have hsource : decodeSource? "$?".toUTF8 = some "$?" := by decide +kernel
    have hspells : Task.tokens.Spells true "prog.fn" ["--lenient", "tokens", "prog.fn"] :=
      Task.tokens.spells_commandLine true "prog.fn"
    have hadmitted : Task.tokens.Admitted (folder "prog.fn" "$?") := by rintro _ ⟨⟩
    obtain ⟨-, herror, -⟩ := runCommandLine_rendering (folder_self "prog.fn" "$?") hsource hspells
      hadmitted true
    exact herror _ _ rfl rfl

/-- A module for which the library has a text is not written where a directory is, or where there is
no directory for it; and where its name holds an escape sequence and no colours are wanted, its text
is not printed as it is. -/
theorem runCommandLine_undelivered :
    (Library.rendering true "1;" "prog.fn" .emit = .ok (moduleFrame "prog" ["ret i64 1"]) ∧
      (runCommandLine (folder "prog.fn" "1;") false ["emit", "-o", ".", "prog.fn"]).exit = 2 ∧
      (runCommandLine (folder "prog.fn" "1;") false
        ["emit", "-o", "missing/out.ll", "prog.fn"]).exit = 1) ∧
    Library.rendering true "1;" "\x1b[1m.fn" .emit = .ok (moduleFrame "\x1b[1m" ["ret i64 1"]) ∧
      (runCommandLine (folder "\x1b[1m.fn" "1;") false ["emit", "\x1b[1m.fn"]).output ≠
        moduleFrame "\x1b[1m" ["ret i64 1"] ++ "\n" := by
  refine ⟨⟨Library.rendering_one "prog.fn", by decide +kernel, ?_⟩,
    Library.rendering_one "\x1b[1m.fn", ?_⟩
  · have hspells := (Task.emit (some "missing/out.ll")).spells_commandLine false "prog.fn"
    have hadmitted : (Task.emit (some "missing/out.ll")).Admitted (folder "prog.fn" "1;") := by
      rintro _ ⟨⟩ hdirectory
      cases hdirectory
    have hfault : writeFault? (folder "prog.fn" "1;") (Path.simplify "missing/out.ll") =
        some .noDirectory := by
      decide +kernel
    have htext := Library.rendering_one (Path.simplify "prog.fn")
    exact congrArg Report.exit (Task.runCommandLine_of_fault hspells (folder_self "prog.fn" "1;")
      decodeSource?_one hadmitted htext hfault false)
  · have hspells := (Task.emit none).spells_commandLine false "\x1b[1m.fn"
    have hadmitted : (Task.emit none).Admitted (folder "\x1b[1m.fn" "1;") := by rintro _ ⟨⟩
    have hwritable : (Task.emit none).Writable (folder "\x1b[1m.fn" "1;") := by rintro _ ⟨⟩
    have htext := Library.rendering_one (Path.simplify "\x1b[1m.fn")
    have hreport := Task.runCommandLine_of_ok hspells (folder_self "\x1b[1m.fn" "1;")
      decodeSource?_one hadmitted hwritable htext false
    have hshown : inColours false (moduleFrame "\x1b[1m" ["ret i64 1"] ++ "\n") ≠
        moduleFrame "\x1b[1m" ["ret i64 1"] ++ "\n" := by
      decide +kernel
    intro hsame
    exact hshown ((congrArg Report.output hreport).symm.trans hsame)

end LetLang
