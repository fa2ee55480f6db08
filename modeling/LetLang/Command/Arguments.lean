import LetLang.Command.Path
import LetLang.Source.Reading
import LetLang.Text.Likeness
import LetLang.Text.Quoted

/-!
# The command line

The command line. Options that concern every command stand before the name of the command; the
options of a command and the file it works on follow, in any order. `readArguments` turns the
arguments into an invocation, or says what is wrong with them, given what the paths on the command
line name.
-/

set_option autoImplicit false

namespace LetLang

/-- The commands. -/
inductive CommandName
  | tokens
  | parse
  | check
  | emit
  deriving DecidableEq

namespace CommandName

/-- The name of a command. -/
def text : CommandName → String
  | tokens => "tokens"
  | parse => "parse"
  | check => "check"
  | emit => "emit"

/-- All commands. -/
def all : List CommandName := [tokens, parse, check, emit]

/-- The command of a given name. -/
def ofText? (text : String) : Option CommandName := all.find? (·.text == text)

/-- The long options of a command. -/
def longOptions : CommandName → List String
  | emit => ["--output", "--help"]
  | _ => ["--help"]

end CommandName

/-- The long options that stand before the command. -/
def leadingOptions : List String := ["--version", "--lenient", "--verbose", "--help"]

/-! ### Faults -/

/-- What is wrong with a command line. -/
inductive UsageFault
  /-- No command is named. -/
  | missingCommand
  /-- There is no such command; some that there are may be meant. -/
  | noSuchCommand (name : String) (meant : List String)
  /-- There is no such option; some that there are may be meant. -/
  | noSuchOption (option : String) (meant : List String)
  /-- A value is given to an option that takes none. -/
  | unwantedValue (option : String)
  /-- An option lacks its value. -/
  | missingValue (option : String)
  /-- No file to work on is named. -/
  | missingSource
  /-- There is no such file, as the value of a parameter. -/
  | noSuchFile (parameter path : String)
  /-- A directory is named in place of a file, as the value of a parameter. -/
  | isDirectory (parameter path : String)
  /-- There are arguments left over. -/
  | unexpected (arguments : List String)
  deriving DecidableEq

namespace UsageFault

/-- A command that does not exist, with up to three that are spelled like it. -/
def unknownCommand (name : String) : UsageFault :=
  .noSuchCommand name (Text.closest 3 name (CommandName.all.map CommandName.text))

/-- A long option that is not among the known ones, with up to three that are spelled like it. -/
def unknownOption (known : List String) (option : String) : UsageFault :=
  .noSuchOption option (Text.closest 3 option known)

/-- The question whether something else was meant, if there is anything to offer. -/
def question : List String → String
  | [] => ""
  | [word] => " Did you mean " ++ Text.quoted word ++ "?"
  | words => " (Did you mean one of: " ++ ", ".intercalate (words.map Text.quoted) ++ "?)"

/-- What a fault says. -/
def message : UsageFault → String
  | missingCommand => "Missing command."
  | noSuchCommand name meant => "No such command " ++ Text.quoted name ++ "." ++ question meant
  | noSuchOption option meant => "No such option " ++ Text.quoted option ++ "." ++ question meant
  | unwantedValue option => "Option " ++ Text.quoted option ++ " does not take a value."
  | missingValue option => "Option " ++ Text.quoted option ++ " requires an argument."
  | missingSource => "Missing argument 'SOURCE'."
  | noSuchFile parameter path =>
    "Invalid value for " ++ parameter ++ ": File " ++ Text.quoted path ++ " does not exist."
  | isDirectory parameter path =>
    "Invalid value for " ++ parameter ++ ": File " ++ Text.quoted path ++ " is a directory."
  | unexpected arguments =>
    (if arguments.length = 1 then "Got unexpected extra argument (" else
      "Got unexpected extra arguments (") ++ " ".intercalate arguments ++ ")"

/-- Whether the way to call the program is shown along with a fault. It is not when the option is
right and only its value is one too many or missing. -/
def showsUsage : UsageFault → Bool
  | unwantedValue _ | missingValue _ => false
  | _ => true

end UsageFault

/-! ### Files -/

/-- Why a file cannot be written. -/
inductive WriteFault
  /-- Its path leads through a directory that does not exist. -/
  | noDirectory
  /-- Its path leads through a file. -/
  | notDirectory
  /-- Its path names a directory. -/
  | directory
  deriving DecidableEq

/-- What is wrong with writing to a path, if anything is, given what paths name. -/
def writeFault? (look : String → Entry) (path : String) : Option WriteFault :=
  match look path with
  | .directory => some .directory
  | _ =>
    (Path.ancestors path).findSome? fun ancestor =>
      match look ancestor with
      | .directory => none
      | .missing => some .noDirectory
      | .file _ => some .notDirectory

/-- A file to write, and what will be wrong with that, if anything. -/
structure Output where
  path : String
  fault? : Option WriteFault

/-- The file to write at a path. -/
def Output.atPath (look : String → Entry) (path : String) : Output :=
  ⟨Path.simplify path, writeFault? look (Path.simplify path)⟩

/-- What a command line asks for. -/
structure Invocation where
  lenient : Bool := false
  verbose : Bool := false
  command : CommandName
  source : String
  content : ByteArray
  output? : Option Output := none

/-- What reading a command line comes to. -/
inductive Request
  /-- A command is to be run. -/
  | run (invocation : Invocation)
  /-- The version is to be shown. -/
  | version
  /-- Help is to be shown, on one command or on all. -/
  | help (command? : Option CommandName)
  /-- The command line is faulty, in the part of one command or before it. -/
  | faulty (command? : Option CommandName) (fault : UsageFault)

/-- How the source file is called in messages. -/
def sourceParameter : String := "'SOURCE'"

/-- How the output file is called in messages. -/
def outputParameter : String := "'--output' / '-o'"

/-! ### Options of a command -/

/-- The arguments of a command, sorted. -/
structure Sorted where
  files : List String := []
  output? : Option String := none
  help : Bool := false

/-- Whether an argument is an option, and not a file or a lone dash. -/
def isOption (argument : String) : Bool := argument.startsWith "-" && 1 < argument.length

/-- A long option and the value joined to it by an equals sign, if there is one. -/
def splitValue (argument : String) : String × Option String :=
  let name := argument.toList.takeWhile (· != '=')
  match argument.toList.dropWhile (· != '=') with
  | [] => (argument, none)
  | _ :: value => (String.ofList name, some (String.ofList value))

/-- What an argument of a command is. -/
inductive ArgumentClass
  /-- The path of a file. -/
  | file
  /-- The mark after which there are only files. -/
  | endOfOptions
  /-- The request for help. -/
  | help
  /-- The option for the output file, as it is spelled, with its value unless that comes next. -/
  | output (spelling : String) (value? : Option String)
  /-- An option that does not exist or is misused. -/
  | faulty (fault : UsageFault)

/-- The class of a long option. -/
def classifyLong (command : CommandName) (argument : String) : ArgumentClass :=
  match splitValue argument with
  | ("--help", none) => .help
  | ("--help", some _) => .faulty (.unwantedValue "--help")
  | (name, value?) =>
    if command = .emit && name = "--output" then .output name value?
    else .faulty (.unknownOption command.longOptions name)

/-- The class of a short option, whose letter may be followed by its value. -/
def classifyShort (command : CommandName) (letter : Char) (value : List Char) : ArgumentClass :=
  let name := String.ofList ['-', letter]
  if command = .emit && letter = 'o' then
    .output name (if value.isEmpty then none else some (String.ofList value))
  else .faulty (.noSuchOption name [])

/-- The class of an argument of a command. -/
def classify (command : CommandName) (argument : String) : ArgumentClass :=
  match argument.toList with
  | ['-', '-'] => .endOfOptions
  | '-' :: '-' :: _ => classifyLong command argument
  | '-' :: letter :: value => classifyShort command letter value
  | _ => .file

/-- Sorts the arguments of a command into its options and files. Only `emit` has an option with a
value; of several output files the last one counts. -/
def sortArguments (command : CommandName) : List String → Except UsageFault Sorted
  | [] => .ok {}
  | argument :: rest =>
    match classify command argument with
    | .endOfOptions => .ok { files := rest }
    | .file => do
      let sorted ← sortArguments command rest
      return { sorted with files := argument :: sorted.files }
    | .help => do return { (← sortArguments command rest) with help := true }
    | .output _ (some value) => do
      let sorted ← sortArguments command rest
      return { sorted with output? := sorted.output?.or (some value) }
    | .output spelling none =>
      match rest with
      | [] => .error (.missingValue spelling)
      | value :: rest => do
        let sorted ← sortArguments command rest
        return { sorted with output? := sorted.output?.or (some value) }
    | .faulty fault => .error fault

/-- Reads what follows the name of a command. A faulty output file is noticed before a faulty source
file, and left-over arguments last. -/
def readCommand (look : String → Entry) (lenient verbose : Bool) (command : CommandName)
    (arguments : List String) : Request :=
  match sortArguments command arguments with
  | .error fault => .faulty (some command) fault
  | .ok sorted =>
    let outputIsDirectory :=
      match sorted.output?.map look with
      | some .directory => true
      | _ => false
    if sorted.help then .help (some command)
    else if outputIsDirectory then
      .faulty (some command) (.isDirectory outputParameter (sorted.output?.getD ""))
    else
      match sorted.files with
      | [] => .faulty (some command) .missingSource
      | source :: extra =>
        match look source with
        | .missing => .faulty (some command) (.noSuchFile sourceParameter source)
        | .directory => .faulty (some command) (.isDirectory sourceParameter source)
        | .file content =>
          if extra.isEmpty then
            .run ⟨lenient, verbose, command, Path.simplify source, content,
              sorted.output?.map (Output.atPath look)⟩
          else .faulty (some command) (.unexpected extra)

/-! ### Options before the command -/

/-- The options before the command, and what follows them. -/
structure Leading where
  lenient : Bool := false
  verbose : Bool := false
  version : Bool := false
  help : Bool := false
  rest : List String := []

/-- The letters of a cluster of short options before the command. -/
def shortCluster (leading : Leading) : List Char → Except UsageFault Leading
  | [] => .ok leading
  | 'v' :: letters => shortCluster { leading with verbose := true } letters
  | c :: _ => .error (.noSuchOption (String.ofList ['-', c]) [])

/-- Reads the options before the command. The first of the requests for the version and for help
counts. -/
def readLeading (leading : Leading) : List String → Except UsageFault Leading
  | [] => .ok leading
  | "--" :: rest => .ok { leading with rest := rest }
  | argument :: rest =>
    if !isOption argument then .ok { leading with rest := argument :: rest }
    else if argument.startsWith "--" then
      match splitValue argument with
      | ("--lenient", none) => readLeading { leading with lenient := true } rest
      | ("--verbose", none) => readLeading { leading with verbose := true } rest
      | ("--version", none) => readLeading { leading with version := !leading.help } rest
      | ("--help", none) => readLeading { leading with help := !leading.version } rest
      | (name, some _) =>
        if leadingOptions.contains name then .error (.unwantedValue name)
        else .error (.unknownOption leadingOptions name)
      | (name, none) => .error (.unknownOption leadingOptions name)
    else do readLeading (← shortCluster leading (argument.toList.drop 1)) rest

/-- What the options before the command come to: a fault, the version or help, and otherwise what
follows from them. -/
def withLeading (arguments : List String) (follow : Leading → Request) : Request :=
  match readLeading {} arguments with
  | .error fault => .faulty none fault
  | .ok leading =>
    if leading.version then .version
    else if leading.help then .help none
    else follow leading

/-- Reads a command line, given what the paths on it name. What stands for a command and is none is
read as an option once more, because the mark that ends the options may stand before it. -/
def readArguments (look : String → Entry) (arguments : List String) : Request :=
  if arguments.isEmpty then .help none
  else
    withLeading arguments fun leading =>
      match leading.rest with
      | [] => .faulty none .missingCommand
      | name :: rest =>
        match CommandName.ofText? name with
        | none => withLeading leading.rest fun _ => .faulty none (.unknownCommand name)
        | some command => readCommand look leading.lenient leading.verbose command rest

end LetLang
