import LispMachine.Boot
import LispMachine.Decimal.Numeral
import LispMachine.Folder
import LispMachine.Help
import LispMachine.Listing
import LispMachine.Settings.File

/-!
The command line. A command line names a command (run, list or compile a program file, or tell
about the machine) and perhaps a settings file. `CommandLine.execute` says what a command prints
and with which code it exits, given the files and the environment; reading and printing are left
to the caller.
-/

set_option autoImplicit false

namespace LispMachine

/-! ### Reading the command line -/

/-- What can be chosen about a run. -/
structure RunOptions where
  /-- Compile functions before their first invocation. -/
  compiling : Bool := false
  /-- Report how many invocations and compilations there were. -/
  statistics : Bool := false
  /-- Count the opcodes that are interpreted and report the most frequent. -/
  metering : Bool := false
  deriving DecidableEq

/-- What a command line asks for. -/
inductive Command where
  | run (file : String) (options : RunOptions) (arguments : List String)
  | list (file : String)
  | compile (file : String)
  | info
  | version
  | help (subject : HelpSubject)
  deriving DecidableEq

/-- A command with the settings file to be used. -/
structure CommandLine where
  settingsFile : Option String := none
  command : Command
  deriving DecidableEq

namespace CommandLine

/-- The words of a command line sorted into options and operands. -/
structure Words where
  settingsFile : Option String := none
  options : RunOptions := {}
  operands : List String := []

/-- Whether a word is an option, which a lone hyphen is not. -/
def isOption (word : String) : Bool := word.startsWith "-" && word != "-"

/-- The file named by a word that joins the option and its value. -/
def joinedSettingsFile? (word : String) : Option String :=
  if word.startsWith "--config=" then some (word.drop "--config=".length).toString else none

/-- Sort words. After two hyphens every word is an operand, and no option may be repeated. -/
def Words.ofList? : List String → Option Words
  | [] => some {}
  | "--" :: operands => some { operands := operands }
  | ["--config"] => none
  | "--config" :: file :: rest => do
    if isOption file then none
    let words ← Words.ofList? rest
    if words.settingsFile.isSome then none
    return { words with settingsFile := some file }
  | word :: rest => do
    let words ← Words.ofList? rest
    match word with
    | "--jit" =>
      if words.options.compiling then none
      else some { words with options := { words.options with compiling := true } }
    | "--stats" =>
      if words.options.statistics then none
      else some { words with options := { words.options with statistics := true } }
    | "--meter" =>
      if words.options.metering then none
      else some { words with options := { words.options with metering := true } }
    | word =>
      match joinedSettingsFile? word with
      | some file =>
        if words.settingsFile.isSome then none
        else some { words with settingsFile := some file }
      | none =>
        if isOption word then none else some { words with operands := word :: words.operands }

/-- The command with a name, after which the given words stand. -/
def command? (name : String) (words : Words) : Option Command :=
  match name, words.operands with
  | "run", file :: arguments => some (.run file words.options arguments)
  | "disasm", [file] => if words.options = {} then some (.list file) else none
  | "compile", [file] => if words.options = {} then some (.compile file) else none
  | "info", [] => if words.options = {} then some .info else none
  | _, _ => none

/-- Whether a word asks for help. -/
def asksForHelp (word : String) : Bool := word == "--help" || word == "-h"

/-- The command line that starts with a command; a settings file named before the command gives
way to one named after it. Words that ask for help keep the command from being carried out. -/
def ofCommand? (settingsFile : Option String) : List String → Option CommandLine
  | [] => none
  | ["help"] => some { command := .help .program }
  | ["help", name] => (HelpSubject.ofName? name).map fun subject => { command := .help subject }
  | name :: rest =>
    if (rest.takeWhile (· != "--")).any asksForHelp then
      (HelpSubject.ofName? name).map fun subject => { command := .help subject }
    else do
      let words ← Words.ofList? rest
      return ⟨words.settingsFile <|> settingsFile, ← command? name words⟩

/-- The command line that some words spell, after one settings file at most. -/
def parseAfter? (settingsFile : Option String) : List String → Option CommandLine
  | [] => none
  | "--config" :: file :: rest =>
    if isOption file || settingsFile.isSome then none else parseAfter? (some file) rest
  | word :: rest =>
    if word = "--version" ∨ word = "-V" then some { command := .version }
    else if asksForHelp word then some { command := .help .program }
    else
      match joinedSettingsFile? word with
      | some file => if settingsFile.isSome then none else parseAfter? (some file) rest
      | none => ofCommand? settingsFile (word :: rest)

/-- The command line that some words spell. -/
def parse? (words : List String) : Option CommandLine := parseAfter? none words

/-- The program file that a command reads. -/
def programFile? (line : CommandLine) : Option String :=
  match line.command with
  | .run file _ _ | .list file | .compile file => some file
  | .info | .version | .help _ => none

/-- The files that a command line reads. -/
def files (line : CommandLine) : List String :=
  line.settingsFile.toList ++ line.programFile?.toList

end CommandLine

/-! ### Executing commands -/

/-- What a command finds around it. -/
structure Surroundings where
  /-- What reading a file gives. -/
  read : String → Except ReadError String
  environment : List (String × String)
  /-- The name of the host. -/
  host : String
  /-- How the size of native code is shown on this host. -/
  nativeSize : String

/-- What a command prints and the code that it exits with. -/
structure Outcome where
  exitCode : UInt32
  output : String := ""
  errors : String := ""
  deriving DecidableEq

namespace Outcome

/-- Everything went well. -/
def success (output : String) : Outcome := { exitCode := 0, output := output }

/-- The command cannot be carried out. -/
def failure (message : String) : Outcome :=
  { exitCode := 1, errors := s!"Error: {message}\n" }

/-- The command line is none. -/
def usage : Outcome :=
  { exitCode := 2
    errors := "error: invalid command line\n\nUsage: bytevm [OPTIONS] <COMMAND>\n" }

end Outcome

/-- The name and the version of the program. -/
def versionText : String := "bytevm 0.1.0"

/-- How many opcodes the report of a metered run shows. -/
def maxMeterLines : Nat := 10

namespace Surroundings

/-- The settings of a command: those of its file, if it names one, and the environment. -/
def settings (surroundings : Surroundings) (file : Option String) : Except String Settings := do
  let settings ← match file with
    | none => .ok {}
    | some path =>
      match surroundings.read path with
      | .error reason => throw s!"cannot read config: {reason.message}"
      | .ok text =>
        match Settings.ofText text with
        | .ok settings => .ok settings
        | .error _ => throw "invalid config"
  match settings.override surroundings.environment with
  | .ok settings => return settings
  | .error (.notBoolean name value) => throw (notBooleanMessage name value)
  | .error .malformed => throw "invalid config"

/-- The machine with the program of a file loaded, and the index of its function. -/
def load (surroundings : Surroundings) (machine : Machine) (file : String) :
    Except String (Nat × Machine) :=
  match surroundings.read file with
  | .error reason => .error s!"{file}: cannot read program: {reason.message}"
  | .ok text =>
    match (Loader.buildText text).run machine with
    | .ok (.ok function) machine =>
      .ok (machine.functions.size, { machine with functions := machine.functions.push function })
    | .ok (.error reason) _ => .error s!"{file}: {reason.message}"
    | .error _ _ => .error s!"{file}: {LoadError.malformed.message}"

end Surroundings

/-- An argument of a program: an integer if it is spelled as one that fits, otherwise a string. -/
def Engine.programArgument (text : String) : Engine Value :=
  match (parseInteger? text.toList).bind Value.ofInt? with
  | some value => pure value
  | none => Storage.makeString text

namespace Machine

/-- The report of what a run counted. -/
def statisticsReport (machine : Machine) (nativeSize : String) : String :=
  let calls :=
    s!"stats: interpreted {machine.interpretedCalls}, native {machine.compiledCalls}\n"
  match machine.compiler with
  | none => calls
  | some state =>
    calls ++ s!"jit: compiled {state.compiled}, failed {state.failed}, {nativeSize} bytes\n"

/-- The report of the most frequent opcodes, empty when they were not counted. -/
def meterReport (machine : Machine) : String :=
  match machine.meter with
  | none => ""
  | some meter =>
    String.join ((meter.hottest.take maxMeterLines).map fun (opcode, count) =>
      s!"meter: {octal opcode.toNat} x{count}\n")

/-- What is told of the end of a command by a signal, or by a run that used something up. -/
def stopReport (machine : Machine) (stop : Stop Signal) (file : String) : String :=
  match stop with
  | .signal signal => machine.report signal (some file)
  | .exhausted .rounds => "Fatal Error: the run is too long\n"
  | .exhausted .sizes => "Fatal Error: there is no room for the stack\n"

/-- Run the loaded function. -/
def runCommand (machine : Machine) (id : Nat) (file : String) (options : RunOptions)
    (arguments : List String) (nativeSize : String) : Outcome :=
  let action : Engine Value := do
    if options.compiling then Engine.setCompiling true
    if options.metering then Engine.setMetering true
    let arguments ← arguments.mapM Engine.programArgument
    Engine.invoke .standard id arguments
  let reports (machine : Machine) : String :=
    (if options.statistics then machine.statisticsReport nativeSize else "") ++
      machine.meterReport
  match action machine with
  | .ok value machine =>
    { exitCode := 0
      output := machine.output ++ machine.printed value ++ "\n"
      errors := reports machine }
  | .error stop machine =>
    { exitCode := 1
      output := machine.output
      errors := reports machine ++ machine.stopReport stop file }

/-- Compile the loaded function. -/
def compileCommand (machine : Machine) (id : Nat) (file nativeSize : String) : Outcome :=
  match Engine.compile id machine with
  | .ok _ machine =>
    let name := (machine.functions.getD id default).displayName
    .success s!"compiled {name} -> {nativeSize} bytes of native code\n"
  | .error stop machine => { exitCode := 1, errors := machine.stopReport stop file }

/-- Tell about the host and the settings. -/
def infoCommand (machine : Machine) (host : String) : Outcome :=
  let level := machine.settings.optimization.name
  let safe := if machine.settings.safeStack then "true" else "false"
  .success (s!"{versionText}\nhost: {host}\njit: available (opt level {level})\n" ++
    s!"safe stack checks: {safe}\n")

end Machine

namespace CommandLine

/-- Load a program file and go on with its function. -/
def withProgram (surroundings : Surroundings) (machine : Machine) (file : String)
    (proceed : Machine → Nat → Outcome) : Outcome :=
  match surroundings.load machine file with
  | .ok (id, machine) => proceed machine id
  | .error message => .failure message

/-- What a command does with a machine that has the settings of the command line. -/
def carryOut (command : Command) (surroundings : Surroundings) (machine : Machine) : Outcome :=
  match command with
  | .run file options arguments =>
    withProgram surroundings machine file fun machine id =>
      machine.runCommand id file options arguments surroundings.nativeSize
  | .list file =>
    withProgram surroundings machine file fun machine id =>
      .success (machine.listing (machine.functions.getD id default))
  | .compile file =>
    withProgram surroundings machine file fun machine id =>
      machine.compileCommand id file surroundings.nativeSize
  | .info => machine.infoCommand surroundings.host
  | .version => .success s!"{versionText}\n"
  | .help subject => .success subject.help

/-- What a command line does. The version and help need no settings. -/
def execute (line : CommandLine) (surroundings : Surroundings) : Outcome :=
  match line.command with
  | .version | .help _ => carryOut line.command surroundings (Machine.initial {})
  | _ =>
    match surroundings.settings line.settingsFile with
    | .error message => .failure message
    | .ok settings => carryOut line.command surroundings (Machine.initial settings)

/-- What the words of a command line do. -/
def executeWords (words : List String) (surroundings : Surroundings) : Outcome :=
  match parse? words with
  | some line => line.execute surroundings
  | none => .usage

end CommandLine

end LispMachine
