/-!
The help of the command line: what each command does and takes, laid out in columns.
-/

set_option autoImplicit false

namespace LispMachine

/-- A line of help: what can be written, and what it means. -/
structure HelpEntry where
  label : String
  meaning : String

/-- The commands that help can be asked about. -/
inductive HelpSubject where
  | program
  | run
  | list
  | compile
  | info
  deriving DecidableEq

namespace HelpSubject

/-- The command with a name. -/
def ofName? : String → Option HelpSubject
  | "run" => some .run
  | "disasm" => some .list
  | "compile" => some .compile
  | "info" => some .info
  | _ => none

/-- What the command does. -/
def purpose : HelpSubject → String
  | .program => "bytevm: bytecode interpreter and JIT"
  | .run => "Run a program file and print its result"
  | .list => "Print a disassembly of a program file"
  | .compile => "Compile a program file and report the native code size"
  | .info => "Show the host target and whether native compilation is available"

/-- How the command is written. -/
def usage : HelpSubject → String
  | .program => "bytevm [OPTIONS] <COMMAND>"
  | .run => "bytevm run [OPTIONS] <FILE> [ARGS]..."
  | .list => "bytevm disasm [OPTIONS] <FILE>"
  | .compile => "bytevm compile [OPTIONS] <FILE>"
  | .info => "bytevm info [OPTIONS]"

/-- The commands of the program. -/
def commands : HelpSubject → List HelpEntry
  | .program =>
    [⟨"run", purpose .run⟩, ⟨"disasm", purpose .list⟩, ⟨"compile", purpose .compile⟩,
      ⟨"info", purpose .info⟩,
      ⟨"help", "Print this message or the help of the given subcommand(s)"⟩]
  | _ => []

/-- The operands of the command. -/
def operands : HelpSubject → List HelpEntry
  | .run =>
    [⟨"<FILE>", "Path to the JSON program file"⟩,
      ⟨"[ARGS]...", "Arguments passed to the program (integers, otherwise strings)"⟩]
  | .list | .compile => [⟨"<FILE>", ""⟩]
  | .program | .info => []

/-- The options of the command. -/
def options (subject : HelpSubject) : List HelpEntry :=
  let own : List HelpEntry :=
    match subject with
    | .run =>
      [⟨"    --jit", "Compile to native code before running"⟩,
        ⟨"    --stats", "Print execution counters after the run"⟩,
        ⟨"    --meter", "Count interpreted opcodes and print the hottest ones"⟩]
    | _ => []
  let version : List HelpEntry :=
    if subject = .program then [⟨"-V, --version", "Print version"⟩] else []
  [⟨"    --config <CONFIG>", "Engine configuration file (TOML)"⟩] ++ own ++
    [⟨"-h, --help", "Print help"⟩] ++ version

/-- A titled list of entries, whose meanings stand in one column; nothing without entries. -/
def titled (title : String) (entries : List HelpEntry) : String :=
  if entries.isEmpty then ""
  else
    let width := entries.foldl (fun width entry => max width entry.label.length) 0
    let lines := entries.map fun entry =>
      let blanks := String.ofList (List.replicate (width - entry.label.length + 2) ' ')
      s!"  {entry.label}{blanks}{entry.meaning}\n"
    s!"\n{title}:\n" ++ String.join lines

/-- The help about the command. -/
def help (subject : HelpSubject) : String :=
  s!"{purpose subject}\n\nUsage: {usage subject}\n" ++ titled "Commands" subject.commands ++
    titled "Arguments" subject.operands ++ titled "Options" subject.options

end HelpSubject

end LispMachine
