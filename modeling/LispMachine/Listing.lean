import LispMachine.Instruction.Decode
import LispMachine.Instruction.Text
import LispMachine.Machine
import LispMachine.Printing

/-!
Listings of functions: a heading, the constants, and one line for each instruction, with a label
before every instruction that a jump goes to and the constant after every instruction that names
one. The functions among the constants are listed behind, indented. A listing stops at the first
byte that starts no instruction.
-/

set_option autoImplicit false

namespace LispMachine

/-- What a line of a listing is about: an instruction, or the fault that ends the listing. -/
structure ListedLine where
  offset : Nat
  content : Except Fault Instruction

/-- The instructions from an offset on, up to the first fault. -/
def Code.listedFrom (code : Code) : Nat → Nat → List ListedLine
  | 0, _ => []
  | steps + 1, offset =>
    if offset < code.size then
      match code.decode offset with
      | .ok (instruction, next) => ⟨offset, .ok instruction⟩ :: code.listedFrom steps next
      | .error fault => [⟨offset, .error fault⟩]
    else []

/-- The instructions of a code string in order. -/
def Code.listed (code : Code) : List ListedLine := code.listedFrom code.size 0

/-- A number in a column six characters wide. -/
def column (n : Nat) : String :=
  let digits := toString n
  String.ofList (List.replicate (6 - digits.length) ' ') ++ digits

/-- The place in the pool of the constant that an instruction names. -/
def Instruction.constantIndex? : Instruction → Option Nat
  | .constant index | .varRef index | .varSet index | .varBind index => some index
  | _ => none

namespace Machine

/-- The remark after an instruction: the constant that it names. -/
def remark (machine : Machine) (function : Function) (instruction : Instruction) : String :=
  match instruction.constantIndex? with
  | none => ""
  | some index =>
    match function.constants[index]? with
    | some value => s!"\t; {machine.printed value}"
    | none => "\t; <no such constant>"

/-- The lines of a function's instructions. -/
def instructionLines (machine : Machine) (function : Function) : List String :=
  let listed := function.code.listed
  let targets := listed.filterMap fun line =>
    match line.content with
    | .ok instruction => instruction.target?
    | .error _ => none
  listed.flatMap fun line =>
    let label := if targets.contains line.offset then [s!"L{line.offset}:"] else []
    let text := match line.content with
      | .ok instruction => instruction.text ++ machine.remark function instruction
      | .error fault => s!"<{fault.message}>"
    label ++ [s!"{column line.offset}  {text}"]

/-- How the parameters are shown in a heading. -/
def parameterText (machine : Machine) : Parameters → String
  | .template template =>
    let rest := if template.rest then " &rest" else ""
    s!"args {template.mandatory}..{template.positional}{rest}"
  | .dynamic symbols =>
    let names := String.intercalate " " (symbols.map machine.printed)
    s!"params ({names})"

/-- The listing of a function, indented by `nesting` levels; functions inside functions are listed
`levels` deep. -/
def listingWithin (machine : Machine) : Nat → Nat → Function → String
  | levels, nesting, function =>
    let indent := String.ofList (List.replicate (4 * nesting) ' ')
    let heading := s!"{function.displayName}: {function.code.size} bytes, " ++
      s!"maxdepth {function.maxDepth}, {machine.parameterText function.parameters}"
    let constants := function.constants.toList.zipIdx.map fun (value, index) =>
      s!"  [{index}] {machine.printed value}"
    let lines := (heading :: constants ++ machine.instructionLines function).map fun line =>
      indent ++ line ++ "\n"
    let inner := function.constants.toList.map fun value =>
      match levels, machine.heap.get? value with
      | deeper + 1, some (.function id _) =>
        "\n" ++ listingWithin machine deeper (nesting + 1) (machine.functions.getD id default)
      | _, _ => ""
    String.join lines ++ String.join inner

/-- The listing of a function. Functions inside each other are fewer than the machine has. -/
def listing (machine : Machine) (function : Function) : String :=
  machine.listingWithin machine.functions.size 0 function

end Machine

end LispMachine
