/-!
Faults: the ways in which running code can break the engine itself. A fault ends the run and no
handler may intercept it. Each fault is a cause with its facts, and `Fault.message` is the one
place where a cause is put into words.
-/

set_option autoImplicit false

namespace LispMachine

/-- What went wrong, with the facts that describe it. -/
inductive Fault where
  /-- A byte that starts no instruction. -/
  | invalidOpcode (opcode : UInt8) (offset : Nat)
  /-- The code ends before the instruction's operand does. -/
  | truncatedOperand (opcode : UInt8) (offset : Nat)
  | branchOutOfRange (offset : Nat) (target : Int)
  | stackOverflow (limit : Nat)
  | stackUnderflow (depth needed : Nat)
  | constantIndex (index size : Nat)
  | fellOffEnd (name : String)
  /-- A function returned with more (or fewer) bindings than it entered with. -/
  | bindingImbalance (name : String) (delta : Int)
  | handlerImbalance (name : String) (leaked : Nat)
  /-- Compilation met a jump into the middle of an instruction. -/
  | misplacedTarget (name : String) (target : Nat)
  | notCompiled (name : String)
  /-- Native code was left with nothing to tell why. -/
  | lostSignal
  /-- A frame was asked to resume at a handler that it did not push. -/
  | foreignHandler
  deriving DecidableEq

/-- An octal numeral with its mark, as opcodes are written. -/
def octal (n : Nat) : String := "0o" ++ String.ofList (Nat.toDigits 8 n)

/-- The fault in words. -/
def Fault.message : Fault → String
  | .invalidOpcode opcode offset => s!"invalid opcode {octal opcode.toNat} at offset {offset}"
  | .truncatedOperand opcode offset =>
    s!"truncated operand for opcode {octal opcode.toNat} at offset {offset}"
  | .branchOutOfRange offset target =>
    s!"branch at offset {offset} targets {target}, outside the code"
  | .stackOverflow limit => s!"operand stack overflow (max depth {limit})"
  | .stackUnderflow depth needed =>
    s!"operand stack underflow (depth {depth}, needed {needed})"
  | .constantIndex index size => s!"constant index {index} out of range (pool holds {size})"
  | .fellOffEnd name => s!"execution fell off the end of {name}"
  | .bindingImbalance name delta => s!"{name} exited with its binding stack off by {delta}"
  | .handlerImbalance name leaked => s!"{name} left {leaked} handler(s) on exit"
  | .misplacedTarget name target =>
    s!"code generation failed: {name}: jump target {target} is not an instruction boundary"
  | .notCompiled name => s!"{name} has no compiled code"
  | .lostSignal => "code generation failed: native code unwound without a pending signal"
  | .foreignHandler => "signal resumed in a frame that does not own the handler"

end LispMachine
