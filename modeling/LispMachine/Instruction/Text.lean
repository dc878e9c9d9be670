import LispMachine.Instruction.Basic

/-!
The text of an instruction in listings: its mnemonic and its operand. Indices into the constant
pool stand in brackets and targets after an arrow; relative branches are marked `BR`.
-/

set_option autoImplicit false

namespace LispMachine

def BranchKind.mnemonic : BranchKind → String
  | .goto => "goto"
  | .ifNil => "goto-if-nil"
  | .ifNotNil => "goto-if-not-nil"
  | .ifNilElsePop => "goto-if-nil-else-pop"
  | .ifNotNilElsePop => "goto-if-not-nil-else-pop"

/-- The instruction as a line of a listing shows it. -/
def Instruction.text : Instruction → String
  | .stackRef n => s!"stack-ref {n}"
  | .varRef n => s!"varref [{n}]"
  | .varSet n => s!"varset [{n}]"
  | .varBind n => s!"varbind [{n}]"
  | .call n => s!"call {n}"
  | .unbind n => s!"unbind {n}"
  | .popHandler => "pophandler"
  | .pushHandler .catching target => s!"pushcatch -> {target}"
  | .pushHandler .conditionCase target => s!"pushconditioncase -> {target}"
  | .constant n => s!"constant [{n}]"
  | .branch kind .absolute target => s!"{kind.mnemonic} -> {target}"
  | .branch kind .relative target => s!"BR{kind.mnemonic} -> {target}"
  | .ret => "return"
  | .discard => "discard"
  | .dup => "dup"
  | .unbindAll => "unbind-all"
  | .listN n => s!"listN {n}"
  | .concatN n => s!"concatN {n}"
  | .insertN n => s!"insertN {n}"
  | .stackSet n => s!"stack-set {n}"
  | .discardN count true => s!"discardN-preserve-tos {count}"
  | .discardN count false => s!"discardN {count}"
  | .operation op => op.mnemonic

end LispMachine
