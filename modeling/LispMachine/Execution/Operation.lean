import LispMachine.Instruction.Operation
import LispMachine.Primitive.Action
import LispMachine.Primitive.Arithmetic
import LispMachine.Primitive.Control
import LispMachine.Primitive.Data
import LispMachine.Primitive.Editing
import LispMachine.Primitive.Matching
import LispMachine.Primitive.Sequence

/-!
What the one-byte operations do with their operands, which come in the order in which they were
pushed. Tests of identity and arithmetic that stays among fixnums need nothing but the operands
(`Operation.shortcut?`); everything else is done as by a primitive (`Operation.action`).
-/

set_option autoImplicit false

namespace LispMachine

namespace Operation

/-- The result that the operands alone determine, for an operation on one fixnum. -/
def fixnumShortcut? (operation : Operation) (a : Int) : Option Value :=
  match operation with
  | .addOne => Value.ofInt? (a + 1)
  | .subtractOne => Value.ofInt? (a - 1)
  | .negate => Value.ofInt? (-a)
  | _ => none

/-- The result that the operands alone determine, for an operation on two fixnums. -/
def fixnumsShortcut? (operation : Operation) (a b : Int) : Option Value :=
  match operation with
  | .plus => Value.ofInt? (a + b)
  | .difference => Value.ofInt? (a - b)
  | .numEqual => some (.ofBool (a == b))
  | .greater => some (.ofBool (b < a))
  | .less => some (.ofBool (a < b))
  | .lessOrEqual => some (.ofBool (a ≤ b))
  | .greaterOrEqual => some (.ofBool (b ≤ a))
  | _ => none

/-- The result that the operands alone determine, if they do. -/
def shortcut? (operation : Operation) (operands : List Value) : Option Value :=
  match operation, operands with
  | .same, [a, b] => some (.ofBool (a == b))
  | .isNull, [a] => some (.ofBool a.isNil)
  | operation, [.fixnum a] => operation.fixnumShortcut? a
  | operation, [.fixnum a, .fixnum b] => operation.fixnumsShortcut? a b
  | _, _ => none

/-- What an operation does with its operands. -/
def action : Operation → PrimitiveAction
  | .nth => .storing (binary Storage.nth)
  | .symbolp => .storing (unary Storage.symbolp)
  | .consp => .storing (unary Storage.consp)
  | .stringp => .storing (unary Storage.stringp)
  | .listp => .storing (unary Storage.listp)
  | .same => .storing (binary Storage.eq)
  | .memqTail => .storing (binary Storage.memq)
  | .isNull => .storing (unary Storage.null)
  | .car => .storing (unary Storage.car)
  | .cdr => .storing (unary Storage.cdr)
  | .cons => .storing (binary Storage.cons)
  | .listOne | .listTwo | .listThree | .listFour => .storing Storage.list
  | .length => .storing (unary Storage.length)
  | .aref => .storing (binary Storage.aref)
  | .aset => .storing (ternary Storage.aset)
  | .symbolValue => .storing (unary Storage.symbolValue)
  | .symbolFunction => .storing (unary Storage.symbolFunction)
  | .setValue => .storing (binary Storage.setVariable)
  | .setFunction => .storing (binary Storage.setFunction)
  | .getProperty => .storing (binary Storage.getProperty)
  | .substring => .storing (ternary Storage.substring)
  | .concatTwo | .concatThree | .concatFour => .storing Storage.concat
  | .subtractOne => .storing (unary Storage.subtractOne)
  | .addOne => .storing (unary Storage.addOne)
  | .numEqual => .storing Storage.numbersEqual
  | .greater => .storing Storage.greater
  | .less => .storing Storage.less
  | .lessOrEqual => .storing Storage.lessOrEqual
  | .greaterOrEqual => .storing Storage.greaterOrEqual
  | .difference | .negate => .storing Storage.minus
  | .plus => .storing Storage.plus
  | .maximum => .storing Storage.maximum
  | .minimum => .storing Storage.minimum
  | .multiply => .storing Storage.times
  | .pointPosition => .storing fun _ => Storage.point
  | .saveCurrentBuffer | .saveCurrentBufferAgain => .running fun _ _ => Engine.saveCurrentBuffer
  | .gotoChar => .storing (unary Storage.gotoChar)
  | .insertText => .storing Storage.insert
  | .pointMax => .storing fun _ => Storage.pointMax
  | .pointMin => .storing fun _ => Storage.pointMin
  | .charAfter => .storing (unary Storage.charAfter)
  | .followingChar => .storing fun _ => Storage.followingChar
  | .precedingChar => .storing fun _ => Storage.precedingChar
  | .currentColumn => .storing fun _ => Storage.currentColumn
  | .indentTo => .storing (binary Storage.indentTo)
  | .eolp => .storing fun _ => Storage.atLineEnd
  | .eobp => .storing fun _ => Storage.atBufferEnd
  | .bolp => .storing fun _ => Storage.atLineStart
  | .bobp => .storing fun _ => Storage.atBufferStart
  | .currentBuffer => .storing fun _ => Storage.currentBufferObject
  | .setBuffer => .storing (unary Storage.setBuffer)
  | .interactiveP => .running fun caller _ => caller.apply Symbols.interactiveP []
  | .forwardChar => .storing (unary Storage.forwardChar)
  | .forwardWord => .storing (unary Storage.forwardWord)
  | .skipCharsForward => .storing (binary Storage.skipCharsForward)
  | .skipCharsBackward => .storing (binary Storage.skipCharsBackward)
  | .forwardLine => .storing (unary Storage.forwardLine)
  | .charSyntax => .storing (unary Storage.charSyntax)
  | .bufferSubstring => .storing (binary Storage.bufferSubstring)
  | .deleteRegion => .storing (binary Storage.deleteRegion)
  | .narrowToRegion => .storing (binary Storage.narrowToRegion)
  | .widen => .storing fun _ => Storage.widen
  | .endOfLine => .storing (unary Storage.endOfLine)
  | .saveExcursion => .running fun _ _ => Engine.saveExcursion
  | .saveWindowExcursion => .running fun caller => unary (Engine.progn caller)
  | .saveRestriction => .running fun _ _ => Engine.saveRestriction
  | .catchForm => .running fun caller => binary (Engine.catchForm caller)
  | .unwindProtect => .running fun _ => unary Engine.unwindProtect
  | .conditionCase => .running fun caller => ternary (Engine.conditionCase caller)
  | .tempOutputBufferSetup => .running fun _ => unary Engine.openOutputBuffer
  | .tempOutputBufferShow =>
    .running fun caller operands => Engine.closeOutputBuffer caller (argument operands 1)
  | .setMarker => .storing (ternary Storage.placeMarker)
  | .matchBeginning => .storing (unary Storage.matchBeginning)
  | .matchEnd => .storing (unary Storage.matchEnd)
  | .upcase => .storing (unary Storage.upcase)
  | .downcase => .storing (unary Storage.downcase)
  | .stringEqual => .storing (binary Storage.stringEqual)
  | .stringLess => .storing (binary Storage.stringLess)
  | .equal => .storing (binary Storage.equal)
  | .nthcdr => .storing (binary Storage.nthcdr)
  | .elt => .storing (binary Storage.elt)
  | .memberTail => .storing (binary Storage.member)
  | .assq => .storing (binary Storage.assq)
  | .nreverse => .storing (unary Storage.nreverse)
  | .setcar => .storing (binary Storage.setCar)
  | .setcdr => .storing (binary Storage.setCdr)
  | .carSafe => .storing (unary Storage.carSafe)
  | .cdrSafe => .storing (unary Storage.cdrSafe)
  | .nconc => .storing Storage.nconc
  | .quotient => .storing Storage.quotient
  | .remainder => .storing (binary Storage.remainder)
  | .numberp => .storing (unary Storage.numberp)
  | .integerp => .storing (unary Storage.integerp)

/-- Do an operation with its operands, by its shortcut if it has one. -/
def perform (operation : Operation) (caller : Caller) (operands : List Value) : Engine Value :=
  match operation.shortcut? operands with
  | some value => pure value
  | none => operation.action.run caller operands

end Operation

end LispMachine
