/-!
The one-byte operations: opcodes whose whole effect is to take some operands off the stack, do
one thing with them and perhaps push a result. The facts of each operation (its byte, how many
operands it takes, whether it pushes, and its name in listings) stand in one table,
`Operation.facts`; reading a byte back (`Operation.ofByte?`) searches that same table, so the
two directions cannot disagree.
-/

set_option autoImplicit false

namespace LispMachine

/-- The operations that one byte names. -/
inductive Operation where
  | nth | symbolp | consp | stringp | listp | same | memqTail | isNull | car | cdr | cons
  | listOne | listTwo | listThree | listFour | length | aref | aset | symbolValue
  | symbolFunction | setValue | setFunction | getProperty | substring | concatTwo | concatThree
  | concatFour | subtractOne | addOne | numEqual | greater | less | lessOrEqual
  | greaterOrEqual | difference | negate | plus | maximum | minimum | multiply | pointPosition
  | saveCurrentBuffer | gotoChar | insertText | pointMax | pointMin | charAfter | followingChar
  | precedingChar | currentColumn | indentTo | eolp | eobp | bolp | bobp | currentBuffer
  | setBuffer | saveCurrentBufferAgain | interactiveP | forwardChar | forwardWord
  | skipCharsForward | skipCharsBackward | forwardLine | charSyntax | bufferSubstring
  | deleteRegion | narrowToRegion | widen | endOfLine | saveExcursion | saveWindowExcursion
  | saveRestriction | catchForm | unwindProtect | conditionCase | tempOutputBufferSetup
  | tempOutputBufferShow | setMarker | matchBeginning | matchEnd | upcase | downcase
  | stringEqual | stringLess | equal | nthcdr | elt | memberTail | assq | nreverse | setcar
  | setcdr | carSafe | cdrSafe | nconc | quotient | remainder | numberp | integerp
  deriving DecidableEq

namespace Operation

/-- What is fixed about an operation. -/
structure Facts where
  /-- The byte that names the operation. -/
  opcode : UInt8
  /-- How many operands it takes off the stack. -/
  operands : Nat
  /-- Whether it pushes its result. -/
  pushes : Bool
  mnemonic : String

/-- The table of operations. -/
def facts : Operation → Facts
  | .nth => ⟨0o70, 2, true, "nth"⟩
  | .symbolp => ⟨0o71, 1, true, "symbolp"⟩
  | .consp => ⟨0o72, 1, true, "consp"⟩
  | .stringp => ⟨0o73, 1, true, "stringp"⟩
  | .listp => ⟨0o74, 1, true, "listp"⟩
  | .same => ⟨0o75, 2, true, "eq"⟩
  | .memqTail => ⟨0o76, 2, true, "memq"⟩
  | .isNull => ⟨0o77, 1, true, "not"⟩
  | .car => ⟨0o100, 1, true, "car"⟩
  | .cdr => ⟨0o101, 1, true, "cdr"⟩
  | .cons => ⟨0o102, 2, true, "cons"⟩
  | .listOne => ⟨0o103, 1, true, "list1"⟩
  | .listTwo => ⟨0o104, 2, true, "list2"⟩
  | .listThree => ⟨0o105, 3, true, "list3"⟩
  | .listFour => ⟨0o106, 4, true, "list4"⟩
  | .length => ⟨0o107, 1, true, "length"⟩
  | .aref => ⟨0o110, 2, true, "aref"⟩
  | .aset => ⟨0o111, 3, true, "aset"⟩
  | .symbolValue => ⟨0o112, 1, true, "symbol-value"⟩
  | .symbolFunction => ⟨0o113, 1, true, "symbol-function"⟩
  | .setValue => ⟨0o114, 2, true, "set"⟩
  | .setFunction => ⟨0o115, 2, true, "fset"⟩
  | .getProperty => ⟨0o116, 2, true, "get"⟩
  | .substring => ⟨0o117, 3, true, "substring"⟩
  | .concatTwo => ⟨0o120, 2, true, "concat2"⟩
  | .concatThree => ⟨0o121, 3, true, "concat3"⟩
  | .concatFour => ⟨0o122, 4, true, "concat4"⟩
  | .subtractOne => ⟨0o123, 1, true, "sub1"⟩
  | .addOne => ⟨0o124, 1, true, "add1"⟩
  | .numEqual => ⟨0o125, 2, true, "eqlsign"⟩
  | .greater => ⟨0o126, 2, true, "gtr"⟩
  | .less => ⟨0o127, 2, true, "lss"⟩
  | .lessOrEqual => ⟨0o130, 2, true, "leq"⟩
  | .greaterOrEqual => ⟨0o131, 2, true, "geq"⟩
  | .difference => ⟨0o132, 2, true, "diff"⟩
  | .negate => ⟨0o133, 1, true, "negate"⟩
  | .plus => ⟨0o134, 2, true, "plus"⟩
  | .maximum => ⟨0o135, 2, true, "max"⟩
  | .minimum => ⟨0o136, 2, true, "min"⟩
  | .multiply => ⟨0o137, 2, true, "mult"⟩
  | .pointPosition => ⟨0o140, 0, true, "point"⟩
  | .saveCurrentBuffer => ⟨0o141, 0, false, "save-current-buffer"⟩
  | .gotoChar => ⟨0o142, 1, true, "goto-char"⟩
  | .insertText => ⟨0o143, 1, true, "insert"⟩
  | .pointMax => ⟨0o144, 0, true, "point-max"⟩
  | .pointMin => ⟨0o145, 0, true, "point-min"⟩
  | .charAfter => ⟨0o146, 1, true, "char-after"⟩
  | .followingChar => ⟨0o147, 0, true, "following-char"⟩
  | .precedingChar => ⟨0o150, 0, true, "preceding-char"⟩
  | .currentColumn => ⟨0o151, 0, true, "current-column"⟩
  | .indentTo => ⟨0o152, 1, true, "indent-to"⟩
  | .eolp => ⟨0o154, 0, true, "eolp"⟩
  | .eobp => ⟨0o155, 0, true, "eobp"⟩
  | .bolp => ⟨0o156, 0, true, "bolp"⟩
  | .bobp => ⟨0o157, 0, true, "bobp"⟩
  | .currentBuffer => ⟨0o160, 0, true, "current-buffer"⟩
  | .setBuffer => ⟨0o161, 1, true, "set-buffer"⟩
  | .saveCurrentBufferAgain => ⟨0o162, 0, false, "save-current-buffer-1"⟩
  | .interactiveP => ⟨0o164, 0, true, "interactive-p"⟩
  | .forwardChar => ⟨0o165, 1, true, "forward-char"⟩
  | .forwardWord => ⟨0o166, 1, true, "forward-word"⟩
  | .skipCharsForward => ⟨0o167, 2, true, "skip-chars-forward"⟩
  | .skipCharsBackward => ⟨0o170, 2, true, "skip-chars-backward"⟩
  | .forwardLine => ⟨0o171, 1, true, "forward-line"⟩
  | .charSyntax => ⟨0o172, 1, true, "char-syntax"⟩
  | .bufferSubstring => ⟨0o173, 2, true, "buffer-substring"⟩
  | .deleteRegion => ⟨0o174, 2, true, "delete-region"⟩
  | .narrowToRegion => ⟨0o175, 2, true, "narrow-to-region"⟩
  | .widen => ⟨0o176, 0, true, "widen"⟩
  | .endOfLine => ⟨0o177, 1, true, "end-of-line"⟩
  | .saveExcursion => ⟨0o212, 0, false, "save-excursion"⟩
  | .saveWindowExcursion => ⟨0o213, 1, true, "save-window-excursion"⟩
  | .saveRestriction => ⟨0o214, 0, false, "save-restriction"⟩
  | .catchForm => ⟨0o215, 2, true, "catch"⟩
  | .unwindProtect => ⟨0o216, 1, false, "unwind-protect"⟩
  | .conditionCase => ⟨0o217, 3, true, "condition-case"⟩
  | .tempOutputBufferSetup => ⟨0o220, 1, true, "temp-output-buffer-setup"⟩
  | .tempOutputBufferShow => ⟨0o221, 2, true, "temp-output-buffer-show"⟩
  | .setMarker => ⟨0o223, 3, true, "set-marker"⟩
  | .matchBeginning => ⟨0o224, 1, true, "match-beginning"⟩
  | .matchEnd => ⟨0o225, 1, true, "match-end"⟩
  | .upcase => ⟨0o226, 1, true, "upcase"⟩
  | .downcase => ⟨0o227, 1, true, "downcase"⟩
  | .stringEqual => ⟨0o230, 2, true, "string="⟩
  | .stringLess => ⟨0o231, 2, true, "string<"⟩
  | .equal => ⟨0o232, 2, true, "equal"⟩
  | .nthcdr => ⟨0o233, 2, true, "nthcdr"⟩
  | .elt => ⟨0o234, 2, true, "elt"⟩
  | .memberTail => ⟨0o235, 2, true, "member"⟩
  | .assq => ⟨0o236, 2, true, "assq"⟩
  | .nreverse => ⟨0o237, 1, true, "nreverse"⟩
  | .setcar => ⟨0o240, 2, true, "setcar"⟩
  | .setcdr => ⟨0o241, 2, true, "setcdr"⟩
  | .carSafe => ⟨0o242, 1, true, "car-safe"⟩
  | .cdrSafe => ⟨0o243, 1, true, "cdr-safe"⟩
  | .nconc => ⟨0o244, 2, true, "nconc"⟩
  | .quotient => ⟨0o245, 2, true, "quo"⟩
  | .remainder => ⟨0o246, 2, true, "rem"⟩
  | .numberp => ⟨0o247, 1, true, "numberp"⟩
  | .integerp => ⟨0o250, 1, true, "integerp"⟩

def opcode (operation : Operation) : UInt8 := operation.facts.opcode

def operands (operation : Operation) : Nat := operation.facts.operands

def pushes (operation : Operation) : Bool := operation.facts.pushes

def mnemonic (operation : Operation) : String := operation.facts.mnemonic

/-- The change of the stack depth. -/
def effect (operation : Operation) : Int :=
  (if operation.pushes then 1 else 0) - (operation.operands : Int)

/-- Every operation, by opcode. -/
def all : List Operation :=
  [.nth, .symbolp, .consp, .stringp, .listp, .same, .memqTail, .isNull, .car, .cdr, .cons,
    .listOne, .listTwo, .listThree, .listFour, .length, .aref, .aset, .symbolValue,
    .symbolFunction, .setValue, .setFunction, .getProperty, .substring, .concatTwo, .concatThree,
    .concatFour, .subtractOne, .addOne, .numEqual, .greater, .less, .lessOrEqual,
    .greaterOrEqual, .difference, .negate, .plus, .maximum, .minimum, .multiply, .pointPosition,
    .saveCurrentBuffer, .gotoChar, .insertText, .pointMax, .pointMin, .charAfter, .followingChar,
    .precedingChar, .currentColumn, .indentTo, .eolp, .eobp, .bolp, .bobp, .currentBuffer,
    .setBuffer, .saveCurrentBufferAgain, .interactiveP, .forwardChar, .forwardWord,
    .skipCharsForward, .skipCharsBackward, .forwardLine, .charSyntax, .bufferSubstring,
    .deleteRegion, .narrowToRegion, .widen, .endOfLine, .saveExcursion, .saveWindowExcursion,
    .saveRestriction, .catchForm, .unwindProtect, .conditionCase, .tempOutputBufferSetup,
    .tempOutputBufferShow, .setMarker, .matchBeginning, .matchEnd, .upcase, .downcase,
    .stringEqual, .stringLess, .equal, .nthcdr, .elt, .memberTail, .assq, .nreverse, .setcar,
    .setcdr, .carSafe, .cdrSafe, .nconc, .quotient, .remainder, .numberp, .integerp]

/-- The operation of each of the 256 bytes. -/
def byByte : Array (Option Operation) :=
  Array.ofFn fun byte : Fin 256 => all.find? fun operation => operation.opcode.toNat == byte.val

/-- The operation that a byte names, if it names one. -/
def ofByte? (byte : UInt8) : Option Operation :=
  byByte[byte.toNat]?.join

/-- The operation with a given name in listings. -/
def ofMnemonic? (name : String) : Option Operation :=
  all.find? fun operation => operation.mnemonic == name

theorem ofByte?_eq_find? (byte : UInt8) :
    ofByte? byte = all.find? fun operation => operation.opcode.toNat == byte.toNat := by
  have hbyte : byte.toNat < 256 := byte.toNat_lt
  simp [ofByte?, byByte, hbyte]

end Operation

end LispMachine
