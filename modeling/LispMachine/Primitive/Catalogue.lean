import LispMachine.Execution.Invocation

/-!
The catalogue of primitives: the functions that programs find under a name from the start, with
the number of arguments that they take. A primitive is *pure* when it does nothing but compute its
result.
-/

set_option autoImplicit false

namespace LispMachine

/-- A primitive. -/
structure Primitive where
  name : String
  minimum : Nat
  maximum : ArityBound
  isPure : Bool
  action : PrimitiveAction

namespace Primitive

/-- Whether `count` arguments are neither too few nor too many. -/
def accepts (primitive : Primitive) (count : Nat) : Bool :=
  primitive.minimum ≤ count && (primitive.maximum.all fun most => count ≤ most)

/-- A primitive that only computes its result. -/
def computing (name : String) (minimum : Nat) (maximum : ArityBound)
    (run : List Value → Storage Value) : Primitive :=
  ⟨name, minimum, maximum, true, .storing run⟩

/-- A primitive that changes the store. -/
def changing (name : String) (minimum : Nat) (maximum : ArityBound)
    (run : List Value → Storage Value) : Primitive :=
  ⟨name, minimum, maximum, false, .storing run⟩

/-- A primitive that needs the whole machine. -/
def running (name : String) (minimum : Nat) (maximum : ArityBound)
    (run : Caller → List Value → Engine Value) : Primitive :=
  ⟨name, minimum, maximum, false, .running run⟩

def arithmetic : List Primitive :=
  [computing "+" 0 none Storage.plus,
    computing "-" 0 none Storage.minus,
    computing "*" 0 none Storage.times,
    computing "/" 1 none Storage.quotient,
    computing "%" 2 (some 2) (binary Storage.remainder),
    computing "1+" 1 (some 1) (unary Storage.addOne),
    computing "1-" 1 (some 1) (unary Storage.subtractOne),
    computing "max" 1 none Storage.maximum,
    computing "min" 1 none Storage.minimum,
    computing "=" 1 none Storage.numbersEqual,
    computing "<" 1 none Storage.less,
    computing ">" 1 none Storage.greater,
    computing "<=" 1 none Storage.lessOrEqual,
    computing ">=" 1 none Storage.greaterOrEqual,
    computing "abs" 1 (some 1) (unary Storage.absoluteValue),
    computing "float" 1 (some 1) (unary Storage.toFloat)]

def data : List Primitive :=
  [computing "symbolp" 1 (some 1) (unary Storage.symbolp),
    computing "consp" 1 (some 1) (unary Storage.consp),
    computing "stringp" 1 (some 1) (unary Storage.stringp),
    computing "listp" 1 (some 1) (unary Storage.listp),
    computing "numberp" 1 (some 1) (unary Storage.numberp),
    computing "integerp" 1 (some 1) (unary Storage.integerp),
    computing "vectorp" 1 (some 1) (unary Storage.vectorp),
    computing "markerp" 1 (some 1) (unary Storage.markerp),
    computing "bufferp" 1 (some 1) (unary Storage.bufferp),
    computing "functionp" 1 (some 1) (unary Storage.functionp),
    computing "null" 1 (some 1) (unary Storage.null),
    computing "not" 1 (some 1) (unary Storage.null),
    computing "eq" 2 (some 2) (binary Storage.eq),
    computing "eql" 2 (some 2) (binary Storage.eql),
    computing "equal" 2 (some 2) (binary Storage.equal),
    computing "identity" 1 (some 1) (unary Storage.identity),
    computing "symbol-name" 1 (some 1) (unary Storage.symbolName),
    computing "symbol-value" 1 (some 1) (unary Storage.symbolValue),
    computing "symbol-function" 1 (some 1) (unary Storage.symbolFunction),
    computing "boundp" 1 (some 1) (unary Storage.boundp),
    computing "fboundp" 1 (some 1) (unary Storage.fboundp),
    changing "set" 2 (some 2) (binary Storage.setVariable),
    changing "fset" 2 (some 2) (binary Storage.setFunction),
    computing "get" 2 (some 2) (binary Storage.getProperty),
    changing "put" 3 (some 3) (ternary Storage.putProperty),
    changing "defvaralias" 2 (some 2) (binary Storage.defineAlias),
    changing "intern" 1 (some 1) (unary Storage.internNamed)]

def sequence : List Primitive :=
  [computing "car" 1 (some 1) (unary Storage.car),
    computing "cdr" 1 (some 1) (unary Storage.cdr),
    computing "car-safe" 1 (some 1) (unary Storage.carSafe),
    computing "cdr-safe" 1 (some 1) (unary Storage.cdrSafe),
    computing "cons" 2 (some 2) (binary Storage.cons),
    computing "list" 0 none Storage.list,
    computing "vector" 0 none Storage.vector,
    computing "length" 1 (some 1) (unary Storage.length),
    computing "nth" 2 (some 2) (binary Storage.nth),
    computing "nthcdr" 2 (some 2) (binary Storage.nthcdr),
    computing "elt" 2 (some 2) (binary Storage.elt),
    computing "aref" 2 (some 2) (binary Storage.aref),
    changing "aset" 3 (some 3) (ternary Storage.aset),
    computing "memq" 2 (some 2) (binary Storage.memq),
    computing "member" 2 (some 2) (binary Storage.member),
    computing "assq" 2 (some 2) (binary Storage.assq),
    changing "nreverse" 1 (some 1) (unary Storage.nreverse),
    changing "nconc" 0 none Storage.nconc,
    changing "setcar" 2 (some 2) (binary Storage.setCar),
    changing "setcdr" 2 (some 2) (binary Storage.setCdr)]

def text : List Primitive :=
  [computing "concat" 0 none Storage.concat,
    computing "substring" 1 (some 3) (ternary Storage.substring),
    computing "upcase" 1 (some 1) (unary Storage.upcase),
    computing "downcase" 1 (some 1) (unary Storage.downcase),
    computing "string=" 2 (some 2) (binary Storage.stringEqual),
    computing "string-equal" 2 (some 2) (binary Storage.stringEqual),
    computing "string<" 2 (some 2) (binary Storage.stringLess),
    computing "string-lessp" 2 (some 2) (binary Storage.stringLess),
    computing "number-to-string" 1 (some 1) (unary Storage.numberToString),
    computing "string-to-number" 1 (some 1) (unary Storage.stringToNumber),
    computing "char-to-string" 1 (some 1) (unary Storage.charToString),
    computing "make-string" 2 (some 2) (binary Storage.repeatCharacter),
    changing "string-match" 2 (some 3) (ternary Storage.stringMatch),
    changing "looking-at" 1 (some 1) (unary Storage.lookingAt),
    computing "match-beginning" 1 (some 1) (unary Storage.matchBeginning),
    computing "match-end" 1 (some 1) (unary Storage.matchEnd)]

def editing : List Primitive :=
  [computing "point" 0 (some 0) fun _ => Storage.point,
    computing "point-min" 0 (some 0) fun _ => Storage.pointMin,
    computing "point-max" 0 (some 0) fun _ => Storage.pointMax,
    changing "goto-char" 1 (some 1) (unary Storage.gotoChar),
    changing "insert" 0 none Storage.insert,
    computing "char-after" 0 (some 1) (unary Storage.charAfter),
    computing "following-char" 0 (some 0) fun _ => Storage.followingChar,
    computing "preceding-char" 0 (some 0) fun _ => Storage.precedingChar,
    computing "current-column" 0 (some 0) fun _ => Storage.currentColumn,
    changing "indent-to" 1 (some 2) (binary Storage.indentTo),
    computing "eolp" 0 (some 0) fun _ => Storage.atLineEnd,
    computing "eobp" 0 (some 0) fun _ => Storage.atBufferEnd,
    computing "bolp" 0 (some 0) fun _ => Storage.atLineStart,
    computing "bobp" 0 (some 0) fun _ => Storage.atBufferStart,
    computing "current-buffer" 0 (some 0) fun _ => Storage.currentBufferObject,
    changing "set-buffer" 1 (some 1) (unary Storage.setBuffer),
    changing "get-buffer-create" 1 (some 1) (unary Storage.getBufferCreate),
    computing "buffer-name" 0 (some 1) (unary Storage.bufferName),
    computing "buffer-string" 0 (some 0) fun _ => Storage.bufferString,
    computing "buffer-substring" 2 (some 2) (binary Storage.bufferSubstring),
    changing "erase-buffer" 0 (some 0) fun _ => Storage.erase,
    changing "forward-char" 0 (some 1) (unary Storage.forwardChar),
    changing "forward-word" 0 (some 1) (unary Storage.forwardWord),
    changing "forward-line" 0 (some 1) (unary Storage.forwardLine),
    changing "beginning-of-line" 0 (some 1) (unary Storage.beginningOfLine),
    changing "end-of-line" 0 (some 1) (unary Storage.endOfLine),
    changing "skip-chars-forward" 1 (some 2) (binary Storage.skipCharsForward),
    changing "skip-chars-backward" 1 (some 2) (binary Storage.skipCharsBackward),
    computing "char-syntax" 1 (some 1) (unary Storage.charSyntax),
    changing "delete-region" 2 (some 2) (binary Storage.deleteRegion),
    changing "narrow-to-region" 2 (some 2) (binary Storage.narrowToRegion),
    changing "widen" 0 (some 0) fun _ => Storage.widen,
    computing "make-marker" 0 (some 0) fun _ => Storage.makeDetachedMarker,
    computing "point-marker" 0 (some 0) fun _ => Storage.pointMarker,
    computing "marker-position" 1 (some 1) (unary Storage.markerPosition),
    changing "set-marker" 2 (some 3) (ternary Storage.placeMarker)]

def control : List Primitive :=
  [running "throw" 2 (some 2) fun _ => binary Engine.throwTo,
    changing "signal" 2 (some 2) (binary Storage.raise),
    changing "error" 1 none Storage.raiseFormatted,
    computing "format" 1 none Storage.format,
    running "funcall" 1 none Engine.funcallArguments,
    running "apply" 1 none Engine.applySpread,
    running "eval" 1 (some 2) fun caller => unary (Engine.evaluate caller),
    running "byte-code" 3 (some 3) fun caller => ternary (Engine.executeString caller),
    computing "interactive-p" 0 (some 0) fun _ => pure .nil,
    computing "prin1-to-string" 1 (some 2) (binary Storage.printToString),
    running "prin1" 1 (some 2) fun caller => binary (Engine.printTo caller .readable),
    running "princ" 1 (some 2) fun caller => binary (Engine.printTo caller .plain)]

/-- All primitives in the order in which they are installed. -/
def catalogue : Array Primitive :=
  (arithmetic ++ data ++ sequence ++ text ++ editing ++ control).toArray

/-- The primitive with a name. -/
def find? (name : String) : Option Primitive :=
  catalogue.find? fun primitive => primitive.name == name

end Primitive

end LispMachine
