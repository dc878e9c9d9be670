import LispMachine.Value

/-!
The symbols that every machine knows from the start. They are interned first and in this order,
so each has a fixed place in the symbol table.
-/

set_option autoImplicit false

namespace LispMachine

/-- The names of the symbols that are interned first, in order. -/
def builtinNames : List String :=
  ["nil", "t", "quote", "function", "lambda", "progn", "eval", "&optional", "&rest", "many",
    "error-conditions", "error-message", "standard-output", "inhibit-quit", "interactive-p",
    "error", "quit", "wrong-type-argument", "args-out-of-range", "void-variable",
    "void-function", "invalid-function", "wrong-number-of-arguments", "setting-constant",
    "no-catch", "arith-error", "excessive-lisp-nesting", "beginning-of-buffer", "end-of-buffer",
    "circular-list", "listp", "consp", "symbolp", "stringp", "integerp", "numberp", "wholenump",
    "number-or-marker-p", "integer-or-marker-p", "sequencep", "arrayp", "char-or-string-p",
    "characterp", "bufferp", "markerp", "functionp"]

namespace Symbols

def quote : Value := .symbol 2
def function : Value := .symbol 3
def lambda : Value := .symbol 4
def progn : Value := .symbol 5
def eval : Value := .symbol 6
def andOptional : Value := .symbol 7
def andRest : Value := .symbol 8
def many : Value := .symbol 9
def errorConditions : Value := .symbol 10
def errorMessage : Value := .symbol 11
def standardOutput : Value := .symbol 12
def inhibitQuit : Value := .symbol 13
def interactiveP : Value := .symbol 14
def errorSymbol : Value := .symbol 15
def quit : Value := .symbol 16
def wrongTypeArgument : Value := .symbol 17
def argsOutOfRange : Value := .symbol 18
def voidVariable : Value := .symbol 19
def voidFunction : Value := .symbol 20
def invalidFunction : Value := .symbol 21
def wrongNumberOfArguments : Value := .symbol 22
def settingConstant : Value := .symbol 23
def noCatch : Value := .symbol 24
def arithError : Value := .symbol 25
def excessiveLispNesting : Value := .symbol 26
def beginningOfBuffer : Value := .symbol 27
def endOfBuffer : Value := .symbol 28
def circularList : Value := .symbol 29
def listp : Value := .symbol 30
def consp : Value := .symbol 31
def symbolp : Value := .symbol 32
def stringp : Value := .symbol 33
def integerp : Value := .symbol 34
def numberp : Value := .symbol 35
def wholenump : Value := .symbol 36
def numberOrMarkerP : Value := .symbol 37
def integerOrMarkerP : Value := .symbol 38
def sequencep : Value := .symbol 39
def arrayp : Value := .symbol 40
def charOrStringP : Value := .symbol 41
def characterp : Value := .symbol 42
def bufferp : Value := .symbol 43
def markerp : Value := .symbol 44
def functionp : Value := .symbol 45

end Symbols

end LispMachine
