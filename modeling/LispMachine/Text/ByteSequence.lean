/-!
UTF-8 spellings of ranges of code points. The spellings of a range are those of some sequences of
byte ranges: a sequence spells every code point whose bytes lie in its ranges, one after the
other. A range is cut wherever the number of bytes changes, around the surrogates, and until all
bytes but one range over everything they can or over a single value.
-/

set_option autoImplicit false

namespace LispMachine

/-- Ranges of bytes, first byte first. -/
abbrev ByteSequence := List (Nat × Nat)

namespace ByteSequence

/-- The bytes that spell a code point. -/
def bytesOf (code : Nat) : List Nat :=
  if code < 0x80 then [code]
  else if code < 0x800 then [0xc0 + code / 0x40, 0x80 + code % 0x40]
  else if code < 0x10000 then
    [0xe0 + code / 0x1000, 0x80 + code / 0x40 % 0x40, 0x80 + code % 0x40]
  else
    [0xf0 + code / 0x40000, 0x80 + code / 0x1000 % 0x40, 0x80 + code / 0x40 % 0x40,
      0x80 + code % 0x40]

/-- The first code point at which a range must be cut into two, if it must. -/
def cut? (low high : Nat) : Option Nat :=
  let length := [0x80, 0x800, 0x10000].find? fun start => low < start && start ≤ high
  let block := [0x40, 0x1000, 0x40000].findSome? fun size =>
    if low / size = high / size then none
    else if low % size ≠ 0 then some ((low / size + 1) * size)
    else if high % size ≠ size - 1 then some (high / size * size)
    else none
  length <|> if high < 0x80 then none else block

/-- The sequences of a range that holds no surrogates and needs at most so many cuts in a row. -/
def ofPlainRange : Nat → Nat → Nat → List ByteSequence
  | 0, low, high => [(bytesOf low).zip (bytesOf high)]
  | cuts + 1, low, high =>
    match cut? low high with
    | some start => ofPlainRange cuts low (start - 1) ++ ofPlainRange cuts start high
    | none => [(bytesOf low).zip (bytesOf high)]

/-- More cuts in a row than any range needs. -/
def maxCuts : Nat := 16

/-- The sequences of a range. -/
def ofRange (low high : Nat) : List ByteSequence :=
  if low < 0xe000 ∧ 0xd7ff < high then
    (if low ≤ 0xd7ff then ofPlainRange maxCuts low 0xd7ff else []) ++
      ofPlainRange maxCuts 0xe000 high
  else ofPlainRange maxCuts low high

end ByteSequence

end LispMachine
