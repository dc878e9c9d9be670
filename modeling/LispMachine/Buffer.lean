import LispMachine.Value

/-!
Text buffers. Positions count characters from 1 and lie between characters: position `p` is
before the `p`-th character. The accessible part of a buffer runs from `start` to `finish`, and
the point is a position in it. Positions elsewhere in the machine (markers) move with the text by
`shiftForInsertion` and `shiftForDeletion`.
-/

set_option autoImplicit false

namespace LispMachine

/-- A buffer: its text, the point and the bounds of the accessible part, and the markers that
point into it. -/
structure Buffer where
  name : String
  text : Array Char := #[]
  point : Nat := 1
  start : Nat := 1
  finish : Nat := 1
  /-- The heap addresses of the markers in this buffer. -/
  markers : List Nat := []
  /-- The heap object that stands for the buffer. -/
  object : Value

instance : Inhabited Buffer := ⟨{ name := "", object := .nil }⟩

/-- The number nearest to `n` between `low` and `high`. -/
def clampBetween (low high n : Nat) : Nat :=
  if n < low then low else if high < n then high else n

/-- Where a position goes when `count` characters are inserted at `place`. -/
def shiftForInsertion (place count position : Nat) : Nat :=
  if place < position then position + count else position

/-- Where a position goes when the characters between two positions are deleted. -/
def shiftForDeletion (low high position : Nat) : Nat :=
  if high < position then position - (high - low)
  else if low < position then low
  else position

namespace Buffer

/-- The position after the last character of the whole text. -/
def textEnd (buffer : Buffer) : Nat := buffer.text.size + 1

def isNarrowed (buffer : Buffer) : Bool :=
  buffer.start != 1 || buffer.finish != buffer.textEnd

/-- The character after a position, if the position is inside the accessible part. -/
def charAt? (buffer : Buffer) (position : Nat) : Option Char :=
  if buffer.start ≤ position && position < buffer.finish then buffer.text[position - 1]?
  else none

/-- The characters between two positions. -/
def slice (buffer : Buffer) (low high : Nat) : List Char :=
  (buffer.text.extract (low - 1) (high - 1)).toList

/-- The text between two positions. -/
def substring (buffer : Buffer) (low high : Nat) : String :=
  String.ofList (buffer.slice low high)

/-- The accessible text. -/
def contents (buffer : Buffer) : String := buffer.substring buffer.start buffer.finish

/-- Move the point, as far as the accessible part goes. -/
def setPoint (buffer : Buffer) (position : Nat) : Buffer :=
  { buffer with point := clampBetween buffer.start buffer.finish position }

/-- Make the text between two positions, in either order, the accessible part. -/
def narrow (buffer : Buffer) (a b : Nat) : Buffer :=
  let low := clampBetween 1 buffer.textEnd (min a b)
  let high := clampBetween 1 buffer.textEnd (max a b)
  { buffer with start := low, finish := high, point := clampBetween low high buffer.point }

/-- Make the whole text accessible. -/
def widen (buffer : Buffer) : Buffer :=
  { buffer with start := 1, finish := buffer.textEnd }

/-- The start of the accessible line around a position. -/
def lineStart (buffer : Buffer) : Nat → Nat
  | 0 => 0
  | position + 1 =>
    if buffer.start < position + 1 && buffer.text[position - 1]? != some '\n' then
      lineStart buffer position
    else position + 1

/-- The end of the line, going at most `room` characters on from a position. -/
def lineEndWithin (buffer : Buffer) : Nat → Nat → Nat
  | 0, position => position
  | room + 1, position =>
    if buffer.text[position - 1]? != some '\n' then lineEndWithin buffer room (position + 1)
    else position

/-- The end of the accessible line around a position. -/
def lineEnd (buffer : Buffer) (position : Nat) : Nat :=
  buffer.lineEndWithin (buffer.finish - position) position

/-- The column after a character: a tab goes to the next multiple of eight. -/
def nextColumn (column : Nat) (c : Char) : Nat :=
  if c = '\t' then (column / 8 + 1) * 8 else column + 1

/-- The column of a position in its accessible line. -/
def columnAt (buffer : Buffer) (position : Nat) : Nat :=
  (buffer.slice (buffer.lineStart position) position).foldl nextColumn 0

/-- Insert characters at the point and move it behind them. -/
def insert (buffer : Buffer) (chars : List Char) : Buffer :=
  let place := buffer.point - 1
  { buffer with
    text := buffer.text.extract 0 place ++ chars.toArray ++
      buffer.text.extract place buffer.text.size
    finish := buffer.finish + chars.length
    point := buffer.point + chars.length }

/-- Delete the characters between two positions of the accessible part. -/
def delete (buffer : Buffer) (low high : Nat) : Buffer :=
  { buffer with
    text := buffer.text.extract 0 (low - 1) ++ buffer.text.extract (high - 1) buffer.text.size
    finish := buffer.finish - (high - low)
    point := shiftForDeletion low high buffer.point }

end Buffer

/-- All buffers in the order of their creation, and which one is current. -/
structure BufferStore where
  buffers : Array Buffer := #[]
  currentIndex : Nat := 0

namespace BufferStore

/-- The buffer at an index. -/
def get (store : BufferStore) (index : Nat) : Buffer := store.buffers.getD index default

def current (store : BufferStore) : Buffer := store.get store.currentIndex

/-- Change the buffer at an index. -/
def update (store : BufferStore) (index : Nat) (change : Buffer → Buffer) : BufferStore :=
  match store with
  | ⟨buffers, currentIndex⟩ => ⟨buffers.modify index change, currentIndex⟩

def updateCurrent (store : BufferStore) (change : Buffer → Buffer) : BufferStore :=
  store.update store.currentIndex change

/-- The index of the buffer with a name. -/
def find? (store : BufferStore) (name : String) : Option Nat :=
  store.buffers.findIdx? fun buffer => buffer.name == name

end BufferStore

end LispMachine
