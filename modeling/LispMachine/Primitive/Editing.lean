import LispMachine.Editing
import LispMachine.Motion
import LispMachine.Primitive.Argument
import LispMachine.Text.SkipSet
import LispMachine.Text.SyntaxClass

/-!
The primitives on buffers: the point and its surroundings, inserting and deleting, moving,
narrowing, markers, and the choice of a buffer.
-/

set_option autoImplicit false

namespace LispMachine

namespace Storage

open LispMachine.Action

/-! ### The point and its surroundings -/

/-- Something about the current buffer. -/
def aboutBuffer (ask : Buffer → Value) : Storage Value := do return ask (← currentBuffer)

def point : Storage Value := aboutBuffer fun buffer => .ofNat buffer.point

def pointMin : Storage Value := aboutBuffer fun buffer => .ofNat buffer.start

def pointMax : Storage Value := aboutBuffer fun buffer => .ofNat buffer.finish

/-- The character after a position, by default the point. -/
def charAfter (position : Value) : Storage Value := do
  let place ←
    match position.given? with
    | some value => positionArgument value
    | none => pure (← currentBuffer).point
  if place < 0 then return .nil
  match (← currentBuffer).charAt? place.toNat with
  | some c => return .ofChar c
  | none => return .nil

/-- The character after the point, zero if there is none. -/
def followingChar : Storage Value := aboutBuffer fun buffer =>
  .ofChar ((buffer.charAt? buffer.point).getD '\x00')

/-- The character before the point, zero if there is none. -/
def precedingChar : Storage Value := aboutBuffer fun buffer =>
  if buffer.start < buffer.point then .ofChar ((buffer.charAt? (buffer.point - 1)).getD '\x00')
  else .fixnum 0

def currentColumn : Storage Value := aboutBuffer fun buffer =>
  .ofNat (buffer.columnAt buffer.point)

def atLineEnd : Storage Value := aboutBuffer fun buffer =>
  .ofBool (buffer.point == buffer.finish || buffer.charAt? buffer.point == some '\n')

def atBufferEnd : Storage Value := aboutBuffer fun buffer =>
  .ofBool (buffer.point == buffer.finish)

def atLineStart : Storage Value := aboutBuffer fun buffer =>
  .ofBool (buffer.point == buffer.start || buffer.charAt? (buffer.point - 1) == some '\n')

def atBufferStart : Storage Value := aboutBuffer fun buffer =>
  .ofBool (buffer.point == buffer.start)

def charSyntax (character : Value) : Storage Value := do
  return .ofChar (characterClass (← characterArgument character))

/-! ### Inserting and deleting -/

/-- Insert strings and characters at the point. -/
def insert : List Value → Storage Value
  | [] => return .nil
  | value :: values => do
    match ← object? value, value with
    | some (.string text), _ => insertText text
    | _, .fixnum _ => insertCharacters [← characterArgument value]
    | _, _ => wrongType Symbols.charOrStringP value
    insert values

/-- Insert spaces up to a column, at least `minimum` of them, and give the column reached. -/
def indentTo (column minimum : Value) : Storage Value := do
  let wanted ← fixnumArgument column
  let least ←
    match minimum.given? with
    | some value => fixnumArgument value
    | none => pure 0
  let buffer ← currentBuffer
  let present : Int := buffer.columnAt buffer.point
  let target := max (present + least) wanted
  if present < target then
    insertCharacters (List.replicate (target - present).toNat ' ')
  return .ofInt target

/-- Two positions in order, which must be in the accessible part. -/
def regionArguments (start finish : Value) : Storage (Nat × Nat) := do
  let a ← positionArgument start
  let b ← positionArgument finish
  let buffer ← currentBuffer
  if min a b < buffer.start ∨ (buffer.finish : Int) < max a b then argsOutOfRange start finish
  return ((min a b).toNat, (max a b).toNat)

def bufferString : Storage Value := do makeString (← currentBuffer).contents

def bufferSubstring (start finish : Value) : Storage Value := do
  let (low, high) ← regionArguments start finish
  makeString ((← currentBuffer).substring low high)

def deleteRegion (start finish : Value) : Storage Value := do
  let (low, high) ← regionArguments start finish
  deleteBetween low high
  return .nil

def erase : Storage Value := do
  eraseBuffer
  return .nil

/-! ### Moving -/

/-- Move to a position, as far as the accessible part goes. -/
def gotoChar (position : Value) : Storage Value := do
  let place ← positionArgument position
  gotoPosition place.toNat
  return position

/-- Move by characters. At an end of the accessible part the motion stops with an error. -/
def forwardChar (count : Value) : Storage Value := do
  let n ← countArgument count
  let buffer ← currentBuffer
  let target := buffer.point + n
  if target < buffer.start then
    gotoPosition buffer.start
    signal ⟨Symbols.beginningOfBuffer, .nil⟩
  if (buffer.finish : Int) < target then
    gotoPosition buffer.finish
    signal ⟨Symbols.endOfBuffer, .nil⟩
  gotoPosition target.toNat
  return .nil

/-- Move by words, and say whether there were as many. -/
def forwardWord (count : Value) : Storage Value := do
  let n ← countArgument count
  let buffer ← currentBuffer
  let (position, completed) := buffer.moveWords n buffer.point
  gotoPosition position
  return .ofBool completed

/-- Move by lines, and give how many lines are missing. -/
def moveByLines (count : Int) : Storage Int := do
  let buffer ← currentBuffer
  let (position, missing) := buffer.moveLines count buffer.point
  gotoPosition position
  return missing

def forwardLine (count : Value) : Storage Value := do
  return .ofInt (← moveByLines (← countArgument count))

def beginningOfLine (count : Value) : Storage Value := do
  let _ ← moveByLines ((← countArgument count) - 1)
  return .nil

def endOfLine (count : Value) : Storage Value := do
  let n ← countArgument count
  if n ≠ 1 then
    let _ ← moveByLines (n - 1)
  modifyCurrentBuffer fun buffer => buffer.setPoint (buffer.lineEnd buffer.point)
  return .nil

/-- The set and the limit of a motion over characters. -/
def skipArguments (spelling limit : Value) : Storage (SkipSet × Option Nat) := do
  let set := SkipSet.parse (← stringArgument spelling).toList
  let bound ←
    match limit.given? with
    | some value => pure (some (← positionArgument value).toNat)
    | none => pure none
  return (set, bound)

/-- Move forward over characters of a set, and give the distance. -/
def skipCharsForward (spelling limit : Value) : Storage Value := do
  let (set, bound) ← skipArguments spelling limit
  let buffer ← currentBuffer
  let bound := clampBetween buffer.start buffer.finish (bound.getD buffer.finish)
  let position := buffer.forwardWhile set.contains bound buffer.point
  gotoPosition position
  return .ofInt (position - buffer.point)

/-- Move backward over characters of a set, and give the distance, which is not positive. -/
def skipCharsBackward (spelling limit : Value) : Storage Value := do
  let (set, bound) ← skipArguments spelling limit
  let buffer ← currentBuffer
  let bound := clampBetween buffer.start buffer.finish (bound.getD buffer.start)
  let position := buffer.backwardWhile set.contains bound buffer.point
  gotoPosition position
  return .ofInt (position - buffer.point)

/-! ### Narrowing -/

/-- Make the text between two positions the accessible part. -/
def narrowToRegion (start finish : Value) : Storage Value := do
  let a ← positionArgument start
  let b ← positionArgument finish
  let textEnd : Int := (← currentBuffer).textEnd
  if a < 1 ∨ textEnd < a ∨ b < 1 ∨ textEnd < b then argsOutOfRange start finish
  modifyCurrentBuffer fun buffer => buffer.narrow a.toNat b.toNat
  return .nil

def widen : Storage Value := do
  modifyCurrentBuffer Buffer.widen
  return .nil

/-! ### Markers -/

def pointMarker : Storage Value := do
  makeMarker (← currentBufferIndex) (← currentBuffer).point

def markerPosition (marker : Value) : Storage Value := do
  if ((← get).heap.marker? marker).isNone then wrongType Symbols.markerp marker
  match ← markerPosition? marker with
  | some position => return .ofNat position
  | none => return .nil

/-- Point a marker at a position of a buffer, by default the current one, or nowhere. -/
def placeMarker (marker position buffer : Value) : Storage Value := do
  let index ←
    match buffer.given? with
    | some value => bufferIndex value
    | none => currentBufferIndex
  match position.given? with
  | some value =>
    let place ← positionArgument value
    setMarker marker (some (index, (max place 1).toNat))
  | none => setMarker marker none

/-! ### Buffers -/

def currentBufferObject : Storage Value := aboutBuffer Buffer.object

def setBuffer (buffer : Value) : Storage Value := do
  let index ← bufferIndex buffer
  setCurrentBuffer index
  currentBufferObject

def getBufferCreate (buffer : Value) : Storage Value := do
  match ← object? buffer with
  | some (.buffer _) => return buffer
  | _ => bufferNamed (← stringArgument buffer)

def bufferName (buffer : Value) : Storage Value := do
  let index ←
    match buffer.given? with
    | some value => bufferIndex value
    | none => currentBufferIndex
  makeString ((← get).buffers.get index).name

end Storage

end LispMachine
