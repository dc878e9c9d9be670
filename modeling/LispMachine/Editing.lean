import LispMachine.Store

/-!
Editing: changing buffers together with the markers that point into them. Inserted text goes
before the markers behind the point and after those at it; a marker inside deleted text goes to
where the text was.
-/

set_option autoImplicit false

namespace LispMachine

/-- Move the markers at the given addresses. -/
def Heap.moveMarkers (heap : Heap) (addresses : List Nat) (move : Nat → Nat) : Heap :=
  addresses.foldl
    (fun heap address =>
      match heap.marker? (.object address) with
      | some marker =>
        heap.set (.object address) (.marker { marker with position := move marker.position })
      | none => heap)
    heap

namespace Storage

/-! ### Choosing a buffer -/

/-- Make a buffer current. -/
def setCurrentBuffer (index : Nat) : Storage Unit :=
  modifyBuffers fun store => { store with currentIndex := index }

/-- The index of the current buffer. -/
def currentBufferIndex : Storage Nat := do return (← get).buffers.currentIndex

/-- Change the current buffer. -/
def modifyCurrentBuffer (change : Buffer → Buffer) : Storage Unit :=
  modifyBuffers fun store => store.updateCurrent change

/-- The object of the buffer with a name, which is created if it is missing. -/
def bufferNamed (name : String) : Storage Value := do
  let store := (← get).buffers
  match store.find? name with
  | some index => return (store.get index).object
  | none =>
    let object ← allocate (.buffer store.buffers.size)
    modifyBuffers fun store =>
      { store with buffers := store.buffers.push { name := name, object := object } }
    return object

/-- The index of the buffer that a value is or names. -/
def bufferIndex (value : Value) : Storage Nat := do
  let store ← get
  match store.heap.get? value with
  | some (.buffer index) => return index
  | some (.string name) =>
    match store.buffers.find? name with
    | some index => return index
    | none => errorMessage s!"No such buffer {name}"
  | _ => wrongType Symbols.bufferp value

/-- Run an action with another buffer current. The action must not signal. -/
def withBuffer (index : Nat) (action : Storage Unit) : Storage Unit := do
  let previous ← currentBufferIndex
  setCurrentBuffer index
  action
  setCurrentBuffer previous

/-! ### Changing text -/

/-- Move the point of the current buffer, as far as the accessible part goes. -/
def gotoPosition (position : Nat) : Storage Unit :=
  modifyCurrentBuffer fun buffer => buffer.setPoint position

/-- Insert characters at the point of the current buffer. -/
def insertCharacters (chars : List Char) : Storage Unit := do
  if chars.isEmpty then return ()
  let buffer ← currentBuffer
  modifyCurrentBuffer fun buffer => buffer.insert chars
  modifyHeap fun heap =>
    heap.moveMarkers buffer.markers (shiftForInsertion buffer.point chars.length)

/-- Insert text at the point of the current buffer. -/
def insertText (text : String) : Storage Unit := insertCharacters text.toList

/-- Delete what the current buffer holds between two positions, given in either order, as far as
it is accessible. -/
def deleteBetween (a b : Nat) : Storage Unit := do
  let buffer ← currentBuffer
  let low := clampBetween buffer.start buffer.finish (min a b)
  let high := clampBetween buffer.start buffer.finish (max a b)
  if low = high then return ()
  modifyCurrentBuffer fun buffer => buffer.delete low high
  modifyHeap fun heap => heap.moveMarkers buffer.markers (shiftForDeletion low high)

/-- Delete the whole text of the current buffer. -/
def eraseBuffer : Storage Unit := do
  modifyCurrentBuffer Buffer.widen
  deleteBetween 1 (← currentBuffer).textEnd

/-! ### Markers -/

/-- Note in a buffer that a marker points into it. -/
def attachMarker (index address : Nat) : Storage Unit :=
  modifyBuffers fun store =>
    store.update index fun buffer => { buffer with markers := address :: buffer.markers }

/-- A new marker at a position of a buffer. -/
def makeMarker (index position : Nat) : Storage Value := do
  let value ← allocate (.marker ⟨some index, position⟩)
  if let .object address := value then attachMarker index address
  return value

/-- A new marker that points nowhere. -/
def makeDetachedMarker : Storage Value := allocate (.marker ⟨none, 0⟩)

/-- The position of a marker that points into a buffer. -/
def markerPosition? (value : Value) : Storage (Option Nat) := do
  match (← get).heap.marker? value with
  | some ⟨some _, position⟩ => return some position
  | _ => return none

/-- Take a marker off the list of the buffer that it points into. -/
def forgetMarker (marker : Marker) (address : Nat) : Storage Unit := do
  if let some index := marker.buffer then
    modifyBuffers fun store =>
      store.update index fun buffer =>
        { buffer with markers := buffer.markers.filter fun other => other != address }

/-- Point a marker at a position of a buffer, or nowhere. The position is moved into the text. -/
def setMarker (value : Value) (place : Option (Nat × Nat)) : Storage Value := do
  match (← get).heap.marker? value, value with
  | some marker, .object address =>
    forgetMarker marker address
    match place with
    | some (index, position) =>
      let finish := ((← get).buffers.get index).textEnd
      attachMarker index address
      modifyHeap fun heap =>
        heap.set value (.marker ⟨some index, clampBetween 1 finish position⟩)
    | none => modifyHeap fun heap => heap.set value (.marker ⟨none, 0⟩)
    return value
  | _, _ => wrongType Symbols.markerp value

end Storage

end LispMachine
