import LispMachine.Application
import LispMachine.Program.Loading

/-!
A new machine: the standard errors are defined, the primitives are installed under their names,
and an empty buffer is current.
-/

set_option autoImplicit false

namespace LispMachine

namespace Storage

/-- Install the primitives of the catalogue from an index on. -/
def installPrimitives : Nat → List Primitive → Storage Unit
  | _, [] => return ()
  | index, primitive :: rest => do
    let object ← allocate (.primitive index primitive.name)
    let symbol ← intern primitive.name
    if let .symbol place := symbol then
      modifySymbols fun table => table.setFunction place object
    installPrimitives (index + 1) rest

end Storage

namespace Engine

open Storage

/-- Start counting opcodes afresh, or stop and forget the counts. -/
def setMetering (on : Bool) : Engine Unit :=
  modify fun machine =>
    { machine with
      settings := { machine.settings with metering := on }
      meter := if on then some {} else none }

/-- Compile functions before their first invocation, or stop doing so. -/
def setCompiling (on : Bool) : Engine Unit :=
  modify fun machine =>
    { machine with settings := { machine.settings with compileOnFirstCall := on } }

/-- What is done before a machine can be used. -/
def boot : Engine Unit := do
  defineStandardErrors
  assign Symbols.inhibitQuit .nil
  assign Symbols.standardOutput .t
  installPrimitives 0 Primitive.catalogue.toList
  let _ ← bufferNamed "*scratch*"
  if (← get).settings.metering then setMetering true

end Engine

namespace Machine

/-- A new machine with the given settings. -/
def initial (settings : Settings) : Machine :=
  let machine : Machine :=
    { settings := settings, heap := .empty settings.collectionThreshold }
  match Engine.boot machine with
  | .ok _ machine => machine
  | .error _ machine => machine

end Machine

end LispMachine
