import LispMachine.Machine

/-!
Checkpoints: the points of a run at which it can be interrupted. A request to quit is noticed at
the next checkpoint and raised as the error `quit`, unless `inhibit-quit` has a non-nil value,
which leaves the request pending. Checkpoints on the way back in a loop also offer the heap an
opportunity for a collection.
-/

set_option autoImplicit false

namespace LispMachine

/-- Whether requests to quit are deferred. -/
def Store.inhibitsQuit (store : Store) : Bool :=
  match Symbols.inhibitQuit with
  | .symbol index => !((store.symbols.plainValue? index).getD .nil).isNil
  | _ => false

/-- Ask the machine to quit at its next checkpoint. -/
def Machine.requestQuit (machine : Machine) : Machine := { machine with quitPending := true }

/-- Say when requests to quit will arrive. -/
def Machine.expectQuits (machine : Machine) (arrivals : List Bool) : Machine :=
  { machine with arrivals := arrivals }

/-- A request that arrives before this checkpoint waits from now on. -/
def Machine.receiveQuit (machine : Machine) : Machine :=
  { machine with
    quitPending := machine.quitPending || machine.arrivals.headD false
    arrivals := machine.arrivals.tail }

namespace Engine

open LispMachine.Action Storage

/-- Notice a pending quit, unless quitting is deferred. Requests that have arrived since the
checkpoint before count too; several that wait together are one. -/
def noticeQuit : Engine Unit := do
  modify Machine.receiveQuit
  let machine ← get
  if machine.quitPending && !machine.inhibitsQuit then
    modify fun machine => { machine with quitPending := false }
    signal (.error Symbols.quit .nil)
  else return ()

/-- Notice a pending quit; `backward` says whether the run goes back in a loop. -/
def checkpoint (backward : Bool) : Engine Unit := do
  if backward then
    modifyHeap Heap.offerCollection
    noticeQuit
  else noticeQuit

end Engine

end LispMachine
