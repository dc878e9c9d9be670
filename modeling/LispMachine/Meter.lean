/-!
The opcode meter: how often each opcode byte was interpreted, and how often each came right after
another in the same frame. Byte 0 is no opcode, so the pairs with first byte 0 hold the single
counts. Counts stop at the largest 64-bit number.
-/

set_option autoImplicit false

namespace LispMachine

/-- The counts that are not zero, by pair of bytes. -/
structure Meter where
  counts : List ((UInt8 × UInt8) × Nat) := []

namespace Meter

def maxCount : Nat := 0xFFFFFFFFFFFFFFFF

/-- How often `opcode` came right after `previous`. -/
def pairCount (meter : Meter) (previous opcode : UInt8) : Nat :=
  (meter.counts.lookup (previous, opcode)).getD 0

/-- How often an opcode was interpreted. -/
def count (meter : Meter) (opcode : UInt8) : Nat := meter.pairCount 0 opcode

/-- Add one to the count of a pair. -/
def bump (pair : UInt8 × UInt8) : List ((UInt8 × UInt8) × Nat) → List ((UInt8 × UInt8) × Nat)
  | [] => [(pair, 1)]
  | (other, n) :: rest =>
    if other = pair then (other, min (n + 1) maxCount) :: rest else (other, n) :: bump pair rest

/-- Count an opcode that was fetched after `previous`, which is 0 at the start of a frame. -/
def record (meter : Meter) (previous opcode : UInt8) : Meter :=
  let counts := bump (0, opcode) meter.counts
  ⟨if previous = 0 then counts else bump (previous, opcode) counts⟩

/-- The opcodes that were interpreted, most frequent first, equally frequent ones by byte. -/
def hottest (meter : Meter) : List (UInt8 × Nat) :=
  let all := (List.range 255).map fun n => (UInt8.ofNat (n + 1), meter.count (UInt8.ofNat (n + 1)))
  (all.filter fun entry => 0 < entry.2).mergeSort fun a b => b.2 ≤ a.2

end Meter

end LispMachine
