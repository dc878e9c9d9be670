import LispMachine.Buffer
import LispMachine.Text.Alphanumeric

/-!
Moving through a buffer by characters of a kind, by words and by lines. Every motion stays in the
accessible part.
-/

set_option autoImplicit false

namespace LispMachine

namespace Buffer

/-! ### Runs of characters -/

/-- Go forward over characters that satisfy a test, at most `room` of them. -/
def forwardWithin (buffer : Buffer) (test : Char → Bool) : Nat → Nat → Nat
  | 0, position => position
  | room + 1, position =>
    if (buffer.charAt? position).any test then forwardWithin buffer test room (position + 1)
    else position

/-- Go forward over characters that satisfy a test, up to a limit. -/
def forwardWhile (buffer : Buffer) (test : Char → Bool) (limit position : Nat) : Nat :=
  buffer.forwardWithin test (limit - position) position

/-- Go backward over characters that satisfy a test, at most `room` of them. -/
def backwardWithin (buffer : Buffer) (test : Char → Bool) : Nat → Nat → Nat
  | 0, position => position
  | room + 1, position =>
    if (buffer.charAt? (position - 1)).any test then
      backwardWithin buffer test room (position - 1)
    else position

/-- Go backward over characters that satisfy a test, down to a limit. -/
def backwardWhile (buffer : Buffer) (test : Char → Bool) (limit position : Nat) : Nat :=
  buffer.backwardWithin test (position - limit) position

/-! ### Words -/

/-- Go forward over words, and say whether there were as many. -/
def forwardWords (buffer : Buffer) : Nat → Nat → Nat × Bool
  | 0, position => (position, true)
  | count + 1, position =>
    let start := buffer.forwardWhile (fun c => !isAlphanumeric c) buffer.finish position
    if start = buffer.finish then (start, false)
    else forwardWords buffer count (buffer.forwardWhile isAlphanumeric buffer.finish start)

/-- Go backward over words, and say whether there were as many. -/
def backwardWords (buffer : Buffer) : Nat → Nat → Nat × Bool
  | 0, position => (position, true)
  | count + 1, position =>
    let finish := buffer.backwardWhile (fun c => !isAlphanumeric c) buffer.start position
    if finish = buffer.start then (finish, false)
    else backwardWords buffer count (buffer.backwardWhile isAlphanumeric buffer.start finish)

/-- Go over words, backward for a negative count, and say whether there were as many. -/
def moveWords (buffer : Buffer) (count : Int) (position : Nat) : Nat × Bool :=
  if 0 ≤ count then buffer.forwardWords count.toNat position
  else buffer.backwardWords (-count).toNat position

/-! ### Lines -/

/-- Go forward behind the `wanted`-th end of a line, at most `room` characters, and say how many
ends of lines are missing. -/
def linesForward (buffer : Buffer) : Nat → Nat → Nat → Nat × Nat
  | 0, wanted, position => (position, wanted)
  | room + 1, wanted, position =>
    if wanted = 0 then (position, 0)
    else if buffer.charAt? position = some '\n' then
      linesForward buffer room (wanted - 1) (position + 1)
    else linesForward buffer room wanted (position + 1)

/-- Go backward to right behind the `wanted`-th end of a line, at most `room` characters, and say
how many ends of lines are missing. -/
def linesBackward (buffer : Buffer) : Nat → Nat → Nat → Nat × Nat
  | 0, wanted, position => (position, wanted)
  | room + 1, wanted, position =>
    if buffer.charAt? (position - 1) = some '\n' then
      if wanted = 1 then (position, 0)
      else linesBackward buffer room (wanted - 1) (position - 1)
    else linesBackward buffer room wanted (position - 1)

/-- Go over lines, and say how many lines are missing. A positive count goes to the start of a
later line, where a last line without an end counts as a line passed; zero or a negative count
goes to the start of the present or an earlier line, and what is missing is negative. -/
def moveLines (buffer : Buffer) (count : Int) (start : Nat) : Nat × Int :=
  if 0 < count then
    let (position, missing) := buffer.linesForward (buffer.finish - start) count.toNat start
    let partialLine := 0 < missing && buffer.start < buffer.finish && position != start &&
      buffer.charAt? (position - 1) != some '\n'
    (position, (missing : Int) - if partialLine then 1 else 0)
  else
    let (position, missing) :=
      buffer.linesBackward (start - buffer.start) (1 - count).toNat start
    (position, -((missing - 1 : Nat) : Int))

end Buffer

end LispMachine
