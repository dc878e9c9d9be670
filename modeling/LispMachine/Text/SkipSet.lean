/-!
The sets of characters that `skip-chars-forward` and `skip-chars-backward` pass over. A set is
spelled as characters and ranges, `\` before a character takes it as it is, and `^` at the start
turns the set around.
-/

set_option autoImplicit false

namespace LispMachine

/-- A set of characters: those in some range or, if `negated`, in none. -/
structure SkipSet where
  negated : Bool
  ranges : List (Char × Char)

namespace SkipSet

/-- The ranges that a text spells. A range whose end comes before its start is empty. A backslash
at the end of the text is ignored, and a hyphen there stands for itself. -/
def parseRanges : List Char → List (Char × Char)
  | [] => []
  | ['\\'] => []
  | '\\' :: c :: '-' :: last :: rest => addRange c last (parseRanges rest)
  | '\\' :: c :: rest => (c, c) :: parseRanges rest
  | c :: '-' :: last :: rest => addRange c last (parseRanges rest)
  | c :: rest => (c, c) :: parseRanges rest
where
  /-- Put a range in front of others unless it is empty. -/
  addRange (first last : Char) (ranges : List (Char × Char)) : List (Char × Char) :=
    if first ≤ last then (first, last) :: ranges else ranges

/-- The set that a text spells. -/
def parse : List Char → SkipSet
  | '^' :: rest => ⟨true, parseRanges rest⟩
  | text => ⟨false, parseRanges text⟩

def contains (set : SkipSet) (c : Char) : Bool :=
  (set.ranges.any fun range => range.1 ≤ c && c ≤ range.2) != set.negated

end SkipSet

end LispMachine
