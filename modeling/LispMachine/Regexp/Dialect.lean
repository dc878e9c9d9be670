import LispMachine.Regexp.Basic

/-!
The two dialects in which regular expressions are written. Programs use the backslashed dialect,
where groups, alternatives and counts are written with a backslash and the bare characters stand
for themselves. The bare dialect has it the other way round. `bareDialect?` puts an expression
of the first dialect into the second.
-/

set_option autoImplicit false

namespace LispMachine

namespace Regexp

/-- Whether the bare dialect gives a character a meaning of its own. -/
def isSpecial (c : Char) : Bool :=
  "\\.+*?()|[]\x7b\x7d^$#&-~".toList.contains c

/-- The bare dialect's spelling of a character that stands for itself. -/
def literally (c : Char) : List Char := if isSpecial c then ['\\', c] else [c]

/-- Where in an expression the next character stands. -/
inductive Place where
  | outside
  /-- In a set of characters; `first` says that none of its characters has been met yet. -/
  | inSet (first : Bool)
  /-- In the name of a class in a set. -/
  | inClass

/-- The bare spelling of what a set says with one character. -/
def bareSetItem (c : Char) : List Char :=
  if c = '\\' || c = '[' || c = ']' || c = '&' || c = '~' then ['\\', c] else [c]

/-- The bare spelling of an expression from a place on. -/
def bareFrom : Place → List Char → Except RegexpError (List Char)
  | .outside, [] => .ok []
  | .outside, ['\\'] => .error .trailingBackslash
  | .outside, '\\' :: '(' :: '?' :: ':' :: rest => spell ['(', '?', ':'] .outside rest
  | .outside, '\\' :: '(' :: '?' :: _ => .error .unsupportedGroup
  | .outside, '\\' :: 's' :: kind :: rest =>
    if kind = '-' || kind = ' ' then spell ['\\', 's'] .outside rest
    else if kind = 'w' then spell ['\\', 'w'] .outside rest
    else .error .unsupportedSyntaxClass
  | .outside, '\\' :: 'S' :: kind :: rest =>
    if kind = '-' || kind = ' ' then spell ['\\', 'S'] .outside rest
    else if kind = 'w' then spell ['\\', 'W'] .outside rest
    else .error .unsupportedSyntaxClass
  | .outside, '\\' :: c :: rest =>
    if c = 's' || c = 'S' then .error .unsupportedSyntaxClass
    else if '1' ≤ c && c ≤ '9' then .error .backReference
    else if c = '(' || c = ')' || c = '|' || c = '\x7b' || c = '\x7d' then spell [c] .outside rest
    else if c = '\x60' then spell ['\\', 'A'] .outside rest
    else if c = '\x27' then spell ['\\', 'z'] .outside rest
    else if c = 'w' || c = 'W' || c = 'b' || c = 'B' then spell ['\\', c] .outside rest
    else spell (literally c) .outside rest
  | .outside, '[' :: '^' :: rest => spell ['[', '^'] (.inSet true) rest
  | .outside, '[' :: rest => spell ['['] (.inSet true) rest
  | .outside, c :: rest =>
    if c = '(' || c = ')' || c = '|' || c = '\x7b' || c = '\x7d' then
      spell ['\\', c] .outside rest
    else spell [c] .outside rest
  | .inSet _, [] => .error .unmatchedBracket
  | .inSet false, ']' :: rest => spell [']'] .outside rest
  | .inSet _, '[' :: ':' :: rest => spell ['[', ':'] .inClass rest
  | .inSet _, c :: rest => spell (bareSetItem c) (.inSet false) rest
  | .inClass, [] => .error .unmatchedBracket
  | .inClass, ']' :: rest => spell [']'] (.inSet false) rest
  | .inClass, c :: rest => spell [c] .inClass rest
where
  /-- Some spelled characters, then the rest. -/
  spell (spelled : List Char) (place : Place) (rest : List Char) :
      Except RegexpError (List Char) := do
    return spelled ++ (← bareFrom place rest)

/-- An expression of the backslashed dialect in the bare dialect. -/
def bareDialect (pattern : List Char) : Except RegexpError (List Char) :=
  bareFrom .outside pattern

end Regexp

end LispMachine
