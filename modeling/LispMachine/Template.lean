/-!
Argument templates: how many arguments a function takes when it receives them on its operand
stack. The first `mandatory` are required, up to `positional` are given a slot of their own, and
with `rest` the remaining ones arrive as a list in one more slot. A template packs into one
integer: seven bits of `mandatory`, one bit of `rest`, and `positional` above them.
-/

set_option autoImplicit false

namespace LispMachine

/-- The greatest number of arguments, `none` when there is no bound. -/
abbrev ArityBound := Option Nat

/-- How many arguments a function takes. -/
structure Template where
  mandatory : Nat
  positional : Nat
  rest : Bool
  deriving DecidableEq

/-- Why a template is refused. -/
inductive TemplateError where
  | tooManyMandatory (mandatory : Nat)
  | mandatoryExceedsPositional (mandatory positional : Nat)
  | negative (packed : Int)
  deriving DecidableEq

/-- The refusal in words. -/
def TemplateError.message : TemplateError → String
  | .tooManyMandatory mandatory => s!"too many mandatory arguments: {mandatory}"
  | .mandatoryExceedsPositional mandatory positional =>
    s!"mandatory count {mandatory} exceeds positional count {positional}"
  | .negative packed => s!"negative argument template {packed}"

namespace Template

/-- The most mandatory arguments that the packed form has room for. -/
def maxMandatory : Nat := 127

/-- A checked template. -/
def make (mandatory positional : Nat) (rest : Bool) : Except TemplateError Template :=
  if maxMandatory < mandatory then .error (.tooManyMandatory mandatory)
  else if positional < mandatory then
    .error (.mandatoryExceedsPositional mandatory positional)
  else .ok ⟨mandatory, positional, rest⟩

/-- The template that an integer packs. -/
def unpack (packed : Int) : Except TemplateError Template :=
  if packed < 0 then .error (.negative packed)
  else make (packed.toNat % 128) (packed.toNat / 256) (packed.toNat / 128 % 2 = 1)

/-- The template as one 64-bit integer. -/
def pack (template : Template) : Int :=
  Int.bmod
    (template.mandatory + (if template.rest then 128 else 0) + 256 * template.positional)
    0x10000000000000000

/-- The greatest number of arguments. -/
def maxArguments (template : Template) : ArityBound :=
  if template.rest then none else some template.positional

/-- Whether `count` arguments are neither too few nor too many. -/
def accepts (template : Template) (count : Nat) : Bool :=
  template.mandatory ≤ count && (template.rest || count ≤ template.positional)

/-- The number of stack slots that the arguments fill. It may be too great for a size. -/
def entryDepth (template : Template) : Nat :=
  template.positional + if template.rest then 1 else 0

end Template

end LispMachine
