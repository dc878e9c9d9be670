import LispMachine.Depth
import LispMachine.Function
import LispMachine.Instruction.Encode
import LispMachine.Store

/-!
Assembling functions. An assembler appends instructions to a code string, collects their
constants, and lets branches and handlers name labels that are bound to an offset later. Jumps to
labels without an offset are written with a placeholder and noted as fixups; finishing puts the
offsets in and sizes the operand stack.
-/

set_option autoImplicit false

namespace LispMachine

/-- A jump whose target is still to be filled in: where its instruction stands, the label that it
names, and how it spells its target. -/
structure Fixup where
  source : Nat
  label : Nat
  form : BranchForm
  deriving DecidableEq

/-- Code under construction. -/
structure Assembler where
  code : Code := #[]
  constants : Array Value := #[]
  /-- The offsets of the labels, `none` while a label is not bound. -/
  labels : Array (Option Nat) := #[]
  fixups : Array Fixup := #[]

/-- An action of an assembler. When it fails, what it has written stays written. -/
abbrev Assembly := EStateM EncodeError Assembler

namespace Assembler

/-- The offset that a label is bound to. -/
def offsetOf? (assembler : Assembler) (label : Nat) : Option Nat :=
  assembler.labels[label]?.join

/-- The place of a constant in the pool, and the assembler with the constant in it. Values that
are the same share a place. -/
def constantIndex (assembler : Assembler) (value : Value) : Nat × Assembler :=
  match assembler.constants.findIdx? (· == value) with
  | some index => (index, assembler)
  | none =>
    (assembler.constants.size, { assembler with constants := assembler.constants.push value })

end Assembler

namespace Assembly

/-- The number of a new label, which is not bound yet. -/
def label : Assembly Nat :=
  modifyGet fun assembler =>
    (assembler.labels.size, { assembler with labels := assembler.labels.push none })

/-- Bind a label to the present end of the code. -/
def bindLabel (label : Nat) : Assembly Unit :=
  modify fun assembler =>
    { assembler with
      labels := assembler.labels.setIfInBounds label (some assembler.code.size) }

/-- The place of a constant in the pool, where it is added if it is missing. -/
def constantIndex (value : Value) : Assembly Nat :=
  modifyGet fun assembler => assembler.constantIndex value

/-- Add a constant to the pool, also if it is already there. -/
def addConstant (value : Value) : Assembly Nat :=
  modifyGet fun assembler =>
    (assembler.constants.size, { assembler with constants := assembler.constants.push value })

/-- Append an instruction. -/
def emit (instruction : Instruction) : Assembly Unit := fun assembler =>
  match CodeWriter.instruction instruction assembler.code with
  | .ok _ code => .ok () { assembler with code := code }
  | .error reason code => .error reason { assembler with code := code }

/-- Push a constant. -/
def constant (value : Value) : Assembly Unit := do
  emit (.constant (← constantIndex value))

/-- Push the value of a variable. -/
def varRef (symbol : Value) : Assembly Unit := do
  emit (.varRef (← constantIndex symbol))

/-- Pop a value into a variable. -/
def varSet (symbol : Value) : Assembly Unit := do
  emit (.varSet (← constantIndex symbol))

/-- Pop a value and bind a variable to it. -/
def varBind (symbol : Value) : Assembly Unit := do
  emit (.varBind (← constantIndex symbol))

def operation (op : Operation) : Assembly Unit := emit (.operation op)

/-- Note that the jump at an offset waits for a label. -/
def addFixup (fixup : Fixup) : Assembly Unit :=
  modify fun assembler => { assembler with fixups := assembler.fixups.push fixup }

/-- Append a branch to a label. -/
def branch (kind : BranchKind) (form : BranchForm) (label : Nat) : Assembly Unit := do
  let assembler ← get
  let source := assembler.code.size
  match assembler.offsetOf? label with
  | some target => emit (.branch kind form target)
  | none =>
    emit (.branch kind form (source + 2))
    addFixup ⟨source, label, form⟩

/-- Append the push of a handler that resumes at a label. -/
def pushHandler (kind : HandlerKind) (label : Nat) : Assembly Unit := do
  let source := (← get).code.size
  emit (.pushHandler kind 0)
  addFixup ⟨source, label, .absolute⟩

end Assembly

/-- The code with the target of one jump filled in. -/
def Fixup.apply (fixup : Fixup) (target : Nat) (code : Code) : Except EncodeError Code :=
  match fixup.form with
  | .absolute =>
    if target > 0xffff then .error (.operandTooLarge "branch target" target)
    else .ok ((code.setIfInBounds (fixup.source + 1) (UInt8.ofNat target)).setIfInBounds
      (fixup.source + 2) (UInt8.ofNat (target / 256)))
  | .relative =>
    match relativeOperand? fixup.source target with
    | some operand => .ok (code.setIfInBounds (fixup.source + 1) (UInt8.ofNat operand))
    | none => .error (.relativeOutOfRange fixup.source target)

namespace Assembler

/-- The code with all jumps filled in, in the order in which they were written. -/
def resolve (assembler : Assembler) : Except EncodeError Code :=
  assembler.fixups.foldlM
    (fun code fixup =>
      match assembler.offsetOf? fixup.label with
      | some target => fixup.apply target code
      | none => .error (.unboundLabel fixup.label))
    assembler.code

/-- The finished function, whose operand stack is as deep as its code can need. -/
def finish (assembler : Assembler) (parameters : Parameters) :
    Except (Stop EncodeError) Function := do
  let code ← assembler.resolve.mapError .signal
  let function : Function :=
    { code := code, constants := assembler.constants, maxDepth := 0, parameters := parameters }
  match function.entryDepth? with
  | none => throw (.exhausted .sizes)
  | some entry =>
    match code.maxDepth entry.toNat with
    | .ok depth => return { function with maxDepth := depth }
    | .error fault => throw (.signal (.invalid fault))

/-- A finished function has the code with all jumps filled in, the constants of the assembler and the
depth that the code can need when it is entered with the slots of the arguments. -/
theorem finish_eq_ok_iff {assembler : Assembler} {parameters : Parameters} {subject : Function} :
    assembler.finish parameters = .ok subject ↔
      ∃ code depth, assembler.resolve = .ok code ∧ subject.entryDepth < UInt64.size ∧
        code.maxDepth subject.entryDepth = .ok depth ∧
        subject = ⟨none, code, assembler.constants, depth, parameters, none⟩ := by
  constructor
  · intro hfinish
    unfold finish at hfinish
    cases hcode : assembler.resolve with
    | error reason =>
      rw [hcode] at hfinish
      cases hfinish
    | ok code =>
      rw [hcode] at hfinish
      dsimp only [bind, Except.bind, Except.mapError] at hfinish
      split at hfinish
      · cases hfinish
      · next entry hentry =>
        rw [Function.entryDepth?_eq_some_iff] at hentry
        rw [hentry] at hfinish
        split at hfinish
        · next depth hdepth =>
          cases hfinish
          exact ⟨code, depth, rfl, hentry ▸ entry.toNat_lt, hdepth, rfl⟩
        · cases hfinish
  · rintro ⟨code, depth, hcode, hentry, hdepth, rfl⟩
    obtain ⟨entry, hentry⟩ : ∃ entry : Size, entry.toNat =
        ({ code := code, constants := assembler.constants, maxDepth := 0,
           parameters := parameters } : Function).entryDepth :=
      ⟨.ofNat _, UInt64.toNat_ofNat_of_lt' hentry⟩
    have hdepth : code.maxDepth entry.toNat = .ok depth := hentry ▸ hdepth
    unfold finish
    rw [hcode]
    dsimp only [bind, Except.bind, Except.mapError]
    rw [Function.entryDepth?_eq_some_iff.mpr hentry]
    dsimp only
    rw [hdepth]
    rfl

/-- The finished function with an argument template. -/
def finishTemplate (assembler : Assembler) (mandatory positional : Nat) (rest : Bool) :
    Except (Stop EncodeError) Function :=
  match Template.make mandatory positional rest with
  | .ok template => assembler.finish (.template template)
  | .error _ => .error (.signal (.operandTooLarge "args template" mandatory))

end Assembler

end LispMachine
