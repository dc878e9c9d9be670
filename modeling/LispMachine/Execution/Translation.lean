import LispMachine.Function
import LispMachine.Scan

/-!
Translation of a function into native code. The linear scan of the code becomes one piece of
native code after the other, with a trap behind the last one, so an offset of the scan becomes the
place with the same number. Sites are numbered in the order in which handlers are pushed in the
code.
-/

set_option autoImplicit false

namespace LispMachine

/-- The place that an offset becomes. What is no offset of the scan, as the end of the code,
becomes the place of the last trap. -/
def Code.place (code : Code) (offset : Nat) : Nat := (code.scan.map Scanned.offset).idxOf offset

/-- The offset at which a handler that a scanned instruction pushes goes on. -/
def Scanned.handlerTarget? (scanned : Scanned) : Option Nat :=
  match scanned.content with
  | .ok (.pushHandler _ target, _) => some target
  | _ => none

namespace Function

/-- What uses a constant, or the trap if there is no such constant. -/
def withConstant (function : Function) (index : Nat) (use : Value → NativeOperation) :
    NativeOperation :=
  match function.constant index with
  | .ok value => use value
  | .error fault => .trap fault

/-- What becomes of the instruction at an offset, before which `sites` sites were numbered. -/
def translateInstruction (function : Function) (offset sites : Nat) :
    Instruction → NativeOperation
  | .stackRef n => .copy n
  | .dup => .copy 0
  | .constant index => function.withConstant index .push
  | .varRef index => function.withConstant index .readVariable
  | .varSet index => function.withConstant index .writeVariable
  | .varBind index => function.withConstant index .bindVariable
  | .call count => .call count
  | .unbind count => .unbind count
  | .unbindAll => .unbindAll
  | .popHandler => .popHandler
  | .pushHandler kind _ => .pushHandler kind sites
  | .branch kind _ target =>
    if function.code.size < target then .trap (.branchOutOfRange offset target)
    else .jump kind (function.code.place target) (target ≤ offset)
  | .ret => .ret
  | .discard => .drop 1
  | .discardN count preserveTop =>
    if preserveTop && 0 < count then .dropUnder count else .drop count
  | .stackSet n => .moveTo n
  | .listN count => .gather .list count
  | .concatN count => .gather .concat count
  | .insertN count => .gather .insert count
  | .operation op => .operation op

/-- What becomes of a scanned instruction. An undecodable byte becomes a trap. -/
def translateScanned (function : Function) (guarded : Bool) (sites : Nat) (scanned : Scanned) :
    NativeStep :=
  match scanned.content with
  | .ok (instruction, _) =>
    let need : StackNeed := ⟨instruction.reach, instruction.effect.toNat⟩
    ⟨if guarded then some need else none,
      function.translateInstruction scanned.offset sites instruction⟩
  | .error fault => ⟨none, .trap fault⟩

/-- The native code of a part of the scan, before which `sites` sites were numbered. -/
def translateFrom (function : Function) (guarded : Bool) : Nat → List Scanned → List NativeStep
  | _, [] => [⟨none, .trap (.fellOffEnd function.displayName)⟩]
  | sites, scanned :: rest =>
    function.translateScanned guarded sites scanned ::
      function.translateFrom guarded (sites + scanned.handlerTarget?.toList.length) rest

/-- Only an instruction that pushes a handler becomes one that does. -/
theorem handlerTarget?_isSome_of_translateScanned {function : Function} {guarded : Bool}
    {sites site : Nat} {scanned : Scanned} {kind : HandlerKind}
    (hpushes : (function.translateScanned guarded sites scanned).operation =
      .pushHandler kind site) :
    site = sites ∧ scanned.handlerTarget?.isSome := by
  obtain ⟨offset, content⟩ := scanned
  cases content with
  | error fault => cases hpushes
  | ok decoded =>
    obtain ⟨instruction, next⟩ := decoded
    dsimp only [translateScanned] at hpushes
    cases instruction with
    | pushHandler =>
      cases hpushes
      exact ⟨rfl, rfl⟩
    | constant | varRef | varSet | varBind =>
      dsimp only [translateInstruction, withConstant] at hpushes
      split at hpushes <;> cases hpushes
    | branch | discardN =>
      dsimp only [translateInstruction] at hpushes
      split at hpushes <;> cases hpushes
    | _ => cases hpushes

/-- The handlers of a part of the scan are pushed with the numbers that follow `sites`. -/
theorem lt_of_mem_translateFrom {function : Function} {guarded : Bool} {sites : Nat}
    {scan : List Scanned} {step : NativeStep}
    (hstep : step ∈ function.translateFrom guarded sites scan) {kind : HandlerKind} {site : Nat}
    (hpushes : step.operation = .pushHandler kind site) :
    site < sites + (scan.filterMap Scanned.handlerTarget?).length := by
  induction scan generalizing sites with
  | nil =>
    rw [translateFrom, List.mem_singleton] at hstep
    subst hstep
    cases hpushes
  | cons scanned rest ih =>
    rw [translateFrom, List.mem_cons] at hstep
    rw [List.filterMap_cons]
    rcases hstep with rfl | hlater
    · obtain ⟨rfl, htarget⟩ := handlerTarget?_isSome_of_translateScanned hpushes
      obtain ⟨target, htarget⟩ := Option.isSome_iff_exists.mp htarget
      simp only [htarget, List.length_cons]
      omega
    · have hsite := ih hlater
      cases htarget : scanned.handlerTarget? <;> simp [htarget] at hsite ⊢ <;> omega

/-- The native code of a function, which checks its stack if it is guarded. -/
def translate (function : Function) (guarded : Bool) : NativeCode where
  steps := (function.translateFrom guarded 0 function.code.scan).toArray
  sites := ((function.code.scan.filterMap Scanned.handlerTarget?).map function.code.place).toArray
  sited := by
    intro step hstep kind site hpushes
    have hsite := lt_of_mem_translateFrom (List.mem_toArray.mp hstep) hpushes
    simpa using hsite

theorem steps_translate (function : Function) (guarded : Bool) :
    (function.translate guarded).steps =
      (function.translateFrom guarded 0 function.code.scan).toArray :=
  rfl

theorem sites_translate (function : Function) (guarded : Bool) :
    (function.translate guarded).sites =
      ((function.code.scan.filterMap Scanned.handlerTarget?).map function.code.place).toArray :=
  rfl

end Function

end LispMachine
