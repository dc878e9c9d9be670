import LispMachine.Assembly
import LispMachine.Proofs.Depth.Paths
import LispMachine.Proofs.Run.Equal
import LispMachine.Proofs.Run.Progress

/-!
What the analysis of the depth is for: a function whose operand stack is as deep as the analysis says
does not run out of it. Every point that an interpreted frame comes to lies on a path through the
code (`course_of_bounded`), so where the depth holds along all paths, each instruction fits on its
stack and each handler finds room for what it caught. The invocation then ends as it would if it were
stopped before the first stack fault of its frame (`Function.sparesStack_of_bounded`).

The main statement is `Code.maxDepth_holds_iff`. The analysis can be wrong: where two paths meet with
different depths, it follows only the one that its walk came by first, and
`Code.maxDepth_too_small` is code that overflows the stack for which it was analysed.
-/

set_option autoImplicit false

namespace LispMachine

open LispMachine.Action Storage Engine

/-! ### Runs without stack faults -/

/-- The watch that lets no stack fault pass. -/
def sparesStack : Event → Machine → Bool
  | .overdrawing _, _ => false
  | _, _ => true

/-- When the function is interpreted, its frame raises no stack fault: the invocation ends as one
that is stopped before such a fault. What the function calls is not watched. -/
def Function.SparesStack (subject : Function) : Prop :=
  ∀ (machine : Machine) (id : Nat) (arguments : List Value) (steps : Nat),
    machine.functions[id]? = some subject → machine.settings.compileOnFirstCall = false →
    let spared : Caller := { Caller.bounded steps with permits := sparesStack }
    (∀ value after, invoke (.bounded steps) id arguments machine = .ok value after →
      invoke spared id arguments machine = .ok value after) ∧
    ∀ reason after, invoke (.bounded steps) id arguments machine = .error (.signal reason) after →
      invoke spared id arguments machine = .error (.signal reason) after

/-- Apart from the stack faults of its own frame, a caller that lets none pass runs as one that lets
everything pass. -/
theorem companions_sparesStack (steps : Nat) :
    Companions (.equal False) (.bounded steps)
      { Caller.bounded steps with permits := sparesStack } := by
  have hsame : WatchedCompanions (.equal False) (.bounded steps) (.bounded steps) :=
    companions_equal (fun _ _ _ ↦ rfl) steps
  refine ⟨rfl, hsame.apply, fun event hcourse _ _ ↦ ?_⟩
  cases event with
  | overdrawing => cases hcourse
  | _ => rfl

/-! ### Frames along paths -/

theorem Instruction.effect_of_isTerminator {instruction : Instruction}
    (hends : instruction.isTerminator = true) : instruction.effect = 0 := by
  cases instruction with
  | ret => rfl
  | branch kind form target =>
    cases kind with
    | goto => rfl
    | _ => cases hends
  | _ => cases hends

/-- An instruction that is met on a path fits on a stack that can hold the greatest depth. -/
theorem Code.Bounded.fitsOn {code : Code} {entry most offset next : Nat} {stack : OperandStack}
    {instruction : Instruction} (hbounded : code.Bounded entry most) (hlimit : most ≤ stack.limit)
    (hpath : code.Reaches (0, entry) (offset, stack.depth))
    (hdecode : code.decode offset = .ok (instruction, next)) : instruction.FitsOn stack := by
  obtain ⟨hmost, hreach⟩ := hbounded _ hpath
  refine ⟨hreach hdecode, ?_⟩
  rcases Int.lt_or_le 0 instruction.effect with hgrows | hshrinks
  · have hfalls : instruction.isTerminator = false := by
      rw [← Bool.not_eq_true]
      intro hends
      rw [Instruction.effect_of_isTerminator hends] at hgrows
      exact absurd hgrows (Int.lt_irrefl 0)
    have hafter : ((stack.depth + instruction.effect.toNat : Nat) : Int) =
        stack.depth + instruction.effect := by omega
    have hnext := hbounded _ (hpath.tail (.step hdecode (hreach hdecode) (.on hfalls hafter)))
    exact Nat.le_trans hnext.le_most hlimit
  · have hnone : instruction.effect.toNat = 0 := by omega
    rw [hnone]
    exact Nat.le_trans hmost hlimit

/-- A frame whose stack can hold the greatest depth on any path stays on paths and raises no stack
fault. -/
theorem course_of_bounded {bond : Bond} {caller companion : Caller} {code : Code}
    {entry most limit : Nat} (hbounded : code.Bounded entry most) (hlimit : most ≤ limit)
    (hpermits : ∀ instruction stack machine,
      companion.permits (.interpreting instruction stack) machine = true) :
    Course bond caller companion code
      (fun offset stack ↦ code.Reaches (0, entry) (offset, stack.depth) ∧ stack.limit = limit)
      (fun handler ↦ ∃ target, handler.resume = .offset target ∧
        code.Reaches (0, entry) (target, handler.depth + 1)) where
  interpreting _ _ _ _ := hpermits _ _ _
  fits hstands hdecode := .inl (hbounded.fitsOn (hstands.2.symm ▸ hlimit) hstands.1 hdecode)
  room := by
    rintro offset stack handler ⟨-, hstack⟩ ⟨target, -, hpath⟩
    have hmost := (hbounded _ hpath).le_most
    exact .inl (hstack.symm ▸ Nat.le_trans hmost hlimit)
  leads := by
    rintro offset stack instruction next offset' stack' ⟨hpath, hstack⟩ hdecode hleads hsame
    have hreach := (hbounded _ hpath).reach_le hdecode
    exact ⟨hpath.tail (.step hdecode hreach hleads), hsame.trans hstack⟩
  pushed := by
    rintro offset stack kind target next under tag mark ⟨hpath, -⟩ hdecode hunder
    have hreach := (hbounded _ hpath).reach_le hdecode
    exact ⟨target, rfl, hunder ▸ hpath.tail (.step hdecode hreach (.caught kind target))⟩
  resumed := by
    rintro offset stack handler target stack' ⟨-, hstack⟩ ⟨target', hresume, hpath⟩ htarget hdepth
      hsame
    cases hresume.symm.trans htarget
    exact ⟨hdepth ▸ hpath, hsame.trans hstack⟩

/-! ### Invocations -/

/-- Nothing is compiled before a function that has been compiled, or where functions are not compiled
when they are called. -/
theorem invoke_of_settled {machine : Machine} {id : Nat} {subject : Function}
    (hsubject : machine.functions[id]? = some subject)
    (hsettled : subject.compiled ≠ none ∨ machine.settings.compileOnFirstCall = false)
    (caller : Caller) (arguments : List Value) :
    invoke caller id arguments machine =
      unwindingTo caller machine.bindings.length (runInvocation caller subject arguments)
        machine := by
  have hgetD : machine.functions.getD id default = subject := by
    rw [Array.getD_eq_getD_getElem?, hsubject]
    rfl
  have hcompiled : compileIfDue id machine = .ok () machine := by
    change (if machine.settings.compileOnFirstCall then (do let _ ← compile id) else Pure.pure () :
      Engine Unit) machine = _
    split_ifs with hdue
    · obtain hsome | hnot := hsettled
      · obtain ⟨code, hcode⟩ := Option.ne_none_iff_exists'.mp hsome
        exact bind_of_ok (compile_of_compiled hsubject hcode)
      · rw [hdue] at hnot
        cases hnot
    · rfl
  refine (bind_of_ok hcompiled).trans ?_
  rw [← hgetD]
  rfl

/-- A function whose stack can hold the greatest depth on any path of its code raises no stack
fault. -/
theorem Function.sparesStack_of_bounded {subject : Function}
    (hbounded : subject.code.Bounded subject.entryDepth subject.maxDepth)
    (hcompiled : subject.compiled = none) : subject.SparesStack := by
  intro machine id arguments steps hsubject hdue spared
  have hcompanions := companions_sparesStack steps
  have hframes : FramesAgree (.equal False) (.bounded steps) spared subject subject := by
    have hlimit : subject.maxDepth ≤ subject.stackLimit := Nat.le_max_left _ _
    refine .on_course hcompanions hcompiled (course_of_bounded hbounded hlimit fun _ _ _ ↦ rfl) ?_
    exact fun stack hdepth hlimit ↦ ⟨hdepth ▸ .refl, hlimit⟩
  have htogether : Together (.equal False) machine.handlers machine.handlers machine.evalDepth
      machine machine := ⟨rfl, rfl, rfl, rfl, rfl, rfl, rfl, rfl, rfl, nofun⟩
  have hend := agree_bracketed hcompanions (agree_runInvocation hcompanions hframes arguments) _ _
    _ _ (HandlerStack.Alike.refl machine.handlers) machine machine ⟨htogether, rfl⟩
  have hinvoke (caller : Caller) : invoke caller id arguments machine =
      (do
        let mark ← bindingMark
        unwindingTo caller mark (runInvocation caller subject arguments) : Engine Value) machine :=
    invoke_of_settled hsubject (.inr hdue) caller arguments
  rw [← hinvoke, ← hinvoke] at hend
  generalize invoke spared id arguments machine = sparing at hend ⊢
  constructor
  · intro value after hrun
    rw [hrun] at hend
    cases hend with
    | ok hdone =>
      obtain ⟨rfl, hafter, -⟩ := hdone
      rw [hafter.eq_of_equal]
  · intro reason after hrun
    rw [hrun] at hend
    cases hend with
    | signal hdone => rw [hdone.1.eq_of_equal]

/-- The depth that the analysis gives holds along all paths of the code exactly when it holds along
those that go through a point which the analysis overlooked. Where it holds, a function that is
assembled to this code raises no stack fault when it is interpreted. -/
theorem Code.maxDepth_holds_iff {code : Code} {entry most : Nat}
    (hmax : code.maxDepth entry = .ok most) :
    (code.Bounded entry most ↔
      ∀ overlooked point, code.Reaches (0, entry) overlooked → code.Overlooks entry overlooked →
        code.Reaches overlooked point → code.Within most point) ∧
    (code.Bounded entry most → ∀ (assembler : Assembler) (parameters : Parameters)
      (subject : Function), assembler.finish parameters = .ok subject → subject.code = code →
        subject.entryDepth = entry → subject.SparesStack) := by
  refine ⟨bounded_iff hmax, fun hbounded assembler parameters subject hfinish hcode hentry ↦ ?_⟩
  obtain ⟨_, depth, -, -, hdepth, rfl⟩ := Assembler.finish_eq_ok_iff.mp hfinish
  subst hcode hentry
  cases hmax.symm.trans hdepth
  exact Function.sparesStack_of_bounded hbounded rfl

/-- The analysis overlooks nothing in code that pushes a constant and returns it. -/
theorem Code.maxDepth_holds_iff_constant :
    Code.maxDepth #[0xC0, 0x87] 0 = .ok 1 ∧ Code.Bounded #[0xC0, 0x87] 0 1 := by
  have hmax : Code.maxDepth #[0xC0, 0x87] 0 = .ok 1 := by decide +kernel
  refine ⟨hmax, (Code.maxDepth_holds_iff hmax).1.mpr fun overlooked point hpath hmissed _ ↦ ?_⟩
  have hfound : Code.walk #[0xC0, 0x87] 0 = .ok ⟨#[some 0, some 1], 1⟩ := by decide +kernel
  obtain ⟨walk, hwalk, hmissed⟩ := hmissed
  cases hfound.symm.trans hwalk
  refine absurd hmissed ?_
  have hclosed : Code.Closed #[0xC0, 0x87] [(0, 0), (1, 1)] := by decide +kernel
  have hmem := hclosed.mem_of_reaches List.mem_cons_self hpath
  rw [List.mem_pair] at hmem
  unfold DepthWalk.Overlooks
  rcases hmem with rfl | rfl <;> simp

/-- Two ways lead to the last constant, one with a value on the stack and one with none. The walk
comes by the second, finds that one slot is enough, and the first then overflows the stack. -/
theorem Code.maxDepth_too_small :
    let code : Code := #[0xC0, 0x83, 7, 0, 0x82, 8, 0, 0xC0, 0xC0, 0x87]
    let subject : Function :=
      { code := code, constants := #[.nil], maxDepth := 1, parameters := .dynamic [] }
    let machine : Machine := { heap := .empty 1, settings := {}, functions := #[subject] }
    code.maxDepth 0 = .ok 1 ∧ code.Reaches (0, 0) (9, 2) ∧ ¬ code.Bounded 0 1 ∧
      Assembler.finish { code := code, constants := #[.nil] } (.dynamic []) = .ok subject ∧
      (attempt (invoke (.bounded 8) 0 [])).run' machine =
        some (.error (.fatal (.stackOverflow 1))) := by
  intro code subject machine
  have hmax : code.maxDepth 0 = .ok 1 := by decide +kernel
  have hconstant : code.decode 0 = .ok (.constant 0, 1) := by decide +kernel
  have hbranch : code.decode 1 = .ok (.branch .ifNil .absolute 7, 4) := by decide +kernel
  have hconstant' : code.decode 7 = .ok (.constant 0, 8) := by decide +kernel
  have hconstant'' : code.decode 8 = .ok (.constant 0, 9) := by decide +kernel
  have hpath : code.Reaches (0, 0) (9, 2) :=
    (((Relation.ReflTransGen.refl.tail (.step hconstant (by decide) (.on rfl rfl))).tail
      (.step hbranch (by decide) (.taken .ifNil .absolute 7))).tail
      (.step hconstant' (by decide) (.on rfl rfl))).tail
      (.step hconstant'' (by decide) (.on rfl rfl))
  have hfinish : Assembler.finish { code := code, constants := #[.nil] } (.dynamic []) =
      .ok subject := by
    have hresolve : Assembler.resolve { code := code, constants := #[.nil] } = .ok code := rfl
    exact Assembler.finish_eq_ok_iff.mpr
      ⟨code, 1, hresolve, show 0 < UInt64.size by decide, hmax, rfl⟩
  refine ⟨hmax, hpath, fun hbounded ↦ ?_, hfinish, by decide +kernel⟩
  exact absurd (hbounded _ hpath).le_most (by decide)

end LispMachine
