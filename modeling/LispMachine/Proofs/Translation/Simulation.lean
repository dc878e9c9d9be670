import LispMachine.Proofs.Arithmetic.Words
import LispMachine.Proofs.OperandStack
import LispMachine.Proofs.Run.Invocations
import LispMachine.Proofs.Translation.Places

/-!
Interpreted and native frames side by side. While the operand stack has what each instruction needs
and room for what it pushes, the checks of the interpreter and those of guarded native code pass,
and an instruction does the same as its translation. An interpreted frame that stands at a boundary
corresponds to a native frame at its place, a handler with an offset to one whose site goes on at
the place of that offset. One step leads to frames that correspond again (`framed_step`), also
through a handler (`framed_advance_native`), and so the whole frames give the same
(`framed_interpret_runNative`).
-/

set_option autoImplicit false

namespace LispMachine

open LispMachine.Action Storage Engine

variable {bond : Bond}

/-! ### What corresponds -/

/-- An outcome of the interpreter and one of native code lead to the same point of the run. -/
inductive StepOutcome.Corresponds (code : Code) : StepOutcome → NativeOutcome → Prop where
  | running {offset place : Nat} (hboundary : code.Boundary offset)
      (hplace : code.place offset = place) (stack : OperandStack) :
      Corresponds code (.running offset stack) (.running place stack)
  | returned (value : Value) : Corresponds code (.returned value) (.returned value)

/-- A handler of an interpreted frame and one of a native frame that go on at the same point. -/
structure Handler.Corresponds (code : Code) (native : NativeCode) (left right : Handler) :
    Prop where
  alike : left.Alike right
  resumes : ∃ target site, left.resume = .offset target ∧ right.resume = .native site ∧
    native.sites[site]? = some (code.place target) ∧ code.Boundary target

/-- What is known of an instruction that the scan holds: the offset after it, its targets and the
site of the handler that it pushes. -/
structure Instruction.Placed (code : Code) (native : NativeCode) (place sites next : Nat)
    (instruction : Instruction) : Prop where
  next_boundary : code.Boundary next
  next_place : code.place next = place + 1
  target_boundary : ∀ target, code.labelTarget? instruction = some target → code.Boundary target
  site : ∀ kind target, instruction = .pushHandler kind target →
    native.sites[sites]? = some (code.place target)

section Simulation

variable {subject : Function} {native : NativeCode} {low low' : HandlerStack} {depth mark : Nat}
  {caller companion : Caller}

/-- What is said of an interpreted and a native action within corresponding frames. -/
abbrev FramedNative (bond : Bond) (code : Code) (native : NativeCode) (low low' : HandlerStack)
    (depth : Nat) (first : Engine StepOutcome) (second : Engine NativeOutcome) : Prop :=
  Framed bond (Handler.Corresponds code native) low low' depth (StepOutcome.Corresponds code)
    first second

theorem Frame.Setting.corresponds {code : Code} (hlow : HandlerStack.Alike low low') :
    Frame.Setting (Handler.Corresponds code native) low low' :=
  ⟨fun hcorresponds ↦ hcorresponds.alike, hlow⟩

variable (hlow : HandlerStack.Alike low low') (hcompanions : Companions bond caller companion)

include hlow hcompanions

/-- What both frames do in the same way, before they go on. -/
theorem framed_shared {α : Type} {code : Code} {use : LogUse} {action : Caller → Engine α}
    (hcomposed : Composed use action) {next : α → Engine StepOutcome}
    {next' : α → Engine NativeOutcome}
    (hnext : ∀ result, FramedNative bond code native low low' depth (next result) (next' result)) :
    FramedNative bond code native low low' depth (action caller >>= next)
      (action companion >>= next') :=
  .bind_eq (Agree.framed (.corresponds hlow) ((Composed.freely hcomposed).agree hcompanions)) hnext

omit hlow hcompanions in
/-- What uses a constant, or stops where there is none. -/
theorem framed_withConstant {frame : Frame} {place index : Nat} {stack : OperandStack}
    {action : Value → Engine StepOutcome} {use : Value → NativeOperation}
    (huse : ∀ value, FramedNative bond subject.code native low low' depth (action value)
      (nativeExecute companion frame place stack (use value))) :
    FramedNative bond subject.code native low low' depth
      (ofFaulty (subject.constant index) >>= action)
      (nativeExecute companion frame place stack (subject.withConstant index use)) := by
  unfold Function.withConstant
  cases subject.constant index with
  | ok value => exact huse value
  | error fault => exact .fault fault

variable {instruction : Instruction} {place sites next : Nat} {stack : OperandStack}
  (hplaced : instruction.Placed subject.code native place sites next)
  (hfits : instruction.FitsOn stack)

include hplaced hfits

theorem framed_branch {kind : BranchKind} {form : BranchForm} {target : Nat}
    (hinstruction : instruction = .branch kind form target) (offset : Nat) :
    FramedNative bond subject.code native low low' depth
      (branch caller ⟨subject.uncompiled, mark, low.length⟩ offset next stack kind target)
      (nativeExecute companion ⟨subject, mark, low.length⟩ place stack
        (subject.translateInstruction offset sites (.branch kind form target))) := by
  subst hinstruction
  dsimp only [branch, Function.translateInstruction, Function.uncompiled]
  by_cases hbeyond : subject.code.size < target
  · rw [if_pos hbeyond, if_pos hbeyond]
    exact .fault _
  rw [if_neg hbeyond, if_neg hbeyond]
  have htarget : subject.code.Boundary target :=
    hplaced.target_boundary target (if_pos (Nat.le_of_not_lt hbeyond))
  have htaken (stack : OperandStack) : FramedNative bond subject.code native low low' depth
      (checkpoint (target ≤ offset) >>= fun _ ↦ Pure.pure (.running target stack))
      (checkpoint (target ≤ offset) >>= fun _ ↦
        Pure.pure (.running (subject.code.place target) stack)) :=
    framed_shared hlow hcompanions (.checkpoint _) fun _ ↦ .pure (.running htarget rfl stack)
  change FramedNative bond subject.code native low low' depth _
    (nativeJump place stack kind (subject.code.place target) (target ≤ offset))
  unfold nativeJump
  by_cases hkind : kind.isConditional = true
  · have hdepth : 0 < stack.depth := by
      have hreach := hfits.reach_le
      rw [Instruction.reach, if_pos hkind] at hreach
      exact hreach
    rw [BranchKind.test_of_conditional hkind hdepth, if_pos hkind]
    by_cases hnil : ((stack.slot 0).isNil == kind.onNil) = true
    · rw [if_pos hnil, if_pos hnil]
      exact htaken _
    · rw [if_neg hnil, if_neg hnil]
      exact .pure (.running hplaced.next_boundary hplaced.next_place _)
  · rw [if_neg hkind]
    cases kind with
    | goto => exact htaken stack
    | _ => exact absurd rfl hkind

/-- An instruction and its translation do the same on a stack on which the instruction fits. -/
theorem framed_translated (offset : Nat) :
    FramedNative bond subject.code native low low' depth
      (execute caller ⟨subject.uncompiled, mark, low.length⟩ offset next stack instruction)
      (nativeExecute companion ⟨subject, mark, low.length⟩ place stack
        (subject.translateInstruction offset sites instruction)) := by
  have hgoes (stack : OperandStack) : FramedNative bond subject.code native low low' depth
      (Pure.pure (.running next stack)) (Pure.pure (.running (place + 1) stack)) :=
    .pure (.running hplaced.next_boundary hplaced.next_place stack)
  have hpushes {stack : OperandStack} (hdepth : stack.depth < stack.limit) (value : Value) :
      FramedNative bond subject.code native low low' depth (pushAndGo caller stack value next)
        (Pure.pure (.running (place + 1) (stack.extend value))) := by
    unfold pushAndGo
    rw [OperandStack.push_of_lt hdepth]
    exact hgoes _
  have hgathers {count : Nat} (hcount : count ≤ stack.depth)
      (hroom : stack.depth + (1 - Instruction.signed count).toNat ≤ stack.limit)
      (gathered : Storage Value) :
      FramedNative bond subject.code native low low' depth
        (liftM gathered >>= fun result ↦ pushAndGo caller (stack.lower count) result next)
        (liftM gathered >>= fun result ↦
          Pure.pure (.running (place + 1) ((stack.lower count).extend result))) :=
    framed_shared hlow hcompanions (.stored gathered) fun result ↦
      hpushes (OperandStack.depth_lower_lt hcount (Instruction.room_of_gathering hroom)) result
  have hreach := hfits.reach_le
  have hroom := hfits.room
  cases instruction with
  | stackRef n =>
    have hpeek : stack.peek n = .ok (stack.slot n) := OperandStack.peek_of_lt hreach
    rw [execute, hpeek]
    exact hpushes hroom _
  | dup =>
    rw [execute, OperandStack.top_of_pos hreach]
    exact hpushes hroom _
  | constant index => exact framed_withConstant fun value ↦ hpushes hroom value
  | varRef index =>
    exact framed_withConstant fun symbol ↦
      framed_shared hlow hcompanions (.stored (variableValue symbol)) fun value ↦
        hpushes hroom value
  | varSet index =>
    rw [execute, OperandStack.pop_of_pos hreach]
    exact framed_withConstant fun symbol ↦
      framed_shared hlow hcompanions (.stored (assign symbol _)) fun _ ↦ hgoes _
  | varBind index =>
    rw [execute, OperandStack.pop_of_pos hreach]
    exact framed_withConstant fun symbol ↦
      framed_shared hlow hcompanions (.bindVariable symbol _) fun _ ↦ hgoes _
  | call count =>
    rw [execute, OperandStack.popSlice_of_le (show count + 1 ≤ stack.depth from hreach)]
    refine framed_shared hlow hcompanions (.apply _ _) fun result ↦ hpushes ?_ result
    exact OperandStack.depth_lower_lt hreach (Nat.le_trans (Nat.le_add_right _ _) hroom)
  | unbind count => exact framed_shared hlow hcompanions (.unbinding count) fun _ ↦ hgoes stack
  | unbindAll =>
    exact .bind_eq (Agree.framed (.corresponds hlow) (agree_unbindTo_freely hcompanions mark))
      fun _ ↦ hgoes stack
  | popHandler =>
    exact .bind_eq (framed_popOwnHandler (.corresponds hlow) rfl rfl) fun _ ↦ hgoes stack
  | pushHandler kind target =>
    rw [execute, OperandStack.pop_of_pos hreach]
    refine .bind_eq (framed_pushOwnHandler _ _ _ fun mark ↦ ⟨⟨rfl, rfl, rfl, rfl⟩, ?_⟩) fun _ ↦
      hgoes _
    exact ⟨target, sites, rfl, rfl, hplaced.site kind target rfl,
      hplaced.target_boundary target rfl⟩
  | branch kind form target =>
    exact framed_branch hlow hcompanions hplaced hfits rfl offset
  | ret =>
    rw [execute, OperandStack.pop_of_pos hreach]
    exact .pure (.returned _)
  | discard =>
    rw [execute, OperandStack.pop_of_pos hreach]
    exact hgoes _
  | discardN count preserveTop =>
    rw [execute, Function.translateInstruction]
    by_cases hkeeps : (preserveTop && decide (0 < count)) = true
    · have hunder : count < stack.depth := by
        rw [Bool.and_eq_true] at hkeeps
        rw [Instruction.reach, if_pos hkeeps.1] at hreach
        exact hreach
      rw [if_pos hkeeps, if_pos hkeeps, OperandStack.discardUnder_of_lt hunder]
      exact hgoes _
    · have hless : count ≤ stack.depth := Nat.le_trans (Nat.le_add_right _ _) hreach
      rw [if_neg hkeeps, if_neg hkeeps, OperandStack.discard_of_le hless]
      exact hgoes _
  | stackSet n =>
    have hdepth : 0 < stack.depth := Nat.zero_lt_of_lt hreach
    have hoverwritten : 0 < (stack.overwrite n (stack.slot 0)).depth := by
      rw [OperandStack.depth_overwrite]
      exact hdepth
    rw [execute, OperandStack.top_of_pos hdepth]
    change FramedNative bond subject.code native low low' depth
      (caller.checked (stack.set n (stack.slot 0)) >>= _) _
    rw [OperandStack.set_of_lt hreach]
    change FramedNative bond subject.code native low low' depth
      (caller.checked (stack.overwrite n (stack.slot 0)).pop >>= _) _
    rw [OperandStack.pop_of_pos hoverwritten]
    exact hgoes _
  | listN count =>
    rw [execute, OperandStack.popSlice_of_le (show count ≤ stack.depth from hreach)]
    exact hgathers hreach hroom (Storage.list _)
  | concatN count =>
    rw [execute, OperandStack.popSlice_of_le (show count ≤ stack.depth from hreach)]
    exact hgathers hreach hroom (concat _)
  | insertN count =>
    rw [execute, OperandStack.popSlice_of_le (show count ≤ stack.depth from hreach)]
    exact hgathers hreach hroom (insert _)
  | operation op =>
    rw [execute, OperandStack.popSlice_of_le (show op.operands ≤ stack.depth from hreach)]
    change FramedNative bond subject.code native low low' depth _
      (op.performInline companion (stack.slots op.operands) >>= _)
    rw [Operation.performInline_eq]
    refine framed_shared hlow hcompanions (.perform op _) fun result ↦ ?_
    dsimp only
    by_cases hop : op.pushes = true
    · rw [if_pos hop, if_pos hop]
      exact hpushes
        (OperandStack.depth_lower_lt hreach (Instruction.room_of_operation hop hroom)) result
    · rw [if_neg hop, if_neg hop]
      exact hgoes _

end Simulation

/-! ### Steps -/

/-- An instruction that the scan holds has its translation at its place. -/
theorem Function.placed {subject : Function} (hlabels : subject.code.misplacedTarget? = none)
    (guarded : Bool) {offset : Nat} (hboundary : subject.code.Boundary offset)
    {instruction : Instruction} {next : Nat}
    (hdecode : subject.code.decode offset = .ok (instruction, next))
    (hoffset : offset < subject.code.size) :
    ∃ sites, (subject.translate guarded).steps[subject.code.place offset]? =
        some (subject.translateScanned guarded sites ⟨offset, .ok (instruction, next)⟩) ∧
      instruction.Placed subject.code (subject.translate guarded) (subject.code.place offset)
        sites next := by
  obtain ⟨before, after, hscan, hlength, hnext, hplace⟩ := hboundary.split hoffset
  rw [hdecode] at hscan
  rw [Code.following_of_decode hdecode] at hnext hplace
  refine ⟨handlersIn before, hlength ▸ translate_step hscan guarded, hnext, hplace, ?_, ?_⟩
  · intro target htarget
    have hscanned : ⟨offset, .ok (instruction, next)⟩ ∈ subject.code.scan := by
      rw [hscan]
      exact List.mem_append_right _ List.mem_cons_self
    exact Code.boundary_of_labelTarget hlabels hscanned htarget
  · rintro kind target rfl
    exact translate_site hscan rfl guarded

section Steps

variable {subject : Function} {low low' : HandlerStack} {depth mark : Nat}
  {caller companion : Caller} (hlow : HandlerStack.Alike low low')
  (hcompanions : Companions bond caller companion)
  (hmetered : ∀ {depth left right} (record : Meter → Meter), bond.ties depth left right →
    bond.ties depth { left with meter := left.meter.map record } right)
  (hwatch : ∀ {instruction stack machine},
    caller.permits (.interpreting instruction stack) machine = true → instruction.FitsOn stack)
  (hexecuting : ∀ {ours theirs depth left right} operation stack,
    Together bond ours theirs depth left right →
    companion.permits (.executing operation stack) right = true)
  (hlabels : subject.code.misplacedTarget? = none)

include hmetered in
theorem framed_countOpcode_left {own : Handler → Handler → Prop} (previous opcode : UInt8) :
    Framed bond own low low' depth Eq (countOpcode previous opcode) (Pure.pure ()) := by
  rintro left right ⟨ours, theirs, hours, htogether⟩
  exact .ok ⟨rfl, ours, theirs, hours, { htogether with tied := hmetered _ htogether.tied }⟩

/-- A run that is watched goes on alone where its caller permits it. -/
theorem framed_observe_left {own : Handler → Handler → Prop} (event : Event) :
    Framed bond own low low' depth (fun _ _ ↦ ∃ machine, caller.permits event machine = true)
      (caller.observe event) (Pure.pure ()) := by
  intro left right howned
  unfold Caller.observe
  by_cases hpermits : caller.permits event left = true
  · rw [if_pos hpermits]
    exact .ok ⟨⟨left, hpermits⟩, howned⟩
  · rw [if_neg hpermits]
    exact .exhausted

/-- A run that is watched on the right only goes on where its caller permits it. -/
theorem framed_observe_right {own : Handler → Handler → Prop} {event : Event}
    (hpermits : ∀ {ours theirs depth left right}, Together bond ours theirs depth left right →
      companion.permits event right = true) :
    Framed bond own low low' depth Eq (Pure.pure ()) (companion.observe event) := by
  rintro left right ⟨ours, theirs, hours, htogether⟩
  unfold Caller.observe
  rw [if_pos (hpermits htogether)]
  exact .ok ⟨rfl, ours, theirs, hours, htogether⟩

theorem guardStack_of_fits {instruction : Instruction} {stack : OperandStack}
    (hfits : instruction.FitsOn stack) :
    guardStack companion stack (some ⟨instruction.reach, instruction.effect.toNat⟩) =
      Pure.pure () := by
  rw [guardStack, StackNeed.check, if_neg (Nat.not_lt.mpr hfits.reach_le),
    if_neg (Nat.not_lt.mpr hfits.room)]
  rfl

include hlow hcompanions hmetered hwatch hexecuting hlabels

/-- One step of the interpreter at a boundary and one of native code at its place. -/
theorem framed_step {offset : Nat} (hboundary : subject.code.Boundary offset)
    (stack : OperandStack) (previous : UInt8) :
    FramedNative bond subject.code (subject.translate true) low low' depth
      (step caller ⟨subject.uncompiled, mark, low.length⟩ ⟨offset, stack, previous⟩)
      (nativeStep companion ⟨subject, mark, low.length⟩ (subject.translate true)
        (subject.code.place offset) stack) := by
  unfold step fetch nativeStep
  dsimp only [Function.uncompiled]
  rcases Nat.lt_or_ge offset subject.code.size with hoffset | hend
  · rw [Array.getElem?_eq_getElem hoffset]
    simp only [bind_assoc]
    refine .bind_left (framed_countOpcode_left hmetered _ _) fun _ _ ↦ ?_
    cases hdecode : subject.code.decode offset with
    | ok decoded =>
      obtain ⟨instruction, next⟩ := decoded
      obtain ⟨sites, hstep, hplaced⟩ := subject.placed hlabels true hboundary hdecode hoffset
      rw [hstep]
      change FramedNative bond subject.code (subject.translate true) low low' depth
        (caller.observe (.interpreting instruction stack) >>= _) _
      refine .bind_left (framed_observe_left _) fun _ hpermits ↦ ?_
      have hfits : instruction.FitsOn stack := hpermits.elim fun _ hpermitted ↦ hwatch hpermitted
      refine .bind_right (framed_observe_right fun htogether ↦ hexecuting _ _ htogether) ?_
      change FramedNative bond subject.code (subject.translate true) low low' depth _
        (guardStack companion stack (some ⟨instruction.reach, instruction.effect.toNat⟩) >>= _)
      rw [guardStack_of_fits hfits]
      exact framed_translated hlow hcompanions hplaced hfits offset
    | error fault =>
      obtain ⟨before, after, hscan, hlength, -, -⟩ := hboundary.split hoffset
      rw [hdecode] at hscan
      rw [← hlength, Function.translate_step hscan true]
      refine .bind_right (framed_observe_right fun htogether ↦ hexecuting _ _ htogether) ?_
      exact .fault fault
  · obtain rfl : offset = subject.code.size := Nat.le_antisymm hboundary.le_size hend
    rw [Array.getElem?_eq_none (Nat.le_refl _), Code.place_size, Function.translate_end]
    refine .bind_right (framed_observe_right fun htogether ↦ hexecuting _ _ htogether) ?_
    exact .fault _

omit hlow hcompanions hmetered hwatch hexecuting hlabels in
/-- Handlers that correspond take up execution at the same point. -/
theorem framed_resume (hforgiving : Forgiving bond caller companion) {code : Code}
    {native : NativeCode} (stack : OperandStack) {handler handler' : Handler}
    (hcorresponds : handler.Corresponds code native handler') (payload : Value) :
    FramedNative bond code native low low' depth (resumeAt caller stack handler payload)
      (resumeAtSite companion native stack handler' payload) := by
  obtain ⟨halike, target, site, hleft, hright, hsite, hboundary⟩ := hcorresponds
  unfold resumeAt resumeAtSite guardStack
  rw [hleft, hright, ← halike.depth]
  simp only [hsite]
  generalize hstack : stack.atDepth handler.depth = reset
  have hdepth : reset.depth = handler.depth := hstack ▸ stack.depth_atDepth handler.depth
  have hlimit : reset.limit = stack.limit := hstack ▸ stack.limit_atDepth handler.depth
  have hcheck : StackNeed.check ⟨0, 1⟩ reset =
      if stack.limit < handler.depth + 1 then .error (.stackOverflow stack.limit) else .ok () := by
    rw [StackNeed.check, if_neg (Nat.not_lt_zero _), hlimit, hdepth]
  rw [hcheck]
  rcases Nat.lt_or_ge handler.depth stack.limit with hroom | hfull
  · rw [OperandStack.resetTo_of_le (Nat.le_of_lt hroom), hstack, if_neg (by omega)]
    change FramedNative bond code native low low' depth (pushAndGo caller reset payload target) _
    unfold pushAndGo
    rw [OperandStack.push_of_lt (by omega)]
    exact .pure (.running hboundary rfl _)
  · rw [if_pos (by omega)]
    rcases Nat.lt_or_ge stack.limit handler.depth with hdeep | hmost
    · rw [OperandStack.resetTo, if_pos hdeep]
      exact .bind_never (framed_overdrawn hforgiving _)
    · rw [OperandStack.resetTo_of_le hmost, hstack]
      change FramedNative bond code native low low' depth (pushAndGo caller reset payload target) _
      unfold pushAndGo
      rw [OperandStack.push, if_pos (by omega), hlimit]
      exact .bind_never (framed_overdrawn hforgiving _)

variable (hforgiving : Forgiving bond caller companion)

include hforgiving

theorem framed_advance_native {offset : Nat} (hboundary : subject.code.Boundary offset)
    (stack : OperandStack) (previous : UInt8) :
    FramedNative bond subject.code (subject.translate true) low low' depth
      (advance caller ⟨subject.uncompiled, mark, low.length⟩ ⟨offset, stack, previous⟩)
      (nativeAdvance companion ⟨subject, mark, low.length⟩ (subject.translate true)
        (subject.code.place offset) stack) := by
  have hstep : FramedNative bond subject.code (subject.translate true) low low' depth
      (step caller ⟨subject.uncompiled, mark, low.length⟩ ⟨offset, stack, previous⟩)
      (nativeStep companion ⟨subject, mark, low.length⟩ (subject.translate true)
        (subject.code.place offset) stack) :=
    framed_step hlow hcompanions hmetered hwatch hexecuting hlabels hboundary stack previous
  unfold advance nativeAdvance
  split_ifs with hsites
  · refine framed_dispatching_left ?_ rfl hstep
    rintro handler handler' ⟨-, target, site, -, -, hsite, -⟩
    rw [Array.isEmpty_iff.mp hsites] at hsite
    cases hsite
  · refine framed_dispatching (.corresponds hlow) hcompanions rfl rfl hstep ?_
    exact fun handler handler' payload hcorresponds ↦
      framed_resume hforgiving stack hcorresponds payload

theorem framed_interpretWithin_native (rounds : Nat) {offset : Nat}
    (hboundary : subject.code.Boundary offset) (stack : OperandStack) (previous : UInt8) :
    Framed bond (Handler.Corresponds subject.code (subject.translate true)) low low' depth Eq
      (interpretWithin caller ⟨subject.uncompiled, mark, low.length⟩ rounds
        ⟨offset, stack, previous⟩)
      (runNativeWithin companion ⟨subject, mark, low.length⟩ (subject.translate true) rounds
        (subject.code.place offset) stack) := by
  induction rounds generalizing offset stack previous with
  | zero => exact Coupled.exhausted
  | succ rounds ih =>
    refine .bind (framed_advance_native hlow hcompanions hmetered hwatch hexecuting hlabels hforgiving
      hboundary stack previous) fun outcome outcome' houtcome ↦ ?_
    cases houtcome with
    | running hnext hplace stack => exact hplace ▸ ih hnext stack _
    | returned value => exact .pure rfl

/-- A function that is interpreted and the same function as native code. -/
theorem framed_interpret_runNative (stack : OperandStack) :
    Framed bond (Handler.Corresponds subject.code (subject.translate true)) low low' depth Eq
      (interpret caller ⟨subject.uncompiled, mark, low.length⟩ stack)
      (runNative companion ⟨subject, mark, low.length⟩ (subject.translate true) stack) := by
  have hstart : subject.code.place 0 = 0 := (Code.Comes.start subject.code).place_eq
  have hrun : Framed bond (Handler.Corresponds subject.code (subject.translate true)) low low'
      depth Eq
      (interpretWithin caller ⟨subject.uncompiled, mark, low.length⟩ caller.rounds ⟨0, stack, 0⟩)
      (runNativeWithin companion ⟨subject, mark, low.length⟩ (subject.translate true)
        caller.rounds (subject.code.place 0) stack) :=
    framed_interpretWithin_native hlow hcompanions hmetered hwatch hexecuting hlabels hforgiving
      caller.rounds subject.code.boundary_zero stack 0
  rw [hstart] at hrun
  unfold interpret runNative
  rwa [← hcompanions.rounds]

end Steps

end LispMachine
