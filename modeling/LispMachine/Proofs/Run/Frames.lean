import LispMachine.Proofs.Run.Dispatching
import LispMachine.Proofs.Run.Leads

/-!
Frames of two machines together. Within a frame the handlers need not be as they were when the
frame started: it pushes and pops handlers of its own. `Framed` says that two actions keep machines
together up to own handlers that correspond. What holds of the parts of a step holds of the step,
and what holds of every step, also when it is resumed at a handler, holds of the run of a frame.

The main statements are `framed_interpret` and `framed_runNative`: a frame that runs under two
companions gives the same result and leaves the machines together.
-/

set_option autoImplicit false

namespace LispMachine

open LispMachine.Action Storage Engine

variable {α β γ δ : Type} {bond : Bond}

/-- Two actions keep machines together, up to own handlers that correspond, and give results that
are related. -/
def Framed (bond : Bond) (own : Handler → Handler → Prop) (low low' : HandlerStack) (depth : Nat)
    (related : α → β → Prop) (first : Engine α) (second : Engine β) : Prop :=
  Coupled (Owned bond own low low' depth) first second
    (fun a b left right ↦ related a b ∧ Owned bond own low low' depth left right)
    (fun _ left right ↦ Owned bond own low low' depth left right)

section Framed

variable {own : Handler → Handler → Prop} {low low' : HandlerStack} {depth : Nat}

namespace Framed

theorem pure {related : α → β → Prop} {a : α} {b : β} (hrelated : related a b) :
    Framed bond own low low' depth related (Pure.pure a) (Pure.pure b) :=
  Coupled.pure fun _ _ howned ↦ ⟨hrelated, howned⟩

theorem fault {related : α → β → Prop} (reason : Fault) :
    Framed bond own low low' depth related (Action.fault reason) (Action.fault reason) :=
  fun _ _ howned ↦ .signal howned

theorem bind {middle : α → β → Prop} {related : γ → δ → Prop} {first : Engine α}
    {second : Engine β} {next : α → Engine γ} {next' : β → Engine δ}
    (hfirst : Framed bond own low low' depth middle first second)
    (hnext : ∀ a b, middle a b → Framed bond own low low' depth related (next a) (next' b)) :
    Framed bond own low low' depth related (first >>= next) (second >>= next') :=
  Coupled.bind hfirst fun a b left right hdone ↦ hnext a b hdone.1 left right hdone.2

/-- Go on in the same way after results that are equal. -/
theorem bind_eq {related : γ → δ → Prop} {first second : Engine α} {next : α → Engine γ}
    {next' : α → Engine δ} (hfirst : Framed bond own low low' depth Eq first second)
    (hnext : ∀ a, Framed bond own low low' depth related (next a) (next' a)) :
    Framed bond own low low' depth related (first >>= next) (second >>= next') :=
  bind hfirst fun a _ hab ↦ hab ▸ hnext a

/-- Nothing comes after actions that give no results. -/
theorem bind_never {related : γ → δ → Prop} {first : Engine α} {second : Engine β}
    {next : α → Engine γ} {next' : β → Engine δ}
    (hfirst : Framed bond own low low' depth (fun _ _ ↦ False) first second) :
    Framed bond own low low' depth related (first >>= next) (second >>= next') :=
  bind hfirst fun _ _ hnever ↦ hnever.elim

/-- Go on with what the same computation gives. -/
theorem ofFaulty_bind {related : γ → δ → Prop} {value : Except Fault α} {next : α → Engine γ}
    {next' : α → Engine δ}
    (hnext : ∀ a, value = .ok a → Framed bond own low low' depth related (next a) (next' a)) :
    Framed bond own low low' depth related (ofFaulty value >>= next) (ofFaulty value >>= next') := by
  cases value with
  | error reason => exact fault reason
  | ok a => exact hnext a rfl

/-- What is known of the results of the first action holds of both results. -/
theorem and_yields {first second : Engine α} {condition : α → Prop}
    (hframed : Framed bond own low low' depth Eq first second) (hyields : Yields condition first) :
    Framed bond own low low' depth (fun a b ↦ a = b ∧ condition a) first second := by
  refine (Coupled.and_yields hframed hyields).conseq (fun _ _ hstart ↦ hstart) ?_
    fun _ _ _ hdone ↦ hdone
  rintro a b left right ⟨hcondition, hab, howned⟩
  exact ⟨⟨hab, hcondition⟩, howned⟩

/-- What the first action does alone, before both go on. -/
theorem bind_left {middle : α → Unit → Prop} {related : γ → δ → Prop} {first : Engine α}
    {next : α → Engine γ} {second : Engine δ}
    (hfirst : Framed bond own low low' depth middle first (Pure.pure ()))
    (hnext : ∀ a, middle a () → Framed bond own low low' depth related (next a) second) :
    Framed bond own low low' depth related (first >>= next) second := by
  have hboth : Framed bond own low low' depth related (first >>= next)
      (Pure.pure () >>= fun _ ↦ second) :=
    bind hfirst fun a _ hmiddle ↦ hnext a hmiddle
  exact hboth

theorem bind_right {related : γ → δ → Prop} {first : Engine γ} {second : Engine Unit}
    {next : Unit → Engine δ} (hsecond : Framed bond own low low' depth Eq (Pure.pure ()) second)
    (hnext : Framed bond own low low' depth related first (next ())) :
    Framed bond own low low' depth related first (second >>= next) := by
  have hboth : Framed bond own low low' depth related (Pure.pure () >>= fun _ ↦ first)
      (second >>= next) :=
    bind hsecond fun _ _ _ ↦ hnext
  exact hboth

end Framed

/-- Handlers that correspond are alike. -/
structure Frame.Setting (own : Handler → Handler → Prop) (low low' : HandlerStack) : Prop where
  own_alike : ∀ {left right}, own left right → left.Alike right
  low_alike : HandlerStack.Alike low low'

variable (hsetting : Frame.Setting own low low')

include hsetting

theorem Agree.framed {first second : Engine α} (hagree : AgreeAs bond .free first second) :
    Framed bond own low low' depth Eq first second := by
  rintro left right ⟨ours, theirs, hours, htogether⟩
  have hstacks := Owned.alike hsetting.own_alike hsetting.low_alike hours
  exact (hagree _ _ depth left.bindings.length hstacks).conseq (fun _ _ hstart ↦ hstart)
    (fun _ _ _ _ hdone ↦ ⟨hdone.1, ours, theirs, hours, hdone.2.1⟩)
    (fun _ _ _ hdone ↦ ⟨ours, theirs, hours, hdone.1⟩) left right ⟨htogether, rfl⟩

omit hsetting in
theorem framed_pushOwnHandler (kind : HandlerKind) (tag : Value) (under : Nat)
    {resume resume' : Resume}
    (hresume : ∀ mark, own ⟨tag, kind, under, mark, resume⟩ ⟨tag, kind, under, mark, resume'⟩) :
    Framed bond own low low' depth Eq (pushOwnHandler kind tag under resume)
      (pushOwnHandler kind tag under resume') := by
  rintro left right ⟨ours, theirs, hours, htogether⟩
  refine Coupled.bind (coupled_bindingMark depth left.bindings.length) (fun mark _ ↦ ?_) left right
    ⟨htogether, rfl⟩
  rintro left right ⟨rfl, -, htogether, -⟩
  refine (coupled_pushHandler depth _ _).conseq (fun _ _ hstart ↦ hstart) (fun _ _ _ _ hdone ↦ ?_)
    (fun _ _ _ hnever ↦ hnever) left right htogether
  exact ⟨rfl, _, _, .cons (hresume mark) hours, hdone⟩

theorem framed_popOwnHandler {frame frame' : Frame} (hbase : frame.handlerBase = low.length)
    (hbase' : frame'.handlerBase = low.length) :
    Framed bond own low low' depth Eq (popOwnHandler frame) (popOwnHandler frame') := by
  rintro left right ⟨ours, theirs, hours, htogether⟩
  refine Coupled.bind (coupled_handlerCount fun _ _ hstart ↦ hstart) (fun _ _ ↦ ?_) left right htogether
  rintro left right ⟨rfl, rfl, htogether⟩
  rw [hbase, hbase', ← (Owned.alike hsetting.own_alike hsetting.low_alike hours).length_eq]
  cases hours with
  | nil =>
    rw [if_pos (Nat.le_of_eq (by simp))]
    exact .signal ⟨[], [], .nil, htogether⟩
  | cons hhandler houter =>
    rw [if_neg (by simp only [List.cons_append, List.length_cons, List.length_append]; omega)]
    refine .ok ⟨rfl, _, _, houter, htogether.with_handlers ?_ ?_⟩
    · rw [htogether.left_handlers]; rfl
    · rw [htogether.right_handlers]; rfl

omit hsetting in
/-- What a caller permits of signals and the binding log is permitted by its companion. -/
theorem Owned.permits {caller companion : Caller} {left right : Machine}
    (howned : Owned bond own low low' depth left right)
    (hcompanions : Companions bond caller companion) (event : Event)
    (hcourse : event.concernsCourse = true) (hpermitted : caller.permits event left = true) :
    companion.permits event right = true := by
  obtain ⟨ours, theirs, -, htogether⟩ := howned
  exact hcompanions.course event hcourse htogether hpermitted

theorem framed_dispatching {caller companion : Caller}
    (hcompanions : Companions bond caller companion) {frame frame' : Frame}
    (hbase : frame.handlerBase = low.length) (hbase' : frame'.handlerBase = low.length)
    {related : α → β → Prop} {step : Engine α} {step' : Engine β}
    {resume : Handler → Value → Engine α} {resume' : Handler → Value → Engine β}
    (hstep : Framed bond own low low' depth related step step')
    (hresume : ∀ handler handler' payload, own handler handler' →
      Framed bond own low low' depth related (resume handler payload) (resume' handler' payload)) :
    Framed bond own low low' depth related (dispatching caller frame step resume)
      (dispatching companion frame' step' resume') := by
  refine Coupled.attempt_bind hstep
    (fun reason _ _ howned ↦ howned.permits hcompanions (.stopping reason) rfl)
    (fun outcome outcome' ↦ ?_) (fun reason ↦ ?_)
  · exact Coupled.pure fun _ _ hdone ↦ hdone
  · dsimp only
    rw [hbase, hbase']
    refine Coupled.bind (coupled_dispatch hsetting.own_alike hsetting.low_alike depth hcompanions
      reason) fun _ _ ↦ ?_
    rintro left right ⟨hdisposition, howned⟩
    cases hdisposition with
    | resume hown payload => exact hresume _ _ payload hown left right howned
    | propagate reason => exact .signal howned

omit hsetting in
/-- When no handlers can correspond, a signal leaves the first frame as it leaves the second, which
does not look for one. -/
theorem framed_dispatching_left (hnone : ∀ handler handler', ¬ own handler handler')
    {caller : Caller} {frame : Frame} (hbase : frame.handlerBase = low.length)
    {related : α → β → Prop} {step : Engine α} {step' : Engine β}
    {resume : Handler → Value → Engine α}
    (hstep : Framed bond own low low' depth related step step') :
    Framed bond own low low' depth related (dispatching caller frame step resume) step' := by
  intro left right howned
  have hend := hstep left right howned
  change SameEnd _ _ (EStateM.bind (caller.attempt step) _ left) _
  unfold EStateM.bind
  rw [Caller.attempt_apply]
  generalize step left = run, step' right = run' at hend ⊢
  cases hend with
  | ok hdone => exact .ok hdone
  | exhausted => exact .exhausted
  | @signal reason left' right' hdone =>
    dsimp only
    split_ifs
    swap
    · exact .exhausted
    obtain ⟨ours, theirs, hours, htogether⟩ := hdone
    cases hours with
    | cons hown _ => exact absurd hown (hnone _ _)
    | nil =>
      have hlength : left'.handlers.length ≤ frame.handlerBase := by
        rw [htogether.left_handlers, hbase]
        exact Nat.le_refl _
      change SameEnd _ _ (EStateM.bind (dispatch caller frame.handlerBase reason) _ left') _
      unfold EStateM.bind
      obtain hrun | hrun := dispatch_of_length_le caller hlength reason
      · rw [hrun]
        exact .signal ⟨[], [], .nil, htogether⟩
      · rw [hrun]
        exact .exhausted

end Framed

/-! ### One frame under two callers -/

/-- The second caller lets a stack fault pass where the first does. -/
def Forgiving (bond : Bond) (caller companion : Caller) : Prop :=
  ∀ {ours theirs depth left right} reason, Together bond ours theirs depth left right →
    caller.permits (.overdrawing reason) left = true →
      companion.permits (.overdrawing reason) right = true

theorem WatchedCompanions.forgiving {caller companion : Caller}
    (hcompanions : WatchedCompanions bond caller companion) : Forgiving bond caller companion :=
  fun reason htogether ↦ hcompanions.permits (.overdrawing reason) htogether

/-- What holds at every point of an interpreted frame: `stands` of the offsets and stacks that it
comes to, `resumes` of the handlers that it pushes. Where the second caller does not let stack faults
pass, no instruction and no handler raises one. -/
structure Course (bond : Bond) (caller companion : Caller) (code : Code)
    (stands : Nat → OperandStack → Prop) (resumes : Handler → Prop) : Prop where
  interpreting : ∀ {ours theirs depth left right offset stack instruction next},
    stands offset stack → code.decode offset = .ok (instruction, next) →
    Together bond ours theirs depth left right →
    caller.permits (.interpreting instruction stack) left = true →
      companion.permits (.interpreting instruction stack) right = true
  fits : ∀ {offset stack instruction next},
    stands offset stack → code.decode offset = .ok (instruction, next) →
      instruction.FitsOn stack ∨ Forgiving bond caller companion
  room : ∀ {offset stack handler}, stands offset stack → resumes handler →
    handler.depth < stack.limit ∨ Forgiving bond caller companion
  leads : ∀ {offset stack instruction next offset' stack'},
    stands offset stack → code.decode offset = .ok (instruction, next) →
    instruction.Leads next stack.depth offset' stack'.depth → stack'.limit = stack.limit →
      stands offset' stack'
  pushed : ∀ {offset stack kind target next under} (tag : Value) (mark : BindingMark),
    stands offset stack → code.decode offset = .ok (.pushHandler kind target, next) →
    under + 1 = stack.depth → resumes ⟨tag, kind, under, mark, .offset target⟩
  resumed : ∀ {offset stack handler target stack'},
    stands offset stack → resumes handler → handler.resume = .offset target →
    stack'.depth = handler.depth + 1 → stack'.limit = stack.limit → stands target stack'

/-- Under companions of which the second permits whatever the first does, nothing need be known of
the points of a frame. -/
theorem Course.any {caller companion : Caller}
    (hcompanions : WatchedCompanions bond caller companion) (code : Code) :
    Course bond caller companion code (fun _ _ ↦ True) (fun _ ↦ True) where
  interpreting _ _ htogether := hcompanions.permits _ htogether
  fits _ _ := .inr hcompanions.forgiving
  room _ _ := .inr hcompanions.forgiving
  leads _ _ _ _ := trivial
  pushed _ _ _ _ _ := trivial
  resumed _ _ _ _ _ := trivial

/-- The same handler, of which something is known. -/
def Handler.Same (resumes : Handler → Prop) (left right : Handler) : Prop :=
  left = right ∧ resumes left

/-- What a step leads to, where something is known of the points of the frame. -/
def StepOutcome.Stands (stands : Nat → OperandStack → Prop) : StepOutcome → Prop
  | .running offset stack => stands offset stack
  | .returned _ => True

section SameFrame

variable {low low' : HandlerStack} {depth : Nat} {caller companion : Caller}
  {resumes : Handler → Prop} {stands : Nat → OperandStack → Prop} {frame : Frame}

/-- What is said of two actions within the same frame: their own handlers are the same. -/
abbrev FramedSame (bond : Bond) (resumes : Handler → Prop) (low low' : HandlerStack) (depth : Nat)
    (first second : Engine α) : Prop :=
  Framed bond (Handler.Same resumes) low low' depth Eq first second

theorem Frame.Setting.same (hlow : HandlerStack.Alike low low') :
    Frame.Setting (Handler.Same resumes) low low' :=
  ⟨fun hsame ↦ hsame.1 ▸ Handler.Alike.refl _, hlow⟩

theorem framed_countOpcode (previous opcode : UInt8) :
    FramedSame bond resumes low low' depth (countOpcode previous opcode)
      (countOpcode previous opcode) := by
  rintro left right ⟨ours, theirs, hours, htogether⟩
  exact .ok ⟨rfl, ours, theirs, hours, { htogether with tied := bond.metered _ htogether.tied }⟩

theorem framed_countInterpretedCall :
    FramedSame bond resumes low low' depth countInterpretedCall countInterpretedCall := by
  rintro left right ⟨ours, theirs, hours, htogether⟩
  exact .ok ⟨rfl, ours, theirs, hours, { htogether with tied := bond.interpreted htogether.tied }⟩

theorem framed_countCompiledCall :
    FramedSame bond resumes low low' depth countCompiledCall countCompiledCall := by
  rintro left right ⟨ours, theirs, hours, htogether⟩
  exact .ok ⟨rfl, ours, theirs, hours, { htogether with tied := bond.compiled htogether.tied }⟩

theorem framed_observe {own : Handler → Handler → Prop} {event : Event}
    (hpermits : ∀ {ours theirs left right}, Together bond ours theirs depth left right →
      caller.permits event left = true → companion.permits event right = true) :
    Framed bond own low low' depth Eq (caller.observe event) (companion.observe event) := by
  refine (Coupled.observe ?_).conseq (fun _ _ hstart ↦ hstart)
    (fun _ _ _ _ howned ↦ ⟨rfl, howned⟩) fun _ _ _ hdone ↦ hdone
  rintro left right ⟨ours, theirs, hours, htogether⟩
  exact hpermits htogether

/-- A fault of the stack that passes. -/
theorem framed_overdrawn {own : Handler → Handler → Prop}
    (hforgiving : Forgiving bond caller companion) {related : α → β → Prop} (reason : Fault) :
    Framed bond own low low' depth related (caller.checked (.error reason : Except Fault α))
      (companion.checked (.error reason : Except Fault β)) :=
  .bind_eq (framed_observe fun htogether ↦ hforgiving reason htogether) fun _ ↦ .fault reason

/-- What an operation of the stack gives, where its faults pass or it raises none. -/
theorem framed_checked {own : Handler → Handler → Prop} {result : Except Fault α}
    (hchecks : (∃ a, result = .ok a) ∨ Forgiving bond caller companion) :
    Framed bond own low low' depth (fun a b ↦ a = b ∧ result = .ok a)
      (caller.checked result) (companion.checked result) := by
  cases result with
  | ok a => exact .pure ⟨rfl, rfl⟩
  | error reason =>
    obtain ⟨a, ha⟩ | hforgiving := hchecks
    · cases ha
    · exact framed_overdrawn hforgiving reason

theorem framed_checked_bind {own : Handler → Handler → Prop} {result : Except Fault α}
    {related : β → γ → Prop} {next : α → Engine β} {next' : α → Engine γ}
    (hchecks : (∃ a, result = .ok a) ∨ Forgiving bond caller companion)
    (hnext : ∀ a, result = .ok a →
      Framed bond own low low' depth related (next a) (next' a)) :
    Framed bond own low low' depth related (caller.checked result >>= next)
      (companion.checked result >>= next') := by
  refine .bind (framed_checked hchecks) ?_
  rintro a _ ⟨rfl, hresult⟩
  exact hnext a hresult

theorem framed_pushAndGo {stack : OperandStack}
    (hroom : stack.depth < stack.limit ∨ Forgiving bond caller companion) (value : Value)
    (next : Nat) :
    FramedSame bond resumes low low' depth (pushAndGo caller stack value next)
      (pushAndGo companion stack value next) := by
  refine framed_checked_bind (hroom.imp_left fun hroom ↦ ?_) fun _ _ ↦ .pure rfl
  exact ⟨_, OperandStack.push_of_lt hroom value⟩

/-- Push what is made of the top values of a stack, where there is room. -/
theorem framed_pushAndGo_over {stack rest : OperandStack} {count : Nat}
    (hdepth : rest.depth + count = stack.depth) (hlimit : rest.limit = stack.limit)
    (hroom : stack.depth + (if count = 0 then 1 else 0) ≤ stack.limit ∨
      Forgiving bond caller companion) (value : Value) (next : Nat) :
    FramedSame bond resumes low low' depth (pushAndGo caller rest value next)
      (pushAndGo companion rest value next) := by
  refine framed_pushAndGo (hroom.imp_left fun hroom ↦ ?_) value next
  split_ifs at hroom <;> omega

theorem framed_fetch (hcourse : Course bond caller companion frame.function.code stands resumes)
    {activation : Activation} (hstands : stands activation.offset activation.stack) :
    Framed bond (Handler.Same resumes) low low' depth
      (fun a b ↦ a = b ∧ frame.function.code.decode activation.offset = .ok a)
      (fetch caller frame activation) (fetch companion frame activation) := by
  unfold fetch
  cases frame.function.code[activation.offset]? with
  | none => exact .fault _
  | some opcode =>
    refine .bind_eq (framed_countOpcode _ _) fun _ ↦ ?_
    refine .ofFaulty_bind fun decoded hdecode ↦ ?_
    refine .bind_eq (framed_observe fun htogether ↦ ?_) fun _ ↦ .pure ⟨rfl, hdecode⟩
    exact hcourse.interpreting hstands hdecode htogether

variable (hlow : HandlerStack.Alike low low') (hcompanions : Companions bond caller companion)

include hlow hcompanions

theorem Composed.framed {use : LogUse} {action : Caller → Engine α}
    (hcomposed : Composed use action) :
    FramedSame bond resumes low low' depth (action caller) (action companion) :=
  Agree.framed (.same hlow) ((freely hcomposed).agree hcompanions)

theorem framed_unbindTo (mark : BindingMark) :
    FramedSame bond resumes low low' depth (unbindTo caller mark) (unbindTo companion mark) :=
  Agree.framed (.same hlow) (agree_unbindTo_freely hcompanions mark)

/-! ### Interpreting -/

section Interpreting

variable (hcourse : Course bond caller companion frame.function.code stands resumes)

include hcourse

variable (hbase : frame.handlerBase = low.length)

include hbase

omit hcourse hbase in
theorem framed_branch_same {offset next : Nat} {stack : OperandStack} {kind : BranchKind}
    {target : Nat}
    (htest : (kind.isConditional = true → 0 < stack.depth) ∨ Forgiving bond caller companion) :
    FramedSame bond resumes low low' depth
      (branch caller frame offset next stack kind target)
      (branch companion frame offset next stack kind target) := by
  unfold branch
  split_ifs
  · exact .fault _
  refine framed_checked_bind (htest.imp_left fun hpos ↦ ?_) fun tested _ ↦ ?_
  · by_cases hkind : kind.isConditional = true
    · exact ⟨_, BranchKind.test_of_conditional hkind (hpos hkind)⟩
    · cases kind with
      | goto => exact ⟨_, rfl⟩
      | _ => exact absurd rfl hkind
  · exact (Composed.ite (.bind (.checkpoint _) fun _ ↦ .pure _) (.pure _)).framed hlow hcompanions

omit hcourse in
/-- An instruction whose stack faults pass, or that raises none. -/
theorem framed_execute {offset next : Nat} {stack : OperandStack} {instruction : Instruction}
    (hfits : instruction.FitsOn stack ∨ Forgiving bond caller companion)
    (hpushed : ∀ kind target tag under mark, instruction = .pushHandler kind target →
      under + 1 = stack.depth → resumes ⟨tag, kind, under, mark, .offset target⟩) :
    FramedSame bond resumes low low' depth
      (execute caller frame offset next stack instruction)
      (execute companion frame offset next stack instruction) := by
  have hreach : instruction.reach ≤ stack.depth ∨ Forgiving bond caller companion :=
    hfits.imp_left fun hfits ↦ hfits.reach_le
  have hroom : stack.depth + instruction.effect.toNat ≤ stack.limit ∨
      Forgiving bond caller companion := hfits.imp_left fun hfits ↦ hfits.room
  have hpops {count : Nat} (hcount : count ≤ stack.depth ∨ Forgiving bond caller companion) :
      (∃ popped, stack.popSlice count = .ok popped) ∨ Forgiving bond caller companion :=
    hcount.imp_left fun hcount ↦ ⟨_, OperandStack.popSlice_of_le hcount⟩
  have hpop (hpos : 1 ≤ stack.depth ∨ Forgiving bond caller companion) :
      (∃ popped, stack.pop = .ok popped) ∨ Forgiving bond caller companion :=
    hpos.imp_left fun hpos ↦ ⟨_, OperandStack.pop_of_pos hpos⟩
  cases instruction with
  | stackRef n =>
    refine framed_checked_bind (hreach.imp_left fun hreach ↦ ⟨_, OperandStack.peek_of_lt hreach⟩)
      fun value _ ↦ ?_
    exact framed_pushAndGo hroom value next
  | dup =>
    refine framed_checked_bind (hreach.imp_left fun hreach ↦ ⟨_, OperandStack.top_of_pos hreach⟩)
      fun value _ ↦ ?_
    exact framed_pushAndGo hroom value next
  | constant index => exact .ofFaulty_bind fun value _ ↦ framed_pushAndGo hroom value next
  | varRef index =>
    refine .ofFaulty_bind fun symbol _ ↦ ?_
    exact .bind_eq ((Composed.stored _).framed hlow hcompanions) fun value ↦
      framed_pushAndGo hroom value next
  | varSet index =>
    refine .ofFaulty_bind fun symbol _ ↦ framed_checked_bind (hpop hreach) fun popped _ ↦ ?_
    exact .bind_eq ((Composed.stored _).framed hlow hcompanions) fun _ ↦ .pure rfl
  | varBind index =>
    refine .ofFaulty_bind fun symbol _ ↦ framed_checked_bind (hpop hreach) fun popped _ ↦ ?_
    exact .bind_eq ((Composed.bindVariable _ _).framed hlow hcompanions) fun _ ↦ .pure rfl
  | call count =>
    refine framed_checked_bind (hpops hreach) fun popped hpopped ↦ ?_
    obtain ⟨hdepth, hlimit⟩ := OperandStack.popSlice_eq_ok hpopped
    refine .bind_eq ((Composed.apply _ _).framed hlow hcompanions) fun result ↦ ?_
    exact framed_pushAndGo_over hdepth hlimit
      (hroom.imp_left fun hroom ↦ Nat.le_trans (Nat.le_add_right _ _) hroom) result next
  | unbind count =>
    exact .bind_eq ((Composed.unbinding count).framed hlow hcompanions) fun _ ↦ .pure rfl
  | unbindAll =>
    exact .bind_eq (framed_unbindTo hlow hcompanions frame.mark) fun _ ↦ .pure rfl
  | popHandler => exact .bind_eq (framed_popOwnHandler (.same hlow) hbase hbase) fun _ ↦ .pure rfl
  | pushHandler kind target =>
    refine framed_checked_bind (hpop hreach) fun popped hpopped ↦ ?_
    obtain ⟨hdepth, -⟩ := OperandStack.pop_eq_ok hpopped
    refine .bind_eq (framed_pushOwnHandler _ _ _ fun mark ↦ ⟨rfl, ?_⟩) fun _ ↦ .pure rfl
    exact hpushed kind target popped.1 popped.2.depth mark rfl hdepth
  | branch kind form target =>
    refine framed_branch_same hlow hcompanions (hreach.imp_left fun hreach hkind ↦ ?_)
    rwa [Instruction.reach, if_pos hkind] at hreach
  | ret => exact framed_checked_bind (hpop hreach) fun popped _ ↦ .pure rfl
  | discard => exact framed_checked_bind (hpop hreach) fun popped _ ↦ .pure rfl
  | discardN count preserveTop =>
    refine framed_checked_bind (hreach.imp_left fun hreach ↦ ?_) fun rest _ ↦ .pure rfl
    rw [Instruction.reach] at hreach
    split_ifs with hkeeps
    · rw [if_pos (Bool.and_eq_true _ _ ▸ hkeeps).1] at hreach
      exact ⟨_, OperandStack.discardUnder_of_lt hreach⟩
    · exact ⟨_, OperandStack.discard_of_le (Nat.le_trans (Nat.le_add_right _ _) hreach)⟩
  | stackSet n =>
    have hpos : 1 ≤ stack.depth ∨ Forgiving bond caller companion :=
      hreach.imp_left fun hreach ↦ Nat.zero_lt_of_lt hreach
    refine framed_checked_bind (hpos.imp_left fun hpos ↦ ⟨_, OperandStack.top_of_pos hpos⟩)
      fun top _ ↦ ?_
    refine framed_checked_bind (hreach.imp_left fun hreach ↦ ⟨_, OperandStack.set_of_lt hreach _⟩)
      fun changed hset ↦ ?_
    obtain ⟨hdepth, -⟩ := OperandStack.set_eq_ok hset
    refine framed_checked_bind (hpos.imp_left fun hpos ↦ ?_) fun popped _ ↦ .pure rfl
    exact ⟨_, OperandStack.pop_of_pos (hdepth ▸ hpos)⟩
  | listN count | concatN count | insertN count =>
    refine framed_checked_bind (hpops hreach) fun popped hpopped ↦ ?_
    obtain ⟨hdepth, hlimit⟩ := OperandStack.popSlice_eq_ok hpopped
    refine .bind_eq ((Composed.stored _).framed hlow hcompanions) fun result ↦ ?_
    exact framed_pushAndGo_over hdepth hlimit (hroom.imp_left Instruction.room_of_gathering) result
      next
  | operation op =>
    refine framed_checked_bind (hpops hreach) fun popped hpopped ↦ ?_
    obtain ⟨hdepth, hlimit⟩ := OperandStack.popSlice_eq_ok hpopped
    refine .bind_eq ((Composed.perform op _).framed hlow hcompanions) fun result ↦ ?_
    split_ifs with hpushes
    · exact framed_pushAndGo_over hdepth hlimit
        (hroom.imp_left (Instruction.room_of_operation hpushes)) result next
    · exact .pure rfl

omit hlow hcompanions hbase in
theorem framed_resumeAt {offset : Nat} {stack : OperandStack} (hstands : stands offset stack)
    {handler : Handler} (hresumes : resumes handler) (payload : Value) :
    Framed bond (Handler.Same resumes) low low' depth (fun a b ↦ a = b ∧ a.Stands stands)
      (resumeAt caller stack handler payload) (resumeAt companion stack handler payload) := by
  have hroom := hcourse.room hstands hresumes
  unfold resumeAt
  cases hresume : handler.resume with
  | offset target =>
    refine framed_checked_bind (hroom.imp_left fun hroom ↦ ?_) fun reset hreset ↦ ?_
    · exact ⟨_, OperandStack.resetTo_of_le (Nat.le_of_lt hroom)⟩
    obtain ⟨hdepth, hlimit⟩ := OperandStack.resetTo_eq_ok hreset
    refine framed_checked_bind (hroom.imp_left fun hroom ↦ ?_) fun pushed hpushed ↦ .pure ⟨rfl, ?_⟩
    · exact ⟨_, OperandStack.push_of_lt (by omega) payload⟩
    obtain ⟨hmore, hsame⟩ := OperandStack.push_eq_ok hpushed
    exact hcourse.resumed hstands hresumes hresume (by omega) (hsame.trans hlimit)
  | native | host => exact .fault _

theorem framed_advance {activation : Activation}
    (hstands : stands activation.offset activation.stack) :
    Framed bond (Handler.Same resumes) low low' depth (fun a b ↦ a = b ∧ a.Stands stands)
      (advance caller frame activation) (advance companion frame activation) := by
  refine framed_dispatching (.same hlow) hcompanions hbase hbase ?_ ?_
  · refine .bind (framed_fetch hcourse hstands) ?_
    rintro ⟨instruction, next⟩ _ ⟨rfl, hdecode⟩
    have hfollows := execute_follows caller frame activation.offset next activation.stack
      (Code.decode_sound hdecode).small
    refine .and_yields (framed_execute hlow hcompanions hbase (hcourse.fits hstands hdecode) ?_)
      ?_
    · rintro kind target tag under mark rfl hunder
      exact hcourse.pushed tag mark hstands hdecode hunder
    intro machine outcome after hrun
    have houtcome := hfollows machine outcome after hrun
    cases outcome with
    | running offset stack => exact hcourse.leads hstands hdecode houtcome.1 houtcome.2
    | returned value => trivial
  · rintro handler _ payload ⟨rfl, hresumes⟩
    exact framed_resumeAt hcourse hstands hresumes payload

theorem framed_interpretWithin (rounds : Nat) {activation : Activation}
    (hstands : stands activation.offset activation.stack) :
    FramedSame bond resumes low low' depth (interpretWithin caller frame rounds activation)
      (interpretWithin companion frame rounds activation) := by
  induction rounds generalizing activation with
  | zero => exact Coupled.exhausted
  | succ rounds ih =>
    refine .bind (framed_advance hlow hcompanions hcourse hbase hstands) ?_
    rintro outcome _ ⟨rfl, houtcome⟩
    cases outcome with
    | running offset stack => exact ih houtcome
    | returned value => exact .pure rfl

/-- A frame that is interpreted under two callers. -/
theorem framed_interpret {stack : OperandStack} (hstands : stands 0 stack) :
    FramedSame bond resumes low low' depth (interpret caller frame stack)
      (interpret companion frame stack) := by
  unfold interpret
  rw [← hcompanions.rounds]
  exact framed_interpretWithin hlow hcompanions hcourse hbase _ hstands

end Interpreting

/-! ### Running native code -/

variable (hbase : frame.handlerBase = low.length)

include hbase

theorem framed_nativeExecute (place : Nat) (stack : OperandStack) (operation : NativeOperation) :
    FramedSame bond (fun _ ↦ True) low low' depth
      (nativeExecute caller frame place stack operation)
      (nativeExecute companion frame place stack operation) := by
  by_cases hall : operation = .unbindAll
  · subst hall
    exact .bind_eq (framed_unbindTo hlow hcompanions frame.mark) fun _ ↦ .pure rfl
  by_cases hpop : operation = .popHandler
  · subst hpop
    exact .bind_eq (framed_popOwnHandler (.same hlow) hbase hbase) fun _ ↦ .pure rfl
  by_cases hpush : ∃ kind site, operation = .pushHandler kind site
  · obtain ⟨kind, site, rfl⟩ := hpush
    exact .bind_eq (framed_pushOwnHandler _ _ _ fun _ ↦ ⟨rfl, trivial⟩) fun _ ↦ .pure rfl
  · refine Composed.framed hlow hcompanions (Composed.nativeExecute frame place stack hall hpop ?_)
    exact fun kind site heq ↦ hpush ⟨kind, site, heq⟩

variable (hwatched : WatchedCompanions bond caller companion)

omit hlow hcompanions hbase

include hwatched

theorem framed_guardStack_bind (stack : OperandStack) (need : Option StackNeed)
    {next next' : Unit → Engine α}
    (hnext : FramedSame bond (fun _ ↦ True) low low' depth (next ()) (next' ())) :
    FramedSame bond (fun _ ↦ True) low low' depth (guardStack caller stack need >>= next)
      (guardStack companion stack need >>= next') := by
  cases need with
  | none => exact hnext
  | some need => exact framed_checked_bind (.inr hwatched.forgiving) fun _ _ ↦ hnext

include hlow hbase

theorem framed_nativeStep (code : NativeCode) (place : Nat) (stack : OperandStack) :
    FramedSame bond (fun _ ↦ True) low low' depth (nativeStep caller frame code place stack)
      (nativeStep companion frame code place stack) := by
  unfold nativeStep
  cases code.steps[place]? with
  | none => exact .fault _
  | some step =>
    refine .bind_eq (framed_observe fun htogether ↦ hwatched.permits _ htogether) fun _ ↦ ?_
    refine framed_guardStack_bind hwatched stack step.need ?_
    exact framed_nativeExecute hlow hwatched.toCompanions hbase place stack step.operation

omit hlow hbase in
theorem framed_resumeAtSite (code : NativeCode) (stack : OperandStack) (handler : Handler)
    (payload : Value) :
    FramedSame bond (fun _ ↦ True) low low' depth (resumeAtSite caller code stack handler payload)
      (resumeAtSite companion code stack handler payload) := by
  unfold resumeAtSite
  cases handler.resume with
  | native site =>
    refine framed_guardStack_bind hwatched _ _ ?_
    cases code.sites[site]? with
    | some place => exact .pure rfl
    | none => exact .fault _
  | offset | host => exact .fault _

theorem framed_nativeAdvance (code : NativeCode) (place : Nat) (stack : OperandStack) :
    FramedSame bond (fun _ ↦ True) low low' depth (nativeAdvance caller frame code place stack)
      (nativeAdvance companion frame code place stack) := by
  have hstep : FramedSame bond (fun _ ↦ True) low low' depth
      (nativeStep caller frame code place stack) (nativeStep companion frame code place stack) :=
    framed_nativeStep hlow hbase hwatched code place stack
  unfold nativeAdvance
  split_ifs
  · exact hstep
  · refine framed_dispatching (.same hlow) hwatched.toCompanions hbase hbase hstep ?_
    rintro handler _ payload ⟨rfl, -⟩
    exact framed_resumeAtSite hwatched code stack handler payload

theorem framed_runNativeWithin (code : NativeCode) (rounds place : Nat) (stack : OperandStack) :
    FramedSame bond (fun _ ↦ True) low low' depth
      (runNativeWithin caller frame code rounds place stack)
      (runNativeWithin companion frame code rounds place stack) := by
  induction rounds generalizing place stack with
  | zero => exact Coupled.exhausted
  | succ rounds ih =>
    refine .bind_eq (framed_nativeAdvance hlow hbase hwatched code place stack) fun outcome ↦ ?_
    cases outcome with
    | running place stack => exact ih place stack
    | returned value => exact .pure rfl

/-- A frame that runs as native code under two callers. -/
theorem framed_runNative (code : NativeCode) (stack : OperandStack) :
    FramedSame bond (fun _ ↦ True) low low' depth (runNative caller frame code stack)
      (runNative companion frame code stack) := by
  unfold runNative
  rw [← hwatched.rounds]
  exact framed_runNativeWithin hlow hbase hwatched code _ 0 stack

end SameFrame

end LispMachine
