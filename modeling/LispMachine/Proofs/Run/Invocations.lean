import LispMachine.Proofs.Run.Frames

/-!
Invocations and applications on two machines together. Whatever a frame leaves behind, an invocation
ends with the handlers that it was entered with, and the bracket around it takes the binding log
back. So two invocations agree as soon as their frames do (`agree_invoke`), and from there on two
callers that apply functions in the same way are companions (`companions_watched`): this is the
induction over nested applications.
-/

set_option autoImplicit false

namespace LispMachine

open LispMachine.Action Storage Engine

variable {α β : Type} {bond : Bond} {caller companion : Caller}

/-! ### Invocations -/

/-- A function without what the compiler left at it. -/
def Function.uncompiled (function : Function) : Function := { function with compiled := none }

/-- The frames of two functions, which differ at most in what the compiler left at them, agree under
two callers when they start on the stack that the arguments make. -/
structure FramesAgree (bond : Bond) (caller companion : Caller) (subject subject' : Function) :
    Prop where
  uncompiled_eq : subject.uncompiled = subject'.uncompiled
  framed : ∀ low low' depth mark stack, HandlerStack.Alike low low' →
    stack.depth = subject.entryDepth → stack.limit = subject.stackLimit →
    ∃ own, Frame.Setting own low low' ∧ Framed bond own low low' depth Eq
      (runFrame caller ⟨subject, mark, low.length⟩ stack)
      (runFrame companion ⟨subject', mark, low.length⟩ stack)

theorem Owned.weaken {own : Handler → Handler → Prop} {low low' : HandlerStack} {depth : Nat}
    {left right : Machine} (hown : ∀ {handler handler'}, own handler handler' →
      handler.Alike handler') (howned : Owned bond own low low' depth left right) :
    Owned bond Handler.Alike low low' depth left right := by
  obtain ⟨ours, theirs, hours, htogether⟩ := howned
  exact ⟨ours, theirs, hours.imp fun _ _ ↦ hown, htogether⟩

theorem Together.owned {own : Handler → Handler → Prop} {low low' : HandlerStack} {depth : Nat}
    {left right : Machine} (htogether : Together bond low low' depth left right) :
    Owned bond own low low' depth left right :=
  ⟨[], [], .nil, htogether⟩

/-- A body that has left neither handlers nor bindings passes, and then the handlers are those that
it was entered with. -/
theorem coupled_checkBalance {low low' : HandlerStack} (hlow : HandlerStack.Alike low low')
    (depth mark : Nat) {subject subject' : Function}
    (hname : subject.displayName = subject'.displayName) :
    Coupled (Owned bond Handler.Alike low low' depth)
      (checkBalance ⟨subject, mark, low.length⟩) (checkBalance ⟨subject', mark, low.length⟩)
      (fun _ _ left right ↦ Together bond low low' depth left right ∧
        left.bindings.length = mark)
      (fun _ left right ↦ Owned bond Handler.Alike low low' depth left right) := by
  rintro left right ⟨ours, theirs, hours, htogether⟩
  refine Coupled.bind (coupled_handlerCount fun _ _ hstart ↦ hstart) (fun _ _ ↦ ?_) left right htogether
  rintro left right ⟨rfl, rfl, htogether⟩
  refine Coupled.bind (coupled_bindingMark depth left.bindings.length) (fun now _ ↦ ?_) left right
    ⟨htogether, rfl⟩
  rintro left right ⟨rfl, hnow, htogether, hlog⟩
  rw [hname, ← (Owned.alike (fun halike ↦ halike) hlow hours).length_eq]
  cases hours with
  | nil =>
    dsimp only [List.nil_append]
    rw [if_neg (Nat.lt_irrefl _)]
    by_cases hmark : now = mark
    · rw [if_pos hmark]
      exact .ok ⟨htogether, hlog.trans (hnow.trans hmark)⟩
    · rw [if_neg hmark]
      exact .signal htogether.owned
  | cons hhandler houter =>
    have hmore : ∀ handler (outer : HandlerStack),
        low.length < (handler :: outer ++ low).length := by
      intro handler outer
      simp only [List.cons_append, List.length_cons, List.length_append]
      omega
    dsimp only
    rw [if_pos (hmore _ _)]
    refine Coupled.bind (coupled_truncateHandlers hlow depth) (fun _ _ ↦ ?_) left right
      ⟨_, _, .cons hhandler houter, htogether⟩
    exact fun left right htogether ↦ .signal htogether.owned

/-! ### Nested actions -/

theorem coupled_nested (hcompanions : Companions bond caller companion) {first second : Engine α}
    (hagree : AgreeAs bond .balanced first second) {ours theirs : HandlerStack}
    (halike : HandlerStack.Alike ours theirs) (depth length : Nat) :
    Coupled
      (fun left right ↦ Together bond ours theirs depth left right ∧
        left.bindings.length = length ∧ depth < left.settings.maxEvalDepth)
      (nested caller first) (nested companion second)
      (fun a b left right ↦ a = b ∧ Together bond ours theirs depth left right ∧
        left.bindings.length = length)
      (fun _ left right ↦ Together bond ours theirs depth left right ∧
        left.bindings.length ≤ length) := by
  rintro left right ⟨htogether, hlength, hdepth⟩
  have hdeeper : Together bond ours theirs (depth + 1)
      { left with evalDepth := left.evalDepth + 1 }
      { right with evalDepth := right.evalDepth + 1 } :=
    { htogether with
      left_depth := congrArg (· + 1) htogether.left_depth
      right_depth := congrArg (· + 1) htogether.right_depth
      tied := bond.deeper htogether.tied hdepth }
  have hshallower : ∀ {left right : Machine}, Together bond ours theirs (depth + 1) left right →
      Together bond ours theirs depth { left with evalDepth := left.evalDepth - 1 }
        { right with evalDepth := right.evalDepth - 1 } := by
    intro left right hdone
    exact { hdone with
      left_depth := by rw [hdone.left_depth]; rfl
      right_depth := by rw [hdone.right_depth]; rfl
      tied := bond.shallower hdone.tied }
  refine Coupled.attempt_bind (hagree ours theirs (depth + 1) length halike)
    (fun reason _ _ hdone ↦ hcompanions.course (.stopping reason) rfl hdone.1) (fun _ _ ↦ ?_)
    (fun _ ↦ ?_) _ _ ⟨hdeeper, hlength⟩
  · rintro left right ⟨rfl, hdone, hlog⟩
    exact .ok ⟨rfl, hshallower hdone, hlog⟩
  · rintro left right ⟨hdone, hlog⟩
    exact .signal ⟨hshallower hdone, hlog⟩

/-- What an application does first depends on how deep the machine is nested. -/
theorem applyFunction_apply (caller : Caller) (function : Value) (arguments : List Value)
    (machine : Machine) :
    applyFunction caller function arguments machine =
      (if machine.settings.maxEvalDepth ≤ machine.evalDepth then
        liftM (error Symbols.excessiveLispNesting [.ofNat machine.evalDepth] : Storage Value)
      else do
        noticeQuit
        nested caller do
          caller.observe (.applying function arguments)
          call caller function arguments : Engine Value) machine :=
  rfl

section Companions

variable (hcompanions : Companions bond caller companion)

include hcompanions

/-- Receiving arguments, for which there is always room. -/
theorem agree_receiveArguments (subject : Function) (arguments : List Value) :
    AgreeAs bond .growing
      (receiveArguments caller subject.parameters arguments (.empty subject.stackLimit))
      (receiveArguments companion subject.parameters arguments (.empty subject.stackLimit)) := by
  have hroom := subject.entryDepth_le_stackLimit
  unfold Function.entryDepth at hroom
  generalize subject.stackLimit = limit, subject.parameters = parameters at *
  cases parameters with
  | template template =>
    refine .ite (fun ours theirs depth length halike ↦ ?_) (.stored _)
    refine Coupled.bind ((AgreeAs.stored _ ours theirs depth length halike).and_yields
      (.lift (templateSlots_yields template arguments))) fun slots slots' ↦ ?_
    rintro left right ⟨hslots, rfl, htogether, hlog⟩
    have hempty : (OperandStack.empty limit).depth + slots.length ≤ limit :=
      Nat.le_trans (Nat.le_of_eq ((Nat.zero_add _).trans hslots)) hroom
    obtain ⟨pushed, -, -, hrun⟩ := pushAll_of_room hempty
    rw [hrun, hrun]
    exact .ok ⟨rfl, htogether, hlog⟩
  | dynamic symbols =>
    have hcomposed : Composed .growing fun caller ↦
        receiveArguments caller (.dynamic symbols) arguments (.empty limit) :=
      .ite (.growing (.stored _)) (.bind (.bindParameters _ _) fun _ ↦
        .bind (.bindRest _ _ _) fun _ ↦ .growing (.pure _))
    exact hcomposed.agree hcompanions

theorem coupled_runBody {subject subject' : Function}
    (hframes : FramesAgree bond caller companion subject subject') (arguments : List Value)
    {low low' : HandlerStack} (hlow : HandlerStack.Alike low low') (depth length : Nat) :
    Coupled
      (fun left right ↦ Together bond low low' depth left right ∧ left.bindings.length = length)
      (runBody caller subject arguments low.length)
      (runBody companion subject' arguments low.length)
      (fun a b left right ↦ a = b ∧ Together bond low low' depth left right ∧
        length ≤ left.bindings.length)
      (fun _ left right ↦ Owned bond Handler.Alike low low' depth left right) := by
  have hparameters : subject'.parameters = subject.parameters :=
    show subject'.uncompiled.parameters = subject.uncompiled.parameters from
      congrArg _ hframes.uncompiled_eq.symm
  have hlimit : subject'.stackLimit = subject.stackLimit :=
    show subject'.uncompiled.stackLimit = subject.uncompiled.stackLimit from
      congrArg _ hframes.uncompiled_eq.symm
  have hname : subject.displayName = subject'.displayName :=
    show subject.uncompiled.displayName = subject'.uncompiled.displayName from
      congrArg _ hframes.uncompiled_eq
  have hfits_iff : subject'.StackFits ↔ subject.StackFits :=
    iff_of_eq (congrArg (· < Size.maxValues) hlimit)
  rw [runBody_eq, runBody_eq]
  by_cases hfits : subject.StackFits
  case neg =>
    rw [if_neg hfits]
    exact fun _ _ _ ↦ .exhausted
  rw [if_pos hfits, if_pos (hfits_iff.mpr hfits), hlimit]
  unfold runBodyOn
  rw [hparameters]
  refine Coupled.bind (((agree_receiveArguments hcompanions subject arguments low low' depth length
    hlow).and_yields (receiveArguments_yields caller subject arguments)).conseq (fun _ _ hstart ↦ hstart)
    (fun _ _ _ _ hdone ↦ hdone) fun _ _ _ hdone ↦ hdone.1.owned) fun stack stack' ↦ ?_
  rintro left right ⟨⟨hdepth, hfull⟩, rfl, htogether, hgrown⟩
  refine Coupled.bind (coupled_bindingMark depth left.bindings.length) (fun mark _ ↦ ?_) left right
    ⟨htogether, rfl⟩
  rintro left' right' ⟨rfl, hmark, htogether, -⟩
  obtain ⟨own, hsetting, hframed⟩ := hframes.framed low low' depth mark stack hlow hdepth hfull
  refine Coupled.bind (hframed.conseq (fun _ _ hstart ↦ hstart) (fun _ _ _ _ hdone ↦ hdone)
    fun _ _ _ hdone ↦ hdone.weaken hsetting.own_alike) (fun value value' ↦ ?_) left' right'
    htogether.owned
  rintro left' right' ⟨rfl, howned⟩
  refine Coupled.bind (coupled_checkBalance hlow depth mark hname) (fun _ _ ↦ ?_) left' right'
    (howned.weaken hsetting.own_alike)
  rintro left' right' ⟨hdone, hlog⟩
  exact .ok ⟨rfl, hdone, Nat.le_trans hgrown (Nat.le_of_eq (hmark.trans hlog.symm))⟩

theorem agree_runInvocation {subject subject' : Function}
    (hframes : FramesAgree bond caller companion subject subject') (arguments : List Value) :
    AgreeAs bond .growing (runInvocation caller subject arguments)
      (runInvocation companion subject' arguments) := by
  intro low low' depth length hlow
  refine Coupled.bind (coupled_handlerCount fun _ _ hstart ↦ hstart.1) fun _ _ ↦ ?_
  rintro left right ⟨rfl, rfl, hstart⟩
  rw [← hlow.length_eq]
  refine Coupled.attempt_bind (coupled_runBody hcompanions hframes arguments hlow depth length)
    (fun reason _ _ howned ↦ howned.permits hcompanions (.stopping reason) rfl)
    (fun value value' ↦ ?_) (fun reason ↦ ?_) left right hstart
  · rintro left' right' ⟨rfl, htogether, hlog⟩
    have hleft : outermost low.length left'.handlers = low :=
      htogether.left_handlers ▸ outermost_append [] low
    have hright : outermost low.length right'.handlers = low' := by
      rw [htogether.right_handlers, hlow.length_eq]
      exact outermost_append [] low'
    exact .ok ⟨rfl, htogether.with_handlers hleft hright, hlog⟩
  · refine Coupled.bind (coupled_truncateHandlers hlow depth) fun _ _ ↦ ?_
    exact fun _ _ htogether ↦ .signal ⟨htogether, trivial⟩

/-- One function that is interpreted, as its course says, agrees with itself. -/
theorem FramesAgree.on_course {subject : Function} {stands : Nat → OperandStack → Prop}
    {resumes : Handler → Prop} (hcompiled : subject.compiled = none)
    (hcourse : Course bond caller companion subject.code stands resumes)
    (hstands : ∀ stack, stack.depth = subject.entryDepth → stack.limit = subject.stackLimit →
      stands 0 stack) :
    FramesAgree bond caller companion subject subject := by
  refine ⟨rfl, fun low low' depth mark stack hlow hdepth hlimit ↦
    ⟨Handler.Same resumes, .same hlow, ?_⟩⟩
  unfold runFrame
  rw [hcompiled]
  exact .bind_eq framed_countInterpretedCall fun _ ↦
    framed_interpret hlow hcompanions hcourse rfl (hstands stack hdepth hlimit)

omit hcompanions in
/-- One function, run as it is, agrees with itself when whatever the first caller permits is
permitted by the second. -/
theorem FramesAgree.same (hcompanions : WatchedCompanions bond caller companion)
    (subject : Function) : FramesAgree bond caller companion subject subject := by
  cases hcompiled : subject.compiled with
  | none =>
    exact on_course hcompanions.toCompanions hcompiled (Course.any hcompanions subject.code)
      fun _ _ _ ↦ trivial
  | some code =>
    refine ⟨rfl, fun low low' depth mark stack hlow _ _ ↦
      ⟨Handler.Same fun _ ↦ True, .same hlow, ?_⟩⟩
    unfold runFrame
    rw [hcompiled]
    exact .bind_eq framed_countCompiledCall fun _ ↦
      framed_runNative hlow rfl hcompanions code.native stack

/-- Invocations agree when compiling does and the frames of every function do. -/
theorem agree_invoke
    (hcompile : ∀ id, AgreeAs bond .balanced (compileIfDue id) (compileIfDue id))
    (hframes : ∀ {depth left right} id, bond.ties depth left right →
      FramesAgree bond caller companion (left.functions.getD id default)
        (right.functions.getD id default))
    (id : Nat) (arguments : List Value) :
    AgreeAs bond .balanced (invoke caller id arguments) (invoke companion id arguments) := by
  refine .bind (hcompile id) fun _ ↦ ?_
  rintro ours theirs depth length halike left right ⟨htogether, hlength⟩
  exact agree_bracketed hcompanions
    (agree_runInvocation hcompanions (hframes id htogether.tied) arguments) ours theirs depth length
    halike left right ⟨htogether, hlength⟩

/-! ### Applications -/

omit hcompanions in
theorem agree_addFunction (function : Function) (hcompiled : function.compiled = none) :
    AgreeAs bond .balanced (addFunction function) (addFunction function) := by
  rintro ours theirs depth length halike left right ⟨htogether, rfl⟩
  exact .ok ⟨bond.size_eq htogether.tied,
    { htogether with tied := bond.added function hcompiled htogether.tied }, rfl⟩

variable (hinvoke : ∀ id arguments,
  AgreeAs bond .balanced (invoke caller id arguments) (invoke companion id arguments))

include hinvoke

omit hcompanions in
theorem agree_executeString (text constants maxDepth : Value) :
    AgreeAs bond .balanced (executeString caller text constants maxDepth)
      (executeString companion text constants maxDepth) := by
  refine .bind (.stored _) fun parts ↦ ?_
  exact .bind (agree_addFunction _ rfl) fun id ↦ hinvoke id []

theorem agree_callPrimitive (callee : Value) (index : Nat) (arguments : List Value) :
    AgreeAs bond .balanced (callPrimitive caller callee index arguments)
      (callPrimitive companion callee index arguments) := by
  unfold callPrimitive
  cases hprimitive : Primitive.catalogue[index]? with
  | none => exact .stored _
  | some primitive =>
    refine .ite ?_ (.stored _)
    obtain hcomposed | hcode := Composed.primitive (Array.mem_of_getElem? hprimitive)
    · exact (hcomposed arguments).agree hcompanions
    · rw [hcode]
      exact agree_executeString hinvoke _ _ _

theorem agree_call (function : Value) (arguments : List Value) :
    AgreeAs bond .balanced (call caller function arguments)
      (call companion function arguments) := by
  refine .bind (.stored _) fun callee ↦ .bind (.stored _) fun object ↦ ?_
  split
  · exact agree_callPrimitive hcompanions hinvoke callee _ arguments
  · exact hinvoke _ arguments
  · exact .stored _

omit hcompanions in
theorem agree_applyFunction (hcompanions : WatchedCompanions bond caller companion)
    (function : Value) (arguments : List Value) :
    AgreeAs bond .balanced (applyFunction caller function arguments)
      (applyFunction companion function arguments) := by
  rintro ours theirs depth length halike left right ⟨htogether, hlength⟩
  have hsettings : left.settings = right.settings := bond.settings_eq htogether.tied
  rw [applyFunction_apply, applyFunction_apply, ← hsettings, htogether.left_depth,
    htogether.right_depth]
  by_cases hdeep : left.settings.maxEvalDepth ≤ depth
  · rw [if_pos hdeep, if_pos hdeep]
    exact AgreeAs.stored _ ours theirs depth length halike left right ⟨htogether, hlength⟩
  · rw [if_neg hdeep, if_neg hdeep]
    have hnested := coupled_nested hcompanions.toCompanions (.bind
      (.observe (hcompanions.permits (.applying function arguments)))
      fun _ ↦ agree_call hcompanions.toCompanions hinvoke function arguments) halike depth length
    have hdepth := Nat.lt_of_not_le hdeep
    refine Coupled.bind (coupled_noticeQuit (fun left right hstart ↦ And.left hstart)
      (fun left right hstart ↦ ?_) fun reason left right hstart ↦ ?_) (fun _ _ ↦ hnested) left right
      ⟨htogether, hlength, hdepth⟩
    · exact ⟨hstart.1.received, hstart.2⟩
    · exact ⟨hstart.1.with_quitPending false, Nat.le_of_eq hstart.2.1⟩

end Companions

/-- Two ways to watch runs make companions of callers with the same number of steps, when
invocations by companions agree and the second watch permits whatever the first does. -/
theorem companions_watched {watch watch' : Event → Machine → Bool}
    (hpermits : ∀ {ours theirs depth left right} event,
      Together bond ours theirs depth left right → watch event left = true →
        watch' event right = true)
    (hinvoke : ∀ {caller companion : Caller}, WatchedCompanions bond caller companion →
      caller.permits = watch → companion.permits = watch' → ∀ id arguments,
        AgreeAs bond .balanced (invoke caller id arguments) (invoke companion id arguments))
    (steps : Nat) : WatchedCompanions bond (.watched watch steps) (.watched watch' steps) := by
  induction steps with
  | zero => exact ⟨⟨rfl, fun _ _ ↦ Agree.exhausted, fun event _ ↦ hpermits event⟩, hpermits⟩
  | succ steps ih =>
    exact ⟨⟨rfl, agree_applyFunction (hinvoke ih rfl rfl) ih, fun event _ ↦ hpermits event⟩,
      hpermits⟩

end LispMachine
