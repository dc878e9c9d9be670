import LispMachine.Proofs.Machine.Execution

/-!
Invoking and applying functions keeps a machine sound. What a function receives and what its native
code is made of is known, and a compiled function holds no value that it did not hold before. With
the application of functions the circle closes: `SoundCallers.watched` says of callers with any
bound on their steps that they apply functions in the same way if their watches agree about
everything that happens while nothing dangles, and `Request.upholds_run` says it of whatever a
machine is asked for.
-/

set_option autoImplicit false

namespace LispMachine

open LispMachine.Action Storage

variable {α β : Type}

/-- The values that a request mentions. -/
def Request.values : Request → List Value
  | .invoking _ arguments => arguments
  | .applying function arguments => function :: arguments
  | .evaluating form => [form]

namespace Engine.Upholds

variable {world : Store}

/-! ### Functions -/

theorem addFunction {function : Function} (hfunction : AllKnownTo function.values world) :
    Upholds world (Engine.addFunction function) (Engine.addFunction function) Anything := by
  refine changing (fun _ ↦ rfl) fun machine hgrows hsound ↦ ⟨?_, .refl machine.toStore, trivial⟩
  refine { hsound with functions := fun other hmem ↦ ?_ }
  rcases Array.mem_push.mp hmem with hold | rfl
  · exact hsound.functions other hold
  · exact hgrows.allKnown hfunction

theorem compile (id : Nat) : Upholds world (Engine.compile id) (Engine.compile id) Anything := by
  intro machine _ hsound
  refine ⟨rfl, ?_⟩
  have hcompiles := compiles id machine
  generalize Engine.compile id machine = run at hcompiles ⊢
  cases hcompiles with
  | missing => exact .exhausted (.refl _) hsound
  | compiled => exact .ok (.refl _) hsound trivial
  | misplaced => exact .signal (.refl machine.toStore) { hsound with } .nil
  | placed hsubject =>
    refine .ok (.refl machine.toStore) { hsound with functions := fun function hmem ↦ ?_ } trivial
    obtain ⟨place, hplace⟩ := Array.mem_iff_getElem?.mp hmem
    rw [Array.getElem?_modify] at hplace
    split_ifs at hplace with heq
    · subst heq
      rw [hsubject] at hplace
      cases hplace
      exact Function.known_compiled (hsound.functions _ (Array.mem_of_getElem? hsubject)) _ _
    · exact hsound.functions function (Array.mem_of_getElem? hplace)

theorem compileIfDue (id : Nat) :
    Upholds world (Engine.compileIfDue id) (Engine.compileIfDue id) Anything := by
  refine reading_bind (fun _ ↦ rfl) fun machine _ hsound ↦ at_start ?_ hsound
  split_ifs
  · exact bind (compile id) fun _ _ _ _ _ ↦ done
  · exact done

/-! ### Receiving arguments -/

theorem bindParameters {parameters arguments : List Value}
    (hparameters : AllKnownTo parameters world) (harguments : AllKnownTo arguments world) :
    Upholds world (Engine.bindParameters parameters arguments)
      (Engine.bindParameters parameters arguments) Anything := by
  induction parameters generalizing world arguments with
  | nil => exact done
  | cons parameter parameters ih =>
    obtain ⟨hparameter, hparameters⟩ := List.forall_mem_cons.mp hparameters
    refine here fun machine hgrows hsound ↦ ?_
    have hknown := hgrows.allKnown harguments
    refine bind (bindVariable (hgrows.known hparameter) (hsound.store.known_argument hknown 0))
      fun _ _ hlater _ _ ↦ ?_
    exact ih (hlater.allKnown (hgrows.allKnown hparameters))
      (hlater.allKnown (hknown.sublist (List.drop_subset 1 arguments)))

theorem bindRest {rest : Option Value} (hrest : AllKnownTo rest.toList world) (place : Nat)
    {arguments : List Value} (harguments : AllKnownTo arguments world) :
    Upholds world (Engine.bindRest rest place arguments) (Engine.bindRest rest place arguments)
      Anything := by
  cases rest with
  | none => exact done
  | some parameter =>
    exact bind (stored (.restArguments place harguments)) fun values _ hlater _ hvalues ↦
      bindVariable (hlater.known (hrest parameter (by simp))) hvalues

theorem checkBalance (frame : Frame) :
    Upholds world (Engine.checkBalance frame) (Engine.checkBalance frame) Anything := by
  refine reading_bind (fun _ ↦ rfl) fun machine _ hsound ↦ at_start ?_ hsound
  refine reading_bind (fun _ ↦ rfl) fun machine _ hsound ↦ at_start ?_ hsound
  split_ifs
  · exact bind (truncateHandlers _) fun _ _ _ _ _ ↦ fault _
  · exact done
  · exact fault _

variable {caller companion : Caller} (hcallers : SoundCallers caller companion)

include hcallers

theorem pushAll {stack : OperandStack} (hstack : AllKnownTo stack.held world) {values : List Value}
    (hvalues : AllKnownTo values world) :
    Upholds world (Engine.pushAll caller stack values) (Engine.pushAll companion stack values)
      fun after ↦ AllKnownTo after.held := by
  induction values generalizing world stack with
  | nil => exact pure fun _ hgrows _ ↦ hgrows.allKnown hstack
  | cons value values ih =>
    obtain ⟨hvalue, hvalues⟩ := List.forall_mem_cons.mp hvalues
    refine bind (checked hcallers fun after hpush store hgrows ↦
      hgrows.allKnown (OperandStack.known_push hstack hvalue hpush))
      fun after _ hlater _ hafter ↦ ?_
    exact ih hafter (hlater.allKnown hvalues)

theorem receiveArguments {parameters : Parameters}
    (hparameters : AllKnownTo parameters.values world) {arguments : List Value}
    (harguments : AllKnownTo arguments world) {stack : OperandStack}
    (hstack : AllKnownTo stack.held world) :
    Upholds world (Engine.receiveArguments caller parameters arguments stack)
      (Engine.receiveArguments companion parameters arguments stack)
      fun after ↦ AllKnownTo after.held := by
  unfold Engine.receiveArguments
  cases parameters with
  | template template =>
    dsimp only
    split_ifs
    · exact bind (stored (.templateSlots template harguments)) fun slots _ hlater _ hslots ↦
        pushAll hcallers (hlater.allKnown hstack) hslots
    · exact stored (.wrongArgumentCount _ _ _)
  | dynamic symbols =>
    obtain ⟨hpositional, hrest⟩ := DynamicParameters.known_parseFrom hparameters .nil none
    dsimp only
    split
    · exact stored (.wrongArgumentCount _ _ _)
    · refine bind (bindParameters hpositional harguments) fun _ first hfirst _ _ ↦ ?_
      refine bind (bindRest (hfirst.allKnown hrest) _ (hfirst.allKnown harguments))
        fun _ second hsecond _ _ ↦ pure fun _ hgrows _ ↦ ?_
      exact hgrows.allKnown (hsecond.allKnown (hfirst.allKnown hstack))

/-! ### Invocations -/

theorem runFrame {frame : Frame} (hframe : AllKnownTo frame.function.values world)
    {stack : OperandStack} (hstack : AllKnownTo stack.held world) :
    Upholds world (Engine.runFrame caller frame stack) (Engine.runFrame companion frame stack)
      Value.KnownTo := by
  unfold Engine.runFrame
  cases hcompiled : frame.function.compiled with
  | some code =>
    have hcount : Upholds world countCompiledCall countCompiledCall Anything :=
      changing (fun _ ↦ rfl) fun machine _ hsound ↦
        ⟨{ hsound with }, .refl machine.toStore, trivial⟩
    refine bind hcount fun _ _ hlater _ _ ↦ ?_
    unfold Engine.runNative
    rw [hcallers.rounds]
    exact runNativeWithin hcallers
      (fun step hstep ↦ hlater.allKnown (Function.known_native hframe hcompiled hstep)) frame _ 0
      (hlater.allKnown hstack)
  | none =>
    have hcount : Upholds world countInterpretedCall countInterpretedCall Anything :=
      changing (fun _ ↦ rfl) fun machine _ hsound ↦
        ⟨{ hsound with }, .refl machine.toStore, trivial⟩
    refine bind hcount fun _ _ hlater _ _ ↦ ?_
    unfold Engine.interpret
    rw [hcallers.rounds]
    exact interpretWithin hcallers (hlater.allKnown hframe) _ (hlater.allKnown hstack)

theorem runBody {subject : Function} (hsubject : AllKnownTo subject.values world)
    {arguments : List Value} (harguments : AllKnownTo arguments world) (handlerBase : Nat) :
    Upholds world (Engine.runBody caller subject arguments handlerBase)
      (Engine.runBody companion subject arguments handlerBase) Value.KnownTo := by
  rw [runBody_eq, runBody_eq]
  split
  case isFalse => exact oversized
  refine bind (receiveArguments hcallers (Function.known_parameters hsubject) harguments .nil)
    fun stack first hfirst _ hstack ↦ ?_
  refine reading_bind (fun _ ↦ rfl) fun machine hmachine hsound ↦ at_start ?_ hsound
  refine bind (runFrame hcallers (hmachine.allKnown (hfirst.allKnown hsubject))
    (hmachine.allKnown hstack)) fun value second _ _ hvalue ↦ ?_
  exact bind (checkBalance _) fun _ _ hlater _ _ ↦ .value (hlater.known hvalue)

/-- Attempt an action, clean up, and go on with how it ended. -/
theorem attempt_resume {first second : Engine Value} {tidy : Engine Unit}
    (haction : Upholds world first second Value.KnownTo)
    (htidy : ∀ {later : Store}, Upholds later tidy tidy Anything) :
    Upholds world
      (do
        let result ← caller.attempt first
        tidy
        Action.resume result)
      (do
        let result ← companion.attempt second
        tidy
        Action.resume result) Value.KnownTo := by
  refine attempt_bind hcallers haction ?_ ?_
  · exact fun value _ _ _ hvalue ↦ bind htidy fun _ _ hlater _ _ ↦ .value (hlater.known hvalue)
  · exact fun reason _ _ _ hreason ↦ bind htidy fun _ _ hlater _ _ ↦
      signal (hlater.allKnown hreason)

theorem runInvocation {subject : Function} (hsubject : AllKnownTo subject.values world)
    {arguments : List Value} (harguments : AllKnownTo arguments world) :
    Upholds world (Engine.runInvocation caller subject arguments)
      (Engine.runInvocation companion subject arguments) Value.KnownTo := by
  refine reading_bind (fun _ ↦ rfl) fun machine hgrows hsound ↦ at_start ?_ hsound
  exact attempt_resume hcallers
    (runBody hcallers (hgrows.allKnown hsubject) (hgrows.allKnown harguments) _)
    (truncateHandlers _)

theorem invoke (id : Nat) {arguments : List Value} (harguments : AllKnownTo arguments world) :
    Upholds world (Engine.invoke caller id arguments) (Engine.invoke companion id arguments)
      Value.KnownTo := by
  refine bind (compileIfDue id) fun _ _ hlater _ _ ↦ ?_
  refine reading_bind (fun _ ↦ rfl) fun machine hmachine hsound ↦ at_start ?_ hsound
  have hsubject := hsound.function id
  refine reading_bind (fun _ ↦ rfl) fun machine' hmachine' hsound ↦ at_start ?_ hsound
  refine unwindingTo hcallers _ (runInvocation hcallers (hmachine'.allKnown hsubject) ?_)
  exact hmachine'.allKnown (hmachine.allKnown (hlater.allKnown harguments))

theorem executeString {text constants maxDepth : Value} (htext : text.KnownTo world)
    (hconstants : constants.KnownTo world) (hdepth : maxDepth.KnownTo world) :
    Upholds world (Engine.executeString caller text constants maxDepth)
      (Engine.executeString companion text constants maxDepth) Value.KnownTo := by
  refine bind (stored (.codeArguments htext hconstants hdepth)) fun parts _ _ _ hpool ↦ ?_
  refine bind (addFunction ?_) fun id _ _ _ _ ↦ invoke hcallers id .nil
  intro value hmem
  refine hpool value ?_
  simpa [Function.values, Parameters.values] using hmem

/-! ### Applications -/

theorem primitive {primitive : Primitive} (hprimitive : primitive ∈ Primitive.catalogue)
    {arguments : List Value} (harguments : AllKnownTo arguments world) :
    Upholds world (primitive.action.run caller arguments) (primitive.action.run companion arguments)
      Value.KnownTo := by
  have hsafe := Primitive.storesSafely hprimitive
  obtain hstoring | hcontrol := Composed.isStoring_or_mem_control hprimitive
  · generalize primitive.action = action at hsafe hstoring ⊢
    cases action with
    | storing run => exact safely hsafe harguments
    | running run => cases hstoring
  · refine here fun machine hgrows hsound ↦ ?_
    have hknown := hgrows.allKnown harguments
    have hargument := hsound.store.known_argument hknown
    simp only [Primitive.control, List.mem_cons, List.not_mem_nil, or_false] at hcontrol
    rcases hcontrol with rfl | rfl | rfl | rfl | rfl | rfl | rfl | rfl | rfl | rfl | rfl | rfl
    · exact throwTo (hargument 0) (hargument 1)
    · exact safely hsafe hknown
    · exact safely hsafe hknown
    · exact safely hsafe hknown
    · exact funcallArguments hcallers hknown
    · exact applySpread hcallers hknown
    · exact evaluate hcallers (hargument 0)
    · exact executeString hcallers (hargument 0) (hargument 1) (hargument 2)
    · exact safely hsafe hknown
    · exact safely hsafe hknown
    · exact printTo hcallers .readable (hargument 0) (hargument 1)
    · exact printTo hcallers .plain (hargument 0) (hargument 1)

theorem callPrimitive {callee : Value} (hcallee : callee.KnownTo world) (index : Nat)
    {arguments : List Value} (harguments : AllKnownTo arguments world) :
    Upholds world (Engine.callPrimitive caller callee index arguments)
      (Engine.callPrimitive companion callee index arguments) Value.KnownTo := by
  unfold Engine.callPrimitive
  cases hprimitive : Primitive.catalogue[index]? with
  | none => exact stored (.error rfl (.cons hcallee .nil))
  | some found =>
    dsimp only
    split_ifs
    · exact primitive hcallers (Array.mem_of_getElem? hprimitive) harguments
    · exact stored (.error rfl (.pair hcallee (Value.known_ofNat _ world)))

theorem call {function : Value} (hfunction : function.KnownTo world) {arguments : List Value}
    (harguments : AllKnownTo arguments world) :
    Upholds world (Engine.call caller function arguments) (Engine.call companion function arguments)
      Value.KnownTo := by
  refine bind (stored (.indirectFunction hfunction)) fun callee first hfirst _ hcallee ↦ ?_
  refine reading_bind (fun _ ↦ rfl) fun machine hmachine hsound ↦ at_start ?_ hsound
  have hknown := hmachine.allKnown (hfirst.allKnown harguments)
  split
  · exact callPrimitive hcallers (hmachine.known hcallee) _ hknown
  · exact invoke hcallers _ hknown
  · exact stored (.error rfl (.cons (hmachine.known (hfirst.known hfunction)) .nil))

theorem nested {first second : Engine Value} (haction : Upholds world first second Value.KnownTo) :
    Upholds world (Engine.nested caller first) (Engine.nested companion second) Value.KnownTo := by
  have hdeeper (change : Nat → Nat) {later : Store} :
      Upholds later
        (modify fun machine : Machine ↦
          { machine with evalDepth := change machine.evalDepth } : Engine PUnit)
        (modify fun machine ↦ { machine with evalDepth := change machine.evalDepth }) Anything :=
    changing (fun _ ↦ rfl) fun machine _ hsound ↦
      ⟨{ hsound with }, .refl machine.toStore, trivial⟩
  exact bind (hdeeper (· + 1)) fun _ _ hlater _ _ ↦
    attempt_resume hcallers (haction.later hlater) (hdeeper (· - 1))

theorem applyFunction {function : Value} (hfunction : function.KnownTo world)
    {arguments : List Value} (harguments : AllKnownTo arguments world) :
    Upholds world (Engine.applyFunction caller function arguments)
      (Engine.applyFunction companion function arguments) Value.KnownTo := by
  refine reading_bind (fun _ ↦ rfl) fun machine hgrows hsound ↦ at_start ?_ hsound
  split_ifs
  · exact stored (.error rfl (.cons (Value.known_ofNat _ _) .nil))
  · refine bind (checkpoint false) fun _ second hsecond _ _ ↦ nested hcallers ?_
    have hfunction := hsecond.known (hgrows.known hfunction)
    have harguments := hsecond.allKnown (hgrows.allKnown harguments)
    exact bind (observe hcallers (.cons hfunction harguments)) fun _ _ hlater _ _ ↦
      call hcallers (hlater.known hfunction) (hlater.allKnown harguments)

end Engine.Upholds

/-! ### Watched callers -/

/-- Callers whose watches agree about everything that happens while nothing dangles. -/
theorem SoundCallers.watched {watch watch' : Event → Machine → Bool}
    (hwatch : ∀ {event : Event} {machine : Machine}, AllKnownTo event.values machine.toStore →
      machine.Sound → watch' event machine = watch event machine) (steps : Nat) :
    SoundCallers (.watched watch steps) (.watched watch' steps) := by
  induction steps with
  | zero => exact ⟨rfl, fun _ _ ↦ .exhausted, hwatch⟩
  | succ steps ih =>
    refine ⟨rfl, fun hfunction harguments ↦ ?_, hwatch⟩
    exact Engine.Upholds.applyFunction ih hfunction harguments

/-- What a machine is asked for is done in the same way, and the machine stays sound. -/
theorem Request.upholds_run {caller companion : Caller} (hcallers : SoundCallers caller companion)
    {world : Store} {request : Request} (hrequest : AllKnownTo request.values world) :
    Engine.Upholds world (request.run caller) (request.run companion) Value.KnownTo := by
  cases request with
  | invoking id arguments => exact .invoke hcallers id hrequest
  | applying function arguments =>
    exact .apply hcallers (List.forall_mem_cons.mp hrequest).1 (List.forall_mem_cons.mp hrequest).2
  | evaluating form => exact .eval hcallers (hrequest form (by simp [values]))

end LispMachine
