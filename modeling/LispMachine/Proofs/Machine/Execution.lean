import LispMachine.Proofs.Arithmetic.Words
import LispMachine.Proofs.Machine.Control
import LispMachine.Proofs.OperandStack
import LispMachine.Proofs.Run.Balance
import LispMachine.Proofs.Store.Primitives

/-!
Running code keeps a machine sound, by the interpreter and as native code. The values that code
works with come from the slots of its operand stack and from the constants of its function, and what
it puts into slots is known: the results of operations, the payloads of handlers, and nil in slots
that were never written. The main statement is `SoundCallers.watched`: two watched callers whose
watches agree as long as nothing dangles apply functions in the same way.
-/

set_option autoImplicit false

namespace LispMachine

open LispMachine.Action Storage

variable {α β : Type}

/-! ### Operand stacks -/

namespace OperandStack

variable {stack : OperandStack} {store : Store} (hstack : AllKnownTo stack.held store)

include hstack

theorem known_slots (n : Nat) : AllKnownTo (stack.slots n) store := by
  intro value hmem
  exact hstack value (List.mem_append_left _ (List.mem_of_mem_take (List.mem_reverse.mp hmem)))

theorem known_slot (hnil : Value.nil.KnownTo store) (n : Nat) : (stack.slot n).KnownTo store := by
  unfold slot
  rw [List.getD_eq_getElem?_getD]
  cases hvalue : stack.live[n]? with
  | none => exact hnil
  | some value => exact hstack value (List.mem_append_left _ (List.mem_of_getElem? hvalue))

theorem known_extend {value : Value} (hvalue : value.KnownTo store) :
    AllKnownTo (stack.extend value).held store := by
  intro other hmem
  rcases List.mem_append.mp hmem with hlive | hspent
  · rcases List.mem_cons.mp hlive with rfl | hlive
    · exact hvalue
    · exact hstack other (List.mem_append_left _ hlive)
  · exact hstack other (List.mem_append_right _ (List.mem_of_mem_tail hspent))

theorem known_overwrite (n : Nat) {value : Value} (hvalue : value.KnownTo store) :
    AllKnownTo (stack.overwrite n value).held store := by
  intro other hmem
  rcases List.mem_append.mp hmem with hlive | hspent
  · rcases List.mem_or_eq_of_mem_set hlive with hlive | rfl
    · exact hstack other (List.mem_append_left _ hlive)
    · exact hvalue
  · exact hstack other (List.mem_append_right _ hspent)

theorem known_lower (n : Nat) : AllKnownTo (stack.lower n).held store := by
  refine hstack.sublist fun value hmem ↦ ?_
  simp only [held, lower, List.mem_append, List.mem_reverse] at hmem ⊢
  rcases hmem with hlive | htaken | hspent
  · exact .inl (List.mem_of_mem_drop hlive)
  · exact .inl (List.mem_of_mem_take htaken)
  · exact .inr hspent

theorem known_raise (hnil : Value.nil.KnownTo store) (n : Nat) :
    AllKnownTo (stack.raise n).held store := by
  induction n generalizing stack with
  | zero => exact hstack
  | succ n ih =>
    refine ih fun value hmem ↦ ?_
    obtain ⟨limit, live, spent⟩ := stack
    cases spent with
    | nil =>
      simp only [held, List.headD_nil, List.tail_nil, List.append_nil, List.mem_cons] at hmem
      rcases hmem with rfl | hlive
      · exact hnil
      · exact hstack value (List.mem_append_left _ hlive)
    | cons top rest =>
      refine hstack value ?_
      simp only [held, List.headD_cons, List.tail_cons, List.cons_append, List.mem_cons,
        List.mem_append] at hmem ⊢
      grind

theorem known_atDepth (hnil : Value.nil.KnownTo store) (depth : Nat) :
    AllKnownTo (stack.atDepth depth).held store := by
  unfold atDepth
  split_ifs
  · exact known_lower hstack _
  · exact known_raise hstack hnil _

/-! The operations that check give what the unchecked ones give. -/

theorem known_push {value : Value} (hvalue : value.KnownTo store) {after : OperandStack}
    (hpush : stack.push value = .ok after) : AllKnownTo after.held store := by
  unfold push at hpush
  split_ifs at hpush
  cases hpush
  exact known_extend hstack hvalue

theorem known_peek {n : Nat} {value : Value} (hpeek : stack.peek n = .ok value) :
    value.KnownTo store := by
  unfold peek at hpeek
  split at hpeek
  · next found hfound =>
    cases hpeek
    exact hstack _ (List.mem_append_left _ (List.mem_of_getElem? hfound))
  · cases hpeek

theorem known_pop {value : Value} {after : OperandStack} (hpop : stack.pop = .ok (value, after)) :
    value.KnownTo store ∧ AllKnownTo after.held store := by
  have hdepth : 0 < stack.depth := by
    have hlengths := pop_eq_ok hpop
    omega
  rw [pop_of_pos hdepth] at hpop
  cases hpop
  refine ⟨hstack _ (List.mem_append_left _ ?_), known_lower hstack 1⟩
  unfold slot
  rw [List.getD_eq_getElem?_getD, List.getElem?_eq_getElem hdepth]
  exact List.getElem_mem hdepth

theorem known_set {n : Nat} {value : Value} (hvalue : value.KnownTo store) {after : OperandStack}
    (hset : stack.set n value = .ok after) : AllKnownTo after.held store := by
  obtain ⟨-, hafter⟩ := require_bind_eq_ok hset
  cases hafter
  exact known_overwrite hstack n hvalue

theorem known_popSlice {n : Nat} {values : List Value} {after : OperandStack}
    (hpop : stack.popSlice n = .ok (values, after)) :
    AllKnownTo values store ∧ AllKnownTo after.held store := by
  obtain ⟨-, hafter⟩ := require_bind_eq_ok hpop
  cases hafter
  exact ⟨known_slots hstack n, known_lower hstack n⟩

theorem known_discard {n : Nat} {after : OperandStack} (hdiscard : stack.discard n = .ok after) :
    AllKnownTo after.held store := by
  obtain ⟨-, hafter⟩ := require_bind_eq_ok hdiscard
  cases hafter
  exact known_lower hstack n

theorem known_discardUnder {n : Nat} {after : OperandStack}
    (hdiscard : stack.discardUnder n = .ok after) : AllKnownTo after.held store := by
  unfold discardUnder at hdiscard
  cases htop : stack.top with
  | error reason =>
    rw [htop] at hdiscard
    cases hdiscard
  | ok top =>
    rw [htop] at hdiscard
    change (stack.set n top >>= fun stack ↦ stack.discard n) = .ok after at hdiscard
    cases hset : stack.set n top with
    | error reason =>
      rw [hset] at hdiscard
      cases hdiscard
    | ok between =>
      rw [hset] at hdiscard
      exact known_discard (known_set hstack (known_peek hstack htop) hset) hdiscard

theorem known_resetTo (hnil : Value.nil.KnownTo store) {depth : Nat} {after : OperandStack}
    (hreset : stack.resetTo depth = .ok after) : AllKnownTo after.held store := by
  unfold resetTo at hreset
  split_ifs at hreset
  cases hreset
  exact known_atDepth hstack hnil depth

theorem known_test {kind : BranchKind} {taken : Bool} {after : OperandStack}
    (htest : kind.test stack = .ok (taken, after)) : AllKnownTo after.held store := by
  by_cases hkind : kind.isConditional = true
  · by_cases hdepth : 0 < stack.depth
    · rw [BranchKind.test_of_conditional hkind hdepth] at htest
      split_ifs at htest
      · cases htest
        exact hstack
      all_goals
        cases htest
        exact known_lower hstack 1
    · obtain ⟨limit, live, spent⟩ := stack
      cases live with
      | cons => exact absurd (Nat.zero_lt_succ _) hdepth
      | nil =>
        cases kind with
        | goto => cases hkind
        | _ => cases htest
  · cases kind with
    | goto =>
      cases htest
      exact hstack
    | _ => exact absurd rfl hkind

end OperandStack

/-! ### Functions -/

namespace Function

variable {function : Function} {store : Store} (hfunction : AllKnownTo function.values store)

include hfunction

theorem known_constant {index : Nat} {value : Value}
    (hvalue : function.constant index = .ok value) : value.KnownTo store := by
  unfold constant at hvalue
  split at hvalue
  · next found hfound =>
    cases hvalue
    refine hfunction _ ?_
    simp [values, Array.mem_of_getElem? hfound]
  · cases hvalue

theorem known_parameters : AllKnownTo function.parameters.values store :=
  hfunction.sublist fun value hmem ↦ by simp [values, hmem]

theorem known_native {code : CompiledCode} (hcode : function.compiled = some code)
    {step : NativeStep} (hstep : step ∈ code.native.steps) :
    AllKnownTo step.operation.values store := by
  refine hfunction.sublist fun value hmem ↦ ?_
  simp only [values, NativeCode.values, hcode, Option.toList_some, List.flatMap_cons,
    List.flatMap_nil, List.append_nil, List.mem_append, List.mem_flatMap, Array.mem_toList_iff]
  exact .inr ⟨step, hstep, hmem⟩

/-- The values in the code that an instruction becomes are constants of the function. -/
theorem known_translateInstruction (offset sites : Nat) (instruction : Instruction) :
    AllKnownTo (function.translateInstruction offset sites instruction).values store := by
  have hconstant (index : Nat) {use : Value → NativeOperation}
      (huse : ∀ value, (use value).values = [value]) :
      AllKnownTo (function.withConstant index use).values store := by
    unfold withConstant
    cases hvalue : function.constant index with
    | error fault => exact .nil
    | ok value =>
      dsimp only
      rw [huse]
      exact .cons (known_constant hfunction hvalue) .nil
  cases instruction with
  | constant index => exact hconstant index fun _ ↦ rfl
  | varRef index => exact hconstant index fun _ ↦ rfl
  | varSet index => exact hconstant index fun _ ↦ rfl
  | varBind index => exact hconstant index fun _ ↦ rfl
  | branch | discardN =>
    dsimp only [translateInstruction]
    split_ifs <;> exact .nil
  | _ => exact .nil

theorem known_translateFrom (guarded : Bool) (sites : Nat) (scan : List Scanned) {step : NativeStep}
    (hstep : step ∈ function.translateFrom guarded sites scan) :
    AllKnownTo step.operation.values store := by
  induction scan generalizing sites with
  | nil =>
    rw [translateFrom, List.mem_singleton] at hstep
    subst hstep
    exact .nil
  | cons scanned rest ih =>
    rw [translateFrom, List.mem_cons] at hstep
    rcases hstep with rfl | hlater
    · unfold translateScanned
      split
      · exact known_translateInstruction hfunction _ _ _
      · exact .nil
    · exact ih _ hlater

theorem known_compiled (id : Nat) (guarded : Bool) :
    AllKnownTo { function with compiled := some ⟨id, function.translate guarded⟩ : Function }.values
      store := by
  intro value hmem
  simp only [values, List.mem_append, Option.toList_some, List.flatMap_cons, List.flatMap_nil,
    List.append_nil, NativeCode.values, List.mem_flatMap, Array.mem_toList_iff] at hmem
  rcases hmem with (hconstant | hparameter) | ⟨step, hstep, hvalue⟩
  · exact hfunction value (by simp [values, hconstant])
  · exact hfunction value (by simp [values, hparameter])
  · rw [steps_translate, List.mem_toArray] at hstep
    exact known_translateFrom hfunction guarded 0 _ hstep value hvalue

end Function

theorem DynamicParameters.known_parseFrom {store : Store} {symbols : List Value}
    (hsymbols : AllKnownTo symbols store) {positional : List Value}
    (hpositional : AllKnownTo positional store) (mandatory : Option Nat) :
    AllKnownTo (parseFrom positional mandatory symbols).positional store ∧
      AllKnownTo (parseFrom positional mandatory symbols).rest.toList store := by
  induction symbols generalizing positional mandatory with
  | nil => exact ⟨fun value hmem ↦ hpositional value (List.mem_reverse.mp hmem), .nil⟩
  | cons symbol symbols ih =>
    obtain ⟨hsymbol, hsymbols⟩ := List.forall_mem_cons.mp hsymbols
    unfold parseFrom
    split_ifs
    · exact ih hsymbols hpositional _
    · refine ⟨fun value hmem ↦ hpositional value (List.mem_reverse.mp hmem), ?_⟩
      intro value hmem
      exact hsymbols value (List.mem_of_mem_head? (Option.mem_toList.mp hmem))
    · exact ih hsymbols (.cons hsymbol hpositional) _

/-! ### Primitives and operations -/

/-- What is pushed or given back when a step has been taken. -/
def StepOutcome.values : StepOutcome → List Value
  | .running _ stack => stack.held
  | .returned value => [value]

/-- What is pushed or given back when a piece of native code has run. -/
def NativeOutcome.values : NativeOutcome → List Value
  | .running _ stack => stack.held
  | .returned value => [value]

namespace Engine.Upholds

variable {caller companion : Caller} (hcallers : SoundCallers caller companion) {world : Store}

/-- A safe primitive on the store, as an action of the machine. -/
theorem safely {run : List Value → Storage Value} (hsafe : Safe run) {arguments : List Value}
    (harguments : AllKnownTo arguments world) :
    Upholds world (liftM (run arguments)) (liftM (run arguments)) Value.KnownTo :=
  here fun _ hgrows hsound ↦ stored (hsafe _ _ hsound.scratch (hgrows.allKnown harguments))

include hcallers

theorem operation (op : Operation) {operands : List Value} (hoperands : AllKnownTo operands world) :
    Upholds world (op.action.run caller operands) (op.action.run companion operands)
      Value.KnownTo := by
  refine here fun machine hgrows hsound ↦ ?_
  have hknown := hgrows.allKnown hoperands
  have hargument := hsound.store.known_argument hknown
  have hsafe := op.storesSafely
  cases op
  case interactiveP => exact apply hcallers (hsound.store.builtin rfl) .nil
  case saveCurrentBuffer | saveCurrentBufferAgain => exact saveCurrentBuffer
  case saveExcursion => exact saveExcursion
  case saveRestriction => exact saveRestriction
  case saveWindowExcursion => exact progn hcallers (hargument 0)
  case catchForm => exact catchForm hcallers (hargument 0) (hargument 1)
  case unwindProtect => exact unwindProtect (hargument 0)
  case conditionCase => exact conditionCase hcallers (hargument 0) (hargument 1) (hargument 2)
  case tempOutputBufferSetup => exact openOutputBuffer (hargument 0)
  case tempOutputBufferShow => exact closeOutputBuffer hcallers (hargument 1)
  all_goals exact safely hsafe hknown

end Engine.Upholds

/-- Tests of identity and arithmetic among fixnums give known values. -/
theorem Operation.known_shortcut {store : Store} (hsound : store.Sound) {op : Operation}
    {operands : List Value} {value : Value} (hvalue : op.shortcut? operands = some value) :
    value.KnownTo store := by
  obtain ⟨n, hn⟩ | ⟨b, rfl⟩ := Operation.shortcut?_cases hvalue
  · exact Value.known_of_ofInt? hn store
  · exact hsound.known_ofBool b

namespace Engine.Upholds

variable {caller companion : Caller} (hcallers : SoundCallers caller companion) {world : Store}

include hcallers

theorem perform (op : Operation) {operands : List Value} (hoperands : AllKnownTo operands world) :
    Upholds world (op.perform caller operands) (op.perform companion operands) Value.KnownTo := by
  unfold Operation.perform
  cases hvalue : op.shortcut? operands with
  | some value => exact pure fun _ _ hsound ↦ Operation.known_shortcut hsound hvalue
  | none => exact operation hcallers op hoperands

/-! ### The interpreter -/

variable {frame : Frame} (hframe : AllKnownTo frame.function.values world)

omit hcallers in
include hframe in
theorem constant (index : Nat) :
    Upholds world (Action.ofFaulty (frame.function.constant index) : Engine Value)
      (Action.ofFaulty (frame.function.constant index)) Value.KnownTo :=
  ofFaulty fun _ hvalue _ hgrows ↦ hgrows.known (Function.known_constant hframe hvalue)

omit hcallers in
theorem pushOwnHandler (kind : HandlerKind) {tag : Value} (htag : tag.KnownTo world) (depth : Nat)
    (resume : Resume) :
    Upholds world (Engine.pushOwnHandler kind tag depth resume)
      (Engine.pushOwnHandler kind tag depth resume) Anything :=
  reading_bind (fun _ ↦ rfl) fun _ hgrows hsound ↦ at_start (pushHandler (hgrows.known htag)) hsound

omit hcallers in
theorem popOwnHandler (frame : Frame) :
    Upholds world (Engine.popOwnHandler frame) (Engine.popOwnHandler frame) Anything := by
  refine reading_bind (fun _ ↦ rfl) fun machine _ hsound ↦ at_start ?_ hsound
  split_ifs
  · exact fault _
  · refine changing (fun _ ↦ rfl) fun machine _ hsound ↦ ⟨?_, .refl machine.toStore, trivial⟩
    exact { hsound with
      handlers := fun handler hmem ↦ hsound.handlers handler (List.mem_of_mem_tail hmem) }

theorem pushAndGo {stack : OperandStack} (hstack : AllKnownTo stack.held world) {value : Value}
    (hvalue : value.KnownTo world) (next : Nat) :
    Upholds world (Engine.pushAndGo caller stack value next)
      (Engine.pushAndGo companion stack value next) fun outcome ↦ AllKnownTo outcome.values := by
  refine bind (checked hcallers fun after hpush store hgrows ↦
    hgrows.allKnown (OperandStack.known_push hstack hvalue hpush)) fun after _ _ _ hafter ↦ ?_
  exact pure fun _ hgrows _ ↦ hgrows.allKnown hafter

theorem fetch {activation : Activation} (hstack : AllKnownTo activation.stack.held world) :
    Upholds world (Engine.fetch caller frame activation) (Engine.fetch companion frame activation)
      Anything := by
  unfold Engine.fetch
  cases frame.function.code[activation.offset]? with
  | none => exact fault _
  | some opcode =>
    have hcount : Upholds world (countOpcode activation.lastOpcode opcode)
        (countOpcode activation.lastOpcode opcode) Anything :=
      changing (fun _ ↦ rfl) fun machine _ hsound ↦
        ⟨{ hsound with }, .refl machine.toStore, trivial⟩
    refine bind hcount fun _ _ hlater _ _ ↦ ?_
    refine bind (ofFaulty fun _ _ _ _ ↦ trivial) fun decoded _ hlast _ _ ↦ ?_
    exact bind (observe hcallers (hlast.allKnown (hlater.allKnown hstack))) fun _ _ _ _ _ ↦ done

theorem branch (offset next : Nat) {stack : OperandStack} (hstack : AllKnownTo stack.held world)
    (kind : BranchKind) (target : Nat) :
    Upholds world (Engine.branch caller frame offset next stack kind target)
      (Engine.branch companion frame offset next stack kind target)
      fun outcome ↦ AllKnownTo outcome.values := by
  unfold Engine.branch
  split_ifs
  · exact fault _
  · have htested : Upholds world (caller.checked (kind.test stack))
        (companion.checked (kind.test stack)) fun tested ↦ AllKnownTo tested.2.held :=
      checked hcallers fun ⟨_, _⟩ htest store hgrows ↦
        hgrows.allKnown (OperandStack.known_test hstack htest)
    refine bind htested fun tested later _ _ hrest ↦ ?_
    dsimp only
    split_ifs
    · exact bind (checkpoint _) fun _ _ hlast _ _ ↦
        pure fun _ hgrows _ ↦ hgrows.allKnown (hlast.allKnown hrest)
    · exact pure fun _ hgrows _ ↦ hgrows.allKnown hrest

/-- Pop a value and go on with it and the rest of the stack. -/
theorem pop_bind {stack : OperandStack} (hstack : AllKnownTo stack.held world)
    {next next' : Value × OperandStack → Engine β} {gives : β → Store → Prop}
    (hnext : ∀ value rest later, world.Grows later → later.Sound → value.KnownTo later →
      AllKnownTo rest.held later → Upholds later (next (value, rest)) (next' (value, rest)) gives) :
    Upholds world (caller.checked stack.pop >>= next) (companion.checked stack.pop >>= next')
      gives := by
  have hpopped : Upholds world (caller.checked stack.pop) (companion.checked stack.pop)
      fun popped store ↦ popped.1.KnownTo store ∧ AllKnownTo popped.2.held store := by
    refine checked hcallers fun popped hpop store hgrows ↦ ?_
    have hknown := OperandStack.known_pop hstack hpop
    exact ⟨hgrows.known hknown.1, hgrows.allKnown hknown.2⟩
  exact bind hpopped fun popped later hgrows hsound hvalues ↦
    hnext popped.1 popped.2 later hgrows hsound hvalues.1 hvalues.2

/-- Pop several values and go on with them and the rest of the stack. -/
theorem popSlice_bind {stack : OperandStack} (hstack : AllKnownTo stack.held world) (n : Nat)
    {next next' : List Value × OperandStack → Engine β} {gives : β → Store → Prop}
    (hnext : ∀ values rest later, world.Grows later → later.Sound → AllKnownTo values later →
      AllKnownTo rest.held later →
      Upholds later (next (values, rest)) (next' (values, rest)) gives) :
    Upholds world (caller.checked (stack.popSlice n) >>= next)
      (companion.checked (stack.popSlice n) >>= next') gives := by
  have hpopped : Upholds world (caller.checked (stack.popSlice n))
      (companion.checked (stack.popSlice n))
      fun popped store ↦ AllKnownTo popped.1 store ∧ AllKnownTo popped.2.held store := by
    refine checked hcallers fun popped hpop store hgrows ↦ ?_
    have hknown := OperandStack.known_popSlice hstack hpop
    exact ⟨hgrows.allKnown hknown.1, hgrows.allKnown hknown.2⟩
  exact bind hpopped fun popped later hgrows hsound hvalues ↦
    hnext popped.1 popped.2 later hgrows hsound hvalues.1 hvalues.2

/-- A change of the stack after which nothing in it dangles. -/
theorem checkedStack {result : Except Fault OperandStack}
    (hresult : ∀ rest, result = .ok rest → AllKnownTo rest.held world) :
    Upholds world (caller.checked result) (companion.checked result)
      fun rest ↦ AllKnownTo rest.held :=
  checked hcallers fun rest hrest _ hgrows ↦ hgrows.allKnown (hresult rest hrest)

omit hcallers in
theorem goOn {stack : OperandStack} (hstack : AllKnownTo stack.held world) (next : Nat) :
    Upholds world (Pure.pure (StepOutcome.running next stack))
      (Pure.pure (StepOutcome.running next stack)) fun outcome ↦ AllKnownTo outcome.values :=
  pure fun _ hgrows _ ↦ hgrows.allKnown hstack

/-- Make one value of several popped ones and push it. -/
theorem gathered {stack : OperandStack} (hstack : AllKnownTo stack.held world) (count next : Nat)
    {gather : List Value → Storage Value}
    (hgather : ∀ {world : Store} {values : List Value}, AllKnownTo values world →
      Storage.Upholds world (gather values) Value.KnownTo) :
    Upholds world
      (do
        let (items, stack) ← caller.checked (stack.popSlice count)
        let result ← gather items
        Engine.pushAndGo caller stack result next)
      (do
        let (items, stack) ← companion.checked (stack.popSlice count)
        let result ← gather items
        Engine.pushAndGo companion stack result next) fun outcome ↦ AllKnownTo outcome.values := by
  refine popSlice_bind hcallers hstack count fun items rest later _ _ hitems hrest ↦ ?_
  exact bind (stored (hgather hitems)) fun result _ hgrows _ hresult ↦
    pushAndGo hcallers (hgrows.allKnown hrest) hresult next

include hframe in
/-- What an instruction does, case by case. -/
theorem execute (offset next : Nat) {stack : OperandStack} (hstack : AllKnownTo stack.held world)
    (instruction : Instruction) :
    Upholds world (Engine.execute caller frame offset next stack instruction)
      (Engine.execute companion frame offset next stack instruction)
      fun outcome ↦ AllKnownTo outcome.values := by
  cases instruction with
  | stackRef n =>
    refine bind (checked hcallers fun value hpeek store hgrows ↦
      hgrows.known (OperandStack.known_peek hstack hpeek)) fun value _ hlater _ hvalue ↦ ?_
    exact pushAndGo hcallers (hlater.allKnown hstack) hvalue next
  | dup =>
    refine bind (checked hcallers fun value hpeek store hgrows ↦
      hgrows.known (OperandStack.known_peek hstack hpeek)) fun value _ hlater _ hvalue ↦ ?_
    exact pushAndGo hcallers (hlater.allKnown hstack) hvalue next
  | constant index =>
    exact bind (constant hframe index) fun value _ hlater _ hvalue ↦
      pushAndGo hcallers (hlater.allKnown hstack) hvalue next
  | varRef index =>
    refine bind (constant hframe index) fun symbol first hfirst _ hsymbol ↦ ?_
    refine bind (stored (.variableValue hsymbol)) fun value second hsecond _ hvalue ↦ ?_
    exact pushAndGo hcallers (hsecond.allKnown (hfirst.allKnown hstack)) hvalue next
  | varSet index =>
    refine bind (constant hframe index) fun symbol first hfirst _ hsymbol ↦ ?_
    refine pop_bind hcallers (hfirst.allKnown hstack)
      fun value rest second hsecond _ hvalue hrest ↦ ?_
    exact bind (stored (.assign (hsecond.known hsymbol) hvalue)) fun _ _ hthird _ _ ↦
      goOn (hthird.allKnown hrest) next
  | varBind index =>
    refine bind (constant hframe index) fun symbol first hfirst _ hsymbol ↦ ?_
    refine pop_bind hcallers (hfirst.allKnown hstack)
      fun value rest second hsecond _ hvalue hrest ↦ ?_
    exact bind (bindVariable (hsecond.known hsymbol) hvalue) fun _ _ hthird _ _ ↦
      goOn (hthird.allKnown hrest) next
  | call count =>
    refine popSlice_bind hcallers hstack _ fun values rest later _ hsound hvalues hrest ↦ ?_
    refine bind (apply hcallers (hsound.known_argument hvalues 0)
      (hvalues.sublist (List.drop_subset 1 values))) fun result _ hlater _ hresult ↦ ?_
    exact pushAndGo hcallers (hlater.allKnown hrest) hresult next
  | unbind count =>
    exact bind (unbind hcallers count) fun _ _ hlater _ _ ↦ goOn (hlater.allKnown hstack) next
  | unbindAll =>
    exact bind (unbindTo hcallers frame.mark) fun _ _ hlater _ _ ↦
      goOn (hlater.allKnown hstack) next
  | popHandler =>
    exact bind (popOwnHandler frame) fun _ _ hlater _ _ ↦ goOn (hlater.allKnown hstack) next
  | pushHandler kind target =>
    refine pop_bind hcallers hstack fun tag rest later _ _ htag hrest ↦ ?_
    exact bind (pushOwnHandler kind htag _ _) fun _ _ hlater _ _ ↦ goOn (hlater.allKnown hrest) next
  | branch kind form target => exact branch hcallers offset next hstack kind target
  | ret =>
    refine pop_bind hcallers hstack fun value rest later _ _ hvalue _ ↦ ?_
    exact pure fun _ hgrows _ ↦ .cons (hgrows.known hvalue) .nil
  | discard =>
    exact pop_bind hcallers hstack fun value rest later _ _ _ hrest ↦ goOn hrest next
  | discardN count preserveTop =>
    refine bind (checkedStack hcallers fun rest hdiscard ↦ ?_) fun rest _ _ _ hrest ↦
      goOn hrest next
    split_ifs at hdiscard
    · exact OperandStack.known_discardUnder hstack hdiscard
    · exact OperandStack.known_discard hstack hdiscard
  | stackSet n =>
    refine bind (checked hcallers fun value hpeek store hgrows ↦
      hgrows.known (OperandStack.known_peek hstack hpeek)) fun top first hfirst _ htop ↦ ?_
    refine bind (checkedStack hcallers fun changed hset ↦
      OperandStack.known_set (hfirst.allKnown hstack) htop hset) fun changed _ _ _ hchanged ↦ ?_
    exact pop_bind hcallers hchanged fun value rest later _ _ _ hrest ↦ goOn hrest next
  | listN count => exact gathered hcallers hstack count next .list
  | concatN count => exact gathered hcallers hstack count next .concat
  | insertN count => exact gathered hcallers hstack count next .insert
  | operation op =>
    refine popSlice_bind hcallers hstack _ fun operands rest later _ _ hoperands hrest ↦ ?_
    refine bind (perform hcallers op hoperands) fun result _ hlater _ hresult ↦ ?_
    split_ifs
    · exact pushAndGo hcallers (hlater.allKnown hrest) hresult next
    · exact goOn (hlater.allKnown hrest) next

/-- Dispatch the signal of a step to the handlers of the frame. -/
theorem dispatching (frame : Frame) {step step' : Engine α} {gives : α → Store → Prop}
    {resume resume' : Handler → Value → Engine α} (hstep : Upholds world step step' gives)
    (hresume : ∀ handler payload later, world.Grows later → payload.KnownTo later →
      Upholds later (resume handler payload) (resume' handler payload) gives)
    (hgives : ∀ {result before after}, Store.Grows before after → gives result before →
      gives result after) :
    Upholds world (Engine.dispatching caller frame step resume)
      (Engine.dispatching companion frame step' resume') gives := by
  refine attempt_bind hcallers hstep ?_ ?_
  · exact fun outcome later _ _ houtcome ↦ pure fun _ hgrows _ ↦ hgives hgrows houtcome
  · intro reason first hfirst _ hreason
    refine bind (dispatch hcallers frame.handlerBase hreason)
      fun disposition second hsecond _ hdisposition ↦ ?_
    cases disposition with
    | propagate reason => exact signal hdisposition
    | resume handler payload =>
      exact hresume handler payload second (hfirst.trans hsecond)
        (hdisposition payload (by simp [Disposition.values]))

include hframe in
theorem step {activation : Activation} (hstack : AllKnownTo activation.stack.held world) :
    Upholds world (Engine.step caller frame activation) (Engine.step companion frame activation)
      fun outcome ↦ AllKnownTo outcome.values :=
  bind (fetch hcallers hstack) fun decoded _ hlater _ _ ↦
    execute hcallers (hlater.allKnown hframe) activation.offset decoded.2 (hlater.allKnown hstack)
      decoded.1

theorem resumeAt {stack : OperandStack} (hstack : AllKnownTo stack.held world) (handler : Handler)
    {payload : Value} (hpayload : payload.KnownTo world) :
    Upholds world (Engine.resumeAt caller stack handler payload)
      (Engine.resumeAt companion stack handler payload)
      fun outcome ↦ AllKnownTo outcome.values := by
  refine here fun machine hgrows hsound ↦ ?_
  unfold Engine.resumeAt
  cases handler.resume with
  | native | host => exact fault _
  | offset target =>
    refine bind (checkedStack hcallers fun reset hreset ↦
      OperandStack.known_resetTo (hgrows.allKnown hstack) hsound.store.known_nil hreset)
      fun reset _ hlater _ hknown ↦ ?_
    exact pushAndGo hcallers hknown (hlater.known (hgrows.known hpayload)) target

include hframe in
theorem interpretWithin (rounds : Nat) {activation : Activation}
    (hstack : AllKnownTo activation.stack.held world) :
    Upholds world (Engine.interpretWithin caller frame rounds activation)
      (Engine.interpretWithin companion frame rounds activation) Value.KnownTo := by
  induction rounds generalizing world activation with
  | zero => exact exhausted
  | succ rounds ih =>
    have hadvance : Upholds world (Engine.advance caller frame activation)
        (Engine.advance companion frame activation) fun outcome ↦ AllKnownTo outcome.values := by
      refine dispatching hcallers frame (step hcallers hframe hstack) ?_
        fun hgrows ↦ hgrows.allKnown
      exact fun handler payload later hlater hpayload ↦
        resumeAt hcallers (hlater.allKnown hstack) handler hpayload
    refine bind hadvance fun outcome later hlater _ houtcome ↦ ?_
    cases outcome with
    | returned value => exact .value (houtcome value (by simp [StepOutcome.values]))
    | running offset stack => exact ih (hlater.allKnown hframe) houtcome

/-! ### Native code -/

theorem guardStack (stack : OperandStack) (need : Option StackNeed) :
    Upholds world (Engine.guardStack caller stack need) (Engine.guardStack companion stack need)
      Anything := by
  cases need with
  | none => exact done
  | some need => exact checked hcallers fun _ _ _ _ ↦ trivial

omit hcallers in
theorem nativeOn {stack : OperandStack} (hstack : AllKnownTo stack.held world) (place : Nat) :
    Upholds world (Pure.pure (NativeOutcome.running place stack))
      (Pure.pure (NativeOutcome.running place stack)) fun outcome ↦ AllKnownTo outcome.values :=
  pure fun _ hgrows _ ↦ hgrows.allKnown hstack

omit hcallers in
theorem nativeJump (place : Nat) {stack : OperandStack} (hstack : AllKnownTo stack.held world)
    (kind : BranchKind) (target : Nat) (backward : Bool) :
    Upholds world (Engine.nativeJump place stack kind target backward)
      (Engine.nativeJump place stack kind target backward)
      fun outcome ↦ AllKnownTo outcome.values := by
  have hlower := OperandStack.known_lower hstack 1
  unfold Engine.nativeJump
  by_cases hconditional : kind.isConditional = true
  · rw [if_pos hconditional]
    split
    · refine bind (checkpoint backward) fun _ _ hlater _ _ ↦ ?_
      split_ifs
      · exact nativeOn (hlater.allKnown hstack) target
      · exact nativeOn (hlater.allKnown hlower) target
    · exact nativeOn hlower _
  · rw [if_neg hconditional]
    exact bind (checkpoint backward) fun _ _ hlater _ _ ↦ nativeOn (hlater.allKnown hstack) target

/-- What a piece of native code does, case by case. -/
theorem nativeExecute (frame : Frame) (place : Nat) {stack : OperandStack}
    (hstack : AllKnownTo stack.held world) {operation : NativeOperation}
    (hoperation : AllKnownTo operation.values world) :
    Upholds world (Engine.nativeExecute caller frame place stack operation)
      (Engine.nativeExecute companion frame place stack operation)
      fun outcome ↦ AllKnownTo outcome.values := by
  refine here fun machine hgrows hsound ↦ ?_
  replace hstack := hgrows.allKnown hstack
  replace hoperation := hgrows.allKnown hoperation
  have hslot := OperandStack.known_slot hstack hsound.store.known_nil
  have hslots := OperandStack.known_slots hstack
  have hlower := OperandStack.known_lower hstack
  cases operation with
  | trap reason => exact fault reason
  | copy n => exact nativeOn (OperandStack.known_extend hstack (hslot n)) _
  | push value =>
    have hvalue := hoperation value (by simp [NativeOperation.values])
    exact nativeOn (OperandStack.known_extend hstack hvalue) _
  | readVariable symbol =>
    refine bind (stored (.variableValue (hoperation symbol (by simp [NativeOperation.values]))))
      fun value _ hlater _ hvalue ↦ ?_
    exact nativeOn (OperandStack.known_extend (hlater.allKnown hstack) hvalue) _
  | writeVariable symbol =>
    refine bind (stored (.assign (hoperation symbol (by simp [NativeOperation.values])) (hslot 0)))
      fun _ _ hlater _ _ ↦ ?_
    exact nativeOn (hlater.allKnown (hlower 1)) _
  | bindVariable symbol =>
    refine bind (bindVariable (hoperation symbol (by simp [NativeOperation.values])) (hslot 0))
      fun _ _ hlater _ _ ↦ ?_
    exact nativeOn (hlater.allKnown (hlower 1)) _
  | call count =>
    refine bind (apply hcallers (hsound.store.known_argument (hslots (count + 1)) 0)
      ((hslots (count + 1)).sublist (List.drop_subset 1 _))) fun result _ hlater _ hresult ↦ ?_
    exact nativeOn (OperandStack.known_extend (hlater.allKnown (hlower (count + 1))) hresult) _
  | unbind count =>
    exact bind (unbind hcallers count) fun _ _ hlater _ _ ↦ nativeOn (hlater.allKnown hstack) _
  | unbindAll =>
    exact bind (unbindTo hcallers frame.mark) fun _ _ hlater _ _ ↦
      nativeOn (hlater.allKnown hstack) _
  | popHandler =>
    exact bind (popOwnHandler frame) fun _ _ hlater _ _ ↦ nativeOn (hlater.allKnown hstack) _
  | pushHandler kind site =>
    exact bind (pushOwnHandler kind (hslot 0) _ _) fun _ _ hlater _ _ ↦
      nativeOn (hlater.allKnown (hlower 1)) _
  | jump kind target backward => exact nativeJump place hstack kind target backward
  | ret => exact pure fun _ hlater _ ↦ .cons (hlater.known (hslot 0)) .nil
  | drop count => exact nativeOn (hlower count) _
  | dropUnder count =>
    exact nativeOn (OperandStack.known_lower
      (OperandStack.known_overwrite hstack count (hslot 0)) count) _
  | moveTo n =>
    exact nativeOn (OperandStack.known_lower (OperandStack.known_overwrite hstack n (hslot 0)) 1) _
  | gather gathering count =>
    have hgather : Storage.Upholds machine.toStore (gathering.gather (stack.slots count))
        Value.KnownTo := by
      cases gathering with
      | list => exact .list (hslots count)
      | concat => exact .concat (hslots count)
      | insert => exact .insert (hslots count)
    exact bind (stored hgather) fun result _ hlater _ hresult ↦
      nativeOn (OperandStack.known_extend (hlater.allKnown (hlower count)) hresult) _
  | operation op =>
    have hperform := perform hcallers op (hslots op.operands)
    rw [← Operation.performInline_eq] at hperform
    refine bind hperform fun result _ hlater _ hresult ↦ ?_
    dsimp only
    split_ifs
    · exact nativeOn (OperandStack.known_extend (hlater.allKnown (hlower _)) hresult) _
    · exact nativeOn (hlater.allKnown (hlower _)) _

variable {code : NativeCode}
  (hcode : ∀ step ∈ code.steps, AllKnownTo step.operation.values world)

include hcode in
theorem nativeStep (frame : Frame) (place : Nat) {stack : OperandStack}
    (hstack : AllKnownTo stack.held world) :
    Upholds world (Engine.nativeStep caller frame code place stack)
      (Engine.nativeStep companion frame code place stack)
      fun outcome ↦ AllKnownTo outcome.values := by
  unfold Engine.nativeStep
  cases hstep : code.steps[place]? with
  | none => exact fault _
  | some step =>
    have hoperation := hcode step (Array.mem_of_getElem? hstep)
    refine bind (observe hcallers (hoperation.append hstack)) fun _ first hfirst _ _ ↦ ?_
    refine bind (guardStack hcallers stack step.need) fun _ second hsecond _ _ ↦ ?_
    have hgrows := hfirst.trans hsecond
    exact nativeExecute hcallers frame place (hgrows.allKnown hstack) (hgrows.allKnown hoperation)

theorem resumeAtSite (code : NativeCode) {stack : OperandStack}
    (hstack : AllKnownTo stack.held world) (handler : Handler) {payload : Value}
    (hpayload : payload.KnownTo world) :
    Upholds world (Engine.resumeAtSite caller code stack handler payload)
      (Engine.resumeAtSite companion code stack handler payload)
      fun outcome ↦ AllKnownTo outcome.values := by
  refine here fun machine hgrows hsound ↦ ?_
  have hreset := OperandStack.known_atDepth (hgrows.allKnown hstack) hsound.store.known_nil
    handler.depth
  unfold Engine.resumeAtSite
  cases handler.resume with
  | offset | host => exact fault _
  | native site =>
    refine bind (guardStack hcallers _ _) fun _ _ hlater _ _ ↦ ?_
    cases code.sites[site]? with
    | none => exact fault _
    | some place =>
      exact nativeOn (OperandStack.known_extend (hlater.allKnown hreset)
        (hlater.known (hgrows.known hpayload))) place

include hcode in
theorem runNativeWithin (frame : Frame) (rounds place : Nat) {stack : OperandStack}
    (hstack : AllKnownTo stack.held world) :
    Upholds world (Engine.runNativeWithin caller frame code rounds place stack)
      (Engine.runNativeWithin companion frame code rounds place stack) Value.KnownTo := by
  induction rounds generalizing world place stack with
  | zero => exact exhausted
  | succ rounds ih =>
    have hadvance : Upholds world (Engine.nativeAdvance caller frame code place stack)
        (Engine.nativeAdvance companion frame code place stack)
        fun outcome ↦ AllKnownTo outcome.values := by
      unfold Engine.nativeAdvance
      split_ifs
      · exact nativeStep hcallers hcode frame place hstack
      · refine dispatching hcallers frame (nativeStep hcallers hcode frame place hstack) ?_
          fun hgrows ↦ hgrows.allKnown
        exact fun handler payload later hlater hpayload ↦
          resumeAtSite hcallers code (hlater.allKnown hstack) handler hpayload
    refine bind hadvance fun outcome later hlater _ houtcome ↦ ?_
    cases outcome with
    | returned value => exact .value (houtcome value (by simp [NativeOutcome.values]))
    | running place stack =>
      exact ih (fun step hstep ↦ hlater.allKnown (hcode step hstep)) place houtcome

end Engine.Upholds

end LispMachine
