import LispMachine.Boot
import LispMachine.Proofs.Machine.Invocation

/-!
Loading keeps machines sound. Loading is an action of the machine that can be refused, and what was
done before a refusal stays done, so a refusal also leaves a sound machine (`Loader.Upholds`).
Literals and programs refer to each other, so both are treated by one induction on how deep they
nest.
-/

set_option autoImplicit false

namespace LispMachine

variable {α β : Type}

namespace Loader

/-- From every sound machine whose store has grown out of a world, loading ends in a sound machine,
and what is loaded satisfies a condition there. -/
def Upholds (world : Store) (action : Loader α) (gives : α → Store → Prop) : Prop :=
  Engine.Upholds world action.run action.run fun loaded store ↦
    ∀ result, loaded = .ok result → gives result store

namespace Upholds

variable {world : Store} {gives : α → Store → Prop}

/-! ### Rules -/

theorem pure {result : α} (hgives : ∀ store, world.Grows store → store.Sound → gives result store) :
    Upholds world (Pure.pure result) gives :=
  Engine.Upholds.pure fun store hgrows hsound _ hresult ↦
    Except.ok.inj hresult ▸ hgives store hgrows hsound

theorem refused (reason : LoadError) : Upholds world (throw reason) gives :=
  Engine.Upholds.pure fun _ _ _ _ hresult ↦ nomatch hresult

/-- An action of the machine as a part of loading. -/
theorem engine {action : Engine α} (haction : Engine.Upholds world action action gives) :
    Upholds world (liftM action) gives := by
  intro machine hgrows hsound
  obtain ⟨-, hend⟩ := haction machine hgrows hsound
  refine ⟨rfl, ?_⟩
  change Engine.EndsSound machine _
    (EStateM.bind action (fun result ↦ Pure.pure (Except.ok result)) machine)
  unfold EStateM.bind
  generalize action machine = run at hend ⊢
  cases hend with
  | ok hlater hafter hgives =>
    exact .ok hlater hafter fun _ hresult ↦ Except.ok.inj hresult ▸ hgives
  | signal hlater hafter hreason => exact .signal hlater hafter hreason
  | exhausted hlater hafter => exact .exhausted hlater hafter

/-- A storage action as a part of loading. -/
theorem stored {action : Storage α} (haction : Storage.Upholds world action gives) :
    Upholds world (liftM action) gives :=
  engine (Engine.Upholds.stored haction)

theorem bind {action : Loader α} {next : α → Loader β} {gives' : β → Store → Prop}
    (haction : Upholds world action gives)
    (hnext : ∀ result later, world.Grows later → later.Sound → gives result later →
      Upholds later (next result) gives') : Upholds world (action >>= next) gives' := by
  refine Engine.Upholds.bind haction fun loaded later hgrows hsound hgives ↦ ?_
  cases loaded with
  | ok result => exact hnext result later hgrows hsound (hgives result rfl)
  | error reason => exact refused reason

theorem liftExcept (result : Except LoadError α) :
    Upholds world (MonadExcept.ofExcept result : Loader α) Storage.Anything := by
  cases result with
  | ok value => exact pure fun _ _ _ ↦ trivial
  | error reason => exact refused reason

/-- Loading one item after another; what the items give stays known. -/
theorem mapM {items : List α} {body : α → Loader Value}
    (hbody : ∀ item ∈ items, ∀ {later : Store}, Upholds later (body item) Value.KnownTo) :
    Upholds world (items.mapM body) AllKnownTo := by
  induction items generalizing world with
  | nil => exact pure fun _ _ _ ↦ .nil
  | cons item items ih =>
    obtain ⟨hitem, hitems⟩ := List.forall_mem_cons.mp hbody
    rw [List.mapM_cons]
    refine bind hitem fun value first _ _ hvalue ↦ ?_
    refine bind (ih hitems) fun values second hsecond _ hvalues ↦ ?_
    exact pure fun _ hgrows _ ↦
      .cons (hgrows.known (hsecond.known hvalue)) (hgrows.allKnown hvalues)

theorem forM {items : List α} {body : α → Loader PUnit}
    (hbody : ∀ item ∈ items, ∀ {later : Store}, Upholds later (body item) Storage.Anything) :
    Upholds world (items.forM body) Storage.Anything := by
  induction items generalizing world with
  | nil => exact pure fun _ _ _ ↦ trivial
  | cons item items ih =>
    obtain ⟨hitem, hitems⟩ := List.forall_mem_cons.mp hbody
    exact bind hitem fun _ _ _ _ _ ↦ ih hitems

/-! ### Parts of a program -/

theorem integer (n : Int) :
    Engine.Upholds world (Loader.integer n) (Loader.integer n) Value.KnownTo := by
  unfold Loader.integer
  cases hvalue : Value.ofInt? n with
  | some value => exact .pure fun store _ _ ↦ Value.known_of_ofInt? hvalue store
  | none => exact .stored (.makeFloat _)

theorem parameters (spelling : Option ParameterSpelling) :
    Upholds world (Loader.parameters spelling) fun parameters ↦ AllKnownTo parameters.values := by
  unfold Loader.parameters
  split
  · exact pure fun _ _ _ ↦ .nil
  · split
    · exact pure fun _ _ _ ↦ .nil
    · exact refused _
  · split
    · exact pure fun _ _ _ ↦ .nil
    · exact refused _
  · exact bind (mapM fun name _ _ ↦ stored (.intern name)) fun _ _ _ _ hsymbols ↦
      pure fun _ hgrows _ ↦ hgrows.allKnown hsymbols

theorem defineFunction (name : String) {function : Function}
    (hfunction : AllKnownTo function.values world) :
    Engine.Upholds world (Loader.defineFunction name function) (Loader.defineFunction name function)
      Value.KnownTo := by
  refine Engine.Upholds.bind (.stored (.intern name)) fun symbol first hfirst _ hsymbol ↦ ?_
  refine Engine.Upholds.bind (.addFunction (hfirst.allKnown hfunction)) fun id second _ _ _ ↦ ?_
  refine Engine.Upholds.bind (.stored (.allocate trivial nofun))
    fun object third hthird _ hobject ↦ ?_
  cases symbol with
  | fixnum | object => exact .value hobject
  | symbol index =>
    refine Engine.Upholds.bind (.stored (.storeFunction index hobject)) fun _ _ hlater _ _ ↦ ?_
    exact .value (hlater.known hobject)

/-! ### Literals and programs -/

/-- Literals that nest at most so deep are known, and so is what belongs to the functions. -/
theorem within (levels : Nat) {world : Store} :
    (∀ literal, Upholds world (Loader.literalWithin levels literal) Value.KnownTo) ∧
      ∀ program, Upholds world (Loader.buildWithin levels program)
        fun function ↦ AllKnownTo function.values := by
  induction levels generalizing world with
  | zero => exact ⟨fun _ ↦ refused _, fun _ ↦ refused _⟩
  | succ levels ih =>
    have hitems (items : List Json) {later : Store} :
        Upholds later (items.mapM (Loader.literalWithin levels)) AllKnownTo :=
      mapM fun item _ _ ↦ ih.1 item
    constructor
    · intro literal
      unfold Loader.literalWithin
      split
      · exact pure fun _ _ hsound ↦ hsound.known_nil
      · exact pure fun _ _ hsound ↦ hsound.known_nil
      · exact pure fun _ _ hsound ↦ hsound.builtin rfl
      · exact engine (integer _)
      · exact stored (.makeFloat _)
      · exact stored (.makeString _)
      · exact bind (hitems _) fun _ _ _ _ hvalues ↦ stored (.list hvalues)
      · split
        · split
          · exact stored (.intern _)
          · exact bind (hitems _) fun _ _ _ _ hvalues ↦ stored (.list hvalues)
          · exact bind (hitems _) fun _ _ _ _ hvalues ↦ stored (.makeVector hvalues)
          · refine bind (ih.1 _) fun car first _ _ hcar ↦ ?_
            exact bind (ih.1 _) fun cdr second hsecond _ hcdr ↦
              stored (.cons (hsecond.known hcar) hcdr)
          · split
            · exact pure fun store _ _ ↦ Value.known_ofChar _ store
            · exact refused _
          · split
            · refine bind (ih.2 _) fun function first _ _ hfunction ↦ ?_
              exact bind (engine (.addFunction hfunction)) fun _ _ _ _ _ ↦
                stored (.allocate trivial nofun)
            · exact refused _
          · exact refused _
        · exact refused _
      · exact refused _
    · intro program
      obtain ⟨name, code, constants, maxDepth, spelling, functions⟩ := program
      unfold Loader.buildWithin
      refine bind (forM fun helper _ _ ↦ ?_) fun _ _ _ _ _ ↦ ?_
      · cases helper.name with
        | none => exact refused _
        | some name =>
          refine bind (ih.2 helper) fun function _ _ _ hfunction ↦ ?_
          exact bind (engine (defineFunction name hfunction)) fun _ _ _ _ _ ↦
            pure fun _ _ _ ↦ trivial
      · refine bind (liftExcept code.toCode) fun code _ _ _ _ ↦ ?_
        refine bind (parameters spelling) fun parameters first _ _ hparameters ↦ ?_
        refine bind (engine (.sized _)) fun entry second hsecond _ _ ↦ ?_
        refine bind (liftExcept _) fun depth third hthird _ _ ↦ ?_
        refine bind (hitems constants) fun constants fourth hfourth _ hconstants ↦ ?_
        refine pure fun store hgrows _ ↦ ?_
        have hparameters := hfourth.allKnown (hthird.allKnown (hsecond.allKnown hparameters))
        exact ((hgrows.allKnown hconstants).append (hgrows.allKnown hparameters)).append .nil

theorem literal (json : Json) : Upholds world (Loader.literal json) Value.KnownTo :=
  (within maxLevels).1 json

theorem build (program : ProgramFile) :
    Upholds world (Loader.build program) fun function ↦ AllKnownTo function.values :=
  (within maxLevels).2 program

end Upholds

end Loader

end LispMachine
