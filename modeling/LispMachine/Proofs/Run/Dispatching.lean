import LispMachine.Proofs.Run.Agreement

/-!
Signals that are dispatched on two machines together. A part of a run owns the handlers that it has
pushed, which lie above those it was entered with. On two machines the handlers that such parts own
correspond, one by one, in a way that the parts can choose, as long as handlers that correspond are
alike. `Owned` says so of two machines. A signal that is dispatched then goes to handlers that
correspond, or propagates on both machines (`coupled_dispatch`).

The main statement is `Composed.agree`: an action that is put together from the parts of a run
agrees with itself under two callers that are companions.
-/

set_option autoImplicit false

namespace LispMachine

open LispMachine.Action Storage Engine

variable {α β γ δ : Type} {bond : Bond}

/-! ### Storage actions without signals -/

/-- Two storage actions that never signal change every store in the same way and give results that
are related. -/
def Storage.Related (related : α → β → Prop) (first : Storage α) (second : Storage β) : Prop :=
  ∀ store, match first store with
    | .ok a store' => ∃ b, second store = .ok b store' ∧ related a b
    | .error (.signal _) _ => False
    | .error (.exhausted _) _ => True

namespace Storage.Related

variable {related : α → β → Prop} {first : Storage α} {second : Storage β}

theorem pure {a : α} {b : β} (hrelated : related a b) :
    Storage.Related related (Pure.pure a) (Pure.pure b) :=
  fun _ ↦ ⟨b, rfl, hrelated⟩

theorem conseq {related' : α → β → Prop} (hrelated : Storage.Related related first second)
    (himp : ∀ a b, related a b → related' a b) : Storage.Related related' first second := by
  intro store
  have hrun := hrelated store
  generalize first store = run at hrun ⊢
  match run with
  | .ok a _ =>
    obtain ⟨b, hsecond, hab⟩ := hrun
    exact ⟨b, hsecond, himp a b hab⟩
  | .error (.signal _) _ => exact hrun
  | .error (.exhausted _) _ => trivial

theorem bind {result : γ → δ → Prop} {next : α → Storage γ} {next' : β → Storage δ}
    (hfirst : Storage.Related related first second)
    (hnext : ∀ a b, related a b → Storage.Related result (next a) (next' b)) :
    Storage.Related result (first >>= next) (second >>= next') := by
  intro store
  have hrun := hfirst store
  change match EStateM.bind first next store with
    | .ok _ _ => ∃ b, EStateM.bind second next' store = _ ∧ _
    | .error (.signal _) _ => False
    | .error (.exhausted _) _ => True
  unfold EStateM.bind
  generalize first store = run at hrun ⊢
  match run with
  | .ok a store' =>
    obtain ⟨b, hsecond, hab⟩ := hrun
    rw [hsecond]
    exact hnext a b hab store'
  | .error (.signal _) _ => exact hrun
  | .error (.exhausted _) _ => trivial

theorem coupled (hrelated : Storage.Related related first second) (ours theirs : HandlerStack)
    (depth : Nat) {never : Signal → Machine → Machine → Prop} :
    Coupled (Together bond ours theirs depth) (liftM first) (liftM second)
      (fun a b left right ↦ related a b ∧ Together bond ours theirs depth left right) never := by
  intro left right htogether
  have hrun := hrelated left.toStore
  rw [liftM_apply, liftM_apply, ← htogether.store]
  generalize first left.toStore = run at hrun ⊢
  match run with
  | .ok a store =>
    obtain ⟨b, hsecond, hab⟩ := hrun
    rw [hsecond]
    exact .ok ⟨hab, htogether.with_store store⟩
  | .error (.signal _) _ => exact hrun.elim
  | .error (.exhausted _) _ => exact .exhausted

end Storage.Related

/-- A storage action only reads: it gives a result and leaves the store as it is, unless it finds
something endless. -/
def Storage.Reading (action : Storage α) : Prop :=
  ∀ store, (∃ result, action store = .ok result store) ∨ action store = .error (.exhausted .rounds) store

namespace Storage.Reading

theorem pure (result : α) : Storage.Reading (Pure.pure result) := fun _ ↦ .inl ⟨result, rfl⟩

theorem exhausted : Storage.Reading (Action.exhausted : Storage α) := fun _ ↦ .inr rfl

theorem get : Storage.Reading (MonadState.get : Storage Store) := fun store ↦ .inl ⟨store, rfl⟩

theorem bind {first : Storage α} {next : α → Storage β} (hfirst : Storage.Reading first)
    (hnext : ∀ result, Storage.Reading (next result)) : Storage.Reading (first >>= next) := by
  intro store
  change (∃ result, EStateM.bind first next store = _) ∨ EStateM.bind first next store = _
  unfold EStateM.bind
  obtain ⟨result, hrun⟩ | hrun := hfirst store
  · rw [hrun]
    exact hnext result store
  · rw [hrun]
    exact .inr rfl

theorem related {action : Storage α} (hreading : Storage.Reading action) :
    Storage.Related Eq action action := by
  intro store
  obtain ⟨result, hrun⟩ | hrun := hreading store
  · rw [hrun]
    exact ⟨result, rfl, rfl⟩
  · rw [hrun]
    trivial

theorem leadingElements (value : Value) : Storage.Reading (Storage.leadingElements value) := by
  refine bind get fun store ↦ ?_
  split
  · exact exhausted
  · exact pure _

theorem errorConditions (symbol : Value) : Storage.Reading (Storage.errorConditions symbol) := by
  cases symbol with
  | symbol index =>
    refine bind (bind get fun _ ↦ pure _) fun table ↦ ?_
    cases table.property? index Symbols.errorConditions with
    | some conditions => exact leadingElements conditions
    | none => exact pure _
  | fixnum | object => exact pure _

theorem signalConditions (signal : Signal) :
    Storage.Reading (Storage.signalConditions signal) := by
  cases signal with
  | error symbol data => exact errorConditions symbol
  | thrown | fatal => exact pure _

theorem coversConditions (conditions : List Value) (named : Value) :
    Storage.Reading (Storage.coversConditions conditions named) := by
  cases named with
  | symbol index => exact pure _
  | fixnum | object => exact bind (leadingElements _) fun _ ↦ pure _

theorem catchesSignal (signal : Signal) (conditions : List Value) (handler : Handler) :
    Storage.Reading (Storage.catchesSignal signal conditions handler) := by
  unfold Storage.catchesSignal
  split
  · exact pure _
  · exact coversConditions _ _
  · exact pure _

end Storage.Reading

theorem signalPayload_related (signal : Signal) :
    Storage.Related Eq (signalPayload signal) (signalPayload signal) := by
  cases signal with
  | error symbol data => exact fun _ ↦ ⟨_, rfl, rfl⟩
  | thrown | fatal => exact .pure rfl

/-! ### Handlers that catch a signal -/

/-- What is found in two stacks lies at the same place in both. -/
inductive HandlerStack.FoundAlike (ours theirs : HandlerStack) :
    Option (Handler × HandlerStack) → Option (Handler × HandlerStack) → Prop where
  | nowhere : FoundAlike ours theirs none none
  | found (place : Nat) {handler handler' : Handler} {outer outer' : HandlerStack}
      (hours : ours.drop place = handler :: outer)
      (htheirs : theirs.drop place = handler' :: outer') :
      FoundAlike ours theirs (some (handler, outer)) (some (handler', outer'))

theorem Handler.Alike.catchesSignal {left right : Handler} (halike : left.Alike right)
    (signal : Signal) (conditions : List Value) :
    Storage.catchesSignal signal conditions left = Storage.catchesSignal signal conditions right := by
  unfold Storage.catchesSignal
  rw [halike.kind, halike.tag]

/-- A signal finds handlers at the same place of stacks that are alike. -/
theorem innermostMatch_related {ours theirs : HandlerStack}
    (halike : HandlerStack.Alike ours theirs) (signal : Signal) (conditions : List Value) :
    Storage.Related (HandlerStack.FoundAlike ours theirs)
      (innermostMatch signal conditions ours) (innermostMatch signal conditions theirs) := by
  induction halike with
  | nil => exact .pure .nowhere
  | @cons handler handler' outer outer' hhandler _ ih =>
    unfold innermostMatch
    rw [hhandler.catchesSignal]
    refine .bind (Storage.Reading.catchesSignal signal conditions handler').related fun catches _ hsame ↦ ?_
    subst hsame
    cases catches with
    | true => exact .pure (.found 0 rfl rfl)
    | false =>
      refine Storage.Related.conseq ih fun found found' hfound ↦ ?_
      cases hfound with
      | nowhere => exact .nowhere
      | found place hdrop hdrop' => exact .found (place + 1) hdrop hdrop'

theorem coupled_handlerStack {ours theirs : HandlerStack} (depth : Nat)
    {never : Signal → Machine → Machine → Prop} :
    Coupled (Together bond ours theirs depth) handlerStack handlerStack
      (fun stack stack' left right ↦ stack = ours ∧ stack' = theirs ∧
        Together bond ours theirs depth left right)
      never :=
  fun _ _ htogether ↦ .ok ⟨htogether.left_handlers, htogether.right_handlers, htogether⟩

theorem coupled_handlerCount {ours theirs : HandlerStack} {depth : Nat}
    {before : Machine → Machine → Prop} {never : Signal → Machine → Machine → Prop}
    (hbefore : ∀ left right, before left right → Together bond ours theirs depth left right) :
    Coupled before handlerCount handlerCount
      (fun count count' left right ↦ count = ours.length ∧ count' = theirs.length ∧
        before left right)
      never :=
  fun left right hstart ↦ .ok
    ⟨congrArg List.length (hbefore left right hstart).left_handlers,
      congrArg List.length (hbefore left right hstart).right_handlers, hstart⟩

theorem coupled_setHandlers {ours theirs : HandlerStack} (depth : Nat)
    (ours' theirs' : HandlerStack) {never : Signal → Machine → Machine → Prop} :
    Coupled (Together bond ours theirs depth) (setHandlers ours') (setHandlers theirs')
      (fun _ _ left right ↦ Together bond ours' theirs' depth left right) never :=
  fun _ _ htogether ↦ .ok (htogether.with_handlers rfl rfl)

theorem coupled_pushHandler {ours theirs : HandlerStack} (depth : Nat) (handler handler' : Handler)
    {never : Signal → Machine → Machine → Prop} :
    Coupled (Together bond ours theirs depth) (pushHandler handler) (pushHandler handler')
      (fun _ _ left right ↦
        Together bond (handler :: ours) (handler' :: theirs) depth left right)
      never :=
  fun _ _ htogether ↦ .ok (htogether.with_handlers (congrArg _ htogether.left_handlers)
    (congrArg _ htogether.right_handlers))

/-! ### Own handlers -/

/-- Two machines run together, and above the handlers `low` and `low'` they have handlers that
correspond. -/
def Owned (bond : Bond) (own : Handler → Handler → Prop) (low low' : HandlerStack) (depth : Nat)
    (left right : Machine) : Prop :=
  ∃ ours theirs, List.Forall₂ own ours theirs ∧
    Together bond (ours ++ low) (theirs ++ low') depth left right

/-- Two dispositions are the same up to handlers that correspond. -/
inductive Disposition.Related (own : Handler → Handler → Prop) : Disposition → Disposition → Prop
  | resume {handler handler' : Handler} (hown : own handler handler') (payload : Value) :
      Related own (.resume handler payload) (.resume handler' payload)
  | propagate (signal : Signal) : Related own (.propagate signal) (.propagate signal)

/-- What is found above the handlers `low` and `low'` corresponds. -/
inductive HandlerStack.FoundOwn (own : Handler → Handler → Prop) (low low' : HandlerStack) :
    Option (Handler × HandlerStack) → Option (Handler × HandlerStack) → Prop where
  | nowhere : FoundOwn own low low' none none
  | found {handler handler' : Handler} {ours theirs : HandlerStack} (hown : own handler handler')
      (houter : List.Forall₂ own ours theirs) :
      FoundOwn own low low' (some (handler, ours ++ low)) (some (handler', theirs ++ low'))

section Own

variable {own : Handler → Handler → Prop} (hown : ∀ {left right}, own left right → left.Alike right)
  {low low' : HandlerStack} (hlow : HandlerStack.Alike low low') (depth : Nat)

include hown hlow in
theorem Owned.alike {ours theirs : HandlerStack} (hours : List.Forall₂ own ours theirs) :
    HandlerStack.Alike (ours ++ low) (theirs ++ low') :=
  List.rel_append (hours.imp fun _ _ ↦ hown) hlow

/-- What is found at the same place of two stacks, above the handlers `low` and `low'`. -/
theorem HandlerStack.FoundOwn.of_drop {ours theirs : HandlerStack}
    (hours : List.Forall₂ own ours theirs) {place : Nat} {handler handler' : Handler}
    {outer outer' : HandlerStack} (hleft : (ours ++ low).drop place = handler :: outer)
    (hright : (theirs ++ low').drop place = handler' :: outer') (habove : low.length ≤ outer.length) :
    HandlerStack.FoundOwn own low low' (some (handler, outer)) (some (handler', outer')) := by
  have hplace : place < ours.length := by
    have hlength := congrArg List.length hleft
    simp only [List.length_drop, List.length_append, List.length_cons] at hlength
    omega
  rw [List.drop_append_of_le_length (Nat.le_of_lt hplace)] at hleft
  rw [List.drop_append_of_le_length (hours.length_eq ▸ Nat.le_of_lt hplace)] at hright
  have hdrop := List.forall₂_drop place hours
  generalize hmine : ours.drop place = mine at hleft hdrop
  generalize hyours : theirs.drop place = yours at hright hdrop
  cases hdrop with
  | nil => exact absurd (List.drop_eq_nil_iff.mp hmine) (Nat.not_le.mpr hplace)
  | cons hhead htail =>
    obtain ⟨rfl, rfl⟩ := List.cons.inj hleft
    obtain ⟨rfl, rfl⟩ := List.cons.inj hright
    exact .found hhead htail

include hown hlow in
theorem coupled_findHandler {ours theirs : HandlerStack} (hours : List.Forall₂ own ours theirs)
    (reason : Signal) {never : Signal → Machine → Machine → Prop} :
    Coupled (Together bond (ours ++ low) (theirs ++ low') depth)
      (findHandler low.length reason) (findHandler low.length reason)
      (fun found found' left right ↦ HandlerStack.FoundOwn own low low' found found' ∧
        Together bond (ours ++ low) (theirs ++ low') depth left right)
      never := by
  have hstacks := Owned.alike hown hlow hours
  refine Coupled.bind
    ((Storage.Reading.signalConditions reason).related.coupled _ _ depth)
    fun conditions conditions' ↦ ?_
  rintro left right ⟨rfl, htogether⟩
  refine Coupled.bind (coupled_handlerStack depth) (fun stack stack' ↦ ?_) left right htogether
  rintro left right ⟨rfl, rfl, htogether⟩
  refine Coupled.bind
    (Storage.Related.coupled (innermostMatch_related hstacks reason conditions) _ _ depth)
    (fun found found' ↦ ?_) left right htogether
  rintro left right ⟨hfound, htogether⟩
  cases hfound with
  | nowhere => exact .ok ⟨.nowhere, htogether⟩
  | @found place _ _ outer outer' hleft hright =>
    have houter : outer.length = outer'.length := by
      have hdrop := (List.forall₂_drop place hstacks).length_eq
      rw [hleft, hright] at hdrop
      simpa using hdrop
    by_cases habove : low.length ≤ outer.length
    · simp only [habove, houter ▸ habove, if_true]
      exact .ok ⟨.of_drop hours hleft hright habove, htogether⟩
    · simp only [habove, houter ▸ habove, if_false]
      exact .ok ⟨.nowhere, htogether⟩

theorem outermost_append (ours low : HandlerStack) : outermost low.length (ours ++ low) = low := by
  unfold outermost
  rw [List.length_append, Nat.add_sub_cancel, List.drop_left]

theorem truncateHandlers_append {machine : Machine} {ours low : HandlerStack}
    (hhandlers : machine.handlers = ours ++ low) :
    truncateHandlers low.length machine = .ok () { machine with handlers := low } := by
  change EStateM.Result.ok () { machine with
    handlers := outermost low.length machine.handlers } = _
  rw [hhandlers, outermost_append]

include hlow in
/-- When the own handlers are dropped, the others are there as before. -/
theorem coupled_truncateHandlers {never : Signal → Machine → Machine → Prop} :
    Coupled (Owned bond own low low' depth) (truncateHandlers low.length)
      (truncateHandlers low.length)
      (fun _ _ left right ↦ Together bond low low' depth left right) never := by
  rintro left right ⟨ours, theirs, -, htogether⟩
  have hleft : outermost low.length left.handlers = low := by
    rw [htogether.left_handlers, outermost_append]
  have hright : outermost low.length right.handlers = low' := by
    rw [htogether.right_handlers, hlow.length_eq, outermost_append]
  exact .ok (htogether.with_handlers hleft hright)

variable {caller companion : Caller} (hcompanions : Companions bond caller companion)

include hown hlow hcompanions

/-- A signal goes to handlers that correspond, or propagates on both machines. -/
theorem coupled_dispatchWithin (rounds : Nat) (reason : Signal)
    {never : Signal → Machine → Machine → Prop} :
    Coupled (Owned bond own low low' depth)
      (dispatchWithin caller low.length rounds reason)
      (dispatchWithin companion low.length rounds reason)
      (fun disposition disposition' left right ↦
        Disposition.Related own disposition disposition' ∧
          Owned bond own low low' depth left right)
      never := by
  induction rounds generalizing reason with
  | zero => exact Coupled.exhausted
  | succ rounds ih =>
    rintro left right ⟨ours, theirs, hours, htogether⟩
    refine Coupled.bind (coupled_findHandler hown hlow depth hours reason)
      (fun found found' ↦ ?_) left right htogether
    rintro left right ⟨hfound, htogether⟩
    cases hfound with
    | nowhere => exact .ok ⟨.propagate reason, ours, theirs, hours, htogether⟩
    | @found handler handler' outer outer' hhandler houter =>
      dsimp only
      rw [← (hown hhandler).tag]
      refine Coupled.bind (Coupled.observe fun _ _ htogether ↦
        hcompanions.course (.catching reason handler.tag) rfl htogether) (fun _ _ ↦ ?_) left right
        htogether
      refine Coupled.bind (coupled_setHandlers depth _ _) fun _ _ left right htogether ↦ ?_
      rw [← (hown hhandler).mark]
      refine Coupled.attempt_bind (agree_unbindTo hcompanions handler.mark _ _ depth
        left.bindings.length (Owned.alike hown hlow houter))
        (fun reason _ _ hdone ↦ hcompanions.course (.stopping reason) rfl hdone.1) (fun _ _ ↦ ?_)
        (fun next ↦ ?_) left right ⟨htogether, rfl⟩
      · rintro left right ⟨-, htogether, -⟩
        refine Coupled.bind ((signalPayload_related reason).coupled _ _ depth)
          (fun payload payload' ↦ ?_) left right htogether
        rintro left right ⟨rfl, htogether⟩
        cases payload with
        | some payload =>
          exact .ok ⟨.resume hhandler payload, outer, outer', houter, htogether⟩
        | none => exact .ok ⟨.propagate reason, outer, outer', houter, htogether⟩
      · rintro left right ⟨htogether, -⟩
        exact ih next left right ⟨outer, outer', houter, htogether⟩

theorem coupled_dispatch (reason : Signal) {never : Signal → Machine → Machine → Prop} :
    Coupled (Owned bond own low low' depth)
      (dispatch caller low.length reason) (dispatch companion low.length reason)
      (fun disposition disposition' left right ↦
        Disposition.Related own disposition disposition' ∧
          Owned bond own low low' depth left right)
      never := by
  rintro left right ⟨ours, theirs, hours, htogether⟩
  refine Coupled.bind (coupled_handlerCount fun _ _ hstart ↦ hstart) (fun _ _ ↦ ?_) left right htogether
  rintro left right ⟨rfl, rfl, htogether⟩
  rw [← hcompanions.rounds, ← (Owned.alike hown hlow hours).length_eq]
  exact coupled_dispatchWithin hown hlow depth hcompanions _ reason left right
    ⟨ours, theirs, hours, htogether⟩

end Own

/-! ### Without own handlers -/

theorem innermostMatch_reading (signal : Signal) (conditions : List Value)
    (handlers : HandlerStack) :
    Storage.Reading (innermostMatch signal conditions handlers) := by
  induction handlers with
  | nil => exact .pure none
  | cons handler outer ih =>
    refine .bind (.catchesSignal signal conditions handler) fun catches ↦ ?_
    split_ifs
    · exact .pure _
    · exact ih

theorem length_lt_of_innermostMatch {signal : Signal} {conditions : List Value}
    {handlers outer : HandlerStack} {handler : Handler} {store : Store}
    (hfound : innermostMatch signal conditions handlers store = .ok (some (handler, outer)) store) :
    outer.length < handlers.length := by
  induction handlers with
  | nil => cases hfound
  | cons first rest ih =>
    rw [innermostMatch] at hfound
    change EStateM.bind _ _ store = _ at hfound
    unfold EStateM.bind at hfound
    obtain ⟨catches, hcatches⟩ | hcatches :=
      Storage.Reading.catchesSignal signal conditions first store
    · rw [hcatches] at hfound
      cases catches with
      | true =>
        cases hfound
        exact Nat.lt_succ_self _
      | false => exact Nat.lt_succ_of_lt (ih hfound)
    · rw [hcatches] at hfound
      cases hfound

theorem liftM_of_reading {action : Storage α} (hreading : Storage.Reading action)
    (machine : Machine) :
    (∃ result, action machine.toStore = .ok result machine.toStore ∧
      (liftM action : Engine α) machine = .ok result machine) ∨
      (liftM action : Engine α) machine = .error (.exhausted .rounds) machine := by
  rw [liftM_apply]
  obtain ⟨result, hrun⟩ | hrun := hreading machine.toStore
  · rw [hrun]
    exact .inl ⟨result, rfl, rfl⟩
  · rw [hrun]
    exact .inr rfl

/-- No handler is found above as many as there are. -/
theorem findHandler_of_length_le {base : Nat} {machine : Machine}
    (hlength : machine.handlers.length ≤ base) (reason : Signal) :
    findHandler base reason machine = .ok none machine ∨
      findHandler base reason machine = .error (.exhausted .rounds) machine := by
  unfold findHandler
  change EStateM.bind _ _ machine = _ ∨ EStateM.bind _ _ machine = _
  unfold EStateM.bind
  obtain ⟨conditions, -, hconditions⟩ | hconditions :=
    liftM_of_reading (Storage.Reading.signalConditions reason) machine
  · rw [hconditions]
    change EStateM.bind (liftM (innermostMatch reason conditions machine.handlers)) _ machine = _ ∨
      EStateM.bind (liftM (innermostMatch reason conditions machine.handlers)) _ machine = _
    unfold EStateM.bind
    obtain ⟨found, hfound, hrun⟩ | hrun :=
      liftM_of_reading (innermostMatch_reading reason conditions machine.handlers) machine
    · rw [hrun]
      cases found with
      | none => exact .inl rfl
      | some found =>
        have hshorter := length_lt_of_innermostMatch hfound
        have houter : ¬ base ≤ found.2.length := by omega
        refine .inl ?_
        simp only [houter, if_false]
        rfl
    · rw [hrun]
      exact .inr rfl
  · rw [hconditions]
    exact .inr rfl

/-- A signal propagates from a part of a run that owns no handlers. -/
theorem dispatch_of_length_le (caller : Caller) {base : Nat} {machine : Machine}
    (hlength : machine.handlers.length ≤ base) (reason : Signal) :
    dispatch caller base reason machine = .ok (.propagate reason) machine ∨
      dispatch caller base reason machine = .error (.exhausted .rounds) machine := by
  unfold dispatch
  change dispatchWithin caller base (machine.handlers.length + 1 + caller.rounds) reason machine = _
    ∨ dispatchWithin caller base (machine.handlers.length + 1 + caller.rounds) reason machine = _
  rw [show machine.handlers.length + 1 + caller.rounds =
    machine.handlers.length + caller.rounds + 1 from by omega, dispatchWithin]
  change EStateM.bind _ _ machine = _ ∨ EStateM.bind _ _ machine = _
  unfold EStateM.bind
  obtain hrun | hrun := findHandler_of_length_le hlength reason
  · rw [hrun]
    exact .inl rfl
  · rw [hrun]
    exact .inr rfl

/-! ### Composed actions -/

section Companions

variable {caller companion : Caller} (hcompanions : Companions bond caller companion)

include hcompanions

/-- A body under a handler that returns to the primitive that set it up. -/
theorem agree_withHandler (kind : HandlerKind) (tag : Value) {first second : Engine Value}
    (hagree : AgreeAs bond .balanced first second) :
    AgreeAs bond .free (withHandler caller kind tag first)
      (withHandler companion kind tag second) := by
  rintro low low' depth length hlow left right ⟨htogether, hlength⟩
  refine Coupled.bind (coupled_handlerCount fun _ _ hstart ↦ hstart) (fun _ _ ↦ ?_) left right htogether
  rintro left right ⟨rfl, rfl, htogether⟩
  refine Coupled.bind (coupled_bindingMark depth left.bindings.length) (fun mark _ ↦ ?_) left right
    ⟨htogether, rfl⟩
  rintro left right ⟨rfl, -, htogether, -⟩
  generalize hhandler : (⟨tag, kind, 0, mark, .host⟩ : Handler) = handler
  refine Coupled.bind (coupled_pushHandler depth _ _) (fun _ _ ↦ ?_) left right htogether
  intro left right htogether
  have hpushed : List.Forall₂ Handler.Alike [handler] [handler] :=
    .cons (Handler.Alike.refl handler) .nil
  rw [← hlow.length_eq]
  refine Coupled.attempt_bind (hagree _ _ depth left.bindings.length
    (Owned.alike (fun halike ↦ halike) hlow hpushed))
    (fun reason _ _ hdone ↦ hcompanions.course (.stopping reason) rfl hdone.1)
    (fun value value' ↦ ?_) (fun reason ↦ ?_) left right ⟨htogether, rfl⟩
  · rintro left right ⟨rfl, htogether, -⟩
    dsimp only
    refine Coupled.bind (coupled_truncateHandlers hlow depth) (fun _ _ ↦ ?_) left right
      ⟨[handler], [handler], hpushed, htogether⟩
    intro left right htogether
    exact .ok ⟨rfl, htogether, trivial⟩
  · rintro left right ⟨htogether, -⟩
    dsimp only
    refine Coupled.bind (coupled_dispatch (fun halike ↦ halike) hlow depth hcompanions reason)
      (fun _ _ ↦ ?_) left right ⟨[handler], [handler], hpushed, htogether⟩
    rintro left right ⟨hdisposition, howned⟩
    refine Coupled.bind (coupled_truncateHandlers hlow depth) (fun _ _ ↦ ?_) left right howned
    intro left right htogether
    cases hdisposition with
    | resume _ payload => exact .ok ⟨rfl, htogether, trivial⟩
    | propagate reason => exact .signal ⟨htogether, trivial⟩

/-- An action that is put together from parts keeps machines together. -/
theorem Composed.agree {use : LogUse} {action : Caller → Engine α} (hcomposed : Composed use action) :
    AgreeAs bond use (action caller) (action companion) := by
  induction hcomposed with
  | pure result => exact .pure result
  | stored action => exact .stored action
  | exhausted => exact Agree.exhausted
  | fault reason => exact Agree.fault reason (LogUse.stopped_refl _)
  | bind _ _ hfirst hnext => exact .bind hfirst hnext
  | growing _ ih => exact ih.conseq (fun _ _ hlog ↦ Nat.le_of_eq (Eq.symm hlog)) fun _ _ _ ↦ trivial
  | freely _ ih => exact ih.conseq (fun _ _ _ ↦ trivial) fun _ _ _ ↦ trivial
  | rounds _ ih =>
    beta_reduce
    rw [← hcompanions.rounds]
    exact ih caller.rounds
  | apply function arguments => exact hcompanions.apply function arguments
  | checkpoint backward => exact .checkpoint backward
  | throwing tag value => exact .throwTo tag value
  | logging entry => exact .logBinding entry
  | unbinding count => exact agree_unbind hcompanions count
  | bracketed _ ih => exact agree_bracketed hcompanions ih
  | caught kind tag _ ih => exact agree_withHandler hcompanions kind tag ih

end Companions

end LispMachine
