import LispMachine.Application

/-!
Runs of two actions side by side. `Coupled` says that whenever the first action ends, with a result
or with a signal, the second ends in the same way, and how the results and the states then belong
together. Nothing is said when the first run is too long. The rules of this module couple actions
that are put together in the same way from coupled parts.
-/

set_option autoImplicit false

namespace LispMachine

open LispMachine.Action

variable {α β γ δ : Type}

/-- What an engine says of a storage action: the store is changed, and nothing else. -/
theorem liftM_apply (action : Storage α) (machine : Machine) :
    (liftM action : Engine α) machine =
      match action machine.toStore with
      | .ok result store => .ok result { machine with toStore := store }
      | .error stop store => .error stop.ofStore { machine with toStore := store } := by
  change Engine.ofStorage action machine = _
  unfold Engine.ofStorage
  cases hrun : action machine.toStore <;> simp only [hrun]

theorem liftM_of_ok {action : Storage α} {machine : Machine} {result : α} {store : Store}
    (haction : action machine.toStore = .ok result store) :
    (liftM action : Engine α) machine = .ok result { machine with toStore := store } := by
  rw [liftM_apply, haction]

theorem liftM_of_signal {action : Storage α} {machine : Machine} {reason : StoreError}
    {store : Store} (haction : action machine.toStore = .error (.signal reason) store) :
    (liftM action : Engine α) machine =
      .error (.signal (.error reason.symbol reason.data)) { machine with toStore := store } := by
  rw [liftM_apply, haction]
  rfl

/-- What comes of an attempt: a signal that the caller does not permit ends the run. -/
theorem Caller.attempt_apply (caller : Caller) (action : Engine α) (machine : Machine) :
    caller.attempt action machine =
      match action machine with
      | .ok result after => .ok (.ok result) after
      | .error (.signal reason) after =>
        if caller.permits (.stopping reason) after then .ok (.error reason) after
        else .error (.exhausted .rounds) after
      | .error (.exhausted resource) after => .error (.exhausted resource) after := by
  unfold Caller.attempt
  change EStateM.bind (Action.attempt action) _ machine = _
  unfold EStateM.bind Action.attempt
  match action machine with
  | .ok _ _ => rfl
  | .error (.exhausted _) _ => rfl
  | .error (.signal reason) after =>
    change EStateM.bind (caller.observe (.stopping reason)) _ after = _
    unfold EStateM.bind Caller.observe
    by_cases hpermits : caller.permits (.stopping reason) after = true
    · simp only [hpermits, if_true]
      rfl
    · simp only [hpermits]
      rfl

section Attempts

variable {caller : Caller} {action : Engine α} {machine after : Machine}

theorem Caller.attempt_of_ok {result : α} (haction : action machine = .ok result after) :
    caller.attempt action machine = .ok (.ok result) after := by
  rw [attempt_apply, haction]

theorem Caller.attempt_of_exhausted {resource : Resource}
    (haction : action machine = .error (.exhausted resource) after) :
    caller.attempt action machine = .error (.exhausted resource) after := by
  rw [attempt_apply, haction]

end Attempts

/-- Two runs end in the same way, with results and states that belong together, unless the first
is too long. -/
inductive SameEnd (ended : α → β → Machine → Machine → Prop)
    (stopped : Signal → Machine → Machine → Prop) :
    EStateM.Result (Stop Signal) Machine α → EStateM.Result (Stop Signal) Machine β → Prop where
  | ok {a : α} {b : β} {left right : Machine} (hended : ended a b left right) :
      SameEnd ended stopped (.ok a left) (.ok b right)
  | signal {reason : Signal} {left right : Machine} (hstopped : stopped reason left right) :
      SameEnd ended stopped (.error (.signal reason) left) (.error (.signal reason) right)
  | exhausted {resource : Resource} {left : Machine}
      {second : EStateM.Result (Stop Signal) Machine β} :
      SameEnd ended stopped (.error (.exhausted resource) left) second

/-- From states that belong together, two actions end in the same way. -/
def Coupled (before : Machine → Machine → Prop) (first : Engine α) (second : Engine β)
    (ended : α → β → Machine → Machine → Prop) (stopped : Signal → Machine → Machine → Prop) :
    Prop :=
  ∀ left right, before left right → SameEnd ended stopped (first left) (second right)

namespace Coupled

variable {before before' : Machine → Machine → Prop} {first : Engine α} {second : Engine β}
  {ended : α → β → Machine → Machine → Prop} {stopped : Signal → Machine → Machine → Prop}

theorem conseq {ended' : α → β → Machine → Machine → Prop}
    {stopped' : Signal → Machine → Machine → Prop}
    (hcoupled : Coupled before first second ended stopped)
    (hbefore : ∀ left right, before' left right → before left right)
    (hended : ∀ a b left right, ended a b left right → ended' a b left right)
    (hstopped : ∀ reason left right, stopped reason left right → stopped' reason left right) :
    Coupled before' first second ended' stopped' := by
  intro left right hstart
  have hend := hcoupled left right (hbefore left right hstart)
  generalize first left = run, second right = run' at hend ⊢
  cases hend with
  | ok hdone => exact .ok (hended _ _ _ _ hdone)
  | signal hdone => exact .signal (hstopped _ _ _ hdone)
  | exhausted => exact .exhausted

theorem pure {a : α} {b : β} (hended : ∀ left right, before left right → ended a b left right) :
    Coupled before (Pure.pure a) (Pure.pure b) ended stopped :=
  fun left right hstart ↦ .ok (hended left right hstart)

theorem exhausted {second : Engine β} :
    Coupled before (Action.exhausted : Engine α) second ended stopped :=
  fun _ _ _ ↦ .exhausted

theorem bind {middle : α → β → Machine → Machine → Prop} {next : α → Engine γ}
    {next' : β → Engine δ} {finished : γ → δ → Machine → Machine → Prop}
    (hfirst : Coupled before first second middle stopped)
    (hnext : ∀ a b, Coupled (middle a b) (next a) (next' b) finished stopped) :
    Coupled before (first >>= next) (second >>= next') finished stopped := by
  intro left right hstart
  change SameEnd finished stopped (EStateM.bind first next left) (EStateM.bind second next' right)
  unfold EStateM.bind
  have hend := hfirst left right hstart
  generalize first left = run, second right = run' at hend ⊢
  cases hend with
  | ok hmiddle => exact hnext _ _ _ _ hmiddle
  | signal hdone => exact .signal hdone
  | exhausted => exact .exhausted

/-- Attempt two coupled actions and go on with what comes of them, both results or both signals. -/
theorem attempt_bind {caller companion : Caller} {next : Except Signal α → Engine γ}
    {next' : Except Signal β → Engine δ} {finished : γ → δ → Machine → Machine → Prop}
    {halted : Signal → Machine → Machine → Prop}
    (hcoupled : Coupled before first second ended stopped)
    (hpermits : ∀ reason left right, stopped reason left right →
      caller.permits (.stopping reason) left = true →
        companion.permits (.stopping reason) right = true)
    (hended : ∀ a b, Coupled (ended a b) (next (.ok a)) (next' (.ok b)) finished halted)
    (hstopped : ∀ reason,
      Coupled (stopped reason) (next (.error reason)) (next' (.error reason)) finished halted) :
    Coupled before (caller.attempt first >>= next) (companion.attempt second >>= next') finished
      halted := by
  intro left right hstart
  change SameEnd finished halted (EStateM.bind (caller.attempt first) next left)
    (EStateM.bind (companion.attempt second) next' right)
  unfold EStateM.bind
  rw [Caller.attempt_apply, Caller.attempt_apply]
  have hend := hcoupled left right hstart
  generalize first left = run, second right = run' at hend ⊢
  cases hend with
  | ok hdone => exact hended _ _ _ _ hdone
  | exhausted => exact .exhausted
  | @signal reason left' right' hdone =>
    dsimp only
    by_cases hpermitted : caller.permits (.stopping reason) left' = true
    · rw [if_pos hpermitted, if_pos (hpermits reason left' right' hdone hpermitted)]
      exact hstopped _ _ _ hdone
    · rw [if_neg hpermitted]
      exact .exhausted

theorem observe {caller companion : Caller} {event : Event}
    (hpermits : ∀ left right, before left right → caller.permits event left = true →
      companion.permits event right = true) :
    Coupled before (caller.observe event) (companion.observe event) (fun _ _ ↦ before) stopped := by
  intro left right hstart
  unfold Caller.observe
  by_cases hpermitted : caller.permits event left = true
  · rw [if_pos hpermitted, if_pos (hpermits left right hstart hpermitted)]
    exact .ok hstart
  · rw [if_neg hpermitted]
    exact .exhausted

theorem keepFirst {caller companion : Caller} (earlier : Option Signal) (reason : Signal)
    (hpermits : ∀ kept left right, before left right →
      caller.permits (.dropping reason kept) left = true →
        companion.permits (.dropping reason kept) right = true) :
    Coupled before (caller.keepFirst earlier reason) (companion.keepFirst earlier reason)
      (fun kept kept' left right ↦ kept = kept' ∧ before left right) stopped := by
  cases earlier with
  | none => exact pure fun _ _ hstart ↦ ⟨rfl, hstart⟩
  | some earlier => exact bind (observe (hpermits earlier)) fun _ _ ↦ pure fun _ _ hstart ↦ ⟨rfl, hstart⟩

end Coupled

end LispMachine
