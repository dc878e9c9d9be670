import LispMachine.Proofs.Run.Together

/-!
Agreement of the parts of a run.
-/

set_option autoImplicit false

namespace LispMachine

open LispMachine.Action Storage Engine

variable {α β : Type} {bond : Bond} {use : LogUse}

/-! ### Checkpoints, throws and entries of the log -/

theorem noticeQuit_apply (machine : Machine) :
    noticeQuit machine =
      if machine.receiveQuit.quitPending && !machine.inhibitsQuit then
        .error (.signal (.error Symbols.quit .nil)) { machine.receiveQuit with quitPending := false }
      else .ok () machine.receiveQuit := by
  change (if machine.receiveQuit.quitPending && !machine.inhibitsQuit then _ else _ : Engine Unit)
    machine.receiveQuit = _
  split_ifs <;> rfl

theorem throwTo_apply (tag value : Value) (machine : Machine) :
    (throwTo tag value : Engine α) machine =
      if machine.handlers.hasCatch tag then .error (.signal (.thrown tag value)) machine
      else (liftM (error Symbols.noCatch [tag, value] : Storage α) : Engine α) machine := by
  change (if _ then _ else _ : Engine α) machine = _
  split_ifs <;> rfl

/-- A pending quit is noticed on both machines. Where none is noticed, nothing changes but that the
request that has arrived waits. -/
theorem coupled_noticeQuit {ours theirs : HandlerStack} {depth : Nat}
    {before : Machine → Machine → Prop} {stopped : Signal → Machine → Machine → Prop}
    (hbefore : ∀ left right, before left right → Together bond ours theirs depth left right)
    (hreceived : ∀ left right, before left right → before left.receiveQuit right.receiveQuit)
    (hstopped : ∀ reason left right, before left right →
      stopped reason { left with quitPending := false } { right with quitPending := false }) :
    Coupled before noticeQuit noticeQuit (fun _ _ left right ↦ before left right) stopped := by
  intro left right hstart
  have htogether := hbefore _ _ (hreceived left right hstart)
  have hinhibits : left.inhibitsQuit = right.inhibitsQuit :=
    congrArg Store.inhibitsQuit htogether.store
  rw [noticeQuit_apply, noticeQuit_apply, htogether.quitPending, hinhibits]
  split_ifs with hquit
  · exact .signal (hstopped _ _ _ (hreceived left right hstart))
  · exact .ok (hreceived left right hstart)

namespace AgreeAs

theorem noticeQuit : AgreeAs bond use Engine.noticeQuit Engine.noticeQuit := by
  intro ours theirs depth length halike
  refine (coupled_noticeQuit (fun _ _ hstart ↦ hstart.1)
    (fun _ _ hstart ↦ ⟨hstart.1.received, hstart.2⟩) fun _ _ _ hstart ↦
      ⟨hstart.1.with_quitPending false, ?_⟩).conseq (fun _ _ hstart ↦ hstart)
    (fun _ _ _ _ hdone ↦ ⟨rfl, hdone.1, hdone.2 ▸ use.ended_refl _⟩) fun _ _ _ hdone ↦ hdone
  exact hstart.2 ▸ use.stopped_refl _

theorem checkpoint (backward : Bool) :
    AgreeAs bond use (Engine.checkpoint backward) (Engine.checkpoint backward) :=
  ite (bind (stored _) fun _ ↦ noticeQuit) noticeQuit

end AgreeAs

/-- Whether some catch waits for a tag does not depend on where execution goes on. -/
theorem HandlerStack.Alike.hasCatch {ours theirs : HandlerStack}
    (halike : HandlerStack.Alike ours theirs) (tag : Value) :
    ours.hasCatch tag = theirs.hasCatch tag := by
  unfold HandlerStack.hasCatch
  induction halike with
  | nil => rfl
  | cons hhandler _ ih => rw [List.any_cons, List.any_cons, ih, hhandler.kind, hhandler.tag]

namespace AgreeAs

theorem throwTo (tag value : Value) :
    AgreeAs bond use (Engine.throwTo tag value : Engine α) (Engine.throwTo tag value) := by
  rintro ours theirs depth length halike left right ⟨htogether, hlength⟩
  rw [throwTo_apply, throwTo_apply, htogether.left_handlers, htogether.right_handlers,
    halike.hasCatch tag]
  split_ifs with hcatch
  · exact .signal ⟨htogether, hlength ▸ use.stopped_refl _⟩
  · exact stored (error Symbols.noCatch [tag, value] : Storage α) ours theirs depth length halike
      left right ⟨htogether, hlength⟩

theorem logBinding (entry : BindingEntry) :
    AgreeAs bond .growing (Engine.logBinding entry) (Engine.logBinding entry) := by
  rintro ours theirs depth length halike left right ⟨htogether, rfl⟩
  exact .ok ⟨rfl, htogether.with_bindings (congrArg _ htogether.bindings), Nat.le_succ _⟩

end AgreeAs

/-! ### Unwinding -/

theorem takeBinding_apply (mark : Nat) (machine : Machine) :
    takeBinding mark machine =
      match machine.bindings with
      | entry :: rest =>
        if mark ≤ rest.length then .ok (some entry) { machine with bindings := rest }
        else .ok none machine
      | [] => .ok none machine := by
  unfold takeBinding
  change EStateM.Result.ok (Prod.fst _) (Prod.snd _) = _
  cases machine.bindings with
  | nil => rfl
  | cons entry rest =>
    dsimp only
    split_ifs <;> rfl

theorem coupled_bindingMark {ours theirs : HandlerStack} (depth length : Nat)
    {never : Signal → Machine → Machine → Prop} :
    Coupled
      (fun left right ↦ Together bond ours theirs depth left right ∧
        left.bindings.length = length)
      bindingMark bindingMark
      (fun mark mark' left right ↦ mark = mark' ∧ length = mark ∧
        Together bond ours theirs depth left right ∧ left.bindings.length = length)
      never := by
  rintro left right ⟨htogether, hlength⟩
  have hright : right.bindings.length = length := htogether.bindings ▸ hlength
  exact .ok ⟨hlength.trans hright.symm, hlength.symm, htogether, hlength⟩

theorem coupled_takeBinding {ours theirs : HandlerStack} (depth : Nat) (mark : Nat)
    (length : Nat) {never : Signal → Machine → Machine → Prop} :
    Coupled
      (fun left right ↦ Together bond ours theirs depth left right ∧
        left.bindings.length = length)
      (takeBinding mark) (takeBinding mark)
      (fun a b left right ↦ a = b ∧ Together bond ours theirs depth left right ∧
        match a with
        | none => left.bindings.length = length ∧ length ≤ mark
        | some _ => left.bindings.length + 1 = length ∧ mark ≤ left.bindings.length)
      never := by
  rintro left right ⟨htogether, rfl⟩
  rw [takeBinding_apply, takeBinding_apply, ← htogether.bindings]
  cases hlog : left.bindings with
  | nil => exact .ok ⟨rfl, htogether, by simp [hlog]⟩
  | cons entry rest =>
    by_cases hmark : mark ≤ rest.length
    · simp only [hmark, if_true]
      exact .ok ⟨rfl, htogether.with_bindings rfl, rfl, hmark⟩
    · simp only [hmark, if_false]
      exact .ok ⟨rfl, htogether, by simp [hlog]; omega⟩

theorem AgreeAs.observe {caller companion : Caller} {event : Event}
    (hpermits : ∀ {ours theirs depth left right}, Together bond ours theirs depth left right →
      caller.permits event left = true → companion.permits event right = true) :
    AgreeAs bond use (caller.observe event) (companion.observe event) := by
  intro ours theirs depth length halike
  refine (Coupled.observe fun _ _ hstart ↦ hpermits (And.left hstart)).conseq
    (fun _ _ hstart ↦ hstart) (fun _ _ _ _ hdone ↦ ?_) fun _ _ _ hdone ↦ hdone
  exact ⟨rfl, hdone.1, hdone.2 ▸ use.ended_refl _⟩

section Unwinding

variable {caller companion : Caller} (hcompanions : Companions bond caller companion)

include hcompanions

theorem agree_eval (form : Value) :
    AgreeAs bond .balanced (caller.eval form) (companion.eval form) :=
  hcompanions.apply Symbols.eval [form]

theorem agree_runUnwindForm (handler : Value) :
    AgreeAs bond .balanced (runUnwindForm caller handler) (runUnwindForm companion handler) := by
  refine .bind (.stored _) fun store ↦ .ite ?_ ?_
  · exact .bind (hcompanions.apply handler []) fun _ ↦ .pure ()
  · exact .bind (.stored _) fun body ↦ .bind (agree_eval hcompanions body) fun _ ↦ .pure ()

theorem agree_undo (entry : BindingEntry) :
    AgreeAs bond .balanced (undo caller entry) (undo companion entry) := by
  cases entry with
  | unwindProtect handler => exact agree_runUnwindForm hcompanions handler
  | restriction buffer bounds => cases bounds <;> exact .stored _
  | _ => exact .stored _

/-- Undoing entries gives the same first signal. The log ends at the mark, or below it where it was
shorter from the start or where a signal met on the way took more off it. -/
theorem coupled_unwindFrom {ours theirs : HandlerStack} (halike : HandlerStack.Alike ours theirs)
    (depth : Nat) (mark : Nat) (rounds : Nat) (length : Nat) (first : Option Signal)
    {never : Signal → Machine → Machine → Prop} :
    Coupled
      (fun left right ↦ Together bond ours theirs depth left right ∧
        left.bindings.length = length)
      (unwindFrom caller mark rounds first) (unwindFrom companion mark rounds first)
      (fun a b left right ↦ a = b ∧ Together bond ours theirs depth left right ∧
        left.bindings.length ≤ min length mark ∧
        (a = none → first = none ∧ left.bindings.length = min length mark))
      never := by
  induction rounds generalizing length first with
  | zero => exact Coupled.exhausted
  | succ rounds ih =>
    refine Coupled.bind (coupled_takeBinding depth mark length) fun entry entry' ↦ ?_
    rintro left right ⟨rfl, htogether, htaken⟩
    cases entry with
    | none =>
      refine .ok ⟨rfl, htogether, ?_, fun hfirst ↦ ⟨hfirst, ?_⟩⟩ <;>
      · simp only at htaken
        omega
    | some entry =>
      simp only at htaken
      refine Coupled.attempt_bind
        (agree_undo hcompanions entry ours theirs depth left.bindings.length halike)
        (fun reason _ _ hdone ↦ hcompanions.course (.stopping reason) rfl hdone.1)
        (fun _ _ ↦ ?_) (fun reason ↦ ?_) left right ⟨htogether, rfl⟩
      · refine (ih left.bindings.length first).conseq (fun _ _ hdone ↦ hdone.2) ?_
          fun _ _ _ hnever ↦ hnever
        rintro a b _ _ ⟨rfl, hdone, hlog, hnone⟩
        exact ⟨rfl, hdone, by omega, fun ha ↦ ⟨(hnone ha).1, by have := (hnone ha).2; omega⟩⟩
      · refine Coupled.bind (Coupled.keepFirst first reason fun kept _ _ hdone ↦
          hcompanions.course (.dropping reason kept) rfl (And.left hdone)) fun kept kept' ↦ ?_
        rintro left' right' ⟨rfl, hsignalled, hless⟩
        refine (ih left'.bindings.length (some kept)).conseq
          (fun _ _ hstart ↦ hstart) ?_ (fun _ _ _ hnever ↦ hnever) left' right' ⟨hsignalled, rfl⟩
        rintro a b _ _ ⟨rfl, hdone, hlog, hnone⟩
        exact ⟨rfl, hdone, by simp only [LogUse.Stopped] at hless; omega,
          fun ha ↦ absurd (hnone ha).1 (Option.some_ne_none kept)⟩

theorem agree_unbindTo (mark : Nat) :
    Agree bond (fun before after ↦ after = min before mark)
      (fun before after ↦ after ≤ min before mark) (unbindTo caller mark)
      (unbindTo companion mark) := by
  intro ours theirs depth length halike
  refine Coupled.bind (coupled_bindingMark depth length) fun _ _ ↦ ?_
  rintro left right ⟨rfl, rfl, htogether, hlength⟩
  rw [← hcompanions.rounds]
  refine Coupled.bind (coupled_unwindFrom hcompanions halike depth mark _ length none)
    (fun first first' ↦ ?_) left right ⟨htogether, hlength⟩
  rintro left' right' ⟨rfl, hdone, hless, hnone⟩
  cases first with
  | none => exact .ok ⟨rfl, hdone, (hnone rfl).2⟩
  | some reason => exact .signal ⟨hdone, hless⟩

theorem agree_unbindTo_freely (mark : Nat) :
    AgreeAs bond .free (unbindTo caller mark) (unbindTo companion mark) :=
  (agree_unbindTo hcompanions mark).conseq (fun _ _ _ ↦ trivial) fun _ _ _ ↦ trivial

theorem agree_unbind (count : Nat) :
    AgreeAs bond .free (unbind caller count) (unbind companion count) := by
  intro ours theirs depth length halike
  refine Coupled.bind (Coupled.observe fun _ _ hstart ↦
    hcompanions.course (.unbinding count) rfl (And.left hstart)) fun _ _ ↦ ?_
  refine Coupled.bind (coupled_bindingMark depth length) fun _ _ ↦ ?_
  rintro left right ⟨rfl, rfl, htogether, hlength⟩
  exact agree_unbindTo_freely hcompanions (length - count) ours theirs depth length halike left
    right ⟨htogether, hlength⟩

/-- What is run between taking a mark and unwinding to it leaves the length of the log as it was. -/
theorem agree_bracketed {first second : Engine α} (hagree : AgreeAs bond .growing first second) :
    AgreeAs bond .balanced
      (do let mark ← bindingMark; unwindingTo caller mark first)
      (do let mark ← bindingMark; unwindingTo companion mark second) := by
  intro ours theirs depth length halike
  refine Coupled.bind (coupled_bindingMark depth length) fun _ _ ↦ ?_
  rintro left right ⟨rfl, rfl, htogether, hlength⟩
  refine Coupled.attempt_bind (hagree ours theirs depth length halike)
    (fun reason _ _ hdone ↦ hcompanions.course (.stopping reason) rfl hdone.1) (fun a b ↦ ?_)
    (fun reason ↦ ?_) left right ⟨htogether, hlength⟩
  · rintro left' right' ⟨rfl, hdone, hgrown⟩
    refine Coupled.attempt_bind
      (agree_unbindTo hcompanions length ours theirs depth left'.bindings.length halike)
      (fun reason _ _ hdone ↦ hcompanions.course (.stopping reason) rfl hdone.1)
      (fun _ _ ↦ ?_) (fun reason ↦ ?_) left' right' ⟨hdone, rfl⟩
    · rintro left'' right'' ⟨-, hend, hlog⟩
      exact .ok ⟨rfl, hend, hlog.trans (Nat.min_eq_right hgrown)⟩
    · rintro left'' right'' ⟨hend, hlog⟩
      exact .signal ⟨hend, Nat.le_trans hlog (Nat.min_le_right _ _)⟩
  · rintro left' right' ⟨hdone, -⟩
    refine Coupled.attempt_bind
      (agree_unbindTo hcompanions length ours theirs depth left'.bindings.length halike)
      (fun reason _ _ hdone ↦ hcompanions.course (.stopping reason) rfl hdone.1)
      (fun _ _ ↦ ?_) (fun later ↦ ?_) left' right' ⟨hdone, rfl⟩
    · rintro left'' right'' ⟨-, hend, hlog⟩
      exact .signal ⟨hend, Nat.le_trans (Nat.le_of_eq hlog) (Nat.min_le_right _ _)⟩
    · refine Coupled.bind (Coupled.keepFirst (some reason) later fun kept _ _ hend ↦
        hcompanions.course (.dropping later kept) rfl (And.left hend)) fun kept kept' ↦ ?_
      rintro left'' right'' ⟨rfl, hend, hlog⟩
      exact .signal ⟨hend, Nat.le_trans hlog (Nat.min_le_right _ _)⟩

end Unwinding

end LispMachine
