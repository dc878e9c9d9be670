import LispMachine.Proofs.Run.Lawful

/-!
What an unwinding does, entry by entry. `Unwinds` lists the entries that were undone, newest first,
each with the machine that had just lost it and with the way in which its undoing ended. An
unwinding that comes to an end has such a list, and ends with the first signal in it
(`exists_unwinds`).

An unwind form is applied like anything else, so the machine may refuse it: because it is nested as
deep as it may be, or because a request to quit is noticed first. By then the form is no longer in
the log, and nobody comes back to it (`unbindTo_refuses_form`). The main statement,
`unbindTo_enters_forms`, says that this is the only exception. Where the machine admits
applications, the undoing of a form is one call of it; and it admits all of them if there is room
for one and no quit is pending when the unwinding starts.
-/

set_option autoImplicit false

namespace LispMachine

open LispMachine.Action Storage Engine

/-! ### Undoings -/

/-- The end of an unwinding: without a signal or with one, on the machine as it then is. -/
def unwoundAs (signal : Option Signal) (after : Machine) :
    EStateM.Result (Stop Signal) Machine Unit :=
  match signal with
  | none => .ok () after
  | some reason => .error (.signal reason) after

/-- One entry that was undone. -/
structure Undoing where
  entry : BindingEntry
  /-- The machine that had just lost the entry. -/
  before : Machine
  /-- What the undoing stopped with, if it did. -/
  signal : Option Signal
  after : Machine

/-- Entries are undone, newest first, until the log is back at the mark. -/
inductive Unwinds (caller : Caller) (mark : BindingMark) :
    Machine → List Undoing → Machine → Prop where
  | done {machine : Machine} (hmark : machine.bindings.length ≤ mark) :
      Unwinds caller mark machine [] machine
  | undone {machine after : Machine} {undoing : Undoing} {later : List Undoing} {rest : BindingLog}
      (hlog : machine.bindings = undoing.entry :: rest) (hmark : mark ≤ rest.length)
      (hbefore : undoing.before = { machine with bindings := rest })
      (hundone : undo caller undoing.entry undoing.before = unwoundAs undoing.signal undoing.after)
      (hlater : Unwinds caller mark undoing.after later after) :
      Unwinds caller mark machine (undoing :: later) after

/-- From one state an action ends as it does. -/
theorem Ends.self {α : Type} (action : Engine α) (start : Machine) :
    Ends (· = start) action (fun result after ↦ action start = .ok result after)
      (fun reason after ↦ action start = .error (.signal reason) after) := by
  rintro machine rfl
  match hrun : action machine with
  | .ok _ _ => exact .ok rfl
  | .error (.signal _) _ => exact .signal rfl
  | .error (.exhausted _) _ => exact .exhausted

section Unwound

variable (caller : Caller) (mark : BindingMark)

/-- What the log was unwound by: the entries, and the first signal among `first` and theirs. -/
def Unwound (first : Option Signal) (machine : Machine) (met : Option Signal) (after : Machine) :
    Prop :=
  ∃ undoings, Unwinds caller mark machine undoings after ∧
    met = first.or (undoings.findSome? Undoing.signal)

variable {caller mark}

/-- One more entry is undone before those that come later. -/
theorem Unwound.undone {machine after : Machine} {undoing : Undoing} {rest : BindingLog}
    {first kept met : Option Signal} (hlog : machine.bindings = undoing.entry :: rest)
    (hmark : mark ≤ rest.length) (hbefore : undoing.before = { machine with bindings := rest })
    (hundone : undo caller undoing.entry undoing.before = unwoundAs undoing.signal undoing.after)
    (hkept : kept = first.or undoing.signal)
    (hlater : Unwound caller mark kept undoing.after met after) :
    Unwound caller mark first machine met after := by
  obtain ⟨later, hunwinds, hmet⟩ := hlater
  refine ⟨undoing :: later, .undone hlog hmark hbefore hundone hunwinds, ?_⟩
  rw [hmet, hkept, List.findSome?_cons]
  cases first with
  | some reason => rfl
  | none => cases undoing.signal <;> rfl

/-- The newest entry is taken off the log, or the log is back at the mark. -/
def Taken (mark : BindingMark) (machine : Machine) (entry : Option BindingEntry)
    (after : Machine) : Prop :=
  match entry with
  | none => after = machine ∧ machine.bindings.length ≤ mark
  | some entry => ∃ rest, machine.bindings = entry :: rest ∧ mark ≤ rest.length ∧
      after = { machine with bindings := rest }

theorem ends_takeBinding (start : Machine) {stopped : Signal → Machine → Prop} :
    Ends (· = start) (takeBinding mark) (Taken mark start) stopped := by
  rintro machine rfl
  rw [takeBinding_apply]
  cases hlog : machine.bindings with
  | nil => exact .ok ⟨rfl, by simp [hlog]⟩
  | cons entry rest =>
    by_cases hmark : mark ≤ rest.length
    · simp only [hmark, if_true]
      exact .ok ⟨rest, hlog, hmark, rfl⟩
    · simp only [hmark, if_false]
      exact .ok ⟨rfl, by rw [hlog]; exact Nat.lt_of_not_le hmark⟩

theorem endsAs_unwindFrom (rounds : Nat) (first : Option Signal) (machine : Machine) :
    EndsAs (Unwound caller mark first machine) (fun _ _ ↦ False)
      (unwindFrom caller mark rounds first machine) := by
  induction rounds generalizing first machine with
  | zero => exact .exhausted
  | succ rounds ih =>
    refine Ends.bind (ends_takeBinding machine) (fun entry ↦ ?_) machine rfl
    cases entry with
    | none =>
      rintro _ ⟨rfl, hmark⟩
      exact .ok ⟨[], .done hmark, by simp⟩
    | some entry =>
      rintro _ ⟨rest, hlog, hmark, rfl⟩
      -- what comes later is put behind this entry, whose undoing has ended one way or the other
      have hnext {kept : Option Signal} (undoing : Undoing) (hentry : undoing.entry = entry)
          (hbefore : undoing.before = { machine with bindings := rest })
          (hundone : undo caller entry { machine with bindings := rest } =
            unwoundAs undoing.signal undoing.after)
          (hkept : kept = first.or undoing.signal) :
          EndsAs (Unwound caller mark first machine) (fun _ _ ↦ False)
            (unwindFrom caller mark rounds kept undoing.after) := by
        subst hentry
        rw [← hbefore] at hundone
        exact (ih kept undoing.after).mono
          (fun _ _ hlater ↦ hlater.undone hlog hmark hbefore hundone hkept) fun _ _ hnever ↦ hnever
      refine Ends.attempt_bind (Ends.self (undo caller entry) { machine with bindings := rest })
        (fun _ ↦ ?_) (fun reason ↦ ?_) _ rfl
      · intro after hundone
        exact hnext ⟨entry, _, none, after⟩ rfl rfl hundone (by simp)
      · intro after hundone
        have hkept : Ends (· = after) (caller.keepFirst first reason) _ (fun _ _ ↦ False) :=
          .keepFirst caller first reason
        refine Ends.bind hkept (fun kept ↦ ?_) after rfl
        rintro _ ⟨rfl, rfl⟩
        exact hnext ⟨entry, _, some reason, _⟩ rfl rfl hundone (by cases first <;> rfl)

/-- An unwinding that comes to an end has undone entries down to the mark, and ends with the first
signal met. -/
theorem exists_unwinds {machine : Machine} (hfinishes : Finishes (unbindTo caller mark machine)) :
    ∃ undoings after, Unwinds caller mark machine undoings after ∧
      unbindTo caller mark machine = unwoundAs (undoings.findSome? Undoing.signal) after := by
  have hend : EndsAs (Unwound caller mark none machine) (fun _ _ ↦ False) _ :=
    endsAs_unwindFrom (machine.bindings.length + 1 + caller.rounds) none machine
  change Finishes (EStateM.bind (unwindFrom caller mark _ none) _ machine) at hfinishes
  change ∃ undoings after, _ ∧ EStateM.bind (unwindFrom caller mark _ none) _ machine = _
  unfold EStateM.bind at hfinishes ⊢
  generalize unwindFrom caller mark _ none machine = run at hend hfinishes ⊢
  cases hend with
  | ok hunwound =>
    obtain ⟨undoings, hunwinds, rfl⟩ := hunwound
    refine ⟨undoings, _, hunwinds, ?_⟩
    rw [Option.none_or]
    cases undoings.findSome? Undoing.signal <;> rfl
  | signal hnever => exact hnever.elim
  | exhausted => exact absurd rfl (hfinishes _ _)

/-- What keeps a law has kept it however its undoing ended. -/
theorem Law.Keeps.at_unwoundAs {law : Law} {action : Engine Unit} (hkeeps : law.Keeps action)
    {handlers : HandlerStack} {depth : Nat} {machine after : Machine} {signal : Option Signal}
    (hat : law.At handlers depth machine) (hrun : action machine = unwoundAs signal after) :
    law.At handlers depth after := by
  have hend := hkeeps handlers depth machine hat
  rw [hrun] at hend
  cases signal with
  | none => cases hend with | ok hafter => exact hafter
  | some reason => cases hend with | signal hdone => exact hdone.1

theorem Unwinds.undone_of_mem {machine after : Machine} {undoings : List Undoing}
    (hunwinds : Unwinds caller mark machine undoings after) :
    ∀ undoing ∈ undoings,
      undo caller undoing.entry undoing.before = unwoundAs undoing.signal undoing.after := by
  induction hunwinds with
  | done => simp
  | undone _ _ _ hundone _ ih =>
    intro undoing hmem
    rcases List.mem_cons.mp hmem with rfl | hmem
    · exact hundone
    · exact ih undoing hmem

/-- A law that the caller obeys holds whenever an entry is undone. -/
theorem Unwinds.at_before {law : Law} (hobeyed : law.Obeyed caller) (hwithin : law.within mark)
    {handlers : HandlerStack} {depth : Nat} {machine after : Machine} {undoings : List Undoing}
    (hat : law.At handlers depth machine) (hunwinds : Unwinds caller mark machine undoings after) :
    ∀ undoing ∈ undoings, law.At handlers depth undoing.before := by
  induction hunwinds with
  | done => simp
  | @undone machine after undoing later rest hlog hmark hbefore hundone _ ih =>
    have hat' : law.At handlers depth undoing.before := by
      rw [hbefore]
      exact { hat with holds := law.taken hwithin hlog hmark hat.holds }
    have hafter := (Law.keeps_undo hobeyed undoing.entry).at_unwoundAs hat' hundone
    intro undoing' hmem
    rcases List.mem_cons.mp hmem with rfl | hmem
    · exact hat'
    · exact ih hafter undoing' hmem

end Unwound

/-! ### Unwind forms -/

/-- Whether an application may start: it is not nested too deep, and no request to quit, one that
arrives just then included, is noticed first. -/
def Machine.admits (machine : Machine) : Bool :=
  machine.evalDepth < machine.settings.maxEvalDepth &&
    !(machine.receiveQuit.quitPending && !machine.inhibitsQuit)

/-- The caller that starts every application, without asking whether it may. A request to quit that
arrives just then waits. -/
def Caller.entering (caller : Caller) : Caller :=
  { caller with
    apply := fun function arguments ↦ do
      modify Machine.receiveQuit
      nested caller do
        caller.observe (.applying function arguments)
        call caller function arguments }

/-- The watch that lets no application start. -/
def appliesNothing : Event → Machine → Bool
  | .applying _ _, _ => false
  | _, _ => true

section Admitting

variable {watch : Event → Machine → Bool} {steps : Nat} {machine : Machine}

theorem apply_of_admits (hadmits : machine.admits = true) (function : Value)
    (arguments : List Value) :
    (Caller.watched watch (steps + 1)).apply function arguments machine =
      (Caller.watched watch steps).entering.apply function arguments machine := by
  rw [Machine.admits, Bool.and_eq_true, decide_eq_true_eq, Bool.not_eq_true'] at hadmits
  change applyFunction (.watched watch steps) function arguments machine = _
  rw [applyFunction_apply, if_neg (Nat.not_le.mpr hadmits.1)]
  change EStateM.bind noticeQuit _ machine = _
  unfold EStateM.bind
  rw [noticeQuit_apply, hadmits.2]
  rfl

/-- What is refused does not depend on what the watch lets pass. -/
theorem apply_of_not_admits (hadmits : machine.admits = false) (function : Value)
    (arguments : List Value) (watch' : Event → Machine → Bool) :
    (Caller.watched watch (steps + 1)).apply function arguments machine =
      (Caller.watched watch' (steps + 1)).apply function arguments machine := by
  change applyFunction (.watched watch steps) function arguments machine =
    applyFunction (.watched watch' steps) function arguments machine
  rw [applyFunction_apply, applyFunction_apply]
  by_cases hdeep : machine.settings.maxEvalDepth ≤ machine.evalDepth
  · rw [if_pos hdeep, if_pos hdeep]
  · rw [if_neg hdeep, if_neg hdeep]
    have hquit : (machine.receiveQuit.quitPending && !machine.inhibitsQuit) = true := by
      rw [Machine.admits, decide_eq_true (Nat.lt_of_not_le hdeep), Bool.true_and,
        Bool.not_eq_false'] at hadmits
      exact hadmits
    change EStateM.bind noticeQuit _ machine = EStateM.bind noticeQuit _ machine
    unfold EStateM.bind
    rw [noticeQuit_apply, hquit]
    rfl

end Admitting

/-- A call that is to be made on a machine. -/
structure PendingCall where
  function : Value
  arguments : List Value
  machine : Machine

/-- Make the call and drop the value that it gives. -/
def PendingCall.make (pending : PendingCall) (caller : Caller) :
    EStateM.Result (Stop Signal) Machine Unit :=
  (do let _ ← caller.apply pending.function pending.arguments : Engine Unit) pending.machine

/-- What an unwind form is a call of: of its function, without arguments, or else of `eval` with its
body. -/
def Machine.unwindCall (machine : Machine) (handler : Value) : PendingCall :=
  if machine.isFunction handler then ⟨handler, [], machine⟩
  else
    let allocated := machine.heap.allocate (.cons Symbols.progn handler)
    ⟨Symbols.eval, [allocated.1], { machine with heap := allocated.2 }⟩

theorem runUnwindForm_apply (caller : Caller) (handler : Value) (machine : Machine) :
    runUnwindForm caller handler machine = (machine.unwindCall handler).make caller := by
  change (if machine.isFunction handler then _ else _ : Engine Unit) machine = _
  unfold Machine.unwindCall
  split_ifs <;> rfl

theorem Machine.admits_unwindCall (machine : Machine) (handler : Value) :
    (machine.unwindCall handler).machine.admits = machine.admits := by
  unfold Machine.unwindCall
  split_ifs <;> rfl

/-- Callers that apply the function alike make the call alike. -/
theorem PendingCall.make_congr {pending : PendingCall} {caller companion : Caller}
    (happly : caller.apply pending.function pending.arguments pending.machine =
      companion.apply pending.function pending.arguments pending.machine) :
    pending.make caller = pending.make companion := by
  change EStateM.bind (caller.apply _ _) _ _ = EStateM.bind (companion.apply _ _) _ _
  unfold EStateM.bind
  rw [happly]

/-- The undoing of a form was one call of its function, or one evaluation of its body. -/
def Undoing.Enters (undoing : Undoing) (steps : Nat) (handler : Value) : Prop :=
  (undoing.before.unwindCall handler).make (Caller.bounded steps).entering =
    unwoundAs undoing.signal undoing.after

/-- The undoing of a form came to an end, and nothing was applied. -/
def Undoing.Refuses (undoing : Undoing) (steps : Nat) (handler : Value) : Prop :=
  (undoing.before.unwindCall handler).make (.watched appliesNothing (steps + 1)) =
    unwoundAs undoing.signal undoing.after

/-- A form is entered if the machine admits applications when its turn comes, and refused if it does
not. -/
theorem Undoing.enters_or_refuses {undoing : Undoing} {steps : Nat} {handler : Value}
    (hundone : undo (.bounded (steps + 1)) (.unwindProtect handler) undoing.before =
      unwoundAs undoing.signal undoing.after) :
    if undoing.before.admits then undoing.Enters steps handler
    else undoing.Refuses steps handler := by
  rw [undo, runUnwindForm_apply] at hundone
  have hadmits := undoing.before.admits_unwindCall handler
  split_ifs with hcan
  · exact (PendingCall.make_congr (apply_of_admits (hadmits.trans hcan) _ _)).symm.trans hundone
  · rw [Bool.not_eq_true] at hcan
    exact (PendingCall.make_congr (apply_of_not_admits (hadmits.trans hcan) _ _ _)).trans hundone

/-- No request to quit waits, and none will arrive. -/
def Machine.Undisturbed (machine : Machine) : Prop :=
  machine.quitPending = false ∧ true ∉ machine.arrivals

theorem Machine.Undisturbed.received {machine : Machine} (hundisturbed : machine.Undisturbed) :
    machine.receiveQuit.Undisturbed := by
  obtain ⟨hpending, harrivals⟩ := hundisturbed
  unfold receiveQuit
  cases hlist : machine.arrivals with
  | nil => exact ⟨by simp [hpending], by simp⟩
  | cons arrives later =>
    rw [hlist, List.mem_cons, not_or] at harrivals
    have hnone : arrives = false := by simpa using harrivals.1
    exact ⟨by simp [hpending, hnone], harrivals.2⟩

/-- The law of a machine with the given settings that no request to quit disturbs. -/
def Law.undisturbed (settings : Settings) : Law where
  holds machine := machine.settings = settings ∧ machine.Undisturbed
  within _ := True
  stored _ hholds := hholds
  handled _ hholds := hholds
  nested _ hholds := hholds
  received hholds := ⟨hholds.1, hholds.2.received⟩
  noticed hholds := ⟨hholds.1, rfl, hholds.2.2⟩
  background _ _ _ _ _ hholds := hholds
  logged _ hholds := hholds
  taken _ _ _ hholds := hholds
  marked _ := trivial

/-- A machine that has room for an application and that no request to quit disturbs admits every form
of an unwinding. -/
theorem Unwinds.admits {steps : Nat} {mark : BindingMark} {machine after : Machine}
    {undoings : List Undoing} (hroom : machine.evalDepth < machine.settings.maxEvalDepth)
    (hquit : machine.Undisturbed)
    (hunwinds : Unwinds (.bounded steps) mark machine undoings after) :
    ∀ undoing ∈ undoings, undoing.before.admits = true := by
  intro undoing hmem
  have hobeyed : (Law.undisturbed machine.settings).Obeyed (.bounded steps) :=
    Law.obeyed_watched (fun _ _ ↦ trivial) steps
  have hat := hunwinds.at_before hobeyed trivial ⟨⟨rfl, hquit⟩, rfl, rfl⟩ undoing hmem
  rw [Machine.admits, hat.depth_eq, hat.holds.1, hat.holds.2.received.1]
  simpa using hroom

/-- An unwinding that comes to an end undoes every entry above the mark, one after the other, and
each form among them is entered once, unless the machine does not admit applications when its turn
comes. It admits them all if there is room for one when the unwinding starts and no request to quit
waits or arrives. -/
theorem unbindTo_enters_forms (steps : Nat) (mark : BindingMark) (machine : Machine)
    (hfinishes : Finishes (unbindTo (.bounded (steps + 1)) mark machine)) :
    ∃ undoings after,
      Unwinds (.bounded (steps + 1)) mark machine undoings after ∧
      unbindTo (.bounded (steps + 1)) mark machine =
        unwoundAs (undoings.findSome? Undoing.signal) after ∧
      (∀ undoing ∈ undoings, ∀ handler, undoing.entry = .unwindProtect handler →
        if undoing.before.admits then undoing.Enters steps handler
        else undoing.Refuses steps handler) ∧
      (machine.evalDepth < machine.settings.maxEvalDepth → machine.Undisturbed →
        ∀ undoing ∈ undoings, undoing.before.admits = true) := by
  obtain ⟨undoings, after, hunwinds, hrun⟩ := exists_unwinds hfinishes
  refine ⟨undoings, after, hunwinds, hrun, ?_, fun hroom hquit ↦ hunwinds.admits hroom hquit⟩
  intro undoing hmem handler hentry
  have hundone := hunwinds.undone_of_mem undoing hmem
  rw [hentry] at hundone
  exact Undoing.enters_or_refuses hundone

/-- A machine with the default settings enters a form that only gives a constant. -/
theorem unbindTo_enters_forms_constant :
    let subject : Function :=
      { code := #[0xC0, 0x87], constants := #[.t], maxDepth := 1, parameters := .dynamic [] }
    let machine : Machine :=
      { heap := ((Heap.empty 1).allocate (.function 0 "")).2, settings := {}
        functions := #[subject], bindings := [.unwindProtect (.object 0)] }
    Finishes (unbindTo (.bounded 5) 0 machine) ∧
      ∃ undoings after, Unwinds (.bounded 5) 0 machine undoings after ∧
        ∀ undoing ∈ undoings, ∀ handler, undoing.entry = .unwindProtect handler →
          undoing.Enters 4 handler := by
  intro subject machine
  have hfinishes : Finishes (unbindTo (.bounded 5) 0 machine) := by decide +kernel
  obtain ⟨undoings, after, hunwinds, -, hforms, hadmits⟩ :=
    unbindTo_enters_forms 4 0 machine hfinishes
  refine ⟨hfinishes, undoings, after, hunwinds, fun undoing hmem handler hentry ↦ ?_⟩
  have hform := hforms undoing hmem handler hentry
  rwa [if_pos (hadmits (by decide) ⟨rfl, by simp [machine]⟩ undoing hmem)] at hform

/-- A machine that is nested as deep as it may be refuses the form: the log is empty afterwards, and
nothing was applied. -/
theorem unbindTo_refuses_form :
    let subject : Function :=
      { code := #[0xC0, 0x87], constants := #[.t], maxDepth := 1, parameters := .dynamic [] }
    let machine : Machine :=
      { heap := ((Heap.empty 1).allocate (.function 0 "")).2, settings := { maxEvalDepth := 0 }
        functions := #[subject], bindings := [.unwindProtect (.object 0)] }
    let nesting : Signal := .error Symbols.excessiveLispNesting (.object 1)
    StopsWith nesting (unbindTo (.bounded 5) 0 machine) ∧
      StopsWith nesting (unbindTo (.watched appliesNothing 5) 0 machine) ∧
      EndsAs (fun _ after ↦ after.bindings = []) (fun _ after ↦ after.bindings = [])
        (unbindTo (.bounded 5) 0 machine) := by
  decide +kernel

end LispMachine
