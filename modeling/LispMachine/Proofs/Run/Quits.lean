import LispMachine.Proofs.Run.Journal
import LispMachine.Proofs.Run.QuitFates

/-!
The quits of whole runs. The fates of the quits that are noticed in a run are put together from those
of its parts, whatever the run calls and catches: every action that a run is made of can be followed
(`Followed`), and so can what comes after a signal that is on its way.

The main statement is `Request.quit_followed`. A request that arrives at any moment of a run, or that
waited before, still waits when the run has come to its end, or was noticed; and every quit that was
noticed is caught by a handler that covers it, is superseded by a signal that was met on the way to
such a handler, is dropped for a signal that was on its way before it, or is what the run stops with.
The third is the only way in which a quit is lost to an earlier signal, and it leaves no trace
(`Request.quit_dropped`).
-/

set_option autoImplicit false

namespace LispMachine

open LispMachine.Action Storage Engine

variable {α β : Type}

/-! ### Actions that can be followed -/

/-- The quits of every run of the action have fates, and so has the one that the action has on its
hands, if it has one. -/
def Followed (held : Bool) (action : Engine α) : Prop :=
  ∀ machine, ∃ fates left, QuitFates held action machine fates left

/-- The action leaves the requests to quit alone and stops with no signal. -/
def Steady (action : Engine α) : Prop :=
  ∀ machine, (∃ result after, action machine = .ok result after ∧ machine.SameRequests after) ∨
    ∃ resource after, action machine = .error (.exhausted resource) after

/-- If a quit is left, the signal with which the run has stopped is that quit. -/
theorem QuitFates.reason_eq {action : Engine α} {machine after : Machine} {fates : List QuitFate}
    {held left : Bool} {reason : Signal} (hfates : QuitFates held action machine fates left)
    (hrun : action machine = .error (.signal reason) after) (hleft : left = true) :
    reason = quitSignal := by
  obtain ⟨_, hstops⟩ := (hfates.settled (finishes_of_signal hrun)).stops hleft
  rw [hrun] at hstops
  cases hstops
  rfl

/-- A run that gives a result leaves no quit. -/
theorem QuitFates.left_eq_false {action : Engine α} {machine after : Machine}
    {fates : List QuitFate} {held left : Bool} {result : α}
    (hfates : QuitFates held action machine fates left) (hrun : action machine = .ok result after) :
    left = false := by
  by_contra hleft
  obtain ⟨_, hstops⟩ := (hfates.settled (finishes_of_ok hrun)).stops (by simpa using hleft)
  rw [hrun] at hstops
  cases hstops

namespace Steady

theorem observe (caller : Caller) (event : Event) : Steady (caller.observe event) := by
  intro machine
  unfold Caller.observe
  split_ifs
  · exact .inl ⟨(), machine, rfl, rfl, rfl⟩
  · exact .inr ⟨_, _, rfl⟩

theorem machine : Steady (get : Engine Machine) := fun machine ↦ .inl ⟨_, machine, rfl, rfl, rfl⟩

theorem bindingMark : Steady Engine.bindingMark := fun machine ↦ .inl ⟨_, machine, rfl, rfl, rfl⟩

theorem handlerCount : Steady Engine.handlerCount :=
  fun machine ↦ .inl ⟨_, machine, rfl, rfl, rfl⟩

theorem truncateHandlers (count : Nat) : Steady (Engine.truncateHandlers count) :=
  fun _ ↦ .inl ⟨(), _, rfl, rfl, rfl⟩

theorem setHandlers (handlers : HandlerStack) : Steady (Engine.setHandlers handlers) :=
  fun _ ↦ .inl ⟨(), _, rfl, rfl, rfl⟩

theorem takeBinding (mark : BindingMark) : Steady (Engine.takeBinding mark) := by
  intro machine
  rw [takeBinding_apply]
  cases machine.bindings with
  | nil => exact .inl ⟨_, _, rfl, rfl, rfl⟩
  | cons entry rest =>
    dsimp only
    split_ifs <;> exact .inl ⟨_, _, rfl, rfl, rfl⟩

theorem findHandler (base : Nat) (reason : Signal) : Steady (Engine.findHandler base reason) := by
  intro machine
  obtain hrun | hrun | ⟨handler, outer, hrun, -⟩ := findHandler_cases base reason machine
  · exact .inr ⟨_, _, hrun⟩
  · exact .inl ⟨_, _, hrun, rfl, rfl⟩
  · exact .inl ⟨_, _, hrun, rfl, rfl⟩

end Steady

namespace Followed

variable {held : Bool}

theorem quietly {action : Engine α}
    (hsame : ∀ machine : Machine, machine.SameRequests (machineAfter (action machine))) :
    Followed false action :=
  fun machine ↦ ⟨[], false, .quiet (hsame machine)⟩

theorem unchanging {action : Engine α}
    (hsame : ∀ machine, machineAfter (action machine) = machine) : Followed false action :=
  quietly fun machine ↦ by rw [hsame machine]; exact ⟨rfl, rfl⟩

theorem pure (result : α) : Followed false (Pure.pure result : Engine α) := unchanging fun _ ↦ rfl

theorem fault (reason : Fault) : Followed false (Action.fault reason : Engine α) :=
  unchanging fun _ ↦ rfl

theorem exhausted : Followed held (Action.exhausted : Engine α) :=
  fun _ ↦ ⟨[], held, .unfinished rfl⟩

theorem stored (action : Storage α) : Followed false (liftM action : Engine α) :=
  quietly (Machine.sameRequests_stored action)

theorem observe (caller : Caller) (event : Event) : Followed false (caller.observe event) := by
  refine unchanging fun machine ↦ ?_
  unfold Caller.observe
  split_ifs <;> rfl

/-- A signal goes on, whether it is a quit that was noticed or not. -/
theorem signal {reason : Signal} (hheld : held = true → reason = quitSignal) :
    Followed held (Action.signal reason : Engine α) := by
  cases held with
  | true =>
    rw [hheld rfl]
    exact fun _ ↦ ⟨[], true, .raised⟩
  | false => exact unchanging fun _ ↦ rfl

theorem bind {first : Engine α} {next : α → Engine β} (hfirst : Followed false first)
    (hnext : ∀ result, Followed false (next result)) : Followed false (first >>= next) := by
  intro machine
  obtain ⟨fates, left, hfates⟩ := hfirst machine
  rcases hrun : first machine with ⟨result, between⟩ | ⟨⟨reason⟩ | ⟨resource⟩, between⟩
  · obtain ⟨later, left', hlater⟩ := hnext result between
    rw [hfates.left_eq_false hrun] at hfates
    exact ⟨_, left', .bind_ok hrun hfates hlater⟩
  · exact ⟨fates, left, .bind_error hrun hfates⟩
  · exact ⟨[], false, .unfinished (bind_of_error hrun)⟩

/-- Something steady is done while a signal is on its way. -/
theorem steady_bind {first : Engine α} {next : α → Engine β} (hfirst : Steady first)
    (hnext : ∀ result, Followed held (next result)) : Followed held (first >>= next) := by
  intro machine
  obtain ⟨result, between, hrun, hsame⟩ | ⟨_, _, hrun⟩ := hfirst machine
  · obtain ⟨later, left, hlater⟩ := hnext result between
    exact ⟨_, left, .bind_ok hrun (.quiet (by rw [hrun]; exact hsame)) hlater⟩
  · exact ⟨[], held, .unfinished (bind_of_error hrun)⟩

/-- An action is attempted, and what it stops with is on the hands of what comes next. -/
theorem attempt_bind {caller : Caller} {action : Engine α} {next : Except Signal α → Engine β}
    (haction : Followed false action) (hok : ∀ result, Followed false (next (.ok result)))
    (herror : ∀ reason held, (held = true → reason = quitSignal) →
      Followed held (next (.error reason))) :
    Followed false (caller.attempt action >>= next) := by
  intro machine
  obtain ⟨fates, left, hfates⟩ := haction machine
  rcases hrun : action machine with ⟨result, between⟩ | ⟨⟨reason⟩ | ⟨resource⟩, between⟩
  · obtain ⟨later, left', hlater⟩ := hok result between
    rw [hfates.left_eq_false hrun] at hfates
    exact ⟨_, left', .bind_ok (Caller.attempt_of_ok hrun) (.attempt_ok hrun hfates) hlater⟩
  · obtain ⟨later, left', hlater⟩ := herror reason left (hfates.reason_eq hrun) between
    exact ⟨_, left', .attempt_error hrun hfates hlater⟩
  · exact ⟨[], false, .unfinished (bind_of_error (Caller.attempt_of_exhausted hrun))⟩

/-- Something is undone while a signal is on its way, which is kept. -/
theorem attempt_bind_keeping {caller : Caller} {undoing : Engine Unit}
    {next : Except Signal Unit → Engine β} {rest : Signal → Engine β} {earlier : Signal}
    (hundoing : Followed false undoing) (hok : Followed held (next (.ok ())))
    (hkept : ∀ reason, next (.error reason) = (caller.keepFirst (some earlier) reason >>= rest))
    (hrest : Followed held (rest earlier)) : Followed held (caller.attempt undoing >>= next) := by
  intro machine
  obtain ⟨fates, met, hfates⟩ := hundoing machine
  rcases hrun : undoing machine with ⟨⟨⟩, between⟩ | ⟨⟨reason⟩ | ⟨resource⟩, between⟩
  · obtain ⟨later, left, hlater⟩ := hok between
    rw [hfates.left_eq_false hrun] at hfates
    exact ⟨_, left, .bind_ok (Caller.attempt_of_ok hrun) (.attempt_ok hrun hfates) hlater⟩
  · obtain ⟨later, left, hlater⟩ := hrest between
    exact ⟨_, left, .dropped hrun hfates (hkept reason) hlater⟩
  · exact ⟨[], held, .unfinished (bind_of_error (Caller.attempt_of_exhausted hrun))⟩

theorem noticeQuit : Followed false Engine.noticeQuit := by
  intro machine
  obtain ⟨_, hrun, -⟩ | ⟨_, hrun, -⟩ := noticeQuit_cases machine
  · exact ⟨[], false, .passed hrun⟩
  · exact ⟨[], true, .noticed hrun⟩

theorem checkpoint (backward : Bool) : Followed false (Engine.checkpoint backward) := by
  unfold Engine.checkpoint
  split_ifs
  · exact (stored _).bind fun _ ↦ noticeQuit
  · exact noticeQuit

theorem throwTo (tag value : Value) : Followed false (Engine.throwTo tag value : Engine α) := by
  refine quietly fun machine ↦ ?_
  rw [throwTo_apply]
  split_ifs
  · exact ⟨rfl, rfl⟩
  · exact Machine.sameRequests_stored _ machine

theorem compile (id : Nat) : Followed false (Engine.compile id) := by
  refine quietly fun machine ↦ ?_
  have hcompiles := compiles id machine
  generalize Engine.compile id machine = run at hcompiles ⊢
  cases hcompiles <;> exact ⟨rfl, rfl⟩

theorem compileIfDue (id : Nat) : Followed false (Engine.compileIfDue id) := by
  refine steady_bind .machine fun machine ↦ ?_
  split_ifs
  · exact (compile id).bind fun _ ↦ pure ()
  · exact pure ()

end Followed

/-! ### Unwinding and dispatching -/

section Applying

variable {caller : Caller}
  (happly : ∀ function arguments, Followed false (caller.apply function arguments))

include happly

theorem followed_runUnwindForm (handler : Value) : Followed false (runUnwindForm caller handler) := by
  refine (Followed.stored _).bind fun store ↦ ?_
  split_ifs
  · exact (happly handler []).bind fun _ ↦ .pure ()
  · exact (Followed.stored _).bind fun body ↦ (happly _ _).bind fun _ ↦ .pure ()

theorem followed_undo (entry : BindingEntry) : Followed false (undo caller entry) := by
  cases entry with
  | unwindProtect handler => exact followed_runUnwindForm happly handler
  | restriction buffer bounds => cases bounds <;> exact .stored _
  | _ => exact .stored _

/-- An unwinding goes on with the first signal that it meets. Another one that comes later is dropped,
and so is a quit if it is that one. -/
theorem followed_unwindFrom_bind (mark : BindingMark) (rounds : Nat)
    {next : Option Signal → Engine α}
    (hnext : ∀ first held, (held = true → first = some quitSignal) → Followed held (next first))
    {first : Option Signal} {held : Bool} (hheld : held = true → first = some quitSignal) :
    Followed held (unwindFrom caller mark rounds first >>= next) := by
  induction rounds generalizing first held with
  | zero => exact fun _ ↦ ⟨[], held, .unfinished rfl⟩
  | succ rounds ih =>
    rw [unwindFrom, bind_assoc]
    refine .steady_bind (.takeBinding mark) fun entry ↦ ?_
    cases entry with
    | none => exact hnext first held hheld
    | some entry =>
      dsimp only
      rw [bind_assoc]
      cases first with
      | none =>
        obtain rfl : held = false := by simpa using hheld
        refine .attempt_bind (followed_undo happly entry) (fun _ ↦ ih hheld)
          fun reason held hreason ↦ ?_
        exact ih fun hheld ↦ congrArg some (hreason hheld)
      | some earlier =>
        exact .attempt_bind_keeping (followed_undo happly entry) (ih hheld)
          (fun _ ↦ bind_assoc _ _ _) (ih hheld)

theorem followed_unbindTo (mark : BindingMark) : Followed false (unbindTo caller mark) := by
  refine .steady_bind .bindingMark fun now ↦ ?_
  refine followed_unwindFrom_bind happly mark _ (fun first held hheld ↦ ?_)
    (absurd · Bool.false_ne_true)
  cases first with
  | none =>
    obtain rfl : held = false := by simpa using hheld
    exact .pure ()
  | some reason => exact .signal fun hquit ↦ Option.some.inj (hheld hquit)

theorem followed_unbind (count : Nat) : Followed false (unbind caller count) :=
  .steady_bind (.observe caller _) fun _ ↦ .steady_bind .bindingMark fun _ ↦
    followed_unbindTo happly _

/-- A signal of the action comes before one of the unwinding, which is dropped. -/
theorem followed_bracketed {action : Engine α} (haction : Followed false action) :
    Followed false (do let mark ← bindingMark; unwindingTo caller mark action) := by
  refine .steady_bind .bindingMark fun mark ↦ ?_
  have hunbind := followed_unbindTo happly mark
  refine .attempt_bind haction (fun result ↦ ?_) fun reason held hreason ↦ ?_
  · exact .attempt_bind hunbind (fun _ ↦ .pure result) fun later held hlater ↦ .signal hlater
  · exact .attempt_bind_keeping hunbind (.signal hreason) (fun _ ↦ rfl) (.signal hreason)

/-- One round of dispatching a quit. If a handler is found for it, the handler receives it, or another
signal goes on in its place. -/
theorem followed_quit_dispatchWithin_bind (base rounds : Nat) {next : Disposition → Engine α}
    (hpropagate : ∀ reason held, (held = true → reason = quitSignal) →
      Followed held (next (.propagate reason)))
    (hresume : ∀ handler payload, Followed false (next (.resume handler payload)))
    (hlater : ∀ later held, (held = true → later = quitSignal) →
      Followed held (dispatchWithin caller base rounds later >>= next)) :
    Followed true (dispatchWithin caller base (rounds + 1) quitSignal >>= next) := by
  intro machine
  obtain hfind | hfind | ⟨handler, outer, hfind, -⟩ := findHandler_cases base quitSignal machine
  · exact ⟨[], true, .unfinished (bind_of_error (bind_of_error hfind))⟩
  · obtain ⟨fates, left, hfates⟩ := hpropagate quitSignal true (fun _ ↦ rfl) machine
    have hquiet : QuitFates false (findHandler base quitSignal) machine [] false :=
      .quiet (by rw [hfind]; exact ⟨rfl, rfl⟩)
    rw [dispatchWithin, bind_assoc]
    exact ⟨_, left, .bind_ok hfind hquiet hfates⟩
  · obtain ⟨fates, left, hfates⟩ := followed_unbindTo happly handler.mark
      { machine with handlers := outer }
    rcases hrun : unbindTo caller handler.mark { machine with handlers := outer } with
      ⟨⟨⟩, between⟩ | ⟨⟨reason⟩ | ⟨resource⟩, between⟩
    · obtain ⟨later, left', hafter⟩ := hresume handler
        (between.heap.allocate (.cons Symbols.quit .nil)).1
        { between with heap := (between.heap.allocate (.cons Symbols.quit .nil)).2 }
      rw [hfates.left_eq_false hrun] at hfates
      exact ⟨_, left', .caught hfind hrun hfates rfl hafter⟩
    · obtain ⟨later, left', hafter⟩ := hlater reason left (hfates.reason_eq hrun) between
      exact ⟨_, left', .superseded hfind hrun hfates hafter⟩
    · by_contra hnone
      have hfinishes :
          Finishes ((dispatchWithin caller base (rounds + 1) quitSignal >>= next) machine) :=
        fun _ _ hwhole ↦ hnone ⟨[], true, .unfinished hwhole⟩
      exact unbindTo_ne_exhausted hfind hfinishes hrun

/-- A dispatched signal propagates, or a handler receives it. -/
theorem followed_dispatch_bind (base : Nat) {next : Disposition → Engine α}
    (hpropagate : ∀ reason held, (held = true → reason = quitSignal) →
      Followed held (next (.propagate reason)))
    (hresume : ∀ handler payload, Followed false (next (.resume handler payload)))
    {reason : Signal} {held : Bool} (hheld : held = true → reason = quitSignal) :
    Followed held (dispatch caller base reason >>= next) := by
  have hwithin (rounds : Nat) {reason : Signal} {held : Bool}
      (hheld : held = true → reason = quitSignal) :
      Followed held (dispatchWithin caller base rounds reason >>= next) := by
    induction rounds generalizing reason held with
    | zero => exact fun _ ↦ ⟨[], held, .unfinished rfl⟩
    | succ rounds ih =>
      cases held with
      | true =>
        obtain rfl := hheld rfl
        exact followed_quit_dispatchWithin_bind happly base rounds hpropagate hresume fun _ _ ↦ ih
      | false =>
        rw [dispatchWithin, bind_assoc]
        refine .steady_bind (.findHandler base reason) fun found ↦ ?_
        cases found with
        | none => exact hpropagate reason false hheld
        | some parts =>
          dsimp only
          simp only [bind_assoc]
          refine .steady_bind (.observe caller _) fun _ ↦ .steady_bind (.setHandlers _) fun _ ↦ ?_
          refine .attempt_bind (followed_unbindTo happly _) (fun _ ↦ ?_) fun _ _ hlater ↦ ih hlater
          simp only [bind_assoc]
          refine (Followed.stored _).bind fun payload ↦ ?_
          cases payload with
          | some payload => exact hresume _ payload
          | none => exact hpropagate reason false hheld
  rw [dispatch, bind_assoc]
  exact .steady_bind .handlerCount fun _ ↦ hwithin _ hheld

theorem followed_dispatching {frame : Frame} {step : Engine α}
    {resume : Handler → Value → Engine α} (hstep : Followed false step)
    (hresume : ∀ handler payload, Followed false (resume handler payload)) :
    Followed false (dispatching caller frame step resume) :=
  .attempt_bind hstep (fun _ ↦ .pure _) fun _ _ hreason ↦
    followed_dispatch_bind happly _ (fun _ _ hheld ↦ .signal hheld) hresume hreason

/-- A body under a handler that returns to the primitive that set it up. -/
theorem followed_withHandler (kind : HandlerKind) (tag : Value) {body : Engine Value}
    (hbody : Followed false body) : Followed false (withHandler caller kind tag body) := by
  have hpush (handler : Handler) : Followed false (pushHandler handler) :=
    .quietly fun _ ↦ ⟨rfl, rfl⟩
  refine .steady_bind .handlerCount fun base ↦ .steady_bind .bindingMark fun mark ↦ ?_
  refine (hpush _).bind fun _ ↦ .attempt_bind hbody (fun value ↦ ?_) fun reason held hreason ↦ ?_
  · exact .steady_bind (.truncateHandlers base) fun _ ↦ .pure _
  · refine followed_dispatch_bind happly base (fun reason held hheld ↦ ?_) (fun _ _ ↦ ?_) hreason
    · exact .steady_bind (.truncateHandlers base) fun _ ↦ .signal hheld
    · exact .steady_bind (.truncateHandlers base) fun _ ↦ .pure _

/-! ### Frames and calls -/

/-- What is put together from the parts of a run can be followed if what it calls can. -/
theorem Composed.followed {use : LogUse} {action : Caller → Engine α}
    (hcomposed : Composed use action) : Followed false (action caller) := by
  induction hcomposed with
  | pure result => exact .pure result
  | stored action => exact .stored action
  | exhausted => exact .exhausted
  | fault reason => exact .fault reason
  | bind _ _ hfirst hnext => exact hfirst.bind hnext
  | growing _ ih => exact ih
  | freely _ ih => exact ih
  | rounds _ ih => exact ih caller.rounds
  | apply function arguments => exact happly function arguments
  | checkpoint backward => exact .checkpoint backward
  | throwing tag value => exact .throwTo tag value
  | logging entry => exact .quietly fun _ ↦ ⟨rfl, rfl⟩
  | unbinding count => exact followed_unbind happly count
  | bracketed _ ih => exact followed_bracketed happly ih
  | caught kind tag _ ih => exact followed_withHandler happly kind tag ih

omit happly in
theorem followed_popOwnHandler (frame : Frame) : Followed false (popOwnHandler frame) := by
  refine .steady_bind .handlerCount fun count ↦ ?_
  split_ifs
  · exact .fault _
  · exact .quietly fun _ ↦ ⟨rfl, rfl⟩

/-- A part of a frame can be followed if what it calls can. -/
theorem Stepped.followed {frame : Frame} {counts pushes : Bool} {exit : Exit}
    {action : Caller → Engine α} (hstepped : Stepped frame counts pushes exit action) :
    Followed false (action caller) := by
  induction hstepped with
  | pure result => exact .pure result
  | exhausted => exact .exhausted
  | fault reason => exact .fault reason
  | observe event _ => exact .observe caller event
  | countOpcode | countInterpretedCall | countCompiledCall | pushHandler =>
    exact .quietly fun _ ↦ ⟨rfl, rfl⟩
  | popHandler => exact followed_popOwnHandler frame
  | unbindAll => exact followed_unbindTo happly frame.mark
  | composed hcomposed => exact hcomposed.followed happly
  | bind _ _ hfirst hnext => exact hfirst.bind hnext
  | rounds _ ih => exact ih caller.rounds
  | leaving _ ih => exact ih
  | unhandled _ _ ih => exact ih
  | dispatching _ _ hstep hresume => exact followed_dispatching happly hstep hresume

theorem followed_runInvocation {subject : Function} {arguments : List Value}
    (hreceived : Followed false
      (receiveArguments caller subject.parameters arguments (.empty subject.stackLimit))) :
    Followed false (runInvocation caller subject arguments) := by
  have hbalance (frame : Frame) : Followed false (checkBalance frame) := by
    refine .steady_bind .handlerCount fun handlers ↦ .steady_bind .bindingMark fun bindings ↦ ?_
    split_ifs
    · exact .steady_bind (.truncateHandlers _) fun _ ↦ .fault _
    · exact .pure ()
    · exact .fault _
  have hbody (base : Nat) : Followed false (runBody caller subject arguments base) := by
    rw [runBody_eq]
    split
    case isFalse => exact fun _ ↦ ⟨[], false, .unfinished rfl⟩
    refine hreceived.bind fun stack ↦ .steady_bind .bindingMark fun mark ↦ ?_
    obtain ⟨pushes, hstepped⟩ := Stepped.runFrame ⟨subject, mark, base⟩ stack
    exact (hstepped.followed happly).bind fun value ↦ (hbalance _).bind fun _ ↦ .pure value
  refine .steady_bind .handlerCount fun base ↦ ?_
  refine .attempt_bind (hbody base) (fun value ↦ ?_) fun reason held hreason ↦ ?_
  · exact .steady_bind (.truncateHandlers base) fun _ ↦ .pure value
  · exact .steady_bind (.truncateHandlers base) fun _ ↦ .signal hreason

/-- What is put together from the parts of a call can be followed if what it calls can. -/
theorem Called.followed {action : Caller → Engine α} (hcalled : Called action) :
    Followed false (action caller) := by
  induction hcalled with
  | composed hcomposed => exact hcomposed.followed happly
  | observe event _ => exact .observe caller event
  | bind _ _ hfirst hnext => exact hfirst.bind hnext
  | compileIfDue id => exact .compileIfDue id
  | addFunction | function => exact .quietly fun _ ↦ ⟨rfl, rfl⟩
  | bracketed subject arguments _ hreceived =>
    exact followed_bracketed happly (followed_runInvocation happly hreceived)

end Applying

/-! ### Whole runs -/

/-- Everything that a machine can be asked for can be followed. -/
theorem Request.followed {caller : Caller}
    (happly : ∀ function arguments, Followed false (caller.apply function arguments))
    (request : Request) : Followed false (request.run caller) := by
  cases request with
  | invoking id arguments => exact (Called.invoke id arguments).followed happly
  | applying function arguments => exact happly function arguments
  | evaluating form => exact happly _ _

end LispMachine
