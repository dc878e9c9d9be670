import LispMachine.Proofs.Machine.Boot
import LispMachine.Proofs.Run.Delivery

/-!
What becomes of the quits of a run. A checkpoint that finds a request to quit takes it back and
raises the error `quit` for it, which from then on is the only trace of the request. A run can raise
many quits, since requests arrive at any moment, and each of them ends in one of four ways
(`QuitFate`): a handler that covers `quit` catches it; it is superseded by a signal that is met later,
while the log is unwound on the way to such a handler; it is dropped for a signal that was on its way
before; or the run stops with it.

`QuitFates` follows the quits through a run. Its rules go with the places of a run at which a signal
can get lost: where an action ends, where a handler is found, and where an action is attempted while
a signal is on its way. Whatever a derivation says is borne out by the run (`QuitFates.borneOut`): a
quit that is left is what the run stops with, a handler that is named covers `quit`, and the quits are
as many as were noticed. So if none was noticed, the requests that have arrived still wait.
-/

set_option autoImplicit false

namespace LispMachine

open LispMachine.Action Storage Engine

variable {α β : Type}

/-! ### Requests -/

/-- The error that a request to quit is raised as. -/
def quitSignal : Signal := .error Symbols.quit .nil

namespace Machine

/-- The requests to quit are the same: the one that waits, and those that will arrive. -/
structure SameRequests (before after : Machine) : Prop where
  pending : after.quitPending = before.quitPending
  arrivals : after.arrivals = before.arrivals

/-- From one machine to the other so many quits were noticed. There were requests for all of them,
which had waited before or were received meanwhile; and where no quit was noticed, a request that had
waited before or was received still waits. -/
def Notices (before after : Machine) (noticed : Nat) : Prop :=
  ∃ received, before.arrivals = received ++ after.arrivals ∧
    noticed + after.quitPending.toNat ≤ before.quitPending.toNat + received.count true ∧
    (noticed = 0 →
      (after.quitPending = true ↔ before.quitPending = true ∨ true ∈ received))

variable {before between after : Machine} {noticed later : Nat}

theorem SameRequests.notices (hsame : before.SameRequests after) : before.Notices after 0 := by
  refine ⟨[], by rw [hsame.arrivals, List.nil_append], ?_, fun _ ↦ ?_⟩
  · simp [hsame.pending]
  · simp [hsame.pending]

theorem sameRequests_stored (action : Storage α) (machine : Machine) :
    machine.SameRequests (machineAfter ((liftM action : Engine α) machine)) := by
  rw [liftM_apply]
  cases action machine.toStore <;> exact ⟨rfl, rfl⟩

theorem Notices.trans (hfirst : before.Notices between noticed)
    (hlater : between.Notices after later) : before.Notices after (noticed + later) := by
  obtain ⟨received, harrivals, hcount, hnone⟩ := hfirst
  obtain ⟨received', harrivals', hcount', hnone'⟩ := hlater
  refine ⟨received ++ received', by rw [harrivals, harrivals', List.append_assoc], ?_, ?_⟩
  · rw [List.count_append]
    omega
  · intro hsum
    have hzero : noticed = 0 ∧ later = 0 := by omega
    rw [hnone' hzero.2, hnone hzero.1, List.mem_append, or_assoc]

/-- What arrives before a checkpoint waits. -/
theorem notices_receiveQuit (machine : Machine) : machine.Notices machine.receiveQuit 0 := by
  refine ⟨machine.arrivals.take 1, ?_, ?_, fun _ ↦ ?_⟩
  · unfold receiveQuit
    cases machine.arrivals <;> rfl
  · unfold receiveQuit
    rcases machine.arrivals with _ | ⟨arrives, rest⟩
    · simp
    · cases machine.quitPending <;> cases arrives <;> simp
  · unfold receiveQuit
    rcases machine.arrivals with _ | ⟨arrives, rest⟩
    · simp
    · cases machine.quitPending <;> cases arrives <;> simp

end Machine

/-- A checkpoint that is passed notices nothing, and one that is not notices a quit. -/
theorem noticeQuit_cases (machine : Machine) :
    (∃ after, noticeQuit machine = .ok () after ∧ machine.Notices after 0) ∨
      ∃ after, noticeQuit machine = .error (.signal quitSignal) after ∧
        machine.Notices after 1 := by
  rw [noticeQuit_apply]
  split_ifs with hquit
  · rw [Bool.and_eq_true] at hquit
    have hreceived := machine.notices_receiveQuit
    have hnoticed : machine.receiveQuit.Notices { machine.receiveQuit with quitPending := false } 1 :=
      ⟨[], rfl, by simp [hquit.1], nofun⟩
    exact .inr ⟨_, rfl, by simpa using hreceived.trans hnoticed⟩
  · exact .inl ⟨_, rfl, machine.notices_receiveQuit⟩

/-! ### Handlers for quits -/

/-- Whether what a handler names covers the error `quit`. -/
def Store.coversQuit (store : Store) (tag : Value) : Bool :=
  match (errorConditions Symbols.quit >>= (coversConditions · tag) : Storage Bool) store with
  | .ok covers _ => covers
  | .error _ _ => false

/-- What is found for a signal catches it. -/
theorem catchesSignal_of_innermostMatch {signal : Signal} {conditions : List Value}
    {handlers outer : HandlerStack} {handler : Handler} {store : Store}
    (hfound : innermostMatch signal conditions handlers store = .ok (some (handler, outer)) store) :
    catchesSignal signal conditions handler store = .ok true store := by
  induction handlers with
  | nil => cases hfound
  | cons first rest ih =>
    rw [innermostMatch] at hfound
    change EStateM.bind _ _ store = _ at hfound
    unfold EStateM.bind at hfound
    obtain ⟨catches, hcatches⟩ | hcatches :=
      Storage.Reading.catchesSignal signal conditions first store
    · rw [hcatches] at hfound
      cases catches with
      | true =>
        cases hfound
        exact hcatches
      | false => exact ih hfound
    · rw [hcatches] at hfound
      cases hfound

theorem Store.coversQuit_of_catches {conditions : List Value} {handler : Handler} {store : Store}
    (hconditions : errorConditions Symbols.quit store = .ok conditions store)
    (hcatches : catchesSignal quitSignal conditions handler store = .ok true store) :
    store.coversQuit handler.tag = true := by
  have hcovers : coversConditions conditions handler.tag store = .ok true store := by
    unfold catchesSignal quitSignal at hcatches
    cases hkind : handler.kind with
    | catching =>
      rw [hkind] at hcatches
      cases hcatches
    | conditionCase =>
      rw [hkind] at hcatches
      exact hcatches
  have hrun : (errorConditions Symbols.quit >>= (coversConditions · handler.tag) : Storage Bool)
      store = .ok true store := (bind_of_ok hconditions).trans hcovers
  unfold Store.coversQuit
  rw [hrun]

theorem ends_handlerStack {before : Machine → Prop} {stopped : Signal → Machine → Prop} :
    Ends before handlerStack (fun _ ↦ before) stopped :=
  fun _ hstart ↦ .ok hstart

/-- A handler that is found for a quit covers it. -/
theorem coversQuit_of_findHandler {base : Nat} {machine after : Machine} {handler : Handler}
    {outer : HandlerStack}
    (hfind : findHandler base quitSignal machine = .ok (some (handler, outer)) after) :
    machine.coversQuit handler.tag = true := by
  have hends : Ends (· = machine) (findHandler base quitSignal)
      (fun found _ ↦ ∀ handler outer, found = some (handler, outer) →
        machine.coversQuit handler.tag = true) (fun _ _ ↦ True) := by
    refine .bind (.reading (.signalConditions quitSignal)) fun conditions ↦ ?_
    refine .bind ends_handlerStack fun handlers ↦ ?_
    refine .bind (.reading (innermostMatch_reading quitSignal conditions handlers)) fun found ↦ ?_
    rintro _ ⟨⟨rfl, hconditions⟩, hfound⟩
    cases found with
    | none => exact .ok nofun
    | some parts =>
      refine .ok fun handler outer hparts ↦ ?_
      split_ifs at hparts
      cases hparts
      exact Store.coversQuit_of_catches hconditions (catchesSignal_of_innermostMatch hfound)
  have hend := hends machine rfl
  rw [hfind] at hend
  cases hend with
  | ok hcovers => exact hcovers handler outer rfl

/-! ### The fates of quits -/

/-- What has become of a quit that is no longer on its way. -/
inductive QuitFate where
  /-- A handler was found for it on this machine, the log was unwound to the mark of the handler, and
  the handler has received it. -/
  | caught (handler : Handler) (found : Machine)
  /-- A handler was found for it on this machine, but unwinding the log to the mark of the handler met
  a signal, which goes on in its place. -/
  | superseded (handler : Handler) (found : Machine) (later : Signal)
  /-- It is what some undoing has stopped with, which was begun on this machine while an earlier signal
  was on its way, and that signal was kept. -/
  | dropped (earlier : Signal) (undoing : Engine Unit) (begun : Machine)

/-- The quits that an action has on its hands and those that are noticed in its run from a machine
have these fates, apart from the one that the run leaves on its way, if it leaves one. -/
inductive QuitFates : {α : Type} → Bool → Engine α → Machine → List QuitFate → Bool → Prop where
  | quiet {α : Type} {action : Engine α} {machine : Machine}
      (hsame : machine.SameRequests (machineAfter (action machine))) :
      QuitFates false action machine [] false
  | unfinished {α : Type} {action : Engine α} {machine after : Machine} {resource : Resource}
      {held : Bool} (hrun : action machine = .error (.exhausted resource) after) :
      QuitFates held action machine [] held
  /-- A checkpoint is passed, maybe with a request that waits. -/
  | passed {machine after : Machine} (hrun : noticeQuit machine = .ok () after) :
      QuitFates false noticeQuit machine [] false
  | noticed {machine after : Machine} (hrun : noticeQuit machine = .error (.signal quitSignal) after) :
      QuitFates false noticeQuit machine [] true
  /-- A quit that was on its way goes on. -/
  | raised {α : Type} {machine : Machine} :
      QuitFates true (Action.signal quitSignal : Engine α) machine [] true
  | bind_ok {α β : Type} {first : Engine α} {next : α → Engine β} {machine between : Machine}
      {result : α} {fates later : List QuitFate} {held left : Bool}
      (hrun : first machine = .ok result between) (hfirst : QuitFates false first machine fates false)
      (hnext : QuitFates held (next result) between later left) :
      QuitFates held (first >>= next) machine (fates ++ later) left
  | bind_error {α β : Type} {first : Engine α} {next : α → Engine β} {machine between : Machine}
      {reason : Signal} {fates : List QuitFate} {left : Bool}
      (hrun : first machine = .error (.signal reason) between)
      (hfirst : QuitFates false first machine fates left) :
      QuitFates false (first >>= next) machine fates left
  | attempt_ok {α : Type} {caller : Caller} {action : Engine α} {machine after : Machine}
      {result : α} {fates : List QuitFate} (hrun : action machine = .ok result after)
      (haction : QuitFates false action machine fates false) :
      QuitFates false (caller.attempt action) machine fates false
  /-- What comes after an attempt has the signal on its hands that the attempt has stopped with. -/
  | attempt_error {α β : Type} {caller : Caller} {action : Engine α}
      {next : Except Signal α → Engine β} {machine between : Machine} {reason : Signal}
      {fates later : List QuitFate} {held left : Bool}
      (hrun : action machine = .error (.signal reason) between)
      (haction : QuitFates false action machine fates held)
      (hnext : QuitFates held (next (.error reason)) between later left) :
      QuitFates false (caller.attempt action >>= next) machine (fates ++ later) left
  /-- Something is undone while an earlier signal is on its way, which is kept. -/
  | dropped {β : Type} {caller : Caller} {undoing : Engine Unit} {next : Except Signal Unit → Engine β}
      {rest : Signal → Engine β} {machine between : Machine} {earlier reason : Signal}
      {fates later : List QuitFate} {held met left : Bool}
      (hrun : undoing machine = .error (.signal reason) between)
      (hundoing : QuitFates false undoing machine fates met)
      (hkept : next (.error reason) = (caller.keepFirst (some earlier) reason >>= rest))
      (hrest : QuitFates held (rest earlier) between later left) :
      QuitFates held (caller.attempt undoing >>= next) machine
        (fates ++ ((if met then [.dropped earlier undoing machine] else []) ++ later)) left
  /-- A handler is found for the quit and receives it. -/
  | caught {β : Type} {caller : Caller} {base rounds : Nat} {next : Disposition → Engine β}
      {machine between after : Machine} {handler : Handler} {outer : HandlerStack} {payload : Value}
      {fates later : List QuitFate} {left : Bool}
      (hfind : findHandler base quitSignal machine = .ok (some (handler, outer)) machine)
      (hrun : unbindTo caller handler.mark { machine with handlers := outer } = .ok () between)
      (hunwinding : QuitFates false (unbindTo caller handler.mark) { machine with handlers := outer }
        fates false)
      (hpayload : (liftM (signalPayload quitSignal) : Engine (Option Value)) between =
        .ok (some payload) after)
      (hnext : QuitFates false (next (.resume handler payload)) after later left) :
      QuitFates true (dispatchWithin caller base (rounds + 1) quitSignal >>= next) machine
        (fates ++ .caught handler { machine with handlers := outer } :: later) left
  /-- A handler is found for the quit, but another signal is met on the way to it. -/
  | superseded {β : Type} {caller : Caller} {base rounds : Nat} {next : Disposition → Engine β}
      {machine between : Machine} {handler : Handler} {outer : HandlerStack} {reason : Signal}
      {fates later : List QuitFate} {held left : Bool}
      (hfind : findHandler base quitSignal machine = .ok (some (handler, outer)) machine)
      (hrun : unbindTo caller handler.mark { machine with handlers := outer } =
        .error (.signal reason) between)
      (hunwinding : QuitFates false (unbindTo caller handler.mark) { machine with handlers := outer }
        fates held)
      (hnext : QuitFates held (dispatchWithin caller base rounds reason >>= next) between later left) :
      QuitFates true (dispatchWithin caller base (rounds + 1) quitSignal >>= next) machine
        (fates ++ .superseded handler { machine with handlers := outer } reason :: later) left

/-! ### What bears the fates out -/

/-- What happened when a quit met its fate. -/
def QuitFate.BorneOut : QuitFate → Prop
  | .caught handler found => found.coversQuit handler.tag = true ∧
      ∃ caller after, unbindTo caller handler.mark found = .ok () after
  | .superseded handler found later => found.coversQuit handler.tag = true ∧
      ∃ caller, StopsWith later (unbindTo caller handler.mark found)
  | .dropped _ undoing begun => StopsWith quitSignal (undoing begun)

/-- The fates account for a run. The quit that is left is what the run has stopped with; those that
were noticed have, with the one that was at hand before, as many fates as there are; and every fate is
what has happened. -/
structure QuitsSettled (held : Bool) (machine : Machine)
    (run : EStateM.Result (Stop Signal) Machine α) (fates : List QuitFate) (left : Bool) : Prop where
  stops : left = true → StopsWith quitSignal run
  noticed : ∃ noticed, held.toNat + noticed = fates.length + left.toNat ∧
    machine.Notices (machineAfter run) noticed
  borneOut : ∀ fate ∈ fates, fate.BorneOut

theorem QuitsSettled.unsettled {held left : Bool} {machine : Machine}
    {run : EStateM.Result (Stop Signal) Machine α} (noticed : Nat)
    (hcount : held.toNat + noticed = left.toNat)
    (hnotices : machine.Notices (machineAfter run) noticed)
    (hstops : left = true → StopsWith quitSignal run) : QuitsSettled held machine run [] left :=
  ⟨hstops, ⟨noticed, by simpa using hcount, hnotices⟩, by simp⟩

/-- The handlers have no part in what a run does to the requests. -/
theorem QuitsSettled.of_handlers {held left : Bool} {machine : Machine} {handlers : HandlerStack}
    {run : EStateM.Result (Stop Signal) Machine α} {fates : List QuitFate}
    (hsettled : QuitsSettled held { machine with handlers := handlers } run fates left) :
    QuitsSettled held machine run fates left :=
  ⟨hsettled.stops, hsettled.noticed, hsettled.borneOut⟩

theorem finishes_of_ok {run : EStateM.Result (Stop Signal) Machine α} {result : α} {after : Machine}
    (hrun : run = .ok result after) : Finishes run := by
  rintro resource machine rfl
  cases hrun

theorem finishes_of_signal {run : EStateM.Result (Stop Signal) Machine α} {reason : Signal}
    {after : Machine} (hrun : run = .error (.signal reason) after) : Finishes run := by
  rintro resource machine rfl
  cases hrun

/-- The accounts of one run after another, between which some fates are settled. -/
theorem QuitsSettled.andThen {machine : Machine} {run : EStateM.Result (Stop Signal) Machine α}
    {run' : EStateM.Result (Stop Signal) Machine β} {fates later : List QuitFate}
    {held middle held' left : Bool} (settled : List QuitFate)
    (hfirst : QuitsSettled false machine run fates middle)
    (hnext : QuitsSettled held' (machineAfter run) run' later left)
    (hcount : held.toNat + middle.toNat = settled.length + held'.toNat)
    (hsettled : ∀ fate ∈ settled, fate.BorneOut) :
    QuitsSettled held machine run' (fates ++ (settled ++ later)) left := by
  obtain ⟨noticed, hnoticed, hfirst'⟩ := hfirst.noticed
  obtain ⟨noticed', hnoticed', hnext'⟩ := hnext.noticed
  refine ⟨hnext.stops, ⟨noticed + noticed', ?_, hfirst'.trans hnext'⟩, ?_⟩
  · rw [Bool.toNat_false] at hnoticed
    simp only [List.length_append]
    omega
  · intro fate hmem
    rcases List.mem_append.mp hmem with hmem | hmem
    · exact hfirst.borneOut fate hmem
    · rcases List.mem_append.mp hmem with hmem | hmem
      · exact hsettled fate hmem
      · exact hnext.borneOut fate hmem

/-- A run that is at its end is the run of what comes after what it has observed. -/
theorem observe_bind_eq {caller : Caller} {event : Event} {next : Unit → Engine α}
    {machine : Machine} (hfinishes : Finishes ((caller.observe event >>= next) machine)) :
    (caller.observe event >>= next) machine = next () machine := by
  by_cases hpermits : caller.permits event machine = true
  · exact bind_of_ok (if_pos hpermits)
  · have hrefused : caller.observe event machine = .error (.exhausted .rounds) machine :=
      if_neg hpermits
    exact absurd (bind_of_error hrefused) (hfinishes _ _)

theorem attempt_bind_eq {caller : Caller} {action : Engine α} {next : Except Signal α → Engine β}
    {machine between : Machine} {reason : Signal}
    (hrun : action machine = .error (.signal reason) between)
    (hfinishes : Finishes ((caller.attempt action >>= next) machine)) :
    (caller.attempt action >>= next) machine = next (.error reason) between := by
  have hattempt := Caller.attempt_apply caller action machine
  rw [hrun] at hattempt
  dsimp only at hattempt
  split_ifs at hattempt
  · exact bind_of_ok hattempt
  · exact absurd (bind_of_error hattempt) (hfinishes _ _)

theorem keepFirst_bind_eq {caller : Caller} {earlier reason : Signal} {rest : Signal → Engine α}
    {machine : Machine}
    (hfinishes : Finishes ((caller.keepFirst (some earlier) reason >>= rest) machine)) :
    (caller.keepFirst (some earlier) reason >>= rest) machine = rest earlier machine := by
  have hassoc : (caller.keepFirst (some earlier) reason >>= rest) =
      (caller.observe (.dropping reason earlier) >>= fun _ ↦ rest earlier) := bind_assoc _ _ _
  rw [hassoc] at hfinishes ⊢
  exact observe_bind_eq hfinishes

section Dispatched

variable {caller : Caller} {base rounds : Nat} {reason : Signal} {next : Disposition → Engine α}
  {machine between : Machine} {handler : Handler} {outer : HandlerStack}
  (hfind : findHandler base reason machine = .ok (some (handler, outer)) machine)
  (hfinishes : Finishes ((dispatchWithin caller base (rounds + 1) reason >>= next) machine))

include hfind hfinishes

/-- What is done where a handler is found: the log is unwound to its mark. A signal that is met goes
on in place of the first, and otherwise the handler receives the first. -/
theorem exists_dispatchWithin_bind_eq :
    ∃ rest : Except Signal Unit → Engine α,
      (dispatchWithin caller base (rounds + 1) reason >>= next) machine =
        (caller.attempt (unbindTo caller handler.mark) >>= rest)
          { machine with handlers := outer } ∧
      (∀ later, rest (.error later) = (dispatchWithin caller base rounds later >>= next)) ∧
      ∀ between after payload, (liftM (signalPayload reason) : Engine (Option Value)) between =
        .ok (some payload) after → rest (.ok ()) between = next (.resume handler payload) after := by
  simp only [dispatchWithin, bind_assoc] at hfinishes ⊢
  rw [bind_of_ok hfind] at hfinishes ⊢
  dsimp only at hfinishes ⊢
  simp only [bind_assoc] at hfinishes ⊢
  rw [observe_bind_eq hfinishes]
  refine ⟨_, bind_of_ok rfl, fun _ ↦ rfl, fun between after payload hpayload ↦ ?_⟩
  dsimp only
  rw [bind_assoc]
  exact bind_of_ok hpayload

theorem dispatchWithin_bind_eq_of_ok {after : Machine} {payload : Value}
    (hrun : unbindTo caller handler.mark { machine with handlers := outer } = .ok () between)
    (hpayload : (liftM (signalPayload reason) : Engine (Option Value)) between =
      .ok (some payload) after) :
    (dispatchWithin caller base (rounds + 1) reason >>= next) machine =
      next (.resume handler payload) after := by
  obtain ⟨rest, hwhole, -, hok⟩ := exists_dispatchWithin_bind_eq hfind hfinishes
  rw [hwhole, bind_of_ok (Caller.attempt_of_ok hrun)]
  exact hok between after payload hpayload

theorem dispatchWithin_bind_eq_of_signal {later : Signal}
    (hrun : unbindTo caller handler.mark { machine with handlers := outer } =
      .error (.signal later) between) :
    (dispatchWithin caller base (rounds + 1) reason >>= next) machine =
      (dispatchWithin caller base rounds later >>= next) between := by
  obtain ⟨rest, hwhole, herror, -⟩ := exists_dispatchWithin_bind_eq hfind hfinishes
  rw [hwhole] at hfinishes ⊢
  rw [attempt_bind_eq hrun hfinishes, herror]

/-- A dispatching that comes to its end is not held up in the unwinding. -/
theorem unbindTo_ne_exhausted {resource : Resource} :
    unbindTo caller handler.mark { machine with handlers := outer } ≠
      .error (.exhausted resource) between := by
  intro hrun
  obtain ⟨rest, hwhole, -, -⟩ := exists_dispatchWithin_bind_eq hfind hfinishes
  rw [hwhole] at hfinishes
  exact hfinishes _ _ (bind_of_error (Caller.attempt_of_exhausted hrun))

end Dispatched

/-- The fates of the quits account for a run that comes to its end. -/
theorem QuitFates.settled {held left : Bool} {action : Engine α} {machine : Machine}
    {fates : List QuitFate} (hfates : QuitFates held action machine fates left)
    (hfinishes : Finishes (action machine)) :
    QuitsSettled held machine (action machine) fates left := by
  induction hfates with
  | quiet hsame => exact .unsettled 0 rfl hsame.notices nofun
  | unfinished hrun => exact absurd hrun (hfinishes _ _)
  | @passed machine after hrun =>
    obtain ⟨after', hrun', hnotices⟩ | ⟨after', hrun', -⟩ := noticeQuit_cases machine
    · rw [hrun']
      exact .unsettled 0 rfl hnotices nofun
    · rw [hrun'] at hrun
      cases hrun
  | @noticed machine after hrun =>
    obtain ⟨after', hrun', -⟩ | ⟨after', hrun', hnotices⟩ := noticeQuit_cases machine
    · rw [hrun'] at hrun
      cases hrun
    · rw [hrun']
      exact .unsettled 1 rfl hnotices fun _ ↦ ⟨_, rfl⟩
  | raised => exact .unsettled 0 rfl (Machine.SameRequests.notices ⟨rfl, rfl⟩) fun _ ↦ ⟨_, rfl⟩
  | bind_ok hrun _ _ ihfirst ihnext =>
    have hfirst := ihfirst (finishes_of_ok hrun)
    rw [bind_of_ok hrun] at hfinishes ⊢
    rw [hrun] at hfirst
    exact hfirst.andThen [] (ihnext hfinishes) (Nat.add_comm _ _) (by simp)
  | bind_error hrun _ ih =>
    have hfirst := ih (finishes_of_signal hrun)
    rw [bind_of_error hrun]
    rw [hrun] at hfirst
    refine ⟨fun hleft ↦ ?_, hfirst.noticed, hfirst.borneOut⟩
    obtain ⟨_, hstops⟩ := hfirst.stops hleft
    cases hstops
    exact ⟨_, rfl⟩
  | attempt_ok hrun _ ih =>
    have haction := ih (finishes_of_ok hrun)
    rw [Caller.attempt_of_ok hrun]
    rw [hrun] at haction
    exact ⟨nofun, haction.noticed, haction.borneOut⟩
  | attempt_error hrun _ _ ihaction ihnext =>
    have haction := ihaction (finishes_of_signal hrun)
    have hruns := attempt_bind_eq hrun hfinishes
    rw [hruns] at hfinishes ⊢
    rw [hrun] at haction
    exact haction.andThen [] (ihnext hfinishes) rfl (by simp)
  | @dropped _ _ _ _ _ _ _ _ _ _ _ held met left hrun _ hkept _ ihundoing ihrest =>
    have hundoing := ihundoing (finishes_of_signal hrun)
    have hruns := attempt_bind_eq hrun hfinishes
    rw [hruns, hkept] at hfinishes ⊢
    have hrests := keepFirst_bind_eq hfinishes
    rw [hrests] at hfinishes ⊢
    have hstops := hundoing.stops
    rw [hrun] at hundoing
    refine hundoing.andThen _ (ihrest hfinishes) ?_ ?_
    · cases met <;> simp [Nat.add_comm]
    · cases met with
      | true => exact List.forall_mem_singleton.mpr (hstops rfl)
      | false => simp
  | @caught _ caller base rounds next machine between after handler outer payload fates later left
      hfind hrun _ hpayload _ ihunwinding ihnext =>
    have hcovers : machine.coversQuit handler.tag = true := coversQuit_of_findHandler hfind
    have hunwinding := ihunwinding (finishes_of_ok hrun)
    have hruns := dispatchWithin_bind_eq_of_ok hfind hfinishes hrun hpayload
    rw [hruns] at hfinishes ⊢
    rw [hrun] at hunwinding
    have hsame := Machine.sameRequests_stored (signalPayload quitSignal) between
    rw [hpayload] at hsame
    have hpayloaded : QuitsSettled false between (.ok (some payload) after) [] false :=
      .unsettled 0 rfl hsame.notices (by simp)
    have hreceived : QuitsSettled false { machine with handlers := outer } _ (fates ++ ([] ++ [])) _ :=
      hunwinding.andThen [] hpayloaded rfl (by simp)
    have hcaught : QuitFate.BorneOut (.caught handler { machine with handlers := outer }) :=
      ⟨hcovers, caller, between, hrun⟩
    have hsettled : QuitsSettled true { machine with handlers := outer } _ _ left :=
      hreceived.andThen [_] (ihnext hfinishes) rfl (List.forall_mem_singleton.mpr hcaught)
    simpa using hsettled.of_handlers
  | @superseded _ caller base rounds next machine between handler outer reason fates later held left
      hfind hrun _ _ ihunwinding ihnext =>
    have hcovers : machine.coversQuit handler.tag = true := coversQuit_of_findHandler hfind
    have hunwinding := ihunwinding (finishes_of_signal hrun)
    have hruns := dispatchWithin_bind_eq_of_signal hfind hfinishes hrun
    rw [hruns] at hfinishes ⊢
    rw [hrun] at hunwinding
    have hsuperseded : QuitFate.BorneOut
        (.superseded handler { machine with handlers := outer } reason) :=
      ⟨hcovers, caller, between, hrun⟩
    have hsettled : QuitsSettled true { machine with handlers := outer } _ _ left :=
      hunwinding.andThen [_] (ihnext hfinishes) rfl (List.forall_mem_singleton.mpr hsuperseded)
    exact hsettled.of_handlers

end LispMachine
