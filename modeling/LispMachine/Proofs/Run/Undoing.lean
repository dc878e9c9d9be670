import LispMachine.Proofs.Run.Progress
import LispMachine.Proofs.Run.Unwinding
import LispMachine.Proofs.Store.Editing

/-!
Unwinding is complete. An entry that is no form is undone without a signal, and what was saved in it
is in place again (`undo_of_not_form`). So only forms can get in the way of an unwinding: by not
coming to an end, or by changing the log. The main statement, `unbindTo_undoes_all`, says that where
no form does, every entry above the mark is undone once, newest first, the log below the mark is
what is left, and the unwinding ends with the first signal that a form has stopped with.
-/

set_option autoImplicit false

namespace LispMachine

open LispMachine.Action Storage Engine

/-! ### Restoring what was saved -/

/-- The position of a marker that points into a buffer. -/
def Heap.positionOf? (heap : Heap) (value : Value) : Option Nat :=
  match heap.marker? value with
  | some ⟨some _, position⟩ => some position
  | _ => none

theorem markerPosition?_apply (value : Value) (store : Store) :
    markerPosition? value store = .ok (store.heap.positionOf? value) store := by
  change (match store.heap.marker? value with
    | some ⟨some _, position⟩ => Pure.pure (some position)
    | _ => Pure.pure none : Storage (Option Nat)) store = _
  unfold Heap.positionOf?
  rcases store.heap.marker? value with _ | ⟨_ | index, position⟩ <;> rfl

theorem Heap.positionOf?_object (heap : Heap) (address : Nat) :
    heap.positionOf? (.object address) = (heap.attachment? address).map Prod.snd := by
  unfold positionOf? marker? attachment?
  rw [get?_object]
  rcases heap.objects[address]? with _ | object
  · rfl
  · cases object with
    | marker marker => obtain ⟨_ | index, position⟩ := marker <;> rfl
    | _ => rfl

/-- Buffers differ at most in their markers, and no marker points anywhere that did not before. -/
structure Store.OnlyDetached (before after : Store) : Prop where
  buffers : BufferStore.SameButMarkers before.buffers after.buffers
  detached : ∀ value, before.heap.positionOf? value = none → after.heap.positionOf? value = none

/-- Cells that are added to the heap are no markers. -/
theorem Heap.positionOf?_list (heap : Heap) (items : List Value) {value : Value}
    (hnone : heap.positionOf? value = none) : (heap.list items).2.positionOf? value = none := by
  induction items with
  | nil => exact hnone
  | cons item items ih =>
    cases value with
    | fixnum | symbol => rfl
    | object address =>
      rw [positionOf?_object] at ih
      change Heap.positionOf? (Heap.allocate _ (.cons _ _)).2 (.object address) = _
      rw [positionOf?_object, attachment?_allocate]
      split_ifs
      · rfl
      · exact ih

/-- A marker can always be detached, and so can what is no marker. -/
theorem detachMarker_apply (marker : Value) (store : Store) :
    ∃ after, detachMarker marker store = .ok () after ∧ store.OnlyDetached after ∧
      after.heap.positionOf? marker = none := by
  change ∃ after, EStateM.bind (Action.attempt (setMarker marker none)) _ store = _ ∧ _
  unfold EStateM.bind Action.attempt
  cases hmarker : store.heap.marker? marker with
  | none =>
    have hnone : store.heap.positionOf? marker = none := by
      unfold Heap.positionOf?
      rw [hmarker]
    have hcells (value : Value) (hvalue : store.heap.positionOf? value = none) :=
      store.heap.positionOf?_list [Symbols.markerp, marker] hvalue
    rw [setMarker_of_none hmarker]
    exact ⟨_, rfl, ⟨.refl _, hcells⟩, hcells marker hnone⟩
  | some place =>
    cases marker with
    | fixnum | symbol => cases hmarker
    | object address =>
      rw [setMarker_apply hmarker]
      have hplaces (other : Nat) :
          (store.heap.set (.object address) (.marker ⟨none, 0⟩)).attachment? other = _ :=
        Heap.attachment?_set_marker hmarker other
      refine ⟨_, rfl, ⟨BufferStore.same_forget _ place address, ?_⟩, ?_⟩
      · intro value hnone
        cases value with
        | fixnum | symbol => rfl
        | object other =>
          rw [Heap.positionOf?_object] at hnone ⊢
          rw [hplaces]
          split_ifs
          · rfl
          · exact hnone
      · rw [Heap.positionOf?_object, hplaces, if_pos rfl]
        rfl

/-- A change that leaves the buffer without text as it is shows in whatever buffer it is made to,
also where there is no such buffer. -/
theorem BufferStore.get_update_self (buffers : BufferStore) (index : Nat)
    {change : Buffer → Buffer} (hempty : change default = default) :
    (buffers.update index change).get index = change (buffers.get index) := by
  by_cases hindex : index < buffers.buffers.size
  · rw [get_update hindex, if_pos rfl]
  · have hsize := Nat.le_of_not_lt hindex
    rw [update_of_size_le hsize, get_of_size_le hsize, hempty]

theorem clampBetween_self (bound position : Nat) : clampBetween bound bound position = bound := by
  unfold clampBetween
  split_ifs <;> omega

/-- What was saved in an entry is in place again. Nothing is saved in a form. -/
def BindingEntry.Restored (before after : Store) : BindingEntry → Prop
  | .binding symbol old =>
    symbol < before.symbols.size → (after.symbols.get symbol).cell = .plain old
  | .unwindProtect _ => True
  | .excursion buffer point =>
    after.buffers.currentIndex = buffer ∧
      (after.buffers.get buffer).unmarked =
        ((before.heap.positionOf? point).elim (before.buffers.get buffer)
          (before.buffers.get buffer).setPoint).unmarked ∧
      after.heap.positionOf? point = none
  | .restriction buffer (some (low, high)) =>
    let start := (before.heap.positionOf? low).getD 1
    let finish := (before.heap.positionOf? high).getD start
    (after.buffers.get buffer).unmarked =
        ((before.buffers.get buffer).narrow start finish).unmarked ∧
      after.heap.positionOf? low = none ∧ after.heap.positionOf? high = none
  | .restriction buffer none => after.buffers.get buffer = (before.buffers.get buffer).widen
  | .currentBuffer buffer => after.buffers.currentIndex = buffer

/-- A storage action restores what was saved in an entry. -/
def Storage.Restores (entry : BindingEntry) (action : Storage Unit) : Prop :=
  ∀ before, ∃ after, action before = .ok () after ∧ entry.Restored before after

theorem restores_binding (symbol : Nat) (old : Option Value) :
    Storage.Restores (.binding symbol old)
      (modifySymbols fun table ↦ table.setCell symbol (.plain old)) :=
  fun _ ↦ ⟨_, rfl, fun hsymbol ↦ SymbolTable.cell_setCell_self hsymbol _⟩

theorem restores_excursion (buffer : Nat) (point : Value) :
    Storage.Restores (.excursion buffer point) (restoreExcursion buffer point) := by
  intro before
  change ∃ after, EStateM.bind (markerPosition? point) _
    { before with buffers := { before.buffers with currentIndex := buffer } } = _ ∧ _
  unfold EStateM.bind
  rw [markerPosition?_apply]
  dsimp only
  cases hposition : before.heap.positionOf? point with
  | none =>
    obtain ⟨after, hrun, hsame, hdetached⟩ := detachMarker_apply point
      { before with buffers := { before.buffers with currentIndex := buffer } }
    refine ⟨after, hrun, hsame.buffers.current, ?_, hdetached⟩
    rw [hsame.buffers.get, hposition]
    rfl
  | some position =>
    obtain ⟨after, hrun, hsame, hdetached⟩ := detachMarker_apply point
      { before with
        buffers := BufferStore.update { before.buffers with currentIndex := buffer } buffer
          fun buffer ↦ buffer.setPoint position }
    refine ⟨after, hrun, hsame.buffers.current, ?_, hdetached⟩
    have hempty : (default : Buffer).setPoint position = default := by
      unfold Buffer.setPoint
      exact congrArg (fun point ↦ { (default : Buffer) with point := point })
        (clampBetween_self 1 position)
    rw [hsame.buffers.get, BufferStore.get_update_self _ _ hempty, hposition]
    rfl

/-- The accessible part lies between the two markers again, and the markers are detached. -/
theorem restoreBounds_apply (buffer : Nat) (low high : Value) (before : Store) :
    let start := (before.heap.positionOf? low).getD 1
    let finish := (before.heap.positionOf? high).getD start
    ∃ after, restoreBounds buffer low high before = .ok () after ∧
      BufferStore.SameButMarkers
        (before.buffers.update buffer fun buffer ↦ buffer.narrow start finish) after.buffers ∧
      after.heap.positionOf? low = none ∧ after.heap.positionOf? high = none := by
  intro start finish
  obtain ⟨middle, hfirst, hsame, hlow⟩ := detachMarker_apply low
    { before with buffers := before.buffers.update buffer fun buffer ↦ buffer.narrow start finish }
  obtain ⟨after, hlast, hsame', hhigh⟩ := detachMarker_apply high middle
  refine ⟨after, ?_, hsame.buffers.trans hsame'.buffers, hsame'.detached low hlow, hhigh⟩
  change EStateM.bind (markerPosition? low) _ before = _
  unfold EStateM.bind
  rw [markerPosition?_apply]
  change EStateM.bind (markerPosition? high) _ before = _
  unfold EStateM.bind
  rw [markerPosition?_apply]
  change EStateM.bind (detachMarker low) (fun _ ↦ detachMarker high) _ = _
  unfold EStateM.bind
  rw [hfirst]
  exact hlast

theorem restores_bounds (buffer : Nat) (low high : Value) :
    Storage.Restores (.restriction buffer (some (low, high))) (restoreBounds buffer low high) := by
  intro before
  obtain ⟨after, hrun, hsame, hdetached⟩ := restoreBounds_apply buffer low high before
  refine ⟨after, hrun, ?_, hdetached⟩
  have hempty (start finish : Nat) : (default : Buffer).narrow start finish = default := by
    have hclamp (position : Nat) : clampBetween 1 (default : Buffer).textEnd position = 1 :=
      clampBetween_self 1 position
    unfold Buffer.narrow
    simp only [hclamp, clampBetween_self]
    rfl
  rw [hsame.get, BufferStore.get_update_self _ _ (hempty _ _)]

theorem restores_widened (buffer : Nat) :
    Storage.Restores (.restriction buffer none)
      (modifyBuffers fun store ↦ store.update buffer Buffer.widen) :=
  fun before ↦ ⟨_, rfl, BufferStore.get_update_self before.buffers buffer rfl⟩

theorem restores_currentBuffer (buffer : Nat) :
    Storage.Restores (.currentBuffer buffer) (setCurrentBuffer buffer) :=
  fun _ ↦ ⟨_, rfl, rfl⟩

/-- An entry that is no form is undone without a signal, which changes the store and nothing else,
and what was saved in it is in place again. -/
theorem undo_of_not_form (caller : Caller) {entry : BindingEntry}
    (hentry : ∀ handler, entry ≠ .unwindProtect handler) (machine : Machine) :
    ∃ store : Store, undo caller entry machine = .ok () { machine with toStore := store } ∧
      entry.Restored machine.toStore store := by
  have hlifted {action : Storage Unit} (hrestores : Storage.Restores entry action) :
      ∃ store : Store, (liftM action : Engine Unit) machine =
        .ok () { machine with toStore := store } ∧ entry.Restored machine.toStore store := by
    obtain ⟨store, hrun, hrestored⟩ := hrestores machine.toStore
    exact ⟨store, by rw [liftM_apply, hrun], hrestored⟩
  cases entry with
  | binding symbol old => exact hlifted (restores_binding symbol old)
  | unwindProtect handler => exact absurd rfl (hentry handler)
  | excursion buffer point => exact hlifted (restores_excursion buffer point)
  | restriction buffer bounds =>
    rcases bounds with _ | ⟨low, high⟩
    · exact hlifted (restores_widened buffer)
    · exact hlifted (restores_bounds buffer low high)
  | currentBuffer buffer => exact hlifted (restores_currentBuffer buffer)

/-- What an undoing has come to in a run of so many steps. What was saved in the entry is in place
again, and only a form can have signalled. A form was entered if the machine admitted applications
when its turn came, and refused if it did not. -/
structure Undoing.Complete (steps : Nat) (undoing : Undoing) : Prop where
  restored : undoing.entry.Restored undoing.before.toStore undoing.after.toStore
  silent : (∀ handler, undoing.entry ≠ .unwindProtect handler) → undoing.signal = none
  tried : ∀ handler, undoing.entry = .unwindProtect handler → ∃ fewer, steps = fewer + 1 ∧
    if undoing.before.admits then undoing.Enters fewer handler else undoing.Refuses fewer handler

/-- An undoing that has come to an end is complete. -/
theorem Undoing.Complete.of_undone {steps : Nat} {undoing : Undoing}
    (hundone : undo (.bounded steps) undoing.entry undoing.before =
      unwoundAs undoing.signal undoing.after) : undoing.Complete steps := by
  by_cases hentry : ∃ handler, undoing.entry = .unwindProtect handler
  · obtain ⟨handler, hentry⟩ := hentry
    refine ⟨by rw [hentry]; trivial, fun hother ↦ absurd hentry (hother handler), ?_⟩
    rintro _ hsame
    obtain rfl := BindingEntry.unwindProtect.inj (hentry.symm.trans hsame)
    rw [hentry] at hundone
    cases steps with
    | zero =>
      -- without steps nothing is applied, and the undoing has no end
      rw [undo, runUnwindForm_apply] at hundone
      cases hsignal : undoing.signal <;> rw [hsignal] at hundone <;> cases hundone
    | succ fewer => exact ⟨fewer, rfl, enters_or_refuses hundone⟩
  · obtain ⟨store, hrun, hrestored⟩ :=
      undo_of_not_form (.bounded steps) (not_exists.mp hentry) undoing.before
    rw [hundone] at hrun
    cases hsignal : undoing.signal with
    | none =>
      rw [hsignal] at hrun
      injection hrun with _ hafter
      exact ⟨hafter ▸ hrestored, fun _ ↦ hsignal, fun handler hform ↦ absurd ⟨handler, hform⟩ hentry⟩
    | some reason =>
      rw [hsignal] at hrun
      cases hrun

/-! ### Complete unwindings -/

section Complete

variable {caller : Caller} {mark : BindingMark} {machine : Machine}

/-- A run that comes to an end ends without a signal or with one. -/
theorem EndsAs.exists_unwoundAs {ended : Machine → Prop}
    {run : EStateM.Result (Stop Signal) Machine Unit}
    (hends : EndsAs (fun _ ↦ ended) (fun _ ↦ ended) run) (hfinishes : Finishes run) :
    ∃ signal after, run = unwoundAs signal after ∧ ended after := by
  cases hends with
  | ok hended => exact ⟨none, _, rfl, hended⟩
  | signal hended => exact ⟨some _, _, rfl, hended⟩
  | exhausted => exact absurd rfl (hfinishes _ _)

/-- On the way down to the mark, every form whose turn comes has an end, with or without a signal,
and leaves the log as it found it. -/
def Machine.FormsKeepLog (caller : Caller) (mark : BindingMark) (machine : Machine) : Prop :=
  ∀ (level : BindingMark) (undoings : List Undoing) (between : Machine),
    Unwinds caller level machine undoings between →
    ∀ handler rest, between.bindings = .unwindProtect handler :: rest → mark ≤ rest.length →
      ∃ signal after, undo caller (.unwindProtect handler) { between with bindings := rest } =
        unwoundAs signal after ∧ after.bindings = rest

/-- The newest entry, of whatever kind, is undone, and the log is then what was below it. -/
theorem Machine.FormsKeepLog.exists_undo (hforms : machine.FormsKeepLog caller mark)
    {entry : BindingEntry} {rest : BindingLog} (hlog : machine.bindings = entry :: rest)
    (hmark : mark ≤ rest.length) :
    ∃ signal after, undo caller entry { machine with bindings := rest } = unwoundAs signal after ∧
      after.bindings = rest := by
  by_cases hentry : ∃ handler, entry = .unwindProtect handler
  · obtain ⟨handler, rfl⟩ := hentry
    exact hforms machine.bindings.length [] machine (.done (Nat.le_refl _)) handler rest hlog hmark
  · obtain ⟨store, hundone, -⟩ := undo_of_not_form caller (not_exists.mp hentry)
      { machine with bindings := rest }
    exact ⟨none, _, hundone, rfl⟩

/-- What holds on the way from a machine holds on the way from the machine that has lost its newest
entry, and the other way round. -/
theorem Machine.formsKeepLog_undone {after : Machine} {entry : BindingEntry} {rest : BindingLog}
    {signal : Option Signal} (hlog : machine.bindings = entry :: rest)
    (hundone : undo caller entry { machine with bindings := rest } = unwoundAs signal after)
    (hkept : after.bindings = rest) :
    machine.FormsKeepLog caller mark ↔ after.FormsKeepLog caller mark := by
  constructor
  · intro hforms level undoings between hunwinds handler below hbetween hbelow
    by_cases hlevel : level ≤ rest.length
    · exact hforms level (⟨entry, _, signal, after⟩ :: undoings) between
        (.undone hlog hlevel rfl hundone hunwinds) handler below hbetween hbelow
    · -- nothing has been undone yet, so the machine is `after` itself
      cases hunwinds with
      | done =>
        exact hforms rest.length [⟨entry, _, signal, after⟩] after
          (.undone hlog (Nat.le_refl _) rfl hundone (.done (hkept ▸ Nat.le_refl _))) handler below
          hbetween hbelow
      | undone hlog' hlevel' =>
        rw [hkept] at hlog'
        rw [hlog'] at hlevel
        exact absurd (Nat.le_succ_of_le hlevel') hlevel
  · intro hforms level undoings between hunwinds handler below hbetween hbelow
    cases hunwinds with
    | done =>
      rw [hlog] at hbetween
      obtain ⟨rfl, rfl⟩ := List.cons.inj hbetween
      exact ⟨signal, after, hundone, hkept⟩
    | @undone _ _ undoing later rest' hlog' hlevel hbefore hundone' hlater =>
      rw [hlog] at hlog'
      obtain ⟨hentry, rfl⟩ := List.cons.inj hlog'
      rw [← hentry, hbefore, hundone] at hundone'
      have hafter : undoing.after = after := by
        revert hundone'
        cases signal <;> cases undoing.signal <;> simp [unwoundAs, eq_comm]
      rw [hafter] at hlater
      exact hforms level later between hlater handler below hbetween hbelow

/-- Down to the mark there is an undoing for each entry, and the log that is left is what was below
the mark. -/
theorem Machine.FormsKeepLog.exists_unwinds (hforms : machine.FormsKeepLog caller mark) :
    ∃ undoings after, Unwinds caller mark machine undoings after ∧
      undoings.map Undoing.entry = machine.bindings.take (machine.bindings.length - mark) ∧
      after.bindings = outermost mark machine.bindings := by
  generalize hlog : machine.bindings = log
  induction log generalizing machine with
  | nil => exact ⟨[], machine, .done (by simp [hlog]), by simp, by simp [hlog, outermost]⟩
  | cons entry rest ih =>
    by_cases hmark : mark ≤ rest.length
    · obtain ⟨signal, after, hundone, hkept⟩ := hforms.exists_undo hlog hmark
      obtain ⟨later, last, hunwinds, hentries, hlast⟩ :=
        ih ((formsKeepLog_undone hlog hundone hkept).mp hforms) hkept
      refine ⟨⟨entry, _, signal, after⟩ :: later, last,
        .undone hlog hmark rfl hundone hunwinds, ?_, ?_⟩
      · rw [List.map_cons, hentries, List.length_cons, Nat.sub_add_comm hmark, List.take_succ_cons]
      · rw [hlast, outermost, outermost, List.length_cons, Nat.sub_add_comm hmark,
          List.drop_succ_cons]
    · have hbelow : machine.bindings.length ≤ mark := by
        rw [hlog]
        exact Nat.lt_of_not_le hmark
      have hnone : (entry :: rest).length - mark = 0 := Nat.sub_eq_zero_of_le (hlog ▸ hbelow)
      exact ⟨[], machine, .done hbelow, by rw [hnone]; rfl, by rw [outermost, hnone, hlog]; rfl⟩

/-- Undoing entries takes one round for each and one more. -/
theorem unwindFrom_of_unwinds (hpermits : ∀ event machine, caller.permits event machine = true)
    {after : Machine} {undoings : List Undoing}
    (hunwinds : Unwinds caller mark machine undoings after) {rounds : Nat}
    (hrounds : undoings.length < rounds) (first : Option Signal) :
    unwindFrom caller mark rounds first machine =
      .ok (first.or (undoings.findSome? Undoing.signal)) after := by
  induction hunwinds generalizing rounds first with
  | @done machine hmark =>
    obtain ⟨rounds, rfl⟩ := Nat.exists_eq_succ_of_ne_zero (Nat.ne_of_gt hrounds)
    have htaken : takeBinding mark machine = .ok none machine := by
      rw [takeBinding_apply]
      cases hlog : machine.bindings with
      | nil => rfl
      | cons entry rest =>
        rw [hlog, List.length_cons] at hmark
        exact if_neg (by omega)
    rw [unwindFrom, bind_of_ok htaken, List.findSome?_nil, Option.or_none]
    rfl
  | @undone machine after undoing later rest hlog hmark hbefore hundone hlater ih =>
    obtain ⟨rounds, rfl⟩ := Nat.exists_eq_succ_of_ne_zero (Nat.ne_of_gt (Nat.zero_lt_of_lt hrounds))
    have htaken : takeBinding mark machine = .ok (some undoing.entry) undoing.before := by
      rw [takeBinding_apply, hlog, hbefore]
      exact if_pos hmark
    have hrest : later.length < rounds := Nat.lt_of_succ_lt_succ hrounds
    rw [unwindFrom, bind_of_ok htaken, List.findSome?_cons]
    cases hsignal : undoing.signal with
    | none =>
      rw [hsignal] at hundone
      have hattempt : caller.attempt (undo caller undoing.entry) undoing.before =
          .ok (.ok ()) undoing.after := by
        rw [Caller.attempt_apply, hundone]
        rfl
      exact (bind_of_ok hattempt).trans (ih hrest first)
    | some reason =>
      rw [hsignal] at hundone
      have hattempt : caller.attempt (undo caller undoing.entry) undoing.before =
          .ok (.error reason) undoing.after := by
        rw [Caller.attempt_apply, hundone]
        exact if_pos (hpermits _ _)
      have hkept : caller.keepFirst first reason undoing.after =
          .ok (first.getD reason) undoing.after := by
        cases first with
        | none => rfl
        | some earlier =>
          have hobserved : caller.observe (.dropping reason earlier) undoing.after =
            .ok () undoing.after := if_pos (hpermits _ _)
          exact bind_of_ok hobserved
      refine (bind_of_ok hattempt).trans ((bind_of_ok hkept).trans ((ih hrest _).trans ?_))
      cases first <;> rfl

/-- A list of undoings down to the mark decides how the unwinding ends. -/
theorem unbindTo_of_unwinds (hpermits : ∀ event machine, caller.permits event machine = true)
    {after : Machine} {undoings : List Undoing}
    (hunwinds : Unwinds caller mark machine undoings after)
    (hlength : undoings.length ≤ machine.bindings.length) :
    unbindTo caller mark machine = unwoundAs (undoings.findSome? Undoing.signal) after := by
  have hrun := unwindFrom_of_unwinds hpermits hunwinds
    (Nat.lt_add_right caller.rounds (Nat.lt_succ_of_le hlength)) none
  refine (bind_of_ok hrun).trans ?_
  rw [Option.none_or]
  cases undoings.findSome? Undoing.signal <;> rfl

/-- Where no form gets in the way, an unwinding comes to its end. Every entry above the mark is
undone once, newest first; what is left of the log are the entries below the mark. An entry that is
no form never signals, and what was saved in it is in place again, whatever the other entries did; a
form was entered, or refused by a machine that admitted no application then. The unwinding ends with the first signal met, if there was one. -/
theorem unbindTo_undoes_all (steps : Nat) (mark : BindingMark) (machine : Machine)
    (hforms : machine.FormsKeepLog (.bounded steps) mark) :
    ∃ undoings after,
      Unwinds (.bounded steps) mark machine undoings after ∧
      unbindTo (.bounded steps) mark machine =
        unwoundAs (undoings.findSome? Undoing.signal) after ∧
      undoings.map Undoing.entry = machine.bindings.take (machine.bindings.length - mark) ∧
      after.bindings = outermost mark machine.bindings ∧
      ∀ undoing ∈ undoings, undoing.Complete steps := by
  obtain ⟨undoings, after, hunwinds, hentries, hlast⟩ := hforms.exists_unwinds
  have hlength : undoings.length ≤ machine.bindings.length := by
    have hcount := congrArg List.length hentries
    rw [List.length_map, List.length_take] at hcount
    omega
  exact ⟨undoings, after, hunwinds, unbindTo_of_unwinds (fun _ _ ↦ rfl) hunwinds hlength,
    hentries, hlast, fun undoing hmem ↦ .of_undone (hunwinds.undone_of_mem undoing hmem)⟩

/-- A form that signals, between two bindings of a variable, keeps neither of them from being
undone. -/
theorem unbindTo_undoes_all_around_error :
    let subject : Function :=
      { code := #[0xC0, 0x40, 0x87], constants := #[.t], maxDepth := 1, parameters := .dynamic [] }
    let machine : Machine :=
      { heap := ((Heap.empty 1).allocate (.function 0 "")).2, settings := {}
        functions := #[subject]
        bindings := [.binding 5 none, .unwindProtect (.object 0), .binding 5 (some (.fixnum 1))] }
    machine.FormsKeepLog (.bounded 5) 0 ∧
      ∃ (undoings : List Undoing) (after : Machine),
        unbindTo (.bounded 5) 0 machine = unwoundAs (undoings.findSome? Undoing.signal) after ∧
        undoings.map Undoing.entry = machine.bindings ∧ after.bindings = [] ∧
        ∀ undoing ∈ undoings, undoing.Complete 5 := by
  intro subject machine
  let restored (old : Option Value) (rest : BindingLog) (machine : Machine) : Machine :=
    { machine with bindings := rest, symbols := machine.symbols.setCell 5 (.plain old) }
  have hbinding (old : Option Value) (rest : BindingLog) (machine : Machine) :
      undo (.bounded 5) (.binding 5 old) { machine with bindings := rest } =
        unwoundAs none (restored old rest machine) := rfl
  let middle := restored none machine.bindings.tail machine
  have hform : EndsAs (fun _ after ↦ after.bindings = middle.bindings.tail)
      (fun _ after ↦ after.bindings = middle.bindings.tail)
      (undo (.bounded 5) (.unwindProtect (.object 0))
        { middle with bindings := middle.bindings.tail }) ∧
      Finishes (undo (.bounded 5) (.unwindProtect (.object 0))
        { middle with bindings := middle.bindings.tail }) := by decide +kernel
  have hforms : machine.FormsKeepLog (.bounded 5) 0 := by
    refine (Machine.formsKeepLog_undone rfl (hbinding none machine.bindings.tail machine) rfl).mpr
      ?_
    obtain ⟨signal, last, hundone, hlast⟩ := hform.1.exists_unwoundAs hform.2
    refine (Machine.formsKeepLog_undone rfl hundone hlast).mpr ?_
    refine (Machine.formsKeepLog_undone hlast (hbinding (some (.fixnum 1)) [] last) rfl).mpr ?_
    intro level undoings between hunwinds handler rest hlog
    cases hunwinds with
    | done => cases hlog
    | undone hlog' => cases hlog'
  obtain ⟨undoings, after, -, hrun, hentries, hlast, hcomplete⟩ :=
    unbindTo_undoes_all 5 0 machine hforms
  exact ⟨hforms, undoings, after, hrun, hentries, hlast, hcomplete⟩

end Complete

end LispMachine
