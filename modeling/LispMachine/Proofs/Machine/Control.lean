import LispMachine.Primitive.Control
import LispMachine.Proofs.Machine.Sound

/-!
Bindings, handlers, evaluation and the primitives that control a run keep a machine sound. What is
entered in the binding log can be undone later on in any store that has grown: a binding is only
made of a symbol that is no constant, and buffers stay. So undoing an entry needs no check.
-/

set_option autoImplicit false

namespace LispMachine

open LispMachine.Action Storage

variable {α β : Type}

namespace Engine.Upholds

variable {world : Store}

/-! ### Bindings -/

theorem logBinding {entry : BindingEntry} (hvalues : AllKnownTo entry.values world)
    (hundoable : entry.Undoable world) :
    Upholds world (Engine.logBinding entry) (Engine.logBinding entry) Anything :=
  changing (fun _ ↦ rfl) fun machine hgrows hsound ↦
    ⟨{ hsound with
        bindings := List.forall_mem_cons.mpr ⟨hgrows.allKnown hvalues, hsound.bindings⟩
        undoable := List.forall_mem_cons.mpr ⟨hgrows.undoable hundoable, hsound.undoable⟩ },
      .refl machine.toStore, trivial⟩

theorem bindVariable {symbol value : Value} (hsymbol : symbol.KnownTo world)
    (hvalue : value.KnownTo world) :
    Upholds world (Engine.bindVariable symbol value) (Engine.bindVariable symbol value)
      Anything := by
  refine bind (stored (.resolveAssignable hsymbol)) fun target later hlater _ htarget ↦ ?_
  refine reading_bind (fun _ ↦ rfl) fun machine hgrows hsound ↦ ?_
  have hchangeable := hgrows.changeable htarget
  have hold : AllKnownTo (machine.symbols.plainValue? target).toList machine.toStore := by
    intro old hmem
    exact hsound.store.known_plainValue? (Option.mem_toList.mp hmem)
  refine at_start (bind (logBinding (.cons hchangeable.lt_size hold) hchangeable)
    fun _ last hlast _ _ ↦ ?_) hsound
  exact stored (.setCell (hlast.changeable hchangeable)
    (.cons (hlast.known (hgrows.known (hlater.known hvalue))) .nil))

theorem takeBinding (mark : BindingMark) :
    Upholds world (Engine.takeBinding mark) (Engine.takeBinding mark)
      fun taken store ↦ ∀ entry ∈ taken, AllKnownTo entry.values store ∧ entry.Undoable store := by
  intro machine _ hsound
  refine ⟨rfl, ?_⟩
  rw [takeBinding_apply]
  cases hbindings : machine.bindings with
  | nil => exact .ok (.refl _) hsound nofun
  | cons entry rest =>
    have hknown := List.forall_mem_cons.mp (hbindings ▸ hsound.bindings)
    have hundoable := List.forall_mem_cons.mp (hbindings ▸ hsound.undoable)
    dsimp only
    split_ifs
    · have hrest : { machine with bindings := rest : Machine }.Sound :=
        { hsound with bindings := hknown.2, undoable := hundoable.2 }
      refine .ok (.refl machine.toStore) hrest ?_
      rintro _ ⟨⟩
      exact ⟨hknown.1, hundoable.1⟩
    · exact .ok (.refl _) hsound nofun

/-! ### Checkpoints -/

theorem noticeQuit : Upholds world Engine.noticeQuit Engine.noticeQuit Anything := by
  intro machine _ hsound
  refine ⟨rfl, ?_⟩
  rw [noticeQuit_apply]
  have hreceived : machine.receiveQuit.Sound := { hsound with }
  split_ifs
  · have hafter : { machine.receiveQuit with quitPending := false }.Sound := { hreceived with }
    exact .signal (.refl machine.toStore) hafter
      (.pair (hsound.store.builtin rfl) hsound.store.known_nil)
  · exact .ok (.refl _) hreceived trivial

theorem checkpoint (backward : Bool) :
    Upholds world (Engine.checkpoint backward) (Engine.checkpoint backward) Anything := by
  have hoffer : Storage.Upholds world (modifyHeap Heap.offerCollection) Anything := by
    refine .changing (fun _ ↦ rfl) fun store _ hsound ↦ ?_
    have hobjects : store.heap.offerCollection.objects = store.heap.objects := by
      unfold Heap.offerCollection
      split_ifs <;> rfl
    have hsame : store.heap.offerCollection.kinds = store.heap.kinds := by
      unfold Heap.kinds
      rw [hobjects]
    have hkinds : store.heap.kinds <+: store.heap.offerCollection.kinds :=
      hsame ▸ List.prefix_rfl
    refine ⟨hsound.with_heap hkinds ?_ ?_, .of_heap hkinds, trivial⟩
    · intro object hmem
      exact .inl (hobjects ▸ hmem)
    · intro address
      unfold Heap.attachment?
      rw [hobjects]
  unfold Engine.checkpoint
  split_ifs
  · exact bind (stored hoffer) fun _ _ _ _ _ ↦ noticeQuit
  · exact noticeQuit

/-! ### Handlers -/

theorem pushHandler {handler : Handler} (htag : handler.tag.KnownTo world) :
    Upholds world (Engine.pushHandler handler) (Engine.pushHandler handler) Anything :=
  changing (fun _ ↦ rfl) fun machine hgrows hsound ↦
    ⟨{ hsound with
        handlers := List.forall_mem_cons.mpr ⟨hgrows.known htag, hsound.handlers⟩ },
      .refl machine.toStore, trivial⟩

theorem truncateHandlers (count : Nat) :
    Upholds world (Engine.truncateHandlers count) (Engine.truncateHandlers count) Anything :=
  changing (fun _ ↦ rfl) fun machine _ hsound ↦
    ⟨{ hsound with
        handlers := fun handler hmem ↦ hsound.handlers handler (List.drop_subset _ _ hmem) },
      .refl machine.toStore, trivial⟩

theorem setHandlers {handlers : HandlerStack}
    (htags : AllKnownTo (handlers.map Handler.tag) world) :
    Upholds world (Engine.setHandlers handlers) (Engine.setHandlers handlers) Anything :=
  changing (fun _ ↦ rfl) fun machine hgrows hsound ↦
    ⟨{ hsound with
        handlers := fun _ hmem ↦ hgrows.known (htags _ (List.mem_map_of_mem hmem)) },
      .refl machine.toStore, trivial⟩

theorem findHandler (base : Nat) (signal : Signal) :
    Upholds world (Engine.findHandler base signal) (Engine.findHandler base signal)
      fun found store ↦ ∀ pair ∈ found,
        AllKnownTo ((pair.1 :: pair.2).map Handler.tag) store := by
  refine bind (stored (.signalConditions signal)) fun conditions later _ _ _ ↦ ?_
  refine reading_bind (fun _ ↦ rfl) fun machine _ hsound ↦ at_start ?_ hsound
  refine bind (stored (.innermostMatch signal conditions machine.handlers))
    fun found last hlast _ hfound ↦ ?_
  cases found with
  | none => exact pure fun _ _ _ ↦ nofun
  | some pair =>
    refine pure fun store hgrows _ ↦ ?_
    have htags : AllKnownTo ((pair.1 :: pair.2).map Handler.tag) store := by
      intro tag hmem
      obtain ⟨handler, hhandler, rfl⟩ := List.mem_map.mp hmem
      exact hgrows.known (hlast.known
        (hsound.handlers handler ((hfound pair.1 pair.2 rfl).subset hhandler)))
    split_ifs
    · rintro _ ⟨⟩
      exact htags
    · exact nofun

theorem throwTo {tag value : Value} (htag : tag.KnownTo world) (hvalue : value.KnownTo world)
    {gives : α → Store → Prop} :
    Upholds world (Engine.throwTo tag value : Engine α) (Engine.throwTo tag value) gives := by
  unfold Engine.throwTo
  refine reading_bind (fun _ ↦ rfl) fun machine hgrows hsound ↦ at_start ?_ hsound
  split_ifs
  · exact signal (.pair (hgrows.known htag) (hgrows.known hvalue))
  · exact stored (.error rfl (.pair (hgrows.known htag) (hgrows.known hvalue)))

/-! ### Entries about buffers -/

theorem saveCurrentBuffer :
    Upholds world Engine.saveCurrentBuffer Engine.saveCurrentBuffer Value.KnownTo := by
  refine reading_bind (fun _ ↦ rfl) fun machine _ hsound ↦ at_start ?_ hsound
  exact bind (logBinding .nil (hsound.store.current hsound.scratch)) fun _ _ _ _ _ ↦ nil

end Engine.Upholds

/-- A marker is made in a machine. -/
theorem Machine.Sound.addMarker {machine : Machine} (hsound : machine.Sound) {index position : Nat}
    (hindex : machine.HasBuffer index) (hpos : 1 ≤ position)
    (hend : position ≤ (machine.buffers.get index).textEnd) :
    ∃ (marker : Value) (after : Machine),
      (liftM (makeMarker index position) : Engine Value) machine = .ok marker after ∧
        after.Sound ∧ machine.toStore.Grows after.toStore ∧ marker.KnownTo after.toStore ∧
        ∀ place, (after.buffers.get place).textEnd = (machine.buffers.get place).textEnd := by
  obtain ⟨hafter, hgrows, hknown⟩ := hsound.store.addMarker hindex hpos hend
  exact ⟨_, _, rfl, hsound.with_store hgrows hafter, hgrows, hknown,
    (BufferStore.SameButMarkers.update machine.buffers index (machine.heap.size :: ·)).textEnd⟩

namespace Engine

/-- Go on from the machine in which an action has given its result. -/
theorem UpholdsAt.of_ok {machine after : Machine} {action : Engine α} {result : α}
    {next next' : α → Engine β} {gives : β → Store → Prop}
    (hrun : action machine = .ok result after) (hgrows : machine.toStore.Grows after.toStore)
    (hnext : UpholdsAt after (next result) (next' result) gives) :
    UpholdsAt machine (action >>= next) (action >>= next') gives := by
  change EStateM.bind action next' machine = EStateM.bind action next machine ∧
    EndsSound machine gives (EStateM.bind action next machine)
  unfold EStateM.bind
  rw [hrun]
  exact ⟨hnext.1, hnext.2.trans hgrows⟩

namespace Upholds

variable {world : Store}

/-- The point of the current buffer is a position in its text. -/
theorem saveExcursion : Upholds world Engine.saveExcursion Engine.saveExcursion Value.KnownTo := by
  intro machine _ hsound
  have hcurrent := hsound.store.current hsound.scratch
  have hordered := hsound.store.buffers.get machine.buffers.currentIndex
  obtain ⟨point, after, hrun, hafter, hgrows, hknown, -⟩ := hsound.addMarker hcurrent
    (Nat.le_trans hordered.start_pos hordered.start_le)
    (Nat.le_trans hordered.point_le hordered.finish_le)
  refine .of_ok rfl (.refl _) (.of_ok rfl (.refl _) (.of_ok hrun hgrows ?_))
  exact at_start (bind (logBinding (.cons hknown .nil) (hgrows.hasBuffer hcurrent))
    fun _ _ _ _ _ ↦ nil) hafter

/-- The bounds of the accessible part are positions in the text, and making a marker at the first
one leaves the text as it is. -/
theorem saveRestriction :
    Upholds world Engine.saveRestriction Engine.saveRestriction Value.KnownTo := by
  intro machine _ hsound
  have hcurrent := hsound.store.current hsound.scratch
  have hordered := hsound.store.buffers.get machine.buffers.currentIndex
  refine .of_ok rfl (.refl _) (.of_ok rfl (.refl _) ?_)
  dsimp only
  split_ifs
  · obtain ⟨low, first, hlow, hfirst, hgrows, hlowKnown, htext⟩ := hsound.addMarker hcurrent
      hordered.start_pos
      (Nat.le_trans hordered.start_le (Nat.le_trans hordered.point_le hordered.finish_le))
    have hfinish : 1 ≤ machine.buffers.current.finish :=
      Nat.le_trans hordered.start_pos (Nat.le_trans hordered.start_le hordered.point_le)
    obtain ⟨high, second, hhigh, hsecond, hlater, hhighKnown, -⟩ :=
      hfirst.addMarker (hgrows.hasBuffer hcurrent) hfinish (htext _ ▸ hordered.finish_le)
    refine .of_ok hlow hgrows (.of_ok hhigh hlater ?_)
    exact at_start (bind (logBinding (.pair (hlater.known hlowKnown) hhighKnown) trivial)
      fun _ _ _ _ _ ↦ nil) hsecond
  · exact at_start (bind (logBinding .nil trivial) fun _ _ _ _ _ ↦ nil) hsound

theorem unwindProtect {handler : Value} (hhandler : handler.KnownTo world) :
    Upholds world (Engine.unwindProtect handler) (Engine.unwindProtect handler) Value.KnownTo :=
  bind (logBinding (.cons hhandler .nil) trivial) fun _ _ _ _ _ ↦ nil

theorem openOutputBuffer {name : Value} (hname : name.KnownTo world) :
    Upholds world (Engine.openOutputBuffer name) (Engine.openOutputBuffer name) Value.KnownTo := by
  refine bind (stored (.stringArgument hname)) fun text first _ _ _ ↦ ?_
  refine bind (stored (.bufferNamed text)) fun buffer second _ _ hbuffer ↦ ?_
  refine bind (stored (.bufferIndex hbuffer)) fun index third hthird _ hindex ↦ ?_
  refine bind (stored (.withBuffer hindex .eraseBuffer)) fun _ fourth hfourth hsound _ ↦ ?_
  have hknown : buffer.KnownTo fourth := hfourth.known (hthird.known hbuffer)
  refine bind (bindVariable (hsound.builtin rfl) hknown) fun _ _ hlast _ _ ↦ ?_
  exact value (hlast.known hknown)

end Upholds

end Engine

/-- What becomes of a signal: a handler with its tag receives the payload, or it goes on. -/
def Disposition.values : Disposition → List Value
  | .resume handler payload => [handler.tag, payload]
  | .propagate reason => reason.values

/-- The value of a body, or the payload that its handler received. -/
def BodyOutcome.value : BodyOutcome → Value
  | .returned value | .caught value => value

namespace Engine

/-! ### Unwinding -/

namespace Upholds

variable {caller companion : Caller} (hcallers : SoundCallers caller companion) {world : Store}

include hcallers

theorem runUnwindForm {handler : Value} (hhandler : handler.KnownTo world) :
    Upholds world (Engine.runUnwindForm caller handler) (Engine.runUnwindForm companion handler)
      Anything := by
  refine reading_bind (fun _ ↦ rfl) fun machine hgrows hsound ↦ at_start ?_ hsound
  have hknown := hgrows.known hhandler
  split_ifs
  · exact bind (apply hcallers hknown .nil) fun _ _ _ _ _ ↦ done
  · refine bind (stored (.cons (hsound.store.builtin rfl) hknown)) fun body _ _ _ hbody ↦ ?_
    exact bind (eval hcallers hbody) fun _ _ _ _ _ ↦ done

/-- An entry of the log can be undone without a check. -/
theorem undo {entry : BindingEntry} (hvalues : AllKnownTo entry.values world)
    (hundoable : entry.Undoable world) :
    Upholds world (Engine.undo caller entry) (Engine.undo companion entry) Anything := by
  cases entry with
  | binding symbol old =>
    exact stored (.setCell hundoable (List.forall_mem_cons.mp hvalues).2)
  | unwindProtect handler =>
    exact runUnwindForm hcallers (hvalues handler (by simp [BindingEntry.values]))
  | excursion buffer point =>
    exact stored (.restoreExcursion hundoable (hvalues point (by simp [BindingEntry.values])))
  | currentBuffer buffer => exact stored (.setCurrentBuffer hundoable)
  | restriction buffer bounds =>
    cases bounds with
    | none =>
      exact stored (.moveInBuffer buffer (fun _ ↦ ⟨rfl, rfl, rfl, rfl⟩) fun _ hordered ↦
        hordered.widen)
    | some bounds =>
      exact stored (.restoreBounds buffer (hvalues bounds.1 (by simp [BindingEntry.values]))
        (hvalues bounds.2 (by simp [BindingEntry.values])))

theorem unwindFrom (mark : BindingMark) (rounds : Nat) {met : Option Signal}
    (hmet : ∀ signal ∈ met, AllKnownTo signal.values world) :
    Upholds world (Engine.unwindFrom caller mark rounds met)
      (Engine.unwindFrom companion mark rounds met)
      fun first store ↦ ∀ signal ∈ first, AllKnownTo signal.values store := by
  induction rounds generalizing world met with
  | zero => exact exhausted
  | succ rounds ih =>
    refine bind (takeBinding mark) fun taken later hlater _ htaken ↦ ?_
    have hmet : ∀ signal ∈ met, AllKnownTo signal.values later :=
      fun signal hmem ↦ hlater.allKnown (hmet signal hmem)
    cases taken with
    | none => exact pure fun _ hgrows _ signal hmem ↦ hgrows.allKnown (hmet signal hmem)
    | some entry =>
      obtain ⟨hvalues, hundoable⟩ := htaken entry rfl
      refine attempt_bind hcallers (undo hcallers hvalues hundoable) ?_ ?_
      · exact fun _ last hlast _ _ ↦ ih fun signal hmem ↦ hlast.allKnown (hmet signal hmem)
      · intro reason last hlast _ hreason
        refine bind (keepFirst hcallers (fun signal hmem ↦ hlast.allKnown (hmet signal hmem))
          hreason) fun kept _ _ _ hkept ↦ ih ?_
        rintro _ ⟨⟩
        exact hkept

theorem unbindTo (mark : BindingMark) :
    Upholds world (Engine.unbindTo caller mark) (Engine.unbindTo companion mark) Anything := by
  unfold Engine.unbindTo
  rw [hcallers.rounds]
  refine reading_bind (fun _ ↦ rfl) fun machine _ hsound ↦ at_start ?_ hsound
  refine bind (unwindFrom hcallers mark _ nofun) fun first _ _ _ hfirst ↦ ?_
  cases first with
  | none => exact done
  | some reason => exact signal (hfirst reason rfl)

theorem unbind (count : Nat) :
    Upholds world (Engine.unbind caller count) (Engine.unbind companion count) Anything := by
  refine bind (observe hcallers .nil) fun _ _ _ _ _ ↦ ?_
  exact reading_bind (fun _ ↦ rfl) fun machine _ hsound ↦ at_start (unbindTo hcallers _) hsound

theorem unwindingTo (mark : BindingMark) {first second : Engine Value}
    (haction : Upholds world first second Value.KnownTo) :
    Upholds world (Engine.unwindingTo caller mark first) (Engine.unwindingTo companion mark second)
      Value.KnownTo := by
  refine attempt_bind hcallers haction ?_ ?_
  · intro result later _ _ hresult
    refine attempt_bind hcallers (unbindTo hcallers mark) ?_ ?_
    · exact fun _ _ hgrows _ _ ↦ value (hgrows.known hresult)
    · exact fun reason _ _ _ hreason ↦ signal hreason
  · intro reason later _ _ hreason
    refine attempt_bind hcallers (unbindTo hcallers mark) ?_ ?_
    · exact fun _ _ hgrows _ _ ↦ signal (hgrows.allKnown hreason)
    · intro next _ hgrows _ hnext
      refine bind (keepFirst hcallers ?_ hnext) fun kept _ _ _ hkept ↦ signal hkept
      rintro _ ⟨⟩
      exact hgrows.allKnown hreason

/-! ### Dispatching -/

theorem dispatchWithin (base rounds : Nat) {signal : Signal}
    (hsignal : AllKnownTo signal.values world) :
    Upholds world (Engine.dispatchWithin caller base rounds signal)
      (Engine.dispatchWithin companion base rounds signal)
      fun disposition ↦ AllKnownTo disposition.values := by
  induction rounds generalizing world signal with
  | zero => exact exhausted
  | succ rounds ih =>
    refine bind (findHandler base signal) fun found later hlater _ hfound ↦ ?_
    have hsignal := hlater.allKnown hsignal
    cases found with
    | none => exact pure fun _ hgrows _ ↦ hgrows.allKnown hsignal
    | some pair =>
      obtain ⟨handler, outer⟩ := pair
      obtain ⟨htag, houter⟩ := List.forall_mem_cons.mp (hfound _ rfl)
      refine bind (observe hcallers (.cons htag hsignal)) fun _ first hfirst _ _ ↦ ?_
      refine bind (setHandlers (hfirst.allKnown houter)) fun _ second hsecond _ _ ↦ ?_
      refine attempt_bind hcallers (unbindTo hcallers handler.mark) ?_ ?_
      · intro _ third hthird _ _
        have hgrows := hfirst.trans (hsecond.trans hthird)
        refine bind (stored (.signalPayload (hgrows.allKnown hsignal)))
          fun payload fourth hfourth _ hpayload ↦ ?_
        cases payload with
        | none => exact pure fun _ hlast _ ↦ (hgrows.trans (hfourth.trans hlast)).allKnown hsignal
        | some payload =>
          refine pure fun _ hlast _ ↦ .pair ?_ (hlast.known (hpayload payload (by simp)))
          exact (hgrows.trans (hfourth.trans hlast)).known htag
      · exact fun next _ _ _ hnext ↦ ih hnext

theorem dispatch (base : Nat) {signal : Signal} (hsignal : AllKnownTo signal.values world) :
    Upholds world (Engine.dispatch caller base signal) (Engine.dispatch companion base signal)
      fun disposition ↦ AllKnownTo disposition.values := by
  unfold Engine.dispatch
  rw [hcallers.rounds]
  refine reading_bind (fun _ ↦ rfl) fun machine hgrows hsound ↦ at_start ?_ hsound
  exact dispatchWithin hcallers base _ (hgrows.allKnown hsignal)

theorem withHandler (kind : HandlerKind) {tag : Value} (htag : tag.KnownTo world)
    {first second : Engine Value} (hbody : Upholds world first second Value.KnownTo) :
    Upholds world (Engine.withHandler caller kind tag first)
      (Engine.withHandler companion kind tag second) fun outcome ↦ outcome.value.KnownTo := by
  refine reading_bind (fun _ ↦ rfl) fun machine hmachine hsound ↦ at_start ?_ hsound
  refine reading_bind (fun _ ↦ rfl) fun machine' hmachine' hsound ↦ at_start ?_ hsound
  have hgrows := hmachine.trans hmachine'
  refine bind (pushHandler (hgrows.known htag)) fun _ later hlater _ _ ↦ ?_
  refine attempt_bind hcallers (hbody.later (hgrows.trans hlater)) ?_ ?_
  · intro value after _ _ hvalue
    refine bind (truncateHandlers _) fun _ _ hlast _ _ ↦ pure fun _ hgrows _ ↦ ?_
    exact hgrows.known (hlast.known hvalue)
  · intro reason after _ _ hreason
    refine bind (dispatch hcallers _ hreason) fun disposition _ _ _ hdisposition ↦ ?_
    refine bind (truncateHandlers _) fun _ _ hlast _ _ ↦ ?_
    cases disposition with
    | resume handler payload =>
      refine pure fun _ hgrows _ ↦ hgrows.known (hlast.known (hdisposition payload ?_))
      simp [Disposition.values]
    | propagate reason => exact signal (hlast.allKnown hdisposition)

theorem catchIn {tag : Value} (htag : tag.KnownTo world) {first second : Engine Value}
    (hbody : Upholds world first second Value.KnownTo) :
    Upholds world (Engine.catchIn caller tag first) (Engine.catchIn companion tag second)
      Value.KnownTo := by
  refine bind (withHandler hcallers .catching htag hbody) fun outcome _ _ _ houtcome ↦ ?_
  cases outcome with
  | returned | caught => exact value houtcome

/-! ### Evaluation -/

theorem evaluateEach {last : Value} (hlast : last.KnownTo world) {forms : List Value}
    (hforms : AllKnownTo forms world) :
    Upholds world (Engine.evaluateEach caller last forms)
      (Engine.evaluateEach companion last forms) Value.KnownTo := by
  induction forms generalizing world last with
  | nil => exact value hlast
  | cons form forms ih =>
    obtain ⟨hform, hforms⟩ := List.forall_mem_cons.mp hforms
    exact bind (eval hcallers hform) fun _ _ hgrows _ hvalue ↦ ih hvalue (hgrows.allKnown hforms)

theorem progn {body : Value} (hbody : body.KnownTo world) :
    Upholds world (Engine.progn caller body) (Engine.progn companion body) Value.KnownTo :=
  bind (stored (.elements hbody)) fun _ _ _ hsound hforms ↦
    evaluateEach hcallers hsound.known_nil hforms

theorem withBindings {bindings bindings' : Engine Unit}
    (hbindings : Upholds world bindings bindings' Anything) {body : Value}
    (hbody : body.KnownTo world) :
    Upholds world (Engine.withBindings caller bindings body)
      (Engine.withBindings companion bindings' body) Value.KnownTo := by
  refine reading_bind (fun _ ↦ rfl) fun machine hmachine hsound ↦ at_start ?_ hsound
  refine unwindingTo hcallers _ (bind (hbindings.later hmachine) fun _ _ hgrows _ _ ↦ ?_)
  exact progn hcallers (hgrows.known (hmachine.known hbody))

theorem evaluateAnd {last : Value} (hlast : last.KnownTo world) {forms : List Value}
    (hforms : AllKnownTo forms world) :
    Upholds world (Engine.evaluateAnd caller last forms)
      (Engine.evaluateAnd companion last forms) Value.KnownTo := by
  induction forms generalizing world last with
  | nil => exact value hlast
  | cons form forms ih =>
    obtain ⟨hform, hforms⟩ := List.forall_mem_cons.mp hforms
    refine bind (eval hcallers hform) fun result _ hgrows _ hresult ↦ ?_
    split_ifs
    · exact value hresult
    · exact ih hresult (hgrows.allKnown hforms)

theorem evaluateOr {forms : List Value} (hforms : AllKnownTo forms world) :
    Upholds world (Engine.evaluateOr caller forms) (Engine.evaluateOr companion forms)
      Value.KnownTo := by
  induction forms generalizing world with
  | nil => exact nil
  | cons form forms ih =>
    obtain ⟨hform, hforms⟩ := List.forall_mem_cons.mp hforms
    refine bind (eval hcallers hform) fun result _ hgrows _ hresult ↦ ?_
    split_ifs
    · exact ih (hgrows.allKnown hforms)
    · exact value hresult

theorem evaluateCond {clauses : List Value} (hclauses : AllKnownTo clauses world) :
    Upholds world (Engine.evaluateCond caller clauses) (Engine.evaluateCond companion clauses)
      Value.KnownTo := by
  induction clauses generalizing world with
  | nil => exact nil
  | cons clause clauses ih =>
    obtain ⟨hclause, hclauses⟩ := List.forall_mem_cons.mp hclauses
    refine bind (stored (.car hclause)) fun test first hfirst _ htest ↦ ?_
    refine bind (eval hcallers htest) fun result second hsecond _ hresult ↦ ?_
    split_ifs
    · exact ih (hsecond.allKnown (hfirst.allKnown hclauses))
    · refine bind (stored (.cdr (hsecond.known (hfirst.known hclause))))
        fun body third hthird _ hbody ↦ ?_
      split_ifs
      · exact value (hthird.known hresult)
      · exact progn hcallers hbody

theorem evaluateWhile {test body : Value} (htest : test.KnownTo world)
    (hbody : body.KnownTo world) (rounds : Nat) :
    Upholds world (Engine.evaluateWhile caller test body rounds)
      (Engine.evaluateWhile companion test body rounds) Value.KnownTo := by
  induction rounds generalizing world with
  | zero => exact exhausted
  | succ rounds ih =>
    refine bind (eval hcallers htest) fun result first hfirst _ _ ↦ ?_
    split_ifs
    · exact nil
    · refine bind (progn hcallers (hfirst.known hbody)) fun _ second hsecond _ _ ↦ ?_
      refine bind (checkpoint true) fun _ third hthird _ _ ↦ ?_
      have hgrows := hfirst.trans (hsecond.trans hthird)
      exact ih (hgrows.known htest) (hgrows.known hbody)

theorem evaluateSetq {last : Value} (hlast : last.KnownTo world) {items : List Value}
    (hitems : AllKnownTo items world) :
    Upholds world (Engine.evaluateSetq caller last items) (Engine.evaluateSetq companion last items)
      Value.KnownTo := by
  fun_induction Engine.evaluateSetq caller last items generalizing world with
  | case1 last => exact value hlast
  | case2 last symbol =>
    refine here fun machine hgrows hsound ↦ ?_
    refine bind (eval hcallers hsound.store.known_nil) fun result first hfirst _ hresult ↦ ?_
    have hsymbol : symbol.KnownTo first := hfirst.known (hgrows.known (hitems symbol (by simp)))
    exact bind (stored (.assign hsymbol hresult)) fun _ _ hsecond _ _ ↦
      value (hsecond.known hresult)
  | case3 last symbol form rest ih =>
    obtain ⟨hsymbol, hitems⟩ := List.forall_mem_cons.mp hitems
    obtain ⟨hform, hrest⟩ := List.forall_mem_cons.mp hitems
    refine bind (eval hcallers hform) fun result first hfirst _ hresult ↦ ?_
    refine bind (stored (.assign (hfirst.known hsymbol) hresult)) fun _ second hsecond _ _ ↦ ?_
    exact ih result (hsecond.known hresult) (hsecond.allKnown (hfirst.allKnown hrest))

theorem evaluateBindings {items : List Value} (hitems : AllKnownTo items world) :
    Upholds world (Engine.evaluateBindings caller items) (Engine.evaluateBindings companion items)
      fun bindings store ↦ ∀ binding ∈ bindings,
        binding.1.KnownTo store ∧ binding.2.KnownTo store := by
  induction items generalizing world with
  | nil => exact pure fun _ _ _ ↦ nofun
  | cons item items ih =>
    obtain ⟨hitem, hitems⟩ := List.forall_mem_cons.mp hitems
    refine bind (stored (.bindingParts hitem)) fun parts first hfirst _ hparts ↦ ?_
    refine bind (eval hcallers hparts.2) fun result second hsecond _ hresult ↦ ?_
    refine bind (ih (hsecond.allKnown (hfirst.allKnown hitems))) fun rest third hthird _ hrest ↦ ?_
    refine pure fun _ hgrows _ ↦ List.forall_mem_cons.mpr ⟨?_, ?_⟩
    · have hlater := hthird.trans hgrows
      exact ⟨hlater.known (hsecond.known hparts.1), hlater.known hresult⟩
    · exact fun binding hmem ↦
        ⟨hgrows.known (hrest binding hmem).1, hgrows.known (hrest binding hmem).2⟩

omit hcallers in
theorem forM_bindVariable {bindings : List (Value × Value)}
    (hbindings : ∀ binding ∈ bindings, binding.1.KnownTo world ∧ binding.2.KnownTo world) :
    Upholds world (bindings.forM fun (symbol, value) ↦ Engine.bindVariable symbol value)
      (bindings.forM fun (symbol, value) ↦ Engine.bindVariable symbol value) Anything := by
  induction bindings generalizing world with
  | nil => exact done
  | cons binding bindings ih =>
    obtain ⟨hbinding, hbindings⟩ := List.forall_mem_cons.mp hbindings
    exact bind (bindVariable hbinding.1 hbinding.2) fun _ _ hgrows _ _ ↦ ih fun other hmem ↦
      ⟨hgrows.known (hbindings other hmem).1, hgrows.known (hbindings other hmem).2⟩

theorem bindInOrder {items : List Value} (hitems : AllKnownTo items world) :
    Upholds world (Engine.bindInOrder caller items) (Engine.bindInOrder companion items)
      Anything := by
  induction items generalizing world with
  | nil => exact done
  | cons item items ih =>
    obtain ⟨hitem, hitems⟩ := List.forall_mem_cons.mp hitems
    refine bind (stored (.bindingParts hitem)) fun parts first hfirst _ hparts ↦ ?_
    refine bind (eval hcallers hparts.2) fun result second hsecond _ hresult ↦ ?_
    refine bind (bindVariable (hsecond.known hparts.1) hresult) fun _ third hthird _ _ ↦ ?_
    exact ih ((hfirst.trans (hsecond.trans hthird)).allKnown hitems)

theorem evaluateArguments {forms : List Value} (hforms : AllKnownTo forms world) :
    Upholds world (Engine.evaluateArguments caller forms) (Engine.evaluateArguments companion forms)
      AllKnownTo := by
  induction forms generalizing world with
  | nil => exact pure fun _ _ _ ↦ .nil
  | cons form forms ih =>
    obtain ⟨hform, hforms⟩ := List.forall_mem_cons.mp hforms
    refine bind (eval hcallers hform) fun result first hfirst _ hresult ↦ ?_
    refine bind (ih (hfirst.allKnown hforms)) fun rest second hsecond _ hrest ↦ ?_
    exact pure fun _ hgrows _ ↦ hgrows.allKnown (.cons (hsecond.known hresult) hrest)

theorem evaluateSpecial (form : SpecialForm) {arguments : Value}
    (harguments : arguments.KnownTo world) :
    Upholds world (Engine.evaluateSpecial caller form arguments)
      (Engine.evaluateSpecial companion form arguments) Value.KnownTo := by
  cases form with
  | ifForm =>
    refine bind (stored (.car harguments)) fun test first hfirst _ htest ↦ ?_
    refine bind (stored (.cdr (hfirst.known harguments)))
      fun branches second hsecond _ hbranches ↦ ?_
    refine bind (eval hcallers (hsecond.known htest)) fun result third hthird _ _ ↦ ?_
    split_ifs
    · exact bind (stored (.cdr (hthird.known hbranches))) fun _ _ _ _ hbody ↦ progn hcallers hbody
    · exact bind (stored (.car (hthird.known hbranches))) fun _ _ _ _ hform ↦ eval hcallers hform
  | progOne =>
    refine bind (stored (.car harguments)) fun form first hfirst _ hform ↦ ?_
    refine bind (eval hcallers hform) fun result second hsecond _ hresult ↦ ?_
    refine bind (stored (.cdr (hsecond.known (hfirst.known harguments))))
      fun body third hthird _ hbody ↦ ?_
    refine bind (progn hcallers hbody) fun _ _ hfourth _ _ ↦ ?_
    exact value (hfourth.known (hthird.known hresult))
  | andForm =>
    exact bind (stored (.elements harguments)) fun _ _ _ hsound hforms ↦
      evaluateAnd hcallers (hsound.known_ofBool true) hforms
  | orForm =>
    exact bind (stored (.elements harguments)) fun _ _ _ _ hforms ↦ evaluateOr hcallers hforms
  | cond =>
    exact bind (stored (.elements harguments)) fun _ _ _ _ hclauses ↦ evaluateCond hcallers hclauses
  | whileForm =>
    refine bind (stored (.car harguments)) fun test first hfirst _ htest ↦ ?_
    refine bind (stored (.cdr (hfirst.known harguments))) fun body second hsecond _ hbody ↦ ?_
    rw [hcallers.rounds]
    exact evaluateWhile hcallers (hsecond.known htest) hbody _
  | setq =>
    exact bind (stored (.elements harguments)) fun _ _ _ hsound hitems ↦
      evaluateSetq hcallers hsound.known_nil hitems
  | letForm =>
    refine bind (stored (.car harguments)) fun items first hfirst _ hitems ↦ ?_
    refine bind (stored (.cdr (hfirst.known harguments))) fun body second hsecond _ hbody ↦ ?_
    refine bind (stored (.elements (hsecond.known hitems))) fun items third hthird _ hitems ↦ ?_
    refine bind (evaluateBindings hcallers hitems) fun bindings fourth hfourth _ hbindings ↦ ?_
    exact withBindings hcallers (forM_bindVariable hbindings) (hfourth.known (hthird.known hbody))
  | letSequential =>
    refine bind (stored (.car harguments)) fun items first hfirst _ hitems ↦ ?_
    refine bind (stored (.cdr (hfirst.known harguments))) fun body second hsecond _ hbody ↦ ?_
    refine bind (stored (.elements (hsecond.known hitems))) fun items third hthird _ hitems ↦ ?_
    exact withBindings hcallers (bindInOrder hcallers hitems) (hthird.known hbody)

theorem evaluate {form : Value} (hform : form.KnownTo world) :
    Upholds world (Engine.evaluate caller form) (Engine.evaluate companion form)
      Value.KnownTo := by
  unfold Engine.evaluate
  split
  · split_ifs
    · exact value hform
    · exact stored (.variableValue hform)
  · refine reading_bind (fun _ ↦ rfl) fun machine hgrows hsound ↦ at_start ?_ hsound
    cases hcons : machine.heap.cons? form with
    | none => exact value (hgrows.known hform)
    | some parts =>
      obtain ⟨hhead, htail⟩ := hsound.store.known_of_cons? hcons
      dsimp only
      split_ifs
      · exact stored (.car htail)
      · exact progn hcallers htail
      · refine bind (stored (.specialForm? _)) fun special first hfirst _ _ ↦ ?_
        cases special with
        | some special => exact evaluateSpecial hcallers special (hfirst.known htail)
        | none =>
          refine bind (stored (.elements (hfirst.known htail)))
            fun forms second hsecond _ hforms ↦ ?_
          refine bind (evaluateArguments hcallers hforms)
            fun arguments third hthird _ harguments ↦ ?_
          exact apply hcallers (hthird.known (hsecond.known (hfirst.known hhead))) harguments

/-! ### Applying and printing -/

theorem funcallArguments {arguments : List Value} (harguments : AllKnownTo arguments world) :
    Upholds world (Engine.funcallArguments caller arguments)
      (Engine.funcallArguments companion arguments) Value.KnownTo :=
  here fun _ hgrows hsound ↦
    have hknown := hgrows.allKnown harguments
    apply hcallers (hsound.store.known_argument hknown 0) (hknown.sublist (List.drop_subset 1 _))

theorem applySpread {arguments : List Value} (harguments : AllKnownTo arguments world) :
    Upholds world (Engine.applySpread caller arguments) (Engine.applySpread companion arguments)
      Value.KnownTo := by
  unfold Engine.applySpread
  cases hlast : arguments.getLast? with
  | none => exact nil
  | some last =>
    have hknown : last.KnownTo world := harguments last (List.mem_of_getLast? hlast)
    refine bind (stored (.elements hknown)) fun spread later hgrows hsound hspread ↦ ?_
    have hall : AllKnownTo (arguments.dropLast ++ spread) later :=
      ((hgrows.allKnown harguments).sublist (List.dropLast_subset arguments)).append hspread
    cases hwhole : arguments.dropLast ++ spread with
    | nil => exact stored (.error rfl (.pair (hsound.builtin rfl) (Value.known_ofInt 0 later)))
    | cons function rest =>
      obtain ⟨hfunction, hrest⟩ := List.forall_mem_cons.mp (hwhole ▸ hall)
      exact apply hcallers hfunction hrest

theorem printThrough {function : Value} (hfunction : function.KnownTo world) (text : List Char) :
    Upholds world (Engine.printThrough caller function text)
      (Engine.printThrough companion function text) Anything := by
  induction text generalizing world with
  | nil => exact done
  | cons c rest ih =>
    exact bind (apply hcallers hfunction (.cons (Value.known_ofChar c world) .nil))
      fun _ _ hgrows _ _ ↦ ih (hgrows.known hfunction)

theorem writeText {destination : Value} (hdestination : destination.KnownTo world)
    (text : String) :
    Upholds world (Engine.writeText caller destination text)
      (Engine.writeText companion destination text) Anything := by
  refine bind (stored (.outputDestination hdestination)) fun destination first _ _ hknown ↦ ?_
  refine reading_bind (fun _ ↦ rfl) fun machine hgrows hsound ↦ at_start ?_ hsound
  have hfunction : Upholds machine.toStore
      (do
        if (← Storage.store).isFunction destination then
          Engine.printThrough caller destination text.toList
        else Storage.writeOutput text)
      (do
        if (← Storage.store).isFunction destination then
          Engine.printThrough companion destination text.toList
        else Storage.writeOutput text) Anything := by
    refine reading_bind (fun _ ↦ rfl) fun later hlater hsound ↦ at_start ?_ hsound
    split_ifs
    · exact printThrough hcallers (hlater.known (hgrows.known hknown)) _
    · exact stored (.writeOutput text)
  cases hobject : machine.heap.get? destination with
  | none => exact hfunction
  | some object =>
    cases object with
    | buffer index =>
      exact stored (.withBuffer (hsound.store.known_of_get? hobject) (.insertText text))
    | _ => exact hfunction

theorem printTo (style : PrintStyle) {value destination : Value} (hvalue : value.KnownTo world)
    (hdestination : destination.KnownTo world) :
    Upholds world (Engine.printTo caller style value destination)
      (Engine.printTo companion style value destination) Value.KnownTo := by
  refine bind (stored (.print style value)) fun text first hfirst _ _ ↦ ?_
  refine bind (writeText hcallers (hfirst.known hdestination) text) fun _ second hsecond _ _ ↦ ?_
  exact .value (hsecond.known (hfirst.known hvalue))

/-! ### Bodies under handlers -/

theorem closeOutputBuffer {result : Value} (hresult : result.KnownTo world) :
    Upholds world (Engine.closeOutputBuffer caller result)
      (Engine.closeOutputBuffer companion result) Value.KnownTo :=
  bind (unbind hcallers 1) fun _ _ hgrows _ _ ↦ value (hgrows.known hresult)

theorem catchForm {tag body : Value} (htag : tag.KnownTo world) (hbody : body.KnownTo world) :
    Upholds world (Engine.catchForm caller tag body) (Engine.catchForm companion tag body)
      Value.KnownTo :=
  catchIn hcallers htag (eval hcallers hbody)

theorem conditionCase {variableName body handlers : Value} (hname : variableName.KnownTo world)
    (hbody : body.KnownTo world) (hhandlers : handlers.KnownTo world) :
    Upholds world (Engine.conditionCase caller variableName body handlers)
      (Engine.conditionCase companion variableName body handlers) Value.KnownTo := by
  refine bind (stored (.elements hhandlers)) fun clauses first hfirst _ hclauses ↦ ?_
  refine bind (stored (.clauseConditions hclauses)) fun named second hsecond _ hnamed ↦ ?_
  refine bind (stored (.list hnamed)) fun conditions third hthird _ hconditions ↦ ?_
  have hbody := (hfirst.trans (hsecond.trans hthird)).known hbody
  refine bind (withHandler hcallers .conditionCase hconditions (eval hcallers hbody))
    fun outcome fourth hfourth _ houtcome ↦ ?_
  cases outcome with
  | returned result => exact value houtcome
  | caught payload =>
    refine bind (stored (.car houtcome)) fun symbol fifth hfifth _ _ ↦ ?_
    refine bind (stored (.errorConditions symbol)) fun raised sixth hsixth _ _ ↦ ?_
    have hclauses := hsecond.trans (hthird.trans (hfourth.trans (hfifth.trans hsixth)))
      |>.allKnown hclauses
    refine bind (stored (.coveringClause raised hclauses)) fun clause seventh hseventh _ _ ↦ ?_
    refine reading_bind (fun _ ↦ rfl) fun machine hmachine hsound ↦ at_start ?_ hsound
    have hlater := hfifth.trans (hsixth.trans (hseventh.trans hmachine))
    refine withBindings hcallers ?_ (hsound.store.known_cdrSafe clause)
    split_ifs
    · exact done
    · refine bindVariable ?_ (hlater.known houtcome)
      exact (hfirst.trans (hsecond.trans (hthird.trans (hfourth.trans hlater)))).known hname

end Upholds

end Engine

end LispMachine
