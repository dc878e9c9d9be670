import LispMachine.Primitive.Editing
import LispMachine.Proofs.Store.Actions

/-!
Editing sound stores. Every operation on buffers and markers, the restoring of a saved point or a
saved restriction, and every primitive on buffers leaves a sound store: the point stays in the
accessible part, the accessible part in the text, and the markers where the text is.
-/

set_option autoImplicit false

namespace LispMachine

namespace Storage

variable {world : Store} {α : Type}

/-! ### Choosing and making buffers -/

namespace Upholds

theorem setCurrentBuffer {index : Nat} (hindex : world.HasBuffer index) :
    Upholds world (Storage.setCurrentBuffer index) Anything :=
  changing (fun _ ↦ rfl) fun _ hgrows hsound ↦
    have hset := hsound.setCurrent (hgrows.hasBuffer hindex)
    ⟨hset.1, hset.2, trivial⟩

/-- The object of a buffer that has been looked up or made, so there is a buffer. -/
theorem bufferNamed_exists (name : String) : Upholds world (Storage.bufferNamed name)
    fun object store ↦ object.KnownTo store ∧ store.HasBuffer 0 := by
  intro store _ hsound
  unfold Storage.bufferNamed
  rw [Action.read_bind]
  cases hfind : store.buffers.find? name with
  | some index =>
    have hindex : index < store.buffers.buffers.size :=
      (Array.findIdx?_eq_some_iff_getElem.mp hfind).1
    exact .ok (.refl store) hsound ⟨hsound.known_object index, Nat.zero_lt_of_lt hindex⟩
  | none =>
    obtain ⟨hafter, hgrows, hobject, hbuffer⟩ := hsound.addBuffer hfind
    exact .ok hgrows hafter ⟨hobject, Nat.zero_lt_of_lt hbuffer⟩

theorem bufferNamed (name : String) : Upholds world (Storage.bufferNamed name) Value.KnownTo :=
  (bufferNamed_exists name).mono fun _ _ hgives ↦ hgives.1

theorem bufferIndex {value : Value} (hvalue : value.KnownTo world) :
    Upholds world (Storage.bufferIndex value) fun index store ↦ store.HasBuffer index := by
  refine reading_bind (fun _ ↦ rfl) fun store hgrows hsound ↦ ?_
  have hwrong : Upholds store (Storage.wrongType Symbols.bufferp value : Storage Nat)
      fun index store ↦ store.HasBuffer index := wrongType rfl (hgrows.known hvalue)
  cases hobject : store.heap.get? value with
  | none => exact hwrong
  | some object =>
    cases object with
    | buffer index => exact pure fun _ hlater _ ↦ hlater.hasBuffer (hsound.known_of_get? hobject)
    | string name =>
      dsimp only
      cases hfind : store.buffers.find? name with
      | none => exact errorMessage _
      | some index =>
        have hindex : store.HasBuffer index := (Array.findIdx?_eq_some_iff_getElem.mp hfind).1
        exact pure fun _ hlater _ ↦ hlater.hasBuffer hindex
    | _ => exact hwrong

/-- An action that keeps stores sound, with another buffer current. -/
theorem withBuffer {index : Nat} (hindex : world.HasBuffer index) {action : Storage Unit}
    (haction : ∀ {world : Store}, Upholds world action Anything) :
    Upholds world (Storage.withBuffer index action) Anything := by
  refine reading_bind (fun _ ↦ rfl) fun store hgrows hsound ↦ ?_
  have hprevious : store.HasBuffer store.buffers.currentIndex :=
    hsound.current (Nat.lt_of_le_of_lt (Nat.zero_le index) (hgrows.hasBuffer hindex))
  refine bind (setCurrentBuffer (hgrows.hasBuffer hindex)) fun _ later hlater _ _ ↦ ?_
  refine bind haction fun _ last hlast _ _ ↦ ?_
  exact setCurrentBuffer (hlast.hasBuffer (hlater.hasBuffer hprevious))

/-! ### Moving in the current buffer -/

/-- A change of the current buffer in nothing but its point and the bounds of its accessible part.
-/
theorem moveInCurrent {change : Buffer → Buffer}
    (hkeeps : ∀ buffer, (change buffer).name = buffer.name ∧ (change buffer).text = buffer.text ∧
      (change buffer).markers = buffer.markers ∧ (change buffer).object = buffer.object)
    (hordered : ∀ buffer, buffer.Ordered → (change buffer).Ordered) :
    Upholds world (modifyCurrentBuffer change) Anything :=
  changing (fun _ ↦ rfl) fun store _ hsound ↦
    have hmoved := hsound.moveIn store.buffers.currentIndex hkeeps hordered
    ⟨hmoved.1, hmoved.2, trivial⟩

theorem gotoPosition (position : Nat) : Upholds world (Storage.gotoPosition position) Anything :=
  moveInCurrent (fun _ ↦ ⟨rfl, rfl, rfl, rfl⟩) fun _ hordered ↦ hordered.setPoint position

end Upholds

/-! ### Changing text -/

/-- Text is inserted at the point, and the markers behind it move on. -/
theorem insertCharacters_apply {chars : List Char} (hchars : chars.isEmpty = false)
    (store : Store) :
    insertCharacters chars store = .ok ()
      { store with
        heap := store.heap.moveMarkers store.buffers.current.markers
          (shiftForInsertion store.buffers.current.point chars.length)
        buffers := store.buffers.updateCurrent fun buffer ↦ buffer.insert chars } := by
  unfold insertCharacters
  rw [hchars]
  rfl

/-- A store without buffers has nothing to edit. -/
theorem edit_of_not_current {store : Store} (hnone : ¬store.HasBuffer store.buffers.currentIndex)
    (change : Buffer → Buffer) (move : Nat → Nat) :
    { store with
      heap := store.heap.moveMarkers store.buffers.current.markers move
      buffers := store.buffers.updateCurrent change } = store := by
  have hsize : store.buffers.buffers.size ≤ store.buffers.currentIndex := Nat.le_of_not_lt hnone
  unfold BufferStore.updateCurrent BufferStore.current
  rw [BufferStore.update_of_size_le hsize, BufferStore.get_of_size_le hsize]
  rfl

/-- Text is inserted at the point of the current buffer. -/
theorem sound_insert {store : Store} (hsound : store.Sound) (chars : List Char) :
    let after : Store := { store with
      heap := store.heap.moveMarkers store.buffers.current.markers
        (shiftForInsertion store.buffers.current.point chars.length)
      buffers := store.buffers.updateCurrent fun buffer ↦ buffer.insert chars }
    after.Sound ∧ store.Grows after := by
  intro after
  by_cases hcurrent : store.HasBuffer store.buffers.currentIndex
  · have hordered := hsound.buffers.get store.buffers.currentIndex
    have hpoint := Nat.le_trans hordered.point_le hordered.finish_le
    refine hsound.editIn hcurrent (fun _ ↦ ⟨rfl, rfl, rfl⟩) (hordered.insert chars) ?_
    intro position hpos hend
    rw [Buffer.textEnd_insert _ chars hpoint]
    unfold shiftForInsertion
    split_ifs <;> omega
  · have hsame : after = store := edit_of_not_current hcurrent _ _
    rw [hsame]
    exact ⟨hsound, .refl store⟩

/-- Text is deleted from the accessible part of the current buffer. -/
theorem sound_delete {store : Store} (hsound : store.Sound) {low high : Nat}
    (hlow : store.buffers.current.start ≤ low) (hle : low ≤ high)
    (hhigh : high ≤ store.buffers.current.finish) :
    let after : Store := { store with
      heap := store.heap.moveMarkers store.buffers.current.markers (shiftForDeletion low high)
      buffers := store.buffers.updateCurrent fun buffer ↦ buffer.delete low high }
    after.Sound ∧ store.Grows after := by
  intro after
  by_cases hcurrent : store.HasBuffer store.buffers.currentIndex
  · have hordered : store.buffers.current.Ordered := hsound.buffers.get store.buffers.currentIndex
    have hstart := Nat.le_trans hordered.start_pos hlow
    have hfinish := Nat.le_trans hhigh hordered.finish_le
    have htext := Buffer.textEnd_delete store.buffers.current hstart hle hfinish
    refine hsound.editIn hcurrent (fun _ ↦ ⟨rfl, rfl, rfl⟩) (hordered.delete hlow hle hhigh) ?_
    intro position hpos hend
    change position ≤ store.buffers.current.textEnd at hend
    change _ ∧ _ ≤ (store.buffers.current.delete low high).textEnd
    unfold shiftForDeletion
    split_ifs <;> omega
  · have hsame : after = store := edit_of_not_current hcurrent _ _
    rw [hsame]
    exact ⟨hsound, .refl store⟩

namespace Upholds

theorem insertCharacters (chars : List Char) :
    Upholds world (Storage.insertCharacters chars) Anything := by
  intro store _ hsound
  cases hchars : chars.isEmpty with
  | true =>
    unfold Storage.insertCharacters
    rw [hchars]
    exact .ok (.refl store) hsound trivial
  | false =>
    rw [insertCharacters_apply hchars]
    obtain ⟨hafter, hgrows⟩ := sound_insert hsound chars
    exact .ok hgrows hafter trivial

theorem insertText (text : String) : Upholds world (Storage.insertText text) Anything :=
  insertCharacters text.toList

theorem deleteBetween (a b : Nat) : Upholds world (Storage.deleteBetween a b) Anything := by
  intro store _ hsound
  obtain ⟨hlow, hle, hhigh⟩ := (hsound.buffers.get store.buffers.currentIndex).region a b
  obtain ⟨hafter, hgrows⟩ := sound_delete hsound hlow hle hhigh
  unfold Storage.deleteBetween
  change EndsSound store Anything ((if _ then Pure.pure () else _ : Storage Unit) store)
  split_ifs
  · exact .ok (.refl store) hsound trivial
  · exact .ok hgrows hafter trivial

theorem eraseBuffer : Upholds world Storage.eraseBuffer Anything := by
  refine bind (moveInCurrent (fun _ ↦ ⟨rfl, rfl, rfl, rfl⟩) fun _ hordered ↦ hordered.widen) ?_
  intro _ later _ _ _
  exact reading_bind (fun _ ↦ rfl) fun store _ _ ↦ deleteBetween _ _

/-! ### Markers -/

theorem makeDetachedMarker : Upholds world Storage.makeDetachedMarker Value.KnownTo :=
  allocate trivial nofun

theorem markerPosition? (value : Value) :
    Upholds world (Storage.markerPosition? value) Anything := by
  refine reading_bind (fun _ ↦ rfl) fun store _ _ ↦ ?_
  split <;> exact done

end Upholds

/-- A marker is made at a position in the text of a buffer. -/
theorem endsSound_makeMarker {store : Store} (hsound : store.Sound) {index position : Nat}
    (hindex : store.HasBuffer index) (hpos : 1 ≤ position)
    (hend : position ≤ (store.buffers.get index).textEnd) :
    EndsSound store Value.KnownTo (makeMarker index position store) := by
  obtain ⟨hafter, hgrows, hknown⟩ := hsound.addMarker hindex hpos hend
  exact .ok hgrows hafter hknown

/-- What pointing a marker somewhere does to the store. -/
theorem setMarker_apply {store : Store} {address : Nat} {marker : Marker}
    (hmarker : store.heap.marker? (.object address) = some marker) (place : Option (Nat × Nat)) :
    setMarker (.object address) place store = .ok (.object address)
      (match place with
      | some (index, position) =>
        let forgotten := store.buffers.forget marker address
        { store with
          heap := store.heap.set (.object address)
            (.marker ⟨some index, clampBetween 1 (forgotten.get index).textEnd position⟩)
          buffers := forgotten.attach index address }
      | none =>
        { store with
          heap := store.heap.set (.object address) (.marker ⟨none, 0⟩)
          buffers := store.buffers.forget marker address }) := by
  unfold setMarker
  rw [Action.read_bind, hmarker]
  obtain ⟨_ | buffer, before⟩ := marker <;> cases place <;> rfl

theorem setMarker_of_none {store : Store} {value : Value} (hnone : store.heap.marker? value = none)
    (place : Option (Nat × Nat)) :
    setMarker value place store = (wrongType Symbols.markerp value : Storage Value) store := by
  unfold setMarker
  change EStateM.bind get _ store = _
  unfold EStateM.bind
  dsimp only [get, getThe, MonadStateOf.get, EStateM.get]
  rw [hnone]

namespace Upholds

theorem setMarker {value : Value} (hvalue : value.KnownTo world) {place : Option (Nat × Nat)}
    (hplace : ∀ index position, place = some (index, position) → world.HasBuffer index) :
    Upholds world (Storage.setMarker value place) Value.KnownTo := by
  intro store hworld hsound
  cases hmarker : store.heap.marker? value with
  | none =>
    rw [setMarker_of_none hmarker]
    exact wrongType rfl (hworld.known hvalue) store (.refl store) hsound
  | some marker =>
    cases value with
    | fixnum | symbol => cases hmarker
    | object address =>
      rw [setMarker_apply hmarker]
      cases place with
      | none =>
        obtain ⟨hafter, hgrows⟩ := hsound.pointNowhere hmarker
        exact .ok hgrows hafter (hgrows.known (hworld.known hvalue))
      | some target =>
        obtain ⟨index, position⟩ := target
        obtain ⟨hafter, hgrows⟩ := hsound.pointAt hmarker
          (hworld.hasBuffer (hplace index position rfl)) position
        exact .ok hgrows hafter (hgrows.known (hworld.known hvalue))

/-! ### Restoring what was saved -/

theorem detachMarker {marker : Value} (hmarker : marker.KnownTo world) :
    Upholds world (Storage.detachMarker marker) Anything :=
  attempt_bind (setMarker hmarker nofun) (fun _ _ _ _ _ ↦ done) fun _ _ _ _ ↦ done

theorem restoreExcursion {buffer : Nat} {point : Value} (hbuffer : world.HasBuffer buffer)
    (hpoint : point.KnownTo world) :
    Upholds world (Storage.restoreExcursion buffer point) Anything := by
  refine bind (setCurrentBuffer hbuffer) fun _ later hlater _ _ ↦ ?_
  refine bind (markerPosition? point) fun position middle hmiddle _ _ ↦ ?_
  cases position with
  | none => exact detachMarker (hmiddle.known (hlater.known hpoint))
  | some position =>
    refine bind (gotoPosition position) fun _ last hlast _ _ ↦ ?_
    exact detachMarker (hlast.known (hmiddle.known (hlater.known hpoint)))

/-- A buffer is narrowed, widened or has its point moved. -/
theorem moveInBuffer (index : Nat) {change : Buffer → Buffer}
    (hkeeps : ∀ buffer, (change buffer).name = buffer.name ∧ (change buffer).text = buffer.text ∧
      (change buffer).markers = buffer.markers ∧ (change buffer).object = buffer.object)
    (hordered : ∀ buffer, buffer.Ordered → (change buffer).Ordered) :
    Upholds world (modifyBuffers fun store ↦ store.update index change) Anything :=
  changing (fun _ ↦ rfl) fun _ _ hsound ↦
    have hmoved := hsound.moveIn index hkeeps hordered
    ⟨hmoved.1, hmoved.2, trivial⟩

theorem restoreBounds (buffer : Nat) {low high : Value} (hlow : low.KnownTo world)
    (hhigh : high.KnownTo world) :
    Upholds world (Storage.restoreBounds buffer low high) Anything := by
  refine bind (markerPosition? low) fun start first hfirst _ _ ↦ ?_
  refine bind (markerPosition? high) fun finish second hsecond _ _ ↦ ?_
  refine bind (moveInBuffer buffer (fun _ ↦ ⟨rfl, rfl, rfl, rfl⟩) fun _ _ ↦
    Buffer.ordered_narrow _ _ _) fun _ third hthird _ _ ↦ ?_
  refine bind (detachMarker (by grind)) fun _ last hlast _ _ ↦ ?_
  exact detachMarker (by grind)

/-! ### The primitives on buffers -/

theorem aboutBuffer {ask : Buffer → Value}
    (hask : ∀ store : Store, store.Sound → (ask store.buffers.current).KnownTo store) :
    Upholds world (Storage.aboutBuffer ask) Value.KnownTo :=
  reading_bind (fun _ ↦ rfl) fun store _ hsound ↦ .value (hask store hsound)

theorem point : Upholds world Storage.point Value.KnownTo :=
  aboutBuffer fun store _ ↦ Value.known_ofNat _ store

theorem pointMin : Upholds world Storage.pointMin Value.KnownTo :=
  aboutBuffer fun store _ ↦ Value.known_ofNat _ store

theorem pointMax : Upholds world Storage.pointMax Value.KnownTo :=
  aboutBuffer fun store _ ↦ Value.known_ofNat _ store

/-- The character at a place that has been found. -/
theorem characterAt (place : Int) : Upholds world (do
    if place < 0 then return Value.nil
    match (← currentBuffer).charAt? place.toNat with
    | some c => return Value.ofChar c
    | none => return Value.nil : Storage Value) Value.KnownTo := by
  split_ifs
  · exact nil
  · refine reading_bind (fun _ ↦ rfl) fun store _ _ ↦ ?_
    split
    · exact ofChar _
    · exact nil

theorem charAfter {position : Value} (hposition : position.KnownTo world) :
    Upholds world (Storage.charAfter position) Value.KnownTo := by
  unfold Storage.charAfter Value.given?
  split_ifs
  · refine reading_bind (fun _ ↦ rfl) fun store _ _ ↦ ?_
    exact characterAt store.buffers.current.point
  · exact bind (positionArgument hposition) fun place _ _ _ _ ↦ characterAt place

theorem followingChar : Upholds world Storage.followingChar Value.KnownTo :=
  aboutBuffer fun store _ ↦ Value.known_ofChar _ store

theorem precedingChar : Upholds world Storage.precedingChar Value.KnownTo := by
  refine aboutBuffer fun store hsound ↦ ?_
  split_ifs
  · exact Value.known_ofChar _ store
  · exact Value.known_ofInt 0 store

theorem currentColumn : Upholds world Storage.currentColumn Value.KnownTo :=
  aboutBuffer fun store _ ↦ Value.known_ofNat _ store

theorem atLineEnd : Upholds world Storage.atLineEnd Value.KnownTo :=
  aboutBuffer fun _ hsound ↦ hsound.known_ofBool _

theorem atBufferEnd : Upholds world Storage.atBufferEnd Value.KnownTo :=
  aboutBuffer fun _ hsound ↦ hsound.known_ofBool _

theorem atLineStart : Upholds world Storage.atLineStart Value.KnownTo :=
  aboutBuffer fun _ hsound ↦ hsound.known_ofBool _

theorem atBufferStart : Upholds world Storage.atBufferStart Value.KnownTo :=
  aboutBuffer fun _ hsound ↦ hsound.known_ofBool _

theorem charSyntax {character : Value} (hcharacter : character.KnownTo world) :
    Upholds world (Storage.charSyntax character) Value.KnownTo :=
  bind (characterArgument hcharacter) fun _ _ _ _ _ ↦ ofChar _

theorem insert {values : List Value} (hvalues : AllKnownTo values world) :
    Upholds world (Storage.insert values) Value.KnownTo := by
  induction values generalizing world with
  | nil => exact nil
  | cons value values ih =>
    obtain ⟨hvalue, hvalues⟩ := List.forall_mem_cons.mp hvalues
    refine reading_bind (fun _ ↦ rfl) fun store hgrows _ ↦ ?_
    have hrest {later : Store} (hlater : store.Grows later) :
        Upholds later (Storage.insert values) Value.KnownTo :=
      ih (hlater.allKnown (hgrows.allKnown hvalues))
    have hwrong : Upholds store
        ((Storage.wrongType Symbols.charOrStringP value : Storage Unit) >>= fun _ ↦
          Storage.insert values) Value.KnownTo :=
      never_bind (wrongType rfl (hgrows.known hvalue))
    dsimp only
    split
    · exact bind (insertText _) fun _ _ hlater _ _ ↦ hrest hlater
    · refine bind (characterArgument (hgrows.known hvalue)) fun c middle hmiddle _ _ ↦ ?_
      exact bind (insertCharacters _) fun _ _ hlater _ _ ↦ hrest (hmiddle.trans hlater)
    · exact hwrong

theorem indentTo {column minimum : Value} (hcolumn : column.KnownTo world)
    (hminimum : minimum.KnownTo world) :
    Upholds world (Storage.indentTo column minimum) Value.KnownTo := by
  have hindent (wanted least : Int) {later : Store} : Upholds later (do
      let buffer ← currentBuffer
      let present : Int := buffer.columnAt buffer.point
      let target := max (present + least) wanted
      if present < target then
        Storage.insertCharacters (List.replicate (target - present).toNat ' ')
      return Value.ofInt target : Storage Value) Value.KnownTo := by
    refine reading_bind (fun _ ↦ rfl) fun store _ _ ↦ ?_
    dsimp only
    split_ifs
    · exact bind (insertCharacters _) fun _ _ _ _ _ ↦ ofInt _
    · exact ofInt _
  refine bind (fixnumArgument hcolumn) fun wanted later hlater _ _ ↦ ?_
  unfold Value.given?
  split_ifs
  · exact hindent wanted 0
  · exact bind (fixnumArgument (hlater.known hminimum)) fun least _ _ _ _ ↦ hindent wanted least

theorem regionArguments {start finish : Value} (hstart : start.KnownTo world)
    (hfinish : finish.KnownTo world) :
    Upholds world (Storage.regionArguments start finish) Anything := by
  refine bind (positionArgument hstart) fun a first hfirst _ _ ↦ ?_
  refine bind (positionArgument (hfirst.known hfinish)) fun b second hsecond _ _ ↦ ?_
  refine reading_bind (fun _ ↦ rfl) fun store hgrows _ ↦ ?_
  dsimp only
  split_ifs
  · exact never_bind (argsOutOfRange (by grind) (by grind))
  · exact done

theorem bufferString : Upholds world Storage.bufferString Value.KnownTo :=
  reading_bind (fun _ ↦ rfl) fun _ _ _ ↦ makeString _

theorem bufferSubstring {start finish : Value} (hstart : start.KnownTo world)
    (hfinish : finish.KnownTo world) :
    Upholds world (Storage.bufferSubstring start finish) Value.KnownTo :=
  bind (regionArguments hstart hfinish) fun _ _ _ _ _ ↦
    reading_bind (fun _ ↦ rfl) fun _ _ _ ↦ makeString _

theorem deleteRegion {start finish : Value} (hstart : start.KnownTo world)
    (hfinish : finish.KnownTo world) :
    Upholds world (Storage.deleteRegion start finish) Value.KnownTo :=
  bind (regionArguments hstart hfinish) fun _ _ _ _ _ ↦
    bind (deleteBetween _ _) fun _ _ _ _ _ ↦ nil

theorem erase : Upholds world Storage.erase Value.KnownTo :=
  bind eraseBuffer fun _ _ _ _ _ ↦ nil

theorem gotoChar {position : Value} (hposition : position.KnownTo world) :
    Upholds world (Storage.gotoChar position) Value.KnownTo := by
  refine bind (positionArgument hposition) fun place later hlater _ _ ↦ ?_
  exact bind (gotoPosition _) fun _ _ hlast _ _ ↦ .value (hlast.known (hlater.known hposition))

theorem forwardChar {count : Value} (hcount : count.KnownTo world) :
    Upholds world (Storage.forwardChar count) Value.KnownTo := by
  have hstops {symbol : Value} (hsymbol : symbol.isBuiltin = true) (position : Nat)
      (next : Storage Value) {later : Store} :
      Upholds later (do
        Storage.gotoPosition position
        (Action.signal ⟨symbol, .nil⟩ : Storage Unit)
        next) Value.KnownTo := by
    refine bind (gotoPosition position) fun _ _ _ _ _ ↦ never_bind (signal fun _ _ hsound ↦ ?_)
    exact ⟨hsound.builtin hsymbol, hsound.known_nil⟩
  refine bind (countArgument hcount) fun n later _ _ _ ↦ ?_
  refine reading_bind (fun _ ↦ rfl) fun store _ _ ↦ ?_
  dsimp only
  split
  · exact hstops rfl _ _
  · split
    · exact hstops rfl _ _
    · exact bind (gotoPosition _) fun _ _ _ _ _ ↦ nil

theorem forwardWord {count : Value} (hcount : count.KnownTo world) :
    Upholds world (Storage.forwardWord count) Value.KnownTo := by
  refine bind (countArgument hcount) fun n later _ _ _ ↦ ?_
  refine reading_bind (fun _ ↦ rfl) fun store _ _ ↦ ?_
  exact bind (gotoPosition _) fun _ _ _ _ _ ↦ ofBool _

theorem moveByLines (count : Int) : Upholds world (Storage.moveByLines count) Anything := by
  refine reading_bind (fun _ ↦ rfl) fun store _ _ ↦ ?_
  exact bind (gotoPosition _) fun _ _ _ _ _ ↦ done

theorem forwardLine {count : Value} (hcount : count.KnownTo world) :
    Upholds world (Storage.forwardLine count) Value.KnownTo :=
  bind (countArgument hcount) fun n _ _ _ _ ↦ bind (moveByLines n) fun _ _ _ _ _ ↦ ofInt _

theorem beginningOfLine {count : Value} (hcount : count.KnownTo world) :
    Upholds world (Storage.beginningOfLine count) Value.KnownTo :=
  bind (countArgument hcount) fun _ _ _ _ _ ↦ bind (moveByLines _) fun _ _ _ _ _ ↦ nil

theorem endOfLine {count : Value} (hcount : count.KnownTo world) :
    Upholds world (Storage.endOfLine count) Value.KnownTo := by
  have hend {later : Store} : Upholds later (do
      modifyCurrentBuffer fun buffer ↦ buffer.setPoint (buffer.lineEnd buffer.point)
      return Value.nil : Storage Value) Value.KnownTo :=
    bind (moveInCurrent (fun _ ↦ ⟨rfl, rfl, rfl, rfl⟩) fun _ hordered ↦ hordered.setPoint _)
      fun _ _ _ _ _ ↦ nil
  refine bind (countArgument hcount) fun n later _ _ _ ↦ ?_
  dsimp only
  split_ifs
  · exact bind (moveByLines _) fun _ _ _ _ _ ↦ hend
  · exact hend

theorem skipArguments {spelling limit : Value} (hspelling : spelling.KnownTo world)
    (hlimit : limit.KnownTo world) :
    Upholds world (Storage.skipArguments spelling limit) Anything := by
  refine bind (stringArgument hspelling) fun text later hlater _ _ ↦ ?_
  unfold Value.given?
  dsimp only
  split_ifs
  · exact done
  · exact bind (positionArgument (hlater.known hlimit)) fun _ _ _ _ _ ↦ done

theorem skipCharsForward {spelling limit : Value} (hspelling : spelling.KnownTo world)
    (hlimit : limit.KnownTo world) :
    Upholds world (Storage.skipCharsForward spelling limit) Value.KnownTo := by
  refine bind (skipArguments hspelling hlimit) fun parsed later _ _ _ ↦ ?_
  refine reading_bind (fun _ ↦ rfl) fun store _ _ ↦ ?_
  exact bind (gotoPosition _) fun _ _ _ _ _ ↦ ofInt _

theorem skipCharsBackward {spelling limit : Value} (hspelling : spelling.KnownTo world)
    (hlimit : limit.KnownTo world) :
    Upholds world (Storage.skipCharsBackward spelling limit) Value.KnownTo := by
  refine bind (skipArguments hspelling hlimit) fun parsed later _ _ _ ↦ ?_
  refine reading_bind (fun _ ↦ rfl) fun store _ _ ↦ ?_
  exact bind (gotoPosition _) fun _ _ _ _ _ ↦ ofInt _

theorem narrowToRegion {start finish : Value} (hstart : start.KnownTo world)
    (hfinish : finish.KnownTo world) :
    Upholds world (Storage.narrowToRegion start finish) Value.KnownTo := by
  refine bind (positionArgument hstart) fun a first hfirst _ _ ↦ ?_
  refine bind (positionArgument (hfirst.known hfinish)) fun b second hsecond _ _ ↦ ?_
  refine reading_bind (fun _ ↦ rfl) fun store hgrows _ ↦ ?_
  dsimp only
  split_ifs
  · exact never_bind (argsOutOfRange (by grind) (by grind))
  · exact bind (moveInCurrent (fun _ ↦ ⟨rfl, rfl, rfl, rfl⟩) fun _ _ ↦ Buffer.ordered_narrow _ _ _)
      fun _ _ _ _ _ ↦ nil

theorem widen : Upholds world Storage.widen Value.KnownTo :=
  bind (moveInCurrent (fun _ ↦ ⟨rfl, rfl, rfl, rfl⟩) fun _ hordered ↦ hordered.widen)
    fun _ _ _ _ _ ↦ nil

theorem pointMarker (hbuffer : world.HasBuffer 0) :
    Upholds world Storage.pointMarker Value.KnownTo := by
  intro store hgrows hsound
  have hcurrent := hsound.current (hgrows.hasBuffer hbuffer)
  have hordered := hsound.buffers.get store.buffers.currentIndex
  exact endsSound_makeMarker hsound hcurrent (Nat.le_trans hordered.start_pos hordered.start_le)
    (Nat.le_trans hordered.point_le hordered.finish_le)

theorem markerPosition {marker : Value} (hmarker : marker.KnownTo world) :
    Upholds world (Storage.markerPosition marker) Value.KnownTo := by
  refine reading_bind (fun _ ↦ rfl) fun store hgrows _ ↦ ?_
  dsimp only
  split_ifs
  · exact never_bind (wrongType rfl (hgrows.known hmarker))
  · refine bind (markerPosition? marker) fun position _ _ _ _ ↦ ?_
    cases position with
    | some position => exact ofNat position
    | none => exact nil

/-- The buffer that an optional argument means, by default the current one. -/
theorem givenBuffer {buffer : Value} (hbuffer : buffer.KnownTo world) (hfirst : world.HasBuffer 0)
    {next : Nat → Storage α} {gives : α → Store → Prop}
    (hnext : ∀ index later, world.Grows later → later.HasBuffer index →
      Upholds later (next index) gives) :
    Upholds world (match buffer.given? with
      | some value => do next (← Storage.bufferIndex value)
      | none => do next (← Storage.currentBufferIndex)) gives := by
  unfold Value.given?
  split_ifs
  · refine reading_bind (fun _ ↦ rfl) fun store hgrows hsound ↦ ?_
    exact hnext _ store hgrows (hsound.current (hgrows.hasBuffer hfirst))
  · exact bind (bufferIndex hbuffer) fun index later hlater _ hindex ↦
      hnext index later hlater hindex

theorem placeMarker {marker position buffer : Value} (hmarker : marker.KnownTo world)
    (hposition : position.KnownTo world) (hbuffer : buffer.KnownTo world)
    (hfirst : world.HasBuffer 0) :
    Upholds world (Storage.placeMarker marker position buffer) Value.KnownTo := by
  refine givenBuffer hbuffer hfirst fun index later hlater hindex ↦ ?_
  unfold Value.given?
  split_ifs
  · exact setMarker (hlater.known hmarker) nofun
  · refine bind (positionArgument (hlater.known hposition)) fun place last hlast _ _ ↦ ?_
    refine setMarker (hlast.known (hlater.known hmarker)) ?_
    rintro _ _ ⟨rfl, rfl⟩
    exact hlast.hasBuffer hindex

theorem currentBufferObject : Upholds world Storage.currentBufferObject Value.KnownTo :=
  aboutBuffer fun _ hsound ↦ hsound.known_object _

theorem setBuffer {buffer : Value} (hbuffer : buffer.KnownTo world) :
    Upholds world (Storage.setBuffer buffer) Value.KnownTo :=
  bind (bufferIndex hbuffer) fun _ _ _ _ hindex ↦
    bind (setCurrentBuffer hindex) fun _ _ _ _ _ ↦ currentBufferObject

theorem getBufferCreate {buffer : Value} (hbuffer : buffer.KnownTo world) :
    Upholds world (Storage.getBufferCreate buffer) Value.KnownTo := by
  refine reading_bind (fun _ ↦ rfl) fun store hgrows _ ↦ ?_
  split
  · exact .value (hgrows.known hbuffer)
  · exact bind (stringArgument (hgrows.known hbuffer)) fun name _ _ _ _ ↦ bufferNamed name

theorem bufferName {buffer : Value} (hbuffer : buffer.KnownTo world) (hfirst : world.HasBuffer 0) :
    Upholds world (Storage.bufferName buffer) Value.KnownTo :=
  givenBuffer hbuffer hfirst fun _ _ _ _ ↦ reading_bind (fun _ ↦ rfl) fun _ _ _ ↦ makeString _

end Upholds

end Storage

end LispMachine
