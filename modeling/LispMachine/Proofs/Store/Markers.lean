import LispMachine.Proofs.Store.Sound

/-!
Buffers and the markers in them. Changing text moves the markers of the buffer with it, and pointing
a marker somewhere takes it off one list and puts it on another. In between, the heap and the lists
of the buffers disagree; these theorems say that they agree again when the change is complete.
-/

set_option autoImplicit false

namespace LispMachine

/-! ### One buffer -/

theorem le_clampBetween {low high : Nat} (hle : low ≤ high) (n : Nat) :
    low ≤ clampBetween low high n := by
  unfold clampBetween
  split_ifs <;> omega

theorem clampBetween_le {low high : Nat} (hle : low ≤ high) (n : Nat) :
    clampBetween low high n ≤ high := by
  unfold clampBetween
  split_ifs <;> omega

theorem clampBetween_mono {low high a b : Nat} (hab : a ≤ b) :
    clampBetween low high a ≤ clampBetween low high b ∨ high < low := by
  unfold clampBetween
  split_ifs <;> omega

namespace Buffer

theorem textEnd_insert (buffer : Buffer) (chars : List Char)
    (hpoint : buffer.point ≤ buffer.textEnd) :
    (buffer.insert chars).textEnd = buffer.textEnd + chars.length := by
  unfold textEnd at hpoint
  simp only [textEnd, insert, Array.size_append, Array.size_extract, List.size_toArray]
  omega

theorem textEnd_delete (buffer : Buffer) {low high : Nat} (hlow : 1 ≤ low) (hle : low ≤ high)
    (hhigh : high ≤ buffer.textEnd) :
    (buffer.delete low high).textEnd + (high - low) = buffer.textEnd := by
  unfold textEnd at hhigh
  simp only [textEnd, delete, Array.size_append, Array.size_extract]
  omega

theorem ordered_narrow (buffer : Buffer) (a b : Nat) : (buffer.narrow a b).Ordered := by
  have htext : 1 ≤ buffer.textEnd := Nat.le_add_left 1 _
  have hbounds :
      clampBetween 1 buffer.textEnd (min a b) ≤ clampBetween 1 buffer.textEnd (max a b) :=
    (clampBetween_mono (Nat.le_trans (Nat.min_le_left a b) (Nat.le_max_left a b))).resolve_right
      (Nat.not_lt.mpr htext)
  exact
    { start_pos := le_clampBetween htext _
      start_le := le_clampBetween hbounds _
      point_le := clampBetween_le hbounds _
      finish_le := clampBetween_le htext _ }

/-- A new buffer is in order. -/
theorem ordered_new (name : String) (object : Value) :
    ({ name := name, object := object } : Buffer).Ordered :=
  ⟨Nat.le_refl _, Nat.le_refl _, Nat.le_refl _, Nat.le_refl _⟩

namespace Ordered

variable {buffer : Buffer} (hordered : buffer.Ordered)

include hordered

theorem start_le_finish : buffer.start ≤ buffer.finish :=
  Nat.le_trans hordered.start_le hordered.point_le

/-- Of two positions in either order, the nearest accessible ones are in order. -/
theorem region (a b : Nat) :
    buffer.start ≤ clampBetween buffer.start buffer.finish (min a b) ∧
      clampBetween buffer.start buffer.finish (min a b) ≤
        clampBetween buffer.start buffer.finish (max a b) ∧
      clampBetween buffer.start buffer.finish (max a b) ≤ buffer.finish := by
  have hbounds := hordered.start_le_finish
  refine ⟨le_clampBetween hbounds _, ?_, clampBetween_le hbounds _⟩
  exact (clampBetween_mono (Nat.le_trans (Nat.min_le_left a b)
    (Nat.le_max_left a b))).resolve_right (Nat.not_lt.mpr hbounds)

theorem setPoint (position : Nat) : (buffer.setPoint position).Ordered where
  start_pos := hordered.start_pos
  start_le := le_clampBetween hordered.start_le_finish position
  point_le := clampBetween_le hordered.start_le_finish position
  finish_le := hordered.finish_le

theorem widen : buffer.widen.Ordered where
  start_pos := Nat.le_refl 1
  start_le := Nat.le_trans hordered.start_pos hordered.start_le
  point_le := Nat.le_trans hordered.point_le hordered.finish_le
  finish_le := Nat.le_refl _

theorem insert (chars : List Char) : (buffer.insert chars).Ordered where
  start_pos := hordered.start_pos
  start_le := Nat.le_trans hordered.start_le (Nat.le_add_right _ _)
  point_le := Nat.add_le_add_right hordered.point_le _
  finish_le := by
    rw [textEnd_insert buffer chars (Nat.le_trans hordered.point_le hordered.finish_le)]
    exact Nat.add_le_add_right hordered.finish_le _

theorem delete {low high : Nat} (hlow : buffer.start ≤ low) (hle : low ≤ high)
    (hhigh : high ≤ buffer.finish) : (buffer.delete low high).Ordered := by
  have hstart := hordered.start_pos
  have hpoint := hordered.start_le
  have hfinish := hordered.point_le
  have hend := hordered.finish_le
  have htext := textEnd_delete buffer (Nat.le_trans hstart hlow) hle (Nat.le_trans hhigh hend)
  constructor
  · exact hstart
  · change buffer.start ≤ shiftForDeletion low high buffer.point
    unfold shiftForDeletion
    split_ifs <;> omega
  · change shiftForDeletion low high buffer.point ≤ buffer.finish - (high - low)
    unfold shiftForDeletion
    split_ifs <;> omega
  · change buffer.finish - (high - low) ≤ (buffer.delete low high).textEnd
    omega

end Ordered

end Buffer

/-! ### All buffers -/

namespace BufferStore

variable {buffers : BufferStore}

theorem get_mem {index : Nat} (hindex : index < buffers.buffers.size) :
    buffers.get index ∈ buffers.buffers := by
  unfold get
  rw [Array.getD_eq_getD_getElem?, Array.getElem?_eq_getElem hindex]
  exact Array.getElem_mem hindex

theorem get_of_size_le {index : Nat} (hindex : buffers.buffers.size ≤ index) :
    buffers.get index = default := by
  unfold get
  rw [Array.getD_eq_getD_getElem?, Array.getElem?_eq_none hindex]
  rfl

theorem get_update {index : Nat} (hindex : index < buffers.buffers.size) (change : Buffer → Buffer)
    (place : Nat) :
    (buffers.update index change).get place =
      if place = index then change (buffers.get index) else buffers.get place := by
  unfold get update
  simp only [Array.getD_eq_getD_getElem?, Array.getElem?_modify]
  by_cases hplace : place = index
  · subst hplace
    simp [Array.getElem?_eq_getElem hindex]
  · simp [hplace, Ne.symm hplace]

theorem update_of_size_le {index : Nat} (hindex : buffers.buffers.size ≤ index)
    (change : Buffer → Buffer) : buffers.update index change = buffers := by
  have hsame : buffers.buffers.modify index change = buffers.buffers := by
    apply Array.ext_getElem?
    intro place
    rw [Array.getElem?_modify]
    split_ifs with heq
    · subst heq
      rw [Array.getElem?_eq_none hindex]
      rfl
    · rfl
  exact congrArg (BufferStore.mk · buffers.currentIndex) hsame

theorem update_congr {index : Nat} {change change' : Buffer → Buffer}
    (hsame : change (buffers.get index) = change' (buffers.get index)) :
    buffers.update index change = buffers.update index change' := by
  have harray : buffers.buffers.modify index change = buffers.buffers.modify index change' := by
    apply Array.ext_getElem?
    intro place
    rw [Array.getElem?_modify, Array.getElem?_modify]
    split_ifs with hplace
    · subst hplace
      unfold BufferStore.get at hsame
      rw [Array.getD_eq_getD_getElem?] at hsame
      cases hbuffer : buffers.buffers[index]? with
      | none => rfl
      | some buffer =>
        rw [hbuffer] at hsame
        exact congrArg some hsame
    · rfl
  exact congrArg (BufferStore.mk · buffers.currentIndex) harray

theorem update_self {index : Nat} {change : Buffer → Buffer}
    (hsame : change (buffers.get index) = buffers.get index) :
    buffers.update index change = buffers := by
  have harray : buffers.buffers.modify index id = buffers.buffers := by
    apply Array.ext_getElem?
    intro place
    rw [Array.getElem?_modify, Option.map_id, id_eq, ite_self]
  rw [update_congr (show change (buffers.get index) = id (buffers.get index) from hsame)]
  exact congrArg (BufferStore.mk · buffers.currentIndex) harray

/-- A buffer that is added is the last one, and the others stay where they are. -/
theorem get_push (buffer : Buffer) (index : Nat) :
    { buffers with buffers := buffers.buffers.push buffer : BufferStore }.get index =
      if index = buffers.buffers.size then buffer else buffers.get index := by
  unfold get
  simp only [Array.getD_eq_getD_getElem?, Array.getElem?_push]
  split_ifs <;> rfl

theorem names_push (buffer : Buffer) :
    { buffers with buffers := buffers.buffers.push buffer : BufferStore }.names =
      buffers.names ++ [buffer.name] := by
  simp [names]

theorem current_updateCurrent (hcurrent : buffers.currentIndex < buffers.buffers.size)
    (change : Buffer → Buffer) :
    (buffers.updateCurrent change).current = change buffers.current :=
  (get_update hcurrent change _).trans (if_pos rfl)

theorem update_update (buffers : BufferStore) (index : Nat) (first second : Buffer → Buffer) :
    (buffers.update index first).update index second =
      buffers.update index fun buffer ↦ second (first buffer) := by
  have harray : (buffers.buffers.modify index first).modify index second =
      buffers.buffers.modify index fun buffer ↦ second (first buffer) := by
    apply Array.ext_getElem?
    intro place
    simp only [Array.getElem?_modify]
    split_ifs
    · exact Option.map_map second first _
    · rfl
  exact congrArg (BufferStore.mk · buffers.currentIndex) harray

theorem size_update (index : Nat) (change : Buffer → Buffer) :
    (buffers.update index change).buffers.size = buffers.buffers.size :=
  Array.size_modify

theorem mem_update {index : Nat} {change : Buffer → Buffer} {buffer : Buffer}
    (hmem : buffer ∈ (buffers.update index change).buffers) :
    buffer ∈ buffers.buffers ∨ ∃ old ∈ buffers.buffers, buffer = change old := by
  obtain ⟨place, hplace⟩ := Array.mem_iff_getElem?.mp hmem
  unfold update at hplace
  rw [Array.getElem?_modify] at hplace
  split_ifs at hplace
  · obtain ⟨old, hold, rfl⟩ := Option.map_eq_some_iff.mp hplace
    exact .inr ⟨old, Array.mem_of_getElem? hold, rfl⟩
  · exact .inl (Array.mem_of_getElem? hplace)

theorem names_update {index : Nat} {change : Buffer → Buffer}
    (hname : ∀ buffer, (change buffer).name = buffer.name) :
    (buffers.update index change).names = buffers.names :=
  map_toList_modify hname buffers.buffers index

namespace Ordered

variable (hordered : buffers.Ordered)

include hordered

theorem get (index : Nat) : (buffers.get index).Ordered := by
  by_cases hindex : index < buffers.buffers.size
  · exact hordered.ordered _ (get_mem hindex)
  · rw [get_of_size_le (Nat.le_of_not_lt hindex)]
    exact Buffer.ordered_new _ _

theorem update {index : Nat} {change : Buffer → Buffer}
    (hname : ∀ buffer, (change buffer).name = buffer.name)
    (hchange : index < buffers.buffers.size → (change (buffers.get index)).Ordered) :
    (buffers.update index change).Ordered := by
  by_cases hindex : index < buffers.buffers.size
  · refine ⟨?_, ?_, ?_⟩
    · intro buffer hmem
      obtain ⟨place, hplace, rfl⟩ := Array.mem_iff_getElem.mp hmem
      have hget : (buffers.update index change).get place =
          (buffers.update index change).buffers[place] := by
        unfold BufferStore.get
        rw [Array.getD_eq_getD_getElem?, Array.getElem?_eq_getElem hplace]
        rfl
      rw [← hget, get_update hindex]
      split_ifs
      · exact hchange hindex
      · exact hordered.get place
    · rw [names_update hname]
      exact hordered.distinct
    · rw [size_update]
      exact hordered.current
  · rw [update_of_size_le (Nat.le_of_not_lt hindex)]
    exact hordered

theorem push {buffer : Buffer} (hbuffer : buffer.Ordered)
    (hname : buffers.find? buffer.name = none) :
    { buffers with buffers := buffers.buffers.push buffer : BufferStore }.Ordered := by
  refine ⟨fun other hmem ↦ ?_, ?_, ?_⟩
  · rcases Array.mem_push.mp hmem with hold | rfl
    · exact hordered.ordered other hold
    · exact hbuffer
  · rw [names_push]
    refine List.nodup_append.mpr ⟨hordered.distinct, by simp, ?_⟩
    rintro other hother _ hmem rfl
    obtain ⟨old, hold, hshared⟩ := List.mem_map.mp hother
    have hdiffers := Array.findIdx?_eq_none_iff.mp hname old (Array.mem_toList_iff.mp hold)
    rw [List.mem_singleton] at hmem
    simp [hshared, hmem] at hdiffers
  · rw [Array.size_push]
    exact hordered.current.imp_right Nat.lt_succ_of_lt

end Ordered

end BufferStore

/-- Each marker stays in its buffer, and goes where `move` says for that buffer. -/
def Heap.Moves (before after : Heap) (move : Nat → Nat → Nat) : Prop :=
  ∀ address, after.attachment? address =
    (before.attachment? address).map fun place ↦ (place.1, move place.1 place.2)

theorem Heap.Moves.refl (heap : Heap) : heap.Moves heap fun _ position ↦ position :=
  fun _ ↦ (congrFun Option.map_id _).symm

/-- Markers move within their buffers, which change but for their lists of markers. -/
theorem Tracked.moved {heap heap' : Heap} {buffers buffers' : BufferStore}
    (htracked : Tracked heap buffers) {move : Nat → Nat → Nat} (hmoves : heap.Moves heap' move)
    (hmarkers : ∀ index, (buffers'.get index).markers = (buffers.get index).markers)
    (hmove : ∀ index position, 1 ≤ position → position ≤ (buffers.get index).textEnd →
      1 ≤ move index position ∧ move index position ≤ (buffers'.get index).textEnd) :
    Tracked heap' buffers' := by
  refine ⟨fun address index ↦ ?_, fun index ↦ ?_, fun {address index position} hplace ↦ ?_⟩
  · rw [hmarkers, htracked.listed, hmoves address]
    rcases heap.attachment? address with _ | ⟨owner, position⟩ <;> simp
  · rw [hmarkers]
    exact htracked.once index
  · rw [hmoves address] at hplace
    obtain ⟨⟨owner, before⟩, hbefore, hsame⟩ := Option.map_eq_some_iff.mp hplace
    cases hsame
    obtain ⟨hpos, hend⟩ := htracked.placed hbefore
    exact hmove owner before hpos hend

namespace Store.Sound

variable {store : Store} (hsound : store.Sound)

include hsound

theorem current (hbuffer : store.HasBuffer 0) : store.HasBuffer store.buffers.currentIndex :=
  hsound.buffers.current.elim (fun hzero ↦ hzero ▸ hbuffer) id

theorem known_object (index : Nat) : (store.buffers.get index).object.KnownTo store := by
  by_cases hindex : index < store.buffers.buffers.size
  · exact hsound.handles _ (BufferStore.get_mem hindex)
  · rw [BufferStore.get_of_size_le (Nat.le_of_not_lt hindex)]
    exact hsound.known_nil

/-- A buffer is changed in nothing but its point and the bounds of its accessible part. -/
theorem moveIn (index : Nat) {change : Buffer → Buffer}
    (hkeeps : ∀ buffer, (change buffer).name = buffer.name ∧ (change buffer).text = buffer.text ∧
      (change buffer).markers = buffer.markers ∧ (change buffer).object = buffer.object)
    (hordered : ∀ buffer, buffer.Ordered → (change buffer).Ordered) :
    { store with buffers := store.buffers.update index change : Store }.Sound ∧
      store.Grows { store with buffers := store.buffers.update index change } := by
  have hnames : (store.buffers.update index change).names = store.buffers.names :=
    BufferStore.names_update fun buffer ↦ (hkeeps buffer).1
  have hgrows : store.Grows { store with buffers := store.buffers.update index change } :=
    .of_buffers (hnames ▸ List.prefix_rfl)
  have hget (place : Nat) :
      ((store.buffers.update index change).get place).markers = (store.buffers.get place).markers ∧
      ((store.buffers.update index change).get place).textEnd =
        (store.buffers.get place).textEnd := by
    by_cases hindex : index < store.buffers.buffers.size
    · rw [BufferStore.get_update hindex]
      split_ifs with heq
      · subst heq
        obtain ⟨-, htext, hmarkers, -⟩ := hkeeps (store.buffers.get place)
        exact ⟨hmarkers, by rw [Buffer.textEnd, htext, Buffer.textEnd]⟩
      · exact ⟨rfl, rfl⟩
    · rw [BufferStore.update_of_size_le (Nat.le_of_not_lt hindex)]
      exact ⟨rfl, rfl⟩
  refine ⟨hsound.with_tracked List.prefix_rfl hgrows.names (fun _ ↦ .inl) ?_ ?_ ?_, hgrows⟩
  · intro buffer hmem
    rcases BufferStore.mem_update hmem with hold | ⟨old, hold, rfl⟩
    · exact hgrows.known (hsound.handles buffer hold)
    · rw [(hkeeps old).2.2.2]
      exact hgrows.known (hsound.handles old hold)
  · exact hsound.buffers.update (fun buffer ↦ (hkeeps buffer).1) fun _ ↦
      hordered _ (hsound.buffers.get index)
  · refine hsound.tracked.moved (.refl _) (fun place ↦ (hget place).1) ?_
    intro place position hpos hend
    exact ⟨hpos, (hget place).2 ▸ hend⟩

/-- Another buffer becomes current. -/
theorem setCurrent {index : Nat} (hbuffer : store.HasBuffer index) :
    { store with buffers := { store.buffers with currentIndex := index } : Store }.Sound ∧
      store.Grows { store with buffers := { store.buffers with currentIndex := index } } := by
  have hgrows : store.Grows
      { store with buffers := { store.buffers with currentIndex := index } } :=
    .of_buffers List.prefix_rfl
  refine ⟨hsound.with_tracked List.prefix_rfl List.prefix_rfl (fun _ ↦ .inl) ?_ ?_ ?_, hgrows⟩
  · exact fun buffer hmem ↦ hgrows.known (hsound.handles buffer hmem)
  · exact ⟨hsound.buffers.ordered, hsound.buffers.distinct, Or.inr hbuffer⟩
  · exact ⟨hsound.tracked.listed, hsound.tracked.once, hsound.tracked.placed⟩

/-- A buffer with a new name is added, and the object that stands for it. -/
theorem addBuffer {name : String} (hname : store.buffers.find? name = none) :
    let object : Value := .object store.heap.size
    let after : Store := { store with
      heap := (store.heap.allocate (.buffer store.buffers.buffers.size)).2
      buffers := { store.buffers with
        buffers := store.buffers.buffers.push { name := name, object := object } } }
    after.Sound ∧ store.Grows after ∧ object.KnownTo after ∧
      after.HasBuffer store.buffers.buffers.size := by
  intro object after
  have hbuffer : after.HasBuffer store.buffers.buffers.size := by
    change store.buffers.buffers.size < (store.buffers.buffers.push _).size
    rw [Array.size_push]
    exact Nat.lt_succ_self _
  have hknown : object.KnownTo after := by
    change store.heap.size < (store.heap.objects.push _).size
    rw [Array.size_push]
    exact Nat.lt_succ_self _
  have hnames : store.buffers.names <+: after.buffers.names :=
    BufferStore.names_push _ ▸ List.prefix_append _ _
  have hgrows : store.Grows after :=
    ⟨store.heap.kinds_allocate _, List.prefix_rfl, hnames⟩
  -- the new buffer has no markers and no text, as what is behind the last buffer
  have hsame (index : Nat) :
      (after.buffers.get index).markers = (store.buffers.get index).markers ∧
      (after.buffers.get index).textEnd = (store.buffers.get index).textEnd := by
    rw [BufferStore.get_push]
    split_ifs with hindex
    · rw [BufferStore.get_of_size_le (Nat.le_of_eq hindex.symm)]
      exact ⟨rfl, rfl⟩
    · exact ⟨rfl, rfl⟩
  have hattached (address : Nat) :
      after.heap.attachment? address = store.heap.attachment? address := by
    rw [Heap.attachment?_allocate]
    split_ifs with hfresh
    · rw [hfresh, Heap.attachment?_size]
    · rfl
  refine ⟨hsound.with_tracked hgrows.kinds hnames ?_ ?_ ?_ ?_, hgrows, hknown, hbuffer⟩
  · intro other hmem
    rcases Array.mem_push.mp hmem with hold | rfl
    · exact .inl hold
    · exact .inr hbuffer
  · intro buffer hmem
    rcases Array.mem_push.mp hmem with hold | rfl
    · exact hgrows.known (hsound.handles buffer hold)
    · exact hknown
  · exact hsound.buffers.push (Buffer.ordered_new _ _) hname
  · refine hsound.tracked.moved
      (fun address ↦ (hattached address).trans (Heap.Moves.refl _ address))
      (fun index ↦ (hsame index).1) fun index position hpos hend ↦ ⟨hpos, ?_⟩
    rwa [(hsame index).2]

end Store.Sound

/-! ### Moving markers -/

namespace Heap

/-- Move the marker at one address. -/
def moveMarker (heap : Heap) (move : Nat → Nat) (address : Nat) : Heap :=
  match heap.marker? (.object address) with
  | some marker =>
    heap.set (.object address) (.marker { marker with position := move marker.position })
  | none => heap

theorem moveMarkers_cons (heap : Heap) (address : Nat) (addresses : List Nat) (move : Nat → Nat) :
    heap.moveMarkers (address :: addresses) move =
      (heap.moveMarker move address).moveMarkers addresses move :=
  rfl

/-- Replacing a marker by another one. -/
theorem attachment?_set_marker {heap : Heap} {address : Nat} {old marker : Marker}
    (hold : heap.marker? (.object address) = some old) (other : Nat) :
    (heap.set (.object address) (.marker marker)).attachment? other =
      if other = address then marker.buffer.map (·, marker.position)
      else heap.attachment? other := by
  have haddress : address < heap.objects.size :=
    (Array.getElem?_eq_some_iff.mp (marker?_eq_some.mp hold)).1
  unfold attachment? set
  dsimp only
  rw [Array.getElem?_setIfInBounds]
  by_cases heq : address = other
  · subst heq
    obtain ⟨_ | index, position⟩ := marker <;> simp [haddress]
  · simp [heq, Ne.symm heq]

theorem attachment?_moveMarker (heap : Heap) (move : Nat → Nat) (address other : Nat) :
    (heap.moveMarker move address).attachment? other =
      if other = address then (heap.attachment? address).map fun place ↦ (place.1, move place.2)
      else heap.attachment? other := by
  unfold moveMarker
  cases hmarker : heap.marker? (.object address) with
  | none =>
    have hnone : heap.attachment? address = none := by
      rw [Option.eq_none_iff_forall_not_mem]
      rintro ⟨index, position⟩ hattached
      have hsome : heap.marker? (.object address) = some ⟨some index, position⟩ :=
        marker?_eq_some.mpr (attachment?_eq_some.mp hattached)
      rw [hmarker] at hsome
      cases hsome
    split_ifs with heq
    · rw [heq, hnone]
      rfl
    · rfl
  | some marker =>
    dsimp only
    rw [attachment?_set_marker hmarker]
    have hattached : heap.attachment? address = marker.buffer.map (·, marker.position) := by
      unfold attachment?
      rw [← get?_object, marker?_eq_some.mp hmarker]
      obtain ⟨_ | index, position⟩ := marker <;> rfl
    rw [hattached]
    obtain ⟨_ | index, position⟩ := marker <;> rfl

/-- Moving some markers moves these and no others. -/
theorem attachment?_moveMarkers {addresses : List Nat} (hnodup : addresses.Nodup)
    (move : Nat → Nat) (heap : Heap) (other : Nat) :
    (heap.moveMarkers addresses move).attachment? other =
      if other ∈ addresses then
        (heap.attachment? other).map fun place ↦ (place.1, move place.2)
      else heap.attachment? other := by
  induction addresses generalizing heap with
  | nil => simp [moveMarkers]
  | cons address rest ih =>
    obtain ⟨hnew, hrest⟩ := List.nodup_cons.mp hnodup
    rw [moveMarkers_cons, ih hrest, attachment?_moveMarker]
    by_cases heq : other = address
    · subst heq
      simp [hnew]
    · simp [heq]

theorem kinds_moveMarker (heap : Heap) (move : Nat → Nat) (address : Nat) :
    (heap.moveMarker move address).kinds = heap.kinds := by
  unfold moveMarker
  split
  · next marker hmarker => exact kinds_set (marker?_eq_some.mp hmarker) rfl
  · rfl

theorem kinds_moveMarkers (heap : Heap) (addresses : List Nat) (move : Nat → Nat) :
    (heap.moveMarkers addresses move).kinds = heap.kinds := by
  induction addresses generalizing heap with
  | nil => rfl
  | cons address rest ih => rw [moveMarkers_cons, ih, kinds_moveMarker]

theorem mem_moveMarkers {heap : Heap} {addresses : List Nat} {move : Nat → Nat} {object : Object}
    (hmem : object ∈ (heap.moveMarkers addresses move).objects) :
    object ∈ heap.objects ∨ ∃ marker, object = .marker marker := by
  induction addresses generalizing heap with
  | nil => exact .inl hmem
  | cons address rest ih =>
    rw [moveMarkers_cons] at hmem
    rcases ih hmem with hold | hmarker
    · unfold moveMarker at hold
      split at hold
      · rcases mem_set hold with hold | rfl
        · exact .inl hold
        · exact .inr ⟨_, rfl⟩
      · exact .inl hold
    · exact .inr hmarker

end Heap

namespace Tracked

variable {heap : Heap} {buffers : BufferStore} (htracked : Tracked heap buffers)

include htracked

/-- Moving the markers on the list of a buffer moves the markers in that buffer. -/
theorem moves_moveMarkers (index : Nat) (move : Nat → Nat) :
    heap.Moves (heap.moveMarkers (buffers.get index).markers move) fun owner position ↦
      if owner = index then move position else position := by
  intro address
  have hlisted := htracked.listed address index
  rw [Heap.attachment?_moveMarkers (htracked.once index)]
  rcases hplace : heap.attachment? address with _ | ⟨owner, position⟩
  · simp
  · rw [hplace] at hlisted
    by_cases howner : owner = index <;> simp [hlisted, howner]

/-- The text of a buffer changes, and the markers in the buffer move with it. -/
theorem edit {index : Nat} (hindex : index < buffers.buffers.size) {change : Buffer → Buffer}
    {move : Nat → Nat} (hkeeps : ∀ buffer, (change buffer).markers = buffer.markers)
    (hmove : ∀ position, 1 ≤ position → position ≤ (buffers.get index).textEnd →
      1 ≤ move position ∧ move position ≤ (change (buffers.get index)).textEnd) :
    Tracked (heap.moveMarkers (buffers.get index).markers move) (buffers.update index change) := by
  refine htracked.moved (htracked.moves_moveMarkers index move) ?_ ?_
  · intro place
    rw [BufferStore.get_update hindex]
    split_ifs with hplace
    · rw [hplace, hkeeps]
    · rfl
  · intro place position hpos hend
    rw [BufferStore.get_update hindex]
    split_ifs with hplace
    · subst hplace
      exact hmove position hpos hend
    · exact ⟨hpos, hend⟩

end Tracked

/-- The text of a buffer changes, and the markers in the buffer move with it. -/
theorem Store.Sound.editIn {store : Store} (hsound : store.Sound) {index : Nat}
    (hindex : store.HasBuffer index) {change : Buffer → Buffer} {move : Nat → Nat}
    (hkeeps : ∀ buffer, (change buffer).name = buffer.name ∧
      (change buffer).markers = buffer.markers ∧ (change buffer).object = buffer.object)
    (hordered : (change (store.buffers.get index)).Ordered)
    (hmove : ∀ position, 1 ≤ position → position ≤ (store.buffers.get index).textEnd →
      1 ≤ move position ∧ move position ≤ (change (store.buffers.get index)).textEnd) :
    let after : Store := { store with
      heap := store.heap.moveMarkers (store.buffers.get index).markers move
      buffers := store.buffers.update index change }
    after.Sound ∧ store.Grows after := by
  intro after
  have hgrows : store.Grows after := by
    refine ⟨?_, List.prefix_rfl, ?_⟩
    · exact Heap.kinds_moveMarkers store.heap _ move ▸ List.prefix_rfl
    · exact BufferStore.names_update (fun buffer ↦ (hkeeps buffer).1) ▸ List.prefix_rfl
  have htracked : Tracked after.heap after.buffers :=
    hsound.tracked.edit hindex (fun buffer ↦ (hkeeps buffer).2.1) hmove
  refine ⟨hsound.with_tracked hgrows.kinds hgrows.names ?_ ?_ ?_ htracked, hgrows⟩
  · intro object hmem
    rcases Heap.mem_moveMarkers hmem with hold | ⟨marker, rfl⟩
    · exact .inl hold
    · exact .inr trivial
  · intro buffer hmem
    rcases BufferStore.mem_update hmem with hold | ⟨old, hold, rfl⟩
    · exact hgrows.known (hsound.handles buffer hold)
    · rw [(hkeeps old).2.2]
      exact hgrows.known (hsound.handles old hold)
  · exact hsound.buffers.update (fun buffer ↦ (hkeeps buffer).1) fun _ ↦ hordered

/-! ### Pointing markers -/

/-- One marker points elsewhere, and is on the list of the buffer that it points into and on no
other. -/
theorem Tracked.repoint {heap heap' : Heap} {buffers buffers' : BufferStore}
    (htracked : Tracked heap buffers) {address : Nat} {place : Option (Nat × Nat)}
    (hattached : ∀ other, heap'.attachment? other =
      if other = address then place else heap.attachment? other)
    (hlisted : ∀ index other, other ∈ (buffers'.get index).markers ↔
      if other = address then ∃ position, place = some (index, position)
      else other ∈ (buffers.get index).markers)
    (honce : ∀ index, (buffers'.get index).markers.Nodup)
    (htext : ∀ index, (buffers'.get index).textEnd = (buffers.get index).textEnd)
    (hplace : ∀ index position, place = some (index, position) →
      1 ≤ position ∧ position ≤ (buffers.get index).textEnd) : Tracked heap' buffers' := by
  refine ⟨?_, honce, ?_⟩
  · intro other index
    rw [hlisted, hattached]
    split_ifs
    · rfl
    · exact htracked.listed other index
  · intro other index position hattachment
    rw [hattached] at hattachment
    rw [htext]
    split_ifs at hattachment
    · exact hplace index position hattachment
    · exact htracked.placed hattachment

/-- The buffer without its list of markers. -/
def Buffer.unmarked (buffer : Buffer) : Buffer := { buffer with markers := [] }

theorem Buffer.ordered_unmarked {buffer : Buffer} : buffer.unmarked.Ordered ↔ buffer.Ordered :=
  ⟨fun ⟨hpos, hstart, hpoint, hfinish⟩ ↦ ⟨hpos, hstart, hpoint, hfinish⟩,
    fun ⟨hpos, hstart, hpoint, hfinish⟩ ↦ ⟨hpos, hstart, hpoint, hfinish⟩⟩

namespace BufferStore

/-- The buffers with a marker put on the list of one of them. -/
def attach (buffers : BufferStore) (index address : Nat) : BufferStore :=
  buffers.update index fun buffer => { buffer with markers := address :: buffer.markers }

/-- The buffers with a marker taken off the list of one of them. -/
def detach (buffers : BufferStore) (index address : Nat) : BufferStore :=
  buffers.update index fun buffer =>
    { buffer with markers := buffer.markers.filter fun other => other != address }

/-- The buffers with a marker taken off the list of the buffer that it points into, if any. -/
def forget (buffers : BufferStore) (marker : Marker) (address : Nat) : BufferStore :=
  match marker.buffer with
  | some index => buffers.detach index address
  | none => buffers

/-- Everything but the lists of markers is the same. -/
structure SameButMarkers (before after : BufferStore) : Prop where
  buffers : after.buffers.toList.map Buffer.unmarked = before.buffers.toList.map Buffer.unmarked
  current : after.currentIndex = before.currentIndex

namespace SameButMarkers

theorem refl (buffers : BufferStore) : SameButMarkers buffers buffers := ⟨rfl, rfl⟩

theorem trans {first middle last : BufferStore} (hfirst : SameButMarkers first middle)
    (hlast : SameButMarkers middle last) : SameButMarkers first last :=
  ⟨hlast.buffers.trans hfirst.buffers, hlast.current.trans hfirst.current⟩

theorem update (buffers : BufferStore) (index : Nat) (change : List Nat → List Nat) :
    SameButMarkers buffers
      (buffers.update index fun buffer => { buffer with markers := change buffer.markers }) := by
  refine ⟨map_toList_modify ?_ buffers.buffers index, rfl⟩
  exact fun buffer ↦ rfl

variable {before after : BufferStore} (hsame : SameButMarkers before after)

include hsame

theorem size : after.buffers.size = before.buffers.size := by
  simpa using congrArg List.length hsame.buffers

theorem names : after.names = before.names := by
  have hnames := congrArg (List.map Buffer.name) hsame.buffers
  rw [List.map_map, List.map_map] at hnames
  exact hnames

theorem get (index : Nat) :
    (after.get index).unmarked = (before.get index).unmarked := by
  have hplace := congrArg (·[index]?) hsame.buffers
  simp only [List.getElem?_map, Array.getElem?_toList] at hplace
  unfold BufferStore.get
  rw [Array.getD_eq_getD_getElem?, Array.getD_eq_getD_getElem?]
  cases hbefore : before.buffers[index]? <;> cases hafter : after.buffers[index]? <;>
    simp_all

theorem ordered_get {index : Nat} (hordered : (before.get index).Ordered) :
    (after.get index).Ordered := by
  rw [← Buffer.ordered_unmarked, hsame.get, Buffer.ordered_unmarked]
  exact hordered

theorem textEnd (index : Nat) : (after.get index).textEnd = (before.get index).textEnd :=
  show (after.get index).unmarked.textEnd = (before.get index).unmarked.textEnd from
    congrArg Buffer.textEnd (hsame.get index)

theorem exists_mem {buffer : Buffer} (hmem : buffer ∈ after.buffers) :
    ∃ old ∈ before.buffers, buffer.unmarked = old.unmarked := by
  have hstripped : buffer.unmarked ∈ after.buffers.toList.map Buffer.unmarked :=
    List.mem_map.mpr ⟨buffer, Array.mem_toList_iff.mpr hmem, rfl⟩
  rw [hsame.buffers] at hstripped
  obtain ⟨old, hold, heq⟩ := List.mem_map.mp hstripped
  exact ⟨old, Array.mem_toList_iff.mp hold, heq.symm⟩

theorem ordered (hordered : before.Ordered) : after.Ordered := by
  refine ⟨?_, hsame.names ▸ hordered.distinct, ?_⟩
  · intro buffer hmem
    obtain ⟨old, hold, heq⟩ := hsame.exists_mem hmem
    rw [← Buffer.ordered_unmarked, heq, Buffer.ordered_unmarked]
    exact hordered.ordered old hold
  · rw [hsame.current, hsame.size]
    exact hordered.current

end SameButMarkers

/-- Changes that do not see the markers keep buffers the same but for the markers. -/
theorem SameButMarkers.changed {before after : BufferStore} (hsame : SameButMarkers before after)
    (index : Nat) {change : Buffer → Buffer}
    (hchange : ∀ buffer, (change buffer).unmarked = change buffer.unmarked) :
    SameButMarkers (before.update index change) (after.update index change) := by
  refine ⟨?_, hsame.current⟩
  apply List.ext_getElem?
  intro place
  have hplace := congrArg (·[place]?) hsame.buffers
  simp only [List.getElem?_map, Array.getElem?_toList] at hplace
  simp only [List.getElem?_map, Array.getElem?_toList]
  change Option.map _ (after.buffers.modify index change)[place]? =
    Option.map _ (before.buffers.modify index change)[place]?
  rw [Array.getElem?_modify, Array.getElem?_modify]
  split_ifs
  · have hunmarked : Buffer.unmarked ∘ change = change ∘ Buffer.unmarked := funext hchange
    rw [Option.map_map, Option.map_map, hunmarked, ← Option.map_map, ← Option.map_map, hplace]
  · exact hplace

theorem same_forget (buffers : BufferStore) (marker : Marker) (address : Nat) :
    SameButMarkers buffers (buffers.forget marker address) := by
  unfold forget
  split
  · exact .update buffers _ (List.filter _)
  · exact .refl _

theorem markers_attach {buffers : BufferStore} {index : Nat} (hindex : index < buffers.buffers.size)
    (address place : Nat) :
    ((buffers.attach index address).get place).markers =
      if place = index then address :: (buffers.get place).markers
      else (buffers.get place).markers := by
  rw [attach, get_update hindex]
  split_ifs with heq
  · rw [heq]
  · rfl

end BufferStore

/-- The heap and the lists of markers change together. -/
theorem Store.Sound.remark {store : Store} (hsound : store.Sound) {heap : Heap}
    {buffers : BufferStore} (hkinds : store.heap.kinds <+: heap.kinds)
    (hobjects : ∀ object ∈ heap.objects,
      object ∈ store.heap.objects ∨ ∃ marker, object = .marker marker)
    (hsame : BufferStore.SameButMarkers store.buffers buffers) (htracked : Tracked heap buffers) :
    { store with heap := heap, buffers := buffers : Store }.Sound ∧
      store.Grows { store with heap := heap, buffers := buffers } := by
  have hgrows : store.Grows { store with heap := heap, buffers := buffers } :=
    ⟨hkinds, List.prefix_rfl, hsame.names ▸ List.prefix_rfl⟩
  refine ⟨hsound.with_tracked hkinds hgrows.names ?_ ?_ (hsame.ordered hsound.buffers) htracked,
    hgrows⟩
  · intro object hmem
    rcases hobjects object hmem with hold | ⟨marker, rfl⟩
    · exact .inl hold
    · exact .inr trivial
  · intro buffer hmem
    obtain ⟨old, hold, heq⟩ := hsame.exists_mem hmem
    have hobject : buffer.unmarked.object = old.unmarked.object := congrArg Buffer.object heq
    change buffer.object = old.object at hobject
    rw [hobject]
    exact hgrows.known (hsound.handles old hold)

/-- A new marker points into a buffer, and is on its list. -/
theorem Tracked.attach {heap : Heap} {buffers : BufferStore} (htracked : Tracked heap buffers)
    {index position : Nat} (hindex : index < buffers.buffers.size) (hpos : 1 ≤ position)
    (hend : position ≤ (buffers.get index).textEnd) :
    Tracked (heap.allocate (.marker ⟨some index, position⟩)).2
      (buffers.attach index heap.size) := by
  have hfresh (place : Nat) : heap.size ∉ (buffers.get place).markers := by
    intro hmem
    obtain ⟨position, hattached⟩ := (htracked.listed _ place).mp hmem
    rw [Heap.attachment?_size] at hattached
    cases hattached
  have hsame : BufferStore.SameButMarkers buffers (buffers.attach index heap.size) :=
    .update buffers index (heap.size :: ·)
  refine htracked.repoint (heap.attachment?_allocate _) ?_ ?_ hsame.textEnd ?_
  · intro place other
    rw [BufferStore.markers_attach hindex]
    by_cases hother : other = heap.size
    · subst hother
      by_cases hplace : place = index
      · simp [hplace]
      · simp [hplace, hfresh, Ne.symm hplace]
    · by_cases hplace : place = index <;> simp [hplace, hother]
  · intro place
    rw [BufferStore.markers_attach hindex]
    split_ifs
    · exact List.nodup_cons.mpr ⟨hfresh place, htracked.once place⟩
    · exact htracked.once place
  · rintro _ _ ⟨rfl, rfl⟩
    exact ⟨hpos, hend⟩

/-- A marker is made at a position in the text of a buffer. -/
theorem Store.Sound.addMarker {store : Store} (hsound : store.Sound) {index position : Nat}
    (hindex : store.HasBuffer index) (hpos : 1 ≤ position)
    (hend : position ≤ (store.buffers.get index).textEnd) :
    let after : Store := { store with
      heap := (store.heap.allocate (.marker ⟨some index, position⟩)).2
      buffers := store.buffers.attach index store.heap.size }
    after.Sound ∧ store.Grows after ∧ (Value.object store.heap.size).KnownTo after := by
  intro after
  have hsame : BufferStore.SameButMarkers store.buffers after.buffers :=
    .update store.buffers index (store.heap.size :: ·)
  have htracked : Tracked after.heap after.buffers := hsound.tracked.attach hindex hpos hend
  have hobjects : ∀ object ∈ after.heap.objects,
      object ∈ store.heap.objects ∨ ∃ marker, object = .marker marker := by
    intro object hmem
    rcases Array.mem_push.mp hmem with hold | rfl
    · exact .inl hold
    · exact .inr ⟨_, rfl⟩
  obtain ⟨hafter, hgrows⟩ :=
    hsound.remark (store.heap.kinds_allocate _) hobjects hsame htracked
  refine ⟨hafter, hgrows, ?_⟩
  change store.heap.size < (store.heap.objects.push _).size
  rw [Array.size_push]
  exact Nat.lt_succ_self _

section Repointing

variable {store : Store} (hsound : store.Sound) {address : Nat} {marker : Marker}
  (hmarker : store.heap.marker? (.object address) = some marker)

include hsound hmarker

/-- Once a marker is taken off the list of its buffer, it is on no list. -/
theorem Store.Sound.markers_forget (place : Nat) :
    ((store.buffers.forget marker address).get place).markers =
      (store.buffers.get place).markers.filter fun other => other != address := by
  have hunlisted (hne : marker.buffer ≠ some place) :
      (store.buffers.get place).markers =
        (store.buffers.get place).markers.filter fun other => other != address := by
    symm
    rw [List.filter_eq_self]
    intro other hmem
    rw [bne_iff_ne]
    rintro rfl
    obtain ⟨position, hattached⟩ := (hsound.tracked.listed _ place).mp hmem
    have hheld : store.heap.marker? (.object other) = some ⟨some place, position⟩ :=
      Heap.marker?_eq_some.mpr (Heap.attachment?_eq_some.mp hattached)
    rw [hmarker] at hheld
    cases hheld
    exact hne rfl
  unfold BufferStore.forget
  split
  · next index hindex =>
    unfold BufferStore.detach
    by_cases hsize : index < store.buffers.buffers.size
    · rw [BufferStore.get_update hsize]
      split_ifs with hplace
      · rw [hplace]
      · exact hunlisted fun heq ↦ hplace (Option.some.inj (heq.symm.trans hindex))
    · rw [BufferStore.update_of_size_le (Nat.le_of_not_lt hsize)]
      by_cases hplace : place = index
      · rw [hplace, BufferStore.get_of_size_le (Nat.le_of_not_lt hsize)]
        rfl
      · exact hunlisted fun heq ↦ hplace (Option.some.inj (heq.symm.trans hindex))
  · next hnone => exact hunlisted (by rw [hnone]; exact nofun)

/-- A marker is pointed at a position of a buffer or nowhere. -/
theorem Store.Sound.repoint {place : Marker} {buffers : BufferStore}
    (hsame : BufferStore.SameButMarkers store.buffers buffers)
    (hlisted : ∀ index other, other ∈ (buffers.get index).markers ↔
      if other = address then place.buffer = some index
      else other ∈ (store.buffers.get index).markers)
    (honce : ∀ index, (buffers.get index).markers.Nodup)
    (hplace : ∀ index, place.buffer = some index →
      1 ≤ place.position ∧ place.position ≤ (store.buffers.get index).textEnd) :
    let after : Store := { store with
      heap := store.heap.set (.object address) (.marker place), buffers := buffers }
    after.Sound ∧ store.Grows after := by
  intro after
  have hkinds : after.heap.kinds = store.heap.kinds :=
    Heap.kinds_set (Heap.marker?_eq_some.mp hmarker) rfl
  refine hsound.remark (hkinds ▸ List.prefix_rfl) ?_ hsame ?_
  · intro object hmem
    rcases Heap.mem_set hmem with hold | rfl
    · exact .inl hold
    · exact .inr ⟨_, rfl⟩
  · refine hsound.tracked.repoint (Heap.attachment?_set_marker hmarker) ?_ honce hsame.textEnd ?_
    · intro index other
      rw [hlisted]
      split_ifs
      · simp [Option.map_eq_some_iff]
      · rfl
    · intro index position heq
      obtain ⟨buffer, hbuffer, hpair⟩ := Option.map_eq_some_iff.mp heq
      cases hpair
      exact hplace index hbuffer

/-- A marker is taken out of its buffer. -/
theorem Store.Sound.pointNowhere :
    let after : Store := { store with
      heap := store.heap.set (.object address) (.marker ⟨none, 0⟩)
      buffers := store.buffers.forget marker address }
    after.Sound ∧ store.Grows after := by
  have hforget := hsound.markers_forget hmarker
  refine hsound.repoint hmarker (BufferStore.same_forget _ _ _) ?_ ?_ nofun
  · intro index other
    rw [hforget]
    by_cases hother : other = address <;> simp [hother]
  · intro index
    rw [hforget]
    exact (hsound.tracked.once index).filter _

/-- A marker is pointed at the position of a buffer that is nearest to the one wanted. -/
theorem Store.Sound.pointAt {index : Nat} (hindex : store.HasBuffer index) (position : Nat) :
    let forgotten := store.buffers.forget marker address
    let after : Store := { store with
      heap := store.heap.set (.object address)
        (.marker ⟨some index, clampBetween 1 (forgotten.get index).textEnd position⟩)
      buffers := forgotten.attach index address }
    after.Sound ∧ store.Grows after := by
  intro forgotten after
  have hforget := hsound.markers_forget hmarker
  have hsame := BufferStore.same_forget store.buffers marker address
  have hattached := BufferStore.SameButMarkers.update forgotten index (address :: ·)
  have hsize : index < forgotten.buffers.size := hsame.size ▸ hindex
  have hmarkers (place : Nat) : (after.buffers.get place).markers =
      if place = index then
        address :: (store.buffers.get place).markers.filter fun other => other != address
      else (store.buffers.get place).markers.filter fun other => other != address := by
    rw [BufferStore.markers_attach hsize, hforget]
  have htext : 1 ≤ (forgotten.get index).textEnd := Nat.le_add_left 1 _
  refine hsound.repoint hmarker (hsame.trans hattached) ?_ ?_ ?_
  · intro place other
    rw [hmarkers]
    by_cases hother : other = address
    · by_cases hplace : place = index
      · simp [hother, hplace]
      · simp [hother, hplace, Ne.symm hplace]
    · by_cases hplace : place = index <;> simp [hother, hplace]
  · intro place
    rw [hmarkers]
    have honce := (hsound.tracked.once place).filter fun other => other != address
    split_ifs
    · exact List.nodup_cons.mpr ⟨by simp, honce⟩
    · exact honce
  · rintro _ ⟨rfl⟩
    rw [← hsame.textEnd]
    exact ⟨le_clampBetween htext _, clampBetween_le htext _⟩

end Repointing

end LispMachine
