import LispMachine.Primitive.Editing
import LispMachine.Proofs.Buffer.Lines

/-!
Passing over characters of a set. A set is spelled as a sequence of characters and ranges. With a
backslash before every character except the end of a range it is read as what it spells
(`contains_spelling_iff`). A backslash before the end of a range is not taken as a quote: it is
itself the end of the range, and the character behind it is one more item
(`contains_quotedSpelling_iff`). Both follow from how each item is read in front of others
(`ReadsAs`). The motions stop at the first position, in their direction, whose character is not in
the set, or at their limit; `skipChars_stops` says where the point is after a motion, and
`skipChars_misreads_quoted_end` is a range that covers nothing of what it spells.
-/

set_option autoImplicit false

namespace LispMachine

/-! ### Spelling a set -/

/-- An item of a set: a character, or the characters from one to another. -/
inductive SkipItem where
  | single (c : Char)
  | range (first last : Char)

namespace SkipItem

/-- The characters that an item stands for. -/
def Covers : SkipItem → Char → Prop
  | single c, other => other = c
  | range first last, other => first ≤ other ∧ other ≤ last

instance (item : SkipItem) (c : Char) : Decidable (item.Covers c) :=
  match item with
  | single other => inferInstanceAs (Decidable (c = other))
  | range first last => inferInstanceAs (Decidable (first ≤ c ∧ c ≤ last))

/-- An item with a backslash before its characters, except for the end of a range. -/
def spelling : SkipItem → List Char
  | single c => ['\\', c]
  | range first last => ['\\', first, '-', last]

/-- An item with a backslash before each of its characters. -/
def quotedSpelling : SkipItem → List Char
  | single c => ['\\', c]
  | range first last => ['\\', first, '-', '\\', last]

/-- The characters that are read from an item with a backslash before each of its characters: a
range goes up to the backslash, and its end stands for itself. -/
def QuotedCovers : SkipItem → Char → Prop
  | single c, other => other = c
  | range first last, other => (first ≤ other ∧ other ≤ '\\') ∨ other = last

end SkipItem

namespace SkipSet

variable {c first last : Char} {rest : List Char} {negated : Bool} {items : List SkipItem}

/-- The text of a set whose items are spelled in some way. -/
def spell (spelled : SkipItem → List Char) (negated : Bool) (items : List SkipItem) : List Char :=
  (if negated then ['^'] else []) ++ items.flatMap spelled

/-- Some range has the character in it. -/
def Covered (ranges : List (Char × Char)) (c : Char) : Prop :=
  ∃ range ∈ ranges, range.1 ≤ c ∧ c ≤ range.2

/-- The text is at its end or goes on with a backslash, so nothing before it is taken for the start
of a range. -/
def StartsQuoted (text : List Char) : Prop := text = [] ∨ ∃ rest, text = '\\' :: rest

theorem parseRanges_quoted (hrest : StartsQuoted rest) :
    parseRanges ('\\' :: c :: rest) = (c, c) :: parseRanges rest := by
  rcases hrest with rfl | ⟨rest, rfl⟩ <;> rfl

theorem parseRanges_bare (hc : c ≠ '\\') (hrest : StartsQuoted rest) :
    parseRanges (c :: rest) = (c, c) :: parseRanges rest := by
  rcases hrest with rfl | ⟨rest, rfl⟩ <;> simp [parseRanges, hc]

theorem parseRanges_range (first last : Char) (rest : List Char) :
    parseRanges ('\\' :: first :: '-' :: last :: rest) =
      parseRanges.addRange first last (parseRanges rest) := rfl

theorem covered_cons {range : Char × Char} {ranges : List (Char × Char)} :
    Covered (range :: ranges) c ↔ (range.1 ≤ c ∧ c ≤ range.2) ∨ Covered ranges c := by
  simp [Covered]

/-- A range that is left out because it is empty covers nothing. -/
theorem covered_addRange {ranges : List (Char × Char)} :
    Covered (parseRanges.addRange first last ranges) c ↔
      (first ≤ c ∧ c ≤ last) ∨ Covered ranges c := by
  unfold parseRanges.addRange
  split_ifs with hle
  · exact covered_cons
  · refine (or_iff_right ?_).symm
    rintro ⟨hfirst, hlast⟩
    exact hle (Char.le_trans hfirst hlast)

theorem covered_same {ranges : List (Char × Char)} {other : Char} :
    Covered ((c, c) :: ranges) other ↔ other = c ∨ Covered ranges other := by
  rw [covered_cons]
  refine or_congr_left ⟨fun ⟨hle, hge⟩ ↦ Char.le_antisymm hge hle, ?_⟩
  rintro rfl
  exact ⟨Char.le_refl other, Char.le_refl other⟩

/-! ### Reading a set -/

/-- In front of a text that starts with a quote, this text is read as ranges that cover these
characters, and starts with a quote itself. -/
def ReadsAs (text : List Char) (covers : Char → Prop) : Prop :=
  ∀ rest, StartsQuoted rest → StartsQuoted (text ++ rest) ∧
    ∀ c, Covered (parseRanges (text ++ rest)) c ↔ covers c ∨ Covered (parseRanges rest) c

theorem readsAs_single (c : Char) : ReadsAs ['\\', c] (· = c) := by
  intro rest hrest
  refine ⟨.inr ⟨_, rfl⟩, fun other ↦ ?_⟩
  change Covered (parseRanges ('\\' :: c :: rest)) other ↔ _
  rw [parseRanges_quoted hrest]
  exact covered_same

theorem readsAs_range (first last : Char) :
    ReadsAs ['\\', first, '-', last] fun c ↦ first ≤ c ∧ c ≤ last :=
  fun _ _ ↦ ⟨.inr ⟨_, rfl⟩, fun _ ↦ covered_addRange⟩

/-- The backslash is taken for the end of the range, and what it should quote for one more item. -/
theorem readsAs_quotedRange (first : Char) (hlast : last ≠ '\\') :
    ReadsAs ['\\', first, '-', '\\', last] fun c ↦ (first ≤ c ∧ c ≤ '\\') ∨ c = last := by
  intro rest hrest
  refine ⟨.inr ⟨_, rfl⟩, fun c ↦ ?_⟩
  change Covered (parseRanges ('\\' :: first :: '-' :: '\\' :: last :: rest)) c ↔ _
  rw [parseRanges_range, covered_addRange, parseRanges_bare hlast hrest, covered_same]
  exact or_assoc.symm

theorem contains_iff {set : SkipSet} : set.contains c = true ↔
    if set.negated then ¬ Covered set.ranges c else Covered set.ranges c := by
  have hany : (set.ranges.any fun range ↦ range.1 ≤ c && c ≤ range.2) = true ↔
      Covered set.ranges c := by
    simp [Covered]
  rw [← hany]
  unfold contains
  cases set.negated <;> simp

section Spelled

variable {spelled : SkipItem → List Char} {covers : SkipItem → Char → Prop}

theorem readsAs_items (hitems : ∀ item ∈ items, ReadsAs (spelled item) (covers item)) :
    ReadsAs (items.flatMap spelled) fun c ↦ ∃ item ∈ items, covers item c := by
  intro rest hrest
  induction items with
  | nil => exact ⟨hrest, fun c ↦ by simp⟩
  | cons item items ih =>
    obtain ⟨hfirst, hlater⟩ := List.forall_mem_cons.mp hitems
    obtain ⟨hstarts, hcovered⟩ := ih hlater
    obtain ⟨hstarts', hcovered'⟩ := hfirst _ hstarts
    rw [List.flatMap_cons, List.append_assoc]
    refine ⟨hstarts', fun c ↦ ?_⟩
    rw [hcovered', hcovered]
    simp [or_assoc]

/-- A text that starts with a quoted item is negated only by the sign in front of it. -/
theorem parse_spell (hstarts : StartsQuoted (items.flatMap spelled)) :
    parse (spell spelled negated items) = ⟨negated, parseRanges (items.flatMap spelled)⟩ := by
  unfold spell
  cases negated with
  | true => rfl
  | false => rcases hstarts with hnil | ⟨rest, hrest⟩ <;> simp [*, parse]

/-- However items are spelled: a set has in it what its items are read as. -/
theorem contains_spell_iff (hitems : ∀ item ∈ items, ReadsAs (spelled item) (covers item)) :
    (parse (spell spelled negated items)).contains c = true ↔
      if negated then ¬ ∃ item ∈ items, covers item c else ∃ item ∈ items, covers item c := by
  obtain ⟨hstarts, hcovered⟩ := readsAs_items hitems [] (.inl rfl)
  rw [List.append_nil] at hstarts hcovered
  have hnone : ¬ Covered (parseRanges []) c := by simp [Covered, parseRanges]
  have hread : Covered (parseRanges (items.flatMap spelled)) c ↔ ∃ item ∈ items, covers item c :=
    (hcovered c).trans (or_iff_left hnone)
  rw [parse_spell hstarts, contains_iff]
  simp only [hread]

end Spelled

/-- A set whose range ends are not quoted has the characters that its items stand for. -/
theorem contains_spelling_iff : (parse (spell SkipItem.spelling negated items)).contains c = true ↔
    if negated then ¬ ∃ item ∈ items, item.Covers c else ∃ item ∈ items, item.Covers c := by
  refine contains_spell_iff fun item _ ↦ ?_
  cases item with
  | single c => exact readsAs_single c
  | range first last => exact readsAs_range first last

/-- A set whose range ends are quoted, where no range ends in a backslash. -/
theorem contains_quotedSpelling_iff
    (hends : ∀ first last, .range first last ∈ items → last ≠ '\\') :
    (parse (spell SkipItem.quotedSpelling negated items)).contains c = true ↔
      if negated then ¬ ∃ item ∈ items, item.QuotedCovers c
      else ∃ item ∈ items, item.QuotedCovers c := by
  refine contains_spell_iff fun item hmem ↦ ?_
  cases item with
  | single c => exact readsAs_single c
  | range first last => exact readsAs_quotedRange first (hends first last hmem)

end SkipSet

/-! ### Going over characters -/

namespace Buffer

variable {buffer : Buffer} {test : Char → Bool} {limit position : Nat}

/-- Where a motion forward over characters stops: behind those that are wanted, and before the
first that is not, unless the limit comes first. A limit that lies behind holds the motion where it
starts. -/
structure StopsForward (buffer : Buffer) (wanted : Char → Prop) (position limit place : Nat) :
    Prop where
  not_before : position ≤ place
  not_beyond : place ≤ max position limit
  passed : ∀ between, position ≤ between → between < place →
    ∃ c, buffer.charAt? between = some c ∧ wanted c
  stopped : place < limit → ∃ c, buffer.charAt? place = some c ∧ ¬ wanted c

/-- Where a motion backward over characters stops, which are those before the positions that it goes
through. -/
structure StopsBackward (buffer : Buffer) (wanted : Char → Prop) (position limit place : Nat) :
    Prop where
  not_beyond : place ≤ position
  not_before : min position limit ≤ place
  passed : ∀ between, place < between → between ≤ position →
    ∃ c, buffer.charAt? (between - 1) = some c ∧ wanted c
  stopped : limit < place → ∃ c, buffer.charAt? (place - 1) = some c ∧ ¬ wanted c

/-- In the accessible part there is a character behind every position but the last. -/
theorem Ordered.exists_charAt? (hordered : buffer.Ordered) (hstart : buffer.start ≤ position)
    (hfinish : position < buffer.finish) : ∃ c, buffer.charAt? position = some c := by
  have hpos := hordered.start_pos
  have hend := hordered.finish_le
  unfold textEnd at hend
  have hless : position - 1 < buffer.text.size := by omega
  refine ⟨buffer.text[position - 1], ?_⟩
  unfold charAt?
  simp [hstart, hfinish, hless]

theorem Ordered.forwardWithin_stops (hordered : buffer.Ordered) {room : Nat}
    (hstart : buffer.start ≤ position) (hroom : position + room ≤ buffer.finish) :
    buffer.StopsForward (test · = true) position (position + room)
      (buffer.forwardWithin test room position) := by
  induction room generalizing position with
  | zero =>
    unfold forwardWithin
    exact ⟨Nat.le_refl _, Nat.le_max_left _ _, fun _ hle hless ↦ absurd hle (Nat.not_le.mpr hless),
      fun hless ↦ absurd hless (Nat.lt_irrefl _)⟩
  | succ room ih =>
    obtain ⟨c, hchar⟩ := hordered.exists_charAt? hstart (by omega)
    unfold forwardWithin
    rw [hchar, Option.any_some]
    split_ifs with htest
    · have hrest : buffer.StopsForward _ (position + 1) (position + 1 + room) _ :=
        ih (Nat.le_succ_of_le hstart) (by omega)
      refine ⟨Nat.le_of_succ_le hrest.not_before, ?_, fun between hle hless ↦ ?_, fun hless ↦ ?_⟩
      · exact Nat.le_trans hrest.not_beyond (by omega)
      · rcases Nat.eq_or_lt_of_le hle with rfl | hlater
        · exact ⟨c, hchar, htest⟩
        · exact hrest.passed between hlater hless
      · exact hrest.stopped (by omega)
    · exact ⟨Nat.le_refl _, Nat.le_max_left _ _,
        fun _ hle hless ↦ absurd hle (Nat.not_le.mpr hless), fun _ ↦ ⟨c, hchar, htest⟩⟩

theorem Ordered.backwardWithin_stops (hordered : buffer.Ordered) {room : Nat}
    (hstart : buffer.start + room ≤ position) (hfinish : position ≤ buffer.finish) :
    buffer.StopsBackward (test · = true) position (position - room)
      (buffer.backwardWithin test room position) := by
  induction room generalizing position with
  | zero =>
    unfold backwardWithin
    exact ⟨Nat.le_refl _, Nat.min_le_left _ _, fun _ hless hle ↦ absurd hle (Nat.not_le.mpr hless),
      fun hless ↦ absurd hless (Nat.lt_irrefl _)⟩
  | succ room ih =>
    have hpos := hordered.start_pos
    have hbehind : buffer.start ≤ position - 1 := by omega
    obtain ⟨c, hchar⟩ := hordered.exists_charAt? hbehind (by omega)
    unfold backwardWithin
    rw [hchar, Option.any_some]
    split_ifs with htest
    · have hrest : buffer.StopsBackward _ (position - 1) (position - 1 - room) _ :=
        ih (by omega) (by omega)
      have hbeyond := hrest.not_beyond
      have hbefore := hrest.not_before
      refine ⟨by omega, by omega, fun between hless hle ↦ ?_, fun hless ↦ ?_⟩
      · rcases Nat.eq_or_lt_of_le hle with rfl | hearlier
        · exact ⟨c, hchar, htest⟩
        · exact hrest.passed between hless (by omega)
      · exact hrest.stopped (by omega)
    · exact ⟨Nat.le_refl _, Nat.min_le_left _ _,
        fun _ hless hle ↦ absurd hle (Nat.not_le.mpr hless), fun _ ↦ ⟨c, hchar, htest⟩⟩

theorem Ordered.forwardWhile_stops (hordered : buffer.Ordered) (hstart : buffer.start ≤ position)
    (hfinish : position ≤ buffer.finish) (hlimit : limit ≤ buffer.finish) :
    buffer.StopsForward (test · = true) position limit
      (buffer.forwardWhile test limit position) := by
  have hroom : position + (limit - position) ≤ buffer.finish := by omega
  have hstops : buffer.StopsForward (test · = true) position _
      (buffer.forwardWhile test limit position) :=
    hordered.forwardWithin_stops hstart hroom
  have hbeyond := hstops.not_beyond
  exact ⟨hstops.not_before, Nat.le_trans hbeyond (by omega), hstops.passed,
    fun hless ↦ hstops.stopped (Nat.lt_of_lt_of_le hless (by omega))⟩

theorem Ordered.backwardWhile_stops (hordered : buffer.Ordered) (hstart : buffer.start ≤ position)
    (hfinish : position ≤ buffer.finish) (hlimit : buffer.start ≤ limit) :
    buffer.StopsBackward (test · = true) position limit
      (buffer.backwardWhile test limit position) := by
  have hroom : buffer.start + (position - limit) ≤ position := by omega
  have hstops : buffer.StopsBackward (test · = true) position _
      (buffer.backwardWhile test limit position) :=
    hordered.backwardWithin_stops hroom hfinish
  have hbefore := hstops.not_before
  exact ⟨hstops.not_beyond, Nat.le_trans (by omega) hbefore, hstops.passed,
    fun hless ↦ hstops.stopped (Nat.lt_of_le_of_lt (by omega) hless)⟩

end Buffer

/-! ### The motions -/

/-- The limit that an argument gives: none for nil, or an integer, which is also the position of a
marker in a buffer. -/
inductive Store.GivesLimit (store : Store) : Value → Option Int → Prop where
  | absent : GivesLimit store .nil none
  | fixnum (n : Int) : GivesLimit store (.fixnum n) (some n)
  | marker {address buffer position : Nat}
      (hmarker : store.heap.objects[address]? = some (.marker ⟨some buffer, position⟩)) :
      GivesLimit store (.object address) (some position)

namespace Storage

variable {store : Store} {spelling limit : Value} {text : String} {bound : Option Int}

theorem stringArgument_apply (hspelling : store.heap.string? spelling = some text) :
    stringArgument spelling store = .ok text store := by
  unfold stringArgument
  rw [Action.read_bind, hspelling]
  rfl

theorem positionArgument_apply {position : Int}
    (hnumber : store.heap.number? limit = some (.integer position)) :
    positionArgument limit store = .ok position store := by
  have hread : number limit store = .ok (.integer position) store := by
    unfold number
    rw [Action.read_bind, hnumber]
    rfl
  have hattempt : Action.attempt (number limit) store = .ok (.ok (.integer position)) store := by
    unfold Action.attempt
    rw [hread]
  unfold positionArgument
  rw [Action.bind_of_ok hattempt]
  rfl

theorem skipArguments_apply (hspelling : store.heap.string? spelling = some text)
    (hlimit : store.GivesLimit limit bound) :
    skipArguments spelling limit store =
      .ok (SkipSet.parse text.toList, bound.map Int.toNat) store := by
  unfold skipArguments
  rw [Action.bind_of_ok (stringArgument_apply hspelling)]
  cases hlimit with
  | absent => rfl
  | fixnum n => rfl
  | @marker address buffer position hmarker =>
    have hnumber : store.heap.number? (.object address) = some (.integer position) := by
      unfold Heap.number? Heap.get?
      dsimp only
      rw [hmarker]
    exact Action.bind_of_ok (positionArgument_apply hnumber)

/-- A motion that stops at a place of the accessible part moves the point there. -/
theorem gotoPosition_apply {place : Nat} (hstart : store.buffers.current.start ≤ place)
    (hfinish : place ≤ store.buffers.current.finish) :
    gotoPosition place store = .ok () { store with
      buffers := store.buffers.updateCurrent fun buffer ↦ { buffer with point := place } } := by
  have hpoint : store.buffers.updateCurrent (·.setPoint place) =
      store.buffers.updateCurrent fun buffer ↦ { buffer with point := place } :=
    BufferStore.update_congr (Buffer.setPoint_eq hstart hfinish)
  change EStateM.Result.ok () { store with
    buffers := store.buffers.updateCurrent (·.setPoint place) } = _
  rw [hpoint]

end Storage

open Storage

/-- Passing over characters of a set. From a buffer that is in order the motions move its point and
do nothing else, and give the distance, which is negative for a motion backward.

* A set whose characters all have a backslash before them, except the ends of ranges, has in it what
  its items stand for, or what they do not stand for if there is a sign in front.
* With a backslash also before the ends of ranges, a range is read as one that goes up to the
  backslash, and its end as one more item.
* A motion stops at the first position in its direction whose character is not in the set, or at the
  limit, which is taken into the accessible part. It does not move if the limit lies behind it. -/
theorem skipChars_stops {store : Store} (hordered : store.buffers.current.Ordered)
    {spelling limit : Value} {text : String} {bound : Option Int}
    (hspelling : store.heap.string? spelling = some text)
    (hlimit : store.GivesLimit limit bound) :
    let buffer := store.buffers.current
    let set := SkipSet.parse text.toList
    let limitOr (default : Nat) :=
      clampBetween buffer.start buffer.finish ((bound.map Int.toNat).getD default)
    let moved (place : Nat) : Store :=
      { store with
        buffers := store.buffers.updateCurrent fun buffer ↦ { buffer with point := place } }
    (∀ negated items, text.toList = SkipSet.spell SkipItem.spelling negated items →
      ∀ c, set.contains c = true ↔
        if negated then ¬ ∃ item ∈ items, item.Covers c else ∃ item ∈ items, item.Covers c) ∧
    (∀ negated items, text.toList = SkipSet.spell SkipItem.quotedSpelling negated items →
      (∀ first last, .range first last ∈ items → last ≠ '\\') →
      ∀ c, set.contains c = true ↔
        if negated then ¬ ∃ item ∈ items, item.QuotedCovers c
        else ∃ item ∈ items, item.QuotedCovers c) ∧
    (∃ place : Nat,
      skipCharsForward spelling limit store =
        .ok (.ofInt (place - buffer.point)) (moved place) ∧
      buffer.StopsForward (set.contains · = true) buffer.point (limitOr buffer.finish) place) ∧
    ∃ place : Nat,
      skipCharsBackward spelling limit store =
        .ok (.ofInt (place - buffer.point)) (moved place) ∧
      buffer.StopsBackward (set.contains · = true) buffer.point (limitOr buffer.start) place := by
  intro buffer set limitOr moved
  have hargs := skipArguments_apply hspelling hlimit
  have hstart : buffer.start ≤ limitOr buffer.start := le_clampBetween hordered.start_le_finish _
  have hfinish : limitOr buffer.finish ≤ buffer.finish := clampBetween_le hordered.start_le_finish _
  have hgives {place : Nat} (hlow : buffer.start ≤ place) (hhigh : place ≤ buffer.finish) :
      (do gotoPosition place; return .ofInt (place - buffer.point) : Storage Value) store =
        .ok (.ofInt (place - buffer.point)) (moved place) :=
    Action.bind_of_ok (gotoPosition_apply hlow hhigh)
  refine ⟨fun negated items htext c ↦ ?_, fun negated items htext hends c ↦ ?_, ?_, ?_⟩
  · exact (congrArg (fun text ↦ (SkipSet.parse text).contains c = true) htext).to_iff.trans
      SkipSet.contains_spelling_iff
  · exact (congrArg (fun text ↦ (SkipSet.parse text).contains c = true) htext).to_iff.trans
      (SkipSet.contains_quotedSpelling_iff hends)
  · have hstops : buffer.StopsForward (set.contains · = true) buffer.point _ _ :=
      hordered.forwardWhile_stops hordered.start_le hordered.point_le hfinish
    have hlow := Nat.le_trans hordered.start_le hstops.not_before
    have hhigh := Nat.le_trans hstops.not_beyond (Nat.max_le.mpr ⟨hordered.point_le, hfinish⟩)
    exact ⟨_, (Action.bind_of_ok hargs).trans (hgives hlow hhigh), hstops⟩
  · have hstops : buffer.StopsBackward (set.contains · = true) buffer.point _ _ :=
      hordered.backwardWhile_stops hordered.start_le hordered.point_le hstart
    have hlow := Nat.le_trans (Nat.le_min.mpr ⟨hordered.start_le, hstart⟩) hstops.not_before
    have hhigh := Nat.le_trans hstops.not_beyond hordered.point_le
    exact ⟨_, (Action.bind_of_ok hargs).trans (hgives hlow hhigh), hstops⟩

/-- In the accessible part of a buffer, which is all behind the x, everything but digits is passed
up to the 1. The limit lies beyond the end. -/
theorem skipChars_stops_digit :
    let buffer : Buffer :=
      { name := "*scratch*", text := #['x', 'a', 'b', 'c', '1', 'd'], point := 2, start := 2
        finish := 7, object := .nil }
    let heap : Heap := { objects := #[.string "^\\0-9"], threshold := 1 }
    let store : Store := { heap := heap, buffers := { buffers := #[buffer] } }
    store.buffers.current.Ordered ∧ store.heap.string? (.object 0) = some "^\\0-9" ∧
      store.GivesLimit (.fixnum 100) (some 100) ∧
      "^\\0-9".toList = SkipSet.spell SkipItem.spelling true [.range '0' '9'] ∧
      skipCharsForward (.object 0) (.fixnum 100) store = .ok (.ofInt 3) { store with
        buffers := store.buffers.updateCurrent fun buffer ↦ { buffer with point := 5 } } := by
  intro buffer heap store
  have hordered : store.buffers.current.Ordered := by constructor <;> decide
  have hstring : store.heap.string? (.object 0) = some "^\\0-9" := rfl
  have hspelled : "^\\0-9".toList = SkipSet.spell SkipItem.spelling true [.range '0' '9'] := rfl
  have hlimit : store.GivesLimit (.fixnum 100) (some 100) := .fixnum 100
  obtain ⟨hset, -, ⟨place, hrun, hstops⟩, -⟩ :=
    skipChars_stops hordered hstring hlimit
  have hmembers := hset true _ hspelled
  have hbefore : 2 ≤ place := hstops.not_before
  have hplace : place = 5 := by
    rcases Nat.lt_trichotomy place 5 with hless | hsame | hmore
    · obtain ⟨c, hchar, hout⟩ := hstops.stopped (Nat.lt_trans hless (by decide))
      have hfront : place = 2 ∨ place = 3 ∨ place = 4 := by omega
      rcases hfront with rfl | rfl | rfl <;> cases hchar
      all_goals exact absurd ((hmembers _).mpr (by decide)) hout
    · exact hsame
    · obtain ⟨c, hchar, hin⟩ := hstops.passed 5 (by decide) hmore
      cases hchar
      exact absurd ((hmembers '1').mp hin) (by decide)
  rw [hplace] at hrun
  exact ⟨hordered, hstring, hlimit, hspelled, hrun⟩

/-- The range from a to z with a backslash before each of its characters: nothing of what it spells
is passed over but the z. -/
theorem skipChars_misreads_quoted_end :
    let buffer : Buffer :=
      { name := "*scratch*", text := #['m', 'z'], finish := 3, object := .nil }
    let heap : Heap := { objects := #[.string "\\a-\\z"], threshold := 1 }
    let store : Store := { heap := heap, buffers := { buffers := #[buffer] } }
    "\\a-\\z".toList = SkipSet.spell SkipItem.quotedSpelling false [.range 'a' 'z'] ∧
      (SkipItem.range 'a' 'z').Covers 'm' ∧
      (SkipSet.parse "\\a-\\z".toList).contains 'm' = false ∧
      (SkipSet.parse "\\a-\\z".toList).contains 'z' = true ∧
      skipCharsForward (.object 0) .nil store = .ok (.ofInt 0) store :=
  ⟨rfl, by decide, by decide, by decide, rfl⟩

end LispMachine
